import HermesOps.Model.World

/-! The fixed data that concrete runs of the system are built from: a linear commit history, one
    project, an objective and a plan of one pipeline task. -/

namespace HermesOps.Scenario

/-- Every commit descends from the smaller ones. -/
def history : History where
  isAncestor a b := decide (a ≤ b)
  refl := by simp
  trans a b c := by simpa using Nat.le_trans

def config : Config := ⟨2, 30⟩

/-- One enabled project, clean, on its default branch at commit 0. -/
def projects : Schemes.Table ProjectId Project := ⟨[(0, ⟨true, true, true, true, 0, []⟩)], by decide⟩

def start : World := World.initial projects

abbrev system : Schemes.Machine Action World := machine history config

theorem system_start : system.start start :=
  ⟨projects, fun k p h => by
    rw [← Schemes.Table.mem_rows_iff] at h
    simp only [projects, List.mem_singleton, Prod.mk.injEq] at h
    rw [h.2], rfl⟩

/-- An objective for the planner, with three attempts. -/
def submission : Submission := ⟨"goal", .ai, 100, 0, [0], 1, 3, none⟩

theorem one_parallel : 1 ≤ 1 ∧ 1 ≤ 16 := by decide

theorem two_parallel : 1 ≤ 2 ∧ 2 ≤ 16 := by decide

/-- A plan of one task of the kind. -/
def plan (kind : TaskKind) (projectId : Option ProjectId)
    (h : kind = .pipeline → projectId.isSome = true) : NormalizedPlan where
  maxParallelTasks := 1
  tasks := [⟨"build", kind, projectId, 100, 1, []⟩]
  parallelBounds := one_parallel
  size := by simp
  keys := by simp
  ordered := by simp
  known := by simp
  distinct := by simp
  attempts := by simp
  projects := by simpa using h

/-- A plan of one pipeline task on the project. -/
def pipelinePlan : NormalizedPlan := plan .pipeline (some 0) (by decide)

/-- A plan of one task that does nothing. -/
def noopPlan : NormalizedPlan := plan .noop none (by decide)

/-- The approval of the commit by the independent reviewer. -/
def approval (r : RunId) (c : Commit) : Review where
  runId := r
  reviewDecision := some .approve
  reviewVerdict := some .pass
  executionVerdict := some .pass
  roleId := "reviewer"
  sourceProfile := "ops-reviewer"
  taskRole := "reviewer"
  taskStatus := "COMPLETED"
  workspaceMode := "read_only"
  networkEnabled := false
  mountVerified := true
  isolationVerified := true
  repositoryUnchanged := true
  exitCode := some 0
  failureReason := none
  executionId := 0
  createdAt := 100
  finishedAt := some 100
  detailsDecision := some .approve
  detailsExecutionId := some 0
  resultDecision := some .approve
  resultVerdict := some .pass
  resultCommit := some c
  resultMarkerFound := true
  resultRepositoryUnchanged := true

/-- The reviewer leaves the decision on the commit to a human. -/
def humanReview (r : RunId) (c : Commit) : Review :=
  { approval r c with
    reviewDecision := some .blockHuman
    reviewVerdict := some .human
    executionVerdict := some .human
    detailsDecision := some .blockHuman
    resultDecision := some .blockHuman
    resultVerdict := some .human }

/-- Run `r` is begun, submits `c`, is approved and prepared for integration; process `pid + 2` is the
    integrator, about to fast-forward. -/
def integrating (r : RunId) (c : Commit) (pid : Pid) : List Action :=
  [ .operator pid (.begin 0 "operator"),
    .process pid 1 r false,
    .process pid 2 r false,
    .process pid 3 r false,
    .environment (.worktree r ⟨true, true, true, true, c⟩),
    .operator (pid + 1) (.submit r),
    .process (pid + 1) 4 r false,
    .process (pid + 1) 5 r false,
    .process (pid + 1) 6 r false,
    .environment (.review r (approval r c)),
    .operator (pid + 2) (.apply r "operator"),
    .process (pid + 2) 101 r false,
    .process (pid + 2) 102 r false,
    .process (pid + 2) 103 r false,
    .process (pid + 2) 104 r false ]

/-- A pipeline task whose run is about to be reviewed. -/
def reviewedPipeline : List Action :=
  [ .objective (.submit 0 submission 1),
    .objective (.reserve 0 0 2),
    .planner 0 (.insert pipelinePlan 0 0 3),
    .planner 0 (.success 4),
    .graph (.refresh 0 5),
    .graph (.reserve 0 0 6),
    .thread 0 7 0 false,
    .process 0 8 0 false,
    .process 0 9 0 false,
    .process 0 10 0 false,
    .thread 0 11 0 false,
    .thread 0 12 0 false,
    .environment (.worktree 0 ⟨true, true, true, true, 1⟩),
    .thread 0 13 1 false,
    .process 1 14 0 false,
    .process 1 15 0 false,
    .process 1 16 0 false,
    .thread 0 17 0 false ]

end HermesOps.Scenario
