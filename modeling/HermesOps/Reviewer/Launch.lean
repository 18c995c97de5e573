import HermesOps.Reviewer.Assignments
import Mathlib.Algebra.Group.Int.Defs
import Mathlib.Algebra.Group.Nat.Defs

/-! `command_launch` of `hermesops-reviewer.py` and of `hermesops-worker.py`, from the transaction that
    reserves the run to the end of the process. What a step of the `try` block or of the `finally`
    block does to containers, repositories and the runtime is an outcome of the environment: it returns
    a value or it raises. The transactions are computed. Between two steps other processes fail
    assignments and recover runs. -/

namespace HermesOps.Reviewer

open Controller Schemes

/-! ### Local variables -/

/-- `RuntimeErrorKind`. -/
inductive RuntimeErrorKind where
  | runtimeUnavailable
  | executionFailed
  | timeout
  | invalidResult
  | cancelled
  deriving DecidableEq

def RuntimeErrorKind.value : RuntimeErrorKind → String
  | .runtimeUnavailable => "runtime_unavailable"
  | .executionFailed => "execution_failed"
  | .timeout => "timeout"
  | .invalidResult => "invalid_result"
  | .cancelled => "cancelled"

/-- What a step of the `try` block raises: an `AgentRuntimeError`, with whether its output could be
    written to the transcript; another exception, with its text; or what no `except` clause catches. -/
inductive Raised where
  | runtime (kind : RuntimeErrorKind) (message : PyText) (exitStatus : Option Int) (persisted : Bool)
  | exception (message : PyText)
  | uncaught

/-- `DECISION_VERDICTS`. -/
def decisionVerdicts : Decision → List Verdict
  | .approve => [.pass, .passWithDebt]
  | .reject => [.fix, .security, .performance, .architecture]
  | .blockHuman => [.human]

/-- What `parse_review_output` returns, whatever the output is. -/
structure ParsedReview where
  decision : Decision
  verdict : Verdict
  summary : PyText
  agreed : verdict ∈ decisionVerdicts decision
  bounded : 1 ≤ summary.length ∧ summary.length ≤ 4000

/-- The variables that the `finally` block reads. -/
structure Locals where
  hasClone : Bool
  sandboxId : Option String
  audited : Bool
  exitCode : Option Int
  review : Option ParsedReview
  failureReason : Option PyText
  success : Bool
  repositoryUnchanged : Bool

namespace Locals

def initial : Locals := ⟨false, none, false, none, none, none, false, false⟩

/-- `record_runtime_failure`, of the reason. -/
def runtimeReason (kind : RuntimeErrorKind) (message : PyText) (persisted : Bool) : PyText :=
  pyText ("runtime_error[" ++ kind.value ++ "]: ") ++ message.take 4096 ++
    if persisted then [] else pyText "; transcript_persistence_failed"

/-- The `except` clauses. -/
def caught (l : Locals) : Raised → Locals
  | .runtime kind message exitStatus persisted =>
    { l with
      exitCode := exitStatus
      failureReason := some (runtimeReason kind message persisted) }
  | .exception message => { l with failureReason := some message }
  | .uncaught => l

/-- SQLite can bind what the `UPDATE` of the execution sets. -/
def isBindable (l : Locals) : Bool :=
  l.failureReason.all isStorable ∧ l.exitCode.all fun code => -2 ^ 63 ≤ code ∧ code < 2 ^ 63

end Locals

/-! ### Steps -/

/-- The steps of the two `try` blocks. -/
inductive TryStep where
  | prepareClone
  | readClone
  | precreateSandbox
  | execute
  | persistTranscript
  | parseOutput
  | auditSandbox
  | compareReferences
  | importResult
  deriving DecidableEq

namespace TryStep

/-- What a step returns. -/
def Value : TryStep → Type
  | .precreateSandbox => String
  | .parseOutput => ParsedReview
  | .compareReferences => Bool
  | _ => Unit

/-- The variables after a step that returns, and what the check that follows it raises. -/
def assign : (step : TryStep) → step.Value → Locals → Locals × Option Raised
  | .prepareClone, _, l => ({ l with hasClone := true }, none)
  | .readClone, _, l => (l, none)
  | .precreateSandbox, id, l => ({ l with sandboxId := some id, audited := true }, none)
  | .execute, _, l => ({ l with exitCode := some 0 }, none)
  | .persistTranscript, _, l => (l, none)
  | .parseOutput, review, l => ({ l with review := some review }, none)
  | .auditSandbox, _, l => ({ l with audited := true }, none)
  | .compareReferences, (unchanged : Bool), l =>
    ({ l with repositoryUnchanged := unchanged },
      if unchanged then none
      else some (.exception (pyText "Reviewer changed Git state or transaction contents")))
  | .importResult, _, l => (l, none)

end TryStep

/-- The steps of the two `finally` blocks before the transaction. -/
inductive CleanStep where
  | removeSandbox
  | makeCloneWritable
  | cleanupCreatedSandboxes
  | removeClone
  deriving DecidableEq

/-- The step runs anything that may raise. -/
def CleanStep.runs (l : Locals) : CleanStep → Bool
  | .removeSandbox => l.sandboxId.isSome ∧ l.hasClone
  | .makeCloneWritable => l.hasClone
  | .cleanupCreatedSandboxes => true
  | .removeClone => l.hasClone

/-! ### Transactions -/

def reject (test : Bool) (message : String) : Review Unit := Txn.ensure (!test) (.program message)

def bindable (test : Bool) : Review Unit := Txn.ensure test .binding

def runStatusText : RunStatus → String
  | .queued => "QUEUED"
  | .snapshotting => "SNAPSHOTTING"
  | .running => "RUNNING"
  | .reviewing => "REVIEWING"
  | .waitingHuman => "WAITING_HUMAN"
  | .committing => "COMMITTING"
  | .completed => "COMPLETED"
  | .failed => "FAILED"
  | .cancelled => "CANCELLED"
  | .recovering => "RECOVERING"

/-- The part of `load_run` that the two programs share, with its `JOIN`. -/
def loadRun (status : RunStatus) (runId : String) : Review RunRow := do
  let found ← query fun d => (d.runs.get? runId).bind fun run =>
    (d.projects.get? run.projectId).map fun enabled => (run, enabled)
  match found with
  | none => Txn.raise (.program ("Unknown run: " ++ runId))
  | some (run, enabled) =>
    reject (run.status ≠ status)
      ("Run is not " ++ runStatusText status ++ ": " ++ runStatusText run.status)
    reject (!enabled) "Project is disabled"
    let locked ← query fun d => d.locks.any fun _ holder => holder = runId
    reject (!locked) "Transaction lock is absent"
    return run

/-- The tasks of a run that refuse a reservation. -/
def ReviewDatabase.activeTasks (d : ReviewDatabase) (runId : String) : List (String × LaunchTask) :=
  d.tasks.select fun _ t => t.runId = runId ∧ t.status = .running

/-- `INSERT INTO tasks`. -/
def insertTask (id : String) (t : LaunchTask) (d : ReviewDatabase) : Option (Unit × ReviewDatabase) :=
  if (d.runs.get? t.runId).isSome then
    (d.tasks.insert id t).map fun tasks => ((), { d with tasks })
  else none

/-- `INSERT INTO reviewer_executions`. -/
def insertReviewerExecution (id : String) (e : ReviewerExecution) (d : ReviewDatabase) :
    Option (Unit × ReviewDatabase) :=
  if (d.tasks.get? e.taskId).isSome ∧ (d.runs.get? e.runId).isSome ∧ (d.roles.get? e.roleId).isSome ∧
      ¬d.executions.any (fun _ x => x.taskId = e.taskId) then
    (d.executions.insert id e).map fun executions => ((), { d with executions })
  else none

/-- `INSERT INTO worker_executions`. -/
def insertWorkerExecution (id : String) (e : WorkerExecution) (d : ReviewDatabase) :
    Option (Unit × ReviewDatabase) :=
  if (d.tasks.get? e.taskId).isSome ∧ (d.runs.get? e.runId).isSome ∧ (d.roles.get? e.roleId).isSome ∧
      ¬d.workerExecutions.any (fun _ x => x.taskId = e.taskId) then
    (d.workerExecutions.insert id e).map fun workerExecutions => ((), { d with workerExecutions })
  else none

/-- `INSERT INTO review_results`; a run has one. -/
def insertReviewResult (id : String) (r : ReviewResult) (d : ReviewDatabase) :
    Option (Unit × ReviewDatabase) :=
  if (d.runs.get? r.runId).isSome ∧ ¬d.results.any (fun _ x => x.runId = r.runId) then
    (d.results.insert id r).map fun results => ((), { d with results })
  else none

/-- `UPDATE tasks SET status=?, finished_at=?`. -/
def updateTask (id : String) (success : Bool) (now : String) (d : ReviewDatabase) :
    Option (Unit × ReviewDatabase) :=
  let tasks := d.tasks.updateAt id fun t =>
    { t with
      status := if success then .completed else .failed
      finishedAt := some now }
  some ((), { d with tasks })

/-- What a launch has read of its run and role, and the names it has drawn. -/
structure ReviewLaunch where
  runId : String
  projectId : String
  roleId : String
  sourceProfile : String
  assignmentId : String
  taskHex : String
  executionHex : String
  reviewHex : String

namespace ReviewLaunch

def taskId (l : ReviewLaunch) : String := "task-" ++ l.taskHex

def executionId (l : ReviewLaunch) : String := "review-execution-" ++ l.executionHex

def reviewId (l : ReviewLaunch) : String := "review-" ++ l.reviewHex

end ReviewLaunch

variable (rules : ReviewRules)

/-- `reserve_review`. -/
def reserveReview (l : ReviewLaunch) (now : String) (x : Draw) : Review Unit := do
  let current ← loadRun .reviewing l.runId
  let reviews ← query fun d => d.results.select fun _ r => r.runId = l.runId
  reject (!reviews.isEmpty)
    ("Run already has review result: " ++ (reviews.head?.map Prod.fst).getD "")
  let active ← query fun d => d.activeTasks l.runId
  reject (!active.isEmpty) ("Another task is already active for run " ++ l.runId)
  execute (insertTask l.taskId ⟨l.runId, .running, none⟩)
  execute (insertReviewerExecution l.executionId
    { taskId := l.taskId
      runId := l.runId
      roleId := l.roleId
      sourceProfile := l.sourceProfile
      reviewId := none
      sandboxContainerId := none
      mountVerified := false
      isolationVerified := false
      repositoryUnchanged := false
      decision := none
      verdict := none
      exitCode := none
      failureReason := none
      finishedAt := none })
  claimAssignment rules l.assignmentId l.runId l.roleId l.sourceProfile l.executionId l.taskId x
  execute (insertEvent
    { projectId := current.projectId
      runId := l.runId
      taskId := some l.taskId
      eventType := "REVIEW_RESERVED"
      severity := "INFO"
      payload := .obj [("execution_id", .str l.executionId), ("review_id", .str l.reviewId),
        ("assignment_id", .str l.assignmentId), ("role_id", .str l.roleId)]
      createdAt := now })

/-- What `finish_review` sets of the execution. -/
def ReviewerExecution.close (l : ReviewLaunch) (locals : Locals) (now : String) (e : ReviewerExecution) :
    ReviewerExecution :=
  { e with
    reviewId := if locals.success then some l.reviewId else none
    sandboxContainerId := locals.sandboxId
    mountVerified := locals.audited
    isolationVerified := locals.audited
    repositoryUnchanged := locals.repositoryUnchanged
    decision := locals.review.map ParsedReview.decision
    verdict := locals.review.map ParsedReview.verdict
    exitCode := locals.exitCode
    failureReason := locals.failureReason
    finishedAt := some now }

/-- `UPDATE reviewer_executions`; the foreign key of `review_id` is deferred. -/
def updateReviewerExecution (l : ReviewLaunch) (locals : Locals) (now : String) (d : ReviewDatabase) :
    Option (Unit × ReviewDatabase) :=
  if locals.success ∧ d.executions.any (fun k e => k ≠ l.executionId ∧ e.reviewId = some l.reviewId) then
    none
  else
    let executions := d.executions.updateAt l.executionId (ReviewerExecution.close l locals now)
    some ((), { d with executions })

/-- What `COMMIT` checks of the execution. -/
def commitExecution (id : String) (d : ReviewDatabase) : Option (Unit × ReviewDatabase) :=
  if (d.executions.get? id).all fun e => e.reviewId.all fun review => (d.results.get? review).isSome then
    some ((), d)
  else none

/-- The review that `finish_review` stores. -/
def storeReview (l : ReviewLaunch) (locals : Locals) : Review Unit :=
  match locals.review with
  | some review =>
    if locals.success then do
      bindable (isStorable review.summary)
      execute (insertReviewResult l.reviewId ⟨l.runId, review.verdict, review.summary⟩)
    else pure ()
  | none => pure ()

/-- `finish_review`. -/
def finishReview (l : ReviewLaunch) (locals : Locals) (now : String) (x : Draw) : Review Unit := do
  storeReview l locals
  execute (updateTask l.taskId locals.success now)
  bindable locals.isBindable
  execute (updateReviewerExecution l locals now)
  finishAssignment rules l.assignmentId l.runId l.executionId l.taskId locals.success
    (if locals.success then some l.reviewId else none) "REVIEW_EXECUTION_FAILED" x
  execute (insertEvent
    { projectId := l.projectId
      runId := l.runId
      taskId := some l.taskId
      eventType := if locals.success then "REVIEW_COMPLETED" else "REVIEW_FAILED"
      severity := if locals.success then "INFO" else "ERROR"
      payload := .obj [("execution_id", .str l.executionId), ("review_id", .str l.reviewId),
        ("assignment_id", .str l.assignmentId), ("repository_unchanged", .bool locals.repositoryUnchanged)]
      createdAt := now })
  execute (commitExecution l.executionId)

/-- What a worker's launch has read of its run and role, and the names it has drawn. -/
structure WorkerLaunch where
  runId : String
  projectId : String
  roleId : String
  sourceProfile : String
  taskHex : String
  executionHex : String

namespace WorkerLaunch

def taskId (l : WorkerLaunch) : String := "task-" ++ l.taskHex

def executionId (l : WorkerLaunch) : String := "execution-" ++ l.executionHex

end WorkerLaunch

/-- `reserve_execution`. -/
def reserveExecution (l : WorkerLaunch) (now : String) : Review Unit := do
  let current ← loadRun .running l.runId
  let active ← query fun d => d.activeTasks l.runId
  reject (!active.isEmpty) ("Another worker task is already active for run " ++ l.runId)
  execute (insertTask l.taskId ⟨l.runId, .running, none⟩)
  execute (insertWorkerExecution l.executionId
    { taskId := l.taskId
      runId := l.runId
      roleId := l.roleId
      sourceProfile := l.sourceProfile
      sandboxContainerId := none
      mountVerified := false
      isolationVerified := false
      exitCode := none
      failureReason := none
      finishedAt := none })
  execute (insertEvent
    { projectId := current.projectId
      runId := l.runId
      taskId := some l.taskId
      eventType := "WORKER_RESERVED"
      severity := "INFO"
      payload := .obj [("execution_id", .str l.executionId), ("role_id", .str l.roleId)]
      createdAt := now })

/-- What `finish_execution` sets of the execution. -/
def WorkerExecution.close (locals : Locals) (now : String) (e : WorkerExecution) : WorkerExecution :=
  { e with
    sandboxContainerId := locals.sandboxId
    mountVerified := locals.audited
    isolationVerified := locals.audited
    exitCode := locals.exitCode
    failureReason := locals.failureReason
    finishedAt := some now }

/-- `UPDATE worker_executions`. -/
def updateWorkerExecution (id : String) (locals : Locals) (now : String) (d : ReviewDatabase) :
    Option (Unit × ReviewDatabase) :=
  let workerExecutions := d.workerExecutions.updateAt id (WorkerExecution.close locals now)
  some ((), { d with workerExecutions })

/-- `finish_execution`. -/
def finishExecution (l : WorkerLaunch) (locals : Locals) (now : String) : Review Unit := do
  execute (updateTask l.taskId locals.success now)
  bindable locals.isBindable
  execute (updateWorkerExecution l.executionId locals now)
  execute (insertEvent
    { projectId := l.projectId
      runId := l.runId
      taskId := some l.taskId
      eventType := if locals.success then "WORKER_COMPLETED" else "WORKER_FAILED"
      severity := if locals.success then "INFO" else "ERROR"
      payload := .obj [("execution_id", .str l.executionId)]
      createdAt := now })

/-- The three updates of `cleanup_run_resources`; its `COALESCE` keeps what a column has. -/
def failTasks (runId now : String) (d : ReviewDatabase) : ReviewDatabase :=
  { d with
    tasks := d.tasks.update (fun _ t => t.runId = runId ∧ t.status ∈ [.queued, .running, .blocked]) fun t =>
      { t with
        status := .failed
        finishedAt := some now } }

def closeWorkerExecutions (runId now : String) (d : ReviewDatabase) : ReviewDatabase :=
  { d with
    workerExecutions := d.workerExecutions.update (fun _ e => e.runId = runId ∧ e.finishedAt = none) fun e =>
      { e with
        exitCode := some (e.exitCode.getD 75)
        failureReason := some (e.failureReason.getD (pyText "Recovered abandoned worker execution"))
        finishedAt := some (e.finishedAt.getD now) } }

def closeReviewerExecutions (runId now : String) (d : ReviewDatabase) : ReviewDatabase :=
  { d with
    executions := d.executions.update (fun _ e => e.runId = runId ∧ e.finishedAt = none) fun e =>
      { e with
        exitCode := some (e.exitCode.getD 75)
        failureReason := some (e.failureReason.getD (pyText "Recovered abandoned reviewer execution"))
        finishedAt := some (e.finishedAt.getD now) } }

/-- The transaction of `cleanup_run_resources` in `hermesops-recovery.py`. -/
def cleanupRunResources (runId now : String) (draws : Nat → Draw) : Review Unit := do
  execute fun d => some ((), failTasks runId now d)
  execute fun d => some ((), closeWorkerExecutions runId now d)
  execute fun d => some ((), closeReviewerExecutions runId now d)
  let _ ← recoverActiveAssignments rules runId ("recovery:" ++ runId) draws

/-! ### The process -/

/-- One of the two programs. -/
structure Launch where
  runId : String
  projectId : String
  trySteps : List TryStep
  cleanSteps : List CleanStep
  reserve : String → Draw → Review Unit
  finish : Locals → String → Draw → Review Unit

def ReviewLaunch.launch (l : ReviewLaunch) : Launch where
  runId := l.runId
  projectId := l.projectId
  trySteps := [ .prepareClone, .readClone, .precreateSandbox, .execute, .persistTranscript, .parseOutput,
    .auditSandbox, .compareReferences ]
  cleanSteps := [.removeSandbox, .makeCloneWritable, .removeClone]
  reserve := reserveReview rules l
  finish := finishReview rules l

/-- The branches of the worker for a missing sandbox or audit are dead after `precreate_worker_sandbox`. -/
def WorkerLaunch.launch (l : WorkerLaunch) : Launch where
  runId := l.runId
  projectId := l.projectId
  trySteps := [.prepareClone, .precreateSandbox, .execute, .persistTranscript, .importResult]
  cleanSteps := [.removeSandbox, .cleanupCreatedSandboxes, .removeClone]
  reserve now _ := reserveExecution l now
  finish locals now _ := finishExecution l locals now

/-- Where a process is: before its reservation, refused by it, before `docker ps`, in one of the two
    blocks with the steps that are left, or at its end. -/
inductive Phase where
  | reserving
  | refused
  | listing
  | trying (rest : List TryStep)
  | cleaning (rest : List CleanStep)
  | ended
  deriving DecidableEq

/-- What other processes do, each in its own transaction. -/
inductive OtherCall where
  | fail (assignmentId actorId failureCode : String) (x : Draw)
  | recover (runId now : String) (draws : Nat → Draw)

def OtherCall.run : OtherCall → Review Unit
  | .fail assignmentId actorId failureCode x => do
    let _ ← failActiveAssignment rules assignmentId actorId failureCode x
  | .recover runId now draws => cleanupRunResources rules runId now draws

structure LaunchState where
  phase : Phase
  locals : Locals
  database : ReviewDatabase

/-- A step of the process with its outcome, or a transaction of another process; `left` is the number of
    statements that the connection still executes. -/
inductive LaunchAction where
  | reserve (now : String) (x : Draw) (left : Option Nat)
  | list (returns : Bool)
  | attempt (step : TryStep) (outcome : Except Raised step.Value)
  | clean (returns : Bool)
  | finish (now : String) (x : Draw) (left : Option Nat)
  | other (c : OtherCall) (left : Option Nat)

namespace LaunchState

/-- The `finally` block, with the steps that its conditions let run. -/
def leave (launch : Launch) (l : Locals) (s : LaunchState) : LaunchState :=
  { s with
    phase := .cleaning (launch.cleanSteps.filter (CleanStep.runs l))
    locals := l }

/-- The first of the steps that are left. -/
def attempt (launch : Launch) (step : TryStep) (outcome : Except Raised step.Value) (rest : List TryStep)
    (s : LaunchState) : LaunchState :=
  match outcome with
  | .error r => s.leave launch (s.locals.caught r)
  | .ok value =>
    match step.assign value s.locals with
    | (l, some r) => s.leave launch (l.caught r)
    | (l, none) =>
      if rest = [] then s.leave launch { l with success := true }
      else
        { s with
          phase := .trying rest
          locals := l }

/-- `docker ps` runs before the `try` block, and a step of the `finally` block that raises ends the
    process before its transaction. -/
def step (launch : Launch) (a : LaunchAction) (s : LaunchState) : LaunchState :=
  match a, s.phase with
  | .reserve now x left, .reserving =>
    match Txn.atomically left (launch.reserve now x) s.database with
    | (.ok _, d) => { s with phase := .listing, database := d }
    | (.error _, _) => { s with phase := .refused }
  | .list returns, .listing => { s with phase := if returns then .trying launch.trySteps else .ended }
  | .attempt step outcome, .trying (next :: rest) =>
    if next = step then s.attempt launch step outcome rest else s
  | .clean returns, .cleaning (_ :: rest) => { s with phase := if returns then .cleaning rest else .ended }
  | .finish now x left, .cleaning [] =>
    { s with
      phase := .ended
      database := (Txn.atomically left (launch.finish s.locals now x) s.database).2 }
  | .other c left, _ => { s with database := (Txn.atomically left (c.run rules) s.database).2 }
  | _, _ => s

/-- Another process leaves the launch where it is. -/
theorem step_other (launch : Launch) (c : OtherCall) (left : Option Nat) (s : LaunchState) :
    step rules launch (.other c left) s =
      { s with database := (Txn.atomically left (c.run rules) s.database).2 } := by
  cases hphase : s.phase <;> simp only [step, hphase]

end LaunchState

/-- The process is about to reserve the run that it has read, among assignments that the processes
    reach. -/
def launchMachine (launch : Launch) : Machine LaunchAction LaunchState where
  start s := s.phase = .reserving ∧ s.locals = .initial ∧
    (∀ run, s.database.runs.get? launch.runId = some run → run.projectId = launch.projectId) ∧
    ∃ w, (assignmentMachine rules).Reachable (fun _ _ => True) w ∧
      w.committed.assignments = s.database.assignments
  step := LaunchState.step rules launch

end HermesOps.Reviewer
