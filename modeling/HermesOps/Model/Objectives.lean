import Mathlib.Data.List.Dedup
import HermesOps.Model.Database

/-! The operator's objective commands. `hermesops-objectives.py` and the Controller's
    `ObjectiveCommandStore` each implement pause, resume and cancel as one write transaction; the
    two agree on every test and every write and differ in how they report a refusal, so the
    transaction is written once, over `Refusal`, and each program applies it with its own texts. -/

namespace HermesOps

/-! ### Joins over the graph -/

/-- `run_id` of every attempt of a task of the plan:
    `orchestration_attempts JOIN orchestration_tasks … WHERE task.plan_id = ?`. -/
def Graph.linkedRuns (g : Graph) (planId : PlanId) : List RunId :=
  g.attempts.rows.filterMap fun x =>
    match g.tasks.get? x.2.taskId with
    | some task => if task.planId = planId then x.2.runId else none
    | none => none

theorem Graph.mem_linkedRuns {g : Graph} {planId : PlanId} {r : RunId} :
    r ∈ g.linkedRuns planId ↔ ∃ i a t, g.attempts.get? i = some a ∧ g.tasks.get? a.taskId = some t ∧
      t.planId = planId ∧ a.runId = some r := by
  simp only [linkedRuns, List.mem_filterMap, Prod.exists, Schemes.Table.mem_rows_iff]
  constructor
  · rintro ⟨i, a, ha, hr⟩
    cases ht : g.tasks.get? a.taskId with
    | none => simp [ht] at hr
    | some t =>
      simp only [ht] at hr
      split at hr
      · rename_i hp; exact ⟨i, a, t, ha, ht, hp, hr⟩
      · cases hr
  · rintro ⟨i, a, t, ha, ht, hp, hr⟩
    exact ⟨i, a, ha, by simp [ht, hp, hr]⟩

def runningTaskCount (g : Graph) : Option PlanId → Nat
  | none => 0
  | some planId => g.tasks.count fun _ t => t.planId = planId ∧ t.status = .running

/-- An `APPROVE` integration of the run that is prepared, completed or failed. -/
def Store.hasApprovedIntegration (s : Store) (runId : RunId) : Bool :=
  s.integrations.any fun _ i => i.runId = runId ∧ i.decision = .approve ∧
    (i.status = .prepared ∨ i.status = .completed ∨ i.status = .failed)

def integrationPointOfNoReturn (d : Database) : Option PlanId → Bool
  | none => false
  | some planId => (d.graph.linkedRuns planId).any fun r =>
      match d.store.runs.get? r with
      | some run => run.status = .committing || run.status = .completed ||
          d.store.hasApprovedIntegration r
      | none => false

/-- The statuses `active_run_count` counts. -/
def RunStatus.isActive : RunStatus → Bool
  | .snapshotting | .running | .reviewing | .waitingHuman | .committing | .recovering => true
  | _ => false

def activeRunCount (d : Database) : Option PlanId → Nat
  | none => 0
  | some planId => ((d.graph.linkedRuns planId).filter fun r =>
      match d.store.runs.get? r with
      | some run => run.status.isActive
      | none => false).dedup.length

/-! ### Submission -/

/-- The columns the two submission paths hand to the insertion. -/
structure Submission where
  text : String
  source : Source
  priority : Int
  notBefore : Time
  projectIds : List ProjectId
  maxParallelTasks : Nat
  planningMaxAttempts : Nat
  planId : Option PlanId

/-- The inserted row. -/
def Submission.row (s : Submission) (now : Time) : Objective where
  text := s.text
  source := s.source
  status := .queued
  priority := s.priority
  notBefore := s.notBefore
  projectScope := s.projectIds
  maxParallelTasks := s.maxParallelTasks
  planningMaxAttempts := s.planningMaxAttempts
  planningAttemptCount := 0
  planId := s.planId
  createdAt := now
  startedAt := none
  heartbeatAt := now
  finishedAt := none
  pausedAt := none
  lastError := none

/-- `insert_objective`; the text comes stripped. The last two refusals are the table's `UNIQUE` and
    `FOREIGN KEY` constraints on `plan_id`. -/
def insertObjective (d : Database) (id : ObjectiveId) (s : Submission) (now : Time) :
    Except String Queue :=
  if s.text = "" then .error "Objective is empty"
  else if s.text.utf8ByteSize > 16384 then .error "Objective exceeds 16 KiB"
  else if ¬(-1000 ≤ s.priority ∧ s.priority ≤ 1000) then
    .error "Priority must be -1000..1000; lower values run first"
  else if ¬(1 ≤ s.maxParallelTasks ∧ s.maxParallelTasks ≤ 16) then
    .error "max_parallel_tasks must be 1..16"
  else if ¬(1 ≤ s.planningMaxAttempts ∧ s.planningMaxAttempts ≤ 5) then
    .error "planning_max_attempts must be 1..5"
  else if s.planId.isSome ∧ d.queue.objectives.any (fun _ o => o.planId = s.planId) then
    .error "UNIQUE constraint failed: objective_queue.plan_id"
  else if s.planId.any fun p => (d.graph.plans.get? p).isNone then
    .error "FOREIGN KEY constraint failed"
  else
    match d.queue.objectives.insert id (s.row now) with
    | some objectives => .ok { d.queue with objectives }
    | none => .error "UNIQUE constraint failed: objective_queue.objective_id"

theorem insertObjective_ok {d : Database} {id : ObjectiveId} {s : Submission} {now : Time}
    {q : Queue} (h : insertObjective d id s now = .ok q) :
    d.queue.objectives.insert id (s.row now) = some q.objectives ∧ q.attempts = d.queue.attempts ∧
      ∀ p, s.planId = some p → (d.graph.plans.get? p).isSome ∧
        ∀ j x, d.queue.objectives.get? j = some x → x.planId ≠ some p := by
  simp only [insertObjective] at h
  iterate 5 (split at h; · cases h)
  split at h
  · cases h
  · rename_i hunique
    split at h
    · cases h
    · rename_i hplan
      cases hi : d.queue.objectives.insert id (s.row now) with
      | none => simp [hi] at h
      | some objectives =>
        simp only [hi, Except.ok.injEq] at h
        subst h
        refine ⟨rfl, rfl, fun p hp => ⟨?_, fun j x hx hxp => ?_⟩⟩
        · simpa [hp, Option.isSome_iff_ne_none] using hplan
        · exact hunique ⟨by simp [hp], Schemes.Table.any_iff.2 ⟨j, x, hx, by simp [hxp, hp]⟩⟩

/-! ### Pause, resume and cancel -/

/-- Why a command leaves the database as it is. -/
inductive Refusal where
  | unknownObjective | cancellationPending | terminal (status : ObjectiveStatus)
  | notPaused | planDisappeared | pointOfNoReturn
  deriving DecidableEq

def Objective.pausedAs (new : ObjectiveStatus) (now : Time) (o : Objective) : Objective :=
  { o with
    status := new
    heartbeatAt := now
    pausedAt := if new = .paused then some now else o.pausedAt
    lastError := none }

/-- The pause transaction: a second pause is accepted and writes nothing. -/
def pauseObjective (d : Database) (id : ObjectiveId) (now : Time) : Except Refusal Queue :=
  match d.queue.objectives.get? id with
  | none => .error .unknownObjective
  | some row =>
    if row.status = .cancelRequested then .error .cancellationPending
    else if row.status.isTerminal then .error (.terminal row.status)
    else if row.status = .paused then .ok d.queue
    else
      let running := runningTaskCount d.graph row.planId
      let new := if row.status = .planning ∨ running ≠ 0 then .pauseRequested else .paused
      .ok { d.queue with objectives := d.queue.objectives.updateAt id (Objective.pausedAs new now) }

theorem pauseObjective_ok {d : Database} {id : ObjectiveId} {now : Time} {q : Queue}
    (h : pauseObjective d id now = .ok q) :
    ∃ row, d.queue.objectives.get? id = some row ∧ row.status ≠ .cancelRequested ∧
      row.status.isTerminal = false ∧
      ((row.status = .paused ∧ q = d.queue) ∨ (row.status ≠ .paused ∧ q = { d.queue with
        objectives := d.queue.objectives.updateAt id (Objective.pausedAs
          (if row.status = .planning ∨ runningTaskCount d.graph row.planId ≠ 0 then .pauseRequested
            else .paused) now) })) := by
  unfold pauseObjective at h
  split at h
  · cases h
  · rename_i row hrow
    split at h
    · cases h
    · rename_i h₁
      split at h
      · cases h
      · rename_i h₂
        refine ⟨row, hrow, h₁, by simpa using h₂, ?_⟩
        split at h
        · rename_i h₃; cases h; exact .inl ⟨h₃, rfl⟩
        · rename_i h₃; cases h; exact .inr ⟨h₃, rfl⟩

def resumedStatusForPlan : Option PlanStatus → ObjectiveStatus
  | none | some .draft | some .ready | some .running => .queued
  | some .blocked => .running
  | some .completed => .completed
  | some .failed => .failed
  | some .cancelled => .cancelled

/-- The text both programs store for a status taken over from the plan. -/
def linkedPlanError : ObjectiveStatus → Option String
  | .failed => some "linked orchestration plan failed"
  | .cancelled => some "linked orchestration plan cancelled"
  | _ => none

/-- The status of the linked plan, `NULL` when there is none. -/
def Graph.planStatus (g : Graph) (planId : Option PlanId) : Option PlanStatus :=
  (planId.bind g.plans.get?).map Plan.status

def Objective.resumedAs (new : ObjectiveStatus) (now : Time) (o : Objective) : Objective :=
  { o with
    status := new
    heartbeatAt := now
    pausedAt := none
    finishedAt := if new.isTerminal then some now else none
    lastError := linkedPlanError new }

def resumeObjective (d : Database) (id : ObjectiveId) (now : Time) : Except Refusal Queue :=
  match d.queue.objectives.get? id with
  | none => .error .unknownObjective
  | some row =>
    let planStatus := d.graph.planStatus row.planId
    if row.status ≠ .paused then .error .notPaused
    else if row.planId.isSome ∧ planStatus = none then .error .planDisappeared
    else
      .ok { d.queue with
        objectives := d.queue.objectives.updateAt id
          (Objective.resumedAs (resumedStatusForPlan planStatus) now) }

theorem resumeObjective_ok {d : Database} {id : ObjectiveId} {now : Time} {q : Queue}
    (h : resumeObjective d id now = .ok q) :
    ∃ row, d.queue.objectives.get? id = some row ∧ row.status = .paused ∧
      (row.planId.isSome → d.graph.planStatus row.planId ≠ none) ∧ q = { d.queue with
        objectives := d.queue.objectives.updateAt id
          (Objective.resumedAs (resumedStatusForPlan (d.graph.planStatus row.planId)) now) } := by
  unfold resumeObjective at h
  split at h
  · cases h
  · rename_i row hrow
    simp only at h
    split at h
    · cases h
    · rename_i h₁
      split at h
      · cases h
      · rename_i h₂
        cases h
        exact ⟨row, hrow, not_not.1 h₁, fun hs hn => h₂ ⟨hs, hn⟩, rfl⟩

/-- The statuses that cancelling a plan sweeps up. -/
def TaskStatus.isWaiting : TaskStatus → Bool
  | .pending | .ready | .blocked => true
  | _ => false

def Task.objectiveCancelled (now : Time) (t : Task) : Task :=
  { t with
    status := .cancelled
    heartbeatAt := some now
    finishedAt := some now
    failureReason := t.failureReason.or (some "objective cancelled") }

def Plan.objectiveCancelled (now : Time) (p : Plan) : Plan :=
  { p with
    status := .cancelled
    heartbeatAt := some now
    finishedAt := some now
    lastError := some "objective cancelled" }

/-- `cancel_plan_in_transaction`, which the orchestrator repeats as `cancel_objective_plan` and the
    Controller as `_cancel_plan`. -/
def cancelPlanInTransaction (g : Graph) (planId : Option PlanId) (now : Time) : Graph :=
  match planId with
  | none => g
  | some p => { g with
      tasks := g.tasks.update (fun _ t => t.planId = p ∧ t.status.isWaiting)
        (Task.objectiveCancelled now)
      plans := g.plans.update (fun q plan => q = p ∧ ¬plan.status.isTerminal)
        (Plan.objectiveCancelled now) }

theorem cancelPlan_tasks (g : Graph) (p : PlanId) (now : Time) (i : TaskId) :
    (cancelPlanInTransaction g (some p) now).tasks.get? i = (g.tasks.get? i).map fun t =>
      if t.planId = p ∧ t.status.isWaiting then t.objectiveCancelled now else t := by
  simp [cancelPlanInTransaction]

theorem cancelPlan_plans (g : Graph) (p : PlanId) (now : Time) (q : PlanId) :
    (cancelPlanInTransaction g (some p) now).plans.get? q = (g.plans.get? q).map fun plan =>
      if q = p ∧ ¬plan.status.isTerminal then plan.objectiveCancelled now else plan := by
  simp [cancelPlanInTransaction]

@[simp] theorem cancelPlan_attempts (g : Graph) (p : Option PlanId) (now : Time) :
    (cancelPlanInTransaction g p now).attempts = g.attempts := by cases p <;> rfl

@[simp] theorem cancelPlan_dependencies (g : Graph) (p : Option PlanId) (now : Time) :
    (cancelPlanInTransaction g p now).dependencies = g.dependencies := by cases p <;> rfl

def Objective.cancelledAs (new : ObjectiveStatus) (now : Time) (o : Objective) : Objective :=
  { o with
    status := new
    heartbeatAt := now
    finishedAt := if new = .cancelled then some now else none
    lastError := if new = .cancelled then some "cancelled by operator" else o.lastError }

/-- The status a cancel leaves: the request waits while work is running. -/
def cancelledStatus (d : Database) (row : Objective) : ObjectiveStatus :=
  if row.status = .planning ∨ runningTaskCount d.graph row.planId ≠ 0 ∨
      activeRunCount d row.planId ≠ 0 then .cancelRequested
  else .cancelled

def cancelObjective (d : Database) (id : ObjectiveId) (now : Time) :
    Except Refusal (Queue × Graph) :=
  match d.queue.objectives.get? id with
  | none => .error .unknownObjective
  | some row =>
    if row.status.isTerminal then .error (.terminal row.status)
    else if integrationPointOfNoReturn d row.planId then .error .pointOfNoReturn
    else
      let new := cancelledStatus d row
      .ok ({ d.queue with
        objectives := d.queue.objectives.updateAt id (Objective.cancelledAs new now) },
        if new = .cancelled then cancelPlanInTransaction d.graph row.planId now else d.graph)

theorem cancelObjective_ok {d : Database} {id : ObjectiveId} {now : Time} {qg : Queue × Graph}
    (h : cancelObjective d id now = .ok qg) :
    ∃ row, d.queue.objectives.get? id = some row ∧ row.status.isTerminal = false ∧
      integrationPointOfNoReturn d row.planId = false ∧
      qg.1 = { d.queue with
        objectives :=
          d.queue.objectives.updateAt id (Objective.cancelledAs (cancelledStatus d row) now) } ∧
      qg.2 = if cancelledStatus d row = .cancelled then
        cancelPlanInTransaction d.graph row.planId now else d.graph := by
  unfold cancelObjective at h
  split at h
  · cases h
  · rename_i row hrow
    split at h
    · cases h
    · rename_i h₁
      split at h
      · cases h
      · rename_i h₂
        cases h
        exact ⟨row, hrow, by simpa using h₁, by simpa using h₂, rfl, rfl⟩

/-! ### The two programs -/

/-- The texts of `hermesops-objectives.py`. -/
def Refusal.cliMessage (id : ObjectiveId) : Refusal → String
  | .unknownObjective => s!"Unknown objective: {id}"
  | .cancellationPending => "Objective cancellation is pending"
  | .terminal .completed => "Objective is terminal: COMPLETED"
  | .terminal .failed => "Objective is terminal: FAILED"
  | .terminal _ => "Objective is terminal: CANCELLED"
  | .notPaused => "Objective can only resume from PAUSED"
  | .planDisappeared => "Objective plan disappeared during resume"
  | .pointOfNoReturn => "Objective passed the integration point of no return"

/-- `ControllerError`: HTTP status, error code and title. -/
structure ControllerError where
  status : Nat
  code : String
  title : String
  deriving DecidableEq

/-- The errors of `ObjectiveCommandStore.command_objective`. -/
def Refusal.controllerError : Refusal → ControllerError
  | .unknownObjective => ⟨404, "objective_not_found", "Objective not found"⟩
  | .cancellationPending =>
    ⟨409, "objective_cancel_pending", "Objective cancellation is pending"⟩
  | .terminal _ => ⟨409, "objective_terminal", "Objective is terminal"⟩
  | .notPaused => ⟨409, "objective_not_paused", "Objective can only resume from PAUSED"⟩
  | .planDisappeared => ⟨503, "objective_plan_unavailable", "Objective plan unavailable"⟩
  | .pointOfNoReturn =>
    ⟨409, "objective_integration_committed", "Objective passed the integration point of no return"⟩

inductive ObjectiveCommand where
  | pause | resume | cancel
  deriving DecidableEq

/-- The transaction of a command, before either program words its refusal. -/
def ObjectiveCommand.apply (d : Database) (id : ObjectiveId) (now : Time) :
    ObjectiveCommand → Except Refusal (Queue × Graph)
  | .pause => (pauseObjective d id now).map (·, d.graph)
  | .resume => (resumeObjective d id now).map (·, d.graph)
  | .cancel => cancelObjective d id now

/-- What an accepted command leaves: pause and resume keep the graph. -/
theorem ObjectiveCommand.apply_ok {d : Database} {id : ObjectiveId} {c : ObjectiveCommand}
    {now : Time} {qg : Queue × Graph} (h : c.apply d id now = .ok qg) :
    (c = .pause ∧ pauseObjective d id now = .ok qg.1 ∧ qg.2 = d.graph) ∨
      (c = .resume ∧ resumeObjective d id now = .ok qg.1 ∧ qg.2 = d.graph) ∨
      (c = .cancel ∧ cancelObjective d id now = .ok qg) := by
  cases c with
  | pause =>
    simp only [apply] at h
    cases hp : pauseObjective d id now with
    | error e => rw [hp] at h; cases h
    | ok q => rw [hp] at h; cases h; exact .inl ⟨rfl, rfl, rfl⟩
  | resume =>
    simp only [apply] at h
    cases hp : resumeObjective d id now with
    | error e => rw [hp] at h; cases h
    | ok q => rw [hp] at h; cases h; exact .inr (.inl ⟨rfl, rfl, rfl⟩)
  | cancel => exact .inr (.inr ⟨rfl, h⟩)

/-- An accepted command writes at most one objective row, and no attempt. -/
theorem ObjectiveCommand.apply_queue {d : Database} {id : ObjectiveId} {c : ObjectiveCommand}
    {now : Time} {qg : Queue × Graph} (h : c.apply d id now = .ok qg) :
    qg.1 = d.queue ∨
      ∃ f, qg.1 = { d.queue with objectives := d.queue.objectives.updateAt id f } := by
  rcases apply_ok h with ⟨-, h, -⟩ | ⟨-, h, -⟩ | ⟨-, h⟩
  · obtain ⟨_, -, -, -, ⟨-, h⟩ | ⟨-, h⟩⟩ := pauseObjective_ok h
    · exact .inl h
    · exact .inr ⟨_, h⟩
  · obtain ⟨_, -, -, -, h⟩ := resumeObjective_ok h
    exact .inr ⟨_, h⟩
  · obtain ⟨_, -, -, -, h, -⟩ := cancelObjective_ok h
    exact .inr ⟨_, h⟩

def commandPause (d : Database) (id : ObjectiveId) (now : Time) : Except String (Queue × Graph) :=
  (ObjectiveCommand.pause.apply d id now).mapError (Refusal.cliMessage id)

def commandResume (d : Database) (id : ObjectiveId) (now : Time) : Except String (Queue × Graph) :=
  (ObjectiveCommand.resume.apply d id now).mapError (Refusal.cliMessage id)

def commandCancel (d : Database) (id : ObjectiveId) (now : Time) : Except String (Queue × Graph) :=
  (ObjectiveCommand.cancel.apply d id now).mapError (Refusal.cliMessage id)

/-- `ObjectiveCommandStore.command_objective` of the Controller, once the request is admitted. -/
def commandObjective (d : Database) (id : ObjectiveId) (now : Time) (c : ObjectiveCommand) :
    Except ControllerError (Queue × Graph) :=
  (c.apply d id now).mapError Refusal.controllerError

end HermesOps
