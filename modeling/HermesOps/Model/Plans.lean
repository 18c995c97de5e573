import HermesOps.Model.Planning

/-! Plans and their tasks: the plan that validation hands over, its insertion, the plan-level
    commands, the refresh that propagates task outcomes through the dependencies, and the
    reservation of a task by an executor thread. -/

namespace HermesOps

def PlanStatus.name : PlanStatus → String
  | .draft => "DRAFT"
  | .ready => "READY"
  | .running => "RUNNING"
  | .blocked => "BLOCKED"
  | .completed => "COMPLETED"
  | .failed => "FAILED"
  | .cancelled => "CANCELLED"

def TaskStatus.name : TaskStatus → String
  | .pending => "PENDING"
  | .ready => "READY"
  | .running => "RUNNING"
  | .blocked => "BLOCKED"
  | .completed => "COMPLETED"
  | .failed => "FAILED"
  | .cancelled => "CANCELLED"

/-! ### Insertion -/

/-- A task of a normalized plan. -/
structure PlanTask where
  key : String
  kind : TaskKind
  projectId : Option ProjectId
  priority : Int
  maxAttempts : Nat
  dependencies : List String
  deriving DecidableEq

/-- What `validate_plan` returns: distinct keys in a topological order, so that every dependency of
    a task is the key of an earlier one. -/
structure NormalizedPlan where
  maxParallelTasks : Nat
  tasks : List PlanTask
  parallelBounds : 1 ≤ maxParallelTasks ∧ maxParallelTasks ≤ 16
  size : 1 ≤ tasks.length ∧ tasks.length ≤ 32
  keys : (tasks.map PlanTask.key).Nodup
  ordered : tasks.Pairwise fun earlier later => later.key ∉ earlier.dependencies
  known : ∀ t ∈ tasks, ∀ k ∈ t.dependencies, k ≠ t.key ∧ k ∈ tasks.map PlanTask.key
  distinct : ∀ t ∈ tasks, t.dependencies.Nodup
  attempts : ∀ t ∈ tasks, 1 ≤ t.maxAttempts ∧ t.maxAttempts ≤ 10
  projects : ∀ t ∈ tasks, t.kind = .pipeline → t.projectId.isSome

/-- The row inserted for a task. -/
def PlanTask.row (planId : PlanId) (now : Time) (t : PlanTask) : Task where
  planId
  taskKey := t.key
  kind := t.kind
  projectId := t.projectId
  status := .pending
  priority := t.priority
  maxAttempts := t.maxAttempts
  attemptCount := 0
  failureReason := none
  createdAt := now
  startedAt := none
  heartbeatAt := none
  finishedAt := none

/-- `task_ids`: the tasks get consecutive fresh identifiers. -/
def NormalizedPlan.taskId (p : NormalizedPlan) (firstTask : TaskId) (key : String) : TaskId :=
  firstTask + (p.tasks.map PlanTask.key).idxOf key

/-- The rows of `orchestration_dependencies`. -/
def NormalizedPlan.dependencies (p : NormalizedPlan) (firstTask : TaskId) : List Dependency :=
  p.tasks.flatMap fun t => t.dependencies.map fun parent =>
    ⟨p.taskId firstTask t.key, p.taskId firstTask parent⟩

/-- The `INSERT`s of the tasks, one after the other. -/
def insertTasks (planId : PlanId) (now : Time) :
    Schemes.Table TaskId Task → TaskId → List PlanTask → Option (Schemes.Table TaskId Task)
  | tasks, _, [] => some tasks
  | tasks, next, t :: ts =>
    (tasks.insert next (t.row planId now)).bind fun tasks' => insertTasks planId now tasks' (next + 1) ts

/-- `insert_plan` with `initial_status` `DRAFT` or `READY`; `None` is a key that is already taken. -/
def insertPlan (g : Graph) (p : NormalizedPlan) (planId : PlanId) (firstTask : TaskId)
    (source : Source) (ready : Bool) (now : Time) : Option Graph := do
  let plans ← g.plans.insert planId
    { source, status := if ready then .ready else .draft, maxParallelTasks := p.maxParallelTasks,
      createdAt := now, startedAt := none, heartbeatAt := some now, finishedAt := none,
      lastError := none }
  let tasks ← insertTasks planId now g.tasks firstTask p.tasks
  return { g with plans, tasks, dependencies := g.dependencies ++ p.dependencies firstTask }

/-- `DELETE FROM orchestration_plans`, with the cascades of the schema. -/
def deletePlan (d : Database) (planId : PlanId) : Database :=
  let ofPlan (id : TaskId) : Bool := (d.graph.tasks.get? id).any fun t => t.planId = planId
  { d with
    graph :=
      { plans := d.graph.plans.delete fun p _ => p = planId
        tasks := d.graph.tasks.delete fun _ t => t.planId = planId
        dependencies := d.graph.dependencies.filter fun e => !ofPlan e.taskId && !ofPlan e.dependsOn
        attempts := d.graph.attempts.delete fun _ a => ofPlan a.taskId }
    queue :=
      { objectives := d.queue.objectives.update (fun _ o => o.planId = some planId) fun o =>
          { o with planId := none }
        attempts := d.queue.attempts.update (fun _ a => a.planId = some planId) fun a =>
          { a with planId := none } } }

/-! ### Human gates -/

/-- `HUMAN_GATE_ERROR`. -/
def humanGateError : String := "waiting for human decision"

/-- `HUMAN_GATE_DEFERRED_ERROR`. -/
def humanGateDeferredError : String := "waiting for in-flight integration before human decision"

/-- `CANCELLATION_RECOVERY_ERROR`. -/
def cancellationRecoveryError : String := "cancellation cleanup requires recovery"

/-- `CANCELLATION_PENDING_ERROR`. -/
def cancellationPendingError : String := "objective cancellation cleanup pending"

def planHasActiveHumanGate (g : Graph) (s : Store) (planId : PlanId) : Bool :=
  (g.linkedRuns planId).any fun r => s.approvals.any fun _ a => a.runId = r ∧ a.status = .pending

def planHasAuthorizedIntegrationInFlight (g : Graph) (s : Store) (planId : PlanId) : Bool :=
  g.attempts.any fun _ a =>
    match g.tasks.get? a.taskId, a.runId.bind fun r => (s.runs.get? r).map fun run => (r, run) with
    | some task, some (r, run) =>
      task.planId = planId ∧
      (run.status = .committing ∨ run.status = .recovering ∨
        (run.status = .completed ∧ task.status = .running)) ∧
      s.hasApprovedIntegration r
    | _, _ => false

/-! ### Refresh -/

def TaskStatus.isBad : TaskStatus → Bool
  | .failed | .blocked | .cancelled => true
  | _ => false

/-- The statuses of the parents of a task. -/
def Graph.parentStatuses (g : Graph) (taskId : TaskId) : List TaskStatus :=
  (g.dependencies.filter fun e => e.taskId = taskId).filterMap fun e =>
    (g.tasks.get? e.dependsOn).map Task.status

/-- One turn of the loop over the plan's tasks. -/
def refreshTask (now : Time) (g : Graph) (row : TaskId × Task) : Graph :=
  if row.2.status ≠ .pending then g
  else
    let parents := g.parentStatuses row.1
    if parents.any TaskStatus.isBad then { g with
      tasks := g.tasks.update (fun i t => i = row.1 ∧ t.status = .pending) fun t => { t with
        status := .blocked
        failureReason := some "dependency did not complete successfully"
        heartbeatAt := some now
        finishedAt := some now } }
    else if parents.all fun s => s = .completed then { g with
      tasks := g.tasks.update (fun i t => i = row.1 ∧ t.status = .pending) fun t => { t with
        status := .ready
        heartbeatAt := some now } }
    else g

/-- The tasks of a plan, `ORDER BY priority, created_at`. -/
def Graph.planTasks (g : Graph) (planId : PlanId) : List (TaskId × Task) :=
  (g.tasks.select fun _ t => t.planId = planId).insertionSort fun a b =>
    a.2.priority < b.2.priority ∨ (a.2.priority = b.2.priority ∧ a.2.createdAt ≤ b.2.createdAt)

/-- The write of the plan's own row, after the loop. -/
def refreshPlan (s : Store) (planId : PlanId) (plan : Plan) (now : Time) (g : Graph) :
    Plan → Plan :=
  let statuses := (g.tasks.select fun _ t => t.planId = planId).map fun x => x.2.status
  let humanGateActive := planHasActiveHumanGate g s planId
  if humanGateActive ∧ plan.lastError = some humanGateDeferredError then
    if planHasAuthorizedIntegrationInFlight g s planId then fun q => { q with heartbeatAt := some now }
    else fun q =>
      { q with status := .blocked, heartbeatAt := some now, lastError := some humanGateError }
  else if plan.status = .blocked ∧
      ((humanGateActive ∧ plan.lastError = some humanGateError) ∨
        plan.lastError = some cancellationRecoveryError ∨
        plan.lastError = some cancellationPendingError) then
    fun q => { q with heartbeatAt := some now }
  else if statuses ≠ [] ∧ (statuses.all fun s => s = .completed) then fun q =>
    { q with
      status := .completed, heartbeatAt := some now, finishedAt := some now, lastError := none }
  else if statuses.any TaskStatus.isBad ∧
      ¬statuses.any (fun s => s = .ready ∨ s = .running ∨ s = .pending) then fun q =>
    { q with
      status := .failed, heartbeatAt := some now, finishedAt := some now
      lastError := some "one or more tasks failed" }
  else fun q =>
    { q with
      status := if q.status = .ready then .running else q.status
      startedAt := q.startedAt.or (some now)
      heartbeatAt := some now }

def refreshPlanStates (g : Graph) (s : Store) (planId : PlanId) (now : Time) : Graph :=
  match g.plans.get? planId with
  | none => g
  | some plan =>
    if plan.status = .draft ∨ plan.status.isTerminal then g
    else
      let g' := (g.planTasks planId).foldl (refreshTask now) g
      { g' with plans := g'.plans.updateAt planId (refreshPlan s planId plan now g') }

/-! ### Plan-level commands -/

/-- `command_activate`, up to the refresh that follows it. -/
def commandActivate (g : Graph) (planId : PlanId) (now : Time) : Except String Graph :=
  if g.plans.any fun p q => p = planId ∧ q.status = .draft then
    .ok (g.readyPlan planId now)
  else .error "Plan can only be activated from DRAFT"

/-- The orchestrator's `command_cancel` of a plan. -/
def commandCancelPlan (g : Graph) (planId : PlanId) (now : Time) : Except String Graph :=
  match g.plans.get? planId with
  | none => .error s!"Unknown plan: {planId}"
  | some plan =>
    if plan.status.isTerminal then .error s!"Plan is already terminal: {plan.status.name}"
    else if runningTaskCount g (some planId) ≠ 0 then
      .error "Cannot cancel a plan while a task is RUNNING"
    else
      .ok { g with
        tasks := g.tasks.update (fun _ t => t.planId = planId ∧ t.status.isWaiting) fun t =>
          { t with status := .cancelled, heartbeatAt := some now, finishedAt := some now }
        plans := g.plans.updateAt planId fun q =>
          { q with status := .cancelled, heartbeatAt := some now, finishedAt := some now } }

/-! ### Reservation -/

def projectIsBusy (g : Graph) (projectId : Option ProjectId) (taskId : TaskId) : Bool :=
  match projectId with
  | none => false
  | some p => g.tasks.any fun i t => t.projectId = some p ∧ t.status = .running ∧ i ≠ taskId

def reservationIneligibilityReason (d : Database) (taskId : TaskId) (task : Task) :
    Option String :=
  if task.status ≠ .ready then some s!"Task cannot start from status {task.status.name}"
  else if task.attemptCount ≥ task.maxAttempts then some "Task attempt budget is exhausted"
  else
    match d.graph.plans.get? task.planId with
    | none => some "Task orchestration plan disappeared before reservation"
    | some plan =>
      if ¬(plan.status = .ready ∨ plan.status = .running) then
        some s!"Plan cannot start work from status {plan.status.name}"
      else
        let objectives := d.queue.objectives.select fun _ o => o.planId = some task.planId
        if objectives.length > 1 then some "Plan is linked to multiple objectives"
        else
          match objectives.find? fun x => x.2.status ≠ .running with
          | some x => some s!"Objective cannot start work from status {x.2.status.name}"
          | none =>
            if planHasActiveHumanGate d.graph d.store task.planId then
              some "Plan is waiting for a human decision"
            else if runningTaskCount d.graph (some task.planId) ≥ plan.maxParallelTasks then
              some "Plan parallel task limit is exhausted"
            else if projectIsBusy d.graph task.projectId taskId then
              some "Task project already has active work"
            else none

/-- The reservation; the task row it returns is the one read before the `UPDATE`. -/
def reserveAttempt (d : Database) (taskId : TaskId) (attemptId : AttemptId) (now : Time) :
    Except String (Graph × Task) :=
  match d.graph.tasks.get? taskId with
  | none => .error s!"Unknown orchestration task: {taskId}"
  | some task =>
    match reservationIneligibilityReason d taskId task with
    | some reason => .error reason
    | none =>
      let attemptNumber := task.attemptCount + 1
      let tasks := d.graph.tasks.update (fun i t => i = taskId ∧ t.status = .ready) fun t =>
        { t with
          status := .running
          attemptCount := attemptNumber
          startedAt := t.startedAt.or (some now)
          heartbeatAt := some now
          failureReason := none }
      if d.graph.attempts.any fun _ a => a.taskId = taskId ∧ a.attemptNumber = attemptNumber then
        .error "UNIQUE constraint failed: orchestration_attempts.attempt_number"
      else
        match d.graph.attempts.insert attemptId
          { taskId, attemptNumber, status := .running, runId := none, failureReason := none,
            startedAt := now, heartbeatAt := now, finishedAt := none } with
        | some attempts => .ok ({ d.graph with tasks, attempts }, task)
        | none => .error "UNIQUE constraint failed: orchestration_attempts.attempt_id"

end HermesOps
