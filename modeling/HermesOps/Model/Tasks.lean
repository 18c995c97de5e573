import HermesOps.Model.Plans

/-! How a task attempt ends: the handlers `execute_task` dispatches to, the marking of a run whose
    cleanup failed, the operator-facing sweep over cancelled human gates, and the reconciliation of
    `RUNNING` tasks when the orchestrator restarts. -/

namespace HermesOps

/-! ### Results -/

/-- `action` of an integration result. -/
inductive IntegrationAction where
  | integrate | reject | blockHuman | cancel
  deriving DecidableEq

/-- `status` of an integration result. -/
inductive IntegrationOutcome where
  | completed | rejected | blocked | cancelled | recovering
  deriving DecidableEq

/-- The fields of an integration result that the orchestrator reads; `planWaiting` is the reason
    code `plan_waiting_human`. -/
structure IntegrationResult where
  action : IntegrationAction
  status : IntegrationOutcome
  integrated : Bool
  planWaiting : Bool
  deriving DecidableEq

/-- `cancelled_integration_result`, also built by `execute_pipeline` itself. -/
def cancelledIntegrationResult : IntegrationResult := ⟨.cancel, .cancelled, false, false⟩

/-- `blocked_human_integration_result`, also built by `execute_pipeline` itself. -/
def blockedHumanIntegrationResult : IntegrationResult := ⟨.blockHuman, .blocked, false, true⟩

/-- What a task's body returns. -/
inductive TaskResult where
  | plain
  | pipeline (runId : RunId) (integration : IntegrationResult)
  deriving DecidableEq

/-- `authorized_integration`. -/
def TaskResult.authorizedIntegration : TaskResult → Bool
  | .plain => false
  | .pipeline _ i => i.integrated

/-- The columns of the reserved task row that the handlers use. -/
structure ReservedTask where
  taskId : TaskId
  planId : PlanId
  kind : TaskKind
  projectId : Option ProjectId
  taskKey : String
  attemptId : AttemptId
  deriving DecidableEq

/-! ### Handlers -/

/-- `UPDATE orchestration_attempts … WHERE attempt_id = ? AND status = 'RUNNING'`. -/
def Graph.finishAttempt (g : Graph) (attemptId : AttemptId) (status : AttemptStatus)
    (failureReason : Option String → Option String) (now : Time) :
    Schemes.Table AttemptId Attempt :=
  g.attempts.update (fun i a => i = attemptId ∧ a.status = .running) fun a => { a with
    status
    failureReason := failureReason a.failureReason
    heartbeatAt := now
    finishedAt := some now }

def finishRunningTaskBlockedByHumanGate (g : Graph) (t : ReservedTask)
    (attemptStatus : AttemptStatus) (failureReason : Option String) (now : Time) : Graph :=
  { g with
    attempts := g.finishAttempt t.attemptId attemptStatus (fun _ => failureReason) now
    tasks := g.tasks.update (fun i x => i = t.taskId ∧ x.status = .running) fun x => { x with
      status := .blocked
      failureReason := some humanGateError
      heartbeatAt := some now
      finishedAt := some now } }

def finishTaskSuccess (g : Graph) (s : Store) (t : ReservedTask) (result : TaskResult)
    (now : Time) : Graph :=
  if planHasActiveHumanGate g s t.planId ∧ ¬result.authorizedIntegration then
    finishRunningTaskBlockedByHumanGate g t .completed none now
  else { g with
    attempts := g.finishAttempt t.attemptId .completed id now
    tasks := g.tasks.update (fun i x => i = t.taskId ∧ x.status = .running) fun x => { x with
      status := .completed
      failureReason := none
      heartbeatAt := some now
      finishedAt := some now } }

/-- An objective of the plan is `CANCEL_REQUESTED` or `CANCELLED`. -/
def Queue.cancellationRequested (q : Queue) (planId : PlanId) : Bool :=
  q.objectives.any fun _ o => o.planId = some planId ∧
    (o.status = .cancelRequested ∨ o.status = .cancelled)

def finishTaskWaitingHuman (d : Database) (t : ReservedTask) (now : Time) : Graph :=
  let g := d.graph
  let attempts := g.finishAttempt t.attemptId .completed id now
  if d.queue.cancellationRequested t.planId then { g with
    attempts
    tasks := g.tasks.update
      (fun i x => i = t.taskId ∧ (x.status = .running ∨ x.status = .blocked)) fun x => { x with
        status := .blocked
        failureReason :=
          if x.failureReason = some cancellationRecoveryError then x.failureReason
          else some cancellationPendingError
        heartbeatAt := some now
        finishedAt := some now }
    plans := g.plans.update
      (fun p q => p = t.planId ∧ (q.status = .ready ∨ q.status = .running ∨ q.status = .blocked))
      fun q => { q with
        status := .blocked
        heartbeatAt := some now
        lastError :=
          if q.lastError = some cancellationRecoveryError then q.lastError
          else some cancellationPendingError } }
  else
    let deferred := planHasAuthorizedIntegrationInFlight g d.store t.planId
    { g with
      attempts
      tasks := g.tasks.update
        (fun i x => x.planId = t.planId ∧
          ((x.status = .pending ∨ x.status = .ready) ∨ (i = t.taskId ∧ x.status = .running)))
        fun x => { x with
          status := .blocked
          failureReason := some humanGateError
          heartbeatAt := some now
          finishedAt := some now }
      plans :=
        if deferred then
          g.plans.update (fun p q => p = t.planId ∧ (q.status = .ready ∨ q.status = .running))
            fun q => { q with heartbeatAt := some now, lastError := some humanGateDeferredError }
        else
          g.plans.update
            (fun p q => p = t.planId ∧
              (q.status = .ready ∨ q.status = .running ∨ q.status = .blocked))
            fun q => { q with
              status := .blocked, heartbeatAt := some now, lastError := some humanGateError } }

def finishTaskCancellationRecovery (g : Graph) (t : ReservedTask) (now : Time) : Graph :=
  { g with
    attempts := g.finishAttempt t.attemptId .completed id now
    tasks := g.tasks.update
      (fun i x => x.planId = t.planId ∧
        ((x.status = .pending ∨ x.status = .ready) ∨ (i = t.taskId ∧ x.status = .running)))
      fun x => { x with
        status := .blocked
        failureReason := some cancellationRecoveryError
        heartbeatAt := some now
        finishedAt := some now }
    plans := g.plans.update
      (fun p q => p = t.planId ∧ (q.status = .ready ∨ q.status = .running ∨ q.status = .blocked))
      fun q => { q with
        status := .blocked
        heartbeatAt := some now
        lastError := some cancellationRecoveryError } }

/-- The retry test of the failure handler and of the reconciliation. -/
def Task.statusAfterFailure (t : Task) : TaskStatus :=
  if t.attemptCount < t.maxAttempts then .ready else .failed

/-- The last `UPDATE` does not look at the status the task has by now. -/
def finishTaskFailure (g : Graph) (s : Store) (t : ReservedTask) (error : String) (now : Time) :
    Graph :=
  match g.tasks.get? t.taskId with
  | none => g
  | some current =>
    if planHasActiveHumanGate g s t.planId then
      finishRunningTaskBlockedByHumanGate g t .failed (some error) now
    else
      let nextStatus := current.statusAfterFailure
      { g with
        attempts := g.finishAttempt t.attemptId .failed (fun _ => some error) now
        tasks := g.tasks.updateAt t.taskId fun x => { x with
          status := nextStatus
          failureReason := some error
          heartbeatAt := some now
          finishedAt := if nextStatus = .failed then some now else none } }

/-- How `execute_task` chooses the handler of a result. -/
def finishTask (d : Database) (t : ReservedTask) (result : TaskResult) (now : Time) : Graph :=
  match result with
  | .plain => finishTaskSuccess d.graph d.store t result now
  | .pipeline _ i =>
    if i.action = .cancel ∧ i.status = .recovering then
      finishTaskCancellationRecovery d.graph t now
    else if i.action = .blockHuman then finishTaskWaitingHuman d t now
    else finishTaskSuccess d.graph d.store t result now

/-! ### Runs whose cleanup did not finish -/

def Integration.abandoned (reason : String) (now : Time) (i : Integration) : Integration :=
  { i with
    status := .failed
    failureReason := i.failureReason.or (some reason)
    finishedAt := i.finishedAt.or (some now) }

/-- `status='FAILED'` for the prepared integrations of a run. -/
def Store.failPreparedIntegrations (s : Store) (runId : RunId) (reason : String) (now : Time) :
    Schemes.Table IntegrationId Integration :=
  s.integrations.update (fun _ i => i.runId = runId ∧ i.status = .prepared)
    (Integration.abandoned reason now)

/-- `status='CANCELLED'` for the pending approvals of a run. -/
def Store.cancelPendingApprovals (s : Store) (runId : RunId)
    (resolvedAt : Option Time → Option Time) : Schemes.Table ApprovalId Approval :=
  s.approvals.update (fun _ a => a.runId = runId ∧ a.status = .pending) fun a => { a with
    status := .cancelled
    resolvedAt := resolvedAt a.resolvedAt }

def Store.lockPresent (s : Store) (runId : RunId) : Bool := s.locks.any fun _ l => l.runId = runId

/-- Some attempt of the task carries the run. -/
def Graph.taskLinks (g : Graph) (taskId : TaskId) (runId : RunId) : Bool :=
  g.attempts.any fun _ a => a.taskId = taskId ∧ a.runId = some runId

/-- `RECOVERING` towards a rollback. -/
def Run.rollingBack (now : Time) (r : Run) : Run :=
  { r with
    status := .recovering
    recoveryDecision := some .rollbackSafe
    heartbeatAt := some now }

/-- The boolean is the return value: the cleanup counts as complete. -/
def markCancellationCleanupRecovery (g : Graph) (s : Store) (runId : RunId) (reason : String)
    (now : Time) : Store × Graph × Bool :=
  match s.runs.get? runId with
  | none => (s, g, false)
  | some run =>
    if run.status = .cancelled ∧ ¬s.lockPresent runId then (s, g, true)
    else if run.status = .completed then (s, g, false)
    else
      ({ s with
          integrations := s.failPreparedIntegrations runId reason now
          runs := s.runs.updateAt runId (Run.rollingBack now)
          approvals := s.cancelPendingApprovals runId (·.or (some now)) },
        { g with
          tasks := g.tasks.update
            (fun i t => g.taskLinks i runId ∧ (t.status = .pending ∨ t.status = .ready ∨
              t.status = .running ∨ t.status = .blocked))
            fun t => { t with
              status := .blocked
              failureReason := some cancellationRecoveryError
              heartbeatAt := some now
              finishedAt := some now }
          plans := g.plans.update
            (fun p q => runId ∈ g.linkedRuns p ∧
              (q.status = .ready ∨ q.status = .running ∨ q.status = .blocked))
            fun q => { q with
              status := .blocked
              heartbeatAt := some now
              lastError := some cancellationRecoveryError } },
        false)

/-- The runs `cleanup_cancel_requested_human_runs` rolls back, `ORDER BY run_id`. -/
def cancelRequestedHumanRuns (d : Database) : List RunId :=
  orderBy id <| List.dedup <| d.queue.objectives.rows.flatMap fun x =>
    match x.2.status, x.2.planId with
    | .cancelRequested, some planId => (d.graph.linkedRuns planId).filter fun r =>
        (d.store.runs.get? r).any fun run => run.status = .waitingHuman
    | _, _ => []

/-! ### Restart -/

/-- A row of the `LEFT JOIN` over the `RUNNING` attempts. -/
structure InterruptedTask where
  taskId : TaskId
  task : Task
  attempt : Option (AttemptId × Attempt)

def Graph.interruptedTasks (g : Graph) : List InterruptedTask :=
  (g.tasks.select fun _ t => t.status = .running).flatMap fun x =>
    match g.attempts.select fun _ a => a.taskId = x.1 ∧ a.status = .running with
    | [] => [⟨x.1, x.2, none⟩]
    | attempts => attempts.map fun a => ⟨x.1, x.2, some a⟩

/-- The task's row when its attempt is given up. -/
def Task.rescheduled (next : TaskStatus) (reason : String) (finish : Bool) (now : Time) (t : Task) :
    Task :=
  { t with
    status := next
    failureReason := some reason
    heartbeatAt := some now
    finishedAt :=
      if finish then if next = .failed then some now else none
      else t.finishedAt }

/-- The attempt's row when it is given up. -/
def Attempt.abandoned (reason : String) (now : Time) (a : Attempt) : Attempt :=
  { a with
    status := .abandoned
    failureReason := some reason
    heartbeatAt := now
    finishedAt := some now }

/-- One turn of the loop. -/
def reconcileInterruptedTask (s : Store) (now : Time) (g : Graph) (row : InterruptedTask) :
    Graph :=
  let next := row.task.statusAfterFailure
  match row.attempt with
  | none => { g with
      tasks := g.tasks.updateAt row.taskId
        (Task.rescheduled next "missing running attempt after restart" true now) }
  | some (attemptId, attempt) =>
    if row.task.kind ≠ .pipeline then { g with
      attempts := g.attempts.update (fun i a => i = attemptId ∧ a.status = .running)
        (Attempt.abandoned "orchestrator process restarted" now)
      tasks := g.tasks.updateAt row.taskId
        (Task.rescheduled next "rescheduled after orchestrator restart" true now) }
    else
      match attempt.runId with
      | none => { g with
          attempts := g.attempts.updateAt attemptId
            (Attempt.abandoned "pipeline restart before transaction reservation" now)
          tasks := g.tasks.updateAt row.taskId
            (Task.rescheduled next "pipeline rescheduled after restart" false now) }
      | some runId =>
        let giveUp : Graph := { g with
          attempts := g.attempts.updateAt attemptId
            (Attempt.abandoned "pipeline run is terminal after restart" now)
          tasks := g.tasks.updateAt row.taskId
            (Task.rescheduled next "pipeline run did not complete" true now) }
        match s.runs.get? runId with
        | none => giveUp
        | some run =>
          if run.status = .cancelled ∨ run.status = .failed then giveUp
          else if run.status = .completed then { g with
            attempts := g.attempts.updateAt attemptId fun a => { a with
              status := .completed, heartbeatAt := now, finishedAt := some now }
            tasks := g.tasks.updateAt row.taskId fun t => { t with
              status := .completed
              failureReason := none
              heartbeatAt := some now
              finishedAt := some now } }
          else { g with
            attempts := g.attempts.updateAt attemptId fun a => { a with heartbeatAt := now } }

/-- The transaction of `reconcile_interrupted_tasks`; the refreshes after it are their own. -/
def reconcileInterruptedTasks (g : Graph) (s : Store) (now : Time) : Graph :=
  g.interruptedTasks.foldl (reconcileInterruptedTask s now) g

end HermesOps
