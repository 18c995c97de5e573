import HermesOps.Model.Objectives

/-! The objective half of `hermesops-orchestrator.py`: the sweep that synchronizes objectives with
    their plans, the promotion and reservation of queued objectives, the two handlers a planner
    thread ends in, and the reconciliation after a restart. -/

namespace HermesOps

/-- `ORDER BY` an ascending key, stable in insertion order. -/
def orderBy {α : Type} (key : α → Nat) (l : List α) : List α :=
  l.insertionSort fun a b => key a ≤ key b

theorem mem_orderBy {α : Type} {key : α → Nat} {l : List α} {a : α} : a ∈ orderBy key l ↔ a ∈ l :=
  List.mem_insertionSort _

/-! ### Reads of the sweep -/

def RunStatus.isTerminal : RunStatus → Bool
  | .completed | .failed | .cancelled => true
  | _ => false

def cancellationCleanupPending (d : Database) : Option PlanId → Bool
  | none => false
  | some planId => (d.graph.linkedRuns planId).any fun r =>
      match d.store.runs.get? r with
      | some run => !run.status.isTerminal
      | none => false

/-- The orchestrator's copy of `cancel_plan_in_transaction`. -/
def cancelObjectivePlan (g : Graph) (planId : Option PlanId) (now : Time) : Graph :=
  cancelPlanInTransaction g planId now

/-- The statuses that occupy one of the `global_parallel_objectives` slots. -/
def ObjectiveStatus.isActive : ObjectiveStatus → Bool
  | .planning | .running | .pauseRequested | .cancelRequested => true
  | _ => false

def activeObjectiveCount (q : Queue) : Nat := q.objectives.count fun _ o => o.status.isActive

/-! ### The sweep -/

/-- A row of the sweep's `SELECT`: the objective and the status its plan had then. -/
structure SweepRow where
  objectiveId : ObjectiveId
  objective : Objective
  planStatus : Option PlanStatus

/-- `new` and `error` of one turn of the loop. -/
def synchronizedStatus (d : Database) (row : SweepRow) :
    Option (ObjectiveStatus × Option String) :=
  let running := runningTaskCount d.graph row.objective.planId
  if row.objective.status = .cancelRequested then
    if running = 0 ∧ ¬cancellationCleanupPending d row.objective.planId then
      some (.cancelled, some "cancelled by operator")
    else none
  else if row.objective.status = .pauseRequested ∧ running = 0 then some (.paused, none)
  else
    match row.planStatus with
    | some .completed => some (.completed, none)
    | some .failed => some (.failed, some "linked orchestration plan failed")
    | some .cancelled => some (.cancelled, some "linked orchestration plan cancelled")
    | _ => none

/-- The `UPDATE` of a turn that found a new status. -/
def Objective.synchronize (new : ObjectiveStatus) (error : Option String) (now : Time)
    (o : Objective) : Objective :=
  { o with
    status := new
    heartbeatAt := now
    pausedAt := if new = .paused then some now else o.pausedAt
    finishedAt := if new.isTerminal then some now else none
    lastError := error }

/-- One turn of the loop; the counts are read from the database as the earlier turns left it. -/
def synchronizeObjective (store : Store) (now : Time) (qg : Queue × Graph) (row : SweepRow) :
    Queue × Graph :=
  let write (f : Objective → Objective) : Queue :=
    { qg.1 with objectives := qg.1.objectives.updateAt row.objectiveId f }
  match synchronizedStatus ⟨qg.1, qg.2, store⟩ row with
  | none => (write fun o => { o with heartbeatAt := now }, qg.2)
  | some (new, error) =>
    let graph :=
      if row.objective.status = .cancelRequested then
        cancelObjectivePlan qg.2 row.objective.planId now
      else qg.2
    if new = row.objective.status then (write fun o => { o with heartbeatAt := now }, graph)
    else (write (Objective.synchronize new error now), graph)

def sweepRows (d : Database) : List SweepRow :=
  (orderBy (·.2.createdAt) (d.queue.objectives.select fun _ o => !o.status.isTerminal)).map fun x =>
    ⟨x.1, x.2, d.graph.planStatus x.2.planId⟩

def synchronizeObjectiveStates (d : Database) (now : Time) : Queue × Graph :=
  (sweepRows d).foldl (synchronizeObjective d.store now) (d.queue, d.graph)

/-! ### Promotion and reservation -/

def nextQueuedObjective (q : Queue) (now : Time) : Option (ObjectiveId × Objective) :=
  let queued := q.objectives.select fun _ o => o.status = .queued ∧ o.notBefore ≤ now
  (queued.insertionSort fun a b =>
    a.2.priority < b.2.priority ∨
      (a.2.priority = b.2.priority ∧ a.2.createdAt ≤ b.2.createdAt)).head?

/-- `DRAFT` becomes `READY`. -/
def Graph.readyPlan (g : Graph) (planId : PlanId) (now : Time) : Graph :=
  { g with
    plans := g.plans.update (fun p q => p = planId ∧ q.status = .draft) fun q =>
      { q with status := .ready, heartbeatAt := some now, lastError := none } }

/-- The status promotion takes over from the plan. -/
def promotedStatus : PlanStatus → ObjectiveStatus
  | .completed => .completed
  | .failed => .failed
  | .cancelled => .cancelled
  | .draft | .ready | .running | .blocked => .running

def Objective.promoted (new : ObjectiveStatus) (now : Time) (o : Objective) : Objective :=
  { o with
    status := new
    startedAt := o.startedAt.or (some now)
    heartbeatAt := now
    finishedAt := if new.isTerminal then some now else none
    pausedAt := none
    lastError := linkedPlanError new }

/-- `None` rolls the transaction back. -/
def promotePlannedObjective (d : Database) (id : ObjectiveId) (now : Time) :
    Option (Queue × Graph × PlanId) :=
  match d.queue.objectives.get? id with
  | none => none
  | some row =>
    match row.planId with
    | none => none
    | some planId =>
      match d.graph.plans.get? planId with
      | none => none
      | some plan =>
        if ¬(row.status = .queued ∧ row.notBefore ≤ now) then none
        else
          some ({ d.queue with
            objectives := d.queue.objectives.update (fun i o => i = id ∧ o.status = .queued)
              (Objective.promoted (promotedStatus plan.status) now) },
            if plan.status = .draft then d.graph.readyPlan planId now else d.graph, planId)

theorem promotePlannedObjective_some {d : Database} {id : ObjectiveId} {now : Time} {q : Queue}
    {g : Graph} {planId : PlanId} (h : promotePlannedObjective d id now = some (q, g, planId)) :
    ∃ row plan, d.queue.objectives.get? id = some row ∧ row.planId = some planId ∧
      d.graph.plans.get? planId = some plan ∧ row.status = .queued ∧
      q = { d.queue with
        objectives := d.queue.objectives.update (fun i o => i = id ∧ o.status = .queued)
          (Objective.promoted (promotedStatus plan.status) now) } ∧
      g = if plan.status = .draft then d.graph.readyPlan planId now else d.graph := by
  unfold promotePlannedObjective at h
  split at h
  · cases h
  · rename_i row hrow
    split at h
    · cases h
    · rename_i p hp
      split at h
      · cases h
      · rename_i plan hplan
        split at h
        · cases h
        · rename_i hq
          rw [not_not] at hq
          simp only [Option.some.injEq, Prod.mk.injEq] at h
          obtain ⟨rfl, rfl, rfl⟩ := h
          exact ⟨row, plan, hrow, hp, hplan, hq.1, rfl, rfl⟩

/-- What `reserve_ai_objective` returns: the reservation, nothing (with or without a committed
    write), or the exception of a constraint. -/
inductive Reservation where
  | refused
  | exhausted (queue : Queue)
  | reserved (queue : Queue) (objective : Objective)
  | raised (error : String)

def Objective.exhausted (now : Time) (o : Objective) : Objective :=
  { o with
    status := .failed
    heartbeatAt := now
    finishedAt := some now
    lastError := some "planning attempt budget exhausted" }

def Objective.reserved (attemptNumber : Nat) (now : Time) (o : Objective) : Objective :=
  { o with
    status := .planning
    planningAttemptCount := attemptNumber
    startedAt := o.startedAt.or (some now)
    heartbeatAt := now
    lastError := none }

/-- The inserted attempt. -/
def ObjectiveAttempt.start (id : ObjectiveId) (attemptNumber : Nat) (now : Time) :
    ObjectiveAttempt where
  objectiveId := id
  attemptNumber
  status := .running
  planId := none
  failureReason := none
  startedAt := now
  heartbeatAt := now
  finishedAt := none
  nextAttemptAt := none

def reserveAiObjective (q : Queue) (id : ObjectiveId) (attemptId : ObjectiveAttemptId)
    (globalParallelObjectives : Nat) (now : Time) : Reservation :=
  if activeObjectiveCount q ≥ globalParallelObjectives then .refused
  else
    match q.objectives.get? id with
    | none => .refused
    | some row =>
      if ¬(row.status = .queued ∧ row.source = .ai ∧ row.planId = none ∧ row.notBefore ≤ now) then
        .refused
      else
        let attemptNumber := row.planningAttemptCount + 1
        if attemptNumber > row.planningMaxAttempts then
          .exhausted { q with objectives := q.objectives.updateAt id (Objective.exhausted now) }
        else
          let objectives := q.objectives.update (fun i o => i = id ∧ o.status = .queued)
            (Objective.reserved attemptNumber now)
          if q.attempts.any fun _ a => a.objectiveId = id ∧ a.attemptNumber = attemptNumber then
            .raised "UNIQUE constraint failed: objective_attempts.attempt_number"
          else
            match q.attempts.insert attemptId (ObjectiveAttempt.start id attemptNumber now) with
            | some attempts => .reserved { objectives, attempts } row
            | none => .raised "UNIQUE constraint failed: objective_attempts.objective_attempt_id"

section Reservation

variable {q q' : Queue} {id : ObjectiveId} {attemptId : ObjectiveAttemptId} {n : Nat} {now : Time}

theorem reserveAiObjective_exhausted
    (h : reserveAiObjective q id attemptId n now = .exhausted q') :
    ∃ row, q.objectives.get? id = some row ∧ row.status = .queued ∧ row.planId = none ∧
      row.planningMaxAttempts < row.planningAttemptCount + 1 ∧
      q' = { q with objectives := q.objectives.updateAt id (Objective.exhausted now) } := by
  unfold reserveAiObjective at h
  split at h
  · cases h
  · split at h
    · cases h
    · rename_i row hrow
      split at h
      · cases h
      · rename_i hq
        rw [not_not] at hq
        simp only at h
        split at h
        · rename_i hb
          simp only [Reservation.exhausted.injEq] at h
          exact ⟨row, hrow, hq.1, hq.2.2.1, hb, h.symm⟩
        · split at h
          · cases h
          · split at h <;> cases h

theorem reserveAiObjective_reserved {row : Objective}
    (h : reserveAiObjective q id attemptId n now = .reserved q' row) :
    q.objectives.get? id = some row ∧ row.status = .queued ∧ row.planId = none ∧
      row.planningAttemptCount + 1 ≤ row.planningMaxAttempts ∧
      (∀ i a, q.attempts.get? i = some a → a.objectiveId = id →
        a.attemptNumber ≠ row.planningAttemptCount + 1) ∧
      q'.objectives = q.objectives.update (fun i o => i = id ∧ o.status = .queued)
        (Objective.reserved (row.planningAttemptCount + 1) now) ∧
      q.attempts.insert attemptId (ObjectiveAttempt.start id (row.planningAttemptCount + 1) now) =
        some q'.attempts := by
  unfold reserveAiObjective at h
  split at h
  · cases h
  · split at h
    · cases h
    · rename_i row' hrow
      split at h
      · cases h
      · rename_i hq
        rw [not_not] at hq
        simp only at h
        split at h
        · cases h
        · rename_i hb
          split at h
          · cases h
          · rename_i hunique
            split at h
            · rename_i attempts hatt
              simp only [Reservation.reserved.injEq] at h
              obtain ⟨rfl, rfl⟩ := h
              refine ⟨hrow, hq.1, hq.2.2.1, Nat.not_lt.1 hb, fun i a ha hid hn => ?_, rfl, hatt⟩
              exact hunique (Schemes.Table.any_iff.2 ⟨i, a, ha, by simp [hid, hn]⟩)
            · cases h

end Reservation

/-! ### The end of a planner thread -/

/-- The Python spelling of a status in an error text. -/
def ObjectiveStatus.name : ObjectiveStatus → String
  | .queued => "QUEUED"
  | .planning => "PLANNING"
  | .running => "RUNNING"
  | .pauseRequested => "PAUSE_REQUESTED"
  | .paused => "PAUSED"
  | .cancelRequested => "CANCEL_REQUESTED"
  | .completed => "COMPLETED"
  | .failed => "FAILED"
  | .cancelled => "CANCELLED"

/-- The final `UPDATE` of the success handler. -/
def Objective.planned (new : ObjectiveStatus) (planId : PlanId) (finishedAt : Option Time)
    (error : Option String) (now : Time) (o : Objective) : Objective :=
  { o with
    status := new
    planId := some planId
    heartbeatAt := now
    finishedAt
    pausedAt := if new = .paused then some now else none
    lastError := error }

/-- The attempt of a planner that returned a plan. -/
def ObjectiveAttempt.completed (planId : PlanId) (now : Time) (a : ObjectiveAttempt) :
    ObjectiveAttempt :=
  { a with
    status := .completed
    planId := some planId
    heartbeatAt := now
    finishedAt := some now }

/-- The last two errors are the constraints on the `plan_id` columns. -/
def finishObjectivePlanningSuccess (d : Database) (id : ObjectiveId)
    (attemptId : ObjectiveAttemptId) (planId : PlanId) (now : Time) :
    Except String (Queue × Graph) :=
  match d.queue.objectives.get? id with
  | none => .error s!"Objective disappeared during planning: {id}"
  | some row =>
    if (d.graph.plans.get? planId).isNone then .error "FOREIGN KEY constraint failed"
    else
      let attempts := d.queue.attempts.update (fun i a => i = attemptId ∧ a.status = .running)
        (ObjectiveAttempt.completed planId now)
      let finish (new : ObjectiveStatus) (finishedAt : Option Time) (error : Option String)
          (graph : Graph) : Except String (Queue × Graph) :=
        if d.queue.objectives.any fun i o => i ≠ id ∧ o.planId = some planId then
          .error "UNIQUE constraint failed: objective_queue.plan_id"
        else
          .ok ({ objectives := d.queue.objectives.updateAt id
                   (Objective.planned new planId finishedAt error now), attempts }, graph)
      match row.status with
      | .cancelRequested =>
        finish .cancelled (some now) (some "cancelled by operator during planning")
          (cancelObjectivePlan d.graph (some planId) now)
      | .pauseRequested => finish .paused none none d.graph
      | .planning =>
        finish .running none none (d.graph.readyPlan planId now)
      | status => .error s!"Unexpected objective status after planning: {status.name}"

/-- The status the success handler leaves, where it accepts the old one. -/
def plannedStatus : ObjectiveStatus → Option ObjectiveStatus
  | .cancelRequested => some .cancelled
  | .pauseRequested => some .paused
  | .planning => some .running
  | _ => none

/-- The graph the success handler leaves, by the old status of the objective. -/
def plannedGraph (g : Graph) (planId : PlanId) (now : Time) : ObjectiveStatus → Graph
  | .cancelRequested => cancelObjectivePlan g (some planId) now
  | .planning => g.readyPlan planId now
  | _ => g

theorem finishObjectivePlanningSuccess_ok {d : Database} {id : ObjectiveId}
    {attemptId : ObjectiveAttemptId} {planId : PlanId} {now : Time} {qg : Queue × Graph}
    (h : finishObjectivePlanningSuccess d id attemptId planId now = .ok qg) :
    ∃ row new finishedAt error, d.queue.objectives.get? id = some row ∧
      plannedStatus row.status = some new ∧ (d.graph.plans.get? planId).isSome ∧
      (∀ j x, j ≠ id → d.queue.objectives.get? j = some x → x.planId ≠ some planId) ∧
      qg.1.objectives =
        d.queue.objectives.updateAt id (Objective.planned new planId finishedAt error now) ∧
      qg.1.attempts = d.queue.attempts.update (fun i a => i = attemptId ∧ a.status = .running)
        (ObjectiveAttempt.completed planId now) ∧
      qg.2 = plannedGraph d.graph planId now row.status := by
  simp only [finishObjectivePlanningSuccess] at h
  cases hrow : d.queue.objectives.get? id with
  | none => simp [hrow] at h
  | some row =>
    simp only [hrow] at h
    split at h
    · cases h
    · rename_i hplan
      have hsome : (d.graph.plans.get? planId).isSome :=
        Option.isSome_iff_ne_none.2 (by simpa using hplan)
      refine ⟨row, ?_⟩
      by_cases hany : d.queue.objectives.any fun i o => i ≠ id ∧ o.planId = some planId
      · cases hst : row.status <;> simp only [hst, if_pos hany] at h <;> cases h
      · have hfree : ∀ j x, j ≠ id → d.queue.objectives.get? j = some x → x.planId ≠ some planId :=
          fun j x hj hx hxp => hany (Schemes.Table.any_iff.2 ⟨j, x, hx, by simp [hj, hxp]⟩)
        cases hst : row.status <;> simp only [hst, if_neg hany] at h
        all_goals first
          | (cases h; exact ⟨_, _, _, rfl, rfl, hsome, hfree, rfl, rfl, rfl⟩)
          | cases h

/-- `next_status` of the failure handler; the last two branches do not look at the status. -/
def Objective.statusAfterPlanningFailure (o : Objective) : ObjectiveStatus :=
  if o.status = .cancelRequested then .cancelled
  else if o.status = .pauseRequested then .paused
  else if o.planningAttemptCount < o.planningMaxAttempts then .queued
  else .failed

/-- The attempt of a planner that failed. -/
def ObjectiveAttempt.failed (error : String) (nextAttemptAt : Option Time) (now : Time)
    (a : ObjectiveAttempt) : ObjectiveAttempt :=
  { a with
    status := .failed
    failureReason := some error
    heartbeatAt := now
    finishedAt := some now
    nextAttemptAt }

/-- The final `UPDATE` of the failure handler. -/
def Objective.planningFailed (nextStatus : ObjectiveStatus) (nextAttemptAt : Option Time)
    (error : String) (now : Time) (o : Objective) : Objective :=
  { o with
    status := nextStatus
    notBefore := nextAttemptAt.getD o.notBefore
    heartbeatAt := now
    finishedAt := if nextStatus = .failed ∨ nextStatus = .cancelled then some now else none
    pausedAt := if nextStatus = .paused then some now else o.pausedAt
    lastError := some error }

def finishObjectivePlanningFailure (q : Queue) (id : ObjectiveId) (attemptId : ObjectiveAttemptId)
    (error : String) (retryBackoffSeconds : Nat) (now : Time) : Queue :=
  match q.objectives.get? id with
  | none => q
  | some row =>
    let nextStatus := row.statusAfterPlanningFailure
    let nextAttemptAt : Option Time :=
      if nextStatus = .queued then
        some (now + 1000 * (retryBackoffSeconds * row.planningAttemptCount))
      else none
    { attempts := q.attempts.update (fun i a => i = attemptId ∧ a.status = .running)
        (ObjectiveAttempt.failed error nextAttemptAt now)
      objectives :=
        q.objectives.updateAt id (Objective.planningFailed nextStatus nextAttemptAt error now) }

theorem finishObjectivePlanningFailure_eq {q : Queue} {id : ObjectiveId} {row : Objective}
    (h : q.objectives.get? id = some row) (attemptId : ObjectiveAttemptId) (error : String)
    (backoff : Nat) (now : Time) :
    ∃ next, finishObjectivePlanningFailure q id attemptId error backoff now =
      { attempts := q.attempts.update (fun i a => i = attemptId ∧ a.status = .running)
          (ObjectiveAttempt.failed error next now)
        objectives := q.objectives.updateAt id
          (Objective.planningFailed row.statusAfterPlanningFailure next error now) } := by
  simp only [finishObjectivePlanningFailure, h]
  exact ⟨_, rfl⟩

/-! ### Restart -/

/-- The status a `PLANNING` objective restarts with. -/
def Objective.statusAfterRestart (o : Objective) : ObjectiveStatus :=
  if o.planningAttemptCount < o.planningMaxAttempts then .queued else .failed

def Objective.restarted (now : Time) (o : Objective) : Objective :=
  { o with
    status := o.statusAfterRestart
    notBefore := now
    heartbeatAt := now
    finishedAt := if o.statusAfterRestart = .failed then some now else none
    lastError := some "orchestrator process restarted during planning" }

/-- An attempt given up after a restart. -/
def ObjectiveAttempt.abandoned (now : Time) (a : ObjectiveAttempt) : ObjectiveAttempt :=
  { a with
    status := .abandoned
    heartbeatAt := now
    finishedAt := some now
    failureReason := some "orchestrator process restarted" }

/-- The loop writes each `PLANNING` objective and its `RUNNING` attempts once, so it is one `UPDATE`
    of each table. -/
def reconcileInterruptedObjectives (q : Queue) (now : Time) : Queue where
  attempts := q.attempts.update
    (fun _ a => a.status = .running ∧
      (q.objectives.get? a.objectiveId).any fun o => o.status = .planning)
    (ObjectiveAttempt.abandoned now)
  objectives := q.objectives.update (fun _ o => o.status = .planning) (Objective.restarted now)

end HermesOps
