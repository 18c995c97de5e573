import HermesOps.Properties.Sweep
import HermesOps.Properties.Effects

/-! Everything a step can do to a row of `objective_queue`. Nine kinds of transactions write the
    table; `ObjectiveMove` lists what each of them does to one row, with the reads it rests on, and
    `objective_move` says that a step does one of these. The invariants of the queue are proved by
    cases on it and never open a transaction again. -/

namespace HermesOps

open Schemes

/-- The columns that only a reservation or a link changes. -/
structure Objective.Carries (o o' : Objective) : Prop where
  count : o'.planningAttemptCount = o.planningAttemptCount
  budget : o'.planningMaxAttempts = o.planningMaxAttempts
  plan : o'.planId = o.planId

/-- The action is this command on this objective, from either program. -/
def Action.isCommandOn (id : ObjectiveId) (c : ObjectiveCommand) : Action → Bool
  | .objective (.cli i d _) | .objective (.controller i d _) => i = id ∧ d = c
  | _ => false

/-- What the action makes of the row `o` of objective `id`. -/
inductive ObjectiveMove (w : World) (id : ObjectiveId) (o : Objective) :
    Action → Objective → Prop
  | kept {a o'} : o'.status = o.status → o.Carries o' → ObjectiveMove w id o a o'
  | unlinked {p i s now o'} : o'.status = o.status →
    o'.planningAttemptCount = o.planningAttemptCount →
    o'.planningMaxAttempts = o.planningMaxAttempts → o.planId = some p → o'.planId = none →
    ObjectiveMove w id o (.objective (.attachPlan p i s now)) o'
  | paused {a o'} : a.isCommandOn id .pause = true → o.Carries o' → o.status ≠ .cancelRequested →
    o.status.isTerminal = false → o.status ≠ .paused →
    o'.status = (if o.status = .planning ∨ runningTaskCount w.db.graph o.planId ≠ 0 then
      .pauseRequested else .paused) → ObjectiveMove w id o a o'
  | resumed {a o'} : a.isCommandOn id .resume = true → o.Carries o' → o.status = .paused →
    (o.planId.isSome → w.db.graph.planStatus o.planId ≠ none) →
    o'.status = resumedStatusForPlan (w.db.graph.planStatus o.planId) → ObjectiveMove w id o a o'
  | cancelled {a o'} : a.isCommandOn id .cancel = true → o.Carries o' →
    o.status.isTerminal = false → integrationPointOfNoReturn w.db o.planId = false →
    o'.status = cancelledStatus w.db o → ObjectiveMove w id o a o'
  | swept {now o' e} : o.Carries o' → o.status.isTerminal = false →
    synchronizedStatus w.db ⟨id, o, w.db.graph.planStatus o.planId⟩ = some (o'.status, e) →
    ObjectiveMove w id o (.objective (.synchronize now)) o'
  | promoted {now p plan o'} : o.Carries o' → o.status = .queued → o.planId = some p →
    w.db.graph.plans.get? p = some plan → o'.status = promotedStatus plan.status →
    ObjectiveMove w id o (.objective (.promote id now)) o'
  | exhausted {i now o'} : o.Carries o' → o.status = .queued → o.planId = none →
    o'.status = .failed → ObjectiveMove w id o (.objective (.reserve id i now)) o'
  | reserved {i now o'} : o.status = .queued → o.planId = none → o'.planId = none →
    w.daemon.planners.rows = [] → o'.status = .planning →
    o'.planningAttemptCount = o.planningAttemptCount + 1 →
    o'.planningAttemptCount ≤ o.planningMaxAttempts →
    o'.planningMaxAttempts = o.planningMaxAttempts →
    ObjectiveMove w id o (.objective (.reserve id i now)) o'
  | planned {i p now o'} : w.daemon.planners.get? i = some ⟨id, .generated p⟩ →
    plannedStatus o.status = some o'.status → o'.planId = some p →
    o'.planningAttemptCount = o.planningAttemptCount →
    o'.planningMaxAttempts = o.planningMaxAttempts →
    (∀ j x, j ≠ id → w.db.queue.objectives.get? j = some x → x.planId ≠ some p) →
    (w.db.graph.plans.get? p).isSome →
    ObjectiveMove w id o (.planner i (.success now)) o'
  | failed {i e now o'} : w.daemon.planners.get? i = some ⟨id, .failing e⟩ → o.Carries o' →
    o'.status = o.statusAfterPlanningFailure → ObjectiveMove w id o (.planner i (.failure now)) o'
  | restarted {now o'} : w.daemon.planners.rows = [] → o.Carries o' → o.status = .planning →
    o'.status = o.statusAfterRestart → ObjectiveMove w id o (.objective (.reconcile now)) o'

/-! ### The commands -/

theorem World.objectiveStep_cli (config : Config) (w : World) (id : ObjectiveId)
    (c : ObjectiveCommand) (now : Time) :
    w.objectiveStep config (.cli id c now) =
      match c.apply w.db id now with
      | .ok qg => w.setQueueGraph qg
      | .error _ => w := by
  cases c <;>
    simp only [objectiveStep, commandPause, commandResume, commandCancel] <;>
    cases ObjectiveCommand.apply w.db id now _ <;> rfl

/-- The Controller's command has the effect of the command line's. -/
theorem World.objectiveStep_controller (config : Config) (w : World) (id : ObjectiveId)
    (c : ObjectiveCommand) (now : Time) :
    w.objectiveStep config (.controller id c now) = w.objectiveStep config (.cli id c now) := by
  rw [objectiveStep_cli]
  simp only [objectiveStep, commandObjective]
  cases c.apply w.db id now <;> rfl

/-- What a command does to the objective table. -/
theorem ObjectiveCommand.apply_move {w : World} {id j : ObjectiveId} {c : ObjectiveCommand}
    {now : Time} {qg : Queue × Graph} (h : c.apply w.db id now = .ok qg) {o : Objective}
    (ho : w.db.queue.objectives.get? j = some o) {a : Action} (ha : a.isCommandOn id c = true) :
    ∃ o', qg.1.objectives.get? j = some o' ∧ ObjectiveMove w j o a o' := by
  by_cases hj : j = id
  · subst hj
    rcases apply_ok h with ⟨rfl, h, -⟩ | ⟨rfl, h, -⟩ | ⟨rfl, h⟩
    · obtain ⟨row, hrow, h₁, h₂, hq⟩ := pauseObjective_ok h
      obtain rfl : o = row := by rw [ho] at hrow; simpa using hrow
      rcases hq with ⟨-, hq⟩ | ⟨h₃, hq⟩ <;> rw [hq]
      · exact ⟨o, ho, .kept rfl ⟨rfl, rfl, rfl⟩⟩
      · refine ⟨_, by simp only [Table.get?_updateAt, if_true, ho]; rfl, ?_⟩
        exact .paused ha ⟨rfl, rfl, rfl⟩ h₁ h₂ h₃ rfl
    · obtain ⟨row, hrow, h₁, h₂, hq⟩ := resumeObjective_ok h
      obtain rfl : o = row := by rw [ho] at hrow; simpa using hrow
      rw [hq]
      refine ⟨_, by simp only [Table.get?_updateAt, if_true, ho]; rfl, ?_⟩
      exact .resumed ha ⟨rfl, rfl, rfl⟩ h₁ h₂ rfl
    · obtain ⟨row, hrow, h₁, h₂, hq, -⟩ := cancelObjective_ok h
      obtain rfl : o = row := by rw [ho] at hrow; simpa using hrow
      rw [hq]
      refine ⟨_, by simp only [Table.get?_updateAt, if_true, ho]; rfl, ?_⟩
      exact .cancelled ha ⟨rfl, rfl, rfl⟩ h₁ h₂ rfl
  · refine ⟨o, ?_, .kept rfl ⟨rfl, rfl, rfl⟩⟩
    rcases apply_queue h with hq | ⟨f, hq⟩ <;> rw [hq]
    · exact ho
    · rw [Table.get?_updateAt, if_neg hj]; exact ho

/-! ### Every step -/

theorem objectiveStep_move (config : Config) (w : World) (a : ObjectiveAction)
    {id : ObjectiveId} {o : Objective} (ho : w.db.queue.objectives.get? id = some o) :
    ∃ o', ((w.objectiveStep config a).db.queue.objectives.get? id) = some o' ∧
      ObjectiveMove w id o (.objective a) o' := by
  have same : ∃ o', w.db.queue.objectives.get? id = some o' ∧
      ObjectiveMove w id o (.objective a) o' := ⟨o, ho, .kept rfl ⟨rfl, rfl, rfl⟩⟩
  have insert : ∀ {i s now q}, insertObjective w.db i s now = .ok q →
      q.objectives.get? id = some o := by
    intro i s now q hq
    have hi := (insertObjective_ok hq).1
    have : id ≠ i := by rintro rfl; rw [Table.get?_of_insert hi] at ho; cases ho
    rw [Table.get?_insert hi, if_neg this]; exact ho
  cases a with
  | submit i s now =>
    simp only [World.objectiveStep]
    split
    · exact same
    · cases hq : insertObjective w.db i s now with
      | ok q => exact ⟨o, insert hq, .kept rfl ⟨rfl, rfl, rfl⟩⟩
      | error e => exact same
  | submitPlan p planId firstTask test now =>
    simp only [World.objectiveStep]
    split <;> exact same
  | attachPlan p i s now =>
    simp only [World.objectiveStep]
    split
    · exact same
    · cases hq : insertObjective w.db i { s with planId := some p } now with
      | ok q => simp only [World.db] at hq ⊢; simp only [hq]; exact ⟨o, insert hq, .kept rfl ⟨rfl, rfl, rfl⟩⟩
      | error e =>
        simp only [World.db] at hq ⊢; simp only [hq]
        simp only [World.setDb, deletePlan, Table.get?_update]
        rw [show w.site.db.queue.objectives.get? id = some o from ho]
        by_cases hp : o.planId = some p
        · exact ⟨{ o with planId := none }, by simp [hp], .unlinked rfl rfl rfl hp rfl⟩
        · exact ⟨o, by simp [hp], .kept rfl ⟨rfl, rfl, rfl⟩⟩
  | dropSubmission p => exact same
  | cli i c now =>
    rw [World.objectiveStep_cli]
    cases hc : c.apply w.db i now with
    | ok qg => exact ObjectiveCommand.apply_move hc ho (by simp [Action.isCommandOn])
    | error e => exact same
  | controller i c now =>
    rw [World.objectiveStep_controller, World.objectiveStep_cli]
    cases hc : c.apply w.db i now with
    | ok qg => exact ObjectiveCommand.apply_move hc ho (by simp [Action.isCommandOn])
    | error e => exact same
  | synchronize now =>
    simp only [World.objectiveStep, World.setQueueGraph_db,
      (synchronizeObjectiveStates_spec w.db now).1, ho, Option.map_some]
    refine ⟨_, rfl, ?_⟩
    by_cases ht : o.status.isTerminal = true
    · rw [if_pos ht]; exact .kept rfl ⟨rfl, rfl, rfl⟩
    · rw [if_neg ht, Objective.swept]
      cases hs : synchronizedStatus w.db ⟨id, o, w.db.graph.planStatus o.planId⟩ with
      | none => exact .kept rfl ⟨rfl, rfl, rfl⟩
      | some x =>
        by_cases hx : x.1 = o.status
        · simp only [if_pos hx]; exact .kept rfl ⟨rfl, rfl, rfl⟩
        · simp only [if_neg hx]
          exact .swept (e := x.2) ⟨rfl, rfl, rfl⟩ (by simpa using ht) hs
  | promote i now =>
    simp only [World.objectiveStep]
    split
    · rename_i q g p hpro
      obtain ⟨row, plan, hrow, hp, hplan, hq, rfl, -⟩ := promotePlannedObjective_some hpro
      simp only [World.setQueueGraph_db, Table.get?_update, ho, Option.map_some]
      refine ⟨_, rfl, ?_⟩
      by_cases hid : id = i
      · subst hid
        obtain rfl : o = row := by rw [ho] at hrow; simpa using hrow
        simp only [hq, and_self, decide_true, if_true]
        exact .promoted (p := p) ⟨rfl, rfl, rfl⟩ hq hp hplan rfl
      · simp only [hid, false_and, decide_false, Bool.false_eq_true, if_false]
        exact .kept rfl ⟨rfl, rfl, rfl⟩
    · exact same
  | reserve i attemptId now =>
    simp only [World.objectiveStep]
    split
    · exact same
    · rename_i hplanners
      rw [ne_eq, not_not] at hplanners
      split
      · exact same
      · exact same
      · rename_i q hr
        obtain ⟨row, hrow, hqueued, hplan, -, rfl⟩ := reserveAiObjective_exhausted hr
        by_cases hid : id = i
        · subst hid
          obtain rfl : o = row := by rw [ho] at hrow; simpa using hrow
          refine ⟨_, by simp only [World.setQueue_db, Table.get?_updateAt, if_true, ho]; rfl, ?_⟩
          exact .exhausted ⟨rfl, rfl, rfl⟩ hqueued hplan rfl
        · exact ⟨o, by simp [ho, hid], .kept rfl ⟨rfl, rfl, rfl⟩⟩
      · rename_i q row hr
        obtain ⟨hrow, hqueued, hplan, hbudget, -, hobj, -⟩ := reserveAiObjective_reserved hr
        split
        · simp only [World.setQueue, World.setDb, World.db, hobj, Table.get?_update]
          rw [show w.site.db.queue.objectives.get? id = some o from ho]
          refine ⟨_, rfl, ?_⟩
          by_cases hid : id = i
          · subst hid
            obtain rfl : o = row := by rw [ho] at hrow; simpa using hrow
            simp only [hqueued, and_self, decide_true, if_true]
            exact .reserved hqueued hplan hplan hplanners rfl rfl hbudget rfl
          · simp only [hid, false_and, decide_false, Bool.false_eq_true, if_false]
            exact .kept rfl ⟨rfl, rfl, rfl⟩
        · exact same
  | reconcile now =>
    simp only [World.objectiveStep]
    split
    · exact same
    · rename_i hplanners
      simp only [ne_eq, not_not] at hplanners
      simp only [World.setQueue_db, reconcileInterruptedObjectives, Table.get?_update, ho,
        Option.map_some]
      refine ⟨_, rfl, ?_⟩
      by_cases hp : o.status = .planning
      · simp only [hp, decide_true, if_true]
        exact .restarted hplanners ⟨rfl, rfl, rfl⟩ hp rfl
      · simp only [hp, decide_false, Bool.false_eq_true, if_false]
        exact .kept rfl ⟨rfl, rfl, rfl⟩

theorem plannerStep_move (config : Config) (w : World) (i : ObjectiveAttemptId) (planner : Planner)
    (hp : w.daemon.planners.get? i = some planner) (a : PlannerAction) {id : ObjectiveId}
    {o : Objective} (ho : w.db.queue.objectives.get? id = some o) :
    ∃ o', ((w.plannerStep config i planner a).db.queue.objectives.get? id) = some o' ∧
      ObjectiveMove w id o (.planner i a) o' := by
  have same : ∃ o', w.db.queue.objectives.get? id = some o' ∧
      ObjectiveMove w id o (.planner i a) o' := ⟨o, ho, .kept rfl ⟨rfl, rfl, rfl⟩⟩
  obtain ⟨oid, stage⟩ := planner
  cases a with
  | insert p planId firstTask now =>
    cases stage with
    | generating =>
      simp only [World.plannerStep]
      split <;> exact same
    | _ => exact same
  | raise e => cases stage <;> exact same
  | failure now =>
    cases stage with
    | failing e =>
      simp only [World.plannerStep, World.endPlanner_db, World.setQueue_db,
        finishObjectivePlanningFailure]
      cases hrow : w.db.queue.objectives.get? oid with
      | none => exact same
      | some row =>
        by_cases hid : id = oid
        · subst hid
          obtain rfl : o = row := by rw [ho] at hrow; simpa using hrow
          refine ⟨_, by simp only [Table.get?_updateAt, if_true, ho]; rfl, ?_⟩
          exact .failed hp ⟨rfl, rfl, rfl⟩ rfl
        · exact ⟨o, by simp [ho, hid], .kept rfl ⟨rfl, rfl, rfl⟩⟩
    | _ => exact same
  | success now =>
    cases stage with
    | generated p =>
      simp only [World.plannerStep]
      cases hs : finishObjectivePlanningSuccess w.db oid i p now with
      | error e => exact same
      | ok qg =>
        simp only [World.endPlanner_db, World.setQueueGraph_db]
        obtain ⟨row, new, _, _, hrow, hnew, hplan, hfree, hobj, -, -⟩ :=
          finishObjectivePlanningSuccess_ok hs
        rw [hobj]
        by_cases hid : id = oid
        · subst hid
          obtain rfl : o = row := by rw [ho] at hrow; simpa using hrow
          refine ⟨_, by simp only [Table.get?_updateAt, if_true, ho]; rfl, ?_⟩
          exact .planned hp hnew rfl rfl rfl hfree hplan
        · exact ⟨o, by simp [ho, hid], .kept rfl ⟨rfl, rfl, rfl⟩⟩
    | _ => exact same

/-- A step keeps every objective row and does one of the moves to it. -/
theorem objective_move (h : History) (config : Config) (w : World) (a : Action) {id : ObjectiveId}
    {o : Objective} (ho : w.db.queue.objectives.get? id = some o) :
    ∃ o', (w.step h config a).db.queue.objectives.get? id = some o' ∧
      ObjectiveMove w id o a o' := by
  cases a with
  | objective a => exact objectiveStep_move config w a ho
  | planner i a =>
    simp only [World.step]
    cases hp : w.daemon.planners.get? i with
    | none => exact ⟨o, ho, .kept rfl ⟨rfl, rfl, rfl⟩⟩
    | some planner => exact plannerStep_move config w i planner hp a ho
  | _ =>
    exact ⟨o, by rw [World.step_queue h config w rfl]; exact ho, .kept rfl ⟨rfl, rfl, rfl⟩⟩

/-! ### New rows -/

/-- A command adds no row. -/
theorem ObjectiveCommand.apply_none {d : Database} {i id : ObjectiveId} {c : ObjectiveCommand}
    {now : Time} {qg : Queue × Graph} (h : c.apply d i now = .ok qg)
    (hn : d.queue.objectives.get? id = none) : qg.1.objectives.get? id = none := by
  rcases apply_queue h with hq | ⟨f, hq⟩ <;> rw [hq]
  · exact hn
  · simp [hn]

/-- Where new objectives come from. -/
def Action.isSubmission : Action → Bool
  | .objective (.submit _ _ _) | .objective (.attachPlan _ _ _ _) => true
  | _ => false

theorem objective_none (h : History) (config : Config) (w : World) {a : Action} {id : ObjectiveId}
    (ha : a.isSubmission = false) (hn : w.db.queue.objectives.get? id = none) :
    (w.step h config a).db.queue.objectives.get? id = none := by
  cases a with
  | objective a =>
    cases a with
    | submit i s now => cases ha
    | attachPlan p i s now => cases ha
    | submitPlan p planId firstTask test now =>
      simp only [World.step, World.objectiveStep]
      split <;> exact hn
    | dropSubmission p => exact hn
    | cli i c now =>
      simp only [World.step, World.objectiveStep_cli]
      cases hc : c.apply w.db i now with
      | ok qg => exact ObjectiveCommand.apply_none hc hn
      | error e => exact hn
    | controller i c now =>
      simp only [World.step, World.objectiveStep_controller, World.objectiveStep_cli]
      cases hc : c.apply w.db i now with
      | ok qg => exact ObjectiveCommand.apply_none hc hn
      | error e => exact hn
    | synchronize now =>
      simp [World.step, World.objectiveStep, (synchronizeObjectiveStates_spec w.db now).1, hn]
    | promote i now =>
      simp only [World.step, World.objectiveStep]
      split
      · rename_i q g p hpro
        obtain ⟨_, _, _, _, _, _, rfl, -⟩ := promotePlannedObjective_some hpro
        simp [hn]
      · exact hn
    | reserve i attemptId now =>
      simp only [World.step, World.objectiveStep]
      split
      · exact hn
      · split
        · exact hn
        · exact hn
        · rename_i q hr
          obtain ⟨_, _, _, _, _, rfl⟩ := reserveAiObjective_exhausted hr
          simp [hn]
        · rename_i q row hr
          obtain ⟨_, _, _, _, _, hobj, _⟩ := reserveAiObjective_reserved hr
          split
          · simp only [World.db] at hn; simp [World.setQueue, World.setDb, World.db, hobj, hn]
          · exact hn
    | reconcile now =>
      simp only [World.step, World.objectiveStep]
      split
      · exact hn
      · simp [reconcileInterruptedObjectives, hn]
  | planner i a =>
    simp only [World.step]
    cases w.daemon.planners.get? i with
    | none => exact hn
    | some planner =>
      obtain ⟨oid, stage⟩ := planner
      cases a with
      | insert p planId firstTask now =>
        cases stage with
        | generating => simp only [World.plannerStep]; split <;> exact hn
        | _ => exact hn
      | raise e => cases stage <;> exact hn
      | failure now =>
        cases stage with
        | failing e =>
          simp only [World.plannerStep, World.endPlanner_db, World.setQueue_db,
            finishObjectivePlanningFailure]
          split <;> simp [hn]
        | _ => exact hn
      | success now =>
        cases stage with
        | generated p =>
          simp only [World.plannerStep]
          cases hs : finishObjectivePlanningSuccess w.db oid i p now with
          | error e => exact hn
          | ok qg =>
            obtain ⟨_, _, _, _, _, _, _, _, hobj, -, -⟩ := finishObjectivePlanningSuccess_ok hs
            simp [hobj, hn]
        | _ => exact hn
  | _ => rw [World.step_queue h config w rfl]; exact hn

/-- A row that a step adds is a fresh submission; its plan, if any, awaits it. -/
theorem objective_new (h : History) (config : Config) (w : World) (a : Action) {id : ObjectiveId}
    {o : Objective} (hn : w.db.queue.objectives.get? id = none)
    (ho : (w.step h config a).db.queue.objectives.get? id = some o) :
    ∃ s now, o = Submission.row s now ∧ ∀ p, s.planId = some p → p ∈ w.submissions ∧
      (w.db.graph.plans.get? p).isSome ∧
        ∀ j x, w.db.queue.objectives.get? j = some x → x.planId ≠ some p := by
  by_cases ha : a.isSubmission = false
  · rw [objective_none h config w ha hn] at ho; cases ho
  · unfold Action.isSubmission at ha
    split at ha
    · rename_i i s now
      simp only [World.step, World.objectiveStep] at ho
      split at ho
      · rw [hn] at ho; cases ho
      · rename_i hs
        rw [not_not] at hs
        cases hi : insertObjective w.db i s now with
        | error e => simp only [hi, hn] at ho; cases ho
        | ok q =>
          simp only [hi, World.setQueue_db, Table.get?_insert (insertObjective_ok hi).1, hn] at ho
          split at ho
          · cases ho; exact ⟨s, now, rfl, fun p hp => by rw [hs.2.2] at hp; cases hp⟩
          · cases ho
    · rename_i p i s now
      simp only [World.step, World.objectiveStep] at ho
      split at ho
      · rw [hn] at ho; cases ho
      · rename_i hs
        rw [not_not] at hs
        cases hi : insertObjective w.db i { s with planId := some p } now with
        | error e =>
          simp only [World.db] at hi ho hn
          simp [hi, World.setDb, deletePlan, hn] at ho
        | ok q =>
          have hget := Table.get?_insert (insertObjective_ok hi).1 id
          simp only [World.db] at hi ho
          simp only [hi] at ho
          simp only [World.setQueue, World.setDb, hget, hn] at ho
          split at ho
          · cases ho
            refine ⟨{ s with planId := some p }, now, rfl, fun p' hp => ?_⟩
            obtain rfl : p = p' := by simpa using hp
            exact ⟨hs, (insertObjective_ok hi).2.2 p rfl⟩
          · cases ho
    · simp at ha

end HermesOps
