import HermesOps.Controller.ObjectiveReads
import HermesOps.Properties.Handovers
import Mathlib.Logic.Relation

/-! The life of an objective as its readers see it. The control plane moves the rows, and what `_state`
    makes of them moves along a fixed list of transitions: an objective that has ended stays as it is, and
    a requested cancellation can only be carried out. The one way off the list is a planner that fails
    after its objective has left the planning: `finish_objective_planning_failure` puts it back among the
    drafts, or lets it fail, whatever it has become. -/

namespace HermesOps.ObjectiveReads

open Schemes

/-! ### What no step changes -/

/-- The columns that the list is ordered and filtered by. -/
structure SameEntry (o o' : Objective) : Prop where
  createdAt : o'.createdAt = o.createdAt
  projectScope : o'.projectScope = o.projectScope

theorem SameEntry.trans {o o' o'' : Objective} (h : SameEntry o o') (h' : SameEntry o' o'') :
    SameEntry o o'' :=
  ⟨h'.createdAt.trans h.createdAt, h'.projectScope.trans h.projectScope⟩

/-- Every objective stays, as the same entry of the list. -/
def Keeps (t t' : Table ObjectiveId Objective) : Prop :=
  ∀ id o, t.get? id = some o → ∃ o', t'.get? id = some o' ∧ SameEntry o o'

variable {t t' : Table ObjectiveId Objective} {d : Database} {w : World} {a : Action} {id : ObjectiveId}
  {o o' : Objective}

/-- `_projects` reads one as it reads the other. -/
theorem SameEntry.readable (h : SameEntry o o') : readable o' = readable o := by
  rw [ObjectiveReads.readable, ObjectiveReads.readable, h.projectScope]

theorem Keeps.refl (t : Table ObjectiveId Objective) : Keeps t t := fun _ o ho => ⟨o, ho, rfl, rfl⟩

theorem Keeps.trans {t'' : Table ObjectiveId Objective} (h : Keeps t t') (h' : Keeps t' t'') :
    Keeps t t'' := by
  intro id o ho
  obtain ⟨o', ho', hsame⟩ := h id o ho
  obtain ⟨o'', ho'', hsame'⟩ := h' id o' ho'
  exact ⟨o'', ho'', hsame.trans hsame'⟩

theorem keeps_update {p : ObjectiveId → Objective → Bool} {f : Objective → Objective}
    (hf : ∀ o, SameEntry o (f o)) : Keeps t (t.update p f) := by
  intro id o ho
  refine ⟨if p id o then f o else o, by rw [Table.get?_update, ho, Option.map_some], ?_⟩
  split
  · exact hf o
  · exact ⟨rfl, rfl⟩

theorem keeps_updateAt {f : Objective → Objective} (hf : ∀ o, SameEntry o (f o)) :
    Keeps t (t.updateAt id f) := keeps_update hf

theorem keeps_insert (h : t.insert id o = some t') : Keeps t t' := by
  intro i x hx
  have hne : i ≠ id := by
    rintro rfl
    rw [Table.get?_of_insert h] at hx
    cases hx
  exact ⟨x, by rw [Table.get?_insert h, if_neg hne]; exact hx, rfl, rfl⟩

theorem apply_keeps {c : ObjectiveCommand} {now : Time} {qg : Queue × Graph}
    (h : c.apply d id now = .ok qg) : Keeps d.queue.objectives qg.1.objectives := by
  rcases ObjectiveCommand.apply_ok h with ⟨-, h, -⟩ | ⟨-, h, -⟩ | ⟨-, h⟩
  · obtain ⟨_, -, -, -, ⟨-, hq⟩ | ⟨-, hq⟩⟩ := pauseObjective_ok h <;> rw [hq]
    · exact .refl _
    · exact keeps_updateAt fun _ => ⟨rfl, rfl⟩
  · obtain ⟨_, -, -, -, hq⟩ := resumeObjective_ok h
    rw [hq]
    exact keeps_updateAt fun _ => ⟨rfl, rfl⟩
  · obtain ⟨_, -, -, -, hq, -⟩ := cancelObjective_ok h
    rw [hq]
    exact keeps_updateAt fun _ => ⟨rfl, rfl⟩

theorem swept_sameEntry {now : Time} (o : Objective) :
    SameEntry o (o.swept d id now) := by
  unfold Objective.swept
  split
  · exact ⟨rfl, rfl⟩
  · split <;> exact ⟨rfl, rfl⟩

theorem objectiveStep_keeps (config : Config) (w : World) (a : ObjectiveAction) :
    Keeps w.db.queue.objectives (w.objectiveStep config a).db.queue.objectives := by
  cases a with
  | submit id s now =>
    simp only [World.objectiveStep]
    split
    · exact .refl _
    · cases hi : insertObjective w.db id s now with
      | ok q => exact keeps_insert (insertObjective_ok hi).1
      | error e => exact .refl _
  | submitPlan p planId firstTask test now =>
    simp only [World.objectiveStep]
    split <;> exact .refl _
  | attachPlan p id s now =>
    simp only [World.objectiveStep]
    split
    · exact .refl _
    · cases hi : insertObjective w.db id { s with planId := some p } now with
      | ok q =>
        simp only [World.db] at hi ⊢
        simp only [hi]
        exact keeps_insert (insertObjective_ok hi).1
      | error e =>
        simp only [World.db] at hi ⊢
        simp only [hi]
        exact keeps_update fun _ => ⟨rfl, rfl⟩
  | dropSubmission p => exact .refl _
  | cli id c now =>
    rw [World.objectiveStep_cli]
    cases hc : c.apply w.db id now with
    | ok qg => exact apply_keeps hc
    | error e => exact .refl _
  | controller id c now =>
    rw [World.objectiveStep_controller, World.objectiveStep_cli]
    cases hc : c.apply w.db id now with
    | ok qg => exact apply_keeps hc
    | error e => exact .refl _
  | synchronize now =>
    intro id o ho
    refine ⟨if o.status.isTerminal then o else o.swept w.db id now, ?_, ?_⟩
    · simp only [World.objectiveStep, World.setQueueGraph_db,
        (synchronizeObjectiveStates_spec w.db now).1, ho,
        Option.map_some]
    · split
      · exact ⟨rfl, rfl⟩
      · exact swept_sameEntry o
  | promote id now =>
    simp only [World.objectiveStep]
    split
    · rename_i hpro
      obtain ⟨_, _, -, -, -, -, rfl, -⟩ := promotePlannedObjective_some hpro
      exact keeps_update fun _ => ⟨rfl, rfl⟩
    · exact .refl _
  | reserve id attemptId now =>
    simp only [World.objectiveStep]
    split
    · exact .refl _
    · split
      · exact .refl _
      · exact .refl _
      · rename_i hr
        obtain ⟨_, -, -, -, -, rfl⟩ := reserveAiObjective_exhausted hr
        exact keeps_updateAt fun _ => ⟨rfl, rfl⟩
      · rename_i q row hr
        obtain ⟨-, -, -, -, -, hobj, -⟩ := reserveAiObjective_reserved hr
        split
        · change Keeps _ q.objectives
          rw [hobj]
          exact keeps_update fun _ => ⟨rfl, rfl⟩
        · exact .refl _
  | reconcile now =>
    simp only [World.objectiveStep]
    split
    · exact .refl _
    · exact keeps_update fun _ => ⟨rfl, rfl⟩

theorem plannerStep_keeps (config : Config) (i : ObjectiveAttemptId) (w : World) (planner : Planner)
    (a : PlannerAction) :
    Keeps w.db.queue.objectives (w.plannerStep config i planner a).db.queue.objectives := by
  obtain ⟨id, stage⟩ := planner
  cases a with
  | insert p planId firstTask now =>
    cases stage with
    | generating =>
      simp only [World.plannerStep]
      split <;> exact .refl _
    | _ => exact .refl _
  | raise e => cases stage <;> exact .refl _
  | failure now =>
    cases stage with
    | failing e =>
      simp only [World.plannerStep, World.endPlanner_db, World.setQueue_db, finishObjectivePlanningFailure]
      split
      · exact .refl _
      · exact keeps_updateAt fun _ => ⟨rfl, rfl⟩
    | _ => exact .refl _
  | success now =>
    cases stage with
    | generated p =>
      simp only [World.plannerStep]
      cases hs : finishObjectivePlanningSuccess w.db id i p now with
      | error e => exact .refl _
      | ok qg =>
        obtain ⟨_, _, _, _, -, -, -, -, hobj, -, -⟩ := finishObjectivePlanningSuccess_ok hs
        simp only [World.endPlanner_db, World.setQueueGraph_db, hobj]
        exact keeps_updateAt fun _ => ⟨rfl, rfl⟩
    | _ => exact .refl _

theorem step_keeps (h : History) (config : Config) (w : World) (a : Action) :
    Keeps w.db.queue.objectives (w.step h config a).db.queue.objectives := by
  cases a with
  | objective a => exact objectiveStep_keeps config w a
  | planner i a =>
    simp only [World.step]
    cases w.daemon.planners.get? i with
    | none => exact .refl _
    | some planner => exact plannerStep_keeps config i w planner a
  | _ =>
    rw [World.step_queue h config w rfl]
    exact .refl _

theorem run_keeps (h : History) (config : Config) (w : World) (as : List Action) :
    Keeps w.db.queue.objectives ((machine h config).run w as).db.queue.objectives := by
  induction as generalizing w with
  | nil => exact .refl _
  | cons a as ih => exact (step_keeps h config w a).trans (ih _)

/-- What a step makes of an objective is the same entry. -/
theorem entry_same (h : History) (config : Config) (ho : w.db.queue.objectives.get? id = some o)
    (ho' : (w.step h config a).db.queue.objectives.get? id = some o') : SameEntry o o' := by
  obtain ⟨o'', ho'', hsame⟩ := step_keeps h config w a id o ho
  obtain rfl := Option.some.inj (ho'.symm.trans ho'')
  exact hsame

/-! ### The filters -/

/-- The condition of the list on a state selects the rows that are shown in this state. -/
theorem stateSql_iff {s : PublicState} {raw : ObjectiveStatus} {j : Option PlanId}
    {ps : Option PlanStatus} :
    stateSql s raw j ps = true ↔ (stateOf raw j ps).1 = s := by
  cases raw with
  | queued => cases j <;> cases s <;> simp [stateSql, stateOf]
  | running => by_cases hb : ps = some .blocked <;> cases s <;> simp [stateSql, stateOf, hb]
  | _ => cases s <;> simp [stateSql, stateOf]

/-! ### The lifecycle -/

/-- The ways in which an objective is seen to have ended. -/
def ended : List View := [(.succeeded, none), (.failed, none), (.cancelled, none)]

/-- What a reader may find after one step in the place of the first. -/
def next : View → List View
  | (.draft, _) => [(.draft, none), (.planning, none), (.paused, none), (.failed, none), (.cancelled, none)]
  | (.planned, _) => [(.planned, none), (.running, none), (.blocked, none), (.running, some .pause),
      (.paused, none), (.running, some .cancel)] ++ ended
  | (.planning, _) => [(.planning, none), (.draft, none), (.running, none), (.blocked, none),
      (.running, some .pause), (.running, some .cancel), (.failed, none)]
  | (.running, none) | (.blocked, _) => [(.running, none), (.blocked, none), (.running, some .pause),
      (.paused, none), (.running, some .cancel)] ++ ended
  | (.running, some .pause) => [(.running, some .pause), (.paused, none), (.running, some .cancel)] ++ ended
  | (.running, some .cancel) => [(.running, some .cancel), (.cancelled, none)]
  | (.paused, _) => [(.paused, none), (.draft, none), (.planned, none), (.blocked, none),
      (.running, some .cancel)] ++ ended
  | v => [v]

/-- A planner fails whose objective has left the planning and does not wait for it either. -/
def lateFailure (id : ObjectiveId) (a : Action) (w : World) : Bool :=
  match a with
  | .planner i (.failure _) =>
    match w.daemon.planners.get? i, w.db.queue.objectives.get? id with
    | some ⟨j, .failing _⟩, some o => j = id && o.status ∉ [.planning, .pauseRequested, .cancelRequested]
    | _, _ => false
  | _ => false

/-! ### One step -/

/-- A linked plan is there to be joined. -/
theorem objectiveView_eq (hI : AgreementInv w) (ho : w.db.queue.objectives.get? id = some o) :
    objectiveView w.db o = stateOf o.status o.planId (w.db.graph.planStatus o.planId) := by
  unfold objectiveView joinedPlan
  cases hp : o.planId with
  | none => rfl
  | some p => simp only [Option.filter, hI.linked id o p ho hp, if_true]

theorem stateOf_kept {raw : ObjectiveStatus} {j : Option PlanId} {s s' : Option PlanStatus} :
    stateOf raw j s' ∈ next (stateOf raw j s) := by
  cases raw with
  | queued => cases j <;> simp [stateOf, next]
  | running =>
    by_cases hs : s = some .blocked <;> by_cases hs' : s' = some .blocked <;> simp [stateOf, next, hs, hs']
  | _ => simp [stateOf, next]

theorem running_idle {g : Graph} {j : Option PlanId} (h : runningTaskCount g j ≠ 0) : j.isSome = true := by
  cases j with
  | none => exact absurd rfl h
  | some p => rfl

theorem stateOf_paused {raw : ObjectiveStatus} {g : Graph} {j : Option PlanId} {s s' : Option PlanStatus}
    (hcancel : raw ≠ .cancelRequested) (hend : raw.isTerminal = false) (hpaused : raw ≠ .paused) :
    stateOf (if raw = .planning ∨ runningTaskCount g j ≠ 0 then .pauseRequested else .paused) j s' ∈
      next (stateOf raw j s) := by
  cases raw with
  | queued =>
    by_cases hr : runningTaskCount g j = 0
    · cases j <;> simp [stateOf, next, hr]
    · simp [stateOf, next, hr, running_idle hr]
  | running =>
    by_cases hs : s = some .blocked <;> by_cases hr : runningTaskCount g j = 0 <;>
      simp [stateOf, next, hs, hr]
  | pauseRequested => by_cases hr : runningTaskCount g j = 0 <;> simp [stateOf, next, hr]
  | planning => simp [stateOf, next]
  | paused => exact absurd rfl hpaused
  | cancelRequested => exact absurd rfl hcancel
  | _ => cases hend

theorem stateOf_resumed {j : Option PlanId} {s t : Option PlanStatus} (hj : s ≠ none → j.isSome = true) :
    stateOf (resumedStatusForPlan s) j s ∈ next (stateOf .paused j t) := by
  cases s with
  | none => cases j <;> simp [stateOf, next, resumedStatusForPlan]
  | some x =>
    have hj := hj (by simp)
    cases x <;> simp [stateOf, next, resumedStatusForPlan, hj, ended]

theorem stateOf_cancelled {s s' : Option PlanStatus} (hend : o.status.isTerminal = false) :
    stateOf (cancelledStatus d o) o.planId s' ∈ next (stateOf o.status o.planId s) := by
  have hactive : activeRunCount d o.planId ≠ 0 → o.planId.isSome = true := by
    cases o.planId with
    | none => exact fun h => absurd rfl h
    | some p => exact fun _ => rfl
  unfold cancelledStatus
  split
  · rename_i h
    cases hs : o.status with
    | queued =>
      rw [hs] at h
      have hj : o.planId.isSome = true := by
        rcases h with h | h | h
        · cases h
        · exact running_idle h
        · exact hactive h
      simp [stateOf, next, hj]
    | running => by_cases hb : s = some .blocked <;> simp [stateOf, next, hb]
    | completed | failed | cancelled => rw [hs] at hend; cases hend
    | _ => simp [stateOf, next]
  · rename_i h
    cases hs : o.status with
    | queued => cases o.planId <;> simp [stateOf, next, ended]
    | planning => exact absurd (.inl hs) h
    | running => by_cases hb : s = some .blocked <;> simp [stateOf, next, hb, ended]
    | completed | failed | cancelled => rw [hs] at hend; cases hend
    | _ => simp [stateOf, next, ended]

/-- What the sweep makes of an objective that is not cancelled rests on its plan, unless it pauses. -/
theorem synchronized_cases {row : SweepRow} {st : ObjectiveStatus} {e : Option String}
    (h : synchronizedStatus d row = some (st, e)) :
    (row.objective.status = .cancelRequested ∧ st = .cancelled) ∨
      (row.objective.status = .pauseRequested ∧ st = .paused) ∨
      (row.objective.status ≠ .cancelRequested ∧ st.isTerminal = true ∧ row.planStatus ≠ none) := by
  simp only [synchronizedStatus] at h
  split at h
  · rename_i hc
    split at h
    · cases h
      exact .inl ⟨hc, rfl⟩
    · cases h
  · rename_i hc
    split at h
    · rename_i hp
      cases h
      exact .inr (.inl ⟨hp.1, rfl⟩)
    · split at h <;> cases h <;> rename_i hs <;> exact .inr (.inr ⟨hc, rfl, by rw [hs]; simp⟩)

/-- A plan is joined where an objective with one ends. -/
theorem stateOf_ended {raw st : ObjectiveStatus} {p : PlanId} {s s' : Option PlanStatus}
    (hend : raw.isTerminal = false) (hcancel : raw ≠ .cancelRequested) (hplanning : raw ≠ .planning)
    (hst : st.isTerminal = true) : stateOf st (some p) s' ∈ next (stateOf raw (some p) s) := by
  cases st with
  | completed | failed | cancelled =>
    cases raw with
    | planning => exact absurd rfl hplanning
    | cancelRequested => exact absurd rfl hcancel
    | running => by_cases hb : s = some .blocked <;> simp [stateOf, next, hb, ended]
    | completed | failed | cancelled => cases hend
    | _ => simp [stateOf, next, ended]
  | _ => cases hst

theorem stateOf_promoted {x : PlanStatus} {p : PlanId} {s s' : Option PlanStatus} :
    stateOf (promotedStatus x) (some p) s' ∈ next (stateOf .queued (some p) s) := by
  cases x with
  | completed | failed | cancelled => simp [stateOf, next, promotedStatus, ended]
  | _ => by_cases hs' : s' = some .blocked <;> simp [stateOf, next, promotedStatus, hs']

theorem planStatus_linked {g : Graph} {j : Option PlanId} (h : g.planStatus j ≠ none) :
    ∃ p, j = some p := by
  cases j with
  | none => exact absurd rfl h
  | some p => exact ⟨p, rfl⟩

/-- A move to the row shows as a transition of the list, when it takes no plan away from the objective. -/
theorem ObjectiveMove.view_next (hI : AgreementInv w) (ho : w.db.queue.objectives.get? id = some o)
    (hm : ObjectiveMove w id o a o') (hlate : lateFailure id a w = false) {s' : Option PlanStatus}
    (hresumed : a.isCommandOn id .resume = true → o'.planId = o.planId →
    s' = w.db.graph.planStatus o.planId)
    (hlinked : ∀ p i s now, a = .objective (.attachPlan p i s now) → o.planId = some p → o' = o) :
    stateOf o'.status o'.planId s' ∈ next (stateOf o.status o.planId (w.db.graph.planStatus o.planId)) := by
  have hplanning : o.status = .planning → o.planId = none := hI.planners.planning id o ho
  cases hm with
  | kept h hc =>
    rw [h, hc.plan]
    exact stateOf_kept
  | unlinked _ _ _ hp hn =>
    rw [hlinked _ _ _ _ rfl hp, hp] at hn
    cases hn
  | paused _ hc hcancel hend hpaused h =>
    rw [h, hc.plan]
    exact stateOf_paused hcancel hend hpaused
  | resumed ha hc hpaused _ h =>
    rw [h, hc.plan, hpaused, hresumed ha hc.plan]
    refine stateOf_resumed fun hs => ?_
    obtain ⟨p, hp⟩ := planStatus_linked hs
    rw [hp]
    rfl
  | cancelled _ hc hend _ h =>
    rw [h, hc.plan]
    exact stateOf_cancelled hend
  | swept hc hend h =>
    rw [hc.plan]
    rcases synchronized_cases h with ⟨hs, h⟩ | ⟨hs, h⟩ | ⟨hs, h, hplan⟩
    · change o.status = _ at hs
      rw [hs, h]
      simp [stateOf, next]
    · change o.status = _ at hs
      rw [hs, h]
      simp [stateOf, next]
    · obtain ⟨p, hp⟩ := planStatus_linked hplan
      change o.planId = _ at hp
      rw [hp]
      refine stateOf_ended hend hs (fun hs => ?_) h
      rw [hplanning hs] at hp
      cases hp
  | promoted hc hq hp _ h =>
    rw [h, hc.plan, hq, hp]
    exact stateOf_promoted
  | exhausted hc hq hp h =>
    rw [h, hc.plan, hq, hp]
    simp [stateOf, next]
  | reserved hq hp hn _ h =>
    rw [h, hn, hq, hp]
    simp [stateOf, next]
  | planned _ hst hp =>
    rw [hp]
    cases hs : o.status with
    | planning =>
      rw [hs] at hst
      obtain h := Option.some.inj hst
      rw [← h, hplanning hs]
      by_cases hs' : s' = some .blocked <;> simp [stateOf, next, hs']
    | pauseRequested | cancelRequested =>
      rw [hs] at hst
      obtain h := Option.some.inj hst
      rw [← h]
      simp [stateOf, next]
    | _ =>
      rw [hs] at hst
      cases hst
  | failed hpl hc h =>
    -- the failure comes in time, and the objective has no plan yet
    rw [h, hc.plan, hI.planners.unplanned _ _ hpl o ho]
    have hintime : o.status ∈ [.planning, .pauseRequested, .cancelRequested] := by
      simpa only [lateFailure, hpl, ho, decide_true, Bool.true_and, decide_eq_false_iff_not,
        not_not] using hlate
    unfold Objective.statusAfterPlanningFailure
    simp only [List.mem_cons, List.not_mem_nil, or_false] at hintime
    rcases hintime with hs | hs | hs
    · rw [hs]
      by_cases hc : o.planningAttemptCount < o.planningMaxAttempts <;> simp [stateOf, next, hc]
    · rw [hs]
      simp [stateOf, next]
    · rw [hs]
      simp [stateOf, next]
  | restarted _ hc hs h =>
    rw [h, hc.plan, hplanning hs, hs]
    unfold Objective.statusAfterRestart
    by_cases hc : o.planningAttemptCount < o.planningMaxAttempts <;> simp [stateOf, next, hc]

section Runs

variable {h : History} {config : Config} {p : PlanId} {v : View}

/-! ### Submissions of plans -/

/-- A new objective with a plan is the submission's. -/
theorem attached (hn : w.db.queue.objectives.get? id = none)
    (ho : (w.step h config a).db.queue.objectives.get? id = some o) (hp : o.planId = some p) :
    ∃ s now, a = .objective (.attachPlan p id s now) := by
  by_cases ha : a.isSubmission = false
  · rw [objective_none h config w ha hn] at ho
    cases ho
  · unfold Action.isSubmission at ha
    split at ha
    · rename_i i s now
      simp only [World.step, World.objectiveStep] at ho
      split at ho
      · rw [hn] at ho
        cases ho
      · rename_i hs
        rw [not_not] at hs
        cases hi : insertObjective w.db i s now with
        | error e =>
          simp only [hi, hn] at ho
          cases ho
        | ok q =>
          simp only [hi, World.setQueue_db, Table.get?_insert (insertObjective_ok hi).1, hn] at ho
          split at ho
          · cases ho
            exact absurd (hp.symm.trans hs.2.2) (by simp)
          · cases ho
    · rename_i q i s now
      simp only [World.step, World.objectiveStep] at ho
      split at ho
      · rw [hn] at ho
        cases ho
      · cases hi : insertObjective w.db i { s with planId := some q } now with
        | error e =>
          simp only [World.db] at hi ho hn
          simp [hi, World.setDb, deletePlan, hn] at ho
        | ok queue =>
          have hget := Table.get?_insert (insertObjective_ok hi).1 id
          simp only [World.db] at hi ho
          simp only [hi] at ho
          simp only [World.setQueue, World.setDb, hget, hn] at ho
          split at ho
          · rename_i hid
            cases ho
            obtain rfl : q = p := Option.some.inj hp
            exact ⟨s, now, by rw [hid]⟩
          · cases ho
    · exact absurd rfl ha

/-- The plans of submissions in flight, and those that planners have generated, are linked to no
    objective. -/
structure SubmissionsInv (w : World) : Prop where
  nodup : w.submissions.Nodup
  known : ∀ p ∈ w.submissions, (w.db.graph.plans.get? p).isSome
  drawn : ∀ p, w.awaitsHandover p = true → (w.db.graph.plans.get? p).isSome
  apart : ∀ p, w.awaitsHandover p = true → p ∉ w.submissions
  unlinked : ∀ p ∈ w.submissions, ∀ id o, w.db.queue.objectives.get? id = some o → o.planId ≠ some p

/-- A submission after a step was in flight and is not the step's, or has just drawn its plan. -/
theorem SubmissionsInv.origin (hS : SubmissionsInv w) (hp : p ∈ (w.step h config a).submissions) :
    (p ∈ w.submissions ∧ ∀ i s now, a ≠ .objective (.attachPlan p i s now)) ∨
      (w.db.graph.plans.get? p = none ∧ ((w.step h config a).db.graph.plans.get? p).isSome) := by
  cases submissions_after h config w a with
  | same hs ha =>
    rw [hs] at hp
    exact .inl ⟨hp, fun i s now h => ha p i s now h hp⟩
  | opened hs hd _ ha =>
    rw [hs] at hp
    rcases List.mem_cons.1 hp with rfl | hp
    · obtain ⟨x, hx, -⟩ := hd.new
      exact .inr ⟨hd.plan, Option.isSome_of_mem hx⟩
    · exact .inl ⟨hp, fun i s now => ha p i s now⟩
  | closed hs ha =>
    rw [hs, hS.nodup.mem_erase_iff] at hp
    exact .inl ⟨hp.2, fun i s now h => hp.1 (ha p i s now h)⟩

theorem SubmissionsInv.step (hS : SubmissionsInv w) (hI : AgreementInv w) :
    SubmissionsInv (w.step h config a) := by
  have stays : ∀ {p}, (w.db.graph.plans.get? p).isSome →
    (∀ i s now, a ≠ .objective (.attachPlan p i s now)) →
      ((w.step h config a).db.graph.plans.get? p).isSome := by
    intro p hsome ha
    obtain ⟨x, hx⟩ := Option.isSome_iff_exists.1 hsome
    rcases (graph_step h config w a).plan_lost hx with ⟨x', hx', -⟩ | ⟨-, i, s, now, ha'⟩
    · exact Option.isSome_of_mem hx'
    · exact absurd ha' (ha i s now)
  have absent : ∀ {p}, w.db.graph.plans.get? p = none → ¬(w.db.graph.plans.get? p).isSome := by
    intro p hn hsome
    rw [hn] at hsome
    cases hsome
  refine ⟨?_, fun p hp => ?_, fun p hp => ?_, fun p hp hs => ?_, fun p hs id o ho hop => ?_⟩
  · cases submissions_after h config w a with
    | same hs => exact hs ▸ hS.nodup
    | opened hs hd =>
      rw [hs]
      exact List.nodup_cons.2 ⟨fun hq => absent hd.plan (hS.known _ hq), hS.nodup⟩
    | closed hs => exact hs ▸ hS.nodup.erase _
  · rcases hS.origin hp with ⟨hp, ha⟩ | ⟨-, hsome⟩
    · exact stays (hS.known p hp) ha
    · exact hsome
  · rcases handover_origin hI.planners hp with ⟨hold, -⟩ | ⟨-, -, -, x, hx, -⟩
    · obtain ⟨x, hx⟩ := Option.isSome_iff_exists.1 (hS.drawn p hold)
      rcases (graph_step h config w a).plan_lost hx with ⟨x', hx', -⟩ | ⟨hs, -⟩
      · exact Option.isSome_of_mem hx'
      · exact absurd hs (hS.apart p hold)
    · exact Option.isSome_of_mem hx
  · rcases handover_origin hI.planners hp with ⟨hold, -⟩ | ⟨hd, hsub, -⟩
    · rcases hS.origin hs with ⟨hs, -⟩ | ⟨hn, -⟩
      · exact hS.apart p hold hs
      · exact absent hn (hS.drawn p hold)
    · exact absent hd.plan (hS.known p (hsub ▸ hs))
  · cases hold : w.db.queue.objectives.get? id with
    | none =>
      obtain ⟨s, now, rfl⟩ := attached hold ho hop
      obtain ⟨_, _, rfl, hsub⟩ := objective_new h config w _ hold ho
      rcases hS.origin hs with ⟨-, ha⟩ | ⟨hn, -⟩
      · exact ha id s now rfl
      · exact absent hn (hS.known p (hsub p hop).1)
    | some o₀ =>
      obtain ⟨o', ho', hm⟩ := objective_move h config w a hold
      obtain rfl : o = o' := Option.some.inj (ho.symm.trans ho')
      rcases hS.origin hs with ⟨hs, -⟩ | ⟨hn, -⟩
      · rcases hm.plan_cases hop with hop | ⟨-, i, now, -, hi, -⟩
        · exact hS.unlinked p hs id o₀ hold hop
        · exact hS.apart p (World.awaitsHandover_iff.2 ⟨i, _, hi, rfl⟩) hs
      · rcases hm.plan_cases hop with hop | ⟨hsome, -⟩
        · exact absent hn (hI.linked id o₀ p hold hop)
        · exact absent hn hsome

theorem submissionsInv_reachable (hw : (machine h config).Reachable (fun _ _ => True) w) :
    SubmissionsInv w := by
  induction hw with
  | start hs =>
    obtain ⟨projects, -, rfl⟩ := hs
    exact ⟨List.nodup_nil, fun _ hp => (by cases hp), fun p hp => (by cases hp), fun p hp => (by cases hp),
      fun _ hp => (by cases hp)⟩
  | step a hw _ ih => exact ih.step (agreementInv_reachable hw)

/-! ### Runs -/

theorem resumed_graph (ha : a.isCommandOn id .resume = true) :
    (w.step h config a).db.graph = w.db.graph := by
  have applied : ∀ now, (w.objectiveStep config (.cli id .resume now)).db.graph = w.db.graph := by
    intro now
    rw [World.objectiveStep_cli]
    cases hc : ObjectiveCommand.apply w.db id now .resume with
    | error e => rfl
    | ok qg =>
      rcases ObjectiveCommand.apply_ok hc with ⟨hpause, -⟩ | ⟨-, -, hg⟩ | ⟨hcancel, -⟩
      · cases hpause
      · exact hg
      · cases hcancel
  unfold Action.isCommandOn at ha
  split at ha
  · obtain ⟨rfl, rfl⟩ := of_decide_eq_true ha
    exact applied _
  · obtain ⟨rfl, rfl⟩ := of_decide_eq_true ha
    rw [World.step, World.objectiveStep_controller]
    exact applied _
  · cases ha

theorem view_some : view d id = some v ↔
    ∃ o, d.queue.objectives.get? id = some o ∧ readable o = true ∧ objectiveView d o = v := by
  simp only [view, Option.map_eq_some_iff, Option.filter_eq_some_iff, and_assoc]

/-- A step keeps an objective in sight, and what is seen of it moves along the list. -/
theorem view_step (hw : (machine h config).Reachable (fun _ _ => True) w) (hv : view w.db id = some v)
    (hlate : lateFailure id a w = false) : ∃ v' ∈ next v, view (w.step h config a).db id = some v' := by
  have hI := agreementInv_reachable hw
  obtain ⟨o, ho, hread, rfl⟩ := view_some.1 hv
  obtain ⟨o', ho', hm⟩ := objective_move h config w a ho
  have hread' : readable o' = true := (entry_same h config ho ho').readable.trans hread
  refine ⟨_, ?_, view_some.2 ⟨o', ho', hread', objectiveView_eq (hI.step h config a) ho'⟩⟩
  rw [objectiveView_eq hI ho]
  refine ObjectiveMove.view_next hI ho hm hlate (fun ha hplan => ?_) fun p i s now ha hp => ?_
  · rw [resumed_graph ha, hplan]
  · subst ha
    have hfree : p ∉ w.submissions := fun hmem => (submissionsInv_reachable hw).unlinked p hmem id o ho hp
    simp only [World.step, World.objectiveStep, if_pos hfree, ho, Option.some.injEq] at ho'
    exact ho'.symm

/-- The views of a run. -/
theorem view_run {as : List Action} (hw : (machine h config).Reachable (fun _ _ => True) w)
    (hv : view w.db id = some v)
    (hlate : (machine h config).Along (fun a w => lateFailure id a w = false) w as) :
    ∃ v', view ((machine h config).run w as).db id = some v' ∧
      Relation.ReflTransGen (fun v v' => v' ∈ next v) v v' := by
  induction as generalizing w v with
  | nil => exact ⟨v, hv, .refl⟩
  | cons a as ih =>
    obtain ⟨v₁, hnext, hv₁⟩ := view_step hw hv hlate.1
    obtain ⟨v', hv', hrest⟩ := ih (.step a hw trivial) hv₁ hlate.2
    exact ⟨v', hv', .head hnext hrest⟩

/-- What has ended has only itself next. -/
theorem ended_next {v v' : View} (hv : v ∈ ended)
    (h : Relation.ReflTransGen (fun v v' => v' ∈ next v) v v') :
    v' = v := by
  induction h with
  | refl => rfl
  | tail _ hnext ih =>
    subst ih
    simp only [ended, List.mem_cons, List.not_mem_nil, or_false] at hv
    rcases hv with rfl | rfl | rfl <;> simpa [next] using hnext

/-- A requested cancellation can only be carried out. -/
theorem cancelling_next {v' : View}
    (h : Relation.ReflTransGen (fun v v' => v' ∈ next v) (.running, some .cancel) v') :
    v' = (.running, some .cancel) ∨ v' = (.cancelled, none) := by
  induction h with
  | refl => exact .inl rfl
  | tail _ hnext ih =>
    rcases ih with rfl | rfl
    · simpa [next] using hnext
    · exact .inr (by simpa [next] using hnext)

/-- A late failure does not look at what has become of the objective. -/
theorem view_late (hw : (machine h config).Reachable (fun _ _ => True) w)
    (ho : w.db.queue.objectives.get? id = some o) (hread : readable o = true)
    (hlate : lateFailure id a w = true) : view (w.step h config a).db id =
      some (if o.planningAttemptCount < o.planningMaxAttempts then (.draft, none)
        else (.failed, none)) := by
  have hI := agreementInv_reachable hw
  unfold lateFailure at hlate
  split at hlate
  · rename_i i now
    split at hlate
    · rename_i j e o₁ hpl ho₁
      obtain rfl : o = o₁ := Option.some.inj (ho.symm.trans ho₁)
      simp only [Bool.and_eq_true, decide_eq_true_eq, List.mem_cons, List.not_mem_nil, or_false,
        not_or] at hlate
      obtain ⟨rfl, -, hpause, hcancel⟩ := hlate
      obtain ⟨due, heq⟩ := finishObjectivePlanningFailure_eq ho i e config.planningRetryBackoffSeconds now
      have ho' : (w.step h config (.planner i (.failure now))).db.queue.objectives.get? j =
          some (o.planningFailed o.statusAfterPlanningFailure due e now) := by
        simp only [World.step, hpl, World.plannerStep, World.endPlanner_db, World.setQueue_db, heq,
          Table.get?_updateAt, if_true, ho, Option.map_some]
      have hread' := (entry_same h config ho ho').readable.trans hread
      rw [view_some.2 ⟨_, ho', hread', rfl⟩, objectiveView_eq (hI.step h config _) ho']
      change some (stateOf o.statusAfterPlanningFailure o.planId _) = _
      rw [hI.planners.unplanned _ _ hpl o ho, Objective.statusAfterPlanningFailure, if_neg hcancel,
        if_neg hpause]
      by_cases hc : o.planningAttemptCount < o.planningMaxAttempts <;> simp [stateOf, hc]
    · cases hlate
  · cases hlate

/-- The rows of the list are those that the filters ask for, as they are seen. -/
theorem mem_selected {f : Filters} : (id, o) ∈ selected d f ↔ d.queue.objectives.get? id = some o ∧
    (∀ p, f.projectId = some p → p ∈ o.projectScope) ∧
      ∀ s, f.state = some s → (objectiveView d o).1 = s := by
  rw [selected, Table.mem_select]
  refine and_congr_right fun _ => ?_
  simp only [Filters.selects, Bool.and_eq_true, Option.all_eq_true, decide_eq_true_eq, stateSql_iff]
  rfl

theorem mem_listed {n : Names} {known : ProjectId → Bool} {limit : Nat} {cursor : Option Cursor}
    {f : Filters}
    {items : List Item} {following : Option Cursor} {item : Item}
    (h : listObjectives d n known limit cursor f = .ok (items, following)) (hitem : item ∈ items) :
    (item.objectiveId, item.objective) ∈ selected d f ∧ readable item.objective = true ∧
      item.view = objectiveView d item.objective := by
  unfold listObjectives at h
  split at h
  · cases h
  · split at h
    · cases h
    · split at h
      · cases h
      · dsimp only at h
        split at h
        · rename_i hread
          cases h
          obtain ⟨x, hx, rfl⟩ := List.mem_map.1 hitem
          exact ⟨(Pagination.mem_page hx).1, List.all_eq_true.1 hread x hx, rfl⟩
        · cases h

/-- Every reader's view moves along the list until a planner fails late, and every page shows it. -/
theorem views_kept (hw : (machine h config).Reachable (fun _ _ => True) w) (id : ObjectiveId) :
    (∀ a v, view w.db id = none → view (w.step h config a).db id = some v →
      v ∈ [(.draft, none), (.planned, none)]) ∧
    (∀ v as, view w.db id = some v → (machine h config).Along (fun a w => lateFailure id a w = false) w as →
      ∃ v', view ((machine h config).run w as).db id = some v' ∧
        Relation.ReflTransGen (fun v v' => v' ∈ next v) v v' ∧ (v ∈ ended → v' = v) ∧
        (v = (.running, some .cancel) → v' = v ∨ v' = (.cancelled, none))) ∧
    (∀ a o, w.db.queue.objectives.get? id = some o → readable o = true → lateFailure id a w = true →
      view (w.step h config a).db id =
        some (if o.planningAttemptCount < o.planningMaxAttempts then (.draft, none) else (.failed, none))) ∧
    ∀ n known limit cursor f items following,
      listObjectives w.db n known limit cursor f = .ok (items, following) →
      ∀ item ∈ items, view w.db item.objectiveId = some item.view ∧
        ∀ s, f.state = some s → item.view.1 = s := by
  refine ⟨fun a v hv hv' => ?_, fun v as hv hlate => ?_, fun a o ho => view_late hw ho,
    fun n known limit cursor f items following hlist item hitem => ?_⟩
  · obtain ⟨o', ho', hread, rfl⟩ := view_some.1 hv'
    have hnone : w.db.queue.objectives.get? id = none := by
      cases ho : w.db.queue.objectives.get? id with
      | none => rfl
      | some o =>
        -- a row that is not read stays one
        have hread' := (entry_same h config ho ho').readable.symm.trans hread
        rw [view_some.2 ⟨o, ho, hread', rfl⟩] at hv
        cases hv
    obtain ⟨s, now, rfl, -⟩ := objective_new h config w a hnone ho'
    rw [objectiveView_eq ((agreementInv_reachable hw).step h config a) ho']
    cases hp : (Submission.row s now).planId <;> simp [stateOf, Submission.row]
  · obtain ⟨v', hv', hrun⟩ := view_run hw hv hlate
    refine ⟨v', hv', hrun, fun hend => ended_next hend hrun, fun hcancel => ?_⟩
    subst hcancel
    exact cancelling_next hrun
  · obtain ⟨hmem, hread, hview⟩ := mem_listed hlist hitem
    obtain ⟨ho, -, hstate⟩ := mem_selected.1 hmem
    refine ⟨view_some.2 ⟨_, ho, hread, hview.symm⟩, fun s hs => ?_⟩
    rw [hview]
    exact hstate s hs

end Runs

/-! ### A run -/

/-- An objective is cancelled while its planner is at work. -/
def sampleRun : List Action :=
  [.objective (.submit 0 Scenario.submission 1), .objective (.reserve 0 0 2), .objective (.cli 0 .cancel 3),
    .objective (.synchronize 4), .planner 0 (.raise "planner failed")]

def sampleWorld : World := Scenario.system.run Scenario.start sampleRun

theorem sampleWorld_reachable : Scenario.system.Reachable (fun _ _ => True) sampleWorld :=
  .run (.start Scenario.system_start) (by simp [sampleRun, Machine.Along])

/-- The planner's failure makes a draft of the objective that was seen as cancelled. -/
theorem sampleWorld_views : view sampleWorld.db 0 = some (.cancelled, none) ∧
    view (sampleWorld.step Scenario.history Scenario.config (.planner 0 (.failure 5))).db 0 =
      some (.draft, none) ∧
    ∀ as, Scenario.system.Along (fun a w => lateFailure 0 a w = false) sampleWorld as →
      view (Scenario.system.run sampleWorld as).db 0 = some (.cancelled, none) := by
  obtain ⟨-, hruns, -, -⟩ := views_kept sampleWorld_reachable 0
  have hview : view sampleWorld.db 0 = some (.cancelled, none) := by decide
  refine ⟨hview, by decide, fun as has => ?_⟩
  obtain ⟨v', hv', -, hend, -⟩ := hruns _ as hview has
  rw [hv', hend (by decide)]

end HermesOps.ObjectiveReads
