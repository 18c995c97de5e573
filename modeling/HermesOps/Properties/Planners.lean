import HermesOps.Properties.ObjectiveMoves

/-! The planner threads. At most one is out at a time, the objective it works on has no plan, and
    neither has any objective in `PLANNING`; so a handler that carries the plan of a planned
    objective over carries none. -/

namespace HermesOps

open Schemes

variable {w : World} {a : Action}

/-- A planner of the next world was there before, on the same objective and with the queue left as
    it was by its own actions, or has just been reserved. -/
inductive PlannerOrigin (w w' : World) (a : Action) (i : ObjectiveAttemptId) (p' : Planner) : Prop
  | kept {p} : w.daemon.planners.get? i = some p → p.objectiveId = p'.objectiveId →
    (∀ act, a = .planner i act → w'.db.queue = w.db.queue) →
    (p = p' ∨ ∀ q, p'.stage = .generated q →
      ∃ n first now, a = .planner i (.insert n q first now) ∧
        ∃ g, w.drawPlan n q first .ai false now = some g ∧ w'.db.graph = g) →
    PlannerOrigin w w' a i p'
  | reserved {id now} : a = .objective (.reserve id i now) → p' = ⟨id, .generating⟩ →
    w.daemon.planners.rows = [] →
    (∃ o, w'.db.queue.objectives.get? id = some o ∧ o.planId = none) → PlannerOrigin w w' a i p'

theorem planner_origin (h : History) (config : Config) (w : World) (a : Action)
    {i : ObjectiveAttemptId} {p' : Planner}
    (hp : (w.step h config a).daemon.planners.get? i = some p') :
    PlannerOrigin w (w.step h config a) a i p' := by
  have keep : (∀ act, a ≠ .planner i act) →
      (w.step h config a).daemon.planners = w.daemon.planners →
      PlannerOrigin w (w.step h config a) a i p' := fun hne heq =>
    .kept (heq ▸ hp) rfl (fun act ha => absurd ha (hne act)) (.inl rfl)
  by_cases hq : a.isQueueAction = false
  · rcases World.step_planners h config w hq with he | he
    · exact keep (fun act ha => by subst ha; cases hq) he
    · rw [he] at hp; cases hp
  cases a with
  | objective a =>
    cases a with
    | reserve id k now =>
      simp only [World.step, World.objectiveStep] at hp ⊢
      split at hp
      · exact .kept hp rfl (fun _ ha => by cases ha) (.inl rfl)
      · rename_i hrows
        rw [ne_eq, not_not] at hrows
        split at hp
        · exact .kept hp rfl (fun _ ha => by cases ha) (.inl rfl)
        · exact .kept hp rfl (fun _ ha => by cases ha) (.inl rfl)
        · exact .kept hp rfl (fun _ ha => by cases ha) (.inl rfl)
        · rename_i q row hr
          obtain ⟨hrow, hqueued, hplan, -, -, hobj, -⟩ := reserveAiObjective_reserved hr
          cases hins : w.daemon.planners.insert k ⟨id, .generating⟩ with
          | none => simp only [hins] at hp; exact .kept hp rfl (fun _ ha => by cases ha) (.inl rfl)
          | some planners =>
            simp only [hins, Table.get?_insert hins] at hp
            split at hp
            · rename_i hik
              subst hik
              cases hp
              refine .reserved rfl rfl hrows ⟨row.reserved (row.planningAttemptCount + 1) now, ?_, ?_⟩
              · rw [if_neg (not_not.2 hrows)]
                change q.objectives.get? id = _
                rw [hobj, Table.get?_update, hrow]
                simp [hqueued]
              · simp [Objective.reserved, hplan]
            · exact .kept hp rfl (fun _ ha => by cases ha) (.inl rfl)
    | attachPlan q k s now =>
      refine keep (fun _ ha => by cases ha) ?_
      simp only [World.step, World.objectiveStep]
      split
      · rfl
      · cases hi : insertObjective w.db k { s with planId := some q } now <;>
          simp only [World.db] at hi ⊢ <;> simp only [hi] <;> rfl
    | _ =>
      refine keep (fun _ ha => by cases ha) ?_
      simp only [World.step, World.objectiveStep]
      repeat' split
      all_goals rfl
  | planner k act =>
    simp only [World.step] at hp ⊢
    cases hk : w.daemon.planners.get? k with
    | none => simp only [hk] at hp ⊢; exact .kept hp rfl (fun _ _ => rfl) (.inl rfl)
    | some planner =>
      simp only [hk] at hp ⊢
      -- the planner's own stage moved, and the queue did not
      have moved : ∀ {w' : World} {stage}, w'.daemon = (w.setPlanner k stage).daemon →
          w'.db.queue = w.db.queue → w'.daemon.planners.get? i = some p' →
          (∀ q, stage = .generated q → ∃ n first now, act = .insert n q first now ∧
            ∃ g, w.drawPlan n q first .ai false now = some g ∧ w'.db.graph = g) →
          PlannerOrigin w w' (.planner k act) i p' := by
        intro w' stage hd hqueue hget hgen
        rw [hd] at hget
        simp only [World.setPlanner, Table.get?_updateAt] at hget
        split at hget
        · rename_i hik
          subst hik
          rw [hk] at hget
          cases hget
          refine .kept hk rfl (fun _ _ => hqueue) (.inr fun q hq => ?_)
          obtain ⟨n, first, now, rfl, hg⟩ := hgen q hq
          exact ⟨n, first, now, rfl, hg⟩
        · exact .kept hget rfl (fun _ _ => hqueue) (.inl rfl)
      have quiet : w.daemon.planners.get? i = some p' → PlannerOrigin w w (.planner k act) i p' :=
        fun hget => .kept hget rfl (fun _ _ => rfl) (.inl rfl)
      -- the planner that ends is not in the table any more
      have ended : ∀ {w' : World}, (w'.endPlanner k).daemon.planners.get? i = some p' →
          w'.daemon = w.daemon → PlannerOrigin w (w'.endPlanner k) (.planner k act) i p' := by
        intro w' hget hd
        simp only [World.endPlanner, Table.get?_delete, Option.filter_eq_some_iff, hd] at hget
        refine .kept hget.1 rfl (fun _ ha => ?_) (.inl rfl)
        cases ha; simp at hget
      obtain ⟨oid, stage⟩ := planner
      cases act with
      | insert n q first now =>
        cases stage with
        | generating =>
          simp only [World.plannerStep] at hp ⊢
          cases hg : w.drawPlan n q first .ai false now with
          | none =>
            simp only [hg] at hp ⊢
            exact moved rfl rfl hp fun _ h => by cases h
          | some g =>
            simp only [hg] at hp ⊢
            refine moved rfl rfl hp fun q' hq' => ?_
            cases hq'
            exact ⟨n, first, now, rfl, g, hg, rfl⟩
        | _ => exact quiet hp
      | raise e =>
        cases stage with
        | failing e' => exact quiet hp
        | _ => exact moved rfl rfl hp fun _ h => by cases h
      | success now =>
        cases stage with
        | generated q =>
          simp only [World.plannerStep] at hp ⊢
          cases hs : finishObjectivePlanningSuccess w.db oid k q now with
          | error e =>
            simp only [hs] at hp ⊢
            exact moved rfl rfl hp fun _ h => by cases h
          | ok qg => simp only [hs] at hp ⊢; exact ended hp rfl
        | _ => exact quiet hp
      | failure now =>
        cases stage with
        | failing e => exact ended hp rfl
        | _ => exact quiet hp
  | _ => simp [Action.isQueueAction] at hq

/-! ### The invariant -/

/-- What holds of the planners and of the objectives in planning. -/
structure PlannerInv (w : World) : Prop where
  known : ∀ i p, w.daemon.planners.get? i = some p →
    (w.db.queue.objectives.get? p.objectiveId).isSome
  unplanned : ∀ i p, w.daemon.planners.get? i = some p → ∀ o,
    w.db.queue.objectives.get? p.objectiveId = some o → o.planId = none
  planning : ∀ id o, w.db.queue.objectives.get? id = some o → o.status = .planning →
    o.planId = none
  single : ∀ i j p q, w.daemon.planners.get? i = some p → w.daemon.planners.get? j = some q → i = j

/-- A step gives an objective a plan only at the end of its planner. -/
theorem ObjectiveMove.unplanned {id : ObjectiveId} {o o' : Objective}
    (hm : ObjectiveMove w id o a o') (hp : o.planId = none) :
    o'.planId = none ∨ ∃ i p now, a = .planner i (.success now) ∧
      w.daemon.planners.get? i = some ⟨id, .generated p⟩ ∧ plannedStatus o.status = some o'.status := by
  cases hm with
  | kept _ h => exact .inl (h.plan.trans hp)
  | unlinked _ _ _ _ h => exact .inl h
  | paused _ h => exact .inl (h.plan.trans hp)
  | resumed _ h => exact .inl (h.plan.trans hp)
  | cancelled _ h => exact .inl (h.plan.trans hp)
  | swept h => exact .inl (h.plan.trans hp)
  | promoted h => exact .inl (h.plan.trans hp)
  | exhausted h => exact .inl (h.plan.trans hp)
  | reserved _ _ h => exact .inl h
  | planned hpl hst => exact .inr ⟨_, _, _, rfl, hpl, hst⟩
  | failed _ h => exact .inl (h.plan.trans hp)
  | restarted _ h => exact .inl (h.plan.trans hp)

theorem plannedStatus_ne_planning {s s' : ObjectiveStatus} (h : plannedStatus s = some s') :
    s' ≠ .planning := by
  cases s <;> simp [plannedStatus] at h <;> subst h <;> simp

theorem synchronizedStatus_ne_planning {d : Database} {row : SweepRow} {s : ObjectiveStatus}
    {e : Option String} (h : synchronizedStatus d row = some (s, e)) : s ≠ .planning := by
  simp only [synchronizedStatus] at h
  split at h
  · split at h
    · cases h; simp
    · cases h
  · split at h
    · cases h; simp
    · split at h <;> first | (cases h; simp) | cases h

/-- A step that leaves an objective in planning leaves it without a plan. -/
theorem ObjectiveMove.planning {id : ObjectiveId} {o o' : Objective}
    (hm : ObjectiveMove w id o a o') (ho : o.status = .planning → o.planId = none)
    (hs : o'.status = .planning) : o'.planId = none := by
  cases hm with
  | kept h hc => rw [hc.plan]; exact ho (h ▸ hs)
  | unlinked _ _ _ _ h => exact h
  | paused _ _ _ _ _ h => rw [hs] at h; split at h <;> cases h
  | resumed _ _ _ _ h =>
    rw [hs] at h
    cases hp : w.db.graph.planStatus o.planId with
    | none => rw [hp] at h; cases h
    | some s => rw [hp] at h; cases s <;> cases h
  | cancelled _ _ _ _ h => rw [hs, cancelledStatus] at h; split at h <;> cases h
  | swept _ _ h => exact absurd hs (synchronizedStatus_ne_planning h)
  | @promoted _ _ plan _ _ _ _ _ h =>
    rw [hs] at h
    cases hp : plan.status <;> rw [hp] at h <;> cases h
  | exhausted _ _ _ h => rw [hs] at h; cases h
  | reserved _ _ h => exact h
  | planned _ h => exact absurd hs (plannedStatus_ne_planning h)
  | failed _ _ h =>
    rw [hs, Objective.statusAfterPlanningFailure] at h
    split at h
    · cases h
    · split at h
      · cases h
      · split at h <;> cases h
  | restarted _ _ _ h => rw [hs, Objective.statusAfterRestart] at h; split at h <;> cases h

theorem PlannerInv.step (h : History) (config : Config) (hI : PlannerInv w) (a : Action) :
    PlannerInv (w.step h config a) := by
  have horigin : ∀ {i p'}, (w.step h config a).daemon.planners.get? i = some p' →
      PlannerOrigin w (w.step h config a) a i p' := planner_origin h config w a
  refine ⟨fun i p' hp => ?_, fun i p' hp o' ho' => ?_, fun id o' ho' hs => ?_,
    fun i j p q hp hq => ?_⟩
  · cases horigin hp with
    | reserved _ hp' _ hnew =>
      obtain ⟨o, ho, -⟩ := hnew
      subst hp'
      exact Option.isSome_of_mem ho
    | @kept p₀ hp₀ hid _ =>
      obtain ⟨o, ho⟩ := Option.isSome_iff_exists.1 (hI.known i p₀ hp₀)
      obtain ⟨o', ho', -⟩ := objective_move h config w a ho
      rw [← hid]
      exact Option.isSome_of_mem ho'
  · cases horigin hp with
    | reserved _ hp' _ hnew =>
      obtain ⟨o, ho, hplan⟩ := hnew
      subst hp'
      rw [ho'] at ho; cases ho; exact hplan
    | @kept p₀ hp₀ hid hqueue =>
      cases hold : w.db.queue.objectives.get? p'.objectiveId with
      | none =>
        have hknown := hI.known i p₀ hp₀
        rw [hid, hold] at hknown
        cases hknown
      | some o =>
        have hnone := hI.unplanned i p₀ hp₀ o (by rw [hid]; exact hold)
        obtain ⟨o'', ho'', hm⟩ := objective_move h config w a hold
        obtain rfl : o' = o'' := by rw [ho'] at ho''; simpa using ho''
        rcases hm.unplanned hnone with hn | ⟨k, q, now, ha, hk, -⟩
        · exact hn
        · obtain rfl := hI.single i k _ _ hp₀ hk
          rw [hqueue _ ha, hold] at ho'
          cases ho'; exact hnone
  · cases hold : w.db.queue.objectives.get? id with
    | none => obtain ⟨s, now, rfl, -⟩ := objective_new h config w a hold ho'; cases hs
    | some o =>
      obtain ⟨o'', ho'', hm⟩ := objective_move h config w a hold
      obtain rfl : o' = o'' := by rw [ho'] at ho''; simpa using ho''
      exact hm.planning (hI.planning id o hold) hs
  · have old : ∀ {i p}, PlannerOrigin w (w.step h config a) a i p →
        (∃ p₀, w.daemon.planners.get? i = some p₀) ∨
          ((∃ id now, a = .objective (.reserve id i now)) ∧ w.daemon.planners.rows = []) := by
      intro i p ho
      cases ho with
      | kept hp => exact .inl ⟨_, hp⟩
      | reserved ha _ hrows => exact .inr ⟨⟨_, _, ha⟩, hrows⟩
    have empty : ∀ {i p}, w.daemon.planners.get? i = some p → w.daemon.planners.rows ≠ [] := by
      intro i p hp hrows
      rw [← Table.mem_rows_iff, hrows] at hp; cases hp
    rcases old (horigin hp) with ⟨p₀, hp₀⟩ | ⟨⟨_, _, ha⟩, hrows⟩ <;>
      rcases old (horigin hq) with ⟨q₀, hq₀⟩ | ⟨⟨_, _, ha'⟩, hrows'⟩
    · exact hI.single i j p₀ q₀ hp₀ hq₀
    · exact absurd hrows' (empty hp₀)
    · exact absurd hrows (empty hq₀)
    · rw [ha] at ha'
      simp only [Action.objective.injEq, ObjectiveAction.reserve.injEq] at ha'
      exact ha'.2.1

theorem plannerInv_reachable {h : History} {config : Config} {ok : Action → World → Prop}
    (hw : (machine h config).Reachable ok w) : PlannerInv w := by
  induction hw with
  | start hs =>
    obtain ⟨projects, -, rfl⟩ := hs
    exact ⟨by simp [World.initial], by simp [World.initial],
      by simp [World.initial, World.db, Database.empty], by simp [World.initial]⟩
  | step a _ _ ih => exact ih.step h config a

end HermesOps
