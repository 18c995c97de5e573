import HermesOps.Properties.GraphMoves
import HermesOps.Properties.Planners
import HermesOps.Properties.Scenario

/-! A terminal objective and its plan agree, unless a cancellation takes effect on a plan that has
    already completed or failed: the objective is then `CANCELLED` and the plan keeps its own end.
    Three transactions cancel an objective with its plan, and none of them looks at the plan. -/

namespace HermesOps

open Schemes

/-- The plan status a terminal objective status stands for. -/
def ObjectiveStatus.outcome : ObjectiveStatus → Option PlanStatus
  | .completed => some .completed
  | .failed => some .failed
  | .cancelled => some .cancelled
  | _ => none

/-- A terminal objective that is linked to a plan has the plan's status. -/
def TerminalAgreement (d : Database) : Prop :=
  ∀ id o p s, d.queue.objectives.get? id = some o → o.planId = some p → o.status.outcome = some s →
    d.graph.planStatus (some p) = some s

/-- Nothing of the objective is at work, so that a cancel takes effect at once. -/
def Objective.isIdle (d : Database) (o : Objective) : Bool :=
  o.status ≠ .planning ∧ runningTaskCount d.graph o.planId = 0 ∧ activeRunCount d o.planId = 0

/-- The plan that the action cancels together with the objective. -/
def World.cancelsWith (w : World) (id : ObjectiveId) (o : Objective) : Action → Option PlanId
  | .objective (.cli i .cancel _) | .objective (.controller i .cancel _) =>
    if i = id ∧ ¬o.status.isTerminal ∧ ¬integrationPointOfNoReturn w.db o.planId ∧ o.isIdle w.db then
      o.planId
    else none
  | .objective (.synchronize _) => if sweepCancels w.db o then o.planId else none
  | .planner i (.success _) =>
    match w.daemon.planners.get? i with
    | some ⟨j, .generated p⟩ =>
      if j = id ∧ o.status = .cancelRequested ∧
          ¬w.db.queue.objectives.any (fun k x => k ≠ id ∧ x.planId = some p) then some p
      else none
    | _ => none
  | _ => none

/-- The action cancels an objective whose plan has completed or failed. -/
def overridesPlan (a : Action) (w : World) : Bool :=
  w.db.queue.objectives.any fun id o => (w.cancelsWith id o a).any fun p =>
    w.db.graph.planStatus (some p) = some .completed ∨ w.db.graph.planStatus (some p) = some .failed

variable {w w' : World} {a : Action}

/-! ### Cancelling with a plan -/

theorem cancelledStatus_idle {d : Database} {o : Objective} :
    cancelledStatus d o = .cancelled ↔ o.isIdle d = true := by
  unfold cancelledStatus Objective.isIdle
  split
  · rename_i h; simp only [reduceCtorEq, decide_eq_true_eq, false_iff]; tauto
  · rename_i h; simp only [decide_eq_true_eq, true_iff]; tauto

theorem cancelObjective_idle {d : Database} {id : ObjectiveId} {o : Objective} (now : Time)
    (ho : d.queue.objectives.get? id = some o) (ht : o.status.isTerminal = false)
    (hp : integrationPointOfNoReturn d o.planId = false) (hi : o.isIdle d = true) :
    cancelObjective d id now = .ok ({ d.queue with
      objectives := d.queue.objectives.updateAt id (Objective.cancelledAs .cancelled now) },
      cancelPlanInTransaction d.graph o.planId now) := by
  simp [cancelObjective, ho, ht, hp, cancelledStatus_idle.2 hi]

theorem finishObjectivePlanningSuccess_cancelled {d : Database} {id : ObjectiveId} {o : Objective}
    (i : ObjectiveAttemptId) {p : PlanId} (now : Time) (ho : d.queue.objectives.get? id = some o)
    (hs : o.status = .cancelRequested) (hp : (d.graph.plans.get? p).isSome)
    (hfree : ¬d.queue.objectives.any (fun k x => k ≠ id ∧ x.planId = some p)) :
    ∃ qg o', finishObjectivePlanningSuccess d id i p now = .ok qg ∧
      qg.1.objectives.get? id = some o' ∧ o'.planId = some p ∧ o'.status = .cancelled ∧
      qg.2 = cancelPlanInTransaction d.graph (some p) now := by
  obtain ⟨x, hx⟩ := Option.isSome_iff_exists.1 hp
  simp only [finishObjectivePlanningSuccess, ho, hx, hs, if_neg hfree]
  refine ⟨_, o.planned .cancelled p (some now) (some "cancelled by operator during planning") now,
    rfl, ?_, rfl, rfl, rfl⟩
  simp [ho]

/-- The action leaves the objective cancelled and the plan ended. -/
theorem cancelsWith_step (h : History) (config : Config) {id : ObjectiveId} {o : Objective}
    {p : PlanId} (ho : w.db.queue.objectives.get? id = some o)
    (hp : (w.db.graph.plans.get? p).isSome) (hc : w.cancelsWith id o a = some p) :
    (∃ o', (w.step h config a).db.queue.objectives.get? id = some o' ∧ o'.planId = some p ∧
        o'.status = .cancelled) ∧
      ∀ x', (w.step h config a).db.graph.plans.get? p = some x' → x'.status.isTerminal = true := by
  have command : ∀ now, ¬o.status.isTerminal ∧ ¬integrationPointOfNoReturn w.db o.planId ∧
      o.isIdle w.db → o.planId = some p →
      (∃ o', (w.objectiveStep config (.cli id .cancel now)).db.queue.objectives.get? id = some o' ∧
        o'.planId = some p ∧ o'.status = .cancelled) ∧
      ∀ x', (w.objectiveStep config (.cli id .cancel now)).db.graph.plans.get? p = some x' →
        x'.status.isTerminal = true := by
    rintro now ⟨ht, hr, hi⟩ hop
    rw [World.objectiveStep_cli, ObjectiveCommand.apply,
      cancelObjective_idle now ho (by simpa using ht) (by simpa using hr) hi]
    refine ⟨⟨o.cancelledAs .cancelled now, ?_, hop, rfl⟩, fun x' hx' => ?_⟩
    · simp [ho]
    · rw [hop] at hx'; exact (cancelPlan_ended hx').1
  unfold World.cancelsWith at hc
  split at hc
  · split at hc
    · rename_i hi; obtain ⟨rfl, hi⟩ := hi; exact command _ hi hc
    · cases hc
  · split at hc
    · rename_i hi
      obtain ⟨rfl, hi⟩ := hi
      simp only [World.step, World.objectiveStep_controller]
      exact command _ hi hc
    · cases hc
  · rename_i now
    split at hc
    · rename_i hs
      obtain ⟨o', ho', hp', hs'⟩ := sweepCancels_swept now ho hs
      refine ⟨⟨o', ho', hp'.trans hc, hs'⟩, fun x' hx' => ?_⟩
      simp only [World.step, World.objectiveStep, World.setQueueGraph_db,
        (synchronizeObjectiveStates_spec w.db now).2.2] at hx'
      have ht : o.status.isTerminal = false := by
        have := (of_decide_eq_true hs).1
        rw [this]; rfl
      exact sweepGraph_ended (.inl ⟨⟨id, o, w.db.graph.planStatus o.planId⟩,
        mem_sweepRows.2 ⟨ho, ht, rfl⟩, hs, hc⟩) x' hx'
    · cases hc
  · rename_i i now
    split at hc
    · rename_i j q hpl
      split at hc
      · rename_i hcond
        obtain ⟨rfl, hs, hfree⟩ := hcond
        obtain rfl : q = p := by simpa using hc
        obtain ⟨qg, o', hq, ho', hp', hs', hg⟩ :=
          finishObjectivePlanningSuccess_cancelled i now ho hs hp hfree
        simp only [World.step, hpl, World.plannerStep, hq, World.endPlanner_db,
          World.setQueueGraph_db]
        refine ⟨⟨o', ho', hp', hs'⟩, fun x' hx' => ?_⟩
        rw [hg] at hx'; exact (cancelPlan_ended hx').1
      · cases hc
    · cases hc
  · cases hc

/-- The same action makes of an open plan a cancelled one. -/
theorem PlanMove.of_cancelsWith {id : ObjectiveId} {o : Objective} {p : PlanId} {x x' : Plan}
    (hm : PlanMove w w' p x a x') (hc : w.cancelsWith id o a = some p)
    (hx : x.status.isTerminal = false) (hx' : x'.status.isTerminal = true) :
    x'.status = .cancelled := by
  cases hm with
  | kept h => rw [h, hx] at hx'; cases hx'
  | blocked _ h => rw [h] at hx'; cases hx'
  | promoted _ _ _ h => rw [h] at hx'; cases hx'
  | planned _ _ h => rw [h] at hx'; cases hx'
  | activated _ h => rw [h] at hx'; cases hx'
  | cancelled _ h => exact h
  | removed _ h => exact h
  | refreshed => cases hc

/-! ### The invariant -/

/-- What the agreement rests on: a linked plan exists, and planners work on objectives without
    one. -/
structure AgreementInv (w : World) : Prop where
  linked : ∀ id o p, w.db.queue.objectives.get? id = some o → o.planId = some p →
    (w.db.graph.plans.get? p).isSome
  planners : PlannerInv w

/-- A plan that an objective is linked to after the step moved there. -/
theorem linked_plan_forth (hs : GraphStep w w' a) {id : ObjectiveId} {o' : Objective} {p : PlanId}
    {x : Plan} (hx : w.db.graph.plans.get? p = some x)
    (ho' : w'.db.queue.objectives.get? id = some o') (hp : o'.planId = some p) :
    ∃ x', w'.db.graph.plans.get? p = some x' ∧ PlanMove w w' p x a x' := by
  rcases hs.plan_forth hx with hx' | ⟨-, hfree⟩
  · exact hx'
  · exact absurd hp (hfree id o' ho')

/-- A move keeps the plan of the objective, drops it, or links the one a planner generated. -/
theorem ObjectiveMove.plan_cases {id : ObjectiveId} {o o' : Objective} {p : PlanId}
    (hm : ObjectiveMove w id o a o') (hp : o'.planId = some p) :
    o.planId = some p ∨ ((w.db.graph.plans.get? p).isSome ∧ ∃ i now, a = .planner i (.success now) ∧
      w.daemon.planners.get? i = some ⟨id, .generated p⟩ ∧ plannedStatus o.status = some o'.status ∧
      ∀ j x, j ≠ id → w.db.queue.objectives.get? j = some x → x.planId ≠ some p) := by
  cases hm with
  | kept _ h => exact .inl (h.plan ▸ hp)
  | unlinked _ _ _ _ h => rw [h] at hp; cases hp
  | paused _ h => exact .inl (h.plan ▸ hp)
  | resumed _ h => exact .inl (h.plan ▸ hp)
  | cancelled _ h => exact .inl (h.plan ▸ hp)
  | swept h => exact .inl (h.plan ▸ hp)
  | promoted h => exact .inl (h.plan ▸ hp)
  | exhausted h => exact .inl (h.plan ▸ hp)
  | reserved _ _ h => rw [h] at hp; cases hp
  | @planned i q now _ hpl hst hq _ _ hfree hsome =>
    obtain rfl : q = p := by rw [hq] at hp; simpa using hp
    exact .inr ⟨hsome, i, now, rfl, hpl, hst, hfree⟩
  | failed _ h => exact .inl (h.plan ▸ hp)
  | restarted _ h => exact .inl (h.plan ▸ hp)

theorem AgreementInv.step (h : History) (config : Config) (hI : AgreementInv w) (a : Action) :
    AgreementInv (w.step h config a) := by
  refine ⟨fun id o' p ho' hp => ?_, hI.planners.step h config a⟩
  have hsome : (w.db.graph.plans.get? p).isSome := by
    cases ho : w.db.queue.objectives.get? id with
    | none =>
      obtain ⟨s, now, rfl, hs⟩ := objective_new h config w a ho ho'
      exact (hs p hp).2.1
    | some o =>
      obtain ⟨o'', ho'', hm⟩ := objective_move h config w a ho
      obtain rfl : o' = o'' := by rw [ho'] at ho''; simpa using ho''
      rcases hm.plan_cases hp with hop | ⟨hsome, -⟩
      · exact hI.linked id o p ho hop
      · exact hsome
  obtain ⟨x, hx⟩ := Option.isSome_iff_exists.1 hsome
  obtain ⟨x', hx', -⟩ := linked_plan_forth (graph_step h config w a) hx ho' hp
  exact Option.isSome_of_mem hx'

theorem agreementInv_reachable {h : History} {config : Config} {ok : Action → World → Prop}
    (hw : (machine h config).Reachable ok w) : AgreementInv w := by
  induction hw with
  | start hs =>
    have hP := plannerInv_reachable (.of_start hs)
    obtain ⟨projects, -, rfl⟩ := hs
    exact ⟨fun _ _ _ ho => (by cases ho), hP⟩
  | step a _ _ ih => exact ih.step h config a

/-! ### One step -/

theorem resumedStatus_outcome {s : Option PlanStatus} {t : PlanStatus}
    (h : (resumedStatusForPlan s).outcome = some t) : s = some t := by
  rcases s with _ | _ | _ | _ | _ | _ | _ | _ <;>
    simp_all [resumedStatusForPlan, ObjectiveStatus.outcome]

theorem promotedStatus_outcome {s t : PlanStatus} (h : (promotedStatus s).outcome = some t) :
    s = t := by
  cases s <;> simp_all [promotedStatus, ObjectiveStatus.outcome]

theorem synchronizedStatus_outcome {d : Database} {row : SweepRow} {s : ObjectiveStatus}
    {e : Option String} {t : PlanStatus} (h : synchronizedStatus d row = some (s, e))
    (ht : s.outcome = some t) :
    row.planStatus = some t ∨ (t = .cancelled ∧ sweepCancels d row.objective = true) := by
  by_cases hc : row.objective.status = .cancelRequested
  · obtain ⟨rfl, hs⟩ := synchronizedStatus_cancel hc h
    exact .inr ⟨by simpa [ObjectiveStatus.outcome] using ht.symm, hs⟩
  · simp only [synchronizedStatus, if_neg hc] at h
    split at h
    · cases h; cases ht
    · cases hp : row.planStatus with
      | none => simp [hp] at h
      | some s' => cases s' <;> simp [hp] at h <;> simp [← h.1, ObjectiveStatus.outcome] at ht <;> simp [ht]

/-- What a move to a terminal status rests on: the objective has it already, or the plan does, or
    the objective is cancelled with its plan. -/
theorem ObjectiveMove.outcome_cases {id : ObjectiveId} {o o' : Objective} {p : PlanId}
    {s : PlanStatus} (hI : AgreementInv w) (ho : w.db.queue.objectives.get? id = some o)
    (hm : ObjectiveMove w id o a o') (hp : o'.planId = some p) (hs : o'.status.outcome = some s) :
    (o'.status = o.status ∧ o.planId = some p) ∨ w.db.graph.planStatus (some p) = some s ∨
      (s = .cancelled ∧ w.cancelsWith id o a = some p) := by
  cases hm with
  | kept h hc => exact .inl ⟨h, hc.plan ▸ hp⟩
  | unlinked _ _ _ _ h => rw [h] at hp; cases hp
  | paused _ _ _ _ _ h => rw [h] at hs; split at hs <;> cases hs
  | resumed _ hc _ _ h =>
    rw [h, ← hc.plan, hp] at hs
    exact .inr (.inl (resumedStatus_outcome hs))
  | cancelled ha hc ht hr h =>
    rw [h] at hs
    by_cases hi : o.isIdle w.db = true
    · rw [cancelledStatus_idle.2 hi] at hs
      have hop : o.planId = some p := by rw [← hc.plan, hp]
      rw [hop] at hr
      refine .inr (.inr ⟨by simpa [ObjectiveStatus.outcome] using hs.symm, ?_⟩)
      unfold Action.isCommandOn at ha
      split at ha
      · obtain ⟨rfl, rfl⟩ := of_decide_eq_true ha
        simp [World.cancelsWith, ht, hr, hi, hop]
      · obtain ⟨rfl, rfl⟩ := of_decide_eq_true ha
        simp [World.cancelsWith, ht, hr, hi, hop]
      · cases ha
    · unfold cancelledStatus at hs
      split at hs
      · cases hs
      · rename_i hn; exact absurd (by simp only [Objective.isIdle, decide_eq_true_eq]; tauto) hi
  | swept hc ht h =>
    rcases synchronizedStatus_outcome h hs with hst | ⟨rfl, hst⟩
    · exact .inr (.inl (by rw [← hp, hc.plan]; exact hst))
    · exact .inr (.inr ⟨rfl, by simp only [World.cancelsWith, hst, if_true]; rw [← hc.plan, hp]⟩)
  | promoted hc _ hop hplan h =>
    rw [hc.plan, hop] at hp
    obtain rfl := Option.some.inj hp
    rw [h] at hs
    obtain rfl := promotedStatus_outcome hs
    exact .inr (.inl (by simp [Graph.planStatus, hplan]))
  | exhausted hc _ h => rw [hc.plan, h] at hp; cases hp
  | reserved _ _ h => rw [h] at hp; cases hp
  | @planned _ q _ _ hpl hst hq _ _ hfree =>
    rw [hq] at hp
    obtain rfl := Option.some.inj hp
    have hcr : o.status = .cancelRequested := by
      cases hos : o.status <;> simp [hos, plannedStatus] at hst <;> rw [← hst] at hs <;> cases hs
    have ho' : o'.status = .cancelled := by rw [hcr] at hst; simpa [plannedStatus] using hst.symm
    rw [ho'] at hs
    refine .inr (.inr ⟨by simpa [ObjectiveStatus.outcome] using hs.symm, ?_⟩)
    have : ¬w.db.queue.objectives.any (fun k x => k ≠ id ∧ x.planId = some q) := by
      rw [Table.any_iff]
      rintro ⟨k, x, hx, hkx⟩
      exact hfree k x (of_decide_eq_true hkx).1 hx (of_decide_eq_true hkx).2
    simp only [World.cancelsWith, hpl]
    simp only [true_and, hcr]
    rw [if_pos this]
  | failed hpl hc => rw [hc.plan, hI.planners.unplanned _ _ hpl o ho] at hp; cases hp
  | restarted _ hc h => rw [hc.plan, hI.planners.planning id o ho h] at hp; cases hp

/-- In an agreeing queue the plan has that status already, or is cancelled with the objective. -/
theorem ObjectiveMove.outcome {id : ObjectiveId} {o o' : Objective} {p : PlanId} {s : PlanStatus}
    (hI : AgreementInv w) (hA : TerminalAgreement w.db)
    (ho : w.db.queue.objectives.get? id = some o)
    (hm : ObjectiveMove w id o a o') (hp : o'.planId = some p) (hs : o'.status.outcome = some s) :
    w.db.graph.planStatus (some p) = some s ∨
      (s = .cancelled ∧ w.cancelsWith id o a = some p) := by
  rcases hm.outcome_cases hI ho hp hs with ⟨h, hop⟩ | h
  · exact .inl (hA id o p s ho hop (h ▸ hs))
  · exact h

theorem planStatus_some {g : Graph} {p : PlanId} {s : PlanStatus} :
    g.planStatus (some p) = some s ↔ ∃ x, g.plans.get? p = some x ∧ x.status = s := by
  simp [Graph.planStatus]

/-- A step that overrides no plan keeps the agreement. -/
theorem TerminalAgreement.step (h : History) (config : Config) (hI : AgreementInv w)
    (hA : TerminalAgreement w.db) (hn : overridesPlan a w = false) :
    TerminalAgreement (w.step h config a).db := by
  intro id o' p s ho' hp hs
  cases ho : w.db.queue.objectives.get? id with
  | none => obtain ⟨s', now, rfl, -⟩ := objective_new h config w a ho ho'; cases hs
  | some o =>
    obtain ⟨o'', ho'', hm⟩ := objective_move h config w a ho
    obtain rfl : o' = o'' := by rw [ho'] at ho''; simpa using ho''
    have hgraph := graph_step h config w a
    rcases hm.outcome hI hA ho hp hs with hst | ⟨rfl, hc⟩
    · -- the plan had ended with this status
      obtain ⟨x, hx, hxs⟩ := planStatus_some.1 hst
      obtain ⟨x', hx', hmove⟩ := linked_plan_forth hgraph hx ho' hp
      have hterm : x.status.isTerminal = true := by
        rw [hxs]
        cases hos : o'.status <;> simp [hos, ObjectiveStatus.outcome] at hs <;> subst hs <;> rfl
      exact planStatus_some.2 ⟨x', hx', (hmove.terminal_stays hterm).trans hxs⟩
    · -- the objective is cancelled together with the plan
      have hsome : (w.db.graph.plans.get? p).isSome := by
        rcases hm.plan_cases hp with hop | ⟨hsome, -⟩
        · exact hI.linked id o p ho hop
        · exact hsome
      obtain ⟨x, hx⟩ := Option.isSome_iff_exists.1 hsome
      obtain ⟨x', hx', hmove⟩ := linked_plan_forth hgraph hx ho' hp
      have hended := (cancelsWith_step h config ho hsome hc).2 x' hx'
      refine planStatus_some.2 ⟨x', hx', ?_⟩
      by_cases hterm : x.status.isTerminal = true
      · rw [hmove.terminal_stays hterm]
        have hover : ¬(w.db.graph.planStatus (some p) = some .completed ∨
            w.db.graph.planStatus (some p) = some .failed) := fun hst => by
          have : overridesPlan a w = true := Table.any_iff.2
            ⟨id, o, ho, (Option.any_eq_true ..).2 ⟨p, hc, decide_eq_true hst⟩⟩
          rw [this] at hn; cases hn
        simp only [Graph.planStatus, Option.bind_some, hx, Option.map_some, Option.some.injEq]
          at hover
        cases hxs : x.status <;> simp [hxs, PlanStatus.isTerminal] at hterm hover ⊢
      · exact hmove.of_cancelsWith hc (by simpa using hterm) hended

/-- A step that overrides a plan breaks it. -/
theorem not_terminalAgreement_of_override (h : History) (config : Config)
    (hn : overridesPlan a w = true) : ¬TerminalAgreement (w.step h config a).db := by
  intro hA
  obtain ⟨id, o, ho, hc⟩ := Table.any_iff.1 hn
  obtain ⟨p, hc, hst⟩ := (Option.any_eq_true ..).1 hc
  have hst := of_decide_eq_true hst
  obtain ⟨x, hx, hxs⟩ : ∃ x, w.db.graph.plans.get? p = some x ∧
      (x.status = .completed ∨ x.status = .failed) := by
    rcases hst with hst | hst
    · obtain ⟨x, hx, hxs⟩ := planStatus_some.1 hst; exact ⟨x, hx, .inl hxs⟩
    · obtain ⟨x, hx, hxs⟩ := planStatus_some.1 hst; exact ⟨x, hx, .inr hxs⟩
  obtain ⟨⟨o', ho', hp', hs'⟩, -⟩ := cancelsWith_step h config ho (Option.isSome_of_mem hx) hc
  obtain ⟨x', hx', hmove⟩ := linked_plan_forth (graph_step h config w a) hx ho' hp'
  have hterm : x.status.isTerminal = true := by rcases hxs with hxs | hxs <;> rw [hxs] <;> rfl
  have hagree := hA id o' p .cancelled ho' hp' (by rw [hs']; rfl)
  obtain ⟨x'', hx'', hxc⟩ := planStatus_some.1 hagree
  obtain rfl : x' = x'' := by rw [hx'] at hx''; simpa using hx''
  rw [hmove.terminal_stays hterm] at hxc
  rcases hxs with hxs | hxs <;> rw [hxs] at hxc <;> cases hxc

/-! ### Runs -/

/-- A run keeps every terminal objective in agreement with its plan exactly when no step of it
    cancels an objective whose plan has completed or failed. -/
theorem terminal_agreement (h : History) (config : Config) {w : World}
    (hw : (machine h config).start w) (as : List Action) :
    (machine h config).Along (fun a w => TerminalAgreement (w.step h config a).db) w as ↔
      (machine h config).Along (fun a w => overridesPlan a w = false) w as := by
  have hI : AgreementInv w := by
    refine ⟨?_, plannerInv_reachable (.of_start hw)⟩
    obtain ⟨projects, -, rfl⟩ := hw
    simp [World.initial, World.db, Database.empty]
  have hA : TerminalAgreement w.db := by
    obtain ⟨projects, -, rfl⟩ := hw
    simp [TerminalAgreement, World.initial, World.db, Database.empty]
  clear hw
  induction as generalizing w with
  | nil => exact Iff.rfl
  | cons a as ih =>
    by_cases hn : overridesPlan a w = false
    · have hstep := hA.step h config hI hn
      exact and_congr (iff_of_true hstep hn) (ih (hI.step h config a) hstep)
    · refine iff_of_false (fun hm => ?_) fun hm => hn hm.1
      exact not_terminalAgreement_of_override h config (by simpa using hn) hm.1

/-- A cancel is requested while the last task runs; the task completes, the plan is refreshed to
    `COMPLETED`, and then the sweep comes. -/
def cancelledAfterCompletion : List Action :=
  [ .objective (.submit 0 Scenario.submission 1),
    .objective (.reserve 0 0 2),
    .planner 0 (.insert Scenario.noopPlan 0 0 3),
    .planner 0 (.success 4),
    .graph (.refresh 0 5),
    .graph (.reserve 0 0 6),
    .objective (.cli 0 .cancel 7),
    .thread 0 8 0 false,
    .thread 0 9 0 false,
    .graph (.refresh 0 10),
    .objective (.synchronize 11) ]

/-- Its run without the cancel completes both. -/
theorem terminal_agreement_completed :
    Scenario.system.Along
      (fun a w => TerminalAgreement (w.step Scenario.history Scenario.config a).db)
      Scenario.start (cancelledAfterCompletion.eraseIdx 6) :=
  (terminal_agreement Scenario.history Scenario.config Scenario.system_start _).2 (by decide)

/-- The sweep cancels the objective of a completed plan. -/
theorem sweep_cancels_completed_plan :
    ¬∀ (h : History) (config : Config) (w : World) (as : List Action),
      (machine h config).start w → (machine h config).Along
        (fun a w => TerminalAgreement (w.step h config a).db) w as := by
  intro hall
  obtain ⟨-, hlast, -⟩ := (Machine.along_append _ (cancelledAfterCompletion.take 10) _).1
    (hall Scenario.history Scenario.config Scenario.start
      (cancelledAfterCompletion.take 10 ++ [.objective (.synchronize 11)]) Scenario.system_start)
  exact not_terminalAgreement_of_override _ _ (by decide) hlast

end HermesOps
