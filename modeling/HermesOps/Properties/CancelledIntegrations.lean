import HermesOps.Properties.Approvals
import HermesOps.Properties.Handovers

/-! Cancelling an objective and integrating a run of its plan exclude each other. The cancel looks for
    a run past its point of no return, the integrator for a pending cancel, each in a write
    transaction of its own. Whichever comes second refuses, as long as the integrator finds the
    objective of the run: the run must be linked to its attempt by then. -/

namespace HermesOps

open Schemes

/-- The run is being integrated or has been. -/
def Store.inIntegration (s : Store) (r : RunId) : Bool :=
  (s.runs.get? r).any (fun x => x.status = .committing ∨ x.status = .completed) ||
    s.integrations.any fun _ y => y.runId = r ∧ y.decision = .approve ∧
      (y.status = .prepared ∨ y.status = .completed)

/-- The objective is cancelled, or will be once its work has stopped. -/
def Objective.isCancelling (o : Objective) : Bool :=
  o.status = .cancelRequested ∨ o.status = .cancelled

/-- The action cancels a plan without its objective, activates a plan before its planner has handed
    it over, or prepares the integration of a run that no attempt is linked to. -/
def bypassesObjective (a : Action) (w : World) : Bool :=
  match a with
  | .graph (.cancelPlan _ _) => true
  | .graph (.activate p _) => w.awaitsHandover p
  | a => integratesUnlinked a w

variable {h : History} {config : Config} {w w' : World} {a : Action} {r : RunId} {p : PlanId}
  {s s' : Site} {wr : Writer}

/-! ### Exclusion -/

/-- The decision guard refuses a run of an objective that is being cancelled. -/
theorem decisionGuard_cancelling {d : Database} {b : Application} {x : Run} {id : ObjectiveId}
    {o : Objective} (hg : decisionGuard d b = .ok (.written x))
    (ho : d.queue.objectives.get? id = some o) (hp : o.planId = some p)
    (hr : b.runId ∈ d.graph.linkedRuns p) : o.isCancelling = false := by
  obtain ⟨-, -, ⟨st, hst, hne, hne'⟩, -⟩ := decisionGuard_written hg
  unfold objectiveStatusForRun at hst
  have hmem : (id, o) ∈ d.queue.objectives.select fun _ o =>
      o.planId.any fun p => b.runId ∈ d.graph.linkedRuns p := by
    rw [Table.mem_select]
    exact ⟨ho, by simp [hp, hr]⟩
  split at hst
  · rename_i hnil
    rw [hnil] at hmem
    cases hmem
  · rename_i x hone
    rw [hone, List.mem_singleton] at hmem
    subst hmem
    cases hst
    simp only [ne_eq, Option.some.injEq] at hne hne'
    simp [Objective.isCancelling, hne, hne']
  · cases hst

/-- A cancel that finds the run of a plan approved is refused. -/
theorem pointOfNoReturn_of_approved (hI : ApprovalInv w) (hr : r ∈ w.db.graph.linkedRuns p)
    (ha : w.db.store.approved r) : integrationPointOfNoReturn w.db (some p) = true := by
  obtain ⟨i, y, hy, rfl, hd⟩ := ha
  obtain ⟨hrun, hst⟩ := hI.rows i y hy hd
  obtain ⟨x, hx⟩ := Option.isSome_iff_exists.1 hrun
  simp only [integrationPointOfNoReturn, List.any_eq_true]
  refine ⟨y.runId, hr, ?_⟩
  rw [hx]
  simp only [Bool.or_eq_true, Store.hasApprovedIntegration]
  exact .inr (Table.any_iff.2 ⟨i, y, hy, by simp [hd, hst]⟩)

/-- A cancelled plan has a cancelled objective, and no run of an objective that is being cancelled is
    approved. -/
structure ExclusionInv (w : World) : Prop where
  ended : ∀ p x, w.db.graph.plans.get? p = some x → x.status = .cancelled →
    ∃ id o, w.db.queue.objectives.get? id = some o ∧ o.planId = some p ∧ o.status = .cancelled
  excluded : ∀ id o p r, w.db.queue.objectives.get? id = some o → o.planId = some p →
    o.isCancelling = true → r ∈ w.db.graph.linkedRuns p → ¬w.db.store.approved r

/-- What the exclusion rests on. -/
structure ExclusionBase (w : World) : Prop where
  links : LinkInv w
  agreement : AgreementInv w
  handovers : HandoverInv w
  approvals : ApprovalInv w
  first : LinkedFirst w

/-- An objective that loses its plan loses it with the plan. -/
theorem unlinked_gone {q : PlanId} {i id : ObjectiveId} {sub : Submission} {now : Time}
    {o o' : Objective} (ho : w.db.queue.objectives.get? id = some o)
    (ho' : (w.step h config (.objective (.attachPlan q i sub now))).db.queue.objectives.get? id =
      some o') (hp : o.planId = some p) (hp' : o'.planId ≠ some p) :
    (w.step h config (.objective (.attachPlan q i sub now))).db.graph.plans.get? p = none := by
  simp only [World.step, World.objectiveStep] at ho' ⊢
  split at ho'
  · rw [ho] at ho'
    cases ho'
    exact absurd hp hp'
  · rename_i hq
    rw [if_neg hq]
    cases hi : insertObjective w.db i { sub with planId := some q } now with
    | ok queue =>
      have hins := (insertObjective_ok hi).1
      have hget := Table.get?_insert hins id
      simp only [World.db] at hi ho ho' hins
      simp only [hi] at ho'
      have hne : id ≠ i := by
        rintro rfl
        rw [Table.get?_of_insert hins] at ho
        cases ho
      rw [if_neg hne] at hget
      change queue.objectives.get? id = some o' at ho'
      rw [hget] at ho'
      change w.site.db.queue.objectives.get? id = some o' at ho'
      rw [ho] at ho'
      cases ho'
      exact absurd hp hp'
    | error e =>
      simp only [World.db] at hi ho ho' ⊢
      simp only [hi] at ho' ⊢
      change (deletePlan w.site.db q).queue.objectives.get? id = some o' at ho'
      change (deletePlan w.site.db q).graph.plans.get? p = none
      simp only [deletePlan, Table.get?_update, ho, Option.map_some, Option.some.injEq] at ho'
      have hpq : p = q := by
        by_contra hne
        rw [if_neg (by simp [hp, hne])] at ho'
        subst ho'
        exact hp' hp
      rw [(deletePlan_deleted _ q).plans, if_pos hpq]

/-- A cancelled objective stays cancelled with its plan as long as the plan is there. -/
theorem cancelled_stays (hP : PlannerInv w) {id : ObjectiveId} {o : Objective} {x' : Plan}
    (ho : w.db.queue.objectives.get? id = some o) (hp : o.planId = some p)
    (hs : o.status = .cancelled) (hx' : (w.step h config a).db.graph.plans.get? p = some x') :
    ∃ o', (w.step h config a).db.queue.objectives.get? id = some o' ∧ o'.planId = some p ∧
      o'.status = .cancelled := by
  obtain ⟨o', ho', hm⟩ := objective_move h config w a ho
  refine ⟨o', ho', ?_⟩
  cases hm with
  | kept hsame hc => exact ⟨hc.plan.trans hp, hsame.trans hs⟩
  | unlinked hsame _ _ _ hn =>
    rw [unlinked_gone ho ho' hp (by rw [hn]; simp)] at hx'
    cases hx'
  | paused _ _ _ ht | cancelled _ _ ht | swept _ ht => rw [hs] at ht; cases ht
  | resumed _ _ h | promoted _ h | exhausted _ h | reserved h | restarted _ _ h =>
    rw [hs] at h; cases h
  | planned _ h => rw [hs] at h; cases h
  | failed hi =>
    have := hP.unplanned _ _ hi o ho
    rw [hp] at this
    cases this

theorem ExclusionInv.step_ended (hI : ExclusionInv w) (hB : ExclusionBase w)
    (hok : bypassesObjective a w = false) {x' : Plan}
    (hx' : (w.step h config a).db.graph.plans.get? p = some x') (hs : x'.status = .cancelled) :
    ∃ id o, (w.step h config a).db.queue.objectives.get? id = some o ∧ o.planId = some p ∧
      o.status = .cancelled := by
  rcases (graph_step h config w a).plan_back hx' with ⟨x, hx, hm⟩ | ⟨-, hn⟩
  · cases hm with
    | kept hsame =>
      obtain ⟨id, o, ho, hp, hos⟩ := hI.ended p x hx (hsame.symm.trans hs)
      obtain ⟨o', ho'⟩ := cancelled_stays hB.agreement.planners ho hp hos hx'
      exact ⟨id, o', ho'⟩
    | cancelled _ _ ho hp hos => exact ⟨_, _, ho, hp, hos⟩
    | removed => cases hok
    | blocked _ h | promoted _ _ _ h | planned _ _ h | activated _ h => rw [hs] at h; cases h
    | refreshed _ _ h => rw [hs] at h; rcases h with h | h | h | ⟨h, -⟩ <;> cases h
  · rw [hs] at hn
    rcases hn with h | h <;> cases h

/-- A status taken over from the plan cancels the objective only with a `CANCELLED` plan. -/
theorem resumedStatus_cancelling {st : Option PlanStatus}
    (hs : resumedStatusForPlan st = .cancelRequested ∨ resumedStatusForPlan st = .cancelled) :
    st = some .cancelled := by
  rcases st with _ | _ | _ | _ | _ | _ | _ | _ <;> simp [resumedStatusForPlan] at hs ⊢

theorem promotedStatus_cancelling {st : PlanStatus}
    (hs : promotedStatus st = .cancelRequested ∨ promotedStatus st = .cancelled) :
    st = .cancelled := by
  cases st <;> simp [promotedStatus] at hs ⊢

theorem synchronizedStatus_cancelling {d : Database} {row : SweepRow} {st : ObjectiveStatus}
    {e : Option String} (h : synchronizedStatus d row = some (st, e))
    (hs : st = .cancelRequested ∨ st = .cancelled) :
    row.objective.status = .cancelRequested ∨ row.planStatus = some .cancelled := by
  by_cases hc : row.objective.status = .cancelRequested
  · exact .inl hc
  · right
    simp only [synchronizedStatus, if_neg hc] at h
    split at h
    · cases h; rcases hs with h | h <;> cases h
    · rcases hp : row.planStatus with _ | _ | _ | _ | _ | _ | _ | _ <;> simp [hp] at h ⊢ <;>
        rw [← h.1] at hs <;> rcases hs with h | h <;> cases h

/-- An objective that starts to be cancelled with a plan has no approved run there. -/
theorem ExclusionInv.cancelling (hI : ExclusionInv w) (hB : ExclusionBase w) {id : ObjectiveId}
    {o o' : Objective} (ho : w.db.queue.objectives.get? id = some o) (hm : ObjectiveMove w id o a o')
    (hp : o'.planId = some p) (hc : o'.isCancelling = true) (hr : r ∈ w.db.graph.linkedRuns p) :
    ¬w.db.store.approved r := by
  have hplan : w.db.graph.planStatus (some p) = some .cancelled → ¬w.db.store.approved r := by
    intro hs
    obtain ⟨x, hx, hxs⟩ := planStatus_some.1 hs
    obtain ⟨k, q, hq, hqp, hqs⟩ := hI.ended p x hx hxs
    exact hI.excluded k q p r hq hqp (by simp [Objective.isCancelling, hqs]) hr
  have hst := of_decide_eq_true hc
  cases hm with
  | kept hsame hcarries =>
    exact hI.excluded id o p r ho (hcarries.plan.symm.trans hp)
      (by simpa [Objective.isCancelling, ← hsame] using hc) hr
  | unlinked _ _ _ _ hn => rw [hn] at hp; cases hp
  | paused _ _ _ _ _ h =>
    rw [h] at hst
    split at hst <;> rcases hst with h | h <;> cases h
  | resumed _ hcarries _ _ h =>
    rw [h, ← hcarries.plan, hp] at hst
    exact hplan (resumedStatus_cancelling hst)
  | cancelled _ hcarries _ hpnr =>
    intro ha
    rw [← hcarries.plan, hp, pointOfNoReturn_of_approved hB.approvals hr ha] at hpnr
    cases hpnr
  | swept hcarries _ hsync =>
    rcases synchronizedStatus_cancelling hsync hst with hreq | hpl
    · exact hI.excluded id o p r ho (hcarries.plan.symm.trans hp)
        (decide_eq_true (.inl hreq)) hr
    · rw [← hcarries.plan, hp] at hpl
      exact hplan hpl
  | promoted hcarries _ hop hx h =>
    rw [h] at hst
    rw [hcarries.plan, hop] at hp
    cases hp
    exact hplan (planStatus_some.2 ⟨_, hx, promotedStatus_cancelling hst⟩)
  | exhausted hcarries _ hn => rw [hcarries.plan, hn] at hp; cases hp
  | reserved _ _ hn => rw [hn] at hp; cases hp
  | planned hi _ hop =>
    rw [hop] at hp
    cases hp
    exact absurd hr (hB.handovers.unlinked (World.awaitsHandover_iff.2 ⟨_, _, hi, rfl⟩))
  | failed hi hcarries =>
    have := hB.agreement.planners.unplanned _ _ hi o ho
    rw [← hcarries.plan, hp] at this
    cases this
  | restarted _ hcarries hpl =>
    have := hB.agreement.planners.planning id o ho hpl
    rw [← hcarries.plan, hp] at this
    cases this

theorem ExclusionInv.step_excluded (hI : ExclusionInv w) (hB : ExclusionBase w) {id : ObjectiveId} {o' : Objective}
    (ho' : (w.step h config a).db.queue.objectives.get? id = some o') (hp : o'.planId = some p)
    (hc : o'.isCancelling = true) (hr : r ∈ (w.step h config a).db.graph.linkedRuns p) :
    ¬(w.step h config a).db.store.approved r := by
  intro ha
  rcases linkedRuns_origin hB.links hr with hold | ⟨j, now, pid, rt, rfl, hj, -⟩
  · cases ho : w.db.queue.objectives.get? id with
    | none =>
      obtain ⟨sub, now, rfl, -⟩ := objective_new h config w a ho ho'
      rcases of_decide_eq_true hc with h | h <;> cases h
    | some o =>
      obtain ⟨o'', ho'', hm⟩ := objective_move h config w a ho
      rw [ho'] at ho''
      cases ho''
      rcases approved_origin hB.approvals ha with ha | ⟨pid, now, fresh, b, m, x, rfl, -, rfl, -, hg⟩
      · exact hI.cancelling hB ho hm hp hc hold ha
      · -- the step of a process leaves the queue as it is
        rw [World.step_queue h config w rfl, ho] at ho'
        cases ho'
        rw [decisionGuard_cancelling hg ho hp hold] at hc
        cases hc
  · rw [World.step_began hj] at ha
    exact hB.first r (.read hj rfl) ha

theorem ExclusionInv.step (hI : ExclusionInv w) (hB : ExclusionBase w) (h : History)
    (config : Config) (a : Action) (hok : bypassesObjective a w = false) : ExclusionInv (w.step h config a) :=
  ⟨fun _ _ hx hs => hI.step_ended hB hok hx hs,
    fun _ _ _ _ ho hp hc hr => hI.step_excluded hB ho hp hc hr⟩

theorem bypassesObjective.forestalls (hok : bypassesObjective a w = false) :
    forestallsHandover a w = false := by
  unfold forestallsHandover
  split
  · exact hok
  · cases hok
  · rfl

theorem bypassesObjective.unlinked (hok : bypassesObjective a w = false) :
    integratesUnlinked a w = false := by
  unfold bypassesObjective at hok
  split at hok
  · cases hok
  · rfl
  · exact hok

theorem exclusionBase_reachable
    (hw : (machine h config).Reachable (fun a w => bypassesObjective a w = false) w) :
    ExclusionBase w :=
  ⟨linkInv_reachable hw, agreementInv_reachable hw,
    handoverInv_reachable (fun _ _ hok => bypassesObjective.forestalls hok) hw,
    approvalInv_reachable hw, linkedFirst_reachable (fun _ _ hok => bypassesObjective.unlinked hok) hw⟩

theorem exclusionInv_reachable
    (hw : (machine h config).Reachable (fun a w => bypassesObjective a w = false) w) :
    ExclusionInv w := by
  induction hw with
  | start hs =>
    obtain ⟨projects, -, rfl⟩ := hs
    exact ⟨fun _ _ hx => (by cases hx), fun _ _ _ _ ho => (by cases ho)⟩
  | step a hw hok ih => exact ih.step (exclusionBase_reachable hw) h config a hok

/-! ### Runs -/

theorem Store.approved_of_inIntegration (hI : ApprovalInv w)
    (hr : w.db.store.inIntegration r = true) : w.db.store.approved r := by
  rw [Store.inIntegration, Bool.or_eq_true] at hr
  rcases hr with hr | hr
  · obtain ⟨x, hx, hst⟩ := (Option.any_eq_true _ _).1 hr
    exact hI.integrated r x hx (of_decide_eq_true hst)
  · obtain ⟨i, y, hy, hyr⟩ := Table.any_iff.1 hr
    obtain ⟨hyr, hd, -⟩ := of_decide_eq_true hyr
    exact ⟨i, y, hy, hyr, hd⟩

/-- The cancel of an objective past the point of no return is refused by both programs. -/
theorem cancel_refused {id : ObjectiveId} {o : Objective}
    (ho : w.db.queue.objectives.get? id = some o)
    (hp : integrationPointOfNoReturn w.db o.planId = true) (now : Time) :
    (∃ e, commandCancel w.db id now = .error e) ∧
      (∃ e, commandObjective w.db id now .cancel = .error e) ∧
      w.step h config (.objective (.cli id .cancel now)) = w ∧
      w.step h config (.objective (.controller id .cancel now)) = w := by
  obtain ⟨e, he⟩ : ∃ e, ObjectiveCommand.cancel.apply w.db id now = .error e := by
    simp only [ObjectiveCommand.apply, cancelObjective, ho, hp]
    split
    · exact ⟨_, rfl⟩
    · exact ⟨_, rfl⟩
  have hstep : w.step h config (.objective (.cli id .cancel now)) = w := by
    simp only [World.step, World.objectiveStep_cli, he]
  refine ⟨⟨_, by rw [commandCancel, he]; rfl⟩, ⟨_, by rw [commandObjective, he]; rfl⟩, hstep, ?_⟩
  rw [World.step, World.objectiveStep_controller]
  exact hstep

/-- An objective that is being cancelled has no run in integration, and one with a run in integration
    can no longer be cancelled. -/
theorem cancel_excludes_integration (h : History) (config : Config) {w : World}
    (hw : (machine h config).Reachable (fun a w => bypassesObjective a w = false) w)
    {id : ObjectiveId} {o : Objective} {p : PlanId} {r : RunId}
    (ho : w.db.queue.objectives.get? id = some o) (hp : o.planId = some p)
    (hr : r ∈ w.db.graph.linkedRuns p) :
    (o.isCancelling = true → w.db.store.inIntegration r = false) ∧
      (w.db.store.inIntegration r = true → ∀ now,
        (∃ e, commandCancel w.db id now = .error e) ∧
        (∃ e, commandObjective w.db id now .cancel = .error e) ∧
        w.step h config (.objective (.cli id .cancel now)) = w ∧
        w.step h config (.objective (.controller id .cancel now)) = w) := by
  have hA := approvalInv_reachable hw
  refine ⟨fun hc => ?_, fun hi now => cancel_refused ho ?_ now⟩
  · by_contra hi
    rw [Bool.not_eq_false] at hi
    exact (exclusionInv_reachable hw).excluded id o p r ho hp hc hr
      (Store.approved_of_inIntegration hA hi)
  · rw [hp]
    exact pointOfNoReturn_of_approved hA hr (Store.approved_of_inIntegration hA hi)

/-- A pipeline task whose run has just been prepared for integration. -/
def linkedIntegration : List Action :=
  Scenario.reviewedPipeline ++
  [ .environment (.review 0 (Scenario.approval 0 1)),
    .thread 0 18 0 false,
    .thread 0 19 0 false,
    .thread 0 20 2 false,
    .process 2 101 0 false,
    .process 2 102 0 false,
    .process 2 103 0 false,
    .process 2 104 0 false ]

set_option maxRecDepth 20000 in
/-- The cancel that comes after the preparation is refused. -/
theorem cancel_refused_while_committing :
    let w := Scenario.system.run Scenario.start linkedIntegration
    w.runStatus 0 = some .committing ∧ w.objectiveStatus 0 = some .running ∧
      ∀ now, Scenario.system.step (.objective (.cli 0 .cancel now)) w = w := by
  intro w
  have hw : Scenario.system.Reachable (fun a w => bypassesObjective a w = false) w :=
    .run (.start Scenario.system_start) (by decide)
  have hobj : (w.db.queue.objectives.get? 0).map Objective.planId = some (some 0) := by decide
  obtain ⟨o, ho, hp⟩ := Option.map_eq_some_iff.1 hobj
  have hr : 0 ∈ w.db.graph.linkedRuns 0 := by decide
  have hi : w.db.store.inIntegration 0 = true := by decide
  refine ⟨by decide, by decide, fun now => ?_⟩
  exact ((cancel_excludes_integration _ _ hw ho hp hr).2 hi now).2.2.1

end HermesOps
