import HermesOps.Properties.RunClaims
import HermesOps.Properties.Evidence

/-! Approved runs. The integrator is told to integrate a run by the `APPROVE` row that its preparation
    inserts under the decision guard, and nothing deletes the row; every run that is `COMMITTING`
    or `COMPLETED` has one. As long as only linked runs are prepared, a run is linked to its attempt
    before it is approved. -/

namespace HermesOps

open Schemes

/-- Some attempt is linked to the run. -/
def Graph.hasAttempt (g : Graph) (r : RunId) : Bool := g.attempts.any fun _ x => x.runId = some r

/-- The action prepares the integration of a run that no attempt is linked to. -/
def integratesUnlinked (a : Action) (w : World) : Bool :=
  match a with
  | .process pid _ _ false =>
    (w.procs.get? pid).any fun stage =>
      match stage with
      | .verified a _ => a.action = .integrate ∧ ¬w.db.graph.hasAttempt a.runId
      | _ => false
  | _ => false

variable {h : History} {config : Config} {w w' : World} {a : Action} {r : RunId} {s s' : Site}
  {wr : Writer}

/-! ### Approved runs -/

/-- The integrator has been told to integrate the run. -/
def Store.approved (s : Store) (r : RunId) : Prop :=
  ∃ i y, s.integrations.get? i = some y ∧ y.runId = r ∧ y.decision = .approve

theorem Store.approved.stays (ha : s.db.store.approved r) (hs : StoreWritten s s' wr) :
    s'.db.store.approved r := by
  obtain ⟨i, y, hy, hr, hd⟩ := ha
  obtain ⟨y', hy', hw⟩ := hs.integration i y hy
  exact ⟨i, y', hy', hw.run.trans hr, hw.decision.trans hd⟩

theorem Site.Approved.approved {c : Commit} (ha : s.Approved r c) : s.db.store.approved r := by
  obtain ⟨i, y, hy, hr, hd, -⟩ := ha
  exact ⟨i, y, hy, hr, hd⟩

theorem Site.Vouches.approved {run : Run} (hv : s.Vouches r run) : s.db.store.approved r := by
  obtain ⟨_, _, _, _, _, _, _, ha⟩ := hv
  exact ha.approved

/-- What an integrator knows of the decision, and a recovery about to complete a run of its
    approval. -/
def Stage.Settled (s : Store) : Stage → Prop
  | .reviewed a | .checked a _ | .verified a _ => a.decision = .approve → a.action = .integrate
  | .resumeFinishing r _ _ => s.approved r
  | _ => True

theorem Stage.Settled.next {now : Time} {fresh : Nat} {stage stage' : Stage}
    (hv : stage.Settled s.db.store) (hsound : stage.Sound h s)
    (hs : stage.Succeeds h now fresh s s' (.next stage')) : stage'.Settled s'.db.store := by
  cases hs with
  | apply ha => exact (applyRead_ok ha).2.2.2.2
  | reviewed | checked => exact hv
  | resumedDone | fastForwarded => exact Site.Vouches.approved (s := s) hsound
  | decided _ _ hn =>
    subst hn
    split <;> trivial
  | _ => trivial

theorem Stage.Settled.onError {stage stage' : Stage} {e : String} {d : Store}
    (he : stage.onError e = .next stage') : stage'.Settled d := by
  cases stage <;> simp only [Stage.onError, Progress.next.injEq, reduceCtorEq] at he <;> subst he
  all_goals trivial

/-- The runs and integrations of the store hang together. -/
structure ApprovalInv (w : World) : Prop where
  settled : ∀ pid stage, w.procs.get? pid = some stage → stage.Settled w.db.store
  rows : ∀ i y, w.db.store.integrations.get? i = some y → y.decision = .approve →
    (w.db.store.runs.get? y.runId).isSome ∧
      (y.status = .prepared ∨ y.status = .completed ∨ y.status = .failed)
  integrated : ∀ r x, w.db.store.runs.get? r = some x →
    x.status = .committing ∨ x.status = .completed → w.db.store.approved r

/-- A run is approved by the preparation of its integration, under the decision guard. -/
theorem approved_origin (hI : ApprovalInv w) (hr : (w.step h config a).db.store.approved r) :
    w.db.store.approved r ∨ ∃ pid now fresh b m x, a = .process pid now fresh false ∧
      w.procs.get? pid = some (.verified b m) ∧ b.runId = r ∧ b.action = .integrate ∧
      decisionGuard w.db b = .ok (.written x) := by
  obtain ⟨wr, hwr, hs⟩ := World.store_step h config w a
  obtain ⟨i, y, hy, hyr, hyd⟩ : (w.step h config a).site.db.store.approved r := hr
  rcases hs.newIntegration i y hy with ⟨y₀, hy₀, hw⟩ | ⟨b, m, rfl, hbr, -, hbd, -⟩
  · exact .inl ⟨i, y₀, hy₀, hw.run.symm.trans hyr, hw.decision.symm.trans hyd⟩
  · cases hwr with
    | @process pid now fresh _ _ hp hsucc =>
      have hact : b.action = .integrate := hI.settled _ _ hp (hbd.symm.trans hyd)
      generalize (w.step h config (.process pid now fresh false)).site = s' at hsucc hy
      cases hsucc with
      | refused => exact .inl ⟨i, y, hy, hyr, hyd⟩
      | prepare _ hprep =>
        obtain ⟨x, hg, -⟩ := prepareIntegration_ok hprep
        exact .inr ⟨pid, now, fresh, b, m, x, rfl, hp, hbr.symm.trans hyr, hact, hg⟩
      | record hne => exact absurd hact hne

theorem ApprovalInv.step (hI : ApprovalInv w) (hE : EvidenceInv h w) (config : Config) (a : Action) :
    ApprovalInv (w.step h config a) := by
  obtain ⟨wr, hwr, hs⟩ := World.store_step h config w a
  have stays : ∀ {r}, w.db.store.approved r → (w.step h config a).db.store.approved r :=
    fun ha => Store.approved.stays (s := w.site) ha hs
  refine ⟨fun pid stage hp => ?_, fun i y hy hd => ?_, fun r x' hx' hst => ?_⟩
  · cases World.proc_origin h config w a hp with
    | kept hp _ =>
      have hold := hI.settled pid stage hp
      cases stage <;> first | exact stays hold | exact hold
    | started _ hs =>
      cases hs with
      | operator hc => cases stage <;> trivial
      | thread _ hc =>
        rcases hc with ⟨-, -, _, rfl⟩ | ⟨_, -, -, rfl | ⟨-, rfl⟩ | ⟨-, rfl⟩⟩ <;> trivial
      | janitor => trivial
    | @stepped now fresh fault stage₀ _ hp hst =>
      rcases stage₀.step_cases h now fresh fault w.site with ⟨e, he⟩ | ⟨-, hs⟩
      · rw [hst] at he
        exact Stage.Settled.onError (congrArg Prod.snd he).symm
      · rw [hst] at hs
        exact (hI.settled pid stage₀ hp).next (hE.stages pid stage₀ hp) hs
  · rcases hs.newIntegration i y hy with ⟨y₀, hy₀, hw⟩ | ⟨b, m, rfl, hbr, -, hbd, hprep⟩
    · obtain ⟨hrun, hst⟩ := hI.rows i y₀ hy₀ (hw.decision.symm.trans hd)
      obtain ⟨x, hx⟩ := Option.isSome_iff_exists.1 hrun
      obtain ⟨x', hx', -⟩ := hs.run _ x hx
      refine ⟨by rw [hw.run]; exact Option.isSome_of_mem hx', ?_⟩
      rcases hw.status with h | h | h
      · rw [h]; exact hst
      · exact .inr (.inr h)
      · exact .inr (.inl h)
    · cases hwr with
      | process hp _ =>
        have hact : b.action = .integrate := hI.settled _ _ hp (hbd.symm.trans hd)
        refine ⟨?_, .inl (hprep.1 hact)⟩
        obtain ⟨x, hx, -⟩ := (hE.stages _ _ hp).1
        obtain ⟨x', hx', -⟩ := hs.run _ x hx
        rw [hbr]
        exact Option.isSome_of_mem hx'
  · cases hx : w.db.store.runs.get? r with
    | none =>
      obtain ⟨hsnap, -⟩ := hs.newRun r x' hx hx'
      rw [hsnap] at hst
      rcases hst with h | h <;> cases h
    | some x =>
      obtain ⟨x'', hx'', hm⟩ := hs.run r x hx
      rw [show (w.step h config a).site.db.store.runs.get? r = some x' from hx'] at hx''
      cases hx''
      cases hm with
      | kept _ hsame => exact stays (hI.integrated r x hx (by rw [← hsame]; exact hst))
      | committed _ hr hact _ _ _ _ _ hins =>
        cases hwr with
        | process hp _ => exact ⟨_, _, hins, hr, (hE.stages _ _ hp).2.2 hact⟩
      | finalized _ _ _ hcom => exact stays (hI.integrated r x hx (.inl hcom))
      | resumed =>
        cases hwr with
        | process hp _ => exact stays (hI.settled _ _ hp)
      | activated _ _ h | aborted _ h | submitted _ _ _ h | rollback _ _ _ h | rolledBack _ _ h
        | waiting _ _ _ _ h | ambiguous _ _ _ h | forced _ h | blocked _ h | marked _ _ _ h =>
        rw [h] at hst
        rcases hst with h | h <;> cases h

theorem approvalInv_reachable {ok : Action → World → Prop}
    (hw : (machine h config).Reachable ok w) : ApprovalInv w := by
  induction hw with
  | start hs =>
    obtain ⟨projects, -, rfl⟩ := hs
    exact ⟨fun _ _ hp => (by cases hp), fun _ _ hy => (by cases hy), fun _ _ hx => (by cases hx)⟩
  | step a hw _ ih => exact ih.step (evidenceInv_reachable hw) config a

/-! ### Linked before approved -/

/-- No run that is still on its way to its thread is approved. -/
def LinkedFirst (w : World) : Prop := ∀ r, w.OnItsWay r → ¬w.db.store.approved r

theorem LinkedFirst.step (hI : LinkedFirst w) (hC : ClaimInv w) (hA : ApprovalInv w) (h : History)
    (config : Config) (hok : integratesUnlinked a w = false) :
    LinkedFirst (w.step h config a) := by
  intro r hw hr
  rcases approved_origin hA hr with hold | ⟨pid, now, fresh, b, m, x, rfl, hp, rfl, hact, hg⟩
  · rcases onItsWay_origin hw with hway | hn
    · exact hI r hway hold
    · obtain ⟨i, y, hy, rfl, hd⟩ := hold
      have := (hA.rows i y hy hd).1
      rw [hn] at this
      cases this
  · have hl : w.db.graph.hasAttempt b.runId = true := by
      simpa [integratesUnlinked, hp, hact] using hok
    rcases onItsWay_origin hw with hway | hn
    · obtain ⟨j, y, hy, hyr⟩ := Table.any_iff.1 hl
      exact hC.fresh _ hway j y hy (of_decide_eq_true hyr)
    · rw [(decisionGuard_written hg).1] at hn
      cases hn

theorem linkedFirst_reachable {ok : Action → World → Prop}
    (hok : ∀ a w, ok a w → integratesUnlinked a w = false)
    (hw : (machine h config).Reachable ok w) : LinkedFirst w := by
  induction hw with
  | start hs =>
    obtain ⟨projects, -, rfl⟩ := hs
    rintro r - ⟨i, y, hy, -⟩
    cases hy
  | step a hw ha ih =>
    exact ih.step (claimInv_reachable hw) (approvalInv_reachable hw) h config (hok _ _ ha)

end HermesOps
