import HermesOps.Properties.ProcessMoves

/-! What an integration in flight can rely on. A process reads its evidence (the run, the review, the
    head of the branch) in one transaction and acts on it in a later one; `StageSound` says, stage by
    stage, which part of the evidence still stands. It does because the columns it consists of are
    written once: the project and the base of a run at its reservation, its result at its submission,
    and the review of an integration with its row. -/

namespace HermesOps

open Schemes

variable {h : History} {s s' : Site} {w : World} {a : Action} {wr : Writer}

/-! ### What grows -/

/-- The evidence of `s` still stands in `s'`. -/
structure Site.Grows (h : History) (s s' : Site) : Prop where
  validated : ∀ v ∈ s.validated, v ∈ s'.validated
  run : ∀ r x, s.db.store.runs.get? r = some x → ∃ x', s'.db.store.runs.get? r = some x' ∧
    x'.projectId = x.projectId ∧ x'.baseCommit = x.baseCommit ∧
    ∀ c, x.resultCommit = some c → x'.resultCommit = some c
  integration : ∀ i x, s.db.store.integrations.get? i = some x →
    ∃ x', s'.db.store.integrations.get? i = some x' ∧ IntegrationWrite x x'
  head : ∀ p repo, s.repository p = some repo →
    ∃ repo', s'.repository p = some repo' ∧ h.isAncestor repo.head repo'.head = true

/-- The commit passed the review of an `APPROVE` integration of the run. -/
def Site.Approved (s : Site) (r : RunId) (c : Commit) : Prop :=
  ∃ i x, s.db.store.integrations.get? i = some x ∧ x.runId = r ∧ x.decision = .approve ∧
    x.reviewedCommit = some c ∧ (r, x.reviewId, some c) ∈ s.validated

/-- The run has the project and the base that the copy says. -/
def Site.Knows (s : Site) (r : RunId) (run : Run) : Prop :=
  ∃ x, s.db.store.runs.get? r = some x ∧ x.projectId = run.projectId ∧ x.baseCommit = run.baseCommit

/-- The copy has the run's result, and an approval for it. -/
def Site.Vouches (s : Site) (r : RunId) (run : Run) : Prop :=
  ∃ x c, s.db.store.runs.get? r = some x ∧ x.projectId = run.projectId ∧
    x.baseCommit = run.baseCommit ∧ run.resultCommit = some c ∧ x.resultCommit = some c ∧
    s.Approved r c

/-- The run's own result has an approval. -/
def Site.Integrable (s : Site) (r : RunId) : Prop :=
  ∃ x c, s.db.store.runs.get? r = some x ∧ x.resultCommit = some c ∧ s.Approved r c

/-- The default branch has come to the commit. -/
def Site.Reached (h : History) (s : Site) (p : ProjectId) (c : Commit) : Prop :=
  ∃ repo, s.repository p = some repo ∧ h.isAncestor c repo.head = true

namespace Site.Grows

variable {r : RunId} {run : Run} {c : Commit} {p : ProjectId}

theorem approved (hg : s.Grows h s') (ha : s.Approved r c) : s'.Approved r c := by
  obtain ⟨i, x, hx, hr, hd, hc, hv⟩ := ha
  obtain ⟨x', hx', hw⟩ := hg.integration i x hx
  exact ⟨i, x', hx', hw.run.trans hr, hw.decision.trans hd, hw.commit.trans hc,
    by rw [hw.review]; exact hg.validated _ hv⟩

theorem knows (hg : s.Grows h s') (hk : s.Knows r run) : s'.Knows r run := by
  obtain ⟨x, hx, hp, hb⟩ := hk
  obtain ⟨x', hx', hp', hb', -⟩ := hg.run r x hx
  exact ⟨x', hx', hp'.trans hp, hb'.trans hb⟩

theorem vouches (hg : s.Grows h s') (hk : s.Vouches r run) : s'.Vouches r run := by
  obtain ⟨x, c, hx, hp, hb, hr, hc, ha⟩ := hk
  obtain ⟨x', hx', hp', hb', hc'⟩ := hg.run r x hx
  exact ⟨x', c, hx', hp'.trans hp, hb'.trans hb, hr, hc' c hc, hg.approved ha⟩

theorem integrable (hg : s.Grows h s') (hi : s.Integrable r) : s'.Integrable r := by
  obtain ⟨x, c, hx, hc, ha⟩ := hi
  obtain ⟨x', hx', -, -, hc'⟩ := hg.run r x hx
  exact ⟨x', c, hx', hc' c hc, hg.approved ha⟩

theorem reached (hg : s.Grows h s') (hr : s.Reached h p c) : s'.Reached h p c := by
  obtain ⟨repo, hrepo, ha⟩ := hr
  obtain ⟨repo', hrepo', ha'⟩ := hg.head p repo hrepo
  exact ⟨repo', hrepo', h.trans _ _ _ ha ha'⟩

theorem refl : s.Grows h s :=
  ⟨fun _ hv => hv, fun _ x hx => ⟨x, hx, rfl, rfl, fun _ hc => hc⟩, fun _ x hx => ⟨x, hx, .rfl⟩,
    fun _ repo hr => ⟨repo, hr, h.refl _⟩⟩

end Site.Grows

/-! ### The store -/

/-- A result is written once: a run that has one is past its activation. -/
structure ResultsSettled (d : Store) : Prop where
  submitted : ∀ r x, d.runs.get? r = some x → x.resultCommit.isSome → x.status ≠ .running ∧
    (d.snapshots.get? r).isSome
  running : ∀ r x, d.runs.get? r = some x → x.status = .running → (d.snapshots.get? r).isSome

/-- What the status of a run says about its evidence. -/
structure StatusSound (s : Site) : Prop where
  committing : ∀ r x, s.db.store.runs.get? r = some x → x.status = .committing → s.Integrable r
  recovering : ∀ r x, s.db.store.runs.get? r = some x → x.status = .recovering →
    x.recoveryDecision ≠ some .resumeSafe

/-- Nobody overwrites a result. -/
theorem RunWrite.result {r : RunId} {x x' : Run} (hm : RunWrite s s' r x wr x')
    (hr : x.resultCommit.isSome → x.status ≠ .running) {c : Commit} (hc : x.resultCommit = some c) :
    x'.resultCommit = some c := by
  rcases hm.carries with h | ⟨_, -, -, -, hx, -⟩
  · rw [h.result, hc]
  · exact absurd hx (hr (by rw [hc]; rfl))

/-- A run that is `RUNNING` after the write was before, or is activated by it. -/
theorem RunWrite.running {r : RunId} {x x' : Run} (hm : RunWrite s s' r x wr x')
    (hx' : x'.status = .running) : (x.status = .running ∧ x.Carries x') ∨
      (wr = .process (.activating r) ∧ x.Carries x' ∧ s.db.store.snapshots.get? r = none) := by
  cases hm with
  | kept h hst => exact .inl ⟨hst ▸ hx', h⟩
  | activated h hn => exact .inr ⟨rfl, h, hn⟩
  | aborted _ hst => rw [hst] at hx'; cases hx'
  | submitted _ _ _ hst => rw [hst] at hx'; cases hx'
  | rollback _ _ _ hst => rw [hst] at hx'; cases hx'
  | rolledBack _ _ hst => rw [hst] at hx'; cases hx'
  | waiting _ _ _ _ hst => rw [hst] at hx'; cases hx'
  | committed _ _ _ _ _ _ _ _ _ hst => rw [hst] at hx'; cases hx'
  | finalized _ _ _ _ _ hst => rw [hst] at hx'; cases hx'
  | ambiguous _ _ _ hst => rw [hst] at hx'; cases hx'
  | resumed _ _ hst => rw [hst] at hx'; cases hx'
  | forced _ hst => rw [hst] at hx'; cases hx'
  | blocked _ hst => rw [hst] at hx'; cases hx'
  | marked _ _ _ hst => rw [hst] at hx'; cases hx'

theorem ResultsSettled.step (hI : ResultsSettled s.db.store) (hs : StoreWritten s s' wr) :
    ResultsSettled s'.db.store := by
  have back : ∀ {r x'}, s'.db.store.runs.get? r = some x' →
      x'.status = .snapshotting ∧ x'.resultCommit = none ∨
        ∃ x, s.db.store.runs.get? r = some x ∧ RunWrite s s' r x wr x' := by
    intro r x' hx'
    cases hx : s.db.store.runs.get? r with
    | none => exact .inl ⟨(hs.newRun r x' hx hx').1, (hs.newRun r x' hx hx').2.1⟩
    | some x =>
      obtain ⟨x'', hx'', hm⟩ := hs.run r x hx
      obtain rfl : x' = x'' := by rw [hx'] at hx''; simpa using hx''
      exact .inr ⟨x, rfl, hm⟩
  refine ⟨fun r x' hx' hres => ?_, fun r x' hx' hst => ?_⟩
  · rcases back hx' with ⟨-, hn⟩ | ⟨x, hx, hm⟩
    · rw [hn] at hres; cases hres
    · have hsnap : (s.db.store.snapshots.get? r).isSome := by
        rcases hm.carries with hc | ⟨_, -, -, -, hrun, -⟩
        · exact (hI.submitted r x hx (hc.result ▸ hres)).2
        · exact hI.running r x hx hrun
      refine ⟨fun hst => ?_, hs.snapshot r hsnap⟩
      rcases hm.running hst with ⟨hrun, hc⟩ | ⟨-, -, hn⟩
      · exact (hI.submitted r x hx (hc.result ▸ hres)).1 hrun
      · rw [hn] at hsnap; cases hsnap
  · rcases back hx' with ⟨hn, -⟩ | ⟨x, hx, hm⟩
    · rw [hn] at hst; cases hst
    · rcases hm.running hst with ⟨hrun, -⟩ | ⟨hwr, -⟩
      · exact hs.snapshot r (hI.running r x hx hrun)
      · exact hs.activated r hwr

/-! ### The sites -/

theorem Repository.mergeFfOnly_some {repo repo' : Repository} {c : Commit}
    (hm : repo.mergeFfOnly h c = some repo') :
    (repo' = repo ∧ h.isAncestor c repo.head = true) ∨
      (repo' = { repo with head := c, reflog := c :: repo.reflog } ∧
        h.isAncestor repo.head c = true ∧ h.isAncestor c repo.head = false) := by
  unfold mergeFfOnly at hm
  split at hm
  · rename_i hc; exact .inl ⟨(Option.some.inj hm).symm, hc⟩
  · rename_i hc
    split at hm
    · rename_i ha; exact .inr ⟨(Option.some.inj hm).symm, ha, by simpa using hc⟩
    · cases hm

namespace World

/-- A branch never loses a commit. -/
theorem HeadMove.ancestor {p : ProjectId} {repo repo' : Repository}
    (hm : HeadMove h w p repo a repo') : h.isAncestor repo.head repo'.head = true := by
  cases hm with
  | kept hh => rw [hh]; exact h.refl _
  | advanced hc hh => rw [hh]; exact hc
  | merged _ _ _ _ hm =>
    rcases Repository.mergeFfOnly_some hm with ⟨rfl, -⟩ | ⟨rfl, hc, -⟩
    · exact h.refl _
    · exact hc

theorem repository_eq {p : ProjectId} {repo : Repository} :
    s.repository p = some repo ↔ ∃ x, s.projects.get? p = some x ∧ x.repository = repo := by
  rw [Site.repository, Option.map_eq_some_iff]

theorem step_grows (h : History) (config : Config) (w : World) (a : Action)
    (hI : ResultsSettled w.site.db.store) : w.site.Grows h (w.step h config a).site := by
  obtain ⟨wr, -, hs⟩ := store_step h config w a
  refine ⟨fun v hv => validated_mono h config w a hv, fun r x hx => ?_, hs.integration,
    fun p repo hrepo => ?_⟩
  · obtain ⟨x', hx', hm⟩ := hs.run r x hx
    refine ⟨x', hx', hm.project, hm.base, fun c hc => ?_⟩
    exact hm.result (fun hres => (hI.submitted r x hx hres).1) hc
  · obtain ⟨x, hx, rfl⟩ := repository_eq.1 hrepo
    obtain ⟨x', hx', hm⟩ := (head_step h config w a).forth hx
    exact ⟨_, repository_eq.2 ⟨x', hx', rfl⟩, hm.ancestor⟩

end World

/-! ### The stages -/

/-- The part of the evidence that a process at the stage relies on. -/
def Stage.Sound (h : History) (s : Site) : Stage → Prop
  | .reviewed a | .checked a _ | .verified a _ =>
    s.Knows a.runId a.run ∧ (a.runId, a.reviewId, a.run.resultCommit) ∈ s.validated ∧
      (a.action = .integrate → a.decision = .approve)
  | .prepared a _ | .merged a _ | .raised a _ _ => s.Vouches a.runId a.run
  | .observed a _ c | .recleaning a _ c _ | .retried a _ c _ =>
    s.Vouches a.runId a.run ∧ s.Reached h a.run.projectId c
  | .assessing rows _ _ _ => (rows.run.status = .committing → s.Integrable rows.runId) ∧
    (rows.run.status = .recovering → rows.run.recoveryDecision ≠ some .resumeSafe)
  | .resuming r status => (status = .committing → s.Integrable r) ∧ status ≠ .recovering
  | .resumed r run _ | .fastForwarding r run _ | .fastForwarded r run _ => s.Vouches r run
  | .resumeFinishing r _ c => ∃ x, s.db.store.runs.get? r = some x ∧ x.resultCommit = some c ∧
    s.Reached h x.projectId c
  | _ => True

theorem Stage.Sound.mono {stage : Stage} (hg : s.Grows h s') (hs : stage.Sound h s) :
    stage.Sound h s' := by
  cases stage with
  | reviewed a => exact ⟨hg.knows hs.1, hg.validated _ hs.2.1, hs.2.2⟩
  | checked a m => exact ⟨hg.knows hs.1, hg.validated _ hs.2.1, hs.2.2⟩
  | verified a m => exact ⟨hg.knows hs.1, hg.validated _ hs.2.1, hs.2.2⟩
  | prepared a i => exact hg.vouches hs
  | merged a i => exact hg.vouches hs
  | raised a i e => exact hg.vouches hs
  | observed a i c => exact ⟨hg.vouches hs.1, hg.reached hs.2⟩
  | recleaning a i c e => exact ⟨hg.vouches hs.1, hg.reached hs.2⟩
  | retried a i c e => exact ⟨hg.vouches hs.1, hg.reached hs.2⟩
  | assessing rows owner expected staleAfter => exact ⟨fun hc => hg.integrable (hs.1 hc), hs.2⟩
  | resuming r status => exact ⟨fun hc => hg.integrable (hs.1 hc), hs.2⟩
  | resumed r run i => exact hg.vouches hs
  | fastForwarding r run i => exact hg.vouches hs
  | fastForwarded r run i => exact hg.vouches hs
  | resumeFinishing r i c =>
    obtain ⟨x, hx, hc, hr⟩ := hs
    obtain ⟨x', hx', hp, -, hres⟩ := hg.run r x hx
    exact ⟨x', hx', hres c hc, by rw [hp]; exact hg.reached hr⟩
  | _ => trivial

/-- An exception leads to a stage that relies on no more. -/
theorem Stage.Sound.onError {stage stage' : Stage} {e : String} (hs : stage.Sound h s)
    (he : stage.onError e = .next stage') : stage'.Sound h s := by
  cases stage <;> simp only [Stage.onError, Progress.next.injEq, reduceCtorEq] at he <;> subst he
  case prepared => exact hs
  case merged => exact hs
  case observed => exact hs.1
  all_goals trivial

theorem validateReview_approve {d : Store} {r : RunId} {run : Run} {x : Review}
    {action : IntegrationAction} {decision : Decision} {verdict : Verdict}
    (hv : validateReview d r run x = .ok (action, decision, verdict)) :
    action = .integrate ↔ decision = .approve := by
  unfold validateReview at hv
  split at hv
  · obtain ⟨action', hc, hv⟩ := Except.bind_ok.1 hv
    obtain ⟨-, -, hv⟩ := Except.bind_ok.1 hv
    split at hv
    · cases hv
    · simp only [Except.pure_ok, Prod.mk.injEq] at hv
      obtain ⟨rfl, rfl, rfl⟩ := hv
      unfold classifyDecision at hc
      split at hc <;> cases hc <;> simp
  · cases hv

theorem applyRead_ok {d : Store} {enabled : Bool} {r : RunId} {owner : String} {a : Application}
    (ha : applyRead d enabled r owner = .ok a) : d.runs.get? r = some a.run ∧ a.runId = r ∧
      a.run.status = .reviewing ∧ (a.action = .integrate ↔ a.decision = .approve) := by
  unfold applyRead at ha
  split at ha
  · cases ha
  · rename_i run hrun
    split at ha
    · cases ha
    · rename_i hst
      split at ha
      · cases ha
      · split at ha
        · cases ha
        · obtain ⟨-, -, ha⟩ := Except.bind_ok.1 ha
          obtain ⟨⟨reviewId, review⟩, -, ha⟩ := Except.bind_ok.1 ha
          obtain ⟨⟨action, decision, verdict⟩, hv, ha⟩ := Except.bind_ok.1 ha
          cases ha
          exact ⟨hrun, rfl, not_not.1 hst, validateReview_approve hv⟩

/-- The preparation vouches for the run that was reviewed. -/
theorem prepareIntegration_vouches {now : Time} {a : Application} {m : Commit} {i : IntegrationId}
    {store : Store} (hv : (Stage.verified a m).Sound h s) (ha : a.action = .integrate)
    (hp : prepareIntegration s.db a m i now = .ok (.written store)) :
    (s.setStore store).Vouches a.runId a.run := by
  obtain ⟨hk, hval, hdec⟩ := hv
  obtain ⟨x, hg, hres, hsome, hbase, hins, hruns, -⟩ := prepareIntegration_ok hp
  have hrow := (decisionGuard_written hg).1
  obtain ⟨c, hc⟩ := Option.isSome_iff_exists.1 hsome
  obtain ⟨y, hy, hproj, -⟩ := hk
  obtain rfl : x = y := by rw [hrow] at hy; simpa using hy
  refine ⟨x.committing now, c, ?_, hproj, hbase, hres ▸ hc, hc, ?_⟩
  · rw [Site.setStore_store, hruns, Table.get?_update, hrow]
    simp [(decisionGuard_written hg).2.1]
  · refine ⟨i, a.integration x .prepared m none false now, ?_, rfl, hdec ha, hc, ?_⟩
    · rw [Site.setStore_store, Table.get?_insert hins, if_pos rfl]
    · rw [← hc, hres]; exact hval

/-- A run that was read `RECOVERING` is resumed only on a decision to resume it. -/
theorem assessRun_resumeSafe {rows : RunRows} {repo : Repository} {t : Option Worktree} {intact : Bool}
    (hd : assessRun h rows repo t intact = .decided .resumeSafe) (hr : rows.run.status = .recovering) :
    rows.run.recoveryDecision = some .resumeSafe := by
  have hst : assessByStatus h rows repo.head t = .resumeSafe := by
    unfold assessRun at hd
    simp only [hr, RunStatus.isTerminal, Bool.false_eq_true, false_and, if_false, reduceCtorEq] at hd
    split at hd
    · cases hd
    · split at hd
      · cases hd
      · split at hd
        · cases hd
        · split at hd
          · assumption
          · rename_i hne
            simp only [Assessment.decided.injEq] at hd
            exact absurd hd hne
  simp only [assessByStatus, hr] at hst
  split at hst
  · split at hst <;> cases hst
  · assumption
  · cases hst

theorem Stage.Sound.next {now : Time} {fresh : Nat} {stage stage' : Stage} (hI : StatusSound s)
    (hg : s.Grows h s') (hv : stage.Sound h s)
    (hs : stage.Succeeds h now fresh s s' (.next stage')) : stage'.Sound h s' := by
  have reached : ∀ {p : ProjectId} {repo : Repository}, s.repository p = some repo →
      s'.Reached h p repo.head := fun hr => hg.reached ⟨_, hr, h.refl _⟩
  have finishing : ∀ {r : RunId} {run : Run} {repo : Repository}, s.Vouches r run →
      s.repository run.projectId = some repo → run.resultCommit = some repo.head →
      ∃ x, s'.db.store.runs.get? r = some x ∧ x.resultCommit = some repo.head ∧
        s'.Reached h x.projectId repo.head := by
    intro r run repo hk hrepo hres
    obtain ⟨x, c, hx, hp, -, hc, hxc, -⟩ := hg.vouches hk
    obtain rfl : c = repo.head := by rw [hres] at hc; exact (Option.some.inj hc).symm
    exact ⟨x, hx, hxc, by rw [hp]; exact reached hrepo⟩
  cases hs with
  | apply ha =>
    obtain ⟨hrun, hr, -, hdec⟩ := applyRead_ok ha
    exact ⟨⟨_, by rw [hr]; exact hrun, rfl, rfl⟩, by rw [hr]; exact List.mem_cons_self, hdec.1⟩
  | reviewed => exact ⟨hg.knows hv.1, hg.validated _ hv.2.1, hv.2.2⟩
  | checked => exact ⟨hg.knows hv.1, hg.validated _ hv.2.1, hv.2.2⟩
  | prepare ha hp => exact prepareIntegration_vouches hv ha hp
  | prepared => exact hg.vouches hv
  | merged hrepo => exact ⟨hg.vouches hv, reached hrepo⟩
  | raisedDone hrepo => exact ⟨hv, reached hrepo⟩
  | recleaning => exact ⟨hg.vouches hv.1, hg.reached hv.2⟩
  | recover hr =>
    unfold assessRead at hr
    split at hr
    · cases hr
    · rename_i run hrun
      cases hr
      exact ⟨hI.committing _ _ hrun, hI.recovering _ _ hrun⟩
  | @decided rows _ _ _ _ decision _ _ hd hn =>
    subst hn
    cases decision with
    | resumeSafe => exact ⟨hv.1, fun hr => hv.2 hr (assessRun_resumeSafe hd hr)⟩
    | rollbackSafe => trivial
    | blockHuman => trivial
  | @resuming r status run i hst hrun =>
    rcases hst with hst | hst
    · obtain ⟨x, c, hx, hc, ha⟩ := hv.1 hst
      obtain rfl : run = x := by rw [hrun] at hx; simpa using hx
      exact ⟨run, c, hrun, rfl, rfl, hc, hc, ha⟩
    · exact absurd hst hv.2
  | resumedBase => exact hv
  | resumedDone hrepo hres => exact finishing hv hrepo hres
  | fastForwarding => exact hg.vouches hv
  | fastForwarded hrepo hres => exact finishing hv hrepo hres
  | _ => trivial

/-! ### Runs -/

theorem StatusSound.step (hI : StatusSound s) (hs : StoreWritten s s' wr) (hg : s.Grows h s')
    (hv : ∀ stage, wr = .process stage → stage.Sound h s) : StatusSound s' := by
  have back : ∀ {r x'}, s'.db.store.runs.get? r = some x' → x'.status = .snapshotting ∨
      ∃ x, s.db.store.runs.get? r = some x ∧ RunWrite s s' r x wr x' := by
    intro r x' hx'
    cases hx : s.db.store.runs.get? r with
    | none => exact .inl (hs.newRun r x' hx hx').1
    | some x =>
      obtain ⟨x'', hx'', hm⟩ := hs.run r x hx
      obtain rfl : x' = x'' := by rw [hx'] at hx''; simpa using hx''
      exact .inr ⟨x, rfl, hm⟩
  refine ⟨fun r x' hx' hst => ?_, fun r x' hx' hst => ?_⟩
  · rcases back hx' with hn | ⟨x, hx, hm⟩
    · rw [hn] at hst; cases hst
    · cases hm with
      | kept _ he => exact hg.integrable (hI.committing r x hx (he ▸ hst))
      | @committed a m i now _ hc hr ha hguard _ hres hsome _ hrow _ =>
        obtain ⟨-, hval, hdec⟩ := hv _ rfl
        obtain ⟨c, hxc⟩ := Option.isSome_iff_exists.1 hsome
        refine ⟨x', c, hx', hc.result.trans hxc, i, _, hrow, hr, hdec ha, hxc, ?_⟩
        rw [← hxc, hres, ← hr]
        exact hg.validated _ hval
      | activated _ _ he => rw [he] at hst; cases hst
      | aborted _ he => rw [he] at hst; cases hst
      | submitted _ _ _ he => rw [he] at hst; cases hst
      | rollback _ _ _ he => rw [he] at hst; cases hst
      | rolledBack _ _ he => rw [he] at hst; cases hst
      | waiting _ _ _ _ he => rw [he] at hst; cases hst
      | finalized _ _ _ _ _ he => rw [he] at hst; cases hst
      | ambiguous _ _ _ he => rw [he] at hst; cases hst
      | resumed _ _ he => rw [he] at hst; cases hst
      | forced _ he => rw [he] at hst; cases hst
      | blocked _ he => rw [he] at hst; cases hst
      | marked _ _ _ he => rw [he] at hst; cases hst
  · rcases back hx' with hn | ⟨x, hx, hm⟩
    · rw [hn] at hst; cases hst
    · cases hm with
      | kept _ he hd => rw [hd (he ▸ hst)]; exact hI.recovering r x hx (he ▸ hst)
      | rollback _ _ _ _ hd => rw [hd]; simp
      | ambiguous _ _ _ _ hd => rw [hd]; simp
      | forced _ _ hd => rw [hd]; simp
      | marked _ _ _ _ hd => rw [hd]; simp
      | activated _ _ he => rw [he] at hst; cases hst
      | aborted _ he => rw [he] at hst; cases hst
      | submitted _ _ _ he => rw [he] at hst; cases hst
      | rolledBack _ _ he => rw [he] at hst; cases hst
      | waiting _ _ _ _ he => rw [he] at hst; cases hst
      | committed _ _ _ _ _ _ _ _ _ he => rw [he] at hst; cases hst
      | finalized _ _ _ _ _ he => rw [he] at hst; cases hst
      | resumed _ _ he => rw [he] at hst; cases hst
      | blocked _ he => rw [he] at hst; cases hst

/-- The evidence of every process stands. -/
structure EvidenceInv (h : History) (w : World) : Prop where
  results : ResultsSettled w.site.db.store
  status : StatusSound w.site
  stages : ∀ pid stage, w.procs.get? pid = some stage → stage.Sound h w.site

/-- Nothing is known about a run that nobody has looked at yet. -/
theorem World.StartedBy.sound {stage : Stage} (hs : World.StartedBy w a stage) :
    stage.Sound h s := by
  cases hs with
  | operator hc => cases stage <;> trivial
  | thread _ hst =>
    rcases hst with ⟨-, -, p, rfl⟩ | ⟨r, -, -, rfl | ⟨-, rfl⟩ | ⟨-, rfl⟩⟩ <;> trivial
  | janitor => trivial

theorem EvidenceInv.step (h : History) (config : Config) (hI : EvidenceInv h w) (a : Action) :
    EvidenceInv h (w.step h config a) := by
  obtain ⟨wr, hwr, hs⟩ := World.store_step h config w a
  have hg := World.step_grows h config w a hI.results
  refine ⟨hI.results.step hs, hI.status.step hs hg ?_, fun pid stage' hst => ?_⟩
  · rintro stage rfl
    cases hwr with
    | process hp => exact hI.stages _ _ hp
  · rcases World.proc_origin h config w a hst with ⟨hp, -⟩ | ⟨rfl, hp, hstep⟩ | ⟨-, hby⟩
    · exact (hI.stages _ _ hp).mono hg
    · rename_i now fresh fault stage
      rcases stage.step_cases h now fresh fault w.site with ⟨e, he⟩ | ⟨-, hsucc⟩
      · rw [hstep, Prod.mk.injEq] at he
        exact ((hI.stages _ _ hp).onError he.2.symm).mono hg
      · rw [hstep] at hsucc
        exact (hI.stages _ _ hp).next hI.status hg hsucc
    · exact hby.sound

theorem evidenceInv_reachable {config : Config} {ok : Action → World → Prop}
    (hw : (machine h config).Reachable ok w) : EvidenceInv h w := by
  induction hw with
  | start hs =>
    obtain ⟨projects, -, rfl⟩ := hs
    exact ⟨⟨fun r x hx => (by cases hx), fun r x hx => (by cases hx)⟩,
      ⟨fun r x hx => (by cases hx), fun r x hx => (by cases hx)⟩, fun pid stage hst => (by cases hst)⟩
  | step a _ _ ih => exact ih.step h config a

end HermesOps
