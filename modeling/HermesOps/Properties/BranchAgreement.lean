import HermesOps.Properties.ReviewedMerges
import HermesOps.Properties.SingleWriter

/-! A run that was undone has not reached the default branch, and a completed one has. The second half
    holds in every run: the commit is observed on the branch before the run is completed. For the
    first nobody looks: the last transaction of a rollback does not read the branch, and a merge does
    not read what its run has become. -/

namespace HermesOps

open Schemes

variable {h : History} {config : Config} {s s' : Site} {w : World} {a : Action} {wr : Writer}

/-- The run was rolled back, or failed and gave its lock back. -/
def Store.undone (d : Store) (r : RunId) (x : Run) : Bool :=
  x.status = .cancelled ∨ (x.status = .failed ∧ d.lockPresent r = false)

/-- The default branch was fast-forwarded to the result of the run. -/
def Site.hasMerged (s : Site) (x : Run) : Bool :=
  (s.repository x.projectId).any fun repo => x.resultCommit.any fun c => c ∈ repo.reflog

/-- The branches and the ends of the runs agree. -/
structure BranchAgrees (h : History) (s : Site) : Prop where
  undone : ∀ r x, s.db.store.runs.get? r = some x → s.db.store.undone r x = true →
    s.hasMerged x = false
  completed : ∀ r x, s.db.store.runs.get? r = some x → x.status = .completed →
    ∃ c, x.resultCommit = some c ∧ s.Reached h x.projectId c

/-- The transaction at the stage ends, without an integration, a run that has been merged. -/
def Stage.undoesMerged (s : Site) : Stage → Bool
  | .rollingBack r | .abortSnapshotting r | .aborting r => (s.db.store.runs.get? r).any s.hasMerged
  | _ => false

/-- The fast-forward at the stage brings in the result of a run of the project that was undone. -/
def Stage.mergesUndone (h : History) (s : Site) (stage : Stage) : Bool :=
  stage.merging.any fun m => (s.repository m.2.projectId).any fun repo =>
    m.2.resultCommit.any fun c => h.isAncestor repo.head c = true ∧
      h.isAncestor c repo.head = false ∧ s.db.store.runs.any fun r x =>
        x.projectId = m.2.projectId ∧ x.resultCommit = some c ∧ s.db.store.undone r x = true

/-- The action is a step of either kind. -/
def partsFromBranch (h : History) (a : Action) (w : World) : Bool :=
  match a with
  | .process pid _ _ false => (w.procs.get? pid).any fun stage =>
    stage.undoesMerged w.site || stage.mergesUndone h w.site
  | _ => false

/-! ### One step -/

theorem Store.undone_iff {d : Store} {r : RunId} {x : Run} :
    d.undone r x = true ↔ x.status = .cancelled ∨ (x.status = .failed ∧ d.lockPresent r = false) := by
  rw [Store.undone, decide_eq_true_iff]

theorem Site.hasMerged_iff {x : Run} : s.hasMerged x = true ↔
    ∃ repo c, s.repository x.projectId = some repo ∧ x.resultCommit = some c ∧ c ∈ repo.reflog := by
  constructor
  · intro hm
    obtain ⟨repo, hrepo, hm⟩ := (Option.any_eq_true ..).1 hm
    obtain ⟨c, hc, hm⟩ := (Option.any_eq_true ..).1 hm
    exact ⟨repo, c, hrepo, hc, of_decide_eq_true hm⟩
  · rintro ⟨repo, c, hrepo, hc, hm⟩
    simp [Site.hasMerged, hrepo, hc, hm]

/-- A run that is undone after a write was undone before, or is ended by it. -/
theorem RunWrite.undone {r : RunId} {x x' : Run} (hm : RunWrite s s' r x wr x')
    (hO : LocksOpen s.db.store) (hx : s.db.store.runs.get? r = some x) (hu : s'.db.store.undone r x' = true) :
    x.Carries x' ∧ (s.db.store.undone r x = true ∨ wr = .process (.rollingBack r) ∨
      wr = .process (.abortSnapshotting r) ∨ wr = .process (.aborting r)) := by
  rw [Store.undone_iff] at hu
  cases hm with
  | @kept wr x' hc hst =>
    rw [hst] at hu
    rw [Store.undone_iff]
    exact ⟨hc, .inl (hu.imp_right fun hf => ⟨hf.1, hO.of_terminal hx (by rw [hf.1]; rfl)⟩)⟩
  | aborted hc => exact ⟨hc, .inr (.inr (.inr rfl))⟩
  | rolledBack hc hst =>
    rcases hst with rfl | rfl
    · exact ⟨hc, .inr (.inl rfl)⟩
    · exact ⟨hc, .inr (.inr (.inl rfl))⟩
  | activated _ _ hst => rw [hst] at hu; simp at hu
  | submitted _ _ _ hst => rw [hst] at hu; simp at hu
  | rollback _ _ _ hst => rw [hst] at hu; simp at hu
  | waiting _ _ _ _ hst => rw [hst] at hu; simp at hu
  | committed _ _ _ _ _ _ _ _ _ hst => rw [hst] at hu; simp at hu
  | finalized _ _ _ _ _ hst => rw [hst] at hu; simp at hu
  | ambiguous _ _ _ hst => rw [hst] at hu; simp at hu
  | resumed _ _ hst => rw [hst] at hu; simp at hu
  | forced _ hst => rw [hst] at hu; simp at hu
  | blocked _ hst => rw [hst] at hu; simp at hu
  | marked _ _ _ hst => rw [hst] at hu; simp at hu

/-- A run that is completed after a write was before, or its result has been seen on the branch. -/
theorem RunWrite.completed {r : RunId} {x x' : Run} (hm : RunWrite s s' r x wr x')
    (hx : s.db.store.runs.get? r = some x) (hv : ∀ stage, wr = .process stage → stage.Sound h s)
    (hd : x'.status = .completed) : x.Carries x' ∧ (x.status = .completed ∨
      ∃ c, x.resultCommit = some c ∧ s.Reached h x.projectId c) := by
  cases hm with
  | kept hc hst => exact ⟨hc, .inl (hst ▸ hd)⟩
  | @finalized stage a i c _ hc hr hst _ hres =>
    subst hr
    have hsound : s.Vouches a.runId a.run ∧ s.Reached h a.run.projectId c := by
      rcases hst with rfl | ⟨e, rfl⟩
      · exact hv _ rfl
      · exact hv _ rfl
    obtain ⟨⟨y, _, hy, hp, -⟩, hreached⟩ := hsound
    obtain rfl : x = y := by rw [hx] at hy; simpa using hy
    exact ⟨hc, .inr ⟨c, hres, by rw [hp]; exact hreached⟩⟩
  | resumed hc _ _ =>
    obtain ⟨y, hy, hres, hreached⟩ := hv _ rfl
    obtain rfl : x = y := by rw [hx] at hy; simpa using hy
    exact ⟨hc, .inr ⟨_, hres, hreached⟩⟩
  | activated _ _ hst => rw [hst] at hd; cases hd
  | aborted _ hst => rw [hst] at hd; cases hd
  | submitted _ _ _ hst => rw [hst] at hd; cases hd
  | rollback _ _ _ hst => rw [hst] at hd; cases hd
  | rolledBack _ _ hst => rw [hst] at hd; cases hd
  | waiting _ _ _ _ hst => rw [hst] at hd; cases hd
  | committed _ _ _ _ _ _ _ _ _ hst => rw [hst] at hd; cases hd
  | ambiguous _ _ _ hst => rw [hst] at hd; cases hd
  | forced _ hst => rw [hst] at hd; cases hd
  | blocked _ hst => rw [hst] at hd; cases hd
  | marked _ _ _ hst => rw [hst] at hd; cases hd

/-- The move that a process makes of the branch of its run. -/
structure Fastforwards (h : History) (a : Action) (w w' : World) (run : Run) (repo : Repository)
    (c : Commit) : Prop where
  merging : ∃ pid now fresh stage r, a = .process pid now fresh false ∧
    w.procs.get? pid = some stage ∧ stage.merging = some (r, run)
  repository : w.site.repository run.projectId = some repo
  result : run.resultCommit = some c
  forward : h.isAncestor repo.head c = true ∧ h.isAncestor c repo.head = false
  site : w'.site = w.site.setRepository run.projectId
    { repo with head := c, reflog := c :: repo.reflog }

/-- Only such a move adds to what the branches were fast-forwarded to. -/
theorem World.step_reflogs (h : History) (config : Config) (w : World) (a : Action) :
    (∀ p repo', (w.step h config a).site.repository p = some repo' →
      ∃ repo, w.site.repository p = some repo ∧ repo'.reflog = repo.reflog) ∨
    ∃ run repo c, Fastforwards h a w (w.step h config a) run repo c := by
  by_cases hf : ∃ run repo c, Fastforwards h a w (w.step h config a) run repo c
  · exact .inr hf
  · refine .inl fun p repo' hrepo' => ?_
    obtain ⟨x', hx', rfl⟩ := World.repository_eq.1 hrepo'
    obtain ⟨x, hx, hmove⟩ := (World.head_step h config w a).back hx'
    have hrepo : w.site.repository p = some x.repository := World.repository_eq.2 ⟨x, hx, rfl⟩
    refine ⟨x.repository, hrepo, ?_⟩
    cases hmove with
    | kept _ hl => exact hl
    | advanced _ _ hl => exact hl
    | @merged pid now fresh stage r run c _ hp hst hproj hc hmerge =>
      subst hproj
      have hsite : (w.step h config (.process pid now fresh false)).site =
          w.site.setRepository run.projectId x'.repository := by
        simp only [World.step]
        rw [World.stepProcess_site h now fresh false hp, Stage.step_merging hst hrepo hc hmerge]
      rcases Repository.mergeFfOnly_some hmerge with ⟨heq, -⟩ | ⟨heq, hac, hca⟩
      · rw [heq]
      · exact absurd ⟨run, x.repository, c, ⟨pid, now, fresh, stage, r, rfl, hp, hst⟩, hrepo, hc,
          ⟨hac, hca⟩, by rw [hsite, heq]⟩ hf

theorem Site.setRepository_repository_ne {p q : ProjectId} {moved : Repository} (hpq : q ≠ p) :
    (s.setRepository p moved).repository q = s.repository q := by
  simp only [Site.repository, Site.setRepository, Table.get?_updateAt, if_neg hpq]

/-- The rows that are left when a branch is moved. -/
theorem BranchAgrees.fastforwarded {w' : World} {run : Run} {repo : Repository} {c : Commit}
    (hB : BranchAgrees h w.site) (hn : partsFromBranch h a w = false)
    (hf : Fastforwards h a w w' run repo c) {r : RunId} {x : Run}
    (hx : w'.site.db.store.runs.get? r = some x) (hu : w'.site.db.store.undone r x = true) :
    w'.site.hasMerged x = false := by
  obtain ⟨⟨pid, now, fresh, stage, q, rfl, hp, hst⟩, hrepo, hc, hforward, hsite⟩ := hf
  rw [hsite, Site.setRepository_db] at hx hu
  have hold := hB.undone r x hx hu
  by_contra hm
  rw [Bool.not_eq_false, hsite] at hm
  obtain ⟨repo', c', hrepo', hc', hmem⟩ := Site.hasMerged_iff.1 hm
  by_cases hproj : x.projectId = run.projectId
  · rw [hproj, Site.setRepository_repository hrepo] at hrepo'
    obtain rfl := Option.some.inj hrepo'
    rcases List.mem_cons.1 hmem with rfl | hmem
    · have hparts : partsFromBranch h (.process pid now fresh false) w = true := by
        have hany : w.site.db.store.runs.any (fun r x => x.projectId = run.projectId ∧
            x.resultCommit = some c' ∧ w.site.db.store.undone r x = true) = true :=
          Table.any_iff.2 ⟨r, x, hx, decide_eq_true ⟨hproj, hc', hu⟩⟩
        have hmu : stage.mergesUndone h w.site = true :=
          (Option.any_eq_true ..).2 ⟨_, hst, (Option.any_eq_true ..).2 ⟨_, hrepo,
            (Option.any_eq_true ..).2 ⟨_, hc, decide_eq_true ⟨hforward.1, hforward.2, hany⟩⟩⟩⟩
        simp [partsFromBranch, hp, hmu]
      rw [hparts] at hn; cases hn
    · rw [Site.hasMerged_iff.2 ⟨repo, c', by rw [hproj]; exact hrepo, hc', hmem⟩] at hold
      cases hold
  · rw [Site.setRepository_repository_ne hproj] at hrepo'
    rw [Site.hasMerged_iff.2 ⟨repo', c', hrepo', hc', hmem⟩] at hold
    cases hold

theorem BranchAgrees.step (config : Config) (hI : EvidenceInv h w) (hO : LocksOpen w.site.db.store)
    (hB : BranchAgrees h w.site) (hn : partsFromBranch h a w = false) :
    BranchAgrees h (w.step h config a).site := by
  obtain ⟨wr, hwr, hs⟩ := World.store_step h config w a
  have hg := World.step_grows h config w a hI.results
  have hv : ∀ stage, wr = .process stage → stage.Sound h w.site := by
    rintro stage rfl
    cases hwr with
    | process hp => exact hI.stages _ _ hp
  have back : ∀ {r x'}, (w.step h config a).site.db.store.runs.get? r = some x' →
      x'.status = .snapshotting ∨ ∃ x, w.site.db.store.runs.get? r = some x ∧
        RunWrite w.site (w.step h config a).site r x wr x' := by
    intro r x' hx'
    cases hx : w.site.db.store.runs.get? r with
    | none => exact .inl (hs.newRun r x' hx hx').1
    | some x =>
      obtain ⟨x'', hx'', hm⟩ := hs.run r x hx
      obtain rfl : x' = x'' := by rw [hx'] at hx''; simpa using hx''
      exact .inr ⟨x, rfl, hm⟩
  refine ⟨fun r x' hx' hu => ?_, fun r x' hx' hd => ?_⟩
  · rcases World.step_reflogs h config w a with hsame | ⟨run, repo, c, hf⟩
    · by_contra hm
      obtain ⟨repo', c, hrepo', hc, hmem⟩ := Site.hasMerged_iff.1 (by simpa using hm)
      obtain ⟨repo, hrepo, hlog⟩ := hsame _ _ hrepo'
      rcases back hx' with hst | ⟨x, hx, hmw⟩
      · rw [Store.undone_iff, hst] at hu; simp at hu
      · obtain ⟨hcar, hwhy⟩ := hmw.undone hO hx hu
        have hmerged : w.site.hasMerged x = true := Site.hasMerged_iff.2
          ⟨repo, c, by rw [← hcar.project]; exact hrepo, hcar.result ▸ hc, hlog ▸ hmem⟩
        rcases hwhy with hold | hwhy
        · rw [hB.undone r x hx hold] at hmerged; cases hmerged
        · have hparts : partsFromBranch h a w = true := by
            rcases hwhy with rfl | rfl | rfl <;> cases hwr with
            | process hp => simp [partsFromBranch, hp, Stage.undoesMerged, hx, hmerged]
          rw [hparts] at hn; cases hn
    · exact hB.fastforwarded hn hf hx' hu
  · rcases back hx' with hst | ⟨x, hx, hmw⟩
    · rw [hst] at hd; cases hd
    · obtain ⟨hcar, hwhy⟩ := hmw.completed hx hv hd
      have hreached : ∃ c, x.resultCommit = some c ∧ w.site.Reached h x.projectId c := by
        rcases hwhy with hold | hnew
        · exact hB.completed r x hx hold
        · exact hnew
      obtain ⟨c, hc, hr⟩ := hreached
      exact ⟨c, hcar.result.trans hc, by rw [hcar.project]; exact hg.reached hr⟩

/-- After such a step a run that was undone has its result on the branch. -/
theorem not_branchAgrees_of_parts (config : Config) (hn : partsFromBranch h a w = true) :
    ¬BranchAgrees h (w.step h config a).site := by
  intro hB
  unfold partsFromBranch at hn
  split at hn
  · rename_i pid now fresh
    obtain ⟨stage, hp, hn⟩ := (Option.any_eq_true ..).1 hn
    have hsite : (w.step h config (.process pid now fresh false)).site =
        (stage.step h now fresh false w.site).1 := World.stepProcess_site h now fresh false hp
    rw [hsite] at hB
    have ended : ∀ {r : RunId} {x x' : Run}, w.site.hasMerged x = true → x.Carries x' →
        (stage.step h now fresh false w.site).1.projects = w.site.projects →
        (stage.step h now fresh false w.site).1.db.store.runs.get? r = some x' →
        (stage.step h now fresh false w.site).1.db.store.undone r x' = true → False := by
      intro r x x' hm hcar hproj hx' hu
      obtain ⟨repo, c, hrepo, hc, hmem⟩ := Site.hasMerged_iff.1 hm
      have hm' : (stage.step h now fresh false w.site).1.hasMerged x' = true :=
        Site.hasMerged_iff.2 ⟨repo, c, by
          rw [Site.repository, hproj, hcar.project]; exact hrepo, hcar.result.trans hc, hmem⟩
      rw [hB.undone r x' hx' hu] at hm'; cases hm'
    rcases Bool.or_eq_true_iff.1 hn with hu | hu
    · cases stage with
      | rollingBack r =>
        obtain ⟨x, hx, hm⟩ := (Option.any_eq_true ..).1 hu
        refine @ended r x (x.rolledBack now) hm ⟨rfl, rfl, rfl⟩ rfl ?_ (Store.undone_iff.2 (.inl rfl))
        change (rollbackFinish w.site.db.store r now).runs.get? r = _
        simp [rollbackFinish, hx]
      | abortSnapshotting r =>
        obtain ⟨x, hx, hm⟩ := (Option.any_eq_true ..).1 hu
        refine @ended r x (x.rolledBack now) hm ⟨rfl, rfl, rfl⟩ rfl ?_ (Store.undone_iff.2 (.inl rfl))
        change (rollbackFinish w.site.db.store r now).runs.get? r = _
        simp [rollbackFinish, hx]
      | aborting r =>
        obtain ⟨x, hx, hm⟩ := (Option.any_eq_true ..).1 hu
        refine @ended r x (x.aborted now) hm ⟨rfl, rfl, rfl⟩ rfl ?_
          (Store.undone_iff.2 (.inr ⟨rfl, ?_⟩))
        · change (beginAbort w.site.db.store r now).runs.get? r = _
          simp [beginAbort, hx]
        · change (beginAbort w.site.db.store r now).lockPresent r = false
          rw [Store.lockPresent, Table.any_eq_false_iff]
          intro p l hl
          rw [beginAbort, Store.releaseLock, Table.get?_delete, Option.filter_eq_some_iff] at hl
          simpa using hl.2
      | _ => cases hu
    · obtain ⟨⟨q, run⟩, hst, hu⟩ := (Option.any_eq_true ..).1 hu
      obtain ⟨repo, hrepo, hu⟩ := (Option.any_eq_true ..).1 hu
      obtain ⟨c, hc, hu⟩ := (Option.any_eq_true ..).1 hu
      obtain ⟨hac, hca, hany⟩ := of_decide_eq_true hu
      obtain ⟨r, x, hx, hux⟩ := Table.any_iff.1 hany
      obtain ⟨hproj, hres, hund⟩ := of_decide_eq_true hux
      have hmerge : repo.mergeFfOnly h c =
          some { repo with head := c, reflog := c :: repo.reflog } := by
        simp [Repository.mergeFfOnly, hac, hca]
      rw [Stage.step_merging hst hrepo hc hmerge] at hB
      have := hB.undone r x hx hund
      rw [Site.hasMerged_iff.2 ⟨_, c, by rw [hproj]; exact Site.setRepository_repository hrepo, hres,
        List.mem_cons_self⟩] at this
      cases this
  · cases hn

/-! ### Runs -/

theorem branchAgrees_start {w : World} (hw : (machine h config).start w) : BranchAgrees h w.site := by
  obtain ⟨projects, -, rfl⟩ := hw
  exact ⟨fun r x hx => (by cases hx), fun r x hx => (by cases hx)⟩

/-- In a run, no run that was undone has its result on the default branch, and every completed one
    has, exactly when no merged run is rolled back and no run that was rolled back is merged. -/
theorem branch_agreement (h : History) (config : Config) {w : World}
    (hw : (machine h config).start w) (as : List Action) :
    (machine h config).Along (fun a w => BranchAgrees h (w.step h config a).site) w as ↔
      (machine h config).Along (fun a w => partsFromBranch h a w = false) w as := by
  have hB := branchAgrees_start hw
  have hr : (machine h config).Reachable (fun _ _ => True) w := .of_start hw
  clear hw
  induction as generalizing w with
  | nil => exact Iff.rfl
  | cons a as ih =>
    by_cases hn : partsFromBranch h a w = false
    · have hstep := hB.step config (evidenceInv_reachable hr) (locksOpen_reachable hr) hn
      exact and_congr (iff_of_true hstep hn) (ih hstep (.step a hr trivial))
    · refine iff_of_false (fun hm => ?_) fun hm => hn hm.1
      exact not_branchAgrees_of_parts config (by simpa using hn) hm.1

/-- The integrator is killed after its fast-forward, recovery finds the checkout dirty and blocks, and
    the operator rolls back. -/
def rollbackAfterMerge : List Action :=
  Scenario.integrating 0 1 0 ++
    [ .process 2 105 0 false,
      .kill 2,
      .environment (.repository 0 true true false),
      .operator 3 (.recover 0 "recovery" none none),
      .process 3 106 0 false,
      .process 3 107 0 false,
      .process 3 108 0 false,
      .operator 4 (.rollback 0),
      .process 4 109 0 false,
      .process 4 110 0 false ]

set_option maxRecDepth 20000 in
theorem branch_agreement_integrated :
    Scenario.system.Along
      (fun a w => BranchAgrees Scenario.history (w.step Scenario.history Scenario.config a).site)
      Scenario.start (Scenario.integrating 0 1 0 ++
        [.process 2 105 0 false, .process 2 106 0 false, .process 2 107 0 false]) :=
  (branch_agreement Scenario.history Scenario.config Scenario.system_start _).2 (by decide)

set_option maxRecDepth 20000 in
/-- The rollback does not look at the branch. -/
theorem rollback_keeps_merged_branch :
    ¬∀ (h : History) (config : Config) (w : World) (as : List Action),
      (machine h config).start w → (machine h config).Along
        (fun a w => BranchAgrees h (w.step h config a).site) w as := by
  intro hall
  obtain ⟨-, hlast, -⟩ := (Machine.along_append _ rollbackAfterMerge _).1
    (hall Scenario.history Scenario.config Scenario.start
      (rollbackAfterMerge ++ [.process 4 111 0 false]) Scenario.system_start)
  exact not_branchAgrees_of_parts Scenario.config (by decide) hlast

end HermesOps
