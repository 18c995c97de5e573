import HermesOps.Properties.Evidence
import HermesOps.Properties.Scenario

/-! Only reviewed results reach a default branch. The evidence that a merging process holds stands
    to the end, so that the commit it moves the branch to is the approved result of its run; that
    the branch still is at the base of the run is checked in an earlier step, and holds at the move
    exactly when nobody has moved the branch since. -/

namespace HermesOps

open Schemes

variable {h : History} {config : Config} {s : Site} {w : World} {a : Action}

/-- The step moves the default branch of `p`; what is done outside the programs does not count. -/
structure MovesBranch (h : History) (config : Config) (a : Action) (w : World) (p : ProjectId)
    (old new : Commit) : Prop where
  start : ∃ repo, w.site.repository p = some repo ∧ repo.head = old
  stop : ∃ repo, (w.step h config a).site.repository p = some repo ∧ repo.head = new
  moved : new ≠ old
  own : ∀ e, a ≠ .environment e

/-- `old` is the base of the run, and `new` its result, which passed an approving review. -/
structure ReviewedMove (s : Site) (p : ProjectId) (r : RunId) (old new : Commit) : Prop where
  run : ∃ x, s.db.store.runs.get? r = some x ∧ x.projectId = p ∧ x.baseCommit = old ∧
    x.resultCommit = some new
  approved : s.Approved r new

/-- The run that a process is about to fast-forward to. -/
def mergedRun (a : Action) (w : World) : Option RunId :=
  match a with
  | .process pid _ _ false =>
    (w.procs.get? pid).bind fun stage => stage.merging.map Prod.fst
  | _ => none

/-- Every move of the step is the reviewed one of the run that is merged. -/
def MergesReviewed (h : History) (config : Config) (a : Action) (w : World) : Prop :=
  ∀ p old new, MovesBranch h config a w p old new →
    ∃ r, mergedRun a w = some r ∧ ReviewedMove w.site p r old new

/-- The stage fast-forwards a branch that has left the base of its run. -/
def Stage.mergesStale (h : History) (s : Site) (stage : Stage) : Bool :=
  stage.merging.any fun m => (s.repository m.2.projectId).any fun repo =>
    m.2.resultCommit.any fun c => repo.head ≠ m.2.baseCommit ∧
      h.isAncestor repo.head c = true ∧ h.isAncestor c repo.head = false

/-- The action is the step of such a stage. -/
def mergesStale (h : History) (a : Action) (w : World) : Bool :=
  match a with
  | .process pid _ _ false => (w.procs.get? pid).any fun stage => stage.mergesStale h w.site
  | _ => false

/-! ### One step -/

/-- A merging process holds the approved result of its run. -/
theorem Stage.Sound.vouches {stage : Stage} {r : RunId} {run : Run} (hs : stage.Sound h s)
    (hm : stage.merging = some (r, run)) : s.Vouches r run := by
  cases stage <;> simp only [Stage.merging, Option.some.injEq, Prod.mk.injEq, reduceCtorEq] at hm
  all_goals
    obtain ⟨rfl, rfl⟩ := hm
    exact hs

/-- What a fast-forward does when Git allows it. -/
theorem Stage.step_merging {now : Time} {fresh : Nat} {stage : Stage} {r : RunId} {run : Run}
    {repo moved : Repository} {c : Commit} (hm : stage.merging = some (r, run))
    (hrepo : s.repository run.projectId = some repo) (hc : run.resultCommit = some c)
    (hmoved : repo.mergeFfOnly h c = some moved) :
    (stage.step h now fresh false s).1 = s.setRepository run.projectId moved := by
  cases stage <;> simp only [Stage.merging, Option.some.injEq, Prod.mk.injEq, reduceCtorEq] at hm
  all_goals
    obtain ⟨rfl, rfl⟩ := hm
    simp [Stage.step, Stage.body, Site.runRepository, hrepo, hc, hmoved, orFail, bind, Except.bind,
      pure, Except.pure]

theorem Site.setRepository_repository {p : ProjectId} {repo moved : Repository}
    (hrepo : s.repository p = some repo) : (s.setRepository p moved).repository p = some moved := by
  obtain ⟨x, hx, rfl⟩ := World.repository_eq.1 hrepo
  exact World.repository_eq.2 ⟨{ x with repository := moved },
    by rw [Site.setRepository, Table.get?_updateAt, if_pos rfl, hx]; rfl, rfl⟩

/-- The move of a branch that was still at the base. -/
theorem MovesBranch.reviewed {p : ProjectId} {old new : Commit} (hI : EvidenceInv h w)
    (hn : mergesStale h a w = false) (hm : MovesBranch h config a w p old new) :
    ∃ r, mergedRun a w = some r ∧ ReviewedMove w.site p r old new := by
  obtain ⟨⟨repo, hrepo, rfl⟩, ⟨repo', hrepo', rfl⟩, hne, hown⟩ := hm
  obtain ⟨x, hx, rfl⟩ := World.repository_eq.1 hrepo
  obtain ⟨x', hx', rfl⟩ := World.repository_eq.1 hrepo'
  obtain ⟨y, hy, hmove⟩ := (World.head_step h config w a).forth hx
  obtain rfl : x' = y := by rw [hx'] at hy; simpa using hy
  cases hmove with
  | kept hh => exact absurd hh hne
  | advanced => exact absurd rfl (hown _)
  | @merged pid now fresh stage r run c _ hp hst hproj hc hmerge =>
    rcases Repository.mergeFfOnly_some hmerge with ⟨heq, -⟩ | ⟨heq, hac, hca⟩
    · rw [heq] at hne; exact absurd rfl hne
    · obtain ⟨y, c', hy, hyp, hyb, hrc, hyc, happ⟩ := (hI.stages _ _ hp).vouches hst
      obtain rfl : c = c' := by rw [hc] at hrc; simpa using hrc
      have hbase : x.repository.head = run.baseCommit := by
        by_contra hb
        have hstale : mergesStale h (.process pid now fresh false) w = true := by
          simp [mergesStale, hp, Stage.mergesStale, hst, hproj, hrepo, hc, hb, hac, hca]
        rw [hstale] at hn; cases hn
      rw [heq, hbase]
      exact ⟨r, by simp [mergedRun, hp, hst], ⟨y, hy, hyp.trans hproj, hyb, hyc⟩, happ⟩

/-- A branch that has left the base is moved nevertheless. -/
theorem movesBranch_of_stale (config : Config) (hn : mergesStale h a w = true) :
    ∃ p old new r run, MovesBranch h config a w p old new ∧ mergedRun a w = some r ∧
      (∃ pid now fresh stage, a = .process pid now fresh false ∧ w.procs.get? pid = some stage ∧
        stage.merging = some (r, run)) ∧ old ≠ run.baseCommit ∧ run.resultCommit = some new := by
  unfold mergesStale at hn
  split at hn
  · rename_i pid now fresh
    obtain ⟨stage, hp, hs⟩ := (Option.any_eq_true ..).1 hn
    obtain ⟨⟨r, run⟩, hm, hs⟩ := (Option.any_eq_true ..).1 hs
    obtain ⟨repo, hrepo, hs⟩ := (Option.any_eq_true ..).1 hs
    obtain ⟨c, hc, hs⟩ := (Option.any_eq_true ..).1 hs
    obtain ⟨hb, hac, hca⟩ := of_decide_eq_true hs
    have hmoved : repo.mergeFfOnly h c = some { repo with head := c, reflog := c :: repo.reflog } := by
      simp [Repository.mergeFfOnly, hac, hca]
    refine ⟨run.projectId, repo.head, c, r, run, ⟨⟨repo, hrepo, rfl⟩,
      ⟨{ repo with head := c, reflog := c :: repo.reflog }, ?_, rfl⟩, ?_, by simp⟩,
      by simp [mergedRun, hp, hm], ⟨pid, now, fresh, stage, rfl, hp, hm⟩, hb, hc⟩
    · have hsite := World.stepProcess_site h now fresh false hp
      simp only [World.step]
      rw [hsite, Stage.step_merging hm hrepo hc hmoved]
      exact Site.setRepository_repository hrepo
    · rintro rfl
      rw [h.refl] at hca; cases hca
  · cases hn

theorem mergesReviewed_iff (hI : EvidenceInv h w) :
    MergesReviewed h config a w ↔ mergesStale h a w = false := by
  constructor
  · intro hm
    by_contra hn
    obtain ⟨p, old, new, r, run, hmv, hr, ⟨pid, now, fresh, stage, rfl, hp, hst⟩, hb, hc⟩ :=
      movesBranch_of_stale config (by simpa using hn)
    obtain ⟨r', hr', ⟨x, hx, -, hxb, -⟩, -⟩ := hm p old new hmv
    obtain rfl : r = r' := by rw [hr] at hr'; simpa using hr'
    obtain ⟨y, c, hy, -, hyb, -⟩ := (hI.stages _ _ hp).vouches hst
    obtain rfl : x = y := by rw [hx] at hy; simpa using hy
    exact hb (hxb.symm.trans hyb)
  · intro hn p old new hmv
    exact hmv.reviewed hI hn

/-! ### Runs -/

/-- In a run, every move of a default branch goes from the base of the merged run to its approved
    result, exactly when no branch has left the base before its merge. -/
theorem merges_reviewed (h : History) (config : Config) {w : World}
    (hw : (machine h config).start w) (as : List Action) :
    (machine h config).Along (fun a w => MergesReviewed h config a w) w as ↔
      (machine h config).Along (fun a w => mergesStale h a w = false) w as :=
  Machine.Reachable.along_congr (fun _ _ hs => mergesReviewed_iff (evidenceInv_reachable hs))
    (fun _ _ => trivial) (.of_start hw)

set_option maxRecDepth 20000 in
theorem merges_reviewed_once :
    Scenario.system.Along (fun a w => MergesReviewed Scenario.history Scenario.config a w)
      Scenario.start (Scenario.integrating 0 1 0 ++ [.process 2 105 0 false]) :=
  (merges_reviewed Scenario.history Scenario.config Scenario.system_start _).2 (by decide)

/-- An integrator stalls before its fast-forward; its run is blocked, rolled back, and another run of
    the project is integrated. -/
def mergeAfterRollback : List Action :=
  Scenario.integrating 0 3 0 ++
    [ .environment (.worktree 0 ⟨true, true, true, false, 3⟩),
      .operator 3 (.recover 0 "recovery" none none),
      .process 3 105 0 false,
      .process 3 106 0 false,
      .process 3 107 0 false,
      .operator 4 (.rollback 0),
      .process 4 108 0 false,
      .process 4 109 0 false,
      .process 4 110 0 false ] ++
    Scenario.integrating 1 2 5 ++
    [ .process 7 111 0 false,
      .process 7 112 0 false,
      .process 7 113 0 false ]

set_option maxRecDepth 20000 in
/-- The stalled integrator moves the branch from the result of the other run, which is nobody's
    base. -/
theorem late_merge_leaves_no_base :
    ¬∀ (h : History) (config : Config) (w : World) (as : List Action),
      (machine h config).start w → (machine h config).Along (fun a w =>
        ∀ p old new, MovesBranch h config a w p old new →
          ∃ r, ReviewedMove w.site p r old new) w as := by
  intro hall
  obtain ⟨-, hlast, -⟩ := (Machine.along_append _ mergeAfterRollback _).1
    (hall Scenario.history Scenario.config Scenario.start
      (mergeAfterRollback ++ [.process 2 114 0 false]) Scenario.system_start)
  have hbases : ∀ x ∈ (Scenario.system.run Scenario.start mergeAfterRollback).site.db.store.runs.rows,
      x.2.baseCommit = 0 := by decide
  obtain ⟨r, ⟨x, hx, -, hb, -⟩, -⟩ := hlast 0 2 3
    ⟨⟨_, rfl, by decide⟩, ⟨_, rfl, by decide⟩, by decide, by simp⟩
  have := hbases _ (Table.mem_rows_iff.2 hx)
  rw [hb] at this; cases this

end HermesOps
