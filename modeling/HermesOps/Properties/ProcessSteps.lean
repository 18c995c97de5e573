import HermesOps.Model.Frames
import HermesOps.Schemes.Transaction

/-! The steps of the processes as a relation: one constructor for each way a step succeeds, with the
    reads that allowed it, and `Stage.step_cases`, which says that every step is one of these or
    raises and changes nothing. Proofs about processes go by cases on it. -/

namespace HermesOps

/-- A step that did not raise, with the site and the progress it leads to. -/
inductive Stage.Succeeds (h : History) (now : Time) (fresh : Nat) (s : Site) :
    Stage → Site → Progress → Prop
  | begin {projectId owner store} :
    beginReserve s.db.store projectId (s.projects.get? projectId) fresh owner now = .ok store →
    Succeeds h now fresh s (.begin projectId owner) (s.setStore store) (.next (.snapshotting fresh))
  | snapshotting {r run worktrees} : s.db.store.runs.get? r = some run →
    s.worktrees.insert r ⟨true, true, true, true, run.baseCommit⟩ = some worktrees →
    Succeeds h now fresh s (.snapshotting r) { s with worktrees } (.next (.activating r))
  | activating {r store} : beginActivate s.db.store r now = .ok store →
    Succeeds h now fresh s (.activating r) (s.setStore store) (.exit (.begun r))
  | unwinding {r} :
    Succeeds h now fresh s (.unwinding r) (s.cleanupWorktree r) (.next (.aborting r))
  | aborting {r} :
    Succeeds h now fresh s (.aborting r) (s.setStore (beginAbort s.db.store r now)) (.exit .failed)
  | submit {r run} : submitRead s.db.store r = .ok run →
    Succeeds h now fresh s (.submit r) s (.next (.submitting r run))
  | submitting {r run commit} : submitCheck h run (s.worktrees.get? r) = .ok commit →
    Succeeds h now fresh s (.submitting r run) s (.next (.submitted r commit))
  | submitted {r commit} :
    Succeeds h now fresh s (.submitted r commit)
      (s.setStore (submitWrite s.db.store r commit now)) (.exit .submitted)
  | rollback {r store} : rollbackStart s.db.store r (r ∉ s.damaged) now = .ok store →
    Succeeds h now fresh s (.rollback r) (s.setStore store) (.next (.cleaning r))
  | cleaning {r} :
    Succeeds h now fresh s (.cleaning r) (s.cleanupWorktree r) (.next (.rollingBack r))
  | rollingBack {r} :
    Succeeds h now fresh s (.rollingBack r) (s.setStore (rollbackFinish s.db.store r now))
      (.exit .rolledBack)
  | apply {r owner enabled a} : applyRead s.db.store enabled r owner = .ok a →
    Succeeds h now fresh s (.apply r owner)
      { s with validated := (r, a.reviewId, a.run.resultCommit) :: s.validated }
      (.next (.reviewed a))
  | reviewed {a repo mainBefore} : s.repository a.run.projectId = some repo →
    validateGitState h a repo (s.worktrees.get? a.runId) = .ok mainBefore →
    Succeeds h now fresh s (.reviewed a) s (.next (.checked a mainBefore))
  | checked {a mainBefore snapshots} :
    verifySnapshot s.db.store a.runId (a.runId ∉ s.damaged) now = .ok snapshots →
    Succeeds h now fresh s (.checked a mainBefore) (s.setStore { s.db.store with snapshots })
      (.next (.verified a mainBefore))
  | refused {a mainBefore result} : decisionGuard s.db a = .ok (.refused result) →
    Succeeds h now fresh s (.verified a mainBefore) s (.exit (.integration result))
  | prepare {a mainBefore store} : a.action = .integrate →
    prepareIntegration s.db a mainBefore fresh now = .ok (.written store) →
    Succeeds h now fresh s (.verified a mainBefore) (s.setStore store) (.next (.prepared a fresh))
  | record {a mainBefore store result} : a.action ≠ .integrate →
    recordNonIntegration s.db a mainBefore fresh fresh now = .ok (.written (store, result)) →
    Succeeds h now fresh s (.verified a mainBefore) (s.setStore store)
      (.exit (.integration result))
  | prepared {a i repo commit moved} : s.repository a.run.projectId = some repo →
    a.run.resultCommit = some commit → repo.mergeFfOnly h commit = some moved →
    Succeeds h now fresh s (.prepared a i) (s.setRepository a.run.projectId moved)
      (.next (.merged a i))
  | merged {a i repo} : s.repository a.run.projectId = some repo →
    a.run.resultCommit = some repo.head →
    Succeeds h now fresh s (.merged a i) (s.cleanupWorktree a.runId)
      (.next (.observed a i repo.head))
  | observed {a i mainAfter store} :
    finalizeCompleted s.db.store a.runId i mainAfter now = .ok store →
    Succeeds h now fresh s (.observed a i mainAfter) (s.setStore store)
      (.exit (.integration ⟨.integrate, .completed, true, false⟩))
  | raisedDone {a i e repo} : s.repository a.run.projectId = some repo →
    a.run.resultCommit = some repo.head →
    Succeeds h now fresh s (.raised a i e) s (.next (.recleaning a i repo.head e))
  | raisedOpen {a i e repo} : s.repository a.run.projectId = some repo →
    a.run.resultCommit ≠ some repo.head →
    Succeeds h now fresh s (.raised a i e) s (.next (.ambiguous a i (some repo.head) e))
  | recleaning {a i mainAfter e} :
    Succeeds h now fresh s (.recleaning a i mainAfter e) (s.cleanupWorktree a.runId)
      (.next (.retried a i mainAfter e))
  | retried {a i mainAfter e store} :
    finalizeCompleted s.db.store a.runId i mainAfter now = .ok store →
    Succeeds h now fresh s (.retried a i mainAfter e) (s.setStore store)
      (.exit (.integration ⟨.integrate, .completed, true, false⟩))
  | ambiguous {a i mainAfter reason} :
    Succeeds h now fresh s (.ambiguous a i mainAfter reason)
      (s.setStore (markAmbiguousFailure s.db.store a.runId i reason mainAfter now)) (.exit .failed)
  | recover {r owner expected staleAfter rows} : assessRead s.db.store r = .ok rows →
    Succeeds h now fresh s (.recover r owner expected staleAfter) s
      (.next (.assessing rows owner expected staleAfter))
  | noAction {rows owner expected staleAfter} :
    Succeeds h now fresh s (.assessing rows owner expected staleAfter) s (.exit .recovered)
  | decided {rows owner expected staleAfter repo decision next} :
    repo = (s.repository rows.run.projectId).getD ⟨false, false, false, 0, []⟩ →
    assessRun h rows repo (s.worktrees.get? rows.runId) (rows.runId ∉ s.damaged) =
      .decided decision →
    next = (match decision with
      | .resumeSafe => .resuming rows.runId rows.run.status
      | .rollbackSafe =>
        .rollbackSafe rows.runId (rows.run.status = .snapshotting ∧ ¬rows.snapshotPresent)
      | .blockHuman => .blocking rows.runId owner) →
    Succeeds h now fresh s (.assessing rows owner expected staleAfter) s (.next next)
  | resumeReady {r status} : status = .running ∨ status = .reviewing →
    Succeeds h now fresh s (.resuming r status)
      (s.setStore (resumeHeartbeat s.db.store r status now)) (.exit .recovered)
  | resuming {r status run i} : status = .committing ∨ status = .recovering →
    s.db.store.runs.get? r = some run → getIntegration s.db.store r = some i →
    Succeeds h now fresh s (.resuming r status) s (.next (.resumed r run i.1))
  | resumedBase {r run i repo} : s.repository run.projectId = some repo →
    repo.head = run.baseCommit →
    Succeeds h now fresh s (.resumed r run i) s (.next (.fastForwarding r run i))
  | resumedDone {r run i repo} : s.repository run.projectId = some repo →
    run.resultCommit = some repo.head →
    Succeeds h now fresh s (.resumed r run i) (s.cleanupWorktree r)
      (.next (.resumeFinishing r i repo.head))
  | fastForwarding {r run i repo commit moved} : s.repository run.projectId = some repo →
    run.resultCommit = some commit → repo.mergeFfOnly h commit = some moved →
    Succeeds h now fresh s (.fastForwarding r run i) (s.setRepository run.projectId moved)
      (.next (.fastForwarded r run i))
  | fastForwarded {r run i repo} : s.repository run.projectId = some repo →
    run.resultCommit = some repo.head →
    Succeeds h now fresh s (.fastForwarded r run i) (s.cleanupWorktree r)
      (.next (.resumeFinishing r i repo.head))
  | resumeFinishing {r i head store} : resumeFinish s.db.store r i head now = .ok store →
    Succeeds h now fresh s (.resumeFinishing r i head) (s.setStore store) (.exit .recovered)
  | rollbackBare {r} :
    Succeeds h now fresh s (.rollbackSafe r true) (s.cleanupWorktree r)
      (.next (.abortSnapshotting r))
  | rollbackForced {r run} : s.db.store.runs.get? r = some run → run.status = .committing →
    Succeeds h now fresh s (.rollbackSafe r false) s (.next (.forcing r))
  | rollbackPlain {r run} : s.db.store.runs.get? r = some run → run.status ≠ .committing →
    Succeeds h now fresh s (.rollbackSafe r false) s (.next (.rollback r))
  | abortSnapshotting {r} :
    Succeeds h now fresh s (.abortSnapshotting r)
      (s.setStore (HermesOps.abortSnapshotting s.db.store r now)) (.exit .recovered)
  | forcing {r} :
    Succeeds h now fresh s (.forcing r) (s.setStore (forceRollback s.db.store r now))
      (.next (.rollback r))
  | blocking {r owner store} : applyBlock s.db.store r owner fresh now = .ok store →
    Succeeds h now fresh s (.blocking r owner) (s.setStore store) (.exit .recovered)

/-! ### Every step is one of these -/

theorem orFail_ok {α : Type} {e : String} {o : Option α} {a : α} :
    orFail e o = .ok a ↔ o = some a := by
  cases o <;> simp [orFail]

theorem Site.settleMerge_ok {s s' : Site} {r : RunId} {repo : Repository} {c : Option Commit}
    (h : s.settleMerge r repo c = .ok s') : c = some repo.head ∧ s' = s.cleanupWorktree r := by
  unfold settleMerge at h
  split at h
  · cases h
  · rename_i hc
    split at h
    · cases h
    · simp only [Except.ok.injEq] at h
      exact ⟨by simpa using hc, h.symm⟩

theorem prepareIntegration_refused {d : Database} {a : Application} {c : Commit} {i : Nat}
    {now : Time} {result : IntegrationResult}
    (h : prepareIntegration d a c i now = .ok (.refused result)) :
    decisionGuard d a = .ok (.refused result) := by
  unfold prepareIntegration at h
  obtain ⟨g, hg, h⟩ := Except.bind_ok.1 h
  cases g with
  | refused r =>
    simp only [Except.pure_ok, Settlement.refused.injEq] at h
    rw [hg, h]
  | written run =>
    simp only at h
    split at h
    · cases h
    · split at h
      · cases h
      · split at h <;> simp [pure, Except.pure] at h

theorem recordNonIntegration_refused {d : Database} {a : Application} {c : Commit} {i j : Nat}
    {now : Time} {result : IntegrationResult}
    (h : recordNonIntegration d a c i j now = .ok (.refused result)) :
    decisionGuard d a = .ok (.refused result) := by
  unfold recordNonIntegration at h
  obtain ⟨g, hg, h⟩ := Except.bind_ok.1 h
  cases g with
  | refused r =>
    simp only [Except.pure_ok, Settlement.refused.injEq] at h
    rw [hg, h]
  | written run =>
    simp only at h
    split at h
    · split at h <;> simp [pure, Except.pure] at h
    · split at h <;> simp [pure, Except.pure] at h
    · cases h

theorem Stage.succeeds_of_body {h : History} {now : Time} {fresh : Nat} {s s' : Site}
    {stage : Stage} {p : Progress} (hb : stage.body h now fresh s = .ok (s', p)) :
    stage.Succeeds h now fresh s s' p := by
  cases stage <;> simp only [Stage.body, Except.bind_ok, Except.pure_ok, orFail_ok, Prod.mk.injEq,
    Site.runRepository] at hb
  case begin => obtain ⟨_, hs, rfl, rfl⟩ := hb; exact .begin hs
  case snapshotting => obtain ⟨_, hr, _, hw, rfl, rfl⟩ := hb; exact .snapshotting hr hw
  case activating => obtain ⟨_, hs, rfl, rfl⟩ := hb; exact .activating hs
  case unwinding => obtain ⟨rfl, rfl⟩ := hb; exact .unwinding
  case aborting => obtain ⟨rfl, rfl⟩ := hb; exact .aborting
  case submit => obtain ⟨_, hs, rfl, rfl⟩ := hb; exact .submit hs
  case submitting => obtain ⟨_, hs, rfl, rfl⟩ := hb; exact .submitting hs
  case submitted => obtain ⟨rfl, rfl⟩ := hb; exact .submitted
  case rollback => obtain ⟨_, hs, rfl, rfl⟩ := hb; exact .rollback hs
  case cleaning => obtain ⟨rfl, rfl⟩ := hb; exact .cleaning
  case rollingBack => obtain ⟨rfl, rfl⟩ := hb; exact .rollingBack
  case apply => obtain ⟨_, hs, rfl, rfl⟩ := hb; exact .apply hs
  case reviewed => obtain ⟨_, hr, _, hs, rfl, rfl⟩ := hb; exact .reviewed hr hs
  case checked => obtain ⟨_, hs, rfl, rfl⟩ := hb; exact .checked hs
  case verified a mainBefore =>
    by_cases ha : a.action = .integrate
    · simp only [if_pos ha, Except.bind_ok] at hb
      obtain ⟨g, hg, hb⟩ := hb
      cases g with
      | refused result =>
        simp only [Except.pure_ok, Prod.mk.injEq] at hb
        obtain ⟨rfl, rfl⟩ := hb
        exact .refused (prepareIntegration_refused hg)
      | written store =>
        simp only [Except.pure_ok, Prod.mk.injEq] at hb
        obtain ⟨rfl, rfl⟩ := hb
        exact .prepare ha hg
    · simp only [if_neg ha, Except.bind_ok] at hb
      obtain ⟨g, hg, hb⟩ := hb
      cases g with
      | refused result =>
        simp only [Except.pure_ok, Prod.mk.injEq] at hb
        obtain ⟨rfl, rfl⟩ := hb
        exact .refused (recordNonIntegration_refused hg)
      | written x =>
        simp only [Except.pure_ok, Prod.mk.injEq] at hb
        obtain ⟨rfl, rfl⟩ := hb
        exact .record ha hg
  case prepared => obtain ⟨_, hr, _, hc, _, hm, rfl, rfl⟩ := hb; exact .prepared hr hc hm
  case merged =>
    obtain ⟨_, hr, _, hs, rfl, rfl⟩ := hb
    obtain ⟨hc, rfl⟩ := Site.settleMerge_ok hs
    exact .merged hr hc
  case observed => obtain ⟨_, hs, rfl, rfl⟩ := hb; exact .observed hs
  case raised =>
    obtain ⟨_, hr, hb⟩ := hb
    split at hb
    · rename_i hc
      simp only [Except.pure_ok, Prod.mk.injEq] at hb
      obtain ⟨rfl, rfl⟩ := hb
      exact .raisedDone hr hc
    · rename_i hc
      simp only [Except.pure_ok, Prod.mk.injEq] at hb
      obtain ⟨rfl, rfl⟩ := hb
      exact .raisedOpen hr hc
  case recleaning => obtain ⟨rfl, rfl⟩ := hb; exact .recleaning
  case retried => obtain ⟨_, hs, rfl, rfl⟩ := hb; exact .retried hs
  case ambiguous => obtain ⟨rfl, rfl⟩ := hb; exact .ambiguous
  case recover => obtain ⟨_, hs, rfl, rfl⟩ := hb; exact .recover hs
  case assessing rows owner expected staleAfter =>
    split at hb
    · simp only [Except.pure_ok, Prod.mk.injEq] at hb
      obtain ⟨rfl, rfl⟩ := hb
      exact .noAction
    · rename_i decision hdec
      split at hb
      · cases hb
      · split at hb
        · cases hb
        · split at hb
          · cases hb
          · cases decision <;> simp only [Except.pure_ok, Prod.mk.injEq] at hb <;>
              obtain ⟨rfl, rfl⟩ := hb <;> exact .decided rfl hdec rfl
  case resuming r status =>
    split at hb
    · rename_i hst
      simp only [Except.pure_ok, Prod.mk.injEq] at hb
      obtain ⟨rfl, rfl⟩ := hb
      exact .resumeReady hst
    · split at hb
      · cases hb
      · rename_i hst
        simp only [Except.bind_ok, Except.pure_ok, orFail_ok, Prod.mk.injEq] at hb
        obtain ⟨_, hr, _, hi, rfl, rfl⟩ := hb
        exact .resuming (not_not.1 hst) hr hi
  case resumed =>
    obtain ⟨_, hr, hb⟩ := hb
    split at hb
    · rename_i hc
      simp only [Except.pure_ok, Prod.mk.injEq] at hb
      obtain ⟨rfl, rfl⟩ := hb
      exact .resumedBase hr hc
    · simp only [Except.bind_ok, Except.pure_ok, Prod.mk.injEq] at hb
      obtain ⟨_, hs, rfl, rfl⟩ := hb
      obtain ⟨hc, rfl⟩ := Site.settleMerge_ok hs
      exact .resumedDone hr hc
  case fastForwarding => obtain ⟨_, hr, _, hc, _, hm, rfl, rfl⟩ := hb; exact .fastForwarding hr hc hm
  case fastForwarded =>
    obtain ⟨_, hr, _, hs, rfl, rfl⟩ := hb
    obtain ⟨hc, rfl⟩ := Site.settleMerge_ok hs
    exact .fastForwarded hr hc
  case resumeFinishing => obtain ⟨_, hs, rfl, rfl⟩ := hb; exact .resumeFinishing hs
  case rollbackSafe r withoutSnapshot =>
    cases withoutSnapshot with
    | true =>
      simp only [if_true, Except.pure_ok, Prod.mk.injEq] at hb
      obtain ⟨rfl, rfl⟩ := hb
      exact .rollbackBare
    | false =>
      simp only [Bool.false_eq_true, if_false, Except.bind_ok, orFail_ok] at hb
      obtain ⟨run, hr, hb⟩ := hb
      split at hb
      · rename_i hc
        simp only [Except.pure_ok, Prod.mk.injEq] at hb
        obtain ⟨rfl, rfl⟩ := hb
        exact .rollbackForced hr hc
      · rename_i hc
        simp only [Except.pure_ok, Prod.mk.injEq] at hb
        obtain ⟨rfl, rfl⟩ := hb
        exact .rollbackPlain hr hc
  case abortSnapshotting => obtain ⟨rfl, rfl⟩ := hb; exact .abortSnapshotting
  case forcing => obtain ⟨rfl, rfl⟩ := hb; exact .forcing
  case blocking => obtain ⟨_, hs, rfl, rfl⟩ := hb; exact .blocking hs

/-- A step succeeds, or raises and changes nothing; with a fault it raises. -/
theorem Stage.step_cases (h : History) (now : Time) (fresh : Nat) (fault : Bool) (s : Site)
    (stage : Stage) :
    (∃ e, stage.step h now fresh fault s = (s, stage.onError e)) ∨
      (fault = false ∧ stage.Succeeds h now fresh s (stage.step h now fresh fault s).1
        (stage.step h now fresh fault s).2) := by
  unfold Stage.step
  split
  · exact .inl ⟨_, rfl⟩
  · rename_i hf
    cases hb : stage.body h now fresh s with
    | error e => exact .inl ⟨e, rfl⟩
    | ok x => exact .inr ⟨by simpa using hf, Stage.succeeds_of_body hb⟩

/-- The processes write the run store only. -/
theorem Stage.Succeeds.frame {h : History} {now : Time} {fresh : Nat} {s s' : Site} {stage : Stage}
    {p : Progress} (hs : stage.Succeeds h now fresh s s' p) :
    s'.db.queue = s.db.queue ∧ s'.db.graph = s.db.graph ∧ s'.damaged = s.damaged := by
  cases hs <;> exact ⟨rfl, rfl, rfl⟩

theorem Stage.step_frame (h : History) (now : Time) (fresh : Nat) (fault : Bool) (s : Site)
    (stage : Stage) :
    (stage.step h now fresh fault s).1.db.queue = s.db.queue ∧
      (stage.step h now fresh fault s).1.db.graph = s.db.graph := by
  rcases stage.step_cases h now fresh fault s with ⟨e, he⟩ | ⟨-, hs⟩
  · rw [he]; exact ⟨rfl, rfl⟩
  · exact ⟨hs.frame.1, hs.frame.2.1⟩

end HermesOps
