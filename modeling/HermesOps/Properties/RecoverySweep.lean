import HermesOps.Model.RecoverySweep
import HermesOps.Properties.ProcessMoves
import HermesOps.Properties.Scenario

/-! The recovery sweep over any set of active runs. It works through the stale ones in order and stops at
    the first whose recovery raises, so that it reaches all of them and the orphan cleanup exactly
    when none does. Two recoveries that raise are singled out: of a run without a heartbeat, and of
    one that is to be blocked while another run holds the lock of its project. -/

namespace HermesOps

open Schemes

variable {h : History} {c : SweepCall} {s s' : Site}

/-! ### A recovery ends -/

/-- The steps a recovery has left at most; nothing for the stages it never comes to. -/
def Stage.recoveryRank : Stage → Option Nat
  | .recover .. => some 7
  | .assessing .. => some 6
  | .resuming .. | .rollbackSafe .. => some 5
  | .resumed .. | .forcing _ => some 4
  | .fastForwarding .. | .rollback _ => some 3
  | .fastForwarded .. | .cleaning _ => some 2
  | .resumeFinishing .. | .rollingBack _ | .abortSnapshotting _ | .blocking .. => some 1
  | _ => none

theorem Stage.step_rank {now : Time} {fresh n : Nat} {fault : Bool} {stage stage' : Stage}
    (hr : stage.recoveryRank = some n) (hs : stage.step h now fresh fault s = (s', .next stage')) :
    ∃ m, stage'.recoveryRank = some m ∧ m < n := by
  rcases stage.step_cases h now fresh fault s with ⟨e, he⟩ | ⟨-, hsucc⟩
  · rw [hs] at he
    cases stage <;> simp [Stage.onError, Stage.recoveryRank] at he hr
  · rw [hs] at hsucc
    dsimp only at hsucc
    generalize hp : Progress.next stage' = p at hsucc
    cases hsucc <;> cases hp <;> simp only [Stage.recoveryRank, Option.some.injEq, reduceCtorEq] at hr
    case inr.decided.refl _ _ _ _ _ decision _ _ hnext =>
      subst hr hnext
      cases decision <;> exact ⟨_, rfl, by omega⟩
    all_goals
      subst hr
      exact ⟨_, rfl, by omega⟩

theorem Stage.complete_exits {now : Time} {fresh : Nat} {fault : Nat → Bool} (n : Nat) :
    ∀ {s : Site} {stage : Stage} {m : Nat}, stage.recoveryRank = some m → m ≤ n →
      (stage.complete h now fresh fault n s).2.isSome = true := by
  induction n with
  | zero =>
    intro s stage m hr hm
    cases stage <;> simp only [Stage.recoveryRank, Option.some.injEq, reduceCtorEq] at hr <;> omega
  | succ n ih =>
    intro s stage m hr hm
    unfold Stage.complete
    rcases hs : stage.step h now fresh (fault n) s with ⟨s', progress⟩
    cases progress with
    | exit e => rfl
    | next stage' =>
      obtain ⟨k, hk, hlt⟩ := Stage.step_rank hr hs
      exact ih hk (by omega)

/-- The fuel of a recovery suffices. -/
theorem recoverRun_exits (h : History) (c : SweepCall) (s : Site) (r : RunId) :
    (Stage.complete h c.now (c.fresh r) (c.fault r) recoverySteps s
      (.recover r c.owner none (some c.staleSeconds))).2.isSome = true :=
  Stage.complete_exits recoverySteps rfl (Nat.le_refl _)

/-- A recovery is a run of its process in the machine, with nobody in between. -/
theorem complete_run (h : History) (config : Config) {now : Time} {fresh : Nat} {fault : Nat → Bool}
    {pid : Pid} (n : Nat) : ∀ {w : World} {stage : Stage}, w.procs.get? pid = some stage →
      ∃ as, (∀ a ∈ as, ∃ b, a = Action.process pid now fresh b) ∧
        ((machine h config).run w as).site = (stage.complete h now fresh fault n w.site).1 := by
  induction n with
  | zero => exact fun _ => ⟨[], by simp, rfl⟩
  | succ n ih =>
    intro w stage hp
    have hw := World.stepProcess_site h now fresh (fault n) hp
    rw [Stage.complete]
    rcases hs : stage.step h now fresh (fault n) w.site with ⟨s', progress⟩
    rw [hs] at hw
    cases progress with
    | exit e =>
      exact ⟨[.process pid now fresh (fault n)], by simp, hw⟩
    | next stage' =>
      have hp' : (w.stepProcess h pid now fresh (fault n)).procs.get? pid = some stage' := by
        simp [World.stepProcess, hp, hs]
      obtain ⟨as, has, hrun⟩ := ih hp'
      refine ⟨.process pid now fresh (fault n) :: as, fun a ha => ?_, ?_⟩
      · rcases List.mem_cons.1 ha with rfl | ha
        · exact ⟨_, rfl⟩
        · exact has a ha
      · rw [hw] at hrun
        exact hrun

/-! ### Recoveries that raise -/

/-- A stage that raises ends the recovery; otherwise its step is taken. -/
theorem complete_cases (h : History) (now : Time) (fresh : Nat) (fault : Nat → Bool) (n : Nat)
    (s : Site) {stage : Stage} (hx : ∀ e, stage.onError e = .exit .failed) :
    stage.complete h now fresh fault (n + 1) s = (s, some .failed) ∨
      ∃ s' p, stage.body h now fresh s = .ok (s', p) ∧
        stage.complete h now fresh fault (n + 1) s = match p with
          | .next stage' => stage'.complete h now fresh fault n s'
          | .exit e => (s', some e) := by
  have hstep : stage.step h now fresh (fault n) s = (s, .exit .failed) ∨
      ∃ s' p, stage.body h now fresh s = .ok (s', p) ∧
        stage.step h now fresh (fault n) s = (s', p) := by
    unfold Stage.step
    split
    · exact .inl (by rw [hx])
    · cases hb : stage.body h now fresh s with
      | error e => exact .inl (by simp only [hx])
      | ok y => exact .inr ⟨y.1, y.2, rfl, rfl⟩
  rcases hstep with hs | ⟨s', p, hb, hs⟩
  · exact .inl (by rw [Stage.complete, hs])
  · refine .inr ⟨s', p, hb, ?_⟩
    rw [Stage.complete, hs]
    cases p <;> rfl

/-- What the first step of a recovery reads of its run. -/
def readRows (s : Store) (r : RunId) (x : Run) : RunRows :=
  ⟨r, x, s.lockPresent r, (s.snapshots.get? r).isSome, getIntegration s r⟩

/-- A recovery raises at its first step, or assesses the rows it has read. -/
theorem recoverRun_assessing {r : RunId} {x : Run} (hx : s.db.store.runs.get? r = some x) :
    (recoverRun h c s r).2 = false ∨ recoverRun h c s r =
      match Stage.complete h c.now (c.fresh r) (c.fault r) 6 s (.assessing (readRows s.db.store r x)
          c.owner none (some c.staleSeconds)) with
      | (s, some .failed) | (s, none) => (s, false)
      | (s, some _) => (s, true) := by
  rcases complete_cases h c.now (c.fresh r) (c.fault r) 6 s
    (fun _ => rfl : ∀ e, (Stage.recover r c.owner none (some c.staleSeconds)).onError e = _) with
    hc | ⟨s', p, hb, hc⟩
  · exact .inl (by simp only [recoverRun, recoverySteps, hc])
  · obtain ⟨rows, hrows, hb⟩ := Except.bind_ok.1 hb
    simp only [assessRead, hx, Except.ok.injEq] at hrows
    subst hrows
    cases hb
    exact .inr (by simp only [recoverRun, recoverySteps, hc]; rfl)

theorem assessRun_active {rows : RunRows} {repo : Repository} {t : Option Worktree} {intact : Bool}
    (hactive : rows.run.status.isActive = true) : assessRun h rows repo t intact ≠ .noAction := by
  intro hna
  have hlive : ¬(rows.run.status.isTerminal = true ∧ rows.run.status ≠ .failed) := by
    cases hst : rows.run.status <;> simp [hst, RunStatus.isActive, RunStatus.isTerminal] at hactive ⊢
  unfold assessRun at hna
  dsimp only at hna
  rw [if_neg hlive] at hna
  repeat' (split at hna)
  all_goals cases hna

/-- The recovery of an active run without a heartbeat raises. -/
theorem recoverRun_no_heartbeat {r : RunId} {x : Run} (hx : s.db.store.runs.get? r = some x)
    (hactive : x.status.isActive = true) (hbeat : x.heartbeatAt = none) :
    (recoverRun h c s r).2 = false := by
  rcases recoverRun_assessing hx with hr | hr
  · exact hr
  · rw [hr]
    rcases complete_cases h c.now (c.fresh r) (c.fault r) 5 s
      (fun _ => rfl : ∀ e, (Stage.assessing (readRows s.db.store r x) c.owner none
        (some c.staleSeconds)).onError e = _) with hc | ⟨s', p, hb, -⟩
    · simp only [hc]
    · simp only [Stage.body, readRows] at hb
      split at hb
      · rename_i hna; exact absurd hna (assessRun_active hactive)
      · simp [hbeat] at hb

/-- The recovery of a run that is to be blocked raises while another run holds the project's lock. -/
theorem recoverRun_lock_taken {r : RunId} {x : Run} {l : Lock}
    (hx : s.db.store.runs.get? r = some x)
    (hblock : assessRun h (readRows s.db.store r x)
      ((s.repository x.projectId).getD ⟨false, false, false, 0, []⟩) (s.worktrees.get? r)
      (r ∉ s.damaged) = .decided .blockHuman)
    (hlock : s.db.store.locks.get? x.projectId = some l) (hother : l.runId ≠ r) :
    (recoverRun h c s r).2 = false := by
  rcases recoverRun_assessing hx with hr | hr
  · exact hr
  · rw [hr]
    rcases complete_cases h c.now (c.fresh r) (c.fault r) 5 s
      (fun _ => rfl : ∀ e, (Stage.assessing (readRows s.db.store r x) c.owner none
        (some c.staleSeconds)).onError e = _) with hc | ⟨s', p, hb, hc⟩
    · simp only [hc]
    · have hnext : s' = s ∧ p = .next (.blocking r c.owner) := by
        simp only [Stage.body] at hb
        have hblock' : assessRun h (readRows s.db.store r x)
            ((s.repository (readRows s.db.store r x).run.projectId).getD ⟨false, false, false, 0, []⟩)
            (s.worktrees.get? (readRows s.db.store r x).runId)
            ((readRows s.db.store r x).runId ∉ s.damaged) = .decided .blockHuman := hblock
        simp only [hblock'] at hb
        repeat' (split at hb)
        all_goals simp_all [Except.pure_ok, readRows]
      obtain ⟨rfl, rfl⟩ := hnext
      rcases complete_cases h c.now (c.fresh r) (c.fault r) 4 s'
        (fun _ => rfl : ∀ e, (Stage.blocking r c.owner).onError e = _) with hf | ⟨s₂, p₂, hb₂, -⟩
      · simp only [hc, hf]
      · exfalso
        obtain ⟨store, hstore, -⟩ := Except.bind_ok.1 hb₂
        obtain ⟨y, locks, hy, hl, -⟩ := applyBlock_ok hstore
        obtain rfl : x = y := by rw [hx] at hy; simpa using hy
        rcases ensureLockForBlock_ok hl with ⟨-, l', hl', hr'⟩ | ⟨l', -, -, hins⟩
        · rw [hlock, Option.some.injEq] at hl'
          exact hother (hl' ▸ hr')
        · rw [Table.get?_of_insert hins] at hlock; cases hlock

/-! ### The sweep -/

/-- The stale runs among the selected rows, in their order. -/
def SweepCall.staleRuns (c : SweepCall) (rows : List (RunId × Run)) : List RunId :=
  (rows.filter fun x => c.isStale x.2).map Prod.fst

/-- What a sweep has attempted when it stops is an initial part of the stale runs. -/
theorem sweepLoop_prefix (h : History) (c : SweepCall) (rows : List (RunId × Run)) : ∀ s : Site,
    (sweepLoop h c s rows).attempted <+: c.staleRuns rows := by
  induction rows with
  | nil => intro s; exact List.prefix_refl _
  | cons row rows ih =>
    intro s
    obtain ⟨r, x⟩ := row
    by_cases hst : c.isStale x = true
    · have hids : c.staleRuns ((r, x) :: rows) = r :: c.staleRuns rows := by
        simp [SweepCall.staleRuns, hst]
      rw [hids, sweepLoop, if_neg (not_not.2 hst)]
      rcases recoverRun h c s r with ⟨s', ok⟩
      cases ok with
      | false => exact ⟨_, rfl⟩
      | true => exact (List.prefix_cons_inj r).2 (ih s')
    · have hids : c.staleRuns ((r, x) :: rows) = c.staleRuns rows := by
        simp [SweepCall.staleRuns, hst]
      rw [hids, sweepLoop, if_pos hst]
      exact ih s

end HermesOps
