import HermesOps.Properties.ProcessMoves
import HermesOps.Properties.Scenario

/-! A run that is being written holds the lock of its project, and a completed or cancelled run keeps
    its status. Six transactions write the status of a run without a look at the old one, so both
    hold exactly as long as none of them comes late: after the activation of a run that has lost
    its lock, or on a run that has ended by then. That an open lock belongs to an open run needs no
    such condition. -/

namespace HermesOps

open Schemes

/-- The statuses of a run in which its project is written to. -/
def RunStatus.isWriting : RunStatus → Bool
  | .snapshotting | .running | .reviewing | .committing => true
  | _ => false

/-- The statuses a run must not leave. -/
def RunStatus.isFinal : RunStatus → Bool
  | .completed | .cancelled => true
  | _ => false

/-- The run holds the lock of its project. -/
def Store.holdsLock (s : Store) (r : RunId) (x : Run) : Bool :=
  (s.locks.get? x.projectId).any fun l => l.runId = r

/-- What a step from `s` must leave: every run that is written to holds its lock, so that a project
    has one such run at most, and the final runs are as they were. -/
structure WriterDiscipline (s s' : Store) : Prop where
  locked : ∀ r x, s'.runs.get? r = some x → x.status.isWriting = true → s'.holdsLock r x = true
  single : ∀ r q x y, s'.runs.get? r = some x → s'.runs.get? q = some y →
    x.status.isWriting = true → y.status.isWriting = true → x.projectId = y.projectId → r = q
  final : ∀ r x, s.runs.get? r = some x → x.status.isFinal = true →
    ∃ x', s'.runs.get? r = some x' ∧ x'.status = x.status

/-- The transaction that the stage is about to make comes too late for its run. -/
def Stage.overwrites (s : Store) (fresh : Nat) : Stage → Bool
  | .activating r =>
    (s.runs.get? r).any fun x => (s.snapshots.get? r).isNone ∧ ¬s.holdsLock r x
  | .aborting r | .forcing r => (s.runs.get? r).any fun x => x.status.isFinal
  | .rollingBack r | .abortSnapshotting r => (s.runs.get? r).any fun x => x.status = .completed
  | .blocking r _ =>
    (s.runs.get? r).any fun x => x.status.isFinal ∧
      (s.locks.get? x.projectId).all (fun l => l.runId = r) ∧ s.canAskApproval r fresh
  | _ => false

/-- The run whose status the stage writes without a look at the old one. -/
def Stage.blindWrite : Stage → Option RunId
  | .activating r | .aborting r | .forcing r | .rollingBack r | .abortSnapshotting r
  | .blocking r _ => some r
  | _ => none

/-- The action is the step of a process whose transaction comes too late. -/
def overwritesRun (a : Action) (w : World) : Bool :=
  match a with
  | .process pid _ fresh false => (w.procs.get? pid).any fun stage => stage.overwrites w.db.store fresh
  | _ => false

variable {w w' : World} {a : Action} {s s' : Site} {wr : Writer}

/-! ### Open locks -/

/-- A lock belongs to a run of its project that has not ended. -/
def LocksOpen (s : Store) : Prop :=
  ∀ p l, s.locks.get? p = some l →
    ∃ x, s.runs.get? l.runId = some x ∧ x.projectId = p ∧ x.status.isTerminal = false

/-- A write ends a run only where it releases its lock. -/
theorem RunWrite.terminal {r : RunId} {x x' : Run} (h : RunWrite s s' r x wr x')
    (hx : x.status.isTerminal = false) (hx' : x'.status.isTerminal = true) :
    wr.releases = some r := by
  cases h with
  | kept _ hst => rw [hst, hx] at hx'; cases hx'
  | aborted => rfl
  | rolledBack _ hst => rcases hst with rfl | rfl <;> rfl
  | finalized _ hr hst => subst hr; rcases hst with rfl | ⟨e, rfl⟩ <;> rfl
  | resumed => rfl
  | activated _ _ hst => rw [hst] at hx'; cases hx'
  | submitted _ _ _ hst => rw [hst] at hx'; cases hx'
  | rollback _ _ _ hst => rw [hst] at hx'; cases hx'
  | waiting _ _ _ _ hst => rw [hst] at hx'; cases hx'
  | committed _ _ _ _ _ _ _ _ _ hst => rw [hst] at hx'; cases hx'
  | ambiguous _ _ _ hst => rw [hst] at hx'; cases hx'
  | forced _ hst => rw [hst] at hx'; cases hx'
  | blocked _ hst => rw [hst] at hx'; cases hx'
  | marked _ _ _ hst => rw [hst] at hx'; cases hx'

theorem LocksOpen.step (hI : LocksOpen s.db.store) (hs : StoreWritten s s' wr) :
    LocksOpen s'.db.store := by
  intro p l hl
  rcases hs.newLock p l hl with ⟨l₀, hl₀, hr⟩ | ⟨x', hx', hp, hst⟩
  · obtain ⟨x, hx, hp, ht⟩ := hI p l₀ hl₀
    obtain ⟨x', hx', hm⟩ := hs.run _ x hx
    rw [hr] at hx' hm
    refine ⟨x', hx', hm.project.trans hp, ?_⟩
    by_contra ht'
    exact hs.released p l hl (hm.terminal ht (by simpa using ht'))
  · refine ⟨x', hx', hp, ?_⟩
    rcases hst with hst | hst <;> rw [hst] <;> rfl

theorem locksOpen_reachable {h : History} {config : Config} {ok : Action → World → Prop}
    (hw : (machine h config).Reachable ok w) : LocksOpen w.db.store := by
  induction hw with
  | start hs =>
    obtain ⟨projects, -, rfl⟩ := hs
    intro p l hl; cases hl
  | @step w a _ _ ih =>
    obtain ⟨wr, -, hs⟩ := World.store_step h config w a
    exact ih.step hs

/-- A run that has ended holds no lock. -/
theorem LocksOpen.of_terminal {d : Store} (hI : LocksOpen d) {r : RunId} {x : Run}
    (hx : d.runs.get? r = some x) (ht : x.status.isTerminal = true) : d.lockPresent r = false := by
  by_contra hl
  rw [Bool.not_eq_false, Store.lockPresent] at hl
  obtain ⟨p, l, hl, hlr⟩ := Table.any_iff.1 hl
  obtain ⟨y, hy, -, ht'⟩ := hI p l hl
  rw [of_decide_eq_true hlr, hx] at hy
  cases hy
  rw [ht] at ht'; cases ht'

theorem Store.holdsLock_iff {d : Store} {r : RunId} {x : Run} :
    d.holdsLock r x = true ↔ ∃ l, d.locks.get? x.projectId = some l ∧ l.runId = r := by
  simp [Store.holdsLock, Option.any_eq_true]

theorem Store.lockPresent_of_holds {d : Store} {r : RunId} {x : Run} (h : d.holdsLock r x = true) :
    d.lockPresent r = true := by
  obtain ⟨l, hl, hr⟩ := Store.holdsLock_iff.1 h
  exact Table.any_iff.2 ⟨_, l, hl, decide_eq_true hr⟩

theorem RunStatus.terminal_of_final {t : RunStatus} (h : t.isFinal = true) : t.isTerminal = true := by
  cases t <;> simp_all [RunStatus.isFinal, RunStatus.isTerminal]

/-! ### One step -/

/-- A lock stays with a run that is still being written to. -/
theorem holdsLock_stays (hs : StoreWritten s s' wr) {r : RunId} {x x' : Run}
    (hl : s.db.store.holdsLock r x = true) (hx' : s'.db.store.runs.get? r = some x')
    (hp : x'.projectId = x.projectId) (ht : x'.status.isWriting = true) :
    s'.db.store.holdsLock r x' = true := by
  obtain ⟨l, hl, hr⟩ := Store.holdsLock_iff.1 hl
  rw [Store.holdsLock_iff, hp]
  rcases hs.lock _ l hl with ⟨l', hl', hr'⟩ | hrel
  · exact ⟨l', hl', hr'.trans hr⟩
  · have := hs.ended r x' (hrel.trans (by rw [hr])) hx'
    cases hst : x'.status <;> simp [hst, RunStatus.isWriting, RunStatus.isTerminal] at ht this

/-- What a write to a run that is written to afterwards rests on. -/
theorem RunWrite.writing {r : RunId} {x x' : Run} (h : RunWrite s s' r x wr x')
    (hx' : x'.status.isWriting = true) :
    x.status.isWriting = true ∨ (wr = .process (.activating r) ∧
      s.db.store.snapshots.get? r = none) := by
  cases h with
  | kept _ hst => exact .inl (hst ▸ hx')
  | activated _ hn => exact .inr ⟨rfl, hn⟩
  | aborted _ hst => rw [hst] at hx'; cases hx'
  | submitted _ _ hx => exact .inl (by rw [hx]; rfl)
  | rollback _ _ _ hst => rw [hst] at hx'; cases hx'
  | rolledBack _ _ hst => rw [hst] at hx'; cases hx'
  | waiting _ _ _ _ hst => rw [hst] at hx'; cases hx'
  | committed _ _ _ _ hx => exact .inl (by rw [hx]; rfl)
  | finalized _ _ _ hx => exact .inl (by rw [hx]; rfl)
  | ambiguous _ _ _ hst => rw [hst] at hx'; cases hx'
  | resumed _ _ hst => rw [hst] at hx'; cases hx'
  | forced _ hst => rw [hst] at hx'; cases hx'
  | blocked _ hst => rw [hst] at hx'; cases hx'
  | marked _ _ _ hst => rw [hst] at hx'; cases hx'

/-- What a write to a final run rests on. -/
theorem RunWrite.final {r : RunId} {x x' : Run} (h : RunWrite s s' r x wr x')
    (hx : x.status.isFinal = true) :
    x'.status = x.status ∨ (∃ stage, wr = .process stage ∧
      ((stage = .activating r ∧ s.db.store.snapshots.get? r = none) ∨ stage = .aborting r ∨
        stage = .forcing r ∨ (∃ owner, stage = .blocking r owner) ∨
        ((stage = .rollingBack r ∨ stage = .abortSnapshotting r) ∧ x.status = .completed))) ∨
      (wr = .cleanup r ∧ s.db.store.lockPresent r = true) := by
  cases h with
  | kept _ hst => exact .inl hst
  | activated _ hn => exact .inr (.inl ⟨_, rfl, .inl ⟨rfl, hn⟩⟩)
  | aborted => exact .inr (.inl ⟨_, rfl, .inr (.inl rfl)⟩)
  | submitted _ _ hst => rw [hst] at hx; cases hx
  | rollback _ hst => cases hs : x.status <;> simp [hs, RunStatus.isFinal, RunStatus.canRollBack] at hx hst
  | rolledBack _ hst hst' =>
    cases hs : x.status <;> simp only [hs, RunStatus.isFinal, Bool.false_eq_true] at hx
    · exact .inr (.inl ⟨_, rfl, .inr (.inr (.inr (.inr ⟨hst, rfl⟩)))⟩)
    · exact .inl hst'
  | waiting _ _ _ hst => rw [hst] at hx; cases hx
  | committed _ _ _ _ hst => rw [hst] at hx; cases hx
  | finalized _ _ _ hst => rw [hst] at hx; cases hx
  | ambiguous _ _ hst => rw [hst] at hx; cases hx
  | resumed _ hst => rcases hst with hst | hst <;> rw [hst] at hx <;> cases hx
  | forced => exact .inr (.inl ⟨_, rfl, .inr (.inr (.inl rfl))⟩)
  | blocked => exact .inr (.inl ⟨_, rfl, .inr (.inr (.inr (.inl ⟨_, rfl⟩)))⟩)
  | marked _ hd hl =>
    cases hs : x.status <;> simp only [hs, RunStatus.isFinal, Bool.false_eq_true] at hx
    · exact absurd hs hd
    · exact .inr (.inr ⟨rfl, hl hs⟩)

/-- A final run keeps its status when no stage comes late to it. -/
theorem final_stays (hs : StoreWritten s s' wr) (hO : LocksOpen s.db.store) {r : RunId} {x : Run}
    (hx : s.db.store.runs.get? r = some x) (ht : x.status.isFinal = true)
    (hlate : ∀ stage, wr = .process stage → stage.blindWrite = some r → ∃ h now fresh p,
      stage.overwrites s.db.store fresh = false ∧ stage.Succeeds h now fresh s s' p) :
    ∃ x', s'.db.store.runs.get? r = some x' ∧ x'.status = x.status := by
  obtain ⟨x', hx', hm⟩ := hs.run r x hx
  refine ⟨x', hx', ?_⟩
  have hnolock := hO.of_terminal hx (RunStatus.terminal_of_final ht)
  rcases hm.final ht with hst | ⟨stage, hwr, hst⟩ | ⟨-, hl⟩
  · exact hst
  · exfalso
    have hblind : stage.blindWrite = some r := by
      rcases hst with ⟨rfl, -⟩ | rfl | rfl | ⟨owner, rfl⟩ | ⟨rfl | rfl, -⟩ <;> rfl
    obtain ⟨h, now, fresh, p, ho, hsucc⟩ := hlate stage hwr hblind
    rcases hst with ⟨rfl, hnone⟩ | rfl | rfl | ⟨owner, rfl⟩ | ⟨hst, hd⟩
    · have hheld : s.db.store.holdsLock r x = true := by
        simpa [Stage.overwrites, hx, hnone] using ho
      rw [Store.lockPresent_of_holds hheld] at hnolock; cases hnolock
    · simp [Stage.overwrites, hx, ht] at ho
    · simp [Stage.overwrites, hx, ht] at ho
    · cases hsucc with
      | blocking hb =>
        obtain ⟨y, locks, hy, hl, hask, -⟩ := applyBlock_ok hb
        obtain rfl : x = y := by rw [hx] at hy; simpa using hy
        have hfree : (s.db.store.locks.get? x.projectId).all (fun l => l.runId = r) = true := by
          rcases ensureLockForBlock_ok hl with ⟨-, l, hl, hr⟩ | ⟨l, -, -, hins⟩
          · simp [hl, hr]
          · simp [Table.get?_of_insert hins]
        simp [Stage.overwrites, hx, ht, hfree, hask] at ho
    · rcases hst with rfl | rfl <;> simp [Stage.overwrites, hx, hd] at ho
  · rw [hnolock] at hl; cases hl

/-- A write whose stage does not come late keeps the discipline. -/
theorem WriterDiscipline.step (hs : StoreWritten s s' wr) (hO : LocksOpen s.db.store)
    (hL : ∀ r x, s.db.store.runs.get? r = some x → x.status.isWriting = true →
      s.db.store.holdsLock r x = true)
    (hlate : ∀ stage, wr = .process stage → ∃ h now fresh p,
      stage.overwrites s.db.store fresh = false ∧ stage.Succeeds h now fresh s s' p) :
    WriterDiscipline s.db.store s'.db.store := by
  have hlocked : ∀ r x', s'.db.store.runs.get? r = some x' → x'.status.isWriting = true →
      s'.db.store.holdsLock r x' = true := by
    intro r x' hx' ht
    cases hx : s.db.store.runs.get? r with
    | none =>
      obtain ⟨-, -, l, hr, hl⟩ := hs.newRun r x' hx hx'
      exact Store.holdsLock_iff.2 ⟨l, hl, hr⟩
    | some x =>
      obtain ⟨x'', hx'', hm⟩ := hs.run r x hx
      obtain rfl : x' = x'' := by rw [hx'] at hx''; simpa using hx''
      refine holdsLock_stays hs ?_ hx' hm.project ht
      rcases hm.writing ht with hw | ⟨hwr, hnone⟩
      · exact hL r x hx hw
      · obtain ⟨_, _, fresh, _, ho, -⟩ := hlate _ hwr
        simpa [Stage.overwrites, hx, hnone] using ho
  refine ⟨hlocked, fun r q x y hx hy htx hty hp => ?_, fun r x hx ht => ?_⟩
  · obtain ⟨l, hl, rfl⟩ := Store.holdsLock_iff.1 (hlocked r x hx htx)
    obtain ⟨m, hm, rfl⟩ := Store.holdsLock_iff.1 (hlocked q y hy hty)
    rw [hp, hm] at hl
    rw [Option.some.inj hl]
  · exact final_stays hs hO hx ht fun stage hwr _ => hlate stage hwr

/-! ### A late transaction breaks the discipline -/

theorem ensureLockForBlock_free {d : Store} {r : RunId} {x : Run} (owner : String) (now : Time)
    (hfree : (d.locks.get? x.projectId).all (fun l => l.runId = r) = true)
    (hno : d.lockPresent r = false) : ∃ locks, ensureLockForBlock d r x owner now = .ok locks := by
  unfold ensureLockForBlock
  cases hl : d.locks.get? x.projectId with
  | some l =>
    obtain rfl : l.runId = r := by simpa [hl] using hfree
    exact ⟨d.locks, by simp⟩
  | none =>
    simp only [hno, Bool.false_eq_true, if_false]
    cases hins : d.locks.insert x.projectId
        ⟨r, if x.transactionOwner = "" then owner else x.transactionOwner, now, now⟩ with
    | some locks => exact ⟨locks, rfl⟩
    | none =>
      have := Table.isSome_of_insert hins
      rw [hl] at this; cases this

theorem applyBlock_final {d : Store} {r : RunId} {x : Run} (owner : String) {i : ApprovalId}
    (now : Time) (hx : d.runs.get? r = some x)
    (hfree : (d.locks.get? x.projectId).all (fun l => l.runId = r) = true)
    (hno : d.lockPresent r = false) (hask : d.canAskApproval r i = true) :
    ∃ store, applyBlock d r owner i now = .ok store := by
  obtain ⟨locks, hl⟩ := ensureLockForBlock_free owner now hfree hno
  unfold applyBlock
  simp only [hx, hl, bind, Except.bind]
  by_cases hp : (d.approvals.any fun _ a => a.runId = r ∧ a.status = .pending) = true
  · rw [if_pos hp]; exact ⟨_, rfl⟩
  · rw [if_neg hp]
    cases hins : d.approvals.insert i ⟨r, .pending, now, none⟩ with
    | some approvals => exact ⟨_, rfl⟩
    | none =>
      simp only [Store.canAskApproval, hp, Bool.false_or, Option.isNone_iff_eq_none] at hask
      have := Table.isSome_of_insert hins
      rw [hask] at this; cases this

/-- The activation of a run that has no snapshot yet. -/
theorem beginActivate_fresh {d : Store} {r : RunId} {x : Run} (now : Time)
    (hx : d.runs.get? r = some x) (hn : d.snapshots.get? r = none) :
    ∃ store, beginActivate d r now = .ok store ∧
      store.runs = d.runs.updateAt r (Run.activated now) ∧ store.locks = d.heartbeatLock r now := by
  unfold beginActivate
  simp only [hx]
  cases hins : d.snapshots.insert r ⟨x.projectId, x.baseCommit, false, now, none⟩ with
  | some snapshots => exact ⟨_, rfl, rfl, rfl⟩
  | none =>
    have := Table.isSome_of_insert hins
    rw [hn] at this; cases this

theorem holdsLock_heartbeat {d d' : Store} {r : RunId} {now : Time} (p : RunId) (x : Run)
    (hl : d'.locks = d.heartbeatLock r now) : d'.holdsLock p x = d.holdsLock p x := by
  simp only [Store.holdsLock, hl, Store.heartbeatLock, Table.get?_update, Option.any_map]
  congr 1
  funext l
  by_cases hlr : l.runId = r <;> simp [hlr]

/-- The row of the run after a late transaction. -/
theorem overwrites_row (h : History) (now : Time) {fresh : Nat} {stage : Stage}
    (hO : LocksOpen s.db.store) (ho : stage.overwrites s.db.store fresh = true) :
    ∃ r x x', s.db.store.runs.get? r = some x ∧
      (stage.step h now fresh false s).1.db.store.runs.get? r = some x' ∧
      ((x.status.isFinal = true ∧ x'.status ≠ x.status) ∨ (x'.status.isWriting = true ∧
        (stage.step h now fresh false s).1.db.store.holdsLock r x' = false)) := by
  have final : ∀ {r : RunId} {x : Run}, x.status.isFinal = true → ∀ t : RunStatus, t.isFinal = false →
      ∀ x' : Run, x'.status = t → (x.status.isFinal = true ∧ x'.status ≠ x.status) ∨
        (x'.status.isWriting = true ∧
          (stage.step h now fresh false s).1.db.store.holdsLock r x' = false) := by
    rintro r x hx t ht x' rfl
    exact .inl ⟨hx, fun he => by rw [he, hx] at ht; cases ht⟩
  cases stage with
  | activating r =>
    obtain ⟨x, hx, hc⟩ := (Option.any_eq_true ..).1 ho
    obtain ⟨hn, hl⟩ := of_decide_eq_true hc
    obtain ⟨store, hb, hruns, hlocks⟩ := beginActivate_fresh now hx (by simpa using hn)
    have hstep : (Stage.activating r).step h now fresh false s =
        (s.setStore store, .exit (.begun r)) := by
      simp [Stage.step, Stage.body, hb, bind, Except.bind, pure, Except.pure]
    rw [hstep]
    refine ⟨r, x, x.activated now, hx, ?_, .inr ⟨rfl, ?_⟩⟩
    · rw [Site.setStore_store, hruns, Table.get?_updateAt, if_pos rfl, hx]; rfl
    · rw [Site.setStore_store, holdsLock_heartbeat _ _ hlocks]
      simpa [Store.holdsLock, Run.activated] using hl
  | aborting r =>
    obtain ⟨x, hx, hc⟩ := (Option.any_eq_true ..).1 ho
    refine ⟨r, x, x.aborted now, hx, ?_, final hc .failed rfl _ rfl⟩
    change (beginAbort s.db.store r now).runs.get? r = _
    simp [beginAbort, hx]
  | forcing r =>
    obtain ⟨x, hx, hc⟩ := (Option.any_eq_true ..).1 ho
    refine ⟨r, x, x.rollingBack now, hx, ?_, final hc .recovering rfl _ rfl⟩
    change (forceRollback s.db.store r now).runs.get? r = _
    simp [forceRollback, hx]
  | rollingBack r =>
    obtain ⟨x, hx, hc⟩ := (Option.any_eq_true ..).1 ho
    have hc := of_decide_eq_true hc
    refine ⟨r, x, x.rolledBack now, hx, ?_, .inl ⟨by rw [hc]; rfl, by rw [hc]; simp [Run.rolledBack]⟩⟩
    change (rollbackFinish s.db.store r now).runs.get? r = _
    simp [rollbackFinish, hx]
  | abortSnapshotting r =>
    obtain ⟨x, hx, hc⟩ := (Option.any_eq_true ..).1 ho
    have hc := of_decide_eq_true hc
    refine ⟨r, x, x.rolledBack now, hx, ?_, .inl ⟨by rw [hc]; rfl, by rw [hc]; simp [Run.rolledBack]⟩⟩
    change (rollbackFinish s.db.store r now).runs.get? r = _
    simp [rollbackFinish, hx]
  | blocking r owner =>
    obtain ⟨x, hx, hc⟩ := (Option.any_eq_true ..).1 ho
    obtain ⟨hc, hfree, hask⟩ := of_decide_eq_true hc
    obtain ⟨store, hb⟩ := applyBlock_final owner now hx hfree
      (hO.of_terminal hx (RunStatus.terminal_of_final hc)) hask
    have hstep : (Stage.blocking r owner).step h now fresh false s =
        (s.setStore store, .exit .recovered) := by
      simp [Stage.step, Stage.body, hb, bind, Except.bind, pure, Except.pure]
    rw [hstep]
    obtain ⟨y, locks, hy, -, -, -, hruns, -⟩ := applyBlock_ok hb
    refine ⟨r, x, x.waiting now, hx, ?_, .inl ⟨hc, fun he => ?_⟩⟩
    rotate_left
    · rw [← he] at hc; cases hc
    rw [Site.setStore_store, hruns, Table.get?_updateAt, if_pos rfl, hx]; rfl
  | _ => cases ho

theorem not_writerDiscipline_of_overwrite (h : History) (config : Config)
    (hO : LocksOpen w.db.store) (hn : overwritesRun a w = true) :
    ¬WriterDiscipline w.db.store (w.step h config a).db.store := by
  intro hd
  unfold overwritesRun at hn
  split at hn
  · rename_i pid now fresh
    obtain ⟨stage, hp, ho⟩ := (Option.any_eq_true ..).1 hn
    obtain ⟨r, x, x', hx, hx', hc⟩ := overwrites_row h now (s := w.site) hO ho
    have hsite : (w.step h config (.process pid now fresh false)).site =
        (stage.step h now fresh false w.site).1 := World.stepProcess_site h now fresh false hp
    rw [← hsite] at hx' hc
    rcases hc with ⟨hf, hne⟩ | ⟨hw, hl⟩
    · obtain ⟨y, hy, hst⟩ := hd.final r x hx hf
      obtain rfl : x' = y := by
        rw [World.db] at hy; rw [hx'] at hy; simpa using hy
      exact hne hst
    · have := hd.locked r x' hx' hw
      rw [World.db] at this; rw [hl] at this; cases this
  · cases hn

/-! ### Runs -/

/-- In a run, every run that is written to holds the lock of its project and every final run keeps
    its status, exactly when no step of it is a late transaction. -/
theorem single_writer_terminal_runs (h : History) (config : Config) {w : World}
    (hw : (machine h config).start w) (as : List Action) :
    (machine h config).Along
        (fun a w => WriterDiscipline w.db.store (w.step h config a).db.store) w as ↔
      (machine h config).Along (fun a w => overwritesRun a w = false) w as := by
  have hO : LocksOpen w.db.store := locksOpen_reachable (.of_start hw)
  have hL : ∀ r x, w.db.store.runs.get? r = some x → x.status.isWriting = true →
      w.db.store.holdsLock r x = true := by
    obtain ⟨projects, -, rfl⟩ := hw
    intro r x hx; cases hx
  clear hw
  induction as generalizing w with
  | nil => exact Iff.rfl
  | cons a as ih =>
    by_cases hn : overwritesRun a w = false
    · obtain ⟨wr, hwr, hs⟩ := World.store_step h config w a
      have hstep : WriterDiscipline w.db.store (w.step h config a).db.store := by
        refine WriterDiscipline.step hs hO hL ?_
        rintro stage rfl
        cases hwr with
        | @process pid now fresh _ p hp hsucc =>
          have ho : stage.overwrites w.db.store fresh = false := by
            simpa [overwritesRun, hp] using hn
          exact ⟨h, now, fresh, p, ho, hsucc⟩
      exact and_congr (iff_of_true hstep hn) (ih (hO.step hs) hstep.locked)
    · refine iff_of_false (fun hm => ?_) fun hm => hn hm.1
      exact not_writerDiscipline_of_overwrite h config hO (by simpa using hn) hm.1

/-- Recovery rolls a run back while the command that began it is still at work. -/
def activationAfterRollback : List Action :=
  [ .operator 0 (.begin 0 "operator"),
    .process 0 1 0 false,
    .process 0 2 0 false,
    .operator 1 (.recover 0 "recovery" none none),
    .process 1 3 0 false,
    .process 1 4 0 false,
    .process 1 5 0 false,
    .process 1 6 0 false,
    .process 0 7 0 false ]

/-- Without the recovery the activation is in time. -/
theorem single_writer_begun :
    Scenario.system.Along (fun a w => WriterDiscipline w.db.store
        (w.step Scenario.history Scenario.config a).db.store) Scenario.start
      (activationAfterRollback.take 3 ++ activationAfterRollback.drop 8) :=
  (single_writer_terminal_runs Scenario.history Scenario.config Scenario.system_start _).2 (by decide)

/-- The cancelled run is `RUNNING` again, without a lock. -/
theorem activation_revives_cancelled_run :
    ¬∀ (h : History) (config : Config) (w : World) (as : List Action),
      (machine h config).start w → (machine h config).Along
        (fun a w => WriterDiscipline w.db.store (w.step h config a).db.store) w as := by
  intro hall
  obtain ⟨hfirst, hlast, -⟩ := (Machine.along_append _ (activationAfterRollback.take 8) _).1
    (hall Scenario.history Scenario.config Scenario.start
      (activationAfterRollback.take 8 ++ [.process 0 7 0 false]) Scenario.system_start)
  exact not_writerDiscipline_of_overwrite _ _
    (locksOpen_reachable (.run (.start Scenario.system_start) hfirst)) (by decide) hlast

end HermesOps
