import HermesOps.Properties.Evidence
import HermesOps.Properties.GateResolution

/-! The policy table of `assess_run` leaf by leaf, against the three functions that apply its
    decisions. One leaf does not look at the head again: a `SNAPSHOTTING` run with a verified
    snapshot is rolled back, also when the head is at its result. No program leaves such a row, since
    a run gets its result after its activation. -/

namespace HermesOps

open Schemes

variable {h : History} {config : Config} {s s' : Site} {rows : RunRows} {repo : Repository}
  {t : Option Worktree} {intact : Bool} {r : RunId} {x : Run}

/-! ### The table -/

/-- The snapshot is there and its artifacts are whole. -/
def RunRows.verified (rows : RunRows) (intact : Bool) : Prop :=
  rows.snapshotPresent = true ∧ intact = true

/-- The run has reserved its project and has no snapshot yet. -/
def RunRows.bare (rows : RunRows) : Prop :=
  rows.run.status = .snapshotting ∧ rows.snapshotPresent = false

/-- The fast-forward of a committing run is done. -/
def RunRows.merged (rows : RunRows) (head : Commit) : Prop :=
  rows.run.status = .committing ∧ rows.run.resultCommit = some head

/-- A recovery at the stage does not resume the run and does not roll it back. -/
def Stage.spares (r : RunId) : Stage → Prop
  | .recover .. | .blocking .. => True
  | .assessing rows _ _ _ => rows.runId = r → rows.run.status = .waitingHuman
  | .resuming q _ | .resumed q _ _ | .fastForwarding q _ _ | .fastForwarded q _ _
  | .resumeFinishing q _ _ | .rollbackSafe q _ | .abortSnapshotting q | .forcing q | .rollback q
  | .cleaning q | .rollingBack q => q ≠ r
  | _ => False

theorem RunWrite.waits {stage : Stage} {x' : Run} (hm : RunWrite s s' r x (.process stage) x')
    (hstage : stage.spares r) (hx : x.status = .waitingHuman) : x'.status = .waitingHuman := by
  cases hm with
  | kept _ hst => exact hst.trans hx
  | blocked _ hst => exact hst
  | waiting _ _ _ _ hst => exact hst
  | rolledBack _ hor _ => rcases hor with rfl | rfl <;> exact absurd rfl hstage
  | finalized _ _ hor _ _ _ => rcases hor with rfl | ⟨_, rfl⟩ <;> exact hstage.elim
  | rollback => exact absurd rfl hstage
  | resumed => exact absurd rfl hstage
  | forced => exact absurd rfl hstage
  | _ => exact hstage.elim

/-- A run that is `SNAPSHOTTING` has no result. -/
def ResultsAfterStart (d : Store) : Prop :=
  ∀ r x, d.runs.get? r = some x → x.status = .snapshotting → x.resultCommit = none

theorem RunWrite.snapshotting {wr : Writer} {x' : Run} (hm : RunWrite s s' r x wr x')
    (hx' : x'.status = .snapshotting) : x.status = .snapshotting ∧ x.Carries x' := by
  cases hm with
  | kept hc hst => exact ⟨hst ▸ hx', hc⟩
  | activated _ _ hst => rw [hst] at hx'; cases hx'
  | aborted _ hst => rw [hst] at hx'; cases hx'
  | submitted _ _ _ hst => rw [hst] at hx'; cases hx'
  | rollback _ _ _ hst => rw [hst] at hx'; cases hx'
  | rolledBack _ _ hst => rw [hst] at hx'; cases hx'
  | waiting _ _ _ _ hst => rw [hst] at hx'; cases hx'
  | committed _ _ _ _ _ _ _ _ _ hst => rw [hst] at hx'; cases hx'
  | finalized _ _ _ _ _ hst => rw [hst] at hx'; cases hx'
  | ambiguous _ _ _ hst => rw [hst] at hx'; cases hx'
  | resumed _ _ hst => rw [hst] at hx'; cases hx'
  | forced _ hst => rw [hst] at hx'; cases hx'
  | blocked _ hst => rw [hst] at hx'; cases hx'
  | marked _ _ _ hst => rw [hst] at hx'; cases hx'

theorem ResultsAfterStart.step {wr : Writer} (hI : ResultsAfterStart s.db.store)
    (hs : StoreWritten s s' wr) : ResultsAfterStart s'.db.store := by
  intro r x' hx' hst
  cases hx : s.db.store.runs.get? r with
  | none => exact (hs.newRun r x' hx hx').2.1
  | some x =>
    obtain ⟨x'', hx'', hm⟩ := hs.run r x hx
    obtain rfl : x' = x'' := Option.some.inj (hx'.symm.trans hx'')
    obtain ⟨hwas, hc⟩ := hm.snapshotting hst
    rw [hc.result]
    exact hI r x hx hwas

end HermesOps
