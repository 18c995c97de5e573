import HermesOps.Controller.BrowserAuth

/-! The browser authentication under a clock that does not go backwards. A login reads the clock inside its
    transactions; `set_password`, `logout` and `initialize_operator` read it before they ask for the
    write lock, so that other transactions may commit between that reading and their own. -/

namespace HermesOps.BrowserAuth

open Schemes Controller

/-- The tables and the logins, the latest reading of the clock, and the readings of the calls that may
    still wait for the write lock. -/
structure ClockedWorld where
  auth : AuthWorld
  clock : Instant
  stamps : List Instant

inductive ClockedAction where
  | stamp (now : Instant)
  | act (a : AuthAction)

/-- The readings a step takes, in their order. -/
def AuthAction.readings : AuthAction → List Instant
  | .readSession _ now _ | .count _ now _ | .block _ now _ _ => [now]
  | .write _ clock _ _ => [clock.replay, clock.now, clock.window, clock.expiry]
  | _ => []

/-- The reading from before the transaction. -/
def AuthAction.stamp? : AuthAction → Option Instant
  | .install _ now _ | .setPassword _ now _ _ | .logout _ _ _ now _ _ => some now
  | _ => none

/-- The readings of the step do not go back, and one from before was taken. -/
def ClockedWorld.timely (w : ClockedWorld) (a : AuthAction) : Bool :=
  (w.clock :: a.readings).Pairwise (· ≤ ·) ∧ a.stamp?.all fun now => now ∈ w.stamps

def ClockedWorld.step (p : Primitives) (secret : String) (a : ClockedAction) (w : ClockedWorld) :
    ClockedWorld :=
  match a with
  | .stamp now => if w.clock ≤ now then { w with clock := now, stamps := now :: w.stamps } else w
  | .act a =>
    if w.timely a then
      { w with auth := w.auth.step p secret a, clock := a.readings.getLast?.getD w.clock }
    else w

/-- Empty tables at any instant. -/
def clockedMachine (p : Primitives) (secret : String) : Machine ClockedAction ClockedWorld where
  start w := (machine p secret).start w.auth ∧ w.stamps = []
  step := ClockedWorld.step p secret

variable {p : Primitives} {secret : String} {w : ClockedWorld}

/-- What `timely` says of a write transaction. -/
theorem ClockedWorld.timely_write {tid : ThreadId} {clock : Readings} {auditId : String} {fails : Bool} :
    w.timely (.write tid clock auditId fails) = true ↔ w.clock ≤ clock.replay ∧
      clock.replay ≤ clock.now ∧ clock.now ≤ clock.window ∧ clock.window ≤ clock.expiry := by
  unfold timely
  rw [decide_eq_true_eq]
  simp only [AuthAction.readings, AuthAction.stamp?, Option.all_none, and_true, List.pairwise_cons,
    List.mem_cons, List.not_mem_nil, or_false, forall_eq_or_imp, forall_eq, List.Pairwise.nil]
  constructor
  · rintro ⟨⟨h, -⟩, ⟨h', -⟩, ⟨h'', -⟩, h''', -⟩
    exact ⟨h, h', h'', h'''⟩
  · rintro ⟨h, h', h'', h'''⟩
    have hwindow := Int.le_trans h' h''
    exact ⟨⟨h, Int.le_trans h h', Int.le_trans h hwindow, Int.le_trans h (Int.le_trans hwindow h''')⟩,
      ⟨h', hwindow, Int.le_trans hwindow h'''⟩, ⟨h'', Int.le_trans h'' h'''⟩, h''', by simp⟩

theorem ClockedWorld.clock_le_last {a : AuthAction} (h : w.timely a = true) :
    w.clock ≤ a.readings.getLast?.getD w.clock := by
  have hpairwise := (of_decide_eq_true h).1
  cases hlast : a.readings.getLast? with
  | none => exact Int.le_refl _
  | some now => exact (List.pairwise_cons.1 hpairwise).1 now (List.mem_of_getLast? hlast)

/-- The clock does not go back. -/
theorem ClockedWorld.clock_step (a : ClockedAction) : w.clock ≤ (w.step p secret a).clock := by
  cases a with
  | stamp now =>
    dsimp only [step]
    split
    · assumption
    · exact Int.le_refl _
  | act a =>
    dsimp only [step]
    split
    · rename_i h
      exact clock_le_last h
    · exact Int.le_refl _

end HermesOps.BrowserAuth
