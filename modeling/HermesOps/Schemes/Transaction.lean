import Mathlib.Data.Option.Basic

/-! Transactions of a store. A computation inside a transaction writes a working copy of the state and
    may raise; the working copy survives the exception, and it is `atomically` that throws it away.
    The connection may fail at any statement: `left` is the number of statements it still executes.
    `Keeps` says that a computation that returns leaves a part of the state alone, with one rule for
    each way of building computations. -/

namespace HermesOps

theorem Except.bind_ok {ε α β : Type} {x : Except ε α} {f : α → Except ε β} {b : β} :
    (x >>= f) = .ok b ↔ ∃ a, x = .ok a ∧ f a = .ok b := by
  cases x with
  | error e => simp [bind, Except.bind]
  | ok a => simp [bind, Except.bind]

theorem Except.pure_ok {ε α : Type} {a b : α} : (pure a : Except ε α) = .ok b ↔ a = b := by
  simp [pure, Except.pure]

namespace Schemes

/-- The working copy, and the statements left before the connection fails. -/
structure Work (σ : Type) where
  state : σ
  left : Option Nat

/-- A computation inside a transaction. -/
def Txn (ε σ α : Type) : Type := Work σ → Except ε α × Work σ

namespace Txn

variable {ε σ α β : Type}

def pure (a : α) : Txn ε σ α := fun w => (.ok a, w)

def bind (x : Txn ε σ α) (f : α → Txn ε σ β) : Txn ε σ β := fun w =>
  match x w with
  | (.ok a, w) => f a w
  | (.error e, w) => (.error e, w)

instance : Monad (Txn ε σ) where
  pure := Txn.pure
  bind := Txn.bind

def raise (e : ε) : Txn ε σ α := fun w => (.error e, w)

/-- A computation that does not look at the store. -/
def lift (r : Except ε α) : Txn ε σ α := fun w => (r, w)

/-- `raise` unless the test holds. -/
def ensure (test : Bool) (e : ε) : Txn ε σ Unit := lift (if test then .ok () else .error e)

/-- One statement, which raises `failure` when the connection fails. -/
def statement (failure : ε) (f : σ → Except ε (α × σ)) : Txn ε σ α := fun w =>
  match w.left with
  | some 0 => (.error failure, w)
  | left =>
    match f w.state with
    | .ok (a, s) => (.ok a, ⟨s, left.map Nat.pred⟩)
    | .error e => (.error e, w)

/-- `BEGIN IMMEDIATE`, the computation, and `COMMIT` or `ROLLBACK`. -/
def atomically (left : Option Nat) (x : Txn ε σ α) (s : σ) : Except ε α × σ :=
  match x ⟨s, left⟩ with
  | (.ok a, w) => (.ok a, w.state)
  | (.error e, _) => (.error e, s)

/-! ### Returning -/

variable {x : Txn ε σ α} {f : α → Txn ε σ β} {w w' : Work σ} {a a' : α} {b : β} {e : ε} {s s' : σ}

theorem run_pure : (Pure.pure a : Txn ε σ α) w = (.ok a, w) := rfl

theorem run_bind : (x >>= f) w = match x w with
    | (.ok a, w) => f a w
    | (.error e, w) => (.error e, w) := rfl

theorem run_bind_of_ok (h : x w = (.ok a, w')) : (x >>= f) w = f a w' := by
  rw [run_bind, h]

theorem run_bind_of_error (h : x w = (.error e, w')) : (x >>= f) w = (.error e, w') := by
  rw [run_bind, h]

theorem pure_ok : (Pure.pure a : Txn ε σ α) w = (.ok a', w') ↔ a = a' ∧ w = w' := by
  rw [run_pure, Prod.mk.injEq, Except.ok.injEq]

theorem bind_ok : (x >>= f) w = (.ok b, w') ↔ ∃ a v, x w = (.ok a, v) ∧ f a v = (.ok b, w') := by
  rw [run_bind]
  rcases hx : x w with ⟨r, v⟩
  cases r with
  | error e => simp
  | ok a =>
    constructor
    · intro h; exact ⟨a, v, rfl, h⟩
    · rintro ⟨a', v', h, hf⟩; cases h; exact hf

theorem raise_ok : ¬(raise e : Txn ε σ α) w = (.ok a, w') := by
  simp [raise]

theorem lift_ok {r : Except ε α} : (lift r : Txn ε σ α) w = (.ok a, w') ↔ r = .ok a ∧ w = w' := by
  simp [lift]

theorem ensure_ok {test : Bool} {u : Unit} :
    (ensure test e : Txn ε σ Unit) w = (.ok u, w') ↔ test = true ∧ w = w' := by
  rw [ensure, lift_ok]
  cases test <;> simp

theorem statement_ok {g : σ → Except ε (α × σ)} (h : statement e g w = (.ok a, w')) :
    g w.state = .ok (a, w'.state) := by
  unfold statement at h
  split at h
  · cases h
  · split at h
    · rename_i hg; cases h; exact hg
    · cases h

/-- A connection that does not fail executes the statement. -/
theorem run_statement {g : σ → Except ε (α × σ)} : statement e g ⟨s, none⟩ = match g s with
    | .ok (a, s') => (.ok a, ⟨s', none⟩)
    | .error e => (.error e, ⟨s, none⟩) := by
  unfold statement
  cases g s <;> rfl

theorem atomically_ok {left : Option Nat} :
    atomically left x s = (.ok a, s') ↔ ∃ v, x ⟨s, left⟩ = (.ok a, v) ∧ v.state = s' := by
  unfold atomically
  rcases hx : x ⟨s, left⟩ with ⟨r, v⟩
  cases r with
  | error e => simp
  | ok b =>
    constructor
    · intro h; cases h; exact ⟨v, rfl, rfl⟩
    · rintro ⟨v', h, rfl⟩; cases h; rfl

/-- A transaction that raises leaves the store as it was. -/
theorem atomically_error {left : Option Nat} (h : atomically left x s = (.error e, s')) :
    s' = s := by
  unfold atomically at h
  split at h
  · cases h
  · cases h; rfl

/-! ### Returning for certain -/

/-- On a connection that does not fail the computation returns, with `Q`. -/
def Returns (x : Txn ε σ α) (s : σ) (Q : α → σ → Prop) : Prop :=
  ∃ a s', x ⟨s, none⟩ = (.ok a, ⟨s', none⟩) ∧ Q a s'

section Returns

variable {Q : α → σ → Prop} {R : β → σ → Prop}

theorem Returns.pure (h : Q a s) : Returns (Pure.pure a : Txn ε σ α) s Q := ⟨a, s, rfl, h⟩

theorem Returns.bind (hx : Returns x s Q) (hf : ∀ a s', Q a s' → Returns (f a) s' R) :
    Returns (x >>= f) s R := by
  obtain ⟨a, s', ha, hQ⟩ := hx
  obtain ⟨b, s'', hb, hR⟩ := hf a s' hQ
  exact ⟨b, s'', (run_bind_of_ok ha).trans hb, hR⟩

/-- After a step whose result is known. -/
theorem Returns.step {t : σ} (hx : x ⟨s, none⟩ = (.ok a, ⟨t, none⟩)) (h : Returns (f a) t R) :
    Returns (x >>= f) s R := by
  refine Returns.bind (Q := fun b u => b = a ∧ u = t) ⟨a, t, hx, rfl, rfl⟩ ?_
  rintro b u ⟨rfl, rfl⟩
  exact h

theorem Returns.of_run {t : σ} (hx : x ⟨s, none⟩ = (.ok a, ⟨t, none⟩)) (h : Q a t) : Returns x s Q :=
  ⟨a, t, hx, h⟩

theorem run_ensure {test : Bool} (h : test = true) : (ensure test e : Txn ε σ Unit) w = (.ok (), w) := by
  subst h
  rfl

end Returns

/-! ### What is left alone -/

variable {γ : Type}

/-- A computation that returns leaves this part of the state as it is. -/
def Keeps (π : σ → γ) (x : Txn ε σ α) : Prop := ∀ w a w', x w = (.ok a, w') → π w'.state = π w.state

variable {π : σ → γ}

theorem Keeps.pure : Keeps π (Pure.pure a : Txn ε σ α) := by
  intro w b w' h
  rw [(pure_ok.1 h).2]

theorem Keeps.bind (hx : Keeps π x) (hf : ∀ a, Keeps π (f a)) : Keeps π (x >>= f) := by
  intro w b w' h
  obtain ⟨a, v, ha, hb⟩ := bind_ok.1 h
  exact (hf a v b w' hb).trans (hx w a v ha)

theorem Keeps.raise : Keeps π (raise e : Txn ε σ α) := by
  intro w b w' h
  exact absurd h raise_ok

theorem Keeps.lift {r : Except ε α} : Keeps π (lift r : Txn ε σ α) := by
  intro w b w' h
  rw [(lift_ok.1 h).2]

theorem Keeps.ensure {test : Bool} : Keeps π (ensure test e : Txn ε σ Unit) := Keeps.lift

theorem Keeps.statement {g : σ → Except ε (α × σ)} (h : ∀ s a s', g s = .ok (a, s') → π s' = π s) :
    Keeps π (statement e g) := by
  intro w b w' hw
  exact h _ _ _ (statement_ok hw)

end Txn

end Schemes

end HermesOps
