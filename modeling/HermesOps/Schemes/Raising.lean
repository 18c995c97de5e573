import Mathlib.Data.Option.Basic

/-! Computations that return or raise. What is raised while another exception is handled keeps that exception
    as its context. `Clean` says that whatever a computation raises has no context: a handler that only
    notes what happened keeps it so, and the raise may follow after the block. -/

namespace HermesOps.Schemes

/-- A raised exception, and the exception that was being handled. -/
structure Raise (ε : Type) where
  exn : ε
  context : Option ε

abbrev Raising (ε α : Type) := Except (Raise ε) α

namespace Raising

variable {ε α β : Type}

def raise (exn : ε) : Raising ε α := .error ⟨exn, none⟩

/-- A block with handlers; nothing is that no clause catches the exception. -/
def attempt (block : Raising ε α) (handler : ε → Option (Raising ε α)) : Raising ε α :=
  match block with
  | .ok a => .ok a
  | .error r =>
    match handler r.exn with
    | none => .error r
    | some (.ok a) => .ok a
    | some (.error raised) => .error ⟨raised.exn, some r.exn⟩

/-- A block whose handlers note the exception to raise after it. -/
def normalize (block : Raising ε α) (handler : ε → Option (Raising ε ε)) : Raising ε α := do
  let noted : ε ⊕ α ← attempt (block.map .inr) fun e => (handler e).map (Except.map .inl)
  match noted with
  | .inl exn => raise exn
  | .inr a => return a

/-- Whatever is raised has no context. -/
def Clean (x : Raising ε α) : Prop := ∀ r, x = .error r → r.context = none

variable {x : Raising ε α} {a : α} {r : Raise ε} {handler : ε → Option (Raising ε ε)}

theorem Clean.ok (a : α) : Clean (.ok a : Raising ε α) := by
  rintro r ⟨⟩

theorem Clean.raise (exn : ε) : Clean (raise exn : Raising ε α) := by
  rintro r ⟨⟩
  rfl

theorem Clean.bind {f : α → Raising ε β} (hx : Clean x) (hf : ∀ a, x = .ok a → Clean (f a)) :
    Clean (x >>= f) := by
  intro r h
  cases x with
  | ok a => exact hf a rfl r h
  | error raised => exact hx raised rfl ▸ congrArg Raise.context (Except.error.inj h).symm

@[simp] theorem raise_bind {exn : ε} (f : α → Raising ε β) :
    ((raise exn : Raising ε α) >>= f) = raise exn := rfl

@[simp] theorem ok_bind (f : α → Raising ε β) : ((.ok a : Raising ε α) >>= f) = f a := rfl

@[simp] theorem normalize_ok : normalize (.ok a) handler = .ok a := rfl

theorem normalize_noted {exn : ε} (h : handler r.exn = some (.ok exn)) :
    normalize (.error r : Raising ε α) handler = raise exn := by
  simp [normalize, attempt, Except.map, h, bind, Except.bind]

theorem normalize_uncaught (h : handler r.exn = none) :
    normalize (.error r : Raising ε α) handler = .error r := by
  simp [normalize, attempt, Except.map, h, bind, Except.bind]

/-- What a handler raises itself has the exception as its context. -/
theorem normalize_raised {raised : Raise ε} (h : handler r.exn = some (.error raised)) :
    normalize (.error r : Raising ε α) handler = .error ⟨raised.exn, some r.exn⟩ := by
  simp [normalize, attempt, Except.map, h, bind, Except.bind]

end Raising

end HermesOps.Schemes
