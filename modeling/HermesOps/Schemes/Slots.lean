import Mathlib.Data.List.Basic

/-! Slots that clients hold. A bounded semaphore counts its free slots; the clients are a list, and a predicate
    says which of them hold a slot. `Conserved` says that the free slots and the held ones make up the
    capacity: it is kept by every move of one client that changes the two in the same way. -/

namespace HermesOps.Schemes

/-- A bounded semaphore. -/
structure Semaphore where
  free : Nat
  capacity : Nat
  deriving DecidableEq

namespace Semaphore

/-- `acquire` without blocking. -/
def acquire (s : Semaphore) : Option Semaphore :=
  if 0 < s.free then some { s with free := s.free - 1 } else none

/-- `release`; nothing when all slots are free, which raises. -/
def release (s : Semaphore) : Option Semaphore :=
  if s.free < s.capacity then some { s with free := s.free + 1 } else none

section Conserved

variable {α : Type} {holds : α → Bool} {s t : Semaphore} {clients : List α} {a b : α} {i : Nat}

/-- The free slots and the held ones make up the capacity. -/
def Conserved (s : Semaphore) (holds : α → Bool) (clients : List α) : Prop :=
  s.free + clients.countP holds = s.capacity

theorem acquire_some (h : s.acquire = some t) : t.capacity = s.capacity ∧ s.free = t.free + 1 := by
  unfold acquire at h
  split at h
  · obtain rfl := Option.some.inj h
    refine ⟨rfl, ?_⟩
    dsimp only
    omega
  · cases h

theorem release_some (h : s.release = some t) : t.capacity = s.capacity ∧ t.free = s.free + 1 := by
  unfold release at h
  split at h
  · obtain rfl := Option.some.inj h
    exact ⟨rfl, rfl⟩
  · cases h

theorem countP_set (holds : α → Bool) (b : α) (h : clients[i]? = some a) :
    (clients.set i b).countP holds + (holds a).toNat = clients.countP holds + (holds b).toNat := by
  induction clients generalizing i with
  | nil => cases h
  | cons c cs ih =>
    have hone : ∀ x : Bool, x.toNat = if x = true then 1 else 0 := by decide
    cases i with
    | zero =>
      obtain rfl := Option.some.inj h
      rw [List.set_cons_zero, List.countP_cons, List.countP_cons, hone, hone]
      omega
    | succ i =>
      have hrest := ih (i := i) h
      rw [List.set_cons_succ, List.countP_cons, List.countP_cons]
      omega

/-- A client moves, and the free slots with it. -/
theorem Conserved.set (hs : s.Conserved holds clients) (h : clients[i]? = some a)
    (hcapacity : t.capacity = s.capacity)
    (hmove : t.free + (holds b).toNat = s.free + (holds a).toNat) :
    t.Conserved holds (clients.set i b) := by
  have hcount := countP_set holds b h
  unfold Conserved at *
  omega

/-- A client comes. -/
theorem Conserved.append (hs : s.Conserved holds clients) (hcapacity : t.capacity = s.capacity)
    (hmove : t.free + (holds b).toNat = s.free) : t.Conserved holds (clients ++ [b]) := by
  have hone : (holds b).toNat = if holds b = true then 1 else 0 := by cases holds b <;> rfl
  unfold Conserved at *
  rw [List.countP_append, List.countP_singleton]
  omega

/-- A slot that a client holds can be given back. -/
theorem Conserved.release (hs : s.Conserved holds clients) (h : clients[i]? = some a)
    (ha : holds a = true) : ∃ t, s.release = some t := by
  have hpos : 0 < clients.countP holds :=
    List.countP_pos_iff.mpr ⟨a, List.mem_of_getElem? h, ha⟩
  unfold Conserved at hs
  refine ⟨_, if_pos ?_⟩
  omega

theorem Conserved.le (hs : s.Conserved holds clients) : clients.countP holds ≤ s.capacity := by
  unfold Conserved at hs
  omega

/-- When no client holds a slot, all are free. -/
theorem Conserved.all_free (hs : s.Conserved holds clients) (h : ∀ a ∈ clients, holds a = false) :
    s.free = s.capacity := by
  have hzero : clients.countP holds = 0 := List.countP_eq_zero.mpr fun a ha => by simp [h a ha]
  unfold Conserved at hs
  omega

end Conserved

end Semaphore

end HermesOps.Schemes
