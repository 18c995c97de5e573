import Mathlib.Data.List.Basic
import Mathlib.Algebra.GroupWithZero.Nat

/-! Checks that report to a list with room for a number of entries. The checks are taken in groups: a
    group states a constraint, reports faults when the input breaks it, and then reports the notices it
    has on the input. What the list keeps shows a fault unless the notices before it fill the list, and
    this is decided by the constraints and the numbers of notices alone. -/

namespace HermesOps.Schemes

namespace Checks

/-- Entries that are faults or notices. -/
class Graded (ε : Type) where
  fault : ε → Prop

variable {α β ε : Type} [Graded ε]

/-- No entry of the list is a fault. -/
def Clean (l : List ε) : Prop := ∀ d ∈ l, ¬Graded.fault d

/-- Every entry of the list is a fault. -/
def Faults (l : List ε) : Prop := ∀ d ∈ l, Graded.fault d

theorem clean_nil : Clean ([] : List ε) ↔ True := by simp [Clean]

theorem clean_append {f g : List ε} : Clean (f ++ g) ↔ Clean f ∧ Clean g := by
  simp only [Clean, List.mem_append, or_imp, forall_and]

theorem clean_flatMap {l : List α} {f : α → List ε} :
    Clean (l.flatMap f) ↔ ∀ x ∈ l, Clean (f x) := by
  simp only [Clean, List.mem_flatMap, forall_exists_index, and_imp]
  exact ⟨fun h x hx d hd => h d x hx hd, fun h d x hx hd => h x hx d hd⟩

@[simp] theorem faults_nil : Faults ([] : List ε) := by simp [Faults]

@[simp] theorem faults_append {f g : List ε} : Faults (f ++ g) ↔ Faults f ∧ Faults g := by
  simp only [Faults, List.mem_append, or_imp, forall_and]

theorem faults_flatMap {l : List α} {f : α → List ε} (h : ∀ x, Faults (f x)) :
    Faults (l.flatMap f) := by
  intro d hd
  obtain ⟨x, -, hx⟩ := List.mem_flatMap.1 hd
  exact h x d hx

/-- Faults are clean only when there are none. -/
theorem Faults.clean_iff {f : List ε} (h : Faults f) : Clean f ↔ f = [] := by
  constructor
  · intro hclean
    exact List.eq_nil_iff_forall_not_mem.2 fun d hd => hclean d hd (h d hd)
  · rintro rfl
    exact clean_nil.2 trivial

theorem Clean.take {f : List ε} (h : Clean f) (n : Nat) : Clean (f.take n) :=
  fun d hd => h d (List.mem_of_mem_take hd)

/-! ### Groups -/

/-- A constraint, and the number of notices that follow its faults. -/
structure CheckGroup (α : Type) where
  holds : α → Prop
  notices : α → Nat

def CheckGroup.constraint (P : α → Prop) : CheckGroup α := ⟨P, fun _ => 0⟩

/-- The group for a part of the input that may be absent. -/
def CheckGroup.comap (f : β → Option α) (g : CheckGroup α) : CheckGroup β where
  holds b := ∀ a, f b = some a → g.holds a
  notices b := ((f b).map g.notices).getD 0

/-- What the groups report on an input. -/
inductive Follows (a : α) : List ε → List (CheckGroup α) → Prop
  | nil : Follows a [] []
  | cons {faults notices rest : List ε} {g : CheckGroup α} {gs : List (CheckGroup α)} :
    Faults faults → (Clean faults ↔ g.holds a) → Clean notices →
      notices.length = g.notices a → Follows a rest gs →
      Follows a (faults ++ notices ++ rest) (g :: gs)

/-- Of a list of `n` entries: a constraint that is broken comes before the list is full of notices. -/
def Caught (a : α) : Nat → List (CheckGroup α) → Prop
  | _, [] => False
  | n, g :: gs => (0 < n ∧ ¬g.holds a) ∨ Caught a (n - g.notices a) gs

variable {a : α} {f l l' : List ε} {gs gs' : List (CheckGroup α)}

theorem Follows.group {notices : List ε} {g : CheckGroup α} (hfaults : Faults f)
    (hclean : Clean f ↔ g.holds a) (hnotices : Clean notices)
    (hlength : notices.length = g.notices a) : Follows a (f ++ notices) [g] := by
  have h : Follows a (f ++ notices ++ []) [g] :=
    Follows.cons hfaults hclean hnotices hlength Follows.nil
  rwa [List.append_nil] at h

theorem Follows.constraint {P : α → Prop} (hfaults : Faults f) (hclean : Clean f ↔ P a) :
    Follows a f [CheckGroup.constraint P] := by
  have h : Follows a (f ++ []) [CheckGroup.constraint P] :=
    Follows.group hfaults hclean (clean_nil.2 trivial) rfl
  rwa [List.append_nil] at h

theorem Follows.append (h : Follows a l gs) (h' : Follows a l' gs') :
    Follows a (l ++ l') (gs ++ gs') := by
  induction h with
  | nil => exact h'
  | cons hfaults hclean hnotices hlength _ ih =>
    rw [List.append_assoc, List.cons_append]
    exact Follows.cons hfaults hclean hnotices hlength ih

theorem Follows.comap {f : β → Option α} {b : β} (hb : f b = some a) (h : Follows a l gs) :
    Follows b l (gs.map (CheckGroup.comap f)) := by
  induction h with
  | nil => exact Follows.nil
  | cons hfaults hclean hnotices hlength _ ih =>
    refine Follows.cons hfaults (hclean.trans ?_) hnotices ?_ ih
    · simp [CheckGroup.comap, hb]
    · simp [CheckGroup.comap, hb, hlength]

/-- An absent part is not checked. -/
theorem Follows.absent {f : β → Option α} {b : β} (hb : f b = none) (gs : List (CheckGroup α)) :
    Follows b ([] : List ε) (gs.map (CheckGroup.comap f)) := by
  induction gs with
  | nil => exact Follows.nil
  | cons g gs ih =>
    have hclean : Clean ([] : List ε) ↔ (CheckGroup.comap f g).holds b := by simp [clean_nil, CheckGroup.comap, hb]
    exact Follows.cons faults_nil hclean (clean_nil.2 trivial) (by simp [CheckGroup.comap, hb]) ih

theorem caught_zero (a : α) (gs : List (CheckGroup α)) : ¬Caught a 0 gs := by
  induction gs with
  | nil => exact id
  | cons g gs ih =>
    rintro (⟨hlt, -⟩ | h)
    · exact absurd hlt (Nat.lt_irrefl 0)
    · rw [Nat.zero_sub] at h
      exact ih h

/-- Fewer than `n` notices come before a broken constraint. -/
theorem caught_iff {n : Nat} : Caught a n gs ↔ ∃ before g after, gs = before ++ g :: after ∧
    ¬g.holds a ∧ (before.map fun g => g.notices a).sum < n := by
  induction gs generalizing n with
  | nil => simp [Caught]
  | cons g gs ih =>
    rw [Caught, ih]
    constructor
    · rintro (⟨hn, hbroken⟩ | ⟨before, g', after, rfl, hbroken, hsum⟩)
      · exact ⟨[], g, gs, rfl, hbroken, hn⟩
      · refine ⟨g :: before, g', after, rfl, hbroken, ?_⟩
        rw [List.map_cons, List.sum_cons]
        omega
    · rintro ⟨before, g', after, heq, hbroken, hsum⟩
      cases before with
      | nil =>
        obtain ⟨rfl, rfl⟩ := List.cons.inj heq
        exact Or.inl ⟨hsum, hbroken⟩
      | cons g'' before =>
        obtain ⟨rfl, rfl⟩ := List.cons.inj heq
        rw [List.map_cons, List.sum_cons] at hsum
        exact Or.inr ⟨before, g', after, rfl, hbroken, by omega⟩

/-- The entries that are kept show a fault exactly if a broken constraint is caught. -/
theorem Follows.kept (h : Follows a l gs) (n : Nat) :
    Clean (l.take n) ↔ ¬Caught a n gs := by
  induction h generalizing n with
  | nil => simp [clean_nil, Caught]
  | @cons faults notices rest g gs hfaults hclean hnotices hlength _ ih =>
    simp only [Caught, not_or, not_and, not_not]
    rcases Nat.eq_zero_or_pos n with rfl | hn
    · simp [clean_nil, caught_zero]
    by_cases hholds : g.holds a
    · rw [hfaults.clean_iff.1 (hclean.2 hholds), List.nil_append, List.take_append, clean_append,
        hlength, ih]
      exact ⟨fun h => ⟨fun _ => hholds, h.2⟩, fun h => ⟨hnotices.take n, h.2⟩⟩
    · have hne : faults ≠ [] := fun hnil => hholds (hclean.1 (hfaults.clean_iff.2 hnil))
      obtain ⟨d, faults, rfl⟩ := List.exists_cons_of_ne_nil hne
      obtain ⟨n, rfl⟩ := Nat.exists_eq_succ_of_ne_zero (Nat.ne_of_gt hn)
      refine ⟨fun h => absurd (hfaults d List.mem_cons_self) (h d ?_), fun h => absurd (h.1 hn) hholds⟩
      rw [List.cons_append, List.cons_append, List.take_succ_cons]
      exact List.mem_cons_self

theorem Follows.clean (h : Follows a l gs) : Clean l ↔ ∀ g ∈ gs, g.holds a := by
  induction h with
  | nil => simp [clean_nil]
  | cons hfaults hclean hnotices _ _ ih =>
    rw [clean_append, clean_append, hclean, ih, List.forall_mem_cons]
    exact ⟨fun h => ⟨h.1.1, h.2⟩, fun h => ⟨⟨h.1, hnotices⟩, h.2⟩⟩

/-! ### Two inputs -/

/-- The second input keeps the constraints of the first and has as many notices. -/
structure Keeps (gs : List (CheckGroup α)) (a b : α) : Prop where
  holds : ∀ g ∈ gs, g.holds a → g.holds b
  notices : ∀ g ∈ gs, g.notices b = g.notices a

/-- The input satisfies every constraint and has no notice. -/
structure Silent (gs : List (CheckGroup α)) (a : α) : Prop where
  holds : ∀ g ∈ gs, g.holds a
  notices : ∀ g ∈ gs, g.notices a = 0

variable {b : α}

theorem Keeps.nil : Keeps [] a b := ⟨by simp, by simp⟩

theorem Keeps.append (h : Keeps gs a b) (h' : Keeps gs' a b) : Keeps (gs ++ gs') a b := by
  constructor
  · intro g hg
    rcases List.mem_append.1 hg with hg | hg
    · exact h.holds g hg
    · exact h'.holds g hg
  · intro g hg
    rcases List.mem_append.1 hg with hg | hg
    · exact h.notices g hg
    · exact h'.notices g hg

theorem Keeps.cons {g : CheckGroup α} (hholds : g.holds a → g.holds b)
    (hnotices : g.notices b = g.notices a) (h : Keeps gs a b) : Keeps (g :: gs) a b :=
  ⟨List.forall_mem_cons.2 ⟨hholds, h.holds⟩, List.forall_mem_cons.2 ⟨hnotices, h.notices⟩⟩

theorem Keeps.constraint {P : α → Prop} (h : P a → P b) (hrest : Keeps gs a b) :
    Keeps (CheckGroup.constraint P :: gs) a b := Keeps.cons h rfl hrest

theorem Keeps.refl (gs : List (CheckGroup α)) (a : α) : Keeps gs a a :=
  ⟨fun _ _ h => h, fun _ _ => rfl⟩

section

variable {f : β → Option α} {x y : β}

theorem Keeps.comap (hx : f x = some a) (hy : f y = some b) (h : Keeps gs a b) :
    Keeps (gs.map (CheckGroup.comap f)) x y := by
  constructor
  · intro g hg
    obtain ⟨g', hg', rfl⟩ := List.mem_map.1 hg
    simpa [CheckGroup.comap, hx, hy] using h.holds g' hg'
  · intro g hg
    obtain ⟨g', hg', rfl⟩ := List.mem_map.1 hg
    simpa [CheckGroup.comap, hx, hy] using h.notices g' hg'

/-- A part that was absent and is silent now. -/
theorem Keeps.silent (hx : f x = none) (hy : f y = some b) (h : Silent gs b) :
    Keeps (gs.map (CheckGroup.comap f)) x y := by
  constructor
  · intro g hg
    obtain ⟨g', hg', rfl⟩ := List.mem_map.1 hg
    simpa [CheckGroup.comap, hx, hy] using h.holds g' hg'
  · intro g hg
    obtain ⟨g', hg', rfl⟩ := List.mem_map.1 hg
    simpa [CheckGroup.comap, hx, hy] using h.notices g' hg'

/-- A part that is the same in both. -/
theorem Keeps.same (h : f x = f y) : Keeps (gs.map (CheckGroup.comap f)) x y := by
  constructor
  · intro g hg
    obtain ⟨g', hg', rfl⟩ := List.mem_map.1 hg
    simp [CheckGroup.comap, h]
  · intro g hg
    obtain ⟨g', hg', rfl⟩ := List.mem_map.1 hg
    simp [CheckGroup.comap, h]

end

/-- An input that keeps the constraints is caught only if the other one is. -/
theorem Keeps.caught (h : Keeps gs a b) {n : Nat} (hcaught : Caught b n gs) : Caught a n gs := by
  obtain ⟨hholds, hnotices⟩ := h
  induction gs generalizing n with
  | nil => exact hcaught
  | cons g gs ih =>
    rw [List.forall_mem_cons] at hholds hnotices
    rcases hcaught with ⟨hn, hbroken⟩ | hlater
    · exact Or.inl ⟨hn, fun ha => hbroken (hholds.1 ha)⟩
    · rw [hnotices.1] at hlater
      exact Or.inr (ih hlater hholds.2 hnotices.2)

end Checks

end HermesOps.Schemes
