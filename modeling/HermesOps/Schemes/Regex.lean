import Mathlib.Data.List.Basic

/-! Regular expressions with the assertions that look at the neighbouring characters. Running one at a
    position gives every position it can end at, so the two questions asked of an expression, whether
    it matches a whole text and whether it occurs in one, are decided by search. -/

namespace HermesOps.Schemes

/-- An expression; `notAfter` and `boundary` look at the character before, `notBefore` looks ahead. -/
inductive Regex where
  | empty
  | set (p : Char → Bool)
  | seq (a b : Regex)
  | alt (a b : Regex)
  | star (a : Regex)
  | notAfter (p : Char → Bool)
  | notBefore (a : Regex)
  | boundary (word : Char → Bool)

namespace Regex

/-- A position in a text: the character before it and the text from it on. -/
structure Position where
  last : Option Char
  rest : List Char
  deriving DecidableEq

/-- Repeats a step that consumes something. -/
def iterate (step : Position → List Position) : Nat → Position → List Position
  | 0, x => [x]
  | n + 1, x =>
    x :: ((step x).filter fun y => y.rest.length < x.rest.length).flatMap (iterate step n)

/-- The positions at which the expression can end. -/
def run : Regex → Position → List Position
  | empty, x => [x]
  | set p, x =>
    match x.rest with
    | c :: rest => if p c then [⟨some c, rest⟩] else []
    | [] => []
  | seq a b, x => (a.run x).flatMap b.run
  | alt a b, x => a.run x ++ b.run x
  | star a, x => iterate a.run x.rest.length x
  | notAfter p, x => if x.last.any p then [] else [x]
  | notBefore a, x => if (a.run x).isEmpty then [x] else []
  | boundary word, x => if x.last.any word ≠ x.rest.head?.any word then [x] else []

/-- The positions of a text from this one on. -/
def positions (last : Option Char) : List Char → List Position
  | [] => [⟨last, []⟩]
  | c :: rest => ⟨last, c :: rest⟩ :: positions (some c) rest

/-- `re.fullmatch`. -/
def fullMatch (a : Regex) (s : String) : Bool := (a.run ⟨none, s.toList⟩).any fun x => x.rest.isEmpty

/-- `re.search`. -/
def search (a : Regex) (s : String) : Bool :=
  (positions none s.toList).any fun x => !(a.run x).isEmpty

/-! ### Building expressions -/

/-- The characters of some ranges and some more. -/
def chars (ranges : List (Char × Char)) (others : String) (c : Char) : Bool :=
  (ranges.any fun r => r.1 ≤ c ∧ c ≤ r.2) || c ∈ others.toList

def char (c : Char) : Regex := set fun d => d = c

/-- `^`. -/
def start : Regex := notAfter fun _ => true

/-- `$`: the end, or a newline before it. -/
def finish : Regex :=
  notBefore (alt (set fun c => c ≠ '\n') (seq (char '\n') (set fun _ => true)))

def literal (s : String) : Regex := s.toList.foldr (fun c a => seq (char c) a) empty

/-- A literal whose characters are compared after folding. -/
def literalFolding (fold : Char → Char) (s : String) : Regex :=
  s.toList.foldr (fun c a => seq (set fun d => fold d = c) a) empty

def optional (a : Regex) : Regex := alt a empty

def plus (a : Regex) : Regex := seq a (star a)

def sequence (l : List Regex) : Regex := l.foldr seq empty

/-- One of several; of none, what never matches. -/
def oneOf (l : List Regex) : Regex := l.foldr alt (set fun _ => false)

/-- `a{n}`. -/
def times : Nat → Regex → Regex
  | 0, _ => empty
  | n + 1, a => seq a (times n a)

/-- `a{0,n}`. -/
def upTo : Nat → Regex → Regex
  | 0, _ => empty
  | n + 1, a => optional (seq a (upTo n a))

/-- `a{n,}`. -/
def atLeast (n : Nat) (a : Regex) : Regex := seq (times n a) (star a)

/-! ### Characters that every match contains -/

/-- Every match of the expression consumes a character of the class. -/
def Needs (P : Char → Prop) : Regex → Prop
  | set p => ∀ c, p c = true → P c
  | seq a b => a.Needs P ∨ b.Needs P
  | alt a b => a.Needs P ∧ b.Needs P
  | _ => False

theorem iterate_suffix {step : Position → List Position}
    (h : ∀ x, ∀ y ∈ step x, y.rest <:+ x.rest) (n : Nat) (x : Position) :
    ∀ y ∈ iterate step n x, y.rest <:+ x.rest := by
  induction n generalizing x with
  | zero =>
    intro y hy
    cases List.mem_singleton.1 hy
    exact List.suffix_rfl
  | succ n ih =>
    intro y hy
    rcases List.mem_cons.1 hy with rfl | hy
    · exact List.suffix_rfl
    · obtain ⟨z, hz, hy⟩ := List.mem_flatMap.1 hy
      exact (ih z y hy).trans (h x z (List.mem_of_mem_filter hz))

/-- A run ends further on in the text. -/
theorem run_suffix (a : Regex) (x : Position) : ∀ y ∈ a.run x, y.rest <:+ x.rest := by
  induction a generalizing x with
  | empty =>
    intro y hy
    cases List.mem_singleton.1 hy
    exact List.suffix_rfl
  | set p =>
    intro y hy
    simp only [run] at hy
    split at hy
    · rename_i c rest hrest
      split at hy
      · rw [List.mem_singleton.1 hy, hrest]
        exact List.suffix_cons c rest
      · cases hy
    · cases hy
  | seq a b iha ihb =>
    intro y hy
    obtain ⟨z, hz, hy⟩ := List.mem_flatMap.1 hy
    exact (ihb z y hy).trans (iha x z hz)
  | alt a b iha ihb =>
    intro y hy
    rcases List.mem_append.1 hy with hy | hy
    · exact iha x y hy
    · exact ihb x y hy
  | star a ih => exact iterate_suffix ih x.rest.length x
  | notAfter p =>
    intro y hy
    rw [run] at hy
    split at hy
    · cases hy
    · cases List.mem_singleton.1 hy
      exact List.suffix_rfl
  | notBefore a _ | boundary word =>
    intro y hy
    rw [run] at hy
    split at hy
    · cases List.mem_singleton.1 hy
      exact List.suffix_rfl
    · cases hy

theorem Needs.run_eq_nil {P : Char → Prop} {a : Regex} (h : a.Needs P) {x : Position}
    (hx : ∀ c ∈ x.rest, ¬P c) : a.run x = [] := by
  induction a generalizing x with
  | set p =>
    rw [run]
    split
    · rename_i c rest hrest
      rw [if_neg fun hp => hx c (by rw [hrest]; exact List.mem_cons_self) (h c hp)]
    · rfl
  | seq a b iha ihb =>
    rw [run, List.flatMap_eq_nil_iff]
    intro y hy
    rcases h with ha | hb
    · rw [iha ha hx] at hy
      cases hy
    · exact ihb hb fun c hc => hx c ((run_suffix a x y hy).subset hc)
  | alt a b iha ihb =>
    rw [run, iha h.1 hx, ihb h.2 hx]
    rfl
  | empty | star _ _ | notAfter _ | notBefore _ _ | boundary _ => exact h.elim

theorem positions_suffix (last : Option Char) (l : List Char) :
    ∀ x ∈ positions last l, x.rest <:+ l := by
  induction l generalizing last with
  | nil =>
    intro x hx
    cases List.mem_singleton.1 hx
    exact List.suffix_rfl
  | cons c l ih =>
    intro x hx
    rcases List.mem_cons.1 hx with rfl | hx
    · exact List.suffix_rfl
    · exact (ih _ x hx).trans (List.suffix_cons c l)

/-- A text without such characters has no match. -/
theorem Needs.search_eq_false {P : Char → Prop} {a : Regex} (h : a.Needs P) {s : String}
    (hs : ∀ c ∈ s.toList, ¬P c) : a.search s = false := by
  rw [search, List.any_eq_false]
  intro x hx
  rw [h.run_eq_nil fun c hc => hs c ((positions_suffix none s.toList x hx).subset hc)]
  simp

/-- A sequence needs what one of its parts needs. -/
theorem needs_sequence {P : Char → Prop} {a : Regex} {l : List Regex} (h : a ∈ l) (ha : a.Needs P) :
    (sequence l).Needs P := by
  induction l with
  | nil => cases h
  | cons b l ih =>
    rcases List.mem_cons.1 h with rfl | h
    · exact Or.inl ha
    · exact Or.inr (ih h)

theorem needs_set {P : Char → Prop} {p : Char → Bool} (h : ∀ c, p c = true → P c) :
    (set p).Needs P := h

/-- A literal needs each of its characters. -/
theorem needs_literal {P : Char → Prop} {s : String} {c : Char} (hc : c ∈ s.toList) (h : P c) :
    (literal s).Needs P := by
  unfold literal
  generalize s.toList = l at hc
  induction l with
  | nil => cases hc
  | cons d l ih =>
    rcases List.mem_cons.1 hc with rfl | hc
    · exact Or.inl fun d hd => by rw [of_decide_eq_true hd]; exact h
    · exact Or.inr (ih hc)

/-! ### How many characters a match consumes -/

/-- Every match of the expression consumes between `lo` and `hi` characters. -/
def Spans (lo hi : Nat) (a : Regex) : Prop :=
  ∀ x, ∀ y ∈ a.run x, y.rest.length + lo ≤ x.rest.length ∧ x.rest.length ≤ y.rest.length + hi

variable {a b : Regex} {lo hi lo' hi' : Nat}

theorem spans_empty : empty.Spans 0 0 := by
  rintro x y hy
  cases List.mem_singleton.1 hy
  exact ⟨Nat.le_refl _, Nat.le_refl _⟩

theorem spans_set {p : Char → Bool} : (set p).Spans 1 1 := by
  rintro ⟨last, rest⟩ y hy
  cases rest with
  | nil => cases hy
  | cons c rest =>
    simp only [run] at hy
    split at hy
    · cases List.mem_singleton.1 hy
      exact ⟨Nat.le_refl _, Nat.le_refl _⟩
    · cases hy

theorem Spans.seq (ha : a.Spans lo hi) (hb : b.Spans lo' hi') : (seq a b).Spans (lo + lo') (hi + hi') := by
  rintro x z hz
  obtain ⟨y, hy, hz⟩ := List.mem_flatMap.1 hz
  have hxy := ha x y hy
  have hyz := hb y z hz
  omega

theorem Spans.alt (ha : a.Spans lo hi) (hb : b.Spans lo' hi') :
    (alt a b).Spans (min lo lo') (max hi hi') := by
  rintro x y hy
  rcases List.mem_append.1 hy with hy | hy
  · have := ha x y hy
    omega
  · have := hb x y hy
    omega

theorem Spans.optional (ha : a.Spans lo hi) : (optional a).Spans 0 hi := by
  intro x y hy
  have := ha.alt spans_empty x y hy
  omega

theorem Spans.upTo (ha : a.Spans lo hi) (n : Nat) : (upTo n a).Spans 0 (n * hi) := by
  induction n with
  | zero => rw [Nat.zero_mul]; exact spans_empty
  | succ n ih =>
    intro x y hy
    have := (ha.seq ih).optional x y hy
    rw [Nat.succ_mul]
    omega

/-- A text that matches as a whole has a length in between. -/
theorem Spans.length (ha : a.Spans lo hi) {s : String} (h : a.fullMatch s = true) :
    lo ≤ s.length ∧ s.length ≤ hi := by
  obtain ⟨y, hy, hempty⟩ := List.any_eq_true.1 h
  have hspan := ha _ y hy
  rw [List.isEmpty_iff.1 hempty, List.length_nil, String.length_toList] at hspan
  omega

end Regex

end HermesOps.Schemes
