import Mathlib.Data.List.TakeWhile
import HermesOps.Controller.JsonText
import HermesOps.Schemes.Decimal

/-! What `json.loads` reads of what `json.dumps` has written. A value is plain when its integers are not
    too long, its floats are literals that read as themselves, and its objects have their keys in
    order; the text of a plain value is read back as that value, whatever delimiter comes after it.
    The count of steps that the reader is given never decides what it reads. -/

namespace HermesOps.Controller

/-! ### Strings -/

theorem scanString_quote (rest : List Char) : scanString ('"' :: rest) = some ([], rest) := by
  rw [scanString, if_pos rfl]

theorem scanString_plain {c : Char} (hquote : c ≠ '"') (hslash : c ≠ '\\') (hlow : 32 ≤ c.toNat)
    (rest : List Char) :
    scanString (c :: rest) = (scanString rest).map fun x => (c :: x.1, x.2) := by
  rw [scanString, if_neg hquote, if_neg hslash, if_neg (Nat.not_lt.2 hlow)]

theorem scanString_escape {rest after : List Char} {d : Char} (h : scanEscape rest = some (d, after)) :
    scanString ('\\' :: rest) = (scanString after).map fun x => (d :: x.1, x.2) := by
  rw [scanString, if_neg (by decide), if_pos rfl]
  split
  · rename_i d' after' h'
    cases h.symm.trans h'
    rfl
  · rename_i h'
    cases h.symm.trans h'

theorem toNat_inj {c d : Char} (h : c.toNat = d.toNat) : c = d := by
  rw [← Char.ofNat_toNat c, h, Char.ofNat_toNat]

theorem hexValue_hexDigit {a : Nat} (h : a < 16) : hexValue (hexDigit a) = some a := by
  have hall : ∀ a < 16, hexValue (hexDigit a) = some a := by decide
  exact hall a h

/-- A control character is read back from its four digits. -/
theorem scanEscape_control {c : Char} (h : c.toNat < 32) (rest : List Char) :
    scanEscape ('u' :: '0' :: '0' :: hexDigit (c.toNat / 16) :: hexDigit (c.toNat % 16) :: rest) =
      some (c, rest) := by
  have hzero : hexValue '0' = some 0 := by decide
  have hunit : codeUnit ('0' :: '0' :: hexDigit (c.toNat / 16) :: hexDigit (c.toNat % 16) :: rest) =
      some (c.toNat, rest) := by
    simp only [codeUnit, hzero, hexValue_hexDigit (show c.toNat / 16 < 16 by omega),
      hexValue_hexDigit (show c.toNat % 16 < 16 by omega), Option.bind_eq_bind, Option.bind_some,
      Option.pure_def, Option.some.injEq, Prod.mk.injEq, and_true]
    omega
  have hhigh : isHighSurrogate c.toNat = false := decide_eq_false (by omega)
  have hlow : isLowSurrogate c.toNat = false := decide_eq_false (by omega)
  simp only [scanEscape, if_true, hunit, Option.bind_eq_bind, Option.bind_some, hhigh, hlow,
    Bool.false_eq_true, if_false, Option.pure_def, Char.ofNat_toNat]

/-- What is written for a character is read as that character. -/
theorem scanString_written (c : Char) (rest : List Char) :
    scanString ((escape c).toList ++ rest) = (scanString rest).map fun x => (c :: x.1, x.2) := by
  unfold escape
  split_ifs with h₁ h₂ h₃ h₄ h₅ h₆ h₇ h₈
  · obtain rfl : c = '"' := toNat_inj h₁
    exact scanString_escape rfl
  · obtain rfl : c = '\\' := toNat_inj h₂
    exact scanString_escape rfl
  · obtain rfl : c = '\n' := toNat_inj h₃
    exact scanString_escape rfl
  · obtain rfl : c = '\r' := toNat_inj h₄
    exact scanString_escape rfl
  · obtain rfl : c = '\t' := toNat_inj h₅
    exact scanString_escape rfl
  · obtain rfl : c = '\x08' := toNat_inj h₆
    exact scanString_escape rfl
  · obtain rfl : c = '\x0c' := toNat_inj h₇
    exact scanString_escape rfl
  · have hdigits : (String.ofList [hexDigit (c.toNat / 16), hexDigit (c.toNat % 16)]).toList =
        [hexDigit (c.toNat / 16), hexDigit (c.toNat % 16)] := String.toList_ofList
    rw [String.toList_append, hdigits]
    exact scanString_escape (scanEscape_control h₈ rest)
  · have hquote : c ≠ '"' := by rintro rfl; exact h₁ rfl
    have hslash : c ≠ '\\' := by rintro rfl; exact h₂ rfl
    rw [show c.toString.toList = [c] from String.toList_ofList]
    exact scanString_plain hquote hslash (Nat.not_lt.1 h₈) rest

theorem scanString_chars (s rest : List Char) :
    scanString (s.flatMap (fun c => (escape c).toList) ++ '"' :: rest) = some (s, rest) := by
  induction s with
  | nil => exact scanString_quote rest
  | cons c s ih =>
    rw [List.flatMap_cons, List.append_assoc, scanString_written, ih]
    rfl

theorem toList_quote (s : String) :
    (quote s).toList = '"' :: (s.toList.flatMap (fun c => (escape c).toList) ++ ['"']) := by
  rw [quote, String.toList_append, String.toList_append, String.toList_join, List.flatMap_map]
  rfl

/-! ### Numbers -/

/-- The characters that can follow a value in a text without spaces. -/
def isDelimiter (c : Char) : Bool := c ∈ [',', ']', '\x7d']

/-- A text after a value: empty, or a delimiter first. -/
def Stops (rest : List Char) : Prop := ∀ c tail, rest = c :: tail → isDelimiter c = true

theorem stops_nil : Stops [] := fun _ _ h => by cases h

theorem stops_cons {c : Char} {tail : List Char} (h : isDelimiter c = true) : Stops (c :: tail) := by
  intro d rest heq
  cases heq
  exact h

/-- No delimiter is part of a number. -/
theorem delimiter_ne {c : Char} (h : isDelimiter c = true) :
    c.isDigit = false ∧ c ≠ '.' ∧ c ≠ 'e' ∧ c ≠ 'E' := by
  have hall : ∀ c ∈ [',', ']', '\x7d'], c.isDigit = false ∧ c ≠ '.' ∧ c ≠ 'e' ∧ c ≠ 'E' := by simp
  exact hall c (of_decide_eq_true h)

variable {rest : List Char}

theorem takeWhile_stops (h : Stops rest) (cs : List Char) :
    (cs ++ rest).takeWhile Char.isDigit = cs.takeWhile Char.isDigit ∧
      (cs ++ rest).dropWhile Char.isDigit = cs.dropWhile Char.isDigit ++ rest := by
  induction cs with
  | nil =>
    cases rest with
    | nil => exact ⟨rfl, rfl⟩
    | cons c tail =>
      have hdigit := (delimiter_ne (h c tail rfl)).1
      simp [hdigit]
  | cons c cs ih =>
    rw [List.cons_append, List.takeWhile_cons, List.takeWhile_cons, List.dropWhile_cons,
      List.dropWhile_cons, ih.1, ih.2]
    cases c.isDigit <;> exact ⟨rfl, rfl⟩

theorem scanInteger_append (h : Stops rest) {cs digits after : List Char}
    (hcs : scanInteger cs = some (digits, after)) :
    scanInteger (cs ++ rest) = some (digits, after ++ rest) := by
  cases cs with
  | nil => cases hcs
  | cons c cs =>
    rw [List.cons_append]
    simp only [scanInteger] at hcs ⊢
    split
    · rename_i hzero
      rw [if_pos hzero] at hcs
      cases hcs
      rfl
    · rename_i hzero
      rw [if_neg hzero] at hcs
      split
      · rename_i hdigit
        rw [if_pos hdigit] at hcs
        cases hcs
        rw [(takeWhile_stops h cs).1, (takeWhile_stops h cs).2]
      · rename_i hdigit
        rw [if_neg hdigit] at hcs
        cases hcs

theorem scanFraction_append (h : Stops rest) (cs : List Char) :
    scanFraction (cs ++ rest) = ((scanFraction cs).1, (scanFraction cs).2 ++ rest) := by
  cases cs with
  | nil =>
    cases rest with
    | nil => rfl
    | cons c tail =>
      have hpoint := (delimiter_ne (h c tail rfl)).2.1
      rw [List.nil_append]
      unfold scanFraction
      split
      · rename_i heq
        cases heq
        exact absurd rfl hpoint
      · rfl
  | cons c cs =>
    rw [List.cons_append]
    by_cases hpoint : c = '.'
    · subst hpoint
      simp only [scanFraction, (takeWhile_stops h cs).1, (takeWhile_stops h cs).2]
      split <;> rfl
    · have hnone (l : List Char) : scanFraction (c :: l) = ([], c :: l) := by
        unfold scanFraction
        split
        · rename_i heq
          cases heq
          exact absurd rfl hpoint
        · rfl
      rw [hnone, hnone]
      rfl

theorem scanSign_append (h : Stops rest) (cs : List Char) :
    scanSign (cs ++ rest) = ((scanSign cs).1, (scanSign cs).2 ++ rest) := by
  cases cs with
  | nil =>
    cases rest with
    | nil => rfl
    | cons c tail =>
      have hsign : c ≠ '+' ∧ c ≠ '-' := by
        have hall : ∀ c ∈ [',', ']', '\x7d'], c ≠ '+' ∧ c ≠ '-' := by simp
        exact hall c (of_decide_eq_true (h c tail rfl))
      rw [List.nil_append]
      unfold scanSign
      split
      · rename_i heq
        cases heq
        exact absurd rfl hsign.1
      · rename_i heq
        cases heq
        exact absurd rfl hsign.2
      · rfl
  | cons c cs =>
    rw [List.cons_append]
    unfold scanSign
    split <;> split <;> simp_all

theorem scanExponent_append (h : Stops rest) (cs : List Char) :
    scanExponent (cs ++ rest) = ((scanExponent cs).1, (scanExponent cs).2 ++ rest) := by
  cases cs with
  | nil =>
    cases rest with
    | nil => rfl
    | cons c tail =>
      have hletter := (delimiter_ne (h c tail rfl)).2.2
      rw [List.nil_append]
      simp only [scanExponent]
      rw [if_neg (not_or.2 hletter)]
      rfl
  | cons c cs =>
    rw [List.cons_append]
    simp only [scanExponent]
    split
    · simp only [scanSign_append h cs, (takeWhile_stops h (scanSign cs).2).1,
        (takeWhile_stops h (scanSign cs).2).2]
      split <;> rfl
    · rfl

/-- A number is read the same whatever delimiter follows. -/
theorem scanParts_append (h : Stops rest) {cs after : List Char} {p : NumberParts}
    (hcs : scanParts cs = some (p, after)) : scanParts (cs ++ rest) = some (p, after ++ rest) := by
  obtain ⟨⟨digits, tail⟩, hdigits, heq⟩ := Option.map_eq_some_iff.1 hcs
  have hminus : (scanMinus (cs ++ rest)).1 = (scanMinus cs).1 ∧
      (scanMinus (cs ++ rest)).2 = (scanMinus cs).2 ++ rest := by
    cases cs with
    | nil => cases hdigits
    | cons c cs =>
      rw [List.cons_append]
      simp only [scanMinus]
      split <;> exact ⟨rfl, rfl⟩
  rw [scanParts, hminus.1, hminus.2, scanInteger_append h hdigits, Option.map_some]
  simp only [scanFraction_append h, scanExponent_append h]
  cases heq
  rfl

/-! ### What a number consumes -/

theorem scanInteger_eq {cs digits after : List Char} (h : scanInteger cs = some (digits, after)) :
    cs = digits ++ after ∧ ∃ d tail, d.isDigit = true ∧ cs = d :: tail := by
  cases cs with
  | nil => cases h
  | cons c cs =>
    simp only [scanInteger] at h
    split at h
    · rename_i hzero
      obtain ⟨rfl, rfl⟩ := Prod.mk.inj (Option.some.inj h)
      exact ⟨by rw [hzero]; rfl, c, cs, by rw [hzero]; rfl, rfl⟩
    · split at h
      · rename_i hdigit
        cases h
        exact ⟨by rw [List.cons_append, List.takeWhile_append_dropWhile], c, cs, hdigit, rfl⟩
      · cases h

theorem scanFraction_eq (cs : List Char) : cs = (scanFraction cs).1 ++ (scanFraction cs).2 := by
  unfold scanFraction
  split
  · split
    · rfl
    · rw [List.cons_append, List.takeWhile_append_dropWhile]
  · rfl

theorem scanSign_eq (cs : List Char) : cs = (scanSign cs).1 ++ (scanSign cs).2 := by
  unfold scanSign
  split <;> rfl

theorem scanExponent_eq (cs : List Char) : cs = (scanExponent cs).1 ++ (scanExponent cs).2 := by
  unfold scanExponent
  split
  · rfl
  · split
    · split
      · rfl
      · rw [List.cons_append, List.append_assoc, List.takeWhile_append_dropWhile, ← scanSign_eq]
    · rfl

/-- A number is consumed as it is, and starts with a digit after its sign. -/
theorem scanParts_eq {cs after : List Char} {p : NumberParts} (h : scanParts cs = some (p, after)) :
    cs = p.chars ++ after ∧ ∃ d tail, d.isDigit = true ∧ (cs = d :: tail ∨ cs = '-' :: d :: tail) := by
  obtain ⟨⟨digits, tail⟩, hdigits, heq⟩ := Option.map_eq_some_iff.1 h
  have hminus : cs = (if (scanMinus cs).1 then ['-'] else []) ++ (scanMinus cs).2 := by
    cases cs with
    | nil => rfl
    | cons c cs =>
      simp only [scanMinus]
      split
      · rename_i hc
        rw [hc]
        rfl
      · rfl
  obtain ⟨hbody, d, more, hd, hhead⟩ := scanInteger_eq hdigits
  cases heq
  refine ⟨?_, d, more, hd, ?_⟩
  · conv_lhs => rw [hminus, hbody, scanFraction_eq tail, scanExponent_eq (scanFraction tail).2]
    simp only [NumberParts.chars, List.append_assoc]
  · rw [hhead] at hminus
    cases hneg : (scanMinus cs).1
    · exact Or.inl (by rw [hminus, hneg]; rfl)
    · exact Or.inr (by rw [hminus, hneg]; rfl)

/-! ### Integers -/

theorem takeWhile_digits {l : List Char} (h : ∀ c ∈ l, c.isDigit = true) :
    l.takeWhile Char.isDigit = l ∧ l.dropWhile Char.isDigit = [] :=
  ⟨List.takeWhile_eq_self_iff.2 h, List.dropWhile_eq_nil_iff.2 h⟩

/-- The digits of a natural number are an integer part. -/
theorem scanInteger_toDigits (n : Nat) :
    scanInteger (Nat.toDigits 10 n) = some (Nat.toDigits 10 n, []) := by
  have hdigits : ∀ c ∈ Nat.toDigits 10 n, c.isDigit = true :=
    fun c hc => Nat.isDigit_of_mem_toDigits (by decide) (by decide) hc
  by_cases hn : n = 0
  · subst hn
    rfl
  · obtain ⟨d, tail, heq, hd⟩ := Schemes.Decimal.toDigits_head hn
    rw [heq] at hdigits ⊢
    have htail := takeWhile_digits fun c hc => hdigits c (List.mem_cons_of_mem d hc)
    rw [scanInteger, if_neg hd, if_pos (hdigits d List.mem_cons_self), htail.1, htail.2]

theorem toList_int (n : Int) : (toString n).toList =
    (if n < 0 then ['-'] else []) ++ Nat.toDigits 10 n.natAbs := by
  rw [Int.toString_eq_repr, Int.repr_eq_if]
  by_cases hn : n < 0
  · rw [if_neg (by omega), if_pos hn, String.toList_append, Nat.toList_repr]
    rw [show (-n).toNat = n.natAbs by omega]
    rfl
  · rw [if_pos (by omega), if_neg hn, Nat.toList_repr, show n.toNat = n.natAbs by omega]
    rfl

theorem scanMinus_digits (n : Nat) : scanMinus (Nat.toDigits 10 n) = (false, Nat.toDigits 10 n) := by
  obtain ⟨-, d, tail, hd, heq⟩ := scanInteger_eq (scanInteger_toDigits n)
  rw [heq, scanMinus, if_neg]
  rintro rfl
  exact absurd hd (by decide)

/-- The parts of a printed integer. -/
theorem scanParts_int (n : Int) : scanParts (toString n).toList =
    some (⟨decide (n < 0), Nat.toDigits 10 n.natAbs, [], []⟩, []) := by
  have hminus : scanMinus (toString n).toList = (decide (n < 0), Nat.toDigits 10 n.natAbs) := by
    rw [toList_int]
    by_cases hn : n < 0
    · rw [if_pos hn, decide_eq_true hn]
      rfl
    · rw [if_neg hn, decide_eq_false hn, List.nil_append, scanMinus_digits]
  rw [scanParts, hminus]
  simp only [scanInteger_toDigits]
  rfl

/-! ### Plain values -/

variable (f : FloatRules)

mutual

/-- A value that its text determines. -/
def Plain : Json → Prop
  | .int n => (Nat.toDigits 10 n.natAbs).length ≤ maxIntDigits
  | .float r => (∃ p, scanParts r.toList = some (p, []) ∧ p.isInteger = false) ∧ f.read r = r
  | .arr items => PlainItems items
  | .obj members => PlainMembers members ∧ (members.map Prod.fst).Pairwise (· < ·)
  | _ => True

def PlainItems : List Json → Prop
  | [] => True
  | x :: xs => Plain x ∧ PlainItems xs

def PlainMembers : List (String × Json) → Prop
  | [] => True
  | (_, x) :: xs => Plain x ∧ PlainMembers xs

end

variable {f}

/-- A number as the reader sees it. -/
theorem scanNumber_int {n : Int} (h : (Nat.toDigits 10 n.natAbs).length ≤ maxIntDigits)
    (hrest : Stops rest) : scanNumber f ((toString n).toList ++ rest) = some (.int n, rest) := by
  rw [scanNumber, scanParts_append hrest (scanParts_int n)]
  have hvalue : (if decide (n < 0) then -(n.natAbs : Int) else n.natAbs) = n := by
    by_cases hn : n < 0
    · rw [decide_eq_true hn, if_pos rfl]; omega
    · rw [decide_eq_false hn, if_neg Bool.false_ne_true]; omega
  simp only [Option.bind_some, NumberParts.value, NumberParts.isInteger, and_self, decide_true, if_true,
    if_pos h, Nat.ofDigitChars_ten_toDigits, hvalue, Option.map_some, List.nil_append]

theorem scanNumber_float {r : String} {p : NumberParts} (hparts : scanParts r.toList = some (p, []))
    (hfloat : p.isInteger = false) (hread : f.read r = r) (hrest : Stops rest) :
    scanNumber f (r.toList ++ rest) = some (.float r, rest) := by
  have hchars : r = String.ofList p.chars := by
    have heq := (scanParts_eq hparts).1
    rw [List.append_nil] at heq
    rw [← heq, String.ofList_toList]
  rw [scanNumber, scanParts_append hrest hparts]
  simp only [Option.bind_some, NumberParts.value, hfloat, Bool.false_eq_true, if_false, ← hchars, hread,
    Option.map_some, List.nil_append]

/-- No word of the reader starts as a number does. -/
theorem scanConstant_number {cs after : List Char} {p : NumberParts}
    (h : scanParts cs = some (p, after)) : scanConstant cs = none := by
  obtain ⟨-, d, tail, hd, heq⟩ := scanParts_eq h
  have hletters : ∀ c ∈ ['n', 't', 'f', 'N', 'I', '-'], c ≠ d := by
    rintro c hc rfl
    revert hd
    have hall : ∀ c ∈ ['n', 't', 'f', 'N', 'I', '-'], c.isDigit ≠ true := by simp
    exact hall c hc
  simp only [List.mem_cons, List.not_mem_nil, or_false, forall_eq_or_imp, forall_eq] at hletters
  obtain ⟨hn, ht, hf, hN, hI, hminus⟩ := hletters
  rcases heq with rfl | rfl
  · simp [scanConstant, constants, hn, ht, hf, hN, hI, hminus]
  · simp [scanConstant, constants, hI]

/-- The first character of a number. -/
theorem number_head {cs after : List Char} {p : NumberParts} (h : scanParts cs = some (p, after)) :
    ∃ c tail, cs = c :: tail ∧ c ≠ '"' ∧ c ≠ '[' ∧ c ≠ '\x7b' ∧ c ≠ ']' ∧ c ≠ '\x7d' ∧
      isJsonSpace c = false := by
  obtain ⟨-, d, tail, hd, heq⟩ := scanParts_eq h
  have hmarks : ∀ c, c.isDigit = true ∨ c = '-' → c ≠ '"' ∧ c ≠ '[' ∧ c ≠ '\x7b' ∧ c ≠ ']' ∧
      c ≠ '\x7d' ∧ isJsonSpace c = false := by
    intro c hc
    have hall : ∀ m ∈ ['"', '[', '\x7b', ']', '\x7d', ' ', '\t', '\n', '\r'],
        ¬(m.isDigit = true ∨ m = '-') := by simp
    have hne : ∀ m ∈ ['"', '[', '\x7b', ']', '\x7d', ' ', '\t', '\n', '\r'], c ≠ m := by
      rintro m hm rfl
      exact hall _ hm hc
    refine ⟨hne _ (by simp), hne _ (by simp), hne _ (by simp), hne _ (by simp), hne _ (by simp), ?_⟩
    refine decide_eq_false ?_
    intro hspace
    exact hne c (List.mem_append_right ['"', '[', '\x7b', ']', '\x7d'] hspace) rfl
  rcases heq with rfl | rfl
  · exact ⟨d, tail, rfl, hmarks d (Or.inl hd)⟩
  · exact ⟨'-', d :: tail, rfl, hmarks '-' (Or.inr rfl)⟩

/-! ### Objects -/

theorem setItem_last {key : String} {value : Json} {members : List (String × Json)}
    (h : ∀ x ∈ members, x.1 < key) : setItem key value members = members ++ [(key, value)] := by
  induction members with
  | nil => rfl
  | cons x members ih =>
    obtain ⟨k, v⟩ := x
    have hk : k < key := h (k, v) List.mem_cons_self
    have hne : key ≠ k := by
      rintro rfl
      exact String.lt_irrefl _ hk
    rw [setItem, if_neg hne, if_neg fun hlt => String.lt_irrefl _ (String.lt_trans hlt hk),
      ih fun x hx => h x (List.mem_cons_of_mem _ hx)]
    rfl

/-- Pairs whose keys are in order are a dictionary. -/
theorem toDict_sorted {pairs : List (String × Json)} (h : (pairs.map Prod.fst).Pairwise (· < ·)) :
    toDict pairs = pairs := by
  have hall : ∀ (pairs members : List (String × Json)),
      ((members ++ pairs).map Prod.fst).Pairwise (· < ·) →
      pairs.foldl (fun members x => setItem x.1 x.2 members) members = members ++ pairs := by
    intro pairs
    induction pairs with
    | nil => intro members _; rw [List.append_nil]; rfl
    | cons x pairs ih =>
      intro members hsorted
      have hbefore : ∀ y ∈ members, y.1 < x.1 := by
        intro y hy
        rw [List.map_append, List.pairwise_append] at hsorted
        exact hsorted.2.2 _ (List.mem_map_of_mem hy) _ (by simp)
      rw [List.foldl_cons, setItem_last hbefore, ih _ (by simpa using hsorted)]
      simp
  exact hall pairs [] h

/-! ### The round trip -/

theorem skipSpace_cons {c : Char} (h : isJsonSpace c = false) (tail : List Char) :
    skipSpace (c :: tail) = c :: tail := by
  rw [skipSpace, List.dropWhile_cons, h]
  rfl

/-- A text of a plain value starts with no space and no closing bracket. -/
theorem canonical_head {v : Json} (h : Plain f v) : ∃ c tail, (canonicalJson v).toList = c :: tail ∧
    isJsonSpace c = false ∧ c ≠ ']' ∧ c ≠ '\x7d' := by
  cases v with
  | null => exact ⟨'n', _, rfl, by decide⟩
  | bool b => cases b <;> exact ⟨_, _, rfl, by decide⟩
  | int n =>
    rw [canonicalJson]
    obtain ⟨c, tail, heq, -, -, -, h₁, h₂, h₃⟩ := number_head (scanParts_int n)
    exact ⟨c, tail, heq, h₃, h₁, h₂⟩
  | float r =>
    rw [Plain] at h
    obtain ⟨⟨p, hparts, -⟩, -⟩ := h
    rw [canonicalJson]
    obtain ⟨c, tail, heq, -, -, -, h₁, h₂, h₃⟩ := number_head hparts
    exact ⟨c, tail, heq, h₃, h₁, h₂⟩
  | str s =>
    rw [canonicalJson, toList_quote]
    exact ⟨'"', _, rfl, by decide⟩
  | arr items =>
    rw [canonicalJson, String.toList_append, String.toList_append]
    exact ⟨'[', _, rfl, by decide⟩
  | obj members =>
    rw [canonicalJson, String.toList_append, String.toList_append]
    exact ⟨'\x7b', _, rfl, by decide⟩

/-- So does the text of the elements of an array. -/
theorem joined_head {x : Json} {xs : List Json} (h : PlainItems f (x :: xs)) :
    ∃ c tail, (",".intercalate (canonicalItems (x :: xs))).toList = c :: tail ∧
      isJsonSpace c = false ∧ c ≠ ']' := by
  rw [PlainItems] at h
  obtain ⟨c, tail, hhead, hspace, hclose, -⟩ := canonical_head h.1
  cases xs with
  | nil => exact ⟨c, tail, by simpa [canonicalItems] using hhead, hspace, hclose⟩
  | cons y ys =>
    refine ⟨c, tail ++ (',' :: (",".intercalate (canonicalItems (y :: ys))).toList), ?_, hspace, hclose⟩
    simp only [canonicalItems]
    rw [String.intercalate_cons_cons, String.toList_append, String.toList_append, hhead]
    simp

theorem scanValue_number {n : Nat} {cs after : List Char} {p : NumberParts}
    (h : scanParts cs = some (p, after)) : scanValue f (n + 1) cs = scanNumber f cs := by
  obtain ⟨c, tail, rfl, hquote, hbracket, hbrace, -⟩ := number_head h
  rw [scanValue, if_neg hquote, if_neg hbracket, if_neg hbrace, scanConstant_number h, Option.none_or]

/-- The elements of an array that is not empty. -/
theorem scanValue_array {n : Nat} {rest : List Char} {c : Char} {tail : List Char}
    (h : skipSpace rest = c :: tail) (hc : c ≠ ']') : scanValue f (n + 1) ('[' :: rest) =
      (scanItems f n (c :: tail)).map fun x => (.arr x.1, x.2) := by
  rw [scanValue, if_neg (by decide), if_pos rfl, h]
  split
  · rename_i heq
    cases heq
    exact absurd rfl hc
  · rfl

/-- The members of an object that is not empty. -/
theorem scanValue_object {n : Nat} {rest : List Char} {c : Char} {tail : List Char}
    (h : skipSpace rest = c :: tail) (hc : c ≠ '\x7d') : scanValue f (n + 1) ('\x7b' :: rest) =
      (scanMembers f n (c :: tail)).map fun x => (.obj (toDict x.1), x.2) := by
  rw [scanValue, if_neg (by decide), if_neg (by decide), if_pos rfl, h]
  split
  · rename_i heq
    cases heq
    exact absurd rfl hc
  · rfl

theorem scanItems_last {n : Nat} {cs rest : List Char} {x : Json}
    (h : scanValue f n cs = some (x, ']' :: rest)) : scanItems f (n + 1) cs = some ([x], rest) := by
  rw [scanItems, h, Option.bind_some]
  simp only [skipSpace_cons (show isJsonSpace ']' = false by decide)]

theorem scanItems_comma {n : Nat} {cs rest : List Char} {x : Json}
    (h : scanValue f n cs = some (x, ',' :: rest)) (hrest : skipSpace rest = rest) :
    scanItems f (n + 1) cs = (scanItems f n rest).map fun y => (x :: y.1, y.2) := by
  rw [scanItems, h, Option.bind_some]
  simp only [skipSpace_cons (show isJsonSpace ',' = false by decide), hrest]

/-- The text of a member. -/
def memberChars (x : String × Json) : List Char := (quote x.1 ++ ":" ++ canonicalJson x.2).toList

theorem memberChars_eq (x : String × Json) : memberChars x =
    '"' :: (x.1.toList.flatMap (fun c => (escape c).toList) ++
      '"' :: ':' :: (canonicalJson x.2).toList) := by
  rw [memberChars, String.toList_append, String.toList_append, toList_quote]
  simp

theorem scanMembers_last {n : Nat} {x : String × Json} {rest : List Char} (hx : Plain f x.2)
    (h : scanValue f n ((canonicalJson x.2).toList ++ '\x7d' :: rest) = some (x.2, '\x7d' :: rest)) :
    scanMembers f (n + 1) (memberChars x ++ '\x7d' :: rest) = some ([x], rest) := by
  obtain ⟨c, tail, hhead, hspace, -⟩ := canonical_head hx
  rw [memberChars_eq, List.cons_append, List.append_assoc, List.cons_append, scanMembers,
    scanString_chars, Option.bind_some]
  simp only [List.cons_append, skipSpace_cons (show isJsonSpace ':' = false by decide)]
  rw [hhead, List.cons_append] at h ⊢
  rw [skipSpace_cons hspace, h, Option.bind_some]
  simp only [skipSpace_cons (show isJsonSpace '\x7d' = false by decide), String.ofList_toList]

theorem scanMembers_comma {n : Nat} {x : String × Json} {rest : List Char} (hx : Plain f x.2)
    (h : scanValue f n ((canonicalJson x.2).toList ++ ',' :: rest) = some (x.2, ',' :: rest))
    (hrest : skipSpace rest = rest) :
    scanMembers f (n + 1) (memberChars x ++ ',' :: rest) =
      (scanMembers f n rest).map fun y => (x :: y.1, y.2) := by
  obtain ⟨c, tail, hhead, hspace, -⟩ := canonical_head hx
  rw [memberChars_eq, List.cons_append, List.append_assoc, List.cons_append, scanMembers,
    scanString_chars, Option.bind_some]
  simp only [List.cons_append, skipSpace_cons (show isJsonSpace ':' = false by decide)]
  rw [hhead, List.cons_append] at h ⊢
  rw [skipSpace_cons hspace, h, Option.bind_some]
  simp only [skipSpace_cons (show isJsonSpace ',' = false by decide), hrest, String.ofList_toList]

/-- A text of members starts with a quotation mark. -/
theorem members_head (x : String × Json) (xs : List (String × Json)) :
    ∃ tail, (",".intercalate (canonicalMembers (x :: xs))).toList = '"' :: tail := by
  obtain ⟨k, v⟩ := x
  have hfirst := memberChars_eq (k, v)
  rw [memberChars] at hfirst
  cases xs with
  | nil => exact ⟨_, by simpa [canonicalMembers] using hfirst⟩
  | cons y ys =>
    simp only [canonicalMembers]
    rw [String.intercalate_cons_cons, String.toList_append, String.toList_append, hfirst]
    exact ⟨_, rfl⟩

/-- What the reader does in `n` steps with the text of a plain value, of elements and of members. -/
structure ReadsBack (f : FloatRules) (n : Nat) : Prop where
  value : ∀ {v : Json} (rest : List Char), Plain f v → 2 * (canonicalJson v).toList.length < n →
    Stops rest → scanValue f n ((canonicalJson v).toList ++ rest) = some (v, rest)
  items : ∀ {x : Json} {xs : List Json} (rest : List Char), PlainItems f (x :: xs) →
    2 * (",".intercalate (canonicalItems (x :: xs))).toList.length + 1 < n →
    scanItems f n ((",".intercalate (canonicalItems (x :: xs))).toList ++ ']' :: rest) =
      some (x :: xs, rest)
  members : ∀ {x : String × Json} {xs : List (String × Json)} (rest : List Char),
    PlainMembers f (x :: xs) →
    2 * (",".intercalate (canonicalMembers (x :: xs))).toList.length + 1 < n →
    scanMembers f n ((",".intercalate (canonicalMembers (x :: xs))).toList ++ '\x7d' :: rest) =
      some (x :: xs, rest)

section Step

variable {n : Nat}

theorem ReadsBack.scanArray (h : ReadsBack f n) {x : Json} {xs : List Json}
    (hv : PlainItems f (x :: xs))
    (hn : 2 * (canonicalJson (.arr (x :: xs))).toList.length < n + 1) :
    scanValue f (n + 1) ((canonicalJson (.arr (x :: xs))).toList ++ rest) =
      some (.arr (x :: xs), rest) := by
  have hlength : "[".toList.length = 1 ∧ "]".toList.length = 1 := by decide
  rw [canonicalJson, String.toList_append, String.toList_append] at hn ⊢
  rw [List.length_append, List.length_append, hlength.1, hlength.2] at hn
  have hitems := h.items rest hv (by omega)
  obtain ⟨c, tail, hhead, hspace, hclose⟩ := joined_head hv
  rw [hhead] at hitems ⊢
  rw [show ("[".toList ++ c :: tail ++ "]".toList ++ rest) = '[' :: c :: (tail ++ ']' :: rest) by simp,
    scanValue_array (skipSpace_cons hspace _) hclose]
  rw [List.cons_append] at hitems
  rw [hitems, Option.map_some]

theorem ReadsBack.scanObject (h : ReadsBack f n) {x : String × Json} {xs : List (String × Json)}
    (hv : PlainMembers f (x :: xs)) (hkeys : ((x :: xs).map Prod.fst).Pairwise (· < ·))
    (hn : 2 * (canonicalJson (.obj (x :: xs))).toList.length < n + 1) :
    scanValue f (n + 1) ((canonicalJson (.obj (x :: xs))).toList ++ rest) =
      some (.obj (x :: xs), rest) := by
  have hlength : "\x7b".toList.length = 1 ∧ "\x7d".toList.length = 1 := by decide
  rw [canonicalJson, String.toList_append, String.toList_append] at hn ⊢
  rw [List.length_append, List.length_append, hlength.1, hlength.2] at hn
  have hmembers := h.members rest hv (by omega)
  obtain ⟨tail, hhead⟩ := members_head x xs
  rw [hhead] at hmembers ⊢
  rw [show ("\x7b".toList ++ '"' :: tail ++ "\x7d".toList ++ rest) =
      '\x7b' :: '"' :: (tail ++ '\x7d' :: rest) by simp,
    scanValue_object (skipSpace_cons (by decide) _) (by decide)]
  rw [List.cons_append] at hmembers
  rw [hmembers, Option.map_some, toDict_sorted hkeys]

theorem ReadsBack.scanValue (h : ReadsBack f n) {v : Json} (hv : Plain f v)
    (hn : 2 * (canonicalJson v).toList.length < n + 1) (hrest : Stops rest) :
    scanValue f (n + 1) ((canonicalJson v).toList ++ rest) = some (v, rest) := by
  cases v with
  | null => rw [canonicalJson]; rfl
  | bool b => cases b <;> rw [canonicalJson] <;> rfl
  | int m =>
    rw [Plain] at hv
    rw [canonicalJson, scanValue_number (scanParts_append hrest (scanParts_int m)),
      scanNumber_int hv hrest]
  | float r =>
    rw [Plain] at hv
    obtain ⟨⟨p, hparts, hfloat⟩, hread⟩ := hv
    rw [canonicalJson, scanValue_number (scanParts_append hrest hparts),
      scanNumber_float hparts hfloat hread hrest]
  | str s =>
    rw [canonicalJson, toList_quote, List.cons_append, Controller.scanValue, if_pos rfl,
      List.append_assoc, List.singleton_append, scanString_chars, Option.map_some,
      String.ofList_toList]
  | arr items =>
    cases items with
    | nil => rw [canonicalJson]; rfl
    | cons x xs =>
      rw [Plain] at hv
      exact h.scanArray hv hn
  | obj members =>
    cases members with
    | nil => rw [canonicalJson]; rfl
    | cons x xs =>
      rw [Plain] at hv
      exact h.scanObject hv.1 hv.2 hn

theorem ReadsBack.scanItems (h : ReadsBack f n) {x : Json} {xs : List Json}
    (hv : PlainItems f (x :: xs))
    (hn : 2 * (",".intercalate (canonicalItems (x :: xs))).toList.length + 1 < n + 1) :
    scanItems f (n + 1) ((",".intercalate (canonicalItems (x :: xs))).toList ++ ']' :: rest) =
      some (x :: xs, rest) := by
  rw [PlainItems] at hv
  cases xs with
  | nil =>
    simp only [canonicalItems, String.intercalate_singleton] at hn ⊢
    exact scanItems_last (h.value (']' :: rest) hv.1 (by omega) (stops_cons (by decide)))
  | cons y ys =>
    have hcomma : ",".toList = [','] := by decide
    have hnext := joined_head hv.2
    simp only [canonicalItems] at hn hnext ⊢
    rw [String.intercalate_cons_cons, String.toList_append, String.toList_append, hcomma] at hn ⊢
    rw [List.length_append, List.length_append, List.length_singleton] at hn
    have hitems := h.items rest hv.2 (by simp only [canonicalItems]; omega)
    obtain ⟨c, tail, hhead, hspace, -⟩ := hnext
    simp only [canonicalItems] at hitems
    rw [List.append_assoc, List.append_assoc, List.singleton_append]
    have hvalue := h.value (',' :: ((",".intercalate (canonicalJson y :: canonicalItems ys)).toList ++
      ']' :: rest)) hv.1 (by omega) (stops_cons (by decide))
    rw [scanItems_comma hvalue (by rw [hhead, List.cons_append, skipSpace_cons hspace]), hitems]
    rfl

theorem ReadsBack.scanMembers (h : ReadsBack f n) {x : String × Json} {xs : List (String × Json)}
    (hv : PlainMembers f (x :: xs))
    (hn : 2 * (",".intercalate (canonicalMembers (x :: xs))).toList.length + 1 < n + 1) :
    scanMembers f (n + 1) ((",".intercalate (canonicalMembers (x :: xs))).toList ++ '\x7d' :: rest) =
      some (x :: xs, rest) := by
  obtain ⟨k, v⟩ := x
  rw [PlainMembers] at hv
  have hshort : (canonicalJson v).toList.length < (memberChars (k, v)).length := by
    rw [memberChars_eq]
    simp only [List.length_cons, List.length_append]
    omega
  cases xs with
  | nil =>
    simp only [canonicalMembers, String.intercalate_singleton] at hn ⊢
    change 2 * (memberChars (k, v)).length + 1 < n + 1 at hn
    have hvalue := h.value ('\x7d' :: rest) hv.1 (by omega) (stops_cons (by decide))
    exact scanMembers_last (x := (k, v)) hv.1 hvalue
  | cons y ys =>
    have hcomma : ",".toList = [','] := by decide
    obtain ⟨tail, hhead⟩ := members_head y ys
    obtain ⟨k', v'⟩ := y
    simp only [canonicalMembers] at hn hhead ⊢
    rw [String.intercalate_cons_cons, String.toList_append, String.toList_append, hcomma] at hn ⊢
    rw [List.length_append, List.length_append, List.length_singleton] at hn
    change 2 * ((memberChars (k, v)).length + 1 + _) + 1 < n + 1 at hn
    have hmembers := h.members rest hv.2 (by simp only [canonicalMembers]; omega)
    simp only [canonicalMembers] at hmembers
    rw [List.append_assoc, List.append_assoc, List.singleton_append]
    have hvalue := h.value (',' :: ((",".intercalate ((quote k' ++ ":" ++ canonicalJson v') ::
      canonicalMembers ys)).toList ++ '\x7d' :: rest)) hv.1 (by omega) (stops_cons (by decide))
    have hnext := scanMembers_comma (x := (k, v)) hv.1 hvalue
      (by rw [hhead, List.cons_append, skipSpace_cons (by decide)])
    rw [memberChars] at hnext
    rw [hnext, hmembers]
    rfl

end Step

theorem readsBack (n : Nat) : ReadsBack f n := by
  induction n with
  | zero =>
    refine ⟨?_, ?_, ?_⟩
    · intro v rest _ hn _
      omega
    · intro x xs rest _ hn
      omega
    · intro x xs rest _ hn
      omega
  | succ n ih =>
    exact ⟨fun _ => ih.scanValue, fun _ => ih.scanItems, fun _ => ih.scanMembers⟩

/-- A plain value is read back from its text. -/
theorem loads_canonical {v : Json} (h : Plain f v) : loads f (canonicalJson v) = some v := by
  obtain ⟨c, tail, hhead, hspace, -⟩ := canonical_head h
  have hread := (readsBack (2 * (canonicalJson v).length + 1)).value [] h
    (by rw [String.length_toList]; omega) stops_nil
  rw [List.append_nil] at hread
  rw [loads, show skipSpace (canonicalJson v).toList = (canonicalJson v).toList by
    rw [hhead, skipSpace_cons hspace], hread]
  rfl

/-! ### The count of steps -/

theorem skipSpace_length (cs : List Char) : (skipSpace cs).length ≤ cs.length :=
  List.length_dropWhile_le _ _

theorem scanString_length {cs s after : List Char} (h : scanString cs = some (s, after)) :
    after.length < cs.length := by
  fun_induction scanString cs generalizing s with
  | case1 => cases h
  | case2 rest =>
    cases h
    exact Nat.lt_succ_self _
  | case3 rest _ tail d hescape hshort ih =>
    obtain ⟨⟨s', after'⟩, htail, heq⟩ := Option.map_eq_some_iff.1 h
    cases heq
    have hrest := ih htail
    simp only [List.length_cons] at hrest ⊢
    omega
  | case4 => cases h
  | case5 => cases h
  | case6 c rest _ _ _ ih =>
    obtain ⟨⟨s', after'⟩, htail, heq⟩ := Option.map_eq_some_iff.1 h
    cases heq
    exact (ih htail).trans (Nat.lt_succ_self _)

theorem scanConstant_length {cs after : List Char} {v : Json}
    (h : scanConstant cs = some (v, after)) : after.length < cs.length := by
  obtain ⟨⟨word, v'⟩, hmem, hword⟩ := List.exists_of_findSome?_eq_some h
  have hpositive : ∀ x ∈ constants, 0 < x.1.length := by decide
  split at hword
  · rename_i hprefix
    obtain ⟨-, rfl⟩ := Prod.mk.inj (Option.some.inj hword)
    have hlong := (List.isPrefixOf_iff_prefix.1 hprefix).length_le
    rw [String.length_toList] at hlong
    have hword := hpositive _ hmem
    rw [List.length_drop]
    simp only at hword hlong ⊢
    omega
  · cases hword

theorem scanNumber_length {cs after : List Char} {v : Json}
    (h : scanNumber f cs = some (v, after)) : after.length < cs.length := by
  obtain ⟨⟨p, after'⟩, hparts, h⟩ := Option.bind_eq_some_iff.1 h
  obtain ⟨v', -, heq⟩ := Option.map_eq_some_iff.1 h
  cases heq
  obtain ⟨⟨digits, tail⟩, hdigits, heq⟩ := Option.map_eq_some_iff.1 hparts
  obtain ⟨hbody, d, more, -, hhead⟩ := scanInteger_eq hdigits
  have hdigit : digits ≠ [] := by
    rintro rfl
    cases hm : (scanMinus cs).2 with
    | nil => rw [hm] at hdigits; cases hdigits
    | cons c rest =>
      rw [hm, scanInteger] at hdigits
      split at hdigits
      · cases hdigits
      · split at hdigits <;> cases hdigits
  have hpos := List.length_pos_iff.2 hdigit
  have hminus : (scanMinus cs).2.length ≤ cs.length := by
    cases cs with
    | nil => exact Nat.le_refl _
    | cons c cs =>
      simp only [scanMinus]
      split
      · exact Nat.le_succ _
      · exact Nat.le_refl _
  have hfraction := congrArg List.length (scanFraction_eq tail)
  have hexponent := congrArg List.length (scanExponent_eq (scanFraction tail).2)
  have hdigits' := congrArg List.length hbody
  rw [List.length_append] at hfraction hexponent hdigits'
  cases heq
  show (scanExponent (scanFraction tail).2).2.length < cs.length
  omega

theorem scanMembers_quoted {n : Nat} {cs : List Char} {y : List (String × Json) × List Char}
    (h : scanMembers f (n + 1) cs = some y) : ∃ tail, cs = '"' :: tail := by
  unfold scanMembers at h
  split at h
  · exact ⟨_, rfl⟩
  · cases h

/-- Whatever is read consumes something. -/
structure Consumes (f : FloatRules) (n : Nat) : Prop where
  value : ∀ {cs after v}, scanValue f n cs = some (v, after) → after.length < cs.length
  items : ∀ {cs after l}, scanItems f n cs = some (l, after) → after.length < cs.length
  members : ∀ {cs after l}, scanMembers f n cs = some (l, after) → after.length < cs.length

theorem consumes (n : Nat) : Consumes f n := by
  induction n with
  | zero =>
    refine ⟨?_, ?_, ?_⟩
    · intro cs after v h
      cases h
    · intro cs after l h
      cases h
    · intro cs after l h
      cases h
  | succ n ih =>
    refine ⟨?_, ?_, ?_⟩
    · intro cs after v h
      cases cs with
      | nil => cases h
      | cons c rest =>
        have hskip := skipSpace_length rest
        rw [scanValue] at h
        split_ifs at h
        · obtain ⟨⟨s, tail⟩, hs, heq⟩ := Option.map_eq_some_iff.1 h
          cases heq
          exact (scanString_length hs).trans (Nat.lt_succ_self _)
        · split at h
          · rename_i hclose
            cases h
            rw [hclose, List.length_cons] at hskip
            simp only [List.length_cons]
            omega
          · obtain ⟨⟨l, tail⟩, hl, heq⟩ := Option.map_eq_some_iff.1 h
            cases heq
            have hitems := ih.items hl
            simp only [List.length_cons]
            omega
        · split at h
          · rename_i hclose
            cases h
            rw [hclose, List.length_cons] at hskip
            simp only [List.length_cons]
            omega
          · obtain ⟨⟨l, tail⟩, hl, heq⟩ := Option.map_eq_some_iff.1 h
            cases heq
            have hmembers := ih.members hl
            simp only [List.length_cons]
            omega
        · rcases Option.or_eq_some_iff.1 h with h | ⟨-, h⟩
          · exact scanConstant_length h
          · exact scanNumber_length h
    · intro cs after l h
      rw [scanItems] at h
      obtain ⟨⟨x, tail⟩, hx, h⟩ := Option.bind_eq_some_iff.1 h
      have hvalue := ih.value hx
      have hskip := skipSpace_length tail
      split at h
      · rename_i rest hclose
        cases h
        rw [hclose, List.length_cons] at hskip
        omega
      · rename_i rest hcomma
        obtain ⟨⟨l', tail'⟩, hl, heq⟩ := Option.map_eq_some_iff.1 h
        cases heq
        have hitems := ih.items hl
        have hskip' := skipSpace_length rest
        rw [hcomma, List.length_cons] at hskip
        dsimp only
        omega
      · cases h
    · intro cs after l h
      obtain ⟨cs, rfl⟩ := scanMembers_quoted h
      · rw [scanMembers] at h
        obtain ⟨⟨key, tail⟩, hkey, h⟩ := Option.bind_eq_some_iff.1 h
        have hstring := scanString_length hkey
        have hskip := skipSpace_length tail
        split at h
        · rename_i rest hcolon
          obtain ⟨⟨x, tail'⟩, hx, h⟩ := Option.bind_eq_some_iff.1 h
          have hvalue := ih.value hx
          have hskip' := skipSpace_length rest
          have hskip'' := skipSpace_length tail'
          dsimp only at hcolon
          rw [hcolon, List.length_cons] at hskip
          split at h
          · rename_i last hclose
            cases h
            dsimp only at hclose
            rw [hclose, List.length_cons] at hskip''
            simp only [List.length_cons]
            omega
          · rename_i next hcomma
            obtain ⟨⟨l', tail''⟩, hl, heq⟩ := Option.map_eq_some_iff.1 h
            cases heq
            have hmembers := ih.members hl
            have hnext := skipSpace_length next
            dsimp only at hcomma
            rw [hcomma, List.length_cons] at hskip''
            simp only [List.length_cons]
            omega
          · cases h
        · cases h

/-- With enough steps for the text, their number makes no difference. -/
structure Settled (f : FloatRules) (n : Nat) : Prop where
  value : ∀ {cs m}, 2 * cs.length < n → 2 * cs.length < m → scanValue f n cs = scanValue f m cs
  items : ∀ {cs m}, 2 * cs.length + 1 < n → 2 * cs.length + 1 < m → scanItems f n cs = scanItems f m cs
  members : ∀ {cs m}, 2 * cs.length + 1 < n → 2 * cs.length + 1 < m →
    scanMembers f n cs = scanMembers f m cs

theorem Settled.step_value {n : Nat} (h : Settled f n) {cs : List Char} {m : Nat}
    (hn : 2 * cs.length < n + 1) (hm : 2 * cs.length < m + 1) :
    scanValue f (n + 1) cs = scanValue f (m + 1) cs := by
  cases cs with
  | nil => rw [scanValue, scanValue]
  | cons c rest =>
    have hskip := skipSpace_length rest
    rw [List.length_cons] at hn hm
    rw [scanValue, scanValue]
    generalize skipSpace rest = tail at hskip
    have hitems := h.items (by omega : 2 * tail.length + 1 < n) (by omega : 2 * tail.length + 1 < m)
    have hmembers := h.members (by omega : 2 * tail.length + 1 < n) (by omega : 2 * tail.length + 1 < m)
    split_ifs
    · rfl
    · split
      · rfl
      · rw [hitems]
    · split
      · rfl
      · rw [hmembers]
    · rfl

theorem Settled.step_items {n : Nat} (h : Settled f n) {cs : List Char} {m : Nat}
    (hn : 2 * cs.length + 1 < n + 1) (hm : 2 * cs.length + 1 < m + 1) :
    scanItems f (n + 1) cs = scanItems f (m + 1) cs := by
  rw [scanItems, scanItems, ← h.value (by omega : 2 * cs.length < n) (by omega : 2 * cs.length < m)]
  refine Option.bind_congr fun x hx => ?_
  have hvalue := (consumes n).value hx
  have hskip := skipSpace_length x.2
  split
  · rfl
  · rename_i rest hcomma
    have hnext := skipSpace_length rest
    rw [hcomma, List.length_cons] at hskip
    rw [h.items (by omega : 2 * (skipSpace rest).length + 1 < n) (by omega :
      2 * (skipSpace rest).length + 1 < m)]
  · rfl

theorem Settled.step_members {n : Nat} (h : Settled f n) {cs : List Char} {m : Nat}
    (hn : 2 * cs.length + 1 < n + 1) (hm : 2 * cs.length + 1 < m + 1) :
    scanMembers f (n + 1) cs = scanMembers f (m + 1) cs := by
  by_cases hquote : ∃ tail, cs = '"' :: tail
  · obtain ⟨tail, rfl⟩ := hquote
    rw [List.length_cons] at hn hm
    rw [scanMembers, scanMembers]
    refine Option.bind_congr fun key hkey => ?_
    have hstring := scanString_length hkey
    have hskip := skipSpace_length key.2
    split
    · rename_i rest hcolon
      have hafter := skipSpace_length rest
      rw [hcolon, List.length_cons] at hskip
      rw [← h.value (by omega : 2 * (skipSpace rest).length < n) (by omega :
        2 * (skipSpace rest).length < m)]
      refine Option.bind_congr fun x hx => ?_
      have hvalue := (consumes n).value hx
      have hend := skipSpace_length x.2
      split
      · rfl
      · rename_i next hcomma
        have hnext := skipSpace_length next
        rw [hcomma, List.length_cons] at hend
        rw [h.members (by omega : 2 * (skipSpace next).length + 1 < n) (by omega :
          2 * (skipSpace next).length + 1 < m)]
      · rfl
    · rfl
  · have hnone (k : Nat) : scanMembers f (k + 1) cs = none := by
      rw [Option.eq_none_iff_forall_not_mem]
      intro y hy
      exact hquote (scanMembers_quoted hy)
    rw [hnone, hnone]

theorem settled (n : Nat) : Settled f n := by
  induction n with
  | zero =>
    refine ⟨?_, ?_, ?_⟩
    · intro cs m hn _
      omega
    · intro cs m hn _
      omega
    · intro cs m hn _
      omega
  | succ n ih =>
    refine ⟨?_, ?_, ?_⟩
    · intro cs m hn hm
      obtain ⟨m, rfl⟩ : ∃ k, m = k + 1 := ⟨m - 1, by omega⟩
      exact ih.step_value hn hm
    · intro cs m hn hm
      obtain ⟨m, rfl⟩ : ∃ k, m = k + 1 := ⟨m - 1, by omega⟩
      exact ih.step_items hn hm
    · intro cs m hn hm
      obtain ⟨m, rfl⟩ : ∃ k, m = k + 1 := ⟨m - 1, by omega⟩
      exact ih.step_members hn hm

/-- The reader reads the same with any larger number of steps. -/
theorem loads_steps {text : String} {n : Nat} (h : 2 * text.length < n) :
    loads f text = (scanValue f n (skipSpace text.toList)).bind fun x =>
      if skipSpace x.2 = [] then some x.1 else none := by
  have hskip := skipSpace_length text.toList
  rw [String.length_toList] at hskip
  rw [loads, (settled (2 * text.length + 1)).value (by omega) (by omega : 2 * (skipSpace
    text.toList).length < n)]

/-! ### What is read is a value of the language -/

theorem membersValid_iff {members : List (String × Json)} :
    MembersValid f members ↔ ∀ x ∈ members, x.2.Valid f := by
  induction members with
  | nil => simp [MembersValid]
  | cons x members ih =>
    obtain ⟨k, v⟩ := x
    rw [MembersValid, ih]
    simp

theorem setItem_keys {key : String} {value : Json} {members : List (String × Json)} {x : String × Json}
    (h : x ∈ setItem key value members) : x = (key, value) ∨ x ∈ members := by
  induction members with
  | nil => exact Or.inl (List.mem_singleton.1 h)
  | cons y members ih =>
    obtain ⟨k, v⟩ := y
    rw [setItem] at h
    split_ifs at h
    · rcases List.mem_cons.1 h with h | h
      · exact Or.inl h
      · exact Or.inr (List.mem_cons_of_mem _ h)
    · exact (List.mem_cons.1 h).imp_right id
    · rcases List.mem_cons.1 h with h | h
      · exact Or.inr (h ▸ List.mem_cons_self)
      · exact (ih h).imp_right (List.mem_cons_of_mem _)

theorem setItem_sorted {members : List (String × Json)} (key : String) (value : Json)
    (h : (members.map Prod.fst).Pairwise (· < ·)) :
    ((setItem key value members).map Prod.fst).Pairwise (· < ·) := by
  induction members with
  | nil => exact List.pairwise_singleton _ _
  | cons y members ih =>
    obtain ⟨k, v⟩ := y
    rw [List.map_cons, List.pairwise_cons] at h
    rw [setItem]
    split_ifs with heq hlt
    · rw [List.map_cons, List.pairwise_cons]
      exact ⟨heq ▸ h.1, h.2⟩
    · rw [List.map_cons, List.map_cons, List.pairwise_cons, List.pairwise_cons]
      refine ⟨?_, h⟩
      intro a ha
      rcases List.mem_cons.1 ha with rfl | ha
      · exact hlt
      · exact String.lt_trans hlt (h.1 a ha)
    · rw [List.map_cons, List.pairwise_cons]
      refine ⟨?_, ih h.2⟩
      intro a ha
      obtain ⟨x, hx, rfl⟩ := List.mem_map.1 ha
      rcases setItem_keys hx with rfl | hx
      · by_contra hle
        exact heq (String.le_antisymm (String.not_lt.1 hle) (String.not_lt.1 hlt))
      · exact h.1 _ (List.mem_map_of_mem hx)

/-- A dictionary of values of the language is one. -/
theorem toDict_valid {pairs : List (String × Json)} (h : ∀ x ∈ pairs, x.2.Valid f) :
    (Json.obj (toDict pairs)).Valid f := by
  have hall : ∀ (pairs members : List (String × Json)), (∀ x ∈ pairs, x.2.Valid f) →
      (Json.obj members).Valid f →
      (Json.obj (pairs.foldl (fun members x => setItem x.1 x.2 members) members)).Valid f := by
    intro pairs
    induction pairs with
    | nil => exact fun _ _ hmembers => hmembers
    | cons x pairs ih =>
      intro members hpairs hmembers
      rw [Json.Valid, membersValid_iff] at hmembers
      rw [List.foldl_cons]
      refine ih _ (fun y hy => hpairs y (List.mem_cons_of_mem _ hy)) ?_
      rw [Json.Valid, membersValid_iff]
      refine ⟨?_, setItem_sorted _ _ hmembers.2⟩
      intro y hy
      rcases setItem_keys hy with rfl | hy
      · exact hpairs x List.mem_cons_self
      · exact hmembers.1 y hy
  refine hall pairs [] h ?_
  rw [Json.Valid]
  exact ⟨trivial, List.Pairwise.nil⟩

theorem scanConstant_valid (hf : f.Sound) {cs after : List Char} {v : Json}
    (h : scanConstant cs = some (v, after)) : v.Valid f := by
  obtain ⟨⟨word, v'⟩, hmem, hword⟩ := List.exists_of_findSome?_eq_some h
  have hspecial : ∀ r ∈ specialReprs, (Json.float r).Valid f := by
    intro r hr
    rw [Json.Valid]
    exact hf.special r hr
  split at hword
  · obtain ⟨rfl, -⟩ := Prod.mk.inj (Option.some.inj hword)
    simp only [constants, List.mem_cons, List.not_mem_nil, or_false, Prod.mk.injEq] at hmem
    rcases hmem with ⟨-, rfl⟩ | ⟨-, rfl⟩ | ⟨-, rfl⟩ | ⟨-, rfl⟩ | ⟨-, rfl⟩ | ⟨-, rfl⟩
    · simp [Json.Valid]
    · simp [Json.Valid]
    · simp [Json.Valid]
    · exact hspecial _ (by decide)
    · exact hspecial _ (by decide)
    · exact hspecial _ (by decide)
  · cases hword

theorem scanNumber_valid (hf : f.Sound) {cs after : List Char} {v : Json}
    (h : scanNumber f cs = some (v, after)) : v.Valid f := by
  obtain ⟨⟨p, after'⟩, -, h⟩ := Option.bind_eq_some_iff.1 h
  obtain ⟨v', hv, heq⟩ := Option.map_eq_some_iff.1 h
  obtain ⟨rfl, -⟩ := Prod.mk.inj heq
  rw [NumberParts.value] at hv
  split at hv
  · split at hv
    · cases hv
      simp [Json.Valid]
    · cases hv
  · cases hv
    rw [Json.Valid]
    exact hf.read _

/-- Whatever is read is a value of the language. -/
structure ReadsValid (f : FloatRules) (n : Nat) : Prop where
  value : ∀ {cs after v}, scanValue f n cs = some (v, after) → v.Valid f
  items : ∀ {cs after l}, scanItems f n cs = some (l, after) → ItemsValid f l
  members : ∀ {cs after l}, scanMembers f n cs = some (l, after) → MembersValid f l

theorem readsValid (hf : f.Sound) (n : Nat) : ReadsValid f n := by
  induction n with
  | zero =>
    refine ⟨?_, ?_, ?_⟩
    · intro cs after v h
      cases h
    · intro cs after l h
      cases h
    · intro cs after l h
      cases h
  | succ n ih =>
    refine ⟨?_, ?_, ?_⟩
    · intro cs after v h
      cases cs with
      | nil => cases h
      | cons c rest =>
        rw [scanValue] at h
        split_ifs at h
        · obtain ⟨x, -, heq⟩ := Option.map_eq_some_iff.1 h
          cases heq
          simp [Json.Valid]
        · split at h
          · cases h
            simp [Json.Valid, ItemsValid]
          · obtain ⟨⟨l, tail⟩, hl, heq⟩ := Option.map_eq_some_iff.1 h
            cases heq
            rw [Json.Valid]
            exact ih.items hl
        · split at h
          · cases h
            simp [Json.Valid, MembersValid]
          · obtain ⟨⟨l, tail⟩, hl, heq⟩ := Option.map_eq_some_iff.1 h
            cases heq
            exact toDict_valid (membersValid_iff.1 (ih.members hl))
        · rcases Option.or_eq_some_iff.1 h with h | ⟨-, h⟩
          · exact scanConstant_valid hf h
          · exact scanNumber_valid hf h
    · intro cs after l h
      rw [scanItems] at h
      obtain ⟨⟨x, tail⟩, hx, h⟩ := Option.bind_eq_some_iff.1 h
      have hvalue := ih.value hx
      split at h
      · cases h
        exact ⟨hvalue, trivial⟩
      · obtain ⟨⟨l', tail'⟩, hl, heq⟩ := Option.map_eq_some_iff.1 h
        cases heq
        exact ⟨hvalue, ih.items hl⟩
      · cases h
    · intro cs after l h
      obtain ⟨cs, rfl⟩ := scanMembers_quoted h
      rw [scanMembers] at h
      obtain ⟨key, -, h⟩ := Option.bind_eq_some_iff.1 h
      split at h
      · obtain ⟨⟨x, tail⟩, hx, h⟩ := Option.bind_eq_some_iff.1 h
        have hvalue := ih.value hx
        split at h
        · cases h
          exact ⟨hvalue, trivial⟩
        · obtain ⟨⟨l', tail'⟩, hl, heq⟩ := Option.map_eq_some_iff.1 h
          cases heq
          exact ⟨hvalue, ih.members hl⟩
        · cases h
      · cases h

theorem loads_valid (hf : f.Sound) {text : String} {v : Json} (h : loads f text = some v) : v.Valid f := by
  obtain ⟨⟨v', rest⟩, hvalue, h⟩ := Option.bind_eq_some_iff.1 h
  dsimp only at h
  split at h
  · cases h
    exact (readsValid hf _).value hvalue
  · cases h

end HermesOps.Controller
