import Mathlib.Data.List.Basic
import Mathlib.Data.Nat.Basic
import Mathlib.Algebra.Group.Nat.Defs

/-! Decimal numerals as texts. Numerals without leading zeros are ordered by their lengths, and numerals of one
    length by their texts. -/

namespace HermesOps.Schemes.Decimal

def Digits (cs : List Char) : Prop := ∀ c ∈ cs, c.isDigit = true

/-- The number of a numeral. -/
def value (cs : List Char) : Nat := Nat.ofDigitChars 10 cs 0

/-- A numeral without leading zeros. -/
def Canonical (cs : List Char) : Prop := cs = ['0'] ∨ ∃ c rest, cs = c :: rest ∧ c ≠ '0'

variable {a b cs : List Char} {c d : Char}

theorem digit_bounds (h : c.isDigit = true) : 48 ≤ c.toNat ∧ c.toNat ≤ 57 := by
  unfold Char.isDigit at h
  rw [Bool.and_eq_true, decide_eq_true_iff, decide_eq_true_iff] at h
  exact ⟨h.1, h.2⟩

theorem value_cons (c : Char) (cs : List Char) :
    value (c :: cs) = 10 ^ cs.length * (c.toNat - 48) + value cs := by
  unfold value
  rw [Nat.ofDigitChars_cons, Nat.ofDigitChars_eq_ofDigitChars_zero, Nat.mul_zero, Nat.zero_add]
  rfl

theorem value_lt (h : Digits cs) : value cs < 10 ^ cs.length := by
  induction cs with
  | nil => decide
  | cons c cs ih =>
    obtain ⟨hc, hcs⟩ := List.forall_mem_cons.mp h
    have hrest := ih hcs
    have hbound := digit_bounds hc
    have hmul : 10 ^ cs.length * (c.toNat - 48) ≤ 10 ^ cs.length * 9 :=
      Nat.mul_le_mul_left _ (by omega)
    rw [value_cons, List.length_cons, Nat.pow_succ]
    omega

theorem le_value (h : Digits (c :: cs)) (hc : c ≠ '0') : 10 ^ cs.length ≤ value (c :: cs) := by
  have hbound := digit_bounds (h c List.mem_cons_self)
  have hne : c.toNat ≠ 48 := fun heq => hc (Char.toNat_inj.mp heq)
  have hmul : 10 ^ cs.length * 1 ≤ 10 ^ cs.length * (c.toNat - 48) := Nat.mul_le_mul_left _ (by omega)
  rw [value_cons]
  omega

/-- Numerals of one length are ordered as texts. -/
theorem value_lt_iff (ha : Digits a) (hb : Digits b) (hlen : a.length = b.length) :
    a < b ↔ value a < value b := by
  induction a generalizing b with
  | nil =>
    obtain rfl := List.length_eq_zero_iff.mp hlen.symm
    simp
  | cons c cs ih =>
    cases b with
    | nil => cases hlen
    | cons d ds =>
      obtain ⟨hc, hcs⟩ := List.forall_mem_cons.mp ha
      obtain ⟨hd, hds⟩ := List.forall_mem_cons.mp hb
      have hrest : cs.length = ds.length := Nat.succ.inj hlen
      have hcv := value_lt hcs
      have hdv := value_lt hds
      have hcb := digit_bounds hc
      have hdb := digit_bounds hd
      rw [List.cons_lt_cons_iff, ih hcs hds hrest, value_cons, value_cons, hrest]
      rw [hrest] at hcv
      have hlt : c < d ↔ c.toNat < d.toNat := Iff.rfl
      rw [hlt]
      rcases Nat.lt_trichotomy c.toNat d.toNat with h | h | h
      · have hmul : 10 ^ ds.length * (c.toNat - 48 + 1) ≤ 10 ^ ds.length * (d.toNat - 48) :=
          Nat.mul_le_mul_left _ (by omega)
        rw [Nat.mul_add] at hmul
        exact iff_of_true (.inl h) (by omega)
      · obtain rfl := Char.toNat_inj.mp h
        simp
      · have hmul : 10 ^ ds.length * (d.toNat - 48 + 1) ≤ 10 ^ ds.length * (c.toNat - 48) :=
          Nat.mul_le_mul_left _ (by omega)
        rw [Nat.mul_add] at hmul
        have hne : c ≠ d := by
          rintro rfl
          omega
        refine iff_of_false ?_ (by omega)
        rintro (hlt | ⟨heq, -⟩)
        · omega
        · exact hne heq

theorem lt_of_length_lt (ha : Digits a) (hb : Digits b) (hcanon : Canonical b) (hne : a ≠ [])
    (hlen : a.length < b.length) : value a < value b := by
  have hpos := List.length_pos_of_ne_nil hne
  rcases hcanon with rfl | ⟨c, rest, rfl, hc⟩
  · simp only [List.length_singleton] at hlen
    omega
  · have hle := le_value hb hc
    have hlt := value_lt ha
    have hpow : 10 ^ a.length ≤ 10 ^ rest.length := Nat.pow_le_pow_right (by decide) (by
      simp only [List.length_cons] at hlen
      omega)
    omega

theorem Canonical.ne_nil (h : Canonical a) : a ≠ [] := by
  rcases h with rfl | ⟨c, rest, rfl, -⟩
  · simp
  · simp

/-- Canonical numerals are ordered by their lengths first. -/
theorem canonical_lt_iff (ha : Digits a) (hb : Digits b) (hca : Canonical a) (hcb : Canonical b) :
    (a.length < b.length ∨ b.length = a.length ∧ a < b) ↔ value a < value b := by
  rcases Nat.lt_trichotomy a.length b.length with hlen | hlen | hlen
  · exact iff_of_true (.inl hlen) (lt_of_length_lt ha hb hcb hca.ne_nil hlen)
  · rw [← value_lt_iff ha hb hlen]
    constructor
    · rintro (h | ⟨-, h⟩)
      · omega
      · exact h
    · intro h
      exact .inr ⟨hlen.symm, h⟩
  · have hlt := lt_of_length_lt hb ha hca hcb.ne_nil hlen
    refine iff_of_false ?_ (by omega)
    rintro (h | ⟨h, -⟩) <;> omega

/-- A numeral without its leading zeros. -/
def significant (cs : List Char) : List Char :=
  if (cs.dropWhile fun c => c = '0') = [] then ['0'] else cs.dropWhile fun c => c = '0'

theorem value_dropZeros (cs : List Char) : value (cs.dropWhile fun c => c = '0') = value cs := by
  induction cs with
  | nil => rfl
  | cons c cs ih =>
    by_cases hc : c = '0'
    · rw [List.dropWhile_cons_of_pos (by simp [hc]), ih, value_cons, hc]
      simp
    · rw [List.dropWhile_cons_of_neg (by simp [hc])]

/-- Leading zeros do not count. -/
theorem value_significant (cs : List Char) : value (significant cs) = value cs := by
  rw [← value_dropZeros cs]
  unfold significant
  split
  · rename_i h
    rw [h]
    rfl
  · rfl

theorem significant_digits (h : Digits cs) : Digits (significant cs) := by
  unfold significant
  split
  · intro c hc
    rw [List.mem_singleton.mp hc]
    rfl
  · exact fun c hc => h c ((List.dropWhile_sublist _).subset hc)

theorem significant_canonical : Canonical (significant cs) := by
  unfold significant
  split
  · exact .inl rfl
  · rename_i h
    cases hdrop : cs.dropWhile fun c => c = '0' with
    | nil => exact absurd hdrop h
    | cons c rest =>
      have hhead := List.head_dropWhile_not (fun c => decide (c = '0')) h
      simp only [hdrop, List.head_cons, decide_eq_false_iff_not] at hhead
      exact .inr ⟨c, rest, rfl, hhead⟩

theorem toDigits_head {n : Nat} (h : n ≠ 0) : ∃ d tail, Nat.toDigits 10 n = d :: tail ∧ d ≠ '0' := by
  induction n using Nat.strongRecOn with
  | ind n ih =>
    by_cases hlt : n < 10
    · exact ⟨n.digitChar, [], Nat.toDigits_of_lt_base hlt, fun hzero => h (Nat.digitChar_eq_zero.1 hzero)⟩
    · have hdiv : n / 10 ≠ 0 := by omega
      obtain ⟨d, tail, heq, hd⟩ := ih (n / 10) (by omega) hdiv
      refine ⟨d, tail ++ [(n % 10).digitChar], ?_, hd⟩
      rw [Nat.toDigits_of_base_le (by decide) (Nat.not_lt.1 hlt), heq]
      rfl

theorem toDigits_canonical (n : Nat) : Canonical (Nat.toDigits 10 n) := by
  by_cases hn : n = 0
  · rw [hn]
    exact .inl (Nat.toDigits_zero 10)
  · exact .inr (toDigits_head hn)

theorem toDigits_digits (n : Nat) : Digits (Nat.toDigits 10 n) := fun _ hc =>
  Nat.isDigit_of_mem_toDigits (by decide) (by decide) hc

theorem value_toDigits (n : Nat) : value (Nat.toDigits 10 n) = n := Nat.ofDigitChars_ten_toDigits

end HermesOps.Schemes.Decimal
