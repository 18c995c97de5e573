import Mathlib.Algebra.Order.Field.Basic
import Mathlib.Data.Rat.Cast.Order
import Mathlib.Tactic.FieldSimp
import Mathlib.Tactic.Linarith
import Mathlib.Tactic.Positivity
import Mathlib.Tactic.Ring
import HermesOps.Hermesfile.Quantities

/-! The quantities of a Hermesfile against the exact rationals their texts denote. The product is
    rounded to 28 digits before it is asked to be an integer, so a text whose value is within half a
    unit of the last digit of a byte count is read as that count; and a count below a whole number of
    KiB has no canonical text. -/

namespace HermesOps.Hermesfile

/-! ### Rounding -/

/-- The unit of the last digit that is kept of a coefficient. -/
def lastDigit (coefficient : Nat) : Nat := 10 ^ ((decimalText coefficient).length - 28)

/-- A coefficient after rounding. -/
def rounded (coefficient : Nat) : Nat := (roundDecimal coefficient).1 * 10 ^ (roundDecimal coefficient).2

/-- Rounding half to even gives an even quotient exactly from within half a divisor. -/
theorem halfEven_eq_iff {p k a : Nat} (hk : 0 < k) (ha : a % 2 = 0) :
    (if k < 2 * (p % k) ∨ (2 * (p % k) = k ∧ p / k % 2 = 1) then p / k + 1 else p / k) = a ↔
      2 * |(p : ℤ) - a * k| ≤ k := by
  have hr := Nat.mod_lt p hk
  have hp : (p : ℤ) = k * (p / k : Nat) + (p % k : Nat) := by exact_mod_cast (Nat.div_add_mod p k).symm
  generalize p / k = q at *
  generalize p % k = r at *
  have habs : 2 * |(p : ℤ) - a * k| ≤ k ↔
      2 * ((q : ℤ) - a) * k + 2 * r ≤ k ∧ -(k : ℤ) ≤ 2 * ((q : ℤ) - a) * k + 2 * r := by
    rw [hp, ← abs_two (α := ℤ), ← abs_mul, abs_le, abs_two]
    constructor
    · rintro ⟨h₁, h₂⟩
      constructor <;> linarith
    · rintro ⟨h₁, h₂⟩
      constructor <;> linarith
  rw [habs]
  -- the quotient is the floor, one more, or off by a whole divisor
  obtain hlt | rfl | rfl | hgt : q + 1 < a ∨ q + 1 = a ∨ q = a ∨ a < q := by omega
  · have hfar : 2 * ((q : ℤ) - a) * k ≤ -4 * k := by nlinarith
    split <;> omega
  · have hone : 2 * ((q : ℤ) - (q + 1 : Nat)) * k = -2 * k := by push_cast; ring
    rw [hone]
    split <;> omega
  · rw [sub_self, mul_zero, zero_mul]
    split <;> omega
  · have hfar : 2 * (k : ℤ) ≤ 2 * ((q : ℤ) - a) * k := by nlinarith
    split <;> omega

theorem lt_pow_length (p : Nat) : p < 10 ^ (decimalText p).length := by
  rw [decimalText, List.length_map, List.length_reverse]
  exact Nat.lt_base_pow_length_digits (by norm_num)

theorem pow_length_le {p : Nat} (hp : 0 < p) : 10 ^ (decimalText p).length ≤ 10 * p := by
  rw [decimalText, List.length_map, List.length_reverse]
  exact Nat.base_pow_length_digits_le 10 p (by norm_num) (by omega)

/-- A coefficient of more than 28 digits is rounded to a multiple of the last unit. -/
theorem rounded_large {p : Nat} (hp : ¬p < 10 ^ 28) :
    rounded p = (if lastDigit p < 2 * (p % lastDigit p) ∨
      (2 * (p % lastDigit p) = lastDigit p ∧ p / lastDigit p % 2 = 1) then p / lastDigit p + 1
      else p / lastDigit p) * lastDigit p := by
  rw [rounded, roundDecimal, if_neg hp, lastDigit]
  dsimp only
  split <;> rfl

/-- A byte count is what a product rounds to exactly when it is within half a unit of it. -/
theorem rounded_eq_iff {p n f : Nat} (hn : n ≤ maxQuantity) :
    rounded p = n * 10 ^ f ↔ 2 * |(p : ℤ) - n * 10 ^ f| ≤ lastDigit p := by
  by_cases hsmall : p < 10 ^ 28
  · have hunit : lastDigit p = 1 := by rw [lastDigit, Nat.sub_eq_zero_of_le (length_decimalText hsmall), pow_zero]
    rw [rounded, roundDecimal, if_pos hsmall, hunit, pow_zero, Nat.mul_one, ← Int.natCast_inj]
    push_cast
    have habs := abs_nonneg ((p : ℤ) - n * 10 ^ f)
    constructor
    · intro heq
      rw [heq, sub_self, abs_zero]
      norm_num
    · intro hle
      have hzero : |(p : ℤ) - n * 10 ^ f| = 0 := by omega
      exact sub_eq_zero.1 (abs_eq_zero.1 hzero)
  · have hlen : 28 < (decimalText p).length :=
      (Nat.pow_lt_pow_iff_right (by norm_num)).1 (Nat.lt_of_le_of_lt (Nat.le_of_not_lt hsmall) (lt_pow_length p))
    have hbig := pow_length_le (p := p) (by omega)
    obtain ⟨k, hk⟩ : ∃ k, (decimalText p).length = k + 28 := ⟨_, (Nat.sub_add_cancel hlen.le).symm⟩
    have hunit : lastDigit p = 10 ^ k := by rw [lastDigit, hk, Nat.add_sub_cancel]
    rw [hk] at hbig
    rw [rounded_large hsmall, hunit]
    have hpos : 0 < 10 ^ k := Nat.pow_pos (by norm_num)
    obtain hlt | hle := Nat.lt_or_ge k f
    · obtain ⟨j, rfl⟩ := Nat.exists_eq_add_of_lt hlt
      have hsplit : n * 10 ^ (k + j + 1) = n * 10 ^ j * 10 * 10 ^ k := by ring
      have heven : n * 10 ^ j * 10 % 2 = 0 := by omega
      have hiff := halfEven_eq_iff (p := p) hpos heven
      have hcast : (n : ℤ) * 10 ^ (k + j + 1) = (n * 10 ^ j * 10 : Nat) * (10 ^ k : Nat) := by
        push_cast
        ring
      rw [hcast, ← hiff, hsplit]
      exact Nat.mul_left_inj hpos.ne'
    · -- a count of the range has too few digits to be what such a product rounds to
      have hsmall : n * 10 ^ f < 10 ^ 14 * 10 ^ k :=
        Nat.mul_lt_mul_of_lt_of_le (Nat.lt_of_le_of_lt hn (by decide)) (Nat.pow_le_pow_right (by norm_num) hle)
          (by norm_num)
      have hwide : 10 ^ 27 * 10 ^ k ≤ p := by
        have : 10 ^ (k + 28) = 10 * (10 ^ 27 * 10 ^ k) := by ring
        omega
      refine ⟨fun heq => ?_, fun hnear => ?_⟩
      · have hq : 10 ^ 27 ≤ p / 10 ^ k := (Nat.le_div_iff_mul_le hpos).2 hwide
        have hstep : 10 ^ 27 * 10 ^ k ≤ n * 10 ^ f := by
          rw [← heq]
          split <;> exact Nat.mul_le_mul_right _ (by omega)
        omega
      · have hle := (abs_le.1 (by linarith : |(p : ℤ) - n * 10 ^ f| ≤ (10 ^ k : Nat))).2
        have hcast : ((n * 10 ^ f : Nat) : ℤ) = (n : ℤ) * 10 ^ f := by push_cast; rfl
        rw [← hcast] at hle
        omega

theorem parseQuantity_eq_some {value : String} {whole fraction : List Char} {unit n : Nat}
    (h : matchQuantity value = some (whole, fraction, unit)) :
    parseQuantity value = some n ↔
      rounded (parseDecimal (whole ++ fraction) * unit) = n * 10 ^ fraction.length ∧
        1 ≤ n ∧ n ≤ maxQuantity := by
  have hpos : 0 < 10 ^ fraction.length := Nat.pow_pos (by norm_num)
  rw [parseQuantity, h]
  simp only [Option.bind_some, rounded]
  generalize (roundDecimal (parseDecimal (whole ++ fraction) * unit)).1 *
    10 ^ (roundDecimal (parseDecimal (whole ++ fraction) * unit)).2 = scaled
  constructor
  · intro hsome
    split at hsome
    · rename_i hrange
      cases hsome
      refine ⟨?_, hrange.2⟩
      have := Nat.div_add_mod scaled (10 ^ fraction.length)
      rw [hrange.1, Nat.add_zero, Nat.mul_comm] at this
      exact this.symm
    · cases hsome
  · rintro ⟨rfl, hrange⟩
    rw [Nat.mul_mod_left, Nat.mul_div_left n hpos, if_pos ⟨rfl, hrange⟩]

/-! ### Exact values -/

/-- The rational that the groups of `QUANTITY_PATTERN` denote. -/
def groupsValue (groups : List Char × List Char × Nat) : ℚ :=
  (parseDecimal (groups.1 ++ groups.2.1) * groups.2.2 : Nat) / 10 ^ groups.2.1.length

/-- The rational a text denotes, if it is a quantity. -/
def exactValue (value : String) : Option ℚ := (matchQuantity value).map groupsValue

/-- One unit of the 28th digit of that rational. -/
def lastUnit (groups : List Char × List Char × Nat) : ℚ :=
  lastDigit (parseDecimal (groups.1 ++ groups.2.1) * groups.2.2) / 10 ^ groups.2.1.length

/-- Reading gives the exact bytes of the range and nothing else, and what is read can be printed. -/
def ExactlyRead (value : String) : Prop :=
  (∀ n, parseQuantity value = some n ↔ exactValue value = some (n : ℚ) ∧ 1 ≤ n ∧ n ≤ maxQuantity) ∧
    ∀ n, parseQuantity value = some n → ∃ t, canonicalQuantity value = some t ∧ exactValue t = some (n : ℚ)

/-- A byte count within half a unit of the last digit is the value itself, a whole number of KiB. -/
def WellSeparated (groups : List Char × List Char × Nat) : Prop :=
  ∀ n : Nat, 1 ≤ n → n ≤ maxQuantity → |groupsValue groups - n| ≤ lastUnit groups / 2 →
    groupsValue groups = n ∧ 1024 ∣ n

theorem groupsValue_eq_iff {whole fraction : List Char} {unit n : Nat} :
    groupsValue (whole, fraction, unit) = n ↔
      parseDecimal (whole ++ fraction) * unit = n * 10 ^ fraction.length := by
  have hpos : (10 : ℚ) ^ fraction.length ≠ 0 := by positivity
  rw [groupsValue, div_eq_iff hpos]
  exact_mod_cast Iff.rfl

theorem near_iff {whole fraction : List Char} {unit n : Nat} :
    |groupsValue (whole, fraction, unit) - n| ≤ lastUnit (whole, fraction, unit) / 2 ↔
      2 * |((parseDecimal (whole ++ fraction) * unit : Nat) : ℤ) - n * 10 ^ fraction.length| ≤
        lastDigit (parseDecimal (whole ++ fraction) * unit) := by
  have hpos : (0 : ℚ) < 10 ^ fraction.length := by positivity
  rw [groupsValue, lastUnit]
  dsimp only
  generalize parseDecimal (whole ++ fraction) * unit = p
  have hdiff : (p : ℚ) / 10 ^ fraction.length - n = (p - n * 10 ^ fraction.length) / 10 ^ fraction.length := by
    field_simp
  rw [hdiff, abs_div, abs_of_pos hpos, div_div, mul_comm _ (2 : ℚ), ← div_div, div_le_div_iff_of_pos_right hpos,
    le_div_iff₀ two_pos, mul_comm]
  exact_mod_cast Iff.rfl

/-- What rounds to a byte count of the range is read as that count. -/
theorem parseQuantity_iff_near {value : String} {groups : List Char × List Char × Nat} {n : Nat}
    (h : matchQuantity value = some groups) :
    parseQuantity value = some n ↔
      |groupsValue groups - n| ≤ lastUnit groups / 2 ∧ 1 ≤ n ∧ n ≤ maxQuantity := by
  obtain ⟨whole, fraction, unit⟩ := groups
  rw [parseQuantity_eq_some h, near_iff]
  constructor
  · rintro ⟨heq, hrange⟩
    exact ⟨(rounded_eq_iff hrange.2).1 heq, hrange⟩
  · rintro ⟨hnear, hrange⟩
    exact ⟨(rounded_eq_iff hrange.2).2 hnear, hrange⟩

theorem near_self {groups : List Char × List Char × Nat} {n : Nat} (h : groupsValue groups = n) :
    |groupsValue groups - n| ≤ lastUnit groups / 2 := by
  rw [h, sub_self, abs_zero, lastUnit]
  exact div_nonneg (div_nonneg (Nat.cast_nonneg _) (by positivity)) (by norm_num)

/-- A canonical text denotes the bytes it was printed for. -/
theorem exactValue_canonical {value t : String} {n : Nat} (hn : parseQuantity value = some n)
    (h : canonicalQuantity value = some t) : exactValue t = some (n : ℚ) := by
  rw [canonicalQuantity, hn, Option.bind_some] at h
  obtain ⟨u, hu, hmod, rfl⟩ := canonicalText_some h
  have hunit : 0 < u.2 := by rcases quantityUnit_cases hu with rfl | rfl | rfl | rfl <;> norm_num
  obtain ⟨hk, hmul⟩ := div_unit (parseQuantity_some hn).1 hunit hmod
  rw [exactValue, matchQuantity_decimal hu hk, Option.map_some, Option.some.injEq, groupsValue_eq_iff,
    List.append_nil, parseDecimal_decimalText, hmul, List.length_nil, pow_zero, Nat.mul_one]

/-- A quantity is read and printed exactly if and only if no byte count lies within the rounding of
    the product without being its value and a whole number of KiB. -/
theorem exactlyRead_iff {value : String} {groups : List Char × List Char × Nat}
    (h : matchQuantity value = some groups) : ExactlyRead value ↔ WellSeparated groups := by
  have hvalue : ∀ n : Nat, exactValue value = some (n : ℚ) ↔ groupsValue groups = n := by
    intro n
    rw [exactValue, h, Option.map_some, Option.some.injEq]
  constructor
  · rintro ⟨hread, hprint⟩ n hone hmax hnear
    have hn := (parseQuantity_iff_near h).2 ⟨hnear, hone, hmax⟩
    obtain ⟨t, ht, -⟩ := hprint n hn
    have hsome : (canonicalQuantity value).isSome := by rw [ht]; rfl
    obtain ⟨m, hm, hdvd⟩ := canonicalQuantity_isSome.1 hsome
    rw [hn] at hm
    cases hm
    exact ⟨(hvalue n).1 ((hread n).1 hn).1, hdvd⟩
  · intro hsep
    refine ⟨fun n => ⟨fun hn => ?_, fun hn => ?_⟩, fun n hn => ?_⟩
    · obtain ⟨hnear, hone, hmax⟩ := (parseQuantity_iff_near h).1 hn
      exact ⟨(hvalue n).2 (hsep n hone hmax hnear).1, hone, hmax⟩
    · exact (parseQuantity_iff_near h).2 ⟨near_self ((hvalue n).1 hn.1), hn.2⟩
    · obtain ⟨hnear, hone, hmax⟩ := (parseQuantity_iff_near h).1 hn
      have hsome := canonicalQuantity_isSome.2 ⟨n, hn, (hsep n hone hmax hnear).2⟩
      obtain ⟨t, ht⟩ := Option.isSome_iff_exists.1 hsome
      exact ⟨t, ht, exactValue_canonical hn ht⟩

/-- A gibibyte and a half is read exactly. -/
theorem exactlyRead_sample : ExactlyRead "1.5GiB" := by
  have hgroups : matchQuantity "1.5GiB" = some (['1'], ['5'], 1024 ^ 3) := by decide +kernel
  refine (exactlyRead_iff hgroups).2 fun n _ _ hnear => ?_
  have hp : parseDecimal (['1'] ++ ['5']) * 1024 ^ 3 = 1610612736 * 10 := by decide
  have hunit : lastDigit (1610612736 * 10) = 1 := by
    rw [lastDigit, Nat.sub_eq_zero_of_le (length_decimalText (by norm_num)), pow_zero]
  rw [near_iff, hp, hunit] at hnear
  have hzero := abs_nonneg (((1610612736 * 10 : Nat) : ℤ) - n * 10 ^ ['5'].length)
  have hn : n = 1610612736 := by
    have hdiff := abs_eq_zero.1 (show |((1610612736 * 10 : Nat) : ℤ) - n * 10 ^ ['5'].length| = 0 by omega)
    simp only [List.length_cons, List.length_nil] at hdiff
    omega
  subst hn
  exact ⟨groupsValue_eq_iff.2 (by rw [hp]; rfl), by norm_num⟩

/-- One byte in 10^30 is lost to rounding: a value that is no integer is read as 10036 bytes. -/
theorem fraction_rounded_away :
    ¬∀ value : String, value.length ≤ 32 → (matchQuantity value).isSome → ExactlyRead value := by
  intro h
  have hread := (h "9.800781250000000000000000001KiB" (by decide +kernel) (by decide +kernel)).1 10036
  have hn : parseQuantity "9.800781250000000000000000001KiB" = some 10036 := by decide +kernel
  have hvalue := (hread.1 hn).1
  have hgroups : matchQuantity "9.800781250000000000000000001KiB" =
      some ("9".toList, "800781250000000000000000001".toList, 1024) := by decide +kernel
  rw [exactValue, hgroups, Option.map_some, Option.some.injEq] at hvalue
  rw [groupsValue_eq_iff] at hvalue
  revert hvalue
  decide +kernel

end HermesOps.Hermesfile
