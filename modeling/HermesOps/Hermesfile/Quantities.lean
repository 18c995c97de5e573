import Mathlib.Data.Nat.Digits.Lemmas
import Mathlib.Tactic.Linarith
import Mathlib.Tactic.NormNum

/-! Durations and quantities of `hermesfile.py`. A quantity is multiplied in `Decimal`, that is, rounded
    to 28 significant digits; its canonical form is the number of the largest unit that divides the
    bytes, and there is none below one KiB. -/

namespace HermesOps.Hermesfile

/-! ### Decimal texts -/

def isDecimalDigit (c : Char) : Bool := 48 ≤ c.toNat ∧ c.toNat ≤ 57

/-- `int(...)` of decimal digits. -/
def parseDecimal (digits : List Char) : Nat := digits.foldl (fun n c => 10 * n + (c.toNat - 48)) 0

/-- `str(...)` of a number. -/
def decimalText (n : Nat) : List Char := (Nat.digits 10 n).reverse.map fun d => Char.ofNat (48 + d)

/-- `[1-9][0-9]*`. -/
def isPositiveText (digits : List Char) : Bool := digits.head?.any (· ≠ '0')

theorem digitChar_toNat {d : Nat} (hd : d < 10) : (Char.ofNat (48 + d)).toNat = 48 + d := by
  interval_cases d <;> rfl

theorem digitChar_isDecimalDigit {d : Nat} (hd : d < 10) : isDecimalDigit (Char.ofNat (48 + d)) = true := by
  rw [isDecimalDigit, digitChar_toNat hd]
  exact decide_eq_true ⟨by omega, by omega⟩

theorem foldl_digits (ds : List Nat) (h : ∀ d ∈ ds, d < 10) :
    parseDecimal (ds.reverse.map fun d => Char.ofNat (48 + d)) = Nat.ofDigits 10 ds := by
  induction ds with
  | nil => rfl
  | cons d ds ih =>
    have ih := ih fun x hx => h x (List.mem_cons_of_mem _ hx)
    unfold parseDecimal at ih ⊢
    rw [List.reverse_cons, List.map_append, List.foldl_append, ih, List.map_singleton, List.foldl_cons,
      List.foldl_nil, digitChar_toNat (h d List.mem_cons_self), Nat.ofDigits_cons]
    omega

/-- A number is read back from its text. -/
theorem parseDecimal_decimalText (n : Nat) : parseDecimal (decimalText n) = n := by
  rw [decimalText, foldl_digits _ fun d hd => Nat.digits_lt_base (by norm_num) hd, Nat.ofDigits_digits]

theorem decimalText_digits (n : Nat) : ∀ c ∈ decimalText n, isDecimalDigit c = true := by
  intro c hc
  obtain ⟨d, hd, rfl⟩ := List.mem_map.1 hc
  exact digitChar_isDecimalDigit (Nat.digits_lt_base (by norm_num) (List.mem_reverse.1 hd))

theorem decimalText_positive {n : Nat} (hn : 0 < n) : isPositiveText (decimalText n) = true := by
  have hne : Nat.digits 10 n ≠ [] := Nat.digits_ne_nil_iff_ne_zero.2 (by omega)
  have hlast := Nat.getLast_digit_ne_zero 10 (m := n) (by omega)
  have hlt : (Nat.digits 10 n).getLast hne < 10 :=
    Nat.digits_lt_base (by norm_num) (List.getLast_mem hne)
  rw [isPositiveText, decimalText, List.head?_map, List.head?_reverse, List.getLast?_eq_some_getLast hne]
  simp only [Option.map_some, Option.any_some, decide_eq_true_eq]
  intro hzero
  have := congrArg Char.toNat hzero
  rw [digitChar_toNat hlt] at this
  exact hlast (by simpa using this)

theorem le_foldl_decimal (digits : List Char) (n : Nat) :
    n ≤ digits.foldl (fun n c => 10 * n + (c.toNat - 48)) n := by
  induction digits generalizing n with
  | nil => exact Nat.le_refl n
  | cons c digits ih =>
    have := ih (10 * n + (c.toNat - 48))
    rw [List.foldl_cons]
    omega

/-- A number whose first digit is not zero. -/
theorem parseDecimal_pos {digits : List Char} (hpos : isPositiveText digits = true)
    (hdigits : ∀ c ∈ digits, isDecimalDigit c = true) : 0 < parseDecimal digits := by
  cases digits with
  | nil => cases hpos
  | cons c digits =>
    have hc := of_decide_eq_true (hdigits c List.mem_cons_self)
    have hne : c ≠ '0' := of_decide_eq_true hpos
    have hgt : 48 < c.toNat := by
      refine Nat.lt_of_le_of_ne hc.1 fun h => hne ?_
      rw [← Char.ofNat_toNat c, ← h]
    have := le_foldl_decimal digits (10 * 0 + (c.toNat - 48))
    rw [parseDecimal, List.foldl_cons]
    omega

theorem length_decimalText {n k : Nat} (hn : n < 10 ^ k) : (decimalText n).length ≤ k := by
  rw [decimalText, List.length_map, List.length_reverse]
  exact (Nat.digits_length_le_iff (by norm_num) n).2 hn

/-- The digits in front of a text that does not start with one. -/
theorem takeWhile_decimalText (n : Nat) {rest : List Char}
    (hrest : rest.head?.all fun c => !isDecimalDigit c) :
    (decimalText n ++ rest).takeWhile isDecimalDigit = decimalText n ∧
      (decimalText n ++ rest).dropWhile isDecimalDigit = rest := by
  have hcut : rest.takeWhile isDecimalDigit = [] ∧ rest.dropWhile isDecimalDigit = rest := by
    cases rest with
    | nil => exact ⟨rfl, rfl⟩
    | cons c rest =>
      have hc : isDecimalDigit c = false := by simpa using hrest
      exact ⟨List.takeWhile_cons_of_neg (by simp [hc]), List.dropWhile_cons_of_neg (by simp [hc])⟩
  constructor
  · rw [List.takeWhile_append_of_pos (decimalText_digits n), hcut.1, List.append_nil]
  · rw [List.dropWhile_append_of_pos (decimalText_digits n), hcut.2]

/-! ### Durations -/

/-- The milliseconds of a unit. -/
def durationUnits : List (String × Nat) := [("h", 3600000), ("m", 60000), ("s", 1000), ("ms", 1)]

def maxDuration : Nat := 365 * 24 * 3600000

/-- The groups of `DURATION_PATTERN`. -/
def matchDuration (value : String) : Option (Nat × Nat) :=
  let number := value.toList.takeWhile isDecimalDigit
  let unit := value.toList.dropWhile isDecimalDigit
  if isPositiveText number then
    (durationUnits.find? fun u => u.1.toList = unit).map fun u => (parseDecimal number, u.2)
  else none

/-- `_parse_duration`. -/
def parseDuration (value : String) : Option Nat :=
  (matchDuration value).bind fun x => if x.1 * x.2 ≤ maxDuration then some (x.1 * x.2) else none

/-- The number and the unit, for the first unit that divides. -/
def canonicalText (units : List (String × Nat)) (n : Nat) : Option String :=
  (units.find? fun u => n % u.2 = 0).map fun u => String.ofList (decimalText (n / u.2) ++ u.1.toList)

/-- `_canonical_duration`. -/
def canonicalDuration (value : String) : Option String :=
  (parseDuration value).bind (canonicalText durationUnits)

/-! ### Quantities -/

/-- The bytes of a unit. -/
def quantityUnits : List (String × Nat) :=
  [("TiB", 1024 ^ 4), ("GiB", 1024 ^ 3), ("MiB", 1024 ^ 2), ("KiB", 1024)]

def maxQuantity : Nat := 16 * 1024 ^ 4

/-- The groups of `QUANTITY_PATTERN`: the digits before and after the point, and the unit. -/
def matchQuantity (value : String) : Option (List Char × List Char × Nat) :=
  let whole := value.toList.takeWhile isDecimalDigit
  let rest := value.toList.dropWhile isDecimalDigit
  let (fraction, unit) := match rest with
    | '.' :: rest => (rest.takeWhile isDecimalDigit, rest.dropWhile isDecimalDigit)
    | rest => ([], rest)
  if isPositiveText whole ∧ ¬(rest.head? = some '.' ∧ fraction = []) then
    (quantityUnits.find? fun u => u.1.toList = unit).map fun u => (whole, fraction, u.2)
  else none

/-- A coefficient rounded to 28 digits, half to even, with the power of ten taken off it. -/
def roundDecimal (coefficient : Nat) : Nat × Nat :=
  if coefficient < 10 ^ 28 then (coefficient, 0)
  else
    let k := (decimalText coefficient).length - 28
    let q := coefficient / 10 ^ k
    let r := coefficient % 10 ^ k
    if 10 ^ k < 2 * r ∨ (2 * r = 10 ^ k ∧ q % 2 = 1) then (q + 1, k) else (q, k)

/-- `_parse_quantity`. -/
def parseQuantity (value : String) : Option Nat :=
  (matchQuantity value).bind fun (whole, fraction, unit) =>
    let product := roundDecimal (parseDecimal (whole ++ fraction) * unit)
    let scaled := product.1 * 10 ^ product.2
    let bytes := scaled / 10 ^ fraction.length
    if scaled % 10 ^ fraction.length = 0 ∧ 0 < bytes ∧ bytes ≤ maxQuantity then some bytes else none

/-- `_canonical_quantity`. -/
def canonicalQuantity (value : String) : Option String :=
  (parseQuantity value).bind (canonicalText quantityUnits)

/-! ### Canonical texts -/

/-- The canonical text names a unit that divides the amount. -/
theorem canonicalText_some {units : List (String × Nat)} {n : Nat} {t : String}
    (h : canonicalText units n = some t) :
    ∃ u ∈ units, n % u.2 = 0 ∧ t = String.ofList (decimalText (n / u.2) ++ u.1.toList) := by
  obtain ⟨u, hu, rfl⟩ := Option.map_eq_some_iff.1 h
  exact ⟨u, List.mem_of_find?_eq_some hu, by simpa using List.find?_some hu, rfl⟩

theorem canonicalText_isSome {units : List (String × Nat)} {n : Nat} :
    (canonicalText units n).isSome ↔ ∃ u ∈ units, n % u.2 = 0 := by
  rw [canonicalText, Option.isSome_map, List.find?_isSome]
  simp

theorem durationUnit_cases {u : String × Nat} (hu : u ∈ durationUnits) :
    u = ("h", 3600000) ∨ u = ("m", 60000) ∨ u = ("s", 1000) ∨ u = ("ms", 1) := by
  simpa [durationUnits] using hu

theorem quantityUnit_cases {u : String × Nat} (hu : u ∈ quantityUnits) :
    u = ("TiB", 1024 ^ 4) ∨ u = ("GiB", 1024 ^ 3) ∨ u = ("MiB", 1024 ^ 2) ∨ u = ("KiB", 1024) := by
  simpa [quantityUnits] using hu

theorem matchDuration_decimal {u : String × Nat} (hu : u ∈ durationUnits) {k : Nat} (hk : 0 < k) :
    matchDuration (String.ofList (decimalText k ++ u.1.toList)) = some (k, u.2) := by
  have hunit : (u.1.toList).head?.all (fun c => !isDecimalDigit c) = true ∧
      (durationUnits.find? fun v => v.1.toList = u.1.toList) = some u := by
    rcases durationUnit_cases hu with rfl | rfl | rfl | rfl <;> decide
  obtain ⟨htake, hdrop⟩ := takeWhile_decimalText k hunit.1
  simp only [matchDuration, String.toList_ofList, htake, hdrop, decimalText_positive hk, if_true, hunit.2,
    Option.map_some, parseDecimal_decimalText]

theorem parseDuration_some {value : String} {ms : Nat} (h : parseDuration value = some ms) :
    0 < ms ∧ ms ≤ maxDuration := by
  obtain ⟨x, hx, h⟩ := Option.bind_eq_some_iff.1 h
  split at h
  · rename_i hle
    cases h
    refine ⟨?_, hle⟩
    unfold matchDuration at hx
    dsimp only at hx
    split at hx
    · rename_i hpos
      obtain ⟨u, hu, rfl⟩ := Option.map_eq_some_iff.1 hx
      refine Nat.mul_pos (parseDecimal_pos hpos ?_) ?_
      · exact fun c hc => List.all_eq_true.1 List.all_takeWhile c hc
      · rcases durationUnit_cases (List.mem_of_find?_eq_some hu) with rfl | rfl | rfl | rfl <;> norm_num
    · cases hx
  · cases h

/-- A short text of printable characters. -/
def isPlain (value : String) : Bool :=
  value.length ≤ 32 ∧ 1 ≤ value.length ∧ value.toList.all fun c => 32 < c.toNat ∧ c.toNat < 127

theorem isPlain_decimal {k : Nat} (hk : 0 < k) (hlt : k < 10 ^ 28) {unit : String}
    (hlen : unit.length ≤ 4) (hunit : unit.toList.all fun c => 32 < c.toNat ∧ c.toNat < 127) :
    isPlain (String.ofList (decimalText k ++ unit.toList)) = true := by
  have hlength := length_decimalText hlt
  have hne : decimalText k ≠ [] := by
    intro h
    have := decimalText_positive hk
    rw [h] at this
    cases this
  have hpos := List.length_pos_of_ne_nil hne
  have hdigits : (decimalText k).all (fun c => 32 < c.toNat ∧ c.toNat < 127) = true := by
    rw [List.all_eq_true]
    intro c hc
    obtain ⟨h₁, h₂⟩ := of_decide_eq_true (decimalText_digits k c hc)
    exact decide_eq_true ⟨by omega, by omega⟩
  have hsum : (String.ofList (decimalText k ++ unit.toList)).length =
      (decimalText k).length + unit.length := by
    rw [String.length_ofList, List.length_append, String.length_toList]
  refine decide_eq_true ⟨?_, ?_, ?_⟩
  · omega
  · omega
  · rw [String.toList_ofList, List.all_append, hdigits, hunit]
    rfl

/-- A unit that divides an amount measures it. -/
theorem div_unit {n k : Nat} (hn : 0 < n) (hk : 0 < k) (hmod : n % k = 0) :
    0 < n / k ∧ n / k * k = n := by
  have hdvd := Nat.dvd_of_mod_eq_zero hmod
  exact ⟨Nat.div_pos (Nat.le_of_dvd hn hdvd) hk, Nat.div_mul_cancel hdvd⟩

/-- The canonical text of a duration is a duration of the same milliseconds. -/
theorem canonicalDuration_some {value t : String} (h : canonicalDuration value = some t) :
    isPlain t = true ∧ (matchDuration t).isSome ∧ parseDuration t = parseDuration value := by
  obtain ⟨ms, hms, h⟩ := Option.bind_eq_some_iff.1 h
  obtain ⟨hpos, hmax⟩ := parseDuration_some hms
  obtain ⟨u, hu, hmod, rfl⟩ := canonicalText_some h
  have hunit : 0 < u.2 ∧ u.1.length ≤ 4 ∧
      (u.1.toList.all fun c => 32 < c.toNat ∧ c.toNat < 127) = true := by
    rcases durationUnit_cases hu with rfl | rfl | rfl | rfl <;> decide
  obtain ⟨hk, hmul⟩ := div_unit hpos hunit.1 hmod
  have hmatch := matchDuration_decimal hu hk
  refine ⟨isPlain_decimal hk ?_ hunit.2.1 hunit.2.2, by rw [hmatch]; rfl, ?_⟩
  · have := Nat.div_le_self ms u.2
    rw [maxDuration] at hmax
    omega
  · rw [hms, parseDuration, hmatch]
    simp only [Option.bind_some, hmul, if_pos hmax]

/-- Every duration has a canonical text, since milliseconds always divide. -/
theorem canonicalDuration_isSome {value : String} :
    (canonicalDuration value).isSome ↔ (parseDuration value).isSome := by
  rw [canonicalDuration]
  cases parseDuration value with
  | none => simp
  | some ms =>
    simp only [Option.bind_some, Option.isSome_some, iff_true]
    exact canonicalText_isSome.2 ⟨("ms", 1), by decide, Nat.mod_one ms⟩

/-- A canonical text is its own. -/
theorem canonicalDuration_idem {value t : String} (h : canonicalDuration value = some t) :
    canonicalDuration t = some t := by
  rw [← h, canonicalDuration, (canonicalDuration_some h).2.2]
  rfl

theorem matchQuantity_decimal {u : String × Nat} (hu : u ∈ quantityUnits) {k : Nat} (hk : 0 < k) :
    matchQuantity (String.ofList (decimalText k ++ u.1.toList)) = some (decimalText k, [], u.2) := by
  have hunit : (u.1.toList).head?.all (fun c => !isDecimalDigit c) = true ∧
      u.1.toList.head? ≠ some '.' ∧ (quantityUnits.find? fun v => v.1.toList = u.1.toList) = some u := by
    rcases quantityUnit_cases hu with rfl | rfl | rfl | rfl <;> decide
  obtain ⟨hhead, hdot, hfind⟩ := hunit
  obtain ⟨htake, hdrop⟩ := takeWhile_decimalText k hhead
  have hsplit : (match u.1.toList with
      | '.' :: rest => (rest.takeWhile isDecimalDigit, rest.dropWhile isDecimalDigit)
      | rest => ([], rest)) = ([], u.1.toList) := by
    split
    · rename_i heq
      rw [heq] at hdot
      exact absurd rfl hdot
    · rfl
  simp only [matchQuantity, String.toList_ofList, htake, hdrop, hsplit, decimalText_positive hk, hdot,
    false_and, not_false_eq_true, and_self, if_true, hfind, Option.map_some]

theorem parseQuantity_some {value : String} {bytes : Nat} (h : parseQuantity value = some bytes) :
    0 < bytes ∧ bytes ≤ maxQuantity := by
  obtain ⟨⟨whole, fraction, unit⟩, -, h⟩ := Option.bind_eq_some_iff.1 h
  dsimp only at h
  split at h
  · rename_i hrange
    cases h
    exact hrange.2
  · cases h

theorem maxQuantity_lt : maxQuantity < 10 ^ 28 := by decide

/-- The canonical text of a quantity is a quantity of the same bytes. -/
theorem canonicalQuantity_some {value t : String} (h : canonicalQuantity value = some t) :
    isPlain t = true ∧ (matchQuantity t).isSome ∧ parseQuantity t = parseQuantity value := by
  obtain ⟨bytes, hbytes, h⟩ := Option.bind_eq_some_iff.1 h
  obtain ⟨hpos, hmax⟩ := parseQuantity_some hbytes
  obtain ⟨u, hu, hmod, rfl⟩ := canonicalText_some h
  have hunit : 0 < u.2 ∧ u.1.length ≤ 4 ∧
      (u.1.toList.all fun c => 32 < c.toNat ∧ c.toNat < 127) = true := by
    rcases quantityUnit_cases hu with rfl | rfl | rfl | rfl <;> decide
  obtain ⟨hk, hmul⟩ := div_unit hpos hunit.1 hmod
  have hmatch := matchQuantity_decimal hu hk
  have hlt : bytes < 10 ^ 28 := Nat.lt_of_le_of_lt hmax maxQuantity_lt
  refine ⟨isPlain_decimal hk ?_ hunit.2.1 hunit.2.2, by rw [hmatch]; rfl, ?_⟩
  · exact Nat.lt_of_le_of_lt (Nat.div_le_self bytes u.2) hlt
  · -- a whole number of units is multiplied without rounding
    rw [hbytes, parseQuantity, hmatch]
    simp only [Option.bind_some, List.append_nil, parseDecimal_decimalText, hmul, roundDecimal, if_pos hlt,
      List.length_nil, pow_zero, Nat.mul_one, Nat.mod_one, Nat.div_one, true_and]
    rw [if_pos ⟨hpos, hmax⟩]

/-- A quantity has a canonical text when it is a whole number of KiB. -/
theorem canonicalQuantity_isSome {value : String} :
    (canonicalQuantity value).isSome ↔ ∃ bytes, parseQuantity value = some bytes ∧ 1024 ∣ bytes := by
  rw [canonicalQuantity]
  cases parseQuantity value with
  | none => simp
  | some bytes =>
    simp only [Option.bind_some, Option.some.injEq, exists_eq_left', canonicalText_isSome]
    constructor
    · rintro ⟨u, hu, hmod⟩
      refine Nat.dvd_trans ?_ (Nat.dvd_of_mod_eq_zero hmod)
      rcases quantityUnit_cases hu with rfl | rfl | rfl | rfl <;> decide
    · intro h
      exact ⟨("KiB", 1024), by decide, Nat.mod_eq_zero_of_dvd h⟩

theorem canonicalQuantity_idem {value t : String} (h : canonicalQuantity value = some t) :
    canonicalQuantity t = some t := by
  rw [← h, canonicalQuantity, (canonicalQuantity_some h).2.2]
  rfl

example : canonicalQuantity "1.5GiB" = some "1536MiB" := by decide +kernel

example : canonicalQuantity "1.5KiB" = none := by decide +kernel

end HermesOps.Hermesfile
