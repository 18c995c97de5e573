import Mathlib.Data.List.Basic
import Mathlib.Data.UInt

/-! Base64 without padding, over any alphabet of sixty-four characters. Three bytes are four digits, and
    one or two bytes at the end are two or three digits, of whose bits some are not used. -/

namespace HermesOps.Schemes.Base64

/-- Sixty-four digits; a reader may know more characters for a digit than the writer uses. -/
structure Alphabet where
  digit : Nat → Char
  value : Char → Option Nat
  value_digit : ∀ n < 64, value (digit n) = some n
  value_lt : ∀ c n, value c = some n → n < 64

variable (x : Alphabet)

def encode : List UInt8 → List Char
  | a :: b :: c :: rest =>
    x.digit (a.toNat / 4) :: x.digit (a.toNat % 4 * 16 + b.toNat / 16) ::
      x.digit (b.toNat % 16 * 4 + c.toNat / 64) :: x.digit (c.toNat % 64) :: encode rest
  | [a, b] =>
    [x.digit (a.toNat / 4), x.digit (a.toNat % 4 * 16 + b.toNat / 16), x.digit (b.toNat % 16 * 4)]
  | [a] => [x.digit (a.toNat / 4), x.digit (a.toNat % 4 * 16)]
  | [] => []

/-- The bytes of some digits; a single digit at the end has too few bits. -/
def bytes : List Nat → Option (List UInt8)
  | a :: b :: c :: d :: rest => (bytes rest).map fun l =>
    UInt8.ofNat (a * 4 + b / 16) :: UInt8.ofNat (b % 16 * 16 + c / 4) :: UInt8.ofNat (c % 4 * 64 + d) :: l
  | [a, b, c] => some [UInt8.ofNat (a * 4 + b / 16), UInt8.ofNat (b % 16 * 16 + c / 4)]
  | [a, b] => some [UInt8.ofNat (a * 4 + b / 16)]
  | [_] => none
  | [] => some []

def decode (text : List Char) : Option (List UInt8) := (text.mapM x.value).bind bytes

variable {x}

theorem ofNat_eq {a : UInt8} {n : Nat} (h : n = a.toNat) : UInt8.ofNat n = a := by
  rw [h, UInt8.ofNat_toNat]

theorem decode_cons_four (a b c d : Char) (text : List Char) {p q r s : Nat} (ha : x.value a = some p)
    (hb : x.value b = some q) (hc : x.value c = some r) (hd : x.value d = some s) :
    decode x (a :: b :: c :: d :: text) = (decode x text).map fun l =>
      UInt8.ofNat (p * 4 + q / 16) :: UInt8.ofNat (q % 16 * 16 + r / 4) :: UInt8.ofNat
        (r % 4 * 64 + s) :: l := by
  unfold decode
  simp only [List.mapM_cons, ha, hb, hc, hd, Option.bind_eq_bind, Option.bind_some, Option.bind_assoc]
  cases text.mapM x.value with
  | none => rfl
  | some values => rfl

/-- What is written is read back. -/
theorem decode_encode : ∀ l : List UInt8, decode x (encode x l) = some l
  | a :: b :: c :: rest => by
    have ha := a.toNat_lt
    have hb := b.toNat_lt
    have hc := c.toNat_lt
    rw [encode, decode_cons_four _ _ _ _ _ (x.value_digit _ (by omega)) (x.value_digit _ (by omega))
      (x.value_digit _ (by omega)) (x.value_digit _ (by omega)), decode_encode rest, Option.map_some,
      ofNat_eq (a := a) (by omega), ofNat_eq (a := b) (by omega), ofNat_eq (a := c) (by omega)]
  | [a, b] => by
    have ha := a.toNat_lt
    have hb := b.toNat_lt
    simp only [encode, decode, List.mapM_cons, List.mapM_nil, Option.bind_eq_bind, Option.pure_def,
      x.value_digit _ (show a.toNat / 4 < 64 by omega),
      x.value_digit _ (show a.toNat % 4 * 16 + b.toNat / 16 < 64 by omega),
      x.value_digit _ (show b.toNat % 16 * 4 < 64 by omega), Option.bind_some, bytes]
    rw [ofNat_eq (a := a) (by omega), ofNat_eq (a := b) (by omega)]
  | [a] => by
    have ha := a.toNat_lt
    simp only [encode, decode, List.mapM_cons, List.mapM_nil, Option.bind_eq_bind, Option.pure_def,
      x.value_digit _ (show a.toNat / 4 < 64 by omega),
      x.value_digit _ (show a.toNat % 4 * 16 < 64 by omega), Option.bind_some, bytes]
    rw [ofNat_eq (a := a) (by omega)]
  | [] => rfl

theorem encode_injective {l l' : List UInt8} (h : encode x l = encode x l') : l = l' := by
  have hl := decode_encode (x := x) l
  rw [h, decode_encode] at hl
  exact (Option.some.inj hl).symm

/-- Four digits for three bytes, and one more than bytes at the end. -/
theorem length_encode : ∀ l : List UInt8, (encode x l).length = (4 * l.length + 2) / 3
  | a :: b :: c :: rest => by
    simp only [encode, List.length_cons, length_encode rest]
    omega
  | [a, b] => by simp [encode]
  | [a] => by simp [encode]
  | [] => rfl

/-- A text has no digit alone at the end. -/
theorem length_encode_mod (l : List UInt8) : (encode x l).length % 4 ≠ 1 := by
  rw [length_encode]
  omega

theorem mem_encode : ∀ (l : List UInt8) {c : Char}, c ∈ encode x l → ∃ n < 64, c = x.digit n
  | a :: b :: c :: rest, d, h => by
    have ha := a.toNat_lt
    have hb := b.toNat_lt
    have hc := c.toNat_lt
    simp only [encode, List.mem_cons] at h
    rcases h with rfl | rfl | rfl | rfl | h
    · exact ⟨_, by omega, rfl⟩
    · exact ⟨_, by omega, rfl⟩
    · exact ⟨_, by omega, rfl⟩
    · exact ⟨_, by omega, rfl⟩
    · exact mem_encode rest h
  | [a, b], d, h => by
    have ha := a.toNat_lt
    have hb := b.toNat_lt
    simp only [encode, List.mem_cons, List.not_mem_nil, or_false] at h
    rcases h with rfl | rfl | rfl
    · exact ⟨_, by omega, rfl⟩
    · exact ⟨_, by omega, rfl⟩
    · exact ⟨_, by omega, rfl⟩
  | [a], d, h => by
    have ha := a.toNat_lt
    simp only [encode, List.mem_cons, List.not_mem_nil, or_false] at h
    rcases h with rfl | rfl
    · exact ⟨_, by omega, rfl⟩
    · exact ⟨_, by omega, rfl⟩
  | [], d, h => absurd h List.not_mem_nil

end HermesOps.Schemes.Base64
