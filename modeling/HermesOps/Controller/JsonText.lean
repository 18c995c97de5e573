import HermesOps.Controller.Values

/-! JSON as text: what `json.dumps` writes of a value with the separators and the sorted keys of
    `canonical_json`, and what `json.loads` reads of any text. The reader goes down the grammar with a
    count of the steps it may still take; twice the length of the text is enough. A string of the model has
    no lone surrogates, so an escape of one is not read here; in the code it is read and then cannot
    be encoded. -/

namespace HermesOps.Controller

/-- Floats, which are kept as their `repr`: the texts that `repr` gives, and `repr(float(text))` of a
    number in a text. -/
structure FloatRules where
  isRepr : String → Bool
  read : String → String

/-- The decimal digits that `int` and `str` convert at most. -/
def maxIntDigits : Nat := 4300

/-! ### Writing -/

mutual

/-- No integer in the value has too many digits. -/
def isWritable : Json → Bool
  | .int n => (Nat.toDigits 10 n.natAbs).length ≤ maxIntDigits
  | .arr items => areWritable items
  | .obj members => membersWritable members
  | _ => true

def areWritable : List Json → Bool
  | [] => true
  | x :: xs => isWritable x && areWritable xs

def membersWritable : List (String × Json) → Bool
  | [] => true
  | (_, x) :: xs => isWritable x && membersWritable xs

end

/-- `json.dumps`; nothing is the `ValueError` of an integer. -/
def dumps (value : Json) : Option String := if isWritable value then some (canonicalJson value) else none

/-! ### Strings -/

def hexValue (c : Char) : Option Nat :=
  if c.isDigit then some (c.toNat - 48)
  else if 97 ≤ c.toNat ∧ c.toNat ≤ 102 then some (c.toNat - 87)
  else if 65 ≤ c.toNat ∧ c.toNat ≤ 70 then some (c.toNat - 55)
  else none

/-- Four hexadecimal digits. -/
def codeUnit : List Char → Option (Nat × List Char)
  | a :: b :: c :: d :: rest => do
    let a ← hexValue a
    let b ← hexValue b
    let c ← hexValue c
    let d ← hexValue d
    return (4096 * a + 256 * b + 16 * c + d, rest)
  | _ => none

def isHighSurrogate (u : Nat) : Bool := 0xd800 ≤ u ∧ u ≤ 0xdbff

def isLowSurrogate (u : Nat) : Bool := 0xdc00 ≤ u ∧ u ≤ 0xdfff

/-- The characters that a letter after a backslash stands for. -/
def simpleEscapes : List (Char × Char) := [
  ('"', '"'), ('\\', '\\'), ('/', '/'), ('b', '\x08'), ('f', '\x0c'), ('n', '\n'), ('r', '\r'),
  ('t', '\t')]

/-- What follows a backslash. -/
def scanEscape : List Char → Option (Char × List Char)
  | [] => none
  | c :: rest =>
    if c = 'u' then do
      let (u, rest) ← codeUnit rest
      if isHighSurrogate u then
        match rest with
        | '\\' :: 'u' :: rest => do
          let (v, rest) ← codeUnit rest
          if isLowSurrogate v then
            return (Char.ofNat (0x10000 + 1024 * (u - 0xd800) + (v - 0xdc00)), rest)
          else none
        | _ => none
      else if isLowSurrogate u then none
      else return (Char.ofNat u, rest)
    else (simpleEscapes.lookup c).map fun d => (d, rest)

theorem codeUnit_length {cs rest : List Char} {u : Nat} (h : codeUnit cs = some (u, rest)) :
    rest.length < cs.length := by
  match cs, h with
  | a :: b :: c :: d :: tail, h =>
    simp only [codeUnit, Option.bind_eq_bind, Option.bind_eq_some_iff] at h
    obtain ⟨_, -, _, -, _, -, _, -, h⟩ := h
    cases h
    simp only [List.length_cons]
    omega

theorem scanEscape_length {cs rest : List Char} {c : Char} (h : scanEscape cs = some (c, rest)) :
    rest.length < cs.length := by
  cases cs with
  | nil => cases h
  | cons d tail =>
    simp only [scanEscape] at h
    split at h
    · obtain ⟨⟨u, after⟩, hu, h⟩ := Option.bind_eq_some_iff.1 h
      have hafter := codeUnit_length hu
      simp only at h
      split at h
      · split at h
        · obtain ⟨⟨v, last⟩, hv, h⟩ := Option.bind_eq_some_iff.1 h
          have hlast := codeUnit_length hv
          simp only at h
          split at h
          · obtain ⟨-, hrest⟩ := Prod.mk.inj (Option.some.inj h)
            subst hrest
            simp only [List.length_cons] at hafter ⊢
            omega
          · cases h
        · cases h
      · split at h
        · cases h
        · cases h
          simp only [List.length_cons]
          omega
    · obtain ⟨e, -, h⟩ := Option.map_eq_some_iff.1 h
      cases h
      exact Nat.lt_succ_self _

/-- A string after its opening quotation mark; control characters are refused. -/
def scanString : List Char → Option (List Char × List Char)
  | [] => none
  | c :: rest =>
    if c = '"' then some ([], rest)
    else if c = '\\' then
      match h : scanEscape rest with
      | some (d, after) =>
        have := scanEscape_length h
        (scanString after).map fun x => (d :: x.1, x.2)
      | none => none
    else if c.toNat < 32 then none
    else (scanString rest).map fun x => (c :: x.1, x.2)
termination_by cs => cs.length
decreasing_by all_goals simp only [List.length_cons]; omega

/-! ### Numbers -/

/-- `0`, or digits that start with another one. -/
def scanInteger : List Char → Option (List Char × List Char)
  | [] => none
  | c :: rest =>
    if c = '0' then some (['0'], rest)
    else if c.isDigit then some (c :: rest.takeWhile Char.isDigit, rest.dropWhile Char.isDigit)
    else none

/-- A point and digits, or nothing. -/
def scanFraction (cs : List Char) : List Char × List Char :=
  match cs with
  | '.' :: rest =>
    if rest.takeWhile Char.isDigit = [] then ([], cs)
    else ('.' :: rest.takeWhile Char.isDigit, rest.dropWhile Char.isDigit)
  | _ => ([], cs)

/-- An optional sign. -/
def scanSign : List Char → List Char × List Char
  | '+' :: rest => (['+'], rest)
  | '-' :: rest => (['-'], rest)
  | cs => ([], cs)

/-- An exponent, or nothing. -/
def scanExponent (cs : List Char) : List Char × List Char :=
  match cs with
  | [] => ([], cs)
  | e :: rest =>
    if e = 'e' ∨ e = 'E' then
      if (scanSign rest).2.takeWhile Char.isDigit = [] then ([], cs)
      else (e :: ((scanSign rest).1 ++ (scanSign rest).2.takeWhile Char.isDigit),
        (scanSign rest).2.dropWhile Char.isDigit)
    else ([], cs)

/-- The parts of a number: its minus sign, integer part, fraction and exponent. -/
structure NumberParts where
  negative : Bool
  integer : List Char
  fraction : List Char
  exponent : List Char
  deriving DecidableEq

def NumberParts.isInteger (p : NumberParts) : Bool := p.fraction = [] ∧ p.exponent = []

def NumberParts.chars (p : NumberParts) : List Char :=
  (if p.negative then ['-'] else []) ++ (p.integer ++ (p.fraction ++ p.exponent))

/-- Whether there is a minus sign. -/
def scanMinus : List Char → Bool × List Char
  | [] => (false, [])
  | c :: rest => if c = '-' then (true, rest) else (false, c :: rest)

/-- `NUMBER_RE`. -/
def scanParts (cs : List Char) : Option (NumberParts × List Char) :=
  (scanInteger (scanMinus cs).2).map fun x =>
    let y := scanFraction x.2
    let z := scanExponent y.2
    (⟨(scanMinus cs).1, x.1, y.1, z.1⟩, z.2)

/-- The value of a number; an integer of too many digits raises. -/
def NumberParts.value (f : FloatRules) (p : NumberParts) : Option Json :=
  if p.isInteger then
    if p.integer.length ≤ maxIntDigits then
      let n := Nat.ofDigitChars 10 p.integer 0
      some (.int (if p.negative then -(n : Int) else n))
    else none
  else some (.float (f.read (String.ofList p.chars)))

def scanNumber (f : FloatRules) (cs : List Char) : Option (Json × List Char) :=
  (scanParts cs).bind fun x => (x.1.value f).map fun value => (value, x.2)

/-! ### Values -/

/-- The words of the reader. -/
def constants : List (String × Json) := [
  ("null", .null), ("true", .bool true), ("false", .bool false), ("NaN", .float "nan"),
  ("Infinity", .float "inf"), ("-Infinity", .float "-inf")]

def scanConstant (cs : List Char) : Option (Json × List Char) :=
  constants.findSome? fun x =>
    if x.1.toList.isPrefixOf cs then some (x.2, cs.drop x.1.length) else none

def isJsonSpace (c : Char) : Bool := c ∈ [' ', '\t', '\n', '\r']

def skipSpace (cs : List Char) : List Char := cs.dropWhile isJsonSpace

/-- `result[key] = value`, in key order. -/
def setItem (key : String) (value : Json) : List (String × Json) → List (String × Json)
  | [] => [(key, value)]
  | (k, v) :: rest =>
    if key = k then (key, value) :: rest
    else if key < k then (key, value) :: (k, v) :: rest
    else (k, v) :: setItem key value rest

/-- `dict(pairs)`. -/
def toDict (pairs : List (String × Json)) : List (String × Json) :=
  pairs.foldl (fun members x => setItem x.1 x.2 members) []

mutual

/-- `scan_once`. -/
def scanValue (f : FloatRules) : Nat → List Char → Option (Json × List Char)
  | 0, _ => none
  | _ + 1, [] => none
  | n + 1, c :: rest =>
    if c = '"' then (scanString rest).map fun x => (.str (String.ofList x.1), x.2)
    else if c = '[' then
      match skipSpace rest with
      | ']' :: rest => some (.arr [], rest)
      | cs => (scanItems f n cs).map fun x => (.arr x.1, x.2)
    else if c = '\x7b' then
      match skipSpace rest with
      | '\x7d' :: rest => some (.obj [], rest)
      | cs => (scanMembers f n cs).map fun x => (.obj (toDict x.1), x.2)
    else (scanConstant (c :: rest)).or (scanNumber f (c :: rest))

/-- The elements of an array up to its bracket. -/
def scanItems (f : FloatRules) : Nat → List Char → Option (List Json × List Char)
  | 0, _ => none
  | n + 1, cs =>
    (scanValue f n cs).bind fun x =>
      match skipSpace x.2 with
      | ']' :: rest => some ([x.1], rest)
      | ',' :: rest => (scanItems f n (skipSpace rest)).map fun y => (x.1 :: y.1, y.2)
      | _ => none

/-- The members of an object up to its brace. -/
def scanMembers (f : FloatRules) : Nat → List Char → Option (List (String × Json) × List Char)
  | n + 1, '"' :: cs =>
    (scanString cs).bind fun key =>
      match skipSpace key.2 with
      | ':' :: rest =>
        (scanValue f n (skipSpace rest)).bind fun x =>
          match skipSpace x.2 with
          | '\x7d' :: rest => some ([(String.ofList key.1, x.1)], rest)
          | ',' :: rest =>
            (scanMembers f n (skipSpace rest)).map fun y => ((String.ofList key.1, x.1) :: y.1, y.2)
          | _ => none
      | _ => none
  | _, _ => none

end

/-- `json.loads`. -/
def loads (f : FloatRules) (text : String) : Option Json :=
  (scanValue f (2 * text.length + 1) (skipSpace text.toList)).bind fun x =>
    if skipSpace x.2 = [] then some x.1 else none

/-! ### Values of the language -/

mutual

/-- A value that the code can hold: its floats are floats, and its objects are dictionaries, listed in
    the order of their keys. -/
def Json.Valid (f : FloatRules) : Json → Prop
  | .float r => f.isRepr r = true
  | .arr items => ItemsValid f items
  | .obj members => MembersValid f members ∧ (members.map Prod.fst).Pairwise (· < ·)
  | _ => True

def ItemsValid (f : FloatRules) : List Json → Prop
  | [] => True
  | x :: xs => x.Valid f ∧ ItemsValid f xs

def MembersValid (f : FloatRules) : List (String × Json) → Prop
  | [] => True
  | (_, x) :: xs => x.Valid f ∧ MembersValid f xs

end

/-- The words that `repr` gives of the floats that are no numbers of JSON. -/
def specialReprs : List String := ["nan", "inf", "-inf"]

/-- What the language says of `repr` and `float`: `repr` gives a literal with a fraction or an
    exponent, which reads as the same float, or one of three words; reading gives a float. -/
structure FloatRules.Sound (f : FloatRules) : Prop where
  literal : ∀ r, f.isRepr r = true → r ∉ specialReprs →
    ∃ p, scanParts r.toList = some (p, []) ∧ p.isInteger = false
  fixed : ∀ r, f.isRepr r = true → r ∉ specialReprs → f.read r = r
  special : ∀ r ∈ specialReprs, f.isRepr r = true
  read : ∀ text, f.isRepr (f.read text) = true

end HermesOps.Controller
