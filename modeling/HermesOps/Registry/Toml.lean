import HermesOps.Controller.JsonText
import HermesOps.Registry.Projects

/-! `tomllib.loads`, for the documents that the Controller writes: tables and keys with one bare name, and
    values that are texts on one line, booleans or decimal integers. What else the format has (dotted and
    quoted names, arrays, dates, …) is beyond this reader, and it then says so. -/

namespace HermesOps.Registry.Toml

open Hermesfile (Value Members)
open Controller (hexValue maxIntDigits)

/-- A `TOMLDecodeError`, or a text that this reader does not follow. -/
inductive TomlError where
  | decode
  | beyond
  deriving DecidableEq

abbrev Reading := Except TomlError

/-- `TOML_WS`. -/
def isBlank (c : Char) : Bool := c = ' ' ∨ c = '\t'

/-- `BARE_KEY_CHARS`. -/
def isBare (c : Char) : Bool := c.isAlphanum ∨ c = '-' ∨ c = '_'

/-- `ILLEGAL_BASIC_STR_CHARS`, those of a comment too: the ASCII control characters but the tab. -/
def isIllegal (c : Char) : Bool := (c.toNat < 32 ∨ c.toNat = 127) ∧ c ≠ '\t'

/-! ### Texts -/

/-- `BASIC_STR_ESCAPE_REPLACEMENTS`. -/
def replacements : List (Char × Char) := [
  ('b', '\x08'), ('t', '\t'), ('n', '\n'), ('f', '\x0c'), ('r', '\r'), ('"', '"'), ('\\', '\\')]

def hexNumber (digits : List Char) : Option Nat :=
  digits.foldlM (fun n c => (hexValue c).map fun d => 16 * n + d) 0

/-- `parse_hex_char`. -/
def hexChar (length : Nat) (cs : List Char) : Reading (Char × List Char) :=
  match hexNumber (cs.take length) with
  | some n =>
    if (cs.take length).length = length ∧ n.isValidChar then .ok (Char.ofNat n, cs.drop length)
    else .error .decode
  | none => .error .decode

/-- `parse_basic_str_escape`, behind the backslash. -/
def escaped : List Char → Reading (Char × List Char)
  | [] => .error .decode
  | c :: rest =>
    if c = 'u' then hexChar 4 rest
    else if c = 'U' then hexChar 8 rest
    else
      match replacements.lookup c with
      | some d => .ok (d, rest)
      | none => .error .decode

theorem hexChar_length {length : Nat} {cs rest : List Char} {c : Char}
    (h : hexChar length cs = .ok (c, rest)) : rest.length ≤ cs.length := by
  unfold hexChar at h
  split at h
  · split at h
    · obtain ⟨-, rfl⟩ := Prod.mk.inj (Except.ok.inj h)
      rw [List.length_drop]
      omega
    · cases h
  · cases h

theorem escaped_length {cs rest : List Char} {c : Char} (h : escaped cs = .ok (c, rest)) :
    rest.length < cs.length := by
  cases cs with
  | nil => cases h
  | cons d tail =>
    rw [escaped] at h
    split at h
    · exact Nat.lt_succ_of_le (hexChar_length h)
    · split at h
      · exact Nat.lt_succ_of_le (hexChar_length h)
      · split at h
        · cases h
          exact Nat.lt_succ_self _
        · cases h

/-- `parse_basic_str` of a text on one line, behind its quotation mark. -/
def scanText : List Char → Reading (List Char × List Char)
  | [] => .error .decode
  | c :: rest =>
    if c = '"' then .ok ([], rest)
    else if c = '\\' then
      match h : escaped rest with
      | .ok (d, after) =>
        have := escaped_length h
        (scanText after).map fun x => (d :: x.1, x.2)
      | .error e => .error e
    else if isIllegal c then .error .decode
    else (scanText rest).map fun x => (c :: x.1, x.2)
termination_by cs => cs.length
decreasing_by all_goals simp only [List.length_cons]; omega

/-! ### Values and keys -/

/-- A character that can stand in a word: a number, a date and the like. -/
def inWord (c : Char) : Bool := c ∉ [' ', '\t', '\n', '#']

/-- A decimal integer without a sign, which `int` converts. -/
def isDecimal (word : List Char) : Bool :=
  word ≠ [] ∧ word.all Char.isDigit ∧ (word = ['0'] ∨ word.head? ≠ some '0') ∧ word.length ≤ maxIntDigits

/-- `parse_value`. -/
def scanValue : List Char → Reading (Value × List Char)
  | '"' :: '"' :: '"' :: _ => .error .beyond
  | '"' :: rest => (scanText rest).map fun x => (.str (String.ofList x.1), x.2)
  | 't' :: 'r' :: 'u' :: 'e' :: rest => .ok (.bool true, rest)
  | 'f' :: 'a' :: 'l' :: 's' :: 'e' :: rest => .ok (.bool false, rest)
  | cs =>
    if isDecimal (cs.takeWhile inWord) then
      .ok (.int (Nat.ofDigitChars 10 (cs.takeWhile inWord) 0), cs.dropWhile inWord)
    else .error .beyond

/-- `parse_key`. -/
def scanKey (cs : List Char) : Reading (String × List Char) :=
  match cs.takeWhile isBare, (cs.dropWhile isBare).dropWhile isBlank with
  | [], '"' :: _ | [], '\'' :: _ => .error .beyond
  | [], _ => .error .decode
  | _, '.' :: _ => .error .beyond
  | name, rest => .ok (String.ofList name, rest)

/-! ### Documents -/

/-- What has been read, and the table that members go to. -/
structure Doc where
  data : Members
  header : Option String

/-- The rest of `key_value_rule`. -/
def Doc.assign (doc : Doc) (key : String) (value : Value) : Reading Doc :=
  match doc.header with
  | none =>
    if (doc.data.get? key).isSome then .error .decode
    else .ok { doc with data := doc.data.set key value }
  | some header =>
    match doc.data.get? header with
    | some (.map table) =>
      if (Members.get? table key).isSome then .error .decode
      else .ok { doc with data := doc.data.set header (.map (Members.set table key value)) }
    | _ => .error .decode

/-- The rest of `create_dict_rule`. -/
def Doc.declare (doc : Doc) (name : String) : Reading Doc :=
  if (doc.data.get? name).isSome then .error .decode
  else .ok ⟨doc.data.set name (.map []), some name⟩

/-- `key_value_rule`. -/
def member (doc : Doc) (cs : List Char) : Reading (Doc × List Char) := do
  let (key, rest) ← scanKey cs
  match rest with
  | '=' :: rest =>
    let (value, rest) ← scanValue (rest.dropWhile isBlank)
    let doc ← doc.assign key value
    return (doc, rest)
  | _ => .error .decode

/-- `create_dict_rule`, behind the bracket. -/
def header (doc : Doc) (cs : List Char) : Reading (Doc × List Char) := do
  let (name, rest) ← scanKey (cs.dropWhile isBlank)
  match rest with
  | ']' :: rest =>
    let doc ← doc.declare name
    return (doc, rest)
  | _ => .error .decode

/-- A statement, or a comment, which is left for `skipComment`. -/
def statement (doc : Doc) : List Char → Reading (Doc × List Char)
  | '[' :: '[' :: _ => .error .beyond
  | '[' :: rest => header doc rest
  | '#' :: rest => .ok (doc, '#' :: rest)
  | c :: rest => if isBare c ∨ c = '"' ∨ c = '\'' then member doc (c :: rest) else .error .decode
  | [] => .ok (doc, [])

/-- `skip_comment`. -/
def skipComment : List Char → Reading (List Char)
  | '#' :: rest =>
    if (rest.takeWhile (· ≠ '\n')).any isIllegal then .error .decode else .ok (rest.dropWhile (· ≠ '\n'))
  | cs => .ok cs

/-- The loop of `loads`, with the rounds it may still take: each one ends a line. -/
def readLines : Nat → Doc → List Char → Reading Members
  | 0, _, _ => .error .beyond
  | rounds + 1, doc, cs =>
    match cs.dropWhile isBlank with
    | [] => .ok doc.data
    | '\n' :: rest => readLines rounds doc rest
    | cs => do
      let (doc, rest) ← statement doc cs
      match ← skipComment (rest.dropWhile isBlank) with
      | [] => return doc.data
      | '\n' :: rest => readLines rounds doc rest
      | _ => .error .decode

/-- `src.replace("\r\n", "\n")`. -/
def unified : List Char → List Char
  | '\r' :: '\n' :: rest => '\n' :: unified rest
  | c :: rest => c :: unified rest
  | [] => []

/-- `tomllib.loads`. -/
def loads (text : String) : Reading Members :=
  readLines ((unified text.toList).length + 1) ⟨[], none⟩ (unified text.toList)

end HermesOps.Registry.Toml
