import Mathlib.Data.List.Basic

/-! The values the Controller exchanges: JSON trees and its error type. Nothing in the Controller
    depends on the order of an object's members (it looks members up, collects the keys, and encodes
    with `sort_keys`), so an object is the list of its members in the order of their keys, and two
    values with the same canonical text are the same value. -/

namespace HermesOps.Controller

/-- A parsed JSON value; a float is kept as its `repr`. -/
inductive Json where
  | null
  | bool (b : Bool)
  | int (n : Int)
  | float (repr : String)
  | str (s : String)
  | arr (items : List Json)
  | obj (members : List (String × Json))

/-- `ControllerError`: the HTTP status with the machine code and the title. -/
structure ControllerError where
  status : Nat
  code : String
  title : String
  detail : Option String := none
  deriving DecidableEq

abbrev Result := Except ControllerError

/-- `raise` unless the test holds. -/
def require (test : Bool) (e : ControllerError) : Result Unit := if test then .ok () else .error e

@[simp] theorem require_ok {test : Bool} {e : ControllerError} :
    require test e = .ok () ↔ test = true := by
  unfold require
  split <;> simp_all

/-- `str.isspace` of one character. -/
def isSpace (c : Char) : Bool :=
  c.toNat ∈ [9, 10, 11, 12, 13, 28, 29, 30, 31, 32, 133, 160, 5760, 8232, 8233, 8239, 8287, 12288] ∨
    (8192 ≤ c.toNat ∧ c.toNat ≤ 8202)

/-! ### Canonical text -/

def hexDigit (n : Nat) : Char := if n < 10 then Char.ofNat (48 + n) else Char.ofNat (87 + n)

/-- How `json.dumps` with `ensure_ascii=False` writes one character of a string. -/
def escape (c : Char) : String :=
  if c.toNat = 34 then "\\\""
  else if c.toNat = 92 then "\\\\"
  else if c.toNat = 10 then "\\n"
  else if c.toNat = 13 then "\\r"
  else if c.toNat = 9 then "\\t"
  else if c.toNat = 8 then "\\b"
  else if c.toNat = 12 then "\\f"
  else if c.toNat < 32 then
    "\\u00" ++ String.ofList [hexDigit (c.toNat / 16), hexDigit (c.toNat % 16)]
  else c.toString

def quote (s : String) : String := "\"" ++ String.join (s.toList.map escape) ++ "\""

mutual

/-- `canonical_json`. -/
def canonicalJson : Json → String
  | .null => "null"
  | .bool b => if b then "true" else "false"
  | .int n => toString n
  | .float repr => repr
  | .str s => quote s
  | .arr items => "[" ++ ",".intercalate (canonicalItems items) ++ "]"
  | .obj members => "\x7b" ++ ",".intercalate (canonicalMembers members) ++ "\x7d"

def canonicalItems : List Json → List String
  | [] => []
  | x :: xs => canonicalJson x :: canonicalItems xs

def canonicalMembers : List (String × Json) → List String
  | [] => []
  | (k, x) :: xs => (quote k ++ ":" ++ canonicalJson x) :: canonicalMembers xs

end

end HermesOps.Controller
