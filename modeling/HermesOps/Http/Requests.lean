import HermesOps.Controller.ObjectiveCommands
import HermesOps.Schemes.Framing

/-! Requests as `BaseHTTPRequestHandler` hands them to a handler of the Controller or of the Console: the
    fields of the header block, and whether the connection is already to be closed. `urlsplit` is a
    parameter; how `int` reads a field is spelled out. A length is clear when it is given at most once,
    in digits, and no transfer coding is named. -/

namespace HermesOps.Http

open Controller (strip lower isDigit)

inductive Method where
  | get
  | head
  | post
  | patch
  | options
  | other
  deriving DecidableEq

/-- A request without its body; the names of the fields are in lower case, and `closes` is
    `close_connection` after the parser. -/
structure Request where
  method : Method
  target : String
  headers : List (String × String)
  closes : Bool

/-- What `urlsplit` gives for a target. -/
structure Url where
  path : String
  query : String
  fragment : String

namespace Request

/-- `headers.get_all(name, failobj=[])`. -/
def getAll (r : Request) (name : String) : List String := (r.headers.filter fun x => x.1 = name).map Prod.snd

/-- `headers.get(name)`. -/
def get (r : Request) (name : String) : Option String := (r.getAll name).head?

end Request

/-! ### Lengths -/

def digitsValue (digits : List Char) : Nat := digits.foldl (fun n c => 10 * n + (c.toNat - 48)) 0

/-- `int(text)`: white space around it, a sign and single underscores are allowed, and at most 4300 digits. -/
def pythonInt (text : String) : Option Int :=
  let trimmed := (strip text).toList
  let negative := trimmed.head? = some '-'
  let unsigned := if trimmed.head? = some '-' ∨ trimmed.head? = some '+' then trimmed.tail else trimmed
  let groups := unsigned.splitOn '_'
  if groups.all (fun g => g ≠ [] ∧ g.all isDigit) ∧ groups.flatten.length ≤ 4300 then
    some (if negative then -(digitsValue groups.flatten : Int) else digitsValue groups.flatten)
  else none

/-- The number of bytes that a length field announces: digits, with white space around them. -/
def lengthOf (text : String) : Option Nat :=
  let trimmed := (strip text).toList
  if trimmed ≠ [] ∧ trimmed.all isDigit then some (digitsValue trimmed) else none

namespace Request

variable (r : Request)

/-- The fields that say how long the body is. -/
def lengths : List String := r.getAll "content-length"

def encodings : List String := r.getAll "transfer-encoding"

/-- No transfer coding is named. -/
def Uncoded : Prop := ∀ v ∈ r.encodings, v = ""

/-- The length is given once in digits, or not at all. -/
def ClearLength : Prop := r.lengths = [] ∨ ∃ v n, r.lengths = [v] ∧ lengthOf v = some n

/-- The framing of the request is not ambiguous. -/
def Clear : Prop := r.Uncoded ∧ r.ClearLength

/-- The length of the body. -/
def announced : Nat :=
  match r.lengths with
  | [v] => (lengthOf v).getD 0
  | _ => 0

end Request

/-- How requests lie on a connection, for a parser of request lines and header blocks. -/
def wire (parse : List UInt8 → Option (Request × List UInt8)) : Schemes.Wire UInt8 Request where
  parse
  announced := Request.announced
  Clear := Request.Clear

/-! ### Answers -/

/-- An exception: a `ControllerError` with its code, or any other. -/
inductive Raised where
  | controller (code : String)
  | other

/-- The surroundings of an answer: whether the last response is written and the body is received without an
    error of the socket, and what comes of the work between the two. -/
structure Exchange where
  sent : Bool
  received : Bool
  work : Except Raised Unit

/-- `self.close_connection` after a response that asks to close, or not; an exception while it is written
    ends the connection. -/
def respond (r : Request) (e : Exchange) (close : Bool) (consumed : Nat) : Schemes.Fate where
  closed := r.closes || close || !e.sent
  consumed

/-- An exception that leaves the handler. -/
def escape (consumed : Nat) : Schemes.Fate := ⟨true, consumed⟩

/-- The text behind a lead. -/
def behind (lead text : String) : Option String :=
  if text.toList.take lead.length = lead.toList then some (String.ofList (text.toList.drop lead.length)) else none

/-- `content_type.split(";", 1)[0].strip().lower()`. -/
def mediaType (contentType : String) : String :=
  lower (strip (String.ofList (contentType.toList.takeWhile (· ≠ ';'))))

end HermesOps.Http
