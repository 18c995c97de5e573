import HermesOps.Hermesfile.Profiles
import HermesOps.Controller.JsonText
import HermesOps.Schemes.Base64

/-! The cursors of `list_profiles`: the name and the identifier after which a page starts, with the state
    that the listing asks for, as signed text. The HMAC under SHA-256 is a parameter. The hook that refuses
    a repeated member of the payload is left out: the payload has to be the canonical text of what was
    read, which has every member once. -/

namespace HermesOps.Profiles

open Schemes Hermesfile
open Controller (Result Json FloatRules loads dumps canonicalJson)

/-! ### Bytes and text -/

def utf8 (s : String) : List UInt8 := s.toUTF8.data.toList

/-- `bytes.decode("utf-8")`. -/
def decodeUtf8 (l : List UInt8) : Option String := String.fromUTF8? ⟨l.toArray⟩

/-- `altchars=b"-_"`. -/
def urlDigit (n : Nat) : Char :=
  if n < 26 then Char.ofNat (65 + n)
  else if n < 52 then Char.ofNat (71 + n)
  else if n < 62 then Char.ofNat (n - 4)
  else if n = 62 then '-' else '_'

def urlValue (c : Char) : Option Nat :=
  if 65 ≤ c.toNat ∧ c.toNat ≤ 90 then some (c.toNat - 65)
  else if 97 ≤ c.toNat ∧ c.toNat ≤ 122 then some (c.toNat - 71)
  else if 48 ≤ c.toNat ∧ c.toNat ≤ 57 then some (c.toNat + 4)
  else if c = '-' ∨ c = '+' then some 62
  else if c = '_' ∨ c = '/' then some 63
  else none

/-- The alphabet of `urlsafe_b64encode`; `b64decode` also knows the two standard characters. -/
def urlAlphabet : Base64.Alphabet where
  digit := urlDigit
  value := urlValue
  value_digit := by decide
  value_lt := by
    intro c n h
    unfold urlValue at h
    split at h
    · have := Option.some.inj h
      omega
    split at h
    · have := Option.some.inj h
      omega
    split at h
    · have := Option.some.inj h
      omega
    split at h
    · have := Option.some.inj h
      omega
    split at h
    · have := Option.some.inj h
      omega
    · cases h

/-- `BASE64URL_PATTERN`. -/
def isBase64url : Char → Bool := Regex.chars [('A', 'Z'), ('a', 'z'), ('0', '9')] "_-"

/-- `_decode_base64url`. -/
def decodeBase64url (segment : List Char) : Option (List UInt8) :=
  if segment ≠ [] ∧ segment.length % 4 ≠ 1 ∧ segment.all isBase64url then
    (Base64.decode urlAlphabet segment).bind fun decoded =>
      if segment = Base64.encode urlAlphabet decoded then some decoded else none
  else none

/-! ### Cursors -/

/-- What the cursors take from libraries. -/
structure CursorRules where
  hmac : List UInt8 → List UInt8 → List UInt8
  floats : FloatRules

variable (x : CursorRules) (secret : String)

/-- `_cursor_key`. -/
def CursorRules.cursorKey : List UInt8 := x.hmac (utf8 secret) (utf8 "hermesops-sandbox-profile-cursor-v1")

def CursorRules.signature (payload : List UInt8) : List UInt8 := x.hmac (x.cursorKey secret) payload

def ProfileState.text : ProfileState → String
  | .draft => "draft"
  | .ready => "ready"
  | .active => "active"
  | .inactive => "inactive"
  | .archived => "archived"

/-- `state` in a cursor. -/
def stateValue : Option ProfileState → Json
  | none => .null
  | some state => .str state.text

/-- The members of a cursor, in the order of their keys. -/
def cursorMembers (state : Option ProfileState) (profileName sandboxId : String) : Controller.Members :=
  [("profile_name", .str profileName), ("sandbox_id", .str sandboxId), ("state", stateValue state),
    ("v", .int 1)]

def cursorPayload (state : Option ProfileState) (profileName sandboxId : String) : List UInt8 :=
  utf8 (canonicalJson (.obj (cursorMembers state profileName sandboxId)))

/-- `_encode_cursor`. -/
def encodeCursor (state : Option ProfileState) (after : String × String) : String :=
  let payload := cursorPayload state after.1 after.2
  String.ofList (Base64.encode urlAlphabet payload ++
    '.' :: Base64.encode urlAlphabet (x.signature secret payload))

/-- `CURSOR_FIELDS`. -/
def cursorFields : List String := ["v", "profile_name", "sandbox_id", "state"]

/-- The version is the integer one. -/
def isVersion : Option Json → Bool
  | some (.int n) => n = 1
  | _ => false

def matchesState (state : Option ProfileState) : Option Json → Bool
  | some .null => state = none
  | some (.str text) => state.any fun s => s.text = text
  | _ => false

/-- The name and the identifier in a payload that passes the checks. -/
def readPayload (state : Option ProfileState) (payload : List UInt8) : Option (String × String) :=
  match (decodeUtf8 payload).bind (loads x.floats) with
  | some (.obj members) =>
    let keys := members.map Prod.fst
    if (keys.all fun key => key ∈ cursorFields) ∧ (cursorFields.all fun key => key ∈ keys) ∧
        isVersion (Controller.Members.get? members "v") ∧
          matchesState state (Controller.Members.get? members "state") then
      match Controller.Members.get? members "profile_name",
        Controller.Members.get? members "sandbox_id" with
      | some (.str profileName), some (.str sandboxId) =>
        if namePattern.fullMatch profileName ∧ isSandboxId sandboxId ∧
            (dumps (.obj members)).map utf8 = some payload then some (profileName, sandboxId)
        else none
      | _, _ => none
    else none
  | _ => none

/-- `_decode_cursor`, or nothing when it raises. -/
def readCursor (state : Option ProfileState) (cursor : String) : Option (String × String) :=
  let text := cursor.toList
  if 16 ≤ text.length ∧ text.length ≤ 2048 ∧ text.count '.' = 1 then
    (decodeBase64url (text.takeWhile fun c => c ≠ '.')).bind fun payload =>
      (decodeBase64url ((text.dropWhile fun c => c ≠ '.').drop 1)).bind fun signature =>
        if signature.length = 32 ∧ signature = x.signature secret payload then readPayload x state payload
        else none
  else none

def invalidCursor : Controller.ControllerError where
  status := 400
  code := "invalid_cursor"
  title := "Invalid pagination cursor"
  detail := some "The sandbox profile cursor is invalid or no longer applicable."

/-- `_decode_cursor`. -/
def decodeCursor (state : Option ProfileState) (cursor : String) : Result (String × String) :=
  match readCursor x secret state cursor with
  | some after => .ok after
  | none => .error invalidCursor

def decodeAfter (state : Option ProfileState) : Option String → Result (Option (String × String))
  | none => .ok none
  | some cursor => (decodeCursor x secret state cursor).map some

/-- `list_profiles` with the cursors as a client has them. -/
def listPage (t : Tables) (limit : Nat) (cursor : Option String) (state : Option ProfileState) :
    Result (List Profile × Option String) := do
  Controller.require (1 ≤ limit ∧ limit ≤ maxListLimit)
    { status := 400, code := "invalid_limit", title := "Invalid pagination limit"
      detail := some "limit must be between 1 and 200." }
  let after ← decodeAfter x secret state cursor
  let (items, next) ← listProfiles t limit after state
  return (items, next.map fun after => encodeCursor x secret state after)

end HermesOps.Profiles
