import HermesOps.Http.Requests

/-! `ControllerRequestHandler` of `server.py`, as far as it decides what is read from the connection and
    whether it stays open. Every handler checks the host and the target before anything else; reads
    refuse a body, and mutations read one. What the routes do with the request is the work of the
    exchange. -/

namespace HermesOps.Http

open Controller (strip lower isDigit splitOnce)
open Schemes (Fate)

/-- What the handler takes from its server. -/
structure ControllerSite where
  port : Nat
  consoleOrigin : String
  split : String → Option Url

def maxRequestTargetBytes : Nat := 4096
def maxJsonBodyBytes : Nat := 384 * 1024

abbrev Check (α : Type) := Except Raised α

def deny {α : Type} (code : String) : Check α := .error (.controller code)

/-- `raise` unless the test holds. -/
def demand (test : Bool) (code : String) : Check Unit := if test then .ok () else deny code

@[simp] theorem ok_bind {α β : Type} {a : α} {f : α → Check β} : ((.ok a : Check α) >>= f) = f a := rfl

@[simp] theorem error_bind {α β : Type} {raised : Raised} {f : α → Check β} :
    ((.error raised : Check α) >>= f) = .error raised := rfl

/-- A sequence of checks passes if each of them does. -/
theorem bind_passes {α β : Type} {x : Check α} {f : α → Check β} {b : β} :
    (x >>= f) = .ok b ↔ ∃ a, x = .ok a ∧ f a = .ok b := by
  cases x <;> simp

variable (c : ControllerSite) (r : Request) (e : Exchange)

/-- `_single_header`. -/
def singleHeader (name : String) (required : Bool) : Check (Option String) := do
  demand ((r.getAll name).length ≤ 1) "ambiguous_header"
  demand (¬(required ∧ (r.get name).all fun v => strip v = "")) "header_required"
  return r.get name

/-- The authorities that `_validate_host` accepts. -/
def acceptedHosts (port : Nat) : List String :=
  ["localhost", "localhost:" ++ toString port, "127.0.0.1", "127.0.0.1:" ++ toString port, "[::1]",
    "[::1]:" ++ toString port]

/-- `_validate_host`. -/
def validateHost : Check Unit := do
  let host := (← singleHeader r "host" false).getD ""
  demand (host ≠ "") "host_header_required"
  demand (lower host ∈ acceptedHosts c.port) "misdirected_request"

/-- `_validate_request_target`. -/
def validateRequestTarget : Check Unit :=
  demand (r.target.utf8ByteSize ≤ maxRequestTargetBytes) "request_target_too_long"

/-- What every handler checks first. -/
def admission : Check Unit := do
  validateHost c r
  validateRequestTarget r

/-- `_reject_request_body`. -/
def rejectRequestBody : Check Unit := do
  let contentLength ← singleHeader r "content-length" false
  demand ((r.get "transfer-encoding").all (· = "")) "request_body_not_allowed"
  match contentLength with
  | none => return
  | some text =>
    match pythonInt text with
    | none => deny "invalid_content_length"
    | some length =>
      demand (0 ≤ length) "invalid_content_length"
      demand (length ≤ 0) "request_body_not_allowed"

def urlsplit : Check Url :=
  match c.split r.target with
  | some url => .ok url
  | none => .error .other

/-! ### Reads -/

/-- The codes that make `_handle_get` close the connection. -/
def closingCodes : List String := ["invalid_content_length", "request_body_not_allowed"]

/-- `_handle_get`, also for `HEAD`. -/
def controllerGet : Fate :=
  match (do admission c r; rejectRequestBody r; e.work : Check Unit) with
  | .ok () => respond r e false 0
  | .error (.controller code) => respond r e (code ∈ closingCodes) 0
  | .error .other => respond r e true 0

def websocketPath : String := "/api/v1/events"

/-- The path of `do_GET` that upgrades the connection. -/
def isWebsocket : Bool := r.target.toList.takeWhile (· ≠ '?') = websocketPath.toList

/-- `_handle_websocket`: the handshake sets `close_connection` before it answers, and the session reads the
    stream afterwards; every refusal closes. -/
def controllerWebsocket (input : List UInt8) : Fate :=
  match (do admission c r; rejectRequestBody r; e.work : Check Unit) with
  | .ok () => respond r e true input.length
  | .error _ => respond r e true 0

/-! ### Mutations -/

/-- `_read_json_body` up to the body: its length. -/
def jsonLength : Check Nat := do
  demand ((r.get "transfer-encoding").all (· = "")) "transfer_encoding_forbidden"
  let contentType := (← singleHeader r "content-type" false).getD ""
  demand (mediaType contentType = "application/json") "unsupported_media_type"
  match ← singleHeader r "content-length" false with
  | none => deny "content_length_required"
  | some text =>
    match lengthOf text with
    | none => deny "invalid_content_length"
    | some length =>
      -- `int` raises for more digits, as it does nowhere else behind the pattern
      if 4300 < (strip text).length then .error .other
      else
        demand (2 ≤ length ∧ length ≤ maxJsonBodyBytes) "request_body_too_large"
        return length

/-- The command marker occurs behind the lead. -/
def isCommandOf (lead path : String) : Bool :=
  (behind lead path).any fun rest => (splitOnce "/commands/".toList rest.toList).isSome

/-- The paths of `_handle_post`. -/
def isPostPath (path : String) : Bool :=
  path ∈ ["/api/v1/auth/login", "/api/v1/auth/logout", "/api/v1/auth/csrf", "/api/v1/projects",
      "/api/v1/objectives", "/api/v1/hermesfiles", "/api/v1/hermesfiles/validate"] ∨
    isCommandOf "/api/v1/projects/" path ∨ isCommandOf "/api/v1/objectives/" path ∨
    isCommandOf "/api/v1/reviews/" path

/-- The paths of `_handle_patch`: one segment behind the first prefix that matches. -/
def isPatchPath (path : String) : Bool :=
  (((behind "/api/v1/projects/" path).or (behind "/api/v1/hermesfiles/" path)).map
    fun rest => decide ('/' ∉ rest.toList)).getD false

/-- The length of the body that a mutation is going to read. -/
def mutationLength (isPath : String → Bool) : Check Nat := do
  admission c r
  let url ← urlsplit c r
  demand (isPath url.path) "method_not_allowed"
  jsonLength r

/-- `_handle_post` and `_handle_patch`: everything but a success closes the connection. -/
def controllerMutation (isPath : String → Bool) (input : List UInt8) : Fate :=
  match mutationLength c r isPath with
  | .error _ => respond r e true 0
  | .ok length =>
    if ¬e.received ∨ input.length < length then respond r e true (min length input.length)
    else
      match e.work with
      | .ok () => respond r e false length
      | .error _ => respond r e true length

/-! ### `OPTIONS` -/

/-- `_validate_browser_origin`. -/
def validateBrowserOrigin : Check Unit := do
  let origin ← singleHeader r "origin" true
  demand (origin = some c.consoleOrigin) "origin_forbidden"

def corsHeaders : List String :=
  ["content-type", "idempotency-key", "x-csrf-token", "x-request-id", "if-match"]

/-- The checks of `_handle_options`. -/
def preflight : Check Unit := do
  admission c r
  rejectRequestBody r
  let url ← urlsplit c r
  demand (url.query = "" ∧ url.fragment = "" ∧ (behind "/api/v1/" url.path).isSome) "route_not_found"
  validateBrowserOrigin c r
  let method ← singleHeader r "access-control-request-method" true
  demand (method ∈ [some "GET", some "HEAD", some "POST", some "PATCH"]) "method_not_allowed"
  let raw := (← singleHeader r "access-control-request-headers" false).getD ""
  let requested := (raw.toList.splitOn ',').map fun part => lower (strip (String.ofList part))
  demand (requested.all fun name => name = "" ∨ name ∈ corsHeaders) "cors_headers_forbidden"

/-- `_handle_options`. -/
def controllerOptions : Fate :=
  match preflight c r with
  | .ok () => respond r e false 0
  | .error _ => respond r e true 0

/-- The handler; the methods without one of their own are refused and close the connection. -/
def controllerHandle (c : ControllerSite) (r : Request) (e : Exchange) (input : List UInt8) : Fate :=
  match r.method with
  | .get => if isWebsocket r then controllerWebsocket c r e input else controllerGet c r e
  | .head => controllerGet c r e
  | .post => controllerMutation c r e isPostPath input
  | .patch => controllerMutation c r e isPatchPath input
  | .options => controllerOptions c r e
  | .other => respond r e true 0

end HermesOps.Http
