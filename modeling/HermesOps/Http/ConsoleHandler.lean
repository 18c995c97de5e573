import HermesOps.Http.ControllerHandler

/-! `ConsoleHandler` of `hermesops-console.py`: it serves its own files, and hands requests below `/api/` on
    to the Controller when their route is exposed. Nothing but the proxy looks at the body. -/

namespace HermesOps.Http

open Controller (strip lower isDigit splitOnce isPrefixedHex isProjectId isObjectiveId)
open Schemes (Fate)

/-- What the handler takes from its server. -/
structure ConsoleSite where
  host : String
  port : Nat
  split : String → Option Url

def maxProxyRequestBody : Nat := 384 * 1024

/-! ### Routes -/

def controllerRoutes : List (Method × String) :=
  [ (.get, "/api/v1/auth/session"), (.post, "/api/v1/auth/login"), (.post, "/api/v1/auth/csrf"),
    (.post, "/api/v1/auth/logout"), (.get, "/api/v1/system/capabilities"), (.get, "/api/v1/projects"),
    (.post, "/api/v1/projects"), (.get, "/api/v1/hermesfiles"), (.post, "/api/v1/hermesfiles"),
    (.post, "/api/v1/hermesfiles/validate"), (.get, "/api/v1/hermesfiles/template"),
    (.get, "/api/v1/objectives"), (.post, "/api/v1/objectives"), (.get, "/api/v1/reviews"),
    (.get, "/api/v1/recoveries"), (.get, "/api/v1/plans"), (.get, "/api/v1/reviewer-assignments") ]

def projectCommands : List String := ["enable", "disable", "rescan", "archive"]

def objectiveCommands : List String := ["pause", "resume", "cancel"]

def isSandboxId : String → Bool := isPrefixedHex "sandbox-"

def isOperationId : String → Bool := isPrefixedHex "operation-"

/-- `REVISION_PATTERN`. -/
def isRevision (text : String) : Bool :=
  text.toList.all isDigit ∧ text.toList.head?.any (· ≠ '0')

/-- `from=[1-9][0-9]*&to=[1-9][0-9]*`. -/
def isRevisionRange (query : String) : Bool :=
  ((behind "from=" query).bind fun rest => splitOnce "&to=".toList rest.toList).any fun (first, last) =>
    isRevision (String.ofList first) && isRevision (String.ofList last)

/-- An identifier and a command behind `/commands/`. -/
def isCommandRoute (isId : String → Bool) (commands : List String) (suffix : String) : Bool :=
  (splitOnce "/commands/".toList suffix.toList).any fun (id, command) =>
    isId (String.ofList id) && String.ofList command ∈ commands

/-- The routes below `/api/v1/hermesfiles/`. -/
def isHermesfileRoute (method : Method) (suffix : String) : Bool :=
  match (suffix.toList.splitOn '/').map String.ofList with
  | [id] => (method = .get ∨ method = .patch) && isSandboxId id
  | [id, part] => method = .get && part ∈ ["revisions", "diff"] && isSandboxId id
  | [id, part, revision] => method = .get && part = "revisions" && isSandboxId id && isRevision revision
  | _ => false

/-- `_controller_route_exposed` of a target that is split. -/
def isExposed (method : Method) (url : Url) : Bool :=
  if url.fragment ≠ "" ∨ '%' ∈ url.path.toList ∨ '\\' ∈ url.path.toList then false
  else if url.query ≠ "" ∧ ¬(method = .get ∧ isRevisionRange url.query ∧
      (behind "/api/v1/hermesfiles/" url.path).isSome ∧ "/diff".toList <:+ url.path.toList) then false
  else if (method, url.path) ∈ controllerRoutes ∧ url.query = "" then true
  else
    match behind "/api/v1/hermesfiles/" url.path with
    | some suffix => isHermesfileRoute method suffix
    | none =>
      match behind "/api/v1/operations/" url.path with
      | some suffix => method = .get && url.query = "" && isOperationId suffix
      | none =>
        match behind "/api/v1/objectives/" url.path with
        | some suffix =>
          if method = .get ∧ url.query = "" then isObjectiveId suffix
          else method = .post && url.query = "" && isCommandRoute isObjectiveId objectiveCommands suffix
        | none =>
          match behind "/api/v1/projects/" url.path with
          | some suffix =>
            if method = .get ∨ method = .patch then isProjectId suffix
            else method = .post && isCommandRoute isProjectId projectCommands suffix
          | none => false

variable (c : ConsoleSite) (r : Request) (e : Exchange)

/-- `_controller_route_exposed`; nothing when `urlsplit` raises. -/
def routeExposed (method : Method) (target : String) : Option Bool :=
  (c.split target).map (isExposed method)

/-! ### Checks -/

/-- `_valid_host`. -/
def validHost : Bool :=
  match r.getAll "host" with
  | [host] => lower (strip host) ∈
      [c.host ++ ":" ++ toString c.port, "[" ++ c.host ++ "]:" ++ toString c.port]
  | _ => false

/-- `_parsed_path`: the target, if it is valid; nothing when `urlsplit` raises. -/
def parsedPath (method : Method) : Option (Option String) :=
  (c.split r.target).bind fun url =>
    let target := url.path ++ (if url.query = "" then "" else "?" ++ url.query)
    if url.fragment ≠ "" ∨ '%' ∈ url.path.toList ∨ '\\' ∈ url.path.toList then some none
    else if url.query = "" then some (some target)
    else (routeExposed c method target).map fun exposed => if exposed then some target else none

def singletonRequestHeaders : List String :=
  ["content-length", "content-type", "cookie", "expect", "idempotency-key", "if-match", "origin",
    "transfer-encoding", "x-csrf-token"]

/-- `_singleton_headers_valid`. -/
def singletonHeadersValid : Bool := singletonRequestHeaders.all fun name => (r.getAll name).length ≤ 1

def isMutation (method : Method) : Bool := method = .post ∨ method = .patch

/-- `_browser_origin`. -/
def browserOrigin : String :=
  "http://" ++ (if ':' ∈ c.host.toList then "[" ++ c.host ++ "]" else c.host) ++ ":" ++ toString c.port

/-- `_validated_origin`. -/
def validatedOrigin (method : Method) : Bool :=
  r.getAll "origin" = [browserOrigin c] ∨ (¬isMutation method ∧ r.getAll "origin" = [])

/-- `_validated_proxy_body` up to the body: its length, unless the request is refused. -/
def proxyLength (method : Method) : Option Nat :=
  if (r.get "transfer-encoding").isSome ∨ (r.get "expect").isSome then none
  else
    match (r.get "content-length").elim (some 0) pythonInt with
    | none => none
    | some length =>
      if length < 0 ∨ maxProxyRequestBody < length then none
      else if method = .get ∧ length ≠ 0 then none
      else if isMutation method ∧ mediaType ((r.get "content-type").getD "") ≠ "application/json" then none
      else some length.toNat

/-! ### The handler -/

/-- A response of the handler itself, or of the Controller; other exceptions leave the handler. -/
def relay (consumed : Nat) : Fate :=
  match e.work with
  | .error .other => escape consumed
  | _ => respond r e false consumed

/-- `_proxy_controller`. -/
def proxyController (method : Method) (path : String) (input : List UInt8) : Fate :=
  match routeExposed c method path with
  | none => escape 0
  | some exposed =>
    if ¬exposed ∨ ¬singletonHeadersValid r ∨ ¬validatedOrigin c r method then
      respond r e (isMutation method) 0
    else
      match proxyLength r method with
      | none => respond r e true 0
      | some length =>
        if length ≠ 0 ∧ (¬e.received ∨ input.length < length) then
          respond r e true (min length input.length)
        else relay r e length

/-- The path goes to the Controller. -/
def isApiPath (path : String) : Bool := (behind "/api/" path).isSome

/-- `_serve_static`. -/
def serveStatic (headOnly : Bool) (input : List UInt8) : Fate :=
  if ¬validHost c r then respond r e false 0
  else
    match parsedPath c r .get with
    | none => escape 0
    | some none => respond r e false 0
    | some (some path) =>
      if isApiPath path then
        if headOnly then respond r e false 0 else proxyController c r e .get path input
      else relay r e 0

/-- `_serve_mutation`. -/
def serveMutation (method : Method) (input : List UInt8) : Fate :=
  if ¬validHost c r then respond r e false 0
  else
    match parsedPath c r method with
    | none => escape 0
    | some none => respond r e false 0
    | some (some path) =>
      if isApiPath path then proxyController c r e method path input else respond r e true 0

/-- The handler; the methods without one of their own are refused and close the connection. -/
def consoleHandle (c : ConsoleSite) (r : Request) (e : Exchange) (input : List UInt8) : Fate :=
  match r.method with
  | .get => serveStatic c r e false input
  | .head => serveStatic c r e true input
  | .post => serveMutation c r e .post input
  | .patch => serveMutation c r e .patch input
  | .options | .other => respond r e true 0

end HermesOps.Http
