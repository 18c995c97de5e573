import HermesOps.Http.ConsoleHandler
import HermesOps.Http.ControllerRoutes

/-! What `_proxy_controller` of `hermesops-console.py` sends to the Controller, and the operation that
    `_controller_route_exposed` recognises in a target. `http.client` refuses a target with anything but
    visible characters, and adds only the framing of the body. -/

namespace HermesOps.Http

open Controller (splitOnce isProjectId isObjectiveId)

/-- What the proxy takes from its settings; `validNetloc` are the checks of `urlsplit` on an authority. -/
structure ProxySite where
  host : String
  port : Nat
  controllerHost : String
  controllerPort : Nat
  controllerOrigin : String
  validNetloc : String → Bool

def ProxySite.console (s : ProxySite) : ConsoleSite := ⟨s.host, s.port, urlSplit s.validNetloc⟩

/-! ### What a route stands for -/

/-- The operations of the fixed routes. -/
def exposedOperations : List ((Method × String) × Operation) :=
  [ ((.get, "/api/v1/auth/session"), .getSession),
    ((.post, "/api/v1/auth/login"), .login),
    ((.post, "/api/v1/auth/csrf"), .issueCsrfChallenge),
    ((.post, "/api/v1/auth/logout"), .logout),
    ((.get, "/api/v1/system/capabilities"), .getSystemCapabilities),
    ((.get, "/api/v1/projects"), .listProjects),
    ((.post, "/api/v1/projects"), .createProject),
    ((.get, "/api/v1/hermesfiles"), .listHermesfiles),
    ((.post, "/api/v1/hermesfiles"), .createHermesfile),
    ((.post, "/api/v1/hermesfiles/validate"), .validateHermesfile),
    ((.get, "/api/v1/hermesfiles/template"), .getHermesfileTemplate),
    ((.get, "/api/v1/objectives"), .listObjectives),
    ((.post, "/api/v1/objectives"), .createObjective),
    ((.get, "/api/v1/reviews"), .listReviews),
    ((.get, "/api/v1/recoveries"), .listRecoveries),
    ((.get, "/api/v1/plans"), .listPlans),
    ((.get, "/api/v1/reviewer-assignments"), .listReviewerAssignments) ]

theorem exposedOperations_routes : exposedOperations.map Prod.fst = controllerRoutes := rfl

/-- The identifier and the command that `isCommandRoute` recognises. -/
def recognisedCommand (operation : String → String → Operation) (suffix : String) : Option Operation :=
  (splitOnce "/commands/".toList suffix.toList).map fun (id, command) =>
    operation (String.ofList id) (String.ofList command)

/-- The read or update that `isHermesfileRoute` recognises. -/
def recognisedHermesfile (method : Method) (suffix : String) : Option Operation :=
  match (suffix.toList.splitOn '/').map String.ofList with
  | [id] => some (if method = .patch then .updateHermesfile id else .getHermesfile id)
  | [id, part] => some (if part = "diff" then .compareHermesfileRevisions id else .listHermesfileRevisions id)
  | [id, _, revision] => some (.getHermesfileRevision id revision)
  | _ => none

/-- The operation behind the test of `_controller_route_exposed` that lets a target pass. -/
def recognisedOperation (method : Method) (path : String) : Option Operation :=
  match exposedOperations.lookup (method, path) with
  | some operation => some operation
  | none =>
    match behind "/api/v1/hermesfiles/" path with
    | some suffix => recognisedHermesfile method suffix
    | none =>
      match behind "/api/v1/operations/" path with
      | some suffix => some (.getOperation suffix)
      | none =>
        match behind "/api/v1/objectives/" path with
        | some suffix =>
          if method = .get then some (.getObjective suffix) else recognisedCommand .commandObjective suffix
        | none =>
          match behind "/api/v1/projects/" path with
          | some suffix =>
            if method = .get then some (.getProject suffix)
            else if method = .patch then some (.updateProject suffix)
            else recognisedCommand .commandProject suffix
          | none => none

/-- What `_controller_route_exposed` recognises in a target that is split. -/
def recognised (method : Method) (url : Url) : Option Operation :=
  if isExposed method url then recognisedOperation method url.path else none

/-! ### What is sent -/

/-- A request to the Controller, with the fields that the proxy names; the body is absent for `GET`. -/
structure ProxyRequest where
  method : Method
  target : String
  headers : List (String × String)
  body : Option (List UInt8)

def requestHeaderAllowlist : List String :=
  ["accept", "content-type", "cookie", "idempotency-key", "if-match", "user-agent", "x-csrf-token"]

/-- `_safe_header_value`. -/
def safeHeaderValue (value : String) : Bool :=
  0 < value.length ∧ value.length ≤ 4096 ∧ '\r' ∉ value.toList ∧ '\n' ∉ value.toList ∧
    Char.ofNat 0 ∉ value.toList

/-- `_contains_disallowed_url_pchar_re` and the encoding of the request line let a target pass. -/
def isSendable (target : String) : Bool := target.toList.all fun c => 33 ≤ c.toNat ∧ c.toNat ≤ 126

variable (s : ProxySite) (r : Request) (e : Exchange)

/-- A field of the browser that is handed on, if it is given once with a safe value. -/
def allowedField (name : String) : Option (String × String) :=
  match r.getAll name with
  | [value] => if safeHeaderValue value then some (name, value) else none
  | _ => none

/-- `_proxy_request_headers`. -/
def proxyRequestHeaders (method : Method) : List (String × String) :=
  let result := [("Host", s.controllerHost ++ ":" ++ toString s.controllerPort), ("Connection", "close"),
      ("Origin", s.controllerOrigin)] ++ requestHeaderAllowlist.filterMap (allowedField r)
  if method = .get then result.filter fun field => field.1 ≠ "content-type" else result

/-- `_validated_proxy_body`. -/
def proxyBody (method : Method) (input : List UInt8) : Option (List UInt8) :=
  (proxyLength r method).bind fun length =>
    if length ≠ 0 ∧ (¬e.received ∨ input.length < length) then none else some (input.take length)

/-- `_proxy_controller`, as far as it sends something. -/
def proxied (method : Method) (path : String) (input : List UInt8) : Option ProxyRequest :=
  if routeExposed s.console method path = some true ∧ singletonHeadersValid r ∧
      validatedOrigin s.console r method ∧ isSendable path then
    (proxyBody r e method input).map fun body =>
      { method, target := path, headers := proxyRequestHeaders s r method,
        body := if isMutation method then some body else none }
  else none

/-- `_serve_static` and `_serve_mutation`, as far as they send something to the Controller. -/
def forwardedAs (method : Method) (input : List UInt8) : Option ProxyRequest :=
  if validHost s.console r then
    match parsedPath s.console r method with
    | some (some path) => if isApiPath path then proxied s r e method path input else none
    | _ => none
  else none

/-- What the handler sends to the Controller. -/
def forwarded (input : List UInt8) : Option ProxyRequest :=
  match r.method with
  | .get => forwardedAs s r e .get input
  | .post => forwardedAs s r e .post input
  | .patch => forwardedAs s r e .patch input
  | .head | .options | .other => none

end HermesOps.Http
