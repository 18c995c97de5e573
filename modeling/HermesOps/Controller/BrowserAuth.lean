import HermesOps.Controller.EventJournal
import HermesOps.Schemes.Table

/-! `browser_auth.py` with its four tables: logins, logouts and password changes, interleaved between
    any two database transactions. A login looks its idempotency key up, reads the credential,
    derives the key outside any transaction and writes in a last one; each stage is a step, and every
    step draws its own reading of the clock. Instants are the milliseconds of the canonical
    timestamps, salts and digests the bytes that the columns encode. -/

namespace HermesOps.BrowserAuth

open Schemes Controller

/-- Milliseconds. -/
abbrev Instant := Int

abbrev Bytes := List UInt8

abbrev SessionId := String

abbrev ThreadId := Nat

/-- The functions of `hashlib`, `hmac` and `base64` as the code applies them: a SHA-256 digest and its
    hexadecimal text, an HMAC under a secret as hexadecimal and as base64 text, and scrypt, which
    raises when its memory bound is exceeded. -/
structure Primitives where
  sha256 : String → Bytes
  sha256Hex : String → String
  hmacHex : String → String → String
  hmacText : String → String → String
  scrypt : String → Bytes → Nat → Nat → Nat → Option Bytes

def passwordMinChars : Nat := 12
def passwordMaxChars : Nat := 256
def passwordMaxBytes : Nat := 1024
def sessionTtlSeconds : Int := 12 * 60 * 60
def loginWindowSeconds : Int := 60
def loginMaxFailures : Nat := 5
def scryptN : Nat := 2 ^ 15
def scryptR : Nat := 8
def scryptP : Nat := 1
def scryptDklen : Nat := 32
def scryptMaxmem : Nat := 64 * 1024 * 1024

/-! ### Tables -/

/-- The row of `controller_operator_credentials`. -/
structure Credential where
  actorId : String
  username : String
  passwordAlgorithm : String
  passwordSalt : Bytes
  passwordDigest : Bytes
  scryptN : Nat
  scryptR : Nat
  scryptP : Nat
  createdAt : Instant
  updatedAt : Instant
  deriving DecidableEq

/-- A row of `controller_browser_sessions`. -/
structure SessionRow where
  tokenHash : String
  actorId : String
  createdAt : Instant
  expiresAt : Instant
  revokedAt : Option Instant
  sourceFingerprint : String
  userAgentFingerprint : String
  deriving DecidableEq

/-- A row of `controller_auth_idempotency`, kept under its namespace and key hash. -/
structure AuthIdempotencyRow where
  route : String
  requestHash : String
  responseStatus : Nat
  sessionId : Option SessionId
  createdAt : Instant
  completedAt : Instant
  deriving DecidableEq

/-- A row of `controller_auth_audit`. -/
structure AuthAuditRow where
  action : String
  outcome : String
  actorId : Option String
  sessionFingerprint : Option String
  usernameFingerprint : Option String
  sourceFingerprint : Option String
  requestId : String
  createdAt : Instant
  deriving DecidableEq

/-- The table of credentials has at most one row: its key is `CHECK (actor_id = 'operator')`. -/
structure AuthTables where
  credential : Option Credential
  sessions : Table SessionId SessionRow
  idempotency : Table (String × String) AuthIdempotencyRow
  audit : Table String AuthAuditRow

/-! ### Checks -/

def isUpperLetter (c : Char) : Bool := 65 ≤ c.toNat ∧ c.toNat ≤ 90

def isAlphanumeric (c : Char) : Bool := isLowerLetter c || isUpperLetter c || isDigit c

/-- `USERNAME_PATTERN`. -/
def isUsername (s : String) : Bool :=
  3 ≤ s.length ∧ s.length ≤ 64 ∧ s.toList.head?.any isLowerLetter ∧
    s.toList.all fun c => isLowerLetter c || isDigit c || c ∈ ['.', '_', '-']

/-- `IDEMPOTENCY_KEY_PATTERN`. -/
def isIdempotencyKey (s : String) : Bool :=
  8 ≤ s.length ∧ s.length ≤ 200 ∧ s.toList.all fun c => isAlphanumeric c || c ∈ ['.', '_', '~', ':', '-']

/-- `SESSION_VALUE_PATTERN`. -/
def isSessionValue (s : String) : Bool :=
  32 ≤ s.length ∧ s.length ≤ 256 ∧ s.toList.all fun c => isAlphanumeric c || c ∈ ['.', '_', '~', '-']

/-- `BROWSER_SESSION_TOKEN_PATTERN`. -/
def isSessionToken (s : String) : Bool :=
  s.length = 47 ∧ s.toList.take 4 = "bws_".toList ∧
    (s.toList.drop 4).all fun c => isAlphanumeric c || c ∈ ['_', '-']

/-- `_validate_password`. -/
def isPassword (s : String) : Bool :=
  passwordMinChars ≤ s.length ∧ s.length ≤ passwordMaxChars ∧ s.utf8ByteSize ≤ passwordMaxBytes ∧
    s.toList.all fun c => 32 ≤ c.toNat

/-- `_validate_scrypt_parameters`. -/
def validScrypt (n r p : Nat) : Bool :=
  1024 ≤ n ∧ n ≤ 65536 ∧ n &&& (n - 1) = 0 ∧ 1 ≤ r ∧ r ≤ 16 ∧ 1 ≤ p ∧ p ≤ 4

/-- `_validate_stored_scrypt_parameters`. -/
def validStoredScrypt (n r p : Nat) : Bool := validScrypt n r p ∧ 128 * n * r ≤ scryptMaxmem

def authError (status : Nat) (code title : String) : Controller.ControllerError := { status, code, title }

def authenticationRequired : Controller.ControllerError :=
  authError 401 "authentication_required" "Authentication required"

def invalidLogin : Controller.ControllerError := authError 400 "invalid_login" "Invalid login request"

def authUnavailable (code : String) : Controller.ControllerError :=
  authError 503 code "Browser authentication is unavailable"

def temporarilyUnavailable (code : String) : Controller.ControllerError :=
  authError 503 code "Browser authentication is temporarily unavailable"

def temporarilyBlocked : Controller.ControllerError :=
  authError 403 "authentication_temporarily_blocked" "Authentication temporarily blocked"

def keyConflict : Controller.ControllerError := authError 409 "idempotency_key_conflict" "Idempotency-Key conflict"

/-- `_validate_credential_row` without an expected username. -/
def validateCredentialRow (c : Credential) : Result Unit :=
  require (validStoredScrypt c.scryptN c.scryptR c.scryptP ∧ c.actorId = "operator" ∧
      isUsername c.username ∧ c.passwordAlgorithm = "scrypt" ∧ c.passwordSalt.length = 16 ∧
      c.passwordDigest.length = scryptDklen ∧ c.createdAt ≤ c.updatedAt)
    (authUnavailable "browser_auth_operator_invalid")

/-- `AuthenticatedSession`; the kind is `browser` when there is a session id, else `bootstrap`. -/
structure AuthenticatedSession where
  secret : String
  actorId : String
  expiresAt : Option Instant
  sessionId : Option SessionId
  deriving DecidableEq

/-- `_session_from_row` with `require_current`. -/
def sessionFromRow (id : SessionId) (row : SessionRow) (token : String) (requireCurrent : Bool)
    (now : Instant) : Result AuthenticatedSession :=
  if ¬isPrefixedHex "ses_" id ∨ row.actorId ≠ "operator" ∨ row.expiresAt ≤ row.createdAt ∨
      row.revokedAt.any (fun revoked => revoked < row.createdAt) then
    .error (authUnavailable "browser_auth_session_invalid")
  else if requireCurrent ∧ (row.revokedAt.isSome ∨ row.expiresAt ≤ now) then
    .error authenticationRequired
  else .ok ⟨token, row.actorId, some row.expiresAt, some id⟩

/-! ### Cookies -/

/-- `str.strip`. -/
def strip (s : List Char) : List Char :=
  ((s.dropWhile isSpace).reverse.dropWhile isSpace).reverse

/-- The values of the cookies with this name; `partition("=")` cuts at the first sign. -/
def cookieValues (name : String) (header : String) : List String :=
  (header.toList.splitOn ';').filterMap fun segment =>
    let segment := strip segment
    if '=' ∈ segment ∧ segment.takeWhile (· ≠ '=') = name.toList then
      some (String.ofList ((segment.dropWhile (· ≠ '=')).drop 1))
    else none

/-- `_cookie_value`. -/
def cookieValue (header : Option String) : Result String :=
  match header with
  | none => .error authenticationRequired
  | some header =>
    if header = "" ∨ 4096 < header.length then .error authenticationRequired
    else
      match cookieValues "hermesops_session" header with
      | [value] => if isSessionValue value then .ok value else .error authenticationRequired
      | _ => .error authenticationRequired

/-- `authenticate_cookie`, at one instant of the database. -/
def authenticateCookie (p : Primitives) (secret : String) (t : AuthTables) (header : Option String)
    (now : Instant) : Result AuthenticatedSession := do
  let supplied ← cookieValue header
  if supplied = secret then .ok ⟨supplied, "controller-probe", none, none⟩
  else if ¬isSessionToken supplied then .error authenticationRequired
  else
    match t.sessions.rows.find? fun x => x.2.tokenHash = p.sha256Hex supplied with
    | none => .error authenticationRequired
    | some (id, row) => sessionFromRow id row supplied true now

/-! ### Login -/

/-- The arguments of `login`. -/
structure LoginRequest where
  username : String
  password : String
  idempotencyKey : String
  source : String
  userAgent : String
  requestId : String
  deriving DecidableEq

/-- `_fingerprint`. -/
def fingerprint (p : Primitives) (secret label value : String) (length : Nat) : String :=
  String.ofList ((p.hmacHex secret (label ++ "\x00" ++ value)).toList.take length)

/-- What `login` computes first. -/
structure LoginKeys where
  nspace : String
  keyHash : String
  requestHash : String
  usernameFp : String
  sourceFp : String
  userAgentFp : String
  deriving DecidableEq

def loginKeys (p : Primitives) (secret : String) (r : LoginRequest) : LoginKeys where
  nspace := fingerprint p secret "login-source" r.source 32
  keyHash := fingerprint p secret "login-key" r.idempotencyKey 64
  requestHash := p.hmacHex secret ("login-request\x00" ++ r.username ++ "\x00" ++ r.password)
  usernameFp := fingerprint p secret "login-username" r.username 32
  sourceFp := fingerprint p secret "login-source-audit" r.source 32
  userAgentFp := fingerprint p secret "login-agent" (if r.userAgent = "" then "-" else r.userAgent) 32

/-- `_session_token`. -/
def sessionToken (p : Primitives) (secret : String) (k : LoginKeys) : String :=
  "bws_" ++ p.hmacText secret
    ("browser-session\x00" ++ k.nspace ++ "\x00" ++ k.keyHash ++ "\x00" ++ k.requestHash)

def sessionIdOf (p : Primitives) (token : String) : SessionId :=
  "ses_" ++ String.ofList ((p.sha256Hex token).toList.take 32)

structure LoginResult where
  actorId : String
  expiresAt : Instant
  token : String
  maxAge : Int
  deriving DecidableEq

/-- `replay_result` up to the session it names. -/
def replayLookup (t : AuthTables) (k : LoginKeys) : Option (Result SessionId) :=
  (t.idempotency.get? (k.nspace, k.keyHash)).map fun row =>
    if row.requestHash ≠ k.requestHash then .error keyConflict
    else if row.responseStatus ≠ 200 then .error authenticationRequired
    else
      match row.sessionId with
      | none => .error authenticationRequired
      | some id => .ok id

/-- `replay_result` from the session on. -/
def replaySession (p : Primitives) (secret : String) (t : AuthTables) (k : LoginKeys) (id : SessionId)
    (now : Instant) : Result LoginResult :=
  match t.sessions.get? id with
  | none => .error (authUnavailable "browser_auth_session_invalid")
  | some row => do
    let session ← sessionFromRow id row (sessionToken p secret k) true now
    let lifetime := (row.expiresAt - row.createdAt).tdiv 1000
    require (1 ≤ lifetime ∧ lifetime ≤ sessionTtlSeconds)
      (authUnavailable "browser_auth_session_invalid")
    .ok ⟨session.actorId, row.expiresAt, session.secret, lifetime⟩

/-- The logins of the source with this outcome since the threshold. -/
def auditCount (t : AuthTables) (outcome : String) (k : LoginKeys) (threshold : Instant) : Nat :=
  t.audit.count fun _ row => row.action = "login" ∧ row.outcome = outcome ∧
    row.sourceFingerprint = some k.sourceFp ∧ threshold ≤ row.createdAt

def limited (t : AuthTables) (k : LoginKeys) (threshold : Instant) : Bool :=
  loginMaxFailures ≤ auditCount t "failure" k threshold

/-- `_audit`: the insertion fails on a bad request id and on a known audit id. -/
def writeAudit (t : AuthTables) (auditId : String) (row : AuthAuditRow) : Option AuthTables :=
  if 8 ≤ row.requestId.length ∧ row.requestId.length ≤ 128 then
    (t.audit.insert auditId row).map fun audit => { t with audit }
  else none

/-- The audit row of a login. -/
def loginAudit (k : LoginKeys) (outcome : String) (actorId sessionFp : Option String)
    (requestId : String) (now : Instant) : AuthAuditRow where
  action := "login"
  outcome := outcome
  actorId := actorId
  sessionFingerprint := sessionFp
  usernameFingerprint := some k.usernameFp
  sourceFingerprint := some k.sourceFp
  requestId := requestId
  createdAt := now

/-- A limited login: one audit row a window. -/
def blockLogin (t : AuthTables) (r : LoginRequest) (k : LoginKeys) (threshold now : Instant)
    (auditId : String) : Option AuthTables :=
  if auditCount t "rate_limited" k threshold = 0 then
    writeAudit t auditId (loginAudit k "rate_limited" none none r.requestId now)
  else some t

/-- `WHERE username=?`. -/
def credentialOf (t : AuthTables) (username : String) : Option Credential :=
  t.credential.filter fun c => c.username = username

/-- `derive_password`. -/
def derivePassword (p : Primitives) (password : String) (salt : Bytes) (n r q : Nat) : Option Bytes :=
  if validScrypt n r q ∧ salt.length = 16 then p.scrypt password salt n r q else none

/-- `_credential_matches`; nothing when the derivation raises. -/
def credentialMatches (p : Primitives) (credential : Option Credential) (password : String) :
    Option (Result Bool) :=
  match credential with
  | none =>
    (derivePassword p password ((p.sha256 "hermesops-browser-auth-dummy").take 16) scryptN scryptR
      scryptP).map fun actual => .ok (actual = p.sha256 "hermesops-browser-auth-dummy-digest")
  | some c =>
    match validateCredentialRow c with
    | .error e => some (.error e)
    | .ok _ => (derivePassword p password c.passwordSalt c.scryptN c.scryptR c.scryptP).map fun actual =>
        .ok (actual = c.passwordDigest)

/-- The `INSERT` of an idempotency row. -/
def writeIdempotency (t : AuthTables) (key : String × String) (row : AuthIdempotencyRow) :
    Option AuthTables :=
  if row.sessionId.all fun id => (t.sessions.get? id).isSome then
    (t.idempotency.insert key row).map fun idempotency => { t with idempotency }
  else none

/-- The `INSERT` of a session. -/
def writeSession (t : AuthTables) (id : SessionId) (row : SessionRow) : Option AuthTables :=
  if row.createdAt < row.expiresAt ∧ ¬t.sessions.any fun _ s => s.tokenHash = row.tokenHash then
    (t.sessions.insert id row).map fun sessions => { t with sessions }
  else none

/-- The rows of a refused password. -/
def writeFailure (t : AuthTables) (r : LoginRequest) (k : LoginKeys) (now : Instant)
    (auditId : String) : Option AuthTables := do
  let t ← writeIdempotency t (k.nspace, k.keyHash)
    ⟨"/api/v1/auth/login", k.requestHash, 401, none, now, now⟩
  writeAudit t auditId (loginAudit k "failure" none none r.requestId now)

/-- The rows of a session. -/
def writeSuccess (p : Primitives) (secret : String) (t : AuthTables) (r : LoginRequest) (k : LoginKeys)
    (c : Credential) (now expiresAt : Instant) (auditId : String) : Option AuthTables := do
  let token := sessionToken p secret k
  let tokenHash := p.sha256Hex token
  let t ← writeSession t (sessionIdOf p token)
    ⟨tokenHash, c.actorId, now, expiresAt, none, k.sourceFp, k.userAgentFp⟩
  let t ← writeIdempotency t (k.nspace, k.keyHash)
    ⟨"/api/v1/auth/login", k.requestHash, 200, some (sessionIdOf p token), now, now⟩
  writeAudit t auditId (loginAudit k "success" (some c.actorId)
    (some (String.ofList (tokenHash.toList.take 32))) r.requestId now)

/-- The readings of the clock in the write transaction, in their order; the last is the one of
    `utc_after`. -/
structure Readings where
  replay : Instant
  now : Instant
  window : Instant
  expiry : Instant
  deriving DecidableEq

/-- The write transaction of `login`: what it commits, if it does, and what `login` then returns or
    raises. -/
def loginTransaction (p : Primitives) (secret : String) (t : AuthTables) (r : LoginRequest)
    (k : LoginKeys) (credential : Option Credential) (valid : Bool) (clock : Readings)
    (auditId : String) : Option AuthTables × Result LoginResult :=
  match replayLookup t k with
  | some (.error e) => (none, .error e)
  | some (.ok id) => (none, replaySession p secret t k id clock.replay)
  | none =>
    let threshold := clock.window - 1000 * loginWindowSeconds
    if limited t k threshold then
      match blockLogin t r k threshold clock.now auditId with
      | some t => (some t, .error temporarilyBlocked)
      | none => (none, .error (authUnavailable "browser_auth_unavailable"))
    else if credentialOf t r.username ≠ credential then
      (none, .error (temporarilyUnavailable "browser_auth_credential_changed"))
    else if ¬valid then
      match writeFailure t r k clock.now auditId with
      | some t => (some t, .error authenticationRequired)
      | none => (none, .error (authUnavailable "browser_auth_unavailable"))
    else
      match credential with
      | none => (none, .error (authUnavailable "browser_auth_operator_invalid"))
      | some c =>
        let expiresAt := clock.expiry + 1000 * sessionTtlSeconds
        match writeSuccess p secret t r k c clock.now expiresAt auditId with
        | some t => (some t, .ok ⟨c.actorId, expiresAt, sessionToken p secret k, sessionTtlSeconds⟩)
        | none => (none, .error (authUnavailable "browser_auth_unavailable"))

/-! ### Operators and logouts -/

/-- The arguments of `set_password` and `initialize_operator` with the salt they draw. -/
structure PasswordChange where
  username : String
  password : String
  salt : Bytes
  n : Nat
  r : Nat
  p : Nat
  deriving DecidableEq

/-- `initialize_operator`; nothing when it raises or finds an operator. -/
def initializeOperator (p : Primitives) (t : AuthTables) (x : PasswordChange) (now : Instant) :
    Option AuthTables := do
  if isUsername x.username ∧ isPassword x.password ∧ validStoredScrypt x.n x.r x.p then
    let digest ← derivePassword p x.password x.salt x.n x.r x.p
    match t.credential with
    | some _ => none
    | none =>
      let c := ⟨"operator", x.username, "scrypt", x.salt, digest, x.n, x.r, x.p, now, now⟩
      some { t with credential := some c }
  else none

/-- The row after `UPDATE controller_operator_credentials`. -/
def Credential.changed (x : PasswordChange) (digest : Bytes) (now : Instant) (c : Credential) :
    Credential :=
  { c with
    passwordSalt := x.salt
    passwordDigest := digest
    scryptN := x.n
    scryptR := x.r
    scryptP := x.p
    updatedAt := now }

/-- `UPDATE controller_browser_sessions SET revoked_at=? WHERE …`; the trigger refuses an instant before
    the session was made. -/
def revoke (t : AuthTables) (which : SessionId → SessionRow → Bool) (now : Instant) :
    Option AuthTables :=
  let selected := fun id row => which id row && row.revokedAt.isNone
  if t.sessions.any fun id row => selected id row && now < row.createdAt then none
  else some { t with sessions := t.sessions.update selected fun row => { row with revokedAt := some now } }

/-- `set_password`; nothing when it raises. -/
def setPassword (p : Primitives) (t : AuthTables) (x : PasswordChange) (now : Instant)
    (auditId : String) : Option AuthTables := do
  if isUsername x.username ∧ isPassword x.password ∧ validScrypt x.n x.r x.p then
    let digest ← derivePassword p x.password x.salt x.n x.r x.p
    let c ← credentialOf t x.username
    if now < c.createdAt then none
    else
      let t ← revoke { t with credential := some (c.changed x digest now) } (fun _ _ => true) now
      writeAudit t auditId ⟨"password_change", "success", some "operator", none, none, none,
        "local-cli", now⟩
  else none

/-- `logout` of a session that `logout_context` has authenticated; nothing when it raises. -/
def logout (p : Primitives) (t : AuthTables) (session : AuthenticatedSession)
    (idempotencyKey requestId : String) (now : Instant) (auditId : String) : Option AuthTables := do
  let id ← session.sessionId
  if isIdempotencyKey idempotencyKey then
    let nspace := String.ofList ((p.sha256Hex session.secret).toList.take 32)
    let keyHash := fingerprint p session.secret "logout-key" idempotencyKey 64
    let requestHash := fingerprint p session.secret "logout-request" "\x7b\x7d" 64
    match t.idempotency.get? (nspace, keyHash) with
    | some row => if row.requestHash ≠ requestHash then none else some t
    | none =>
      let t ← revoke t (fun i _ => i = id) now
      let t ← writeIdempotency t (nspace, keyHash)
        ⟨"/api/v1/auth/logout", requestHash, 200, some id, now, now⟩
      writeAudit t auditId ⟨"logout", "success", some session.actorId, some nspace, none, none,
        requestId, now⟩
  else none

/-! ### Interleavings -/

/-- Where a login is; the version counts the credentials that were committed before it read one. -/
inductive LoginStage where
  | lookingUp
  | replaying (id : SessionId)
  | counting
  | blocking (threshold : Instant)
  | reading
  | verifying (credential : Option Credential) (version : Nat)
  | writing (credential : Option Credential) (version : Nat) (valid : Bool)
  | finished (result : Option (Result LoginResult))

structure LoginThread where
  request : LoginRequest
  stage : LoginStage

/-- A session that was created, by which request, and the version of the credential its password was
    verified against. -/
structure LoginRecord where
  sessionId : SessionId
  request : LoginRequest
  version : Nat
  deriving DecidableEq

/-- The tables and the logins under way; `salts` are those of all the credentials committed so far, the
    last one first, and `logins` the sessions created so far. No program reads either. -/
structure AuthWorld where
  tables : AuthTables
  threads : Table ThreadId LoginThread
  salts : List Bytes
  logins : List LoginRecord

/-- How many credentials have been committed. -/
def AuthWorld.version (w : AuthWorld) : Nat := w.salts.length

inductive AuthAction where
  | login (tid : ThreadId) (r : LoginRequest)
  | lookUp (tid : ThreadId) (fails : Bool)
  | readSession (tid : ThreadId) (now : Instant) (fails : Bool)
  | count (tid : ThreadId) (now : Instant) (fails : Bool)
  | block (tid : ThreadId) (now : Instant) (auditId : String) (fails : Bool)
  | readCredential (tid : ThreadId) (fails : Bool)
  | derive (tid : ThreadId) (slot : Bool)
  | write (tid : ThreadId) (clock : Readings) (auditId : String) (fails : Bool)
  | install (x : PasswordChange) (now : Instant) (fails : Bool)
  | setPassword (x : PasswordChange) (now : Instant) (auditId : String) (fails : Bool)
  | logout (session : AuthenticatedSession) (idempotencyKey requestId : String) (now : Instant)
      (auditId : String) (fails : Bool)

namespace AuthWorld

def setStage (w : AuthWorld) (tid : ThreadId) (stage : LoginStage) : AuthWorld :=
  { w with threads := w.threads.updateAt tid fun th => { th with stage } }

def finish (w : AuthWorld) (tid : ThreadId) (result : Result LoginResult) : AuthWorld :=
  w.setStage tid (.finished (some result))

/-- What a database error ends with. -/
def finishFailed (w : AuthWorld) (tid : ThreadId) : AuthWorld :=
  w.finish tid (.error (authUnavailable "browser_auth_unavailable"))

/-- The checks of `login` on its arguments. -/
def checkLogin (r : LoginRequest) : Result Unit := do
  require (isUsername r.username) authenticationRequired
  require (isPassword r.password) invalidLogin
  require (isIdempotencyKey r.idempotencyKey)
    (authError 400 "invalid_idempotency_key" "Invalid Idempotency-Key")

/-- A login starts; one that is refused writes nothing. -/
def start (w : AuthWorld) (tid : ThreadId) (r : LoginRequest) : AuthWorld :=
  match w.threads.insert tid ⟨r, match checkLogin r with
    | .ok _ => .lookingUp
    | .error e => .finished (some (.error e))⟩ with
  | some threads => { w with threads }
  | none => w

/-- The stages of a login. -/
def loginStep (p : Primitives) (secret : String) (w : AuthWorld) (th : LoginThread) :
    AuthAction → AuthWorld
  | .lookUp tid fails =>
    match th.stage with
    | .lookingUp =>
      if fails then w.finishFailed tid
      else
        match replayLookup w.tables (loginKeys p secret th.request) with
        | none => w.setStage tid .counting
        | some (.error e) => w.finish tid (.error e)
        | some (.ok id) => w.setStage tid (.replaying id)
    | _ => w
  | .readSession tid now fails =>
    match th.stage with
    | .replaying id =>
      if fails then w.finishFailed tid
      else w.finish tid (replaySession p secret w.tables (loginKeys p secret th.request) id now)
    | _ => w
  | .count tid now fails =>
    match th.stage with
    | .counting =>
      if fails then w.finishFailed tid
      else
        let threshold := now - 1000 * loginWindowSeconds
        if limited w.tables (loginKeys p secret th.request) threshold then
          w.setStage tid (.blocking threshold)
        else w.setStage tid .reading
    | _ => w
  | .block tid now auditId fails =>
    match th.stage with
    | .blocking threshold =>
      let k := loginKeys p secret th.request
      if fails then w.finishFailed tid
      else if limited w.tables k threshold then
        match blockLogin w.tables th.request k threshold now auditId with
        | some tables => { w with tables }.finish tid (.error temporarilyBlocked)
        | none => w.finishFailed tid
      else w.setStage tid .reading
    | _ => w
  | .readCredential tid fails =>
    match th.stage with
    | .reading =>
      if fails then w.finishFailed tid
      else w.setStage tid (.verifying (credentialOf w.tables th.request.username) w.version)
    | _ => w
  | .derive tid slot =>
    match th.stage with
    | .verifying credential version =>
      if ¬slot then w.finish tid (.error (temporarilyUnavailable "browser_auth_capacity_exhausted"))
      else
        match credentialMatches p credential th.request.password with
        | none => w.setStage tid (.finished none)
        | some (.error e) => w.finish tid (.error e)
        | some (.ok valid) => w.setStage tid (.writing credential version valid)
    | _ => w
  | .write tid clock auditId fails =>
    match th.stage with
    | .writing credential version valid =>
      let k := loginKeys p secret th.request
      if fails then w.finishFailed tid
      else
        match loginTransaction p secret w.tables th.request k credential valid clock auditId with
        | (none, result) => w.finish tid result
        | (some tables, .error e) => { w with tables }.finish tid (.error e)
        | (some tables, .ok result) =>
          let record := ⟨sessionIdOf p result.token, th.request, version⟩
          { w with tables, logins := w.logins ++ [record] }.finish tid (.ok result)
    | _ => w
  | _ => w

def step (p : Primitives) (secret : String) (a : AuthAction) (w : AuthWorld) : AuthWorld :=
  match a with
  | .login tid r => w.start tid r
  | .lookUp tid _ | .readSession tid _ _ | .count tid _ _ | .block tid _ _ _ | .readCredential tid _
  | .derive tid _ | .write tid _ _ _ =>
    match w.threads.get? tid with
    | some th => w.loginStep p secret th a
    | none => w
  | .install x now fails =>
    match (if fails then none else initializeOperator p w.tables x now) with
    | some tables => { w with tables, salts := x.salt :: w.salts }
    | none => w
  | .setPassword x now auditId fails =>
    match (if fails then none else HermesOps.BrowserAuth.setPassword p w.tables x now auditId) with
    | some tables => { w with tables, salts := x.salt :: w.salts }
    | none => w
  | .logout session key requestId now auditId fails =>
    match (if fails then none else
        HermesOps.BrowserAuth.logout p w.tables session key requestId now auditId) with
    | some tables => { w with tables }
    | none => w

end AuthWorld

/-- Empty tables and no login. -/
def machine (p : Primitives) (secret : String) : Machine AuthAction AuthWorld where
  start w := w = ⟨⟨none, .empty, .empty, .empty⟩, .empty, [], []⟩
  step := AuthWorld.step p secret

end HermesOps.BrowserAuth
