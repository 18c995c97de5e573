import HermesOps.Model.Transactions
import HermesOps.Controller.EventJournal
import HermesOps.Schemes.Transaction

/-! `objective_commands.py`: the store behind the Controller's three objective requests. Each request
    is one write transaction: it looks its idempotency key up, and unless it finds a recorded response
    it checks the request, writes the objective, the plan, the event, the operation and the audit row,
    and records its own response under the key. What the store takes from its surroundings (the hash
    functions, the parsing and printing of texts, the random identifiers and the clock) is a
    parameter; objective and project identifiers are texts here and numbers in the database. -/

namespace HermesOps.Controller

open Schemes

/-! ### Tables -/

/-- A row of `controller_operations`. -/
structure OperationRow where
  commandKind : String
  state : String
  targetType : String
  targetId : String
  resultJson : Json
  errorCode : Option String
  createdAt : Time
  updatedAt : Time
  finishedAt : Option Time

/-- A row of `controller_idempotency`, kept under its session fingerprint and key hash. -/
structure IdempotencyRow where
  method : String
  route : String
  requestHash : String
  responseStatus : Option Nat
  responseJson : Option Json
  operationId : Option String
  createdAt : Time
  completedAt : Option Time

/-- A row of `controller_command_audit`. -/
structure AuditRow where
  operationId : String
  actorType : String
  actorId : String
  action : String
  resourceType : String
  resourceId : String
  sessionFingerprint : String
  idempotencyKeyHash : String
  requestHash : String
  outcome : String
  createdAt : Time

/-- A row of `objective_events`. -/
structure ObjectiveEventRow where
  objectiveId : ObjectiveId
  eventType : String
  oldStatus : Option String
  newStatus : Option String
  payloadJson : Json
  createdAt : Time

/-- The tables the store reads and writes. -/
structure CommandTables where
  database : Database
  projects : Table ProjectId Project
  objectiveEvents : Table String ObjectiveEventRow
  operations : Table String OperationRow
  audit : Table String AuditRow
  idempotency : Table (String × String) IdempotencyRow
  journal : Journal

/-! ### Surroundings -/

/-- What the store calls: `fingerprint` and `digest` are prefixes of SHA-256 digests, `hmac` and
    `signature` the two encodings of an HMAC under the session token, `parseTime` reads an ISO
    timestamp with a time zone. -/
structure Surroundings where
  rules : TextRules
  fingerprint : String → String
  digest : String → String
  hmac : String → String → String
  signature : String → String → String
  objectiveId : String → ObjectiveId
  projectId : String → ProjectId
  projectText : ProjectId → String
  timeText : Time → String
  expiryText : Nat → String
  parseTime : String → Option Time
  unquote : String → String

/-- The identifiers and times a request draws, the metadata its factory returns (none when it raises),
    and the statements the connection executes before it fails. -/
structure Draws where
  objectiveHex : String
  operationHex : String
  eventHex : String
  auditHex : String
  journalHex : String
  nonce : String
  issued : Nat
  reservedAt : Time
  now : Time
  notBefore : Time
  completedAt : Time
  metadata : Option Json
  failsAfter : Option Nat

/-- A decoded JSON object: its members in key order. -/
abbrev Members := List (String × Json)

def Members.get? (m : Members) (key : String) : Option Json :=
  (m.find? fun x => x.1 = key).map Prod.snd

/-- A request behind authentication. -/
structure Request where
  session : String
  key : Option String
  route : String
  body : Members
  draws : Draws

/-- What ends a transaction: a refusal, an encoding error, a violated constraint, a metadata factory
    that raises, or the database. -/
inductive Failure where
  | controller (e : ControllerError)
  | encoding
  | integrity
  | metadata
  | database
  deriving DecidableEq

abbrev Command (α : Type) := Txn Failure CommandTables α

/-- A computation that raises a `ControllerError`. -/
def checked {α : Type} (r : Result α) : Command α := .lift (r.mapError Failure.controller)

def refuse {α : Type} (status : Nat) (code title : String) : Command α :=
  .raise (.controller { status, code, title })

/-- A `SELECT`. -/
def query {α : Type} (f : CommandTables → α) : Command α :=
  .statement .database fun t => .ok (f t, t)

/-- An `INSERT` or `UPDATE`; nothing is a violated constraint. -/
def execute (f : CommandTables → Option CommandTables) : Command Unit :=
  .statement .database fun t =>
    match f t with
    | some t => .ok ((), t)
    | none => .error .integrity

/-! ### Hashes -/

variable (c : Surroundings)

/-- `_session_fingerprint`, `_key_hash` and `_request_hash` of a request. -/
structure Keys where
  sessionFp : String
  keyHash : String
  requestHash : String

def sessionFingerprint (session : String) : String := c.fingerprint session

def keyHash (session idempotencyKey : String) : String :=
  c.hmac session ("hermesops-idempotency-v1\x00" ++ idempotencyKey)

/-- The text `_request_hash` authenticates. -/
def requestMaterial (method route : String) (body : Members) : String :=
  "hermesops-request-v1\x00" ++ (method ++ "\x00" ++ (route ++ "\x00" ++ canonicalJson (.obj body)))

def requestHash (session method route : String) (body : Members) : String :=
  c.hmac session (requestMaterial method route body)

def isAscii (s : String) : Bool := s.toList.all fun ch => ch.toNat < 128

def isLetter (ch : Char) : Bool := isLowerLetter ch || (65 ≤ ch.toNat ∧ ch.toNat ≤ 90)

/-- `IDEMPOTENCY_KEY_PATTERN`. -/
def isIdempotencyKey (s : String) : Bool :=
  8 ≤ s.length ∧ s.length ≤ 200 ∧
    s.toList.all fun ch => isLetter ch || isDigit ch || ch ∈ ['.', '_', '~', ':', '-']

/-- `OBJECTIVE_ID_PATTERN`. -/
def isObjectiveId : String → Bool := isPrefixedHex "objective-"

/-- `PROJECT_ID_PATTERN`. -/
def isProjectId (s : String) : Bool :=
  2 ≤ s.length ∧ s.length ≤ 63 ∧ s.toList.head?.any isLowerLetter ∧
    s.toList.all fun ch => isLowerLetter ch || isDigit ch || ch = '-'

def validateIdempotencyKey : Option String → Result String
  | none => .error invalidKey
  | some key => if isIdempotencyKey key then .ok key else .error invalidKey
where
  invalidKey : ControllerError :=
    { status := 400, code := "invalid_idempotency_key", title := "Invalid Idempotency-Key"
      detail := some "Idempotency-Key must contain 8..200 safe ASCII characters." }

/-! ### Idempotency -/

def idempotencyConflict : ControllerError where
  status := 409
  code := "idempotency_conflict"
  title := "Idempotency key conflict"
  detail := some "The key was already used for a different request."

/-- `_replay_or_reserve`; `INSERT` finds the key free because the `SELECT` did. -/
def replayOrReserve (session idempotencyKey method route : String) (body : Members)
    (now : Time) : Command (Option Json × Keys) := do
  .ensure (isAscii session) .encoding
  let keys : Keys := ⟨sessionFingerprint c session, keyHash c session idempotencyKey,
    requestHash c session method route body⟩
  match ← query fun t => t.idempotency.get? (keys.sessionFp, keys.keyHash) with
  | some row =>
    if row.method ≠ method ∨ row.route ≠ route ∨ row.requestHash ≠ keys.requestHash then
      .raise (.controller idempotencyConflict)
    else
      match row.responseJson with
      | none => refuse 409 "command_in_progress" "Command already in progress"
      | some response => return (some response, keys)
  | none =>
    execute fun t => (t.idempotency.insert (keys.sessionFp, keys.keyHash)
      { method, route, requestHash := keys.requestHash, responseStatus := none,
        responseJson := none, operationId := none, createdAt := now, completedAt := none }).map
      fun idempotency => { t with idempotency }
    return (none, keys)

/-- `_complete_idempotency`. -/
def completeIdempotency (keys : Keys) (status : Nat) (payload : Json) (operationId : Option String)
    (now : Time) : Command Unit :=
  execute fun t => some { t with
    idempotency := t.idempotency.updateAt (keys.sessionFp, keys.keyHash) fun row => { row with
      responseStatus := some status
      responseJson := some payload
      operationId
      completedAt := some now } }

/-- The frame of the three requests: replay, or the body's effect and the recording of its response. -/
def exactlyOnce (status : Nat) (r : Request) (body : Keys → Command (Json × Option String)) :
    CommandTables → Except Failure (Nat × Json) × CommandTables := fun t =>
  match validateIdempotencyKey r.key with
  | .error e => (.error (.controller e), t)
  | .ok key =>
    Txn.atomically r.draws.failsAfter (do
      let (replay, keys) ← replayOrReserve c r.session key "POST" r.route r.body r.draws.reservedAt
      match replay with
      | some payload => return (status, payload)
      | none =>
        let (payload, operationId) ← body keys
        completeIdempotency keys status payload operationId r.draws.completedAt
        return (status, payload)) t

/-! ### Events, operations and audit -/

def Json.optional : Option String → Json
  | none => .null
  | some s => .str s

def lower (s : String) : String := String.ofList (s.toList.map Char.toLower)

/-- The journal half of `_add_event`. -/
def journalEvent (objectiveId eventType : String) (oldStatus newStatus : Option String)
    (operationId : String) (projectId : Option String) (payload : Members) (d : Draws) :
    EventInput where
  eventType := if oldStatus.isNone then "objective.created" else "objective.state_changed"
  actorType := "operator"
  actorId := "operator:local-controller-session"
  aggregateType := "objective"
  aggregateId := objectiveId
  correlationId := "corr_" ++ c.digest operationId
  data :=
    match oldStatus with
    | none => .obj [
        ("not_before", (payload.get? "not_before").getD .null),
        ("priority", (payload.get? "priority").getD .null),
        ("project_ids", (payload.get? "projects").getD (.arr [])),
        ("source", (payload.get? "source").getD .null),
        ("state", .str (lower (newStatus.getD "None")))]
    | some old => .obj [
        ("previous_state", .str (lower old)),
        ("reason_code", .str (lower eventType)),
        ("reason_present", (payload.get? "reason_present").getD (.bool false)),
        ("state", .str (lower (newStatus.getD "None")))]
  causationId := some operationId
  projectId
  objectiveId := some objectiveId
  eventId := "evt_" ++ d.journalHex
  occurredAt := c.timeText d.now

/-- `_add_event`. -/
def addEvent (objectiveId eventType : String) (oldStatus newStatus : Option String)
    (operationId : String) (projectId : Option String) (payload : Members) (d : Draws) :
    Command Unit := do
  execute fun t => (t.objectiveEvents.insert ("objective-event-" ++ d.eventHex)
    { objectiveId := c.objectiveId objectiveId, eventType, oldStatus, newStatus,
      payloadJson := .obj payload, createdAt := d.now }).map
    fun objectiveEvents => { t with objectiveEvents }
  .statement .database fun t =>
    match t.journal.emit c.rules
      (journalEvent c objectiveId eventType oldStatus newStatus operationId projectId payload d) with
    | .ok (journal, _) => .ok ((), { t with journal })
    | .error e => .error (.controller e)

/-- `_operation_payload`. -/
def operationPayload (operationId kind objectiveId state createdAt : String) (result : Json) : Json :=
  .obj [
    ("created_at", .str createdAt),
    ("error", .null),
    ("finished_at", .str createdAt),
    ("id", .str operationId),
    ("kind", .str kind),
    ("legacy_projection", .bool false),
    ("result", result),
    ("state", .str state),
    ("target", .obj [("id", .str objectiveId), ("type", .str "objective")]),
    ("updated_at", .str createdAt)]

/-- `_record_operation`. -/
def recordOperation (operationId kind objectiveId : String) (result : Json) (now : Time) :
    Command Json := do
  execute fun t => (t.operations.insert operationId
    { commandKind := kind, state := "SUCCEEDED", targetType := "objective", targetId := objectiveId,
      resultJson := result, errorCode := none, createdAt := now, updatedAt := now,
      finishedAt := some now }).map fun operations => { t with operations }
  return operationPayload operationId kind objectiveId "succeeded" (c.timeText now) result

/-- `_audit`; `operation_id` is `UNIQUE`. -/
def audit (auditId operationId action objectiveId : String) (keys : Keys) (now : Time) :
    Command Unit :=
  execute fun t =>
    if t.audit.any fun _ a => a.operationId = operationId then none
    else (t.audit.insert auditId
      { operationId, actorType := "session", actorId := "local-controller-session", action,
        resourceType := "objective", resourceId := objectiveId,
        sessionFingerprint := keys.sessionFp, idempotencyKeyHash := keys.keyHash,
        requestHash := keys.requestHash, outcome := "SUCCEEDED", createdAt := now }).map
      fun audit => { t with audit }

/-- The rows every accepted command ends with, and its response. -/
def concludeCommand (kind objectiveId : String) (result : Json) (keys : Keys) (d : Draws) :
    Command (Json × Option String) := do
  let operationId := "operation-" ++ d.operationHex
  let operation ← recordOperation c operationId kind objectiveId result d.now
  audit ("audit-" ++ d.auditHex) operationId kind objectiveId keys d.now
  match d.metadata with
  | some metadata => return (.obj [("data", operation), ("meta", metadata)], some operationId)
  | none => .raise .metadata

/-! ### `issue_csrf` -/

def csrfLifetimeSeconds : Nat := 600

/-- `issue_csrf_token` and the moment the token expires at. -/
def issueCsrfToken (session : String) (d : Draws) : String × String :=
  let material := "csrf1\x00" ++ (toString d.issued ++ "\x00" ++ d.nonce)
  (".".intercalate ["csrf1", toString d.issued, d.nonce, c.signature session material],
    c.expiryText (d.issued + csrfLifetimeSeconds))

def csrfBody (r : Request) (_ : Keys) : Command (Json × Option String) :=
  match r.body with
  | [] =>
    let (token, expiresAt) := issueCsrfToken c r.session r.draws
    match r.draws.metadata with
    | some metadata =>
      return (.obj [
        ("data", .obj [("expires_at", .str expiresAt), ("token", .str token)]),
        ("meta", metadata)], none)
    | none => .raise .metadata
  | _ => refuse 400 "invalid_request_body" "Expected an empty JSON object"

def issueCsrf (r : Request) : CommandTables → Except Failure (Nat × Json) × CommandTables :=
  exactlyOnce c 200 r (csrfBody c r)

/-! ### `create_objective` -/

/-- `str.strip`. -/
def strip (s : String) : String :=
  String.ofList ((s.toList.dropWhile isSpace).reverse.dropWhile isSpace).reverse

def badRequest (code title : String) : ControllerError := { status := 400, code, title }

def Json.asString : Json → Option String
  | .str s => some s
  | _ => none

def Json.asInt : Json → Option Int
  | .int n => some n
  | _ => none

/-- A list of strings. -/
def Json.asStrings : Json → Option (List String)
  | .arr items => items.mapM Json.asString
  | _ => none

/-- `_normalize_timestamp`; `utc_now()` when the member is absent or null. -/
def normalizeTimestamp (value : Option Json) (now : Time) : Result Time :=
  let invalid := badRequest "invalid_not_before" "Invalid not_before"
  match value.getD .null with
  | .null => .ok now
  | .str s =>
    let raw := strip s
    if raw = "" then .error invalid
    else
      let iso :=
        if raw.toList.getLast? = some 'Z' then String.ofList raw.toList.dropLast ++ "+00:00" else raw
      match c.parseTime iso with
      | some time => .ok time
      | none => .error invalid
  | _ => .error invalid

/-- What `_validate_create_body` returns. -/
structure CreateData where
  projectIds : List String
  objective : String
  priority : Int
  notBefore : Time
  maxParallelTasks : Nat
  planningMaxAttempts : Nat

def createFields : List String :=
  [ "project_ids", "title", "description", "priority", "not_before", "max_parallel_tasks",
    "planning_max_attempts", "constraints" ]

/-- A required list of distinct project identifiers, sorted. -/
def validateProjectIds (value : Json) : Result (List String) :=
  let invalid := badRequest "invalid_project_ids" "Invalid project identifiers"
  match value.asStrings with
  | some ids =>
    if ids = [] ∨ ids.length > 64 ∨ ¬ids.Nodup ∨ ¬ids.all isProjectId then .error invalid
    else .ok (ids.insertionSort (· ≤ ·))
  | none => .error invalid

/-- A text between 1 and `maximum` characters once stripped; the text returned is stripped. -/
def validateTitle (value : Json) (maximum : Nat) (e : ControllerError) : Result String :=
  match value.asString with
  | some s => if 1 ≤ (strip s).length ∧ (strip s).length ≤ maximum then .ok (strip s) else .error e
  | none => .error e

def validateConstraints (value : Json) : Result (List String) :=
  let invalid := badRequest "invalid_constraints" "Invalid objective constraints"
  match value.asStrings with
  | some items =>
    if items.length > 128 ∨ items.any (fun s => strip s = "" ∨ s.length > 1000) then .error invalid
    else .ok (items.map strip)
  | none => .error invalid

/-- An `int` in a range; a `bool` is not one. -/
def validateInt (value : Json) (low high : Int) (e : ControllerError) : Result Int :=
  match value.asInt with
  | some n => if low ≤ n ∧ n ≤ high then .ok n else .error e
  | none => .error e

/-- `_validate_create_body`. -/
def validateCreateBody (body : Members) (now : Time) : Result CreateData := do
  require (body.all fun x => x.1 ∈ createFields)
    (badRequest "unknown_request_field" "Unknown request field")
  match body.get? "project_ids", body.get? "title", body.get? "description" with
  | some projects, some title, some description =>
    let projectIds ← validateProjectIds projects
    let title ← validateTitle title 200 (badRequest "invalid_title" "Invalid objective title")
    let description ← validateTitle description 16384
      (badRequest "invalid_description" "Invalid objective description")
    let constraints ← validateConstraints ((body.get? "constraints").getD (.arr []))
    let priority ← validateInt ((body.get? "priority").getD (.int 100)) (-1000) 1000
      (badRequest "invalid_priority" "Invalid objective priority")
    let maxParallel ← validateInt ((body.get? "max_parallel_tasks").getD (.int 1)) 1 16
      (badRequest "invalid_max_parallel_tasks" "Invalid max_parallel_tasks")
    let planningAttempts ← validateInt ((body.get? "planning_max_attempts").getD (.int 3)) 1 5
      (badRequest "invalid_planning_max_attempts" "Invalid planning_max_attempts")
    let objective := title ++ "\n\n" ++ description ++
      if constraints = [] then ""
      else "\n\nConstraints:\n" ++ "\n".intercalate (constraints.map fun s => "- " ++ s)
    require (objective.utf8ByteSize ≤ 16384)
      (badRequest "objective_too_large" "Objective exceeds 16 KiB")
    let notBefore ← normalizeTimestamp c (body.get? "not_before") now
    return ⟨projectIds, objective, priority, notBefore, maxParallel.toNat, planningAttempts.toNat⟩
  | _, _, _ => .error (badRequest "invalid_objective" "Invalid objective request")

/-- The row `create_objective` inserts. -/
def CreateData.row (data : CreateData) (now : Time) : Objective where
  text := data.objective
  source := .ai
  status := .queued
  priority := data.priority
  notBefore := data.notBefore
  projectScope := data.projectIds.map c.projectId
  maxParallelTasks := data.maxParallelTasks
  planningMaxAttempts := data.planningMaxAttempts
  planningAttemptCount := 0
  planId := none
  createdAt := now
  startedAt := none
  heartbeatAt := now
  finishedAt := none
  pausedAt := none
  lastError := none

/-- The identifier when there is just one. -/
def single : List String → Option String
  | [id] => some id
  | _ => none

def createBody (r : Request) (keys : Keys) : Command (Json × Option String) := do
  let data ← checked (validateCreateBody c r.body r.draws.notBefore)
  let objectiveId := "objective-" ++ r.draws.objectiveHex
  let now := r.draws.now
  let rows ← query fun t => t.projects.select fun p _ => p ∈ data.projectIds.map c.projectId
  .ensure (data.projectIds.all fun s => c.projectId s ∈ rows.map Prod.fst)
    (.controller (badRequest "unknown_project" "Unknown project"))
  .ensure (rows.all fun x => x.2.enabled)
    (.controller { status := 409, code := "project_disabled", title := "Project is disabled" })
  execute fun t =>
    (t.database.queue.objectives.insert (c.objectiveId objectiveId) (data.row c now)).map
      fun objectives => { t with
        database := { t.database with queue := { t.database.queue with objectives } } }
  addEvent c objectiveId "OBJECTIVE_SUBMITTED" none (some "QUEUED")
    ("operation-" ++ r.draws.operationHex) (single data.projectIds)
    [ ("not_before", .str (c.timeText data.notBefore)),
      ("priority", .int data.priority),
      ("projects", .arr (data.projectIds.map .str)),
      ("source", .str "AI") ] r.draws
  concludeCommand c "objective.create" objectiveId
    (.obj [("objective_id", .str objectiveId), ("state", .str "queued")]) keys r.draws

def createObjective (r : Request) : CommandTables → Except Failure (Nat × Json) × CommandTables :=
  exactlyOnce c 202 r (createBody c r)

/-! ### `command_objective` -/

/-- `_running_task_count`. -/
def runningTaskCount (d : Database) : Option PlanId → Nat
  | none => 0
  | some planId => (d.graph.tasks.select fun _ t => t.planId = planId ∧ t.status = .running).length

/-- The join of `orchestration_attempts`, `orchestration_tasks` and `runs` for a plan. -/
def planRuns (d : Database) (planId : PlanId) : List (RunId × Run) :=
  d.graph.attempts.rows.filterMap fun (_, attempt) => do
    let task ← d.graph.tasks.get? attempt.taskId
    let runId ← attempt.runId
    let run ← d.store.runs.get? runId
    if task.planId = planId then some (runId, run) else none

/-- `_integration_point_of_no_return`. -/
def integrationPointOfNoReturn (d : Database) : Option PlanId → Bool
  | none => false
  | some planId => (planRuns d planId).any fun (runId, run) =>
      run.status ∈ [RunStatus.committing, .completed] ∨
        d.store.integrations.any fun _ i => i.runId = runId ∧ i.decision = .approve ∧
          i.status ∈ [IntegrationStatus.prepared, .completed, .failed]

/-- `_active_run_count`. -/
def activeRunCount (d : Database) : Option PlanId → Nat
  | none => 0
  | some planId =>
    (((planRuns d planId).filter fun (_, run) => run.status ∈ [RunStatus.snapshotting, .running,
      .reviewing, .waitingHuman, .committing, .recovering]).map Prod.fst).dedup.length

/-- `_resumed_status_for_plan`. -/
def resumedStatusForPlan : Option PlanStatus → ObjectiveStatus
  | none => .queued
  | some .draft => .queued
  | some .ready => .queued
  | some .running => .queued
  | some .blocked => .running
  | some .completed => .completed
  | some .failed => .failed
  | some .cancelled => .cancelled

/-- `_cancel_plan`. -/
def cancelPlan (g : Graph) (now : Time) : Option PlanId → Graph
  | none => g
  | some planId => { g with
      tasks := g.tasks.update
        (fun _ t => t.planId = planId ∧ t.status ∈ [TaskStatus.pending, .ready, .blocked])
        fun t => { t with
          status := .cancelled
          heartbeatAt := some now
          finishedAt := some now
          failureReason := t.failureReason.or (some "objective cancelled") }
      plans := g.plans.update
        (fun p q => p = planId ∧ q.status ∉ [PlanStatus.completed, .failed, .cancelled])
        fun q => { q with
          status := .cancelled
          heartbeatAt := some now
          finishedAt := some now
          lastError := some "objective cancelled" } }

/-- The texts of the statuses. -/
def statusText : ObjectiveStatus → String
  | .queued => "QUEUED"
  | .planning => "PLANNING"
  | .running => "RUNNING"
  | .pauseRequested => "PAUSE_REQUESTED"
  | .paused => "PAUSED"
  | .cancelRequested => "CANCEL_REQUESTED"
  | .completed => "COMPLETED"
  | .failed => "FAILED"
  | .cancelled => "CANCELLED"

/-- `_validate_command_body`; the boolean says whether a reason is present. -/
def validateCommandBody (body : Members) : Result Bool := do
  require (body.all fun x => x.1 = "reason")
    (badRequest "unknown_request_field" "Unknown request field")
  match (body.get? "reason").getD .null with
  | .null => return false
  | value =>
    let _ ← validateTitle value 1000 (badRequest "invalid_reason" "Invalid command reason")
    return true

/-- `_single_project_id` of a stored project scope. -/
def singleProjectId (scope : List ProjectId) : Result (Option String) :=
  if scope = [] ∨ ¬scope.Nodup then
    .error { status := 503, code := "objective_projection_invalid"
             title := "Objective projection unavailable" }
  else .ok (single (scope.map c.projectText))

/-- An `UPDATE` of the objective's row. -/
def updateObjective (id : ObjectiveId) (f : Objective → Objective) : Command Unit :=
  execute fun t => some { t with
    database := { t.database with
      queue := { t.database.queue with
        objectives := t.database.queue.objectives.updateAt id f } } }

def isTerminal (status : ObjectiveStatus) : Bool :=
  status ∈ [ObjectiveStatus.completed, .failed, .cancelled]

/-- The event of a changed status. -/
def addStateEvent (r : Request) (objectiveId eventType : String) (row : Objective)
    (new : ObjectiveStatus) (reason : Bool) : Command Unit := do
  let projectId ← checked (singleProjectId c row.projectScope)
  addEvent c objectiveId eventType (some (statusText row.status)) (some (statusText new))
    ("operation-" ++ r.draws.operationHex) projectId [("reason_present", .bool reason)] r.draws

/-- The `pause` branch; it returns `new`. -/
def pauseCommand (r : Request) (objectiveId : String) (row : Objective) (reason : Bool) :
    Command ObjectiveStatus := do
  let now := r.draws.now
  if row.status = .cancelRequested then
    refuse 409 "objective_cancel_pending" "Objective cancellation is pending"
  else if isTerminal row.status then refuse 409 "objective_terminal" "Objective is terminal"
  else if row.status = .paused then return .paused
  else
    let running ← query fun t => runningTaskCount t.database row.planId
    let new := if row.status = .planning ∨ running ≠ 0 then ObjectiveStatus.pauseRequested else .paused
    updateObjective (c.objectiveId objectiveId) fun o => { o with
      status := new
      heartbeatAt := now
      pausedAt := if new = .paused then some now else o.pausedAt
      lastError := none }
    addStateEvent c r objectiveId
      (if new = .pauseRequested then "OBJECTIVE_PAUSE_REQUESTED" else "OBJECTIVE_PAUSED") row new reason
    return new

/-- The status of the linked plan; a plan that is gone is an error. -/
def selectPlanStatus : Option PlanId → Command (Option PlanStatus)
  | none => return none
  | some planId => do
    match ← query fun t => t.database.graph.plans.get? planId with
    | none => refuse 503 "objective_plan_unavailable" "Objective plan unavailable"
    | some plan => return some plan.status

/-- The `resume` branch. -/
def resumeCommand (r : Request) (objectiveId : String) (row : Objective) (reason : Bool) :
    Command ObjectiveStatus := do
  let now := r.draws.now
  if row.status ≠ .paused then
    refuse 409 "objective_not_paused" "Objective can only resume from PAUSED"
  else
    let planStatus ← selectPlanStatus row.planId
    let new := resumedStatusForPlan planStatus
    updateObjective (c.objectiveId objectiveId) fun o => { o with
      status := new
      heartbeatAt := now
      pausedAt := none
      finishedAt := if isTerminal new then some now else none
      lastError :=
        if new = .failed then some "linked orchestration plan failed"
        else if new = .cancelled then some "linked orchestration plan cancelled"
        else none }
    addStateEvent c r objectiveId "OBJECTIVE_RESUMED" row new reason
    return new

def cancelPlanWhen (test : Bool) (planId : Option PlanId) (now : Time) : Command Unit :=
  if test then
    execute fun t => some { t with
      database := { t.database with graph := cancelPlan t.database.graph now planId } }
  else return ()

/-- The `cancel` branch. -/
def cancelCommand (r : Request) (objectiveId : String) (row : Objective) (reason : Bool) :
    Command ObjectiveStatus := do
  let now := r.draws.now
  if isTerminal row.status then refuse 409 "objective_terminal" "Objective is terminal"
  else if ← query fun t => integrationPointOfNoReturn t.database row.planId then
    refuse 409 "objective_integration_committed"
      "Objective passed the integration point of no return"
  else
    let running ← query fun t => runningTaskCount t.database row.planId
    let activeRuns ← query fun t => activeRunCount t.database row.planId
    let new :=
      if row.status = .planning ∨ running ≠ 0 ∨ activeRuns ≠ 0 then ObjectiveStatus.cancelRequested
      else .cancelled
    cancelPlanWhen (new = .cancelled) row.planId now
    updateObjective (c.objectiveId objectiveId) fun o => { o with
      status := new
      heartbeatAt := now
      finishedAt := if new = .cancelled then some now else none
      lastError := if new = .cancelled then some "cancelled by operator" else o.lastError }
    addStateEvent c r objectiveId
      (if new = .cancelRequested then "OBJECTIVE_CANCEL_REQUESTED" else "OBJECTIVE_CANCELLED")
      row new reason
    return new

/-- The last segment of the route. -/
def commandOf : String → Option ObjectiveCommand
  | "pause" => some .pause
  | "resume" => some .resume
  | "cancel" => some .cancel
  | _ => none

/-- The branch of the command. -/
def runCommand (r : Request) (objectiveId : String) (row : Objective) (reason : Bool) :
    ObjectiveCommand → Command ObjectiveStatus
  | .pause => pauseCommand c r objectiveId row reason
  | .resume => resumeCommand c r objectiveId row reason
  | .cancel => cancelCommand c r objectiveId row reason

def commandUnavailable : ControllerError where
  status := 409
  code := "objective_command_unavailable"
  title := "Objective command unavailable"
  detail := some "Milestone 2G implements pause, resume and cancel only."

def commandBody (r : Request) (objectiveId command : String) (keys : Keys) :
    Command (Json × Option String) := do
  .ensure (isObjectiveId objectiveId)
    (.controller (badRequest "invalid_objective_id" "Invalid objective identifier"))
  match commandOf command with
  | none => .raise (.controller commandUnavailable)
  | some known =>
    let reason ← checked (validateCommandBody r.body)
    match ← query fun t => t.database.queue.objectives.get? (c.objectiveId objectiveId) with
    | none => refuse 404 "objective_not_found" "Objective not found"
    | some row =>
      let new ← runCommand c r objectiveId row reason known
      concludeCommand c ("objective." ++ command) objectiveId
        (.obj [("objective_id", .str objectiveId), ("raw_state", .str (statusText new))])
        keys r.draws

def commandObjective (r : Request) (objectiveId command : String) :
    CommandTables → Except Failure (Nat × Json) × CommandTables :=
  exactlyOnce c 202 r (commandBody c r objectiveId command)

/-! ### Routes -/

/-- The three requests. -/
inductive Call where
  | csrf
  | create
  | command (objectiveId command : String)
  deriving DecidableEq

/-- `text.split(marker, 1)`, when the marker occurs. -/
def splitOnce (marker : List Char) : List Char → Option (List Char × List Char)
  | [] => if marker = [] then some ([], []) else none
  | ch :: rest =>
    if (ch :: rest).take marker.length = marker then some ([], (ch :: rest).drop marker.length)
    else (splitOnce marker rest).map fun (before, after) => (ch :: before, after)

/-- `_protected_post`, for the paths of this store. -/
def callOf (path : String) : Result Call :=
  let notFound : ControllerError := { status := 404, code := "route_not_found", title := "Route not found" }
  let lead := "/api/v1/objectives/".toList
  if path = "/api/v1/auth/csrf" then .ok .csrf
  else if path = "/api/v1/objectives" then .ok .create
  else if path.toList.take lead.length = lead then
    match splitOnce "/commands/".toList (path.toList.drop lead.length) with
    | some (objectivePart, commandPart) =>
      let objectiveId := c.unquote (String.ofList objectivePart)
      let command := c.unquote (String.ofList commandPart)
      if objectiveId = "" ∨ '/' ∈ objectiveId.toList ∨ command = "" ∨ '/' ∈ command.toList then
        .error notFound
      else .ok (.command objectiveId command)
    | none => .error notFound
  else .error notFound

/-- A request is answered by the call its route names. -/
def handle (r : Request) (t : CommandTables) : Except Failure (Nat × Json) × CommandTables :=
  match callOf c r.route with
  | .error e => (.error (.controller e), t)
  | .ok .csrf => issueCsrf c r t
  | .ok .create => createObjective c r t
  | .ok (.command objectiveId command) => commandObjective c r objectiveId command t

/-- The tables before the first request; the objectives and plans may be anything. -/
def CommandTables.fresh (database : Database) (projects : Table ProjectId Project) :
    CommandTables where
  database
  projects
  objectiveEvents := .empty
  operations := .empty
  audit := .empty
  idempotency := .empty
  journal := .empty

end HermesOps.Controller
