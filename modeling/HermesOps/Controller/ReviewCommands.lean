import HermesOps.Controller.CommandRecords

/-! `review_commands.py`: the operator's decisions about reviews. A request is one write transaction over
    tables of its own, the journal and the table `events` of the command line tools: it looks its
    idempotency key up, and unless it finds a response it reserves the key, checks the command, the
    body and the review, records one action with its operation, audit row and events, and leaves its
    response under the key. The key and the request are authenticated as those of an objective. -/

namespace HermesOps.Controller.Commands

open Schemes

/-! ### Tables -/

/-- A row of `review_results`. -/
structure ReviewResultRow where
  runId : String
  verdict : String

/-- A row of `controller_review_actions`. -/
structure ReviewActionRow where
  reviewId : String
  runId : String
  command : String
  reasonPresent : Bool
  status : String
  createdAt : Time

/-- A row of `events`. -/
structure LegacyEventRow where
  projectId : Option String
  runId : Option String
  taskId : Option String
  eventType : String
  severity : String
  payloadJson : Json
  createdAt : Time

/-- The tables of the store; `runs` gives the project of a run. -/
structure ReviewTables where
  reviews : Table String ReviewResultRow
  runs : Table String String
  actions : Table String ReviewActionRow
  events : List LegacyEventRow

/-- The identifiers and times a request draws, its metadata factory, and the statements the connection
    executes before it fails. -/
structure ReviewDraws where
  actionHex : String
  operationHex : String
  auditHex : String
  journalHex : String
  reservedAt : Time
  now : Time
  completedAt : Time
  metadata : Nat → Option Json
  failsAfter : Option Nat

/-- The arguments of `command_review`. -/
structure ReviewRequest where
  session : String
  key : Option String
  route : String
  reviewId : String
  command : String
  body : Members
  draws : ReviewDraws

/-- `REVIEW_ID_PATTERN`. -/
def isReviewId : String → Bool := isPrefixedHex "review-"

def safeReviewCommands : List String := ["acknowledge-debt", "request-human-review"]

def knownReviewVerdicts : List String :=
  ["PASS", "PASS_WITH_DEBT", "FIX", "SECURITY", "PERFORMANCE", "ARCHITECTURE", "HUMAN"]

variable (p : Hashing) (r : ReviewRequest)

/-! ### Idempotency -/

/-- The place of the request's record, and the hash of the request. -/
def reviewKeys (key : String) : Keys where
  sessionFp := sessionFingerprint p r.session
  keyHash := p.hmac r.session ("hermesops-idempotency-v1\x00" ++ key)
  requestHash := p.hmac r.session (requestMaterial "POST" r.route r.body)

def reviewReservationInvalid : ControllerError where
  status := 503
  code := "idempotency_reservation_invalid"
  title := "Idempotency reservation is incomplete"
  detail := some "The persisted reservation cannot represent an active transaction."

/-- What a record answers to a request. -/
def recordedReview (keys : Keys) (row : IdempotencyRow) : Result Json :=
  if row.method ≠ "POST" ∨ row.route ≠ r.route ∨ row.requestHash ≠ keys.requestHash then
    .error Controller.idempotencyConflict
  else
    match row.responseJson with
    | none => .error reviewReservationInvalid
    | some response => .ok response

/-- The row of a reserved key. -/
def reservedReview (keys : Keys) : IdempotencyRow where
  method := "POST"
  route := r.route
  requestHash := keys.requestHash
  responseStatus := none
  responseJson := none
  operationId := none
  createdAt := r.draws.reservedAt
  completedAt := none

/-- `_replay_or_reserve`. -/
def replayOrReserveReview (key : String) : Command ReviewTables (Option Json × Keys) := do
  .ensure (isAscii r.session) .encoding
  let keys := reviewKeys p r key
  match ← query fun t => t.records.idempotency.get? (keys.sessionFp, keys.keyHash) with
  | some row =>
    let response ← checked (recordedReview r keys row)
    return (some response, keys)
  | none =>
    execute fun t =>
      (t.records.idempotency.insert (keys.sessionFp, keys.keyHash) (reservedReview r keys)).map
        fun idempotency => { t with records := { t.records with idempotency } }
    return (none, keys)

/-! ### The records of a decision -/

def reviewResult (actionId : String) (reason : Bool) : Json :=
  .obj [
    ("action_id", .str actionId),
    ("command", .str r.command),
    ("reason_present", .bool reason),
    ("review_id", .str r.reviewId),
    ("status", .str "recorded")]

/-- The payload of the row in `events`. -/
def legacyPayload (reason : Bool) : Json :=
  .obj [("command", .str r.command), ("reason_present", .bool reason), ("review_id", .str r.reviewId)]

/-- `_operation_payload` with the revision that `_revision` gives it. -/
def reviewOperation (operationId actionId createdAt : String) (reason : Bool) : Json × Nat :=
  let first : Members := [
    ("created_at", .str createdAt),
    ("error", .null),
    ("finished_at", .str createdAt),
    ("id", .str operationId),
    ("kind", .str ("review." ++ r.command)),
    ("legacy_projection", .bool false)]
  let last : Members := [
    ("result", reviewResult r actionId reason),
    ("state", .str "succeeded"),
    ("target", .obj [("id", .str r.reviewId), ("type", .str "review")]),
    ("updated_at", .str createdAt)]
  let revision := hexNumber ((p.sha256 (canonicalJson (.obj (first ++ last)))).toList.take 15)
  (.obj (first ++ [("resource_revision", .int revision)] ++ last), revision)

def reviewAction (runId : String) (reason : Bool) : ReviewActionRow where
  reviewId := r.reviewId
  runId
  command := r.command
  reasonPresent := reason
  status := "RECORDED"
  createdAt := r.draws.now

/-- The insertion of the action; `review_id` is `UNIQUE`. -/
def insertAction (actionId runId : String) (reason : Bool) : Command ReviewTables Unit :=
  execute fun t =>
    if t.content.actions.any fun _ a => a.reviewId = r.reviewId then none
    else if isPrefixedHex "review-action-" actionId then
      (t.content.actions.insert actionId (reviewAction r runId reason)).map
        fun actions => { t with content := { t.content with actions } }
    else none

def reviewOperationRow (actionId : String) (reason : Bool) : OperationRow where
  commandKind := "review." ++ r.command
  state := "SUCCEEDED"
  targetId := r.reviewId
  resultJson := reviewResult r actionId reason
  errorCode := none
  createdAt := r.draws.now
  updatedAt := r.draws.now
  finishedAt := some r.draws.now

def insertOperation (operationId actionId : String) (reason : Bool) : Command ReviewTables Unit :=
  execute fun t =>
    if isPrefixedHex "operation-" operationId then
      (t.records.operations.insert operationId (reviewOperationRow r actionId reason)).map
        fun operations => { t with records := { t.records with operations } }
    else none

def reviewAudit (operationId : String) (keys : Keys) (reason : Bool) : AuditRow where
  operationId
  actorType := "session"
  actorId := "local-controller-session"
  action := r.command
  resourceType := "review"
  resourceId := r.reviewId
  sessionFingerprint := keys.sessionFp
  idempotencyKeyHash := keys.keyHash
  requestHash := keys.requestHash
  outcome := "SUCCEEDED"
  reasonPresent := some reason
  createdAt := r.draws.now

/-- The insertion of the audit row; `operation_id` is `UNIQUE`. -/
def insertAudit (auditId operationId : String) (keys : Keys) (reason : Bool) : Command ReviewTables Unit :=
  execute fun t =>
    if t.records.audit.any fun _ a => a.operationId = operationId then none
    else if isPrefixedHex "audit-" auditId then
      (t.records.audit.insert auditId (reviewAudit r operationId keys reason)).map
        fun audit => { t with records := { t.records with audit } }
    else none

/-- The event types of a command in `events` and in the journal. -/
def legacyType (command : String) : String :=
  if command = "acknowledge-debt" then "REVIEW_DEBT_ACKNOWLEDGED" else "REVIEW_HUMAN_REQUESTED"

def journalType (command : String) : String :=
  if command = "acknowledge-debt" then "review.debt_acknowledged" else "review.human_review_requested"

def legacyEvent (runId projectId : String) (reason : Bool) : LegacyEventRow where
  projectId := some projectId
  runId := some runId
  taskId := none
  eventType := legacyType r.command
  severity := "INFO"
  payloadJson := legacyPayload r reason
  createdAt := r.draws.now

def insertEvent (runId projectId : String) (reason : Bool) : Command ReviewTables Unit :=
  execute fun t => some
    { t with content := { t.content with
      events := t.content.events ++ [legacyEvent r runId projectId reason] } }

/-- The arguments of `EventJournal.emit`. -/
def reviewEvent (operationId projectId : String) (reason : Bool) : EventInput where
  eventType := journalType r.command
  actorType := "operator"
  actorId := "operator:local-controller-session"
  aggregateType := "review"
  aggregateId := r.reviewId
  correlationId := "corr_" ++ String.ofList ((p.sha256 operationId).toList.take 32)
  data := .obj [
    ("command", .str r.command),
    ("reason_present", .bool reason),
    ("status", .str "recorded")]
  causationId := some operationId
  projectId := some projectId
  objectiveId := none
  eventId := "evt_" ++ r.draws.journalHex
  occurredAt := p.timeText r.draws.now

def emitReview (operationId projectId : String) (reason : Bool) : Command ReviewTables Unit :=
  .statement .database fun t =>
    match t.records.journal.emit p.rules (reviewEvent p r operationId projectId reason) with
    | .ok (journal, _) => .ok ((), { t with records := { t.records with journal } })
    | .error e => .error (.controller e)

/-- The records of an accepted command, and its response. -/
def recordReview (runId projectId : String) (reason : Bool) (keys : Keys) :
    Command ReviewTables (Json × String) := do
  let actionId := "review-action-" ++ r.draws.actionHex
  let operationId := "operation-" ++ r.draws.operationHex
  insertAction r actionId runId reason
  insertOperation r operationId actionId reason
  insertAudit r ("audit-" ++ r.draws.auditHex) operationId keys reason
  insertEvent r runId projectId reason
  emitReview p r operationId projectId reason
  let operation := reviewOperation p r operationId actionId (p.timeText r.draws.now) reason
  match r.draws.metadata operation.2 with
  | some metadata => return (.obj [("data", operation.1), ("meta", metadata)], operationId)
  | none => .raise .metadata

/-! ### `command_review` -/

def reviewNotFound : ControllerError :=
  { status := 404, code := "review_not_found", title := "Review not found" }

def rerunUnavailable : ControllerError where
  status := 409
  code := "review_rerun_unavailable"
  title := "Review rerun is unavailable"
  detail := some "Milestone 2H does not schedule reviewer execution."

def reviewCommandUnavailable : ControllerError where
  status := 409
  code := "review_command_unavailable"
  title := "Review command is unavailable"

def reviewProjectionInvalid : ControllerError where
  status := 503
  code := "review_projection_invalid"
  title := "Review projection unavailable"

def debtNotAcknowledgeable : ControllerError where
  status := 409
  code := "review_debt_not_acknowledgeable"
  title := "Review debt cannot be acknowledged"
  detail := some "Only PASS_WITH_DEBT reviews support this command."

def humanReviewRequired : ControllerError where
  status := 409
  code := "human_review_already_required"
  title := "Human review is already required"

def actionRecorded : ControllerError where
  status := 409
  code := "review_action_already_recorded"
  title := "Review action already recorded"

def actionConflict : ControllerError where
  status := 409
  code := "review_action_conflict"
  title := "Review action conflicts with an existing human decision"
  detail := some "Only one bounded human action may be recorded per review."

/-- What follows the reservation of the key. -/
def decideReview (keys : Keys) : Command ReviewTables (Json × String) := do
  .ensure (r.command ≠ "rerun") (.controller rerunUnavailable)
  .ensure (r.command ∈ safeReviewCommands) (.controller reviewCommandUnavailable)
  let reason ← checked (validateCommandBody r.body)
  match ← query fun t => t.content.reviews.get? r.reviewId with
  | none => .raise (.controller reviewNotFound)
  | some row =>
    match ← query fun t => t.content.runs.get? row.runId with
    | none => .raise (.controller reviewProjectionInvalid)
    | some projectId =>
      .ensure (row.verdict ∈ knownReviewVerdicts) (.controller reviewProjectionInvalid)
      .ensure (¬(r.command = "acknowledge-debt" ∧ row.verdict ≠ "PASS_WITH_DEBT"))
        (.controller debtNotAcknowledgeable)
      .ensure (¬(r.command = "request-human-review" ∧ row.verdict = "HUMAN"))
        (.controller humanReviewRequired)
      match ← query fun t => (t.content.actions.select fun _ a => a.reviewId = r.reviewId).head? with
      | some existing =>
        .raise (.controller (if existing.2.command = r.command then actionRecorded else actionConflict))
      | none => recordReview p r row.runId projectId reason keys

/-- The transaction of a request with its key. -/
def reviewTransaction (key : String) : Command ReviewTables (Nat × Json) := do
  let (replay, keys) ← replayOrReserveReview p r key
  match replay with
  | some payload => return (202, payload)
  | none =>
    let (payload, operationId) ← decideReview p r keys
    completeIdempotency keys payload operationId r.draws.completedAt
    return (202, payload)

/-- `command_review`. -/
def commandReview (t : Ledger ReviewTables) : Except Failure (Nat × Json) × Ledger ReviewTables :=
  match validateIdempotencyKey r.key with
  | .error e => (.error (.controller e), t)
  | .ok key =>
    if isReviewId r.reviewId then Txn.atomically r.draws.failsAfter (reviewTransaction p r key) t
    else (.error (.controller reviewNotFound), t)

/-- The tables, but for the results of the reviews, before the first request. -/
structure Undecided (t : Ledger ReviewTables) : Prop where
  actions : t.content.actions = .empty
  operations : t.records.operations = .empty
  audit : t.records.audit = .empty
  idempotency : t.records.idempotency = .empty
  events : ∀ e ∈ t.content.events, ∀ command, e.eventType ≠ legacyType command
  journal : ∀ e ∈ t.records.journal.rows, ∀ command, e.eventType ≠ journalType command

/-- The requests, each in its transaction, from a database without decisions. -/
def reviewMachine : Schemes.Machine ReviewRequest (Ledger ReviewTables) where
  start := Undecided
  step r t := (commandReview p r t).2

end HermesOps.Controller.Commands
