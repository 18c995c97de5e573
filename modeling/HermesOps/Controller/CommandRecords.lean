import HermesOps.Controller.ObjectiveCommands

/-! The records that `project_commands.py` and `hermesfile_lifecycle.py` keep of their commands. The two
    stores have tables of their own, but the columns are the same and so is the code: a request looks
    its idempotency key up, and unless it finds a response it reserves the key, does its work, records
    the operation, the audit row and the event, and writes its response under the key. What the work
    reads and writes is the `content` of the store. -/

namespace HermesOps.Controller.Commands

open Schemes

/-! ### Tables -/

/-- A row of `controller_project_operations` or `controller_hermesfile_operations`. -/
structure OperationRow where
  commandKind : String
  state : String
  targetId : String
  resultJson : Json
  errorCode : Option String
  createdAt : Time
  updatedAt : Time
  finishedAt : Option Time

/-- A row of an audit table; `reason_present` is a column of the project table only. -/
structure AuditRow where
  operationId : String
  actorType : String
  actorId : String
  action : String
  resourceType : String
  resourceId : String
  sessionFingerprint : String
  idempotencyKeyHash : String
  requestHash : String
  outcome : String
  reasonPresent : Option Bool
  createdAt : Time

/-- The tables of a store besides its own; the journal is shared by all of them. -/
structure Records where
  operations : Table String OperationRow
  idempotency : Table (String × String) IdempotencyRow
  audit : Table String AuditRow
  journal : Journal

def Records.empty : Records := ⟨.empty, .empty, .empty, .empty⟩

/-- What a transaction works on. -/
structure Ledger (τ : Type) where
  content : τ
  records : Records

/-- SHA-256 and HMAC-SHA-256 in hexadecimal, the printing of a time, and the checks of the journal. -/
structure Hashing where
  rules : TextRules
  sha256 : String → String
  hmac : String → String → String
  timeText : Time → String

/-- Where the two stores differ. -/
structure Naming where
  keyLabel : String
  resourceType : String
  aggregateType : String

/-- The identifiers and times a request draws, the metadata its factory returns for a revision (none
    when it raises), and the statements the connection executes before it fails. -/
structure Draws where
  operationHex : String
  auditHex : String
  correlationHex : String
  journalHex : String
  reservedAt : Time
  now : Time
  metadata : Nat → Option Json
  failsAfter : Option Nat

/-- A request behind authentication. -/
structure Request where
  session : String
  key : Option String
  route : String
  body : Members
  draws : Draws

/-- What ends a request: a refusal, an encoding error, a violated constraint, a metadata factory that
    raises, a step outside the database, the database itself, or any other exception. -/
inductive Failure where
  | controller (e : ControllerError)
  | encoding
  | integrity
  | metadata
  | file
  | database
  | uncaught
  deriving DecidableEq

abbrev Command (τ α : Type) := Txn Failure (Ledger τ) α

variable {τ α : Type}

/-- A computation that raises a `ControllerError`. -/
def checked (r : Result α) : Command τ α := .lift (r.mapError Failure.controller)

def refuse (status : Nat) (code title : String) : Command τ α :=
  .raise (.controller { status, code, title })

/-- A `SELECT`. -/
def query (f : Ledger τ → α) : Command τ α := .statement .database fun t => .ok (f t, t)

/-- An `INSERT` or `UPDATE`; nothing is a violated constraint. -/
def execute (f : Ledger τ → Option (Ledger τ)) : Command τ Unit :=
  .statement .database fun t =>
    match f t with
    | some t => .ok ((), t)
    | none => .error .integrity

def preconditionRequired : ControllerError :=
  { status := 428, code := "precondition_required", title := "If-Match is required" }

def invalidIfMatch : ControllerError :=
  { status := 400, code := "invalid_if_match", title := "Invalid If-Match" }

/-- `_parse_if_match`: a positive decimal number between quotation marks. -/
def parseIfMatch : Option String → Result Nat
  | none => .error preconditionRequired
  | some value =>
    match value.toList with
    | '"' :: rest =>
      let digits := rest.dropLast
      let revision := digits.foldl (fun m c => 10 * m + (c.toNat - 48)) 0
      if rest.getLast? ≠ some '"' ∨ ¬digits.all isDigit ∨ digits.head?.all (· = '0') then
        .error preconditionRequired
      else if revision < 2 ^ 63 then .ok revision
      else .error invalidIfMatch
    | _ => .error preconditionRequired

/-! ### Idempotency -/

variable (p : Hashing) (n : Naming)

/-- `_session_fingerprint`. -/
def sessionFingerprint (session : String) : String := (String.ofList ((p.sha256 session).toList.take 32))

/-- `_key_hash`. -/
def keyHash (session idempotencyKey : String) : String := p.hmac session (n.keyLabel ++ idempotencyKey)

/-- The text that `_request_hash` hashes. -/
def requestText (method route : String) (body : Members) : String :=
  canonicalJson (.obj [("body", .obj body), ("method", .str method), ("route", .str route)])

/-- `_request_hash`. -/
def requestHash (method route : String) (body : Members) : String := p.sha256 (requestText method route body)

/-- The key a request's record stands under, and the hash of the request. -/
def keysOf (session idempotencyKey method route : String) (body : Members) : Keys where
  sessionFp := sessionFingerprint p session
  keyHash := keyHash p n session idempotencyKey
  requestHash := requestHash p method route body

def idempotencyConflict : ControllerError :=
  { status := 409, code := "idempotency_conflict", title := "Idempotency key conflict" }

def reservationInvalid : ControllerError where
  status := 409
  code := "idempotency_reservation_invalid"
  title := "Idempotency reservation is incomplete"

/-- What a record answers to a request. -/
def recorded (keys : Keys) (method route : String) (row : IdempotencyRow) : Result Json :=
  if row.method ≠ method ∨ row.route ≠ route ∨ row.requestHash ≠ keys.requestHash then
    .error idempotencyConflict
  else
    match row.responseJson with
    | none => .error reservationInvalid
    | some response => .ok response

/-- `_replay_or_reserve`; the table admits a route of 1 to 512 characters. -/
def replayOrReserve (session idempotencyKey method route : String) (body : Members) (now : Time) :
    Command τ (Option Json × Keys) := do
  .ensure (isAscii session) .encoding
  let keys := keysOf p n session idempotencyKey method route body
  match ← query fun t => t.records.idempotency.get? (keys.sessionFp, keys.keyHash) with
  | some row =>
    let response ← checked (recorded keys method route row)
    return (some response, keys)
  | none =>
    execute fun t =>
      if 1 ≤ route.length ∧ route.length ≤ 512 then
        (t.records.idempotency.insert (keys.sessionFp, keys.keyHash)
          { method, route, requestHash := keys.requestHash, responseStatus := none,
            responseJson := none, operationId := none, createdAt := now, completedAt := none }).map
          fun idempotency => { t with records := { t.records with idempotency } }
      else none
    return (none, keys)

/-- The row once its response is there. -/
def completedRow (payload : Json) (operationId : String) (now : Time) (row : IdempotencyRow) :
    IdempotencyRow :=
  { row with
    responseStatus := some 202
    responseJson := some payload
    operationId := some operationId
    completedAt := some now }

/-- `_complete_idempotency`. -/
def completeIdempotency (keys : Keys) (payload : Json) (operationId : String) (now : Time) :
    Command τ Unit :=
  execute fun t => some { t with
    records := { t.records with
      idempotency := t.records.idempotency.updateAt (keys.sessionFp, keys.keyHash)
        (completedRow payload operationId now) } }

/-- A request in its transaction: the recorded response, or the work and the recording of its response. -/
def answer (method : String) (r : Request) (key : String) (work : Keys → Command τ (Json × String)) :
    Command τ Json := do
  let (replay, keys) ← replayOrReserve p n r.session key method r.route r.body r.draws.reservedAt
  match replay with
  | some payload => return payload
  | none =>
    let (payload, operationId) ← work keys
    completeIdempotency keys payload operationId r.draws.now
    return payload

/-! ### Operations, audit and events -/

/-- `int(digits, 16)`. -/
def hexNumber (digits : List Char) : Nat :=
  digits.foldl (fun m c => 16 * m + if isDigit c then c.toNat - 48 else c.toNat - 87) 0

/-- `_operation_payload` of the row that `_record_operation` inserts; the revision is a digest of the
    other members. -/
def operationPayload (operationId kind targetId createdAt : String) (result : Members) : Json :=
  let first : Members := [
    ("created_at", .str createdAt),
    ("error", .null),
    ("finished_at", .str createdAt),
    ("id", .str operationId),
    ("kind", .str kind)]
  let last : Members := [
    ("result", .obj result),
    ("state", .str "succeeded"),
    ("target", .obj [("id", .str targetId), ("type", .str n.resourceType)]),
    ("updated_at", .str createdAt)]
  let digest := p.sha256 (canonicalJson (.obj (first ++ last)))
  .obj (first ++ [("resource_revision", .int (hexNumber (digest.toList.take 15)))] ++ last)

/-- `_record_operation`. -/
def recordOperation (operationId kind targetId : String) (result : Members) (now : Time) :
    Command τ Json := do
  execute fun t =>
    if isPrefixedHex "operation-" operationId then
      (t.records.operations.insert operationId
        { commandKind := kind, state := "SUCCEEDED", targetId, resultJson := .obj result,
          errorCode := none, createdAt := now, updatedAt := now, finishedAt := some now }).map
        fun operations => { t with records := { t.records with operations } }
    else none
  query fun _ => operationPayload p n operationId kind targetId (p.timeText now) result

/-- `_audit`; `operation_id` is `UNIQUE`. -/
def audit (auditId operationId action targetId : String) (keys : Keys) (reason : Option Bool)
    (now : Time) : Command τ Unit :=
  execute fun t =>
    if t.records.audit.any fun _ a => a.operationId = operationId then none
    else if isPrefixedHex "audit-" auditId then
      (t.records.audit.insert auditId
        { operationId, actorType := "session", actorId := "operator", action,
          resourceType := n.resourceType, resourceId := targetId,
          sessionFingerprint := keys.sessionFp, idempotencyKeyHash := keys.keyHash,
          requestHash := keys.requestHash, outcome := "SUCCEEDED", reasonPresent := reason,
          createdAt := now }).map fun audit => { t with records := { t.records with audit } }
    else none

/-- `_emit`. -/
def emit (eventType targetId operationId : String) (projectId : Option String) (data : Members)
    (d : Draws) : Command τ Unit :=
  .statement .database fun t =>
    match t.records.journal.emit p.rules
      { eventType, actorType := "operator", actorId := "operator", aggregateType := n.aggregateType,
        aggregateId := targetId, correlationId := "corr_" ++ d.correlationHex, data := .obj data,
        causationId := some operationId, projectId, objectiveId := none,
        eventId := "evt_" ++ d.journalHex, occurredAt := p.timeText d.now } with
    | .ok (journal, _) => .ok ((), { t with records := { t.records with journal } })
    | .error e => .error (.controller e)

/-- What an accepted command reports. -/
structure Report where
  kind : String
  eventType : String
  targetId : String
  projectId : Option String
  result : Members
  data : Members
  reason : Option Bool
  revision : Nat

/-- The records every accepted command ends with, and its response. -/
def conclude (o : Report) (keys : Keys) (d : Draws) : Command τ (Json × String) := do
  let operationId := "operation-" ++ d.operationHex
  let operation ← recordOperation p n operationId o.kind o.targetId o.result d.now
  audit n ("audit-" ++ d.auditHex) operationId o.kind o.targetId keys o.reason d.now
  emit p n o.eventType o.targetId operationId o.projectId o.data d
  match d.metadata o.revision with
  | some metadata => return (.obj [("data", operation), ("meta", metadata)], operationId)
  | none => .raise .metadata

/-! ### What the records leave alone -/

section Keeps

variable {γ : Type} {π : Ledger τ → γ}

theorem keeps_query {f : Ledger τ → α} : Txn.Keeps π (query f) :=
  .statement fun s a s' h => by cases h; rfl

theorem keeps_execute {f : Ledger τ → Option (Ledger τ)} (h : ∀ t t', f t = some t' → π t' = π t) :
    Txn.Keeps π (execute f) := by
  refine .statement fun s a s' hs => ?_
  split at hs
  · rename_i t ht
    cases hs
    exact h s _ ht
  · cases hs

theorem keeps_checked {r : Result α} : Txn.Keeps π (checked r : Command τ α) := .lift

end Keeps

variable {p n}

theorem content_replayOrReserve {session key method route : String} {body : Members} {now : Time} :
    Txn.Keeps (Ledger.content (τ := τ)) (replayOrReserve p n session key method route body now) := by
  refine .bind .ensure fun _ => .bind keeps_query fun row => ?_
  split
  · exact .bind keeps_checked fun _ => .pure
  · refine .bind (keeps_execute fun t t' h => ?_) fun _ => .pure
    split at h
    · obtain ⟨_, -, rfl⟩ := Option.map_eq_some_iff.1 h
      rfl
    · cases h

theorem content_completeIdempotency {keys : Keys} {payload : Json} {operationId : String} {now : Time} :
    Txn.Keeps (Ledger.content (τ := τ)) (completeIdempotency keys payload operationId now) :=
  keeps_execute fun t t' h => by cases h; rfl

theorem content_conclude {o : Report} {keys : Keys} {d : Draws} :
    Txn.Keeps (Ledger.content (τ := τ)) (conclude p n o keys d) := by
  refine .bind (.bind (keeps_execute fun t t' h => ?_) fun _ => keeps_query) fun _ =>
    .bind (keeps_execute fun t t' h => ?_) fun _ => .bind (.statement fun t a t' h => ?_) fun _ => ?_
  · split at h
    · obtain ⟨_, -, rfl⟩ := Option.map_eq_some_iff.1 h
      rfl
    · cases h
  · split at h
    · cases h
    · split at h
      · obtain ⟨_, -, rfl⟩ := Option.map_eq_some_iff.1 h
        rfl
      · cases h
  · split at h
    · cases h
      rfl
    · cases h
  · split
    · exact .pure
    · exact .raise

/-! ### One request -/

variable {w w' : Work (Ledger τ)}

theorem query_ok {f : Ledger τ → α} {a : α} (h : query f w = (.ok a, w')) :
    a = f w.state ∧ w'.state = w.state := by
  have hs := Txn.statement_ok h
  simp only [Except.ok.injEq, Prod.mk.injEq] at hs
  exact ⟨hs.1.symm, hs.2.symm⟩

theorem execute_ok {f : Ledger τ → Option (Ledger τ)} {u : Unit} (h : execute f w = (.ok u, w')) :
    f w.state = some w'.state := by
  have hs := Txn.statement_ok h
  split at hs
  · rename_i t ht
    cases hs
    exact ht
  · cases hs

theorem checked_ok {r : Result α} {a : α} :
    (checked r : Command τ α) w = (.ok a, w') ↔ r = .ok a ∧ w = w' := by
  rw [checked, Txn.lift_ok]
  cases r <;> simp [Except.mapError]

/-- The row of a reserved key. -/
def reservedRow (r : Request) (method : String) (keys : Keys) : IdempotencyRow where
  method
  route := r.route
  requestHash := keys.requestHash
  responseStatus := none
  responseJson := none
  operationId := none
  createdAt := r.draws.reservedAt
  completedAt := none

/-- The keys of a request under an idempotency key. -/
def Request.keys (p : Hashing) (n : Naming) (method : String) (r : Request) (key : String) : Keys :=
  keysOf p n r.session key method r.route r.body

/-- The place of a record. -/
def Request.place (p : Hashing) (n : Naming) (r : Request) (key : String) : String × String :=
  (sessionFingerprint p r.session, keyHash p n r.session key)

/-- A key with a record gives its response; a free key is reserved. -/
theorem replayOrReserve_ok {method : String} {r : Request} {key : String} {answer : Option Json}
    {keys : Keys} (h : replayOrReserve p n r.session key method r.route r.body r.draws.reservedAt w =
      (.ok (answer, keys), w')) :
    keys = r.keys p n method key ∧
      ((∃ row response, w.state.records.idempotency.get? (r.place p n key) = some row ∧
          recorded keys method r.route row = .ok response ∧ answer = some response ∧ w'.state = w.state) ∨
        (answer = none ∧ w.state.records.idempotency.get? (r.place p n key) = none ∧
          ∃ idempotency, w.state.records.idempotency.insert (r.place p n key)
              (reservedRow r method keys) = some idempotency ∧
            w'.state = { w.state with records := { w.state.records with idempotency } })) := by
  obtain ⟨_, w₁, hascii, h⟩ := Txn.bind_ok.1 h
  obtain ⟨-, rfl⟩ := Txn.ensure_ok.1 hascii
  obtain ⟨found, w₂, hfound, h⟩ := Txn.bind_ok.1 h
  obtain ⟨hlookup, hstate⟩ := query_ok hfound
  cases found with
  | some row =>
    obtain ⟨response, w₃, hresponse, h⟩ := Txn.bind_ok.1 h
    obtain ⟨hrecorded, rfl⟩ := checked_ok.1 hresponse
    obtain ⟨hpair, rfl⟩ := Txn.pure_ok.1 h
    obtain ⟨rfl, rfl⟩ := Prod.mk.inj hpair
    exact ⟨rfl, Or.inl ⟨row, response, hlookup.symm, hrecorded, rfl, hstate⟩⟩
  | none =>
    obtain ⟨_, w₃, hreserve, h⟩ := Txn.bind_ok.1 h
    have hinsert := execute_ok hreserve
    obtain ⟨hpair, rfl⟩ := Txn.pure_ok.1 h
    obtain ⟨rfl, rfl⟩ := Prod.mk.inj hpair
    split at hinsert
    · obtain ⟨idempotency, hinsert, heq⟩ := Option.map_eq_some_iff.1 hinsert
      rw [hstate] at hinsert heq
      exact ⟨rfl, Or.inr ⟨rfl, hlookup.symm, idempotency, hinsert, heq.symm⟩⟩
    · cases hinsert

/-- A request that returns was answered from its record, or has done its work under a reserved key and
    left its response there. -/
theorem answer_ok {method : String} {r : Request} {key : String}
    {work : Keys → Command τ (Json × String)} {payload : Json}
    (h : answer p n method r key work w = (.ok payload, w')) :
    (∃ row, w.state.records.idempotency.get? (r.place p n key) = some row ∧
        recorded (r.keys p n method key) method r.route row = .ok payload ∧ w'.state = w.state) ∨
      (w.state.records.idempotency.get? (r.place p n key) = none ∧
        ∃ idempotency operationId w₁ w₂,
          w.state.records.idempotency.insert (r.place p n key)
            (reservedRow r method (r.keys p n method key)) = some idempotency ∧
          w₁.state = { w.state with records := { w.state.records with idempotency } } ∧
          work (r.keys p n method key) w₁ = (.ok (payload, operationId), w₂) ∧
          w'.state = { w₂.state with
            records := { w₂.state.records with
              idempotency := w₂.state.records.idempotency.updateAt (r.place p n key)
                (completedRow payload operationId r.draws.now) } }) := by
  obtain ⟨⟨replay, keys⟩, w₁, hreserve, h⟩ := Txn.bind_ok.1 h
  obtain ⟨rfl, hcase⟩ := replayOrReserve_ok hreserve
  rcases hcase with ⟨row, response, hrow, hrecorded, rfl, hstate⟩ | ⟨rfl, hnone, idempotency, hinsert, hstate⟩
  · obtain ⟨rfl, rfl⟩ := Txn.pure_ok.1 h
    exact Or.inl ⟨row, hrow, hrecorded, hstate⟩
  · obtain ⟨⟨payload', operationId⟩, w₂, hwork, h⟩ := Txn.bind_ok.1 h
    obtain ⟨_, w₃, hcomplete, h⟩ := Txn.bind_ok.1 h
    obtain ⟨rfl, rfl⟩ := Txn.pure_ok.1 h
    have hstate' := execute_ok hcomplete
    exact Or.inr ⟨hnone, idempotency, operationId, w₁, w₂, hinsert, hstate, hwork,
      (Option.some.inj hstate').symm⟩

/-- The content afterwards is what it was, or what the work left. -/
theorem answer_content {method : String} {r : Request} {key : String}
    {work : Keys → Command τ (Json × String)} {payload : Json}
    (h : answer p n method r key work w = (.ok payload, w')) :
    (w'.state = w.state ∧ (w.state.records.idempotency.get? (r.place p n key)).isSome) ∨
      (w.state.records.idempotency.get? (r.place p n key) = none ∧
        ∃ operationId w₁ w₂, w₁.state.content = w.state.content ∧
          work (r.keys p n method key) w₁ = (.ok (payload, operationId), w₂) ∧
          w'.state.content = w₂.state.content) := by
  rcases answer_ok h with ⟨row, hrow, -, hstate⟩ | ⟨hnone, _, operationId, w₁, w₂, -, hw₁, hwork, hw'⟩
  · exact Or.inl ⟨hstate, by rw [hrow]; rfl⟩
  · exact Or.inr ⟨hnone, operationId, w₁, w₂, by rw [hw₁], hwork, by rw [hw']⟩

/-! ### A request that nothing disturbs -/

theorem run_execute {f : Ledger τ → Option (Ledger τ)} {t u : Ledger τ} (h : f t = some u) :
    execute f ⟨t, none⟩ = (.ok (), ⟨u, none⟩) := by
  rw [execute, Txn.run_statement, h]

theorem run_execute_none {f : Ledger τ → Option (Ledger τ)} {t : Ledger τ} (h : f t = none) :
    execute f ⟨t, none⟩ = (.error .integrity, ⟨t, none⟩) := by
  rw [execute, Txn.run_statement, h]

theorem run_query {f : Ledger τ → α} {t : Ledger τ} :
    query f ⟨t, none⟩ = (.ok (f t), ⟨t, none⟩) := rfl

/-- The request carries a session and a route as the server passes them, its key is unused, the
    identifiers it draws are new, and the clock, the metadata, the key space of the journal and the
    connection do not fail it. -/
structure Undisturbed (p : Hashing) (n : Naming) (r : Request) (records : Records) : Prop where
  session : isAscii r.session = true
  route : 1 ≤ r.route.length ∧ r.route.length ≤ 512
  unused : ∀ key, r.key = some key → records.idempotency.get? (r.place p n key) = none
  connection : r.draws.failsAfter = none
  operationHex : isUuidHex r.draws.operationHex = true
  auditHex : isUuidHex r.draws.auditHex = true
  correlationHex : isUuidHex r.draws.correlationHex = true
  journalHex : isUuidHex r.draws.journalHex = true
  operation : records.operations.get? ("operation-" ++ r.draws.operationHex) = none
  unaudited : records.audit.any (fun _ a => a.operationId = "operation-" ++ r.draws.operationHex) = false
  audit : records.audit.get? ("audit-" ++ r.draws.auditHex) = none
  event : ∀ x ∈ records.journal.rows, x.eventId ≠ "evt_" ++ r.draws.journalHex
  time : p.rules.isTimestamp (p.timeText r.draws.now) = true
  timeGuard : p.rules.timestampGuard (p.timeText r.draws.now) = true
  space : records.journal.lastSequence + 1 < 2 ^ 63
  metadata : ∀ revision, (r.draws.metadata revision).isSome = true

/-- The reservation leaves the request undisturbed but for its key. -/
theorem replayOrReserve_run (method : String) {key : String} {r : Request} {t : Ledger τ}
    (h : Undisturbed p n r t.records) (hkey : r.key = some key) :
    ∃ idempotency, replayOrReserve p n r.session key method r.route r.body r.draws.reservedAt ⟨t, none⟩ =
      (.ok (none, r.keys p n method key),
        ⟨{ t with records := { t.records with idempotency } }, none⟩) := by
  have hunused := h.unused key hkey
  obtain ⟨idempotency, hinsert⟩ := Table.insert_of_get?_eq_none hunused
    (reservedRow r method (r.keys p n method key))
  have hensure : (Txn.ensure (isAscii r.session) .encoding : Command τ Unit) ⟨t, none⟩ =
      (.ok (), ⟨t, none⟩) := by rw [h.session]; rfl
  refine ⟨idempotency, ?_⟩
  rw [replayOrReserve, Txn.run_bind_of_ok hensure, Txn.run_bind_of_ok run_query]
  rw [show t.records.idempotency.get? ((keysOf p n r.session key method r.route r.body).sessionFp,
    (keysOf p n r.session key method r.route r.body).keyHash) = none from hunused]
  refine (Txn.run_bind_of_ok (run_execute (u := { t with
    records := { t.records with idempotency } }) ?_)).trans rfl
  rw [if_pos h.route]
  exact (congrArg _ hinsert).trans rfl

/-- The work of an undisturbed request decides how it ends. -/
theorem answer_run (method : String) (work : Keys → Command τ (Json × String)) {key : String}
    {r : Request} {t : Ledger τ} (h : Undisturbed p n r t.records)
    (hkey : r.key = some key) :
    ∃ idempotency,
      match work (r.keys p n method key)
        ⟨{ t with records := { t.records with idempotency } }, none⟩ with
      | (.error e, _) => (answer p n method r key work ⟨t, none⟩).1 = .error e
      | (.ok (payload, _), w) => w.left = none →
          ∃ w', answer p n method r key work ⟨t, none⟩ = (.ok payload, w') ∧
            w'.state.content = w.state.content := by
  obtain ⟨idempotency, hreserve⟩ := replayOrReserve_run method h hkey
  refine ⟨idempotency, ?_⟩
  rcases hwork : work (r.keys p n method key)
    ⟨{ t with records := { t.records with idempotency } }, none⟩ with ⟨result, w⟩
  have hrun : answer p n method r key work ⟨t, none⟩ =
      (work (r.keys p n method key) >>= fun x =>
        completeIdempotency (r.keys p n method key) x.1 x.2 r.draws.now >>= fun _ => pure x.1)
        ⟨{ t with records := { t.records with idempotency } }, none⟩ := by
    rw [answer, Txn.run_bind_of_ok hreserve]
  cases result with
  | error e =>
    simp only
    rw [hrun, Txn.run_bind_of_error hwork]
  | ok x =>
    obtain ⟨payload, operationId⟩ := x
    obtain ⟨state, left⟩ := w
    rintro ⟨⟩
    rw [hrun, Txn.run_bind_of_ok hwork]
    exact ⟨_, rfl, rfl⟩

/-- What the records ask of a report. -/
structure Report.Valid (p : Hashing) (n : Naming) (o : Report) : Prop where
  target : isText o.targetId = true
  project : isOptionalText o.projectId = true
  event : isEventType o.eventType = true ∧ 3 ≤ o.eventType.length ∧ o.eventType.length ≤ 128
  aggregate : n.aggregateType ∈ aggregateTypes
  data : validateData p.rules (.obj o.data) = true

/-- The records of an accepted command can be written. -/
theorem conclude_run (keys : Keys) {r : Request} {t : Ledger τ} {o : Report}
    {idempotency : Table (String × String) IdempotencyRow} {records : Records}
    (h : Undisturbed p n r records) (ho : o.Valid p n)
    (ht : t.records = { records with idempotency }) :
    ∃ metadata records', conclude p n o keys r.draws ⟨t, none⟩ =
      (.ok (.obj [("data", operationPayload p n ("operation-" ++ r.draws.operationHex) o.kind o.targetId
        (p.timeText r.draws.now) o.result), ("meta", metadata)], "operation-" ++ r.draws.operationHex),
        ⟨{ t with records := records' }, none⟩) := by
  obtain ⟨metadata, hmetadata⟩ := Option.isSome_iff_exists.1 (h.metadata o.revision)
  obtain ⟨operations, hoperation⟩ := Table.insert_of_get?_eq_none h.operation
    { commandKind := o.kind, state := "SUCCEEDED", targetId := o.targetId, resultJson := .obj o.result,
      errorCode := none, createdAt := r.draws.now, updatedAt := r.draws.now,
      finishedAt := some r.draws.now }
  obtain ⟨audited, haudit⟩ := Table.insert_of_get?_eq_none h.audit
    { operationId := "operation-" ++ r.draws.operationHex, actorType := "session",
      actorId := "operator", action := o.kind, resourceType := n.resourceType,
      resourceId := o.targetId, sessionFingerprint := keys.sessionFp,
      idempotencyKeyHash := keys.keyHash, requestHash := keys.requestHash, outcome := "SUCCEEDED",
      reasonPresent := o.reason, createdAt := r.draws.now }
  have hcausation : isText ("operation-" ++ r.draws.operationHex) = true :=
    isText_of_prefixedHex "operation-" (by decide) (by decide) (isPrefixedHex_append h.operationHex)
  have hfixed : "operator" ∈ actorTypes ∧ isText "operator" = true := by decide
  let event : EventInput :=
    { eventType := o.eventType, actorType := "operator", actorId := "operator",
      aggregateType := n.aggregateType, aggregateId := o.targetId,
      correlationId := "corr_" ++ r.draws.correlationHex, data := .obj o.data,
      causationId := some ("operation-" ++ r.draws.operationHex), projectId := o.projectId,
      objectiveId := none, eventId := "evt_" ++ r.draws.journalHex,
      occurredAt := p.timeText r.draws.now }
  have hvalid : event.isValid p.rules = true :=
    decide_eq_true ⟨ho.event.1, hfixed.1, ho.aggregate, hfixed.2, ho.target, ho.project, rfl,
      hcausation, isPrefixedHex_append h.correlationHex, isPrefixedHex_append h.journalHex, h.time⟩
  obtain ⟨journal, envelope, hemit⟩ :=
    emit_accepts hvalid ho.data ho.event.2 h.timeGuard h.event h.space
  obtain ⟨content, _⟩ := t
  obtain rfl := ht
  refine ⟨metadata, ⟨operations, idempotency, audited, journal⟩, ?_⟩
  have hrecord : recordOperation p n ("operation-" ++ r.draws.operationHex) o.kind o.targetId o.result
      r.draws.now ⟨⟨content, { records with idempotency }⟩, none⟩ =
        (.ok (operationPayload p n ("operation-" ++ r.draws.operationHex) o.kind o.targetId
          (p.timeText r.draws.now) o.result),
          ⟨⟨content, { records with idempotency, operations }⟩, none⟩) := by
    rw [recordOperation, Txn.run_bind_of_ok (run_execute ?_), run_query]
    rw [if_pos (isPrefixedHex_append h.operationHex)]
    exact (congrArg _ hoperation).trans rfl
  have haudited : Commands.audit n ("audit-" ++ r.draws.auditHex)
      ("operation-" ++ r.draws.operationHex) o.kind o.targetId keys o.reason r.draws.now
      ⟨⟨content, { records with idempotency, operations }⟩, none⟩ =
        (.ok (), ⟨⟨content, { records with idempotency, operations, audit := audited }⟩, none⟩) := by
    refine run_execute ?_
    rw [if_neg (by rw [h.unaudited]; exact Bool.false_ne_true), if_pos (isPrefixedHex_append h.auditHex)]
    exact (congrArg _ haudit).trans rfl
  have hemitted : emit p n o.eventType o.targetId ("operation-" ++ r.draws.operationHex) o.projectId
      o.data r.draws ⟨⟨content, { records with idempotency, operations, audit := audited }⟩, none⟩ =
        (.ok (), ⟨⟨content, ⟨operations, idempotency, audited, journal⟩⟩, none⟩) := by
    rw [emit, Txn.run_statement]
    simp only [event] at hemit
    simp only [hemit]
  unfold conclude
  rw [Txn.run_bind_of_ok hrecord, Txn.run_bind_of_ok haudited, Txn.run_bind_of_ok hemitted]
  simp only [hmetadata]
  rfl

end HermesOps.Controller.Commands
