import HermesOps.Controller.EventJournal
import HermesOps.Controller.JsonText

/-! `event_journal.py` with the data of an event as the text that the table holds: what `emit` inserts,
    with the exception that `json.dumps` may raise, and what `_row_to_envelope` makes of a row, with
    the comparison of the stored text and the text of what was read. -/

namespace HermesOps.Controller

/-- The checks of texts, the floats of the language, and the two functions of SQLite that the table
    applies to the data: the text is JSON and an object. -/
structure Persistence where
  rules : TextRules
  floats : FloatRules
  jsonObject : String → Bool

/-- A row of `controller_event_journal`. -/
structure StoredRow where
  sequence : Nat
  schemaVersion : Nat
  eventId : String
  eventType : String
  occurredAt : String
  actorType : String
  actorId : String
  aggregateType : String
  aggregateId : String
  aggregateRevision : Nat
  projectId : Option String
  objectiveId : Option String
  correlationId : String
  causationId : Option String
  redactedDataJson : String

structure StoredJournal where
  rows : List StoredRow
  lastSequence : Nat

def StoredJournal.empty : StoredJournal := ⟨[], 0⟩

/-- What `emit` raises: a refusal, or the `ValueError` of `json.dumps`. -/
inductive EmitError where
  | controller (e : ControllerError)
  | value
  deriving DecidableEq

variable (p : Persistence)

/-- `_validate_data`: the text to store. -/
def encodeData (data : Json) : Except EmitError String :=
  match data with
  | .obj _ =>
    if (visit p.rules 0 0 data).isSome then
      match dumps data with
      | none => .error .value
      | some encoded =>
        if encoded.utf8ByteSize ≤ maxEventDataBytes then .ok encoded
        else .error (.controller redactionFailed)
    else .error (.controller redactionFailed)
  | _ => .error (.controller redactionFailed)

/-- The row with its data as a value. -/
def StoredRow.withData (r : StoredRow) (data : Json) : JournalRow where
  sequence := r.sequence
  eventId := r.eventId
  eventType := r.eventType
  occurredAt := r.occurredAt
  actorType := r.actorType
  actorId := r.actorId
  aggregateType := r.aggregateType
  aggregateId := r.aggregateId
  aggregateRevision := r.aggregateRevision
  projectId := r.projectId
  objectiveId := r.objectiveId
  correlationId := r.correlationId
  causationId := r.causationId
  redactedData := data

/-- The row that `emit` inserts. -/
def EventInput.storedRow (e : EventInput) (sequence revision : Nat) (encoded : String) : StoredRow where
  sequence
  schemaVersion := 1
  eventId := e.eventId
  eventType := e.eventType
  occurredAt := e.occurredAt
  actorType := e.actorType
  actorId := e.actorId
  aggregateType := e.aggregateType
  aggregateId := e.aggregateId
  aggregateRevision := revision
  projectId := e.projectId
  objectiveId := e.objectiveId
  correlationId := e.correlationId
  causationId := e.causationId
  redactedDataJson := encoded

/-- `COALESCE(MAX(aggregate_revision), 0) + 1`. -/
def StoredJournal.nextRevision (j : StoredJournal) (type id : String) : Nat :=
  ((j.rows.filter fun r => r.aggregateType = type ∧ r.aggregateId = id).map
    StoredRow.aggregateRevision).foldl max 0 + 1

/-- The insertion. -/
def StoredJournal.insert (j : StoredJournal) (r : StoredRow) : Option StoredJournal :=
  if 3 ≤ r.eventType.length ∧ r.eventType.length ≤ 128 ∧ p.rules.timestampGuard r.occurredAt ∧
      (j.rows.all fun x => x.eventId ≠ r.eventId) ∧ r.sequence < 2 ^ 63 ∧
      r.redactedDataJson.length ≤ maxEventDataBytes ∧ p.jsonObject r.redactedDataJson then
    some ⟨j.rows ++ [r], r.sequence⟩
  else none

/-- `emit`, inside a transaction. -/
def StoredJournal.emit (j : StoredJournal) (e : EventInput) :
    Except EmitError (StoredJournal × Envelope) :=
  if ¬e.isValid p.rules then .error (.controller inputInvalid)
  else
    match encodeData p e.data with
    | .error failure => .error failure
    | .ok encoded =>
      let row := e.storedRow (j.lastSequence + 1) (j.nextRevision e.aggregateType e.aggregateId) encoded
      match j.insert p row with
      | some j => .ok (j, (row.withData e.data).envelope)
      | none => .error (.controller journalUnavailable)

/-- `_row_to_envelope`. -/
def StoredRow.toEnvelope (r : StoredRow) : Result Envelope :=
  match loads p.floats r.redactedDataJson with
  | none => .error journalCorrupt
  | some data =>
    match encodeData p data with
    | .error _ => .error journalCorrupt
    | .ok encoded =>
      if p.rules.isTimestamp r.occurredAt ∧ isText r.actorId ∧ isText r.aggregateId ∧
          isOptionalText r.causationId ∧ isOptionalText r.projectId ∧ isOptionalText r.objectiveId ∧
          r.schemaVersion = 1 ∧ 1 ≤ r.sequence ∧ isEventId r.eventId ∧ isEventType r.eventType ∧
          r.actorType ∈ actorTypes ∧ r.aggregateType ∈ aggregateTypes ∧ 1 ≤ r.aggregateRevision ∧
          isCorrelationId r.correlationId ∧ encoded = r.redactedDataJson then
        .ok (r.withData data).envelope
      else .error journalCorrupt

/-- The journal after some calls of `emit`, those that raise leaving it as it is, and what the others
    have returned. -/
def StoredJournal.emitAll (j : StoredJournal) : List EventInput → StoredJournal × List Envelope
  | [] => (j, [])
  | e :: events =>
    match j.emit p e with
    | .ok (next, envelope) =>
      let later := next.emitAll events
      (later.1, envelope :: later.2)
    | .error _ => j.emitAll events

end HermesOps.Controller
