import Mathlib.Data.List.Sort
import HermesOps.Controller.Values
import HermesOps.Schemes.Machine
import Mathlib.Algebra.Group.Nat.Defs

/-! `event_journal.py` with the table `controller_event_journal`: what `EventJournal.emit` appends in
    the transaction it is called in, and what `EventJournal.read_after` reads back. The table's
    triggers refuse every update and every deletion, so a journal is a list that grows at its end,
    with the counter of its `AUTOINCREMENT` key. The two regular expressions that look for secrets
    and the two checks of a timestamp are parameters: no property below depends on them. -/

namespace HermesOps.Controller

/-- The checks on texts that are not spelled out: `_key_is_sensitive`, `_FORBIDDEN_VALUE.search`,
    `_validate_timestamp`, and the timestamp trigger of the table. -/
structure TextRules where
  keyIsSensitive : String → Bool
  forbiddenValue : String → Bool
  isTimestamp : String → Bool
  timestampGuard : String → Bool

def actorTypes : List String := ["operator", "system", "agent", "worker"]

def aggregateTypes : List String :=
  [ "system", "project", "objective", "task", "run", "review", "recovery", "sandbox",
    "sandbox_build", "backup", "notification", "confirmation", "audit" ]

def maxEventDataBytes : Nat := 16384
def maxEventStringLength : Nat := 4096
def maxEventDepth : Nat := 8
def maxEventNodes : Nat := 512
def maxReplayLimit : Nat := 500

/-! ### Patterns -/

def isLowerLetter (c : Char) : Bool := 97 ≤ c.toNat ∧ c.toNat ≤ 122

def isDigit (c : Char) : Bool := 48 ≤ c.toNat ∧ c.toNat ≤ 57

def isWordChar (c : Char) : Bool := isLowerLetter c || isDigit c || c = '_'

def isHexChar (c : Char) : Bool := isDigit c || (97 ≤ c.toNat ∧ c.toNat ≤ 102)

/-- `EVENT_TYPE_PATTERN`: at least two words, separated by dots, each a letter with more of
    `[a-z0-9_]`. -/
def isEventType (s : String) : Bool :=
  let words := s.toList.splitOn '.'
  2 ≤ words.length ∧ words.all fun word => word.head?.any isLowerLetter ∧ word.all isWordChar

def isPrefixedHex (lead : String) (s : String) : Bool :=
  s.toList.take lead.length = lead.toList ∧ (s.toList.drop lead.length).length = 32 ∧
    (s.toList.drop lead.length).all isHexChar

/-- `EVENT_ID_PATTERN`. -/
def isEventId : String → Bool := isPrefixedHex "evt_"

/-- `CORRELATION_ID_PATTERN`. -/
def isCorrelationId : String → Bool := isPrefixedHex "corr_"

def hasControl (s : String) : Bool := s.toList.any fun c => c.toNat < 32

/-! ### Validation -/

def inputInvalid : ControllerError :=
  { status := 503, code := "event_journal_input_invalid", title := "Event journal input is invalid" }

def redactionFailed : ControllerError where
  status := 503
  code := "event_journal_redaction_failed"
  title := "Event data could not be safely persisted"

def journalUnavailable : ControllerError :=
  { status := 503, code := "event_journal_unavailable", title := "Event journal unavailable" }

def journalCorrupt : ControllerError where
  status := 503
  code := "event_journal_corrupt"
  title := "Event journal projection unavailable"

/-- `_validate_text` of a value that is present. -/
def isText (s : String) : Bool := s ≠ "" ∧ s.length ≤ 200 ∧ ¬hasControl s

/-- `_validate_text` with `required=False`. -/
def isOptionalText (s : Option String) : Bool := s.all isText

def isDataString (rules : TextRules) (s : String) : Bool :=
  s.length ≤ maxEventStringLength ∧
    (s.toList.all fun c => 32 ≤ c.toNat ∨ c.toNat = 9 ∨ c.toNat = 10 ∨ c.toNat = 13) ∧
    ¬rules.forbiddenValue s

def isDataKey (rules : TextRules) (k : String) : Bool :=
  k ≠ "" ∧ k.length ≤ 128 ∧ ¬rules.keyIsSensitive k ∧ ¬hasControl k

def isFiniteRepr (repr : String) : Bool := repr ∉ ["nan", "inf", "-inf", "NaN", "Infinity", "-Infinity"]

mutual

/-- `visit`: the number of nodes seen so far, or nothing when the data is refused. -/
def visit (rules : TextRules) (nodes depth : Nat) (value : Json) : Option Nat :=
  if nodes + 1 > maxEventNodes ∨ depth > maxEventDepth then none
  else
    match value with
    | .null | .bool _ | .int _ => some (nodes + 1)
    | .float repr => if isFiniteRepr repr then some (nodes + 1) else none
    | .str s => if isDataString rules s then some (nodes + 1) else none
    | .arr items => visitItems rules (nodes + 1) (depth + 1) items
    | .obj members => visitMembers rules (nodes + 1) (depth + 1) members

def visitItems (rules : TextRules) (nodes depth : Nat) : List Json → Option Nat
  | [] => some nodes
  | x :: xs => (visit rules nodes depth x).bind fun n => visitItems rules n depth xs

def visitMembers (rules : TextRules) (nodes depth : Nat) : List (String × Json) → Option Nat
  | [] => some nodes
  | (k, x) :: xs =>
    if isDataKey rules k then
      (visit rules nodes depth x).bind fun n => visitMembers rules n depth xs
    else none

end

/-- `_validate_data`; the column holds the text of the value, here the value itself. -/
def validateData (rules : TextRules) (data : Json) : Bool :=
  match data with
  | .obj _ => (visit rules 0 0 data).isSome && (canonicalJson data).utf8ByteSize ≤ maxEventDataBytes
  | _ => false

/-! ### The table -/

/-- A row of `controller_event_journal`; `schema_version` is 1 in every row. -/
structure JournalRow where
  sequence : Nat
  eventId : String
  eventType : String
  occurredAt : String
  actorType : String
  actorId : String
  aggregateType : String
  aggregateId : String
  aggregateRevision : Nat
  projectId : Option String
  objectiveId : Option String
  correlationId : String
  causationId : Option String
  redactedData : Json

/-- The rows in the order of their insertion, and the counter in `sqlite_sequence`. -/
structure Journal where
  rows : List JournalRow
  lastSequence : Nat

def Journal.empty : Journal := ⟨[], 0⟩

/-- The arguments of `emit`, with the identifier and the time already drawn. -/
structure EventInput where
  eventType : String
  actorType : String
  actorId : String
  aggregateType : String
  aggregateId : String
  correlationId : String
  data : Json
  causationId : Option String
  projectId : Option String
  objectiveId : Option String
  eventId : String
  occurredAt : String

structure Actor where
  type : String
  id : String

structure Aggregate where
  type : String
  id : String
  revision : Nat

/-- An EVENTS_V1 envelope. -/
structure Envelope where
  sequence : Nat
  eventId : String
  type : String
  occurredAt : String
  actor : Actor
  aggregate : Aggregate
  correlationId : String
  causationId : Option String
  projectId : Option String
  objectiveId : Option String
  data : Json

/-- The event is of the aggregate. -/
def JournalRow.isOf (type id : String) (r : JournalRow) : Bool :=
  r.aggregateType = type ∧ r.aggregateId = id

/-- `COALESCE(MAX(aggregate_revision), 0) + 1`. -/
def Journal.nextRevision (j : Journal) (type id : String) : Nat :=
  ((j.rows.filter (JournalRow.isOf type id)).map JournalRow.aggregateRevision).foldl max 0 + 1

/-- The checks of `emit` before it touches the table. -/
def EventInput.isValid (rules : TextRules) (e : EventInput) : Bool :=
  isEventType e.eventType ∧ e.actorType ∈ actorTypes ∧ e.aggregateType ∈ aggregateTypes ∧
    isText e.actorId ∧ isText e.aggregateId ∧ isOptionalText e.projectId ∧
    isOptionalText e.objectiveId ∧ isOptionalText e.causationId ∧ isCorrelationId e.correlationId ∧
    isEventId e.eventId ∧ rules.isTimestamp e.occurredAt

def EventInput.row (e : EventInput) (sequence revision : Nat) : JournalRow where
  sequence
  eventId := e.eventId
  eventType := e.eventType
  occurredAt := e.occurredAt
  actorType := e.actorType
  actorId := e.actorId
  aggregateType := e.aggregateType
  aggregateId := e.aggregateId
  aggregateRevision := revision
  projectId := e.projectId
  objectiveId := e.objectiveId
  correlationId := e.correlationId
  causationId := e.causationId
  redactedData := e.data

/-- The dictionary that `emit` returns and that `_row_to_envelope` rebuilds. -/
def JournalRow.envelope (r : JournalRow) : Envelope where
  sequence := r.sequence
  eventId := r.eventId
  type := r.eventType
  occurredAt := r.occurredAt
  actor := ⟨r.actorType, r.actorId⟩
  aggregate := ⟨r.aggregateType, r.aggregateId, r.aggregateRevision⟩
  correlationId := r.correlationId
  causationId := r.causationId
  projectId := r.projectId
  objectiveId := r.objectiveId
  data := r.redactedData

/-- The insertion: the constraints and triggers that the checks of `emit` do not imply, and the end of
    the key space. -/
def Journal.insert (rules : TextRules) (j : Journal) (r : JournalRow) : Option Journal :=
  if 3 ≤ r.eventType.length ∧ r.eventType.length ≤ 128 ∧ rules.timestampGuard r.occurredAt ∧
      (j.rows.all fun x => x.eventId ≠ r.eventId) ∧ r.sequence < 2 ^ 63 then
    some ⟨j.rows ++ [r], r.sequence⟩
  else none

/-- `emit`, inside a transaction. -/
def Journal.emit (rules : TextRules) (j : Journal) (e : EventInput) : Result (Journal × Envelope) :=
  if ¬e.isValid rules then .error inputInvalid
  else if ¬validateData rules e.data then .error redactionFailed
  else
    let row := e.row (j.lastSequence + 1) (j.nextRevision e.aggregateType e.aggregateId)
    match j.insert rules row with
    | some j => .ok (j, row.envelope)
    | none => .error journalUnavailable

/-! ### What `emit` takes -/

/-- `uuid.uuid4().hex`. -/
def isUuidHex (s : String) : Bool := s.toList.length = 32 ∧ s.toList.all isHexChar

theorem isPrefixedHex_append {lead hex : String} (h : isUuidHex hex = true) :
    isPrefixedHex lead (lead ++ hex) = true := by
  obtain ⟨hlen, hall⟩ := of_decide_eq_true h
  have hlead : lead.length = lead.toList.length := (String.length_toList).symm
  simp only [isPrefixedHex, String.toList_append, hlead, List.take_left, List.drop_left, hlen, hall,
    and_self, decide_true]

/-- A prefix of printable characters and 32 hexadecimal digits make a text. -/
theorem isText_of_prefixedHex (lead : String) {s : String} (hlead : lead.length ≤ 100)
    (hprint : (lead.toList.all fun ch => 32 ≤ ch.toNat) = true)
    (h : isPrefixedHex lead s = true) :
    isText s = true := by
  obtain ⟨htake, hlen, hall⟩ := of_decide_eq_true h
  have hsplit : s.toList = lead.toList ++ s.toList.drop lead.length := by
    conv_lhs => rw [← List.take_append_drop lead.length s.toList, htake]
  have hs : s.length = lead.length + 32 := by
    rw [← String.length_toList, hsplit, List.length_append, hlen, String.length_toList]
  refine decide_eq_true ⟨?_, by omega, ?_⟩
  · rintro rfl
    rw [String.length_empty] at hs
    omega
  · simp only [hasControl, List.any_eq_true, decide_eq_true_eq, not_exists, not_and]
    intro ch hch
    rw [hsplit, List.mem_append] at hch
    rcases hch with hch | hch
    · have hlow := of_decide_eq_true (List.all_eq_true.1 hprint ch hch)
      omega
    · have hhex := List.all_eq_true.1 hall ch hch
      simp only [isHexChar, isDigit, Bool.or_eq_true, decide_eq_true_eq] at hhex
      omega

/-- An event that passes the checks is appended while its identifier and the key space are free. -/
theorem emit_accepts {rules : TextRules} {j : Journal} {e : EventInput}
    (hvalid : e.isValid rules = true) (hdata : validateData rules e.data = true)
    (hlength : 3 ≤ e.eventType.length ∧ e.eventType.length ≤ 128)
    (htime : rules.timestampGuard e.occurredAt = true) (hunused : ∀ x ∈ j.rows, x.eventId ≠ e.eventId)
    (hspace : j.lastSequence + 1 < 2 ^ 63) :
    ∃ journal envelope, j.emit rules e = .ok (journal, envelope) := by
  have hall : (j.rows.all fun x => x.eventId ≠ e.eventId) = true :=
    List.all_eq_true.2 fun x hx => decide_eq_true (hunused x hx)
  have hins : j.insert rules (e.row (j.lastSequence + 1) (j.nextRevision e.aggregateType
      e.aggregateId)) = some ⟨j.rows ++ [e.row (j.lastSequence + 1) (j.nextRevision e.aggregateType
        e.aggregateId)], j.lastSequence + 1⟩ :=
    if_pos ⟨hlength.1, hlength.2, htime, hall, hspace⟩
  unfold Journal.emit
  rw [if_neg (not_not.2 hvalid), if_neg (not_not.2 hdata)]
  simp only [hins]
  exact ⟨_, _, rfl⟩

mutual

/-- The strings of a value, without the keys of its objects. -/
def dataTexts : Json → List String
  | .str s => [s]
  | .arr items => itemsTexts items
  | .obj members => membersTexts members
  | _ => []

def itemsTexts : List Json → List String
  | [] => []
  | x :: xs => dataTexts x ++ itemsTexts xs

def membersTexts : List (String × Json) → List String
  | [] => []
  | (_, x) :: xs => dataTexts x ++ membersTexts xs

end

mutual

/-- The keys of the objects in a value. -/
def dataKeys : Json → List String
  | .arr items => itemsKeys items
  | .obj members => membersKeys members
  | _ => []

def itemsKeys : List Json → List String
  | [] => []
  | x :: xs => dataKeys x ++ itemsKeys xs

def membersKeys : List (String × Json) → List String
  | [] => []
  | (k, x) :: xs => k :: (dataKeys x ++ membersKeys xs)

end

/-- Rules that take nothing for a secret. -/
def lenient : TextRules := ⟨fun _ => false, fun _ => false, fun _ => true, fun _ => true⟩

section Lenient

variable {rules : TextRules}

theorem isDataString_lenient {s : String} (h : rules.forbiddenValue s = false) :
    isDataString rules s = isDataString lenient s := by
  rw [isDataString, isDataString, decide_eq_decide, h]
  exact Iff.rfl

theorem isDataKey_lenient {k : String} (h : rules.keyIsSensitive k = false) :
    isDataKey rules k = isDataKey lenient k := by
  rw [isDataKey, isDataKey, decide_eq_decide, h]
  exact Iff.rfl

mutual

theorem visit_lenient {value : Json} {nodes depth : Nat}
    (hkeys : ∀ k ∈ dataKeys value, rules.keyIsSensitive k = false)
    (htexts : ∀ s ∈ dataTexts value, rules.forbiddenValue s = false) :
    visit rules nodes depth value = visit lenient nodes depth value := by
  cases value with
  | str s =>
    simp only [visit, isDataString_lenient (htexts s (by simp [dataTexts]))]
  | arr items =>
    rw [dataKeys] at hkeys
    rw [dataTexts] at htexts
    simp only [visit, visitItems_lenient hkeys htexts]
  | obj members =>
    rw [dataKeys] at hkeys
    rw [dataTexts] at htexts
    simp only [visit, visitMembers_lenient hkeys htexts]
  | _ => simp only [visit]

theorem visitItems_lenient {items : List Json} {nodes depth : Nat}
    (hkeys : ∀ k ∈ itemsKeys items, rules.keyIsSensitive k = false)
    (htexts : ∀ s ∈ itemsTexts items, rules.forbiddenValue s = false) :
    visitItems rules nodes depth items = visitItems lenient nodes depth items := by
  cases items with
  | nil => simp only [visitItems]
  | cons x xs =>
    simp only [itemsKeys, itemsTexts, List.mem_append] at hkeys htexts
    rw [visitItems, visitItems, visit_lenient (fun k hk => hkeys k (.inl hk))
      fun s hs => htexts s (.inl hs)]
    refine Option.bind_congr fun n _ => ?_
    exact visitItems_lenient (fun k hk => hkeys k (.inr hk)) fun s hs => htexts s (.inr hs)

theorem visitMembers_lenient {members : List (String × Json)} {nodes depth : Nat}
    (hkeys : ∀ k ∈ membersKeys members, rules.keyIsSensitive k = false)
    (htexts : ∀ s ∈ membersTexts members, rules.forbiddenValue s = false) :
    visitMembers rules nodes depth members = visitMembers lenient nodes depth members := by
  match members with
  | [] => simp only [visitMembers]
  | (k, x) :: xs =>
    simp only [membersKeys, membersTexts, List.mem_cons, List.mem_append] at hkeys htexts
    rw [visitMembers, visitMembers, isDataKey_lenient (hkeys k (.inl rfl)),
      visit_lenient (fun k hk => hkeys k (.inr (.inl hk))) fun s hs => htexts s (.inl hs)]
    congr 1
    refine Option.bind_congr fun n _ => ?_
    exact visitMembers_lenient (fun k hk => hkeys k (.inr (.inr hk))) fun s hs => htexts s (.inr hs)

end

/-- Data without a sensitive key or a forbidden text is accepted as if there were no such rules. -/
theorem validateData_lenient {data : Json}
    (hkeys : ∀ k ∈ dataKeys data, rules.keyIsSensitive k = false)
    (htexts : ∀ s ∈ dataTexts data, rules.forbiddenValue s = false) :
    validateData rules data = validateData lenient data := by
  simp only [validateData, visit_lenient hkeys htexts]

end Lenient

/-! ### Replay -/

/-- `_row_to_envelope`: everything is checked again. -/
def rowToEnvelope (rules : TextRules) (r : JournalRow) : Result Envelope :=
  if validateData rules r.redactedData ∧ rules.isTimestamp r.occurredAt ∧ isText r.actorId ∧
      isText r.aggregateId ∧ isOptionalText r.causationId ∧ isOptionalText r.projectId ∧
      isOptionalText r.objectiveId ∧ 1 ≤ r.sequence ∧ isEventId r.eventId ∧ isEventType r.eventType ∧
      r.actorType ∈ actorTypes ∧ r.aggregateType ∈ aggregateTypes ∧ 1 ≤ r.aggregateRevision ∧
      isCorrelationId r.correlationId then
    .ok r.envelope
  else .error journalCorrupt

/-- The filter of a replay; no types means all of them. -/
structure Replay where
  limit : Nat
  projectId : Option String
  eventTypes : Option (List String)

/-- The checks of `read_after` on its arguments; the first two report their own codes. -/
def Replay.check (q : Replay) : Result Unit := do
  require (1 ≤ q.limit ∧ q.limit ≤ maxReplayLimit)
    { status := 400, code := "invalid_event_limit", title := "Invalid event limit" }
  require (isOptionalText q.projectId) inputInvalid
  require (q.eventTypes.all fun types => 1 ≤ types.length ∧ types.length ≤ 32 ∧ types.Nodup ∧
      types.all isEventType)
    { status := 400, code := "invalid_event_types", title := "Invalid event types" }

/-- The `WHERE` clauses other than the one on the sequence. -/
def Replay.selects (q : Replay) (r : JournalRow) : Bool :=
  (q.projectId.all fun p => r.projectId = some p) && q.eventTypes.all fun types => r.eventType ∈ types

/-- The rows of the query, `ORDER BY sequence LIMIT ?`. -/
def Journal.select (j : Journal) (q : Replay) (after : Nat) : List JournalRow :=
  ((j.rows.filter fun r => q.selects r && after < r.sequence).insertionSort fun x y =>
    x.sequence ≤ y.sequence).take q.limit

/-- `read_after`. -/
def Journal.readAfter (rules : TextRules) (j : Journal) (q : Replay) (after : Nat) :
    Result (List Envelope) := do
  q.check
  (j.select q after).mapM (rowToEnvelope rules)

/-! ### Writers and a reader -/

/-- The committed journal, the one in the open write transaction (SQLite has one writer at a time), and
    a reader with the sequence it has come to and what it has received. -/
structure JournalWorld where
  committed : Journal
  pending : Option Journal
  cursor : Nat
  received : List Envelope

inductive JournalAction where
  | begin
  | emit (e : EventInput)
  | commit
  | rollback
  | read

namespace JournalWorld

/-- An `emit` that raises, or is called outside a transaction, leaves the transaction as it is; its
    caller may go on or roll back. -/
def step (rules : TextRules) (q : Replay) (a : JournalAction) (w : JournalWorld) : JournalWorld :=
  match a with
  | .begin => if w.pending.isSome then w else { w with pending := some w.committed }
  | .emit e =>
    match w.pending with
    | none => w
    | some j =>
      match j.emit rules e with
      | .ok (j, _) => { w with pending := some j }
      | .error _ => w
  | .commit =>
    match w.pending with
    | none => w
    | some j => { w with committed := j, pending := none }
  | .rollback => { w with pending := none }
  | .read =>
    match w.committed.readAfter rules q w.cursor with
    | .ok page =>
      { w with
        cursor := (page.getLast?.map Envelope.sequence).getD w.cursor
        received := w.received ++ page }
    | .error _ => w

end JournalWorld

/-- An empty table with its writers, and a reader that starts after `start`. -/
def journalMachine (rules : TextRules) (q : Replay) (start : Nat) :
    Schemes.Machine JournalAction JournalWorld where
  start w := w = ⟨.empty, none, start, []⟩
  step := JournalWorld.step rules q

end HermesOps.Controller
