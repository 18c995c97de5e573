import HermesOps.Controller.ReviewCommands
import HermesOps.Properties.ExactlyOnce

/-! Decisions about reviews are made exactly once. A request that returns found its response, or wrote one
    row into each of six tables, all for a review that no action was recorded for; a request that raises
    wrote nothing. So the six tables agree on every review in every history, and a key that has a response
    answers its own request and no other. -/

namespace HermesOps.Controller.Commands

open Schemes

variable {p : Hashing} {r : ReviewRequest} {w w' : Work (Ledger ReviewTables)}
  {t t' : Ledger ReviewTables}

/-! ### What a request does -/

/-- The rows that an accepted command writes between the reservation of its key and its response. -/
structure Recorded (p : Hashing) (r : ReviewRequest) (keys : Keys) (operationId : String)
    (t t' : Ledger ReviewTables) : Prop where
  free : t.content.actions.any (fun _ a => a.reviewId = r.reviewId) = false
  reviews : t'.content.reviews = t.content.reviews
  actions : ∃ id runId reason, t.content.actions.insert id (reviewAction r runId reason) =
    some t'.content.actions
  operations : ∃ actionId reason, t.records.operations.insert operationId
    (reviewOperationRow r actionId reason) = some t'.records.operations
  audit : ∃ id reason, t.records.audit.insert id (reviewAudit r operationId keys reason) =
    some t'.records.audit
  events : ∃ runId projectId reason, t'.content.events =
    t.content.events ++ [legacyEvent r runId projectId reason]
  journal : ∃ projectId reason sequence revision, t'.records.journal.rows = t.records.journal.rows ++
    [(reviewEvent p r operationId projectId reason).row sequence revision]

theorem emit_rows {rules : TextRules} {j j' : Journal} {e : EventInput} {env : Envelope}
    (h : j.emit rules e = .ok (j', env)) :
    j'.rows = j.rows ++ [e.row (j.lastSequence + 1) (j.nextRevision e.aggregateType e.aggregateId)] := by
  unfold Journal.emit at h
  split at h
  · cases h
  split at h
  · cases h
  dsimp only at h
  split at h
  · rename_i j₂ hinsert
    simp only [Except.ok.injEq, Prod.mk.injEq] at h
    obtain ⟨rfl, -⟩ := h
    unfold Journal.insert at hinsert
    split at hinsert
    · cases hinsert
      rfl
    · cases hinsert
  · cases h

theorem recordReview_ok {runId projectId operationId : String} {reason : Bool} {keys : Keys} {payload : Json}
    (h : recordReview p r runId projectId reason keys w = (.ok (payload, operationId), w')) :
    Recorded p r keys operationId w.state w'.state ∧
      w'.state.records.idempotency = w.state.records.idempotency := by
  obtain ⟨_, w₁, haction, h⟩ := Txn.bind_ok.1 h
  obtain ⟨_, w₂, hoperation, h⟩ := Txn.bind_ok.1 h
  obtain ⟨_, w₃, haudit, h⟩ := Txn.bind_ok.1 h
  obtain ⟨_, w₄, hevent, h⟩ := Txn.bind_ok.1 h
  obtain ⟨_, w₅, hemit, h⟩ := Txn.bind_ok.1 h
  have haction := execute_ok haction
  have hoperation := execute_ok hoperation
  have haudit := execute_ok haudit
  have hevent := execute_ok hevent
  have hemit := Txn.statement_ok hemit
  cases hmetadata : r.draws.metadata (reviewOperation p r ("operation-" ++ r.draws.operationHex)
      ("review-action-" ++ r.draws.actionHex) (p.timeText r.draws.now) reason).2 with
  | none =>
    simp only [hmetadata] at h
    exact (Txn.raise_ok h).elim
  | some metadata =>
    simp only [hmetadata] at h
    obtain ⟨hpair, rfl⟩ := Txn.pure_ok.1 h
    obtain ⟨-, rfl⟩ := Prod.mk.inj hpair
    split at haction
    · cases haction
    rename_i hfree
    split at haction
    swap
    · cases haction
    obtain ⟨actions, hactions, hw₁⟩ := Option.map_eq_some_iff.1 haction
    split at hoperation
    swap
    · cases hoperation
    obtain ⟨operations, hoperations, hw₂⟩ := Option.map_eq_some_iff.1 hoperation
    split at haudit
    · cases haudit
    split at haudit
    swap
    · cases haudit
    obtain ⟨audit, haudits, hw₃⟩ := Option.map_eq_some_iff.1 haudit
    have hw₄ := Option.some.inj hevent
    split at hemit
    swap
    · cases hemit
    rename_i journal env hjournal
    have hrows := emit_rows hjournal
    simp only [Except.ok.injEq, Prod.mk.injEq, true_and] at hemit
    rw [← hw₁] at hoperations hw₂
    rw [← hw₂] at haudits hw₃
    rw [← hw₃] at hw₄
    rw [← hw₄] at hrows hemit
    rw [← hemit]
    exact ⟨⟨Bool.eq_false_iff.2 hfree, rfl, ⟨_, _, _, hactions⟩, ⟨_, _, hoperations⟩,
      ⟨_, _, haudits⟩, ⟨_, _, _, rfl⟩, ⟨_, _, _, _, hrows⟩⟩, rfl⟩

/-- A decision that is taken is recorded; the checks before it write nothing. -/
theorem decideReview_ok {operationId : String} {keys : Keys} {payload : Json}
    (h : decideReview p r keys w = (.ok (payload, operationId), w')) :
    Recorded p r keys operationId w.state w'.state ∧
      w'.state.records.idempotency = w.state.records.idempotency := by
  obtain ⟨_, w₁, hrerun, h⟩ := Txn.bind_ok.1 h
  obtain ⟨-, rfl⟩ := Txn.ensure_ok.1 hrerun
  obtain ⟨_, w₂, hsafe, h⟩ := Txn.bind_ok.1 h
  obtain ⟨-, rfl⟩ := Txn.ensure_ok.1 hsafe
  obtain ⟨reason, w₃, hbody, h⟩ := Txn.bind_ok.1 h
  obtain ⟨-, rfl⟩ := checked_ok.1 hbody
  obtain ⟨row, w₄, hrow, h⟩ := Txn.bind_ok.1 h
  obtain ⟨-, hw₄⟩ := query_ok hrow
  cases row with
  | none => exact (Txn.raise_ok h).elim
  | some row =>
    obtain ⟨project, w₅, hproject, h⟩ := Txn.bind_ok.1 h
    obtain ⟨-, hw₅⟩ := query_ok hproject
    cases project with
    | none => exact (Txn.raise_ok h).elim
    | some projectId =>
      obtain ⟨_, w₆, hverdict, h⟩ := Txn.bind_ok.1 h
      obtain ⟨-, rfl⟩ := Txn.ensure_ok.1 hverdict
      obtain ⟨_, w₇, hdebt, h⟩ := Txn.bind_ok.1 h
      obtain ⟨-, rfl⟩ := Txn.ensure_ok.1 hdebt
      obtain ⟨_, w₈, hhuman, h⟩ := Txn.bind_ok.1 h
      obtain ⟨-, rfl⟩ := Txn.ensure_ok.1 hhuman
      obtain ⟨existing, w₉, hexisting, h⟩ := Txn.bind_ok.1 h
      obtain ⟨-, hw₉⟩ := query_ok hexisting
      cases existing with
      | some existing => exact (Txn.raise_ok h).elim
      | none =>
        have hrecorded := recordReview_ok h
        rw [hw₉, hw₅, hw₄] at hrecorded
        exact hrecorded

/-- What the lookup of a key finds: a response, or a free key. -/
theorem replayOrReserveReview_ok {key : String} {replay : Option Json} {keys : Keys}
    (h : replayOrReserveReview p r key w = (.ok (replay, keys), w')) :
    isAscii r.session = true ∧ keys = reviewKeys p r key ∧
      ((∃ row payload, w.state.records.idempotency.get? (keys.sessionFp, keys.keyHash) = some row ∧
          recordedReview r keys row = .ok payload ∧ replay = some payload ∧ w'.state = w.state) ∨
        (replay = none ∧ ∃ idempotency, w.state.records.idempotency.insert (keys.sessionFp, keys.keyHash)
            (reservedReview r keys) = some idempotency ∧
          w'.state = { w.state with records := { w.state.records with idempotency } })) := by
  obtain ⟨_, w₁, hensure, h⟩ := Txn.bind_ok.1 h
  obtain ⟨hascii, rfl⟩ := Txn.ensure_ok.1 hensure
  obtain ⟨found, w₂, hfound, h⟩ := Txn.bind_ok.1 h
  obtain ⟨hlookup, hstate⟩ := query_ok hfound
  refine ⟨hascii, ?_⟩
  cases found with
  | some row =>
    obtain ⟨response, w₃, hresponse, h⟩ := Txn.bind_ok.1 h
    obtain ⟨hrecorded, rfl⟩ := checked_ok.1 hresponse
    obtain ⟨hpair, rfl⟩ := Txn.pure_ok.1 h
    obtain ⟨rfl, rfl⟩ := Prod.mk.inj hpair
    exact ⟨rfl, Or.inl ⟨row, response, hlookup.symm, hrecorded, rfl, hstate⟩⟩
  | none =>
    obtain ⟨_, w₃, hreserve, h⟩ := Txn.bind_ok.1 h
    obtain ⟨idempotency, hinsert, hw₃⟩ := Option.map_eq_some_iff.1 (execute_ok hreserve)
    obtain ⟨hpair, rfl⟩ := Txn.pure_ok.1 h
    obtain ⟨rfl, rfl⟩ := Prod.mk.inj hpair
    rw [hstate] at hinsert hw₃
    exact ⟨rfl, Or.inr ⟨rfl, idempotency, hinsert, hw₃.symm⟩⟩

/-- The place of a request's record. -/
def ReviewRequest.place (p : Hashing) (r : ReviewRequest) (key : String) : String × String :=
  ((reviewKeys p r key).sessionFp, (reviewKeys p r key).keyHash)

/-- The tables after an accepted command: its records, and its response under the key that was free. -/
structure AcceptedReview (p : Hashing) (r : ReviewRequest) (key operationId : String) (payload : Json)
    (t t' : Ledger ReviewTables) : Prop extends Recorded p r (reviewKeys p r key) operationId t t' where
  responses : ∃ idempotency, t.records.idempotency.insert (r.place p key)
      (reservedReview r (reviewKeys p r key)) = some idempotency ∧
    t'.records.idempotency = idempotency.updateAt (r.place p key)
      (completedRow payload operationId r.draws.completedAt)

/-- A request that returns found the response of its key, or was accepted. -/
theorem commandReview_ok {a : Nat × Json} (h : commandReview p r t = (.ok a, t')) :
    ∃ key, validateIdempotencyKey r.key = .ok key ∧ isReviewId r.reviewId = true ∧
      isAscii r.session = true ∧ a.1 = 202 ∧
      ((t' = t ∧ ∃ row, t.records.idempotency.get? (r.place p key) = some row ∧ recordedReview r (reviewKeys p r key) row = .ok a.2) ∨
        ∃ operationId, AcceptedReview p r key operationId a.2 t t') := by
  unfold commandReview at h
  split at h
  · cases h
  rename_i key hkey
  split at h
  swap
  · cases h
  rename_i hreview
  refine ⟨key, hkey, hreview, ?_⟩
  obtain ⟨w, hrun, rfl⟩ := Txn.atomically_ok.1 h
  obtain ⟨⟨replay, keys⟩, w₁, hreserve, h⟩ := Txn.bind_ok.1 hrun
  obtain ⟨hascii, rfl, hcase⟩ := replayOrReserveReview_ok hreserve
  refine ⟨hascii, ?_⟩
  rcases hcase with ⟨row, payload, hrow, hrecorded, rfl, hstate⟩ | ⟨rfl, idempotency, hinsert, hstate⟩
  · obtain ⟨rfl, rfl⟩ := Txn.pure_ok.1 h
    exact ⟨rfl, Or.inl ⟨hstate, row, hrow, hrecorded⟩⟩
  · obtain ⟨⟨payload, operationId⟩, w₂, hdecide, h⟩ := Txn.bind_ok.1 h
    obtain ⟨_, w₃, hcomplete, h⟩ := Txn.bind_ok.1 h
    obtain ⟨rfl, rfl⟩ := Txn.pure_ok.1 h
    obtain ⟨hdecided, hsame⟩ := decideReview_ok hdecide
    have hcomplete := execute_ok hcomplete
    have hw₃ := Option.some.inj hcomplete
    rw [hstate] at hdecided hsame
    obtain ⟨hfree, hreviews, hactions, hoperations, haudit, hevents, hjournal⟩ := hdecided
    rw [← hw₃]
    refine ⟨rfl, Or.inr ⟨operationId, ⟨hfree, hreviews, hactions, hoperations, haudit, hevents, hjournal⟩,
      idempotency, hinsert, ?_⟩⟩
    dsimp only at hsame ⊢
    rw [hsame]
    rfl

/-- A request that is refused or raises leaves every table as it was. -/
theorem commandReview_error {e : Failure} (h : commandReview p r t = (.error e, t')) : t' = t := by
  unfold commandReview at h
  split at h
  · cases h
    rfl
  split at h
  · exact Txn.atomically_error h
  · cases h
    rfl

/-! ### The records of a review -/

/-- The review that a row of `events` is a decision about. -/
def LegacyEventRow.review? (e : LegacyEventRow) : Option String :=
  if e.eventType ∈ safeReviewCommands.map legacyType then
    match e.payloadJson with
    | .obj members => (Members.get? members "review_id").bind Json.asString
    | _ => none
  else none

/-- The review that an event of the journal is a decision about. -/
def decidedReview? (e : JournalRow) : Option String :=
  if e.eventType ∈ safeReviewCommands.map journalType then some e.aggregateId else none

/-- The review of the operation that an idempotency row holds the response of. -/
def respondedReview? (operations : Table String OperationRow) (row : IdempotencyRow) : Option String :=
  row.operationId.bind fun id => (operations.get? id).map OperationRow.targetId

def actionsOf (t : Ledger ReviewTables) (id : String) : Nat :=
  t.content.actions.count fun _ a => a.reviewId = id

/-- Every review has at most one action, and one row in each of the other tables exactly with it. -/
structure Accounted (t : Ledger ReviewTables) (id : String) : Prop where
  once : actionsOf t id ≤ 1
  operations : (t.records.operations.count fun _ o => o.targetId = id) = actionsOf t id
  audit : (t.records.audit.count fun _ a => a.resourceId = id) = actionsOf t id
  events : (t.content.events.countP fun e => e.review? = some id) = actionsOf t id
  journal : (t.records.journal.rows.countP fun e => decidedReview? e = some id) = actionsOf t id
  responses : (t.records.idempotency.count fun _ row =>
    respondedReview? t.records.operations row = some id) = actionsOf t id

/-- A row with its response, and the operation it is the response of. -/
structure Settled (operations : Table String OperationRow) (row : IdempotencyRow) : Prop where
  status : row.responseStatus = some 202
  response : row.responseJson.isSome
  completed : row.completedAt.isSome
  operation : (respondedReview? operations row).isSome

/-- The six tables agree on every review, and no key is left without a response. -/
structure Agreed (t : Ledger ReviewTables) : Prop where
  accounted : ∀ id, Accounted t id
  settled : t.records.idempotency.All fun _ row => Settled t.records.operations row

theorem agreed_start (h : Undecided t) : Agreed t := by
  obtain ⟨hactions, hoperations, haudit, hidempotency, hevents, hjournal⟩ := h
  have hnone : ∀ id, actionsOf t id = 0 := fun id => by rw [actionsOf, hactions]; rfl
  refine ⟨fun id => ⟨by rw [hnone]; omega, ?_, ?_, ?_, ?_, ?_⟩, by rw [hidempotency]; exact .empty⟩
  · rw [hoperations, hnone]
    rfl
  · rw [haudit, hnone]
    rfl
  · rw [hnone, List.countP_eq_zero]
    intro e he
    have htype : e.eventType ∉ safeReviewCommands.map legacyType := by
      rw [List.mem_map]
      rintro ⟨command, -, heq⟩
      exact hevents e he command heq.symm
    simp [LegacyEventRow.review?, htype]
  · rw [hnone, List.countP_eq_zero]
    intro e he
    have htype : e.eventType ∉ safeReviewCommands.map journalType := by
      rw [List.mem_map]
      rintro ⟨command, -, heq⟩
      exact hjournal e he command heq.symm
    simp [decidedReview?, htype]
  · rw [hidempotency, hnone]
    rfl

theorem legacyType_mem {command : String} : legacyType command ∈ safeReviewCommands.map legacyType := by
  unfold legacyType
  split <;> decide

theorem journalType_mem {command : String} : journalType command ∈ safeReviewCommands.map journalType := by
  unfold journalType
  split <;> decide

theorem review?_legacyEvent {runId projectId : String} {reason : Bool} :
    (legacyEvent r runId projectId reason).review? = some r.reviewId := by
  have hmem : (legacyEvent r runId projectId reason).eventType ∈ safeReviewCommands.map legacyType :=
    legacyType_mem
  rw [LegacyEventRow.review?, if_pos hmem]
  rfl

theorem decidedReview?_row {operationId projectId : String} {reason : Bool} {sequence revision : Nat} :
    decidedReview? ((reviewEvent p r operationId projectId reason).row sequence revision) =
      some r.reviewId := by
  rw [decidedReview?]
  exact if_pos journalType_mem

/-- A response keeps its operation when another operation is inserted. -/
theorem respondedReview?_insert {operations operations' : Table String OperationRow} {id : String}
    {o : OperationRow} {row : IdempotencyRow} (h : operations.insert id o = some operations')
    (hrow : Settled operations row) :
    respondedReview? operations' row = respondedReview? operations row := by
  have hsome := hrow.operation
  unfold respondedReview? at hsome ⊢
  cases hid : row.operationId with
  | none => rfl
  | some id' =>
    rw [hid, Option.bind_some, Option.isSome_map] at hsome
    have hne : id' ≠ id := by
      rintro rfl
      rw [Table.get?_of_insert h] at hsome
      cases hsome
    rw [Option.bind_some, Option.bind_some, Table.get?_insert h, if_neg hne]

/-- An accepted command adds one row to each table, under the same review. -/
theorem agreed_accept {key operationId : String} {payload : Json}
    (h : AcceptedReview p r key operationId payload t t') (ht : Agreed t) : Agreed t' := by
  obtain ⟨⟨hfree, -, ⟨_, _, _, hactions⟩, ⟨actionId, _, hoperations⟩, ⟨_, _, haudit⟩, ⟨_, _, _, hevents⟩,
    ⟨_, _, _, _, hjournal⟩⟩, idempotency, hreserve, hresponses⟩ := h
  have hnew : respondedReview? t'.records.operations
      (completedRow payload operationId r.draws.completedAt (reservedReview r (reviewKeys p r key))) =
      some r.reviewId := by
    rw [respondedReview?]
    show ((t'.records.operations.get? operationId).map OperationRow.targetId) = _
    rw [Table.get?_insert hoperations, if_pos rfl]
    rfl
  have hcount : ∀ id, actionsOf t' id = actionsOf t id + if r.reviewId = id then 1 else 0 := by
    intro id
    rw [actionsOf, Table.count_insert hactions]
    by_cases hid : r.reviewId = id <;> simp [actionsOf, reviewAction, hid]
  have hnone : actionsOf t r.reviewId = 0 := by
    rw [actionsOf, Table.count_eq_zero_iff]
    exact Table.any_eq_false_iff.1 hfree
  refine ⟨fun id => ?_, ?_⟩
  · obtain ⟨honce, hoperation, hauditOf, hevent, hjournalOf, hresponse⟩ := ht.accounted id
    refine ⟨?_, ?_, ?_, ?_, ?_, ?_⟩
    · rw [hcount]
      split
      · rename_i heq
        rw [← heq, hnone]
      · exact honce
    · rw [Table.count_insert hoperations, hcount, hoperation]
      by_cases hid : r.reviewId = id <;> simp [reviewOperationRow, hid]
    · rw [Table.count_insert haudit, hcount, hauditOf]
      by_cases hid : r.reviewId = id <;> simp [reviewAudit, hid]
    · rw [hevents, List.countP_append, hcount, hevent, List.countP_singleton, review?_legacyEvent]
      by_cases hid : r.reviewId = id <;> simp [hid]
    · rw [hjournal, List.countP_append, hcount, hjournalOf, List.countP_singleton, decidedReview?_row]
      by_cases hid : r.reviewId = id <;> simp [hid]
    · rw [hresponses, Table.count_insert_updateAt hreserve, hcount, hnew, ← hresponse]
      have hold : (t.records.idempotency.count fun _ row =>
          respondedReview? t'.records.operations row = some id) =
          t.records.idempotency.count fun _ row => respondedReview? t.records.operations row = some id := by
        rw [Table.count, Table.count, Table.select, Table.select]
        refine congrArg List.length (List.filter_congr fun x hx => ?_)
        rw [respondedReview?_insert hoperations (ht.settled x.1 x.2 (Table.mem_rows_iff.1 hx))]
      rw [hold]
      by_cases hid : r.reviewId = id <;> simp [hid]
  · rw [hresponses]
    have hkept : t.records.idempotency.All fun _ row => Settled t'.records.operations row := by
      refine ht.settled.mono fun k row _ hrow => ⟨hrow.status, hrow.response, hrow.completed, ?_⟩
      rw [respondedReview?_insert hoperations hrow]
      exact hrow.operation
    intro k row hrow
    rw [Table.get?_updateAt, Table.get?_insert hreserve] at hrow
    by_cases hk : k = r.place p key
    · simp only [hk, if_true, Option.map_some, Option.some.injEq] at hrow
      subst hrow
      refine ⟨rfl, rfl, rfl, ?_⟩
      rw [hnew]
      rfl
    · simp only [hk, if_false] at hrow
      exact hkept k row hrow

theorem agreed_step (ht : Agreed t) : Agreed (commandReview p r t).2 := by
  rcases hres : commandReview p r t with ⟨res, t'⟩
  cases res with
  | error e =>
    rw [commandReview_error hres]
    exact ht
  | ok a =>
    obtain ⟨key, -, -, -, -, ⟨rfl, -⟩ | ⟨operationId, haccepted⟩⟩ := commandReview_ok hres
    · exact ht
    · exact agreed_accept haccepted ht

/-- No request writes the results of the reviews. -/
theorem reviews_step : (commandReview p r t).2.content.reviews = t.content.reviews := by
  rcases hres : commandReview p r t with ⟨res, t'⟩
  cases res with
  | error e => rw [commandReview_error hres]
  | ok a =>
    obtain ⟨key, -, -, -, -, ⟨rfl, -⟩ | ⟨operationId, haccepted⟩⟩ := commandReview_ok hres
    · rfl
    · exact haccepted.reviews

/-! ### A key that is used again -/

/-- The row answers the request. -/
def IdempotencyRow.AnswersReview (p : Hashing) (row : IdempotencyRow) (r : ReviewRequest) : Prop :=
  row.method = "POST" ∧ row.route = r.route ∧
    row.requestHash = p.hmac r.session (requestMaterial "POST" r.route r.body)

theorem recordedReview_ok {key : String} {row : IdempotencyRow} {payload : Json} :
    recordedReview r (reviewKeys p r key) row = .ok payload ↔
      IdempotencyRow.AnswersReview p row r ∧ row.responseJson = some payload := by
  unfold recordedReview IdempotencyRow.AnswersReview
  split
  · rename_i hne
    refine iff_of_false (fun h => nomatch h) ?_
    rintro ⟨⟨hmethod, hroute, hhash⟩, -⟩
    rcases hne with h | h | h
    · exact h hmethod
    · exact h hroute
    · exact h hhash
  · rename_i hsame
    simp only [not_or, not_not] at hsame
    cases row.responseJson with
    | none => simp
    | some response =>
      have hhash : row.requestHash = p.hmac r.session (requestMaterial "POST" r.route r.body) := hsame.2.2
      simp [hsame.1, hsame.2.1, hhash]

/-- A request that returns leaves its response under its key, and every other row as it was. -/
theorem commandReview_row {a : Nat × Json} (h : commandReview p r t = (.ok a, t')) :
    ∃ key, validateIdempotencyKey r.key = .ok key ∧ isAscii r.session = true ∧ a.1 = 202 ∧
      ∃ row, IdempotencyRow.AnswersReview p row r ∧ row.responseJson = some a.2 ∧
        t'.records.idempotency.get? (r.place p key) = some row ∧
        ∀ k row, t.records.idempotency.get? k = some row → t'.records.idempotency.get? k = some row := by
  obtain ⟨key, hkey, -, hascii, hstatus, ⟨rfl, row, hrow, hrecorded⟩ | ⟨operationId, haccepted⟩⟩ :=
    commandReview_ok h
  · obtain ⟨hanswers, hresponse⟩ := recordedReview_ok.1 hrecorded
    exact ⟨key, hkey, hascii, hstatus, row, hanswers, hresponse, hrow, fun _ _ h => h⟩
  · obtain ⟨idempotency, hreserve, hresponses⟩ := haccepted.responses
    refine ⟨key, hkey, hascii, hstatus, completedRow a.2 operationId r.draws.completedAt
      (reservedReview r (reviewKeys p r key)), ⟨rfl, rfl, rfl⟩, rfl, ?_, fun k row hrow => ?_⟩
    · rw [hresponses, Table.get?_updateAt, if_pos rfl, Table.get?_insert hreserve, if_pos rfl]
      rfl
    · have hne : k ≠ r.place p key := by
        rintro rfl
        rw [Table.get?_of_insert hreserve] at hrow
        cases hrow
      rw [hresponses, Table.get?_updateAt, if_neg hne, Table.get?_insert hreserve, if_neg hne]
      exact hrow

theorem keeps_response {k : String × String} {row : IdempotencyRow}
    (hrow : t.records.idempotency.get? k = some row) :
    (commandReview p r t).2.records.idempotency.get? k = some row := by
  rcases hres : commandReview p r t with ⟨res, t'⟩
  cases res with
  | error e =>
    rw [commandReview_error hres]
    exact hrow
  | ok a =>
    obtain ⟨key, -, -, -, _, -, -, -, hkept⟩ := commandReview_row hres
    exact hkept k row hrow

theorem run_keeps_response {k : String × String} {row : IdempotencyRow} (rs : List ReviewRequest)
    (hrow : t.records.idempotency.get? k = some row) :
    ((reviewMachine p).run t rs).records.idempotency.get? k = some row := by
  induction rs generalizing t with
  | nil => exact hrow
  | cons r rs ih => exact ih (keeps_response hrow)

theorem run_lookup {α : Type} {f : Ledger ReviewTables → α} {left : Option Nat} (hleft : left ≠ some 0) :
    query f ⟨t, left⟩ = (.ok (f t), ⟨t, left.map Nat.pred⟩) := by
  unfold query Txn.statement
  split
  · exact absurd ‹_› hleft
  · rfl

/-- A response that answers the request is returned, and nothing is written. -/
theorem commandReview_replay {key : String} {row : IdempotencyRow} {payload : Json}
    (hkey : validateIdempotencyKey r.key = .ok key) (hreview : isReviewId r.reviewId = true)
    (hascii : isAscii r.session = true) (hrow : t.records.idempotency.get? (r.place p key) = some row)
    (hanswers : IdempotencyRow.AnswersReview p row r) (hresponse : row.responseJson = some payload) :
    commandReview p r t = (.ok (202, payload), t) ∨
      (r.draws.failsAfter = some 0 ∧ commandReview p r t = (.error .database, t)) := by
  have hrecorded : recordedReview r (reviewKeys p r key) row = .ok payload :=
    recordedReview_ok.2 ⟨hanswers, hresponse⟩
  simp only [commandReview, hkey, hreview, if_true]
  by_cases hleft : r.draws.failsAfter = some 0
  · refine Or.inr ⟨hleft, ?_⟩
    simp only [Txn.atomically, reviewTransaction, replayOrReserveReview, Txn.run_bind, Txn.ensure, Txn.lift,
      hascii, if_true, hleft]
    rfl
  · refine Or.inl ?_
    have hlookup : t.records.idempotency.get?
        ((reviewKeys p r key).sessionFp, (reviewKeys p r key).keyHash) = some row := hrow
    simp only [Txn.atomically, reviewTransaction, replayOrReserveReview, Txn.run_bind, Txn.ensure, Txn.lift,
      hascii, if_true, run_lookup hleft, hlookup, checked, hrecorded]
    rfl

/-- A key whose response does not answer the request: the request is refused. -/
theorem commandReview_conflict {key : String} {row : IdempotencyRow}
    (hkey : validateIdempotencyKey r.key = .ok key)
    (hrow : t.records.idempotency.get? (r.place p key) = some row)
    (hanswers : ¬IdempotencyRow.AnswersReview p row r) :
    ∃ e, commandReview p r t = (.error e, t) := by
  rcases hres : commandReview p r t with ⟨res, t'⟩
  cases res with
  | error e => exact ⟨e, by rw [commandReview_error hres]⟩
  | ok a =>
    exfalso
    obtain ⟨key', hkey', -, -, row', hanswers', -, hrow', hkept⟩ := commandReview_row hres
    rw [hkey] at hkey'
    cases hkey'
    rw [hkept _ _ hrow] at hrow'
    cases hrow'
    exact hanswers hanswers'

/-! ### Whole histories -/

theorem agreed_run (rs : List ReviewRequest) (ht : Agreed t) : Agreed ((reviewMachine p).run t rs) := by
  induction rs generalizing t with
  | nil => exact ht
  | cons r rs ih => exact ih (agreed_step ht)

theorem reviews_run (rs : List ReviewRequest) :
    ((reviewMachine p).run t rs).content.reviews = t.content.reviews := by
  induction rs generalizing t with
  | nil => rfl
  | cons r rs ih => exact ih.trans reviews_step

/-- The requests name the same thing: one route, and bodies with one canonical text. -/
def SameReview (r r' : ReviewRequest) : Prop :=
  r'.route = r.route ∧ canonicalJson (.obj r'.body) = canonicalJson (.obj r.body)

/-- The HMACs of the two requests under the token differ when the requests do. -/
def Distinguished (p : Hashing) (r r' : ReviewRequest) : Prop :=
  p.hmac r.session (requestMaterial "POST" r'.route r'.body) =
      p.hmac r.session (requestMaterial "POST" r.route r.body) →
    requestMaterial "POST" r'.route r'.body = requestMaterial "POST" r.route r.body

/-- What a later request of the session with the key of an accepted one comes to. -/
theorem commandReview_again {a : Nat × Json} {r r' : ReviewRequest} {t t' t₃ : Ledger ReviewTables}
    (hsession : r'.session = r.session) (hkey : r'.key = r.key) (hmac : Distinguished p r r')
    (h : commandReview p r t = (.ok a, t'))
    (hkept : ∀ k row, t'.records.idempotency.get? k = some row → t₃.records.idempotency.get? k = some row) :
    (commandReview p r' t₃).2 = t₃ ∧
      (SameReview r r' → isReviewId r'.reviewId = true → (commandReview p r' t₃).1 = .ok a ∨
        (r'.draws.failsAfter = some 0 ∧ (commandReview p r' t₃).1 = .error .database)) ∧
      (¬SameReview r r' → ∃ e, (commandReview p r' t₃).1 = .error e) := by
  obtain ⟨key, hvalid, hascii, hstatus, row, hanswers, hresponse, hrow, -⟩ := commandReview_row h
  have hrow₃ : t₃.records.idempotency.get? (r'.place p key) = some row := by
    have hplace : r'.place p key = r.place p key := by
      simp only [ReviewRequest.place, reviewKeys, hsession]
    rw [hplace]
    exact hkept _ _ hrow
  by_cases hsame : SameReview r r'
  · have hanswers' : IdempotencyRow.AnswersReview p row r' := by
      obtain ⟨hmethod, hroute, hhash⟩ := hanswers
      have hmaterial : requestMaterial "POST" r.route r.body =
          requestMaterial "POST" r'.route r'.body := by
        unfold requestMaterial
        rw [hsame.1, hsame.2]
      refine ⟨hmethod, hroute.trans hsame.1.symm, ?_⟩
      rw [hhash, hsession, hmaterial]
    by_cases hreview : isReviewId r'.reviewId = true
    · rcases commandReview_replay (hkey ▸ hvalid) hreview (hsession ▸ hascii) hrow₃ hanswers' hresponse with
        hreplay | ⟨hfails, hreplay⟩
      · rw [hreplay]
        exact ⟨rfl, fun _ _ => Or.inl (by rw [← hstatus]), fun hne => absurd hsame hne⟩
      · rw [hreplay]
        exact ⟨rfl, fun _ _ => Or.inr ⟨hfails, rfl⟩, fun hne => absurd hsame hne⟩
    · refine ⟨?_, fun _ hid => absurd hid hreview, fun hne => absurd hsame hne⟩
      have hrefusal : commandReview p r' t₃ = (.error (.controller reviewNotFound), t₃) := by
        simp only [commandReview, hkey, hvalid, if_neg hreview]
      rw [hrefusal]
  · have hanswers' : ¬IdempotencyRow.AnswersReview p row r' := by
      rintro ⟨-, hroute, hhash⟩
      rw [hsession] at hhash
      have hroutes : r'.route = r.route := hroute.symm.trans hanswers.2.1
      have hmaterial := hmac (hhash.symm.trans hanswers.2.2)
      rw [hroutes] at hmaterial
      exact hsame ⟨hroutes, requestMaterial_inj hmaterial⟩
    obtain ⟨e, he⟩ := commandReview_conflict (hkey ▸ hvalid) hrow₃ hanswers'
    rw [he]
    exact ⟨rfl, fun h => absurd h hsame, fun _ => ⟨e, rfl⟩⟩

/-- In any history the six tables agree on every review and the results of the reviews are untouched; a
    request that raises changes no table; and once a request has returned a response, a later request of
    its session with its key changes no table, returns that response if it is the same request, and is
    refused otherwise. -/
theorem review_decided_once (p : Hashing) (t₀ : Ledger ReviewTables) (hstart : Undecided t₀)
    (before between : List ReviewRequest) (r r' : ReviewRequest) (hsession : r'.session = r.session)
    (hkey : r'.key = r.key) (hmac : Distinguished p r r') :
    let t₁ := (reviewMachine p).run t₀ before
    let t₂ := (commandReview p r t₁).2
    let t₃ := (reviewMachine p).run t₂ between
    Agreed t₁ ∧ t₁.content.reviews = t₀.content.reviews ∧
      (∀ e, (commandReview p r t₁).1 = .error e → t₂ = t₁) ∧
      ∀ a, (commandReview p r t₁).1 = .ok a →
        (commandReview p r' t₃).2 = t₃ ∧
          (SameReview r r' → isReviewId r'.reviewId = true → (commandReview p r' t₃).1 = .ok a ∨
            (r'.draws.failsAfter = some 0 ∧ (commandReview p r' t₃).1 = .error .database)) ∧
          (¬SameReview r r' → ∃ e, (commandReview p r' t₃).1 = .error e) := by
  intro t₁ t₂ t₃
  refine ⟨agreed_run before (agreed_start hstart), reviews_run before,
    fun e he => commandReview_error (Prod.ext he rfl), fun a ha => ?_⟩
  exact commandReview_again hsession hkey hmac (Prod.ext ha rfl) fun k row hrow =>
    run_keeps_response between hrow

/-! ### A debt that is acknowledged twice -/

def debtReview : String := "review-0123456789abcdef0123456789abcdef"

/-- The hashes of the texts of one request. -/
def debtHashing : Hashing where
  rules := ⟨fun _ => false, fun _ => false, fun _ => true, fun _ => true⟩
  sha256 m :=
    if m.length = 32 then "3eb1bd439947eb762998e566ccc2e099c791118b2f40579cc4f7da2b5061b7f9"
    else if m.length = 42 then "5a8915e9e239aeead1220dc45ecc57018b8107f773c2e65daaaa2e2f52a52e57"
    else "05e607d12752a7aaa0f08b1249c7dd34529b357f0a70b37e401e1b8256bd0760"
  hmac _ m :=
    if m.length = 38 then "70e2214e182cc20fe3ec10a350779bb4125d4628b71fa67ed7d79e5b5d3c5d4f"
    else "2140832898b62ef3228f6d6a46def5de35a373e06fc10dc2c9c3879eede044ca"
  timeText _ := "2026-01-01T00:00:00.000Z"

/-- The request of an operator who acknowledges the debt of a review. -/
def debtRequest : ReviewRequest where
  session := "0123456789abcdef0123456789abcdef"
  key := some "review-key-01"
  route := "/api/v1/reviews/review-0123456789abcdef0123456789abcdef/commands/acknowledge-debt"
  reviewId := debtReview
  command := "acknowledge-debt"
  body := []
  draws :=
    { actionHex := "00000000000000000000000000000000", operationHex := "00000000000000000000000000000000"
      auditHex := "00000000000000000000000000000000", journalHex := "00000000000000000000000000000000"
      reservedAt := 0, now := 0, completedAt := 0, metadata := fun _ => some (.obj []), failsAfter := none }

/-- A run with a review that passed with debt. -/
def debtTables : Ledger ReviewTables where
  content :=
    { reviews := ⟨[(debtReview, ⟨"run-1", "PASS_WITH_DEBT"⟩)], by simp⟩
      runs := ⟨[("run-1", "shop")], by simp⟩, actions := .empty, events := [] }
  records := .empty

theorem undecided_debt : Undecided debtTables := by
  refine ⟨rfl, rfl, rfl, rfl, ?_, ?_⟩
  · intro e he
    cases he
  · intro e he
    cases he

theorem debt_acknowledged : ∃ a, (commandReview debtHashing debtRequest debtTables).1 = .ok a := by
  have haccepted : (commandReview debtHashing debtRequest debtTables).1.toOption.isSome = true := by
    decide +kernel
  cases hres : (commandReview debtHashing debtRequest debtTables).1 with
  | ok a => exact ⟨a, rfl⟩
  | error e =>
    rw [hres] at haccepted
    cases haccepted

theorem debt_acknowledged_once : ∃ a, (commandReview debtHashing debtRequest debtTables).1 = .ok a ∧
    (commandReview debtHashing debtRequest (commandReview debtHashing debtRequest debtTables).2).1 =
      .ok a := by
  obtain ⟨a, ha⟩ := debt_acknowledged
  obtain ⟨-, -, -, hlater⟩ := review_decided_once debtHashing debtTables undecided_debt [] [] debtRequest
    debtRequest rfl rfl fun _ => rfl
  obtain ⟨-, hsame, -⟩ := hlater a ha
  rcases hsame ⟨rfl, rfl⟩ (by decide) with h | ⟨hfails, -⟩
  · exact ⟨a, ha, h⟩
  · cases hfails

end HermesOps.Controller.Commands
