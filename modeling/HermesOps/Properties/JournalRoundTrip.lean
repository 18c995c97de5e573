import HermesOps.Controller.StoredJournal
import HermesOps.Properties.JournalHistory
import HermesOps.Properties.JsonRoundTrip

/-! What `emit` writes and `_row_to_envelope` reads. Data that passes `_validate_data` has finite floats
    and integers that can be printed, so it is plain and its text determines it; the reader accepts
    a text only when it is the one that the writer would store. The journal of texts refines the
    journal of values. -/

namespace HermesOps.Controller

variable {p : Persistence} {j : StoredJournal} {e : EventInput}

/-! ### Data that passes the checks -/

theorem finite_repr {r : String} (h : isFiniteRepr r = true) : r ∉ specialReprs := by
  have hnot := of_decide_eq_true h
  simp only [List.mem_cons, List.not_mem_nil, or_false, not_or] at hnot
  simp only [specialReprs, List.mem_cons, List.not_mem_nil, or_false, not_or]
  exact ⟨hnot.1, hnot.2.1, hnot.2.2.1⟩

section Plain

variable {rules : TextRules} {f : FloatRules}

mutual

/-- A value of the language that `visit` accepts and `json.dumps` writes is plain. -/
theorem plain_of_visit (hf : f.Sound) {v : Json} {nodes depth count : Nat} (hvalid : v.Valid f)
    (hvisit : visit rules nodes depth v = some count) (hwrite : isWritable v = true) : Plain f v := by
  cases v with
  | null => simp [Plain]
  | bool b => simp [Plain]
  | str s => simp [Plain]
  | int n =>
    rw [isWritable] at hwrite
    rw [Plain]
    exact of_decide_eq_true hwrite
  | float r =>
    rw [Json.Valid] at hvalid
    rw [visit] at hvisit
    split_ifs at hvisit with hbound hfinite
    rw [Plain]
    exact ⟨hf.literal r hvalid (finite_repr hfinite), hf.fixed r hvalid (finite_repr hfinite)⟩
  | arr items =>
    rw [Json.Valid] at hvalid
    rw [isWritable] at hwrite
    rw [visit] at hvisit
    split_ifs at hvisit with hbound
    rw [Plain]
    exact plain_of_visitItems hf hvalid hvisit hwrite
  | obj members =>
    rw [Json.Valid] at hvalid
    rw [isWritable] at hwrite
    rw [visit] at hvisit
    split_ifs at hvisit with hbound
    rw [Plain]
    exact ⟨plain_of_visitMembers hf hvalid.1 hvisit hwrite, hvalid.2⟩

theorem plain_of_visitItems (hf : f.Sound) {items : List Json} {nodes depth count : Nat}
    (hvalid : ItemsValid f items)
    (hvisit : visitItems rules nodes depth items = some count) (hwrite : areWritable items = true) :
    PlainItems f items := by
  cases items with
  | nil => simp [PlainItems]
  | cons x xs =>
    rw [ItemsValid] at hvalid
    rw [areWritable, Bool.and_eq_true] at hwrite
    rw [visitItems] at hvisit
    obtain ⟨n, hx, hxs⟩ := Option.bind_eq_some_iff.1 hvisit
    rw [PlainItems]
    exact ⟨plain_of_visit hf hvalid.1 hx hwrite.1, plain_of_visitItems hf hvalid.2 hxs hwrite.2⟩

theorem plain_of_visitMembers (hf : f.Sound) {members : List (String × Json)} {nodes depth count : Nat}
    (hvalid : MembersValid f members) (hvisit : visitMembers rules nodes depth members = some count)
    (hwrite : membersWritable members = true) : PlainMembers f members := by
  match members with
  | [] => simp [PlainMembers]
  | (k, x) :: xs =>
    rw [MembersValid] at hvalid
    rw [membersWritable, Bool.and_eq_true] at hwrite
    rw [visitMembers] at hvisit
    split at hvisit
    · obtain ⟨n, hx, hxs⟩ := Option.bind_eq_some_iff.1 hvisit
      rw [PlainMembers]
      exact ⟨plain_of_visit hf hvalid.1 hx hwrite.1, plain_of_visitMembers hf hvalid.2 hxs hwrite.2⟩
    · cases hvisit

end

end Plain

/-! ### One function at a time -/

/-- What `_validate_data` stores. -/
theorem encodeData_ok {data : Json} {encoded : String} : encodeData p data = .ok encoded ↔
    validateData p.rules data = true ∧ isWritable data = true ∧ encoded = canonicalJson data := by
  cases data with
  | obj members =>
    simp only [encodeData, validateData, dumps, Bool.and_eq_true, decide_eq_true_eq]
    by_cases hvisit : (visit p.rules 0 0 (.obj members)).isSome = true
    · rw [if_pos hvisit]
      by_cases hwrite : isWritable (.obj members) = true
      · rw [if_pos hwrite]
        dsimp only
        split
        · rename_i hsize
          simp only [Except.ok.injEq, hvisit, hsize, hwrite, true_and]
          exact eq_comm
        · rename_i hsize
          simp [hsize]
      · rw [if_neg hwrite]
        simp [hwrite]
    · rw [if_neg hvisit]
      simp [hvisit]
  | _ => simp [encodeData, validateData]

/-- Accepted data is read back from its text. -/
theorem loads_encoded (hf : p.floats.Sound) {data : Json} {encoded : String}
    (hvalid : data.Valid p.floats) (h : encodeData p data = .ok encoded) :
    loads p.floats encoded = some data := by
  obtain ⟨hdata, hwrite, rfl⟩ := encodeData_ok.1 h
  cases data with
  | obj members =>
    rw [validateData, Bool.and_eq_true] at hdata
    obtain ⟨count, hvisit⟩ := Option.isSome_iff_exists.1 hdata.1
    exact loads_canonical (plain_of_visit hf hvalid hvisit hwrite)
  | _ => cases hdata

/-- The conditions of an insertion that are not about the data. -/
def StoredJournal.Admits (p : Persistence) (j : StoredJournal) (e : EventInput) : Prop :=
  3 ≤ e.eventType.length ∧ e.eventType.length ≤ 128 ∧ p.rules.timestampGuard e.occurredAt = true ∧
    (j.rows.all fun x => x.eventId ≠ e.eventId) = true ∧ j.lastSequence + 1 < 2 ^ 63

/-- The row of an event at the end of a journal. -/
def StoredJournal.nextRow (j : StoredJournal) (e : EventInput) (encoded : String) : StoredRow :=
  e.storedRow (j.lastSequence + 1) (j.nextRevision e.aggregateType e.aggregateId) encoded

/-- A call that returns has inserted the row of its event. -/
theorem StoredJournal.emit_ok {next : StoredJournal} {envelope : Envelope}
    (h : j.emit p e = .ok (next, envelope)) :
    ∃ encoded, e.isValid p.rules = true ∧ encodeData p e.data = .ok encoded ∧ j.Admits p e ∧
      next = ⟨j.rows ++ [j.nextRow e encoded], j.lastSequence + 1⟩ ∧
      envelope = ((j.nextRow e encoded).withData e.data).envelope := by
  unfold StoredJournal.emit at h
  split at h
  · cases h
  · rename_i hvalid
    split at h
    · cases h
    · rename_i encoded hencoded
      dsimp only at h
      split at h
      · rename_i after hinsert
        unfold StoredJournal.insert at hinsert
        split at hinsert
        · rename_i hadmits
          obtain ⟨hshort, hlong, htime, hfresh, hspace, -⟩ := hadmits
          simp only [Except.ok.injEq, Prod.mk.injEq] at h
          simp only [Option.some.injEq] at hinsert
          refine ⟨encoded, not_not.1 hvalid, hencoded, ⟨hshort, hlong, htime, hfresh, hspace⟩, ?_, h.2.symm⟩
          rw [← h.1, ← hinsert]
          rfl
        · cases hinsert
      · cases h

/-- The checks of the reader on what is not the data hold of the row of a valid event. -/
theorem toEnvelope_nextRow (hvalid : e.isValid p.rules = true) {encoded : String}
    (hread : loads p.floats encoded = some e.data) (hdata : encodeData p e.data = .ok encoded) :
    (j.nextRow e encoded).toEnvelope p = .ok ((j.nextRow e encoded).withData e.data).envelope := by
  obtain ⟨htype, hactor, haggregate, hactorId, haggregateId, hproject, hobjective, hcause, hcorrelation,
    hid, htime⟩ := of_decide_eq_true hvalid
  unfold StoredRow.toEnvelope
  rw [show (j.nextRow e encoded).redactedDataJson = encoded from rfl, hread]
  dsimp only
  rw [hdata]
  exact if_pos ⟨htime, hactorId, haggregateId, hcause, hproject, hobjective, rfl, Nat.succ_pos _, hid,
    htype, hactor, haggregate, Nat.succ_pos _, hcorrelation, rfl⟩

/-- A row that the reader accepts holds the text that the writer stores for its data. -/
theorem toEnvelope_ok {r : StoredRow} {envelope : Envelope} (h : r.toEnvelope p = .ok envelope) :
    loads p.floats r.redactedDataJson = some envelope.data ∧
      encodeData p envelope.data = .ok r.redactedDataJson := by
  unfold StoredRow.toEnvelope at h
  split at h
  · cases h
  · rename_i data hread
    split at h
    · cases h
    · rename_i encoded hencoded
      split at h
      · rename_i hchecks
        obtain ⟨-, -, -, -, -, -, -, -, -, -, -, -, -, -, hsame⟩ := hchecks
        cases h
        exact ⟨hread, hsame ▸ hencoded⟩
      · cases h

/-- A text has at least as many bytes as characters. -/
theorem length_le_bytes (s : String) : s.length ≤ s.utf8ByteSize := by
  induction s using String.push_induction with
  | empty => exact Nat.zero_le _
  | push s c ih =>
    have hpos := Char.utf8Size_pos c
    rw [String.length_push, String.utf8ByteSize_push]
    omega

/-- Data that the writer would store is stored whenever the rest of the event is accepted. -/
theorem emit_admitted {encoded : String} (hvalid : e.isValid p.rules = true) (hadmits : j.Admits p e)
    (hdata : encodeData p e.data = .ok encoded) (hobject : p.jsonObject encoded = true) :
    j.emit p e = .ok (⟨j.rows ++ [j.nextRow e encoded], j.lastSequence + 1⟩,
      ((j.nextRow e encoded).withData e.data).envelope) := by
  obtain ⟨hshort, hlong, htime, hfresh, hspace⟩ := hadmits
  have hsize : encoded.length ≤ maxEventDataBytes := by
    obtain ⟨hvalidate, -, rfl⟩ := encodeData_ok.1 hdata
    have hbytes : (canonicalJson e.data).utf8ByteSize ≤ maxEventDataBytes := by
      unfold validateData at hvalidate
      split at hvalidate
      · exact of_decide_eq_true (Bool.and_eq_true_iff.1 hvalidate).2
      · cases hvalidate
    exact (length_le_bytes _).trans hbytes
  have hinsert : j.insert p (j.nextRow e encoded) =
      some ⟨j.rows ++ [j.nextRow e encoded], j.lastSequence + 1⟩ :=
    if_pos ⟨hshort, hlong, htime, hfresh, hspace, hsize, hobject⟩
  rw [StoredJournal.nextRow] at hinsert
  unfold StoredJournal.emit
  rw [if_neg (not_not.2 hvalid), hdata]
  dsimp only
  rw [hinsert]
  rfl

/-! ### Runs -/

/-- The row that a call has inserted is read back as what the call returned. -/
theorem emit_toEnvelope (hf : p.floats.Sound) (hvalid : e.data.Valid p.floats) {next : StoredJournal}
    {envelope : Envelope} (h : j.emit p e = .ok (next, envelope)) :
    ∃ row, next.rows = j.rows ++ [row] ∧ row.toEnvelope p = .ok envelope := by
  obtain ⟨encoded, hargs, hdata, -, rfl, rfl⟩ := StoredJournal.emit_ok h
  exact ⟨_, rfl, toEnvelope_nextRow hargs (loads_encoded hf hvalid hdata) hdata⟩

/-- Everything that a run has written is read back as what its calls returned, in their order. -/
theorem emitAll_toEnvelope (hf : p.floats.Sound) {events : List EventInput}
    (hvalid : ∀ e ∈ events, e.data.Valid p.floats) {before : List Envelope}
    (h : j.rows.mapM (StoredRow.toEnvelope p) = .ok before) :
    (j.emitAll p events).1.rows.mapM (StoredRow.toEnvelope p) =
      .ok (before ++ (j.emitAll p events).2) := by
  induction events generalizing j before with
  | nil =>
    rw [StoredJournal.emitAll, List.append_nil]
    exact h
  | cons e events ih =>
    have hrest := fun e he => hvalid e (List.mem_cons_of_mem _ he)
    rw [StoredJournal.emitAll]
    cases hemit : j.emit p e with
    | error failure => exact ih hrest h
    | ok result =>
      obtain ⟨next, envelope⟩ := result
      obtain ⟨row, hrows, hread⟩ := emit_toEnvelope hf (hvalid e List.mem_cons_self) hemit
      have hnext : next.rows.mapM (StoredRow.toEnvelope p) = .ok (before ++ [envelope]) := by
        rw [hrows, List.mapM_append, h]
        simp only [List.mapM_cons, List.mapM_nil, hread]
        rfl
      dsimp only
      rw [ih hrest hnext, List.append_assoc, List.singleton_append]

/-! ### The journal of values -/

/-- The rows of a journal of texts are those of a journal of values, which the texts determine. -/
structure Represents (p : Persistence) (j : StoredJournal) (t : Journal) : Prop where
  rows : List.Forall₂ (fun r x => loads p.floats r.redactedDataJson = some x.redactedData ∧
    x = r.withData x.redactedData) j.rows t.rows
  sequence : j.lastSequence = t.lastSequence

theorem Represents.nextRevision {t : Journal} (h : Represents p j t) (type id : String) :
    j.nextRevision type id = t.nextRevision type id := by
  obtain ⟨hrows, -⟩ := h
  rw [StoredJournal.nextRevision, Journal.nextRevision]
  generalize j.rows = rows at hrows
  generalize t.rows = values at hrows
  have hsame : (rows.filter fun r => r.aggregateType = type ∧ r.aggregateId = id).map
      StoredRow.aggregateRevision =
      (values.filter (JournalRow.isOf type id)).map JournalRow.aggregateRevision := by
    induction hrows with
    | nil => rfl
    | @cons r x rows values hrow _ ih =>
      obtain ⟨-, hx⟩ := hrow
      have hof : JournalRow.isOf type id x = decide (r.aggregateType = type ∧ r.aggregateId = id) := by
        rw [hx]
        rfl
      have hrevision : x.aggregateRevision = r.aggregateRevision := by
        rw [hx]
        rfl
      rw [List.filter_cons, List.filter_cons, hof]
      split
      · rw [List.map_cons, List.map_cons, hrevision, ih]
      · exact ih
  rw [hsame]

theorem Represents.unused {t : Journal} (h : Represents p j t) (id : String) :
    (j.rows.all fun x => x.eventId ≠ id) = t.rows.all fun x => x.eventId ≠ id := by
  obtain ⟨hrows, -⟩ := h
  generalize j.rows = rows at hrows
  generalize t.rows = values at hrows
  induction hrows with
  | nil => rfl
  | @cons r x rows values hrow _ ih =>
    obtain ⟨-, hx⟩ := hrow
    have hid : x.eventId = r.eventId := by
      rw [hx]
      rfl
    rw [List.all_cons, List.all_cons, hid, ih]

/-- A call on the texts is a call on the values, with the same envelope. -/
theorem Represents.emit (hf : p.floats.Sound) (hvalid : e.data.Valid p.floats) {t : Journal}
    (h : Represents p j t) {next : StoredJournal} {envelope : Envelope}
    (hemit : j.emit p e = .ok (next, envelope)) :
    ∃ after, t.emit p.rules e = .ok (after, envelope) ∧ Represents p next after := by
  obtain ⟨encoded, hargs, hdata, ⟨hshort, hlong, htime, hfresh, hspace⟩, rfl, rfl⟩ :=
    StoredJournal.emit_ok hemit
  have hread := loads_encoded hf hvalid hdata
  have hrow : (j.nextRow e encoded).withData e.data =
      e.row (t.lastSequence + 1) (t.nextRevision e.aggregateType e.aggregateId) := by
    rw [StoredJournal.nextRow, h.nextRevision, h.sequence]
    rfl
  have hinsert : t.insert p.rules (e.row (t.lastSequence + 1) (t.nextRevision e.aggregateType
      e.aggregateId)) = some ⟨t.rows ++ [(j.nextRow e encoded).withData e.data], t.lastSequence + 1⟩ := by
    rw [hrow]
    refine if_pos ⟨hshort, hlong, htime, ?_, ?_⟩
    · exact (h.unused e.eventId).symm.trans hfresh
    · exact h.sequence ▸ hspace
  refine ⟨⟨t.rows ++ [(j.nextRow e encoded).withData e.data], t.lastSequence + 1⟩, ?_, ?_⟩
  · unfold Journal.emit
    rw [if_neg (not_not.2 hargs), if_neg (not_not.2 (encodeData_ok.1 hdata).1)]
    dsimp only
    rw [hinsert, hrow]
  · refine ⟨List.rel_append h.rows (List.Forall₂.cons ⟨hread, rfl⟩ List.Forall₂.nil), ?_⟩
    dsimp only
    rw [h.sequence]

/-- What the writers of texts leave is a journal of values that satisfies the invariant of its rows. -/
theorem emitAll_represents (hf : p.floats.Sound) {events : List EventInput}
    (hvalid : ∀ e ∈ events, e.data.Valid p.floats) {t : Journal} (h : Represents p j t)
    (hI : JournalInv p.rules t) :
    ∃ after, JournalInv p.rules after ∧ Represents p (j.emitAll p events).1 after := by
  induction events generalizing j t with
  | nil => exact ⟨t, hI, h⟩
  | cons e events ih =>
    have hrest := fun e he => hvalid e (List.mem_cons_of_mem _ he)
    rw [StoredJournal.emitAll]
    cases hemit : j.emit p e with
    | error failure => exact ih hrest h hI
    | ok result =>
      obtain ⟨next, envelope⟩ := result
      obtain ⟨after, hvalues, hnext⟩ := h.emit hf (hvalid e List.mem_cons_self) hemit
      exact ih hrest hnext (hI.emit hvalues)

/-! ### The round trip -/

/-- An inserted row is read back as the envelope that `emit` returned; the data of an accepted row is
    accepted again with the same text; and a journal that `emit` has written is read back whole. -/
theorem journal_round_trip (p : Persistence) (hf : p.floats.Sound) :
    (∀ (j next : StoredJournal) (e : EventInput) (envelope : Envelope), e.data.Valid p.floats →
      j.emit p e = .ok (next, envelope) →
      ∃ row, next.rows = j.rows ++ [row] ∧ row.toEnvelope p = .ok envelope) ∧
    (∀ (row : StoredRow) (envelope : Envelope), row.toEnvelope p = .ok envelope →
      envelope.data.Valid p.floats ∧ encodeData p envelope.data = .ok row.redactedDataJson ∧
      ∀ (j : StoredJournal) (e : EventInput), e.isValid p.rules = true → j.Admits p e →
        e.data = envelope.data → p.jsonObject row.redactedDataJson = true →
        ∃ next again new, j.emit p e = .ok (next, again) ∧ next.rows = j.rows ++ [new] ∧
          new.redactedDataJson = row.redactedDataJson) ∧
    ∀ events : List EventInput, (∀ e ∈ events, e.data.Valid p.floats) →
      (StoredJournal.empty.emitAll p events).1.rows.mapM (StoredRow.toEnvelope p) =
        .ok (StoredJournal.empty.emitAll p events).2 := by
  refine ⟨?_, ?_, ?_⟩
  · intro j next e envelope hvalid h
    exact emit_toEnvelope hf hvalid h
  · intro row envelope h
    obtain ⟨hread, hdata⟩ := toEnvelope_ok h
    refine ⟨loads_valid hf hread, hdata, ?_⟩
    intro j e hargs hadmits hsame hobject
    rw [← hsame] at hdata
    exact ⟨_, _, _, emit_admitted hargs hadmits hdata hobject, rfl, rfl⟩
  · intro events hvalid
    exact emitAll_toEnvelope (j := .empty) hf hvalid rfl

/-- One float, and the three words. -/
def sampleFloats : FloatRules where
  isRepr r := r = "1.5" || r ∈ specialReprs
  read text := if text = "1.5" then "1.5" else "nan"

theorem sampleFloats_sound : sampleFloats.Sound := by
  have hlist : ∀ r, sampleFloats.isRepr r = true → r ∉ specialReprs → r = "1.5" := by
    intro r hr hnot
    rcases Bool.or_eq_true_iff.1 hr with hr | hr
    · exact of_decide_eq_true hr
    · exact absurd (of_decide_eq_true hr) hnot
  refine ⟨?_, ?_, ?_, ?_⟩
  · intro r hr hnot
    rw [hlist r hr hnot]
    exact ⟨⟨false, ['1'], ['.', '5'], []⟩, by decide⟩
  · intro r hr hnot
    rw [hlist r hr hnot]
    rfl
  · decide
  · intro text
    show sampleFloats.isRepr (if text = "1.5" then "1.5" else "nan") = true
    split <;> rfl

def samplePersistence : Persistence := ⟨lenient, sampleFloats, fun _ => true⟩

def sampleInput : EventInput where
  eventType := "run.finished"
  actorType := "worker"
  actorId := "worker-1"
  aggregateType := "run"
  aggregateId := "run-1"
  correlationId := "corr_" ++ String.join (List.replicate 32 "0")
  data := .obj [("load", .float "1.5"), ("steps", .arr [.int (-2), .str "a\n\"b\""])]
  causationId := none
  projectId := some "project-1"
  objectiveId := none
  eventId := "evt_" ++ String.join (List.replicate 32 "1")
  occurredAt := "2026-01-02T03:04:05Z"

theorem sample_round_trip : ∃ next envelope row,
    StoredJournal.empty.emit samplePersistence sampleInput = .ok (next, envelope) ∧
      next.rows = [row] ∧ row.toEnvelope samplePersistence = .ok envelope := by
  have horder : "load" < "steps" := by decide
  have hvalid : sampleInput.data.Valid sampleFloats :=
    ⟨⟨rfl, ⟨trivial, trivial, trivial⟩, trivial⟩, List.pairwise_pair.mpr horder⟩
  have hemit : ∃ next envelope, StoredJournal.empty.emit samplePersistence sampleInput =
      .ok (next, envelope) := ⟨_, _, rfl⟩
  obtain ⟨next, envelope, hemit⟩ := hemit
  obtain ⟨row, hrows, hread⟩ :=
    (journal_round_trip samplePersistence sampleFloats_sound).1 _ _ _ _ hvalid hemit
  exact ⟨next, envelope, row, hemit, hrows, hread⟩

end HermesOps.Controller
