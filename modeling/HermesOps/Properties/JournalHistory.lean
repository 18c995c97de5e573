import HermesOps.Controller.EventJournal
import HermesOps.Schemes.Log

/-! The event journal over whole histories of transactions. A journal is an ordered log whose rows pass
    the checks of their own replay; a committed journal only grows, past its last sequence, so that
    a reader that follows it page by page misses nothing and receives nothing twice. -/

namespace HermesOps.Controller

open Schemes

variable {rules : TextRules} {q : Replay} {start : Nat} {j j' : Journal} {w : JournalWorld}

/-! ### One journal -/

/-- What every journal satisfies, also one whose oldest rows are gone. -/
structure RowsInv (rules : TextRules) (j : Journal) : Prop where
  ordered : Log.Ordered JournalRow.sequence j.rows
  bounded : ∀ r ∈ j.rows, r.sequence ≤ j.lastSequence
  readable : ∀ r ∈ j.rows, rowToEnvelope rules r = .ok r.envelope

/-- What every journal with all its rows satisfies. -/
structure JournalInv (rules : TextRules) (j : Journal) : Prop extends RowsInv rules j where
  revisions : ∀ type id, (j.rows.filter (JournalRow.isOf type id)).map JournalRow.aggregateRevision =
    List.range' 1 (j.rows.filter (JournalRow.isOf type id)).length

theorem journalInv_empty : JournalInv rules .empty :=
  ⟨⟨.nil, by simp [Journal.empty], by simp [Journal.empty]⟩, by simp [Journal.empty]⟩

theorem foldl_max_range' (n : Nat) : (List.range' 1 n).foldl max 0 = n := by
  induction n with
  | zero => rfl
  | succ n ih =>
    rw [List.range'_1_concat, List.foldl_append, ih]
    simp only [List.foldl_cons, List.foldl_nil]
    omega

/-- The next revision counts the events of the aggregate. -/
theorem JournalInv.nextRevision (hI : JournalInv rules j) (type id : String) :
    j.nextRevision type id = (j.rows.filter (JournalRow.isOf type id)).length + 1 := by
  rw [Journal.nextRevision, hI.revisions, foldl_max_range']

/-- An `emit` that succeeds appends one row, which can be replayed. -/
theorem emit_ok {e : EventInput} {env : Envelope} (h : j.emit rules e = .ok (j', env)) :
    ∃ r, j' = ⟨j.rows ++ [r], j.lastSequence + 1⟩ ∧ r.sequence = j.lastSequence + 1 ∧
      r.aggregateRevision = j.nextRevision r.aggregateType r.aggregateId ∧ env = r.envelope ∧
      rowToEnvelope rules r = .ok r.envelope := by
  unfold Journal.emit at h
  split at h
  · cases h
  · rename_i hvalid
    split at h
    · cases h
    · rename_i hdata
      dsimp only at h
      split at h
      · rename_i j₂ hins
        simp only [Except.ok.injEq, Prod.mk.injEq] at h
        obtain ⟨rfl, rfl⟩ := h
        unfold Journal.insert at hins
        split at hins
        · simp only [Option.some.injEq] at hins
          subst hins
          refine ⟨_, rfl, rfl, rfl, rfl, ?_⟩
          rw [not_not] at hvalid hdata
          obtain ⟨ht, ha, hg, hai, hgi, hp, ho, hc, hcor, hid, hts⟩ := of_decide_eq_true hvalid
          rw [rowToEnvelope, if_pos]
          exact ⟨hdata, hts, hai, hgi, hc, hp, ho, Nat.succ_pos _, hid, ht, ha, hg, Nat.succ_pos _, hcor⟩
        · cases hins
      · cases h

/-- What the appended row adds to the rows of an aggregate. -/
theorem filter_append_row (r : JournalRow) (type id : String) (rows : List JournalRow) :
    (rows ++ [r]).filter (JournalRow.isOf type id) = rows.filter (JournalRow.isOf type id) ++
      if r.isOf type id then [r] else [] := by
  rw [List.filter_append]
  by_cases hr : r.isOf type id = true
  · rw [if_pos hr, List.filter_cons_of_pos hr, List.filter_nil]
  · rw [if_neg hr, List.filter_cons_of_neg hr, List.filter_nil]

theorem RowsInv.append (hI : RowsInv rules j) {r : JournalRow} (hseq : r.sequence = j.lastSequence + 1)
    (hread : rowToEnvelope rules r = .ok r.envelope) :
    RowsInv rules ⟨j.rows ++ [r], j.lastSequence + 1⟩ := by
  have hnew : ∀ x ∈ j.rows, x.sequence < r.sequence := by
    intro x hx
    have := hI.bounded x hx
    omega
  refine ⟨hI.ordered.append hnew, fun x hx => ?_, fun x hx => ?_⟩
  · rcases List.mem_append.1 hx with hx | hx
    · have := hI.bounded x hx
      dsimp only
      omega
    · rw [List.mem_singleton.1 hx, hseq]
  · rcases List.mem_append.1 hx with hx | hx
    · exact hI.readable x hx
    · rw [List.mem_singleton.1 hx]; exact hread

theorem JournalInv.emit (hI : JournalInv rules j) {e : EventInput} {env : Envelope}
    (h : j.emit rules e = .ok (j', env)) : JournalInv rules j' := by
  obtain ⟨r, rfl, hseq, hrev, -, hread⟩ := emit_ok h
  refine ⟨hI.toRowsInv.append hseq hread, fun type id => ?_⟩
  dsimp only
  rw [filter_append_row, List.map_append, hI.revisions]
  by_cases hr : r.isOf type id = true
  · obtain ⟨rfl, rfl⟩ := of_decide_eq_true hr
    rw [if_pos hr, List.length_append, List.length_singleton, List.range'_1_concat, List.map_singleton,
      hrev, hI.nextRevision, Nat.add_comm 1]
  · rw [if_neg hr, List.map_nil, List.append_nil, List.append_nil]

/-! ### What a transaction adds -/

/-- `j'` has more rows, all of them past the last sequence of `j`. -/
def Journal.Extends (j j' : Journal) : Prop :=
  j.lastSequence ≤ j'.lastSequence ∧
    ∃ new, j'.rows = j.rows ++ new ∧ ∀ r ∈ new, j.lastSequence < r.sequence

theorem Journal.Extends.rfl : j.Extends j := ⟨Nat.le_refl _, [], (List.append_nil _).symm, by simp⟩

theorem Journal.Extends.emit {j₀ : Journal} (hx : j₀.Extends j) {e : EventInput} {env : Envelope}
    (h : j.emit rules e = .ok (j', env)) : j₀.Extends j' := by
  obtain ⟨hle, new, hrows, hnew⟩ := hx
  obtain ⟨r, rfl, hseq, -⟩ := emit_ok h
  refine ⟨Nat.le_succ_of_le hle, new ++ [r], by simp [hrows], fun x hx => ?_⟩
  rcases List.mem_append.1 hx with hx | hx
  · exact hnew x hx
  · rw [List.mem_singleton.1 hx]; omega

/-! ### Pages -/

theorem Log.Ordered.sorted {rows : List JournalRow} (h : Log.Ordered JournalRow.sequence rows) :
    rows.Pairwise fun x y => x.sequence ≤ y.sequence := h.imp fun hlt => Nat.le_of_lt hlt

theorem RowsInv.select (hI : RowsInv rules j) (after : Nat) :
    j.select q after = Log.page JournalRow.sequence q.selects j.rows after q.limit := by
  rw [Journal.select, (Log.Ordered.sorted (hI.ordered.filter _)).insertionSort_eq, Log.page]

theorem mapM_rowToEnvelope {rows : List JournalRow}
    (h : ∀ r ∈ rows, rowToEnvelope rules r = .ok r.envelope) :
    rows.mapM (rowToEnvelope rules) = .ok (rows.map JournalRow.envelope) := by
  induction rows with
  | nil => rfl
  | cons r rows ih =>
    rw [List.mapM_cons, h r List.mem_cons_self, ih fun x hx => h x (List.mem_cons_of_mem _ hx)]
    rfl

/-- A replay with valid arguments returns the next page. -/
theorem RowsInv.readAfter (hI : RowsInv rules j) (after : Nat) :
    j.readAfter rules q after = q.check.map fun _ =>
      (Log.page JournalRow.sequence q.selects j.rows after q.limit).map JournalRow.envelope := by
  have hread : (j.select q after).mapM (rowToEnvelope rules) =
      .ok ((j.select q after).map JournalRow.envelope) := by
    refine mapM_rowToEnvelope fun r hr => hI.readable r ?_
    rw [hI.select] at hr
    exact (Log.mem_page hr).1
  rw [Journal.readAfter, hread, hI.select]
  cases q.check <;> rfl

theorem getLast?_envelope (rows : List JournalRow) (cursor : Nat) :
    (((rows.map JournalRow.envelope).getLast?.map Envelope.sequence).getD cursor) =
      Log.advance JournalRow.sequence cursor rows := by
  rw [List.getLast?_map, Option.map_map, Log.advance]
  rfl

/-! ### Histories -/

/-- The journals of the writers, and what the reader has received. -/
structure HistoryInv (rules : TextRules) (q : Replay) (start : Nat) (w : JournalWorld) : Prop where
  committed : JournalInv rules w.committed
  pending : ∀ j, w.pending = some j → JournalInv rules j ∧ w.committed.Extends j
  cursor : w.cursor = start ∨ start ≤ w.cursor ∧ w.cursor ≤ w.committed.lastSequence
  received : w.received = (Log.segment JournalRow.sequence q.selects w.committed.rows start
    w.cursor).map JournalRow.envelope

theorem HistoryInv.start_le (hI : HistoryInv rules q start w) : start ≤ w.cursor := by
  rcases hI.cursor with h | h <;> omega

/-- The world after a successful read. -/
theorem HistoryInv.step_read (hI : HistoryInv rules q start w) (hq : q.check = .ok ()) :
    w.step rules q .read = { w with
      cursor := Log.advance JournalRow.sequence w.cursor
        (Log.page JournalRow.sequence q.selects w.committed.rows w.cursor q.limit)
      received := w.received ++ (Log.page JournalRow.sequence q.selects w.committed.rows w.cursor
        q.limit).map JournalRow.envelope } := by
  simp only [JournalWorld.step, hI.committed.readAfter, hq, Except.map, getLast?_envelope]

theorem HistoryInv.read (hI : HistoryInv rules q start w) :
    HistoryInv rules q start (w.step rules q .read) := by
  cases hq : q.check with
  | error e =>
    have : w.step rules q .read = w := by
      simp only [JournalWorld.step, hI.committed.readAfter, hq, Except.map]
    rw [this]
    exact hI
  | ok u =>
    rw [hI.step_read hq]
    refine ⟨hI.committed, hI.pending, ?_, ?_⟩
    · dsimp only
      rw [Log.advance]
      cases hlast : (Log.page JournalRow.sequence q.selects w.committed.rows w.cursor
          q.limit).getLast? with
      | none => exact hI.cursor
      | some r =>
        obtain ⟨hr, -, hlt⟩ := Log.mem_page (List.mem_of_getLast? hlast)
        have := hI.committed.bounded r hr
        have := hI.start_le
        simp only [Option.map_some, Option.getD_some]
        omega
    · dsimp only
      rw [Log.segment_page hI.committed.ordered hI.start_le, List.map_append, hI.received]

theorem HistoryInv.step (hI : HistoryInv rules q start w) (a : JournalAction) :
    HistoryInv rules q start (w.step rules q a) := by
  cases a with
  | begin =>
    simp only [JournalWorld.step]
    split
    · exact hI
    · refine ⟨hI.committed, fun j hj => ?_, hI.cursor, hI.received⟩
      cases hj
      exact ⟨hI.committed, .rfl⟩
  | emit e =>
    simp only [JournalWorld.step]
    split
    · exact hI
    · rename_i j hj
      split
      · rename_i j' env he
        refine ⟨hI.committed, fun k hk => ?_, hI.cursor, hI.received⟩
        cases hk
        exact ⟨(hI.pending j hj).1.emit he, (hI.pending j hj).2.emit he⟩
      · exact hI
  | commit =>
    simp only [JournalWorld.step]
    split
    · exact hI
    · rename_i j hj
      obtain ⟨hJ, hle, new, hrows, hnew⟩ := hI.pending j hj
      refine ⟨hJ, fun k hk => (by cases hk), ?_, ?_⟩
      · have := hI.cursor
        dsimp only
        omega
      · rw [hI.received]
        dsimp only
        rcases hI.cursor with hc | hc
        · -- a reader that has not moved has received nothing
          rw [hc, Log.segment_self, Log.segment_self]
        · rw [hrows, Log.segment_append]
          intro r hr
          have := hnew r hr
          omega
  | rollback => exact ⟨hI.committed, fun j hj => (by cases hj), hI.cursor, hI.received⟩
  | read => exact hI.read

theorem historyInv_reachable
    (hw : (journalMachine rules q start).Reachable (fun _ _ => True) w) :
    HistoryInv rules q start w := by
  induction hw with
  | start hs =>
    cases hs
    exact ⟨journalInv_empty, fun j hj => (by cases hj), .inl rfl, rfl⟩
  | step a _ _ ih => exact ih.step a

/-- The committed rows stay, and a commit appends to them. -/
theorem HistoryInv.grows (hI : HistoryInv rules q start w) (a : JournalAction) :
    w.committed.rows <+: (w.step rules q a).committed.rows := by
  cases a with
  | commit =>
    simp only [JournalWorld.step]
    split
    · exact List.prefix_refl _
    · rename_i j hj
      obtain ⟨-, -, new, hrows, -⟩ := hI.pending j hj
      exact ⟨new, hrows.symm⟩
  | _ =>
    simp only [JournalWorld.step]
    repeat' split
    all_goals exact List.prefix_refl _

/-- Each read takes one page off what is left, so enough of them leave nothing. -/
theorem HistoryInv.reads (hq : q.check = .ok ()) (n : Nat) : ∀ {w : JournalWorld},
    HistoryInv rules q start w →
    (w.committed.rows.filter fun r => q.selects r && w.cursor < r.sequence).length ≤ n →
    ((journalMachine rules q start).run w (List.replicate n .read)).received =
      (w.committed.rows.filter fun r => q.selects r && start < r.sequence).map
        JournalRow.envelope := by
  induction n with
  | zero =>
    intro w hI hn
    rw [List.replicate_zero, Machine.run, hI.received]
    exact congrArg _ (Log.segment_of_rest hI.committed.ordered
      (List.eq_nil_of_length_eq_zero (Nat.le_zero.1 hn)))
  | succ n ih =>
    intro w hI hn
    have hlimit : 1 ≤ q.limit := by
      have hq := hq
      simp only [Replay.check, bind, Except.bind] at hq
      split at hq
      · cases hq
      · rename_i hr
        have := of_decide_eq_true (require_ok.1 hr)
        omega
    have hstep := hI.read
    have hrest : ((w.step rules q .read).committed.rows.filter fun r =>
        q.selects r && (w.step rules q .read).cursor < r.sequence).length ≤ n := by
      rw [hI.step_read hq]
      dsimp only
      rw [Log.rest_page hI.committed.ordered, List.length_drop]
      omega
    have := ih hstep hrest
    rw [List.replicate_succ, Machine.run]
    refine this.trans ?_
    rw [hI.step_read hq]

/-- In every history of committed and rolled back transactions, the committed events are in the order
    of their sequences and stay so, the revisions of each aggregate are 1, 2, 3, … in that order,
    and a reader has received exactly the events its filter selects up to its cursor; repeating the
    call delivers all of them. -/
theorem journal_exact (rules : TextRules) (q : Replay) (start : Nat) {w : JournalWorld}
    (hw : (journalMachine rules q start).Reachable (fun _ _ => True) w) :
    Log.Ordered JournalRow.sequence w.committed.rows ∧
    (∀ a, w.committed.rows <+: (w.step rules q a).committed.rows) ∧
    (∀ type id, (w.committed.rows.filter (JournalRow.isOf type id)).map JournalRow.aggregateRevision =
      List.range' 1 (w.committed.rows.filter (JournalRow.isOf type id)).length) ∧
    w.received = (w.committed.rows.filter fun r => q.selects r && (start < r.sequence &&
      r.sequence ≤ w.cursor)).map JournalRow.envelope ∧
    (q.check = .ok () → ∀ n, w.committed.rows.length ≤ n →
      ((journalMachine rules q start).run w (List.replicate n .read)).received =
        (w.committed.rows.filter fun r => q.selects r && start < r.sequence).map
          JournalRow.envelope) := by
  have hI := historyInv_reachable hw
  refine ⟨hI.committed.ordered, hI.grows, hI.committed.revisions, hI.received, fun hq n hn => ?_⟩
  exact HistoryInv.reads hq n hI (Nat.le_trans (List.length_filter_le ..) hn)

/-- Texts without secrets, and any timestamp. -/
def plainRules : TextRules := ⟨fun _ => false, fun _ => false, fun _ => true, fun _ => true⟩

def projectEvent (eventId : String) : EventInput where
  eventType := "project.created"
  actorType := "operator"
  actorId := "operator:local"
  aggregateType := "project"
  aggregateId := "demo"
  correlationId := "corr_00000000000000000000000000000000"
  data := .obj [("state", .str "enabled")]
  causationId := none
  projectId := some "demo"
  objectiveId := none
  eventId := eventId
  occurredAt := "2026-01-01T00:00:00.000Z"

/-- One event is committed, one is rolled back, and a third is committed after the first read. -/
def twoTransactions : List JournalAction :=
  [ .begin,
    .emit (projectEvent "evt_00000000000000000000000000000001"),
    .commit,
    .begin,
    .emit (projectEvent "evt_00000000000000000000000000000002"),
    .rollback,
    .read,
    .begin,
    .emit (projectEvent "evt_00000000000000000000000000000003"),
    .commit,
    .read ]

def everyEvent : Replay := ⟨1, none, none⟩

set_option maxRecDepth 20000 in
theorem journal_exact_two :
    ((journalMachine plainRules everyEvent 0).run ⟨.empty, none, 0, []⟩
      twoTransactions).received.map Envelope.sequence = [1, 2] ∧
    Log.Ordered JournalRow.sequence ((journalMachine plainRules everyEvent 0).run
      ⟨.empty, none, 0, []⟩ twoTransactions).committed.rows :=
  ⟨by decide, (journal_exact plainRules everyEvent 0 (.run (.of_start rfl) (by decide))).1⟩

end HermesOps.Controller
