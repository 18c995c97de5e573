import HermesOps.Controller.EventStream
import HermesOps.Properties.JournalHistory

/-! What a WebSocket session has sent, over every interleaving with commits and removals. The cursor of
    the session cuts the history of the journal in two, and the events of its topics in the lower part
    are the ones sent. The look at the bounds and the batch are two snapshots: the batch skips an
    event only when the event is removed between them, or was removed from a journal that was empty
    when the session looked. -/

namespace HermesOps.Controller

open Schemes

variable {rules : TextRules} {w : StreamWorld} {s s' : StreamSession} {j : Journal}

/-! ### What delivery means -/

/-- The event is of the session's topics. -/
def StreamSession.selects (s : StreamSession) (r : JournalRow) : Bool :=
  r.aggregateType ∈ s.aggregates

/-- The session has sent the committed events of its topics up to its cursor, each once and in order. -/
structure Delivered (w : StreamWorld) : Prop where
  exact : w.session.events = (w.history.filter fun r => w.session.selects r &&
    (w.session.start < r.sequence && r.sequence ≤ w.session.cursor)).map JournalRow.envelope
  increasing : w.session.events.Pairwise fun x y => x.sequence < y.sequence

/-- The committed events of the topics after the cursor that the journal no longer has. -/
def StreamWorld.missed (w : StreamWorld) : List JournalRow :=
  w.history.filter fun r => w.session.selects r && w.session.cursor < r.sequence &&
    w.journal.rows.all fun x => x.sequence ≠ r.sequence

/-- The session comes to the bounds of the journal. -/
def StreamSession.looks (s : StreamSession) (current databaseFails : Bool) : Bool :=
  match s.stage with
  | .opening => !databaseFails
  | .looping => current && !databaseFails
  | _ => false

def StreamSession.reads (s : StreamSession) (databaseFails : Bool) : Bool :=
  match s.stage with
  | .reading => !databaseFails
  | _ => false

/-- A batch is read although an event before one of the journal's rows is missed: it was removed after
    the bounds were looked at. -/
def readsPastMissed (a : StreamAction) (w : StreamWorld) : Bool :=
  match a with
  | .read databaseFails => w.session.reads databaseFails && w.missed.any fun r =>
      w.journal.rows.any fun x => r.sequence < x.sequence
  | _ => false

/-- A session at sequence 0 looks at a journal all of whose rows are gone, an event of its topics among
    them. -/
def looksAtEmptied (a : StreamAction) (w : StreamWorld) : Bool :=
  match a with
  | .check current databaseFails _ => w.session.looks current databaseFails && w.journal.rows.isEmpty &&
      w.session.cursor = 0 && !w.missed.isEmpty
  | _ => false

/-- A session that looks at the bounds while an event is missed ends, with `replay_unavailable` or a
    close frame unless the socket fails. -/
def ReportsMissed (rules : TextRules) (a : StreamAction) (w : StreamWorld) : Prop :=
  ∀ current databaseFails socketFails, a = .check current databaseFails socketFails →
    w.session.stage = .opening ∨ w.session.stage = .looping → w.missed ≠ [] →
    ∃ how, (w.step rules a).session.stage = .ended how ∧ (how = .gone → socketFails = true)

/-! ### Subscriptions -/

theorem accepted_topics {message : Json} {after : Nat} {topics : List String}
    (h : parseSubscribe message = .ok (after, topics)) :
    (∀ topic ∈ topics, topic ∈ supportedTopics) ∧ ("all" ∈ topics → topics.length = 1) := by
  unfold parseSubscribe violation at h
  repeat' split at h
  all_goals cases h
  rename_i hbad
  simp only [not_or, not_not, not_and] at hbad
  exact hbad.2.2

theorem mapM_aggregatesOf {topics : List String} (h : ∀ topic ∈ topics, (aggregatesOf topic).isSome) :
    (topics.mapM aggregatesOf).isSome := by
  induction topics with
  | nil => rfl
  | cons topic topics ih =>
    obtain ⟨x, hx⟩ := Option.isSome_iff_exists.1 (h topic List.mem_cons_self)
    obtain ⟨xs, hxs⟩ := Option.isSome_iff_exists.1 (ih fun t ht => h t (List.mem_cons_of_mem _ ht))
    rw [List.mapM_cons, hx, hxs]
    rfl

/-- Every accepted subscription opens a session at its sequence. -/
theorem openSession_accepted {message : Json} {after : Nat} {topics : List String}
    (h : parseSubscribe message = .ok (after, topics)) :
    ∃ s, openSession none message = .ok s ∧ s.start = after ∧ s.topics = topics := by
  obtain ⟨hknown, hall⟩ := accepted_topics h
  have hsome : (aggregatesForTopics topics).isSome := by
    unfold aggregatesForTopics
    split
    · rfl
    · rename_i hne
      rw [Option.isSome_map]
      refine mapM_aggregatesOf fun topic ht => ?_
      have hkey : topic ≠ "all" := by
        rintro rfl
        obtain ⟨x, hx⟩ := List.length_eq_one_iff.1 (hall ht)
        rw [hx, List.mem_singleton] at ht
        exact hne (.inr (by rw [hx, ht]))
      have hsupported := hknown topic ht
      simp only [supportedTopics, topicAggregates, List.map_cons, List.map_nil, List.cons_append,
        List.nil_append, List.mem_cons, List.not_mem_nil, or_false] at hsupported
      rcases hsupported with rfl | rfl | rfl | rfl | rfl | rfl | rfl | rfl | rfl | rfl | rfl | rfl | rfl
      all_goals first | rfl | exact absurd rfl hkey
  obtain ⟨aggregates, ha⟩ := Option.isSome_iff_exists.1 hsome
  refine ⟨⟨after, topics, aggregates, after, [], .opening⟩, ?_, rfl, rfl⟩
  simp [openSession, subscription, h, ha, bind, Except.bind]

/-- A session without topics, or with the topic `all`, selects every event that can be replayed. -/
theorem selects_all (hs : s.aggregates = allAggregateTypes) {r : JournalRow}
    (hr : rowToEnvelope rules r = .ok r.envelope) : s.selects r = true := by
  unfold rowToEnvelope at hr
  split at hr
  · rename_i h
    have htype : r.aggregateType ∈ aggregateTypes := h.2.2.2.2.2.2.2.2.2.2.2.1
    have hsub : ∀ type ∈ aggregateTypes, type ∈ allAggregateTypes := by decide
    rw [StreamSession.selects, hs]
    exact decide_eq_true (hsub _ htype)
  · cases hr

/-! ### The bounds -/

/-- A missed event is before every row of the journal. -/
theorem unavailable_of_before (hne : j.rows ≠ [] ∨ s.cursor ≠ 0) {k : Nat} (hk : s.cursor < k)
    (hbefore : ∀ x ∈ j.rows, k < x.sequence) : j.unavailable s.cursor = true := by
  unfold Journal.unavailable Journal.bounds
  cases hrows : j.rows with
  | nil =>
    have : 0 < s.cursor := by
      rcases hne with h | h
      · exact absurd hrows h
      · omega
    simpa using this
  | cons r rows =>
    -- the oldest row is one of the rows
    obtain ⟨oldest, hmin⟩ : ∃ oldest, (j.rows.map JournalRow.sequence).min? = some oldest := by
      cases h : (j.rows.map JournalRow.sequence).min? with
      | some oldest => exact ⟨oldest, rfl⟩
      | none => simp [hrows] at h
    obtain ⟨x, hx, rfl⟩ := List.mem_map.1 (List.min?_mem hmin)
    have := hbefore x hx
    rw [← hrows, hmin]
    simp only [Option.any_some, Bool.or_eq_true, decide_eq_true_eq]
    omega

/-! ### Steps that send no event -/

/-- The session goes on with the same cursor and events, and opens no batch. -/
structure StreamSession.Quiet (s s' : StreamSession) : Prop where
  start : s'.start = s.start
  aggregates : s'.aggregates = s.aggregates
  cursor : s'.cursor = s.cursor
  events : s'.events = s.events
  batch : ∀ batch, s'.stage = .draining batch → s.stage = .draining batch

theorem StreamSession.Quiet.rfl : s.Quiet s := ⟨Eq.refl _, Eq.refl _, Eq.refl _, Eq.refl _, fun _ h => h⟩

theorem quiet_stage {next : StreamStage} (hnext : ∀ batch, next ≠ .draining batch) :
    s.Quiet { s with stage := next } := ⟨rfl, rfl, rfl, rfl, fun batch h => absurd h (hnext batch)⟩

theorem quiet_endWith (how : Ending) : s.Quiet (s.endWith how) := quiet_stage (by simp)

theorem events_send (message : ServerMessage) (next : StreamStage) :
    (s.send message next).events = s.events ++ match message with
      | .event e => [e]
      | _ => [] := by
  unfold StreamSession.events StreamSession.send
  rw [List.filterMap_append]
  cases message <;> rfl

theorem quiet_send {message : ServerMessage} {next : StreamStage} (hm : ∀ e, message ≠ .event e)
    (hnext : ∀ batch, next ≠ .draining batch) : s.Quiet (s.send message next) := by
  refine ⟨rfl, rfl, rfl, ?_, fun batch h => absurd h (hnext batch)⟩
  rw [events_send]
  cases message with
  | event e => exact absurd rfl (hm e)
  | _ => exact List.append_nil _

theorem quiet_lookAt (socketFails : Bool) : s.Quiet (s.lookAt j socketFails) := by
  unfold StreamSession.lookAt
  split
  · split
    · exact quiet_endWith _
    · exact quiet_send (by simp) (by simp)
  · split
    · split
      · exact quiet_endWith _
      · exact quiet_send (by simp) (by simp)
    · exact quiet_stage (by simp)

theorem quiet_check (current databaseFails socketFails : Bool) :
    s.Quiet (s.check j current databaseFails socketFails) := by
  unfold StreamSession.check
  split
  · split
    · exact quiet_endWith _
    · exact quiet_lookAt _
  · split
    · exact quiet_endWith _
    · split
      · exact quiet_endWith _
      · exact quiet_lookAt _
  · exact .rfl

theorem quiet_wait (heartbeat : Bool) (frame : StreamSession.Frame) (databaseFails socketFails : Bool) :
    s.Quiet (s.wait j heartbeat frame databaseFails socketFails) := by
  unfold StreamSession.wait
  split
  · rename_i hs
    split
    · exact quiet_endWith _
    · split
      · exact quiet_endWith _
      · have hbeat : s.Quiet (if heartbeat then s.send (.heartbeat j.bounds.2) .waiting else s) := by
          split
          · exact quiet_send (by simp) (by simp)
          · exact .rfl
        obtain ⟨hstart, haggregates, hcursor, hevents, -⟩ := hbeat
        cases frame <;> exact ⟨hstart, haggregates, hcursor, hevents, by simp [StreamSession.endWith]⟩
  · exact .rfl

/-! ### The invariant -/

/-- What is left of a batch: committed events after the cursor, with every event of the topics that
    comes before one of them. -/
structure Batch (w : StreamWorld) (rows : List JournalRow) : Prop where
  ordered : Log.Ordered JournalRow.sequence rows
  committed : ∀ x ∈ rows, x ∈ w.history ∧ w.session.cursor < x.sequence
  complete : ∀ x ∈ rows, ∀ r ∈ w.history, w.session.selects r = true →
    w.session.cursor < r.sequence → r.sequence ≤ x.sequence → r ∈ rows

structure StreamInv (rules : TextRules) (w : StreamWorld) : Prop where
  history : RowsInv rules ⟨w.history, w.journal.lastSequence⟩
  journal : ∃ upTo ≤ w.journal.lastSequence,
    w.journal.rows = w.history.filter fun r => upTo < r.sequence
  cursor : w.session.cursor = w.session.start ∨
    w.session.start ≤ w.session.cursor ∧ w.session.cursor ≤ w.journal.lastSequence
  events : w.session.events = (Log.segment JournalRow.sequence w.session.selects w.history
    w.session.start w.session.cursor).map JournalRow.envelope
  batch : ∀ batch, w.session.stage = .draining batch →
    ∃ rows, batch = rows.map JournalRow.envelope ∧ Batch w rows

namespace StreamInv

variable (hI : StreamInv rules w)
include hI

theorem start_le : w.session.start ≤ w.session.cursor := by
  rcases hI.cursor with h | h <;> omega

theorem journal_rows : RowsInv rules w.journal := by
  obtain ⟨upTo, -, hrows⟩ := hI.journal
  refine ⟨?_, fun r hr => hI.history.bounded r ?_, fun r hr => hI.history.readable r ?_⟩
  · rw [hrows]
    exact hI.history.ordered.filter _
  · rw [hrows] at hr
    exact List.mem_of_mem_filter hr
  · rw [hrows] at hr
    exact List.mem_of_mem_filter hr

theorem delivered : Delivered w := by
  refine ⟨hI.events, ?_⟩
  rw [hI.events, List.pairwise_map]
  exact hI.history.ordered.filter _

theorem quiet (hq : w.session.Quiet s') : StreamInv rules { w with session := s' } := by
  obtain ⟨hstart, haggregates, hcursor, hevents, hbatch⟩ := hq
  have hselects : s'.selects = w.session.selects := by
    funext r
    rw [StreamSession.selects, StreamSession.selects, haggregates]
  refine ⟨hI.history, hI.journal, ?_, ?_, fun batch hb => ?_⟩
  · dsimp only
    rw [hcursor, hstart]
    exact hI.cursor
  · dsimp only
    rw [hcursor, hstart, hevents, hselects]
    exact hI.events
  · obtain ⟨rows, hrows, hordered, hcommitted, hcomplete⟩ := hI.batch batch (hbatch batch hb)
    refine ⟨rows, hrows, hordered, fun x hx => ?_, fun x hx r hr hsel hlt hle => ?_⟩
    · dsimp only
      rw [hcursor]
      exact hcommitted x hx
    · dsimp only at hsel hlt
      rw [hselects] at hsel
      rw [hcursor] at hlt
      exact hcomplete x hx r hr hsel hlt hle

/-! ### The writers -/

theorem append (e : EventInput) : StreamInv rules (w.append rules e) := by
  unfold StreamWorld.append
  split
  · rename_i j env he
    obtain ⟨r, rfl, hseq, -, -, hread⟩ := emit_ok he
    dsimp only
    rw [List.drop_left]
    obtain ⟨upTo, hle, hrows⟩ := hI.journal
    have hnew : ∀ x ∈ [r], w.journal.lastSequence < x.sequence := by simp [hseq]
    refine ⟨hI.history.append hseq hread, ⟨upTo, Nat.le_succ_of_le hle, ?_⟩, ?_, ?_, fun batch hb => ?_⟩
    · dsimp only
      rw [hrows, List.filter_append, List.filter_cons_of_pos (by simpa [hseq] using Nat.lt_succ_of_le hle),
        List.filter_nil]
    · have := hI.cursor
      dsimp only
      omega
    · rw [hI.events]
      rcases hI.cursor with hc | hc
      · rw [hc, Log.segment_self, Log.segment_self]
      · rw [Log.segment_append]
        intro x hx
        exact Nat.lt_of_le_of_lt hc.2 (hnew x hx)
    · obtain ⟨rows, hb, hordered, hcommitted, hcomplete⟩ := hI.batch batch hb
      refine ⟨rows, hb, hordered, fun x hx => ?_, fun x hx y hy hsel hlt hle => ?_⟩
      · exact ⟨List.mem_append_left _ (hcommitted x hx).1, (hcommitted x hx).2⟩
      · rcases List.mem_append.1 hy with hy | hy
        · exact hcomplete x hx y hy hsel hlt hle
        · -- a new event comes after all the rows of the batch
          have := hI.history.bounded x (hcommitted x hx).1
          exact absurd hle (Nat.not_le.2 (Nat.lt_of_le_of_lt (hI.history.bounded x
            (hcommitted x hx).1) (hnew y hy)))
  · exact hI

theorem remove (upTo : Nat) : StreamInv rules (w.step rules (.remove upTo)) := by
  obtain ⟨removed, hle, hrows⟩ := hI.journal
  refine ⟨hI.history, ⟨max removed (min upTo w.journal.lastSequence), ?_, ?_⟩, hI.cursor, hI.events,
    fun batch hb => ?_⟩
  · dsimp only [StreamWorld.step]
    omega
  · dsimp only [StreamWorld.step]
    rw [hrows, List.filter_filter]
    refine List.filter_congr fun r hr => ?_
    have := hI.history.bounded r hr
    dsimp only at this
    rw [← Bool.decide_and, decide_eq_decide]
    omega
  · obtain ⟨rows, hb, hordered, hcommitted, hcomplete⟩ := hI.batch batch hb
    exact ⟨rows, hb, hordered, hcommitted, hcomplete⟩

/-! ### The batch -/

/-- Nothing that the journal lost is skipped by the rows it still has. -/
theorem kept (hread : readsPastMissed (.read false) w = false) (hs : w.session.stage = .reading)
    {x r : JournalRow} (hx : x ∈ w.journal.rows) (hr : r ∈ w.history)
    (hsel : w.session.selects r = true) (hlt : w.session.cursor < r.sequence) :
    r ∈ w.journal.rows := by
  by_contra hgone
  obtain ⟨upTo, -, hrows⟩ := hI.journal
  have hbelow : r.sequence ≤ upTo := by
    by_contra hgt
    exact hgone (by rw [hrows]; exact List.mem_filter.2 ⟨hr, by simpa using hgt⟩)
  have habove : ∀ y ∈ w.journal.rows, r.sequence < y.sequence := by
    intro y hy
    rw [hrows] at hy
    have := of_decide_eq_true (List.mem_filter.1 hy).2
    omega
  have hmissed : r ∈ w.missed := by
    refine List.mem_filter.2 ⟨hr, ?_⟩
    simp only [hsel, hlt, Bool.true_and, decide_true, List.all_eq_true, decide_eq_true_eq]
    intro y hy
    have := habove y hy
    omega
  refine absurd hread (Bool.not_eq_false _ ▸ ?_)
  simp only [readsPastMissed, StreamSession.reads, hs, Bool.not_false, Bool.true_and, List.any_eq_true]
  exact ⟨r, hmissed, x, hx, decide_eq_true (habove x hx)⟩

theorem read (databaseFails : Bool) (hread : readsPastMissed (.read databaseFails) w = false) :
    StreamInv rules (w.step rules (.read databaseFails)) := by
  dsimp only [StreamWorld.step, StreamSession.read]
  split
  · rename_i hs
    split
    · exact hI.quiet (quiet_endWith _)
    · rename_i hfails
      rw [Bool.not_eq_true] at hfails
      subst hfails
      rw [hI.journal_rows.readAfter]
      refine ⟨hI.history, hI.journal, hI.cursor, hI.events, fun batch hb => ?_⟩
      cases hb
      refine ⟨_, rfl, (hI.journal_rows.ordered.filter _).sublist (List.take_sublist ..), ?_, ?_⟩
      · intro x hx
        obtain ⟨hx, -, hlt⟩ := Log.mem_page hx
        obtain ⟨upTo, -, hrows⟩ := hI.journal
        rw [hrows] at hx
        exact ⟨List.mem_of_mem_filter hx, hlt⟩
      · intro x hx r hr hsel hlt hle
        have hkept := hI.kept hread hs (Log.mem_page hx).1 hr hsel hlt
        exact Log.mem_page_of_le hI.journal_rows.ordered hx hkept rfl hlt hle
  · exact hI

/-- The first event of a batch is handled: the cursor comes to it, and it is sent if it is of the
    topics. -/
theorem advance {r : JournalRow} {rows : List JournalRow} (hb : Batch w (r :: rows))
    (hstart : s'.start = w.session.start) (haggregates : s'.aggregates = w.session.aggregates)
    (hcursor : s'.cursor = r.sequence)
    (hevents : s'.events = w.session.events ++ if w.session.selects r then [r.envelope] else [])
    (hstage : s'.stage = .draining (rows.map JournalRow.envelope)) :
    StreamInv rules { w with session := s' } := by
  obtain ⟨hordered, hcommitted, hcomplete⟩ := hb
  obtain ⟨hfirst, hrest⟩ := List.pairwise_cons.1 hordered
  obtain ⟨hr, hlt⟩ := hcommitted r List.mem_cons_self
  have hselects : s'.selects = w.session.selects := by
    funext x
    rw [StreamSession.selects, StreamSession.selects, haggregates]
  -- an event of the topics up to `r` is in the batch, and the others of the batch come after `r`
  have hnext : ∀ x ∈ w.history, w.session.selects x = true → w.session.cursor < x.sequence →
      x.sequence ≤ r.sequence → x = r := by
    intro x hx hsel hxc hxr
    rcases List.mem_cons.1 (hcomplete r List.mem_cons_self x hx hsel hxc hxr) with h | h
    · exact h
    · have := hfirst x h
      omega
  refine ⟨hI.history, hI.journal, ?_, ?_, fun batch hb => ?_⟩
  · have := hI.start_le
    have := hI.history.bounded r hr
    dsimp only at this ⊢
    rw [hcursor, hstart]
    omega
  · dsimp only
    rw [hcursor, hstart, hselects, hevents,
      Log.segment_next hI.history.ordered hI.start_le hr hlt hnext, List.map_append, hI.events]
    split <;> rfl
  · refine ⟨rows, ?_, hrest, fun x hx => ⟨(hcommitted x (List.mem_cons_of_mem _ hx)).1, ?_⟩, ?_⟩
    · exact (StreamStage.draining.inj (hb.symm.trans hstage))
    · dsimp only
      rw [hcursor]
      exact hfirst x hx
    · intro x hx y hy hsel hyc hyx
      dsimp only at hsel hyc
      rw [hselects] at hsel
      rw [hcursor] at hyc
      have hyb := hcomplete x (List.mem_cons_of_mem _ hx) y hy hsel (by omega) hyx
      rcases List.mem_cons.1 hyb with rfl | hyb
      · omega
      · exact hyb

theorem deliver (socketFails : Bool) : StreamInv rules (w.step rules (.deliver socketFails)) := by
  dsimp only [StreamWorld.step, StreamSession.deliver]
  split
  · exact hI.quiet (quiet_stage (by simp))
  · rename_i event batch hs
    obtain ⟨rows, hrows, hb⟩ := hI.batch _ hs
    cases rows with
    | nil => cases hrows
    | cons r rows =>
      obtain ⟨rfl, rfl⟩ := List.cons.inj hrows
      have hlt := (hb.committed r List.mem_cons_self).2
      rw [if_neg (show ¬r.envelope.sequence ≤ w.session.cursor from Nat.not_le.2 hlt)]
      split
      · rename_i hsel
        split
        · exact hI.quiet (quiet_endWith _)
        · refine hI.advance hb rfl rfl rfl ?_ rfl
          rw [if_pos (show w.session.selects r = true from decide_eq_true hsel)]
          exact events_send (.event r.envelope) (.draining (rows.map JournalRow.envelope))
      · rename_i hsel
        refine hI.advance hb rfl rfl rfl ?_ rfl
        rw [if_neg (show ¬w.session.selects r = true from mt of_decide_eq_true hsel), List.append_nil]
        rfl
  · exact hI

theorem step (a : StreamAction) (hread : readsPastMissed a w = false) :
    StreamInv rules (w.step rules a) := by
  cases a with
  | commit events =>
    dsimp only [StreamWorld.step]
    clear hread
    induction events generalizing w with
    | nil => exact hI
    | cons e events ih => exact ih (hI.append e)
  | remove upTo => exact hI.remove upTo
  | check current databaseFails socketFails => exact hI.quiet (quiet_check ..)
  | read databaseFails => exact hI.read databaseFails hread
  | deliver socketFails => exact hI.deliver socketFails
  | wait heartbeat frame databaseFails socketFails => exact hI.quiet (quiet_wait ..)

/-! ### Missed events -/

theorem reports (a : StreamAction) (hlook : looksAtEmptied a w = false) : ReportsMissed rules a w := by
  rintro current databaseFails socketFails rfl hs hmissed
  have hlookAt : w.session.looks current databaseFails = true →
      w.journal.unavailable w.session.cursor = true := by
    intro hlooks
    obtain ⟨r, hr⟩ := List.exists_mem_of_ne_nil _ hmissed
    obtain ⟨hhist, hr⟩ := List.mem_filter.1 hr
    simp only [Bool.and_eq_true, decide_eq_true_eq, List.all_eq_true] at hr
    obtain ⟨⟨-, hlt⟩, hgone⟩ := hr
    obtain ⟨upTo, -, hrows⟩ := hI.journal
    have hbelow : r.sequence ≤ upTo := by
      by_contra hgt
      refine hgone r ?_ rfl
      rw [hrows]
      exact List.mem_filter.2 ⟨hhist, by simpa using hgt⟩
    refine unavailable_of_before ?_ hlt fun x hx => ?_
    · by_contra hempty
      rw [not_or, not_not, not_not] at hempty
      have : looksAtEmptied (.check current databaseFails socketFails) w = true := by
        simp [looksAtEmptied, hlooks, hempty.1, hempty.2, hmissed]
      rw [hlook] at this
      cases this
    · rw [hrows] at hx
      have := of_decide_eq_true (List.mem_filter.1 hx).2
      omega
  have hends : ∀ s : StreamSession, w.journal.unavailable s.cursor = true →
      ∃ how, (s.lookAt w.journal socketFails).stage = .ended how ∧
        (how = .gone → socketFails = true) := by
    intro s hu
    rw [StreamSession.lookAt, if_pos hu]
    split
    · exact ⟨_, rfl, fun _ => ‹_›⟩
    · exact ⟨_, rfl, nofun⟩
  dsimp only [StreamWorld.step, StreamSession.check]
  rcases hs with hs | hs <;> rw [hs] <;> dsimp only
  · split
    · exact ⟨_, rfl, nofun⟩
    · rename_i hfails
      exact hends _ (hlookAt (by simpa [StreamSession.looks, hs] using hfails))
  · split
    · exact ⟨_, rfl, nofun⟩
    · split
      · exact ⟨_, rfl, nofun⟩
      · rename_i hcurrent hfails
        exact hends _ (hlookAt (by simpa [StreamSession.looks, hs] using And.intro hcurrent hfails))

end StreamInv

/-! ### Runs -/

theorem openSession_ok {header : Option Nat} {message : Json} (h : openSession header message = .ok s) :
    s.cursor = s.start ∧ s.sent = [] ∧ s.stage = .opening := by
  unfold openSession at h
  cases hs : subscription header message with
  | error e => rw [hs] at h; cases h
  | ok accepted =>
    rw [hs] at h
    simp only [bind, Except.bind] at h
    split at h
    · cases h
      exact ⟨rfl, rfl, rfl⟩
    · cases h

theorem streamInv_start {header : Option Nat} {message : Json} (h : openSession header message = .ok s) :
    StreamInv rules ⟨.empty, [], s⟩ := by
  obtain ⟨hcursor, hsent, hstage⟩ := openSession_ok h
  refine ⟨⟨.nil, by simp, by simp⟩, ⟨0, Nat.zero_le _, rfl⟩, .inl hcursor, ?_, fun batch hb => ?_⟩
  · simp [StreamSession.events, hsent, Log.segment]
  · rw [hstage] at hb
    cases hb

/-- Neither defect is met. -/
def Undisturbed (a : StreamAction) (w : StreamWorld) : Prop :=
  readsPastMissed a w = false ∧ looksAtEmptied a w = false

instance (a : StreamAction) (w : StreamWorld) : Decidable (Undisturbed a w) :=
  inferInstanceAs (Decidable (_ ∧ _))

/-- In every run of commits, removals and the steps of a session, from any accepted subscription, whose
    batches are not read past a missed event and whose looks do not find an emptied journal at
    sequence 0: the events sent are those of the topics up to the cursor, each once and in order,
    and a look while an event is missed ends the session. -/
theorem delivered_run (rules : TextRules) (header : Option Nat) (message : Json) {s : StreamSession}
    (hs : openSession header message = .ok s) (as : List StreamAction)
    (has : (streamMachine rules s).Along Undisturbed ⟨.empty, [], s⟩ as) :
    Delivered ((streamMachine rules s).run ⟨.empty, [], s⟩ as) ∧
      (streamMachine rules s).Along (ReportsMissed rules) ⟨.empty, [], s⟩ as := by
  have hinv : ∀ {w}, (streamMachine rules s).Reachable Undisturbed w → StreamInv rules w := by
    intro w hw
    refine Machine.invariant (fun w hw => ?_) (fun a w _ hok hI => hI.step a hok.1) hw
    rw [show w = ⟨.empty, [], s⟩ from hw]
    exact streamInv_start hs
  have hstart : (streamMachine rules s).Reachable Undisturbed ⟨.empty, [], s⟩ := .start rfl
  refine ⟨(hinv (hstart.run has)).delivered, ?_⟩
  exact Machine.Reachable.along (fun a w hw hok => (hinv hw).reports a hok.2) hstart has

/-- `subscribe` after sequence 0 to the projects. -/
def projectsMessage : Json :=
  .obj [("after_sequence", .int 0), ("topics", .arr [.str "projects"]), ("type", .str "subscribe")]

def projectsSession : StreamSession := ⟨0, ["projects"], ["project"], 0, [], .opening⟩

def threeProjects : StreamAction := .commit
  [ projectEvent "evt_00000000000000000000000000000001",
    projectEvent "evt_00000000000000000000000000000002",
    projectEvent "evt_00000000000000000000000000000003" ]

/-- The oldest row goes away while the session waits. -/
def removalNoticed : List StreamAction :=
  [ threeProjects, .check true false false, .check true false false, .read false, .deliver false,
    .deliver false, .remove 2, .deliver false, .deliver false, .wait true .quiet false false,
    .check true false false, .read false ]

/-- The two oldest rows go away between the bounds and the batch. -/
def removalOverlooked : List StreamAction :=
  [ threeProjects, .check true false false, .check true false false, .remove 2, .read false,
    .deliver false ]

set_option maxRecDepth 20000 in
theorem delivered_run_noticed :
    Delivered ((streamMachine plainRules projectsSession).run ⟨.empty, [], projectsSession⟩
      removalNoticed) ∧
    (((streamMachine plainRules projectsSession).run ⟨.empty, [], projectsSession⟩
      removalNoticed).session.events.map Envelope.sequence = [1, 2, 3]) :=
  ⟨(delivered_run plainRules none projectsMessage (by rfl) removalNoticed (by decide)).1, by decide⟩

set_option maxRecDepth 20000 in
/-- The two removed events are skipped without a word. -/
theorem removal_skips_events :
    openSession none projectsMessage = .ok projectsSession ∧
    ¬Delivered ((streamMachine plainRules projectsSession).run ⟨.empty, [], projectsSession⟩
      removalOverlooked) := by
  refine ⟨by rfl, fun h => ?_⟩
  have hexact := congrArg (List.map Envelope.sequence) h.exact
  revert hexact
  decide

end HermesOps.Controller
