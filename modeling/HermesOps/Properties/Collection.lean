import HermesOps.Notifier.Collector
import HermesOps.Properties.LeaseFencing

/-! What `collect_events` leaves in the outbox. Two subjects never share a dedupe key, so under a unique key
    the outbox holds at most one row for a subject and a channel; the cursors and the history of the
    approvals say for which subjects it holds one. A source event is behind a cursor exactly until it is
    collected, because rowids only grow and the cursor moves in the transaction that posts. -/

namespace HermesOps.Notifier

open Schemes
open Schemes.Machine (run)

/-! ### Keys -/

/-- What stands around the last separator of a text. -/
theorem cut_last {α : Type} {a a' b b' : List α} {x : α} (hb : x ∉ b) (hb' : x ∉ b')
    (h : a ++ x :: b = a' ++ x :: b') : a = a' ∧ b = b' := by
  rcases List.append_eq_append_iff.1 h with ⟨t, rfl, ht⟩ | ⟨t, rfl, ht⟩
  · cases t with
    | nil => simpa using ht
    | cons y t =>
      rw [List.cons_append, List.cons.injEq] at ht
      rw [ht.2] at hb
      exact absurd (List.mem_append_right _ List.mem_cons_self) hb
  · cases t with
    | nil =>
      rw [List.nil_append, List.cons.injEq] at ht
      exact ⟨by simp, ht.2.symm⟩
    | cons y t =>
      rw [List.cons_append, List.cons.injEq] at ht
      rw [ht.2] at hb'
      exact absurd (List.mem_append_right _ List.mem_cons_self) hb'

theorem Channel.no_colon (c : Channel) : ':' ∉ c.text.toList := by cases c <;> decide

theorem Channel.text_inj {c c' : Channel} (h : c.text.toList = c'.text.toList) : c = c' := by
  cases c <;> cases c' <;> first | rfl | (revert h; decide)

theorem ApprovalStatus.no_colon (a : ApprovalStatus) : ':' ∉ a.text.toList := by cases a <;> decide

theorem ApprovalStatus.text_inj {a a' : ApprovalStatus} (h : a.text.toList = a'.text.toList) : a = a' := by
  cases a <;> cases a' <;> first | rfl | (revert h; decide)

theorem toString_inj {m n : Nat} (h : (toString m).toList = (toString n).toList) : m = n := by
  simpa using congrArg (fun digits => Nat.ofDigitChars 10 digits 0) h

/-- Two subjects with the same identity. -/
def Subject.Same : Subject → Subject → Prop
  | .objectiveEvent e, .objectiveEvent e' => e.objectiveEventId = e'.objectiveEventId
  | .controlEvent e, .controlEvent e' => e.eventId = e'.eventId
  | .approval id row, .approval id' row' => id = id' ∧ row.status = row'.status
  | _, _ => False

theorem Subject.stem_inj {s s' : Subject} (h : s.stem.toList = s'.stem.toList) : s.Same s' := by
  have hfirst := congrArg List.head? h
  cases s with
  | objectiveEvent e =>
    cases s' with
    | objectiveEvent e' =>
      simp only [stem, String.toList_append] at h
      exact String.toList_inj.1 (List.append_cancel_left h)
    | controlEvent e' => simp [stem] at hfirst
    | approval id row => simp [stem] at hfirst
  | controlEvent e =>
    cases s' with
    | objectiveEvent e' => simp [stem] at hfirst
    | controlEvent e' =>
      simp only [stem, String.toList_append] at h
      exact toString_inj (List.append_cancel_left h)
    | approval id row => simp [stem] at hfirst
  | approval id row =>
    cases s' with
    | objectiveEvent e' => simp [stem] at hfirst
    | controlEvent e' => simp [stem] at hfirst
    | approval id' row' =>
      have hsplit : ("approval:".toList ++ id.toList) ++ ':' :: row.status.text.toList =
          ("approval:".toList ++ id'.toList) ++ ':' :: row'.status.text.toList := by
        simpa [stem] using h
      obtain ⟨hid, hstatus⟩ := cut_last (ApprovalStatus.no_colon _) (ApprovalStatus.no_colon _) hsplit
      exact ⟨String.toList_inj.1 (List.append_cancel_left hid), ApprovalStatus.text_inj hstatus⟩

/-- A dedupe key tells the subject and the channel. -/
theorem Subject.dedupeKey_inj {s s' : Subject} {c c' : Channel} (h : s.dedupeKey c = s'.dedupeKey c') :
    s.Same s' ∧ c = c' := by
  have hsplit : s.stem.toList ++ ':' :: c.text.toList = s'.stem.toList ++ ':' :: c'.text.toList := by
    simpa [dedupeKey] using congrArg String.toList h
  obtain ⟨hstem, hchannel⟩ := cut_last (Channel.no_colon c) (Channel.no_colon c') hsplit
  exact ⟨stem_inj hstem, Channel.text_inj hchannel⟩

/-! ### Rows and what they stand for -/

/-- What the content of a notification says about its subject. -/
def Subject.Agrees (s s' : Subject) : Prop :=
  s.eventKind = s'.eventKind ∧ s.subjectType = s'.subjectType ∧ s.subjectId = s'.subjectId

/-- A subject that the sources hold. -/
def Known (sources : Sources) : Subject → Prop
  | .objectiveEvent e => e ∈ sources.objectiveEvents
  | .controlEvent e => e ∈ sources.controlEvents
  | .approval _ _ => True

theorem agrees_of_same {sources : Sources} {s s' : Subject} (hs : Known sources s) (hs' : Known sources s')
    (h : s.Same s') : s.Agrees s' := by
  cases s with
  | objectiveEvent e =>
    cases s' with
    | objectiveEvent e' =>
      have heq : e = e' := List.inj_on_of_nodup_map sources.objectiveEventIds hs hs' h
      rw [heq]
      exact ⟨rfl, rfl, rfl⟩
    | controlEvent e' => exact h.elim
    | approval id row => exact h.elim
  | controlEvent e =>
    cases s' with
    | objectiveEvent e' => exact h.elim
    | controlEvent e' =>
      have hnodup : (sources.controlEvents.map ControlEvent.eventId).Nodup :=
        List.pairwise_map.2 (sources.controlRowids.imp Nat.ne_of_lt)
      have heq : e = e' := List.inj_on_of_nodup_map hnodup hs hs' h
      rw [heq]
      exact ⟨rfl, rfl, rfl⟩
    | approval id row => exact h.elim
  | approval id row =>
    cases s' with
    | objectiveEvent e' => exact h.elim
    | controlEvent e' => exact h.elim
    | approval id' row' =>
      obtain ⟨hid, hstatus⟩ := h
      exact ⟨by rw [Subject.eventKind, Subject.eventKind, hstatus], rfl, hid⟩

/-- The notification is for the subject and goes to the channel. -/
def StandsFor (b : Mailbox) (i : NotificationId) (s : Subject) (c : Channel) : Prop :=
  ∃ y content, b.outbox.notifications.get? i = some y ∧ b.contents i = some content ∧
    y.dedupeKey = s.dedupeKey c ∧ y.channel = c ∧ content.eventKind = s.eventKind ∧
    content.subjectType = s.subjectType ∧ content.subjectId = s.subjectId

/-- Keys are unique, every row is owed to a subject, and every subject has its row. -/
structure Filled (b : Mailbox) (P : Subject → Channel → Prop) : Prop where
  unique : ∀ i j y z, b.outbox.notifications.get? i = some y → b.outbox.notifications.get? j = some z →
    y.dedupeKey = z.dedupeKey → i = j
  owed : ∀ i y, b.outbox.notifications.get? i = some y → ∃ s c, P s c ∧ StandsFor b i s c
  paid : ∀ s c, P s c → ∃ i, StandsFor b i s c

variable {b : Mailbox} {P Q : Subject → Channel → Prop} {now : Instant} {sources : Sources}

theorem Filled.congr (h : Filled b P) (hPQ : ∀ s c, P s c ↔ Q s c) : Filled b Q := by
  refine ⟨h.unique, fun i y hy => ?_, fun s c hs => h.paid s c ((hPQ s c).2 hs)⟩
  obtain ⟨s, c, hs, hstands⟩ := h.owed i y hy
  exact ⟨s, c, (hPQ s c).1 hs, hstands⟩

theorem freshId_free (o : Outbox) : o.notifications.get? (freshId o) = none := by
  rw [Table.get?_eq_none_iff]
  intro hmem
  have hle : ∀ (l : List Nat) (n : Nat), n ∈ l → n ≤ l.foldr max 0 := by
    intro l n hn
    induction l with
    | nil => cases hn
    | cons m l ih =>
      rw [List.foldr_cons]
      rcases List.mem_cons.1 hn with rfl | hn
      · exact le_max_left _ _
      · exact le_trans (ih hn) (le_max_right _ _)
  have hlast := hle _ _ hmem
  rw [freshId] at hlast
  omega

/-- `enqueue` leaves everything as it is when the key is taken, and inserts a row otherwise. -/
theorem post_cases (now : Instant) (b : Mailbox) {letter : Letter} (hmax : letter.message.maxAttempts = 5) :
    ((∃ i y, b.outbox.notifications.get? i = some y ∧ y.dedupeKey = letter.message.dedupeKey) ∧
        post now b letter = (b, false)) ∨
      ((∀ i y, b.outbox.notifications.get? i = some y → y.dedupeKey ≠ letter.message.dedupeKey) ∧
        ∃ notifications, b.outbox.notifications.insert (freshId b.outbox) (letter.message.row now) =
            some notifications ∧
          post now b letter = (⟨{ b.outbox with notifications }, fun i =>
            if i = freshId b.outbox then some letter.content else b.contents i⟩, true)) := by
  have hrange : ¬¬(1 ≤ letter.message.maxAttempts ∧ letter.message.maxAttempts ≤ 20) := by
    rw [hmax]
    omega
  by_cases htaken : (b.outbox.notifications.any fun _ y => y.dedupeKey = letter.message.dedupeKey) = true
  · left
    obtain ⟨i, y, hy, hkey⟩ := Table.any_iff.1 htaken
    have henqueue : enqueue b.outbox (freshId b.outbox) letter.message now = b.outbox := by
      rw [enqueue, if_neg hrange, if_pos htaken]
    refine ⟨⟨i, y, hy, of_decide_eq_true hkey⟩, ?_⟩
    simp only [post, henqueue, freshId_free, Option.isSome_none, Bool.false_eq_true, if_false]
  · right
    have hfree := Table.any_eq_false_iff.1 (Bool.eq_false_iff.2 htaken)
    obtain ⟨notifications, hinsert⟩ :=
      Table.insert_of_get?_eq_none (freshId_free b.outbox) (letter.message.row now)
    have henqueue : enqueue b.outbox (freshId b.outbox) letter.message now =
        { b.outbox with notifications } := by
      rw [enqueue, if_neg hrange, if_neg htaken, hinsert]
    refine ⟨fun i y hy => by simpa using hfree i y hy, notifications, hinsert, ?_⟩
    have hrow : notifications.get? (freshId b.outbox) = some (letter.message.row now) := by
      rw [Table.get?_insert hinsert, if_pos rfl]
    simp only [post, henqueue, hrow, Option.isSome_some, if_true]

/-- One letter: its subject and channel have their row afterwards, and no row is added for anything else. -/
theorem Filled.post (h : Filled b P) {s : Subject} {rendered : Rendered} {c : Channel}
    (hagrees : ∀ s' c', P s' c' → s'.Same s → s'.Agrees s) :
    Filled (post now b (s.letter rendered c)).1 fun s' c' => P s' c' ∨ (s' = s ∧ c' = c) := by
  rcases @post_cases now b (s.letter rendered c) rfl with ⟨⟨i, y, hy, hkey⟩, hpost⟩ |
    ⟨hfree, notifications, hinsert, hpost⟩
  · -- the row that has the key stands for the same subject
    rw [hpost]
    have hstands : StandsFor b i s c := by
      obtain ⟨s', c', hs', y', content, hy', hcontent, hkey', hchannel, hkind, htype, hid⟩ := h.owed i y hy
      rw [hy] at hy'
      cases hy'
      obtain ⟨hsame, hc⟩ := Subject.dedupeKey_inj (hkey'.symm.trans hkey)
      obtain ⟨hkind', htype', hid'⟩ := hagrees s' c' hs' hsame
      exact ⟨y, content, hy, hcontent, hkey, hchannel.trans hc, hkind.trans hkind', htype.trans htype',
        hid.trans hid'⟩
    refine ⟨h.unique, fun j z hz => ?_, fun s' c' hs' => ?_⟩
    · obtain ⟨s', c', hs', hz'⟩ := h.owed j z hz
      exact ⟨s', c', Or.inl hs', hz'⟩
    · rcases hs' with hs' | ⟨rfl, rfl⟩
      · exact h.paid s' c' hs'
      · exact ⟨i, hstands⟩
  · rw [hpost]
    have hget := Table.get?_insert hinsert
    have hold : ∀ i y, b.outbox.notifications.get? i = some y → i ≠ freshId b.outbox := by
      rintro i y hy rfl
      rw [freshId_free] at hy
      cases hy
    have hkeep : ∀ i s' c', StandsFor b i s' c' → StandsFor ⟨{ b.outbox with notifications }, fun i =>
        if i = freshId b.outbox then some (s.letter rendered c).content else b.contents i⟩ i s' c' := by
      rintro i s' c' ⟨y, content, hy, hcontent, hrest⟩
      refine ⟨y, content, ?_, ?_, hrest⟩
      · rw [hget, if_neg (hold i y hy), hy]
      · exact (if_neg (hold i y hy)).trans hcontent
    have hnew : StandsFor ⟨{ b.outbox with notifications }, fun i =>
        if i = freshId b.outbox then some (s.letter rendered c).content else b.contents i⟩
        (freshId b.outbox) s c := by
      refine ⟨(s.letter rendered c).message.row now, (s.letter rendered c).content, ?_, if_pos rfl, rfl, rfl,
        rfl, rfl, rfl⟩
      rw [hget, if_pos rfl]
    refine ⟨fun i j y z hy hz hyz => ?_, fun i y hy => ?_, fun s' c' hs' => ?_⟩
    · dsimp only at hy hz
      rw [hget] at hy hz
      split at hy <;> split at hz
      · rename_i hi hj
        rw [hi, hj]
      · cases hy
        exact absurd hyz.symm (hfree j z hz)
      · cases hz
        exact absurd hyz (hfree i y hy)
      · exact h.unique i j y z hy hz hyz
    · dsimp only at hy
      rw [hget] at hy
      split at hy
      · rename_i hi
        rw [hi]
        exact ⟨s, c, Or.inr ⟨rfl, rfl⟩, hnew⟩
      · obtain ⟨s', c', hs', hstands⟩ := h.owed i y hy
        exact ⟨s', c', Or.inl hs', hkeep i s' c' hstands⟩
    · rcases hs' with hs' | ⟨rfl, rfl⟩
      · obtain ⟨i, hstands⟩ := h.paid s' c' hs'
        exact ⟨i, hkeep i s' c' hstands⟩
      · exact ⟨_, hnew⟩

/-- A subject with its message, for one channel. -/
abbrev Item := Subject × Rendered × Channel

def Item.letter (x : Item) : Letter := x.1.letter x.2.1 x.2.2

theorem postAll_append (now : Instant) (b : Mailbox) (letters : List Letter) (letter : Letter) :
    (postAll now b (letters ++ [letter])).1 = (post now (postAll now b letters).1 letter).1 := by
  rw [postAll, List.foldl_append]
  rfl

/-- All letters of a list whose subjects the sources hold. -/
theorem Filled.postAll (h : Filled b P) (hknown : ∀ s c, P s c → Known sources s) (items : List Item)
    (hitems : ∀ x ∈ items, Known sources x.1) : Filled (postAll now b (items.map Item.letter)).1 fun s c =>
      P s c ∨ ∃ rendered, (s, rendered, c) ∈ items := by
  induction items using List.reverseRecOn with
  | nil => exact h.congr fun s c => by simp
  | append_singleton items x ih =>
    obtain ⟨s, rendered, c⟩ := x
    have hsofar := ih fun x hx => hitems x (List.mem_append_left _ hx)
    have hlast : Known sources s := hitems (s, rendered, c) (List.mem_append_right _ List.mem_cons_self)
    rw [List.map_append, List.map_cons, List.map_nil, postAll_append]
    refine (hsofar.post fun s' c' hs' hsame => ?_).congr fun s' c' => ?_
    · refine agrees_of_same ?_ hlast hsame
      rcases hs' with hs' | ⟨rendered', hmem⟩
      · exact hknown s' c' hs'
      · exact hitems _ (List.mem_append_left _ hmem)
    · simp only [List.mem_append, List.mem_singleton, Prod.mk.injEq]
      constructor
      · rintro ((hs' | ⟨rendered', hmem⟩) | ⟨rfl, rfl⟩)
        · exact Or.inl hs'
        · exact Or.inr ⟨rendered', Or.inl hmem⟩
        · exact Or.inr ⟨rendered, Or.inr ⟨rfl, rfl, rfl⟩⟩
      · rintro (hs' | ⟨rendered', hmem | ⟨rfl, -, rfl⟩⟩)
        · exact Or.inl (Or.inl hs')
        · exact Or.inl (Or.inr ⟨rendered', hmem⟩)
        · exact Or.inr ⟨rfl, rfl⟩

def itemsOf (channels : List Channel) (s : Subject) (rendered : Option Rendered) : List Item :=
  match rendered with
  | none => []
  | some rendered => channels.map fun c => (s, rendered, c)

theorem map_itemsOf (channels : List Channel) (s : Subject) (rendered : Option Rendered) :
    (itemsOf channels s rendered).map Item.letter = lettersOf channels s rendered := by
  cases rendered with
  | none => rfl
  | some rendered =>
    rw [itemsOf, List.map_map]
    rfl

theorem mem_itemsOf {channels : List Channel} {s s' : Subject} {rendered : Option Rendered}
    {r : Rendered} {c : Channel} :
    (s', r, c) ∈ itemsOf channels s rendered ↔ s' = s ∧ rendered = some r ∧ c ∈ channels := by
  cases rendered with
  | none => simp [itemsOf]
  | some rendered =>
    simp only [itemsOf, List.mem_map, Prod.mk.injEq, Option.some.injEq]
    constructor
    · rintro ⟨c', hc', rfl, rfl, rfl⟩
      exact ⟨rfl, rfl, hc'⟩
    · rintro ⟨rfl, rfl, hc⟩
      exact ⟨c, hc, rfl, rfl, rfl⟩

/-- What one part of the transaction adds to the outbox. -/
theorem Filled.collect {ρ : Type} {channels : List Channel} (h : Filled b P)
    (hknown : ∀ s c, P s c → Known sources s) (rows : List ρ) (subject : ρ → Subject)
    (message : ρ → Option Rendered) (hrows : ∀ x ∈ rows, Known sources (subject x)) :
    Filled (Notifier.postAll now b (rows.flatMap fun x => lettersOf channels (subject x) (message x))).1
      fun s c => P s c ∨ ((∃ x ∈ rows, subject x = s ∧ (message x).isSome = true) ∧ c ∈ channels) := by
  have hletters : (rows.flatMap fun x => lettersOf channels (subject x) (message x)) =
      (rows.flatMap fun x => itemsOf channels (subject x) (message x)).map Item.letter := by
    rw [List.map_flatMap]
    refine List.flatMap_congr fun x _ => ?_
    rw [map_itemsOf]
  rw [hletters]
  refine (h.postAll hknown _ fun x hx => ?_).congr fun s c => or_congr_right ?_
  · obtain ⟨s, r, c⟩ := x
    obtain ⟨y, hy, hmem⟩ := List.mem_flatMap.1 hx
    rw [(mem_itemsOf.1 hmem).1]
    exact hrows y hy
  · simp only [List.mem_flatMap, mem_itemsOf]
    constructor
    · rintro ⟨r, x, hx, rfl, hr, hc⟩
      exact ⟨⟨x, hx, rfl, by rw [hr]; rfl⟩, hc⟩
    · rintro ⟨⟨x, hx, rfl, hr⟩, hc⟩
      obtain ⟨r, hr⟩ := Option.isSome_iff_exists.1 hr
      exact ⟨r, x, hx, rfl, hr, hc⟩

/-! ### Cursors -/

theorem foldl_max_spec (l : List Nat) (n : Nat) :
    n ≤ l.foldl max n ∧ (∀ m ∈ l, m ≤ l.foldl max n) ∧ (l.foldl max n = n ∨ l.foldl max n ∈ l) := by
  induction l generalizing n with
  | nil => exact ⟨le_refl n, by simp, Or.inl rfl⟩
  | cons m l ih =>
    obtain ⟨hle, hall, hmem⟩ := ih (max n m)
    rw [List.foldl_cons]
    refine ⟨by omega, ?_, ?_⟩
    · intro k hk
      rcases List.mem_cons.1 hk with rfl | hk
      · omega
      · exact hall k hk
    · rcases hmem with heq | hmem
      · rw [heq]
        rcases Nat.le_total m n with hmn | hnm
        · exact Or.inl (Nat.max_eq_left hmn)
        · rw [Nat.max_eq_right hnm]
          exact Or.inr List.mem_cons_self
      · exact Or.inr (List.mem_cons_of_mem m hmem)

/-- The cursor behind the rows that were read. -/
theorem advanced_spec (cursor : Option Nat) (rowids : List Nat) :
    getCursor cursor ≤ getCursor (advanced cursor rowids) ∧
      (∀ n ∈ rowids, n ≤ getCursor (advanced cursor rowids)) ∧
      (getCursor (advanced cursor rowids) = getCursor cursor ∨
        getCursor (advanced cursor rowids) ∈ rowids) := by
  unfold advanced
  split
  · rename_i hnil
    rw [hnil]
    exact ⟨le_refl _, by simp, Or.inl rfl⟩
  · exact foldl_max_spec rowids (getCursor cursor)

/-- The subjects that have been collected. -/
def Covered (sources : Sources) (a : Account) : Subject → Prop
  | .objectiveEvent e => e ∈ sources.objectiveEvents ∧ (objectiveTitles.lookup e.eventType).isSome = true ∧
      e.rowid ≤ getCursor a.cursors.objectiveEvents
  | .controlEvent e => e ∈ sources.controlEvents ∧ (controlTitles.lookup e.eventType).isSome = true ∧
      e.eventId ≤ getCursor a.cursors.events
  | .approval id row => (id, row) ∈ a.noticed

/-- The outbox holds the rows of the collected subjects, and a cursor stands at the start or at a row. -/
structure Balanced (channels : List Channel) (sources : Sources) (a : Account) : Prop where
  filled : Filled a.box fun s c => Covered sources a s ∧ c ∈ channels
  objectiveCursor : getCursor a.cursors.objectiveEvents = 0 ∨
    ∃ e ∈ sources.objectiveEvents, e.rowid = getCursor a.cursors.objectiveEvents
  controlCursor : getCursor a.cursors.events = 0 ∨
    ∃ e ∈ sources.controlEvents, e.eventId = getCursor a.cursors.events

variable {a a' : Account} {channels : List Channel} {config : Config} {n : Nat}

theorem Covered.known {s : Subject} (h : Covered sources a s) : Known sources s := by
  cases s with
  | objectiveEvent e => exact h.1
  | controlEvent e => exact h.1
  | approval id row => exact trivial

/-- No part of the transaction moves a cursor back. -/
def Cursors.Le (x y : Cursors) : Prop :=
  getCursor x.objectiveEvents ≤ getCursor y.objectiveEvents ∧ getCursor x.events ≤ getCursor y.events

/-- Every objective event is behind the cursor. -/
def ObjectiveEventsRead (sources : Sources) (a : Account) : Prop :=
  ∀ e ∈ sources.objectiveEvents, e.rowid ≤ getCursor a.cursors.objectiveEvents

def ControlEventsRead (sources : Sources) (a : Account) : Prop :=
  ∀ e ∈ sources.controlEvents, e.eventId ≤ getCursor a.cursors.events

/-- The state of every approval has been collected. -/
def ApprovalsRead (sources : Sources) (a : Account) : Prop :=
  ∀ id row, sources.approvals.get? id = some row → (id, row) ∈ a.noticed

/-- The rows that the join selects are the events behind the cursor. -/
theorem mem_joined {cursor : Nat} {e : ObjectiveEvent} : (∃ o, (e, o) ∈
    (sources.objectiveEvents.filter fun e => cursor < e.rowid).filterMap fun e =>
      (sources.objectives.get? e.objectiveId).map fun o => (e, o)) ↔
        e ∈ sources.objectiveEvents ∧ cursor < e.rowid := by
  simp only [List.mem_filterMap, List.mem_filter, Option.map_eq_some_iff, Prod.mk.injEq, decide_eq_true_eq]
  constructor
  · rintro ⟨o, e', he', o', -, rfl, rfl⟩
    exact he'
  · rintro ⟨he, hlt⟩
    obtain ⟨o, ho⟩ := Option.isSome_iff_exists.1 (sources.owned e he)
    exact ⟨o, e, ⟨he, hlt⟩, o, ho, rfl, rfl⟩

theorem objectiveMessage_isSome (e : ObjectiveEvent) (o : Objective) :
    (objectiveMessage e o).isSome = (objectiveTitles.lookup e.eventType).isSome := by
  rw [objectiveMessage, Option.isSome_map]

theorem controlMessage_isSome (e : ControlEvent) :
    (controlMessage e).isSome = (controlTitles.lookup e.eventType).isSome := by
  rw [controlMessage, Option.isSome_map]

/-- What the first part of the transaction does. -/
theorem collectObjectiveEvents_ok (hb : Balanced channels sources a)
    (hchannels : enabledChannels config = .ok channels)
    (h : collectObjectiveEvents config now sources a = .ok (a', n)) :
    Balanced channels sources a' ∧ a.cursors.Le a'.cursors ∧ ObjectiveEventsRead sources a' ∧
      a'.cursors.events = a.cursors.events ∧ a'.noticed = a.noticed := by
  unfold collectObjectiveEvents at h
  rw [hchannels] at h
  cases h
  generalize hrows : ((sources.objectiveEvents.filter fun e => getCursor a.cursors.objectiveEvents <
    e.rowid).filterMap fun e => (sources.objectives.get? e.objectiveId).map fun o => (e, o)) = rows
  have hmem : ∀ e, (∃ o, (e, o) ∈ rows) ↔
      e ∈ sources.objectiveEvents ∧ getCursor a.cursors.objectiveEvents < e.rowid := by
    intro e
    rw [← hrows]
    exact mem_joined
  obtain ⟨hle, hread, hlast⟩ := advanced_spec a.cursors.objectiveEvents (rows.map fun x => x.1.rowid)
  have hall : ∀ e ∈ sources.objectiveEvents,
      e.rowid ≤ getCursor (advanced a.cursors.objectiveEvents (rows.map fun x => x.1.rowid)) := by
    intro e he
    by_cases hbehind : getCursor a.cursors.objectiveEvents < e.rowid
    · obtain ⟨o, ho⟩ := (hmem e).2 ⟨he, hbehind⟩
      exact hread _ (List.mem_map.2 ⟨(e, o), ho, rfl⟩)
    · omega
  refine ⟨⟨?_, ?_, hb.controlCursor⟩, ⟨hle, le_refl _⟩, hall, rfl, rfl⟩
  · refine (hb.filled.collect (fun s c hs => hs.1.known) rows (fun x => .objectiveEvent x.1)
      (fun x => objectiveMessage x.1 x.2) fun x hx => ((hmem x.1).1 ⟨x.2, hx⟩).1).congr fun s c => ?_
    rw [← or_and_right]
    refine and_congr_left fun _ => ?_
    cases s with
    | objectiveEvent e =>
      simp only [Covered, Subject.objectiveEvent.injEq, objectiveMessage_isSome]
      constructor
      · rintro (⟨he, hselected, -⟩ | ⟨⟨e', o⟩, hx, rfl, hselected⟩)
        · exact ⟨he, hselected, hall e he⟩
        · have he := ((hmem e').1 ⟨o, hx⟩).1
          exact ⟨he, hselected, hall e' he⟩
      · rintro ⟨he, hselected, -⟩
        by_cases hbehind : getCursor a.cursors.objectiveEvents < e.rowid
        · obtain ⟨o, ho⟩ := (hmem e).2 ⟨he, hbehind⟩
          exact Or.inr ⟨(e, o), ho, rfl, hselected⟩
        · exact Or.inl ⟨he, hselected, by omega⟩
    | controlEvent e => simp [Covered]
    | approval id row => simp [Covered]
  · rcases hlast with hsame | hmoved
    · dsimp only
      rw [hsame]
      exact hb.objectiveCursor
    · obtain ⟨⟨e, o⟩, hx, heq⟩ := List.mem_map.1 hmoved
      exact Or.inr ⟨e, ((hmem e).1 ⟨o, hx⟩).1, heq⟩

/-- What the second part does. -/
theorem collectControlEvents_ok (hb : Balanced channels sources a)
    (hchannels : enabledChannels config = .ok channels)
    (h : collectControlEvents config now sources a = .ok (a', n)) :
    Balanced channels sources a' ∧ a.cursors.Le a'.cursors ∧ ControlEventsRead sources a' ∧
      a'.cursors.objectiveEvents = a.cursors.objectiveEvents ∧ a'.noticed = a.noticed := by
  unfold collectControlEvents at h
  rw [hchannels] at h
  cases h
  generalize hrows : (sources.controlEvents.filter fun e => getCursor a.cursors.events < e.eventId) = rows
  have hmem : ∀ e, e ∈ rows ↔ e ∈ sources.controlEvents ∧ getCursor a.cursors.events < e.eventId := by
    intro e
    rw [← hrows, List.mem_filter, decide_eq_true_eq]
  obtain ⟨hle, hread, hlast⟩ := advanced_spec a.cursors.events (rows.map ControlEvent.eventId)
  have hall : ∀ e ∈ sources.controlEvents,
      e.eventId ≤ getCursor (advanced a.cursors.events (rows.map ControlEvent.eventId)) := by
    intro e he
    by_cases hbehind : getCursor a.cursors.events < e.eventId
    · exact hread _ (List.mem_map_of_mem ((hmem e).2 ⟨he, hbehind⟩))
    · omega
  refine ⟨⟨?_, hb.objectiveCursor, ?_⟩, ⟨le_refl _, hle⟩, hall, rfl, rfl⟩
  · refine (hb.filled.collect (fun s c hs => hs.1.known) rows .controlEvent controlMessage
      fun x hx => ((hmem x).1 hx).1).congr fun s c => ?_
    rw [← or_and_right]
    refine and_congr_left fun _ => ?_
    cases s with
    | objectiveEvent e => simp [Covered]
    | controlEvent e =>
      simp only [Covered, Subject.controlEvent.injEq, controlMessage_isSome]
      constructor
      · rintro (⟨he, hselected, -⟩ | ⟨e', hx, rfl, hselected⟩)
        · exact ⟨he, hselected, hall e he⟩
        · have he := ((hmem e').1 hx).1
          exact ⟨he, hselected, hall e' he⟩
      · rintro ⟨he, hselected, -⟩
        by_cases hbehind : getCursor a.cursors.events < e.eventId
        · exact Or.inr ⟨e, (hmem e).2 ⟨he, hbehind⟩, rfl, hselected⟩
        · exact Or.inl ⟨he, hselected, by omega⟩
    | approval id row => simp [Covered]
  · rcases hlast with hsame | hmoved
    · dsimp only
      rw [hsame]
      exact hb.controlCursor
    · obtain ⟨e, hx, heq⟩ := List.mem_map.1 hmoved
      exact Or.inr ⟨e, ((hmem e).1 hx).1, heq⟩

/-- What the third part does; it notices nothing but the present states. -/
theorem collectApprovals_ok (hb : Balanced channels sources a)
    (hchannels : enabledChannels config = .ok channels)
    (h : collectApprovals config now sources a = .ok (a', n)) :
    Balanced channels sources a' ∧ a'.cursors = a.cursors ∧ ApprovalsRead sources a' ∧
      ∀ x ∈ a'.noticed, x ∈ a.noticed ∨ sources.approvals.get? x.1 = some x.2 := by
  unfold collectApprovals at h
  rw [hchannels] at h
  cases h
  generalize hrows : (sources.approvals.rows.insertionSort fun x y => x.2.createdAt ≤ y.2.createdAt) = rows
  have hmem : ∀ id row, (id, row) ∈ rows ↔ sources.approvals.get? id = some row := by
    intro id row
    rw [← hrows, List.mem_insertionSort, Table.mem_rows_iff]
  refine ⟨⟨?_, hb.objectiveCursor, hb.controlCursor⟩, rfl, fun id row hrow => ?_, fun x hx => ?_⟩
  · refine (hb.filled.collect (fun s c hs => hs.1.known) rows (fun x => .approval x.1 x.2)
      (fun x => some (approvalMessage x.1 x.2)) fun _ _ => trivial).congr fun s c => ?_
    rw [← or_and_right]
    refine and_congr_left fun _ => ?_
    cases s with
    | objectiveEvent e => simp [Covered]
    | controlEvent e => simp [Covered]
    | approval id row =>
      simp only [Covered, Subject.approval.injEq, Option.isSome_some, and_true, List.mem_append]
      constructor
      · rintro (hold | ⟨⟨id', row'⟩, hx, rfl, rfl⟩)
        · exact Or.inr hold
        · exact Or.inl hx
      · rintro (hnew | hold)
        · exact Or.inr ⟨(id, row), hnew, rfl, rfl⟩
        · exact Or.inl hold
  · exact List.mem_append_left _ ((hmem id row).2 hrow)
  · rcases List.mem_append.1 hx with hnew | hold
    · exact Or.inr ((hmem x.1 x.2).1 hnew)
    · exact Or.inl hold

/-! ### What the others do -/

/-- The rows keep their keys and channels. -/
def SameRows (o o' : Outbox) : Prop := ∀ i,
  (o'.notifications.get? i).map (fun y => (y.dedupeKey, y.channel)) =
    (o.notifications.get? i).map fun y => (y.dedupeKey, y.channel)

theorem SameRows.trans {o o' o'' : Outbox} (h : SameRows o o') (h' : SameRows o' o'') : SameRows o o'' :=
  fun i => (h' i).trans (h i)

theorem SameRows.updateAt {o : Outbox} {i : NotificationId} {f : Notification → Notification}
    {deliveries : Table (NotificationId × Nat) Delivery}
    (hf : ∀ y, (f y).dedupeKey = y.dedupeKey ∧ (f y).channel = y.channel) :
    SameRows o ⟨o.notifications.updateAt i f, deliveries⟩ := by
  intro j
  rw [Table.get?_updateAt]
  split
  · cases o.notifications.get? j with
    | none => rfl
    | some y => simp [(hf y).1, (hf y).2]
  · rfl

theorem sameRows_reconcile (o : Outbox) (now : Instant) :
    SameRows o (reconcileAbandonedDeliveries o now) := by
  intro i
  rw [reconcile_get?]
  cases o.notifications.get? i with
  | none => rfl
  | some y =>
    simp only [Option.map_some]
    split <;> rfl

theorem sameRows_finish {o o' : Outbox} {i : NotificationId} {row : Notification} {error : Option String}
    {base : Int} {finished current : Instant}
    (h : finishDelivery o i row error base finished current = .ok o') : SameRows o o' := by
  unfold finishDelivery at h
  dsimp only at h
  split at h
  · cases h
  split at h
  · cases h
  split at h
  · cases h
  cases error with
  | none =>
    cases h
    exact SameRows.updateAt fun y => ⟨rfl, rfl⟩
  | some e =>
    cases h
    exact SameRows.updateAt fun y => ⟨rfl, rfl⟩

/-- The processes that deliver neither insert nor delete a notification. -/
theorem sameRows_step (d : World) {a : Action} (ha : ∀ i m, a ≠ .enqueue i m) :
    SameRows d.outbox (d.step a).outbox := by
  have hworker : ∀ pid, a.actor = some pid →
      (∀ owner lease channel only waited, a ≠ .claim pid owner lease channel only waited) →
      SameRows d.outbox (d.step a).outbox := by
    intro pid hactor hclaim
    rcases World.step_worker (w := d) hactor hclaim with h | ⟨u, -, h⟩
    · rw [h]
      exact fun i => rfl
    · rw [h]
      rcases workerStep_outbox (w := d) (a := a) (u := u) with h | ⟨_, _, _, _, _, o', -, -, h, hf⟩
      · rw [h]
        exact fun i => rfl
      · rw [h]
        exact sameRows_finish hf
  cases a with
  | tick elapsed => exact fun i => rfl
  | enqueue i m => exact absurd rfl (ha i m)
  | register => exact sameRows_reconcile d.outbox d.clock
  | claim pid owner leaseSeconds channel only waited =>
    rw [World.step]
    split
    · exact fun i => rfl
    unfold World.claimStep
    rcases claimOne_cases d.outbox owner leaseSeconds channel only (d.clock - waited) d.clock with
      h | ⟨i, y, hy, -, h⟩
    · rw [h]
      exact sameRows_reconcile d.outbox d.clock
    · rw [h]
      dsimp only
      split
      · exact (sameRows_reconcile d.outbox d.clock).trans (SameRows.updateAt fun y => ⟨rfl, rfl⟩)
      · exact fun i => rfl
  | reread pid | deliver pid _ | finish pid _ _ | crash pid =>
    exact hworker pid rfl fun _ _ _ _ _ h => by cases h

theorem SameRows.back {o o' : Outbox} (h : SameRows o o') {i : NotificationId} {y' : Notification}
    (hy : o'.notifications.get? i = some y') : ∃ y, o.notifications.get? i = some y ∧
      y.dedupeKey = y'.dedupeKey ∧ y.channel = y'.channel := by
  have hi := h i
  rw [hy] at hi
  cases hget : o.notifications.get? i with
  | none =>
    rw [hget] at hi
    cases hi
  | some y =>
    rw [hget] at hi
    simp only [Option.map_some, Option.some.injEq, Prod.mk.injEq] at hi
    exact ⟨y, rfl, hi.1.symm, hi.2.symm⟩

theorem SameRows.symm {o o' : Outbox} (h : SameRows o o') : SameRows o' o := fun i => (h i).symm

theorem StandsFor.same {o o' : Outbox} {contents : NotificationId → Option Content}
    (h : SameRows o o') {i : NotificationId} {s : Subject} {c : Channel}
    (hs : StandsFor ⟨o, contents⟩ i s c) : StandsFor ⟨o', contents⟩ i s c := by
  obtain ⟨y, content, hy, hcontent, hkey, hchannel, hrest⟩ := hs
  obtain ⟨y', hy', hkey', hchannel'⟩ := h.symm.back hy
  exact ⟨y', content, hy', hcontent, hkey'.trans hkey, hchannel'.trans hchannel, hrest⟩

theorem Filled.same {o o' : Outbox} {contents : NotificationId → Option Content} (h : SameRows o o')
    (hf : Filled ⟨o, contents⟩ P) : Filled ⟨o', contents⟩ P := by
  refine ⟨fun i j y z hy hz hyz => ?_, fun i y hy => ?_, fun s c hs => ?_⟩
  · obtain ⟨y₀, hy₀, hykey, -⟩ := h.back hy
    obtain ⟨z₀, hz₀, hzkey, -⟩ := h.back hz
    exact hf.unique i j y₀ z₀ hy₀ hz₀ (hykey.trans (hyz.trans hzkey.symm))
  · obtain ⟨y₀, hy₀, -, -⟩ := h.back hy
    obtain ⟨s, c, hs, hstands⟩ := hf.owed i y₀ hy₀
    exact ⟨s, c, hs, hstands.same h⟩
  · obtain ⟨i, hstands⟩ := hf.paid s c hs
    exact ⟨i, hstands.same h⟩

/-- Events are only added, behind those that are there. -/
def Sources.Grows (s s' : Sources) : Prop :=
  s.objectiveEvents <+: s'.objectiveEvents ∧ s.controlEvents <+: s'.controlEvents

theorem Sources.change_grows {s s' : Sources} {x : Change} (h : s.change x = some s') : s.Grows s' := by
  cases x with
  | objective id row =>
    rw [change, insertObjective] at h
    split at h
    · cases h
    · cases h
      exact ⟨List.prefix_rfl, List.prefix_rfl⟩
  | objectiveEvent row =>
    rw [change, insertObjectiveEvent] at h
    split at h
    · cases h
      exact ⟨List.prefix_append _ _, List.prefix_rfl⟩
    · cases h
  | controlEvent row =>
    rw [change, insertControlEvent] at h
    split at h
    · cases h
      exact ⟨List.prefix_rfl, List.prefix_append _ _⟩
    · cases h
  | approval id row =>
    obtain ⟨approvals, -, rfl⟩ := Option.map_eq_some_iff.1 h
    exact ⟨List.prefix_rfl, List.prefix_rfl⟩
  | approvalStatus id status =>
    cases h
    exact ⟨List.prefix_rfl, List.prefix_rfl⟩

theorem Sources.transact_grows {changes : List Change} {s s' : Sources}
    (h : s.transact changes = some s') : s.Grows s' := by
  induction changes generalizing s with
  | nil =>
    cases h
    exact ⟨List.prefix_rfl, List.prefix_rfl⟩
  | cons x changes ih =>
    rw [transact, List.foldlM_cons] at h
    obtain ⟨s₁, hx, hrest⟩ := Option.bind_eq_some_iff.1 h
    have hfirst := change_grows hx
    have hlast := ih hrest
    exact ⟨hfirst.1.trans hlast.1, hfirst.2.trans hlast.2⟩

/-- A row that is new in an ordered log is behind every cursor of the old one. -/
theorem mem_of_le_cursor {ρ : Type} {key : ρ → Nat} {l l' : List ρ} (hl : l <+: l')
    (hordered : Log.Ordered key l') (hpositive : ∀ x ∈ l', 0 < key x) {cursor : Nat}
    (hcursor : cursor = 0 ∨ ∃ x ∈ l, key x = cursor) {x : ρ} (hx : x ∈ l') (hle : key x ≤ cursor) :
    x ∈ l := by
  obtain ⟨t, rfl⟩ := hl
  rcases List.mem_append.1 hx with hx' | hx'
  · exact hx'
  · exfalso
    rcases hcursor with rfl | ⟨y, hy, rfl⟩
    · have := hpositive x hx
      omega
    · have := (List.pairwise_append.1 hordered).2.2 y hy x hx'
      omega

theorem Balanced.grows {sources' : Sources} (h : sources.Grows sources')
    (hb : Balanced channels sources a) : Balanced channels sources' a := by
  refine ⟨hb.filled.congr fun s c => and_congr_left fun _ => ?_, ?_, ?_⟩
  · cases s with
    | objectiveEvent e =>
      constructor
      · rintro ⟨he, hrest⟩
        exact ⟨h.1.subset he, hrest⟩
      · rintro ⟨he, hselected, hle⟩
        exact ⟨mem_of_le_cursor h.1 sources'.objectiveRowids sources'.positive.1 hb.objectiveCursor he hle,
          hselected, hle⟩
    | controlEvent e =>
      constructor
      · rintro ⟨he, hrest⟩
        exact ⟨h.2.subset he, hrest⟩
      · rintro ⟨he, hselected, hle⟩
        exact ⟨mem_of_le_cursor h.2 sources'.controlRowids sources'.positive.2 hb.controlCursor he hle,
          hselected, hle⟩
    | approval id row => exact Iff.rfl
  · exact hb.objectiveCursor.imp id fun ⟨e, he, heq⟩ => ⟨e, h.1.subset he, heq⟩
  · exact hb.controlCursor.imp id fun ⟨e, he, heq⟩ => ⟨e, h.2.subset he, heq⟩

/-! ### The office -/

/-- The channels of the configuration; none when it is refused. -/
def channelsOf (config : Config) : List Channel :=
  match enabledChannels config with
  | .ok channels => channels
  | .error _ => []

/-- What has been read when a part of the transaction comes next. -/
def Progress (sources : Sources) (a : Account) : CollectStage → Prop
  | .objectiveEvents => True
  | .controlEvents => ObjectiveEventsRead sources a
  | .approvals => ObjectiveEventsRead sources a ∧ ControlEventsRead sources a
  | .done => ObjectiveEventsRead sources a ∧ ControlEventsRead sources a ∧ ApprovalsRead sources a

/-- The committed tables and those of the transaction. -/
structure OfficeInv (channels : List Channel) (w : Office) : Prop where
  committed : Balanced channels w.sources w.account
  drafted : ∀ u, w.writer = some u → Balanced channels w.sources u.draft ∧
    w.cursors.Le u.draft.cursors ∧ Progress w.sources u.draft u.stage

theorem Cursors.Le.refl (x : Cursors) : x.Le x := ⟨le_refl _, le_refl _⟩

theorem Cursors.Le.trans {x y z : Cursors} (h : x.Le y) (h' : y.Le z) : x.Le z :=
  ⟨h.1.trans h'.1, h.2.trans h'.2⟩

theorem officeInv_start {w : Office} (h : (offices config).start w) : OfficeInv channels w := by
  obtain ⟨⟨clock, hdelivery⟩, hcursors, hnoticed, hcontents, hwriter⟩ := h
  refine ⟨⟨⟨?_, ?_, ?_⟩, ?_, ?_⟩, fun u hu => by rw [hwriter] at hu; cases hu⟩
  · intro i j y z hy
    rw [Office.account, hdelivery] at hy
    cases hy
  · intro i y hy
    rw [Office.account, hdelivery] at hy
    cases hy
  · rintro s c ⟨hs, -⟩
    rw [Office.account, hcursors, hnoticed] at hs
    cases s with
    | objectiveEvent e =>
      have hpositive := w.sources.positive.1 e hs.1
      have hzero : e.rowid ≤ 0 := hs.2.2
      omega
    | controlEvent e =>
      have hpositive := w.sources.positive.2 e hs.1
      have hzero : e.eventId ≤ 0 := hs.2.2
      omega
    | approval id row => cases hs
  · left
    rw [Office.account, hcursors]
    rfl
  · left
    rw [Office.account, hcursors]
    rfl

variable {w : Office}

/-- A part of the transaction is nothing but a draft. -/
theorem collect_draft (config : Config) (w : Office) (u : Writer) :
    ∃ writer, w.collect config u = { w with writer } := by
  unfold Office.collect
  cases u.stage with
  | objectiveEvents =>
    dsimp only
    split <;> exact ⟨_, rfl⟩
  | controlEvents =>
    dsimp only
    split <;> exact ⟨_, rfl⟩
  | approvals =>
    dsimp only
    split <;> exact ⟨_, rfl⟩
  | done => exact ⟨w.writer, rfl⟩

/-- One part of the transaction. -/
theorem OfficeInv.collect (h : OfficeInv (channelsOf config) w) {u : Writer} (hu : w.writer = some u) :
    OfficeInv (channelsOf config) (w.collect config u) := by
  obtain ⟨hdraft, hle, hprogress⟩ := h.drafted u hu
  have hrollback : OfficeInv (channelsOf config) { w with writer := none } :=
    ⟨h.committed, fun u hu => by cases hu⟩
  have hnext : ∀ stage draft created, Balanced (channelsOf config) w.sources draft →
      u.draft.cursors.Le draft.cursors → Progress w.sources draft stage →
      OfficeInv (channelsOf config) { w with writer := some ⟨u.pid, stage, draft, created⟩ } := by
    intro stage draft created hb hmoved hdone
    refine ⟨h.committed, fun u' hu' => ?_⟩
    cases hu'
    exact ⟨hb, hle.trans hmoved, hdone⟩
  cases hchannels : enabledChannels config with
  | error e =>
    unfold Office.collect
    cases u.stage with
    | objectiveEvents =>
      rw [collectObjectiveEvents, hchannels]
      exact hrollback
    | controlEvents =>
      rw [collectControlEvents, hchannels]
      exact hrollback
    | approvals =>
      rw [collectApprovals, hchannels]
      exact hrollback
    | done => exact h
  | ok channels =>
    have hof : channelsOf config = channels := by rw [channelsOf, hchannels]
    rw [hof] at hdraft hrollback hnext h ⊢
    unfold Office.collect
    cases hstage : u.stage with
    | objectiveEvents =>
      dsimp only
      cases hpart : collectObjectiveEvents config w.delivery.clock w.sources u.draft with
      | error e => exact hrollback
      | ok x =>
        obtain ⟨hb, hmoved, hread, -, -⟩ := collectObjectiveEvents_ok hdraft hchannels hpart
        exact hnext _ _ _ hb hmoved hread
    | controlEvents =>
      rw [hstage] at hprogress
      dsimp only
      cases hpart : collectControlEvents config w.delivery.clock w.sources u.draft with
      | error e => exact hrollback
      | ok x =>
        obtain ⟨hb, hmoved, hread, hsame, -⟩ := collectControlEvents_ok hdraft hchannels hpart
        refine hnext _ _ _ hb hmoved ⟨fun e he => ?_, hread⟩
        rw [hsame]
        exact hprogress e he
    | approvals =>
      rw [hstage] at hprogress
      dsimp only
      cases hpart : collectApprovals config w.delivery.clock w.sources u.draft with
      | error e => exact hrollback
      | ok x =>
        obtain ⟨hb, hsame, hread, -⟩ := collectApprovals_ok hdraft hchannels hpart
        refine hnext _ _ _ hb (by rw [hsame]; exact Cursors.Le.refl _) ⟨fun e he => ?_, fun e he => ?_, hread⟩
        · rw [hsame]
          exact hprogress.1 e he
        · rw [hsame]
          exact hprogress.2 e he
    | done => exact h

theorem not_waits_sameRows {a : Action} (h : w.waits a = false) :
    SameRows w.delivery.outbox (w.delivery.step a).outbox := by
  refine sameRows_step w.delivery fun i m ha => ?_
  rw [ha] at h
  cases h

theorem OfficeInv.step (h : OfficeInv (channelsOf config) w) (x : Errand) :
    OfficeInv (channelsOf config) (w.step config x) := by
  unfold Office.step
  cases x with
  | transact changes =>
    dsimp only
    split
    · rename_i sources hwriter hchanges
      refine ⟨h.committed.grows (Sources.transact_grows hchanges), fun u hu => ?_⟩
      rw [hwriter] at hu
      cases hu
    · exact h
  | begin pid =>
    dsimp only
    split
    · refine ⟨h.committed, fun u hu => ?_⟩
      cases hu
      exact ⟨h.committed, Cursors.Le.refl _, trivial⟩
    · exact h
  | collect pid =>
    dsimp only
    split
    · rename_i u hwriter
      split
      · exact h.collect hwriter
      · exact h
    · exact h
  | commit pid =>
    dsimp only
    split
    · rename_i u hwriter
      split
      · exact ⟨(h.drafted u hwriter).1, fun u' hu' => by cases hu'⟩
      · exact h
    · exact h
  | crash pid =>
    dsimp only
    split
    · exact ⟨h.committed, fun u hu => by cases hu⟩
    · exact h
  | deliver a =>
    dsimp only
    split
    · exact h
    · rename_i hwaits
      have hrows := not_waits_sameRows (Bool.eq_false_iff.2 hwaits)
      exact ⟨⟨h.committed.filled.same hrows, h.committed.objectiveCursor, h.committed.controlCursor⟩,
        h.drafted⟩

theorem officeInv_run {w₀ : Office} (h : (offices config).start w₀) (as : List Errand) :
    OfficeInv (channelsOf config) ((offices config).run w₀ as) := by
  induction as using List.reverseRecOn with
  | nil => exact officeInv_start h
  | append_singleton as x ih =>
    rw [Machine.run_append]
    exact ih.step x

/-! ### Histories of approvals -/

/-- The approval was in this state at some step of the run. -/
def WasInState (config : Config) (w₀ : Office) (as : List Errand) (id : String) (row : Approval) : Prop :=
  (offices config).Sometime (fun _ w => w.sources.approvals.get? id = some row) w₀ as

/-- Only states that the approvals were in have been noticed. -/
def NoticedInv (config : Config) (w₀ : Office) (as : List Errand) (w : Office) : Prop :=
  (∀ x ∈ w.noticed, WasInState config w₀ as x.1 x.2) ∧
    ∀ u, w.writer = some u → ∀ x ∈ u.draft.noticed, WasInState config w₀ as x.1 x.2

theorem WasInState.append {w₀ : Office} {as : List Errand} {id : String} {row : Approval}
    (h : WasInState config w₀ as id row) (x : Errand) : WasInState config w₀ (as ++ [x]) id row :=
  (Machine.sometime_append _ _ _).2 (Or.inl h)

theorem wasInState_last {w₀ : Office} {as : List Errand} {id : String} {row : Approval} (x : Errand)
    (h : ((offices config).run w₀ as).sources.approvals.get? id = some row) :
    WasInState config w₀ (as ++ [x]) id row :=
  (Machine.sometime_append _ _ _).2 (Or.inr (Or.inl h))

/-- The states that a part of the transaction adds are the present ones. -/
theorem collect_noticed {u u' : Writer} (hu : w.writer = some u)
    (hu' : (w.collect config u).writer = some u') {x : String × Approval} (hx : x ∈ u'.draft.noticed) :
    x ∈ u.draft.noticed ∨ w.sources.approvals.get? x.1 = some x.2 := by
  unfold Office.collect at hu'
  cases hstage : u.stage with
  | objectiveEvents =>
    rw [hstage, collectObjectiveEvents] at hu'
    cases hchannels : enabledChannels config with
    | error e =>
      rw [hchannels] at hu'
      cases hu'
    | ok channels =>
      rw [hchannels] at hu'
      cases hu'
      exact Or.inl hx
  | controlEvents =>
    rw [hstage, collectControlEvents] at hu'
    cases hchannels : enabledChannels config with
    | error e =>
      rw [hchannels] at hu'
      cases hu'
    | ok channels =>
      rw [hchannels] at hu'
      cases hu'
      exact Or.inl hx
  | approvals =>
    rw [hstage, collectApprovals] at hu'
    cases hchannels : enabledChannels config with
    | error e =>
      rw [hchannels] at hu'
      cases hu'
    | ok channels =>
      rw [hchannels] at hu'
      cases hu'
      rcases List.mem_append.1 hx with hnew | hold
      · rw [List.mem_insertionSort] at hnew
        exact Or.inr (Table.mem_rows_iff.1 hnew)
      · exact Or.inl hold
  | done =>
    rw [hstage] at hu'
    rw [hu] at hu'
    cases hu'
    exact Or.inl hx

theorem NoticedInv.step {w₀ : Office} {as : List Errand}
    (h : NoticedInv config w₀ as ((offices config).run w₀ as)) (x : Errand) :
    NoticedInv config w₀ (as ++ [x]) (((offices config).run w₀ as).step config x) := by
  have hnow : ∀ id row, ((offices config).run w₀ as).sources.approvals.get? id = some row →
      WasInState config w₀ (as ++ [x]) id row := fun id row => wasInState_last x
  generalize hw : (offices config).run w₀ as = w at h hnow ⊢
  have hkept : NoticedInv config w₀ (as ++ [x]) w :=
    ⟨fun y hy => (h.1 y hy).append x, fun u hu y hy => (h.2 u hu y hy).append x⟩
  have hfree : ∀ w' : Office, w'.noticed = w.noticed → w'.writer = none →
      NoticedInv config w₀ (as ++ [x]) w' := by
    intro w' hnoticed hwriter
    refine ⟨fun y hy => hkept.1 y (by rw [← hnoticed]; exact hy), fun u hu => ?_⟩
    rw [hwriter] at hu
    cases hu
  unfold Office.step
  cases x with
  | transact changes =>
    dsimp only
    split
    · rename_i hwriter _
      exact hfree _ rfl hwriter
    · exact hkept
  | begin pid =>
    dsimp only
    split
    · refine ⟨hkept.1, fun u hu => ?_⟩
      cases hu
      exact hkept.1
    · exact hkept
  | collect pid =>
    dsimp only
    split
    · rename_i u hwriter
      split
      · refine ⟨?_, fun u' hu' y hy => ?_⟩
        · obtain ⟨writer, hdraft⟩ := collect_draft config w u
          rw [hdraft]
          exact hkept.1
        · rcases collect_noticed hwriter hu' hy with hold | hnew
          · exact hkept.2 u hwriter y hold
          · exact hnow _ _ hnew
      · exact hkept
    · exact hkept
  | commit pid =>
    dsimp only
    split
    · rename_i u hwriter
      split
      · exact ⟨hkept.2 u hwriter, fun u' hu' => by cases hu'⟩
      · exact hkept
    · exact hkept
  | crash pid =>
    dsimp only
    split
    · exact hfree _ rfl rfl
    · exact hkept
  | deliver a =>
    dsimp only
    split
    · exact hkept
    · exact ⟨hkept.1, hkept.2⟩

theorem noticedInv_run {w₀ : Office} (h : (offices config).start w₀) (as : List Errand) :
    NoticedInv config w₀ as ((offices config).run w₀ as) := by
  induction as using List.reverseRecOn with
  | nil =>
    obtain ⟨-, -, hnoticed, -, hwriter⟩ := h
    refine ⟨fun y hy => ?_, fun u hu => ?_⟩
    · rw [Machine.run, hnoticed] at hy
      cases hy
    · rw [Machine.run, hwriter] at hu
      cases hu
  | append_singleton as x ih =>
    rw [Machine.run_append]
    exact ih.step x

/-! ### The outbox after a collection -/

/-- What a notification may be for: a source event of a selected type, or a state of an approval. -/
def Due (config : Config) (w₀ : Office) (as : List Errand) : Subject → Prop
  | .objectiveEvent e => e ∈ ((offices config).run w₀ as).sources.objectiveEvents ∧
      (objectiveTitles.lookup e.eventType).isSome = true
  | .controlEvent e => e ∈ ((offices config).run w₀ as).sources.controlEvents ∧
      (controlTitles.lookup e.eventType).isSome = true
  | .approval id row => WasInState config w₀ as id row

/-- Every selected source event and the state of every approval has exactly one row for each channel. -/
structure Complete (channels : List Channel) (w : Office) : Prop where
  objectiveEvents : ∀ e ∈ w.sources.objectiveEvents, (objectiveTitles.lookup e.eventType).isSome = true →
    ∀ c ∈ channels, ∃! i, StandsFor w.account.box i (.objectiveEvent e) c
  controlEvents : ∀ e ∈ w.sources.controlEvents, (controlTitles.lookup e.eventType).isSome = true →
    ∀ c ∈ channels, ∃! i, StandsFor w.account.box i (.controlEvent e) c
  approvals : ∀ id row, w.sources.approvals.get? id = some row →
    ∀ c ∈ channels, ∃! i, StandsFor w.account.box i (.approval id row) c

theorem Filled.once (h : Filled b P) {s : Subject} {c : Channel} (hs : P s c) :
    ∃! i, StandsFor b i s c := by
  obtain ⟨i, hstands⟩ := h.paid s c hs
  refine ⟨i, hstands, fun j hj => ?_⟩
  obtain ⟨y, -, hy, -, hykey, -⟩ := hstands
  obtain ⟨z, -, hz, -, hzkey, -⟩ := hj
  exact h.unique j i z y hz hy (hzkey.trans hykey.symm)

/-- The commit of a transaction that has read everything. -/
theorem OfficeInv.commit_complete (h : OfficeInv channels w) {u : Writer} (hu : w.writer = some u)
    (hdone : u.stage = .done) : Complete channels (w.step config (.commit u.pid)) := by
  obtain ⟨hdraft, -, hprogress⟩ := h.drafted u hu
  rw [hdone] at hprogress
  obtain ⟨hobjective, hcontrol, happrovals⟩ := hprogress
  have hstep : w.step config (.commit u.pid) = w.commit u := by
    simp only [Office.step, hu, hdone, and_self, if_true]
  rw [hstep]
  refine ⟨fun e he hselected c hc => ?_, fun e he hselected c hc => ?_, fun id row hrow c hc => ?_⟩
  · exact hdraft.filled.once ⟨⟨he, hselected, hobjective e he⟩, hc⟩
  · exact hdraft.filled.once ⟨⟨he, hselected, hcontrol e he⟩, hc⟩
  · exact hdraft.filled.once ⟨happrovals id row hrow, hc⟩

/-- No step moves a cursor back. -/
theorem OfficeInv.cursors_step (h : OfficeInv channels w) (x : Errand) :
    w.cursors.Le (w.step config x).cursors := by
  unfold Office.step
  cases x with
  | transact changes =>
    dsimp only
    split <;> exact Cursors.Le.refl _
  | begin pid =>
    dsimp only
    split <;> exact Cursors.Le.refl _
  | collect pid =>
    dsimp only
    split
    · rename_i u hwriter
      split
      · obtain ⟨writer, hdraft⟩ := collect_draft config w u
        rw [hdraft]
        exact Cursors.Le.refl _
      · exact Cursors.Le.refl _
    · exact Cursors.Le.refl _
  | commit pid =>
    dsimp only
    split
    · rename_i u hwriter
      split
      · exact (h.drafted u hwriter).2.1
      · exact Cursors.Le.refl _
    · exact Cursors.Le.refl _
  | crash pid =>
    dsimp only
    split <;> exact Cursors.Le.refl _
  | deliver a =>
    dsimp only
    split <;> exact Cursors.Le.refl _

/-- Every row is due to something. -/
theorem due_of_row {w₀ : Office} (h : (offices config).start w₀) (as : List Errand) {i : NotificationId}
    {y : Notification} (hy : ((offices config).run w₀ as).delivery.outbox.notifications.get? i = some y) :
    ∃ s, ∃ c ∈ channelsOf config,
      StandsFor ((offices config).run w₀ as).account.box i s c ∧ Due config w₀ as s := by
  obtain ⟨s, c, ⟨hs, hc⟩, hstands⟩ := (officeInv_run h as).committed.filled.owed i y hy
  refine ⟨s, c, hc, hstands, ?_⟩
  cases s with
  | objectiveEvent e => exact ⟨hs.1, hs.2.1⟩
  | controlEvent e => exact ⟨hs.1, hs.2.1⟩
  | approval id row => exact (noticedInv_run h as).1 (id, row) hs

/-- What a process does that collects without a break. -/
def wholeCollection (pid : Pid) : List Errand :=
  [.begin pid, .collect pid, .collect pid, .collect pid, .commit pid]

def CollectStage.next : CollectStage → CollectStage
  | .objectiveEvents => .controlEvents
  | .controlEvents => .approvals
  | .approvals | .done => .done

/-- Under channels that the configuration allows, no part of the transaction raises. -/
theorem collect_advances {u : Writer} (hu : w.writer = some u)
    (hchannels : enabledChannels config = .ok channels) : ∃ u',
      (w.step config (.collect u.pid)).writer = some u' ∧ u'.pid = u.pid ∧ u'.stage = u.stage.next := by
  have hstep : w.step config (.collect u.pid) = w.collect config u := by
    simp only [Office.step, hu, if_true]
  rw [hstep]
  unfold Office.collect
  cases hstage : u.stage with
  | objectiveEvents =>
    rw [collectObjectiveEvents, hchannels]
    exact ⟨_, rfl, rfl, rfl⟩
  | controlEvents =>
    rw [collectControlEvents, hchannels]
    exact ⟨_, rfl, rfl, rfl⟩
  | approvals =>
    rw [collectApprovals, hchannels]
    exact ⟨_, rfl, rfl, rfl⟩
  | done => exact ⟨u, hu, rfl, hstage⟩

/-- A process that finds the lock free and is not stopped leaves everything collected. -/
theorem OfficeInv.whole_complete (h : OfficeInv (channelsOf config) w) (hfree : w.writer = none)
    (hchannels : enabledChannels config = .ok channels) (pid : Pid) :
    Complete (channelsOf config) ((offices config).run w (wholeCollection pid)) := by
  have hbegin : (w.step config (.begin pid)).writer = some ⟨pid, .objectiveEvents, w.account, 0⟩ := by
    simp only [Office.step, hfree]
  obtain ⟨u₁, hu₁, hpid₁, hstage₁⟩ := collect_advances hbegin hchannels
  obtain ⟨u₂, hu₂, hpid₂, hstage₂⟩ := collect_advances hu₁ hchannels
  obtain ⟨u₃, hu₃, hpid₃, hstage₃⟩ := collect_advances hu₂ hchannels
  rw [hpid₁] at hu₂ hu₃ hpid₂
  rw [hpid₂] at hu₃ hpid₃
  rw [hstage₂, hstage₁] at hstage₃
  have hend := (((h.step (.begin pid)).step (.collect pid)).step (.collect pid)).step (.collect pid)
  have hdone : Complete (channelsOf config) (Office.step config (.commit u₃.pid) _) :=
    hend.commit_complete hu₃ hstage₃
  rw [hpid₃] at hdone
  exact hdone

/-- In every run, with processes that collect, deliver and stop in any order: every row is due to a source
    event of a selected type or to a state that its approval was in; after a collection every selected
    event, and every approval in its present state, has exactly one row for each channel; and no step moves
    a cursor back. -/
theorem collection_complete (config : Config) (w₀ : Office) (as : List Errand)
    (h : (offices config).start w₀) :
    (∀ i y, ((offices config).run w₀ as).delivery.outbox.notifications.get? i = some y →
      ∃ s, ∃ c ∈ channelsOf config,
        StandsFor ((offices config).run w₀ as).account.box i s c ∧ Due config w₀ as s) ∧
      (∀ u, ((offices config).run w₀ as).writer = some u → u.stage = .done →
        Complete (channelsOf config) (((offices config).run w₀ as).step config (.commit u.pid))) ∧
      (((offices config).run w₀ as).writer = none → (enabledChannels config).isOk = true → ∀ pid,
        Complete (channelsOf config) ((offices config).run w₀ (as ++ wholeCollection pid))) ∧
      ∀ x, ((offices config).run w₀ as).cursors.Le (((offices config).run w₀ as).step config x).cursors := by
  have hinv := officeInv_run h as
  refine ⟨fun i y hy => due_of_row h as hy, fun u hu hdone => hinv.commit_complete hu hdone,
    fun hfree hok pid => ?_, hinv.cursors_step⟩
  rw [Machine.run_append]
  cases hchannels : enabledChannels config with
  | error e =>
    rw [hchannels] at hok
    cases hok
  | ok channels => exact hinv.whole_complete hfree hchannels pid

/-! ### An approval that is answered -/

def sampleConfig : Config := ⟨true, "auto", false⟩

def noSources : Sources :=
  ⟨.empty, [], [], .empty, List.Pairwise.nil, List.Pairwise.nil, by simp, List.nodup_nil, by simp⟩

def newOffice : Office := ⟨noSources, emptyOutbox, fun _ => none, ⟨none, none⟩, [], none⟩

theorem newOffice_start : (offices sampleConfig).start newOffice :=
  ⟨emptyOutbox_start, rfl, rfl, rfl, rfl⟩

def sampleApproval : Approval := ⟨"run-1", .pending, "Merge?", "[]", "2026-01-01T00:00:00.000Z"⟩

/-- The gate is noticed, approved, and noticed again. -/
def answeredGate : List Errand :=
  .transact [.approval "approval-1" sampleApproval] :: wholeCollection 1 ++
    .transact [.approvalStatus "approval-1" .approved] ::
      [.begin 1, .collect 1, .collect 1, .collect 1]

theorem answered_gate_complete :
    Complete (channelsOf sampleConfig) ((offices sampleConfig).run newOffice
      ([.transact [.approval "approval-1" sampleApproval]] ++ wholeCollection 1)) :=
  (collection_complete sampleConfig newOffice [.transact [.approval "approval-1" sampleApproval]]
    newOffice_start).2.2.1 rfl rfl 1

/-- What a collection should leave rows for, if only present states counted. -/
def Current (sources : Sources) : Subject → Prop
  | .objectiveEvent e => e ∈ sources.objectiveEvents
  | .controlEvent e => e ∈ sources.controlEvents
  | .approval id row => sources.approvals.get? id = some row

/-- The row of the state that an approval has left stays. -/
theorem left_state_posted : ¬∀ (config : Config) (w₀ : Office) (as : List Errand),
    (offices config).start w₀ → ∀ u, ((offices config).run w₀ as).writer = some u → u.stage = .done →
      ∀ i y, (((offices config).run w₀ as).step config (.commit u.pid)).delivery.outbox.notifications.get? i =
        some y → ∃ s, ∃ c ∈ channelsOf config,
          StandsFor (((offices config).run w₀ as).step config (.commit u.pid)).account.box i s c ∧
            Current (((offices config).run w₀ as).step config (.commit u.pid)).sources s := by
  intro h
  have hwriter : ((offices sampleConfig).run newOffice answeredGate).writer.map (fun u => (u.pid, u.stage)) =
      some (1, .done) := by decide +kernel
  have hrow : ((((offices sampleConfig).run newOffice answeredGate).step sampleConfig
      (.commit 1)).delivery.outbox.notifications.get? 1).map Notification.dedupeKey =
        some ((Subject.approval "approval-1" sampleApproval).dedupeKey .file) := by decide +kernel
  have hstate : ((((offices sampleConfig).run newOffice answeredGate).step sampleConfig
      (.commit 1)).sources.approvals.get? "approval-1").map Approval.status = some .approved := by
    decide +kernel
  obtain ⟨u, hu, hpid⟩ := Option.map_eq_some_iff.1 hwriter
  obtain ⟨y, hy, hkey⟩ := Option.map_eq_some_iff.1 hrow
  rw [Prod.mk.injEq] at hpid
  obtain ⟨hpid, hstage⟩ := hpid
  have hdue := h sampleConfig newOffice answeredGate newOffice_start u hu hstage 1 y
  rw [hpid] at hdue
  obtain ⟨s, c, -, ⟨z, -, hz, -, hzkey, -⟩, hs⟩ := hdue hy
  have hyz : y = z := Option.some.inj (hy.symm.trans hz)
  obtain ⟨hsame, -⟩ := Subject.dedupeKey_inj (hzkey.symm.trans ((congrArg _ hyz.symm).trans hkey))
  cases s with
  | objectiveEvent e => exact hsame
  | controlEvent e => exact hsame
  | approval id row =>
    obtain ⟨hid, hstatus⟩ := hsame
    have hget : (((offices sampleConfig).run newOffice answeredGate).step sampleConfig
        (.commit 1)).sources.approvals.get? id = some row := hs
    rw [hid] at hget
    rw [hget, Option.map_some, hstatus] at hstate
    cases hstate

end HermesOps.Notifier
