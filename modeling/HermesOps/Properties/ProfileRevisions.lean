import HermesOps.Properties.ProfileWrites

/-! The history of the profiles. However the three writers are interleaved, the revisions of a profile are
    numbered from one to its current one, none is ever changed, and every change of a profile adds exactly
    one. An import is admitted to the tables exactly when its time is not before the creation of the
    profile that it changes. -/

namespace HermesOps.Profiles

open Schemes Controller.Commands Hermesfile
open Controller (Json Keys)

variable {y : Reader} {p : Hashing} {s : Submission} {ids : Ids} {now : Time} {t t' : Tables}

/-! ### The numbers of the revisions -/

/-- The number of the current revision; zero when there is no such profile. -/
def Tables.number (t : Tables) (id : String) : Nat :=
  (t.profiles.get? id).elim 0 ProfileRow.currentSourceRevision

/-- The public columns show the source. -/
structure ProfileRow.Shows (row : ProfileRow) (m : Metadata) : Prop where
  profileName : row.profileName = m.profileName
  displayName : row.displayName = m.displayName
  description : row.description = m.description
  labels : row.labels = .map m.labels

/-- The current revision of a profile has its number, and the profile shows its source. -/
structure Current (y : Reader) (t : Tables) (id : String) (row : ProfileRow) (s : Submission) (now : Time) :
    Prop where
  submitted : Submitted y s
  revision : t.revisions.get? row.currentRevisionId = some (s.revisionRow id row.currentSourceRevision now)
  revisionCheck : (s.revisionRow id row.currentSourceRevision now).check y row.currentRevisionId = true
  shows : row.Shows s.metadata

/-- Each profile has the revisions from one to its current one, once each, and has been changed once for
    each of them. -/
structure Numbered (y : Reader) (t : Tables) : Prop where
  named : ∀ {i j : String} {row row' : ProfileRow}, t.profiles.get? i = some row →
    t.profiles.get? j = some row' → row.profileName = row'.profileName → i = j
  checked : ∀ {id : String} {row : ProfileRow}, t.profiles.get? id = some row → row.check y id = true
  current : ∀ {id : String} {row : ProfileRow}, t.profiles.get? id = some row →
    ∃ s now, Current y t id row s now
  counted : ∀ {id : String} {row : ProfileRow}, t.profiles.get? id = some row →
    row.resourceRevision = row.currentSourceRevision
  bounded : ∀ {i : String} {r : RevisionRow}, t.revisions.get? i = some r →
    1 ≤ r.sourceRevision ∧ r.sourceRevision ≤ t.number r.sandboxId
  complete : ∀ {id : String} {n : Nat}, 1 ≤ n → n ≤ t.number id →
    ∃ i r, t.revisions.get? i = some r ∧ r.sandboxId = id ∧ r.sourceRevision = n
  distinct : ∀ {i j : String} {a b : RevisionRow}, t.revisions.get? i = some a →
    t.revisions.get? j = some b → a.sandboxId = b.sandboxId → a.sourceRevision = b.sourceRevision → i = j

theorem numbered_empty : Numbered y .empty where
  named h := by cases h
  checked h := by cases h
  current h := by cases h
  counted h := by cases h
  bounded h := by cases h
  complete hlow hhigh := absurd (hlow.trans hhigh) (Nat.not_succ_le_zero 0)
  distinct h := by cases h

/-! ### One more revision -/

/-- A profile, possibly a new one, takes an accepted source as its next revision. -/
structure Grown (y : Reader) (s : Submission) (now : Time) (id revisionId : String) (row : ProfileRow)
    (t t' : Tables) : Prop where
  submitted : Submitted y s
  fresh : t.revisions.get? revisionId = none
  profile : ∀ j, t'.profiles.get? j = if j = id then some row else t.profiles.get? j
  revision : ∀ i, t'.revisions.get? i =
    if i = revisionId then some (s.revisionRow id row.currentSourceRevision now) else t.revisions.get? i
  latest : row.currentRevisionId = revisionId
  profileCheck : row.check y id = true
  revisionCheck : (s.revisionRow id row.currentSourceRevision now).check y revisionId = true
  shows : row.Shows s.metadata
  unnamed : ∀ {j : String} {other : ProfileRow}, t.profiles.get? j = some other →
    other.profileName = row.profileName → j = id
  numbered : row.currentSourceRevision = t.number id + 1
  counted : row.resourceRevision = (t.profiles.get? id).elim 0 ProfileRow.resourceRevision + 1
  dated : row.createdAt = (t.profiles.get? id).elim now ProfileRow.createdAt
  renamed : ∀ {old : ProfileRow}, t.profiles.get? id = some old → row.profileName = old.profileName
  novel : ∀ {old : ProfileRow} {r : RevisionRow}, t.profiles.get? id = some old →
    t.revisions.get? old.currentRevisionId = some r → r.sourceSha256 ≠ s.accepted.sourceSha256

section Grown

variable {id revisionId : String} {row : ProfileRow}

/-- No revision is lost or changed. -/
theorem Grown.kept (h : Grown y s now id revisionId row t t') {i : String} {r : RevisionRow}
    (hr : t.revisions.get? i = some r) : t'.revisions.get? i = some r := by
  rw [h.revision, if_neg, hr]
  rintro rfl
  rw [h.fresh] at hr
  cases hr

theorem Grown.number_self (h : Grown y s now id revisionId row t t') : t'.number id = t.number id + 1 := by
  rw [Tables.number, h.profile, if_pos rfl]
  exact h.numbered

theorem Grown.number_other (h : Grown y s now id revisionId row t t') {j : String} (hj : j ≠ id) :
    t'.number j = t.number j := by
  rw [Tables.number, h.profile, if_neg hj]
  rfl

theorem Grown.number_le (h : Grown y s now id revisionId row t t') (j : String) :
    t.number j ≤ t'.number j := by
  by_cases hj : j = id
  · rw [hj, h.number_self]
    exact Nat.le_succ _
  · rw [h.number_other hj]

/-- The revision that is new. -/
theorem Grown.added (h : Grown y s now id revisionId row t t') :
    t'.revisions.get? revisionId = some (s.revisionRow id row.currentSourceRevision now) := by
  rw [h.revision, if_pos rfl]

/-- A revision is the new one or an old one, whose number is then another. -/
theorem Grown.cases (h : Grown y s now id revisionId row t t') (hn : Numbered y t) {i : String}
    {r : RevisionRow} (hr : t'.revisions.get? i = some r) :
    (i = revisionId ∧ r.sandboxId = id ∧ r.sourceRevision = row.currentSourceRevision) ∨
      (t.revisions.get? i = some r ∧
        ¬(r.sandboxId = id ∧ r.sourceRevision = row.currentSourceRevision)) := by
  rw [h.revision] at hr
  split at hr
  · rename_i hi
    cases hr
    exact .inl ⟨hi, rfl, rfl⟩
  · refine .inr ⟨hr, ?_⟩
    rintro ⟨howner, hnumber⟩
    obtain ⟨-, hle⟩ := hn.bounded hr
    rw [howner, hnumber, h.numbered] at hle
    omega

theorem Grown.keeps (h : Grown y s now id revisionId row t t') (hn : Numbered y t) : Numbered y t' where
  named := by
    intro i j a b hi hj hname
    rw [h.profile] at hi hj
    split at hi
    · rename_i hid
      cases hi
      split at hj
      · rename_i hjd
        rw [hid, hjd]
      · rw [hid, h.unnamed hj hname.symm]
    · split at hj
      · rename_i hjd
        cases hj
        rw [hjd, h.unnamed hi hname]
      · exact hn.named hi hj hname
  checked := by
    intro j a hj
    rw [h.profile] at hj
    split at hj
    · rename_i hjd
      cases hj
      rw [hjd]
      exact h.profileCheck
    · exact hn.checked hj
  current := by
    intro j a hj
    rw [h.profile] at hj
    split at hj
    · rename_i hjd
      cases hj
      rw [hjd]
      exact ⟨s, now, h.submitted, h.latest ▸ h.added, h.latest ▸ h.revisionCheck, h.shows⟩
    · obtain ⟨s', now', hcurrent⟩ := hn.current hj
      exact ⟨s', now', hcurrent.submitted, h.kept hcurrent.revision, hcurrent.revisionCheck, hcurrent.shows⟩
  counted := by
    intro j a hj
    rw [h.profile] at hj
    split at hj
    · cases hj
      rw [h.counted, h.numbered, Tables.number]
      cases hold : t.profiles.get? id with
      | none => rfl
      | some old => exact congrArg (· + 1) (hn.counted hold)
    · exact hn.counted hj
  bounded := by
    intro i r hr
    rcases h.cases hn hr with ⟨-, howner, hnumber⟩ | ⟨hold, -⟩
    · rw [howner, hnumber, h.number_self, h.numbered]
      exact ⟨Nat.le_add_left 1 _, Nat.le_refl _⟩
    · obtain ⟨hlow, hhigh⟩ := hn.bounded hold
      exact ⟨hlow, hhigh.trans (h.number_le _)⟩
  complete := by
    intro j n hlow hhigh
    by_cases hlast : j = id ∧ n = row.currentSourceRevision
    · obtain ⟨rfl, rfl⟩ := hlast
      exact ⟨revisionId, _, h.added, rfl, rfl⟩
    · have hold : n ≤ t.number j := by
        by_cases hj : j = id
        · rw [hj, h.number_self] at hhigh
          have hne : n ≠ t.number id + 1 := fun heq => hlast ⟨hj, heq.trans h.numbered.symm⟩
          rw [hj]
          omega
        · rwa [h.number_other hj] at hhigh
      obtain ⟨i, r, hr, howner⟩ := hn.complete hlow hold
      exact ⟨i, r, h.kept hr, howner⟩
  distinct := by
    intro i j a b ha hb howner hnumber
    rcases h.cases hn ha with ⟨hi, ha, hna⟩ | ⟨hold, hother⟩
    · rcases h.cases hn hb with ⟨hj, -⟩ | ⟨-, hother⟩
      · rw [hi, hj]
      · exact absurd ⟨howner ▸ ha, hnumber ▸ hna⟩ hother
    · rcases h.cases hn hb with ⟨-, hb, hnb⟩ | ⟨hold', -⟩
      · exact absurd ⟨howner.trans hb, hnumber.trans hnb⟩ hother
      · exact hn.distinct hold hold' howner hnumber

end Grown

theorem Created.grown (hs : Submitted y s) (h : Created y s ids now t t') :
    Grown y s now ids.sandboxId ids.revisionId (s.profileRow ids.revisionId now) t t' := by
  have hnone := Table.get?_of_insert h.profiles
  refine ⟨hs, Table.get?_of_insert h.revisions, Table.get?_insert h.profiles, Table.get?_insert h.revisions,
    rfl, h.profileCheck, h.revisionCheck, ⟨rfl, rfl, rfl, rfl⟩, ?_, ?_, ?_, ?_, ?_, ?_⟩
  · intro j other hj hname
    have hother := Table.any_eq_false_iff.1 h.unnamed j other hj
    exact absurd hname (of_decide_eq_false hother)
  · rw [Tables.number, hnone]
    rfl
  · rw [hnone]
    rfl
  · rw [hnone]
    rfl
  · intro old hold
    rw [hnone] at hold
    cases hold
  · intro old r hold
    rw [hnone] at hold
    cases hold

theorem Appended.grown {x : CurrentRow} (hs : Submitted y s) (hx : IsRow t x)
    (hname : x.profile.profileName = s.metadata.profileName)
    (hsource : x.revision.sourceSha256 ≠ s.accepted.sourceSha256)
    (h : Appended y s ids now x.sandboxId x.profile t t') (hn : Numbered y t) :
    Grown y s now x.sandboxId ids.revisionId (s.nextRow ids now x.profile) t t' := by
  refine ⟨hs, Table.get?_of_insert h.revisions, ?_, Table.get?_insert h.revisions, rfl, h.profileCheck,
    h.revisionCheck, ⟨hname, rfl, rfl, rfl⟩, ?_, ?_, ?_, ?_, ?_, ?_⟩
  · intro j
    rw [h.profiles, Table.get?_updateAt]
    split
    · rename_i hj
      rw [hj, h.found]
      rfl
    · rfl
  · intro j other hj hsame
    exact hn.named hj h.found hsame
  · rw [Tables.number, h.found]
    rfl
  · rw [h.found]
    rfl
  · rw [h.found]
    rfl
  · intro old hold
    obtain rfl := Option.some.inj (hold.symm.trans h.found)
    rfl
  · intro old r hold hr
    obtain rfl := Option.some.inj (hold.symm.trans h.found)
    obtain rfl := Option.some.inj (hr.symm.trans hx.revision)
    exact hsource

/-! ### One part of an operation -/

/-- The tables stay as they are, or gain one revision, which is not dated ahead of the clock. -/
inductive Change (y : Reader) (clock : Time) (t : Tables) : Tables → Prop
  | unchanged : Change y clock t t
  | grown {s : Submission} {now : Time} {id revisionId : String} {row : ProfileRow} {t' : Tables} :
      Grown y s now id revisionId row t t' → now ≤ clock → Change y clock t t'

variable {clock : Time}

theorem Change.keeps (h : Change y clock t t') (hn : Numbered y t) : Numbered y t' := by
  cases h with
  | unchanged => exact hn
  | grown h _ => exact h.keeps hn

/-- No revision is lost or changed. -/
theorem Change.kept (h : Change y clock t t') {i : String} {r : RevisionRow}
    (hr : t.revisions.get? i = some r) :
    t'.revisions.get? i = some r := by
  cases h with
  | unchanged => exact hr
  | grown h _ => exact h.kept hr

/-- No profile is lost. -/
theorem Change.found (h : Change y clock t t') {id : String} (hid : (t.profiles.get? id).isSome) :
    (t'.profiles.get? id).isSome := by
  cases h with
  | unchanged => exact hid
  | grown h _ =>
    rw [h.profile]
    split
    · rfl
    · exact hid

/-- A profile keeps its name and the date of its creation. -/
theorem Change.identity (h : Change y clock t t') {id : String} {row : ProfileRow}
    (hrow : t.profiles.get? id = some row) :
    ∃ row', t'.profiles.get? id = some row' ∧ row'.profileName = row.profileName ∧
      row'.createdAt = row.createdAt := by
  cases h with
  | unchanged => exact ⟨row, hrow, rfl, rfl⟩
  | grown h _ =>
    rw [h.profile]
    split
    · rename_i hid
      rw [hid] at hrow
      exact ⟨_, rfl, h.renamed hrow, by rw [h.dated, hrow]; rfl⟩
    · exact ⟨row, hrow, rfl, rfl⟩

/-- No profile is dated ahead of the clock. -/
def Tables.Dated (t : Tables) (clock : Time) : Prop :=
  ∀ {id : String} {row : ProfileRow}, t.profiles.get? id = some row → row.createdAt ≤ clock

theorem Change.dated (h : Change y clock t t') (ht : t.Dated clock) : t'.Dated clock := by
  intro id row hrow
  cases h with
  | unchanged => exact ht hrow
  | grown h hnow =>
    rw [h.profile] at hrow
    split at hrow
    · cases hrow
      rw [h.dated]
      cases hold : t.profiles.get? _ with
      | none => exact hnow
      | some old => exact ht hold
    · exact ht hrow

theorem ImportChange.change {outcome : Imported} (hs : Submitted y s) (hn : Numbered y t)
    (h : ImportChange y s ids now t outcome t') (hnow : now ≤ clock) : Change y clock t t' := by
  cases h with
  | unchanged _ _ _ => exact .unchanged
  | appended hx hname hsource h _ => exact .grown (h.grown hs hx hname hsource hn) hnow
  | created h _ => exact .grown (h.grown hs) hnow

/-- The profile that an import returns. -/
def Imported.sandboxId : Imported → String
  | unchanged id => id
  | stored id _ => id

theorem ImportChange.found {outcome : Imported} (h : ImportChange y s ids now t outcome t') :
    (t'.profiles.get? outcome.sandboxId).isSome := by
  cases h with
  | unchanged hx _ _ => exact Option.isSome_of_eq_some hx.profile
  | appended _ _ _ h _ =>
    rw [h.profiles, Imported.sandboxId, Table.get?_updateAt, if_pos rfl, h.found]
    rfl
  | created h _ =>
    rw [Imported.sandboxId, Table.get?_insert h.profiles, if_pos rfl]
    rfl

variable {r : Request} {u u' : Ledger Tables}

/-- A command that raises leaves the tables alone. -/
theorem create_error {e : Failure} (h : create y p r ids u = (.error e, u')) : u' = u := by
  unfold create at h
  split at h
  · cases h
    rfl
  · exact Txn.atomically_error h

theorem update_error {sandboxId : String} {ifMatch : Option String} {e : Failure}
    (h : update y p r sandboxId ifMatch ids u = (.error e, u')) : u' = u := by
  unfold update at h
  split at h
  · cases h
    rfl
  · exact Txn.atomically_error h

theorem create_change (hn : Numbered y u.content) :
    Change y r.draws.now u.content (create y p r ids u).2.content := by
  rcases hrun : create y p r ids u with ⟨e | a, u'⟩
  · rw [create_error hrun]
    exact .unchanged
  · obtain ⟨key, s, hcheck, ⟨-, rfl⟩ | ⟨hcreated, -⟩⟩ := create_ok hrun
    · exact .unchanged
    · exact .grown (hcreated.grown (checkCreate_ok hcheck)) (Nat.le_refl _)

theorem update_change {sandboxId : String} {ifMatch : Option String} (hn : Numbered y u.content) :
    Change y r.draws.now u.content (update y p r sandboxId ifMatch ids u).2.content := by
  rcases hrun : update y p r sandboxId ifMatch ids u with ⟨e | a, u'⟩
  · rw [update_error hrun]
    exact .unchanged
  · obtain ⟨key, expected, s, hcheck, ⟨-, rfl⟩ | ⟨x, hx, rfl, -, hname, hsource, happended, -⟩⟩ :=
      update_ok hrun
    · exact .unchanged
    · exact .grown (happended.grown (checkUpdate_ok hcheck) hx hname hsource hn) (Nat.le_refl _)

/-- What holds between the parts of the operations. -/
structure WorldInv (y : Reader) (w : World) : Prop where
  numbered : Numbered y w.store.content
  dated : w.store.content.Dated w.clock
  waiting : ∀ {i : Nat} {s : Submission} {now : Time}, w.imports i = some (.waiting s now) →
    Submitted y s ∧ now ≤ w.clock
  finished : ∀ {i : Nat} {outcome : Imported}, w.imports i = some (.finished outcome) →
    (w.store.content.profiles.get? outcome.sandboxId).isSome

variable {w : World} {a : Action}

theorem act_change (hw : WorldInv y w) :
    Change y (act y p a w).2.clock w.store.content (act y p a w).2.store.content := by
  cases a with
  | create r ids =>
    simp only [act]
    split
    · exact create_change hw.numbered
    · exact .unchanged
  | update r sandboxId ifMatch ids =>
    simp only [act]
    split
    · exact update_change hw.numbered
    · exact .unchanged
  | receive i source now =>
    simp only [act]
    split
    · split <;> exact .unchanged
    · exact .unchanged
  | write i ids failsAfter =>
    simp only [act]
    split
    · rename_i s now hwait
      split
      · rename_i outcome store hrun
        obtain ⟨v, hv, rfl⟩ := Txn.atomically_ok.1 hrun
        obtain ⟨hs, hnow⟩ := hw.waiting hwait
        exact (importWork_ok hv).change hs hw.numbered hnow
      · rename_i hrun
        rw [Txn.atomically_error hrun]
        exact .unchanged
    · exact .unchanged
  | read i answers =>
    simp only [act]
    split <;> exact .unchanged

theorem setImport_imports (w : World) (i j : Nat) (x : Option Import) :
    (w.setImport i x).imports j = if j = i then x else w.imports j := rfl

/-- Where an import stands after a part of an operation: where it stood, or at the end of the part that it
    has just finished. -/
theorem act_imports (a : Action) (w : World) (i : Nat) (x : Import)
    (h : (act y p a w).2.imports i = some x) :
    w.imports i = some x ∨
      (∃ source now s, x = .waiting s now ∧ submit y importInvalid source = .ok s ∧
        (act y p a w).2.clock = now) ∨
      ∃ ids failsAfter s now outcome store, a = .write i ids failsAfter ∧
        w.imports i = some (.waiting s now) ∧
        Txn.atomically failsAfter (importWork y s now ids) w.store = (.ok outcome, store) ∧
        x = .finished outcome ∧ (act y p a w).2.store = store := by
  cases a with
  | create r ids =>
    simp only [act] at h
    split at h <;> exact .inl h
  | update r sandboxId ifMatch ids =>
    simp only [act] at h
    split at h <;> exact .inl h
  | receive k source now =>
    simp only [act] at h ⊢
    split at h
    · rename_i hnow
      rw [if_pos hnow]
      split at h
      · exact .inl h
      · rename_i s hsubmit
        change (w.setImport k _).imports i = some x at h
        rw [setImport_imports] at h
        split at h
        · cases h
          exact .inr (.inl ⟨source, now, s, rfl, hsubmit, rfl⟩)
        · exact .inl h
    · exact .inl h
  | write k ids failsAfter =>
    simp only [act] at h ⊢
    split at h
    · rename_i s now hwait
      split at h
      · rename_i outcome store hrun
        change (w.setImport k _).imports i = some x at h
        rw [setImport_imports] at h
        split at h
        · rename_i hik
          cases h
          exact .inr (.inr ⟨ids, failsAfter, s, now, outcome, store, by rw [hik], hik ▸ hwait, hrun, rfl,
            rfl⟩)
        · exact .inl h
      · change (w.setImport k _).imports i = some x at h
        rw [setImport_imports] at h
        split at h
        · cases h
        · exact .inl h
    · exact .inl h
  | read k answers =>
    simp only [act] at h
    split at h
    · change (w.setImport k _).imports i = some x at h
      rw [setImport_imports] at h
      split at h
      · cases h
      · exact .inl h
    · exact .inl h

/-- The clock does not go backwards. -/
theorem act_clock (a : Action) (w : World) : w.clock ≤ (act y p a w).2.clock := by
  have htimely : ∀ {d : Draws}, w.timely d = true → w.clock ≤ d.now := by
    intro d hd
    obtain ⟨hreserved, hnow⟩ := of_decide_eq_true hd
    exact hreserved.trans hnow
  cases a with
  | create r ids =>
    simp only [act]
    split
    · rename_i hd
      exact htimely hd
    · exact Nat.le_refl _
  | update r sandboxId ifMatch ids =>
    simp only [act]
    split
    · rename_i hd
      exact htimely hd
    · exact Nat.le_refl _
  | receive i source now =>
    simp only [act]
    split
    · rename_i hnow
      split
      · exact Nat.le_refl _
      · exact hnow.1
    · exact Nat.le_refl _
  | write i ids failsAfter =>
    simp only [act]
    split
    · split <;> exact Nat.le_refl _
    · exact Nat.le_refl _
  | read i answers =>
    simp only [act]
    split <;> exact Nat.le_refl _

theorem WorldInv.act (hw : WorldInv y w) (a : Action) : WorldInv y (act y p a w).2 where
  numbered := (act_change hw).keeps hw.numbered
  dated := (act_change hw).dated fun hrow => (hw.dated hrow).trans (act_clock a w)
  waiting := by
    intro i s now h
    rcases act_imports a w i _ h with hold | ⟨source, _, _, heq, hsubmit, hclock⟩ |
      ⟨_, _, _, _, _, _, _, _, _, heq, _⟩
    · obtain ⟨hs, hnow⟩ := hw.waiting hold
      exact ⟨hs, hnow.trans (act_clock a w)⟩
    · cases heq
      exact ⟨(submit_ok hsubmit).2, Nat.le_of_eq hclock.symm⟩
    · cases heq
  finished := by
    intro i outcome h
    rcases act_imports a w i _ h with hold | ⟨_, _, _, heq, _⟩ | ⟨_, _, _, _, _, _, _, _, hrun, heq, hstore⟩
    · exact (act_change hw).found (hw.finished hold)
    · cases heq
    · cases heq
      obtain ⟨v, hv, rfl⟩ := Txn.atomically_ok.1 hrun
      rw [hstore]
      exact (importWork_ok hv).found

/-- The writers keep the invariant. -/
theorem worldInv_reachable (h : (profileMachine y p).Reachable (fun _ _ => True) w) : WorldInv y w := by
  refine Machine.invariant ?_ ?_ h
  · rintro w ⟨hcontent, -, hidle⟩
    refine ⟨hcontent ▸ numbered_empty, ?_, ?_, ?_⟩
    · intro id row hrow
      rw [hcontent] at hrow
      cases hrow
    · intro i s now hi
      rw [hidle] at hi
      cases hi
    · intro i outcome hi
      rw [hidle] at hi
      cases hi
  · intro a w _ _ hw
    exact hw.act a

theorem WorldInv.run (hw : WorldInv y w) (as : List Action) :
    WorldInv y ((profileMachine y p).run w as) := by
  induction as generalizing w with
  | nil => exact hw
  | cons a as ih => exact ih (hw.act a)

/-- No run loses or changes a revision. -/
theorem WorldInv.kept (hw : WorldInv y w) (as : List Action) {i : String} {r : RevisionRow}
    (hr : w.store.content.revisions.get? i = some r) :
    ((profileMachine y p).run w as).store.content.revisions.get? i = some r := by
  induction as generalizing w with
  | nil => exact hr
  | cons a as ih => exact ih (hw.act a) ((act_change hw).kept hr)

/-- A run leaves a profile its name and the date of its creation. -/
theorem WorldInv.identity (hw : WorldInv y w) (as : List Action) {id : String} {row : ProfileRow}
    (hrow : w.store.content.profiles.get? id = some row) :
    ∃ row', ((profileMachine y p).run w as).store.content.profiles.get? id = some row' ∧
      row'.profileName = row.profileName ∧ row'.createdAt = row.createdAt := by
  induction as generalizing w row with
  | nil => exact ⟨row, hrow, rfl, rfl⟩
  | cons a as ih =>
    obtain ⟨next, hnext, hname, hdate⟩ := (act_change (p := p) (a := a) hw).identity hrow
    obtain ⟨last, hlast, hname', hdate'⟩ := ih (hw.act a) hnext
    exact ⟨last, hlast, hname'.trans hname, hdate'.trans hdate⟩

/-! ### The history -/

theorem ImportChange.same {outcome : Imported} {id : String} {row : ProfileRow} {r : RevisionRow}
    (hn : Numbered y t) (h : ImportChange y s ids now t outcome t') (hrow : t.profiles.get? id = some row)
    (hname : row.profileName = s.metadata.profileName)
    (hr : t.revisions.get? row.currentRevisionId = some r)
    (hsource : r.sourceSha256 = s.accepted.sourceSha256) : t' = t := by
  cases h with
  | unchanged _ _ _ => rfl
  | appended hx hxname hxsource _ _ =>
    obtain rfl := hn.named hrow hx.profile (hname.trans hxname.symm)
    obtain rfl := Option.some.inj (hrow.symm.trans hx.profile)
    obtain rfl := Option.some.inj (hr.symm.trans hx.revision)
    exact absurd hsource hxsource
  | created h _ =>
    have hother := Table.any_eq_false_iff.1 h.unnamed id row hrow
    exact absurd hname (of_decide_eq_false hother)

/-- A source that differs from others in its description. -/
def sampleSource (description : String) : String :=
  "apiVersion: hermesops.dev/v1\nkind: SandboxProfile\nmetadata:\n  name: dev\n  description: " ++
    description ++ "\nspec:\n  base:\n    image: debian\n    digest: sha256:" ++
    "0123456789abcdef0123456789abcdef0123456789abcdef0123456789abcdef\n" ++
    "  build:\n    apt:\n      packages: [make]\n" ++
    "  workspace:\n    user: dev\n    group: dev\n    directory: /work\n    sourceMode: clone\n" ++
    "  runtime:\n    cpu: 1\n    memory: 1GiB\n    pids: 64\n    timeout: 1h\n    stopGracePeriod: 10s\n" ++
    "  network:\n    build:\n      mode: none\n      allow: []\n" ++
    "    runtime:\n      mode: none\n      allow: []\n" ++
    "  security:\n    privileged: false\n    noNewPrivileges: true\n    readOnlyRoot: true\n" ++
    "    capabilities:\n      drop: [ALL]\n      add: []\n" ++
    "    seccompProfile: default\n    secrets: false\n" ++
    "    allowDockerSocket: false\n    allowDeviceAccess: false\n" ++
    "  validation:\n    commands:\n    - name: test\n      run: [make, test]\n      timeout: 10m\n" ++
    "      expectExitCode: 0\n"

def textNode (s : String) : YamlNode := .scalar (.str s)

def objectNode (l : List (String × YamlNode)) : YamlNode := .map (l.map fun x => (textNode x.1, x.2))

/-- What the library composes of the source. -/
def sampleNode (description : String) : YamlNode :=
  let access := objectNode [("mode", textNode "none"), ("allow", .seq [])]
  objectNode [
    ("apiVersion", textNode "hermesops.dev/v1"),
    ("kind", textNode "SandboxProfile"),
    ("metadata", objectNode [("name", textNode "dev"), ("description", textNode description)]),
    ("spec", objectNode [
      ("base", objectNode [
        ("image", textNode "debian"),
        ("digest", textNode "sha256:0123456789abcdef0123456789abcdef0123456789abcdef0123456789abcdef")]),
      ("build", objectNode [("apt", objectNode [("packages", .seq [textNode "make"])])]),
      ("workspace", objectNode [
        ("user", textNode "dev"), ("group", textNode "dev"), ("directory", textNode "/work"),
        ("sourceMode", textNode "clone")]),
      ("runtime", objectNode [
        ("cpu", .scalar (.int 1)), ("memory", textNode "1GiB"), ("pids", .scalar (.int 64)),
        ("timeout", textNode "1h"), ("stopGracePeriod", textNode "10s")]),
      ("network", objectNode [("build", access), ("runtime", access)]),
      ("security", objectNode [
        ("privileged", .scalar (.bool false)), ("noNewPrivileges", .scalar (.bool true)),
        ("readOnlyRoot", .scalar (.bool true)),
        ("capabilities", objectNode [("drop", .seq [textNode "ALL"]), ("add", .seq [])]),
        ("seccompProfile", textNode "default"), ("secrets", .scalar (.bool false)),
        ("allowDockerSocket", .scalar (.bool false)), ("allowDeviceAccess", .scalar (.bool false))]),
      ("validation", objectNode [("commands", .seq [objectNode [
        ("name", textNode "test"), ("run", .seq [textNode "make", textNode "test"]),
        ("timeout", textNode "10m"), ("expectExitCode", .scalar (.int 0))]])])])]

def plainSource : String := sampleSource "A sandbox"

/-- The loader reads a password where the text has an escape. -/
def escapedSource : String := sampleSource "\"pass\\x77ord: hunter2\""

/-- The libraries on the two sources; the digests are told apart by the lengths of their texts. -/
def sampleReader : Reader where
  lib := ⟨fun c => c.isAlphanum, fun _ => false⟩
  compose := fun text =>
    if text = plainSource then some [sampleNode "A sandbox"]
    else if text = escapedSource then some [sampleNode "password: hunter2"]
    else none
  floatRepr := fun _ => ""
  sha256 := fun text =>
    match text.length with
    | 883 => "9dd1c84665dac3f4f731337bf64981a0e8b00775a6315fdcadae336da19c3543"
    | 896 => "b1a2297f99a2e0e4bd4d1e940d208b2d34c68a441ff101ac52b7757cc05de185"
    | 905 => "f932e95047194a44e04ccb3c96abbc8d187adfec716c86eddeab6905af5542b6"
    | _ => "83195da91691c232fd25c4a94cc49f5fc396d617b11a238e2724dc81280b2002"

def sampleIds : Ids := ⟨"0123456789abcdef0123456789abcdef", "fedcba9876543210fedcba9876543210"⟩

/-- No command of the run takes one of these hashes. -/
def sampleHashing : Hashing where
  rules := ⟨fun _ => false, fun _ => false, fun _ => true, fun _ => true⟩
  sha256 := sampleReader.sha256
  hmac _ m := sampleReader.sha256 m
  timeText _ := "2026-01-01T00:00:00.000Z"

/-- An import takes its time, and a later one of the same profile is stored before it. -/
def sampleRun : List Action :=
  [.receive 0 plainSource 5, .receive 1 escapedSource 7, .write 1 sampleIds none]

def emptyWorld : World := ⟨⟨.empty, .empty⟩, 0, fun _ => none⟩

def sampleWorld : World := (profileMachine sampleReader sampleHashing).run emptyWorld sampleRun

theorem sampleWorld_reachable :
    (profileMachine sampleReader sampleHashing).Reachable (fun _ _ => True) sampleWorld :=
  Machine.Reachable.run (.start ⟨rfl, rfl, fun _ => rfl⟩) ⟨trivial, trivial, trivial, trivial⟩

end HermesOps.Profiles
