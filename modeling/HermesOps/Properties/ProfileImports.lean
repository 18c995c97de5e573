import HermesOps.Properties.ProfileRevisions

/-! When an import is admitted. `import_source` reads its time before it asks for the write lock, and a
    profile is never updated before it was created. So an import that waits while the profile is created
    with another source is refused, and no other writer can refuse it. -/

namespace HermesOps.Profiles

open Schemes Controller.Commands Hermesfile
open Controller (Json Keys)

variable {y : Reader} {p : Hashing} {s : Submission} {ids : Ids} {now : Time} {t t' : Tables}

/-! ### Transactions that nothing fails -/

theorem run_writeTables {f : Tables → Option Tables} {u : Ledger Tables} (h : f u.content = some t) :
    writeTables f ⟨u, none⟩ = (.ok (), ⟨{ u with content := t }, none⟩) :=
  run_execute (by rw [h]; rfl)

theorem run_commit {u : Ledger Tables} (h : u.content.consistent = true) :
    commit ⟨u, none⟩ = (.ok (), ⟨u, none⟩) :=
  run_execute (by rw [if_pos h])

theorem Numbered.consistent (hn : Numbered y t) : t.consistent = true := by
  refine decide_eq_true ⟨List.all_eq_true.2 ?_, List.all_eq_true.2 ?_⟩
  · rintro ⟨id, row⟩ hrow
    obtain ⟨s, now, hcurrent⟩ := hn.current (Table.mem_rows_iff.1 hrow)
    rw [Tables.isCurrent, hcurrent.revision]
    simp [Submission.revisionRow]
  · rintro ⟨i, r⟩ hr
    obtain ⟨hlow, hhigh⟩ := hn.bounded (Table.mem_rows_iff.1 hr)
    rw [Tables.number] at hhigh
    cases hrow : t.profiles.get? r.sandboxId with
    | some row => rfl
    | none =>
      rw [hrow] at hhigh
      exact absurd (hlow.trans hhigh) (Nat.not_succ_le_zero 0)

/-- The identifiers are new, and the columns have room for the source. -/
structure Storable (y : Reader) (s : Submission) (ids : Ids) (now : Time) (t : Tables) : Prop where
  sandboxId : t.profiles.get? ids.sandboxId = none
  revisionId : t.revisions.get? ids.revisionId = none
  profile : (s.profileRow ids.revisionId now).check y ids.sandboxId = true
  revision : (s.revisionRow ids.sandboxId 1 now).check y ids.revisionId = true

/-- The columns of any further revision have room as well. -/
theorem Storable.anyRevision (h : Storable y s ids now t) (id : String) {n : Nat} (hn : 1 ≤ n) :
    (s.revisionRow id n now).check y ids.revisionId = true := by
  have hrevision := of_decide_eq_true h.revision
  exact decide_eq_true ⟨hrevision.1, hn, hrevision.2.2⟩

/-- An update of a profile keeps its checks when it is not dated before the creation. -/
theorem Storable.nextRow_check (h : Storable y s ids now t) {id : String} {row : ProfileRow}
    (hrow : row.check y id = true) (hdate : row.createdAt ≤ now) :
    (s.nextRow ids now row).check y id = true := by
  have hold := of_decide_eq_true hrow
  have hnew := of_decide_eq_true h.profile
  exact decide_eq_true ⟨hold.1, hold.2.1, hnew.2.2.1, hnew.2.2.2.1, hnew.2.2.2.2.1, hnew.2.2.2.2.2.1,
    hold.2.2.2.2.2.2.1, Nat.le_add_left 1 _, hold.2.2.2.2.2.2.2.2.1, Nat.le_add_left 1 _, hdate⟩

theorem insertProfile_some {id : String} {row : ProfileRow} (hcheck : row.check y id = true)
    (hname : ∀ j a, t.profiles.get? j = some a → a.profileName ≠ row.profileName)
    (hfresh : t.profiles.get? id = none) :
    ∃ profiles, t.profiles.insert id row = some profiles ∧
      t.insertProfile y id row = some { t with profiles } := by
  obtain ⟨profiles, hinsert⟩ := Table.insert_of_get?_eq_none hfresh row
  refine ⟨profiles, hinsert, ?_⟩
  have hany : t.profiles.any (fun _ a => a.profileName = row.profileName) = false :=
    Table.any_eq_false_iff.2 fun j a ha => decide_eq_false (hname j a ha)
  rw [Tables.insertProfile, if_pos ⟨hcheck, by rw [hany]; exact Bool.false_ne_true⟩, hinsert]
  rfl

theorem insertRevision_some {i : String} {r : RevisionRow} (hcheck : r.check y i = true)
    (hnumber : ∀ j a, t.revisions.get? j = some a → ¬(a.sandboxId = r.sandboxId ∧
      a.sourceRevision = r.sourceRevision)) (hfresh : t.revisions.get? i = none) :
    ∃ revisions, t.revisions.insert i r = some revisions ∧
      t.insertRevision y i r = some { t with revisions } := by
  obtain ⟨revisions, hinsert⟩ := Table.insert_of_get?_eq_none hfresh r
  refine ⟨revisions, hinsert, ?_⟩
  have hany : t.revisions.any (fun _ a => a.sandboxId = r.sandboxId ∧
      a.sourceRevision = r.sourceRevision) = false :=
    Table.any_eq_false_iff.2 fun j a ha => decide_eq_false (hnumber j a ha)
  rw [Tables.insertRevision, if_pos ⟨hcheck, by rw [hany]; exact Bool.false_ne_true⟩, hinsert]
  rfl

/-- The next revision of a profile. -/
theorem appendRevision_run (hn : Numbered y t) (h : Storable y s ids now t) {u : Ledger Tables}
    (hu : u.content = t) {id : String} {row : ProfileRow} (hrow : t.profiles.get? id = some row)
    (hdate : row.createdAt ≤ now) :
    ∃ t', appendRevision y s ids now id row ⟨u, none⟩ = (.ok (), ⟨{ u with content := t' }, none⟩) ∧
      Appended y s ids now id row t t' := by
  subst hu
  obtain ⟨revisions, hinsert, hrevision⟩ := insertRevision_some (t := u.content)
    (r := s.revisionRow id (row.currentSourceRevision + 1) now)
    (h.anyRevision id (Nat.le_add_left 1 _)) (by
      rintro j a ha ⟨howner, hnumber⟩
      obtain ⟨-, hle⟩ := hn.bounded ha
      rw [howner, hnumber, Tables.number] at hle
      rw [show u.content.profiles.get? (s.revisionRow id (row.currentSourceRevision + 1) now).sandboxId =
        some row
        from hrow] at hle
      exact Nat.not_succ_le_self _ hle) h.revisionId
  have hcurrent : ids.revisionId ≠ row.currentRevisionId := by
    intro heq
    obtain ⟨s', now', hcurrent⟩ := hn.current hrow
    have hrevision := hcurrent.revision
    rw [← heq, h.revisionId] at hrevision
    cases hrevision
  have hcheck := h.nextRow_check (hn.checked hrow) hdate
  have hprofile : ({ u.content with revisions } : Tables).updateProfile y id
      (s.updatedRow ids.revisionId (row.currentSourceRevision + 1) (row.resourceRevision + 1) now) =
      some ⟨u.content.profiles.updateAt id
        (s.updatedRow ids.revisionId (row.currentSourceRevision + 1) (row.resourceRevision + 1) now),
          revisions⟩ := by
    unfold Tables.updateProfile
    rw [show ({ u.content with revisions } : Tables).profiles.get? id = some row from hrow]
    exact if_pos ⟨decide_eq_true ⟨rfl, rfl, hcurrent⟩, hcheck⟩
  refine ⟨⟨_, revisions⟩, ?_, hrow, hcurrent, ?_, hcheck, h.anyRevision id (Nat.le_add_left 1 _), rfl,
    hinsert⟩
  · unfold appendRevision
    rw [Txn.run_bind_of_ok (run_writeTables hrevision)]
    exact run_writeTables hprofile
  · refine Table.any_eq_false_iff.2 fun j a ha => decide_eq_false ?_
    rintro ⟨howner, hnumber⟩
    obtain ⟨-, hle⟩ := hn.bounded ha
    rw [howner, hnumber, Tables.number, hrow] at hle
    exact Nat.not_succ_le_self _ hle

/-- The first revision of a new profile. -/
theorem insertNew_run (hn : Numbered y t) (h : Storable y s ids now t) {u : Ledger Tables}
    (hu : u.content = t)
    (hname : ∀ {id : String} {row : ProfileRow}, t.profiles.get? id = some row →
      row.profileName ≠ s.metadata.profileName) :
    ∃ t', insertNew y s ids now ⟨u, none⟩ = (.ok (), ⟨{ u with content := t' }, none⟩) ∧
      Created y s ids now t t' := by
  subst hu
  obtain ⟨profiles, hprofiles, hprofile⟩ :=
    insertProfile_some h.profile (fun _ _ ha => hname ha) h.sandboxId
  obtain ⟨revisions, hinsert, hrevision⟩ := insertRevision_some (t := { u.content with profiles })
    (r := s.revisionRow ids.sandboxId 1 now) h.revision (by
      rintro j a ha ⟨howner, -⟩
      obtain ⟨hlow, hhigh⟩ := hn.bounded ha
      rw [howner, Tables.number] at hhigh
      rw [show u.content.profiles.get? (s.revisionRow ids.sandboxId 1 now).sandboxId = none
        from h.sandboxId] at hhigh
      exact absurd (hlow.trans hhigh) (Nat.not_succ_le_zero 0)) h.revisionId
  refine ⟨⟨profiles, revisions⟩, ?_, ?_, h.profile, h.revision, hprofiles, hinsert⟩
  · unfold insertNew
    rw [Txn.run_bind_of_ok (run_writeTables hprofile)]
    exact run_writeTables hrevision
  · exact Table.any_eq_false_iff.2 fun id row hrow => decide_eq_false (hname hrow)

/-! ### The transaction of an import -/

/-- The profile of this name has the source already, or was not created after the import took its time. -/
def InTime (s : Submission) (now : Time) (t : Tables) : Prop :=
  ∀ id row, t.profiles.get? id = some row → row.profileName = s.metadata.profileName →
    (∃ r, t.revisions.get? row.currentRevisionId = some r ∧ r.sourceSha256 = s.accepted.sourceSha256) ∨
      row.createdAt ≤ now

/-- A profile is joined with its current revision. -/
theorem Numbered.isRow (hn : Numbered y t) {id : String} {row : ProfileRow}
    (hrow : t.profiles.get? id = some row) : ∃ x, IsRow t x ∧ x.sandboxId = id ∧ x.profile = row := by
  obtain ⟨s, now, hcurrent⟩ := hn.current hrow
  exact ⟨⟨id, row, _⟩, ⟨hrow, hcurrent.revision, rfl⟩, rfl, rfl⟩

theorem importWork_run (hs : Submitted y s) (hn : Numbered y t) (h : Storable y s ids now t)
    (htime : InTime s now t) {u : Ledger Tables} (hu : u.content = t) :
    ∃ outcome w', importWork y s now ids ⟨u, none⟩ = (.ok outcome, w') := by
  unfold importWork
  rw [Txn.run_bind_of_ok run_query]
  cases hfound : (u.content.joined fun _ r => r.profileName = s.metadata.profileName).head? with
  | none =>
    have hname : ∀ {id : String} {row : ProfileRow}, t.profiles.get? id = some row →
        row.profileName ≠ s.metadata.profileName := by
      intro id row hrow hname
      obtain ⟨x, hx, -, rfl⟩ := hn.isRow hrow
      have hmem : x ∈ u.content.joined fun _ r => r.profileName = s.metadata.profileName :=
        mem_joined.2 ⟨hu ▸ hx, decide_eq_true hname⟩
      rw [List.head?_eq_none_iff.1 hfound] at hmem
      cases hmem
    obtain ⟨t', hrun, hcreated⟩ := insertNew_run hn h hu hname
    have hconsistent := ((hcreated.grown hs).keeps hn).consistent
    dsimp only
    rw [Txn.run_bind_of_ok hrun, Txn.run_bind_of_ok (run_commit hconsistent)]
    exact ⟨_, _, rfl⟩
  | some x =>
    obtain ⟨hx, hname⟩ := mem_joined.1 (List.mem_of_head? hfound)
    have hname := of_decide_eq_true hname
    rw [hu] at hx
    dsimp only
    by_cases hsource : x.revision.sourceSha256 = s.accepted.sourceSha256
    · rw [if_pos hsource]
      exact ⟨_, _, rfl⟩
    · have hdate : x.profile.createdAt ≤ now := by
        rcases htime _ _ hx.profile hname with ⟨r, hr, hsame⟩ | hdate
        · obtain rfl := Option.some.inj (hr.symm.trans hx.revision)
          exact absurd hsame hsource
        · exact hdate
      obtain ⟨t', hrun, happended⟩ := appendRevision_run hn h hu hx.profile hdate
      have hconsistent := ((happended.grown hs hx hname hsource hn).keeps hn).consistent
      rw [if_neg hsource, Txn.run_bind_of_ok hrun, Txn.run_bind_of_ok (run_commit hconsistent)]
      exact ⟨_, _, rfl⟩

/-- What the transaction did was in time. -/
theorem ImportChange.inTime {outcome : Imported} (hn : Numbered y t)
    (h : ImportChange y s ids now t outcome t') : InTime s now t := by
  intro id row hrow hname
  cases h with
  | unchanged hx hxname hsource =>
    obtain rfl := hn.named hrow hx.profile (hname.trans hxname.symm)
    obtain rfl := Option.some.inj (hrow.symm.trans hx.profile)
    exact .inl ⟨_, hx.revision, hsource⟩
  | appended hx hxname _ h _ =>
    obtain rfl := hn.named hrow hx.profile (hname.trans hxname.symm)
    obtain rfl := Option.some.inj (hrow.symm.trans hx.profile)
    have hcheck := of_decide_eq_true h.profileCheck
    exact .inr hcheck.2.2.2.2.2.2.2.2.2.2
  | created h _ =>
    have hother := Table.any_eq_false_iff.1 h.unnamed id row hrow
    exact absurd hname (of_decide_eq_false hother)

/-! ### Imports among the other writers -/

variable {w : World} {i : Nat}

/-- The import has done its transaction and has only to read the profile back. -/
def World.Admitted (w : World) (i : Nat) : Prop := ∃ outcome, w.imports i = some (.finished outcome)

theorem WorldInv.admitted_iff (hw : WorldInv y w) (hwait : w.imports i = some (.waiting s now))
    (h : Storable y s ids now w.store.content) :
    (Profiles.act y p (.write i ids none) w).2.Admitted i ↔ InTime s now w.store.content := by
  have hs := (hw.waiting hwait).1
  constructor
  · rintro ⟨outcome, hfinished⟩
    rcases act_imports _ w i _ hfinished with hold | ⟨_, _, _, heq, -⟩ |
      ⟨ids', _, s', now', outcome', store, haction, hwait', hrun, -, -⟩
    · rw [hwait] at hold
      cases hold
    · cases heq
    · cases haction
      obtain ⟨rfl, rfl⟩ : s = s' ∧ now = now' := by
        rw [hwait] at hwait'
        cases hwait'
        exact ⟨rfl, rfl⟩
      obtain ⟨v, hv, -⟩ := Txn.atomically_ok.1 hrun
      exact (importWork_ok hv).inTime hw.numbered
  · intro htime
    obtain ⟨outcome, w', hrun⟩ := importWork_run hs hw.numbered h htime (u := w.store) rfl
    have hdone : Txn.atomically none (importWork y s now ids) w.store = (.ok outcome, w'.state) :=
      Txn.atomically_ok.2 ⟨w', hrun, rfl⟩
    refine ⟨outcome, ?_⟩
    simp only [Profiles.act, hwait, hdone]
    exact if_pos rfl

/-- A storable import is admitted exactly when it is in time; and it is in time whatever the other writers
    do while it waits, when its profile was there as it took its time or is still not there. -/
theorem import_admitted_iff (h : (profileMachine y p).Reachable (fun _ _ => True) w) :
    (∀ i s now ids, w.imports i = some (.waiting s now) → Storable y s ids now w.store.content →
      ((act y p (.write i ids none) w).2.Admitted i ↔ InTime s now w.store.content)) ∧
    ∀ (now : Time) (name : String), w.clock ≤ now →
      (∃ id row, w.store.content.profiles.get? id = some row ∧ row.profileName = name) →
      ∀ as s, s.metadata.profileName = name →
        InTime s now ((profileMachine y p).run w as).store.content := by
  have hw : WorldInv y w := worldInv_reachable h
  refine ⟨fun i s now ids hwait hst => hw.admitted_iff hwait hst, ?_⟩
  rintro now name hnow ⟨id, row, hrow, rfl⟩ as s hs id' row' hrow' hname'
  obtain ⟨last, hlast, hname, hdate⟩ := hw.identity (p := p) as hrow
  obtain rfl := (hw.run as).numbered.named hrow' hlast (by rw [hname', hs, hname])
  obtain rfl := Option.some.inj (hrow'.symm.trans hlast)
  right
  rw [hdate]
  exact (hw.dated hrow).trans hnow

theorem sampleWorld_admitted :
    (∀ i s now ids, sampleWorld.imports i = some (.waiting s now) →
      Storable sampleReader s ids now sampleWorld.store.content →
      ((act sampleReader sampleHashing (.write i ids none) sampleWorld).2.Admitted i ↔
        InTime s now sampleWorld.store.content)) ∧
    ∀ (now : Time) (name : String), sampleWorld.clock ≤ now →
      (∃ id row, sampleWorld.store.content.profiles.get? id = some row ∧ row.profileName = name) →
      ∀ as s, s.metadata.profileName = name →
        InTime s now ((profileMachine sampleReader sampleHashing).run sampleWorld as).store.content :=
  import_admitted_iff sampleWorld_reachable

end HermesOps.Profiles
