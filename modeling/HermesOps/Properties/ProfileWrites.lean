import HermesOps.Hermesfile.Profiles

/-! What the three writers do to the tables of profiles. A transaction that commits has either left the
    tables alone or made one change: a new profile with its first revision, or the next revision of a
    profile with its columns. The invariant on the numbers of revisions is kept by both changes. -/

namespace HermesOps.Profiles

open Schemes Controller.Commands Hermesfile
open Controller (Json Keys)

variable {y : Reader} {p : Hashing} {s : Submission} {ids : Ids} {now : Time} {t t' : Tables}

/-! ### The joins -/

/-- The profile stands in the table with its current revision. -/
structure IsRow (t : Tables) (x : CurrentRow) : Prop where
  profile : t.profiles.get? x.sandboxId = some x.profile
  revision : t.revisions.get? x.profile.currentRevisionId = some x.revision
  owner : x.revision.sandboxId = x.sandboxId

theorem mem_joined {test : String → ProfileRow → Bool} {x : CurrentRow} :
    x ∈ t.joined test ↔ IsRow t x ∧ test x.sandboxId x.profile = true := by
  unfold Tables.joined
  rw [List.mem_filterMap]
  constructor
  · rintro ⟨⟨id, row⟩, hrow, h⟩
    obtain ⟨hrow, htest⟩ := Table.mem_select.1 hrow
    obtain ⟨rev, hrev, h⟩ := Option.bind_eq_some_iff.1 h
    split at h
    · rename_i howner
      obtain rfl := Option.some.inj h
      exact ⟨⟨hrow, hrev, howner⟩, htest⟩
    · cases h
  · rintro ⟨⟨hrow, hrev, howner⟩, htest⟩
    refine ⟨(x.sandboxId, x.profile), Table.mem_select.2 ⟨hrow, htest⟩, ?_⟩
    rw [hrev, Option.bind_some, if_pos howner]

theorem mem_selectCurrent {test : String → ProfileRow → Bool} {x : CurrentRow} :
    x ∈ t.selectCurrent test ↔ IsRow t x ∧ test x.sandboxId x.profile = true ∧
      x.revision.sourceRevision = x.profile.currentSourceRevision := by
  rw [Tables.selectCurrent, List.mem_filter, mem_joined, decide_eq_true_eq, and_assoc]

/-! ### Changes -/

/-- A new profile and its first revision. -/
structure Created (y : Reader) (s : Submission) (ids : Ids) (now : Time) (t t' : Tables) : Prop where
  unnamed : t.profiles.any (fun _ r => r.profileName = s.metadata.profileName) = false
  profileCheck : (s.profileRow ids.revisionId now).check y ids.sandboxId = true
  revisionCheck : (s.revisionRow ids.sandboxId 1 now).check y ids.revisionId = true
  profiles : t.profiles.insert ids.sandboxId (s.profileRow ids.revisionId now) = some t'.profiles
  revisions : t.revisions.insert ids.revisionId (s.revisionRow ids.sandboxId 1 now) = some t'.revisions

/-- The columns of a profile that takes the source as its next revision. -/
def Submission.nextRow (s : Submission) (ids : Ids) (now : Time) (row : ProfileRow) : ProfileRow :=
  s.updatedRow ids.revisionId (row.currentSourceRevision + 1) (row.resourceRevision + 1) now row

/-- The next revision of a profile. -/
structure Appended (y : Reader) (s : Submission) (ids : Ids) (now : Time) (sandboxId : String)
    (row : ProfileRow) (t t' : Tables) : Prop where
  found : t.profiles.get? sandboxId = some row
  renamed : ids.revisionId ≠ row.currentRevisionId
  unnumbered : t.revisions.any (fun _ r => r.sandboxId = sandboxId ∧
    r.sourceRevision = row.currentSourceRevision + 1) = false
  profileCheck : (s.nextRow ids now row).check y sandboxId = true
  revisionCheck :
    (s.revisionRow sandboxId (row.currentSourceRevision + 1) now).check y ids.revisionId = true
  profiles : t'.profiles = t.profiles.updateAt sandboxId
    (s.updatedRow ids.revisionId (row.currentSourceRevision + 1) (row.resourceRevision + 1) now)
  revisions : t.revisions.insert ids.revisionId
    (s.revisionRow sandboxId (row.currentSourceRevision + 1) now) = some t'.revisions

variable {w w' : Work (Ledger Tables)}

theorem writeTables_ok {f : Tables → Option Tables} {u : Unit} (h : writeTables f w = (.ok u, w')) :
    f w.state.content = some w'.state.content ∧ w'.state.records = w.state.records := by
  obtain ⟨content, hcontent, heq⟩ := Option.map_eq_some_iff.1 (execute_ok h)
  rw [← heq]
  exact ⟨hcontent, rfl⟩

theorem commit_ok {u : Unit} (h : commit w = (.ok u, w')) :
    w.state.content.consistent = true ∧ w'.state = w.state := by
  have hs := execute_ok h
  split at hs
  · rename_i hconsistent
    exact ⟨hconsistent, (Option.some.inj hs).symm⟩
  · cases hs

theorem insertProfile_ok {sandboxId : String} {row : ProfileRow}
    (h : t.insertProfile y sandboxId row = some t') :
    row.check y sandboxId = true ∧ t.profiles.any (fun _ r => r.profileName = row.profileName) = false ∧
      t.profiles.insert sandboxId row = some t'.profiles ∧ t'.revisions = t.revisions := by
  unfold Tables.insertProfile at h
  split at h
  · rename_i hcheck
    obtain ⟨profiles, hprofiles, rfl⟩ := Option.map_eq_some_iff.1 h
    exact ⟨hcheck.1, by simpa using hcheck.2, hprofiles, rfl⟩
  · cases h

theorem insertRevision_ok {revisionId : String} {row : RevisionRow}
    (h : t.insertRevision y revisionId row = some t') :
    row.check y revisionId = true ∧ t.revisions.any (fun _ r => r.sandboxId = row.sandboxId ∧
        r.sourceRevision = row.sourceRevision) = false ∧
      t.revisions.insert revisionId row = some t'.revisions ∧ t'.profiles = t.profiles := by
  unfold Tables.insertRevision at h
  split at h
  · rename_i hcheck
    obtain ⟨revisions, hrevisions, rfl⟩ := Option.map_eq_some_iff.1 h
    exact ⟨hcheck.1, by simpa using hcheck.2, hrevisions, rfl⟩
  · cases h

theorem insertNew_ok {u : Unit} (h : insertNew y s ids now w = (.ok u, w')) :
    Created y s ids now w.state.content w'.state.content := by
  obtain ⟨_, w₁, hprofile, h⟩ := Txn.bind_ok.1 h
  obtain ⟨hprofile, -⟩ := writeTables_ok hprofile
  obtain ⟨hrevision, -⟩ := writeTables_ok h
  obtain ⟨hcheck, hunnamed, hprofiles, hsame⟩ := insertProfile_ok hprofile
  obtain ⟨hcheck', -, hrevisions, hsame'⟩ := insertRevision_ok hrevision
  rw [hsame] at hrevisions
  rw [← hsame'] at hprofiles
  exact ⟨hunnamed, hcheck, hcheck', hprofiles, hrevisions⟩

theorem appendRevision_ok {sandboxId : String} {row : ProfileRow} {u : Unit}
    (hfound : w.state.content.profiles.get? sandboxId = some row)
    (h : appendRevision y s ids now sandboxId row w = (.ok u, w')) :
    Appended y s ids now sandboxId row w.state.content w'.state.content := by
  obtain ⟨_, w₁, hrevision, h⟩ := Txn.bind_ok.1 h
  obtain ⟨hrevision, -⟩ := writeTables_ok hrevision
  obtain ⟨hprofile, -⟩ := writeTables_ok h
  obtain ⟨hcheck, hunnumbered, hrevisions, hsame⟩ := insertRevision_ok hrevision
  unfold Tables.updateProfile at hprofile
  rw [hsame, hfound] at hprofile
  dsimp only at hprofile
  split at hprofile
  · rename_i hallowed
    obtain ⟨htriggers, hrow⟩ := hallowed
    have hcontent := Option.some.inj hprofile
    refine ⟨hfound, ?_, hunnumbered, hrow, hcheck, by rw [← hcontent], by rw [← hcontent]; exact hrevisions⟩
    simp only [triggersAllow, decide_eq_true_eq] at htriggers
    exact htriggers.2.2
  · cases hprofile

/-! ### The three works -/

theorem createWork_ok {d : Draws} {keys : Keys} {a : Json × String}
    (h : createWork y p s ids d keys w = (.ok a, w')) :
    Created y s ids d.now w.state.content w'.state.content := by
  obtain ⟨taken, w₁, hquery, h⟩ := Txn.bind_ok.1 h
  obtain ⟨-, hstate⟩ := query_ok hquery
  cases taken with
  | true => exact absurd h Txn.raise_ok
  | false =>
    obtain ⟨_, w₂, hnew, h⟩ := Txn.bind_ok.1 h
    have hcreated := insertNew_ok hnew
    rw [hstate] at hcreated
    rwa [content_conclude w₂ a w' h]

/-- The profile that an update found. -/
theorem profileRow_ok {sandboxId : String} {x : CurrentRow}
    (h : profileRow sandboxId w = (.ok x, w')) :
    IsRow w.state.content x ∧ x.sandboxId = sandboxId ∧ w'.state = w.state := by
  unfold profileRow at h
  split at h
  · obtain ⟨found, w₁, hquery, h⟩ := Txn.bind_ok.1 h
    obtain ⟨hfound, hstate⟩ := query_ok hquery
    cases found with
    | none => exact absurd h Txn.raise_ok
    | some row =>
      obtain ⟨rfl, rfl⟩ := Txn.pure_ok.1 h
      obtain ⟨hrow, hid, -⟩ := mem_selectCurrent.1 (List.mem_of_head? hfound.symm)
      exact ⟨hrow, of_decide_eq_true hid, hstate⟩
  · exact absurd h Txn.raise_ok

theorem updateWork_ok {sandboxId : String} {expected : Nat} {d : Draws} {keys : Keys} {a : Json × String}
    (h : updateWork y p s sandboxId expected ids d keys w = (.ok a, w')) :
    ∃ x, IsRow w.state.content x ∧ x.sandboxId = sandboxId ∧ x.profile.resourceRevision = expected ∧
      x.profile.profileName = s.metadata.profileName ∧
      x.revision.sourceSha256 ≠ s.accepted.sourceSha256 ∧
      Appended y s ids d.now sandboxId x.profile w.state.content w'.state.content := by
  obtain ⟨x, w₁, hrow, h⟩ := Txn.bind_ok.1 h
  obtain ⟨hisRow, rfl, hstate⟩ := profileRow_ok hrow
  split at h
  · exact absurd h Txn.raise_ok
  rename_i hexpected
  split at h
  · exact absurd h Txn.raise_ok
  split at h
  · exact absurd h Txn.raise_ok
  rename_i hname
  split at h
  · exact absurd h Txn.raise_ok
  rename_i hsource
  obtain ⟨_, w₂, happend, h⟩ := Txn.bind_ok.1 h
  have hprofile := hisRow.profile
  rw [← hstate] at hprofile
  have happended := appendRevision_ok hprofile happend
  rw [hstate, ← content_conclude w₂ a w' h] at happended
  exact ⟨x, hisRow, rfl, not_not.1 hexpected, (not_not.1 hname).symm, hsource, happended⟩

/-- What the transaction of an import did, by its outcome. -/
inductive ImportChange (y : Reader) (s : Submission) (ids : Ids) (now : Time) (t : Tables) :
    Imported → Tables → Prop
  | unchanged {x : CurrentRow} : IsRow t x → x.profile.profileName = s.metadata.profileName →
      x.revision.sourceSha256 = s.accepted.sourceSha256 →
      ImportChange y s ids now t (.unchanged x.sandboxId) t
  | appended {x : CurrentRow} {t' : Tables} : IsRow t x →
      x.profile.profileName = s.metadata.profileName →
      x.revision.sourceSha256 ≠ s.accepted.sourceSha256 →
      Appended y s ids now x.sandboxId x.profile t t' → t'.consistent = true →
      ImportChange y s ids now t (.stored x.sandboxId false) t'
  | created {t' : Tables} : Created y s ids now t t' → t'.consistent = true →
      ImportChange y s ids now t (.stored ids.sandboxId true) t'

theorem importWork_ok {outcome : Imported} (h : importWork y s now ids w = (.ok outcome, w')) :
    ImportChange y s ids now w.state.content outcome w'.state.content := by
  obtain ⟨found, w₁, hquery, h⟩ := Txn.bind_ok.1 h
  obtain ⟨hfound, hstate⟩ := query_ok hquery
  cases found with
  | some x =>
    obtain ⟨hrow, hname⟩ := mem_joined.1 (List.mem_of_head? hfound.symm)
    have hname := of_decide_eq_true hname
    dsimp only at h
    split at h
    · rename_i hsame
      obtain ⟨rfl, rfl⟩ := Txn.pure_ok.1 h
      rw [hstate]
      exact .unchanged hrow hname hsame
    · rename_i hsource
      obtain ⟨_, w₂, happend, h⟩ := Txn.bind_ok.1 h
      obtain ⟨_, w₃, hcommit, h⟩ := Txn.bind_ok.1 h
      obtain ⟨rfl, rfl⟩ := Txn.pure_ok.1 h
      obtain ⟨hconsistent, hstate'⟩ := commit_ok hcommit
      have hprofile := hrow.profile
      rw [← hstate] at hprofile
      have happended := appendRevision_ok hprofile happend
      rw [hstate, ← hstate'] at happended
      rw [← hstate'] at hconsistent
      exact .appended hrow hname hsource happended hconsistent
  | none =>
    obtain ⟨_, w₂, hnew, h⟩ := Txn.bind_ok.1 h
    obtain ⟨_, w₃, hcommit, h⟩ := Txn.bind_ok.1 h
    obtain ⟨rfl, rfl⟩ := Txn.pure_ok.1 h
    obtain ⟨hconsistent, hstate'⟩ := commit_ok hcommit
    have hcreated := insertNew_ok hnew
    rw [hstate, ← hstate'] at hcreated
    rw [← hstate'] at hconsistent
    exact .created hcreated hconsistent

/-! ### The transactions -/

variable {r : Request} {u u' : Ledger Tables}

/-- The key of the request has a record already. -/
def Recorded (p : Hashing) (r : Request) (key : String) (u : Ledger Tables) : Prop :=
  (u.records.idempotency.get? (r.place p naming key)).isSome

/-- A request that returns was answered from its record or has done its work, whose tables were checked. -/
theorem answered_ok {method key : String} {work : Keys → Command Tables (Json × String)} {a : Json}
    (h : Txn.atomically r.draws.failsAfter (do
      let payload ← answer p naming method r key work
      commit
      return payload) u = (.ok a, u')) :
    (Recorded p r key u ∧ u' = u) ∨ ∃ operationId w w', w.state.content = u.content ∧
      work (r.keys p naming method key) w = (.ok (a, operationId), w') ∧
      w'.state.content = u'.content ∧ u'.content.consistent = true := by
  obtain ⟨v, hrun, rfl⟩ := Txn.atomically_ok.1 h
  obtain ⟨payload, w₁, hanswer, h⟩ := Txn.bind_ok.1 hrun
  obtain ⟨_, w₂, hcommit, h⟩ := Txn.bind_ok.1 h
  obtain ⟨rfl, rfl⟩ := Txn.pure_ok.1 h
  obtain ⟨hconsistent, hstate⟩ := commit_ok hcommit
  rw [hstate]
  rcases answer_content hanswer with ⟨hsame, hrow⟩ | ⟨-, operationId, w, w', hcontent, hwork, hcontent'⟩
  · exact .inl ⟨hrow, hsame⟩
  · exact .inr ⟨operationId, w, w', hcontent, hwork, hcontent'.symm, hconsistent⟩

theorem create_ok {a : Json} (h : create y p r ids u = (.ok a, u')) :
    ∃ key s, checkCreate y r = .ok (key, s) ∧ ((Recorded p r key u ∧ u' = u) ∨
      Created y s ids r.draws.now u.content u'.content ∧ u'.content.consistent = true) := by
  unfold create at h
  split at h
  · cases h
  · rename_i key s hcheck
    refine ⟨key, s, hcheck, ?_⟩
    rcases answered_ok h with hreplay | ⟨operationId, w, w', hcontent, hwork, hcontent', hconsistent⟩
    · exact .inl hreplay
    · have hcreated := createWork_ok hwork
      rw [hcontent, hcontent'] at hcreated
      exact .inr ⟨hcreated, hconsistent⟩

theorem update_ok {a : Json} {sandboxId : String} {ifMatch : Option String}
    (h : update y p r sandboxId ifMatch ids u = (.ok a, u')) :
    ∃ key expected s, checkUpdate y r ifMatch = .ok (key, expected, s) ∧
      ((Recorded p r key u ∧ u' = u) ∨ ∃ x, IsRow u.content x ∧ x.sandboxId = sandboxId ∧
        x.profile.resourceRevision = expected ∧ x.profile.profileName = s.metadata.profileName ∧
        x.revision.sourceSha256 ≠ s.accepted.sourceSha256 ∧
        Appended y s ids r.draws.now sandboxId x.profile u.content u'.content ∧
        u'.content.consistent = true) := by
  unfold update at h
  split at h
  · cases h
  · rename_i key expected s hcheck
    refine ⟨key, expected, s, hcheck, ?_⟩
    rcases answered_ok h with hreplay | ⟨operationId, w, w', hcontent, hwork, hcontent', hconsistent⟩
    · exact .inl hreplay
    · obtain ⟨x, hrow, hid, hexpected, hname, hsource, happended⟩ := updateWork_ok hwork
      rw [hcontent] at hrow happended
      rw [hcontent'] at happended
      exact .inr ⟨x, hrow, hid, hexpected, hname, hsource, happended, hconsistent⟩

/-! ### Accepted sources -/

/-- A source that passed the screen and the validator. -/
structure Submitted (y : Reader) (s : Submission) : Prop where
  unscreened : credentialLike s.source = false
  valid : validateSource y s.source = .valid s.accepted
  metadata : readMetadata s.accepted.canonical = some s.metadata

theorem submit_ok {invalid : Controller.ControllerError} {source : String}
    (h : submit y invalid source = .ok s) : s.source = source ∧ Submitted y s := by
  unfold submit at h
  split at h
  · cases h
  rename_i hscreen
  split at h
  · cases h
  · cases h
  · rename_i accepted hvalid
    split at h
    · rename_i metadata hmetadata
      cases h
      exact ⟨rfl, Bool.not_eq_true _ ▸ hscreen, hvalid, hmetadata⟩
    · cases h

theorem checkCreate_ok {key : String} (h : checkCreate y r = .ok (key, s)) : Submitted y s := by
  obtain ⟨_, -, h⟩ := Except.bind_ok.1 h
  obtain ⟨source, -, h⟩ := Except.bind_ok.1 h
  obtain ⟨s', hsubmit, h⟩ := Except.bind_ok.1 h
  cases h
  exact (submit_ok hsubmit).2

theorem checkUpdate_ok {key : String} {expected : Nat} {ifMatch : Option String}
    (h : checkUpdate y r ifMatch = .ok (key, expected, s)) : Submitted y s := by
  obtain ⟨_, -, h⟩ := Except.bind_ok.1 h
  obtain ⟨_, -, h⟩ := Except.bind_ok.1 h
  obtain ⟨source, -, h⟩ := Except.bind_ok.1 h
  obtain ⟨s', hsubmit, h⟩ := Except.bind_ok.1 h
  cases h
  exact (submit_ok hsubmit).2

end HermesOps.Profiles
