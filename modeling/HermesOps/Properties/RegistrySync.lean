import HermesOps.Properties.ProjectMutations
import HermesOps.Registry.Sync

/-! When a registry sync commits, and what it leaves. A project that is no longer listed keeps its row and
    its paths, so a sync is refused as soon as a listed project wants a path of another row at its turn. -/

namespace HermesOps.Registry

open Schemes ProjectCommands

/-! ### Tables the system reaches -/

/-- Every row passes the constraints on one row. -/
def Checked (t : ProjectTable) : Prop := t.All fun _ row => row.check = true

/-- The tables that syncs of any file sets and the writes of the Controller's project commands reach. -/
inductive Reached (e : Engine) : ProjectTable → Prop
  | empty : Reached e Table.empty
  | sync {s : Site} {files : List ProjectFile} {projects : List Project} {now : Time}
      {t t' : ProjectTable} (ht : Reached e t) (hfiles : discoverProjects s files = .ok projects)
      (hsync : commandSync e projects now t = some t') : Reached e t'
  | command {c c' : Content} {projectId : String} {f : ProjectRow → ProjectRow}
      (hc : Reached e c.projects) (hupdate : c.updateProject projectId f = some c') :
      Reached e c'.projects
  | create {projectId : String} {row : ProjectRow} {t t' : ProjectTable} (ht : Reached e t)
      (hcheck : row.check = true) (hfree : pathTaken t projectId row.repoPath row.dataPath = false)
      (hinsert : t.insert projectId row = some t') : Reached e t'

/-! ### One upsert -/

section Upsert

variable {e : Engine} {now : Time} {t t' : ProjectTable} {x : Project} {row : ProjectRow}

/-- The row after an upsert. -/
def Project.merged (x : Project) (now : Time) : Option ProjectRow → ProjectRow
  | none => x.inserted now
  | some row => x.updated now row

/-- `CHECK` on the branch. -/
def Project.branchFits (x : Project) : Prop :=
  1 ≤ sqlLength x.defaultBranch ∧ sqlLength x.defaultBranch ≤ 255

theorem changed_updated : resourceChanged row (x.updated now row) = x.differs row := by
  simp only [resourceChanged, Project.differs, Project.updated, ne_comm, ne_eq, not_true_eq_false,
    or_false]

theorem allowed_updated (hrow : row.check = true) :
    allowed row (x.updated now row) = true ↔ x.branchFits := by
  have hguards := guards_iff.mpr (show (x.updated now row).resourceRevision = row.resourceRevision +
    if resourceChanged row (x.updated now row) then 1 else 0 by rw [changed_updated]; rfl)
  obtain ⟨-, -, hprofile, hrevision⟩ := of_decide_eq_true hrow
  have hpositive : 1 ≤ (x.updated now row).resourceRevision := Nat.le_add_right_of_le hrevision
  unfold allowed
  rw [decide_eq_true_iff]
  constructor
  · rintro ⟨_, _, hcheck⟩
    obtain ⟨hlow, hhigh, -⟩ := of_decide_eq_true hcheck
    exact ⟨hlow, hhigh⟩
  · intro hfits
    exact ⟨hguards.1, hguards.2, decide_eq_true ⟨hfits.1, hfits.2, hprofile, hpositive⟩⟩

theorem check_inserted : (x.inserted now).check = true ↔ x.branchFits := by
  unfold ProjectRow.check
  rw [decide_eq_true_iff]
  constructor
  · rintro ⟨hlow, hhigh, -⟩
    exact ⟨hlow, hhigh⟩
  · intro hfits
    exact ⟨hfits.1, hfits.2, rfl, Nat.le_refl 1⟩

theorem pathTaken_iff : pathTaken t x.projectId x.repoPath x.dataPath = false ↔
    ∀ id row, t.get? id = some row → id ≠ x.projectId →
      row.repoPath ≠ x.repoPath ∧ row.dataPath ≠ x.dataPath := by
  unfold pathTaken
  rw [Table.any_eq_false_iff]
  constructor
  · intro h id row hrow hid
    have := h id row hrow
    simpa [hid] using this
  · intro h id row hrow
    by_cases hid : id = x.projectId
    · simp [hid]
    · have := h id row hrow hid
      simp [this.1, this.2]

/-- An upsert goes through when its values can be stored and no other row has one of its paths. -/
theorem upsert_isSome (ht : Checked t) : (upsertProject e now t x).isSome ↔
    e.binds x = true ∧ x.branchFits ∧ pathTaken t x.projectId x.repoPath x.dataPath = false := by
  unfold upsertProject
  by_cases hbinds : e.binds x = true
  · cases htaken : pathTaken t x.projectId x.repoPath x.dataPath with
    | true => simp [hbinds]
    | false =>
      rw [if_neg (by simp [hbinds])]
      cases hrow : t.get? x.projectId with
      | none =>
        obtain ⟨t', ht'⟩ := Table.insert_of_get?_eq_none hrow (x.inserted now)
        by_cases hcheck : (x.inserted now).check = true
        · simp [hcheck, ht', hbinds, check_inserted.mp hcheck]
        · simp [hcheck, hbinds, mt check_inserted.mpr hcheck]
      | some row =>
        have hallowed : allowed row (x.updated now row) = true ↔ x.branchFits :=
          allowed_updated (ht x.projectId row hrow)
        by_cases hfits : x.branchFits
        · simp [hallowed.mpr hfits, hfits, hbinds]
        · simp [mt hallowed.mp hfits, hfits]
  · simp [hbinds]

/-- An upsert writes its own row only. -/
theorem upsert_get? (h : upsertProject e now t x = some t') (id : String) :
    t'.get? id = if id = x.projectId then some (x.merged now (t.get? id)) else t.get? id := by
  unfold upsertProject at h
  split at h
  · cases h
  · cases hrow : t.get? x.projectId with
    | none =>
      rw [hrow] at h
      dsimp only at h
      split at h
      · rw [Table.get?_insert h]
        split
        · rename_i hid
          rw [hid, hrow]
          rfl
        · rfl
      · cases h
    | some row =>
      rw [hrow] at h
      dsimp only at h
      split at h
      · obtain rfl := Option.some.inj h
        rw [Table.get?_updateAt]
        split
        · rename_i hid
          rw [hid, hrow]
          rfl
        · rfl
      · cases h

theorem upsert_checked (ht : Checked t) (h : upsertProject e now t x = some t') : Checked t' := by
  have hfits := ((upsert_isSome ht).mp (Option.isSome_of_eq_some h)).2.1
  intro id row hrow
  rw [upsert_get? h] at hrow
  split at hrow
  · obtain rfl := Option.some.inj hrow
    cases hold : t.get? id with
    | none => exact check_inserted.mpr hfits
    | some old => exact (of_decide_eq_true ((allowed_updated (ht id old hold)).mpr hfits)).2.2
  · exact ht id row hrow

theorem merged_paths (old : Option ProjectRow) :
    (x.merged now old).repoPath = x.repoPath ∧ (x.merged now old).dataPath = x.dataPath := by
  cases old <;> exact ⟨rfl, rfl⟩

end Upsert

/-! ### The loop of upserts -/

section Loop

variable {e : Engine} {now : Time} {t t' : ProjectTable} {projects : List Project}

/-- When the turn of a project comes, no row but its own has one of its paths. -/
structure Upsertable (e : Engine) (projects : List Project) (t : ProjectTable) : Prop where
  binds : ∀ x ∈ projects, e.binds x = true
  branches : ∀ x ∈ projects, x.branchFits
  dataPaths : (projects.map Project.dataPath).Nodup
  free : ∀ before x after, projects = before ++ x :: after → ∀ id row, t.get? id = some row →
    id ≠ x.projectId → id ∉ before.map Project.projectId →
      row.repoPath ≠ x.repoPath ∧ row.dataPath ≠ x.dataPath

/-- The first project goes through, and the others do after it. -/
theorem upsertable_cons {x : Project} {xs : List Project} {t₁ : ProjectTable}
    (hrepos : ((x :: xs).map Project.repoPath).Nodup)
    (hget : ∀ id, t₁.get? id = if id = x.projectId then some (x.merged now (t.get? id)) else t.get? id)
    (hids : ((x :: xs).map Project.projectId).Nodup) :
    Upsertable e (x :: xs) t ↔
      (e.binds x = true ∧ x.branchFits ∧ pathTaken t x.projectId x.repoPath x.dataPath = false) ∧
        Upsertable e xs t₁ := by
  rw [List.map_cons, List.nodup_cons] at hrepos hids
  constructor
  · intro h
    obtain ⟨hbinds, hbindsAll⟩ := List.forall_mem_cons.mp h.binds
    obtain ⟨hbranch, hbranches⟩ := List.forall_mem_cons.mp h.branches
    have hdata := h.dataPaths
    rw [List.map_cons, List.nodup_cons] at hdata
    refine ⟨⟨hbinds, hbranch, pathTaken_iff.mpr ?_⟩, hbindsAll, hbranches, hdata.2, ?_⟩
    · intro id row hrow hid
      exact h.free [] x xs rfl id row hrow hid (List.not_mem_nil)
    · intro before y after hxs id row hrow hid hbefore
      rw [hget] at hrow
      split at hrow
      · -- the row of the first project has its paths, which no later project wants
        obtain rfl := Option.some.inj hrow
        have hy : y ∈ xs := by rw [hxs]; exact List.mem_append_right _ List.mem_cons_self
        rw [(merged_paths _).1, (merged_paths _).2]
        refine ⟨?_, ?_⟩
        · intro heq
          exact hrepos.1 (heq ▸ List.mem_map_of_mem hy)
        · intro heq
          exact hdata.1 (heq ▸ List.mem_map_of_mem hy)
      · rename_i hne
        refine h.free (x :: before) y after (by rw [hxs]; rfl) id row hrow hid ?_
        rw [List.map_cons, List.mem_cons, not_or]
        exact ⟨hne, hbefore⟩
  · rintro ⟨⟨hbinds, hbranch, hfree⟩, h⟩
    have hfree := pathTaken_iff.mp hfree
    refine ⟨List.forall_mem_cons.mpr ⟨hbinds, h.binds⟩, List.forall_mem_cons.mpr ⟨hbranch, h.branches⟩,
      ?_, ?_⟩
    · rw [List.map_cons, List.nodup_cons]
      refine ⟨?_, h.dataPaths⟩
      intro hmem
      obtain ⟨y, hy, heq⟩ := List.mem_map.mp hmem
      obtain ⟨before, after, hxs⟩ := List.append_of_mem hy
      have hrow : t₁.get? x.projectId = some (x.merged now (t.get? x.projectId)) := by
        rw [hget, if_pos rfl]
      have hne : x.projectId ≠ y.projectId := by
        intro heq
        exact hids.1 (heq ▸ List.mem_map_of_mem hy)
      have hbefore : x.projectId ∉ before.map Project.projectId := by
        intro hmem
        refine hids.1 ?_
        rw [hxs, List.map_append]
        exact List.mem_append_left _ hmem
      have := (h.free before y after hxs _ _ hrow hne hbefore).2
      rw [(merged_paths _).2] at this
      exact this heq.symm
    · intro before y after hsplit id row hrow hid hbefore
      cases before with
      | nil =>
        obtain ⟨rfl, rfl⟩ := List.cons.inj hsplit
        exact hfree id row hrow hid
      | cons z before =>
        obtain ⟨rfl, hxs⟩ := List.cons.inj hsplit
        rw [List.map_cons, List.mem_cons, not_or] at hbefore
        refine h.free before y after hxs id row ?_ hid hbefore.2
        rw [hget, if_neg hbefore.1]
        exact hrow

/-- The table in which the project is merged, whether or not the upsert goes through. -/
theorem exists_merged (t : ProjectTable) (x : Project) (now : Time) : ∃ t₁ : ProjectTable, ∀ id,
    t₁.get? id = if id = x.projectId then some (x.merged now (t.get? id)) else t.get? id := by
  cases hrow : t.get? x.projectId with
  | none =>
    obtain ⟨t₁, ht₁⟩ := Table.insert_of_get?_eq_none hrow (x.inserted now)
    refine ⟨t₁, ?_⟩
    intro id
    rw [Table.get?_insert ht₁]
    split
    · rename_i hid
      rw [hid, hrow]
      rfl
    · rfl
  | some row =>
    refine ⟨t.updateAt x.projectId (x.updated now), ?_⟩
    intro id
    rw [Table.get?_updateAt]
    split
    · rename_i hid
      rw [hid, hrow]
      rfl
    · rfl

theorem upserts_isSome (hids : (projects.map Project.projectId).Nodup)
    (hrepos : (projects.map Project.repoPath).Nodup) (ht : Checked t) :
    (projects.foldlM (upsertProject e now) t).isSome ↔ Upsertable e projects t := by
  induction projects generalizing t with
  | nil =>
    rw [List.foldlM_nil]
    refine ⟨fun _ => ⟨by simp, by simp, List.nodup_nil, ?_⟩, fun _ => rfl⟩
    intro before x after h
    simp at h
  | cons x xs ih =>
    rw [List.foldlM_cons]
    cases hupsert : upsertProject e now t x with
    | none =>
      constructor
      · intro h
        cases h
      · intro h
        obtain ⟨t₁, hget⟩ := exists_merged t x now
        have hfirst := ((upsertable_cons hrepos hget hids).mp h).1
        have hsome : (upsertProject e now t x).isSome := (upsert_isSome ht).mpr hfirst
        rw [hupsert] at hsome
        cases hsome
    | some t₁ =>
      rw [upsertable_cons hrepos (upsert_get? hupsert) hids]
      rw [List.map_cons, List.nodup_cons] at hids hrepos
      have hfirst := (upsert_isSome ht).mp (Option.isSome_of_eq_some hupsert)
      rw [Option.bind_eq_bind, Option.bind_some, ih hids.2 hrepos.2 (upsert_checked ht hupsert)]
      exact ⟨fun h => ⟨hfirst, h⟩, And.right⟩

theorem upserts_checked (ht : Checked t) (h : projects.foldlM (upsertProject e now) t = some t') :
    Checked t' := by
  induction projects generalizing t with
  | nil =>
    obtain rfl := Option.some.inj h
    exact ht
  | cons x xs ih =>
    rw [List.foldlM_cons] at h
    obtain ⟨t₁, hupsert, hrest⟩ := Option.bind_eq_some_iff.mp h
    exact ih (upsert_checked ht hupsert) hrest

/-- The loop writes the rows of the listed projects. -/
theorem upserts_get? (hids : (projects.map Project.projectId).Nodup)
    (h : projects.foldlM (upsertProject e now) t = some t') (id : String) :
    (∀ x ∈ projects, id = x.projectId → t'.get? id = some (x.merged now (t.get? id))) ∧
      (id ∉ projects.map Project.projectId → t'.get? id = t.get? id) := by
  induction projects generalizing t with
  | nil =>
    obtain rfl := Option.some.inj h
    exact ⟨by simp, fun _ => rfl⟩
  | cons x xs ih =>
    rw [List.foldlM_cons] at h
    obtain ⟨t₁, hupsert, hrest⟩ := Option.bind_eq_some_iff.mp h
    rw [List.map_cons, List.nodup_cons] at hids
    obtain ⟨hlisted, hother⟩ := ih hids.2 hrest
    have hget := upsert_get? hupsert id
    refine ⟨?_, ?_⟩
    · intro y hy hid
      rcases List.mem_cons.mp hy with rfl | hy
      · rw [hother (hid ▸ hids.1), hget, if_pos hid]
      · have hne : id ≠ x.projectId := by
          rintro rfl
          exact hids.1 (hid ▸ List.mem_map_of_mem hy)
        rw [hlisted y hy hid, hget, if_neg hne]
    · intro hnot
      rw [List.map_cons, List.mem_cons, not_or] at hnot
      rw [hother hnot.2, hget, if_neg hnot.1]

end Loop

/-! ### The projects that are not listed -/

section Others

variable {e : Engine} {now : Time} {t t' : ProjectTable} {ids : List String}

/-- The statement may have its parameters. -/
def Engine.fits (e : Engine) (ids : List String) : Prop := ids = [] ∨ ids.length + 1 ≤ e.maxVariables

theorem allowed_disabled {row : ProjectRow} (hrow : row.check = true) (henabled : row.enabled = true) :
    allowed row (disabled now row) = true := by
  have hchanged : resourceChanged row (disabled now row) = true := by
    simp [resourceChanged, disabled, henabled]
  have hguards := guards_iff.mpr (show (disabled now row).resourceRevision = row.resourceRevision +
    if resourceChanged row (disabled now row) then 1 else 0 by rw [hchanged]; rfl)
  obtain ⟨hlow, hhigh, hprofile, hrevision⟩ := of_decide_eq_true hrow
  exact decide_eq_true ⟨hguards.1, hguards.2,
    decide_eq_true ⟨hlow, hhigh, hprofile, Nat.le_add_right_of_le hrevision⟩⟩

theorem disableOthers_isSome (ht : Checked t) : (disableOthers e now ids t).isSome ↔ e.fits ids := by
  have hall : (t.select fun id row => id ∉ ids ∧ row.enabled).all
      (fun x => allowed x.2 (disabled now x.2)) = true := by
    rw [List.all_eq_true]
    rintro ⟨id, row⟩ hmem
    obtain ⟨hrow, hsel⟩ := Table.mem_select.mp hmem
    exact allowed_disabled (ht id row hrow) (of_decide_eq_true hsel).2
  unfold disableOthers Engine.fits
  rw [if_pos hall]
  by_cases hids : ids = []
  · simp [hids]
  · by_cases hlen : e.maxVariables < ids.length + 1
    · rw [if_pos ⟨hids, hlen⟩]
      simp only [Option.isSome_none, Bool.false_eq_true, hids, false_or, false_iff]
      omega
    · rw [if_neg fun h => hlen h.2]
      simp only [Option.isSome_some, hids, false_or, true_iff]
      omega

theorem disableOthers_get? (h : disableOthers e now ids t = some t') (id : String) :
    t'.get? id = (t.get? id).map fun row =>
      if id ∉ ids ∧ row.enabled = true then disabled now row else row := by
  unfold disableOthers at h
  split at h
  · cases h
  · split at h
    · obtain rfl := Option.some.inj h
      rw [Table.get?_update]
      simp only [decide_eq_true_eq]
    · cases h

theorem disableOthers_checked (ht : Checked t) (h : disableOthers e now ids t = some t') :
    Checked t' := by
  intro id row hrow
  rw [disableOthers_get? h] at hrow
  obtain ⟨old, hold, rfl⟩ := Option.map_eq_some_iff.mp hrow
  split
  · rename_i hsel
    have hallowed : allowed old (disabled now old) = true := allowed_disabled (ht id old hold) hsel.2
    exact (of_decide_eq_true hallowed).2.2
  · exact ht id old hold

end Others

/-! ### The whole sync -/

section Sync

variable {e : Engine} {s : Site} {files : List ProjectFile} {projects : List Project} {now : Time}
  {t t' : ProjectTable}

theorem commandSync_some (h : commandSync e projects now t = some t') :
    ∃ t₁, projects.foldlM (upsertProject e now) t = some t₁ ∧
      disableOthers e now (projects.map Project.projectId) t₁ = some t' :=
  Option.bind_eq_some_iff.mp h

theorem commandSync_checked (ht : Checked t) (h : commandSync e projects now t = some t') :
    Checked t' := by
  obtain ⟨t₁, hupserts, hothers⟩ := commandSync_some h
  exact disableOthers_checked (upserts_checked ht hupserts) hothers

/-- Every reached table has rows that pass the constraints. -/
theorem Reached.checked (h : Reached e t) : Checked t := by
  induction h with
  | empty => exact Table.All.empty
  | sync _ _ hsync ih => exact commandSync_checked ih hsync
  | @command c c' projectId f _ hupdate ih =>
    unfold Content.updateProject at hupdate
    split at hupdate
    · obtain rfl := Option.some.inj hupdate
      exact ih
    · rename_i row hrow
      split at hupdate
      · rename_i hchecks
        obtain rfl := Option.some.inj hupdate
        intro id new hnew
        rw [Table.get?_updateAt] at hnew
        split at hnew
        · rename_i hid
          rw [hid, hrow] at hnew
          obtain rfl := Option.some.inj hnew
          exact hchecks.2.2
        · exact ih id new hnew
      · cases hupdate
  | create _ hcheck _ hinsert ih => exact ih.insert hinsert hcheck

theorem discoverFrom_nodup {found : List Project} (h : discoverFrom s files found = .ok projects)
    (hids : (found.map Project.projectId).Nodup) (hrepos : (found.map Project.repoPath).Nodup) :
    (projects.map Project.projectId).Nodup ∧ (projects.map Project.repoPath).Nodup := by
  induction files generalizing found with
  | nil =>
    obtain rfl := Except.ok.inj h
    exact ⟨hids, hrepos⟩
  | cons file files ih =>
    rw [discoverFrom] at h
    cases hvalid : validateProject s file with
    | error err =>
      rw [hvalid] at h
      cases h
    | ok x =>
      rw [hvalid] at h
      by_cases hid : x.projectId ∈ found.map Project.projectId
      · simp [demand, hid, bind, Except.bind] at h
      · by_cases hrepo : x.repoPath ∈ found.map Project.repoPath
        · simp [demand, hid, hrepo, bind, Except.bind] at h
        · simp only [demand, hid, hrepo, not_false_eq_true, decide_true, if_true, bind, Except.bind] at h
          refine ih h ?_ ?_
          · rw [List.map_append, List.map_singleton, ← List.concat_eq_append]
            exact List.Nodup.concat hid hids
          · rw [List.map_append, List.map_singleton, ← List.concat_eq_append]
            exact List.Nodup.concat hrepo hrepos

/-- The ids and the repositories of discovered projects are distinct. -/
theorem discovered_nodup (h : discoverProjects s files = .ok projects) :
    (projects.map Project.projectId).Nodup ∧ (projects.map Project.repoPath).Nodup :=
  discoverFrom_nodup h List.nodup_nil List.nodup_nil

/-- The columns of a row that a sync compares. -/
structure Compared where
  displayName : String
  repoPath : String
  dataPath : String
  policyId : String
  enabled : Bool
  configSource : String
  configHash : String
  defaultBranch : String
  deriving DecidableEq

def compared (row : ProjectRow) : Compared :=
  ⟨row.displayName, row.repoPath, row.dataPath, row.policyId, row.enabled, row.configSource,
    row.configHash, row.defaultBranch⟩

/-- The row carries the values of the file, and is disabled when it is archived. -/
structure Carries (x : Project) (row : ProjectRow) : Prop where
  displayName : row.displayName = x.displayName
  repoPath : row.repoPath = x.repoPath
  dataPath : row.dataPath = x.dataPath
  policyId : row.policyId = x.policyId
  enabled : row.enabled = x.enabledFor row
  configSource : row.configSource = x.configSource
  configHash : row.configHash = x.configHash
  defaultBranch : row.defaultBranch = x.defaultBranch

/-- What a sync of the projects makes of a table. -/
structure Synced (projects : List Project) (t t' : ProjectTable) : Prop where
  listed : ∀ x ∈ projects, ∃ row, t'.get? x.projectId = some row ∧ Carries x row
  others : ∀ id row, id ∉ projects.map Project.projectId → t'.get? id = some row → row.enabled = false
  rows : ∀ id, id ∉ projects.map Project.projectId → t.get? id = none → t'.get? id = none
  kept : ∀ id row, t.get? id = some row → ∃ row', t'.get? id = some row' ∧
    row'.archived = row.archived ∧ row'.sandboxProfileId = row.sandboxProfileId ∧
    row'.repositoryMode = row.repositoryMode ∧
    row'.resourceRevision = row.resourceRevision + if compared row' = compared row then 0 else 1

/-- When a sync goes through. -/
structure Syncable (e : Engine) (projects : List Project) (t : ProjectTable) : Prop
    extends Upsertable e projects t where
  fits : e.fits (projects.map Project.projectId)

theorem commandSync_isSome (ht : Checked t) (hfiles : discoverProjects s files = .ok projects) :
    (commandSync e projects now t).isSome ↔ Syncable e projects t := by
  obtain ⟨hids, hrepos⟩ := discovered_nodup hfiles
  have hupserts : (projects.foldlM (upsertProject e now) t).isSome ↔ Upsertable e projects t :=
    upserts_isSome hids hrepos ht
  unfold commandSync
  cases hloop : projects.foldlM (upsertProject e now) t with
  | none =>
    rw [hloop] at hupserts
    constructor
    · intro h
      cases h
    · intro h
      cases hupserts.mpr h.toUpsertable
  | some t₁ =>
    rw [hloop] at hupserts
    rw [Option.bind_eq_bind, Option.bind_some, disableOthers_isSome (upserts_checked ht hloop)]
    exact ⟨fun h => ⟨hupserts.mp rfl, h⟩, Syncable.fits⟩

theorem carries_merged (x : Project) (now : Time) (old : Option ProjectRow) :
    Carries x (x.merged now old) := by
  cases old with
  | none => exact ⟨rfl, rfl, rfl, rfl, rfl, rfl, rfl, rfl⟩
  | some row => exact ⟨rfl, rfl, rfl, rfl, rfl, rfl, rfl, rfl⟩

theorem differs_iff (x : Project) (now : Time) (row : ProjectRow) :
    x.differs row = true ↔ compared (x.updated now row) ≠ compared row := by
  simp only [Project.differs, compared, Project.updated, ne_eq, Compared.mk.injEq, decide_eq_true_eq,
    eq_comm (a := x.displayName), eq_comm (a := x.repoPath), eq_comm (a := x.dataPath),
    eq_comm (a := x.policyId), eq_comm (a := x.enabledFor row), eq_comm (a := x.configSource),
    eq_comm (a := x.configHash), eq_comm (a := x.defaultBranch)]
  tauto

/-- The row of a listed project after the sync. -/
theorem commandSync_listed (hids : (projects.map Project.projectId).Nodup)
    (h : commandSync e projects now t = some t') {x : Project} (hx : x ∈ projects) :
    t'.get? x.projectId = some (x.merged now (t.get? x.projectId)) := by
  obtain ⟨t₁, hupserts, hothers⟩ := commandSync_some h
  have hmem : x.projectId ∈ projects.map Project.projectId := List.mem_map_of_mem hx
  rw [disableOthers_get? hothers, (upserts_get? hids hupserts x.projectId).1 x hx rfl]
  simp [hmem]

/-- The row of another project after the sync. -/
theorem commandSync_other (hids : (projects.map Project.projectId).Nodup)
    (h : commandSync e projects now t = some t') {id : String}
    (hid : id ∉ projects.map Project.projectId) :
    t'.get? id = (t.get? id).map fun row => if row.enabled = true then disabled now row else row := by
  obtain ⟨t₁, hupserts, hothers⟩ := commandSync_some h
  rw [disableOthers_get? hothers, (upserts_get? hids hupserts id).2 hid]
  simp only [hid, not_false_eq_true, true_and]

theorem commandSync_synced (hids : (projects.map Project.projectId).Nodup)
    (h : commandSync e projects now t = some t') : Synced projects t t' := by
  refine ⟨?_, ?_, ?_, ?_⟩
  · intro x hx
    exact ⟨_, commandSync_listed hids h hx, carries_merged x now _⟩
  · intro id row hid hrow
    rw [commandSync_other hids h hid] at hrow
    obtain ⟨old, _, rfl⟩ := Option.map_eq_some_iff.mp hrow
    split
    · rfl
    · rename_i henabled
      exact Bool.eq_false_iff.mpr henabled
  · intro id hid hnone
    rw [commandSync_other hids h hid, hnone]
    rfl
  · intro id row hrow
    by_cases hid : id ∈ projects.map Project.projectId
    · obtain ⟨x, hx, rfl⟩ := List.mem_map.mp hid
      have hnew := commandSync_listed hids h hx
      rw [hrow] at hnew
      refine ⟨_, hnew, rfl, rfl, rfl, ?_⟩
      show (x.updated now row).resourceRevision = row.resourceRevision +
        if compared (x.updated now row) = compared row then 0 else 1
      have hdiffers := differs_iff x now row
      by_cases hd : x.differs row = true
      · rw [if_neg (hdiffers.mp hd)]
        simp [Project.updated, hd]
      · rw [if_pos (not_not.mp (mt hdiffers.mpr hd))]
        simp [Project.updated, hd]
    · have hnew := commandSync_other hids h hid
      rw [hrow, Option.map_some] at hnew
      refine ⟨_, hnew, ?_⟩
      by_cases henabled : row.enabled = true
      · rw [if_pos henabled]
        refine ⟨rfl, rfl, rfl, ?_⟩
        rw [if_neg]
        · rfl
        · simp [compared, disabled, henabled]
      · rw [if_neg henabled, if_pos rfl]
        exact ⟨rfl, rfl, rfl, rfl⟩

/-! ### A second sync -/

theorem update_eq_self {p : String → ProjectRow → Bool} {f : ProjectRow → ProjectRow}
    (h : ∀ id row, t.get? id = some row → p id row = true → f row = row) : t.update p f = t := by
  have hrows : (t.update p f).rows = t.rows := by
    refine (List.map_congr_left ?_).trans (List.map_id t.rows)
    rintro ⟨id, row⟩ hmem
    dsimp only [id_eq]
    split
    · rename_i hp
      rw [h id row (Table.mem_rows_iff.mp hmem) hp]
    · rfl
  obtain ⟨rows, keys⟩ := t
  cases hu : Table.update ⟨rows, keys⟩ p f with
  | mk rows' keys' =>
    rw [hu] at hrows
    subst hrows
    rfl

theorem updated_self {x : Project} {row : ProjectRow} (h : Carries x row) (now : Time) :
    x.updated now row = row := by
  have hdiffers : x.differs row = false := by
    refine decide_eq_false ?_
    simp [← h.displayName, ← h.repoPath, ← h.dataPath, ← h.policyId, ← h.enabled, ← h.configSource,
      ← h.configHash, ← h.defaultBranch]
  unfold Project.updated
  rw [hdiffers, ← h.displayName, ← h.repoPath, ← h.dataPath, ← h.policyId, ← h.enabled,
    ← h.configSource, ← h.configHash, ← h.defaultBranch]
  rfl

/-- Rows that carry the values are not changed. -/
theorem upserts_self (hids : (projects.map Project.projectId).Nodup)
    (hrepos : (projects.map Project.repoPath).Nodup) (ht : Checked t) (h : Upsertable e projects t)
    (hcarry : ∀ x ∈ projects, ∃ row, t.get? x.projectId = some row ∧ Carries x row) (now : Time) :
    projects.foldlM (upsertProject e now) t = some t := by
  induction projects with
  | nil => rfl
  | cons x xs ih =>
    obtain ⟨⟨row, hrow, hx⟩, hxs⟩ := List.forall_mem_cons.mp hcarry
    have hget : ∀ id, t.get? id =
        if id = x.projectId then some (x.merged now (t.get? id)) else t.get? id := by
      intro id
      split
      · rename_i hid
        rw [hid, hrow]
        exact congrArg some (updated_self hx now).symm
      · rfl
    obtain ⟨hfirst, hrest⟩ := (upsertable_cons hrepos hget hids).mp h
    have hstep : upsertProject e now t x = some t := by
      obtain ⟨hbinds, hfits, hfree⟩ := hfirst
      have hallowed : allowed row (x.updated now row) = true :=
        (allowed_updated (ht x.projectId row hrow)).mpr hfits
      unfold upsertProject
      rw [if_neg (by simp [hbinds, hfree]), hrow]
      dsimp only
      rw [if_pos hallowed, Table.updateAt, update_eq_self]
      intro id old hold hp
      obtain rfl : id = x.projectId := of_decide_eq_true hp
      rw [hrow] at hold
      obtain rfl := Option.some.inj hold
      exact updated_self hx now
    rw [List.map_cons, List.nodup_cons] at hids hrepos
    rw [List.foldlM_cons, hstep]
    exact ih hids.2 hrepos.2 hrest hxs

/-- After a sync the same files can be synced. -/
theorem Syncable.again (hids : (projects.map Project.projectId).Nodup)
    (hrepos : (projects.map Project.repoPath).Nodup) (hs : Syncable e projects t)
    (h : commandSync e projects now t = some t') : Syncable e projects t' := by
  refine ⟨⟨hs.binds, hs.branches, hs.dataPaths, ?_⟩, hs.fits⟩
  intro before x after hsplit id row hrow hid hbefore
  by_cases hlisted : id ∈ projects.map Project.projectId
  · -- a listed project has the paths of its own file
    obtain ⟨y, hy, rfl⟩ := List.mem_map.mp hlisted
    have hx : x ∈ projects := by rw [hsplit]; exact List.mem_append_right _ List.mem_cons_self
    rw [commandSync_listed hids h hy] at hrow
    obtain rfl := Option.some.inj hrow
    rw [(merged_paths _).1, (merged_paths _).2]
    have hyx : y ≠ x := fun heq => hid (heq ▸ rfl)
    exact ⟨fun heq => hyx (List.inj_on_of_nodup_map hrepos hy hx heq),
      fun heq => hyx (List.inj_on_of_nodup_map hs.dataPaths hy hx heq)⟩
  · rw [commandSync_other hids h hlisted] at hrow
    obtain ⟨old, hold, rfl⟩ := Option.map_eq_some_iff.mp hrow
    have hpaths := hs.free before x after hsplit id old hold hid hbefore
    split
    · exact hpaths
    · exact hpaths

theorem commandSync_again (ht : Checked t) (hfiles : discoverProjects s files = .ok projects)
    (h : commandSync e projects now t = some t') (now' : Time) :
    commandSync e projects now' t' = some t' := by
  obtain ⟨hids, hrepos⟩ := discovered_nodup hfiles
  have hs := (commandSync_isSome ht hfiles).mp (Option.isSome_of_eq_some h)
  have hsynced := commandSync_synced hids h
  have hagain := hs.again hids hrepos h
  have ht' := commandSync_checked ht h
  have hupserts := upserts_self hids hrepos ht' hagain.toUpsertable hsynced.listed now'
  unfold commandSync
  rw [hupserts, Option.bind_eq_bind, Option.bind_some]
  have hfits : (disableOthers e now' (projects.map Project.projectId) t').isSome :=
    (disableOthers_isSome ht').mpr hagain.fits
  obtain ⟨t₂, hothers⟩ := Option.isSome_iff_exists.mp hfits
  rw [hothers]
  unfold disableOthers at hothers
  split at hothers
  · cases hothers
  · split at hothers
    · obtain rfl := Option.some.inj hothers
      rw [update_eq_self]
      intro id row hrow hp
      obtain ⟨hid, henabled⟩ := of_decide_eq_true hp
      rw [hsynced.others id row hid hrow] at henabled
      cases henabled
    · cases hothers

/-- A sync of discovered files commits, leaves what it should and settles at once if and only if each
    project's turn finds both its paths free of other rows and its values fit to be stored. -/
theorem sync_converges_iff (e : Engine) (t : ProjectTable) (ht : Reached e t) (s : Site)
    (files : List ProjectFile) (projects : List Project)
    (hfiles : discoverProjects s files = .ok projects) (now : Time) :
    (∃ t', commandSync e projects now t = some t' ∧ Synced projects t t' ∧
      ∀ now', commandSync e projects now' t' = some t') ↔ Syncable e projects t := by
  rw [← commandSync_isSome ht.checked hfiles, Option.isSome_iff_exists]
  constructor
  · rintro ⟨t', h, _⟩
    exact ⟨t', h⟩
  · rintro ⟨t', h⟩
    exact ⟨t', h, commandSync_synced (discovered_nodup hfiles).1 h,
      commandSync_again ht.checked hfiles h⟩

end Sync

/-! ### A project under another id -/

def sampleSite : Site where
  root := "/opt"
  policyExists policyId := policyId = "default"
  resolve text := text
  repr text := "'" ++ text ++ "'"

def sampleEngine : Engine where
  codePoints := ⟨fun _ => false, fun _ h => nomatch h⟩
  maxVariables := 32766

/-- A file that gives a project the id and the repository. -/
def sampleFile (projectId repo : String) : ProjectFile where
  source := "/opt/config/projects.d/" ++ projectId ++ ".toml"
  configHash := "0"
  data := .ok [("schema_version", .int 1),
    ("project", .map [("id", .str projectId), ("name", .str "Sample"), ("enabled", .bool true),
      ("policy", .str "default")]),
    ("paths", .map [("repo", .str ("/opt/workspaces/" ++ repo)),
      ("data", .str ("/opt/project-data/" ++ projectId))]),
    ("git", .map [("default_branch", .str "main"), ("allow_push", .bool false),
      ("require_clean", .bool true)]),
    ("execution", .map [("writer_concurrency", .int 1), ("max_parallel_tasks", .int 2)]),
    ("review", .map [("required", .bool true)])]

def sampleProject (projectId repo : String) : Project where
  projectId := projectId
  displayName := "Sample"
  enabled := true
  policyId := "default"
  repoPath := "/opt/workspaces/" ++ repo
  dataPath := "/opt/project-data/" ++ projectId
  defaultBranch := "main"
  requireClean := true
  writerConcurrency := 1
  maxParallelTasks := 2
  configSource := "/opt/config/projects.d/" ++ projectId ++ ".toml"
  configHash := "0"

theorem discover_alpha :
    discoverProjects sampleSite [sampleFile "alpha" "repo"] = .ok [sampleProject "alpha" "repo"] := by
  rfl

theorem discover_beta :
    discoverProjects sampleSite [sampleFile "beta" "repo"] = .ok [sampleProject "beta" "repo"] := by
  rfl

theorem syncable_alpha : Syncable sampleEngine [sampleProject "alpha" "repo"] Table.empty := by
  refine ⟨⟨?_, ?_, List.nodup_singleton _, ?_⟩, .inr (by decide)⟩
  · intro x hx
    obtain rfl := List.mem_singleton.mp hx
    rfl
  · intro x hx
    obtain rfl := List.mem_singleton.mp hx
    refine ⟨?_, ?_⟩ <;> decide
  · intro before x after _ id row hrow
    cases hrow

theorem sync_converges_alpha :
    ∃ t', commandSync sampleEngine [sampleProject "alpha" "repo"] 5 Table.empty = some t' ∧
      Synced [sampleProject "alpha" "repo"] Table.empty t' ∧
      ∀ now', commandSync sampleEngine [sampleProject "alpha" "repo"] now' t' = some t' :=
  (sync_converges_iff sampleEngine Table.empty .empty sampleSite [sampleFile "alpha" "repo"]
    [sampleProject "alpha" "repo"] discover_alpha 5).mpr syncable_alpha

/-- When a file gives a stored repository another id, no sync goes through. -/
theorem sync_raised :
    ¬∀ (e : Engine) (t : ProjectTable), Reached e t → ∀ (s : Site) (files : List ProjectFile)
        (projects : List Project), discoverProjects s files = .ok projects → ∀ now : Time,
      ∃ t', commandSync e projects now t = some t' ∧ Synced projects t t' ∧
        ∀ now', commandSync e projects now' t' = some t' := by
  intro h
  have hempty : Reached sampleEngine Table.empty := .empty
  have hfirst : (commandSync sampleEngine [sampleProject "alpha" "repo"] 5 Table.empty).isSome :=
    (commandSync_isSome hempty.checked discover_alpha).mpr syncable_alpha
  obtain ⟨t, hsync⟩ := Option.isSome_iff_exists.mp hfirst
  have ht : Reached sampleEngine t := .sync hempty discover_alpha hsync
  obtain ⟨t', hagain, -⟩ := h sampleEngine t ht sampleSite _ _ discover_beta 6
  have hbeta : Syncable sampleEngine [sampleProject "beta" "repo"] t :=
    (commandSync_isSome ht.checked discover_beta).mp (Option.isSome_of_eq_some hagain)
  obtain ⟨row, hrow, hcarries⟩ :=
    (commandSync_synced (discovered_nodup discover_alpha).1 hsync).listed _ List.mem_cons_self
  have hfree := hbeta.free [] _ [] rfl _ row hrow (by decide) List.not_mem_nil
  exact hfree.1 hcarries.repoPath

end HermesOps.Registry
