import HermesOps.Controller.ProjectCommands
import HermesOps.Hermesfile.Reports
import HermesOps.Registry.Projects

/-! `command_sync` of `hermesops-registry.py`: one write transaction that upserts the projects of the files
    one by one and then disables the others. A statement that a constraint or a trigger refuses, or whose
    parameters cannot be bound, raises; the transaction is then rolled back. -/

namespace HermesOps.Registry

open Schemes ProjectCommands

abbrev ProjectTable := Table String ProjectRow

/-- How texts are encoded, and how many parameters a statement may have. -/
structure Engine where
  codePoints : Hermesfile.CodePoints
  maxVariables : Nat

/-- The parameters of the upsert can be bound. -/
def Engine.binds (e : Engine) (x : Project) : Bool :=
  [x.projectId, x.displayName, x.repoPath, x.dataPath, x.policyId, x.configSource, x.configHash,
    x.defaultBranch].all e.codePoints.encodable

/-- The row that is inserted. -/
def Project.inserted (x : Project) (now : Time) : ProjectRow where
  displayName := x.displayName
  repoPath := x.repoPath
  dataPath := x.dataPath
  policyId := x.policyId
  enabled := x.enabled
  configSource := x.configSource
  configHash := x.configHash
  registeredAt := now
  updatedAt := now
  defaultBranch := x.defaultBranch
  sandboxProfileId := none
  archived := false
  repositoryMode := .existing
  resourceRevision := 1

/-- `CASE WHEN projects.archived = 1 THEN 0 ELSE excluded.enabled END`. -/
def Project.enabledFor (x : Project) (row : ProjectRow) : Bool := if row.archived then false else x.enabled

/-- One of the eight columns differs. -/
def Project.differs (x : Project) (row : ProjectRow) : Bool :=
  row.displayName ≠ x.displayName ∨ row.repoPath ≠ x.repoPath ∨ row.dataPath ≠ x.dataPath ∨
    row.policyId ≠ x.policyId ∨ row.enabled ≠ x.enabledFor row ∨ row.configSource ≠ x.configSource ∨
    row.configHash ≠ x.configHash ∨ row.defaultBranch ≠ x.defaultBranch

/-- The row that `DO UPDATE` writes. -/
def Project.updated (x : Project) (now : Time) (row : ProjectRow) : ProjectRow :=
  { row with
    resourceRevision := row.resourceRevision + if x.differs row then 1 else 0
    displayName := x.displayName
    repoPath := x.repoPath
    dataPath := x.dataPath
    policyId := x.policyId
    enabled := x.enabledFor row
    configSource := x.configSource
    configHash := x.configHash
    defaultBranch := x.defaultBranch
    updatedAt := if x.differs row then now else row.updatedAt }

/-- The row may take the place of the old one. -/
def allowed (old new : ProjectRow) : Bool := revisionGuard old new ∧ stableGuard old new ∧ new.check

/-- Another project has one of the two paths. -/
def pathTaken (t : ProjectTable) (projectId repoPath dataPath : String) : Bool :=
  t.any fun id row => id ≠ projectId ∧ (row.repoPath = repoPath ∨ row.dataPath = dataPath)

variable (e : Engine)

/-- The upsert of one project. -/
def upsertProject (now : Time) (t : ProjectTable) (x : Project) : Option ProjectTable :=
  if ¬e.binds x ∨ pathTaken t x.projectId x.repoPath x.dataPath then none
  else
    match t.get? x.projectId with
    | none => if (x.inserted now).check then t.insert x.projectId (x.inserted now) else none
    | some row =>
      if allowed row (x.updated now row) then some (t.updateAt x.projectId (x.updated now)) else none

/-- A project that is not listed. -/
def disabled (now : Time) (row : ProjectRow) : ProjectRow :=
  { row with enabled := false, updatedAt := now, resourceRevision := row.resourceRevision + 1 }

/-- The second statement: the projects that are not listed and not disabled. -/
def disableOthers (now : Time) (projectIds : List String) (t : ProjectTable) : Option ProjectTable :=
  if projectIds ≠ [] ∧ e.maxVariables < projectIds.length + 1 then none
  else if (t.select fun id row => id ∉ projectIds ∧ row.enabled).all
      fun x => allowed x.2 (disabled now x.2) then
    some (t.update (fun id row => id ∉ projectIds ∧ row.enabled) (disabled now))
  else none

/-- `command_sync` after `discover_projects`; nothing when it raises, and the table is then unchanged. -/
def commandSync (projects : List Project) (now : Time) (t : ProjectTable) : Option ProjectTable := do
  let t ← projects.foldlM (upsertProject e now) t
  disableOthers e now (projects.map Project.projectId) t

end HermesOps.Registry
