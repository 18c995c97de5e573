import HermesOps.Controller.ObjectiveCommands
import HermesOps.Hermesfile.Values

/-! `validate_project` and `discover_projects` of `hermesops-registry.py`. A configuration file is given by
    what the parser makes of it; a date or a time is a value of no further interest. What the file system
    says about a path, and the root of the controller's own configuration, are parameters. -/

namespace HermesOps.Registry

open Hermesfile (Value Members)

structure RegistryError where
  message : String

abbrev RegistryResult := Except RegistryError

/-- A file of `projects.d`: its path, what `tomllib` makes of it or the text of its error, the digest of
    its bytes. -/
structure ProjectFile where
  source : String
  data : Except String Members
  configHash : String

/-- `controller["root"]`, whether a policy file is there, `str(Path(text).resolve())`, and `repr`. -/
structure Site where
  root : String
  policyExists : String → Bool
  resolve : String → String
  repr : String → String

/-- The dictionary `validate_project` returns. -/
structure Project where
  projectId : String
  displayName : String
  enabled : Bool
  policyId : String
  repoPath : String
  dataPath : String
  defaultBranch : String
  requireClean : Bool
  writerConcurrency : Int
  maxParallelTasks : Int
  configSource : String
  configHash : String
  deriving DecidableEq

/-- `raise RegistryError` unless the test holds. -/
def demand (test : Bool) (message : String) : RegistryResult Unit :=
  if test then .ok () else .error ⟨message⟩

/-- `value == 1`. -/
def equalsOne : Value → Bool
  | .int n => n = 1
  | .bool b => b
  | .float (.finite q) => q = 1
  | _ => false

/-- `Path.parts`. -/
def pathParts (path : String) : List String :=
  let segments := (path.toList.splitOn '/').filter fun part => part ≠ [] ∧ part ≠ ['.']
  let anchor :=
    match path.toList with
    | '/' :: '/' :: '/' :: _ => ["/"]
    | '/' :: '/' :: _ => ["//"]
    | '/' :: _ => ["/"]
    | _ => []
  anchor ++ segments.map String.ofList

def isAbsolute (path : String) : Bool := (pathParts path).head?.any fun part => part = "/" ∨ part = "//"

def isWithin (path root : String) : Bool := pathParts root <+: pathParts path

def requireTable (data : Members) (name source : String) : RegistryResult Members :=
  match data.get? name with
  | some (.map table) => .ok table
  | _ => .error ⟨source ++ ": missing [" ++ name ++ "] table"⟩

def requireString (table : Members) (key source : String) : RegistryResult String :=
  match table.get? key with
  | some (.str s) =>
    if Controller.strip s = "" then .error ⟨source ++ ": " ++ key ++ " must be a non-empty string"⟩
    else .ok (Controller.strip s)
  | _ => .error ⟨source ++ ": " ++ key ++ " must be a non-empty string"⟩

def requireBoolean (table : Members) (key source : String) : RegistryResult Bool :=
  match table.get? key with
  | some (.bool b) => .ok b
  | _ => .error ⟨source ++ ": " ++ key ++ " must be a boolean"⟩

def requireInteger (table : Members) (key source : String) : RegistryResult Int :=
  match table.get? key with
  | some (.int n) => .ok n
  | _ => .error ⟨source ++ ": " ++ key ++ " must be an integer"⟩

/-- `read_toml`. -/
def readToml (file : ProjectFile) : RegistryResult Members :=
  match file.data with
  | .ok data => .ok data
  | .error e => .error ⟨"Unable to parse " ++ file.source ++ ": " ++ e⟩

variable (s : Site)

/-- `validate_project`. -/
def validateProject (file : ProjectFile) : RegistryResult Project := do
  let source := file.source
  let data ← readToml file
  demand ((data.get? "schema_version").any equalsOne) (source ++ ": unsupported schema version")
  let project ← requireTable data "project" source
  let paths ← requireTable data "paths" source
  let git ← requireTable data "git" source
  let execution ← requireTable data "execution" source
  let review ← requireTable data "review" source
  let projectId ← requireString project "id" source
  demand (Controller.isProjectId projectId) (source ++ ": invalid project id " ++ s.repr projectId)
  let displayName ← requireString project "name" source
  let enabled ← requireBoolean project "enabled" source
  let policyId ← requireString project "policy" source
  demand (s.policyExists policyId) (source ++ ": missing policy " ++ s.repr policyId)
  let repo ← requireString paths "repo" source
  let repoPath := s.resolve repo
  let dataText ← requireString paths "data" source
  let dataPath := s.resolve dataText
  let workspaceRoot := s.resolve (s.root ++ "/workspaces")
  let projectDataRoot := s.resolve (s.root ++ "/project-data")
  demand (isAbsolute repoPath) (source ++ ": repo path must be absolute")
  demand (isAbsolute dataPath) (source ++ ": data path must be absolute")
  demand (isWithin repoPath workspaceRoot) (source ++ ": repo path escapes " ++ workspaceRoot)
  demand (isWithin dataPath projectDataRoot) (source ++ ": data path escapes " ++ projectDataRoot)
  let defaultBranch ← requireString git "default_branch" source
  let allowPush ← requireBoolean git "allow_push" source
  let requireClean ← requireBoolean git "require_clean" source
  demand (!allowPush) (source ++ ": automatic push is forbidden")
  let writerConcurrency ← requireInteger execution "writer_concurrency" source
  let maxParallelTasks ← requireInteger execution "max_parallel_tasks" source
  demand (writerConcurrency = 1) (source ++ ": writer_concurrency must be 1")
  demand (1 ≤ maxParallelTasks ∧ maxParallelTasks ≤ 64)
    (source ++ ": max_parallel_tasks must be between 1 and 64")
  let reviewRequired ← requireBoolean review "required" source
  demand reviewRequired (source ++ ": independent review is mandatory")
  return {
    projectId, displayName, enabled, policyId, repoPath, dataPath, defaultBranch, requireClean
    writerConcurrency, maxParallelTasks
    configSource := source
    configHash := file.configHash }

/-- The loop of `discover_projects` over the files in the order of their paths. -/
def discoverFrom : List ProjectFile → List Project → RegistryResult (List Project)
  | [], found => .ok found
  | file :: files, found => do
    let project ← validateProject s file
    demand (project.projectId ∉ found.map Project.projectId)
      ("Duplicate project id: " ++ project.projectId)
    demand (project.repoPath ∉ found.map Project.repoPath)
      ("Duplicate repository path: " ++ project.repoPath)
    discoverFrom files (found ++ [project])

/-- `discover_projects`. -/
def discoverProjects (files : List ProjectFile) : RegistryResult (List Project) := discoverFrom s files []

end HermesOps.Registry
