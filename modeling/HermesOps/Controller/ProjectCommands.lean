import HermesOps.Hermesfile.Profiles

/-! `update_project` and `command_project` of `project_commands.py` with the table `projects` of the
    migrations 001 and 021. Each is one write transaction whose checks come before its writes, so the
    reads of the checks count as one statement. What the store reads outside the database (policies,
    repositories, paths) is a parameter. The configuration files stand beside the tables: when a
    transaction raises, the code puts back the file it has replaced. -/

namespace HermesOps.ProjectCommands

open Schemes Controller.Commands
open Controller (Json Result Keys Members badRequest require strip isLowerLetter isDigit
  isProjectId quote validateIdempotencyKey)

/-! ### Tables and files -/

/-- The values of `repository_mode`. -/
inductive RepositoryMode where
  | clone | existing | initialized
  deriving DecidableEq

/-- A row of `projects`. -/
structure ProjectRow where
  displayName : String
  repoPath : String
  dataPath : String
  policyId : String
  enabled : Bool
  configSource : String
  configHash : String
  registeredAt : Time
  updatedAt : Time
  defaultBranch : String
  sandboxProfileId : Option String
  archived : Bool
  repositoryMode : RepositoryMode
  resourceRevision : Nat
  deriving DecidableEq

/-- `length` of SQLite, for which a text ends at its first NUL. -/
def sqlLength (s : String) : Nat := (s.toList.takeWhile fun ch => ch ≠ '\x00').length

/-- The `CHECK` constraints on one row. -/
def ProjectRow.check (row : ProjectRow) : Bool :=
  1 ≤ sqlLength row.defaultBranch ∧ sqlLength row.defaultBranch ≤ 255 ∧
    (row.sandboxProfileId.all fun id => 1 ≤ id.length ∧ id.length ≤ 63) ∧ 1 ≤ row.resourceRevision

/-- The comparison both triggers make of the eleven columns. -/
def resourceChanged (old new : ProjectRow) : Bool :=
  new.displayName ≠ old.displayName ∨ new.repoPath ≠ old.repoPath ∨ new.dataPath ≠ old.dataPath ∨
    new.policyId ≠ old.policyId ∨ new.enabled ≠ old.enabled ∨ new.configSource ≠ old.configSource ∨
    new.configHash ≠ old.configHash ∨ new.defaultBranch ≠ old.defaultBranch ∨
    new.sandboxProfileId ≠ old.sandboxProfileId ∨ new.archived ≠ old.archived ∨
    new.repositoryMode ≠ old.repositoryMode

/-- `project_resource_revision_guard` lets the update pass. -/
def revisionGuard (old new : ProjectRow) : Bool :=
  ¬(resourceChanged old new ∧ new.resourceRevision ≠ old.resourceRevision + 1)

/-- `project_resource_revision_stable_guard` lets the update pass. -/
def stableGuard (old new : ProjectRow) : Bool :=
  ¬(¬resourceChanged old new ∧ new.resourceRevision ≠ old.resourceRevision)

/-- What stands where a configuration file is expected. -/
inductive ConfigFile where
  | unavailable
  | irregular
  | regular (text : String)
  deriving DecidableEq

/-- What the two requests read: projects, profiles by name, the projects of the locks, runs with their
    projects, the scopes of objectives (none when the text is no JSON), and configuration files. -/
structure Content where
  projects : Table String ProjectRow
  sandboxProfiles : Table String Profiles.ProfileState
  projectLocks : List String
  runs : List (String × RunStatus)
  objectives : List (ObjectiveStatus × Option Json)
  configs : String → ConfigFile

/-- `UPDATE projects SET … WHERE project_id = ?`. -/
def Content.updateProject (c : Content) (projectId : String) (f : ProjectRow → ProjectRow) :
    Option Content :=
  match c.projects.get? projectId with
  | none => some c
  | some row =>
    if revisionGuard row (f row) ∧ stableGuard row (f row) ∧ (f row).check then
      some { c with projects := c.projects.updateAt projectId f }
    else none

/-- The file is there with this text. -/
def Content.replaceConfig (c : Content) (path text : String) : Content :=
  { c with configs := fun other => if other = path then .regular text else c.configs other }

/-! ### Surroundings -/

inductive PathKind where
  | symlink | missing | directory | other
  deriving DecidableEq

/-- The exit status of git and what it printed. -/
structure GitResult where
  returncode : Int
  stdout : String

/-- What the store calls: the data of a policy file (none when it cannot be read as a regular TOML
    file), `int` of values other than integers (none when it raises), the text of a `Path`, what stands
    at a path, and git (none when it cannot be run). -/
structure Site where
  hashing : Hashing
  policyFile : String → Option Members
  convert : Json → Option Int
  pathText : String → String
  pathKind : String → PathKind
  git : List String → Option GitResult

variable (s : Site)

/-- `int(value)`. -/
def Site.intOf (value : Json) : Option Int :=
  match value with
  | .int n => some n
  | .bool b => some (if b then 1 else 0)
  | other => s.convert other

/-- `value == 1`. -/
def isOne : Json → Bool
  | .int n => n = 1
  | .bool b => b
  | .float repr => repr = "1.0"
  | _ => false

/-- `bool(value)`. -/
def truth : Json → Bool
  | .null => false
  | .bool b => b
  | .int n => n ≠ 0
  | .float repr => repr ∉ ["0.0", "-0.0"]
  | .str text => text ≠ ""
  | .arr items => ¬items.isEmpty
  | .obj members => ¬members.isEmpty

/-! ### Checks -/

/-- A refusal. -/
def refused {α : Type} (status : Nat) (code title : String) : Result α := .error { status, code, title }

/-- `_public_text`. -/
def publicText (field : String) (maximum : Nat) (value : Json) : Result String :=
  let title := "Invalid " ++ String.ofList (field.toList.map fun ch => if ch = '_' then ' ' else ch)
  match value with
  | .str text =>
    let normalized := strip text
    if normalized = "" ∨ normalized.length > maximum ∨
        normalized.toList.any (fun ch => ch.toNat < 32 ∨ ch.toNat = 127) then
      refused 400 ("invalid_" ++ field) title
    else .ok normalized
  | _ => refused 400 ("invalid_" ++ field) title

/-- `SAFE_BRANCH_PATTERN`. -/
def isSafeBranch (branch : String) : Bool :=
  branch.toList.head?.any Char.isAlphanum ∧ branch.length ≤ 255 ∧
    branch.toList.all fun ch => ch.isAlphanum || ch ∈ ['.', '_', '/', '-']

/-- The further tests of `_validate_branch`. -/
def badBranch (branch : String) : Bool :=
  "-".toList <+: branch.toList ∨ ".".toList <:+ branch.toList ∨ "..".toList <:+: branch.toList ∨
    "//".toList <:+: branch.toList ∨ "@\x7b".toList <:+: branch.toList ∨ "/".toList <:+ branch.toList ∨
    ".lock".toList <:+ branch.toList ∨
    branch.toList.any fun ch => ch ∈ ['\\', ' ', '~', '^', ':', '?', '*', '[']

/-- `_validate_branch`. -/
def validateBranch (value : Json) : Result String := do
  let branch ← publicText "default_branch" 255 value
  if ¬isSafeBranch branch ∨ badBranch branch then
    refused 400 "invalid_default_branch" "Invalid default branch"
  else return branch

/-- `POLICY_ID_PATTERN`. -/
def isPolicyId (id : String) : Bool :=
  id.toList.head?.any isLowerLetter ∧ id.length ≤ 63 ∧
    id.toList.all fun ch => isLowerLetter ch || isDigit ch || ch = '-'

def policyInvalid : Controller.ControllerError :=
  { status := 503, code := "policy_invalid", title := "Project policy is invalid" }

/-- `_policy`. -/
def Site.policy (value : Json) : Result (String × Members) :=
  match value with
  | .str id =>
    if isPolicyId id then
      match s.policyFile id with
      | none => refused 400 "policy_not_found" "Project policy not found"
      | some data =>
        match data.get? "policy_id" with
        | some (.str stored) =>
          if (data.get? "schema_version").any isOne ∧ stored = id then .ok (id, data)
          else .error policyInvalid
        | _ => .error policyInvalid
    else refused 400 "invalid_policy_id" "Invalid policy identifier"
  | _ => refused 400 "invalid_policy_id" "Invalid policy identifier"

/-- `_sandbox_profile`. -/
def Content.sandboxProfile (c : Content) (value : Json) : Result (Option String) :=
  match value with
  | .null => .ok none
  | .str name =>
    if Hermesfile.namePattern.fullMatch name then
      match c.sandboxProfiles.get? name with
      | none => refused 404 "sandbox_profile_not_found" "Sandbox profile not found"
      | some state =>
        if state = .archived then
          refused 409 "sandbox_profile_archived" "Sandbox profile is archived"
        else .ok (some name)
    else refused 400 "invalid_sandbox_profile_id" "Invalid sandbox profile identifier"
  | _ => refused 400 "invalid_sandbox_profile_id" "Invalid sandbox profile identifier"

/-- `_assert_directory` of a path that must exist. -/
def Site.assertDirectory (path : String) : Result Unit :=
  match s.pathKind path with
  | .directory => .ok ()
  | .missing => refused 409 "project_repository_missing" "Project repository is missing"
  | .symlink | .other => refused 409 "unsafe_project_path" "Project path is unsafe"

/-- `_run_git`. -/
def Site.runGit (arguments : List String) : Result GitResult :=
  match s.git arguments with
  | some result => .ok result
  | none => refused 503 "git_unavailable" "Git operation is unavailable"

/-- `_validate_repository`: whether the repository is clean. -/
def Site.validateRepository (path branch : String) (requireClean : Bool) : Result Bool := do
  let inside ← s.runGit ["-C", path, "rev-parse", "--is-inside-work-tree"]
  require (inside.returncode = 0 ∧ strip inside.stdout = "true") repositoryInvalid
  let bare ← s.runGit ["-C", path, "rev-parse", "--is-bare-repository"]
  require (bare.returncode = 0 ∧ strip bare.stdout = "false") repositoryInvalid
  let branchCheck ← s.runGit ["check-ref-format", "--branch", branch]
  require (branchCheck.returncode = 0)
    (badRequest "invalid_default_branch" "Invalid default branch")
  let refs ← s.runGit ["-C", path, "show-ref", "--verify", "--quiet", "refs/heads/" ++ branch]
  let unborn ← s.runGit ["-C", path, "symbolic-ref", "--quiet", "--short", "HEAD"]
  require (refs.returncode = 0 ∨ (unborn.returncode = 0 ∧ strip unborn.stdout = branch))
    { status := 409, code := "default_branch_missing", title := "Default branch is missing" }
  let status ← s.runGit ["-C", path, "status", "--porcelain=v1", "--untracked-files=all"]
  require (status.returncode = 0)
    { status := 409, code := "repository_status_unavailable", title := "Repository status is unavailable" }
  let dirty : Bool := status.stdout ≠ ""
  require (¬(requireClean ∧ dirty))
    { status := 409, code := "repository_dirty", title := "Project repository is not clean" }
  return !dirty
where
  repositoryInvalid : Controller.ControllerError :=
    { status := 409, code := "repository_invalid", title := "Project repository is invalid" }

/-- `_read_regular`; the bytes are kept to restore the file. -/
def Content.readRegular (c : Content) (path : String) : Result String :=
  match c.configs path with
  | .unavailable => refused 409 "project_config_unavailable" "Project configuration is unavailable"
  | .irregular => refused 409 "project_config_unsafe" "Project configuration is unsafe"
  | .regular text => .ok text

def activeRunStates : List RunStatus :=
  [.queued, .snapshotting, .running, .reviewing, .waitingHuman, .committing, .recovering]

/-- The text is an element of the list. -/
def hasText (id : String) : Json → Bool
  | .arr items => items.any fun item => match item with
    | .str text => text = id
    | _ => false
  | _ => false

/-- The loop of `_active_work` over the objectives that have not ended, all of them active. -/
def inScope (projectId : String) : List (Option Json) → Result Bool
  | [] => .ok false
  | none :: _ => refused 503 "objective_projection_invalid" "Objective projection unavailable"
  | some scope :: rest => if hasText projectId scope then .ok true else inScope projectId rest

/-- `_active_work`. -/
def Content.activeWork (c : Content) (projectId : String) : Result Bool :=
  if projectId ∈ c.projectLocks then .ok true
  else if c.runs.any fun x => x.1 = projectId ∧ x.2 ∈ activeRunStates then .ok true
  else inScope projectId ((c.objectives.filter fun x => ¬x.1.isTerminal).map Prod.snd)

/-- `_validate_reason_body`: whether there is a reason. -/
def validateReasonBody (body : Members) : Result Bool := do
  require (body.all fun x => x.1 = "reason") (badRequest "unknown_field" "Unknown request field")
  match body.get? "reason" with
  | none | some .null => return false
  | some (.str reason) =>
    require (strip reason ≠ "" ∧ reason.length ≤ 1000)
      (badRequest "invalid_reason" "Invalid command reason")
    return true
  | some _ => .error (badRequest "invalid_reason" "Invalid command reason")

/-! ### The configuration file -/

def maxConfigBytes : Nat := 128 * 1024

def maxNameLength : Nat := 120

/-- The arguments of `_render_config` besides the policy. -/
structure ConfigData where
  projectId : String
  name : String
  enabled : Bool
  policyId : String
  repoPath : String
  dataPath : String
  defaultBranch : String

/-- The text of a configuration; `_toml_string` writes a string as JSON does. -/
def configText (d : ConfigData) (maxParallelTasks : Int) : String :=
  "schema_version = 1\n\n[project]\nid = " ++ quote d.projectId ++ "\nname = " ++ quote d.name ++
    "\nenabled = " ++ (if d.enabled then "true" else "false") ++ "\npolicy = " ++ quote d.policyId ++
    "\n\n[paths]\nrepo = " ++ quote d.repoPath ++ "\ndata = " ++ quote d.dataPath ++
    "\n\n[git]\ndefault_branch = " ++ quote d.defaultBranch ++
    "\nallow_push = false\nrequire_clean = true\n\n[execution]\nwriter_concurrency = 1\n" ++
    "max_parallel_tasks = " ++ toString maxParallelTasks ++ "\n\n[review]\nrequired = true\n"

/-- A table of the policy; what is no table counts as an empty one. -/
def subtable (policy : Members) (key : String) : Members :=
  match policy.get? key with
  | some (.obj members) => members
  | _ => []

/-- `_render_config`. -/
def Site.renderConfig (d : ConfigData) (policy : Members) : Except Failure String :=
  let execution := subtable policy "execution"
  let review := subtable policy "review"
  match s.intOf ((execution.get? "writer_concurrency").getD (.int 1)),
    s.intOf ((execution.get? "max_parallel_tasks").getD (.int 3)) with
  | some writerConcurrency, some maxParallelTasks =>
    let reviewRequired := truth ((review.get? "required").getD (.bool true))
    if writerConcurrency ≠ 1 ∨ ¬(1 ≤ maxParallelTasks ∧ maxParallelTasks ≤ 64) ∨ ¬reviewRequired then
      .error (.controller policyInvalid)
    else
      let text := configText d maxParallelTasks
      if text.utf8ByteSize > maxConfigBytes then
        .error (.controller
          { status := 500, code := "project_config_too_large"
            title := "Project configuration is too large" })
      else .ok text
  | _, _ => .error .uncaught

/-- `_project_row`. -/
def Content.projectRow (c : Content) (projectId : String) : Result ProjectRow :=
  match c.projects.get? projectId with
  | some row => .ok row
  | none => refused 404 "project_not_found" "Project not found"

/-- `_project_state`. -/
def stateText (archived enabled : Bool) : String :=
  if archived then "archived" else if enabled then "enabled" else "disabled"

def revisionConflict : Controller.ControllerError :=
  { status := 409, code := "resource_revision_conflict", title := "Project revision conflict" }

def projectArchived : Controller.ControllerError :=
  { status := 409, code := "project_archived", title := "Project is archived" }

/-- A check that raises a `ControllerError`. -/
def controller {α : Type} (r : Result α) : Except Failure α := r.mapError Failure.controller

/-! ### Writing -/

def naming : Naming where
  keyLabel := "hermesops-project-idempotency-v1\x00"
  resourceType := "project"
  aggregateType := "project"

/-- A request on a project behind authentication. -/
structure ProjectRequest where
  base : Request
  projectId : String
  ifMatch : Option String
  /-- Whether `_atomic_replace` succeeds. -/
  writable : Bool

/-- The new file and then the new row; SQLite refuses to bind an integer of more than 64 bits. -/
def writeProject (r : ProjectRequest) (path config : String) (f : ProjectRow → ProjectRow)
    (revision : Nat) : Command Content Unit := do
  .ensure r.writable .file
  execute fun t => some { t with content := t.content.replaceConfig path config }
  .ensure (revision < 2 ^ 63) .uncaught
  execute fun t => (t.content.updateProject r.projectId f).map fun content => { t with content }

def commandKinds : List String :=
  [ "project.create", "project.update", "project.enable", "project.disable", "project.rescan",
    "project.archive" ]

/-- The records of the request; the table of operations constrains the kind and the target, which is
    spelled as `PROJECT_ID_PATTERN` says. -/
def concludeProject (o : Report) (keys : Keys) (d : Draws) : Command Content (Json × String) := do
  .ensure (o.kind ∈ commandKinds ∧ isProjectId o.targetId) .integrity
  conclude s.hashing naming o keys d

/-- `_validate_slug`. -/
def validateSlug (projectId : String) : Result String :=
  if isProjectId projectId then .ok projectId
  else refused 400 "invalid_project_id" "Invalid project identifier"

/-! ### The arguments of `create_project` -/

/-- What `urlsplit` returns. -/
structure SplitUrl where
  scheme : String
  hostname : Option String
  username : Option String
  password : Option String
  fragment : String

/-- The two roots, and `urlsplit` (none when it raises). -/
structure Roots where
  workspaceRoot : String
  dataRoot : String
  urlsplit : String → Option SplitUrl

def maxUrlLength : Nat := 2048

/-- `valid_https`. -/
def SplitUrl.isHttps (u : SplitUrl) : Bool :=
  u.scheme = "https" ∧ u.hostname.isSome ∧ u.username.isNone ∧ u.password.isNone ∧ u.fragment = ""

/-- `valid_ssh`. -/
def SplitUrl.isSsh (u : SplitUrl) : Bool :=
  u.scheme = "ssh" ∧ u.hostname.isSome ∧ u.password.isNone ∧ u.fragment = ""

/-- `valid_scp`: a user, a host and a path. -/
def isScp (url : String) : Bool :=
  match url.toList.span (· ≠ '@') with
  | (user, _ :: rest) =>
    match rest.span (· ≠ ':') with
    | (host, _ :: path) =>
      user ≠ [] ∧ (user.all fun ch => ch.isAlphanum || ch ∈ ['.', '_', '-']) ∧
        host ≠ [] ∧ (host.all fun ch => ch.isAlphanum || ch ∈ ['.', '-']) ∧
        path ≠ [] ∧ path.all fun ch => ch.isAlphanum || ch ∈ ['.', '_', '~', '/', '-']
    | _ => false
  | _ => false

/-- `_repository_url`. -/
def Roots.repositoryUrl (roots : Roots) (value : Json) (mode : String) : Except Failure (Option String) :=
  if mode ≠ "clone" then
    match value with
    | .null => .ok none
    | _ => controller (refused 400 "repository_url_not_allowed" "Repository URL is not allowed")
  else
    match value with
    | .str text =>
      let url := strip text
      if url = "" ∨ url.length > maxUrlLength ∨
          url.toList.any (fun ch => ch.toNat < 32 ∨ ch.toNat = 127) then
        controller (refused 400 "invalid_repository_url" "Invalid repository URL")
      else
        match roots.urlsplit url with
        | none => .error .uncaught
        | some parsed =>
          if parsed.isHttps ∨ parsed.isSsh ∨ isScp url then .ok (some url)
          else controller (refused 400 "invalid_repository_url" "Invalid repository URL")
    | _ => controller (refused 400 "repository_url_required" "Repository URL is required")

/-- `set(value) == fields`. -/
def hasFields (value : Members) (fields : List String) : Bool :=
  (value.all fun x => x.1 ∈ fields) ∧ fields.all fun key => (value.get? key).isSome

/-- `mode not in {…}`; a list or an object cannot be looked up. -/
def checkMode (value : Json) : Except Failure String :=
  match value with
  | .arr _ | .obj _ => .error .uncaught
  | .str mode =>
    if mode ∈ ["clone", "existing", "initialize"] then .ok mode
    else controller (refused 400 "invalid_repository_mode" "Invalid repository mode")
  | _ => controller (refused 400 "invalid_repository_mode" "Invalid repository mode")

/-- `_validate_slug` of a member of the body. -/
def checkSlug (value : Json) : Result String :=
  match value with
  | .str projectId => validateSlug projectId
  | _ => refused 400 "invalid_project_id" "Invalid project identifier"

/-- What `create_project` makes of its body before it prepares the repository: the arguments of
    `_render_config`. -/
def checkCreateBody (roots : Roots) (body : Members) : Except Failure (ConfigData × Members) := do
  let member (value : Members) (key : String) : Json := (value.get? key).getD .null
  controller (require (hasFields body ["name", "slug", "repository", "policy_id", "sandbox_profile_id"])
    (badRequest "invalid_project_create" "Invalid project creation request"))
  let projectId ← controller (checkSlug (member body "slug"))
  let name ← controller (publicText "project_name" maxNameLength (member body "name"))
  let repository ← controller <|
    match member body "repository" with
    | .obj repository =>
      if hasFields repository ["mode", "url", "default_branch"] then .ok repository
      else refused 400 "invalid_repository" "Invalid repository request"
    | _ => refused 400 "invalid_repository" "Invalid repository request"
  let mode ← checkMode (member repository "mode")
  let branch ← controller (validateBranch (member repository "default_branch"))
  let _ ← roots.repositoryUrl (member repository "url") mode
  let (policyId, policy) ← controller (s.policy (member body "policy_id"))
  return (⟨projectId, name, false, policyId, roots.workspaceRoot ++ "/" ++ projectId,
    roots.dataRoot ++ "/" ++ projectId, branch⟩, policy)

/-! ### `update_project` -/

def updateFields : List String := ["name", "policy_id", "sandbox_profile_id"]

/-- The checks before the transaction: the key and the expected revision. -/
def checkUpdateArguments (r : ProjectRequest) : Result (String × Nat) := do
  let key ← validateIdempotencyKey r.base.key
  let _ ← validateSlug r.projectId
  let revision ← parseIfMatch r.ifMatch
  require (¬r.base.body.isEmpty ∧ r.base.body.all fun x => x.1 ∈ updateFields)
    (badRequest "invalid_project_update" "Invalid project update request")
  return (key, revision)

/-- What the checks inside the transaction yield. -/
structure UpdateData where
  row : ProjectRow
  name : String
  policyId : String
  sandboxProfile : Option String
  config : String

/-- The checks inside the transaction. -/
def checkUpdate (r : ProjectRequest) (expected : Nat) (c : Content) : Except Failure UpdateData := do
  let row ← controller (c.projectRow r.projectId)
  controller (require (row.resourceRevision = expected) revisionConflict)
  controller (require (¬row.archived) projectArchived)
  let name ← controller <|
    match r.base.body.get? "name" with
    | some value => publicText "project_name" maxNameLength value
    | none => .ok row.displayName
  let (policyId, policy) ←
    controller (s.policy ((r.base.body.get? "policy_id").getD (.str row.policyId)))
  let sandboxProfile ← controller <|
    match r.base.body.get? "sandbox_profile_id" with
    | some value => c.sandboxProfile value
    | none => .ok row.sandboxProfileId
  let _ ← controller (c.readRegular (s.pathText row.configSource))
  let config ← s.renderConfig ⟨r.projectId, name, row.enabled, policyId, s.pathText row.repoPath,
    s.pathText row.dataPath, row.defaultBranch⟩ policy
  return ⟨row, name, policyId, sandboxProfile, config⟩

/-- The columns that the update sets. -/
def UpdateData.columns (u : UpdateData) (now : Time) (row : ProjectRow) : ProjectRow :=
  { row with
    displayName := u.name
    policyId := u.policyId
    sandboxProfileId := u.sandboxProfile
    configHash := s.hashing.sha256 u.config
    updatedAt := now
    resourceRevision := u.row.resourceRevision + 1 }

def UpdateData.report (u : UpdateData) (r : ProjectRequest) : Report where
  kind := "project.update"
  eventType := "project.updated"
  targetId := r.projectId
  projectId := some r.projectId
  result := [
    ("project_id", .str r.projectId),
    ("resource_revision", .int (u.row.resourceRevision + 1 : Nat)),
    ("state", .str (stateText u.row.archived u.row.enabled))]
  data := [("fields", .arr (r.base.body.map fun x => .str x.1))]
  reason := some false
  revision := u.row.resourceRevision + 1

def updateWork (r : ProjectRequest) (expected : Nat) (keys : Keys) : Command Content (Json × String) := do
  let u ← .statement .database fun t => (checkUpdate s r expected t.content).map fun u => (u, t)
  writeProject r (s.pathText u.row.configSource) u.config (u.columns s r.base.draws.now)
    (u.row.resourceRevision + 1)
  concludeProject s (u.report r) keys r.base.draws

/-- A request in its transaction, once its arguments are checked; an accepted one ends with 202. -/
def transact (method : String) (r : ProjectRequest) (arguments : Result (String × Nat))
    (work : Nat → Keys → Command Content (Json × String)) (t : Ledger Content) :
    Except Failure (Nat × Json) × Ledger Content :=
  match arguments with
  | .error e => (.error (.controller e), t)
  | .ok (key, revision) =>
    let (result, t) := Txn.atomically r.base.draws.failsAfter
      (answer s.hashing naming method r.base key (work revision)) t
    (result.map fun payload => (202, payload), t)

/-- `update_project`. -/
def updateProject (r : ProjectRequest) : Ledger Content → Except Failure (Nat × Json) × Ledger Content :=
  transact s "PATCH" r (checkUpdateArguments r) (updateWork s r)

/-! ### `command_project` -/

inductive ProjectCommand where
  | enable | disable | rescan | archive
  deriving DecidableEq

def ProjectCommand.text : ProjectCommand → String
  | .enable => "enable"
  | .disable => "disable"
  | .rescan => "rescan"
  | .archive => "archive"

/-- The last segment of the route; nothing is an unavailable command. -/
def ProjectCommand.parse (text : String) : Option ProjectCommand :=
  [enable, disable, rescan, archive].find? fun command => command.text = text

/-- The event type of a command. -/
def ProjectCommand.eventType : ProjectCommand → String
  | .enable => "project.enabled"
  | .disable => "project.disabled"
  | .archive => "project.archived"
  | .rescan => "project.rescanned"

/-- `enabled` after the command. -/
def ProjectCommand.enabled (command : ProjectCommand) (row : ProjectRow) : Bool :=
  match command with
  | .enable => true
  | .disable | .archive => false
  | .rescan => row.enabled

/-- `archived` after the command. -/
def ProjectCommand.archived (command : ProjectCommand) (row : ProjectRow) : Bool :=
  match command with
  | .archive => true
  | _ => row.archived

def commandUnavailable : Controller.ControllerError where
  status := 409
  code := "project_command_unavailable"
  title := "Project command unavailable"
  detail := some
    "Project delete and remote/default-branch mutation are unavailable in milestone 2S."

/-- The checks before the transaction: the key, the expected revision, the command, and whether there
    is a reason. -/
def checkCommandArguments (r : ProjectRequest) (text : String) :
    Result ((String × Nat) × ProjectCommand × Bool) := do
  let key ← validateIdempotencyKey r.base.key
  let _ ← validateSlug r.projectId
  let revision ← parseIfMatch r.ifMatch
  match ProjectCommand.parse text with
  | none => .error commandUnavailable
  | some command =>
    let reason ← validateReasonBody r.base.body
    return ((key, revision), command, reason)

/-- What the checks inside the transaction yield. -/
structure CommandData where
  row : ProjectRow
  clean : Bool
  config : String

/-- The checks inside the transaction. -/
def checkCommand (r : ProjectRequest) (command : ProjectCommand) (expected : Nat) (c : Content) :
    Except Failure CommandData := do
  let row ← controller (c.projectRow r.projectId)
  controller (require (row.resourceRevision = expected) revisionConflict)
  controller (require (¬(row.archived ∧ command ≠ .rescan)) projectArchived)
  let active ← controller <|
    if command ∈ [.disable, .archive] then c.activeWork r.projectId else .ok false
  controller (require (¬active)
    { status := 409, code := "project_has_active_work", title := "Project has active work" })
  controller (s.assertDirectory (s.pathText row.repoPath))
  let clean ← controller (s.validateRepository (s.pathText row.repoPath) row.defaultBranch
    (command ∈ [.enable, .rescan]))
  let _ ← controller (c.readRegular (s.pathText row.configSource))
  let (policyId, policy) ← controller (s.policy (.str row.policyId))
  let config ← s.renderConfig ⟨r.projectId, row.displayName, command.enabled row, policyId,
    s.pathText row.repoPath, s.pathText row.dataPath, row.defaultBranch⟩ policy
  return ⟨row, clean, config⟩

/-- `changed`. -/
def CommandData.changed (x : CommandData) (command : ProjectCommand) : Bool :=
  command.enabled x.row ≠ x.row.enabled ∨ command.archived x.row ≠ x.row.archived ∨
    s.hashing.sha256 x.config ≠ x.row.configHash

def CommandData.newRevision (x : CommandData) (command : ProjectCommand) : Nat :=
  x.row.resourceRevision + if x.changed s command then 1 else 0

/-- The columns that the command sets. -/
def CommandData.columns (x : CommandData) (command : ProjectCommand) (now : Time) (row : ProjectRow) :
    ProjectRow :=
  { row with
    enabled := command.enabled x.row
    archived := command.archived x.row
    configHash := s.hashing.sha256 x.config
    updatedAt := now
    resourceRevision := x.newRevision s command }

def CommandData.report (x : CommandData) (r : ProjectRequest) (command : ProjectCommand)
    (reason : Bool) : Report where
  kind := "project." ++ command.text
  eventType := command.eventType
  targetId := r.projectId
  projectId := some r.projectId
  result := [
    ("project_id", .str r.projectId),
    ("repository_clean", .bool x.clean),
    ("resource_revision", .int (x.newRevision s command)),
    ("state", .str (stateText (command.archived x.row) (command.enabled x.row)))]
  data := [
    ("new_state", .str (stateText (command.archived x.row) (command.enabled x.row))),
    ("old_state", .str (stateText x.row.archived x.row.enabled)),
    ("reason_present", .bool reason)]
  reason := some reason
  revision := x.newRevision s command

def commandWork (r : ProjectRequest) (command : ProjectCommand) (reason : Bool) (expected : Nat)
    (keys : Keys) : Command Content (Json × String) := do
  let x ← .statement .database fun t =>
    (checkCommand s r command expected t.content).map fun x => (x, t)
  if x.changed s command then
    writeProject r (s.pathText x.row.configSource) x.config (x.columns s command r.base.draws.now)
      (x.newRevision s command)
    concludeProject s (x.report s r command reason) keys r.base.draws
  else concludeProject s (x.report s r command reason) keys r.base.draws

/-- `command_project`. -/
def commandProject (r : ProjectRequest) (text : String) (t : Ledger Content) :
    Except Failure (Nat × Json) × Ledger Content :=
  match checkCommandArguments r text with
  | .error e => (.error (.controller e), t)
  | .ok (arguments, command, reason) =>
    transact s "POST" r (.ok arguments) (commandWork s r command reason) t

end HermesOps.ProjectCommands
