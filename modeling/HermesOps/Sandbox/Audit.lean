import Mathlib.Data.List.Sort
import HermesOps.Schemes.RootedPath
import Mathlib.Data.List.Infix

/-! `audit_sandbox` of `hermesops-worker.py` and `audit_reviewer_sandbox` of `hermesops-reviewer.py`. The two
    make the same tests in the same order; they differ in the texts of their refusals and in whether the
    workspace has to be writable. What `docker inspect` says is a document with Docker's types, an absent
    list as an empty one. -/

namespace HermesOps.Sandbox

open Schemes

inductive Role where
  | worker
  | reviewer
  deriving DecidableEq

/-- An entry of `Mounts`. -/
structure Mount where
  source : String
  destination : String
  rw : Bool
  deriving DecidableEq

/-- The parts of a `docker inspect` document that say what the container may do. -/
structure Document where
  id : String
  image : String
  status : String
  labels : List (String × String)
  mounts : List Mount
  networkMode : String
  networks : List String
  memory : Int
  nanoCpus : Int
  pidsLimit : Option Int
  privileged : Bool
  securityOpt : List String
  capAdd : List String
  capDrop : List String
  user : String
  env : List String

/-- `ROOT`, a resolved path. -/
structure Root where
  names : List (List Char)
  valid : ∀ n ∈ names, RootedPath.IsName n

/-- `str(ROOT / …)`. -/
def Root.join (root : Root) (names : List (List Char)) : String :=
  String.ofList (RootedPath.render (root.names ++ names))

/-- `str.upper`: what it makes of a character. On ASCII it is the usual mapping. -/
structure Casing where
  upperChar : Char → List Char
  ascii : ∀ c, c.toNat < 128 → upperChar c = [c.toUpper]

def Casing.upper (casing : Casing) (text : String) : String :=
  String.ofList (text.toList.flatMap casing.upperChar)

/-- The root, `str(Path(text).resolve())`, `str.upper`, `repr` of a text and of a list of texts. -/
structure Host where
  root : Root
  resolve : String → String
  casing : Casing
  repr : String → String
  reprList : List String → String

/-- `FORBIDDEN_MOUNT_SOURCES`. -/
def forbiddenMountSources (root : Root) : List String :=
  [root.join ["secrets".toList], root.join ["state".toList, "hermes-home".toList],
    "/var/run/docker.sock", "/run/hermes-docker"]

/-- `FORBIDDEN_MOUNT_DESTINATIONS`. -/
def forbiddenMountDestinations : List String :=
  ["/var/run/docker.sock", "/run/hermes-docker/docker.sock"]

/-- `SENSITIVE_ENV_FRAGMENTS`. -/
def sensitiveEnvFragments : List String :=
  ["OPENAI", "CODEX", "API_SERVER_KEY", "WEBUI_PASSWORD", "TELEGRAM_BOT_TOKEN"]

/-- What the audit is called with. -/
structure Grant where
  containerId : String
  taskId : String
  runtimeRequestId : String
  clone : String
  imageId : String
  cpuLimit : Int
  memoryMb : Int

/-- Why the audit fails. -/
inductive Refusal where
  | disappeared (containerId : String)
  | identity
  | ownerLabel
  | taskBinding
  | requestBinding
  | notRunning
  | image (found : String)
  | workspaceCount
  | workspaceSource
  | workspaceMode
  | mountSource (source : String)
  | mountDestination (destination : String)
  | networkMode (found : String)
  | attachedNetwork
  | memory (actual expected : Int)
  | cpu (actual expected : Int)
  | pids
  | privileged
  | newPrivileges
  | capabilities
  | user (repr : String)
  | environment (repr : String)
  deriving DecidableEq

/-- The texts of `hermesops-worker.py`. -/
def Refusal.workerText : Refusal → String
  | .disappeared containerId => "Sandbox disappeared before audit: " ++ containerId
  | .identity => "Sandbox identity changed before audit"
  | .ownerLabel => "Sandbox owner label mismatch"
  | .taskBinding => "Sandbox task binding mismatch"
  | .requestBinding => "Sandbox request binding mismatch"
  | .notRunning => "Sandbox is not running"
  | .image found => "Unexpected sandbox image: " ++ found
  | .workspaceCount => "Exactly one /workspace mount is required"
  | .workspaceSource => "Sandbox /workspace does not reference worker clone"
  | .workspaceMode => "Worker workspace is not writable"
  | .mountSource source => "Forbidden sandbox mount source: " ++ source
  | .mountDestination destination => "Forbidden sandbox destination: " ++ destination
  | .networkMode found => "Sandbox network is not disabled: " ++ found
  | .attachedNetwork => "Sandbox has an attached network"
  | .memory actual expected => s!"Sandbox memory mismatch: {actual} != {expected}"
  | .cpu actual expected => s!"Sandbox CPU mismatch: {actual} != {expected}"
  | .pids => "Sandbox PID limit mismatch"
  | .privileged => "Sandbox is privileged"
  | .newPrivileges => "no-new-privileges is absent"
  | .capabilities => "cap-drop ALL is absent"
  | .user repr => "Unexpected sandbox user: " ++ repr
  | .environment repr => "Sensitive environment names reached the sandbox: " ++ repr

/-- The texts of `hermesops-reviewer.py`. -/
def Refusal.reviewerText : Refusal → String
  | .disappeared containerId => "Reviewer sandbox disappeared before audit: " ++ containerId
  | .identity => "Reviewer sandbox identity changed before audit"
  | .ownerLabel => "Reviewer sandbox owner label mismatch"
  | .taskBinding => "Reviewer sandbox task binding mismatch"
  | .requestBinding => "Reviewer sandbox request binding mismatch"
  | .notRunning => "Reviewer sandbox is not running"
  | .image found => "Unexpected reviewer sandbox image: " ++ found
  | .workspaceCount => "Exactly one reviewer /workspace mount is required"
  | .workspaceSource => "Reviewer /workspace does not reference reviewer clone"
  | .workspaceMode => "Reviewer workspace is writable"
  | .mountSource source => "Forbidden reviewer mount source: " ++ source
  | .mountDestination destination => "Forbidden reviewer destination: " ++ destination
  | .networkMode found => "Reviewer network is not disabled: " ++ found
  | .attachedNetwork => "Reviewer sandbox has an attached network"
  | .memory actual expected => s!"Reviewer memory mismatch: {actual} != {expected}"
  | .cpu actual expected => s!"Reviewer CPU mismatch: {actual} != {expected}"
  | .pids => "Reviewer PID limit mismatch"
  | .privileged => "Reviewer sandbox is privileged"
  | .newPrivileges => "Reviewer no-new-privileges is absent"
  | .capabilities => "Reviewer cap-drop ALL is absent"
  | .user repr => "Unexpected reviewer user: " ++ repr
  | .environment repr => "Sensitive environment names reached reviewer sandbox: " ++ repr

def Refusal.text : Role → Refusal → String
  | .worker => workerText
  | .reviewer => reviewerText

abbrev AuditResult := Except Refusal

/-- `fail(…)` unless the test holds. -/
def require (test : Bool) (refusal : Refusal) : AuditResult Unit :=
  if test then .ok () else .error refusal

def startsWith (text head : String) : Bool := head.toList <+: text.toList

/-- One of the forbidden sources, or what begins with one and `/`. -/
def forbiddenSource (root : Root) (source : String) : Bool :=
  (forbiddenMountSources root).any fun forbidden =>
    source = forbidden ∨ startsWith source (forbidden ++ "/")

/-- The entry contains one of the fragments once it is in upper case. -/
def sensitiveEntry (casing : Casing) (entry : String) : Bool :=
  sensitiveEnvFragments.any fun fragment => fragment.toList <:+: (casing.upper entry).toList

def Role.writable : Role → Bool
  | .worker => true
  | .reviewer => false

/-- What the audit returns. -/
structure Audit where
  containerId : String
  owner : String
  taskId : String
  runtimeRequestId : String
  state : String
  image : String
  workspaceSource : String
  workspaceRw : Bool
  networkMode : String
  memoryBytes : Int
  nanoCpus : Int
  pidsLimit : Option Int
  privileged : Bool
  attachedNetworks : List String
  user : String
  securityOptions : List String
  capDrop : List String
  mounts : List Mount
  sensitiveEnvCount : Nat
  /-- The reviewer's audit alone has `read_only_verified`. -/
  readOnlyVerified : Option Bool
  deriving DecidableEq

variable (host : Host) (role : Role) (grant : Grant)

/-- The only workspace mount. -/
def auditWorkspace (d : Document) : AuditResult Mount :=
  match d.mounts.filter fun mount => mount.destination = "/workspace" with
  | [workspace] => do
    require (host.resolve workspace.source = host.resolve grant.clone) .workspaceSource
    require (workspace.rw = role.writable) .workspaceMode
    return workspace
  | _ => .error .workspaceCount

def auditMount (mount : Mount) : AuditResult Unit := do
  require (!forbiddenSource host.root mount.source) (.mountSource mount.source)
  require (mount.destination ∉ forbiddenMountDestinations) (.mountDestination mount.destination)

/-- What follows the retries. -/
def auditDocument (d : Document) : AuditResult Audit := do
  require (d.id = grant.containerId) .identity
  require (d.labels.lookup "hermesops-sandbox" = some "1") .ownerLabel
  require (d.labels.lookup "hermesops-task-id" = some grant.taskId) .taskBinding
  require (d.labels.lookup "hermesops-runtime-request-id" = some grant.runtimeRequestId) .requestBinding
  require (d.status = "running") .notRunning
  require (d.image = grant.imageId) (.image d.image)
  let workspace ← auditWorkspace host role grant d
  d.mounts.forM (auditMount host)
  require (d.networkMode = "none") (.networkMode d.networkMode)
  require (d.networks.all fun network => network = "none") .attachedNetwork
  let expectedMemory := grant.memoryMb * 1024 * 1024
  require (d.memory = expectedMemory) (.memory d.memory expectedMemory)
  let expectedCpu := grant.cpuLimit * 1000000000
  require (d.nanoCpus = expectedCpu) (.cpu d.nanoCpus expectedCpu)
  require (d.pidsLimit.getD 0 = 256) .pids
  require (!d.privileged) .privileged
  require (d.securityOpt.any fun value => startsWith value "no-new-privileges") .newPrivileges
  let capDrop := d.capDrop.map host.casing.upper
  require ("ALL" ∈ capDrop) .capabilities
  require (d.user ∈ ["1000", "1000:1000"]) (.user (host.repr d.user))
  let sensitiveEntries := d.env.filter (sensitiveEntry host.casing)
  require (sensitiveEntries = []) (.environment (host.reprList sensitiveEntries))
  return {
    containerId := grant.containerId
    owner := "hermesops-sandbox=1"
    taskId := grant.taskId
    runtimeRequestId := grant.runtimeRequestId
    state := "running"
    image := d.image
    workspaceSource := workspace.source
    workspaceRw := workspace.rw
    networkMode := d.networkMode
    memoryBytes := d.memory
    nanoCpus := d.nanoCpus
    pidsLimit := d.pidsLimit
    privileged := false
    attachedNetworks := []
    user := d.user
    securityOptions := d.securityOpt
    capDrop := capDrop.dedup.insertionSort (· ≤ ·)
    mounts := d.mounts
    sensitiveEnvCount := 0
    readOnlyVerified := if role = .reviewer then some true else none }

/-- The first of twenty inspections that finds the container. -/
def firstFound (inspect : Nat → Option Document) : Option Document := (List.range 20).findSome? inspect

def audit (inspect : Nat → Option Document) : AuditResult Audit :=
  match firstFound inspect with
  | none => .error (.disappeared grant.containerId)
  | some d => auditDocument host role grant d

/-- `audit_sandbox`; the error is the text of the `WorkerError`. -/
def auditSandbox (inspect : Nat → Option Document) : Except String Audit :=
  (audit host .worker grant inspect).mapError (Refusal.text .worker)

/-- `audit_reviewer_sandbox`; the error is the text of the `ReviewerError`. -/
def auditReviewerSandbox (inspect : Nat → Option Document) : Except String Audit :=
  (audit host .reviewer grant inspect).mapError (Refusal.text .reviewer)

/-- The audit of a role's sandbox. -/
def auditAs (inspect : Nat → Option Document) : Except String Audit :=
  match role with
  | .worker => auditSandbox host grant inspect
  | .reviewer => auditReviewerSandbox host grant inspect

end HermesOps.Sandbox
