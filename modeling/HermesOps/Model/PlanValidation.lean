import Mathlib.Data.String.Basic
import HermesOps.Controller.ObjectiveCommands
import HermesOps.Model.Plans

/-! `topological_order` and `validate_plan` of `hermesops-orchestrator.py`: a plan as it was parsed, the
    checks of its fields, the order of its tasks, and the check that two writers of one project are
    ordered by their dependencies. A set of the source is a list read through membership. -/

namespace HermesOps

open Schemes Controller

/-! ### `topological_order` -/

section Order

variable {κ : Type} [LinearOrder κ]

/-- `sorted` and `list.sort`. -/
def sorted (l : List κ) : List κ := l.insertionSort (· ≤ ·)

/-- `keys`, from the pairs of a task's key and its dependencies. -/
def keysOf (tasks : List (κ × List κ)) : List κ := (tasks.map Prod.fst).dedup

/-- The dictionary `dependencies`; of two tasks with one key the later counts. -/
def dependenciesOf (tasks : List (κ × List κ)) (key : κ) : List κ :=
  (tasks.reverse.lookup key).getD []

/-- `sorted(reverse[key])`. -/
def childrenOf (tasks : List (κ × List κ)) (key : κ) : List κ :=
  sorted ((keysOf tasks).filter fun child => key ∈ dependenciesOf tasks child)

/-- What the loop changes: what every key still waits for, the sorted ready list, the order so far. -/
structure Sorting (κ : Type) where
  dependencies : κ → List κ
  ready : List κ
  order : List κ

/-- The inner loop's body, for one child of the key. -/
def Sorting.visit (key : κ) (s : Sorting κ) (child : κ) : Sorting κ :=
  let dependencies :=
    Function.update s.dependencies child ((s.dependencies child).filter fun p => p ≠ key)
  if dependencies child = [] ∧ child ∉ s.order ∧ child ∉ s.ready then
    { s with dependencies, ready := sorted (s.ready ++ [child]) }
  else { s with dependencies }

/-- One turn of the outer loop, and nothing once nothing is ready. -/
def Sorting.turn (children : κ → List κ) (s : Sorting κ) : Sorting κ :=
  match s.ready with
  | [] => s
  | key :: ready =>
    (children key).foldl (Sorting.visit key) { s with ready, order := s.order ++ [key] }

def Sorting.turns (children : κ → List κ) : Nat → Sorting κ → Sorting κ
  | 0, s => s
  | n + 1, s => Sorting.turns children n (s.turn children)

def Sorting.start (tasks : List (κ × List κ)) : Sorting κ where
  dependencies := dependenciesOf tasks
  ready := sorted ((keysOf tasks).filter fun key => dependenciesOf tasks key = [])
  order := []

/-- After as many turns as there are keys. -/
def Sorting.finish (tasks : List (κ × List κ)) : Sorting κ :=
  Sorting.turns (childrenOf tasks) (keysOf tasks).length (.start tasks)

def cycleError : String := "Plan dependency graph contains a cycle"

def topologicalOrder (tasks : List (κ × List κ)) : Except String (List κ) :=
  let keys := keysOf tasks
  -- `reverse[parent]` of a parent that is no key
  if keys.any fun key => (dependenciesOf tasks key).any fun parent => parent ∉ keys then
    .error "KeyError"
  else
    let order := (Sorting.finish tasks).order
    if order.length ≠ keys.length then .error cycleError else .ok order

end Order

/-! ### Fields -/

/-- What a failed check reports: a text, and the values that are printed after it. -/
structure PlanError where
  text : String
  shown : List Json

abbrev PlanResult := Except PlanError

def failPlan {α : Type} (text : String) (shown : List Json := []) : PlanResult α :=
  .error ⟨text, shown⟩

/-- A list or a dictionary as a dictionary key. -/
def unhashable {α : Type} : PlanResult α := failPlan "unhashable type"

/-- `if not test: fail(text)`. -/
def checkPlan (test : Bool) (text : String) (shown : List Json := []) : PlanResult Unit :=
  if test then .ok () else failPlan text shown

/-- `raw.get(name)`. -/
def member (raw : List (String × Json)) (name : String) : Json := (raw.lookup name).getD .null

/-- `raw.get(name, default)`. -/
def memberOr (raw : List (String × Json)) (name : String) (default : Json) : Json :=
  (raw.lookup name).getD default

/-- `value or []`. -/
def orEmpty : Json → Json
  | .null | .bool false | .int 0 | .float "0.0" | .float "-0.0" | .str "" | .obj [] => .arr []
  | value => value

/-- `isinstance(value, int)`; a Boolean is an integer too. -/
def pyInt : Json → Option Int
  | .int n => some n
  | .bool b => some (if b then 1 else 0)
  | _ => none

/-- `value == 1`. -/
def isOne : Json → Bool
  | .int 1 | .bool true | .float "1.0" => true
  | _ => false

def taskKeyStart (c : Char) : Bool := isLowerLetter c

def taskKeyChar (c : Char) : Bool := isLowerLetter c || isDigit c || c = '_' || c = '-'

/-- `TASK_KEY_PATTERN.fullmatch`. -/
def isTaskKey (s : String) : Bool :=
  match s.toList with
  | [] => false
  | c :: rest => taskKeyStart c ∧ rest.length ≤ 63 ∧ rest.all taskKeyChar

def TaskKind.ofName : String → Option TaskKind
  | "PIPELINE" => some .pipeline
  | "NOOP" => some .noop
  | "TEST_SLEEP" => some .testSleep
  | "TEST_FAIL" => some .testFail
  | _ => none

def TaskKind.isTest : TaskKind → Bool
  | .testSleep | .testFail => true
  | .pipeline | .noop => false

/-- The columns of `roles` that validation reads. -/
structure RoleRow where
  enabled : Bool
  roleKind : String
  mayCommit : Bool
  mayPush : Bool

/-- The two tables, with the flags of the call; a project's row is whether it is enabled. -/
structure PlanContext where
  roles : Table String RoleRow
  projects : Table String Bool
  allowTestActions : Bool
  requireEnabledProjects : Bool

/-- `SELECT * FROM roles WHERE enabled = 1`. -/
def PlanContext.enabledRole (c : PlanContext) (id : String) : Option RoleRow :=
  (c.roles.get? id).filter RoleRow.enabled

/-- `table[value]` after `value not in table` was refused. -/
def findRow {α : Type} (table : String → Option α) (value : Json) (text : String) :
    PlanResult (String × α) :=
  match value with
  | .str id =>
    match table id with
    | some row => .ok (id, row)
    | none => failPlan text [value]
  | .arr _ | .obj _ => unhashable
  | _ => failPlan text [value]

/-- A task as `validate_plan` returns it. -/
structure NormalizedTask where
  key : String
  kind : TaskKind
  projectId : Option String
  roleId : Option String
  instruction : String
  acceptanceCriteria : List String
  marker : Option String
  dependencies : List String
  priority : Int
  maxAttempts : Int
  durationSeconds : Option Int

def readKind (c : PlanContext) (raw : List (String × Json)) : PlanResult TaskKind :=
  let value := memberOr raw "kind" (.str "PIPELINE")
  match value with
  | .arr _ | .obj _ => unhashable
  | _ =>
    match value.asString.bind TaskKind.ofName with
    | none => failPlan "Unsupported task kind: " [value]
    | some kind =>
      if kind.isTest ∧ ¬c.allowTestActions then
        failPlan "Test action is forbidden outside test plans: " [value]
      else .ok kind

def readDependencies (raw : List (String × Json)) (key : String) : PlanResult (List String) :=
  match (orEmpty (member raw "dependencies")).asStrings with
  | none => failPlan s!"Task {key} dependencies must be a string list"
  | some dependencies => do
    checkPlan dependencies.Nodup s!"Task {key} contains duplicate dependencies"
    checkPlan (key ∉ dependencies) s!"Task {key} depends on itself"
    return dependencies

def readInstruction (raw : List (String × Json)) (key : String) : PlanResult String :=
  match (memberOr raw "instruction" (.str "")).asString with
  | none => failPlan s!"Task {key} instruction must be a string"
  | some instruction => do
    checkPlan (instruction.utf8ByteSize ≤ 32768) s!"Task {key} instruction exceeds 32 KiB"
    return instruction

def readAcceptance (raw : List (String × Json)) (key : String) : PlanResult (List String) :=
  match (orEmpty (member raw "acceptance_criteria")).asStrings with
  | none => failPlan s!"Task {key} acceptance_criteria must be strings"
  | some acceptance => do
    checkPlan (acceptance.all fun item => strip item ≠ "")
      s!"Task {key} acceptance_criteria must be strings"
    return acceptance

/-- An integer between two bounds. -/
def readBounded (value : Json) (low high : Int) (text : String) : PlanResult Int :=
  match pyInt value with
  | none => failPlan text
  | some n => if low ≤ n ∧ n ≤ high then .ok n else failPlan text

/-- The checks of a `PIPELINE` task: its project, its role and its marker. -/
def readPipeline (c : PlanContext) (raw : List (String × Json)) (key instruction : String)
    (acceptance : List String) : PlanResult (String × String × String) := do
  let (projectId, enabled) ← findRow c.projects.get? (member raw "project_id")
    s!"Task {key} has unknown project: "
  checkPlan (¬c.requireEnabledProjects ∨ enabled) s!"Task {key} project is disabled: {projectId}"
  let (roleId, role) ← findRow c.enabledRole (member raw "role_id")
    s!"Task {key} has unknown role: "
  checkPlan (role.roleKind = "worker" ∧ role.mayCommit)
    s!"Task {key} role is not a committing worker: {roleId}"
  checkPlan (¬role.mayPush) s!"Task {key} role may push, which is forbidden"
  checkPlan (strip instruction ≠ "") s!"Task {key} pipeline instruction is empty"
  checkPlan (acceptance ≠ []) s!"Task {key} acceptance criteria are required"
  match (member raw "marker").asString with
  | none => failPlan s!"Task {key} marker must be one non-empty line"
  | some marker =>
    checkPlan (strip marker ≠ "" ∧ '\n' ∉ marker.toList)
      s!"Task {key} marker must be one non-empty line"
    return (projectId, roleId, strip marker)

/-- The project that a test or no-op task may name. -/
def readAffinity (c : PlanContext) (raw : List (String × Json)) (key : String) :
    PlanResult (Option String) :=
  match member raw "project_id" with
  | .null => .ok none
  | value =>
    if ¬c.allowTestActions then .ok none
    else do
      let (projectId, enabled) ← findRow c.projects.get? value
        s!"Task {key} has unknown project affinity: "
      checkPlan (¬c.requireEnabledProjects ∨ enabled)
        s!"Task {key} project affinity is disabled: {projectId}"
      return some projectId

def readDuration (raw : List (String × Json)) (key : String) (kind : TaskKind) :
    PlanResult (Option Int) :=
  if kind = .testSleep then do
    let duration ← readBounded (memberOr raw "duration_seconds" (.int 1)) 1 120
      s!"Task {key} duration_seconds must be 1..120"
    return some duration
  else .ok none

/-- The key of the task at an index; `seen` are the keys before it. -/
def readKey (index : Nat) (seen : List String) (raw : List (String × Json)) : PlanResult String :=
  let value := member raw "key"
  match value.asString with
  | none => failPlan s!"Invalid task key at index {index}: " [value]
  | some key => do
    checkPlan (isTaskKey key) s!"Invalid task key at index {index}: " [value]
    checkPlan (key ∉ seen) s!"Duplicate task key: {key}"
    return key

/-- The body of the loop over the tasks. -/
def normalizeTask (c : PlanContext) (index : Nat) (seen : List String) : Json →
    PlanResult NormalizedTask
  | .obj raw => do
    let key ← readKey index seen raw
    let kind ← readKind c raw
    let dependencies ← readDependencies raw key
    let instruction ← readInstruction raw key
    let acceptance ← readAcceptance raw key
    let maxAttempts ← readBounded (memberOr raw "max_attempts" (.int 1)) 1 10
      s!"Task {key} max_attempts must be 1..10"
    let priority ← readBounded (memberOr raw "priority" (.int 100)) (-1000) 1000
      s!"Task {key} priority is invalid"
    let common : NormalizedTask :=
      { key, kind, projectId := none, roleId := none, instruction := strip instruction,
        acceptanceCriteria := acceptance, marker := none, dependencies, priority, maxAttempts,
        durationSeconds := none }
    if kind = .pipeline then do
      let (projectId, roleId, marker) ← readPipeline c raw key instruction acceptance
      return { common with projectId := some projectId, roleId := some roleId, marker := some marker }
    else do
      let projectId ← readAffinity c raw key
      let durationSeconds ← readDuration raw key kind
      return { common with projectId, durationSeconds }
  | _ => failPlan s!"Task {index} must be an object"

def normalizeTasks (c : PlanContext) : Nat → List String → List Json →
    PlanResult (List NormalizedTask)
  | _, _, [] => .ok []
  | index, seen, raw :: rest => do
    let task ← normalizeTask c index seen raw
    let tasks ← normalizeTasks c (index + 1) (seen ++ [task.key]) rest
    return task :: tasks

/-- What the checks before the loop leave of a plan. -/
structure PlanHeader where
  objective : String
  maxParallelTasks : Int
  tasks : List Json

def readHeader (plan : List (String × Json)) : PlanResult PlanHeader := do
  checkPlan (isOne (member plan "schema_version")) "Plan schema_version must be 1"
  match (member plan "objective").asString with
  | none => failPlan "Plan objective is required"
  | some objective =>
    checkPlan (strip objective ≠ "") "Plan objective is required"
    checkPlan (objective.utf8ByteSize ≤ 16384) "Plan objective exceeds 16 KiB"
    let maximum ← readBounded (memberOr plan "max_parallel_tasks" (.int 1)) 1 16
      "max_parallel_tasks must be an integer from 1 to 16"
    match member plan "tasks" with
    | .arr tasks =>
      checkPlan (1 ≤ tasks.length ∧ tasks.length ≤ 32) "Plan tasks must contain 1..32 entries"
      return ⟨strip objective, maximum, tasks⟩
    | _ => failPlan "Plan tasks must contain 1..32 entries"

/-! ### The graph -/

/-- `ancestors` after the loop over the order. -/
def addParent (key : String) (ancestors : String → List String) (parent : String) :
    String → List String :=
  Function.update ancestors key ((ancestors key).insert parent ∪ ancestors parent)

def ancestorsAlong (dependencies : String → List String) (order : List String) :
    String → List String :=
  order.foldl (fun ancestors key => (dependencies key).foldl (addParent key) ancestors) fun _ => []

/-- The pairs of a list, each element with the later ones. -/
def pairs {α : Type} : List α → List (α × α)
  | [] => []
  | a :: rest => rest.map (fun b => (a, b)) ++ pairs rest

/-- The project and the key of every `PIPELINE` task. -/
def pipelineKeys (tasks : List NormalizedTask) : List (String × String) :=
  tasks.filterMap fun t => if t.kind = .pipeline then t.projectId.map fun p => (p, t.key) else none

/-- The pairs that the loops over `pipeline_by_project` come to. -/
def writerPairs (tasks : List NormalizedTask) : List (String × String × String) :=
  ((pipelineKeys tasks).map Prod.fst).eraseDups.flatMap fun project =>
    (pairs (((pipelineKeys tasks).filter fun x => x.1 = project).map Prod.snd)).map fun pair =>
      (project, pair.1, pair.2)

/-- The keys and the dependencies of the tasks. -/
def graphOf (tasks : List NormalizedTask) : List (String × List String) :=
  tasks.map fun t => (t.key, t.dependencies)

def checkKnown (tasks : List NormalizedTask) : PlanResult Unit :=
  let keys := tasks.map NormalizedTask.key
  match tasks.find? fun t => t.dependencies.any fun d => d ∉ keys with
  | none => .ok ()
  | some t =>
    failPlan (s!"Task {t.key} has unknown dependencies: " ++
      ", ".intercalate (sorted (t.dependencies.filter fun d => d ∉ keys)))

/-- Every two writers of a project are ordered. -/
def checkWriters (tasks : List NormalizedTask) (order : List String) : PlanResult Unit :=
  let ancestors := ancestorsAlong (dependenciesOf (graphOf tasks)) order
  match (writerPairs tasks).find? fun (_, left, right) =>
      left ∉ ancestors right ∧ right ∉ ancestors left with
  | none => .ok ()
  | some (project, left, right) =>
    failPlan s!"Same-project PIPELINE tasks must be dependency-ordered: {project}: {left}, {right}"

/-- The checks after the loop over the tasks, and the tasks in their order. -/
def orderTasks (tasks : List NormalizedTask) : PlanResult (List NormalizedTask) := do
  checkKnown tasks
  match topologicalOrder (graphOf tasks) with
  | .error text => failPlan text
  | .ok order =>
    checkWriters tasks order
    return order.filterMap fun key => tasks.find? fun t => t.key = key

structure ValidPlan where
  objective : String
  maxParallelTasks : Int
  tasks : List NormalizedTask

/-- The field checks: the header and the tasks one by one. -/
def readPlan (c : PlanContext) (plan : List (String × Json)) :
    PlanResult (PlanHeader × List NormalizedTask) := do
  let header ← readHeader plan
  let tasks ← normalizeTasks c 0 [] header.tasks
  return (header, tasks)

def validatePlan (c : PlanContext) (plan : List (String × Json)) : PlanResult ValidPlan := do
  let (header, tasks) ← readPlan c plan
  let ordered ← orderTasks tasks
  return ⟨header.objective, header.maxParallelTasks, ordered⟩

end HermesOps
