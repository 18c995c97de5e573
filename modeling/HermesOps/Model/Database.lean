import HermesOps.Schemes.Table

/-! The control-plane database: the status enumerations, the rows and the tables that objectives,
    plans and runs live in. The tables are grouped by the program that owns them: the objective
    queue, the orchestration graph, and the run store that the transaction, integrator and recovery
    programs share. Identifiers are numbers, a timestamp is a number of milliseconds, and each
    transaction takes the identifiers and the time it draws as arguments. -/

namespace HermesOps

abbrev Time := Nat
abbrev ProjectId := Nat
abbrev ObjectiveId := Nat
abbrev ObjectiveAttemptId := Nat
abbrev PlanId := Nat
abbrev TaskId := Nat
abbrev AttemptId := Nat
abbrev RunId := Nat
abbrev IntegrationId := Nat
abbrev ApprovalId := Nat
abbrev ReviewId := Nat
abbrev ExecutionId := Nat
abbrev Commit := Nat

/-! ### The objective queue -/

inductive ObjectiveStatus where
  | queued | planning | running | pauseRequested | paused | cancelRequested
  | completed | failed | cancelled
  deriving DecidableEq

/-- `TERMINAL_STATUSES` of the objective queue. -/
def ObjectiveStatus.isTerminal : ObjectiveStatus → Bool
  | .completed | .failed | .cancelled => true
  | _ => false

inductive Source where
  | ai | declarative | test
  deriving DecidableEq

/-- A row of `objective_queue`. -/
structure Objective where
  text : String
  source : Source
  status : ObjectiveStatus
  priority : Int
  notBefore : Time
  projectScope : List ProjectId
  maxParallelTasks : Nat
  planningMaxAttempts : Nat
  planningAttemptCount : Nat
  planId : Option PlanId
  createdAt : Time
  startedAt : Option Time
  heartbeatAt : Time
  finishedAt : Option Time
  pausedAt : Option Time
  lastError : Option String
  deriving DecidableEq

inductive AttemptStatus where
  | running | completed | failed | abandoned | cancelled
  deriving DecidableEq

/-- A row of `objective_attempts`. -/
structure ObjectiveAttempt where
  objectiveId : ObjectiveId
  attemptNumber : Nat
  status : AttemptStatus
  planId : Option PlanId
  failureReason : Option String
  startedAt : Time
  heartbeatAt : Time
  finishedAt : Option Time
  nextAttemptAt : Option Time
  deriving DecidableEq

/-- The tables of the objective queue. -/
structure Queue where
  objectives : Schemes.Table ObjectiveId Objective
  attempts : Schemes.Table ObjectiveAttemptId ObjectiveAttempt

/-! ### The orchestration graph -/

inductive PlanStatus where
  | draft | ready | running | blocked | completed | failed | cancelled
  deriving DecidableEq

def PlanStatus.isTerminal : PlanStatus → Bool
  | .completed | .failed | .cancelled => true
  | _ => false

inductive TaskStatus where
  | pending | ready | running | blocked | completed | failed | cancelled
  deriving DecidableEq

inductive TaskKind where
  | pipeline | noop | testSleep | testFail
  deriving DecidableEq

/-- A row of `orchestration_plans`. -/
structure Plan where
  source : Source
  status : PlanStatus
  maxParallelTasks : Nat
  createdAt : Time
  startedAt : Option Time
  heartbeatAt : Option Time
  finishedAt : Option Time
  lastError : Option String
  deriving DecidableEq

/-- A row of `orchestration_tasks`. -/
structure Task where
  planId : PlanId
  taskKey : String
  kind : TaskKind
  projectId : Option ProjectId
  status : TaskStatus
  priority : Int
  maxAttempts : Nat
  attemptCount : Nat
  failureReason : Option String
  createdAt : Time
  startedAt : Option Time
  heartbeatAt : Option Time
  finishedAt : Option Time
  deriving DecidableEq

/-- A row of `orchestration_attempts`. -/
structure Attempt where
  taskId : TaskId
  attemptNumber : Nat
  status : AttemptStatus
  runId : Option RunId
  failureReason : Option String
  startedAt : Time
  heartbeatAt : Time
  finishedAt : Option Time
  deriving DecidableEq

/-- A row of `orchestration_dependencies`: the task waits for `dependsOn`. -/
structure Dependency where
  taskId : TaskId
  dependsOn : TaskId
  deriving DecidableEq

/-- The tables of the orchestrator. -/
structure Graph where
  plans : Schemes.Table PlanId Plan
  tasks : Schemes.Table TaskId Task
  dependencies : List Dependency
  attempts : Schemes.Table AttemptId Attempt

/-! ### The run store -/

inductive RunStatus where
  | queued | snapshotting | running | reviewing | waitingHuman | committing
  | completed | failed | cancelled | recovering
  deriving DecidableEq

inductive RecoveryDecision where
  | resumeSafe | rollbackSafe | blockHuman
  deriving DecidableEq

/-- A row of `runs`; the branch name and the worktree path are functions of the run id. -/
structure Run where
  projectId : ProjectId
  status : RunStatus
  recoveryDecision : Option RecoveryDecision
  baseCommit : Commit
  resultCommit : Option Commit
  transactionOwner : String
  createdAt : Time
  startedAt : Option Time
  finishedAt : Option Time
  heartbeatAt : Option Time
  submittedAt : Option Time
  deriving DecidableEq

/-- A row of `project_locks`. -/
structure Lock where
  runId : RunId
  holder : String
  acquiredAt : Time
  heartbeatAt : Time
  deriving DecidableEq

/-- A row of `snapshots`, kept under its run (`run_id` is `UNIQUE`). -/
structure Snapshot where
  projectId : ProjectId
  baseCommit : Commit
  verified : Bool
  createdAt : Time
  verifiedAt : Option Time
  deriving DecidableEq

inductive Decision where
  | approve | reject | blockHuman
  deriving DecidableEq

inductive Verdict where
  | pass | passWithDebt | fix | security | performance | architecture | human
  deriving DecidableEq

inductive IntegrationStatus where
  | prepared | completed | rejected | blocked | failed
  deriving DecidableEq

/-- A row of `integration_executions`. -/
structure Integration where
  runId : RunId
  reviewId : ReviewId
  controllerOwner : String
  decision : Decision
  verdict : Verdict
  status : IntegrationStatus
  baseCommit : Commit
  reviewedCommit : Option Commit
  mainBefore : Commit
  mainAfter : Commit
  snapshotVerified : Bool
  reviewCurrent : Bool
  approvalId : Option ApprovalId
  failureReason : Option String
  createdAt : Time
  finishedAt : Option Time
  deriving DecidableEq

inductive ApprovalStatus where
  | pending | cancelled
  deriving DecidableEq

/-- A row of `approvals`. -/
structure Approval where
  runId : RunId
  status : ApprovalStatus
  createdAt : Time
  resolvedAt : Option Time
  deriving DecidableEq

/-- A row of the join of `review_results`, `reviewer_executions` and `tasks` that `get_review`
    selects, with the two JSON columns as the fields `validate_review` looks up in them. -/
structure Review where
  runId : RunId
  reviewDecision : Option Decision
  reviewVerdict : Option Verdict
  executionVerdict : Option Verdict
  roleId : String
  sourceProfile : String
  taskRole : String
  taskStatus : String
  workspaceMode : String
  networkEnabled : Bool
  mountVerified : Bool
  isolationVerified : Bool
  repositoryUnchanged : Bool
  exitCode : Option Int
  failureReason : Option String
  executionId : ExecutionId
  createdAt : Time
  finishedAt : Option Time
  detailsDecision : Option Decision
  detailsExecutionId : Option ExecutionId
  resultDecision : Option Decision
  resultVerdict : Option Verdict
  resultCommit : Option Commit
  resultMarkerFound : Bool
  resultRepositoryUnchanged : Bool
  deriving DecidableEq

/-- A row of `worker_executions`. -/
structure WorkerExecution where
  runId : RunId
  finishedAt : Option Time
  deriving DecidableEq

/-- The tables shared by the transaction, integrator and recovery programs. -/
structure Store where
  runs : Schemes.Table RunId Run
  locks : Schemes.Table ProjectId Lock
  snapshots : Schemes.Table RunId Snapshot
  integrations : Schemes.Table IntegrationId Integration
  approvals : Schemes.Table ApprovalId Approval
  reviews : Schemes.Table ReviewId Review
  workers : Schemes.Table ExecutionId WorkerExecution

/-- The one SQLite database. -/
structure Database where
  queue : Queue
  graph : Graph
  store : Store

/-- The database after the migrations. -/
def Database.empty : Database where
  queue := ⟨.empty, .empty⟩
  graph := ⟨.empty, .empty, [], .empty⟩
  store := ⟨.empty, .empty, .empty, .empty, .empty, .empty, .empty⟩

end HermesOps
