import HermesOps.Controller.EventJournal
import HermesOps.Model.Database
import HermesOps.Schemes.Machine
import HermesOps.Schemes.Table
import HermesOps.Schemes.Transaction

/-! `hermesops_review_assignment.py` with the table `reviewer_assignments`. A row has an identity, which
    no statement sets, and a state, which satisfies the `CHECK` constraints of the table; the other
    constraints, the foreign keys, the unique indexes and the triggers are in `insertAllowed` and
    `updateAllowed`. Every function runs inside a transaction of its caller. -/

namespace HermesOps.Reviewer

open Controller Schemes

/-! ### Rows -/

inductive AssignmentStatus where
  | assigned
  | claimed
  | completed
  | failed
  | cancelled
  deriving DecidableEq

def activeStatuses : List AssignmentStatus := [.assigned, .claimed]

def terminalStatuses : List AssignmentStatus := [.completed, .failed, .cancelled]

/-- The columns that an `UPDATE` sets. -/
structure AssignmentState where
  status : AssignmentStatus
  claimOwner : Option String
  reviewExecutionId : Option String
  reviewId : Option String
  failureCode : Option String
  claimedAt : Option String
  heartbeatAt : Option String
  finishedAt : Option String
  deriving DecidableEq

def isUpperLetter (c : Char) : Bool := 65 ≤ c.toNat ∧ c.toNat ≤ 90

def isCodeChar (c : Char) : Bool := isUpperLetter c || isDigit c || c = '_'

/-- The `CHECK` of `failure_code`. -/
def isStoredCode (code : String) : Bool :=
  3 ≤ code.length ∧ code.length ≤ 64 ∧ code.toList.all isCodeChar

/-- `FAILURE_CODE_PATTERN`. -/
def isFailureCode (code : String) : Bool :=
  code.toList.head?.any isUpperLetter ∧ isStoredCode code

namespace AssignmentState

/-- The `CHECK` with a case for each status. -/
def isShaped (s : AssignmentState) : Bool :=
  match s.status with
  | .assigned => s.claimOwner.isNone ∧ s.reviewExecutionId.isNone ∧ s.reviewId.isNone ∧
      s.failureCode.isNone ∧ s.claimedAt.isNone ∧ s.heartbeatAt.isNone ∧ s.finishedAt.isNone
  | .claimed => s.claimOwner.isSome ∧ s.reviewExecutionId.isSome ∧ s.reviewId.isNone ∧
      s.failureCode.isNone ∧ s.claimedAt.isSome ∧ s.heartbeatAt.isSome ∧ s.finishedAt.isNone
  | .completed => s.claimOwner.isSome ∧ s.reviewExecutionId.isSome ∧ s.reviewId.isSome ∧
      s.failureCode.isNone ∧ s.claimedAt.isSome ∧ s.heartbeatAt.isSome ∧ s.finishedAt.isSome
  | .failed => s.reviewId.isNone ∧ s.failureCode.isSome ∧ s.finishedAt.isSome
  | .cancelled => s.reviewId.isNone ∧ s.failureCode.isNone ∧ s.finishedAt.isSome

/-- All the `CHECK` constraints of these columns. -/
def isChecked (s : AssignmentState) : Bool :=
  s.isShaped ∧ (s.claimOwner.all fun owner => 1 ≤ owner.length ∧ owner.length ≤ 200) ∧
    s.failureCode.all isStoredCode

def isActive (s : AssignmentState) : Bool := s.status ∈ activeStatuses

/-- The state of a new row. -/
def new : AssignmentState := ⟨.assigned, none, none, none, none, none, none, none⟩

end AssignmentState

/-- A row of `reviewer_assignments`. -/
structure Assignment where
  runId : String
  orchestrationAttemptId : String
  assignmentNumber : Nat
  roleId : String
  sourceProfile : String
  assignedBy : String
  assignedAt : String
  state : AssignmentState
  checked : state.isChecked = true

/-- The row with other values in the columns of its state, if the `CHECK` constraints allow them. -/
def Assignment.withState (r : Assignment) (s : AssignmentState) : Option Assignment :=
  if h : s.isChecked = true then some { r with state := s, checked := h } else none

inductive RoleKind where
  | orchestrator
  | worker
  | reviewer
  | recovery
  deriving DecidableEq

inductive WorkspaceMode where
  | none
  | write
  | readOnly
  | controllerOnly
  deriving DecidableEq

/-- A row of `roles`. -/
structure Role where
  profileName : String
  roleKind : RoleKind
  workspaceMode : WorkspaceMode
  mayCommit : Bool
  mayPush : Bool
  networkEnabled : Bool
  enabled : Bool

/-- The policy of `_role` and of the trigger. -/
def Role.mayReview (r : Role) : Bool :=
  r.enabled ∧ r.roleKind = .reviewer ∧ r.workspaceMode = .readOnly ∧ ¬r.mayCommit ∧ ¬r.mayPush ∧
    ¬r.networkEnabled

inductive LaunchStatus where
  | queued
  | running
  | blocked
  | completed
  | failed
  | cancelled
  deriving DecidableEq

/-- A row of `tasks`. -/
structure LaunchTask where
  runId : String
  status : LaunchStatus
  finishedAt : Option String

/-- A text of the language: code points, which may be lone surrogates. -/
abbrev PyText : Type := List Nat

def pyText (s : String) : PyText := s.toList.map Char.toNat

/-- A text without lone surrogates, which SQLite can bind. -/
def isStorable (t : PyText) : Bool := t.all fun c => c < 0xd800 ∨ 0xdfff < c

/-- A row of `runs`. -/
structure RunRow where
  projectId : String
  status : RunStatus

/-- A row of `reviewer_executions`. -/
structure ReviewerExecution where
  taskId : String
  runId : String
  roleId : String
  sourceProfile : String
  reviewId : Option String
  sandboxContainerId : Option String
  mountVerified : Bool
  isolationVerified : Bool
  repositoryUnchanged : Bool
  decision : Option Decision
  verdict : Option Verdict
  exitCode : Option Int
  failureReason : Option PyText
  finishedAt : Option String

/-- A row of `worker_executions`. -/
structure WorkerExecution where
  taskId : String
  runId : String
  roleId : String
  sourceProfile : String
  sandboxContainerId : Option String
  mountVerified : Bool
  isolationVerified : Bool
  exitCode : Option Int
  failureReason : Option PyText
  finishedAt : Option String

/-- A row of `review_results`. -/
structure ReviewResult where
  runId : String
  verdict : Verdict
  summary : PyText

/-- A row of `events`. -/
structure EventRow where
  projectId : String
  runId : String
  taskId : Option String
  eventType : String
  severity : String
  payload : Json
  createdAt : String

/-- The tables: projects with whether they are enabled, their locks with the runs that hold them, and
    attempts with their runs. -/
structure ReviewDatabase where
  roles : Table String Role
  projects : Table String Bool
  locks : Table String String
  runs : Table String RunRow
  attempts : Table String (Option String)
  tasks : Table String LaunchTask
  executions : Table String ReviewerExecution
  workerExecutions : Table String WorkerExecution
  results : Table String ReviewResult
  assignments : Table String Assignment
  events : List EventRow
  journal : Journal

/-- The checks of the journal, what `strftime` leaves as it is, and the hash of a causation. -/
structure ReviewRules extends TextRules where
  canonicalTime : String → Bool
  digest : String → String

variable (rules : ReviewRules)

/-! ### Constraints and triggers -/

/-- `ASSIGNMENT_ID_PATTERN`, and the `CHECK` of the key. -/
def isAssignmentId : String → Bool := isPrefixedHex "review-assignment-"

/-- The timestamp triggers, of the columns that a statement may set. -/
def AssignmentState.timesCanonical (s : AssignmentState) : Bool :=
  s.claimedAt.all rules.canonicalTime ∧ s.heartbeatAt.all rules.canonicalTime ∧
    s.finishedAt.all rules.canonicalTime

/-- The conflicts of `reviewer_assignment_no_replace_insert`, which are those of the `UNIQUE`
    constraints. -/
def Assignment.conflicts (r x : Assignment) : Bool :=
  (x.runId = r.runId ∧ x.assignmentNumber = r.assignmentNumber) ∨
    (x.orchestrationAttemptId = r.orchestrationAttemptId ∧ x.assignmentNumber = r.assignmentNumber) ∨
    (r.state.reviewExecutionId.isSome ∧ x.state.reviewExecutionId = r.state.reviewExecutionId) ∨
    (r.state.reviewId.isSome ∧ x.state.reviewId = r.state.reviewId)

/-- `idx_reviewer_assignments_one_active_run`: another row of the run is active. -/
def ReviewDatabase.otherActive (d : ReviewDatabase) (id runId : String) : Bool :=
  d.assignments.any fun k x => k ≠ id ∧ x.runId = runId ∧ x.state.isActive

/-- What the table asks of a new row, next to its key being free. -/
def insertAllowed (d : ReviewDatabase) (id : String) (r : Assignment) : Bool :=
  isAssignmentId id ∧ 1 ≤ r.assignmentNumber ∧ r.assignmentNumber ≤ 1000 ∧
    1 ≤ r.sourceProfile.length ∧ r.sourceProfile.length ≤ 128 ∧
    1 ≤ r.assignedBy.length ∧ r.assignedBy.length ≤ 200 ∧
    (d.runs.get? r.runId).isSome ∧ (d.attempts.get? r.orchestrationAttemptId).isSome ∧
    (r.state.reviewExecutionId.all fun x => (d.executions.get? x).isSome) ∧
    (r.state.reviewId.all fun x => (d.results.get? x).isSome) ∧
    -- reviewer_assignment_insert_policy_guard
    r.state.status = .assigned ∧
    ((d.roles.get? r.roleId).any fun x => x.profileName = r.sourceProfile ∧ x.mayReview) ∧
    ¬(d.assignments.any fun _ x => r.conflicts x) ∧
    ¬(r.state.isActive ∧ d.otherActive id r.runId) ∧
    rules.canonicalTime r.assignedAt ∧ r.state.timesCanonical rules

/-- The moves of `reviewer_assignment_transition_guard`. -/
def mayMove (old new : AssignmentStatus) : Bool :=
  (old = .assigned ∧ new ∈ [.claimed, .failed, .cancelled]) ∨
    (old = .claimed ∧ new ∈ [.completed, .failed, .cancelled])

/-- `reviewer_assignment_claim_link_guard`: the execution is the run's, of the same role, and open. -/
def claimLinked (d : ReviewDatabase) (old new : Assignment) : Bool :=
  (new.state.reviewExecutionId.bind d.executions.get?).any fun x => x.runId = old.runId ∧
    x.roleId = old.roleId ∧ x.sourceProfile = old.sourceProfile ∧ x.reviewId = none ∧ x.finishedAt = none

/-- `reviewer_assignment_completion_link_guard`: the execution has finished with this review. -/
def completionLinked (d : ReviewDatabase) (old new : Assignment) : Bool :=
  (old.state.reviewExecutionId.bind d.executions.get?).any fun x => x.runId = old.runId ∧
    x.roleId = old.roleId ∧ x.sourceProfile = old.sourceProfile ∧ x.reviewId = new.state.reviewId ∧
    new.state.reviewId.isSome ∧ x.finishedAt.isSome

/-- What the table asks of a row whose status is set, next to its `CHECK` constraints. The statements of
    this file set no column of the identity, so that trigger stays silent. -/
def updateAllowed (d : ReviewDatabase) (id : String) (old new : Assignment) : Bool :=
  (old.state.status = .assigned ∧ new.state.status = .claimed → claimLinked d old new) ∧
    (old.state.status = .claimed ∧ new.state.status = .completed → completionLinked d old new) ∧
    mayMove old.state.status new.state.status ∧
    -- reviewer_assignment_terminal_immutable
    old.state.status ∉ terminalStatuses ∧ new.state.timesCanonical rules ∧
    -- the unique columns and the foreign keys, where the statement changes them
    (new.state.reviewExecutionId = old.state.reviewExecutionId ∨
      new.state.reviewExecutionId.all fun x => (d.executions.get? x).isSome ∧
        ¬d.assignments.any fun k y => k ≠ id ∧ y.state.reviewExecutionId = some x) ∧
    (new.state.reviewId = old.state.reviewId ∨
      new.state.reviewId.all fun x => (d.results.get? x).isSome ∧
        ¬d.assignments.any fun k y => k ≠ id ∧ y.state.reviewId = some x) ∧
    ¬(new.state.isActive ∧ d.otherActive id new.runId)

/-! ### Statements -/

/-- What a call raises: an error of this file, of the journal, or of the program that calls, and those of
    SQLite: a constraint, the connection, or a value that cannot be bound. -/
inductive Failure where
  | assignment (message : String)
  | controller (e : Controller.ControllerError)
  | program (message : String)
  | integrity
  | operational
  | binding
  deriving DecidableEq

/-- A computation inside a transaction of these tables. -/
abbrev Review (α : Type) : Type := Txn Failure ReviewDatabase α

def query {α : Type} (f : ReviewDatabase → α) : Review α :=
  Txn.statement .operational fun d => .ok (f d, d)

/-- A statement that a constraint may refuse. -/
def execute {α : Type} (f : ReviewDatabase → Option (α × ReviewDatabase)) : Review α :=
  Txn.statement .operational fun d =>
    match f d with
    | some x => .ok x
    | none => .error .integrity

def refuse {α : Type} (message : String) : Review α := Txn.raise (.assignment message)

def require (test : Bool) (message : String) : Review Unit := Txn.ensure test (.assignment message)

/-- `INSERT INTO reviewer_assignments`. -/
def insertAssignment (id : String) (r : Assignment) (d : ReviewDatabase) :
    Option (Unit × ReviewDatabase) :=
  if insertAllowed rules d id r then
    (d.assignments.insert id r).map fun t => ((), { d with assignments := t })
  else none

/-- `UPDATE reviewer_assignments SET … WHERE assignment_id=? AND status IN …`, with its row count. -/
def updateAssignment (id : String) (old : List AssignmentStatus) (f : AssignmentState → AssignmentState)
    (d : ReviewDatabase) : Option (Nat × ReviewDatabase) :=
  match d.assignments.get? id with
  | none => some (0, d)
  | some r =>
    if r.state.status ∈ old then
      match r.withState (f r.state) with
      | none => none
      | some r' =>
        if updateAllowed rules d id r r' then
          some (1, { d with assignments := d.assignments.updateAt id fun _ => r' })
        else none
    else some (0, d)

/-- `INSERT INTO events`. -/
def insertEvent (e : EventRow) (d : ReviewDatabase) : Option (Unit × ReviewDatabase) :=
  if (d.projects.get? e.projectId).isSome ∧ (d.runs.get? e.runId).isSome ∧
      e.taskId.all (fun t => (d.tasks.get? t).isSome) then
    some ((), { d with events := d.events ++ [e] })
  else none

/-! ### The functions -/

/-- What a call draws: `uuid.uuid4().hex` twice, and `utc_now()`. -/
structure Draw where
  hex : String
  eventHex : String
  now : String

def invalid (field : String) : String := "Invalid " ++ field

def validateAssignmentId (value : String) : Review Unit :=
  require (isAssignmentId value) "Invalid reviewer assignment identifier"

def validateText (value field : String) : Review Unit := require (isText value) (invalid field)

def validateFailureCode (value : String) : Review Unit :=
  require (isFailureCode value) "Invalid reviewer assignment failure code"

/-- `_role`. -/
def role (roleId : String) : Review Role := do
  match ← query fun d => d.roles.get? roleId with
  | none => refuse "Reviewer role is unavailable"
  | some r =>
    require r.mayReview "Reviewer role violates assignment policy"
    return r

/-- `_run_project`. -/
def runProject (runId : String) : Review String := do
  match ← query fun d => d.runs.get? runId with
  | none => refuse "Reviewer assignment run is unavailable"
  | some run => return run.projectId

/-- The event of `_journal`. -/
def reviewEvent (eventType assignmentId actorId causationId projectId : String) (data : Json) (x : Draw) :
    EventInput where
  eventType
  actorType := "system"
  actorId
  aggregateType := "review"
  aggregateId := assignmentId
  correlationId := "corr_" ++ rules.digest causationId
  data
  causationId := some causationId
  projectId := some projectId
  objectiveId := none
  eventId := "evt_" ++ x.eventHex
  occurredAt := x.now

/-- `_journal`. -/
def journal (eventType assignmentId actorId causationId projectId : String) (data : Json) (x : Draw) :
    Review Unit := do
  Txn.ensure (causationId ≠ "") (.controller inputInvalid)
  Txn.statement (.controller journalUnavailable) fun d =>
    match d.journal.emit rules.toTextRules
      (reviewEvent rules eventType assignmentId actorId causationId projectId data x) with
    | .ok (journal, _) => .ok ((), { d with journal })
    | .error e => .error (.controller e)

/-- `_legacy_event` and `_journal`, which every change ends with. -/
def record (assignmentId runId projectId : String) (taskId : Option String)
    (legacyType eventType severity actorId causationId : String) (data : List (String × Json)) (x : Draw) :
    Review Unit := do
  execute (insertEvent
    { projectId
      runId
      taskId
      eventType := legacyType
      severity
      payload := .obj (("assignment_id", .str assignmentId) :: data)
      createdAt := x.now })
  journal rules eventType assignmentId actorId causationId projectId (.obj data) x

/-- `next_assignment_number`. -/
def nextAssignmentNumber (runId : String) : Review Nat := do
  let value ← query fun d => ((d.assignments.select fun _ r => r.runId = runId).map fun x =>
    x.2.assignmentNumber).foldl max 0 + 1
  require (1 ≤ value ∧ value ≤ 1000) "Reviewer assignment sequence is exhausted"
  return value

/-- What `create_assignment` returns; the status is `ASSIGNED`. -/
structure Created where
  assignmentId : String
  runId : String
  assignmentNumber : Nat
  roleId : String
  sourceProfile : String

/-- `create_assignment`. -/
def createAssignment (runId attemptId : String) (number : Nat) (roleId assignedBy : String) (x : Draw) :
    Review Created := do
  validateText runId "run_id"
  validateText attemptId "orchestration_attempt_id"
  validateText assignedBy "assigned_by"
  require (1 ≤ number ∧ number ≤ 1000) "Invalid reviewer assignment number"
  let role ← role roleId
  let projectId ← runProject runId
  let attempt ← query fun d => d.attempts.get? attemptId
  require (attempt.any fun run => run.getD "" = runId)
    "Reviewer assignment does not match the orchestration attempt"
  let assignmentId := "review-assignment-" ++ x.hex
  execute (insertAssignment rules assignmentId
    { runId
      orchestrationAttemptId := attemptId
      assignmentNumber := number
      roleId
      sourceProfile := role.profileName
      assignedBy
      assignedAt := x.now
      state := .new
      checked := rfl })
  record rules assignmentId runId projectId none "REVIEW_ASSIGNMENT_CREATED" "review.assignment_created"
    "INFO" assignedBy attemptId
    [ ("assignment_number", .int number), ("role_id", .str roleId),
      ("source_profile", .str role.profileName), ("status", .str "assigned") ] x
  return ⟨assignmentId, runId, number, roleId, role.profileName⟩

/-- `SELECT * FROM reviewer_assignments WHERE assignment_id=?`. -/
def loadAssignment (assignmentId : String) : Review Assignment := do
  match ← query fun d => d.assignments.get? assignmentId with
  | none => refuse "Reviewer assignment is unavailable"
  | some r => return r

/-- The state of a claimed row. -/
def AssignmentState.claim (executionId now : String) (s : AssignmentState) : AssignmentState :=
  { s with
    status := .claimed
    claimOwner := some ("reviewer:" ++ executionId)
    reviewExecutionId := some executionId
    claimedAt := some now
    heartbeatAt := some now }

/-- `claim_assignment`. -/
def claimAssignment (assignmentId runId roleId sourceProfile executionId taskId : String) (x : Draw) :
    Review Unit := do
  validateAssignmentId assignmentId
  validateText executionId "review_execution_id"
  validateText taskId "task_id"
  let row ← loadAssignment assignmentId
  require (row.state.status = .assigned ∧ row.runId = runId ∧ row.roleId = roleId ∧
    row.sourceProfile = sourceProfile) "Reviewer assignment cannot be claimed"
  let count ← execute (updateAssignment rules assignmentId [.assigned]
    (AssignmentState.claim executionId x.now))
  require (count = 1) "Reviewer assignment claim was lost"
  let projectId ← runProject runId
  record rules assignmentId runId projectId (some taskId) "REVIEW_ASSIGNMENT_CLAIMED"
    "review.assignment_claimed" "INFO" ("reviewer:" ++ executionId) executionId
    [ ("assignment_number", .int row.assignmentNumber), ("review_execution_id", .str executionId),
      ("role_id", .str roleId), ("status", .str "claimed") ] x

/-- The state of a row that ends with a review. -/
def AssignmentState.complete (reviewId now : String) (s : AssignmentState) : AssignmentState :=
  { s with
    status := .completed
    reviewId := some reviewId
    failureCode := none
    heartbeatAt := some now
    finishedAt := some now }

/-- The state of a claimed row that ends without one. -/
def AssignmentState.finishFailed (code now : String) (s : AssignmentState) : AssignmentState :=
  { s with
    status := .failed
    reviewId := none
    failureCode := some code
    heartbeatAt := some now
    finishedAt := some now }

/-- What `finish_assignment` records. -/
def finishData (number : Nat) (executionId : String) (failureCode : Option String) (status : String) :
    List (String × Json) :=
  [ ("assignment_number", .int number), ("failure_code", failureCode.elim .null .str),
    ("review_execution_id", .str executionId), ("review_present", .bool failureCode.isNone),
    ("status", .str status) ]

/-- `finish_assignment`. -/
def finishAssignment (assignmentId runId executionId taskId : String) (success : Bool)
    (reviewId : Option String) (failureCode : String) (x : Draw) : Review Unit := do
  validateAssignmentId assignmentId
  let row ← loadAssignment assignmentId
  require (row.state.status = .claimed ∧ row.runId = runId ∧
    row.state.reviewExecutionId = some executionId) "Reviewer assignment cannot be finished"
  let projectId ← runProject runId
  if success then
    require (reviewId.any fun id => id ≠ "") "Completed assignment requires a review"
    let count ← execute (updateAssignment rules assignmentId [.claimed]
      (AssignmentState.complete (reviewId.getD "") x.now))
    require (count = 1) "Reviewer assignment finish was lost"
    record rules assignmentId runId projectId (some taskId) "REVIEW_ASSIGNMENT_COMPLETED"
      "review.assignment_completed" "INFO" ("reviewer:" ++ executionId) executionId
      (finishData row.assignmentNumber executionId none "completed") x
  else
    validateFailureCode failureCode
    let count ← execute (updateAssignment rules assignmentId [.claimed]
      (AssignmentState.finishFailed failureCode x.now))
    require (count = 1) "Reviewer assignment finish was lost"
    record rules assignmentId runId projectId (some taskId) "REVIEW_ASSIGNMENT_FAILED"
      "review.assignment_failed" "ERROR" ("reviewer:" ++ executionId) executionId
      (finishData row.assignmentNumber executionId (some failureCode) "failed") x

/-- The state of an active row that another process ends. -/
def AssignmentState.fail (code now : String) (s : AssignmentState) : AssignmentState :=
  { s with
    status := .failed
    reviewId := none
    failureCode := some code
    heartbeatAt := if s.status = .claimed then some (s.heartbeatAt.getD now) else none
    finishedAt := some now }

/-- `fail_active_assignment`. -/
def failActiveAssignment (assignmentId actorId failureCode : String) (x : Draw) : Review Bool := do
  validateAssignmentId assignmentId
  validateText actorId "actor_id"
  validateFailureCode failureCode
  let row ← loadAssignment assignmentId
  if row.state.status ∈ terminalStatuses then return false
  require (row.state.status ∈ activeStatuses) "Unknown reviewer assignment status"
  let count ← execute (updateAssignment rules assignmentId activeStatuses
    (AssignmentState.fail failureCode x.now))
  require (count = 1) "Reviewer assignment failure was lost"
  let projectId ← runProject row.runId
  record rules assignmentId row.runId projectId none "REVIEW_ASSIGNMENT_FAILED"
    "review.assignment_failed" "ERROR" actorId row.orchestrationAttemptId
    [ ("assignment_number", .int row.assignmentNumber), ("failure_code", .str failureCode),
      ("status", .str "failed") ] x
  return true

/-- The loop of `recover_active_assignments`, which counts what it has ended. -/
def recoverEach (actorId : String) : List String → (Nat → Draw) → Nat → Review Nat
  | [], _, recovered => return recovered
  | id :: ids, draws, recovered => do
    let ended ← failActiveAssignment rules id actorId "RECOVERY_ABANDONED" (draws ids.length)
    recoverEach actorId ids draws (if ended then recovered + 1 else recovered)

/-- `recover_active_assignments`. -/
def recoverActiveAssignments (runId actorId : String) (draws : Nat → Draw) : Review Nat := do
  let ids ← query fun d =>
    ((d.assignments.select fun _ r => r.runId = runId ∧ r.state.isActive).insertionSort fun x y =>
      x.2.assignmentNumber ≤ y.2.assignmentNumber).map Prod.fst
  recoverEach rules actorId ids draws 0

/-! ### The callers -/

/-- The calls of the orchestrator's retry loop, of the reviewers and of the recovery manager. -/
inductive Call where
  | create (runId attemptId roleId assignedBy : String) (x : Draw)
  | claim (assignmentId runId roleId sourceProfile executionId taskId : String) (x : Draw)
  | finish (assignmentId runId executionId taskId : String) (success : Bool) (reviewId : Option String)
      (failureCode : String) (x : Draw)
  | fail (assignmentId actorId failureCode : String) (x : Draw)
  | recover (runId actorId : String) (draws : Nat → Draw)

def Call.run : Call → Review Unit
  | .create runId attemptId roleId assignedBy x => do
    let number ← nextAssignmentNumber runId
    let _ ← createAssignment rules runId attemptId number roleId assignedBy x
  | .claim assignmentId runId roleId sourceProfile executionId taskId x =>
    claimAssignment rules assignmentId runId roleId sourceProfile executionId taskId x
  | .finish assignmentId runId executionId taskId success reviewId failureCode x =>
    finishAssignment rules assignmentId runId executionId taskId success reviewId failureCode x
  | .fail assignmentId actorId failureCode x => do
    let _ ← failActiveAssignment rules assignmentId actorId failureCode x
  | .recover runId actorId draws => do
    let _ ← recoverActiveAssignments rules runId actorId draws

/-- The committed tables, and those of the open transaction, whichever process has opened it. -/
structure AssignmentWorld where
  committed : ReviewDatabase
  pending : Option ReviewDatabase

/-- What the processes do; `left` is the number of statements that the connection still executes. -/
inductive AssignmentAction where
  | begin
  | call (c : Call) (left : Option Nat)
  | other (f : ReviewDatabase → ReviewDatabase)
  | commit
  | rollback

namespace AssignmentWorld

/-- `BEGIN IMMEDIATE` waits for the open transaction, a call outside a transaction raises, and an
    exception leaves the `with` block of its caller, which rolls back. The other statements of a
    transaction write other tables. -/
def step (a : AssignmentAction) (w : AssignmentWorld) : AssignmentWorld :=
  match a with
  | .begin => if w.pending.isSome then w else { w with pending := some w.committed }
  | .call c left =>
    match w.pending with
    | none => w
    | some d =>
      match c.run rules ⟨d, left⟩ with
      | (.ok _, v) => { w with pending := some v.state }
      | (.error _, _) => { w with pending := none }
  | .other f => { w with pending := w.pending.map fun d => { f d with assignments := d.assignments } }
  | .commit =>
    match w.pending with
    | none => w
    | some d => { committed := d, pending := none }
  | .rollback => { w with pending := none }

end AssignmentWorld

/-- The table starts empty. -/
def assignmentMachine : Machine AssignmentAction AssignmentWorld where
  start w := w.committed.assignments = .empty ∧ w.pending = none
  step := AssignmentWorld.step rules

end HermesOps.Reviewer
