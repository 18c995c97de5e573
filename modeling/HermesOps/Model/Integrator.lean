import HermesOps.Model.Transactions

/-! `hermesops-integrator.py`: the checks on the review and on the Git state, the transaction that
    records a refusal, the one that commits a run to integration, and the two that end it. -/

namespace HermesOps

/-! ### The review -/

def classifyDecision : Decision → Verdict → Except String IntegrationAction
  | .approve, .pass | .approve, .passWithDebt => .ok .integrate
  | .reject, .fix | .reject, .security | .reject, .performance | .reject, .architecture =>
    .ok .reject
  | .blockHuman, .human => .ok .blockHuman
  | _, _ => .error "Inconsistent review decision/verdict"

/-- The single review of a run. -/
def getReview (s : Store) (runId : RunId) : Except String (ReviewId × Review) :=
  match s.reviews.select fun _ r => r.runId = runId with
  | [] => .error "Review result is absent"
  | [review] => .ok review
  | _ => .error "Expected exactly one review"

/-- The tests of `validate_review` that only read the review and the run, in the source's order,
    each with its message. -/
def reviewChecks (run : Run) (r : Review) (decision : Decision) (verdict : Verdict) :
    List (Bool × String) :=
  [ (r.executionVerdict = some verdict, "Review and execution verdicts differ"),
    (r.roleId = "reviewer", "Review was not produced by the reviewer role"),
    (r.sourceProfile = "ops-reviewer", "Unexpected reviewer source profile"),
    (r.taskRole = "reviewer", "Reviewer task role is invalid"),
    (r.taskStatus = "COMPLETED", "Reviewer task is not completed"),
    (r.workspaceMode = "read_only", "Reviewer workspace was not read-only"),
    (!r.networkEnabled, "Reviewer network was enabled"),
    (r.mountVerified, "Reviewer evidence is incomplete: review_mount_verified"),
    (r.isolationVerified, "Reviewer evidence is incomplete: review_isolation_verified"),
    (r.repositoryUnchanged, "Reviewer evidence is incomplete: review_repository_unchanged"),
    (r.exitCode = some 0, "Reviewer execution did not exit successfully"),
    (r.failureReason = none, "Reviewer execution contains a failure reason"),
    (r.finishedAt.isSome, "Reviewer execution is unfinished"),
    (run.submittedAt.isSome, "Run submission timestamp is absent"),
    (run.submittedAt.all fun t => t ≤ r.createdAt, "Review predates the submitted result"),
    (run.submittedAt.all fun t => r.finishedAt.all fun f => t ≤ f,
      "Reviewer execution predates the submitted result"),
    (r.detailsDecision = some decision, "Structured review decision mismatch"),
    (r.detailsExecutionId = some r.executionId, "Structured review execution ID mismatch"),
    (r.resultDecision = some decision, "Reviewer result decision mismatch"),
    (r.resultVerdict = some verdict, "Reviewer result verdict mismatch"),
    (r.resultCommit = run.resultCommit, "Review is stale for the current result commit"),
    (r.resultMarkerFound, "Reviewer completion marker was not verified"),
    (r.resultRepositoryUnchanged, "Reviewer did not prove repository immutability") ]

/-- The first failing check, as an error. -/
def firstFailure (checks : List (Bool × String)) : Except String Unit :=
  match checks.find? fun c => !c.1 with
  | some c => .error c.2
  | none => .ok ()

def validateReview (s : Store) (runId : RunId) (run : Run) (r : Review) :
    Except String (IntegrationAction × Decision × Verdict) :=
  match r.reviewDecision, r.reviewVerdict with
  | some decision, some verdict => do
    let action ← classifyDecision decision verdict
    firstFailure (reviewChecks run r decision verdict)
    if s.workers.any fun _ w => w.runId = runId ∧
        w.finishedAt.any fun f => r.finishedAt.any fun t => t < f then
      .error "Review is stale: a worker completed after the review"
    else return (action, decision, verdict)
  | _, _ => .error "Review decision or verdict is absent"

/-! ### The run and its lock -/

def getLock (s : Store) (runId : RunId) : Option (ProjectId × Lock) :=
  (s.locks.select fun _ l => l.runId = runId).head?

def validateOwner (run : Run) (lock : ProjectId × Lock) (owner : String) : Except String Unit :=
  firstFailure
    [ (owner ≠ "", "Controller owner is required"),
      (run.transactionOwner = owner, "Controller owner does not match transaction owner"),
      (lock.2.holder = owner, "Controller owner does not hold the project lock"),
      (lock.1 = run.projectId, "Project lock does not belong to the run project") ]

/-- What `command_apply` carries from its first read to the transactions. -/
structure Application where
  runId : RunId
  run : Run
  owner : String
  reviewId : ReviewId
  reviewedCommit : Option Commit
  action : IntegrationAction
  decision : Decision
  verdict : Verdict
  deriving DecidableEq

/-- The first connection of `command_apply`. -/
def applyRead (s : Store) (enabled : Bool) (runId : RunId) (owner : String) :
    Except String Application :=
  match s.runs.get? runId with
  | none => .error s!"Unknown run: {runId}"
  | some run =>
    if run.status ≠ .reviewing then
      .error s!"Run cannot be integrated from status {run.status.name}"
    else if ¬enabled then .error "Run project is disabled"
    else
      match getLock s runId with
      | none => .error "Active transaction lock is absent"
      | some lock => do
        validateOwner run lock owner
        let (reviewId, review) ← getReview s runId
        let (action, decision, verdict) ← validateReview s runId run review
        return ⟨runId, run, owner, reviewId, review.resultCommit, action, decision, verdict⟩

/-- `validate_git_state`; it returns `main_before`. -/
def validateGitState (h : History) (a : Application) (repo : Repository)
    (worktree : Option Worktree) : Except String Commit :=
  let w := worktree.getD ⟨false, false, false, false, 0⟩
  match firstFailure
    [ (repo.present, "Project repository is absent"),
      (w.present, "Transaction worktree is absent"),
      (w.registered, "Transaction worktree is not registered"),
      (repo.onDefaultBranch, "Project repository is not on its default branch"),
      (repo.clean, "Project repository is not clean"),
      (repo.head = a.run.baseCommit, "Default branch moved since transaction start"),
      (w.onBranch, "Transaction worktree branch mismatch"),
      (w.clean, "Reviewed transaction worktree is no longer clean"),
      (a.run.resultCommit = some w.head, "Transaction worktree no longer matches run.result_commit"),
      (a.reviewedCommit = some w.head, "Reviewed commit no longer matches transaction HEAD"),
      (h.isAncestor a.run.baseCommit w.head,
        "Reviewed result does not descend from transaction base") ] with
  | .ok _ => .ok repo.head
  | .error e => .error e

/-! ### Transactions -/

/-- `objective_status_for_run`. -/
def objectiveStatusForRun (d : Database) (runId : RunId) :
    Except String (Option ObjectiveStatus) :=
  match d.queue.objectives.select fun _ o => o.planId.any fun p => runId ∈ d.graph.linkedRuns p with
  | [] => .ok none
  | [o] => .ok (some o.2.status)
  | _ => .error "Run is linked to multiple objectives"

/-- `run_plan_has_active_human_gate`. -/
def runPlanHasActiveHumanGate (d : Database) (runId : RunId) : Except String Bool :=
  match d.graph.plans.select fun p _ => runId ∈ d.graph.linkedRuns p with
  | [] => .ok false
  | [p] => .ok (planHasActiveHumanGate d.graph d.store p.1)
  | _ => .error "Run is linked to multiple orchestration plans"

/-- The row `insert_integration` writes. -/
def Application.integration (a : Application) (run : Run) (status : IntegrationStatus)
    (mainBefore : Commit) (approvalId : Option ApprovalId) (finished : Bool) (now : Time) :
    Integration where
  runId := a.runId
  reviewId := a.reviewId
  controllerOwner := a.owner
  decision := a.decision
  verdict := a.verdict
  status
  baseCommit := run.baseCommit
  reviewedCommit := run.resultCommit
  mainBefore
  mainAfter := mainBefore
  snapshotVerified := true
  reviewCurrent := true
  approvalId
  failureReason := none
  createdAt := now
  finishedAt := if finished then some now else none

/-- How a decision transaction ends: with a result and nothing written, or with a write. -/
inductive Settlement (α : Type) where
  | refused (result : IntegrationResult)
  | written (value : α)

/-- The tests both decision transactions make under the write lock; the row is the current run. -/
def decisionGuard (d : Database) (a : Application) : Except String (Settlement Run) :=
  match d.store.runs.get? a.runId with
  | none => .error s!"Unknown run: {a.runId}"
  | some current =>
    match getLock d.store a.runId with
    | none => .error "Active transaction lock is absent"
    | some lock => do
      validateOwner current lock a.owner
      if current.status ≠ .reviewing then
        .error s!"Run is no longer REVIEWING: {current.status.name}"
      else
        let objective ← objectiveStatusForRun d a.runId
        if objective = some .cancelRequested ∨ objective = some .cancelled then
          return .refused cancelledIntegrationResult
        else if ← runPlanHasActiveHumanGate d a.runId then
          return .refused blockedHumanIntegrationResult
        else return .written current

/-- `WAITING_HUMAN` until an operator decides. -/
def Run.waiting (now : Time) (r : Run) : Run :=
  { r with status := .waitingHuman, recoveryDecision := some .blockHuman, heartbeatAt := some now }

/-- `record_non_integration`. -/
def recordNonIntegration (d : Database) (a : Application) (mainBefore : Commit)
    (integrationId : IntegrationId) (approvalId : ApprovalId) (now : Time) :
    Except String (Settlement (Store × IntegrationResult)) := do
  match ← decisionGuard d a with
  | .refused result => return .refused result
  | .written current =>
    let s := d.store
    let locks := s.heartbeatLock a.runId now
    match a.action with
    | .reject =>
      match s.integrations.insert integrationId
          (a.integration current .rejected mainBefore none true now) with
      | none => .error "UNIQUE constraint failed: integration_executions.integration_id"
      | some integrations =>
        return .written ({ s with integrations, locks }, ⟨.reject, .rejected, false, false⟩)
    | .blockHuman =>
      match s.approvals.insert approvalId ⟨a.runId, .pending, now, none⟩,
          s.integrations.insert integrationId
            (a.integration current .blocked mainBefore (some approvalId) true now) with
      | some approvals, some integrations =>
        return .written ({ s with
          approvals
          integrations
          locks
          runs := s.runs.update (fun i r => i = a.runId ∧ r.status = .reviewing) (Run.waiting now) },
          ⟨.blockHuman, .blocked, false, false⟩)
      | _, _ => .error "UNIQUE constraint failed"
    | _ => .error "Unsupported non-integration action"

def Run.committing (now : Time) (r : Run) : Run :=
  { r with status := .committing, heartbeatAt := some now }

/-- The transaction of `integrate_approved`. -/
def prepareIntegration (d : Database) (a : Application) (mainBefore : Commit)
    (integrationId : IntegrationId) (now : Time) : Except String (Settlement Store) := do
  match ← decisionGuard d a with
  | .refused result => return .refused result
  | .written current =>
    let s := d.store
    if s.integrations.any fun _ i => i.runId = a.runId ∧
        (i.status = .prepared ∨ i.status = .completed) then
      .error "Run already has an active or completed integration"
    else
      match s.integrations.insert integrationId
          (a.integration current .prepared mainBefore none false now) with
      | none => .error "UNIQUE constraint failed: integration_executions.integration_id"
      | some integrations =>
        if ¬(a.run.resultCommit.isSome ∧ current.resultCommit = a.run.resultCommit ∧
            current.baseCommit = a.run.baseCommit) then
          .error "Run changed before integration preparation"
        else
          return .written { s with
            integrations
            runs := s.runs.update (fun i r => i = a.runId ∧ r.status = .reviewing)
              (Run.committing now)
            locks := s.heartbeatLock a.runId now }

def Run.completed (decision : Option RecoveryDecision) (now : Time) (r : Run) : Run :=
  { r with
    status := .completed
    recoveryDecision := decision
    finishedAt := some now
    heartbeatAt := some now }

def Integration.completed (mainAfter : Commit) (now : Time) (x : Integration) : Integration :=
  { x with status := .completed, mainAfter, finishedAt := some now }

def finalizeCompleted (s : Store) (runId : RunId) (integrationId : IntegrationId)
    (mainAfter : Commit) (now : Time) : Except String Store :=
  match s.runs.get? runId with
  | none => .error s!"Unknown run: {runId}"
  | some current =>
    if current.status ≠ .committing then
      .error s!"Cannot finalize integration from status {current.status.name}"
    else if current.resultCommit ≠ some mainAfter then
      .error "Final main commit differs from reviewed result"
    else if ¬s.integrations.any fun i x => i = integrationId ∧ x.status = .prepared then
      .error "Prepared integration record is absent"
    else if s.integrations.any fun i x =>
        i ≠ integrationId ∧ x.runId = runId ∧ x.status = .completed then
      .error "UNIQUE constraint failed: integration_executions.run_id"
    else
      .ok { s with
        integrations := s.integrations.update (fun i x => i = integrationId ∧ x.status = .prepared)
          (Integration.completed mainAfter now)
        locks := s.releaseLock runId
        runs := s.runs.update (fun i r => i = runId ∧ r.status = .committing)
          (Run.completed none now) }

def Run.ambiguous (now : Time) (r : Run) : Run :=
  { r with status := .recovering, recoveryDecision := some .blockHuman, heartbeatAt := some now }

def Integration.ambiguous (reason : String) (mainAfter : Option Commit) (now : Time)
    (x : Integration) : Integration :=
  { x with
    status := .failed
    mainAfter := mainAfter.getD x.mainAfter
    failureReason := some reason
    finishedAt := some now }

/-- The integration row is written whatever its status; the run only while `COMMITTING`. -/
def markAmbiguousFailure (s : Store) (runId : RunId) (integrationId : IntegrationId)
    (reason : String) (mainAfter : Option Commit) (now : Time) : Store :=
  { s with
    integrations := s.integrations.updateAt integrationId (Integration.ambiguous reason mainAfter now)
    runs := s.runs.update (fun i r => i = runId ∧ r.status = .committing) (Run.ambiguous now) }

end HermesOps
