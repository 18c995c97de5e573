import HermesOps.Model.Integrator

/-! `hermesops-recovery.py`: the assessment of a run from its rows and from what Git reports, and
    the transactions that resume, abort or block it. -/

namespace HermesOps

/-! ### Assessment -/

/-- What `assess_run` reads from the database. -/
structure RunRows where
  runId : RunId
  run : Run
  lockPresent : Bool
  snapshotPresent : Bool
  integration : Option (IntegrationId × Integration)
  deriving DecidableEq

/-- The latest integration of the run, `ORDER BY created_at DESC LIMIT 1`. -/
def getIntegration (s : Store) (runId : RunId) : Option (IntegrationId × Integration) :=
  ((s.integrations.select fun _ i => i.runId = runId).insertionSort fun a b =>
    b.2.createdAt ≤ a.2.createdAt).head?

def assessRead (s : Store) (runId : RunId) : Except String RunRows :=
  match s.runs.get? runId with
  | none => .error s!"Unknown run: {runId}"
  | some run =>
    .ok ⟨runId, run, s.lockPresent runId, (s.snapshots.get? runId).isSome, getIntegration s runId⟩

inductive Assessment where
  | noAction
  | decided (decision : RecoveryDecision)
  deriving DecidableEq

/-- The worktree is there, registered, clean and at the commit. -/
def Worktree.coherentAt (w : Option Worktree) (commit : Option Commit) : Bool :=
  w.any fun w => w.present ∧ w.registered ∧ w.clean ∧ commit = some w.head

/-- Neither present nor registered. -/
def Worktree.disappeared (w : Option Worktree) : Bool :=
  w.all fun w => ¬w.present ∧ ¬w.registered

/-- `base_is_ancestor`, evaluated in the worktree. -/
def baseIsAncestor (h : History) (run : Run) (w : Option Worktree) : Bool :=
  w.any fun w => w.present && h.isAncestor run.baseCommit w.head

/-- The branch of the policy table that the run's status selects. -/
def assessByStatus (h : History) (rows : RunRows) (head : Commit) (w : Option Worktree) :
    RecoveryDecision :=
  let run := rows.run
  match run.status with
  | .waitingHuman => .blockHuman
  | .committing =>
    match rows.integration with
    | none => .blockHuman
    | some (_, i) =>
      if ¬(i.status = .prepared ∨ i.status = .failed) then .blockHuman
      else if run.resultCommit = some head then .resumeSafe
      else if head = run.baseCommit ∧ Worktree.coherentAt w run.resultCommit ∧
          baseIsAncestor h run w then .resumeSafe
      else .blockHuman
  | .running =>
    if head ≠ run.baseCommit then .blockHuman
    else if (w.any fun w => w.present ∧ w.registered ∧ w.clean ∧ w.onBranch) ∧
        baseIsAncestor h run w then .resumeSafe
    else if Worktree.disappeared w then .rollbackSafe
    else .blockHuman
  | .reviewing =>
    if head ≠ run.baseCommit then .blockHuman
    else if run.resultCommit.isSome ∧ Worktree.coherentAt w run.resultCommit then .resumeSafe
    else if Worktree.disappeared w then .rollbackSafe
    else .blockHuman
  | .failed => if head = run.baseCommit then .rollbackSafe else .blockHuman
  | .recovering =>
    match run.recoveryDecision with
    | some .rollbackSafe => if head = run.baseCommit then .rollbackSafe else .blockHuman
    | some .resumeSafe =>
      -- the head is already known to be the base or the result here
      if rows.integration.isSome then .resumeSafe else .blockHuman
    | _ => .blockHuman
  | .snapshotting => .rollbackSafe
  | _ => .blockHuman

/-- `assess_run`; `intact` is what the artifact hashes and the bundle report. -/
def assessRun (h : History) (rows : RunRows) (repo : Repository) (w : Option Worktree)
    (intact : Bool) : Assessment :=
  let run := rows.run
  if run.status.isTerminal ∧ run.status ≠ .failed then .noAction
  else if ¬repo.present ∨ ¬repo.onDefaultBranch ∨ ¬repo.clean then .decided .blockHuman
  else if run.status = .snapshotting ∧ ¬rows.snapshotPresent then
    .decided (if repo.head = run.baseCommit then .rollbackSafe else .blockHuman)
  else if ¬(rows.snapshotPresent ∧ intact) then .decided .blockHuman
  else if ¬(repo.head = run.baseCommit ∨ run.resultCommit = some repo.head) then
    .decided .blockHuman
  else
    match assessByStatus h rows repo.head w with
    | .resumeSafe =>
      if ¬rows.lockPresent ∧ ¬(run.status = .committing ∧ run.resultCommit = some repo.head) then
        .decided .blockHuman
      else .decided .resumeSafe
    | decision => .decided decision

/-! ### Transactions -/

def Run.resumable (now : Time) (r : Run) : Run :=
  { r with recoveryDecision := some .resumeSafe, heartbeatAt := some now }

/-- `apply_resume` for a run that was assessed `RUNNING` or `REVIEWING`. -/
def resumeHeartbeat (s : Store) (runId : RunId) (status : RunStatus) (now : Time) : Store :=
  { s with
    runs := s.runs.update (fun i r => i = runId ∧ r.status = status) (Run.resumable now)
    locks := s.heartbeatLock runId now }

def Integration.resumed (mainHead : Commit) (now : Time) (x : Integration) : Integration :=
  { x with
    status := .completed
    mainAfter := mainHead
    failureReason := none
    finishedAt := some now }

/-- The last transaction of `apply_resume`, after the fast-forward. -/
def resumeFinish (s : Store) (runId : RunId) (integrationId : IntegrationId) (mainHead : Commit)
    (now : Time) : Except String Store :=
  match s.runs.get? runId with
  | none => .error s!"Unknown run: {runId}"
  | some current =>
    if ¬(current.status = .committing ∨ current.status = .recovering) then
      .error s!"Run changed during recovery: {current.status.name}"
    else if ¬s.integrations.any fun i x =>
        i = integrationId ∧ (x.status = .prepared ∨ x.status = .failed) then
      .error "Recoverable integration record changed"
    else if s.integrations.any fun i x =>
        i ≠ integrationId ∧ x.runId = runId ∧ x.status = .completed then
      .error "UNIQUE constraint failed: integration_executions.run_id"
    else
      .ok { s with
        integrations := s.integrations.update
          (fun i x => i = integrationId ∧ (x.status = .prepared ∨ x.status = .failed))
          (Integration.resumed mainHead now)
        locks := s.releaseLock runId
        runs := s.runs.updateAt runId (Run.completed (some .resumeSafe) now) }

/-- The transaction of `rollback_without_snapshot`, after the worktree is gone. -/
def abortSnapshotting (s : Store) (runId : RunId) (now : Time) : Store := rollbackFinish s runId now

/-- `apply_rollback` on a run it read as `COMMITTING`. -/
def forceRollback (s : Store) (runId : RunId) (now : Time) : Store :=
  { s with
    integrations := s.failPreparedIntegrations runId "Cancelled by ROLLBACK_SAFE recovery" now
    runs := s.runs.updateAt runId (Run.rollingBack now) }

/-- `ensure_lock_for_block`. -/
def ensureLockForBlock (s : Store) (runId : RunId) (run : Run) (owner : String) (now : Time) :
    Except String (Schemes.Table ProjectId Lock) :=
  match s.locks.get? run.projectId with
  | some lock => if lock.runId ≠ runId then .error "Project is locked by another run" else .ok s.locks
  | none =>
    if s.lockPresent runId then .error "UNIQUE constraint failed: project_locks.run_id"
    else
      let holder := if run.transactionOwner = "" then owner else run.transactionOwner
      match s.locks.insert run.projectId ⟨runId, holder, now, now⟩ with
      | some locks => .ok locks
      | none => .error "UNIQUE constraint failed: project_locks.project_id"

/-- `apply_block`. -/
def applyBlock (s : Store) (runId : RunId) (owner : String) (approvalId : ApprovalId)
    (now : Time) : Except String Store :=
  match s.runs.get? runId with
  | none => .error s!"Unknown run: {runId}"
  | some run => do
    let locks ← ensureLockForBlock s runId run owner now
    let approvals ←
      if s.approvals.any fun _ a => a.runId = runId ∧ a.status = .pending then
        Except.ok s.approvals
      else
        match s.approvals.insert approvalId ⟨runId, .pending, now, none⟩ with
        | some approvals => .ok approvals
        | none => .error "UNIQUE constraint failed: approvals.approval_id"
    return { s with
      approvals
      integrations := s.failPreparedIntegrations runId "Recovery requires human decision" now
      runs := s.runs.updateAt runId (Run.waiting now)
      locks := locks.update (fun _ l => l.runId = runId) fun l => { l with heartbeatAt := now } }

end HermesOps
