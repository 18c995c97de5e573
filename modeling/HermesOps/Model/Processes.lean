import HermesOps.Model.Recovery

/-! The command-line programs as processes. A process is at a `Stage`; between two stages it does
    one database transaction or one piece of Git work, and any other process may act in between.
    A step that raises leaves the shared state as it was and continues where the `except` of the
    source does. -/

namespace HermesOps

abbrev Pid := Nat

/-- What the programs share: the database, the repositories, the worktrees, the runs whose snapshot
    artifacts are damaged, and the record of the reviews that passed `validate_review`. -/
structure Site where
  db : Database
  projects : Schemes.Table ProjectId Project
  worktrees : Schemes.Table RunId Worktree
  damaged : List RunId
  validated : List (RunId × ReviewId × Option Commit)

def Site.repository (s : Site) (projectId : ProjectId) : Option Repository :=
  (s.projects.get? projectId).map Project.repository

def Site.setStore (s : Site) (store : Store) : Site := { s with db := { s.db with store } }

def Site.setRepository (s : Site) (projectId : ProjectId) (repository : Repository) : Site :=
  { s with projects := s.projects.updateAt projectId fun p => { p with repository } }

/-- `cleanup_worktree`: the worktree and its branch are gone. -/
def Site.cleanupWorktree (s : Site) (runId : RunId) : Site :=
  { s with worktrees := s.worktrees.delete fun r _ => r = runId }

/-- Where a process is; the name says what it has done or is about to do. -/
inductive Stage where
  -- hermesops-transaction.py
  | begin (projectId : ProjectId) (owner : String)
  | snapshotting (runId : RunId)
  | activating (runId : RunId)
  | unwinding (runId : RunId)
  | aborting (runId : RunId)
  | submit (runId : RunId)
  | submitting (runId : RunId) (run : Run)
  | submitted (runId : RunId) (resultCommit : Commit)
  | rollback (runId : RunId)
  | cleaning (runId : RunId)
  | rollingBack (runId : RunId)
  -- hermesops-integrator.py
  | apply (runId : RunId) (owner : String)
  | reviewed (a : Application)
  | checked (a : Application) (mainBefore : Commit)
  | verified (a : Application) (mainBefore : Commit)
  | prepared (a : Application) (integrationId : IntegrationId)
  | merged (a : Application) (integrationId : IntegrationId)
  | observed (a : Application) (integrationId : IntegrationId) (mainAfter : Commit)
  | raised (a : Application) (integrationId : IntegrationId) (error : String)
  | recleaning (a : Application) (integrationId : IntegrationId) (mainAfter : Commit)
      (error : String)
  | retried (a : Application) (integrationId : IntegrationId) (mainAfter : Commit) (error : String)
  | ambiguous (a : Application) (integrationId : IntegrationId) (mainAfter : Option Commit)
      (reason : String)
  -- hermesops-recovery.py
  | recover (runId : RunId) (owner : String) (expected : Option RecoveryDecision)
      (staleAfter : Option Time)
  | assessing (rows : RunRows) (owner : String) (expected : Option RecoveryDecision)
      (staleAfter : Option Time)
  | resuming (runId : RunId) (status : RunStatus)
  | resumed (runId : RunId) (run : Run) (integrationId : IntegrationId)
  | fastForwarding (runId : RunId) (run : Run) (integrationId : IntegrationId)
  | fastForwarded (runId : RunId) (run : Run) (integrationId : IntegrationId)
  | resumeFinishing (runId : RunId) (integrationId : IntegrationId) (mainHead : Commit)
  | rollbackSafe (runId : RunId) (withoutSnapshot : Bool)
  | abortSnapshotting (runId : RunId)
  | forcing (runId : RunId)
  | blocking (runId : RunId) (owner : String)
  deriving DecidableEq

/-- What a finished process leaves for the one that waits for it. -/
inductive Exit where
  | failed
  | begun (runId : RunId)
  | submitted
  | rolledBack
  | integration (result : IntegrationResult)
  | recovered
  deriving DecidableEq

inductive Progress where
  | next (stage : Stage)
  | exit (result : Exit)
  deriving DecidableEq

/-- Where an exception takes the process. -/
def Stage.onError (error : String) : Stage → Progress
  | .snapshotting r | .activating r => .next (.unwinding r)
  | .prepared a i | .merged a i | .observed a i _ => .next (.raised a i error)
  | .raised a i e => .next (.ambiguous a i none e)
  | .recleaning a i m e | .retried a i m e =>
    .next (.ambiguous a i (some m) s!"{e}; completion recovery failed: {error}")
  | _ => .exit .failed

/-- A missing row as an exception. -/
def orFail {α : Type} (error : String) : Option α → Except String α
  | some a => .ok a
  | none => .error error

/-- The repository of a run's project. -/
def Site.runRepository (s : Site) (run : Run) : Except String Repository :=
  orFail "Repository is absent" (s.repository run.projectId)

/-- The repository checks and the worktree removal between the fast-forward and the transaction
    that records it. -/
def Site.settleMerge (s : Site) (runId : RunId) (repo : Repository) (resultCommit : Option Commit) :
    Except String Site :=
  if resultCommit ≠ some repo.head then .error "Default branch did not reach the reviewed commit"
  else if ¬repo.clean then .error "Default branch is dirty after fast-forward"
  else .ok (s.cleanupWorktree runId)

/-- The work of one step, up to its exceptions. -/
def Stage.body (h : History) (now : Time) (fresh : Nat) (s : Site) :
    Stage → Except String (Site × Progress)
  | .begin projectId owner => do
    let store ← beginReserve s.db.store projectId (s.projects.get? projectId) fresh owner now
    return (s.setStore store, .next (.snapshotting fresh))
  | .snapshotting r => do
    let run ← orFail "Unknown run" (s.db.store.runs.get? r)
    let worktrees ← orFail "Worktree already exists"
      (s.worktrees.insert r ⟨true, true, true, true, run.baseCommit⟩)
    return ({ s with worktrees }, .next (.activating r))
  | .activating r => do
    let store ← beginActivate s.db.store r now
    return (s.setStore store, .exit (.begun r))
  | .unwinding r => return (s.cleanupWorktree r, .next (.aborting r))
  | .aborting r => return (s.setStore (beginAbort s.db.store r now), .exit .failed)
  | .submit r => do
    let run ← submitRead s.db.store r
    return (s, .next (.submitting r run))
  | .submitting r run => do
    let commit ← submitCheck h run (s.worktrees.get? r)
    return (s, .next (.submitted r commit))
  | .submitted r commit => return (s.setStore (submitWrite s.db.store r commit now), .exit .submitted)
  | .rollback r => do
    let store ← rollbackStart s.db.store r (r ∉ s.damaged) now
    return (s.setStore store, .next (.cleaning r))
  | .cleaning r => return (s.cleanupWorktree r, .next (.rollingBack r))
  | .rollingBack r => return (s.setStore (rollbackFinish s.db.store r now), .exit .rolledBack)
  | .apply r owner => do
    let enabled := ((s.db.store.runs.get? r).bind fun run => s.projects.get? run.projectId).any
      Project.enabled
    let a ← applyRead s.db.store enabled r owner
    return ({ s with validated := (r, a.reviewId, a.run.resultCommit) :: s.validated },
      .next (.reviewed a))
  | .reviewed a => do
    let repo ← s.runRepository a.run
    let mainBefore ← validateGitState h a repo (s.worktrees.get? a.runId)
    return (s, .next (.checked a mainBefore))
  | .checked a mainBefore => do
    let snapshots ← verifySnapshot s.db.store a.runId (a.runId ∉ s.damaged) now
    return (s.setStore { s.db.store with snapshots }, .next (.verified a mainBefore))
  | .verified a mainBefore =>
    if a.action = .integrate then do
      match ← prepareIntegration s.db a mainBefore fresh now with
      | .refused result => return (s, .exit (.integration result))
      | .written store => return (s.setStore store, .next (.prepared a fresh))
    else do
      match ← recordNonIntegration s.db a mainBefore fresh fresh now with
      | .refused result => return (s, .exit (.integration result))
      | .written (store, result) => return (s.setStore store, .exit (.integration result))
  | .prepared a i => do
    let repo ← s.runRepository a.run
    let commit ← orFail "fatal: no commit" a.run.resultCommit
    let moved ← orFail "fatal: Not possible to fast-forward, aborting." (repo.mergeFfOnly h commit)
    return (s.setRepository a.run.projectId moved, .next (.merged a i))
  | .merged a i => do
    let repo ← s.runRepository a.run
    let settled ← s.settleMerge a.runId repo a.run.resultCommit
    return (settled, .next (.observed a i repo.head))
  | .observed a i mainAfter => do
    let store ← finalizeCompleted s.db.store a.runId i mainAfter now
    return (s.setStore store, .exit (.integration ⟨.integrate, .completed, true, false⟩))
  | .raised a i e => do
    let repo ← s.runRepository a.run
    if a.run.resultCommit = some repo.head then return (s, .next (.recleaning a i repo.head e))
    else return (s, .next (.ambiguous a i (some repo.head) e))
  | .recleaning a i mainAfter e =>
    return (s.cleanupWorktree a.runId, .next (.retried a i mainAfter e))
  | .retried a i mainAfter _ => do
    let store ← finalizeCompleted s.db.store a.runId i mainAfter now
    return (s.setStore store, .exit (.integration ⟨.integrate, .completed, true, false⟩))
  | .ambiguous a i mainAfter reason =>
    return (s.setStore (markAmbiguousFailure s.db.store a.runId i reason mainAfter now), .exit .failed)
  | .recover r owner expected staleAfter => do
    let rows ← assessRead s.db.store r
    return (s, .next (.assessing rows owner expected staleAfter))
  | .assessing rows owner expected staleAfter => do
    let repo := (s.repository rows.run.projectId).getD ⟨false, false, false, 0, []⟩
    match assessRun h rows repo (s.worktrees.get? rows.runId) (rows.runId ∉ s.damaged) with
    | .noAction => return (s, .exit .recovered)
    | .decided decision =>
      if expected.any fun e => e ≠ decision then .error "Recovery decision changed"
      else if staleAfter.isSome ∧ rows.run.heartbeatAt.isNone then
        .error "Run heartbeat is absent or invalid; use --force"
      else if staleAfter.any fun age => rows.run.heartbeatAt.any fun t => now - t < age then
        .error "Run is not stale"
      else
        match decision with
        | .resumeSafe => return (s, .next (.resuming rows.runId rows.run.status))
        | .rollbackSafe =>
          return (s, .next (.rollbackSafe rows.runId
            (rows.run.status = .snapshotting ∧ ¬rows.snapshotPresent)))
        | .blockHuman => return (s, .next (.blocking rows.runId owner))
  | .resuming r status =>
    if status = .running ∨ status = .reviewing then
      return (s.setStore (resumeHeartbeat s.db.store r status now), .exit .recovered)
    else if ¬(status = .committing ∨ status = .recovering) then
      .error s!"RESUME_SAFE cannot apply to status {status.name}"
    else do
      let run ← orFail "Unknown run" (s.db.store.runs.get? r)
      let i ← orFail "Integration record is absent during commit recovery"
        (getIntegration s.db.store r)
      return (s, .next (.resumed r run i.1))
  | .resumed r run i => do
    let repo ← s.runRepository run
    if repo.head = run.baseCommit then return (s, .next (.fastForwarding r run i))
    else do
      let settled ← s.settleMerge r repo run.resultCommit
      return (settled, .next (.resumeFinishing r i repo.head))
  | .fastForwarding r run i => do
    let repo ← s.runRepository run
    let commit ← orFail "fatal: no commit" run.resultCommit
    let moved ← orFail "fatal: Not possible to fast-forward, aborting." (repo.mergeFfOnly h commit)
    return (s.setRepository run.projectId moved, .next (.fastForwarded r run i))
  | .fastForwarded r run i => do
    let repo ← s.runRepository run
    let settled ← s.settleMerge r repo run.resultCommit
    return (settled, .next (.resumeFinishing r i repo.head))
  | .resumeFinishing r i head => do
    let store ← resumeFinish s.db.store r i head now
    return (s.setStore store, .exit .recovered)
  | .rollbackSafe r withoutSnapshot => do
    if withoutSnapshot then return (s.cleanupWorktree r, .next (.abortSnapshotting r))
    else do
      let run ← orFail "Unknown run" (s.db.store.runs.get? r)
      if run.status = .committing then return (s, .next (.forcing r))
      else return (s, .next (.rollback r))
  | .abortSnapshotting r =>
    return (s.setStore (HermesOps.abortSnapshotting s.db.store r now), .exit .recovered)
  | .forcing r => return (s.setStore (forceRollback s.db.store r now), .next (.rollback r))
  | .blocking r owner => do
    let store ← applyBlock s.db.store r owner fresh now
    return (s.setStore store, .exit .recovered)

/-- One step of a process; `fault` is an exception raised by the work itself. -/
def Stage.step (h : History) (now : Time) (fresh : Nat) (fault : Bool) (s : Site) (stage : Stage) :
    Site × Progress :=
  if fault then (s, stage.onError "interrupted")
  else
    match stage.body h now fresh s with
    | .ok result => result
    | .error e => (s, stage.onError e)

end HermesOps
