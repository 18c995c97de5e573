import HermesOps.Model.Tasks

/-! `hermesops-transaction.py`: the repositories and worktrees it works on, and the database
    transactions of `begin`, `submit` and `rollback`. The git work between two transactions is a
    step of its own, taken by the process that runs the command. -/

namespace HermesOps

/-! ### Repositories -/

/-- The ancestor relation of the commit graph. Commits are content-addressed, so it never changes;
    the model takes it as given. -/
structure History where
  isAncestor : Commit → Commit → Bool
  refl : ∀ c, isAncestor c c = true
  trans : ∀ a b c, isAncestor a b = true → isAncestor b c = true → isAncestor a c = true

/-- A project's main checkout. `reflog` lists, newest first, the commits the default branch was
    fast-forwarded to by `git merge --ff-only`. -/
structure Repository where
  present : Bool
  onDefaultBranch : Bool
  clean : Bool
  head : Commit
  reflog : List Commit
  deriving DecidableEq

/-- A `projects` row with the repository it points to. -/
structure Project where
  enabled : Bool
  repository : Repository
  deriving DecidableEq

/-- The worktree of a run, with what the git commands would report about it. -/
structure Worktree where
  present : Bool
  registered : Bool
  onBranch : Bool
  clean : Bool
  head : Commit
  deriving DecidableEq

/-- `git merge --ff-only`: nothing to do, a fast-forward, or an error that moves nothing. -/
def Repository.mergeFfOnly (h : History) (repo : Repository) (commit : Commit) :
    Option Repository :=
  if h.isAncestor commit repo.head then some repo
  else if h.isAncestor repo.head commit then
    some { repo with head := commit, reflog := commit :: repo.reflog }
  else none

def validateRepository (repo : Repository) : Except String Commit :=
  if ¬repo.present then .error "Repository is absent"
  else if ¬repo.clean then .error "Repository is not clean"
  else if ¬repo.onDefaultBranch then .error "Repository branch is not the default branch"
  else .ok repo.head

/-! ### `command_begin` -/

def Store.heartbeatLock (s : Store) (runId : RunId) (now : Time) : Schemes.Table ProjectId Lock :=
  s.locks.update (fun _ l => l.runId = runId) fun l => { l with heartbeatAt := now }

def Store.releaseLock (s : Store) (runId : RunId) : Schemes.Table ProjectId Lock :=
  s.locks.delete fun _ l => l.runId = runId

/-- The reservation transaction. -/
def beginReserve (s : Store) (projectId : ProjectId) (project : Option Project) (runId : RunId)
    (owner : String) (now : Time) : Except String Store :=
  match project with
  | none => .error s!"Unknown project: {projectId}"
  | some project =>
    if ¬project.enabled then .error s!"Project is disabled: {projectId}"
    else
      match s.locks.get? projectId with
      | some lock =>
        .error s!"Project is already locked by run={lock.runId} holder={lock.holder}"
      | none => do
        let baseCommit ← validateRepository project.repository
        let run : Run :=
          { projectId, status := .snapshotting, recoveryDecision := none, baseCommit,
            resultCommit := none, transactionOwner := owner, createdAt := now,
            startedAt := some now, finishedAt := none, heartbeatAt := some now, submittedAt := none }
        match s.runs.insert runId run,
            s.locks.insert projectId ⟨runId, owner, now, now⟩ with
        | some runs, some locks =>
          if s.lockPresent runId then .error "UNIQUE constraint failed: project_locks.run_id"
          else .ok { s with runs, locks }
        | _, _ => .error "UNIQUE constraint failed: runs.run_id"

def Run.activated (now : Time) (r : Run) : Run := { r with status := .running, heartbeatAt := some now }

/-- The activation transaction: neither `UPDATE` looks at what the run has become. -/
def beginActivate (s : Store) (runId : RunId) (now : Time) : Except String Store :=
  match s.runs.get? runId with
  | none => .error "FOREIGN KEY constraint failed"
  | some run =>
    match s.snapshots.insert runId ⟨run.projectId, run.baseCommit, false, now, none⟩ with
    | none => .error "UNIQUE constraint failed: snapshots.run_id"
    | some snapshots =>
      .ok { s with
        snapshots
        runs := s.runs.updateAt runId (Run.activated now)
        locks := s.heartbeatLock runId now }

def Run.aborted (now : Time) (r : Run) : Run :=
  { r with status := .failed, finishedAt := some now, heartbeatAt := some now }

/-- The transaction of the `except` branch. -/
def beginAbort (s : Store) (runId : RunId) (now : Time) : Store :=
  { s with
    locks := s.releaseLock runId
    runs := s.runs.updateAt runId (Run.aborted now) }

/-! ### `command_submit` -/

def RunStatus.name : RunStatus → String
  | .queued => "QUEUED"
  | .snapshotting => "SNAPSHOTTING"
  | .running => "RUNNING"
  | .reviewing => "REVIEWING"
  | .waitingHuman => "WAITING_HUMAN"
  | .committing => "COMMITTING"
  | .completed => "COMPLETED"
  | .failed => "FAILED"
  | .cancelled => "CANCELLED"
  | .recovering => "RECOVERING"

/-- The first read of the command. -/
def submitRead (s : Store) (runId : RunId) : Except String Run :=
  match s.runs.get? runId with
  | none => .error s!"Unknown run: {runId}"
  | some run =>
    if run.status ≠ .running then
      .error s!"Run cannot be submitted from status {run.status.name}"
    else .ok run

/-- The checks in the worktree; they return the commit to submit. -/
def submitCheck (h : History) (run : Run) (worktree : Option Worktree) : Except String Commit :=
  match worktree with
  | none => .error "Worktree registration is absent"
  | some w =>
    if ¬w.registered then .error "Worktree registration is absent"
    else if ¬w.onBranch then .error "Unexpected branch"
    else if ¬w.clean then .error "Worktree must be clean before submission"
    else if w.head = run.baseCommit then .error "Submission requires at least one commit"
    else if ¬h.isAncestor run.baseCommit w.head then
      .error "Result commit does not descend from the transaction base"
    else .ok w.head

def Run.submitted (resultCommit : Commit) (now : Time) (r : Run) : Run :=
  { r with
    status := .reviewing
    resultCommit := some resultCommit
    submittedAt := some now
    heartbeatAt := some now }

/-- The submission transaction; a run that is no longer `RUNNING` is left alone. -/
def submitWrite (s : Store) (runId : RunId) (resultCommit : Commit) (now : Time) : Store :=
  { s with
    runs := s.runs.update (fun i r => i = runId ∧ r.status = .running)
      (Run.submitted resultCommit now)
    locks := s.heartbeatLock runId now }

/-! ### `command_rollback` -/

def Snapshot.verify (now : Time) (x : Snapshot) : Snapshot :=
  { x with verified := true, verifiedAt := some now }

/-- `verify_snapshot`; `intact` is what the hashes and `git bundle verify` report. -/
def verifySnapshot (s : Store) (runId : RunId) (intact : Bool) (now : Time) :
    Except String (Schemes.Table RunId Snapshot) :=
  match s.snapshots.get? runId with
  | none => .error s!"Snapshot not found for run: {runId}"
  | some _ =>
    if ¬intact then .error "Snapshot hash mismatch"
    else .ok (s.snapshots.updateAt runId (Snapshot.verify now))

/-- The statuses a rollback starts from. -/
def RunStatus.canRollBack : RunStatus → Bool
  | .snapshotting | .running | .reviewing | .waitingHuman | .recovering | .failed => true
  | _ => false

/-- The first transaction of a rollback. -/
def rollbackStart (s : Store) (runId : RunId) (intact : Bool) (now : Time) : Except String Store :=
  match s.runs.get? runId with
  | none => .error s!"Unknown run: {runId}"
  | some run =>
    if ¬run.status.canRollBack then
      .error s!"Run cannot be rolled back from status {run.status.name}"
    else do
      let snapshots ← verifySnapshot s runId intact now
      return { s with
        snapshots
        runs := s.runs.updateAt runId (Run.rollingBack now) }

def Run.rolledBack (now : Time) (r : Run) : Run :=
  { r with
    status := .cancelled
    recoveryDecision := some .rollbackSafe
    finishedAt := some now
    heartbeatAt := some now }

/-- The last transaction of a rollback; it looks neither at the status nor at the repository. -/
def rollbackFinish (s : Store) (runId : RunId) (now : Time) : Store :=
  { s with
    approvals := s.cancelPendingApprovals runId fun _ => some now
    locks := s.releaseLock runId
    runs := s.runs.updateAt runId (Run.rolledBack now) }

end HermesOps
