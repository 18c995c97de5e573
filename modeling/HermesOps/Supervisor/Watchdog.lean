import HermesOps.Schemes.Machine
import HermesOps.Schemes.Monitor
import HermesOps.Schemes.Table
import HermesOps.Controller.Values
import HermesOps.Model.Database

/-! `hermesops-supervisor.py` on the tables of the migration 008. Any number of processes run the commands
    `run`, `sweep-once` and the lock probe of `status` and `probe-lock`; each action is one step of one of
    them, up to the next write that others can see, and any process may raise, get a signal or die between
    two steps. What Docker, the recovery child, the clock and the tables of the runs answer comes with the
    step. A JSON column holds the record whose text it is. -/

namespace HermesOps.Supervisor

open Schemes
open Controller (Json)

/-! ### Docker -/

/-- What `docker inspect` of one container comes to. -/
inductive Inspection where
  | failed (stderr : String)
  | invalid
  | state (running : Bool) (health : Option String) (error : Option String)

/-- The answers of Docker: its version or its error, and one inspection for each name. -/
structure Docker where
  info : Except String String
  inspect : String → Inspection

structure Container where
  present : Bool
  running : Bool
  health : Option String
  healthy : Bool
  error : Option String
  deriving DecidableEq

structure Health where
  checkedAt : Time
  healthy : Bool
  reachable : Bool
  version : Option String
  error : Option String
  containers : List (String × Container)
  deriving DecidableEq

/-- `CORE_CONTAINERS`. -/
def coreContainers : List String := ["hermesops-sandbox-engine", "hermesops-agent"]

/-- `INFORMATIONAL_CONTAINERS`. -/
def informationalContainers : List String := ["hermesops-webui"]

def Inspection.container : Inspection → Container
  | .failed stderr => ⟨false, false, none, false, some stderr⟩
  | .invalid => ⟨true, false, none, false, some "invalid docker inspect output"⟩
  | .state running health error =>
    ⟨true, running, health, running && (health = none || health = some "healthy"), error⟩

/-- `docker_health`. -/
def dockerHealth (now : Time) (docker : Docker) : Health :=
  match docker.info with
  | .error stderr => ⟨now, false, false, none, some stderr, []⟩
  | .ok version =>
    let containers := (coreContainers ++ informationalContainers).map fun name =>
      (name, (docker.inspect name).container)
    ⟨now, coreContainers.all fun name => (containers.lookup name).any Container.healthy, true,
      some version, none,
      containers⟩

/-! ### Tables -/

inductive InstanceStatus where
  | starting | running | stopping | stopped | failed | abandoned
  deriving DecidableEq

/-- A row of `supervisor_instances`. -/
structure InstanceRow where
  hostname : String
  pid : Nat
  owner : String
  version : String
  status : InstanceStatus
  startedAt : Time
  heartbeatAt : Time
  stoppedAt : Option Time
  lastSweepId : Option String
  lastError : Option String
  deriving DecidableEq

inductive Trigger where
  | startup | periodic | manual | test
  deriving DecidableEq

inductive SweepStatus where
  | running | completed | skipped | failed
  deriving DecidableEq

/-- What `perform_sweep` returns, and stores with the sweep. -/
structure SweepResult where
  sweepId : String
  trigger : Trigger
  skipped : Bool
  reason : Option String
  health : Health
  recovery : Option Json
  error : Option String

/-- A row of `supervisor_sweeps`; the result of one that is not finished is empty. -/
structure SweepRow where
  instanceId : String
  controllerOwner : String
  trigger : Trigger
  status : SweepStatus
  staleSeconds : Int
  servicesHealthy : Bool
  health : Health
  activeRunsBefore : Nat
  activeRunsAfter : Option Nat
  recoveredRuns : Nat
  orphanActions : Nat
  result : Option SweepResult
  failureReason : Option String
  startedAt : Time
  finishedAt : Option Time

/-- `active_counts`. -/
structure Counts where
  activeRuns : Nat
  projectLocks : Nat
  pendingApprovals : Nat
  deriving DecidableEq

/-- The payload of `status.json`. -/
structure RuntimeStatus where
  instanceId : String
  pid : Nat
  state : String
  lockHeld : Bool
  health : Health
  counts : Counts
  lastSweepId : Option String
  message : String
  updatedAt : Time
  deriving DecidableEq

/-- A recovery child that was started, with the sweep it was started for. -/
structure Launch where
  sweepId : String
  owner : String
  staleSeconds : Int
  deriving DecidableEq

/-- What the processes share beside the lock. -/
structure Store where
  instances : Table String InstanceRow
  sweeps : Table String SweepRow
  status : Option RuntimeStatus
  launched : List Launch

/-- `VERSION`. -/
def version : String := "supervisor-v1"

/-- A row of a supervisor that has not ended. -/
def InstanceRow.isLive (row : InstanceRow) : Bool := row.status = .starting || row.status = .running

/-- What `register_instance` does to the rows before its own. -/
def InstanceRow.abandon (now : Time) (row : InstanceRow) : InstanceRow :=
  { row with
    status := .abandoned
    stoppedAt := some now
    lastError := some (row.lastError.getD "superseded after supervisor restart") }

/-- `register_instance`; the transaction fails as a whole. -/
def registerInstance (instances : Table String InstanceRow) (instanceId hostname : String) (pid : Nat)
    (owner : String) (now : Time) : Option (Table String InstanceRow) :=
  if 0 < pid then
    (instances.update (fun _ row => row.isLive) (InstanceRow.abandon now)).insert instanceId
      ⟨hostname, pid, owner, version, .starting, now, now, none, none, none⟩
  else none

/-- The arguments of `update_instance`. -/
structure InstanceUpdate where
  status : Option InstanceStatus := none
  lastSweepId : Option String := none
  lastError : Option String := none
  stopped : Bool := false

/-- The assignments of `update_instance`. -/
def InstanceUpdate.apply (u : InstanceUpdate) (now : Time) (row : InstanceRow) : InstanceRow :=
  { row with
    heartbeatAt := now
    status := u.status.getD row.status
    lastSweepId := u.lastSweepId <|> row.lastSweepId
    lastError := u.lastError <|> row.lastError
    stoppedAt := if u.stopped then some now else row.stoppedAt }

/-- The assignments of `finish_sweep`. -/
def SweepRow.finish (status : SweepStatus) (activeAfter recoveredRuns orphanActions : Nat)
    (result : SweepResult)
    (failureReason : Option String) (now : Time) (row : SweepRow) : SweepRow :=
  { row with
    status
    activeRunsAfter := some activeAfter
    recoveredRuns
    orphanActions
    result := some result
    failureReason
    finishedAt := some now }

namespace Store

variable (s : Store)

/-- `update_instance`. -/
def updateInstance (instanceId : String) (now : Time) (u : InstanceUpdate) : Store :=
  { s with instances := s.instances.updateAt instanceId (u.apply now) }

/-- `start_sweep`, or the error of the statement. -/
def startSweep (sweepId : String) (row : SweepRow) : Except String Store :=
  if 30 ≤ row.staleSeconds ∧ row.staleSeconds ≤ 86400 then
    match s.sweeps.insert sweepId row with
    | some sweeps => .ok { s with sweeps }
    | none => .error "UNIQUE constraint failed: supervisor_sweeps.sweep_id"
  else .error "CHECK constraint failed: stale_seconds BETWEEN 30 AND 86400"

/-- `finish_sweep`. -/
def finishSweep (sweepId : String) (status : SweepStatus) (activeAfter recoveredRuns orphanActions : Nat)
    (result : SweepResult) (failureReason : Option String) (now : Time) : Store :=
  { s with
    sweeps := s.sweeps.updateAt sweepId
      (SweepRow.finish status activeAfter recoveredRuns orphanActions result failureReason now) }

end Store

/-! ### The reply of the recovery child -/

def isTruthy : Json → Bool
  | .null => false
  | .bool b => b
  | .int n => n ≠ 0
  | .float repr => repr ≠ "0.0" && repr ≠ "-0.0"
  | .str s => s ≠ ""
  | .arr items => ¬items.isEmpty
  | .obj members => ¬members.isEmpty

def typeName : Json → String
  | .null => "NoneType"
  | .bool _ => "bool"
  | .int _ => "int"
  | .float _ => "float"
  | .str _ => "str"
  | .arr _ => "list"
  | .obj _ => "dict"

/-- `value or []`, as the number of its items. -/
def lengthOr : Option Json → Except String Nat
  | none => .ok 0
  | some value =>
    if isTruthy value then
      match value with
      | .str s => .ok s.length
      | .arr items => .ok items.length
      | .obj members => .ok members.length
      | value => .error ("object of type '" ++ typeName value ++ "' has no len()")
    else .ok 0

/-- `(recovery.get("orphans") or {}).get("actions")`. -/
def orphanActions (recovery : List (String × Json)) : Except String (Option Json) :=
  match recovery.lookup "orphans" with
  | none => .ok none
  | some value =>
    if isTruthy value then
      match value with
      | .obj members => .ok (members.lookup "actions")
      | value => .error ("'" ++ typeName value ++ "' object has no attribute 'get'")
    else .ok none

/-- The numbers of recovered runs and of orphan actions in a payload. -/
def recoveryCounts (recovery : List (String × Json)) : Except String (Nat × Nat) := do
  let actions ← orphanActions recovery
  let runs ← lengthOr (recovery.lookup "runs")
  let orphans ← lengthOr actions
  pure (runs, orphans)

/-! ### Processes -/

/-- The configuration that `load_config` has accepted. -/
structure Config where
  staleSeconds : Int
  bounded : 30 ≤ staleSeconds ∧ staleSeconds ≤ 86400

/-- The commands that take the lock. A manual sweep has its own `--stale-seconds`, which is not checked. -/
inductive Command where
  | run (owner : String) (config : Config)
  | sweepOnce (owner : String) (test : Bool) (staleSeconds : Option Int) (config : Config)
  /-- `lock_is_held` of `status` and `probe-lock`. -/
  | probe

/-- Where `perform_sweep` stands after `start_sweep`. -/
inductive Stage where
  /-- Before `last_sweep_id` is written. -/
  | noting (before : Nat)
  | skipping (before : Nat)
  | skipped
  /-- At the start of the `try` block. -/
  | invoking
  /-- The recovery child is running. -/
  | recovering
  | completing (recovery : List (String × Json))
  | completed
  | reporting
  /-- The `except` clause. -/
  | failing (error : String)
  | failed (error : String)
  | degraded (error : String)
  | returned

/-- Where a process stands. -/
inductive Phase where
  | entering
  /-- Exit code 75. -/
  | refused
  /-- `lock_is_held` has got the lock. -/
  | probing
  | locked
  | starting (instanceId : String)
  /-- `wait_for_core_health`, with the last health if it is known. -/
  | waiting (instanceId : String) (last : Option Health)
  /-- The same, before its status is written. -/
  | retrying (instanceId : String) (last : Health)
  | gated (instanceId : String) (health : Health)
  /-- `perform_sweep`, up to `start_sweep`. -/
  | beginning (instanceId : String) (trigger : Trigger)
  | sweeping (instanceId : String) (trigger : Trigger) (sweepId : String) (health : Health) (stage : Stage)
  /-- The head of the loop. -/
  | idle (instanceId : String)
  | stopping (instanceId : String)
  | finishing (instanceId : String)
  /-- The `except` clause of the command. -/
  | handling (instanceId : String) (error : String)
  | handled (instanceId : String) (error : String)
  /-- The `finally` clause. -/
  | closing
  | ended

structure Proc where
  command : Command
  hostname : String
  pid : Nat
  phase : Phase
  /-- `stop_event`. -/
  stop : Bool

/-- What a step is told from outside. -/
structure Draws where
  now : Time
  hex : String
  docker : Docker
  counts : Counts
  /-- The deadline of the wait, or the time of the next sweep, has come. -/
  due : Bool
  /-- The payload of the recovery child, or the error its run ends in. -/
  recovery : Except String (List (String × Json))

def Command.owner : Command → String
  | .run owner _ => owner
  | .sweepOnce owner _ _ _ => owner
  | .probe => ""

def Command.staleSeconds : Command → Int
  | .run _ config => config.staleSeconds
  | .sweepOnce _ _ staleSeconds config => staleSeconds.getD config.staleSeconds
  | .probe => 0

/-- A process that leaves its commands without a clause that handles it is over. -/
def Phase.raised (error : String) : Phase → Phase
  | .entering | .refused | .probing | .locked | .ended => .ended
  | .starting id | .waiting id _ | .retrying id _ | .gated id _ | .beginning id _ | .idle id | .stopping id
  | .finishing id => .handling id error
  | .sweeping id trigger sweepId health stage =>
    match stage with
    | .invoking | .recovering | .completing _ | .completed | .reporting =>
      .sweeping id trigger sweepId health (.failing error)
    | _ => .handling id error
  | .handling _ _ | .handled _ _ | .closing => .closing

/-- `write_runtime_status`; the lock is probed through a second descriptor. -/
def writeRuntimeStatus (s : Store) (p : Proc) (lockHeld : Bool) (d : Draws) (instanceId state : String)
    (health : Health) (sweepId : Option String) (message : String) : Store :=
  { s with status := some ⟨instanceId, p.pid, state, lockHeld, health, d.counts, sweepId, message, d.now⟩ }

/-- One step of `perform_sweep` after `start_sweep`. -/
def sweepStep (s : Store) (p : Proc) (lockHeld : Bool) (d : Draws) (id : String) (trigger : Trigger)
    (sweepId : String) (health : Health) : Stage → Phase × Store
  | .noting before =>
    (.sweeping id trigger sweepId health (if health.healthy then .invoking else .skipping before),
      s.updateInstance id d.now { lastSweepId := some sweepId })
  | .skipping before =>
    (.sweeping id trigger sweepId health .skipped,
      s.finishSweep sweepId .skipped before 0 0
        ⟨sweepId, trigger, true, some "core-services-unhealthy", health, none, none⟩
        (some "core services are unhealthy") d.now)
  | .skipped =>
    (.sweeping id trigger sweepId health .returned,
      writeRuntimeStatus s p lockHeld d id "RUNNING" health (some sweepId)
        "sweep skipped: core services unhealthy")
  | .invoking =>
    (.sweeping id trigger sweepId health .recovering,
      { s with launched := s.launched ++ [⟨sweepId, p.command.owner, p.command.staleSeconds⟩] })
  | .recovering =>
    match d.recovery with
    | .ok recovery => (.sweeping id trigger sweepId health (.completing recovery), s)
    | .error e => (.sweeping id trigger sweepId health (.failing e), s)
  | .completing recovery =>
    match recoveryCounts recovery with
    | .ok (runs, orphans) =>
      (.sweeping id trigger sweepId health .completed,
        s.finishSweep sweepId .completed d.counts.activeRuns runs orphans
          ⟨sweepId, trigger, false, none, health, some (.obj recovery), none⟩ none d.now)
    | .error e => (.sweeping id trigger sweepId health (.failing e), s)
  | .completed =>
    (.sweeping id trigger sweepId health .reporting,
      s.updateInstance id d.now { lastSweepId := some sweepId, lastError := some "" })
  | .reporting =>
    (.sweeping id trigger sweepId health .returned,
      writeRuntimeStatus s p lockHeld d id "RUNNING" health (some sweepId) "sweep completed")
  | .failing e =>
    (.sweeping id trigger sweepId health (.failed e),
      s.finishSweep sweepId .failed d.counts.activeRuns 0 0
        ⟨sweepId, trigger, false, none, health, none, some e⟩ (some e) d.now)
  | .failed e =>
    (.sweeping id trigger sweepId health (.degraded e),
      s.updateInstance id d.now { lastSweepId := some sweepId, lastError := some e })
  | .degraded e =>
    (.sweeping id trigger sweepId health .returned,
      writeRuntimeStatus s p lockHeld d id "DEGRADED" health (some sweepId) e)
  | .returned =>
    match p.command with
    | .run _ _ => (.idle id, s)
    | _ => (.stopping id, s)

/-- `perform_sweep` up to `start_sweep`. -/
def beginSweep (s : Store) (p : Proc) (d : Draws) (id : String) (trigger : Trigger) : Phase × Store :=
  let health := dockerHealth d.now d.docker
  let sweepId := "sweep-" ++ d.hex
  match s.startSweep sweepId ⟨id, p.command.owner, trigger, .running, p.command.staleSeconds,
    health.healthy,
      health, d.counts.activeRuns, none, 0, 0, none, none, d.now, none⟩ with
  | .ok s => (.sweeping id trigger sweepId health (.noting d.counts.activeRuns), s)
  | .error e => (.handling id e, s)

/-- The registration, whose failure nothing handles. -/
def register (s : Store) (p : Proc) (d : Draws) : Phase × Store :=
  let id := "supervisor-" ++ d.hex
  match registerInstance s.instances id p.hostname p.pid p.command.owner d.now with
  | some instances => (.starting id, { s with instances })
  | none => (.ended, s)

/-- One step of a process that has the lock, or is done with it. -/
def work (s : Store) (p : Proc) (lockHeld : Bool) (d : Draws) : Phase × Store :=
  match p.phase with
  | .entering => (.entering, s)
  | .refused | .probing | .closing | .ended => (.ended, s)
  | .locked => register s p d
  | .starting id =>
    (match p.command with
      | .sweepOnce _ test _ _ => .beginning id (if test then .test else .manual)
      | _ => .waiting id none,
      s.updateInstance id d.now { status := some .running })
  | .waiting id none => (.waiting id (some (dockerHealth d.now d.docker)), s)
  | .waiting id (some last) =>
    if ¬last.healthy ∧ ¬p.stop ∧ ¬d.due then (.retrying id last, s.updateInstance id d.now {})
    else (.gated id last, s)
  | .retrying id last =>
    (.waiting id none,
      writeRuntimeStatus s p lockHeld d id "WAITING_SERVICES" last none
        "waiting for Docker, sandbox engine and Agent")
  | .gated id health =>
    (if p.stop then .stopping id else .beginning id .startup,
      writeRuntimeStatus s p lockHeld d id (if health.healthy then "RUNNING" else "DEGRADED") health none
        "startup health gate complete")
  | .beginning id trigger => beginSweep s p d id trigger
  | .sweeping id trigger sweepId health stage => sweepStep s p lockHeld d id trigger sweepId health stage
  | .idle id =>
    if p.stop then (.stopping id, s)
    else (if d.due then .beginning id .periodic else .idle id, s.updateInstance id d.now {})
  | .stopping id =>
    (.finishing id, s.updateInstance id d.now { status := some .stopped, stopped := true })
  | .finishing id =>
    (.closing,
      match p.command with
      | .run _ _ =>
        writeRuntimeStatus s p lockHeld d id "STOPPED" (dockerHealth d.now d.docker) none
          "supervisor stopped cleanly"
      | _ => s)
  | .handling id e =>
    (match p.command with
      | .run _ _ => .handled id e
      | _ => .closing,
      s.updateInstance id d.now { status := some .failed, lastError := some e, stopped := true })
  | .handled id e =>
    (.closing, writeRuntimeStatus s p lockHeld d id "FAILED" (dockerHealth d.now d.docker) none e)

/-! ### Steps -/

/-- The process whose descriptor has the lock, the processes, and the store. -/
abbrev World := Monitor Proc Store

inductive Action where
  | start (command : Command) (hostname : String) (pid : Nat)
  | advance (i : Nat) (d : Draws)
  /-- The step raises before it writes. -/
  | raise (i : Nat) (error : String)
  /-- `request_stop`. -/
  | signal (i : Nat)
  /-- A `KeyboardInterrupt` in `sweep-once`. -/
  | interrupt (i : Nat)
  | kill (i : Nat)

def Phase.isEnded : Phase → Bool
  | .ended => true
  | _ => false

/-- The instance a process has registered and not given up. -/
def Phase.instanceId : Phase → Option String
  | .entering | .refused | .probing | .locked | .closing | .ended => none
  | .starting id | .waiting id _ | .retrying id _ | .gated id _ | .beginning id _
  | .sweeping id _ _ _ _ | .idle id
  | .stopping id | .finishing id | .handling id _ | .handled id _ => some id

namespace World

variable (w : World)

/-- Process `i` goes on in a phase; the end of a process releases its lock. -/
def settle (i : Nat) (p : Proc) (phase : Phase) (store : Store) : World where
  lock := if phase.isEnded ∧ w.lock = some i then none else w.lock
  procs := w.procs.set i { p with phase }
  store := store

/-- `acquire_lock`, or the `flock` of `lock_is_held`. -/
def acquireLock (i : Nat) (p : Proc) : World :=
  match w.lock, p.command with
  | none, .probe => { w.settle i p .probing w.store with lock := some i }
  | none, _ => { w.settle i p .locked w.store with lock := some i }
  | some _, .probe => w.settle i p .ended w.store
  | some _, _ => w.settle i p .refused w.store

def advance (i : Nat) (p : Proc) (d : Draws) : World :=
  match p.phase with
  | .entering => w.acquireLock i p
  | _ =>
    let x := work w.store p w.lock.isSome d
    w.settle i p x.1 x.2

/-- What an action does to the process it is about. -/
def act (i : Nat) (p : Proc) : Action → World
  | .start _ _ _ => w
  | .advance _ d => w.advance i p d
  | .raise _ e => w.settle i p (p.phase.raised e) w.store
  | .signal _ =>
    match p.command with
    | .run _ _ => if p.phase.instanceId.isSome then
    { w with procs := w.procs.set i { p with stop := true } } else w
    | _ => w
  | .interrupt _ =>
    match p.command with
    | .sweepOnce _ _ _ _ => if p.phase.instanceId.isSome then w.settle i p .closing w.store else w
    | _ => w
  | .kill _ => w.settle i p .ended w.store

def onProc (i : Nat) (a : Action) : World :=
  match w.procs[i]? with
  | some p => w.act i p a
  | none => w

end World

def step (a : Action) (w : World) : World :=
  match a with
  | .start command hostname pid =>
      { w with procs := w.procs ++ [⟨command, hostname, pid, .entering, false⟩] }
  | .advance i _ | .raise i _ | .signal i | .interrupt i | .kill i => w.onProc i a

def initial : World := ⟨none, [], ⟨.empty, .empty, none, []⟩⟩

def watchdog : Machine Action World := ⟨fun w => w = initial, step⟩

end HermesOps.Supervisor
