import HermesOps.Model.World

/-! `daemon_loop` of `hermesops-orchestrator.py`: the sweeps of the main thread over the shared
    database, one transaction or one decision at a time, with the futures of the task executor and
    of the planning executor it keeps in memory. The operators' commands, the planner and executor
    threads, the programs and the environment go on between any two steps of it. -/

namespace HermesOps

/-- The bounds of `load_config` that the loop enforces. -/
structure DaemonConfig extends Config where
  globalParallelTasks : Nat

/-- Where a submitted `execute_task` call is: waiting for `reserve_attempt`, working on the attempt
    it reserved, or over because the reservation was refused. -/
inductive Call where
  | waiting
  | reserved (attemptId : AttemptId)
  | refused
  deriving DecidableEq

/-- An entry of `futures`. -/
structure Future where
  taskId : TaskId
  call : Call
  deriving DecidableEq

/-- `future.done()`. -/
def Future.done (w : World) (f : Future) : Bool :=
  match f.call with
  | .waiting => false
  | .reserved attemptId => (w.daemon.threads.get? attemptId).isNone
  | .refused => true

/-- Where the main thread is; `stopping` waits for the executors after the loop has ended. -/
inductive LoopStage where
  | stopped
  | reconcilingTasks
  | reconcilingObjectives
  | cleaning
  | cleanup
  | synchronizing
  | collectingPlanners
  | counting
  | choosing
  | reserving (id : ObjectiveId)
  | promoting (id : ObjectiveId)
  | refreshing (planId : PlanId)
  | listing
  | refreshingPlans (rest : List PlanId)
  | collecting
  | submitting
  | stopping
  deriving DecidableEq

/-- The world with the daemon process in it. -/
structure Orchestrator where
  world : World
  stage : LoopStage
  futures : List Future
  planning : List ObjectiveAttemptId

/-! ### The selections -/

/-- `active_plan_ids`. -/
def activePlanIds (g : Graph) : List PlanId :=
  (orderBy (·.2.createdAt) (g.plans.select fun _ p =>
    p.status = .ready ∨ p.status = .running ∨ p.status = .blocked)).map Prod.fst

/-- A row of the join in `runnable_tasks`. -/
structure RunnableRow where
  taskId : TaskId
  task : Task
  plan : Plan
  objective : Option Objective

/-- The columns of the `ORDER BY`. -/
def RunnableRow.key (r : RunnableRow) : Int × Int × Time × Time :=
  ((r.objective.map Objective.priority).getD 100, r.task.priority,
    (r.objective.map Objective.createdAt).getD r.task.createdAt, r.task.createdAt)

def RunnableRow.before (a b : RunnableRow) : Bool :=
  let (a₁, a₂, a₃, a₄) := a.key
  let (b₁, b₂, b₃, b₄) := b.key
  a₁ < b₁ ∨ (a₁ = b₁ ∧ (a₂ < b₂ ∨ (a₂ = b₂ ∧ (a₃ < b₃ ∨ (a₃ = b₃ ∧ a₄ ≤ b₄)))))

def runnableRows (d : Database) : List RunnableRow :=
  ((d.graph.tasks.select fun _ t => t.status = .ready).filterMap fun x =>
    match d.graph.plans.get? x.2.planId with
    | none => none
    | some plan =>
      let objective := (d.queue.objectives.select fun _ o => o.planId = some x.2.planId).head?
      if (plan.status = .ready ∨ plan.status = .running) ∧
          objective.all (fun o => o.2.status = .running) then
        some ⟨x.1, x.2, plan, objective.map Prod.snd⟩
      else none).insertionSort fun a b => a.before b

/-- The tests of the loop that skip a row; `selected` are the rows taken so far. -/
def RunnableRow.skipped (d : Database) (activeTaskIds : List TaskId) (healthy : Bool)
    (selected : List RunnableRow) (r : RunnableRow) : Bool :=
  r.taskId ∈ activeTaskIds ∨ (r.task.kind = .pipeline ∧ ¬healthy) ∨
    runningTaskCount d.graph (some r.task.planId) +
      (selected.filter fun x => x.task.planId = r.task.planId).length ≥ r.plan.maxParallelTasks ∨
    projectIsBusy d.graph r.task.projectId r.taskId ∨
    (r.task.projectId.isSome ∧ selected.any fun x => x.task.projectId = r.task.projectId)

/-- The loop of `runnable_tasks`. -/
def selectRunnable (d : Database) (activeTaskIds : List TaskId) (healthy : Bool) (capacity : Nat) :
    List RunnableRow → List RunnableRow → List RunnableRow
  | [], selected => selected
  | r :: rows, selected =>
    if r.skipped d activeTaskIds healthy selected then
      selectRunnable d activeTaskIds healthy capacity rows selected
    else if selected.length + 1 ≥ capacity then selected ++ [r]
    else selectRunnable d activeTaskIds healthy capacity rows (selected ++ [r])

/-- `healthy` is what `supervisor_is_healthy` reports. -/
def runnableTasks (d : Database) (activeTaskIds : List TaskId) (capacity : Nat) (healthy : Bool) :
    List TaskId :=
  if capacity = 0 then []
  else (selectRunnable d activeTaskIds healthy capacity (runnableRows d) []).map RunnableRow.taskId

/-! ### Steps -/

/-- What may happen next: an action of anybody but the main thread and the executor, a new daemon
    process, a step of the main thread (`fault` is an exception in it), the reservation of a
    submitted call, `SIGTERM`, or the death of the process. -/
inductive DaemonAction where
  | outside (a : Action)
  | start
  | main (now : Time) (fresh : Nat) (fault healthy : Bool)
  | call (index : Nat) (attemptId : AttemptId) (now : Time)
  | stop
  | crash

/-- The transactions that only the daemon's main thread and its executor make. -/
def Action.isDaemon : Action → Bool
  | .objective (.synchronize _) | .objective (.promote _ _) | .objective (.reserve _ _ _)
  | .objective (.reconcile _) | .graph (.reserve _ _ _) | .graph (.reconcile _)
  | .janitorStart | .janitor _ _ _ | .crash => true
  | _ => false

namespace Orchestrator

variable (h : History) (config : DaemonConfig)

/-- The main thread does the action and goes on. -/
def act (s : Orchestrator) (a : Action) (next : LoopStage) : Orchestrator :=
  { s with world := s.world.step h config.toConfig a, stage := next }

/-- The batch the sweep submits: the capacity is counted from the futures. -/
def batch (s : Orchestrator) (healthy : Bool) : List TaskId :=
  runnableTasks s.world.db (s.futures.map Future.taskId)
    (config.globalParallelTasks - s.futures.length) healthy

def mainStep (now : Time) (fresh : Nat) (healthy : Bool) (s : Orchestrator) : Orchestrator :=
  match s.stage with
  | .stopped | .stopping => s
  | .reconcilingTasks => s.act h config (.graph (.reconcile now)) .reconcilingObjectives
  | .reconcilingObjectives => s.act h config (.objective (.reconcile now)) .cleaning
  | .cleaning => s.act h config .janitorStart .cleanup
  | .cleanup =>
    if s.world.daemon.janitor.1 = [] then { s with stage := .synchronizing }
    else s.act h config (.janitor now fresh false) .cleanup
  | .synchronizing => s.act h config (.objective (.synchronize now)) .collectingPlanners
  | .collectingPlanners =>
    { s with
      planning := s.planning.filter fun i => (s.world.daemon.planners.get? i).isSome
      stage := .counting }
  | .counting =>
    { s with stage :=
        if activeObjectiveCount s.world.db.queue < config.globalParallelObjectives then .choosing
        else .listing }
  | .choosing =>
    match nextQueuedObjective s.world.db.queue now with
    | none => { s with stage := .listing }
    | some (id, queued) =>
      if queued.source = .ai ∧ queued.planId = none then
        { s with stage := if s.planning ≠ [] then .listing else .reserving id }
      else { s with stage := .promoting id }
  | .reserving id =>
    let next := s.act h config (.objective (.reserve id fresh now)) .counting
    if (s.world.daemon.planners.get? fresh).isNone ∧
        (next.world.daemon.planners.get? fresh).isSome then
      { next with planning := fresh :: s.planning }
    else { next with stage := .listing }
  | .promoting id =>
    match promotePlannedObjective s.world.db id now with
    | none => { s with stage := .listing }
    | some (_, _, planId) => s.act h config (.objective (.promote id now)) (.refreshing planId)
  | .refreshing planId => s.act h config (.graph (.refresh planId now)) .counting
  | .listing => { s with stage := .refreshingPlans (activePlanIds s.world.db.graph) }
  | .refreshingPlans [] => { s with stage := .collecting }
  | .refreshingPlans (planId :: rest) =>
    s.act h config (.graph (.refresh planId now)) (.refreshingPlans rest)
  | .collecting =>
    { s with
      futures := s.futures.filter fun f => !f.done s.world
      stage := .submitting }
  | .submitting =>
    { s with
      futures := s.futures ++ (s.batch config healthy).map fun taskId => ⟨taskId, .waiting⟩
      stage := .cleaning }

/-- `reserve_attempt` of a submitted call. -/
def callStep (index : Nat) (attemptId : AttemptId) (now : Time) (s : Orchestrator) :
    Orchestrator :=
  match s.futures[index]? with
  | some ⟨taskId, .waiting⟩ =>
    let world := s.world.step h config.toConfig (.graph (.reserve taskId attemptId now))
    let call :=
      if (s.world.daemon.threads.get? attemptId).isNone ∧
          (world.daemon.threads.get? attemptId).isSome then Call.reserved attemptId
      else .refused
    { s with world, futures := s.futures.set index ⟨taskId, call⟩ }
  | _ => s

/-- A daemon process starts when the one before it is gone. -/
def startStep (s : Orchestrator) : Orchestrator :=
  if (s.stage = .stopped ∨ s.stage = .stopping) ∧ s.world.daemon.threads.rows = [] ∧
      s.world.daemon.planners.rows = [] ∧ ¬s.futures.any (fun f => f.call = .waiting) then
    { s with stage := .reconcilingTasks, futures := [], planning := [] }
  else s

def step (a : DaemonAction) (s : Orchestrator) : Orchestrator :=
  match a with
  | .outside a => if a.isDaemon then s else { s with world := s.world.step h config.toConfig a }
  | .start => s.startStep
  | .main now fresh fault healthy =>
    if fault then { s with stage := if s.stage = .stopped then .stopped else .stopping }
    else s.mainStep h config now fresh healthy
  | .call index attemptId now => s.callStep h config index attemptId now
  | .stop => if s.stage = .cleaning then { s with stage := .stopping } else s
  | .crash => ⟨s.world.step h config.toConfig .crash, .stopped, [], []⟩

/-- The action on the world in a step of the daemon, if there is one. -/
def worldAction (a : DaemonAction) (s : Orchestrator) : Option Action :=
  match a with
  | .outside a => if a.isDaemon then none else some a
  | .start | .stop | .main _ _ true _ => none
  | .crash => some .crash
  | .call index attemptId now =>
    match s.futures[index]? with
    | some ⟨taskId, .waiting⟩ => some (.graph (.reserve taskId attemptId now))
    | _ => none
  | .main now fresh false _ =>
    match s.stage with
    | .reconcilingTasks => some (.graph (.reconcile now))
    | .reconcilingObjectives => some (.objective (.reconcile now))
    | .cleaning => some .janitorStart
    | .cleanup =>
      if s.world.daemon.janitor.1 = [] then none else some (.janitor now fresh false)
    | .synchronizing => some (.objective (.synchronize now))
    | .reserving id => some (.objective (.reserve id fresh now))
    | .promoting id =>
      if (promotePlannedObjective s.world.db id now).isSome then
        some (.objective (.promote id now))
      else none
    | .refreshing planId | .refreshingPlans (planId :: _) => some (.graph (.refresh planId now))
    | _ => none

end Orchestrator

/-- HermesOps with its daemon as a machine. -/
def daemonMachine (h : History) (config : DaemonConfig) : Schemes.Machine DaemonAction Orchestrator where
  start s := ∃ w, (machine h config.toConfig).start w ∧ s = ⟨w, .stopped, [], []⟩
  step := Orchestrator.step h config

end HermesOps
