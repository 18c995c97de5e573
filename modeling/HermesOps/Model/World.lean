import HermesOps.Model.Processes
import HermesOps.Schemes.Machine

/-! The whole system as a machine: the shared site, the running processes with the exit records of
    the finished ones, and the threads of the orchestrator daemon. An action is one transaction of
    an operator or of the daemon, one step of a thread or of a process, a crash, or a change made
    by the environment. An action that does not apply leaves the world as it is. -/

namespace HermesOps

/-! ### Threads -/

/-- Where `rollback_run_best_effort` is. -/
inductive BestEffort where
  | start
  | awaiting (pid : Pid)
  | checking
  | marking (reason : String)
  deriving DecidableEq

/-- What `execute_pipeline` does once the best-effort rollback has returned. -/
inductive Continuation where
  | raise (error : String)
  | result (integration : IntegrationResult)
  deriving DecidableEq

/-- Where an `execute_task` thread is. -/
inductive ThreadStage where
  | reserved
  | beginning (pid : Pid)
  | began (runId : RunId)
  | working (runId : RunId)
  | submitting (runId : RunId) (pid : Pid)
  | reviewing (runId : RunId)
  | gateCheck (runId : RunId)
  | integrate (runId : RunId)
  | integrating (runId : RunId) (pid : Pid)
  | unwinding (runId : RunId) (after : Continuation) (stage : BestEffort)
  | returning (result : TaskResult)
  | raising (error : String)
  deriving DecidableEq

/-- The integration result once the cleanup is known to be complete or not. -/
def IntegrationResult.settled (i : IntegrationResult) (complete : Bool) : IntegrationResult :=
  if i.action = .cancel ∧ ¬complete then { i with status := .recovering } else i

/-- What `execute_pipeline` does with the result of the integrator. -/
def IntegrationResult.dispatch (runId : RunId) (i : IntegrationResult) : ThreadStage :=
  if i.action = .cancel ∧ i.status = .cancelled ∧ ¬i.integrated then
    .unwinding runId (.result i) .start
  else if i.action = .blockHuman ∧ i.status = .blocked ∧ ¬i.integrated then
    if i.planWaiting then .unwinding runId (.result i) .start
    else .returning (.pipeline runId i)
  else if i.status ≠ .completed ∨ ¬i.integrated then
    .unwinding runId (.raise "Pipeline was not integrated") .start
  else .returning (.pipeline runId i)

structure Thread where
  task : ReservedTask
  stage : ThreadStage
  deriving DecidableEq

/-- Where an `execute_objective_planning` thread is. -/
inductive PlannerStage where
  | generating
  | generated (planId : PlanId)
  | failing (error : String)
  deriving DecidableEq

structure Planner where
  objectiveId : ObjectiveId
  stage : PlannerStage
  deriving DecidableEq

/-- The threads of the daemon; `janitor` is its main thread inside
    `cleanup_cancel_requested_human_runs`, with the runs still to visit. -/
structure Daemon where
  planners : Schemes.Table ObjectiveAttemptId Planner
  threads : Schemes.Table AttemptId Thread
  janitor : List RunId × BestEffort

/-- The state of the system; `submissions` are the `command_submit_plan` calls between their two
    transactions. -/
structure World where
  site : Site
  daemon : Daemon
  procs : Schemes.Table Pid Stage
  exits : Schemes.Table Pid Exit
  submissions : List PlanId

namespace World

def db (w : World) : Database := w.site.db

def setDb (w : World) (db : Database) : World := { w with site := { w.site with db } }

def setQueue (w : World) (queue : Queue) : World := w.setDb { w.db with queue }

def setGraph (w : World) (graph : Graph) : World := w.setDb { w.db with graph }

def setQueueGraph (w : World) (qg : Queue × Graph) : World :=
  w.setDb { w.db with queue := qg.1, graph := qg.2 }

/-! ### Processes -/

/-- A new process; a number that was used before is refused. -/
def spawn (w : World) (pid : Pid) (stage : Stage) : World :=
  if (w.exits.get? pid).isSome then w
  else
    match w.procs.insert pid stage with
    | some procs => { w with procs }
    | none => w

/-- The process is gone and its exit recorded. -/
def finishProcess (w : World) (pid : Pid) (result : Exit) : World :=
  match w.exits.insert pid result with
  | some exits => { w with procs := w.procs.delete fun p _ => p = pid, exits }
  | none => { w with procs := w.procs.delete fun p _ => p = pid }

/-- `SIGKILL`, from a timeout or from outside. -/
def kill (w : World) (pid : Pid) : World :=
  if (w.procs.get? pid).isSome then w.finishProcess pid .failed else w

def stepProcess (h : History) (pid : Pid) (now : Time) (fresh : Nat) (fault : Bool) (w : World) :
    World :=
  match w.procs.get? pid with
  | none => w
  | some stage =>
    let (site, progress) := stage.step h now fresh fault w.site
    match progress with
    | .next stage => { w with site, procs := w.procs.updateAt pid fun _ => stage }
    | .exit result => { w with site }.finishProcess pid result

/-! ### `rollback_run_best_effort` -/

/-- Where a step of the best-effort rollback leads. -/
inductive Effort where
  | still (stage : BestEffort)
  | done (complete : Bool)
  | raised

def bestEffortStep (runId : RunId) (now : Time) (pid : Pid) (fault : Bool) (w : World) :
    BestEffort → World × Effort
  | .start =>
    if fault then (w, .still (.marking "interrupted"))
    else if ¬(w.db.store.runs.get? runId).any fun run =>
        run.status.isActive ∨ run.status = .failed then (w, .done true)
    else if (w.procs.get? pid).isSome ∨ (w.exits.get? pid).isSome then (w, .still .start)
    else (w.spawn pid (.rollback runId), .still (.awaiting pid))
  | .awaiting p =>
    if fault then (w.kill p, .still (.marking "timed out"))
    else
      match w.exits.get? p with
      | none => (w, .still (.awaiting p))
      | some .rolledBack => (w, .still .checking)
      | some _ => (w, .still (.marking "rollback exited with status 1"))
  | .checking =>
    if fault then (w, .still (.marking "interrupted"))
    else if (w.db.store.runs.get? runId).any (fun run => run.status = .cancelled) ∧
        ¬w.db.store.lockPresent runId then (w, .done true)
    else (w, .still (.marking "rollback reported success without terminal cleanup"))
  | .marking reason =>
    if fault then (w, .raised)
    else
      let (store, graph, complete) :=
        markCancellationCleanupRecovery w.db.graph w.db.store runId reason now
      (w.setDb { w.db with store, graph }, .done complete)

/-! ### `execute_task` -/

def setThread (w : World) (attemptId : AttemptId) (stage : ThreadStage) : World :=
  { w with daemon := { w.daemon with
    threads := w.daemon.threads.updateAt attemptId fun t => { t with stage } } }

def endThread (w : World) (attemptId : AttemptId) : World :=
  { w with daemon := { w.daemon with threads := w.daemon.threads.delete fun i _ => i = attemptId } }

/-- Start a subprocess and wait for it; the thread stays where it is when the number is taken. -/
def await (w : World) (attemptId : AttemptId) (pid : Pid) (stage : Stage) (next : ThreadStage) :
    World :=
  if (w.procs.get? pid).isSome ∨ (w.exits.get? pid).isSome then w
  else (w.spawn pid stage).setThread attemptId next

def objectiveCancellationRequested (q : Queue) (planId : PlanId) : Bool :=
  q.cancellationRequested planId

/-- `set_attempt_links` of the run. -/
def setAttemptLinks (g : Graph) (attemptId : AttemptId) (runId : RunId) (now : Time) : Graph :=
  { g with attempts := g.attempts.updateAt attemptId fun a =>
      { a with runId := some runId, heartbeatAt := now } }

/-- One step of a thread; `fault` is an exception or a timeout at this point. -/
def threadStep (attemptId : AttemptId) (now : Time) (pid : Pid) (fault : Bool) (w : World)
    (t : ReservedTask) (owner : String) : ThreadStage → World
  | .reserved =>
    if fault then w.setThread attemptId (.raising "interrupted")
    else
      match t.kind, t.projectId with
      | .noop, _ | .testSleep, _ => w.setThread attemptId (.returning .plain)
      | .testFail, _ =>
        w.setThread attemptId (.raising s!"Synthetic failure requested by task {t.taskKey}")
      | .pipeline, some projectId => w.await attemptId pid (.begin projectId owner) (.beginning pid)
      | .pipeline, none => w.setThread attemptId (.raising "task without project")
  | .beginning p =>
    if fault then (w.kill p).setThread attemptId (.raising "timed out")
    else
      match w.exits.get? p with
      | none => w
      | some (.begun runId) => w.setThread attemptId (.began runId)
      | some _ => w.setThread attemptId (.raising "begin failed")
  | .began runId =>
    if fault then w.setThread attemptId (.raising "interrupted")
    else (w.setGraph (setAttemptLinks w.db.graph attemptId runId now)).setThread attemptId
      (.working runId)
  | .working runId =>
    if fault then w.setThread attemptId (.unwinding runId (.raise "worker failed") .start)
    else w.await attemptId pid (.submit runId) (.submitting runId pid)
  | .submitting runId p =>
    if fault then
      (w.kill p).setThread attemptId (.unwinding runId (.raise "timed out") .start)
    else
      match w.exits.get? p with
      | none => w
      | some .submitted => w.setThread attemptId (.reviewing runId)
      | some _ => w.setThread attemptId (.unwinding runId (.raise "submit failed") .start)
  | .reviewing runId =>
    if fault then w.setThread attemptId (.unwinding runId (.raise "reviewer failed") .start)
    else if objectiveCancellationRequested w.db.queue t.planId then
      w.setThread attemptId (.unwinding runId (.result cancelledIntegrationResult) .start)
    else w.setThread attemptId (.gateCheck runId)
  | .gateCheck runId =>
    if fault then w.setThread attemptId (.unwinding runId (.raise "interrupted") .start)
    else if planHasActiveHumanGate w.db.graph w.db.store t.planId then
      w.setThread attemptId (.unwinding runId (.result blockedHumanIntegrationResult) .start)
    else w.setThread attemptId (.integrate runId)
  | .integrate runId =>
    if fault then w.setThread attemptId (.unwinding runId (.raise "interrupted") .start)
    else w.await attemptId pid (.apply runId owner) (.integrating runId pid)
  | .integrating runId p =>
    if fault then
      (w.kill p).setThread attemptId (.unwinding runId (.raise "timed out") .start)
    else
      match w.exits.get? p with
      | none => w
      | some (.integration i) => w.setThread attemptId (i.dispatch runId)
      | some _ => w.setThread attemptId (.unwinding runId (.raise "integrator failed") .start)
  | .unwinding runId after stage =>
    match w.bestEffortStep runId now pid fault stage, after with
    | (w, .still stage), after => w.setThread attemptId (.unwinding runId after stage)
    | (w, .done _), .raise e => w.setThread attemptId (.raising e)
    | (w, .done complete), .result i =>
      w.setThread attemptId (.returning (.pipeline runId (i.settled complete)))
    | (w, .raised), .raise _ => w.setThread attemptId (.raising "cleanup failed")
    | (w, .raised), .result _ =>
      w.setThread attemptId (.unwinding runId (.raise "cleanup failed") .start)
  | .returning result =>
    if fault then w.setThread attemptId (.raising "interrupted")
    else (w.setGraph (finishTask w.db t result now)).endThread attemptId
  | .raising error =>
    if fault then w.endThread attemptId
    else (w.setGraph (finishTaskFailure w.db.graph w.db.store t error now)).endThread attemptId

end World

/-! ### Actions -/

/-- `global_parallel_objectives` and `planning_retry_backoff_seconds`. -/
structure Config where
  globalParallelObjectives : Nat
  planningRetryBackoffSeconds : Nat

/-- The transactions on the objective queue. -/
inductive ObjectiveAction where
  | submit (id : ObjectiveId) (s : Submission) (now : Time)
  | submitPlan (p : NormalizedPlan) (planId : PlanId) (firstTask : TaskId) (test : Bool)
      (now : Time)
  | attachPlan (planId : PlanId) (id : ObjectiveId) (s : Submission) (now : Time)
  | dropSubmission (planId : PlanId)
  | cli (id : ObjectiveId) (c : ObjectiveCommand) (now : Time)
  | controller (id : ObjectiveId) (c : ObjectiveCommand) (now : Time)
  | synchronize (now : Time)
  | promote (id : ObjectiveId) (now : Time)
  | reserve (id : ObjectiveId) (attemptId : ObjectiveAttemptId) (now : Time)
  | reconcile (now : Time)

/-- The steps of a planner thread and of the planner program it runs. -/
inductive PlannerAction where
  | insert (p : NormalizedPlan) (planId : PlanId) (firstTask : TaskId) (now : Time)
  | success (now : Time)
  | raise (error : String)
  | failure (now : Time)

/-- The transactions on plans and tasks outside the threads. -/
inductive GraphAction where
  | importPlan (p : NormalizedPlan) (planId : PlanId) (firstTask : TaskId) (test ready : Bool)
      (now : Time)
  | activate (planId : PlanId) (now : Time)
  | cancelPlan (planId : PlanId) (now : Time)
  | refresh (planId : PlanId) (now : Time)
  | reserve (taskId : TaskId) (attemptId : AttemptId) (now : Time)
  | reconcile (now : Time)

/-- What happens around the programs. -/
inductive EnvironmentAction where
  | review (id : ReviewId) (row : Review)
  | worker (id : ExecutionId) (row : WorkerExecution)
  | enable (projectId : ProjectId) (enabled : Bool)
  | repository (projectId : ProjectId) (present onDefaultBranch clean : Bool)
  | advance (projectId : ProjectId) (commit : Commit)
  | worktree (runId : RunId) (w : Worktree)
  | damage (runId : RunId)

inductive Action where
  | objective (a : ObjectiveAction)
  | planner (attemptId : ObjectiveAttemptId) (a : PlannerAction)
  | graph (a : GraphAction)
  | thread (attemptId : AttemptId) (now : Time) (pid : Pid) (fault : Bool)
  | janitorStart
  | janitor (now : Time) (pid : Pid) (fault : Bool)
  | operator (pid : Pid) (stage : Stage)
  | process (pid : Pid) (now : Time) (fresh : Nat) (fault : Bool)
  | kill (pid : Pid)
  | crash
  | environment (a : EnvironmentAction)

/-- The commands an operator starts. -/
def Stage.isCommand : Stage → Bool
  | .begin _ _ | .submit _ | .rollback _ | .apply _ _ | .recover _ _ _ _ => true
  | _ => false

/-- `validate_projects`. -/
def validateProjects (projects : Schemes.Table ProjectId Project) (ids : List ProjectId) : Bool :=
  ids ≠ [] ∧ ids.all fun p => (projects.get? p).any Project.enabled

namespace World

/-- The transaction of `insert_plan`. Task identifiers are drawn at random: a new one is not the
    identifier of a task that a thread still works on, even if that task's plan has been deleted. -/
def drawPlan (w : World) (p : NormalizedPlan) (planId : PlanId) (firstTask : TaskId)
    (source : Source) (ready : Bool) (now : Time) : Option Graph :=
  if w.daemon.threads.any fun _ t =>
      firstTask ≤ t.task.taskId ∧ t.task.taskId < firstTask + p.tasks.length then none
  else insertPlan w.db.graph p planId firstTask source ready now

def objectiveStep (config : Config) (w : World) : ObjectiveAction → World
  | .submit id s now =>
    if ¬(validateProjects w.site.projects s.projectIds ∧ s.source = .ai ∧ s.planId = none) then w
    else
      match insertObjective w.db id s now with
      | .ok queue => w.setQueue queue
      | .error _ => w
  | .submitPlan p planId firstTask test now =>
    match w.drawPlan p planId firstTask (if test then .test else .declarative) false now
      with
    | some graph => { w.setGraph graph with submissions := planId :: w.submissions }
    | none => w
  | .attachPlan planId id s now =>
    if planId ∉ w.submissions then w
    else
      let w := { w with submissions := w.submissions.erase planId }
      match insertObjective w.db id { s with planId := some planId } now with
      | .ok queue => w.setQueue queue
      | .error _ => w.setDb (deletePlan w.db planId)
  | .dropSubmission planId => { w with submissions := w.submissions.erase planId }
  | .cli id c now =>
    match c with
    | .pause =>
      match commandPause w.db id now with
      | .ok qg => w.setQueueGraph qg
      | .error _ => w
    | .resume =>
      match commandResume w.db id now with
      | .ok qg => w.setQueueGraph qg
      | .error _ => w
    | .cancel =>
      match commandCancel w.db id now with
      | .ok qg => w.setQueueGraph qg
      | .error _ => w
  | .controller id c now =>
    match commandObjective w.db id now c with
    | .ok qg => w.setQueueGraph qg
    | .error _ => w
  | .synchronize now => w.setQueueGraph (synchronizeObjectiveStates w.db now)
  | .promote id now =>
    match promotePlannedObjective w.db id now with
    | some (queue, graph, _) => w.setQueueGraph (queue, graph)
    | none => w
  | .reserve id attemptId now =>
    -- the daemon reserves only while no planner is running
    if w.daemon.planners.rows ≠ [] then w
    else
      match reserveAiObjective w.db.queue id attemptId config.globalParallelObjectives now with
      | .refused | .raised _ => w
      | .exhausted queue => w.setQueue queue
      | .reserved queue _ =>
        match w.daemon.planners.insert attemptId ⟨id, .generating⟩ with
        | some planners => { w.setQueue queue with daemon := { w.daemon with planners } }
        | none => w
  | .reconcile now =>
    -- runs once in a fresh process, before it starts a thread
    if w.daemon.planners.rows ≠ [] then w
    else w.setQueue (reconcileInterruptedObjectives w.db.queue now)

def setPlanner (w : World) (attemptId : ObjectiveAttemptId) (stage : PlannerStage) : World :=
  { w with daemon := { w.daemon with
    planners := w.daemon.planners.updateAt attemptId fun p => { p with stage } } }

def endPlanner (w : World) (attemptId : ObjectiveAttemptId) : World :=
  { w with daemon := { w.daemon with
    planners := w.daemon.planners.delete fun i _ => i = attemptId } }

/-- `execute_objective_planning`: a success handler that raises leads to the failure handler. -/
def plannerStep (config : Config) (attemptId : ObjectiveAttemptId) (w : World) (planner : Planner) :
    PlannerAction → World
  | .insert p planId firstTask now =>
    match planner.stage with
    | .generating =>
      match w.drawPlan p planId firstTask .ai false now with
      | some graph => (w.setGraph graph).setPlanner attemptId (.generated planId)
      | none => w.setPlanner attemptId (.failing "UNIQUE constraint failed")
    | _ => w
  | .success now =>
    match planner.stage with
    | .generated planId =>
      match finishObjectivePlanningSuccess w.db planner.objectiveId attemptId planId now with
      | .ok qg => (w.setQueueGraph qg).endPlanner attemptId
      | .error e => w.setPlanner attemptId (.failing e)
    | _ => w
  | .raise error =>
    match planner.stage with
    | .failing _ => w
    | _ => w.setPlanner attemptId (.failing error)
  | .failure now =>
    match planner.stage with
    | .failing error =>
      (w.setQueue (finishObjectivePlanningFailure w.db.queue planner.objectiveId attemptId error
        config.planningRetryBackoffSeconds now)).endPlanner attemptId
    | _ => w

def graphStep (w : World) : GraphAction → World
  | .importPlan p planId firstTask test ready now =>
    match w.drawPlan p planId firstTask (if test then .test else .declarative) ready now
      with
    | some graph => w.setGraph graph
    | none => w
  | .activate planId now =>
    match commandActivate w.db.graph planId now with
    | .ok graph => w.setGraph graph
    | .error _ => w
  | .cancelPlan planId now =>
    match commandCancelPlan w.db.graph planId now with
    | .ok graph => w.setGraph graph
    | .error _ => w
  | .refresh planId now => w.setGraph (refreshPlanStates w.db.graph w.db.store planId now)
  | .reserve taskId attemptId now =>
    match reserveAttempt w.db taskId attemptId now with
    | .error _ => w
    | .ok (graph, task) =>
      match w.daemon.threads.insert attemptId
          ⟨⟨taskId, task.planId, task.kind, task.projectId, task.taskKey, attemptId⟩, .reserved⟩ with
      | some threads => { w.setGraph graph with daemon := { w.daemon with threads } }
      | none => w
  | .reconcile now =>
    -- runs once in a fresh process, before it starts a thread
    if w.daemon.threads.rows ≠ [] then w
    else w.setGraph (reconcileInterruptedTasks w.db.graph w.db.store now)

/-- The main thread between two visits of its cleanup list, or inside one. -/
def janitorStep (now : Time) (pid : Pid) (fault : Bool) (w : World) : World :=
  match w.daemon.janitor with
  | ([], _) => w
  | (runId :: rest, stage) =>
    match w.bestEffortStep runId now pid fault stage with
    | (w, .still stage) => { w with daemon := { w.daemon with janitor := (runId :: rest, stage) } }
    | (w, .done _) => { w with daemon := { w.daemon with janitor := (rest, .start) } }
    | (w, .raised) => { w with daemon := { w.daemon with janitor := ([], .start) } }

def environmentStep (h : History) (w : World) : EnvironmentAction → World
  | .review id row =>
    match w.db.store.reviews.insert id row with
    | some reviews => { w with site := w.site.setStore { w.db.store with reviews } }
    | none => w
  | .worker id row =>
    match w.db.store.workers.insert id row with
    | some workers => { w with site := w.site.setStore { w.db.store with workers } }
    | none => w
  | .enable projectId enabled =>
    { w with site := { w.site with
      projects := w.site.projects.updateAt projectId fun p => { p with enabled } } }
  | .repository projectId present onDefaultBranch clean =>
    { w with site := { w.site with
      projects := w.site.projects.updateAt projectId fun p =>
        { p with repository := { p.repository with present, onDefaultBranch, clean } } } }
  | .advance projectId commit =>
    { w with site := { w.site with
      projects := w.site.projects.updateAt projectId fun p =>
        if h.isAncestor p.repository.head commit then
          { p with repository := { p.repository with head := commit } }
        else p } }
  | .worktree runId worktree =>
    { w with site := { w.site with
      worktrees := w.site.worktrees.updateAt runId fun _ => worktree } }
  | .damage runId => { w with site := { w.site with damaged := runId :: w.site.damaged } }

/-- The daemon process dies with its threads; the subprocesses it started may live on. -/
def crash (w : World) : World :=
  { w with daemon := ⟨.empty, .empty, ([], .start)⟩ }

def step (h : History) (config : Config) (a : Action) (w : World) : World :=
  match a with
  | .objective a => w.objectiveStep config a
  | .planner attemptId a =>
    match w.daemon.planners.get? attemptId with
    | some planner => w.plannerStep config attemptId planner a
    | none => w
  | .graph a => w.graphStep a
  | .thread attemptId now pid fault =>
    match w.daemon.threads.get? attemptId with
    | some t =>
      w.threadStep attemptId now pid fault t.task s!"orchestrator:{t.task.taskKey}" t.stage
    | none => w
  | .janitorStart =>
    if w.daemon.janitor.1 ≠ [] then w
    else { w with daemon := { w.daemon with janitor := (cancelRequestedHumanRuns w.db, .start) } }
  | .janitor now pid fault => w.janitorStep now pid fault
  | .operator pid stage => if stage.isCommand then w.spawn pid stage else w
  | .process pid now fresh fault => w.stepProcess h pid now fresh fault
  | .kill pid => w.kill pid
  | .crash => w.crash
  | .environment a => w.environmentStep h a

/-- A migrated, empty database over the registered projects, with nothing running. -/
def initial (projects : Schemes.Table ProjectId Project) : World where
  site := ⟨.empty, projects, .empty, [], []⟩
  daemon := ⟨.empty, .empty, ([], .start)⟩
  procs := .empty
  exits := .empty
  submissions := []

/-- The status of an objective, for reading a world. -/
def objectiveStatus (w : World) (id : ObjectiveId) : Option ObjectiveStatus :=
  (w.db.queue.objectives.get? id).map Objective.status

def planStatus (w : World) (id : PlanId) : Option PlanStatus :=
  (w.db.graph.plans.get? id).map Plan.status

def taskStatus (w : World) (id : TaskId) : Option TaskStatus :=
  (w.db.graph.tasks.get? id).map Task.status

def runStatus (w : World) (id : RunId) : Option RunStatus :=
  (w.db.store.runs.get? id).map Run.status

end World

/-- HermesOps as a machine. -/
def machine (h : History) (config : Config) : Schemes.Machine Action World where
  start w := ∃ projects, projects.All (fun _ p => p.repository.reflog = []) ∧
    w = World.initial projects
  step := World.step h config

end HermesOps
