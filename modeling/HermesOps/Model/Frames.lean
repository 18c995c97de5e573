import HermesOps.Model.World

/-! What each operation on the world leaves alone. The objective queue is written by the objective
    and planner actions only, and the graph by everything but the processes and the environment;
    the lemmas here say so once, for every invariant that lives in one part of the state. -/

namespace HermesOps

namespace World

variable (w : World)

/-! ### Setters -/

@[simp] theorem setDb_db (d : Database) : (w.setDb d).db = d := rfl
@[simp] theorem setDb_daemon (d : Database) : (w.setDb d).daemon = w.daemon := rfl
@[simp] theorem setDb_procs (d : Database) : (w.setDb d).procs = w.procs := rfl
@[simp] theorem setDb_exits (d : Database) : (w.setDb d).exits = w.exits := rfl
@[simp] theorem setDb_submissions (d : Database) : (w.setDb d).submissions = w.submissions := rfl
@[simp] theorem setDb_projects (d : Database) : (w.setDb d).site.projects = w.site.projects := rfl

@[simp] theorem setQueue_db (q : Queue) : (w.setQueue q).db = { w.db with queue := q } := rfl
@[simp] theorem setQueue_daemon (q : Queue) : (w.setQueue q).daemon = w.daemon := rfl
@[simp] theorem setGraph_db (g : Graph) : (w.setGraph g).db = { w.db with graph := g } := rfl
@[simp] theorem setGraph_daemon (g : Graph) : (w.setGraph g).daemon = w.daemon := rfl
@[simp] theorem setQueueGraph_db (qg : Queue × Graph) :
    (w.setQueueGraph qg).db = { w.db with queue := qg.1, graph := qg.2 } := rfl
@[simp] theorem setQueueGraph_daemon (qg : Queue × Graph) :
    (w.setQueueGraph qg).daemon = w.daemon := rfl
@[simp] theorem setPlanner_db (i : ObjectiveAttemptId) (stage : PlannerStage) :
    (w.setPlanner i stage).db = w.db := rfl
@[simp] theorem endPlanner_db (i : ObjectiveAttemptId) : (w.endPlanner i).db = w.db := rfl

@[simp] theorem spawn_site (pid : Pid) (stage : Stage) : (w.spawn pid stage).site = w.site := by
  unfold spawn; split
  · rfl
  · split <;> rfl

@[simp] theorem spawn_daemon (pid : Pid) (stage : Stage) :
    (w.spawn pid stage).daemon = w.daemon := by
  unfold spawn; split
  · rfl
  · split <;> rfl

@[simp] theorem finishProcess_site (pid : Pid) (result : Exit) :
    (w.finishProcess pid result).site = w.site := by
  unfold finishProcess; split <;> rfl

@[simp] theorem finishProcess_daemon (pid : Pid) (result : Exit) :
    (w.finishProcess pid result).daemon = w.daemon := by
  unfold finishProcess; split <;> rfl

@[simp] theorem kill_site (pid : Pid) : (w.kill pid).site = w.site := by
  unfold kill; split <;> simp

@[simp] theorem kill_daemon (pid : Pid) : (w.kill pid).daemon = w.daemon := by
  unfold kill; split <;> simp

@[simp] theorem setThread_site (i : AttemptId) (stage : ThreadStage) :
    (w.setThread i stage).site = w.site := rfl

@[simp] theorem endThread_site (i : AttemptId) : (w.endThread i).site = w.site := rfl

@[simp] theorem await_site (i : AttemptId) (pid : Pid) (stage : Stage) (next : ThreadStage) :
    (w.await i pid stage next).site = w.site := by
  unfold await; split <;> simp

@[simp] theorem setThread_db (i : AttemptId) (stage : ThreadStage) :
    (w.setThread i stage).db = w.db := rfl

@[simp] theorem endThread_db (i : AttemptId) : (w.endThread i).db = w.db := rfl

@[simp] theorem await_db (i : AttemptId) (pid : Pid) (stage : Stage) (next : ThreadStage) :
    (w.await i pid stage next).db = w.db := by rw [db, await_site, db]

@[simp] theorem setThread_planners (i : AttemptId) (stage : ThreadStage) :
    (w.setThread i stage).daemon.planners = w.daemon.planners := rfl

@[simp] theorem endThread_planners (i : AttemptId) :
    (w.endThread i).daemon.planners = w.daemon.planners := rfl

@[simp] theorem await_planners (i : AttemptId) (pid : Pid) (stage : Stage) (next : ThreadStage) :
    (w.await i pid stage next).daemon.planners = w.daemon.planners := by
  unfold await; split <;> simp

@[simp] theorem bestEffortStep_daemon (r : RunId) (now : Time) (pid : Pid) (fault : Bool)
    (stage : BestEffort) : (w.bestEffortStep r now pid fault stage).1.daemon = w.daemon := by
  cases stage with
  | start =>
    simp only [bestEffortStep]
    split
    · rfl
    · split
      · rfl
      · split
        · rfl
        · simp
  | awaiting p =>
    simp only [bestEffortStep]
    split
    · simp
    · split <;> rfl
  | checking =>
    simp only [bestEffortStep]
    split
    · rfl
    · split <;> rfl
  | marking reason =>
    simp only [bestEffortStep]
    split <;> rfl

@[simp] theorem kill_db (pid : Pid) : (w.kill pid).db = w.db := by rw [db, kill_site, db]

@[simp] theorem spawn_db (pid : Pid) (stage : Stage) : (w.spawn pid stage).db = w.db := by
  rw [db, spawn_site, db]

end World

end HermesOps
