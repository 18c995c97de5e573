import HermesOps.Properties.GraphWrites
import HermesOps.Properties.Scenario
import HermesOps.Properties.ThreadMoves

/-! Threads that end after their task was taken from them. The success handlers write a task that is
    still `RUNNING`; the failure handler writes whatever status it finds, unless a human gate is open.
    A pipeline whose rollback fails marks its own task `BLOCKED` and raises, and so revives it. -/

namespace HermesOps

open Schemes

/-- The task was blocked or cancelled. -/
def World.stopped (w : World) (i : TaskId) : Bool :=
  (w.db.graph.tasks.get? i).any fun t => t.status = .blocked ∨ t.status = .cancelled

/-- The thread whose last transaction the action is. -/
def finishing (a : Action) (w : World) : Option Thread :=
  match a with
  | .thread j _ _ false => (w.daemon.threads.get? j).filter fun t => t.stage.isLast
  | _ => none

def TaskStatus.isRevived : TaskStatus → Bool
  | .ready | .running | .completed | .failed => true
  | _ => false

/-- The end of a thread leaves its task alone if another transaction has stopped it. -/
def LeavesStopped (h : History) (config : Config) (a : Action) (w : World) : Prop :=
  ∀ t, finishing a w = some t → w.stopped t.task.taskId = true →
    ∀ x, (w.step h config a).db.graph.tasks.get? t.task.taskId = some x → x.status.isRevived = false

def ThreadStage.isRaising : ThreadStage → Bool
  | .raising _ => true
  | _ => false

/-- A thread ends by the failure handler although its task was stopped, and no gate is open. -/
def failsStopped (a : Action) (w : World) : Bool :=
  (finishing a w).any fun t => w.stopped t.task.taskId ∧ t.stage.isRaising ∧
    ¬planHasActiveHumanGate w.db.graph w.db.store t.task.planId

variable {h : History} {config : Config} {w : World} {a : Action} {t : Thread}

theorem finishing_some (hf : finishing a w = some t) :
    ∃ j now pid, a = .thread j now pid false ∧ w.daemon.threads.get? j = some t ∧
      t.stage.isLast = true := by
  unfold finishing at hf
  split at hf
  · rename_i j now pid
    obtain ⟨hj, hlast⟩ := Option.filter_eq_some_iff.1 hf
    exact ⟨j, now, pid, rfl, hj, hlast⟩
  · cases hf

theorem stopped_iff {i : TaskId} : w.stopped i = true ↔
    ∃ x, w.db.graph.tasks.get? i = some x ∧ (x.status = .blocked ∨ x.status = .cancelled) := by
  simp [World.stopped, Option.any_eq_true]

/-- A transaction that only stops work revives nothing. -/
theorem TaskStop.stays {x x' : Task} (hs : TaskStop x x')
    (hx : x.status = .blocked ∨ x.status = .cancelled) : x'.status.isRevived = false := by
  rcases hs.status with heq | ⟨-, heq | heq⟩
  · rcases hx with hx | hx <;> rw [heq, hx] <;> rfl
  · rw [heq]; rfl
  · rw [heq]; rfl

theorem returning_leaves {rt : ReservedTask} {result : TaskResult} {now : Time} {x x' : Task}
    (hx : w.db.graph.tasks.get? rt.taskId = some x)
    (hs : x.status = .blocked ∨ x.status = .cancelled)
    (hx' : (finishTask w.db rt result now).tasks.get? rt.taskId = some x') :
    x'.status.isRevived = false := by
  obtain ⟨y, hy, hfin⟩ := (finishTask_related w.db rt result now).1.back hx'
  rw [hx] at hy
  cases hy
  cases hfin with
  | stopped hstop => exact hstop.stays hs
  | completed _ _ _ hrun => rcases hs with hs | hs <;> (rw [hs] at hrun; cases hrun)

/-- The failure handler revives a stopped task exactly when no gate is open. -/
theorem raising_leaves {rt : ReservedTask} {e : String} {now : Time} {x : Task}
    (hx : w.db.graph.tasks.get? rt.taskId = some x)
    (hs : x.status = .blocked ∨ x.status = .cancelled) :
    (∀ x', (finishTaskFailure w.db.graph w.db.store rt e now).tasks.get? rt.taskId = some x' →
      x'.status.isRevived = false) ↔ planHasActiveHumanGate w.db.graph w.db.store rt.planId = true := by
  simp only [finishTaskFailure, hx]
  constructor
  · intro hall
    by_contra hgate
    rw [if_neg hgate] at hall
    have hrow := hall { x with
      status := x.statusAfterFailure
      failureReason := some e
      heartbeatAt := some now
      finishedAt := if x.statusAfterFailure = .failed then some now else none }
      (by rw [Table.get?_updateAt, if_pos rfl, hx, Option.map_some])
    rcases x.statusAfterFailure_cases with hst | hst <;> (simp only [hst] at hrow; cases hrow)
  · intro hgate x' hx'
    rw [if_pos hgate] at hx'
    have hstop := (finishRunningTaskBlockedByHumanGate_stop w.db.graph rt .failed (some e) now).tasks
    obtain ⟨y, hy, hstop⟩ := hstop.back hx'
    rw [hx] at hy
    cases hy
    exact hstop.stays hs

/-- One step revives no stopped task if and only if it is no failure of a stopped task. -/
theorem leavesStopped_iff : LeavesStopped h config a w ↔ failsStopped a w = false := by
  unfold failsStopped
  cases hf : finishing a w with
  | none =>
    refine ⟨fun _ => rfl, fun _ t ht => ?_⟩
    rw [hf] at ht
    cases ht
  | some t =>
    obtain ⟨j, now, pid, rfl, hj, hlast⟩ := finishing_some hf
    obtain ⟨rt, stage⟩ := t
    have hfinal : LeavesStopped h config (.thread j now pid false) w ↔
        (w.stopped rt.taskId = true → ∀ x,
          (w.step h config (.thread j now pid false)).db.graph.tasks.get? rt.taskId = some x →
            x.status.isRevived = false) := by
      unfold LeavesStopped
      rw [hf]
      exact ⟨fun hall => hall _ rfl, fun hone t ht => by cases ht; exact hone⟩
    rw [hfinal]
    simp only [World.step, hj, Option.any_some, decide_eq_false_iff_not, not_and, not_not]
    cases stage with
    | returning result =>
      simp only [World.threadStep, ThreadStage.isRaising]
      refine ⟨fun _ _ hr => (by cases hr), fun _ hstop x hx => ?_⟩
      obtain ⟨y, hy, hs⟩ := stopped_iff.1 hstop
      exact returning_leaves hy hs hx
    | raising e =>
      simp only [World.threadStep, ThreadStage.isRaising, forall_const]
      refine forall_congr' fun hstop => ?_
      obtain ⟨y, hy, hs⟩ := stopped_iff.1 hstop
      exact raising_leaves hy hs
    | _ => cases hlast

/-- Along every run, no thread that ends revives a task that was blocked or cancelled behind its back, if
    and only if no thread ends by the failure handler with such a task and without an open gate. -/
theorem late_workers (h : History) (config : Config) (s : World) (as : List Action) :
    (machine h config).Along (LeavesStopped h config) s as ↔
      (machine h config).Along (fun a w => failsStopped a w = false) s as :=
  ⟨.mono fun _ _ => leavesStopped_iff.1, .mono fun _ _ => leavesStopped_iff.2⟩

/-- A plan of one pipeline task that may be tried twice. -/
def retriedPlan : NormalizedPlan where
  maxParallelTasks := 1
  tasks := [⟨"build", .pipeline, some 0, 100, 2, []⟩]
  parallelBounds := Scenario.one_parallel
  size := by simp
  keys := by simp
  ordered := by simp
  known := by simp
  distinct := by simp
  attempts := by simp
  projects := by simp

/-- The worker fails, the rollback times out, and the thread marks its task before it raises. -/
def markedPipeline : List Action :=
  [ .graph (.importPlan retriedPlan 0 0 false true 1),
    .graph (.refresh 0 2),
    .graph (.reserve 0 0 3),
    .thread 0 4 0 false,
    .process 0 5 0 false,
    .process 0 6 0 false,
    .process 0 7 0 false,
    .thread 0 8 0 false,
    .thread 0 9 0 false,
    .thread 0 10 0 true,
    .thread 0 11 1 false,
    .thread 0 12 0 true,
    .thread 0 13 0 false ]

set_option maxRecDepth 20000 in
/-- The task that the thread has blocked for recovery is `READY` again after its failure handler. -/
theorem marked_task_revived : ¬∀ (h : History) (config : Config) (s : World) (as : List Action),
    (machine h config).start s → (machine h config).Along (LeavesStopped h config) s as := by
  intro hall
  have hlast := hall Scenario.history Scenario.config _ (markedPipeline ++ [.thread 0 14 0 false])
    Scenario.system_start
  rw [Machine.along_append] at hlast
  have hleaves := hlast.2.1
  have hrow : (((Scenario.system.run Scenario.start markedPipeline).step Scenario.history
      Scenario.config (.thread 0 14 0 false)).db.graph.tasks.get? 0).any
        (fun x => x.status = .ready) = true := by decide
  obtain ⟨x, hx, hready⟩ := (Option.any_eq_true _ _).1 hrow
  have hfin : (finishing (.thread 0 14 0 false) (Scenario.system.run Scenario.start markedPipeline)).any
      (fun t => t.task.taskId = 0) = true := by decide
  obtain ⟨t, ht, htask⟩ := (Option.any_eq_true _ _).1 hfin
  have hrev := hleaves t ht (by rw [of_decide_eq_true htask]; decide) x (by
    rw [of_decide_eq_true htask]; exact hx)
  rw [of_decide_eq_true hready] at hrev
  cases hrev

end HermesOps
