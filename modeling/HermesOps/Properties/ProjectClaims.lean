import HermesOps.Properties.Selection

/-! Who owns a project. The scheduler calls a project busy while one of its tasks is `RUNNING`; the
    transaction manager goes by the row of `project_locks`. The two agree as long as no task leaves
    `RUNNING` before the lock of its project is released, and nobody takes a lock past the scheduler. -/

namespace HermesOps

open Schemes

/-! ### Claims on a project -/

/-- A task of the project runs. -/
def World.occupied (w : World) (p : ProjectId) : Bool :=
  w.db.graph.tasks.any fun _ t => t.projectId = some p ∧ t.status = .running

/-- The process is about to ask for the lock. -/
def Stage.begins (p : ProjectId) : Stage → Bool
  | .begin q _ => q = p
  | _ => false

/-- The thread is about to start `begin`. -/
def Thread.isStarting (p : ProjectId) (t : Thread) : Bool :=
  t.stage = .reserved ∧ t.task.kind = .pipeline ∧ t.task.projectId = some p

/-- Somebody is about to lock the project. -/
def World.awaited (w : World) (p : ProjectId) : Bool :=
  (w.daemon.threads.any fun _ t => t.isStarting p) || w.procs.any fun _ s => s.begins p

/-- The project is locked, or about to be. -/
def World.held (w : World) (p : ProjectId) : Bool :=
  (w.db.store.locks.get? p).isSome || w.awaited p

/-- The project for which the step asks the lock past the scheduler: the `begin` of an operator, and
    `ensure_lock_for_block` of the recovery. -/
def seizing (a : Action) (w : World) : Option ProjectId :=
  match a with
  | .operator _ (.begin p _) => some p
  | .process pid _ _ false =>
    match w.procs.get? pid with
    | some (.blocking r _) => (w.db.store.runs.get? r).map Run.projectId
    | _ => none
  | _ => none

/-- The step lets a task leave `RUNNING` while its project is locked or about to be, or asks for the lock
    of a project that none of its tasks runs for, or that one of them is about to lock. -/
def strands (h : History) (config : Config) (a : Action) (w : World) : Bool :=
  (w.db.graph.tasks.any fun i t => t.status = .running ∧ t.projectId.any w.held ∧
      ¬((w.step h config a).db.graph.tasks.get? i).any fun t' => t'.status = .running) ||
    (seizing a w).any fun p => (w.db.store.locks.get? p).isNone ∧ (w.awaited p ∨ ¬w.occupied p)

/-- A pipeline that is reserved, and the `begin` it starts, find the project unlocked. -/
structure Unobstructed (w : World) : Prop where
  reserving : ∀ i j now g task p, reserveAttempt w.db i j now = .ok (g, task) →
    task.projectId = some p → w.db.store.locks.get? p = none
  beginning : ∀ j t pid p owner, w.daemon.threads.get? j = some t → t.stage = .beginning pid →
    w.procs.get? pid = some (.begin p owner) → w.db.store.locks.get? p = none

variable {h : History} {config : Config} {w w' : World} {a : Action} {p : ProjectId} {r : RunId}
  {pid : Pid} {i : TaskId} {j : AttemptId}

/-! ### Where locks come from -/

theorem heartbeatLock_none {s : Store} {now : Time} (hn : s.locks.get? p = none) :
    (s.heartbeatLock r now).get? p = none := by
  rw [Store.heartbeatLock, Table.get?_update, hn, Option.map_none]

theorem releaseLock_none {s : Store} (hn : s.locks.get? p = none) : (s.releaseLock r).get? p = none := by
  rw [Store.releaseLock, Table.get?_delete, hn]
  rfl

/-- Only `begin` and the recovery that blocks a run lock a project. -/
theorem Stage.Succeeds.newLock {now : Time} {fresh : Nat} {s s' : Site} {stage : Stage}
    {progress : Progress} (hs : stage.Succeeds h now fresh s s' progress)
    (hn : s.db.store.locks.get? p = none) (hsome : (s'.db.store.locks.get? p).isSome) :
    stage.begins p = true ∨ ∃ r owner x, stage = .blocking r owner ∧
      s.db.store.runs.get? r = some x ∧ x.projectId = p := by
  have absurd_of : s'.db.store.locks.get? p = none → stage.begins p = true ∨
      ∃ r owner x, stage = .blocking r owner ∧ s.db.store.runs.get? r = some x ∧ x.projectId = p := by
    intro hnone
    rw [hnone] at hsome
    cases hsome
  cases hs with
  | begin hr =>
    obtain ⟨_, _, -, -, -, -, -, hlocks, -⟩ := beginReserve_ok hr
    rw [Site.setStore_store, Table.get?_insert hlocks] at hsome
    split at hsome
    · rename_i heq
      exact .inl (decide_eq_true heq.symm)
    · rw [hn] at hsome
      cases hsome
  | activating hr =>
    obtain ⟨-, -, -, hlocks, -⟩ := beginActivate_ok hr
    exact absurd_of (by rw [Site.setStore_store, hlocks]; exact heartbeatLock_none hn)
  | aborting => exact absurd_of (releaseLock_none hn)
  | submitted => exact absurd_of (heartbeatLock_none hn)
  | rollback hr =>
    obtain ⟨_, -, -, -, -, hlocks, -⟩ := rollbackStart_ok hr
    exact absurd_of (by rw [Site.setStore_store, hlocks]; exact hn)
  | rollingBack => exact absurd_of (releaseLock_none hn)
  | prepare _ hr =>
    obtain ⟨_, -, -, -, -, -, -, hlocks, -⟩ := prepareIntegration_ok hr
    exact absurd_of (by rw [Site.setStore_store, hlocks]; exact heartbeatLock_none hn)
  | record _ hr =>
    obtain ⟨_, _, -, -, -, -, -, -, -, hlocks, -⟩ := recordNonIntegration_ok hr
    exact absurd_of (by rw [Site.setStore_store, hlocks]; exact heartbeatLock_none hn)
  | observed hr | retried hr =>
    obtain ⟨_, -, -, -, -, -, hlocks, -⟩ := finalizeCompleted_ok hr
    exact absurd_of (by rw [Site.setStore_store, hlocks]; exact releaseLock_none hn)
  | resumeReady => exact absurd_of (heartbeatLock_none hn)
  | resumeFinishing hr =>
    obtain ⟨_, -, -, -, -, hlocks, -⟩ := resumeFinish_ok hr
    exact absurd_of (by rw [Site.setStore_store, hlocks]; exact releaseLock_none hn)
  | abortSnapshotting => exact absurd_of (releaseLock_none hn)
  | @blocking r owner store hr =>
    obtain ⟨x, locks, hx, hl, -, -, -, hlocks, -⟩ := applyBlock_ok hr
    rw [Site.setStore_store, hlocks, Table.get?_update] at hsome
    rcases ensureLockForBlock_ok hl with ⟨rfl, -⟩ | ⟨l, -, -, hins⟩
    · rw [hn] at hsome
      cases hsome
    · rw [Table.get?_insert hins] at hsome
      split at hsome
      · rename_i heq
        exact .inr ⟨r, owner, x, rfl, hx, heq.symm⟩
      · rw [hn] at hsome
        cases hsome
  | _ => exact absurd_of hn

theorem markedDb_locks (d : Database) (r : RunId) (reason : String) (now : Time) :
    (World.markedDb d r reason now).store.locks = d.store.locks := by
  change (markCancellationCleanupRecovery d.graph d.store r reason now).1.locks = _
  unfold markCancellationCleanupRecovery
  repeat' split
  all_goals rfl

/-- Only processes write the locks. -/
theorem locks_step (ha : ∀ pid now fresh fault, a ≠ .process pid now fresh fault) :
    (w.step h config a).db.store.locks = w.db.store.locks := by
  cases a with
  | objective a =>
    cases a <;> simp only [World.step, World.objectiveStep] <;> repeat' split
    all_goals rfl
  | planner i a =>
    simp only [World.step]
    split
    · cases a <;> simp only [World.plannerStep] <;> repeat' split
      all_goals rfl
    · rfl
  | graph a =>
    cases a <;> simp only [World.step, World.graphStep] <;> repeat' split
    all_goals rfl
  | thread j now pid fault =>
    simp only [World.step]
    split
    · rename_i t ht
      obtain ⟨rt, s⟩ := t
      have hw := World.threadStep_write j now pid fault w rt s!"orchestrator:{rt.taskKey}" s
      generalize hd : (w.threadStep j now pid fault rt s!"orchestrator:{rt.taskKey}" s).db = d at hw
      cases hw with
      | mark => rw [markedDb_locks]
      | _ => rfl
    · rfl
  | janitorStart =>
    simp only [World.step]
    split <;> rfl
  | janitor now pid fault =>
    simp only [World.step]
    rcases World.janitorStep_db now pid fault w with hd | ⟨r, rest, reason, -, -, hd⟩
    · rw [hd]
    · rw [hd, markedDb_locks]
  | operator pid stage =>
    simp only [World.step]
    split
    · rw [World.spawn_db]
    · rfl
  | process pid now fresh fault => exact absurd rfl (ha pid now fresh fault)
  | kill pid => simp only [World.step, World.kill_db]
  | crash => rfl
  | environment e =>
    cases e <;> simp only [World.step, World.environmentStep] <;> repeat' split
    all_goals rfl

/-- A project is locked by a `begin` in flight or past the scheduler. -/
theorem lock_origin (hn : w.db.store.locks.get? p = none)
    (hsome : ((w.step h config a).db.store.locks.get? p).isSome) :
    seizing a w = some p ∨ ∃ pid now fresh owner, a = .process pid now fresh false ∧
      w.procs.get? pid = some (.begin p owner) := by
  have stays : (w.step h config a).db.store.locks = w.db.store.locks → False := by
    intro heq
    rw [heq, hn] at hsome
    cases hsome
  by_cases ha : ∃ pid now fresh fault, a = .process pid now fresh fault
  · obtain ⟨pid, now, fresh, fault, rfl⟩ := ha
    rcases World.stepProcess_cases h pid now fresh fault w with hs | ⟨stage, progress, rfl, hp, hs⟩
    · exact (stays (congrArg (fun s => s.db.store.locks) hs)).elim
    · rcases hs.newLock hn hsome with hb | ⟨r, owner, x, rfl, hx, hxp⟩
      · cases stage with
        | begin q owner =>
          obtain rfl : q = p := of_decide_eq_true hb
          exact .inr ⟨pid, now, fresh, owner, rfl, hp⟩
        | _ => cases hb
      · refine .inl ?_
        have hget : w.db.store.runs.get? r = some x := hx
        simp only [seizing, hp, hget, Option.map_some, hxp]
  · simp only [not_exists] at ha
    exact (stays (locks_step ha)).elim

/-! ### Tasks of a project -/

/-- A step leaves a task with its project, or the task is new. -/
theorem GraphStep.task_project (hs : GraphStep w w' a) {y' : Task} (hy : w'.db.graph.tasks.get? i = some y') :
    (∃ y, w.db.graph.tasks.get? i = some y ∧ y'.projectId = y.projectId) ∨
      w.db.graph.tasks.get? i = none := by
  cases hs with
  | moved hg =>
    obtain ⟨y, hy, hm⟩ := hg.tasks.back hy
    exact .inl ⟨y, hy, hm.carries.project⟩
  | reserved _ hr =>
    obtain ⟨y, hy, hm⟩ := (reserve_tasks hr).back hy
    exact .inl ⟨y, hy, hm.carries.project⟩
  | inserted hd | imported hd =>
    rcases hd.tasks i with hi | ⟨hn, -⟩
    · exact .inl ⟨y', by rw [← hi]; exact hy, rfl⟩
    · exact .inr hn
  | deleted _ _ hd => exact .inl ⟨y', (hd.task.1 hy).1, rfl⟩

theorem occupied_iff : w.occupied p = true ↔
    ∃ i t, w.db.graph.tasks.get? i = some t ∧ t.projectId = some p ∧ t.status = .running := by
  simp [World.occupied, Table.any_iff]

/-- A held project stays occupied. -/
theorem occupied_stays (hok : strands h config a w = false) (hheld : w.held p = true)
    (hocc : w.occupied p = true) : (w.step h config a).occupied p = true := by
  obtain ⟨i, t, ht, hp, hr⟩ := occupied_iff.1 hocc
  have hleft := (Bool.or_eq_false_iff.1 hok).1
  rw [Table.any_eq_false_iff] at hleft
  have hstill := of_decide_eq_false (hleft i t ht)
  have hany : ((w.step h config a).db.graph.tasks.get? i).any (fun t' => t'.status = .running) = true := by
    by_contra hnot
    exact hstill ⟨hr, by rw [hp]; exact hheld, hnot⟩
  obtain ⟨t', ht', hr'⟩ := (Option.any_eq_true _ _).1 hany
  refine occupied_iff.2 ⟨i, t', ht', ?_, of_decide_eq_true hr'⟩
  rcases (graph_step h config w a).task_project ht' with ⟨y, hy, hproj⟩ | hnone
  · rw [ht] at hy
    cases hy
    exact hproj.trans hp
  · rw [ht] at hnone
    cases hnone

/-- A reservation of a task of the project finds none that runs. -/
theorem reserve_unoccupied {now : Time} {g : Graph} {task : Task}
    (hr : reserveAttempt w.db i j now = .ok (g, task)) (hp : task.projectId = some p) :
    w.occupied p = false := by
  obtain ⟨htask, helig, hready, -⟩ := reserveAttempt_ok hr
  obtain ⟨-, hfree, -⟩ := reservation_eligible helig
  rw [hp] at hfree
  by_contra hocc
  rw [Bool.not_eq_false] at hocc
  obtain ⟨k, t, ht, htp, htr⟩ := occupied_iff.1 hocc
  have hki : k ≠ i := by
    rintro rfl
    rw [htask] at ht
    cases ht
    rw [hready] at htr
    cases htr
  rw [projectIsBusy, Table.any_eq_false_iff] at hfree
  exact of_decide_eq_false (hfree k t ht) ⟨htp, htr, hki⟩

/-! ### Who is about to lock -/

/-- The thread is about to start `begin` for the project, or waits for the one it started. -/
def World.Awaiting (w : World) (j : AttemptId) (p : ProjectId) : Prop :=
  ∃ t, w.daemon.threads.get? j = some t ∧ (t.isStarting p = true ∨
    ∃ pid owner, t.stage = .beginning pid ∧ w.procs.get? pid = some (.begin p owner))

theorem isStarting_iff {t : Thread} : t.isStarting p = true ↔
    t.stage = .reserved ∧ t.task.kind = .pipeline ∧ t.task.projectId = some p := by
  simp [Thread.isStarting]

theorem begins_iff {s : Stage} : s.begins p = true ↔ ∃ owner, s = .begin p owner := by
  cases s <;> simp [Stage.begins]

theorem awaited_iff : w.awaited p = true ↔
    (∃ j t, w.daemon.threads.get? j = some t ∧ t.isStarting p = true) ∨
      ∃ pid owner, w.procs.get? pid = some (.begin p owner) := by
  simp only [World.awaited, Bool.or_eq_true, Table.any_iff, begins_iff]
  constructor
  · rintro (hj | ⟨pid, s, hs, owner, rfl⟩)
    · exact .inl hj
    · exact .inr ⟨pid, owner, hs⟩
  · rintro (hj | ⟨pid, owner, hs⟩)
    · exact .inl hj
    · exact .inr ⟨pid, _, hs, owner, rfl⟩

theorem World.Awaiting.awaited (hw : w.Awaiting j p) : w.awaited p = true := by
  obtain ⟨t, ht, hs | ⟨pid, owner, -, hp⟩⟩ := hw
  · exact awaited_iff.2 (.inl ⟨j, t, ht, hs⟩)
  · exact awaited_iff.2 (.inr ⟨pid, owner, hp⟩)

theorem held_iff : w.held p = true ↔ (w.db.store.locks.get? p).isSome ∨ w.awaited p = true := by
  rw [World.held, Bool.or_eq_true]

/-- What the first step of a thread does: a pipeline starts the `begin` of its project. -/
theorem reserved_step {t : Thread} {now : Time} {fault : Bool} (hj : w.daemon.threads.get? j = some t)
    (hs : t.stage = .reserved) :
    (∃ p owner, t.isStarting p = true ∧ w.Unused pid ∧
      (w.step h config (.thread j now pid fault)).daemon.threads.get? j =
        some { t with stage := .beginning pid } ∧
      ∀ q, (w.step h config (.thread j now pid fault)).procs.get? q =
        if q = pid then some (.begin p owner) else w.procs.get? q) ∨
    (w.step h config (.thread j now pid fault)).procs = w.procs := by
  simp only [World.step, hj, hs, World.threadStep]
  split
  · exact .inr rfl
  · split
    · exact .inr rfl
    · exact .inr rfl
    · exact .inr rfl
    · rename_i projectId hk hp
      unfold World.await
      split
      · exact .inr rfl
      · rename_i hu
        simp only [not_or, Bool.not_eq_true, Option.isSome_eq_false_iff,
          Option.isNone_iff_eq_none] at hu
        refine .inl ⟨_, s!"orchestrator:{t.task.taskKey}", isStarting_iff.2 ⟨hs, hk, hp⟩, hu, ?_, fun q => ?_⟩
        · rw [World.setThread_threads_get?, if_pos rfl, World.spawn_daemon, hj]
          rfl
        · obtain ⟨procs, hins⟩ := Table.insert_of_get?_eq_none hu.1
            (.begin projectId s!"orchestrator:{t.task.taskKey}")
          change (w.spawn pid _).procs.get? q = _
          simp only [World.spawn, hu.2, hins]
          rw [if_neg (by simp), Table.get?_insert hins]
    · exact .inr rfl

/-- A `begin` in flight was so before, or has been started by an operator or by a pipeline. -/
theorem begin_origin {owner : String} (hp : (w.step h config a).procs.get? pid = some (.begin p owner)) :
    (w.procs.get? pid = some (.begin p owner) ∧ ∀ now fresh fault, a ≠ .process pid now fresh fault) ∨
      (w.Unused pid ∧ (seizing a w = some p ∨
      ∃ j t now fault, a = .thread j now pid fault ∧ w.daemon.threads.get? j = some t ∧
        t.isStarting p = true ∧ (w.step h config a).daemon.threads.get? j =
          some { t with stage := .beginning pid })) := by
  cases World.proc_origin h config w a hp with
  | kept hold hne => exact .inl ⟨hold, hne⟩
  | @stepped now fresh fault stage _ hold hst =>
    rcases stage.step_cases h now fresh fault w.site with ⟨e, he⟩ | ⟨-, hs⟩
    · rw [hst] at he
      have herr : stage.onError e = .next (.begin p owner) := (congrArg Prod.snd he).symm
      cases stage <;> simp [Stage.onError] at herr
    · rw [hst] at hs
      generalize (w.step h config a).site = s' at hs
      cases hs with
      | decided _ _ hnext => split at hnext <;> cases hnext
  | started hu hby =>
    cases hby with
    | operator => exact .inr ⟨hu, .inl rfl⟩
    | @thread j now pid' fault t _ _ hj hstarts =>
      rcases hstarts with ⟨hs, -, -⟩ | ⟨r, -, -, hstage | ⟨-, hstage⟩ | ⟨-, hstage⟩⟩
      · rcases @reserved_step h config w pid' j t now fault hj hs
          with ⟨q, owner', hq, hu', hmoved, hprocs⟩ | hsame
        · rw [hprocs] at hp
          split at hp
          · rename_i heq
            subst heq
            cases hp
            exact .inr ⟨hu, .inr ⟨j, t, now, fault, rfl, hj, hq, hmoved⟩⟩
          · rw [hu.1] at hp
            cases hp
        · rw [hsame, hu.1] at hp
          cases hp
      · cases hstage
      · cases hstage
      · cases hstage

/-- A thread about to start `begin` was so before, or has just been reserved. -/
theorem starting_origin {t' : Thread} (ht' : (w.step h config a).daemon.threads.get? j = some t')
    (hs : t'.isStarting p = true) :
    (∃ t, w.daemon.threads.get? j = some t ∧ t.isStarting p = true) ∨ ∃ i now g task,
      a = .graph (.reserve i j now) ∧ reserveAttempt w.db i j now = .ok (g, task) ∧
      (w.step h config a).db.graph = g ∧ task.projectId = some p := by
  obtain ⟨hs, hk, hproj⟩ := isStarting_iff.1 hs
  cases World.thread_origin h config w a ht' with
  | kept ht => exact .inl ⟨t', ht, isStarting_iff.2 ⟨hs, hk, hproj⟩⟩
  | @reserved i now g task ha hr hg he =>
    subst he
    exact .inr ⟨i, now, g, task, ha, hr, hg, hproj⟩
  | @moved t now pid fault ht htask _ hm =>
    rw [hs] at hm
    generalize hst : t.stage = s at hm
    generalize hst' : ThreadStage.reserved = s' at hm
    cases hm with
    | stays =>
      exact .inl ⟨t, ht, isStarting_iff.2 ⟨hst.trans hst'.symm, htask ▸ hk, htask ▸ hproj⟩⟩
    | integrated =>
      have := congrArg ThreadStage.linkedRun hst'
      rw [IntegrationResult.dispatch_linkedRun] at this
      cases this
    | _ => cases hst'

/-- A thread waits for the `begin` it waited for before, or has just started it. -/
theorem beginning_thread (hC : ClaimInv w) {t' : Thread} {owner : String}
    (ht' : (w.step h config a).daemon.threads.get? j = some t') (hs : t'.stage = .beginning pid)
    (hp : (w.step h config a).procs.get? pid = some (.begin p owner)) :
    ∃ t, w.daemon.threads.get? j = some t ∧ ((t.stage = .beginning pid ∧
      w.procs.get? pid = some (.begin p owner) ∧ ∀ now fresh fault, a ≠ .process pid now fresh fault) ∨
        t.isStarting p = true) := by
  rcases waits_origin ht' hs with ⟨t, ht, hst, -⟩ | ⟨hu, -, -, now, pid', fault, rfl⟩
  · rcases begin_origin hp with hold | ⟨hu, -⟩
    · exact ⟨t, ht, .inl ⟨hst, hold⟩⟩
    · exact absurd hu (hC.started j t pid ht hst)
  · rcases begin_origin hp with ⟨hold, -⟩ | ⟨-, hseize | ⟨k, t, now, fault, ha, hk, hstart, -⟩⟩
    · rw [hu.1] at hold
      cases hold
    · cases hseize
    · cases ha
      exact ⟨t, hk, .inr hstart⟩

/-- A thread about to lock was so before, or has just been reserved. -/
theorem awaiting_origin (hC : ClaimInv w) (hw : (w.step h config a).Awaiting j p) :
    w.Awaiting j p ∨ ∃ i now g task, a = .graph (.reserve i j now) ∧
      reserveAttempt w.db i j now = .ok (g, task) ∧ (w.step h config a).db.graph = g ∧
      task.projectId = some p := by
  obtain ⟨t', ht', hs | ⟨pid, owner, hs, hp⟩⟩ := hw
  · rcases starting_origin ht' hs with ⟨t, ht, hst⟩ | hnew
    · exact .inl ⟨t, ht, .inl hst⟩
    · exact .inr hnew
  · obtain ⟨t, ht, ⟨hst, hold, -⟩ | hst⟩ := beginning_thread hC ht' hs hp
    · exact .inl ⟨t, ht, .inr ⟨pid, owner, hst, hold⟩⟩
    · exact .inl ⟨t, ht, .inl hst⟩

/-! ### The invariant -/

/-- A held project is occupied, and a thread about to lock it is alone with it. -/
structure ProjectInv (w : World) : Prop where
  occupied : ∀ p, w.held p = true → w.occupied p = true
  unlocked : ∀ j p, w.Awaiting j p → w.db.store.locks.get? p = none
  alone : ∀ j k p, w.Awaiting j p → w.Awaiting k p → j = k
  own : ∀ j p pid owner, w.Awaiting j p → w.procs.get? pid = some (.begin p owner) →
    ∃ t, w.daemon.threads.get? j = some t ∧ t.stage = .beginning pid

/-- A project of which a task has been reserved was free. -/
theorem ProjectInv.reserve_free (hI : ProjectInv w) {now : Time} {g : Graph} {task : Task}
    (hr : reserveAttempt w.db i j now = .ok (g, task)) (hp : task.projectId = some p) :
    w.held p = false := by
  by_contra hheld
  rw [Bool.not_eq_false] at hheld
  have hocc := hI.occupied p hheld
  rw [reserve_unoccupied hr hp] at hocc
  cases hocc

/-- Past the scheduler a lock is asked for only where it changes nothing. -/
theorem seizing_harmless (hok : strands h config a w = false) (hs : seizing a w = some p)
    (hn : w.db.store.locks.get? p = none) : w.awaited p = false ∧ w.occupied p = true := by
  have hright := (Bool.or_eq_false_iff.1 hok).2
  rw [hs, Option.any_some, hn] at hright
  simpa using hright

theorem seizing_graph (hs : seizing a w = some p) : (w.step h config a).db.graph = w.db.graph := by
  cases a with
  | operator pid stage =>
    simp only [World.step]
    split
    · rw [World.spawn_db]
    · rfl
  | process pid now fresh fault => exact (World.stepProcess_queueGraph h pid now fresh fault w).2
  | _ => cases hs

theorem ProjectInv.step_occupied (hI : ProjectInv w)
    (hok : strands h config a w = false) (hheld : (w.step h config a).held p = true) :
    (w.step h config a).occupied p = true := by
  by_cases hold : w.held p = true
  · exact occupied_stays hok hold (hI.occupied p hold)
  rw [held_iff, not_or, Option.not_isSome_iff_eq_none] at hold
  obtain ⟨hn, hawaited⟩ := hold
  have hseized : seizing a w = some p → (w.step h config a).occupied p = true := by
    intro hs
    rw [World.occupied, seizing_graph hs]
    exact (seizing_harmless hok hs hn).2
  rcases held_iff.1 hheld with hl | ha
  · rcases lock_origin hn hl with hs | ⟨pid, _, _, owner, -, hp⟩
    · exact hseized hs
    · exact absurd (awaited_iff.2 (.inr ⟨pid, owner, hp⟩)) hawaited
  · rcases awaited_iff.1 ha with ⟨j, t, ht, hst⟩ | ⟨pid, owner, hp⟩
    · rcases starting_origin ht hst with ⟨u, hu, hus⟩ | ⟨i, now, g, task, -, hr, hg, hproj⟩
      · exact absurd (awaited_iff.2 (.inl ⟨j, u, hu, hus⟩)) hawaited
      · obtain ⟨htask, -, -, -, -, -, ⟨t', ht', hrun⟩, -⟩ := reserveAttempt_ok hr
        obtain ⟨u, hu, hm⟩ := (reserve_tasks hr).back ht'
        rw [htask] at hu
        cases hu
        exact occupied_iff.2 ⟨i, t', hg ▸ ht', hm.carries.project.trans hproj, hrun⟩
    · rcases begin_origin hp with ⟨hold, -⟩ | ⟨-, hs | ⟨j, t, _, _, -, ht, hst, -⟩⟩
      · exact absurd (awaited_iff.2 (.inr ⟨pid, owner, hold⟩)) hawaited
      · exact hseized hs
      · exact absurd (awaited_iff.2 (.inl ⟨j, t, ht, hst⟩)) hawaited

/-- The `begin` of a thread is over once it has the lock. -/
theorem ProjectInv.step_unlocked (hI : ProjectInv w) (hC : ClaimInv w)
    (hok : strands h config a w = false) (hw : (w.step h config a).Awaiting j p) :
    (w.step h config a).db.store.locks.get? p = none := by
  rcases awaiting_origin hC hw with hold | ⟨i, now, g, task, ha, hr, -, hproj⟩
  · have hn := hI.unlocked j p hold
    by_contra hsome
    rcases lock_origin hn (Option.isSome_iff_ne_none.2 hsome) with hs | ⟨pid, now, fresh, owner, ha, hp⟩
    · have hfree := (seizing_harmless hok hs hn).1
      rw [hold.awaited] at hfree
      cases hfree
    · obtain ⟨t, ht, hst⟩ := hI.own j p pid owner hold hp
      obtain ⟨t', ht', hs | ⟨pid', owner', hs, hp'⟩⟩ := hw
      · rcases starting_origin ht' hs with ⟨u, hu, hus⟩ | ⟨_, _, _, _, hne, -⟩
        · rw [ht] at hu
          cases hu
          rw [(isStarting_iff.1 hus).1] at hst
          cases hst
        · rw [ha] at hne
          cases hne
      · obtain ⟨u, hu, ⟨hus, -, hne⟩ | hus⟩ := beginning_thread hC ht' hs hp'
        · rw [ht] at hu
          cases hu
          rw [hst] at hus
          cases hus
          exact hne now fresh false ha
        · rw [ht] at hu
          cases hu
          rw [(isStarting_iff.1 hus).1] at hst
          cases hst
  · have hfree := hI.reserve_free hr hproj
    rw [World.held, Bool.or_eq_false_iff] at hfree
    rw [locks_step (by rw [ha]; exact fun _ _ _ _ hne => by cases hne)]
    exact Option.not_isSome_iff_eq_none.1 (by rw [hfree.1]; exact Bool.false_ne_true)

theorem ProjectInv.step_alone (hI : ProjectInv w) (hC : ClaimInv w) {k : AttemptId}
    (hj : (w.step h config a).Awaiting j p) (hk : (w.step h config a).Awaiting k p) : j = k := by
  rcases awaiting_origin hC hj with hj | ⟨i, now, g, task, ha, hr, -, hproj⟩
  · rcases awaiting_origin hC hk with hk | ⟨i, now, g, task, ha, hr, -, hproj⟩
    · exact hI.alone j k p hj hk
    · have hfree := hI.reserve_free hr hproj
      rw [World.held, hj.awaited, Bool.or_true] at hfree
      cases hfree
  · rcases awaiting_origin hC hk with hk | ⟨i', now', g', task', ha', -⟩
    · have hfree := hI.reserve_free hr hproj
      rw [World.held, hk.awaited, Bool.or_true] at hfree
      cases hfree
    · rw [ha] at ha'
      cases ha'
      rfl

theorem ProjectInv.step_own (hI : ProjectInv w) (hC : ClaimInv w) (hok : strands h config a w = false)
    {owner : String} (hw : (w.step h config a).Awaiting j p)
    (hp : (w.step h config a).procs.get? pid = some (.begin p owner)) :
    ∃ t, (w.step h config a).daemon.threads.get? j = some t ∧ t.stage = .beginning pid := by
  rcases awaiting_origin hC hw with hold | ⟨i, now, g, task, ha, hr, -, hproj⟩
  · rcases begin_origin hp with ⟨hkept, -⟩ | ⟨-, hs | ⟨k, t, _, _, -, hk, hst, hmoved⟩⟩
    · obtain ⟨t, ht, hst⟩ := hI.own j p pid owner hold hkept
      have hnot : ∀ u, w.daemon.threads.get? j = some u → u.isStarting p = true → False := by
        intro u hu hus
        rw [ht] at hu
        cases hu
        rw [(isStarting_iff.1 hus).1] at hst
        cases hst
      obtain ⟨t', ht', hs | ⟨pid', owner', hs, hp'⟩⟩ := hw
      · rcases starting_origin ht' hs with ⟨u, hu, hus⟩ | ⟨i, now, g, task, ha, hr, -, hproj⟩
        · exact (hnot u hu hus).elim
        · have hfree := hI.reserve_free hr hproj
          rw [World.held, hold.awaited, Bool.or_true] at hfree
          cases hfree
      · obtain ⟨u, hu, ⟨hus, -⟩ | hus⟩ := beginning_thread hC ht' hs hp'
        · rw [ht] at hu
          cases hu
          rw [hst] at hus
          cases hus
          exact ⟨t', ht', hs⟩
        · exact (hnot u hu hus).elim
    · have hfree := (seizing_harmless hok hs (hI.unlocked j p hold)).1
      rw [hold.awaited] at hfree
      cases hfree
    · obtain rfl := hI.alone j k p hold ⟨t, hk, .inl hst⟩
      exact ⟨_, hmoved, rfl⟩
  · have hfree := hI.reserve_free hr hproj
    rcases begin_origin hp with ⟨hkept, -⟩ | ⟨-, hs | ⟨k, t, _, _, hne, -⟩⟩
    · rw [World.held, awaited_iff.2 (.inr ⟨pid, owner, hkept⟩), Bool.or_true] at hfree
      cases hfree
    · rw [ha] at hs
      cases hs
    · rw [ha] at hne
      cases hne

theorem projectInv_reachable (hw : (machine h config).Reachable (fun a w => strands h config a w = false) w) :
    ProjectInv w := by
  refine Machine.invariant (m := machine h config) (I := ProjectInv) (fun s hs => ?_)
    (fun a s hs hok hI => ?_) hw
  · obtain ⟨projects, -, rfl⟩ := hs
    refine ⟨fun p hp => (by cases hp), fun j p hp => ?_, fun j k p hp => ?_, fun j p _ _ hp => ?_⟩
    all_goals
      obtain ⟨t, ht, -⟩ := hp
      cases ht
  · have hC := claimInv_reachable hs
    exact ⟨fun p => hI.step_occupied hok, fun j p => hI.step_unlocked hC hok,
      fun j k p => hI.step_alone hC, fun j p pid owner => hI.step_own hC hok⟩

/-! ### Reservations under the lock -/

/-- Whatever is reserved finds its project unlocked, and so does the `begin` that its thread starts, as long
    as no task leaves `RUNNING` under a lock and no lock is taken past the scheduler. -/
theorem reservation_unobstructed
    (hw : (machine h config).Reachable (fun a w => strands h config a w = false) w) : Unobstructed w := by
  have hI := projectInv_reachable hw
  refine ⟨fun i j now g task p hr hp => ?_, fun j t pid p owner ht hs hp => ?_⟩
  · have hfree := hI.reserve_free hr hp
    rw [World.held, Bool.or_eq_false_iff] at hfree
    exact Option.not_isSome_iff_eq_none.1 (by rw [hfree.1]; exact Bool.false_ne_true)
  · exact hI.unlocked j p ⟨t, ht, .inr ⟨pid, owner, hs, hp⟩⟩

set_option maxRecDepth 20000 in
/-- The pipeline of the scenario has its lock from its own `begin`. -/
theorem reviewed_unobstructed :
    Unobstructed (Scenario.system.run Scenario.start Scenario.reviewedPipeline) :=
  reservation_unobstructed (.run (.start Scenario.system_start) (by decide))

/-- The first task waits for a human under the lock of its run, and another plan has a task on its
    project. -/
def lockedProject : List Action :=
  gatedFirst ++
  [ .thread 0 108 0 false,
    .thread 0 109 0 false,
    .graph (.importPlan Scenario.pipelinePlan 1 10 false true 110),
    .graph (.refresh 1 111) ]

set_option maxRecDepth 20000 in
/-- The task of the other plan is reserved although the project is locked. -/
theorem locked_project_reserved : ¬∀ (h : History) (config : Config) (w : World),
    (machine h config).Reachable (fun _ _ => True) w → Unobstructed w := by
  intro hall
  let w := Scenario.system.run (World.initial twinProjects) lockedProject
  have hun := hall Scenario.history Scenario.config w (.run (.start twin_start) (by decide))
  have hreserved : (reserveAttempt w.db 10 1 112).toOption.any (fun x => x.2.projectId = some 0) = true := by
    decide
  have hlocked : w.db.store.locks.get? 0 ≠ none := by decide
  cases hr : reserveAttempt w.db 10 1 112 with
  | error e =>
    rw [hr] at hreserved
    cases hreserved
  | ok x =>
    obtain ⟨g, task⟩ := x
    rw [hr] at hreserved
    exact hlocked (hun.reserving 10 1 112 g task 0 hr (of_decide_eq_true hreserved))

end HermesOps
