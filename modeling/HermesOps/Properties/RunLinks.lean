import HermesOps.Properties.DependencyOrder
import HermesOps.Properties.SingleWriter

/-! The links from attempts to runs. A run is set up by one `begin` command, and until that command
    has returned it nobody else knows the run; so a linked run is past its set-up: no command aborts
    or activates it any more. A thread and its attempt agree on the run and on the task. -/

namespace HermesOps

open Schemes

/-- The run that a `begin` command is setting up at the stage. -/
def Stage.beginning : Stage → Option RunId
  | .snapshotting r | .activating r | .unwinding r | .aborting r => some r
  | _ => none

/-- A `begin` command has returned the run. -/
def World.Begun (w : World) (r : RunId) : Prop := ∃ p, w.exits.get? p = some (.begun r)

variable {h : History} {config : Config} {w w' : World} {a : Action} {r : RunId}

/-! ### Setting up a run -/

/-- The command that sets up a run was doing so before, or has just reserved it. -/
inductive BeginningOrigin (w w' : World) (a : Action) (pid : Pid) (r : RunId) : Prop
  | before {stage} : w.procs.get? pid = some stage → stage.beginning = some r →
    BeginningOrigin w w' a pid r
  | reserved {now fault} : a = .process pid now r fault → w.db.store.runs.get? r = none →
    (w'.db.store.runs.get? r).isSome → BeginningOrigin w w' a pid r

theorem Stage.onError_beginning {stage stage' : Stage} {e : String}
    (he : stage.onError e = .next stage') : stage'.beginning = stage.beginning := by
  cases stage <;> simp only [Stage.onError, Progress.next.injEq, reduceCtorEq] at he <;> subst he
  all_goals rfl

theorem Stage.Succeeds.beginning {now : Time} {fresh : Nat} {s s' : Site} {stage stage' : Stage}
    (hs : stage.Succeeds h now fresh s s' (.next stage')) (hb : stage'.beginning = some r) :
    stage.beginning = some r ∨ (fresh = r ∧ s.db.store.runs.get? r = none ∧
      (s'.db.store.runs.get? r).isSome) := by
  cases hs with
  | begin hr =>
    obtain rfl : fresh = r := by simpa [Stage.beginning] using hb
    obtain ⟨x, -, -, -, -, -, hins, -⟩ := beginReserve_ok hr
    refine .inr ⟨rfl, Table.get?_of_insert hins, ?_⟩
    rw [Site.setStore_store, Table.get?_insert hins, if_pos rfl]
    rfl
  | snapshotting | unwinding => exact .inl hb
  | decided _ _ hnext =>
    rw [hnext] at hb
    split at hb <;> cases hb
  | _ => cases hb

theorem World.StartedBy.beginning {stage : Stage} (hs : World.StartedBy w a stage) :
    stage.beginning = none := by
  cases hs with
  | operator hc => cases stage <;> first | rfl | cases hc
  | thread _ hc =>
    rcases hc with ⟨-, -, _, rfl⟩ | ⟨_, -, -, rfl | ⟨-, rfl⟩ | ⟨-, rfl⟩⟩ <;> rfl
  | janitor => rfl

theorem beginning_origin {pid : Pid} {stage' : Stage}
    (hp : (w.step h config a).procs.get? pid = some stage') (hb : stage'.beginning = some r) :
    BeginningOrigin w (w.step h config a) a pid r := by
  cases World.proc_origin h config w a hp with
  | kept hp _ => exact .before hp hb
  | started _ hs => rw [hs.beginning] at hb; cases hb
  | @stepped now fresh fault stage ha hp hst =>
    rcases stage.step_cases h now fresh fault w.site with ⟨e, he⟩ | ⟨-, hs⟩
    · rw [hst] at he
      exact .before hp (Stage.onError_beginning (congrArg Prod.snd he).symm ▸ hb)
    · rw [hst] at hs
      rcases hs.beginning hb with h | ⟨rfl, hn, hsome⟩
      · exact .before hp h
      · exact .reserved ha hn hsome

/-- A run is set up by one process, and no longer once `begin` has returned it. -/
structure BeginInv (w : World) : Prop where
  known : ∀ p stage r, w.procs.get? p = some stage → stage.beginning = some r →
    (w.db.store.runs.get? r).isSome
  single : ∀ p q stage stage' r, w.procs.get? p = some stage → w.procs.get? q = some stage' →
    stage.beginning = some r → stage'.beginning = some r → p = q
  row : ∀ r, w.Begun r → ∃ x, w.db.store.runs.get? r = some x ∧
    (x.status.isActive = true ∨ x.status.isFinal = true)
  snapshot : ∀ r, w.Begun r → (w.db.store.snapshots.get? r).isSome
  finished : ∀ r, w.Begun r → ∀ p stage, w.procs.get? p = some stage → stage.beginning ≠ some r

/-- A process that has just left is gone. -/
theorem World.gone_of_exit {pid : Pid} {now : Time} {fresh : Nat} {fault : Bool} {stage : Stage}
    {e : Exit} {s : Site} (hp : w.procs.get? pid = some stage)
    (hst : stage.step h now fresh fault w.site = (s, .exit e)) :
    (w.step h config (.process pid now fresh fault)).procs.get? pid = none := by
  simp only [World.step, World.stepProcess, hp, hst]
  rw [World.finishProcess_procs, if_pos rfl]

/-- A `begin` that returns its run leaves it `RUNNING` under a snapshot. -/
theorem Stage.step_begun {stage : Stage} {now : Time} {fresh : Nat} {fault : Bool} {s s' : Site}
    (hst : stage.step h now fresh fault s = (s', .exit (.begun r))) :
    stage = .activating r ∧ (∃ x, s'.db.store.runs.get? r = some x ∧ x.status = .running) ∧
      (s'.db.store.snapshots.get? r).isSome := by
  rcases stage.step_cases h now fresh fault s with ⟨e, he⟩ | ⟨-, hs⟩
  · rw [hst] at he
    have := (congrArg Prod.snd he).symm
    cases stage <;> cases this
  · rw [hst] at hs
    cases hs with
    | @activating _ store ha =>
      obtain ⟨-, ⟨x, hx⟩, hruns, -, -, y, hins⟩ := beginActivate_ok ha
      refine ⟨rfl, ⟨x.activated now, ?_, rfl⟩, ?_⟩
      · change store.runs.get? r = _
        rw [hruns, Table.get?_updateAt, if_pos rfl, hx]
        rfl
      · change (store.snapshots.get? r).isSome = true
        rw [Table.get?_insert hins, if_pos rfl]
        rfl

/-- A `begin` that has returned the run did so before or has just done so. -/
theorem begun_origin (hb : (w.step h config a).Begun r) : w.Begun r ∨
    ∃ pid stage now fresh fault, a = .process pid now fresh fault ∧
      w.procs.get? pid = some stage ∧
      stage.step h now fresh fault w.site = ((w.step h config a).site, .exit (.begun r)) := by
  obtain ⟨p, hp⟩ := hb
  cases World.exit_origin h config w a hp with
  | kept he => exact .inl ⟨p, he⟩
  | exited ha hproc _ hst => exact .inr ⟨p, _, _, _, _, ha, hproc, hst⟩
  | killed _ he => cases he

theorem World.Begun.stays (hb : w.Begun r) : (w.step h config a).Begun r := by
  obtain ⟨p, hp⟩ := hb
  exact ⟨p, World.exit_kept h config w a hp⟩

theorem BeginInv.step (hI : BeginInv w) (h : History) (config : Config) (a : Action) :
    BeginInv (w.step h config a) := by
  obtain ⟨wr, hwr, hs⟩ := World.store_step h config w a
  have known : ∀ r, (w.db.store.runs.get? r).isSome →
      ((w.step h config a).db.store.runs.get? r).isSome := by
    intro r hr
    obtain ⟨x, hx⟩ := Option.isSome_iff_exists.1 hr
    obtain ⟨x', hx', -⟩ := hs.run r x hx
    exact Option.isSome_of_mem hx'
  refine ⟨fun p stage r hp hb => ?_, fun p q stage stage' r hp hq hb hb' => ?_, fun r hb => ?_,
    fun r hb => ?_, fun r hb p stage hp hbeg => ?_⟩
  · cases beginning_origin hp hb with
    | before hp hb => exact known r (hI.known p _ r hp hb)
    | reserved _ _ hsome => exact hsome
  · cases beginning_origin hp hb with
    | before hp hb =>
      cases beginning_origin hq hb' with
      | before hq hb' => exact hI.single p q _ _ r hp hq hb hb'
      | reserved _ hn =>
        have := hI.known p _ r hp hb
        rw [hn] at this
        cases this
    | reserved ha hn =>
      cases beginning_origin hq hb' with
      | before hq hb' =>
        have := hI.known q _ r hq hb'
        rw [hn] at this
        cases this
      | reserved ha' => rw [ha] at ha'; cases ha'; rfl
  · rcases begun_origin hb with hold | ⟨pid, stage, now, fresh, fault, -, -, hst⟩
    · obtain ⟨x, hx, hstatus⟩ := hI.row r hold
      obtain ⟨x', hx', hm⟩ := hs.run r x hx
      refine ⟨x', hx', ?_⟩
      -- only the command that begins a run leaves it `FAILED`
      cases hm with
      | kept _ hst => rw [hst]; exact hstatus
      | aborted =>
        cases hwr with
        | process hp => exact absurd rfl (hI.finished r hold _ _ hp)
      | rolledBack _ _ hst | finalized _ _ _ _ _ hst | resumed _ _ hst => rw [hst]; exact .inr rfl
      | activated _ _ hst | submitted _ _ _ hst | rollback _ _ _ hst | waiting _ _ _ _ hst
        | committed _ _ _ _ _ _ _ _ _ hst | ambiguous _ _ _ hst | forced _ hst | blocked _ hst
        | marked _ _ _ hst => rw [hst]; exact .inl rfl
    · obtain ⟨-, ⟨x, hx, hrun⟩, -⟩ := Stage.step_begun hst
      exact ⟨x, hx, .inl (by rw [hrun]; rfl)⟩
  · rcases begun_origin hb with hb | ⟨pid, stage, now, fresh, fault, -, -, hst⟩
    · exact hs.snapshot r (hI.snapshot r hb)
    · exact (Stage.step_begun hst).2.2
  · rcases begun_origin hb with hb | ⟨pid, stage', now, fresh, fault, rfl, hp', hst⟩
    · cases beginning_origin hp hbeg with
      | before hp hbeg => exact hI.finished r hb p _ hp hbeg
      | reserved _ hn =>
        obtain ⟨x, hx, -⟩ := hI.row r hb
        rw [hn] at hx
        cases hx
    · obtain ⟨rfl, -⟩ := Stage.step_begun hst
      have hgone : (w.step h config (.process pid now fresh fault)).procs.get? pid = none :=
        World.gone_of_exit hp' hst
      cases beginning_origin hp hbeg with
      | before hq hb' =>
        obtain rfl := hI.single p pid _ _ r hq hp' hb' rfl
        rw [hgone] at hp
        cases hp
      | reserved _ hn =>
        have := hI.known pid _ r hp' rfl
        rw [hn] at this
        cases this

theorem beginInv_reachable {ok : Action → World → Prop}
    (hw : (machine h config).Reachable ok w) : BeginInv w := by
  refine Schemes.Machine.invariant (m := machine h config) (I := fun w => BeginInv w) (fun s hs => ?_)
    (fun a s _ _ hI => hI.step h config a) hw
  obtain ⟨projects, -, rfl⟩ := hs
  refine ⟨fun _ _ _ hp => ?_, fun _ _ _ _ _ hp => ?_, fun _ hb => ?_, fun _ hb => ?_, fun _ hb => ?_⟩
  · cases hp
  · cases hp
  all_goals
    obtain ⟨p, hp⟩ := hb
    cases hp

/-! ### Threads and their attempts -/

/-- The runs are those of `begin` commands that have returned, an attempt belongs to a task, and a
    thread agrees with the row of its attempt. -/
structure LinkInv (w : World) : Prop where
  began : ∀ j t r, w.daemon.threads.get? j = some t → t.stage = .began r → w.Begun r
  linked : ∀ j x r, w.db.graph.attempts.get? j = some x → x.runId = some r → w.Begun r
  placed : ∀ j x, w.db.graph.attempts.get? j = some x →
    (w.db.graph.tasks.get? x.taskId).isSome
  agreed : ∀ j t x, w.daemon.threads.get? j = some t → w.db.graph.attempts.get? j = some x →
    x.taskId = t.task.taskId ∧ (∀ r, t.stage.linkedRun = some r → x.runId = some r) ∧
      (t.stage.isUnlinked = true → x.runId = none)
  present : ∀ j t x, w.daemon.threads.get? j = some t →
    w.db.graph.tasks.get? t.task.taskId = some x → x.planId = t.task.planId ∧
      x.kind = t.task.kind ∧ (w.db.graph.attempts.get? j).isSome

/-- What the later stage knows of the run, the earlier one knew. -/
def ThreadStage.Agrees (s s' : ThreadStage) : Prop :=
  (∀ r, s'.linkedRun = some r → s.linkedRun = some r) ∧ (s'.isUnlinked = true → s.isUnlinked = true)

theorem IntegrationResult.dispatch_linkedRun (i : IntegrationResult) (r : RunId) :
    (i.dispatch r).linkedRun = some r := by
  unfold IntegrationResult.dispatch
  repeat' split
  all_goals rfl

/-- Only the link tells a thread more than it knew. -/
theorem World.ThreadMove.agrees {rt : ReservedTask} {pid : Pid} {s s' : ThreadStage}
    (hm : World.ThreadMove w rt pid s s') (hb : ∀ r, s ≠ .began r) : s.Agrees s' := by
  cases hm with
  | stays => exact ⟨fun _ hr => hr, fun hu => hu⟩
  | linked => exact absurd rfl (hb _)
  | unwinds hr => exact ⟨fun _ hr' => hr.trans hr', fun hu => by cases hu⟩
  | @integrated r p i =>
    refine ⟨fun k hk => by rw [i.dispatch_linkedRun r] at hk; exact hk, fun hu => ?_⟩
    unfold IntegrationResult.dispatch at hu
    repeat' split at hu
    all_goals cases hu
  | begins | begun => exact ⟨fun _ hr => (by cases hr), fun _ => rfl⟩
  | raises | unwound | interrupted => exact ⟨fun _ hr => (by cases hr), fun hu => (by cases hu)⟩
  | _ => exact ⟨fun _ hr => hr, fun hu => by cases hu⟩

/-- A thread that has learned its run links it, and nothing else happens. -/
theorem World.step_began {j : AttemptId} {now : Time} {pid : Pid} {rt : ReservedTask}
    (hj : w.daemon.threads.get? j = some ⟨rt, .began r⟩) :
    w.step h config (.thread j now pid false) =
      (w.setGraph (World.setAttemptLinks w.db.graph j r now)).setThread j (.working r) := by
  simp [World.step, hj, World.threadStep]

theorem World.step_began_fault {j : AttemptId} {now : Time} {pid : Pid} {rt : ReservedTask}
    (hj : w.daemon.threads.get? j = some ⟨rt, .began r⟩) :
    w.step h config (.thread j now pid true) = w.setThread j (.raising "interrupted") := by
  simp [World.step, hj, World.threadStep]

theorem World.setThread_threads_get? (w : World) (j k : AttemptId) (s : ThreadStage) :
    (w.setThread j s).daemon.threads.get? k = if k = j then
      (w.daemon.threads.get? k).map fun t => { t with stage := s } else w.daemon.threads.get? k := by
  rw [World.setThread_threads, Table.get?_updateAt]

/-- Where a thread of the next world comes from, its link apart. -/
inductive AgentOrigin (w w' : World) (a : Action) (j : AttemptId) (t' : Thread) : Prop
  | before {t} : w.daemon.threads.get? j = some t → t'.task = t.task → t.stage.Agrees t'.stage →
    (∀ r, t'.stage = .began r → t.stage = .began r ∨ w.Begun r) → AgentOrigin w w' a j t'
  | reserved {i now task} : reserveAttempt w.db i j now = .ok (w'.db.graph, task) →
    t' = ⟨⟨i, task.planId, task.kind, task.projectId, task.taskKey, j⟩, .reserved⟩ →
    AgentOrigin w w' a j t'

/-- The step is not one of a thread that has just learned its run. -/
def NoLink (w : World) (a : Action) : Prop :=
  ∀ j now pid fault rt r, a = .thread j now pid fault →
    w.daemon.threads.get? j ≠ some ⟨rt, .began r⟩

theorem agent_origin (ha : NoLink w a) {j : AttemptId} {t' : Thread}
    (ht : (w.step h config a).daemon.threads.get? j = some t') :
    AgentOrigin w (w.step h config a) a j t' := by
  cases World.thread_origin h config w a ht with
  | kept ht => exact .before ht rfl ⟨fun _ hr => hr, fun hu => hu⟩ fun _ hb => .inl hb
  | reserved _ hr hg he => subst hg; exact .reserved hr he
  | @moved t now pid fault ht htask hact hm =>
    refine .before ht htask (hm.agrees fun r hr => ?_) fun r hb => ?_
    · exact ha j now pid fault t.task r hact (by rw [ht, ← hr])
    · generalize t.stage = s at hm
      generalize t'.stage = s' at hm hb
      subst hb
      generalize hs : ThreadStage.began r = s' at hm
      cases hm with
      | stays => exact .inl rfl
      | begun hp => cases hs; exact .inr ⟨_, hp⟩
      | integrated =>
        have := congrArg ThreadStage.linkedRun hs
        rw [IntegrationResult.dispatch_linkedRun] at this
        cases this
      | _ => cases hs

/-- What a step does to the rows that the links rest on. -/
structure LinkRows (w w' : World) : Prop where
  attempt : ∀ j x', w'.db.graph.attempts.get? j = some x' →
    (∃ x, w.db.graph.attempts.get? j = some x ∧ AttemptKept x x') ∨
      (x'.runId = none ∧ (w'.db.graph.tasks.get? x'.taskId).isSome ∧
        w.daemon.threads.get? j = none)
  task : ∀ i y', w'.db.graph.tasks.get? i = some y' →
    (∃ y, w.db.graph.tasks.get? i = some y ∧ y'.planId = y.planId ∧ y'.kind = y.kind) ∨
      (w.db.graph.tasks.get? i = none ∧
        ∀ j t, w.daemon.threads.get? j = some t → t.task.taskId ≠ i)
  alive : ∀ j x, w.db.graph.attempts.get? j = some x →
    (w'.db.graph.tasks.get? x.taskId).isSome → (w'.db.graph.attempts.get? j).isSome
  place : ∀ j x', w'.db.graph.attempts.get? j = some x' →
    (w.db.graph.tasks.get? x'.taskId).isSome → (w'.db.graph.tasks.get? x'.taskId).isSome

theorem LinkRows.moved
    (ht : Table.Related (fun i t => TaskMove w i t a) w.db.graph.tasks w'.db.graph.tasks)
    (hx : ∀ j x', w'.db.graph.attempts.get? j = some x' →
      (∃ x, w.db.graph.attempts.get? j = some x ∧ AttemptKept x x') ∨
        (x'.runId = none ∧ (w'.db.graph.tasks.get? x'.taskId).isSome ∧
          w.daemon.threads.get? j = none))
    (hl : ∀ j x, w.db.graph.attempts.get? j = some x → (w'.db.graph.attempts.get? j).isSome) :
    LinkRows w w' := by
  refine ⟨hx, fun i y' hy' => ?_, fun j x hj _ => hl j x hj, fun j x' _ hs => ?_⟩
  · obtain ⟨y, hy, hm⟩ := ht.back hy'
    exact .inl ⟨y, hy, hm.carries.plan, hm.carries.kind⟩
  · obtain ⟨y, hy⟩ := Option.isSome_iff_exists.1 hs
    obtain ⟨y', hy', -⟩ := ht.forth hy
    exact Option.isSome_of_mem hy'

theorem LinkRows.drawn {p : PlanId} (hd : PlanDrawn w w'.db.graph p) : LinkRows w w' := by
  refine ⟨fun j x' hx' => .inl ⟨x', by rw [← hd.attempts]; exact hx', rfl, rfl⟩, fun i y' hy' => ?_,
    fun j x hj _ => by rw [hd.attempts]; exact Option.isSome_of_mem hj, fun j x' _ hs => ?_⟩
  · rcases hd.tasks i with hi | ⟨hn, -⟩
    · exact .inl ⟨y', by rw [← hi]; exact hy', rfl, rfl⟩
    · refine .inr ⟨hn, fun j t ht hti => ?_⟩
      have := hd.unknown j t ht
      rw [hti, hn, hy'] at this
      cases this
  · rcases hd.tasks x'.taskId with hi | ⟨hn, -⟩
    · rw [hi]; exact hs
    · rw [hn] at hs; cases hs

theorem LinkRows.deleted {p : PlanId} (hd : GraphDeleted w.db.graph w'.db.graph p) :
    LinkRows w w' := by
  refine ⟨fun j x' hx' => .inl ⟨x', ((hd.attempts j x').1 hx').1, rfl, rfl⟩,
    fun i y' hy' => .inl ⟨y', (hd.task.1 hy').1, rfl, rfl⟩, fun j x hj hs => ?_, fun j x' hx' hs => ?_⟩
  · obtain ⟨y', hy'⟩ := Option.isSome_iff_exists.1 hs
    obtain ⟨hy, hp⟩ := hd.task.1 hy'
    refine Option.isSome_of_mem ((hd.attempts j x).2 ⟨hj, fun t ht => ?_⟩)
    rw [hy] at ht
    cases ht
    exact hp
  · obtain ⟨y, hy⟩ := Option.isSome_iff_exists.1 hs
    exact Option.isSome_of_mem (hd.task.2 ⟨hy, ((hd.attempts j x').1 hx').2 y hy⟩)

theorem LinkRows.of_step (hs : GraphStep w w' a) (ha : NoLink w a) : LinkRows w w' := by
  cases hs with
  | moved hg =>
    refine .moved hg.tasks (fun j x' hx' => ?_) fun j x hx => ?_
    · obtain ⟨x, hx, hm⟩ := hg.attempts.back hx'
      cases hm with
      | kept hk => exact .inl ⟨x, hx, hk⟩
      | linked hj => exact absurd hj (ha _ _ _ _ _ _ rfl)
    · obtain ⟨x', hx', -⟩ := hg.attempts.forth hx
      exact Option.isSome_of_mem hx'
  | reserved ha hr hins =>
    subst ha
    obtain ⟨-, -, -, -, -, -, ⟨t', ht', -⟩, y, hyi, hyr, hy⟩ := reserveAttempt_ok hr
    refine .moved (reserve_tasks hr) (fun k x' hx' => ?_) fun k x hx => ?_
    · rw [Table.get?_insert hy] at hx'
      split at hx'
      · rename_i hk
        cases hx'
        exact .inr ⟨hyr, by rw [hyi]; exact Option.isSome_of_mem ht',
          by rw [hk]; exact Table.get?_of_insert hins⟩
      · exact .inl ⟨x', hx', rfl, rfl⟩
    · rw [Table.get?_insert hy]
      split
      · rfl
      · exact Option.isSome_of_mem hx
  | inserted hd => exact .drawn hd
  | imported hd => exact .drawn hd
  | deleted _ _ hd => exact .deleted hd

/-- The thread that a reservation starts agrees with the attempt that it inserts. -/
theorem reserved_agrees {i : TaskId} {j : AttemptId} {now : Time} {g : Graph} {task : Task}
    (hr : reserveAttempt w.db i j now = .ok (g, task)) :
    (∀ x, g.attempts.get? j = some x → x.taskId = i ∧ x.runId = none) ∧
      (g.attempts.get? j).isSome ∧
      ∀ y, g.tasks.get? i = some y → y.planId = task.planId ∧ y.kind = task.kind := by
  obtain ⟨htask, -, -, -, -, hrel, -, y, hyi, hyr, hy⟩ := reserveAttempt_ok hr
  refine ⟨fun x hx => ?_, ?_, fun z hz => ?_⟩
  · rw [Table.get?_insert hy, if_pos rfl] at hx
    cases hx
    exact ⟨hyi, hyr⟩
  · rw [Table.get?_insert hy, if_pos rfl]
    rfl
  · obtain ⟨t, ht, hc, -⟩ := hrel.back hz
    rw [htask] at ht
    cases ht
    exact ⟨hc.plan, hc.kind⟩

theorem LinkInv.step_quiet (hI : LinkInv w) (h : History) (config : Config) {a : Action}
    (ha : NoLink w a) : LinkInv (w.step h config a) := by
  have hrows := LinkRows.of_step (graph_step h config w a) ha
  have horigin : ∀ {j t'}, (w.step h config a).daemon.threads.get? j = some t' →
      AgentOrigin w (w.step h config a) a j t' := fun ht => agent_origin ha ht
  have hbegun : ∀ {r}, w.Begun r → (w.step h config a).Begun r := fun hb => hb.stays
  generalize w.step h config a = w' at hrows horigin hbegun
  refine ⟨fun j t r ht hs => ?_, fun j x r hx hr => ?_, fun j x hx => ?_, fun j t x ht hx => ?_,
    fun j t y ht hy => ?_⟩
  · cases horigin ht with
    | before ht _ _ hb =>
      rcases hb r hs with hb | hb
      · exact hbegun (hI.began j _ r ht hb)
      · exact hbegun hb
    | reserved _ he => rw [he] at hs; cases hs
  · rcases hrows.attempt j x hx with ⟨x₀, hx₀, hk⟩ | ⟨hn, -⟩
    · exact hbegun (hI.linked j x₀ r hx₀ (hk.2 ▸ hr))
    · rw [hn] at hr; cases hr
  · rcases hrows.attempt j x hx with ⟨x₀, hx₀, hk⟩ | ⟨-, hp, -⟩
    · exact hrows.place j x hx (by rw [hk.1]; exact hI.placed j x₀ hx₀)
    · exact hp
  · cases horigin ht with
    | before ht htask hag =>
      rcases hrows.attempt j x hx with ⟨x₀, hx₀, hk⟩ | ⟨-, -, hn⟩
      · obtain ⟨h₁, h₂, h₃⟩ := hI.agreed j _ x₀ ht hx₀
        exact ⟨by rw [hk.1, htask, h₁], fun r hr => by rw [hk.2]; exact h₂ r (hag.1 r hr),
          fun hu => by rw [hk.2]; exact h₃ (hag.2 hu)⟩
      · rw [hn] at ht; cases ht
    | reserved hr he =>
      subst he
      obtain ⟨h₁, h₂⟩ := (reserved_agrees hr).1 x hx
      exact ⟨h₁, fun r hr => (by cases hr), fun _ => h₂⟩
  · cases horigin ht with
    | before ht htask hag =>
      rw [htask] at hy ⊢
      rcases hrows.task _ y hy with ⟨y₀, hy₀, hp, hk⟩ | ⟨-, hfree⟩
      · obtain ⟨h₁, h₂, h₃⟩ := hI.present j _ y₀ ht hy₀
        obtain ⟨x₀, hx₀⟩ := Option.isSome_iff_exists.1 h₃
        refine ⟨hp.trans h₁, hk.trans h₂, hrows.alive j x₀ hx₀ ?_⟩
        rw [(hI.agreed j _ x₀ ht hx₀).1]
        exact Option.isSome_of_mem hy
      · exact absurd rfl (hfree j _ ht)
    | reserved hr he =>
      subst he
      obtain ⟨-, hs, hcols⟩ := reserved_agrees hr
      exact ⟨(hcols y hy).1, (hcols y hy).2, hs⟩

/-- The step of a thread that has just learned its run. -/
theorem LinkInv.step_link (hI : LinkInv w) (h : History) (config : Config) {j : AttemptId}
    {now : Time} {pid : Pid} {fault : Bool} {rt : ReservedTask}
    (hj : w.daemon.threads.get? j = some ⟨rt, .began r⟩) :
    LinkInv (w.step h config (.thread j now pid fault)) := by
  have hb := hI.began j _ r hj rfl
  have hother : ∀ (w₁ : World) {s k t}, w₁.daemon = w.daemon → k ≠ j →
      (w₁.setThread j s).daemon.threads.get? k = some t → w.daemon.threads.get? k = some t := by
    intro w₁ s k t hd hk ht
    rw [World.setThread_threads_get?, if_neg hk, hd] at ht
    exact ht
  have hown : ∀ (w₁ : World) {s t}, w₁.daemon = w.daemon →
      (w₁.setThread j s).daemon.threads.get? j = some t → t = ⟨rt, s⟩ := by
    intro w₁ s t hd ht
    rw [World.setThread_threads_get?, if_pos rfl, hd, hj] at ht
    exact (Option.some.inj ht).symm
  cases fault with
  | true =>
    rw [World.step_began_fault hj]
    refine ⟨fun k t q ht hs => ?_, hI.linked, hI.placed, fun k t x ht hx => ?_,
      fun k t x ht hx => ?_⟩
    · by_cases hk : k = j
      · subst hk; rw [hown w rfl ht] at hs; cases hs
      · exact hI.began k t q (hother w rfl hk ht) hs
    · by_cases hk : k = j
      · subst hk
        rw [hown w rfl ht]
        exact ⟨(hI.agreed k _ x hj hx).1, fun q hq => (by cases hq), fun hu => (by cases hu)⟩
      · exact hI.agreed k t x (hother w rfl hk ht) hx
    · by_cases hk : k = j
      · subst hk
        rw [hown w rfl ht] at hx ⊢
        exact hI.present k ⟨rt, .began r⟩ x hj hx
      · exact hI.present k t x (hother w rfl hk ht) hx
  | false =>
    rw [World.step_began hj]
    have hattempts : ∀ k x, (World.setAttemptLinks w.db.graph j r now).attempts.get? k = some x →
        ∃ x₀, w.db.graph.attempts.get? k = some x₀ ∧ x.taskId = x₀.taskId ∧
          x.runId = if k = j then some r else x₀.runId := by
      intro k x hx
      rw [World.setAttemptLinks, Table.get?_updateAt] at hx
      split at hx
      · rename_i hk
        obtain ⟨x₀, hx₀, rfl⟩ := Option.map_eq_some_iff.1 hx
        exact ⟨x₀, hx₀, rfl, by rw [if_pos hk]⟩
      · rename_i hk
        exact ⟨x, hx, rfl, by rw [if_neg hk]⟩
    refine ⟨fun k t q ht hs => ?_, fun k x q hx hq => ?_, fun k x hx => ?_, fun k t x ht hx => ?_,
      fun k t x ht hx => ?_⟩
    · by_cases hk : k = j
      · subst hk; rw [hown _ rfl ht] at hs; cases hs
      · exact hI.began k t q (hother _ rfl hk ht) hs
    · obtain ⟨x₀, hx₀, -, hr⟩ := hattempts k x hx
      by_cases hk : k = j
      · rw [if_pos hk, hq] at hr
        cases hr
        exact hb
      · rw [if_neg hk, hq] at hr
        exact hI.linked k x₀ q hx₀ hr.symm
    · obtain ⟨x₀, hx₀, hi, -⟩ := hattempts k x hx
      rw [hi]
      exact hI.placed k x₀ hx₀
    · obtain ⟨x₀, hx₀, hi, hr⟩ := hattempts k x hx
      by_cases hk : k = j
      · subst hk
        rw [hown _ rfl ht]
        rw [if_pos rfl] at hr
        exact ⟨hi.trans (hI.agreed k _ x₀ hj hx₀).1, fun q hq => hr.trans hq, fun hu => (by cases hu)⟩
      · rw [if_neg hk] at hr
        rw [hi, hr]
        exact hI.agreed k t x₀ (hother _ rfl hk ht) hx₀
    · have hsome : ∀ k, (w.db.graph.attempts.get? k).isSome →
          ((World.setAttemptLinks w.db.graph j r now).attempts.get? k).isSome := by
        intro k hk
        rw [World.setAttemptLinks, Table.get?_updateAt]
        split
        · rw [Option.isSome_map]; exact hk
        · exact hk
      by_cases hk : k = j
      · subst hk
        rw [hown _ rfl ht] at hx ⊢
        obtain ⟨h₁, h₂, h₃⟩ := hI.present k ⟨rt, .began r⟩ x hj hx
        exact ⟨h₁, h₂, hsome k h₃⟩
      · obtain ⟨h₁, h₂, h₃⟩ := hI.present k t x (hother _ rfl hk ht) hx
        exact ⟨h₁, h₂, hsome k h₃⟩

theorem LinkInv.step (hI : LinkInv w) (h : History) (config : Config) (a : Action) :
    LinkInv (w.step h config a) := by
  by_cases ha : NoLink w a
  · exact hI.step_quiet h config ha
  · simp only [NoLink, not_forall, not_not] at ha
    obtain ⟨j, now, pid, fault, rt, r, rfl, hj⟩ := ha
    exact hI.step_link h config hj

theorem linkInv_reachable {ok : Action → World → Prop}
    (hw : (machine h config).Reachable ok w) : LinkInv w := by
  refine Schemes.Machine.invariant (m := machine h config) (I := fun w => LinkInv w) (fun s hs => ?_)
    (fun a s _ _ hI => hI.step h config a) hw
  obtain ⟨projects, -, rfl⟩ := hs
  exact ⟨fun _ _ _ ht => (by cases ht), fun _ _ _ hx => (by cases hx), fun _ _ hx => (by cases hx),
    fun _ _ _ ht => (by cases ht), fun _ _ _ ht => (by cases ht)⟩

/-! ### The runs of a plan -/

/-- A run linked to a plan was linked to it before, or its thread has just linked it. -/
theorem linkedRuns_origin (hI : LinkInv w) {p : PlanId}
    (hr : r ∈ (w.step h config a).db.graph.linkedRuns p) : r ∈ w.db.graph.linkedRuns p ∨
      ∃ j now pid rt, a = .thread j now pid false ∧
        w.daemon.threads.get? j = some ⟨rt, .began r⟩ ∧ rt.planId = p := by
  obtain ⟨j, x', t', hx', ht', hp, hxr⟩ := Graph.mem_linkedRuns.1 hr
  by_cases ha : NoLink w a
  · have hrows := LinkRows.of_step (graph_step h config w a) ha
    rcases hrows.attempt j x' hx' with ⟨x, hx, hk⟩ | ⟨hn, -⟩
    · rcases hrows.task _ t' ht' with ⟨t, ht, htp, -⟩ | ⟨hn, -⟩
      · rw [hk.1] at ht
        exact .inl (Graph.mem_linkedRuns.2 ⟨j, x, t, hx, ht, htp.symm.trans hp, hk.2 ▸ hxr⟩)
      · have := hI.placed j x hx
        rw [← hk.1, hn] at this
        cases this
    · rw [hn] at hxr; cases hxr
  · simp only [NoLink, not_forall, not_not] at ha
    obtain ⟨k, now, pid, fault, rt, q, rfl, hk⟩ := ha
    cases fault with
    | true => rw [World.step_began_fault hk] at hr; exact .inl hr
    | false =>
      rw [World.step_began hk] at hx' ht'
      change (World.setAttemptLinks w.db.graph k q now).attempts.get? j = some x' at hx'
      change w.db.graph.tasks.get? x'.taskId = some t' at ht'
      rw [World.setAttemptLinks, Table.get?_updateAt] at hx'
      split at hx'
      · rename_i hjk
        subst hjk
        obtain ⟨x, hx, rfl⟩ := Option.map_eq_some_iff.1 hx'
        cases hxr
        have htask := (hI.agreed j _ x hk hx).1
        rw [show (⟨rt, .began r⟩ : Thread).task.taskId = rt.taskId from rfl] at htask
        refine .inr ⟨j, now, pid, rt, rfl, hk, ?_⟩
        rw [← hp]
        exact ((hI.present j _ t' hk (by rw [← htask]; exact ht')).1).symm
      · exact .inl (Graph.mem_linkedRuns.2 ⟨j, x', t', hx', ht', hp, hxr⟩)

/-- A linked run has been begun. -/
theorem LinkInv.begun (hI : LinkInv w) {p : PlanId} (hr : r ∈ w.db.graph.linkedRuns p) :
    w.Begun r := by
  obtain ⟨j, x, t, hx, -, -, hxr⟩ := Graph.mem_linkedRuns.1 hr
  exact hI.linked j x r hx hxr

end HermesOps
