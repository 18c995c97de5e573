import HermesOps.Model.DaemonLoop
import HermesOps.Properties.ParallelLimits
import HermesOps.Properties.Scenario

/-! The global limits of the daemon: `global_parallel_objectives` over the active objectives and
    `global_parallel_tasks` over the running tasks. A reservation counts the active objectives in
    its own transaction and a promotion is preceded by a count; a command that makes an idle
    objective active counts nothing. The capacity of a sweep is what the futures leave, and a
    running task whose future is gone is not among them. The limits hold along every run in which
    each such command finds a free slot and each submitted batch leaves room for those tasks. -/

namespace HermesOps

open Schemes

variable {h : History} {config : DaemonConfig}

/-! ### The condition on a step -/

/-- The command of an operator in an action. -/
def Action.command : Action → Option (ObjectiveId × ObjectiveCommand)
  | .objective (.cli id c _) | .objective (.controller id c _) => some (id, c)
  | _ => none

/-- The command makes an idle objective active. -/
def ObjectiveCommand.activates (d : Database) (id : ObjectiveId) (c : ObjectiveCommand) : Bool :=
  match d.queue.objectives.get? id, c with
  | none, _ => false
  | some o, .pause => o.status = .queued ∧ runningTaskCount d.graph o.planId ≠ 0
  | some o, .resume => o.status = .paused ∧ d.graph.planStatus o.planId = some .blocked
  | some o, .cancel => (o.status = .queued ∨ o.status = .paused) ∧
      integrationPointOfNoReturn d o.planId = false ∧
      (runningTaskCount d.graph o.planId ≠ 0 ∨ activeRunCount d o.planId ≠ 0)

/-- The main thread has counted a free slot and not filled it yet. -/
def LoopStage.holdsSlot : LoopStage → Bool
  | .choosing | .promoting _ => true
  | _ => false

/-- The active objectives, with the slot the main thread is about to fill. -/
def Orchestrator.takenSlots (s : Orchestrator) : Nat :=
  activeObjectiveCount s.world.db.queue + if s.stage.holdsSlot then 1 else 0

/-- The future's call made the reservation of its task. -/
def Future.reserves (f : Future) : Bool :=
  match f.call with
  | .reserved _ => true
  | _ => false

/-- The running tasks that none of the futures reserved. -/
def Orchestrator.forgottenTasks (s : Orchestrator) : Nat :=
  s.world.db.graph.tasks.count fun i t =>
    t.status = .running ∧ ¬s.futures.any fun f => f.taskId = i && f.reserves

/-- A command that makes an objective active finds a free slot; a submitted batch leaves room for the
    running tasks whose future is gone. -/
def Orchestrator.hasRoom (config : DaemonConfig) (a : DaemonAction) (s : Orchestrator) : Bool :=
  match a with
  | .outside a =>
    match a.command with
    | some (id, c) =>
      ¬c.activates s.world.db id ∨ s.takenSlots < config.globalParallelObjectives
    | none => true
  | .main _ _ false healthy =>
    s.stage ≠ .submitting ∨ s.batch config healthy = [] ∨
      s.forgottenTasks + s.futures.length + (s.batch config healthy).length ≤
        config.globalParallelTasks
  | _ => true

/-! ### The daemon acts on the world -/

theorem Orchestrator.startStep_world (s : Orchestrator) : s.startStep.world = s.world := by
  unfold startStep
  split <;> rfl

/-- A step of the daemon is one action on the world or none. -/
theorem Orchestrator.step_world (a : DaemonAction) (s : Orchestrator) :
    (s.step h config a).world =
      match s.worldAction a with
      | some b => s.world.step h config.toConfig b
      | none => s.world := by
  cases a with
  | outside a =>
    simp only [step, worldAction]
    cases a.isDaemon <;> rfl
  | start => exact s.startStep_world
  | stop =>
    simp only [step, worldAction]
    split <;> rfl
  | crash => rfl
  | call index attemptId now =>
    simp only [step, callStep, worldAction]
    split <;> rfl
  | main now fresh fault healthy =>
    cases fault with
    | true => rfl
    | false =>
      simp only [step, mainStep, worldAction, Bool.false_eq_true, if_false]
      cases s.stage with
      | cleanup =>
        simp only
        split <;> rfl
      | choosing =>
        simp only
        split
        · rfl
        · split <;> rfl
      | reserving id =>
        simp only
        split <;> rfl
      | promoting id =>
        simp only
        cases promotePlannedObjective s.world.db id now with
        | none => rfl
        | some x => rfl
      | refreshingPlans rest => cases rest <;> rfl
      | _ => rfl

/-- The world inside a reachable daemon is a reachable world. -/
theorem Orchestrator.world_reachable {ok : DaemonAction → Orchestrator → Prop} {s : Orchestrator}
    (hs : (daemonMachine h config).Reachable ok s) :
    (machine h config.toConfig).Reachable (fun _ _ => True) s.world := by
  induction hs with
  | start h0 =>
    obtain ⟨w, hw, rfl⟩ := h0
    exact .start hw
  | @step s a _ _ ih =>
    rw [show ((daemonMachine h config).step a s).world = _ from step_world a s]
    cases s.worldAction a with
    | none => exact ih
    | some b => exact .step b ih trivial

/-! ### Active objectives -/

section Active

variable {w : World} {id : ObjectiveId} {o o' : Objective} {a : Action}

theorem synchronizedStatus_active {d : Database} {row : SweepRow} {new : ObjectiveStatus}
    {e : Option String} (hs : synchronizedStatus d row = some (new, e)) : new.isActive = false := by
  simp only [synchronizedStatus] at hs
  split at hs
  · split at hs <;> cases hs
    rfl
  · split at hs
    · cases hs
      rfl
    · split at hs <;> cases hs <;> rfl

theorem resumedStatus_active {p : Option PlanStatus}
    (hact : (resumedStatusForPlan p).isActive = true) : p = some .blocked := by
  rcases p with - | p
  · cases hact
  · cases p <;> first | rfl | cases hact

/-- An idle objective that is not terminal is queued or paused. -/
theorem ObjectiveStatus.idle_cases {s : ObjectiveStatus} (hidle : s.isActive = false)
    (hterm : s.isTerminal = false) : s = .queued ∨ s = .paused := by
  cases s <;> simp_all [isActive, isTerminal]

/-- The actions that can make an idle objective active. -/
inductive Activation (w : World) (id : ObjectiveId) : Action → Prop
  | command {a c} : a.command = some (id, c) → c.activates w.db id = true → Activation w id a
  | promote {now} : Activation w id (.objective (.promote id now))
  | reserve {i now} : Activation w id (.objective (.reserve id i now))

/-- An action is about one objective. -/
theorem Activation.unique {j : ObjectiveId} (hi : Activation w id a) (hj : Activation w j a) :
    j = id := by
  cases hi with
  | command hc _ =>
    cases hj with
    | command hc' _ =>
      rw [hc] at hc'
      cases hc'
      rfl
    | promote | reserve => cases hc
  | promote | reserve =>
    cases hj with
    | command hc _ => cases hc
    | _ => rfl

theorem Action.command_of_isCommandOn {c : ObjectiveCommand} (ha : a.isCommandOn id c = true) :
    a.command = some (id, c) := by
  unfold isCommandOn at ha
  split at ha
  · obtain ⟨rfl, rfl⟩ := of_decide_eq_true ha
    rfl
  · obtain ⟨rfl, rfl⟩ := of_decide_eq_true ha
    rfl
  · cases ha

/-- What makes a row active: a command, a promotion or a reservation. -/
theorem ObjectiveMove.activated (hm : ObjectiveMove w id o a o')
    (ho : w.db.queue.objectives.get? id = some o) (hidle : o.status.isActive = false)
    (hact : o'.status.isActive = true) : Activation w id a := by
  cases hm with
  | kept hs _ | unlinked hs _ _ _ _ => rw [hs, hidle] at hact; cases hact
  | paused ha _ hreq hterm hpaused hs =>
    refine .command (Action.command_of_isCommandOn ha) ?_
    have hq : o.status = .queued := (ObjectiveStatus.idle_cases hidle hterm).resolve_right hpaused
    have hrun : runningTaskCount w.db.graph o.planId ≠ 0 := by
      intro h0
      rw [hs, if_neg (by simp [hq, h0])] at hact
      cases hact
    simp [ObjectiveCommand.activates, ho, hq, hrun]
  | resumed ha _ hpaused _ hs =>
    refine .command (Action.command_of_isCommandOn ha) ?_
    rw [hs] at hact
    simp [ObjectiveCommand.activates, ho, hpaused, resumedStatus_active hact]
  | cancelled ha _ hterm hpoint hs =>
    refine .command (Action.command_of_isCommandOn ha) ?_
    have hq := ObjectiveStatus.idle_cases hidle hterm
    have hwork : runningTaskCount w.db.graph o.planId ≠ 0 ∨ activeRunCount w.db o.planId ≠ 0 := by
      by_contra hnone
      have hplanning : o.status ≠ .planning := by rcases hq with hq | hq <;> simp [hq]
      rw [hs, cancelledStatus, if_neg (not_or.2 ⟨hplanning, hnone⟩)] at hact
      cases hact
    simp only [ObjectiveCommand.activates, ho, decide_eq_true_eq]
    exact ⟨hq, hpoint, hwork⟩
  | swept _ _ hs => rw [synchronizedStatus_active hs] at hact; cases hact
  | promoted => exact .promote
  | exhausted _ _ _ hs => rw [hs] at hact; cases hact
  | reserved => exact .reserve
  | planned _ hs =>
    cases hst : o.status <;> rw [hst] at hs hidle <;> cases hidle <;> cases hs
  | failed _ _ hs =>
    rw [hs, Objective.statusAfterPlanningFailure] at hact
    split at hact
    · cases hact
    · split at hact
      · cases hact
      · split at hact <;> cases hact
  | restarted _ _ hplanning _ => rw [hplanning] at hidle; cases hidle

/-- The active objectives become no more, or the one that the action is about joins them. -/
theorem active_cases (h : History) (config : Config) (w : World) (a : Action) :
    activeObjectiveCount (w.step h config a).db.queue ≤ activeObjectiveCount w.db.queue ∨
      ((∃ id, Activation w id a) ∧
        activeObjectiveCount (w.step h config a).db.queue ≤ activeObjectiveCount w.db.queue + 1) := by
  have back : ∀ k o', (w.step h config a).db.queue.objectives.get? k = some o' →
      o'.status.isActive = true → Activation w k a ∨
        ∃ o, w.db.queue.objectives.get? k = some o ∧ o.status.isActive = true := by
    intro k o' ho' hact
    cases ho : w.db.queue.objectives.get? k with
    | none =>
      obtain ⟨s, now, rfl, -⟩ := objective_new h config w a ho ho'
      cases hact
    | some o =>
      obtain ⟨x, hx, hm⟩ := objective_move h config w a ho
      obtain rfl : o' = x := by rw [ho'] at hx; simpa using hx
      cases hidle : o.status.isActive with
      | true => exact .inr ⟨o, rfl, hidle⟩
      | false => exact .inl (hm.activated ho hidle hact)
  by_cases hnew : ∃ id, Activation w id a
  · obtain ⟨id, hid⟩ := hnew
    refine .inr ⟨⟨id, hid⟩, Table.count_le_succ id fun k o' ho' hact => ?_⟩
    exact (back k o' ho' hact).imp_left fun hk => hid.unique hk
  · refine .inl (Table.count_le fun k o' ho' hact => ?_)
    exact (back k o' ho' hact).resolve_left fun hk => hnew ⟨k, hk⟩

/-- A reservation that finds no free slot changes nothing. -/
theorem reserve_full {h : History} {config : Config} {id : ObjectiveId} {i : ObjectiveAttemptId}
    {now : Time} (hfull : config.globalParallelObjectives ≤ activeObjectiveCount w.db.queue) :
    w.step h config (.objective (.reserve id i now)) = w := by
  simp only [World.step, World.objectiveStep, reserveAiObjective, if_pos hfull]
  split <;> rfl

end Active

/-! ### Running tasks -/

/-- The running tasks of all plans. -/
def Graph.runningCount (g : Graph) : Nat := g.tasks.count fun _ t => t.status = .running

/-- A task runs after a step because it ran before or because the step reserved it. -/
theorem running_back (h : History) (config : Config) (w : World) (a : Action) {k : TaskId}
    {t' : Task} (ht' : (w.step h config a).db.graph.tasks.get? k = some t')
    (hr : t'.status = .running) :
    (∃ j now, a = .graph (.reserve k j now)) ∨
      ∃ t, w.db.graph.tasks.get? k = some t ∧ t.status = .running := by
  have moved : Table.Related (fun i t => TaskMove w i t a) w.db.graph.tasks
      (w.step h config a).db.graph.tasks → (∃ j now, a = .graph (.reserve k j now)) ∨
        ∃ t, w.db.graph.tasks.get? k = some t ∧ t.status = .running := by
    intro hrel
    obtain ⟨t, ht, hm⟩ := hrel.back ht'
    exact (hm.running hr).symm.imp And.left fun hr => ⟨t, ht, hr⟩
  have drawn : ∀ {p}, PlanDrawn w (w.step h config a).db.graph p →
      ∃ t, w.db.graph.tasks.get? k = some t ∧ t.status = .running := by
    intro p hd
    rcases hd.tasks k with hk | ⟨-, t, ht, -, hs, -⟩
    · exact ⟨t', hk ▸ ht', hr⟩
    · rw [ht] at ht'
      cases ht'
      rw [hs] at hr
      cases hr
  cases graph_step h config w a with
  | moved hg => exact moved hg.tasks
  | reserved ha hres _ =>
    have hrel := reserve_tasks hres
    rw [← ha] at hrel
    exact moved hrel
  | inserted hd => exact .inr (drawn hd)
  | imported hd => exact .inr (drawn hd)
  | deleted _ _ hd =>
    rw [hd.tasks, Option.filter_eq_some_iff] at ht'
    exact .inr ⟨t', ht'.1, hr⟩

/-- The running tasks become no more, or the reserved one joins them. -/
theorem runningCount_step (h : History) (config : Config) (w : World) (a : Action) :
    (w.step h config a).db.graph.runningCount ≤ w.db.graph.runningCount ∨
      ((∃ i j now, a = .graph (.reserve i j now)) ∧
        (w.step h config a).db.graph.runningCount ≤ w.db.graph.runningCount + 1) := by
  by_cases hres : ∃ i j now, a = .graph (.reserve i j now)
  · obtain ⟨i, j, now, rfl⟩ := hres
    refine .inr ⟨⟨i, j, now, rfl⟩, Table.count_le_succ i fun k t' ht' hr => ?_⟩
    rcases running_back h config w _ ht' (of_decide_eq_true hr) with ⟨j', now', ha⟩ | ⟨t, ht, hr⟩
    · cases ha
      exact .inl rfl
    · exact .inr ⟨t, ht, decide_eq_true hr⟩
  · refine .inl (Table.count_le fun k t' ht' hr => ?_)
    rcases running_back h config w a ht' (of_decide_eq_true hr) with ⟨j, now, ha⟩ | ⟨t, ht, hr⟩
    · exact absurd ⟨k, j, now, ha⟩ hres
    · exact ⟨t, ht, decide_eq_true hr⟩

/-- A reservation that adds no thread leaves the world as it is. -/
theorem reserve_refused (h : History) (config : Config) (w : World) {i : TaskId} {j : AttemptId}
    {now : Time} (hj : ¬((w.daemon.threads.get? j).isNone ∧
      ((w.step h config (.graph (.reserve i j now))).daemon.threads.get? j).isSome)) :
    w.step h config (.graph (.reserve i j now)) = w := by
  simp only [World.step, World.graphStep] at hj ⊢
  cases hr : reserveAttempt w.db i j now with
  | error e => rfl
  | ok x =>
    simp only [hr] at hj ⊢
    cases hins : w.daemon.threads.insert j
        ⟨⟨i, x.2.planId, x.2.kind, x.2.projectId, x.2.taskKey, j⟩, .reserved⟩ with
    | none => rfl
    | some threads =>
      simp only [hins] at hj
      refine absurd ⟨?_, ?_⟩ hj
      · rw [Table.get?_of_insert hins]
        rfl
      · simp only [Table.get?_insert hins, if_true, Option.isSome_some]

/-! ### The futures -/

/-- The submitted calls that have not made their reservation yet. -/
def Orchestrator.waitingCalls (s : Orchestrator) : Nat :=
  s.futures.countP fun f => f.call = .waiting

/-- A running task is forgotten or the task of a call that reserved it; such a call waits no more. -/
theorem Orchestrator.running_le (s : Orchestrator) :
    s.world.db.graph.runningCount + s.waitingCalls ≤ s.forgottenTasks + s.futures.length := by
  have hrun : s.world.db.graph.runningCount ≤
      ((s.futures.filter Future.reserves).map Future.taskId).length + s.forgottenTasks := by
    refine Table.count_le_add _ fun i t ht hr => ?_
    by_cases hheld : s.futures.any (fun f => f.taskId = i && f.reserves) = true
    · obtain ⟨f, hf, hi⟩ := List.any_eq_true.1 hheld
      rw [Bool.and_eq_true, decide_eq_true_eq] at hi
      exact .inl (List.mem_map.2 ⟨f, List.mem_filter.2 ⟨hf, hi.2⟩, hi.1⟩)
    · exact .inr ⟨t, ht, decide_eq_true ⟨of_decide_eq_true hr, hheld⟩⟩
  have hsplit := s.futures.length_eq_countP_add_countP Future.reserves
  have hwait : s.waitingCalls ≤ s.futures.countP fun f => ¬f.reserves := by
    refine List.countP_mono_left fun f _ hf => ?_
    simp only [decide_eq_true_eq] at hf ⊢
    simp [Future.reserves, hf]
  rw [List.length_map, ← List.countP_eq_length_filter] at hrun
  omega

/-- A call that is answered waits no more. -/
theorem waiting_set {futures : List Future} {i : Nat} {taskId : TaskId} {call : Call}
    (hi : futures[i]? = some ⟨taskId, .waiting⟩) (hcall : call ≠ .waiting) :
    (futures.set i ⟨taskId, call⟩).countP (fun f => f.call = .waiting) + 1 =
      futures.countP fun f => f.call = .waiting := by
  obtain ⟨hlt, hget⟩ := List.getElem?_eq_some_iff.1 hi
  have hpos : 0 < futures.countP fun f => f.call = .waiting :=
    List.countP_pos_iff.2 ⟨_, List.getElem_mem hlt, by rw [hget]; rfl⟩
  rw [List.countP_set hlt, hget]
  simp only [hcall, decide_true, decide_false, if_true, Bool.false_eq_true, if_false]
  omega

/-! ### The invariant -/

/-- The slots in use and the tasks that run or are about to stay within the limits. -/
structure GlobalLimits (config : DaemonConfig) (s : Orchestrator) : Prop where
  slots : s.takenSlots ≤ config.globalParallelObjectives
  tasks : s.world.db.graph.runningCount + s.waitingCalls ≤ config.globalParallelTasks

section Step

variable {s : Orchestrator}

theorem active_le_takenSlots : activeObjectiveCount s.world.db.queue ≤ s.takenSlots :=
  Nat.le_add_right _ _

theorem takenSlots_of_free (hs : s.stage.holdsSlot = false) :
    s.takenSlots = activeObjectiveCount s.world.db.queue := by
  simp [Orchestrator.takenSlots, hs]

theorem takenSlots_of_held (hs : s.stage.holdsSlot = true) :
    s.takenSlots = activeObjectiveCount s.world.db.queue + 1 := by
  simp [Orchestrator.takenSlots, hs]

/-- An action that activates no objective leaves no more slots in use, once none is held. -/
theorem slots_act {a : Action} {next : LoopStage} (ha : ∀ id, ¬Activation s.world id a)
    (hnext : next.holdsSlot = false)
    (hI : s.takenSlots ≤ config.globalParallelObjectives) :
    (s.act h config a next).takenSlots ≤ config.globalParallelObjectives := by
  rw [takenSlots_of_free hnext]
  have hle := active_le_takenSlots (s := s)
  rcases active_cases h config.toConfig s.world a with hcount | ⟨⟨id, hid⟩, -⟩
  · exact hcount.trans (hle.trans hI)
  · exact absurd hid (ha id)

/-- The main thread keeps the slots within the limit. -/
theorem slots_mainStep (now : Time) (fresh : Nat) (healthy : Bool)
    (hI : s.takenSlots ≤ config.globalParallelObjectives) :
    (s.mainStep h config now fresh healthy).takenSlots ≤ config.globalParallelObjectives := by
  have hle := active_le_takenSlots (s := s)
  have free : ∀ s' : Orchestrator, s'.world = s.world → s'.stage.holdsSlot = false →
      s'.takenSlots ≤ config.globalParallelObjectives := by
    intro s' hw hs
    rw [takenSlots_of_free hs, hw]
    exact hle.trans hI
  unfold Orchestrator.mainStep
  cases hst : s.stage with
  | stopped | stopping => exact hI
  | reconcilingTasks | reconcilingObjectives | cleaning | synchronizing | refreshing planId =>
    exact slots_act (fun id hid => by cases hid; contradiction) rfl hI
  | cleanup =>
    simp only
    split
    · exact free _ rfl rfl
    · exact slots_act (fun id hid => by cases hid; contradiction) rfl hI
  | collectingPlanners | listing | collecting | submitting => exact free _ rfl rfl
  | refreshingPlans rest =>
    cases rest with
    | nil => exact free _ rfl rfl
    | cons planId rest => exact slots_act (fun id hid => by cases hid; contradiction) rfl hI
  | counting =>
    simp only
    split
    · rename_i hroom
      rw [takenSlots_of_held rfl]
      exact hroom
    · exact free _ rfl rfl
  | choosing =>
    have hheld : activeObjectiveCount s.world.db.queue + 1 ≤ config.globalParallelObjectives := by
      rw [← takenSlots_of_held (s := s) (by rw [hst]; rfl)]
      exact hI
    simp only
    split
    · exact free _ rfl rfl
    · split
      · refine free _ rfl ?_
        simp only
        split <;> rfl
      · rw [takenSlots_of_held rfl]
        exact hheld
  | reserving id =>
    have hcount : activeObjectiveCount (s.world.step h config.toConfig
        (.objective (.reserve id fresh now))).db.queue ≤ config.globalParallelObjectives := by
      by_cases hfull : config.globalParallelObjectives ≤ activeObjectiveCount s.world.db.queue
      · rw [reserve_full hfull]
        exact hle.trans hI
      · rcases active_cases h config.toConfig s.world (.objective (.reserve id fresh now)) with
          hcount | ⟨-, hcount⟩ <;> omega
    simp only
    split
    · rw [takenSlots_of_free rfl]
      exact hcount
    · rw [takenSlots_of_free rfl]
      exact hcount
  | promoting id =>
    have hheld : activeObjectiveCount s.world.db.queue + 1 ≤ config.globalParallelObjectives := by
      rw [← takenSlots_of_held (s := s) (by rw [hst]; rfl)]
      exact hI
    simp only
    split
    · exact free _ rfl rfl
    · rw [takenSlots_of_free rfl]
      rcases active_cases h config.toConfig s.world (.objective (.promote id now)) with
        hcount | ⟨-, hcount⟩
      · exact hcount.trans (hle.trans hI)
      · exact hcount.trans hheld

/-- A step that finds room keeps the slots within the limit. -/
theorem slots_step {a : DaemonAction} (hroom : s.hasRoom config a = true)
    (hI : s.takenSlots ≤ config.globalParallelObjectives) :
    (s.step h config a).takenSlots ≤ config.globalParallelObjectives := by
  have hle := active_le_takenSlots (s := s)
  cases a with
  | outside a =>
    simp only [Orchestrator.step]
    cases hd : a.isDaemon with
    | true => exact hI
    | false =>
      simp only [Bool.false_eq_true, if_false]
      have hgrow : ∀ n, activeObjectiveCount (s.world.step h config.toConfig a).db.queue ≤
          activeObjectiveCount s.world.db.queue + n →
          s.takenSlots + n ≤ config.globalParallelObjectives →
          ({ s with world := s.world.step h config.toConfig a } : Orchestrator).takenSlots ≤
            config.globalParallelObjectives := by
        intro n hn hfit
        simp only [Orchestrator.takenSlots] at hfit ⊢
        omega
      rcases active_cases h config.toConfig s.world a with hcount | ⟨⟨id, hid⟩, hcount⟩
      · exact hgrow 0 hcount hI
      · refine hgrow 1 hcount ?_
        cases hid with
        | command hc hact =>
          simp only [Orchestrator.hasRoom, hc, hact, not_true, false_or, decide_eq_true_eq] at hroom
          exact hroom
        | promote | reserve => cases hd
  | start =>
    simp only [Orchestrator.step, Orchestrator.startStep]
    split
    · rw [takenSlots_of_free rfl]
      exact hle.trans hI
    · exact hI
  | main now fresh fault healthy =>
    cases fault with
    | true =>
      have hfree : (s.step h config (.main now fresh true healthy)).stage.holdsSlot = false := by
        simp only [Orchestrator.step, if_true]
        split <;> rfl
      rw [takenSlots_of_free hfree]
      exact hle.trans hI
    | false => exact slots_mainStep now fresh healthy hI
  | call index attemptId now =>
    simp only [Orchestrator.step, Orchestrator.callStep]
    split
    · rename_i taskId _
      rcases active_cases h config.toConfig s.world (.graph (.reserve taskId attemptId now)) with
        hcount | ⟨⟨id, hid⟩, -⟩
      · simp only [Orchestrator.takenSlots] at hI ⊢
        omega
      · cases hid
        contradiction
    · exact hI
  | stop =>
    simp only [Orchestrator.step]
    split
    · rw [takenSlots_of_free rfl]
      exact hle.trans hI
    · exact hI
  | crash => exact hle.trans hI

/-- An action other than a reservation adds no running task. -/
theorem running_act {w : World} {a : Action} (ha : ∀ i j now, a ≠ .graph (.reserve i j now)) :
    (w.step h config.toConfig a).db.graph.runningCount ≤ w.db.graph.runningCount :=
  (runningCount_step h config.toConfig w a).resolve_right fun ⟨⟨i, j, now, hres⟩, _⟩ =>
    ha i j now hres

/-- Only the executor's calls start tasks. -/
theorem worldAction_ne_reserve {a : DaemonAction} {b : Action} (hb : s.worldAction a = some b)
    (hcall : ∀ index attemptId now, a ≠ .call index attemptId now) (i : TaskId) (j : AttemptId)
    (now : Time) : b ≠ .graph (.reserve i j now) := by
  rintro rfl
  cases a with
  | outside a =>
    simp only [Orchestrator.worldAction] at hb
    split at hb
    · cases hb
    · rename_i hd
      cases hb
      exact hd rfl
  | call index attemptId now => exact hcall _ _ _ rfl
  | main now fresh fault healthy =>
    cases fault with
    | true => cases hb
    | false =>
      simp only [Orchestrator.worldAction] at hb
      split at hb <;> first | cases hb | (split at hb <;> cases hb)
  | start | stop | crash => cases hb

variable (h config s) in
theorem running_step {a : DaemonAction}
    (hcall : ∀ index attemptId now, a ≠ .call index attemptId now) :
    (s.step h config a).world.db.graph.runningCount ≤ s.world.db.graph.runningCount := by
  rw [Orchestrator.step_world]
  cases hb : s.worldAction a with
  | none => exact Nat.le_refl _
  | some b => exact running_act (worldAction_ne_reserve hb hcall)

variable (h config s) in
/-- The main thread adds waiting calls when it submits, and then the batch. -/
theorem waiting_mainStep (now : Time) (fresh : Nat) (healthy : Bool) :
    (s.mainStep h config now fresh healthy).waitingCalls ≤ s.waitingCalls ∨
      (s.stage = .submitting ∧ (s.mainStep h config now fresh healthy).waitingCalls =
        s.waitingCalls + (s.batch config healthy).length) := by
  have same : ∀ s' : Orchestrator, s'.futures = s.futures → s'.waitingCalls ≤ s.waitingCalls := by
    intro s' hs
    simp only [Orchestrator.waitingCalls, hs, Nat.le_refl]
  unfold Orchestrator.mainStep
  cases hst : s.stage with
  | collecting => exact .inl (List.filter_sublist.countP_le)
  | submitting =>
    refine .inr ⟨rfl, ?_⟩
    simp [Orchestrator.waitingCalls, List.countP_append, List.countP_map, Function.comp_def]
  | cleanup =>
    refine .inl (same _ ?_)
    simp only
    split <;> rfl
  | choosing =>
    refine .inl (same _ ?_)
    simp only
    split
    · rfl
    · split <;> rfl
  | reserving id =>
    refine .inl (same _ ?_)
    simp only
    split <;> rfl
  | promoting id =>
    refine .inl (same _ ?_)
    simp only
    split <;> rfl
  | refreshingPlans rest =>
    refine .inl (same _ ?_)
    cases rest <;> rfl
  | _ => exact .inl (same _ rfl)

/-- A step that finds room keeps the running and the waiting tasks within the limit. -/
theorem tasks_step {a : DaemonAction} (hroom : s.hasRoom config a = true)
    (hI : s.world.db.graph.runningCount + s.waitingCalls ≤ config.globalParallelTasks) :
    (s.step h config a).world.db.graph.runningCount + (s.step h config a).waitingCalls ≤
      config.globalParallelTasks := by
  have shrink : (∀ index attemptId now, a ≠ .call index attemptId now) →
      (s.step h config a).waitingCalls ≤ s.waitingCalls →
      (s.step h config a).world.db.graph.runningCount + (s.step h config a).waitingCalls ≤
        config.globalParallelTasks := by
    intro hcall hwait
    have hrun := running_step h config s hcall
    omega
  cases a with
  | outside a =>
    refine shrink (by simp) ?_
    simp only [Orchestrator.step]
    split <;> exact Nat.le_refl _
  | start =>
    refine shrink (by simp) ?_
    simp only [Orchestrator.step, Orchestrator.startStep]
    split
    · exact Nat.zero_le _
    · exact Nat.le_refl _
  | stop =>
    refine shrink (by simp) ?_
    simp only [Orchestrator.step]
    split <;> exact Nat.le_refl _
  | crash => exact shrink (by simp) (Nat.zero_le _)
  | main now fresh fault healthy =>
    cases fault with
    | true => exact shrink (by simp) (Nat.le_refl _)
    | false =>
      rcases waiting_mainStep h config s now fresh healthy with
        hwait | ⟨hst, hwait⟩
      · exact shrink (by simp) hwait
      · have hrun := running_step h config s (a := .main now fresh false healthy) (by simp)
        have hle := s.running_le
        change _ + (s.mainStep h config now fresh healthy).waitingCalls ≤ _
        rw [hwait]
        simp only [Orchestrator.hasRoom, hst, ne_eq, not_true, false_or, decide_eq_true_eq] at hroom
        rcases hroom with hnone | hfit
        · rw [hnone, List.length_nil]
          omega
        · omega
  | call index attemptId now =>
    simp only [Orchestrator.step, Orchestrator.callStep]
    split
    · rename_i taskId hf
      have hset : ∀ call, call ≠ Call.waiting →
          (s.futures.set index ⟨taskId, call⟩).countP (fun f => f.call = .waiting) + 1 =
            s.waitingCalls := fun call hcall => waiting_set hf hcall
      simp only [Orchestrator.waitingCalls]
      split
      · have hone := hset (.reserved attemptId) (by simp)
        rcases runningCount_step h config.toConfig s.world
          (.graph (.reserve taskId attemptId now)) with hrun | ⟨-, hrun⟩ <;> omega
      · rename_i hrefused
        have hone := hset .refused (by simp)
        rw [reserve_refused h config.toConfig s.world hrefused]
        omega
    · exact hI

theorem GlobalLimits.step {a : DaemonAction} (hroom : s.hasRoom config a = true)
    (hI : GlobalLimits config s) : GlobalLimits config (s.step h config a) :=
  ⟨slots_step hroom hI.slots, tasks_step hroom hI.tasks⟩

end Step

theorem globalLimits_reachable {s : Orchestrator}
    (hs : (daemonMachine h config).Reachable (fun a s => s.hasRoom config a = true) s) :
    GlobalLimits config s := by
  refine Schemes.Machine.invariant (fun s h0 => ?_) (fun a s _ hroom hI => hI.step hroom) hs
  obtain ⟨w, ⟨projects, -, rfl⟩, rfl⟩ := h0
  exact ⟨Nat.zero_le _, Nat.zero_le _⟩

/-- Along every run of the daemon in which a command that makes an objective active finds a free slot
    and a submitted batch leaves room for the running tasks whose future is gone, the active
    objectives and the running tasks stay within the global limits. -/
theorem global_limits {s : Orchestrator}
    (hs : (daemonMachine h config).Reachable (fun a s => s.hasRoom config a = true) s) :
    activeObjectiveCount s.world.db.queue ≤ config.globalParallelObjectives ∧
      s.world.db.graph.runningCount ≤ config.globalParallelTasks := by
  obtain ⟨hslots, htasks⟩ := globalLimits_reachable hs
  exact ⟨active_le_takenSlots.trans hslots, (Nat.le_add_right _ _).trans htasks⟩

/-! ### Runs -/

/-- One objective and one task at a time. -/
def oneAtATime : DaemonConfig := { Scenario.config with
  globalParallelObjectives := 1, globalParallelTasks := 1 }

/-- No daemon yet, over an empty database. -/
def noDaemon : Orchestrator := ⟨Scenario.start, .stopped, [], []⟩

theorem noDaemon_start : (daemonMachine Scenario.history oneAtATime).start noDaemon :=
  ⟨_, Scenario.system_start, rfl⟩

/-- An objective over the plan. -/
def submitted (p : NormalizedPlan) (planId : PlanId) (firstTask : TaskId) (id : ObjectiveId)
    (now : Time) : List DaemonAction :=
  [ .outside (.objective (.submitPlan p planId firstTask false now)),
    .outside (.objective (.attachPlan planId id { Scenario.submission with source := .declarative }
      now)) ]

/-- Steps of the main thread. -/
def mainSteps (n : Nat) : List DaemonAction := List.replicate n (.main 10 0 false true)

/-- The pipeline of objective 0 fails and its cleanup with it, so that its plan is blocked; the
    objective is paused, objective 1 is promoted into its slot, and objective 0 is resumed. -/
def resumedRun : List DaemonAction :=
  submitted Scenario.pipelinePlan 0 0 0 1 ++ submitted Scenario.noopPlan 1 10 1 2 ++
    [.start] ++ mainSteps 16 ++
    [ .call 0 0 11,
      .outside (.thread 0 12 0 false),
      .outside (.process 0 13 0 false),
      .outside (.process 0 14 0 false),
      .outside (.process 0 15 0 false),
      .outside (.thread 0 16 0 false),
      .outside (.thread 0 17 0 false),
      .outside (.thread 0 18 0 true),
      .outside (.thread 0 19 0 true),
      .outside (.thread 0 20 0 false),
      .outside (.thread 0 21 0 false),
      .outside (.objective (.cli 0 .pause 22)) ] ++
    mainSteps 7 ++ [.outside (.objective (.cli 0 .resume 23))]

/-- A plan of two tasks that do nothing and may run together. -/
def pairPlan : NormalizedPlan where
  maxParallelTasks := 2
  tasks := [⟨"build", .noop, none, 100, 1, []⟩, ⟨"test", .noop, none, 100, 1, []⟩]
  parallelBounds := Scenario.two_parallel
  size := by decide
  keys := by decide
  ordered := by decide
  known := by decide
  distinct := by decide
  attempts := by decide
  projects := by decide

/-- The handlers of the first task raise, its future ends with the task `RUNNING`, and the next sweep
    submits the second task. -/
def forgottenRun : List DaemonAction :=
  submitted pairPlan 0 0 0 1 ++ [.start] ++ mainSteps 16 ++
    [ .call 0 0 11,
      .outside (.thread 0 12 0 false),
      .outside (.thread 0 13 0 true),
      .outside (.thread 0 14 0 true) ] ++
    mainSteps 10 ++ [.call 0 1 15]

set_option maxRecDepth 20000 in
/-- With a limit of one, two objectives become active in one run and two tasks run in another. -/
theorem global_limits_exceeded :
    oneAtATime.globalParallelObjectives < activeObjectiveCount
      ((daemonMachine Scenario.history oneAtATime).run noDaemon resumedRun).world.db.queue ∧
    oneAtATime.globalParallelTasks <
      ((daemonMachine Scenario.history oneAtATime).run noDaemon
        forgottenRun).world.db.graph.runningCount := by
  decide

/-- The objective of the plan is promoted and its first task started. -/
def promotedRun : List DaemonAction :=
  submitted pairPlan 0 0 0 1 ++ [.start] ++ mainSteps 16 ++ [.call 0 0 11]

set_option maxRecDepth 20000 in
theorem global_limits_promoted :
    ((daemonMachine Scenario.history oneAtATime).run noDaemon promotedRun).world.taskStatus 0 =
        some .running ∧
      activeObjectiveCount
        ((daemonMachine Scenario.history oneAtATime).run noDaemon promotedRun).world.db.queue ≤ 1 ∧
      ((daemonMachine Scenario.history oneAtATime).run noDaemon
        promotedRun).world.db.graph.runningCount ≤ 1 :=
  have hs : (daemonMachine Scenario.history oneAtATime).Reachable
      (fun a s => s.hasRoom oneAtATime a = true)
      ((daemonMachine Scenario.history oneAtATime).run noDaemon promotedRun) :=
    .run (.start noDaemon_start) (by decide)
  ⟨by decide, global_limits hs⟩

end HermesOps
