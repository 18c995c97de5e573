import HermesOps.Properties.GraphWrites
import HermesOps.Properties.ObjectiveMoves

/-! Everything a step can do to the orchestration graph. A step moves the rows one by one
    (`TaskMove`, `PlanMove`, `AttemptMove` list how, with the reads each move rests on), reserves a
    task, inserts a plan, or deletes one; `graph_step` says that these are all. -/

namespace HermesOps

open Schemes

/-! ### The moves -/

/-- What the action makes of the row `t` of task `i`. -/
inductive TaskMove (w : World) (i : TaskId) (t : Task) : Action → Task → Prop
  | stopped {a t'} : TaskStop t t' → TaskMove w i t a t'
  | readied {p now t'} : t.Carries t' → t'.attemptCount = t.attemptCount → t.status = .pending →
    w.db.graph.ParentsCompleted i → t'.status = .ready → TaskMove w i t (.graph (.refresh p now)) t'
  | reserved {j now t'} : t.Carries t' → t'.attemptCount = t.attemptCount + 1 →
    t.status = .ready → reservationIneligibilityReason w.db i t = none → t'.status = .running →
    TaskMove w i t (.graph (.reserve i j now)) t'
  | completed {j now pid rt result t'} : t.Carries t' → t'.attemptCount = t.attemptCount →
    w.daemon.threads.get? j = some ⟨rt, .returning result⟩ → result.succeeds = true →
    result.gated w.db rt.planId = false → i = rt.taskId → t.status = .running →
    t'.status = .completed → TaskMove w i t (.thread j now pid false) t'
  | failed {j now pid rt e t'} : t.Carries t' → t'.attemptCount = t.attemptCount →
    w.daemon.threads.get? j = some ⟨rt, .raising e⟩ → i = rt.taskId →
    t'.status = .ready ∨ t'.status = .failed → TaskMove w i t (.thread j now pid false) t'
  | recovered {now t'} : t.Carries t' → t'.attemptCount = t.attemptCount →
    w.daemon.threads.rows = [] → t.status = .running →
    t'.status = .ready ∨ t'.status = .failed ∨
      (t'.status = .completed ∧ w.db.graph.Integrated w.db.store i) →
    TaskMove w i t (.graph (.reconcile now)) t'

theorem TaskMove.carries {w : World} {i : TaskId} {t t' : Task} {a : Action}
    (hm : TaskMove w i t a t') : t.Carries t' := by
  cases hm with
  | stopped h => exact h.carries
  | readied h | reserved h | completed h | failed h | recovered h => exact h

/-- What the action makes of the row `x` of plan `p`; `w'` is the world it leads to. -/
inductive PlanMove (w w' : World) (p : PlanId) (x : Plan) : Action → Plan → Prop
  | kept {a x'} : x'.status = x.status → PlanMove w w' p x a x'
  | blocked {a x'} : x.status.isLive = true → x'.status = .blocked → PlanMove w w' p x a x'
  | promoted {id o now x'} : w.db.queue.objectives.get? id = some o → o.planId = some p →
    x.status = .draft → x'.status = .ready → PlanMove w w' p x (.objective (.promote id now)) x'
  | planned {i id now x'} : w.daemon.planners.get? i = some ⟨id, .generated p⟩ →
    x.status = .draft → x'.status = .ready → PlanMove w w' p x (.planner i (.success now)) x'
  | activated {now x'} : x.status = .draft → x'.status = .ready →
    PlanMove w w' p x (.graph (.activate p now)) x'
  | cancelled {a id o' x'} : x.status.isTerminal = false → x'.status = .cancelled →
    w'.db.queue.objectives.get? id = some o' → o'.planId = some p → o'.status = .cancelled →
    PlanMove w w' p x a x'
  | removed {now x'} : x.status.isTerminal = false → x'.status = .cancelled →
    PlanMove w w' p x (.graph (.cancelPlan p now)) x'
  | refreshed {now x'} : x.status ≠ .draft → x.status.isTerminal = false →
    x'.status = .running ∨ x'.status = .blocked ∨ x'.status = .failed ∨
      (x'.status = .completed ∧ ∀ i t, w'.db.graph.tasks.get? i = some t → t.planId = p →
        t.status = .completed) →
    PlanMove w w' p x (.graph (.refresh p now)) x'

/-- What the action makes of the row `x` of attempt `j`. -/
inductive AttemptMove (w : World) (j : AttemptId) (x : Attempt) : Action → Attempt → Prop
  | kept {a x'} : AttemptKept x x' → AttemptMove w j x a x'
  | linked {r rt now pid x'} : w.daemon.threads.get? j = some ⟨rt, .began r⟩ →
    x'.taskId = x.taskId → x'.runId = some r → AttemptMove w j x (.thread j now pid false) x'

/-- Rows move, none appears and none goes. -/
structure GraphMoved (w w' : World) (a : Action) : Prop where
  tasks : Table.Related (fun i t => TaskMove w i t a) w.db.graph.tasks w'.db.graph.tasks
  plans : Table.Related (fun p x => PlanMove w w' p x a) w.db.graph.plans w'.db.graph.plans
  attempts : Table.Related (fun j x => AttemptMove w j x a) w.db.graph.attempts w'.db.graph.attempts
  dependencies : w'.db.graph.dependencies = w.db.graph.dependencies

/-- A plan appears, with tasks that no thread knows. -/
structure PlanDrawn (w : World) (g' : Graph) (p : PlanId) : Prop
    extends GraphInserted w.db.graph g' p where
  unknown : ∀ j t, w.daemon.threads.get? j = some t →
    g'.tasks.get? t.task.taskId = w.db.graph.tasks.get? t.task.taskId

theorem drawPlan_some {w : World} {p : NormalizedPlan} {planId : PlanId} {first : TaskId}
    {source : Source} {ready : Bool} {now : Time} {g : Graph}
    (h : w.drawPlan p planId first source ready now = some g) :
    PlanDrawn w g planId ∧ ∀ x, g.plans.get? planId = some x →
      x.status = if ready then .ready else .draft := by
  unfold World.drawPlan at h
  split at h
  · cases h
  · rename_i hfree
    obtain ⟨hins, hstatus, hrange⟩ := insertPlan_some h
    refine ⟨⟨hins, fun j t ht => ?_⟩, hstatus⟩
    rcases hrange t.task.taskId with hi | hi
    · exact hi
    · exact absurd (Table.any_iff.2 ⟨j, t, ht, by simpa using hi⟩) hfree

/-- What a step does to the graph. -/
inductive GraphStep (w w' : World) (a : Action) : Prop
  | moved : GraphMoved w w' a → GraphStep w w' a
  | reserved {i j now task} : a = .graph (.reserve i j now) →
    reserveAttempt w.db i j now = .ok (w'.db.graph, task) →
    w.daemon.threads.insert j
      ⟨⟨i, task.planId, task.kind, task.projectId, task.taskKey, j⟩, .reserved⟩ =
        some w'.daemon.threads →
    GraphStep w w' a
  | inserted {p} : PlanDrawn w w'.db.graph p →
    (∀ n q first test now, a ≠ .graph (.importPlan n q first test true now)) →
    (∀ x, w'.db.graph.plans.get? p = some x → x.status = .draft) → GraphStep w w' a
  | imported {n p first test now} : PlanDrawn w w'.db.graph p →
    a = .graph (.importPlan n p first test true now) → GraphStep w w' a
  | deleted {p id s now} : a = .objective (.attachPlan p id s now) → p ∈ w.submissions →
    GraphDeleted w.db.graph w'.db.graph p →
    w'.db.queue.objectives = w.db.queue.objectives.update (fun _ o => o.planId = some p)
      (fun o => { o with planId := none }) → GraphStep w w' a

variable {w w' : World} {a : Action}

theorem GraphMoved.of_eq (h : w'.db.graph = w.db.graph) : GraphMoved w w' a := by
  refine ⟨?_, ?_, ?_, ?_⟩ <;> rw [h]
  · exact .refl fun _ _ _ => .stopped .rfl
  · exact .refl fun _ _ _ => .kept rfl
  · exact .refl fun _ _ _ => .kept ⟨rfl, rfl⟩

theorem GraphStep.of_eq (h : w'.db.graph = w.db.graph) : GraphStep w w' a := .moved (.of_eq h)

theorem planMove_of_stop {p : PlanId} {x x' : Plan} (h : PlanStop x x') : PlanMove w w' p x a x' := by
  rcases h with h | ⟨hl, h⟩
  · exact .kept h
  · exact .blocked hl h

theorem GraphMoved.of_stop (h : GraphStop w.db.graph w'.db.graph) : GraphMoved w w' a :=
  ⟨h.tasks.mono fun _ _ _ _ _ ht => .stopped ht, h.plans.mono fun _ _ _ _ _ hp => planMove_of_stop hp,
    h.attempts.mono fun _ _ _ _ _ hx => .kept hx, h.dependencies⟩

/-- A reservation moves the rows of the tasks. -/
theorem reserve_tasks {i : TaskId} {j : AttemptId} {now : Time} {g : Graph} {task : Task}
    (h : reserveAttempt w.db i j now = .ok (g, task)) :
    Table.Related (fun k t => TaskMove w k t (.graph (.reserve i j now))) w.db.graph.tasks
      g.tasks := by
  obtain ⟨htask, hreason, hready, -, -, hrel, -⟩ := reserveAttempt_ok h
  refine hrel.mono fun k t t' hk _ ⟨hc, ht⟩ => ?_
  rcases ht with ⟨hs, hn⟩ | ⟨rfl, hs, hn⟩
  · exact .stopped ⟨hc, hn, .inl hs⟩
  · obtain rfl : task = t := by rw [htask] at hk; simpa using hk
    exact .reserved hc hn hready hreason hs

/-! ### Cancelling with an objective -/

/-- A graph write that readies one draft plan. -/
theorem readyPlan_plans (g : Graph) (p : PlanId) (now : Time) :
    Table.Related (fun q x x' => x'.status = x.status ∨
      (q = p ∧ x.status = .draft ∧ x'.status = .ready)) g.plans (g.readyPlan p now).plans :=
  .update (fun _ _ _ hq => .inr ⟨(of_decide_eq_true hq).1, (of_decide_eq_true hq).2, rfl⟩)
    fun _ _ _ _ => .inl rfl

theorem GraphMoved.of_cancel {p : Option PlanId} {now : Time}
    (h : w'.db.graph = cancelPlanInTransaction w.db.graph p now)
    (ho : ∃ id o', w'.db.queue.objectives.get? id = some o' ∧ o'.planId = p ∧
      o'.status = .cancelled) : GraphMoved w w' a := by
  obtain ⟨id, o', ho', hp, hs⟩ := ho
  refine ⟨?_, ?_, ?_, ?_⟩
  · rw [h]; exact (cancelPlan_stop _ _ _).mono fun _ _ _ _ _ ht => .stopped ht
  · rw [h]
    refine (cancelPlan_related _ _ _).mono fun q x x' _ _ hx => ?_
    rcases hx with hx | ⟨hq, hn, hx⟩
    · exact .kept hx
    · exact .cancelled hn hx ho' (hp.trans hq) hs
  · rw [h, cancelPlan_attempts]; exact .refl fun _ _ _ => .kept ⟨rfl, rfl⟩
  · rw [h, cancelPlan_dependencies]

/-- A cancel that takes effect at once cancels the objective with its plan. -/
theorem ObjectiveCommand.apply_graph {d : Database} {id : ObjectiveId} {c : ObjectiveCommand}
    {now : Time} {qg : Queue × Graph} (h : c.apply d id now = .ok qg) :
    qg.2 = d.graph ∨ ∃ o o', d.queue.objectives.get? id = some o ∧
      qg.1.objectives.get? id = some o' ∧ o'.planId = o.planId ∧ o'.status = .cancelled ∧
      qg.2 = cancelPlanInTransaction d.graph o.planId now := by
  rcases apply_ok h with ⟨-, -, h⟩ | ⟨-, -, h⟩ | ⟨-, h⟩
  · exact .inl h
  · exact .inl h
  · obtain ⟨o, ho, -, -, hq, hg⟩ := cancelObjective_ok h
    by_cases hc : cancelledStatus d o = .cancelled
    · rw [if_pos hc] at hg
      refine .inr ⟨o, o.cancelledAs (cancelledStatus d o) now, ho, ?_, rfl, hc, hg⟩
      rw [hq, Table.get?_updateAt, if_pos rfl, ho, Option.map_some]
    · rw [if_neg hc] at hg; exact .inl hg

theorem graphStep_cli (config : Config) (id : ObjectiveId) (c : ObjectiveCommand) (now : Time)
    (a : Action) : GraphStep w (w.objectiveStep config (.cli id c now)) a := by
  rw [World.objectiveStep_cli]
  cases hc : c.apply w.db id now with
  | error e => exact .of_eq rfl
  | ok qg =>
    rcases ObjectiveCommand.apply_graph hc with hg | ⟨o, o', -, ho', hp, hs, hg⟩
    · exact .of_eq hg
    · exact .moved (.of_cancel hg ⟨id, o', ho', hp, hs⟩)

/-! ### The objective actions -/

theorem sweepCancels_swept {d : Database} {id : ObjectiveId} {o : Objective} (now : Time)
    (ho : d.queue.objectives.get? id = some o) (hc : sweepCancels d o = true) :
    ∃ o', (synchronizeObjectiveStates d now).1.objectives.get? id = some o' ∧
      o'.planId = o.planId ∧ o'.status = .cancelled := by
  obtain ⟨hs, hr, hp⟩ := of_decide_eq_true hc
  rw [(synchronizeObjectiveStates_spec d now).1, ho]
  refine ⟨_, rfl, ?_⟩
  have : synchronizedStatus d ⟨id, o, d.graph.planStatus o.planId⟩ =
      some (.cancelled, some "cancelled by operator") := by
    simp [synchronizedStatus, hs, hr, hp]
  simp [hs, ObjectiveStatus.isTerminal, Objective.swept, this, Objective.synchronize]

theorem objectiveStep_graph (config : Config) (a : ObjectiveAction) :
    GraphStep w (w.objectiveStep config a) (.objective a) := by
  cases a with
  | submit i s now =>
    simp only [World.objectiveStep]
    split
    · exact .of_eq rfl
    · split <;> exact .of_eq rfl
  | submitPlan p planId firstTask test now =>
    simp only [World.objectiveStep]
    split
    · rename_i g hg
      obtain ⟨hins, hdraft⟩ := drawPlan_some hg
      exact .inserted hins (fun _ _ _ _ _ h => by cases h) fun x hx => hdraft x hx
    · exact .of_eq rfl
  | attachPlan p i s now =>
    simp only [World.objectiveStep]
    split
    · exact .of_eq rfl
    · rename_i hp
      rw [not_not] at hp
      cases hi : insertObjective w.db i { s with planId := some p } now with
      | ok q => simp only [World.db] at hi ⊢; simp only [hi]; exact .of_eq rfl
      | error e =>
        simp only [World.db] at hi ⊢; simp only [hi]
        exact .deleted rfl hp (deletePlan_deleted w.db p) rfl
  | dropSubmission p => exact .of_eq rfl
  | cli i c now => exact graphStep_cli config i c now _
  | controller i c now => rw [World.objectiveStep_controller]; exact graphStep_cli config i c now _
  | synchronize now =>
    obtain ⟨-, -, hg⟩ := synchronizeObjectiveStates_spec w.db now
    obtain ⟨ht, hp, ha, hd⟩ := sweepGraph_related w.db now (sweepRows w.db) w.db.graph
      (fun r hr => ⟨_, (mem_sweepRows.1 hr).1⟩) (tasksStop_refl _) (.refl fun _ _ _ => .inl rfl)
      rfl rfl
    rw [← hg] at ht hp ha hd
    refine .moved ⟨ht.mono fun _ _ _ _ _ h => .stopped h, hp.mono fun q x x' _ _ h => ?_, ?_, hd⟩
    · rcases h with h | ⟨hn, h, id, o, ho, hpl, hc⟩
      · exact .kept h
      · obtain ⟨o', ho', hp', hs'⟩ := sweepCancels_swept now ho hc
        exact .cancelled hn h ho' (hp'.trans hpl) hs'
    · simp only [World.objectiveStep, World.setQueueGraph_db, ha]
      exact .refl fun _ _ _ => .kept ⟨rfl, rfl⟩
  | promote i now =>
    simp only [World.objectiveStep]
    split
    · rename_i q g p hpro
      obtain ⟨row, plan, hrow, hp, hplan, hq, -, rfl⟩ := promotePlannedObjective_some hpro
      split
      · refine .moved ⟨tasksStop_refl _ |>.mono fun _ _ _ _ _ h => .stopped h, ?_,
          .refl fun _ _ _ => .kept ⟨rfl, rfl⟩, rfl⟩
        refine (readyPlan_plans _ _ _).mono fun q x x' _ _ h => ?_
        rcases h with h | ⟨rfl, hd, h⟩
        · exact .kept h
        · exact .promoted hrow hp hd h
      · exact .of_eq rfl
    · exact .of_eq rfl
  | reserve i j now =>
    simp only [World.objectiveStep]
    split
    · exact .of_eq rfl
    · split
      · exact .of_eq rfl
      · exact .of_eq rfl
      · exact .of_eq rfl
      · split <;> exact .of_eq rfl
  | reconcile now =>
    simp only [World.objectiveStep]
    split <;> exact .of_eq rfl

theorem plannerStep_graph (config : Config) {i : ObjectiveAttemptId} {planner : Planner}
    (hp : w.daemon.planners.get? i = some planner) (a : PlannerAction) :
    GraphStep w (w.plannerStep config i planner a) (.planner i a) := by
  obtain ⟨id, stage⟩ := planner
  cases a with
  | insert p planId firstTask now =>
    cases stage with
    | generating =>
      simp only [World.plannerStep]
      split
      · rename_i g hg
        obtain ⟨hins, hdraft⟩ := drawPlan_some hg
        exact .inserted hins (fun _ _ _ _ _ h => by cases h) fun x hx => hdraft x hx
      · exact .of_eq rfl
    | _ => exact .of_eq rfl
  | raise e => cases stage <;> exact .of_eq rfl
  | failure now => cases stage <;> exact .of_eq rfl
  | success now =>
    cases stage with
    | generated p =>
      simp only [World.plannerStep]
      cases hs : finishObjectivePlanningSuccess w.db id i p now with
      | error e => exact .of_eq rfl
      | ok qg =>
        obtain ⟨row, new, fin, err, hrow, hnew, -, -, hobj, -, hg⟩ :=
          finishObjectivePlanningSuccess_ok hs
        cases hst : row.status <;> simp only [hst, plannedStatus, Option.some.injEq, reduceCtorEq]
          at hnew <;> simp only [hst, plannedGraph] at hg
        · refine .moved ⟨?_, ?_, ?_, ?_⟩ <;> simp only [World.endPlanner_db, World.setQueueGraph_db, hg]
          · exact tasksStop_refl _ |>.mono fun _ _ _ _ _ h => .stopped h
          · refine (readyPlan_plans _ _ _).mono fun q x x' _ _ h => ?_
            rcases h with h | ⟨rfl, hd, h⟩
            · exact .kept h
            · exact .planned hp hd h
          · exact .refl fun _ _ _ => .kept ⟨rfl, rfl⟩
          · rfl
        · exact .of_eq hg
        · refine .moved (.of_cancel hg ⟨id, row.planned new p fin err now, ?_, rfl, hnew.symm⟩)
          simp only [World.endPlanner_db, World.setQueueGraph_db, hobj, Table.get?_updateAt,
            if_true, hrow, Option.map_some]
    | _ => exact .of_eq rfl

/-! ### The other actions -/

theorem graphStep_graph (a : GraphAction) : GraphStep w (w.graphStep a) (.graph a) := by
  cases a with
  | importPlan p planId firstTask test ready now =>
    simp only [World.graphStep]
    split
    · rename_i g hg
      obtain ⟨hins, hstatus⟩ := drawPlan_some hg
      cases ready
      · exact .inserted hins (fun _ _ _ _ _ h => by cases h) fun x hx => hstatus x hx
      · exact .imported hins rfl
    · exact .of_eq rfl
  | activate p now =>
    simp only [World.graphStep, commandActivate]
    split
    · rename_i g hg
      split at hg
      · cases hg
        refine .moved ⟨tasksStop_refl _ |>.mono fun _ _ _ _ _ h => .stopped h, ?_,
          .refl fun _ _ _ => .kept ⟨rfl, rfl⟩, rfl⟩
        refine (readyPlan_plans _ _ _).mono fun q x x' _ _ h => ?_
        rcases h with h | ⟨rfl, hd, h⟩
        · exact .kept h
        · exact .activated hd h
      · cases hg
    · exact .of_eq rfl
  | cancelPlan p now =>
    simp only [World.graphStep, commandCancelPlan]
    split
    · rename_i g hg
      split at hg
      · cases hg
      · rename_i plan hplan
        split at hg
        · cases hg
        · rename_i ht
          split at hg
          · cases hg
          · cases hg
            refine .moved ⟨.mono (R := fun _ => TaskStop) ?_ fun _ _ _ _ _ h => .stopped h, ?_,
              .refl fun _ _ _ => .kept ⟨rfl, rfl⟩, rfl⟩
            · exact tasksStop_cancel (fun i x hx => (of_decide_eq_true hx).2) fun x =>
                ⟨⟨rfl, rfl, rfl, rfl, rfl⟩, rfl, rfl⟩
            refine .updateAt (fun x hx => ?_) fun _ _ _ _ => .kept rfl
            obtain rfl : plan = x := by rw [hplan] at hx; simpa using hx
            exact .removed (by simpa using ht) rfl
    · exact .of_eq rfl
  | refresh p now =>
    obtain ⟨ht, hp, ha, hd⟩ := refreshPlanStates_related w.db.graph w.db.store p now
    refine .moved ⟨ht.mono fun i t t' _ _ h => ?_, hp.mono fun q x x' _ _ h => ?_, ?_, hd⟩
    · rcases h.status with hs | ⟨hpend, hs | ⟨hs, hdone⟩⟩
      · exact .stopped ⟨h.carries, h.count, .inl hs⟩
      · exact .stopped (.blocked h.carries h.count (by rw [hpend]; rfl) hs)
      · exact .readied h.carries h.count hpend hdone hs
    · rcases h with h | ⟨rfl, hnd, hnt, h⟩
      · exact .kept h
      · exact .refreshed hnd hnt h
    · simp only [World.graphStep, World.setGraph_db, ha]
      exact .refl fun _ _ _ => .kept ⟨rfl, rfl⟩
  | reserve i j now =>
    simp only [World.graphStep]
    split
    · exact .of_eq rfl
    · rename_i g task hr
      split
      · rename_i threads hins
        exact .reserved rfl hr hins
      · exact .of_eq rfl
  | reconcile now =>
    simp only [World.graphStep]
    split
    · exact .of_eq rfl
    · rename_i hthreads
      rw [ne_eq, not_not] at hthreads
      obtain ⟨ht, ha, hp, hd⟩ := reconcileInterruptedTasks_related w.db.graph w.db.store now
      refine .moved ⟨ht.mono fun i t t' _ _ h => ?_, ?_, ha.mono fun _ _ _ _ _ h => .kept h, hd⟩
      · rcases h.status with hs | ⟨hrun, hs⟩
        · exact .stopped ⟨h.carries, h.count, .inl hs⟩
        · exact .recovered h.carries h.count hthreads hrun hs
      · simp only [World.setGraph_db, hp]
        exact .refl fun _ _ _ => .kept rfl

/-- The marking of a run whose cleanup failed. -/
theorem graphStep_marked {r : RunId} {reason : String} {now : Time}
    (h : w'.db = World.markedDb w.db r reason now) : GraphStep w w' a := by
  refine .moved (.of_stop ?_)
  rw [h]
  exact markCancellationCleanupRecovery_stop ..

/-- A thread writes what its stage says, and only when nothing goes wrong. -/
theorem threadStep_graph {j : AttemptId} {t : Thread} (hj : w.daemon.threads.get? j = some t)
    (now : Time) (pid : Pid) (fault : Bool) (owner : String) :
    GraphStep w (w.threadStep j now pid fault t.task owner t.stage) (.thread j now pid fault) := by
  obtain ⟨rt, stage⟩ := t
  have hw := World.threadStep_write j now pid fault w rt owner stage
  generalize w.threadStep j now pid fault rt owner stage = w' at hw ⊢
  generalize hd : w'.db = d at hw
  cases hw with
  | quiet => exact .of_eq (by rw [hd])
  | mark => exact graphStep_marked hd
  | link hf =>
    subst hf
    refine .moved ⟨?_, ?_, ?_, ?_⟩ <;> simp only [hd, World.setAttemptLinks]
    · exact .refl fun _ _ _ => .stopped .rfl
    · exact .refl fun _ _ _ => .kept rfl
    · exact .updateAt (fun x _ => .linked hj rfl rfl) fun _ _ _ _ => .kept ⟨rfl, rfl⟩
  | finish hf =>
    subst hf
    rename_i result
    obtain ⟨ht, hp, ha, hdep⟩ := finishTask_related w.db rt result now
    refine .moved ⟨?_, ?_, ?_, ?_⟩ <;> simp only [hd]
    · refine ht.mono fun i t t' _ _ h => ?_
      cases h with
      | stopped h => exact .stopped h
      | completed hs hg hi hrun hdone hc hn => exact .completed hc hn hj hs hg hi hrun hdone
    · exact hp.mono fun _ _ _ _ _ h => planMove_of_stop h
    · exact ha.mono fun _ _ _ _ _ h => .kept h
    · exact hdep
  | fail hf =>
    subst hf
    rename_i e
    obtain ⟨ht, hp, ha, hdep⟩ := finishTaskFailure_related w.db.graph w.db.store rt e now
    refine .moved ⟨?_, ?_, ?_, ?_⟩ <;> simp only [hd]
    · refine ht.mono fun i t t' _ _ h => ?_
      cases h with
      | stopped h => exact .stopped h
      | failed hi hs hc hn => exact .failed hc hn hj hi hs
    · rw [hp]; exact .refl fun _ _ _ => .kept rfl
    · exact ha.mono fun _ _ _ _ _ h => .kept h
    · exact hdep

/-- What a step does to the graph. -/
theorem graph_step (h : History) (config : Config) (w : World) (a : Action) :
    GraphStep w (w.step h config a) a := by
  cases a with
  | objective a => exact objectiveStep_graph config a
  | planner i a =>
    simp only [World.step]
    split
    · rename_i planner hp; exact plannerStep_graph config hp a
    · exact .of_eq rfl
  | graph a => exact graphStep_graph a
  | thread j now pid fault =>
    simp only [World.step]
    split
    · rename_i t hj; exact threadStep_graph hj now pid fault _
    · exact .of_eq rfl
  | janitorStart =>
    simp only [World.step]
    split <;> exact .of_eq rfl
  | janitor now pid fault =>
    simp only [World.step]
    rcases World.janitorStep_db now pid fault w with hd | ⟨r, rest, reason, -, -, hd⟩
    · exact .of_eq (by rw [hd])
    · exact graphStep_marked hd
  | operator pid stage =>
    simp only [World.step]
    split
    · exact .of_eq (by simp)
    · exact .of_eq rfl
  | process pid now fresh fault =>
    exact .of_eq (World.stepProcess_queueGraph h pid now fresh fault w).2
  | kill pid => exact .of_eq (by simp [World.step])
  | crash => exact .of_eq rfl
  | environment a => exact .of_eq (World.environmentStep_queueGraph h w a).2

/-! ### Plans across a step -/

/-- Once a plan has ended, no move changes its status. -/
theorem PlanMove.terminal_stays {p : PlanId} {x x' : Plan} (hm : PlanMove w w' p x a x')
    (ht : x.status.isTerminal = true) : x'.status = x.status := by
  cases hm with
  | kept h => exact h
  | blocked h => cases hs : x.status <;> simp [hs, PlanStatus.isLive, PlanStatus.isTerminal] at h ht
  | promoted _ _ h => rw [h] at ht; cases ht
  | planned _ h => rw [h] at ht; cases ht
  | activated h => rw [h] at ht; cases ht
  | cancelled h => rw [ht] at h; cases h
  | removed h => rw [ht] at h; cases h
  | refreshed _ h => rw [ht] at h; cases h

/-- A plan moves, or is deleted with a submission, and then no objective is linked to it. -/
theorem GraphStep.plan_forth (hs : GraphStep w w' a) {p : PlanId} {x : Plan}
    (hx : w.db.graph.plans.get? p = some x) :
    (∃ x', w'.db.graph.plans.get? p = some x' ∧ PlanMove w w' p x a x') ∨
      (p ∈ w.submissions ∧ ∀ id o, w'.db.queue.objectives.get? id = some o → o.planId ≠ some p) := by
  have drawn : ∀ {q}, PlanDrawn w w'.db.graph q →
      ∃ x', w'.db.graph.plans.get? p = some x' ∧ PlanMove w w' p x a x' := by
    intro q hd
    have hne : p ≠ q := by rintro rfl; rw [hd.plan] at hx; cases hx
    exact ⟨x, by rw [hd.plans p hne]; exact hx, .kept rfl⟩
  cases hs with
  | moved hg => exact .inl (hg.plans.forth hx)
  | reserved _ hr => exact .inl ⟨x, by rw [(reserveAttempt_ok hr).2.2.2.1]; exact hx, .kept rfl⟩
  | inserted hd => exact .inl (drawn hd)
  | imported hd => exact .inl (drawn hd)
  | @deleted q _ _ _ _ hq hd hobj =>
    by_cases hp : p = q
    · subst hp
      refine .inr ⟨hq, fun id o ho hop => ?_⟩
      rw [hobj, Table.get?_update, Option.map_eq_some_iff] at ho
      obtain ⟨o₀, -, rfl⟩ := ho
      by_cases hl : o₀.planId = some p
      · simp [hl] at hop
      · simp [hl] at hop
    · exact .inl ⟨x, by rw [hd.plans, if_neg hp]; exact hx, .kept rfl⟩

/-- A plan of the next world moved there, or was just inserted. -/
theorem GraphStep.plan_back (hs : GraphStep w w' a) {p : PlanId} {x' : Plan}
    (hx : w'.db.graph.plans.get? p = some x') :
    (∃ x, w.db.graph.plans.get? p = some x ∧ PlanMove w w' p x a x') ∨
      (w.db.graph.plans.get? p = none ∧ (x'.status = .draft ∨ x'.status = .ready)) := by
  have drawn : ∀ {q}, PlanDrawn w w'.db.graph q →
      (∃ x, w.db.graph.plans.get? p = some x ∧ PlanMove w w' p x a x') ∨
        (w.db.graph.plans.get? p = none ∧ (x'.status = .draft ∨ x'.status = .ready)) := by
    intro q hd
    by_cases hp : p = q
    · subst hp
      obtain ⟨y, hy, hst⟩ := hd.new
      rw [hy] at hx; cases hx
      exact .inr ⟨hd.plan, hst⟩
    · exact .inl ⟨x', by rw [← hd.plans p hp]; exact hx, .kept rfl⟩
  cases hs with
  | moved hg => exact .inl (hg.plans.back hx)
  | reserved _ hr => exact .inl ⟨x', by rw [← (reserveAttempt_ok hr).2.2.2.1]; exact hx, .kept rfl⟩
  | inserted hd => exact drawn hd
  | imported hd => exact drawn hd
  | deleted _ _ hd =>
    rw [hd.plans] at hx
    split at hx
    · cases hx
    · exact .inl ⟨x', hx, .kept rfl⟩

/-- An attempt belongs to the same task as before, or has just been reserved. -/
theorem GraphStep.attempt_back (hs : GraphStep w w' a) {j : AttemptId} {x' : Attempt}
    (hx : w'.db.graph.attempts.get? j = some x') :
    (∃ x, w.db.graph.attempts.get? j = some x ∧ x'.taskId = x.taskId) ∨
      ∃ now task, a = .graph (.reserve x'.taskId j now) ∧
        reserveAttempt w.db x'.taskId j now = .ok (w'.db.graph, task) := by
  cases hs with
  | moved hg =>
    obtain ⟨x, hx, hm⟩ := hg.attempts.back hx
    refine .inl ⟨x, hx, ?_⟩
    cases hm with
    | kept hk => exact hk.1
    | linked _ ht => exact ht
  | @reserved i k now task ha hr =>
    obtain ⟨-, -, -, -, -, -, -, y, hyi, -, hins⟩ := reserveAttempt_ok hr
    rw [Table.get?_insert hins] at hx
    split at hx
    · rename_i hjk
      subst hjk
      cases hx
      rw [hyi]
      exact .inr ⟨now, task, ha, hr⟩
    · exact .inl ⟨x', hx, rfl⟩
  | inserted hd | imported hd => exact .inl ⟨x', by rw [← hd.attempts]; exact hx, rfl⟩
  | deleted _ _ hd => exact .inl ⟨x', ((hd.attempts j x').1 hx).1, rfl⟩

/-- An attempt stays with its task. -/
theorem GraphStep.attempt_forth (hs : GraphStep w w' a) {j : AttemptId} {x : Attempt}
    (hx : w.db.graph.attempts.get? j = some x) (ht : (w'.db.graph.tasks.get? x.taskId).isSome) :
    ∃ x', w'.db.graph.attempts.get? j = some x' ∧ AttemptMove w j x a x' := by
  cases hs with
  | moved hg => exact hg.attempts.forth hx
  | @reserved i k now task ha hr =>
    obtain ⟨-, -, -, -, -, -, -, y, -, -, hins⟩ := reserveAttempt_ok hr
    refine ⟨x, ?_, .kept ⟨rfl, rfl⟩⟩
    rw [Table.get?_insert hins, if_neg, hx]
    rintro rfl
    rw [Table.get?_of_insert hins] at hx
    cases hx
  | inserted hd | imported hd => exact ⟨x, by rw [hd.attempts]; exact hx, .kept ⟨rfl, rfl⟩⟩
  | deleted _ _ hd =>
    obtain ⟨y, hy⟩ := Option.isSome_iff_exists.1 ht
    refine ⟨x, (hd.attempts j x).2 ⟨hx, fun t ht' => ?_⟩, .kept ⟨rfl, rfl⟩⟩
    obtain ⟨hy₀, hp⟩ := hd.task.1 hy
    rw [ht'] at hy₀
    cases hy₀
    exact hp

/-- A task has its plan and its kind from before, or is one of a plan just inserted. -/
theorem GraphStep.task_back (hs : GraphStep w w' a) {i : TaskId} {y' : Task}
    (hy : w'.db.graph.tasks.get? i = some y') :
    (∃ y, w.db.graph.tasks.get? i = some y ∧ y'.planId = y.planId ∧ y'.kind = y.kind) ∨
      (w.db.graph.tasks.get? i = none ∧ w.db.graph.plans.get? y'.planId = none) := by
  cases hs with
  | moved hg =>
    obtain ⟨y, hy, hm⟩ := hg.tasks.back hy
    exact .inl ⟨y, hy, hm.carries.plan, hm.carries.kind⟩
  | reserved _ hr =>
    obtain ⟨y, hy, hm⟩ := (reserve_tasks hr).back hy
    exact .inl ⟨y, hy, hm.carries.plan, hm.carries.kind⟩
  | inserted hd | imported hd =>
    rcases hd.tasks i with hi | ⟨hn, t, ht, hp, -⟩
    · exact .inl ⟨y', by rw [← hi]; exact hy, rfl, rfl⟩
    · rw [hy] at ht
      cases ht
      exact .inr ⟨hn, hp ▸ hd.plan⟩
  | deleted _ _ hd => exact .inl ⟨y', (hd.task.1 hy).1, rfl, rfl⟩

/-- Every task has its plan. -/
def TasksOwned (g : Graph) : Prop :=
  ∀ i y, g.tasks.get? i = some y → (g.plans.get? y.planId).isSome

theorem TasksOwned.step (hI : TasksOwned w.db.graph) (hs : GraphStep w w' a) :
    TasksOwned w'.db.graph := by
  intro i y' hy
  have drawn : ∀ {q}, PlanDrawn w w'.db.graph q → (w'.db.graph.plans.get? y'.planId).isSome := by
    intro q hd
    by_cases hq : y'.planId = q
    · obtain ⟨x, hx, -⟩ := hd.new
      rw [hq]
      exact Option.isSome_of_mem hx
    · rw [hd.plans _ hq]
      rcases hd.tasks i with hi | ⟨-, t, ht, htq, -⟩
      · exact hI i y' (by rw [← hi]; exact hy)
      · rw [hy] at ht
        cases ht
        exact absurd htq hq
  cases hs with
  | moved hg =>
    obtain ⟨y, hy, hm⟩ := hg.tasks.back hy
    obtain ⟨x, hx⟩ := Option.isSome_iff_exists.1 (hI i y hy)
    obtain ⟨x', hx', -⟩ := hg.plans.forth hx
    rw [hm.carries.plan]
    exact Option.isSome_of_mem hx'
  | reserved _ hr =>
    obtain ⟨y, hy, hm⟩ := (reserve_tasks hr).back hy
    rw [hm.carries.plan, (reserveAttempt_ok hr).2.2.2.1]
    exact hI i y hy
  | inserted hd | imported hd => exact drawn hd
  | deleted _ _ hd =>
    obtain ⟨hy, hp⟩ := hd.task.1 hy
    rw [hd.plans, if_neg hp]
    exact hI i y' hy

theorem tasksOwned_reachable {h : History} {config : Config} {ok : Action → World → Prop}
    (hw : (machine h config).Reachable ok w) : TasksOwned w.db.graph := by
  induction hw with
  | start hs =>
    obtain ⟨projects, -, rfl⟩ := hs
    intro i y hy
    cases hy
  | @step w a _ _ ih => exact ih.step (graph_step h config w a)

/-- A completed task was completed before, or has just been completed by the thread that returned its
    result or by the reconciliation of its completed run. -/
theorem GraphStep.completed_back (hs : GraphStep w w' a) {i : TaskId} {y' : Task}
    (hy : w'.db.graph.tasks.get? i = some y') (hc : y'.status = .completed) :
    ∃ y, w.db.graph.tasks.get? i = some y ∧ y'.planId = y.planId ∧ y'.kind = y.kind ∧
      (y.status = .completed ∨ (y.status = .running ∧
        ((∃ j now pid rt result, a = .thread j now pid false ∧
            w.daemon.threads.get? j = some ⟨rt, .returning result⟩ ∧ result.succeeds = true ∧
            result.gated w.db rt.planId = false ∧ i = rt.taskId) ∨
          ∃ now, a = .graph (.reconcile now) ∧ w.db.graph.Integrated w.db.store i))) := by
  have moved : ∀ {y}, TaskMove w i y a y' → y.status = .completed ∨ (y.status = .running ∧
        ((∃ j now pid rt result, a = .thread j now pid false ∧
            w.daemon.threads.get? j = some ⟨rt, .returning result⟩ ∧ result.succeeds = true ∧
            result.gated w.db rt.planId = false ∧ i = rt.taskId) ∨
          ∃ now, a = .graph (.reconcile now) ∧ w.db.graph.Integrated w.db.store i)) := by
    intro y hm
    cases hm with
    | stopped h =>
      rcases h.status with h | ⟨-, h | h⟩
      · exact .inl (h.symm.trans hc)
      · rw [hc] at h; cases h
      · rw [hc] at h; cases h
    | readied _ _ _ _ h | reserved _ _ _ _ h => rw [hc] at h; cases h
    | completed _ _ hj hsucc hg hi hrun =>
      exact .inr ⟨hrun, .inl ⟨_, _, _, _, _, rfl, hj, hsucc, hg, hi⟩⟩
    | failed _ _ _ _ h => rw [hc] at h; rcases h with h | h <;> cases h
    | recovered _ _ _ hrun h =>
      rcases h with h | h | ⟨-, hint⟩
      · rw [hc] at h; cases h
      · rw [hc] at h; cases h
      · exact .inr ⟨hrun, .inr ⟨_, rfl, hint⟩⟩
  cases hs with
  | moved hg =>
    obtain ⟨y, hy, hm⟩ := hg.tasks.back hy
    exact ⟨y, hy, hm.carries.plan, hm.carries.kind, moved hm⟩
  | reserved ha hr =>
    subst ha
    obtain ⟨y, hy, hm⟩ := (reserve_tasks hr).back hy
    exact ⟨y, hy, hm.carries.plan, hm.carries.kind, moved hm⟩
  | inserted hd | imported hd =>
    rcases hd.tasks i with hi | ⟨-, t, ht, -, hpend, -⟩
    · exact ⟨y', by rw [← hi]; exact hy, rfl, rfl, .inl hc⟩
    · rw [hy] at ht
      cases ht
      rw [hc] at hpend
      cases hpend
  | deleted _ _ hd => exact ⟨y', (hd.task.1 hy).1, rfl, rfl, .inl hc⟩

end HermesOps
