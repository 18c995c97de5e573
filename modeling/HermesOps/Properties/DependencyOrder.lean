import HermesOps.Properties.GraphMoves
import HermesOps.Properties.ThreadMoves
import HermesOps.Properties.Scenario

/-! The order of dependent tasks. A task that has ever been started has all its parents completed,
    and a completed task keeps its status; the one write that could undo a completion, the last
    `UPDATE` of the failure handler, belongs to a thread whose task is not completed, because a task
    has at most one thread and the thread goes with the transaction that settles its task. -/

namespace HermesOps

open Schemes

/-- The statuses that need the parents completed. -/
def TaskStatus.needsParents : TaskStatus → Bool
  | .ready | .running | .completed => true
  | _ => false

/-- Every parent of the task is there and completed. -/
def Graph.ParentsDone (g : Graph) (i : TaskId) : Prop :=
  ∀ e ∈ g.dependencies, e.taskId = i → ∃ x, g.tasks.get? e.dependsOn = some x ∧
    x.status = .completed

/-- The statuses a task may have while a thread works on it. -/
def TaskStatus.isAttended : TaskStatus → Bool
  | .running | .blocked | .cancelled => true
  | _ => false

/-- The invariant of the dependency order. -/
structure OrderInv (w : World) : Prop where
  started : ∀ i t, w.db.graph.tasks.get? i = some t →
    t.status.needsParents = true ∨ 0 < t.attemptCount → w.db.graph.ParentsDone i
  edges : ∀ e ∈ w.db.graph.dependencies, (w.db.graph.tasks.get? e.taskId).isSome = true ∧
    (w.db.graph.tasks.get? e.dependsOn).isSome = true
  attended : ∀ j t, w.daemon.threads.get? j = some t → ∀ x,
    w.db.graph.tasks.get? t.task.taskId = some x → x.status.isAttended = true ∧ 0 < x.attemptCount
  single : ∀ j k t u, w.daemon.threads.get? j = some t → w.daemon.threads.get? k = some u →
    t.task.taskId = u.task.taskId → j = k

/-! ### The moves of a completed and of an attended task -/

variable {w : World}

/-- A completed task keeps its status: its thread, if any, would not be attending it. -/
theorem TaskMove.completed_stays (hI : OrderInv w) {i : TaskId} {t t' : Task} {a : Action}
    (ht : w.db.graph.tasks.get? i = some t) (hm : TaskMove w i t a t')
    (hs : t.status = .completed) : t'.status = .completed := by
  cases hm with
  | stopped h =>
    rcases h.status with h | ⟨ho, -⟩
    · exact h.trans hs
    · rw [hs] at ho; cases ho
  | readied _ _ h => rw [hs] at h; cases h
  | reserved _ _ h => rw [hs] at h; cases h
  | completed _ _ _ _ _ _ _ h => exact h
  | failed _ _ hj hi =>
    have := (hI.attended _ _ hj t (by rw [← hi]; exact ht)).1
    rw [hs] at this; cases this
  | recovered _ _ _ h => rw [hs] at h; cases h

/-- An attended task that its own thread does not settle stays attended. -/
theorem TaskMove.attended_stays {i : TaskId} {t t' : Task} {a : Action}
    (hm : TaskMove w i t a t') (hs : t.status.isAttended = true)
    (hown : ∀ j now pid u, a = .thread j now pid false → w.daemon.threads.get? j = some u →
      u.stage.isLast = true → u.task.taskId ≠ i)
    (hrows : w.daemon.threads.rows ≠ []) : t'.status.isAttended = true := by
  cases hm with
  | stopped h =>
    rcases h.status with h | ⟨-, h | h⟩
    · rw [h]; exact hs
    · rw [h]; rfl
    · rw [h]; rfl
  | readied _ _ h => rw [h] at hs; cases hs
  | reserved _ _ h => rw [h] at hs; cases hs
  | completed _ _ hj _ _ hi => exact absurd hi.symm (hown _ _ _ _ rfl hj rfl)
  | failed _ _ hj hi => exact absurd hi.symm (hown _ _ _ _ rfl hj rfl)
  | recovered _ _ h => exact absurd h hrows

theorem TaskMove.count {i : TaskId} {t t' : Task} {a : Action} (hm : TaskMove w i t a t') :
    t.attemptCount ≤ t'.attemptCount := by
  cases hm with
  | stopped h => exact h.count.ge
  | readied _ h => exact h.ge
  | reserved _ h => omega
  | completed _ h => exact h.ge
  | failed _ h => exact h.ge
  | recovered _ h => exact h.ge

/-- A move to a status that needs the parents starts from one that had them, or checks them. -/
theorem TaskMove.started (hI : OrderInv w) {i : TaskId} {t t' : Task} {a : Action}
    (ht : w.db.graph.tasks.get? i = some t) (hm : TaskMove w i t a t')
    (hs : t'.status.needsParents = true ∨ 0 < t'.attemptCount) : w.db.graph.ParentsDone i := by
  have old := hI.started i t ht
  cases hm with
  | stopped h =>
    rw [h.count] at hs
    rcases hs with hs | hs
    · rcases h.status with h | ⟨-, h | h⟩ <;> rw [h] at hs
      · exact old (.inl hs)
      · cases hs
      · cases hs
    · exact old (.inr hs)
  | readied _ _ _ hp =>
    intro e he hi
    obtain ⟨x, hx⟩ := Option.isSome_iff_exists.1 (hI.edges e he).2
    exact ⟨x, hx, hp e he hi x hx⟩
  | reserved _ _ h => exact old (.inl (by rw [h]; rfl))
  | completed _ _ _ _ _ _ h => exact old (.inl (by rw [h]; rfl))
  | failed _ hn hj hi =>
    exact old (.inr (hI.attended _ _ hj t (by rw [← hi]; exact ht)).2)
  | recovered _ _ _ h => exact old (.inl (by rw [h]; rfl))

/-! ### One step -/

variable {w' : World} {a : Action}

/-- The rows that the order needs are kept. -/
structure OrderKept (w w' : World) : Prop where
  started : ∀ i t', w'.db.graph.tasks.get? i = some t' →
    t'.status.needsParents = true ∨ 0 < t'.attemptCount → w'.db.graph.ParentsDone i
  edges : ∀ e ∈ w'.db.graph.dependencies, (w'.db.graph.tasks.get? e.taskId).isSome = true ∧
    (w'.db.graph.tasks.get? e.dependsOn).isSome = true

theorem OrderInv.kept_of_moved (hI : OrderInv w)
    (ht : Table.Related (fun i t => TaskMove w i t a) w.db.graph.tasks w'.db.graph.tasks)
    (hd : w'.db.graph.dependencies = w.db.graph.dependencies) : OrderKept w w' := by
  refine ⟨fun i t' ht' hs e he hi => ?_, fun e he => ?_⟩
  · obtain ⟨t, hit, hm⟩ := ht.back ht'
    obtain ⟨x, hx, hdone⟩ := hm.started hI hit hs e (hd ▸ he) hi
    obtain ⟨x', hx', hmx⟩ := ht.forth hx
    exact ⟨x', hx', hmx.completed_stays hI hx hdone⟩
  · rw [hd] at he
    obtain ⟨h₁, h₂⟩ := hI.edges e he
    obtain ⟨x, hx⟩ := Option.isSome_iff_exists.1 h₁
    obtain ⟨y, hy⟩ := Option.isSome_iff_exists.1 h₂
    obtain ⟨x', hx', -⟩ := ht.forth hx
    obtain ⟨y', hy', -⟩ := ht.forth hy
    exact ⟨by rw [hx']; rfl, by rw [hy']; rfl⟩

theorem OrderInv.kept_of_drawn (hI : OrderInv w) {p : PlanId}
    (hd : PlanDrawn w w'.db.graph p) : OrderKept w w' := by
  have old : ∀ i x, w.db.graph.tasks.get? i = some x → w'.db.graph.tasks.get? i = some x := by
    intro i x hx
    rcases hd.tasks i with h | ⟨h, -⟩
    · rw [h]; exact hx
    · rw [hx] at h; cases h
  refine ⟨fun i t' ht' hs e he hi => ?_, fun e he => ?_⟩
  · rcases hd.tasks i with h | ⟨-, t₀, h, -, hpend, hzero⟩
    · rw [h] at ht'
      rcases hd.dependencies e he with he | ⟨hnew, -⟩
      · obtain ⟨x, hx, hdone⟩ := hI.started i t' ht' hs e he hi
        exact ⟨x, old _ _ hx, hdone⟩
      · rw [hi, ht'] at hnew; cases hnew
    · rw [h] at ht'
      cases ht'
      rw [hpend, hzero] at hs
      rcases hs with hs | hs <;> cases hs
  · rcases hd.dependencies e he with he | ⟨-, h⟩
    · obtain ⟨h₁, h₂⟩ := hI.edges e he
      obtain ⟨x, hx⟩ := Option.isSome_iff_exists.1 h₁
      obtain ⟨y, hy⟩ := Option.isSome_iff_exists.1 h₂
      exact ⟨by rw [old _ _ hx]; rfl, by rw [old _ _ hy]; rfl⟩
    · exact h

theorem OrderInv.kept_of_deleted (hI : OrderInv w) {p : PlanId}
    (hd : GraphDeleted w.db.graph w'.db.graph p) : OrderKept w w' := by
  refine ⟨fun i t' ht' hs e he hi => ?_, fun e he => ?_⟩
  · obtain ⟨he, -, hparent⟩ := (hd.dependencies e).1 he
    obtain ⟨x, hx, hdone⟩ := hI.started i t' (hd.task.1 ht').1 hs e he hi
    exact ⟨x, hd.task.2 ⟨hx, hparent x hx⟩, hdone⟩
  · obtain ⟨he, hchild, hparent⟩ := (hd.dependencies e).1 he
    obtain ⟨h₁, h₂⟩ := hI.edges e he
    obtain ⟨x, hx⟩ := Option.isSome_iff_exists.1 h₁
    obtain ⟨y, hy⟩ := Option.isSome_iff_exists.1 h₂
    exact ⟨by rw [hd.task.2 ⟨hx, hchild x hx⟩]; rfl, by rw [hd.task.2 ⟨hy, hparent y hy⟩]; rfl⟩

/-- A thread that stays does not settle its task in this step. -/
theorem World.ThreadOrigin.not_last {j : AttemptId} {t' : Thread}
    (ho : World.ThreadOrigin w w' a j t') {now : Time} {pid : Pid} {u : Thread}
    (ha : a = .thread j now pid false) (hu : w.daemon.threads.get? j = some u) :
    u.stage.isLast = false := by
  cases ho with
  | kept ht hl =>
    rw [hu] at ht
    cases ht
    exact hl _ _ _ ha
  | moved ht _ ha' _ hl =>
    rw [hu] at ht
    cases ht
    rw [ha] at ha'
    cases ha'
    by_contra hlast
    have := hl (by simpa using hlast)
    cases this
  | reserved ha' => rw [ha] at ha'; cases ha'

/-- The thread that a reservation starts attends a task that is running now and had no thread. -/
theorem OrderInv.reserved_fresh (hI : OrderInv w) {i : TaskId} {j : AttemptId} {now : Time}
    {g : Graph} {task : Task} (hr : reserveAttempt w.db i j now = .ok (g, task)) :
    (∀ x, g.tasks.get? i = some x → x.status.isAttended = true ∧ 0 < x.attemptCount) ∧
      ∀ k u, w.daemon.threads.get? k = some u → u.task.taskId ≠ i := by
  obtain ⟨htask, -, hready, -, -, hrel, ⟨t', ht', hrun⟩, -⟩ := reserveAttempt_ok hr
  refine ⟨fun x hx => ?_, fun k u hu hi => ?_⟩
  · obtain ⟨t, ht, -, hcase⟩ := hrel.back hx
    rw [ht'] at hx
    cases hx
    rw [htask] at ht
    cases ht
    rcases hcase with ⟨hs, -⟩ | ⟨-, -, hn⟩
    · rw [hs, hready] at hrun; cases hrun
    · exact ⟨by rw [hrun]; rfl, by omega⟩
  · have := (hI.attended k u hu task (by rw [hi]; exact htask)).1
    rw [hready] at this; cases this

theorem OrderInv.step (h : History) (config : Config) (hI : OrderInv w) (a : Action) :
    OrderInv (w.step h config a) := by
  have hstep := graph_step h config w a
  have horigin : ∀ {j t'}, (w.step h config a).daemon.threads.get? j = some t' →
      World.ThreadOrigin w (w.step h config a) a j t' := World.thread_origin h config w a
  generalize w.step h config a = w' at hstep horigin
  -- a thread that was there before finds its task attended
  have attended : ∀ j t, w.daemon.threads.get? j = some t →
      (∀ now pid u, a = .thread j now pid false → w.daemon.threads.get? j = some u →
        u.stage.isLast = false) →
      ∀ x, w'.db.graph.tasks.get? t.task.taskId = some x →
        x.status.isAttended = true ∧ 0 < x.attemptCount := by
    intro j t ht hown x hx
    have rows : w.daemon.threads.rows ≠ [] := by
      intro hnil
      rw [← Table.mem_rows_iff, hnil] at ht; cases ht
    have owner : ∀ k now pid u, a = .thread k now pid false → w.daemon.threads.get? k = some u →
        u.stage.isLast = true → u.task.taskId ≠ t.task.taskId := by
      intro k now pid u ha hu hlast hid
      obtain rfl := hI.single k j u t hu ht hid
      rw [hown now pid u ha hu] at hlast; cases hlast
    have moved : Table.Related (fun i t => TaskMove w i t a) w.db.graph.tasks w'.db.graph.tasks →
        x.status.isAttended = true ∧ 0 < x.attemptCount := by
      intro hrel
      obtain ⟨x₀, hx₀, hm⟩ := hrel.back hx
      obtain ⟨h₁, h₂⟩ := hI.attended j t ht x₀ hx₀
      exact ⟨hm.attended_stays h₁ owner rows, lt_of_lt_of_le h₂ hm.count⟩
    cases hstep with
    | moved hg => exact moved hg.tasks
    | reserved ha hr => subst ha; exact moved (reserve_tasks hr)
    | inserted hd => exact hI.attended j t ht x (by rw [← hd.unknown j t ht]; exact hx)
    | imported hd => exact hI.attended j t ht x (by rw [← hd.unknown j t ht]; exact hx)
    | deleted _ _ hd => exact hI.attended j t ht x (hd.task.1 hx).1
  have hkept : OrderKept w w' := by
    cases hstep with
    | moved hg => exact hI.kept_of_moved hg.tasks hg.dependencies
    | reserved ha hr =>
      subst ha
      exact hI.kept_of_moved (reserve_tasks hr) (reserveAttempt_ok hr).2.2.2.2.1
    | inserted hd => exact hI.kept_of_drawn hd
    | imported hd => exact hI.kept_of_drawn hd
    | deleted _ _ hd => exact hI.kept_of_deleted hd
  refine ⟨hkept.started, hkept.edges, fun j t' ht' => ?_, fun j k t u ht hu hid => ?_⟩
  · have ho := horigin ht'
    have hlast : ∀ now pid u, a = .thread j now pid false → w.daemon.threads.get? j = some u →
        u.stage.isLast = false := fun _ _ _ ha hu => ho.not_last ha hu
    cases ho with
    | kept ht => exact attended j t' ht hlast
    | moved ht htask => rw [htask]; exact attended j _ ht hlast
    | reserved _ hr hg ht =>
      subst ht hg
      exact (hI.reserved_fresh hr).1
  · -- the old threads among the two, and the task of a new one
    have old : ∀ {j t}, World.ThreadOrigin w w' a j t →
        (∃ t₀, w.daemon.threads.get? j = some t₀ ∧ t₀.task = t.task) ∨
          ∃ now, a = .graph (.reserve t.task.taskId j now) ∧
            ∀ k u, w.daemon.threads.get? k = some u → u.task.taskId ≠ t.task.taskId := by
      intro j t ho
      cases ho with
      | kept ht => exact .inl ⟨t, ht, rfl⟩
      | moved ht htask => exact .inl ⟨_, ht, htask.symm⟩
      | reserved ha hr _ ht => subst ht; exact .inr ⟨_, ha, (hI.reserved_fresh hr).2⟩
    rcases old (horigin ht) with ⟨t₀, ht₀, e₁⟩ | ⟨_, ha, hne⟩ <;>
      rcases old (horigin hu) with ⟨u₀, hu₀, e₂⟩ | ⟨_, ha', hne'⟩
    · exact hI.single j k t₀ u₀ ht₀ hu₀ (by rw [e₁, e₂]; exact hid)
    · exact absurd (by rw [e₁]; exact hid) (hne' j t₀ ht₀)
    · exact absurd (by rw [e₂]; exact hid.symm) (hne k u₀ hu₀)
    · rw [ha] at ha'
      simp only [Action.graph.injEq, GraphAction.reserve.injEq] at ha'
      exact ha'.2.1

theorem orderInv_start {h : History} {config : Config} (hw : (machine h config).start w) :
    OrderInv w := by
  obtain ⟨projects, -, rfl⟩ := hw
  exact ⟨fun _ _ h => (by cases h), fun _ h => (by cases h), fun _ _ h => (by cases h),
    fun _ _ _ _ h => (by cases h)⟩

theorem orderInv_reachable {h : History} {config : Config} {ok : Action → World → Prop}
    (hw : (machine h config).Reachable ok w) : OrderInv w :=
  Schemes.Machine.invariant (fun _ hs => orderInv_start hs)
    (fun a _ _ _ hI => hI.step h config a) hw

/-- A completed task is completed after a step, unless its plan goes with a submission that got no
    objective. -/
theorem OrderInv.completed_stays (hI : OrderInv w) (h : History) (config : Config) (a : Action)
    {i : TaskId} {t : Task} (ht : w.db.graph.tasks.get? i = some t) (hs : t.status = .completed) :
    (w.step h config a).taskStatus i = some .completed ∨
      ((w.step h config a).taskStatus i = none ∧
        ∃ id s now, a = .objective (.attachPlan t.planId id s now)) := by
  have hstep := graph_step h config w a
  generalize w.step h config a = w' at hstep
  have moved : Table.Related (fun i t => TaskMove w i t a) w.db.graph.tasks w'.db.graph.tasks →
      w'.taskStatus i = some .completed := by
    intro hrel
    obtain ⟨t', ht', hm⟩ := hrel.forth ht
    rw [World.taskStatus, ht', Option.map_some, hm.completed_stays hI ht hs]
  have drawn : ∀ {p}, PlanDrawn w w'.db.graph p → w'.taskStatus i = some .completed := by
    intro p hd
    rcases hd.tasks i with h | ⟨h, -⟩
    · rw [World.taskStatus, h, ht, Option.map_some, hs]
    · rw [ht] at h; cases h
  cases hstep with
  | moved hg => exact .inl (moved hg.tasks)
  | reserved ha hr => subst ha; exact .inl (moved (reserve_tasks hr))
  | inserted hd => exact .inl (drawn hd)
  | imported hd => exact .inl (drawn hd)
  | @deleted p id s now ha _ hd =>
    by_cases hp : t.planId = p
    · refine .inr ⟨?_, id, s, now, by rw [hp]; exact ha⟩
      rw [World.taskStatus, hd.tasks, ht, Option.filter_some, if_neg (by simpa using hp)]; rfl
    · left
      rw [World.taskStatus, hd.task.2 ⟨ht, hp⟩, Option.map_some, hs]

/-! ### Every run -/

/-- In every reachable state the tasks that are ready, running or completed have all their parents
    completed, a completed task keeps its status, and what is reserved has its parents completed. -/
theorem dependency_order (h : History) (config : Config)
    (hw : (machine h config).Reachable (fun _ _ => True) w) :
    (∀ i t, w.db.graph.tasks.get? i = some t → t.status.needsParents = true →
      w.db.graph.ParentsDone i) ∧
    (∀ a i t, w.db.graph.tasks.get? i = some t → t.status = .completed →
      (w.step h config a).taskStatus i = some .completed ∨
        ((w.step h config a).taskStatus i = none ∧
          ∃ id s now, a = .objective (.attachPlan t.planId id s now))) ∧
    ∀ i j now g task, reserveAttempt w.db i j now = .ok (g, task) → w.db.graph.ParentsDone i := by
  have hI := orderInv_reachable hw
  refine ⟨fun i t ht hs => hI.started i t ht (.inl hs), fun a i t ht hs =>
    hI.completed_stays h config a ht hs, fun i j now g task hr => ?_⟩
  obtain ⟨htask, -, hready, -⟩ := reserveAttempt_ok hr
  exact hI.started i task htask (.inl (by rw [hready]; rfl))

/-- Two tasks that do nothing, the second after the first. -/
def chainPlan : NormalizedPlan where
  maxParallelTasks := 1
  tasks := [⟨"build", .noop, none, 100, 1, []⟩, ⟨"test", .noop, none, 100, 1, ["build"]⟩]
  parallelBounds := Scenario.one_parallel
  size := by decide
  keys := by decide
  ordered := by decide
  known := by decide
  distinct := by decide
  attempts := by decide
  projects := by decide

/-- Both tasks in turn, up to the reservation of the second. -/
def chainRun : List Action :=
  [ .graph (.importPlan chainPlan 0 0 false true 1),
    .graph (.refresh 0 2),
    .graph (.reserve 0 0 3),
    .thread 0 4 0 false,
    .thread 0 5 0 false,
    .graph (.refresh 0 6),
    .graph (.reserve 1 1 7) ]

theorem dependency_order_chain :
    (Scenario.system.run Scenario.start chainRun).taskStatus 1 = some .running ∧
      (Scenario.system.run Scenario.start chainRun).db.graph.ParentsDone 1 :=
  have hw : Scenario.system.Reachable (fun _ _ => True)
      (Scenario.system.run Scenario.start chainRun) :=
    .run (.start Scenario.system_start) (by decide)
  ⟨by decide, (dependency_order Scenario.history Scenario.config hw).1 1 _ rfl rfl⟩

end HermesOps
