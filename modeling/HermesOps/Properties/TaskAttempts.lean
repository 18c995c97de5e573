import HermesOps.Properties.AttemptBook
import HermesOps.Properties.LateWorkers
import HermesOps.Properties.ParallelLimits
import HermesOps.Properties.RunClaims

/-! The attempts of every task over whole runs. The book is always in order; a closed task may still
    have an open attempt, as long as the thread of that attempt is alive to close it. The marking of a
    failed cleanup takes a task out of `RUNNING` without its attempt, and the restart looks at
    `RUNNING` tasks only, so an attempt whose thread dies in between stays open for ever. -/

namespace HermesOps

open Schemes

/-! ### Transactions that leave the attempts alone -/

/-- Quiet, and every running task goes on running. -/
structure GraphIdle (g g' : Graph) : Prop extends GraphQuiet g g' where
  runs : ∀ i t t', g.tasks.get? i = some t → g'.tasks.get? i = some t' → t.status = .running →
    t'.status = .running

variable {g g' g'' : Graph}

theorem GraphIdle.of_eq (ht : g'.tasks = g.tasks) (ha : g'.attempts = g.attempts) : GraphIdle g g' := by
  refine ⟨⟨?_, attemptsQuiet_of_eq ha⟩, ?_⟩ <;> rw [ht]
  · exact .refl fun _ _ _ => .rfl
  · intro i t t' h h' hr
    rw [h] at h'
    cases h'
    exact hr

theorem GraphIdle.trans (h : GraphIdle g g') (h' : GraphIdle g' g'') : GraphIdle g g'' := by
  refine ⟨⟨h.tasks.trans h'.tasks fun _ _ _ _ _ a b => ?_, h.attempts.trans h'.attempts
    fun _ _ _ _ _ a b => ?_⟩, fun i t t'' ht ht'' hr => ?_⟩
  · exact ⟨b.count.trans a.count, fun hr => a.running (b.running hr), fun hw => a.waiting (b.waiting hw)⟩
  · exact ⟨b.task.trans a.task, b.number.trans a.number, b.status.trans a.status⟩
  · obtain ⟨t', ht', -⟩ := h.tasks.forth ht
    exact h'.runs i t' t'' ht' ht'' (h.runs i t t' ht ht' hr)

/-- A transaction that stops tasks but none that is running. -/
theorem GraphIdle.of_stop (ht : Table.Related (fun _ => TaskStop) g.tasks g'.tasks)
    (ha : g'.attempts = g.attempts)
    (hr : ∀ i t, g.tasks.get? i = some t → t.status = .running → g'.tasks.get? i = some t) :
    GraphIdle g g' := by
  refine ⟨⟨ht.mono fun _ _ _ _ _ h => .of_stop h, attemptsQuiet_of_eq ha⟩, fun i t t' h h' hrun => ?_⟩
  rw [hr i t h hrun] at h'
  cases h'
  exact hrun

theorem cancelPlan_graphIdle (g : Graph) (p : Option PlanId) (now : Time) :
    GraphIdle g (cancelPlanInTransaction g p now) := by
  refine .of_stop (cancelPlan_stop g p now) (cancelPlan_attempts g p now) fun i t ht hr => ?_
  cases p with
  | none => exact ht
  | some p => rw [cancelPlan_tasks, ht, Option.map_some, hr, if_neg (by simp [TaskStatus.isWaiting])]

theorem sweepGraph_idle (d : Database) (now : Time) (rows : List SweepRow) (g : Graph) :
    GraphIdle g (sweepGraph d now rows g) := by
  induction rows generalizing g with
  | nil => exact .of_eq rfl rfl
  | cons row rows ih =>
    simp only [sweepGraph, List.foldl_cons] at ih ⊢
    split
    · exact (cancelPlan_graphIdle g _ now).trans (ih _)
    · exact ih g

theorem refresh_idle (g : Graph) (s : Store) (p : PlanId) (now : Time) :
    GraphIdle g (refreshPlanStates g s p now) := by
  obtain ⟨ht, -, ha, -⟩ := refreshPlanStates_related g s p now
  refine ⟨⟨ht.mono fun i t t' _ _ h => ?_, attemptsQuiet_of_eq ha⟩, fun i t t' hi hi' hr => ?_⟩
  · refine ⟨h.count, fun hr => ?_, fun hw => ?_⟩
    · rcases h.status with hs | ⟨-, hs | ⟨hs, -⟩⟩
      · exact hs ▸ hr
      · rw [hs] at hr; cases hr
      · rw [hs] at hr; cases hr
    · rcases h.status with hs | ⟨hp, -⟩
      · exact hs ▸ hw
      · exact .inl hp
  · obtain ⟨u, hu, h⟩ := ht.forth hi
    rw [hi'] at hu
    cases hu
    rcases h.status with hs | ⟨hp, -⟩
    · exact hs.trans hr
    · rw [hp] at hr; cases hr

theorem commandCancelPlan_idle {p : PlanId} {now : Time} (h : commandCancelPlan g p now = .ok g') :
    GraphIdle g g' := by
  unfold commandCancelPlan at h
  split at h
  · cases h
  · split at h
    · cases h
    · split at h
      · cases h
      · cases h
        refine .of_stop ?_ rfl fun i t ht hr => ?_
        · exact tasksStop_cancel (fun i x hx => (of_decide_eq_true hx).2) fun x =>
            ⟨⟨rfl, rfl, rfl, rfl, rfl⟩, rfl, rfl⟩
        · simp [ht, hr, TaskStatus.isWaiting]

theorem link_idle (g : Graph) (j : AttemptId) (r : RunId) (now : Time) :
    GraphIdle g (World.setAttemptLinks g j r now) := by
  refine ⟨⟨.refl fun _ _ _ => .rfl, .updateAt (fun _ _ => ⟨rfl, rfl, rfl⟩) fun _ _ _ _ => .rfl⟩,
    fun i t t' h h' hr => ?_⟩
  rw [World.setAttemptLinks, h] at h'
  cases h'
  exact hr

/-! ### The end of a thread -/

/-- A handler that stops running tasks only where it closes one. -/
theorem GraphClosed.of_stop {rt : ReservedTask} {s : AttemptStatus} (f : Option String → Option String)
    (now : Time) (hs : s ≠ .running) (ht : Table.Related (fun _ => TaskStop) g.tasks g'.tasks)
    (ha : g'.attempts = g.finishAttempt rt.attemptId s f now)
    (hown : ∀ t, g'.tasks.get? rt.taskId = some t → t.status ≠ .running)
    (hr : ∀ i t, i ≠ rt.taskId → g.tasks.get? i = some t → t.status = .running →
      g'.tasks.get? i = some t) : GraphClosed g g' rt.taskId rt.attemptId := by
  refine ⟨ht.mono fun i t t' hi hi' h => ⟨h.count, ?_⟩, ?_⟩
  · split
    · rename_i heq
      exact hown t' (heq ▸ hi')
    · rename_i hne
      refine ⟨.of_stop h, fun hrun => ?_⟩
      rw [hr i t hne hi hrun] at hi'
      cases hi'
      exact hrun
  · rw [ha]
    refine .update (fun k x _ hp => ⟨rfl, rfl, ?_⟩) fun k x _ hp => ⟨rfl, rfl, ?_⟩
    · rw [if_pos (of_decide_eq_true hp).1]
      exact hs
    · split
      · rename_i heq
        intro hrun
        exact (decide_eq_false_iff_not.1 hp) ⟨heq, hrun⟩
      · rfl

theorem gateBlock_closed (g : Graph) (rt : ReservedTask) {s : AttemptStatus} (hs : s ≠ .running)
    (reason : Option String) (now : Time) :
    GraphClosed g (finishRunningTaskBlockedByHumanGate g rt s reason now) rt.taskId rt.attemptId := by
  refine .of_stop (fun _ => reason) now hs (finishRunningTaskBlockedByHumanGate_stop g rt s reason now).tasks
    rfl (fun t ht => ?_) fun i t hne ht hr => ?_
  · simp only [finishRunningTaskBlockedByHumanGate, Table.get?_update, Option.map_eq_some_iff] at ht
    obtain ⟨x, -, rfl⟩ := ht
    split
    · exact fun h => by cases h
    · rename_i hp
      exact fun h => hp (by simp [h])
  · simp [finishRunningTaskBlockedByHumanGate, ht, hne]

/-- Every handler of a result closes the attempt, and blocks nothing that runs but its task. -/
theorem finishTask_closed {d : Database} {rt : ReservedTask}
    (hp : ∀ t, d.graph.tasks.get? rt.taskId = some t → t.planId = rt.planId) (result : TaskResult)
    (now : Time) : GraphClosed d.graph (finishTask d rt result now) rt.taskId rt.attemptId := by
  have hsuccess : GraphClosed d.graph (finishTaskSuccess d.graph d.store rt result now) rt.taskId
      rt.attemptId := by
    unfold finishTaskSuccess
    split
    · exact gateBlock_closed d.graph rt (by simp) none now
    · refine ⟨.update (fun i t _ hx => ?_) fun i t _ hx => ?_, ?_⟩
      · obtain ⟨rfl, -⟩ := of_decide_eq_true hx
        rw [if_pos rfl]
        exact ⟨rfl, fun h => by cases h⟩
      · refine ⟨rfl, ?_⟩
        split
        · rename_i heq
          exact fun h => (decide_eq_false_iff_not.1 hx) ⟨heq, h⟩
        · exact ⟨.rfl, id⟩
      · refine .update (fun k x _ hx => ⟨rfl, rfl, ?_⟩) fun k x _ hx => ⟨rfl, rfl, ?_⟩
        · rw [if_pos (of_decide_eq_true hx).1]
          exact fun h => by cases h
        · split
          · rename_i heq
            exact fun h => (decide_eq_false_iff_not.1 hx) ⟨heq, h⟩
          · rfl
  cases result with
  | plain => exact hsuccess
  | pipeline r k =>
    simp only [finishTask]
    split
    · refine .of_stop (s := .completed) id now (by simp) (finishTaskCancellationRecovery_stop _ _ _).tasks
        rfl (fun t ht => ?_) fun i t hne ht hr => ?_
      · simp only [finishTaskCancellationRecovery, Table.get?_update, Option.map_eq_some_iff] at ht
        obtain ⟨x, hx, rfl⟩ := ht
        split
        · exact fun h => by cases h
        · rename_i hn
          exact fun h => hn (by simp [h, hp x hx])
      · simp [finishTaskCancellationRecovery, ht, hne, hr]
    · split
      · refine .of_stop (s := .completed) id now (by simp)
          (finishTaskWaitingHuman_stop _ _ _).tasks ?_ (fun t ht => ?_) fun i t hne ht hr => ?_
        · unfold finishTaskWaitingHuman
          dsimp only
          split <;> rfl
        · unfold finishTaskWaitingHuman at ht
          dsimp only at ht
          split at ht
          all_goals
            simp only [Table.get?_update, Option.map_eq_some_iff] at ht
            obtain ⟨x, hx, rfl⟩ := ht
            split
            · exact fun h => by cases h
            · rename_i hn
              exact fun h => hn (by simp [h, hp x hx])
        · unfold finishTaskWaitingHuman
          dsimp only
          split <;> simp [ht, hne, hr]
      · exact hsuccess

theorem finishTaskFailure_closed {s : Store} {rt : ReservedTask} {current : Task}
    (ht : g.tasks.get? rt.taskId = some current) (e : String) (now : Time) :
    GraphClosed g (finishTaskFailure g s rt e now) rt.taskId rt.attemptId := by
  simp only [finishTaskFailure, ht]
  split
  · exact gateBlock_closed g rt (by simp) (some e) now
  · refine ⟨.updateAt (fun t _ => ⟨rfl, ?_⟩) fun i t _ hne => ⟨rfl, ?_⟩, ?_⟩
    · rw [if_pos rfl]
      rcases current.statusAfterFailure_cases with h | h <;> simp [h]
    · rw [if_neg hne]
      exact ⟨.rfl, id⟩
    · refine .update (fun k x _ hx => ⟨rfl, rfl, ?_⟩) fun k x _ hx => ⟨rfl, rfl, ?_⟩
      · rw [if_pos (of_decide_eq_true hx).1]
        exact fun h => by cases h
      · split
        · rename_i heq
          exact fun h => (decide_eq_false_iff_not.1 hx) ⟨heq, h⟩
        · rfl

/-! ### Restart -/

/-- No attempt is opened, so the open attempts of a task are as few as before. -/
theorem Graph.Open.keeps {i : TaskId} {j : AttemptId} (ho : g.Open i j)
    (h : Table.Related (fun _ x x' => x'.taskId = x.taskId ∧ (x'.status = .running → x.status = .running))
      g.attempts g'.attempts) : g'.Open i j := by
  refine ⟨fun x' hx' => ?_, fun k x' hx' hi hr => ?_⟩
  · obtain ⟨x, hx, htask, -⟩ := h.back hx'
    exact htask.trans (ho.task x hx)
  · obtain ⟨x, hx, htask, hst⟩ := h.back hx'
    exact ho.alone k x hx (htask ▸ hi) (hst hr)

theorem GraphClosed.keeps {i : TaskId} {j : AttemptId} (h : GraphClosed g g' i j) :
    Table.Related (fun _ x x' => x'.taskId = x.taskId ∧ (x'.status = .running → x.status = .running))
      g.attempts g'.attempts := by
  refine h.attempts.mono fun k x x' _ _ ⟨htask, _, hst⟩ => ⟨htask, fun hr => ?_⟩
  split at hst
  · exact absurd hr hst
  · exact hst ▸ hr

/-- The writes that give up a row: its task gets a status that is not `RUNNING`, its attempt too. -/
theorem GraphClosed.write {i : TaskId} {j : AttemptId} {f : Task → Task} {p : AttemptId → Attempt → Bool}
    {q : Attempt → Attempt} (hf : ∀ t, (f t).attemptCount = t.attemptCount ∧ (f t).status ≠ .running)
    (hp : ∀ k x, p k x = true → k = j) (hall : ∀ x, x.status = .running → p j x = true)
    (hq : ∀ x, (q x).taskId = x.taskId ∧ (q x).attemptNumber = x.attemptNumber ∧
      (q x).status ≠ .running) :
    GraphClosed g { g with attempts := g.attempts.update p q, tasks := g.tasks.updateAt i f } i j := by
  refine ⟨.updateAt (fun t _ => ⟨(hf t).1, ?_⟩) fun k t _ hne => ⟨rfl, ?_⟩,
    .update (fun k x _ hx => ⟨(hq x).1, (hq x).2.1, ?_⟩) fun k x _ hx => ⟨rfl, rfl, ?_⟩⟩
  · rw [if_pos rfl]
    exact (hf t).2
  · rw [if_neg hne]
    exact ⟨.rfl, id⟩
  · rw [if_pos (hp k x hx)]
    exact (hq x).2.2
  · split
    · rename_i heq
      subst heq
      intro hr
      rw [hall x hr] at hx
      cases hx
    · rfl

/-- One turn of the restart closes the attempt of its row or leaves it open under a running task. -/
theorem reconcileInterruptedTask_closed {s : Store} {now : Time} {row : InterruptedTask} {j : AttemptId}
    {x : Attempt} (hj : row.attempt = some (j, x)) :
    GraphClosed g (reconcileInterruptedTask s now g row) row.taskId j ∨
      GraphIdle g (reconcileInterruptedTask s now g row) := by
  have hnext : row.task.statusAfterFailure ≠ .running := by
    rcases row.task.statusAfterFailure_cases with h | h <;> rw [h] <;> simp
  have hgive : ∀ reason reason' finish, GraphClosed g { g with
      attempts := g.attempts.updateAt j (Attempt.abandoned reason now)
      tasks := g.tasks.updateAt row.taskId
        (Task.rescheduled row.task.statusAfterFailure reason' finish now) } row.taskId j := by
    intro reason reason' finish
    exact .write (fun t => ⟨rfl, hnext⟩) (fun _ _ hp => of_decide_eq_true hp) (fun _ _ => by simp)
      fun _ => ⟨rfl, rfl, fun h => by cases h⟩
  simp only [reconcileInterruptedTask, hj]
  split
  · exact .inl (.write (fun t => ⟨rfl, hnext⟩) (fun _ _ hp => (of_decide_eq_true hp).1)
      (fun _ hr => by simp [hr]) fun _ => ⟨rfl, rfl, fun h => by cases h⟩)
  · split
    · exact .inl (hgive _ _ _)
    · split
      · exact .inl (hgive _ _ _)
      · split
        · exact .inl (hgive _ _ _)
        · split
          · exact .inl (.write (fun t => ⟨rfl, fun h => by cases h⟩) (fun _ _ hp => of_decide_eq_true hp)
              (fun _ _ => by simp) fun _ => ⟨rfl, rfl, fun h => by cases h⟩)
          · refine .inr ⟨⟨.refl fun _ _ _ => .rfl, .updateAt (fun _ _ => ⟨rfl, rfl, rfl⟩)
              fun _ _ _ _ => .rfl⟩, fun i t t' h h' hr => ?_⟩
            rw [h] at h'
            cases h'
            exact hr

/-- In a book that is in order every interrupted task is listed with its one open attempt. -/
theorem AttemptBook.interrupted (hB : AttemptBook g) {row : InterruptedTask}
    (hrow : row ∈ g.interruptedTasks) : ∃ j x, row.attempt = some (j, x) ∧ g.Open row.taskId j := by
  simp only [Graph.interruptedTasks, List.mem_flatMap, Prod.exists, Table.mem_select,
    decide_eq_true_eq] at hrow
  obtain ⟨i, t, ⟨ht, hrun⟩, hrow⟩ := hrow
  split at hrow
  · rename_i hnil
    obtain ⟨j, x, hx, hxi, -, hxr⟩ := hB.current i t ht hrun
    have hmem : (j, x) ∈ g.attempts.select fun _ a => a.taskId = i ∧ a.status = .running :=
      Table.mem_select.2 ⟨hx, decide_eq_true ⟨hxi, hxr⟩⟩
    rw [hnil] at hmem
    cases hmem
  · obtain ⟨⟨j, x⟩, hx, rfl⟩ := List.mem_map.1 hrow
    obtain ⟨hx, hp⟩ := Table.mem_select.1 hx
    obtain ⟨hxi, hxr⟩ := of_decide_eq_true hp
    exact ⟨j, x, rfl, hB.open hx hxi ht hxr⟩

theorem foldl_reconcile_book {s : Store} {now : Time} {P : AttemptId → Prop} :
    ∀ (rows : List InterruptedTask) (g : Graph), AttemptBook g →
      (∀ r ∈ rows, ∃ j x, r.attempt = some (j, x) ∧ g.Open r.taskId j) →
      AttemptBook (rows.foldl (reconcileInterruptedTask s now) g) ∧
        (g.Held P → (rows.foldl (reconcileInterruptedTask s now) g).Held P)
  | [], g, hB, _ => ⟨hB, id⟩
  | row :: rows, g, hB, hrows => by
      obtain ⟨j, x, hj, ho⟩ := hrows row List.mem_cons_self
      rw [List.foldl_cons]
      rcases reconcileInterruptedTask_closed (g := g) hj with hc | hi
      · obtain ⟨hB', hH'⟩ := foldl_reconcile_book rows _ (hB.closed ho hc) fun r hr => by
          obtain ⟨k, y, hk, hopen⟩ := hrows r (List.mem_cons_of_mem _ hr)
          exact ⟨k, y, hk, hopen.keeps hc.keeps⟩
        exact ⟨hB', fun hH => hH' (hH.closed ho hc fun _ _ h => h)⟩
      · obtain ⟨hB', hH'⟩ := foldl_reconcile_book rows _ (hB.quiet hi.toGraphQuiet) fun r hr => by
          obtain ⟨k, y, hk, hopen⟩ := hrows r (List.mem_cons_of_mem _ hr)
          exact ⟨k, y, hk, hopen.keeps (hi.attempts.mono fun _ _ _ _ _ h =>
            ⟨h.task, fun hr => h.status ▸ hr⟩)⟩
        refine ⟨hB', fun hH => hH' (hH.quiet hi.toGraphQuiet (fun _ h => h) ?_)⟩
        intro k y t t' _ ht ht' _ hrun hn
        exact absurd (hi.runs _ t t' ht ht' hrun) hn

theorem reconcile_book {s : Store} {now : Time} {P : AttemptId → Prop} (hB : AttemptBook g) :
    AttemptBook (reconcileInterruptedTasks g s now) ∧
      (g.Held P → (reconcileInterruptedTasks g s now).Held P) :=
  foldl_reconcile_book _ g hB fun _ hr => hB.interrupted hr

/-! ### One step -/

/-- The run that the step marks for recovery, if its cleanup turns out incomplete. -/
def marking (a : Action) (w : World) : Option RunId :=
  match a with
  | .thread j _ _ false =>
    (w.daemon.threads.get? j).bind fun t =>
      match t.stage with
      | .unwinding r _ (.marking _) => some r
      | _ => none
  | .janitor _ _ false =>
    match w.daemon.janitor with
    | (r :: _, .marking _) => some r
    | _ => none
  | _ => none

/-- What a step does to the books. -/
inductive BookStep (w w' : World) (a : Action) : Prop
  | idle : GraphIdle w.db.graph w'.db.graph → BookStep w w' a
  | marked {r reason now} : marking a w = some r →
    w'.db.graph = (markCancellationCleanupRecovery w.db.graph w.db.store r reason now).2.1 → BookStep w w' a
  | returned {j now pid rt result} : a = .thread j now pid false →
    w.daemon.threads.get? j = some ⟨rt, .returning result⟩ →
    w'.db.graph = finishTask w.db rt result now → BookStep w w' a
  | failed {j now pid rt e} : a = .thread j now pid false →
    w.daemon.threads.get? j = some ⟨rt, .raising e⟩ →
    w'.db.graph = finishTaskFailure w.db.graph w.db.store rt e now → BookStep w w' a
  | reserved {i j now task} : a = .graph (.reserve i j now) →
    reserveAttempt w.db i j now = .ok (w'.db.graph, task) →
    w.daemon.threads.insert j
      ⟨⟨i, task.planId, task.kind, task.projectId, task.taskKey, j⟩, .reserved⟩ =
        some w'.daemon.threads → BookStep w w' a
  | reconciled {now} : a = .graph (.reconcile now) → w.daemon.threads.rows = [] →
    w'.db.graph = reconcileInterruptedTasks w.db.graph w.db.store now → BookStep w w' a
  | inserted {p} : GraphInserted w.db.graph w'.db.graph p → BookStep w w' a
  | deleted {p} : GraphDeleted w.db.graph w'.db.graph p → BookStep w w' a

variable {h : History} {config : Config} {w w' : World} {a : Action}

theorem BookStep.of_eq (h : w'.db.graph = w.db.graph) : BookStep w w' a :=
  .idle (.of_eq (by rw [h]) (by rw [h]))

theorem cli_books (config : Config) (id : ObjectiveId) (c : ObjectiveCommand) (now : Time) (a : Action) :
    BookStep w (w.objectiveStep config (.cli id c now)) a := by
  rw [World.objectiveStep_cli]
  cases hc : c.apply w.db id now with
  | error e => exact .of_eq rfl
  | ok qg =>
    rcases ObjectiveCommand.apply_graph hc with hg | ⟨o, -, -, -, -, -, hg⟩
    · exact .of_eq hg
    · refine .idle ?_
      have : (w.setQueueGraph qg).db.graph = cancelPlanInTransaction w.db.graph o.planId now := hg
      rw [this]
      exact cancelPlan_graphIdle _ _ _

theorem objective_books (config : Config) (b : ObjectiveAction) :
    BookStep w (w.objectiveStep config b) (.objective b) := by
  cases b with
  | submit i s now =>
    simp only [World.objectiveStep]
    split
    · exact .of_eq rfl
    · split <;> exact .of_eq rfl
  | submitPlan p planId firstTask test now =>
    simp only [World.objectiveStep]
    split
    · rename_i g hg
      exact .inserted (drawPlan_some hg).1.toGraphInserted
    · exact .of_eq rfl
  | attachPlan p i s now =>
    simp only [World.objectiveStep]
    split
    · exact .of_eq rfl
    · cases hi : insertObjective w.db i { s with planId := some p } now with
      | ok q => simp only [World.db] at hi ⊢; simp only [hi]; exact .of_eq rfl
      | error e =>
        simp only [World.db] at hi ⊢; simp only [hi]
        exact .deleted (deletePlan_deleted w.db p)
  | dropSubmission p => exact .of_eq rfl
  | cli i c now => exact cli_books config i c now _
  | controller i c now => rw [World.objectiveStep_controller]; exact cli_books config i c now _
  | synchronize now =>
    refine .idle ?_
    have hg : (w.objectiveStep config (.synchronize now)).db.graph =
        sweepGraph w.db now (sweepRows w.db) w.db.graph := (synchronizeObjectiveStates_spec w.db now).2.2
    rw [hg]
    exact sweepGraph_idle _ _ _ _
  | promote i now =>
    simp only [World.objectiveStep]
    split
    · rename_i q g p hpro
      obtain ⟨row, plan, -, -, -, -, -, rfl⟩ := promotePlannedObjective_some hpro
      split
      · exact .idle (.of_eq rfl rfl)
      · exact .of_eq rfl
    · exact .of_eq rfl
  | reserve i j now =>
    simp only [World.objectiveStep]
    split
    · exact .of_eq rfl
    · split
      · exact .of_eq rfl
      · exact .of_eq rfl
      · exact .of_eq rfl
      · split <;> exact .of_eq rfl
  | reconcile now =>
    simp only [World.objectiveStep]
    split <;> exact .of_eq rfl

theorem planner_books (config : Config) {i : ObjectiveAttemptId} {planner : Planner} (b : PlannerAction) :
    BookStep w (w.plannerStep config i planner b) (.planner i b) := by
  obtain ⟨id, stage⟩ := planner
  cases b with
  | insert p planId firstTask now =>
    cases stage with
    | generating =>
      simp only [World.plannerStep]
      split
      · rename_i g hg
        exact .inserted (drawPlan_some hg).1.toGraphInserted
      · exact .of_eq rfl
    | _ => exact .of_eq rfl
  | raise e => cases stage <;> exact .of_eq rfl
  | failure now => cases stage <;> exact .of_eq rfl
  | success now =>
    cases stage with
    | generated p =>
      simp only [World.plannerStep]
      cases hs : finishObjectivePlanningSuccess w.db id i p now with
      | error e => exact .of_eq rfl
      | ok qg =>
        obtain ⟨row, -, -, -, -, -, -, -, -, -, hg⟩ := finishObjectivePlanningSuccess_ok hs
        refine .idle ?_
        have hgraph : ((w.setQueueGraph qg).endPlanner i).db.graph =
          plannedGraph w.db.graph p now row.status := hg
        rw [hgraph]
        cases row.status with
        | cancelRequested => exact cancelPlan_graphIdle w.db.graph (some p) now
        | _ => exact .of_eq rfl rfl
    | _ => exact .of_eq rfl

theorem graph_books (b : GraphAction) : BookStep w (w.graphStep b) (.graph b) := by
  cases b with
  | importPlan p planId firstTask test ready now =>
    simp only [World.graphStep]
    split
    · rename_i g hg
      exact .inserted (drawPlan_some hg).1.toGraphInserted
    · exact .of_eq rfl
  | activate p now =>
    simp only [World.graphStep, commandActivate]
    split
    · rename_i g hg
      split at hg
      · cases hg
        exact .idle (.of_eq rfl rfl)
      · cases hg
    · exact .of_eq rfl
  | cancelPlan p now =>
    simp only [World.graphStep]
    split
    · rename_i g hg
      exact .idle (commandCancelPlan_idle hg)
    · exact .of_eq rfl
  | refresh p now => exact .idle (refresh_idle _ _ _ _)
  | reserve i j now =>
    simp only [World.graphStep]
    split
    · exact .of_eq rfl
    · rename_i g task hr
      split
      · rename_i threads hins
        exact .reserved rfl hr hins
      · exact .of_eq rfl
  | reconcile now =>
    simp only [World.graphStep]
    split
    · exact .of_eq rfl
    · rename_i hthreads
      rw [ne_eq, not_not] at hthreads
      exact .reconciled rfl hthreads rfl

theorem thread_books {j : AttemptId} {t : Thread} (hj : w.daemon.threads.get? j = some t)
    (now : Time) (pid : Pid) (fault : Bool) (owner : String) :
    BookStep w (w.threadStep j now pid fault t.task owner t.stage) (.thread j now pid fault) := by
  obtain ⟨rt, stage⟩ := t
  have hw := World.threadStep_write j now pid fault w rt owner stage
  generalize w.threadStep j now pid fault rt owner stage = w' at hw ⊢
  generalize hd : w'.db = d at hw
  cases hw with
  | quiet => exact .of_eq (by rw [hd])
  | @mark r after reason hf =>
    subst hf
    exact .marked (r := r) (by simp [marking, hj]) (by rw [hd]; rfl)
  | link hf =>
    refine .idle ?_
    rw [hd]
    exact link_idle _ _ _ _
  | finish hf =>
    subst hf
    exact .returned rfl hj (by rw [hd])
  | fail hf =>
    subst hf
    exact .failed rfl hj (by rw [hd])

theorem book_step (h : History) (config : Config) (w : World) (a : Action) :
    BookStep w (w.step h config a) a := by
  cases a with
  | objective b => exact objective_books config b
  | planner i b =>
    simp only [World.step]
    split
    · exact planner_books config b
    · exact .of_eq rfl
  | graph b => exact graph_books b
  | thread j now pid fault =>
    simp only [World.step]
    split
    · rename_i t hj
      exact thread_books hj now pid fault _
    · exact .of_eq rfl
  | janitorStart =>
    simp only [World.step]
    split <;> exact .of_eq rfl
  | janitor now pid fault =>
    simp only [World.step]
    rcases World.janitorStep_db now pid fault w with hd | ⟨r, rest, reason, rfl, hj, hd⟩
    · exact .of_eq (by rw [hd])
    · exact .marked (r := r) (by simp [marking, hj]) (by rw [hd]; rfl)
  | operator pid stage =>
    simp only [World.step]
    split
    · exact .of_eq (by simp)
    · exact .of_eq rfl
  | process pid now fresh fault =>
    exact .of_eq (World.stepProcess_queueGraph h pid now fresh fault w).2
  | kill pid => exact .of_eq (by simp [World.step])
  | crash => exact .of_eq rfl
  | environment b => exact .of_eq (World.environmentStep_queueGraph h w b).2

/-! ### The books over a run -/

/-- The books are in order, and the attempt of a thread is open under its own identifier. -/
structure AttemptInv (w : World) : Prop where
  book : AttemptBook w.db.graph
  named : ∀ j t, w.daemon.threads.get? j = some t → t.task.attemptId = j
  alive : ∀ j t x, w.daemon.threads.get? j = some t → w.db.graph.attempts.get? j = some x →
    x.status = .running

theorem mark_attempts (g : Graph) (s : Store) (r : RunId) (reason : String) (now : Time) :
    (markCancellationCleanupRecovery g s r reason now).2.1.attempts = g.attempts := by
  unfold markCancellationCleanupRecovery
  split
  · rfl
  · split
    · rfl
    · split <;> rfl

theorem mark_quiet (g : Graph) (s : Store) (r : RunId) (reason : String) (now : Time) :
    GraphQuiet g (markCancellationCleanupRecovery g s r reason now).2.1 :=
  ⟨(markCancellationCleanupRecovery_stop g s r reason now).tasks.mono fun _ _ _ _ _ h => .of_stop h,
    attemptsQuiet_of_eq (mark_attempts g s r reason now)⟩

/-- The attempt of a thread is the one open attempt of its task. -/
theorem AttemptInv.open (hI : AttemptInv w) (hL : LinkInv w) {j : AttemptId} {t : Thread}
    (hj : w.daemon.threads.get? j = some t) : w.db.graph.Open t.task.taskId j := by
  cases ht : w.db.graph.tasks.get? t.task.taskId with
  | none =>
    refine ⟨fun x hx => (hL.agreed j t x hj hx).1, fun k x hx hi => ?_⟩
    have := hL.placed k x hx
    rw [hi, ht] at this
    cases this
  | some task =>
    obtain ⟨x, hx⟩ := Option.isSome_iff_exists.1 (hL.present j t task hj ht).2.2
    exact hI.book.open hx (hL.agreed j t x hj hx).1 ht (hI.alive j t x hj hx)

/-- The last transaction of a thread closes its attempt, unless the task is gone. -/
theorem AttemptInv.closes (hI : AttemptInv w) (hL : LinkInv w) {j : AttemptId} {rt : ReservedTask}
    {result : TaskResult} (hj : w.daemon.threads.get? j = some ⟨rt, .returning result⟩) (now : Time) :
    GraphClosed w.db.graph (finishTask w.db rt result now) rt.taskId j := by
  have hname : rt.attemptId = j := hI.named j _ hj
  rw [← hname]
  exact finishTask_closed (fun t ht => (hL.present j _ t hj ht).1) result now

theorem AttemptInv.closes_failed (hI : AttemptInv w) {j : AttemptId} {rt : ReservedTask} {e : String}
    (hj : w.daemon.threads.get? j = some ⟨rt, .raising e⟩) (now : Time) :
    GraphClosed w.db.graph (finishTaskFailure w.db.graph w.db.store rt e now) rt.taskId j ∨
      finishTaskFailure w.db.graph w.db.store rt e now = w.db.graph := by
  have hname : rt.attemptId = j := hI.named j _ hj
  cases ht : w.db.graph.tasks.get? rt.taskId with
  | none => exact .inr (by simp only [finishTaskFailure, ht])
  | some task => rw [← hname]; exact .inl (finishTaskFailure_closed ht e now)

theorem AttemptInv.step_book (hI : AttemptInv w) (hL : LinkInv w) (hs : BookStep w w' a) :
    AttemptBook w'.db.graph := by
  cases hs with
  | idle h => exact hI.book.quiet h.toGraphQuiet
  | marked _ h => rw [h]; exact hI.book.quiet (mark_quiet ..)
  | returned _ hj h => rw [h]; exact hI.book.closed (hI.open hL hj) (hI.closes hL hj _)
  | @failed j now pid rt e _ hj h =>
    rw [h]
    rcases hI.closes_failed hj now with hc | heq
    · exact hI.book.closed (hI.open hL hj) hc
    · rw [heq]; exact hI.book
  | reserved _ hr _ => exact hI.book.reserved hr
  | reconciled _ _ h => rw [h]; exact (reconcile_book (P := fun _ => True) hI.book).1
  | inserted h => exact hI.book.inserted h hL.placed
  | deleted h => exact hI.book.deleted h

/-- A thread that is still there has not closed its attempt. -/
theorem AttemptInv.step_alive (hI : AttemptInv w) (hL : LinkInv w) (hs : BookStep w w' a) {j : AttemptId}
    {t : Thread} {x' : Attempt} (hj : w.daemon.threads.get? j = some t)
    (hlast : ∀ now pid, a = .thread j now pid false → t.stage.isLast = false)
    (hx : w'.db.graph.attempts.get? j = some x') : x'.status = .running := by
  have hquiet : GraphQuiet w.db.graph w'.db.graph → x'.status = .running := by
    intro h
    obtain ⟨x, hx, hk⟩ := h.attempts.back hx
    exact hk.status.trans (hI.alive j t x hj hx)
  have hclosed : ∀ {i k}, k ≠ j → GraphClosed w.db.graph w'.db.graph i k → x'.status = .running := by
    intro i k hne h
    obtain ⟨x, hx, -, -, hst⟩ := h.attempts.back hx
    rw [if_neg (Ne.symm hne)] at hst
    exact hst.trans (hI.alive j t x hj hx)
  cases hs with
  | idle h => exact hquiet h.toGraphQuiet
  | marked _ h => exact hquiet (by rw [h]; exact mark_quiet ..)
  | @returned k now pid rt result ha hk h =>
    refine hclosed (k := k) ?_ (by rw [h]; exact hI.closes hL hk _)
    rintro rfl
    rw [hj] at hk
    cases hk
    cases hlast now pid ha
  | @failed k now pid rt e ha hk h =>
    rcases hI.closes_failed hk now with hc | heq
    · refine hclosed (k := k) ?_ (by rw [h]; exact hc)
      rintro rfl
      rw [hj] at hk
      cases hk
      cases hlast now pid ha
    · exact hquiet (.of_eq (h.trans heq))
  | @reserved i k now task _ hr hins =>
    obtain ⟨-, -, -, x₀, -, -, hx₀r, hinsert⟩ := reserveAttempt_rows hr
    rw [Table.get?_insert hinsert] at hx
    split at hx
    · cases hx
      exact hx₀r
    · exact hI.alive j t x' hj hx
  | reconciled _ hthreads _ =>
    rw [← Table.mem_rows_iff, hthreads] at hj
    cases hj
  | inserted h => rw [h.attempts] at hx; exact hI.alive j t x' hj hx
  | deleted h => exact hI.alive j t x' hj ((h.attempts j x').1 hx).1

theorem AttemptInv.step (hI : AttemptInv w) (hL : LinkInv w) (h : History) (config : Config) (a : Action) :
    AttemptInv (w.step h config a) := by
  have hs := book_step h config w a
  refine ⟨hI.step_book hL hs, fun j t' hj => ?_, fun j t' x' hj hx => ?_⟩
  · cases World.thread_origin h config w a hj with
    | kept ht => exact hI.named j t' ht
    | moved ht htask => rw [htask]; exact hI.named j _ ht
    | reserved _ _ _ he => rw [he]
  · cases World.thread_origin h config w a hj with
    | kept ht hlast => exact hI.step_alive hL hs ht (fun now pid ha => hlast now pid false ha) hx
    | @moved t now pid fault ht _ ha _ hlast =>
      refine hI.step_alive hL hs ht (fun now' pid' ha' => ?_) hx
      rw [ha] at ha'
      cases ha'
      cases hl : t.stage.isLast with
      | false => rfl
      | true => cases hlast hl
    | @reserved i now g task ha hr hg he hnone =>
      subst hg
      obtain ⟨-, -, -, x₀, -, -, hx₀r, hinsert⟩ := reserveAttempt_rows hr
      rw [Table.get?_insert hinsert, if_pos rfl] at hx
      cases hx
      exact hx₀r

theorem attemptInv_reachable {ok : Action → World → Prop} (hw : (machine h config).Reachable ok w) :
    AttemptInv w := by
  refine Machine.invariant (m := machine h config) (I := AttemptInv) (fun s hs => ?_)
    (fun a s hs _ hI => hI.step (linkInv_reachable hs) h config a) hw
  obtain ⟨projects, -, rfl⟩ := hs
  exact ⟨.empty, fun _ _ ht => (by cases ht), fun _ _ _ ht => (by cases ht)⟩

/-! ### Open attempts of tasks that do not run -/

/-- The attempt is open although its task does not run. -/
def World.unfinished (w : World) (j : AttemptId) : Bool :=
  (w.db.graph.attempts.get? j).any fun x => x.status = .running ∧
    (w.db.graph.tasks.get? x.taskId).any fun t => t.status ≠ .running

/-- `mark_cancellation_cleanup_recovery` gets past its returns. -/
def Store.marks (s : Store) (r : RunId) : Bool :=
  (s.runs.get? r).any fun run => ¬(run.status = .cancelled ∧ ¬s.lockPresent r) ∧ run.status ≠ .completed

/-- A running task of the run has an open attempt without a thread. -/
def World.deserted (w : World) (r : RunId) : Bool :=
  w.db.graph.attempts.any fun j x => x.status = .running ∧ (w.daemon.threads.get? j).isNone ∧
    w.db.graph.taskLinks x.taskId r ∧
    (w.db.graph.tasks.get? x.taskId).any fun t => t.status = .running

/-- The step leaves an open attempt to nobody: its thread dies, by a crash or in the failure handler, after
    the task was taken out of `RUNNING`; or a cleanup marks a running task that has no thread any more. -/
def orphans (a : Action) (w : World) : Bool :=
  match a with
  | .crash => w.daemon.threads.any fun j _ => w.unfinished j
  | .thread j _ _ true =>
    w.unfinished j && (w.daemon.threads.get? j).any fun t => t.stage.isRaising
  | a => (marking a w).any fun r => w.db.store.marks r && w.deserted r

/-- The threads after a step: only a crash or its last step takes one away. -/
theorem thread_stays {j : AttemptId} (hj : (w.daemon.threads.get? j).isSome)
    (hcrash : a ≠ .crash) (hlast : ∀ now pid fault t, a = .thread j now pid fault →
      w.daemon.threads.get? j = some t → t.stage.isLast = false) :
    ((w.step h config a).daemon.threads.get? j).isSome := by
  have kept : (w.step h config a).daemon.threads = w.daemon.threads →
      ((w.step h config a).daemon.threads.get? j).isSome := fun heq => by rw [heq]; exact hj
  cases a with
  | objective b => exact kept (World.objectiveStep_threads config w b)
  | planner i b =>
    refine kept ?_
    simp only [World.step]
    split
    · exact World.plannerStep_threads ..
    · rfl
  | graph b =>
    cases b with
    | reserve i k now =>
      simp only [World.step, World.graphStep]
      split
      · exact hj
      · rename_i g task hr
        split
        · rename_i threads hins
          change (threads.get? j).isSome
          rw [Table.get?_insert hins]
          split
          · rfl
          · exact hj
        · exact hj
    | _ =>
      refine kept ?_
      simp only [World.step, World.graphStep]
      repeat' split
      all_goals rfl
  | thread k now pid fault =>
    simp only [World.step]
    cases hk : w.daemon.threads.get? k with
    | none => exact hj
    | some t =>
      simp only
      have hafter := World.threadStep_threads k now pid fault w t.task
        s!"orchestrator:{t.task.taskKey}" t.stage
      generalize (w.threadStep k now pid fault t.task s!"orchestrator:{t.task.taskKey}"
        t.stage).daemon.threads = threads at hafter ⊢
      cases hafter with
      | same _ => exact hj
      | moved _ _ =>
        rw [Table.get?_updateAt]
        split
        · rw [Option.isSome_map]; exact hj
        · exact hj
      | ended hend =>
        have hne : j ≠ k := by
          rintro rfl
          rw [hlast now pid fault t rfl hk] at hend
          cases hend
        rw [Table.get?_delete_key, if_neg hne]
        exact hj
  | janitorStart =>
    refine kept ?_
    simp only [World.step]
    split <;> rfl
  | janitor now pid fault => exact kept (World.janitorStep_threads ..)
  | operator pid stage =>
    refine kept ?_
    simp only [World.step]
    split <;> simp
  | process pid now fresh fault => exact kept (by simp only [World.step, World.stepProcess_daemon])
  | kill pid => exact kept (by simp [World.step])
  | crash => exact absurd rfl hcrash
  | environment b => exact kept (by simp only [World.step, World.environmentStep_daemon])

/-- Every open attempt of a task that does not run has its thread. -/
def World.Attended (w : World) : Prop := w.db.graph.Held fun j => (w.daemon.threads.get? j).isSome

theorem Graph.Held.mono {P Q : AttemptId → Prop} (hH : g.Held P) (hPQ : ∀ j, P j → Q j) : g.Held Q :=
  fun j x t hx ht hr hn => hPQ j (hH j x t hx ht hr hn)

theorem unfinished_of {j : AttemptId} {x : Attempt} {t : Task} (hx : w.db.graph.attempts.get? j = some x)
    (ht : w.db.graph.tasks.get? x.taskId = some t) (hr : x.status = .running) (hn : t.status ≠ .running) :
    w.unfinished j = true := by
  simp [World.unfinished, hx, ht, hr, hn]

theorem orphans_marking {r : RunId} (hm : marking a w = some r) :
    orphans a w = (w.db.store.marks r && w.deserted r) := by
  have heq : orphans a w = (marking a w).any fun r => w.db.store.marks r && w.deserted r := by
    unfold orphans
    split
    · simp [marking] at hm
    · simp [marking] at hm
    · rfl
  rw [heq, hm, Option.any_some]

/-- What the marking takes out of `RUNNING` is linked to the run. -/
theorem mark_stops {s : Store} {r : RunId} {reason : String} {now : Time} {i : TaskId} {t t' : Task}
    (ht : g.tasks.get? i = some t)
    (ht' : (markCancellationCleanupRecovery g s r reason now).2.1.tasks.get? i = some t')
    (hr : t.status = .running) (hn : t'.status ≠ .running) :
    s.marks r = true ∧ g.taskLinks i r = true := by
  unfold markCancellationCleanupRecovery at ht'
  split at ht'
  · rw [ht] at ht'; cases ht'; exact absurd hr hn
  · rename_i run hrun
    split at ht'
    · rw [ht] at ht'; cases ht'; exact absurd hr hn
    · rename_i hcancelled
      split at ht'
      · rw [ht] at ht'; cases ht'; exact absurd hr hn
      · rename_i hcompleted
        refine ⟨by rw [Store.marks, hrun]; exact decide_eq_true ⟨hcancelled, hcompleted⟩, ?_⟩
        by_contra hlink
        rw [Table.get?_update, ht, Option.map_some, if_neg] at ht'
        · cases ht'
          exact hn hr
        · intro hp
          exact hlink (of_decide_eq_true hp).1

/-- The last transaction of a thread leaves no attempt behind but one of a running task. -/
theorem Attended.step_last (hI : AttemptInv w) (hL : LinkInv w) (hA : w.Attended) {k : AttemptId}
    {now : Time} {pid : Pid} {fault : Bool} {t : Thread} (hk : w.daemon.threads.get? k = some t)
    (hlast : t.stage.isLast = true) (ho : orphans (.thread k now pid fault) w = false) :
    (w.step h config (.thread k now pid fault)).Attended := by
  obtain ⟨rt, stage⟩ := t
  have hothers : ∀ j, j ≠ k → (w.daemon.threads.get? j).isSome →
      ((w.step h config (.thread k now pid fault)).daemon.threads.get? j).isSome := by
    intro j hjk hj
    refine thread_stays hj (fun ha => by cases ha) fun now' pid' fault' u ha hu => ?_
    cases ha
    exact absurd rfl hjk
  unfold World.Attended at hA ⊢
  cases fault with
  | true =>
    cases stage with
    | returning result =>
      have hg : (w.step h config (.thread k now pid true)).db.graph = w.db.graph := by
        simp [World.step, hk, World.threadStep]
      rw [hg]
      refine hA.mono fun j hj => ?_
      by_cases hjk : j = k
      · subst hjk
        simp [World.step, hk, World.threadStep, World.setThread_threads_get?]
      · exact hothers j hjk hj
    | raising e =>
      have hg : (w.step h config (.thread k now pid true)).db.graph = w.db.graph := by
        simp [World.step, hk, World.threadStep]
      rw [hg]
      intro j x t hx ht hr hn
      have hjk : j ≠ k := by
        rintro rfl
        simp [orphans, hk, ThreadStage.isRaising, unfinished_of hx ht hr hn] at ho
      exact hothers j hjk (hA j x t hx ht hr hn)
    | _ => cases hlast
  | false =>
    cases stage with
    | returning result =>
      have hg : (w.step h config (.thread k now pid false)).db.graph = finishTask w.db rt result now := by
        simp [World.step, hk, World.threadStep]
      rw [hg]
      exact hA.closed (hI.open hL hk) (hI.closes hL hk now) hothers
    | raising e =>
      have hg : (w.step h config (.thread k now pid false)).db.graph =
          finishTaskFailure w.db.graph w.db.store rt e now := by
        simp [World.step, hk, World.threadStep]
      rw [hg]
      rcases hI.closes_failed hk now with hc | heq
      · exact hA.closed (hI.open hL hk) hc hothers
      · rw [heq]
        intro j x t hx ht hr hn
        refine hothers j ?_ (hA j x t hx ht hr hn)
        rintro rfl
        -- without its task the thread has no attempt
        have hxi := (hL.agreed j _ x hk hx).1
        rw [hxi] at ht
        have := (finishTaskFailure_closed (s := w.db.store) ht e now).attempts
        rw [heq] at this
        obtain ⟨y, hy, -, -, hst⟩ := this.forth hx
        rw [hx] at hy
        cases hy
        rw [if_pos (hI.named j _ hk).symm] at hst
        exact hst hr
    | _ => cases hlast

theorem Attended.step (hI : AttemptInv w) (hL : LinkInv w) (hA : w.Attended)
    (ho : orphans a w = false) : (w.step h config a).Attended := by
  by_cases hcrash : a = .crash
  · subst hcrash
    intro j x t hx ht hr hn
    obtain ⟨u, hu⟩ := Option.isSome_iff_exists.1 (hA j x t hx ht hr hn)
    have hleft : w.unfinished j = true := unfinished_of hx ht hr hn
    simp only [orphans, Table.any_eq_false_iff] at ho
    rw [ho j u hu] at hleft
    cases hleft
  by_cases hlast : ∃ k now pid fault t, a = .thread k now pid fault ∧
      w.daemon.threads.get? k = some t ∧ t.stage.isLast = true
  · obtain ⟨k, now, pid, fault, t, rfl, hk, hl⟩ := hlast
    exact Attended.step_last hI hL hA hk hl ho
  have hstays : ∀ j, (w.daemon.threads.get? j).isSome →
      ((w.step h config a).daemon.threads.get? j).isSome := by
    intro j hj
    refine thread_stays hj hcrash fun now pid fault t ha ht => ?_
    cases hl : t.stage.isLast with
    | false => rfl
    | true => exact absurd ⟨j, now, pid, fault, t, ha, ht, hl⟩ hlast
  unfold World.Attended at hA ⊢
  cases book_step h config w a with
  | idle hi =>
    refine hA.quiet hi.toGraphQuiet hstays fun j x t t' _ ht ht' _ hrun hn => ?_
    exact absurd (hi.runs _ t t' ht ht' hrun) hn
  | marked hm hg =>
    refine hA.quiet (by rw [hg]; exact mark_quiet ..) hstays fun j x t t' hx ht ht' hr hrun hn => ?_
    rw [hg] at ht'
    obtain ⟨hmarks, hlink⟩ := mark_stops ht ht' hrun hn
    rw [orphans_marking hm, hmarks, Bool.true_and, World.deserted, Table.any_eq_false_iff] at ho
    have hthread := ho j x hx
    simp only [hr, hlink, ht, hrun, Option.any_some, decide_true, true_and, and_true,
      decide_eq_false_iff_not, Option.isNone_iff_eq_none] at hthread
    exact hstays j (Option.isSome_iff_ne_none.2 hthread)
  | returned ha hj _ => exact absurd ⟨_, _, _, _, _, ha, hj, rfl⟩ hlast
  | failed ha hj _ => exact absurd ⟨_, _, _, _, _, ha, hj, rfl⟩ hlast
  | reserved _ hr _ => exact hA.reserved hr hstays
  | reconciled _ _ hg => rw [hg]; exact ((reconcile_book hI.book).2 hA).mono hstays
  | inserted hi => exact hA.inserted hi hL.placed hstays
  | deleted hd => exact hA.deleted hd hstays

theorem attended_reachable (hw : (machine h config).Reachable (fun a w => orphans a w = false) w) :
    w.Attended := by
  refine Machine.invariant (m := machine h config) (I := World.Attended) (fun s hs => ?_)
    (fun a s hs ho hA => ?_) hw
  · obtain ⟨projects, -, rfl⟩ := hs
    intro _ _ _ hx
    cases hx
  · exact Attended.step (attemptInv_reachable hs) (linkInv_reachable hs) hA ho

/-! ### Attempt bookkeeping -/

/-- The attempts of a task. -/
def Graph.attemptsOf (g : Graph) (i : TaskId) : List Attempt :=
  (g.attempts.select fun _ x => x.taskId = i).map Prod.snd

/-- The numbers of its `RUNNING` attempts. -/
def Graph.openNumbers (g : Graph) (i : TaskId) : List Nat :=
  ((g.attemptsOf i).filter fun x => x.status = .running).map Attempt.attemptNumber

/-- The attempts are numbered `1..attempt_count` within the budget, a running task has one `RUNNING`
    attempt, the last one, and a task that neither runs nor is held by a thread has none. -/
structure InOrder (w : World) (i : TaskId) (t : Task) : Prop where
  numbers : ((w.db.graph.attemptsOf i).map Attempt.attemptNumber).Perm (List.range' 1 t.attemptCount)
  budget : t.attemptCount ≤ t.maxAttempts
  running : t.status = .running → w.db.graph.openNumbers i = [t.attemptCount]
  settled : t.status ≠ .running → (w.daemon.threads.All fun _ u => u.task.taskId ≠ i) →
    w.db.graph.openNumbers i = []

theorem Graph.mem_attemptsOf {i : TaskId} {x : Attempt} :
    x ∈ g.attemptsOf i ↔ x.taskId = i ∧ ∃ j, g.attempts.get? j = some x := by
  simp only [Graph.attemptsOf, List.mem_map, Prod.exists, Table.mem_select, decide_eq_true_eq,
    exists_eq_right]
  exact ⟨fun ⟨j, hx, hi⟩ => ⟨hi, j, hx⟩, fun ⟨hi, j, hx⟩ => ⟨j, hx, hi⟩⟩

theorem AttemptBook.nodup_numbers (hB : AttemptBook g) (i : TaskId) :
    ((g.attemptsOf i).map Attempt.attemptNumber).Nodup := by
  rw [Graph.attemptsOf, List.map_map]
  refine List.Nodup.map_on (fun a ha b hb hn => ?_) (List.Nodup.of_map _ (Table.nodup_select_keys _ _))
  obtain ⟨j, x⟩ := a
  obtain ⟨k, y⟩ := b
  obtain ⟨hx, hxi⟩ := Table.mem_select.1 ha
  obtain ⟨hy, hyi⟩ := Table.mem_select.1 hb
  obtain rfl := hB.distinct j k x y hx hy ((of_decide_eq_true hxi).trans (of_decide_eq_true hyi).symm) hn
  rw [hx] at hy
  cases hy
  rfl

theorem AttemptBook.numbers (hB : AttemptBook g) {i : TaskId} {t : Task} (ht : g.tasks.get? i = some t) :
    ((g.attemptsOf i).map Attempt.attemptNumber).Perm (List.range' 1 t.attemptCount) := by
  refine (List.perm_ext_iff_of_nodup (hB.nodup_numbers i) List.nodup_range').2 fun n => ?_
  simp only [List.mem_map, Graph.mem_attemptsOf, List.mem_range'_1]
  constructor
  · rintro ⟨x, ⟨rfl, j, hx⟩, rfl⟩
    have := hB.within j x t hx ht
    omega
  · rintro ⟨h1, hn⟩
    obtain ⟨j, x, hx, hxi, hxn⟩ := hB.numbered i t ht n h1 (by omega)
    exact ⟨x, ⟨hxi, j, hx⟩, hxn⟩

theorem Graph.mem_openNumbers {i : TaskId} {n : Nat} : n ∈ g.openNumbers i ↔
    ∃ j x, g.attempts.get? j = some x ∧ x.taskId = i ∧ x.status = .running ∧ x.attemptNumber = n := by
  simp only [Graph.openNumbers, List.mem_map, List.mem_filter, Graph.mem_attemptsOf, decide_eq_true_eq]
  constructor
  · rintro ⟨x, ⟨⟨hi, j, hx⟩, hr⟩, hn⟩
    exact ⟨j, x, hx, hi, hr, hn⟩
  · rintro ⟨j, x, hx, hi, hr, hn⟩
    exact ⟨x, ⟨⟨hi, j, hx⟩, hr⟩, hn⟩

/-- The one open attempt of a running task is its last one. -/
theorem AttemptBook.open_running (hB : AttemptBook g) {i : TaskId} {t : Task}
    (ht : g.tasks.get? i = some t) (hr : t.status = .running) : g.openNumbers i = [t.attemptCount] := by
  have hnodup : (g.openNumbers i).Nodup := (hB.nodup_numbers i).sublist (List.filter_sublist.map _)
  have hperm : (g.openNumbers i).Perm [t.attemptCount] := by
    refine (List.perm_ext_iff_of_nodup hnodup (List.nodup_singleton _)).2 fun n => ?_
    rw [Graph.mem_openNumbers, List.mem_singleton]
    constructor
    · rintro ⟨j, x, hx, rfl, hxr, rfl⟩
      exact hB.latest j x t hx ht hxr
    · rintro rfl
      obtain ⟨j, x, hx, hi, hn, hxr⟩ := hB.current i t ht hr
      exact ⟨j, x, hx, hi, hxr, hn⟩
  exact List.perm_singleton.1 hperm

/-- In every state the attempts of every task are in order, as long as no step leaves an open attempt of a
    task that does not run, or is made not to run, without its thread. -/
theorem attempts_in_order (hw : (machine h config).Reachable (fun a w => orphans a w = false) w)
    {i : TaskId} {t : Task} (ht : w.db.graph.tasks.get? i = some t) : InOrder w i t := by
  have hall : (machine h config).Reachable (fun _ _ => True) w := hw.mono fun _ _ _ => trivial
  have hI := attemptInv_reachable hall
  refine ⟨hI.book.numbers ht, (withinLimits_reachable hall).budget i t ht, hI.book.open_running ht,
    fun hn hnone => ?_⟩
  rw [List.eq_nil_iff_forall_not_mem]
  intro n hmem
  obtain ⟨j, x, hx, rfl, hr, -⟩ := Graph.mem_openNumbers.1 hmem
  obtain ⟨u, hu⟩ := Option.isSome_iff_exists.1 (attended_reachable hw j x t hx ht hr hn)
  exact hnone j u hu ((linkInv_reachable hall).agreed j u x hu hx).1.symm

set_option maxRecDepth 20000 in
/-- The failure handler of the marked pipeline closes its attempt. -/
theorem attempts_in_order_marked : ∃ t,
    (Scenario.system.run Scenario.start (markedPipeline ++ [.thread 0 14 0 false])).db.graph.tasks.get? 0 =
      some t ∧
    InOrder (Scenario.system.run Scenario.start (markedPipeline ++ [.thread 0 14 0 false])) 0 t :=
  ⟨_, rfl, attempts_in_order (.run (.start Scenario.system_start) (by decide)) rfl⟩

set_option maxRecDepth 20000 in
/-- The daemon dies between the marking and the failure handler: the restart leaves the attempt of the
    `BLOCKED` task open. -/
theorem marked_attempt_open : ¬∀ (h : History) (config : Config) (w : World) (i : TaskId) (t : Task),
    (machine h config).Reachable (fun _ _ => True) w → w.db.graph.tasks.get? i = some t →
      InOrder w i t := by
  intro hall
  have hin := hall Scenario.history Scenario.config
    (Scenario.system.run Scenario.start (markedPipeline ++ [.crash, .graph (.reconcile 14)])) 0 _
    (.run (.start Scenario.system_start) (by decide)) rfl
  have hover := hin.settled (by decide) (fun _ _ hu => by cases hu)
  revert hover
  decide

end HermesOps
