import HermesOps.Properties.Sweep

/-! What each transaction on the orchestration graph does to the rows, one lemma for each. Most of
    them only stop work: a task is blocked or cancelled, or left as it is (`TaskStop`). The others
    are the refresh, the reservation, the two handlers that settle a task, and the reconciliation;
    the last two of these and the refresh are loops, and their lemmas are inductions over the rows
    with the graph at the start of the loop as the reference. -/

namespace HermesOps

open Schemes

/-! ### Shapes of change -/

/-- The columns no transaction rewrites. -/
structure Task.Carries (t t' : Task) : Prop where
  plan : t'.planId = t.planId
  kind : t'.kind = t.kind
  project : t'.projectId = t.projectId
  key : t'.taskKey = t.taskKey
  budget : t'.maxAttempts = t.maxAttempts

theorem Task.Carries.rfl {t : Task} : t.Carries t := ⟨.refl _, .refl _, .refl _, .refl _, .refl _⟩

theorem Task.Carries.trans {t t' t'' : Task} (h : t.Carries t') (h' : t'.Carries t'') :
    t.Carries t'' :=
  ⟨h'.plan.trans h.plan, h'.kind.trans h.kind, h'.project.trans h.project, h'.key.trans h.key,
    h'.budget.trans h.budget⟩

/-- The statuses a stopping transaction may find. -/
def TaskStatus.isOpen : TaskStatus → Bool
  | .pending | .ready | .running | .blocked => true
  | _ => false

/-- The task is left, blocked, or cancelled. -/
structure TaskStop (t t' : Task) : Prop where
  carries : t.Carries t'
  count : t'.attemptCount = t.attemptCount
  status : t'.status = t.status ∨
    (t.status.isOpen = true ∧ (t'.status = .blocked ∨ t'.status = .cancelled))

theorem TaskStop.rfl {t : Task} : TaskStop t t := ⟨.rfl, .refl _, .inl (.refl _)⟩

theorem TaskStop.blocked {t t' : Task} (hc : t.Carries t') (hn : t'.attemptCount = t.attemptCount)
    (hs : t.status.isOpen = true) (h : t'.status = .blocked) : TaskStop t t' :=
  ⟨hc, hn, .inr ⟨hs, .inl h⟩⟩

theorem TaskStop.cancelled {t t' : Task} (hc : t.Carries t')
    (hn : t'.attemptCount = t.attemptCount) (hs : t.status.isWaiting = true)
    (h : t'.status = .cancelled) : TaskStop t t' :=
  ⟨hc, hn, .inr ⟨by cases h' : t.status <;> simp_all [TaskStatus.isWaiting, TaskStatus.isOpen],
    .inr h⟩⟩

theorem TaskStop.trans {t t' t'' : Task} (h : TaskStop t t') (h' : TaskStop t' t'') :
    TaskStop t t'' := by
  refine ⟨h.carries.trans h'.carries, h'.count.trans h.count, ?_⟩
  rcases h.status with hs | ⟨ho, hs⟩ <;> rcases h'.status with hs' | ⟨ho', hs'⟩
  · exact .inl (hs'.trans hs)
  · exact .inr ⟨hs ▸ ho', hs'⟩
  · exact .inr ⟨ho, by rw [hs']; exact hs⟩
  · exact .inr ⟨ho, hs'⟩

/-- The statuses a plan is blocked from. -/
def PlanStatus.isLive : PlanStatus → Bool
  | .ready | .running | .blocked => true
  | _ => false

/-- The plan is left or blocked. -/
def PlanStop (x x' : Plan) : Prop :=
  x'.status = x.status ∨ (x.status.isLive = true ∧ x'.status = .blocked)

/-- The attempt keeps its task and its run. -/
def AttemptKept (x x' : Attempt) : Prop := x'.taskId = x.taskId ∧ x'.runId = x.runId

/-- A transaction that only stops work. -/
structure GraphStop (g g' : Graph) : Prop where
  tasks : Table.Related (fun _ => TaskStop) g.tasks g'.tasks
  plans : Table.Related (fun _ => PlanStop) g.plans g'.plans
  attempts : Table.Related (fun _ => AttemptKept) g.attempts g'.attempts
  dependencies : g'.dependencies = g.dependencies

theorem attemptsKept_refl (t : Table AttemptId Attempt) : Table.Related (fun _ => AttemptKept) t t :=
  .refl fun _ _ _ => ⟨rfl, rfl⟩

theorem tasksStop_refl (t : Table TaskId Task) : Table.Related (fun _ => TaskStop) t t :=
  .refl fun _ _ _ => .rfl

theorem plansStop_refl (t : Table PlanId Plan) : Table.Related (fun _ => PlanStop) t t :=
  .refl fun _ _ _ => .inl rfl

theorem GraphStop.rfl {g : Graph} : GraphStop g g :=
  ⟨tasksStop_refl _, plansStop_refl _, attemptsKept_refl _, .refl _⟩

/-- An `UPDATE` that blocks open tasks. -/
theorem tasksStop_block {t : Table TaskId Task} {p : TaskId → Task → Bool} {f : Task → Task}
    (hp : ∀ i x, p i x = true → x.status.isOpen = true)
    (hf : ∀ x, x.Carries (f x) ∧ (f x).attemptCount = x.attemptCount ∧ (f x).status = .blocked) :
    Table.Related (fun _ => TaskStop) t (t.update p f) :=
  .update (fun i x _ hx => .blocked (hf x).1 (hf x).2.1 (hp i x hx) (hf x).2.2) fun _ _ _ _ => .rfl

/-- An `UPDATE` that cancels waiting tasks. -/
theorem tasksStop_cancel {t : Table TaskId Task} {p : TaskId → Task → Bool} {f : Task → Task}
    (hp : ∀ i x, p i x = true → x.status.isWaiting = true)
    (hf : ∀ x, x.Carries (f x) ∧ (f x).attemptCount = x.attemptCount ∧ (f x).status = .cancelled) :
    Table.Related (fun _ => TaskStop) t (t.update p f) :=
  .update (fun i x _ hx => .cancelled (hf x).1 (hf x).2.1 (hp i x hx) (hf x).2.2) fun _ _ _ _ => .rfl

/-- An `UPDATE` that blocks live plans. -/
theorem plansStop_block {t : Table PlanId Plan} {p : PlanId → Plan → Bool} {f : Plan → Plan}
    (hp : ∀ i x, p i x = true → x.status.isLive = true) (hf : ∀ x, (f x).status = .blocked) :
    Table.Related (fun _ => PlanStop) t (t.update p f) :=
  .update (fun i x _ hx => .inr ⟨hp i x hx, hf x⟩) fun _ _ _ _ => .inl rfl

theorem finishAttempt_kept {g : Graph} {j : AttemptId} {s : AttemptStatus}
    {reason : Option String → Option String} {now : Time} :
    Table.Related (fun _ => AttemptKept) g.attempts (g.finishAttempt j s reason now) :=
  .update (fun _ _ _ _ => ⟨rfl, rfl⟩) fun _ _ _ _ => ⟨rfl, rfl⟩

/-! ### Handlers that stop work -/

theorem finishRunningTaskBlockedByHumanGate_stop (g : Graph) (t : ReservedTask) (s : AttemptStatus)
    (reason : Option String) (now : Time) :
    GraphStop g (finishRunningTaskBlockedByHumanGate g t s reason now) := by
  refine ⟨tasksStop_block (fun i x hx => ?_) fun x => ⟨⟨rfl, rfl, rfl, rfl, rfl⟩, rfl, rfl⟩,
    plansStop_refl _, finishAttempt_kept, rfl⟩
  rw [(of_decide_eq_true hx).2]; rfl

theorem finishTaskCancellationRecovery_stop (g : Graph) (t : ReservedTask) (now : Time) :
    GraphStop g (finishTaskCancellationRecovery g t now) := by
  refine ⟨tasksStop_block (fun i x hx => ?_) fun x => ⟨⟨rfl, rfl, rfl, rfl, rfl⟩, rfl, rfl⟩,
    plansStop_block (fun i x hx => ?_) fun _ => rfl, finishAttempt_kept, rfl⟩
  · rcases (of_decide_eq_true hx).2 with (h | h) | ⟨-, h⟩ <;> rw [h] <;> rfl
  · rcases (of_decide_eq_true hx).2 with h | h | h <;> rw [h] <;> rfl

theorem finishTaskWaitingHuman_stop (d : Database) (t : ReservedTask) (now : Time) :
    GraphStop d.graph (finishTaskWaitingHuman d t now) := by
  unfold finishTaskWaitingHuman
  simp only
  split
  · refine ⟨tasksStop_block (fun i x hx => ?_) fun x => ⟨⟨rfl, rfl, rfl, rfl, rfl⟩, rfl, rfl⟩,
      plansStop_block (fun i x hx => ?_) fun _ => rfl, finishAttempt_kept, rfl⟩
    · rcases (of_decide_eq_true hx).2 with h | h <;> rw [h] <;> rfl
    · rcases (of_decide_eq_true hx).2 with h | h | h <;> rw [h] <;> rfl
  · refine ⟨tasksStop_block (fun i x hx => ?_) fun x => ⟨⟨rfl, rfl, rfl, rfl, rfl⟩, rfl, rfl⟩,
      ?_, finishAttempt_kept, rfl⟩
    · rcases (of_decide_eq_true hx).2 with (h | h) | ⟨-, h⟩ <;> rw [h] <;> rfl
    · simp only
      split
      · exact .update (fun _ _ _ _ => .inl rfl) fun _ _ _ _ => .inl rfl
      · refine plansStop_block (fun i x hx => ?_) fun _ => rfl
        rcases (of_decide_eq_true hx).2 with h | h | h <;> rw [h] <;> rfl

theorem markCancellationCleanupRecovery_stop (g : Graph) (s : Store) (r : RunId) (reason : String)
    (now : Time) : GraphStop g (markCancellationCleanupRecovery g s r reason now).2.1 := by
  unfold markCancellationCleanupRecovery
  split
  · exact .rfl
  · split
    · exact .rfl
    · split
      · exact .rfl
      · refine ⟨tasksStop_block (fun i x hx => ?_) fun x => ⟨⟨rfl, rfl, rfl, rfl, rfl⟩, rfl, rfl⟩,
          plansStop_block (fun i x hx => ?_) fun _ => rfl, attemptsKept_refl _, rfl⟩
        · rcases (of_decide_eq_true hx).2 with h | h | h | h <;> rw [h] <;> rfl
        · rcases (of_decide_eq_true hx).2 with h | h | h <;> rw [h] <;> rfl

/-! ### Cancelling a plan -/

/-- The tasks of a cancelled plan stop; the plan itself is `cancelPlan_plans`. -/
theorem cancelPlan_stop (g : Graph) (p : Option PlanId) (now : Time) :
    Table.Related (fun _ => TaskStop) g.tasks (cancelPlanInTransaction g p now).tasks := by
  cases p with
  | none => exact tasksStop_refl _
  | some p =>
    refine tasksStop_cancel (fun i x hx => (of_decide_eq_true hx).2) fun x => ?_
    exact ⟨⟨rfl, rfl, rfl, rfl, rfl⟩, rfl, rfl⟩

/-- What cancelling plan `p` does to a plan row. -/
def PlanCancelled (p : Option PlanId) (q : PlanId) (x x' : Plan) : Prop :=
  x'.status = x.status ∨ (p = some q ∧ x.status.isTerminal = false ∧ x'.status = .cancelled)

theorem cancelPlan_related (g : Graph) (p : Option PlanId) (now : Time) :
    Table.Related (PlanCancelled p) g.plans (cancelPlanInTransaction g p now).plans := by
  cases p with
  | none => exact .refl fun _ _ _ => .inl rfl
  | some p =>
    refine .update (fun q x _ hx => .inr ?_) fun _ _ _ _ => .inl rfl
    obtain ⟨rfl, ht⟩ := of_decide_eq_true hx
    exact ⟨rfl, by simpa using ht, rfl⟩

/-- A cancelled plan has ended, by this cancellation or before. -/
theorem cancelPlan_ended {g : Graph} {p : PlanId} {x' : Plan} {now : Time}
    (hx' : (cancelPlanInTransaction g (some p) now).plans.get? p = some x') :
    x'.status.isTerminal = true ∧ ((∀ x, g.plans.get? p = some x → x.status.isTerminal = false) →
      x'.status = .cancelled) := by
  rw [cancelPlan_plans, Option.map_eq_some_iff] at hx'
  obtain ⟨x, hx, rfl⟩ := hx'
  by_cases ht : x.status.isTerminal = true
  · simp [ht, hx]
  · rw [if_pos ⟨rfl, ht⟩]; exact ⟨rfl, fun _ => rfl⟩

/-! ### The sweep -/

/-- A plan the sweep cancels has an objective it cancels. -/
def PlanSwept (d : Database) (q : PlanId) (x x' : Plan) : Prop :=
  x'.status = x.status ∨ (x.status.isTerminal = false ∧ x'.status = .cancelled ∧
    ∃ id o, d.queue.objectives.get? id = some o ∧ o.planId = some q ∧ sweepCancels d o = true)

theorem sweepGraph_related (d : Database) (now : Time) :
    ∀ (rows : List SweepRow) (g : Graph), (∀ r ∈ rows, ∃ id, d.queue.objectives.get? id =
        some r.objective) →
      Table.Related (fun _ => TaskStop) d.graph.tasks g.tasks →
      Table.Related (PlanSwept d) d.graph.plans g.plans →
      g.attempts = d.graph.attempts → g.dependencies = d.graph.dependencies →
      let g' := sweepGraph d now rows g
      Table.Related (fun _ => TaskStop) d.graph.tasks g'.tasks ∧
        Table.Related (PlanSwept d) d.graph.plans g'.plans ∧
        g'.attempts = d.graph.attempts ∧ g'.dependencies = d.graph.dependencies
  | [], g, _, ht, hp, ha, hd => ⟨ht, hp, ha, hd⟩
  | row :: rows, g, hrows, ht, hp, ha, hd => by
      simp only [sweepGraph, List.foldl_cons]
      by_cases hc : sweepCancels d row.objective = true
      · rw [if_pos hc]
        refine sweepGraph_related d now rows _ (fun r hr => hrows r (by simp [hr])) ?_ ?_ ?_ ?_
        · exact ht.trans (cancelPlan_stop g _ now) fun _ _ _ _ _ h h' => h.trans h'
        · refine hp.trans (cancelPlan_related g _ now) fun q x x' x'' _ h h' => ?_
          obtain ⟨id, hid⟩ := hrows row (by simp)
          rcases h' with h' | ⟨hq, hn, h'⟩
          · rcases h with h | ⟨hn, h, hcause⟩
            · exact .inl (h'.trans h)
            · exact .inr ⟨hn, h'.trans h, hcause⟩
          · rcases h with h | ⟨hn', h, -⟩
            · exact .inr ⟨h ▸ hn, h', id, _, hid, hq, hc⟩
            · rw [h] at hn; cases hn
        · rw [cancelPlan_attempts]; exact ha
        · rw [cancelPlan_dependencies]; exact hd
      · rw [if_neg hc]
        exact sweepGraph_related d now rows g (fun r hr => hrows r (by simp [hr])) ht hp ha hd

/-- The plan of an objective the sweep cancels has ended after the sweep. -/
theorem sweepGraph_ended {d : Database} {now : Time} {p : PlanId} :
    ∀ {rows : List SweepRow} {g : Graph},
      ((∃ r ∈ rows, sweepCancels d r.objective = true ∧ r.objective.planId = some p) ∨
        ∀ x, g.plans.get? p = some x → x.status.isTerminal = true) →
      ∀ x', (sweepGraph d now rows g).plans.get? p = some x' → x'.status.isTerminal = true
  | [], g, h, x', hx' => by
      rcases h with ⟨r, hr, -⟩ | h
      · cases hr
      · exact h x' hx'
  | row :: rows, g, h, x', hx' => by
      simp only [sweepGraph, List.foldl_cons] at hx'
      refine @sweepGraph_ended d now p rows _ ?_ x' hx'
      by_cases hrow : sweepCancels d row.objective = true ∧ row.objective.planId = some p
      · rw [if_pos hrow.1, hrow.2]
        exact .inr fun x hx => (cancelPlan_ended hx).1
      · rcases h with ⟨r, hr, hc, hp⟩ | h
        · rcases List.mem_cons.1 hr with rfl | hr
          · exact absurd ⟨hc, hp⟩ hrow
          · exact .inl ⟨r, hr, hc, hp⟩
        · refine .inr fun x hx => ?_
          split at hx
          · obtain ⟨x₀, hx₀, hrel⟩ := (cancelPlan_related g _ now).back hx
            rcases hrel with hs | ⟨-, ht, -⟩
            · rw [hs]; exact h x₀ hx₀
            · rw [h x₀ hx₀] at ht; cases ht
          · exact h x hx

/-! ### Refresh -/

/-- Every parent of the task that the graph holds is completed. -/
def Graph.ParentsCompleted (g : Graph) (i : TaskId) : Prop :=
  ∀ e ∈ g.dependencies, e.taskId = i → ∀ x, g.tasks.get? e.dependsOn = some x →
    x.status = .completed

/-- What the refresh does to a task. -/
structure TaskRefreshed (g : Graph) (i : TaskId) (t t' : Task) : Prop where
  carries : t.Carries t'
  count : t'.attemptCount = t.attemptCount
  status : t'.status = t.status ∨ (t.status = .pending ∧
    (t'.status = .blocked ∨ (t'.status = .ready ∧ g.ParentsCompleted i)))

theorem TaskRefreshed.rfl {g : Graph} {i : TaskId} {t : Task} : TaskRefreshed g i t t :=
  ⟨.rfl, .refl _, .inl (.refl _)⟩

theorem Graph.mem_parentStatuses {g : Graph} {i : TaskId} {s : TaskStatus} :
    s ∈ g.parentStatuses i ↔ ∃ e ∈ g.dependencies, e.taskId = i ∧
      ∃ x, g.tasks.get? e.dependsOn = some x ∧ x.status = s := by
  simp only [parentStatuses, List.mem_filterMap, List.mem_filter, decide_eq_true_eq,
    Option.map_eq_some_iff, and_assoc]

/-- One turn of the loop, from a graph the earlier turns have left. -/
theorem refreshTask_related {g g₁ : Graph} (now : Time) (row : TaskId × Task)
    (ht : Table.Related (TaskRefreshed g) g.tasks g₁.tasks)
    (hd : g₁.dependencies = g.dependencies) :
    Table.Related (TaskRefreshed g) g.tasks (refreshTask now g₁ row).tasks := by
  unfold refreshTask
  split
  · exact ht
  -- a task that is still pending is as it was at the start of the loop
  have pending : ∀ {i t t₁}, TaskRefreshed g i t t₁ → t₁.status = .pending →
      t.status = .pending := by
    intro i t t₁ h hs
    rcases h.status with hr | ⟨-, hr | ⟨hr, -⟩⟩
    · rw [← hr]; exact hs
    · rw [hr] at hs; cases hs
    · rw [hr] at hs; cases hs
  simp only
  split
  · refine ht.trans (.update (R := fun _ t t' => t.Carries t' ∧ t'.attemptCount = t.attemptCount ∧
      (t'.status = t.status ∨ (t.status = .pending ∧ t'.status = .blocked)))
      (fun i t _ hi => ⟨⟨rfl, rfl, rfl, rfl, rfl⟩, rfl, .inr ⟨(of_decide_eq_true hi).2, rfl⟩⟩)
      fun _ _ _ _ => ⟨.rfl, rfl, .inl rfl⟩) ?_
    rintro i t t₁ t₂ - h ⟨hc, hn, hs⟩
    refine ⟨h.carries.trans hc, hn.trans h.count, ?_⟩
    rcases hs with hs | ⟨hp, hs⟩
    · rw [hs]; exact h.status
    · exact .inr ⟨pending h hp, .inl hs⟩
  · split
    · rename_i hall
      have hparents : g.ParentsCompleted row.1 := by
        intro e he hei x hx
        obtain ⟨x₁, hx₁, hrel⟩ := ht.forth hx
        have hdone : x₁.status = .completed := by
          have := List.all_eq_true.1 hall x₁.status
            (Graph.mem_parentStatuses.2 ⟨e, hd ▸ he, hei, x₁, hx₁, rfl⟩)
          simpa using this
        rcases hrel.status with hr | ⟨-, hr | ⟨hr, -⟩⟩
        · rw [← hr]; exact hdone
        · rw [hr] at hdone; cases hdone
        · rw [hr] at hdone; cases hdone
      refine ht.trans (.update (R := fun i t t' => t.Carries t' ∧ t'.attemptCount = t.attemptCount ∧
        (t'.status = t.status ∨ (i = row.1 ∧ t.status = .pending ∧ t'.status = .ready)))
        (fun i t _ hi => ⟨⟨rfl, rfl, rfl, rfl, rfl⟩, rfl,
          .inr ⟨(of_decide_eq_true hi).1, (of_decide_eq_true hi).2, rfl⟩⟩)
        fun _ _ _ _ => ⟨.rfl, rfl, .inl rfl⟩) ?_
      rintro i t t₁ t₂ - h ⟨hc, hn, hs⟩
      refine ⟨h.carries.trans hc, hn.trans h.count, ?_⟩
      rcases hs with hs | ⟨rfl, hp, hs⟩
      · rw [hs]; exact h.status
      · exact .inr ⟨pending h hp, .inr ⟨hs, hparents⟩⟩
    · exact ht

theorem refreshTask_frame (now : Time) (g : Graph) (row : TaskId × Task) :
    (refreshTask now g row).plans = g.plans ∧ (refreshTask now g row).attempts = g.attempts ∧
      (refreshTask now g row).dependencies = g.dependencies := by
  unfold refreshTask
  split
  · exact ⟨rfl, rfl, rfl⟩
  · simp only
    split
    · exact ⟨rfl, rfl, rfl⟩
    · split <;> exact ⟨rfl, rfl, rfl⟩

theorem foldl_refreshTask {g : Graph} (now : Time) : ∀ (rows : List (TaskId × Task)) (g₁ : Graph),
    Table.Related (TaskRefreshed g) g.tasks g₁.tasks → g₁.plans = g.plans →
    g₁.attempts = g.attempts → g₁.dependencies = g.dependencies →
    let g' := rows.foldl (refreshTask now) g₁
    Table.Related (TaskRefreshed g) g.tasks g'.tasks ∧ g'.plans = g.plans ∧
      g'.attempts = g.attempts ∧ g'.dependencies = g.dependencies
  | [], _, ht, hp, ha, hd => ⟨ht, hp, ha, hd⟩
  | row :: rows, g₁, ht, hp, ha, hd => by
      obtain ⟨fp, fa, fd⟩ := refreshTask_frame now g₁ row
      exact foldl_refreshTask now rows _ (refreshTask_related now row ht hd) (fp.trans hp)
        (fa.trans ha) (fd.trans hd)

/-- What the refresh of plan `p` does to a plan row; `g'` is the graph it leaves. -/
def PlanRefreshed (g' : Graph) (p q : PlanId) (x x' : Plan) : Prop :=
  x'.status = x.status ∨
    (q = p ∧ x.status ≠ .draft ∧ x.status.isTerminal = false ∧
      (x'.status = .running ∨ x'.status = .blocked ∨ x'.status = .failed ∨
        (x'.status = .completed ∧
          ∀ i t, g'.tasks.get? i = some t → t.planId = p → t.status = .completed)))

theorem refreshPlan_status {s : Store} {p : PlanId} {plan : Plan} {now : Time} {g : Graph} :
    let x' := refreshPlan s p plan now g plan
    x'.status = plan.status ∨ x'.status = .running ∨ x'.status = .blocked ∨ x'.status = .failed ∨
      (x'.status = .completed ∧
        ∀ i t, g.tasks.get? i = some t → t.planId = p → t.status = .completed) := by
  simp only [refreshPlan]
  split
  · split
    · exact .inl rfl
    · exact .inr (.inr (.inl rfl))
  · split
    · exact .inl rfl
    · split
      · rename_i hall
        refine .inr (.inr (.inr (.inr ⟨rfl, fun i t ht hp => ?_⟩)))
        have := List.all_eq_true.1 hall.2 t.status
          (List.mem_map.2 ⟨(i, t), Table.mem_select.2 ⟨ht, by simpa using hp⟩, rfl⟩)
        simpa using this
      · split
        · exact .inr (.inr (.inr (.inl rfl)))
        · simp only
          split
          · exact .inr (.inl rfl)
          · exact .inl rfl

theorem refreshPlanStates_related (g : Graph) (s : Store) (p : PlanId) (now : Time) :
    let g' := refreshPlanStates g s p now
    Table.Related (TaskRefreshed g) g.tasks g'.tasks ∧
      Table.Related (PlanRefreshed g' p) g.plans g'.plans ∧
      g'.attempts = g.attempts ∧ g'.dependencies = g.dependencies := by
  have same : Table.Related (TaskRefreshed g) g.tasks g.tasks := .refl fun _ _ _ => .rfl
  simp only [refreshPlanStates]
  split
  · exact ⟨same, .refl fun _ _ _ => .inl rfl, rfl, rfl⟩
  · rename_i plan hplan
    split
    · exact ⟨same, .refl fun _ _ _ => .inl rfl, rfl, rfl⟩
    · rename_i hlive
      rw [not_or] at hlive
      obtain ⟨ht, hp, ha, hd⟩ := foldl_refreshTask now (g.planTasks p) g same rfl rfl rfl
      refine ⟨ht, ?_, ha, hd⟩
      simp only at hp ⊢
      rw [hp]
      refine .updateAt (fun x hx => ?_) fun _ _ _ _ => .inl rfl
      obtain rfl : plan = x := by rw [hplan] at hx; simpa using hx
      rcases @refreshPlan_status s p plan now ((g.planTasks p).foldl (refreshTask now) g) with h | h
      · exact .inl h
      · exact .inr ⟨rfl, hlive.1, by simpa using hlive.2, h⟩

/-! ### Reservation -/

/-- What the check inside the reservation guarantees. -/
theorem reservation_eligible {d : Database} {i : TaskId} {t : Task}
    (h : reservationIneligibilityReason d i t = none) :
    t.attemptCount < t.maxAttempts ∧ projectIsBusy d.graph t.projectId i = false ∧
      ∃ plan, d.graph.plans.get? t.planId = some plan ∧
        (plan.status = .ready ∨ plan.status = .running) ∧
        planHasActiveHumanGate d.graph d.store t.planId = false ∧
        runningTaskCount d.graph (some t.planId) < plan.maxParallelTasks := by
  unfold reservationIneligibilityReason at h
  split at h
  · cases h
  split at h
  · cases h
  rename_i hbudget
  split at h
  · cases h
  rename_i plan hplan
  split at h
  · cases h
  rename_i hstatus
  simp only at h
  split at h
  · cases h
  split at h
  · cases h
  split at h
  · cases h
  rename_i hgate
  split at h
  · cases h
  rename_i hlimit
  split at h
  · cases h
  rename_i hbusy
  exact ⟨by omega, by simpa using hbusy, plan, hplan, not_not.1 hstatus, by simpa using hgate,
    by omega⟩

theorem reserveAttempt_ok {d : Database} {i : TaskId} {j : AttemptId} {now : Time} {g : Graph}
    {task : Task} (h : reserveAttempt d i j now = .ok (g, task)) :
    d.graph.tasks.get? i = some task ∧ reservationIneligibilityReason d i task = none ∧
      task.status = .ready ∧ g.plans = d.graph.plans ∧ g.dependencies = d.graph.dependencies ∧
      Table.Related (fun k t t' => t.Carries t' ∧
        ((t'.status = t.status ∧ t'.attemptCount = t.attemptCount) ∨
          (k = i ∧ t'.status = .running ∧ t'.attemptCount = t.attemptCount + 1)))
        d.graph.tasks g.tasks ∧
      (∃ t', g.tasks.get? i = some t' ∧ t'.status = .running) ∧
      ∃ x : Attempt, x.taskId = i ∧ x.runId = none ∧
        d.graph.attempts.insert j x = some g.attempts := by
  unfold reserveAttempt at h
  split at h
  · cases h
  · rename_i task' htask
    split at h
    · cases h
    · rename_i hreason
      have hready : task'.status = .ready := by
        by_contra hs
        simp [reservationIneligibilityReason, hs] at hreason
      simp only at h
      split at h
      · cases h
      · split at h
        · rename_i attempts hatt
          simp only [Except.ok.injEq, Prod.mk.injEq] at h
          obtain ⟨rfl, rfl⟩ := h
          refine ⟨htask, hreason, hready, rfl, rfl, ?_, ?_, _, rfl, rfl, hatt⟩
          · refine .update (fun k t hk hp => ?_) fun _ _ _ _ => ⟨.rfl, .inl ⟨rfl, rfl⟩⟩
            obtain ⟨rfl, -⟩ := of_decide_eq_true hp
            obtain rfl : task' = t := by rw [htask] at hk; simpa using hk
            exact ⟨⟨rfl, rfl, rfl, rfl, rfl⟩, .inr ⟨rfl, rfl, rfl⟩⟩
          · exact ⟨_, by simp only [Table.get?_update, htask, Option.map_some]; rfl, by simp [hready]⟩
        · cases h

/-! ### Handlers that settle a task -/

/-- The result sends `execute_task` to the success handler. -/
def TaskResult.succeeds : TaskResult → Bool
  | .plain => true
  | .pipeline _ i => ¬(i.action = .cancel ∧ i.status = .recovering) ∧ i.action ≠ .blockHuman

/-- The success handler takes the human gate for this result. -/
def TaskResult.gated (d : Database) (planId : PlanId) (result : TaskResult) : Bool :=
  planHasActiveHumanGate d.graph d.store planId && !result.authorizedIntegration

/-- What the end of a thread does to a task. -/
inductive TaskFinished (d : Database) (rt : ReservedTask) (result : TaskResult) (i : TaskId)
    (t t' : Task) : Prop
  | stopped : TaskStop t t' → TaskFinished d rt result i t t'
  | completed : result.succeeds = true → result.gated d rt.planId = false → i = rt.taskId →
    t.status = .running → t'.status = .completed → t.Carries t' →
    t'.attemptCount = t.attemptCount → TaskFinished d rt result i t t'

theorem finishTask_related (d : Database) (rt : ReservedTask) (result : TaskResult) (now : Time) :
    let g' := finishTask d rt result now
    Table.Related (TaskFinished d rt result) d.graph.tasks g'.tasks ∧
      Table.Related (fun _ => PlanStop) d.graph.plans g'.plans ∧
      Table.Related (fun _ => AttemptKept) d.graph.attempts g'.attempts ∧
      g'.dependencies = d.graph.dependencies := by
  have stop : ∀ {g'}, GraphStop d.graph g' →
      Table.Related (TaskFinished d rt result) d.graph.tasks g'.tasks ∧
        Table.Related (fun _ => PlanStop) d.graph.plans g'.plans ∧
        Table.Related (fun _ => AttemptKept) d.graph.attempts g'.attempts ∧
        g'.dependencies = d.graph.dependencies := fun h =>
    ⟨h.tasks.mono fun _ _ _ _ _ ht => .stopped ht, h.plans, h.attempts, h.dependencies⟩
  have success : result.succeeds = true →
      let g' := finishTaskSuccess d.graph d.store rt result now
      Table.Related (TaskFinished d rt result) d.graph.tasks g'.tasks ∧
        Table.Related (fun _ => PlanStop) d.graph.plans g'.plans ∧
        Table.Related (fun _ => AttemptKept) d.graph.attempts g'.attempts ∧
        g'.dependencies = d.graph.dependencies := by
    intro hs
    simp only [finishTaskSuccess]
    split
    · exact stop (finishRunningTaskBlockedByHumanGate_stop ..)
    · rename_i hg
      refine ⟨.update (fun i t _ hi => ?_) fun _ _ _ _ => .stopped .rfl, plansStop_refl _,
        finishAttempt_kept, rfl⟩
      obtain ⟨hi, hrun⟩ := of_decide_eq_true hi
      refine .completed hs ?_ hi hrun rfl ⟨rfl, rfl, rfl, rfl, rfl⟩ rfl
      simpa [TaskResult.gated] using hg
  cases result with
  | plain => exact success rfl
  | pipeline r i =>
    simp only [finishTask]
    split
    · exact stop (finishTaskCancellationRecovery_stop ..)
    · rename_i h₁
      split
      · exact stop (finishTaskWaitingHuman_stop ..)
      · rename_i h₂
        exact success (by simp only [TaskResult.succeeds, decide_eq_true_eq]; exact ⟨h₁, h₂⟩)

/-- What the failure handler does to a task. -/
inductive TaskFailed (rt : ReservedTask) (i : TaskId) (t t' : Task) : Prop
  | stopped : TaskStop t t' → TaskFailed rt i t t'
  | failed : i = rt.taskId → t'.status = .ready ∨ t'.status = .failed → t.Carries t' →
    t'.attemptCount = t.attemptCount → TaskFailed rt i t t'

theorem Task.statusAfterFailure_cases (t : Task) :
    t.statusAfterFailure = .ready ∨ t.statusAfterFailure = .failed := by
  unfold statusAfterFailure
  split
  · exact .inl rfl
  · exact .inr rfl

theorem finishTaskFailure_related (g : Graph) (s : Store) (rt : ReservedTask) (e : String)
    (now : Time) :
    let g' := finishTaskFailure g s rt e now
    Table.Related (TaskFailed rt) g.tasks g'.tasks ∧ g'.plans = g.plans ∧
      Table.Related (fun _ => AttemptKept) g.attempts g'.attempts ∧
      g'.dependencies = g.dependencies := by
  simp only [finishTaskFailure]
  split
  · exact ⟨.refl fun _ _ _ => .stopped .rfl, rfl, attemptsKept_refl _, rfl⟩
  · rename_i current hcur
    split
    · have h := finishRunningTaskBlockedByHumanGate_stop g rt .failed (some e) now
      exact ⟨h.tasks.mono fun _ _ _ _ _ ht => .stopped ht, rfl, h.attempts, rfl⟩
    · refine ⟨.updateAt (fun t _ => ?_) fun _ _ _ _ => .stopped .rfl, rfl, finishAttempt_kept, rfl⟩
      exact .failed rfl current.statusAfterFailure_cases ⟨rfl, rfl, rfl, rfl, rfl⟩ rfl

/-! ### Restart -/

/-- An attempt of the task carries a run that completed. -/
def Graph.Integrated (g : Graph) (s : Store) (i : TaskId) : Prop :=
  ∃ k x r run, g.attempts.get? k = some x ∧ x.taskId = i ∧ x.runId = some r ∧
    s.runs.get? r = some run ∧ run.status = .completed

/-- What the reconciliation does to a task. -/
structure TaskReconciled (g : Graph) (s : Store) (i : TaskId) (t t' : Task) : Prop where
  carries : t.Carries t'
  count : t'.attemptCount = t.attemptCount
  status : t'.status = t.status ∨ (t.status = .running ∧
    (t'.status = .ready ∨ t'.status = .failed ∨ (t'.status = .completed ∧ g.Integrated s i)))

/-- The row was read from the graph. -/
structure InterruptedTask.From (row : InterruptedTask) (g : Graph) : Prop where
  task : g.tasks.get? row.taskId = some row.task
  running : row.task.status = .running
  attempt : ∀ k x, row.attempt = some (k, x) → g.attempts.get? k = some x ∧ x.taskId = row.taskId

theorem interruptedTasks_from {g : Graph} {row : InterruptedTask} (h : row ∈ g.interruptedTasks) :
    row.From g := by
  simp only [Graph.interruptedTasks, List.mem_flatMap, Prod.exists, Table.mem_select,
    decide_eq_true_eq] at h
  obtain ⟨i, t, ⟨ht, hrun⟩, h⟩ := h
  split at h
  · rw [List.mem_singleton] at h
    subst h
    exact ⟨ht, hrun, fun _ _ hk => by cases hk⟩
  · rw [List.mem_map] at h
    obtain ⟨⟨k, x⟩, hx, rfl⟩ := h
    rw [Table.mem_select] at hx
    refine ⟨ht, hrun, fun k' x' hk => ?_⟩
    obtain ⟨rfl, rfl⟩ : k = k' ∧ x = x' := by simpa using hk
    exact ⟨hx.1, (of_decide_eq_true hx.2).1⟩

/-- The tables one turn of the loop leaves, from a graph the earlier turns have left. -/
theorem reconcileInterruptedTask_related {g g₁ : Graph} {s : Store} (now : Time)
    {row : InterruptedTask} (hrow : row.From g)
    (ht : Table.Related (TaskReconciled g s) g.tasks g₁.tasks)
    (ha : Table.Related (fun _ => AttemptKept) g.attempts g₁.attempts) :
    let g' := reconcileInterruptedTask s now g₁ row
    Table.Related (TaskReconciled g s) g.tasks g'.tasks ∧
      Table.Related (fun _ => AttemptKept) g.attempts g'.attempts ∧ g'.plans = g₁.plans ∧
      g'.dependencies = g₁.dependencies := by
  -- a write of the row's task that gives it one of the three statuses
  have write : ∀ f : Task → Task, (∀ t, t.Carries (f t) ∧ (f t).attemptCount = t.attemptCount ∧
      ((f t).status = .ready ∨ (f t).status = .failed ∨
        ((f t).status = .completed ∧ g.Integrated s row.taskId))) →
      Table.Related (TaskReconciled g s) g.tasks (g₁.tasks.updateAt row.taskId f) := by
    intro f hf
    refine ht.trans (.updateAt (R := fun i t t' => t.Carries t' ∧ t'.attemptCount = t.attemptCount ∧
      (t'.status = t.status ∨ (i = row.taskId ∧ (t'.status = .ready ∨ t'.status = .failed ∨
        (t'.status = .completed ∧ g.Integrated s row.taskId)))))
      (fun t _ => ⟨(hf t).1, (hf t).2.1, .inr ⟨rfl, (hf t).2.2⟩⟩)
      fun _ _ _ _ => ⟨.rfl, rfl, .inl rfl⟩) ?_
    rintro i t t₁ t₂ hi h ⟨hc, hn, hs⟩
    refine ⟨h.carries.trans hc, hn.trans h.count, ?_⟩
    rcases hs with hs | ⟨rfl, hs⟩
    · rw [hs]; exact h.status
    · obtain rfl : row.task = t := by rw [hrow.task] at hi; simpa using hi
      exact .inr ⟨hrow.running, hs⟩
  have keep : ∀ (p : AttemptId → Attempt → Bool) (f : Attempt → Attempt), (∀ x, AttemptKept x (f x)) →
      Table.Related (fun _ => AttemptKept) g.attempts (g₁.attempts.update p f) := fun p f hf =>
    ha.trans (.update (R := fun _ => AttemptKept) (fun _ x _ _ => hf x) fun _ _ _ _ => ⟨rfl, rfl⟩)
      fun _ _ _ _ _ h h' => ⟨h'.1.trans h.1, h'.2.trans h.2⟩
  have resched : ∀ reason finish t, Task.Carries t
      (t.rescheduled row.task.statusAfterFailure reason finish now) ∧
      (t.rescheduled row.task.statusAfterFailure reason finish now).attemptCount = t.attemptCount ∧
      ((t.rescheduled row.task.statusAfterFailure reason finish now).status = .ready ∨
        (t.rescheduled row.task.statusAfterFailure reason finish now).status = .failed ∨
        ((t.rescheduled row.task.statusAfterFailure reason finish now).status = .completed ∧
          g.Integrated s row.taskId)) := by
    intro reason finish t
    refine ⟨⟨rfl, rfl, rfl, rfl, rfl⟩, rfl, ?_⟩
    rcases row.task.statusAfterFailure_cases with h | h
    · exact .inl h
    · exact .inr (.inl h)
  simp only [reconcileInterruptedTask]
  split
  · exact ⟨write _ (resched _ _), ha, rfl, rfl⟩
  · rename_i k x hk
    split
    · exact ⟨write _ (resched _ _), keep _ _ fun _ => ⟨rfl, rfl⟩, rfl, rfl⟩
    · split
      · exact ⟨write _ (resched _ _), keep _ _ fun _ => ⟨rfl, rfl⟩, rfl, rfl⟩
      · rename_i r hr
        split
        · exact ⟨write _ (resched _ _), keep _ _ fun _ => ⟨rfl, rfl⟩, rfl, rfl⟩
        · rename_i run hrun
          split
          · exact ⟨write _ (resched _ _), keep _ _ fun _ => ⟨rfl, rfl⟩, rfl, rfl⟩
          · split
            · rename_i hdone
              obtain ⟨hx, hxt⟩ := hrow.attempt k x hk
              exact ⟨write _ fun t => ⟨⟨rfl, rfl, rfl, rfl, rfl⟩, rfl,
                .inr (.inr ⟨rfl, k, x, r, run, hx, hxt, hr, hrun, hdone⟩)⟩,
                keep _ _ fun _ => ⟨rfl, rfl⟩, rfl, rfl⟩
            · exact ⟨ht, keep _ _ fun _ => ⟨rfl, rfl⟩, rfl, rfl⟩

theorem foldl_reconcileInterruptedTask {g : Graph} {s : Store} (now : Time) :
    ∀ (rows : List InterruptedTask) (g₁ : Graph), (∀ r ∈ rows, r.From g) →
      Table.Related (TaskReconciled g s) g.tasks g₁.tasks →
      Table.Related (fun _ => AttemptKept) g.attempts g₁.attempts → g₁.plans = g.plans →
      g₁.dependencies = g.dependencies →
      let g' := rows.foldl (reconcileInterruptedTask s now) g₁
      Table.Related (TaskReconciled g s) g.tasks g'.tasks ∧
        Table.Related (fun _ => AttemptKept) g.attempts g'.attempts ∧ g'.plans = g.plans ∧
        g'.dependencies = g.dependencies
  | [], _, _, ht, ha, hp, hd => ⟨ht, ha, hp, hd⟩
  | row :: rows, g₁, hrows, ht, ha, hp, hd => by
      obtain ⟨ht', ha', hp', hd'⟩ :=
        reconcileInterruptedTask_related now (hrows row (by simp)) ht ha
      exact foldl_reconcileInterruptedTask now rows _ (fun r hr => hrows r (by simp [hr])) ht' ha'
        (hp'.trans hp) (hd'.trans hd)

theorem reconcileInterruptedTasks_related (g : Graph) (s : Store) (now : Time) :
    let g' := reconcileInterruptedTasks g s now
    Table.Related (TaskReconciled g s) g.tasks g'.tasks ∧
      Table.Related (fun _ => AttemptKept) g.attempts g'.attempts ∧ g'.plans = g.plans ∧
      g'.dependencies = g.dependencies :=
  foldl_reconcileInterruptedTask now _ g (fun _ hr => interruptedTasks_from hr)
    (.refl fun _ _ _ => ⟨.rfl, rfl, .inl rfl⟩) (attemptsKept_refl _) rfl rfl

/-! ### Insertion -/

/-- The tasks of an inserted plan are new rows, and the old rows stay. -/
theorem insertTasks_some {planId : PlanId} {now : Time} : ∀ {ts : List PlanTask}
    {tasks tasks' : Table TaskId Task} {next : Nat},
    insertTasks planId now tasks next ts = some tasks' →
      (∀ i : Nat, tasks'.get? i = tasks.get? i ∨ (tasks.get? i = none ∧ next ≤ i ∧
        i < next + ts.length ∧ ∃ t ∈ ts, tasks'.get? i = some (t.row planId now))) ∧
      ∀ k < ts.length, tasks.get? (next + k) = none ∧
        ∃ t ∈ ts, tasks'.get? (next + k) = some (t.row planId now)
  | [], tasks, tasks', next, h => by
      simp only [insertTasks, Option.some.injEq] at h
      subst h
      exact ⟨fun i => .inl rfl, fun k hk => absurd hk (by simp)⟩
  | t :: ts, tasks, tasks', next, h => by
      simp only [insertTasks, Option.bind_eq_some_iff] at h
      obtain ⟨mid, hmid, hrest⟩ := h
      obtain ⟨hold, hnew⟩ := insertTasks_some hrest
      have hget := Table.get?_insert hmid
      have hnone := Table.get?_of_insert hmid
      have hcases : ∀ i : Nat, tasks'.get? i = tasks.get? i ∨ (tasks.get? i = none ∧ next ≤ i ∧
          i < next + (t :: ts).length ∧ ∃ t' ∈ t :: ts, tasks'.get? i = some (t'.row planId now)) := by
        intro i
        rw [List.length_cons]
        rcases hold i with hi | ⟨hi, hlo, hhi, t', ht', hi'⟩
        · rw [hi, hget]
          split
          · rename_i heq
            subst heq
            exact .inr ⟨hnone, le_refl _, by omega, t, by simp, rfl⟩
          · exact .inl rfl
        · rw [hget] at hi
          split at hi
          · cases hi
          · exact .inr ⟨hi, by omega, by omega, t', by simp [ht'], hi'⟩
      refine ⟨hcases, fun k hk => ?_⟩
      cases k with
      | zero =>
        refine ⟨hnone, ?_⟩
        rcases hold next with hi | ⟨hi, -⟩
        · refine ⟨t, by simp, ?_⟩
          rw [Nat.add_zero, hi, hget, if_pos rfl]
        · rw [hget, if_pos rfl] at hi; cases hi
      | succ k =>
        obtain ⟨hn, t', ht', hi⟩ := hnew k (by simpa using hk)
        rw [Nat.add_right_comm, Nat.add_assoc] at hn hi
        refine ⟨?_, t', by simp [ht'], hi⟩
        rw [hget] at hn
        split at hn
        · cases hn
        · exact hn

/-- An inserted plan: a new plan row, new `PENDING` tasks, and edges among the new tasks. -/
structure GraphInserted (g g' : Graph) (planId : PlanId) : Prop where
  plan : g.plans.get? planId = none
  plans : ∀ q, q ≠ planId → g'.plans.get? q = g.plans.get? q
  new : ∃ x, g'.plans.get? planId = some x ∧ (x.status = .draft ∨ x.status = .ready)
  tasks : ∀ i, g'.tasks.get? i = g.tasks.get? i ∨ (g.tasks.get? i = none ∧
    ∃ t, g'.tasks.get? i = some t ∧ t.planId = planId ∧ t.status = .pending ∧ t.attemptCount = 0)
  attempts : g'.attempts = g.attempts
  dependencies : ∀ e ∈ g'.dependencies, e ∈ g.dependencies ∨
    (g.tasks.get? e.taskId = none ∧ (g'.tasks.get? e.taskId).isSome = true ∧
      (g'.tasks.get? e.dependsOn).isSome = true)
  rows : ∃ i t, g'.tasks.get? i = some t ∧ t.planId = planId
  error : ∀ x, g'.plans.get? planId = some x → x.lastError = none
  forward : ∀ e ∈ g'.dependencies, e ∈ g.dependencies ∨
    (g.tasks.get? e.taskId = none ∧ g.tasks.get? e.dependsOn = none ∧ e.dependsOn < e.taskId)

/-- A dependency is the key of an earlier task. -/
theorem NormalizedPlan.parent_before (p : NormalizedPlan) {t : PlanTask} (ht : t ∈ p.tasks)
    {parent : String} (hparent : parent ∈ t.dependencies) :
    (p.tasks.map PlanTask.key).idxOf parent < (p.tasks.map PlanTask.key).idxOf t.key := by
  obtain ⟨hne, hmem⟩ := p.known t ht parent hparent
  have hkey := List.mem_map_of_mem (f := PlanTask.key) ht
  have hi := List.idxOf_lt_length_of_mem hmem
  have hj := List.idxOf_lt_length_of_mem hkey
  have hgi := List.getElem_idxOf hi
  have hgj := List.getElem_idxOf hj
  rw [List.length_map] at hi hj
  rw [List.getElem_map] at hgi hgj
  have htask : p.tasks[(p.tasks.map PlanTask.key).idxOf t.key] = t :=
    List.inj_on_of_nodup_map p.keys (List.getElem_mem hj) ht hgj
  rcases Nat.lt_trichotomy ((p.tasks.map PlanTask.key).idxOf parent)
    ((p.tasks.map PlanTask.key).idxOf t.key) with hlt | heq | hgt
  · exact hlt
  · refine absurd ?_ hne
    rw [← hgi, ← hgj]
    simp only [heq]
  · have hout := List.pairwise_iff_getElem.1 p.ordered _ _ hj hi hgt
    rw [hgi, htask] at hout
    exact absurd hparent hout

theorem insertPlan_some {g g' : Graph} {p : NormalizedPlan} {planId : PlanId} {first : TaskId}
    {source : Source} {ready : Bool} {now : Time}
    (h : insertPlan g p planId first source ready now = some g') :
    GraphInserted g g' planId ∧ (∀ x, g'.plans.get? planId = some x →
      x.status = if ready then .ready else .draft) ∧
      ∀ i, g'.tasks.get? i = g.tasks.get? i ∨ (first ≤ i ∧ i < first + p.tasks.length) := by
  simp only [insertPlan, Option.bind_eq_bind, Option.bind_eq_some_iff] at h
  obtain ⟨plans, hplans, tasks, htasks, h⟩ := h
  simp only [Option.pure_def, Option.some.injEq] at h
  subst h
  have hget := Table.get?_insert hplans
  obtain ⟨hold, hnew⟩ := insertTasks_some htasks
  have row : ∀ key ∈ p.tasks.map PlanTask.key, g.tasks.get? (p.taskId first key) = none ∧
      (tasks.get? (p.taskId first key)).isSome = true := by
    intro key hkey
    have hlt := List.idxOf_lt_length_of_mem hkey
    rw [List.length_map] at hlt
    obtain ⟨hn, t', -, hi⟩ := hnew _ hlt
    exact ⟨hn, by rw [NormalizedPlan.taskId, hi]; rfl⟩
  refine ⟨⟨Table.get?_of_insert hplans, fun q hq => by rw [hget, if_neg hq],
    ⟨_, by rw [hget, if_pos rfl], ?_⟩, fun i => ?_, rfl, fun e he => ?_, ?_,
    fun x hx => ?_, fun e he => ?_⟩, fun x hx => ?_, fun i => ?_⟩
  · cases ready
    · exact .inl rfl
    · exact .inr rfl
  · rcases hold i with hi | ⟨hi, -, -, t, -, hi'⟩
    · exact .inl hi
    · exact .inr ⟨hi, _, hi', rfl, rfl, rfl⟩
  · rw [List.mem_append] at he
    rcases he with he | he
    · exact .inl he
    · right
      simp only [NormalizedPlan.dependencies, List.mem_flatMap, List.mem_map] at he
      obtain ⟨t, ht, parent, hparent, rfl⟩ := he
      have hchild := row t.key (List.mem_map_of_mem ht)
      exact ⟨hchild.1, hchild.2, (row parent (p.known t ht parent hparent).2).2⟩
  · obtain ⟨-, t, -, hi⟩ := hnew 0 p.size.1
    exact ⟨_, _, hi, rfl⟩
  · rw [hget, if_pos rfl] at hx
    cases hx
    rfl
  · rw [List.mem_append] at he
    refine he.imp_right fun he => ?_
    simp only [NormalizedPlan.dependencies, List.mem_flatMap, List.mem_map] at he
    obtain ⟨t, ht, parent, hparent, rfl⟩ := he
    exact ⟨(row _ (List.mem_map_of_mem ht)).1, (row _ (p.known t ht parent hparent).2).1,
      Nat.add_lt_add_left (p.parent_before ht hparent) first⟩
  · rw [hget, if_pos rfl] at hx
    cases hx; rfl
  · rcases hold i with hi | ⟨-, hlo, hhi, -⟩
    · exact .inl hi
    · exact .inr ⟨hlo, hhi⟩

/-! ### Deletion -/

/-- What `DELETE FROM orchestration_plans` leaves of the graph. -/
structure GraphDeleted (g g' : Graph) (planId : PlanId) : Prop where
  plans : ∀ q, g'.plans.get? q = if q = planId then none else g.plans.get? q
  tasks : ∀ i, g'.tasks.get? i = (g.tasks.get? i).filter fun t => t.planId ≠ planId
  attempts : ∀ j x, g'.attempts.get? j = some x ↔ g.attempts.get? j = some x ∧
    ∀ t, g.tasks.get? x.taskId = some t → t.planId ≠ planId
  dependencies : ∀ e, e ∈ g'.dependencies ↔ e ∈ g.dependencies ∧
    (∀ t, g.tasks.get? e.taskId = some t → t.planId ≠ planId) ∧
    ∀ t, g.tasks.get? e.dependsOn = some t → t.planId ≠ planId

theorem GraphDeleted.task {g g' : Graph} {p : PlanId} (hd : GraphDeleted g g' p) {i : TaskId}
    {t : Task} : g'.tasks.get? i = some t ↔ g.tasks.get? i = some t ∧ t.planId ≠ p := by
  rw [hd.tasks, Option.filter_eq_some_iff, decide_eq_true_eq]

theorem deletePlan_deleted (d : Database) (planId : PlanId) :
    GraphDeleted d.graph (deletePlan d planId).graph planId := by
  have hof : ∀ i, (!(d.graph.tasks.get? i).any fun t => decide (t.planId = planId)) = true ↔
      ∀ t, d.graph.tasks.get? i = some t → t.planId ≠ planId := by
    intro i
    cases d.graph.tasks.get? i <;> simp
  refine ⟨fun q => ?_, fun i => ?_, fun j x => ?_, fun e => ?_⟩
  · simp only [deletePlan, Table.get?_delete]
    by_cases hq : q = planId
    · rw [if_pos hq]; cases d.graph.plans.get? q <;> simp [hq]
    · rw [if_neg hq]; cases d.graph.plans.get? q <;> simp [hq]
  · simp [deletePlan]
  · simp only [deletePlan, Table.get?_delete, Option.filter_eq_some_iff, hof]
  · simp only [deletePlan, List.mem_filter, Bool.and_eq_true, hof]

end HermesOps
