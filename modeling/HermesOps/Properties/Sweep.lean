import HermesOps.Model.Frames

/-! What one call of `synchronize_objective_states` does to each row. The loop reads its counts from
    a graph that its earlier turns have already changed, but cancelling a plan touches neither the
    `RUNNING` tasks nor the links between attempts and runs, so every turn decides as if it were
    alone; the whole sweep is then one pointwise write of the objectives and of the graph. -/

namespace HermesOps

open Schemes

/-! ### What the counts depend on -/

/-- The links depend on the attempts and on the plan of each task only. -/
theorem Graph.linkedRuns_congr {g g' : Graph} (ha : g'.attempts = g.attempts)
    (ht : ∀ i, (g'.tasks.get? i).map Task.planId = (g.tasks.get? i).map Task.planId)
    (p : PlanId) : g'.linkedRuns p = g.linkedRuns p := by
  unfold linkedRuns
  rw [ha]
  congr 1
  funext x
  have h := ht x.2.taskId
  cases h₁ : g'.tasks.get? x.2.taskId <;> cases h₂ : g.tasks.get? x.2.taskId <;>
    simp_all

/-- The two graphs answer the counts of the sweep alike. -/
structure SameCounts (g g' : Graph) : Prop where
  running : ∀ p, runningTaskCount g' p = runningTaskCount g p
  linked : ∀ p, g'.linkedRuns p = g.linkedRuns p

theorem SameCounts.refl (g : Graph) : SameCounts g g := ⟨fun _ => rfl, fun _ => rfl⟩

theorem SameCounts.trans {g g' g'' : Graph} (h : SameCounts g g') (h' : SameCounts g' g'') :
    SameCounts g g'' :=
  ⟨fun p => (h'.running p).trans (h.running p), fun p => (h'.linked p).trans (h.linked p)⟩

theorem sameCounts_cancelPlan (g : Graph) (p : Option PlanId) (now : Time) :
    SameCounts g (cancelPlanInTransaction g p now) := by
  cases p with
  | none => exact .refl g
  | some p =>
    refine ⟨fun q => ?_, fun q => Graph.linkedRuns_congr (cancelPlan_attempts g _ now) ?_ q⟩
    · cases q with
      | none => rfl
      | some q =>
        simp only [runningTaskCount, cancelPlanInTransaction]
        apply Table.count_update_of
        intro i t ht
        simp only [decide_eq_true_eq] at ht
        have hne : t.status ≠ .running := by rintro h; simp [h, TaskStatus.isWaiting] at ht
        simp [hne, Task.objectiveCancelled]
    · intro i
      rw [cancelPlan_tasks, Option.map_map]
      congr 1
      funext t
      simp only [Function.comp]
      split <;> rfl

theorem cancellationCleanupPending_congr {d d' : Database} (hs : d'.store = d.store)
    (hg : SameCounts d.graph d'.graph) (p : Option PlanId) :
    cancellationCleanupPending d' p = cancellationCleanupPending d p := by
  cases p with
  | none => rfl
  | some p => simp only [cancellationCleanupPending, hg.linked, hs]

theorem synchronizedStatus_congr {d d' : Database} (hs : d'.store = d.store)
    (hg : SameCounts d.graph d'.graph) (row : SweepRow) :
    synchronizedStatus d' row = synchronizedStatus d row := by
  simp only [synchronizedStatus, hg.running, cancellationCleanupPending_congr hs hg]

/-! ### One objective -/

/-- The row the sweep leaves for an objective that is not terminal. -/
def Objective.swept (d : Database) (id : ObjectiveId) (now : Time) (o : Objective) : Objective :=
  match synchronizedStatus d ⟨id, o, d.graph.planStatus o.planId⟩ with
  | none => { o with heartbeatAt := now }
  | some (new, error) =>
    if new = o.status then { o with heartbeatAt := now } else o.synchronize new error now

/-- The sweep cancels the objective together with its plan. -/
def sweepCancels (d : Database) (o : Objective) : Bool :=
  o.status = .cancelRequested ∧ runningTaskCount d.graph o.planId = 0 ∧
    ¬cancellationCleanupPending d o.planId

theorem synchronizedStatus_cancel {d : Database} {row : SweepRow} {s : ObjectiveStatus}
    {e : Option String} (hc : row.objective.status = .cancelRequested)
    (h : synchronizedStatus d row = some (s, e)) :
    s = .cancelled ∧ sweepCancels d row.objective = true := by
  simp only [synchronizedStatus, hc, if_true] at h
  split at h
  · rename_i hcond
    simp only [Option.some.injEq, Prod.mk.injEq] at h
    exact ⟨h.1.symm, by simp [sweepCancels, hc, hcond]⟩
  · cases h

/-- One turn of the loop, for a row that is still as the `SELECT` read it. -/
theorem synchronizeObjective_eq {d : Database} (now : Time) {q : Queue} {g : Graph}
    {id : ObjectiveId} {o : Objective} (hg : SameCounts d.graph g)
    (ho : q.objectives.get? id = some o) :
    let r := synchronizeObjective d.store now (q, g) ⟨id, o, d.graph.planStatus o.planId⟩
    (∀ j, r.1.objectives.get? j = if j = id then some (o.swept d id now) else q.objectives.get? j) ∧
      r.1.attempts = q.attempts ∧
      r.2 = if sweepCancels d o then cancelPlanInTransaction g o.planId now else g := by
  have hsync : synchronizedStatus ⟨q, g, d.store⟩ ⟨id, o, d.graph.planStatus o.planId⟩ =
      synchronizedStatus d ⟨id, o, d.graph.planStatus o.planId⟩ :=
    synchronizedStatus_congr (show (⟨q, g, d.store⟩ : Database).store = d.store from rfl) hg _
  have hget : ∀ (f : Objective → Objective) j,
      (q.objectives.updateAt id f).get? j = if j = id then some (f o) else q.objectives.get? j := by
    intro f j
    rw [Table.get?_updateAt]
    by_cases hj : j = id
    · subst hj; simp [ho]
    · simp [hj]
  simp only [synchronizeObjective, hsync, Objective.swept]
  cases h : synchronizedStatus d ⟨id, o, d.graph.planStatus o.planId⟩ with
  | none =>
    refine ⟨hget _, rfl, ?_⟩
    have : sweepCancels d o = false := by
      by_contra hc
      simp only [sweepCancels, Bool.not_eq_false, decide_eq_true_eq] at hc
      simp [synchronizedStatus, hc.1, hc.2.1, hc.2.2] at h
    simp [this]
  | some x =>
    obtain ⟨new, error⟩ := x
    have hgraph : (if o.status = .cancelRequested then cancelObjectivePlan g o.planId now else g) =
        if sweepCancels d o then cancelPlanInTransaction g o.planId now else g := by
      by_cases hc : o.status = .cancelRequested
      · rw [if_pos hc, if_pos (synchronizedStatus_cancel hc h).2]; rfl
      · have : sweepCancels d o = false := by simp [sweepCancels, hc]
        rw [if_neg hc, this]; rfl
    by_cases hnew : new = o.status
    · simp only [hnew, if_true]; exact ⟨hget _, trivial, hgraph⟩
    · simp only [if_neg hnew]; exact ⟨hget _, trivial, hgraph⟩

/-! ### The whole sweep -/

/-- The cancellations of the sweep, in the order of its rows. -/
def sweepGraph (d : Database) (now : Time) (rows : List SweepRow) (g : Graph) : Graph :=
  rows.foldl (fun g row =>
    if sweepCancels d row.objective then cancelPlanInTransaction g row.objective.planId now else g) g

/-- The loop over rows with distinct ids that the queue still holds. -/
theorem foldl_synchronizeObjective {d : Database} (now : Time) :
    ∀ {rows : List SweepRow} {q : Queue} {g : Graph}, SameCounts d.graph g →
      (rows.map SweepRow.objectiveId).Nodup →
      (∀ r ∈ rows, q.objectives.get? r.objectiveId = some r.objective ∧
        r.planStatus = d.graph.planStatus r.objective.planId) →
      let s := rows.foldl (synchronizeObjective d.store now) (q, g)
      (∀ j, s.1.objectives.get? j = (q.objectives.get? j).map fun o =>
          if j ∈ rows.map SweepRow.objectiveId then o.swept d j now else o) ∧
        s.1.attempts = q.attempts ∧ s.2 = sweepGraph d now rows g
  | [], q, g, _, _, _ => by simp [sweepGraph]
  | row :: rows, q, g, hg, hnd, hrows => by
      obtain ⟨ho, hps⟩ := hrows row (by simp)
      obtain ⟨hq, hatt, hg'⟩ := synchronizeObjective_eq now hg ho
      rw [show (⟨row.objectiveId, row.objective, d.graph.planStatus row.objective.planId⟩ :
        SweepRow) = row by rw [← hps]] at hq hatt hg'
      simp only [List.map_cons, List.nodup_cons] at hnd
      have hsame : SameCounts d.graph (synchronizeObjective d.store now (q, g) row).2 := by
        rw [hg']
        split
        · exact hg.trans (sameCounts_cancelPlan g _ now)
        · exact hg
      have hrest : ∀ r ∈ rows, (synchronizeObjective d.store now (q, g) row).1.objectives.get?
          r.objectiveId = some r.objective ∧
            r.planStatus = d.graph.planStatus r.objective.planId := by
        intro r hr
        refine ⟨?_, (hrows r (by simp [hr])).2⟩
        have hne : r.objectiveId ≠ row.objectiveId := by
          intro heq
          exact hnd.1 (heq ▸ List.mem_map_of_mem hr)
        rw [hq, if_neg hne]
        exact (hrows r (by simp [hr])).1
      obtain ⟨ih₁, ih₂, ih₃⟩ := foldl_synchronizeObjective now
        (q := (synchronizeObjective d.store now (q, g) row).1)
        (g := (synchronizeObjective d.store now (q, g) row).2) hsame hnd.2 hrest
      simp only [List.foldl_cons]
      refine ⟨fun j => ?_, by rw [ih₂, hatt], by rw [ih₃, hg']; rfl⟩
      rw [ih₁, hq]
      by_cases hj : j = row.objectiveId
      · subst hj; simp [ho, hnd.1]
      · simp [hj]

theorem sweepRows_ids_nodup (d : Database) : ((sweepRows d).map SweepRow.objectiveId).Nodup := by
  have h : (sweepRows d).map SweepRow.objectiveId =
      (orderBy (·.2.createdAt)
        (d.queue.objectives.select fun _ o => !o.status.isTerminal)).map Prod.fst := by
    simp [sweepRows, Function.comp_def]
  rw [h, orderBy, ((List.perm_insertionSort _ _).map Prod.fst).nodup_iff]
  exact (List.filter_sublist.map _).nodup d.queue.objectives.keys

theorem mem_sweepRows {d : Database} {row : SweepRow} :
    row ∈ sweepRows d ↔ d.queue.objectives.get? row.objectiveId = some row.objective ∧
      row.objective.status.isTerminal = false ∧
      row.planStatus = d.graph.planStatus row.objective.planId := by
  simp only [sweepRows, List.mem_map, mem_orderBy, Prod.exists, Table.mem_select]
  constructor
  · rintro ⟨i, o, ⟨ho, ht⟩, rfl⟩; exact ⟨ho, by simpa using ht, rfl⟩
  · rintro ⟨ho, ht, hp⟩
    exact ⟨row.objectiveId, row.objective, ⟨ho, by simpa using ht⟩, by rw [← hp]⟩

theorem mem_sweepRows_ids {d : Database} {id : ObjectiveId} {o : Objective}
    (ho : d.queue.objectives.get? id = some o) :
    id ∈ (sweepRows d).map SweepRow.objectiveId ↔ o.status.isTerminal = false := by
  rw [List.mem_map]
  constructor
  · rintro ⟨row, hrow, rfl⟩
    obtain ⟨hget, ht, -⟩ := mem_sweepRows.1 hrow
    rw [ho, Option.some.injEq] at hget
    rw [hget]; exact ht
  · intro ht
    exact ⟨⟨id, o, d.graph.planStatus o.planId⟩, mem_sweepRows.2 ⟨ho, ht, rfl⟩, rfl⟩

theorem synchronizeObjectiveStates_spec (d : Database) (now : Time) :
    (∀ id, (synchronizeObjectiveStates d now).1.objectives.get? id =
        (d.queue.objectives.get? id).map fun o =>
          if o.status.isTerminal then o else o.swept d id now) ∧
      (synchronizeObjectiveStates d now).1.attempts = d.queue.attempts ∧
      (synchronizeObjectiveStates d now).2 = sweepGraph d now (sweepRows d) d.graph := by
  obtain ⟨h₁, h₂, h₃⟩ := foldl_synchronizeObjective now (q := d.queue)
    (.refl d.graph) (sweepRows_ids_nodup d) fun r hr =>
      ⟨(mem_sweepRows.1 hr).1, (mem_sweepRows.1 hr).2.2⟩
  refine ⟨fun id => ?_, h₂, h₃⟩
  rw [synchronizeObjectiveStates, h₁]
  cases ho : d.queue.objectives.get? id with
  | none => rfl
  | some o =>
    by_cases ht : o.status.isTerminal = true
    · simp [mem_sweepRows_ids ho, ht]
    · simp [mem_sweepRows_ids ho, ht]

end HermesOps
