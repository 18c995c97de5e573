import HermesOps.Model.DaemonLoop
import HermesOps.Properties.AttemptBook
import HermesOps.Properties.HumanGates
import Mathlib.Data.Fintype.EquivFin
import Mathlib.Data.List.Pairwise

/-! `runnable_tasks` against `reserve_attempt`. Both look at the status of the task, its plan, its
    objective and its project, and the selection counts what it has taken as if it ran already. Only the
    reservation looks at the attempt budget and at the open human gates, so the two agree on the states
    in which these refuse nothing that the selection may take. -/

namespace HermesOps

open Schemes

/-! ### The two tests -/

/-- The row passes the tests that the selection and the reservation share. -/
structure Selectable (d : Database) (i : TaskId) (t : Task) (plan : Plan) : Prop where
  row : d.graph.tasks.get? i = some t
  ready : t.status = .ready
  known : d.graph.plans.get? t.planId = some plan
  live : plan.status = .ready ∨ plan.status = .running
  objective : ∀ id o, d.queue.objectives.get? id = some o → o.planId = some t.planId → o.status = .running
  free : projectIsBusy d.graph t.projectId i = false

/-- The task passes the tests that only the reservation makes, the `UNIQUE` attempt number among them. -/
structure Startable (d : Database) (i : TaskId) (t : Task) : Prop where
  budget : t.attemptCount < t.maxAttempts
  ungated : planHasActiveHumanGate d.graph d.store t.planId = false
  number : ∀ j x, d.graph.attempts.get? j = some x → x.taskId = i → x.attemptNumber ≠ t.attemptCount + 1

/-- Every task that the selection may take can start. -/
def NothingRefused (d : Database) : Prop :=
  ∀ i t plan, Selectable d i t plan → runningTaskCount d.graph (some t.planId) < plan.maxParallelTasks →
    Startable d i t

/-- The `UNIQUE` constraint on `objective_queue.plan_id`. -/
def Queue.LinkedOnce (q : Queue) : Prop :=
  ∀ id id' o o' p, q.objectives.get? id = some o → q.objectives.get? id' = some o' →
    o.planId = some p → o'.planId = some p → id = id'

/-- `reserve_attempt` for one task after the other. -/
def reserveAll (d : Database) : List (TaskId × AttemptId × Time) → Except String Database
  | [] => .ok d
  | (taskId, attemptId, now) :: calls =>
    match reserveAttempt d taskId attemptId now with
    | .error e => .error e
    | .ok (graph, _) => reserveAll { d with graph } calls

/-- The attempt identifiers of the calls are new. -/
def FreshIds (d : Database) (calls : List (TaskId × AttemptId × Time)) : Prop :=
  (calls.map fun c => c.2.1).Nodup ∧ ∀ c ∈ calls, d.graph.attempts.get? c.2.1 = none

/-- Whatever is selected can be reserved, in any order. -/
def SelectionAgrees (d : Database) : Prop :=
  ∀ active capacity healthy, ∀ calls : List (TaskId × AttemptId × Time),
    (calls.map Prod.fst).Perm (runnableTasks d active capacity healthy) → FreshIds d calls →
    ∃ d', reserveAll d calls = .ok d'

variable {d d' : Database} {i : TaskId} {j : AttemptId} {now : Time} {t : Task} {plan : Plan}

/-! ### The reservation of a task that can start -/

theorem select_linked (hq : d.queue.LinkedOnce) (p : PlanId) :
    (d.queue.objectives.select fun _ o => o.planId = some p).length ≤ 1 := by
  cases hs : d.queue.objectives.select fun _ o => o.planId = some p with
  | nil => exact Nat.zero_le 1
  | cons x l =>
    have hx := Table.mem_select.1 (hs ▸ List.mem_cons_self : x ∈ d.queue.objectives.select _)
    refine Table.count_le_one (t := d.queue.objectives) (q := fun _ o => o.planId = some p) x.1
      (fun k r hr hp => ?_) |> fun hle => by rwa [Table.count, hs] at hle
    exact hq k x.1 r x.2 p hr hx.1 (of_decide_eq_true hp) (of_decide_eq_true hx.2)

theorem reason_none (hq : d.queue.LinkedOnce) (hs : Selectable d i t plan) (hr : Startable d i t)
    (hroom : runningTaskCount d.graph (some t.planId) < plan.maxParallelTasks) :
    reservationIneligibilityReason d i t = none := by
  have hone := select_linked hq t.planId
  have hrunning : (d.queue.objectives.select fun _ o => o.planId = some t.planId).find?
      (fun x => x.2.status ≠ .running) = none := by
    rw [List.find?_eq_none]
    intro x hx
    obtain ⟨hx, hp⟩ := Table.mem_select.1 hx
    simp [hs.objective x.1 x.2 hx (of_decide_eq_true hp)]
  have hbudget := hr.budget
  unfold reservationIneligibilityReason
  rw [if_neg (by simp [hs.ready]), if_neg (by omega)]
  simp only [hs.known]
  rw [if_neg (not_not.2 hs.live), if_neg (by omega)]
  simp only [hrunning, hr.ungated, hs.free]
  simp only [Bool.false_eq_true, if_false, ge_iff_le, ite_eq_right_iff]
  omega

theorem reserve_ok (hq : d.queue.LinkedOnce) (hs : Selectable d i t plan) (hr : Startable d i t)
    (hroom : runningTaskCount d.graph (some t.planId) < plan.maxParallelTasks)
    (hj : d.graph.attempts.get? j = none) : ∃ g, reserveAttempt d i j now = .ok (g, t) := by
  have hfree : (d.graph.attempts.any fun _ a => a.taskId = i ∧ a.attemptNumber = t.attemptCount + 1) =
      false := by
    rw [Table.any_eq_false_iff]
    intro k x hx
    rw [decide_eq_false_iff_not]
    rintro ⟨hxi, hxn⟩
    exact hr.number k x hx hxi hxn
  unfold reserveAttempt
  simp only [hs.row, reason_none hq hs hr hroom, hfree]
  obtain ⟨attempts, hins⟩ := Table.insert_of_get?_eq_none hj
    { taskId := i, attemptNumber := t.attemptCount + 1, status := .running, runId := none,
      failureReason := none, startedAt := now, heartbeatAt := now, finishedAt := none : Attempt }
  simp only [hins]
  exact ⟨_, rfl⟩

/-! ### Tasks that can be reserved together -/

/-- The task is one of the plan. -/
def Graph.ofPlan (g : Graph) (p : PlanId) (i : TaskId) : Bool := (g.tasks.get? i).any fun t => t.planId = p

/-- Distinct tasks that can start, of distinct projects, with room for all of them in their plans. -/
structure Reservable (d : Database) (l : List TaskId) : Prop where
  nodup : l.Nodup
  eligible : ∀ i ∈ l, ∃ t plan, Selectable d i t plan ∧ Startable d i t
  room : ∀ i ∈ l, ∀ t plan, Selectable d i t plan →
    runningTaskCount d.graph (some t.planId) + (l.filter (d.graph.ofPlan t.planId)).length ≤
      plan.maxParallelTasks
  apart : ∀ i ∈ l, ∀ k ∈ l, i ≠ k → ∀ t u p, d.graph.tasks.get? i = some t →
    d.graph.tasks.get? k = some u → t.projectId = some p → u.projectId ≠ some p

theorem Reservable.perm {l l' : List TaskId} (h : Reservable d l) (hp : l.Perm l') : Reservable d l' := by
  refine ⟨hp.nodup_iff.1 h.nodup, fun i hi => h.eligible i (hp.mem_iff.2 hi), fun i hi t plan hs => ?_,
    fun i hi k hk => h.apart i (hp.mem_iff.2 hi) k (hp.mem_iff.2 hk)⟩
  rw [← (hp.filter _).length_eq]
  exact h.room i (hp.mem_iff.2 hi) t plan hs

theorem Selectable.eq {u : Task} {plan' : Plan} (h : Selectable d i t plan) (h' : Selectable d i u plan') :
    t = u ∧ plan = plan' := by
  have ht := h.row
  rw [h'.row] at ht
  cases ht
  have hp := h.known
  rw [h'.known] at hp
  cases hp
  exact ⟨rfl, rfl⟩

/-- What a reservation leaves for the other tasks. -/
structure Reserved (d : Database) (g : Graph) (i : TaskId) (j : AttemptId) (t : Task) : Prop where
  plans : g.plans = d.graph.plans
  own : ∃ t', g.tasks.get? i = some t' ∧ t.Carries t'
  others : ∀ k, k ≠ i → g.tasks.get? k = d.graph.tasks.get? k
  attempts : ∀ k x, g.attempts.get? k = some x →
    d.graph.attempts.get? k = some x ∨ (x.taskId = i ∧ x.runId = none)
  fewer : ∀ k, d.graph.attempts.get? k = none → k ≠ j → g.attempts.get? k = none

theorem reserved_of {g : Graph} (h : reserveAttempt d i j now = .ok (g, t)) : Reserved d g i j t := by
  obtain ⟨htask, -, -, hplans, -, hcarry, -, x, hxi, hxr, hins⟩ := reserveAttempt_ok h
  obtain ⟨-, -, hrel, -⟩ := reserveAttempt_rows h
  refine ⟨hplans, ?_, fun k hk => ?_, fun k y hy => ?_, fun k hk hkj => ?_⟩
  · obtain ⟨t', ht', hc, -⟩ := hcarry.forth htask
    exact ⟨t', ht', hc⟩
  · cases hd : d.graph.tasks.get? k with
    | none => exact (hrel.none_iff k).2 hd
    | some u =>
      obtain ⟨u', hu', hst⟩ := hrel.forth hd
      rw [if_neg hk] at hst
      rw [hu', hst]
  · rw [Table.get?_insert hins] at hy
    split at hy
    · cases hy
      exact .inr ⟨hxi, hxr⟩
    · exact .inl hy
  · rw [Table.get?_insert hins, if_neg hkj]
    exact hk

variable {g : Graph} {k : TaskId} {u : Task}

/-- The gates of the plans are where they were: the new attempt has no run yet. -/
theorem Reserved.gate (h : Reserved d g i j t) (ht : d.graph.tasks.get? i = some t) {p : PlanId}
    (hp : planHasActiveHumanGate d.graph d.store p = false) :
    planHasActiveHumanGate g d.store p = false := by
  unfold planHasActiveHumanGate at hp ⊢
  rw [List.any_eq_false] at hp ⊢
  intro r hr
  refine hp r ?_
  obtain ⟨l, x, y, hx, hy, hyp, hxr⟩ := Graph.mem_linkedRuns.1 hr
  rcases h.attempts l x hx with hx | ⟨-, hnone⟩
  · by_cases hxi : x.taskId = i
    · obtain ⟨t', ht', hc⟩ := h.own
      rw [hxi, ht'] at hy
      cases hy
      exact Graph.mem_linkedRuns.2 ⟨l, x, t, hx, by rw [hxi, ht], hc.plan.symm.trans hyp, hxr⟩
    · rw [h.others _ hxi] at hy
      exact Graph.mem_linkedRuns.2 ⟨l, x, y, hx, hy, hyp, hxr⟩
  · rw [hnone] at hxr
    cases hxr

theorem Reserved.selectable (h : Reserved d g i j t) (ht : d.graph.tasks.get? i = some t) (hk : k ≠ i)
    (hapart : ∀ p, t.projectId = some p → u.projectId ≠ some p) :
    Selectable { d with graph := g } k u plan ↔ Selectable d k u plan := by
  have hfree : projectIsBusy g u.projectId k = false ↔ projectIsBusy d.graph u.projectId k = false := by
    cases hp : u.projectId with
    | none => exact Iff.rfl
    | some p =>
      have hother : ∀ l y, g.tasks.get? l = some y → y.projectId = some p → d.graph.tasks.get? l = some y := by
        intro l y hy hyp
        by_cases hli : l = i
        · obtain ⟨t', ht', hc⟩ := h.own
          rw [hli, ht'] at hy
          cases hy
          exact absurd hp (hapart p (hc.project.symm.trans hyp))
        · rw [← h.others l hli]; exact hy
      have hback : ∀ l y, d.graph.tasks.get? l = some y → y.projectId = some p → g.tasks.get? l = some y := by
        intro l y hy hyp
        by_cases hli : l = i
        · rw [hli, ht] at hy
          cases hy
          exact absurd hp (hapart p hyp)
        · rw [h.others l hli]; exact hy
      simp only [projectIsBusy, Table.any_eq_false_iff]
      constructor
      · intro hall l y hy
        by_cases hyp : y.projectId = some p
        · exact hall l y (hback l y hy hyp)
        · simp [hyp]
      · intro hall l y hy
        by_cases hyp : y.projectId = some p
        · exact hall l y (hother l y hy hyp)
        · simp [hyp]
  constructor
  · rintro ⟨hrow, hready, hknown, hlive, hobj, hbusy⟩
    exact ⟨by rw [← h.others k hk]; exact hrow, hready, by rw [← h.plans]; exact hknown, hlive, hobj,
      hfree.1 hbusy⟩
  · rintro ⟨hrow, hready, hknown, hlive, hobj, hbusy⟩
    exact ⟨by rw [← hrow]; exact h.others k hk, hready, by rw [← hknown, ← h.plans], hlive, hobj,
      hfree.2 hbusy⟩

theorem Reserved.ofPlan (h : Reserved d g i j t) (ht : d.graph.tasks.get? i = some t) (p : PlanId)
    (l : TaskId) : g.ofPlan p l = d.graph.ofPlan p l := by
  unfold Graph.ofPlan
  by_cases hl : l = i
  · obtain ⟨t', ht', hc⟩ := h.own
    rw [hl, ht', ht, Option.any_some, Option.any_some, hc.plan]
  · rw [h.others l hl]

/-- One task more runs, in the plan of the reserved one. -/
theorem Reserved.running (h : Reserved d g i j t) (p : PlanId) :
    runningTaskCount g (some p) ≤
      runningTaskCount d.graph (some p) + if t.planId = p then 1 else 0 := by
  split
  · refine Table.count_le_succ i fun l y hy hq => ?_
    by_cases hl : l = i
    · exact .inl hl
    · exact .inr ⟨y, by rw [← h.others l hl]; exact hy, hq⟩
  · rename_i hne
    refine Table.count_le fun l y hy hq => ?_
    by_cases hl : l = i
    · obtain ⟨t', ht', hc⟩ := h.own
      rw [hl, ht'] at hy
      cases hy
      exact absurd (hc.plan.symm.trans (of_decide_eq_true hq).1) hne
    · exact ⟨y, by rw [← h.others l hl]; exact hy, hq⟩

/-- The first of them can be reserved, and the others can be reserved after it. -/
theorem Reservable.reserve {l : List TaskId} (hq : d.queue.LinkedOnce) (hR : Reservable d (i :: l))
    (hj : d.graph.attempts.get? j = none) : ∃ g t, reserveAttempt d i j now = .ok (g, t) ∧
      Reserved d g i j t ∧ Reservable { d with graph := g } l := by
  obtain ⟨t, plan, hs, hstart⟩ := hR.eligible i List.mem_cons_self
  obtain ⟨hi, hnodup⟩ := List.nodup_cons.1 hR.nodup
  have hmine : d.graph.ofPlan t.planId i = true := by simp [Graph.ofPlan, hs.row]
  have hroom := hR.room i List.mem_cons_self t plan hs
  rw [List.filter_cons, if_pos hmine, List.length_cons] at hroom
  obtain ⟨g, hg⟩ := reserve_ok hq hs hstart (by omega) hj
  have hres := reserved_of hg
  have hne : ∀ k ∈ l, k ≠ i := fun k hk hki => hi (hki ▸ hk)
  have hsel : ∀ k ∈ l, ∀ u plan', Selectable { d with graph := g } k u plan' ↔
      Selectable d k u plan' := by
    intro k hk u plan'
    constructor
    · intro hku
      have hrow : d.graph.tasks.get? k = some u := by rw [← hres.others k (hne k hk)]; exact hku.row
      exact (hres.selectable hs.row (hne k hk) fun p => hR.apart i List.mem_cons_self k
        (List.mem_cons_of_mem _ hk) (hne k hk).symm t u p hs.row hrow).1 hku
    · intro hku
      exact (hres.selectable hs.row (hne k hk) fun p => hR.apart i List.mem_cons_self k
        (List.mem_cons_of_mem _ hk) (hne k hk).symm t u p hs.row hku.row).2 hku
  refine ⟨g, t, hg, hres, hnodup, fun k hk => ?_, fun k hk u plan' hku => ?_, fun k hk m hm hkm u v p hu hv => ?_⟩
  · obtain ⟨u, plan', hku, hbudget, hgate, hnum⟩ := hR.eligible k (List.mem_cons_of_mem _ hk)
    refine ⟨u, plan', (hsel k hk u plan').2 hku, hbudget, hres.gate hs.row hgate, fun m x hx hxk => ?_⟩
    rcases hres.attempts m x hx with hx | ⟨hxi, -⟩
    · exact hnum m x hx hxk
    · exact absurd (hxk.symm.trans hxi) (hne k hk)
  · have hold := hR.room k (List.mem_cons_of_mem _ hk) u plan' ((hsel k hk u plan').1 hku)
    have hrun := hres.running u.planId
    have hfilter : l.filter (g.ofPlan u.planId) = l.filter (d.graph.ofPlan u.planId) :=
      List.filter_congr fun m _ => hres.ofPlan hs.row u.planId m
    change runningTaskCount g (some u.planId) + (l.filter (g.ofPlan u.planId)).length ≤ _
    rw [hfilter]
    rw [List.filter_cons] at hold
    have hcount : d.graph.ofPlan u.planId i = decide (t.planId = u.planId) := by
      simp [Graph.ofPlan, hs.row]
    rw [hcount] at hold
    by_cases hp : t.planId = u.planId
    · simp only [hp, decide_true, if_true, List.length_cons] at hold hrun
      omega
    · simp only [hp, decide_false, Bool.false_eq_true, if_false] at hold hrun
      omega
  · have hu' : d.graph.tasks.get? k = some u := by rw [← hres.others k (hne k hk)]; exact hu
    have hv' : d.graph.tasks.get? m = some v := by rw [← hres.others m (hne m hm)]; exact hv
    exact hR.apart k (List.mem_cons_of_mem _ hk) m (List.mem_cons_of_mem _ hm) hkm u v p hu' hv'

theorem reserveAll_ok : ∀ (d : Database) (calls : List (TaskId × AttemptId × Time)), d.queue.LinkedOnce →
    Reservable d (calls.map Prod.fst) → FreshIds d calls → ∃ d', reserveAll d calls = .ok d'
  | d, [], _, _, _ => ⟨d, rfl⟩
  | d, (i, j, now) :: calls, hq, hR, ⟨hnodup, hfresh⟩ => by
      obtain ⟨g, t, hg, hres, hrest⟩ :=
        Reservable.reserve hq hR (hfresh _ List.mem_cons_self)
      obtain ⟨hj, hnodup⟩ := List.nodup_cons.1 hnodup
      obtain ⟨d', hd'⟩ := reserveAll_ok { d with graph := g } calls hq hrest
        ⟨hnodup, fun c hc => hres.fewer c.2.1 (hfresh c (List.mem_cons_of_mem _ hc)) fun hcj =>
          hj (List.mem_map.2 ⟨c, hc, hcj⟩)⟩
      refine ⟨d', ?_⟩
      rw [reserveAll, hg]
      exact hd'

/-! ### The selection -/

theorem mem_runnableRows {r : RunnableRow} (hr : r ∈ runnableRows d) :
    d.graph.tasks.get? r.taskId = some r.task ∧ r.task.status = .ready ∧
      d.graph.plans.get? r.task.planId = some r.plan ∧
      (r.plan.status = .ready ∨ r.plan.status = .running) ∧
      ((d.queue.objectives.select fun _ o => o.planId = some r.task.planId).head?.all
        fun o => o.2.status = .running) = true := by
  rw [runnableRows, List.mem_insertionSort, List.mem_filterMap] at hr
  obtain ⟨⟨i, t⟩, hx, hr⟩ := hr
  obtain ⟨ht, hready⟩ := Table.mem_select.1 hx
  split at hr
  · cases hr
  · rename_i plan hplan
    dsimp only at hr hplan
    split at hr
    · rename_i hlive
      cases hr
      exact ⟨ht, of_decide_eq_true hready, hplan, hlive.1, hlive.2⟩
    · cases hr

theorem runnableRows_nodup (d : Database) : ((runnableRows d).map RunnableRow.taskId).Nodup := by
  rw [runnableRows]
  refine ((List.perm_insertionSort _ _).map _).nodup_iff.2 ?_
  refine List.Nodup.sublist ?_ (Table.nodup_select_keys d.graph.tasks fun _ t => t.status = .ready)
  generalize d.graph.tasks.select _ = rows
  induction rows with
  | nil => exact List.Sublist.slnil
  | cons x rows ih =>
    rw [List.filterMap_cons, List.map_cons]
    split
    · exact ih.cons _
    · rename_i r hr
      rw [List.map_cons]
      have hid : r.taskId = x.1 := by
        split at hr
        · cases hr
        · dsimp only at hr
          split at hr
          · cases hr; rfl
          · cases hr
      rw [hid]
      exact ih.cons_cons _

/-- A row has an objective that runs, if it has one. -/
theorem row_objective (hq : d.queue.LinkedOnce) {r : RunnableRow} (hr : r ∈ runnableRows d)
    {id : ObjectiveId} {o : Objective} (ho : d.queue.objectives.get? id = some o)
    (hp : o.planId = some r.task.planId) : o.status = .running := by
  obtain ⟨-, -, -, -, hobj⟩ := mem_runnableRows hr
  have hmem : (id, o) ∈ d.queue.objectives.select fun _ o => o.planId = some r.task.planId :=
    Table.mem_select.2 ⟨ho, decide_eq_true hp⟩
  have hone := select_linked hq r.task.planId
  generalize d.queue.objectives.select (fun _ o => o.planId = some r.task.planId) = l at hobj hmem hone
  cases l with
  | nil => cases hmem
  | cons x l =>
    obtain rfl : l = [] := List.length_eq_zero_iff.1 (by rw [List.length_cons] at hone; omega)
    obtain rfl := List.mem_singleton.1 hmem
    simpa using hobj

/-- The rows taken so far. -/
structure Taken (d : Database) (selected : List RunnableRow) : Prop where
  free : ∀ r ∈ selected, projectIsBusy d.graph r.task.projectId r.taskId = false
  room : ∀ r ∈ selected, runningTaskCount d.graph (some r.task.planId) +
    (selected.filter fun x => x.task.planId = r.task.planId).length ≤ r.plan.maxParallelTasks
  apart : selected.Pairwise fun x y => ∀ p, x.task.projectId = some p → y.task.projectId ≠ some p

theorem Taken.add {selected : List RunnableRow} {r : RunnableRow} {active : List TaskId} {healthy : Bool}
    (hT : Taken d selected) (hrows : ∀ x ∈ selected, x ∈ runnableRows d) (hr : r ∈ runnableRows d)
    (hskip : ¬r.skipped d active healthy selected) : Taken d (selected ++ [r]) := by
  simp only [RunnableRow.skipped, decide_eq_true_eq, not_or, not_le, ge_iff_le,
    Bool.not_eq_true] at hskip
  obtain ⟨-, -, hroom, hbusy, hproject⟩ := hskip
  refine ⟨fun x hx => ?_, fun x hx => ?_, ?_⟩
  · rcases List.mem_append.1 hx with hx | hx
    · exact hT.free x hx
    · rw [List.mem_singleton.1 hx]; exact hbusy
  · rw [List.filter_append, List.length_append]
    rcases List.mem_append.1 hx with hx | hx
    · have hold := hT.room x hx
      by_cases hp : r.task.planId = x.task.planId
      · -- the rows of one plan carry the same limit
        have hplan : x.plan = r.plan := by
          have h₁ := (mem_runnableRows (hrows x hx)).2.2.1
          have h₂ := (mem_runnableRows hr).2.2.1
          rw [hp, h₁] at h₂
          exact Option.some.inj h₂
        rw [hp] at hroom
        simp only [List.filter_cons, hp, decide_true, if_true, List.filter_nil, List.length_singleton]
        rw [hplan]
        omega
      · simp only [List.filter_cons, hp, decide_false, Bool.false_eq_true, if_false, List.filter_nil,
          List.length_nil, Nat.add_zero]
        exact hold
    · rw [List.mem_singleton.1 hx]
      simp only [List.filter_cons, decide_true, if_true, List.filter_nil, List.length_singleton]
      omega
  · rw [List.pairwise_append]
    refine ⟨hT.apart, List.pairwise_singleton _ _, fun x hx y hy p hxp hyp => ?_⟩
    rw [List.mem_singleton.1 hy] at hyp
    exact hproject ⟨by rw [hyp]; rfl, List.any_eq_true.2 ⟨x, hx, decide_eq_true (hxp.trans hyp.symm)⟩⟩

/-- The loop adds some of the rows, in their order, and what it has taken goes together. -/
theorem selectRunnable_taken {active : List TaskId} {healthy : Bool} {capacity : Nat}
    (rows : List RunnableRow) (hrows : ∀ r ∈ rows, r ∈ runnableRows d) :
    ∀ {selected : List RunnableRow}, Taken d selected → (∀ x ∈ selected, x ∈ runnableRows d) →
      ∃ taken : List RunnableRow, taken.Sublist rows ∧
        selectRunnable d active healthy capacity rows selected = selected ++ taken ∧
        Taken d (selected ++ taken) := by
  induction rows with
  | nil =>
    intro selected hT _
    exact ⟨[], .slnil, (List.append_nil _).symm, by rwa [List.append_nil]⟩
  | cons r rows ih =>
    intro selected hT hsel
    have ih := @ih fun x hx => hrows x (List.mem_cons_of_mem _ hx)
    rw [selectRunnable]
    split
    · obtain ⟨taken, hsub, heq, hT'⟩ := ih hT hsel
      exact ⟨taken, hsub.cons _, heq, hT'⟩
    · rename_i hskip
      have hadd := hT.add hsel (hrows r List.mem_cons_self) hskip
      split
      · exact ⟨[r], (List.nil_sublist rows).cons_cons r, rfl, hadd⟩
      · obtain ⟨taken, hsub, heq, hT'⟩ := ih hadd fun x hx => by
          rcases List.mem_append.1 hx with hx | hx
          · exact hsel x hx
          · rw [List.mem_singleton.1 hx]; exact hrows r List.mem_cons_self
        refine ⟨r :: taken, hsub.cons_cons r, ?_, ?_⟩
        · rw [heq, List.append_assoc, List.singleton_append]
        · rw [List.append_assoc, List.singleton_append] at hT'
          exact hT'

/-- A row that can be taken. -/
theorem row_selectable (hq : d.queue.LinkedOnce) {r : RunnableRow} (hr : r ∈ runnableRows d)
    (hfree : projectIsBusy d.graph r.task.projectId r.taskId = false) :
    Selectable d r.taskId r.task r.plan := by
  obtain ⟨hrow, hready, hknown, hlive, -⟩ := mem_runnableRows hr
  exact ⟨hrow, hready, hknown, hlive, fun _ _ ho hp => row_objective hq hr ho hp, hfree⟩

/-- What is selected can be reserved when nothing is refused. -/
theorem runnable_reservable (hq : d.queue.LinkedOnce) (hN : NothingRefused d) (active : List TaskId)
    (capacity : Nat) (healthy : Bool) : Reservable d (runnableTasks d active capacity healthy) := by
  unfold runnableTasks
  split
  · exact ⟨List.nodup_nil, fun _ h => (nomatch h), fun _ h => (nomatch h), fun _ h => (nomatch h)⟩
  have hnone : Taken d [] := ⟨fun _ h => (nomatch h), fun _ h => (nomatch h), .nil⟩
  obtain ⟨taken, hsub, heq, hT⟩ := @selectRunnable_taken d active healthy capacity
    (runnableRows d) (fun _ h => h) [] hnone fun _ h => (nomatch h)
  rw [heq, List.nil_append]
  rw [List.nil_append] at hT
  have hmem : ∀ r ∈ taken, r ∈ runnableRows d := fun r hr => hsub.subset hr
  have hnodup : (taken.map RunnableRow.taskId).Nodup :=
    (runnableRows_nodup d).sublist (hsub.map _)
  have hsel : ∀ r ∈ taken, Selectable d r.taskId r.task r.plan :=
    fun r hr => row_selectable hq (hmem r hr) (hT.free r hr)
  have hcount : ∀ p, ((taken.map RunnableRow.taskId).filter (d.graph.ofPlan p)).length =
      (taken.filter fun x => x.task.planId = p).length := by
    intro p
    rw [List.filter_map, List.length_map]
    refine congrArg List.length (List.filter_congr fun r hr => ?_)
    simp [Graph.ofPlan, (hsel r hr).row]
  refine ⟨hnodup, fun i hi => ?_, fun i hi t plan hs => ?_, fun i hi k hk hne t u p ht hu htp => ?_⟩
  · obtain ⟨r, hr, rfl⟩ := List.mem_map.1 hi
    have hroom := hT.room r hr
    have hself : 0 < (taken.filter fun x => x.task.planId = r.task.planId).length :=
      List.length_pos_of_mem (List.mem_filter.2 ⟨hr, decide_eq_true rfl⟩)
    exact ⟨r.task, r.plan, hsel r hr, hN r.taskId r.task r.plan (hsel r hr) (by omega)⟩
  · obtain ⟨r, hr, rfl⟩ := List.mem_map.1 hi
    obtain ⟨rfl, rfl⟩ := hs.eq (hsel r hr)
    rw [hcount]
    exact hT.room r hr
  · obtain ⟨r, hr, rfl⟩ := List.mem_map.1 hi
    obtain ⟨x, hx, rfl⟩ := List.mem_map.1 hk
    rw [(hsel r hr).row] at ht
    rw [(hsel x hx).row] at hu
    cases ht
    cases hu
    have hxr : r ≠ x := by
      rintro rfl
      exact hne rfl
    have hsymm : Std.Symm fun a b : RunnableRow =>
        ∀ p, a.task.projectId = some p → b.task.projectId ≠ some p :=
      ⟨fun _ _ hab p hb ha => hab p ha hb⟩
    exact hT.apart.forall hr hx hxr p htp

/-! ### A selection of one task -/

/-- When the rows of the other tasks are skipped, the loop takes the row of the task. -/
theorem selectRunnable_only {active : List TaskId} {healthy : Bool} {rows : List RunnableRow}
    (hother : ∀ r ∈ rows, r.taskId ≠ i → r.skipped d active healthy [] = true)
    (hown : ∀ r ∈ rows, r.taskId = i → r.skipped d active healthy [] = false)
    (hmem : ∃ r ∈ rows, r.taskId = i) :
    (selectRunnable d active healthy 1 rows []).map RunnableRow.taskId = [i] := by
  induction rows with
  | nil =>
    obtain ⟨r, hr, -⟩ := hmem
    cases hr
  | cons r rows ih =>
    rw [selectRunnable]
    by_cases hr : r.taskId = i
    · rw [hown r List.mem_cons_self hr]
      simp [hr]
    · rw [if_pos (hother r List.mem_cons_self hr)]
      refine ih (fun x hx => hother x (List.mem_cons_of_mem _ hx))
        (fun x hx => hown x (List.mem_cons_of_mem _ hx)) ?_
      obtain ⟨x, hx, hxi⟩ := hmem
      rcases List.mem_cons.1 hx with rfl | hx
      · exact absurd hxi hr
      · exact ⟨x, hx, hxi⟩

/-- A row passes the join when its task is selectable. -/
theorem Selectable.row_mem (hs : Selectable d i t plan) : ∃ r ∈ runnableRows d, r.taskId = i := by
  let objective := (d.queue.objectives.select fun _ o => o.planId = some t.planId).head?
  have hobj : objective.all (fun o => o.2.status = .running) = true := by
    cases ho : objective with
    | none => rfl
    | some o =>
      obtain ⟨hget, hp⟩ := Table.mem_select.1 (List.mem_of_head? ho)
      exact decide_eq_true (hs.objective o.1 o.2 hget (of_decide_eq_true hp))
  refine ⟨⟨i, t, plan, objective.map Prod.snd⟩, ?_, rfl⟩
  rw [runnableRows, List.mem_insertionSort, List.mem_filterMap]
  refine ⟨(i, t), Table.mem_select.2 ⟨hs.row, decide_eq_true hs.ready⟩, ?_⟩
  simp only [hs.known]
  exact if_pos ⟨hs.live, hobj⟩

/-- A daemon that has everything else in hand selects the task. -/
theorem Selectable.selected (hs : Selectable d i t plan)
    (hroom : runningTaskCount d.graph (some t.planId) < plan.maxParallelTasks) :
    runnableTasks d (((runnableRows d).map RunnableRow.taskId).filter (· ≠ i)) 1 true = [i] := by
  rw [runnableTasks, if_neg Nat.one_ne_zero]
  refine selectRunnable_only (fun r hr hri => ?_) (fun r hr hri => ?_) hs.row_mem
  · refine decide_eq_true (.inl (List.mem_filter.2 ⟨List.mem_map_of_mem hr, ?_⟩))
    exact decide_eq_true hri
  · obtain ⟨hrow, -, hknown, -⟩ := mem_runnableRows hr
    rw [hri, hs.row] at hrow
    obtain rfl := Option.some.inj hrow
    rw [hs.known] at hknown
    obtain rfl := Option.some.inj hknown
    rw [RunnableRow.skipped, decide_eq_false_iff_not]
    rintro (hact | ⟨-, hsick⟩ | hfull | hbusy | ⟨-, hsame⟩)
    · simp [hri] at hact
    · exact hsick rfl
    · rw [List.filter_nil, List.length_nil] at hfull
      omega
    · rw [hri, hs.free] at hbusy
      cases hbusy
    · cases hsame

/-- Some identifier is new. -/
theorem fresh_attempt (d : Database) : ∃ j, d.graph.attempts.get? j = none := by
  obtain ⟨j, hj⟩ := Infinite.exists_notMem_finset (d.graph.attempts.rows.map Prod.fst).toFinset
  rw [List.mem_toFinset] at hj
  exact ⟨j, Table.get?_eq_none_iff.2 hj⟩

theorem reserve_startable {g : Graph} {u : Task} (h : reserveAttempt d i j now = .ok (g, u)) :
    Startable d i u := by
  obtain ⟨htask, helig, -⟩ := reserveAttempt_ok h
  obtain ⟨hbudget, -, -, -, -, hgate, -⟩ := reservation_eligible helig
  refine ⟨hbudget, hgate, fun k x hx hxi hxn => ?_⟩
  have hany : (d.graph.attempts.any fun _ a => a.taskId = i ∧ a.attemptNumber = u.attemptCount + 1) =
      true := Table.any_iff.2 ⟨k, x, hx, decide_eq_true ⟨hxi, hxn⟩⟩
  simp only [reserveAttempt, htask, helig, hany, if_true] at h
  cases h

/-! ### The agreement -/

/-- Every selection can be reserved, in any order, exactly when each task that the selection may take
    has attempts left, under a number of their own, and no plan of such a task waits for a human. -/
theorem selection_agrees_iff (d : Database) (hq : d.queue.LinkedOnce) :
    SelectionAgrees d ↔ NothingRefused d := by
  constructor
  · intro hA i t plan hs hroom
    obtain ⟨j, hj⟩ := fresh_attempt d
    obtain ⟨d', hd'⟩ := hA _ 1 true [(i, j, 0)] (by rw [hs.selected hroom]; exact .refl _)
      ⟨List.nodup_singleton _, fun c hc => by rw [List.mem_singleton.1 hc]; exact hj⟩
    rw [reserveAll] at hd'
    cases hr : reserveAttempt d i j 0 with
    | error e =>
      rw [hr] at hd'
      cases hd'
    | ok x =>
      obtain ⟨g, u⟩ := x
      have hu := (reserveAttempt_ok hr).1
      rw [hs.row] at hu
      cases hu
      exact reserve_startable hr
  · intro hN active capacity healthy calls hperm hfresh
    exact reserveAll_ok d calls hq ((runnable_reservable hq hN active capacity healthy).perm hperm.symm)
      hfresh

/-- The run of the first task waits for a human, and the second task has not been started. -/
def gatedFirst : List Action :=
  [ .graph (.importPlan twinPlan 0 0 false true 1),
    .graph (.refresh 0 2),
    .graph (.reserve 0 0 3),
    .thread 0 10 0 false,
    .process 0 11 0 false,
    .process 0 12 0 false,
    .process 0 13 0 false,
    .thread 0 14 0 false,
    .thread 0 15 0 false,
    .environment (.worktree 0 ⟨true, true, true, true, 1⟩),
    .thread 0 16 2 false,
    .process 2 17 0 false,
    .process 2 18 0 false,
    .process 2 19 0 false,
    .thread 0 20 0 false,
    .environment (.review 0 (Scenario.humanReview 0 1)),
    .thread 0 101 0 false,
    .thread 0 102 0 false,
    .thread 0 103 3 false,
    .process 3 104 0 false,
    .process 3 105 0 false,
    .process 3 106 0 false,
    .process 3 107 0 false ]

/-- The database with the gate. -/
def gatedDatabase : Database := (Scenario.system.run (World.initial twinProjects) gatedFirst).db

theorem gatedDatabase_linked : gatedDatabase.queue.LinkedOnce := by
  have hempty : gatedDatabase.queue.objectives.rows = [] := by decide
  intro id _ o _ p ho
  rw [← Table.mem_rows_iff, hempty] at ho
  cases ho

/-- The equivalence on the database with the gate. -/
theorem selection_agrees_gated : SelectionAgrees gatedDatabase ↔ NothingRefused gatedDatabase :=
  selection_agrees_iff gatedDatabase gatedDatabase_linked

set_option maxRecDepth 20000 in
/-- The second task is selected, and its reservation is refused. -/
theorem gated_task_selected : gatedDatabase.queue.LinkedOnce ∧ ¬SelectionAgrees gatedDatabase := by
  refine ⟨gatedDatabase_linked, fun hA => ?_⟩
  obtain ⟨d', hd'⟩ := hA [0] 1 true [(1, 1, 108)] (by decide)
    ⟨by decide, fun c hc => by rw [List.mem_singleton.1 hc]; decide⟩
  have hrefused : (reserveAll gatedDatabase [(1, 1, 108)]).isOk = false := by decide
  rw [hd'] at hrefused
  cases hrefused

end HermesOps
