import HermesOps.Properties.PlanWrites
import HermesOps.Properties.Scenario

/-! The limits on concurrent tasks. A plan keeps the `max_parallel_tasks` it was inserted with, and
    the reservation is the only step that makes a task `RUNNING`; it re-checks the plan's limit, the
    project and the attempt budget inside its own transaction. So the limits hold in every state,
    however stale the selection that led to a reservation was. -/

namespace HermesOps

open Schemes

/-! ### The limits -/

/-- The limit on the running tasks of a plan; a plan that is gone has none. -/
def Graph.taskLimit (g : Graph) (p : PlanId) : Nat := ((g.plans.get? p).map Plan.maxParallelTasks).getD 0

/-- The running tasks of a project. -/
def Graph.projectRunningCount (g : Graph) (project : ProjectId) : Nat :=
  g.tasks.count fun _ t => t.projectId = some project ∧ t.status = .running

/-- What the reservation keeps. -/
structure WithinLimits (g : Graph) : Prop where
  parallel : ∀ p, runningTaskCount g (some p) ≤ g.taskLimit p
  writer : ∀ project, g.projectRunningCount project ≤ 1
  budget : g.tasks.All fun _ t => t.attemptCount ≤ t.maxAttempts

/-! ### One step -/

variable {w w' : World}

theorem taskLimit_le {p : PlanId} (hl : PlanStep w w')
    (hp : w'.db.graph.plans.get? p = none → w.db.graph.plans.get? p = none) :
    w.db.graph.taskLimit p ≤ w'.db.graph.taskLimit p := by
  unfold Graph.taskLimit
  cases hx' : w'.db.graph.plans.get? p with
  | none => rw [hp hx']
  | some x' =>
    rcases hl p x' hx' with ⟨hx, -⟩ | ⟨x, hx, hwrite⟩
    · rw [hx]; exact Nat.zero_le _
    · rw [hx]
      rcases hwrite with hkept | ⟨hlim, -⟩
      · exact Nat.le_of_eq hkept.limit.symm
      · exact Nat.le_of_eq hlim.symm

/-- What the check inside the reservation says of the limits. -/
theorem reservation_limits {d : Database} {i : TaskId} {t : Task}
    (h : reservationIneligibilityReason d i t = none) :
    t.attemptCount < t.maxAttempts ∧
      runningTaskCount d.graph (some t.planId) < d.graph.taskLimit t.planId ∧
      projectIsBusy d.graph t.projectId i = false := by
  obtain ⟨hbudget, hbusy, plan, hplan, -, -, hlimit⟩ := reservation_eligible h
  refine ⟨hbudget, ?_, hbusy⟩
  simp only [Graph.taskLimit, hplan, Option.map_some, Option.getD_some]
  exact hlimit

/-- A task runs after a step because it ran before it, or because the step reserves it. -/
theorem TaskMove.running {i : TaskId} {t t' : Task} {a : Action} (hm : TaskMove w i t a t')
    (hr : t'.status = .running) : t.status = .running ∨
      ((∃ j now, a = .graph (.reserve i j now)) ∧
        reservationIneligibilityReason w.db i t = none) := by
  cases hm with
  | stopped h =>
    rcases h.status with hs | ⟨-, hs | hs⟩
    · exact .inl (hs ▸ hr)
    · rw [hs] at hr; cases hr
    · rw [hs] at hr; cases hr
  | readied _ _ _ _ h => rw [h] at hr; cases hr
  | reserved _ _ _ h => exact .inr ⟨⟨_, _, rfl⟩, h⟩
  | completed _ _ _ _ _ _ _ h => rw [h] at hr; cases hr
  | failed _ _ _ _ h => rcases h with h | h <;> (rw [h] at hr; cases hr)
  | recovered _ _ _ _ h =>
    rcases h with h | h | ⟨h, -⟩ <;> (rw [h] at hr; cases hr)

/-- The tasks that run in the next world ran before, but for at most one that was eligible. -/
theorem running_cases {a : Action}
    (h : Table.Related (fun i t => TaskMove w i t a) w.db.graph.tasks w'.db.graph.tasks) :
    (∀ k t', w'.db.graph.tasks.get? k = some t' → t'.status = .running →
      ∃ t, w.db.graph.tasks.get? k = some t ∧ t.Carries t' ∧ t.status = .running) ∨
    ∃ i t, w.db.graph.tasks.get? i = some t ∧ reservationIneligibilityReason w.db i t = none ∧
      ∀ k t', w'.db.graph.tasks.get? k = some t' → t'.status = .running →
        (k = i ∧ t.Carries t') ∨
          ∃ t, w.db.graph.tasks.get? k = some t ∧ t.Carries t' ∧ t.status = .running := by
  by_cases hres : ∃ i t t' j now, w.db.graph.tasks.get? i = some t ∧
      w'.db.graph.tasks.get? i = some t' ∧ a = .graph (.reserve i j now) ∧
      reservationIneligibilityReason w.db i t = none
  · obtain ⟨i, t, t', j, now, ht, ht', rfl, helig⟩ := hres
    refine .inr ⟨i, t, ht, helig, fun k u' hu' hrun => ?_⟩
    obtain ⟨u, hu, hm⟩ := h.back hu'
    rcases hm.running hrun with hr | ⟨⟨j', now', ha⟩, -⟩
    · exact .inr ⟨u, hu, hm.carries, hr⟩
    · obtain rfl : i = k := by cases ha; rfl
      obtain rfl : t = u := by rw [ht] at hu; simpa using hu
      exact .inl ⟨rfl, hm.carries⟩
  · refine .inl fun k t' ht' hrun => ?_
    obtain ⟨t, ht, hm⟩ := h.back ht'
    rcases hm.running hrun with hr | ⟨⟨j, now, ha⟩, helig⟩
    · exact ⟨t, ht, hm.carries, hr⟩
    · exact absurd ⟨k, t, t', j, now, ht, ht', ha, helig⟩ hres

/-- The running tasks with a column value become no more, or one eligible task joins them. -/
theorem running_count {a : Action} {c : Task → Prop} [DecidablePred c]
    (hc : ∀ t t', t.Carries t' → (c t' ↔ c t))
    (h : Table.Related (fun i t => TaskMove w i t a) w.db.graph.tasks w'.db.graph.tasks) :
    w'.db.graph.tasks.count (fun _ t => c t ∧ t.status = .running) ≤
        w.db.graph.tasks.count (fun _ t => c t ∧ t.status = .running) ∨
      ∃ i t, reservationIneligibilityReason w.db i t = none ∧ c t ∧
        ∀ k t', w'.db.graph.tasks.get? k = some t' → (c t' ∧ t'.status = .running) →
          k = i ∨ ∃ u, w.db.graph.tasks.get? k = some u ∧ c u ∧ u.status = .running := by
  rcases running_cases h with hrun | ⟨i, t, ht, helig, hrun⟩
  · refine .inl (Table.count_le fun k t' ht' hq => ?_)
    obtain ⟨hq, hr⟩ := of_decide_eq_true hq
    obtain ⟨u, hu, hcar, hr⟩ := hrun k t' ht' hr
    exact ⟨u, hu, decide_eq_true ⟨(hc u t' hcar).1 hq, hr⟩⟩
  · by_cases hct : c t
    · refine .inr ⟨i, t, helig, hct, fun k t' ht' hq => ?_⟩
      rcases hrun k t' ht' hq.2 with ⟨rfl, -⟩ | ⟨u, hu, hcar, hr⟩
      · exact .inl rfl
      · exact .inr ⟨u, hu, (hc u t' hcar).1 hq.1, hr⟩
    · refine .inl (Table.count_le fun k t' ht' hq => ?_)
      obtain ⟨hq, hr⟩ := of_decide_eq_true hq
      rcases hrun k t' ht' hr with ⟨rfl, hcar⟩ | ⟨u, hu, hcar, hr⟩
      · exact absurd ((hc t t' hcar).1 hq) hct
      · exact ⟨u, hu, decide_eq_true ⟨(hc u t' hcar).1 hq, hr⟩⟩

/-- Moves keep the limits. -/
theorem WithinLimits.moved {a : Action} (hI : WithinLimits w.db.graph)
    (ht : Table.Related (fun i t => TaskMove w i t a) w.db.graph.tasks w'.db.graph.tasks)
    (hlim : ∀ p, w.db.graph.taskLimit p ≤ w'.db.graph.taskLimit p) :
    WithinLimits w'.db.graph := by
  refine ⟨fun p => ?_, fun project => ?_, fun k t' ht' => ?_⟩
  · have hkeep := hI.parallel p
    have hgrow := hlim p
    rcases running_count (c := fun t => t.planId = p) (fun t t' h => by rw [h.plan]) ht with
      hle | ⟨i, t, helig, rfl, hnew⟩
    · exact hle.trans (hkeep.trans hgrow)
    · have hroom := (reservation_limits helig).2.1
      have hle : runningTaskCount w'.db.graph (some t.planId) ≤
          runningTaskCount w.db.graph (some t.planId) + 1 := by
        refine Table.count_le_succ i fun k t' ht' hq => ?_
        rcases hnew k t' ht' (of_decide_eq_true hq) with hk | ⟨u, hu, hq⟩
        · exact .inl hk
        · exact .inr ⟨u, hu, decide_eq_true hq⟩
      omega
  · rcases running_count (c := fun t => t.projectId = some project) (fun t t' h => by rw [h.project])
      ht with hle | ⟨i, t, helig, hp, hnew⟩
    · exact hle.trans (hI.writer project)
    · have hfree := (reservation_limits helig).2.2
      refine Table.count_le_one i fun k t' ht' hq => ?_
      rcases hnew k t' ht' (of_decide_eq_true hq) with hk | ⟨u, hu, hpu, hr⟩
      · exact hk
      · by_contra hne
        simp only [projectIsBusy, hp] at hfree
        exact of_decide_eq_false (Table.any_eq_false_iff.1 hfree k u hu) ⟨hpu, hr, hne⟩
  · obtain ⟨t, htk, hm⟩ := ht.back ht'
    have hb := hI.budget k t htk
    have hc := hm.carries.budget
    cases hm with
    | stopped h => have := h.count; omega
    | readied _ h => omega
    | reserved _ h _ helig => have := (reservation_limits helig).1; omega
    | completed _ h => omega
    | failed _ h => omega
    | recovered _ h => omega

/-- A new plan has no running task. -/
theorem WithinLimits.drawn {p : PlanId} (hI : WithinLimits w.db.graph)
    (hd : PlanDrawn w w'.db.graph p)
    (hlim : ∀ p, w.db.graph.taskLimit p ≤ w'.db.graph.taskLimit p) :
    WithinLimits w'.db.graph := by
  have old : ∀ k t', w'.db.graph.tasks.get? k = some t' → t'.status = .running →
      w.db.graph.tasks.get? k = some t' := by
    intro k t' ht' hr
    rcases hd.tasks k with hk | ⟨-, t, ht, -, hs, -⟩
    · rw [← hk]; exact ht'
    · rw [ht] at ht'; cases ht'; rw [hs] at hr; cases hr
  refine ⟨fun p => ?_, fun project => ?_, fun k t' ht' => ?_⟩
  · refine (Table.count_le fun k t' ht' hq => ?_).trans ((hI.parallel p).trans (hlim p))
    exact ⟨t', old k t' ht' (of_decide_eq_true hq).2, hq⟩
  · refine (Table.count_le fun k t' ht' hq => ?_).trans (hI.writer project)
    exact ⟨t', old k t' ht' (of_decide_eq_true hq).2, hq⟩
  · rcases hd.tasks k with hk | ⟨-, t, ht, -, -, hn⟩
    · exact hI.budget k t' (hk ▸ ht')
    · rw [ht] at ht'; cases ht'; omega

theorem WithinLimits.deleted {p : PlanId} (hI : WithinLimits w.db.graph)
    (hd : GraphDeleted w.db.graph w'.db.graph p) : WithinLimits w'.db.graph := by
  have old : ∀ k t', w'.db.graph.tasks.get? k = some t' →
      w.db.graph.tasks.get? k = some t' ∧ t'.planId ≠ p := by
    intro k t' ht'
    rw [hd.tasks, Option.filter_eq_some_iff] at ht'
    exact ⟨ht'.1, by simpa using ht'.2⟩
  refine ⟨fun q => ?_, fun project => ?_, fun k t' ht' => hI.budget k t' (old k t' ht').1⟩
  · by_cases hq : q = p
    · subst hq
      have hzero : runningTaskCount w'.db.graph (some q) = 0 :=
        Table.count_eq_zero_iff.2 fun k t' ht' => decide_eq_false fun h => (old k t' ht').2 h.1
      rw [hzero]; exact Nat.zero_le _
    · have hlim : w'.db.graph.taskLimit q = w.db.graph.taskLimit q := by
        rw [Graph.taskLimit, hd.plans, if_neg hq, Graph.taskLimit]
      rw [hlim]
      exact (Table.count_le fun k t' ht' hq => ⟨t', (old k t' ht').1, hq⟩).trans (hI.parallel q)
  · exact (Table.count_le fun k t' ht' hq => ⟨t', (old k t' ht').1, hq⟩).trans (hI.writer project)

theorem withinLimits_step (h : History) (config : Config) (a : Action)
    (hI : WithinLimits w.db.graph) : WithinLimits (w.step h config a).db.graph := by
  have hl := step_write h config w a
  cases graph_step h config w a with
  | moved hg => exact hI.moved hg.tasks fun p => taskLimit_le hl (hg.plans.none_iff p).1
  | reserved ha hr =>
    have hp := (reserveAttempt_ok hr).2.2.2.1
    exact hI.moved (reserve_tasks hr) fun p => taskLimit_le hl fun hn => by rw [← hp]; exact hn
  | @inserted p hd =>
    exact hI.drawn hd fun q => taskLimit_le hl (hd.kept_plan q)
  | @imported _ p _ _ _ hd => exact hI.drawn hd fun q => taskLimit_le hl (hd.kept_plan q)
  | deleted _ _ hd => exact hI.deleted hd

theorem withinLimits_reachable {h : History} {config : Config} {w : World}
    (hw : (machine h config).Reachable (fun _ _ => True) w) : WithinLimits w.db.graph := by
  refine Schemes.Machine.invariant (m := machine h config) (I := fun w => WithinLimits w.db.graph)
    (fun s hs => ?_) (fun a s _ _ hI => ?_) hw
  · obtain ⟨projects, -, rfl⟩ := hs
    exact ⟨fun _ => Nat.zero_le _, fun _ => Nat.zero_le _, .empty⟩
  · exact withinLimits_step h config a hI

/-- In every reachable state a plan runs no more tasks than its limit allows, a project has at most
    one running task over all plans, and no task was started more often than its budget allows. -/
theorem concurrency_limits {h : History} {config : Config} {w : World}
    (hw : (machine h config).Reachable (fun _ _ => True) w) :
    (∀ p plan, w.db.graph.plans.get? p = some plan →
      runningTaskCount w.db.graph (some p) ≤ plan.maxParallelTasks) ∧
    (∀ project, w.db.graph.projectRunningCount project ≤ 1) ∧
    w.db.graph.tasks.All fun _ t => t.attemptCount ≤ t.maxAttempts := by
  obtain ⟨hparallel, hwriter, hbudget⟩ := withinLimits_reachable hw
  refine ⟨fun p plan hplan => ?_, hwriter, hbudget⟩
  have := hparallel p
  simpa only [Graph.taskLimit, hplan, Option.map_some, Option.getD_some] using this

/-- The one task of a plan with limit 1 is reserved; a stale second reservation is refused. -/
def soleRun : List Action :=
  [ .graph (.importPlan Scenario.pipelinePlan 0 0 false true 1),
    .graph (.refresh 0 2),
    .graph (.reserve 0 0 3),
    .graph (.reserve 0 1 4) ]

theorem concurrency_limits_sole :
    (Scenario.system.run Scenario.start soleRun).taskStatus 0 = some .running ∧
      runningTaskCount (Scenario.system.run Scenario.start soleRun).db.graph (some 0) ≤ 1 :=
  have hw : Scenario.system.Reachable (fun _ _ => True)
      (Scenario.system.run Scenario.start soleRun) :=
    .run (.start Scenario.system_start) (by decide)
  ⟨by decide, (concurrency_limits hw).1 0 _ rfl⟩

end HermesOps
