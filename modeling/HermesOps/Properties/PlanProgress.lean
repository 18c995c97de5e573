import HermesOps.Properties.DependencyOrder
import HermesOps.Properties.PlanWrites
import HermesOps.Properties.Scenario

/-! What `refresh_plan_states` makes of a plan that nothing else works on. The dependencies of a plan
    lead from later tasks to earlier ones, so each refresh settles the earliest `PENDING` task, and a
    plan that is not `BLOCKED` ends or gets a `READY` task. A `BLOCKED` plan never leaves that status
    for another live one: it ends when it holds no `READY` task and no cancellation marker, and
    otherwise no number of refreshes lets it go on. -/

namespace HermesOps

open Schemes

/-! ### The shape of a reachable graph -/

/-- Plans have tasks, dependencies lead to earlier tasks of the plan, and a frozen plan waits with
    no `PENDING` task. -/
structure PlanShape (g : Graph) : Prop where
  rows : ∀ p x, g.plans.get? p = some x → ∃ i t, g.tasks.get? i = some t ∧ t.planId = p
  forward : ∀ e ∈ g.dependencies, e.dependsOn < e.taskId
  inside : ∀ e ∈ g.dependencies, ∀ t u, g.tasks.get? e.taskId = some t →
    g.tasks.get? e.dependsOn = some u → u.planId = t.planId
  frozen : ∀ p x, g.plans.get? p = some x → x.isFrozen = true → g.NonePending p

variable {w w' : World} {a : Action}

/-- No move makes a task `PENDING`. -/
theorem TaskMove.pending {i : TaskId} {t t' : Task} (hm : TaskMove w i t a t')
    (hs : t'.status = .pending) : t.status = .pending := by
  cases hm with
  | stopped h =>
    rcases h.status with h | ⟨-, h | h⟩
    · rw [← h]; exact hs
    · rw [h] at hs; cases hs
    · rw [h] at hs; cases hs
  | readied _ _ _ _ h | reserved _ _ _ _ h | completed _ _ _ _ _ _ _ h =>
    rw [h] at hs; cases hs
  | failed _ _ _ _ h =>
    rcases h with h | h <;> rw [h] at hs <;> cases hs
  | recovered _ _ _ _ h =>
    rcases h with h | h | ⟨h, -⟩ <;> rw [h] at hs <;> cases hs

/-- A frozen plan of the next graph has no `PENDING` task, if tasks only move. -/
theorem frozen_moved (hI : PlanShape w.db.graph) (hp : PlanStep w w')
    (ht : Table.Related (fun i t => TaskMove w i t a) w.db.graph.tasks w'.db.graph.tasks) :
    ∀ p x, w'.db.graph.plans.get? p = some x → x.isFrozen = true → w'.db.graph.NonePending p := by
  intro p x' hx' hfrozen
  rcases hp p x' hx' with ⟨-, hthawed⟩ | ⟨x, hx, hkept | ⟨-, hnone⟩⟩
  · rw [hthawed] at hfrozen
    cases hfrozen
  · intro i t' ht' hplan hpend
    obtain ⟨t, hti, hm⟩ := ht.back ht'
    exact hI.frozen p x hx (hkept.frozen hfrozen) i t hti (hm.carries.plan ▸ hplan)
      (hm.pending hpend)
  · exact hnone

theorem PlanShape.moved (hI : PlanShape w.db.graph) (hp : PlanStep w w')
    (ht : Table.Related (fun i t => TaskMove w i t a) w.db.graph.tasks w'.db.graph.tasks)
    (hnew : ∀ p, w.db.graph.plans.get? p = none → w'.db.graph.plans.get? p = none)
    (hd : w'.db.graph.dependencies = w.db.graph.dependencies) : PlanShape w'.db.graph := by
  refine ⟨fun p x' hx' => ?_, ?_, fun e he t' u' ht' hu' => ?_, frozen_moved hI hp ht⟩
  · have hx : ∃ x, w.db.graph.plans.get? p = some x := by
      cases hn : w.db.graph.plans.get? p with
      | none => rw [hnew p hn] at hx'; cases hx'
      | some x => exact ⟨x, rfl⟩
    obtain ⟨x, hx⟩ := hx
    obtain ⟨i, t, hti, hplan⟩ := hI.rows p x hx
    obtain ⟨t', ht', hm⟩ := ht.forth hti
    exact ⟨i, t', ht', hm.carries.plan.trans hplan⟩
  · rw [hd]
    exact hI.forward
  · rw [hd] at he
    obtain ⟨t, hti, hm⟩ := ht.back ht'
    obtain ⟨u, hui, hm'⟩ := ht.back hu'
    rw [hm.carries.plan, hm'.carries.plan]
    exact hI.inside e he t u hti hui

theorem PlanShape.drawn {q : PlanId} (hI : PlanShape w.db.graph) (hp : PlanStep w w')
    (hedges : ∀ e ∈ w.db.graph.dependencies, (w.db.graph.tasks.get? e.taskId).isSome = true ∧
      (w.db.graph.tasks.get? e.dependsOn).isSome = true)
    (hd : PlanDrawn w w'.db.graph q) : PlanShape w'.db.graph := by
  have old : ∀ i t, w.db.graph.tasks.get? i = some t → w'.db.graph.tasks.get? i = some t := by
    intro i t hti
    rcases hd.tasks i with hi | ⟨hn, -⟩
    · rw [hi]; exact hti
    · rw [hn] at hti; cases hti
  have new : ∀ i t', w.db.graph.tasks.get? i = none → w'.db.graph.tasks.get? i = some t' →
      t'.planId = q ∧ t'.status = .pending := by
    intro i t' hn ht'
    rcases hd.tasks i with hi | ⟨-, t, hti, hplan, hs, -⟩
    · rw [hi, hn] at ht'; cases ht'
    · rw [hti] at ht'; cases ht'; exact ⟨hplan, hs⟩
  refine ⟨fun p x' hx' => ?_, fun e he => ?_, fun e he t' u' ht' hu' => ?_, fun p x' hx' hf => ?_⟩
  · by_cases hpq : p = q
    · subst hpq
      exact hd.rows
    · rw [hd.plans p hpq] at hx'
      obtain ⟨i, t, hti, hplan⟩ := hI.rows p x' hx'
      exact ⟨i, t, old i t hti, hplan⟩
  · rcases hd.forward e he with he | ⟨-, -, hlt⟩
    · exact hI.forward e he
    · exact hlt
  · rcases hd.forward e he with he | ⟨hn, hn', -⟩
    · obtain ⟨hs, hs'⟩ := hedges e he
      obtain ⟨t, hti⟩ := Option.isSome_iff_exists.1 hs
      obtain ⟨u, hui⟩ := Option.isSome_iff_exists.1 hs'
      obtain rfl : t = t' := by rw [old _ t hti] at ht'; simpa using ht'
      obtain rfl : u = u' := by rw [old _ u hui] at hu'; simpa using hu'
      exact hI.inside e he t u hti hui
    · rw [(new _ t' hn ht').1, (new _ u' hn' hu').1]
  · rcases hp p x' hx' with ⟨-, hthawed⟩ | ⟨x, hx, hkept | ⟨-, hnone⟩⟩
    · rw [hthawed] at hf
      cases hf
    · intro i t' ht' hplan hpend
      cases hti : w.db.graph.tasks.get? i with
      | none =>
        have hq := (new i t' hti ht').1
        rw [hplan] at hq
        rw [hq, hd.plan] at hx
        cases hx
      | some t =>
        obtain rfl : t = t' := by rw [old i t hti] at ht'; simpa using ht'
        exact hI.frozen p x hx (hkept.frozen hf) i t hti hplan hpend
    · exact hnone

theorem PlanShape.deleted {q : PlanId} (hI : PlanShape w.db.graph)
    (hd : GraphDeleted w.db.graph w'.db.graph q) : PlanShape w'.db.graph := by
  have old : ∀ i t, w'.db.graph.tasks.get? i = some t →
      w.db.graph.tasks.get? i = some t ∧ t.planId ≠ q := by
    intro i t ht
    rw [hd.tasks, Option.filter_eq_some_iff] at ht
    exact ⟨ht.1, by simpa using ht.2⟩
  have row : ∀ p x, w'.db.graph.plans.get? p = some x → p ≠ q ∧ w.db.graph.plans.get? p = some x := by
    intro p x hx
    rw [hd.plans] at hx
    split at hx
    · cases hx
    · rename_i hne
      exact ⟨hne, hx⟩
  refine ⟨fun p x hx => ?_, fun e he => hI.forward e ((hd.dependencies e).1 he).1,
    fun e he t u ht hu => ?_, fun p x hx hf i t ht => ?_⟩
  · obtain ⟨hne, hx⟩ := row p x hx
    obtain ⟨i, t, hti, hplan⟩ := hI.rows p x hx
    refine ⟨i, t, ?_, hplan⟩
    rw [hd.tasks, Option.filter_eq_some_iff]
    exact ⟨hti, by simpa [hplan] using hne⟩
  · exact hI.inside e ((hd.dependencies e).1 he).1 t u (old _ t ht).1 (old _ u hu).1
  · exact hI.frozen p x (row p x hx).2 hf i t (old i t ht).1

theorem PlanShape.step (h : History) (config : Config) (a : Action) (hO : OrderInv w)
    (hI : PlanShape w.db.graph) : PlanShape (w.step h config a).db.graph := by
  have hp := step_write h config w a
  cases graph_step h config w a with
  | moved hg => exact hI.moved hp hg.tasks (fun p => (hg.plans.none_iff p).2) hg.dependencies
  | reserved ha hr =>
    have hplans := (reserveAttempt_ok hr).2.2.2.1
    exact hI.moved hp (reserve_tasks hr) (fun p hn => by rw [hplans]; exact hn)
      (reserveAttempt_ok hr).2.2.2.2.1
  | inserted hd => exact hI.drawn hp hO.edges hd
  | imported hd => exact hI.drawn hp hO.edges hd
  | deleted _ _ hd => exact hI.deleted hd

theorem planShape_reachable {h : History} {config : Config}
    (hw : (machine h config).Reachable (fun _ _ => True) w) : PlanShape w.db.graph := by
  refine Schemes.Machine.invariant (I := fun w => PlanShape w.db.graph)
    (fun s hs => ?_) (fun a s hr _ hI => hI.step h config a (orderInv_reachable hr)) hw
  obtain ⟨projects, -, rfl⟩ := hs
  refine ⟨fun _ _ hx => ?_, fun _ he => ?_, fun _ he => ?_, fun _ _ hx => ?_⟩
  · cases hx
  · cases he
  · cases he
  · cases hx

/-! ### Refreshing and nothing else -/

/-- The graph after `n` refreshes of the plan; the `k`-th one runs at `clock k`. -/
def refreshed (s : Store) (p : PlanId) : Nat → (Nat → Time) → Graph → Graph
  | 0, _, g => g
  | n + 1, clock, g => refreshed s p n (fun k => clock (k + 1)) (refreshPlanStates g s p (clock 0))

/-- The plan has ended, or the scheduler can select a task of it. -/
def Graph.advances (g : Graph) (p : PlanId) : Bool :=
  g.plans.any fun q x => q = p ∧ (x.status.isTerminal ∨
    ((x.status = .ready ∨ x.status = .running) ∧
      g.tasks.any fun _ t => t.planId = p ∧ t.status = .ready))

/-- Nothing but the refresh has work to do on the plan. -/
structure Settling (g : Graph) (s : Store) (p : PlanId) : Prop where
  task : ∃ i t, g.tasks.get? i = some t ∧ t.planId = p
  forward : ∀ e ∈ g.dependencies, e.dependsOn < e.taskId
  inside : ∀ e ∈ g.dependencies, ∀ t u, g.tasks.get? e.taskId = some t →
    g.tasks.get? e.dependsOn = some u → u.planId = t.planId
  idle : ∀ i t, g.tasks.get? i = some t → t.planId = p → t.status ≠ .running
  gate : planHasActiveHumanGate g s p = false

section Settling

variable {g : Graph} {s : Store} {p : PlanId} {x : Plan} {now : Time}

theorem TaskRefreshed.running {i : TaskId} {t t' : Task} (h : TaskRefreshed g i t t')
    (hs : t'.status = .running) : t.status = .running := by
  rcases h.status with h | ⟨-, h | ⟨h, -⟩⟩
  · rw [← h]; exact hs
  · rw [h] at hs; cases hs
  · rw [h] at hs; cases hs

theorem TaskRefreshed.pending {i : TaskId} {t t' : Task} (h : TaskRefreshed g i t t')
    (hs : t'.status = .pending) : t.status = .pending := by
  rcases h.status with h | ⟨-, h | ⟨h, -⟩⟩
  · rw [← h]; exact hs
  · rw [h] at hs; cases hs
  · rw [h] at hs; cases hs

/-- The gate of a plan is read from the links of its tasks. -/
theorem planHasActiveHumanGate_congr {g' : Graph} (ha : g'.attempts = g.attempts)
    (hp : ∀ i, (g'.tasks.get? i).map Task.planId = (g.tasks.get? i).map Task.planId) :
    planHasActiveHumanGate g' s p = planHasActiveHumanGate g s p := by
  unfold planHasActiveHumanGate
  rw [Graph.linkedRuns_congr ha hp p]

/-- A graph that differs in what a refresh writes. -/
theorem Settling.congr {g' : Graph} (hS : Settling g s p)
    (ht : Table.Related (TaskRefreshed g) g.tasks g'.tasks) (ha : g'.attempts = g.attempts)
    (hd : g'.dependencies = g.dependencies) : Settling g' s p := by
  refine ⟨?_, ?_, fun e he t' u' ht' hu' => ?_, fun i t' ht' hplan hs => ?_, ?_⟩
  · obtain ⟨i, t, hti, hplan⟩ := hS.task
    obtain ⟨t', ht', hr⟩ := ht.forth hti
    exact ⟨i, t', ht', hr.carries.plan.trans hplan⟩
  · rw [hd]
    exact hS.forward
  · rw [hd] at he
    obtain ⟨t, hti, hr⟩ := ht.back ht'
    obtain ⟨u, hui, hr'⟩ := ht.back hu'
    rw [hr.carries.plan, hr'.carries.plan]
    exact hS.inside e he t u hti hui
  · obtain ⟨t, hti, hr⟩ := ht.back ht'
    exact hS.idle i t hti (hr.carries.plan ▸ hplan) (hr.running hs)
  · rw [planHasActiveHumanGate_congr ha fun i => ?_]
    · exact hS.gate
    · cases hti : g.tasks.get? i with
      | none => rw [(ht.none_iff i).2 hti]
      | some t =>
        obtain ⟨t', ht', hr⟩ := ht.forth hti
        rw [ht', Option.map_some, Option.map_some, hr.carries.plan]

/-- The refresh of a live plan: the loop over its tasks, then the write of its row. -/
theorem refreshPlanStates_live (hx : g.plans.get? p = some x) (hdraft : x.status ≠ .draft)
    (hlive : x.status.isTerminal = false) :
    ∃ g₁, g₁ = (g.planTasks p).foldl (refreshTask now) g ∧
      Table.Related (TaskRefreshed g) g.tasks g₁.tasks ∧ g₁.attempts = g.attempts ∧
      g₁.dependencies = g.dependencies ∧ (refreshPlanStates g s p now).tasks = g₁.tasks ∧
      (refreshPlanStates g s p now).attempts = g₁.attempts ∧
      (refreshPlanStates g s p now).dependencies = g₁.dependencies ∧
      (refreshPlanStates g s p now).plans.get? p = some (refreshPlan s p x now g₁ x) := by
  obtain ⟨ht, hp, ha, hd⟩ := foldl_refreshTask now (g.planTasks p) g (.refl fun _ _ _ => .rfl)
    rfl rfl rfl
  refine ⟨_, rfl, ht, ha, hd, ?_⟩
  simp only [refreshPlanStates, hx, hdraft, hlive, Bool.false_eq_true, or_self, if_false]
  refine ⟨trivial, trivial, trivial, ?_⟩
  rw [hp, Table.get?_updateAt, if_pos rfl, hx, Option.map_some]

/-! ### One refresh -/

/-- The statuses the loop leaves alone. -/
def TaskStatus.isSettled : TaskStatus → Bool
  | .completed | .failed | .blocked | .cancelled => true
  | _ => false

theorem TaskStatus.settled_iff {s : TaskStatus} :
    s.isSettled = true ↔ s = .completed ∨ s.isBad = true := by
  cases s <;> simp [isSettled, isBad]

theorem TaskRefreshed.settled {i : TaskId} {t t' : Task} (h : TaskRefreshed g i t t')
    (hs : t.status.isSettled = true) : t'.status = t.status := by
  rcases h.status with h | ⟨hp, -⟩
  · exact h
  · rw [hp] at hs; cases hs

/-- A turn of the loop settles or readies its task once the parents are settled. -/
theorem refreshTask_decides {row : TaskId × Task} (hrow : row.2.status = .pending)
    (hparents : ∀ st ∈ g.parentStatuses row.1, st.isSettled = true) {t' : Task}
    (ht' : (refreshTask now g row).tasks.get? row.1 = some t') : t'.status ≠ .pending := by
  have written : ∀ f : Task → Task, (∀ t, (f t).status ≠ .pending) →
      (g.tasks.update (fun i t => i = row.1 ∧ t.status = .pending) f).get? row.1 = some t' →
      t'.status ≠ .pending := by
    intro f hf hget
    rw [Table.get?_update, Option.map_eq_some_iff] at hget
    obtain ⟨t, -, rfl⟩ := hget
    split
    · exact hf t
    · rename_i hsel
      intro hs
      exact hsel (decide_eq_true ⟨rfl, hs⟩)
  unfold refreshTask at ht'
  rw [if_neg (by simp [hrow])] at ht'
  simp only at ht'
  split at ht'
  · exact written _ (fun _ => by simp) ht'
  · rename_i hbad
    split at ht'
    · exact written _ (fun _ => by simp) ht'
    · rename_i hall
      refine absurd (List.all_eq_true.2 fun st hst => ?_) hall
      rcases TaskStatus.settled_iff.1 (hparents st hst) with h | h
      · simpa using h
      · exact absurd (List.any_eq_true.2 ⟨st, hst, h⟩) hbad

/-- The loop settles or readies a task whose parents are settled. -/
theorem foldl_refreshTask_decides {i : TaskId} : ∀ (rows : List (TaskId × Task)) (g : Graph),
    (∃ t, (i, t) ∈ rows ∧ t.status = .pending) →
    (∀ st ∈ g.parentStatuses i, st.isSettled = true) →
    ∀ t', (rows.foldl (refreshTask now) g).tasks.get? i = some t' → t'.status ≠ .pending
  | [], g, h, _, _, _ => by
      obtain ⟨t, ht, -⟩ := h
      cases ht
  | row :: rows, g, h, hparents, t', ht' => by
      rw [List.foldl_cons] at ht'
      have hone := @refreshTask_related g g now row (.refl fun _ _ _ => .rfl) rfl
      obtain ⟨-, -, hd⟩ := refreshTask_frame now g row
      by_cases hrow : row.1 = i ∧ row.2.status = .pending
      · obtain ⟨rfl, hpend⟩ := hrow
        obtain ⟨ht, -⟩ := foldl_refreshTask now rows (refreshTask now g row)
          (.refl fun _ _ _ => .rfl) rfl rfl rfl
        obtain ⟨t₁, ht₁, hr⟩ := ht.back ht'
        intro hs
        exact refreshTask_decides hpend hparents ht₁ (hr.pending hs)
      · refine foldl_refreshTask_decides rows _ ?_ (fun st hst => ?_) t' ht'
        · obtain ⟨t, hmem, hpend⟩ := h
          rcases List.mem_cons.1 hmem with rfl | hmem
          · exact absurd ⟨rfl, hpend⟩ hrow
          · exact ⟨t, hmem, hpend⟩
        · obtain ⟨e, he, hei, u', hu', rfl⟩ := Graph.mem_parentStatuses.1 hst
          rw [hd] at he
          obtain ⟨u, hu, hr⟩ := hone.back hu'
          have hset := hparents u.status (Graph.mem_parentStatuses.2 ⟨e, he, hei, u, hu, rfl⟩)
          rw [hr.settled hset]
          exact hset

/-- The `PENDING` tasks of the plan. -/
def Graph.pendingCount (g : Graph) (p : PlanId) : Nat :=
  g.tasks.count fun _ t => t.planId = p ∧ t.status = .pending

/-- Without a running or a ready task, the loop takes a task out of `PENDING`. -/
theorem pendingCount_lt (hS : Settling g s p)
    (hready : ∀ i t, g.tasks.get? i = some t → t.planId = p → t.status ≠ .ready)
    (hpend : ∃ i t, g.tasks.get? i = some t ∧ t.planId = p ∧ t.status = .pending) :
    ((g.planTasks p).foldl (refreshTask now) g).pendingCount p < g.pendingCount p := by
  classical
  -- the earliest pending task: its parents come before it
  obtain ⟨i, ⟨t, hti, hplan, hs⟩, hmin⟩ : ∃ i, (∃ t, g.tasks.get? i = some t ∧ t.planId = p ∧
      t.status = .pending) ∧ ∀ j < i, ¬∃ t, g.tasks.get? j = some t ∧ t.planId = p ∧
        t.status = .pending :=
    ⟨Nat.find hpend, Nat.find_spec hpend, fun j hj => Nat.find_min hpend hj⟩
  have hparents : ∀ st ∈ g.parentStatuses i, st.isSettled = true := by
    intro st hst
    obtain ⟨e, he, rfl, u, hu, rfl⟩ := Graph.mem_parentStatuses.1 hst
    have hup : u.planId = p := (hS.inside e he t u hti hu).trans hplan
    cases hus : u.status with
    | pending => exact absurd ⟨u, hu, hup, hus⟩ (hmin _ (hS.forward e he))
    | ready => exact absurd hus (hready _ u hu hup)
    | running => exact absurd hus (hS.idle _ u hu hup)
    | blocked | completed | failed | cancelled => rfl
  have hrow : (i, t) ∈ g.planTasks p := by
    rw [Graph.planTasks, List.mem_insertionSort, Table.mem_select]
    exact ⟨hti, decide_eq_true hplan⟩
  obtain ⟨ht, -⟩ := foldl_refreshTask now (g.planTasks p) g (.refl fun _ _ _ => .rfl) rfl rfl rfl
  refine Table.count_lt i ⟨t, hti, decide_eq_true ⟨hplan, hs⟩⟩ (fun t' ht' => ?_)
    fun k u' hu' hq => ?_
  · refine decide_eq_false fun h => ?_
    exact foldl_refreshTask_decides _ g ⟨t, hrow, hs⟩ hparents t' ht' h.2
  · obtain ⟨u, hu, hr⟩ := ht.back hu'
    obtain ⟨hup, hus⟩ := of_decide_eq_true hq
    exact ⟨u, hu, decide_eq_true ⟨hr.carries.plan ▸ hup, hr.pending hus⟩⟩

/-- The marker of a cancellation whose cleanup is not over. -/
def Plan.awaitsCleanup (x : Plan) : Bool :=
  x.lastError = some cancellationRecoveryError ∨ x.lastError = some cancellationPendingError

/-- Without a gate the row of a plan that is not `BLOCKED` ends or runs. -/
theorem refreshPlan_live (hgate : planHasActiveHumanGate g s p = false)
    (hx : x.status = .ready ∨ x.status = .running) :
    (refreshPlan s p x now g x).status.isTerminal = true ∨
      (refreshPlan s p x now g x).status = .running := by
  have hblocked : x.status ≠ .blocked := by rcases hx with hx | hx <;> simp [hx]
  simp only [refreshPlan, hgate, Bool.false_eq_true, false_and, if_false, hblocked]
  split
  · exact .inl rfl
  · split
    · exact .inl rfl
    · right
      rcases hx with hx | hx <;> simp [hx]

/-- Without a gate and without a marker the row ends once every task is settled. -/
theorem refreshPlan_settled (hgate : planHasActiveHumanGate g s p = false)
    (hmark : x.status = .blocked → x.awaitsCleanup = false)
    (htask : ∃ i t, g.tasks.get? i = some t ∧ t.planId = p)
    (hall : ∀ i t, g.tasks.get? i = some t → t.planId = p → t.status.isSettled = true) :
    (refreshPlan s p x now g x).status.isTerminal = true := by
  have hstatus : ∀ st ∈ ((g.tasks.select fun _ t => t.planId = p).map fun y => y.2.status),
      st.isSettled = true := by
    intro st hst
    obtain ⟨⟨i, t⟩, hmem, rfl⟩ := List.mem_map.1 hst
    obtain ⟨ht, hp⟩ := Table.mem_select.1 hmem
    exact hall i t ht (of_decide_eq_true hp)
  have hsome : ((g.tasks.select fun _ t => t.planId = p).map fun y => y.2.status) ≠ [] := by
    obtain ⟨i, t, ht, hp⟩ := htask
    exact List.ne_nil_of_mem (List.mem_map.2
      ⟨(i, t), Table.mem_select.2 ⟨ht, decide_eq_true hp⟩, rfl⟩)
  have hwait : ¬(x.status = .blocked ∧ (x.lastError = some cancellationRecoveryError ∨
      x.lastError = some cancellationPendingError)) := by
    rintro ⟨hb, he⟩
    have := hmark hb
    simp only [Plan.awaitsCleanup, decide_eq_false_iff_not] at this
    exact this he
  simp only [refreshPlan, hgate, Bool.false_eq_true, false_and, false_or, if_false, if_neg hwait]
  split
  · rfl
  · rename_i hdone
    have hbad : ((g.tasks.select fun _ t => t.planId = p).map fun y => y.2.status).any
        TaskStatus.isBad = true := by
      by_contra hnone
      refine hdone ⟨hsome, List.all_eq_true.2 fun st hst => ?_⟩
      rcases TaskStatus.settled_iff.1 (hstatus st hst) with h | h
      · simpa using h
      · exact absurd (List.any_eq_true.2 ⟨st, hst, h⟩) hnone
    have hopen : ((g.tasks.select fun _ t => t.planId = p).map fun y => y.2.status).any
        (fun st => st = .ready ∨ st = .running ∨ st = .pending) = false := by
      refine List.any_eq_false.2 fun st hst => ?_
      have := hstatus st hst
      cases st <;> simp_all [TaskStatus.isSettled]
    rw [if_pos ⟨hbad, by rw [hopen]; exact Bool.false_ne_true⟩]
    rfl

/-- Without a gate a `BLOCKED` plan stays as it is while it has a marker or a ready task. -/
theorem refreshPlan_blocked (hgate : planHasActiveHumanGate g s p = false)
    (hx : x.status = .blocked) (hstay : x.awaitsCleanup = true ∨
      ∃ i t, g.tasks.get? i = some t ∧ t.planId = p ∧ t.status = .ready) :
    (refreshPlan s p x now g x).status = .blocked ∧
      (refreshPlan s p x now g x).awaitsCleanup = x.awaitsCleanup := by
  simp only [refreshPlan, hgate, Bool.false_eq_true, false_and, false_or, if_false, hx, true_and]
  split
  · exact ⟨hx, rfl⟩
  · rename_i hmark
    obtain ⟨i, t, ht, hp, hr⟩ := hstay.resolve_left fun h => hmark (of_decide_eq_true h)
    have hmem : TaskStatus.ready ∈
        ((g.tasks.select fun _ t => t.planId = p).map fun y => y.2.status) :=
      List.mem_map.2 ⟨(i, t), Table.mem_select.2 ⟨ht, decide_eq_true hp⟩, hr⟩
    rw [if_neg fun h => ?_, if_neg fun h => ?_]
    · exact ⟨by simp [hx], rfl⟩
    · exact h.2 (List.any_eq_true.2 ⟨_, hmem, by decide⟩)
    · have := List.all_eq_true.1 h.2 _ hmem
      simp at this

/-! ### Many refreshes -/

theorem Graph.advances_of {x : Plan} (hx : g.plans.get? p = some x)
    (h : x.status.isTerminal = true ∨ ((x.status = .ready ∨ x.status = .running) ∧
      ∃ i t, g.tasks.get? i = some t ∧ t.planId = p ∧ t.status = .ready)) :
    g.advances p = true := by
  refine Table.any_iff.2 ⟨p, x, hx, decide_eq_true ⟨rfl, h.imp_right fun ⟨hs, i, t, ht, hp, hr⟩ => ?_⟩⟩
  exact ⟨hs, Table.any_iff.2 ⟨i, t, ht, decide_eq_true ⟨hp, hr⟩⟩⟩

/-- A plan that is `READY` or `RUNNING` ends or gets a ready task. -/
theorem live_advances (hS : Settling g s p) (hx : g.plans.get? p = some x)
    (hlive : x.status = .ready ∨ x.status = .running) (clock : Nat → Time) :
    ∃ n, (refreshed s p n clock g).advances p = true := by
  induction hn : g.pendingCount p using Nat.strong_induction_on generalizing g x clock with
  | _ n ih =>
    by_cases hready : ∃ i t, g.tasks.get? i = some t ∧ t.planId = p ∧ t.status = .ready
    · exact ⟨0, Graph.advances_of hx (.inr ⟨hlive, hready⟩)⟩
    obtain ⟨g₁, hg₁, ht, ha, hd, htasks, hatt, hdeps, hplan⟩ := @refreshPlanStates_live g s p x
      (clock 0) hx (by rcases hlive with h | h <;> simp [h])
      (by rcases hlive with h | h <;> rw [h] <;> rfl)
    have hS₁ := hS.congr ht ha hd
    have hnone : ∀ i t, g.tasks.get? i = some t → t.planId = p → t.status ≠ .ready :=
      fun i t hti htp hr => hready ⟨i, t, hti, htp, hr⟩
    by_cases hpend : ∃ i t, g.tasks.get? i = some t ∧ t.planId = p ∧ t.status = .pending
    · rcases @refreshPlan_live g₁ s p x (clock 0) hS₁.gate hlive with hend | hrun
      · exact ⟨1, Graph.advances_of hplan (.inl hend)⟩
      · have hlt := @pendingCount_lt g s p (clock 0) hS hnone hpend
        rw [← hg₁] at hlt
        have hS' : Settling (refreshPlanStates g s p (clock 0)) s p :=
          hS.congr (by rw [htasks]; exact ht) (by rw [hatt, ha]) (by rw [hdeps, hd])
        obtain ⟨m, hm⟩ := ih _ (by rw [← hn, Graph.pendingCount, htasks]; exact hlt) hS' hplan
          (.inr hrun) (fun k => clock (k + 1)) rfl
        exact ⟨m + 1, hm⟩
    · refine ⟨1, Graph.advances_of hplan (.inl (refreshPlan_settled hS₁.gate ?_ hS₁.task ?_))⟩
      · intro hb
        rcases hlive with h | h <;> rw [h] at hb <;> cases hb
      · intro i t' hti htp
        obtain ⟨t, hti, hr⟩ := ht.back hti
        have htp' : t.planId = p := hr.carries.plan ▸ htp
        have hset : t.status.isSettled = true := by
          cases hs : t.status with
          | pending => exact absurd ⟨i, t, hti, htp', hs⟩ hpend
          | ready => exact absurd hs (hnone i t hti htp')
          | running => exact absurd hs (hS.idle i t hti htp')
          | blocked | completed | failed | cancelled => rfl
        rw [hr.settled hset]
        exact hset

/-- A `BLOCKED` plan with a marker or a ready task never goes on. -/
theorem blocked_stays (hS : Settling g s p) (hx : g.plans.get? p = some x)
    (hb : x.status = .blocked) (hstay : x.awaitsCleanup = true ∨
      ∃ i t, g.tasks.get? i = some t ∧ t.planId = p ∧ t.status = .ready) (n : Nat)
    (clock : Nat → Time) : (refreshed s p n clock g).advances p = false := by
  induction n generalizing g x clock with
  | zero =>
    refine Table.any_eq_false_iff.2 fun q y hy => decide_eq_false ?_
    rintro ⟨rfl, h⟩
    change g.plans.get? q = some y at hy
    obtain rfl : x = y := by rw [hx] at hy; simpa using hy
    rcases h with h | ⟨h | h, -⟩
    · rw [hb] at h; cases h
    · rw [hb] at h; cases h
    · rw [hb] at h; cases h
  | succ n ih =>
    obtain ⟨g₁, -, ht, ha, hd, htasks, hatt, hdeps, hplan⟩ := @refreshPlanStates_live g s p x
      (clock 0) hx (by simp [hb]) (by rw [hb]; rfl)
    have hS₁ := hS.congr ht ha hd
    have hstay₁ : x.awaitsCleanup = true ∨
        ∃ i t, g₁.tasks.get? i = some t ∧ t.planId = p ∧ t.status = .ready := by
      refine hstay.imp_right fun ⟨i, t, hti, htp, hr⟩ => ?_
      obtain ⟨t', ht', hrel⟩ := ht.forth hti
      refine ⟨i, t', ht', hrel.carries.plan.trans htp, ?_⟩
      rcases hrel.status with h | ⟨h, -⟩
      · exact h.trans hr
      · rw [hr] at h; cases h
    obtain ⟨hb', hc'⟩ := @refreshPlan_blocked g₁ s p x (clock 0) hS₁.gate hb hstay₁
    refine ih (hS.congr (by rw [htasks]; exact ht) (by rw [hatt, ha]) (by rw [hdeps, hd])) hplan
      hb' ?_ _
    rw [hc', htasks]
    exact hstay₁

/-- A `BLOCKED` plan with neither ends at the next refresh, for none of its tasks is `PENDING`. -/
theorem blocked_ends (hS : Settling g s p) (hx : g.plans.get? p = some x)
    (hb : x.status = .blocked) (hmark : x.awaitsCleanup = false) (hpend : g.NonePending p)
    (hready : ∀ i t, g.tasks.get? i = some t → t.planId = p → t.status ≠ .ready)
    (clock : Nat → Time) : (refreshed s p 1 clock g).advances p = true := by
  obtain ⟨g₁, -, ht, ha, hd, -, -, -, hplan⟩ := @refreshPlanStates_live g s p x
    (clock 0) hx (by simp [hb]) (by rw [hb]; rfl)
  have hS₁ := hS.congr ht ha hd
  refine Graph.advances_of hplan (.inl (refreshPlan_settled hS₁.gate (fun _ => hmark) hS₁.task ?_))
  intro i t' hti htp
  obtain ⟨t, hti, hr⟩ := ht.back hti
  have htp' : t.planId = p := hr.carries.plan ▸ htp
  have hset : t.status.isSettled = true := by
    cases hs : t.status with
    | pending => exact absurd hs (hpend i t hti htp')
    | ready => exact absurd hs (hready i t hti htp')
    | running => exact absurd hs (hS.idle i t hti htp')
    | blocked | completed | failed | cancelled => rfl
  rw [hr.settled hset]
  exact hset

end Settling

/-- In a reachable world the plan is shaped as the refresh needs it. -/
theorem settling_reachable {h : History} {config : Config} {w : World}
    (hw : (machine h config).Reachable (fun _ _ => True) w) {p : PlanId} {x : Plan}
    (hx : w.db.graph.plans.get? p = some x) (hidle : runningTaskCount w.db.graph (some p) = 0)
    (hgate : planHasActiveHumanGate w.db.graph w.db.store p = false) :
    Settling w.db.graph w.db.store p := by
  have hI := planShape_reachable hw
  refine ⟨hI.rows p x hx, hI.forward, hI.inside, fun i t ht hp hr => ?_, hgate⟩
  exact of_decide_eq_false (Table.count_eq_zero_iff.1 hidle i t ht) ⟨hp, hr⟩

/-- A live plan without running tasks and without a pending approval goes on by refreshes alone, to
    its end or to a task the scheduler can select, exactly when it is not `BLOCKED` or is `BLOCKED`
    with neither a cancellation marker nor a `READY` task. -/
theorem plan_advances_iff {h : History} {config : Config} {w : World}
    (hw : (machine h config).Reachable (fun _ _ => True) w) {p : PlanId} {x : Plan}
    (hx : w.db.graph.plans.get? p = some x) (hlive : x.status.isLive = true)
    (hidle : runningTaskCount w.db.graph (some p) = 0)
    (hgate : planHasActiveHumanGate w.db.graph w.db.store p = false) (clock : Nat → Time) :
    (∃ n, (refreshed w.db.store p n clock w.db.graph).advances p = true) ↔
      (x.status = .blocked → x.awaitsCleanup = false ∧
        ∀ i t, w.db.graph.tasks.get? i = some t → t.planId = p → t.status ≠ .ready) := by
  have hS := settling_reachable hw hx hidle hgate
  constructor
  · rintro ⟨n, hn⟩ hb
    by_contra hnot
    have hstay : x.awaitsCleanup = true ∨
        ∃ i t, w.db.graph.tasks.get? i = some t ∧ t.planId = p ∧ t.status = .ready := by
      by_contra hnone
      rw [not_or] at hnone
      exact hnot ⟨by simpa using hnone.1, fun i t ht hp hr => hnone.2 ⟨i, t, ht, hp, hr⟩⟩
    rw [blocked_stays hS hx hb hstay n clock] at hn
    cases hn
  · intro hcond
    by_cases hb : x.status = .blocked
    · obtain ⟨hmark, hready⟩ := hcond hb
      have hfrozen : x.isFrozen = true := by
        simp only [Plan.awaitsCleanup, decide_eq_false_iff_not, not_or] at hmark
        exact decide_eq_true (.inr ⟨hb, hmark⟩)
      exact ⟨1, blocked_ends hS hx hb hmark ((planShape_reachable hw).frozen p x hx hfrozen) hready
        clock⟩
    · refine live_advances hS hx ?_ clock
      cases hs : x.status <;> simp_all [PlanStatus.isLive]

/-! ### A plan that stays blocked -/

/-- A pipeline task and a task that fails and may try again. -/
def siblingsPlan : NormalizedPlan where
  maxParallelTasks := 2
  tasks := [⟨"build", .pipeline, some 0, 100, 1, []⟩, ⟨"check", .testFail, none, 100, 2, []⟩]
  parallelBounds := Scenario.two_parallel
  size := by decide
  keys := by decide
  ordered := by decide
  known := by decide
  distinct := by decide
  attempts := by decide
  projects := by decide

/-- Both tasks run. Recovery blocks the run of the pipeline for a human, the pipeline sees the gate
    before its integration, rolls the run back, which resolves the gate, and blocks the plan; then
    the sibling fails and becomes `READY` for its second attempt. -/
def strandedRun : List Action :=
  [ .graph (.importPlan siblingsPlan 0 0 true true 1),
    .graph (.refresh 0 2),
    .graph (.reserve 0 0 3),
    .graph (.reserve 1 1 4),
    .thread 0 5 0 false,
    .process 0 6 0 false,
    .process 0 7 0 false,
    .process 0 8 0 false,
    .thread 0 9 0 false,
    .thread 0 10 0 false,
    .environment (.worktree 0 ⟨true, true, true, true, 1⟩),
    .thread 0 11 1 false,
    .process 1 12 0 false,
    .process 1 13 0 false,
    .process 1 14 0 false,
    .thread 0 15 0 false,
    .thread 0 16 0 false,
    .environment (.worktree 0 ⟨true, true, true, false, 1⟩),
    .operator 2 (.recover 0 "operator" none none),
    .process 2 17 0 false,
    .process 2 18 0 false,
    .process 2 19 0 false,
    .thread 0 20 0 false,
    .thread 0 21 3 false,
    .process 3 22 0 false,
    .process 3 23 0 false,
    .process 3 24 0 false,
    .thread 0 25 0 false,
    .thread 0 26 0 false,
    .thread 0 27 0 false,
    .thread 1 28 0 false,
    .thread 1 29 0 false ]

set_option maxRecDepth 20000 in
/-- The sibling is `READY` in a `BLOCKED` plan without a gate and without an active run, and no
    number of refreshes gets the plan any further. -/
theorem retried_sibling_strands_plan :
    let w := Scenario.system.run Scenario.start strandedRun
    w.planStatus 0 = some .blocked ∧ w.taskStatus 1 = some .ready ∧
      runningTaskCount w.db.graph (some 0) = 0 ∧
      planHasActiveHumanGate w.db.graph w.db.store 0 = false ∧ activeRunCount w.db (some 0) = 0 ∧
      ∀ n clock, (refreshed w.db.store 0 n clock w.db.graph).advances 0 = false := by
  have hw : Scenario.system.Reachable (fun _ _ => True)
      (Scenario.system.run Scenario.start strandedRun) :=
    .run (.start Scenario.system_start) (by decide)
  have hstatus : (Scenario.system.run Scenario.start strandedRun).planStatus 0 = some .blocked := by
    decide
  have hready : (Scenario.system.run Scenario.start strandedRun).taskStatus 1 = some .ready := by
    decide
  have hidle : runningTaskCount (Scenario.system.run Scenario.start strandedRun).db.graph
      (some 0) = 0 := by decide
  have hgate : planHasActiveHumanGate (Scenario.system.run Scenario.start strandedRun).db.graph
      (Scenario.system.run Scenario.start strandedRun).db.store 0 = false := by decide
  refine ⟨hstatus, hready, hidle, hgate, by decide, fun n clock => ?_⟩
  obtain ⟨x, hx, hb⟩ := Option.map_eq_some_iff.1 hstatus
  obtain ⟨t, ht, hr⟩ := Option.map_eq_some_iff.1 hready
  have hplan : ((Scenario.system.run Scenario.start strandedRun).db.graph.tasks.get? 1).map
      Task.planId = some 0 := by decide
  rw [ht, Option.map_some, Option.some.injEq] at hplan
  exact blocked_stays (settling_reachable hw hx hidle hgate) hx hb (.inr ⟨1, t, ht, hplan, hr⟩) n
    clock

/-- A plan that was just imported. -/
def importedRun : List Action := [.graph (.importPlan Scenario.noopPlan 0 0 false true 1)]

theorem plan_advances_imported :
    ∃ n, (refreshed (Scenario.system.run Scenario.start importedRun).db.store 0 n (fun _ => 2)
      (Scenario.system.run Scenario.start importedRun).db.graph).advances 0 = true :=
  have hw : Scenario.system.Reachable (fun _ _ => True)
      (Scenario.system.run Scenario.start importedRun) :=
    .run (.start Scenario.system_start) (by decide)
  (plan_advances_iff hw (p := 0) rfl (by decide) (by decide) (by decide) fun _ => 2).2
    fun hb => by cases hb

end HermesOps
