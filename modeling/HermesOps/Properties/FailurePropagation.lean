import HermesOps.Properties.PlanProgress

/-! Refreshing a plan again and again while nothing else happens. A call walks over the tasks by priority,
    so a failure may travel one dependency a call. Whatever the order, a pending task is blocked in the end
    exactly when a failure reaches it along pending tasks, and that is settled after as many calls as the
    plan has tasks; one more settles the plan's own row. -/

namespace HermesOps

open Schemes

variable {g g₁ : Graph} {s : Store} {p : PlanId} {now : Time} {i : TaskId}

/-! ### One turn of the loop -/

/-- Some parent of the task has failed, is blocked or is cancelled. -/
def Graph.HasBadParent (g : Graph) (i : TaskId) : Prop :=
  ∃ st ∈ g.parentStatuses i, TaskStatus.isBad st = true

theorem Graph.parentsCompleted_iff : g.ParentsCompleted i ↔
    ∀ st ∈ g.parentStatuses i, st = .completed := by
  constructor
  · intro h st hst
    obtain ⟨e, he, hei, x, hx, rfl⟩ := Graph.mem_parentStatuses.1 hst
    exact h e he hei x hx
  · intro h e he hei x hx
    exact h x.status (Graph.mem_parentStatuses.2 ⟨e, he, hei, x, hx, rfl⟩)

theorem Graph.HasBadParent.not_completed (hb : g.HasBadParent i) : ¬g.ParentsCompleted i := by
  intro hc
  obtain ⟨st, hst, hbad⟩ := hb
  rw [Graph.parentsCompleted_iff.1 hc st hst] at hbad
  cases hbad

def Task.blockedByParent (now : Time) (t : Task) : Task :=
  { t with
    status := .blocked
    failureReason := some "dependency did not complete successfully"
    heartbeatAt := some now
    finishedAt := some now }

def Task.readied (now : Time) (t : Task) : Task :=
  { t with
    status := .ready
    heartbeatAt := some now }

/-- The write of a turn, to a row that is still pending. -/
def Graph.setPending (g : Graph) (i : TaskId) (f : Task → Task) : Graph :=
  { g with tasks := g.tasks.update (fun j t => j = i ∧ t.status = .pending) f }

/-- What a turn does, with the reads it rests on. -/
inductive Turn (now : Time) (g : Graph) (row : TaskId × Task) : Graph → Prop
  | kept : (row.2.status = .pending → ¬g.HasBadParent row.1 ∧ ¬g.ParentsCompleted row.1) →
    Turn now g row g
  | blocked : row.2.status = .pending → g.HasBadParent row.1 →
    Turn now g row (g.setPending row.1 (Task.blockedByParent now))
  | readied : row.2.status = .pending → g.ParentsCompleted row.1 →
    Turn now g row (g.setPending row.1 (Task.readied now))

theorem refreshTask_turn (now : Time) (g : Graph) (row : TaskId × Task) :
    Turn now g row (refreshTask now g row) := by
  have hbad : ((g.parentStatuses row.1).any TaskStatus.isBad = true) ↔ g.HasBadParent row.1 :=
    List.any_eq_true
  have hdone : ((g.parentStatuses row.1).all fun st => st = .completed) = true ↔
      g.ParentsCompleted row.1 := by
    rw [Graph.parentsCompleted_iff, List.all_eq_true]
    simp only [decide_eq_true_eq]
  unfold refreshTask
  split
  · rename_i hst
    exact .kept fun hp => absurd hp hst
  rename_i hst
  dsimp only
  split
  · rename_i h
    exact .blocked (not_not.1 hst) (hbad.1 h)
  · rename_i hnobad
    split
    · rename_i h
      exact .readied (not_not.1 hst) (hdone.1 h)
    · rename_i hnotdone
      exact .kept fun _ => ⟨fun h => hnobad (hbad.2 h), fun h => hnotdone (hdone.2 h)⟩

theorem Graph.setPending_get? (g : Graph) (i : TaskId) (f : Task → Task) (j : TaskId) :
    (g.setPending i f).tasks.get? j =
      (g.tasks.get? j).map fun t => if j = i ∧ t.status = .pending then f t else t := by
  rw [Graph.setPending, Table.get?_update]
  simp only [decide_eq_true_eq]

/-! ### Where failures reach -/

/-- A failure is at the task, or reaches it along pending tasks of the plan. -/
inductive Doomed (g : Graph) (p : PlanId) : TaskId → Prop
  | bad {i t} : g.tasks.get? i = some t → t.status.isBad = true → Doomed g p i
  | inherited {i t e} : g.tasks.get? i = some t → t.planId = p → t.status = .pending →
    e ∈ g.dependencies → e.taskId = i → Doomed g p e.dependsOn → Doomed g p i

/-- What the turns make of a row of `g`. -/
structure Propagated (g : Graph) (p : PlanId) (i : TaskId) (t t' : Task) : Prop where
  plan : t'.planId = t.planId
  status : t' = t ∨ (t.planId = p ∧ t.status = .pending ∧
    (t'.status = .blocked ∧ Doomed g p i ∨ t'.status = .ready ∧ g.ParentsCompleted i))

theorem Propagated.same {t : Task} : Propagated g p i t t := ⟨rfl, .inl rfl⟩

theorem Propagated.pending {t t' : Task} (h : Propagated g p i t t') (ht' : t'.status = .pending) :
    t' = t := by
  rcases h.status with h | ⟨-, -, ⟨hb, -⟩ | ⟨hr, -⟩⟩
  · exact h
  · rw [hb] at ht'; cases ht'
  · rw [hr] at ht'; cases ht'

theorem Propagated.completed {t t' : Task} (h : Propagated g p i t t') :
    t'.status = .completed ↔ t.status = .completed := by
  rcases h.status with rfl | ⟨-, hp, ⟨hb, -⟩ | ⟨hr, -⟩⟩
  · exact Iff.rfl
  · rw [hb, hp]; simp
  · rw [hr, hp]; simp

theorem Propagated.doomed {t t' : Task} (h : Propagated g p i t t') (ht : g.tasks.get? i = some t)
    (hbad : t'.status.isBad = true) : Doomed g p i := by
  rcases h.status with rfl | ⟨-, -, ⟨-, hd⟩ | ⟨hr, -⟩⟩
  · exact .bad ht hbad
  · exact hd
  · rw [hr] at hbad; cases hbad

/-- Nothing but turns of the plan's loop has happened since `g`. -/
structure Propagation (g : Graph) (p : PlanId) (g₁ : Graph) : Prop where
  tasks : Table.Related (Propagated g p) g.tasks g₁.tasks
  dependencies : g₁.dependencies = g.dependencies
  attempts : g₁.attempts = g.attempts

theorem Propagation.start : Propagation g p g := ⟨.refl fun _ _ _ => .same, rfl, rfl⟩

theorem Propagation.hasBadParent (hP : Propagation g p g₁) (hb : g₁.HasBadParent i) :
    ∃ e ∈ g.dependencies, e.taskId = i ∧ Doomed g p e.dependsOn := by
  obtain ⟨st, hst, hbad⟩ := hb
  obtain ⟨e, he, hei, x', hx', rfl⟩ := Graph.mem_parentStatuses.1 hst
  obtain ⟨x, hx, hr⟩ := hP.tasks.back hx'
  exact ⟨e, hP.dependencies ▸ he, hei, hr.doomed hx hbad⟩

theorem Propagation.parentsCompleted (hP : Propagation g p g₁) :
    g₁.ParentsCompleted i ↔ g.ParentsCompleted i := by
  constructor
  · intro h e he hei x hx
    obtain ⟨x', hx', hr⟩ := hP.tasks.forth hx
    exact hr.completed.1 (h e (hP.dependencies ▸ he) hei x' hx')
  · intro h e he hei x' hx'
    obtain ⟨x, hx, hr⟩ := hP.tasks.back hx'
    exact hr.completed.2 (h e (hP.dependencies ▸ he) hei x hx)

/-- A row of the plan in one graph is a row of the plan in the other. -/
theorem Propagation.inPlan (hP : Propagation g p g₁) {t : Task} (ht : g₁.tasks.get? i = some t)
    (hp : t.planId = p) : ∀ t₀, g.tasks.get? i = some t₀ → t₀.planId = p := by
  intro t₀ ht₀
  obtain ⟨t', ht', hr⟩ := hP.tasks.forth ht₀
  obtain rfl : t = t' := Option.some.inj (ht.symm.trans ht')
  exact hr.plan.symm.trans hp

theorem Propagation.setPending (hP : Propagation g p g₁) {f : Task → Task}
    (hplan : ∀ t, (f t).planId = t.planId) (hp : ∀ t, g.tasks.get? i = some t → t.planId = p)
    (hf : ∀ t, g.tasks.get? i = some t → t.status = .pending →
      (f t).status = .blocked ∧ Doomed g p i ∨ (f t).status = .ready ∧ g.ParentsCompleted i) :
    Propagation g p (g₁.setPending i f) := by
  refine ⟨fun j => ?_, hP.dependencies, hP.attempts⟩
  rw [Graph.setPending_get?]
  cases ht : g.tasks.get? j with
  | none =>
    rw [(hP.tasks.none_iff j).2 ht]
    exact .none
  | some t =>
    obtain ⟨t', ht', hr⟩ := hP.tasks.forth ht
    rw [ht', Option.map_some]
    split
    · rename_i hsel
      obtain ⟨rfl, hpend⟩ := hsel
      obtain rfl : t' = t := hr.pending hpend
      exact .some ⟨hplan t', .inr ⟨hp t' ht, hpend, hf t' ht hpend⟩⟩
    · exact .some hr

theorem Propagation.turn {row : TaskId × Task} {g₂ : Graph} (hP : Propagation g p g₁)
    (hrow : ∀ t, g.tasks.get? row.1 = some t → t.planId = p) (hT : Turn now g₁ row g₂) :
    Propagation g p g₂ := by
  cases hT with
  | kept _ => exact hP
  | blocked _ hbad =>
    obtain ⟨e, he, hei, hd⟩ := hP.hasBadParent hbad
    exact hP.setPending (fun _ => rfl) hrow fun t ht hpend =>
      .inl ⟨rfl, .inherited ht (hrow t ht) hpend he hei hd⟩
  | readied _ hdone =>
    exact hP.setPending (fun _ => rfl) hrow fun _ _ _ => .inr ⟨rfl, hP.parentsCompleted.1 hdone⟩

theorem Propagation.turns (rows : List (TaskId × Task)) : ∀ {g₁ : Graph}, Propagation g p g₁ →
    (∀ row ∈ rows, ∀ t, g.tasks.get? row.1 = some t → t.planId = p) →
    Propagation g p (rows.foldl (refreshTask now) g₁) := by
  induction rows with
  | nil => exact fun hP _ => hP
  | cons row rows ih =>
    intro g₁ hP hrows
    exact ih (hP.turn (hrows row (List.mem_cons_self ..)) (refreshTask_turn now g₁ row))
      fun r hr => hrows r (List.mem_cons_of_mem _ hr)

theorem mem_planTasks {row : TaskId × Task} : row ∈ g.planTasks p ↔
    g.tasks.get? row.1 = some row.2 ∧ row.2.planId = p := by
  rw [Graph.planTasks, List.mem_insertionSort, ← Prod.mk.eta (p := row), Table.mem_select]
  simp only [decide_eq_true_eq]

theorem Propagation.loop (hP : Propagation g p g₁) :
    Propagation g p ((g₁.planTasks p).foldl (refreshTask now) g₁) := by
  refine hP.turns _ fun row hrow => ?_
  obtain ⟨ht, hp⟩ := mem_planTasks.1 hrow
  exact hP.inPlan ht hp

/-! ### No pending task can move -/

/-- No turn would change a task of the plan. -/
def Graph.Stuck (g : Graph) (p : PlanId) : Prop :=
  ∀ i t, g.tasks.get? i = some t → t.planId = p → t.status = .pending →
    ¬g.HasBadParent i ∧ ¬g.ParentsCompleted i

theorem Graph.Stuck.loop (hs : g.Stuck p) : (g.planTasks p).foldl (refreshTask now) g = g := by
  have hrows : ∀ rows : List (TaskId × Task), (∀ row ∈ rows, row ∈ g.planTasks p) →
      rows.foldl (refreshTask now) g = g := by
    intro rows
    induction rows with
    | nil => exact fun _ => rfl
    | cons row rows ih =>
      intro hmem
      obtain ⟨ht, hp⟩ := mem_planTasks.1 (hmem row (List.mem_cons_self ..))
      have hkept : refreshTask now g row = g := by
        have hT := refreshTask_turn now g row
        generalize refreshTask now g row = g₂ at hT ⊢
        cases hT with
        | kept _ => rfl
        | blocked hpend hbad => exact absurd hbad (hs _ _ ht hp hpend).1
        | readied hpend hdone => exact absurd hdone (hs _ _ ht hp hpend).2
      rw [List.foldl_cons, hkept]
      exact ih fun r hr => hmem r (List.mem_cons_of_mem _ hr)
  exact hrows _ fun _ h => h

/-- Where nothing moves, a failure has reached everything it can. -/
theorem Propagation.bad_of_doomed (hP : Propagation g p g₁) (hs : g₁.Stuck p) (hd : Doomed g p i) :
    ∃ t', g₁.tasks.get? i = some t' ∧ t'.status.isBad = true := by
  induction hd with
  | @bad i t ht hbad =>
    obtain ⟨t', ht', hr⟩ := hP.tasks.forth ht
    rcases hr.status with rfl | ⟨-, hpend, -⟩
    · exact ⟨_, ht', hbad⟩
    · rw [hpend] at hbad; cases hbad
  | @inherited i t e ht hp hpend he hei _ ih =>
    obtain ⟨x', hx', hbad⟩ := ih
    have hparent : g₁.HasBadParent i :=
      ⟨_, Graph.mem_parentStatuses.2 ⟨e, hP.dependencies ▸ he, hei, x', hx', rfl⟩, hbad⟩
    obtain ⟨t', ht', hr⟩ := hP.tasks.forth ht
    rcases hr.status with rfl | ⟨-, -, ⟨hb, -⟩ | ⟨-, hdone⟩⟩
    · exact absurd hparent (hs i t' ht' hp hpend).1
    · exact ⟨t', ht', by rw [hb]; rfl⟩
    · exact absurd (hP.parentsCompleted.2 hdone) hparent.not_completed

/-- The tasks that were pending, where nothing moves any more. -/
structure Settled (g : Graph) (i : TaskId) (status : TaskStatus) : Prop where
  blocked : status = .blocked ↔ g.HasBadParent i
  ready : status = .ready ↔ g.ParentsCompleted i
  pending : status = .pending ↔ ¬g.HasBadParent i ∧ ¬g.ParentsCompleted i

theorem Propagation.settled (hP : Propagation g p g₁) (hs : g₁.Stuck p) {t : Task}
    (ht : g.tasks.get? i = some t) (hp : t.planId = p) (hpend : t.status = .pending) :
    ∃ t', g₁.tasks.get? i = some t' ∧ Settled g₁ i t'.status := by
  obtain ⟨t', ht', hr⟩ := hP.tasks.forth ht
  refine ⟨t', ht', ?_⟩
  rcases hr.status with rfl | ⟨-, -, ⟨hb, hd⟩ | ⟨hready, hdone⟩⟩
  · obtain ⟨hbad, hdone⟩ := hs i t' ht' hp hpend
    rw [hpend]
    exact ⟨by simpa using hbad, by simpa using hdone, by simpa using ⟨hbad, hdone⟩⟩
  · have hparent : g₁.HasBadParent i := by
      cases hd with
      | bad ht₀ hbad =>
        obtain rfl : t = _ := Option.some.inj (ht.symm.trans ht₀)
        rw [hpend] at hbad
        cases hbad
      | inherited _ _ _ he hei hd =>
        obtain ⟨x', hx', hbad⟩ := hP.bad_of_doomed hs hd
        exact ⟨_, Graph.mem_parentStatuses.2 ⟨_, hP.dependencies ▸ he, hei, x', hx', rfl⟩, hbad⟩
    rw [hb]
    exact ⟨by simpa using hparent, by simpa using hparent.not_completed,
      by simpa using fun h => absurd hparent h⟩
  · have hcompleted := hP.parentsCompleted.2 hdone
    have hnobad : ¬g₁.HasBadParent i := fun h => h.not_completed hcompleted
    rw [hready]
    exact ⟨by simpa using hnobad, by simpa using hcompleted, by simpa using fun _ => hcompleted⟩

/-! ### Every call makes progress -/

theorem Turn.dependencies {row : TaskId × Task} {g₂ : Graph} (hT : Turn now g row g₂) :
    g₂.dependencies = g.dependencies := by
  cases hT <;> rfl

/-- A turn leaves the rows alone that are not pending. -/
theorem Turn.keeps {row : TaskId × Task} {g₂ : Graph} (hT : Turn now g row g₂) {t : Task}
    (ht : g.tasks.get? i = some t) (hst : t.status ≠ .pending) : g₂.tasks.get? i = some t := by
  cases hT with
  | kept _ => exact ht
  | blocked _ _ => rw [Graph.setPending_get?, ht, Option.map_some, if_neg fun h => hst h.2]
  | readied _ _ => rw [Graph.setPending_get?, ht, Option.map_some, if_neg fun h => hst h.2]

theorem Turn.back {row : TaskId × Task} {g₂ : Graph} (hT : Turn now g row g₂) {t' : Task}
    (ht' : g₂.tasks.get? i = some t') : ∃ t, g.tasks.get? i = some t := by
  cases hT with
  | kept _ => exact ⟨t', ht'⟩
  | blocked _ _ =>
    rw [Graph.setPending_get?, Option.map_eq_some_iff] at ht'
    obtain ⟨t, ht, -⟩ := ht'
    exact ⟨t, ht⟩
  | readied _ _ =>
    rw [Graph.setPending_get?, Option.map_eq_some_iff] at ht'
    obtain ⟨t, ht, -⟩ := ht'
    exact ⟨t, ht⟩

/-- The task can leave `PENDING`. -/
def Graph.Movable (g : Graph) (i : TaskId) : Prop := g.HasBadParent i ∨ g.ParentsCompleted i

theorem Turn.movable {row : TaskId × Task} {g₂ : Graph} (hT : Turn now g row g₂)
    (hm : g.Movable i) : g₂.Movable i := by
  rcases hm with ⟨st, hst, hbad⟩ | hdone
  · obtain ⟨e, he, hei, x, hx, rfl⟩ := Graph.mem_parentStatuses.1 hst
    have hx' := hT.keeps hx fun hp => by rw [hp] at hbad; cases hbad
    exact .inl ⟨_, Graph.mem_parentStatuses.2 ⟨e, hT.dependencies ▸ he, hei, x, hx', rfl⟩, hbad⟩
  · refine .inr fun e he hei x' hx' => ?_
    obtain ⟨x, hx⟩ := hT.back hx'
    have hst := hdone e (hT.dependencies ▸ he) hei x hx
    have hkept := hT.keeps hx (by rw [hst]; simp)
    obtain rfl : x' = x := Option.some.inj (hx'.symm.trans hkept)
    exact hst

theorem Turn.decides {row : TaskId × Task} {g₂ : Graph} (hT : Turn now g row g₂)
    (hpend : row.2.status = .pending) (hm : g.Movable row.1) {t' : Task}
    (ht' : g₂.tasks.get? row.1 = some t') : t'.status ≠ .pending := by
  cases hT with
  | kept hnone =>
    obtain ⟨hbad, hdone⟩ := hnone hpend
    exact absurd hm (not_or.2 ⟨hbad, hdone⟩)
  | blocked _ _ =>
    rw [Graph.setPending_get?, Option.map_eq_some_iff] at ht'
    obtain ⟨t, -, rfl⟩ := ht'
    split
    · simp [Task.blockedByParent]
    · rename_i hsel
      exact fun h => hsel ⟨rfl, h⟩
  | readied _ _ =>
    rw [Graph.setPending_get?, Option.map_eq_some_iff] at ht'
    obtain ⟨t, -, rfl⟩ := ht'
    split
    · simp [Task.readied]
    · rename_i hsel
      exact fun h => hsel ⟨rfl, h⟩

theorem turns_keep (rows : List (TaskId × Task)) : ∀ {g : Graph} {t : Task},
    g.tasks.get? i = some t → t.status ≠ .pending →
      (rows.foldl (refreshTask now) g).tasks.get? i = some t := by
  induction rows with
  | nil => exact fun ht _ => ht
  | cons row rows ih =>
    intro g t ht hst
    exact ih ((refreshTask_turn now g row).keeps ht hst) hst

theorem turns_decide (rows : List (TaskId × Task)) : ∀ {g : Graph}, (g.tasks.get? i).isSome = true →
    (∃ t, (i, t) ∈ rows ∧ t.status = .pending) → g.Movable i →
    ∀ t', (rows.foldl (refreshTask now) g).tasks.get? i = some t' → t'.status ≠ .pending := by
  induction rows with
  | nil =>
    rintro g - ⟨t, hmem, -⟩
    cases hmem
  | cons row rows ih =>
    intro g hi hrow hm t' ht'
    have hT := refreshTask_turn now g row
    rw [List.foldl_cons] at ht'
    have hi' : ((refreshTask now g row).tasks.get? i).isSome = true := by
      generalize refreshTask now g row = g₂ at hT
      cases hT with
      | kept _ => exact hi
      | blocked _ _ => rw [Graph.setPending_get?, Option.isSome_map]; exact hi
      | readied _ _ => rw [Graph.setPending_get?, Option.isSome_map]; exact hi
    by_cases hhead : row.1 = i ∧ row.2.status = .pending
    · obtain ⟨rfl, hpend⟩ := hhead
      obtain ⟨t₁, ht₁⟩ := Option.isSome_iff_exists.1 hi'
      have hst := hT.decides hpend hm ht₁
      obtain rfl : t' = t₁ := Option.some.inj (ht'.symm.trans (turns_keep rows ht₁ hst))
      exact hst
    · refine ih hi' ?_ (hT.movable hm) t' ht'
      obtain ⟨t, hmem, hpend⟩ := hrow
      rcases List.mem_cons.1 hmem with rfl | hmem
      · exact absurd ⟨rfl, hpend⟩ hhead
      · exact ⟨t, hmem, hpend⟩

/-- A loop takes a task out of `PENDING`, unless none can move. -/
theorem pendingCount_loop (hs : ¬g.Stuck p) :
    ((g.planTasks p).foldl (refreshTask now) g).pendingCount p < g.pendingCount p := by
  simp only [Graph.Stuck, not_forall] at hs
  obtain ⟨i, t, ht, hp, hpend, hmove⟩ := hs
  have hm : g.Movable i := by
    by_contra hnone
    exact hmove (not_or.1 hnone)
  have hP := @Propagation.loop g g p now .start
  refine Table.count_lt i ⟨t, ht, decide_eq_true ⟨hp, hpend⟩⟩ (fun t' ht' => decide_eq_false ?_)
    fun k u' hu' hq => ?_
  · rintro ⟨-, hst⟩
    exact turns_decide _ (by rw [ht]; rfl) ⟨t, mem_planTasks.2 ⟨ht, hp⟩, hpend⟩ hm t' ht' hst
  · obtain ⟨u, hu, hr⟩ := hP.tasks.back hu'
    obtain ⟨hup, hus⟩ := of_decide_eq_true hq
    obtain rfl := hr.pending hus
    exact ⟨u', hu, decide_eq_true ⟨hup, hus⟩⟩

/-! ### The plan's own row -/

/-- The statuses of the plan's tasks. -/
def Graph.statuses (g : Graph) (p : PlanId) : List TaskStatus :=
  (g.tasks.select fun _ t => t.planId = p).map fun x => x.2.status

/-- The plan has tasks, and all are completed. -/
def Graph.succeeds (g : Graph) (p : PlanId) : Bool :=
  g.statuses p ≠ [] ∧ (g.statuses p).all fun st => st = .completed

/-- The plan has ended, and not well. -/
def Graph.fails (g : Graph) (p : PlanId) : Bool :=
  (g.statuses p).any TaskStatus.isBad ∧
    ¬(g.statuses p).any fun st => st = .ready ∨ st = .running ∨ st = .pending

theorem Graph.mem_statuses {st : TaskStatus} :
    st ∈ g.statuses p ↔ ∃ i t, g.tasks.get? i = some t ∧ t.planId = p ∧ t.status = st := by
  rw [Graph.statuses, List.mem_map]
  constructor
  · rintro ⟨⟨i, t⟩, hmem, rfl⟩
    obtain ⟨ht, hp⟩ := Table.mem_select.1 hmem
    exact ⟨i, t, ht, of_decide_eq_true hp, rfl⟩
  · rintro ⟨i, t, ht, hp, rfl⟩
    exact ⟨(i, t), Table.mem_select.2 ⟨ht, decide_eq_true hp⟩, rfl⟩

theorem Graph.pendingCount_eq_zero : g.pendingCount p = 0 ↔ TaskStatus.pending ∉ g.statuses p := by
  rw [Graph.pendingCount, Table.count_eq_zero_iff, Graph.mem_statuses]
  constructor
  · rintro h ⟨i, t, ht, hp, hst⟩
    exact of_decide_eq_false (h i t ht) ⟨hp, hst⟩
  · intro h i t ht
    exact decide_eq_false fun hq => h ⟨i, t, ht, hq.1, hq.2⟩

theorem Graph.stuck_of_no_pending (h : g.pendingCount p = 0) : g.Stuck p := by
  intro i t ht hp hst
  exact absurd (Graph.mem_statuses.2 ⟨i, t, ht, hp, hst⟩) (Graph.pendingCount_eq_zero.1 h)

theorem Graph.no_pending_of_succeeds (h : g.succeeds p = true) : g.pendingCount p = 0 := by
  rw [Graph.pendingCount_eq_zero]
  intro hmem
  have hall := List.all_eq_true.1 (of_decide_eq_true h).2 _ hmem
  simp at hall

theorem Graph.no_pending_of_fails (h : g.fails p = true) : g.pendingCount p = 0 := by
  rw [Graph.pendingCount_eq_zero]
  intro hmem
  exact (of_decide_eq_true h).2 (List.any_eq_true.2 ⟨_, hmem, by simp⟩)

/-- Without a gate and without a marker the row is written by the statuses of the tasks alone. -/
theorem refreshPlan_open {x : Plan} (hgate : planHasActiveHumanGate g s p = false)
    (hmark : x.awaitsCleanup = false) : refreshPlan s p x now g x =
      if g.succeeds p then { x with
        status := .completed, heartbeatAt := some now, finishedAt := some now, lastError := none }
      else if g.fails p then { x with
        status := .failed, heartbeatAt := some now, finishedAt := some now
        lastError := some "one or more tasks failed" }
      else { x with
        status := if x.status = .ready then .running else x.status
        startedAt := x.startedAt.or (some now)
        heartbeatAt := some now } := by
  have hmark' : ¬(x.lastError = some cancellationRecoveryError ∨
      x.lastError = some cancellationPendingError) := of_decide_eq_false hmark
  simp only [refreshPlan, hgate, Bool.false_eq_true, false_and, false_or, if_false, hmark', and_false]
  split
  · rename_i h
    exact (if_pos (show g.succeeds p = true from decide_eq_true h)).symm
  · rename_i h
    rw [if_neg fun hs : g.succeeds p = true => h (of_decide_eq_true hs)]
    split
    · rename_i hf
      exact (if_pos (show g.fails p = true from decide_eq_true hf)).symm
    · rename_i hf
      exact (if_neg fun hs : g.fails p = true => hf (of_decide_eq_true hs)).symm

/-! ### One call -/

/-- No gate and no marker holds the refresh of the plan back, and the plan is not a draft. -/
structure Unhindered (g : Graph) (s : Store) (p : PlanId) : Prop where
  gate : planHasActiveHumanGate g s p = false
  plan : ∃ x, g.plans.get? p = some x ∧ x.status ≠ .draft ∧ x.awaitsCleanup = false ∧
    (x.status.isTerminal = true → g.pendingCount p = 0)

/-- The same but for the columns that hold times. -/
def Plan.untimed (x : Plan) : Plan :=
  { x with startedAt := none, heartbeatAt := none, finishedAt := none }

/-- The graphs differ in times of plan rows at most. -/
structure SameButTimes (g g' : Graph) : Prop where
  plans : ∀ q, (g'.plans.get? q).map Plan.untimed = (g.plans.get? q).map Plan.untimed
  tasks : g'.tasks = g.tasks
  dependencies : g'.dependencies = g.dependencies
  attempts : g'.attempts = g.attempts

theorem SameButTimes.rfl : SameButTimes g g := ⟨fun _ => Eq.refl _, Eq.refl _, Eq.refl _, Eq.refl _⟩

theorem SameButTimes.trans {g' g'' : Graph} (h : SameButTimes g g') (h' : SameButTimes g' g'') :
    SameButTimes g g'' :=
  ⟨fun q => (h'.plans q).trans (h.plans q), h'.tasks.trans h.tasks,
    h'.dependencies.trans h.dependencies, h'.attempts.trans h.attempts⟩

theorem refreshPlanStates_ended {x : Plan} (hx : g.plans.get? p = some x)
    (hend : x.status.isTerminal = true) : refreshPlanStates g s p now = g := by
  simp only [refreshPlanStates, hx, hend, or_true, if_true]

/-- A call on a live plan is the loop over its tasks and the write of its row. -/
theorem refreshPlanStates_eq {x : Plan} (hx : g.plans.get? p = some x) (hdraft : x.status ≠ .draft)
    (hlive : x.status.isTerminal = false) :
    refreshPlanStates g s p now =
      let g' := (g.planTasks p).foldl (refreshTask now) g
      { g' with plans := g'.plans.updateAt p (refreshPlan s p x now g') } := by
  simp only [refreshPlanStates, hx, hdraft, hlive, Bool.false_eq_true, or_self, if_false]

theorem Propagation.gate (hP : Propagation g p g₁) (h : planHasActiveHumanGate g s p = false) :
    planHasActiveHumanGate g₁ s p = false := by
  rw [planHasActiveHumanGate_congr hP.attempts fun i => ?_]
  · exact h
  · cases ht : g.tasks.get? i with
    | none => rw [(hP.tasks.none_iff i).2 ht]
    | some t =>
      obtain ⟨t', ht', hr⟩ := hP.tasks.forth ht
      rw [ht', Option.map_some, Option.map_some, hr.plan]

/-- What one call leaves. -/
structure Called (g : Graph) (s : Store) (p : PlanId) (g' : Graph) : Prop where
  propagation : Propagation g p g'
  unhindered : Unhindered g' s p
  stuck : g.Stuck p → g'.tasks = g.tasks
  moved : ¬g.Stuck p → g'.pendingCount p < g.pendingCount p

theorem Unhindered.call (hu : Unhindered g s p) (now : Time) :
    Called g s p (refreshPlanStates g s p now) := by
  obtain ⟨x, hx, hdraft, hmark, hended⟩ := hu.plan
  cases hlive : x.status.isTerminal with
  | true =>
    rw [refreshPlanStates_ended hx hlive]
    exact ⟨.start, hu, fun _ => rfl, fun h => absurd (Graph.stuck_of_no_pending (hended hlive)) h⟩
  | false =>
    rw [refreshPlanStates_eq hx hdraft hlive]
    have hP := @Propagation.loop g g p now .start
    have hframe := foldl_refreshTask now (g.planTasks p) g (.refl fun _ _ _ => .rfl) rfl rfl rfl
    have hstuck : g.Stuck p → (g.planTasks p).foldl (refreshTask now) g = g := Graph.Stuck.loop
    have hmoved : ¬g.Stuck p →
        ((g.planTasks p).foldl (refreshTask now) g).pendingCount p < g.pendingCount p :=
      pendingCount_loop
    generalize (g.planTasks p).foldl (refreshTask now) g = g' at hP hframe hstuck hmoved
    have hx' : g'.plans.get? p = some x := by rw [hframe.2.1]; exact hx
    have hgate := hP.gate hu.gate
    refine ⟨⟨hP.tasks, hP.dependencies, hP.attempts⟩, ⟨?_, refreshPlan s p x now g' x, ?_, ?_⟩,
      fun h => (show g'.tasks = g.tasks by rw [hstuck h]), hmoved⟩
    · exact hgate
    · rw [Table.get?_updateAt, if_pos rfl, hx', Option.map_some]
    · have hcount : Graph.pendingCount { g' with plans := g'.plans.updateAt p (refreshPlan s p x now g') } p =
          g'.pendingCount p := rfl
      rw [hcount, refreshPlan_open hgate hmark]
      split
      · rename_i h
        exact ⟨by simp, rfl, fun _ => Graph.no_pending_of_succeeds h⟩
      · split
        · rename_i h
          exact ⟨by simp, by simp [Plan.awaitsCleanup, cancellationRecoveryError,
            cancellationPendingError], fun _ => Graph.no_pending_of_fails h⟩
        · refine ⟨?_, hmark, fun h => ?_⟩
          · dsimp only
            split
            · simp
            · exact hdraft
          · dsimp only at h
            split at h
            · cases h
            · rw [hlive] at h; cases h

/-! ### Many calls -/

theorem refreshed_succ (n : Nat) : ∀ (clock : Nat → Time) (g : Graph),
    refreshed s p (n + 1) clock g = refreshPlanStates (refreshed s p n clock g) s p (clock n) := by
  induction n with
  | zero => exact fun _ _ => rfl
  | succ n ih =>
    intro clock g
    rw [refreshed, ih]
    rfl

theorem Propagation.call (hP : Propagation g p g₁) :
    Propagation g p (refreshPlanStates g₁ s p now) := by
  unfold refreshPlanStates
  split
  · exact hP
  · split
    · exact hP
    · have hloop := @Propagation.loop g g₁ p now hP
      exact ⟨hloop.tasks, hloop.dependencies, hloop.attempts⟩

theorem Graph.Stuck.congr (hs : g.Stuck p) (ht : g₁.tasks = g.tasks)
    (hd : g₁.dependencies = g.dependencies) : g₁.Stuck p := by
  have hparents : ∀ i, g₁.parentStatuses i = g.parentStatuses i := fun i => by
    rw [Graph.parentStatuses, Graph.parentStatuses, ht, hd]
  intro i t hti hp hst
  have h := hs i t (ht ▸ hti) hp hst
  unfold Graph.HasBadParent at h ⊢
  rw [Graph.parentsCompleted_iff] at h ⊢
  rw [hparents]
  exact h

/-- Every call takes a task out of `PENDING` until nothing moves. -/
theorem refreshed_stuck (n : Nat) : ∀ {clock : Nat → Time} {g₁ : Graph}, Propagation g p g₁ →
    Unhindered g₁ s p → g₁.Stuck p ∨ g₁.pendingCount p ≤ n →
    Propagation g p (refreshed s p n clock g₁) ∧ Unhindered (refreshed s p n clock g₁) s p ∧
      (refreshed s p n clock g₁).Stuck p := by
  induction n with
  | zero =>
    intro clock g₁ hP hu hs
    exact ⟨hP, hu, hs.elim id fun h => Graph.stuck_of_no_pending (Nat.le_zero.1 h)⟩
  | succ n ih =>
    intro clock g₁ hP hu hs
    have hc := hu.call (clock 0)
    refine ih hP.call hc.unhindered ?_
    by_cases hstuck : g₁.Stuck p
    · exact .inl (hstuck.congr (hc.stuck hstuck) hc.propagation.dependencies)
    · have hmoved := hc.moved hstuck
      have hbound := hs.resolve_left hstuck
      exact .inr (by omega)

/-! ### At rest -/

/-- Nothing moves, and the plan's own row has caught up. -/
structure AtRest (g : Graph) (s : Store) (p : PlanId) : Prop where
  stuck : g.Stuck p
  gate : planHasActiveHumanGate g s p = false
  plan : ∃ x, g.plans.get? p = some x ∧ x.status ≠ .draft ∧ x.awaitsCleanup = false ∧
    (x.status.isTerminal = true ∨
      x.status ≠ .ready ∧ g.succeeds p = false ∧ g.fails p = false)

theorem Graph.statuses_congr (ht : g₁.tasks = g.tasks) : g₁.succeeds p = g.succeeds p ∧
    g₁.fails p = g.fails p := by
  unfold Graph.succeeds Graph.fails Graph.statuses
  rw [ht]
  exact ⟨rfl, rfl⟩

/-- The call after which nothing is left to do. -/
theorem Unhindered.rest (hu : Unhindered g s p) (hs : g.Stuck p) (now : Time) :
    AtRest (refreshPlanStates g s p now) s p := by
  have hc := hu.call now
  refine ⟨hs.congr (hc.stuck hs) hc.propagation.dependencies, hc.unhindered.gate, ?_⟩
  obtain ⟨x, hx, hdraft, hmark, hended⟩ := hu.plan
  obtain ⟨x', hx', hdraft', hmark', -⟩ := hc.unhindered.plan
  obtain ⟨hsucceeds, hfails⟩ := Graph.statuses_congr (p := p) (hc.stuck hs)
  refine ⟨x', hx', hdraft', hmark', ?_⟩
  rw [hsucceeds, hfails]
  cases hlive : x.status.isTerminal with
  | true =>
    rw [refreshPlanStates_ended hx hlive, hx, Option.some.injEq] at hx'
    exact .inl (hx' ▸ hlive)
  | false =>
    rw [refreshPlanStates_eq hx hdraft hlive, hs.loop] at hx'
    dsimp only at hx'
    rw [Table.get?_updateAt, if_pos rfl, hx, Option.map_some, refreshPlan_open hu.gate hmark,
      Option.some.injEq] at hx'
    subst hx'
    by_cases h₁ : g.succeeds p = true
    · rw [if_pos h₁]
      exact .inl rfl
    · by_cases h₂ : g.fails p = true
      · rw [if_neg h₁, if_pos h₂]
        exact .inl rfl
      · rw [if_neg h₁, if_neg h₂]
        refine .inr ⟨?_, by simpa using h₁, by simpa using h₂⟩
        dsimp only
        split
        · simp
        · assumption

theorem AtRest.call (hr : AtRest g s p) (now : Time) :
    SameButTimes g (refreshPlanStates g s p now) ∧ AtRest (refreshPlanStates g s p now) s p := by
  obtain ⟨x, hx, hdraft, hmark, hrow⟩ := hr.plan
  cases hlive : x.status.isTerminal with
  | true =>
    rw [refreshPlanStates_ended hx hlive]
    exact ⟨.rfl, hr⟩
  | false =>
    obtain ⟨hready, hsucceeds, hfails⟩ := hrow.resolve_left (by rw [hlive]; simp)
    have hu : Unhindered g s p := ⟨hr.gate, x, hx, hdraft, hmark, fun h => by rw [hlive] at h; cases h⟩
    refine ⟨?_, hu.rest hr.stuck now⟩
    rw [refreshPlanStates_eq hx hdraft hlive, hr.stuck.loop]
    refine ⟨fun q => ?_, rfl, rfl, rfl⟩
    dsimp only
    rw [Table.get?_updateAt]
    split
    · rename_i hq
      subst hq
      rw [hx, Option.map_some, Option.map_some, Option.map_some, refreshPlan_open hr.gate hmark, hsucceeds,
        hfails, if_neg Bool.false_ne_true, if_neg Bool.false_ne_true, if_neg hready]
      rfl
    · rfl

theorem AtRest.calls (n : Nat) : ∀ {clock : Nat → Time} {g : Graph}, AtRest g s p →
    SameButTimes g (refreshed s p n clock g) := by
  induction n with
  | zero => exact fun _ => .rfl
  | succ n ih =>
    intro clock g hr
    obtain ⟨hsame, hrest⟩ := hr.call (clock 0)
    exact hsame.trans (ih hrest)

/-! ### The fixpoint -/

/-- The tasks of the plan. -/
def Graph.planSize (g : Graph) (p : PlanId) : Nat := g.tasks.count fun _ t => t.planId = p

/-- The graph after one call more than the plan has tasks. -/
def fixpoint (g : Graph) (s : Store) (p : PlanId) (clock : Nat → Time) : Graph :=
  refreshed s p (g.planSize p + 1) clock g

theorem pendingCount_le_planSize : g.pendingCount p ≤ g.planSize p :=
  Table.count_le fun _ t ht hq => ⟨t, ht, decide_eq_true (of_decide_eq_true hq).1⟩

theorem fixpoint_rest (hu : Unhindered g s p) (clock : Nat → Time) :
    Propagation g p (fixpoint g s p clock) ∧ AtRest (fixpoint g s p clock) s p := by
  obtain ⟨hP, hu', hs⟩ := @refreshed_stuck g s p (g.planSize p) clock g .start hu
    (.inr pendingCount_le_planSize)
  rw [fixpoint, refreshed_succ]
  exact ⟨hP.call, hu'.rest hs _⟩

/-- The graphs agree on the plan of every task, on its status and on the dependencies; priorities and
    times may differ. -/
structure SameWork (g g' : Graph) : Prop where
  tasks : ∀ i, (g'.tasks.get? i).map (fun t => (t.planId, t.status)) =
    (g.tasks.get? i).map fun t => (t.planId, t.status)
  dependencies : ∀ e, e ∈ g'.dependencies ↔ e ∈ g.dependencies

theorem SameWork.symm {g' : Graph} (h : SameWork g g') : SameWork g' g :=
  ⟨fun i => (h.tasks i).symm, fun e => (h.dependencies e).symm⟩

theorem SameWork.row {g' : Graph} (h : SameWork g g') {t : Task} (ht : g.tasks.get? i = some t) :
    ∃ t', g'.tasks.get? i = some t' ∧ t'.planId = t.planId ∧ t'.status = t.status := by
  have hrow := h.tasks i
  rw [ht, Option.map_some, Option.map_eq_some_iff] at hrow
  obtain ⟨t', ht', heq⟩ := hrow
  rw [Prod.mk.injEq] at heq
  exact ⟨t', ht', heq.1, heq.2⟩

theorem SameWork.doomed {g' : Graph} (h : SameWork g g') (hd : Doomed g p i) : Doomed g' p i := by
  induction hd with
  | bad ht hbad =>
    obtain ⟨t', ht', -, hst⟩ := h.row ht
    exact .bad ht' (by rw [hst]; exact hbad)
  | inherited ht hp hpend he hei _ ih =>
    obtain ⟨t', ht', hplan, hst⟩ := h.row ht
    exact .inherited ht' (hplan.trans hp) (hst.trans hpend) ((h.dependencies _).2 he) hei ih

theorem SameWork.parentsCompleted {g' : Graph} (h : SameWork g g') (hc : g.ParentsCompleted i) :
    g'.ParentsCompleted i := by
  intro e he hei x' hx'
  obtain ⟨x, hx, -, hst⟩ := h.symm.row hx'
  rw [← hst]
  exact hc e ((h.dependencies e).1 he) hei x hx

/-- What becomes of a pending task is said by the graph before the calls. -/
theorem Propagation.final (hP : Propagation g p g₁) (hs : g₁.Stuck p) {t t' : Task}
    (ht : g.tasks.get? i = some t) (hp : t.planId = p) (hpend : t.status = .pending)
    (ht' : g₁.tasks.get? i = some t') :
    (t'.status = .blocked ∧ Doomed g p i) ∨ (t'.status = .ready ∧ g.ParentsCompleted i) ∨
      (t'.status = .pending ∧ ¬Doomed g p i ∧ ¬g.ParentsCompleted i) := by
  obtain ⟨t'', ht'', hr⟩ := hP.tasks.forth ht
  obtain rfl : t' = t'' := Option.some.inj (ht'.symm.trans ht'')
  rcases hr.status with rfl | ⟨-, -, h | h⟩
  · refine .inr (.inr ⟨hpend, fun hd => ?_, fun hdone => ?_⟩)
    · obtain ⟨x, hx, hbad⟩ := hP.bad_of_doomed hs hd
      obtain rfl : t' = x := Option.some.inj (ht'.symm.trans hx)
      rw [hpend] at hbad
      cases hbad
    · exact (hs i t' ht' hp hpend).2 (hP.parentsCompleted.2 hdone)
  · exact .inl h
  · exact .inr (.inl h)

/-- A task is not both doomed and ready. -/
theorem Propagation.not_both (hP : Propagation g p g₁) (hs : g₁.Stuck p) {t : Task}
    (ht : g.tasks.get? i = some t) (hpend : t.status = .pending) (hd : Doomed g p i) :
    ¬g.ParentsCompleted i := by
  intro hdone
  cases hd with
  | bad ht₀ hbad =>
    obtain rfl : t = _ := Option.some.inj (ht.symm.trans ht₀)
    rw [hpend] at hbad
    cases hbad
  | inherited _ _ _ he hei hd =>
    obtain ⟨x, hx, hbad⟩ := hP.bad_of_doomed hs hd
    rw [hP.parentsCompleted.2 hdone _ (hP.dependencies ▸ he) hei x hx] at hbad
    cases hbad

theorem SameWork.fixpoint {g' : Graph} {s' : Store} (h : SameWork g g') (hu : Unhindered g s p)
    (hu' : Unhindered g' s' p) (clock clock' : Nat → Time) (i : TaskId) :
    ((fixpoint g' s' p clock').tasks.get? i).map Task.status =
      ((fixpoint g s p clock).tasks.get? i).map Task.status := by
  obtain ⟨hP, hr⟩ := fixpoint_rest hu clock
  obtain ⟨hP', hr'⟩ := fixpoint_rest hu' clock'
  cases ht : g.tasks.get? i with
  | none =>
    have ht' : g'.tasks.get? i = none := by
      have hrow := h.tasks i
      rw [ht, Option.map_none, Option.map_eq_none_iff] at hrow
      exact hrow
    rw [(hP.tasks.none_iff i).2 ht, (hP'.tasks.none_iff i).2 ht']
  | some t =>
    obtain ⟨t', ht', hplan, hst⟩ := h.row ht
    obtain ⟨u, hu₁, hru⟩ := hP.tasks.forth ht
    obtain ⟨u', hu₂, hru'⟩ := hP'.tasks.forth ht'
    rw [hu₁, hu₂, Option.map_some, Option.map_some, Option.some.injEq]
    by_cases hopen : t.planId = p ∧ t.status = .pending
    · obtain ⟨hp, hpend⟩ := hopen
      have hfinal := hP.final hr.stuck ht hp hpend hu₁
      have hfinal' := hP'.final hr'.stuck ht' (hplan.trans hp) (hst.trans hpend) hu₂
      have hnot := hP.not_both hr.stuck ht hpend
      have hdoomed : Doomed g' p i ↔ Doomed g p i := ⟨h.symm.doomed, h.doomed⟩
      have hdone : g'.ParentsCompleted i ↔ g.ParentsCompleted i :=
        ⟨h.symm.parentsCompleted, h.parentsCompleted⟩
      rw [hdoomed, hdone] at hfinal'
      rcases hfinal with ⟨hb, hd⟩ | ⟨hb, hd⟩ | ⟨hb, hd, hd'⟩ <;>
        rcases hfinal' with ⟨hb', he⟩ | ⟨hb', he⟩ | ⟨hb', he, he'⟩ <;>
        first | exact hb'.trans hb.symm | tauto
    · have hkeep : u = t := hru.status.resolve_right fun hx => hopen ⟨hx.1, hx.2.1⟩
      have hkeep' : u' = t' := hru'.status.resolve_right fun hx =>
        hopen ⟨hplan ▸ hx.1, hst ▸ hx.2.1⟩
      rw [hkeep, hkeep', hst]

/-- What refreshing the plan comes to. -/
structure Converges (g : Graph) (s : Store) (p : PlanId) : Prop where
  rest : ∀ clock k clock', SameButTimes (fixpoint g s p clock)
    (refreshed s p k clock' (fixpoint g s p clock))
  settled : ∀ clock i t, g.tasks.get? i = some t → t.planId = p → t.status = .pending →
    ∃ t', (fixpoint g s p clock).tasks.get? i = some t' ∧ Settled (fixpoint g s p clock) i t'.status
  order : ∀ g' s' clock clock', SameWork g g' → Unhindered g' s' p →
    ∀ i, ((fixpoint g' s' p clock').tasks.get? i).map Task.status =
      ((fixpoint g s p clock).tasks.get? i).map Task.status

/-- One call more than there are tasks settles a plan that nothing holds back, whatever the order of the
    scan. -/
theorem refresh_converges (hu : Unhindered g s p) : Converges g s p := by
  refine ⟨fun clock k clock' => ?_, fun clock i t ht hp hpend => ?_, fun g' s' clock clock' h hu' i => ?_⟩
  · exact (fixpoint_rest hu clock).2.calls k
  · obtain ⟨hP, hr⟩ := fixpoint_rest hu clock
    exact hP.settled hr.stuck ht hp hpend
  · exact h.fixpoint hu hu' clock clock' i

/-- A plan with a failed task, a pending task that depends on it, and one that depends on that; the last
    is scanned first. -/
def chainGraph (status : PlanStatus) : Graph where
  plans := ⟨[(0, ⟨.ai, status, 1, 1, none, none, none, none⟩)], by simp⟩
  tasks := ⟨[(0, ⟨0, "a", .noop, none, .failed, 3, 1, 1, none, 1, none, none, none⟩),
    (1, ⟨0, "b", .noop, none, .pending, 2, 1, 0, none, 1, none, none, none⟩),
    (2, ⟨0, "c", .noop, none, .pending, 1, 1, 0, none, 1, none, none, none⟩)], by decide⟩
  dependencies := [⟨1, 0⟩, ⟨2, 1⟩]
  attempts := .empty

theorem chainGraph_unhindered : Unhindered (chainGraph .running) Database.empty.store 0 :=
  ⟨by decide, _, rfl, by decide, by decide, by decide⟩

/-- The failure has travelled down the chain. -/
theorem chainGraph_converges : Converges (chainGraph .running) Database.empty.store 0 ∧
    ((fixpoint (chainGraph .running) Database.empty.store 0 id).tasks.get? 2).map Task.status =
      some .blocked :=
  ⟨refresh_converges chainGraph_unhindered, by decide⟩

/-- A draft is not refreshed at all. -/
theorem draft_not_refreshed : ¬∀ (g : Graph) (s : Store) (p : PlanId) (clock : Nat → Time),
    planHasActiveHumanGate g s p = false →
    (∃ x, g.plans.get? p = some x ∧ x.awaitsCleanup = false) →
    ∀ i t, g.tasks.get? i = some t → t.planId = p → t.status = .pending →
      ∃ t', (fixpoint g s p clock).tasks.get? i = some t' ∧
        Settled (fixpoint g s p clock) i t'.status := by
  intro hall
  obtain ⟨t', ht', hsettled⟩ := hall (chainGraph .draft) Database.empty.store 0 id (by decide)
    ⟨_, rfl, by decide⟩ 1 _ rfl rfl rfl
  have hst : t'.status = .pending := by
    have hrow : ((fixpoint (chainGraph .draft) Database.empty.store 0 id).tasks.get? 1).map Task.status =
        some .pending := by decide
    rw [ht', Option.map_some, Option.some.injEq] at hrow
    exact hrow
  have hbad : (fixpoint (chainGraph .draft) Database.empty.store 0 id).HasBadParent 1 :=
    ⟨.failed, by decide, rfl⟩
  have hblocked := hsettled.blocked.2 hbad
  rw [hst] at hblocked
  cases hblocked

end HermesOps
