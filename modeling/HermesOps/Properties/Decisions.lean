import HermesOps.Properties.ObjectiveMoves
import HermesOps.Properties.Scenario

/-! The operator's decisions on an objective. A step keeps them when no terminal objective changes
    status and a paused one changes only by an operator's resume or cancel or because its plan has
    ended. Exactly one kind of step breaks them: the failure handler of a planner that comes back
    to an objective settled in the meantime, since that handler writes whatever status it finds. -/

namespace HermesOps

/-- The objective's plan has ended. -/
def World.planEnded (w : World) (o : Objective) : Bool :=
  (w.db.graph.planStatus o.planId).any PlanStatus.isTerminal

/-- The step keeps every decision on an objective. -/
structure DecisionsKept (h : History) (config : Config) (a : Action) (w : World) : Prop where
  terminal : ∀ id o, w.db.queue.objectives.get? id = some o → o.status.isTerminal = true →
    (w.step h config a).objectiveStatus id = some o.status
  paused : ∀ id o, w.db.queue.objectives.get? id = some o → o.status = .paused →
    (w.step h config a).objectiveStatus id = some .paused ∨ a.isCommandOn id .resume = true ∨
      a.isCommandOn id .cancel = true ∨ w.planEnded o = true

/-- An objective that the failure handler would put into another status: completed or cancelled,
    failed with planning attempts left, or paused while its plan has not ended. -/
def World.isSettled (w : World) (o : Objective) : Bool :=
  match o.status with
  | .completed | .cancelled => true
  | .failed => o.planningAttemptCount < o.planningMaxAttempts
  | .paused => !w.planEnded o
  | _ => false

/-- The failure handler of a planner runs for an objective that is already settled. -/
def lateFailure (a : Action) (w : World) : Bool :=
  match a with
  | .planner i (.failure _) =>
    match w.daemon.planners.get? i with
    | some ⟨id, .failing _⟩ => (w.db.queue.objectives.get? id).any w.isSettled
    | _ => false
  | _ => false

theorem lateFailure_of_failing {w : World} {i : ObjectiveAttemptId} {id : ObjectiveId} {e : String}
    {o : Objective} (now : Time) (hp : w.daemon.planners.get? i = some ⟨id, .failing e⟩)
    (ho : w.db.queue.objectives.get? id = some o) :
    lateFailure (.planner i (.failure now)) w = w.isSettled o := by
  simp [lateFailure, hp, ho]

/-! ### The moves of a settled row -/

/-- Only a late failure moves a terminal row. -/
theorem ObjectiveMove.terminal {w : World} {id : ObjectiveId} {o o' : Objective} {a : Action}
    (hm : ObjectiveMove w id o a o') (ho : w.db.queue.objectives.get? id = some o)
    (ht : o.status.isTerminal = true) (hl : lateFailure a w = false) : o'.status = o.status := by
  cases hm with
  | kept h _ => exact h
  | unlinked h => exact h
  | paused _ _ _ h => rw [ht] at h; cases h
  | resumed _ _ h => rw [h] at ht; cases ht
  | cancelled _ _ h => rw [ht] at h; cases h
  | swept _ h => rw [ht] at h; cases h
  | promoted _ h => rw [h] at ht; cases ht
  | exhausted _ h => rw [h] at ht; cases ht
  | reserved h => rw [h] at ht; cases ht
  | planned _ h => cases hs : o.status <;> simp [hs, plannedStatus, ObjectiveStatus.isTerminal] at h ht
  | failed hp _ h =>
    rw [lateFailure_of_failing _ hp ho] at hl
    rw [h]
    cases hs : o.status <;> simp [hs, World.isSettled, ObjectiveStatus.isTerminal] at hl ht
    simp [Objective.statusAfterPlanningFailure, hs, Nat.not_lt.2 hl]
  | restarted _ _ h => rw [h] at ht; cases ht

/-- A paused row moves by the operator, with its plan, or by a late failure. -/
theorem ObjectiveMove.fromPaused {w : World} {id : ObjectiveId} {o o' : Objective} {a : Action}
    (hm : ObjectiveMove w id o a o') (ho : w.db.queue.objectives.get? id = some o)
    (hs : o.status = .paused) (hl : lateFailure a w = false) :
    o'.status = .paused ∨ a.isCommandOn id .resume = true ∨ a.isCommandOn id .cancel = true ∨
      w.planEnded o = true := by
  cases hm with
  | kept h _ => exact .inl (h.trans hs)
  | unlinked h => exact .inl (h.trans hs)
  | paused _ _ _ _ h => exact absurd hs h
  | resumed h => exact .inr (.inl h)
  | cancelled h => exact .inr (.inr (.inl h))
  | swept _ _ h =>
    refine .inr (.inr (.inr ?_))
    simp only [synchronizedStatus, hs, reduceCtorEq, if_false, false_and] at h
    cases hp : w.db.graph.planStatus o.planId with
    | none => simp [hp] at h
    | some s => cases s <;> simp_all [World.planEnded, PlanStatus.isTerminal]
  | promoted _ h => rw [hs] at h; cases h
  | exhausted _ h => rw [hs] at h; cases h
  | reserved h => rw [hs] at h; cases h
  | planned _ h => simp [hs, plannedStatus] at h
  | failed hp =>
    rw [lateFailure_of_failing _ hp ho] at hl
    exact .inr (.inr (.inr (by simpa [World.isSettled, hs] using hl)))
  | restarted _ _ h => rw [hs] at h; cases h

/-! ### Exactly the late failures break the decisions -/

theorem decisionsKept_of_not_late (h : History) (config : Config) {a : Action} {w : World}
    (hl : lateFailure a w = false) : DecisionsKept h config a w := by
  refine ⟨fun id o ho ht => ?_, fun id o ho hs => ?_⟩
  · obtain ⟨o', ho', hm⟩ := objective_move h config w a ho
    rw [World.objectiveStatus, ho', Option.map_some, hm.terminal ho ht hl]
  · obtain ⟨o', ho', hm⟩ := objective_move h config w a ho
    rw [World.objectiveStatus, ho', Option.map_some]
    rcases hm.fromPaused ho hs hl with hp | hp
    · exact .inl (by rw [hp])
    · exact .inr hp

/-- What the failure handler leaves of a settled objective. -/
theorem objectiveStatus_failure (h : History) (config : Config) {w : World}
    {i : ObjectiveAttemptId} {id : ObjectiveId} {e : String} {o : Objective} (now : Time)
    (hp : w.daemon.planners.get? i = some ⟨id, .failing e⟩)
    (ho : w.db.queue.objectives.get? id = some o) :
    (w.step h config (.planner i (.failure now))).objectiveStatus id =
      some o.statusAfterPlanningFailure := by
  simp [World.step, hp, World.plannerStep, World.objectiveStatus, finishObjectivePlanningFailure,
    Objective.planningFailed, ho]

theorem not_decisionsKept_of_late (h : History) (config : Config) {a : Action} {w : World}
    (hl : lateFailure a w = true) : ¬DecisionsKept h config a w := by
  intro hk
  obtain ⟨i, now, rfl⟩ : ∃ i now, a = .planner i (.failure now) := by
    unfold lateFailure at hl
    split at hl
    · exact ⟨_, _, rfl⟩
    · cases hl
  obtain ⟨id, e, hp⟩ : ∃ id e, w.daemon.planners.get? i = some ⟨id, .failing e⟩ := by
    simp only [lateFailure] at hl
    split at hl
    · exact ⟨_, _, ‹_›⟩
    · cases hl
  obtain ⟨o, ho, hset⟩ : ∃ o, w.db.queue.objectives.get? id = some o ∧ w.isSettled o = true := by
    simpa [lateFailure, hp, Option.any_eq_true] using hl
  have hafter := objectiveStatus_failure h config now hp ho
  by_cases ht : o.status.isTerminal = true
  · have := hk.terminal id o ho ht
    rw [hafter, Option.some.injEq] at this
    cases hs : o.status <;>
      simp [hs, World.isSettled, ObjectiveStatus.isTerminal, Objective.statusAfterPlanningFailure]
        at this hset ht
    · split at this <;> cases this
    · omega
    · split at this <;> cases this
  · have hs : o.status = .paused := by
      cases hs : o.status <;> simp_all [World.isSettled, ObjectiveStatus.isTerminal]
    have hne : o.statusAfterPlanningFailure ≠ .paused := by
      simp only [Objective.statusAfterPlanningFailure, hs, reduceCtorEq, if_false]
      split <;> simp
    rcases hk.paused id o ho hs with hq | hq | hq | hq
    · rw [hafter, Option.some.injEq] at hq; exact hne hq
    · cases hq
    · cases hq
    · simp [World.isSettled, hs, hq] at hset

/-- A run keeps the operator's decisions exactly when no planner fails late in it. -/
theorem operator_decisions_durable (h : History) (config : Config) (w : World)
    (as : List Action) :
    (machine h config).Along (DecisionsKept h config) w as ↔
      (machine h config).Along (fun a w => lateFailure a w = false) w as := by
  constructor
  · refine Schemes.Machine.Along.mono fun a w hk => ?_
    by_contra hl
    exact not_decisionsKept_of_late h config (by simpa using hl) hk
  · exact Schemes.Machine.Along.mono fun a w => decisionsKept_of_not_late h config

/-! ### A planner that finishes late -/

/-- Reserve an objective for planning, cancel it, let the sweep settle it, and let the planner
    return its plan: the success handler refuses, and the failure handler is next. -/
def lateReturn : List Action :=
  [ .objective (.submit 0 Scenario.submission 1),
    .objective (.reserve 0 0 2),
    .objective (.cli 0 .cancel 3),
    .objective (.synchronize 4),
    .planner 0 (.insert Scenario.pipelinePlan 0 0 5),
    .planner 0 (.success 6) ]

/-- The cancelled objective goes back to the queue. -/
theorem late_planner_requeues_cancelled_objective :
    ¬∀ (h : History) (config : Config) (w : World) (as : List Action),
      (machine h config).start w → (machine h config).Along (DecisionsKept h config) w as := by
  intro hall
  have hrun := hall Scenario.history Scenario.config Scenario.start
    (lateReturn ++ [.planner 0 (.failure 7)]) Scenario.system_start
  rw [Schemes.Machine.along_append] at hrun
  obtain ⟨-, hlast, -⟩ := hrun
  have hlate : lateFailure (.planner 0 (.failure 7))
      (Scenario.system.run Scenario.start lateReturn) = true := by decide
  exact not_decisionsKept_of_late _ _ hlate hlast

end HermesOps
