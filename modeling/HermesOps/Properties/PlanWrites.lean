import HermesOps.Properties.GraphMoves

/-! The columns of `orchestration_plans` that `PlanMove` leaves out. No transaction changes the limit a
    plan was inserted with, and a plan is frozen for a human decision, now or once the integration
    in flight has ended, only by a handler that blocks all its waiting tasks. -/

namespace HermesOps

open Schemes

/-- The plan waits for a human decision, or will once it is refreshed; the two markers of a
    cancellation have another meaning. -/
def Plan.isFrozen (x : Plan) : Bool :=
  x.lastError = some humanGateDeferredError ∨ (x.status = .blocked ∧
    x.lastError ≠ some cancellationRecoveryError ∧ x.lastError ≠ some cancellationPendingError)

/-- No task of the plan is `PENDING`. -/
def Graph.NonePending (g : Graph) (p : PlanId) : Prop :=
  ∀ i t, g.tasks.get? i = some t → t.planId = p → t.status ≠ .pending

/-- The plan keeps its limit, and is not frozen by the write. -/
structure PlanKept (x x' : Plan) : Prop where
  limit : x'.maxParallelTasks = x.maxParallelTasks
  frozen : x'.isFrozen = true → x.isFrozen = true

theorem PlanKept.rfl {x : Plan} : PlanKept x x := ⟨.refl _, id⟩

theorem PlanKept.trans {x x' x'' : Plan} (h : PlanKept x x') (h' : PlanKept x' x'') :
    PlanKept x x'' :=
  ⟨h'.limit.trans h.limit, h.frozen ∘ h'.frozen⟩

/-- The write leaves the plan unfrozen. -/
theorem PlanKept.of_thawed {x x' : Plan} (hl : x'.maxParallelTasks = x.maxParallelTasks)
    (h : x'.isFrozen = false) : PlanKept x x' :=
  ⟨hl, fun hf => by rw [h] at hf; cases hf⟩

/-- The write leaves the columns that freeze the plan. -/
theorem PlanKept.of_same {x x' : Plan} (hl : x'.maxParallelTasks = x.maxParallelTasks)
    (hs : x'.status = x.status) (he : x'.lastError = x.lastError) : PlanKept x x' :=
  ⟨hl, fun hf => by unfold Plan.isFrozen at hf ⊢; rw [hs, he] at hf; exact hf⟩

/-- What a step makes of the row of plan `p`, in the graph `g'` it leaves. -/
def PlanWrite (g' : Graph) (p : PlanId) (x x' : Plan) : Prop :=
  PlanKept x x' ∨ (x'.maxParallelTasks = x.maxParallelTasks ∧ g'.NonePending p)

/-- The plans of `t'` come from those of `t`. -/
abbrev PlansKept (t t' : Table PlanId Plan) : Prop := Table.Related (fun _ => PlanKept) t t'

theorem plansKept_refl (t : Table PlanId Plan) : PlansKept t t := .refl fun _ _ _ => .rfl

theorem plansKept_update {t : Table PlanId Plan} (p : PlanId → Plan → Bool) {f : Plan → Plan}
    (hf : ∀ x, PlanKept x (f x)) : PlansKept t (t.update p f) :=
  .update (fun _ x _ _ => hf x) fun _ _ _ _ => .rfl

/-! ### The transactions -/

/-- Cancelling a plan thaws it. -/
theorem cancelPlan_kept (g : Graph) (p : Option PlanId) (now : Time) :
    PlansKept g.plans (cancelPlanInTransaction g p now).plans := by
  cases p with
  | none => exact plansKept_refl _
  | some p =>
    refine plansKept_update _ fun x => .of_thawed rfl ?_
    simp [Plan.isFrozen, Plan.objectiveCancelled, humanGateDeferredError]

theorem sweepGraph_kept (d : Database) (now : Time) (rows : List SweepRow) (g : Graph) :
    PlansKept g.plans (sweepGraph d now rows g).plans := by
  induction rows generalizing g with
  | nil => exact plansKept_refl _
  | cons row rows ih =>
    simp only [sweepGraph, List.foldl_cons]
    split
    · exact (cancelPlan_kept g row.objective.planId now).trans (ih _) fun _ _ _ _ _ h h' => h.trans h'
    · exact ih g

theorem readyPlan_kept (g : Graph) (p : PlanId) (now : Time) :
    PlansKept g.plans (g.readyPlan p now).plans :=
  plansKept_update _ fun _ => .of_thawed rfl rfl

/-- The refresh freezes no plan that it does not find frozen. -/
theorem refreshPlan_kept (s : Store) (p : PlanId) (x : Plan) (now : Time) (g : Graph) :
    PlanKept x (refreshPlan s p x now g x) := by
  simp only [refreshPlan]
  split
  · rename_i hgate
    have hfrozen : x.isFrozen = true := decide_eq_true (.inl hgate.2)
    split
    · exact .of_same rfl rfl rfl
    · exact ⟨rfl, fun _ => hfrozen⟩
  · split
    · exact .of_same rfl rfl rfl
    · split
      · exact .of_thawed rfl rfl
      · split
        · exact .of_thawed rfl (by simp [Plan.isFrozen, humanGateDeferredError])
        · refine ⟨rfl, fun hf => ?_⟩
          simp only [Plan.isFrozen, decide_eq_true_eq] at hf ⊢
          refine hf.imp_right ?_
          rintro ⟨hs, he⟩
          refine ⟨?_, he⟩
          split at hs
          · cases hs
          · exact hs

theorem refreshPlanStates_kept (g : Graph) (s : Store) (p : PlanId) (now : Time) :
    PlansKept g.plans (refreshPlanStates g s p now).plans := by
  simp only [refreshPlanStates]
  split
  · exact plansKept_refl _
  · rename_i plan hplan
    split
    · exact plansKept_refl _
    · obtain ⟨-, hp, -, -⟩ := foldl_refreshTask now (g.planTasks p) g
        (.refl fun _ _ _ => .rfl) rfl rfl rfl
      rw [hp]
      refine .updateAt (fun x hx => ?_) fun _ _ _ _ => .rfl
      obtain rfl : plan = x := by rw [hplan] at hx; simpa using hx
      exact refreshPlan_kept s p plan now _

/-- A write that blocks the waiting tasks of the plan leaves none `PENDING`. -/
theorem not_pending_of_update {tasks : Table TaskId Task} {p : PlanId} {q : TaskId → Task → Bool}
    {f : Task → Task} {i : TaskId} {x' : Task} (hx' : (tasks.update q f).get? i = some x')
    (hplan : x'.planId = p) (hf : ∀ x, (f x).status = .blocked)
    (hq : ∀ i x, x.planId = p → x.status = .pending → q i x = true) : x'.status ≠ .pending := by
  intro hpend
  rw [Table.get?_update, Option.map_eq_some_iff] at hx'
  obtain ⟨x, -, rfl⟩ := hx'
  split at hpend
  · rw [hf] at hpend
    cases hpend
  · rename_i hsel
    rw [if_neg hsel] at hplan
    exact hsel (hq i x hplan hpend)

/-- Only the handler of a human gate freezes a plan, and it blocks the waiting tasks. -/
theorem finishTask_write (d : Database) (t : ReservedTask) (result : TaskResult) (now : Time) :
    Table.Related (PlanWrite (finishTask d t result now)) d.graph.plans
      (finishTask d t result now).plans := by
  have keep : ∀ {g' : Graph}, PlansKept d.graph.plans g'.plans →
      Table.Related (PlanWrite g') d.graph.plans g'.plans := fun h =>
    h.mono fun _ _ _ _ _ hx => .inl hx
  have success : Table.Related (PlanWrite (finishTaskSuccess d.graph d.store t result now))
      d.graph.plans (finishTaskSuccess d.graph d.store t result now).plans := by
    refine keep ?_
    unfold finishTaskSuccess
    split <;> exact plansKept_refl _
  cases result with
  | plain => exact success
  | pipeline r i =>
    simp only [finishTask]
    split
    · refine keep (plansKept_update _ fun x => .of_thawed rfl ?_)
      simp [Plan.isFrozen, cancellationRecoveryError, humanGateDeferredError]
    · split
      · simp only [finishTaskWaitingHuman]
        split
        · refine keep (plansKept_update _ fun x => .of_thawed rfl ?_)
          simp only [Plan.isFrozen]
          split
          · rename_i hx
            simp [hx, cancellationRecoveryError, humanGateDeferredError]
          · simp [cancellationPendingError, humanGateDeferredError]
        · split
          · refine .update (fun p x _ hp => .inr ⟨rfl, ?_⟩) fun _ _ _ _ => .inl .rfl
            obtain ⟨rfl, -⟩ := of_decide_eq_true hp
            intro i x' hx' hplan
            exact not_pending_of_update hx' hplan (fun _ => rfl) fun _ _ hx hs =>
              decide_eq_true ⟨hx, .inl (.inl hs)⟩
          · refine .update (fun p x _ hp => .inr ⟨rfl, ?_⟩) fun _ _ _ _ => .inl .rfl
            obtain ⟨rfl, -⟩ := of_decide_eq_true hp
            intro i x' hx' hplan
            exact not_pending_of_update hx' hplan (fun _ => rfl) fun _ _ hx hs =>
              decide_eq_true ⟨hx, .inl (.inl hs)⟩
      · exact success

theorem markedDb_kept (d : Database) (r : RunId) (reason : String) (now : Time) :
    PlansKept d.graph.plans (World.markedDb d r reason now).graph.plans := by
  simp only [World.markedDb, markCancellationCleanupRecovery]
  split
  · exact plansKept_refl _
  · split
    · exact plansKept_refl _
    · split
      · exact plansKept_refl _
      · refine plansKept_update _ fun x => .of_thawed rfl ?_
        simp [Plan.isFrozen, cancellationRecoveryError, humanGateDeferredError]

/-! ### Every step -/

/-- A plan of the next world is new and not frozen, or one of the writes has made it. -/
def PlanStep (w w' : World) : Prop :=
  ∀ p x', w'.db.graph.plans.get? p = some x' →
    (w.db.graph.plans.get? p = none ∧ x'.isFrozen = false) ∨
      ∃ x, w.db.graph.plans.get? p = some x ∧ PlanWrite w'.db.graph p x x'

variable {w w' : World}

theorem PlanStep.of_related
    (h : Table.Related (PlanWrite w'.db.graph) w.db.graph.plans w'.db.graph.plans) :
    PlanStep w w' := fun _ _ hx' => .inr (h.back hx')

theorem PlanStep.of_kept (h : PlansKept w.db.graph.plans w'.db.graph.plans) : PlanStep w w' :=
  .of_related (h.mono fun _ _ _ _ _ hx => .inl hx)

theorem PlanStep.of_eq (h : w'.db.graph.plans = w.db.graph.plans) : PlanStep w w' :=
  .of_kept (by rw [h]; exact plansKept_refl _)

theorem PlanDrawn.kept_plan {g' : Graph} {p : PlanId} (h : PlanDrawn w g' p) (q : PlanId)
    (hn : g'.plans.get? q = none) : w.db.graph.plans.get? q = none := by
  by_cases hq : q = p
  · subst hq; exact h.plan
  · rw [← h.plans q hq]; exact hn

theorem PlanStep.of_drawn {p : PlanId} (h : PlanDrawn w w'.db.graph p) : PlanStep w w' := by
  intro q x' hx'
  by_cases hq : q = p
  · subst hq
    obtain ⟨y, hy, hs⟩ := h.new
    obtain rfl : y = x' := by rw [hy] at hx'; simpa using hx'
    refine .inl ⟨h.plan, ?_⟩
    rcases hs with hs | hs <;> simp [Plan.isFrozen, h.error y hy, hs]
  · rw [h.plans q hq] at hx'
    exact .inr ⟨x', hx', .inl .rfl⟩

theorem PlanStep.of_deleted {p : PlanId} (h : GraphDeleted w.db.graph w'.db.graph p) :
    PlanStep w w' := by
  intro q x' hx'
  rw [h.plans] at hx'
  split at hx'
  · cases hx'
  · exact .inr ⟨x', hx', .inl .rfl⟩

theorem write_command (config : Config) (id : ObjectiveId) (c : ObjectiveCommand) (now : Time) :
    PlanStep w (w.objectiveStep config (.cli id c now)) := by
  rw [World.objectiveStep_cli]
  cases hc : c.apply w.db id now with
  | error e => exact .of_eq rfl
  | ok qg =>
    rcases ObjectiveCommand.apply_graph hc with hg | ⟨o, o', -, -, -, -, hg⟩
    · exact .of_eq (by simp only [World.setQueueGraph_db, hg])
    · exact .of_kept (by simp only [World.setQueueGraph_db, hg]; exact cancelPlan_kept _ _ _)

theorem write_objective (config : Config) (a : ObjectiveAction) :
    PlanStep w (w.objectiveStep config a) := by
  cases a with
  | submit i s now =>
    simp only [World.objectiveStep]
    split
    · exact .of_eq rfl
    · split <;> exact .of_eq rfl
  | submitPlan p planId firstTask test now =>
    simp only [World.objectiveStep]
    split
    · rename_i g hg; exact .of_drawn (drawPlan_some hg).1
    · exact .of_eq rfl
  | attachPlan p i s now =>
    simp only [World.objectiveStep]
    split
    · exact .of_eq rfl
    · split
      · exact .of_eq rfl
      · exact .of_deleted (deletePlan_deleted w.db p)
  | dropSubmission p => exact .of_eq rfl
  | cli i c now => exact write_command config i c now
  | controller i c now => rw [World.objectiveStep_controller]; exact write_command config i c now
  | synchronize now =>
    obtain ⟨-, -, hg⟩ := synchronizeObjectiveStates_spec w.db now
    exact .of_kept (by
      simp only [World.objectiveStep, World.setQueueGraph_db, hg]
      exact sweepGraph_kept _ _ _ _)
  | promote i now =>
    simp only [World.objectiveStep]
    split
    · rename_i q g p hpro
      obtain ⟨row, plan, hrow, hp, hplan, hq, -, rfl⟩ := promotePlannedObjective_some hpro
      split
      · exact .of_kept (readyPlan_kept _ _ _)
      · exact .of_eq rfl
    · exact .of_eq rfl
  | reserve i j now =>
    simp only [World.objectiveStep]
    split
    · exact .of_eq rfl
    · split
      · exact .of_eq rfl
      · exact .of_eq rfl
      · exact .of_eq rfl
      · split <;> exact .of_eq rfl
  | reconcile now =>
    simp only [World.objectiveStep]
    split <;> exact .of_eq rfl

theorem write_planner (config : Config) (i : ObjectiveAttemptId) (planner : Planner)
    (a : PlannerAction) : PlanStep w (w.plannerStep config i planner a) := by
  obtain ⟨id, stage⟩ := planner
  cases a with
  | insert p planId firstTask now =>
    cases stage with
    | generating =>
      simp only [World.plannerStep]
      split
      · rename_i g hg; exact .of_drawn (drawPlan_some hg).1
      · exact .of_eq rfl
    | _ => exact .of_eq rfl
  | raise e => cases stage <;> exact .of_eq rfl
  | failure now => cases stage <;> exact .of_eq rfl
  | success now =>
    cases stage with
    | generated p =>
      simp only [World.plannerStep]
      cases hs : finishObjectivePlanningSuccess w.db id i p now with
      | error e => exact .of_eq rfl
      | ok qg =>
        obtain ⟨row, new, fin, err, -, hnew, -, -, -, -, hg⟩ := finishObjectivePlanningSuccess_ok hs
        refine .of_kept ?_
        simp only [World.endPlanner_db, World.setQueueGraph_db, hg]
        cases hst : row.status <;> simp only [hst, plannedStatus, reduceCtorEq] at hnew <;>
          simp only [plannedGraph]
        · exact readyPlan_kept _ _ _
        · exact plansKept_refl _
        · exact cancelPlan_kept _ _ _
    | _ => exact .of_eq rfl

theorem write_graph (a : GraphAction) : PlanStep w (w.graphStep a) := by
  cases a with
  | importPlan p planId firstTask test ready now =>
    simp only [World.graphStep]
    split
    · rename_i g hg; exact .of_drawn (drawPlan_some hg).1
    · exact .of_eq rfl
  | activate p now =>
    simp only [World.graphStep, commandActivate]
    split
    · rename_i g hg
      split at hg
      · cases hg
        exact .of_kept (readyPlan_kept _ _ _)
      · cases hg
    · exact .of_eq rfl
  | cancelPlan p now =>
    simp only [World.graphStep, commandCancelPlan]
    split
    · rename_i g hg
      split at hg
      · cases hg
      · split at hg
        · cases hg
        · split at hg
          · cases hg
          · cases hg
            refine .of_kept (.updateAt (fun x _ => ⟨rfl, fun hf => ?_⟩) fun _ _ _ _ => .rfl)
            simp only [Plan.isFrozen, reduceCtorEq, false_and, or_false, decide_eq_true_eq] at hf ⊢
            exact .inl hf
    · exact .of_eq rfl
  | refresh p now => exact .of_kept (refreshPlanStates_kept _ _ _ _)
  | reserve i j now =>
    simp only [World.graphStep]
    split
    · exact .of_eq rfl
    · rename_i g task hr
      split
      · exact .of_eq (reserveAttempt_ok hr).2.2.2.1
      · exact .of_eq rfl
  | reconcile now =>
    simp only [World.graphStep]
    split
    · exact .of_eq rfl
    · exact .of_eq (reconcileInterruptedTasks_related w.db.graph w.db.store now).2.2.1

theorem write_thread (j : AttemptId) (t : Thread) (now : Time) (pid : Pid) (fault : Bool)
    (owner : String) :
    PlanStep w (w.threadStep j now pid fault t.task owner t.stage) := by
  obtain ⟨rt, stage⟩ := t
  have hw := World.threadStep_write j now pid fault w rt owner stage
  generalize w.threadStep j now pid fault rt owner stage = w' at hw ⊢
  generalize hd : w'.db = d at hw
  cases hw with
  | quiet => exact .of_eq (by rw [hd])
  | mark => exact .of_kept (by rw [hd]; exact markedDb_kept _ _ _ _)
  | link => exact .of_eq (by rw [hd]; rfl)
  | finish => exact .of_related (by rw [hd]; exact finishTask_write _ _ _ _)
  | fail =>
    exact .of_eq (by rw [hd]; exact (finishTaskFailure_related _ _ _ _ _).2.1)

/-- A step writes the plans in these ways only. -/
theorem step_write (h : History) (config : Config) (w : World) (a : Action) :
    PlanStep w (w.step h config a) := by
  cases a with
  | objective a => exact write_objective config a
  | planner i a =>
    simp only [World.step]
    split
    · rename_i planner hp; exact write_planner config i planner a
    · exact .of_eq rfl
  | graph a => exact write_graph a
  | thread j now pid fault =>
    simp only [World.step]
    split
    · rename_i t hj; exact write_thread j t now pid fault _
    · exact .of_eq rfl
  | janitorStart =>
    simp only [World.step]
    split <;> exact .of_eq rfl
  | janitor now pid fault =>
    simp only [World.step]
    rcases World.janitorStep_db now pid fault w with hd | ⟨r, rest, reason, -, -, hd⟩
    · exact .of_eq (by rw [hd])
    · exact .of_kept (by rw [hd]; exact markedDb_kept _ _ _ _)
  | operator pid stage =>
    simp only [World.step]
    split
    · exact .of_eq (by simp)
    · exact .of_eq rfl
  | process pid now fresh fault =>
    exact .of_eq (congrArg Graph.plans (World.stepProcess_queueGraph h pid now fresh fault w).2)
  | kill pid => exact .of_eq (by simp [World.step])
  | crash => exact .of_eq rfl
  | environment a => exact .of_eq (congrArg Graph.plans (World.environmentStep_queueGraph h w a).2)

end HermesOps
