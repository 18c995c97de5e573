import HermesOps.Properties.IntegratedResults
import HermesOps.Properties.DependencyOrder

/-! Completed pipelines and integrated runs. A pipeline task is completed by the thread that returns an
    integrated result, or by the restart that finds its run completed. The one thread that completes
    a pipeline without an integration is the one whose integration was cancelled: its result goes to
    the success handler as well. -/

namespace HermesOps

open Schemes

/-- A thread ends with a cancelled integration, and the success handler completes its task. -/
def completesCancelled (a : Action) (w : World) : Bool :=
  match a with
  | .thread j _ _ false =>
    (w.daemon.threads.get? j).any fun t =>
      match t.stage with
      | .returning (.pipeline _ i) => i.action = .cancel ∧ i.status = .cancelled ∧
          ¬planHasActiveHumanGate w.db.graph w.db.store t.task.planId ∧
          w.taskStatus t.task.taskId = some .running
      | _ => false
  | _ => false

/-- A transaction comes too late for a completed run. -/
def revokesCompletion (a : Action) (w : World) : Bool :=
  overwritesRun a w && match a with
    | .process pid _ _ _ => (w.procs.get? pid).any fun stage =>
        stage.blindWrite.any fun r => w.runStatus r = some .completed
    | _ => false

/-- Every completed pipeline has an attempt whose run is completed. -/
def World.PipelinesIntegrated (w : World) : Prop :=
  ∀ i y, w.db.graph.tasks.get? i = some y → y.kind = .pipeline → y.status = .completed →
    w.db.graph.Integrated w.db.store i

variable {h : History} {config : Config} {w w' : World} {a : Action} {r : RunId} {p : PlanId}

/-! ### Completed runs -/

/-- The run is completed. -/
def World.RunCompleted (w : World) (r : RunId) : Prop :=
  ∃ x, w.db.store.runs.get? r = some x ∧ x.status = .completed

theorem World.RunCompleted.stays (hc : w.RunCompleted r) (hO : LocksOpen w.db.store)
    (hok : revokesCompletion a w = false) : (w.step h config a).RunCompleted r := by
  obtain ⟨x, hx, hst⟩ := hc
  obtain ⟨wr, hwr, hs⟩ := World.store_step h config w a
  have hlate : ∀ stage, wr = .process stage → stage.blindWrite = some r → ∃ h' now fresh p,
      stage.overwrites w.db.store fresh = false ∧
        stage.Succeeds h' now fresh w.site (w.step h config a).site p := by
    rintro stage rfl hblind
    cases hwr with
    | @process pid now fresh _ p hp hsucc =>
      refine ⟨h, now, fresh, p, ?_, hsucc⟩
      simpa [revokesCompletion, overwritesRun, hp, hblind, World.runStatus, hx, hst] using hok
  obtain ⟨x', hx', hst'⟩ := final_stays hs hO hx (by rw [hst]; rfl) hlate
  exact ⟨x', hx', hst'.trans hst⟩

/-- A task that stays keeps its completed run. -/
theorem integrated_stays (hL : LinkInv w) (hO : LocksOpen w.db.store)
    (hok : revokesCompletion a w = false) {i : TaskId} (hi : w.db.graph.Integrated w.db.store i)
    (ht : ((w.step h config a).db.graph.tasks.get? i).isSome) :
    (w.step h config a).db.graph.Integrated (w.step h config a).db.store i := by
  obtain ⟨j, x, r, run, hx, rfl, hr, hrun, hc⟩ := hi
  obtain ⟨x', hx', hm⟩ := (graph_step h config w a).attempt_forth hx ht
  have hdone : (w.step h config a).RunCompleted r := World.RunCompleted.stays ⟨run, hrun, hc⟩ hO hok
  obtain ⟨run', hrun', hc'⟩ := hdone
  cases hm with
  | kept hk => exact ⟨j, x', r, run', hx', hk.1, hk.2.trans hr, hrun', hc'⟩
  | linked hj =>
    have hn := (hL.agreed j _ x hj hx).2.2 rfl
    rw [hr] at hn
    cases hn

/-- A completed run vouches for the result of its thread. -/
theorem vouched_completed {ok : Action → World → Prop}
    (hok : ∀ a w, ok a w → revokesCompletion a w = false)
    (hw : (machine h config).Reachable ok w) : Vouched World.RunCompleted w := by
  induction hw with
  | start hs => exact vouched_start hs
  | step a hw ha ih =>
    exact ih.step (fun r hc => hc.stays (locksOpen_reachable hw) (hok _ _ ha))
      fun r x hx hc => ⟨x, hx, hc⟩

/-! ### Completed pipelines -/

/-- The thread that completes a pipeline returns the result of a completed run. -/
theorem thread_integrated (hL : LinkInv w) (hP : PipelineInv w) (hV : Vouched World.RunCompleted w)
    {j : AttemptId} {now : Time} {pid : Pid} {rt : ReservedTask} {result : TaskResult} {y : Task}
    (hok : completesCancelled (.thread j now pid false) w = false)
    (hj : w.daemon.threads.get? j = some ⟨rt, .returning result⟩) (hsucc : result.succeeds = true)
    (hg : result.gated w.db rt.planId = false) (hy : w.db.graph.tasks.get? rt.taskId = some y)
    (hrun : y.status = .running) (hk : y.kind = .pipeline) :
    w.db.graph.Integrated w.db.store rt.taskId := by
  obtain ⟨-, hkind, hsome⟩ := hL.present j _ y hj hy
  cases result with
  | plain => exact absurd (hkind.symm.trans hk) (hP.plain j _ hj rfl)
  | pipeline r i =>
    obtain ⟨x, hx⟩ := Option.isSome_iff_exists.1 hsome
    obtain ⟨hxi, hlink, -⟩ := hL.agreed j _ x hj hx
    rcases hV.returned j _ r i hj rfl with hwith | ⟨-, run, hr, hc⟩
    · -- the only withdrawn result that succeeds is a finished cancellation
      exfalso
      simp only [TaskResult.succeeds, decide_eq_true_eq] at hsucc
      simp only [IntegrationResult.withdrawn, decide_eq_true_eq] at hwith
      obtain ⟨hint, ⟨hact, hst | hst⟩ | hact⟩ := hwith
      · have hopen : planHasActiveHumanGate w.db.graph w.db.store rt.planId = false := by
          simpa [TaskResult.gated, TaskResult.authorizedIntegration, hint] using hg
        simp [completesCancelled, hj, hact, hst, hopen, World.taskStatus, hy, hrun] at hok
      · exact hsucc.1 ⟨hact, hst⟩
      · exact hsucc.2 hact
    · exact ⟨j, x, r, run, hx, hxi, hlink r rfl, hr, hc⟩

theorem pipelinesIntegrated_step (hI : w.PipelinesIntegrated) (hL : LinkInv w) (hP : PipelineInv w)
    (hV : Vouched World.RunCompleted w) (hO : LocksOpen w.db.store) (h : History) (config : Config)
    (hcan : completesCancelled a w = false) (hrev : revokesCompletion a w = false) :
    (w.step h config a).PipelinesIntegrated := by
  intro i y' hy hk hc
  refine integrated_stays hL hO hrev ?_ (Option.isSome_of_mem hy)
  obtain ⟨y, hy₀, -, hkind, hst | ⟨hrun, hend⟩⟩ := (graph_step h config w a).completed_back hy hc
  · exact hI i y hy₀ (hkind.symm.trans hk) hst
  · rcases hend with ⟨j, now, pid, rt, result, rfl, hj, hsucc, hg, rfl⟩ | ⟨now, -, hint⟩
    · exact thread_integrated hL hP hV hcan hj hsucc hg hy₀ hrun (hkind.symm.trans hk)
    · exact hint

theorem pipelinesIntegrated_reachable (hw : (machine h config).Reachable
    (fun a w => completesCancelled a w = false ∧ revokesCompletion a w = false) w) :
    w.PipelinesIntegrated := by
  induction hw with
  | start hs =>
    obtain ⟨projects, -, rfl⟩ := hs
    intro i y hy
    cases hy
  | step a hw ha ih =>
    exact pipelinesIntegrated_step ih (linkInv_reachable hw) (pipelineInv_reachable hw)
      (vouched_completed (fun _ _ hok => hok.2) hw) (locksOpen_reachable hw) h config ha.1 ha.2

/-! ### Completed plans -/

/-- All tasks of a completed plan are completed. -/
def World.PlansFinished (w : World) : Prop :=
  ∀ p x, w.db.graph.plans.get? p = some x → x.status = .completed →
    ∀ i y, w.db.graph.tasks.get? i = some y → y.planId = p → y.status = .completed

theorem plansFinished_step (hI : w.PlansFinished) (hD : OrderInv w) (h : History) (config : Config)
    (a : Action) : (w.step h config a).PlansFinished := by
  intro p x' hx hc i y' hy hp
  have hgraph := graph_step h config w a
  rcases hgraph.plan_back hx with ⟨x, hx₀, hm⟩ | ⟨-, hst | hst⟩
  · have stays : x'.status = x.status → y'.status = .completed := by
      intro hst
      rcases hgraph.task_back hy with ⟨y, hy₀, hpl, -⟩ | ⟨-, hn⟩
      · have hyc := hI p x hx₀ (hst.symm.trans hc) i y hy₀ (hpl.symm.trans hp)
        rcases hD.completed_stays h config a hy₀ hyc with hs | ⟨hs, -⟩
        · rw [World.taskStatus, hy] at hs
          exact Option.some.inj hs
        · rw [World.taskStatus, hy] at hs
          cases hs
      · rw [hp, hx₀] at hn
        cases hn
    cases hm with
    | kept hst => exact stays hst
    | refreshed _ _ hst =>
      rcases hst with hst | hst | hst | ⟨-, hall⟩
      · rw [hc] at hst; cases hst
      · rw [hc] at hst; cases hst
      · rw [hc] at hst; cases hst
      · exact hall i y' hy hp
    | blocked _ hst | promoted _ _ _ hst | planned _ _ hst | activated _ hst | cancelled _ hst
      | removed _ hst =>
      rw [hc] at hst; cases hst
  · rw [hc] at hst; cases hst
  · rw [hc] at hst; cases hst

theorem plansFinished_reachable {ok : Action → World → Prop}
    (hw : (machine h config).Reachable ok w) : w.PlansFinished := by
  induction hw with
  | start hs =>
    obtain ⟨projects, -, rfl⟩ := hs
    intro p x hx
    cases hx
  | step a hw _ ih => exact plansFinished_step ih (orderInv_reachable hw) h config a

/-! ### Every run -/

/-- As long as no cancelled integration ends in the success handler and no transaction comes late to a
    completed run, every completed pipeline is integrated, and so are the pipelines that a ready task
    depends on and those of a completed plan. -/
theorem completed_pipelines_integrated (h : History) (config : Config) {w : World}
    (hw : (machine h config).Reachable
      (fun a w => completesCancelled a w = false ∧ revokesCompletion a w = false) w) :
    w.PipelinesIntegrated ∧
    (∀ i y, w.db.graph.tasks.get? i = some y → y.status = .ready →
      ∀ e ∈ w.db.graph.dependencies, e.taskId = i → ∀ x, w.db.graph.tasks.get? e.dependsOn = some x →
        x.kind = .pipeline → w.db.graph.Integrated w.db.store e.dependsOn) ∧
    ∀ p x, w.db.graph.plans.get? p = some x → x.status = .completed →
      ∀ i y, w.db.graph.tasks.get? i = some y → y.planId = p → y.kind = .pipeline →
        w.db.graph.Integrated w.db.store i := by
  have hI := pipelinesIntegrated_reachable hw
  refine ⟨hI, fun i y hy hst e he hei x hx hk => ?_, fun p x hx hc i y hy hp hk => ?_⟩
  · obtain ⟨x', hx', hc⟩ := (orderInv_reachable hw).started i y hy (.inl (by rw [hst]; rfl)) e he hei
    rw [hx] at hx'
    cases hx'
    exact hI _ x hx hk hc
  · exact hI i y hy hk (plansFinished_reachable hw p x hx hc i y hy hp)

/-- The run is approved and integrated. -/
def integratedPipeline : List Action :=
  Scenario.reviewedPipeline ++
  [ .environment (.review 0 (Scenario.approval 0 1)),
    .thread 0 18 0 false,
    .thread 0 19 0 false,
    .thread 0 20 2 false,
    .process 2 101 0 false,
    .process 2 102 0 false,
    .process 2 103 0 false,
    .process 2 104 0 false,
    .process 2 105 0 false,
    .process 2 106 0 false,
    .process 2 107 0 false,
    .thread 0 108 0 false,
    .thread 0 109 0 false ]

/-- The objective is cancelled, and the thread rolls its run back. -/
def cancelledPipeline : List Action :=
  Scenario.reviewedPipeline ++
  [ .objective (.cli 0 .cancel 18),
    .thread 0 19 0 false,
    .thread 0 20 2 false,
    .process 2 21 0 false,
    .process 2 22 0 false,
    .process 2 23 0 false,
    .thread 0 24 0 false,
    .thread 0 25 0 false,
    .thread 0 26 0 false ]

set_option maxRecDepth 20000 in
theorem integrated_pipeline_completed :
    (Scenario.system.run Scenario.start integratedPipeline).taskStatus 0 = some .completed ∧
      (Scenario.system.run Scenario.start integratedPipeline).PipelinesIntegrated :=
  ⟨by decide, (completed_pipelines_integrated _ _ (.run (.start Scenario.system_start) (by decide))).1⟩

set_option maxRecDepth 20000 in
/-- The task of the cancelled run is completed. -/
theorem cancelled_pipeline_completed : ¬∀ (h : History) (config : Config) (w : World),
    (machine h config).Reachable (fun _ _ => True) w → w.PipelinesIntegrated := by
  intro hall
  have hw : Scenario.system.Reachable (fun _ _ => True)
      (Scenario.system.run Scenario.start cancelledPipeline) :=
    .run (.start Scenario.system_start) (by decide)
  have hI := hall Scenario.history Scenario.config _ hw
  have hrow : ((Scenario.system.run Scenario.start cancelledPipeline).db.graph.tasks.get? 0).any
      (fun y => y.kind = .pipeline ∧ y.status = .completed) = true := by decide
  have hrun : (Scenario.system.run Scenario.start cancelledPipeline).db.store.runs.rows.all
      (fun x => x.2.status = .cancelled) = true := by decide
  obtain ⟨y, hy, hyd⟩ := (Option.any_eq_true _ _).1 hrow
  obtain ⟨hk, hc⟩ := of_decide_eq_true hyd
  obtain ⟨-, -, r, run, -, -, -, hr, hdone⟩ := hI 0 y hy hk hc
  have := List.all_eq_true.1 hrun (r, run) (Table.mem_rows_iff.2 hr)
  rw [decide_eq_true_eq, hdone] at this
  cases this

end HermesOps
