import HermesOps.Properties.Approvals
import HermesOps.Properties.IntegratedResults
import HermesOps.Properties.Scenario

/-! A human gate freezes its plan. The reservation, the integrator and the completion handlers each
    look for a `PENDING` approval on a run of the plan, in transactions of their own. Siblings that are
    running when the gate opens may still end; the one thing they can complete is a pipeline whose
    integration was prepared before. The integrator finds the plan through the attempt of the run, so
    a run that is not linked yet escapes the gate. -/

namespace HermesOps

open Schemes

/-- The plan waits for a human decision. -/
def World.gated (w : World) (p : PlanId) : Bool := planHasActiveHumanGate w.db.graph w.db.store p

/-- The action makes an integration of the run `PREPARED`. -/
def World.prepares (h : History) (config : Config) (r : RunId) (a : Action) (w : World) : Bool :=
  (w.step h config a).db.store.integrations.any fun i y => y.runId = r ∧ y.status = .prepared ∧
    ¬(w.db.store.integrations.get? i).any fun y => y.status = .prepared

/-- The runs of the attempts of the task. -/
def Graph.runsOf (g : Graph) (i : TaskId) : List RunId :=
  g.attempts.rows.filterMap fun x => if x.2.taskId = i then x.2.runId else none

/-- The run was prepared for integration while the plan was not gated. -/
def preparedUngated (h : History) (config : Config) (s : World) (as : List Action) (p : PlanId)
    (r : RunId) : Prop :=
  (machine h config).Sometime (fun a w => w.prepares h config r a = true ∧ w.gated p = false) s as

/-- What the action leaves of a plan that is gated after the run `as`: no new attempt, no newly prepared
    integration, and no newly completed task but a pipeline prepared before the gate. -/
structure GateFreezes (h : History) (config : Config) (s : World) (as : List Action) (a : Action)
    (p : PlanId) : Prop where
  started : ∀ j x y, (((machine h config).run s as).step h config a).db.graph.attempts.get? j = some x →
    (((machine h config).run s as).step h config a).db.graph.tasks.get? x.taskId = some y →
    y.planId = p → (((machine h config).run s as).db.graph.attempts.get? j).isSome
  prepared : ∀ r ∈ (((machine h config).run s as).step h config a).db.graph.linkedRuns p,
    ((machine h config).run s as).prepares h config r a = false
  completed : ∀ i y, (((machine h config).run s as).step h config a).db.graph.tasks.get? i = some y →
    y.planId = p → y.status = .completed →
    (((machine h config).run s as).db.graph.tasks.get? i).any (fun x => x.status = .completed) = true ∨
      (y.kind = .pipeline ∧ ∃ r ∈ ((machine h config).run s as).db.graph.runsOf i,
        preparedUngated h config s as p r)

variable {h : History} {config : Config} {w w' : World} {a : Action} {r : RunId} {p : PlanId}

theorem Graph.mem_runsOf {g : Graph} {i : TaskId} :
    r ∈ g.runsOf i ↔ ∃ j x, g.attempts.get? j = some x ∧ x.taskId = i ∧ x.runId = some r := by
  simp only [Graph.runsOf, List.mem_filterMap, Prod.exists, Table.mem_rows_iff]
  constructor
  · rintro ⟨j, x, hx, hr⟩
    split at hr
    · rename_i hi
      exact ⟨j, x, hx, hi, hr⟩
    · cases hr
  · rintro ⟨j, x, hx, hi, hr⟩
    exact ⟨j, x, hx, by rw [if_pos hi]; exact hr⟩

/-- A run of a task is linked to the plan of the task. -/
theorem linkedRuns_of_runsOf {g : Graph} {i : TaskId} {y : Task} (hr : r ∈ g.runsOf i)
    (hy : g.tasks.get? i = some y) : r ∈ g.linkedRuns y.planId := by
  obtain ⟨j, x, hx, rfl, hxr⟩ := Graph.mem_runsOf.1 hr
  exact Graph.mem_linkedRuns.2 ⟨j, x, y, hx, hy, rfl, hxr⟩

/-! ### The reservation -/

/-- A gated plan gets no attempt. -/
theorem gated_started (hg : w.gated p = true) {j : AttemptId} {x : Attempt} {y : Task}
    (hx : (w.step h config a).db.graph.attempts.get? j = some x)
    (hy : (w.step h config a).db.graph.tasks.get? x.taskId = some y) (hp : y.planId = p) :
    (w.db.graph.attempts.get? j).isSome := by
  have hgraph := graph_step h config w a
  rcases hgraph.attempt_back hx with ⟨x₀, hx₀, -⟩ | ⟨now, task, -, hr⟩
  · exact Option.isSome_of_mem hx₀
  · obtain ⟨htask, helig, -⟩ := reserveAttempt_ok hr
    rcases hgraph.task_back hy with ⟨y₀, hy₀, hpl, -⟩ | ⟨hn, -⟩
    · rw [htask] at hy₀
      cases hy₀
      obtain ⟨-, -, -, -, -, hungated, -⟩ := reservation_eligible helig
      rw [← hpl, hp] at hungated
      rw [World.gated, hungated] at hg
      cases hg
    · rw [htask] at hn; cases hn

/-! ### The integrator -/

/-- The decision guard lets no run of a gated plan pass. -/
theorem decisionGuard_ungated {d : Database} {b : Application} {x : Run} {y : Plan}
    (hg : decisionGuard d b = .ok (.written x)) (hy : d.graph.plans.get? p = some y)
    (hr : b.runId ∈ d.graph.linkedRuns p) : planHasActiveHumanGate d.graph d.store p = false := by
  obtain ⟨-, -, -, hgate⟩ := decisionGuard_written hg
  unfold runPlanHasActiveHumanGate at hgate
  have hmem : (p, y) ∈ d.graph.plans.select fun p _ => b.runId ∈ d.graph.linkedRuns p := by
    rw [Table.mem_select]
    exact ⟨hy, by simpa using hr⟩
  split at hgate
  · rename_i hnil
    rw [hnil] at hmem
    cases hmem
  · rename_i hone
    rw [hone, List.mem_singleton] at hmem
    subst hmem
    exact Except.ok.inj hgate
  · cases hgate

/-- An integration becomes `PREPARED` under the decision guard. -/
theorem prepares_guard (hr : w.prepares h config r a = true) :
    ∃ pid now fresh b m x, a = .process pid now fresh false ∧
      w.procs.get? pid = some (.verified b m) ∧ b.runId = r ∧
      decisionGuard w.db b = .ok (.written x) := by
  obtain ⟨wr, hwr, hs⟩ := World.store_step h config w a
  obtain ⟨i, y, hy, hyp⟩ := Table.any_iff.1 hr
  obtain ⟨hyr, hprep, hnew⟩ := of_decide_eq_true hyp
  have fresh : ∀ y₀, w.site.db.store.integrations.get? i = some y₀ → y₀.status ≠ .prepared := by
    intro y₀ hy₀ hst
    exact hnew (by rw [World.db, hy₀]; simp [hst])
  rcases hs.newIntegration i y hy with ⟨y₀, hy₀, hw⟩ | ⟨b, m, rfl, hbr, -, -, hact⟩
  · rcases hw.status with h | h | h
    · exact absurd (h.symm.trans hprep) (fresh y₀ hy₀)
    · rw [hprep] at h; cases h
    · rw [hprep] at h; cases h
  · cases hwr with
    | @process pid now n _ _ hp hsucc =>
      change (w.step h config (.process pid now n false)).site.db.store.integrations.get? i = _ at hy
      generalize (w.step h config (.process pid now n false)).site = s' at hsucc hy
      cases hsucc with
      | refused => exact absurd hprep (fresh y hy)
      | prepare _ hp' =>
        obtain ⟨x, hg, -⟩ := prepareIntegration_ok hp'
        exact ⟨pid, now, n, b, m, x, rfl, hp, hbr.symm.trans hyr, hg⟩
      | record hne => exact absurd (hact.2 hprep) hne

/-- The plan of a run that is prepared is not gated. -/
theorem prepares_ungated (hO : TasksOwned w.db.graph) (hprep : w.prepares h config r a = true)
    (hr : r ∈ (w.step h config a).db.graph.linkedRuns p) : w.gated p = false := by
  obtain ⟨pid, now, n, b, m, x, rfl, -, rfl, hguard⟩ := prepares_guard hprep
  have hgraph : (w.step h config (.process pid now n false)).db.graph = w.db.graph :=
    (World.stepProcess_queueGraph h pid now n false w).2
  rw [hgraph] at hr
  obtain ⟨_, _, t, -, ht, hp, -⟩ := Graph.mem_linkedRuns.1 hr
  obtain ⟨y, hy⟩ := Option.isSome_iff_exists.1 (hO _ t ht)
  rw [hp] at hy
  exact decisionGuard_ungated hguard hy hr

/-- The step that approves a run makes its integration `PREPARED`. -/
theorem approved_prepares (hI : ApprovalInv w) (hn : ¬w.db.store.approved r)
    (hr : (w.step h config a).db.store.approved r) : w.prepares h config r a = true := by
  obtain ⟨wr, hwr, hs⟩ := World.store_step h config w a
  obtain ⟨i, y, hy, hyr, hyd⟩ : (w.step h config a).site.db.store.approved r := hr
  have hfree : w.db.store.integrations.get? i = none := by
    cases hx : w.db.store.integrations.get? i with
    | none => rfl
    | some x =>
      obtain ⟨y', hy', hw⟩ := hs.integration i x hx
      rw [hy] at hy'
      cases hy'
      exact absurd ⟨i, x, hx, hw.run.symm.trans hyr, hw.decision.symm.trans hyd⟩ hn
  rcases hs.newIntegration i y hy with ⟨y₀, hy₀, -⟩ | ⟨b, m, rfl, hbr, -, hbd, hprep⟩
  · rw [show w.site.db.store.integrations.get? i = none from hfree] at hy₀
    cases hy₀
  · cases hwr with
    | process hp _ =>
      have hact : b.action = .integrate := hI.settled _ _ hp (hbd.symm.trans hyd)
      exact Table.any_iff.2 ⟨i, y, hy, decide_eq_true ⟨hyr, hprep.1 hact, by simp [hfree]⟩⟩

/-- Every linked run that is approved was prepared while its plan was not gated. -/
theorem approved_preparedUngated {s : World} {as : List Action} (hs : (machine h config).start s)
    (has : (machine h config).Along (fun a w => integratesUnlinked a w = false) s as) :
    ∀ p, ∀ r ∈ ((machine h config).run s as).db.graph.linkedRuns p,
      ((machine h config).run s as).db.store.approved r → preparedUngated h config s as p r := by
  refine Machine.invariant_along
    (I := fun as w => ∀ p, ∀ r ∈ w.db.graph.linkedRuns p, w.db.store.approved r →
      preparedUngated h config s as p r) ?_ ?_ has
  · intro p r hr
    obtain ⟨projects, -, rfl⟩ := hs
    cases hr
  · intro as a has hok ih p r hr ha
    have hw := Machine.Reachable.run (.start hs) has
    rw [preparedUngated, Machine.sometime_append]
    by_cases hold : ((machine h config).run s as).db.store.approved r
    · rcases linkedRuns_origin (linkInv_reachable hw) hr with hr | ⟨j, now, pid, rt, -, hj, -⟩
      · exact .inl (ih p r hr hold)
      · exact absurd hold (linkedFirst_reachable (fun _ _ h => h) hw r (.read hj rfl))
    · have hprep := approved_prepares (approvalInv_reachable hw) hold ha
      exact .inr (.inl ⟨hprep, prepares_ungated (tasksOwned_reachable hw) hprep hr⟩)

/-! ### The end of a thread -/

/-- A task that is completed while its plan is gated has a run that was approved. -/
theorem gated_completed (hw : (machine h config).Reachable (fun _ _ => True) w)
    (hV : Vouched (fun w r => w.db.store.approved r) w) (hg : w.gated p = true) {i : TaskId} {y' : Task}
    (hy : (w.step h config a).db.graph.tasks.get? i = some y') (hp : y'.planId = p)
    (hc : y'.status = .completed) :
    (w.db.graph.tasks.get? i).any (fun x => x.status = .completed) = true ∨
      (y'.kind = .pipeline ∧ ∃ r ∈ w.db.graph.runsOf i, r ∈ w.db.graph.linkedRuns p ∧
        w.db.store.approved r) := by
  obtain ⟨y, hy₀, hpl, hk, hst | ⟨-, hend⟩⟩ := (graph_step h config w a).completed_back hy hc
  · exact .inl (by simp [hy₀, hst])
  have linked : ∀ {j x r}, w.db.graph.attempts.get? j = some x → x.taskId = i →
      x.runId = some r → w.db.store.approved r → y'.kind = .pipeline ∧
        ∃ r ∈ w.db.graph.runsOf i, r ∈ w.db.graph.linkedRuns p ∧ w.db.store.approved r := by
    intro j x r hx hxi hxr ha
    have hr : r ∈ w.db.graph.runsOf i := Graph.mem_runsOf.2 ⟨j, x, hx, hxi, hxr⟩
    have hpipe := (pipelineInv_reachable hw).linked j x r y hx hxr (hxi ▸ hy₀)
    refine ⟨hk.trans hpipe, r, hr, ?_, ha⟩
    rw [← hp, hpl]
    exact linkedRuns_of_runsOf hr hy₀
  rcases hend with ⟨j, now, pid, rt, result, -, hj, -, hungated, rfl⟩ | ⟨now, -, hint⟩
  · obtain ⟨hrp, -, hsome⟩ := (linkInv_reachable hw).present j _ y hj hy₀
    obtain ⟨x, hx⟩ := Option.isSome_iff_exists.1 hsome
    obtain ⟨hxi, hlink, -⟩ := (linkInv_reachable hw).agreed j _ x hj hx
    have hgated : planHasActiveHumanGate w.db.graph w.db.store rt.planId = true := by
      rw [← hrp, ← hpl, hp]
      exact hg
    rw [TaskResult.gated, hgated] at hungated
    cases result with
    | plain => cases hungated
    | pipeline r k =>
      have hk : k.integrated = true := by simpa [TaskResult.authorizedIntegration] using hungated
      rcases hV.returned j _ r k hj rfl with hwith | ⟨-, ha⟩
      · simp [IntegrationResult.withdrawn, hk] at hwith
      · exact .inr (linked hx hxi (hlink r rfl) ha)
  · obtain ⟨j, x, r, run, hx, hxi, hxr, hrun, hcom⟩ := hint
    exact .inr (linked hx hxi hxr ((approvalInv_reachable hw).integrated r run hrun (.inr hcom)))

/-- A run whose integration was told to integrate vouches for its thread's result. -/
theorem vouched_reachable {ok : Action → World → Prop} (hw : (machine h config).Reachable ok w) :
    Vouched (fun w r => w.db.store.approved r) w := by
  induction hw with
  | start hs => exact vouched_start hs
  | @step w a hw _ ih =>
    refine ih.step (fun r ha => ?_) fun r x hx hcom => ?_
    · obtain ⟨wr, -, hs⟩ := World.store_step h config w a
      exact Store.approved.stays (s := w.site) ha hs
    · exact ((approvalInv_reachable hw).step (evidenceInv_reachable hw) config a).integrated r x hx
        (.inr hcom)

/-! ### A gate with a running sibling -/

/-- A plan of two pipeline tasks that may run together. -/
def twinPlan : NormalizedPlan where
  maxParallelTasks := 2
  tasks := [⟨"build", .pipeline, some 0, 100, 1, []⟩, ⟨"test", .pipeline, some 1, 100, 1, []⟩]
  parallelBounds := Scenario.two_parallel
  size := by simp
  keys := by simp
  ordered := by simp
  known := by simp
  distinct := by simp
  attempts := by simp
  projects := by simp

def twinProjects : Table ProjectId Project :=
  ⟨[(0, ⟨true, true, true, true, 0, []⟩), (1, ⟨true, true, true, true, 0, []⟩)], by decide⟩

theorem twin_start : Scenario.system.start (World.initial twinProjects) :=
  ⟨twinProjects, fun k p h => by
    rw [← Table.mem_rows_iff] at h
    simp only [twinProjects, List.mem_cons, Prod.mk.injEq, List.not_mem_nil, or_false] at h
    rcases h with ⟨-, rfl⟩ | ⟨-, rfl⟩ <;> rfl, rfl⟩

/-- The run of the first task waits for a human; the thread of the second one has read its run but
    not linked it. -/
def gatedTwins : List Action :=
  [ .graph (.importPlan twinPlan 0 0 false true 1),
    .graph (.refresh 0 2),
    .graph (.reserve 0 0 3),
    .graph (.reserve 1 1 4),
    .thread 1 5 1 false,
    .process 1 6 1 false,
    .process 1 7 1 false,
    .process 1 8 1 false,
    .thread 1 9 1 false,
    .thread 0 10 0 false,
    .process 0 11 0 false,
    .process 0 12 0 false,
    .process 0 13 0 false,
    .thread 0 14 0 false,
    .thread 0 15 0 false,
    .environment (.worktree 0 ⟨true, true, true, true, 1⟩),
    .thread 0 16 2 false,
    .process 2 17 0 false,
    .process 2 18 0 false,
    .process 2 19 0 false,
    .thread 0 20 0 false,
    .environment (.review 0 (Scenario.humanReview 0 1)),
    .thread 0 101 0 false,
    .thread 0 102 0 false,
    .thread 0 103 3 false,
    .process 3 104 0 false,
    .process 3 105 0 false,
    .process 3 106 0 false,
    .process 3 107 0 false ]

/-- An operator submits and integrates the unlinked run; its thread links it, and the orchestrator
    restarts. -/
def escapedGate : List Action :=
  [ .environment (.worktree 1 ⟨true, true, true, true, 1⟩),
    .operator 4 (.submit 1),
    .process 4 108 1 false,
    .process 4 109 1 false,
    .process 4 110 1 false,
    .environment (.review 1 { Scenario.approval 1 1 with createdAt := 200, finishedAt := some 200 }),
    .operator 5 (.apply 1 "orchestrator:test"),
    .process 5 201 1 false,
    .process 5 202 1 false,
    .process 5 203 1 false,
    .process 5 204 1 false,
    .process 5 205 1 false,
    .process 5 206 1 false,
    .process 5 207 1 false,
    .thread 1 208 0 false,
    .crash ]

/-- While a plan waits for a human decision, no step starts an attempt of its tasks, makes an
    integration of its runs `PREPARED`, or completes one of its tasks but a pipeline that was prepared
    while the plan did not wait, as long as only linked runs are integrated. -/
theorem human_gate_freezes_plan (h : History) (config : Config) (s : World) (as : List Action)
    (a : Action) (p : PlanId) (hs : (machine h config).start s)
    (has : (machine h config).Along (fun a w => integratesUnlinked a w = false) s as)
    (hg : ((machine h config).run s as).gated p = true) : GateFreezes h config s as a p := by
  have hok := Machine.Reachable.run (.start hs) has
  have hw := hok.mono (fun _ _ _ => trivial)
  refine ⟨fun j x y hx hy hp => gated_started hg hx hy hp, fun r hr => ?_, fun i y hy hp hc => ?_⟩
  · by_contra hprep
    rw [Bool.not_eq_false] at hprep
    rw [prepares_ungated (tasksOwned_reachable hw) hprep hr] at hg
    cases hg
  · rcases gated_completed hw (vouched_reachable hw) hg hy hp hc with hold | ⟨hk, r, hr, hl, ha⟩
    · exact .inl hold
    · exact .inr ⟨hk, r, hr, approved_preparedUngated hs has p r hl ha⟩

set_option maxRecDepth 20000 in
/-- The end of the thread of the gated run freezes the plan. -/
theorem gated_twins_frozen :
    (Scenario.system.run (World.initial twinProjects) gatedTwins).gated 0 = true ∧
      GateFreezes Scenario.history Scenario.config (World.initial twinProjects) gatedTwins
        (.thread 0 108 0 false) 0 :=
  ⟨by decide, human_gate_freezes_plan _ _ _ _ _ _ twin_start (by decide) (by decide)⟩

set_option maxRecDepth 20000 in
/-- A task whose run was integrated before it was linked is completed behind the gate. -/
theorem gate_escaped : ¬∀ (h : History) (config : Config) (s : World) (as : List Action) (a : Action)
    (p : PlanId), (machine h config).start s → ((machine h config).run s as).gated p = true →
      GateFreezes h config s as a p := by
  intro hall
  have hf := hall Scenario.history Scenario.config _ (gatedTwins ++ escapedGate)
    (.graph (.reconcile 209)) 0 twin_start (by decide)
  have hrow : (((Scenario.system.run (World.initial twinProjects) (gatedTwins ++ escapedGate)).step
      Scenario.history Scenario.config (.graph (.reconcile 209))).db.graph.tasks.get? 1).any
        (fun y => y.planId = 0 ∧ y.status = .completed) = true := by decide
  obtain ⟨y, hy, hyd⟩ := (Option.any_eq_true _ _).1 hrow
  obtain ⟨hp, hc⟩ := of_decide_eq_true hyd
  rcases hf.completed 1 y hy hp hc with hold | ⟨-, r, hr, hs⟩
  · revert hold
    decide
  · revert r
    unfold preparedUngated
    decide

end HermesOps
