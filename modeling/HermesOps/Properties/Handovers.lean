import HermesOps.Properties.RunLinks
import HermesOps.Properties.TerminalAgreement

/-! A plan between its generation and its hand-over. A planner inserts its plan in one transaction
    and links it to the objective in another; in between, the plan is a `DRAFT` that no objective
    names and no attempt belongs to, unless an operator activates or cancels it. -/

namespace HermesOps

open Schemes

/-- A planner has generated the plan and not handed it over yet. -/
def World.awaitsHandover (w : World) (p : PlanId) : Bool :=
  w.daemon.planners.any fun _ x => x.stage = .generated p

/-- The action meddles with a plan that awaits its hand-over. -/
def forestallsHandover (a : Action) (w : World) : Bool :=
  match a with
  | .graph (.activate p _) | .graph (.cancelPlan p _) => w.awaitsHandover p
  | _ => false

variable {h : History} {config : Config} {w w' : World} {a : Action} {p : PlanId}

theorem World.awaitsHandover_iff : w.awaitsHandover p = true ↔
    ∃ i x, w.daemon.planners.get? i = some x ∧ x.stage = .generated p := by
  simp [World.awaitsHandover, Table.any_iff]

/-! ### Who opens and closes submissions -/

@[simp] theorem World.spawn_submissions (w : World) (pid : Pid) (stage : Stage) :
    (w.spawn pid stage).submissions = w.submissions := by
  unfold World.spawn
  repeat' split
  all_goals rfl

@[simp] theorem World.finishProcess_submissions (w : World) (pid : Pid) (e : Exit) :
    (w.finishProcess pid e).submissions = w.submissions := by
  unfold World.finishProcess
  split <;> rfl

@[simp] theorem World.kill_submissions (w : World) (pid : Pid) :
    (w.kill pid).submissions = w.submissions := by
  unfold World.kill
  split
  · exact w.finishProcess_submissions pid .failed
  · rfl

@[simp] theorem World.await_submissions (w : World) (j : AttemptId) (pid : Pid) (stage : Stage)
    (next : ThreadStage) : (w.await j pid stage next).submissions = w.submissions := by
  unfold World.await
  split
  · rfl
  · exact w.spawn_submissions pid stage

@[simp] theorem World.bestEffortStep_submissions (r : RunId) (now : Time) (pid : Pid) (fault : Bool)
    (w : World) (stage : BestEffort) :
    (w.bestEffortStep r now pid fault stage).1.submissions = w.submissions := by
  cases stage <;> simp only [World.bestEffortStep] <;> repeat' split
  all_goals first
    | rfl
    | exact w.spawn_submissions ..
    | exact w.kill_submissions _

theorem World.threadStep_submissions (j : AttemptId) (now : Time) (pid : Pid) (fault : Bool)
    (w : World) (rt : ReservedTask) (owner : String) (s : ThreadStage) :
    (w.threadStep j now pid fault rt owner s).submissions = w.submissions := by
  cases s with
  | unwinding r after stage =>
    have hb := World.bestEffortStep_submissions r now pid fault w stage
    simp only [World.threadStep]
    rcases hst : w.bestEffortStep r now pid fault stage with ⟨w', e⟩
    rw [hst] at hb
    cases e <;> cases after <;> exact hb
  | _ =>
    simp only [World.threadStep]
    repeat' split
    all_goals first
      | rfl
      | exact w.await_submissions ..
      | exact w.kill_submissions _

theorem plannerStep_submissions (config : Config) (w : World) (i : ObjectiveAttemptId) (x : Planner)
    (a : PlannerAction) : (w.plannerStep config i x a).submissions = w.submissions := by
  cases a <;> simp only [World.plannerStep] <;> repeat' split
  all_goals rfl

/-- Submissions are opened and closed by the operator's actions. -/
theorem step_submissions (h : History) (config : Config) (w : World) {a : Action}
    (ha : ∀ act, a ≠ .objective act) : (w.step h config a).submissions = w.submissions := by
  cases a with
  | objective act => exact absurd rfl (ha act)
  | planner i act =>
    simp only [World.step]
    split
    · exact plannerStep_submissions ..
    · rfl
  | thread j now pid fault =>
    simp only [World.step]
    split
    · exact World.threadStep_submissions ..
    · rfl
  | janitor now pid fault =>
    simp only [World.step, World.janitorStep]
    split
    · rfl
    · rename_i r rest stage _
      have hb := World.bestEffortStep_submissions r now pid fault w stage
      rcases hst : w.bestEffortStep r now pid fault stage with ⟨w', e⟩
      rw [hst] at hb
      cases e <;> exact hb
  | process pid now fresh fault =>
    simp only [World.step, World.stepProcess]
    split
    · rfl
    · split
      · rfl
      · exact World.finishProcess_submissions ..
  | operator pid stage =>
    simp only [World.step]
    split
    · exact w.spawn_submissions pid stage
    · rfl
  | kill pid => exact w.kill_submissions pid
  | graph act =>
    cases act <;> simp only [World.step, World.graphStep] <;> repeat' split
    all_goals rfl
  | environment act =>
    cases act <;> simp only [World.step, World.environmentStep] <;> repeat' split
    all_goals rfl
  | janitorStart =>
    simp only [World.step]
    split <;> rfl
  | crash => rfl

/-! ### Where the parts come from -/

/-- The success handler takes the plan from its planner. -/
theorem handed_over {i : ObjectiveAttemptId} {now : Time} {x x' : Planner}
    (hx : w.daemon.planners.get? i = some x) (hs : x.stage = .generated p)
    (hx' : (w.step h config (.planner i (.success now))).daemon.planners.get? i = some x') :
    x'.stage ≠ .generated p := by
  simp only [World.step, hx, World.plannerStep, hs] at hx'
  split at hx'
  · simp only [World.endPlanner, Table.get?_delete, Option.filter_eq_some_iff] at hx'
    simp at hx'
  · simp only [World.setPlanner, Table.get?_updateAt, if_true, hx, Option.map_some,
      Option.some.injEq] at hx'
    rw [← hx']
    simp

/-- A plan that awaits its hand-over awaited it before, or has just been drawn. -/
theorem handover_origin (hP : PlannerInv w) (hp : (w.step h config a).awaitsHandover p = true) :
    (w.awaitsHandover p = true ∧ ∀ i now x, a = .planner i (.success now) →
        w.daemon.planners.get? i = some x → x.stage ≠ .generated p) ∨
      (PlanDrawn w (w.step h config a).db.graph p ∧
        (w.step h config a).submissions = w.submissions ∧
        (w.step h config a).db.queue = w.db.queue ∧
        ∃ x, (w.step h config a).db.graph.plans.get? p = some x ∧ x.status = .draft) := by
  obtain ⟨i, x', hx', hs⟩ := World.awaitsHandover_iff.1 hp
  cases planner_origin h config w a hx' with
  | @kept x hx _ hqueue hsame =>
    rcases hsame with rfl | hnew
    · refine .inl ⟨World.awaitsHandover_iff.2 ⟨i, x, hx, hs⟩, fun k now y ha hy hys => ?_⟩
      subst ha
      obtain rfl := hP.single i k x y hx hy
      exact handed_over hy hys hx' hs
    · obtain ⟨n, first, now, ha, g, hg, hgraph⟩ := hnew p hs
      obtain ⟨hd, hstatus⟩ := drawPlan_some hg
      obtain ⟨y, hy, -⟩ := hd.new
      refine .inr ⟨by rw [hgraph]; exact hd, ?_, hqueue _ ha, y, by rw [hgraph]; exact hy, ?_⟩
      · subst ha
        simp only [World.step, hx]
        exact plannerStep_submissions config w i x _
      · rw [hstatus y hy]; rfl
  | reserved _ he => rw [he] at hs; cases hs

/-! ### Submissions in flight -/

/-- What a step does to the submissions between their two transactions. -/
inductive SubmissionsAfter (w w' : World) (a : Action) : Prop
  | same : w'.submissions = w.submissions →
    (∀ q id s now, a = .objective (.attachPlan q id s now) → q ∉ w.submissions) →
    SubmissionsAfter w w' a
  | opened {q} : w'.submissions = q :: w.submissions → PlanDrawn w w'.db.graph q →
    w'.daemon.planners = w.daemon.planners →
    (∀ q id s now, a ≠ .objective (.attachPlan q id s now)) → SubmissionsAfter w w' a
  | closed {q} : w'.submissions = w.submissions.erase q →
    (∀ k id s now, a = .objective (.attachPlan k id s now) → k = q) → SubmissionsAfter w w' a

theorem submissions_after (h : History) (config : Config) (w : World) (a : Action) :
    SubmissionsAfter w (w.step h config a) a := by
  have same : ∀ {w' : World} {b : Action}, (∀ q id s now, b ≠ .objective (.attachPlan q id s now)) →
      w'.submissions = w.submissions → SubmissionsAfter w w' b :=
    fun ha hs => .same hs fun q id s now hq => absurd hq (ha q id s now)
  cases a with
  | objective a =>
    cases a with
    | submitPlan n q first test now =>
      simp only [World.step, World.objectiveStep]
      split
      · rename_i g hg
        exact .opened rfl (drawPlan_some hg).1 rfl fun _ _ _ _ ha => by cases ha
      · exact same (fun _ _ _ _ ha => by cases ha) rfl
    | dropSubmission q => exact .closed rfl fun _ _ _ _ ha => by cases ha
    | attachPlan q id s now =>
      simp only [World.step, World.objectiveStep]
      split
      · rename_i hq
        exact .same rfl fun _ _ _ _ ha => by cases ha; exact hq
      · split
        · exact .closed rfl fun _ _ _ _ ha => by cases ha; rfl
        · exact .closed rfl fun _ _ _ _ ha => by cases ha; rfl
    | _ =>
      refine same (fun _ _ _ _ ha => by cases ha) ?_
      simp only [World.step, World.objectiveStep]
      repeat' split
      all_goals rfl
  | _ => exact same (fun _ _ _ _ ha => by cases ha) (step_submissions h config w fun _ ha => by cases ha)

/-- A plan is lost only where its submission fails. -/
theorem GraphStep.plan_lost (hs : GraphStep w w' a) {x : Plan}
    (hx : w.db.graph.plans.get? p = some x) :
    (∃ x', w'.db.graph.plans.get? p = some x' ∧ PlanMove w w' p x a x') ∨
      (p ∈ w.submissions ∧ ∃ id s now, a = .objective (.attachPlan p id s now)) := by
  cases hs with
  | @deleted q id s now ha hq hd =>
    by_cases hp : p = q
    · subst hp
      exact .inr ⟨hq, id, s, now, ha⟩
    · exact .inl ⟨x, by rw [hd.plans, if_neg hp]; exact hx, .kept rfl⟩
  | moved hg => exact .inl (hg.plans.forth hx)
  | reserved _ hr => exact .inl ⟨x, by rw [(reserveAttempt_ok hr).2.2.2.1]; exact hx, .kept rfl⟩
  | @inserted q hd | @imported _ q _ _ _ hd =>
    have hne : p ≠ q := by rintro rfl; rw [hd.plan] at hx; cases hx
    exact .inl ⟨x, by rw [hd.plans p hne]; exact hx, .kept rfl⟩

/-! ### The invariant -/

/-- Submissions in flight have their plans, and a plan that awaits its hand-over is untouched. -/
structure HandoverInv (w : World) : Prop where
  nodup : w.submissions.Nodup
  known : ∀ p ∈ w.submissions, (w.db.graph.plans.get? p).isSome
  draft : ∀ p, w.awaitsHandover p = true →
    ∃ x, w.db.graph.plans.get? p = some x ∧ x.status = .draft
  apart : ∀ p, w.awaitsHandover p = true → p ∉ w.submissions
  free : ∀ p, w.awaitsHandover p = true → ∀ id o, w.db.queue.objectives.get? id = some o →
    o.planId ≠ some p
  untouched : ∀ p, w.awaitsHandover p = true → ∀ j x y, w.db.graph.attempts.get? j = some x →
    w.db.graph.tasks.get? x.taskId = some y → y.planId ≠ p

theorem HandoverInv.step_submissions (hI : HandoverInv w) (h : History) (config : Config)
    (a : Action) : (w.step h config a).submissions.Nodup ∧
      ∀ p ∈ (w.step h config a).submissions, ((w.step h config a).db.graph.plans.get? p).isSome := by
  have hgraph := graph_step h config w a
  have old : ∀ {p}, p ∈ w.submissions → (∀ id s now, a ≠ .objective (.attachPlan p id s now)) →
      ((w.step h config a).db.graph.plans.get? p).isSome := by
    intro p hp ha
    obtain ⟨x, hx⟩ := Option.isSome_iff_exists.1 (hI.known p hp)
    rcases hgraph.plan_lost hx with ⟨x', hx', -⟩ | ⟨-, id, s, now, ha'⟩
    · exact Option.isSome_of_mem hx'
    · exact absurd ha' (ha id s now)
  cases submissions_after h config w a with
  | same hs ha =>
    rw [hs]
    exact ⟨hI.nodup, fun p hp => old hp fun id s now hp' => ha p id s now hp' hp⟩
  | @opened q hs hd _ ha =>
    rw [hs]
    refine ⟨List.nodup_cons.2 ⟨fun hq => ?_, hI.nodup⟩, fun p hp => ?_⟩
    · have := hI.known q hq
      rw [hd.plan] at this
      cases this
    · rcases List.mem_cons.1 hp with rfl | hp
      · obtain ⟨x, hx, -⟩ := hd.new
        exact Option.isSome_of_mem hx
      · exact old hp fun id s now => ha p id s now
  | @closed q hs ha =>
    rw [hs]
    refine ⟨hI.nodup.erase q, fun p hp => ?_⟩
    rw [hI.nodup.mem_erase_iff] at hp
    exact old hp.2 fun id s now hp' => hp.1 (ha p id s now hp')

/-- An objective of the next world names a plan that it named before, that a submission brought, or
    that its planner hands over. -/
theorem plan_named {id : ObjectiveId} {o' : Objective}
    (ho : (w.step h config a).db.queue.objectives.get? id = some o') (hp : o'.planId = some p) :
    (∃ o, w.db.queue.objectives.get? id = some o ∧ o.planId = some p) ∨ p ∈ w.submissions ∨
      ∃ i now, a = .planner i (.success now) ∧
        w.daemon.planners.get? i = some ⟨id, .generated p⟩ := by
  cases hold : w.db.queue.objectives.get? id with
  | none =>
    obtain ⟨s, now, rfl, hs⟩ := objective_new h config w a hold ho
    exact .inr (.inl (hs p hp).1)
  | some o =>
    obtain ⟨o'', ho'', hm⟩ := objective_move h config w a hold
    rw [ho] at ho''
    cases ho''
    rcases hm.plan_cases hp with hop | ⟨-, i, now, ha, hi, -⟩
    · exact .inl ⟨o, rfl, hop⟩
    · exact .inr (.inr ⟨i, now, ha, hi⟩)

theorem HandoverInv.step (hI : HandoverInv w) (hO : TasksOwned w.db.graph) (hA : AgreementInv w)
    (hL : LinkInv w) (h : History) (config : Config) (a : Action) (ha : forestallsHandover a w = false) :
    HandoverInv (w.step h config a) := by
  obtain ⟨hnodup, hknown⟩ := hI.step_submissions h config a
  have hgraph := graph_step h config w a
  have free : ∀ p, (w.step h config a).awaitsHandover p = true → ∀ id o,
      (w.step h config a).db.queue.objectives.get? id = some o → o.planId ≠ some p := by
    intro p hp id o ho hop
    rcases handover_origin hA.planners hp with ⟨hold, hkept⟩ | ⟨hd, -, hqueue, -⟩
    · rcases plan_named ho hop with ⟨o₀, ho₀, hop₀⟩ | hs | ⟨i, now, rfl, hi⟩
      · exact hI.free p hold id o₀ ho₀ hop₀
      · exact hI.apart p hold hs
      · exact hkept i now _ rfl hi rfl
    · rw [hqueue] at ho
      have := hA.linked id o p ho hop
      rw [hd.plan] at this
      cases this
  refine ⟨hnodup, hknown, fun p hp => ?_, fun p hp hs => ?_, free,
    fun p hp j x y hx hy hyp => ?_⟩
  · rcases handover_origin hA.planners hp with ⟨hold, hkept⟩ | ⟨-, -, -, hdraft⟩
    · obtain ⟨x, hx, hstatus⟩ := hI.draft p hold
      rcases hgraph.plan_lost hx with ⟨x', hx', hm⟩ | ⟨hs, -⟩
      · refine ⟨x', hx', ?_⟩
        cases hm with
        | kept hs => exact hs.trans hstatus
        | blocked hl => rw [hstatus] at hl; cases hl
        | promoted ho hop => exact absurd hop (hI.free p hold _ _ ho)
        | planned hi => exact absurd rfl (hkept _ _ _ rfl hi)
        | activated | removed =>
          simp only [forestallsHandover] at ha
          rw [hold] at ha
          cases ha
        | cancelled _ _ ho' hop => exact absurd hop (free p hp _ _ ho')
        | refreshed hne => exact absurd hstatus hne
      · exact absurd hs (hI.apart p hold)
    · exact hdraft
  · rcases handover_origin hA.planners hp with ⟨hold, -⟩ | ⟨hd, hsub, -⟩
    · cases submissions_after h config w a with
      | same hs' => rw [hs'] at hs; exact hI.apart p hold hs
      | opened hs' hd =>
        rw [hs'] at hs
        rcases List.mem_cons.1 hs with rfl | hs
        · obtain ⟨x, hx, -⟩ := hI.draft p hold
          rw [hd.plan] at hx
          cases hx
        · exact hI.apart p hold hs
      | closed hs' => rw [hs'] at hs; exact hI.apart p hold (List.mem_of_mem_erase hs)
    · rw [hsub] at hs
      have := hI.known p hs
      rw [hd.plan] at this
      cases this
  · rcases handover_origin hA.planners hp with ⟨hold, -⟩ | ⟨hd, -⟩
    · rcases hgraph.attempt_back hx with ⟨x₀, hx₀, hi⟩ | ⟨now, task, -, hr⟩
      · rcases hgraph.task_back hy with ⟨y₀, hy₀, hpl, -⟩ | ⟨hn, -⟩
        · rw [hi] at hy₀
          exact hI.untouched p hold j x₀ y₀ hx₀ hy₀ (hpl.symm.trans hyp)
        · have := hL.placed j x₀ hx₀
          rw [← hi, hn] at this
          cases this
      · obtain ⟨htask, helig, -⟩ := reserveAttempt_ok hr
        obtain ⟨-, -, z, hz, hstatus, -⟩ := reservation_eligible helig
        obtain ⟨z', hz', hdraft⟩ := hI.draft p hold
        rcases hgraph.task_back hy with ⟨y₀, hy₀, hpl, -⟩ | ⟨hn, -⟩
        · rw [htask] at hy₀
          cases hy₀
          rw [← hpl, hyp, hz'] at hz
          cases hz
          rw [hdraft] at hstatus
          rcases hstatus with h | h <;> cases h
        · rw [htask] at hn; cases hn
    · have hx₀ : w.db.graph.attempts.get? j = some x := by rw [← hd.attempts]; exact hx
      obtain ⟨y₀, hy₀⟩ := Option.isSome_iff_exists.1 (hL.placed j x hx₀)
      rcases hd.tasks x.taskId with hi | ⟨hn, -⟩
      · have := hO _ y₀ hy₀
        rw [← hi, hy] at hy₀
        cases hy₀
        rw [hyp, hd.plan] at this
        cases this
      · rw [hn] at hy₀; cases hy₀

theorem handoverInv_reachable {ok : Action → World → Prop}
    (hok : ∀ a w, ok a w → forestallsHandover a w = false)
    (hw : (machine h config).Reachable ok w) : HandoverInv w := by
  induction hw with
  | start hs =>
    obtain ⟨projects, -, rfl⟩ := hs
    have hn : ∀ p, (World.initial projects).awaitsHandover p = false := fun _ => rfl
    exact ⟨List.nodup_nil, fun _ hp => (by cases hp),
      fun p hp => (by rw [hn] at hp; cases hp), fun p hp => (by rw [hn] at hp; cases hp),
      fun p hp => (by rw [hn] at hp; cases hp), fun p hp => (by rw [hn] at hp; cases hp)⟩
  | step a hw ha ih =>
    exact ih.step (tasksOwned_reachable hw) (agreementInv_reachable hw) (linkInv_reachable hw) h
      config a (hok _ _ ha)

/-- A plan that awaits its hand-over has no runs. -/
theorem HandoverInv.unlinked (hI : HandoverInv w) (hp : w.awaitsHandover p = true) {r : RunId} :
    r ∉ w.db.graph.linkedRuns p := by
  intro hr
  obtain ⟨j, x, y, hx, hy, hyp, -⟩ := Graph.mem_linkedRuns.1 hr
  exact hI.untouched p hp j x y hx hy hyp

end HermesOps
