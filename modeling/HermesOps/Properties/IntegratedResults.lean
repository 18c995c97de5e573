import HermesOps.Properties.RunClaims
import HermesOps.Properties.Evidence

/-! What an integrated result vouches for. A thread hands the integrator's result to its handler as it
    read it, and it read it from the one process it had started for its run. So whatever a
    completed run guarantees from then on holds for a thread that returns an integrated result. -/

namespace HermesOps

open Schemes

variable {h : History} {config : Config} {w w' : World} {a : Action} {r : RunId}

/-! ### Exits -/

/-- A process that runs has no exit yet. -/
def ExitsApart (w : World) : Prop :=
  ∀ p stage, w.procs.get? p = some stage → w.exits.get? p = none

theorem ExitsApart.step (hI : ExitsApart w) (h : History) (config : Config) (a : Action) :
    ExitsApart (w.step h config a) := by
  intro p stage' hp'
  cases hp : w.procs.get? p with
  | some stage =>
    cases World.proc_fate h config w a hp with
    | runs _ he | stepped _ _ _ he => rw [he]; exact hI p stage hp
    | left _ _ hn | killed hn => rw [hn] at hp'; cases hp'
  | none =>
    cases World.proc_origin h config w a hp' with
    | kept hold | stepped _ hold => rw [hp] at hold; cases hold
    | started hu =>
      cases he : (w.step h config a).exits.get? p with
      | none => rfl
      | some e =>
        cases World.exit_origin h config w a he with
        | kept hold => rw [hu.2] at hold; cases hold
        | exited _ hold => rw [hp] at hold; cases hold
        | killed hsome => rw [hp] at hsome; cases hsome

theorem exitsApart_reachable {ok : Action → World → Prop}
    (hw : (machine h config).Reachable ok w) : ExitsApart w := by
  induction hw with
  | start hs =>
    obtain ⟨projects, -, rfl⟩ := hs
    intro p stage hp
    cases hp
  | step a _ _ ih => exact ih.step h config a

/-! ### Integrators -/

/-- The run that an integrator works on at the stage. -/
def Stage.applies : Stage → Option RunId
  | .apply r _ => some r
  | .reviewed a | .checked a _ | .verified a _ | .prepared a _ | .merged a _ | .observed a _ _
  | .raised a _ _ | .recleaning a _ _ _ | .retried a _ _ _ | .ambiguous a _ _ _ => some a.runId
  | _ => none

theorem Stage.onError_applies {stage stage' : Stage} {e : String} (hs : stage.applies = some r)
    (he : stage.onError e = .next stage') : stage'.applies = some r := by
  cases stage <;> simp only [Stage.onError, Progress.next.injEq, reduceCtorEq] at he <;> subst he
  all_goals exact hs

theorem Stage.onError_exit {stage : Stage} {e : String} {x : Exit}
    (he : stage.onError e = .exit x) : x = .failed := by
  cases stage <;> cases he <;> rfl

/-- An integrator goes on with its run. -/
theorem Stage.step_applies {stage stage' : Stage} {now : Time} {fresh : Nat} {fault : Bool}
    {s s' : Site} (hs : stage.applies = some r)
    (hst : stage.step h now fresh fault s = (s', .next stage')) : stage'.applies = some r := by
  rcases stage.step_cases h now fresh fault s with ⟨e, he⟩ | ⟨-, hsucc⟩
  · rw [hst] at he
    exact Stage.onError_applies hs (congrArg Prod.snd he).symm
  · rw [hst] at hsucc
    cases hsucc with
    | apply ha =>
      obtain ⟨-, hr, -⟩ := applyRead_ok ha
      exact congrArg some hr |>.trans hs
    | reviewed | checked | prepare | prepared | merged | raisedDone | raisedOpen | recleaning =>
      exact hs
    | _ => cases hs

/-- The decision guard refuses with one of the two results that integrate nothing. -/
theorem decisionGuard_refused {d : Database} {b : Application} {i : IntegrationResult}
    (hg : decisionGuard d b = .ok (.refused i)) :
    i = cancelledIntegrationResult ∨ i = blockedHumanIntegrationResult := by
  unfold decisionGuard at hg
  split at hg
  · cases hg
  · split at hg
    · cases hg
    · obtain ⟨-, -, hg⟩ := Except.bind_ok.1 hg
      split at hg
      · cases hg
      · obtain ⟨o, -, hg⟩ := Except.bind_ok.1 hg
        split at hg
        · cases hg
          exact .inl rfl
        · obtain ⟨gated, -, hg⟩ := Except.bind_ok.1 hg
          split at hg <;> cases hg
          exact .inr rfl

/-- An integrator that reports an integrated run has just completed it. -/
theorem Stage.step_integrated {stage : Stage} {now : Time} {fresh : Nat} {fault : Bool} {s s' : Site}
    {i : IntegrationResult} (hs : stage.applies = some r)
    (hst : stage.step h now fresh fault s = (s', .exit (.integration i))) (hi : i.integrated = true) :
    ∃ x, s'.db.store.runs.get? r = some x ∧ x.status = .completed := by
  have done : ∀ {q : RunId} {j c store}, finalizeCompleted s.db.store q j c now = .ok store →
      ∃ x, store.runs.get? q = some x ∧ x.status = .completed := by
    intro q j c store hf
    obtain ⟨x, hx, hcom, -, -, hruns, -⟩ := finalizeCompleted_ok hf
    refine ⟨x.completed none now, ?_, rfl⟩
    rw [hruns, Table.get?_update, hx]
    simp [hcom]
  rcases stage.step_cases h now fresh fault s with ⟨e, he⟩ | ⟨-, hsucc⟩
  · rw [hst] at he
    cases Stage.onError_exit (congrArg Prod.snd he).symm
  · rw [hst] at hsucc
    cases hsucc with
    | refused hg => rcases decisionGuard_refused hg with rfl | rfl <;> cases hi
    | record _ hrec =>
      obtain ⟨-, -, -, -, -, -, -, -, -, -, -, hn, -⟩ := recordNonIntegration_ok hrec
      rw [hn] at hi
      cases hi
    | observed hf | retried hf =>
      cases hs
      exact done hf

/-! ### Threads that wait for their integrator -/

/-- A thread waits for an integrator it waited for before, or has just started it. -/
theorem integrating_origin {j : AttemptId} {t' : Thread} {p : Pid}
    (ht : (w.step h config a).daemon.threads.get? j = some t') (hs : t'.stage = .integrating r p) :
    (∃ t, w.daemon.threads.get? j = some t ∧ t.stage = .integrating r p) ∨
      ∃ stage, (w.step h config a).procs.get? p = some stage ∧ stage.applies = some r := by
  cases World.thread_origin h config w a ht with
  | kept ht => exact .inl ⟨t', ht, hs⟩
  | reserved _ _ _ he => rw [he] at hs; cases hs
  | @moved t now pid fault hj _ ha hm =>
    rw [hs] at hm
    generalize hst : t.stage = s at hm
    generalize hst' : ThreadStage.integrating r p = s' at hm
    cases hm with
    | stays => exact .inl ⟨t, hj, hst⟩
    | applies =>
      cases hst'
      subst ha
      refine .inr ?_
      simp only [World.step, hj, hst, World.threadStep] at ht ⊢
      split at ht
      · rw [World.setThread_threads_get?, if_pos rfl, hj] at ht
        cases ht; cases hs
      · rename_i hf
        rw [if_neg hf]
        exact ⟨_, World.await_started hj (by rw [hst]; simp) ht hs, rfl⟩
    | @integrated q _ i =>
      unfold IntegrationResult.dispatch at hst'
      repeat' split at hst'
      all_goals cases hst'
    | _ => cases hst'

/-- The result integrates nothing: a cancellation, or a decision left to a human. -/
def IntegrationResult.withdrawn (i : IntegrationResult) : Bool :=
  ¬i.integrated ∧ (i.action = .cancel ∧ (i.status = .cancelled ∨ i.status = .recovering) ∨
    i.action = .blockHuman)

/-- What an integrated result vouches for, from the integrator to the handler. -/
structure Vouched (Q : World → RunId → Prop) (w : World) : Prop where
  apart : ExitsApart w
  waiting : ∀ j t r p, w.daemon.threads.get? j = some t → t.stage = .integrating r p →
    (∃ stage, w.procs.get? p = some stage ∧ stage.applies = some r) ∨
      ∃ e, w.exits.get? p = some e ∧ ∀ i, e = .integration i → i.integrated = true → Q w r
  unwinding : ∀ j t r i s, w.daemon.threads.get? j = some t →
    t.stage = .unwinding r (.result i) s → i.withdrawn = true
  returned : ∀ j t r i, w.daemon.threads.get? j = some t → t.stage = .returning (.pipeline r i) →
    i.withdrawn = true ∨ (i.integrated = true ∧ Q w r)

/-- The result that a thread unwinds with integrates nothing. -/
theorem unwinding_origin {j : AttemptId} {t' : Thread} {i : IntegrationResult} {s : BestEffort}
    (ht : (w.step h config a).daemon.threads.get? j = some t')
    (hs : t'.stage = .unwinding r (.result i) s) :
    (∃ t s, w.daemon.threads.get? j = some t ∧ t.stage = .unwinding r (.result i) s) ∨
      i.withdrawn = true := by
  cases World.thread_origin h config w a ht with
  | kept ht => exact .inl ⟨t', s, ht, hs⟩
  | reserved _ _ _ he => rw [he] at hs; cases hs
  | @moved t now pid fault hj _ ha hm =>
    rw [hs] at hm
    generalize hst : t.stage = s₀ at hm
    generalize hst' : ThreadStage.unwinding r (.result i) s = s' at hm
    cases hm with
    | stays => exact .inl ⟨t, s, hj, hst.trans hst'.symm⟩
    | effort => cases hst'; exact .inl ⟨t, _, hj, hst⟩
    | cancels | gated => cases hst'; exact .inr rfl
    | @integrated q _ k =>
      unfold IntegrationResult.dispatch at hst'
      split at hst'
      · rename_i hk
        cases hst'
        exact .inr (by simp [IntegrationResult.withdrawn, hk])
      · split at hst'
        · rename_i hk
          split at hst' <;> cases hst'
          exact .inr (by simp [IntegrationResult.withdrawn, hk])
        · split at hst' <;> cases hst'
    | _ => cases hst'

/-- A result that the thread returns as it read it is withdrawn or integrated. -/
theorem IntegrationResult.dispatch_returning {i : IntegrationResult} {result : TaskResult}
    (hd : i.dispatch r = .returning result) : i.withdrawn = true ∨ i.integrated = true := by
  unfold IntegrationResult.dispatch at hd
  split at hd
  · cases hd
  · split at hd
    · rename_i hk
      exact .inl (by simp [IntegrationResult.withdrawn, hk])
    · split at hd
      · cases hd
      · rename_i hk
        simp only [not_or, not_not] at hk
        exact .inr hk.2

/-- A thread that returns a result returned it before, or has just read it or unwound with it. -/
theorem returning_origin {j : AttemptId} {t' : Thread} {i : IntegrationResult}
    (ht : (w.step h config a).daemon.threads.get? j = some t')
    (hs : t'.stage = .returning (.pipeline r i)) :
    ∃ t, w.daemon.threads.get? j = some t ∧ (t.stage = .returning (.pipeline r i) ∨
      (∃ p, t.stage = .integrating r p ∧ w.exits.get? p = some (.integration i) ∧
        i.dispatch r = .returning (.pipeline r i)) ∨
      ∃ k s complete, t.stage = .unwinding r (.result k) s ∧ i = k.settled complete) := by
  cases World.thread_origin h config w a ht with
  | kept ht => exact ⟨t', ht, .inl hs⟩
  | reserved _ _ _ he => rw [he] at hs; cases hs
  | @moved t now pid fault hj _ ha hm =>
    rw [hs] at hm
    generalize hst : t.stage = s₀ at hm
    generalize hst' : ThreadStage.returning (.pipeline r i) = s' at hm
    refine ⟨t, hj, ?_⟩
    cases hm with
    | stays => exact .inl hst
    | @integrated q p k hp =>
      unfold IntegrationResult.dispatch at hst'
      repeat' split at hst'
      all_goals cases hst'
      all_goals exact .inr (.inl ⟨p, hst, hp, rfl⟩)
    | @settled q k s complete => cases hst'; exact .inr (.inr ⟨k, s, complete, hst, rfl⟩)
    | _ => cases hst'

theorem IntegrationResult.settled_withdrawn {i : IntegrationResult} (complete : Bool)
    (hi : i.withdrawn = true) : (i.settled complete).withdrawn = true := by
  unfold IntegrationResult.settled
  split
  · rename_i hc
    simp only [IntegrationResult.withdrawn, decide_eq_true_eq] at hi ⊢
    exact ⟨hi.1, .inl ⟨hc.1, by simp⟩⟩
  · exact hi

theorem Vouched.step {Q : World → RunId → Prop} (hI : Vouched Q w)
    (hstay : ∀ r, Q w r → Q (w.step h config a) r)
    (hdone : ∀ r x, (w.step h config a).db.store.runs.get? r = some x → x.status = .completed →
      Q (w.step h config a) r) : Vouched Q (w.step h config a) := by
  refine ⟨hI.apart.step h config a, fun j t r p ht hs => ?_, fun j t r i s ht hs => ?_,
    fun j t r i ht hs => ?_⟩
  · rcases integrating_origin ht hs with ⟨t₀, ht₀, hs₀⟩ | hnew
    · rcases hI.waiting j t₀ r p ht₀ hs₀ with ⟨stage, hp, happ⟩ | ⟨e, he, hQ⟩
      · have hnone := hI.apart p stage hp
        cases World.proc_fate h config w a hp with
        | runs hp => exact .inl ⟨stage, hp, happ⟩
        | stepped _ hst hp => exact .inl ⟨_, hp, Stage.step_applies happ hst⟩
        | @left now fresh fault e ha hst _ he =>
          refine .inr ⟨e, by rw [he, hnone]; rfl, fun i hi hint => ?_⟩
          subst hi
          obtain ⟨x, hx, hcom⟩ := Stage.step_integrated happ hst hint
          exact hdone r x hx hcom
        | killed _ he => exact .inr ⟨.failed, by rw [he, hnone]; rfl, fun i hi => by cases hi⟩
      · exact .inr ⟨e, World.exit_kept h config w a he, fun i hi hint => hstay r (hQ i hi hint)⟩
    · exact .inl hnew
  · rcases unwinding_origin ht hs with ⟨t₀, s₀, ht₀, hs₀⟩ | hn
    · exact hI.unwinding j t₀ r i s₀ ht₀ hs₀
    · exact hn
  · obtain ⟨t₀, ht₀, hs₀ | ⟨p, hs₀, he, hd⟩ | ⟨k, s, complete, hs₀, rfl⟩⟩ := returning_origin ht hs
    · rcases hI.returned j t₀ r i ht₀ hs₀ with hw | ⟨hi, hQ⟩
      · exact .inl hw
      · exact .inr ⟨hi, hstay r hQ⟩
    · rcases IntegrationResult.dispatch_returning hd with hw | hi
      · exact .inl hw
      rcases hI.waiting j t₀ r p ht₀ hs₀ with ⟨stage, hp, -⟩ | ⟨e, he', hQ⟩
      · rw [hI.apart p stage hp] at he
        cases he
      · rw [he] at he'
        cases he'
        exact .inr ⟨hi, hstay r (hQ i rfl hi)⟩
    · exact .inl (IntegrationResult.settled_withdrawn complete (hI.unwinding j t₀ r k s ht₀ hs₀))

theorem vouched_start {Q : World → RunId → Prop} (hw : (machine h config).start w) :
    Vouched Q w := by
  have happ := exitsApart_reachable (.of_start hw)
  obtain ⟨projects, -, rfl⟩ := hw
  exact ⟨happ, fun _ _ _ _ ht => (by cases ht), fun _ _ _ _ _ ht => (by cases ht),
    fun _ _ _ _ ht => (by cases ht)⟩

/-! ### Pipelines -/

/-- Runs belong to pipelines, and a pipeline has no plain result. -/
structure PipelineInv (w : World) : Prop where
  waiting : ∀ j t p, w.daemon.threads.get? j = some t → t.stage = .beginning p →
    t.task.kind = .pipeline
  reading : ∀ j t r, w.daemon.threads.get? j = some t → t.stage = .began r →
    t.task.kind = .pipeline
  linked : ∀ j x r y, w.db.graph.attempts.get? j = some x → x.runId = some r →
    w.db.graph.tasks.get? x.taskId = some y → y.kind = .pipeline
  plain : ∀ j t, w.daemon.threads.get? j = some t → t.stage = .returning .plain →
    t.task.kind ≠ .pipeline

/-- A thread with a plain result had it before, or its task is no pipeline. -/
theorem plain_origin {j : AttemptId} {t' : Thread}
    (ht : (w.step h config a).daemon.threads.get? j = some t')
    (hs : t'.stage = .returning .plain) :
    (∃ t, w.daemon.threads.get? j = some t ∧ t'.task = t.task ∧ t.stage = .returning .plain) ∨
      t'.task.kind ≠ .pipeline := by
  cases World.thread_origin h config w a ht with
  | kept ht => exact .inl ⟨t', ht, rfl, hs⟩
  | reserved _ _ _ he => rw [he] at hs; cases hs
  | @moved t now pid fault hj htask ha hm =>
    rw [hs] at hm
    generalize hst : t.stage = s at hm
    generalize hst' : ThreadStage.returning .plain = s' at hm
    cases hm with
    | stays => exact .inl ⟨t, hj, htask, hst⟩
    | plain hk => exact .inr (htask ▸ hk)
    | @integrated q p k =>
      unfold IntegrationResult.dispatch at hst'
      repeat' split at hst'
      all_goals cases hst'
    | _ => cases hst'

/-- A linked attempt was there before; it belongs to the same task. -/
theorem linked_back {j : AttemptId} {x' : Attempt}
    (hx : (w.step h config a).db.graph.attempts.get? j = some x') (hr : x'.runId = some r) :
    ∃ x, w.db.graph.attempts.get? j = some x ∧ x'.taskId = x.taskId ∧ (x.runId = some r ∨
      ∃ rt, w.daemon.threads.get? j = some ⟨rt, .began r⟩) := by
  have hback := (graph_step h config w a).attempt_back hx
  rcases linkedRun_origin hx hr with ⟨x, hx₀, hr₀⟩ | ⟨now, pid, rt, ha, hj⟩
  · rcases hback with ⟨y, hy, ht⟩ | ⟨now, task, -, hres⟩
    · rw [hx₀] at hy
      cases hy
      exact ⟨x, hx₀, ht, .inl hr₀⟩
    · obtain ⟨-, -, -, -, -, -, -, y, -, -, hins⟩ := reserveAttempt_ok hres
      rw [Table.get?_of_insert hins] at hx₀
      cases hx₀
  · rcases hback with ⟨y, hy, ht⟩ | ⟨now', task, ha', -⟩
    · exact ⟨y, hy, ht, .inr ⟨rt, hj⟩⟩
    · rw [ha] at ha'
      cases ha'

theorem PipelineInv.step (hI : PipelineInv w) (hL : LinkInv w) (h : History) (config : Config)
    (a : Action) : PipelineInv (w.step h config a) := by
  refine ⟨fun j t p ht hs => ?_, fun j t r ht hs => ?_, fun j x r y hx hr hy => ?_,
    fun j t ht hs => ?_⟩
  · rcases waits_origin ht hs with ⟨t₀, ht₀, hs₀, htask⟩ | ⟨-, -, hk, -⟩
    · exact htask ▸ hI.waiting j t₀ p ht₀ hs₀
    · exact hk
  · obtain ⟨t₀, ht₀, htask, hs₀ | ⟨p, -, -, -, hs₀, -⟩⟩ := reads_origin ht hs
    · exact htask ▸ hI.reading j t₀ r ht₀ hs₀
    · exact htask ▸ hI.waiting j t₀ p ht₀ hs₀
  · obtain ⟨x₀, hx₀, htask, hlink⟩ := linked_back hx hr
    rw [htask] at hy
    rcases (graph_step h config w a).task_back hy with ⟨y₀, hy₀, -, hk⟩ | ⟨hn, -⟩
    · rw [hk]
      rcases hlink with hr₀ | ⟨rt, hj⟩
      · exact hI.linked j x₀ r y₀ hx₀ hr₀ hy₀
      · rw [(hL.agreed j _ x₀ hj hx₀).1] at hy₀
        exact (hL.present j _ y₀ hj hy₀).2.1.trans (hI.reading j _ r hj rfl)
    · have := hL.placed j x₀ hx₀
      rw [hn] at this
      cases this
  · rcases plain_origin ht hs with ⟨t₀, ht₀, htask, hs₀⟩ | hk
    · exact htask ▸ hI.plain j t₀ ht₀ hs₀
    · exact hk

theorem pipelineInv_reachable {ok : Action → World → Prop}
    (hw : (machine h config).Reachable ok w) : PipelineInv w := by
  induction hw with
  | start hs =>
    obtain ⟨projects, -, rfl⟩ := hs
    exact ⟨fun _ _ _ ht => (by cases ht), fun _ _ _ ht => (by cases ht),
      fun _ _ _ _ hx => (by cases hx), fun _ _ ht => (by cases ht)⟩
  | step a hw _ ih => exact ih.step (linkInv_reachable hw) h config a

end HermesOps
