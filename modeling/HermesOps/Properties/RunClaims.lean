import HermesOps.Properties.RunLinks

/-! A run belongs to one attempt. From its reservation to its link a run is on its way to the one
    thread that asked for it: its `begin` command is setting it up, or has returned it to the thread
    that waits, or the thread has read the result. Until the link nobody is linked to the run, and
    afterwards nobody links it again. -/

namespace HermesOps

open Schemes

/-- The run is on its way to its thread. -/
inductive World.OnItsWay (w : World) (r : RunId) : Prop
  | settingUp {p stage} : w.procs.get? p = some stage → stage.beginning = some r → w.OnItsWay r
  | returned {j t p} : w.daemon.threads.get? j = some t → t.stage = .beginning p →
    w.exits.get? p = some (.begun r) → w.OnItsWay r
  | read {j t} : w.daemon.threads.get? j = some t → t.stage = .began r → w.OnItsWay r

variable {h : History} {config : Config} {w w' : World} {a : Action} {r : RunId}

/-! ### Where a waiting thread comes from -/

/-- A thread that goes on to wait for a command has started it. -/
theorem World.await_started {j : AttemptId} {pid : Pid} {stage : Stage} {next : ThreadStage}
    {t t' : Thread} (ht : w.daemon.threads.get? j = some t) (hne : t.stage ≠ next)
    (ht' : (w.await j pid stage next).daemon.threads.get? j = some t') (hs : t'.stage = next) :
    (w.await j pid stage next).procs.get? pid = some stage := by
  unfold World.await at ht' ⊢
  split at ht'
  · rw [ht] at ht'
    cases ht'
    exact absurd hs hne
  · rename_i hu
    simp only [not_or, Bool.not_eq_true, Option.isSome_eq_false_iff, Option.isNone_iff_eq_none] at hu
    rw [if_neg (by simp [hu.1, hu.2])]
    obtain ⟨procs, hins⟩ := Table.insert_of_get?_eq_none hu.1 stage
    change (w.spawn pid stage).procs.get? pid = some stage
    simp only [World.spawn, hu.2, hins]
    rw [if_neg (by simp), Table.get?_insert hins, if_pos rfl]

/-- A thread waits for a command it waited for before, or has just started it. -/
theorem waits_origin {j : AttemptId} {t' : Thread} {p : Pid}
    (ht : (w.step h config a).daemon.threads.get? j = some t') (hs : t'.stage = .beginning p) :
    (∃ t, w.daemon.threads.get? j = some t ∧ t.stage = .beginning p ∧ t'.task = t.task) ∨
      (w.Unused p ∧ (∃ stage, (w.step h config a).procs.get? p = some stage) ∧
        t'.task.kind = .pipeline ∧ ∃ now pid fault, a = .thread j now pid fault) := by
  cases World.thread_origin h config w a ht with
  | kept ht => exact .inl ⟨t', ht, hs, rfl⟩
  | reserved _ _ _ he => rw [he] at hs; cases hs
  | @moved t now pid fault hj htask ha hm =>
    rw [hs] at hm
    generalize hst : t.stage = s at hm
    generalize hst' : ThreadStage.beginning p = s' at hm
    cases hm with
    | stays => exact .inl ⟨t, hj, hst, htask⟩
    | begins hu =>
      cases hst'
      subst ha
      suffices hstart : (∃ stage, (w.step h config (.thread j now p fault)).procs.get? p =
          some stage) ∧ t.task.kind = .pipeline from
        .inr ⟨hu, hstart.1, htask ▸ hstart.2, now, _, fault, rfl⟩
      simp only [World.step, hj, hst, World.threadStep] at ht ⊢
      -- of a reserved thread, only the one with a pipeline and a project waits
      split at ht
      · rw [World.setThread_threads_get?, if_pos rfl, hj] at ht
        cases ht; cases hs
      · rename_i hf
        rw [if_neg hf]
        split at ht
        all_goals try (rw [World.setThread_threads_get?, if_pos rfl, hj] at ht; cases ht; cases hs)
        rename_i hk _
        exact ⟨⟨_, World.await_started hj (by rw [hst]; simp) ht hs⟩, hk⟩
    | integrated =>
      have := congrArg ThreadStage.linkedRun hst'
      rw [IntegrationResult.dispatch_linkedRun] at this
      cases this
    | _ => cases hst'

/-- A thread has read a run before, or has just read it from the exit of its command. -/
theorem reads_origin {j : AttemptId} {t' : Thread}
    (ht : (w.step h config a).daemon.threads.get? j = some t') (hs : t'.stage = .began r) :
    ∃ t, w.daemon.threads.get? j = some t ∧ t'.task = t.task ∧ (t.stage = .began r ∨
      ∃ p now pid fault, t.stage = .beginning p ∧ w.exits.get? p = some (.begun r) ∧
        a = .thread j now pid fault) := by
  cases World.thread_origin h config w a ht with
  | kept ht => exact ⟨t', ht, rfl, .inl hs⟩
  | reserved _ _ _ he => rw [he] at hs; cases hs
  | @moved t now pid fault ht htask ha hm =>
    rw [hs] at hm
    generalize hst : t.stage = s at hm
    generalize hst' : ThreadStage.began r = s' at hm
    cases hm with
    | stays => exact ⟨t, ht, htask, .inl hst⟩
    | begun hp => cases hst'; exact ⟨t, ht, htask, .inr ⟨_, now, pid, fault, hst, hp, ha⟩⟩
    | integrated =>
      have := congrArg ThreadStage.linkedRun hst'
      rw [IntegrationResult.dispatch_linkedRun] at this
      cases this
    | _ => cases hst'

/-- A process number that was used stays so. -/
theorem World.used_stays (h : History) (config : Config) (a : Action) {p : Pid}
    (hp : ¬w.Unused p) : ¬(w.step h config a).Unused p := by
  rintro ⟨hproc, hexit⟩
  refine hp ⟨?_, ?_⟩
  · cases hold : w.procs.get? p with
    | none => rfl
    | some stage =>
      cases World.proc_fate h config w a hold with
      | runs hp | stepped _ _ hp => rw [hp] at hproc; cases hproc
      | left _ _ _ he | killed _ he =>
        rw [he] at hexit
        cases hx : w.exits.get? p <;> rw [hx] at hexit <;> cases hexit
  · cases hold : w.exits.get? p with
    | none => rfl
    | some e => rw [World.exit_kept h config w a hold] at hexit; cases hexit

/-- A run on its way was so before, or has just been reserved. -/
theorem onItsWay_origin (hw : (w.step h config a).OnItsWay r) :
    w.OnItsWay r ∨ w.db.store.runs.get? r = none := by
  cases hw with
  | settingUp hp hb =>
    cases beginning_origin hp hb with
    | before hp hb => exact .inl (.settingUp hp hb)
    | reserved _ hn => exact .inr hn
  | returned ht hs he =>
    left
    cases World.exit_origin h config w a he with
    | kept he =>
      rcases waits_origin ht hs with ⟨t, ht, hs, -⟩ | ⟨hu, -⟩
      · exact .returned ht hs he
      · rw [hu.2] at he; cases he
    | exited _ hp _ hst => exact .settingUp hp (by rw [(Stage.step_begun hst).1]; rfl)
    | killed _ he => cases he
  | read ht hs =>
    left
    obtain ⟨t, ht, -, hs | ⟨p, -, -, -, hs, he, -⟩⟩ := reads_origin ht hs
    · exact .read ht hs
    · exact .returned ht hs he

/-! ### One owner -/

/-- A run is returned by one command, read by one thread and linked to one attempt, in this
    order. -/
structure ClaimInv (w : World) : Prop where
  once : ∀ p q r, w.exits.get? p = some (.begun r) → w.exits.get? q = some (.begun r) → p = q
  started : ∀ j t p, w.daemon.threads.get? j = some t → t.stage = .beginning p → ¬w.Unused p
  waiting : ∀ j k t u p, w.daemon.threads.get? j = some t → w.daemon.threads.get? k = some u →
    t.stage = .beginning p → u.stage = .beginning p → j = k
  reading : ∀ j k t u r, w.daemon.threads.get? j = some t → w.daemon.threads.get? k = some u →
    t.stage = .began r → u.stage = .began r → j = k
  apart : ∀ j k t u p r, w.daemon.threads.get? j = some t → w.daemon.threads.get? k = some u →
    t.stage = .beginning p → w.exits.get? p = some (.begun r) → u.stage ≠ .began r
  fresh : ∀ r, w.OnItsWay r → ∀ j x, w.db.graph.attempts.get? j = some x → x.runId ≠ some r
  linked : ∀ j k x y r, w.db.graph.attempts.get? j = some x → w.db.graph.attempts.get? k = some y →
    x.runId = some r → y.runId = some r → j = k

/-- An attempt was linked to the run before, or its thread has just linked it. -/
theorem linkedRun_origin {j : AttemptId} {x' : Attempt}
    (hx : (w.step h config a).db.graph.attempts.get? j = some x') (hr : x'.runId = some r) :
    (∃ x, w.db.graph.attempts.get? j = some x ∧ x.runId = some r) ∨
      ∃ now pid rt, a = .thread j now pid false ∧
        w.daemon.threads.get? j = some ⟨rt, .began r⟩ := by
  by_cases ha : NoLink w a
  · rcases (LinkRows.of_step (graph_step h config w a) ha).attempt j x' hx with
      ⟨x, hx, hk⟩ | ⟨hn, -⟩
    · exact .inl ⟨x, hx, hk.2 ▸ hr⟩
    · rw [hn] at hr; cases hr
  · simp only [NoLink, not_forall, not_not] at ha
    obtain ⟨k, now, pid, fault, rt, q, rfl, hk⟩ := ha
    cases fault with
    | true => rw [World.step_began_fault hk] at hx; exact .inl ⟨x', hx, hr⟩
    | false =>
      rw [World.step_began hk] at hx
      change (World.setAttemptLinks w.db.graph k q now).attempts.get? j = some x' at hx
      rw [World.setAttemptLinks, Table.get?_updateAt] at hx
      split at hx
      · rename_i hjk
        subst hjk
        obtain ⟨x, -, rfl⟩ := Option.map_eq_some_iff.1 hx
        cases hr
        exact .inr ⟨now, pid, rt, rfl, hk⟩
      · exact .inl ⟨x', hx, hr⟩

/-- What a `begin` command has just returned, no thread and no attempt knows. -/
theorem BeginInv.unbegun (hB : BeginInv w) {p : Pid} {stage : Stage}
    (hp : w.procs.get? p = some stage) (hb : stage.beginning = some r) : ¬w.Begun r :=
  fun hbegun => hB.finished r hbegun p stage hp hb

/-- A run is returned once. -/
theorem ClaimInv.step_once (hI : ClaimInv w) (hB : BeginInv w) {p q : Pid}
    (hp : (w.step h config a).exits.get? p = some (.begun r))
    (hq : (w.step h config a).exits.get? q = some (.begun r)) : p = q := by
  have hstage : ∀ {stage : Stage} {now fresh fault} {s : Site},
      stage.step h now fresh fault w.site = (s, .exit (.begun r)) → stage.beginning = some r := by
    intro stage now fresh fault s hst
    rw [(Stage.step_begun hst).1]
    rfl
  cases World.exit_origin h config w a hp with
  | kept hp =>
    cases World.exit_origin h config w a hq with
    | kept hq => exact hI.once p q r hp hq
    | exited _ hproc _ hst => exact absurd ⟨p, hp⟩ (hB.unbegun hproc (hstage hst))
    | killed _ he => cases he
  | exited ha hproc _ hst =>
    cases World.exit_origin h config w a hq with
    | kept hq => exact absurd ⟨q, hq⟩ (hB.unbegun hproc (hstage hst))
    | exited ha' => rw [ha] at ha'; cases ha'; rfl
    | killed _ he => cases he
  | killed _ he => cases he

/-- A thread that waits for the command that returned a run is the only one that will read it. -/
theorem ClaimInv.step_apart (hI : ClaimInv w) (hB : BeginInv w) (hL : LinkInv w) {j k : AttemptId}
    {t u : Thread} {p : Pid} (ht : (w.step h config a).daemon.threads.get? j = some t)
    (hu : (w.step h config a).daemon.threads.get? k = some u) (hs : t.stage = .beginning p)
    (he : (w.step h config a).exits.get? p = some (.begun r)) : u.stage ≠ .began r := by
  intro hr
  rcases waits_origin ht hs with ⟨t₀, ht₀, hs₀, -⟩ | ⟨hn, -, -, now, pid, fault, rfl⟩
  · cases World.exit_origin h config w a he with
    | kept he =>
      obtain ⟨u₀, hu₀, -, hr₀ | ⟨q, -, -, -, hq, heq, -⟩⟩ := reads_origin hu hr
      · exact hI.apart j k t₀ u₀ p r ht₀ hu₀ hs₀ he hr₀
      · -- the reader is the thread that waits, and it waits no more
        obtain rfl := hI.once p q r he heq
        obtain rfl := hI.waiting j k t₀ u₀ p ht₀ hu₀ hs₀ hq
        rw [ht] at hu
        cases hu
        rw [hs] at hr
        cases hr
    | exited ha hproc _ hst =>
      have hb := hB.unbegun hproc (r := r) (by rw [(Stage.step_begun hst).1]; rfl)
      obtain ⟨u₀, hu₀, -, hr₀ | ⟨-, now', pid', fault', -, -, ha'⟩⟩ := reads_origin hu hr
      · exact hb (hL.began k u₀ r hu₀ hr₀)
      · rw [ha] at ha'; cases ha'
    | killed _ he => cases he
  · cases World.exit_origin h config w _ he with
    | kept he => rw [hn.2] at he; cases he
    | exited ha => cases ha
    | killed _ he => cases he

/-- Once a thread has linked its run, nobody is about to link it again. -/
theorem ClaimInv.linked_over (hI : ClaimInv w) (hB : BeginInv w) (hL : LinkInv w) {j : AttemptId}
    {now : Time} {pid : Pid} {rt : ReservedTask} (hj : w.daemon.threads.get? j = some ⟨rt, .began r⟩) :
    ¬(w.step h config (.thread j now pid false)).OnItsWay r := by
  have hb := hL.began j _ r hj rfl
  intro hw
  cases hw with
  | settingUp hp hbeg => exact (hB.step h config _).finished r hb.stays _ _ hp hbeg
  | @returned k t p ht hs he =>
    cases World.exit_origin h config w _ he with
    | kept he =>
      rcases waits_origin ht hs with ⟨t₀, ht₀, hs₀, -⟩ | ⟨hn, -⟩
      · exact hI.apart k j t₀ _ p r ht₀ hj hs₀ he rfl
      · rw [hn.2] at he; cases he
    | exited ha => cases ha
    | killed _ he => cases he
  | @read k t ht hs =>
    obtain ⟨t₀, ht₀, -, hs₀ | ⟨p, -, -, -, hs₀, he, -⟩⟩ := reads_origin ht hs
    · obtain rfl := hI.reading k j t₀ _ r ht₀ hj hs₀ rfl
      rw [World.step_began hj, World.setThread_threads_get?, if_pos rfl] at ht
      change (w.daemon.threads.get? k).map _ = some t at ht
      rw [hj] at ht
      cases ht
      cases hs
    · exact hI.apart k j t₀ _ p r ht₀ hj hs₀ he rfl

theorem ClaimInv.step (hI : ClaimInv w) (hB : BeginInv w) (hL : LinkInv w) (h : History)
    (config : Config) (a : Action) : ClaimInv (w.step h config a) := by
  refine ⟨fun p q r hp hq => hI.step_once hB hp hq, fun j t p ht hs => ?_,
    fun j k t u p ht hu hs hs' => ?_, fun j k t u r ht hu hs hs' => ?_,
    fun j k t u p r ht hu hs he => hI.step_apart hB hL ht hu hs he, fun r hw j x hx hr => ?_,
    fun j k x y r hx hy hr hr' => ?_⟩
  · rcases waits_origin ht hs with ⟨t₀, ht₀, hs₀, -⟩ | ⟨-, ⟨stage, hp⟩, -⟩
    · exact World.used_stays h config a (hI.started j t₀ p ht₀ hs₀)
    · rintro ⟨hn, -⟩
      rw [hp] at hn
      cases hn
  · rcases waits_origin ht hs with ⟨t₀, ht₀, hs₀, -⟩ | ⟨hn, -, -, now, pid, fault, ha⟩
    · rcases waits_origin hu hs' with ⟨u₀, hu₀, hs₀', -⟩ | ⟨hn, -⟩
      · exact hI.waiting j k t₀ u₀ p ht₀ hu₀ hs₀ hs₀'
      · exact absurd hn (hI.started j t₀ p ht₀ hs₀)
    · rcases waits_origin hu hs' with ⟨u₀, hu₀, hs₀', -⟩ | ⟨-, -, -, now', pid', fault', ha'⟩
      · exact absurd hn (hI.started k u₀ p hu₀ hs₀')
      · rw [ha] at ha'
        cases ha'
        rfl
  · obtain ⟨t₀, ht₀, -, hs₀ | ⟨p, now, pid, fault, hp, he, ha⟩⟩ := reads_origin ht hs
    · obtain ⟨u₀, hu₀, -, hs₀' | ⟨p, -, -, -, hp, he, -⟩⟩ := reads_origin hu hs'
      · exact hI.reading j k t₀ u₀ r ht₀ hu₀ hs₀ hs₀'
      · exact absurd hs₀ (hI.apart k j u₀ t₀ p r hu₀ ht₀ hp he)
    · obtain ⟨u₀, hu₀, -, hs₀' | ⟨q, now', pid', fault', hq, heq, ha'⟩⟩ := reads_origin hu hs'
      · exact absurd hs₀' (hI.apart j k t₀ u₀ p r ht₀ hu₀ hp he)
      · rw [ha] at ha'
        cases ha'
        rfl
  · rcases linkedRun_origin hx hr with ⟨x₀, hx₀, hr₀⟩ | ⟨now, pid, rt, rfl, hj⟩
    · rcases onItsWay_origin hw with hold | hn
      · exact hI.fresh r hold j x₀ hx₀ hr₀
      · obtain ⟨y, hy, -⟩ := hB.row r (hL.linked j x₀ r hx₀ hr₀)
        rw [hn] at hy
        cases hy
    · exact hI.linked_over hB hL hj hw
  · rcases linkedRun_origin hx hr with ⟨x₀, hx₀, hr₀⟩ | ⟨now, pid, rt, ha, hj⟩
    · rcases linkedRun_origin hy hr' with ⟨y₀, hy₀, hr₀'⟩ | ⟨-, -, rt, -, hk⟩
      · exact hI.linked j k x₀ y₀ r hx₀ hy₀ hr₀ hr₀'
      · exact absurd hr₀ (hI.fresh r (.read hk rfl) j x₀ hx₀)
    · rcases linkedRun_origin hy hr' with ⟨y₀, hy₀, hr₀'⟩ | ⟨now', pid', rt', ha', hk⟩
      · exact absurd hr₀' (hI.fresh r (.read hj rfl) k y₀ hy₀)
      · rw [ha] at ha'
        cases ha'
        rfl

theorem claimInv_reachable {ok : Action → World → Prop}
    (hw : (machine h config).Reachable ok w) : ClaimInv w := by
  induction hw with
  | start hs =>
    obtain ⟨projects, -, rfl⟩ := hs
    refine ⟨fun _ _ _ hp => ?_, fun _ _ _ ht => ?_, fun _ _ _ _ _ ht => ?_, fun _ _ _ _ _ ht => ?_,
      fun _ _ _ _ _ _ ht => ?_, fun _ _ _ _ hx => ?_, fun _ _ _ _ _ hx => ?_⟩
    · cases hp
    all_goals first | cases ht | cases hx
  | step a hw _ ih => exact ih.step (beginInv_reachable hw) (linkInv_reachable hw) h config a

end HermesOps
