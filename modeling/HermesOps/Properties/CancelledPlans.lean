import HermesOps.Properties.TerminalAgreement
import HermesOps.Properties.GateWrites
import HermesOps.Properties.RunLinks

/-! What a cancelled plan leaves behind. Four transactions cancel a plan. The two that cancel it with
    its objective look for active runs first; the plan-level command only looks for `RUNNING` tasks,
    and a planner that hands over a plan whose objective was cancelled meanwhile looks for nothing.
    So a run that waits for a human, or that recovers, may stay active under a `CANCELLED` plan, with
    its project lock and its approval; and a late transaction of a recovery can reopen a run that has
    ended. -/

namespace HermesOps

open Schemes

/-- No run linked to a `CANCELLED` plan is active, holds a lock or waits for a human. -/
def CancellationComplete (d : Database) : Prop :=
  ∀ p plan, d.graph.plans.get? p = some plan → plan.status = .cancelled →
    ∀ r ∈ d.graph.linkedRuns p, (∀ x, d.store.runs.get? r = some x → x.status.isActive = false) ∧
      d.store.lockPresent r = false ∧ d.store.gated r = false

/-! ### The steps that leave work behind -/

/-- The run is active or waits for a human. -/
def Store.atWork (s : Store) (r : RunId) : Bool :=
  (s.runs.get? r).any (fun x => x.status.isActive) || s.gated r

/-- A run linked to the plan is at work. -/
def Database.planAtWork (d : Database) (p : PlanId) : Bool :=
  (d.graph.linkedRuns p).any d.store.atWork

/-- The plan has not ended. -/
def Graph.planOpen (g : Graph) (p : PlanId) : Bool :=
  (g.plans.get? p).any fun plan => ¬plan.status.isTerminal

/-- The run is linked to a `CANCELLED` plan. -/
def Graph.cancelledRun (g : Graph) (r : RunId) : Bool :=
  g.plans.any fun p plan => plan.status = .cancelled ∧ r ∈ g.linkedRuns p

/-- The run that a late transaction of the stage reopens. -/
def Stage.reopens (s : Store) (fresh : Nat) (stage : Stage) : Option RunId :=
  match stage with
  | .forcing r | .blocking r _ => if stage.overwrites s fresh then some r else none
  | _ => none

/-- The action cancels a plan with a run at work, links a run at work to a `CANCELLED` plan, or
    reopens a run of one. -/
def leavesWork (a : Action) (w : World) : Bool :=
  match a with
  | .graph (.cancelPlan p _) =>
    w.db.graph.planOpen p ∧ runningTaskCount w.db.graph (some p) = 0 ∧ w.db.planAtWork p
  | .planner i (.success _) =>
    match w.daemon.planners.get? i with
    | some ⟨id, .generated p⟩ =>
      (w.db.queue.objectives.get? id).any (fun o => o.status = .cancelRequested) ∧
        w.db.graph.planOpen p ∧ w.db.planAtWork p
    | _ => false
  | .objective (.synchronize _) =>
    w.db.queue.objectives.any fun _ o => sweepCancels w.db o ∧ o.planId.any fun p =>
      w.db.graph.planOpen p ∧ (w.db.graph.linkedRuns p).any w.db.store.gated
  | .thread j _ _ false =>
    match w.daemon.threads.get? j with
    | some ⟨rt, .began r⟩ => w.db.store.atWork r ∧
        (w.db.graph.plans.get? rt.planId).any fun plan => plan.status = .cancelled
    | _ => false
  | .process pid _ fresh false =>
    (w.procs.get? pid).any fun stage => (stage.reopens w.db.store fresh).any w.db.graph.cancelledRun
  | _ => false

variable {h : History} {config : Config} {w w' : World} {a : Action} {p : PlanId} {r : RunId}

/-! ### Gates and runs -/

/-- A gated run is neither `CANCELLED` nor unknown: the rollback that cancels it resolves its gate. -/
def GatesOpen (d : Store) : Prop :=
  ∀ r, d.gated r = true → ∃ x, d.runs.get? r = some x ∧
    (x.status.isActive = true ∨ x.status = .failed ∨ x.status = .completed)

theorem GatesOpen.step (hI : GatesOpen w.db.store) (h : History) (config : Config) (a : Action) :
    GatesOpen (w.step h config a).db.store := by
  intro r hr
  rcases World.gate_asked h config w a hr with hold | ⟨x', hx', hst⟩
  · obtain ⟨x, hx, hstatus⟩ := hI r hold
    obtain ⟨wr, hwr, hs⟩ := World.store_step h config w a
    obtain ⟨x', hx', hm⟩ := hs.run r x hx
    refine ⟨x', hx', ?_⟩
    cases hm with
    | kept _ hst => rw [hst]; exact hstatus
    | @rolledBack stage _ _ hst =>
      cases hwr with
      | process hp hsucc =>
        have hno := hsucc.approvals.resolved r (by rcases hst with rfl | rfl <;> rfl)
        rw [World.db, hno] at hr
        cases hr
    | aborted _ hst => exact .inr (.inl hst)
    | finalized _ _ _ _ _ hst | resumed _ _ hst => exact .inr (.inr hst)
    | activated _ _ hst | submitted _ _ _ hst | rollback _ _ _ hst | waiting _ _ _ _ hst
      | committed _ _ _ _ _ _ _ _ _ hst | ambiguous _ _ _ hst | forced _ hst | blocked _ hst
      | marked _ _ _ hst => rw [hst]; exact .inl rfl
  · exact ⟨x', hx', .inl (by rw [hst]; rfl)⟩

/-! ### Cancelling a plan -/

/-- An objective is `CANCELLED` only over a plan that has ended. -/
def EndedWith (d : Database) : Prop :=
  ∀ id o p x, d.queue.objectives.get? id = some o → o.planId = some p → o.status = .cancelled →
    d.graph.plans.get? p = some x → x.status.isTerminal = true

theorem EndedWith.step (hE : EndedWith w.db) (hI : AgreementInv w) (h : History) (config : Config)
    (a : Action) : EndedWith (w.step h config a).db := by
  intro id o' p x' ho' hp hs hx'
  cases ho : w.db.queue.objectives.get? id with
  | none => obtain ⟨s, now, rfl, -⟩ := objective_new h config w a ho ho'; cases hs
  | some o =>
    obtain ⟨o'', ho'', hm⟩ := objective_move h config w a ho
    obtain rfl : o' = o'' := by rw [ho'] at ho''; simpa using ho''
    have hsome : (w.db.graph.plans.get? p).isSome := by
      rcases hm.plan_cases hp with hop | ⟨hsome, -⟩
      · exact hI.linked id o p ho hop
      · exact hsome
    obtain ⟨x, hx⟩ := Option.isSome_iff_exists.1 hsome
    obtain ⟨x'', hx'', hmove⟩ := linked_plan_forth (graph_step h config w a) hx ho' hp
    obtain rfl : x' = x'' := by rw [hx'] at hx''; simpa using hx''
    rcases hm.outcome_cases hI ho hp (s := .cancelled) (by rw [hs]; rfl) with
      ⟨hst, hop⟩ | hst | ⟨-, hc⟩
    · have hterm := hE id o p x ho hop (by rw [← hst, hs]) hx
      rw [hmove.terminal_stays hterm]
      exact hterm
    · obtain ⟨y, hy, hys⟩ := planStatus_some.1 hst
      obtain rfl : x = y := by rw [hx] at hy; simpa using hy
      have hterm : x.status.isTerminal = true := by rw [hys]; rfl
      rw [hmove.terminal_stays hterm]
      exact hterm
    · exact (cancelsWith_step h config ho hsome hc).2 x' hx'

/-- A plan is cancelled with an objective or by the plan-level command. -/
theorem PlanMove.cancel_cases (hI : AgreementInv w) (hE : EndedWith w.db) {x x' : Plan}
    (hm : PlanMove w (w.step h config a) p x a x') (hx : w.db.graph.plans.get? p = some x)
    (ht : x.status.isTerminal = false) (hc : x'.status = .cancelled) :
    (∃ id o, w.db.queue.objectives.get? id = some o ∧ w.cancelsWith id o a = some p) ∨
      ∃ now, a = .graph (.cancelPlan p now) := by
  cases hm with
  | kept hst => rw [← hst, hc] at ht; cases ht
  | blocked _ hst | promoted _ _ _ hst | planned _ _ hst | activated _ hst =>
    rw [hst] at hc; cases hc
  | refreshed _ _ hst => rcases hst with hst | hst | hst | ⟨hst, -⟩ <;> rw [hst] at hc <;> cases hc
  | removed => exact .inr ⟨_, rfl⟩
  | @cancelled _ id o' _ _ _ ho' hp hs =>
    left
    cases ho : w.db.queue.objectives.get? id with
    | none => obtain ⟨s, now, rfl, -⟩ := objective_new h config w a ho ho'; cases hs
    | some o =>
      obtain ⟨o'', ho'', hmove⟩ := objective_move h config w a ho
      obtain rfl : o' = o'' := by rw [ho'] at ho''; simpa using ho''
      rcases hmove.outcome_cases hI ho hp (s := .cancelled) (by rw [hs]; rfl) with
        ⟨hst, hop⟩ | hst | ⟨-, hcw⟩
      · rw [hE id o p x ho hop (by rw [← hst, hs]) hx] at ht; cases ht
      · obtain ⟨y, hy, hys⟩ := planStatus_some.1 hst
        obtain rfl : x = y := by rw [hx] at hy; simpa using hy
        rw [hys] at ht; cases ht
      · exact ⟨id, o, ho, hcw⟩

/-! ### The runs of a cancelled plan -/

theorem Store.atWork_eq_false {d : Store} : d.atWork r = false ↔
    (∀ x, d.runs.get? r = some x → x.status.isActive = false) ∧ d.gated r = false := by
  unfold atWork
  cases hr : d.runs.get? r <;> simp

theorem mem_activeRuns {d : Database} (hn : activeRunCount d (some p) = 0) {x : Run}
    (hr : r ∈ d.graph.linkedRuns p) (hx : d.store.runs.get? r = some x) :
    x.status.isActive = false := by
  simp only [activeRunCount, List.length_eq_zero_iff, List.dedup_eq_nil, List.filter_eq_nil_iff]
    at hn
  simpa [hx] using hn r hr

theorem Stage.Succeeds.applied {now : Time} {fresh : Nat} {s s' : Site} {owner : String}
    {p : Progress} (hs : (Stage.blocking r owner).Succeeds h now fresh s s' p) :
    ∃ store, applyBlock s.db.store r owner fresh now = .ok store := by
  cases hs with
  | blocking hb => exact ⟨_, hb⟩

/-- A run that is not at work and that nothing reopens stays so. -/
theorem atWork_stays (hB : BeginInv w) (hO : LocksOpen w.db.store) (hb : w.Begun r)
    (hr : w.db.store.atWork r = false)
    (hno : ∀ pid now fresh stage, a = .process pid now fresh false →
      w.procs.get? pid = some stage → stage.reopens w.db.store fresh ≠ some r) :
    (w.step h config a).db.store.atWork r = false := by
  obtain ⟨hidle, hgate⟩ := Store.atWork_eq_false.1 hr
  obtain ⟨x, hx, hstatus⟩ := hB.row r hb
  have hfinal : x.status.isFinal = true := by
    rcases hstatus with hact | hfinal
    · rw [hidle x hx] at hact; cases hact
    · exact hfinal
  have hnolock := hO.of_terminal hx (RunStatus.terminal_of_final hfinal)
  obtain ⟨wr, hwr, hs⟩ := World.store_step h config w a
  have hstay : ∀ x', (w.step h config a).db.store.runs.get? r = some x' →
      x'.status.isActive = false := by
    intro x' hx'
    obtain ⟨x'', hx'', hm⟩ := hs.run r x hx
    obtain rfl : x' = x'' := by rw [World.db] at hx'; rw [hx'] at hx''; simpa using hx''
    -- what a write to a run that has ended can be
    cases hm with
    | kept _ hst => rw [hst]; exact hidle x hx
    | aborted _ hst | rolledBack _ _ hst | finalized _ _ _ _ _ hst | resumed _ _ hst =>
      rw [hst]; rfl
    | activated =>
      cases hwr with
      | process hp => exact absurd rfl (hB.finished r hb _ _ hp)
    | submitted _ _ hst | waiting _ _ _ hst | committed _ _ _ _ hst | ambiguous _ _ hst =>
      rw [hst] at hfinal; cases hfinal
    | rollback _ hst =>
      cases hx' : x.status <;>
        simp [hx', RunStatus.isFinal, RunStatus.canRollBack] at hfinal hst
    | forced =>
      cases hwr with
      | process hp =>
        refine absurd ?_ (hno _ _ _ _ rfl hp)
        simp [Stage.reopens, Stage.overwrites, hx, hfinal]
    | blocked =>
      cases hwr with
      | process hp hsucc =>
        refine absurd ?_ (hno _ _ _ _ rfl hp)
        obtain ⟨store, hblock⟩ := hsucc.applied
        obtain ⟨y, locks, hy, hl, hask, -⟩ := applyBlock_ok hblock
        obtain rfl : x = y := by rw [World.db] at hx; rw [hx] at hy; simpa using hy
        have hfree : (w.site.db.store.locks.get? x.projectId).all (fun l => l.runId = r) = true := by
          rcases ensureLockForBlock_ok hl with ⟨-, l, hl, hlr⟩ | ⟨l, -, -, hins⟩
          · simp [hl, hlr]
          · simp [Table.get?_of_insert hins]
        rw [World.db] at hx ⊢
        simp [Stage.reopens, Stage.overwrites, hx, hfinal, hfree, hask]
    | marked _ hd hl =>
      cases hst : x.status <;> simp only [hst, RunStatus.isFinal, Bool.false_eq_true] at hfinal
      · exact absurd hst hd
      · rw [World.db] at hnolock; rw [hl hst] at hnolock; cases hnolock
  refine Store.atWork_eq_false.2 ⟨hstay, ?_⟩
  by_contra hg
  rcases World.gate_asked h config w a (by simpa using hg) with hold | ⟨x', hx', hst⟩
  · rw [hgate] at hold; cases hold
  · have := hstay x' hx'
    rw [hst] at this
    cases this

/-- What the objective-level cancel has checked: the runs of the plan have ended, without a gate. -/
theorem atWork_of_idle (hB : BeginInv w) (hG : GatesOpen w.db.store) (hb : w.Begun r)
    (hr : r ∈ w.db.graph.linkedRuns p) (hn : activeRunCount w.db (some p) = 0)
    (hp : integrationPointOfNoReturn w.db (some p) = false) : w.db.store.atWork r = false := by
  refine Store.atWork_eq_false.2 ⟨fun x hx => mem_activeRuns hn hr hx, ?_⟩
  by_contra hg
  obtain ⟨x, hx, hst⟩ := hG r (by simpa using hg)
  have hidle := mem_activeRuns hn hr hx
  rcases hst with hst | hst | hst
  · rw [hst] at hidle; cases hidle
  · obtain ⟨y, hy, hrow⟩ := hB.row r hb
    obtain rfl : x = y := by rw [hx] at hy; simpa using hy
    rw [hst] at hrow
    rcases hrow with hrow | hrow <;> cases hrow
  · have : integrationPointOfNoReturn w.db (some p) = true :=
      List.any_eq_true.2 ⟨r, hr, by simp [hx, hst]⟩
    rw [hp] at this; cases this

/-- The runs of a plan that is cancelled in a step that leaves no work behind. -/
theorem atWork_of_cancel (hB : BeginInv w) (hG : GatesOpen w.db.store) {id : ObjectiveId}
    {o : Objective} {x : Plan} (ho : w.db.queue.objectives.get? id = some o)
    (hc : w.cancelsWith id o a = some p) (hok : leavesWork a w = false)
    (hx : w.db.graph.plans.get? p = some x) (ht : x.status.isTerminal = false) (hb : w.Begun r)
    (hr : r ∈ w.db.graph.linkedRuns p) : w.db.store.atWork r = false := by
  have hopen : w.db.graph.planOpen p = true := by simp [Graph.planOpen, hx, ht]
  have command : (¬o.status.isTerminal ∧ ¬integrationPointOfNoReturn w.db o.planId ∧
      o.isIdle w.db) → o.planId = some p → w.db.store.atWork r = false := by
    rintro ⟨-, hpnr, hidle⟩ hop
    rw [hop] at hpnr
    obtain ⟨-, -, hn⟩ := of_decide_eq_true hidle
    rw [hop] at hn
    exact atWork_of_idle hB hG hb hr hn (by simpa using hpnr)
  unfold World.cancelsWith at hc
  split at hc
  · split at hc
    · rename_i hcond; exact command hcond.2 hc
    · cases hc
  · split at hc
    · rename_i hcond; exact command hcond.2 hc
    · cases hc
  · split at hc
    · rename_i _ now hsweep
      have hgates : (w.db.graph.linkedRuns p).any w.db.store.gated = false := by
        by_contra hg
        have : leavesWork (.objective (.synchronize now)) w = true := by
          simp only [leavesWork]
          refine Table.any_iff.2 ⟨id, o, ho, decide_eq_true ⟨hsweep, ?_⟩⟩
          rw [hc, Option.any_some]
          exact decide_eq_true ⟨hopen, by simpa using hg⟩
        rw [hok] at this; cases this
      refine Store.atWork_eq_false.2 ⟨fun y hy => ?_, by simpa using List.any_eq_false.1 hgates r hr⟩
      obtain ⟨-, -, hpend⟩ := of_decide_eq_true hsweep
      rw [hc] at hpend
      have := List.any_eq_false.1 (by simpa [cancellationCleanupPending] using hpend :
        (w.db.graph.linkedRuns p).any _ = false) r hr
      simp only [hy, Bool.not_eq_true', Bool.not_eq_false] at this
      cases hs : y.status <;> simp [hs, RunStatus.isTerminal, RunStatus.isActive] at this ⊢
    · cases hc
  · rename_i i now
    split at hc
    · rename_i _ j q hpl
      split at hc
      · rename_i hcond
        cases hc
        obtain ⟨rfl, hst, -⟩ := hcond
        by_contra hw
        have : leavesWork (.planner i (.success now)) w = true := by
          simp only [leavesWork, hpl, ho, Option.any_some, hst, hopen, decide_true, true_and]
          exact decide_eq_true (List.any_eq_true.2 ⟨r, hr, by simpa using hw⟩)
        rw [hok] at this; cases this
      · cases hc
    · cases hc
  · cases hc

/-- The plan-level command refuses a plan with a `RUNNING` task. -/
theorem cancelPlan_idle {now : Time} {x x' : Plan} (hx : w.db.graph.plans.get? p = some x)
    (ht : x.status.isTerminal = false)
    (hx' : (w.step h config (.graph (.cancelPlan p now))).db.graph.plans.get? p = some x')
    (hc : x'.status = .cancelled) : runningTaskCount w.db.graph (some p) = 0 := by
  by_contra hn
  have hrefused : commandCancelPlan w.db.graph p now =
      .error "Cannot cancel a plan while a task is RUNNING" := by
    simp [commandCancelPlan, hx, ht, hn]
  simp only [World.step, World.graphStep, hrefused] at hx'
  rw [hx] at hx'
  cases hx'
  rw [hc] at ht
  cases ht

/-- Every run linked to a `CANCELLED` plan has ended, without a gate. -/
def CancelledIdle (d : Database) : Prop :=
  ∀ p plan, d.graph.plans.get? p = some plan → plan.status = .cancelled →
    ∀ r ∈ d.graph.linkedRuns p, d.store.atWork r = false

/-- What the completeness of a cancellation rests on. -/
structure CancelInv (w : World) : Prop where
  setup : BeginInv w
  links : LinkInv w
  agreement : AgreementInv w
  locks : LocksOpen w.db.store
  gates : GatesOpen w.db.store
  ended : EndedWith w.db
  idle : CancelledIdle w.db

theorem CancelledIdle.step (hI : CancelInv w) (h : History) (config : Config) (a : Action)
    (hok : leavesWork a w = false) : CancelledIdle (w.step h config a).db := by
  intro p x' hx' hc r hr
  rcases (graph_step h config w a).plan_back hx' with ⟨x, hx, hm⟩ | ⟨-, hst⟩
  swap
  · rcases hst with hst | hst <;> rw [hst] at hc <;> cases hc
  rcases linkedRuns_origin hI.links hr with hold | ⟨j, now, pid, rt, rfl, hj, hp⟩
  · have hb := hI.links.begun hold
    by_cases ht : x.status.isTerminal = true
    · have hcx : x.status = .cancelled := (hm.terminal_stays ht).symm.trans hc
      refine atWork_stays hI.setup hI.locks hb (hI.idle p x hx hcx r hold) ?_
      rintro pid now fresh stage rfl hproc hre
      have : leavesWork (.process pid now fresh false) w = true := by
        simp only [leavesWork, hproc, Option.any_some, hre]
        exact Table.any_iff.2 ⟨p, x, hx, decide_eq_true ⟨hcx, hold⟩⟩
      rw [hok] at this; cases this
    · rw [Bool.not_eq_true] at ht
      rcases hm.cancel_cases hI.agreement hI.ended hx ht hc with ⟨id, o, ho, hcw⟩ | ⟨now, rfl⟩
      · refine atWork_stays hI.setup hI.locks hb
          (atWork_of_cancel hI.setup hI.gates ho hcw hok hx ht hb hold) ?_
        rintro pid now fresh stage rfl
        cases hcw
      · refine atWork_stays hI.setup hI.locks hb ?_ (fun _ _ _ _ h => by cases h)
        by_contra hw
        have hrun := cancelPlan_idle hx ht hx' hc
        have : leavesWork (.graph (.cancelPlan p now)) w = true := by
          simp only [leavesWork, hrun, true_and]
          refine decide_eq_true ⟨by simp [Graph.planOpen, hx, ht], ?_⟩
          exact List.any_eq_true.2 ⟨r, hold, by simpa using hw⟩
        rw [hok] at this; cases this
  · rw [World.step_began hj] at hx' ⊢
    change w.db.graph.plans.get? p = some x' at hx'
    change w.db.store.atWork r = false
    by_contra hw
    have : leavesWork (.thread j now pid false) w = true := by
      simp only [leavesWork, hj, hp, hx', Option.any_some, hc, decide_true]
      exact decide_eq_true ⟨by simpa using hw, trivial⟩
    rw [hok] at this; cases this

theorem CancelInv.step (hI : CancelInv w) (h : History) (config : Config) (a : Action)
    (hok : leavesWork a w = false) : CancelInv (w.step h config a) := by
  obtain ⟨wr, -, hs⟩ := World.store_step h config w a
  exact ⟨hI.setup.step h config a, hI.links.step h config a, hI.agreement.step h config a,
    hI.locks.step hs, hI.gates.step h config a, hI.ended.step hI.agreement h config a,
    CancelledIdle.step hI h config a hok⟩

theorem cancelInv_start (hw : (machine h config).start w) : CancelInv w := by
  have hB := beginInv_reachable (.of_start hw)
  have hL := linkInv_reachable (.of_start hw)
  have hA := agreementInv_reachable (.of_start hw)
  have hO := locksOpen_reachable (.of_start hw)
  obtain ⟨projects, -, rfl⟩ := hw
  refine ⟨hB, hL, hA, hO, fun r hr => ?_, fun _ _ _ _ ho => ?_,
    fun _ _ hp => ?_⟩
  · cases hr
  · cases ho
  · cases hp

theorem CancelInv.complete (hI : CancelInv w) : CancellationComplete w.db := by
  intro p plan hp hc r hr
  obtain ⟨hidle, hgate⟩ := Store.atWork_eq_false.1 (hI.idle p plan hp hc r hr)
  refine ⟨hidle, ?_, hgate⟩
  obtain ⟨x, hx, hst⟩ := hI.setup.row r (hI.links.begun hr)
  refine hI.locks.of_terminal hx ?_
  rcases hst with hst | hst
  · rw [hidle x hx] at hst; cases hst
  · exact RunStatus.terminal_of_final hst

/-! ### Runs -/

/-- In a run no step of which leaves work behind, the cancellations are complete in every state. -/
theorem cancellation_complete (h : History) (config : Config) {w : World}
    (hw : (machine h config).Reachable (fun a w => leavesWork a w = false) w) :
    CancellationComplete w.db :=
  (Schemes.Machine.invariant (m := machine h config) (I := CancelInv)
    (fun _ hs => cancelInv_start hs) (fun a _ _ hok hI => hI.step h config a hok) hw).complete

/-- A planned pipeline is begun, submitted and reviewed, and waits for a human. -/
def humanGatedRun : List Action :=
  Scenario.reviewedPipeline ++
  [ .environment (.review 0 (Scenario.humanReview 0 1)),
    .thread 0 18 0 false,
    .thread 0 19 0 false,
    .thread 0 20 2 false,
    .process 2 101 0 false,
    .process 2 102 0 false,
    .process 2 103 0 false,
    .process 2 104 0 false,
    .thread 0 105 0 false,
    .thread 0 106 0 false ]

/-- The objective is cancelled, the daemon rolls its run back and then cancels both. -/
def cancelWithObjective : List Action :=
  [ .objective (.cli 0 .cancel 107),
    .janitorStart,
    .janitor 108 3 false,
    .process 3 109 0 false,
    .process 3 110 0 false,
    .process 3 111 0 false,
    .janitor 112 3 false,
    .janitor 113 3 false,
    .objective (.synchronize 114) ]

set_option maxRecDepth 20000 in
theorem cancellation_complete_objective :
    let w := Scenario.system.run Scenario.start (humanGatedRun ++ cancelWithObjective)
    w.planStatus 0 = some .cancelled ∧ w.runStatus 0 = some .cancelled ∧
      CancellationComplete w.db :=
  have hw : Scenario.system.Reachable (fun a w => leavesWork a w = false)
      (Scenario.system.run Scenario.start (humanGatedRun ++ cancelWithObjective)) :=
    .run (.start Scenario.system_start) (by decide)
  ⟨by decide, by decide, cancellation_complete Scenario.history Scenario.config hw⟩

set_option maxRecDepth 20000 in
/-- The plan-level command cancels the plan under the waiting run. -/
theorem cancelled_plan_keeps_waiting_run :
    ¬∀ (h : History) (config : Config) (w : World),
      (machine h config).Reachable (fun _ _ => True) w → CancellationComplete w.db := by
  intro hall
  have hw : Scenario.system.Reachable (fun _ _ => True)
      (Scenario.system.run Scenario.start (humanGatedRun ++ [.graph (.cancelPlan 0 107)])) :=
    .run (.start Scenario.system_start) (by decide)
  have hc := hall Scenario.history Scenario.config _ hw
  have hplan : (Scenario.system.run Scenario.start
      (humanGatedRun ++ [.graph (.cancelPlan 0 107)])).planStatus 0 = some .cancelled := by decide
  have hlinked : 0 ∈ (Scenario.system.run Scenario.start
      (humanGatedRun ++ [.graph (.cancelPlan 0 107)])).db.graph.linkedRuns 0 := by decide
  have hlock : (Scenario.system.run Scenario.start
      (humanGatedRun ++ [.graph (.cancelPlan 0 107)])).db.store.lockPresent 0 = true := by decide
  obtain ⟨x, hx, hs⟩ := Option.map_eq_some_iff.1 hplan
  rw [(hc 0 x hx hs 0 hlinked).2.1] at hlock
  cases hlock

end HermesOps
