import HermesOps.Model.GateResolution
import HermesOps.Properties.RecoverySweep

/-! Human gates and the decisions they offer. The assessment of a run that waits for a human is
    `BLOCK_HUMAN` whatever the repository, the worktree, the snapshot and the integration look like, and
    `recover_run` refuses every other expected decision. No gate offers `BLOCK_HUMAN`, so none is ended by a
    decision that it offers, and however many operators try in any order, the gate stays. -/

namespace HermesOps

open Schemes

variable {h : History} {config : Config} {s : Site} {id : ApprovalId} {a : Approval} {run : Run}

/-- A pending approval of a run that waits for a human with everything else in order. -/
structure IsGate (s : Site) (id : ApprovalId) (a : Approval) (run : Run) : Prop where
  stored : s.db.store.approvals.get? id = some a
  pending : a.status = .pending
  runRow : s.db.store.runs.get? a.runId = some run
  waiting : run.status = .waitingHuman
  locked : s.db.store.lockPresent a.runId = true
  snapshot : (s.db.store.snapshots.get? a.runId).isSome = true ∧ a.runId ∉ s.damaged
  repository : ∃ repo, s.repository run.projectId = some repo ∧ repo.present = true ∧
    repo.onDefaultBranch = true ∧ repo.clean = true ∧ repo.head = run.baseCommit

/-- Some decision that the gate offers is accepted and ends it. -/
def Endable (h : History) (s : Site) (id : ApprovalId) (r : RunId) : Prop :=
  ∃ d ∈ gateOptions, ∃ c, (commandResolve h c s id d).2 = true ∧
    (∀ x, (commandResolve h c s id d).1.db.store.runs.get? r = some x → x.status ≠ .waitingHuman) ∧
    ∀ y, (commandResolve h c s id d).1.db.store.approvals.get? id = some y → y.status ≠ .pending

/-- A run that waits for a human is assessed as blocked, whatever the evidence. -/
theorem assessRun_waiting {rows : RunRows} (hw : rows.run.status = .waitingHuman) (repo : Repository)
    (t : Option Worktree) (intact : Bool) : assessRun h rows repo t intact = .decided .blockHuman := by
  have hstatus : assessByStatus h rows repo.head t = .blockHuman := by rw [assessByStatus, hw]
  have hlive : ¬(rows.run.status.isTerminal = true ∧ rows.run.status ≠ .failed) := by
    rw [hw]
    decide
  have hsnapshotting : ¬(rows.run.status = .snapshotting ∧ ¬rows.snapshotPresent = true) := by
    rw [hw]
    simp
  unfold assessRun
  dsimp only
  rw [if_neg hlive, if_neg hsnapshotting, hstatus]
  split
  · rfl
  split
  · rfl
  split <;> rfl

/-- The stage refuses the decision that an operator expects. -/
def Stage.answersGate (r : RunId) : Stage → Prop
  | .recover q _ (some d) _ => q = r ∧ d ∈ gateOptions
  | .assessing rows _ (some d) _ => rows.run.status = .waitingHuman ∧ d ∈ gateOptions
  | _ => False

/-- Such a process writes nothing: it reads the waiting run, and then it fails. -/
theorem answersGate_step {r : RunId} {stage : Stage} (hstage : stage.answersGate r)
    (hrun : s.db.store.runs.get? r = some run) (hw : run.status = .waitingHuman) (now : Time) (fresh : Nat)
    (fault : Bool) : ∃ p, stage.step h now fresh fault s = (s, p) ∧
      (p = .exit .failed ∨ ∃ rows owner d age, stage = .recover r owner (some d) age ∧
        rows.run.status = .waitingHuman ∧ p = .next (.assessing rows owner (some d) age)) := by
  cases stage with
  | recover q owner expected age =>
    cases expected with
    | none => exact hstage.elim
    | some d =>
      obtain ⟨rfl, hd⟩ := hstage
      unfold Stage.step
      cases fault with
      | true => exact ⟨_, rfl, .inl rfl⟩
      | false =>
        refine ⟨.next (.assessing (readRows s.db.store q run) owner (some d) age), ?_,
          .inr ⟨readRows s.db.store q run, owner, d, age, rfl, hw, rfl⟩⟩
        simp only [Stage.body, assessRead, hrun, Bool.false_eq_true, if_false]
        rfl
  | assessing rows owner expected age =>
    cases expected with
    | none => exact hstage.elim
    | some d =>
      obtain ⟨hwaiting, hd⟩ := hstage
      have hne : (some d).any (fun e => decide (e ≠ RecoveryDecision.blockHuman)) = true := by
        simp only [gateOptions, List.mem_cons, List.not_mem_nil, or_false] at hd
        rcases hd with rfl | rfl <;> rfl
      refine ⟨.exit .failed, ?_, .inl rfl⟩
      unfold Stage.step
      cases fault with
      | true => rfl
      | false =>
        simp only [Stage.body, assessRun_waiting hwaiting, hne, Bool.false_eq_true, if_false, if_true]
        rfl
  | _ => exact hstage.elim

/-! ### The command -/

/-- An operator's answer to a gate is refused, and nothing is written. -/
theorem commandResolve_refused (hg : IsGate s id a run) (c : ResolveCall) (d : RecoveryDecision) :
    commandResolve h c s id d = (s, false) := by
  unfold commandResolve resolveStage
  rw [hg.stored]
  dsimp only
  rw [if_neg (not_not.2 hg.pending)]
  by_cases hd : d ∈ gateOptions
  swap
  · rw [if_pos hd]
  rw [if_neg (not_not.2 hd)]
  dsimp only
  have hstage : (Stage.recover a.runId c.owner (some d) none).answersGate a.runId := ⟨rfl, hd⟩
  obtain ⟨p, hstep, hp⟩ :=
    answersGate_step (h := h) hstage hg.runRow hg.waiting c.now c.fresh (c.fault 6)
  rw [recoverySteps, Stage.complete, hstep]
  rcases hp with rfl | ⟨rows, owner, d', age, heq, hwaiting, rfl⟩
  · rfl
  · cases heq
    dsimp only
    have hassessing : (Stage.assessing rows c.owner (some d) none).answersGate a.runId := ⟨hwaiting, hd⟩
    obtain ⟨p, hstep, hp⟩ :=
      answersGate_step (h := h) hassessing hg.runRow hg.waiting c.now c.fresh (c.fault 5)
    rw [Stage.complete, hstep]
    rcases hp with rfl | ⟨_, _, _, _, heq, -, -⟩
    · rfl
    · cases heq

theorem IsGate.not_endable (hg : IsGate s id a run) : ¬Endable h s id a.runId := by
  rintro ⟨d, -, c, haccepted, -⟩
  rw [commandResolve_refused hg] at haccepted
  cases haccepted

/-! ### Operators in any order -/

/-- Nothing happens but operators that answer the gate of the run, failures, and changes around the
    programs. -/
def AnswersOnly (r : RunId) (x : Action) (w : World) : Prop :=
  match x with
  | .operator _ stage => stage.answersGate r
  | .process pid _ _ _ => ∃ stage, w.procs.get? pid = some stage ∧ stage.answersGate r
  | .kill _ | .crash | .environment _ => True
  | _ => False

/-- What a gate holds back: the runs, the approvals, the project locks and the plans. -/
def World.heldBack (w : World) : Table RunId Run × Table ApprovalId Approval × Table ProjectId Lock × Graph :=
  (w.db.store.runs, w.db.store.approvals, w.db.store.locks, w.db.graph)

variable {w : World} {r : RunId}

theorem finishProcess_heldBack (w : World) (pid : Pid) (e : Exit) : (w.finishProcess pid e).heldBack = w.heldBack := by
  unfold World.finishProcess
  split <;> rfl

theorem answersOnly_step {x : Action} (hok : AnswersOnly r x w) (hrun : w.db.store.runs.get? r = some run)
    (hw : run.status = .waitingHuman) : (w.step h config x).heldBack = w.heldBack := by
  cases x with
  | operator pid stage =>
    rw [World.step]
    split
    · unfold World.spawn
      split
      · rfl
      · split <;> rfl
    · rfl
  | process pid now fresh fault =>
    obtain ⟨stage, hp, hstage⟩ := hok
    obtain ⟨p, hstep, -⟩ := answersGate_step (h := h) (s := w.site) hstage hrun hw now fresh fault
    rw [World.step, World.stepProcess, hp]
    dsimp only
    rw [hstep]
    dsimp only
    cases p with
    | next stage' => rfl
    | exit e => exact finishProcess_heldBack _ pid e
  | kill pid =>
    rw [World.step, World.kill]
    split
    · exact finishProcess_heldBack w pid .failed
    · rfl
  | crash => rfl
  | environment b =>
    rw [World.step]
    cases b with
    | review i row =>
      rw [World.environmentStep]
      split <;> rfl
    | worker i row =>
      rw [World.environmentStep]
      split <;> rfl
    | _ => rfl
  | _ => exact hok.elim

/-- However many operators answer, nothing that the gate holds back moves. -/
theorem answersOnly_run (as : List Action) : ∀ {w : World}, (machine h config).Along (AnswersOnly r) w as →
    w.db.store.runs.get? r = some run → run.status = .waitingHuman →
      ((machine h config).run w as).heldBack = w.heldBack := by
  induction as with
  | nil =>
    intro w _ _ _
    rfl
  | cons x as ih =>
    rintro w ⟨hx, has⟩ hrun hw
    have hstep : ((machine h config).step x w).heldBack = w.heldBack := answersOnly_step hx hrun hw
    have hruns : ((machine h config).step x w).db.store.runs = w.db.store.runs := congrArg Prod.fst hstep
    rw [Machine.run, ih has (by rw [hruns]; exact hrun) hw, hstep]

/-- No gate is ended by a decision that it offers, and it holds back what it holds back however many
    operators answer it, in any order and with any failures and changes around them. -/
theorem gate_never_ends (h : History) (config : Config) (w : World) (id : ApprovalId) (a : Approval)
    (run : Run) (hg : IsGate w.site id a run) :
    ¬Endable h w.site id a.runId ∧ (∀ c d, commandResolve h c w.site id d = (w.site, false)) ∧
      ∀ as, (machine h config).Along (AnswersOnly a.runId) w as →
        ((machine h config).run w as).heldBack = w.heldBack :=
  ⟨hg.not_endable, fun c d => commandResolve_refused hg c d,
    fun as has => answersOnly_run as has hg.runRow hg.waiting⟩

/-! ### A gate -/

/-- A reviewer leaves a submitted run to a human, and the integrator records the gate. -/
def blockedReview : List Action :=
  [ .operator 0 (.begin 0 "operator"),
    .process 0 1 0 false,
    .process 0 2 0 false,
    .process 0 3 0 false,
    .environment (.worktree 0 ⟨true, true, true, true, 1⟩),
    .operator 1 (.submit 0),
    .process 1 4 0 false,
    .process 1 5 0 false,
    .process 1 6 0 false,
    .environment (.review 0 (Scenario.humanReview 0 1)),
    .operator 2 (.apply 0 "operator"),
    .process 2 101 0 false,
    .process 2 102 0 false,
    .process 2 103 0 false,
    .process 2 104 0 false ]

def blockedWorld : World := Scenario.system.run Scenario.start blockedReview

theorem blockedWorld_reachable : Scenario.system.Reachable (fun _ _ => True) blockedWorld :=
  Machine.Reachable.run (.start Scenario.system_start) (by decide)

theorem blockedWorld_gate : ∃ a run, a.runId = 0 ∧ IsGate blockedWorld.site 0 a run := by
  have hgate : (blockedWorld.db.store.approvals.get? 0).any (fun a => a.runId = 0 ∧ a.status = .pending) =
      true := by decide
  have hrun : (blockedWorld.db.store.runs.get? 0).any (fun x => x.status = .waitingHuman ∧ x.projectId = 0 ∧
      x.baseCommit = 0) = true := by decide
  obtain ⟨a, ha, had⟩ := (Option.any_eq_true _ _).1 hgate
  obtain ⟨x, hx, hxd⟩ := (Option.any_eq_true _ _).1 hrun
  obtain ⟨har, hap⟩ := of_decide_eq_true had
  obtain ⟨hxs, hxp, hxb⟩ := of_decide_eq_true hxd
  refine ⟨a, x, har, ha, hap, by rw [har]; exact hx, hxs, by rw [har]; decide, by rw [har]; decide, ?_⟩
  rw [hxp, hxb]
  exact ⟨⟨true, true, true, 0, []⟩, by decide, rfl, rfl, rfl, rfl⟩

/-- A gate that a reviewer asked for is not ended. -/
theorem blocked_review_stays : ¬Endable Scenario.history blockedWorld.site 0 0 := by
  obtain ⟨a, run, hrun, hg⟩ := blockedWorld_gate
  have hnever := (gate_never_ends Scenario.history Scenario.config blockedWorld 0 a run hg).1
  rw [hrun] at hnever
  exact hnever

theorem gate_refuses_options : ¬∀ (h : History) (config : Config) (w : World) (id : ApprovalId) (a : Approval)
    (run : Run), (machine h config).Reachable (fun _ _ => True) w → IsGate w.site id a run →
      Endable h w.site id a.runId := by
  intro hall
  obtain ⟨a, run, -, hg⟩ := blockedWorld_gate
  exact hg.not_endable (hall Scenario.history Scenario.config blockedWorld 0 a run blockedWorld_reachable hg)

end HermesOps
