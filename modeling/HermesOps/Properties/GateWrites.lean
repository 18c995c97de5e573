import HermesOps.Properties.ProcessMoves

/-! What a step does to the approvals. A run is gated while it has a `PENDING` approval; the gate
    opens with `WAITING_HUMAN`, a rollback and the marking of a failed cleanup resolve it, and nothing
    else touches it. -/

namespace HermesOps

open Schemes

/-- The run waits for a human decision. -/
def Store.gated (s : Store) (r : RunId) : Bool :=
  s.approvals.any fun _ a => a.runId = r ∧ a.status = .pending

/-- The runs that a writer leaves without a `PENDING` approval. -/
def Writer.resolves : Writer → Option RunId
  | .process (.rollingBack r) | .process (.abortSnapshotting r) => some r
  | _ => none

/-- What a writer makes of the approvals. -/
structure ApprovalsWritten (s s' : Site) (wr : Writer) : Prop where
  asked : ∀ r, s'.db.store.gated r = true → s.db.store.gated r = true ∨
    ∃ x', s'.db.store.runs.get? r = some x' ∧ x'.status = .waitingHuman
  resolved : ∀ r, wr.resolves = some r → s'.db.store.gated r = false

variable {s s' : Site} {wr : Writer} {r : RunId} {now : Time} {d store : Store}

theorem Store.gated_congr (h : store.approvals = d.approvals) (q : RunId) :
    store.gated q = d.gated q := by
  unfold gated
  rw [h]

theorem ApprovalsWritten.same (h : s'.db.store.approvals = s.db.store.approvals)
    (hr : wr.resolves = none) : ApprovalsWritten s s' wr :=
  ⟨fun q hq => .inl (by rwa [Store.gated_congr h] at hq), fun q hq => by rw [hr] at hq; cases hq⟩

/-! ### The transactions -/

theorem Store.gated_cancel {f : Option Time → Option Time}
    (h : store.approvals = d.cancelPendingApprovals r f) :
    store.gated r = false ∧ ∀ q, store.gated q = true → d.gated q = true := by
  have hrow : ∀ i a, store.approvals.get? i = some a → a.status = .pending →
      d.approvals.get? i = some a ∧ a.runId ≠ r := by
    intro i a ha hp
    rw [h, cancelPendingApprovals, Table.get?_update, Option.map_eq_some_iff] at ha
    obtain ⟨b, hb, rfl⟩ := ha
    split at hp
    · cases hp
    · rename_i hsel
      rw [if_neg hsel]
      exact ⟨hb, fun hr => hsel (decide_eq_true ⟨hr, hp⟩)⟩
  refine ⟨Table.any_eq_false_iff.2 fun i a ha => decide_eq_false fun hq => ?_, fun q hq => ?_⟩
  · exact (hrow i a ha hq.2).2 hq.1
  · obtain ⟨i, a, ha, hq⟩ := Table.any_iff.1 hq
    exact Table.any_iff.2 ⟨i, a, (hrow i a ha (of_decide_eq_true hq).2).1, hq⟩

theorem Store.gated_insert {i : ApprovalId} {a : Approval}
    (h : d.approvals.insert i a = some store.approvals) {q : RunId} (hq : store.gated q = true) :
    d.gated q = true ∨ a.runId = q := by
  obtain ⟨k, b, hb, hq⟩ := Table.any_iff.1 hq
  rw [Table.get?_insert h] at hb
  split at hb
  · cases hb
    exact .inr (of_decide_eq_true hq).1
  · exact .inl (Table.any_iff.2 ⟨k, b, hb, hq⟩)

theorem beginReserve_approvals {p : ProjectId} {project : Option Project} {owner : String}
    (h : beginReserve d p project r owner now = .ok store) : store.approvals = d.approvals := by
  unfold beginReserve at h
  split at h
  · cases h
  · split at h
    · cases h
    · split at h
      · cases h
      · obtain ⟨base, -, h⟩ := Except.bind_ok.1 h
        dsimp only at h
        split at h
        · split at h <;> cases h
          rfl
        · cases h

theorem beginActivate_approvals (h : beginActivate d r now = .ok store) :
    store.approvals = d.approvals := by
  unfold beginActivate at h
  split at h
  · cases h
  · split at h <;> cases h
    rfl

theorem rollbackStart_approvals {intact : Bool} (h : rollbackStart d r intact now = .ok store) :
    store.approvals = d.approvals := by
  unfold rollbackStart at h
  split at h
  · cases h
  · split at h
    · cases h
    · obtain ⟨snapshots, -, h⟩ := Except.bind_ok.1 h
      cases h
      rfl

theorem prepareIntegration_approvals {b : Database} {a : Application} {m : Commit}
    {i : IntegrationId} (h : prepareIntegration b a m i now = .ok (.written store)) :
    store.approvals = b.store.approvals := by
  unfold prepareIntegration at h
  obtain ⟨g, -, h⟩ := Except.bind_ok.1 h
  cases g with
  | refused result => cases h
  | written x =>
    simp only at h
    split at h
    · cases h
    · split at h
      · cases h
      · split at h <;> cases h
        rfl

theorem finalizeCompleted_approvals {i : IntegrationId} {c : Commit}
    (h : finalizeCompleted d r i c now = .ok store) : store.approvals = d.approvals := by
  unfold finalizeCompleted at h
  split at h
  · cases h
  · repeat' split at h
    all_goals first | cases h; rfl | cases h

theorem resumeFinish_approvals {i : IntegrationId} {c : Commit}
    (h : resumeFinish d r i c now = .ok store) : store.approvals = d.approvals := by
  unfold resumeFinish at h
  split at h
  · cases h
  · repeat' split at h
    all_goals first | cases h; rfl | cases h

/-- A recorded `BLOCK_HUMAN` asks for an approval and stops the run for it. -/
theorem recordNonIntegration_asks {b : Database} {a : Application} {m : Commit} {i : IntegrationId}
    {j : ApprovalId} {result : IntegrationResult}
    (h : recordNonIntegration b a m i j now = .ok (.written (store, result))) {q : RunId}
    (hq : store.gated q = true) : b.store.gated q = true ∨
      ∃ x', store.runs.get? q = some x' ∧ x'.status = .waitingHuman := by
  unfold recordNonIntegration at h
  obtain ⟨g, hg, h⟩ := Except.bind_ok.1 h
  cases g with
  | refused result => cases h
  | written x =>
    obtain ⟨hx, hst, -⟩ := decisionGuard_written hg
    simp only at h
    split at h
    · split at h
      · cases h
      · cases h
        exact .inl hq
    · split at h
      · rename_i approvals integrations hins _
        cases h
        rcases Store.gated_insert hins hq with hq | rfl
        · exact .inl hq
        · refine .inr ⟨x.waiting now, ?_, rfl⟩
          rw [Table.get?_update, hx, Option.map_some, if_pos (decide_eq_true ⟨rfl, hst⟩)]
      · cases h
    · cases h

theorem applyBlock_asks {owner : String} {i : ApprovalId}
    (h : applyBlock d r owner i now = .ok store) {q : RunId} (hq : store.gated q = true) :
    d.gated q = true ∨ ∃ x', store.runs.get? q = some x' ∧ x'.status = .waitingHuman := by
  obtain ⟨x, -, hx, -, -, -, hruns, -⟩ := applyBlock_ok h
  have hrow : store.runs.get? r = some (x.waiting now) := by
    rw [hruns, Table.get?_updateAt, if_pos rfl, hx, Option.map_some]
  unfold applyBlock at h
  simp only [hx] at h
  obtain ⟨locks, -, h⟩ := Except.bind_ok.1 h
  split at h
  · cases h
    exact .inl hq
  · split at h
    · rename_i hins
      cases h
      rcases Store.gated_insert hins hq with hq | rfl
      · exact .inl hq
      · exact .inr ⟨_, hrow, rfl⟩
    · cases h

/-! ### Every step -/

theorem Stage.Succeeds.approvals {h : History} {fresh : Nat} {stage : Stage} {p : Progress}
    (hs : stage.Succeeds h now fresh s s' p) : ApprovalsWritten s s' (.process stage) := by
  cases hs with
  | begin hr => exact .same (beginReserve_approvals hr) rfl
  | activating hr => exact .same (beginActivate_approvals hr) rfl
  | rollback hr => exact .same (rollbackStart_approvals hr) rfl
  | @rollingBack r | @abortSnapshotting r =>
    obtain ⟨hno, hold⟩ := @Store.gated_cancel r s.db.store (rollbackFinish s.db.store r now)
      (fun _ => some now) rfl
    refine ⟨fun q hq => .inl (hold q hq), fun q hq => ?_⟩
    cases hq
    exact hno
  | prepare _ hr => exact .same (prepareIntegration_approvals hr) rfl
  | record _ hr => exact ⟨fun q hq => recordNonIntegration_asks hr hq, fun q hq => by cases hq⟩
  | observed hr => exact .same (finalizeCompleted_approvals hr) rfl
  | retried hr => exact .same (finalizeCompleted_approvals hr) rfl
  | resumeFinishing hr => exact .same (resumeFinish_approvals hr) rfl
  | blocking hr => exact ⟨fun q hq => applyBlock_asks hr hq, fun q hq => by cases hq⟩
  | _ => exact .same rfl rfl

theorem approvals_marked {reason : String} (h : s'.db = World.markedDb s.db r reason now) :
    ApprovalsWritten s s' (.cleanup r) := by
  have hst : s'.db.store =
      (markCancellationCleanupRecovery s.db.graph s.db.store r reason now).1 := by rw [h]; rfl
  unfold markCancellationCleanupRecovery at hst
  split at hst
  · exact .same (by rw [hst]) rfl
  · split at hst
    · exact .same (by rw [hst]) rfl
    · split at hst
      · exact .same (by rw [hst]) rfl
      · refine ⟨fun q hq => .inl ?_, fun q hq => by cases hq⟩
        exact (@Store.gated_cancel r s.db.store s'.db.store _ (by rw [hst])).2 q hq

/-- A run is gated after a step only if it was before, or if it is `WAITING_HUMAN` now. -/
theorem World.gate_asked (h : History) (config : Config) (w : World) (a : Action)
    (hq : (w.step h config a).db.store.gated r = true) : w.db.store.gated r = true ∨
      ∃ x', (w.step h config a).db.store.runs.get? r = some x' ∧ x'.status = .waitingHuman := by
  have quiet : (w.step h config a).db.store.approvals = w.db.store.approvals →
      w.db.store.gated r = true ∨ ∃ x', (w.step h config a).db.store.runs.get? r = some x' ∧
        x'.status = .waitingHuman := fun he => .inl (by rwa [Store.gated_congr he] at hq)
  cases a with
  | process pid now fresh fault =>
    rcases stepProcess_cases h pid now fresh fault w with hs | ⟨stage, p, -, -, hs⟩
    · exact quiet (congrArg (fun s => s.db.store.approvals) hs)
    · exact hs.approvals.asked r hq
  | thread j now pid fault =>
    simp only [step] at hq quiet ⊢
    split at hq
    · rename_i t ht
      simp only [ht] at quiet
      have hw := threadStep_write j now pid fault w t.task s!"orchestrator:{t.task.taskKey}" t.stage
      generalize w.threadStep j now pid fault t.task s!"orchestrator:{t.task.taskKey}" t.stage = w'
        at hw hq quiet ⊢
      obtain ⟨d, hd⟩ : ∃ d, w'.db = d := ⟨_, rfl⟩
      rw [hd] at hw
      generalize t.stage = s at hw
      cases hw with
      | mark => exact (approvals_marked hd).asked r hq
      | _ => exact quiet (by rw [hd])
    · exact .inl hq
  | janitor now pid fault =>
    rcases janitorStep_db now pid fault w with hd | ⟨q, rest, reason, -, -, hd⟩
    · exact quiet (congrArg (fun d => d.store.approvals) hd)
    · exact (approvals_marked hd).asked r hq
  | objective a =>
    refine quiet ?_
    cases a <;> simp only [step, objectiveStep] <;> repeat' split
    all_goals rfl
  | planner i a =>
    refine quiet ?_
    simp only [step]
    split
    · cases a <;> simp only [plannerStep] <;> repeat' split
      all_goals rfl
    · rfl
  | graph a =>
    refine quiet ?_
    cases a <;> simp only [step, graphStep] <;> repeat' split
    all_goals rfl
  | janitorStart =>
    refine quiet ?_
    simp only [step]
    split <;> rfl
  | operator pid stage =>
    refine quiet ?_
    simp only [step]
    split
    · rw [spawn_db]
    · rfl
  | kill pid => exact quiet (by simp only [step, kill_db])
  | crash => exact quiet rfl
  | environment e =>
    refine quiet ?_
    cases e <;> simp only [step, environmentStep] <;> repeat' split
    all_goals rfl

end HermesOps
