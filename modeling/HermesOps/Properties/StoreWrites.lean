import HermesOps.Properties.Effects

/-! Everything a step can do to the run store. Two kinds of writers touch it, the processes and the
    marking of a run whose cleanup failed; `RunWrite` lists what each makes of one row of `runs`,
    with the reads it rests on, and `StoreWritten` adds the locks, the integrations and the
    snapshots. Most of the `UPDATE`s of `runs` have no condition on the old status, and the
    constructors without one are exactly these. -/

namespace HermesOps

open Schemes

/-! ### Rows -/

/-- The columns of a run that only its submission changes. -/
structure Run.Carries (x x' : Run) : Prop where
  project : x'.projectId = x.projectId
  base : x'.baseCommit = x.baseCommit
  result : x'.resultCommit = x.resultCommit

theorem Run.Carries.rfl {x : Run} : x.Carries x := ⟨.refl _, .refl _, .refl _⟩

/-- Who writes the run store in a step. -/
inductive Writer where
  | nobody
  | process (stage : Stage)
  | cleanup (runId : RunId)

/-- What the writer makes of the row `x` of run `r`; `s'` is the site it leaves. -/
inductive RunWrite (s s' : Site) (r : RunId) (x : Run) : Writer → Run → Prop
  | kept {wr x'} : x.Carries x' → x'.status = x.status →
    (x.status = .recovering → x'.recoveryDecision = x.recoveryDecision) → RunWrite s s' r x wr x'
  | activated {x'} : x.Carries x' → s.db.store.snapshots.get? r = none → x'.status = .running →
    RunWrite s s' r x (.process (.activating r)) x'
  | aborted {x'} : x.Carries x' → x'.status = .failed →
    RunWrite s s' r x (.process (.aborting r)) x'
  | submitted {c x'} : x'.projectId = x.projectId → x'.baseCommit = x.baseCommit →
    x.status = .running → x'.status = .reviewing → x'.resultCommit = some c →
    RunWrite s s' r x (.process (.submitted r c)) x'
  | rollback {x'} : x.Carries x' → x.status.canRollBack = true →
    (s.db.store.snapshots.get? r).isSome → x'.status = .recovering →
    x'.recoveryDecision = some .rollbackSafe → RunWrite s s' r x (.process (.rollback r)) x'
  | rolledBack {stage x'} : x.Carries x' → stage = .rollingBack r ∨ stage = .abortSnapshotting r →
    x'.status = .cancelled → RunWrite s s' r x (.process stage) x'
  | waiting {a m x'} : x.Carries x' → a.runId = r → a.action ≠ .integrate →
    x.status = .reviewing → x'.status = .waitingHuman →
    RunWrite s s' r x (.process (.verified a m)) x'
  | committed {a m i now x'} : x.Carries x' → a.runId = r → a.action = .integrate →
    decisionGuard s.db a = .ok (.written x) → x.status = .reviewing →
    x.resultCommit = a.run.resultCommit → x.resultCommit.isSome →
    x.baseCommit = a.run.baseCommit →
    s'.db.store.integrations.get? i = some (a.integration x .prepared m none false now) →
    x'.status = .committing → RunWrite s s' r x (.process (.verified a m)) x'
  | finalized {stage a i c x'} : x.Carries x' → a.runId = r →
    stage = .observed a i c ∨ (∃ e, stage = .retried a i c e) → x.status = .committing →
    x.resultCommit = some c → x'.status = .completed → RunWrite s s' r x (.process stage) x'
  | ambiguous {a i m e x'} : x.Carries x' → a.runId = r → x.status = .committing →
    x'.status = .recovering → x'.recoveryDecision = some .blockHuman →
    RunWrite s s' r x (.process (.ambiguous a i m e)) x'
  | resumed {i c x'} : x.Carries x' → x.status = .committing ∨ x.status = .recovering →
    x'.status = .completed → RunWrite s s' r x (.process (.resumeFinishing r i c)) x'
  | forced {x'} : x.Carries x' → x'.status = .recovering →
    x'.recoveryDecision = some .rollbackSafe → RunWrite s s' r x (.process (.forcing r)) x'
  | blocked {owner x'} : x.Carries x' → x'.status = .waitingHuman →
    RunWrite s s' r x (.process (.blocking r owner)) x'
  | marked {x'} : x.Carries x' → x.status ≠ .completed →
    (x.status = .cancelled → s.db.store.lockPresent r = true) → x'.status = .recovering →
    x'.recoveryDecision = some .rollbackSafe → RunWrite s s' r x (.cleanup r) x'

/-- A write carries the columns over, but for the submission. -/
theorem RunWrite.carries {s s' : Site} {r : RunId} {x x' : Run} {wr : Writer}
    (h : RunWrite s s' r x wr x') : x.Carries x' ∨ ∃ c, wr = .process (.submitted r c) ∧
      x'.projectId = x.projectId ∧ x'.baseCommit = x.baseCommit ∧ x.status = .running ∧
      x'.status = .reviewing ∧ x'.resultCommit = some c := by
  cases h with
  | submitted hp hb hx hx' hc => exact .inr ⟨_, rfl, hp, hb, hx, hx', hc⟩
  | kept h => exact .inl h
  | activated h => exact .inl h
  | aborted h => exact .inl h
  | rollback h => exact .inl h
  | rolledBack h => exact .inl h
  | waiting h => exact .inl h
  | committed h => exact .inl h
  | finalized h => exact .inl h
  | ambiguous h => exact .inl h
  | resumed h => exact .inl h
  | forced h => exact .inl h
  | blocked h => exact .inl h
  | marked h => exact .inl h

theorem RunWrite.project {s s' : Site} {r : RunId} {x x' : Run} {wr : Writer}
    (h : RunWrite s s' r x wr x') : x'.projectId = x.projectId := by
  rcases h.carries with h | ⟨_, -, h, -⟩
  · exact h.project
  · exact h

theorem RunWrite.base {s s' : Site} {r : RunId} {x x' : Run} {wr : Writer}
    (h : RunWrite s s' r x wr x') : x'.baseCommit = x.baseCommit := by
  rcases h.carries with h | ⟨_, -, -, h, -⟩
  · exact h.base
  · exact h

/-- The run whose lock the writer releases. -/
def Writer.releases : Writer → Option RunId
  | .process (.aborting r) | .process (.rollingBack r) | .process (.abortSnapshotting r)
  | .process (.resumeFinishing r _ _) => some r
  | .process (.observed a _ _) | .process (.retried a _ _ _) => some a.runId
  | _ => none

/-- What a writer makes of an integration row. -/
structure IntegrationWrite (x x' : Integration) : Prop where
  run : x'.runId = x.runId
  review : x'.reviewId = x.reviewId
  decision : x'.decision = x.decision
  commit : x'.reviewedCommit = x.reviewedCommit
  status : x'.status = x.status ∨ x'.status = .failed ∨ x'.status = .completed

theorem IntegrationWrite.rfl {x : Integration} : IntegrationWrite x x :=
  ⟨.refl _, .refl _, .refl _, .refl _, .inl (.refl _)⟩

/-- The rows that the decision transactions insert. -/
def Writer.Inserts (wr : Writer) (x : Integration) : Prop :=
  ∃ a m, wr = .process (.verified a m) ∧ x.runId = a.runId ∧ x.reviewId = a.reviewId ∧
    x.decision = a.decision ∧ (a.action = .integrate ↔ x.status = .prepared)

/-- The runs: rows are written one by one, and only a reservation adds one. -/
structure RunsWritten (s s' : Site) (wr : Writer) : Prop where
  run : ∀ r x, s.db.store.runs.get? r = some x →
    ∃ x', s'.db.store.runs.get? r = some x' ∧ RunWrite s s' r x wr x'
  newRun : ∀ r x', s.db.store.runs.get? r = none → s'.db.store.runs.get? r = some x' →
    x'.status = .snapshotting ∧ x'.resultCommit = none ∧ ∃ l, l.runId = r ∧
      s'.db.store.locks.get? x'.projectId = some l

/-- The locks: one is released with its run, and a run that gets one is `SNAPSHOTTING` or
    `WAITING_HUMAN` afterwards. -/
structure LocksWritten (s s' : Site) (wr : Writer) : Prop where
  lock : ∀ p l, s.db.store.locks.get? p = some l →
    (∃ l', s'.db.store.locks.get? p = some l' ∧ l'.runId = l.runId) ∨ wr.releases = some l.runId
  newLock : ∀ p l', s'.db.store.locks.get? p = some l' →
    (∃ l, s.db.store.locks.get? p = some l ∧ l.runId = l'.runId) ∨
      ∃ x', s'.db.store.runs.get? l'.runId = some x' ∧ x'.projectId = p ∧
        (x'.status = .snapshotting ∨ x'.status = .waitingHuman)
  released : ∀ p l', s'.db.store.locks.get? p = some l' → wr.releases ≠ some l'.runId
  ended : ∀ r x', wr.releases = some r → s'.db.store.runs.get? r = some x' →
    x'.status.isTerminal = true

structure IntegrationsWritten (s s' : Site) (wr : Writer) : Prop where
  integration : ∀ i x, s.db.store.integrations.get? i = some x →
    ∃ x', s'.db.store.integrations.get? i = some x' ∧ IntegrationWrite x x'
  newIntegration : ∀ i x', s'.db.store.integrations.get? i = some x' →
    (∃ x, s.db.store.integrations.get? i = some x ∧ IntegrationWrite x x') ∨ wr.Inserts x'

structure SnapshotsWritten (s s' : Site) (wr : Writer) : Prop where
  snapshot : ∀ r, (s.db.store.snapshots.get? r).isSome → (s'.db.store.snapshots.get? r).isSome
  activated : ∀ r, wr = .process (.activating r) → (s'.db.store.snapshots.get? r).isSome
  newSnapshot : ∀ r, (s'.db.store.snapshots.get? r).isSome →
    (s.db.store.snapshots.get? r).isSome ∨ wr = .process (.activating r)

/-- What a writer makes of the run store. -/
structure StoreWritten (s s' : Site) (wr : Writer) : Prop extends
  RunsWritten s s' wr, LocksWritten s s' wr, IntegrationsWritten s s' wr, SnapshotsWritten s s' wr

/-! ### Table by table -/

section Tables

variable {s s' : Site} {wr : Writer}

theorem RunsWritten.same (h : s'.db.store.runs = s.db.store.runs) : RunsWritten s s' wr :=
  ⟨fun r x hx => ⟨x, by rw [h]; exact hx, .kept .rfl rfl fun _ => rfl⟩,
    fun r x' hn hx => by rw [h, hn] at hx; cases hx⟩

theorem RunsWritten.update {p : RunId → Run → Bool} {f : Run → Run}
    (h : s'.db.store.runs = s.db.store.runs.update p f)
    (hf : ∀ r x, s.db.store.runs.get? r = some x → p r x = true → RunWrite s s' r x wr (f x)) :
    RunsWritten s s' wr := by
  refine ⟨fun r x hx => ?_, fun r x' hn hx => ?_⟩
  · rw [h, Table.get?_update, hx]
    by_cases hp : p r x = true
    · exact ⟨f x, by rw [Option.map_some, if_pos hp], hf r x hx hp⟩
    · exact ⟨x, by rw [Option.map_some, if_neg hp], .kept .rfl rfl fun _ => rfl⟩
  · rw [h, Table.get?_update, hn] at hx; cases hx

theorem RunsWritten.updateAt {k : RunId} {f : Run → Run}
    (h : s'.db.store.runs = s.db.store.runs.updateAt k f)
    (hf : ∀ x, s.db.store.runs.get? k = some x → RunWrite s s' k x wr (f x)) :
    RunsWritten s s' wr :=
  .update h fun r x hx hr => by rw [of_decide_eq_true hr] at hx ⊢; exact hf x hx

theorem LocksWritten.same (h : s'.db.store.locks = s.db.store.locks) (hr : wr.releases = none) :
    LocksWritten s s' wr :=
  ⟨fun p l hl => .inl ⟨l, by rw [h]; exact hl, rfl⟩, fun p l hl => .inl ⟨l, by rw [← h]; exact hl, rfl⟩,
    fun p l _ => by rw [hr]; simp, fun r x he => by rw [hr] at he; cases he⟩

theorem LocksWritten.heartbeat {r : RunId} {now : Time}
    (h : s'.db.store.locks = s.db.store.heartbeatLock r now) (hr : wr.releases = none) :
    LocksWritten s s' wr := by
  refine ⟨fun p l hl => .inl ?_, fun p l hl => .inl ?_, fun p l _ => by rw [hr]; simp,
    fun r x he => by rw [hr] at he; cases he⟩
  · rw [h, Store.heartbeatLock, Table.get?_update, hl]
    refine ⟨_, rfl, ?_⟩
    dsimp only
    split <;> rfl
  · rw [h, Store.heartbeatLock, Table.get?_update, Option.map_eq_some_iff] at hl
    obtain ⟨l₀, hl₀, rfl⟩ := hl
    refine ⟨l₀, hl₀, ?_⟩
    split <;> rfl

theorem LocksWritten.release {r : RunId} (h : s'.db.store.locks = s.db.store.releaseLock r)
    (hr : wr.releases = some r)
    (he : ∀ x', s'.db.store.runs.get? r = some x' → x'.status.isTerminal = true) :
    LocksWritten s s' wr := by
  have hget : ∀ p, s'.db.store.locks.get? p =
      (s.db.store.locks.get? p).filter fun l => !decide (l.runId = r) := fun p => by
    rw [h, Store.releaseLock, Table.get?_delete]
  refine ⟨fun p l hl => ?_, fun p l hl => .inl ⟨l, ?_, rfl⟩, fun p l hl => ?_, fun k x hk hx => ?_⟩
  · by_cases hlr : l.runId = r
    · exact .inr (by rw [hr, hlr])
    · exact .inl ⟨l, by rw [hget, hl]; simp [hlr], rfl⟩
  · rw [hget, Option.filter_eq_some_iff] at hl; exact hl.1
  · rw [hget, Option.filter_eq_some_iff] at hl
    rw [hr]
    intro heq
    simp [Option.some.inj heq] at hl
  · rw [hr, Option.some.injEq] at hk
    subst hk
    exact he x hx

/-- A run written by key ends when the write ends it. -/
theorem ended_updateAt {runs runs' : Table RunId Run} {k : RunId} {f : Run → Run}
    (h : runs' = runs.updateAt k f) (hf : ∀ x, (f x).status.isTerminal = true) {x' : Run}
    (hx : runs'.get? k = some x') : x'.status.isTerminal = true := by
  rw [h, Table.get?_updateAt, if_pos rfl, Option.map_eq_some_iff] at hx
  obtain ⟨x, -, rfl⟩ := hx
  exact hf x

theorem IntegrationsWritten.same (h : s'.db.store.integrations = s.db.store.integrations) :
    IntegrationsWritten s s' wr :=
  ⟨fun i x hx => ⟨x, by rw [h]; exact hx, .rfl⟩, fun i x hx => .inl ⟨x, by rw [← h]; exact hx, .rfl⟩⟩

theorem IntegrationsWritten.update {p : IntegrationId → Integration → Bool}
    {f : Integration → Integration}
    (h : s'.db.store.integrations = s.db.store.integrations.update p f)
    (hf : ∀ i x, p i x = true → IntegrationWrite x (f x)) : IntegrationsWritten s s' wr := by
  have hstep : ∀ i x, IntegrationWrite x (if p i x = true then f x else x) := fun i x => by
    by_cases hp : p i x = true
    · rw [if_pos hp]; exact hf i x hp
    · rw [if_neg hp]; exact .rfl
  refine ⟨fun i x hx => ⟨_, by rw [h, Table.get?_update, hx]; rfl, hstep i x⟩, fun i x hx => .inl ?_⟩
  rw [h, Table.get?_update, Option.map_eq_some_iff] at hx
  obtain ⟨x₀, hx₀, rfl⟩ := hx
  exact ⟨x₀, hx₀, hstep i x₀⟩

theorem IntegrationsWritten.insert {i : IntegrationId} {x : Integration}
    (h : s.db.store.integrations.insert i x = some s'.db.store.integrations) (hx : wr.Inserts x) :
    IntegrationsWritten s s' wr := by
  refine ⟨fun j y hy => ⟨y, ?_, .rfl⟩, fun j y hy => ?_⟩
  · rw [Table.get?_insert h, if_neg]
    · exact hy
    · rintro rfl; rw [Table.get?_of_insert h] at hy; cases hy
  · rw [Table.get?_insert h] at hy
    split at hy
    · cases hy; exact .inr hx
    · exact .inl ⟨y, hy, .rfl⟩

theorem SnapshotsWritten.same (h : s'.db.store.snapshots = s.db.store.snapshots)
    (ha : ∀ r, wr ≠ .process (.activating r)) : SnapshotsWritten s s' wr :=
  ⟨fun r hr => by rw [h]; exact hr, fun r he => absurd he (ha r),
    fun r hr => .inl (by rw [← h]; exact hr)⟩

theorem SnapshotsWritten.updateAt {k : RunId} {f : Snapshot → Snapshot}
    (h : s'.db.store.snapshots = s.db.store.snapshots.updateAt k f)
    (ha : ∀ r, wr ≠ .process (.activating r)) : SnapshotsWritten s s' wr := by
  have hget : ∀ r, (s'.db.store.snapshots.get? r).isSome = (s.db.store.snapshots.get? r).isSome :=
    fun r => by
      rw [h, Table.get?_updateAt]
      split
      · rename_i hr; rw [hr, Option.isSome_map]
      · rfl
  exact ⟨fun r hr => by rw [hget]; exact hr, fun r he => absurd he (ha r),
    fun r hr => .inl (by rw [← hget]; exact hr)⟩

/-- A step that leaves the store as it was. -/
theorem StoreWritten.same (h : s'.db.store = s.db.store) (hr : wr.releases = none)
    (ha : ∀ r, wr ≠ .process (.activating r)) : StoreWritten s s' wr :=
  ⟨.same (by rw [h]), .same (by rw [h]) hr, .same (by rw [h]), .same (by rw [h]) ha⟩

end Tables

/-! ### The transactions -/

section Transactions

variable {s : Site} {now : Time} {r : RunId} {store : Store}

@[simp] theorem Site.setStore_store (s : Site) (store : Store) : (s.setStore store).db.store = store :=
  rfl

@[simp] theorem Site.cleanupWorktree_db (s : Site) (r : RunId) : (s.cleanupWorktree r).db = s.db :=
  rfl

@[simp] theorem Site.setRepository_db (s : Site) (p : ProjectId) (repo : Repository) :
    (s.setRepository p repo).db = s.db := rfl

theorem beginReserve_ok {p : ProjectId} {project : Option Project} {owner : String}
    (h : beginReserve s.db.store p project r owner now = .ok store) :
    ∃ x l, x.projectId = p ∧ x.status = .snapshotting ∧ x.resultCommit = none ∧ l.runId = r ∧
      s.db.store.runs.insert r x = some store.runs ∧
      s.db.store.locks.insert p l = some store.locks ∧
      store.integrations = s.db.store.integrations ∧ store.snapshots = s.db.store.snapshots ∧
      ∃ pr, project = some pr ∧ x.baseCommit = pr.repository.head := by
  unfold beginReserve at h
  split at h
  · cases h
  · rename_i pr
    split at h
    · cases h
    · split at h
      · cases h
      · obtain ⟨base, hbase, h⟩ := Except.bind_ok.1 h
        dsimp only at h
        split at h
        · rename_i runs locks hr hl
          split at h
          · cases h
          · simp only [Except.ok.injEq] at h
            subst h
            refine ⟨_, _, rfl, rfl, rfl, rfl, hr, hl, rfl, rfl, pr, rfl, ?_⟩
            unfold validateRepository at hbase
            split at hbase
            · cases hbase
            · split at hbase
              · cases hbase
              · split at hbase
                · cases hbase
                · cases hbase; rfl
        · cases h

theorem written_begin {p : ProjectId} {project : Option Project} {owner : String}
    (h : beginReserve s.db.store p project r owner now = .ok store) :
    StoreWritten s (s.setStore store) (.process (.begin p owner)) := by
  obtain ⟨x, l, hp, hst, hres, hl, hruns, hlocks, hi, hs, -⟩ := beginReserve_ok h
  have hnew := Table.get?_insert hruns
  have hnewl := Table.get?_insert hlocks
  refine ⟨⟨fun k y hy => ⟨y, ?_, .kept .rfl rfl fun _ => rfl⟩, fun k y hn hy => ?_⟩,
    ⟨fun q m hm => .inl ⟨m, ?_, rfl⟩, fun q m hm => ?_, fun q m _ => by simp [Writer.releases],
      fun k y hk => by simp [Writer.releases] at hk⟩, .same hi, .same hs (by simp)⟩
  · rw [Site.setStore_store, hnew, if_neg]
    · exact hy
    · rintro rfl; rw [Table.get?_of_insert hruns] at hy; cases hy
  · rw [Site.setStore_store, hnew] at hy
    split at hy
    · rename_i hk
      cases hy
      refine ⟨hst, hres, l, hl.trans hk.symm, ?_⟩
      rw [Site.setStore_store, hnewl, hp, if_pos rfl]
    · rw [hn] at hy; cases hy
  · rw [Site.setStore_store, hnewl, if_neg]
    · exact hm
    · rintro rfl; rw [Table.get?_of_insert hlocks] at hm; cases hm
  · rw [Site.setStore_store, hnewl] at hm
    split at hm
    · rename_i hq
      cases hm
      refine .inr ⟨x, ?_, hp.trans hq.symm, .inl hst⟩
      rw [Site.setStore_store, hnew, if_pos hl]
    · exact .inl ⟨m, hm, rfl⟩

theorem beginActivate_ok (h : beginActivate s.db.store r now = .ok store) :
    s.db.store.snapshots.get? r = none ∧ (∃ x, s.db.store.runs.get? r = some x) ∧
      store.runs = s.db.store.runs.updateAt r (Run.activated now) ∧
      store.locks = s.db.store.heartbeatLock r now ∧
      store.integrations = s.db.store.integrations ∧
      ∃ y, s.db.store.snapshots.insert r y = some store.snapshots := by
  unfold beginActivate at h
  split at h
  · cases h
  · rename_i x hx
    split at h
    · cases h
    · rename_i snapshots hins
      cases h
      exact ⟨Table.get?_of_insert hins, ⟨x, hx⟩, rfl, rfl, rfl, _, hins⟩

theorem written_activating (h : beginActivate s.db.store r now = .ok store) :
    StoreWritten s (s.setStore store) (.process (.activating r)) := by
  obtain ⟨hnone, -, hruns, hlocks, hi, y, hs⟩ := beginActivate_ok h
  have hget := Table.get?_insert hs
  refine ⟨.updateAt hruns fun x _ => .activated ⟨rfl, rfl, rfl⟩ hnone rfl, .heartbeat hlocks rfl,
    .same hi, fun k hk => ?_, fun k hk => ?_, fun k hk => ?_⟩
  · rw [Site.setStore_store, hget]
    split
    · rfl
    · exact hk
  · simp only [Writer.process.injEq, Stage.activating.injEq] at hk
    rw [Site.setStore_store, hget, if_pos hk.symm]; rfl
  · rw [Site.setStore_store, hget] at hk
    split at hk
    · rename_i hkr; exact .inr (by rw [hkr])
    · exact .inl hk

theorem written_aborting :
    StoreWritten s (s.setStore (beginAbort s.db.store r now)) (.process (.aborting r)) :=
  ⟨.updateAt (f := Run.aborted now) rfl fun _ _ => .aborted ⟨rfl, rfl, rfl⟩ rfl,
    .release rfl rfl fun _ hx => ended_updateAt (f := Run.aborted now) rfl (fun _ => rfl) hx,
    .same rfl, .same rfl (by simp)⟩

theorem written_submitted {c : Commit} :
    StoreWritten s (s.setStore (submitWrite s.db.store r c now)) (.process (.submitted r c)) := by
  refine ⟨.update (p := fun i x => i = r ∧ x.status = .running) (f := Run.submitted c now) rfl
    fun k x _ hk => ?_, .heartbeat rfl rfl, .same rfl, .same rfl (by simp)⟩
  obtain ⟨rfl, hx⟩ := of_decide_eq_true hk
  exact .submitted rfl rfl hx rfl rfl

theorem verifySnapshot_ok {d : Store} {intact : Bool} {snapshots : Table RunId Snapshot}
    (h : verifySnapshot d r intact now = .ok snapshots) :
    (d.snapshots.get? r).isSome ∧ snapshots = d.snapshots.updateAt r (Snapshot.verify now) := by
  unfold verifySnapshot at h
  split at h
  · cases h
  · rename_i y hy
    split at h
    · cases h
    · cases h; exact ⟨Option.isSome_of_mem hy, rfl⟩

theorem rollbackStart_ok {intact : Bool}
    (h : rollbackStart s.db.store r intact now = .ok store) :
    ∃ x, s.db.store.runs.get? r = some x ∧ x.status.canRollBack = true ∧
      (s.db.store.snapshots.get? r).isSome ∧
      store.runs = s.db.store.runs.updateAt r (Run.rollingBack now) ∧
      store.locks = s.db.store.locks ∧ store.integrations = s.db.store.integrations ∧
      store.snapshots = s.db.store.snapshots.updateAt r (Snapshot.verify now) := by
  unfold rollbackStart at h
  split at h
  · cases h
  · rename_i x hx
    split at h
    · cases h
    · rename_i hc
      obtain ⟨snapshots, hs, h⟩ := Except.bind_ok.1 h
      obtain ⟨hsome, rfl⟩ := verifySnapshot_ok hs
      cases h
      exact ⟨x, hx, by simpa using hc, hsome, rfl, rfl, rfl, rfl⟩

theorem written_rollback {intact : Bool}
    (h : rollbackStart s.db.store r intact now = .ok store) :
    StoreWritten s (s.setStore store) (.process (.rollback r)) := by
  obtain ⟨x, hx, hc, hsome, hruns, hlocks, hi, hs⟩ := rollbackStart_ok h
  refine ⟨.updateAt hruns fun y hy => ?_, .same hlocks rfl, .same hi, .updateAt hs (by simp)⟩
  obtain rfl : x = y := by rw [hx] at hy; simpa using hy
  exact .rollback ⟨rfl, rfl, rfl⟩ hc hsome rfl rfl

theorem written_rolledBack {stage : Stage} (hst : stage = .rollingBack r ∨ stage = .abortSnapshotting r) :
    StoreWritten s (s.setStore (rollbackFinish s.db.store r now)) (.process stage) := by
  refine ⟨.updateAt (f := Run.rolledBack now) rfl fun x _ => .rolledBack ⟨rfl, rfl, rfl⟩ hst rfl,
    .release rfl ?_ fun _ hx => ended_updateAt (f := Run.rolledBack now) rfl (fun _ => rfl) hx,
    .same rfl, .same rfl ?_⟩
  · rcases hst with rfl | rfl <;> rfl
  · rcases hst with rfl | rfl <;> simp

theorem written_checked {a : Application} {m : Commit} {intact : Bool}
    {snapshots : Table RunId Snapshot}
    (h : verifySnapshot s.db.store a.runId intact now = .ok snapshots) :
    StoreWritten s (s.setStore { s.db.store with snapshots }) (.process (.checked a m)) := by
  obtain ⟨-, rfl⟩ := verifySnapshot_ok h
  exact ⟨.same rfl, .same rfl rfl, .same rfl, .updateAt (f := Snapshot.verify now) rfl (by simp)⟩

theorem decisionGuard_written {d : Database} {a : Application} {x : Run}
    (h : decisionGuard d a = .ok (.written x)) :
    d.store.runs.get? a.runId = some x ∧ x.status = .reviewing ∧
      (∃ o, objectiveStatusForRun d a.runId = .ok o ∧ o ≠ some .cancelRequested ∧
        o ≠ some .cancelled) ∧ runPlanHasActiveHumanGate d a.runId = .ok false := by
  unfold decisionGuard at h
  split at h
  · cases h
  · rename_i current hc
    split at h
    · cases h
    · obtain ⟨_, -, h⟩ := Except.bind_ok.1 h
      split at h
      · cases h
      · rename_i hst
        obtain ⟨o, ho, h⟩ := Except.bind_ok.1 h
        split at h
        · cases h
        · rename_i hno
          rw [not_or] at hno
          obtain ⟨g, hg, h⟩ := Except.bind_ok.1 h
          cases g with
          | true => cases h
          | false => cases h; exact ⟨hc, not_not.1 hst, ⟨o, ho, hno⟩, hg⟩

theorem prepareIntegration_ok {d : Database} {a : Application} {m : Commit} {i : IntegrationId}
    (h : prepareIntegration d a m i now = .ok (.written store)) :
    ∃ x, decisionGuard d a = .ok (.written x) ∧
      x.resultCommit = a.run.resultCommit ∧ x.resultCommit.isSome ∧
      x.baseCommit = a.run.baseCommit ∧
      d.store.integrations.insert i (a.integration x .prepared m none false now) =
        some store.integrations ∧
      store.runs = d.store.runs.update (fun i r => i = a.runId ∧ r.status = .reviewing)
        (Run.committing now) ∧
      store.locks = d.store.heartbeatLock a.runId now ∧ store.snapshots = d.store.snapshots := by
  unfold prepareIntegration at h
  obtain ⟨g, hg, h⟩ := Except.bind_ok.1 h
  cases g with
  | refused result => cases h
  | written x =>
    simp only at h
    split at h
    · cases h
    · split at h
      · cases h
      · rename_i integrations hins
        split at h
        · cases h
        · rename_i hc
          rw [not_not] at hc
          cases h
          exact ⟨x, hg, hc.2.1, hc.2.1 ▸ hc.1, hc.2.2, hins, rfl, rfl, rfl⟩

theorem written_prepare {a : Application} {m : Commit} {i : IntegrationId}
    (ha : a.action = .integrate) (h : prepareIntegration s.db a m i now = .ok (.written store)) :
    StoreWritten s (s.setStore store) (.process (.verified a m)) := by
  obtain ⟨x, hg, hres, hsome, hbase, hins, hruns, hlocks, hs⟩ := prepareIntegration_ok h
  refine ⟨.update hruns fun k y hy hk => ?_, .heartbeat hlocks rfl, .insert hins ?_,
    .same hs (by simp)⟩
  · obtain ⟨rfl, hst⟩ := of_decide_eq_true hk
    obtain rfl : x = y := by rw [(decisionGuard_written hg).1] at hy; simpa using hy
    have hrow : store.integrations.get? i = some (a.integration x .prepared m none false now) := by
      rw [Table.get?_insert hins, if_pos rfl]
    exact .committed ⟨rfl, rfl, rfl⟩ rfl ha hg hst hres hsome hbase hrow rfl
  · exact ⟨a, m, rfl, rfl, rfl, rfl, by simp [ha, Application.integration]⟩

theorem recordNonIntegration_ok {d : Database} {a : Application} {m : Commit} {i : IntegrationId}
    {j : ApprovalId} {result : IntegrationResult}
    (h : recordNonIntegration d a m i j now = .ok (.written (store, result))) :
    ∃ x y, decisionGuard d a = .ok (.written x) ∧ y.runId = a.runId ∧ y.reviewId = a.reviewId ∧
      y.decision = a.decision ∧ y.status ≠ .prepared ∧
      d.store.integrations.insert i y = some store.integrations ∧
      (store.runs = d.store.runs ∨ store.runs = d.store.runs.update
        (fun i r => i = a.runId ∧ r.status = .reviewing) (Run.waiting now)) ∧
      store.locks = d.store.heartbeatLock a.runId now ∧ store.snapshots = d.store.snapshots ∧
      result.integrated = false ∧ result.action ≠ .cancel ∧ result.action ≠ .integrate := by
  unfold recordNonIntegration at h
  obtain ⟨g, hg, h⟩ := Except.bind_ok.1 h
  cases g with
  | refused result => cases h
  | written x =>
    simp only at h
    split at h
    · split at h
      · cases h
      · rename_i hins
        cases h
        exact ⟨x, _, hg, rfl, rfl, rfl, by simp [Application.integration], hins, .inl rfl, rfl, rfl,
          rfl, by simp, by simp⟩
    · split at h
      · rename_i hins
        cases h
        exact ⟨x, _, hg, rfl, rfl, rfl, by simp [Application.integration], hins, .inr rfl, rfl, rfl,
          rfl, by simp, by simp⟩
      · cases h
    · cases h

theorem written_record {a : Application} {m : Commit} {i : IntegrationId} {j : ApprovalId}
    {result : IntegrationResult} (ha : a.action ≠ .integrate)
    (h : recordNonIntegration s.db a m i j now = .ok (.written (store, result))) :
    StoreWritten s (s.setStore store) (.process (.verified a m)) := by
  obtain ⟨x, y, hg, hrun, hrev, hdec, hst, hins, hruns, hlocks, hs, -⟩ := recordNonIntegration_ok h
  refine ⟨?_, .heartbeat hlocks rfl, .insert hins ?_, .same hs (by simp)⟩
  · rcases hruns with hruns | hruns
    · exact .same hruns
    · refine .update hruns fun k z _ hk => ?_
      obtain ⟨rfl, hz⟩ := of_decide_eq_true hk
      exact .waiting ⟨rfl, rfl, rfl⟩ rfl ha hz rfl
  · exact ⟨a, m, rfl, hrun, hrev, hdec, iff_of_false ha hst⟩

theorem finalizeCompleted_ok {d : Store} {i : IntegrationId} {c : Commit}
    (h : finalizeCompleted d r i c now = .ok store) :
    ∃ x, d.runs.get? r = some x ∧ x.status = .committing ∧ x.resultCommit = some c ∧
      store.integrations = d.integrations.update (fun k y => k = i ∧ y.status = .prepared)
        (Integration.completed c now) ∧
      store.runs = d.runs.update (fun k x => k = r ∧ x.status = .committing)
        (Run.completed none now) ∧
      store.locks = d.releaseLock r ∧ store.snapshots = d.snapshots := by
  unfold finalizeCompleted at h
  split at h
  · cases h
  · rename_i x hx
    split at h
    · cases h
    · rename_i hst
      split at h
      · cases h
      · rename_i hc
        split at h
        · cases h
        · split at h
          · cases h
          · cases h
            exact ⟨x, hx, not_not.1 hst, not_not.1 hc, rfl, rfl, rfl, rfl⟩

theorem written_finalized {stage : Stage} {a : Application} {i : IntegrationId} {c : Commit}
    (hst : stage = .observed a i c ∨ ∃ e, stage = .retried a i c e)
    (h : finalizeCompleted s.db.store a.runId i c now = .ok store) :
    StoreWritten s (s.setStore store) (.process stage) := by
  obtain ⟨x, hx, hxs, hxc, hi, hruns, hlocks, hs⟩ := finalizeCompleted_ok h
  refine ⟨.update hruns fun k y hy hk => ?_, .release hlocks ?_ fun y hy => ?_,
    .update hi fun k y _ => ⟨rfl, rfl, rfl, rfl, .inr (.inr rfl)⟩, .same hs ?_⟩
  · obtain ⟨rfl, hys⟩ := of_decide_eq_true hk
    obtain rfl : x = y := by rw [hx] at hy; simpa using hy
    exact .finalized ⟨rfl, rfl, rfl⟩ rfl hst hys hxc rfl
  · rcases hst with rfl | ⟨e, rfl⟩ <;> rfl
  · rw [Site.setStore_store, hruns, Table.get?_update, hx] at hy
    simp only [hxs, decide_true, if_true, Option.map_some, and_self, Option.some.injEq] at hy
    subst hy; rfl
  · rcases hst with rfl | ⟨e, rfl⟩ <;> simp

theorem written_ambiguous {a : Application} {i : IntegrationId} {m : Option Commit} {e : String} :
    StoreWritten s (s.setStore (markAmbiguousFailure s.db.store a.runId i e m now))
      (.process (.ambiguous a i m e)) := by
  refine ⟨.update (p := fun k x => k = a.runId ∧ x.status = .committing) (f := Run.ambiguous now) rfl
    fun k x _ hk => ?_, .same rfl rfl,
    .update (p := fun k _ => k = i) (f := Integration.ambiguous e m now) rfl fun k y _ =>
      ⟨rfl, rfl, rfl, rfl, .inr (.inl rfl)⟩, .same rfl (by simp)⟩
  obtain ⟨rfl, hx⟩ := of_decide_eq_true hk
  exact .ambiguous ⟨rfl, rfl, rfl⟩ rfl hx rfl rfl

theorem written_resumeReady {status : RunStatus} (hst : status = .running ∨ status = .reviewing) :
    StoreWritten s (s.setStore (resumeHeartbeat s.db.store r status now))
      (.process (.resuming r status)) := by
  refine ⟨.update (p := fun k x => k = r ∧ x.status = status) (f := Run.resumable now) rfl
    fun k x _ hk => ?_, .heartbeat (r := r) rfl rfl, .same rfl, .same rfl (by simp)⟩
  obtain ⟨rfl, hx⟩ := of_decide_eq_true hk
  refine .kept ⟨rfl, rfl, rfl⟩ rfl fun hr => ?_
  rw [hr] at hx
  rcases hst with h | h <;> rw [h] at hx <;> cases hx

theorem resumeFinish_ok {d : Store} {i : IntegrationId} {c : Commit}
    (h : resumeFinish d r i c now = .ok store) :
    ∃ x, d.runs.get? r = some x ∧ (x.status = .committing ∨ x.status = .recovering) ∧
      store.integrations = d.integrations.update
        (fun k y => k = i ∧ (y.status = .prepared ∨ y.status = .failed))
        (Integration.resumed c now) ∧
      store.runs = d.runs.updateAt r (Run.completed (some .resumeSafe) now) ∧
      store.locks = d.releaseLock r ∧ store.snapshots = d.snapshots := by
  unfold resumeFinish at h
  split at h
  · cases h
  · rename_i x hx
    split at h
    · cases h
    · rename_i hst
      split at h
      · cases h
      · split at h
        · cases h
        · cases h
          exact ⟨x, hx, not_not.1 hst, rfl, rfl, rfl, rfl⟩

theorem written_resumeFinishing {i : IntegrationId} {c : Commit}
    (h : resumeFinish s.db.store r i c now = .ok store) :
    StoreWritten s (s.setStore store) (.process (.resumeFinishing r i c)) := by
  obtain ⟨x, hx, hxs, hi, hruns, hlocks, hs⟩ := resumeFinish_ok h
  refine ⟨.updateAt hruns fun y hy => ?_,
    .release hlocks rfl fun _ hx => ended_updateAt hruns (fun _ => rfl) hx,
    .update hi fun k y _ => ⟨rfl, rfl, rfl, rfl, .inr (.inr rfl)⟩, .same hs (by simp)⟩
  obtain rfl : x = y := by rw [hx] at hy; simpa using hy
  exact .resumed ⟨rfl, rfl, rfl⟩ hxs rfl

theorem failPrepared_written {s' : Site} {wr : Writer} {e : String}
    (h : s'.db.store.integrations = s.db.store.failPreparedIntegrations r e now) :
    IntegrationsWritten s s' wr :=
  .update (p := fun _ i => i.runId = r ∧ i.status = .prepared) (f := Integration.abandoned e now) h
    fun _ _ _ => ⟨rfl, rfl, rfl, rfl, .inr (.inl rfl)⟩

theorem written_forcing :
    StoreWritten s (s.setStore (forceRollback s.db.store r now)) (.process (.forcing r)) :=
  ⟨.updateAt (f := Run.rollingBack now) rfl fun _ _ => .forced ⟨rfl, rfl, rfl⟩ rfl rfl,
    .same rfl rfl, failPrepared_written rfl, .same rfl (by simp)⟩

theorem ensureLockForBlock_ok {d : Store} {x : Run} {owner : String} {locks : Table ProjectId Lock}
    (h : ensureLockForBlock d r x owner now = .ok locks) :
    (locks = d.locks ∧ ∃ l, d.locks.get? x.projectId = some l ∧ l.runId = r) ∨
      ∃ l, l.runId = r ∧ d.lockPresent r = false ∧ d.locks.insert x.projectId l = some locks := by
  unfold ensureLockForBlock at h
  split at h
  · rename_i l hl
    split at h
    · cases h
    · rename_i hr; cases h; exact .inl ⟨rfl, l, hl, not_not.1 hr⟩
  · split at h
    · cases h
    · rename_i hp
      dsimp only at h
      split at h
      · rename_i locks hins
        cases h
        exact .inr ⟨_, rfl, by simpa using hp, hins⟩
      · cases h

/-- The pending approval that `apply_block` needs is there or can be inserted. -/
def Store.canAskApproval (s : Store) (r : RunId) (i : ApprovalId) : Bool :=
  s.approvals.any (fun _ a => a.runId = r ∧ a.status = .pending) || (s.approvals.get? i).isNone

theorem applyBlock_ok {d : Store} {owner : String} {i : ApprovalId}
    (h : applyBlock d r owner i now = .ok store) :
    ∃ x locks, d.runs.get? r = some x ∧ ensureLockForBlock d r x owner now = .ok locks ∧
      d.canAskApproval r i = true ∧ store.integrations = d.failPreparedIntegrations r "Recovery requires human decision" now ∧
      store.runs = d.runs.updateAt r (Run.waiting now) ∧
      store.locks = locks.update (fun _ l => l.runId = r) (fun l => { l with heartbeatAt := now }) ∧
      store.snapshots = d.snapshots := by
  unfold applyBlock at h
  split at h
  · cases h
  · rename_i x hx
    obtain ⟨locks, hl, h⟩ := Except.bind_ok.1 h
    dsimp only at h
    split at h
    · rename_i hp
      cases h
      exact ⟨x, locks, hx, hl, by rw [Store.canAskApproval, hp, Bool.true_or], rfl, rfl, rfl, rfl⟩
    · split at h
      · rename_i hins
        cases h
        refine ⟨x, locks, hx, hl, ?_, rfl, rfl, rfl, rfl⟩
        rw [Store.canAskApproval, Table.get?_of_insert hins, Option.isNone_none, Bool.or_true]
      · cases h

theorem written_blocking {owner : String} {i : ApprovalId}
    (h : applyBlock s.db.store r owner i now = .ok store) :
    StoreWritten s (s.setStore store) (.process (.blocking r owner)) := by
  obtain ⟨x, locks, hx, hl, -, hi, hruns, hlocks, hs⟩ := applyBlock_ok h
  have hrow : store.runs.get? r = some (x.waiting now) := by
    rw [hruns, Table.get?_updateAt, if_pos rfl, hx]; rfl
  have hbeat : ∀ p, (store.locks.get? p).map Lock.runId = (locks.get? p).map Lock.runId := by
    intro p
    rw [hlocks, Table.get?_update, Option.map_map]
    congr 1
    funext l
    simp only [Function.comp]
    split <;> rfl
  have hbeat' : ∀ {p l}, store.locks.get? p = some l → ∃ l', locks.get? p = some l' ∧
      l'.runId = l.runId := by
    intro p l hp
    have := hbeat p
    rw [hp, Option.map_some] at this
    exact Option.map_eq_some_iff.1 this.symm
  refine ⟨.updateAt hruns fun y hy => ?_, ⟨fun p l hp => .inl ?_, fun p l hp => ?_,
    fun p l _ => by simp [Writer.releases], fun k y hk => by simp [Writer.releases] at hk⟩,
    failPrepared_written hi, .same hs (by simp)⟩
  · exact .blocked ⟨rfl, rfl, rfl⟩ rfl
  · have hold : locks.get? p = some l := by
      rcases ensureLockForBlock_ok hl with ⟨rfl, -⟩ | ⟨m, -, -, hins⟩
      · exact hp
      · rw [Table.get?_insert hins, if_neg]
        · exact hp
        · rintro rfl; rw [Table.get?_of_insert hins] at hp; cases hp
    have := hbeat p
    rw [hold, Option.map_some] at this
    exact Option.map_eq_some_iff.1 this
  · obtain ⟨m, hm, hml⟩ := hbeat' hp
    rcases ensureLockForBlock_ok hl with ⟨rfl, -⟩ | ⟨n, hn, -, hins⟩
    · exact .inl ⟨m, hm, hml⟩
    · rw [Table.get?_insert hins] at hm
      split at hm
      · rename_i hpx
        cases hm
        have hlr : l.runId = r := hml.symm.trans hn
        exact .inr ⟨x.waiting now, by rw [hlr]; exact hrow, hpx.symm, .inr rfl⟩
      · exact .inl ⟨m, hm, hml⟩

end Transactions

/-! ### Every writer -/

theorem Stage.Succeeds.written {h : History} {now : Time} {fresh : Nat} {s s' : Site}
    {stage : Stage} {p : Progress} (hs : stage.Succeeds h now fresh s s' p) :
    StoreWritten s s' (.process stage) := by
  cases hs with
  | begin h => exact written_begin h
  | activating h => exact written_activating h
  | aborting => exact written_aborting
  | submitted => exact written_submitted
  | rollback h => exact written_rollback h
  | rollingBack => exact written_rolledBack (.inl rfl)
  | checked h => exact written_checked h
  | prepare ha h => exact written_prepare ha h
  | record ha h => exact written_record ha h
  | observed h => exact written_finalized (.inl rfl) h
  | retried h => exact written_finalized (.inr ⟨_, rfl⟩) h
  | ambiguous => exact written_ambiguous
  | resumeReady h => exact written_resumeReady h
  | resumeFinishing h => exact written_resumeFinishing h
  | abortSnapshotting => exact written_rolledBack (.inr rfl)
  | forcing => exact written_forcing
  | blocking h => exact written_blocking h
  | _ => exact .same rfl rfl (by simp)

/-- The marking of a run whose cleanup failed. -/
theorem written_marked {s s' : Site} {r : RunId} {reason : String} {now : Time}
    (h : s'.db = World.markedDb s.db r reason now) : StoreWritten s s' (.cleanup r) := by
  have hst : s'.db.store =
      (markCancellationCleanupRecovery s.db.graph s.db.store r reason now).1 := by rw [h]; rfl
  unfold markCancellationCleanupRecovery at hst
  split at hst
  · exact .same hst rfl (by simp)
  · rename_i x hx
    split at hst
    · exact .same hst rfl (by simp)
    · rename_i hc
      split at hst
      · exact .same hst rfl (by simp)
      · rename_i hd
        refine ⟨.updateAt (k := r) (f := Run.rollingBack now) (by rw [hst]) fun y hy => ?_,
          .same (by rw [hst]) rfl, failPrepared_written (r := r) (e := reason)
            (by rw [hst]), .same (by rw [hst]) (by simp)⟩
        obtain rfl : x = y := by rw [hx] at hy; simpa using hy
        exact .marked ⟨rfl, rfl, rfl⟩ hd (fun hs => by simpa [hs] using hc) rfl rfl

end HermesOps
