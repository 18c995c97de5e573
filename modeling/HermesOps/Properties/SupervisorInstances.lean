import HermesOps.Supervisor.Watchdog

/-! The supervisors over every interleaving of their processes. The lock admits one process at a time,
    which is the only one that writes and writes to its own row, so that at most one row is alive; a row
    that failed or was abandoned stays as it is. -/

namespace HermesOps.Supervisor

open Schemes

/-! ### The lock -/

/-- The process has the lock. -/
def Phase.holds : Phase → Bool
  | .entering | .refused | .ended => false
  | _ => true

def Proc.holds (p : Proc) : Bool := p.phase.holds

/-- What a process that has the lock does to itself and to the store. -/
inductive Own (p : Proc) (s : Store) : Proc → Store → Prop
  | worked (d : Draws) : Own p s { p with phase := (work s p true d).1 } (work s p true d).2
  | raised (e : String) : Own p s { p with phase := p.phase.raised e } s
  | signalled : Own p s { p with stop := true } s
  | interrupted : Own p s { p with phase := .closing } s
  | killed : Own p s { p with phase := .ended } s

/-- The process has just got the lock. -/
def Enters (_ p' : Proc) : Prop := p'.phase = .locked ∨ p'.phase = .probing

abbrev Moves (w w' : World) : Prop := Monitor.Move Proc.holds Enters Own w w'

abbrev Exclusive (w : World) : Prop := Monitor.Exclusive Proc.holds w

section Steps

variable {w : World} {s : Store} {p p' : Proc} {i : Nat} {d : Draws} {phase : Phase} {l : Bool}

theorem beginSweep_holds {id : String} {trigger : Trigger} :
    (beginSweep s p d id trigger).1.holds = true := by
  unfold beginSweep
  dsimp only
  split <;> rfl

theorem sweepStep_holds {id sweepId : String} {trigger : Trigger} {health : Health} {stage : Stage} :
    (sweepStep s p l d id trigger sweepId health stage).1.holds = true := by
  cases stage with
  | recovering => rw [sweepStep]; split <;> rfl
  | completing recovery => rw [sweepStep]; split <;> rfl
  | returned => rw [sweepStep]; split <;> rfl
  | _ => rfl

theorem register_holds : (register s p d).1.holds = true ∨ (register s p d).1 = .ended := by
  unfold register
  dsimp only
  split
  · exact .inl rfl
  · exact .inr rfl

/-- A process keeps the lock to its end. -/
theorem work_holds (hin : p.holds = true) : (work s p l d).1.holds = true ∨ (work s p l d).1 = .ended := by
  unfold Proc.holds at hin
  unfold work
  cases hphase : p.phase with
  | entering => rw [hphase] at hin; cases hin
  | refused => exact .inr rfl
  | probing => exact .inr rfl
  | closing => exact .inr rfl
  | ended => exact .inr rfl
  | locked => exact register_holds
  | starting id => dsimp only; split <;> exact .inl rfl
  | waiting id last =>
    cases last with
    | none => exact .inl rfl
    | some last => dsimp only; split <;> exact .inl rfl
  | retrying id last => exact .inl rfl
  | gated id health => dsimp only; split <;> exact .inl rfl
  | beginning id trigger => exact .inl beginSweep_holds
  | sweeping id trigger sweepId health stage => exact .inl sweepStep_holds
  | idle id =>
    dsimp only
    split
    · exact .inl rfl
    · dsimp only
      split <;> exact .inl rfl
  | stopping id => exact .inl rfl
  | finishing id => exact .inl rfl
  | handling id e => dsimp only; split <;> exact .inl rfl
  | handled id e => exact .inl rfl

theorem raised_holds (e : String) (hin : phase.holds = true) :
    (phase.raised e).holds = true ∨ phase.raised e = .ended := by
  cases phase with
  | sweeping id trigger sweepId health stage => cases stage <;> exact .inl rfl
  | probing => exact .inr rfl
  | locked => exact .inr rfl
  | ended => exact .inr rfl
  | refused => cases hin
  | entering => cases hin
  | _ => exact .inl rfl

theorem out_cases (hout : p.holds = false) : p.phase = .entering ∨ p.phase = .refused ∨
    p.phase = .ended := by
  unfold Proc.holds at hout
  cases hphase : p.phase with
  | entering => exact .inl rfl
  | refused => exact .inr (.inl rfl)
  | ended => exact .inr (.inr rfl)
  | _ => rw [hphase] at hout; cases hout

/-- A step of the holder. -/
theorem settle_own (hx : Exclusive w) (hp : w.procs[i]? = some p) (hin : p.holds = true)
    (hphase : phase.holds = true ∨ phase = .ended) (ho : Own p w.store { p with phase } s) :
    Moves w (w.settle i p phase s) := by
  unfold World.settle
  rcases hphase with hphase | rfl
  · have hended : phase.isEnded = false := by cases phase <;> first | rfl | cases hphase
    rw [hended, if_neg (by simp)]
    exact .work hp hin hphase ho
  · rw [if_pos ⟨rfl, hx.locked hp hin⟩]
    exact .release hp hin rfl ho

/-- A step of another process. -/
theorem settle_aside (hx : Exclusive w) (hp : w.procs[i]? = some p) (hout : p.holds = false)
    (hphase : phase.holds = false) : Moves w (w.settle i p phase w.store) := by
  unfold World.settle
  rw [if_neg fun h => hx.unlocked hp hout h.2]
  exact .aside hp hout hphase

theorem acquireLock_moves (hx : Exclusive w) (hp : w.procs[i]? = some p) (hout : p.holds = false) :
    Moves w (w.acquireLock i p) := by
  unfold World.acquireLock
  split
  · rename_i hfree hcommand
    exact .acquire hp hfree rfl (.inr rfl)
  · rename_i hfree hcommand
    exact .acquire hp hfree rfl (.inl rfl)
  · exact settle_aside hx hp hout rfl
  · exact settle_aside hx hp hout rfl

theorem advance_moves (hx : Exclusive w) (hp : w.procs[i]? = some p) (d : Draws) :
    Moves w (w.advance i p d) := by
  unfold World.advance
  cases hin : p.holds with
  | false =>
    rcases out_cases hin with hphase | hphase | hphase
    · rw [hphase]
      exact acquireLock_moves hx hp hin
    · have hwork : work w.store p w.lock.isSome d = (.ended, w.store) := by rw [work, hphase]
      rw [hwork, hphase]
      exact settle_aside hx hp hin rfl
    · have hwork : work w.store p w.lock.isSome d = (.ended, w.store) := by rw [work, hphase]
      rw [hwork, hphase]
      exact settle_aside hx hp hin rfl
  | true =>
    have hlock : w.lock.isSome = true := by rw [hx.locked hp hin]; rfl
    rw [hlock]
    split
    · rename_i hphase
      unfold Proc.holds at hin
      rw [hphase] at hin
      cases hin
    · exact settle_own hx hp hin (work_holds hin) (.worked d)

theorem act_moves (hx : Exclusive w) (hp : w.procs[i]? = some p) (a : Action) : Moves w (w.act i p a) := by
  have hin_of {id : String} (h : p.phase.instanceId = some id) : p.holds = true := by
    unfold Proc.holds
    cases hphase : p.phase <;> rw [hphase] at h <;> first | rfl | cases h
  cases a with
  | start command hostname pid => exact .rest
  | advance j d => exact advance_moves hx hp d
  | raise j e =>
    rw [World.act]
    cases hin : p.holds with
    | false =>
      rcases out_cases hin with hphase | hphase | hphase <;> rw [hphase] <;>
        exact settle_aside hx hp hin rfl
    | true => exact settle_own hx hp hin (raised_holds e hin) (.raised e)
  | signal j =>
    rw [World.act]
    split
    · split
      · rename_i hsome
        obtain ⟨id, hid⟩ := Option.isSome_iff_exists.1 hsome
        exact .work hp (hin_of hid) (hin_of hid) .signalled
      · exact .rest
    · exact .rest
  | interrupt j =>
    rw [World.act]
    split
    · split
      · rename_i hsome
        obtain ⟨id, hid⟩ := Option.isSome_iff_exists.1 hsome
        exact settle_own hx hp (hin_of hid) (.inl rfl) .interrupted
      · exact .rest
    · exact .rest
  | kill j =>
    rw [World.act]
    cases hin : p.holds with
    | false => exact settle_aside hx hp hin rfl
    | true => exact settle_own hx hp hin (.inr rfl) .killed

theorem onProc_moves (hx : Exclusive w) (i : Nat) (a : Action) : Moves w (w.onProc i a) := by
  unfold World.onProc
  cases hp : w.procs[i]? with
  | none => exact .rest
  | some p => exact act_moves hx hp a

theorem step_moves (hx : Exclusive w) (a : Action) : Moves w (step a w) := by
  cases a with
  | start command hostname pid => exact .join rfl
  | _ => exact onProc_moves hx _ _

end Steps

/-! ### Rows of instances -/

/-- How the status of a row may change. -/
def InstanceStatus.leads : InstanceStatus → InstanceStatus → Bool
  | .starting, new => new ≠ .stopping
  | .running, new => new ∉ [.starting, .stopping]
  | .stopped, new => new ∈ [.stopped, .failed]
  | old, new => new = old

/-- A row some steps later. -/
structure InstanceRow.Leads (row row' : InstanceRow) : Prop where
  hostname : row'.hostname = row.hostname
  pid : row'.pid = row.pid
  owner : row'.owner = row.owner
  startedAt : row'.startedAt = row.startedAt
  status : row.status.leads row'.status = true
  final : row.status ∈ [.failed, .abandoned] → row' = row

theorem InstanceStatus.leads_refl (a : InstanceStatus) : a.leads a = true := by cases a <;> rfl

theorem InstanceStatus.leads_trans {a b c : InstanceStatus} (h : a.leads b = true) (h' : b.leads c = true) :
    a.leads c = true := by
  cases a <;> cases b <;> cases c <;> first | rfl | exact absurd h (by decide) | exact absurd h' (by decide)

theorem InstanceRow.Leads.refl (row : InstanceRow) : row.Leads row :=
  ⟨rfl, rfl, rfl, rfl, row.status.leads_refl, fun _ => rfl⟩

theorem InstanceRow.Leads.trans {a b c : InstanceRow} (h : a.Leads b) (h' : b.Leads c) : a.Leads c where
  hostname := h'.hostname.trans h.hostname
  pid := h'.pid.trans h.pid
  owner := h'.owner.trans h.owner
  startedAt := h'.startedAt.trans h.startedAt
  status := InstanceStatus.leads_trans h.status h'.status
  final hfinal := by
    have hb := h.final hfinal
    rw [← hb]
    exact h'.final (by rw [hb]; exact hfinal)

/-- No row is lost, and each goes on from where it was. -/
def Continues (t t' : Table String InstanceRow) : Prop :=
  ∀ id row, t.get? id = some row → ∃ row', t'.get? id = some row' ∧ row.Leads row'

/-- At most one row is alive. -/
def LiveUnique (t : Table String InstanceRow) : Prop :=
  ∀ id id' row row', t.get? id = some row → t.get? id' = some row' → row.isLive = true →
    row'.isLive = true →
    id = id'

/-- The row has one of these statuses, and no other row is alive. -/
structure Owns (t : Table String InstanceRow) (id : String) (statuses : List InstanceStatus) : Prop where
  row : ∃ row, t.get? id = some row ∧ row.status ∈ statuses
  live : ∀ id' row, t.get? id' = some row → row.isLive = true → id' = id

section Rows

variable {t t' : Table String InstanceRow} {id : String} {statuses statuses' : List InstanceStatus}
  {now : Time}
  {u : InstanceUpdate}

theorem Continues.refl (t : Table String InstanceRow) : Continues t t :=
  fun _ row hrow => ⟨row, hrow, .refl row⟩

theorem Continues.trans {t'' : Table String InstanceRow} (h : Continues t t') (h' : Continues t' t'') :
    Continues t t'' := by
  intro id row hrow
  obtain ⟨row', hrow', hleads⟩ := h id row hrow
  obtain ⟨row'', hrow'', hleads'⟩ := h' id row' hrow'
  exact ⟨row'', hrow'', hleads.trans hleads'⟩

theorem Owns.liveUnique (h : Owns t id statuses) : LiveUnique t :=
  fun a b _ _ ha hb hlive hlive' => (h.live a _ ha hlive).trans (h.live b _ hb hlive').symm

theorem Owns.mono (h : Owns t id statuses) (hsub : ∀ s ∈ statuses, s ∈ statuses') :
    Owns t id statuses' := by
  obtain ⟨row, hrow, hs⟩ := h.row
  exact ⟨⟨row, hrow, hsub _ hs⟩, h.live⟩

/-- `update_instance` of the own row. -/
theorem Owns.update (h : Owns t id statuses) (hu : ∀ s ∈ statuses, u.status.getD s ∈ statuses') :
    Owns (t.updateAt id (u.apply now)) id statuses' := by
  obtain ⟨row, hrow, hs⟩ := h.row
  refine ⟨⟨u.apply now row, ?_, hu _ hs⟩, fun id' row' hrow' hlive => ?_⟩
  · rw [Table.get?_updateAt, if_pos rfl, hrow, Option.map_some]
  · rw [Table.get?_updateAt] at hrow'
    split at hrow'
    · rename_i heq
      exact heq
    · exact h.live id' row' hrow' hlive

theorem Owns.continues (h : Owns t id statuses)
    (hu : ∀ s ∈ statuses, s ∉ [.failed, .abandoned] ∧ s.leads (u.status.getD s) = true) :
    Continues t (t.updateAt id (u.apply now)) := by
  intro id' row' hrow'
  rw [Table.get?_updateAt]
  split
  · rename_i heq
    obtain ⟨row, hrow, hs⟩ := h.row
    rw [heq, hrow] at hrow'
    cases hrow'
    refine ⟨u.apply now row', by rw [heq, hrow, Option.map_some], rfl, rfl, rfl, rfl, (hu _ hs).2,
      fun hfinal => ?_⟩
    exact absurd hfinal (hu _ hs).1
  · exact ⟨row', hrow', .refl row'⟩

theorem abandon_leads {row : InstanceRow} (hlive : row.isLive = true) : row.Leads (row.abandon now) := by
  unfold InstanceRow.isLive at hlive
  refine ⟨rfl, rfl, rfl, rfl, ?_, ?_⟩
  · cases hs : row.status <;> rw [hs] at hlive <;> first | rfl | cases hlive
  · intro hfinal
    cases hs : row.status <;> rw [hs] at hlive hfinal <;>
      first | exact absurd hfinal (by decide) | exact absurd hlive (by decide)

/-- `register_instance` on a row that was there before. -/
theorem registerInstance_get {hostname owner id' : String} {pid : Nat} {row : InstanceRow}
    (h : registerInstance t id hostname pid owner now = some t') (hrow : t.get? id' = some row) :
    (row.isLive = false → t'.get? id' = some row) ∧
    (row.isLive = true → t'.get? id' = some (row.abandon now)) := by
  unfold registerInstance at h
  split at h
  · have hkept : (t.update (fun _ row => row.isLive) (InstanceRow.abandon now)).get? id' =
        some (if row.isLive = true then row.abandon now else row) := by
      rw [Table.get?_update, hrow, Option.map_some]
    have hne : id' ≠ id := by
      rintro rfl
      rw [Table.get?_of_insert h] at hkept
      cases hkept
    rw [Table.get?_insert h, if_neg hne, hkept]
    refine ⟨fun hdead => ?_, fun hlive => ?_⟩
    · rw [hdead]
      rfl
    · rw [if_pos hlive]
  · cases h

/-- `register_instance` abandons the row that is alive and starts its own. -/
theorem registerInstance_some {hostname owner : String} {pid : Nat}
    (h : registerInstance t id hostname pid owner now = some t') : Owns t' id [.starting] ∧
    Continues t t' := by
  have hold {id' : String} {row : InstanceRow} (hrow : t.get? id' = some row) := registerInstance_get h hrow
  unfold registerInstance at h
  split at h
  · have hget := Table.get?_insert h
    refine ⟨⟨⟨_, by rw [hget, if_pos rfl], List.mem_singleton.2 rfl⟩, fun id' row hrow hlive => ?_⟩, ?_⟩
    · rw [hget] at hrow
      split at hrow
      · rename_i heq
        exact heq
      · rw [Table.get?_update] at hrow
        obtain ⟨old, -, rfl⟩ := Option.map_eq_some_iff.1 hrow
        split at hlive
        · cases hlive
        · rename_i hdead
          exact absurd hlive hdead
    · intro id' row hrow
      cases hlive : row.isLive with
      | false => exact ⟨row, (hold hrow).1 hlive, .refl row⟩
      | true => exact ⟨row.abandon now, (hold hrow).2 hlive, abandon_leads hlive⟩
  · cases h

end Rows

/-! ### What one process does -/

/-- What the row of a process in this phase may be. -/
def Phase.statuses : Phase → List InstanceStatus
  | .starting _ => [.starting]
  | .finishing _ => [.stopped]
  | .handling _ _ => [.starting, .running, .stopped]
  | .handled _ _ => [.failed]
  | _ => [.running]

/-- The row of a process is as its phase says. -/
def OwnsRow (p : Proc) (s : Store) : Prop :=
  ∀ id, p.phase.instanceId = some id → Owns s.instances id p.phase.statuses

/-- One step of a process on the rows of instances. -/
inductive Touch (t : Table String InstanceRow) (phase phase' : Phase) : Table String InstanceRow → Prop
  | kept (hid : ∀ id, phase'.instanceId = some id → phase.instanceId = some id ∧
      ∀ s ∈ phase.statuses, s ∈ phase'.statuses) : Touch t phase phase' t
  | updated {id : String} (now : Time) (u : InstanceUpdate) (hid : phase.instanceId = some id)
      (hid' : ∀ id', phase'.instanceId = some id' → id' = id)
      (hu : ∀ s ∈ phase.statuses, s ∉ [.failed, .abandoned] ∧ s.leads (u.status.getD s) = true)
      (hu' : phase'.instanceId = some id → ∀ s ∈ phase.statuses, u.status.getD s ∈ phase'.statuses) :
      Touch t phase phase' (t.updateAt id (u.apply now))

/-- What is true of the shared rows. -/
structure InstancesGood (s : Store) : Prop where
  unique : LiveUnique s.instances
  lockHeld : ∀ status, s.status = some status → status.lockHeld = true

section Work

variable {s : Store} {p : Proc} {d : Draws} {l : Bool} {id sweepId : String} {trigger : Trigger}
  {health : Health}
  {t : Table String InstanceRow} {phase phase' : Phase}

/-- A step that leaves the rows alone. -/
theorem Touch.same (hid : phase'.instanceId = phase.instanceId) (hs : phase.statuses = [.running])
    (hs' : phase'.statuses = [.running]) : Touch t phase phase' t :=
  .kept fun id h => ⟨hid ▸ h, by rw [hs, hs']; exact fun _ h => h⟩

/-- A step that is the end of the row. -/
theorem Touch.over (hid : phase'.instanceId = none) : Touch t phase phase' t :=
  .kept fun id h => by rw [hid] at h; cases h

/-- A heartbeat, whatever else it notes. -/
theorem Touch.beat {now : Time} {u : InstanceUpdate} (hu : u.status = none)
    (hid : phase.instanceId = some id)
    (hid' : phase'.instanceId = some id) (hs : phase.statuses = [.running])
    (hs' : phase'.statuses = [.running]) :
    Touch t phase phase' (t.updateAt id (u.apply now)) := by
  refine .updated now u hid (fun id' h => ?_) ?_ fun _ => ?_
  · rw [hid'] at h
    exact (Option.some.inj h).symm
  · rw [hs, hu]
    decide
  · rw [hs, hs', hu]
    decide

theorem sweepStep_touch {stage : Stage} :
    Touch s.instances (.sweeping id trigger sweepId health stage)
      (sweepStep s p l d id trigger sweepId health stage).1
      (sweepStep s p l d id trigger sweepId health stage).2.instances := by
  cases stage with
  | noting before => exact .beat rfl rfl rfl rfl rfl
  | recovering => rw [sweepStep]; split <;> exact .same rfl rfl rfl
  | completing recovery => rw [sweepStep]; split <;> exact .same rfl rfl rfl
  | completed => exact .beat rfl rfl rfl rfl rfl
  | failed e => exact .beat rfl rfl rfl rfl rfl
  | returned => rw [sweepStep]; split <;> exact .same rfl rfl rfl
  | _ => exact .same rfl rfl rfl

theorem startSweep_instances {row : SweepRow} {s' : Store} (h : s.startSweep sweepId row = .ok s') :
    s'.instances = s.instances ∧ s'.status = s.status := by
  unfold Store.startSweep at h
  split at h
  · split at h
    · cases h
      exact ⟨rfl, rfl⟩
    · cases h
  · cases h

theorem beginSweep_touch : Touch s.instances (.beginning id trigger) (beginSweep s p d id trigger).1
    (beginSweep s p d id trigger).2.instances := by
  unfold beginSweep
  dsimp only
  split
  · rename_i s' h
    dsimp only
    rw [(startSweep_instances h).1]
    exact .same rfl rfl rfl
  · refine .kept fun _ h => ⟨h, ?_⟩
    change ∀ s ∈ [InstanceStatus.running], s ∈ [InstanceStatus.starting, .running, .stopped]
    decide

/-- A registered process touches its own row only. -/
theorem work_touch (hid : p.phase.instanceId = some id) :
    Touch s.instances p.phase (work s p l d).1 (work s p l d).2.instances := by
  unfold work
  cases hphase : p.phase with
  | starting id =>
    refine .updated d.now { status := some .running } rfl (fun id' h => ?_) ?_ fun _ => ?_
    · cases hcommand : p.command <;> rw [hcommand] at h <;> exact (Option.some.inj h).symm
    · change ∀ s ∈ [InstanceStatus.starting], s ∉ [.failed, .abandoned] ∧ s.leads .running = true
      decide
    · cases p.command <;>
      · change ∀ s ∈ [InstanceStatus.starting], InstanceStatus.running ∈ [InstanceStatus.running]
        decide
  | waiting id last =>
    cases last with
    | none => exact .same rfl rfl rfl
    | some last =>
      dsimp only
      split
      · exact .beat rfl rfl rfl rfl rfl
      · exact .same rfl rfl rfl
  | retrying id last => exact .same rfl rfl rfl
  | gated id health =>
    dsimp only
    split <;> exact .same rfl rfl rfl
  | beginning id trigger => exact beginSweep_touch
  | sweeping id trigger sweepId health stage => exact sweepStep_touch
  | idle id =>
    dsimp only
    split
    · exact .same rfl rfl rfl
    · dsimp only
      split <;> exact .beat rfl rfl rfl rfl rfl
  | stopping id =>
    refine .updated d.now { status := some .stopped, stopped := true } rfl
      (fun id' h => (Option.some.inj h).symm)
      ?_ fun _ => ?_
    · change ∀ s ∈ [InstanceStatus.running], s ∉ [.failed, .abandoned] ∧ s.leads .stopped = true
      decide
    · change ∀ s ∈ [InstanceStatus.running], InstanceStatus.stopped ∈ [InstanceStatus.stopped]
      decide
  | finishing id =>
    dsimp only
    split <;> exact .over rfl
  | handling id e =>
    refine .updated d.now { status := some .failed, lastError := some e, stopped := true } rfl
      (fun id' h => ?_)
      ?_ fun _ => ?_
    · cases hcommand : p.command <;> rw [hcommand] at h <;> first | exact (Option.some.inj h).symm | cases h
    · change ∀ s ∈ [InstanceStatus.starting, .running, .stopped],
        s ∉ [.failed, .abandoned] ∧ s.leads .failed = true
      decide
    · rename_i h
      cases hcommand : p.command <;> rw [hcommand] at h <;> cases h
      change ∀ s ∈ [InstanceStatus.starting, .running, .stopped],
        InstanceStatus.failed ∈ [InstanceStatus.failed]
      decide
  | handled id e => exact .over rfl
  | _ => rw [hphase] at hid; cases hid

theorem raised_touch (e : String) : Touch t phase (phase.raised e) t := by
  have hrunning : ∀ s ∈ [InstanceStatus.running], s ∈ [InstanceStatus.starting, .running, .stopped] :=
    by decide
  cases phase with
  | starting id =>
    refine .kept fun _ h => ⟨h, ?_⟩
    change ∀ s ∈ [InstanceStatus.starting], s ∈ [InstanceStatus.starting, .running, .stopped]
    decide
  | finishing id =>
    refine .kept fun _ h => ⟨h, ?_⟩
    change ∀ s ∈ [InstanceStatus.stopped], s ∈ [InstanceStatus.starting, .running, .stopped]
    decide
  | sweeping id trigger sweepId health stage =>
    cases stage <;> first | exact .same rfl rfl rfl | exact .kept fun _ h => ⟨h, hrunning⟩
  | handling id e => exact .over rfl
  | handled id e => exact .over rfl
  | entering => exact .over rfl
  | refused => exact .over rfl
  | probing => exact .over rfl
  | locked => exact .over rfl
  | closing => exact .over rfl
  | ended => exact .over rfl
  | _ => exact .kept fun _ h => ⟨h, hrunning⟩

/-- The status file is left alone or says that the lock is held. -/
theorem work_status {status : RuntimeStatus} (h : (work s p true d).2.status = some status) :
    s.status = some status ∨ status.lockHeld = true := by
  have hwritten {id state : String} {health : Health} {sweepId : Option String} {message : String}
      (h : (writeRuntimeStatus s p true d id state health sweepId message).status = some status) :
      status.lockHeld = true := by
    cases h
    rfl
  unfold work at h
  cases hphase : p.phase with
  | locked =>
    rw [hphase] at h
    dsimp only [register] at h
    split at h <;> exact .inl h
  | waiting id last =>
    rw [hphase] at h
    cases last with
    | none => exact .inl h
    | some last =>
      dsimp only at h
      split at h <;> exact .inl h
  | retrying id last => rw [hphase] at h; exact .inr (hwritten h)
  | gated id health => rw [hphase] at h; exact .inr (hwritten h)
  | beginning id trigger =>
    rw [hphase] at h
    dsimp only [beginSweep] at h
    split at h
    · rename_i s' hs
      rw [(startSweep_instances hs).2] at h
      exact .inl h
    · exact .inl h
  | sweeping id trigger sweepId health stage =>
    rw [hphase] at h
    dsimp only at h
    cases stage with
    | skipped => exact .inr (hwritten h)
    | reporting => exact .inr (hwritten h)
    | degraded e => exact .inr (hwritten h)
    | recovering => rw [sweepStep] at h; split at h <;> exact .inl h
    | completing recovery => rw [sweepStep] at h; split at h <;> exact .inl h
    | returned => rw [sweepStep] at h; split at h <;> exact .inl h
    | _ => exact .inl h
  | idle id =>
    rw [hphase] at h
    dsimp only at h
    split at h <;> exact .inl h
  | finishing id =>
    rw [hphase] at h
    dsimp only at h
    split at h
    · exact .inr (hwritten h)
    · exact .inl h
  | handled id e => rw [hphase] at h; exact .inr (hwritten h)
  | _ => rw [hphase] at h; exact .inl h

end Work

/-! ### Every run -/

section Runs

variable {s s' : Store} {p p' : Proc} {w : World} {t t' : Table String InstanceRow} {phase phase' : Phase}

theorem Touch.owns (ht : Touch t phase phase' t')
    (h : ∀ id, phase.instanceId = some id → Owns t id phase.statuses) :
    (∀ id, phase'.instanceId = some id → Owns t' id phase'.statuses) ∧ Continues t t' ∧
      (LiveUnique t → LiveUnique t') := by
  cases ht with
  | kept hid => exact ⟨fun id hid' => (h id (hid id hid').1).mono (hid id hid').2, .refl t, fun h => h⟩
  | @updated id now u hid hid' hu hu' =>
    have howns := h id hid
    refine ⟨fun id' h' => ?_, howns.continues hu, fun _ => ?_⟩
    · obtain rfl := hid' id' h'
      exact howns.update (hu' h')
    · exact (howns.update fun s hs => List.mem_map.2 ⟨s, hs, rfl⟩).liveUnique

/-- What a process that has the lock keeps, and how it leaves the rows. -/
theorem Own.instances (hin : p.holds = true) (hgood : InstancesGood s) (hrow : OwnsRow p s)
    (ho : Own p s p' s') :
    InstancesGood s' ∧ OwnsRow p' s' ∧ Continues s.instances s'.instances := by
  have hkept {p' : Proc} (ht : Touch s.instances p.phase p'.phase s.instances) :
      InstancesGood s ∧ OwnsRow p' s ∧ Continues s.instances s.instances :=
    ⟨hgood, (ht.owns hrow).1, .refl _⟩
  cases ho with
  | raised e => exact hkept (raised_touch e)
  | signalled => exact ⟨hgood, hrow, .refl _⟩
  | interrupted => exact hkept (.over rfl)
  | killed => exact hkept (.over rfl)
  | worked d =>
    have hstatus : ∀ status, (work s p true d).2.status = some status → status.lockHeld = true := by
      intro status h
      rcases work_status h with h | h
      · exact hgood.lockHeld status h
      · exact h
    cases hid : p.phase.instanceId with
    | some id =>
      obtain ⟨howns, hcontinues, hunique⟩ := (work_touch (s := s) (l := true) (d := d) hid).owns hrow
      exact ⟨⟨hunique hgood.unique, hstatus⟩, howns, hcontinues⟩
    | none =>
      cases hphase : p.phase with
      | locked =>
        have hwork : work s p true d = register s p d := by rw [work, hphase]
        rw [hwork, register]
        split
        · rename_i instances hnew
          obtain ⟨howns, hcontinues⟩ := registerInstance_some hnew
          refine ⟨⟨howns.liveUnique, hgood.lockHeld⟩, fun id h => ?_, hcontinues⟩
          obtain rfl := Option.some.inj h
          exact howns
        · exact hkept (.over rfl)
      | probing =>
        have hwork : work s p true d = (.ended, s) := by rw [work, hphase]
        rw [hwork]
        exact hkept (.over rfl)
      | closing =>
        have hwork : work s p true d = (.ended, s) := by rw [work, hphase]
        rw [hwork]
        exact hkept (.over rfl)
      | entering => rw [Proc.holds, hphase] at hin; cases hin
      | refused => rw [Proc.holds, hphase] at hin; cases hin
      | ended => rw [Proc.holds, hphase] at hin; cases hin
      | _ => rw [hphase] at hid; cases hid

/-- The lock is exclusive, and the rows are those of the holder. -/
structure InstancesInv (w : World) : Prop where
  exclusive : Exclusive w
  guarded : Monitor.Guarded Proc.holds InstancesGood OwnsRow w

theorem instancesInv_step (h : InstancesInv w) (a : Action) : InstancesInv (step a w) := by
  have hm := step_moves h.exclusive a
  refine ⟨h.exclusive.move hm, h.guarded.move h.exclusive ?_ ?_ hm⟩
  · rintro p p' s (hphase | hphase) - id hid <;> rw [hphase] at hid <;> cases hid
  · intro p s p' s' hin hgood hrow ho
    obtain ⟨hgood, hrow, -⟩ := ho.instances hin hgood hrow
    exact ⟨hgood, fun _ => hrow⟩

theorem instancesInv_reachable (h : watchdog.Reachable (fun _ _ => True) w) : InstancesInv w := by
  refine Machine.invariant (I := InstancesInv) ?_ (fun a s _ _ hs => instancesInv_step hs a) h
  rintro w rfl
  refine ⟨fun i => ⟨?_, ?_⟩, ⟨⟨?_, ?_⟩, ?_⟩⟩
  · intro h
    cases h
  · rintro ⟨p, hp, -⟩
    cases hp
  · intro id id' row row' hrow
    cases hrow
  · intro status hstatus
    cases hstatus
  · intro i p hp
    cases hp

/-- A row goes on along every run. -/
theorem InstancesInv.continues (h : InstancesInv w) (as : List Action) :
    Continues w.store.instances (watchdog.run w as).store.instances := by
  induction as generalizing w with
  | nil => exact .refl _
  | cons a as ih =>
    refine Continues.trans ?_ (ih (instancesInv_step h a))
    rcases (step_moves h.exclusive a).store_cases with hsame | ⟨i, p, p', hp, hin, ho, -⟩
    · change Continues w.store.instances (step a w).store.instances
      rw [hsame]
      exact .refl _
    · exact (ho.instances hin h.guarded.store (h.guarded.holder i p hp hin)).2.2

end Runs

/-! ### A run -/

def sampleDocker : Docker := ⟨.ok "27.1", fun _ => .state true (some "healthy") none⟩

def sampleDraws (hex : String) : Draws := ⟨100, hex, sampleDocker, ⟨2, 1, 0⟩, true, .ok []⟩

def sampleConfig : Config := ⟨300, by decide⟩

def sampleCommand : Command := .run "ops-supervisor:host" sampleConfig

/-- A supervisor is killed after its registration, and another takes its place. -/
def sampleRun : List Action :=
  [.start sampleCommand "host" 41, .advance 0 (sampleDraws "1"), .advance 0 (sampleDraws "1"),
    .start sampleCommand "host" 42, .advance 1 (sampleDraws "2"), .kill 0, .start sampleCommand "host" 43,
    .advance 2 (sampleDraws "3"), .advance 2 (sampleDraws "3")]

def sampleWorld : World := watchdog.run initial sampleRun

theorem sampleWorld_reachable : watchdog.Reachable (fun _ _ => True) sampleWorld :=
  .run (.start rfl) ⟨trivial, trivial, trivial, trivial, trivial, trivial, trivial, trivial, trivial,
    trivial⟩

end HermesOps.Supervisor
