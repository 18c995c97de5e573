import HermesOps.Properties.SupervisorInstances

/-! The sweeps of the supervisors over every interleaving. A sweep is skipped when a core service is
    unhealthy and starts one recovery otherwise; its row tells what came of it, changes only while its
    process is at it, and stays as it is when that process is gone. -/

namespace HermesOps.Supervisor

open Schemes
open Controller (Json)

/-! ### Rows of sweeps -/

/-- A row is as its status says. -/
def SweepRow.Consistent (sweepId : String) (row : SweepRow) : Prop :=
  match row.status with
  | .running => row.activeRunsAfter = none ∧ row.recoveredRuns = 0 ∧ row.orphanActions = 0 ∧
      row.result = none ∧
      row.failureReason = none ∧ row.finishedAt = none
  | .skipped => row.health.healthy = false ∧ row.activeRunsAfter = some row.activeRunsBefore ∧
      row.recoveredRuns = 0 ∧ row.orphanActions = 0 ∧
      row.result = some ⟨sweepId, row.trigger, true, some "core-services-unhealthy", row.health, none,
        none⟩ ∧
      row.failureReason = some "core services are unhealthy" ∧ row.finishedAt.isSome = true
  | .completed => row.health.healthy = true ∧ row.activeRunsAfter.isSome = true ∧
      (∃ recovery, recoveryCounts recovery = .ok (row.recoveredRuns, row.orphanActions) ∧
        row.result = some ⟨sweepId, row.trigger, false, none, row.health, some (.obj recovery), none⟩) ∧
      row.failureReason = none ∧ row.finishedAt.isSome = true
  | .failed => row.health.healthy = true ∧ row.activeRunsAfter.isSome = true ∧ row.recoveredRuns = 0 ∧
      row.orphanActions = 0 ∧
      (∃ e, row.result = some ⟨sweepId, row.trigger, false, none, row.health, none, some e⟩ ∧
        row.failureReason = some e) ∧ row.finishedAt.isSome = true

/-- What a sweep is about. -/
structure SweepRow.Same (row row' : SweepRow) : Prop where
  instanceId : row'.instanceId = row.instanceId
  controllerOwner : row'.controllerOwner = row.controllerOwner
  trigger : row'.trigger = row.trigger
  staleSeconds : row'.staleSeconds = row.staleSeconds
  servicesHealthy : row'.servicesHealthy = row.servicesHealthy
  health : row'.health = row.health
  activeRunsBefore : row'.activeRunsBefore = row.activeRunsBefore
  startedAt : row'.startedAt = row.startedAt

/-- A row some steps later: as it was, or finished, or a completed sweep that could not be reported. -/
def SweepRow.Leads (row row' : SweepRow) : Prop :=
  row' = row ∨ row.Same row' ∧
    (row.status = .running ∧ row'.status ≠ .running ∨ row.status = .completed ∧ row'.status = .failed)

theorem SweepRow.Same.trans {a b c : SweepRow} (h : a.Same b) (h' : b.Same c) : a.Same c where
  instanceId := h'.instanceId.trans h.instanceId
  controllerOwner := h'.controllerOwner.trans h.controllerOwner
  trigger := h'.trigger.trans h.trigger
  staleSeconds := h'.staleSeconds.trans h.staleSeconds
  servicesHealthy := h'.servicesHealthy.trans h.servicesHealthy
  health := h'.health.trans h.health
  activeRunsBefore := h'.activeRunsBefore.trans h.activeRunsBefore
  startedAt := h'.startedAt.trans h.startedAt

theorem SweepRow.Leads.trans {a b c : SweepRow} (h : a.Leads b) (h' : b.Leads c) : a.Leads c := by
  rcases h with rfl | ⟨hsame, hs⟩
  · exact h'
  · rcases h' with rfl | ⟨hsame', hs'⟩
    · exact .inr ⟨hsame, hs⟩
    · refine .inr ⟨hsame.trans hsame', ?_⟩
      rcases hs with ⟨ha, hb⟩ | ⟨ha, hb⟩
      · rcases hs' with ⟨hb', -⟩ | ⟨-, hc⟩
        · exact absurd hb' hb
        · exact .inl ⟨ha, by rw [hc]; decide⟩
      · rcases hs' with ⟨hb', -⟩ | ⟨hb', -⟩ <;> rw [hb] at hb' <;> cases hb'

/-- The sweeps for which a recovery was started. -/
def Store.launches (s : Store) : List String := s.launched.map Launch.sweepId

/-- What is true of the shared sweeps. -/
structure SweepsGood (s : Store) : Prop where
  consistent : ∀ sweepId row, s.sweeps.get? sweepId = some row → row.Consistent sweepId
  checked : ∀ sweepId row, s.sweeps.get? sweepId = some row →
    row.servicesHealthy = row.health.healthy ∧ 30 ≤ row.staleSeconds ∧ row.staleSeconds ≤ 86400
  launched : ∀ x ∈ s.launched, ∃ row, s.sweeps.get? x.sweepId = some row ∧ row.health.healthy = true ∧
    row.controllerOwner = x.owner ∧ row.staleSeconds = x.staleSeconds
  once : s.launches.Nodup
  completed : ∀ sweepId row, s.sweeps.get? sweepId = some row → row.status = .completed →
    sweepId ∈ s.launches

/-! ### The sweep of a process -/

/-- The sweep a process is at. -/
def Phase.sweepId : Phase → Option String
  | .sweeping _ _ sweepId _ _ => some sweepId
  | _ => none

/-- What the row is at a stage; `launched` says whether the recovery was started. -/
def Stage.Fits (row : SweepRow) (launched : Prop) : Stage → Prop
  | .noting before => row.status = .running ∧ row.activeRunsBefore = before ∧ ¬launched
  | .skipping before => row.status = .running ∧ row.activeRunsBefore = before ∧ row.health.healthy = false
  | .skipped => row.status = .skipped
  | .invoking => row.status = .running ∧ row.health.healthy = true ∧ ¬launched
  | .recovering | .completing _ => row.status = .running ∧ row.health.healthy = true ∧ launched
  | .completed | .reporting => row.status = .completed
  | .failing _ => (row.status = .running ∨ row.status = .completed) ∧ row.health.healthy = true
  | .failed _ | .degraded _ => row.status = .failed
  | .returned => row.status ≠ .running

/-- The row of a process's sweep is as its stage says. -/
structure AtStage (p : Proc) (s : Store) (id : String) (trigger : Trigger) (sweepId : String)
    (health : Health)
    (stage : Stage) (row : SweepRow) : Prop where
  found : s.sweeps.get? sweepId = some row
  instanceId : row.instanceId = id
  trigger : row.trigger = trigger
  owner : row.controllerOwner = p.command.owner
  staleSeconds : row.staleSeconds = p.command.staleSeconds
  health : row.health = health
  fits : stage.Fits row (sweepId ∈ s.launches)

def OwnsSweep (p : Proc) (s : Store) : Prop :=
  ∀ id trigger sweepId health stage, p.phase = .sweeping id trigger sweepId health stage →
    ∃ row, AtStage p s id trigger sweepId health stage row

/-- What one step of a process does to the sweeps. -/
structure Progress (p : Proc) (s : Store) (p' : Proc) (s' : Store) : Prop where
  good : SweepsGood s'
  owns : OwnsSweep p' s'
  leads : ∀ sweepId row, s.sweeps.get? sweepId = some row →
    ∃ row', s'.sweeps.get? sweepId = some row' ∧ row.Leads row'
  others : ∀ sweepId row, s.sweeps.get? sweepId = some row → p.phase.sweepId ≠ some sweepId →
    s'.sweeps.get? sweepId = some row
  fresh : ∀ sweepId, p'.phase.sweepId = some sweepId →
    p.phase.sweepId = some sweepId ∨ s.sweeps.get? sweepId = none

section Stages

variable {p p' : Proc} {s s' : Store} {id sweepId : String} {trigger : Trigger} {health : Health}
  {stage stage' : Stage} {row : SweepRow} {d : Draws} {l : Bool} {phase : Phase}

theorem SweepsGood.congr (h : SweepsGood s) (hsweeps : s'.sweeps = s.sweeps)
    (hlaunched : s'.launched = s.launched) :
    SweepsGood s' := by
  obtain ⟨instances, sweeps, status, launched⟩ := s
  obtain ⟨instances', sweeps', status', launched'⟩ := s'
  cases hsweeps
  cases hlaunched
  exact ⟨h.consistent, h.checked, h.launched, h.once, h.completed⟩

/-- A step that leaves the sweeps alone. -/
theorem Progress.quiet (hg : SweepsGood s) (hsweeps : s'.sweeps = s.sweeps)
    (hlaunched : s'.launched = s.launched)
    (howns : OwnsSweep p' s') (hfresh : ∀ sweepId, p'.phase.sweepId = some sweepId →
      p.phase.sweepId = some sweepId ∨ s.sweeps.get? sweepId = none) : Progress p s p' s' where
  good := hg.congr hsweeps hlaunched
  owns := howns
  leads sweepId row hrow := ⟨row, by rw [hsweeps]; exact hrow, .inl rfl⟩
  others sweepId row hrow _ := by rw [hsweeps]; exact hrow
  fresh := hfresh

/-- A step to a phase without a sweep. -/
theorem Progress.leave (hg : SweepsGood s) (hsweeps : s'.sweeps = s.sweeps)
    (hlaunched : s'.launched = s.launched)
    (hphase : p'.phase.sweepId = none) : Progress p s p' s' := by
  refine .quiet hg hsweeps hlaunched (fun id trigger sweepId health stage h => ?_) fun sweepId h => ?_
  · rw [h] at hphase
    cases hphase
  · rw [hphase] at h
    cases h

/-- A step to another stage that leaves the sweeps alone. -/
theorem AtStage.move (hg : SweepsGood s) (h : AtStage p s id trigger sweepId health stage row)
    (hphase : p.phase = .sweeping id trigger sweepId health stage) (hsweeps : s'.sweeps = s.sweeps)
    (hlaunched : s'.launched = s.launched) (hfits : stage'.Fits row (sweepId ∈ s.launches)) :
    Progress p s { p with phase := .sweeping id trigger sweepId health stage' } s' := by
  refine .quiet hg hsweeps hlaunched ?_ fun sweepId h => .inl (by rw [hphase]; exact h)
  intro _ _ _ _ _ heq
  cases heq
  refine ⟨row, by rw [hsweeps]; exact h.found, h.instanceId, h.trigger, h.owner, h.staleSeconds, h.health,
    ?_⟩
  rw [Store.launches, hlaunched]
  exact hfits

/-- `finish_sweep`. -/
theorem AtStage.finish (hg : SweepsGood s) (h : AtStage p s id trigger sweepId health stage row)
    (hphase : p.phase = .sweeping id trigger sweepId health stage) {status : SweepStatus}
    {after runs orphans : Nat}
    {result : SweepResult} {reason : Option String} {now : Time}
    (hcons : (row.finish status after runs orphans result reason now).Consistent sweepId)
    (hlead : row.status = .running ∧ status ≠ .running ∨ row.status = .completed ∧ status = .failed)
    (hcompleted : status = .completed → sweepId ∈ s.launches)
    (hfits : stage'.Fits (row.finish status after runs orphans result reason now) (sweepId ∈ s.launches)) :
    Progress p s { p with phase := .sweeping id trigger sweepId health stage' }
      (s.finishSweep sweepId status after runs orphans result reason now) := by
  have hget (other : String) :
    (s.finishSweep sweepId status after runs orphans result reason now).sweeps.get? other =
      if other = sweepId then some (row.finish status after runs orphans result reason now)
      else s.sweeps.get? other := by
    rw [Store.finishSweep, Table.get?_updateAt]
    split
    · rename_i heq
      rw [heq, h.found, Option.map_some]
    · rfl
  have hold {other : String} {r : SweepRow}
      (hr : (s.finishSweep sweepId status after runs orphans result reason now).sweeps.get? other =
        some r) :
      other = sweepId ∧ r = row.finish status after runs orphans result reason now ∨
        s.sweeps.get? other = some r := by
    rw [hget] at hr
    split at hr
    · rename_i heq
      exact .inl ⟨heq, (Option.some.inj hr).symm⟩
    · exact .inr hr
  refine ⟨⟨?_, ?_, ?_, hg.once, ?_⟩, ?_, ?_, ?_, fun sweepId h => .inl (by rw [hphase]; exact h)⟩
  · intro other r hr
    rcases hold hr with ⟨rfl, rfl⟩ | hr
    · exact hcons
    · exact hg.consistent other r hr
  · intro other r hr
    rcases hold hr with ⟨rfl, rfl⟩ | hr
    · exact hg.checked other row h.found
    · exact hg.checked other r hr
  · intro x hx
    obtain ⟨r, hr, hr'⟩ := hg.launched x hx
    by_cases heq : x.sweepId = sweepId
    · rw [heq, h.found] at hr
      cases hr
      exact ⟨row.finish status after runs orphans result reason now, by rw [heq, hget, if_pos rfl], hr'⟩
    · exact ⟨r, by rw [hget, if_neg heq, hr], hr'⟩
  · intro other r hr hstatus
    rcases hold hr with ⟨rfl, rfl⟩ | hr
    · exact hcompleted hstatus
    · exact hg.completed other r hr hstatus
  · intro _ _ _ _ _ heq
    cases heq
    exact ⟨row.finish status after runs orphans result reason now, by rw [hget, if_pos rfl], h.instanceId,
      h.trigger, h.owner, h.staleSeconds, h.health, hfits⟩
  · intro other r hr
    rw [hget]
    split
    · rename_i heq
      rw [heq, h.found] at hr
      cases hr
      exact ⟨_, rfl, .inr ⟨⟨rfl, rfl, rfl, rfl, rfl, rfl, rfl, rfl⟩, hlead⟩⟩
    · exact ⟨r, hr, .inl rfl⟩
  · intro other r hr hne
    rw [hget, if_neg, hr]
    rintro rfl
    rw [hphase] at hne
    exact hne rfl

/-- The recovery is started. -/
theorem AtStage.launch (hg : SweepsGood s) (h : AtStage p s id trigger sweepId health .invoking row)
    (hphase : p.phase = .sweeping id trigger sweepId health .invoking) :
    Progress p s { p with phase := .sweeping id trigger sweepId health .recovering }
      { s with launched := s.launched ++ [⟨sweepId, p.command.owner, p.command.staleSeconds⟩] } := by
  obtain ⟨hrunning, hhealthy, hnew⟩ := h.fits
  have hlaunches : Store.launches
      { s with launched := s.launched ++ [⟨sweepId, p.command.owner, p.command.staleSeconds⟩] } =
      s.launches ++ [sweepId] := by
    rw [Store.launches, List.map_append]
    rfl
  refine ⟨⟨hg.consistent, hg.checked, ?_, ?_, ?_⟩, ?_, ?_, ?_,
    fun sweepId h => .inl (by rw [hphase]; exact h)⟩
  · intro x hx
    rcases List.mem_append.1 hx with hx | hx
    · exact hg.launched x hx
    · rw [List.mem_singleton] at hx
      rw [hx]
      exact ⟨row, h.found, hhealthy, h.owner, h.staleSeconds⟩
  · rw [hlaunches]
    refine hg.once.append (List.nodup_singleton _) ?_
    intro x hx hx'
    rw [List.mem_singleton] at hx'
    exact hnew (hx' ▸ hx)
  · intro other r hr hstatus
    rw [hlaunches]
    exact List.mem_append_left _ (hg.completed other r hr hstatus)
  · intro _ _ _ _ _ heq
    cases heq
    refine ⟨row, h.found, h.instanceId, h.trigger, h.owner, h.staleSeconds, h.health, hrunning, hhealthy,
      ?_⟩
    rw [hlaunches]
    exact List.mem_append_right _ (List.mem_singleton.2 rfl)
  · exact fun other r hr => ⟨r, hr, .inl rfl⟩
  · exact fun other r hr _ => hr

/-- A row without a recovery is not among the launches. -/
theorem SweepsGood.not_launched (hg : SweepsGood s) (h : s.sweeps.get? sweepId = none) :
    sweepId ∉ s.launches := by
  intro hmem
  obtain ⟨x, hx, rfl⟩ := List.mem_map.1 hmem
  obtain ⟨row, hrow, -⟩ := hg.launched x hx
  rw [h] at hrow
  cases hrow

/-- `start_sweep`. -/
theorem beginSweep_progress (hg : SweepsGood s) :
    Progress p s { p with phase := (beginSweep s p d id trigger).1 } (beginSweep s p d id trigger).2 := by
  unfold beginSweep
  dsimp only
  split
  · rename_i s' hnew
    unfold Store.startSweep at hnew
    split at hnew
    · rename_i hbounds
      split at hnew
      · rename_i sweeps hinsert
        cases hnew
        have hget := Table.get?_insert hinsert
        have hfresh := Table.get?_of_insert hinsert
        have hne {other : String} {r : SweepRow} (hr : s.sweeps.get? other = some r) :
            other ≠ "sweep-" ++ d.hex := by
          rintro rfl
          rw [hfresh] at hr
          cases hr
        refine ⟨⟨?_, ?_, ?_, hg.once, ?_⟩, ?_, ?_, ?_, ?_⟩
        · intro other r hr
          rw [hget] at hr
          split at hr
          · cases hr
            exact ⟨rfl, rfl, rfl, rfl, rfl, rfl⟩
          · exact hg.consistent other r hr
        · intro other r hr
          rw [hget] at hr
          split at hr
          · cases hr
            exact ⟨rfl, hbounds⟩
          · exact hg.checked other r hr
        · intro x hx
          obtain ⟨r, hr, hr'⟩ := hg.launched x hx
          exact ⟨r, by rw [hget, if_neg (hne hr), hr], hr'⟩
        · intro other r hr hstatus
          rw [hget] at hr
          split at hr
          · cases hr
            cases hstatus
          · exact hg.completed other r hr hstatus
        · intro _ _ _ _ _ heq
          cases heq
          exact ⟨_, by rw [hget, if_pos rfl], rfl, rfl, rfl, rfl, rfl, rfl, rfl, hg.not_launched hfresh⟩
        · exact fun other r hr => ⟨r, by rw [hget, if_neg (hne hr), hr], .inl rfl⟩
        · exact fun other r hr _ => by rw [hget, if_neg (hne hr), hr]
        · rintro other ⟨⟩
          exact .inr hfresh
      · cases hnew
    · cases hnew
  · exact .leave hg rfl rfl rfl

/-- One step of `perform_sweep`. -/
theorem sweepStep_progress (hg : SweepsGood s) (h : AtStage p s id trigger sweepId health stage row)
    (hphase : p.phase = .sweeping id trigger sweepId health stage) :
    Progress p s { p with phase := (sweepStep s p l d id trigger sweepId health stage).1 }
      (sweepStep s p l d id trigger sweepId health stage).2 := by
  have hfits := h.fits
  cases stage with
  | noting before =>
    obtain ⟨hrunning, hbefore, hnew⟩ := hfits
    refine h.move hg hphase rfl rfl ?_
    cases hhealthy : health.healthy with
    | true => exact ⟨hrunning, by rw [h.health, hhealthy], hnew⟩
    | false => exact ⟨hrunning, hbefore, by rw [h.health, hhealthy]⟩
  | skipping before =>
    obtain ⟨hrunning, hbefore, hunhealthy⟩ := hfits
    refine h.finish hg hphase ⟨hunhealthy, ?_, rfl, rfl, ?_, rfl, rfl⟩ (.inl ⟨hrunning, by decide⟩)
      (fun hs => by cases hs) rfl
    · rw [SweepRow.finish, hbefore]
    · rw [SweepRow.finish, h.trigger, h.health]
  | skipped =>
    exact h.move hg hphase rfl rfl
      (by rw [Stage.Fits, show row.status = .skipped from hfits]; decide)
  | invoking => exact h.launch hg hphase
  | recovering =>
    rw [sweepStep]
    split
    · exact h.move hg hphase rfl rfl hfits
    · exact h.move hg hphase rfl rfl ⟨.inl hfits.1, hfits.2.1⟩
  | completing recovery =>
    rw [sweepStep]
    split
    · rename_i runs orphans hcounts
      refine h.finish hg hphase ⟨hfits.2.1, rfl, ⟨recovery, hcounts, ?_⟩, rfl, rfl⟩
        (.inl ⟨hfits.1, by decide⟩)
        (fun _ => hfits.2.2) rfl
      rw [SweepRow.finish, h.trigger, h.health]
    · exact h.move hg hphase rfl rfl ⟨.inl hfits.1, hfits.2.1⟩
  | completed => exact h.move hg hphase rfl rfl hfits
  | reporting =>
    exact h.move hg hphase rfl rfl (by rw [Stage.Fits, show row.status = .completed from hfits]; decide)
  | failing e =>
    refine h.finish hg hphase ⟨hfits.2, rfl, rfl, rfl, ⟨e, ?_, rfl⟩, rfl⟩ ?_ (fun hs => by cases hs) rfl
    · rw [SweepRow.finish, h.trigger, h.health]
    · rcases hfits.1 with hs | hs
      · exact .inl ⟨hs, by decide⟩
      · exact .inr ⟨hs, rfl⟩
  | failed e => exact h.move hg hphase rfl rfl hfits
  | degraded e =>
    exact h.move hg hphase rfl rfl (by rw [Stage.Fits, show row.status = .failed from hfits]; decide)
  | returned => rw [sweepStep]; split <;> exact .leave hg rfl rfl rfl

/-- The steps outside `perform_sweep` leave the sweeps alone. -/
theorem work_quiet (hbeginning : ∀ id trigger, p.phase ≠ .beginning id trigger)
    (hphase : p.phase.sweepId = none) :
    (work s p l d).2.sweeps = s.sweeps ∧ (work s p l d).2.launched = s.launched ∧
      (work s p l d).1.sweepId = none := by
  unfold work
  cases h : p.phase with
  | locked => dsimp only [register]; split <;> exact ⟨rfl, rfl, rfl⟩
  | starting id => dsimp only; split <;> exact ⟨rfl, rfl, rfl⟩
  | waiting id last =>
    cases last with
    | none => exact ⟨rfl, rfl, rfl⟩
    | some last => dsimp only; split <;> exact ⟨rfl, rfl, rfl⟩
  | gated id health =>
    refine ⟨rfl, rfl, ?_⟩
    dsimp only
    split <;> rfl
  | beginning id trigger => exact absurd h (hbeginning id trigger)
  | sweeping id trigger sweepId health stage => rw [h] at hphase; cases hphase
  | idle id =>
    dsimp only
    split
    · exact ⟨rfl, rfl, rfl⟩
    · dsimp only
      split <;> exact ⟨rfl, rfl, rfl⟩
  | finishing id => dsimp only; split <;> exact ⟨rfl, rfl, rfl⟩
  | handling id e => dsimp only; split <;> exact ⟨rfl, rfl, rfl⟩
  | _ => exact ⟨rfl, rfl, rfl⟩

/-- An exception in a sweep. -/
theorem AtStage.raised (hg : SweepsGood s) (h : AtStage p s id trigger sweepId health stage row)
    (hphase : p.phase = .sweeping id trigger sweepId health stage) (e : String) :
    Progress p s { p with phase := p.phase.raised e } s := by
  have hfits := h.fits
  have hhealthy (hcompleted : row.status = .completed) : row.health.healthy = true := by
    have hcons := hg.consistent sweepId row h.found
    rw [SweepRow.Consistent, hcompleted] at hcons
    exact hcons.1
  rw [hphase]
  cases stage with
  | invoking => exact h.move hg hphase rfl rfl ⟨.inl hfits.1, hfits.2.1⟩
  | recovering => exact h.move hg hphase rfl rfl ⟨.inl hfits.1, hfits.2.1⟩
  | completing recovery => exact h.move hg hphase rfl rfl ⟨.inl hfits.1, hfits.2.1⟩
  | completed => exact h.move hg hphase rfl rfl ⟨.inr hfits, hhealthy hfits⟩
  | reporting => exact h.move hg hphase rfl rfl ⟨.inr hfits, hhealthy hfits⟩
  | _ => exact .leave hg rfl rfl rfl

/-- What a process that has the lock does to the sweeps. -/
theorem Own.progress (hg : SweepsGood s) (howns : OwnsSweep p s) (ho : Own p s p' s') :
    Progress p s p' s' := by
  cases ho with
  | signalled =>
    refine .quiet hg rfl rfl (fun id trigger sweepId health stage hphase => ?_) fun _ h => .inl h
    obtain ⟨row, h⟩ := howns id trigger sweepId health stage hphase
    exact ⟨row, h.found, h.instanceId, h.trigger, h.owner, h.staleSeconds, h.health, h.fits⟩
  | interrupted => exact .leave hg rfl rfl rfl
  | killed => exact .leave hg rfl rfl rfl
  | raised e =>
    cases hphase : p.phase with
    | sweeping id trigger sweepId health stage =>
      obtain ⟨row, h⟩ := howns _ _ _ _ _ hphase
      exact hphase ▸ h.raised hg hphase e
    | _ => exact .leave hg rfl rfl rfl
  | worked d =>
    cases hphase : p.phase with
    | beginning id trigger =>
      have hwork : work s p true d = beginSweep s p d id trigger := by rw [work, hphase]
      rw [hwork]
      exact beginSweep_progress hg
    | sweeping id trigger sweepId health stage =>
      obtain ⟨row, h⟩ := howns _ _ _ _ _ hphase
      have hwork : work s p true d = sweepStep s p true d id trigger sweepId health stage :=
        by rw [work, hphase]
      rw [hwork]
      exact sweepStep_progress hg h hphase
    | _ =>
      obtain ⟨hsweeps, hlaunched, hnone⟩ := work_quiet (s := s) (p := p) (l := true) (d := d)
        (fun _ _ h => by rw [hphase] at h; cases h) (by rw [hphase]; rfl)
      exact .leave hg hsweeps hlaunched hnone

end Stages

/-! ### Every run -/

/-- The lock is exclusive, and the sweeps are as the holder says. -/
structure SweepsInv (w : World) : Prop where
  exclusive : Exclusive w
  guarded : Monitor.Guarded Proc.holds SweepsGood OwnsSweep w

/-- No process is at the sweep. -/
def Settled (w : World) (sweepId : String) : Prop := ∀ p ∈ w.procs, p.phase.sweepId ≠ some sweepId

section Runs

variable {w w' : World} {p p' : Proc} {sweepId : String} {row : SweepRow}

theorem sweepsInv_step (h : SweepsInv w) (a : Action) : SweepsInv (step a w) := by
  have hm := step_moves h.exclusive a
  refine ⟨h.exclusive.move hm, h.guarded.move h.exclusive ?_ ?_ hm⟩
  · rintro p p' s (hphase | hphase) - id trigger sweepId health stage h <;> rw [hphase] at h <;> cases h
  · intro p s p' s' _ hgood howns ho
    have hprogress := ho.progress hgood howns
    exact ⟨hprogress.good, fun _ => hprogress.owns⟩

theorem sweepsInv_reachable (h : watchdog.Reachable (fun _ _ => True) w) : SweepsInv w := by
  refine Machine.invariant (I := SweepsInv) ?_ (fun a s _ _ hs => sweepsInv_step hs a) h
  rintro w rfl
  refine ⟨(instancesInv_reachable (.start rfl)).exclusive, ⟨⟨?_, ?_, ?_, .nil, ?_⟩, ?_⟩⟩
  · intro sweepId row hrow
    cases hrow
  · intro sweepId row hrow
    cases hrow
  · intro x hx
    cases hx
  · intro sweepId row hrow
    cases hrow
  · intro i p hp
    cases hp

theorem out_sweepId (hout : p.holds = false) : p.phase.sweepId = none := by
  rcases out_cases hout with h | h | h <;> rw [h] <;> rfl

/-- A process that enters is at no sweep. -/
theorem enters_sweepId (h : Enters p p') : p'.phase.sweepId = none := by
  rcases h with h | h <;> rw [h] <;> rfl

/-- What one step does to a sweep. -/
theorem sweep_step (h : SweepsInv w) (a : Action) (hrow : w.store.sweeps.get? sweepId = some row) :
    (∃ row', (step a w).store.sweeps.get? sweepId = some row' ∧ row.Leads row') ∧
      (Settled w sweepId → (step a w).store.sweeps.get? sweepId = some row ∧
        Settled (step a w) sweepId) := by
  have hm := step_moves h.exclusive a
  -- the processes afterwards, when one of them has moved to `q`
  have hset {i : Nat} {q : Proc} (hw : Settled w sweepId) (hq : q.phase.sweepId ≠ some sweepId) :
      ∀ r ∈ w.procs.set i q, r.phase.sweepId ≠ some sweepId := by
    intro r hr
    rcases List.mem_or_eq_of_mem_set hr with hr | rfl
    · exact hw r hr
    · exact hq
  have hnone {q : Proc} (hq : q.phase.sweepId = none) : q.phase.sweepId ≠ some sweepId := by
    rw [hq]
    exact fun h => by cases h
  have hown {i : Nat} {p p' : Proc} {s : Store} (hp : w.procs[i]? = some p) (hin : p.holds = true)
      (ho : Own p w.store p' s) :
      (∃ row', s.sweeps.get? sweepId = some row' ∧ row.Leads row') ∧
        (Settled w sweepId → s.sweeps.get? sweepId = some row ∧
          ∀ r ∈ w.procs.set i p', r.phase.sweepId ≠ some sweepId) := by
    have hprogress := ho.progress h.guarded.store (h.guarded.holder i p hp hin)
    refine ⟨hprogress.leads sweepId row hrow, fun hw => ?_⟩
    have hp' := hw p (List.mem_of_getElem? hp)
    refine ⟨hprogress.others sweepId row hrow hp', hset hw fun hq => ?_⟩
    rcases hprogress.fresh sweepId hq with hsame | hfresh
    · exact hp' hsame
    · rw [hrow] at hfresh
      cases hfresh
  generalize step a w = w' at hm ⊢
  cases hm with
  | rest => exact ⟨⟨row, hrow, .inl rfl⟩, fun hw => ⟨hrow, hw⟩⟩
  | @join q hout =>
    refine ⟨⟨row, hrow, .inl rfl⟩, fun hw => ⟨hrow, fun r hr => ?_⟩⟩
    rcases List.mem_append.1 hr with hr | hr
    · exact hw r hr
    · rw [List.mem_singleton.1 hr]
      exact hnone (out_sweepId hout)
  | aside hp hout hout' =>
    exact ⟨⟨row, hrow, .inl rfl⟩, fun hw => ⟨hrow, hset hw (hnone (out_sweepId hout'))⟩⟩
  | acquire hp hfree hin he =>
    exact ⟨⟨row, hrow, .inl rfl⟩, fun hw => ⟨hrow, hset hw (hnone (enters_sweepId he))⟩⟩
  | work hp hin hin' ho => exact hown hp hin ho
  | release hp hin hout ho => exact hown hp hin ho

theorem sweep_run (h : SweepsInv w) (as : List Action) (hrow : w.store.sweeps.get? sweepId = some row) :
    (∃ row', (watchdog.run w as).store.sweeps.get? sweepId = some row' ∧ row.Leads row') ∧
      (Settled w sweepId → (watchdog.run w as).store.sweeps.get? sweepId = some row) := by
  induction as generalizing w row with
  | nil => exact ⟨⟨row, hrow, .inl rfl⟩, fun _ => hrow⟩
  | cons a as ih =>
    obtain ⟨⟨row', hrow', hleads⟩, hsettled⟩ := sweep_step h a hrow
    obtain ⟨⟨row'', hrow'', hleads'⟩, -⟩ := ih (sweepsInv_step h a) hrow'
    refine ⟨⟨row'', hrow'', hleads.trans hleads'⟩, fun hw => ?_⟩
    obtain ⟨hsame, hw'⟩ := hsettled hw
    exact (ih (sweepsInv_step h a) hsame).2 hw'

/-- In every interleaving each sweep's row tells what came of it, a recovery is started at most once for a
    sweep and only when the core services were healthy, and a row changes only from running to finished or
    from completed to failed, while its process is at it. -/
theorem sweeps_kept (h : watchdog.Reachable (fun _ _ => True) w) :
    (∀ sweepId row, w.store.sweeps.get? sweepId = some row → row.Consistent sweepId ∧
      row.servicesHealthy = row.health.healthy ∧ 30 ≤ row.staleSeconds ∧ row.staleSeconds ≤ 86400) ∧
    (w.store.launches.Nodup ∧ ∀ x ∈ w.store.launched, ∃ row, w.store.sweeps.get? x.sweepId = some row ∧
      row.health.healthy = true ∧ row.controllerOwner = x.owner ∧ row.staleSeconds = x.staleSeconds) ∧
    (∀ sweepId row, w.store.sweeps.get? sweepId = some row → row.status = .completed →
    sweepId ∈ w.store.launches) ∧
    ∀ as sweepId row, w.store.sweeps.get? sweepId = some row →
      (∃ row', (watchdog.run w as).store.sweeps.get? sweepId = some row' ∧ row.Leads row') ∧
        (Settled w sweepId → (watchdog.run w as).store.sweeps.get? sweepId = some row) := by
  have hw := sweepsInv_reachable h
  have hgood := hw.guarded.store
  exact ⟨fun sweepId row hrow => ⟨hgood.consistent sweepId row hrow, hgood.checked sweepId row hrow⟩,
    ⟨hgood.once, hgood.launched⟩, hgood.completed, fun as sweepId row hrow => sweep_run hw as hrow⟩

end Runs

/-! ### A run -/

/-- A manual sweep whose process is killed while its recovery is running, after one that completed. -/
def sampleSweeps : List Action :=
  [.start (.sweepOnce "manual" false none sampleConfig) "host" 50] ++
    List.replicate 14 (.advance 0 (sampleDraws "1")) ++
    [.start (.sweepOnce "manual" true (some 60) sampleConfig) "host" 51] ++
    List.replicate 6 (.advance 1 (sampleDraws "2")) ++ [.kill 1]

def sampleSwept : World := watchdog.run initial sampleSweeps

theorem sampleSwept_reachable : watchdog.Reachable (fun _ _ => True) sampleSwept :=
  .run (.start rfl) (by simp [sampleSweeps, List.replicate, Machine.Along])

/-- The first sweep is completed; the second is left running, and stays so. -/
theorem sampleSwept_kept : sampleSwept.lock = none ∧ sampleSwept.store.launches = ["sweep-1", "sweep-2"] ∧
    (sampleSwept.store.sweeps.get? "sweep-1").map SweepRow.status = some .completed ∧
    (sampleSwept.store.sweeps.get? "sweep-2").map SweepRow.status = some .running ∧
    ∀ as row, sampleSwept.store.sweeps.get? "sweep-2" = some row →
      (watchdog.run sampleSwept as).store.sweeps.get? "sweep-2" = some row := by
  obtain ⟨-, -, -, hruns⟩ := sweeps_kept sampleSwept_reachable
  refine ⟨by decide, by decide, by decide, by decide, fun as row hrow => (hruns as "sweep-2" row hrow).2 ?_⟩
  unfold Settled
  decide

end HermesOps.Supervisor
