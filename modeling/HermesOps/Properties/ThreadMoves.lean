import HermesOps.Properties.Effects

/-! Everything a step can do to the executor threads. `ThreadMove` is one constructor for each way
    a thread goes on, with the reads behind it; a thread appears with a reservation and goes with
    its last transaction. -/

namespace HermesOps

open Schemes

/-! ### Stages by what they know of the run -/

/-- The stages before `set_attempt_links`. -/
def ThreadStage.isUnlinked : ThreadStage → Bool
  | .reserved | .beginning _ | .began _ => true
  | _ => false

/-- The run a thread works on once its attempt carries the link. -/
def ThreadStage.linkedRun : ThreadStage → Option RunId
  | .working r | .submitting r _ | .reviewing r | .gateCheck r | .integrate r | .integrating r _
  | .unwinding r _ _ | .returning (.pipeline r _) => some r
  | _ => none

/-- The stages whose next step may be the last transaction. -/
def ThreadStage.isLast : ThreadStage → Bool
  | .returning _ | .raising _ => true
  | _ => false

namespace World

/-- No process ever had the number. -/
def Unused (w : World) (pid : Pid) : Prop := w.procs.get? pid = none ∧ w.exits.get? pid = none

/-- How a thread of the task goes on. -/
inductive ThreadMove (w : World) (rt : ReservedTask) (pid : Pid) : ThreadStage → ThreadStage → Prop
  | stays {s} : s.isLast = false → ThreadMove w rt pid s s
  | raises {s e} : s.isUnlinked = true → ThreadMove w rt pid s (.raising e)
  | plain : rt.kind ≠ .pipeline → ThreadMove w rt pid .reserved (.returning .plain)
  | begins : w.Unused pid → ThreadMove w rt pid .reserved (.beginning pid)
  | begun {p r} : w.exits.get? p = some (.begun r) → ThreadMove w rt pid (.beginning p) (.began r)
  | linked {r} : ThreadMove w rt pid (.began r) (.working r)
  | unwinds {s r e} : s.linkedRun = some r → s.isLast = false →
    ThreadMove w rt pid s (.unwinding r (.raise e) .start)
  | submits {r} : w.Unused pid → ThreadMove w rt pid (.working r) (.submitting r pid)
  | submitted {r p} : w.exits.get? p = some .submitted →
    ThreadMove w rt pid (.submitting r p) (.reviewing r)
  | cancels {r} : objectiveCancellationRequested w.db.queue rt.planId = true →
    ThreadMove w rt pid (.reviewing r) (.unwinding r (.result cancelledIntegrationResult) .start)
  | reviewed {r} : ThreadMove w rt pid (.reviewing r) (.gateCheck r)
  | gated {r} : planHasActiveHumanGate w.db.graph w.db.store rt.planId = true →
    ThreadMove w rt pid (.gateCheck r) (.unwinding r (.result blockedHumanIntegrationResult) .start)
  | opens {r} : ThreadMove w rt pid (.gateCheck r) (.integrate r)
  | applies {r} : w.Unused pid → ThreadMove w rt pid (.integrate r) (.integrating r pid)
  | integrated {r p i} : w.exits.get? p = some (.integration i) →
    ThreadMove w rt pid (.integrating r p) (i.dispatch r)
  | effort {r after s s'} : ThreadMove w rt pid (.unwinding r after s) (.unwinding r after s')
  | unwound {r e e' s} : ThreadMove w rt pid (.unwinding r (.raise e) s) (.raising e')
  | settled {r i s complete} : ThreadMove w rt pid (.unwinding r (.result i) s)
    (.returning (.pipeline r (i.settled complete)))
  | interrupted {result e} : ThreadMove w rt pid (.returning result) (.raising e)

/-- What a thread step does to the threads. -/
inductive ThreadsAfter (w : World) (j : AttemptId) (rt : ReservedTask) (pid : Pid) (fault : Bool)
    (s : ThreadStage) : Table AttemptId Thread → Prop
  | same : s.isLast = false → ThreadsAfter w j rt pid fault s w.daemon.threads
  | moved {s'} : ThreadMove w rt pid s s' → (s.isLast = true → fault = true) →
    ThreadsAfter w j rt pid fault s (w.daemon.threads.updateAt j fun t => { t with stage := s' })
  | ended : s.isLast = true → ThreadsAfter w j rt pid fault s
    (w.daemon.threads.delete fun i _ => i = j)

theorem setThread_threads (w : World) (j : AttemptId) (s : ThreadStage) :
    (w.setThread j s).daemon.threads =
      w.daemon.threads.updateAt j fun t => { t with stage := s } := rfl

theorem await_threads (w : World) (j : AttemptId) (pid : Pid) (stage : Stage) (s : ThreadStage) :
    (w.await j pid stage s).daemon.threads = w.daemon.threads ∨ (w.Unused pid ∧
      (w.await j pid stage s).daemon.threads =
        w.daemon.threads.updateAt j fun t => { t with stage := s }) := by
  unfold await
  split
  · exact .inl rfl
  · rename_i hp
    simp only [not_or, Bool.not_eq_true, Option.isSome_eq_false_iff, Option.isNone_iff_eq_none] at hp
    exact .inr ⟨hp, by rw [setThread_threads, spawn_daemon]⟩

theorem threadStep_threads (j : AttemptId) (now : Time) (pid : Pid) (fault : Bool) (w : World)
    (rt : ReservedTask) (owner : String) (s : ThreadStage) :
    ThreadsAfter w j rt pid fault s (w.threadStep j now pid fault rt owner s).daemon.threads := by
  have hmove : ∀ {s'}, s.isLast = false → ThreadMove w rt pid s s' → ThreadsAfter w j rt pid fault s
      (w.daemon.threads.updateAt j fun t => { t with stage := s' }) :=
    fun hs h => .moved h fun h' => by rw [hs] at h'; cases h'
  have hawait : ∀ {stage s'}, s.isLast = false → (w.Unused pid → ThreadMove w rt pid s s') →
      ThreadsAfter w j rt pid fault s (w.await j pid stage s').daemon.threads := by
    intro stage s' hs h
    rcases await_threads w j pid stage s' with ht | ⟨hu, ht⟩ <;> rw [ht]
    · exact .same hs
    · exact hmove hs (h hu)
  cases s with
  | reserved =>
    simp only [threadStep]
    split
    · exact hmove rfl (.raises rfl)
    · cases hk : rt.kind <;> cases rt.projectId <;> simp only
      · exact hmove rfl (.raises rfl)
      · exact hawait rfl .begins
      all_goals first
        | exact hmove rfl (.plain (by rw [hk]; simp))
        | exact hmove rfl (.raises rfl)
  | beginning p =>
    simp only [threadStep]
    split
    · rw [setThread_threads, kill_daemon]; exact hmove rfl (.raises rfl)
    · split
      · exact .same rfl
      · rename_i r hp; exact hmove rfl (.begun hp)
      · exact hmove rfl (.raises rfl)
  | began r =>
    simp only [threadStep]
    split
    · exact hmove rfl (.raises rfl)
    · exact hmove rfl .linked
  | working r =>
    simp only [threadStep]
    split
    · exact hmove rfl (.unwinds rfl rfl)
    · exact hawait rfl .submits
  | submitting r p =>
    simp only [threadStep]
    split
    · rw [setThread_threads, kill_daemon]; exact hmove rfl (.unwinds rfl rfl)
    · split
      · exact .same rfl
      · rename_i hp; exact hmove rfl (.submitted hp)
      · exact hmove rfl (.unwinds rfl rfl)
  | reviewing r =>
    simp only [threadStep]
    split
    · exact hmove rfl (.unwinds rfl rfl)
    · split
      · rename_i hc; exact hmove rfl (.cancels hc)
      · exact hmove rfl .reviewed
  | gateCheck r =>
    simp only [threadStep]
    split
    · exact hmove rfl (.unwinds rfl rfl)
    · split
      · rename_i hg; exact hmove rfl (.gated hg)
      · exact hmove rfl .opens
  | integrate r =>
    simp only [threadStep]
    split
    · exact hmove rfl (.unwinds rfl rfl)
    · exact hawait rfl .applies
  | integrating r p =>
    simp only [threadStep]
    split
    · rw [setThread_threads, kill_daemon]; exact hmove rfl (.unwinds rfl rfl)
    · split
      · exact .same rfl
      · rename_i i hp; exact hmove rfl (.integrated hp)
      · exact hmove rfl (.unwinds rfl rfl)
  | unwinding r after stage =>
    have hd := bestEffortStep_daemon w r now pid fault stage
    simp only [threadStep]
    rcases hb : w.bestEffortStep r now pid fault stage with ⟨w', e⟩
    rw [hb] at hd
    have hset : ∀ s', (w'.setThread j s').daemon.threads =
        w.daemon.threads.updateAt j fun t => { t with stage := s' } := by
      intro s'; rw [setThread_threads, hd]
    cases e <;> cases after <;> simp only [hset]
    · exact hmove rfl .effort
    · exact hmove rfl .effort
    · exact hmove rfl .unwound
    · exact hmove rfl .settled
    · exact hmove rfl .unwound
    · exact hmove rfl (.unwinds rfl rfl)
  | returning result =>
    simp only [threadStep]
    split
    · rename_i hf; exact .moved .interrupted fun _ => hf
    · exact .ended rfl
  | raising e =>
    simp only [threadStep]
    split <;> exact .ended rfl

/-! ### Where the threads of the next world come from -/

/-- A thread of the next world was there before and went on, or has just been reserved. -/
inductive ThreadOrigin (w w' : World) (a : Action) (j : AttemptId) (t' : Thread) : Prop
  | kept : w.daemon.threads.get? j = some t' →
    (∀ now pid fault, a = .thread j now pid fault → t'.stage.isLast = false) →
    ThreadOrigin w w' a j t'
  | moved {t now pid fault} : w.daemon.threads.get? j = some t → t'.task = t.task →
    a = .thread j now pid fault → ThreadMove w t.task pid t.stage t'.stage →
    (t.stage.isLast = true → fault = true) → ThreadOrigin w w' a j t'
  | reserved {i now g task} : a = .graph (.reserve i j now) →
    reserveAttempt w.db i j now = .ok (g, task) → w'.db.graph = g →
    t' = ⟨⟨i, task.planId, task.kind, task.projectId, task.taskKey, j⟩, .reserved⟩ →
    w.daemon.threads.get? j = none → ThreadOrigin w w' a j t'

theorem janitorStep_threads (now : Time) (pid : Pid) (fault : Bool) (w : World) :
    (w.janitorStep now pid fault).daemon.threads = w.daemon.threads := by
  unfold janitorStep
  split
  · rfl
  · rename_i r rest stage hj
    have hd := bestEffortStep_daemon w r now pid fault stage
    rcases hb : w.bestEffortStep r now pid fault stage with ⟨w', e⟩
    rw [hb] at hd
    cases e <;> simpa using congrArg Daemon.threads hd

theorem objectiveStep_threads (config : Config) (w : World) (a : ObjectiveAction) :
    (w.objectiveStep config a).daemon.threads = w.daemon.threads := by
  cases a with
  | attachPlan p i s now =>
    simp only [objectiveStep]
    split
    · rfl
    · cases hi : insertObjective w.db i { s with planId := some p } now <;>
        simp only [db] at hi ⊢ <;> simp only [hi] <;> rfl
  | _ =>
    simp only [objectiveStep]
    repeat' split
    all_goals rfl

theorem plannerStep_threads (config : Config) (w : World) (i : ObjectiveAttemptId) (p : Planner)
    (a : PlannerAction) : (w.plannerStep config i p a).daemon.threads = w.daemon.threads := by
  cases a <;> simp only [plannerStep] <;> repeat' split
  all_goals rfl

theorem thread_origin (h : History) (config : Config) (w : World) (a : Action) {j : AttemptId}
    {t' : Thread} (ht : (w.step h config a).daemon.threads.get? j = some t') :
    ThreadOrigin w (w.step h config a) a j t' := by
  have kept : (∀ now pid fault, a ≠ .thread j now pid fault) →
      (w.step h config a).daemon.threads = w.daemon.threads →
      ThreadOrigin w (w.step h config a) a j t' := fun hne heq =>
    .kept (heq ▸ ht) fun now pid fault ha => absurd ha (hne now pid fault)
  cases a with
  | objective a => exact kept (fun _ _ _ h => by cases h) (objectiveStep_threads config w a)
  | planner i a =>
    refine kept (fun _ _ _ h => by cases h) ?_
    simp only [step]
    split
    · exact plannerStep_threads ..
    · rfl
  | graph a =>
    cases a with
    | reserve i k now =>
      simp only [step, graphStep] at ht ⊢
      split at ht
      · rename_i hr
        exact .kept ht fun _ _ _ h => by cases h
      · rename_i g task hr
        cases hins : w.daemon.threads.insert k
            ⟨⟨i, task.planId, task.kind, task.projectId, task.taskKey, k⟩, .reserved⟩ with
        | none => simp only [hins] at ht; exact .kept ht fun _ _ _ h => by cases h
        | some threads =>
          simp only [hins, Table.get?_insert hins] at ht
          split at ht
          · rename_i hjk
            subst hjk
            cases ht
            exact .reserved rfl hr (by simp only; rfl) rfl (Table.get?_of_insert hins)
          · exact .kept ht fun _ _ _ h => by cases h
    | _ =>
      refine kept (fun _ _ _ h => by cases h) ?_
      simp only [step, graphStep]
      repeat' split
      all_goals rfl
  | thread k now pid fault =>
    simp only [step] at ht ⊢
    cases hk : w.daemon.threads.get? k with
    | none =>
      simp only [hk] at ht
      refine .kept ht fun _ _ _ h => ?_
      cases h; rw [hk] at ht; cases ht
    | some t =>
      simp only [hk] at ht
      have hafter := threadStep_threads k now pid fault w t.task
        s!"orchestrator:{t.task.taskKey}" t.stage
      generalize (w.threadStep k now pid fault t.task s!"orchestrator:{t.task.taskKey}"
        t.stage).daemon.threads = threads at hafter ht
      cases hafter with
      | same hs =>
        refine .kept ht fun _ _ _ h => ?_
        cases h; rw [hk] at ht; cases ht; exact hs
      | moved hm hf =>
        rw [Table.get?_updateAt] at ht
        split at ht
        · rename_i hjk
          subst hjk
          rw [hk] at ht
          cases ht
          exact .moved hk rfl rfl hm hf
        · rename_i hjk
          refine .kept ht fun _ _ _ h => ?_
          cases h; exact absurd rfl hjk
      | ended =>
        rw [Table.get?_delete, Option.filter_eq_some_iff] at ht
        refine .kept ht.1 fun _ _ _ h => ?_
        cases h; simp at ht
  | janitorStart =>
    refine kept (fun _ _ _ h => by cases h) ?_
    simp only [step]
    split <;> rfl
  | janitor now pid fault => exact kept (fun _ _ _ h => by cases h) (janitorStep_threads ..)
  | operator pid stage =>
    refine kept (fun _ _ _ h => by cases h) ?_
    simp only [step]
    split <;> simp
  | process pid now fresh fault =>
    exact kept (fun _ _ _ h => by cases h) (by simp only [step, stepProcess_daemon])
  | kill pid => exact kept (fun _ _ _ h => by cases h) (by simp [step])
  | crash => cases ht
  | environment a =>
    exact kept (fun _ _ _ h => by cases h) (by simp only [step, environmentStep_daemon])

end World

end HermesOps
