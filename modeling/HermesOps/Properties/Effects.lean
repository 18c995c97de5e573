import HermesOps.Properties.ProcessSteps

/-! Which part of the database each kind of action can write: the best-effort rollback writes at
    most the marking of its run, a thread at most its link, its marking or its final handler, and
    the objective queue belongs to the objective and planner actions alone. -/

namespace HermesOps

namespace World

/-- The database after `mark_cancellation_cleanup_recovery`. -/
def markedDb (d : Database) (runId : RunId) (reason : String) (now : Time) : Database :=
  { d with
    store := (markCancellationCleanupRecovery d.graph d.store runId reason now).1
    graph := (markCancellationCleanupRecovery d.graph d.store runId reason now).2.1 }

@[simp] theorem markedDb_queue (d : Database) (r : RunId) (reason : String) (now : Time) :
    (markedDb d r reason now).queue = d.queue := rfl

theorem bestEffortStep_db (r : RunId) (now : Time) (pid : Pid) (fault : Bool) (w : World)
    (stage : BestEffort) :
    (w.bestEffortStep r now pid fault stage).1.db = w.db ∨
      ∃ reason, fault = false ∧ stage = .marking reason ∧
        (w.bestEffortStep r now pid fault stage).1.db = markedDb w.db r reason now := by
  cases stage with
  | start =>
    left; simp only [bestEffortStep]
    split
    · rfl
    · split
      · rfl
      · split
        · rfl
        · simp
  | awaiting p =>
    left; simp only [bestEffortStep]
    split
    · simp
    · split <;> rfl
  | checking =>
    left; simp only [bestEffortStep]
    split
    · rfl
    · split <;> rfl
  | marking reason =>
    simp only [bestEffortStep]
    split
    · exact .inl rfl
    · rename_i hf; exact .inr ⟨reason, by simpa using hf, rfl, rfl⟩

/-- What a thread step writes in the database; a fault writes nothing. -/
inductive ThreadWrite (d : Database) (attemptId : AttemptId) (t : ReservedTask) (now : Time)
    (fault : Bool) : ThreadStage → Database → Prop
  | quiet {stage} : ThreadWrite d attemptId t now fault stage d
  | link {r} : fault = false →
    ThreadWrite d attemptId t now fault (.began r)
      { d with graph := setAttemptLinks d.graph attemptId r now }
  | mark {r after reason} : fault = false →
    ThreadWrite d attemptId t now fault (.unwinding r after (.marking reason))
      (markedDb d r reason now)
  | finish {result} : fault = false →
    ThreadWrite d attemptId t now fault (.returning result)
      { d with graph := finishTask d t result now }
  | fail {e} : fault = false →
    ThreadWrite d attemptId t now fault (.raising e)
      { d with graph := finishTaskFailure d.graph d.store t e now }

theorem threadStep_unwinding_db (i : AttemptId) (now : Time) (pid : Pid) (fault : Bool) (w : World)
    (t : ReservedTask) (owner : String) (r : RunId) (after : Continuation) (stage : BestEffort) :
    (w.threadStep i now pid fault t owner (.unwinding r after stage)).db =
      (w.bestEffortStep r now pid fault stage).1.db := by
  simp only [threadStep]
  rcases h : w.bestEffortStep r now pid fault stage with ⟨w', e⟩
  cases e <;> cases after <;> rfl

theorem threadStep_write (i : AttemptId) (now : Time) (pid : Pid) (fault : Bool) (w : World)
    (t : ReservedTask) (owner : String) (stage : ThreadStage) :
    ThreadWrite w.db i t now fault stage (w.threadStep i now pid fault t owner stage).db := by
  cases stage with
  | unwinding r after stage =>
    rw [threadStep_unwinding_db]
    rcases bestEffortStep_db r now pid fault w stage with h | ⟨reason, hf, rfl, h⟩
    · rw [h]; exact .quiet
    · rw [h]; exact .mark hf
  | began r =>
    simp only [threadStep]
    split
    · exact .quiet
    · rename_i hf; exact .link (by simpa using hf)
  | returning result =>
    simp only [threadStep]
    split
    · exact .quiet
    · rename_i hf; exact .finish (by simpa using hf)
  | raising e =>
    simp only [threadStep]
    split
    · exact .quiet
    · rename_i hf; exact .fail (by simpa using hf)
  | reserved =>
    simp only [threadStep]
    split
    · exact .quiet
    · split <;> simp <;> exact .quiet
  | beginning p =>
    simp only [threadStep]
    split
    · simp; exact .quiet
    · split <;> exact .quiet
  | working r =>
    simp only [threadStep]
    split <;> simp <;> exact .quiet
  | submitting r p =>
    simp only [threadStep]
    split
    · simp; exact .quiet
    · split <;> exact .quiet
  | reviewing r =>
    simp only [threadStep]
    split
    · exact .quiet
    · split <;> exact .quiet
  | gateCheck r =>
    simp only [threadStep]
    split
    · exact .quiet
    · split <;> exact .quiet
  | integrate r =>
    simp only [threadStep]
    split <;> simp <;> exact .quiet
  | integrating r p =>
    simp only [threadStep]
    split
    · simp; exact .quiet
    · split <;> exact .quiet

theorem threadStep_queue (i : AttemptId) (now : Time) (pid : Pid) (fault : Bool) (w : World)
    (t : ReservedTask) (owner : String) (stage : ThreadStage) :
    (w.threadStep i now pid fault t owner stage).db.queue = w.db.queue := by
  have h := threadStep_write i now pid fault w t owner stage
  generalize (w.threadStep i now pid fault t owner stage).db = d at h ⊢
  cases h <;> rfl

theorem threadStep_planners (i : AttemptId) (now : Time) (pid : Pid) (fault : Bool) (w : World)
    (t : ReservedTask) (owner : String) (stage : ThreadStage) :
    (w.threadStep i now pid fault t owner stage).daemon.planners = w.daemon.planners := by
  cases stage with
  | unwinding r after stage =>
    have hd := bestEffortStep_daemon w r now pid fault stage
    simp only [threadStep]
    rcases hb : w.bestEffortStep r now pid fault stage with ⟨w', e⟩
    rw [hb] at hd
    cases e <;> cases after <;> simpa using congrArg Daemon.planners hd
  | reserved =>
    simp only [threadStep]
    split
    · rfl
    · split <;> simp
  | _ =>
    simp only [threadStep]
    repeat' split
    all_goals simp

theorem janitorStep_db (now : Time) (pid : Pid) (fault : Bool) (w : World) :
    (w.janitorStep now pid fault).db = w.db ∨
      ∃ r rest reason, fault = false ∧ w.daemon.janitor = (r :: rest, .marking reason) ∧
        (w.janitorStep now pid fault).db = markedDb w.db r reason now := by
  unfold janitorStep
  split
  · exact .inl rfl
  · rename_i r rest stage hj
    have hdb : ∀ w' e, w.bestEffortStep r now pid fault stage = (w', e) →
        w'.db = w.db ∨
          ∃ reason, fault = false ∧ stage = .marking reason ∧ w'.db = markedDb w.db r reason now := by
      intro w' e he
      have := bestEffortStep_db r now pid fault w stage
      rwa [he] at this
    rcases h : w.bestEffortStep r now pid fault stage with ⟨w', e⟩
    rcases hdb w' e h with hq | ⟨reason, hf, rfl, hm⟩
    · cases e <;> exact .inl hq
    · cases e <;> exact .inr ⟨r, rest, reason, hf, hj, hm⟩

theorem janitorStep_queue (now : Time) (pid : Pid) (fault : Bool) (w : World) :
    (w.janitorStep now pid fault).db.queue = w.db.queue := by
  rcases janitorStep_db now pid fault w with h | ⟨_, _, _, _, _, h⟩
  · rw [h]
  · rw [h]; rfl

theorem stepProcess_db (h : History) (pid : Pid) (now : Time) (fresh : Nat) (fault : Bool)
    (w : World) :
    (w.stepProcess h pid now fresh fault).db = w.db ∨
      ∃ stage, w.procs.get? pid = some stage ∧
        (w.stepProcess h pid now fresh fault).db = (stage.step h now fresh fault w.site).1.db := by
  unfold stepProcess
  split
  · exact .inl rfl
  · rename_i stage hs
    refine .inr ⟨stage, hs, ?_⟩
    rcases hp : stage.step h now fresh fault w.site with ⟨site, progress⟩
    cases progress with
    | next s => rfl
    | exit e => simp [db]

theorem stepProcess_queueGraph (h : History) (pid : Pid) (now : Time) (fresh : Nat) (fault : Bool)
    (w : World) :
    (w.stepProcess h pid now fresh fault).db.queue = w.db.queue ∧
      (w.stepProcess h pid now fresh fault).db.graph = w.db.graph := by
  rcases stepProcess_db h pid now fresh fault w with hd | ⟨stage, -, hd⟩
  · rw [hd]; exact ⟨rfl, rfl⟩
  · rw [hd]; exact stage.step_frame h now fresh fault w.site

theorem environmentStep_queueGraph (h : History) (w : World) (a : EnvironmentAction) :
    (w.environmentStep h a).db.queue = w.db.queue ∧
      (w.environmentStep h a).db.graph = w.db.graph := by
  cases a with
  | review id row =>
    simp only [environmentStep]
    split <;> exact ⟨rfl, rfl⟩
  | worker id row =>
    simp only [environmentStep]
    split <;> exact ⟨rfl, rfl⟩
  | _ => exact ⟨rfl, rfl⟩

theorem graphStep_queue (w : World) (a : GraphAction) : (w.graphStep a).db.queue = w.db.queue := by
  cases a with
  | refresh planId now => rfl
  | importPlan p planId firstTask test ready now =>
    simp only [graphStep]; split <;> rfl
  | activate planId now =>
    simp only [graphStep]; split <;> rfl
  | cancelPlan planId now =>
    simp only [graphStep]; split <;> rfl
  | reserve taskId attemptId now =>
    simp only [graphStep]
    split
    · rfl
    · split <;> rfl
  | reconcile now =>
    simp only [graphStep]; split <;> rfl

theorem janitorStep_planners (now : Time) (pid : Pid) (fault : Bool) (w : World) :
    (w.janitorStep now pid fault).daemon.planners = w.daemon.planners := by
  unfold janitorStep
  split
  · rfl
  · rename_i r rest stage hj
    have hd := bestEffortStep_daemon w r now pid fault stage
    rcases hb : w.bestEffortStep r now pid fault stage with ⟨w', e⟩
    rw [hb] at hd
    cases e <;> simpa using congrArg Daemon.planners hd

theorem graphStep_planners (w : World) (a : GraphAction) :
    (w.graphStep a).daemon.planners = w.daemon.planners := by
  cases a <;> simp only [graphStep] <;> repeat' split
  all_goals rfl

theorem stepProcess_daemon (h : History) (pid : Pid) (now : Time) (fresh : Nat) (fault : Bool)
    (w : World) : (w.stepProcess h pid now fresh fault).daemon = w.daemon := by
  unfold stepProcess
  split
  · rfl
  · rename_i stage hs
    rcases stage.step h now fresh fault w.site with ⟨site, progress⟩
    cases progress with
    | next s => rfl
    | exit e => simp

theorem environmentStep_daemon (h : History) (w : World) (a : EnvironmentAction) :
    (w.environmentStep h a).daemon = w.daemon := by
  cases a <;> simp only [environmentStep] <;> repeat' split
  all_goals rfl

end World

/-- The actions that may write the objective queue. -/
def Action.isQueueAction : Action → Bool
  | .objective _ | .planner _ _ => true
  | _ => false

theorem World.step_queue (h : History) (config : Config) {a : Action} (w : World)
    (ha : a.isQueueAction = false) : (w.step h config a).db.queue = w.db.queue := by
  cases a with
  | objective a => cases ha
  | planner i a => cases ha
  | graph a => exact w.graphStep_queue a
  | thread i now pid fault =>
    simp only [World.step]
    split
    · exact threadStep_queue ..
    · rfl
  | janitorStart =>
    simp only [World.step]; split <;> rfl
  | janitor now pid fault => exact janitorStep_queue ..
  | operator pid stage =>
    simp only [World.step]; split <;> simp
  | process pid now fresh fault => exact (stepProcess_queueGraph ..).1
  | kill pid => simp [World.step]
  | crash => rfl
  | environment a => exact (environmentStep_queueGraph h w a).1

/-- Away from the queue, planners only disappear, with the daemon. -/
theorem World.step_planners (h : History) (config : Config) {a : Action} (w : World)
    (ha : a.isQueueAction = false) :
    (w.step h config a).daemon.planners = w.daemon.planners ∨
      (w.step h config a).daemon.planners = .empty := by
  cases a with
  | objective a => cases ha
  | planner i a => cases ha
  | graph a => exact .inl (w.graphStep_planners a)
  | thread i now pid fault =>
    left; simp only [World.step]
    split
    · exact threadStep_planners ..
    · rfl
  | janitorStart => left; simp only [World.step]; split <;> rfl
  | janitor now pid fault => exact .inl (janitorStep_planners ..)
  | operator pid stage =>
    left; simp only [World.step]; split <;> simp
  | process pid now fresh fault =>
    left; simp only [World.step, stepProcess_daemon]
  | kill pid => left; simp [World.step]
  | crash => exact .inr rfl
  | environment a => left; simp only [World.step, environmentStep_daemon]

end HermesOps
