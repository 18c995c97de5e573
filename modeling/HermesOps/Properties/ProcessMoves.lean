import HermesOps.Properties.StoreWrites
import HermesOps.Properties.ThreadMoves

/-! Everything a step can do to the processes and to what they share. A process number is used once:
    it is started by an operator, a thread or a cleanup, steps or is killed, and its exit stays. Who
    writes the run store in a step is one of three: nobody, the process that steps, or a cleanup
    that marks its run. -/

namespace HermesOps

open Schemes

namespace World

/-! ### Numbers -/

/-- What one operation of a thread or of the janitor does to the process tables; `P` says what it
    may start. -/
inductive ProcessesAfter (w w' : World) (P : Stage → Prop) : Prop
  | same : w'.procs = w.procs → w'.exits = w.exits → ProcessesAfter w w' P
  | spawned {pid stage} : w.Unused pid → P stage →
    (∀ p, w'.procs.get? p = if p = pid then some stage else w.procs.get? p) → w'.exits = w.exits →
    ProcessesAfter w w' P
  | killed {pid} : (w.procs.get? pid).isSome →
    (∀ p, w'.procs.get? p = if p = pid then none else w.procs.get? p) →
    (∀ p, w'.exits.get? p = if p = pid then (w.exits.get? p).or (some .failed)
      else w.exits.get? p) → ProcessesAfter w w' P

variable {w w' : World} {P : Stage → Prop}

theorem ProcessesAfter.rfl : ProcessesAfter w w P := .same (.refl _) (.refl _)

/-- Only the two tables count. -/
theorem ProcessesAfter.congr {w'' : World} (h : ProcessesAfter w w' P) (hp : w''.procs = w'.procs)
    (he : w''.exits = w'.exits) : ProcessesAfter w w'' P := by
  cases h with
  | same h₁ h₂ => exact .same (hp.trans h₁) (he.trans h₂)
  | spawned hu hP h₁ h₂ => exact .spawned hu hP (by rw [hp]; exact h₁) (he.trans h₂)
  | killed h₀ h₁ h₂ => exact .killed h₀ (by rw [hp]; exact h₁) (by rw [he]; exact h₂)

/-- What may be started may be weakened. -/
theorem ProcessesAfter.mono {Q : Stage → Prop} (h : ProcessesAfter w w' P)
    (hPQ : ∀ stage, P stage → Q stage) : ProcessesAfter w w' Q := by
  cases h with
  | same h₁ h₂ => exact .same h₁ h₂
  | spawned hu hP h₁ h₂ => exact .spawned hu (hPQ _ hP) h₁ h₂
  | killed h₀ h₁ h₂ => exact .killed h₀ h₁ h₂

theorem spawn_processes {pid : Pid} {stage : Stage} (hP : P stage) :
    ProcessesAfter w (w.spawn pid stage) P := by
  unfold spawn
  split
  · exact .rfl
  · rename_i he
    split
    · rename_i procs hins
      refine .spawned ⟨Table.get?_of_insert hins, by simpa using he⟩ hP (fun p => ?_) (.refl _)
      exact Table.get?_insert hins p
    · exact .rfl

theorem finishProcess_procs (pid : Pid) (result : Exit) (p : Pid) :
    (w.finishProcess pid result).procs.get? p = if p = pid then none else w.procs.get? p := by
  unfold finishProcess
  split <;> exact Table.get?_delete_key ..

theorem finishProcess_exits (pid : Pid) (result : Exit) (p : Pid) :
    (w.finishProcess pid result).exits.get? p =
      if p = pid then (w.exits.get? p).or (some result) else w.exits.get? p := by
  unfold finishProcess
  split
  · rename_i exits hins
    simp only [Table.get?_insert hins]
    split
    · rename_i hp; rw [hp, Table.get?_of_insert hins]; rfl
    · rfl
  · rename_i hins
    split
    · rename_i hp
      obtain ⟨e, he⟩ := Option.isSome_iff_exists.1 (Table.isSome_of_insert hins)
      rw [hp, he]; rfl
    · rfl

theorem kill_processes (pid : Pid) : ProcessesAfter w (w.kill pid) P := by
  unfold kill
  split
  · rename_i hp
    exact .killed hp (finishProcess_procs pid .failed) (finishProcess_exits pid .failed)
  · exact .rfl

theorem await_processes {j : AttemptId} {pid : Pid} {stage : Stage} {next : ThreadStage}
    (hP : P stage) : ProcessesAfter w (w.await j pid stage next) P := by
  unfold await
  split
  · exact .rfl
  · exact (spawn_processes hP).congr rfl rfl

theorem bestEffortStep_processes (r : RunId) (now : Time) (pid : Pid) (fault : Bool)
    (stage : BestEffort) (hP : P (.rollback r)) :
    ProcessesAfter w (w.bestEffortStep r now pid fault stage).1 P := by
  cases stage with
  | start =>
    simp only [bestEffortStep]
    split
    · exact .rfl
    · split
      · exact .rfl
      · split
        · exact .rfl
        · exact spawn_processes hP
  | awaiting p =>
    simp only [bestEffortStep]
    split
    · exact kill_processes p
    · split <;> exact .rfl
  | checking =>
    simp only [bestEffortStep]
    split
    · exact .rfl
    · split <;> exact .rfl
  | marking reason =>
    simp only [bestEffortStep]
    split <;> exact .same rfl rfl

/-- What a thread at the stage may start. -/
def ThreadStarts (rt : ReservedTask) (owner : String) (s : ThreadStage) (stage : Stage) : Prop :=
  (s = .reserved ∧ rt.kind = .pipeline ∧ ∃ p, stage = .begin p owner) ∨
    ∃ r, s.linkedRun = some r ∧ s.isLast = false ∧ (stage = .rollback r ∨
      (s = .working r ∧ stage = .submit r) ∨ (s = .integrate r ∧ stage = .apply r owner))

theorem threadStep_processes (j : AttemptId) (now : Time) (pid : Pid) (fault : Bool) (w : World)
    (rt : ReservedTask) (owner : String) (s : ThreadStage) :
    ProcessesAfter w (w.threadStep j now pid fault rt owner s) (ThreadStarts rt owner s) := by
  cases s with
  | reserved =>
    simp only [threadStep]
    split
    · exact .same rfl rfl
    · cases hk : rt.kind <;> cases rt.projectId <;> simp only
      case pipeline.some p => exact await_processes (.inl ⟨rfl, hk, p, rfl⟩)
      all_goals exact .same rfl rfl
  | beginning p =>
    simp only [threadStep]
    split
    · exact (kill_processes p).congr rfl rfl
    · split <;> exact .same rfl rfl
  | working r =>
    simp only [threadStep]
    split
    · exact .same rfl rfl
    · exact await_processes (.inr ⟨r, rfl, rfl, .inr (.inl ⟨rfl, rfl⟩)⟩)
  | submitting r p =>
    simp only [threadStep]
    split
    · exact (kill_processes p).congr rfl rfl
    · split <;> exact .same rfl rfl
  | integrate r =>
    simp only [threadStep]
    split
    · exact .same rfl rfl
    · exact await_processes (.inr ⟨r, rfl, rfl, .inr (.inr ⟨rfl, rfl⟩)⟩)
  | integrating r p =>
    simp only [threadStep]
    split
    · exact (kill_processes p).congr rfl rfl
    · split <;> exact .same rfl rfl
  | unwinding r after stage =>
    have hb := bestEffortStep_processes (w := w) r now pid fault stage
      (P := ThreadStarts rt owner (.unwinding r after stage)) (.inr ⟨r, rfl, rfl, .inl rfl⟩)
    simp only [threadStep]
    rcases h : w.bestEffortStep r now pid fault stage with ⟨w', e⟩
    rw [h] at hb
    cases e <;> cases after <;> exact hb.congr rfl rfl
  | _ =>
    simp only [threadStep]
    repeat' split
    all_goals exact .same rfl rfl

theorem janitorStep_processes (now : Time) (pid : Pid) (fault : Bool) (w : World) :
    ProcessesAfter w (w.janitorStep now pid fault) fun stage => ∃ r, stage = .rollback r := by
  unfold janitorStep
  split
  · exact .rfl
  · rename_i r rest stage hj
    have hb := bestEffortStep_processes (w := w) r now pid fault stage
      (P := fun stage => ∃ r, stage = .rollback r) ⟨r, rfl⟩
    rcases h : w.bestEffortStep r now pid fault stage with ⟨w', e⟩
    rw [h] at hb
    cases e <;> exact hb.congr rfl rfl

/-! ### Where the processes and the exits of the next world come from -/

/-- Who started the process. -/
inductive StartedBy (w : World) : Action → Stage → Prop
  | operator {pid stage} : stage.isCommand = true → StartedBy w (.operator pid stage) stage
  | thread {j now pid fault t owner stage} : w.daemon.threads.get? j = some t →
    ThreadStarts t.task owner t.stage stage → StartedBy w (.thread j now pid fault) stage
  | janitor {now pid fault r} : StartedBy w (.janitor now pid fault) (.rollback r)

/-- A process of the next world was there before, has just stepped, or has just been started. -/
inductive ProcOrigin (h : History) (w w' : World) (a : Action) (pid : Pid) (stage' : Stage) : Prop
  | kept : w.procs.get? pid = some stage' → (∀ now fresh fault, a ≠ .process pid now fresh fault) →
    ProcOrigin h w w' a pid stage'
  | stepped {now fresh fault stage} : a = .process pid now fresh fault →
    w.procs.get? pid = some stage →
    stage.step h now fresh fault w.site = (w'.site, .next stage') → ProcOrigin h w w' a pid stage'
  | started : w.Unused pid → StartedBy w a stage' → ProcOrigin h w w' a pid stage'

/-- An exit of the next world was there before, has just been left, or is that of a killed
    process. -/
inductive ExitOrigin (h : History) (w w' : World) (a : Action) (pid : Pid) (e : Exit) : Prop
  | kept : w.exits.get? pid = some e → ExitOrigin h w w' a pid e
  | exited {now fresh fault stage} : a = .process pid now fresh fault →
    w.procs.get? pid = some stage → w.exits.get? pid = none →
    stage.step h now fresh fault w.site = (w'.site, .exit e) → ExitOrigin h w w' a pid e
  | killed : (w.procs.get? pid).isSome → e = .failed → ExitOrigin h w w' a pid e

theorem ProcessesAfter.proc_origin {h : History} {a : Action} (hp : ProcessesAfter w w' P)
    (hP : ∀ stage, P stage → StartedBy w a stage)
    (ha : ∀ pid now fresh fault, a ≠ .process pid now fresh fault) {pid : Pid} {stage' : Stage}
    (hs : w'.procs.get? pid = some stage') : ProcOrigin h w w' a pid stage' := by
  cases hp with
  | same hprocs => rw [hprocs] at hs; exact .kept hs (ha pid)
  | spawned hu hst hprocs =>
    rw [hprocs] at hs
    split at hs
    · rename_i hpid; cases hs; exact .started (hpid ▸ hu) (hP _ hst)
    · exact .kept hs (ha pid)
  | killed _ hprocs =>
    rw [hprocs] at hs
    split at hs
    · cases hs
    · exact .kept hs (ha pid)

theorem ProcessesAfter.exit_origin {h : History} {a : Action} (hp : ProcessesAfter w w' P)
    {pid : Pid} {e : Exit} (he : w'.exits.get? pid = some e) : ExitOrigin h w w' a pid e := by
  cases hp with
  | same _ hexits => rw [hexits] at he; exact .kept he
  | spawned _ _ _ hexits => rw [hexits] at he; exact .kept he
  | killed hsome _ hexits =>
    rw [hexits] at he
    split at he
    · rename_i hpid
      cases hold : w.exits.get? pid with
      | none => rw [hold] at he; exact .killed (hpid ▸ hsome) (Option.some.inj he).symm
      | some e' => rw [hold] at he; cases he; exact .kept hold
    · exact .kept he

theorem ProcessesAfter.exit_kept (hp : ProcessesAfter w w' P) {pid : Pid} {e : Exit}
    (he : w.exits.get? pid = some e) : w'.exits.get? pid = some e := by
  cases hp with
  | same _ hexits => rw [hexits]; exact he
  | spawned _ _ _ hexits => rw [hexits]; exact he
  | killed _ _ hexits =>
    rw [hexits]
    split
    · rw [he]; rfl
    · exact he

/-- What an action other than the step of a process does to the process tables. -/
theorem step_processes (h : History) (config : Config) (w : World) (a : Action)
    (ha : ∀ pid now fresh fault, a ≠ .process pid now fresh fault) :
    ProcessesAfter w (w.step h config a) (StartedBy w a) := by
  cases a with
  | objective a =>
    refine .same ?_ ?_ <;> cases a <;> simp only [step, objectiveStep] <;> repeat' split
    all_goals rfl
  | planner i a =>
    refine .same ?_ ?_ <;> simp only [step] <;> split <;> cases a <;> simp only [plannerStep] <;>
      repeat' split
    all_goals rfl
  | graph a =>
    refine .same ?_ ?_ <;> cases a <;> simp only [step, graphStep] <;> repeat' split
    all_goals rfl
  | thread j now pid fault =>
    simp only [step]
    split
    · rename_i t ht
      exact (threadStep_processes j now pid fault w t.task s!"orchestrator:{t.task.taskKey}"
        t.stage).mono fun _ hP => .thread ht hP
    · exact .rfl
  | janitorStart =>
    simp only [step]
    split <;> exact .same rfl rfl
  | janitor now pid fault =>
    refine (janitorStep_processes now pid fault w).mono fun stage hP => ?_
    obtain ⟨r, rfl⟩ := hP
    exact .janitor
  | operator pid stage =>
    simp only [step]
    split
    · rename_i hc; exact spawn_processes (.operator hc)
    · exact .rfl
  | process pid now fresh fault => exact absurd rfl (ha pid now fresh fault)
  | kill pid => exact kill_processes pid
  | crash => exact .same rfl rfl
  | environment a =>
    refine .same ?_ ?_ <;> cases a <;> simp only [step, environmentStep] <;> repeat' split
    all_goals rfl

theorem proc_origin (h : History) (config : Config) (w : World) (a : Action) {pid : Pid}
    {stage' : Stage} (hs : (w.step h config a).procs.get? pid = some stage') :
    ProcOrigin h w (w.step h config a) a pid stage' := by
  by_cases ha : ∃ p now fresh fault, a = .process p now fresh fault
  · obtain ⟨p, now, fresh, fault, rfl⟩ := ha
    simp only [step, stepProcess] at hs ⊢
    cases hp : w.procs.get? p with
    | none =>
      simp only [hp] at hs ⊢
      refine .kept hs fun _ _ _ ha => ?_
      cases ha; rw [hp] at hs; cases hs
    | some stage =>
      simp only [hp] at hs ⊢
      rcases hst : stage.step h now fresh fault w.site with ⟨site, progress⟩
      simp only [hst] at hs ⊢
      cases progress with
      | next s =>
        simp only [Table.get?_updateAt] at hs
        split at hs
        · rename_i hpid
          subst hpid
          rw [hp] at hs
          cases hs
          exact .stepped rfl hp hst
        · rename_i hpid
          exact .kept hs fun _ _ _ ha => by cases ha; exact hpid rfl
      | exit e =>
        rw [finishProcess_procs] at hs
        split at hs
        · cases hs
        · rename_i hpid
          exact .kept hs fun _ _ _ ha => by cases ha; exact hpid rfl
  · simp only [not_exists] at ha
    exact (step_processes h config w a ha).proc_origin (fun _ hP => hP) ha hs

theorem exit_origin (h : History) (config : Config) (w : World) (a : Action) {pid : Pid} {e : Exit}
    (he : (w.step h config a).exits.get? pid = some e) :
    ExitOrigin h w (w.step h config a) a pid e := by
  by_cases ha : ∃ p now fresh fault, a = .process p now fresh fault
  · obtain ⟨p, now, fresh, fault, rfl⟩ := ha
    simp only [step, stepProcess] at he ⊢
    cases hp : w.procs.get? p with
    | none => simp only [hp] at he ⊢; exact .kept he
    | some stage =>
      simp only [hp] at he ⊢
      rcases hst : stage.step h now fresh fault w.site with ⟨site, progress⟩
      simp only [hst] at he ⊢
      cases progress with
      | next s => exact .kept he
      | exit x =>
        rw [finishProcess_exits] at he
        split at he
        · rename_i hpid
          subst hpid
          cases hold : w.exits.get? pid with
          | none =>
            simp only [hold] at he
            cases he
            exact .exited rfl hp hold (by rw [hst, finishProcess_site])
          | some e' => simp only [hold] at he; cases he; exact .kept hold
        · exact .kept he
  · simp only [not_exists] at ha
    exact (step_processes h config w a ha).exit_origin he

/-- What becomes of a process: it runs on, steps, leaves its exit, or is killed. -/
inductive ProcFate (h : History) (w w' : World) (a : Action) (pid : Pid) (stage : Stage) : Prop
  | runs : w'.procs.get? pid = some stage → w'.exits.get? pid = w.exits.get? pid →
    ProcFate h w w' a pid stage
  | stepped {now fresh fault stage'} : a = .process pid now fresh fault →
    stage.step h now fresh fault w.site = (w'.site, .next stage') →
    w'.procs.get? pid = some stage' → w'.exits.get? pid = w.exits.get? pid →
    ProcFate h w w' a pid stage
  | left {now fresh fault e} : a = .process pid now fresh fault →
    stage.step h now fresh fault w.site = (w'.site, .exit e) → w'.procs.get? pid = none →
    w'.exits.get? pid = (w.exits.get? pid).or (some e) → ProcFate h w w' a pid stage
  | killed : w'.procs.get? pid = none → w'.exits.get? pid = (w.exits.get? pid).or (some .failed) →
    ProcFate h w w' a pid stage

theorem proc_fate (h : History) (config : Config) (w : World) (a : Action) {pid : Pid}
    {stage : Stage} (hp : w.procs.get? pid = some stage) :
    ProcFate h w (w.step h config a) a pid stage := by
  by_cases ha : ∃ q now fresh fault, a = .process q now fresh fault
  · obtain ⟨q, now, fresh, fault, rfl⟩ := ha
    simp only [step, stepProcess]
    cases hq : w.procs.get? q with
    | none => exact .runs hp rfl
    | some stage' =>
      rcases hst : stage'.step h now fresh fault w.site with ⟨site, progress⟩
      by_cases hpq : pid = q
      · subst hpq
        rw [hp] at hq
        cases hq
        simp only [hst]
        cases progress with
        | next s =>
          refine .stepped rfl hst ?_ rfl
          rw [Table.get?_updateAt, if_pos rfl, hp]
          rfl
        | exit e =>
          refine .left rfl (by rw [hst, finishProcess_site]) ?_ ?_
          · rw [finishProcess_procs, if_pos rfl]
          · rw [finishProcess_exits, if_pos rfl]
      · simp only [hst]
        cases progress with
        | next s =>
          refine .runs ?_ rfl
          rw [Table.get?_updateAt, if_neg hpq]
          exact hp
        | exit e =>
          refine .runs ?_ ?_
          · rw [finishProcess_procs, if_neg hpq]
            exact hp
          · rw [finishProcess_exits, if_neg hpq]
  · simp only [not_exists] at ha
    cases step_processes h config w a ha with
    | same hps he => exact .runs (by rw [hps]; exact hp) (by rw [he])
    | @spawned q s hu _ hps he =>
      have hne : pid ≠ q := by rintro rfl; rw [hu.1] at hp; cases hp
      exact .runs (by rw [hps, if_neg hne]; exact hp) (by rw [he])
    | @killed q _ hps he =>
      by_cases hpq : pid = q
      · exact .killed (by rw [hps, if_pos hpq]) (by rw [he, if_pos hpq])
      · exact .runs (by rw [hps, if_neg hpq]; exact hp) (by rw [he, if_neg hpq])

/-- An exit stays. -/
theorem exit_kept (h : History) (config : Config) (w : World) (a : Action) {pid : Pid} {e : Exit}
    (he : w.exits.get? pid = some e) : (w.step h config a).exits.get? pid = some e := by
  by_cases ha : ∃ p now fresh fault, a = .process p now fresh fault
  · obtain ⟨p, now, fresh, fault, rfl⟩ := ha
    simp only [step, stepProcess]
    split
    · exact he
    · rename_i stage hp
      rcases hst : stage.step h now fresh fault w.site with ⟨site, progress⟩
      cases progress with
      | next s => exact he
      | exit x =>
        rw [finishProcess_exits]
        split
        · rw [he]; rfl
        · exact he
  · simp only [not_exists] at ha
    exact (step_processes h config w a ha).exit_kept he

/-! ### The shared site -/

theorem bestEffortStep_shared (r : RunId) (now : Time) (pid : Pid) (fault : Bool)
    (stage : BestEffort) : (w.bestEffortStep r now pid fault stage).1.site =
      { w.site with db := (w.bestEffortStep r now pid fault stage).1.db } := by
  cases stage <;> simp only [bestEffortStep] <;> repeat' split
  all_goals first | rfl | simp only [db, spawn_site, kill_site]

theorem threadStep_shared (j : AttemptId) (now : Time) (pid : Pid) (fault : Bool) (w : World)
    (rt : ReservedTask) (owner : String) (s : ThreadStage) :
    (w.threadStep j now pid fault rt owner s).site =
      { w.site with db := (w.threadStep j now pid fault rt owner s).db } := by
  cases s with
  | unwinding r after stage =>
    have hb := bestEffortStep_shared (w := w) r now pid fault stage
    simp only [threadStep]
    rcases h : w.bestEffortStep r now pid fault stage with ⟨w', e⟩
    rw [h] at hb
    cases e <;> cases after <;> exact hb
  | _ =>
    simp only [threadStep]
    repeat' split
    all_goals first | rfl | simp only [db, await_site, kill_site, setThread_site]

theorem janitorStep_shared (now : Time) (pid : Pid) (fault : Bool) (w : World) :
    (w.janitorStep now pid fault).site =
      { w.site with db := (w.janitorStep now pid fault).db } := by
  unfold janitorStep
  split
  · rfl
  · rename_i r rest stage hj
    have hb := bestEffortStep_shared (w := w) r now pid fault stage
    rcases h : w.bestEffortStep r now pid fault stage with ⟨w', e⟩
    rw [h] at hb
    cases e <;> exact hb

/-- Only processes and the environment reach past the database. -/
theorem step_shared (h : History) (config : Config) (w : World) (a : Action)
    (ha : ∀ pid now fresh fault, a ≠ .process pid now fresh fault)
    (he : ∀ e, a ≠ .environment e) :
    (w.step h config a).site = { w.site with db := (w.step h config a).db } := by
  cases a with
  | objective a =>
    cases a <;> simp only [step, objectiveStep] <;> repeat' split
    all_goals rfl
  | planner i a =>
    simp only [step]
    split
    · cases a <;> simp only [plannerStep] <;> repeat' split
      all_goals rfl
    · rfl
  | graph a =>
    cases a <;> simp only [step, graphStep] <;> repeat' split
    all_goals rfl
  | thread j now pid fault =>
    simp only [step]
    split
    · exact threadStep_shared ..
    · rfl
  | janitorStart =>
    simp only [step]
    split <;> rfl
  | janitor now pid fault => exact janitorStep_shared ..
  | operator pid stage =>
    simp only [step]
    split
    · rw [db, spawn_site]
    · rfl
  | process pid now fresh fault => exact absurd rfl (ha pid now fresh fault)
  | kill pid => simp only [step, db, kill_site]
  | crash => rfl
  | environment e => exact absurd rfl (he e)

/-! ### Who writes the run store -/

/-- The writer of a step. -/
inductive WriterOf (h : History) (w w' : World) : Action → Writer → Prop
  | nobody {a} : WriterOf h w w' a .nobody
  | process {pid now fresh stage p} : w.procs.get? pid = some stage →
    stage.Succeeds h now fresh w.site w'.site p →
    WriterOf h w w' (.process pid now fresh false) (.process stage)
  | thread {j now pid rt r after reason} :
    w.daemon.threads.get? j = some ⟨rt, .unwinding r after (.marking reason)⟩ →
    WriterOf h w w' (.thread j now pid false) (.cleanup r)
  | janitor {now pid r rest reason} : w.daemon.janitor = (r :: rest, .marking reason) →
    WriterOf h w w' (.janitor now pid false) (.cleanup r)

theorem stepProcess_site {pid : Pid} {stage : Stage} (h : History) (now : Time) (fresh : Nat)
    (fault : Bool) (hp : w.procs.get? pid = some stage) :
    (w.stepProcess h pid now fresh fault).site = (stage.step h now fresh fault w.site).1 := by
  simp only [stepProcess, hp]
  rcases stage.step h now fresh fault w.site with ⟨site, progress⟩
  cases progress with
  | next s => rfl
  | exit e => rw [finishProcess_site]

/-- The step of a process, as a write or as nothing. -/
theorem stepProcess_cases (h : History) (pid : Pid) (now : Time) (fresh : Nat) (fault : Bool)
    (w : World) : (w.stepProcess h pid now fresh fault).site = w.site ∨
      ∃ stage p, fault = false ∧ w.procs.get? pid = some stage ∧
        stage.Succeeds h now fresh w.site (w.stepProcess h pid now fresh fault).site p := by
  cases hp : w.procs.get? pid with
  | none => simp only [stepProcess, hp]; exact .inl trivial
  | some stage =>
    rw [stepProcess_site h now fresh fault hp]
    rcases stage.step_cases h now fresh fault w.site with ⟨e, he⟩ | ⟨hf, hs⟩
    · exact .inl (congrArg Prod.fst he)
    · exact .inr ⟨stage, _, hf, rfl, hs⟩

/-- What a step does to the run store. -/
theorem store_step (h : History) (config : Config) (w : World) (a : Action) :
    ∃ wr, WriterOf h w (w.step h config a) a wr ∧
      StoreWritten w.site (w.step h config a).site wr := by
  have quiet : (w.step h config a).db.store = w.db.store → ∃ wr,
      WriterOf h w (w.step h config a) a wr ∧ StoreWritten w.site (w.step h config a).site wr :=
    fun hst => ⟨.nobody, .nobody, .same hst rfl (by simp)⟩
  cases a with
  | objective a =>
    refine quiet ?_
    cases a <;> simp only [step, objectiveStep] <;> repeat' split
    all_goals rfl
  | planner i a =>
    refine quiet ?_
    simp only [step]
    split
    · cases a <;> simp only [plannerStep] <;> repeat' split
      all_goals rfl
    · rfl
  | graph a =>
    refine quiet ?_
    cases a <;> simp only [step, graphStep] <;> repeat' split
    all_goals rfl
  | thread j now pid fault =>
    simp only [step]
    split
    · rename_i t ht
      obtain ⟨rt, s⟩ := t
      have hw := threadStep_write j now pid fault w rt s!"orchestrator:{rt.taskKey}" s
      generalize w.threadStep j now pid fault rt s!"orchestrator:{rt.taskKey}" s = w' at hw ⊢
      generalize hd : w'.db = d at hw
      cases hw with
      | mark hf => subst hf; exact ⟨_, .thread ht, written_marked hd⟩
      | _ =>
        have hst := congrArg Database.store hd
        exact ⟨.nobody, .nobody, .same hst rfl (by simp)⟩
    · exact ⟨.nobody, .nobody, .same rfl rfl (by simp)⟩
  | janitorStart =>
    refine quiet ?_
    simp only [step]
    split <;> rfl
  | janitor now pid fault =>
    rcases janitorStep_db now pid fault w with hd | ⟨r, rest, reason, rfl, hj, hd⟩
    · exact quiet (congrArg Database.store hd)
    · exact ⟨_, .janitor hj, written_marked hd⟩
  | operator pid stage =>
    refine quiet ?_
    simp only [step]
    split
    · rw [spawn_db]
    · rfl
  | process pid now fresh fault =>
    rcases stepProcess_cases h pid now fresh fault w with hs | ⟨stage, p, rfl, hp, hs⟩
    · exact quiet (congrArg (fun s => s.db.store) hs)
    · exact ⟨_, .process hp hs, hs.written⟩
  | kill pid => exact quiet (by simp only [step, kill_db])
  | crash => exact quiet rfl
  | environment e =>
    have hst : (w.step h config (.environment e)).db.store.runs = w.db.store.runs ∧
        (w.step h config (.environment e)).db.store.locks = w.db.store.locks ∧
        (w.step h config (.environment e)).db.store.integrations = w.db.store.integrations ∧
        (w.step h config (.environment e)).db.store.snapshots = w.db.store.snapshots := by
      cases e <;> simp only [step, environmentStep] <;> repeat' split
      all_goals exact ⟨rfl, rfl, rfl, rfl⟩
    exact ⟨.nobody, .nobody, .same hst.1, .same hst.2.1 rfl, .same hst.2.2.1,
      .same hst.2.2.2 (by simp)⟩

end World

/-! ### The default branches -/

/-- The run that a stage is about to fast-forward to. -/
def Stage.merging : Stage → Option (RunId × Run)
  | .prepared a _ => some (a.runId, a.run)
  | .fastForwarding r run _ => some (r, run)
  | _ => none

/-- Only the two merging stages move a branch. -/
theorem Stage.Succeeds.projects {h : History} {now : Time} {fresh : Nat} {s s' : Site} {stage : Stage}
    {p : Progress} (hs : stage.Succeeds h now fresh s s' p) :
    s'.projects = s.projects ∨ ∃ r run repo c moved, stage.merging = some (r, run) ∧
      s.repository run.projectId = some repo ∧ run.resultCommit = some c ∧
      repo.mergeFfOnly h c = some moved ∧ s' = s.setRepository run.projectId moved := by
  cases hs with
  | prepared hr hc hm => exact .inr ⟨_, _, _, _, _, rfl, hr, hc, hm, rfl⟩
  | fastForwarding hr hc hm => exact .inr ⟨_, _, _, _, _, rfl, hr, hc, hm, rfl⟩
  | _ => exact .inl rfl

namespace World

variable {w w' : World}

/-- What a step makes of the checkout of project `p`. -/
inductive HeadMove (h : History) (w : World) (p : ProjectId) (repo : Repository) :
    Action → Repository → Prop
  | kept {a repo'} : repo'.head = repo.head → repo'.reflog = repo.reflog →
    HeadMove h w p repo a repo'
  | advanced {c repo'} : h.isAncestor repo.head c = true → repo'.head = c →
    repo'.reflog = repo.reflog → HeadMove h w p repo (.environment (.advance p c)) repo'
  | merged {pid now fresh stage r run c repo'} : w.procs.get? pid = some stage →
    stage.merging = some (r, run) → run.projectId = p → run.resultCommit = some c →
    repo.mergeFfOnly h c = some repo' → HeadMove h w p repo (.process pid now fresh false) repo'

/-- A project is never added nor removed. -/
def HeadsMove (h : History) (w w' : World) (a : Action) : Prop :=
  Table.Related (fun p x x' => HeadMove h w p x.repository a x'.repository) w.site.projects
    w'.site.projects

theorem HeadsMove.of_eq {h : History} {a : Action} (hp : w'.site.projects = w.site.projects) :
    HeadsMove h w w' a := by
  unfold HeadsMove
  rw [hp]
  exact .refl fun _ _ _ => .kept rfl rfl

theorem environmentStep_heads (h : History) (w : World) (e : EnvironmentAction) :
    HeadsMove h w (w.environmentStep h e) (.environment e) := by
  cases e with
  | review id row => refine .of_eq ?_; simp only [environmentStep]; split <;> rfl
  | worker id row => refine .of_eq ?_; simp only [environmentStep]; split <;> rfl
  | enable p enabled => exact .updateAt (fun _ _ => .kept rfl rfl) fun _ _ _ _ => .kept rfl rfl
  | repository p present onDefaultBranch clean =>
    exact .updateAt (fun _ _ => .kept rfl rfl) fun _ _ _ _ => .kept rfl rfl
  | advance p c =>
    refine .updateAt (fun x _ => ?_) fun _ _ _ _ => .kept rfl rfl
    dsimp only
    split
    · rename_i hc; exact .advanced hc rfl rfl
    · exact .kept rfl rfl
  | worktree r t => exact .of_eq rfl
  | damage r => exact .of_eq rfl

theorem head_step (h : History) (config : Config) (w : World) (a : Action) :
    HeadsMove h w (w.step h config a) a := by
  by_cases hp : ∃ pid now fresh fault, a = .process pid now fresh fault
  · obtain ⟨pid, now, fresh, fault, rfl⟩ := hp
    rcases stepProcess_cases h pid now fresh fault w with hs | ⟨stage, p, rfl, hstage, hs⟩
    · exact .of_eq (congrArg Site.projects hs)
    · rcases hs.projects with hs | ⟨r, run, repo, c, moved, hm, hr, hc, hmerge, hs⟩
      · exact .of_eq hs
      · unfold HeadsMove
        simp only [step, hs, Site.setRepository]
        refine .updateAt (fun x hx => ?_) fun _ _ _ _ => .kept rfl rfl
        obtain rfl : x.repository = repo := by
          rw [Site.repository, hx] at hr; simpa using hr
        exact .merged hstage hm rfl hc hmerge
  · simp only [not_exists] at hp
    by_cases he : ∃ e, a = .environment e
    · obtain ⟨e, rfl⟩ := he
      exact environmentStep_heads h w e
    · simp only [not_exists] at he
      refine .of_eq ?_
      rw [step_shared h config w a hp he]

/-- The record of validated reviews only grows. -/
theorem validated_mono (h : History) (config : Config) (w : World) (a : Action)
    {v : RunId × ReviewId × Option Commit} (hv : v ∈ w.site.validated) :
    v ∈ (w.step h config a).site.validated := by
  by_cases hp : ∃ pid now fresh fault, a = .process pid now fresh fault
  · obtain ⟨pid, now, fresh, fault, rfl⟩ := hp
    rcases stepProcess_cases h pid now fresh fault w with hs | ⟨stage, p, -, -, hs⟩
    · simp only [step, hs]; exact hv
    · simp only [step]
      generalize (w.stepProcess h pid now fresh fault).site = s' at hs
      cases hs with
      | apply => exact List.mem_cons_of_mem _ hv
      | _ => exact hv
  · simp only [not_exists] at hp
    by_cases he : ∃ e, a = .environment e
    · obtain ⟨e, rfl⟩ := he
      cases e <;> simp only [step, environmentStep] <;> repeat' split
      all_goals exact hv
    · simp only [not_exists] at he
      rw [step_shared h config w a hp he]
      exact hv

end World

end HermesOps
