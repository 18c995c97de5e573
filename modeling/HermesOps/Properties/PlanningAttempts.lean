import HermesOps.Properties.ObjectiveMoves
import HermesOps.Properties.Scenario

/-! The attempts of the planner against the objectives they plan. The numbering always holds; that a
    running attempt keeps its objective in planning, or in a pause or cancel that is still only
    requested, holds exactly while nothing settles such a request early: the commands and the sweep
    judge an objective idle from the tasks of its plan, and an objective in planning has none. -/

namespace HermesOps

open Schemes

/-- The attempt numbers of an objective, oldest first. -/
def Queue.attemptNumbers (q : Queue) (id : ObjectiveId) : List Nat :=
  (q.attempts.select fun _ a => a.objectiveId = id).map fun x => x.2.attemptNumber

/-- A planner is at work on the objective, as far as the table knows. -/
def Queue.planningInFlight (q : Queue) (id : ObjectiveId) : Bool :=
  q.attempts.any fun _ a => a.objectiveId = id ∧ a.status = .running

/-- The statuses under which a planner may run. -/
def ObjectiveStatus.isPlanning : ObjectiveStatus → Bool
  | .planning | .pauseRequested | .cancelRequested => true
  | _ => false

/-- The attempts match the objectives. -/
structure AttemptsMatch (q : Queue) : Prop where
  running : ∀ i a, q.attempts.get? i = some a → a.status = .running →
    ∀ o, q.objectives.get? a.objectiveId = some o → o.status.isPlanning = true
  unique : ∀ i j a b, q.attempts.get? i = some a → q.attempts.get? j = some b →
    a.status = .running → b.status = .running → a.objectiveId = b.objectiveId → i = j
  numbered : ∀ id o, q.objectives.get? id = some o →
    q.attemptNumbers id = List.range' 1 o.planningAttemptCount ∧
      o.planningAttemptCount ≤ o.planningMaxAttempts

/-- The action settles a requested pause or cancel while the planner is still out: a second pause, a
    cancel after the request, or the sweep. -/
def settlesEarly (a : Action) (w : World) : Bool :=
  match a with
  | .objective (.cli id c _) | .objective (.controller id c _) =>
    w.db.queue.planningInFlight id && (w.db.queue.objectives.get? id).any fun o =>
      match c with
      | .pause => o.status = .pauseRequested
      | .cancel => o.status = .pauseRequested ∨ o.status = .cancelRequested
      | .resume => false
  | .objective (.synchronize _) => w.db.queue.objectives.any fun id o =>
      w.db.queue.planningInFlight id && (o.status = .pauseRequested ∨ o.status = .cancelRequested)
  | _ => false

/-! ### The invariant -/

/-- Beside the match: a running attempt belongs to an objective without a plan, the planner threads
    own running attempts, and attempts belong to objectives. -/
structure PlanningInv (q : Queue) (planners : Table ObjectiveAttemptId Planner) : Prop
    extends AttemptsMatch q where
  unplanned : ∀ i a o, q.attempts.get? i = some a → a.status = .running →
    q.objectives.get? a.objectiveId = some o → o.planId = none
  planner : ∀ i p, planners.get? i = some p → ∃ a, q.attempts.get? i = some a ∧
    a.objectiveId = p.objectiveId ∧ a.status = .running
  owned : ∀ i a, q.attempts.get? i = some a → (q.objectives.get? a.objectiveId).isSome = true

def World.PlanningInv (w : World) : Prop := HermesOps.PlanningInv w.db.queue w.daemon.planners

/-- The step leaves the columns of the attempts that the invariant reads. -/
structure AttemptsKept (q q' : Queue) : Prop where
  back : ∀ i a', q'.attempts.get? i = some a' → ∃ a, q.attempts.get? i = some a ∧
    a'.objectiveId = a.objectiveId ∧ a'.status = a.status
  forth : ∀ i a, q.attempts.get? i = some a → ∃ a', q'.attempts.get? i = some a' ∧
    a'.objectiveId = a.objectiveId ∧ a'.status = a.status
  numbers : ∀ id, q'.attemptNumbers id = q.attemptNumbers id

theorem AttemptsKept.of_eq {q q' : Queue} (h : q'.attempts = q.attempts) : AttemptsKept q q' := by
  refine ⟨fun i a ha => ⟨a, h ▸ ha, rfl, rfl⟩, fun i a ha => ⟨a, h ▸ ha, rfl, rfl⟩, fun id => ?_⟩
  rw [Queue.attemptNumbers, h, Queue.attemptNumbers]

theorem Queue.attemptNumbers_update {q q' : Queue} {p : ObjectiveAttemptId → ObjectiveAttempt → Bool}
    {f : ObjectiveAttempt → ObjectiveAttempt} (h : q'.attempts = q.attempts.update p f)
    (hf : ∀ a, (f a).objectiveId = a.objectiveId ∧ (f a).attemptNumber = a.attemptNumber)
    (id : ObjectiveId) : q'.attemptNumbers id = q.attemptNumbers id := by
  rw [Queue.attemptNumbers, h, Queue.attemptNumbers]
  exact Table.map_select_update fun k r _ => by simp [hf r]

theorem AttemptsKept.of_update {q q' : Queue} {p : ObjectiveAttemptId → ObjectiveAttempt → Bool}
    {f : ObjectiveAttempt → ObjectiveAttempt} (h : q'.attempts = q.attempts.update p f)
    (hf : ∀ a, (f a).objectiveId = a.objectiveId ∧ (f a).attemptNumber = a.attemptNumber ∧
      (f a).status = a.status) : AttemptsKept q q' := by
  refine ⟨fun i a' ha' => ?_, fun i a ha => ?_,
    Queue.attemptNumbers_update h fun a => ⟨(hf a).1, (hf a).2.1⟩⟩
  · rw [h, Table.get?_update, Option.map_eq_some_iff] at ha'
    obtain ⟨a, ha, rfl⟩ := ha'
    refine ⟨a, ha, ?_⟩
    split
    · exact ⟨(hf a).1, (hf a).2.2⟩
    · exact ⟨rfl, rfl⟩
  · refine ⟨_, by rw [h, Table.get?_update, ha, Option.map_some], ?_⟩
    split
    · exact ⟨(hf a).1, (hf a).2.2⟩
    · exact ⟨rfl, rfl⟩

/-- The four transactions that open or close an attempt. -/
def Action.writesAttempts : Action → Bool
  | .objective (.reserve _ _ _) | .objective (.reconcile _) => true
  | .planner _ (.success _) | .planner _ (.failure _) => true
  | _ => false

theorem attempts_kept (h : History) (config : Config) (w : World) {a : Action}
    (ha : a.writesAttempts = false) : AttemptsKept w.db.queue (w.step h config a).db.queue := by
  by_cases hq : a.isQueueAction = false
  · exact .of_eq (by rw [World.step_queue h config w hq])
  cases a with
  | objective a =>
    cases a with
    | submit i s now =>
      simp only [World.step, World.objectiveStep]
      split
      · exact .of_eq rfl
      · cases hi : insertObjective w.db i s now with
        | error e => exact .of_eq rfl
        | ok q => exact .of_eq (insertObjective_ok hi).2.1
    | submitPlan p planId firstTask test now =>
      simp only [World.step, World.objectiveStep]
      split <;> exact .of_eq rfl
    | attachPlan p i s now =>
      simp only [World.step, World.objectiveStep]
      split
      · exact .of_eq rfl
      · cases hi : insertObjective w.db i { s with planId := some p } now with
        | ok q =>
          simp only [World.db] at hi ⊢; simp only [hi]
          exact .of_eq (insertObjective_ok hi).2.1
        | error e =>
          simp only [World.db] at hi ⊢; simp only [hi]
          exact .of_update (p := fun _ x => x.planId = some p)
            (f := fun x => { x with planId := none }) rfl fun a => ⟨rfl, rfl, rfl⟩
    | dropSubmission p => exact .of_eq rfl
    | cli i c now =>
      simp only [World.step, World.objectiveStep_cli]
      cases hc : c.apply w.db i now with
      | ok qg =>
        rcases ObjectiveCommand.apply_queue hc with hq | ⟨f, hq⟩ <;> exact .of_eq (by simp [hq])
      | error e => exact .of_eq rfl
    | controller i c now =>
      simp only [World.step, World.objectiveStep_controller, World.objectiveStep_cli]
      cases hc : c.apply w.db i now with
      | ok qg =>
        rcases ObjectiveCommand.apply_queue hc with hq | ⟨f, hq⟩ <;> exact .of_eq (by simp [hq])
      | error e => exact .of_eq rfl
    | synchronize now => exact .of_eq (synchronizeObjectiveStates_spec w.db now).2.1
    | promote i now =>
      simp only [World.step, World.objectiveStep]
      split
      · rename_i q g p hp
        obtain ⟨_, _, _, _, _, _, rfl, -⟩ := promotePlannedObjective_some hp
        exact .of_eq rfl
      · exact .of_eq rfl
    | reserve i j now => cases ha
    | reconcile now => cases ha
  | planner i a =>
    simp only [World.step]
    cases w.daemon.planners.get? i with
    | none => exact .of_eq rfl
    | some planner =>
      obtain ⟨oid, stage⟩ := planner
      cases a with
      | insert p planId firstTask now =>
        cases stage with
        | generating => simp only [World.plannerStep]; split <;> exact .of_eq rfl
        | _ => exact .of_eq rfl
      | raise e => cases stage <;> exact .of_eq rfl
      | success now => cases ha
      | failure now => cases ha
  | _ => simp [Action.isQueueAction] at hq

/-- Planners that are there after such a step were there before, on the same objective. -/
theorem planners_kept (h : History) (config : Config) (w : World) {a : Action}
    (ha : a.writesAttempts = false) {i : ObjectiveAttemptId} {p : Planner}
    (hp : (w.step h config a).daemon.planners.get? i = some p) :
    ∃ p', w.daemon.planners.get? i = some p' ∧ p'.objectiveId = p.objectiveId := by
  by_cases hq : a.isQueueAction = false
  · rcases World.step_planners h config w hq with he | he <;> rw [he] at hp
    · exact ⟨p, hp, rfl⟩
    · cases hp
  cases a with
  | objective a =>
    refine ⟨p, ?_, rfl⟩
    cases a with
    | reserve i j now => cases ha
    | reconcile now => cases ha
    | attachPlan q i s now =>
      simp only [World.step, World.objectiveStep] at hp
      split at hp
      · exact hp
      · cases hi : insertObjective w.db i { s with planId := some q } now <;>
          simp only [World.db] at hi hp <;> simp only [hi] at hp <;> exact hp
    | _ => 
      simp only [World.step, World.objectiveStep] at hp
      repeat' split at hp
      all_goals exact hp
  | planner j a =>
    simp only [World.step] at hp
    cases hj : w.daemon.planners.get? j with
    | none => simp only [hj] at hp; exact ⟨p, hp, rfl⟩
    | some planner =>
      simp only [hj] at hp
      have moved : ∀ stage, (w.setPlanner j stage).daemon.planners.get? i = some p →
          ∃ p', w.daemon.planners.get? i = some p' ∧ p'.objectiveId = p.objectiveId := by
        intro stage hs
        simp only [World.setPlanner, Table.get?_updateAt] at hs
        split at hs
        · rw [Option.map_eq_some_iff] at hs
          obtain ⟨p', hp', rfl⟩ := hs
          exact ⟨p', hp', rfl⟩
        · exact ⟨p, hs, rfl⟩
      obtain ⟨oid, stage⟩ := planner
      cases a with
      | insert q planId firstTask now =>
        cases stage with
        | generating =>
          simp only [World.plannerStep] at hp
          split at hp
          · exact moved _ hp
          · exact moved _ hp
        | _ => exact ⟨p, hp, rfl⟩
      | raise e =>
        cases stage with
        | failing e' => exact ⟨p, hp, rfl⟩
        | _ => exact moved _ hp
      | success now => cases ha
      | failure now => cases ha
  | _ => simp [Action.isQueueAction] at hq

/-! ### One step -/

theorem World.PlanningInv.numbered_step {h : History} {config : Config} {w : World} {a : Action}
    (hI : w.PlanningInv) (hn : ∀ id, (w.step h config a).db.queue.attemptNumbers id =
      w.db.queue.attemptNumbers id)
    (hr : ∀ id i now, a ≠ .objective (.reserve id i now)) (id : ObjectiveId) (o : Objective)
    (ho : (w.step h config a).db.queue.objectives.get? id = some o) :
    (w.step h config a).db.queue.attemptNumbers id = List.range' 1 o.planningAttemptCount ∧
      o.planningAttemptCount ≤ o.planningMaxAttempts := by
  rw [hn]
  cases hold : w.db.queue.objectives.get? id with
  | none =>
    obtain ⟨s, now, rfl, -⟩ := objective_new h config w a hold ho
    refine ⟨?_, Nat.zero_le _⟩
    have : w.db.queue.attempts.select (fun _ a => a.objectiveId = id) = [] := by
      rw [List.eq_nil_iff_forall_not_mem]
      rintro ⟨i, x⟩ hx
      rw [Table.mem_select] at hx
      have := hI.owned i x hx.1
      rw [of_decide_eq_true hx.2, hold] at this
      cases this
    rw [Queue.attemptNumbers, this]; rfl
  | some old =>
    obtain ⟨o', ho', hm⟩ := objective_move h config w a hold
    obtain rfl : o = o' := by rw [ho] at ho'; simpa using ho'
    obtain ⟨hnum, hle⟩ := hI.numbered id old hold
    have hsame : o.planningAttemptCount = old.planningAttemptCount ∧
        o.planningMaxAttempts = old.planningMaxAttempts := by
      cases hm with
      | kept _ hc => exact ⟨hc.count, hc.budget⟩
      | unlinked _ hc hb => exact ⟨hc, hb⟩
      | paused _ hc => exact ⟨hc.count, hc.budget⟩
      | resumed _ hc => exact ⟨hc.count, hc.budget⟩
      | cancelled _ hc => exact ⟨hc.count, hc.budget⟩
      | swept hc => exact ⟨hc.count, hc.budget⟩
      | promoted hc => exact ⟨hc.count, hc.budget⟩
      | exhausted hc => exact ⟨hc.count, hc.budget⟩
      | reserved => exact absurd rfl (hr _ _ _)
      | planned _ _ _ hc hb => exact ⟨hc, hb⟩
      | failed _ hc => exact ⟨hc.count, hc.budget⟩
      | restarted _ hc => exact ⟨hc.count, hc.budget⟩
    rw [hsame.1, hsame.2]; exact ⟨hnum, hle⟩

/-- A requested pause or cancel with a planner out: the step must not settle it. -/
theorem settlesEarly_of_command {w : World} {a : Action} {id : ObjectiveId} {o : Objective}
    {c : ObjectiveCommand} (hc : a.isCommandOn id c = true)
    (hin : w.db.queue.planningInFlight id = true) (ho : w.db.queue.objectives.get? id = some o)
    (hs : (c = .pause ∧ o.status = .pauseRequested) ∨
      (c = .cancel ∧ (o.status = .pauseRequested ∨ o.status = .cancelRequested))) :
    settlesEarly a w = true := by
  unfold Action.isCommandOn at hc
  split at hc
  all_goals first
    | (simp only [decide_eq_true_eq] at hc
       obtain ⟨rfl, rfl⟩ := hc
       rcases hs with ⟨rfl, hs⟩ | ⟨rfl, hs⟩ <;> simp [settlesEarly, hin, ho, hs])
    | cases hc

theorem settlesEarly_of_sweep {w : World} {id : ObjectiveId} {o : Objective} (now : Time)
    (hin : w.db.queue.planningInFlight id = true) (ho : w.db.queue.objectives.get? id = some o)
    (hs : o.status = .pauseRequested ∨ o.status = .cancelRequested) :
    settlesEarly (.objective (.synchronize now)) w = true := by
  simp only [settlesEarly]
  exact Table.any_iff.2 ⟨id, o, ho, by simp [hin, hs]⟩

/-- While its planner is out, an objective moves among the planning statuses. -/
theorem ObjectiveMove.inFlight {w : World} {id : ObjectiveId} {o o' : Objective} {a : Action}
    (hm : ObjectiveMove w id o a o') (ho : w.db.queue.objectives.get? id = some o)
    (hin : w.db.queue.planningInFlight id = true) (hs : o.status.isPlanning = true)
    (hp : o.planId = none) (ha : a.writesAttempts = false) (he : settlesEarly a w = false) :
    o'.status.isPlanning = true ∧ o'.planId = none := by
  cases hm with
  | kept h hc => exact ⟨by rw [h]; exact hs, by rw [hc.plan]; exact hp⟩
  | unlinked _ _ _ h => rw [hp] at h; cases h
  | paused hc hcar hcr ht hpd hnew =>
    refine ⟨?_, by rw [hcar.plan]; exact hp⟩
    by_cases hpl : o.status = .planning
    · simp [hnew, hpl, ObjectiveStatus.isPlanning]
    · have hpr : o.status = .pauseRequested := by
        cases hst : o.status <;> simp_all [ObjectiveStatus.isPlanning]
      rw [settlesEarly_of_command hc hin ho (.inl ⟨rfl, hpr⟩)] at he; cases he
  | resumed _ _ h => rw [h] at hs; cases hs
  | cancelled hc hcar ht _ hnew =>
    refine ⟨?_, by rw [hcar.plan]; exact hp⟩
    by_cases hpl : o.status = .planning
    · simp [hnew, hpl, cancelledStatus, ObjectiveStatus.isPlanning]
    · have hreq : o.status = .pauseRequested ∨ o.status = .cancelRequested := by
        cases hst : o.status <;> simp_all [ObjectiveStatus.isPlanning]
      rw [settlesEarly_of_command hc hin ho (.inr ⟨rfl, hreq⟩)] at he; cases he
  | swept hcar ht hsync =>
    by_cases hpl : o.status = .planning
    · simp [synchronizedStatus, hpl, hp, Graph.planStatus] at hsync
    · have hreq : o.status = .pauseRequested ∨ o.status = .cancelRequested := by
        cases hst : o.status <;> simp_all [ObjectiveStatus.isPlanning]
      rw [settlesEarly_of_sweep _ hin ho hreq] at he; cases he
  | promoted _ h => rw [h] at hs; cases hs
  | exhausted _ h => rw [h] at hs; cases hs
  | reserved h => rw [h] at hs; cases hs
  | planned => cases ha
  | failed => cases ha
  | restarted => cases ha

theorem Queue.planningInFlight_of {q : Queue} {i : ObjectiveAttemptId} {a : ObjectiveAttempt}
    (ha : q.attempts.get? i = some a) (hr : a.status = .running) :
    q.planningInFlight a.objectiveId = true :=
  Table.any_iff.2 ⟨i, a, ha, by simp [hr]⟩

/-- A step that opens and closes no attempt. -/
theorem World.PlanningInv.step_kept {h : History} {config : Config} {w : World} {a : Action}
    (hI : w.PlanningInv) (ha : a.writesAttempts = false) (he : settlesEarly a w = false) :
    (w.step h config a).PlanningInv := by
  have hk := attempts_kept h config w ha
  -- the objective of a running attempt, before and after
  have hobj : ∀ i x' o', (w.step h config a).db.queue.attempts.get? i = some x' →
      x'.status = .running →
      (w.step h config a).db.queue.objectives.get? x'.objectiveId = some o' →
      o'.status.isPlanning = true ∧ o'.planId = none := by
    intro i x' o' hx' hr ho'
    obtain ⟨x, hx, hid, hst⟩ := hk.back i x' hx'
    rw [hst] at hr
    rw [hid] at ho'
    obtain ⟨o, ho⟩ := Option.isSome_iff_exists.1 (hI.owned i x hx)
    obtain ⟨o'', ho'', hm⟩ := objective_move h config w a ho
    obtain rfl : o' = o'' := by rw [ho'] at ho''; simpa using ho''
    exact hm.inFlight ho (Queue.planningInFlight_of hx hr) (hI.running i x hx hr o ho)
      (hI.unplanned i x o hx hr ho) ha he
  refine ⟨⟨fun i x hx hr o ho => (hobj i x o hx hr ho).1, ?_, ?_⟩,
    fun i x o hx hr ho => (hobj i x o hx hr ho).2, ?_, ?_⟩
  · intro i j x y hx hy hxr hyr hxy
    obtain ⟨x₀, hx₀, hxid, hxst⟩ := hk.back i x hx
    obtain ⟨y₀, hy₀, hyid, hyst⟩ := hk.back j y hy
    exact hI.unique i j x₀ y₀ hx₀ hy₀ (hxst ▸ hxr) (hyst ▸ hyr) (by rw [← hxid, ← hyid, hxy])
  · refine fun id o ho => hI.numbered_step hk.numbers ?_ id o ho
    rintro _ _ _ rfl; cases ha
  · intro i p hp
    obtain ⟨p', hp', hpid⟩ := planners_kept h config w ha hp
    obtain ⟨x, hx, hxid, hxr⟩ := hI.planner i p' hp'
    obtain ⟨x', hx', hid, hst⟩ := hk.forth i x hx
    exact ⟨x', hx', by rw [hid, hxid, hpid], by rw [hst, hxr]⟩
  · intro i x' hx'
    obtain ⟨x, hx, hid, -⟩ := hk.back i x' hx'
    obtain ⟨o, ho⟩ := Option.isSome_iff_exists.1 (hI.owned i x hx)
    obtain ⟨o', ho', -⟩ := objective_move h config w a ho
    rw [hid, ho']; rfl

/-! ### The four transactions on attempts -/

section Transactions

variable {q q' : Queue} {planners planners' : Table ObjectiveAttemptId Planner}

theorem PlanningInv.idle_of_queued (hI : PlanningInv q planners) {id : ObjectiveId} {o : Objective}
    (ho : q.objectives.get? id = some o) (hq : o.status = .queued) {i : ObjectiveAttemptId}
    {x : ObjectiveAttempt} (hx : q.attempts.get? i = some x) (hr : x.status = .running) :
    x.objectiveId ≠ id := by
  rintro rfl
  have := hI.running i x hx hr o ho
  rw [hq] at this; cases this

theorem PlanningInv.exhausted (hI : PlanningInv q planners) {id : ObjectiveId} {o : Objective}
    (ho : q.objectives.get? id = some o) (hq : o.status = .queued) (now : Time) :
    PlanningInv { q with objectives := q.objectives.updateAt id (Objective.exhausted now) }
      planners := by
  have hother : ∀ {i x}, q.attempts.get? i = some x → x.status = .running →
      (q.objectives.updateAt id (Objective.exhausted now)).get? x.objectiveId =
        q.objectives.get? x.objectiveId := by
    intro i x hx hr
    rw [Table.get?_updateAt, if_neg (hI.idle_of_queued ho hq hx hr)]
  refine ⟨⟨fun i x hx hr o' ho' => ?_, hI.unique, fun j o' ho' => ?_⟩, fun i x o' hx hr ho' => ?_,
    hI.planner, fun i x hx => ?_⟩
  · rw [hother hx hr] at ho'; exact hI.running i x hx hr o' ho'
  · simp only [Table.get?_updateAt] at ho'
    split at ho'
    · rw [Option.map_eq_some_iff] at ho'
      obtain ⟨o₀, ho₀, rfl⟩ := ho'
      exact hI.numbered j o₀ ho₀
    · exact hI.numbered j o' ho'
  · rw [hother hx hr] at ho'; exact hI.unplanned i x o' hx hr ho'
  · simp only [Table.get?_updateAt]
    split
    · rw [Option.isSome_map]; exact hI.owned i x hx
    · exact hI.owned i x hx

theorem PlanningInv.reserved (hI : PlanningInv q planners) {id : ObjectiveId} {row : Objective}
    {i : ObjectiveAttemptId} {n : Nat} {now : Time}
    (hr : reserveAiObjective q id i n now = .reserved q' row)
    (hp : planners.insert i ⟨id, .generating⟩ = some planners') : PlanningInv q' planners' := by
  obtain ⟨hrow, hq, hplan, hbudget, -, hobj, hatt⟩ := reserveAiObjective_reserved hr
  have hget : ∀ j, q'.objectives.get? j = if j = id then
      some (row.reserved (row.planningAttemptCount + 1) now) else q.objectives.get? j := by
    intro j
    rw [hobj, Table.get?_update]
    by_cases hj : j = id
    · subst hj; simp [hrow, hq]
    · cases q.objectives.get? j <;> simp [hj]
  have hattempt := Table.get?_insert hatt
  -- a running attempt is the new one, or an old one on another objective
  have hcases : ∀ {j x}, q'.attempts.get? j = some x → x.status = .running →
      (j = i ∧ x.objectiveId = id) ∨
        (j ≠ i ∧ q.attempts.get? j = some x ∧ x.objectiveId ≠ id) := by
    intro j x hx hrun
    rw [hattempt] at hx
    split at hx
    · rename_i hj; cases hx; exact .inl ⟨hj, rfl⟩
    · rename_i hj; exact .inr ⟨hj, hx, hI.idle_of_queued hrow hq hx hrun⟩
  refine ⟨⟨fun j x hx hrun o ho => ?_, fun j k x y hx hy hxr hyr hxy => ?_, fun j o ho => ?_⟩,
    fun j x o hx hrun ho => ?_, fun j p hj => ?_, fun j x hx => ?_⟩
  · rcases hcases hx hrun with ⟨-, hid⟩ | ⟨-, hx, hid⟩
    · rw [hid, hget, if_pos rfl] at ho; cases ho; rfl
    · rw [hget, if_neg hid] at ho; exact hI.running j x hx hrun o ho
  · rcases hcases hx hxr with ⟨rfl, hxid⟩ | ⟨-, hx, hxid⟩ <;>
      rcases hcases hy hyr with ⟨rfl, hyid⟩ | ⟨-, hy, hyid⟩
    · rfl
    · exact absurd (hxy.symm.trans hxid) hyid
    · exact absurd (hxy.trans hyid) hxid
    · exact hI.unique j k x y hx hy hxr hyr hxy
  · rw [Queue.attemptNumbers, Table.select_insert hatt, List.map_append]
    rw [hget] at ho
    split at ho
    · rename_i hj
      cases ho
      subst hj
      refine ⟨?_, hbudget⟩
      have hold := (hI.numbered j row hrow).1
      rw [Queue.attemptNumbers] at hold
      simp [hold, ObjectiveAttempt.start, Objective.reserved, List.range'_concat, Nat.add_comm]
    · rename_i hj
      have hne : ¬(ObjectiveAttempt.start id (row.planningAttemptCount + 1) now).objectiveId = j :=
        fun h => hj h.symm
      simpa [hne, Queue.attemptNumbers] using hI.numbered j o ho
  · rcases hcases hx hrun with ⟨-, hid⟩ | ⟨-, hx, hid⟩
    · rw [hid, hget, if_pos rfl] at ho; cases ho; exact hplan
    · rw [hget, if_neg hid] at ho; exact hI.unplanned j x o hx hrun ho
  · rw [Table.get?_insert hp] at hj
    split at hj
    · rename_i hji; cases hj
      exact ⟨_, by rw [hattempt, if_pos hji], rfl, rfl⟩
    · obtain ⟨x, hx, hid, hrun⟩ := hI.planner j p hj
      have : j ≠ i := by rintro rfl; contradiction
      exact ⟨x, by rw [hattempt, if_neg this]; exact hx, hid, hrun⟩
  · rw [hattempt] at hx
    rw [hget]
    split at hx
    · cases hx; simp [ObjectiveAttempt.start]
    · split
      · rfl
      · exact hI.owned j x hx

/-- A planner thread ends: its attempt is closed and its objective written. -/
theorem PlanningInv.closed (hI : PlanningInv q planners) {i : ObjectiveAttemptId}
    {id : ObjectiveId} {stage : PlannerStage} (hp : planners.get? i = some ⟨id, stage⟩)
    {f : Objective → Objective} {g : ObjectiveAttempt → ObjectiveAttempt}
    (hobj : q'.objectives = q.objectives.updateAt id f)
    (hf : ∀ o, (f o).planningAttemptCount = o.planningAttemptCount ∧
      (f o).planningMaxAttempts = o.planningMaxAttempts)
    (hatt : q'.attempts = q.attempts.update (fun j a => j = i ∧ a.status = .running) g)
    (hg : ∀ a, (g a).objectiveId = a.objectiveId ∧ (g a).attemptNumber = a.attemptNumber ∧
      (g a).status ≠ .running) :
    PlanningInv q' (planners.delete fun j _ => j = i) := by
  obtain ⟨x₀, hx₀, hid₀, hrun₀⟩ := hI.planner i _ hp
  have hget : ∀ j, q'.objectives.get? j =
      if j = id then (q.objectives.get? j).map f else q.objectives.get? j := by
    intro j; rw [hobj, Table.get?_updateAt]
  -- what is still running was running, and on another objective
  have hcases : ∀ {j x}, q'.attempts.get? j = some x → x.status = .running →
      q.attempts.get? j = some x ∧ x.objectiveId ≠ id := by
    intro j x hx hrun
    rw [hatt, Table.get?_update, Option.map_eq_some_iff] at hx
    obtain ⟨x', hx', rfl⟩ := hx
    by_cases hj : j = i ∧ x'.status = .running
    · simp only [hj, and_self, decide_true, if_true] at hrun
      exact absurd hrun (hg x').2.2
    · simp only [hj, decide_false, Bool.false_eq_true, if_false] at hrun ⊢
      refine ⟨hx', fun hid => hj ⟨?_, hrun⟩⟩
      exact hI.unique j i x' x₀ hx' hx₀ hrun hrun₀ (hid.trans hid₀.symm)
  refine ⟨⟨fun j x hx hrun o ho => ?_, fun j k x y hx hy hxr hyr hxy => ?_, fun j o ho => ?_⟩,
    fun j x o hx hrun ho => ?_, fun j p hj => ?_, fun j x hx => ?_⟩
  · obtain ⟨hx, hne⟩ := hcases hx hrun
    rw [hget, if_neg hne] at ho; exact hI.running j x hx hrun o ho
  · exact hI.unique j k x y (hcases hx hxr).1 (hcases hy hyr).1 hxr hyr hxy
  · rw [Queue.attemptNumbers_update hatt fun a => ⟨(hg a).1, (hg a).2.1⟩]
    rw [hget] at ho
    split at ho
    · rw [Option.map_eq_some_iff] at ho
      obtain ⟨o', ho', rfl⟩ := ho
      rw [(hf o').1, (hf o').2]; exact hI.numbered j o' ho'
    · exact hI.numbered j o ho
  · obtain ⟨hx, hne⟩ := hcases hx hrun
    rw [hget, if_neg hne] at ho; exact hI.unplanned j x o hx hrun ho
  · rw [Table.get?_delete, Option.filter_eq_some_iff] at hj
    obtain ⟨x, hx, hid, hrun⟩ := hI.planner j p hj.1
    have hji : j ≠ i := by simpa using hj.2
    exact ⟨x, by rw [hatt, Table.get?_update, hx]; simp [hji], hid, hrun⟩
  · rw [hatt, Table.get?_update, Option.map_eq_some_iff] at hx
    obtain ⟨x', hx', rfl⟩ := hx
    have hid : (if decide (j = i ∧ x'.status = .running) = true then g x' else x').objectiveId =
        x'.objectiveId := by
      split
      · exact (hg x').1
      · rfl
    rw [hid, hget]
    split
    · rw [Option.isSome_map]; exact hI.owned j x' hx'
    · exact hI.owned j x' hx'

/-- A restart: no planner is left, and what was in planning is given up. -/
theorem PlanningInv.restarted (hI : PlanningInv q planners) (hp : planners.rows = [])
    (now : Time) : PlanningInv (reconcileInterruptedObjectives q now) planners := by
  have hget : ∀ j, (reconcileInterruptedObjectives q now).objectives.get? j =
      (q.objectives.get? j).map fun o => if o.status = .planning then o.restarted now else o := by
    intro j; simp [reconcileInterruptedObjectives]
  have hcases : ∀ {j x}, (reconcileInterruptedObjectives q now).attempts.get? j = some x →
      x.status = .running → q.attempts.get? j = some x ∧
        ∀ o, q.objectives.get? x.objectiveId = some o → o.status ≠ .planning := by
    intro j x hx hrun
    simp only [reconcileInterruptedObjectives, Table.get?_update, Option.map_eq_some_iff] at hx
    obtain ⟨x', hx', rfl⟩ := hx
    by_cases hn : x'.status = .running ∧
        ((q.objectives.get? x'.objectiveId).any fun o => o.status = .planning) = true
    · simp only [hn, and_self, decide_true, if_true] at hrun; cases hrun
    · simp only [hn, decide_false, Bool.false_eq_true, if_false] at hrun ⊢
      exact ⟨hx', fun o ho hpl => hn ⟨hrun, by simp [ho, hpl]⟩⟩
  -- an objective whose attempt is still running is not in planning, so it is as it was
  have hsame : ∀ {j x}, (reconcileInterruptedObjectives q now).attempts.get? j = some x →
      x.status = .running → ∀ o,
        (reconcileInterruptedObjectives q now).objectives.get? x.objectiveId = some o →
          q.objectives.get? x.objectiveId = some o := by
    intro j x hx hrun o ho
    rw [hget, Option.map_eq_some_iff] at ho
    obtain ⟨o', ho', rfl⟩ := ho
    rw [ho', if_neg ((hcases hx hrun).2 o' ho')]
  refine ⟨⟨fun j x hx hrun o ho => ?_, fun j k x y hx hy hxr hyr hxy => ?_, fun j o ho => ?_⟩,
    fun j x o hx hrun ho => ?_, fun j p hj => ?_, fun j x hx => ?_⟩
  · exact hI.running j x (hcases hx hrun).1 hrun o (hsame hx hrun o ho)
  · exact hI.unique j k x y (hcases hx hxr).1 (hcases hy hyr).1 hxr hyr hxy
  · have hnumbers : (reconcileInterruptedObjectives q now).attemptNumbers j =
        q.attemptNumbers j := by
      simp only [Queue.attemptNumbers, reconcileInterruptedObjectives]
      exact Table.map_select_update fun k r _ => ⟨rfl, rfl⟩
    rw [hnumbers]
    rw [hget, Option.map_eq_some_iff] at ho
    obtain ⟨o', ho', rfl⟩ := ho
    have hcount : (if o'.status = .planning then o'.restarted now else o').planningAttemptCount =
        o'.planningAttemptCount ∧
          (if o'.status = .planning then o'.restarted now else o').planningMaxAttempts =
            o'.planningMaxAttempts := by
      split <;> exact ⟨rfl, rfl⟩
    rw [hcount.1, hcount.2]; exact hI.numbered j o' ho'
  · exact hI.unplanned j x o (hcases hx hrun).1 hrun (hsame hx hrun o ho)
  · rw [← Table.mem_rows_iff, hp] at hj; cases hj
  · simp only [reconcileInterruptedObjectives, Table.get?_update, Option.map_eq_some_iff] at hx
    obtain ⟨x', hx', rfl⟩ := hx
    have howned := hI.owned j x' hx'
    rw [hget, Option.isSome_map]
    split <;> exact howned

end Transactions

/-! ### Every step -/

theorem World.PlanningInv.step {h : History} {config : Config} {w : World} {a : Action}
    (hI : w.PlanningInv) (he : settlesEarly a w = false) : (w.step h config a).PlanningInv := by
  by_cases ha : a.writesAttempts = false
  · exact hI.step_kept ha he
  unfold Action.writesAttempts at ha
  split at ha
  · rename_i id i now
    simp only [World.step, World.objectiveStep]
    split
    · exact hI
    · split
      · exact hI
      · exact hI
      · rename_i q hr
        obtain ⟨row, hrow, hq, -, -, rfl⟩ := reserveAiObjective_exhausted hr
        exact hI.exhausted hrow hq now
      · rename_i q row hr
        split
        · rename_i planners hp
          exact hI.reserved hr hp
        · exact hI
  · rename_i now
    simp only [World.step, World.objectiveStep]
    split
    · exact hI
    · rename_i hp
      exact hI.restarted (not_not.1 hp) now
  · rename_i i now
    simp only [World.step]
    cases hp : w.daemon.planners.get? i with
    | none => exact hI
    | some planner =>
      obtain ⟨id, stage⟩ := planner
      cases stage with
      | generated p =>
        simp only [World.plannerStep]
        cases hs : finishObjectivePlanningSuccess w.db id i p now with
        | error e =>
          refine ⟨hI.toAttemptsMatch, hI.unplanned, fun j p' hj => ?_, hI.owned⟩
          simp only [World.setPlanner, Table.get?_updateAt] at hj
          split at hj
          · rw [Option.map_eq_some_iff] at hj
            obtain ⟨p₀, hp₀, rfl⟩ := hj
            exact hI.planner j p₀ hp₀
          · exact hI.planner j p' hj
        | ok qg =>
          obtain ⟨_, _, _, _, _, _, _, _, hobj, hatt, -⟩ := finishObjectivePlanningSuccess_ok hs
          exact hI.closed hp hobj (fun o => ⟨rfl, rfl⟩) hatt fun a =>
            ⟨rfl, rfl, by simp [ObjectiveAttempt.completed]⟩
      | generating => exact hI
      | failing e => exact hI
  · rename_i i now
    simp only [World.step]
    cases hp : w.daemon.planners.get? i with
    | none => exact hI
    | some planner =>
      obtain ⟨id, stage⟩ := planner
      cases stage with
      | failing e =>
        obtain ⟨x, hx, hid, -⟩ := hI.planner i _ hp
        obtain ⟨row, hrow⟩ := Option.isSome_iff_exists.1 (hid ▸ hI.owned i x hx)
        obtain ⟨next, heq⟩ := finishObjectivePlanningFailure_eq hrow i e
          config.planningRetryBackoffSeconds now
        simp only [World.plannerStep, heq]
        exact PlanningInv.closed hI hp rfl (fun o => ⟨rfl, rfl⟩) rfl fun a =>
          ⟨rfl, rfl, by simp [ObjectiveAttempt.failed]⟩
      | generating => exact hI
      | generated p => exact hI
  · simp at ha

theorem planningInv_start {h : History} {config : Config} {w : World}
    (hw : (machine h config).start w) : w.PlanningInv := by
  obtain ⟨projects, -, rfl⟩ := hw
  exact ⟨⟨fun _ _ h => (by cases h), fun _ _ _ _ h => (by cases h), fun _ _ h => (by cases h)⟩,
    fun _ _ _ h => (by cases h), fun _ _ h => (by cases h), fun _ _ h => (by cases h)⟩

/-! ### An early settlement breaks the match -/

/-- A second pause of an objective without a plan pauses it. -/
theorem pauseObjective_requested {d : Database} {id : ObjectiveId} {o : Objective} (now : Time)
    (ho : d.queue.objectives.get? id = some o) (hs : o.status = .pauseRequested)
    (hp : o.planId = none) :
    ∃ q o', pauseObjective d id now = .ok q ∧ q.objectives.get? id = some o' ∧
      o'.status = .paused := by
  simp [pauseObjective, ho, hs, hp, runningTaskCount, ObjectiveStatus.isTerminal,
    Objective.pausedAs]

/-- A cancel after the request cancels it. -/
theorem cancelObjective_requested {d : Database} {id : ObjectiveId} {o : Objective} (now : Time)
    (ho : d.queue.objectives.get? id = some o)
    (hs : o.status = .pauseRequested ∨ o.status = .cancelRequested) (hp : o.planId = none) :
    ∃ qg o', cancelObjective d id now = .ok qg ∧ qg.1.objectives.get? id = some o' ∧
      o'.status = .cancelled := by
  rcases hs with hs | hs <;>
    simp [cancelObjective, ho, hs, hp, cancelledStatus, runningTaskCount, activeRunCount,
      integrationPointOfNoReturn, ObjectiveStatus.isTerminal, Objective.cancelledAs]

/-- The sweep settles either request. -/
theorem synchronizeObjectiveStates_requested {d : Database} {id : ObjectiveId} {o : Objective}
    (now : Time) (ho : d.queue.objectives.get? id = some o)
    (hs : o.status = .pauseRequested ∨ o.status = .cancelRequested) (hp : o.planId = none) :
    ∃ o', (synchronizeObjectiveStates d now).1.objectives.get? id = some o' ∧
      o'.status.isPlanning = false := by
  rw [(synchronizeObjectiveStates_spec d now).1, ho]
  rcases hs with hs | hs <;>
    simp [hs, hp, ObjectiveStatus.isTerminal, Objective.swept, synchronizedStatus, runningTaskCount,
      cancellationCleanupPending, Objective.synchronize, ObjectiveStatus.isPlanning]

theorem settled_of_command (config : Config) {w : World} {id : ObjectiveId} {o : Objective}
    {c : ObjectiveCommand} (now : Time) (ho : w.db.queue.objectives.get? id = some o)
    (hp : o.planId = none)
    (hc : (match c with
      | .pause => decide (o.status = .pauseRequested)
      | .cancel => decide (o.status = .pauseRequested ∨ o.status = .cancelRequested)
      | .resume => false) = true) :
    ∃ o', (w.objectiveStep config (.cli id c now)).db.queue.objectives.get? id = some o' ∧
      o'.status.isPlanning = false := by
  rw [World.objectiveStep_cli]
  cases c with
  | pause =>
    obtain ⟨q, o', hq, ho', hst⟩ := pauseObjective_requested now ho (of_decide_eq_true hc) hp
    exact ⟨o', by simp [ObjectiveCommand.apply, hq, Except.map, ho'], by rw [hst]; rfl⟩
  | cancel =>
    obtain ⟨q, o', hq, ho', hst⟩ := cancelObjective_requested now ho (of_decide_eq_true hc) hp
    exact ⟨o', by simp [ObjectiveCommand.apply, hq, ho'], by rw [hst]; rfl⟩
  | resume => cases hc

/-- An early settlement leaves a running attempt on an objective that is paused or cancelled. -/
theorem not_attemptsMatch_of_early (h : History) (config : Config) {w : World} {a : Action}
    (hI : w.PlanningInv) (he : settlesEarly a w = true) :
    ¬AttemptsMatch (w.step h config a).db.queue := by
  intro hm
  have hwrites : a.writesAttempts = false := by
    unfold settlesEarly at he
    split at he
    all_goals first | rfl | cases he
  -- a running attempt whose objective the step takes out of planning
  have stuck : ∀ id o, w.db.queue.planningInFlight id = true →
      w.db.queue.objectives.get? id = some o →
      ¬(o.planId = none → ∃ o', (w.step h config a).db.queue.objectives.get? id = some o' ∧
        o'.status.isPlanning = false) := by
    intro id o hin ho hstep
    obtain ⟨i, x, hx, hxr⟩ := Table.any_iff.1 hin
    obtain ⟨rfl, hrun⟩ := of_decide_eq_true hxr
    obtain ⟨o', ho', hst⟩ := hstep (hI.unplanned i x o hx hrun ho)
    obtain ⟨x', hx', hid, hxst⟩ := (attempts_kept h config w hwrites).forth i x hx
    have := hm.running i x' hx' (hxst ▸ hrun) o' (by rw [hid]; exact ho')
    rw [hst] at this; cases this
  unfold settlesEarly at he
  split at he
  · rename_i id c now
    rw [Bool.and_eq_true, Option.any_eq_true] at he
    obtain ⟨hin, o, ho, hc⟩ := he
    exact stuck id o hin ho fun hp => settled_of_command config now ho hp hc
  · rename_i id c now
    rw [Bool.and_eq_true, Option.any_eq_true] at he
    obtain ⟨hin, o, ho, hc⟩ := he
    refine stuck id o hin ho fun hp => ?_
    simp only [World.step, World.objectiveStep_controller]
    exact settled_of_command config now ho hp hc
  · rename_i now
    obtain ⟨id, o, ho, hc⟩ := Table.any_iff.1 he
    rw [Bool.and_eq_true, decide_eq_true_eq] at hc
    exact stuck id o hc.1 ho fun hp => synchronizeObjectiveStates_requested now ho hc.2 hp
  · cases he

/-! ### Runs -/

/-- A run keeps the attempts matched exactly when nothing in it settles a request early. -/
theorem planning_attempts_match (h : History) (config : Config) {w : World}
    (hw : (machine h config).start w) (as : List Action) :
    (machine h config).Along (fun a w => AttemptsMatch (w.step h config a).db.queue) w as ↔
      (machine h config).Along (fun a w => settlesEarly a w = false) w as := by
  have hI := planningInv_start hw
  clear hw
  induction as generalizing w with
  | nil => exact Iff.rfl
  | cons a as ih =>
    by_cases he : settlesEarly a w = false
    · have hstep : (w.step h config a).PlanningInv := hI.step he
      exact and_congr (iff_of_true hstep.toAttemptsMatch he) (ih hstep)
    · refine iff_of_false (fun hm => ?_) fun hm => he hm.1
      exact not_attemptsMatch_of_early h config hI (by simpa using he) hm.1

/-- A planner that is asked to pause and returns its plan. -/
def pausedPlanning : List Action :=
  [ .objective (.submit 0 Scenario.submission 1),
    .objective (.reserve 0 0 2),
    .objective (.cli 0 .pause 3),
    .planner 0 (.insert Scenario.pipelinePlan 0 0 4),
    .planner 0 (.success 5) ]

theorem planning_attempts_match_paused :
    Scenario.system.Along
      (fun a w => AttemptsMatch (w.step Scenario.history Scenario.config a).db.queue)
      Scenario.start pausedPlanning :=
  (planning_attempts_match Scenario.history Scenario.config Scenario.system_start _).2 (by decide)

/-- The sweep pauses an objective while its planner is still out. -/
theorem sweep_settles_pause_early :
    ¬∀ (h : History) (config : Config) (w : World) (as : List Action),
      (machine h config).start w → (machine h config).Along
        (fun a w => AttemptsMatch (w.step h config a).db.queue) w as := by
  intro hall
  obtain ⟨-, -, -, hm, -⟩ := hall Scenario.history Scenario.config Scenario.start
    (pausedPlanning.take 3 ++ [.objective (.synchronize 4)]) Scenario.system_start
  have hrun : ∃ a, (Scenario.system.run Scenario.start
      (pausedPlanning.take 3 ++ [.objective (.synchronize 4)])).db.queue.attempts.get? 0 = some a ∧
        a.status = .running ∧ a.objectiveId = 0 := ⟨_, rfl, rfl, rfl⟩
  obtain ⟨a, ha, hr, hid⟩ := hrun
  have := hm.running 0 a ha hr _ (by rw [hid]; rfl)
  cases this

end HermesOps
