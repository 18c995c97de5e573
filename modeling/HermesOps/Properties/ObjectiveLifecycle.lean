import HermesOps.Properties.ExactlyOnce

/-! One objective lifecycle in two programs. The Controller repeats the command line's queries and
    writes in its own transaction; each of its queries is shown to agree with the one of the command
    line, and then each branch of the command with its transaction. What is left are the Controller's
    own conditions on the request, and the event it records. -/

namespace HermesOps.Controller

open Schemes

/-! ### The repeated queries -/

theorem runningTaskCount_eq (d : Database) (p : Option PlanId) :
    runningTaskCount d p = HermesOps.runningTaskCount d.graph p := by
  cases p <;> rfl

theorem mem_planRuns {d : Database} {p : PlanId} {r : RunId} {run : Run} :
    (r, run) ∈ planRuns d p ↔ r ∈ d.graph.linkedRuns p ∧ d.store.runs.get? r = some run := by
  simp only [planRuns, List.mem_filterMap, Graph.mem_linkedRuns, Prod.exists, Table.mem_rows_iff,
    Option.bind_eq_bind, Option.bind_eq_some_iff]
  constructor
  · rintro ⟨i, a, ha, t, ht, r', hr', run', hrun', h⟩
    split at h
    · rename_i hp; cases h; exact ⟨⟨i, a, t, ha, ht, hp, hr'⟩, hrun'⟩
    · cases h
  · rintro ⟨⟨i, a, t, ha, ht, hp, hr⟩, hrun⟩
    exact ⟨i, a, ha, t, ht, r, hr, run, hrun, by rw [if_pos hp]⟩

theorem integrationPointOfNoReturn_eq (d : Database) (p : Option PlanId) :
    integrationPointOfNoReturn d p = HermesOps.integrationPointOfNoReturn d p := by
  cases p with
  | none => rfl
  | some p =>
    rw [Bool.eq_iff_iff]
    simp only [integrationPointOfNoReturn, HermesOps.integrationPointOfNoReturn, List.any_eq_true,
      Prod.exists, mem_planRuns]
    constructor
    · rintro ⟨r, run, ⟨hr, hrun⟩, h⟩
      refine ⟨r, hr, ?_⟩
      simp only [hrun, Store.hasApprovedIntegration]
      simpa [or_assoc] using h
    · rintro ⟨r, hr, h⟩
      cases hrun : d.store.runs.get? r with
      | none => simp only [hrun] at h; cases h
      | some run =>
        simp only [hrun, Store.hasApprovedIntegration] at h
        refine ⟨r, run, ⟨hr, hrun⟩, ?_⟩
        simpa [or_assoc] using h

theorem activeRunCount_eq (d : Database) (p : Option PlanId) :
    activeRunCount d p = HermesOps.activeRunCount d p := by
  cases p with
  | none => rfl
  | some p =>
    refine ((List.perm_ext_iff_of_nodup (List.nodup_dedup _) (List.nodup_dedup _)).2
      fun r => ?_).length_eq
    simp only [List.mem_dedup, List.mem_map, List.mem_filter, Prod.exists, mem_planRuns]
    constructor
    · rintro ⟨r', run, ⟨⟨hr, hrun⟩, hs⟩, rfl⟩
      refine ⟨hr, ?_⟩
      simp only [hrun]
      revert hs
      cases run.status <;> decide
    · rintro ⟨hr, h⟩
      cases hrun : d.store.runs.get? r with
      | none => simp only [hrun] at h; cases h
      | some run =>
        simp only [hrun] at h
        refine ⟨r, run, ⟨⟨hr, hrun⟩, ?_⟩, rfl⟩
        revert h
        cases run.status <;> decide

theorem resumedStatusForPlan_eq (s : Option PlanStatus) :
    resumedStatusForPlan s = HermesOps.resumedStatusForPlan s := by
  rcases s with _ | s
  · rfl
  · cases s <;> rfl

theorem cancelPlan_eq (g : Graph) (now : Time) (p : Option PlanId) :
    cancelPlan g now p = cancelPlanInTransaction g p now := by
  cases p with
  | none => rfl
  | some p =>
    have ht : (fun (_ : TaskId) (t : Task) => decide (t.planId = p ∧
        t.status ∈ [TaskStatus.pending, .ready, .blocked])) =
        fun _ t => decide (t.planId = p ∧ t.status.isWaiting) := by
      funext i t
      cases t.status <;> simp [TaskStatus.isWaiting]
    have hp : (fun (q : PlanId) (x : Plan) => decide (q = p ∧
        x.status ∉ [PlanStatus.completed, .failed, .cancelled])) =
        fun q x => decide (q = p ∧ ¬x.status.isTerminal) := by
      funext q x
      cases x.status <;> simp [PlanStatus.isTerminal]
    simp only [cancelPlan, cancelPlanInTransaction, ht, hp]
    rfl

theorem isTerminal_eq (s : ObjectiveStatus) : isTerminal s = s.isTerminal := by cases s <;> rfl

theorem linkedPlanError_eq (s : ObjectiveStatus) :
    (if s = .failed then some "linked orchestration plan failed"
      else if s = .cancelled then some "linked orchestration plan cancelled" else none) =
      linkedPlanError s := by cases s <;> rfl

/-! ### The event of a changed status -/

def stateEvents : List String :=
  [ "OBJECTIVE_PAUSE_REQUESTED", "OBJECTIVE_PAUSED", "OBJECTIVE_RESUMED",
    "OBJECTIVE_CANCEL_REQUESTED", "OBJECTIVE_CANCELLED" ]

def objectiveStatuses : List ObjectiveStatus :=
  [ .queued, .planning, .running, .pauseRequested, .paused, .cancelRequested, .completed, .failed,
    .cancelled ]

theorem mem_objectiveStatuses (s : ObjectiveStatus) : s ∈ objectiveStatuses := by cases s <;> decide

/-- The words that the data of these events consists of. -/
def eventWords : List String := (objectiveStatuses.map statusText ++ stateEvents).map lower

def eventKeys : List String := ["previous_state", "reason_code", "reason_present", "state"]

theorem isDataString_word {rules : TextRules} {word : String} (hword : word ∈ eventWords)
    (h : rules.forbiddenValue word = false) : isDataString rules word = true := by
  have hshape : ∀ w ∈ eventWords, w.length ≤ maxEventStringLength ∧
      w.toList.all fun ch => 32 ≤ ch.toNat ∨ ch.toNat = 9 ∨ ch.toNat = 10 ∨ ch.toNat = 13 := by
    decide
  obtain ⟨hlen, hprint⟩ := hshape word hword
  exact decide_eq_true ⟨hlen, hprint, by rw [h]; decide⟩

theorem isDataKey_key {rules : TextRules} {key : String} (hkey : key ∈ eventKeys)
    (h : rules.keyIsSensitive key = false) : isDataKey rules key = true := by
  have hshape : ∀ k ∈ eventKeys, k ≠ "" ∧ k.length ≤ 128 ∧ ¬hasControl k := by decide
  obtain ⟨hne, hlen, hcontrol⟩ := hshape key hkey
  exact decide_eq_true ⟨hne, hlen, by rw [h]; decide, hcontrol⟩

theorem quote_word_size {word : String} (hword : word ∈ eventWords) :
    (quote word).utf8ByteSize ≤ 40 := by
  have hsize : ∀ w ∈ eventWords, (quote w).utf8ByteSize ≤ 40 := by decide
  exact hsize word hword

/-- Data of three words and a flag is accepted. -/
theorem validateData_words {rules : TextRules} {old reason new : String} {present : Bool}
    (hkeys : ∀ k ∈ eventKeys, rules.keyIsSensitive k = false)
    (hwords : ∀ w ∈ eventWords, rules.forbiddenValue w = false) (hold : old ∈ eventWords)
    (hreason : reason ∈ eventWords) (hnew : new ∈ eventWords) :
    validateData rules (.obj [("previous_state", .str old), ("reason_code", .str reason),
      ("reason_present", .bool present), ("state", .str new)]) = true := by
  have key : ∀ k ∈ eventKeys, isDataKey rules k = true := fun k hk => isDataKey_key hk (hkeys k hk)
  have word : ∀ w ∈ eventWords, isDataString rules w = true :=
    fun w hw => isDataString_word hw (hwords w hw)
  have hvisit : (visit rules 0 0 (.obj [("previous_state", .str old), ("reason_code", .str reason),
      ("reason_present", .bool present), ("state", .str new)])).isSome = true := by
    simp [visit, visitMembers, key "previous_state" (by decide), key "reason_code" (by decide),
      key "reason_present" (by decide), key "state" (by decide), word, hold, hreason, hnew,
      maxEventNodes, maxEventDepth]
  have hbool : (canonicalJson (.bool present)).utf8ByteSize ≤ 5 := by cases present <;> decide
  have hjoin (x y z u : String) : ",".intercalate [x, y, z, u] =
      x ++ "," ++ y ++ "," ++ z ++ "," ++ u := rfl
  have hstr (s : String) : canonicalJson (.str s) = quote s := by rw [canonicalJson]
  have h₁ : (quote "previous_state").utf8ByteSize = 16 := by decide
  have h₂ : (quote "reason_code").utf8ByteSize = 13 := by decide
  have h₃ : (quote "reason_present").utf8ByteSize = 16 := by decide
  have h₄ : (quote "state").utf8ByteSize = 7 := by decide
  have h₅ : ":".utf8ByteSize = 1 ∧ ",".utf8ByteSize = 1 ∧ "\x7b".utf8ByteSize = 1 ∧
      "\x7d".utf8ByteSize = 1 := by decide
  have := quote_word_size hold
  have := quote_word_size hreason
  have := quote_word_size hnew
  simp only [validateData, hvisit, Bool.true_and, decide_eq_true_eq]
  rw [canonicalJson, canonicalMembers, canonicalMembers, canonicalMembers, canonicalMembers,
    canonicalMembers, hjoin]
  simp only [hstr, String.utf8ByteSize_append, h₁, h₂, h₃, h₄, h₅, maxEventDataBytes]
  omega

/-- The event of a changed status can be recorded: the identifiers are fresh and drawn as the store
    draws them, the clock prints valid timestamps, the texts are not taken for secrets, and the
    project scope is what a submission stores. -/
structure EventReady (c : Surroundings) (t : CommandTables) (d : Draws) (objectiveId : String)
    (row : Objective) : Prop where
  scope : row.projectScope ≠ [] ∧ row.projectScope.Nodup
  objective : isObjectiveId objectiveId = true
  operation : isUuidHex d.operationHex = true
  correlation : isUuidHex (c.digest ("operation-" ++ d.operationHex)) = true
  eventId : isUuidHex d.journalHex = true
  unused : ∀ x ∈ t.journal.rows, x.eventId ≠ "evt_" ++ d.journalHex
  fresh : t.objectiveEvents.get? ("objective-event-" ++ d.eventHex) = none
  project : ∀ p ∈ row.projectScope, isText (c.projectText p) = true
  time : c.rules.isTimestamp (c.timeText d.now) = true ∧
    c.rules.timestampGuard (c.timeText d.now) = true
  keys : ∀ k ∈ eventKeys, c.rules.keyIsSensitive k = false
  words : ∀ w ∈ eventWords, c.rules.forbiddenValue w = false
  space : t.journal.lastSequence + 1 < 2 ^ 63

variable {c : Surroundings} {t : CommandTables} {r : Request} {objectiveId : String} {row : Objective}

theorem isOptionalText_single {scope : List ProjectId}
    (h : ∀ p ∈ scope, isText (c.projectText p) = true) :
    isOptionalText (single (scope.map c.projectText)) = true := by
  match scope, h with
  | [], _ => rfl
  | [p], h => exact h p (List.mem_singleton_self p)
  | _ :: _ :: _, _ => rfl

theorem status_mem_words (s : ObjectiveStatus) : lower (statusText s) ∈ eventWords :=
  List.mem_map_of_mem (List.mem_append_left _ (List.mem_map_of_mem (mem_objectiveStatuses s)))

theorem event_mem_words {eventType : String} (h : eventType ∈ stateEvents) :
    lower eventType ∈ eventWords := List.mem_map_of_mem (List.mem_append_right _ h)

/-- The journal takes the event. -/
theorem emit_stateEvent (h : EventReady c t r.draws objectiveId row) {eventType : String}
    (htype : eventType ∈ stateEvents) (new : ObjectiveStatus) (reason : Bool) :
    ∃ journal envelope, t.journal.emit c.rules (journalEvent c objectiveId eventType
      (some (statusText row.status)) (some (statusText new)) ("operation-" ++ r.draws.operationHex)
      (single (row.projectScope.map c.projectText)) [("reason_present", .bool reason)] r.draws) =
        .ok (journal, envelope) := by
  have hoperation : isText ("operation-" ++ r.draws.operationHex) = true :=
    isText_of_prefixedHex "operation-" (by decide) (by decide) (isPrefixedHex_append h.operation)
  have hobjective : isText objectiveId = true :=
    isText_of_prefixedHex "objective-" (by decide) (by decide) h.objective
  have hcorrelation : isCorrelationId ("corr_" ++ c.digest ("operation-" ++ r.draws.operationHex)) =
      true := isPrefixedHex_append h.correlation
  have heventId : isEventId ("evt_" ++ r.draws.journalHex) = true := isPrefixedHex_append h.eventId
  have hproject := isOptionalText_single h.project
  have hfixed : isEventType "objective.state_changed" = true ∧ "operator" ∈ actorTypes ∧
      "objective" ∈ aggregateTypes ∧ isText "operator:local-controller-session" = true := by decide
  refine emit_accepts (decide_eq_true ⟨hfixed.1, hfixed.2.1, hfixed.2.2.1, hfixed.2.2.2, hobjective,
    hproject, hobjective, hoperation, hcorrelation, heventId, h.time.1⟩) ?_ (by decide : 3 ≤
      "objective.state_changed".length ∧ "objective.state_changed".length ≤ 128) h.time.2 ?_ h.space
  · exact validateData_words h.keys h.words (status_mem_words _) (event_mem_words htype)
      (status_mem_words _)
  · exact h.unused

/-! ### The branches of the command -/

theorem run_query_none {α : Type} {f : CommandTables → α} {t : CommandTables} :
    query f ⟨t, none⟩ = (.ok (f t), ⟨t, none⟩) := rfl

theorem run_execute_none {f : CommandTables → Option CommandTables} {t t' : CommandTables}
    (h : f t = some t') : execute f ⟨t, none⟩ = (.ok (), ⟨t', none⟩) := by
  rw [execute, Txn.run_statement, h]

theorem singleProjectId_ok (h : EventReady c t r.draws objectiveId row) :
    singleProjectId c row.projectScope = .ok (single (row.projectScope.map c.projectText)) :=
  if_neg (not_or.2 ⟨h.scope.1, not_not.2 h.scope.2⟩)

/-- Tables that differ from the first ones in the database only. -/
def withDatabase (t : CommandTables) (d : Database) : CommandTables := { t with database := d }

/-- The event is recorded, and nothing else changes. -/
theorem addStateEvent_run (h : EventReady c t r.draws objectiveId row) {eventType : String}
    (htype : eventType ∈ stateEvents) (new : ObjectiveStatus) (reason : Bool) (d : Database) :
    ∃ objectiveEvents journal, addStateEvent c r objectiveId eventType row new reason
      ⟨withDatabase t d, none⟩ =
        (.ok (), ⟨{ withDatabase t d with objectiveEvents, journal }, none⟩) := by
  obtain ⟨objectiveEvents, hevents⟩ := Table.insert_of_get?_eq_none h.fresh
    { objectiveId := c.objectiveId objectiveId, eventType, oldStatus := some (statusText row.status),
      newStatus := some (statusText new), payloadJson := .obj [("reason_present", .bool reason)],
      createdAt := r.draws.now }
  obtain ⟨journal, envelope, hemit⟩ := emit_stateEvent h htype new reason
  refine ⟨objectiveEvents, journal, ?_⟩
  have hscope := singleProjectId_ok h
  simp only [addStateEvent, checked, hscope, Txn.run_bind, Txn.lift, Except.mapError, addEvent]
  rw [@run_execute_none _ (withDatabase t d) { withDatabase t d with objectiveEvents }
    (by simp only [withDatabase, hevents, Option.map_some])]
  simp only [Txn.run_statement, withDatabase, hemit]

/-- The database with the objective's row rewritten. -/
def objectiveUpdated (d : Database) (id : ObjectiveId) (f : Objective → Objective) : Database :=
  { d with queue := { d.queue with objectives := d.queue.objectives.updateAt id f } }

/-- A branch ends as the command line's transaction does: both refuse and nothing is written, or both
    leave the same queue and graph. -/
def SameEnd (t : CommandTables) (cli : Except Refusal (Queue × Graph))
    (controller : Except Failure ObjectiveStatus × Work CommandTables) : Prop :=
  match cli, controller.1 with
  | .error _, .error _ => controller.2 = ⟨t, none⟩
  | .ok qg, .ok _ => ∃ objectiveEvents journal, controller.2 =
      ⟨{ withDatabase t { t.database with queue := qg.1, graph := qg.2 } with
        objectiveEvents, journal }, none⟩
  | _, _ => False

/-- An accepted branch writes the row and records the event. -/
theorem sameEnd_of_event (h : EventReady c t r.draws objectiveId row) {eventType : String}
    (htype : eventType ∈ stateEvents) (new : ObjectiveStatus) (reason : Bool) {d : Database}
    {qg : Queue × Graph} (hd : d = { t.database with queue := qg.1, graph := qg.2 }) :
    SameEnd t (.ok qg) ((do
      addStateEvent c r objectiveId eventType row new reason
      return new : Command ObjectiveStatus) ⟨withDatabase t d, none⟩) := by
  obtain ⟨objectiveEvents, journal, hrun⟩ := addStateEvent_run h htype new reason d
  rw [Txn.run_bind, hrun]
  subst hd
  exact ⟨objectiveEvents, journal, rfl⟩

theorem pauseCommand_end (h : EventReady c t r.draws objectiveId row)
    (hrow : t.database.queue.objectives.get? (c.objectiveId objectiveId) = some row) (reason : Bool) :
    SameEnd t (ObjectiveCommand.pause.apply t.database (c.objectiveId objectiveId) r.draws.now)
      (pauseCommand c r objectiveId row reason ⟨t, none⟩) := by
  simp only [ObjectiveCommand.apply, pauseObjective, hrow, pauseCommand]
  by_cases hcancel : row.status = .cancelRequested
  · simp only [if_pos hcancel]; rfl
  simp only [if_neg hcancel]
  by_cases hterminal : row.status.isTerminal = true
  · simp only [isTerminal_eq, if_pos hterminal]; rfl
  simp only [isTerminal_eq, if_neg hterminal]
  by_cases hpaused : row.status = .paused
  · simp only [if_pos hpaused]
    exact ⟨t.objectiveEvents, t.journal, rfl⟩
  simp only [if_neg hpaused]
  have hevent : ∀ new : ObjectiveStatus, (if new = .pauseRequested then "OBJECTIVE_PAUSE_REQUESTED"
      else "OBJECTIVE_PAUSED") ∈ stateEvents := by
    intro new
    split <;> decide
  rw [Txn.run_bind_of_ok run_query_none, runningTaskCount_eq]
  exact sameEnd_of_event h (hevent _) _ reason rfl

/-- The status of the linked plan is read unless the plan is gone. -/
theorem selectPlanStatus_run (t : CommandTables) (p : Option PlanId) :
    (p.isSome = true ∧ t.database.graph.planStatus p = none) ∧
        (∃ e, selectPlanStatus p ⟨t, none⟩ = (.error e, ⟨t, none⟩)) ∨
      ¬(p.isSome = true ∧ t.database.graph.planStatus p = none) ∧
        selectPlanStatus p ⟨t, none⟩ = (.ok (t.database.graph.planStatus p), ⟨t, none⟩) := by
  cases p with
  | none => exact .inr ⟨by simp, rfl⟩
  | some p =>
    simp only [selectPlanStatus, Txn.run_bind, run_query_none, Graph.planStatus, Option.bind_some]
    cases t.database.graph.plans.get? p with
    | none => exact .inl ⟨⟨rfl, rfl⟩, _, rfl⟩
    | some plan => exact .inr ⟨by simp, rfl⟩

theorem resumeCommand_end (h : EventReady c t r.draws objectiveId row)
    (hrow : t.database.queue.objectives.get? (c.objectiveId objectiveId) = some row) (reason : Bool) :
    SameEnd t (ObjectiveCommand.resume.apply t.database (c.objectiveId objectiveId) r.draws.now)
      (resumeCommand c r objectiveId row reason ⟨t, none⟩) := by
  simp only [ObjectiveCommand.apply, resumeObjective, hrow, resumeCommand]
  by_cases hpaused : row.status ≠ .paused
  · simp only [if_pos hpaused]; rfl
  simp only [if_neg hpaused]
  rcases selectPlanStatus_run t row.planId with ⟨hgone, e, hselect⟩ | ⟨hthere, hselect⟩
  · rw [if_pos hgone, Txn.run_bind_of_error hselect]; rfl
  · rw [if_neg hthere, Txn.run_bind_of_ok hselect]
    simp only [resumedStatusForPlan_eq, isTerminal_eq, linkedPlanError_eq]
    exact sameEnd_of_event h (by decide) _ reason rfl

theorem cancelPlanWhen_run (test : Bool) (p : Option PlanId) (now : Time) :
    cancelPlanWhen test p now ⟨t, none⟩ = (.ok (), ⟨withDatabase t { t.database with
      graph := if test then cancelPlan t.database.graph now p else t.database.graph }, none⟩) := by
  cases test <;> rfl

theorem cancelCommand_end (h : EventReady c t r.draws objectiveId row)
    (hrow : t.database.queue.objectives.get? (c.objectiveId objectiveId) = some row) (reason : Bool) :
    SameEnd t (ObjectiveCommand.cancel.apply t.database (c.objectiveId objectiveId) r.draws.now)
      (cancelCommand c r objectiveId row reason ⟨t, none⟩) := by
  simp only [ObjectiveCommand.apply, cancelObjective, hrow, cancelCommand]
  by_cases hterminal : row.status.isTerminal = true
  · simp only [isTerminal_eq, if_pos hterminal]; rfl
  simp only [isTerminal_eq, if_neg hterminal]
  rw [Txn.run_bind_of_ok run_query_none, integrationPointOfNoReturn_eq]
  by_cases hcommitted : HermesOps.integrationPointOfNoReturn t.database row.planId = true
  · simp only [if_pos hcommitted]; rfl
  simp only [if_neg hcommitted]
  have hevent : ∀ new : ObjectiveStatus, (if new = .cancelRequested then
      "OBJECTIVE_CANCEL_REQUESTED" else "OBJECTIVE_CANCELLED") ∈ stateEvents := by
    intro new
    split <;> decide
  rw [Txn.run_bind_of_ok run_query_none, Txn.run_bind_of_ok run_query_none, runningTaskCount_eq,
    activeRunCount_eq]
  have hstatus : (if row.status = .planning ∨
      HermesOps.runningTaskCount t.database.graph row.planId ≠ 0 ∨
        HermesOps.activeRunCount t.database row.planId ≠ 0 then ObjectiveStatus.cancelRequested
      else .cancelled) = cancelledStatus t.database row := rfl
  simp only [hstatus]
  rw [Txn.run_bind_of_ok (cancelPlanWhen_run _ _ _), cancelPlan_eq]
  exact sameEnd_of_event h (hevent _) _ reason (by simp only [decide_eq_true_eq]; rfl)

theorem runCommand_end (h : EventReady c t r.draws objectiveId row)
    (hrow : t.database.queue.objectives.get? (c.objectiveId objectiveId) = some row) (reason : Bool)
    (command : ObjectiveCommand) :
    SameEnd t (command.apply t.database (c.objectiveId objectiveId) r.draws.now)
      (runCommand c r objectiveId row reason command ⟨t, none⟩) := by
  cases command with
  | pause => exact pauseCommand_end h hrow reason
  | resume => exact resumeCommand_end h hrow reason
  | cancel => exact cancelCommand_end h hrow reason

/-! ### The whole request -/

/-- The last segment of a command's route. -/
def commandText : ObjectiveCommand → String
  | .pause => "pause"
  | .resume => "resume"
  | .cancel => "cancel"

theorem commandOf_commandText (command : ObjectiveCommand) :
    commandOf (commandText command) = some command := by cases command <;> rfl

/-- The request reaches the command, and its rows can be written: a valid and unused key, a valid body,
    fresh random identifiers, and an event the journal takes. -/
structure Admitted (c : Surroundings) (t : CommandTables) (r : Request) (objectiveId : String) :
    Prop where
  key : ∃ key, validateIdempotencyKey r.key = .ok key ∧
    t.idempotency.get? (tableKey c r key) = none
  session : isAscii r.session = true
  objective : isObjectiveId objectiveId = true
  body : ∃ reason, validateCommandBody r.body = .ok reason
  metadata : r.draws.metadata.isSome = true
  connection : r.draws.failsAfter = none
  operation : t.operations.get? ("operation-" ++ r.draws.operationHex) = none
  unaudited : ∀ k a, t.audit.get? k = some a → a.operationId ≠ "operation-" ++ r.draws.operationHex
  audit : t.audit.get? ("audit-" ++ r.draws.auditHex) = none
  event : ∀ row, t.database.queue.objectives.get? (c.objectiveId objectiveId) = some row →
    EventReady c t r.draws objectiveId row

/-- A part of the admission that the reservation of the key does not touch. -/
theorem EventReady.reserved (h : EventReady c t r.draws objectiveId row)
    (idempotency : Table (String × String) IdempotencyRow) :
    EventReady c { t with idempotency } r.draws objectiveId row :=
  ⟨h.scope, h.objective, h.operation, h.correlation, h.eventId, h.unused, h.fresh, h.project, h.time,
    h.keys, h.words, h.space⟩

/-- The operation and the audit row are written, whatever the branch has changed besides. -/
theorem concludeCommand_run (h : Admitted c t r objectiveId) (t' : CommandTables)
    (hoperations : t'.operations = t.operations) (haudit : t'.audit = t.audit) (kind : String)
    (result : Json) (keys : Keys) :
    ∃ a operations audit, concludeCommand c kind objectiveId result keys r.draws ⟨t', none⟩ =
      (.ok a, ⟨{ t' with operations, audit }, none⟩) := by
  obtain ⟨metadata, hmeta⟩ := Option.isSome_iff_exists.1 h.metadata
  obtain ⟨operations, hoperation⟩ := Table.insert_of_get?_eq_none (hoperations ▸ h.operation)
    { commandKind := kind, state := "SUCCEEDED", targetType := "objective", targetId := objectiveId,
      resultJson := result, errorCode := none, createdAt := r.draws.now, updatedAt := r.draws.now,
      finishedAt := some r.draws.now }
  obtain ⟨audited, hinsert⟩ := Table.insert_of_get?_eq_none (haudit ▸ h.audit)
    { operationId := "operation-" ++ r.draws.operationHex, actorType := "session",
      actorId := "local-controller-session", action := kind, resourceType := "objective",
      resourceId := objectiveId, sessionFingerprint := keys.sessionFp,
      idempotencyKeyHash := keys.keyHash, requestHash := keys.requestHash, outcome := "SUCCEEDED",
      createdAt := r.draws.now }
  have hunaudited : (t'.audit.any fun _ a => a.operationId = "operation-" ++ r.draws.operationHex) =
      false := by
    rw [haudit]
    exact Table.any_eq_false_iff.2 fun k a ha => decide_eq_false (h.unaudited k a ha)
  have hrecorded : recordOperation c ("operation-" ++ r.draws.operationHex) kind objectiveId result
      r.draws.now ⟨t', none⟩ = (.ok (operationPayload ("operation-" ++ r.draws.operationHex) kind
        objectiveId "succeeded" (c.timeText r.draws.now) result), ⟨{ t' with operations }, none⟩) := by
    rw [recordOperation, Txn.run_bind_of_ok (run_execute_none (by rw [hoperation]; rfl))]
    rfl
  have haudited : Controller.audit ("audit-" ++ r.draws.auditHex)
      ("operation-" ++ r.draws.operationHex) kind objectiveId keys r.draws.now
      ⟨{ t' with operations }, none⟩ = (.ok (), ⟨{ t' with operations, audit := audited }, none⟩) := by
    refine run_execute_none ?_
    simp only [hunaudited, hinsert, Bool.false_eq_true, if_false, Option.map_some]
  refine ⟨(.obj [("data", operationPayload ("operation-" ++ r.draws.operationHex) kind objectiveId
    "succeeded" (c.timeText r.draws.now) result), ("meta", metadata)],
      some ("operation-" ++ r.draws.operationHex)), operations, audited, ?_⟩
  unfold concludeCommand
  rw [Txn.run_bind_of_ok hrecorded, Txn.run_bind_of_ok haudited]
  simp only [hmeta]
  rfl

/-- The body of the request ends as the command line's transaction does. -/
theorem commandBody_end (h : Admitted c t r objectiveId) (command : ObjectiveCommand) (keys : Keys)
    (idempotency : Table (String × String) IdempotencyRow) :
    match command.apply t.database (c.objectiveId objectiveId) r.draws.now,
      commandBody c r objectiveId (commandText command) keys ⟨{ t with idempotency }, none⟩ with
    | .error _, (.error _, _) => True
    | .ok qg, (.ok _, w) => w.left = none ∧
      w.state.database = { t.database with queue := qg.1, graph := qg.2 }
    | _, _ => False := by
  obtain ⟨reason, hreason⟩ := h.body
  have hensure : (Txn.ensure (isObjectiveId objectiveId) (.controller (badRequest "invalid_objective_id"
      "Invalid objective identifier")) : Command Unit) ⟨{ t with idempotency }, none⟩ =
      (.ok (), ⟨{ t with idempotency }, none⟩) := by rw [h.objective]; rfl
  have hchecked : (checked (validateCommandBody r.body) : Command Bool) ⟨{ t with idempotency }, none⟩ =
      (.ok reason, ⟨{ t with idempotency }, none⟩) := by rw [hreason]; rfl
  unfold commandBody
  rw [Txn.run_bind_of_ok hensure, commandOf_commandText]
  simp only
  rw [Txn.run_bind_of_ok hchecked, Txn.run_bind_of_ok run_query_none]
  simp only
  cases hrow : t.database.queue.objectives.get? (c.objectiveId objectiveId) with
  | none =>
    cases command <;>
      simp only [ObjectiveCommand.apply, pauseObjective, resumeObjective, cancelObjective, hrow] <;>
      trivial
  | some row =>
    simp only
    have hend := runCommand_end ((h.event row hrow).reserved idempotency) hrow reason command
    rcases hrun : runCommand c r objectiveId row reason command ⟨{ t with idempotency }, none⟩ with
      ⟨res, w⟩
    simp only [hrun] at hend
    cases hcli : command.apply t.database (c.objectiveId objectiveId) r.draws.now with
    | error e =>
      rw [hcli] at hend
      cases res with
      | error e' => rw [Txn.run_bind_of_error hrun]; trivial
      | ok new => exact hend.elim
    | ok qg =>
      rw [hcli] at hend
      cases res with
      | error e' => exact hend.elim
      | ok new =>
        obtain ⟨objectiveEvents, journal, hw⟩ := hend
        simp only at hw
        subst hw
        rw [Txn.run_bind_of_ok hrun]
        obtain ⟨a, operations, audited, hconclude⟩ := concludeCommand_run h
          { withDatabase { t with idempotency } { t.database with queue := qg.1, graph := qg.2 } with
            objectiveEvents, journal } rfl rfl ("objective." ++ commandText command)
          (.obj [("objective_id", .str objectiveId), ("raw_state", .str (statusText new))]) keys
        rw [hconclude]
        exact ⟨rfl, rfl⟩

/-- A request with an unused key: its body decides, on the tables with the key reserved. -/
theorem exactlyOnce_fresh {status : Nat} {body : Keys → Command (Json × Option String)}
    (h : Admitted c t r objectiveId) : ∃ keys idempotency,
      match body keys ⟨{ t with idempotency }, none⟩ with
      | (.error e, _) => exactlyOnce c status r body t = (.error e, t)
      | (.ok _, w) => w.left = none → ∃ a idempotency,
        exactlyOnce c status r body t = (.ok a, { w.state with idempotency }) := by
  obtain ⟨key, hkey, hunused⟩ := h.key
  obtain ⟨idempotency, hins⟩ := Table.insert_of_get?_eq_none hunused
    { method := "POST", route := r.route,
      requestHash := requestHash c r.session "POST" r.route r.body, responseStatus := none,
      responseJson := none, operationId := none, createdAt := r.draws.reservedAt, completedAt := none }
  let keys : Keys := ⟨sessionFingerprint c r.session, keyHash c r.session key,
    requestHash c r.session "POST" r.route r.body⟩
  have hreserve : replayOrReserve c r.session key "POST" r.route r.body r.draws.reservedAt
      ⟨t, none⟩ = (.ok (none, keys), ⟨{ t with idempotency }, none⟩) := by
    have hensure : (Txn.ensure (isAscii r.session) .encoding : Command Unit) ⟨t, none⟩ =
        (.ok (), ⟨t, none⟩) := by rw [h.session]; rfl
    rw [replayOrReserve, Txn.run_bind_of_ok hensure, Txn.run_bind_of_ok run_query_none]
    simp only [tableKey] at hunused hins
    simp only [hunused]
    rw [Txn.run_bind_of_ok (run_execute_none (by rw [hins]; rfl))]
    rfl
  refine ⟨keys, idempotency, ?_⟩
  rcases hbody : body keys ⟨{ t with idempotency }, none⟩ with ⟨res, w⟩
  simp only [exactlyOnce, hkey, Txn.atomically, h.connection]
  cases res with
  | error e =>
    simp only
    rw [Txn.run_bind_of_ok hreserve]
    simp only
    rw [Txn.run_bind_of_error hbody]
  | ok a =>
    obtain ⟨payload, operationId⟩ := a
    obtain ⟨state, left⟩ := w
    rintro ⟨⟩
    simp only
    rw [Txn.run_bind_of_ok hreserve]
    simp only
    rw [Txn.run_bind_of_ok hbody]
    exact ⟨_, _, rfl⟩

/-- An admitted command ends as the command line's transaction at the same time does. -/
theorem commandObjective_end (h : Admitted c t r objectiveId) (command : ObjectiveCommand) :
    match command.apply t.database (c.objectiveId objectiveId) r.draws.now,
      commandObjective c r objectiveId (commandText command) t with
    | .error _, (.error _, t') => t' = t
    | .ok qg, (.ok _, t') => t'.database = { t.database with queue := qg.1, graph := qg.2 }
    | _, _ => False := by
  obtain ⟨keys, idempotency, hfresh⟩ := @exactlyOnce_fresh c t r objectiveId 202
    (commandBody c r objectiveId (commandText command)) h
  have hbody := commandBody_end h command keys idempotency
  rcases hrun : commandBody c r objectiveId (commandText command) keys ⟨{ t with idempotency }, none⟩
    with ⟨res, w⟩
  rw [hrun] at hbody hfresh
  cases hcli : command.apply t.database (c.objectiveId objectiveId) r.draws.now with
  | error e =>
    rw [hcli] at hbody
    cases res with
    | error e' => simp only at hfresh; rw [commandObjective, hfresh]
    | ok a => exact hbody.elim
  | ok qg =>
    rw [hcli] at hbody
    cases res with
    | error e' => exact hbody.elim
    | ok a =>
      obtain ⟨hleft, hdatabase⟩ := hbody
      obtain ⟨a, idempotency, hok⟩ := hfresh hleft
      rw [commandObjective, hok]
      exact hdatabase

/-! ### What the two programs agree on -/

/-- The columns of an objective, its plan and its tasks that a command settles; times count only as
    null or not. -/
structure Lifecycle where
  status : ObjectiveStatus
  paused : Bool
  finished : Bool
  lastError : Option String
  planStatus : Option PlanStatus
  taskStatus : TaskId → Option TaskStatus

def lifecycle (d : Database) (id : ObjectiveId) : Option Lifecycle :=
  (d.queue.objectives.get? id).map fun row => {
    status := row.status
    paused := row.pausedAt.isSome
    finished := row.finishedAt.isSome
    lastError := row.lastError
    planStatus := d.graph.planStatus row.planId
    taskStatus := fun i => (d.graph.tasks.get? i).bind fun t =>
      if row.planId = some t.planId then some t.status else none }

theorem cancelPlan_planStatus_now (g : Graph) (p q : Option PlanId) (now now' : Time) :
    (cancelPlanInTransaction g p now).planStatus q =
      (cancelPlanInTransaction g p now').planStatus q := by
  cases p with
  | none => rfl
  | some p =>
    cases q with
    | none => rfl
    | some q =>
      simp only [Graph.planStatus, Option.bind_some, cancelPlan_plans]
      cases g.plans.get? q with
      | none => rfl
      | some x =>
        simp only [Option.map_some, Plan.objectiveCancelled]
        split <;> rfl

theorem cancelPlan_tasks_now (g : Graph) (p : Option PlanId) (i : TaskId) (now now' : Time) :
    ((cancelPlanInTransaction g p now).tasks.get? i).map (fun t => (t.planId, t.status)) =
      ((cancelPlanInTransaction g p now').tasks.get? i).map fun t => (t.planId, t.status) := by
  cases p with
  | none => rfl
  | some p =>
    simp only [cancelPlan_tasks]
    cases g.tasks.get? i with
    | none => rfl
    | some t =>
      simp only [Option.map_some, Task.objectiveCancelled]
      split <;> rfl

/-- The command of the command line. -/
def cliCommand : ObjectiveCommand → Database → ObjectiveId → Time → Except String (Queue × Graph)
  | .pause => commandPause
  | .resume => commandResume
  | .cancel => commandCancel

theorem cliCommand_eq (command : ObjectiveCommand) (d : Database) (id : ObjectiveId) (now : Time) :
    cliCommand command d id now = (command.apply d id now).mapError (Refusal.cliMessage id) := by
  cases command <;> rfl

/-- A written row shows the same whatever the time, when plan and tasks do. -/
theorem lifecycle_updateAt {d : Database} {g g' : Graph} {id : ObjectiveId} {f f' : Objective → Objective}
    (hf : ∀ o, (f o).status = (f' o).status ∧ (f o).pausedAt.isSome = (f' o).pausedAt.isSome ∧
      (f o).finishedAt.isSome = (f' o).finishedAt.isSome ∧ (f o).lastError = (f' o).lastError ∧
      (f o).planId = (f' o).planId)
    (hplan : ∀ p, g.planStatus p = g'.planStatus p)
    (htask : ∀ i, (g.tasks.get? i).map (fun t => (t.planId, t.status)) =
      (g'.tasks.get? i).map fun t => (t.planId, t.status)) :
    lifecycle { objectiveUpdated d id f with graph := g } id =
      lifecycle { objectiveUpdated d id f' with graph := g' } id := by
  simp only [lifecycle, objectiveUpdated, Table.get?_updateAt, if_true]
  cases d.queue.objectives.get? id with
  | none => rfl
  | some o =>
    obtain ⟨hs, hp, hfin, he, hl⟩ := hf o
    simp only [Option.map_some, hs, hp, hfin, he, hl, hplan, Option.some.injEq, Lifecycle.mk.injEq,
      true_and]
    funext i
    have hi := htask i
    cases hg : g.tasks.get? i <;> cases hg' : g'.tasks.get? i <;>
      simp only [hg, hg', Option.map_none, Option.map_some, reduceCtorEq, Option.some.injEq,
        Prod.mk.injEq] at hi
    · rfl
    · simp only [Option.bind_some, hi.1, hi.2]

/-- The time of a command does not matter for what it settles. -/
theorem apply_now (command : ObjectiveCommand) (d : Database) (id : ObjectiveId) (now now' : Time) :
    match command.apply d id now, command.apply d id now' with
    | .error e, .error e' => e = e'
    | .ok qg, .ok qg' => lifecycle { d with queue := qg.1, graph := qg.2 } id =
        lifecycle { d with queue := qg'.1, graph := qg'.2 } id
    | _, _ => False := by
  cases hrow : d.queue.objectives.get? id with
  | none =>
    cases command <;>
      simp only [ObjectiveCommand.apply, pauseObjective, resumeObjective, cancelObjective, hrow] <;> rfl
  | some row =>
    cases command with
    | pause =>
      simp only [ObjectiveCommand.apply, pauseObjective, hrow]
      by_cases hcancel : row.status = .cancelRequested
      · simp only [if_pos hcancel]; rfl
      simp only [if_neg hcancel]
      by_cases hterminal : row.status.isTerminal = true
      · simp only [if_pos hterminal]; rfl
      simp only [if_neg hterminal]
      by_cases hpaused : row.status = .paused
      · simp only [if_pos hpaused]; rfl
      simp only [if_neg hpaused]
      refine lifecycle_updateAt (fun o => ⟨rfl, ?_, rfl, rfl, rfl⟩) (fun _ => rfl) fun _ => rfl
      simp only [Objective.pausedAs]
      split <;> rfl
    | resume =>
      simp only [ObjectiveCommand.apply, resumeObjective, hrow]
      by_cases hpaused : row.status ≠ .paused
      · simp only [if_pos hpaused]; rfl
      simp only [if_neg hpaused]
      by_cases hgone : row.planId.isSome = true ∧ d.graph.planStatus row.planId = none
      · simp only [if_pos hgone]; rfl
      simp only [if_neg hgone]
      refine lifecycle_updateAt (fun o => ⟨rfl, rfl, ?_, rfl, rfl⟩) (fun _ => rfl) fun _ => rfl
      simp only [Objective.resumedAs]
      split <;> rfl
    | cancel =>
      simp only [ObjectiveCommand.apply, cancelObjective, hrow]
      by_cases hterminal : row.status.isTerminal = true
      · simp only [if_pos hterminal]
      simp only [if_neg hterminal]
      by_cases hcommitted : HermesOps.integrationPointOfNoReturn d row.planId = true
      · simp only [if_pos hcommitted]
      simp only [if_neg hcommitted]
      refine lifecycle_updateAt (fun o => ⟨rfl, rfl, ?_, rfl, rfl⟩) (fun p => ?_) fun i => ?_
      · simp only [Objective.cancelledAs]
        split <;> rfl
      · split
        · exact cancelPlan_planStatus_now _ _ _ _ _
        · rfl
      · split
        · exact cancelPlan_tasks_now _ _ _ _ _
        · rfl

/-- On every database, the command line and the Controller both refuse a command that reaches them, and
    then the Controller's tables are as they were; or both accept it and leave the same status, nulls
    and error of the objective, the same plan status and the same task statuses. -/
theorem one_objective_lifecycle (h : Admitted c t r objectiveId) (command : ObjectiveCommand)
    (now : Time) :
    (∃ e e', cliCommand command t.database (c.objectiveId objectiveId) now = .error e ∧
      commandObjective c r objectiveId (commandText command) t = (.error e', t)) ∨
    ∃ qg a t', cliCommand command t.database (c.objectiveId objectiveId) now = .ok qg ∧
      commandObjective c r objectiveId (commandText command) t = (.ok a, t') ∧
      lifecycle t'.database (c.objectiveId objectiveId) =
        lifecycle { t.database with queue := qg.1, graph := qg.2 } (c.objectiveId objectiveId) := by
  have hend := commandObjective_end h command
  have htime := apply_now command t.database (c.objectiveId objectiveId) now r.draws.now
  rw [cliCommand_eq]
  rcases hcontroller : commandObjective c r objectiveId (commandText command) t with ⟨res, t'⟩
  rw [hcontroller] at hend
  cases hcli : command.apply t.database (c.objectiveId objectiveId) now with
  | error e =>
    rw [hcli] at htime
    cases hnow : command.apply t.database (c.objectiveId objectiveId) r.draws.now with
    | ok qg => rw [hnow] at htime; exact htime.elim
    | error e' =>
      rw [hnow] at hend
      cases res with
      | ok a => exact hend.elim
      | error e'' => exact .inl ⟨_, e'', rfl, by rw [show t' = t from hend]⟩
  | ok qg =>
    rw [hcli] at htime
    cases hnow : command.apply t.database (c.objectiveId objectiveId) r.draws.now with
    | error e => rw [hnow] at htime; exact htime.elim
    | ok qg' =>
      rw [hnow] at hend htime
      cases res with
      | error e => exact hend.elim
      | ok a =>
        refine .inr ⟨qg, a, t', rfl, rfl, ?_⟩
        rw [show t'.database = _ from hend]
        exact htime.symm

/-! ### A project scope that no submission stores -/

/-- A queued objective with the project scope. -/
def queued (scope : List ProjectId) : Objective :=
  ⟨"goal", .ai, .queued, 100, 0, scope, 1, 3, 0, none, 0, none, 0, none, none, none⟩

/-- Tables with that one objective. -/
def oneObjective (scope : List ProjectId) : CommandTables :=
  .fresh { Database.empty with queue := ⟨⟨[(0, queued scope)], List.nodup_singleton 0⟩, .empty⟩ } .empty

def objectiveText : String := "objective-00000000000000000000000000000000"

/-- A request to pause it. -/
def pauseRequest : Request where
  session := "0123456789abcdef0123456789abcdef"
  key := some "pause-key-01"
  route := "/api/v1/objectives/" ++ objectiveText ++ "/commands/pause"
  body := []
  draws := ⟨"0", "00000000000000000000000000000000", "0", "0", "00000000000000000000000000000000",
    "nonce", 0, 0, 1, 0, 1, some (.obj []), none⟩

/-- With an empty scope the command line pauses the objective and the Controller refuses to. -/
theorem pause_differs_on_empty_scope :
    (∃ qg, cliCommand .pause (oneObjective []).database 0 1 = .ok qg) ∧
      (commandObjective plain pauseRequest objectiveText "pause" (oneObjective [])).1 =
        .error (.controller { status := 503, code := "objective_projection_invalid"
                              title := "Objective projection unavailable" }) :=
  ⟨⟨_, rfl⟩, rfl⟩

theorem pauseRequest_admitted :
    Admitted plain (oneObjective [0]) pauseRequest objectiveText := by
  refine ⟨⟨"pause-key-01", rfl, rfl⟩, rfl, by decide, ⟨false, rfl⟩, rfl, rfl, rfl,
    fun _ _ h => (by cases h), rfl, fun row hrow => ?_⟩
  obtain rfl : queued [0] = row := by
    have : (oneObjective [0]).database.queue.objectives.get? 0 = some (queued [0]) := rfl
    exact Option.some.inj (this.symm.trans hrow)
  exact ⟨by decide, by decide, by decide, by decide, by decide, fun _ h => (by cases h), rfl, by decide,
    by decide, by decide, by decide, by decide⟩

theorem one_objective_lifecycle_pause :
    ∃ a t', commandObjective plain pauseRequest objectiveText "pause" (oneObjective [0]) = (.ok a, t') ∧
      (lifecycle t'.database 0).map Lifecycle.status = some .paused := by
  rcases one_objective_lifecycle pauseRequest_admitted .pause 1 with ⟨_, _, h, -⟩ |
    ⟨qg, a, t', hcli, hrun, hsame⟩
  · cases h
  · refine ⟨a, t', hrun, ?_⟩
    cases hcli
    have hsame : lifecycle t'.database 0 = _ := hsame
    rw [hsame]
    rfl

end HermesOps.Controller
