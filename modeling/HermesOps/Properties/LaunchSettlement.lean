import HermesOps.Properties.AssignmentProtocol
import HermesOps.Reviewer.Launch

/-! The rows of a launched reviewer or worker, over every outcome of its steps and every interleaving with
    the processes that fail assignments and recover runs. From its reservation on a launch is open, as
    the reservation has left it, or settled. A recovery of its run settles it, and so does its own last
    transaction; nothing else moves it as long as every step before that transaction lets the process
    get there. -/

namespace HermesOps.Reviewer

open Controller Schemes

variable {rules : ReviewRules} {w w' : Work ReviewDatabase} {d d' : ReviewDatabase}

/-- The tables of a core. -/
structure SameTables (d e : ReviewDatabase) : Prop where
  projects : d.projects = e.projects
  runs : d.runs = e.runs
  tasks : d.tasks = e.tasks
  executions : d.executions = e.executions
  workerExecutions : d.workerExecutions = e.workerExecutions
  results : d.results = e.results
  assignments : d.assignments = e.assignments

theorem sameTables_of_core {e : ReviewDatabase} (h : d.core = e) : SameTables d e := by
  subst h
  exact ⟨rfl, rfl, rfl, rfl, rfl, rfl, rfl⟩

/-! ### Rows of the assignments -/

section Updated

variable {id : String} {f : AssignmentState → AssignmentState} {r : Assignment}

/-- The row after the update, with its identity. -/
theorem Updated.get? (h : Updated rules id f r d d') :
    ∃ r', d'.assignments.get? id = some r' ∧ r'.state = f r.state ∧ r'.runId = r.runId ∧
      r'.roleId = r.roleId ∧ r'.sourceProfile = r.sourceProfile := by
  obtain ⟨r', hr', -, hcore⟩ := h.written
  have hassignments : d'.assignments = d.assignments.updateAt id fun _ => r' :=
    (sameTables_of_core hcore).assignments
  refine ⟨r', ?_, ?_⟩
  · rw [hassignments, Table.get?_updateAt, if_pos rfl, h.row]
    rfl
  · unfold Assignment.withState at hr'
    split at hr'
    · cases hr'
      exact ⟨rfl, rfl, rfl, rfl⟩
    · cases hr'

/-- Every other row stays. -/
theorem Updated.other (h : Updated rules id f r d d') {k : String} (hk : k ≠ id) :
    d'.assignments.get? k = d.assignments.get? k := by
  obtain ⟨r', -, -, hcore⟩ := h.written
  have hassignments : d'.assignments = d.assignments.updateAt id fun _ => r' :=
    (sameTables_of_core hcore).assignments
  rw [hassignments, Table.get?_updateAt, if_neg hk]

theorem Updated.core (h : Updated rules id f r d d') :
    d'.core = { d.core with assignments := d'.assignments } := by
  obtain ⟨r', -, -, hcore⟩ := h.written
  have hassignments : d'.assignments = d.assignments.updateAt id fun _ => r' :=
    (sameTables_of_core hcore).assignments
  rw [hcore, hassignments]

end Updated

/-- Changes of assignments leave the other tables as they are. -/
theorem Changes.core (h : Changes rules d d') : d'.core = { d.core with assignments := d'.assignments } := by
  induction h with
  | refl => rfl
  | @tail d₁ d₂ _ hstep ih =>
    rcases hstep with hcore | ⟨t, -, hcore⟩
    · rw [hcore, ih, assignments_of_core hcore]
    · have ht : d₂.assignments = t := (sameTables_of_core hcore).assignments
      rw [hcore, ih, ht]

section Failing

variable {actorId failureCode : String} {x : Draw} {ended : Bool} {id : String}

/-- The assignment that was failed has ended. -/
theorem failActiveAssignment_terminal
    (h : failActiveAssignment rules id actorId failureCode x w = (.ok ended, w')) :
    ∃ r, w'.state.assignments.get? id = some r ∧ r.state.status ∈ terminalStatuses := by
  obtain ⟨r, hrow, ⟨hterminal, -, hsame⟩ | ⟨-, -, hupdated⟩⟩ := failActiveAssignment_ok h
  · rw [hsame]
    exact ⟨r, hrow, hterminal⟩
  · obtain ⟨r', hrow', hs, -⟩ := hupdated.get?
    refine ⟨r', hrow', ?_⟩
    rw [hs]
    exact show AssignmentStatus.failed ∈ terminalStatuses by decide

theorem failActiveAssignment_other
    (h : failActiveAssignment rules id actorId failureCode x w = (.ok ended, w')) {k : String}
    (hk : k ≠ id) : w'.state.assignments.get? k = w.state.assignments.get? k := by
  obtain ⟨r, -, ⟨-, -, hsame⟩ | ⟨-, -, hupdated⟩⟩ := failActiveAssignment_ok h
  · rw [hsame]
  · exact hupdated.other hk

/-- Every row of the loop has ended after it, and no other row has changed. -/
theorem recoverEach_rows {draws : Nat → Draw} {ids : List String} {before count : Nat}
    (h : recoverEach rules actorId ids draws before w = (.ok count, w')) {k : String} :
    (k ∈ ids → ∃ r, w'.state.assignments.get? k = some r ∧ r.state.status ∈ terminalStatuses) ∧
      (k ∉ ids → w'.state.assignments.get? k = w.state.assignments.get? k) := by
  induction ids generalizing w before with
  | nil =>
    obtain ⟨-, rfl⟩ := Txn.pure_ok.1 h
    exact ⟨fun hk => absurd hk List.not_mem_nil, fun _ => rfl⟩
  | cons id ids ih =>
    obtain ⟨ended, v, hfail, hrest⟩ := Txn.bind_ok.1 h
    obtain ⟨hin, hout⟩ := ih hrest
    refine ⟨?_, ?_⟩
    · intro hk
      rcases List.mem_cons.1 hk with rfl | hk
      · obtain ⟨r, hrow, hterminal⟩ := failActiveAssignment_terminal hfail
        obtain ⟨r', hrow', hpath⟩ := (recoverEach_ok hrest).advances k r hrow
        rw [terminal_kept hpath hterminal] at hrow'
        exact ⟨r, hrow', hterminal⟩
      · exact hin hk
    · intro hk
      rw [List.mem_cons, not_or] at hk
      obtain ⟨hne, hk⟩ := hk
      rw [hout hk, failActiveAssignment_other hfail hne]

end Failing

/-- A recovery ends the active assignments of its run and leaves those of the others. -/
theorem recoverActiveAssignments_rows {runId actorId : String} {draws : Nat → Draw} {count : Nat}
    (h : recoverActiveAssignments rules runId actorId draws w = (.ok count, w')) {k : String}
    {r : Assignment} (hrow : w.state.assignments.get? k = some r) :
    (r.runId = runId → ∃ r', w'.state.assignments.get? k = some r' ∧
        r'.state.status ∈ terminalStatuses) ∧
      (r.runId ≠ runId → w'.state.assignments.get? k = some r) := by
  obtain ⟨ids, v, hids, h⟩ := Txn.bind_ok.1 h
  obtain ⟨rfl, hstate⟩ := query_ok hids
  obtain ⟨hin, hout⟩ := recoverEach_rows (k := k) h
  have hmem : k ∈ ((w.state.assignments.select fun _ r => r.runId = runId ∧
      r.state.isActive).insertionSort fun x y => x.2.assignmentNumber ≤ y.2.assignmentNumber).map Prod.fst ↔
      r.runId = runId ∧ r.state.isActive = true := by
    simp only [List.mem_map, List.mem_insertionSort, Prod.exists, exists_and_right, exists_eq_right,
      Table.mem_select, hrow, Option.some.injEq, exists_eq_left', decide_eq_true_eq]
  rw [hmem] at hin hout
  rw [hstate] at hout
  refine ⟨?_, ?_⟩
  · intro hrun
    by_cases hactive : r.state.isActive = true
    · exact hin ⟨hrun, hactive⟩
    · refine ⟨r, (hout fun h => hactive h.2).trans hrow, ?_⟩
      generalize r.state = s at hactive
      revert hactive
      cases hs : s.status <;> simp [AssignmentState.isActive, activeStatuses, terminalStatuses, hs]
  · intro hrun
    exact (hout fun h => hrun h.1).trans hrow

/-! ### Statements -/

theorem bind_reject {α : Type} {test : Bool} {message : String} {f : Unit → Review α} {a : α}
    (h : (reject test message >>= f) w = (.ok a, w')) : test = false ∧ f () w = (.ok a, w') := by
  obtain ⟨u, v, hreject, h⟩ := Txn.bind_ok.1 h
  obtain ⟨htest, rfl⟩ := Txn.ensure_ok.1 hreject
  exact ⟨by simpa using htest, h⟩

theorem bind_query {α β : Type} {f : ReviewDatabase → α} {g : α → Review β} {b : β}
    (h : (query f >>= g) w = (.ok b, w')) :
    ∃ v, v.state = w.state ∧ g (f w.state) v = (.ok b, w') := by
  obtain ⟨a, v, hquery, h⟩ := Txn.bind_ok.1 h
  obtain ⟨rfl, hstate⟩ := query_ok hquery
  exact ⟨v, hstate, h⟩

theorem bind_execute {β : Type} {f : ReviewDatabase → Option (Unit × ReviewDatabase)} {g : Unit → Review β}
    {b : β} (h : (execute f >>= g) w = (.ok b, w')) :
    ∃ v, f w.state = some ((), v.state) ∧ g () v = (.ok b, w') := by
  obtain ⟨_, v, hexecute, h⟩ := Txn.bind_ok.1 h
  exact ⟨v, execute_ok hexecute, h⟩

/-- The run has its status and its project. -/
theorem loadRun_ok {status : RunStatus} {runId : String} {run : RunRow}
    (h : loadRun status runId w = (.ok run, w')) :
    w.state.runs.get? runId = some run ∧ (w.state.projects.get? run.projectId).isSome = true ∧
      w'.state = w.state := by
  obtain ⟨v, hv, h⟩ := bind_query h
  cases hrun : w.state.runs.get? runId with
  | none =>
    rw [hrun] at h
    exact absurd h Txn.raise_ok
  | some run' =>
    rw [hrun, Option.bind_some] at h
    cases hproject : w.state.projects.get? run'.projectId with
    | none =>
      rw [hproject] at h
      exact absurd h Txn.raise_ok
    | some enabled =>
      rw [hproject] at h
      obtain ⟨-, h⟩ := bind_reject h
      obtain ⟨-, h⟩ := bind_reject h
      obtain ⟨v', hv', h⟩ := bind_query h
      obtain ⟨-, h⟩ := bind_reject h
      obtain ⟨rfl, rfl⟩ := Txn.pure_ok.1 h
      exact ⟨rfl, by rw [hproject]; rfl, hv'.trans hv⟩

theorem insertTask_ok {id : String} {t : LaunchTask} (h : insertTask id t d = some ((), d')) :
    ∃ tasks, d.tasks.insert id t = some tasks ∧ d' = { d with tasks } := by
  unfold insertTask at h
  split at h
  · obtain ⟨tasks, htasks, heq⟩ := Option.map_eq_some_iff.1 h
    cases heq
    exact ⟨tasks, htasks, rfl⟩
  · cases h

theorem insertReviewerExecution_ok {id : String} {e : ReviewerExecution}
    (h : insertReviewerExecution id e d = some ((), d')) :
    ∃ executions, d.executions.insert id e = some executions ∧ d' = { d with executions } := by
  unfold insertReviewerExecution at h
  split at h
  · obtain ⟨executions, hexecutions, heq⟩ := Option.map_eq_some_iff.1 h
    cases heq
    exact ⟨executions, hexecutions, rfl⟩
  · cases h

theorem insertWorkerExecution_ok {id : String} {e : WorkerExecution}
    (h : insertWorkerExecution id e d = some ((), d')) :
    ∃ workerExecutions, d.workerExecutions.insert id e = some workerExecutions ∧
      d' = { d with workerExecutions } := by
  unfold insertWorkerExecution at h
  split at h
  · obtain ⟨workerExecutions, hexecutions, heq⟩ := Option.map_eq_some_iff.1 h
    cases heq
    exact ⟨workerExecutions, hexecutions, rfl⟩
  · cases h

/-! ### Statements that return -/

theorem run_query {α : Type} {f : ReviewDatabase → α} : query f ⟨d, none⟩ = (.ok (f d), ⟨d, none⟩) := by
  rw [query, Txn.run_statement]

theorem run_execute {α : Type} {f : ReviewDatabase → Option (α × ReviewDatabase)} {a : α}
    (h : f d = some (a, d')) : execute f ⟨d, none⟩ = (.ok a, ⟨d', none⟩) := by
  rw [execute, Txn.run_statement, h]

/-- The journal takes the event. -/
structure Takes (rules : ReviewRules) (j : Journal) (e : EventInput) : Prop where
  valid : e.isValid rules.toTextRules = true
  data : validateData rules.toTextRules e.data = true
  length : 3 ≤ e.eventType.length ∧ e.eventType.length ≤ 128
  time : rules.timestampGuard e.occurredAt = true
  unused : ∀ row ∈ j.rows, row.eventId ≠ e.eventId
  space : j.lastSequence + 1 < 2 ^ 63

theorem journal_returns {eventType assignmentId actorId causationId projectId : String} {data : Json} {x : Draw}
    (hcausation : causationId ≠ "")
    (htakes : Takes rules d.journal
      (reviewEvent rules eventType assignmentId actorId causationId projectId data x)) :
    Txn.Returns (journal rules eventType assignmentId actorId causationId projectId data x) d
      fun _ _ => True := by
  obtain ⟨journal', envelope, hemit⟩ := emit_accepts htakes.valid htakes.data htakes.length htakes.time
    htakes.unused htakes.space
  refine .step (Txn.run_ensure (decide_eq_true hcausation)) ?_
  refine .of_run (a := ()) (t := { d with journal := journal' }) ?_ trivial
  rw [Txn.run_statement]
  simp only [hemit]

/-- Both records of a change go through. -/
theorem record_returns {assignmentId runId projectId taskId legacyType eventType severity actorId
    causationId : String} {data : List (String × Json)} {x : Draw}
    (hproject : (d.projects.get? projectId).isSome = true) (hrun : (d.runs.get? runId).isSome = true)
    (htask : (d.tasks.get? taskId).isSome = true) (hcausation : causationId ≠ "")
    (htakes : Takes rules d.journal
      (reviewEvent rules eventType assignmentId actorId causationId projectId (.obj data) x)) :
    Txn.Returns (record rules assignmentId runId projectId (some taskId) legacyType eventType severity actorId
      causationId data x) d fun _ _ => True := by
  refine .step (run_execute (if_pos ⟨hproject, hrun, htask⟩)) ?_
  exact journal_returns hcausation htakes

/-- The event of `finish_assignment`. -/
def finishEvent (rules : ReviewRules) (assignmentId executionId projectId : String) (number : Nat)
    (success : Bool) (failureCode : String) (x : Draw) : EventInput :=
  reviewEvent rules (if success then "review.assignment_completed" else "review.assignment_failed")
    assignmentId ("reviewer:" ++ executionId) executionId projectId
    (.obj (finishData number executionId (if success then none else some failureCode)
      (if success then "completed" else "failed"))) x

/-- An update that the constraints accept. -/
theorem updateAssignment_some {id : String} {old : List AssignmentStatus}
    {f : AssignmentState → AssignmentState} {r : Assignment} (hrow : d.assignments.get? id = some r)
    (hold : r.state.status ∈ old) (haccepts : Accepts rules d id r (f r.state)) :
    ∃ r', updateAssignment rules id old f d =
      some (1, { d with assignments := d.assignments.updateAt id fun _ => r' }) := by
  obtain ⟨r', hr', hallowed⟩ := haccepts
  refine ⟨r', ?_⟩
  simp only [updateAssignment, hrow, hold, hr', hallowed, if_true]

/-- A claimed row whose new state the constraints accept is finished. -/
theorem finishAssignment_returns {assignmentId runId executionId projectId taskId failureCode : String}
    {success : Bool} {reviewId : Option String} {x : Draw} {r : Assignment}
    (hid : isAssignmentId assignmentId = true) (hrow : d.assignments.get? assignmentId = some r)
    (hrunId : r.runId = runId) (hclaimed : r.state.status = .claimed) (hlink : r.state.reviewExecutionId = some executionId)
    (hrun : ∃ run, d.runs.get? runId = some run ∧ run.projectId = projectId)
    (hproject : (d.projects.get? projectId).isSome = true) (htask : (d.tasks.get? taskId).isSome = true)
    (hreview : success = true → reviewId.any (fun id => id ≠ "") = true)
    (hcode : isFailureCode failureCode = true) (hcausation : executionId ≠ "")
    (haccepts : Accepts rules d assignmentId r
      (r.state.finish success (reviewId.getD "") failureCode x.now))
    (htakes : Takes rules d.journal
      (finishEvent rules assignmentId executionId projectId r.assignmentNumber success failureCode x)) :
    Txn.Returns (finishAssignment rules assignmentId runId executionId taskId success reviewId failureCode x)
      d fun _ _ => True := by
  subst hrunId
  obtain ⟨run, hrun, rfl⟩ := hrun
  refine .step (Txn.run_ensure hid) ?_
  refine .step (a := r) (t := d) ?_ ?_
  · refine (Txn.run_bind_of_ok run_query).trans ?_
    simp only [hrow]
    rfl
  refine .step (Txn.run_ensure (decide_eq_true ⟨hclaimed, rfl, hlink⟩)) ?_
  refine .step (a := run.projectId) (t := d) ?_ ?_
  · refine (Txn.run_bind_of_ok run_query).trans ?_
    simp only [hrun]
    rfl
  have hold : r.state.status ∈ [AssignmentStatus.claimed] := by
    rw [hclaimed]
    exact List.mem_singleton.2 rfl
  cases success with
  | true =>
    obtain ⟨r', hupdate⟩ := updateAssignment_some (f := AssignmentState.complete (reviewId.getD "") x.now)
      hrow hold haccepts
    rw [if_pos rfl]
    refine .step (Txn.run_ensure (hreview rfl)) ?_
    refine .step (run_execute hupdate) ?_
    refine .step (Txn.run_ensure (decide_eq_true rfl)) ?_
    exact record_returns hproject (Option.isSome_of_eq_some hrun) htask hcausation htakes
  | false =>
    obtain ⟨r', hupdate⟩ := updateAssignment_some (f := AssignmentState.finishFailed failureCode x.now)
      hrow hold haccepts
    rw [if_neg Bool.false_ne_true]
    refine .step (Txn.run_ensure hcode) ?_
    refine .step (run_execute hupdate) ?_
    refine .step (Txn.run_ensure (decide_eq_true rfl)) ?_
    exact record_returns hproject (Option.isSome_of_eq_some hrun) htask hcausation htakes

/-! ### Tasks -/

/-- The task is as its reservation has left it. -/
def TaskRunning (d : ReviewDatabase) (id runId : String) : Prop :=
  ∃ t, d.tasks.get? id = some t ∧ t.runId = runId ∧ t.status = .running

/-- The task is `COMPLETED` or `FAILED`. -/
def TaskClosed (d : ReviewDatabase) (id : String) : Prop :=
  ∃ t, d.tasks.get? id = some t ∧ (t.status = .completed ∨ t.status = .failed)

section Tasks

variable {id runId now : String}

theorem updateTask_ok {success : Bool} (h : updateTask id success now d = some ((), d')) :
    d' = { d with tasks := d'.tasks } := by
  cases h
  rfl

theorem updateTask_closed {success : Bool} (h : updateTask id success now d = some ((), d'))
    (hrow : (d.tasks.get? id).isSome = true) : TaskClosed d' id := by
  obtain ⟨t, ht⟩ := Option.isSome_iff_exists.1 hrow
  cases h
  refine ⟨⟨t.runId, if success then .completed else .failed, some now⟩, ?_, ?_⟩
  · rw [Table.get?_updateAt, if_pos rfl, ht]
    rfl
  · cases success with
    | true => exact .inl rfl
    | false => exact .inr rfl

theorem TaskRunning.isSome (h : TaskRunning d id runId) : (d.tasks.get? id).isSome = true := by
  obtain ⟨t, ht, -⟩ := h
  exact Option.isSome_of_eq_some ht

theorem TaskClosed.isSome (h : TaskClosed d id) : (d.tasks.get? id).isSome = true := by
  obtain ⟨t, ht, -⟩ := h
  exact Option.isSome_of_eq_some ht

theorem TaskRunning.recovered (h : TaskRunning d id runId) : TaskClosed (failTasks runId now d) id := by
  obtain ⟨t, ht, hrun, hstatus⟩ := h
  refine ⟨⟨t.runId, .failed, some now⟩, ?_, .inr rfl⟩
  rw [failTasks, Table.get?_update, ht, Option.map_some, if_pos]
  rw [hstatus]
  exact decide_eq_true ⟨hrun, by decide⟩

theorem TaskRunning.kept (h : TaskRunning d id runId) {runId' : String} (hrun : runId ≠ runId') :
    TaskRunning (failTasks runId' now d) id runId := by
  obtain ⟨t, ht, rfl, hstatus⟩ := h
  refine ⟨t, ?_, rfl, hstatus⟩
  rw [failTasks, Table.get?_update, ht, Option.map_some, if_neg]
  intro h
  exact hrun (of_decide_eq_true h).1

theorem TaskClosed.kept (h : TaskClosed d id) : TaskClosed (failTasks runId now d) id := by
  obtain ⟨t, ht, hstatus⟩ := h
  refine ⟨t, ?_, hstatus⟩
  rw [failTasks, Table.get?_update, ht, Option.map_some, if_neg]
  intro h
  have hmem := (of_decide_eq_true h).2
  rcases hstatus with hs | hs
  · rw [hs] at hmem
    revert hmem
    decide
  · rw [hs] at hmem
    revert hmem
    decide

/-- A closed task refuses no reservation. -/
theorem TaskClosed.inactive (h : TaskClosed d id) : ∀ t, (id, t) ∉ d.activeTasks runId := by
  obtain ⟨t, ht, hstatus⟩ := h
  intro t' hmem
  obtain ⟨hrow, hactive⟩ := Table.mem_select.1 hmem
  rw [ht, Option.some.injEq] at hrow
  subst hrow
  have hrunning := (of_decide_eq_true hactive).2
  rcases hstatus with hs | hs
  · rw [hs] at hrunning
    cases hrunning
  · rw [hs] at hrunning
    cases hrunning

end Tasks

/-! ### A recovery -/

section Recovery

variable {runId now : String} {draws : Nat → Draw} {u : Unit}

/-- The tables before the loop over the assignments. -/
theorem cleanupRunResources_ok (h : cleanupRunResources rules runId now draws w = (.ok u, w')) :
    ∃ v : Work ReviewDatabase, ∃ count,
      v.state = closeReviewerExecutions runId now
        (closeWorkerExecutions runId now (failTasks runId now w.state)) ∧
      recoverActiveAssignments rules runId ("recovery:" ++ runId) draws v = (.ok count, w') := by
  obtain ⟨v₁, h₁, h⟩ := bind_execute h
  obtain ⟨v₂, h₂, h⟩ := bind_execute h
  obtain ⟨v₃, h₃, h⟩ := bind_execute h
  obtain ⟨count, v₄, hrecover, h⟩ := Txn.bind_ok.1 h
  obtain ⟨-, rfl⟩ := Txn.pure_ok.1 h
  refine ⟨v₃, count, ?_, hrecover⟩
  rw [← (Prod.mk.inj (Option.some.inj h₃)).2, ← (Prod.mk.inj (Option.some.inj h₂)).2,
    ← (Prod.mk.inj (Option.some.inj h₁)).2]

/-- A recovery touches the tasks, the executions and the assignments. -/
theorem cleanupRunResources_tables (h : cleanupRunResources rules runId now draws w = (.ok u, w')) :
    SameTables w'.state
      { failTasks runId now w.state with
        executions := (closeReviewerExecutions runId now w.state).executions
        workerExecutions := (closeWorkerExecutions runId now w.state).workerExecutions
        assignments := w'.state.assignments } := by
  obtain ⟨v, count, hv, hrecover⟩ := cleanupRunResources_ok h
  have hcore := (recoverActiveAssignments_ok hrecover).core
  rw [hv] at hcore
  have hsame := sameTables_of_core hcore
  exact ⟨hsame.projects, hsame.runs, hsame.tasks, hsame.executions, hsame.workerExecutions, hsame.results,
    rfl⟩

theorem cleanupRunResources_changes (h : cleanupRunResources rules runId now draws w = (.ok u, w')) :
    Advances w.state.assignments w'.state.assignments ∧
      (AssignmentsInv rules w.state.assignments → AssignmentsInv rules w'.state.assignments) := by
  obtain ⟨v, count, hv, hrecover⟩ := cleanupRunResources_ok h
  have hchanges := recoverActiveAssignments_ok hrecover
  have hbefore : v.state.assignments = w.state.assignments := by
    rw [hv]
    rfl
  rw [← hbefore]
  exact ⟨hchanges.advances, hchanges.inv⟩

/-- Its run has no active assignment left, and those of the other runs stay. -/
theorem cleanupRunResources_rows (h : cleanupRunResources rules runId now draws w = (.ok u, w')) {k : String}
    {r : Assignment} (hrow : w.state.assignments.get? k = some r) :
    (r.runId = runId → ∃ r', w'.state.assignments.get? k = some r' ∧
        r'.state.status ∈ terminalStatuses) ∧
      (r.runId ≠ runId → w'.state.assignments.get? k = some r) := by
  obtain ⟨v, count, hv, hrecover⟩ := cleanupRunResources_ok h
  refine recoverActiveAssignments_rows hrecover ?_
  rw [hv]
  exact hrow

theorem closeReviewerExecutions_finished {k : String} {e : ReviewerExecution}
    (he : d.executions.get? k = some e) (h : e.runId = runId ∨ e.finishedAt.isSome = true) :
    ∃ e', (closeReviewerExecutions runId now d).executions.get? k = some e' ∧
      e'.finishedAt.isSome = true := by
  rw [closeReviewerExecutions, Table.get?_update, he, Option.map_some]
  refine ⟨_, rfl, ?_⟩
  split
  · rfl
  · rename_i hopen
    rcases h with hrun | hfinished
    · cases hf : e.finishedAt with
      | some at' => rfl
      | none => exact absurd (decide_eq_true ⟨hrun, hf⟩) hopen
    · exact hfinished

theorem closeReviewerExecutions_kept {k : String} {e : ReviewerExecution}
    (he : d.executions.get? k = some e) (h : e.runId ≠ runId) :
    (closeReviewerExecutions runId now d).executions.get? k = some e := by
  rw [closeReviewerExecutions, Table.get?_update, he, Option.map_some, if_neg]
  intro hopen
  exact h (of_decide_eq_true hopen).1

theorem closeWorkerExecutions_finished {k : String} {e : WorkerExecution}
    (he : d.workerExecutions.get? k = some e) (h : e.runId = runId ∨ e.finishedAt.isSome = true) :
    ∃ e', (closeWorkerExecutions runId now d).workerExecutions.get? k = some e' ∧
      e'.finishedAt.isSome = true := by
  rw [closeWorkerExecutions, Table.get?_update, he, Option.map_some]
  refine ⟨_, rfl, ?_⟩
  split
  · rfl
  · rename_i hopen
    rcases h with hrun | hfinished
    · cases hf : e.finishedAt with
      | some at' => rfl
      | none => exact absurd (decide_eq_true ⟨hrun, hf⟩) hopen
    · exact hfinished

theorem closeWorkerExecutions_kept {k : String} {e : WorkerExecution}
    (he : d.workerExecutions.get? k = some e) (h : e.runId ≠ runId) :
    (closeWorkerExecutions runId now d).workerExecutions.get? k = some e := by
  rw [closeWorkerExecutions, Table.get?_update, he, Option.map_some, if_neg]
  intro hopen
  exact h (of_decide_eq_true hopen).1

end Recovery

/-- What a call of another process leaves as it is. -/
theorem OtherCall.run_ok {c : OtherCall} {u : Unit} (h : c.run rules w = (.ok u, w')) :
    w'.state.runs = w.state.runs ∧ w'.state.projects = w.state.projects ∧
      w'.state.results = w.state.results ∧ Advances w.state.assignments w'.state.assignments ∧
      (AssignmentsInv rules w.state.assignments → AssignmentsInv rules w'.state.assignments) := by
  cases c with
  | fail assignmentId actorId failureCode x =>
    obtain ⟨ended, v, hfail, h⟩ := Txn.bind_ok.1 h
    obtain ⟨-, rfl⟩ := Txn.pure_ok.1 h
    have hchanges := changes_of_fail hfail
    have hsame := sameTables_of_core hchanges.core
    exact ⟨hsame.runs, hsame.projects, hsame.results, hchanges.advances, hchanges.inv⟩
  | recover runId now draws =>
    have hsame := cleanupRunResources_tables h
    obtain ⟨hadvances, hinv⟩ := cleanupRunResources_changes h
    exact ⟨hsame.runs, hsame.projects, hsame.results, hadvances, hinv⟩

/-- The tables after the failure of one assignment. -/
theorem OtherCall.fail_ok {assignmentId actorId failureCode : String} {x : Draw} {u : Unit}
    (h : (OtherCall.fail assignmentId actorId failureCode x).run rules w = (.ok u, w')) :
    SameTables w'.state { w.state with assignments := w'.state.assignments } ∧
      ∀ k, k ≠ assignmentId → w'.state.assignments.get? k = w.state.assignments.get? k := by
  obtain ⟨ended, v, hfail, h⟩ := Txn.bind_ok.1 h
  obtain ⟨-, rfl⟩ := Txn.pure_ok.1 h
  have hsame := sameTables_of_core (changes_of_fail hfail).core
  exact ⟨⟨hsame.projects, hsame.runs, hsame.tasks, hsame.executions, hsame.workerExecutions, hsame.results,
    rfl⟩, fun k hk => failActiveAssignment_other hfail hk⟩

/-- The call does not fail this assignment by itself. -/
def OtherCall.spares (assignmentId : String) : OtherCall → Prop
  | .fail id _ _ _ => id ≠ assignmentId
  | .recover _ _ _ => True

/-! ### The rows of a reviewer -/

namespace ReviewLaunch

/-- The rows are as the reservation has left them. -/
structure Opened (l : ReviewLaunch) (d : ReviewDatabase) : Prop where
  task : TaskRunning d l.taskId l.runId
  execution : ∃ e, d.executions.get? l.executionId = some e ∧ e.runId = l.runId ∧ e.roleId = l.roleId ∧
    e.sourceProfile = l.sourceProfile
  assignment : ∃ r, d.assignments.get? l.assignmentId = some r ∧ r.state.status = .claimed ∧
    r.runId = l.runId ∧ r.roleId = l.roleId ∧ r.sourceProfile = l.sourceProfile ∧
    r.state.reviewExecutionId = some l.executionId
  named : isAssignmentId l.assignmentId = true
  run : ∃ run, d.runs.get? l.runId = some run ∧ run.projectId = l.projectId
  project : (d.projects.get? l.projectId).isSome = true
  unreviewed : d.results.any (fun _ r => r.runId = l.runId) = false

/-- The rows have ended. -/
structure Settled (l : ReviewLaunch) (d : ReviewDatabase) : Prop where
  task : TaskClosed d l.taskId
  execution : ∃ e, d.executions.get? l.executionId = some e ∧ e.finishedAt.isSome = true
  assignment : ∃ r, d.assignments.get? l.assignmentId = some r ∧ r.state.status ∈ terminalStatuses

variable {l : ReviewLaunch} {locals : Locals} {now : String} {x : Draw} {u : Unit}

/-- The reservation opens the rows. -/
theorem reserve_ok (h : reserveReview rules l now x w = (.ok u, w'))
    (hI : AssignmentsInv rules w.state.assignments)
    (hloaded : ∀ run, w.state.runs.get? l.runId = some run → run.projectId = l.projectId) :
    l.Opened w'.state ∧ AssignmentsInv rules w'.state.assignments := by
  obtain ⟨current, v₁, hload, h⟩ := Txn.bind_ok.1 h
  obtain ⟨hrun, hproject, hv₁⟩ := loadRun_ok hload
  obtain ⟨v₂, hv₂, h⟩ := bind_query h
  obtain ⟨hreviews, h⟩ := bind_reject h
  obtain ⟨v₃, hv₃, h⟩ := bind_query h
  obtain ⟨-, h⟩ := bind_reject h
  obtain ⟨v₄, hinsert, h⟩ := bind_execute h
  obtain ⟨v₅, hexecution, h⟩ := bind_execute h
  obtain ⟨_, v₆, hclaim, h⟩ := Txn.bind_ok.1 h
  have hstate : v₃.state = w.state := hv₃.trans (hv₂.trans hv₁)
  rw [hstate] at hinsert
  rw [hv₁] at hreviews
  obtain ⟨tasks, htasks, h₄⟩ := insertTask_ok hinsert
  rw [h₄] at hexecution
  obtain ⟨executions, hexecutions, h₅⟩ := insertReviewerExecution_ok hexecution
  obtain ⟨r, ⟨hstatus, hrunId, hroleId, hprofile⟩, hid, hupdated⟩ := claimAssignment_ok hclaim
  have hinv : AssignmentsInv rules v₆.state.assignments := by
    refine Change.inv ?_ (hupdated.applied
      (show StatusStep r.state.status .claimed from hstatus ▸ .claim)).change
    rw [h₅]
    exact hI
  obtain ⟨r', hrow, hclaimed, hrun', hrole', hprofile'⟩ := hupdated.get?
  -- the claim and the event leave the other tables as they are
  have hcore : w'.state.core = { v₅.state.core with assignments := v₆.state.assignments } :=
    (quiet_insertEvent _ _ _ h).trans hupdated.core
  rw [h₅] at hcore
  have hsame := sameTables_of_core hcore
  refine ⟨⟨?_, ?_, ?_, hid, ?_, ?_, ?_⟩, by rw [hsame.assignments]; exact hinv⟩
  · refine ⟨⟨l.runId, .running, none⟩, ?_, rfl, rfl⟩
    rw [hsame.tasks]
    exact (Table.get?_insert htasks _).trans (if_pos rfl)
  · rw [hsame.executions]
    exact ⟨_, (Table.get?_insert hexecutions _).trans (if_pos rfl), rfl, rfl, rfl⟩
  · rw [hsame.assignments]
    refine ⟨r', hrow, ?_, hrun'.trans hrunId, hrole'.trans hroleId, hprofile'.trans hprofile, ?_⟩
    · rw [hclaimed]
      rfl
    · rw [hclaimed]
      rfl
  · rw [hsame.runs]
    exact ⟨current, hrun, hloaded current hrun⟩
  · rw [hsame.projects, ← hloaded current hrun]
    exact hproject
  · rw [hsame.results, Table.any_eq_false_iff]
    intro k review hreview
    by_contra hne
    have hmem : (k, review) ∈ w.state.results.select fun _ r => r.runId = l.runId :=
      Table.mem_select.2 ⟨hreview, by simpa using hne⟩
    simp only [Bool.not_eq_false', List.isEmpty_iff] at hreviews
    rw [hreviews] at hmem
    exact absurd hmem List.not_mem_nil

/-- The tables that `finish_review` has left alone before it comes to the task. -/
theorem storeReview_keeps : Txn.Keeps (fun d : ReviewDatabase => (d.tasks, d.executions, d.assignments))
    (storeReview l locals) := by
  unfold storeReview
  split
  · split
    · refine Txn.Keeps.bind Txn.Keeps.ensure ?_
      intro _
      refine Txn.Keeps.statement ?_
      intro d a d' h
      split at h
      · rename_i y hy
        cases h
        unfold insertReviewResult at hy
        split at hy
        · obtain ⟨results, -, heq⟩ := Option.map_eq_some_iff.1 hy
          cases heq
          rfl
        · cases hy
      · cases h
    · exact Txn.Keeps.pure
  · exact Txn.Keeps.pure

theorem updateReviewerExecution_ok (h : updateReviewerExecution l locals now d = some ((), d')) :
    d' = { d with
      executions := d.executions.updateAt l.executionId (ReviewerExecution.close l locals now) } := by
  unfold updateReviewerExecution at h
  split at h
  · cases h
  · exact (Prod.mk.inj (Option.some.inj h)).2.symm

theorem commitExecution_ok {id : String} (h : commitExecution id d = some (u, d')) : d' = d := by
  unfold commitExecution at h
  split at h
  · exact (Prod.mk.inj (Option.some.inj h)).2.symm
  · cases h

/-- A committed end settles the rows. -/
theorem finish_ok (h : finishReview rules l locals now x w = (.ok u, w'))
    (hI : AssignmentsInv rules w.state.assignments) (htask : (w.state.tasks.get? l.taskId).isSome = true)
    (hexecution : (w.state.executions.get? l.executionId).isSome = true) :
    l.Settled w'.state ∧ AssignmentsInv rules w'.state.assignments := by
  obtain ⟨_, v₁, hstore, h⟩ := Txn.bind_ok.1 h
  obtain ⟨v₂, hupdate, h⟩ := bind_execute h
  obtain ⟨_, v₃, hbind, h⟩ := Txn.bind_ok.1 h
  obtain ⟨-, rfl⟩ := Txn.ensure_ok.1 hbind
  obtain ⟨v₄, hclose, h⟩ := bind_execute h
  obtain ⟨_, v₅, hfinish, h⟩ := Txn.bind_ok.1 h
  obtain ⟨_, v₆, hevent, h⟩ := Txn.bind_ok.1 h
  have hkept := storeReview_keeps _ _ _ hstore
  simp only [Prod.mk.injEq] at hkept
  obtain ⟨htasks, hexecutions, hassignments⟩ := hkept
  obtain ⟨r, hstatus, hupdated⟩ := finishAssignment_ok hfinish
  have hclose := updateReviewerExecution_ok hclose
  have hcore : w'.state.core = { v₄.state.core with assignments := v₅.state.assignments } := by
    rw [commitExecution_ok (execute_ok h)]
    exact (quiet_insertEvent _ _ _ hevent).trans hupdated.core
  have hsame := sameTables_of_core hcore
  have hupdate' := updateTask_ok hupdate
  have hrows : v₄.state.assignments = w.state.assignments := by
    rw [hclose, hupdate']
    exact hassignments
  obtain ⟨r', hrow', hs, -⟩ := hupdated.get?
  refine ⟨⟨?_, ?_, ?_⟩, ?_⟩
  · obtain ⟨t, ht, hended⟩ := updateTask_closed hupdate (by rw [htasks]; exact htask)
    refine ⟨t, ?_, hended⟩
    rw [hsame.tasks, hclose]
    exact ht
  · obtain ⟨e, he⟩ := Option.isSome_iff_exists.1 hexecution
    refine ⟨e.close l locals now, ?_, rfl⟩
    rw [hsame.executions, hclose, hupdate']
    refine (Table.get?_updateAt _ _ _ _).trans ?_
    rw [if_pos rfl, hexecutions, he]
    rfl
  · rw [hsame.assignments]
    refine ⟨r', hrow', ?_⟩
    rw [hs, AssignmentState.finish]
    split
    · exact show AssignmentStatus.completed ∈ terminalStatuses by decide
    · exact show AssignmentStatus.failed ∈ terminalStatuses by decide
  · rw [hsame.assignments]
    exact (hupdated.applied (finish_step hstatus)).change.inv (hrows ▸ hI)

/-- Settled rows stay settled. -/
theorem Settled.other (hs : l.Settled w.state) {c : OtherCall} (h : c.run rules w = (.ok u, w')) :
    l.Settled w'.state := by
  obtain ⟨-, -, -, hadvances, -⟩ := c.run_ok h
  obtain ⟨e, he, hfinished⟩ := hs.execution
  obtain ⟨r, hr, hterminal⟩ := hs.assignment
  have hassignment : ∃ r', w'.state.assignments.get? l.assignmentId = some r' ∧
      r'.state.status ∈ terminalStatuses := by
    obtain ⟨r', hr', hpath⟩ := hadvances _ r hr
    rw [terminal_kept hpath hterminal] at hr'
    exact ⟨r, hr', hterminal⟩
  cases c with
  | fail assignmentId actorId failureCode x =>
    obtain ⟨hsame, -⟩ := OtherCall.fail_ok h
    refine ⟨?_, ⟨e, hsame.executions ▸ he, hfinished⟩, hassignment⟩
    rw [TaskClosed, hsame.tasks]
    exact hs.task
  | recover runId now draws =>
    have hsame := cleanupRunResources_tables h
    refine ⟨?_, ?_, hassignment⟩
    · rw [TaskClosed, hsame.tasks]
      exact hs.task.kept
    · rw [hsame.executions]
      exact closeReviewerExecutions_finished he (.inr hfinished)

/-- Open rows stay open or are settled, unless the assignment is failed. -/
theorem Opened.other (ho : l.Opened w.state) {c : OtherCall} (hspares : c.spares l.assignmentId)
    (h : c.run rules w = (.ok u, w')) : l.Opened w'.state ∨ l.Settled w'.state := by
  obtain ⟨hruns, hprojects, hresults, -, -⟩ := c.run_ok h
  obtain ⟨e, he, hrunId, hkind⟩ := ho.execution
  obtain ⟨r, hr, hclaimed, hrun, hlink⟩ := ho.assignment
  cases c with
  | fail assignmentId actorId failureCode x =>
    obtain ⟨hsame, hother⟩ := OtherCall.fail_ok h
    refine .inl ⟨?_, ⟨e, hsame.executions ▸ he, hrunId, hkind⟩, ⟨r, ?_, hclaimed, hrun, hlink⟩, ho.named,
      hruns ▸ ho.run, hprojects ▸ ho.project, hresults ▸ ho.unreviewed⟩
    · rw [TaskRunning, hsame.tasks]
      exact ho.task
    · rw [hother _ (Ne.symm hspares)]
      exact hr
  | recover runId now draws =>
    have hsame := cleanupRunResources_tables h
    obtain ⟨hended, hkept⟩ := cleanupRunResources_rows h hr
    by_cases hsameRun : l.runId = runId
    · subst hsameRun
      refine .inr ⟨?_, ?_, hended hrun⟩
      · rw [TaskClosed, hsame.tasks]
        exact ho.task.recovered
      · rw [hsame.executions]
        exact closeReviewerExecutions_finished he (.inl hrunId)
    · refine .inl ⟨?_, ?_, ⟨r, hkept (hrun ▸ hsameRun), hclaimed, hrun, hlink⟩, ho.named, hruns ▸ ho.run,
        hprojects ▸ ho.project, hresults ▸ ho.unreviewed⟩
      · rw [TaskRunning, hsame.tasks]
        exact ho.task.kept hsameRun
      · refine ⟨e, ?_, hrunId, hkind⟩
        rw [hsame.executions]
        exact closeReviewerExecutions_kept he (hrunId ▸ hsameRun)

/-- What the end of a launch takes for granted: its texts can be stored, its review is the first of its
    name, and the journal takes its event. -/
structure Ready (rules : ReviewRules) (l : ReviewLaunch) (locals : Locals) (x : Draw) (d : ReviewDatabase) :
    Prop where
  bindable : locals.isBindable = true
  summary : locals.success = true → ∀ review, locals.review = some review → isStorable review.summary = true
  unused : locals.success = true → d.results.get? l.reviewId = none ∧
    (∀ k e, d.executions.get? k = some e → e.reviewId ≠ some l.reviewId) ∧
    ∀ k r, d.assignments.get? k = some r → r.state.reviewId ≠ some l.reviewId
  time : rules.canonicalTime x.now = true
  event : ∀ r, d.assignments.get? l.assignmentId = some r → Takes rules d.journal
    (finishEvent rules l.assignmentId l.executionId l.projectId r.assignmentNumber locals.success
      "REVIEW_EXECUTION_FAILED" x)

theorem storeReview_returns (ho : l.Opened d)
    (hparsed : locals.success = true → locals.review.isSome = true) (hready : l.Ready rules locals x d) :
    ∃ results, storeReview l locals ⟨d, none⟩ = (.ok (), ⟨{ d with results }, none⟩) ∧
      (locals.success = true → (results.get? l.reviewId).isSome = true) := by
  by_cases hsuccess : locals.success = true
  · obtain ⟨review, hreview⟩ := Option.isSome_iff_exists.1 (hparsed hsuccess)
    obtain ⟨run, hrun, -⟩ := ho.run
    obtain ⟨results, hinsert⟩ := Table.insert_of_get?_eq_none (hready.unused hsuccess).1
      ⟨l.runId, review.verdict, review.summary⟩
    refine ⟨results, ?_, ?_⟩
    · simp only [storeReview, hreview, hsuccess, if_true]
      refine (Txn.run_bind_of_ok (Txn.run_ensure (hready.summary hsuccess review hreview))).trans ?_
      refine run_execute ?_
      rw [insertReviewResult, if_pos, hinsert]
      · rfl
      · rw [ho.unreviewed, hrun]
        exact ⟨rfl, Bool.false_ne_true⟩
    · intro _
      rw [Table.get?_insert hinsert, if_pos rfl]
      rfl
  · refine ⟨d.results, ?_, fun h => absurd h hsuccess⟩
    unfold storeReview
    cases locals.review with
    | none => rfl
    | some review =>
      simp only [hsuccess]
      rfl

theorem executionId_ne (l : ReviewLaunch) : l.executionId ≠ "" := by
  intro h
  have hlength : ("review-execution-" ++ l.executionHex).length = 0 := congrArg String.length h
  simp [String.length_append] at hlength

theorem reviewId_ne (l : ReviewLaunch) : l.reviewId ≠ "" := by
  intro h
  have hlength : ("review-" ++ l.reviewHex).length = 0 := congrArg String.length h
  simp [String.length_append] at hlength

/-- The statements after the assignment has been finished. -/
theorem finishAssignment_then {assignmentId runId executionId taskId failureCode : String} {success : Bool}
    {reviewId : Option String} {event : EventRow}
    (hfinish : Txn.Returns (finishAssignment rules assignmentId runId executionId taskId success reviewId
      failureCode x) d fun _ _ => True)
    (hevent : (d.projects.get? event.projectId).isSome = true ∧ (d.runs.get? event.runId).isSome = true ∧
      event.taskId.all (fun t => (d.tasks.get? t).isSome) = true)
    (hcommit : ((d.executions.get? executionId).all fun e => e.reviewId.all fun review =>
      (d.results.get? review).isSome) = true) :
    Txn.Returns (finishAssignment rules assignmentId runId executionId taskId success reviewId failureCode x >>=
      fun _ => execute (insertEvent event) >>= fun _ => execute (commitExecution executionId)) d
      fun _ _ => True := by
  obtain ⟨_, d₁, hrun, -⟩ := hfinish
  obtain ⟨r, -, hupdated⟩ := finishAssignment_ok hrun
  have hsame := sameTables_of_core hupdated.core
  refine .step hrun ?_
  refine .step (run_execute (if_pos ?_)) ?_
  · rw [hsame.projects, hsame.runs, hsame.tasks]
    exact hevent
  · refine .of_run (run_execute (if_pos ?_)) trivial
    rw [hsame.executions, hsame.results]
    exact hcommit

/-- The row ends with its execution, and with its review if there is one. -/
theorem accepts_finish {r : Assignment} {e : ReviewerExecution} {reviewId : Option String}
    (hI : AssignmentsInv rules d.assignments) (hrow : d.assignments.get? l.assignmentId = some r)
    (hclaimed : r.state.status = .claimed) (hlink : r.state.reviewExecutionId = some l.executionId)
    (he : d.executions.get? l.executionId = some e) (hserves : e.serves r) (hfinished : e.finishedAt.isSome = true)
    (htime : rules.canonicalTime now = true)
    (hreview : locals.success = true → reviewId = some l.reviewId ∧ e.reviewId = some l.reviewId ∧
      (d.results.get? l.reviewId).isSome = true ∧
      ∀ k r, d.assignments.get? k = some r → r.state.reviewId ≠ some l.reviewId) :
    Accepts rules d l.assignmentId r
      (r.state.finish locals.success (reviewId.getD "") "REVIEW_EXECUTION_FAILED" now) := by
  by_cases hsuccess : locals.success = true
  · obtain ⟨rfl, hlinked, hstored, hunused⟩ := hreview hsuccess
    rw [AssignmentState.finish, if_pos hsuccess]
    refine (accepts_complete_iff hI hrow hclaimed htime).2 ⟨?_, hstored, ?_⟩
    · exact ⟨l.executionId, e, hlink, he, hserves, hlinked, hfinished⟩
    · intro k r' hr' hsame
      exact absurd hsame (hunused k r' hr')
  · rw [AssignmentState.finish, if_neg hsuccess]
    exact accepts_finishFailed hI hrow hclaimed (by decide) htime

/-- The end of a launch whose rows are open goes through. -/
theorem finish_returns (hI : AssignmentsInv rules d.assignments) (ho : l.Opened d)
    (hparsed : locals.success = true → locals.review.isSome = true) (hready : l.Ready rules locals x d) :
    Txn.Returns (finishReview rules l locals now x) d fun _ _ => True := by
  obtain ⟨results, hstore, hstored⟩ := storeReview_returns ho hparsed hready
  obtain ⟨t, ht, -, -⟩ := ho.task
  obtain ⟨e, he, hserves⟩ := ho.execution
  obtain ⟨r, hr, hclaimed, hrunId, hroleId, hprofile, hlink⟩ := ho.assignment
  have hexecution : ((d.executions.updateAt l.executionId (ReviewerExecution.close l locals now)).get?
      l.executionId) = some (e.close l locals now) := by
    rw [Table.get?_updateAt, if_pos rfl, he]
    rfl
  have htask : ((d.tasks.updateAt l.taskId fun t =>
      { t with
        status := if locals.success then .completed else .failed
        finishedAt := some now }).get? l.taskId).isSome = true := by
    rw [Table.get?_updateAt, if_pos rfl, ht]
    rfl
  refine .step hstore ?_
  refine .step (run_execute (a := ()) rfl) ?_
  refine .step (Txn.run_ensure hready.bindable) ?_
  refine .step (run_execute (if_neg ?_)) ?_
  · rintro ⟨hsuccess, hother⟩
    obtain ⟨k, e', he', hsame⟩ := Table.any_iff.1 hother
    exact (hready.unused hsuccess).2.1 k e' he' (of_decide_eq_true hsame).2
  refine finishAssignment_then ?_ ?_ ?_
  · refine finishAssignment_returns ho.named hr hrunId hclaimed hlink ho.run ho.project htask ?_ ?_
      l.executionId_ne ?_ (hready.event r hr)
    · intro hsuccess
      rw [if_pos hsuccess]
      exact decide_eq_true l.reviewId_ne
    · decide
    · refine accepts_finish hI hr hclaimed hlink hexecution ?_ rfl hready.time ?_
      · exact ⟨hserves.1.trans hrunId.symm, hserves.2.1.trans hroleId.symm,
          hserves.2.2.trans hprofile.symm⟩
      · intro hsuccess
        exact ⟨if_pos hsuccess, if_pos hsuccess, hstored hsuccess, (hready.unused hsuccess).2.2⟩
  · obtain ⟨run, hrun, -⟩ := ho.run
    exact ⟨ho.project, Option.isSome_of_eq_some hrun, htask⟩
  · rw [hexecution]
    by_cases hsuccess : locals.success = true
    · simp only [Option.all_some, ReviewerExecution.close, if_pos hsuccess]
      exact hstored hsuccess
    · simp only [Option.all_some, ReviewerExecution.close, if_neg hsuccess]
      rfl

end ReviewLaunch

/-! ### The rows of a worker -/

namespace WorkerLaunch

/-- The rows are as the reservation has left them. -/
structure Opened (l : WorkerLaunch) (d : ReviewDatabase) : Prop where
  task : TaskRunning d l.taskId l.runId
  execution : ∃ e, d.workerExecutions.get? l.executionId = some e ∧ e.runId = l.runId
  run : (d.runs.get? l.runId).isSome = true
  project : (d.projects.get? l.projectId).isSome = true

/-- The rows have ended. -/
structure Settled (l : WorkerLaunch) (d : ReviewDatabase) : Prop where
  task : TaskClosed d l.taskId
  execution : ∃ e, d.workerExecutions.get? l.executionId = some e ∧ e.finishedAt.isSome = true

variable {l : WorkerLaunch} {locals : Locals} {now : String} {u : Unit}

/-- The reservation opens the rows. -/
theorem reserve_ok (h : reserveExecution l now w = (.ok u, w'))
    (hloaded : ∀ run, w.state.runs.get? l.runId = some run → run.projectId = l.projectId) :
    l.Opened w'.state ∧ w'.state.assignments = w.state.assignments := by
  obtain ⟨current, v₁, hload, h⟩ := Txn.bind_ok.1 h
  obtain ⟨hrun, hproject, hv₁⟩ := loadRun_ok hload
  obtain ⟨v₂, hv₂, h⟩ := bind_query h
  obtain ⟨-, h⟩ := bind_reject h
  obtain ⟨v₃, hinsert, h⟩ := bind_execute h
  obtain ⟨v₄, hexecution, h⟩ := bind_execute h
  rw [hv₂, hv₁] at hinsert
  obtain ⟨tasks, htasks, h₃⟩ := insertTask_ok hinsert
  rw [h₃] at hexecution
  obtain ⟨executions, hexecutions, h₄⟩ := insertWorkerExecution_ok hexecution
  have hcore := quiet_insertEvent _ _ _ h
  rw [h₄] at hcore
  have hsame := sameTables_of_core hcore
  refine ⟨⟨?_, ?_, ?_, ?_⟩, hsame.assignments⟩
  · refine ⟨⟨l.runId, .running, none⟩, ?_, rfl, rfl⟩
    rw [hsame.tasks]
    exact (Table.get?_insert htasks _).trans (if_pos rfl)
  · rw [hsame.workerExecutions]
    exact ⟨_, (Table.get?_insert hexecutions _).trans (if_pos rfl), rfl⟩
  · rw [hsame.runs]
    exact (congrArg Option.isSome hrun).trans rfl
  · rw [hsame.projects, ← hloaded current hrun]
    exact hproject

/-- A committed end settles the rows. -/
theorem finish_ok (h : finishExecution l locals now w = (.ok u, w'))
    (htask : (w.state.tasks.get? l.taskId).isSome = true)
    (hexecution : (w.state.workerExecutions.get? l.executionId).isSome = true) :
    l.Settled w'.state ∧ w'.state.assignments = w.state.assignments := by
  obtain ⟨v₁, hupdate, h⟩ := bind_execute h
  obtain ⟨_, v₂, hbind, h⟩ := Txn.bind_ok.1 h
  obtain ⟨-, rfl⟩ := Txn.ensure_ok.1 hbind
  obtain ⟨v₃, hclose, h⟩ := bind_execute h
  have hupdate' := updateTask_ok hupdate
  have hclose' := (Prod.mk.inj (Option.some.inj hclose)).2
  have hcore := quiet_insertEvent _ _ _ h
  rw [← hclose'] at hcore
  have hsame := sameTables_of_core hcore
  refine ⟨⟨?_, ?_⟩, ?_⟩
  · obtain ⟨t, ht, hended⟩ := updateTask_closed hupdate htask
    exact ⟨t, hsame.tasks ▸ ht, hended⟩
  · obtain ⟨e, he⟩ := Option.isSome_iff_exists.1 hexecution
    refine ⟨e.close locals now, ?_, rfl⟩
    rw [hsame.workerExecutions, hupdate']
    refine (Table.get?_updateAt _ _ _ _).trans ?_
    rw [if_pos rfl, he]
    rfl
  · rw [hsame.assignments, hupdate']
    rfl

/-- Settled rows stay settled. -/
theorem Settled.other (hs : l.Settled w.state) {c : OtherCall} (h : c.run rules w = (.ok u, w')) :
    l.Settled w'.state := by
  obtain ⟨e, he, hfinished⟩ := hs.execution
  cases c with
  | fail assignmentId actorId failureCode x =>
    obtain ⟨hsame, -⟩ := OtherCall.fail_ok h
    refine ⟨?_, ⟨e, hsame.workerExecutions ▸ he, hfinished⟩⟩
    rw [TaskClosed, hsame.tasks]
    exact hs.task
  | recover runId now draws =>
    have hsame := cleanupRunResources_tables h
    refine ⟨?_, ?_⟩
    · rw [TaskClosed, hsame.tasks]
      exact hs.task.kept
    · rw [hsame.workerExecutions]
      exact closeWorkerExecutions_finished he (.inr hfinished)

/-- Open rows stay open or are settled. -/
theorem Opened.other (ho : l.Opened w.state) {c : OtherCall} (h : c.run rules w = (.ok u, w')) :
    l.Opened w'.state ∨ l.Settled w'.state := by
  obtain ⟨hruns, hprojects, -, -, -⟩ := c.run_ok h
  obtain ⟨e, he, hrunId⟩ := ho.execution
  cases c with
  | fail assignmentId actorId failureCode x =>
    obtain ⟨hsame, -⟩ := OtherCall.fail_ok h
    refine .inl ⟨?_, ⟨e, hsame.workerExecutions ▸ he, hrunId⟩, hruns ▸ ho.run, hprojects ▸ ho.project⟩
    rw [TaskRunning, hsame.tasks]
    exact ho.task
  | recover runId now draws =>
    have hsame := cleanupRunResources_tables h
    by_cases hsameRun : l.runId = runId
    · subst hsameRun
      refine .inr ⟨?_, ?_⟩
      · rw [TaskClosed, hsame.tasks]
        exact ho.task.recovered
      · rw [hsame.workerExecutions]
        exact closeWorkerExecutions_finished he (.inl hrunId)
    · refine .inl ⟨?_, ?_, hruns ▸ ho.run, hprojects ▸ ho.project⟩
      · rw [TaskRunning, hsame.tasks]
        exact ho.task.kept hsameRun
      · refine ⟨e, ?_, hrunId⟩
        rw [hsame.workerExecutions]
        exact closeWorkerExecutions_kept he (hrunId ▸ hsameRun)

/-- The end of a launch whose rows are open goes through. -/
theorem finish_returns (ho : l.Opened d) (hbindable : locals.isBindable = true) :
    Txn.Returns (finishExecution l locals now) d fun _ _ => True := by
  obtain ⟨t, ht, -, -⟩ := ho.task
  refine .step (run_execute (a := ()) rfl) ?_
  refine .step (Txn.run_ensure hbindable) ?_
  refine .step (run_execute (a := ()) rfl) ?_
  refine .of_run (run_execute (if_pos ⟨ho.project, ho.run, ?_⟩)) trivial
  refine (congrArg Option.isSome (Table.get?_updateAt _ _ _ _)).trans ?_
  rw [if_pos rfl, ht]
  rfl

end WorkerLaunch

/-! ### Runs -/

/-- What the transactions of a launch and of the other processes do to its rows: a reservation opens
    them, an end settles them, a `Ready` end of open rows goes through, and another process leaves
    open rows open or settles them if it is `Safe`. -/
structure Settles (rules : ReviewRules) (launch : Launch) (Opened Settled : ReviewDatabase → Prop)
    (Safe : OtherCall → Prop) (Ready : Locals → Draw → ReviewDatabase → Prop) : Prop where
  reserve : ∀ {now x w w'}, launch.reserve now x w = (.ok (), w') →
    AssignmentsInv rules w.state.assignments →
    (∀ run, w.state.runs.get? launch.runId = some run → run.projectId = launch.projectId) →
    Opened w'.state ∧ AssignmentsInv rules w'.state.assignments
  finish : ∀ {locals now x w w'}, launch.finish locals now x w = (.ok (), w') →
    AssignmentsInv rules w.state.assignments → Opened w.state ∨ Settled w.state →
    Settled w'.state ∧ AssignmentsInv rules w'.state.assignments
  returns : ∀ {locals now x d}, AssignmentsInv rules d.assignments → Opened d →
    (.parseOutput ∈ launch.trySteps → locals.success = true → locals.review.isSome = true) →
    Ready locals x d → Txn.Returns (launch.finish locals now x) d fun _ _ => True
  opened : ∀ {c : OtherCall} {w w'}, c.run rules w = (.ok (), w') → Opened w.state → Safe c →
    Opened w'.state ∨ Settled w'.state
  settled : ∀ {c : OtherCall} {w w'}, c.run rules w = (.ok (), w') → Settled w.state → Settled w'.state

theorem ReviewLaunch.settles (rules : ReviewRules) (l : ReviewLaunch) :
    Settles rules (l.launch rules) l.Opened l.Settled (OtherCall.spares l.assignmentId)
      (l.Ready rules) := by
  refine ⟨ReviewLaunch.reserve_ok, ?_, ?_, fun h ho hsafe => ho.other hsafe h, fun h hs => hs.other h⟩
  · intro locals now x w w' h hI hrows
    have hstored : (w.state.tasks.get? l.taskId).isSome = true ∧
        (w.state.executions.get? l.executionId).isSome = true := by
      rcases hrows with ho | hs
      · obtain ⟨e, he, -⟩ := ho.execution
        exact ⟨ho.task.isSome, Option.isSome_of_eq_some he⟩
      · obtain ⟨e, he, -⟩ := hs.execution
        exact ⟨hs.task.isSome, Option.isSome_of_eq_some he⟩
    exact ReviewLaunch.finish_ok h hI hstored.1 hstored.2
  · intro locals now x d hI ho hparsed hready
    exact ReviewLaunch.finish_returns hI ho (hparsed (by simp [ReviewLaunch.launch])) hready

theorem WorkerLaunch.settles (rules : ReviewRules) (l : WorkerLaunch) :
    Settles rules l.launch l.Opened l.Settled (fun _ => True) fun locals _ _ => locals.isBindable = true := by
  refine ⟨?_, ?_, ?_, fun h ho _ => ho.other h, fun h hs => hs.other h⟩
  · intro now x w w' h hI hloaded
    obtain ⟨hopened, hsame⟩ := WorkerLaunch.reserve_ok h hloaded
    exact ⟨hopened, hsame ▸ hI⟩
  · intro locals now x w w' h hI hrows
    have hstored : (w.state.tasks.get? l.taskId).isSome = true ∧
        (w.state.workerExecutions.get? l.executionId).isSome = true := by
      rcases hrows with ho | hs
      · obtain ⟨e, he, -⟩ := ho.execution
        exact ⟨ho.task.isSome, Option.isSome_of_eq_some he⟩
      · obtain ⟨e, he, -⟩ := hs.execution
        exact ⟨hs.task.isSome, Option.isSome_of_eq_some he⟩
    obtain ⟨hsettled, hsame⟩ := WorkerLaunch.finish_ok h hstored.1 hstored.2
    exact ⟨hsettled, hsame ▸ hI⟩
  · intro locals now x d _ ho _ hbindable
    exact WorkerLaunch.finish_returns ho hbindable

section Machine

variable {launch : Launch} {Opened Settled : ReviewDatabase → Prop} {Safe : OtherCall → Prop}
  {Ready : Locals → Draw → ReviewDatabase → Prop} {s : LaunchState}

/-- The rows have ended, or the step keeps the process on its way to the end: `docker ps` and the steps of
    the `finally` block return, the last transaction is on a connection that does not fail and `Ready`,
    and the calls of the other processes are `Safe`. -/
def Undisturbed (Settled : ReviewDatabase → Prop) (Safe : OtherCall → Prop)
    (Ready : Locals → Draw → ReviewDatabase → Prop) (a : LaunchAction) (s : LaunchState) : Prop :=
  Settled s.database ∨
    match a, s.phase with
    | .list returns, .listing => returns = true
    | .clean returns, .cleaning _ => returns = true
    | .finish _ x left, .cleaning [] => left = none ∧ Ready s.locals x s.database
    | .other c _, .listing => Safe c
    | .other c _, .trying _ => Safe c
    | .other c _, .cleaning _ => Safe c
    | _, _ => True

/-- A process whose steps have all returned has parsed a review. -/
def Parsed (launch : Launch) (s : LaunchState) : Prop :=
  .parseOutput ∈ launch.trySteps →
    match s.phase with
    | .cleaning _ => s.locals.success = true → s.locals.review.isSome = true
    | .trying rest => s.locals.success = false ∧ (s.locals.review.isSome = true ∨ .parseOutput ∈ rest)
    | .ended => True
    | _ => s.locals.success = false

/-- What every undisturbed run keeps. -/
structure LaunchInv (rules : ReviewRules) (launch : Launch) (Opened Settled : ReviewDatabase → Prop)
    (s : LaunchState) : Prop where
  assignments : AssignmentsInv rules s.database.assignments
  loaded : s.phase = .reserving →
    ∀ run, s.database.runs.get? launch.runId = some run → run.projectId = launch.projectId
  parsed : Parsed launch s
  rows : match s.phase with
    | .reserving => True
    | .refused => True
    | .ended => Settled s.database
    | _ => Opened s.database ∨ Settled s.database

theorem caught_kept (l : Locals) (r : Raised) : (l.caught r).success = l.success ∧
    (l.caught r).review = l.review := by
  cases r with
  | runtime kind message exitStatus persisted => exact ⟨rfl, rfl⟩
  | exception message => exact ⟨rfl, rfl⟩
  | uncaught => exact ⟨rfl, rfl⟩

/-- A step does not set `success`, and a review stays. -/
theorem assign_kept (step : TryStep) (value : step.Value) (l : Locals) :
    (step.assign value l).1.success = l.success ∧
      (l.review.isSome = true ∨ step = .parseOutput → (step.assign value l).1.review.isSome = true) := by
  cases step with
  | parseOutput => exact ⟨rfl, fun _ => rfl⟩
  | _ => exact ⟨rfl, fun h => h.elim id (fun h => by cases h)⟩

theorem parsed_leave {l : Locals} (h : l.success = true → l.review.isSome = true) :
    Parsed launch (s.leave launch l) := fun _ => h

theorem Parsed.attempt {step : TryStep} {rest : List TryStep} (hP : Parsed launch s)
    (hphase : s.phase = .trying (step :: rest)) (outcome : Except Raised step.Value) :
    Parsed launch (s.attempt launch step outcome rest) := by
  by_cases hmem : .parseOutput ∈ launch.trySteps
  swap
  · exact fun h => absurd h hmem
  have hparsed := hP hmem
  rw [hphase] at hparsed
  obtain ⟨hsuccess, hreview⟩ := hparsed
  unfold LaunchState.attempt
  cases outcome with
  | error r =>
    refine parsed_leave fun h => ?_
    rw [(caught_kept s.locals r).1, hsuccess] at h
    cases h
  | ok value =>
    obtain ⟨hkept, hassigned⟩ := assign_kept step value s.locals
    rw [hsuccess] at hkept
    rcases hassign : step.assign value s.locals with ⟨l, raised⟩
    rw [hassign] at hkept hassigned
    simp only [hassign]
    cases raised with
    | some r =>
      refine parsed_leave fun h => ?_
      rw [(caught_kept l r).1, hkept] at h
      cases h
    | none =>
      simp only
      split
      · rename_i hrest
        refine parsed_leave fun _ => hassigned (hreview.imp id fun h => ?_)
        rw [hrest, List.mem_singleton] at h
        exact h.symm
      · refine fun _ => ⟨hkept, ?_⟩
        rcases hreview with h | h
        · exact .inl (hassigned (.inl h))
        · rcases List.mem_cons.1 h with h | h
          · exact .inl (hassigned (.inr h.symm))
          · exact .inr h

/-- A step of the `try` block leads to the next one or to the `finally` block, and writes no row. -/
theorem attempt_phase (step : TryStep) (outcome : Except Raised step.Value) (rest : List TryStep)
    (s : LaunchState) :
    (s.attempt launch step outcome rest).database = s.database ∧
      ((∃ steps, (s.attempt launch step outcome rest).phase = .trying steps) ∨
        ∃ steps, (s.attempt launch step outcome rest).phase = .cleaning steps) := by
  unfold LaunchState.attempt
  cases outcome with
  | error r => exact ⟨rfl, .inr ⟨_, rfl⟩⟩
  | ok value =>
    rcases hassign : step.assign value s.locals with ⟨l, _ | r⟩
    · simp only [hassign]
      by_cases hrest : rest = []
      · rw [if_pos hrest]
        exact ⟨rfl, .inr ⟨_, rfl⟩⟩
      · rw [if_neg hrest]
        exact ⟨rfl, .inl ⟨_, rfl⟩⟩
    · simp only [hassign]
      exact ⟨rfl, .inr ⟨_, rfl⟩⟩

/-- Other processes leave settled rows settled. -/
theorem Settles.stays (hS : Settles rules launch Opened Settled Safe Ready) (c : OtherCall)
    (left : Option Nat) (hs : Settled d) : Settled (Txn.atomically left (c.run rules) d).2 := by
  rcases hrun : Txn.atomically left (c.run rules) d with ⟨e | u, d'⟩
  · rw [Txn.atomically_error hrun]
    exact hs
  · obtain ⟨v, hv, rfl⟩ := Txn.atomically_ok.1 hrun
    exact hS.settled hv hs

/-- The rows while other processes act. -/
theorem Settles.other (hS : Settles rules launch Opened Settled Safe Ready) {c : OtherCall}
    {left : Option Nat} (hrows : Opened d ∨ Settled d) (hsafe : Settled d ∨ Safe c) :
    Opened (Txn.atomically left (c.run rules) d).2 ∨ Settled (Txn.atomically left (c.run rules) d).2 := by
  rcases hsafe with hs | hsafe
  · exact .inr (hS.stays c left hs)
  rcases hrows with ho | hs
  · rcases hrun : Txn.atomically left (c.run rules) d with ⟨e | u, d'⟩
    · rw [Txn.atomically_error hrun]
      exact .inl ho
    · obtain ⟨v, hv, rfl⟩ := Txn.atomically_ok.1 hrun
      exact hS.opened hv ho hsafe
  · exact .inr (hS.stays c left hs)

/-- The end of the process settles its rows. -/
theorem Settles.finish_settled (hS : Settles rules launch Opened Settled Safe Ready) {locals : Locals}
    {now : String} {x : Draw} {left : Option Nat} (hI : AssignmentsInv rules d.assignments)
    (hrows : Opened d ∨ Settled d)
    (hparsed : .parseOutput ∈ launch.trySteps → locals.success = true → locals.review.isSome = true)
    (hready : Settled d ∨ left = none ∧ Ready locals x d) :
    Settled (Txn.atomically left (launch.finish locals now x) d).2 ∧
      AssignmentsInv rules (Txn.atomically left (launch.finish locals now x) d).2.assignments := by
  rcases hrun : Txn.atomically left (launch.finish locals now x) d with ⟨e | u, d'⟩
  · have hsame := Txn.atomically_error hrun
    subst hsame
    refine ⟨?_, hI⟩
    -- open rows do not refuse a ready end
    rcases hrows with ho | hs
    · rcases hready with hs | ⟨rfl, hready⟩
      · exact hs
      · obtain ⟨_, d₁, hreturns, -⟩ := hS.returns hI ho hparsed hready
        rw [Txn.atomically, hreturns] at hrun
        cases hrun
    · exact hs
  · obtain ⟨v, hv, rfl⟩ := Txn.atomically_ok.1 hrun
    exact hS.finish hv hI hrows

theorem LaunchInv.reserve (hS : Settles rules launch Opened Settled Safe Ready)
    (hI : LaunchInv rules launch Opened Settled s) (now : String) (x : Draw) (left : Option Nat) :
    LaunchInv rules launch Opened Settled (LaunchState.step rules launch (.reserve now x left) s) := by
  cases hphase : s.phase with
  | reserving =>
    have hparsed : .parseOutput ∈ launch.trySteps → s.locals.success = false := by
      intro hmem
      have hinitial := hI.parsed hmem
      rw [hphase] at hinitial
      exact hinitial
    rcases hrun : Txn.atomically left (launch.reserve now x) s.database with ⟨e | u, d⟩
    · simp only [LaunchState.step, hphase, hrun]
      exact ⟨hI.assignments, (fun h => by cases h), hparsed, trivial⟩
    · simp only [LaunchState.step, hphase, hrun]
      obtain ⟨v, hv, rfl⟩ := Txn.atomically_ok.1 hrun
      obtain ⟨hopened, hinv⟩ := hS.reserve hv hI.assignments (hI.loaded hphase)
      exact ⟨hinv, (fun h => by cases h), hparsed, .inl hopened⟩
  | _ =>
    simp only [LaunchState.step, hphase]
    exact hI

theorem LaunchInv.list (hI : LaunchInv rules launch Opened Settled s) {returns : Bool}
    (hok : Undisturbed Settled Safe Ready (.list returns) s) :
    LaunchInv rules launch Opened Settled (LaunchState.step rules launch (.list returns) s) := by
  have hparsed := hI.parsed
  have hrows := hI.rows
  cases hphase : s.phase with
  | listing =>
    simp only [LaunchState.step, hphase, Undisturbed, Parsed] at hok hparsed hrows ⊢
    cases returns with
    | true => exact ⟨hI.assignments, (fun h => by cases h), fun hmem => ⟨hparsed hmem, .inr hmem⟩, hrows⟩
    | false =>
      exact ⟨hI.assignments, (fun h => by cases h), fun _ => trivial, hok.resolve_right Bool.false_ne_true⟩
  | _ =>
    simp only [LaunchState.step, hphase]
    exact hI

theorem LaunchInv.attempt (hI : LaunchInv rules launch Opened Settled s) (step : TryStep)
    (outcome : Except Raised step.Value) :
    LaunchInv rules launch Opened Settled (LaunchState.step rules launch (.attempt step outcome) s) := by
  cases hphase : s.phase with
  | trying steps =>
    cases steps with
    | nil =>
      simp only [LaunchState.step, hphase]
      exact hI
    | cons next rest =>
      simp only [LaunchState.step, hphase]
      split
      · rename_i hnext
        subst hnext
        have hparsed := hI.parsed.attempt hphase outcome
        have hrows := hI.rows
        rw [hphase] at hrows
        obtain ⟨hdatabase, hnext⟩ : (s.attempt launch next outcome rest).database = s.database ∧ _ :=
          attempt_phase next outcome rest s
        rw [← hdatabase] at hrows
        refine ⟨hdatabase ▸ hI.assignments, ?_, hparsed, ?_⟩
        · intro hreserving
          rcases hnext with ⟨steps, hsteps⟩ | ⟨steps, hsteps⟩
          · rw [hsteps] at hreserving
            cases hreserving
          · rw [hsteps] at hreserving
            cases hreserving
        · rcases hnext with ⟨steps, hsteps⟩ | ⟨steps, hsteps⟩
          · rw [hsteps]
            exact hrows
          · rw [hsteps]
            exact hrows
      · exact hI
  | _ =>
    simp only [LaunchState.step, hphase]
    exact hI

theorem LaunchInv.clean (hI : LaunchInv rules launch Opened Settled s) {returns : Bool}
    (hok : Undisturbed Settled Safe Ready (.clean returns) s) :
    LaunchInv rules launch Opened Settled (LaunchState.step rules launch (.clean returns) s) := by
  have hparsed := hI.parsed
  have hrows := hI.rows
  cases hphase : s.phase with
  | cleaning steps =>
    cases steps with
    | nil =>
      simp only [LaunchState.step, hphase]
      exact hI
    | cons _ rest =>
      simp only [LaunchState.step, hphase, Undisturbed, Parsed] at hok hparsed hrows ⊢
      cases returns with
      | true => exact ⟨hI.assignments, (fun h => by cases h), hparsed, hrows⟩
      | false =>
        exact ⟨hI.assignments, (fun h => by cases h), fun _ => trivial, hok.resolve_right Bool.false_ne_true⟩
  | _ =>
    simp only [LaunchState.step, hphase]
    exact hI

theorem LaunchInv.finish (hS : Settles rules launch Opened Settled Safe Ready)
    (hI : LaunchInv rules launch Opened Settled s) {now : String} {x : Draw} {left : Option Nat}
    (hok : Undisturbed Settled Safe Ready (.finish now x left) s) :
    LaunchInv rules launch Opened Settled (LaunchState.step rules launch (.finish now x left) s) := by
  have hparsed := hI.parsed
  have hrows := hI.rows
  cases hphase : s.phase with
  | cleaning steps =>
    cases steps with
    | nil =>
      simp only [LaunchState.step, hphase, Undisturbed, Parsed] at hok hparsed hrows ⊢
      obtain ⟨hsettled, hinv⟩ : Settled (Txn.atomically left (launch.finish s.locals now x) s.database).2 ∧
          _ := hS.finish_settled hI.assignments hrows hparsed hok
      exact ⟨hinv, (fun h => by cases h), fun _ => trivial, hsettled⟩
    | cons _ rest =>
      simp only [LaunchState.step, hphase]
      exact hI
  | _ =>
    simp only [LaunchState.step, hphase]
    exact hI

theorem LaunchInv.other (hS : Settles rules launch Opened Settled Safe Ready)
    (hI : LaunchInv rules launch Opened Settled s) {c : OtherCall} {left : Option Nat}
    (hok : Undisturbed Settled Safe Ready (.other c left) s) :
    LaunchInv rules launch Opened Settled (LaunchState.step rules launch (.other c left) s) := by
  have hparsed := hI.parsed
  have hrows := hI.rows
  have hkept : (Txn.atomically left (c.run rules) s.database).2.runs = s.database.runs ∧
      AssignmentsInv rules (Txn.atomically left (c.run rules) s.database).2.assignments := by
    rcases hrun : Txn.atomically left (c.run rules) s.database with ⟨e | u, d⟩
    · rw [Txn.atomically_error hrun]
      exact ⟨rfl, hI.assignments⟩
    · obtain ⟨v, hv, rfl⟩ := Txn.atomically_ok.1 hrun
      obtain ⟨hruns, -, -, -, hinv⟩ := c.run_ok hv
      exact ⟨hruns, hinv hI.assignments⟩
  rw [LaunchState.step_other]
  refine ⟨hkept.2, fun h => hkept.1 ▸ hI.loaded h, hparsed, ?_⟩
  cases hphase : s.phase with
  | reserving => trivial
  | refused => trivial
  | ended =>
    rw [hphase] at hrows
    exact hS.stays c left hrows
  | _ =>
    simp only [Undisturbed, hphase] at hok hrows
    exact hS.other hrows hok

/-- One undisturbed step. -/
theorem LaunchInv.step (hS : Settles rules launch Opened Settled Safe Ready)
    (hI : LaunchInv rules launch Opened Settled s) {a : LaunchAction}
    (hok : Undisturbed Settled Safe Ready a s) :
    LaunchInv rules launch Opened Settled (LaunchState.step rules launch a s) := by
  cases a with
  | reserve now x left => exact hI.reserve hS now x left
  | list returns => exact hI.list hok
  | attempt step outcome => exact hI.attempt step outcome
  | clean returns => exact hI.clean hok
  | finish now x left => exact hI.finish hS hok
  | other c left => exact hI.other hS hok

/-- The rows of a process that has ended have ended. -/
theorem Settles.ended (hS : Settles rules launch Opened Settled Safe Ready)
    (hs : (launchMachine rules launch).Reachable (Undisturbed Settled Safe Ready) s)
    (hphase : s.phase = .ended) : Settled s.database := by
  have hI : LaunchInv rules launch Opened Settled s := by
    refine Machine.invariant ?_ ?_ hs
    · rintro s ⟨hreserving, hinitial, hloaded, w, hw, hsame⟩
      refine ⟨hsame ▸ (worldInv_reachable hw).committed, fun _ => hloaded, ?_, ?_⟩
      · intro _
        rw [hreserving, hinitial]
        rfl
      · rw [hreserving]
        trivial
    · intro a s _ hok hI
      exact hI.step hS hok
  have hrows := hI.rows
  rw [hphase] at hrows
  exact hrows

end Machine

/-- In every undisturbed run of a reviewer or of a worker the process ends with its task `COMPLETED` or
    `FAILED`, its execution finished and its assignment ended, so that its task refuses no later
    reservation; it may end in any of its steps, and other processes may fail other assignments and
    recover any run in between. -/
theorem launch_settles (rules : ReviewRules) :
    (∀ (l : ReviewLaunch) s, (launchMachine rules (l.launch rules)).Reachable
      (Undisturbed l.Settled (OtherCall.spares l.assignmentId) (l.Ready rules)) s → s.phase = .ended →
      l.Settled s.database ∧ ∀ t, (l.taskId, t) ∉ s.database.activeTasks l.runId) ∧
    ∀ (l : WorkerLaunch) s, (launchMachine rules l.launch).Reachable
      (Undisturbed l.Settled (fun _ => True) fun locals _ _ => locals.isBindable = true) s →
      s.phase = .ended →
      l.Settled s.database ∧ ∀ t, (l.taskId, t) ∉ s.database.activeTasks l.runId := by
  refine ⟨?_, ?_⟩
  · intro l s hs hphase
    have hsettled := (l.settles rules).ended hs hphase
    exact ⟨hsettled, hsettled.task.inactive⟩
  · intro l s hs hphase
    have hsettled := (l.settles rules).ended hs hphase
    exact ⟨hsettled, hsettled.task.inactive⟩

/-- A reviewer's launch with its assignment. -/
def sampleLaunch : ReviewLaunch where
  runId := "run-1"
  projectId := "project-1"
  roleId := "reviewer"
  sourceProfile := "ops-reviewer"
  assignmentId := "review-assignment-" ++ (sampleDraw "1").hex
  taskHex := (sampleDraw "2").hex
  executionHex := (sampleDraw "3").hex
  reviewHex := (sampleDraw "4").hex

def sampleAssigned : AssignmentWorld :=
  (assignmentMachine sampleRules).run ⟨sampleDatabase, none⟩
    [ .begin, .call (.create "run-1" "attempt-1" "reviewer" "orchestrator:attempt-1" (sampleDraw "1")) none,
      .commit ]

def sampleStart : LaunchState where
  phase := .reserving
  locals := .initial
  database := { sampleDatabase with assignments := sampleAssigned.committed.assignments }

def sampleMachine : Machine LaunchAction LaunchState :=
  launchMachine sampleRules (sampleLaunch.launch sampleRules)

theorem sampleStart_starts : sampleMachine.start sampleStart := by
  refine ⟨rfl, rfl, ?_, sampleAssigned, ?_, by simp only [sampleStart]⟩
  · intro run hrun
    change some ⟨"project-1", .reviewing⟩ = some run at hrun
    cases hrun
    rfl
  · exact Machine.Reachable.run (.start ⟨rfl, rfl⟩) (by simp [Machine.Along])

@[irreducible] def sampleReserved : LaunchState :=
  sampleMachine.step (.reserve "2026-01-02T03:04:05.000Z" (sampleDraw "5") none) sampleStart

theorem sampleReserved_database : sampleReserved.phase = .listing ∧
    (sampleReserved.database.tasks.get? sampleLaunch.taskId).map LaunchTask.status = some .running ∧
    (sampleReserved.database.assignments.get? sampleLaunch.assignmentId).map Assignment.assignmentNumber =
      some 1 ∧
    (∀ row ∈ sampleReserved.database.journal.rows, row.eventId ≠ "evt_" ++ (sampleDraw "6").eventHex) ∧
    sampleReserved.database.journal.lastSequence + 1 < 2 ^ 63 := by
  decide +kernel

/-- The reservation writes no variable. -/
theorem reserve_locals {launch : Launch} (now : String) (x : Draw) (left : Option Nat) (s : LaunchState) :
    (LaunchState.step rules launch (.reserve now x left) s).locals = s.locals := by
  unfold LaunchState.step
  cases s.phase with
  | reserving =>
    simp only
    split <;> rfl
  | _ => rfl

/-- A reviewer whose clone cannot be prepared has nothing to remove. -/
theorem run_unprepared {l : ReviewLaunch} {s : LaunchState} {message : PyText} (hphase : s.phase = .listing)
    (hlocals : s.locals = .initial) :
    (launchMachine rules (l.launch rules)).run s
      [.list true, .attempt .prepareClone (.error (.exception message))] =
        ⟨.cleaning [], Locals.initial.caught (.exception message), s.database⟩ := by
  simp only [Machine.run, launchMachine, LaunchState.step, hphase, ReviewLaunch.launch, LaunchState.attempt,
    LaunchState.leave, hlocals, if_true]
  rfl

section Undisturbed

variable {Settled : ReviewDatabase → Prop} {Safe : OtherCall → Prop}
  {Ready : Locals → Draw → ReviewDatabase → Prop} {s : LaunchState}

theorem undisturbed_reserve {now : String} {x : Draw} {left : Option Nat} :
    Undisturbed Settled Safe Ready (.reserve now x left) s := by
  refine .inr ?_
  cases s.phase <;> trivial

theorem undisturbed_list : Undisturbed Settled Safe Ready (.list true) s := by
  refine .inr ?_
  cases s.phase <;> trivial

theorem undisturbed_attempt {step : TryStep} {outcome : Except Raised step.Value} :
    Undisturbed Settled Safe Ready (.attempt step outcome) s := by
  refine .inr ?_
  cases s.phase <;> trivial

theorem undisturbed_finish {now : String} {x : Draw} (hphase : s.phase = .cleaning [])
    (hready : Ready s.locals x s.database) : Undisturbed Settled Safe Ready (.finish now x none) s := by
  refine .inr ?_
  rw [hphase]
  exact ⟨rfl, hready⟩

end Undisturbed

/-- A failing `docker ps` ends the process with its rows open. -/
theorem run_unlisted {l : ReviewLaunch} {s : LaunchState} (hphase : s.phase = .listing)
    (hrunning : (s.database.tasks.get? l.taskId).map LaunchTask.status = some .running) :
    (LaunchState.step rules (l.launch rules) (.list false) s).phase = .ended ∧
      ¬l.Settled (LaunchState.step rules (l.launch rules) (.list false) s).database := by
  simp only [LaunchState.step, hphase, Bool.false_eq_true, if_false, true_and]
  rintro ⟨⟨t, ht, hstatus⟩, -, -⟩
  rw [ht, Option.map_some, Option.some.injEq] at hrunning
  rw [hrunning] at hstatus
  rcases hstatus with h | h
  · cases h
  · cases h

theorem sampleReserved_locals : sampleReserved.locals = .initial := by
  unfold sampleReserved
  simp only [sampleMachine, launchMachine, reserve_locals, sampleStart]

theorem sampleReserved_reachable {ok : LaunchAction → LaunchState → Prop}
    (hok : ∀ now x left s, ok (.reserve now x left) s) : sampleMachine.Reachable ok sampleReserved := by
  unfold sampleReserved
  exact .step _ (.start sampleStart_starts) (hok _ _ _ _)

def sampleUnprepared : List LaunchAction :=
  [.list true, .attempt .prepareClone (.error (.exception (pyText "Command failed: git clone")))]

theorem sampleUnprepared_run : sampleMachine.run sampleReserved sampleUnprepared =
    ⟨.cleaning [], Locals.initial.caught (.exception (pyText "Command failed: git clone")),
      sampleReserved.database⟩ :=
  run_unprepared sampleReserved_database.1 sampleReserved_locals

theorem sampleReserved_ready : sampleLaunch.Ready sampleRules
    (Locals.initial.caught (.exception (pyText "Command failed: git clone"))) (sampleDraw "6")
    sampleReserved.database := by
  obtain ⟨-, -, hnumber, hunused, hspace⟩ := sampleReserved_database
  refine ⟨by decide, nofun, nofun, rfl, ?_⟩
  intro r hr
  rw [hr, Option.map_some, Option.some.injEq] at hnumber
  rw [hnumber]
  refine ⟨?_, ?_, ?_, rfl, hunused, hspace⟩
  · decide +kernel
  · decide +kernel
  · decide +kernel

theorem sampleLaunch_settled : sampleLaunch.Settled (sampleMachine.step
    (.finish "2026-01-02T03:05:05.000Z" (sampleDraw "6") none)
    (sampleMachine.run sampleReserved sampleUnprepared)).database := by
  have hrun := sampleUnprepared_run
  generalize hs : sampleMachine.run sampleReserved sampleUnprepared = s at hrun ⊢
  refine ((launch_settles sampleRules).1 sampleLaunch _ ?_ ?_).1
  · refine .step _ ?_ ?_
    · rw [← hs]
      exact Machine.Reachable.run (sampleReserved_reachable fun _ _ _ _ => undisturbed_reserve)
        ⟨undisturbed_list, undisturbed_attempt, trivial⟩
    · rw [hrun]
      exact undisturbed_finish rfl sampleReserved_ready
  · simp only [hrun, sampleMachine, launchMachine, LaunchState.step]

/-- A failing `docker ps` right after the reservation leaves the rows open. -/
theorem sampleLaunch_unsettled :
    ∃ s, sampleMachine.Reachable (fun _ _ => True) s ∧ s.phase = .ended ∧
      ¬sampleLaunch.Settled s.database := by
  obtain ⟨hphase, hrunning, -⟩ := sampleReserved_database
  refine ⟨_, .step (.list false) (sampleReserved_reachable fun _ _ _ _ => trivial) trivial, ?_⟩
  exact run_unlisted hphase hrunning

end HermesOps.Reviewer
