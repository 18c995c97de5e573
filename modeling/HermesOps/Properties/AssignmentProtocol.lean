import Mathlib.Logic.Relation
import HermesOps.Properties.JournalHistory
import HermesOps.Reviewer.Assignments

/-! The assignments of a run over every interleaving of the orchestrator, the reviewers and the recovery
    manager. A call that returns makes a few changes, each of them a new row with the next number or
    a move of one active row that the constraints of the table have let through; the numbers of a
    run, its only active row and the canonical times follow from the changes. -/

namespace HermesOps.Reviewer

open Controller Schemes

/-! ### Changes -/

/-- The moves of a status. -/
inductive StatusStep : AssignmentStatus → AssignmentStatus → Prop
  | claim : StatusStep .assigned .claimed
  | complete : StatusStep .claimed .completed
  | fail {s : AssignmentStatus} : s ∈ activeStatuses → StatusStep s .failed

/-- The row has moved, with its identity. -/
structure Moved (r r' : Assignment) : Prop where
  identity : r.withState r'.state = some r'
  status : StatusStep r.state.status r'.state.status

abbrev Assignments : Type := Table String Assignment

/-- The rows of a run. -/
def ofRun (runId : String) : String → Assignment → Bool := fun _ r => r.runId = runId

def Assignments.numbers (t : Assignments) (runId : String) : List Nat :=
  (t.select (ofRun runId)).map fun x => x.2.assignmentNumber

variable {rules : ReviewRules}

/-- One statement that changes the table, as the constraints and triggers let it through. -/
inductive Change (rules : ReviewRules) (d : ReviewDatabase) (t : Assignments) : Prop
  | create {id : String} {r : Assignment} : d.assignments.insert id r = some t →
      insertAllowed rules d id r = true → r.state = .new →
      r.assignmentNumber = (Assignments.numbers d.assignments r.runId).foldl max 0 + 1 → Change rules d t
  | move {id : String} {r r' : Assignment} : d.assignments.get? id = some r → Moved r r' →
      updateAllowed rules d id r r' = true → t = d.assignments.updateAt id (fun _ => r') → Change rules d t

/-- The tables without the two that only record. -/
def ReviewDatabase.core (d : ReviewDatabase) : ReviewDatabase :=
  { d with events := [], journal := .empty }

/-- The one change of a call, with what is recorded of it. -/
def Applied (rules : ReviewRules) (d d' : ReviewDatabase) : Prop :=
  ∃ t, Change rules d t ∧ d'.core = { d.core with assignments := t }

/-- What the statements of a call do to the tables, one after the other. -/
def Changes (rules : ReviewRules) : ReviewDatabase → ReviewDatabase → Prop :=
  Relation.ReflTransGen fun d d' => d'.core = d.core ∨ Applied rules d d'

theorem assignments_of_core {d d' : ReviewDatabase} (h : d'.core = d.core) :
    d'.assignments = d.assignments := by
  have hcore : d'.core.assignments = d.core.assignments := by rw [h]
  exact hcore

theorem Applied.change {d d' : ReviewDatabase} (h : Applied rules d d') :
    Change rules d d'.assignments := by
  obtain ⟨t, hchange, hcore⟩ := h
  have ht : d'.core.assignments = t := by rw [hcore]
  change Change rules d d'.core.assignments
  rw [ht]
  exact hchange

/-! ### Rows and statements -/

theorem withState_some {r r' : Assignment} {s : AssignmentState} (h : r.withState s = some r') :
    r'.state = s ∧ r.withState r'.state = some r' := by
  have hs : r'.state = s := by
    unfold Assignment.withState at h
    split at h
    · cases h
      rfl
    · cases h
  exact ⟨hs, hs ▸ h⟩

theorem Moved.kept {r r' : Assignment} (h : Moved r r') :
    r'.runId = r.runId ∧ r'.assignmentNumber = r.assignmentNumber := by
  have hid := h.identity
  unfold Assignment.withState at hid
  split at hid
  · have heq := Option.some.inj hid
    rw [← heq]
    exact ⟨rfl, rfl⟩
  · cases hid

variable {w w' : Work ReviewDatabase}

theorem query_ok {α : Type} {f : ReviewDatabase → α} {a : α} (h : query f w = (.ok a, w')) :
    a = f w.state ∧ w'.state = w.state := by
  have hs := Txn.statement_ok h
  simp only [Except.ok.injEq, Prod.mk.injEq] at hs
  exact ⟨hs.1.symm, hs.2.symm⟩

theorem execute_ok {α : Type} {f : ReviewDatabase → Option (α × ReviewDatabase)} {a : α}
    (h : execute f w = (.ok a, w')) : f w.state = some (a, w'.state) := by
  have hs := Txn.statement_ok h
  split at hs
  · rename_i x hx
    rw [hx, Except.ok.inj hs]
  · cases hs

theorem bind_require {α : Type} {test : Bool} {message : String} {f : Unit → Review α} {a : α}
    (h : (require test message >>= f) w = (.ok a, w')) : test = true ∧ f () w = (.ok a, w') := by
  obtain ⟨u, v, hrequire, h⟩ := Txn.bind_ok.1 h
  obtain ⟨htest, rfl⟩ := Txn.ensure_ok.1 hrequire
  exact ⟨htest, h⟩

theorem insertAssignment_ok {id : String} {r : Assignment} {d d' : ReviewDatabase}
    (h : insertAssignment rules id r d = some ((), d')) :
    insertAllowed rules d id r = true ∧ ∃ t, d.assignments.insert id r = some t ∧
      d' = { d with assignments := t } := by
  unfold insertAssignment at h
  split at h
  · rename_i hallowed
    obtain ⟨t, ht, heq⟩ := Option.map_eq_some_iff.1 h
    cases heq
    exact ⟨hallowed, t, ht, rfl⟩
  · cases h

/-- An update of one row. -/
theorem updateAssignment_ok {id : String} {old : List AssignmentStatus}
    {f : AssignmentState → AssignmentState} {d d' : ReviewDatabase}
    (h : updateAssignment rules id old f d = some (1, d')) :
    ∃ r r', d.assignments.get? id = some r ∧ r.state.status ∈ old ∧
      r.withState (f r.state) = some r' ∧ updateAllowed rules d id r r' = true ∧
      d' = { d with assignments := d.assignments.updateAt id fun _ => r' } := by
  unfold updateAssignment at h
  split at h
  · cases h
  · rename_i r hr
    split at h
    · rename_i hold
      split at h
      · cases h
      · rename_i r' hr'
        split at h
        · rename_i hallowed
          cases h
          exact ⟨r, r', hr, hold, hr', hallowed, rfl⟩
        · cases h
    · cases h

/-- What a call does next to its change. -/
abbrev Quiet {α : Type} (x : Review α) : Prop := Txn.Keeps ReviewDatabase.core x

theorem quiet_insertEvent {e : EventRow} : Quiet (execute (insertEvent e)) := by
  refine Txn.Keeps.statement ?_
  intro d a d' h
  split at h
  · rename_i x hx
    cases h
    unfold insertEvent at hx
    split at hx
    · cases hx
      rfl
    · cases hx
  · cases h

theorem quiet_journal {eventType assignmentId actorId causationId projectId : String} {data : Json}
    {x : Draw} :
    Quiet (journal rules eventType assignmentId actorId causationId projectId data x) := by
  refine Txn.Keeps.bind Txn.Keeps.ensure ?_
  intro _
  refine Txn.Keeps.statement ?_
  intro d a d' h
  split at h
  · cases h
    rfl
  · cases h

theorem quiet_record {assignmentId runId projectId : String} {taskId : Option String}
    {legacyType eventType severity actorId causationId : String} {data : List (String × Json)} {x : Draw} :
    Quiet (record rules assignmentId runId projectId taskId legacyType eventType severity actorId
      causationId data x) :=
  Txn.Keeps.bind quiet_insertEvent fun _ => quiet_journal

/-! ### What each function does -/

theorem nextAssignmentNumber_ok {runId : String} {number : Nat}
    (h : nextAssignmentNumber runId w = (.ok number, w')) :
    number = (Assignments.numbers w.state.assignments runId).foldl max 0 + 1 ∧ w'.state = w.state := by
  obtain ⟨value, v, hvalue, h⟩ := Txn.bind_ok.1 h
  obtain ⟨-, h⟩ := bind_require h
  obtain ⟨rfl, rfl⟩ := Txn.pure_ok.1 h
  obtain ⟨rfl, hstate⟩ := query_ok hvalue
  exact ⟨rfl, hstate⟩

theorem role_ok {roleId : String} {r : Role} (h : role roleId w = (.ok r, w')) :
    w.state.roles.get? roleId = some r ∧ r.mayReview = true ∧ w'.state = w.state := by
  obtain ⟨found, v, hfound, h⟩ := Txn.bind_ok.1 h
  obtain ⟨rfl, hstate⟩ := query_ok hfound
  cases hrole : w.state.roles.get? roleId with
  | none =>
    rw [hrole] at h
    exact absurd h Txn.raise_ok
  | some r' =>
    rw [hrole] at h
    obtain ⟨hpolicy, h⟩ := bind_require h
    obtain ⟨rfl, rfl⟩ := Txn.pure_ok.1 h
    exact ⟨rfl, hpolicy, hstate⟩

theorem runProject_ok {runId projectId : String} (h : runProject runId w = (.ok projectId, w')) :
    (∃ run, w.state.runs.get? runId = some run ∧ run.projectId = projectId) ∧ w'.state = w.state := by
  obtain ⟨found, v, hfound, h⟩ := Txn.bind_ok.1 h
  obtain ⟨rfl, hstate⟩ := query_ok hfound
  cases hrun : w.state.runs.get? runId with
  | none =>
    rw [hrun] at h
    exact absurd h Txn.raise_ok
  | some run =>
    rw [hrun] at h
    obtain ⟨rfl, rfl⟩ := Txn.pure_ok.1 h
    exact ⟨⟨run, rfl, rfl⟩, hstate⟩

theorem loadAssignment_ok {assignmentId : String} {r : Assignment}
    (h : loadAssignment assignmentId w = (.ok r, w')) :
    w.state.assignments.get? assignmentId = some r ∧ w'.state = w.state := by
  obtain ⟨found, v, hfound, h⟩ := Txn.bind_ok.1 h
  obtain ⟨rfl, hstate⟩ := query_ok hfound
  cases hrow : w.state.assignments.get? assignmentId with
  | none =>
    rw [hrow] at h
    exact absurd h Txn.raise_ok
  | some r' =>
    rw [hrow] at h
    obtain ⟨rfl, rfl⟩ := Txn.pure_ok.1 h
    exact ⟨rfl, hstate⟩

/-- A created row is new, has the number that it was given, and passes the constraints. -/
theorem createAssignment_ok {runId attemptId roleId assignedBy : String} {number : Nat} {x : Draw}
    {created : Created}
    (h : createAssignment rules runId attemptId number roleId assignedBy x w = (.ok created, w')) :
    ∃ id r t, w.state.assignments.insert id r = some t ∧ insertAllowed rules w.state id r = true ∧
      r.state = .new ∧ r.runId = runId ∧ r.assignmentNumber = number ∧
      w'.state.core = { w.state.core with assignments := t } := by
  obtain ⟨-, h⟩ := bind_require h
  obtain ⟨-, h⟩ := bind_require h
  obtain ⟨-, h⟩ := bind_require h
  obtain ⟨-, h⟩ := bind_require h
  obtain ⟨r, v₅, hrole, h⟩ := Txn.bind_ok.1 h
  obtain ⟨projectId, v₆, hproject, h⟩ := Txn.bind_ok.1 h
  obtain ⟨attempt, v₇, hattempt, h⟩ := Txn.bind_ok.1 h
  obtain ⟨-, h⟩ := bind_require h
  obtain ⟨_, v₉, hinsert, h⟩ := Txn.bind_ok.1 h
  obtain ⟨_, v₁₀, hrecord, h⟩ := Txn.bind_ok.1 h
  obtain ⟨-, rfl⟩ := Txn.pure_ok.1 h
  have hstate : v₇.state = w.state :=
    (query_ok hattempt).2.trans ((runProject_ok hproject).2.trans (role_ok hrole).2.2)
  obtain ⟨hallowed, t, hrow, hnext⟩ := insertAssignment_ok (execute_ok hinsert)
  rw [hstate] at hallowed hrow hnext
  refine ⟨_, _, t, hrow, hallowed, rfl, rfl, rfl, ?_⟩
  rw [quiet_record _ _ _ hrecord, hnext]
  rfl

/-- One row has gone to the state that `f` gives it, past the constraints; nothing else has changed but what
    is recorded. -/
structure Updated (rules : ReviewRules) (id : String) (f : AssignmentState → AssignmentState)
    (r : Assignment) (d d' : ReviewDatabase) : Prop where
  row : d.assignments.get? id = some r
  written : ∃ r', r.withState (f r.state) = some r' ∧ updateAllowed rules d id r r' = true ∧
    d'.core = { d.core with assignments := d.assignments.updateAt id fun _ => r' }

/-- The change of the table. -/
theorem Updated.applied {id : String} {f : AssignmentState → AssignmentState} {r : Assignment}
    {d d' : ReviewDatabase} (h : Updated rules id f r d d')
    (hstep : StatusStep r.state.status (f r.state).status) : Applied rules d d' := by
  obtain ⟨r', hr', hallowed, hcore⟩ := h.written
  obtain ⟨hs, hidentity⟩ := withState_some hr'
  exact ⟨_, .move h.row ⟨hidentity, hs ▸ hstep⟩ hallowed rfl, hcore⟩

/-- An `UPDATE` that has counted one row, with what is recorded of it. -/
theorem updated_of_count {id : String} {old : List AssignmentStatus}
    {f : AssignmentState → AssignmentState} {r : Assignment} {count : Nat} {d : ReviewDatabase}
    (hrow : w.state.assignments.get? id = some r) (hcount : count = 1)
    (h : execute (updateAssignment rules id old f) w = (.ok count, w')) (hcore : d.core = w'.state.core) :
    Updated rules id f r w.state d := by
  subst hcount
  obtain ⟨r₀, r', hr₀, -, hr', hallowed, heq⟩ := updateAssignment_ok (execute_ok h)
  cases hrow.symm.trans hr₀
  exact ⟨hrow, r', hr', hallowed, by rw [hcore, heq]; rfl⟩

theorem claimAssignment_ok {assignmentId runId roleId sourceProfile executionId taskId : String} {x : Draw}
    {u : Unit} (h : claimAssignment rules assignmentId runId roleId sourceProfile executionId taskId x w =
      (.ok u, w')) :
    ∃ r, (r.state.status = .assigned ∧ r.runId = runId ∧ r.roleId = roleId ∧
        r.sourceProfile = sourceProfile) ∧ isAssignmentId assignmentId = true ∧
      Updated rules assignmentId (AssignmentState.claim executionId x.now) r w.state w'.state := by
  obtain ⟨hid, h⟩ := bind_require h
  obtain ⟨-, h⟩ := bind_require h
  obtain ⟨-, h⟩ := bind_require h
  obtain ⟨r, v₄, hload, h⟩ := Txn.bind_ok.1 h
  obtain ⟨hrow, hstate⟩ := loadAssignment_ok hload
  obtain ⟨hguard, h⟩ := bind_require h
  obtain ⟨count, v₆, hupdate, h⟩ := Txn.bind_ok.1 h
  obtain ⟨hcount, h⟩ := bind_require h
  obtain ⟨projectId, v₈, hproject, h⟩ := Txn.bind_ok.1 h
  rw [← hstate] at hrow ⊢
  refine ⟨r, of_decide_eq_true hguard, hid, updated_of_count hrow (of_decide_eq_true hcount) hupdate ?_⟩
  rw [quiet_record _ _ _ h, (runProject_ok hproject).2]

/-- The state that an assignment ends in. -/
def AssignmentState.finish (success : Bool) (reviewId code now : String) (s : AssignmentState) :
    AssignmentState :=
  if success then s.complete reviewId now else s.finishFailed code now

theorem finish_step {success : Bool} {reviewId code now : String} {s : AssignmentState}
    (h : s.status = .claimed) : StatusStep s.status (s.finish success reviewId code now).status := by
  rw [h]
  cases success with
  | true => exact .complete
  | false => exact .fail (by decide)

theorem finishAssignment_ok {assignmentId runId executionId taskId failureCode : String} {success : Bool}
    {reviewId : Option String} {x : Draw} {u : Unit}
    (h : finishAssignment rules assignmentId runId executionId taskId success reviewId failureCode x w =
      (.ok u, w')) :
    ∃ r, r.state.status = .claimed ∧ Updated rules assignmentId
      (AssignmentState.finish success (reviewId.getD "") failureCode x.now) r w.state w'.state := by
  obtain ⟨-, h⟩ := bind_require h
  obtain ⟨r, v₂, hload, h⟩ := Txn.bind_ok.1 h
  obtain ⟨hrow, hstate⟩ := loadAssignment_ok hload
  obtain ⟨hguard, h⟩ := bind_require h
  obtain ⟨projectId, v₄, hproject, h⟩ := Txn.bind_ok.1 h
  have hbefore : v₄.state = w.state := (runProject_ok hproject).2.trans hstate
  rw [← hbefore] at hrow ⊢
  refine ⟨r, (of_decide_eq_true hguard).1, ?_⟩
  cases success with
  | true =>
    rw [if_pos rfl] at h
    obtain ⟨-, h⟩ := bind_require h
    obtain ⟨count, v₆, hupdate, h⟩ := Txn.bind_ok.1 h
    obtain ⟨hcount, h⟩ := bind_require h
    exact updated_of_count hrow (of_decide_eq_true hcount) hupdate (quiet_record _ _ _ h)
  | false =>
    rw [if_neg Bool.false_ne_true] at h
    obtain ⟨-, h⟩ := bind_require h
    obtain ⟨count, v₆, hupdate, h⟩ := Txn.bind_ok.1 h
    obtain ⟨hcount, h⟩ := bind_require h
    exact updated_of_count hrow (of_decide_eq_true hcount) hupdate (quiet_record _ _ _ h)

/-- A late call on a row that has ended returns false and changes nothing. -/
theorem failActiveAssignment_ok {assignmentId actorId failureCode : String} {x : Draw} {ended : Bool}
    (h : failActiveAssignment rules assignmentId actorId failureCode x w = (.ok ended, w')) :
    ∃ r, w.state.assignments.get? assignmentId = some r ∧
      ((r.state.status ∈ terminalStatuses ∧ ended = false ∧ w'.state = w.state) ∨
        (r.state.status ∈ activeStatuses ∧ ended = true ∧
          Updated rules assignmentId (AssignmentState.fail failureCode x.now) r w.state w'.state)) := by
  obtain ⟨-, h⟩ := bind_require h
  obtain ⟨-, h⟩ := bind_require h
  obtain ⟨-, h⟩ := bind_require h
  obtain ⟨r, v₄, hload, h⟩ := Txn.bind_ok.1 h
  obtain ⟨hrow, hstate⟩ := loadAssignment_ok hload
  refine ⟨r, hrow, ?_⟩
  split at h
  · rename_i hterminal
    obtain ⟨rfl, rfl⟩ := Txn.pure_ok.1 h
    exact .inl ⟨hterminal, rfl, hstate⟩
  · obtain ⟨hactive, h⟩ := bind_require h
    obtain ⟨count, v₆, hupdate, h⟩ := Txn.bind_ok.1 h
    obtain ⟨hcount, h⟩ := bind_require h
    obtain ⟨projectId, v₈, hproject, h⟩ := Txn.bind_ok.1 h
    obtain ⟨_, v₉, hrecord, h⟩ := Txn.bind_ok.1 h
    obtain ⟨rfl, rfl⟩ := Txn.pure_ok.1 h
    rw [← hstate] at hrow ⊢
    refine .inr ⟨of_decide_eq_true hactive, rfl,
      updated_of_count hrow (of_decide_eq_true hcount) hupdate ?_⟩
    rw [quiet_record _ _ _ hrecord, (runProject_ok hproject).2]

/-- What the call changes, if anything. -/
theorem changes_of_fail {assignmentId actorId failureCode : String} {x : Draw} {ended : Bool}
    (h : failActiveAssignment rules assignmentId actorId failureCode x w = (.ok ended, w')) :
    Changes rules w.state w'.state := by
  obtain ⟨r, -, ⟨-, -, hsame⟩ | ⟨hactive, -, hupdated⟩⟩ := failActiveAssignment_ok h
  · exact .single (.inl (congrArg _ hsame))
  · exact .single (.inr (hupdated.applied (.fail hactive)))

theorem recoverEach_ok {actorId : String} {draws : Nat → Draw} {ids : List String} {before count : Nat}
    (h : recoverEach rules actorId ids draws before w = (.ok count, w')) :
    Changes rules w.state w'.state := by
  induction ids generalizing w before with
  | nil =>
    obtain ⟨-, rfl⟩ := Txn.pure_ok.1 h
    exact .refl
  | cons id ids ih =>
    obtain ⟨ended, v, hfail, h⟩ := Txn.bind_ok.1 h
    exact (changes_of_fail hfail).trans (ih h)

theorem recoverActiveAssignments_ok {runId actorId : String} {draws : Nat → Draw} {count : Nat}
    (h : recoverActiveAssignments rules runId actorId draws w = (.ok count, w')) :
    Changes rules w.state w'.state := by
  obtain ⟨ids, v, hids, h⟩ := Txn.bind_ok.1 h
  obtain ⟨-, hstate⟩ := query_ok hids
  rw [← hstate]
  exact recoverEach_ok h

/-- Whatever a call that returns has done to the table is a list of changes. -/
theorem Call.run_ok {c : Call} {u : Unit} (h : c.run rules w = (.ok u, w')) :
    Changes rules w.state w'.state := by
  cases c with
  | create runId attemptId roleId assignedBy x =>
    obtain ⟨number, v, hnumber, h⟩ := Txn.bind_ok.1 h
    obtain ⟨created, v', hcreate, h⟩ := Txn.bind_ok.1 h
    obtain ⟨-, rfl⟩ := Txn.pure_ok.1 h
    obtain ⟨rfl, hstate⟩ := nextAssignmentNumber_ok hnumber
    obtain ⟨id, r, t, hinsert, hallowed, hnew, hrun, hnumber, hcore⟩ := createAssignment_ok hcreate
    rw [hstate] at hinsert hallowed hcore
    rw [← hrun] at hnumber
    exact .single (.inr ⟨t, .create hinsert hallowed hnew hnumber, hcore⟩)
  | claim assignmentId runId roleId sourceProfile executionId taskId x =>
    obtain ⟨r, ⟨hstatus, -⟩, -, hupdated⟩ := claimAssignment_ok h
    exact .single (.inr (hupdated.applied (show StatusStep r.state.status .claimed from hstatus ▸ .claim)))
  | finish assignmentId runId executionId taskId success reviewId failureCode x =>
    obtain ⟨r, hstatus, hupdated⟩ := finishAssignment_ok h
    exact .single (.inr (hupdated.applied (finish_step hstatus)))
  | fail assignmentId actorId failureCode x =>
    obtain ⟨ended, v, hfail, h⟩ := Txn.bind_ok.1 h
    obtain ⟨-, rfl⟩ := Txn.pure_ok.1 h
    exact changes_of_fail hfail
  | recover runId actorId draws =>
    obtain ⟨count, v, hrecover, h⟩ := Txn.bind_ok.1 h
    obtain ⟨-, rfl⟩ := Txn.pure_ok.1 h
    exact recoverActiveAssignments_ok hrecover

/-! ### The invariant of the table -/

/-- What every reachable table satisfies. -/
structure AssignmentsInv (rules : ReviewRules) (t : Assignments) : Prop where
  numbered : ∀ runId, t.numbers runId = List.range' 1 (t.numbers runId).length
  single : ∀ {id₁ id₂ r₁ r₂}, t.get? id₁ = some r₁ → t.get? id₂ = some r₂ → r₁.runId = r₂.runId →
    r₁.state.isActive = true → r₂.state.isActive = true → id₁ = id₂
  times : t.All fun _ r => r.state.timesCanonical rules = true

theorem assignmentsInv_empty : AssignmentsInv rules (.empty : Assignments) := by
  refine ⟨?_, ?_, ?_⟩
  · intro runId
    rfl
  · intro id₁ id₂ r₁ r₂ h₁
    cases h₁
  · exact Table.All.empty

/-- No other row of the run is active. -/
theorem otherActive_false {d : ReviewDatabase} {id runId : String} (h : d.otherActive id runId = false)
    {id' : String} {r : Assignment} (hr : d.assignments.get? id' = some r) (hrun : r.runId = runId)
    (hactive : r.state.isActive = true) : id' = id := by
  by_contra hne
  have hnone := of_decide_eq_false (Table.any_eq_false_iff.1 h id' r hr)
  exact hnone ⟨hne, hrun, hactive⟩

theorem AssignmentsInv.create {d : ReviewDatabase} {t : Assignments} {id : String} {r : Assignment}
    (hI : AssignmentsInv rules d.assignments) (hinsert : d.assignments.insert id r = some t)
    (hallowed : insertAllowed rules d id r = true) (hnew : r.state = .new)
    (hnumber : r.assignmentNumber = (Assignments.numbers d.assignments r.runId).foldl max 0 + 1) :
    AssignmentsInv rules t := by
  obtain ⟨-, -, -, -, -, -, -, -, -, -, -, -, -, -, halone, -, htimes⟩ := of_decide_eq_true hallowed
  have hactive : r.state.isActive = true := by
    rw [hnew]
    rfl
  have hnone : d.otherActive id r.runId = false := by
    rw [hactive] at halone
    simpa using halone
  refine ⟨?_, ?_, hI.times.insert hinsert htimes⟩
  · intro runId
    have hselect := Table.select_insert hinsert (ofRun runId)
    rw [Assignments.numbers, hselect, List.map_append]
    have hold := hI.numbered runId
    rw [Assignments.numbers] at hold
    by_cases hrun : r.runId = runId
    · subst hrun
      rw [Assignments.numbers, hold, foldl_max_range'] at hnumber
      rw [if_pos (show ofRun r.runId id r = true from decide_eq_true rfl), List.map_singleton, hnumber,
        List.length_append, List.length_singleton, List.range'_1_concat, ← hold, Nat.add_comm 1]
    · rw [if_neg (by simpa [ofRun] using hrun), List.map_nil, List.append_nil]
      exact hold
  · intro id₁ id₂ r₁ r₂ h₁ h₂ hrun ha₁ ha₂
    rw [Table.get?_insert hinsert] at h₁ h₂
    split at h₁
    · rename_i heq₁
      cases h₁
      split at h₂
      · rename_i heq₂
        exact heq₁.trans heq₂.symm
      · rename_i hne
        exact absurd (otherActive_false hnone h₂ hrun.symm ha₂) hne
    · rename_i hne
      split at h₂
      · cases h₂
        exact absurd (otherActive_false hnone h₁ hrun ha₁) hne
      · exact hI.single h₁ h₂ hrun ha₁ ha₂

theorem AssignmentsInv.move {d : ReviewDatabase} {id : String} {r r' : Assignment}
    (hI : AssignmentsInv rules d.assignments) (hrow : d.assignments.get? id = some r) (hmoved : Moved r r')
    (hallowed : updateAllowed rules d id r r' = true) :
    AssignmentsInv rules (d.assignments.updateAt id fun _ => r') := by
  obtain ⟨-, -, -, -, htimes, -, -, halone⟩ := of_decide_eq_true hallowed
  obtain ⟨hrun, hnumber⟩ := hmoved.kept
  have hnone : r'.state.isActive = true → d.otherActive id r.runId = false := by
    intro hactive
    rw [hactive, hrun] at halone
    simpa using halone
  refine ⟨?_, ?_, ?_⟩
  · intro runId
    have hnumbers : Assignments.numbers (d.assignments.updateAt id fun _ => r') runId =
        Assignments.numbers d.assignments runId := by
      refine Table.map_select_updateAt (g := Assignment.assignmentNumber) ?_
      intro r₀ hr₀
      cases hrow.symm.trans hr₀
      exact ⟨by rw [ofRun, ofRun, hrun], hnumber⟩
    rw [hnumbers]
    exact hI.numbered runId
  · intro id₁ id₂ r₁ r₂ h₁ h₂ hsame ha₁ ha₂
    rw [Table.get?_updateAt] at h₁ h₂
    split at h₁
    · rename_i heq₁
      subst heq₁
      rw [hrow] at h₁
      cases h₁
      split at h₂
      · rename_i heq₂
        exact heq₂.symm
      · rename_i hne
        exact absurd (otherActive_false (hnone ha₁) h₂ (hsame.symm.trans hrun) ha₂) hne
    · rename_i hne
      split at h₂
      · rename_i heq₂
        subst heq₂
        rw [hrow] at h₂
        cases h₂
        exact absurd (otherActive_false (hnone ha₂) h₁ (hsame.trans hrun) ha₁) hne
      · exact hI.single h₁ h₂ hsame ha₁ ha₂
  · exact hI.times.updateAt fun _ _ _ => htimes

theorem Change.inv {d : ReviewDatabase} {t : Assignments} (hI : AssignmentsInv rules d.assignments)
    (h : Change rules d t) : AssignmentsInv rules t := by
  cases h with
  | create hinsert hallowed hnew hnumber => exact hI.create hinsert hallowed hnew hnumber
  | move hrow hmoved hallowed heq =>
    subst heq
    exact hI.move hrow hmoved hallowed

theorem Changes.inv {d d' : ReviewDatabase} (h : Changes rules d d')
    (hI : AssignmentsInv rules d.assignments) : AssignmentsInv rules d'.assignments := by
  induction h with
  | refl => exact hI
  | tail _ hstep ih =>
    rcases hstep with hcore | happlied
    · rw [assignments_of_core hcore]
      exact ih
    · exact happlied.change.inv ih

/-! ### The history of a row -/

/-- Every row is still there, and has only moved. -/
def Advances (t t' : Assignments) : Prop :=
  ∀ id r, t.get? id = some r → ∃ r', t'.get? id = some r' ∧ Relation.ReflTransGen Moved r r'

theorem Advances.refl (t : Assignments) : Advances t t := fun _ r h => ⟨r, h, .refl⟩

theorem Advances.trans {t t' t'' : Assignments} (h : Advances t t') (h' : Advances t' t'') :
    Advances t t'' := by
  intro id r hr
  obtain ⟨r', hr', hpath⟩ := h id r hr
  obtain ⟨r'', hr'', hpath'⟩ := h' id r' hr'
  exact ⟨r'', hr'', hpath.trans hpath'⟩

theorem Change.advances {d : ReviewDatabase} {t : Assignments} (h : Change rules d t) :
    Advances d.assignments t := by
  intro id r hr
  cases h with
  | @create id' r' hinsert _ _ _ =>
    refine ⟨r, ?_, .refl⟩
    rw [Table.get?_insert hinsert, if_neg]
    · exact hr
    · rintro rfl
      rw [Table.get?_of_insert hinsert] at hr
      cases hr
  | @move id' r₀ r' hrow hmoved _ heq =>
    subst heq
    rw [Table.get?_updateAt]
    by_cases hid : id = id'
    · subst hid
      cases hrow.symm.trans hr
      exact ⟨r', by rw [if_pos rfl, hr]; rfl, .single hmoved⟩
    · exact ⟨r, by rw [if_neg hid, hr], .refl⟩

theorem Changes.advances {d d' : ReviewDatabase} (h : Changes rules d d') :
    Advances d.assignments d'.assignments := by
  induction h with
  | refl => exact .refl _
  | tail _ hstep ih =>
    rcases hstep with hcore | happlied
    · rw [assignments_of_core hcore]
      exact ih
    · exact ih.trans happlied.change.advances

/-- A row that has ended does not move. -/
theorem Moved.active {r r' : Assignment} (h : Moved r r') : r.state.status ∉ terminalStatuses := by
  have hstep := h.status
  generalize r.state.status = s at hstep
  generalize r'.state.status = s' at hstep
  cases hstep with
  | claim => decide
  | complete => decide
  | fail hactive =>
    revert s
    decide

theorem terminal_kept {r r' : Assignment} (h : Relation.ReflTransGen Moved r r')
    (hterminal : r.state.status ∈ terminalStatuses) : r' = r := by
  rcases Relation.ReflTransGen.cases_head h with heq | ⟨r₁, hmoved, -⟩
  · exact heq.symm
  · exact absurd hterminal hmoved.active

/-! ### Runs -/

/-- The committed table and the one of the open transaction. -/
structure WorldInv (rules : ReviewRules) (w : AssignmentWorld) : Prop where
  committed : AssignmentsInv rules w.committed.assignments
  pending : ∀ d, w.pending = some d → AssignmentsInv rules d.assignments ∧
    Advances w.committed.assignments d.assignments

theorem WorldInv.step {w : AssignmentWorld} (hI : WorldInv rules w) (a : AssignmentAction) :
    WorldInv rules (AssignmentWorld.step rules a w) ∧
      Advances w.committed.assignments (AssignmentWorld.step rules a w).committed.assignments := by
  cases a with
  | begin =>
    simp only [AssignmentWorld.step]
    split
    · exact ⟨hI, .refl _⟩
    · refine ⟨⟨hI.committed, ?_⟩, .refl _⟩
      rintro d hd
      cases hd
      exact ⟨hI.committed, .refl _⟩
  | call c left =>
    simp only [AssignmentWorld.step]
    split
    · exact ⟨hI, .refl _⟩
    · rename_i d hd
      obtain ⟨hinv, hadvances⟩ := hI.pending d hd
      split
      · rename_i v hrun
        have hchanges := Call.run_ok hrun
        refine ⟨⟨hI.committed, ?_⟩, .refl _⟩
        rintro d' hd'
        cases hd'
        exact ⟨hchanges.inv hinv, hadvances.trans hchanges.advances⟩
      · refine ⟨⟨hI.committed, ?_⟩, .refl _⟩
        rintro d' hd'
        cases hd'
  | other f =>
    simp only [AssignmentWorld.step]
    refine ⟨⟨hI.committed, ?_⟩, .refl _⟩
    rintro d' hd'
    obtain ⟨d, hd, rfl⟩ := Option.map_eq_some_iff.1 hd'
    exact hI.pending d hd
  | commit =>
    simp only [AssignmentWorld.step]
    split
    · exact ⟨hI, .refl _⟩
    · rename_i d hd
      obtain ⟨hinv, hadvances⟩ := hI.pending d hd
      refine ⟨⟨hinv, ?_⟩, hadvances⟩
      rintro d' hd'
      cases hd'
  | rollback =>
    simp only [AssignmentWorld.step]
    refine ⟨⟨hI.committed, ?_⟩, .refl _⟩
    rintro d' hd'
    cases hd'

theorem worldInv_reachable {w : AssignmentWorld}
    (hw : (assignmentMachine rules).Reachable (fun _ _ => True) w) : WorldInv rules w := by
  refine Machine.invariant ?_ ?_ hw
  · rintro w ⟨hempty, hnone⟩
    refine ⟨?_, ?_⟩
    · rw [hempty]
      exact assignmentsInv_empty
    · rintro d hd
      rw [hnone] at hd
      cases hd
  · intro a w _ _ hI
    exact (hI.step a).1

theorem run_advances {w : AssignmentWorld} (hI : WorldInv rules w) (as : List AssignmentAction) :
    Advances w.committed.assignments ((assignmentMachine rules).run w as).committed.assignments := by
  induction as generalizing w with
  | nil => exact .refl _
  | cons a as ih =>
    obtain ⟨hnext, hadvances⟩ := hI.step a
    exact hadvances.trans (ih hnext)

/-! ### What the table refuses -/

/-- The constraints and triggers let the row have this state. -/
def Accepts (rules : ReviewRules) (d : ReviewDatabase) (id : String) (r : Assignment)
    (s : AssignmentState) : Prop :=
  ∃ r', r.withState s = some r' ∧ updateAllowed rules d id r r' = true

theorem assigned_state {s : AssignmentState} (h : s.isChecked = true) (hs : s.status = .assigned) :
    s = .new := by
  obtain ⟨hshape, -, -⟩ := of_decide_eq_true h
  obtain ⟨status, owner, execution, review, code, claimed, beat, finished⟩ := s
  cases hs
  simp only [AssignmentState.isShaped, decide_eq_true_eq, Option.isNone_iff_eq_none] at hshape
  obtain ⟨rfl, rfl, rfl, rfl, rfl, rfl, rfl⟩ := hshape
  rfl

theorem claimed_state {s : AssignmentState} (h : s.isChecked = true) (hs : s.status = .claimed) :
    ∃ owner execution claimed beat, 1 ≤ owner.length ∧ owner.length ≤ 200 ∧
      s = ⟨.claimed, some owner, some execution, none, none, some claimed, some beat, none⟩ := by
  obtain ⟨hshape, howner, -⟩ := of_decide_eq_true h
  obtain ⟨status, owner, execution, review, code, claimed, beat, finished⟩ := s
  cases hs
  simp only [AssignmentState.isShaped, decide_eq_true_eq, Option.isNone_iff_eq_none,
    Option.isSome_iff_exists] at hshape
  obtain ⟨⟨owner, rfl⟩, ⟨execution, rfl⟩, rfl, rfl, ⟨claimed, rfl⟩, ⟨beat, rfl⟩, rfl⟩ := hshape
  obtain ⟨hpos, hshort⟩ := of_decide_eq_true howner
  exact ⟨owner, execution, claimed, beat, hpos, hshort, rfl⟩

section Accepted

variable {d : ReviewDatabase} {id : String} {r : Assignment}

/-- An active row is the only one of its run. -/
theorem AssignmentsInv.alone (hI : AssignmentsInv rules d.assignments)
    (hrow : d.assignments.get? id = some r) (hactive : r.state.isActive = true) :
    d.otherActive id r.runId = false := by
  refine Table.any_eq_false_iff.2 ?_
  intro id' r' hrow'
  refine decide_eq_false ?_
  rintro ⟨hne, hrun, hactive'⟩
  exact hne (hI.single hrow' hrow hrun hactive' hactive)

theorem accepts_iff {s : AssignmentState} : Accepts rules d id r s ↔
    ∃ h : s.isChecked = true, updateAllowed rules d id r { r with state := s, checked := h } = true := by
  unfold Accepts Assignment.withState
  by_cases h : s.isChecked = true
  · simp only [dif_pos h, Option.some.injEq, exists_eq_left', exists_prop_of_true h]
  · simp only [dif_neg h, reduceCtorEq, false_and, exists_false, exists_prop_of_false h]

/-- An active row may always be failed, by the other processes and by its reviewer. -/
theorem accepts_fail (hI : AssignmentsInv rules d.assignments) (hrow : d.assignments.get? id = some r)
    (hactive : r.state.isActive = true) {code now : String} (hcode : isFailureCode code = true)
    (hnow : rules.canonicalTime now = true) : Accepts rules d id r (r.state.fail code now) := by
  have hstored : isStoredCode code = true := (of_decide_eq_true hcode).2
  have htimes : r.state.timesCanonical rules = true := hI.times id r hrow
  rw [accepts_iff]
  have hstatus : r.state.status = .assigned ∨ r.state.status = .claimed := by
    simpa [AssignmentState.isActive, activeStatuses] using hactive
  rcases hstatus with hassigned | hclaimed
  · have hs := assigned_state r.checked hassigned
    refine ⟨?_, ?_⟩
    · rw [hs]
      simp [AssignmentState.fail, AssignmentState.isChecked, AssignmentState.isShaped,
        AssignmentState.new, hstored]
    · simp [updateAllowed, hs, AssignmentState.fail, AssignmentState.new, mayMove, terminalStatuses,
        AssignmentState.timesCanonical, hnow, AssignmentState.isActive, activeStatuses]
  · obtain ⟨owner, execution, claimed, beat, hpos, hshort, hs⟩ := claimed_state r.checked hclaimed
    rw [hs] at htimes
    simp only [AssignmentState.timesCanonical, Option.all_some, decide_eq_true_eq] at htimes
    refine ⟨?_, ?_⟩
    · rw [hs]
      simp [AssignmentState.fail, AssignmentState.isChecked, AssignmentState.isShaped, hstored, hshort,
        hpos]
    · simp [updateAllowed, hs, AssignmentState.fail, mayMove, terminalStatuses,
        AssignmentState.timesCanonical, hnow, AssignmentState.isActive, activeStatuses, htimes.1,
        htimes.2.1]

theorem accepts_finishFailed (hI : AssignmentsInv rules d.assignments)
    (hrow : d.assignments.get? id = some r) (hclaimed : r.state.status = .claimed) {code now : String}
    (hcode : isFailureCode code = true) (hnow : rules.canonicalTime now = true) :
    Accepts rules d id r (r.state.finishFailed code now) := by
  have hstored : isStoredCode code = true := (of_decide_eq_true hcode).2
  have htimes : r.state.timesCanonical rules = true := hI.times id r hrow
  rw [accepts_iff]
  obtain ⟨owner, execution, claimed, beat, hpos, hshort, hs⟩ := claimed_state r.checked hclaimed
  rw [hs] at htimes
  simp only [AssignmentState.timesCanonical, Option.all_some, decide_eq_true_eq] at htimes
  refine ⟨?_, ?_⟩
  · rw [hs]
    simp [AssignmentState.finishFailed, AssignmentState.isChecked, AssignmentState.isShaped, hstored,
      hshort, hpos]
  · simp [updateAllowed, hs, AssignmentState.finishFailed, mayMove, terminalStatuses,
      AssignmentState.timesCanonical, hnow, AssignmentState.isActive, activeStatuses, htimes.1]

/-- The execution of a link is the run's, of the same role. -/
def ReviewerExecution.serves (x : ReviewerExecution) (r : Assignment) : Prop :=
  x.runId = r.runId ∧ x.roleId = r.roleId ∧ x.sourceProfile = r.sourceProfile

/-- A claimed row may be completed exactly with the stored review of its finished execution, which no
    other assignment has. -/
theorem accepts_complete_iff (hI : AssignmentsInv rules d.assignments)
    (hrow : d.assignments.get? id = some r) (hclaimed : r.state.status = .claimed) {reviewId now : String}
    (hnow : rules.canonicalTime now = true) :
    Accepts rules d id r (r.state.complete reviewId now) ↔
      (∃ execution x, r.state.reviewExecutionId = some execution ∧ d.executions.get? execution = some x ∧
        x.serves r ∧ x.reviewId = some reviewId ∧ x.finishedAt.isSome = true) ∧
      (d.results.get? reviewId).isSome = true ∧
      ∀ id' r', d.assignments.get? id' = some r' → r'.state.reviewId = some reviewId → id' = id := by
  have htimes : r.state.timesCanonical rules = true := hI.times id r hrow
  rw [accepts_iff]
  obtain ⟨owner, execution, claimed, beat, hpos, hshort, hs⟩ := claimed_state r.checked hclaimed
  rw [hs] at htimes
  simp only [AssignmentState.timesCanonical, Option.all_some, decide_eq_true_eq] at htimes
  have hchecked : (r.state.complete reviewId now).isChecked = true := by
    rw [hs]
    simp [AssignmentState.complete, AssignmentState.isChecked, AssignmentState.isShaped, hshort, hpos]
  rw [exists_prop_of_true hchecked]
  have hunused : (d.assignments.any fun k y => k ≠ id ∧ y.state.reviewId = some reviewId) = false ↔
      ∀ id' r', d.assignments.get? id' = some r' → r'.state.reviewId = some reviewId → id' = id := by
    rw [Table.any_eq_false_iff]
    refine forall₃_congr fun id' r' _ => ?_
    rw [decide_eq_false_iff_not, not_and, not_imp_not]
  rw [← hunused]
  simp [updateAllowed, hs, AssignmentState.complete, mayMove, terminalStatuses,
    AssignmentState.timesCanonical, hnow, AssignmentState.isActive, activeStatuses, htimes.1,
    completionLinked, ReviewerExecution.serves]
  intro _ _
  cases d.executions.get? execution with
  | none => simp
  | some x => simp [and_assoc]

/-- An assigned row may be claimed exactly by an open execution for its run, which no other assignment
    has and whose name leaves room for the owner. -/
theorem accepts_claim_iff (hI : AssignmentsInv rules d.assignments)
    (hrow : d.assignments.get? id = some r) (hassigned : r.state.status = .assigned)
    {executionId now : String} (hnow : rules.canonicalTime now = true) :
    Accepts rules d id r (r.state.claim executionId now) ↔
      ("reviewer:" ++ executionId).length ≤ 200 ∧
      (∃ x, d.executions.get? executionId = some x ∧ x.serves r ∧ x.reviewId = none ∧
        x.finishedAt = none) ∧
      ∀ id' r', d.assignments.get? id' = some r' → r'.state.reviewExecutionId = some executionId →
        id' = id := by
  rw [accepts_iff]
  have hs := assigned_state r.checked hassigned
  have hactive : r.state.isActive = true := by
    rw [hs]
    rfl
  have halone := hI.alone hrow hactive
  have hunused : (d.assignments.any fun k y => k ≠ id ∧ y.state.reviewExecutionId = some executionId) =
      false ↔ ∀ id' r', d.assignments.get? id' = some r' →
        r'.state.reviewExecutionId = some executionId → id' = id := by
    rw [Table.any_eq_false_iff]
    refine forall₃_congr fun id' r' _ => ?_
    rw [decide_eq_false_iff_not, not_and, not_imp_not]
  rw [← hunused]
  have hchecked : (r.state.claim executionId now).isChecked = true ↔
      ("reviewer:" ++ executionId).length ≤ 200 := by
    have hpos : 1 ≤ ("reviewer:" ++ executionId).length := by
      rw [String.length_append]
      exact Nat.le_add_right_of_le (by decide)
    rw [hs]
    constructor
    · intro h
      exact (of_decide_eq_true (of_decide_eq_true h).2.1).2
    · intro h
      exact decide_eq_true ⟨rfl, decide_eq_true ⟨hpos, h⟩, rfl⟩
  rw [← hchecked]
  by_cases h : (r.state.claim executionId now).isChecked = true
  · rw [exists_prop_of_true h, and_iff_right h]
    simp [updateAllowed, hs, AssignmentState.claim, AssignmentState.new, mayMove, terminalStatuses,
      AssignmentState.timesCanonical, hnow, halone, claimLinked, ReviewerExecution.serves]
    cases d.executions.get? executionId with
    | none => simp
    | some x => simp [and_assoc]
  · constructor
    · rintro ⟨h', -⟩
      exact absurd h' h
    · rintro ⟨h', -⟩
      exact absurd h' h

/-- No row of the run has the next number. -/
theorem AssignmentsInv.fresh {t : Assignments} (hI : AssignmentsInv rules t) {r' : Assignment}
    (hrow : t.get? id = some r') : r'.assignmentNumber ≠ (t.numbers r'.runId).foldl max 0 + 1 := by
  have hmem : r'.assignmentNumber ∈ t.numbers r'.runId := by
    refine List.mem_map.2 ⟨(id, r'), ?_, rfl⟩
    exact Table.mem_select.2 ⟨hrow, decide_eq_true rfl⟩
  rw [hI.numbered, foldl_max_range'] at *
  rw [List.mem_range'_1] at hmem
  omega

/-- A row with the next number, whose role, run and attempt the function has checked, is refused only
    for its profile name, for an active row of its run, or for a row that its attempt had of another run. -/
theorem insertAllowed_iff (hI : AssignmentsInv rules d.assignments) (hnew : r.state = .new)
    (hid : isAssignmentId id = true) (hnumber : r.assignmentNumber ≤ 1000)
    (hnext : r.assignmentNumber = (Assignments.numbers d.assignments r.runId).foldl max 0 + 1)
    (hby : isText r.assignedBy = true) (hrun : (d.runs.get? r.runId).isSome = true)
    (hattempt : (d.attempts.get? r.orchestrationAttemptId).isSome = true) {x : Role}
    (hrole : d.roles.get? r.roleId = some x) (hpolicy : x.mayReview = true)
    (hprofile : x.profileName = r.sourceProfile) (hnow : rules.canonicalTime r.assignedAt = true) :
    insertAllowed rules d id r = true ↔
      (1 ≤ r.sourceProfile.length ∧ r.sourceProfile.length ≤ 128) ∧ d.otherActive id r.runId = false ∧
      ∀ id' r', d.assignments.get? id' = some r' →
        r'.orchestrationAttemptId = r.orchestrationAttemptId → r'.assignmentNumber ≠ r.assignmentNumber := by
  have hlength : 1 ≤ r.assignedBy.length ∧ r.assignedBy.length ≤ 200 := by
    obtain ⟨hne, hle, -⟩ := of_decide_eq_true hby
    refine ⟨?_, hle⟩
    by_contra hzero
    exact hne (String.length_eq_zero_iff.1 (by omega))
  have hconflicts : (d.assignments.any fun _ y => r.conflicts y) = false ↔
      ∀ id' r', d.assignments.get? id' = some r' →
        r'.orchestrationAttemptId = r.orchestrationAttemptId →
          r'.assignmentNumber ≠ r.assignmentNumber := by
    rw [Table.any_eq_false_iff]
    refine forall₃_congr fun id' r' hrow => ?_
    have hfresh := hI.fresh hrow
    rw [Assignment.conflicts, decide_eq_false_iff_not, hnew]
    constructor
    · intro h hattempt hsame
      exact h (.inr (.inl ⟨hattempt, hsame⟩))
    · rintro h (⟨hrun, hsame⟩ | ⟨hattempt, hsame⟩ | ⟨hsome, -⟩ | ⟨hsome, -⟩)
      · rw [hrun] at hfresh
        exact hfresh (hsame.trans hnext)
      · exact h hattempt hsame
      · cases hsome
      · cases hsome
  rw [← hconflicts, insertAllowed, decide_eq_true_eq]
  constructor
  · rintro ⟨-, -, -, hpos, hshort, -, -, -, -, -, -, -, -, hconflict, halone, -, -⟩
    refine ⟨⟨hpos, hshort⟩, ?_, by simpa using hconflict⟩
    have hactive : r.state.isActive = true := by
      rw [hnew]
      rfl
    rw [hactive] at halone
    simpa using halone
  · rintro ⟨⟨hpos, hshort⟩, halone, hconflict⟩
    refine ⟨hid, by omega, hnumber, hpos, hshort, hlength.1, hlength.2, hrun, hattempt, ?_, ?_, ?_, ?_,
      ?_, ?_, hnow, ?_⟩
    · rw [hnew]
      rfl
    · rw [hnew]
      rfl
    · rw [hnew]
      rfl
    · rw [hrole]
      exact decide_eq_true ⟨hprofile, hpolicy⟩
    · rw [hconflict]
      exact Bool.false_ne_true
    · rw [halone]
      exact fun h => Bool.false_ne_true h.2
    · rw [hnew]
      rfl

end Accepted

/-! ### The protocol -/

/-- The table that is committed, and the one of the open transaction. -/
def AssignmentWorld.tables (w : AssignmentWorld) : List Assignments :=
  w.committed.assignments :: (w.pending.map ReviewDatabase.assignments).toList

theorem WorldInv.tables {w : AssignmentWorld} (hI : WorldInv rules w) {t : Assignments}
    (ht : t ∈ w.tables) : AssignmentsInv rules t := by
  rcases List.mem_cons.1 ht with rfl | ht
  · exact hI.committed
  · obtain ⟨d, hd, rfl⟩ := Option.map_eq_some_iff.1 (Option.mem_toList.1 ht)
    exact (hI.pending d hd).1

theorem AssignmentsInv.count_active {t : Assignments} (hI : AssignmentsInv rules t) (runId : String) :
    t.count (fun _ r => r.runId = runId ∧ r.state.isActive) ≤ 1 := by
  by_cases hzero : t.count (fun _ r => r.runId = runId ∧ r.state.isActive) = 0
  · rw [hzero]
    exact Nat.zero_le 1
  · obtain ⟨id, r, hrow, hr⟩ := Table.count_pos_iff.1 (Nat.pos_of_ne_zero hzero)
    obtain ⟨hrun, hactive⟩ := of_decide_eq_true hr
    refine Table.count_le_one id ?_
    intro id' r' hrow' hr'
    obtain ⟨hrun', hactive'⟩ := of_decide_eq_true hr'
    exact hI.single hrow' hrow (hrun'.trans hrun.symm) hactive' hactive

/-- In every state that the processes reach: the assignments of a run are numbered from one without
    gaps, and at most one of them is active; a call that returns has made changes that the
    constraints and triggers let through, and one that raises ends its transaction; rows only move,
    and those that have ended stay; and no constraint ever stops an active row from being failed. -/
theorem assignment_protocol (rules : ReviewRules) {w : AssignmentWorld}
    (hw : (assignmentMachine rules).Reachable (fun _ _ => True) w) :
    (∀ t ∈ w.tables, ∀ runId, t.numbers runId = List.range' 1 (t.numbers runId).length ∧
      t.count (fun _ r => r.runId = runId ∧ r.state.isActive) ≤ 1) ∧
    (∀ d c left v, w.pending = some d → c.run rules ⟨d, left⟩ = (.ok (), v) → Changes rules d v.state ∧
      w.step rules (.call c left) = { w with pending := some v.state }) ∧
    (∀ d c left e v, w.pending = some d → c.run rules ⟨d, left⟩ = (.error e, v) →
      w.step rules (.call c left) = { w with pending := none }) ∧
    (∀ as id r, w.committed.assignments.get? id = some r →
      ∃ r', ((assignmentMachine rules).run w as).committed.assignments.get? id = some r' ∧
        Relation.ReflTransGen Moved r r' ∧ (r.state.status ∈ terminalStatuses → r' = r)) ∧
    ∀ d id r code now, w.pending = some d → d.assignments.get? id = some r → isFailureCode code = true →
      rules.canonicalTime now = true →
      (r.state.isActive = true → Accepts rules d id r (r.state.fail code now)) ∧
        (r.state.status = .claimed → Accepts rules d id r (r.state.finishFailed code now)) := by
  have hI := worldInv_reachable hw
  refine ⟨?_, ?_, ?_, ?_, ?_⟩
  · intro t ht runId
    exact ⟨(hI.tables ht).numbered runId, (hI.tables ht).count_active runId⟩
  · intro d c left v hd hrun
    refine ⟨Call.run_ok hrun, ?_⟩
    simp only [AssignmentWorld.step, hd, hrun]
  · intro d c left e v hd hrun
    simp only [AssignmentWorld.step, hd, hrun]
  · intro as id r hrow
    obtain ⟨r', hrow', hpath⟩ := run_advances hI as id r hrow
    exact ⟨r', hrow', hpath, terminal_kept hpath⟩
  · intro d id r code now hd hrow hcode hnow
    obtain ⟨hinv, -⟩ := hI.pending d hd
    exact ⟨fun hactive => accepts_fail hinv hrow hactive hcode hnow,
      fun hclaimed => accepts_finishFailed hinv hrow hclaimed hcode hnow⟩

def sampleRules : ReviewRules where
  toTextRules := lenient
  canonicalTime _ := true
  digest _ := String.join (List.replicate 32 "0")

/-- One run with its attempt. -/
def sampleDatabase : ReviewDatabase where
  roles := ⟨[("reviewer", ⟨"ops-reviewer", .reviewer, .readOnly, false, false, false, true⟩)], by decide⟩
  projects := ⟨[("project-1", true)], by decide⟩
  locks := ⟨[("project-1", "run-1")], by decide⟩
  runs := ⟨[("run-1", ⟨"project-1", .reviewing⟩)], by decide⟩
  attempts := ⟨[("attempt-1", some "run-1")], by decide⟩
  tasks := .empty
  executions := .empty
  workerExecutions := .empty
  results := .empty
  assignments := .empty
  events := []
  journal := .empty

def sampleDraw (digit : String) : Draw where
  hex := String.join (List.replicate 32 digit)
  eventHex := String.join (List.replicate 32 digit)
  now := "2026-01-02T03:04:05.000Z"

/-- An assignment that the orchestrator has failed, and the next one, in an open transaction. -/
def sampleWorld : AssignmentWorld :=
  (assignmentMachine sampleRules).run ⟨sampleDatabase, none⟩
    [ .begin, .call (.create "run-1" "attempt-1" "reviewer" "orchestrator:attempt-1" (sampleDraw "1")) none,
      .commit, .begin,
      .call (.fail ("review-assignment-" ++ (sampleDraw "1").hex) "orchestrator:attempt-1"
        "REVIEW_TRANSPORT_FAILED" (sampleDraw "2")) none,
      .commit, .begin,
      .call (.create "run-1" "attempt-1" "reviewer" "orchestrator:attempt-1" (sampleDraw "3")) none ]

theorem sampleWorld_numbers : ∃ t ∈ sampleWorld.tables,
    t.numbers "run-1" = [1, 2] ∧ t.numbers "run-1" = List.range' 1 (t.numbers "run-1").length ∧
      t.count (fun _ r => r.runId = "run-1" ∧ r.state.isActive) ≤ 1 := by
  have hreachable : (assignmentMachine sampleRules).Reachable (fun _ _ => True) sampleWorld :=
    Machine.Reachable.run (.start ⟨rfl, rfl⟩) (by simp [Machine.Along])
  have hpending : (sampleWorld.pending.map fun d => Assignments.numbers d.assignments "run-1") =
      some [1, 2] := by decide +kernel
  obtain ⟨d, hd, hnumbers⟩ := Option.map_eq_some_iff.1 hpending
  have hmem : d.assignments ∈ sampleWorld.tables := by
    rw [AssignmentWorld.tables, hd]
    exact List.mem_cons_of_mem _ List.mem_cons_self
  exact ⟨d.assignments, hmem, hnumbers,
    (assignment_protocol sampleRules hreachable).1 d.assignments hmem "run-1"⟩

end HermesOps.Reviewer
