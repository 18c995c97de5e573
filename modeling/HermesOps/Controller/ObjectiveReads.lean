import HermesOps.Model.World
import HermesOps.Schemes.Pagination
import Mathlib.Data.Prod.Lex
import Mathlib.Data.String.Basic
import Mathlib.Order.OrderDual

/-! `ObjectiveReadStore` of `objective_reads.py`: the public state of an objective and the pages of the
    list, on the tables that the control plane writes. A cursor stands for the key of the last row of a
    page together with the filters; identifiers are ordered as the texts they are written as. -/

namespace HermesOps.ObjectiveReads

open Schemes

/-! ### States -/

/-- `OBJECTIVE_STATES`. -/
inductive PublicState where
  | draft | planning | planned | running | paused | blocked | succeeded | failed | cancelled | archived
  deriving DecidableEq

/-- The values of `requested_transition`. -/
inductive Transition where
  | pause | cancel
  deriving DecidableEq

/-- `state` and `requested_transition`. -/
abbrev View := PublicState × Option Transition

/-- `_state`. -/
def stateOf (raw : ObjectiveStatus) (joinedPlanId : Option PlanId) (planStatus : Option PlanStatus) :
    View :=
  match raw with
  | .queued => (if joinedPlanId.isSome then .planned else .draft, none)
  | .planning => (.planning, none)
  | .running => (if planStatus = some .blocked then .blocked else .running, none)
  | .pauseRequested => (.running, some .pause)
  | .paused => (.paused, none)
  | .cancelRequested => (.running, some .cancel)
  | .completed => (.succeeded, none)
  | .failed => (.failed, none)
  | .cancelled => (.cancelled, none)

/-- The condition of the list on a state. -/
def stateSql (state : PublicState) (raw : ObjectiveStatus) (joinedPlanId : Option PlanId)
    (planStatus : Option PlanStatus) : Bool :=
  match state with
  | .draft => raw = .queued && joinedPlanId.isNone
  | .planned => raw = .queued && joinedPlanId.isSome
  | .planning => raw = .planning
  | .running => raw ∈ [.pauseRequested, .cancelRequested] || (raw = .running && planStatus ≠ some .blocked)
  | .paused => raw = .paused
  | .blocked => raw = .running && planStatus = some .blocked
  | .succeeded => raw = .completed
  | .failed => raw = .failed
  | .cancelled => raw = .cancelled
  | .archived => false

/-! ### Rows -/

variable (d : Database)

/-- The plan that the `LEFT JOIN` finds. -/
def joinedPlan (o : Objective) : Option PlanId := o.planId.filter fun p => (d.graph.plans.get? p).isSome

def objectiveView (o : Objective) : View := stateOf o.status (joinedPlan d o) (d.graph.planStatus o.planId)

/-- `_projects` accepts the scope of the row; identifiers are written as the patterns ask. -/
def readable (o : Objective) : Bool := o.projectScope ≠ [] ∧ o.projectScope.Nodup

/-- What `get_objective` shows of the state. -/
def view (id : ObjectiveId) : Option View :=
  ((d.queue.objectives.get? id).filter readable).map (objectiveView d)

/-- The filters of the list. -/
structure Filters where
  projectId : Option ProjectId
  state : Option PublicState
  deriving DecidableEq

/-- The `WHERE` conditions of the filters. -/
def Filters.selects (f : Filters) (o : Objective) : Bool :=
  (f.projectId.all fun p => p ∈ o.projectScope) &&
    f.state.all fun s => stateSql s o.status (joinedPlan d o) (d.graph.planStatus o.planId)

/-! ### The list -/

/-- How identifiers are written. -/
structure Names where
  text : ObjectiveId → String
  injective : Function.Injective text

abbrev Row := ObjectiveId × Objective

/-- `ORDER BY q.created_at DESC, q.objective_id DESC`. -/
abbrev Key := Lex (OrderDual Time × OrderDual String)

def Names.key (n : Names) (x : Row) :
    Key := toLex (OrderDual.toDual x.2.createdAt, OrderDual.toDual (n.text x.1))

/-- The rows that the conditions on the filters select. -/
def selected (f : Filters) : List Row := d.queue.objectives.select fun _ o => f.selects d o

/-- `ObjectiveCursor`. -/
structure Cursor where
  filters : Filters
  key : Key

/-- What the list answers with instead of a page. -/
inductive Refusal where
  | invalidLimit
  | invalidCursor
  | projectNotFound
  | projectionInvalid
  deriving DecidableEq

structure Item where
  objectiveId : ObjectiveId
  objective : Objective
  view : View

/-- `list_objectives`; `known` says which projects there are. -/
def listObjectives (n : Names) (known : ProjectId → Bool) (limit : Nat) (cursor : Option Cursor)
    (f : Filters) :
    Except Refusal (List Item × Option Cursor) :=
  if ¬(1 ≤ limit ∧ limit ≤ 200) then .error .invalidLimit
  else if cursor.any fun c => c.filters ≠ f then .error .invalidCursor
  else if ¬f.projectId.all known then .error .projectNotFound
  else
    let page := Pagination.page n.key limit (cursor.map Cursor.key) (selected d f)
    if page.items.all fun x => readable x.2 then
      .ok (page.items.map fun x => ⟨x.1, x.2, objectiveView d x.2⟩, page.next.map fun k => ⟨f, k⟩)
    else .error .projectionInvalid

end HermesOps.ObjectiveReads
