import HermesOps.Controller.ObjectiveCommands

/-! The types of `agent_runtime/contract.py`: requests, results, events and the error that every failure is
    normalized to, with the exceptions that the steps of an execution may raise. -/

namespace HermesOps.AgentRuntime

open Controller (strip isSpace)

inductive RuntimeRole where
  | planner
  | worker
  | reviewer
  deriving DecidableEq

def RuntimeRole.value : RuntimeRole → String
  | .planner => "planner"
  | .worker => "worker"
  | .reviewer => "reviewer"

inductive RuntimeErrorKind where
  | runtimeUnavailable
  | executionFailed
  | timeout
  | invalidResult
  | cancelled
  deriving DecidableEq

inductive RuntimeEventKind where
  | started
  | heartbeat
  deriving DecidableEq

/-- A request that has been constructed: planners have no sandbox, workers and reviewers have one. -/
structure RuntimeRequest where
  role : RuntimeRole
  runtimeConfigId : String
  requestId : String
  timeoutSeconds : Nat
  completionMarker : String
  onEvent : Bool
  marker_nonempty : completionMarker ≠ ""

/-- `request.sandbox is not None`. -/
def RuntimeRequest.sandboxed (r : RuntimeRequest) : Bool := r.role ≠ .planner

structure RuntimeResult where
  output : String
  deriving DecidableEq

/-- `RuntimeError`, with what its message is built from spelled out. -/
structure RuntimeError where
  kind : RuntimeErrorKind
  message : String
  exitStatus : Option Int := none
  output : String := ""
  secondaryErrors : List String := []
  deriving DecidableEq

/-! ### Exceptions -/

/-- An exception: a `RuntimeError`, or one of any other class. -/
inductive Exn where
  | runtime (e : RuntimeError)
  | timeoutExpired
  | fileNotFound (filename : Option String)
  | processLookup (filename : Option String)
  | os (name : String) (filename : Option String)
  | value (name : String)
  | other (name : String)
  deriving DecidableEq

/-- `type(error).__name__`. -/
def Exn.typeName : Exn → String
  | .runtime _ => "RuntimeError"
  | .timeoutExpired => "TimeoutExpired"
  | .fileNotFound _ => "FileNotFoundError"
  | .processLookup _ => "ProcessLookupError"
  | .os name _ | .value name | .other name => name

/-- `RuntimeError(kind, message)`. -/
def failed (kind : RuntimeErrorKind) (message : String) : Exn := .runtime { kind, message }

/-- `_normalize_error`. -/
def normalizeError (r : RuntimeRequest) (output : String) : Exn → RuntimeError
  | .runtime e => if output ≠ "" ∧ e.output = "" then { e with output } else e
  | .timeoutExpired =>
    { kind := .timeout, message := r.role.value ++ " runtime did not terminate cleanly", output }
  | .fileNotFound filename => unavailable (filename.getD "FileNotFoundError")
  | .processLookup filename => unavailable (filename.getD "ProcessLookupError")
  | .os name filename => unavailable (filename.getD name)
  | .value name | .other name =>
    { kind := .executionFailed, message := r.role.value ++ " runtime failed internally: " ++ name, output }
where
  unavailable (what : String) : RuntimeError :=
    { kind := .runtimeUnavailable, message := "Agent runtime dependency is unavailable: " ++ what, output }

/-! ### The completion marker -/

/-- The characters at which `str.splitlines` ends a line. -/
def isLineEnd (c : Char) : Bool :=
  c.toNat ∈ [10, 11, 12, 13, 28, 29, 30, 0x85, 0x2028, 0x2029]

/-- `_marker_found`: a line is the marker once the white space around it is gone. A line feed behind a
    carriage return ends an empty line more than `str.splitlines` finds, which is no marker. -/
def markerFound (output marker : String) : Bool :=
  marker ∈ (output.toList.splitOnP isLineEnd).map fun line => strip (String.ofList line)

end HermesOps.AgentRuntime
