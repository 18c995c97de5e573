import HermesOps.AgentRuntime.Contract
import HermesOps.Schemes.Interaction

/-! `HermesRuntime.execute` of `agent_runtime/hermes.py`. Everything that the method asks of its surroundings is
    a call: files, processes, Docker, the clocks and the event sink. What is written into the profile is one
    call, and so is a run of a Docker command. The local variables that the handlers and the cleanup look at
    survive an exception. -/

namespace HermesOps.AgentRuntime

open Controller (Json)
open Schemes Schemes.Program

inductive Signal where
  | sigterm
  | sigkill
  deriving DecidableEq

inductive Call where
  | entryIsFile (path : String)
  | profileIsDir (path : String)
  | profileExists (path : String)
  | makeProfile (path : String)
  | fillProfile (source target : String)
  /-- `shutil.rmtree(path, ignore_errors=True)`. -/
  | discardProfile (path : String)
  /-- `shutil.rmtree(path)`. -/
  | removeProfile (path : String)
  | monotonic
  | openTranscript
  | launch
  | poll
  | wait (timeout : Nat)
  | kill (signal : Signal)
  | inspect (reference : String)
  | stop (containerId : String)
  | remove (containerId : String)
  | sleep
  | eventClock
  | sink (kind : RuntimeEventKind)
  | readOutput
  deriving DecidableEq

/-- What `docker container inspect` leaves: `returncode == 0`, `"No such" in stderr`, and the document of
    its output, if it is one. -/
structure Inspection where
  succeeded : Bool
  noSuch : Bool
  payload : Option Json

/-- What `docker stop` and `docker rm` leave: `returncode == 0` and `"No such container" in stderr`. -/
structure Completed where
  succeeded : Bool
  noSuchContainer : Bool

/-- What the event clock returns. -/
inductive Stamp where
  | utc
  | otherZone
  | notDatetime

@[reducible] def Answer : Call → Type
  | .entryIsFile _ | .profileIsDir _ | .profileExists _ => Bool
  | .monotonic => Rat
  | .poll => Option Int
  | .wait _ => Int
  | .inspect _ => Inspection
  | .stop _ | .remove _ => Completed
  | .eventClock => Stamp
  | .readOutput => String
  | _ => Unit

abbrev hermes : Interface := ⟨Call, Answer⟩

abbrev Event := Happening hermes Exn

/-- The local variables of `execute`; `launched` says that `process` is not `None`, and `started` is
    the state of the event dispatcher. -/
structure Locals where
  profileDirectory : Option String := none
  launched : Bool := false
  started : Bool := false
  executionContainerId : Option String := none
  output : String := ""
  executionCleanupErrors : List Exn := []

abbrev Step (α : Type) := Program hermes Exn Locals α

/-- The paths, and `str` of a value that is not a string. -/
structure HermesSite where
  plannerEntry : String
  workerEntry : String
  profileRoot : String
  str : Json → String

variable (s : HermesSite) (r : RuntimeRequest)

/-! ### Calls -/

def isFile (path : String) : Step Bool := call (I := hermes) (.entryIsFile path)

def isDir (path : String) : Step Bool := call (I := hermes) (.profileIsDir path)

def pathExists (path : String) : Step Bool := call (I := hermes) (.profileExists path)

def monotonic : Step Rat := call (I := hermes) .monotonic

/-- The exit status that a call has reported. -/
def exitOf (x : Event) : Option Int :=
  match x with
  | ⟨.poll, .ok status⟩ => status
  | ⟨.wait _, .ok status⟩ => some status
  | _ => none

/-- `process.returncode`. -/
def returncode (history : List Event) : Option Int := history.reverse.findSome? exitOf

/-- `process.poll()`: a status that is known is not asked for again. -/
def poll : Step (Option Int) := do
  match ← consult returncode with
  | some status => return some status
  | none => call (I := hermes) .poll

/-- `process.wait(timeout)`. -/
def wait (timeout : Nat) : Step Int := do
  match ← consult returncode with
  | some status => return status
  | none => call (I := hermes) (.wait timeout)

/-! ### The profile -/

/-- `_profile_name`. -/
def profileName : String := if r.role = .planner then r.runtimeConfigId else r.requestId

def profilePath (name : String) : String := s.profileRoot ++ "/" ++ name

/-- `validate_role`. -/
def validateRole : Step Unit := do
  let entry := if r.role = .planner then s.plannerEntry else s.workerEntry
  let present ← isFile entry
  raiseIf (!present) (failed .runtimeUnavailable ("Runtime entry wrapper is absent: " ++ entry))

/-- What the handlers of `_prepare_profile` make of an exception. -/
def profileError : Exn → Exn
  | .value _ => failed .invalidResult "Runtime profile configuration is invalid"
  | e => e

/-- `_prepare_profile`, for a request with a sandbox. -/
def prepareProfile : Step String := do
  let source := profilePath s r.runtimeConfigId
  let target := profilePath s (profileName r)
  let present ← isDir source
  raiseIf (!present) (failed .runtimeUnavailable ("Runtime source profile is absent: " ++ source))
  let taken ← pathExists target
  raiseIf taken (failed .executionFailed ("Ephemeral runtime profile already exists: " ++ target))
  call (I := hermes) (.makeProfile target)
  match ← reify (call (I := hermes) (.fillProfile source target)) with
  | .ok () => return target
  | .error e =>
    call (I := hermes) (.discardProfile target)
    raise (profileError e)

/-! ### Processes -/

/-- What a call that is caught adds to the errors. -/
def caught {α : Type} : Except Exn α → List Exn
  | .ok _ => []
  | .error e => [e]

/-- `if errors: raise errors[0]`. -/
def raiseFirst (errors : List Exn) : Step Unit :=
  match errors with
  | [] => pure ()
  | e :: _ => raise e

/-- `os.killpg` with its handlers: a process that is gone is no error, and only an `OSError` is noted. -/
def signal (signal : Signal) (errors : List Exn) : Step (List Exn) := do
  match ← reify (call (I := hermes) (.kill signal)) with
  | .ok () => return errors
  | .error (.processLookup _) => return errors
  | .error (.fileNotFound filename) => return errors ++ [.fileNotFound filename]
  | .error (.os name filename) => return errors ++ [.os name filename]
  | .error e => raise e

/-- The first wait of `_terminate`, which raises what has gone wrong before it within its own block. -/
def waitAndRaise (errors : List Exn) : Step Unit := do
  let _ ← wait 10
  raiseFirst errors

/-- `_terminate`. -/
def terminate : Step Unit := do
  let polled ← reify poll
  match polled with
  | .ok (some _) => return
  | _ =>
    let errors ← signal .sigterm (caught polled)
    match ← reify (waitAndRaise errors) with
    | .ok () => return
    | .error e =>
      let errors := if e = .timeoutExpired then errors else errors ++ [e]
      let errors ← signal .sigkill errors
      let waited ← reify (wait 10)
      raiseFirst (errors ++ caught waited)

/-! ### Containers -/

/-- `not value`. -/
def falsy : Json → Bool
  | .null => true
  | .bool b => !b
  | .int n => n = 0
  | .float text => text = "0.0" ∨ text = "-0.0"
  | .str text => text = ""
  | .arr items => items.isEmpty
  | .obj members => members.isEmpty

/-- `mapping.get(key) or {}`. -/
def subtable (members : List (String × Json)) (key : String) : Json :=
  match members.lookup key with
  | some value => if falsy value then .obj [] else value
  | none => .obj []

/-- `str(mapping.get(key) or "")`. -/
def textOf (members : List (String × Json)) (key : String) : String :=
  match members.lookup key with
  | some (.str text) => text
  | some value => if falsy value then "" else s.str value
  | none => ""

/-- `mapping.get(key) == text`. -/
def hasText (members : List (String × Json)) (key text : String) : Bool :=
  match members.lookup key with
  | some (.str found) => found = text
  | _ => false

/-- `text.removeprefix("/")`. -/
def removeSlash (text : String) : String :=
  match text.toList with
  | '/' :: rest => String.ofList rest
  | _ => text

def isContainerId (text : String) : Bool :=
  text.length = 64 ∧ text.toList.all fun c => c ∈ "0123456789abcdef".toList

def mismatched : Exn := failed .executionFailed "Runtime container ownership is mismatched"

/-- `_owned_outer_container_id`. -/
def ownedOuterContainerId (container : List (String × Json)) (executionName : String)
    (expectedContainerId : Option String) : Except Exn String :=
  match subtable container "Config" with
  | .obj config =>
    match subtable config "Labels" with
    | .obj labels =>
      let containerId := textOf s container "Id"
      if removeSlash (textOf s container "Name") ≠ executionName ∨ ¬isContainerId containerId ∨
          ¬hasText labels "hermesops-runtime-container" "1" ∨
          ¬hasText labels "hermesops-runtime-request-id" executionName then
        .error mismatched
      else if expectedContainerId.any (· ≠ containerId) then
        .error (failed .executionFailed "Runtime container immutable identity is mismatched")
      else .ok containerId
    | _ => .error mismatched
  | _ => .error mismatched

/-- `_inspect_outer_container`, from what the command has left. -/
def inspected (x : Inspection) : Except Exn (Option (List (String × Json))) :=
  if !x.succeeded then
    if x.noSuch then .ok none
    else .error (failed .executionFailed "Runtime container ownership inspection failed")
  else
    match x.payload with
    | some (.arr [.obj container]) => .ok (some container)
    | _ => .error (failed .executionFailed "Runtime container ownership inspection is invalid")

/-- `_inspect_outer_container`. -/
def inspectOuterContainer (reference : String) : Step (Option (List (String × Json))) := do
  let left ← call (I := hermes) (.inspect reference)
  lift (inspected left)

/-- `_capture_outer_container_id`, with the rounds that are left. -/
def captureOuterContainerId (executionName : String) : Nat → Step (Option String)
  | 0 => raise (failed .executionFailed "Runtime container identity was not observable after launch")
  | rounds + 1 => do
    let exited ← poll
    if exited.isSome then return none
    else
      match ← inspectOuterContainer executionName with
      | some container =>
        let containerId ← lift (ownedOuterContainerId s container executionName none)
        return some containerId
      | none =>
        call (I := hermes) .sleep
        captureOuterContainerId executionName rounds

/-- `_stop_outer_container` and `_remove_outer_container`: the container is inspected again, and the command is
    run for the identity that this has verified. -/
def withOuterContainer (containerId executionName : String) (command : String → Step Completed)
    (message : String) : Step Unit := do
  match ← inspectOuterContainer containerId with
  | none => return
  | some container =>
    let verifiedId ← lift (ownedOuterContainerId s container executionName (some containerId))
    let result ← command verifiedId
    raiseIf (!result.succeeded && !result.noSuchContainer) (failed .executionFailed message)

def stopOuterContainer (containerId executionName : String) : Step Unit :=
  withOuterContainer s containerId executionName (fun id => call (I := hermes) (.stop id))
    "Runtime container stop failed"

def removeOuterContainer (containerId executionName : String) : Step Unit :=
  withOuterContainer s containerId executionName (fun id => call (I := hermes) (.remove id))
    "Runtime container cleanup failed"

/-! ### Events and output -/

/-- `request.on_event(event)`, if there is a sink. -/
def deliver (kind : RuntimeEventKind) : Step Unit :=
  if r.onEvent then do
    match ← reify (call (I := hermes) (.sink kind)) with
    | .ok () => return
    | .error _ => raise (failed .executionFailed "Control-plane runtime event sink failed")
  else pure ()

/-- `RuntimeEventDispatcher.emit`. -/
def dispatch (kind : RuntimeEventKind) : Step Unit := do
  let locals ← read
  if kind = .started ∧ locals.started then
    raise (failed .invalidResult "Runtime STARTED event is duplicated")
  else if kind = .heartbeat ∧ ¬locals.started then
    raise (failed .invalidResult "Runtime HEARTBEAT event precedes STARTED")
  else
    update fun l => { l with started := true }
    deliver r kind

/-- The event is stamped by the clock before it is emitted. -/
def emit (kind : RuntimeEventKind) : Step Unit := do
  match ← call (I := hermes) .eventClock with
  | .utc => dispatch r kind
  | .otherZone => raise (.value "ValueError")
  | .notDatetime => raise (.other "TypeError")

/-- `output = self._read_output(output_stream)`. -/
def readOutput : Step Unit := do
  let text ← call (I := hermes) .readOutput
  update fun l => { l with output := text }

/-! ### Supervision -/

/-- The polling loop: whether the marker was found in the last round. -/
def pollRounds (start : Rat) : Nat → Rat → Step Bool
  | 0, _ => giveUp
  | rounds + 1, lastHeartbeat => do
    let now ← monotonic
    let elapsed := now - start
    raiseIf (elapsed > r.timeoutSeconds)
      (failed .timeout (r.role.value ++ " runtime exceeded timeout " ++ toString r.timeoutSeconds ++ "s"))
    let due := elapsed - lastHeartbeat ≥ 5
    whenever due (emit r .heartbeat)
    readOutput
    let locals ← read
    let found := markerFound locals.output r.completionMarker
    let exited ← poll
    if exited.isSome then return found
    else if r.role ≠ .planner ∧ found then return found
    else
      call (I := hermes) .sleep
      pollRounds start rounds (if due then elapsed else lastHeartbeat)

/-- A process that has written the marker has time to exit before its container is stopped. -/
def awaitExit : Step Unit := do
  match ← reify (wait 20) with
  | .ok _ => return
  | .error .timeoutExpired =>
    let locals ← read
    match locals.executionContainerId with
    | some containerId => stopOuterContainer s containerId r.requestId
    | none => return
  | .error e => raise e

/-- The rest of the inner `try` block behind the loop. -/
def settle (found : Bool) : Step Unit := do
  whenever found do
    let exited ← poll
    whenever exited.isNone (awaitExit s r)
  let exited ← poll
  whenever exited.isNone do
    let _ ← wait 30
    return

/-- The inner `try` block. -/
def supervise (rounds : Nat) (start : Rat) : Step Unit := do
  call (I := hermes) .launch
  update fun l => { l with launched := true }
  let containerId ← captureOuterContainerId s r.requestId 40
  update fun l => { l with executionContainerId := containerId }
  emit r .started
  let found ← pollRounds r start rounds 0
  settle s r found

/-- `execution_cleanup_errors.append`, if there is an error. -/
def noteErrors (errors : List Exn) (l : Locals) : Locals :=
  { l with executionCleanupErrors := l.executionCleanupErrors ++ errors }

/-- The inner `except` block up to its `raise`: the process is terminated and the transcript read. -/
def salvage : Step Unit := do
  let locals ← read
  whenever locals.launched do
    let terminated ← reify terminate
    update fun l => noteErrors (caught terminated) { l with launched := false }
  let reread ← reify readOutput
  update (noteErrors (caught reread))

/-- The profile of a request with a sandbox; its path is noted before anything is created. -/
def prepare : Step Unit :=
  if r.sandboxed then do
    let candidate := profilePath s (profileName r)
    let present ← pathExists candidate
    whenever (!present) (update fun l => { l with profileDirectory := some candidate })
    let prepared ← prepareProfile s r
    update fun l => { l with profileDirectory := some prepared }
  else pure ()

/-- What is done before the process is launched. -/
def setUp : Step Rat := do
  validateRole s r
  prepare s r
  let start ← monotonic
  call (I := hermes) .openTranscript
  return start

/-- What is made of the exit status and the transcript. -/
def judge : Step RuntimeResult := do
  let locals ← read
  let status ← consult returncode
  let exitStatus := status.getD 0
  raiseIf (exitStatus ≠ 0)
    (.runtime { kind := .executionFailed,
                message := r.role.value ++ " runtime exited with code " ++ toString exitStatus,
                exitStatus := some exitStatus, output := locals.output })
  raiseIf (!markerFound locals.output r.completionMarker)
    (.runtime { kind := .invalidResult, message := r.role.value ++ " runtime completion marker is absent",
                exitStatus := some exitStatus, output := locals.output })
  return ⟨locals.output⟩

/-- The outer `try` block. -/
def attempt (rounds : Nat) : Step RuntimeResult := do
  let start ← setUp s r
  match ← reify (supervise s r rounds start) with
  | .ok () =>
    readOutput
    judge r
  | .error e =>
    salvage
    raise e

/-! ### Cleanup -/

/-- `_remove_profile`. -/
def removeProfile (path : String) : Step Unit := do
  match ← reify (call (I := hermes) (.removeProfile path)) with
  | .ok () => return
  | .error (.fileNotFound _) => return
  | .error e => raise e

/-- The errors of one action of `_cleanup`, for what it is about. -/
def phase {α : Type} (action : α → Step Unit) : Option α → Step (List Exn)
  | some subject => do
    let done ← reify (action subject)
    return caught done
  | none => pure []

/-- `_cleanup`. -/
def cleanup : Step (List Exn) := do
  let locals ← read
  let terminated ← phase (fun _ => terminate) (if locals.launched then some () else none)
  let removed ← phase (fun id => removeOuterContainer s id r.requestId) locals.executionContainerId
  let deleted ← phase removeProfile locals.profileDirectory
  return terminated ++ removed ++ deleted

/-- `", ".join(type(error).__name__ for error in errors)`. -/
def errorNames (errors : List Exn) : String := String.intercalate ", " (errors.map Exn.typeName)

/-- What a failure of the cleanup alone is reported as. -/
def cleanupFailed (errors : List Exn) (output : String) : RuntimeError where
  kind := .executionFailed
  message := "Agent runtime cleanup failed: " ++ errorNames errors
  output

/-- The end of `execute`. -/
def conclude (locals : Locals) (errors : List Exn) : Except Exn RuntimeResult → Step RuntimeResult
  | .error e =>
    raise (.runtime { normalizeError r locals.output e with secondaryErrors := errors.map Exn.typeName })
  | .ok result => do
    raiseIf (!errors.isEmpty) (.runtime (cleanupFailed errors locals.output))
    return result

/-- `execute`. -/
def execute (rounds : Nat) : Step RuntimeResult := do
  let attempted ← reify (attempt s r rounds)
  let locals ← read
  let cleanupErrors ← cleanup s r
  conclude r locals (locals.executionCleanupErrors ++ cleanupErrors) attempted

/-- A run of `execute` against an environment, with a number of polling rounds. -/
def executed (env : Environment hermes Exn) (rounds : Nat) : Ending Exn RuntimeResult × Scene hermes Exn Locals :=
  (execute s r rounds).run env ⟨{}, []⟩

end HermesOps.AgentRuntime
