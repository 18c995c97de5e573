import HermesOps.Http.ControllerHandler
import HermesOps.Http.Targets

/-! The dispatch of `server.py`: which operation, with which identifiers, the method and the path of a request
    stand for. `_protected_get`, `_protected_post` and `_protected_patch` try their branches in order, and the
    first that applies decides. Authentication and the checks of the query, the body and the other fields
    come before a branch or within it, and refuse the request; they never choose another operation. -/

namespace HermesOps.Http

open Controller (splitOnce)

/-- What a request asks for, under the names of the interface. -/
inductive Operation where
  | probe (path : String)
  | streamEvents
  | login
  | logout
  | issueCsrfChallenge
  | getSession
  | getSystemHealth
  | getSystemCapabilities
  | getSystemStatus
  | listSandboxes
  | getSandbox (sandboxId : String)
  | getHermesfileTemplate
  | listHermesfiles
  | createHermesfile
  | validateHermesfile
  | getHermesfile (sandboxId : String)
  | updateHermesfile (sandboxId : String)
  | listHermesfileRevisions (sandboxId : String)
  | getHermesfileRevision (sandboxId sourceRevision : String)
  | compareHermesfileRevisions (sandboxId : String)
  | listProjects
  | createProject
  | getProject (projectId : String)
  | updateProject (projectId : String)
  | commandProject (projectId command : String)
  | listProjectObjectives (projectId : String)
  | listPlans
  | getPlan (planId : String)
  | listPlanTasks (planId : String)
  | listPlanDependencies (planId : String)
  | listPlanAttempts (planId : String)
  | listReviewerAssignments
  | getReviewerAssignment (assignmentId : String)
  | listRunReviewerAssignments (runId : String)
  | listObjectives
  | createObjective
  | getObjective (objectiveId : String)
  | commandObjective (objectiveId command : String)
  | listObjectiveTasks (objectiveId : String)
  | listReviews
  | getReview (reviewId : String)
  | getReviewEvidence (reviewId : String)
  | commandReview (reviewId command : String)
  | listRecoveries
  | getRecovery (recoveryId : String)
  | getTask (taskId : String)
  | listTaskRuns (taskId : String)
  | getRun (runId : String)
  | getRunLogs (runId : String)
  | getOperation (operationId : String)
  deriving DecidableEq

/-! ### Branches -/

/-- A branch of a dispatch. -/
inductive Branch where
  /-- `path == ...`. -/
  | exactly (path : String) (operation : Operation)
  /-- `path.startswith(lead) and path.endswith(trail)`: an identifier stands between the two. -/
  | item (lead trail : String) (operation : String → Operation)
  /-- `path.startswith(lead) and marker in path[len(lead):]`. -/
  | command (lead : String) (operation : String → String → Operation)
  /-- The segments behind `/api/v1/hermesfiles/`. -/
  | hermesfile

section Dispatch

variable (decode : String → String)

/-- `unquote` of a part of the path that is not empty and has no slash. -/
def identifier (part : String) : Option String :=
  let id := unquote decode part
  if id = "" ∨ '/' ∈ id.toList then none else some id

/-- `path[len(lead):-len(trail)]`; the two may overlap. -/
def between (lead trail path : String) : String :=
  String.ofList ((path.toList.take (path.length - trail.length)).drop lead.length)

/-- The reads of a Hermesfile. -/
def hermesfileOperation (suffix : String) : Option Operation :=
  let segments := (suffix.toList.splitOn '/').map fun part => unquote decode (String.ofList part)
  if "" ∈ segments then none
  else
    match segments with
    | [sandboxId] => some (.getHermesfile sandboxId)
    | [sandboxId, part] =>
      if part = "revisions" then some (.listHermesfileRevisions sandboxId)
      else if part = "diff" then some (.compareHermesfileRevisions sandboxId)
      else none
    | [sandboxId, part, sourceRevision] =>
      if part = "revisions" then some (.getHermesfileRevision sandboxId sourceRevision) else none
    | _ => none

/-- What a branch decides: nothing if it does not apply, and no operation for `route_not_found`. -/
def Branch.decides (path : String) : Branch → Option (Option Operation)
  | .exactly expected operation => if path = expected then some (some operation) else none
  | .item lead trail operation =>
    if lead.toList <+: path.toList ∧ trail.toList <:+ path.toList then
      some ((identifier decode (between lead trail path)).map operation)
    else none
  | .command lead operation =>
    (behind lead path).bind fun rest =>
      (splitOnce "/commands/".toList rest.toList).map fun (part, last) =>
        (identifier decode (String.ofList part)).bind fun id =>
          (identifier decode (String.ofList last)).map (operation id)
  | .hermesfile => (behind "/api/v1/hermesfiles/" path).map (hermesfileOperation decode)

/-- The first branch that applies decides. -/
def dispatch (branches : List Branch) (path : String) : Option Operation :=
  (branches.findSome? (Branch.decides decode path)).join

end Dispatch

/-! ### The routes -/

/-- `_protected_get`. -/
def protectedGet : List Branch :=
  [ .exactly "/api/v1/auth/session" .getSession,
    .exactly "/api/v1/system/health" .getSystemHealth,
    .exactly "/api/v1/system/capabilities" .getSystemCapabilities,
    .exactly "/api/v1/system/status" .getSystemStatus,
    .exactly "/api/v1/sandboxes" .listSandboxes,
    .item "/api/v1/sandboxes/" "" .getSandbox,
    .exactly "/api/v1/hermesfiles/template" .getHermesfileTemplate,
    .exactly "/api/v1/hermesfiles" .listHermesfiles,
    .hermesfile,
    .exactly "/api/v1/projects" .listProjects,
    .exactly "/api/v1/plans" .listPlans,
    .item "/api/v1/plans/" "/tasks" .listPlanTasks,
    .item "/api/v1/plans/" "/dependencies" .listPlanDependencies,
    .item "/api/v1/plans/" "/attempts" .listPlanAttempts,
    .item "/api/v1/plans/" "" .getPlan,
    .exactly "/api/v1/reviewer-assignments" .listReviewerAssignments,
    .item "/api/v1/reviewer-assignments/" "" .getReviewerAssignment,
    .exactly "/api/v1/objectives" .listObjectives,
    .item "/api/v1/projects/" "/objectives" .listProjectObjectives,
    .exactly "/api/v1/reviews" .listReviews,
    .exactly "/api/v1/recoveries" .listRecoveries,
    .item "/api/v1/reviews/" "/evidence" .getReviewEvidence,
    .item "/api/v1/reviews/" "" .getReview,
    .item "/api/v1/recoveries/" "" .getRecovery,
    .item "/api/v1/objectives/" "/tasks" .listObjectiveTasks,
    .item "/api/v1/tasks/" "/runs" .listTaskRuns,
    .item "/api/v1/runs/" "/reviewer-assignments" .listRunReviewerAssignments,
    .item "/api/v1/runs/" "/logs" .getRunLogs,
    .item "/api/v1/tasks/" "" .getTask,
    .item "/api/v1/runs/" "" .getRun,
    .item "/api/v1/objectives/" "" .getObjective,
    .item "/api/v1/operations/" "" .getOperation,
    .item "/api/v1/projects/" "" .getProject ]

/-- `_handle_get`: the technical probes come first. -/
def handleGet : List Branch :=
  ["/health", "/ready", "/version"].map (fun path => .exactly path (.probe path)) ++ protectedGet

/-- `_protected_post`. -/
def protectedPost : List Branch :=
  [ .exactly "/api/v1/auth/login" .login,
    .exactly "/api/v1/auth/logout" .logout,
    .exactly "/api/v1/auth/csrf" .issueCsrfChallenge,
    .exactly "/api/v1/hermesfiles/validate" .validateHermesfile,
    .exactly "/api/v1/hermesfiles" .createHermesfile,
    .exactly "/api/v1/projects" .createProject,
    .command "/api/v1/projects/" .commandProject,
    .exactly "/api/v1/objectives" .createObjective,
    .command "/api/v1/objectives/" .commandObjective,
    .command "/api/v1/reviews/" .commandReview ]

/-- `_protected_patch`. -/
def protectedPatch : List Branch :=
  [ .item "/api/v1/projects/" "" .updateProject,
    .item "/api/v1/hermesfiles/" "" .updateHermesfile ]

/-- The operation of a path; none for `route_not_found` and `method_not_allowed`. -/
def controllerOperation (decode : String → String) (method : Method) (path : String) : Option Operation :=
  match method with
  | .get | .head => dispatch decode handleGet path
  | .post => if isPostPath path then dispatch decode protectedPost path else none
  | .patch => if isPatchPath path then dispatch decode protectedPatch path else none
  | .options | .other => none

/-- The operation of a request and the query that it is handed; `do_GET` looks for the path of the event
    stream before it splits the target. -/
def controllerDispatch (validNetloc : String → Bool) (decode : String → String) (method : Method)
    (target : String) : Option (Operation × String) :=
  if method = .get ∧ upTo '?' target.toList = websocketPath.toList then some (.streamEvents, "")
  else
    (urlSplit validNetloc target).bind fun url =>
      (controllerOperation decode method url.path).map fun operation => (operation, url.query)

end HermesOps.Http
