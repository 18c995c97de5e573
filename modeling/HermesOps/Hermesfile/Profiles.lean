import HermesOps.Controller.CommandRecords
import HermesOps.Hermesfile.Source

/-! `sandbox_profiles.py` and the two commands of `hermesfile_lifecycle.py`, on the tables of the
    migrations 020 and 022. `create` and `update` are one write transaction each, with the clock read
    inside it; `import_source` reads the clock before its transaction and reads the profile back after
    it, so that other writers come between its three parts. A JSON column holds the tree whose text it
    is, and a time is a number of milliseconds, printed with a fixed width. -/

namespace HermesOps.Profiles

open Schemes Controller.Commands Hermesfile
open Controller (Json Result Keys isPrefixedHex isHexChar require validateIdempotencyKey)

/-! ### Tables -/

/-- The states of a profile. -/
inductive ProfileState where
  | draft | ready | active | inactive | archived
  deriving DecidableEq

/-- A row of `sandbox_profiles`. -/
structure ProfileRow where
  profileName : String
  displayName : String
  description : String
  labels : Value
  sourceFormat : String
  state : ProfileState
  currentRevisionId : String
  currentSourceRevision : Nat
  activeImageDigest : Option String
  resourceRevision : Nat
  createdAt : Time
  updatedAt : Time

/-- A row of `sandbox_profile_revisions`. -/
structure RevisionRow where
  sandboxId : String
  sourceRevision : Nat
  sourceFormat : String
  apiVersion : String
  sourceText : String
  sourceSha256 : String
  canonicalJson : String
  canonicalSha256 : String
  canonicalSize : Nat
  diagnostics : Value
  createdAt : Time

structure Tables where
  profiles : Table String ProfileRow
  revisions : Table String RevisionRow

def Tables.empty : Tables := ⟨.empty, .empty⟩

/-- `SANDBOX_ID_PATTERN`. -/
def isSandboxId : String → Bool := isPrefixedHex "sandbox-"

/-- `REVISION_ID_PATTERN`. -/
def isRevisionId : String → Bool := isPrefixedHex "sandbox-revision-"

/-- `SHA256_PATTERN`. -/
def isSha256 (s : String) : Bool := s.length = 64 ∧ s.toList.all isHexChar

/-- `IMAGE_DIGEST_PATTERN`. -/
def isImageDigest (s : String) : Bool := digestPattern.fullMatch s

def hermesfileV1 : String := "hermesfile-v1"

def hermesopsV1 : String := "hermesops.dev/v1"

variable (y : Reader)

/-- The text of a JSON column is no longer than this. -/
def fits (maximum : Nat) (value : Value) : Bool :=
  (jsonText y value).any fun text => text.length ≤ maximum

/-- The constraints of `sandbox_profiles` on one row. -/
def ProfileRow.check (sandboxId : String) (row : ProfileRow) : Bool :=
  isSandboxId sandboxId ∧ namePattern.fullMatch row.profileName ∧
    1 ≤ row.displayName.length ∧ row.displayName.length ≤ 120 ∧ row.description.length ≤ 1000 ∧
    fits y 32768 row.labels ∧ row.sourceFormat = hermesfileV1 ∧ 1 ≤ row.currentSourceRevision ∧
    row.activeImageDigest.all isImageDigest ∧ 1 ≤ row.resourceRevision ∧ row.createdAt ≤ row.updatedAt

/-- The constraints of `sandbox_profile_revisions` on one row. -/
def RevisionRow.check (revisionId : String) (row : RevisionRow) : Bool :=
  isRevisionId revisionId ∧ 1 ≤ row.sourceRevision ∧ row.sourceFormat = hermesfileV1 ∧
    row.apiVersion = hermesopsV1 ∧ 1 ≤ row.sourceText.length ∧ row.sourceText.length ≤ 262144 ∧
    isSha256 row.sourceSha256 ∧ 2 ≤ row.canonicalJson.length ∧ row.canonicalJson.length ≤ 524288 ∧
    isSha256 row.canonicalSha256 ∧ 2 ≤ row.canonicalSize ∧ row.canonicalSize ≤ 524288 ∧
    fits y 131072 row.diagnostics

/-- `INSERT INTO sandbox_profiles`; `profile_name` is `UNIQUE`. -/
def Tables.insertProfile (t : Tables) (sandboxId : String) (row : ProfileRow) : Option Tables :=
  if row.check y sandboxId ∧ ¬t.profiles.any fun _ r => r.profileName = row.profileName then
    (t.profiles.insert sandboxId row).map fun profiles => { t with profiles }
  else none

/-- `INSERT INTO sandbox_profile_revisions`; a profile has one revision of each number. -/
def Tables.insertRevision (t : Tables) (revisionId : String) (row : RevisionRow) : Option Tables :=
  if row.check y revisionId ∧
      ¬t.revisions.any fun _ r => r.sandboxId = row.sandboxId ∧ r.sourceRevision = row.sourceRevision then
    (t.revisions.insert revisionId row).map fun revisions => { t with revisions }
  else none

/-- The triggers on an update of a profile. -/
def triggersAllow (old new : ProfileRow) : Bool :=
  new.resourceRevision = old.resourceRevision + 1 ∧
    new.currentSourceRevision = old.currentSourceRevision + 1 ∧
    new.currentRevisionId ≠ old.currentRevisionId

/-- `UPDATE sandbox_profiles … WHERE sandbox_id = ?`. -/
def Tables.updateProfile (t : Tables) (sandboxId : String) (f : ProfileRow → ProfileRow) :
    Option Tables :=
  match t.profiles.get? sandboxId with
  | none => some t
  | some row =>
    if triggersAllow row (f row) ∧ (f row).check y sandboxId then
      some { t with profiles := t.profiles.updateAt sandboxId f }
    else none

/-- The row's current revision is a revision of the profile under its number. -/
def Tables.isCurrent (t : Tables) (sandboxId : String) (row : ProfileRow) : Bool :=
  (t.revisions.get? row.currentRevisionId).any fun r =>
    r.sandboxId = sandboxId ∧ r.sourceRevision = row.currentSourceRevision

/-- The two deferred foreign keys. -/
def Tables.consistent (t : Tables) : Bool :=
  (t.profiles.rows.all fun x => t.isCurrent x.1 x.2) ∧
    t.revisions.rows.all fun x => (t.profiles.get? x.2.sandboxId).isSome

/-! ### Reading profiles -/

/-- A profile with its current revision. -/
structure CurrentRow where
  sandboxId : String
  profile : ProfileRow
  revision : RevisionRow

/-- The join with the current revision, by its identifier. -/
def Tables.joined (t : Tables) (test : String → ProfileRow → Bool) : List CurrentRow :=
  (t.profiles.select test).filterMap fun x =>
    (t.revisions.get? x.2.currentRevisionId).bind fun r =>
      if r.sandboxId = x.1 then some ⟨x.1, x.2, r⟩ else none

/-- `_select_current_sql`, which compares the number as well. -/
def Tables.selectCurrent (t : Tables) (test : String → ProfileRow → Bool) : List CurrentRow :=
  (t.joined test).filter fun x => x.revision.sourceRevision = x.profile.currentSourceRevision

/-- `_public_text`. -/
def publicText (minimum maximum : Nat) (allowNewline : Bool) (value : Value) : Option String :=
  match value with
  | .str s =>
    if minimum ≤ s.length ∧ s.length ≤ maximum ∧ ¬s.toList.any (isControl allowNewline) ∧
        (allowNewline ∨ ¬s.toList.any fun c => c = '\n' ∨ c = '\r') ∧ ¬credentialLike s then some s
    else none
  | _ => none

/-- A diagnostic as it is shown. -/
structure PublicDiagnostic where
  severity : String
  code : String
  path : String
  message : String
  documentation : String

/-- What the two reads show of a profile. -/
structure Profile where
  id : String
  name : String
  profileName : String
  description : String
  labels : List (String × String)
  sourceFormat : String
  sourceRevision : Nat
  state : ProfileState
  activeImageDigest : Option String
  sourceSha256 : String
  canonicalSha256 : String
  canonicalSize : Nat
  diagnostics : List PublicDiagnostic
  createdAt : Time
  updatedAt : Time
  resourceRevision : Nat

/-- The checks of `_profile_projection` on the plain columns. -/
def CurrentRow.wellFormed (x : CurrentRow) : Bool :=
  isSandboxId x.sandboxId ∧ namePattern.fullMatch x.profile.profileName ∧
    x.profile.sourceFormat = hermesfileV1 ∧ isSha256 x.revision.sourceSha256 ∧
    isSha256 x.revision.canonicalSha256 ∧ x.profile.createdAt ≤ x.profile.updatedAt ∧
    1 ≤ x.profile.currentSourceRevision ∧ 1 ≤ x.profile.resourceRevision ∧
    2 ≤ x.revision.canonicalSize ∧ x.revision.canonicalSize ≤ 524288 ∧
    x.profile.activeImageDigest.all isImageDigest

/-- `_load_strict_json` of an object of at most `maximum` members. -/
def strictObject (maximum : Nat) (value : Value) : Option Hermesfile.Members :=
  match value with
  | .map m => if m.length ≤ maximum ∧ (Members.keys m).Nodup then some m else none
  | _ => none

def publicLabel (x : String × Value) : Option (String × String) :=
  if labelPattern.fullMatch x.1 then (publicText 0 120 false x.2).map fun s => (x.1, s) else none

def diagnosticKeys : List String := ["code", "documentation", "message", "path", "severity"]

def publicDiagnostic (value : Value) : Option PublicDiagnostic := do
  let m ← strictObject 5 value
  if m.length = 5 ∧ diagnosticKeys.all fun key => key ∈ Members.keys m then
    let severity ← (Members.get m "severity").text?
    if severity ∈ ["info", "warning", "error"] then
      return ⟨severity, ← publicText 1 128 false (Members.get m "code"),
        ← publicText 1 4096 false (Members.get m "path"),
        ← publicText 1 1000 false (Members.get m "message"),
        ← publicText 1 4096 false (Members.get m "documentation")⟩
    else none
  else none

def publicDiagnostics (value : Value) : Option (List PublicDiagnostic) :=
  match value with
  | .seq items => if items.length ≤ 100 then items.mapM publicDiagnostic else none
  | _ => none

def projectionFailed : Controller.ControllerError where
  status := 503
  code := "sandbox_profile_projection_failed"
  title := "Sandbox profile projection failed"
  detail := some "Persisted sandbox profile metadata is malformed."

/-- `_profile_projection`, where the text columns are read. -/
def CurrentRow.project (x : CurrentRow) : Option Profile := do
  if x.wellFormed then
    let displayName ← publicText 1 120 false (.str x.profile.displayName)
    let description ← publicText 0 1000 true (.str x.profile.description)
    let labels ← (← strictObject 64 x.profile.labels).mapM publicLabel
    let diagnostics ← publicDiagnostics x.revision.diagnostics
    return {
      id := x.sandboxId
      name := displayName
      profileName := x.profile.profileName
      description
      labels
      sourceFormat := x.profile.sourceFormat
      sourceRevision := x.profile.currentSourceRevision
      state := x.profile.state
      activeImageDigest := x.profile.activeImageDigest
      sourceSha256 := x.revision.sourceSha256
      canonicalSha256 := x.revision.canonicalSha256
      canonicalSize := x.revision.canonicalSize
      diagnostics
      createdAt := x.profile.createdAt
      updatedAt := x.profile.updatedAt
      resourceRevision := x.profile.resourceRevision }
  else none

/-- `_profile_projection`. -/
def profileProjection (x : CurrentRow) : Result Profile :=
  match x.project with
  | some profile => .ok profile
  | none => .error projectionFailed

def profileNotFound : Controller.ControllerError :=
  { status := 404, code := "sandbox_profile_not_found", title := "Sandbox profile not found" }

/-- `get_profile`, when the database answers. -/
def getProfile (t : Tables) (sandboxId : String) : Result Profile :=
  if isSandboxId sandboxId then
    match (t.selectCurrent fun id _ => id = sandboxId).head? with
    | some row => profileProjection row
    | none => .error profileNotFound
  else .error profileNotFound

def maxListLimit : Nat := 200

/-- The order of a listing. -/
def listedBefore (a b : CurrentRow) : Bool :=
  a.profile.profileName < b.profile.profileName ∨
    (a.profile.profileName = b.profile.profileName ∧ a.sandboxId ≤ b.sandboxId)

/-- `list_profiles`, when the database answers; a cursor is the name and identifier it encodes. -/
def listProfiles (t : Tables) (limit : Nat) (cursor : Option (String × String))
    (state : Option ProfileState) : Result (List Profile × Option (String × String)) := do
  require (1 ≤ limit ∧ limit ≤ maxListLimit)
    { status := 400, code := "invalid_limit", title := "Invalid pagination limit"
      detail := some "limit must be between 1 and 200." }
  let rows := ((t.selectCurrent fun id row => (state.all fun s => row.state = s) ∧
      cursor.all fun after => after.1 < row.profileName ∨
        (after.1 = row.profileName ∧ after.2 < id)).insertionSort
    fun a b => listedBefore a b).take (limit + 1)
  let items ← (rows.take limit).mapM profileProjection
  let next := if limit < rows.length then (rows.take limit).getLast? else none
  return (items, next.map fun row => (row.profile.profileName, row.sandboxId))

/-! ### Accepted sources -/

/-- What the stores take from the metadata of a canonical document. -/
structure Metadata where
  profileName : String
  displayName : String
  description : String
  labels : Hermesfile.Members

/-- `str(metadata.get(key) or "")` of a text. -/
def textOrEmpty : Value → Option String
  | .null => some ""
  | .str s => some s
  | _ => none

/-- `metadata.get("labels") or {}` of an object. -/
def labelsOrEmpty : Value → Option Hermesfile.Members
  | .null => some []
  | .map m => some m
  | _ => none

/-- The four values; nothing when one is of a type that no accepted document has. -/
def readMetadata (canonical : Value) : Option Metadata := do
  let root ← canonical.members?
  let metadata ← (Members.get root "metadata").members?
  let profileName ← (Members.get metadata "name").text?
  let displayName ← textOrEmpty (Members.get metadata "displayName")
  let description ← textOrEmpty (Members.get metadata "description")
  let labels ← labelsOrEmpty (Members.get metadata "labels")
  return ⟨profileName, if displayName = "" then profileName else displayName, description, labels⟩

/-- A source that passed both checks. -/
structure Submission where
  source : String
  metadata : Metadata
  accepted : Accepted

def secretDetected : Controller.ControllerError where
  status := 400
  code := "sandbox_source_secret_detected"
  title := "Sandbox profile source is not persistence-eligible"
  detail := some "The source contains credential-like material and was not stored."

/-- `_validated_result` and `_validated`, which differ in the error of an invalid source. -/
def submit (invalid : Controller.ControllerError) (source : String) : Except Failure Submission :=
  if credentialLike source then .error (.controller secretDetected)
  else
    match validateSource y source with
    | .invalid => .error (.controller invalid)
    | .raised => .error .uncaught
    | .valid accepted =>
      match readMetadata accepted.canonical with
      | some metadata => .ok ⟨source, metadata, accepted⟩
      | none => .error .uncaught

/-- `item.as_dict()`. -/
def diagnosticValue (d : Diagnostic) : Value :=
  .map [
    ("code", .str d.code),
    ("documentation", .str d.documentation),
    ("message", .str d.message),
    ("path", .str d.path),
    ("severity", .str (if d.severity = .error then "error" else "warning"))]

/-- The row of a new profile. -/
def Submission.profileRow (s : Submission) (revisionId : String) (now : Time) : ProfileRow where
  profileName := s.metadata.profileName
  displayName := s.metadata.displayName
  description := s.metadata.description
  labels := .map s.metadata.labels
  sourceFormat := hermesfileV1
  state := .draft
  currentRevisionId := revisionId
  currentSourceRevision := 1
  activeImageDigest := none
  resourceRevision := 1
  createdAt := now
  updatedAt := now

/-- The row of a revision. -/
def Submission.revisionRow (s : Submission) (sandboxId : String) (sourceRevision : Nat) (now : Time) :
    RevisionRow where
  sandboxId
  sourceRevision
  sourceFormat := hermesfileV1
  apiVersion := hermesopsV1
  sourceText := s.source
  sourceSha256 := s.accepted.sourceSha256
  canonicalJson := s.accepted.canonicalText
  canonicalSha256 := s.accepted.canonicalSha256
  canonicalSize := s.accepted.canonicalText.utf8ByteSize
  diagnostics := .seq (s.accepted.diagnostics.map diagnosticValue)
  createdAt := now

/-- The columns an update sets. -/
def Submission.updatedRow (s : Submission) (revisionId : String) (sourceRevision resourceRevision : Nat)
    (now : Time) (row : ProfileRow) : ProfileRow :=
  { row with
    displayName := s.metadata.displayName
    description := s.metadata.description
    labels := .map s.metadata.labels
    currentRevisionId := revisionId
    currentSourceRevision := sourceRevision
    resourceRevision
    updatedAt := now }

/-! ### Writing profiles -/

/-- The random parts of the identifiers. -/
structure Ids where
  sandboxHex : String
  revisionHex : String

def Ids.sandboxId (ids : Ids) : String := "sandbox-" ++ ids.sandboxHex

def Ids.revisionId (ids : Ids) : String := "sandbox-revision-" ++ ids.revisionHex

/-- A statement on the two tables. -/
def writeTables (f : Tables → Option Tables) : Command Tables Unit :=
  execute fun t => (f t.content).map fun content => { t with content }

/-- `COMMIT`, which checks the deferred foreign keys. -/
def commit : Command Tables Unit := execute fun t => if t.content.consistent then some t else none

/-- The two insertions of a new profile. -/
def insertNew (s : Submission) (ids : Ids) (now : Time) : Command Tables Unit := do
  writeTables fun t => t.insertProfile y ids.sandboxId (s.profileRow ids.revisionId now)
  writeTables fun t => t.insertRevision y ids.revisionId (s.revisionRow ids.sandboxId 1 now)

/-- The next revision of a profile. -/
def appendRevision (s : Submission) (ids : Ids) (now : Time) (sandboxId : String) (row : ProfileRow) :
    Command Tables Unit := do
  let sourceRevision := row.currentSourceRevision + 1
  writeTables fun t =>
    t.insertRevision y ids.revisionId (s.revisionRow sandboxId sourceRevision now)
  writeTables fun t =>
    t.updateProfile y sandboxId
      (s.updatedRow ids.revisionId sourceRevision (row.resourceRevision + 1) now)

/-! ### `create` and `update` -/

variable (p : Hashing)

def naming : Naming where
  keyLabel := "hermesops-hermesfile-idempotency-v1\x00"
  resourceType := "sandbox_profile"
  aggregateType := "sandbox"

def invalidRequest : Controller.ControllerError where
  status := 400
  code := "invalid_hermesfile_request"
  title := "Invalid Hermesfile request"
  detail := some "The JSON body must contain exactly one string field named source."

def sizeInvalid : Controller.ControllerError where
  status := 400
  code := "hermesfile_source_size_invalid"
  title := "Hermesfile source size invalid"
  detail := some "The source must contain between 1 byte and 256 KiB."

def sourceInvalid : Controller.ControllerError where
  status := 400
  code := "hermesfile_source_invalid"
  title := "Hermesfile source is invalid"
  detail := some "Validate the source and correct all errors before persistence."

/-- `_source_bytes`. -/
def sourceOf (body : Controller.Members) : Result String :=
  match body with
  | [(key, .str source)] =>
    if key ≠ "source" then .error invalidRequest
    else if 1 ≤ source.utf8ByteSize ∧ source.utf8ByteSize ≤ maxSourceBytes then .ok source
    else .error sizeInvalid
  | _ => .error invalidRequest

/-- What an accepted command reports of the profile. -/
def report (kind eventType sandboxId : String) (s : Submission) (sourceRevision resourceRevision : Nat) :
    Report :=
  let facts : Controller.Members := [
    ("canonical_sha256", .str s.accepted.canonicalSha256),
    ("profile_name", .str s.metadata.profileName),
    ("resource_revision", .int resourceRevision)]
  { kind
    eventType
    targetId := sandboxId
    projectId := none
    result := facts ++ [("sandbox_id", .str sandboxId), ("source_revision", .int sourceRevision)]
    data := facts ++ [("source_revision", .int sourceRevision)]
    reason := none
    revision := resourceRevision }

def createWork (s : Submission) (ids : Ids) (d : Draws) (keys : Keys) :
    Command Tables (Json × String) := do
  if ← query fun t => t.content.profiles.any fun _ r => r.profileName = s.metadata.profileName then
    refuse 409 "hermesfile_profile_conflict" "Hermesfile profile already exists"
  else
    insertNew y s ids d.now
    conclude p naming (report "hermesfile.create" "sandbox.created" ids.sandboxId s 1 1) keys d

/-- The checks of `create` before its transaction. -/
def checkCreate (r : Request) : Except Failure (String × Submission) := do
  let key ← (validateIdempotencyKey r.key).mapError .controller
  let source ← (sourceOf r.body).mapError .controller
  return (key, ← submit y sourceInvalid source)

/-- `create`; its status is 202. -/
def create (r : Request) (ids : Ids) (t : Ledger Tables) : Except Failure Json × Ledger Tables :=
  match checkCreate y r with
  | .error e => (.error e, t)
  | .ok (key, s) =>
    Txn.atomically r.draws.failsAfter (do
      let payload ← answer p naming "POST" r key (createWork y p s ids r.draws)
      commit
      return payload) t

/-- `_profile_row`. -/
def profileRow (sandboxId : String) : Command Tables CurrentRow :=
  if isSandboxId sandboxId then do
    match ← query fun t => (t.content.selectCurrent fun id _ => id = sandboxId).head? with
    | some row => return row
    | none => .raise (.controller profileNotFound)
  else .raise (.controller profileNotFound)

def updateWork (s : Submission) (sandboxId : String) (expected : Nat) (ids : Ids) (d : Draws)
    (keys : Keys) : Command Tables (Json × String) := do
  let row ← profileRow sandboxId
  if row.profile.resourceRevision ≠ expected then
    refuse 409 "resource_revision_conflict" "Hermesfile revision conflict"
  else if row.profile.state = .archived then
    refuse 409 "sandbox_profile_archived" "Sandbox profile is archived"
  else if s.metadata.profileName ≠ row.profile.profileName then
    refuse 409 "hermesfile_identity_immutable" "Hermesfile profile identity is immutable"
  else if row.revision.sourceSha256 = s.accepted.sourceSha256 then
    refuse 409 "hermesfile_unchanged" "Hermesfile source is unchanged"
  else
    appendRevision y s ids d.now sandboxId row.profile
    conclude p naming
      (report "hermesfile.update" "sandbox.updated" sandboxId s
        (row.profile.currentSourceRevision + 1) (row.profile.resourceRevision + 1)) keys d

/-- The checks of `update` before its transaction. -/
def checkUpdate (r : Request) (ifMatch : Option String) :
    Except Failure (String × Nat × Submission) := do
  let key ← (validateIdempotencyKey r.key).mapError .controller
  let expected ← (parseIfMatch ifMatch).mapError .controller
  let source ← (sourceOf r.body).mapError .controller
  return (key, expected, ← submit y sourceInvalid source)

/-- `update`; its status is 202. -/
def update (r : Request) (sandboxId : String) (ifMatch : Option String) (ids : Ids) (t : Ledger Tables) :
    Except Failure Json × Ledger Tables :=
  match checkUpdate y r ifMatch with
  | .error e => (.error e, t)
  | .ok (key, expected, s) =>
    Txn.atomically r.draws.failsAfter (do
      let payload ← answer p naming "PATCH" r key (updateWork y p s sandboxId expected ids r.draws)
      commit
      return payload) t

/-! ### `import_source` -/

def importInvalid : Controller.ControllerError where
  status := 400
  code := "sandbox_source_invalid"
  title := "Sandbox profile source is invalid"
  detail := some "The Hermesfile failed validation and was not stored."

def persistenceFailed : Controller.ControllerError where
  status := 503
  code := "sandbox_profile_persistence_failed"
  title := "Sandbox profile persistence failed"
  detail := some "The sandbox profile could not be persisted safely."

def profilesUnavailable : Controller.ControllerError where
  status := 503
  code := "sandbox_profiles_unavailable"
  title := "Sandbox profiles unavailable"
  detail := some "The sandbox profile store cannot serve this request."

/-- What the transaction of an import did: nothing, because the source is the current one, or a
    revision, possibly the first. -/
inductive Imported where
  | unchanged (sandboxId : String)
  | stored (sandboxId : String) (created : Bool)
  deriving DecidableEq

/-- The transaction; an unchanged source is rolled back. -/
def importWork (s : Submission) (now : Time) (ids : Ids) : Command Tables Imported := do
  match ← query fun t =>
      (t.content.joined fun _ r => r.profileName = s.metadata.profileName).head? with
  | some row =>
    if row.revision.sourceSha256 = s.accepted.sourceSha256 then return .unchanged row.sandboxId
    else
      appendRevision y s ids now row.sandboxId row.profile
      commit
      return .stored row.sandboxId false
  | none =>
    insertNew y s ids now
    commit
    return .stored ids.sandboxId true

/-- How `import_source` reports what ends its transaction. -/
def importFailure : Failure → Failure
  | .integrity => .controller persistenceFailed
  | .database => .controller profilesUnavailable
  | e => e

/-! ### The three writers -/

/-- An import between its parts: it waits for the write lock with the time it has read, or it has
    finished its transaction and reads the profile. -/
inductive Import where
  | waiting (s : Submission) (now : Time)
  | finished (outcome : Imported)

/-- The store, the latest reading of the clock, and the imports in progress. -/
structure World where
  store : Ledger Tables
  clock : Time
  imports : Nat → Option Import

inductive Action where
  | create (r : Request) (ids : Ids)
  | update (r : Request) (sandboxId : String) (ifMatch : Option String) (ids : Ids)
  | receive (i : Nat) (source : String) (now : Time)
  | write (i : Nat) (ids : Ids) (failsAfter : Option Nat)
  | read (i : Nat) (answers : Bool)

/-- What an operation returns. -/
inductive Reply where
  | accepted (payload : Json)
  | imported (profile : Profile) (created revisionCreated : Bool)

/-- The readings of a request are in order and none is before the latest. -/
def World.timely (w : World) (d : Draws) : Bool := w.clock ≤ d.reservedAt ∧ d.reservedAt ≤ d.now

def World.setImport (w : World) (i : Nat) (x : Option Import) : World :=
  { w with imports := fun j => if j = i then x else w.imports j }

/-- The last part of an import. -/
def readBack (t : Tables) (outcome : Imported) (answers : Bool) : Except Failure Reply :=
  if answers then
    match outcome with
    | .unchanged sandboxId =>
      ((getProfile t sandboxId).map fun profile => .imported profile false false).mapError .controller
    | .stored sandboxId created =>
      ((getProfile t sandboxId).map fun profile => .imported profile created true).mapError .controller
  else .error (.controller profilesUnavailable)

/-- The part of the operation that the action stands for: the reply, when the operation ends here, and
    the state after it. -/
def act (a : Action) (w : World) : Option (Except Failure Reply) × World :=
  match a with
  | .create r ids =>
    if w.timely r.draws then
      let result := create y p r ids w.store
      (some (result.1.map .accepted), { w with store := result.2, clock := r.draws.now })
    else (none, w)
  | .update r sandboxId ifMatch ids =>
    if w.timely r.draws then
      let result := update y p r sandboxId ifMatch ids w.store
      (some (result.1.map .accepted), { w with store := result.2, clock := r.draws.now })
    else (none, w)
  | .receive i source now =>
    if w.clock ≤ now ∧ (w.imports i).isNone then
      match submit y importInvalid source with
      | .error e => (some (.error e), w)
      | .ok s => (none, { w.setImport i (some (.waiting s now)) with clock := now })
    else (none, w)
  | .write i ids failsAfter =>
    match w.imports i with
    | some (.waiting s now) =>
      match Txn.atomically failsAfter (importWork y s now ids) w.store with
      | (.ok outcome, store) => (none, { w.setImport i (some (.finished outcome)) with store })
      | (.error e, store) =>
        (some (.error (importFailure e)), { w.setImport i none with store })
    | _ => (none, w)
  | .read i answers =>
    match w.imports i with
    | some (.finished outcome) =>
      (some (readBack w.store.content outcome answers), w.setImport i none)
    | _ => (none, w)

/-- Empty tables, and the three writers in any order. -/
def profileMachine : Machine Action World where
  start w := w.store.content = .empty ∧ w.store.records = .empty ∧ ∀ i, w.imports i = none
  step a w := (act y p a w).2

end HermesOps.Profiles
