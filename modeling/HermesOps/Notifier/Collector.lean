import HermesOps.Controller.ObjectiveCommands
import HermesOps.Notifier.Outbox
import HermesOps.Schemes.Log

/-! How the outbox is filled. `collect_events` takes the write lock, reads the objective events and the
    control events behind a cursor and every approval, inserts a notification for each selected row and
    each enabled channel under a key that says what it is for, and commits. Its three parts are steps of
    their own, so a process may stop between them; the sources change in transactions of other programs. -/

namespace HermesOps.Notifier

open Schemes
open Controller (Json strip lower)

/-! ### Sources -/

/-- A row of `objective_queue`. -/
structure Objective where
  objective : String
  projectScopeJson : String

/-- A row of `objective_events`. -/
structure ObjectiveEvent where
  rowid : Nat
  objectiveEventId : String
  objectiveId : String
  eventType : String
  oldStatus : Option String
  newStatus : Option String
  createdAt : String

/-- A row of `events`, whose key is its rowid. -/
structure ControlEvent where
  eventId : Nat
  runId : Option String
  taskId : Option String
  eventType : String
  severity : String
  payloadJson : String

inductive ApprovalStatus where
  | pending | approved | rejected | expired | cancelled
  deriving DecidableEq

/-- How the column spells the status. -/
def ApprovalStatus.text : ApprovalStatus → String
  | .pending => "PENDING"
  | .approved => "APPROVED"
  | .rejected => "REJECTED"
  | .expired => "EXPIRED"
  | .cancelled => "CANCELLED"

/-- A row of `approvals`. -/
structure Approval where
  runId : String
  status : ApprovalStatus
  question : String
  optionsJson : String
  createdAt : String

/-- The tables that are read, with their keys; an objective event belongs to an objective. -/
structure Sources where
  objectives : Table String Objective
  objectiveEvents : List ObjectiveEvent
  controlEvents : List ControlEvent
  approvals : Table String Approval
  objectiveRowids : Log.Ordered ObjectiveEvent.rowid objectiveEvents
  controlRowids : Log.Ordered ControlEvent.eventId controlEvents
  positive : (∀ e ∈ objectiveEvents, 0 < e.rowid) ∧ ∀ e ∈ controlEvents, 0 < e.eventId
  objectiveEventIds : (objectiveEvents.map ObjectiveEvent.objectiveEventId).Nodup
  owned : ∀ e ∈ objectiveEvents, (objectives.get? e.objectiveId).isSome

/-- What a statement of another program does to the sources. -/
inductive Change where
  | objective (id : String) (row : Objective)
  | objectiveEvent (row : ObjectiveEvent)
  | controlEvent (row : ControlEvent)
  | approval (id : String) (row : Approval)
  | approvalStatus (id : String) (status : ApprovalStatus)

namespace Sources

variable (s : Sources)

def insertObjective (id : String) (row : Objective) : Option Sources :=
  match h : s.objectives.insert id row with
  | none => none
  | some objectives => some { s with
      objectives
      owned := by
        intro e he
        rw [Table.get?_insert h]
        split
        · rfl
        · exact s.owned e he }

/-- The new row has the largest rowid, a key of its own and an objective. -/
def insertObjectiveEvent (row : ObjectiveEvent) : Option Sources :=
  if h : (∀ e ∈ s.objectiveEvents, e.rowid < row.rowid ∧ e.objectiveEventId ≠ row.objectiveEventId) ∧
      0 < row.rowid ∧ (s.objectives.get? row.objectiveId).isSome then
    some { s with
      objectiveEvents := s.objectiveEvents ++ [row]
      objectiveRowids := s.objectiveRowids.append fun e he => (h.1 e he).1
      positive := ⟨by simpa [or_imp, forall_and] using ⟨s.positive.1, h.2.1⟩, s.positive.2⟩
      objectiveEventIds := by
        rw [List.map_append, List.nodup_append]
        refine ⟨s.objectiveEventIds, by simp, ?_⟩
        intro a ha b hb
        obtain ⟨e, he, rfl⟩ := List.mem_map.1 ha
        rw [List.map_cons, List.map_nil, List.mem_singleton] at hb
        rw [hb]
        exact (h.1 e he).2
      owned := by simpa [or_imp, forall_and] using ⟨s.owned, h.2.2⟩ }
  else none

def insertControlEvent (row : ControlEvent) : Option Sources :=
  if h : (∀ e ∈ s.controlEvents, e.eventId < row.eventId) ∧ 0 < row.eventId then
    some { s with
      controlEvents := s.controlEvents ++ [row]
      controlRowids := s.controlRowids.append h.1
      positive := ⟨s.positive.1, by simpa [or_imp, forall_and] using ⟨s.positive.2, h.2⟩⟩ }
  else none

/-- One statement; nothing when it is refused. -/
def change : Change → Option Sources
  | .objective id row => s.insertObjective id row
  | .objectiveEvent row => s.insertObjectiveEvent row
  | .controlEvent row => s.insertControlEvent row
  | .approval id row => (s.approvals.insert id row).map fun approvals => { s with approvals }
  | .approvalStatus id status =>
    some { s with approvals := s.approvals.updateAt id fun row => { row with status } }

/-- A transaction: all of its statements, or none of them. -/
def transact (changes : List Change) : Option Sources := changes.foldlM change s

end Sources

/-! ### Channels -/

/-- What the configuration and the secrets say about the channels. -/
structure Config where
  fileEnabled : Bool
  telegramMode : String
  telegramCredentials : Bool

/-- `channel_enabled`. -/
def channelEnabled (config : Config) : Channel → Except String Bool
  | .file => .ok config.fileEnabled
  | .telegram =>
    let mode := lower (strip config.telegramMode)
    if mode = "disabled" then .ok false
    else if mode ∈ ["auto", "required"] then
      if mode = "required" ∧ ¬config.telegramCredentials then
        .error "Telegram channel is required but credentials are absent"
      else .ok config.telegramCredentials
    else .error ("Unsupported Telegram mode: " ++ mode)

/-- `enabled_channels`. -/
def enabledChannels (config : Config) : Except String (List Channel) :=
  [Channel.file, Channel.telegram].filterM (channelEnabled config)

def Channel.text : Channel → String
  | .file => "FILE"
  | .telegram => "TELEGRAM"

/-! ### Letters -/

/-- What a notification is for. -/
inductive Subject where
  | objectiveEvent (e : ObjectiveEvent)
  | controlEvent (e : ControlEvent)
  | approval (id : String) (row : Approval)

/-- `value or "-"`. -/
def orDash (value : Option String) : String :=
  match value with
  | some text => if text = "" then "-" else text
  | none => "-"

namespace Subject

/-- The dedupe key up to the channel. -/
def stem : Subject → String
  | .objectiveEvent e => "objective-event:" ++ e.objectiveEventId
  | .controlEvent e => "event:" ++ toString e.eventId
  | .approval id row => "approval:" ++ id ++ ":" ++ row.status.text

def dedupeKey (s : Subject) (channel : Channel) : String := s.stem ++ ":" ++ channel.text

def eventKind : Subject → String
  | .objectiveEvent e => e.eventType
  | .controlEvent e => e.eventType
  | .approval _ row => "APPROVAL_" ++ row.status.text

def subjectType : Subject → String
  | .objectiveEvent _ => "OBJECTIVE"
  | .controlEvent _ => "RUN"
  | .approval _ _ => "APPROVAL"

def subjectId : Subject → String
  | .objectiveEvent e => e.objectiveId
  | .controlEvent e =>
    match e.runId with
    | some run => if run = "" then toString e.eventId else run
    | none => toString e.eventId
  | .approval id _ => id

def metadata : Subject → Json
  | .objectiveEvent e =>
    .obj [("created_at", .str e.createdAt), ("objective_event_id", .str e.objectiveEventId)]
  | .controlEvent e => .obj [("event_id", .int e.eventId)]
  | .approval _ row => .obj [("run_id", .str row.runId), ("status", .str row.status.text)]

end Subject

/-- The columns of a notification that no delivery writes. -/
structure Content where
  eventKind : String
  subjectType : String
  subjectId : String
  payload : Json

/-- What `enqueue` inserts. -/
structure Letter where
  message : Message
  content : Content

/-- The severity, the title and the text of a notification. -/
abbrev Rendered := Severity × String × String

/-- The arguments of `enqueue` for one channel. -/
def Subject.letter (s : Subject) (rendered : Rendered) (channel : Channel) : Letter where
  message := ⟨s.dedupeKey channel, rendered.1, channel, 5⟩
  content := ⟨s.eventKind, s.subjectType, s.subjectId,
    .obj [("metadata", s.metadata), ("text", .str rendered.2.2), ("title", .str rendered.2.1)]⟩

/-- The mapping of `objective_message`. -/
def objectiveTitles : List (String × Severity × String) :=
  [ ("OBJECTIVE_SUBMITTED", .info, "Objectif ajouté"),
    ("OBJECTIVE_PAUSED", .warning, "Objectif en pause"),
    ("OBJECTIVE_RESUMED", .info, "Objectif repris"),
    ("OBJECTIVE_CANCELLED", .warning, "Objectif annulé"),
    ("OBJECTIVE_COMPLETED", .info, "Objectif terminé"),
    ("OBJECTIVE_FAILED", .critical, "Objectif en échec"),
    ("OBJECTIVE_PLANNING_ABANDONED", .warning, "Planification interrompue puis reprise") ]

/-- The text of an objective, stripped and cut to 600 characters. -/
def excerpt (text : String) : String :=
  let text := strip text
  if 600 < text.length then String.ofList (text.toList.take 597) ++ "..." else text

/-- `objective_message`. -/
def objectiveMessage (e : ObjectiveEvent) (o : Objective) : Option Rendered :=
  (objectiveTitles.lookup e.eventType).map fun (severity, title) =>
    (severity, title, title ++ "\nID: " ++ e.objectiveId ++ "\nÉtat: " ++ orDash e.oldStatus ++ " -> " ++
      orDash e.newStatus ++ "\nProjets: " ++ (if o.projectScopeJson = "" then "[]" else o.projectScopeJson) ++
      "\nObjectif: " ++ excerpt o.objective)

/-- `selected` of `collect_control_events`. -/
def controlTitles : List (String × Severity × String) :=
  [ ("INTEGRATION_BLOCKED_HUMAN", .critical, "Intervention humaine requise"),
    ("RECOVERY_BLOCKED_HUMAN", .critical, "Récupération bloquée"),
    ("ORCHESTRATION_TASK_BLOCKED", .warning, "Tâche d'orchestration bloquée") ]

/-- The message of a control event, if its type is selected. -/
def controlMessage (e : ControlEvent) : Option Rendered :=
  (controlTitles.lookup e.eventType).map fun (severity, title) =>
    (severity, title, title ++ "\nÉvénement: " ++ e.eventType ++ "\nRun: " ++ orDash e.runId ++ "\nTâche: " ++
      orDash e.taskId ++ "\nGravité: " ++ e.severity ++ "\nDétails: " ++ e.payloadJson)

/-- The message of an approval. -/
def approvalMessage (id : String) (row : Approval) : Rendered :=
  let title := if row.status = .pending then "Décision humaine requise"
    else "Approbation " ++ lower row.status.text
  (match row.status with
    | .pending => .critical
    | .rejected | .expired | .cancelled => .warning
    | .approved => .info,
   title, title ++ "\nApproval: " ++ id ++ "\nRun: " ++ row.runId ++ "\nÉtat: " ++ row.status.text ++
    "\nQuestion: " ++ row.question ++ "\nOptions: " ++ row.optionsJson)

/-! ### Collecting -/

/-- The outbox with the columns that are fixed when a row is inserted. -/
structure Mailbox where
  outbox : Outbox
  contents : NotificationId → Option Content

/-- A random identifier that no notification has. -/
def freshId (o : Outbox) : NotificationId := (o.notifications.rows.map Prod.fst).foldr max 0 + 1

/-- `enqueue`, and whether it inserted a row. -/
def post (now : Instant) (b : Mailbox) (letter : Letter) : Mailbox × Bool :=
  let id := freshId b.outbox
  let outbox := enqueue b.outbox id letter.message now
  if (outbox.notifications.get? id).isSome then
    (⟨outbox, fun i => if i = id then some letter.content else b.contents i⟩, true)
  else ({ b with outbox }, false)

/-- One letter after the other; the number counts the rows that were inserted. -/
def postAll (now : Instant) (b : Mailbox) (letters : List Letter) : Mailbox × Nat :=
  letters.foldl (fun (b, created) letter =>
    let (b, inserted) := post now b letter
    (b, if inserted then created + 1 else created)) (b, 0)

/-- Both rows of `notification_cursors`. -/
structure Cursors where
  objectiveEvents : Option Nat
  events : Option Nat

/-- What the transaction of `collect_events` writes. `noticed` is the history of the approvals' states
    that were collected, which no program reads. -/
structure Account where
  box : Mailbox
  cursors : Cursors
  noticed : List (String × Approval)

/-- `get_cursor`. -/
def getCursor (cursor : Option Nat) : Nat := cursor.getD 0

/-- `set_cursor` behind the rows that were read, if there are any. -/
def advanced (cursor : Option Nat) (rowids : List Nat) : Option Nat :=
  if rowids = [] then cursor else some (rowids.foldl max (getCursor cursor))

/-- The letters of a row that is selected. -/
def lettersOf (channels : List Channel) (s : Subject) (rendered : Option Rendered) : List Letter :=
  match rendered with
  | none => []
  | some rendered => channels.map (s.letter rendered)

/-- `collect_objective_events`. -/
def collectObjectiveEvents (config : Config) (now : Instant) (s : Sources) (a : Account) :
    Except String (Account × Nat) := do
  let rows := (s.objectiveEvents.filter fun e => getCursor a.cursors.objectiveEvents < e.rowid).filterMap
    fun e => (s.objectives.get? e.objectiveId).map fun o => (e, o)
  let channels ← enabledChannels config
  let (box, created) := postAll now a.box (rows.flatMap fun (e, o) =>
    lettersOf channels (.objectiveEvent e) (objectiveMessage e o))
  return ({ a with
    box
    cursors.objectiveEvents := advanced a.cursors.objectiveEvents (rows.map fun x => x.1.rowid) }, created)

/-- `collect_control_events`. -/
def collectControlEvents (config : Config) (now : Instant) (s : Sources) (a : Account) :
    Except String (Account × Nat) := do
  let rows := s.controlEvents.filter fun e => getCursor a.cursors.events < e.eventId
  let channels ← enabledChannels config
  let (box, created) := postAll now a.box (rows.flatMap fun e =>
    lettersOf channels (.controlEvent e) (controlMessage e))
  return ({ a with
    box
    cursors.events := advanced a.cursors.events (rows.map ControlEvent.eventId) }, created)

/-- `collect_approvals`. -/
def collectApprovals (config : Config) (now : Instant) (s : Sources) (a : Account) :
    Except String (Account × Nat) := do
  let rows := s.approvals.rows.insertionSort fun x y => x.2.createdAt ≤ y.2.createdAt
  let channels ← enabledChannels config
  let (box, created) := postAll now a.box (rows.flatMap fun (id, row) =>
    lettersOf channels (.approval id row) (some (approvalMessage id row)))
  return ({ a with box, noticed := rows ++ a.noticed }, created)

/-! ### Processes -/

/-- The part of the transaction that comes next. -/
inductive CollectStage where
  | objectiveEvents | controlEvents | approvals | done
  deriving DecidableEq

/-- The process that holds the write lock, with what it has written so far. -/
structure Writer where
  pid : Pid
  stage : CollectStage
  draft : Account
  created : Nat

/-- Everything that is committed, the process that collects, and the processes that deliver. -/
structure Office where
  sources : Sources
  delivery : World
  contents : NotificationId → Option Content
  cursors : Cursors
  noticed : List (String × Approval)
  writer : Option Writer

inductive Errand where
  | transact (changes : List Change)
  | begin (pid : Pid)
  | collect (pid : Pid)
  | commit (pid : Pid)
  | crash (pid : Pid)
  | deliver (a : Action)

namespace Office

/-- What is committed of the account. -/
def account (w : Office) : Account := ⟨⟨w.delivery.outbox, w.contents⟩, w.cursors, w.noticed⟩

/-- The next part of the transaction; an exception rolls it back. -/
def collect (config : Config) (w : Office) (u : Writer) : Office :=
  let next (stage : CollectStage) (x : Except String (Account × Nat)) : Office :=
    match x with
    | .ok (draft, created) => { w with writer := some ⟨u.pid, stage, draft, u.created + created⟩ }
    | .error _ => { w with writer := none }
  match u.stage with
  | .objectiveEvents =>
    next .controlEvents (collectObjectiveEvents config w.delivery.clock w.sources u.draft)
  | .controlEvents => next .approvals (collectControlEvents config w.delivery.clock w.sources u.draft)
  | .approvals => next .done (collectApprovals config w.delivery.clock w.sources u.draft)
  | .done => w

/-- The commit of `collect_events`. -/
def commit (w : Office) (u : Writer) : Office :=
  { w with
    delivery := { w.delivery with outbox := u.draft.box.outbox }
    contents := u.draft.box.contents
    cursors := u.draft.cursors
    noticed := u.draft.noticed
    writer := none }

/-- A step of a delivering process waits for the write lock, unless it only reads. -/
def waits (w : Office) : Action → Bool
  | .register | .claim .. | .finish .. => w.writer.isSome
  | .enqueue .. => true
  | .tick _ | .reread _ | .deliver .. | .crash _ => false

def step (config : Config) (x : Errand) (w : Office) : Office :=
  match x with
  | .transact changes =>
    match w.writer, w.sources.transact changes with
    | none, some sources => { w with sources }
    | _, _ => w
  | .begin pid =>
    match w.writer with
    | none => { w with writer := some ⟨pid, .objectiveEvents, w.account, 0⟩ }
    | some _ => w
  | .collect pid =>
    match w.writer with
    | some u => if u.pid = pid then w.collect config u else w
    | none => w
  | .commit pid =>
    match w.writer with
    | some u => if u.pid = pid ∧ u.stage = .done then w.commit u else w
    | none => w
  | .crash pid => if w.writer.any fun u => u.pid = pid then { w with writer := none } else w
  | .deliver a => if w.waits a then w else { w with delivery := w.delivery.step a }

end Office

/-- The offices of one configuration: they start with an empty outbox and without cursors. -/
def offices (config : Config) : Machine Errand Office where
  start w := machine.start w.delivery ∧ w.cursors = ⟨none, none⟩ ∧ w.noticed = [] ∧
    w.contents = (fun _ => none) ∧ w.writer = none
  step := Office.step config

end HermesOps.Notifier
