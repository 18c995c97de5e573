import HermesOps.Schemes.Machine
import HermesOps.Schemes.Table
import Mathlib.Data.List.Sort
import Mathlib.Algebra.Group.Int.Defs

/-! The notification outbox and the processes that deliver from it. A process claims a notification
    for the time of a lease, reads the row again on a connection of its own, hands it to the
    transport and records the outcome under the attempt number it has read. Each of these is a step,
    and any other process may act in between. A clock that only goes forward stands for `utc_now`. -/

namespace HermesOps.Notifier

open Schemes

abbrev NotificationId := Nat

abbrev Pid := Nat

/-- Milliseconds, as the texts of `to_utc` order them. -/
abbrev Instant := Int

inductive Channel where
  | file | telegram
  deriving DecidableEq

inductive Severity where
  | info | warning | critical
  deriving DecidableEq

/-- `CASE severity WHEN 'CRITICAL' THEN 0 WHEN 'WARNING' THEN 1 ELSE 2 END`. -/
def Severity.rank : Severity → Nat
  | .critical => 0
  | .warning => 1
  | .info => 2

inductive NotificationStatus where
  | pending | delivering | retry | delivered | deadLetter | suppressed
  deriving DecidableEq

/-- A row of `notification_outbox`. -/
structure Notification where
  dedupeKey : String
  severity : Severity
  channel : Channel
  status : NotificationStatus
  attemptCount : Nat
  maxAttempts : Nat
  nextAttemptAt : Instant
  leaseOwner : Option String
  leaseExpiresAt : Option Instant
  lastError : Option String
  createdAt : Instant
  updatedAt : Instant
  deliveredAt : Option Instant
  deriving DecidableEq

inductive DeliveryStatus where
  | delivered | failed
  deriving DecidableEq

/-- A row of `notification_deliveries`. -/
structure Delivery where
  status : DeliveryStatus
  transportStatus : String
  failureReason : Option String
  startedAt : Instant
  finishedAt : Instant
  deriving DecidableEq

/-- Both tables; the deliveries are kept under their `UNIQUE (notification_id, attempt_number)`. -/
structure Outbox where
  notifications : Table NotificationId Notification
  deliveries : Table (NotificationId × Nat) Delivery

/-! ### Transactions -/

/-- What `enqueue` is called with. -/
structure Message where
  dedupeKey : String
  severity : Severity
  channel : Channel
  maxAttempts : Nat

/-- The row that `enqueue` inserts. -/
def Message.row (m : Message) (now : Instant) : Notification where
  dedupeKey := m.dedupeKey
  severity := m.severity
  channel := m.channel
  status := .pending
  attemptCount := 0
  maxAttempts := m.maxAttempts
  nextAttemptAt := now
  leaseOwner := none
  leaseExpiresAt := none
  lastError := none
  createdAt := now
  updatedAt := now
  deliveredAt := none

/-- `INSERT OR IGNORE`: a row that breaks a constraint is left out. -/
def enqueue (o : Outbox) (id : NotificationId) (m : Message) (now : Instant) : Outbox :=
  if ¬(1 ≤ m.maxAttempts ∧ m.maxAttempts ≤ 20) then o
  else if o.notifications.any fun _ y => y.dedupeKey = m.dedupeKey then o
  else
    match o.notifications.insert id (m.row now) with
    | some notifications => { o with notifications }
    | none => o

/-- The row once its lease has been given up. -/
def Notification.released (now : Instant) (y : Notification) : Notification :=
  { y with
    status := .retry
    leaseOwner := none
    leaseExpiresAt := none
    nextAttemptAt := now
    updatedAt := now
    lastError := y.lastError.or (some "delivery lease expired") }

def reconcileAbandonedDeliveries (o : Outbox) (now : Instant) : Outbox :=
  { o with
    notifications := o.notifications.update
      (fun _ y => y.status = .delivering ∧ y.leaseExpiresAt.all fun e => e ≤ now)
      (Notification.released now) }

/-- `ORDER BY CASE severity …, created_at`. -/
def byUrgency (a b : NotificationId × Notification) : Prop :=
  a.2.severity.rank < b.2.severity.rank ∨
    (a.2.severity.rank = b.2.severity.rank ∧ a.2.createdAt ≤ b.2.createdAt)

instance : DecidableRel byUrgency := fun a b => by unfold byUrgency; infer_instance

/-- The rows a claim may take, the most urgent first. -/
def claimable (o : Outbox) (channel : Option Channel) (only : Option NotificationId)
    (now : Instant) : List (NotificationId × Notification) :=
  (o.notifications.select fun id y =>
    (y.status = .pending ∨ y.status = .retry) ∧ y.nextAttemptAt ≤ now ∧
      channel.all (fun c => y.channel = c) ∧ only.all fun i => id = i).insertionSort byUrgency

/-- The row under a lease. -/
def Notification.leased (owner : String) (expires now : Instant) (y : Notification) : Notification :=
  { y with
    status := .delivering
    leaseOwner := some owner
    leaseExpiresAt := some expires
    updatedAt := now }

/-- The transaction of `claim_one`; `now` was read before the write lock, `current` under it. -/
def claimOne (o : Outbox) (owner : String) (leaseSeconds : Int) (channel : Option Channel)
    (only : Option NotificationId) (now current : Instant) : Outbox × Option NotificationId :=
  let o := reconcileAbandonedDeliveries o current
  match claimable o channel only now with
  | [] => (o, none)
  | (id, _) :: _ =>
    ({ o with
      notifications := o.notifications.updateAt id
        (Notification.leased owner (now + 1000 * leaseSeconds) now) }, some id)

/-- The row after a delivery that succeeded. -/
def Notification.succeeded (attemptNumber : Nat) (finished : Instant) (y : Notification) :
    Notification :=
  { y with
    status := .delivered
    attemptCount := attemptNumber
    leaseOwner := none
    leaseExpiresAt := none
    lastError := none
    updatedAt := finished
    deliveredAt := some finished }

/-- `min(3600, base * 2 ** max(0, attempt_number - 1))` in milliseconds. -/
def backoff (baseBackoffSeconds : Int) (attemptNumber : Nat) : Int :=
  1000 * min 3600 (baseBackoffSeconds * 2 ^ (attemptNumber - 1))

/-- The row after a delivery that failed. -/
def Notification.failed (attemptNumber : Nat) (terminal : Bool) (error : String)
    (nextAttempt finished : Instant) (y : Notification) : Notification :=
  { y with
    status := if terminal then .deadLetter else .retry
    attemptCount := attemptNumber
    nextAttemptAt := nextAttempt
    leaseOwner := none
    leaseExpiresAt := none
    lastError := some (String.ofList (error.toList.take 1000))
    updatedAt := finished }

/-- The transaction of `finish_delivery`: `row` is what the process has read, `error` what the
    transport has raised. -/
def finishDelivery (o : Outbox) (id : NotificationId) (row : Notification) (error : Option String)
    (baseBackoffSeconds : Int) (finished current : Instant) : Except String Outbox :=
  let attemptNumber := row.attemptCount + 1
  if ¬attemptNumber ≤ 20 then .error "CHECK constraint failed"
  else if (o.notifications.get? id).isNone then .error "FOREIGN KEY constraint failed"
  else
    match o.deliveries.insert (id, attemptNumber)
        ⟨if error.isNone then .delivered else .failed, if error.isNone then "ok" else "error", error,
          finished, finished⟩ with
    | none => .error "UNIQUE constraint failed"
    | some deliveries =>
      match error with
      | none => .ok ⟨o.notifications.updateAt id (Notification.succeeded attemptNumber finished),
          deliveries⟩
      | some e => .ok ⟨o.notifications.updateAt id (Notification.failed attemptNumber
          (row.maxAttempts ≤ attemptNumber) (if e = "" then "delivery failed" else e)
          (current + backoff baseBackoffSeconds attemptNumber) finished), deliveries⟩

/-! ### Processes -/

/-- Where a process is between two claims. -/
inductive WorkerStage where
  | claimed
  | holding (row : Notification)
  | answered (row : Notification) (error : Option String)
  deriving DecidableEq

/-- A process with the notification it has claimed and the end of the lease it was given. -/
structure Worker where
  notificationId : NotificationId
  expiresAt : Instant
  stage : WorkerStage
  deriving DecidableEq

/-- The outbox, the processes and the clock; `claims` is the history of the claims, the last one
    first, which no program reads. -/
structure World where
  outbox : Outbox
  workers : Table Pid Worker
  claims : List (NotificationId × Pid)
  clock : Instant

/-- The process that claimed the notification last. -/
def World.lastClaimant (w : World) (id : NotificationId) : Option Pid := w.claims.lookup id

inductive Action where
  | tick (elapsed : Nat)
  | enqueue (id : NotificationId) (m : Message)
  | register
  | claim (pid : Pid) (owner : String) (leaseSeconds : Int) (channel : Option Channel)
      (only : Option NotificationId) (waited : Nat)
  | reread (pid : Pid)
  | deliver (pid : Pid) (error : Option String)
  | finish (pid : Pid) (baseBackoffSeconds : Int) (waited : Nat)
  | crash (pid : Pid)

/-- The process that takes the step. -/
def Action.actor : Action → Option Pid
  | .claim pid _ _ _ _ _ | .reread pid | .deliver pid _ | .finish pid _ _ | .crash pid => some pid
  | _ => none

namespace World

def setWorker (w : World) (pid : Pid) (stage : WorkerStage) : World :=
  { w with workers := w.workers.updateAt pid fun u => { u with stage } }

def endWorker (w : World) (pid : Pid) : World :=
  { w with workers := w.workers.delete fun p _ => p = pid }

/-- `claim_one` up to its commit. -/
def claimStep (w : World) (pid : Pid) (owner : String) (leaseSeconds : Int)
    (channel : Option Channel) (only : Option NotificationId) (now : Instant) : World :=
  match claimOne w.outbox owner leaseSeconds channel only now w.clock with
  | (outbox, none) => { w with outbox }
  | (outbox, some id) =>
    match w.workers.insert pid ⟨id, now + 1000 * leaseSeconds, .claimed⟩ with
    | some workers => { w with outbox, workers, claims := (id, pid) :: w.claims }
    | none => w

/-- The steps of a process after its claim; a `finish_delivery` that raises ends the process. -/
def workerStep (w : World) (u : Worker) : Action → World
  | .reread pid =>
    match u.stage, w.outbox.notifications.get? u.notificationId with
    | .claimed, some row => w.setWorker pid (.holding row)
    | _, _ => w
  | .deliver pid error =>
    match u.stage with
    | .holding row => w.setWorker pid (.answered row error)
    | _ => w
  | .finish pid baseBackoffSeconds waited =>
    match u.stage with
    | .answered row error =>
      match finishDelivery w.outbox u.notificationId row error baseBackoffSeconds
          (w.clock - waited) w.clock with
      | .ok outbox => { w with outbox }.endWorker pid
      | .error _ => w.endWorker pid
    | _ => w
  | .crash pid => w.endWorker pid
  | _ => w

def step (a : Action) (w : World) : World :=
  match a with
  | .tick elapsed => { w with clock := w.clock + elapsed }
  | .enqueue id m => { w with outbox := HermesOps.Notifier.enqueue w.outbox id m w.clock }
  | .register => { w with outbox := reconcileAbandonedDeliveries w.outbox w.clock }
  | .claim pid owner leaseSeconds channel only waited =>
    if (w.workers.get? pid).isSome then w
    else w.claimStep pid owner leaseSeconds channel only (w.clock - waited)
  | .reread pid | .deliver pid _ | .finish pid _ _ | .crash pid =>
    match w.workers.get? pid with
    | some u => w.workerStep u a
    | none => w

end World

/-- The notifier as a machine that starts with an empty outbox. -/
def machine : Machine Action World where
  start w := ∃ clock, w = ⟨⟨.empty, .empty⟩, .empty, [], clock⟩
  step := World.step

end HermesOps.Notifier
