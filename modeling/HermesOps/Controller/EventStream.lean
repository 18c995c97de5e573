import HermesOps.Controller.EventJournal

/-! `websocket_transport.py`: one WebSocket session that follows the event journal, against other
    connections that commit events and remove the oldest rows. Each turn of the session's loop reads
    the bounds of the journal, then, in another connection, one batch of rows, and sends the events of
    its topics one by one. Times and identifiers are left out of the messages; a heartbeat and a frame
    of the client come from outside, as do the failures of the database and of the socket. -/

namespace HermesOps.Controller

def maxReplayBatch : Nat := 100
def maxReplayWindow : Nat := 500
def maxSubscribeDepth : Nat := 8
def maxSubscribeNodes : Nat := 128
def maxSequence : Nat := 9223372036854775807

/-- `TOPIC_AGGREGATES`. -/
def topicAggregates : List (String × List String) :=
  [ ("system", ["system"]),
    ("projects", ["project"]),
    ("objectives", ["objective"]),
    ("tasks", ["task"]),
    ("runs", ["run"]),
    ("reviews", ["review"]),
    ("recoveries", ["recovery"]),
    ("sandboxes", ["sandbox", "sandbox_build"]),
    ("backups", ["backup"]),
    ("notifications", ["notification"]),
    ("confirmations", ["confirmation"]),
    ("audit", ["audit"]) ]

def supportedTopics : List String := topicAggregates.map Prod.fst ++ ["all"]

def allAggregateTypes : List String := topicAggregates.flatMap Prod.snd

/-! ### The subscription -/

/-- `WebSocketProtocolError`. -/
structure ProtocolError where
  closeCode : Nat
  reason : String
  deriving DecidableEq

def violation {α : Type} (reason : String) : Except ProtocolError α := .error ⟨1008, reason⟩

mutual

/-- The nodes of a value, itself included. -/
def nodes : Json → Nat
  | .arr items => nodesItems items + 1
  | .obj members => nodesMembers members + 1
  | _ => 1

def nodesItems : List Json → Nat
  | [] => 0
  | x :: xs => nodes x + nodesItems xs

def nodesMembers : List (String × Json) → Nat
  | [] => 0
  | (_, x) :: xs => nodes x + nodesMembers xs

end

mutual

/-- How far the deepest node of a value is below it. -/
def depth : Json → Nat
  | .arr items => depthItems items
  | .obj members => depthMembers members
  | _ => 0

def depthItems : List Json → Nat
  | [] => 0
  | x :: xs => max (depth x + 1) (depthItems xs)

def depthMembers : List (String × Json) → Nat
  | [] => 0
  | (_, x) :: xs => max (depth x + 1) (depthMembers xs)

end

/-- The texts of a list that holds nothing else. -/
def texts : List Json → Option (List String)
  | [] => some []
  | .str s :: xs => (texts xs).map (s :: ·)
  | _ :: _ => none

/-- `parse_subscribe`, of a payload that is the text of a value. -/
def parseSubscribe (payload : Json) : Except ProtocolError (Nat × List String) :=
  if maxSubscribeDepth < depth payload ∨ maxSubscribeNodes < nodes payload then
    violation "subscription structure exceeds limits"
  else
    match payload with
    | .obj [("after_sequence", afterSequence), ("topics", topics), ("type", type)] =>
      match type with
      | .str "subscribe" =>
        match afterSequence with
        | .int after =>
          if after < 0 ∨ (maxSequence : Int) < after then violation "invalid subscription sequence"
          else
            match topics with
            | .arr items =>
              match texts items with
              | some topics =>
                if 64 < topics.length ∨ ¬topics.Nodup ∨ ¬(∀ topic ∈ topics, topic ∈ supportedTopics) ∨
                    ("all" ∈ topics ∧ topics.length ≠ 1) then
                  violation "invalid subscription topics"
                else .ok (after.toNat, topics)
              | none => violation "invalid subscription topics"
            | _ => violation "invalid subscription topics"
        | _ => violation "invalid subscription sequence"
      | _ => violation "subscribe message required"
    | .obj _ => violation "invalid subscription fields"
    | _ => violation "subscription must be an object"

/-- `TOPIC_AGGREGATES[topic]`. -/
def aggregatesOf (topic : String) : Option (List String) :=
  (topicAggregates.find? fun x => x.1 = topic).map Prod.snd

/-- `aggregates_for_topics`; a topic that is not a key raises. -/
def aggregatesForTopics (topics : List String) : Option (List String) :=
  if topics = [] ∨ topics = ["all"] then some allAggregateTypes
  else (topics.mapM aggregatesOf).map List.flatten

/-! ### The session -/

inductive ServerMessage where
  | subscribed (replayFrom latest : Nat) (topics : List String)
  | event (e : Envelope)
  | heartbeat (latest : Nat)
  | replayUnavailable (oldest latest : Nat)

/-- How a session ends: with `replay_unavailable` and a close, with another close frame, or with the
    connection gone. -/
inductive Ending where
  | unavailable
  | closed (e : ProtocolError)
  | gone

/-- Where the session is in `run`: before the first look at the bounds, at the head of the loop, between
    the bounds and the batch, in the batch with the events still to handle, waiting for a frame, or
    over. -/
inductive StreamStage where
  | opening
  | looping
  | reading
  | draining (batch : List Envelope)
  | waiting
  | ended (how : Ending)

/-- The variables of `run`, with what it has sent; while a batch is drained the cursor is the one of
    `_drain_event_batch`. -/
structure StreamSession where
  start : Nat
  topics : List String
  aggregates : List String
  cursor : Nat
  sent : List ServerMessage
  stage : StreamStage

/-- The events among the messages. -/
def StreamSession.events (s : StreamSession) : List Envelope :=
  s.sent.filterMap fun
    | .event e => some e
    | _ => none

/-- What `run` starts from: the sequence of the `Last-Event-Sequence` header with all topics, or else
    the client's subscription. -/
def subscription (header : Option Nat) (message : Json) : Except ProtocolError (Nat × List String) :=
  match header with
  | some after => .ok (after, ["all"])
  | none => parseSubscribe message

def openSession (header : Option Nat) (message : Json) : Except ProtocolError StreamSession := do
  let accepted ← subscription header message
  match aggregatesForTopics accepted.2 with
  | some aggregates => .ok ⟨accepted.1, accepted.2, aggregates, accepted.1, [], .opening⟩
  | none => .error ⟨1011, "internal stream error"⟩

/-- `EventJournal.bounds`: `MIN(sequence)` and `COALESCE(MAX(sequence), 0)`. -/
def Journal.bounds (j : Journal) : Option Nat × Nat :=
  ((j.rows.map JournalRow.sequence).min?, (j.rows.map JournalRow.sequence).foldl max 0)

/-- The third result of `_replay_bounds`. -/
def Journal.unavailable (j : Journal) (after : Nat) : Bool :=
  j.bounds.2 < after || (j.bounds.1.any fun oldest => after < oldest - 1) ||
    maxReplayWindow < j.bounds.2 - after

namespace StreamSession

def endWith (s : StreamSession) (how : Ending) : StreamSession := { s with stage := .ended how }

def send (s : StreamSession) (message : ServerMessage) (next : StreamStage) : StreamSession :=
  { s with sent := s.sent ++ [message], stage := next }

/-- What a `ControllerError` ends with. -/
def streamUnavailable : Ending := .closed ⟨1011, "event stream unavailable"⟩

/-- `_replay_bounds` with what follows it: `replay_unavailable`, or else `subscribed` at the opening
    and the batch in the loop. -/
def lookAt (j : Journal) (socketFails : Bool) (s : StreamSession) : StreamSession :=
  if j.unavailable s.cursor then
    if socketFails then s.endWith .gone
    else s.send (.replayUnavailable (j.bounds.1.getD 1) j.bounds.2) (.ended .unavailable)
  else
    match s.stage with
    | .opening =>
      if socketFails then s.endWith .gone
      else s.send (.subscribed (s.cursor + 1) j.bounds.2 s.topics) .looping
    | _ => { s with stage := .reading }

/-- The look at the bounds, in the loop behind `_session_is_current`. -/
def check (j : Journal) (current databaseFails socketFails : Bool) (s : StreamSession) :
    StreamSession :=
  match s.stage with
  | .opening => if databaseFails then s.endWith streamUnavailable else s.lookAt j socketFails
  | .looping =>
    if ¬current then s.endWith (.closed ⟨1008, "session invalidated"⟩)
    else if databaseFails then s.endWith streamUnavailable
    else s.lookAt j socketFails
  | _ => s

/-- The query of `_drain_event_batch`. -/
def batchQuery : Replay := ⟨maxReplayBatch, none, none⟩

/-- The batch is read. -/
def read (rules : TextRules) (j : Journal) (databaseFails : Bool) (s : StreamSession) :
    StreamSession :=
  match s.stage with
  | .reading =>
    if databaseFails then s.endWith streamUnavailable
    else
      match j.readAfter rules batchQuery s.cursor with
      | .ok batch => { s with stage := .draining batch }
      | .error _ => s.endWith streamUnavailable
  | _ => s

/-- The loop of `_drain_event_batch` handles its next event; a failing send leaves the loop before the
    cursor is returned. -/
def deliver (socketFails : Bool) (s : StreamSession) : StreamSession :=
  match s.stage with
  | .draining [] => { s with stage := .waiting }
  | .draining (event :: batch) =>
    if event.sequence ≤ s.cursor then s.endWith streamUnavailable
    else if event.aggregate.type ∈ s.aggregates then
      if socketFails then s.endWith .gone
      else { s.send (.event event) (.draining batch) with cursor := event.sequence }
    else { s with cursor := event.sequence, stage := .draining batch }
  | _ => s

/-- What the wait for a frame brings: nothing or an answered ping, the end of the stream or a close
    frame, or anything else. -/
inductive Frame where
  | quiet
  | closing
  | unexpected

/-- The rest of the loop: the heartbeat when it is due, and the next frame. -/
def wait (j : Journal) (heartbeat : Bool) (frame : Frame) (databaseFails socketFails : Bool)
    (s : StreamSession) : StreamSession :=
  match s.stage with
  | .waiting =>
    if heartbeat && databaseFails then s.endWith streamUnavailable
    else if socketFails then s.endWith .gone
    else
      let s := if heartbeat then s.send (.heartbeat j.bounds.2) .waiting else s
      match frame with
      | .quiet => { s with stage := .looping }
      | .closing => s.endWith .gone
      | .unexpected => s.endWith (.closed ⟨1008, "unexpected client message"⟩)
  | _ => s

end StreamSession

/-! ### The session among the writers -/

/-- The journal, every row ever committed to it, and the session. No program reads the history. -/
structure StreamWorld where
  journal : Journal
  history : List JournalRow
  session : StreamSession

inductive StreamAction where
  | commit (events : List EventInput)
  | remove (upTo : Nat)
  | check (current databaseFails socketFails : Bool)
  | read (databaseFails : Bool)
  | deliver (socketFails : Bool)
  | wait (heartbeat : Bool) (frame : StreamSession.Frame) (databaseFails socketFails : Bool)

namespace StreamWorld

/-- An `emit` of a transaction; one that raises adds nothing. -/
def append (rules : TextRules) (w : StreamWorld) (e : EventInput) : StreamWorld :=
  match w.journal.emit rules e with
  | .ok (j, _) =>
    { w with journal := j, history := w.history ++ j.rows.drop w.journal.rows.length }
  | .error _ => w

/-- A removal takes the rows up to a sequence; the key counter stays. -/
def step (rules : TextRules) (a : StreamAction) (w : StreamWorld) : StreamWorld :=
  match a with
  | .commit events => events.foldl (append rules) w
  | .remove upTo =>
    { w with
      journal := { w.journal with rows := w.journal.rows.filter fun r => upTo < r.sequence } }
  | .check current databaseFails socketFails =>
    { w with session := w.session.check w.journal current databaseFails socketFails }
  | .read databaseFails => { w with session := w.session.read rules w.journal databaseFails }
  | .deliver socketFails => { w with session := w.session.deliver socketFails }
  | .wait heartbeat frame databaseFails socketFails =>
    { w with
      session := w.session.wait w.journal heartbeat frame databaseFails socketFails }

end StreamWorld

/-- An empty journal and a session that has just opened. -/
def streamMachine (rules : TextRules) (session : StreamSession) :
    Schemes.Machine StreamAction StreamWorld where
  start w := w = ⟨.empty, [], session⟩
  step := StreamWorld.step rules

end HermesOps.Controller
