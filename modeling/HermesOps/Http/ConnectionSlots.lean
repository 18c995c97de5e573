import HermesOps.Schemes.Machine
import HermesOps.Schemes.Slots

/-! The connections of `ControllerHTTPServer`. A connection goes through the phases of `process_request` in the
    accepting thread and of `process_request_thread`, `_handle_websocket` and `WebSocketSession.run` in its
    own; each action is one step of one of them, and the actions of all connections interleave. A call
    that may raise says so in its action. What a handler does on a connection before it takes a WebSocket
    slot is responses and an end, whatever it raises. -/

namespace HermesOps.Http

open Schemes

/-- What is written: bytes of an HTTP response, the whole 101 response, a WebSocket frame. -/
inductive Written where
  | http
  | switching
  | frame
  deriving DecidableEq

/-- Where the code of a connection stands. -/
inductive Phase where
  /-- `process_request` found no slot. -/
  | refused
  /-- The slot is taken; the thread is not started. -/
  | starting
  /-- The thread could not be started. -/
  | unstarted
  /-- `process_request_thread`, before its first statement. -/
  | entering
  /-- `finish_request`. -/
  | serving
  /-- `acquire_websocket_slot` has returned true. -/
  | upgrading
  /-- `release_request_slot_for_websocket`, before the flag is set. -/
  | marking
  /-- Before the 101 response. -/
  | switching
  /-- After it, before the session's `try` block. -/
  | opening
  | streaming
  /-- An `except` clause of `_handle_websocket`. -/
  | failing
  /-- The `finally` block of `_handle_websocket`. -/
  | leaving
  /-- The `finally` block of `process_request_thread`. -/
  | closing
  /-- `__dict__.clear()`. -/
  | clearing
  | ended
  deriving DecidableEq

/-- A connection: its phase, the flag of its thread, whether its socket is shut down, what was written on
    it, and whether its request slot was given back for an upgrade. -/
structure Conn where
  phase : Phase
  released : Bool
  shut : Bool
  written : List Written
  upgraded : Bool
  deriving DecidableEq

/-- The server: its two semaphores, its connections, and whether a `release` has raised. -/
structure Server where
  requestSlots : Semaphore
  websocketSlots : Semaphore
  conns : List Conn
  overReleased : Bool
  deriving DecidableEq

/-- `ControllerHTTPServer.__init__`. -/
def Server.initial (maxConcurrentRequests maxWebsocketConnections : Nat) : Server where
  requestSlots := ⟨maxConcurrentRequests, maxConcurrentRequests⟩
  websocketSlots := ⟨maxWebsocketConnections, maxWebsocketConnections⟩
  conns := []
  overReleased := false

/-- A step of the server; the number is that of a connection. -/
inductive Action where
  /-- `process_request`; whether the refusal can be sent. -/
  | connect (sent : Bool)
  | startThread (i : Nat) (ok : Bool)
  | enter (i : Nat)
  /-- Bytes of a response of the handler. -/
  | respond (i : Nat)
  | takeWebsocketSlot (i : Nat)
  | releaseRequestSlot (i : Nat)
  | markReleased (i : Nat)
  /-- The 101 response; whether all of it is sent. -/
  | switch (i : Nat) (sent : Bool)
  /-- `WebSocketSession(…)`, `settimeout` and the start of the reader's thread. -/
  | openSession (i : Nat) (ok : Bool)
  | sendFrame (i : Nat)
  /-- The end of the session, which shuts the socket down; whether an exception leaves `run`. -/
  | endSession (i : Nat) (raised : Bool)
  /-- `_problem`, returning or raising; whether it gets to write. -/
  | problem (i : Nat) (sent : Bool)
  | leave (i : Nat)
  /-- `finish_request` returns or raises. -/
  | finish (i : Nat)
  | close (i : Nat)
  | clear (i : Nat)
  deriving DecidableEq

namespace Server

variable (s : Server)

def put (i : Nat) (c : Conn) : Server := { s with conns := s.conns.set i c }

/-- The step of a connection in a phase. -/
def inPhase (i : Nat) (phase : Phase) (next : Conn → Server) : Server :=
  match s.conns[i]? with
  | some c => if c.phase = phase then next c else s
  | none => s

/-- Writing on the socket. -/
def write (c : Conn) (w : Written) : Conn := if c.shut then c else { c with written := c.written ++ [w] }

/-- `release` of a request slot, and the connection afterwards. -/
def giveRequestSlot (i : Nat) (c raised : Conn) : Server :=
  match s.requestSlots.release with
  | some slots => { s with requestSlots := slots }.put i c
  | none => { s with overReleased := true }.put i raised

/-- `release` of a WebSocket slot. -/
def giveWebsocketSlot (i : Nat) (c : Conn) : Server :=
  match s.websocketSlots.release with
  | some slots => { s with websocketSlots := slots }.put i c
  | none => { s with overReleased := true }.put i c

def step : Action → Server → Server
  | .connect sent, s =>
    match s.requestSlots.acquire with
    | none =>
      { s with conns := s.conns ++ [⟨.refused, false, true, if sent then [.http] else [], false⟩] }
    | some slots =>
      { s with requestSlots := slots, conns := s.conns ++ [⟨.starting, false, false, [], false⟩] }
  | .startThread i ok, s => s.inPhase i .starting fun c =>
    if ok then s.put i { c with phase := .entering }
    else s.giveRequestSlot i { c with phase := .unstarted } { c with phase := .unstarted }
  | .enter i, s => s.inPhase i .entering fun c => s.put i { c with phase := .serving, released := false }
  | .respond i, s => s.inPhase i .serving fun c => s.put i (write c .http)
  | .takeWebsocketSlot i, s => s.inPhase i .serving fun c =>
    match s.websocketSlots.acquire with
    | none => s
    | some slots => { s with websocketSlots := slots }.put i { c with phase := .upgrading }
  | .releaseRequestSlot i, s => s.inPhase i .upgrading fun c =>
    if c.released then s.put i { c with phase := .failing }
    else s.giveRequestSlot i { c with phase := .marking, upgraded := true } { c with phase := .failing }
  | .markReleased i, s => s.inPhase i .marking fun c =>
    s.put i { c with phase := .switching, released := true }
  | .switch i sent, s => s.inPhase i .switching fun c =>
    if sent then s.put i { write c .switching with phase := .opening }
    else s.put i { write c .http with phase := .failing }
  | .openSession i ok, s => s.inPhase i .opening fun c =>
    s.put i { c with phase := if ok then .streaming else .failing }
  | .sendFrame i, s => s.inPhase i .streaming fun c => s.put i (write c .frame)
  | .endSession i raised, s => s.inPhase i .streaming fun c =>
    s.put i { c with shut := true, phase := if raised then .failing else .leaving }
  | .problem i sent, s => s.inPhase i .failing fun c =>
    s.put i { (if sent then write c .http else c) with phase := .leaving }
  | .leave i, s => s.inPhase i .leaving fun c => s.giveWebsocketSlot i { c with phase := .closing }
  | .finish i, s => s.inPhase i .serving fun c => s.put i { c with phase := .closing }
  | .close i, s => s.inPhase i .closing fun c =>
    if c.released then s.put i { c with phase := .clearing, shut := true }
    else s.giveRequestSlot i { c with phase := .clearing, shut := true }
      { c with phase := .ended, shut := true }
  | .clear i, s => s.inPhase i .clearing fun c => s.put i { c with phase := .ended, released := false }

end Server

/-- The server with the configured maxima. -/
def serverMachine (maxConcurrentRequests maxWebsocketConnections : Nat) : Machine Action Server where
  start s := s = .initial maxConcurrentRequests maxWebsocketConnections
  step := Server.step

end HermesOps.Http
