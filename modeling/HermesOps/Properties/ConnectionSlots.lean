import HermesOps.Http.ConnectionSlots

/-! The slots of `ControllerHTTPServer` over every interleaving. A connection between the two semaphore calls
    of its upgrade holds both slots; apart from that the request slots in use are the accepted
    connections that are not upgraded, and the WebSocket slots in use the upgraded ones. What is written
    after a 101 response is frames, as long as every session gets its reader's thread. -/

namespace HermesOps.Http

open Schemes

/-! ### What the slots stand for -/

/-- The handler has ended, or the slot was taken in vain. -/
def Phase.handlerEnded (phase : Phase) : Bool := phase ∈ [.unstarted, .clearing, .ended]

/-- An accepted connection whose handler has not ended and has not been upgraded. -/
def Conn.usesRequest (c : Conn) : Bool := c.phase ≠ .refused ∧ ¬c.phase.handlerEnded ∧ ¬c.upgraded

/-- A connection that has its WebSocket slot and whose WebSocket handler has not ended. -/
def Conn.usesWebsocket (c : Conn) : Bool :=
  c.phase = .upgrading ∨ c.upgraded ∧ c.phase ∉ [.closing, .clearing, .ended]

/-- Nothing is left of the connection. -/
def Phase.isOver (phase : Phase) : Bool := phase ∈ [.refused, .unstarted, .ended]

/-- The slots in use are those of the connections, none was released twice and none is lost. -/
structure SlotsKept (maxConcurrentRequests maxWebsocketConnections : Nat) (s : Server) : Prop where
  requests : s.requestSlots.free + s.conns.countP Conn.usesRequest = maxConcurrentRequests
  websockets : s.websocketSlots.free + s.conns.countP Conn.usesWebsocket = maxWebsocketConnections
  noneTwice : s.overReleased = false
  noneLost : (∀ c ∈ s.conns, c.phase.isOver = true) →
    s.requestSlots.free = maxConcurrentRequests ∧ s.websocketSlots.free = maxWebsocketConnections

/-- After a 101 response nothing but frames is written. -/
def Clean (written : List Written) : Prop :=
  ∀ before after, written = before ++ .switching :: after → ∀ w ∈ after, w = .frame

/-- The step does not fail to set a session up. -/
def Action.setsUp : Action → Bool
  | .openSession _ ok => ok
  | _ => true

/-! ### Steps -/

section Steps

variable {s : Server} {i : Nat} {phase : Phase} {next : Conn → Server} {c c' raised : Conn}
  {P : Server → Prop} {Q : Conn → Prop}

theorem inPhase_of (hs : P s) (h : ∀ c, s.conns[i]? = some c → c.phase = phase → P (next c)) :
    P (s.inPhase i phase next) := by
  unfold Server.inPhase
  cases hc : s.conns[i]? with
  | none => exact hs
  | some c =>
    dsimp only
    split
    · rename_i hphase
      exact h c hc hphase
    · exact hs

theorem forall_put (hs : ∀ d ∈ s.conns, Q d) (hc : Q c') : ∀ d ∈ (s.put i c').conns, Q d := by
  intro d hd
  rcases List.mem_or_eq_of_mem_set hd with h | rfl
  · exact hs d h
  · exact hc

theorem forall_giveRequestSlot (hs : ∀ d ∈ s.conns, Q d) (hc : Q c') (hraised : Q raised) :
    ∀ d ∈ (s.giveRequestSlot i c' raised).conns, Q d := by
  unfold Server.giveRequestSlot
  split
  · exact forall_put (s := { s with requestSlots := _ }) hs hc
  · exact forall_put (s := { s with overReleased := true }) hs hraised

theorem forall_giveWebsocketSlot (hs : ∀ d ∈ s.conns, Q d) (hc : Q c') :
    ∀ d ∈ (s.giveWebsocketSlot i c').conns, Q d := by
  unfold Server.giveWebsocketSlot
  split
  · exact forall_put (s := { s with websocketSlots := _ }) hs hc
  · exact forall_put (s := { s with overReleased := true }) hs hc

end Steps

/-! ### Slots -/

section Slots

variable {maxConcurrentRequests maxWebsocketConnections : Nat} {s : Server} {i : Nat} {c c' raised : Conn}

/-- The flag of the thread says whether its request slot was given back. -/
def Conn.Consistent (c : Conn) : Prop :=
  match c.phase with
  | .refused | .starting | .unstarted | .entering => c.upgraded = false
  | .serving | .upgrading => c.released = false ∧ c.upgraded = false
  | .marking => c.released = false ∧ c.upgraded = true
  | .switching | .opening | .streaming | .failing | .leaving => c.released = true ∧ c.upgraded = true
  | .closing => c.released = c.upgraded
  | .clearing | .ended => True

/-- The invariant of the server. -/
structure Inv (maxConcurrentRequests maxWebsocketConnections : Nat) (s : Server) : Prop where
  requestCapacity : s.requestSlots.capacity = maxConcurrentRequests
  websocketCapacity : s.websocketSlots.capacity = maxWebsocketConnections
  requests : s.requestSlots.Conserved Conn.usesRequest s.conns
  websockets : s.websocketSlots.Conserved Conn.usesWebsocket s.conns
  consistent : ∀ c ∈ s.conns, c.Consistent
  noneTwice : s.overReleased = false

/-- A connection moves, and the slots with it. -/
theorem Inv.move (h : Inv maxConcurrentRequests maxWebsocketConnections s) (hc : s.conns[i]? = some c)
    (hconsistent : c'.Consistent) {r w : Semaphore} (hr : r.capacity = s.requestSlots.capacity)
    (hrequest : r.free + c'.usesRequest.toNat = s.requestSlots.free + c.usesRequest.toNat)
    (hw : w.capacity = s.websocketSlots.capacity)
    (hwebsocket : w.free + c'.usesWebsocket.toNat = s.websocketSlots.free + c.usesWebsocket.toNat) :
    Inv maxConcurrentRequests maxWebsocketConnections ⟨r, w, s.conns.set i c', s.overReleased⟩ where
  requestCapacity := hr.trans h.requestCapacity
  websocketCapacity := hw.trans h.websocketCapacity
  requests := h.requests.set hc hr hrequest
  websockets := h.websockets.set hc hw hwebsocket
  consistent := forall_put h.consistent hconsistent
  noneTwice := h.noneTwice

/-- A step that takes no slot and gives none. -/
theorem Inv.put (h : Inv maxConcurrentRequests maxWebsocketConnections s) (hc : s.conns[i]? = some c)
    (hconsistent : c'.Consistent) (hrequest : c'.usesRequest = c.usesRequest)
    (hwebsocket : c'.usesWebsocket = c.usesWebsocket) :
    Inv maxConcurrentRequests maxWebsocketConnections (s.put i c') :=
  h.move hc hconsistent rfl (by rw [hrequest]) rfl (by rw [hwebsocket])

theorem Inv.giveRequestSlot (h : Inv maxConcurrentRequests maxWebsocketConnections s)
    (hc : s.conns[i]? = some c) (hconsistent : c'.Consistent) (huses : c.usesRequest = true)
    (hrequest : c'.usesRequest = false) (hwebsocket : c'.usesWebsocket = c.usesWebsocket) :
    Inv maxConcurrentRequests maxWebsocketConnections (s.giveRequestSlot i c' raised) := by
  obtain ⟨slots, hslots⟩ := h.requests.release hc huses
  obtain ⟨hcapacity, hfree⟩ := Semaphore.release_some hslots
  unfold Server.giveRequestSlot
  rw [hslots]
  exact h.move hc hconsistent hcapacity (by rw [hrequest, huses, hfree]; rfl) rfl (by rw [hwebsocket])

theorem Inv.giveWebsocketSlot (h : Inv maxConcurrentRequests maxWebsocketConnections s)
    (hc : s.conns[i]? = some c) (hconsistent : c'.Consistent) (huses : c.usesWebsocket = true)
    (hwebsocket : c'.usesWebsocket = false) (hrequest : c'.usesRequest = c.usesRequest) :
    Inv maxConcurrentRequests maxWebsocketConnections (s.giveWebsocketSlot i c') := by
  obtain ⟨slots, hslots⟩ := h.websockets.release hc huses
  obtain ⟨hcapacity, hfree⟩ := Semaphore.release_some hslots
  unfold Server.giveWebsocketSlot
  rw [hslots]
  exact h.move hc hconsistent rfl (by rw [hrequest]) hcapacity (by rw [hwebsocket, huses, hfree]; rfl)

theorem Inv.initial : Inv maxConcurrentRequests maxWebsocketConnections
    (.initial maxConcurrentRequests maxWebsocketConnections) where
  requestCapacity := rfl
  websocketCapacity := rfl
  requests := rfl
  websockets := rfl
  consistent := by simp [Server.initial]
  noneTwice := rfl

@[simp] theorem usesRequest_write (w : Written) : (Server.write c w).usesRequest = c.usesRequest := by
  unfold Server.write
  split <;> rfl

@[simp] theorem usesWebsocket_write (w : Written) : (Server.write c w).usesWebsocket = c.usesWebsocket := by
  unfold Server.write
  split <;> rfl

theorem consistent_write {w : Written} : (Server.write c w).Consistent ↔ c.Consistent := by
  unfold Server.write
  split <;> rfl

theorem write_fields (c : Conn) (w : Written) : (Server.write c w).phase = c.phase ∧
    (Server.write c w).released = c.released ∧ (Server.write c w).upgraded = c.upgraded := by
  unfold Server.write
  split <;> exact ⟨rfl, rfl, rfl⟩

/-- Every step keeps the invariant. -/
theorem Inv.step (h : Inv maxConcurrentRequests maxWebsocketConnections s) (a : Action) :
    Inv maxConcurrentRequests maxWebsocketConnections (Server.step a s) := by
  cases a with
  | connect sent =>
    cases hslots : s.requestSlots.acquire with
    | none =>
      simp only [Server.step, hslots]
      exact {
        requestCapacity := h.requestCapacity
        websocketCapacity := h.websocketCapacity
        requests := h.requests.append rfl rfl
        websockets := h.websockets.append rfl rfl
        consistent := by
          intro d hd
          rcases List.mem_append.mp hd with hd | hd
          · exact h.consistent d hd
          · rw [List.mem_singleton.mp hd]
            rfl
        noneTwice := h.noneTwice }
    | some slots =>
      obtain ⟨hcapacity, hfree⟩ := Semaphore.acquire_some hslots
      simp only [Server.step, hslots]
      exact {
        requestCapacity := hcapacity.trans h.requestCapacity
        websocketCapacity := h.websocketCapacity
        requests := h.requests.append hcapacity hfree.symm
        websockets := h.websockets.append rfl rfl
        consistent := by
          intro d hd
          rcases List.mem_append.mp hd with hd | hd
          · exact h.consistent d hd
          · rw [List.mem_singleton.mp hd]
            rfl
        noneTwice := h.noneTwice }
  | startThread i ok =>
    refine inPhase_of h fun c hc hphase => ?_
    have hcons := h.consistent c (List.mem_of_getElem? hc)
    simp only [Conn.Consistent, hphase] at hcons
    cases ok with
    | true =>
      rw [if_pos rfl]
      exact h.put hc hcons (by simp [Conn.usesRequest, Phase.handlerEnded, hphase])
        (by simp [Conn.usesWebsocket, hphase])
    | false =>
      rw [if_neg Bool.false_ne_true]
      exact h.giveRequestSlot hc hcons
        (by simp [Conn.usesRequest, Phase.handlerEnded, hphase, hcons])
        (by simp [Conn.usesRequest, Phase.handlerEnded]) (by simp [Conn.usesWebsocket, hphase])
  | enter i =>
    refine inPhase_of h fun c hc hphase => ?_
    have hcons := h.consistent c (List.mem_of_getElem? hc)
    simp only [Conn.Consistent, hphase] at hcons
    exact h.put hc ⟨rfl, hcons⟩ (by simp [Conn.usesRequest, Phase.handlerEnded, hphase])
      (by simp [Conn.usesWebsocket, hphase])
  | respond i =>
    refine inPhase_of h fun c hc hphase => ?_
    have hcons := h.consistent c (List.mem_of_getElem? hc)
    exact h.put hc (consistent_write.mpr hcons) (usesRequest_write _) (usesWebsocket_write _)
  | takeWebsocketSlot i =>
    refine inPhase_of h fun c hc hphase => ?_
    have hcons := h.consistent c (List.mem_of_getElem? hc)
    simp only [Conn.Consistent, hphase] at hcons
    cases hslots : s.websocketSlots.acquire with
    | none => exact h
    | some slots =>
      obtain ⟨hcapacity, hfree⟩ := Semaphore.acquire_some hslots
      have hnext : Conn.Consistent { c with phase := .upgrading } := hcons
      refine h.move hc hnext rfl ?_ hcapacity ?_
      · simp [Conn.usesRequest, Phase.handlerEnded, hphase]
      · simp [Conn.usesWebsocket, hphase, hcons.2, hfree]
  | releaseRequestSlot i =>
    refine inPhase_of h fun c hc hphase => ?_
    have hcons := h.consistent c (List.mem_of_getElem? hc)
    simp only [Conn.Consistent, hphase] at hcons
    rw [if_neg (by simp [hcons.1])]
    exact h.giveRequestSlot hc ⟨hcons.1, rfl⟩
      (by simp [Conn.usesRequest, Phase.handlerEnded, hphase, hcons.2])
      (by simp [Conn.usesRequest]) (by simp [Conn.usesWebsocket, hphase])
  | markReleased i =>
    refine inPhase_of h fun c hc hphase => ?_
    have hcons := h.consistent c (List.mem_of_getElem? hc)
    simp only [Conn.Consistent, hphase] at hcons
    exact h.put hc ⟨rfl, hcons.2⟩ (by simp [Conn.usesRequest, Phase.handlerEnded, hphase])
      (by simp [Conn.usesWebsocket, hphase])
  | switch i sent =>
    refine inPhase_of h fun c hc hphase => ?_
    have hcons := h.consistent c (List.mem_of_getElem? hc)
    simp only [Conn.Consistent, hphase] at hcons
    cases sent with
    | true =>
      obtain ⟨-, hreleased, hupgraded⟩ := write_fields c .switching
      rw [if_pos rfl]
      exact h.put hc ⟨hreleased.trans hcons.1, hupgraded.trans hcons.2⟩
        (by simp [Conn.usesRequest, Phase.handlerEnded, hphase, hupgraded])
        (by simp [Conn.usesWebsocket, hphase, hupgraded])
    | false =>
      obtain ⟨-, hreleased, hupgraded⟩ := write_fields c .http
      rw [if_neg Bool.false_ne_true]
      exact h.put hc ⟨hreleased.trans hcons.1, hupgraded.trans hcons.2⟩
        (by simp [Conn.usesRequest, Phase.handlerEnded, hphase, hupgraded])
        (by simp [Conn.usesWebsocket, hphase, hupgraded])
  | openSession i ok =>
    refine inPhase_of h fun c hc hphase => ?_
    have hcons := h.consistent c (List.mem_of_getElem? hc)
    simp only [Conn.Consistent, hphase] at hcons
    cases ok with
    | true =>
      exact h.put hc hcons (by simp [Conn.usesRequest, Phase.handlerEnded, hphase])
        (by simp [Conn.usesWebsocket, hphase])
    | false =>
      exact h.put hc hcons (by simp [Conn.usesRequest, Phase.handlerEnded, hphase])
        (by simp [Conn.usesWebsocket, hphase])
  | sendFrame i =>
    refine inPhase_of h fun c hc hphase => ?_
    have hcons := h.consistent c (List.mem_of_getElem? hc)
    exact h.put hc (consistent_write.mpr hcons) (usesRequest_write _) (usesWebsocket_write _)
  | endSession i raised =>
    refine inPhase_of h fun c hc hphase => ?_
    have hcons := h.consistent c (List.mem_of_getElem? hc)
    simp only [Conn.Consistent, hphase] at hcons
    cases raised with
    | true =>
      exact h.put hc hcons (by simp [Conn.usesRequest, Phase.handlerEnded, hphase])
        (by simp [Conn.usesWebsocket, hphase])
    | false =>
      exact h.put hc hcons (by simp [Conn.usesRequest, Phase.handlerEnded, hphase])
        (by simp [Conn.usesWebsocket, hphase])
  | problem i sent =>
    refine inPhase_of h fun c hc hphase => ?_
    have hcons := h.consistent c (List.mem_of_getElem? hc)
    simp only [Conn.Consistent, hphase] at hcons
    cases sent with
    | true =>
      obtain ⟨-, hreleased, hupgraded⟩ := write_fields c .http
      exact h.put hc ⟨hreleased.trans hcons.1, hupgraded.trans hcons.2⟩
        (by simp [Conn.usesRequest, Phase.handlerEnded, hphase, hupgraded])
        (by simp [Conn.usesWebsocket, hphase, hupgraded])
    | false =>
      exact h.put hc hcons (by simp [Conn.usesRequest, Phase.handlerEnded, hphase])
        (by simp [Conn.usesWebsocket, hphase])
  | leave i =>
    refine inPhase_of h fun c hc hphase => ?_
    have hcons := h.consistent c (List.mem_of_getElem? hc)
    simp only [Conn.Consistent, hphase] at hcons
    exact h.giveWebsocketSlot hc (hcons.1.trans hcons.2.symm)
      (by simp [Conn.usesWebsocket, hphase, hcons.2]) (by simp [Conn.usesWebsocket])
      (by simp [Conn.usesRequest, Phase.handlerEnded, hphase])
  | finish i =>
    refine inPhase_of h fun c hc hphase => ?_
    have hcons := h.consistent c (List.mem_of_getElem? hc)
    simp only [Conn.Consistent, hphase] at hcons
    exact h.put hc (hcons.1.trans hcons.2.symm)
      (by simp [Conn.usesRequest, Phase.handlerEnded, hphase])
      (by simp [Conn.usesWebsocket, hphase, hcons.2])
  | close i =>
    refine inPhase_of h fun c hc hphase => ?_
    have hcons := h.consistent c (List.mem_of_getElem? hc)
    simp only [Conn.Consistent, hphase] at hcons
    by_cases hreleased : c.released = true
    · rw [if_pos hreleased]
      exact h.put hc trivial
        (by simp [Conn.usesRequest, Phase.handlerEnded, hphase, ← hcons, hreleased])
        (by simp [Conn.usesWebsocket, hphase])
    · rw [if_neg hreleased]
      exact h.giveRequestSlot hc trivial
        (by simp [Conn.usesRequest, Phase.handlerEnded, hphase, ← hcons, hreleased])
        (by simp [Conn.usesRequest, Phase.handlerEnded]) (by simp [Conn.usesWebsocket, hphase])
  | clear i =>
    refine inPhase_of h fun c hc hphase => ?_
    exact h.put hc trivial (by simp [Conn.usesRequest, Phase.handlerEnded, hphase])
      (by simp [Conn.usesWebsocket, hphase])

theorem Inv.kept (h : Inv maxConcurrentRequests maxWebsocketConnections s) :
    SlotsKept maxConcurrentRequests maxWebsocketConnections s := by
  refine ⟨?_, ?_, h.noneTwice, ?_⟩
  · rw [← h.requestCapacity]
    exact h.requests
  · rw [← h.websocketCapacity]
    exact h.websockets
  · intro hover
    rw [← h.requestCapacity, ← h.websocketCapacity]
    refine ⟨h.requests.all_free ?_, h.websockets.all_free ?_⟩
    · intro c hc
      have hphase := hover c hc
      simp only [Phase.isOver, List.mem_cons, List.not_mem_nil, or_false, decide_eq_true_eq] at hphase
      rcases hphase with hphase | hphase | hphase <;> simp [Conn.usesRequest, Phase.handlerEnded, hphase]
    · intro c hc
      have hphase := hover c hc
      have hcons := h.consistent c hc
      simp only [Phase.isOver, List.mem_cons, List.not_mem_nil, or_false, decide_eq_true_eq] at hphase
      rcases hphase with hphase | hphase | hphase <;> simp only [Conn.Consistent, hphase] at hcons <;>
        simp [Conn.usesWebsocket, hphase, hcons]

end Slots

/-! ### What is written -/

section Output

variable {s : Server} {c : Conn} {l : List Written}

theorem clean_of_not_mem (h : .switching ∉ l) : Clean l := by
  rintro before after rfl
  exact absurd (List.mem_append_right _ List.mem_cons_self) h

theorem clean_switching (h : .switching ∉ l) : Clean (l ++ [.switching]) := by
  intro before after heq w hw
  rcases List.append_eq_append_iff.mp heq with ⟨m, hbefore, hafter⟩ | ⟨m, hl, hafter⟩
  · cases m with
    | nil =>
      rw [List.nil_append] at hafter
      rw [(List.cons.inj hafter).2.symm] at hw
      cases hw
    | cons x m =>
      have hnil := (List.cons.inj hafter).2
      simp at hnil
  · cases m with
    | nil =>
      rw [List.nil_append] at hafter
      rw [(List.cons.inj hafter).2] at hw
      cases hw
    | cons x m =>
      obtain rfl := (List.cons.inj hafter).1
      rw [hl] at h
      exact absurd (List.mem_append_right _ List.mem_cons_self) h

theorem Clean.frame (h : Clean l) : Clean (l ++ [.frame]) := by
  intro before after heq w hw
  rcases List.eq_nil_or_concat after with rfl | ⟨rest, last, rfl⟩
  · cases hw
  · rw [List.concat_eq_append, ← List.cons_append, ← List.append_assoc] at heq
    obtain ⟨hinit, hlast⟩ := List.append_inj' heq rfl
    rw [List.concat_eq_append] at hw
    rcases List.mem_append.mp hw with hw | hw
    · exact h before rest hinit w hw
    · rw [List.mem_singleton.mp hw, ← List.singleton_inj.mp hlast]

/-- What a connection has written, by where its code stands. -/
def Conn.Tidy (c : Conn) : Prop :=
  match c.phase with
  | .refused | .starting | .unstarted | .entering | .serving | .upgrading | .marking | .switching =>
    .switching ∉ c.written
  | .opening | .streaming => Clean c.written
  | .failing => Clean c.written ∧ (c.shut = true ∨ .switching ∉ c.written)
  | .leaving | .closing | .clearing | .ended => Clean c.written

theorem not_mem_write {w : Written} (h : .switching ∉ c.written) (hw : w ≠ .switching) :
    .switching ∉ (Server.write c w).written := by
  unfold Server.write
  split
  · exact h
  · rw [List.mem_append, List.mem_singleton]
    rintro (hmem | rfl)
    · exact h hmem
    · exact hw rfl

/-- Every step that does not fail to set a session up keeps what is written tidy. -/
theorem tidy_step (h : ∀ c ∈ s.conns, c.Tidy) (a : Action) (ha : a.setsUp = true) :
    ∀ c ∈ (Server.step a s).conns, c.Tidy := by
  have hget : ∀ {i : Nat} {c : Conn}, s.conns[i]? = some c → c.Tidy := fun hc =>
    h _ (List.mem_of_getElem? hc)
  cases a with
  | connect sent =>
    cases hslots : s.requestSlots.acquire with
    | none =>
      simp only [Server.step, hslots]
      intro d hd
      rcases List.mem_append.mp hd with hd | hd
      · exact h d hd
      · rw [List.mem_singleton.mp hd]
        show .switching ∉ (if sent = true then [Written.http] else [])
        cases sent <;> decide
    | some slots =>
      simp only [Server.step, hslots]
      intro d hd
      rcases List.mem_append.mp hd with hd | hd
      · exact h d hd
      · rw [List.mem_singleton.mp hd]
        exact List.not_mem_nil
  | startThread i ok =>
    refine inPhase_of (P := fun s => ∀ c ∈ s.conns, c.Tidy) h fun c hc hphase => ?_
    have htidy := hget hc
    simp only [Conn.Tidy, hphase] at htidy
    cases ok with
    | true => exact forall_put h htidy
    | false => exact forall_giveRequestSlot h htidy htidy
  | enter i =>
    refine inPhase_of (P := fun s => ∀ c ∈ s.conns, c.Tidy) h fun c hc hphase => ?_
    have htidy := hget hc
    simp only [Conn.Tidy, hphase] at htidy
    exact forall_put h htidy
  | respond i =>
    refine inPhase_of (P := fun s => ∀ c ∈ s.conns, c.Tidy) h fun c hc hphase => ?_
    have htidy := hget hc
    have hwrite := (write_fields c .http).1
    simp only [Conn.Tidy, hphase] at htidy
    refine forall_put h ?_
    simp only [Conn.Tidy, hwrite, hphase]
    exact not_mem_write htidy (by decide)
  | takeWebsocketSlot i =>
    refine inPhase_of (P := fun s => ∀ c ∈ s.conns, c.Tidy) h fun c hc hphase => ?_
    have htidy := hget hc
    simp only [Conn.Tidy, hphase] at htidy
    cases s.websocketSlots.acquire with
    | none => exact h
    | some slots => exact forall_put h htidy
  | releaseRequestSlot i =>
    refine inPhase_of (P := fun s => ∀ c ∈ s.conns, c.Tidy) h fun c hc hphase => ?_
    have htidy := hget hc
    simp only [Conn.Tidy, hphase] at htidy
    have hfailing : Clean c.written ∧ (c.shut = true ∨ .switching ∉ c.written) :=
      ⟨clean_of_not_mem htidy, .inr htidy⟩
    split
    · exact forall_put h hfailing
    · exact forall_giveRequestSlot h htidy hfailing
  | markReleased i =>
    refine inPhase_of (P := fun s => ∀ c ∈ s.conns, c.Tidy) h fun c hc hphase => ?_
    have htidy := hget hc
    simp only [Conn.Tidy, hphase] at htidy
    exact forall_put h htidy
  | switch i sent =>
    refine inPhase_of (P := fun s => ∀ c ∈ s.conns, c.Tidy) h fun c hc hphase => ?_
    have htidy := hget hc
    simp only [Conn.Tidy, hphase] at htidy
    cases sent with
    | true =>
      refine forall_put h ?_
      show Clean (Server.write c .switching).written
      unfold Server.write
      split
      · exact clean_of_not_mem htidy
      · exact clean_switching htidy
    | false =>
      have hwritten : .switching ∉ (Server.write c .http).written := not_mem_write htidy (by decide)
      exact forall_put h ⟨clean_of_not_mem hwritten, .inr hwritten⟩
  | openSession i ok =>
    refine inPhase_of (P := fun s => ∀ c ∈ s.conns, c.Tidy) h fun c hc hphase => ?_
    have htidy := hget hc
    simp only [Conn.Tidy, hphase] at htidy
    obtain rfl : ok = true := ha
    exact forall_put h htidy
  | sendFrame i =>
    refine inPhase_of (P := fun s => ∀ c ∈ s.conns, c.Tidy) h fun c hc hphase => ?_
    have htidy := hget hc
    have hwrite := (write_fields c .frame).1
    simp only [Conn.Tidy, hphase] at htidy
    refine forall_put h ?_
    simp only [Conn.Tidy, hwrite, hphase]
    unfold Server.write
    split
    · exact htidy
    · exact htidy.frame
  | endSession i raised =>
    refine inPhase_of (P := fun s => ∀ c ∈ s.conns, c.Tidy) h fun c hc hphase => ?_
    have htidy := hget hc
    simp only [Conn.Tidy, hphase] at htidy
    cases raised with
    | true => exact forall_put h ⟨htidy, .inl rfl⟩
    | false => exact forall_put h htidy
  | problem i sent =>
    refine inPhase_of (P := fun s => ∀ c ∈ s.conns, c.Tidy) h fun c hc hphase => ?_
    have htidy := hget hc
    simp only [Conn.Tidy, hphase] at htidy
    cases sent with
    | true =>
      refine forall_put h ?_
      show Clean (Server.write c .http).written
      rcases htidy.2 with hshut | hnot
      · -- nothing can be written on a socket that is shut down
        unfold Server.write
        rw [if_pos hshut]
        exact htidy.1
      · exact clean_of_not_mem (not_mem_write hnot (by decide))
    | false => exact forall_put h htidy.1
  | leave i =>
    refine inPhase_of (P := fun s => ∀ c ∈ s.conns, c.Tidy) h fun c hc hphase => ?_
    have htidy := hget hc
    simp only [Conn.Tidy, hphase] at htidy
    exact forall_giveWebsocketSlot h htidy
  | finish i =>
    refine inPhase_of (P := fun s => ∀ c ∈ s.conns, c.Tidy) h fun c hc hphase => ?_
    have htidy := hget hc
    simp only [Conn.Tidy, hphase] at htidy
    exact forall_put h (clean_of_not_mem htidy)
  | close i =>
    refine inPhase_of (P := fun s => ∀ c ∈ s.conns, c.Tidy) h fun c hc hphase => ?_
    have htidy := hget hc
    simp only [Conn.Tidy, hphase] at htidy
    split
    · exact forall_put h htidy
    · exact forall_giveRequestSlot h htidy htidy
  | clear i =>
    refine inPhase_of (P := fun s => ∀ c ∈ s.conns, c.Tidy) h fun c hc hphase => ?_
    have htidy := hget hc
    simp only [Conn.Tidy, hphase] at htidy
    exact forall_put h htidy

theorem Conn.Tidy.clean (h : c.Tidy) : Clean c.written := by
  unfold Conn.Tidy at h
  split at h
  all_goals first
    | exact clean_of_not_mem h
    | exact h.1
    | exact h

end Output

/-! ### Runs -/

section Runs

variable {maxConcurrentRequests maxWebsocketConnections : Nat} {s : Server}

theorem reachable_kept
    (h : (serverMachine maxConcurrentRequests maxWebsocketConnections).Reachable (fun _ _ => True) s) :
    SlotsKept maxConcurrentRequests maxWebsocketConnections s := by
  refine Inv.kept (Machine.invariant ?_ ?_ h)
  · rintro s rfl
    exact Inv.initial
  · intro a s _ _ hinv
    exact hinv.step a

theorem reachable_tidy (h : (serverMachine maxConcurrentRequests maxWebsocketConnections).Reachable
    (fun a _ => a.setsUp = true) s) : ∀ c ∈ s.conns, c.Tidy := by
  refine Machine.invariant (I := fun s => ∀ c ∈ s.conns, c.Tidy) ?_ ?_ h
  · rintro s rfl
    simp [Server.initial]
  · intro a s _ ha htidy
    exact tidy_step htidy a ha

theorem along_true {α σ : Type} {m : Machine α σ} (s : σ) : ∀ as : List α, m.Along (fun _ _ => True) s as
  | [] => trivial
  | a :: as => ⟨trivial, along_true (m.step a s) as⟩

/-- Every run keeps the slots, and if it sets every session up, nothing but frames follows a 101 response. -/
theorem connections_sound (maxConcurrentRequests maxWebsocketConnections : Nat) (actions : List Action) :
    SlotsKept maxConcurrentRequests maxWebsocketConnections
        ((serverMachine maxConcurrentRequests maxWebsocketConnections).run
          (.initial maxConcurrentRequests maxWebsocketConnections) actions) ∧
      ((serverMachine maxConcurrentRequests maxWebsocketConnections).Along (fun a _ => a.setsUp = true)
          (.initial maxConcurrentRequests maxWebsocketConnections) actions →
        ∀ c ∈ ((serverMachine maxConcurrentRequests maxWebsocketConnections).run
          (.initial maxConcurrentRequests maxWebsocketConnections) actions).conns, Clean c.written) := by
  refine ⟨reachable_kept (Machine.reachable_iff.mpr ⟨_, actions, rfl, ?_, rfl⟩), ?_⟩
  · exact along_true _ _
  · intro h c hc
    exact (reachable_tidy (Machine.reachable_iff.mpr ⟨_, actions, rfl, h, rfl⟩) c hc).clean

/-- A connection that is upgraded, served and closed. -/
def upgradedRun : List Action :=
  [.connect true, .startThread 0 true, .enter 0, .takeWebsocketSlot 0, .releaseRequestSlot 0,
    .markReleased 0, .switch 0 true, .openSession 0 true, .sendFrame 0, .endSession 0 false, .leave 0,
    .close 0, .clear 0]

theorem upgraded_sound :
    SlotsKept 1 1 ((serverMachine 1 1).run (.initial 1 1) upgradedRun) ∧
      ∀ c ∈ ((serverMachine 1 1).run (.initial 1 1) upgradedRun).conns, Clean c.written :=
  ⟨(connections_sound 1 1 upgradedRun).1, (connections_sound 1 1 upgradedRun).2 (by decide)⟩

/-- A session whose reader's thread cannot be started is answered with a second HTTP response. -/
theorem response_after_switch :
    ¬∀ (maxConcurrentRequests maxWebsocketConnections : Nat) (actions : List Action),
      SlotsKept maxConcurrentRequests maxWebsocketConnections
          ((serverMachine maxConcurrentRequests maxWebsocketConnections).run
            (.initial maxConcurrentRequests maxWebsocketConnections) actions) ∧
        ∀ c ∈ ((serverMachine maxConcurrentRequests maxWebsocketConnections).run
          (.initial maxConcurrentRequests maxWebsocketConnections) actions).conns, Clean c.written := by
  intro h
  have hclean := (h 1 1 [.connect true, .startThread 0 true, .enter 0, .takeWebsocketSlot 0,
    .releaseRequestSlot 0, .markReleased 0, .switch 0 true, .openSession 0 false, .problem 0 true]).2
  have hwritten : Clean [.switching, .http] :=
    hclean ⟨.leaving, true, false, [.switching, .http], true⟩ (by decide)
  exact absurd (hwritten [] [.http] rfl .http List.mem_cons_self) (by decide)

end Runs

end HermesOps.Http
