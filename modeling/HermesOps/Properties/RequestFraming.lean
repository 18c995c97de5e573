import HermesOps.Http.ConsoleHandler

/-! When the two HTTP handlers keep a connection in step. A handler may answer before it has looked at the
    fields that say how long the body is; then it has to close the connection, and several early refusals
    do not. For each kind of request this says exactly which ones are safe, whatever comes of them, and on
    a connection of safe requests the requests answered are those that were sent. -/

namespace HermesOps.Http

open Controller (strip lower isDigit)
open Schemes (Fate Wire)

variable {r : Request} {e : Exchange} {c : ControllerSite} {s : ConsoleSite} {input : List UInt8}
  {parse : List UInt8 → Option (Request × List UInt8)}

/-! ### Lengths -/

/-- A length in digits is what `int` reads, unless it has too many of them. -/
theorem pythonInt_of_lengthOf {text : String} {n : Nat} (h : lengthOf text = some n) :
    pythonInt text = some (n : Int) ∨ pythonInt text = none := by
  unfold lengthOf at h
  dsimp only at h
  split at h
  swap
  · cases h
  rename_i hdigits
  obtain ⟨hne, hall⟩ := hdigits
  cases h
  have hhead : ∀ ch, isDigit ch = false → (strip text).toList.head? ≠ some ch := by
    intro ch hch heq
    have hmem : ch ∈ (strip text).toList := List.mem_of_mem_head? heq
    rw [List.all_eq_true.1 hall ch hmem] at hch
    cases hch
  have hunder : '_' ∉ (strip text).toList := by
    intro hmem
    have hdigit := List.all_eq_true.1 hall '_' hmem
    cases hdigit
  have hminus := hhead '-' rfl
  have hplus := hhead '+' rfl
  have hgroups : (strip text).toList.splitOn '_' = [(strip text).toList] := List.splitOn_eq_singleton hunder
  have hdigits := List.all_eq_true.1 hall
  by_cases hlong : (strip text).toList.length ≤ 4300
  · refine Or.inl ?_
    simpa [pythonInt, hplus, hminus, hgroups, hne, hlong] using hdigits
  · refine Or.inr ?_
    simp [pythonInt, hplus, hminus, hgroups, hlong]

/-! ### Checks -/

theorem demand_ok {test : Bool} {code : String} : demand test code = .ok () ↔ test = true := by
  cases test <;> simp [demand, deny]

/-- Nothing but a `ControllerError` of the given codes is raised. -/
def RaisesOnly {α : Type} (codes : List String) (x : Check α) : Prop :=
  ∀ raised, x = .error raised → ∃ code ∈ codes, raised = .controller code

theorem raisesOnly_demand {test : Bool} {code : String} {codes : List String} (h : code ∈ codes) :
    RaisesOnly codes (demand test code) := by
  intro raised hraised
  cases test with
  | true => cases hraised
  | false =>
    cases hraised
    exact ⟨code, h, rfl⟩

theorem raisesOnly_bind {α β : Type} {codes : List String} {x : Check α} {f : α → Check β}
    (hx : RaisesOnly codes x) (hf : ∀ a, RaisesOnly codes (f a)) : RaisesOnly codes (x >>= f) := by
  intro raised hraised
  cases x with
  | error raised' =>
    cases hraised
    exact hx _ rfl
  | ok a => exact hf a raised hraised

/-- A field that is not required. -/
theorem singleHeader_optional {name : String} : singleHeader r name false =
    if (r.getAll name).length ≤ 1 then .ok (r.get name) else deny "ambiguous_header" := by
  unfold singleHeader
  by_cases h : (r.getAll name).length ≤ 1
  · simp [demand, h, pure, Except.pure]
  · simp [demand, h, deny]

theorem raisesOnly_single {name : String} {codes : List String} (hdouble : "ambiguous_header" ∈ codes) :
    RaisesOnly codes (singleHeader r name false) := by
  refine raisesOnly_bind (raisesOnly_demand hdouble) fun _ => ?_
  intro raised hraised
  cases hraised

/-- The codes of the checks that come first, none of which closes the connection. -/
def admissionCodes : List String :=
  ["ambiguous_header", "host_header_required", "misdirected_request", "request_target_too_long"]

theorem raisesOnly_admission : RaisesOnly admissionCodes (admission c r) := by
  refine raisesOnly_bind (raisesOnly_bind (raisesOnly_single (by decide)) fun _ =>
    raisesOnly_bind (raisesOnly_demand (by decide)) fun _ => raisesOnly_demand (by decide)) fun _ =>
      raisesOnly_demand (by decide)

/-- The check of a read finds a body: a coding that is named in the first field, or a length that `int` does
    not read as zero. -/
def RefusesBody (r : Request) : Prop :=
  r.lengths.length ≤ 1 ∧ ((∃ v, r.get "transfer-encoding" = some v ∧ v ≠ "") ∨
    ∃ v, r.get "content-length" = some v ∧ pythonInt v ≠ some 0)

/-- What `_reject_request_body` does: it passes, finds a body, or finds two lengths. -/
theorem rejectRequestBody_cases (r : Request) :
    (rejectRequestBody r = .ok () ∧ r.lengths.length ≤ 1 ∧ ¬RefusesBody r) ∨
      (RefusesBody r ∧ ∃ code ∈ closingCodes, rejectRequestBody r = .error (.controller code)) ∨
      (¬r.lengths.length ≤ 1 ∧ rejectRequestBody r = .error (.controller "ambiguous_header")) := by
  unfold rejectRequestBody
  rw [singleHeader_optional]
  by_cases hdouble : (r.getAll "content-length").length ≤ 1
  swap
  · exact Or.inr (Or.inr ⟨hdouble, by rw [if_neg hdouble, deny, error_bind]⟩)
  rw [if_pos hdouble, ok_bind]
  by_cases hcoded : (r.get "transfer-encoding").all (· = "") = true
  swap
  · refine Or.inr (Or.inl ⟨⟨hdouble, Or.inl ?_⟩, "request_body_not_allowed", by decide, ?_⟩)
    · cases hget : r.get "transfer-encoding" with
      | none => simp [hget] at hcoded
      | some v => exact ⟨v, rfl, by simpa [hget] using hcoded⟩
    · rw [demand, if_neg hcoded, deny, error_bind]
  have huncoded : ¬∃ v, r.get "transfer-encoding" = some v ∧ v ≠ "" := by
    rintro ⟨v, hv, hne⟩
    rw [hv] at hcoded
    exact hne (of_decide_eq_true hcoded)
  rw [demand_ok.2 hcoded, ok_bind]
  cases hlength : r.get "content-length" with
  | none =>
    refine Or.inl ⟨rfl, hdouble, ?_⟩
    rintro ⟨-, h | ⟨v, hv, -⟩⟩
    · exact huncoded h
    · rw [hlength] at hv
      cases hv
  | some text =>
    have hfield : ∀ v, some text = some v → v = text := fun v hv => (Option.some.inj hv).symm
    dsimp only
    cases hint : pythonInt text with
    | none => exact Or.inr (Or.inl ⟨⟨hdouble, Or.inr ⟨text, hlength, by simp [hint]⟩⟩,
        "invalid_content_length", by decide, rfl⟩)
    | some n =>
      dsimp only
      by_cases hzero : n = 0
      · refine Or.inl ⟨?_, hdouble, ?_⟩
        · rw [hzero]
          rfl
        · rintro ⟨-, h | ⟨v, hv, hne⟩⟩
          · exact huncoded h
          · rw [hlength] at hv
            rw [hfield v hv, hint, hzero] at hne
            exact hne rfl
      have hbody : RefusesBody r := ⟨hdouble, Or.inr ⟨text, hlength, by simp [hint, hzero]⟩⟩
      by_cases hnegative : 0 ≤ n
      · have hpositive : ¬n ≤ 0 := by omega
        refine Or.inr (Or.inl ⟨hbody, "request_body_not_allowed", by decide, ?_⟩)
        rw [demand_ok.2 (decide_eq_true hnegative), ok_bind, demand, decide_eq_false hpositive]
        rfl
      · refine Or.inr (Or.inl ⟨hbody, "invalid_content_length", by decide, ?_⟩)
        rw [demand, decide_eq_false hnegative]
        rfl

/-! ### The Controller -/

/-- Framing is kept whatever comes of the request. -/
def Safe (handle : Request → Exchange → List UInt8 → Fate) (r : Request) : Prop :=
  ∀ e input, (handle r e input).closed = true ∨ (r.Clear ∧ (handle r e input).consumed = r.announced)

/-- No body is announced, and clearly so. -/
def Bodiless (r : Request) : Prop := r.Clear ∧ r.announced = 0

/-- Everything goes well. -/
def smooth : Exchange := ⟨true, true, .ok ()⟩

/-- A read is safe. -/
def ReadSafe (c : ControllerSite) (r : Request) : Prop :=
  r.closes = true ∨ Bodiless r ∨ (admission c r = .ok () ∧ RefusesBody r)

theorem respond_open (r : Request) {close : Bool} {n : Nat} (h : close = false) :
    (respond r smooth close n).closed = r.closes := by
  simp [respond, smooth, h]

theorem respond_close (r : Request) (e : Exchange) (n : Nat) : (respond r e true n).closed = true := by
  simp [respond]

theorem controllerGet_consumed : (controllerGet c r e).consumed = 0 := by
  unfold controllerGet
  split <;> rfl

/-- A read that refuses no body leaves the connection as the parser left it, if all goes well. -/
theorem controllerGet_smooth (h : ¬(admission c r = .ok () ∧ RefusesBody r)) :
    (controllerGet c r smooth).closed = r.closes := by
  unfold controllerGet
  cases hadmission : admission c r with
  | error raised =>
    obtain ⟨code, hcode, rfl⟩ := raisesOnly_admission raised hadmission
    refine respond_open r ?_
    have hnone : ∀ code ∈ admissionCodes, decide (code ∈ closingCodes) = false := by decide
    exact hnone code hcode
  | ok u =>
    have hbody : ¬RefusesBody r := fun hbody => h ⟨hadmission, hbody⟩
    rcases rejectRequestBody_cases r with ⟨hpass, -⟩ | ⟨hrefuses, -⟩ | ⟨-, hdouble⟩
    · rw [hpass]
      exact respond_open r rfl
    · exact absurd hrefuses hbody
    · rw [hdouble]
      exact respond_open r (by decide)

theorem controllerGet_refuses (hadmission : admission c r = .ok ()) (hbody : RefusesBody r) :
    (controllerGet c r e).closed = true := by
  unfold controllerGet
  rw [hadmission]
  rcases rejectRequestBody_cases r with ⟨-, -, hpass⟩ | ⟨-, code, hcode, hrefuses⟩ | ⟨hdouble, -⟩
  · exact absurd hbody hpass
  · rw [hrefuses]
    have hclose : decide (code ∈ closingCodes) = true := decide_eq_true hcode
    show (respond r e (decide (code ∈ closingCodes)) 0).closed = true
    rw [hclose]
    exact respond_close r e 0
  · exact absurd hbody.1 hdouble

/-- Reads are safe exactly if they announce no body, or are refused for one. -/
theorem controllerGet_safe : Safe (fun r e _ => controllerGet c r e) r ↔ ReadSafe c r := by
  constructor
  · intro h
    by_cases hrefused : admission c r = .ok () ∧ RefusesBody r
    · exact Or.inr (Or.inr hrefused)
    · rcases h smooth [] with hclosed | ⟨hclear, hconsumed⟩
      · rw [controllerGet_smooth hrefused] at hclosed
        exact Or.inl hclosed
      · rw [controllerGet_consumed] at hconsumed
        exact Or.inr (Or.inl ⟨hclear, hconsumed.symm⟩)
  · rintro (hcloses | ⟨hclear, hzero⟩ | ⟨hadmission, hbody⟩) e input
    · left
      dsimp only
      unfold controllerGet
      split <;> simp [respond, hcloses]
    · exact Or.inr ⟨hclear, controllerGet_consumed.trans hzero.symm⟩
    · exact Or.inl (controllerGet_refuses hadmission hbody)

theorem singleHeader_passes {name : String} {v : Option String} (h : singleHeader r name false = .ok v) :
    (r.getAll name).length ≤ 1 ∧ v = r.get name := by
  rw [singleHeader_optional] at h
  split at h
  · rename_i hle
    cases h
    exact ⟨hle, rfl⟩
  · cases h

theorem lengths_of_get {text : String} (hdouble : (r.getAll "content-length").length ≤ 1)
    (h : r.get "content-length" = some text) : r.lengths = [text] := by
  rw [Request.get] at h
  rw [Request.lengths]
  cases hall : r.getAll "content-length" with
  | nil =>
    rw [hall] at h
    cases h
  | cons v vs =>
    rw [hall] at h hdouble
    cases h
    cases vs with
    | nil => rfl
    | cons _ _ => simp at hdouble

/-- A length that is taken for a body is the one that is announced. -/
theorem jsonLength_ok {n : Nat} (h : jsonLength r = .ok n) : r.ClearLength ∧ n = r.announced := by
  obtain ⟨_, -, h⟩ := bind_passes.1 h
  obtain ⟨_, -, h⟩ := bind_passes.1 h
  obtain ⟨_, -, h⟩ := bind_passes.1 h
  obtain ⟨field, hfield, h⟩ := bind_passes.1 h
  obtain ⟨hdouble, rfl⟩ := singleHeader_passes hfield
  cases hlength : r.get "content-length" with
  | none =>
    rw [hlength] at h
    cases h
  | some text =>
    rw [hlength] at h
    dsimp only at h
    have hlengths := lengths_of_get hdouble hlength
    cases hdigits : lengthOf text with
    | none =>
      rw [hdigits] at h
      cases h
    | some length =>
      rw [hdigits] at h
      dsimp only at h
      split at h
      · cases h
      obtain ⟨_, -, h⟩ := bind_passes.1 h
      cases h
      refine ⟨Or.inr ⟨text, _, hlengths, hdigits⟩, ?_⟩
      simp [Request.announced, hlengths, hdigits]

/-- A mutation is safe: no coding is named, or the request is refused before its body is read. -/
def MutationSafe (c : ControllerSite) (isPath : String → Bool) (r : Request) : Prop :=
  r.closes = true ∨ r.Uncoded ∨ ∀ n, mutationLength c r isPath ≠ .ok n

theorem mutationLength_ok {isPath : String → Bool} {n : Nat} (h : mutationLength c r isPath = .ok n) :
    r.ClearLength ∧ n = r.announced := by
  obtain ⟨_, -, h⟩ := bind_passes.1 h
  obtain ⟨_, -, h⟩ := bind_passes.1 h
  obtain ⟨_, -, h⟩ := bind_passes.1 h
  exact jsonLength_ok h

/-- Mutations are safe exactly if no field names a coding behind one that does not. -/
theorem controllerMutation_safe {isPath : String → Bool} :
    Safe (fun r e input => controllerMutation c r e isPath input) r ↔ MutationSafe c isPath r := by
  constructor
  · intro h
    cases hlength : mutationLength c r isPath with
    | error raised => exact Or.inr (Or.inr fun n hn => by rw [hlength] at hn; cases hn)
    | ok n =>
      have hread := h smooth (List.replicate n 0)
      dsimp only at hread
      have hfate : controllerMutation c r smooth isPath (List.replicate n 0) = respond r smooth false n := by
        simp [controllerMutation, hlength, smooth]
      rw [hfate] at hread
      rcases hread with hclosed | ⟨hclear, -⟩
      · rw [respond_open r rfl] at hclosed
        exact Or.inl hclosed
      · exact Or.inr (Or.inl hclear.1)
  · rintro h e input
    dsimp only
    unfold controllerMutation
    cases hlength : mutationLength c r isPath with
    | error raised => exact Or.inl (respond_close r e 0)
    | ok n =>
      obtain ⟨hclear, rfl⟩ := mutationLength_ok hlength
      dsimp only
      split
      · exact Or.inl (respond_close r e _)
      · cases e.work with
        | error raised => exact Or.inl (respond_close r e _)
        | ok u =>
          rcases h with hcloses | huncoded | hrefused
          · exact Or.inl (by simp [respond, hcloses])
          · exact Or.inr ⟨⟨huncoded, hclear⟩, rfl⟩
          · exact absurd hlength (hrefused _)

/-- A preflight is safe: it announces no body, or it is refused. -/
def PreflightSafe (c : ControllerSite) (r : Request) : Prop :=
  r.closes = true ∨ Bodiless r ∨ preflight c r ≠ .ok ()

theorem controllerOptions_safe : Safe (fun r e _ => controllerOptions c r e) r ↔ PreflightSafe c r := by
  constructor
  · intro h
    cases hpass : preflight c r with
    | error raised => exact Or.inr (Or.inr fun hok => by rw [hpass] at hok; cases hok)
    | ok u =>
      have hanswer := h smooth []
      have hfate : controllerOptions c r smooth = respond r smooth false 0 := by
        rw [controllerOptions, hpass]
      dsimp only at hanswer
      rw [hfate] at hanswer
      rcases hanswer with hclosed | ⟨hclear, hzero⟩
      · rw [respond_open r rfl] at hclosed
        exact Or.inl hclosed
      · exact Or.inr (Or.inl ⟨hclear, hzero.symm⟩)
  · rintro h e input
    dsimp only
    unfold controllerOptions
    cases hpass : preflight c r with
    | error raised => exact Or.inl (respond_close r e 0)
    | ok u =>
      rcases h with hcloses | ⟨hclear, hzero⟩ | hrefused
      · exact Or.inl (by simp [respond, hcloses])
      · exact Or.inr ⟨hclear, hzero.symm⟩
      · exact absurd hpass hrefused

theorem controllerWebsocket_closes : (controllerWebsocket c r e input).closed = true := by
  unfold controllerWebsocket
  split <;> exact respond_close r e _

/-- A request to the Controller is safe. -/
def ControllerSafe (c : ControllerSite) (r : Request) : Prop :=
  match r.method with
  | .get => isWebsocket r = true ∨ ReadSafe c r
  | .head => ReadSafe c r
  | .post => MutationSafe c isPostPath r
  | .patch => MutationSafe c isPatchPath r
  | .options => PreflightSafe c r
  | .other => True

theorem controllerHandle_safe : Safe (controllerHandle c) r ↔ ControllerSafe c r := by
  have hunfold : Safe (controllerHandle c) r ↔ ∀ e input,
      (controllerHandle c r e input).closed = true ∨
        (r.Clear ∧ (controllerHandle c r e input).consumed = r.announced) := Iff.rfl
  unfold ControllerSafe
  rw [hunfold]
  unfold controllerHandle
  cases r.method with
  | get =>
    dsimp only
    by_cases hsocket : isWebsocket r = true
    · simp only [hsocket, if_true, true_or, iff_true]
      exact fun e input => Or.inl controllerWebsocket_closes
    · simp only [hsocket, Bool.false_eq_true, if_false, false_or]
      exact controllerGet_safe
  | head => exact controllerGet_safe
  | post => exact controllerMutation_safe
  | patch => exact controllerMutation_safe
  | options => exact controllerOptions_safe
  | other => exact iff_of_true (fun e input => Or.inl (respond_close r e 0)) trivial

/-! ### The Console -/

/-- The request reaches the body check of the proxy. -/
def Forwarded (s : ConsoleSite) (r : Request) (method : Method) (path : String) : Prop :=
  routeExposed s method path = some true ∧ singletonHeadersValid r = true ∧
    validatedOrigin s r method = true

/-- What the proxy is asked is safe: no body, or an exception for the route, or a mutation that is refused
    early, or a request whose length is clear when it is read. -/
def ProxySafe (s : ConsoleSite) (r : Request) (method : Method) (path : String) : Prop :=
  r.closes = true ∨ Bodiless r ∨ routeExposed s method path = none ∨
    (isMutation method = true ∧ ¬Forwarded s r method path) ∨
    (Forwarded s r method path ∧ ∀ n, proxyLength r method = some n → r.ClearLength)

/-- A length that the proxy reads is the one that is announced, if it is clear. -/
theorem proxyLength_some {method : Method} {n : Nat} (hclear : r.ClearLength)
    (h : proxyLength r method = some n) : n = r.announced := by
  unfold proxyLength at h
  split at h
  · cases h
  rcases hclear with hnone | ⟨v, k, hone, hk⟩
  · have hget : r.get "content-length" = none := by
      rw [Request.get, show r.getAll "content-length" = [] from hnone]
      rfl
    rw [hget] at h
    simp only [Option.elim] at h
    split at h
    · cases h
    split at h
    · cases h
    split at h
    · cases h
    cases h
    simp [Request.announced, hnone]
  · have hget : r.get "content-length" = some v := by
      rw [Request.get, show r.getAll "content-length" = [v] from hone]
      rfl
    rw [hget] at h
    simp only [Option.elim] at h
    rcases pythonInt_of_lengthOf hk with hint | hint
    · rw [hint] at h
      dsimp only at h
      split at h
      · cases h
      split at h
      · cases h
      split at h
      · cases h
      cases h
      simp [Request.announced, hone, hk]
    · rw [hint] at h
      cases h

/-- The proxy reads no body behind a field that names a coding. -/
theorem proxyLength_uncoded {method : Method} {n : Nat} (h : proxyLength r method = some n) : r.Uncoded := by
  unfold proxyLength at h
  split at h
  · cases h
  rename_i hnone
  intro v hv
  exfalso
  apply hnone
  left
  rw [Request.get]
  cases hall : r.getAll "transfer-encoding" with
  | nil =>
    rw [Request.encodings, hall] at hv
    cases hv
  | cons _ _ => rfl

/-- What the proxy does with a request, by how far it comes. -/
theorem proxyController_cases {method : Method} {path : String} :
    (routeExposed s method path = none ∧ (proxyController s r e method path input).closed = true) ∨
      (routeExposed s method path ≠ none ∧ ¬Forwarded s r method path ∧
        proxyController s r e method path input = respond r e (isMutation method) 0) ∨
      (Forwarded s r method path ∧ proxyLength r method = none ∧
        (proxyController s r e method path input).closed = true) ∨
      (Forwarded s r method path ∧ ∃ n, proxyLength r method = some n ∧
        ((proxyController s r e method path input).closed = true ∨
          proxyController s r e method path input = respond r e false n)) := by
  unfold proxyController Forwarded
  cases hroute : routeExposed s method path with
  | none => exact Or.inl ⟨rfl, rfl⟩
  | some exposed =>
    right
    dsimp only
    split
    · rename_i hrefused
      refine Or.inl ⟨by simp, ?_, rfl⟩
      rintro ⟨hexposed, hsingle, horigin⟩
      cases hexposed
      simp [hsingle, horigin] at hrefused
    · rename_i hpassed
      right
      simp only [not_or, not_not] at hpassed
      obtain ⟨hexposed, hsingle, horigin⟩ := hpassed
      subst hexposed
      cases hlength : proxyLength r method with
      | none => exact Or.inl ⟨⟨rfl, hsingle, horigin⟩, rfl, respond_close r e 0⟩
      | some n =>
        refine Or.inr ⟨⟨rfl, hsingle, horigin⟩, n, rfl, ?_⟩
        dsimp only
        split
        · exact Or.inl (respond_close r e _)
        · unfold relay
          split
          · exact Or.inl rfl
          · exact Or.inr rfl

theorem proxyController_smooth {method : Method} {path : String} {n : Nat}
    (hforwarded : Forwarded s r method path) (hlength : proxyLength r method = some n) :
    proxyController s r smooth method path (List.replicate n 0) = respond r smooth false n := by
  obtain ⟨hexposed, hsingle, horigin⟩ := hforwarded
  simp [proxyController, hexposed, hsingle, horigin, hlength, smooth, relay]

theorem proxyController_safe {method : Method} {path : String} :
    Safe (fun r e input => proxyController s r e method path input) r ↔ ProxySafe s r method path := by
  constructor
  · intro h
    by_cases hforwarded : Forwarded s r method path
    · cases hlength : proxyLength r method with
      | none => exact Or.inr (Or.inr (Or.inr (Or.inr ⟨hforwarded, fun n hn => by rw [hlength] at hn; cases hn⟩)))
      | some n =>
        have hanswer := h smooth (List.replicate n 0)
        dsimp only at hanswer
        rw [proxyController_smooth hforwarded hlength, respond_open r rfl] at hanswer
        rcases hanswer with hcloses | ⟨hclear, -⟩
        · exact Or.inl hcloses
        · exact Or.inr (Or.inr (Or.inr (Or.inr ⟨hforwarded, fun _ _ => hclear.2⟩)))
    · cases hroute : routeExposed s method path with
      | none => exact Or.inr (Or.inr (Or.inl hroute))
      | some exposed =>
        by_cases hmutation : isMutation method = true
        · exact Or.inr (Or.inr (Or.inr (Or.inl ⟨hmutation, hforwarded⟩)))
        · have hanswer := h smooth []
          dsimp only at hanswer
          rcases @proxyController_cases r smooth s [] method path with ⟨hnone, -⟩ | ⟨-, -, hfate⟩ | ⟨hf, -⟩ | ⟨hf, -⟩
          · rw [hroute] at hnone
            cases hnone
          · rw [hfate, respond_open r (Bool.eq_false_iff.2 hmutation)] at hanswer
            rcases hanswer with hcloses | ⟨hclear, hzero⟩
            · exact Or.inl hcloses
            · exact Or.inr (Or.inl ⟨hclear, hzero.symm⟩)
          · exact absurd hf hforwarded
          · exact absurd hf hforwarded
  · intro h e input
    dsimp only
    rcases @proxyController_cases r e s input method path with ⟨-, hclosed⟩ | ⟨hroute, hnot, hfate⟩ | ⟨-, -, hclosed⟩ | ⟨hf, n, hn, hfate⟩
    · exact Or.inl hclosed
    · rw [hfate]
      rcases h with hcloses | ⟨hclear, hzero⟩ | hnone | ⟨hmutation, -⟩ | ⟨hf, -⟩
      · exact Or.inl (by simp [respond, hcloses])
      · exact Or.inr ⟨hclear, hzero.symm⟩
      · exact absurd hnone hroute
      · exact Or.inl (by simp [respond, hmutation])
      · exact absurd hf hnot
    · exact Or.inl hclosed
    · rcases hfate with hclosed | hfate
      · exact Or.inl hclosed
      · rw [hfate]
        have hread : r.ClearLength → (respond r e false n).closed = true ∨
            (r.Clear ∧ (respond r e false n).consumed = r.announced) := fun hclear =>
          Or.inr ⟨⟨proxyLength_uncoded hn, hclear⟩, proxyLength_some hclear hn⟩
        rcases h with hcloses | ⟨hclear, -⟩ | hnone | ⟨-, hnot⟩ | ⟨-, hclear⟩
        · exact Or.inl (by simp [respond, hcloses])
        · exact hread hclear.2
        · rw [hf.1] at hnone
          cases hnone
        · exact absurd hf hnot
        · exact hread (hclear n hn)

/-- A read from the Console is safe: nothing but the proxy minds a body. -/
def StaticSafe (s : ConsoleSite) (r : Request) (headOnly : Bool) : Prop :=
  r.closes = true ∨ Bodiless r ∨ (validHost s r = true ∧ (parsedPath s r .get = none ∨
    ∃ path, parsedPath s r .get = some (some path) ∧ isApiPath path = true ∧ headOnly = false ∧
      ProxySafe s r .get path))

/-- A mutation at the Console is safe: its host and its path are valid, or it has no body. -/
def ConsoleMutationSafe (s : ConsoleSite) (r : Request) (method : Method) : Prop :=
  r.closes = true ∨ Bodiless r ∨ (validHost s r = true ∧ (parsedPath s r method = none ∨
    ∃ path, parsedPath s r method = some (some path) ∧
      (isApiPath path = true → ProxySafe s r method path)))

/-- An answer that neither reads nor closes keeps the framing of requests without a body. -/
theorem keeps_idle : ((respond r smooth false 0).closed = true ∨
    (r.Clear ∧ (respond r smooth false 0).consumed = r.announced)) ↔ r.closes = true ∨ Bodiless r := by
  rw [respond_open r rfl]
  exact or_congr Iff.rfl (and_congr Iff.rfl eq_comm)

theorem keeps_respond (h : r.closes = true ∨ Bodiless r) : (respond r e false 0).closed = true ∨
    (r.Clear ∧ (respond r e false 0).consumed = r.announced) := by
  rcases h with hcloses | ⟨hclear, hzero⟩
  · exact Or.inl (by simp [respond, hcloses])
  · exact Or.inr ⟨hclear, hzero.symm⟩

theorem keeps_relay (h : r.closes = true ∨ Bodiless r) : (relay r e 0).closed = true ∨
    (r.Clear ∧ (relay r e 0).consumed = r.announced) := by
  unfold relay
  split
  · exact Or.inl rfl
  · exact keeps_respond h

theorem safe_of_proxy {method : Method} {path : String} (h : ProxySafe s r method path) :
    ∀ e input, (proxyController s r e method path input).closed = true ∨
      (r.Clear ∧ (proxyController s r e method path input).consumed = r.announced) :=
  proxyController_safe.2 h

theorem proxySafe_of {method : Method} {path : String} (h : r.closes = true ∨ Bodiless r) :
    ProxySafe s r method path := h.imp id Or.inl

theorem serveStatic_safe {headOnly : Bool} :
    Safe (fun r e input => serveStatic s r e headOnly input) r ↔ StaticSafe s r headOnly := by
  have hunfold : Safe (fun r e input => serveStatic s r e headOnly input) r ↔ ∀ e input,
      (serveStatic s r e headOnly input).closed = true ∨
        (r.Clear ∧ (serveStatic s r e headOnly input).consumed = r.announced) := Iff.rfl
  rw [hunfold, StaticSafe]
  unfold serveStatic
  by_cases hhost : validHost s r = true
  swap
  · simp only [hhost, not_false_eq_true, if_true, false_and, or_false, Bool.false_eq_true]
    exact ⟨fun h => keeps_idle.1 (h smooth []), fun h e input => keeps_respond h⟩
  simp only [hhost, not_true_eq_false, if_false, true_and]
  cases hpath : parsedPath s r .get with
  | none => exact iff_of_true (fun e input => Or.inl rfl) (Or.inr (Or.inr (Or.inl rfl)))
  | some target =>
    cases target with
    | none =>
      simp only [reduceCtorEq, Option.some.injEq, false_and, exists_false, or_false]
      exact ⟨fun h => keeps_idle.1 (h smooth []), fun h e input => keeps_respond h⟩
    | some path =>
      simp only [Option.some.injEq, reduceCtorEq, false_or, exists_eq_left']
      by_cases hapi : isApiPath path = true
      · simp only [hapi, if_true, true_and]
        cases headOnly with
        | true =>
          simp only [if_true, reduceCtorEq, false_and, or_false]
          exact ⟨fun h => keeps_idle.1 (h smooth []), fun h e input => keeps_respond h⟩
        | false =>
          simp only [Bool.false_eq_true, if_false, true_and]
          refine ⟨fun h => Or.inr (Or.inr (proxyController_safe.1 h)), fun h => ?_⟩
          rcases h with hcloses | hbodiless | hproxy
          · exact safe_of_proxy (proxySafe_of (Or.inl hcloses))
          · exact safe_of_proxy (proxySafe_of (Or.inr hbodiless))
          · exact safe_of_proxy hproxy
      · simp only [hapi, if_false, false_and, or_false, Bool.false_eq_true]
        exact ⟨fun h => keeps_idle.1 (h smooth []), fun h e input => keeps_relay h⟩

theorem serveMutation_safe {method : Method} :
    Safe (fun r e input => serveMutation s r e method input) r ↔ ConsoleMutationSafe s r method := by
  have hunfold : Safe (fun r e input => serveMutation s r e method input) r ↔ ∀ e input,
      (serveMutation s r e method input).closed = true ∨
        (r.Clear ∧ (serveMutation s r e method input).consumed = r.announced) := Iff.rfl
  rw [hunfold, ConsoleMutationSafe]
  unfold serveMutation
  by_cases hhost : validHost s r = true
  swap
  · simp only [hhost, not_false_eq_true, if_true, false_and, or_false, Bool.false_eq_true]
    exact ⟨fun h => keeps_idle.1 (h smooth []), fun h e input => keeps_respond h⟩
  simp only [hhost, not_true_eq_false, if_false, true_and]
  cases hpath : parsedPath s r method with
  | none => exact iff_of_true (fun e input => Or.inl rfl) (Or.inr (Or.inr (Or.inl rfl)))
  | some target =>
    cases target with
    | none =>
      simp only [reduceCtorEq, Option.some.injEq, false_and, exists_false, or_false]
      exact ⟨fun h => keeps_idle.1 (h smooth []), fun h e input => keeps_respond h⟩
    | some path =>
      simp only [Option.some.injEq, reduceCtorEq, false_or, exists_eq_left']
      by_cases hapi : isApiPath path = true
      · simp only [hapi, if_true, true_imp_iff]
        refine ⟨fun h => Or.inr (Or.inr (proxyController_safe.1 h)), fun h => ?_⟩
        rcases h with hcloses | hbodiless | hproxy
        · exact safe_of_proxy (proxySafe_of (Or.inl hcloses))
        · exact safe_of_proxy (proxySafe_of (Or.inr hbodiless))
        · exact safe_of_proxy hproxy
      · simp only [hapi, if_false, Bool.false_eq_true, false_imp_iff, or_true, iff_true]
        exact fun e input => Or.inl (respond_close r e 0)

/-- A request to the Console is safe. -/
def ConsoleSafe (s : ConsoleSite) (r : Request) : Prop :=
  match r.method with
  | .get => StaticSafe s r false
  | .head => StaticSafe s r true
  | .post => ConsoleMutationSafe s r .post
  | .patch => ConsoleMutationSafe s r .patch
  | .options | .other => True

theorem consoleHandle_safe : Safe (consoleHandle s) r ↔ ConsoleSafe s r := by
  have hunfold : Safe (consoleHandle s) r ↔ ∀ e input,
      (consoleHandle s r e input).closed = true ∨
        (r.Clear ∧ (consoleHandle s r e input).consumed = r.announced) := Iff.rfl
  unfold ConsoleSafe
  rw [hunfold]
  unfold consoleHandle
  cases r.method with
  | get => exact serveStatic_safe
  | head => exact serveStatic_safe
  | post => exact serveMutation_safe
  | patch => exact serveMutation_safe
  | options => exact iff_of_true (fun e input => Or.inl (respond_close r e 0)) trivial
  | other => exact iff_of_true (fun e input => Or.inl (respond_close r e 0)) trivial

/-! ### Whole connections -/

/-- The messages of a connection are answered in step: the requests answered are the first ones that were
    sent, and every answer has read the body that its request announces, or closed the connection. -/
def InStep (parse : List UInt8 → Option (Request × List UInt8))
    (handle : Request → Exchange → List UInt8 → Fate) (ms : List (wire parse).Message) : Prop :=
  ∀ es, (((wire parse).serve handle es (Wire.stream ms)).map Prod.fst <+: ms.map Wire.Message.request) ∧
    ∀ x ∈ (wire parse).serve handle es (Wire.stream ms),
      x.2.closed = true ∨ (x.1.Clear ∧ x.2.consumed = x.1.announced)

theorem inStep_of_safe {handle : Request → Exchange → List UInt8 → Fate} (hend : parse [] = none)
    {ms : List (wire parse).Message} (h : ∀ m ∈ ms, Safe handle m.request) : InStep parse handle ms :=
  fun es => Wire.serve_prefix handle hend h es

/-- A request keeps either server in step, whatever comes of it, if and only if it is safe; and safe
    requests on one connection are answered in step. -/
theorem framing_kept (c : ControllerSite) (s : ConsoleSite)
    (parse : List UInt8 → Option (Request × List UInt8)) (hend : parse [] = none) :
    (∀ r, (Safe (controllerHandle c) r ↔ ControllerSafe c r) ∧ (Safe (consoleHandle s) r ↔ ConsoleSafe s r)) ∧
      ∀ ms : List (wire parse).Message,
        ((∀ m ∈ ms, ControllerSafe c m.request) → InStep parse (controllerHandle c) ms) ∧
          ((∀ m ∈ ms, ConsoleSafe s m.request) → InStep parse (consoleHandle s) ms) := by
  refine ⟨fun r => ⟨controllerHandle_safe, consoleHandle_safe⟩, fun ms => ⟨fun h => ?_, fun h => ?_⟩⟩
  · exact inStep_of_safe hend fun m hm => controllerHandle_safe.2 (h m hm)
  · exact inStep_of_safe hend fun m hm => consoleHandle_safe.2 (h m hm)

/-! ### A request inside a body -/

def sampleController : ControllerSite where
  port := 8790
  consoleOrigin := "http://127.0.0.1:8780"
  split := fun target => some ⟨target, "", ""⟩

def sampleConsole : ConsoleSite where
  host := "127.0.0.1"
  port := 8780
  split := fun target => some ⟨target, "", ""⟩

def plainRequest : Request where
  method := .get
  target := "/"
  headers := [("host", "localhost")]
  closes := false

def misdirectedRequest : Request where
  method := .get
  target := "/"
  headers := [("content-length", "35"), ("host", "elsewhere")]
  closes := false

def bytesOf (text : String) : List UInt8 := text.toList.map fun ch => UInt8.ofNat ch.toNat

def plainHead : List UInt8 := bytesOf "GET / HTTP/1.1\r\nHost: localhost\r\n\r\n"

def misdirectedHead : List UInt8 :=
  bytesOf "GET / HTTP/1.1\r\nContent-Length: 35\r\nHost: elsewhere\r\n\r\n"

/-- What the parser does with two heads. -/
def sampleParse (input : List UInt8) : Option (Request × List UInt8) :=
  if plainHead.isPrefixOf input then some (plainRequest, input.drop plainHead.length)
  else if misdirectedHead.isPrefixOf input then
    some (misdirectedRequest, input.drop misdirectedHead.length)
  else none

def plainMessage : (wire sampleParse).Message where
  head := plainHead
  request := plainRequest
  body := []
  parses := fun _ => rfl
  framed := fun _ => rfl

/-- The body of this message reads like another request. -/
def nestedMessage : (wire sampleParse).Message where
  head := misdirectedHead
  request := misdirectedRequest
  body := plainHead
  parses := fun _ => rfl
  framed := fun _ => by decide +kernel

theorem plain_bodiless : Bodiless plainRequest := by
  have hencodings : plainRequest.encodings = [] := by decide +kernel
  refine ⟨⟨fun v hv => ?_, Or.inl (by decide +kernel)⟩, by decide +kernel⟩
  rw [hencodings] at hv
  cases hv

theorem plain_in_step : InStep sampleParse (controllerHandle sampleController) [plainMessage] ∧
    InStep sampleParse (consoleHandle sampleConsole) [plainMessage] := by
  have hkept := (framing_kept sampleController sampleConsole sampleParse rfl).2 [plainMessage]
  refine ⟨hkept.1 fun m hm => ?_, hkept.2 fun m hm => ?_⟩
  · obtain rfl := List.mem_singleton.1 hm
    exact Or.inr (Or.inr (Or.inl plain_bodiless))
  · obtain rfl := List.mem_singleton.1 hm
    exact Or.inr (Or.inl plain_bodiless)

/-- Both servers refuse the host, and then answer the body. -/
theorem body_answered : ¬InStep sampleParse (controllerHandle sampleController) [nestedMessage] ∧
    ¬InStep sampleParse (consoleHandle sampleConsole) [nestedMessage] := by
  refine ⟨fun h => ?_, fun h => ?_⟩
  · have hle := (h [smooth, smooth]).1.length_le
    revert hle
    decide +kernel
  · have hle := (h [smooth, smooth]).1.length_le
    revert hle
    decide +kernel

end HermesOps.Http
