import HermesOps.AgentRuntime.Hermes

/-! What `execute` promises, whatever its surroundings answer. One invariant holds wherever the method stands: the
    variable `output` is the transcript that was read last, the sink has heard one start and then heartbeats,
    and every stop and every removal is backed by what happened before it. -/

namespace HermesOps.AgentRuntime

open Schemes Schemes.Program

/-! ### What a history says -/

def readOf (x : Event) : Option String :=
  match x with
  | ⟨.readOutput, .ok text⟩ => some text
  | _ => none

/-- The transcript that was read last. -/
def transcript (history : List Event) : String := (history.reverse.findSome? readOf).getD ""

def sinkOf (x : Event) : Option RuntimeEventKind :=
  match x.call with
  | .sink kind => some kind
  | _ => none

/-- The events that the sink was called with. -/
def delivered (history : List Event) : List RuntimeEventKind := history.filterMap sinkOf

theorem transcript_append (history : List Event) (x : Event) :
    transcript (history ++ [x]) = (readOf x).getD (transcript history) := by
  rw [transcript, List.reverse_append, List.reverse_singleton, List.singleton_append, List.findSome?_cons]
  cases readOf x with
  | none => rfl
  | some text => rfl

theorem delivered_append (history : List Event) (x : Event) :
    delivered (history ++ [x]) = delivered history ++ (sinkOf x).toList := by
  rw [delivered, List.filterMap_append, List.filterMap_cons, List.filterMap_nil]
  cases sinkOf x <;> rfl

theorem returncode_append (history : List Event) (x : Event) :
    returncode (history ++ [x]) = (exitOf x).or (returncode history) := by
  rw [returncode, List.reverse_append, List.reverse_singleton, List.singleton_append, List.findSome?_cons]
  cases exitOf x with
  | none => rfl
  | some status => rfl

/-- Nothing was found at a path, or the directory there was made since. -/
def Vacant (path : String) (history : List Event) : Prop :=
  ⟨.profileExists path, .ok false⟩ ∈ history ∨ ⟨.makeProfile path, .ok ()⟩ ∈ history

theorem Vacant.mono {path : String} {h h' : List Event} (hv : Vacant path h) (hsub : h <+: h') : Vacant path h' :=
  hv.imp (fun hx => hsub.subset hx) fun hx => hsub.subset hx

/-- The container has just been inspected, and belongs to the execution under this identity. -/
def Owned (s : HermesSite) (executionName id : String) (history : List Event) : Prop :=
  ∃ before left container, history = before ++ [⟨.inspect id, .ok left⟩] ∧
    inspected left = .ok (some container) ∧ ownedOuterContainerId s container executionName (some id) = .ok id

/-- What must have happened before a call. -/
def backed (s : HermesSite) (r : RuntimeRequest) (history : List Event) : Call → Prop
  | .poll | .wait _ => returncode history = none
  | .stop id | .remove id => Owned s r.requestId id history
  | .removeProfile path | .discardProfile path => Vacant path history
  | _ => True

/-- The events that a dispatcher in this state has handed to the sink. -/
def Heard (r : RuntimeRequest) (started : Bool) (events : List RuntimeEventKind) : Prop :=
  if started ∧ r.onEvent then ∃ n, events = .started :: List.replicate n .heartbeat else events = []

/-! ### The invariant -/

structure Inv (s : HermesSite) (r : RuntimeRequest) (w : Scene hermes Exn Locals) : Prop where
  output : w.locals.output = transcript w.history
  heard : Heard r w.locals.started (delivered w.history)
  lawful : Lawful (backed s r) w.history
  profile : ∀ path, w.locals.profileDirectory = some path → Vacant path w.history

/-- The calls of which the invariant does not speak. -/
def IsQuiet : Call → Prop
  | .sink _ | .readOutput => False
  | _ => True

/-- The calls that need nothing before them. -/
def IsPlain : Call → Prop
  | .poll | .wait _ | .stop _ | .remove _ | .removeProfile _ | .discardProfile _ => False
  | _ => True

/-- An invariant that quiet calls keep where they are backed. -/
def Stable (s : HermesSite) (r : RuntimeRequest) (inv : Scene hermes Exn Locals → Prop) : Prop :=
  ∀ w c answer, inv w → backed s r w.history c → IsQuiet c → inv ⟨w.locals, w.history ++ [⟨c, answer⟩]⟩

variable {s : HermesSite} {r : RuntimeRequest} {w : Scene hermes Exn Locals} {c : Call}

theorem inv_start : Inv s r ⟨{}, []⟩ := by
  refine ⟨rfl, ?_, lawful_nil, ?_⟩
  · exact (if_neg (by simp)).mpr rfl
  · rintro path ⟨⟩

/-! ### Calls -/

theorem keeps_raiseFirst {inv : Scene hermes Exn Locals → Prop} (errors : List Exn) :
    Keeps inv (raiseFirst errors) := by
  cases errors with
  | nil => exact keeps_pure ()
  | cons e errors => exact keeps_raise e

/-- An identity that is expected is the one that is verified. -/
theorem owned_eq {container : List (String × Controller.Json)} {name id verified : String}
    (h : ownedOuterContainerId s container name (some id) = .ok verified) : verified = id := by
  unfold ownedOuterContainerId at h
  split at h
  · split at h
    · dsimp only at h
      split at h
      · exact absurd h nofun
      · split at h
        · exact absurd h nofun
        · rename_i hexpected
          obtain rfl := Except.ok.inj h
          by_contra hne
          exact hexpected (decide_eq_true fun h => hne h.symm)
    · exact absurd h nofun
  · exact absurd h nofun

/-- What an inspection leaves behind. -/
def Found (reference : String) (found : Option (List (String × Controller.Json))) (history : List Event) : Prop :=
  ∃ before left, history = before ++ [⟨.inspect reference, .ok left⟩] ∧ inspected left = .ok found

/-- A call that is backed keeps the invariant, if it is neither of the sink nor of the transcript. -/
theorem stable_inv : Stable s r (Inv s r) := by
  intro w c answer h hbacked hquiet
  have hnoRead : readOf ⟨c, answer⟩ = none := by
    unfold readOf
    split
    · rename_i heq
      obtain rfl : c = .readOutput := congrArg Happening.call heq
      exact absurd hquiet id
    · rfl
  have hnoSink : sinkOf ⟨c, answer⟩ = none := by
    unfold sinkOf
    split
    · rename_i kind heq
      obtain rfl : c = .sink kind := heq
      exact absurd hquiet id
    · rfl
  refine ⟨?_, ?_, h.lawful.append_one hbacked, ?_⟩
  · rw [transcript_append, hnoRead]
    exact h.output
  · rw [delivered_append, hnoSink]
    simpa using h.heard
  · intro path hpath
    exact (h.profile path hpath).mono (List.prefix_append _ _)

/-- The local variables are not touched by a call. -/
theorem stable_locals (l : Locals) : Stable s r fun w => w.locals = l := fun _ _ _ h _ _ => h

theorem Stable.and {inv other : Scene hermes Exn Locals → Prop} (hinv : Stable s r inv) (hother : Stable s r other) :
    Stable s r fun w => inv w ∧ other w :=
  fun w c answer h hbacked hquiet => ⟨hinv w c answer h.1 hbacked hquiet, hother w c answer h.2 hbacked hquiet⟩

/-- An update of variables that the invariant does not speak of. -/
theorem keeps_other {f : Locals → Locals}
    (h : ∀ l, (f l).output = l.output ∧ (f l).started = l.started ∧ (f l).profileDirectory = l.profileDirectory) :
    Keeps (Inv s r) (update f) := by
  refine keeps_update fun w hw => ?_
  obtain ⟨houtput, hstarted, hprofile⟩ := h w.locals
  exact ⟨houtput.trans hw.output, hstarted ▸ hw.heard, hw.lawful, hprofile ▸ hw.profile⟩

section Stable

variable {inv : Scene hermes Exn Locals → Prop} (hinv : Stable s r inv)

include hinv

/-- A quiet call that is backed where it is made. -/
theorem meets_call {c : Call} (hquiet : IsQuiet c) :
    Meets (fun w => inv w ∧ backed s r w.history c) (call (I := hermes) c) fun _ w => inv w := by
  rintro env w ⟨hw, hbacked⟩
  have hafter := hinv w c (env w.history c) hw hbacked hquiet
  simp only [call]
  cases hanswer : env w.history c with
  | ok a =>
    rw [hanswer] at hafter
    exact hafter
  | error e =>
    rw [hanswer] at hafter
    exact hafter

theorem keeps_plain {c : Call} (hplain : IsPlain c) (hquiet : IsQuiet c) : Keeps inv (call (I := hermes) c) := by
  have hbacked : ∀ history, backed s r history c := by
    intro history
    cases c <;> first | exact trivial | exact absurd hplain id
  exact fun env w hw => meets_call hinv hquiet env w ⟨hw, hbacked w.history⟩

theorem keeps_poll : Keeps inv poll := by
  intro env w hw
  cases hcode : returncode w.history with
  | some status =>
    have hrun : poll.run env w = (.done (some status), w) := by
      rw [poll, run_bind, run_consult, next, hcode, run_pure]
    rwa [hrun]
  | none =>
    have hrun : poll.run env w = (call (I := hermes) .poll).run env w := by
      rw [poll, run_bind, run_consult, next, hcode]
    rw [hrun]
    exact meets_call hinv (c := .poll) trivial env w ⟨hw, hcode⟩

theorem keeps_wait (timeout : Nat) : Keeps inv (wait timeout) := by
  intro env w hw
  cases hcode : returncode w.history with
  | some status =>
    have hrun : (wait timeout).run env w = (.done status, w) := by
      rw [wait, run_bind, run_consult, next, hcode, run_pure]
    rwa [hrun]
  | none =>
    have hrun : (wait timeout).run env w = (call (I := hermes) (.wait timeout)).run env w := by
      rw [wait, run_bind, run_consult, next, hcode]
    rw [hrun]
    exact meets_call hinv (c := .wait timeout) trivial env w ⟨hw, hcode⟩

/-! ### Termination of the process -/

theorem keeps_signal (signal : Signal) (errors : List Exn) : Keeps inv (AgentRuntime.signal signal errors) := by
  refine Keeps.bind (keeps_plain hinv (c := .kill signal) trivial trivial).reify fun sent => ?_
  rcases sent with e | _
  · cases e <;> first | exact keeps_pure _ | exact keeps_raise _
  · exact keeps_pure _

theorem keeps_terminate : Keeps inv terminate := by
  refine Keeps.bind (keeps_poll hinv).reify fun polled => ?_
  split
  · exact keeps_pure ()
  · refine Keeps.bind (keeps_signal hinv _ _) fun errors => ?_
    refine Keeps.bind (Keeps.bind (keeps_wait hinv 10) fun _ => keeps_raiseFirst errors).reify fun waited => ?_
    split
    · exact keeps_pure ()
    · refine Keeps.bind (keeps_signal hinv _ _) fun errors => ?_
      exact Keeps.bind (keeps_wait hinv 10).reify fun waited => keeps_raiseFirst _

/-! ### Containers -/

theorem keeps_inspect (reference : String) : Keeps inv (inspectOuterContainer reference) :=
  Keeps.bind (keeps_plain hinv (c := .inspect reference) trivial trivial) fun _ => keeps_lift _

theorem keeps_capture (rounds : Nat) : Keeps inv (captureOuterContainerId s r.requestId rounds) := by
  induction rounds with
  | zero => exact keeps_raise _
  | succ rounds ih =>
    refine Keeps.bind (keeps_poll hinv) fun exited => ?_
    split
    · exact keeps_pure none
    · refine Keeps.bind (keeps_inspect hinv _) fun container => ?_
      cases container with
      | none => exact Keeps.bind (keeps_plain hinv (c := .sleep) trivial trivial) fun _ => ih
      | some container => exact Keeps.bind (keeps_lift _) fun _ => keeps_pure _

theorem inspect_found (reference : String) :
    Meets inv (inspectOuterContainer reference) fun ending w =>
      inv w ∧ ∀ found, ending = .done found → Found reference found w.history := by
  intro env w hw
  refine ⟨keeps_inspect hinv reference env w hw, ?_⟩
  rintro found hdone
  unfold inspectOuterContainer at hdone ⊢
  cases hanswer : env w.history (.inspect reference) with
  | error e =>
    rw [run_bind_raised (run_call_error hanswer)] at hdone
    exact absurd hdone (by simp)
  | ok left =>
    rw [run_bind_done (run_call_ok hanswer)] at hdone ⊢
    cases hleft : inspected left with
    | error e =>
      rw [hleft] at hdone
      exact absurd hdone (by simp [lift])
    | ok found =>
      rw [hleft] at hdone
      obtain rfl := Ending.done.inj hdone
      exact ⟨w.history, left, rfl, hleft⟩

/-- A command is run only for a container that the inspection before it has shown to be owned. -/
theorem meets_withOuterContainer {id message : String} {command : String → Step Completed}
    (hcommand : Meets (fun w => inv w ∧ Owned s r.requestId id w.history) (command id) fun _ w => inv w) :
    Meets inv (withOuterContainer s id r.requestId command message) fun _ w => inv w := by
  refine Meets.bind (fun found w => inv w ∧ Found id found w.history) ?_ fun found => ?_
  · refine (inspect_found hinv id).conseq (fun _ h => h) ?_
    rintro (found | e | _) w ⟨hw, hfound⟩
    · exact ⟨hw, hfound found rfl⟩
    · exact hw
    · exact hw
  · cases found with
    | none => exact fun env w hw => hw.1
    | some container =>
      refine Meets.bind (fun verified w => inv w ∧ verified = id ∧ Owned s r.requestId id w.history) ?_
        fun verified => ?_
      · rintro env w ⟨hw, before, left, hhistory, hleft⟩
        cases howned : ownedOuterContainerId s container r.requestId (some id) with
        | error e => exact hw
        | ok verified =>
          have hverified := owned_eq howned
          subst hverified
          exact ⟨hw, rfl, before, left, container, hhistory, hleft, howned⟩
      · refine Meets.bind (fun _ w => inv w) ?_ fun result => (keeps_raiseIf _ _).meets
        rintro env w ⟨hw, rfl, howned⟩
        have hafter := hcommand env w ⟨hw, howned⟩
        generalize (command verified).run env w = y at hafter ⊢
        obtain ⟨_ | _ | _, w'⟩ := y <;> exact hafter

theorem keeps_stop (id : String) : Keeps inv (stopOuterContainer s id r.requestId) :=
  meets_withOuterContainer hinv (meets_call hinv (c := .stop id) trivial)

theorem keeps_remove (id : String) : Keeps inv (removeOuterContainer s id r.requestId) :=
  meets_withOuterContainer hinv (meets_call hinv (c := .remove id) trivial)

end Stable

/-! ### Events and output -/

theorem keeps_readOutput : Keeps (Inv s r) readOutput := by
  intro env w hw
  have hprofile : ∀ answer path, w.locals.profileDirectory = some path →
      Vacant path (w.history ++ [⟨.readOutput, answer⟩]) :=
    fun answer path hpath => (hw.profile path hpath).mono (List.prefix_append _ _)
  have hheard : ∀ answer, delivered (w.history ++ [⟨.readOutput, answer⟩]) = delivered w.history := by
    intro answer
    rw [delivered_append]
    exact List.append_nil _
  unfold readOutput
  cases hanswer : env w.history .readOutput with
  | error e =>
    rw [run_bind_raised (run_call_error hanswer)]
    refine ⟨?_, hheard _ ▸ hw.heard, hw.lawful.append_one trivial, hprofile _⟩
    rw [transcript_append]
    exact hw.output
  | ok text =>
    rw [run_bind_done (run_call_ok hanswer), run_update]
    refine ⟨?_, hheard _ ▸ hw.heard, hw.lawful.append_one trivial, hprofile _⟩
    rw [transcript_append]
    rfl

theorem deliver_scene (kind : RuntimeEventKind) (env : Environment hermes Exn) (w : Scene hermes Exn Locals) :
    ((deliver r kind).run env w).2 =
      if r.onEvent then ⟨w.locals, w.history ++ [⟨.sink kind, env w.history (.sink kind)⟩]⟩ else w := by
  unfold deliver
  split
  · cases hanswer : env w.history (.sink kind) with
    | ok a =>
      rw [run_bind_done (run_reify_done (run_call_ok hanswer))]
      rfl
    | error e =>
      rw [run_bind_done (run_reify_raised (run_call_error hanswer))]
      rfl
  · rfl

/-- The dispatcher lets a start through once, and a heartbeat only behind it. -/
theorem keeps_dispatch (kind : RuntimeEventKind) : Keeps (Inv s r) (dispatch r kind) := by
  intro env w hw
  unfold dispatch
  rw [run_bind_done run_read]
  split
  · exact hw
  · rename_i hstart
    split
    · exact hw
    · rename_i hbeat
      rw [run_bind_done (run_update _), deliver_scene]
      have hheard := hw.heard
      split
      · rename_i hsink
        refine ⟨?_, ?_, hw.lawful.append_one trivial, ?_⟩
        · rw [transcript_append]
          exact hw.output
        · rw [delivered_append]
          refine (if_pos ⟨rfl, hsink⟩).mpr ?_
          cases kind with
          | started =>
            have hnone : delivered w.history = [] := by
              rwa [Heard, if_neg fun hboth => hstart ⟨rfl, hboth.1⟩] at hheard
            exact ⟨0, by rw [hnone]; rfl⟩
          | heartbeat =>
            have hstarted : w.locals.started = true := by
              by_contra hnot
              exact hbeat ⟨rfl, hnot⟩
            rw [Heard, if_pos ⟨hstarted, hsink⟩] at hheard
            obtain ⟨n, hn⟩ := hheard
            exact ⟨n + 1, by rw [hn, List.replicate_succ']; rfl⟩
        · intro path hpath
          exact (hw.profile path hpath).mono (List.prefix_append _ _)
      · rename_i hsink
        refine ⟨hw.output, ?_, hw.lawful, hw.profile⟩
        rw [Heard, if_neg fun hboth => hsink hboth.2] at hheard ⊢
        exact hheard

/-- An invariant that also the reading of the transcript and the events keep. -/
structure Undisturbed (s : HermesSite) (r : RuntimeRequest) (inv : Scene hermes Exn Locals → Prop) : Prop where
  stable : Stable s r inv
  output : Keeps inv readOutput
  event : ∀ kind, Keeps inv (dispatch r kind)

theorem undisturbed_inv : Undisturbed s r (Inv s r) := ⟨stable_inv, keeps_readOutput, keeps_dispatch⟩

section Undisturbed

variable {inv : Scene hermes Exn Locals → Prop} (h : Undisturbed s r inv)

include h

theorem keeps_emit (kind : RuntimeEventKind) : Keeps inv (emit r kind) := by
  refine Keeps.bind (keeps_plain h.stable (c := .eventClock) trivial trivial) fun stamp => ?_
  cases stamp with
  | utc => exact h.event kind
  | otherZone => exact keeps_raise _
  | notDatetime => exact keeps_raise _

/-! ### Supervision -/

theorem keeps_pollRounds (start : Rat) (rounds : Nat) (lastHeartbeat : Rat) :
    Keeps inv (pollRounds r start rounds lastHeartbeat) := by
  induction rounds generalizing lastHeartbeat with
  | zero => exact keeps_giveUp
  | succ rounds ih =>
    refine Keeps.bind (keeps_plain h.stable (c := .monotonic) trivial trivial) fun now => ?_
    refine Keeps.bind (keeps_raiseIf _ _) fun _ => ?_
    refine Keeps.bind ((keeps_emit h .heartbeat).whenever _) fun _ => ?_
    refine Keeps.bind h.output fun _ => ?_
    refine Keeps.bind keeps_read fun locals => ?_
    refine Keeps.bind (keeps_poll h.stable) fun exited => ?_
    split
    · exact keeps_pure _
    · split
      · exact keeps_pure _
      · exact Keeps.bind (keeps_plain h.stable (c := .sleep) trivial trivial) fun _ => ih _

theorem keeps_awaitExit : Keeps inv (awaitExit s r) := by
  refine Keeps.bind (keeps_wait h.stable 20).reify fun waited => ?_
  split
  · exact keeps_pure ()
  · refine Keeps.bind keeps_read fun locals => ?_
    split
    · exact keeps_stop h.stable _
    · exact keeps_pure ()
  · exact keeps_raise _

theorem keeps_settle (found : Bool) : Keeps inv (settle s r found) := by
  refine Keeps.bind (Keeps.whenever ?_ found) fun _ => ?_
  · exact Keeps.bind (keeps_poll h.stable) fun exited => (keeps_awaitExit h).whenever _
  · refine Keeps.bind (keeps_poll h.stable) fun exited => ?_
    exact Keeps.whenever (Keeps.bind (keeps_wait h.stable 30) fun _ => keeps_pure ()) _

end Undisturbed

theorem keeps_supervise (rounds : Nat) (start : Rat) : Keeps (Inv s r) (supervise s r rounds start) := by
  refine Keeps.bind (keeps_plain stable_inv trivial trivial) fun _ => ?_
  refine Keeps.bind (keeps_other fun _ => ⟨rfl, rfl, rfl⟩) fun _ => ?_
  refine Keeps.bind (keeps_capture stable_inv 40) fun containerId => ?_
  refine Keeps.bind (keeps_other fun _ => ⟨rfl, rfl, rfl⟩) fun _ => ?_
  refine Keeps.bind (keeps_emit undisturbed_inv .started) fun _ => ?_
  exact Keeps.bind (keeps_pollRounds undisturbed_inv start rounds 0) fun found => keeps_settle undisturbed_inv found

theorem keeps_salvage : Keeps (Inv s r) salvage := by
  refine Keeps.bind keeps_read fun locals => ?_
  refine Keeps.bind (Keeps.whenever ?_ _) fun _ => ?_
  · exact Keeps.bind (keeps_terminate stable_inv).reify fun terminated => keeps_other fun _ => ⟨rfl, rfl, rfl⟩
  · exact Keeps.bind keeps_readOutput.reify fun reread => keeps_other fun _ => ⟨rfl, rfl, rfl⟩

/-! ### The profile -/

theorem keeps_vacant {α : Type} (path : String) (x : Step α) : Keeps (fun w => Vacant path w.history) x :=
  keeps_past (fun hv hsub => hv.mono hsub) x

/-- A directory is thrown away only behind its creation, and one that is prepared has been created. -/
theorem prepareProfile_meets :
    Meets (Inv s r) (prepareProfile s r) fun ending w =>
      Inv s r w ∧ ∀ path, ending = .done path → Vacant path w.history := by
  have hstop : ∀ {e : Exn} {w}, Inv s r w →
      (Inv s r w ∧ ∀ path, (Ending.raised e : Ending Exn String) = .done path → Vacant path w.history) :=
    fun hw => ⟨hw, nofun⟩
  refine Keeps.bind_meets (keeps_plain stable_inv (c := .profileIsDir _) trivial trivial) (fun present => ?_) (fun _ _ => hstop)
    fun _ hw => ⟨hw, nofun⟩
  refine Keeps.bind_meets (keeps_raiseIf _ _) (fun _ => ?_) (fun _ _ => hstop) fun _ hw => ⟨hw, nofun⟩
  refine Keeps.bind_meets (keeps_plain stable_inv (c := .profileExists _) trivial trivial) (fun taken => ?_) (fun _ _ => hstop)
    fun _ hw => ⟨hw, nofun⟩
  refine Keeps.bind_meets (keeps_raiseIf _ _) (fun _ => ?_) (fun _ _ => hstop) fun _ hw => ⟨hw, nofun⟩
  refine Meets.bind (fun _ w => Inv s r w ∧ Vacant (profilePath s (profileName r)) w.history) ?_ fun _ => ?_
  · intro env w hw
    have hafter := keeps_plain stable_inv (c := .makeProfile (profilePath s (profileName r))) trivial trivial env w hw
    cases hanswer : env w.history (.makeProfile (profilePath s (profileName r))) with
    | error e =>
      rw [run_call_error hanswer] at hafter ⊢
      exact hstop hafter
    | ok a =>
      rw [run_call_ok hanswer] at hafter ⊢
      exact ⟨hafter, .inr (List.mem_append_right _ List.mem_cons_self)⟩
  · have hfill := (keeps_plain (stable_inv (s := s) (r := r)) (c := .fillProfile (profilePath s r.runtimeConfigId)
      (profilePath s (profileName r))) trivial trivial).reify
    refine Keeps.bind_meets (hfill.and (keeps_vacant _ _)) (fun filled => ?_)
      (fun _ _ hw => hstop hw.1) fun _ hw => ⟨hw.1, nofun⟩
    split
    · rintro env w ⟨hw, hvacant⟩
      refine ⟨hw, ?_⟩
      rintro path hpath
      rwa [← Ending.done.inj hpath]
    · refine Meets.bind (fun _ w => Inv s r w) ?_ fun _ env w hw => hstop hw
      rintro env w ⟨hw, hvacant⟩
      have hafter := meets_call stable_inv (c := .discardProfile (profilePath s (profileName r))) trivial env w ⟨hw, hvacant⟩
      generalize (call (I := hermes) (.discardProfile (profilePath s (profileName r)))).run env w = y at hafter ⊢
      obtain ⟨_ | _ | _, w'⟩ := y
      · exact hafter
      · exact hstop hafter
      · exact ⟨hafter, nofun⟩

/-- The path that the cleanup is to remove is noted only where nothing was found. -/
theorem keeps_prepare : Keeps (Inv s r) (prepare s r) := by
  unfold prepare
  split
  · refine Meets.keeps (Meets.bind (fun present w => Inv s r w ∧
      (present = false → Vacant (profilePath s (profileName r)) w.history)) ?_ fun present => ?_)
    · intro env w hw
      have hafter := keeps_plain stable_inv (c := .profileExists (profilePath s (profileName r))) trivial trivial env w hw
      unfold pathExists
      cases hanswer : env w.history (.profileExists (profilePath s (profileName r))) with
      | error e =>
        rw [run_call_error hanswer] at hafter ⊢
        exact hafter
      | ok present =>
        rw [run_call_ok hanswer] at hafter ⊢
        refine ⟨hafter, ?_⟩
        rintro rfl
        exact .inl (List.mem_append_right _ List.mem_cons_self)
    · refine Meets.bind (fun _ w => Inv s r w) ?_ fun _ => ?_
      · rintro env w ⟨hw, hvacant⟩
        cases present with
        | true => exact hw
        | false =>
          refine ⟨hw.output, hw.heard, hw.lawful, ?_⟩
          rintro path hpath
          obtain rfl := Option.some.inj hpath
          exact hvacant rfl
      · refine Meets.bind (fun prepared w => Inv s r w ∧ Vacant prepared w.history) ?_ fun prepared => ?_
        · refine prepareProfile_meets.conseq (fun _ h => h) ?_
          rintro (prepared | e | _) w ⟨hw, hvacant⟩
          · exact ⟨hw, hvacant prepared rfl⟩
          · exact hw
          · exact hw
        · rintro env w ⟨hw, hvacant⟩
          refine ⟨hw.output, hw.heard, hw.lawful, ?_⟩
          rintro path hpath
          rwa [← Option.some.inj hpath]
  · exact keeps_pure ()

/-! ### The whole execution -/

theorem keeps_setUp : Keeps (Inv s r) (setUp s r) := by
  refine Keeps.bind ?_ fun _ => ?_
  · exact Keeps.bind (keeps_plain stable_inv (c := .entryIsFile _) trivial trivial) fun _ => keeps_raiseIf _ _
  refine Keeps.bind keeps_prepare fun _ => ?_
  refine Keeps.bind (keeps_plain stable_inv (c := .monotonic) trivial trivial) fun start => ?_
  exact Keeps.bind (keeps_plain stable_inv (c := .openTranscript) trivial trivial) fun _ => keeps_pure start

theorem keeps_judge {inv : Scene hermes Exn Locals → Prop} : Keeps inv (judge r) := by
  refine Keeps.bind keeps_read fun locals => ?_
  refine Keeps.bind (keeps_consult _) fun status => ?_
  refine Keeps.bind (keeps_raiseIf _ _) fun _ => ?_
  exact Keeps.bind (keeps_raiseIf _ _) fun _ => keeps_pure _

theorem keeps_attempt (rounds : Nat) : Keeps (Inv s r) (attempt s r rounds) := by
  refine Keeps.bind keeps_setUp fun start => ?_
  refine Keeps.bind (keeps_supervise rounds start).reify fun supervised => ?_
  cases supervised with
  | ok _ => exact Keeps.bind keeps_readOutput fun _ => keeps_judge
  | error e => exact Keeps.bind keeps_salvage fun _ => keeps_raise e

/-- The cleanup keeps the invariant and the local variables. -/
theorem keeps_cleanup (l : Locals) : Keeps (fun w => Inv s r w ∧ w.locals = l) (cleanup s r) := by
  have hstable : Stable s r fun w => Inv s r w ∧ w.locals = l := stable_inv.and (stable_locals l)
  refine Meets.keeps (Meets.bind (fun locals w => (Inv s r w ∧ w.locals = l) ∧ locals = l) ?_ fun locals => ?_)
  · exact fun env w hw => ⟨hw, hw.2⟩
  rintro env w ⟨hw, rfl⟩
  suffices hrest : Keeps (fun w => Inv s r w ∧ w.locals = locals) _ from hrest env w hw
  refine Keeps.bind ?_ fun terminated => ?_
  · unfold phase
    split
    · exact Keeps.bind (keeps_terminate hstable).reify fun _ => keeps_pure _
    · exact keeps_pure _
  refine Keeps.bind ?_ fun removed => Keeps.bind ?_ fun deleted => keeps_pure _
  · unfold phase
    split
    · exact Keeps.bind (keeps_remove hstable _).reify fun _ => keeps_pure _
    · exact keeps_pure _
  · unfold phase
    split
    · rename_i path hpath
      refine Keeps.bind (Keeps.reify (Keeps.bind (Keeps.reify ?_) fun removed => ?_)) fun _ => keeps_pure _
      · rintro env w ⟨hw, hlocals⟩
        have hvacant := hw.profile path (by rw [hlocals, hpath])
        exact meets_call hstable (c := .removeProfile path) trivial env w ⟨⟨hw, hlocals⟩, hvacant⟩
      · split
        · exact keeps_pure ()
        · exact keeps_pure ()
        · exact keeps_raise _
    · exact keeps_pure _

end HermesOps.AgentRuntime
