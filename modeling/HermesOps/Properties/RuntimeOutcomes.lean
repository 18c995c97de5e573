import HermesOps.Properties.RuntimeExecution

/-! How an execution ends. Without its handlers the method is a straight course, and the first failure is the
    exception that this course ends with. What is done behind it always comes to an end, and its failures are
    reported beside the first one, or in the place of a result. -/

namespace HermesOps.AgentRuntime

open Schemes Schemes.Program

variable {s : HermesSite} {r : RuntimeRequest}

/-! ### What always finishes -/

theorem finishes_poll : Finishes poll := by
  refine Finishes.bind (finishes_consult _) fun known => ?_
  split
  · exact finishes_pure _
  · exact finishes_call (I := hermes) .poll

theorem finishes_wait (timeout : Nat) : Finishes (wait timeout) := by
  refine Finishes.bind (finishes_consult _) fun known => ?_
  split
  · exact finishes_pure _
  · exact finishes_call (I := hermes) (.wait timeout)

theorem finishes_raiseFirst (errors : List Exn) : Finishes (raiseFirst errors) := by
  cases errors with
  | nil => exact finishes_pure ()
  | cons e errors => exact finishes_raise e

theorem finishes_signal (signal : Signal) (errors : List Exn) : Finishes (AgentRuntime.signal signal errors) := by
  refine Finishes.bind (finishes_call (I := hermes) (.kill signal)).reify fun sent => ?_
  rcases sent with e | _
  · cases e <;> first | exact finishes_pure _ | exact finishes_raise _
  · exact finishes_pure _

theorem finishes_terminate : Finishes terminate := by
  refine Finishes.bind finishes_poll.reify fun polled => ?_
  split
  · exact finishes_pure ()
  · refine Finishes.bind (finishes_signal _ _) fun errors => ?_
    refine Finishes.bind (Finishes.bind (finishes_wait 10) fun _ => finishes_raiseFirst errors).reify fun waited => ?_
    split
    · exact finishes_pure ()
    · refine Finishes.bind (finishes_signal _ _) fun errors => ?_
      exact Finishes.bind (finishes_wait 10).reify fun waited => finishes_raiseFirst _

theorem finishes_readOutput : Finishes readOutput :=
  Finishes.bind (finishes_call (I := hermes) .readOutput) fun _ => finishes_update _

theorem finishes_remove (id : String) : Finishes (removeOuterContainer s id r.requestId) := by
  refine Finishes.bind ?_ fun found => ?_
  · exact Finishes.bind (finishes_call (I := hermes) (.inspect id)) fun _ => finishes_lift _
  · cases found with
    | none => exact finishes_pure ()
    | some container =>
      refine Finishes.bind (finishes_lift _) fun verified => ?_
      exact Finishes.bind (finishes_call (I := hermes) (.remove verified)) fun _ => finishes_raiseIf _ _

theorem finishes_removeProfile (path : String) : Finishes (removeProfile path) := by
  refine Finishes.bind (finishes_call (I := hermes) (.removeProfile path)).reify fun removed => ?_
  split
  · exact finishes_pure ()
  · exact finishes_pure ()
  · exact finishes_raise _

theorem ends_salvage : Ends salvage := by
  refine Ends.bind ends_read fun locals => ?_
  refine Ends.bind (Ends.whenever ?_ _) fun _ => ?_
  · exact Ends.bind finishes_terminate.reify_ends fun _ => ends_update _
  · exact Ends.bind finishes_readOutput.reify_ends fun _ => ends_update _

theorem ends_phase {α : Type} {action : α → Step Unit} (h : ∀ a, Finishes (action a)) (subject : Option α) :
    Ends (phase action subject) := by
  cases subject with
  | none => exact ends_pure []
  | some subject => exact Ends.bind (h subject).reify_ends fun _ => ends_pure _

theorem ends_cleanup : Ends (cleanup s r) := by
  refine Ends.bind ends_read fun locals => ?_
  refine Ends.bind (ends_phase (fun _ => finishes_terminate) _) fun terminated => ?_
  refine Ends.bind (ends_phase finishes_remove _) fun removed => ?_
  exact Ends.bind (ends_phase finishes_removeProfile _) fun deleted => ends_pure _

/-! ### The straight course -/

variable (s r)

/-- The execution without its handlers and its cleanup. -/
def straight (rounds : Nat) : Step RuntimeResult := do
  let start ← setUp s r
  supervise s r rounds start
  readOutput
  judge r

/-- What is done behind the straight course, and the exceptions of it: behind an exception of the inner block,
    the process is terminated and the transcript read, and always the cleanup follows. -/
def aftermath (handled : Bool) : Step (List Exn) := do
  whenever handled salvage
  let locals ← read
  let errors ← cleanup s r
  return locals.executionCleanupErrors ++ errors

/-- What an execution reports: the first failure and behind it the names of the later ones, or the failures of
    the cleanup, or the result. -/
def report (output : String) (errors : List Exn) : Ending Exn RuntimeResult → Ending Exn RuntimeResult
  | .done result => if errors = [] then .done result else .raised (.runtime (cleanupFailed errors output))
  | .raised e =>
    .raised (.runtime { normalizeError r output e with secondaryErrors := errors.map Exn.typeName })
  | .unfinished => .unfinished

variable {s r}

/-- With its handlers the outer block ends as the straight course does; the handler of the inner block has run
    where an exception came out of it. -/
theorem attempt_run (env : Environment hermes Exn) (w : Scene hermes Exn Locals) (rounds : Nat) :
    ∃ handled, (handled = true → ∃ e, ((straight s r rounds).run env w).1 = .raised e) ∧
      (attempt s r rounds).run env w =
        (((straight s r rounds).run env w).1, if handled then (salvage.run env ((straight s r rounds).run env w).2).2
          else ((straight s r rounds).run env w).2) := by
  unfold attempt straight
  rcases hsetUp : (setUp s r).run env w with ⟨start | e | _, w₁⟩
  · rw [run_bind_done hsetUp, run_bind_done hsetUp]
    rcases hsupervise : (supervise s r rounds start).run env w₁ with ⟨_ | e | _, w₂⟩
    · rw [run_bind_done (run_reify_done hsupervise), run_bind_done hsupervise]
      exact ⟨false, nofun, rfl⟩
    · rw [run_bind_done (run_reify_raised hsupervise), run_bind_raised hsupervise]
      obtain ⟨_, w₃, hsalvage⟩ := ends_salvage env w₂
      refine ⟨true, fun _ => ⟨e, rfl⟩, ?_⟩
      rw [run_bind_done hsalvage, if_pos rfl, hsalvage, run_raise]
    · rw [run_bind_unfinished (run_reify_unfinished hsupervise), run_bind_unfinished hsupervise]
      exact ⟨false, nofun, rfl⟩
  · rw [run_bind_raised hsetUp, run_bind_raised hsetUp]
    exact ⟨false, nofun, rfl⟩
  · rw [run_bind_unfinished hsetUp, run_bind_unfinished hsetUp]
    exact ⟨false, nofun, rfl⟩

theorem keeps_straight (rounds : Nat) : Keeps (Inv s r) (straight s r rounds) := by
  refine Keeps.bind keeps_setUp fun start => ?_
  refine Keeps.bind (keeps_supervise rounds start) fun _ => ?_
  exact Keeps.bind keeps_readOutput fun _ => keeps_judge

theorem conclude_run (locals : Locals) (errors : List Exn) (result : Except Exn RuntimeResult)
    (env : Environment hermes Exn) (w : Scene hermes Exn Locals) :
    (conclude r locals errors result).run env w = (report r locals.output errors (.ofExcept result), w) := by
  cases result with
  | error e => rfl
  | ok result => cases errors <;> rfl

/-- Behind a straight course that ends, the aftermath runs to its end, and the execution reports both. -/
theorem execute_run {env : Environment hermes Exn} {w : Scene hermes Exn Locals} {rounds : Nat} (hw : Inv s r w)
    (hends : ((straight s r rounds).run env w).1 ≠ .unfinished) :
    ∃ handled errors w', (handled = true → ∃ e, ((straight s r rounds).run env w).1 = .raised e) ∧
      (aftermath s r handled).run env ((straight s r rounds).run env w).2 = (.done errors, w') ∧ Inv s r w' ∧
      (execute s r rounds).run env w =
        (report r (transcript w'.history) errors ((straight s r rounds).run env w).1, w') := by
  obtain ⟨handled, hhandled, hattempt⟩ := attempt_run (s := s) (r := r) env w rounds
  have hstraight := keeps_straight (s := s) (r := r) rounds env w hw
  generalize (straight s r rounds).run env w = y at *
  obtain ⟨ending, w₁⟩ := y
  obtain ⟨w₂, hw₂, hsalvage⟩ : ∃ w₂, Inv s r w₂ ∧ (whenever handled salvage).run env w₁ = (.done (), w₂) := by
    obtain ⟨_, w₂, hrun⟩ := ends_salvage.whenever handled env w₁
    have hkeeps := (keeps_salvage (s := s) (r := r)).whenever handled env w₁ hstraight
    rw [hrun] at hkeeps
    exact ⟨w₂, hkeeps, hrun⟩
  have hmid : (attempt s r rounds).run env w = (ending, w₂) := by
    cases handled with
    | true =>
      have hrun : salvage.run env w₁ = (.done (), w₂) := hsalvage
      rw [hattempt, if_pos rfl, hrun]
    | false =>
      obtain rfl : w₁ = w₂ := congrArg Prod.snd hsalvage
      exact hattempt
  obtain ⟨errors, w', hcleanup⟩ := ends_cleanup (s := s) (r := r) env w₂
  have hkeeps := keeps_cleanup (s := s) (r := r) w₂.locals env w₂ ⟨hw₂, rfl⟩
  rw [hcleanup] at hkeeps
  obtain ⟨hw', hlocals⟩ := hkeeps
  refine ⟨handled, w₂.locals.executionCleanupErrors ++ errors, w', hhandled, ?_, hw', ?_⟩
  · rw [aftermath, run_bind_done hsalvage, run_bind_done run_read, run_bind_done hcleanup, run_pure]
  · obtain ⟨result, hreify, hresult⟩ : ∃ result : Except Exn RuntimeResult,
        (reify (attempt s r rounds)).run env w = (.done result, w₂) ∧ .ofExcept result = ending := by
      cases ending with
      | done result => exact ⟨.ok result, run_reify_done hmid, rfl⟩
      | raised e => exact ⟨.error e, run_reify_raised hmid, rfl⟩
      | unfinished => exact absurd rfl hends
    rw [execute, run_bind_done hreify, run_bind_done run_read, run_bind_done hcleanup, conclude_run, hresult,
      ← hw'.output, hlocals]

/-! ### The result -/

theorem returncode_readOutput (history : List Event) (answer : Except Exn String) :
    returncode (history ++ [⟨.readOutput, answer⟩]) = returncode history := by
  rw [returncode_append]
  rfl

/-- A status that is known stays the status of the process. -/
theorem returncode_stays {history more : List Event} {status : Int} (hlaw : Lawful (backed s r) (history ++ more))
    (hcode : returncode history = some status) : returncode (history ++ more) = some status := by
  induction more generalizing history with
  | nil => rwa [List.append_nil]
  | cons x more ih =>
    have hcons : history ++ x :: more = (history ++ [x]) ++ more := by
      rw [List.append_assoc, List.singleton_append]
    have hback := hlaw history x more rfl
    have hnone : exitOf x = none := by
      unfold exitOf
      split
      · exact absurd hback (by rw [backed, hcode]; exact nofun)
      · exact absurd hback (by rw [backed, hcode]; exact nofun)
      · rfl
    rw [hcons] at hlaw ⊢
    refine ih hlaw ?_
    rw [returncode_append, hnone]
    exact hcode

theorem poll_known {env : Environment hermes Exn} {w w' : Scene hermes Exn Locals} {exited : Option Int}
    (h : poll.run env w = (.done exited, w')) : returncode w'.history = exited := by
  rw [poll, run_bind_done (run_consult _)] at h
  cases hcode : returncode w.history with
  | some status =>
    rw [hcode] at h
    obtain ⟨hdone, rfl⟩ := Prod.mk.inj h
    rw [hcode]
    exact Ending.done.inj hdone
  | none =>
    rw [hcode] at h
    cases hanswer : env w.history .poll with
    | ok status =>
      obtain ⟨hdone, rfl⟩ := Prod.mk.inj ((run_call_ok hanswer).symm.trans h)
      rw [returncode_append, hcode, Option.or_none]
      exact Ending.done.inj hdone
    | error e => cases (run_call_error hanswer).symm.trans h

theorem wait_known {env : Environment hermes Exn} {w w' : Scene hermes Exn Locals} {timeout : Nat} {status : Int}
    (h : (wait timeout).run env w = (.done status, w')) : returncode w'.history = some status := by
  rw [wait, run_bind_done (run_consult _)] at h
  cases hcode : returncode w.history with
  | some known =>
    rw [hcode] at h
    obtain ⟨hdone, rfl⟩ := Prod.mk.inj h
    rw [hcode]
    exact congrArg some (Ending.done.inj hdone)
  | none =>
    rw [hcode] at h
    cases hanswer : env w.history (.wait timeout) with
    | ok known =>
      obtain ⟨hdone, rfl⟩ := Prod.mk.inj ((run_call_ok hanswer).symm.trans h)
      rw [returncode_append, hcode, Option.or_none]
      exact congrArg some (Ending.done.inj hdone)
    | error e => cases (run_call_error hanswer).symm.trans h

/-- What has to be known where a program ends with a value. -/
def Known {α : Type} (ending : Ending Exn α) (w : Scene hermes Exn Locals) : Prop :=
  match ending with
  | .done _ => returncode w.history ≠ none
  | _ => True

/-- The inner block is left without an exception only when the process has ended. -/
theorem settle_known (found : Bool) : Meets (fun _ => True) (settle s r found) Known := by
  have htrue : ∀ {α : Type} (x : Step α), Keeps (fun _ => True) x := fun _ _ _ _ => trivial
  refine Keeps.bind_meets (htrue _) (fun _ => ?_) (fun _ _ _ => trivial) fun _ _ => trivial
  refine Meets.bind (fun exited w => returncode w.history = exited) ?_ fun exited => ?_
  · intro env w _
    rcases hrun : poll.run env w with ⟨exited | e | _, w'⟩
    · exact poll_known hrun
    · trivial
    · trivial
  · cases exited with
    | some status =>
      intro env w hcode
      have hknown : returncode w.history ≠ none := by
        rw [hcode]
        exact nofun
      exact hknown
    | none =>
      intro env w _
      have hwait : ((wait 30 >>= fun _ => pure ()) : Step Unit).run env w =
          (whenever (none : Option Int).isNone (wait 30 >>= fun _ => pure ())).run env w := rfl
      rw [← hwait]
      rcases hrun : (wait 30).run env w with ⟨status | e | _, w'⟩
      · rw [run_bind_done hrun]
        have hknown : returncode w'.history ≠ none := by
          rw [wait_known hrun]
          exact nofun
        exact hknown
      · rw [run_bind_raised hrun]
        trivial
      · rw [run_bind_unfinished hrun]
        trivial

theorem supervise_known (rounds : Nat) (start : Rat) : Meets (fun _ => True) (supervise s r rounds start) Known := by
  have htrue : ∀ {α : Type} (x : Step α), Keeps (fun _ => True) x := fun _ _ _ _ => trivial
  refine Keeps.bind_meets (htrue _) (fun _ => ?_) (fun _ _ _ => trivial) fun _ _ => trivial
  refine Keeps.bind_meets (htrue _) (fun _ => ?_) (fun _ _ _ => trivial) fun _ _ => trivial
  refine Keeps.bind_meets (htrue _) (fun _ => ?_) (fun _ _ _ => trivial) fun _ _ => trivial
  refine Keeps.bind_meets (htrue _) (fun _ => ?_) (fun _ _ _ => trivial) fun _ _ => trivial
  refine Keeps.bind_meets (htrue _) (fun _ => ?_) (fun _ _ _ => trivial) fun _ _ => trivial
  exact Keeps.bind_meets (htrue _) settle_known (fun _ _ _ => trivial) fun _ _ => trivial

theorem judge_done {env : Environment hermes Exn} {w w' : Scene hermes Exn Locals} {result : RuntimeResult}
    (hknown : returncode w.history ≠ none) (h : (judge r).run env w = (.done result, w')) :
    w' = w ∧ returncode w.history = some 0 ∧ result.output = w.locals.output ∧
      markerFound result.output r.completionMarker = true := by
  obtain ⟨status, hstatus⟩ := Option.ne_none_iff_exists'.1 hknown
  obtain ⟨locals, w₁, hread, h⟩ := bind_done h
  obtain ⟨hlocals, rfl⟩ := Prod.mk.inj hread
  obtain rfl := Ending.done.inj hlocals
  obtain ⟨code, w₂, hrecall, h⟩ := bind_done h
  obtain ⟨hcode, rfl⟩ := Prod.mk.inj hrecall
  obtain rfl := Ending.done.inj hcode
  obtain ⟨_, w₃, hexit, h⟩ := bind_done h
  obtain ⟨hzero, rfl⟩ := raiseIf_done hexit
  obtain ⟨_, w₄, hmarker, h⟩ := bind_done h
  obtain ⟨hfound, rfl⟩ := raiseIf_done hmarker
  obtain ⟨hresult, rfl⟩ := Prod.mk.inj h
  obtain rfl := Ending.done.inj hresult
  refine ⟨rfl, ?_, rfl, by rwa [Bool.not_eq_false'] at hfound⟩
  rw [hstatus] at hzero ⊢
  exact congrArg some (not_not.mp (of_decide_eq_false hzero))

/-- A result is read off the transcript of a process that has ended well. -/
theorem straight_done {env : Environment hermes Exn} {w w' : Scene hermes Exn Locals} {rounds : Nat}
    {result : RuntimeResult} (hw : Inv s r w) (h : (straight s r rounds).run env w = (.done result, w')) :
    returncode w'.history = some 0 ∧ result.output = transcript w'.history ∧
      markerFound result.output r.completionMarker = true := by
  have hinv := keeps_straight (s := s) (r := r) rounds env w hw
  rw [h] at hinv
  obtain ⟨start, w₁, -, h⟩ := bind_done h
  obtain ⟨_, w₂, hsupervise, h⟩ := bind_done h
  obtain ⟨_, w₃, hread, hjudge⟩ := bind_done h
  have hknown : returncode w₂.history ≠ none := by
    have hmeets := supervise_known (s := s) (r := r) rounds start env w₁ trivial
    rwa [hsupervise] at hmeets
  have hstill : returncode w₃.history ≠ none := by
    have hkeeps : Keeps (fun w => returncode w.history ≠ none) readOutput := by
      refine Keeps.bind (keeps_call fun w answer hcode => ?_) fun _ => keeps_update fun _ hcode => hcode
      rwa [returncode_readOutput]
    have hafter := hkeeps env w₂ hknown
    rwa [hread] at hafter
  obtain ⟨rfl, hzero, houtput, hmarker⟩ := judge_done hstill hjudge
  exact ⟨hzero, houtput.trans hinv.output, hmarker⟩

/-! ### The container -/

/-- Docker has said that there is no such container, or has removed it. -/
def Gone (id : String) (history : List Event) : Prop :=
  (∃ left, ⟨.inspect id, .ok left⟩ ∈ history ∧ inspected left = .ok none) ∨
    ∃ left, ⟨.remove id, .ok left⟩ ∈ history ∧ (left.succeeded = true ∨ left.noSuchContainer = true)

theorem Gone.mono {id : String} {h h' : List Event} (hgone : Gone id h) (hsub : h <+: h') : Gone id h' := by
  rcases hgone with ⟨left, hmem, hleft⟩ | ⟨left, hmem, hleft⟩
  · exact .inl ⟨left, hsub.subset hmem, hleft⟩
  · exact .inr ⟨left, hsub.subset hmem, hleft⟩

/-- A removal that raises nothing leaves no container behind. -/
theorem remove_gone {env : Environment hermes Exn} {w w' : Scene hermes Exn Locals} {id : String} {a : Unit}
    (h : (removeOuterContainer s id r.requestId).run env w = (.done a, w')) : Gone id w'.history := by
  obtain ⟨found, w₁, hinspect, h⟩ := bind_done h
  have htrue : Stable s r fun _ => True := fun _ _ _ _ _ _ => trivial
  have hfound := inspect_found htrue id env w trivial
  rw [hinspect] at hfound
  obtain ⟨before, left, hhistory, hleft⟩ := hfound.2 found rfl
  cases found with
  | none =>
    obtain rfl : w₁ = w' := congrArg Prod.snd h
    exact .inl ⟨left, by rw [hhistory]; exact List.mem_append_right _ List.mem_cons_self, hleft⟩
  | some container =>
    obtain ⟨verified, w₂, howned, h⟩ := bind_done h
    cases hown : ownedOuterContainerId s container r.requestId (some id) with
    | error e =>
      rw [hown] at howned
      exact absurd (congrArg Prod.fst howned) nofun
    | ok known =>
      rw [hown] at howned
      obtain rfl : known = verified := Ending.done.inj (congrArg Prod.fst howned)
      obtain rfl := owned_eq hown
      obtain rfl : w₁ = w₂ := congrArg Prod.snd howned
      obtain ⟨left, w₃, hremove, h⟩ := bind_done h
      cases hanswer : env w₁.history (.remove known) with
      | error e => exact absurd (congrArg Prod.fst ((run_call_error hanswer).symm.trans hremove)) nofun
      | ok done =>
        obtain ⟨hdone, rfl⟩ := Prod.mk.inj ((run_call_ok hanswer).symm.trans hremove)
        obtain rfl : done = left := Ending.done.inj hdone
        have hmem : ⟨.remove known, .ok done⟩ ∈ w₁.history ++ [⟨.remove known, .ok done⟩] :=
          List.mem_append_right _ List.mem_cons_self
        obtain ⟨hreported, rfl⟩ := raiseIf_done h
        refine .inr ⟨done, hmem, ?_⟩
        rw [Bool.and_eq_false_iff, Bool.not_eq_false', Bool.not_eq_false'] at hreported
        exact hreported

/-- A recorded container is gone, or its removal has failed among the later failures. -/
def Disposed (s : HermesSite) (r : RuntimeRequest) (env : Environment hermes Exn) (id : String) (errors : List Exn)
    (history : List Event) : Prop :=
  Gone id history ∨
    ∃ e ∈ errors, ∃ w w', (removeOuterContainer s id r.requestId).run env w = (.raised e, w')

theorem cleanup_disposes {env : Environment hermes Exn} {w w' : Scene hermes Exn Locals} {errors : List Exn}
    {id : String} (hid : w.locals.executionContainerId = some id)
    (h : (cleanup s r).run env w = (.done errors, w')) : Disposed s r env id errors w'.history := by
  obtain ⟨locals, w₁, hread, h⟩ := bind_done h
  obtain ⟨hlocals, rfl⟩ := Prod.mk.inj hread
  obtain rfl := Ending.done.inj hlocals
  obtain ⟨terminated, w₂, -, h⟩ := bind_done h
  obtain ⟨removed, w₃, hremoved, h⟩ := bind_done h
  obtain ⟨deleted, w₄, hdeleted, h⟩ := bind_done h
  obtain ⟨herrors, rfl⟩ := Prod.mk.inj h
  obtain rfl := Ending.done.inj herrors
  have hafter : w₃.history <+: w₄.history := by
    have hextends := (phase removeProfile w.locals.profileDirectory).extends_history env w₃
    rwa [hdeleted] at hextends
  rw [hid] at hremoved
  obtain ⟨result, w₅, hreify, hnoted⟩ := bind_done hremoved
  obtain ⟨hcaught, rfl⟩ := Prod.mk.inj hnoted
  obtain rfl := Ending.done.inj hcaught
  rcases hrun : (removeOuterContainer s id r.requestId).run env w₂ with ⟨a | e | _, w₆⟩
  · rw [run_reify_done hrun] at hreify
    obtain ⟨-, rfl⟩ := Prod.mk.inj hreify
    exact .inl ((remove_gone hrun).mono hafter)
  · rw [run_reify_raised hrun] at hreify
    obtain ⟨hresult, rfl⟩ := Prod.mk.inj hreify
    obtain rfl := Ending.done.inj hresult
    refine .inr ⟨e, ?_, w₂, w₆, hrun⟩
    exact List.mem_append_left _ (List.mem_append_right _ List.mem_cons_self)
  · rw [run_reify_unfinished hrun] at hreify
    exact absurd (congrArg Prod.fst hreify) nofun

/-- The identity, once it is recorded, is not touched any more. -/
theorem undisturbed_identity (identity : Option String) :
    Undisturbed s r fun w => w.locals.executionContainerId = identity := by
  refine ⟨fun _ _ _ h _ _ => h, ?_, fun kind => ?_⟩
  · exact Keeps.bind (keeps_call fun _ _ h => h) fun _ => keeps_update fun _ h => h
  · refine Keeps.bind keeps_read fun locals => ?_
    split
    · exact keeps_raise _
    · split
      · exact keeps_raise _
      · refine Keeps.bind (keeps_update fun _ h => h) fun _ => ?_
        unfold deliver
        split
        · refine Keeps.bind (keeps_call (I := hermes) (c := .sink kind) fun _ _ h => h).reify fun sent => ?_
          split
          · exact keeps_pure ()
          · exact keeps_raise _
        · exact keeps_pure ()

theorem salvage_identity (s : HermesSite) (r : RuntimeRequest) (identity : Option String) :
    Keeps (fun w => w.locals.executionContainerId = identity) salvage := by
  have h := undisturbed_identity (s := s) (r := r) identity
  refine Keeps.bind keeps_read fun locals => Keeps.bind (Keeps.whenever ?_ _) fun _ => ?_
  · exact Keeps.bind (keeps_terminate h.stable).reify fun _ => keeps_update fun _ h => h
  · exact Keeps.bind h.output.reify fun _ => keeps_update fun _ h => h

theorem aftermath_disposes {env : Environment hermes Exn} {w w' : Scene hermes Exn Locals} {handled : Bool}
    {errors : List Exn} {id : String} (hid : w.locals.executionContainerId = some id)
    (h : (aftermath s r handled).run env w = (.done errors, w')) : Disposed s r env id errors w'.history := by
  obtain ⟨_, w₁, hsalvage, h⟩ := bind_done h
  obtain ⟨locals, w₂, hread, h⟩ := bind_done h
  obtain ⟨-, rfl⟩ := Prod.mk.inj hread
  obtain ⟨cleaned, w₃, hcleanup, h⟩ := bind_done h
  obtain ⟨herrors, rfl⟩ := Prod.mk.inj h
  obtain rfl := Ending.done.inj herrors
  have hkept : w₁.locals.executionContainerId = some id := by
    have hkeeps := (salvage_identity s r (some id)).whenever handled env w hid
    rwa [hsalvage] at hkeeps
  rcases cleanup_disposes hkept hcleanup with hgone | ⟨e, he, hraised⟩
  · exact .inl hgone
  · exact .inr ⟨e, List.mem_append_right _ he, hraised⟩

/-! ### A container whose identity is not recorded -/

/-- The calls that do nothing to the process or to a container. -/
def IsHarmless : Call → Prop
  | .kill _ | .stop _ | .remove _ => False
  | _ => True

def Untouched (history : List Event) : Prop := ∀ x ∈ history, IsHarmless x.call

/-- The process had ended before anything was done to it. -/
def ExitedItself (history : List Event) : Prop :=
  ∃ before, before <+: history ∧ returncode before ≠ none ∧ Untouched before

theorem ExitedItself.mono {h h' : List Event} (hexited : ExitedItself h) (hsub : h <+: h') : ExitedItself h' := by
  obtain ⟨before, hbefore, hcode, hhead⟩ := hexited
  exact ⟨before, hbefore.trans hsub, hcode, hhead⟩

theorem keeps_untouched_call {c : Call} (h : IsHarmless c) :
    Keeps (fun w => Untouched w.history) (call (I := hermes) c : Step (Answer c)) := by
  refine keeps_call fun w answer hw x hx => ?_
  rcases List.mem_append.1 hx with hx | hx
  · exact hw x hx
  · rwa [List.mem_singleton.1 hx]

/-- No process yet, and nothing done to one. -/
def Unlaunched (w : Scene hermes Exn Locals) : Prop := Untouched w.history ∧ w.locals.launched = false

theorem keeps_unlaunched_call {c : Call} (h : IsHarmless c) : Keeps Unlaunched (call (I := hermes) c) :=
  (keeps_untouched_call h).and (keeps_call fun _ _ hw => hw)

theorem keeps_unlaunched_setUp : Keeps Unlaunched (setUp s r) := by
  refine Keeps.bind ?_ fun _ => ?_
  · exact Keeps.bind (keeps_unlaunched_call (c := .entryIsFile _) trivial) fun _ => keeps_raiseIf _ _
  refine Keeps.bind ?_ fun _ => ?_
  · unfold prepare
    split
    · refine Keeps.bind (keeps_unlaunched_call (c := .profileExists _) trivial) fun present => ?_
      refine Keeps.bind (Keeps.whenever (keeps_update fun _ hw => hw) _) fun _ => ?_
      refine Keeps.bind ?_ fun prepared => keeps_update fun _ hw => hw
      refine Keeps.bind (keeps_unlaunched_call (c := .profileIsDir _) trivial) fun present => ?_
      refine Keeps.bind (keeps_raiseIf _ _) fun _ => ?_
      refine Keeps.bind (keeps_unlaunched_call (c := .profileExists _) trivial) fun taken => ?_
      refine Keeps.bind (keeps_raiseIf _ _) fun _ => ?_
      refine Keeps.bind (keeps_unlaunched_call (c := .makeProfile _) trivial) fun _ => ?_
      refine Keeps.bind (keeps_unlaunched_call (c := .fillProfile _ _) trivial).reify fun filled => ?_
      split
      · exact keeps_pure _
      · exact Keeps.bind (keeps_unlaunched_call (c := .discardProfile _) trivial) fun _ => keeps_raise _
    · exact keeps_pure ()
  refine Keeps.bind (keeps_unlaunched_call (c := .monotonic) trivial) fun start => ?_
  exact Keeps.bind (keeps_unlaunched_call (c := .openTranscript) trivial) fun _ => keeps_pure start

theorem keeps_untouched_poll : Keeps (fun w => Untouched w.history) poll := by
  refine Keeps.bind (keeps_consult _) fun known => ?_
  split
  · exact keeps_pure _
  · exact keeps_untouched_call (c := .poll) trivial

/-- The capture gives up quietly only when the process has ended by itself. -/
theorem capture_none {env : Environment hermes Exn} {rounds : Nat} {w w' : Scene hermes Exn Locals}
    (hw : Untouched w.history)
    (h : (captureOuterContainerId s r.requestId rounds).run env w = (.done none, w')) :
    ExitedItself w'.history := by
  induction rounds generalizing w with
  | zero => exact absurd (congrArg Prod.fst h) nofun
  | succ rounds ih =>
    obtain ⟨exited, w₁, hpoll, h⟩ := bind_done h
    have hw₁ := keeps_untouched_poll env w hw
    rw [hpoll] at hw₁
    cases exited with
    | some status =>
      obtain rfl : w₁ = w' := congrArg Prod.snd h
      refine ⟨w₁.history, List.prefix_refl _, ?_, hw₁⟩
      rw [poll_known hpoll]
      exact nofun
    | none =>
      obtain ⟨found, w₂, hinspect, h⟩ := bind_done h
      have hkeeps : Keeps (fun w => Untouched w.history) (inspectOuterContainer r.requestId) :=
        Keeps.bind (keeps_untouched_call (c := .inspect _) trivial) fun _ => keeps_lift _
      have hw₂ := hkeeps env w₁ hw₁
      rw [hinspect] at hw₂
      cases found with
      | some container =>
        obtain ⟨id, w₃, -, h⟩ := bind_done h
        exact absurd (congrArg Prod.fst h) nofun
      | none =>
        obtain ⟨_, w₃, hsleep, h⟩ := bind_done h
        have hw₃ := keeps_untouched_call (c := .sleep) trivial env w₂ hw₂
        rw [hsleep] at hw₃
        exact ih hw₃ h

/-- A container is left without an identity only where no process was launched, where it has ended by itself,
    or where the identity could not be captured, which is then the first failure. -/
def Unidentified (s : HermesSite) (r : RuntimeRequest) (env : Environment hermes Exn) {α : Type}
    (ending : Ending Exn α) (w : Scene hermes Exn Locals) : Prop :=
  w.locals.launched = false ∨ ExitedItself w.history ∨
    ∃ e w₀ w₁, ending = .raised e ∧ (captureOuterContainerId s r.requestId 40).run env w₀ = (.raised e, w₁)

theorem supervise_unidentified {env : Environment hermes Exn} {w w' : Scene hermes Exn Locals} {rounds : Nat}
    {start : Rat} {ending : Ending Exn Unit} (hw : Unlaunched w) (hends : ending ≠ .unfinished)
    (h : (supervise s r rounds start).run env w = (ending, w')) (hid : w'.locals.executionContainerId = none) :
    Unidentified s r env ending w' := by
  rw [supervise] at h
  cases hlaunch : env w.history .launch with
  | error e =>
    rw [run_bind_raised (run_call_error hlaunch)] at h
    obtain ⟨-, rfl⟩ := Prod.mk.inj h
    exact .inl hw.2
  | ok _ =>
    have hw₁ := keeps_untouched_call (c := .launch) trivial env w hw.1
    rw [run_call_ok hlaunch] at hw₁
    rw [run_bind_done (run_call_ok hlaunch), run_bind_done (run_update _)] at h
    rcases hcapture : (captureOuterContainerId s r.requestId 40).run env
        ⟨{ w.locals with launched := true }, w.history ++ [⟨.launch, .ok ()⟩]⟩ with ⟨identity | e | _, w₂⟩
    · rw [run_bind_done hcapture, run_bind_done (run_update _)] at h
      cases identity with
      | none =>
        have hexited := capture_none (w := ⟨{ w.locals with launched := true }, _⟩) hw₁ hcapture
        have hextends := Program.extends_history (emit r .started >>= fun _ => pollRounds r start rounds 0 >>=
          fun found => settle s r found) env ⟨{ w₂.locals with executionContainerId := none }, w₂.history⟩
        have hlast := congrArg (fun x => x.2.history) h
        exact .inr (.inl (hexited.mono (hlast ▸ hextends)))
      | some id =>
        have hrest : Keeps (fun w => w.locals.executionContainerId = some id)
            (emit r .started >>= fun _ => pollRounds r start rounds 0 >>= fun found => settle s r found) := by
          have hidentity := undisturbed_identity (s := s) (r := r) (some id)
          refine Keeps.bind (keeps_emit hidentity .started) fun _ => ?_
          exact Keeps.bind (keeps_pollRounds hidentity start rounds 0) fun found => keeps_settle hidentity found
        have hkept := hrest env ⟨{ w₂.locals with executionContainerId := some id }, w₂.history⟩ rfl
        have hlast := congrArg (fun x => x.2.locals.executionContainerId) h
        rw [hid] at hlast
        exact absurd (hkept.symm.trans hlast) nofun
    · rw [run_bind_raised hcapture] at h
      obtain ⟨rfl, rfl⟩ := Prod.mk.inj h
      exact .inr (.inr ⟨e, _, _, rfl, hcapture⟩)
    · rw [run_bind_unfinished hcapture] at h
      exact absurd (congrArg Prod.fst h).symm hends

theorem straight_unidentified {env : Environment hermes Exn} {w w' : Scene hermes Exn Locals} {rounds : Nat}
    {ending : Ending Exn RuntimeResult} (hw : Unlaunched w) (hends : ending ≠ .unfinished)
    (h : (straight s r rounds).run env w = (ending, w')) (hid : w'.locals.executionContainerId = none) :
    Unidentified s r env ending w' := by
  rw [straight] at h
  have hsetUpKeeps := keeps_unlaunched_setUp (s := s) (r := r) env w hw
  rcases hsetUp : (setUp s r).run env w with ⟨start | e | _, w₁⟩
  · rw [hsetUp] at hsetUpKeeps
    rw [run_bind_done hsetUp] at h
    rcases hsupervise : (supervise s r rounds start).run env w₁ with ⟨_ | e | _, w₂⟩
    · rw [run_bind_done hsupervise] at h
      -- the transcript and the judgement change neither the identity nor what is known of the process
      have hrest : Keeps (fun w => w.locals.executionContainerId = w₂.locals.executionContainerId ∧
          (w.locals.launched = w₂.locals.launched ∧ w₂.history <+: w.history)) (readOutput >>= fun _ => judge r) := by
        refine Keeps.bind ?_ fun _ => keeps_judge
        refine Keeps.bind (keeps_call fun w answer hw => ?_) fun _ => keeps_update fun _ hw => hw
        exact ⟨hw.1, hw.2.1, hw.2.2.trans (List.prefix_append _ _)⟩
      obtain ⟨hidentity, hlaunched, hhistory⟩ := hrest env w₂ ⟨rfl, rfl, List.prefix_refl _⟩
      rw [h] at hidentity hlaunched hhistory
      have hlost : Unidentified s r env (.done _) w₂ :=
        supervise_unidentified hsetUpKeeps nofun hsupervise (hidentity.symm.trans hid)
      rcases hlost with hnone | hexited | ⟨e, _, _, hraised, -⟩
      · exact .inl (hlaunched.trans hnone)
      · exact .inr (.inl (hexited.mono hhistory))
      · exact absurd hraised nofun
    · rw [run_bind_raised hsupervise] at h
      obtain ⟨rfl, rfl⟩ := Prod.mk.inj h
      have hlost : Unidentified s r env (.raised e) w₂ := supervise_unidentified hsetUpKeeps nofun hsupervise hid
      rcases hlost with hnone | hexited | ⟨e', w₀, w₃, hraised, hcapture⟩
      · exact .inl hnone
      · exact .inr (.inl hexited)
      · obtain rfl := Ending.raised.inj hraised
        exact .inr (.inr ⟨e, w₀, w₃, rfl, hcapture⟩)
    · rw [run_bind_unfinished hsupervise] at h
      exact absurd (congrArg Prod.fst h).symm hends
  · rw [hsetUp] at hsetUpKeeps
    rw [run_bind_raised hsetUp] at h
    obtain ⟨-, rfl⟩ := Prod.mk.inj h
    exact .inl hsetUpKeeps.2
  · rw [run_bind_unfinished hsetUp] at h
    exact absurd (congrArg Prod.fst h).symm hends

/-! ### More rounds -/

theorem agrees_pollRounds (start : Rat) (rounds more : Nat) (lastHeartbeat : Rat) :
    Agrees (pollRounds r start rounds lastHeartbeat) (pollRounds r start (rounds + more) lastHeartbeat) := by
  induction rounds generalizing lastHeartbeat with
  | zero => exact agrees_giveUp _
  | succ rounds ih =>
    rw [Nat.succ_add]
    refine Agrees.bind (agrees_refl _) fun now => Agrees.bind (agrees_refl _) fun _ => ?_
    refine Agrees.bind (agrees_refl _) fun _ => Agrees.bind (agrees_refl _) fun _ => ?_
    refine Agrees.bind (agrees_refl _) fun locals => Agrees.bind (agrees_refl _) fun exited => ?_
    split
    · exact agrees_refl _
    · split
      · exact agrees_refl _
      · exact Agrees.bind (agrees_refl _) fun _ => ih _

theorem agrees_supervise (start : Rat) (rounds more : Nat) :
    Agrees (supervise s r rounds start) (supervise s r (rounds + more) start) := by
  refine Agrees.bind (agrees_refl _) fun _ => Agrees.bind (agrees_refl _) fun _ => ?_
  refine Agrees.bind (agrees_refl _) fun identity => Agrees.bind (agrees_refl _) fun _ => ?_
  refine Agrees.bind (agrees_refl _) fun _ => ?_
  exact Agrees.bind (agrees_pollRounds start rounds more 0) fun found => agrees_refl _

/-- An execution that ends does not depend on the number of rounds that it might have had. -/
theorem agrees_execute (rounds more : Nat) : Agrees (execute s r rounds) (execute s r (rounds + more)) := by
  refine Agrees.bind (Agrees.reify ?_) fun attempted => agrees_refl _
  refine Agrees.bind (agrees_refl _) fun start => ?_
  exact Agrees.bind (agrees_supervise start rounds more).reify fun supervised => agrees_refl _

/-! ### The contract -/

/-- What an execution that ends promises. `first` is how the straight course has ended, `last` how the
    execution has. -/
structure Contract (s : HermesSite) (r : RuntimeRequest) (env : Environment hermes Exn)
    (first last : Ending Exn RuntimeResult × Scene hermes Exn Locals) : Prop where
  /-- What came later is reported beside the first failure, and a recorded container is disposed of. -/
  reported : ∃ handled errors, (handled = true → ∃ e, first.1 = .raised e) ∧
    (aftermath s r handled).run env first.2 = (.done errors, last.2) ∧
    last.1 = report r (transcript last.2.history) errors first.1 ∧
    ∀ id, last.2.locals.executionContainerId = some id → Disposed s r env id errors last.2.history
  /-- A result means that the process has ended well, the marker was found, and nothing failed behind it. -/
  returned : ∀ result, last.1 = .done result →
    returncode last.2.history = some 0 ∧ result.output = transcript last.2.history ∧
      markerFound result.output r.completionMarker = true ∧
      (aftermath s r false).run env first.2 = (.done [], last.2)
  unidentified : last.2.locals.executionContainerId = none → Unidentified s r env first.1 first.2

theorem inv_executed (env : Environment hermes Exn) (rounds : Nat) : Inv s r (executed s r env rounds).2 := by
  have hkeeps : Keeps (Inv s r) (execute s r rounds) := by
    refine Keeps.bind (keeps_attempt rounds).reify fun attempted => Keeps.bind keeps_read fun locals => ?_
    refine Keeps.bind ?_ fun errors => ?_
    · exact fun env w hw => (keeps_cleanup w.locals env w ⟨hw, rfl⟩).1
    · intro env w hw
      rw [conclude_run]
      exact hw
  exact hkeeps env _ inv_start

theorem executed_unfinished {env : Environment hermes Exn} {rounds : Nat}
    (h : ((straight s r rounds).run env ⟨{}, []⟩).1 = .unfinished) :
    (executed s r env rounds).1 = .unfinished := by
  obtain ⟨handled, hhandled, hattempt⟩ := attempt_run (s := s) (r := r) env ⟨{}, []⟩ rounds
  rw [h] at hattempt
  rw [executed, execute, run_bind_unfinished (run_reify_unfinished hattempt)]

theorem report_done {output : String} {errors : List Exn} {ending : Ending Exn RuntimeResult} {result : RuntimeResult}
    (h : report r output errors ending = .done result) : ending = .done result ∧ errors = [] := by
  cases ending with
  | done found =>
    rw [report] at h
    split at h
    · rename_i hnil
      exact ⟨h, hnil⟩
    · exact absurd h nofun
  | raised e => exact absurd h nofun
  | unfinished => exact absurd h nofun

theorem keeps_aftermath_identity (identity : Option String) (handled : Bool) :
    Keeps (fun w => w.locals.executionContainerId = identity) (aftermath s r handled) := by
  have hstable := (undisturbed_identity (s := s) (r := r) identity).stable
  have hremoved : ∀ path, Keeps (fun w => w.locals.executionContainerId = identity) (removeProfile path) := by
    intro path
    refine Keeps.bind (keeps_call (I := hermes) (c := .removeProfile path) fun _ _ h => h).reify fun removed => ?_
    split
    · exact keeps_pure ()
    · exact keeps_pure ()
    · exact keeps_raise _
  have hphase : ∀ {α : Type} {action : α → Step Unit} (subject : Option α),
      (∀ a, Keeps (fun w => w.locals.executionContainerId = identity) (action a)) →
      Keeps (fun w => w.locals.executionContainerId = identity) (phase action subject) := by
    intro α action subject haction
    cases subject with
    | none => exact keeps_pure []
    | some subject => exact Keeps.bind (haction subject).reify fun _ => keeps_pure _
  refine Keeps.bind ((salvage_identity s r identity).whenever handled) fun _ => Keeps.bind keeps_read fun locals => ?_
  refine Keeps.bind (Keeps.bind keeps_read fun locals => ?_) fun errors => keeps_pure _
  refine Keeps.bind (hphase _ fun _ => keeps_terminate hstable) fun terminated => ?_
  refine Keeps.bind (hphase _ fun id => keeps_remove hstable id) fun removed => ?_
  exact Keeps.bind (hphase _ hremoved) fun deleted => keeps_pure _

/-- Without the handler of the inner block, the local variables stay what they are. -/
theorem aftermath_locals {env : Environment hermes Exn} {w w' : Scene hermes Exn Locals} {errors : List Exn}
    (hw : Inv s r w) (h : (aftermath s r false).run env w = (.done errors, w')) : w'.locals = w.locals := by
  obtain ⟨_, w₁, hnothing, h⟩ := bind_done h
  obtain rfl : w = w₁ := congrArg Prod.snd hnothing
  obtain ⟨locals, w₂, hread, h⟩ := bind_done h
  obtain rfl : w = w₂ := congrArg Prod.snd hread
  obtain ⟨cleaned, w₃, hcleanup, h⟩ := bind_done h
  obtain rfl : w₃ = w' := congrArg Prod.snd h
  have hkept := keeps_cleanup (s := s) (r := r) w.locals env w ⟨hw, rfl⟩
  rw [hcleanup] at hkept
  exact hkept.2

theorem executed_contract {env : Environment hermes Exn} {rounds : Nat}
    (hends : ((straight s r rounds).run env ⟨{}, []⟩).1 ≠ .unfinished) :
    Contract s r env ((straight s r rounds).run env ⟨{}, []⟩) (executed s r env rounds) := by
  obtain ⟨handled, errors, w', hhandled, haftermath, hw', hrun⟩ := execute_run (s := s) (r := r) inv_start hends
  have hkept : ∀ identity, ((straight s r rounds).run env ⟨{}, []⟩).2.locals.executionContainerId = identity →
      w'.locals.executionContainerId = identity := by
    intro identity hidentity
    have hkeeps := keeps_aftermath_identity (s := s) (r := r) identity handled env _ hidentity
    rwa [haftermath] at hkeeps
  rw [executed, hrun]
  rcases hstraight : (straight s r rounds).run env ⟨{}, []⟩ with ⟨ending, w₁⟩
  rw [hstraight] at hhandled haftermath hkept hends
  refine ⟨⟨handled, errors, hhandled, haftermath, rfl, ?_⟩, ?_, ?_⟩
  · intro id hid
    refine aftermath_disposes ?_ haftermath
    rw [← hid]
    exact (hkept _ rfl).symm
  · intro result hresult
    obtain ⟨rfl, rfl⟩ := report_done hresult
    have hfalse : handled = false := by
      cases handled with
      | false => rfl
      | true =>
        obtain ⟨e, he⟩ := hhandled rfl
        exact absurd he nofun
    subst hfalse
    obtain ⟨hcode, houtput, hmarker⟩ := straight_done inv_start hstraight
    have hw₁ := keeps_straight (s := s) (r := r) rounds env _ inv_start
    rw [hstraight] at hw₁
    have hlater : w₁.history <+: w'.history := by
      have hextends := (aftermath s r false).extends_history env w₁
      rwa [haftermath] at hextends
    obtain ⟨more, hmore⟩ := hlater
    refine ⟨?_, ?_, hmarker, haftermath⟩
    · rw [← hmore]
      exact returncode_stays (hmore ▸ hw'.lawful) hcode
    · rw [houtput, ← hw₁.output, ← aftermath_locals hw₁ haftermath]
      exact hw'.output
  · intro hid
    refine straight_unidentified ⟨fun _ hx => absurd hx List.not_mem_nil, rfl⟩ hends hstraight ?_
    rw [← hid]
    exact (hkept _ rfl).symm

/-- Runs and their ends: more rounds change nothing, the sink hears one start and then heartbeats, containers and
    directories are touched only where they belong to the execution, and what ends keeps the contract. -/
theorem execute_contract (s : HermesSite) (r : RuntimeRequest) (env : Environment hermes Exn) (rounds : Nat) :
    (delivered (executed s r env rounds).2.history = [] ∨
        ∃ n, delivered (executed s r env rounds).2.history = .started :: List.replicate n .heartbeat) ∧
      Lawful (backed s r) (executed s r env rounds).2.history ∧
      ((executed s r env rounds).1 ≠ .unfinished →
        Contract s r env ((straight s r rounds).run env ⟨{}, []⟩) (executed s r env rounds) ∧
          ∀ more, executed s r env (rounds + more) = executed s r env rounds) := by
  have hinv := inv_executed (s := s) (r := r) env rounds
  refine ⟨?_, hinv.lawful, fun hends => ⟨?_, fun more => ?_⟩⟩
  · have hheard := hinv.heard
    unfold Heard at hheard
    split at hheard
    · exact .inr hheard
    · exact .inl hheard
  · exact executed_contract fun hunfinished => hends (executed_unfinished hunfinished)
  · exact agrees_execute rounds more env _ hends

/-! ### A cleanup that fails -/

def sampleId : String := String.ofList (List.replicate 64 'a')

def sampleSite : HermesSite := ⟨"/opt/planner", "/opt/worker", "/profiles", fun _ => ""⟩

def sampleRequest : RuntimeRequest where
  role := .worker
  runtimeConfigId := "default"
  requestId := "r1"
  timeoutSeconds := 60
  completionMarker := "DONE"
  onEvent := false
  marker_nonempty := by decide

def sampleContainer : Controller.Json :=
  .obj [("Id", .str sampleId), ("Name", .str "/r1"), ("Config", .obj [("Labels", .obj
    [("hermesops-runtime-container", .str "1"), ("hermesops-runtime-request-id", .str "r1")])])]

def hasRead (history : List Event) : Bool := history.any fun x => x.call = .readOutput

/-- Everything succeeds, and once the transcript has been read the process has ended; then Docker cannot be
    called any more, and the profile cannot be removed. -/
def failingCleanup (fails : Bool) : Environment hermes Exn := fun history c =>
  match c with
  | .entryIsFile _ | .profileIsDir _ => .ok true
  | .profileExists _ => .ok false
  | .monotonic => .ok 0
  | .poll => .ok (if hasRead history then some 0 else none)
  | .wait _ => .ok 0
  | .inspect _ =>
    if fails ∧ hasRead history then .error (.os "BlockingIOError" none)
    else .ok ⟨true, false, some (.arr [sampleContainer])⟩
  | .stop _ | .remove _ => .ok ⟨true, false⟩
  | .eventClock => .ok .utc
  | .readOutput => .ok "DONE"
  | .removeProfile path => if fails then .error (.os "PermissionError" (some path)) else .ok ()
  | .makeProfile _ | .fillProfile _ _ | .discardProfile _ | .openTranscript | .launch | .kill _ | .sleep
  | .sink _ => .ok ()

/-- A run that returns, of one round. -/
theorem sampleRequest_contract :
    (executed sampleSite sampleRequest (failingCleanup false) 1).1 = .done ⟨"DONE"⟩ ∧
      Contract sampleSite sampleRequest (failingCleanup false)
        ((straight sampleSite sampleRequest 1).run (failingCleanup false) ⟨{}, []⟩)
        (executed sampleSite sampleRequest (failingCleanup false) 1) := by
  have hdone : (executed sampleSite sampleRequest (failingCleanup false) 1).1 = .done ⟨"DONE"⟩ := by decide +kernel
  refine ⟨hdone, ((execute_contract sampleSite sampleRequest (failingCleanup false) 1).2.2 ?_).1⟩
  rw [hdone]
  exact nofun

/-- When only the cleanup fails, and twice, neither failure is reported as a first one with the other behind it. -/
theorem cleanup_failures_merged : ¬∀ (s : HermesSite) (r : RuntimeRequest) (env : Environment hermes Exn)
    (rounds : Nat) (result : RuntimeResult) (e : Exn) (rest : List Exn),
    ((straight s r rounds).run env ⟨{}, []⟩).1 = .done result →
    ((aftermath s r false).run env ((straight s r rounds).run env ⟨{}, []⟩).2).1 = .done (e :: rest) →
    (executed s r env rounds).1 =
      .raised (.runtime { normalizeError r (transcript (executed s r env rounds).2.history) e with
        secondaryErrors := rest.map Exn.typeName }) := by
  intro h
  have hclaimed := h sampleSite sampleRequest (failingCleanup true) 1 ⟨"DONE"⟩ (.os "BlockingIOError" none)
    [.os "PermissionError" (some "/profiles/r1")] (by decide +kernel) (by decide +kernel)
  exact absurd hclaimed (by decide +kernel)

end HermesOps.AgentRuntime
