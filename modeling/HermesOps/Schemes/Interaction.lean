import Mathlib.Data.List.Basic

/-! Programs that call an environment and may raise. The environment answers each call with any value or any
    exception, whatever happened before, and what happened is kept as a history. The local variables survive
    an exception. A loop that has used up its rounds leaves the program unfinished, which no handler sees.
    `Finishes` says that a program never runs out of rounds, `Agrees` that more rounds change nothing, `Lawful`
    that each call was allowed where it was made, `Keeps` what holds throughout, and `Meets` what holds where a
    program ends, with one rule for each way of building programs. -/

namespace HermesOps.Schemes

/-- The calls of an environment, and what each of them answers. -/
structure Interface where
  Call : Type
  Answer : Call → Type

/-- A call and what came of it. -/
structure Happening (I : Interface) (ε : Type) where
  call : I.Call
  answer : Except ε (I.Answer call)

abbrev Environment (I : Interface) (ε : Type) :=
  List (Happening I ε) → (call : I.Call) → Except ε (I.Answer call)

inductive Ending (ε α : Type) where
  | done (a : α)
  | raised (e : ε)
  | unfinished
  deriving DecidableEq

/-- The ending that a handler has caught. -/
def Ending.ofExcept {ε α : Type} : Except ε α → Ending ε α
  | .ok a => .done a
  | .error e => .raised e

/-- The local variables, and what has happened. -/
structure Scene (I : Interface) (ε σ : Type) where
  locals : σ
  history : List (Happening I ε)

/-- A program; whatever it does, what has happened stays. -/
structure Program (I : Interface) (ε σ α : Type) where
  run : Environment I ε → Scene I ε σ → Ending ε α × Scene I ε σ
  extends_history : ∀ env w, w.history <+: (run env w).2.history

namespace Program

variable {I : Interface} {ε σ α β : Type}

protected def pure (a : α) : Program I ε σ α := ⟨fun _ w => (.done a, w), fun _ w => List.prefix_refl w.history⟩

def raise (e : ε) : Program I ε σ α := ⟨fun _ w => (.raised e, w), fun _ w => List.prefix_refl w.history⟩

/-- The rounds of a loop are used up. -/
def giveUp : Program I ε σ α := ⟨fun _ w => (.unfinished, w), fun _ w => List.prefix_refl w.history⟩

/-- What follows an ending. -/
def next (f : α → Program I ε σ β) (env : Environment I ε) :
    Ending ε α × Scene I ε σ → Ending ε β × Scene I ε σ
  | (.done a, w) => (f a).run env w
  | (.raised e, w) => (.raised e, w)
  | (.unfinished, w) => (.unfinished, w)

theorem next_extends (f : α → Program I ε σ β) (env : Environment I ε) (x : Ending ε α × Scene I ε σ) :
    x.2.history <+: (next f env x).2.history := by
  obtain ⟨ending, w⟩ := x
  cases ending with
  | done a => exact (f a).extends_history env w
  | raised e => exact List.prefix_refl w.history
  | unfinished => exact List.prefix_refl w.history

protected def bind (x : Program I ε σ α) (f : α → Program I ε σ β) : Program I ε σ β :=
  ⟨fun env w => next f env (x.run env w),
    fun env w => (x.extends_history env w).trans (next_extends f env (x.run env w))⟩

instance : Monad (Program I ε σ) where
  pure := Program.pure
  bind := Program.bind

/-- One call; an exception of the environment is raised. -/
def call (c : I.Call) : Program I ε σ (I.Answer c) :=
  ⟨fun env w =>
    match env w.history c with
    | .ok a => (.done a, ⟨w.locals, w.history ++ [⟨c, .ok a⟩]⟩)
    | .error e => (.raised e, ⟨w.locals, w.history ++ [⟨c, .error e⟩]⟩),
    fun env w => by
      cases env w.history c with
      | ok a => exact List.prefix_append _ _
      | error e => exact List.prefix_append _ _⟩

/-- An exception becomes a value; this is the only way to handle one. -/
def reify (x : Program I ε σ α) : Program I ε σ (Except ε α) :=
  ⟨fun env w =>
    match x.run env w with
    | (.done a, w) => (.done (.ok a), w)
    | (.raised e, w) => (.done (.error e), w)
    | (.unfinished, w) => (.unfinished, w),
    fun env w => by
      have h := x.extends_history env w
      generalize x.run env w = y at h ⊢
      obtain ⟨_ | _ | _, w'⟩ := y <;> exact h⟩

/-- What a handler has caught is raised again. -/
def lift (r : Except ε α) : Program I ε σ α :=
  match r with
  | .ok a => Pure.pure a
  | .error e => raise e

def read : Program I ε σ σ := ⟨fun _ w => (.done w.locals, w), fun _ w => List.prefix_refl w.history⟩

def update (f : σ → σ) : Program I ε σ Unit :=
  ⟨fun _ w => (.done (), ⟨f w.locals, w.history⟩), fun _ w => List.prefix_refl w.history⟩

/-- What the objects of the environment remember of the calls. -/
def consult (f : List (Happening I ε) → α) : Program I ε σ α :=
  ⟨fun _ w => (.done (f w.history), w), fun _ w => List.prefix_refl w.history⟩

/-- `if test: raise e`. -/
def raiseIf (test : Bool) (e : ε) : Program I ε σ Unit := if test then raise e else Pure.pure ()

/-- `if test: ...`. -/
def whenever (test : Bool) (x : Program I ε σ Unit) : Program I ε σ Unit := if test then x else Pure.pure ()

/-! ### Running -/

variable {env : Environment I ε} {w : Scene I ε σ} {x : Program I ε σ α} {f : α → Program I ε σ β}

@[simp] theorem run_pure (a : α) : (Pure.pure a : Program I ε σ α).run env w = (.done a, w) := rfl

@[simp] theorem run_raise (e : ε) : (raise e : Program I ε σ α).run env w = (.raised e, w) := rfl

theorem run_bind : (x >>= f).run env w = next f env (x.run env w) := rfl

theorem run_bind_done {a : α} {w' : Scene I ε σ} (h : x.run env w = (.done a, w')) :
    (x >>= f).run env w = (f a).run env w' := by
  rw [run_bind, h, next]

theorem run_bind_raised {e : ε} {w' : Scene I ε σ} (h : x.run env w = (.raised e, w')) :
    (x >>= f).run env w = (.raised e, w') := by
  rw [run_bind, h, next]

theorem run_bind_unfinished {w' : Scene I ε σ} (h : x.run env w = (.unfinished, w')) :
    (x >>= f).run env w = (.unfinished, w') := by
  rw [run_bind, h, next]

/-- What a composition that ends with a value has come through. -/
theorem bind_done {b : β} {w' : Scene I ε σ} (h : (x >>= f).run env w = (.done b, w')) :
    ∃ a w₁, x.run env w = (.done a, w₁) ∧ (f a).run env w₁ = (.done b, w') := by
  rcases hrun : x.run env w with ⟨a | e | _, w₁⟩
  · exact ⟨a, w₁, rfl, (run_bind_done hrun).symm.trans h⟩
  · exact absurd (congrArg Prod.fst ((run_bind_raised hrun).symm.trans h)) nofun
  · exact absurd (congrArg Prod.fst ((run_bind_unfinished hrun).symm.trans h)) nofun

theorem raiseIf_done {test : Bool} {e : ε} {a : Unit} {w' : Scene I ε σ}
    (h : (raiseIf test e : Program I ε σ Unit).run env w = (.done a, w')) : test = false ∧ w' = w := by
  cases test with
  | true => exact absurd (congrArg Prod.fst h) nofun
  | false => exact ⟨rfl, (congrArg Prod.snd h).symm⟩

theorem run_call_ok {c : I.Call} {a : I.Answer c} (h : env w.history c = .ok a) :
    (call c).run env w = (.done a, ⟨w.locals, w.history ++ [⟨c, .ok a⟩]⟩) := by
  simp only [call, h]

theorem run_call_error {c : I.Call} {e : ε} (h : env w.history c = .error e) :
    (call c).run env w = (.raised e, ⟨w.locals, w.history ++ [⟨c, .error e⟩]⟩) := by
  simp only [call, h]

theorem run_update (g : σ → σ) : (update g : Program I ε σ Unit).run env w = (.done (), ⟨g w.locals, w.history⟩) := rfl

theorem run_read : (read : Program I ε σ σ).run env w = (.done w.locals, w) := rfl

theorem run_consult (g : List (Happening I ε) → α) :
    (consult g : Program I ε σ α).run env w = (.done (g w.history), w) := rfl

theorem run_reify_done {a : α} {w' : Scene I ε σ} (h : x.run env w = (.done a, w')) :
    (reify x).run env w = (.done (.ok a), w') := by
  simp only [reify, h]

theorem run_reify_raised {e : ε} {w' : Scene I ε σ} (h : x.run env w = (.raised e, w')) :
    (reify x).run env w = (.done (.error e), w') := by
  simp only [reify, h]

theorem run_reify_unfinished {w' : Scene I ε σ} (h : x.run env w = (.unfinished, w')) :
    (reify x).run env w = (.unfinished, w') := by
  simp only [reify, h]

/-! ### Programs that finish -/

/-- Whatever the environment answers, the rounds suffice. -/
def Finishes (x : Program I ε σ α) : Prop := ∀ env w, (x.run env w).1 ≠ .unfinished

theorem finishes_pure (a : α) : Finishes (Pure.pure a : Program I ε σ α) := fun _ _ => nofun

theorem finishes_raise (e : ε) : Finishes (raise e : Program I ε σ α) := fun _ _ => nofun

theorem finishes_update (f : σ → σ) : Finishes (update f : Program I ε σ Unit) := fun _ _ => nofun

theorem finishes_consult (f : List (Happening I ε) → α) : Finishes (consult f : Program I ε σ α) := fun _ _ => nofun

theorem finishes_lift (r : Except ε α) : Finishes (lift r : Program I ε σ α) := by
  cases r with
  | ok a => exact finishes_pure a
  | error e => exact finishes_raise e

theorem finishes_raiseIf (test : Bool) (e : ε) : Finishes (raiseIf test e : Program I ε σ Unit) := by
  cases test with
  | true => exact finishes_raise e
  | false => exact finishes_pure ()

theorem Finishes.whenever {y : Program I ε σ Unit} (hy : Finishes y) (test : Bool) : Finishes (whenever test y) := by
  cases test with
  | true => exact hy
  | false => exact finishes_pure ()

theorem finishes_call (c : I.Call) : Finishes (call c : Program I ε σ (I.Answer c)) := by
  intro env w
  simp only [call]
  cases env w.history c with
  | ok a => exact nofun
  | error e => exact nofun

theorem Finishes.bind (hx : Finishes x) (hf : ∀ a, Finishes (f a)) : Finishes (x >>= f) := by
  intro env w
  rcases hrun : x.run env w with ⟨_ | _ | _, w'⟩
  · rw [run_bind_done hrun]
    exact hf _ env w'
  · rw [run_bind_raised hrun]
    exact nofun
  · exact absurd (congrArg Prod.fst hrun) (hx env w)

/-- Whatever the environment answers, the program ends with a value. -/
def Ends (x : Program I ε σ α) : Prop := ∀ env w, ∃ a w', x.run env w = (.done a, w')

theorem ends_pure (a : α) : Ends (Pure.pure a : Program I ε σ α) := fun _ w => ⟨a, w, rfl⟩

theorem ends_read : Ends (read : Program I ε σ σ) := fun _ w => ⟨w.locals, w, rfl⟩

theorem ends_update (f : σ → σ) : Ends (update f : Program I ε σ Unit) := fun _ _ => ⟨(), _, run_update f⟩

theorem Ends.whenever {y : Program I ε σ Unit} (hy : Ends y) (test : Bool) : Ends (whenever test y) := by
  cases test with
  | true => exact hy
  | false => exact ends_pure ()

theorem Ends.bind (hx : Ends x) (hf : ∀ a, Ends (f a)) : Ends (x >>= f) := by
  intro env w
  obtain ⟨a, w', hrun⟩ := hx env w
  rw [run_bind_done hrun]
  exact hf a env w'

/-- What is finished and handled ends with a value. -/
theorem Finishes.reify_ends (hx : Finishes x) : Ends (reify x) := by
  intro env w
  rcases hrun : x.run env w with ⟨a | e | _, w'⟩
  · exact ⟨.ok a, w', run_reify_done hrun⟩
  · exact ⟨.error e, w', run_reify_raised hrun⟩
  · exact absurd (congrArg Prod.fst hrun) (hx env w)

theorem Ends.finishes (hx : Ends x) : Finishes x := by
  intro env w
  obtain ⟨a, w', hrun⟩ := hx env w
  rw [hrun]
  exact nofun

theorem Finishes.reify (hx : Finishes x) : Finishes (reify x) := hx.reify_ends.finishes

/-! ### More rounds -/

/-- Where the first program finishes, the second does the same. -/
def Agrees (x y : Program I ε σ α) : Prop := ∀ env w, (x.run env w).1 ≠ .unfinished → y.run env w = x.run env w

theorem agrees_refl (x : Program I ε σ α) : Agrees x x := fun _ _ _ => rfl

theorem agrees_giveUp (y : Program I ε σ α) : Agrees giveUp y := fun _ _ h => absurd rfl h

theorem Agrees.bind {y : Program I ε σ α} {g : α → Program I ε σ β} (hx : Agrees x y) (hf : ∀ a, Agrees (f a) (g a)) :
    Agrees (x >>= f) (y >>= g) := by
  intro env w hfin
  rcases hrun : x.run env w with ⟨a | e | _, w'⟩
  · have hy := hx env w (by rw [hrun]; exact nofun)
    rw [run_bind_done hrun] at hfin ⊢
    rw [run_bind_done (hy.trans hrun)]
    exact hf a env w' hfin
  · have hy := hx env w (by rw [hrun]; exact nofun)
    rw [run_bind_raised hrun, run_bind_raised (hy.trans hrun)]
  · exact absurd (by rw [run_bind_unfinished hrun]) hfin

theorem Agrees.reify {y : Program I ε σ α} (hx : Agrees x y) : Agrees (reify x) (reify y) := by
  intro env w hfin
  rcases hrun : x.run env w with ⟨a | e | _, w'⟩
  · have hy := hx env w (by rw [hrun]; exact nofun)
    rw [run_reify_done hrun, run_reify_done (hy.trans hrun)]
  · have hy := hx env w (by rw [hrun]; exact nofun)
    rw [run_reify_raised hrun, run_reify_raised (hy.trans hrun)]
  · exact absurd (by rw [run_reify_unfinished hrun]) hfin

/-! ### Calls that are allowed where they are made -/

/-- Each call of a history was allowed by what had happened before it. -/
def Lawful (ok : List (Happening I ε) → I.Call → Prop) (h : List (Happening I ε)) : Prop :=
  ∀ before x after, h = before ++ x :: after → ok before x.call

section Lawful

variable {ok : List (Happening I ε) → I.Call → Prop}

theorem lawful_nil : Lawful ok [] := by
  intro before x after h
  exact absurd h.symm (by simp)

theorem Lawful.append_one {h : List (Happening I ε)} {x : Happening I ε} (hlaw : Lawful ok h) (hx : ok h x.call) :
    Lawful ok (h ++ [x]) := by
  intro before y after heq
  rcases List.append_eq_append_iff.1 heq with ⟨rest, hbefore, hafter⟩ | ⟨rest, hh, hafter⟩
  · cases rest with
    | nil =>
      rw [List.nil_append] at hafter
      rw [List.append_nil] at hbefore
      rw [hbefore, ← (List.cons.inj hafter).1]
      exact hx
    | cons z rest =>
      have hnil := (List.cons.inj hafter).2
      exact absurd hnil.symm (by simp)
  · cases rest with
    | nil =>
      rw [List.nil_append] at hafter
      rw [List.append_nil] at hh
      rw [← hh, (List.cons.inj hafter).1]
      exact hx
    | cons z rest =>
      rw [List.cons_append] at hafter
      rw [(List.cons.inj hafter).1]
      exact hlaw before z rest hh

end Lawful

/-! ### What a program keeps -/

/-- However the program ends, the invariant still holds. -/
def Keeps (inv : Scene I ε σ → Prop) (x : Program I ε σ α) : Prop := ∀ env w, inv w → inv (x.run env w).2

section Keeps

variable {inv : Scene I ε σ → Prop}

/-- What depends on the past alone and stays true is kept by every program. -/
theorem keeps_past {past : List (Happening I ε) → Prop} (h : ∀ {a b}, past a → a <+: b → past b)
    (x : Program I ε σ α) : Keeps (fun w => past w.history) x :=
  fun env w hw => h hw (x.extends_history env w)

theorem Keeps.and {other : Scene I ε σ → Prop} (hx : Keeps inv x) (hother : Keeps other x) :
    Keeps (fun w => inv w ∧ other w) x := fun env w hw => ⟨hx env w hw.1, hother env w hw.2⟩

theorem keeps_pure (a : α) : Keeps inv (Pure.pure a : Program I ε σ α) := fun _ _ h => h

theorem keeps_raise (e : ε) : Keeps inv (raise e : Program I ε σ α) := fun _ _ h => h

theorem keeps_giveUp : Keeps inv (giveUp : Program I ε σ α) := fun _ _ h => h

theorem keeps_read : Keeps inv (read : Program I ε σ σ) := fun _ _ h => h

theorem keeps_consult (f : List (Happening I ε) → α) : Keeps inv (consult f : Program I ε σ α) := fun _ _ h => h

theorem keeps_lift (r : Except ε α) : Keeps inv (lift r : Program I ε σ α) := by
  cases r with
  | ok a => exact keeps_pure a
  | error e => exact keeps_raise e

theorem keeps_raiseIf (test : Bool) (e : ε) : Keeps inv (raiseIf test e : Program I ε σ Unit) := by
  cases test with
  | true => exact keeps_raise e
  | false => exact keeps_pure ()

theorem Keeps.whenever {y : Program I ε σ Unit} (hy : Keeps inv y) (test : Bool) :
    Keeps inv (whenever test y) := by
  cases test with
  | true => exact hy
  | false => exact keeps_pure ()

theorem keeps_update {f : σ → σ} (h : ∀ w, inv w → inv ⟨f w.locals, w.history⟩) :
    Keeps inv (update f : Program I ε σ Unit) := fun _ w hw => h w hw

theorem keeps_call {c : I.Call} (h : ∀ w answer, inv w → inv ⟨w.locals, w.history ++ [⟨c, answer⟩]⟩) :
    Keeps inv (call c : Program I ε σ (I.Answer c)) := by
  intro env w hw
  have hafter := h w (env w.history c) hw
  simp only [call]
  cases hanswer : env w.history c with
  | ok a =>
    rw [hanswer] at hafter
    exact hafter
  | error e =>
    rw [hanswer] at hafter
    exact hafter

theorem Keeps.bind (hx : Keeps inv x) (hf : ∀ a, Keeps inv (f a)) : Keeps inv (x >>= f) := by
  intro env w hw
  have hmid := hx env w hw
  rw [run_bind]
  generalize x.run env w = y at hmid ⊢
  obtain ⟨_ | _ | _, w'⟩ := y
  · rename_i a
    exact hf a env w' hmid
  · exact hmid
  · exact hmid

theorem Keeps.reify (hx : Keeps inv x) : Keeps inv (reify x) := by
  intro env w hw
  have hmid := hx env w hw
  simp only [Program.reify]
  generalize x.run env w = y at hmid ⊢
  obtain ⟨_ | _ | _, w'⟩ := y <;> exact hmid

end Keeps

/-! ### What holds where a program ends -/

/-- Where `pre` holds, the program ends with `post`. -/
def Meets (pre : Scene I ε σ → Prop) (x : Program I ε σ α) (post : Ending ε α → Scene I ε σ → Prop) : Prop :=
  ∀ env w, pre w → post (x.run env w).1 (x.run env w).2

section Meets

variable {pre : Scene I ε σ → Prop} {post : Ending ε α → Scene I ε σ → Prop}

theorem Meets.conseq {pre' : Scene I ε σ → Prop} {post' : Ending ε α → Scene I ε σ → Prop}
    (h : Meets pre x post) (hpre : ∀ w, pre' w → pre w) (hpost : ∀ ending w, post ending w → post' ending w) :
    Meets pre' x post' :=
  fun env w hw => hpost _ _ (h env w (hpre w hw))

/-- The endings other than a value are passed on. -/
theorem Meets.bind {last : Ending ε β → Scene I ε σ → Prop} (mid : α → Scene I ε σ → Prop)
    (hx : Meets pre x fun ending w =>
      match ending with
      | .done a => mid a w
      | .raised e => last (.raised e) w
      | .unfinished => last .unfinished w)
    (hf : ∀ a, Meets (mid a) (f a) last) : Meets pre (x >>= f) last := by
  intro env w hw
  have hmid := hx env w hw
  rw [run_bind]
  rcases hrun : x.run env w with ⟨_ | _ | _, w'⟩
  · rename_i a
    rw [hrun] at hmid
    exact hf a env w' hmid
  · rw [hrun] at hmid
    exact hmid
  · rw [hrun] at hmid
    exact hmid

/-- What is kept stays true along the rest of a program. -/
theorem Keeps.bind_meets {inv : Scene I ε σ → Prop} {last : Ending ε β → Scene I ε σ → Prop} (hx : Keeps inv x)
    (hf : ∀ a, Meets inv (f a) last) (hraised : ∀ e w, inv w → last (.raised e) w)
    (hunfinished : ∀ w, inv w → last .unfinished w) : Meets inv (x >>= f) last := by
  refine Meets.bind (fun _ w => inv w) (fun env w hw => ?_) hf
  have hafter := hx env w hw
  generalize x.run env w = y at hafter ⊢
  obtain ⟨_ | e | _, w'⟩ := y
  · exact hafter
  · exact hraised e w' hafter
  · exact hunfinished w' hafter

theorem Keeps.meets {inv : Scene I ε σ → Prop} (h : Keeps inv x) : Meets inv x fun _ w => inv w := h

theorem Meets.keeps {inv : Scene I ε σ → Prop} (h : Meets inv x fun _ w => inv w) : Keeps inv x := h

end Meets

end Program

end HermesOps.Schemes
