import Mathlib.Data.List.Induction

/-! Runs of a machine whose every action is total: a refused action leaves the state as it is. A run
    is a list of actions from a start state, `Along` puts a condition on each of its steps (the
    condition sees the state the step is taken in), and an invariant is proved from one step lemma
    by `Machine.invariant`. -/

namespace HermesOps.Schemes

/-- Start states and a total step function. -/
structure Machine (α σ : Type) where
  start : σ → Prop
  step : α → σ → σ

namespace Machine

variable {α σ : Type} (m : Machine α σ)

/-- The state a list of actions leads to. -/
def run (s : σ) : List α → σ
  | [] => s
  | a :: as => run (m.step a s) as

/-- Every step of the run satisfies `ok` in the state it is taken in. -/
def Along (ok : α → σ → Prop) (s : σ) : List α → Prop
  | [] => True
  | a :: as => ok a s ∧ Along ok (m.step a s) as

instance Along.decidable (ok : α → σ → Prop) [∀ a s, Decidable (ok a s)] :
    ∀ (s : σ) (as : List α), Decidable (m.Along ok s as)
  | _, [] => .isTrue trivial
  | s, a :: as => @instDecidableAnd _ _ _ (Along.decidable ok (m.step a s) as)

/-- Some step of the run satisfies `P` in the state it is taken in. -/
def Sometime (P : α → σ → Prop) (s : σ) : List α → Prop
  | [] => False
  | a :: as => P a s ∨ Sometime P (m.step a s) as

instance Sometime.decidable (P : α → σ → Prop) [∀ a s, Decidable (P a s)] :
    ∀ (s : σ) (as : List α), Decidable (m.Sometime P s as)
  | _, [] => .isFalse id
  | s, a :: as => @instDecidableOr _ _ _ (Sometime.decidable P (m.step a s) as)

/-- States reached by runs all of whose steps satisfy `ok`. -/
inductive Reachable (ok : α → σ → Prop) : σ → Prop
  | start {s : σ} : m.start s → Reachable ok s
  | step {s : σ} (a : α) : Reachable ok s → ok a s → Reachable ok (m.step a s)

variable {m}

theorem run_append (s : σ) : ∀ as bs : List α, m.run s (as ++ bs) = m.run (m.run s as) bs
  | [], _ => rfl
  | a :: as, bs => run_append (m.step a s) as bs

theorem along_append {ok : α → σ → Prop} (s : σ) : ∀ as bs : List α,
    m.Along ok s (as ++ bs) ↔ m.Along ok s as ∧ m.Along ok (m.run s as) bs
  | [], _ => by simp [Along, run]
  | a :: as, bs => by simp only [List.cons_append, Along, run, along_append, and_assoc]

theorem sometime_append {P : α → σ → Prop} (s : σ) : ∀ as bs : List α,
    m.Sometime P s (as ++ bs) ↔ m.Sometime P s as ∨ m.Sometime P (m.run s as) bs
  | [], _ => by simp [Sometime, run]
  | a :: as, bs => by simp only [List.cons_append, Sometime, run, sometime_append, or_assoc]

theorem Along.mono {ok ok' : α → σ → Prop} (h : ∀ a s, ok a s → ok' a s) :
    ∀ {s : σ} {as : List α}, m.Along ok s as → m.Along ok' s as
  | _, [], _ => trivial
  | _, _ :: _, ⟨ha, has⟩ => ⟨h _ _ ha, Along.mono h has⟩

theorem Reachable.mono {ok ok' : α → σ → Prop} (h : ∀ a s, ok a s → ok' a s) {s : σ}
    (hs : m.Reachable ok s) : m.Reachable ok' s := by
  induction hs with
  | start h0 => exact .start h0
  | step a _ ha ih => exact .step a ih (h _ _ ha)

/-- Every state of a run is reachable when no step of it is restricted. -/
theorem Reachable.of_start {s : σ} (h : m.start s) : m.Reachable (fun _ _ => True) s := .start h

theorem Reachable.run {ok : α → σ → Prop} {s : σ} {as : List α} (hs : m.Reachable ok s)
    (has : m.Along ok s as) : m.Reachable ok (m.run s as) := by
  induction as generalizing s with
  | nil => exact hs
  | cons a as ih => exact ih (.step a hs has.1) has.2

/-- The reachable states are the ends of the runs. -/
theorem reachable_iff {ok : α → σ → Prop} {s : σ} :
    m.Reachable ok s ↔ ∃ s₀ as, m.start s₀ ∧ m.Along ok s₀ as ∧ m.run s₀ as = s := by
  constructor
  · intro h
    induction h with
    | @start s h0 => exact ⟨s, [], h0, trivial, rfl⟩
    | @step s a _ ha ih =>
      obtain ⟨s₀, as, h0, has, rfl⟩ := ih
      refine ⟨s₀, as ++ [a], h0, (along_append _ _ _).2 ⟨has, ha, trivial⟩, ?_⟩
      rw [run_append]; rfl
  · rintro ⟨s₀, as, h0, has, rfl⟩
    exact Reachable.run (.start h0) has

/-- The invariant rule; a step may use that its source state is reachable. -/
theorem invariant {ok : α → σ → Prop} {I : σ → Prop} (h0 : ∀ s, m.start s → I s)
    (hstep : ∀ a s, m.Reachable ok s → ok a s → I s → I (m.step a s)) {s : σ}
    (h : m.Reachable ok s) : I s := by
  induction h with
  | start hs => exact h0 _ hs
  | step a hs ha ih => exact hstep a _ hs ha ih

/-- A relation that every step satisfies holds along every run. -/
theorem Reachable.along {ok R : α → σ → Prop} (h : ∀ a s, m.Reachable ok s → ok a s → R a s) :
    ∀ {s : σ} {as : List α}, m.Reachable ok s → m.Along ok s as → m.Along R s as
  | _, [], _, _ => trivial
  | _, _ :: _, hs, ⟨ha, has⟩ => ⟨h _ _ hs ha, Reachable.along h (.step _ hs ha) has⟩

/-- Two conditions on a step that agree in every reachable state hold along the same runs. -/
theorem Reachable.along_congr {ok P Q : α → σ → Prop}
    (h : ∀ a s, m.Reachable ok s → (P a s ↔ Q a s)) (hok : ∀ a s, ok a s) :
    ∀ {s : σ} {as : List α}, m.Reachable ok s → (m.Along P s as ↔ m.Along Q s as)
  | _, [], _ => Iff.rfl
  | s, a :: _, hs => and_congr (h a s hs) (Reachable.along_congr h hok (.step a hs (hok a s)))

/-- The same for an invariant that speaks of the steps taken so far. -/
theorem invariant_along {ok : α → σ → Prop} {s₀ : σ} {I : List α → σ → Prop} (h0 : I [] s₀)
    (hstep : ∀ as a, m.Along ok s₀ as → ok a (m.run s₀ as) → I as (m.run s₀ as) →
      I (as ++ [a]) (m.step a (m.run s₀ as))) :
    ∀ {as : List α}, m.Along ok s₀ as → I as (m.run s₀ as) := by
  intro as
  induction as using List.reverseRecOn with
  | nil => exact fun _ => h0
  | append_singleton as a ih =>
    intro has
    rw [along_append] at has
    rw [run_append]
    exact hstep as a has.1 has.2.1 (ih has.1)

end Machine

end HermesOps.Schemes
