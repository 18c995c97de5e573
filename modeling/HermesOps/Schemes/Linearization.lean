import Mathlib.Data.Finset.Basic
import Mathlib.Data.Fintype.EquivFin
import Mathlib.Data.List.Lex
import Mathlib.Logic.Relation
import Mathlib.Order.WellFounded
import Mathlib.Order.Lattice.Nat

/-! Linear orders of the nodes of a finite relation. A list that takes the least available node at every
    turn is the least of all linearizations when it reaches every node, and when it gets stuck before, the
    relation has a cycle. The ancestors of the nodes can be accumulated along any linearization. -/

namespace HermesOps.Schemes

open Relation

variable {κ : Type} {keys : List κ} {dep : κ → κ → Prop}

/-- The list names the keys once each, every key after the ones it depends on; `dep p k` says that `k`
    depends on `p`. -/
structure Linearizes (keys : List κ) (dep : κ → κ → Prop) (l : List κ) : Prop where
  nodup : l.Nodup
  mem : ∀ k, k ∈ l ↔ k ∈ keys
  before : ∀ pre k post, l = pre ++ k :: post → ∀ p, dep p k → p ∈ pre

/-- The key comes after the listed ones, and so may be listed next. -/
structure Available (keys : List κ) (dep : κ → κ → Prop) (done : List κ) (k : κ) : Prop where
  key : k ∈ keys
  fresh : k ∉ done
  ready : ∀ p, dep p k → p ∈ done

/-- Some node depends on itself, directly or through others. -/
def Cyclic (dep : κ → κ → Prop) : Prop := ∃ k, TransGen dep k k

/-- The relation is one between the keys. -/
def Within (keys : List κ) (dep : κ → κ → Prop) : Prop := ∀ p k, dep p k → p ∈ keys ∧ k ∈ keys

/-! ### Cycles -/

/-- Where no key is available but some are missing, there is a cycle. -/
theorem cyclic_of_stuck (hw : Within keys dep) {done : List κ} {k : κ} (hk : k ∈ keys)
    (hfresh : k ∉ done) (hstuck : ∀ k, ¬Available keys dep done k) : Cyclic dep := by
  classical
  by_contra hacyclic
  have hirrefl : ∀ k, ¬TransGen dep k k := fun k h => hacyclic ⟨k, h⟩
  let below (a b : {k // k ∈ keys}) : Prop := TransGen dep a.1 b.1
  have : IsTrans {k // k ∈ keys} below := ⟨fun _ _ _ hab hbc => hab.trans hbc⟩
  have : Std.Irrefl below := ⟨fun a => hirrefl a.1⟩
  have hwf : WellFounded below := Finite.wellFounded_of_trans_of_irrefl below
  obtain ⟨m, hm, hleast⟩ := hwf.has_min {a | a.1 ∉ done} ⟨⟨k, hk⟩, hfresh⟩
  refine hstuck m.1 ⟨m.2, hm, fun p hp => ?_⟩
  by_contra hmissing
  exact hleast ⟨p, (hw p m.1 hp).1⟩ hmissing (.single hp)

/-- A list from which nothing is available has all keys, unless there is a cycle. -/
theorem all_or_cyclic (hw : Within keys dep) {done : List κ}
    (hstuck : ∀ k, ¬Available keys dep done k) : (∀ k ∈ keys, k ∈ done) ∨ Cyclic dep := by
  by_cases hall : ∀ k ∈ keys, k ∈ done
  · exact .inl hall
  · push Not at hall
    obtain ⟨k, hk, hfresh⟩ := hall
    exact .inr (cyclic_of_stuck hw hk hfresh hstuck)

/-- In a linearization every ancestor stands before. -/
theorem Linearizes.ancestor {l : List κ} (hl : Linearizes keys dep l) {p k : κ} (h : TransGen dep p k) : ∀ pre post, l = pre ++ k :: post → p ∈ pre := by
  induction h with
  | single hp => exact fun pre post heq => hl.before pre _ post heq p hp
  | @tail b c _ hbc ih =>
    intro pre post heq
    have hb : b ∈ pre := hl.before pre c post heq b hbc
    obtain ⟨before, after, rfl⟩ := List.append_of_mem hb
    have hp := ih before (after ++ c :: post) (by rw [heq, List.append_assoc, List.cons_append])
    exact List.mem_append_left _ hp

theorem Linearizes.acyclic {l : List κ} (hl : Linearizes keys dep l) (hw : Within keys dep) :
    ¬Cyclic dep := by
  rintro ⟨k, hk⟩
  have hkey : k ∈ keys := by
    obtain ⟨p, -, hp⟩ := TransGen.tail'_iff.1 hk
    exact (hw p k hp).2
  obtain ⟨pre, post, rfl⟩ := List.append_of_mem ((hl.mem k).2 hkey)
  have hpre := hl.ancestor hk pre post rfl
  have hnodup := hl.nodup
  rw [List.nodup_append] at hnodup
  exact hnodup.2.2 k hpre k (List.mem_cons_self ..) rfl

/-! ### The least available key at every turn -/

section Greedy

variable [LinearOrder κ]

/-- Every element was the least available one when it was listed. -/
inductive Greedy (keys : List κ) (dep : κ → κ → Prop) : List κ → Prop
  | nil : Greedy keys dep []
  | snoc {l k} : Greedy keys dep l → Available keys dep l k →
    (∀ k', Available keys dep l k' → k ≤ k') → Greedy keys dep (l ++ [k])

theorem Greedy.nodup {l : List κ} (hl : Greedy keys dep l) : l.Nodup := by
  induction hl with
  | nil => exact List.nodup_nil
  | snoc _ hk _ ih => exact List.nodup_append.2 ⟨ih, List.nodup_singleton _, by
      rintro a ha b hb rfl
      rw [List.mem_singleton] at hb
      exact hk.fresh (hb ▸ ha)⟩

theorem Greedy.subset {l : List κ} (hl : Greedy keys dep l) : ∀ k ∈ l, k ∈ keys := by
  induction hl with
  | nil => exact fun k hk => by cases hk
  | snoc _ hk _ ih =>
    intro k' hk'
    rcases List.mem_append.1 hk' with h | h
    · exact ih k' h
    · rw [List.mem_singleton.1 h]
      exact hk.key

/-- What stands at a place was available there, and the least. -/
theorem Greedy.at {l : List κ} (hl : Greedy keys dep l) :
    ∀ pre k post, l = pre ++ k :: post →
      Available keys dep pre k ∧ ∀ k', Available keys dep pre k' → k ≤ k' := by
  induction hl with
  | nil => exact fun pre k post heq => by simp at heq
  | @snoc l k hl hk hleast ih =>
    intro pre k₀ post heq
    rcases List.eq_nil_or_concat post with rfl | ⟨post', last, rfl⟩
    · obtain ⟨rfl, heq⟩ := List.append_inj' heq rfl
      obtain rfl : k = k₀ := by simpa using heq
      exact ⟨hk, hleast⟩
    · rw [List.concat_eq_append, ← List.cons_append, ← List.append_assoc] at heq
      exact ih pre k₀ post' (List.append_inj' heq rfl).1

/-- A greedy list of all keys is a linearization. -/
theorem Greedy.linearizes {l : List κ} (hl : Greedy keys dep l) (hall : ∀ k ∈ keys, k ∈ l) :
    Linearizes keys dep l :=
  ⟨hl.nodup, fun k => ⟨hl.subset k, hall k⟩, fun pre k post heq p hp => (hl.at pre k post heq).1.ready p hp⟩

/-- After a common beginning, the greedy list goes on no later than any linearization. -/
theorem Greedy.rest_le {rest : List κ} : ∀ {pre rest' : List κ}, Greedy keys dep (pre ++ rest) →
    Linearizes keys dep (pre ++ rest') → rest ≤ rest' := by
  induction rest with
  | nil =>
    intro pre rest' _ _
    cases rest' with
    | nil => exact le_rfl
    | cons k' rest' => exact (List.nil_lt_cons k' rest').le
  | cons k rest ih =>
    intro pre rest' hgreedy hlin
    obtain ⟨havailable, hleast⟩ := hgreedy.at pre k rest rfl
    cases rest' with
    | nil =>
      rw [List.append_nil] at hlin
      exact absurd ((hlin.mem k).2 havailable.key) havailable.fresh
    | cons k' rest' =>
      have hk' : Available keys dep pre k' := by
        refine ⟨(hlin.mem k').1 (by simp), fun hmem => ?_, hlin.before pre k' rest' rfl⟩
        have hnodup := hlin.nodup
        rw [List.nodup_append] at hnodup
        exact hnodup.2.2 k' hmem k' (List.mem_cons_self ..) rfl
      rcases lt_or_eq_of_le (hleast k' hk') with hlt | rfl
      · exact (show k :: rest < k' :: rest' from .rel hlt).le
      · rw [← List.singleton_append, ← List.append_assoc] at hgreedy hlin
        exact List.cons_le_cons k (ih hgreedy hlin)

/-- The greedy list is the least linearization. -/
theorem Greedy.le {l l' : List κ} (hl : Greedy keys dep l) (hl' : Linearizes keys dep l') : l ≤ l' :=
  @Greedy.rest_le κ keys dep _ l [] l' hl hl'

end Greedy

end HermesOps.Schemes
