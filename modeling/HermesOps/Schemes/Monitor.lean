import Mathlib.Data.List.Basic

/-! Processes that share a store under one lock. A process that has the lock changes the store together
    with its own state, the others change nothing but their own. The lock is exclusive, only its holder
    writes, and what holds of the store and of the holder under one process that works alone holds in
    every interleaving. -/

namespace HermesOps.Schemes

/-- The process that has the lock, the states of all processes, and the store. -/
structure Monitor (φ σ : Type) where
  lock : Option Nat
  procs : List φ
  store : σ

namespace Monitor

variable {φ σ : Type} (holds : φ → Bool) (enter : φ → φ → Prop) (own : φ → σ → φ → σ → Prop)

/-- One process moves, or there is one more. -/
inductive Move (w : Monitor φ σ) : Monitor φ σ → Prop
  | rest : Move w w
  | join {p : φ} (hp : holds p = false) : Move w { w with procs := w.procs ++ [p] }
  | aside {i : Nat} {p p' : φ} (hp : w.procs[i]? = some p) (hout : holds p = false)
      (hout' : holds p' = false) :
      Move w { w with procs := w.procs.set i p' }
  | acquire {i : Nat} {p p' : φ} (hp : w.procs[i]? = some p) (hfree : w.lock = none) (hin : holds p' = true)
      (henter : enter p p') : Move w ⟨some i, w.procs.set i p', w.store⟩
  | work {i : Nat} {p p' : φ} {s : σ} (hp : w.procs[i]? = some p) (hin : holds p = true)
      (hin' : holds p' = true)
      (hown : own p w.store p' s) : Move w ⟨w.lock, w.procs.set i p', s⟩
  | release {i : Nat} {p p' : φ} {s : σ} (hp : w.procs[i]? = some p) (hin : holds p = true)
      (hout : holds p' = false) (hown : own p w.store p' s) : Move w ⟨none, w.procs.set i p', s⟩

/-- The process that has the lock is the one that holds it. -/
def Exclusive (w : Monitor φ σ) : Prop := ∀ i : Nat, w.lock = some i ↔ ∃ p, w.procs[i]? = some p ∧
    holds p = true

/-- The store is good, and the holder's state fits it. -/
structure Guarded (good : σ → Prop) (fits : φ → σ → Prop) (w : Monitor φ σ) : Prop where
  store : good w.store
  holder : ∀ (i : Nat) (p : φ), w.procs[i]? = some p → holds p = true → fits p w.store

variable {holds enter own} {w w' : Monitor φ σ} {good : σ → Prop} {fits : φ → σ → Prop}

theorem get_set {i j : Nat} {p' q : φ} (h : (w.procs.set i p')[j]? = some q) :
    j = i ∧ q = p' ∨ j ≠ i ∧ w.procs[j]? = some q := by
  rw [List.getElem?_set] at h
  split at h
  · rename_i heq
    split at h
    · exact .inl ⟨heq.symm, (Option.some.inj h).symm⟩
    · cases h
  · rename_i hne
    exact .inr ⟨fun heq => hne heq.symm, h⟩

theorem get_self {i : Nat} {p p' : φ} (hp : w.procs[i]? = some p) : (w.procs.set i p')[i]? = some p' := by
  rw [List.getElem?_set_self (List.getElem?_eq_some_iff.1 hp).1]

/-- The holders after process `i` has moved. -/
theorem holders_set {i : Nat} {p p' : φ} (hp : w.procs[i]? = some p) (j : Nat) :
    (∃ q, (w.procs.set i p')[j]? = some q ∧ holds q = true) ↔
      j = i ∧ holds p' = true ∨ j ≠ i ∧ ∃ q, w.procs[j]? = some q ∧ holds q = true := by
  constructor
  · rintro ⟨q, hq, hin⟩
    rcases get_set hq with ⟨rfl, rfl⟩ | ⟨hne, hq⟩
    · exact .inl ⟨rfl, hin⟩
    · exact .inr ⟨hne, q, hq, hin⟩
  · rintro (⟨rfl, hin⟩ | ⟨hne, q, hq, hin⟩)
    · exact ⟨p', get_self hp, hin⟩
    · exact ⟨q, by rw [List.getElem?_set_ne (Ne.symm hne)]; exact hq, hin⟩

theorem Exclusive.locked (h : Exclusive holds w) {i : Nat} {p : φ} (hp : w.procs[i]? = some p)
    (hin : holds p = true) : w.lock = some i := (h i).2 ⟨p, hp, hin⟩

/-- A process that does not hold the lock does not have it. -/
theorem Exclusive.unlocked (h : Exclusive holds w) {i : Nat} {p : φ} (hp : w.procs[i]? = some p)
    (hout : holds p = false) : w.lock ≠ some i := by
  intro hlock
  obtain ⟨q, hq, hin⟩ := (h i).1 hlock
  rw [hp] at hq
  cases hq
  rw [hin] at hout
  cases hout

/-- Two holders are one process. -/
theorem Exclusive.same (h : Exclusive holds w) {i j : Nat} {p q : φ} (hp : w.procs[i]? = some p)
    (hq : w.procs[j]? = some q) (hin : holds p = true) (hin' : holds q = true) : i = j :=
  Option.some.inj ((h.locked hp hin).symm.trans (h.locked hq hin'))

theorem Exclusive.move (h : Exclusive holds w) (hm : Move holds enter own w w') : Exclusive holds w' := by
  intro j
  cases hm with
  | rest => exact h j
  | @join p hout =>
    rw [h j]
    constructor
    · rintro ⟨q, hq, hin⟩
      exact ⟨q, by rw [List.getElem?_append_left (List.getElem?_eq_some_iff.1 hq).1]; exact hq, hin⟩
    · rintro ⟨q, hq, hin⟩
      by_cases hj : j < w.procs.length
      · rw [List.getElem?_append_left hj] at hq
        exact ⟨q, hq, hin⟩
      · rw [List.getElem?_append_right (by omega)] at hq
        have hlast := List.mem_of_getElem? hq
        rw [List.mem_singleton] at hlast
        rw [hlast, hout] at hin
        cases hin
  | @aside i p p' hp hout hout' =>
    refine Iff.trans ?_ (holders_set hp j).symm
    rw [hout', h j]
    constructor
    · rintro ⟨q, hq, hin⟩
      refine .inr ⟨?_, q, hq, hin⟩
      rintro rfl
      rw [hp] at hq
      cases hq
      rw [hin] at hout
      cases hout
    · rintro (⟨-, hin⟩ | ⟨-, hq⟩)
      · cases hin
      · exact hq
  | @acquire i p p' hp hfree hin henter =>
    refine Iff.trans ?_ (holders_set hp j).symm
    rw [← h j, hfree, hin]
    simp only [Option.some.injEq, reduceCtorEq, and_true, and_false, or_false]
    exact eq_comm
  | @work i p p' s hp hin hin' =>
    refine Iff.trans ?_ (holders_set hp j).symm
    rw [← h j, h.locked hp hin, hin']
    simp only [Option.some.injEq, and_true]
    constructor
    · exact fun heq => .inl heq.symm
    · rintro (heq | ⟨hne, heq⟩)
      · exact heq.symm
      · exact absurd heq.symm hne
  | @release i p p' s hp hin hout =>
    refine Iff.trans ?_ (holders_set hp j).symm
    rw [← h j, h.locked hp hin, hout]
    simp only [Option.some.injEq, reduceCtorEq, and_false, false_or, false_iff, not_and]
    exact fun hne heq => hne heq.symm

/-- What a process that enters finds and one that works alone keeps. -/
theorem Guarded.move (hx : Exclusive holds w)
    (henter : ∀ p p' s, enter p p' → good s → fits p' s)
    (hown : ∀ p s p' s', holds p = true → good s → fits p s → own p s p' s' →
      good s' ∧ (holds p' = true → fits p' s'))
    (h : Guarded holds good fits w) (hm : Move holds enter own w w') : Guarded holds good fits w' := by
  -- the other holders: there are none
  have hother {i j : Nat} {p p' q : φ} {s : σ} (hp : w.procs[i]? = some p) (hin : holds p = true)
      (hq : (w.procs.set i p')[j]? = some q) (hinq : holds q = true) (hfits : holds p' = true → fits p' s) :
      fits q s := by
    rcases get_set hq with ⟨-, rfl⟩ | ⟨hne, hq⟩
    · exact hfits hinq
    · exact absurd (hx.same hq hp hinq hin) hne
  cases hm with
  | rest => exact h
  | @join p hout =>
    refine ⟨h.store, fun j q hq hin => ?_⟩
    have hmem := List.mem_of_getElem? hq
    rcases List.mem_append.1 hmem with hmem | hlast
    · obtain ⟨k, hk⟩ := List.mem_iff_getElem?.1 hmem
      exact h.holder k q hk hin
    · rw [List.mem_singleton] at hlast
      rw [hlast, hout] at hin
      cases hin
  | @aside i p p' hp hout hout' =>
    refine ⟨h.store, fun j q hq hin => ?_⟩
    rcases get_set hq with ⟨-, rfl⟩ | ⟨-, hq⟩
    · rw [hin] at hout'
      cases hout'
    · exact h.holder j q hq hin
  | @acquire i p p' hp hfree hin he =>
    refine ⟨h.store, fun j q hq hinq => ?_⟩
    rcases get_set hq with ⟨-, rfl⟩ | ⟨-, hq⟩
    · exact henter p q w.store he h.store
    · exact h.holder j q hq hinq
  | @work i p p' s hp hin hin' ho =>
    obtain ⟨hgood, hfits⟩ := hown p w.store p' s hin h.store (h.holder i p hp hin) ho
    exact ⟨hgood, fun j q hq hinq => hother hp hin hq hinq hfits⟩
  | @release i p p' s hp hin hout ho =>
    obtain ⟨hgood, hfits⟩ := hown p w.store p' s hin h.store (h.holder i p hp hin) ho
    exact ⟨hgood, fun j q hq hinq => hother hp hin hq hinq hfits⟩

/-- The store is as it was, or the holder has changed it. -/
theorem Move.store_cases (hm : Move holds enter own w w') :
    w'.store = w.store ∨ ∃ (i : Nat) (p p' : φ), w.procs[i]? = some p ∧ holds p = true ∧
    own p w.store p' w'.store ∧
      w'.procs = w.procs.set i p' := by
  cases hm with
  | rest => exact .inl rfl
  | join => exact .inl rfl
  | aside => exact .inl rfl
  | acquire => exact .inl rfl
  | @work i p p' s hp hin hin' ho => exact .inr ⟨i, p, p', hp, hin, ho, rfl⟩
  | @release i p p' s hp hin hout ho => exact .inr ⟨i, p, p', hp, hin, ho, rfl⟩

end Monitor

end HermesOps.Schemes
