import Mathlib.Data.List.Basic

/-! Collecting into a list with a limit. A collector adds its entries to a list while there is room and says
    whether to stop; a loop of collectors stops as soon as one of them says so or the list is full. -/

namespace HermesOps.Schemes

variable {γ : Type} {limit : Nat}

abbrev Collector (γ : Type) := List γ → Bool × List γ

/-- One turn of the loop, and the rest of it. -/
def Collector.next (limit : Nat) (step rest : Collector γ) : Collector γ := fun cs =>
  if (step cs).1 then (true, (step cs).2)
  else if limit ≤ (step cs).2.length then (true, (step cs).2)
  else rest (step cs).2

/-- The collector adds these entries up to the limit, and stops only when the list is full. -/
structure Collects (limit : Nat) (step : Collector γ) (ds : List γ) : Prop where
  collected : ∀ cs, cs.length < limit → (step cs).2 = (cs ++ ds).take limit
  full : ∀ cs, cs.length < limit → (step cs).1 = true → limit ≤ cs.length + ds.length

/-- It also stops whenever the list is full. -/
structure CollectsAll (limit : Nat) (step : Collector γ) (ds : List γ) : Prop
    extends Collects limit step ds where
  stops : ∀ cs, cs.length < limit → limit ≤ cs.length + ds.length → (step cs).1 = true

theorem Collects.one (limit : Nat) (ds : List γ) (h : ds.length ≤ 1) :
    Collects limit (fun cs => (false, cs ++ ds)) ds where
  collected cs hcs := by
    rw [List.take_of_length_le]
    rw [List.length_append]
    omega
  full _ _ hstop := nomatch hstop

theorem CollectsAll.nil : CollectsAll limit (fun cs => (false, cs)) ([] : List γ) where
  collected cs hcs := by
    rw [List.append_nil, List.take_of_length_le (Nat.le_of_lt hcs)]
  full _ _ hstop := nomatch hstop
  stops cs hcs hfull := by
    rw [List.length_nil] at hfull
    omega

/-- The loop collects what its turns collect. -/
theorem Collects.next {step rest : Collector γ} {ds es : List γ} (h : Collects limit step ds)
    (h' : CollectsAll limit rest es) : CollectsAll limit (Collector.next limit step rest) (ds ++ es) := by
  have hlength : ∀ cs : List γ, cs.length < limit →
      (step cs).2.length = min limit (cs.length + ds.length) := by
    intro cs hcs
    rw [h.collected cs hcs, List.length_take, List.length_append]
  -- while there is room the turn has added everything
  have hroom : ∀ cs : List γ, cs.length < limit → ¬limit ≤ (step cs).2.length →
      (step cs).2 = cs ++ ds := by
    intro cs hcs hle
    rw [hlength cs hcs] at hle
    rw [h.collected cs hcs, List.take_of_length_le]
    rw [List.length_append]
    omega
  have hfilled : ∀ cs : List γ, cs.length < limit → limit ≤ cs.length + ds.length →
      (step cs).2 = (cs ++ (ds ++ es)).take limit := by
    intro cs hcs hle
    have hle' : limit ≤ (cs ++ ds).length := by rwa [List.length_append]
    rw [h.collected cs hcs, ← List.append_assoc]
    exact (List.take_append_of_le_length hle').symm
  refine ⟨⟨?_, ?_⟩, ?_⟩
  · intro cs hcs
    unfold Collector.next
    split
    · exact hfilled cs hcs (h.full cs hcs ‹_›)
    · split
      · rename_i hle
        rw [hlength cs hcs] at hle
        exact hfilled cs hcs (by omega)
      · rename_i hle
        rw [h'.collected _ (by omega), hroom cs hcs hle, List.append_assoc]
  · intro cs hcs hstop
    rw [List.length_append]
    unfold Collector.next at hstop
    split at hstop
    · have := h.full cs hcs ‹_›
      omega
    · split at hstop
      · rename_i hle
        rw [hlength cs hcs] at hle
        omega
      · rename_i hle
        have hrest := h'.full _ (by omega) hstop
        rw [hroom cs hcs hle, List.length_append] at hrest
        omega
  · intro cs hcs hfull
    rw [List.length_append] at hfull
    unfold Collector.next
    split
    · rfl
    · split
      · rfl
      · rename_i hle
        refine h'.stops _ (by omega) ?_
        rw [hroom cs hcs hle, List.length_append]
        omega

end HermesOps.Schemes
