import Mathlib.Data.List.Basic
import Mathlib.Data.List.Pairwise
import Mathlib.Order.Basic
import Mathlib.Data.Nat.Basic

/-! A log whose keys strictly increase, read page by page. A page holds at most `n` of the entries
    after a cursor that satisfy a filter, and the next cursor is the key of its last entry. Between
    two pages the log may only grow past its last key; what the pages deliver is then the selected
    part of the log up to the cursor, without a gap and without a repetition. -/

namespace HermesOps.Schemes.Log

variable {α : Type} (key : α → Nat) (p : α → Bool)

/-- The keys strictly increase along the log. -/
def Ordered (l : List α) : Prop := l.Pairwise fun x y => key x < key y

/-- The entries that the filter selects with a key in `(lo, hi]`. -/
def segment (l : List α) (lo hi : Nat) : List α :=
  l.filter fun x => p x && (lo < key x && key x ≤ hi)

/-- The first `n` entries after the cursor that the filter selects. -/
def page (l : List α) (cursor n : Nat) : List α :=
  (l.filter fun x => p x && cursor < key x).take n

/-- Where the next page starts. -/
def advance (cursor : Nat) (page : List α) : Nat := (page.getLast?.map key).getD cursor

variable {key p} {l l' : List α} {lo cursor n : Nat}

theorem Ordered.filter (h : Ordered key l) (q : α → Bool) : Ordered key (l.filter q) :=
  List.Pairwise.filter q h

theorem Ordered.append (h : Ordered key l) {x : α} (hx : ∀ y ∈ l, key y < key x) :
    Ordered key (l ++ [x]) := by
  refine List.pairwise_append.2 ⟨h, List.pairwise_singleton .., fun y hy z hz => ?_⟩
  rw [List.mem_singleton.1 hz]
  exact hx y hy

/-- An ordered log is cut in two by a key. -/
theorem Ordered.split (k : Nat) : ∀ {l : List α}, Ordered key l →
    l = (l.filter fun x => key x ≤ k) ++ l.filter fun x => k < key x
  | [], _ => rfl
  | x :: l, h => by
    obtain ⟨hx, hl⟩ := List.pairwise_cons.1 h
    by_cases hk : key x ≤ k
    · have hn : ¬k < key x := by omega
      rw [List.filter_cons_of_pos (by simpa using hk), List.filter_cons_of_neg (by simpa using hn),
        List.cons_append, ← Ordered.split k hl]
    · have hlow : l.filter (fun y => key y ≤ k) = [] := by
        rw [List.filter_eq_nil_iff]
        intro y hy
        have := hx y hy
        simp only [decide_eq_true_eq]
        omega
      have hhigh : l.filter (fun y => k < key y) = l := by
        rw [List.filter_eq_self]
        intro y hy
        have := hx y hy
        simp only [decide_eq_true_eq]
        omega
      rw [List.filter_cons_of_neg (by simpa using hk), List.filter_cons_of_pos (by simp; omega), hlow,
        hhigh, List.nil_append]

/-- A nonempty prefix of an ordered log is the part up to its last key. -/
theorem Ordered.take_eq_filter (h : Ordered key l) {x : α} (hx : (l.take n).getLast? = some x) :
    l.take n = l.filter fun y => key y ≤ key x := by
  have hmem : x ∈ l.take n := List.mem_of_getLast? hx
  have hcut : Ordered key (l.take n ++ l.drop n) := by rw [List.take_append_drop]; exact h
  obtain ⟨htake, -, hcross⟩ := List.pairwise_append.1 hcut
  have hlow : ∀ y ∈ l.take n, key y ≤ key x := by
    obtain ⟨m, hm⟩ := List.getLast?_eq_some_iff.1 hx
    intro y hy
    rw [hm] at hy htake
    rcases List.mem_append.1 hy with hy | hy
    · have := (List.pairwise_append.1 htake).2.2 y hy x (List.mem_singleton_self x)
      omega
    · rw [List.mem_singleton.1 hy]
  have hhigh : ∀ y ∈ l.drop n, ¬key y ≤ key x := by
    intro y hy
    have := hcross x hmem y hy
    omega
  calc l.take n = (l.take n).filter (fun y => key y ≤ key x) ++
        (l.drop n).filter (fun y => key y ≤ key x) := by
          rw [List.filter_eq_self.2 (by simpa using hlow),
            List.filter_eq_nil_iff.2 (by simpa using hhigh), List.append_nil]
    _ = l.filter fun y => key y ≤ key x := by rw [← List.filter_append, List.take_append_drop]

theorem mem_page {x : α} (hx : x ∈ page key p l cursor n) : x ∈ l ∧ p x = true ∧ cursor < key x := by
  have := List.mem_of_mem_take hx
  simpa [List.mem_filter, and_assoc] using this

/-- A page extends the delivered part to its last entry. -/
theorem segment_page (h : Ordered key l) (hlo : lo ≤ cursor) :
    segment key p l lo (advance key cursor (page key p l cursor n)) =
      segment key p l lo cursor ++ page key p l cursor n := by
  cases hlast : (page key p l cursor n).getLast? with
  | none =>
    rw [List.getLast?_eq_none_iff.1 hlast]
    simp [advance]
  | some x =>
    obtain ⟨-, hpx, hcx⟩ := mem_page (List.mem_of_getLast? hlast)
    have hadv : advance key cursor (page key p l cursor n) = key x := by
      rw [advance, hlast]; rfl
    rw [hadv, (h.filter _).split cursor (l := segment key p l lo (key x))]
    congr 1
    · rw [segment, segment, List.filter_filter]
      refine List.filter_congr fun y _ => ?_
      rcases Nat.lt_or_ge cursor (key y) with hy | hy
      · simp [show ¬key y ≤ cursor by omega]
      · simp [hy, show key y ≤ key x by omega]
    · rw [page, (h.filter _).take_eq_filter hlast, segment, List.filter_filter, List.filter_filter]
      refine List.filter_congr fun y _ => ?_
      rcases Nat.lt_or_ge cursor (key y) with hy | hy
      · simp [hy, show lo < key y by omega, Bool.and_comm]
      · simp [show ¬cursor < key y by omega]

/-- The entries that a page leaves are those after its last one. -/
theorem rest_page (h : Ordered key l) :
    (l.filter fun x => p x && advance key cursor (page key p l cursor n) < key x) =
      (l.filter fun x => p x && cursor < key x).drop n := by
  have hcut := List.take_append_drop n (l.filter fun x => p x && cursor < key x)
  cases hlast : (page key p l cursor n).getLast? with
  | none =>
    have hnil : page key p l cursor n = [] := List.getLast?_eq_none_iff.1 hlast
    rw [hnil]
    rw [page] at hnil
    rw [hnil, List.nil_append] at hcut
    rw [hcut]
    rfl
  | some x =>
    obtain ⟨-, -, hcx⟩ := mem_page (List.mem_of_getLast? hlast)
    have hadv : advance key cursor (page key p l cursor n) = key x := by
      rw [advance, hlast]; rfl
    have hsplit := (h.filter fun x => p x && cursor < key x).split (key x)
    rw [← (h.filter _).take_eq_filter hlast] at hsplit
    rw [hadv, List.append_cancel_left (hcut.trans hsplit), List.filter_filter]
    refine List.filter_congr fun y _ => ?_
    rcases Nat.lt_or_ge (key x) (key y) with hy | hy
    · simp [hy, show cursor < key y by omega]
    · simp [show ¬key x < key y by omega]

/-- When nothing is left after the cursor, everything has been delivered. -/
theorem segment_of_rest (h : Ordered key l)
    (hrest : (l.filter fun x => p x && cursor < key x) = []) :
    segment key p l lo cursor = l.filter fun x => p x && lo < key x := by
  have hhigh : (l.filter fun x => p x && lo < key x).filter (fun x => cursor < key x) = [] := by
    rw [List.filter_eq_nil_iff] at hrest ⊢
    intro y hy
    have := hrest y (List.mem_of_mem_filter hy)
    have hp := (List.mem_filter.1 hy).2
    simp only [Bool.and_eq_true, decide_eq_true_eq] at hp this ⊢
    exact fun hc => this ⟨hp.1, hc⟩
  rw [(h.filter _).split cursor (l := l.filter fun x => p x && lo < key x), hhigh, List.append_nil,
    segment, List.filter_filter]
  refine List.filter_congr fun y _ => ?_
  simp [Bool.and_comm, Bool.and_left_comm]

theorem segment_self : segment key p l lo lo = [] := by
  rw [segment, List.filter_eq_nil_iff]
  intro x _
  simp only [Bool.and_eq_true, decide_eq_true_eq]
  omega

/-- What is added past the cursor does not change the delivered part. -/
theorem segment_append (hnew : ∀ x ∈ l', cursor < key x) :
    segment key p (l ++ l') lo cursor = segment key p l lo cursor := by
  rw [segment, List.filter_append, ← segment, List.append_right_eq_self, List.filter_eq_nil_iff]
  intro x hx
  have := hnew x hx
  simp only [Bool.and_eq_true, decide_eq_true_eq]
  omega

/-- An entry with nothing selected between the cursor and it is delivered next. -/
theorem segment_next (h : Ordered key l) (hlo : lo ≤ cursor) {x : α} (hx : x ∈ l)
    (hcx : cursor < key x)
    (hnext : ∀ y ∈ l, p y = true → cursor < key y → key y ≤ key x → y = x) :
    segment key p l lo (key x) = segment key p l lo cursor ++ if p x then [x] else [] := by
  obtain ⟨before, after, rfl⟩ := List.append_of_mem hx
  obtain ⟨-, htail, hcross⟩ := List.pairwise_append.1 h
  have hbefore : segment key p before lo (key x) = segment key p before lo cursor := by
    refine List.filter_congr fun y hy => ?_
    have hlt := hcross y hy x List.mem_cons_self
    have hskip : p y = true → ¬cursor < key y := fun hp hc => by
      rw [hnext y (List.mem_append_left _ hy) hp hc (by omega)] at hlt
      omega
    cases hp : p y with
    | false => rfl
    | true =>
      have := hskip hp
      simp [show key y ≤ cursor by omega, show key y ≤ key x by omega]
  have hafter : ∀ hi, hi ≤ key x → segment key p after lo hi = [] := by
    intro hi hhi
    rw [segment, List.filter_eq_nil_iff]
    intro y hy
    have := (List.pairwise_cons.1 htail).1 y hy
    simp only [Bool.and_eq_true, decide_eq_true_eq]
    omega
  have hself : ∀ hi, segment key p (x :: after) lo hi =
      (if p x && (lo < key x && key x ≤ hi) then [x] else []) ++ segment key p after lo hi := by
    intro hi
    rw [segment, List.filter_cons, segment]
    split <;> rfl
  have hcut : ∀ hi, segment key p (before ++ x :: after) lo hi =
      segment key p before lo hi ++ segment key p (x :: after) lo hi := fun hi => List.filter_append ..
  rw [hcut, hcut, hself, hself, hbefore, hafter _ (Nat.le_refl _), hafter _ (by omega)]
  simp [show ¬key x ≤ cursor by omega, show lo < key x by omega]

/-- A page leaves out nothing before one of its entries. -/
theorem mem_page_of_le (h : Ordered key l) {x y : α} (hx : x ∈ page key p l cursor n) (hy : y ∈ l)
    (hpy : p y = true) (hcy : cursor < key y) (hle : key y ≤ key x) : y ∈ page key p l cursor n := by
  have hy' : y ∈ l.filter fun x => p x && cursor < key x := by
    simpa [List.mem_filter, hy, hpy] using hcy
  have hcut : Ordered key (page key p l cursor n ++
      (l.filter fun x => p x && cursor < key x).drop n) := by
    rw [page, List.take_append_drop]
    exact h.filter _
  rw [← List.take_append_drop n (l.filter _)] at hy'
  rcases List.mem_append.1 hy' with hy' | hy'
  · exact hy'
  · have := (List.pairwise_append.1 hcut).2.2 x hx y hy'
    omega

end HermesOps.Schemes.Log
