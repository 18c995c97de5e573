import Mathlib.Data.List.Sort
import Mathlib.Data.List.Nodup

/-! Listings in pages. A page has the first rows whose keys are after a cursor, and the cursor of the next
    page is the key of its last row. The table may change between two pages. What the pages show together
    is in the order of the keys and repeats none, and a key that stays in the table is not missed. -/

namespace HermesOps.Schemes.Pagination

variable {α κ : Type} [LinearOrder κ]

/-- The key is after the cursor. -/
def Past (cursor : Option κ) (k : κ) : Prop := ∀ c, cursor = some c → c < k

instance (cursor : Option κ) : DecidablePred (Past cursor) := fun k =>
  match cursor with
  | none => .isTrue fun _ h => by cases h
  | some c => if h : c < k then .isTrue fun _ hc => by cases hc; exact h
    else .isFalse fun hall => h (hall c rfl)

/-- The rows after the cursor, in the order of their keys. -/
def found (key : α → κ) (cursor : Option κ) (rows : List α) : List α :=
  (rows.filter fun x => Past cursor (key x)).insertionSort fun a b => key a ≤ key b

structure Page (α κ : Type) where
  items : List α
  next : Option κ

/-- A page asks for one row more than it shows, to see whether there are more. -/
def page (key : α → κ) (limit : Nat) (cursor : Option κ) (rows : List α) : Page α κ :=
  let rows := (found key cursor rows).take (limit + 1)
  ⟨rows.take limit, if limit < rows.length then (rows.take limit).getLast?.map key else none⟩

/-- The pages that are read from the tables in turn; nothing unless one of them is the last. -/
def traverse (key : α → κ) (limit : Nat) : Option κ → List (List α) → Option (List α)
  | _, [] => none
  | cursor, rows :: later =>
    match (page key limit cursor rows).next with
    | none => some (page key limit cursor rows).items
    | some k => (traverse key limit (some k) later).map ((page key limit cursor rows).items ++ ·)

variable {key : α → κ} {limit : Nat} {cursor : Option κ} {rows : List α} {x : α} {k : κ}

/-! ### The rows after a cursor -/

theorem past_none (k : κ) : Past none k := fun _ h => by cases h

theorem past_some {c : κ} : Past (some c) k ↔ c < k :=
  ⟨fun h => h c rfl, fun h d hd => by cases hd; exact h⟩

theorem mem_found : x ∈ found key cursor rows ↔ x ∈ rows ∧ Past cursor (key x) := by
  rw [found, List.mem_insertionSort, List.mem_filter, decide_eq_true_eq]

theorem length_found : (found key cursor rows).length = (rows.filter fun x => Past cursor (key x)).length :=
  List.length_insertionSort _ _

/-- The rows of a table with distinct keys come in strict order. -/
theorem found_sorted (hrows : (rows.map key).Nodup) : ((found key cursor rows).map key).Pairwise
    (· < ·) := by
  have hle : ((found key cursor rows).map key).Pairwise (· ≤ ·) := by
    rw [List.pairwise_map]
    exact List.pairwise_insertionSort _ _
  have hnodup : ((found key cursor rows).map key).Nodup := by
    have hperm : ((found key cursor rows).map key).Perm
      ((rows.filter fun x => Past cursor (key x)).map key) :=
      (List.perm_insertionSort _ _).map key
    exact hperm.nodup_iff.2 (hrows.sublist (List.filter_sublist.map key))
  exact (hle.and hnodup).imp fun h => lt_of_le_of_ne h.1 h.2

/-! ### One page -/

theorem page_items : (page key limit cursor rows).items = (found key cursor rows).take limit := by
  rw [page, List.take_take, Nat.min_eq_left (Nat.le_succ limit)]

theorem page_next : (page key limit cursor rows).next =
    if limit < (found key cursor rows).length then ((found key cursor rows).take limit).getLast?.map key
    else none := by
  rw [page]
  dsimp only
  rw [List.take_take, Nat.min_eq_left (Nat.le_succ limit), List.length_take]
  by_cases h : limit < (found key cursor rows).length
  · rw [if_pos h, if_pos (by omega)]
  · rw [if_neg h, if_neg (by omega)]

/-- The last page has all the rows that are left. -/
theorem page_last (hlimit : 1 ≤ limit) (h : (page key limit cursor rows).next = none) :
    (page key limit cursor rows).items = found key cursor rows := by
  rw [page_next] at h
  rw [page_items]
  split at h
  · rename_i hmore
    rw [Option.map_eq_none_iff, List.getLast?_eq_none_iff, List.take_eq_nil_iff] at h
    rcases h with h | h
    · omega
    · rw [h] at hmore
      exact absurd hmore (Nat.not_lt_zero _)
  · exact List.take_of_length_le (by omega)

/-- Another page ends with the row of its cursor. -/
theorem page_more (h : (page key limit cursor rows).next = some k) :
    limit < (found key cursor rows).length ∧ ∃ x, (page key limit cursor rows).items.getLast? = some x ∧
    key x = k := by
  rw [page_next] at h
  rw [page_items]
  split at h
  · rename_i hmore
    obtain ⟨x, hx, rfl⟩ := Option.map_eq_some_iff.1 h
    exact ⟨hmore, x, hx, rfl⟩
  · cases h

theorem mem_page (h : x ∈ (page key limit cursor rows).items) : x ∈ rows ∧ Past cursor (key x) := by
  rw [page_items] at h
  exact mem_found.1 (List.mem_of_mem_take h)

theorem page_sorted (hrows : (rows.map key).Nodup) :
    ((page key limit cursor rows).items.map key).Pairwise (· < ·) := by
  rw [page_items, List.map_take]
  exact (found_sorted hrows).sublist (List.take_sublist _ _)

/-- The rows of a page come up to its cursor, and the others come after it. -/
theorem page_split (hrows : (rows.map key).Nodup) (h : (page key limit cursor rows).next = some k) :
    (∀ x ∈ (page key limit cursor rows).items, key x ≤ k) ∧
      ∀ x ∈ rows, Past cursor (key x) → x ∈ (page key limit cursor rows).items ∨ k < key x := by
  obtain ⟨-, last, hlast, rfl⟩ := page_more h
  have hsorted : ((found key cursor rows).map key).Pairwise (· < ·) := found_sorted hrows
  rw [page_items] at hlast ⊢
  obtain ⟨front, hfront⟩ := List.getLast?_eq_some_iff.1 hlast
  have hsplit := List.take_append_drop limit (found key cursor rows)
  rw [← hsplit, List.map_append, List.pairwise_append] at hsorted
  obtain ⟨htake, -, hcross⟩ := hsorted
  refine ⟨?_, ?_⟩
  · intro x hx
    rw [hfront, List.map_append, List.pairwise_append] at htake
    rw [hfront, List.mem_append, List.mem_singleton] at hx
    rcases hx with hx | rfl
    · exact (htake.2.2 _ (List.mem_map_of_mem hx) _ (by simp)).le
    · exact le_rfl
  · intro x hx hpast
    have hmem : x ∈ found key cursor rows := mem_found.2 ⟨hx, hpast⟩
    rw [← hsplit, List.mem_append] at hmem
    rcases hmem with hmem | hmem
    · exact .inl hmem
    · exact .inr (hcross _ (List.mem_map_of_mem (List.mem_of_getLast? hlast)) _ (List.mem_map_of_mem hmem))

/-! ### All pages -/

variable {states : List (List α)} {shown : List α}

theorem traverse_last (h : (page key limit cursor rows).next = none) :
    traverse key limit cursor (rows :: states) = some (page key limit cursor rows).items := by
  rw [traverse, h]

theorem traverse_next (h : (page key limit cursor rows).next = some k) :
    traverse key limit cursor (rows :: states) =
      (traverse key limit (some k) states).map ((page key limit cursor rows).items ++ ·) := by
  rw [traverse, h]

theorem traverse_some (h : traverse key limit cursor (rows :: states) = some shown) :
    ((page key limit cursor rows).next = none ∧ shown = (page key limit cursor rows).items) ∨
      ∃ k rest, (page key limit cursor rows).next = some k ∧ traverse key limit
        (some k) states = some rest ∧
        shown = (page key limit cursor rows).items ++ rest := by
  rw [traverse] at h
  split at h
  · rename_i hnext
    exact .inl ⟨hnext, (Option.some.inj h).symm⟩
  · rename_i k hnext
    obtain ⟨rest, hrest, rfl⟩ := Option.map_eq_some_iff.1 h
    exact .inr ⟨k, rest, hnext, hrest, rfl⟩

/-- What is shown comes from one of the tables and is after the cursor. -/
theorem traverse_mem (hstates : ∀ rows ∈ states, (rows.map key).Nodup)
    (h : traverse key limit cursor states = some shown) (hx : x ∈ shown) :
    (∃ rows ∈ states, x ∈ rows) ∧ Past cursor (key x) := by
  induction states generalizing cursor shown with
  | nil => cases h
  | cons rows states ih =>
    rcases traverse_some h with ⟨-, rfl⟩ | ⟨k, rest, hnext, hrest, rfl⟩
    · exact ⟨⟨rows, List.mem_cons_self, (mem_page hx).1⟩, (mem_page hx).2⟩
    · rcases List.mem_append.1 hx with hx | hx
      · exact ⟨⟨rows, List.mem_cons_self, (mem_page hx).1⟩, (mem_page hx).2⟩
      · obtain ⟨⟨table, htable, hmem⟩, hpast⟩ :=
          ih (fun rows hrows => hstates rows (List.mem_cons_of_mem _ hrows)) hrest hx
        refine ⟨⟨table, List.mem_cons_of_mem _ htable, hmem⟩, fun c hc => ?_⟩
        obtain ⟨-, last, hlast, rfl⟩ := page_more hnext
        exact ((mem_page (List.mem_of_getLast? hlast)).2 c hc).trans (past_some.1 hpast)

/-- No key is shown twice, and the keys are in order. -/
theorem traverse_sorted (hstates : ∀ rows ∈ states, (rows.map key).Nodup)
    (h : traverse key limit cursor states = some shown) : (shown.map key).Pairwise (· < ·) := by
  induction states generalizing cursor shown with
  | nil => cases h
  | cons rows states ih =>
    have hrows := hstates rows List.mem_cons_self
    have hlater := fun rows hrows => hstates rows (List.mem_cons_of_mem _ hrows)
    rcases traverse_some h with ⟨-, rfl⟩ | ⟨k, rest, hnext, hrest, rfl⟩
    · exact page_sorted hrows
    · rw [List.map_append, List.pairwise_append]
      refine ⟨page_sorted hrows, ih hlater hrest, ?_⟩
      intro a ha b hb
      obtain ⟨x, hx, rfl⟩ := List.mem_map.1 ha
      obtain ⟨z, hz, rfl⟩ := List.mem_map.1 hb
      exact ((page_split hrows hnext).1 x hx).trans_lt (past_some.1 (traverse_mem hlater hrest hz).2)

/-- A key that is in every table is shown. -/
theorem traverse_complete (hlimit : 1 ≤ limit) (hstates : ∀ rows ∈ states, (rows.map key).Nodup)
    (h : traverse key limit cursor states = some shown) (hpast : Past cursor k)
    (hk : ∀ rows ∈ states, k ∈ rows.map key) : k ∈ shown.map key := by
  induction states generalizing cursor shown with
  | nil => cases h
  | cons rows states ih =>
    have hrows := hstates rows List.mem_cons_self
    obtain ⟨x, hx, rfl⟩ := List.mem_map.1 (hk rows List.mem_cons_self)
    rcases traverse_some h with ⟨hnext, rfl⟩ | ⟨c, rest, hnext, hrest, rfl⟩
    · rw [page_last hlimit hnext]
      exact List.mem_map_of_mem (mem_found.2 ⟨hx, hpast⟩)
    · rw [List.map_append, List.mem_append]
      rcases (page_split hrows hnext).2 x hx hpast with hmem | hlater
      · exact .inl (List.mem_map_of_mem hmem)
      · exact .inr (ih (fun rows hrows => hstates rows (List.mem_cons_of_mem _ hrows)) hrest
          (past_some.2 hlater)
          fun rows hrows => hk rows (List.mem_cons_of_mem _ hrows))

omit [LinearOrder κ] in
theorem length_le_filter {l keys : List κ} {p : κ → Bool} (hl : l.Nodup)
    (h : ∀ a ∈ l, a ∈ keys ∧ p a = true) :
    l.length ≤ (keys.filter p).length :=
  (List.subperm_of_subset hl fun a ha => List.mem_filter.2 (h a ha)).length_le

theorem length_found_le {keys : List κ} (hrows : (rows.map key).Nodup) (hkeys : ∀ x ∈ rows, key x ∈ keys) :
    (found key cursor rows).length ≤ (keys.filter fun a => Past cursor a).length := by
  rw [← List.length_map key]
  refine length_le_filter ((found_sorted hrows).imp fun h => h.ne) fun a ha => ?_
  obtain ⟨x, hx, rfl⟩ := List.mem_map.1 ha
  obtain ⟨hmem, hpast⟩ := mem_found.1 hx
  exact ⟨hkeys x hmem, decide_eq_true hpast⟩

/-- A page that is not the last takes its keys away from those that are still to come. -/
theorem page_takes {keys : List κ} (hrows : (rows.map key).Nodup) (hkeys : ∀ x ∈ rows, key x ∈ keys)
    (hnext : (page key limit cursor rows).next = some k) :
    (keys.filter fun a => Past (some k) a).length + limit ≤
    (keys.filter fun a => Past cursor a).length := by
  obtain ⟨hupTo, -⟩ := page_split hrows hnext
  obtain ⟨hmore, last, hlast, rfl⟩ := page_more hnext
  have hlength : ((page key limit cursor rows).items.map key).length = limit := by
    rw [List.length_map, page_items, List.length_take]
    omega
  have hcursor : ∀ a, Past (some (key last)) a → Past cursor a := fun a ha c hc =>
    ((mem_page (List.mem_of_getLast? hlast)).2 c hc).trans (past_some.1 ha)
  have hshown : ((page key limit cursor rows).items.map key).length ≤
      ((keys.filter fun a => Past cursor a).filter fun a => !decide (Past (some (key last)) a)).length := by
    refine length_le_filter ((page_sorted hrows).imp fun h => h.ne) fun a ha => ?_
    obtain ⟨x, hx, rfl⟩ := List.mem_map.1 ha
    obtain ⟨hmem, hpast⟩ := mem_page hx
    have hnot : ¬Past (some (key last)) (key x) := fun h => absurd (past_some.1 h) (hupTo x hx).not_gt
    exact ⟨List.mem_filter.2 ⟨hkeys x hmem, decide_eq_true hpast⟩, by rw [decide_eq_false hnot]; rfl⟩
  have hrest : (keys.filter fun a => Past (some (key last)) a) =
      (keys.filter fun a => Past cursor a).filter fun a => Past (some (key last)) a := by
    rw [List.filter_filter]
    refine List.filter_congr fun a _ => ?_
    by_cases ha : Past (some (key last)) a
    · simp [ha, hcursor a ha]
    · simp [ha]
  have htotal := List.length_eq_length_filter_add (l := keys.filter fun a => Past cursor a)
    fun a => decide (Past (some (key last)) a)
  rw [← hrest] at htotal
  omega

/-- With enough pages for all the keys that the tables ever have, one of them is the last. -/
theorem traverse_isSome (keys : List κ) (hstates : ∀ rows ∈ states, (rows.map key).Nodup)
    (hkeys : ∀ rows ∈ states, ∀ x ∈ rows, key x ∈ keys) (hsome : states ≠ [])
    (hcount : (keys.filter fun a => Past cursor a).length ≤ limit * states.length) :
    (traverse key limit cursor states).isSome := by
  induction states generalizing cursor with
  | nil => exact absurd rfl hsome
  | cons rows states ih =>
    have hrows := hstates rows List.mem_cons_self
    have hrowKeys := hkeys rows List.mem_cons_self
    rw [List.length_cons, Nat.mul_succ] at hcount
    rw [traverse]
    split
    · rfl
    · rename_i k hnext
      have htakes := page_takes hrows hrowKeys hnext
      rw [Option.isSome_map]
      refine ih (fun rows h => hstates rows (List.mem_cons_of_mem _ h))
        (fun rows h => hkeys rows (List.mem_cons_of_mem _ h)) ?_ (by omega)
      rintro rfl
      have hmore := (page_more hnext).1
      have hall : (found key cursor rows).length ≤ (keys.filter fun a => Past cursor a).length :=
        length_found_le hrows hrowKeys
      rw [List.length_nil, Nat.mul_zero] at hcount
      omega

end HermesOps.Schemes.Pagination
