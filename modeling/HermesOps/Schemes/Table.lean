import Mathlib.Data.List.Nodup
import Mathlib.Data.List.Sort
import Mathlib.Data.Option.Basic

/-! A relational table with a primary key, as a list of keyed rows in insertion order. The key
    uniqueness is a field, so a table with two rows under one key cannot be built. Every operation
    is described by what `get?` returns after it, and `All` packages "every row satisfies" with one
    rule per write, so that a proof about a transaction never opens the list of rows. -/

namespace HermesOps.Schemes

/-- Rows under distinct keys, in insertion order. -/
structure Table (κ ρ : Type) where
  rows : List (κ × ρ)
  keys : (rows.map Prod.fst).Nodup

namespace Table

variable {κ ρ : Type} [DecidableEq κ]

def empty : Table κ ρ := ⟨[], List.nodup_nil⟩

/-- The row stored under `k`. -/
def get? (t : Table κ ρ) (k : κ) : Option ρ :=
  (t.rows.find? fun x => x.1 = k).map Prod.snd

/-- `INSERT`: refused when the key is taken. -/
def insert (t : Table κ ρ) (k : κ) (r : ρ) : Option (Table κ ρ) :=
  if h : k ∈ t.rows.map Prod.fst then none
  else some ⟨t.rows ++ [(k, r)], by
    rw [List.map_append, List.nodup_append]
    exact ⟨t.keys, by simp, by rintro a ha b hb rfl; simp_all⟩⟩

/-- `UPDATE … SET f WHERE p`. -/
def update (t : Table κ ρ) (p : κ → ρ → Bool) (f : ρ → ρ) : Table κ ρ where
  rows := t.rows.map fun x => if p x.1 x.2 then (x.1, f x.2) else x
  keys := by
    have h : (Prod.fst ∘ fun x : κ × ρ => if p x.1 x.2 then (x.1, f x.2) else x) = Prod.fst := by
      funext x; simp only [Function.comp]; split <;> rfl
    rw [List.map_map, h]; exact t.keys

/-- `UPDATE … SET f WHERE key = k`. -/
def updateAt (t : Table κ ρ) (k : κ) (f : ρ → ρ) : Table κ ρ := t.update (fun j _ => j = k) f

/-- `DELETE … WHERE p`. -/
def delete (t : Table κ ρ) (p : κ → ρ → Bool) : Table κ ρ where
  rows := t.rows.filter fun x => !p x.1 x.2
  keys := (List.filter_sublist.map _).nodup t.keys

/-- `SELECT * WHERE p`. -/
def select (t : Table κ ρ) (p : κ → ρ → Bool) : List (κ × ρ) := t.rows.filter fun x => p x.1 x.2

/-- `SELECT EXISTS (… WHERE p)`. -/
def any (t : Table κ ρ) (p : κ → ρ → Bool) : Bool := t.rows.any fun x => p x.1 x.2

/-- `SELECT COUNT(*) WHERE p`. -/
def count (t : Table κ ρ) (p : κ → ρ → Bool) : Nat := (t.select p).length

/-! ### What `get?` returns after a write -/

theorem mem_rows_iff {t : Table κ ρ} {k : κ} {r : ρ} : (k, r) ∈ t.rows ↔ t.get? k = some r := by
  unfold get?
  constructor
  · intro h
    obtain ⟨x, hx⟩ : ∃ x, t.rows.find? (fun x => x.1 = k) = some x := by
      rw [← Option.isSome_iff_exists, List.find?_isSome]
      exact ⟨(k, r), h, by simp⟩
    have hmem := List.mem_of_find?_eq_some hx
    have hkey : x.1 = k := by simpa using List.find?_some hx
    have : x = (k, r) := List.inj_on_of_nodup_map t.keys hmem h hkey
    rw [hx, this]; rfl
  · intro h
    rw [Option.map_eq_some_iff] at h
    obtain ⟨x, hx, rfl⟩ := h
    have hkey : x.1 = k := by simpa using List.find?_some hx
    rw [← hkey]; exact List.mem_of_find?_eq_some hx

theorem get?_eq_none_iff {t : Table κ ρ} {k : κ} :
    t.get? k = none ↔ k ∉ t.rows.map Prod.fst := by
  rw [Option.eq_none_iff_forall_ne_some]
  simp only [ne_eq, ← mem_rows_iff, List.mem_map, not_exists, not_and]
  constructor
  · rintro h ⟨j, r⟩ hx rfl; exact h r hx
  · rintro h r hx; exact h (k, r) hx rfl

@[simp] theorem get?_empty (k : κ) : (empty : Table κ ρ).get? k = none := rfl

@[simp] theorem get?_update (t : Table κ ρ) (p : κ → ρ → Bool) (f : ρ → ρ) (k : κ) :
    (t.update p f).get? k = (t.get? k).map fun r => if p k r then f r else r := by
  ext r
  rw [← mem_rows_iff, Option.map_eq_some_iff]
  simp only [update, List.mem_map, ← mem_rows_iff]
  constructor
  · rintro ⟨⟨j, r₀⟩, hmem, heq⟩
    refine ⟨r₀, ?_⟩
    split at heq <;> simp_all
  · rintro ⟨r₀, hmem, rfl⟩
    refine ⟨(k, r₀), hmem, ?_⟩
    split <;> simp_all

@[simp] theorem get?_updateAt (t : Table κ ρ) (f : ρ → ρ) (k j : κ) :
    (t.updateAt k f).get? j = if j = k then (t.get? j).map f else t.get? j := by
  rw [updateAt, get?_update]
  split <;> simp_all

theorem get?_insert {t t' : Table κ ρ} {k : κ} {r : ρ} (h : t.insert k r = some t') (j : κ) :
    t'.get? j = if j = k then some r else t.get? j := by
  unfold insert at h
  split at h
  · cases h
  · rename_i hk
    cases h
    ext r'
    rw [← mem_rows_iff]
    have hnone := get?_eq_none_iff.2 hk
    by_cases hj : j = k
    · subst hj
      simp only [List.mem_append, mem_rows_iff, hnone, List.mem_singleton, Prod.mk.injEq, true_and,
        if_true, Option.some.injEq, reduceCtorEq, false_or, eq_comm]
    · simp [hj, mem_rows_iff]

/-- An accepted `INSERT` found no row under its key. -/
theorem get?_of_insert {t t' : Table κ ρ} {k : κ} {r : ρ} (h : t.insert k r = some t') :
    t.get? k = none := by
  unfold insert at h
  split at h
  · cases h
  · rename_i hk; exact get?_eq_none_iff.2 hk

/-- A refused `INSERT` found one. -/
theorem isSome_of_insert {t : Table κ ρ} {k : κ} {r : ρ} (h : t.insert k r = none) :
    (t.get? k).isSome := by
  unfold insert at h
  split at h
  · rename_i hk
    by_contra hn
    exact get?_eq_none_iff.1 (by simpa using hn) hk
  · cases h

theorem rows_insert {t t' : Table κ ρ} {k : κ} {r : ρ} (h : t.insert k r = some t') :
    t'.rows = t.rows ++ [(k, r)] := by
  unfold insert at h
  split at h
  · cases h
  · cases h; rfl

/-- A free key takes an `INSERT`. -/
theorem insert_of_get?_eq_none {t : Table κ ρ} {k : κ} (h : t.get? k = none) (r : ρ) :
    ∃ t', t.insert k r = some t' := by
  cases hi : t.insert k r with
  | some t' => exact ⟨t', rfl⟩
  | none =>
    have hsome := isSome_of_insert hi
    rw [h] at hsome
    cases hsome

@[simp] theorem get?_delete (t : Table κ ρ) (p : κ → ρ → Bool) (k : κ) :
    (t.delete p).get? k = (t.get? k).filter fun r => !p k r := by
  ext r
  rw [← mem_rows_iff]
  simp only [delete, List.mem_filter, mem_rows_iff, Option.filter_eq_some_iff]

/-- `DELETE … WHERE key = k`. -/
theorem get?_delete_key (t : Table κ ρ) (k j : κ) :
    (t.delete fun i _ => i = k).get? j = if j = k then none else t.get? j := by
  rw [get?_delete]
  split
  · rename_i hj; simp [hj]
  · rename_i hj; cases t.get? j <;> simp [hj]

/-! ### Reading by predicate -/

theorem any_iff {t : Table κ ρ} {p : κ → ρ → Bool} :
    t.any p = true ↔ ∃ k r, t.get? k = some r ∧ p k r = true := by
  simp only [any, List.any_eq_true, Prod.exists, mem_rows_iff]

theorem any_eq_false_iff {t : Table κ ρ} {p : κ → ρ → Bool} :
    t.any p = false ↔ ∀ k r, t.get? k = some r → p k r = false := by
  rw [← Bool.not_eq_true, any_iff]; push Not; simp

theorem mem_select {t : Table κ ρ} {p : κ → ρ → Bool} {k : κ} {r : ρ} :
    (k, r) ∈ t.select p ↔ t.get? k = some r ∧ p k r = true := by
  simp only [select, List.mem_filter, mem_rows_iff]

theorem count_eq_zero_iff {t : Table κ ρ} {p : κ → ρ → Bool} :
    t.count p = 0 ↔ ∀ k r, t.get? k = some r → p k r = false := by
  rw [count, select, List.length_eq_zero_iff, List.filter_eq_nil_iff]
  simp only [Prod.forall, mem_rows_iff, Bool.not_eq_true]

theorem count_pos_iff {t : Table κ ρ} {p : κ → ρ → Bool} :
    0 < t.count p ↔ ∃ k r, t.get? k = some r ∧ p k r = true := by
  rw [Nat.pos_iff_ne_zero, Ne, count_eq_zero_iff]; push Not; simp

section Columns

omit [DecidableEq κ]

/-- A write that neither the answers to `q` nor the column `g` notices keeps that column. -/
theorem map_select_update {α : Type} {t : Table κ ρ} {p q : κ → ρ → Bool} {f : ρ → ρ} {g : ρ → α}
    (h : ∀ k r, p k r = true → q k (f r) = q k r ∧ g (f r) = g r) :
    ((t.update p f).select q).map (fun x => g x.2) = (t.select q).map fun x => g x.2 := by
  have hx : ∀ x : κ × ρ, q (if p x.1 x.2 then (x.1, f x.2) else x).1
      (if p x.1 x.2 then (x.1, f x.2) else x).2 = q x.1 x.2 ∧
        g (if p x.1 x.2 then (x.1, f x.2) else x).2 = g x.2 := by
    intro x
    split
    · rename_i hp; exact h x.1 x.2 hp
    · exact ⟨rfl, rfl⟩
  simp only [select, update, List.filter_map, List.map_map, Function.comp_def, hx]

theorem keys_update (t : Table κ ρ) (p : κ → ρ → Bool) (f : ρ → ρ) :
    (t.update p f).rows.map Prod.fst = t.rows.map Prod.fst := by
  rw [update, List.map_map]
  refine List.map_congr_left fun x _ => ?_
  simp only [Function.comp]
  split <;> rfl

theorem count_update_of {t : Table κ ρ} {p q : κ → ρ → Bool} {f : ρ → ρ}
    (h : ∀ k r, p k r = true → q k (f r) = q k r) : (t.update p f).count q = t.count q := by
  have hcol := map_select_update (t := t) (g := fun _ => ()) fun k r hp => ⟨h k r hp, rfl⟩
  simpa [count] using congrArg List.length hcol

theorem nodup_select_keys (t : Table κ ρ) (p : κ → ρ → Bool) :
    ((t.select p).map Prod.fst).Nodup :=
  (List.filter_sublist.map _).nodup t.keys

end Columns

/-- The same for a write that answers for the stored rows only. -/
theorem map_select_updateAt {α : Type} {t : Table κ ρ} {k : κ} {q : κ → ρ → Bool} {f : ρ → ρ} {g : ρ → α}
    (h : ∀ r, t.get? k = some r → q k (f r) = q k r ∧ g (f r) = g r) :
    ((t.updateAt k f).select q).map (fun x => g x.2) = (t.select q).map fun x => g x.2 := by
  have hx : ∀ x ∈ t.rows, q (if decide (x.1 = k) then (x.1, f x.2) else x).1
      (if decide (x.1 = k) then (x.1, f x.2) else x).2 = q x.1 x.2 ∧
        g (if decide (x.1 = k) then (x.1, f x.2) else x).2 = g x.2 := by
    rintro ⟨j, r⟩ hmem
    by_cases hj : j = k
    · subst hj
      simpa using h r (mem_rows_iff.1 hmem)
    · simp [hj]
  simp only [select, updateAt, update, List.filter_map, List.map_map]
  rw [show t.rows.filter ((fun x => q x.1 x.2) ∘ fun x => if decide (x.1 = k) then (x.1, f x.2) else x) =
      t.rows.filter fun x => q x.1 x.2 from List.filter_congr fun x hmem => (hx x hmem).1]
  exact List.map_congr_left fun x hmem => (hx x (List.mem_of_mem_filter hmem)).2

/-! ### Counting -/

/-- Fewer keys answer to `q'` than to `q`, up to the keys in `extra`. -/
theorem count_le_add {t t' : Table κ ρ} {q q' : κ → ρ → Bool} (extra : List κ)
    (h : ∀ k r', t'.get? k = some r' → q' k r' = true →
      k ∈ extra ∨ ∃ r, t.get? k = some r ∧ q k r = true) :
    t'.count q' ≤ extra.length + t.count q := by
  have hsub : (t'.select q').map Prod.fst ⊆ extra ++ (t.select q).map Prod.fst := by
    intro k hk
    obtain ⟨⟨j, r'⟩, hx, rfl⟩ := List.mem_map.1 hk
    obtain ⟨hr', hq'⟩ := mem_select.1 hx
    rw [List.mem_append]
    rcases h j r' hr' hq' with hj | ⟨r, hr, hq⟩
    · exact .inl hj
    · exact .inr (List.mem_map.2 ⟨(j, r), mem_select.2 ⟨hr, hq⟩, rfl⟩)
  have hlen := (nodup_select_keys t' q').length_le_of_subset hsub
  rw [List.length_map, List.length_append, List.length_map] at hlen
  exact hlen

theorem count_le {t t' : Table κ ρ} {q q' : κ → ρ → Bool}
    (h : ∀ k r', t'.get? k = some r' → q' k r' = true → ∃ r, t.get? k = some r ∧ q k r = true) :
    t'.count q' ≤ t.count q := by
  have hle := count_le_add [] fun k r' hr' hq' => .inr (h k r' hr' hq')
  simpa using hle

/-- Only the row under `j` may be new among the answers. -/
theorem count_le_succ {t t' : Table κ ρ} {q q' : κ → ρ → Bool} (j : κ)
    (h : ∀ k r', t'.get? k = some r' → q' k r' = true →
      k = j ∨ ∃ r, t.get? k = some r ∧ q k r = true) :
    t'.count q' ≤ t.count q + 1 := by
  have hle := count_le_add [j] fun k r' hr' hq' => by
    rcases h k r' hr' hq' with hk | hk
    · exact .inl (by simp [hk])
    · exact .inr hk
  rw [List.length_singleton, Nat.add_comm] at hle
  exact hle

/-- A row that answers no more makes the answers fewer, once none is new. -/
theorem count_lt {t t' : Table κ ρ} {q q' : κ → ρ → Bool} (j : κ)
    (hj : ∃ r, t.get? j = some r ∧ q j r = true)
    (hj' : ∀ r', t'.get? j = some r' → q' j r' = false)
    (h : ∀ k r', t'.get? k = some r' → q' k r' = true → ∃ r, t.get? k = some r ∧ q k r = true) :
    t'.count q' < t.count q := by
  have hout : j ∉ (t'.select q').map Prod.fst := by
    intro hmem
    obtain ⟨⟨k, r'⟩, hx, rfl⟩ := List.mem_map.1 hmem
    obtain ⟨hr', hq'⟩ := mem_select.1 hx
    rw [hj' r' hr'] at hq'
    cases hq'
  have hsub : j :: (t'.select q').map Prod.fst ⊆ (t.select q).map Prod.fst := by
    intro k hk
    have hfound : ∃ r, t.get? k = some r ∧ q k r = true := by
      rcases List.mem_cons.1 hk with rfl | hk
      · exact hj
      · obtain ⟨⟨i, r'⟩, hx, rfl⟩ := List.mem_map.1 hk
        obtain ⟨hr', hq'⟩ := mem_select.1 hx
        exact h i r' hr' hq'
    obtain ⟨r, hr, hq⟩ := hfound
    exact List.mem_map.2 ⟨(k, r), mem_select.2 ⟨hr, hq⟩, rfl⟩
  have hlen := (List.nodup_cons.2 ⟨hout, nodup_select_keys t' q'⟩).length_le_of_subset hsub
  rw [List.length_cons, List.length_map, List.length_map] at hlen
  exact hlen

/-- At most one row answers when every answer lies under one key. -/
theorem count_le_one {t : Table κ ρ} {q : κ → ρ → Bool} (j : κ)
    (h : ∀ k r, t.get? k = some r → q k r = true → k = j) : t.count q ≤ 1 := by
  have hle := count_le_succ (t := empty) (q := q) j fun k r hr hq => .inl (h k r hr hq)
  simpa [count, select, empty] using hle

theorem select_insert {t t' : Table κ ρ} {k : κ} {r : ρ} (h : t.insert k r = some t')
    (q : κ → ρ → Bool) : t'.select q = t.select q ++ if q k r then [(k, r)] else [] := by
  unfold insert at h
  split at h
  · cases h
  · cases h; simp [select, List.filter_append, List.filter_cons]

theorem count_insert {t t' : Table κ ρ} {k : κ} {r : ρ} (h : t.insert k r = some t')
    (q : κ → ρ → Bool) : t'.count q = t.count q + if q k r then 1 else 0 := by
  rw [count, count, select_insert h, List.length_append]
  split <;> rfl

/-- A row that was inserted and then updated counts as its last version. -/
theorem count_insert_updateAt {t t' : Table κ ρ} {k : κ} {r : ρ} {f : ρ → ρ}
    (h : t.insert k r = some t') (q : κ → ρ → Bool) :
    (t'.updateAt k f).count q = t.count q + if q k (f r) then 1 else 0 := by
  have hfresh : ∀ y ∈ t.rows, (if decide (y.1 = k) then (y.1, f y.2) else y) = y := by
    intro y hy
    have hne : y.1 ≠ k := by
      rintro rfl
      have hnone := get?_of_insert h
      rw [mem_rows_iff.1 hy] at hnone
      cases hnone
    simp [hne]
  have hrows : (t'.updateAt k f).rows = t.rows ++ [(k, f r)] := by
    have hmap : (t'.updateAt k f).rows =
        t'.rows.map fun y => if decide (y.1 = k) then (y.1, f y.2) else y := rfl
    rw [hmap, rows_insert h, List.map_append, List.map_congr_left hfresh]
    simp
  rw [count, select, hrows, List.filter_append, List.length_append, List.filter_singleton]
  split <;> simp_all [count, select]

/-! ### Every row satisfies -/

/-- Every stored row satisfies `P`. -/
def All (t : Table κ ρ) (P : κ → ρ → Prop) : Prop := ∀ k r, t.get? k = some r → P k r

namespace All

variable {t t' : Table κ ρ} {P Q : κ → ρ → Prop}

theorem empty : (Table.empty : Table κ ρ).All P := by
  intro k r h; cases h

theorem mono (h : t.All P) (hPQ : ∀ k r, t.get? k = some r → P k r → Q k r) : t.All Q :=
  fun k r hr => hPQ k r hr (h k r hr)

/-- An `UPDATE` is checked on the rows its `WHERE` selects. -/
theorem update (h : t.All P) {p : κ → ρ → Bool} {f : ρ → ρ}
    (hf : ∀ k r, t.get? k = some r → p k r = true → P k r → P k (f r)) : (t.update p f).All P := by
  intro k r' hr'
  rw [get?_update, Option.map_eq_some_iff] at hr'
  obtain ⟨r, hr, rfl⟩ := hr'
  by_cases hp : p k r = true
  · rw [if_pos hp]; exact hf k r hr hp (h k r hr)
  · rw [if_neg hp]; exact h k r hr

theorem updateAt (h : t.All P) {k : κ} {f : ρ → ρ}
    (hf : ∀ r, t.get? k = some r → P k r → P k (f r)) : (t.updateAt k f).All P :=
  h.update fun j r hr hj hP => by
    obtain rfl : j = k := by simpa using hj
    exact hf r hr hP

theorem insert (h : t.All P) {k : κ} {r : ρ} (hi : t.insert k r = some t') (hr : P k r) :
    t'.All P := by
  intro j r' hj
  rw [get?_insert hi] at hj
  by_cases hjk : j = k
  · subst hjk; simp only [if_true, Option.some.injEq] at hj; exact hj ▸ hr
  · rw [if_neg hjk] at hj; exact h j r' hj

theorem delete (h : t.All P) {p : κ → ρ → Bool} : (t.delete p).All P := by
  intro k r hr
  rw [get?_delete, Option.filter_eq_some_iff] at hr
  exact h k r hr.1

end All

/-! ### Row by row -/

/-- The two tables have the same keys, and `R` relates the old row of a key to the new one. -/
def Related (R : κ → ρ → ρ → Prop) (t t' : Table κ ρ) : Prop :=
  ∀ k, Option.Rel (R k) (t.get? k) (t'.get? k)

namespace Related

variable {t t' t'' : Table κ ρ} {R S T : κ → ρ → ρ → Prop}

theorem forth (h : Related R t t') {k : κ} {r : ρ} (hr : t.get? k = some r) :
    ∃ r', t'.get? k = some r' ∧ R k r r' := by
  have hk := h k
  rw [hr] at hk
  cases hk' : t'.get? k with
  | none => rw [hk'] at hk; cases hk
  | some r' => rw [hk'] at hk; cases hk with | some hR => exact ⟨r', rfl, hR⟩

theorem back (h : Related R t t') {k : κ} {r' : ρ} (hr : t'.get? k = some r') :
    ∃ r, t.get? k = some r ∧ R k r r' := by
  have hk := h k
  rw [hr] at hk
  cases hk' : t.get? k with
  | none => rw [hk'] at hk; cases hk
  | some r => rw [hk'] at hk; cases hk with | some hR => exact ⟨r, rfl, hR⟩

theorem none_iff (h : Related R t t') (k : κ) : t'.get? k = none ↔ t.get? k = none := by
  constructor
  · intro hn
    by_contra hs
    obtain ⟨r, hr⟩ := Option.ne_none_iff_exists'.1 hs
    obtain ⟨r', hr', -⟩ := h.forth hr
    rw [hn] at hr'; cases hr'
  · intro hn
    by_contra hs
    obtain ⟨r, hr⟩ := Option.ne_none_iff_exists'.1 hs
    obtain ⟨r', hr', -⟩ := h.back hr
    rw [hn] at hr'; cases hr'

theorem of_forall (h : ∀ k, t'.get? k = t.get? k) (hR : ∀ k r, t.get? k = some r → R k r r) :
    Related R t t' := by
  intro k
  rw [h]
  cases hk : t.get? k with
  | none => exact .none
  | some r => exact .some (hR k r hk)

theorem refl (hR : ∀ k r, t.get? k = some r → R k r r) : Related R t t := .of_forall (fun _ => rfl) hR

/-- An `UPDATE` relates the rows its `WHERE` selects by the write, the others to themselves. -/
theorem update {p : κ → ρ → Bool} {f : ρ → ρ}
    (hf : ∀ k r, t.get? k = some r → p k r = true → R k r (f r))
    (hk : ∀ k r, t.get? k = some r → p k r = false → R k r r) : Related R t (t.update p f) := by
  intro k
  rw [get?_update]
  cases hr : t.get? k with
  | none => exact .none
  | some r =>
    rw [Option.map_some]
    by_cases hp : p k r = true
    · rw [if_pos hp]; exact .some (hf k r hr hp)
    · rw [if_neg hp]; exact .some (hk k r hr (by simpa using hp))

theorem updateAt {k : κ} {f : ρ → ρ} (hf : ∀ r, t.get? k = some r → R k r (f r))
    (hk : ∀ j r, t.get? j = some r → j ≠ k → R j r r) : Related R t (t.updateAt k f) :=
  .update (fun j r hr hj => by rw [of_decide_eq_true hj] at hr ⊢; exact hf r hr)
    fun j r hr hj => hk j r hr (by simpa using hj)

theorem mono (h : Related R t t')
    (hRS : ∀ k r r', t.get? k = some r → t'.get? k = some r' → R k r r' → S k r r') :
    Related S t t' := by
  intro k
  have hk := h k
  cases hr : t.get? k with
  | none => rw [hr] at hk; cases hk' : t'.get? k with
    | none => exact .none
    | some r' => rw [hk'] at hk; cases hk
  | some r =>
    obtain ⟨r', hr', hR⟩ := h.forth hr
    rw [hr']; exact .some (hRS k r r' hr hr' hR)

theorem trans (h : Related R t t') (h' : Related S t' t'')
    (hT : ∀ k r r' r'', t.get? k = some r → R k r r' → S k r' r'' → T k r r'') :
    Related T t t'' := by
  intro k
  cases hr : t.get? k with
  | none => rw [(h'.none_iff k).2 ((h.none_iff k).2 hr)]; exact .none
  | some r =>
    obtain ⟨r', hr', hR⟩ := h.forth hr
    obtain ⟨r'', hr'', hS⟩ := h'.forth hr'
    rw [hr'']; exact .some (hT k r r' r'' hr hR hS)

end Related

end Table

end HermesOps.Schemes
