import HermesOps.Hermesfile.Comparison
import HermesOps.Schemes.Bounded
import Mathlib.Data.List.Sort
import Mathlib.Data.String.Basic

/-! What a comparison of two canonical documents reports, against the locations at which they differ. A
    difference is maximal when the two documents hold containers of one type all the way to its location.
    The traversal collects the maximal differences in document order up to the limit; the flag says that
    the list is full, which is not the same as that something was left out. -/

namespace HermesOps.Hermesfile

open Schemes

/-- A document as it is read back from its canonical text: finite floats, and keys in their order. -/
inductive CanonicalValue : Value → Prop
  | null : CanonicalValue .null
  | bool (b : Bool) : CanonicalValue (.bool b)
  | int (n : Int) : CanonicalValue (.int n)
  | float (q : Rat) : CanonicalValue (.float (.finite q))
  | str (s : String) : CanonicalValue (.str s)
  | seq {items : List Value} (h : ∀ x ∈ items, CanonicalValue x) : CanonicalValue (.seq items)
  | map {m : Members} (hsorted : m.keys.Pairwise (· < ·)) (h : ∀ x ∈ m, CanonicalValue x.2) :
      CanonicalValue (.map m)

/-! ### Locations and differences -/

abbrev Location := List Step

/-- The value at a location. -/
def Value.lookup : Value → Location → Option Value
  | x, [] => some x
  | x, s :: loc => (x.child? s).bind fun y => y.lookup loc

/-- Two dictionaries, or two lists. -/
def SameContainer (x y : Value) : Prop := x.type = y.type ∧ (x.type = .dict ∨ x.type = .list)

instance (x y : Value) : Decidable (SameContainer x y) := inferInstanceAs (Decidable (_ ∧ _))

/-- The documents differ at the location, in this way, and hold containers of one type on the way there. -/
def MaximalDifference (a b : Value) (loc : Location) (kind : ChangeKind) : Prop :=
  (∀ p, p <+: loc → p ≠ loc → ∃ x y, a.lookup p = some x ∧ b.lookup p = some y ∧ SameContainer x y) ∧
    match a.lookup loc, b.lookup loc with
    | none, none => False
    | none, some _ => kind = .added
    | some _, none => kind = .removed
    | some x, some y => ¬SameContainer x y ∧ x ≠ y ∧ kind = .modified

def Step.Precedes : Step → Step → Prop
  | .key j, .key k => j < k
  | .index i, .index j => i < j
  | _, _ => False

/-- The order of the document: keys in their order, items by their index. -/
def Earlier (x y : Location × ChangeKind) : Prop := List.Lex Step.Precedes x.1 y.1

/-- The maximal differences of two documents in document order. -/
structure Listing (a b : Value) (ds : List (Location × ChangeKind)) : Prop where
  ordered : ds.Pairwise Earlier
  complete : ∀ loc kind, (loc, kind) ∈ ds ↔ MaximalDifference a b loc kind

/-- How a character of a key is written in a JSON pointer. -/
def escaped (c : Char) : List Char :=
  if c = '~' then ['~', '0'] else if c = '/' then ['~', '1'] else [c]

/-- A step as a token of a JSON pointer. -/
def Step.token : Step → String
  | .key k => String.ofList (k.toList.flatMap escaped)
  | .index i => toString i

/-- The JSON pointer of a location. -/
def pointer : Location → String
  | [] => ""
  | s :: loc => "/" ++ s.token ++ pointer loc

def toChange (d : Location × ChangeKind) : Change := ⟨pointer d.1, d.2⟩

/-- What a comparison reports is exact. -/
structure Exact (a b : Value) (ds : List (Location × ChangeKind)) (truncated : Bool)
    (changes : List Change) : Prop where
  empty_iff : changes = [] ↔ a = b
  distinct : (changes.map Change.path).Nodup
  all : ds.length ≤ maxDiffChanges → changes = ds.map toChange
  first : maxDiffChanges < ds.length → changes = (ds.take maxDiffChanges).map toChange
  truncated_iff : truncated = true ↔ changes.length < ds.length

/-- A difference between what two containers hold at one step. -/
def ChildDifference (x y : Option Value) (loc : Location) (kind : ChangeKind) : Prop :=
  match x, y with
  | none, none => False
  | none, some _ => loc = [] ∧ kind = .added
  | some _, none => loc = [] ∧ kind = .removed
  | some x, some y => MaximalDifference x y loc kind

section Differences

variable {a b : Value} {s : Step} {loc : Location} {kind : ChangeKind}

theorem maximal_nil : MaximalDifference a b [] kind ↔ ¬SameContainer a b ∧ a ≠ b ∧ kind = .modified := by
  constructor
  · rintro ⟨_, h⟩
    exact h
  · intro h
    refine ⟨?_, h⟩
    intro p hp hne
    exact absurd (List.prefix_nil.mp hp) hne

theorem maximal_cons : MaximalDifference a b (s :: loc) kind ↔
    SameContainer a b ∧ ChildDifference (a.child? s) (b.child? s) loc kind := by
  constructor
  · rintro ⟨hway, hend⟩
    obtain ⟨x, y, hx, hy, hsame⟩ := hway [] List.nil_prefix (List.cons_ne_nil s loc).symm
    obtain rfl : a = x := Option.some.inj hx
    obtain rfl : b = y := Option.some.inj hy
    refine ⟨hsame, ?_⟩
    -- a location below the step has a value at the step in both
    have hstep : loc ≠ [] → ∃ x y, a.child? s = some x ∧ b.child? s = some y := by
      intro hloc
      obtain ⟨x, y, hx, hy, _⟩ := hway [s] ⟨loc, rfl⟩ (by simpa using hloc.symm)
      refine ⟨x, y, ?_, ?_⟩
      · simpa [Value.lookup] using hx
      · simpa [Value.lookup] using hy
    unfold Value.lookup at hend
    cases hx : a.child? s with
    | none =>
      have hnil : loc = [] := by
        by_contra hloc
        obtain ⟨x, y, hsome, _⟩ := hstep hloc
        cases hx.symm.trans hsome
      subst hnil
      cases hy : b.child? s with
      | none =>
        rw [hx, hy] at hend
        exact hend
      | some y =>
        rw [hx, hy] at hend
        exact ⟨rfl, hend⟩
    | some x =>
      cases hy : b.child? s with
      | none =>
        have hnil : loc = [] := by
          by_contra hloc
          obtain ⟨x, y, _, hsome⟩ := hstep hloc
          cases hy.symm.trans hsome
        subst hnil
        rw [hx, hy] at hend
        exact ⟨rfl, hend⟩
      | some y =>
        rw [hx, hy] at hend
        refine ⟨?_, hend⟩
        intro p hp hne
        obtain ⟨u, v, hu, hv, hsame'⟩ := hway (s :: p) (List.cons_prefix_cons.mpr ⟨rfl, hp⟩)
          (fun h => hne (List.cons.inj h).2)
        refine ⟨u, v, ?_, ?_, hsame'⟩
        · simpa [Value.lookup, hx] using hu
        · simpa [Value.lookup, hy] using hv
  · rintro ⟨hsame, hchild⟩
    have hroot : ∃ x y, a.lookup [] = some x ∧ b.lookup [] = some y ∧ SameContainer x y :=
      ⟨a, b, rfl, rfl, hsame⟩
    unfold MaximalDifference
    cases hx : a.child? s with
    | none =>
      cases hy : b.child? s with
      | none => rw [hx, hy] at hchild; exact hchild.elim
      | some y =>
        rw [hx, hy] at hchild
        obtain ⟨rfl, rfl⟩ := hchild
        refine ⟨?_, by simp [Value.lookup, hx, hy]⟩
        intro p hp hne
        rcases List.prefix_cons_iff.mp hp with rfl | ⟨q, rfl, hq⟩
        · exact hroot
        · rw [List.prefix_nil.mp hq] at hne
          exact absurd rfl hne
    | some x =>
      cases hy : b.child? s with
      | none =>
        rw [hx, hy] at hchild
        obtain ⟨rfl, rfl⟩ := hchild
        refine ⟨?_, by simp [Value.lookup, hx, hy]⟩
        intro p hp hne
        rcases List.prefix_cons_iff.mp hp with rfl | ⟨q, rfl, hq⟩
        · exact hroot
        · rw [List.prefix_nil.mp hq] at hne
          exact absurd rfl hne
      | some y =>
        rw [hx, hy] at hchild
        obtain ⟨hway, hend⟩ := hchild
        refine ⟨?_, by simpa [Value.lookup, hx, hy] using hend⟩
        intro p hp hne
        rcases List.prefix_cons_iff.mp hp with rfl | ⟨q, rfl, hq⟩
        · exact hroot
        · obtain ⟨u, v, hu, hv, hsame'⟩ := hway q hq (fun h => hne (by rw [h]))
          refine ⟨u, v, ?_, ?_, hsame'⟩
          · simpa [Value.lookup, hx] using hu
          · simpa [Value.lookup, hy] using hv

end Differences

/-! ### Equal documents -/

theorem no_difference_self (a : Value) (loc : Location) (kind : ChangeKind) :
    ¬MaximalDifference a a loc kind := by
  rintro ⟨_, h⟩
  cases hx : a.lookup loc with
  | none => rw [hx] at h; exact h
  | some x => rw [hx] at h; exact h.2.1 rfl

/-- Dictionaries with the keys in order are told apart by a key. -/
theorem members_ext {m n : Members} (hm : m.keys.Pairwise (· < ·)) (hn : n.keys.Pairwise (· < ·))
    (h : ∀ k, m.get? k = n.get? k) : m = n := by
  induction m generalizing n with
  | nil =>
    cases n with
    | nil => rfl
    | cons y n =>
      have hy := h y.1
      rw [show y :: n = (y.1, y.2) :: n from rfl, Members.get?_cons, if_pos rfl] at hy
      cases hy
  | cons x m ih =>
    cases n with
    | nil =>
      have hx := h x.1
      rw [show x :: m = (x.1, x.2) :: m from rfl, Members.get?_cons, if_pos rfl] at hx
      cases hx
    | cons y n =>
      obtain ⟨k, x⟩ := x
      obtain ⟨j, y⟩ := y
      rw [Members.keys_cons, List.pairwise_cons] at hm hn
      have hget : ∀ i, (if k = i then some x else Members.get? m i) =
          if j = i then some y else Members.get? n i := by
        intro i
        rw [← Members.get?_cons, ← Members.get?_cons]
        exact h i
      -- the first key of each is the least key of both
      have hkj : k = j := by
        by_contra hne
        have hk := hget k
        have hj := hget j
        rw [if_pos rfl, if_neg (Ne.symm hne)] at hk
        rw [if_pos rfl, if_neg hne] at hj
        have hjk := hn.1 k (Members.mem_keys_iff.mpr ⟨x, hk.symm⟩)
        have hkj := hm.1 j (Members.mem_keys_iff.mpr ⟨y, hj⟩)
        exact absurd hjk (lt_asymm hkj)
      subst hkj
      have hxy := hget k
      rw [if_pos rfl, if_pos rfl] at hxy
      have hrest : m = n := by
        refine ih hm.2 hn.2 ?_
        intro i
        by_cases hi : k = i
        · subst hi
          rw [Members.get?_eq_none_iff.mpr fun hmem => lt_irrefl k (hm.1 k hmem),
            Members.get?_eq_none_iff.mpr fun hmem => lt_irrefl k (hn.1 k hmem)]
        · have := hget i
          rwa [if_neg hi, if_neg hi] at this
      rw [Option.some.inj hxy, hrest]

theorem CanonicalValue.child {a x : Value} {s : Step} (ha : CanonicalValue a) (h : a.child? s = some x) :
    CanonicalValue x := by
  cases ha with
  | seq hitems =>
    cases s with
    | key k => cases h
    | index i => exact hitems x (List.mem_of_getElem? h)
  | map _ hm =>
    cases s with
    | key k => exact hm _ (Members.mem_of_get? h)
    | index i => cases h
  | _ => cases s <;> cases h

/-- Containers of one type that are not the same differ at a step. -/
theorem child_ne {a b : Value} (ha : CanonicalValue a) (hb : CanonicalValue b) (h : SameContainer a b)
    (hne : a ≠ b) : ∃ s, a.child? s ≠ b.child? s := by
  obtain ⟨htype, hcontainer⟩ := h
  by_contra hall
  push Not at hall
  cases ha with
  | seq hitems =>
    cases hb with
    | seq _ =>
      refine hne (congrArg Value.seq (List.ext_getElem? ?_))
      intro i
      exact hall (.index i)
    | _ => cases htype
  | map hm _ =>
    cases hb with
    | map hn _ =>
      refine hne (congrArg Value.map (members_ext hm hn ?_))
      intro k
      exact hall (.key k)
    | _ => cases htype
  | _ => rcases hcontainer with h | h <;> cases h

/-- Different documents have a maximal difference. -/
theorem exists_difference (a b : Value) (ha : CanonicalValue a) (hb : CanonicalValue b) (hne : a ≠ b) :
    ∃ loc kind, MaximalDifference a b loc kind := by
  induction hn : sizeOf a using Nat.strong_induction_on generalizing a b with
  | _ n ih =>
    subst hn
    by_cases hsame : SameContainer a b
    · obtain ⟨s, hs⟩ := child_ne ha hb hsame hne
      cases hx : a.child? s with
      | none =>
        cases hy : b.child? s with
        | none => exact absurd (hx.trans hy.symm) hs
        | some y => exact ⟨[s], .added, maximal_cons.mpr ⟨hsame, by rw [hx, hy]; exact ⟨rfl, rfl⟩⟩⟩
      | some x =>
        cases hy : b.child? s with
        | none => exact ⟨[s], .removed, maximal_cons.mpr ⟨hsame, by rw [hx, hy]; exact ⟨rfl, rfl⟩⟩⟩
        | some y =>
          obtain ⟨loc, kind, h⟩ := ih _ (sizeOf_child? hx) x y (ha.child hx) (hb.child hy)
            (fun hxy => hs (by rw [hx, hy, hxy])) rfl
          exact ⟨s :: loc, kind, maximal_cons.mpr ⟨hsame, by rw [hx, hy]; exact h⟩⟩
    · exact ⟨[], .modified, maximal_nil.mpr ⟨hsame, hne, rfl⟩⟩

theorem sameScalar_iff {a b : Value} (ha : CanonicalValue a) (hb : CanonicalValue b)
    (hscalar : ¬(a.type = .dict ∨ a.type = .list)) : a.sameScalar b = true ↔ a = b := by
  cases ha with
  | seq => exact absurd (.inr rfl) hscalar
  | map => exact absurd (.inl rfl) hscalar
  | _ => cases hb <;> simp [Value.sameScalar]

/-! ### The steps of the loop -/

theorem mem_steps {a b : Value} (h : SameContainer a b) (s : Step) :
    s ∈ steps a b ↔ a.child? s ≠ none ∨ b.child? s ≠ none := by
  obtain ⟨htype, hcontainer⟩ := h
  cases a with
  | map m =>
    cases b with
    | map n =>
      cases s with
      | key k =>
        have hkeys : ∀ l : Members, k ∈ l.keys ↔ l.get? k ≠ none := by
          intro l
          rw [Ne, Members.get?_eq_none_iff, not_not]
        simp only [steps, List.mem_map, Step.key.injEq, exists_eq_right, sorted, List.mem_insertionSort,
          List.mem_dedup, List.mem_append, Value.child?, hkeys]
      | index i => simp [steps, Value.child?]
    | _ => cases htype
  | seq xs =>
    cases b with
    | seq ys =>
      cases s with
      | key k => simp [steps, Value.child?]
      | index i => simp [steps, Value.child?]
    | _ => cases htype
  | _ => rcases hcontainer with h | h <;> cases h

theorem steps_ordered (a b : Value) : (steps a b).Pairwise Step.Precedes := by
  unfold steps
  split
  · rename_i m n
    have hle := List.pairwise_insertionSort (· ≤ ·) (Members.keys m ++ Members.keys n).dedup
    have hnodup : (sorted (Members.keys m ++ Members.keys n).dedup).Nodup :=
      (List.perm_insertionSort (· ≤ ·) _).nodup_iff.mpr (List.nodup_dedup _)
    rw [List.pairwise_map]
    refine (hle.and hnodup).imp ?_
    rintro j k ⟨hjk, hne⟩
    exact lt_of_le_of_ne hjk hne
  · rw [List.pairwise_map]
    exact List.pairwise_lt_range
  · exact List.Pairwise.nil

/-! ### The traversal -/

/-- A difference as it is reported below a path. -/
def toChangeAt (path : String) (d : Location × ChangeKind) : Change := ⟨orRoot (path ++ pointer d.1), d.2⟩

theorem childPath_eq (path : String) (s : Step) : s.childPath path = path ++ "/" ++ s.token := by
  cases s <;> rfl

theorem orRoot_child (path : String) (s : Step) (tail : String) :
    orRoot (s.childPath path ++ tail) = s.childPath path ++ tail := by
  rw [orRoot, if_neg]
  intro h
  have := congrArg (fun t => t.toList.length) h
  simp [childPath_eq] at this

theorem toChangeAt_cons (path : String) (s : Step) (loc : Location) (kind : ChangeKind) :
    toChangeAt path (s :: loc, kind) = toChangeAt (s.childPath path) (loc, kind) := by
  have h : path ++ ("/" ++ s.token ++ pointer loc) = s.childPath path ++ pointer loc := by
    rw [childPath_eq]
    simp only [String.append_assoc]
  simp only [toChangeAt, pointer, h]

theorem toChangeAt_step (path : String) (s : Step) (kind : ChangeKind) :
    toChangeAt path ([s], kind) = ⟨s.childPath path, kind⟩ := by
  have h := orRoot_child path s ""
  rw [String.append_empty] at h
  rw [toChangeAt_cons, toChangeAt, pointer, String.append_empty, h]

/-- The traversal of a step of two containers. -/
def diffChild (before after : Value) (s : Step) (path : String) : Collector Change := fun changes =>
  match before.child? s, after.child? s with
  | none, _ => (false, changes ++ [⟨s.childPath path, .added⟩])
  | some _, none => (false, changes ++ [⟨s.childPath path, .removed⟩])
  | some x, some y => diffValues x y (s.childPath path) changes

theorem diffChildren_cons (before after : Value) (s : Step) (rest : List Step) (path : String) :
    diffChildren before after (s :: rest) path =
      Collector.next maxDiffChanges (diffChild before after s path)
        (diffChildren before after rest path) := by
  funext changes
  rw [diffChildren]
  refine congrArg (fun r : Bool × List Change => if r.1 then (true, r.2)
    else if maxDiffChanges ≤ r.2.length then (true, r.2)
    else diffChildren before after rest path r.2) (?_ : _ = diffChild before after s path changes)
  unfold diffChild
  split <;> simp only [*]

theorem diffChildren_nil (before after : Value) (path : String) :
    diffChildren before after [] path = fun changes => (false, changes) := by
  funext changes
  rw [diffChildren]

/-- The traversal of two documents below a path collects these differences. -/
structure Traversed (a b : Value) (path : String) (ds : List (Location × ChangeKind)) : Prop where
  listing : Listing a b ds
  collects : Collects maxDiffChanges (diffValues a b path) (ds.map (toChangeAt path))
  all : SameContainer a b → CollectsAll maxDiffChanges (diffValues a b path) (ds.map (toChangeAt path))
  one : ¬SameContainer a b → ds.length ≤ 1

/-- The differences at one step. -/
theorem diffChild_collects {a b : Value} {s : Step} (path : String)
    (ih : ∀ x y, a.child? s = some x → b.child? s = some y →
      ∃ ds, Traversed x y (s.childPath path) ds)
    (hs : a.child? s ≠ none ∨ b.child? s ≠ none) :
    ∃ ds : List (Location × ChangeKind), ds.Pairwise Earlier ∧
      (∀ loc kind, (loc, kind) ∈ ds ↔ ChildDifference (a.child? s) (b.child? s) loc kind) ∧
      Collects maxDiffChanges (diffChild a b s path)
        (ds.map fun d => toChangeAt path (s :: d.1, d.2)) := by
  cases hx : a.child? s with
  | none =>
    cases hy : b.child? s with
    | none => exact absurd (hs.resolve_left (not_not.mpr hx)) (not_not.mpr hy)
    | some y =>
      refine ⟨[([], .added)], List.pairwise_singleton _ _, ?_, ?_⟩
      · intro loc kind
        simp [ChildDifference]
      · have h := Collects.one maxDiffChanges [Change.mk (s.childPath path) .added] (by simp)
        rw [List.map_singleton, toChangeAt_step]
        refine (funext fun changes => ?_ : diffChild a b s path = _) ▸ h
        simp only [diffChild, hx, hy]
  | some x =>
    cases hy : b.child? s with
    | none =>
      refine ⟨[([], .removed)], List.pairwise_singleton _ _, ?_, ?_⟩
      · intro loc kind
        simp [ChildDifference]
      · have h := Collects.one maxDiffChanges [Change.mk (s.childPath path) .removed] (by simp)
        rw [List.map_singleton, toChangeAt_step]
        refine (funext fun changes => ?_ : diffChild a b s path = _) ▸ h
        simp only [diffChild, hx, hy]
    | some y =>
      obtain ⟨ds, hds⟩ := ih x y hx hy
      refine ⟨ds, hds.listing.ordered, hds.listing.complete, ?_⟩
      have hmap : (ds.map fun d => toChangeAt path (s :: d.1, d.2)) =
          ds.map (toChangeAt (s.childPath path)) := by
        refine List.map_congr_left ?_
        rintro ⟨loc, kind⟩ _
        exact toChangeAt_cons path s loc kind
      rw [hmap]
      refine (funext fun changes => ?_ : diffChild a b s path = _) ▸ hds.collects
      simp only [diffChild, hx, hy]

/-- The differences at the rest of the steps. -/
theorem diffChildren_collects {a b : Value} (path : String)
    (ih : ∀ s x y, a.child? s = some x → b.child? s = some y →
      ∃ ds, Traversed x y (s.childPath path) ds)
    (rest : List Step) (hordered : rest.Pairwise Step.Precedes)
    (hrest : ∀ s ∈ rest, a.child? s ≠ none ∨ b.child? s ≠ none) :
    ∃ ds : List (Location × ChangeKind), ds.Pairwise Earlier ∧
      (∀ loc kind, (loc, kind) ∈ ds ↔
        ∃ s ∈ rest, ∃ tail, loc = s :: tail ∧ ChildDifference (a.child? s) (b.child? s) tail kind) ∧
      CollectsAll maxDiffChanges (diffChildren a b rest path) (ds.map (toChangeAt path)) := by
  induction rest with
  | nil =>
    refine ⟨[], List.Pairwise.nil, by simp, ?_⟩
    rw [diffChildren_nil]
    exact CollectsAll.nil
  | cons s rest ihrest =>
    rw [List.pairwise_cons] at hordered
    rw [List.forall_mem_cons] at hrest
    obtain ⟨es, hes, hmem, hcollects⟩ := diffChild_collects path (ih s) hrest.1
    obtain ⟨ds, hds, hmem', hcollects'⟩ := ihrest hordered.2 hrest.2
    refine ⟨(es.map fun d => (s :: d.1, d.2)) ++ ds, ?_, ?_, ?_⟩
    · rw [List.pairwise_append]
      refine ⟨?_, hds, ?_⟩
      · rw [List.pairwise_map]
        refine hes.imp ?_
        intro d e hde
        exact List.Lex.cons hde
      · intro d hd e he
        obtain ⟨d, _, rfl⟩ := List.mem_map.mp hd
        obtain ⟨t, ht, tail, hloc, _⟩ := (hmem' e.1 e.2).mp he
        rw [Earlier, hloc]
        exact List.Lex.rel (hordered.1 t ht)
    · intro loc kind
      rw [List.mem_append, List.mem_map, hmem']
      constructor
      · rintro (⟨⟨tail, kind'⟩, hd, heq⟩ | ⟨t, ht, tail, hloc, hchild⟩)
        · obtain ⟨rfl, rfl⟩ := Prod.mk.inj heq
          exact ⟨s, List.mem_cons_self, tail, rfl, (hmem tail kind').mp hd⟩
        · exact ⟨t, List.mem_cons_of_mem s ht, tail, hloc, hchild⟩
      · rintro ⟨t, ht, tail, rfl, hchild⟩
        rcases List.mem_cons.mp ht with rfl | ht
        · exact .inl ⟨(tail, kind), (hmem tail kind).mpr hchild, rfl⟩
        · exact .inr ⟨t, ht, tail, rfl, hchild⟩
    · rw [diffChildren_cons, List.map_append, List.map_map]
      exact hcollects.next hcollects'

/-- Every traversal collects the maximal differences. -/
theorem diffValues_traversed (a b : Value) (ha : CanonicalValue a) (hb : CanonicalValue b)
    (path : String) : ∃ ds, Traversed a b path ds := by
  induction hn : sizeOf a using Nat.strong_induction_on generalizing a b path with
  | _ n ih =>
    subst hn
    have hroom : ∀ changes : List Change, changes.length < maxDiffChanges →
        diffValues a b path changes =
          if a.type ≠ b.type then (false, changes ++ [⟨orRoot path, .modified⟩])
          else if a.type = .dict ∨ a.type = .list then diffChildren a b (steps a b) path changes
          else if a.sameScalar b then (false, changes)
          else (false, changes ++ [⟨orRoot path, .modified⟩]) := by
      intro changes hchanges
      rw [diffValues, if_neg (by omega)]
    by_cases hsame : SameContainer a b
    · obtain ⟨ds, hordered, hmem, hcollects⟩ := diffChildren_collects path
        (fun s x y hx hy => ih _ (sizeOf_child? hx) x y (ha.child hx) (hb.child hy) _ rfl)
        (steps a b) (steps_ordered a b) (fun s => (mem_steps hsame s).mp)
      have heq : ∀ changes : List Change, changes.length < maxDiffChanges →
          diffValues a b path changes = diffChildren a b (steps a b) path changes := by
        intro changes hchanges
        rw [hroom changes hchanges, if_neg (not_not.mpr hsame.1), if_pos hsame.2]
      have hall : CollectsAll maxDiffChanges (diffValues a b path) (ds.map (toChangeAt path)) := by
        refine ⟨⟨?_, ?_⟩, ?_⟩
        · intro changes hchanges
          rw [heq changes hchanges]
          exact hcollects.collected changes hchanges
        · intro changes hchanges
          rw [heq changes hchanges]
          exact hcollects.full changes hchanges
        · intro changes hchanges
          rw [heq changes hchanges]
          exact hcollects.stops changes hchanges
      refine ⟨ds, ⟨hordered, ?_⟩, hall.toCollects, fun _ => hall, fun h => absurd hsame h⟩
      intro loc kind
      rw [hmem]
      cases loc with
      | nil =>
        rw [maximal_nil]
        constructor
        · rintro ⟨_, _, _, h, _⟩
          cases h
        · rintro ⟨h, _⟩
          exact absurd hsame h
      | cons s loc =>
        rw [maximal_cons]
        constructor
        · rintro ⟨t, _, tail, h, hchild⟩
          obtain ⟨rfl, rfl⟩ := List.cons.inj h
          exact ⟨hsame, hchild⟩
        · rintro ⟨_, hchild⟩
          refine ⟨s, (mem_steps hsame s).mpr ?_, loc, rfl, hchild⟩
          by_contra hnone
          push Not at hnone
          rw [hnone.1, hnone.2] at hchild
          exact hchild
    · -- two values that are not taken apart
      have hleaf : ∀ kind tail s, ¬MaximalDifference a b (s :: tail) kind := fun kind tail s h =>
        hsame (maximal_cons.mp h).1
      by_cases heq : a = b
      · refine ⟨[], ⟨List.Pairwise.nil, ?_⟩, ⟨?_, ?_⟩, fun h => absurd h hsame, fun _ => Nat.zero_le 1⟩
        · intro loc kind
          rw [heq]
          simp [no_difference_self]
        all_goals
          intro changes hchanges
          subst heq
          have hscalar : ¬(a.type = .dict ∨ a.type = .list) := fun h => hsame ⟨rfl, h⟩
          rw [hroom changes hchanges, if_neg (not_not.mpr rfl), if_neg hscalar,
            if_pos ((sameScalar_iff ha hb hscalar).mpr rfl)]
        · rw [List.map_nil, List.append_nil, List.take_of_length_le (Nat.le_of_lt hchanges)]
        · exact nofun
      · have hone := Collects.one maxDiffChanges [Change.mk (orRoot path) .modified] (by simp)
        have hdiff : ∀ changes : List Change, changes.length < maxDiffChanges →
            diffValues a b path changes = (false, changes ++ [⟨orRoot path, .modified⟩]) := by
          intro changes hchanges
          rw [hroom changes hchanges]
          by_cases htype : a.type = b.type
          · have hscalar : ¬(a.type = .dict ∨ a.type = .list) := fun h => hsame ⟨htype, h⟩
            rw [if_neg (not_not.mpr htype), if_neg hscalar, if_neg]
            exact fun h => heq ((sameScalar_iff ha hb hscalar).mp h)
          · rw [if_pos htype]
        refine ⟨[([], .modified)], ⟨List.pairwise_singleton _ _, ?_⟩, ⟨?_, ?_⟩, fun h => absurd h hsame,
          fun _ => Nat.le_refl 1⟩
        · intro loc kind
          cases loc with
          | nil => simp [maximal_nil, hsame, heq]
          | cons s loc => simp [hleaf]
        · intro changes hchanges
          rw [hdiff changes hchanges, List.map_singleton, toChangeAt, pointer, String.append_empty]
          exact hone.collected changes hchanges
        · intro changes hchanges
          rw [hdiff changes hchanges]
          exact nofun

/-! ### Pointers -/

theorem escaped_ne_nil (c : Char) : escaped c ≠ [] := by
  unfold escaped
  split
  · exact List.cons_ne_nil _ _
  · split <;> exact List.cons_ne_nil _ _

/-- What is written for a character is no proper beginning of what is written for another. -/
theorem escaped_append {c d : Char} {r t : List Char} (h : escaped c ++ r = escaped d ++ t) :
    c = d ∧ r = t := by
  unfold escaped at h
  by_cases hc : c = '~' <;> by_cases hc' : c = '/' <;> by_cases hd : d = '~' <;>
    by_cases hd' : d = '/' <;> simp_all
  all_goals exact absurd h.1.symm hd

theorem escaped_injective {xs ys : List Char} (h : xs.flatMap escaped = ys.flatMap escaped) :
    xs = ys := by
  induction xs generalizing ys with
  | nil =>
    cases ys with
    | nil => rfl
    | cons d ys =>
      rw [List.flatMap_nil, List.flatMap_cons] at h
      exact absurd (List.append_eq_nil_iff.mp h.symm).1 (escaped_ne_nil d)
  | cons c xs ih =>
    cases ys with
    | nil =>
      rw [List.flatMap_nil, List.flatMap_cons] at h
      exact absurd (List.append_eq_nil_iff.mp h).1 (escaped_ne_nil c)
    | cons d ys =>
      rw [List.flatMap_cons, List.flatMap_cons] at h
      obtain ⟨rfl, hrest⟩ := escaped_append h
      rw [ih hrest]

theorem key_token_injective {j k : String} (h : (Step.key j).token = (Step.key k).token) : j = k := by
  have hlist := congrArg String.toList h
  simp only [Step.token, String.toList_ofList] at hlist
  exact String.toList_inj.mp (escaped_injective hlist)

theorem index_token_injective {i j : Nat} (h : (Step.index i).token = (Step.index j).token) : i = j := by
  have hlist := congrArg String.toList h
  simp only [Step.token, Nat.toString_eq_repr, Nat.toList_repr] at hlist
  have hvalue := congrArg (fun digits => Nat.ofDigitChars 10 digits 0) hlist
  simpa using hvalue

theorem slash_not_mem_token (s : Step) : '/' ∉ s.token.toList := by
  cases s with
  | key k =>
    simp only [Step.token, String.toList_ofList, List.mem_flatMap, not_exists, not_and]
    intro c _
    unfold escaped
    split
    · decide
    · split
      · decide
      · rename_i hc
        simpa using Ne.symm hc
  | index i =>
    simp only [Step.token, Nat.toString_eq_repr, Nat.toList_repr]
    intro h
    have := Nat.isDigit_of_mem_toDigits (by decide) (by decide) h
    revert this
    decide

/-- A token ends where the next one begins. -/
theorem token_split {t t' r r' : List Char} (ht : '/' ∉ t) (ht' : '/' ∉ t')
    (hr : r.head?.getD '/' = '/') (hr' : r'.head?.getD '/' = '/') (h : t ++ r = t' ++ r') :
    t = t' ∧ r = r' := by
  induction t generalizing t' with
  | nil =>
    cases t' with
    | nil => exact ⟨rfl, h⟩
    | cons c t' =>
      rw [List.nil_append] at h
      subst h
      simp only [List.cons_append, List.head?_cons, Option.getD_some] at hr
      exact absurd (hr ▸ List.mem_cons_self) ht'
  | cons c t ih =>
    cases t' with
    | nil =>
      rw [List.nil_append] at h
      subst h
      simp only [List.cons_append, List.head?_cons, Option.getD_some] at hr'
      exact absurd (hr' ▸ List.mem_cons_self) ht
    | cons d t' =>
      rw [List.cons_append, List.cons_append] at h
      obtain ⟨rfl, hrest⟩ := List.cons.inj h
      obtain ⟨rfl, rfl⟩ := ih (fun hmem => ht (List.mem_cons_of_mem _ hmem))
        (fun hmem => ht' (List.mem_cons_of_mem _ hmem)) hrest
      exact ⟨rfl, rfl⟩

theorem pointer_cons_toList (s : Step) (loc : Location) :
    (pointer (s :: loc)).toList = '/' :: (s.token.toList ++ (pointer loc).toList) := by
  simp [pointer]

theorem pointer_head (loc : Location) : (pointer loc).toList.head?.getD '/' = '/' := by
  cases loc with
  | nil => rfl
  | cons s loc => rw [pointer_cons_toList]; rfl

/-- A pointer has the tokens of its location. -/
theorem tokens_of_pointer {loc loc' : Location} (h : pointer loc = pointer loc') :
    loc.map Step.token = loc'.map Step.token := by
  induction loc generalizing loc' with
  | nil =>
    cases loc' with
    | nil => rfl
    | cons s loc' =>
      have := congrArg String.toList h
      rw [pointer_cons_toList] at this
      cases this
  | cons s loc ih =>
    cases loc' with
    | nil =>
      have := congrArg String.toList h
      rw [pointer_cons_toList] at this
      cases this
    | cons t loc' =>
      have hlist := congrArg String.toList h
      rw [pointer_cons_toList, pointer_cons_toList] at hlist
      obtain ⟨htoken, hrest⟩ := token_split (slash_not_mem_token s) (slash_not_mem_token t)
        (pointer_head loc) (pointer_head loc') (List.cons.inj hlist).2
      rw [List.map_cons, List.map_cons, String.toList_inj.mp htoken, ih (String.toList_inj.mp hrest)]

/-- The steps into a container are keys or indices, by its type. -/
theorem step_of_child {x y : Value} {s : Step} (h : x.child? s = some y) :
    (x.type = .dict ∧ ∃ k, s = .key k) ∨ (x.type = .list ∧ ∃ i, s = .index i) := by
  cases x with
  | map m =>
    cases s with
    | key k => exact .inl ⟨rfl, k, rfl⟩
    | index i => cases h
  | seq items =>
    cases s with
    | key k => cases h
    | index i => exact .inr ⟨rfl, i, rfl⟩
  | _ => cases s <;> cases h

theorem ChildDifference.step {a b : Value} {s : Step} {loc : Location} {kind : ChangeKind}
    (h : SameContainer a b) (hs : ChildDifference (a.child? s) (b.child? s) loc kind) :
    (a.type = .dict ∧ ∃ k, s = .key k) ∨ (a.type = .list ∧ ∃ i, s = .index i) := by
  cases hx : a.child? s with
  | some x => exact step_of_child hx
  | none =>
    cases hy : b.child? s with
    | some y => rw [h.1]; exact step_of_child hy
    | none => rw [hx, hy] at hs; exact hs.elim

/-- Within two documents a pointer has one location. -/
theorem pointer_injective {a b : Value} {loc loc' : Location} {kind kind' : ChangeKind}
    (h : MaximalDifference a b loc kind) (h' : MaximalDifference a b loc' kind')
    (heq : pointer loc = pointer loc') : loc = loc' := by
  have htokens := tokens_of_pointer heq
  clear heq
  induction loc generalizing a b loc' with
  | nil => exact (List.map_eq_nil_iff.mp htokens.symm).symm
  | cons s loc ih =>
    cases loc' with
    | nil => cases htokens
    | cons t loc' =>
      rw [List.map_cons, List.map_cons] at htokens
      obtain ⟨htoken, hrest⟩ := List.cons.inj htokens
      obtain ⟨hsame, hchild⟩ := maximal_cons.mp h
      obtain ⟨_, hchild'⟩ := maximal_cons.mp h'
      have hst : s = t := by
        rcases hchild.step hsame with ⟨hdict, k, rfl⟩ | ⟨hlist, i, rfl⟩ <;>
          rcases hchild'.step hsame with ⟨hdict', k', rfl⟩ | ⟨hlist', i', rfl⟩
        · rw [key_token_injective htoken]
        · cases hdict.symm.trans hlist'
        · cases hlist.symm.trans hdict'
        · rw [index_token_injective htoken]
      subst hst
      congr 1
      cases hx : a.child? s with
      | none =>
        cases hy : b.child? s with
        | none => rw [hx, hy] at hchild; exact hchild.elim
        | some y =>
          rw [hx, hy] at hchild hchild'
          rw [hchild.1, hchild'.1]
      | some x =>
        cases hy : b.child? s with
        | none =>
          rw [hx, hy] at hchild hchild'
          rw [hchild.1, hchild'.1]
        | some y =>
          rw [hx, hy] at hchild hchild'
          exact ih hchild hchild' hrest

theorem earlier_ne {x y : Location × ChangeKind} (h : Earlier x y) : x.1 ≠ y.1 := by
  have hirrefl : ∀ loc : Location, ¬List.Lex Step.Precedes loc loc := by
    intro loc
    induction loc with
    | nil => exact nofun
    | cons s loc ih =>
      intro h
      cases h with
      | cons h => exact ih h
      | rel h =>
        cases s with
        | key k => exact lt_irrefl k h
        | index i => exact lt_irrefl i h
  intro heq
  rw [Earlier, heq] at h
  exact hirrefl _ h

/-- The pointers of the maximal differences are distinct. -/
theorem Listing.distinct {a b : Value} {ds : List (Location × ChangeKind)} (h : Listing a b ds) :
    (ds.map fun d => pointer d.1).Nodup := by
  rw [List.Nodup, List.pairwise_map]
  refine h.ordered.imp_of_mem ?_
  intro d e hd he hde hpointer
  exact earlier_ne hde (pointer_injective ((h.complete d.1 d.2).mp hd) ((h.complete e.1 e.2).mp he) hpointer)

/-! ### What is reported -/

section Reported

variable {a b : Value} {ds : List (Location × ChangeKind)}

theorem Listing.nil_iff (h : Listing a b ds) (ha : CanonicalValue a) (hb : CanonicalValue b) :
    ds = [] ↔ a = b := by
  constructor
  · rintro rfl
    by_contra hne
    obtain ⟨loc, kind, hd⟩ := exists_difference a b ha hb hne
    cases (h.complete loc kind).mpr hd
  · rintro rfl
    refine List.eq_nil_iff_forall_not_mem.mpr ?_
    rintro ⟨loc, kind⟩ hd
    exact no_difference_self a loc kind ((h.complete loc kind).mp hd)

/-- Where the documents are not told apart as a whole, a difference is reported under its pointer. -/
theorem Listing.reported (h : Listing a b ds) (hwhole : SameContainer a b ∨ a = b) :
    ds.map (toChangeAt "") = ds.map toChange := by
  refine List.map_congr_left ?_
  rintro ⟨loc, kind⟩ hd
  have hmax := (h.complete loc kind).mp hd
  cases loc with
  | nil =>
    obtain ⟨hsame, hne, _⟩ := maximal_nil.mp hmax
    rcases hwhole with hw | hw
    · exact absurd hw hsame
    · exact absurd hw hne
  | cons s loc =>
    have hpointer : pointer (s :: loc) ≠ "" := by
      intro hnil
      have := congrArg String.toList hnil
      rw [pointer_cons_toList] at this
      cases this
    simp [toChangeAt, toChange, orRoot, hpointer]

theorem Traversed.changes (h : Traversed a b "" ds) :
    (diffValues a b "" []).2 = (ds.map (toChangeAt "")).take maxDiffChanges :=
  h.collects.collected [] (by decide)

/-- At the top the flag says that the list is full. -/
theorem Traversed.truncated (h : Traversed a b "" ds) :
    (diffValues a b "" []).1 = true ↔ maxDiffChanges ≤ ds.length := by
  have hfull := h.collects.full [] (by decide)
  rw [List.length_nil, Nat.zero_add, List.length_map] at hfull
  constructor
  · exact hfull
  · intro hle
    have hsame : SameContainer a b := by
      by_contra hsame
      have := h.one hsame
      unfold maxDiffChanges at hle
      omega
    refine (h.all hsame).stops [] (by decide) ?_
    rw [List.length_nil, Nat.zero_add, List.length_map]
    exact hle

/-- The report is exact unless the list is just filled or the documents are told apart as a whole. -/
theorem Traversed.exact_iff (h : Traversed a b "" ds) (ha : CanonicalValue a) (hb : CanonicalValue b) :
    Exact a b ds (diffValues a b "" []).1 (diffValues a b "" []).2 ↔
      ds.length ≠ maxDiffChanges ∧ (SameContainer a b ∨ a = b) := by
  have hchanges := h.changes
  have htruncated := h.truncated
  have hlength : (diffValues a b "" []).2.length = min maxDiffChanges ds.length := by
    rw [hchanges, List.length_take, List.length_map]
  constructor
  · intro hexact
    refine ⟨?_, ?_⟩
    · intro hfull
      have hleft := hexact.truncated_iff.mp (htruncated.mpr hfull.ge)
      rw [hlength] at hleft
      omega
    · by_contra hwhole
      rw [not_or] at hwhole
      -- the one difference is the whole document, which is reported as another location
      have hmem : ([], .modified) ∈ ds :=
        (h.listing.complete [] .modified).mpr (maximal_nil.mpr ⟨hwhole.1, hwhole.2, rfl⟩)
      have hone : ds = [([], .modified)] := by
        have := h.one hwhole.1
        obtain ⟨d, rfl⟩ := List.length_eq_one_iff.mp
          (Nat.le_antisymm this (List.length_pos_of_mem hmem))
        rw [List.mem_singleton.mp hmem]
      have hall := hexact.all (by rw [hone]; decide)
      rw [hchanges, hone] at hall
      revert hall
      decide
  · rintro ⟨hne, hwhole⟩
    have hreported := h.listing.reported hwhole
    rw [hreported] at hchanges
    refine ⟨?_, ?_, ?_, ?_, ?_⟩
    · rw [← h.listing.nil_iff ha hb, hchanges]
      simp [maxDiffChanges]
    · rw [hchanges, ← List.map_take, List.map_map]
      exact (h.listing.distinct).sublist ((List.take_sublist _ _).map _)
    · intro hle
      rw [hchanges, List.take_of_length_le (by rwa [List.length_map])]
    · intro _
      rw [hchanges, List.map_take]
    · rw [htruncated, hlength]
      omega

end Reported

/-- What a comparison of two revisions reports is what the traversal of their documents gives. -/
theorem compareRevisions_ok {getRevision : String → Int → Controller.Result Revision}
    {sandboxId : String} {fromRevision toRevision : Int} {before after : Revision} {c : Comparison}
    (hbefore : getRevision sandboxId fromRevision = .ok before)
    (hafter : getRevision sandboxId toRevision = .ok after)
    (hok : compareRevisions getRevision sandboxId fromRevision toRevision = .ok c) :
    c.truncated = (diffValues before.canonical after.canonical "" []).1 ∧
      c.changes = (diffValues before.canonical after.canonical "" []).2.take maxDiffChanges ∧
      (c.changed = true ↔ (diffValues before.canonical after.canonical "" []).2 ≠ []) := by
  unfold compareRevisions at hok
  rw [hbefore, hafter] at hok
  cases hrequire : Controller.require (decide ¬(fromRevision < 1 ∨ toRevision < 1 ∨
      fromRevision = toRevision)) (Controller.ControllerError.mk 400 "invalid_revision_comparison"
      "Invalid revision comparison" none) with
  | error e =>
    rw [hrequire] at hok
    cases hok
  | ok _ =>
    rw [hrequire] at hok
    obtain rfl := Except.ok.inj hok
    exact ⟨rfl, rfl, by simp⟩

/-- The comparison of two canonical documents is exact if and only if it does not find exactly as many
    differences as it may report and the documents are not told apart as a whole; and `compare` reports
    what the traversal of the two documents gives. -/
theorem comparison_exact (a b : Value) (ha : CanonicalValue a) (hb : CanonicalValue b) :
    ∃ ds, Listing a b ds ∧
      (Exact a b ds (diffValues a b "" []).1 (diffValues a b "" []).2 ↔
        ds.length ≠ maxDiffChanges ∧ (SameContainer a b ∨ a = b)) ∧
      ∀ (getRevision : String → Int → Controller.Result Revision) (sandboxId : String)
        (fromRevision toRevision : Int) (before after : Revision) (c : Comparison),
        getRevision sandboxId fromRevision = .ok before → before.canonical = a →
        getRevision sandboxId toRevision = .ok after → after.canonical = b →
        compareRevisions getRevision sandboxId fromRevision toRevision = .ok c →
        (Exact a b ds c.truncated c.changes ↔
          ds.length ≠ maxDiffChanges ∧ (SameContainer a b ∨ a = b)) ∧
        (c.changed = true ↔ a ≠ b) := by
  obtain ⟨ds, hds⟩ := diffValues_traversed a b ha hb ""
  refine ⟨ds, hds.listing, hds.exact_iff ha hb, ?_⟩
  intro getRevision sandboxId fromRevision toRevision before after c hbefore hea hafter heb hok
  subst hea heb
  obtain ⟨htruncated, hchanges, hchanged⟩ := compareRevisions_ok hbefore hafter hok
  have htake : c.changes = (diffValues before.canonical after.canonical "" []).2 := by
    rw [hchanges, hds.changes, List.take_take, Nat.min_self]
  refine ⟨?_, ?_⟩
  · rw [htruncated, htake]
    exact hds.exact_iff ha hb
  · rw [hchanged, hds.changes, Ne, Ne, not_iff_not, ← hds.listing.nil_iff ha hb]
    simp [maxDiffChanges]

/-! ### A list that is just filled -/

def packageList (n : Nat) : Value := .map [("packages", .seq (List.replicate n (.str "git")))]

theorem packageList_canonical (n : Nat) : CanonicalValue (packageList n) := by
  refine .map (List.pairwise_singleton _ _) ?_
  intro x hx
  rw [List.mem_singleton.mp hx]
  refine .seq ?_
  intro y hy
  rw [List.eq_of_mem_replicate hy]
  exact .str "git"

theorem comparison_exact_packages :
    ∃ ds, Listing (packageList 2) (packageList 1) ds ∧
      (Exact (packageList 2) (packageList 1) ds (diffValues (packageList 2) (packageList 1) "" []).1
          (diffValues (packageList 2) (packageList 1) "" []).2 ↔
        ds.length ≠ maxDiffChanges ∧
          (SameContainer (packageList 2) (packageList 1) ∨ packageList 2 = packageList 1)) := by
  obtain ⟨ds, hlisting, hexact, _⟩ := comparison_exact (packageList 2) (packageList 1)
    (packageList_canonical 2) (packageList_canonical 1)
  exact ⟨ds, hlisting, hexact⟩

/-- Every package is a difference of a list of packages from the empty one. -/
theorem packageList_difference (n : Nat) (loc : Location) (kind : ChangeKind) :
    MaximalDifference (packageList n) (packageList 0) loc kind ↔
      ∃ i < n, loc = [.key "packages", .index i] ∧ kind = .removed := by
  have hroot : SameContainer (packageList n) (packageList 0) := ⟨rfl, .inl rfl⟩
  have hlists : SameContainer (.seq (List.replicate n (.str "git"))) (.seq []) := ⟨rfl, .inr rfl⟩
  cases loc with
  | nil => simp [maximal_nil, hroot]
  | cons s loc =>
    rw [maximal_cons]
    by_cases hs : s = .key "packages"
    · subst hs
      have hchild : ∀ k, (packageList k).child? (.key "packages") =
          some (.seq (List.replicate k (.str "git"))) := fun _ => rfl
      rw [hchild, hchild]
      cases loc with
      | nil => simp [ChildDifference, maximal_nil, hlists]
      | cons t loc =>
        simp only [ChildDifference, List.replicate_zero, maximal_cons]
        cases t with
        | key k => simp [Value.child?]
        | index i =>
          by_cases hi : i < n
          · simp [Value.child?, hroot, hlists, hi]
          · simp [Value.child?, hi]
    · have hnone : ∀ k, (packageList k).child? s = none := by
        intro k
        cases s with
        | key key =>
          have hkey : "packages" ≠ key := fun h => hs (by rw [h])
          simp [packageList, Value.child?, Members.get?_cons, hkey]
          rfl
        | index i => rfl
      rw [hnone, hnone]
      simp [ChildDifference, hs]

/-- Five hundred packages are removed: every removal is reported, and the report says it is truncated. -/
theorem filled_list_flagged : ∃ ds, Listing (packageList 500) (packageList 0) ds ∧
    (diffValues (packageList 500) (packageList 0) "" []).2 = ds.map toChange ∧
    (diffValues (packageList 500) (packageList 0) "" []).1 = true ∧
    ¬Exact (packageList 500) (packageList 0) ds (diffValues (packageList 500) (packageList 0) "" []).1
      (diffValues (packageList 500) (packageList 0) "" []).2 := by
  obtain ⟨ds, hds⟩ := diffValues_traversed (packageList 500) (packageList 0)
    (packageList_canonical 500) (packageList_canonical 0) ""
  let removed : List (Location × ChangeKind) :=
    (List.range 500).map fun i => ([.key "packages", .index i], .removed)
  have hnodup : ds.Nodup := hds.listing.ordered.imp fun h heq => earlier_ne h (congrArg Prod.fst heq)
  have hremoved : removed.Nodup := by
    refine List.Nodup.map ?_ List.nodup_range
    intro i j hij
    simpa using hij
  have hperm : ds.Perm removed := by
    rw [List.perm_ext_iff_of_nodup hnodup hremoved]
    rintro ⟨loc, kind⟩
    rw [hds.listing.complete, packageList_difference]
    simp [removed, eq_comm]
  have hlength : ds.length = maxDiffChanges := by
    rw [hperm.length_eq, List.length_map, List.length_range]
    rfl
  have hwhole : SameContainer (packageList 500) (packageList 0) := ⟨rfl, .inl rfl⟩
  refine ⟨ds, hds.listing, ?_, hds.truncated.mpr hlength.ge, ?_⟩
  · rw [hds.changes, hds.listing.reported (.inl hwhole), List.take_of_length_le]
    rw [List.length_map, hlength]
  · intro hexact
    have hleft := hexact.truncated_iff.mp (hds.truncated.mpr hlength.ge)
    rw [hds.changes, List.length_take, List.length_map, hlength] at hleft
    omega

end HermesOps.Hermesfile
