import HermesOps.Model.PlanValidation
import HermesOps.Schemes.Linearization

/-! `topological_order` takes the least available key at every turn, so it ends in the least of all
    linearizations of the dependencies, or gets stuck in front of a cycle. -/

namespace HermesOps

open Schemes Relation

variable {κ : Type} [LinearOrder κ] {tasks tasks' : List (κ × List κ)} {s : Sorting κ} {key : κ}

/-- The task of the key names the dependency. -/
def DependsOn (tasks : List (κ × List κ)) (p k : κ) : Prop := ∃ deps, (k, deps) ∈ tasks ∧ p ∈ deps

/-! ### The dictionaries -/

theorem mem_sorted {l : List κ} {k : κ} : k ∈ sorted l ↔ k ∈ l := List.mem_insertionSort _

theorem sorted_strict {l : List κ} (hl : l.Nodup) : (sorted l).Pairwise (· < ·) := by
  have hle : (sorted l).Pairwise (· ≤ ·) := List.pairwise_insertionSort (· ≤ ·) l
  have hnodup : (sorted l).Nodup := (List.perm_insertionSort (· ≤ ·) l).nodup_iff.2 hl
  exact (hle.and hnodup).imp fun h => lt_of_le_of_ne h.1 h.2

theorem mem_keysOf {k : κ} : k ∈ keysOf tasks ↔ ∃ deps, (k, deps) ∈ tasks := by
  simp [keysOf, List.mem_dedup]

theorem DependsOn.of_mem {p k : κ} (hp : p ∈ dependenciesOf tasks k) : DependsOn tasks p k := by
  unfold dependenciesOf at hp
  cases hl : tasks.reverse.lookup k with
  | none => rw [hl] at hp; cases hp
  | some deps =>
    rw [hl] at hp
    obtain ⟨pre, post, heq, -⟩ := List.lookup_eq_some_iff.1 hl
    refine ⟨deps, ?_, hp⟩
    rw [← List.mem_reverse, heq]
    exact List.mem_append_right _ (List.mem_cons_self ..)

/-- Of tasks with distinct keys the dictionary holds every list of dependencies. -/
theorem mem_dependenciesOf (hd : (tasks.map Prod.fst).Nodup) {p k : κ} :
    p ∈ dependenciesOf tasks k ↔ DependsOn tasks p k := by
  refine ⟨.of_mem, ?_⟩
  rintro ⟨deps, hmem, hp⟩
  obtain ⟨pre, post, heq⟩ := List.append_of_mem (List.mem_reverse.2 hmem)
  have hlookup : tasks.reverse.lookup k = some deps := by
    refine List.lookup_eq_some_iff.2 ⟨pre, post, heq, fun x hx => ?_⟩
    rw [← List.nodup_reverse, ← List.map_reverse, heq, List.map_append, List.nodup_append] at hd
    exact bne_iff_ne.2 (hd.2.2 x.1 (List.mem_map.2 ⟨x, hx, rfl⟩) k (List.mem_cons_self ..)).symm
  rw [dependenciesOf, hlookup]
  exact hp

theorem mem_childrenOf {child : κ} : child ∈ childrenOf tasks key ↔
    child ∈ keysOf tasks ∧ key ∈ dependenciesOf tasks child := by
  simp [childrenOf, mem_sorted]

/-! ### The inner loop -/

/-- The ready list holds, in strict order, the keys that wait for nothing and are not listed. -/
structure Sorting.Ready (keys : List κ) (s : Sorting κ) : Prop where
  strict : s.ready.Pairwise (· < ·)
  mem : ∀ k, k ∈ s.ready ↔ k ∈ keys ∧ k ∉ s.order ∧ s.dependencies k = []

@[simp] theorem Sorting.visit_order (key : κ) (s : Sorting κ) (child : κ) :
    (s.visit key child).order = s.order := by
  unfold Sorting.visit
  dsimp only
  split <;> rfl

theorem Sorting.visit_dependencies (key : κ) (s : Sorting κ) (child : κ) :
    (s.visit key child).dependencies =
      Function.update s.dependencies child ((s.dependencies child).filter fun p => p ≠ key) := by
  unfold Sorting.visit
  dsimp only
  split <;> rfl

theorem Sorting.Ready.visit {keys : List κ} (hs : s.Ready keys) {child : κ} (hchild : child ∈ keys) :
    (s.visit key child).Ready keys := by
  have hnodup : s.ready.Nodup := hs.strict.imp fun h => ne_of_lt h
  unfold Sorting.visit
  dsimp only
  rw [Function.update_self]
  split
  · rename_i hnew
    obtain ⟨hempty, hfresh, hunready⟩ := hnew
    refine ⟨sorted_strict ?_, fun k => ?_⟩
    · rw [List.nodup_append]
      refine ⟨hnodup, List.nodup_singleton _, ?_⟩
      rintro a ha b hb rfl
      exact hunready (List.mem_singleton.1 hb ▸ ha)
    · rw [mem_sorted, List.mem_append, List.mem_singleton, hs.mem]
      by_cases hk : k = child
      · subst hk
        dsimp only
        rw [Function.update_self]
        simp only [hfresh, hchild, hempty, not_false_iff, and_self, or_true]
      · simp [hk]
  · rename_i hold
    refine ⟨hs.strict, fun k => ?_⟩
    dsimp only
    rw [hs.mem]
    by_cases hk : k = child
    · subst hk
      rw [Function.update_self]
      constructor
      · rintro ⟨hkey, hfresh, hempty⟩
        exact ⟨hkey, hfresh, by rw [hempty, List.filter_nil]⟩
      · rintro ⟨hkey, hfresh, hempty⟩
        have hready : k ∈ s.ready := by
          by_contra hunready
          exact hold ⟨hempty, hfresh, hunready⟩
        exact ⟨hkey, hfresh, ((hs.mem k).1 hready).2.2⟩
    · rw [Function.update_of_ne hk]

theorem Sorting.Ready.visits {keys : List κ} (children : List κ) :
    ∀ {s : Sorting κ}, s.Ready keys → (∀ child ∈ children, child ∈ keys) →
      (children.foldl (Sorting.visit key) s).Ready keys := by
  induction children with
  | nil => exact fun hs _ => hs
  | cons child children ih =>
    intro s hs hkeys
    exact ih (hs.visit (hkeys child (List.mem_cons_self ..)))
      fun c hc => hkeys c (List.mem_cons_of_mem _ hc)

theorem Sorting.visits_order (children : List κ) : ∀ s : Sorting κ,
    (children.foldl (Sorting.visit key) s).order = s.order := by
  induction children with
  | nil => exact fun _ => rfl
  | cons child children ih =>
    intro s
    rw [List.foldl_cons, ih, Sorting.visit_order]

/-- The children no longer wait for the key. -/
theorem Sorting.mem_visits_dependencies (children : List κ) {p k : κ} : ∀ s : Sorting κ,
    p ∈ (children.foldl (Sorting.visit key) s).dependencies k ↔
      p ∈ s.dependencies k ∧ (k ∈ children → p ≠ key) := by
  induction children with
  | nil => simp
  | cons child children ih =>
    intro s
    rw [List.foldl_cons, ih, Sorting.visit_dependencies]
    by_cases hk : k = child
    · subst hk
      simp only [Function.update_self, List.mem_filter, ne_eq, decide_not, Bool.not_eq_true',
        decide_eq_false_iff_not, List.mem_cons, true_or, true_imp_iff]
      tauto
    · rw [Function.update_of_ne hk]
      simp [hk]

/-! ### The turns -/

/-- The loop's invariant: every listed key was the least available one, and the rest is known. -/
structure Sorting.Inv (tasks : List (κ × List κ)) (s : Sorting κ) : Prop where
  greedy : Greedy (keysOf tasks) (fun p k => p ∈ dependenciesOf tasks k) s.order
  waiting : ∀ p k, p ∈ s.dependencies k ↔ p ∈ dependenciesOf tasks k ∧ p ∉ s.order
  ready : s.Ready (keysOf tasks)

theorem Sorting.Inv.mem_ready (hs : s.Inv tasks) {k : κ} : k ∈ s.ready ↔
    Available (keysOf tasks) (fun p k => p ∈ dependenciesOf tasks k) s.order k := by
  have hempty : s.dependencies k = [] ↔ ∀ p, p ∈ dependenciesOf tasks k → p ∈ s.order := by
    rw [List.eq_nil_iff_forall_not_mem]
    refine forall_congr' fun p => ?_
    rw [hs.waiting]
    tauto
  rw [hs.ready.mem, hempty]
  exact ⟨fun h => ⟨h.1, h.2.1, h.2.2⟩, fun h => ⟨h.key, h.fresh, h.ready⟩⟩

theorem Sorting.Inv.start (tasks : List (κ × List κ)) : (Sorting.start tasks).Inv tasks := by
  refine ⟨.nil, fun p k => by simp [Sorting.start], sorted_strict ?_, fun k => ?_⟩
  · exact (List.nodup_dedup _).filter _
  · simp [Sorting.start, mem_sorted]

theorem Sorting.Inv.turn (hs : s.Inv tasks) : (s.turn (childrenOf tasks)).Inv tasks := by
  unfold Sorting.turn
  split
  · exact hs
  · rename_i key ready hready
    have hstrict := hs.ready.strict
    rw [hready, List.pairwise_cons] at hstrict
    obtain ⟨hleast, hrest⟩ := hstrict
    have hkey : key ∈ s.ready := by rw [hready]; exact List.mem_cons_self ..
    have hpopped : Sorting.Ready (keysOf tasks)
        { s with ready, order := s.order ++ [key] } := by
      refine ⟨hrest, fun k => ?_⟩
      have hk := hs.ready.mem k
      rw [hready, List.mem_cons] at hk
      dsimp only
      rw [List.mem_append, List.mem_singleton, not_or]
      constructor
      · intro hmem
        obtain ⟨hkeys, hfresh, hempty⟩ := hk.1 (.inr hmem)
        exact ⟨hkeys, ⟨hfresh, (ne_of_lt (hleast k hmem)).symm⟩, hempty⟩
      · rintro ⟨hkeys, ⟨hfresh, hne⟩, hempty⟩
        exact (hk.2 ⟨hkeys, hfresh, hempty⟩).resolve_left hne
    refine ⟨?_, fun p k => ?_, hpopped.visits _ fun child hc => (mem_childrenOf.1 hc).1⟩
    · rw [Sorting.visits_order]
      refine .snoc hs.greedy (hs.mem_ready.1 hkey) fun k' hk' => ?_
      have hmem := hs.mem_ready.2 hk'
      rw [hready, List.mem_cons] at hmem
      rcases hmem with rfl | hmem
      · exact le_rfl
      · exact (hleast k' hmem).le
    · rw [Sorting.mem_visits_dependencies, Sorting.visits_order, hs.waiting, List.mem_append,
        List.mem_singleton, not_or, and_assoc]
      refine and_congr_right fun hp => and_congr_right fun _ => ?_
      constructor
      · rintro hchild rfl
        obtain ⟨deps, hmem, -⟩ := DependsOn.of_mem hp
        exact hchild (mem_childrenOf.2 ⟨mem_keysOf.2 ⟨deps, hmem⟩, hp⟩) rfl
      · exact fun hne _ => hne

theorem Sorting.Inv.turns (n : Nat) : ∀ {s : Sorting κ}, s.Inv tasks →
    (Sorting.turns (childrenOf tasks) n s).Inv tasks := by
  induction n with
  | zero => exact fun hs => hs
  | succ n ih => exact fun hs => ih hs.turn

/-- A turn lists a key, unless nothing is ready any more. -/
theorem Sorting.turns_progress (children : κ → List κ) (n : Nat) : ∀ s : Sorting κ,
    (Sorting.turns children n s).ready = [] ∨
      (Sorting.turns children n s).order.length = s.order.length + n := by
  induction n with
  | zero => exact fun _ => .inr rfl
  | succ n ih =>
    intro s
    rw [Sorting.turns]
    cases hr : s.ready with
    | nil =>
      have hstays : ∀ m, Sorting.turns children m s = s := by
        intro m
        induction m with
        | zero => rfl
        | succ m ihm => rw [Sorting.turns, Sorting.turn, hr]; exact ihm
      refine .inl ?_
      rw [Sorting.turn, hr]
      dsimp only
      rw [hstays, hr]
    | cons key ready =>
      have hlength : (s.turn children).order.length = s.order.length + 1 := by
        rw [Sorting.turn, hr]
        dsimp only
        rw [Sorting.visits_order, List.length_append, List.length_singleton]
      rcases ih (s.turn children) with hend | hcount
      · exact .inl hend
      · exact .inr (by omega)

theorem Sorting.inv_finish (tasks : List (κ × List κ)) : (Sorting.finish tasks).Inv tasks :=
  (Sorting.Inv.start tasks).turns _

/-- A listing of all keys. -/
theorem Sorting.Inv.all_of_length (hs : s.Inv tasks) (hlength : (keysOf tasks).length ≤ s.order.length) :
    ∀ k ∈ keysOf tasks, k ∈ s.order := by
  have hperm := (List.subperm_of_subset hs.greedy.nodup hs.greedy.subset).perm_of_length_le hlength
  exact fun k hk => hperm.mem_iff.2 hk

/-- The loop has ended after as many turns as there are keys. -/
theorem Sorting.finish_ready (tasks : List (κ × List κ)) : (Sorting.finish tasks).ready = [] := by
  have hI := Sorting.inv_finish tasks
  rcases Sorting.turns_progress (childrenOf tasks) (keysOf tasks).length (.start tasks) with hend | hcount
  · exact hend
  · refine List.eq_nil_iff_forall_not_mem.2 fun k hk => ?_
    have hall := hI.all_of_length (by rw [Sorting.finish, hcount]; exact Nat.le_add_left ..)
    have hav := hI.mem_ready.1 hk
    exact hav.fresh (hall k hav.key)

/-! ### The result -/

/-- Distinct keys whose dependencies are keys of the list. -/
structure Closed (tasks : List (κ × List κ)) : Prop where
  distinct : (tasks.map Prod.fst).Nodup
  known : ∀ t ∈ tasks, ∀ p ∈ t.2, p ∈ tasks.map Prod.fst

theorem Closed.keysOf_eq (hc : Closed tasks) : keysOf tasks = tasks.map Prod.fst := hc.distinct.dedup

omit [LinearOrder κ] in
theorem Closed.within (hc : Closed tasks) : Within (tasks.map Prod.fst) (DependsOn tasks) := by
  rintro p k ⟨deps, hmem, hp⟩
  exact ⟨hc.known _ hmem p hp, List.mem_map.2 ⟨_, hmem, rfl⟩⟩

/-- The list is the least of all linearizations of the tasks. -/
structure LeastOrder (tasks : List (κ × List κ)) (l : List κ) : Prop where
  linearizes : Linearizes (tasks.map Prod.fst) (DependsOn tasks) l
  least : ∀ l', Linearizes (tasks.map Prod.fst) (DependsOn tasks) l' → l ≤ l'

theorem LeastOrder.unique {l l' : List κ} (h : LeastOrder tasks l) (h' : LeastOrder tasks l') :
    l = l' :=
  le_antisymm (h.least l' h'.linearizes) (h'.least l h.linearizes)

theorem LeastOrder.perm (hc : Closed tasks) {l : List κ} (h : LeastOrder tasks l) :
    l.Perm (tasks.map Prod.fst) :=
  (List.perm_ext_iff_of_nodup h.linearizes.nodup hc.distinct).2 h.linearizes.mem

/-- The two ways `topological_order` ends. -/
theorem Closed.order_cases (hc : Closed tasks) :
    (topologicalOrder tasks = .error cycleError ∧ Cyclic (DependsOn tasks)) ∨
      ∃ l, topologicalOrder tasks = .ok l ∧ LeastOrder tasks l := by
  have hI := Sorting.inv_finish tasks
  have hdep : (fun p k => p ∈ dependenciesOf tasks k) = DependsOn tasks := by
    funext p k
    exact propext (mem_dependenciesOf hc.distinct)
  have hgreedy := hI.greedy
  rw [hdep, hc.keysOf_eq] at hgreedy
  have hstuck : ∀ k, ¬Available (tasks.map Prod.fst) (DependsOn tasks) (Sorting.finish tasks).order k := by
    intro k hk
    rw [← hdep, ← hc.keysOf_eq] at hk
    have hmem := hI.mem_ready.2 hk
    rw [Sorting.finish_ready] at hmem
    cases hmem
  have hknown : ((keysOf tasks).any fun key => (dependenciesOf tasks key).any fun parent =>
      parent ∉ keysOf tasks) = false := by
    rw [hc.keysOf_eq]
    refine List.any_eq_false.2 fun k _ hany => ?_
    obtain ⟨p, hp, hout⟩ := List.any_eq_true.1 hany
    exact of_decide_eq_true hout (hc.within p k (.of_mem hp)).1
  unfold topologicalOrder
  dsimp only
  rw [hknown, if_neg Bool.false_ne_true]
  by_cases hlength : (Sorting.finish tasks).order.length = (keysOf tasks).length
  · right
    have hall := hI.all_of_length hlength.ge
    rw [hc.keysOf_eq] at hall
    rw [if_neg (not_not.2 hlength)]
    exact ⟨_, rfl, hgreedy.linearizes hall, fun l' hl' => hgreedy.le hl'⟩
  · left
    rw [if_pos hlength]
    refine ⟨rfl, (all_or_cyclic hc.within hstuck).resolve_left fun hall => hlength ?_⟩
    rw [hc.keysOf_eq]
    exact ((List.perm_ext_iff_of_nodup hgreedy.nodup hc.distinct).2
      fun k => ⟨hgreedy.subset k, hall k⟩).length_eq

theorem Closed.order_ok (hc : Closed tasks) {l : List κ} :
    topologicalOrder tasks = .ok l ↔ LeastOrder tasks l := by
  rcases hc.order_cases with ⟨herror, hcyclic⟩ | ⟨l', hok, hleast⟩
  · rw [herror]
    exact iff_of_false (by simp) fun h => h.linearizes.acyclic hc.within hcyclic
  · rw [hok, Except.ok.injEq]
    constructor
    · rintro rfl
      exact hleast
    · exact fun h => hleast.unique h

theorem Closed.order_error (hc : Closed tasks) {e : String} :
    topologicalOrder tasks = .error e ↔ e = cycleError ∧ Cyclic (DependsOn tasks) := by
  rcases hc.order_cases with ⟨herror, hcyclic⟩ | ⟨l', hok, hleast⟩
  · rw [herror, Except.error.injEq]
    exact ⟨fun h => ⟨h.symm, hcyclic⟩, fun h => h.1.symm⟩
  · rw [hok]
    exact iff_of_false (by simp) fun h => hleast.linearizes.acyclic hc.within h.2

/-- The same tasks in another order, each with its dependencies in another order. -/
def Reordered (tasks tasks' : List (κ × List κ)) : Prop :=
  ∃ middle, tasks.Perm middle ∧ List.Forall₂ (fun t t' => t.1 = t'.1 ∧ t.2.Perm t'.2) middle tasks'

omit [LinearOrder κ] in
theorem Reordered.keys (h : Reordered tasks tasks') :
    (tasks.map Prod.fst).Perm (tasks'.map Prod.fst) := by
  obtain ⟨middle, hperm, hforall⟩ := h
  have hkeys : middle.map Prod.fst = tasks'.map Prod.fst := by
    clear hperm
    induction hforall with
    | nil => rfl
    | cons h _ ih => rw [List.map_cons, List.map_cons, h.1, ih]
  exact hkeys ▸ hperm.map Prod.fst

omit [LinearOrder κ] in
theorem Reordered.dependsOn (h : Reordered tasks tasks') : DependsOn tasks = DependsOn tasks' := by
  obtain ⟨middle, hperm, hforall⟩ := h
  funext p k
  refine propext ?_
  have hmiddle : DependsOn tasks p k ↔ DependsOn middle p k :=
    exists_congr fun deps => and_congr_left fun _ => hperm.mem_iff
  rw [hmiddle]
  clear hperm hmiddle
  induction hforall with
  | nil => exact Iff.rfl
  | @cons t t' middle tasks' h _ ih =>
    obtain ⟨k₁, deps₁⟩ := t
    obtain ⟨k₂, deps₂⟩ := t'
    obtain ⟨rfl, hdeps⟩ := h
    have hcons : ∀ (x : κ × List κ) l, DependsOn (x :: l) p k ↔ (x.1 = k ∧ p ∈ x.2) ∨ DependsOn l p k := by
      intro x l
      unfold DependsOn
      constructor
      · rintro ⟨deps, hmem, hp⟩
        rcases List.mem_cons.1 hmem with heq | hmem
        · exact .inl ⟨by rw [← heq], by rw [← heq]; exact hp⟩
        · exact .inr ⟨deps, hmem, hp⟩
      · rintro (⟨rfl, hp⟩ | ⟨deps, hmem, hp⟩)
        · exact ⟨x.2, List.mem_cons_self .., hp⟩
        · exact ⟨deps, List.mem_cons_of_mem _ hmem, hp⟩
    rw [hcons, hcons]
    exact or_congr (and_congr_right fun _ => hdeps.mem_iff) ih

omit [LinearOrder κ] in
theorem Reordered.closed (h : Reordered tasks tasks') (hc : Closed tasks) : Closed tasks' := by
  refine ⟨h.keys.nodup_iff.1 hc.distinct, fun t ht p hp => ?_⟩
  have hdep : DependsOn tasks p t.1 := by
    rw [h.dependsOn]
    exact ⟨t.2, ht, hp⟩
  exact h.keys.mem_iff.1 (hc.within p t.1 hdep).1

theorem Reordered.leastOrder (h : Reordered tasks tasks') {l : List κ} :
    LeastOrder tasks l ↔ LeastOrder tasks' l := by
  have hlin : ∀ l, Linearizes (tasks.map Prod.fst) (DependsOn tasks) l ↔
      Linearizes (tasks'.map Prod.fst) (DependsOn tasks') l := by
    intro l
    rw [h.dependsOn]
    exact ⟨fun hl => ⟨hl.nodup, fun k => (hl.mem k).trans h.keys.mem_iff, hl.before⟩,
      fun hl => ⟨hl.nodup, fun k => (hl.mem k).trans h.keys.mem_iff.symm, hl.before⟩⟩
  exact ⟨fun hl => ⟨(hlin l).1 hl.linearizes, fun l' hl' => hl.least l' ((hlin l').2 hl')⟩,
    fun hl => ⟨(hlin l).2 hl.linearizes, fun l' hl' => hl.least l' ((hlin l').1 hl')⟩⟩

/-- What `topological_order` does with the tasks. -/
structure OrdersTasks (tasks : List (κ × List κ)) : Prop where
  ends : (Sorting.finish tasks).ready = []
  cycle : ∀ e, topologicalOrder tasks = .error e ↔ e = cycleError ∧ Cyclic (DependsOn tasks)
  least : ∀ l, topologicalOrder tasks = .ok l ↔ LeastOrder tasks l
  permutes : ∀ l, topologicalOrder tasks = .ok l → l.Perm (tasks.map Prod.fst)
  reordered : ∀ tasks', Reordered tasks tasks' → topologicalOrder tasks' = topologicalOrder tasks

/-- `topological_order` ends, in the least order or in front of a cycle, however the input is arranged. -/
theorem topological_order_least (hc : Closed tasks) : OrdersTasks tasks := by
  refine ⟨Sorting.finish_ready tasks, fun e => hc.order_error, fun l => hc.order_ok,
    fun l hl => (hc.order_ok.1 hl).perm hc, fun tasks' h => ?_⟩
  rcases hc.order_cases with ⟨herror, hcyclic⟩ | ⟨l, hok, hleast⟩
  · rw [herror, (h.closed hc).order_error]
    exact ⟨rfl, h.dependsOn ▸ hcyclic⟩
  · rw [hok, (h.closed hc).order_ok]
    exact h.leastOrder.1 hleast

/-- The sample of the self-test. -/
theorem topological_order_sample :
    OrdersTasks [("a", []), ("b", ["a"])] ∧
      topologicalOrder [("a", []), ("b", ["a"])] = .ok ["a", "b"] :=
  ⟨topological_order_least ⟨by decide, by decide⟩, by decide⟩

example : topologicalOrder [("a", ["b"]), ("b", ["a"])] = .error cycleError := by decide

end HermesOps
