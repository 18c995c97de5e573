import HermesOps.Properties.ProcessSteps
import HermesOps.Properties.TopologicalOrder

/-! What `validate_plan` accepts. The tasks come back in an order in which every dependency stands
    before its task, the ancestors accumulated along that order are the transitive closure of the
    dependencies, and so two writers of one project are ordered by a path. A plan whose fields are
    fine is refused for nothing but its graph. -/

namespace HermesOps

open Schemes Controller Relation

variable {c : PlanContext} {tasks : List NormalizedTask}

/-! ### Fields -/

theorem checkPlan_ok {test : Bool} {text : String} {shown : List Json} {u : Unit} :
    checkPlan test text shown = .ok u ↔ test = true := by
  unfold checkPlan failPlan
  split <;> simp_all

theorem readBounded_ok {value : Json} {low high n : Int} {text : String}
    (h : readBounded value low high text = .ok n) : low ≤ n ∧ n ≤ high := by
  unfold readBounded at h
  split at h
  · cases h
  · split at h
    · rename_i hbounds
      cases h
      exact hbounds
    · cases h

theorem readKey_ok {index : Nat} {seen : List String} {raw : List (String × Json)} {key : String}
    (h : readKey index seen raw = .ok key) : key ∉ seen := by
  unfold readKey at h
  dsimp only at h
  split at h
  · cases h
  · obtain ⟨_, -, h⟩ := Except.bind_ok.1 h
    obtain ⟨_, hfresh, h⟩ := Except.bind_ok.1 h
    rw [checkPlan_ok] at hfresh
    cases h
    simpa using hfresh

theorem readDependencies_ok {raw : List (String × Json)} {key : String} {dependencies : List String}
    (h : readDependencies raw key = .ok dependencies) :
    dependencies.Nodup ∧ key ∉ dependencies := by
  unfold readDependencies at h
  split at h
  · cases h
  · obtain ⟨_, hdistinct, h⟩ := Except.bind_ok.1 h
    obtain ⟨_, hother, h⟩ := Except.bind_ok.1 h
    rw [checkPlan_ok] at hdistinct hother
    cases h
    exact ⟨by simpa using hdistinct, by simpa using hother⟩

/-- What the checks of a task leave. -/
structure NormalizedTask.Valid (t : NormalizedTask) : Prop where
  attempts : 1 ≤ t.maxAttempts ∧ t.maxAttempts ≤ 10
  distinct : t.dependencies.Nodup
  other : t.key ∉ t.dependencies
  project : t.kind = .pipeline → t.projectId.isSome = true

theorem normalizeTask_ok {index : Nat} {seen : List String} {raw : Json} {t : NormalizedTask}
    (h : normalizeTask c index seen raw = .ok t) : t.key ∉ seen ∧ t.Valid := by
  cases raw with
  | obj raw =>
    unfold normalizeTask at h
    obtain ⟨key, hkey, h⟩ := Except.bind_ok.1 h
    obtain ⟨kind, -, h⟩ := Except.bind_ok.1 h
    obtain ⟨dependencies, hdependencies, h⟩ := Except.bind_ok.1 h
    obtain ⟨instruction, -, h⟩ := Except.bind_ok.1 h
    obtain ⟨acceptance, -, h⟩ := Except.bind_ok.1 h
    obtain ⟨maxAttempts, hattempts, h⟩ := Except.bind_ok.1 h
    obtain ⟨priority, -, h⟩ := Except.bind_ok.1 h
    obtain ⟨hdistinct, hother⟩ := readDependencies_ok hdependencies
    dsimp only at h
    split at h
    · obtain ⟨⟨projectId, roleId, marker⟩, -, h⟩ := Except.bind_ok.1 h
      cases h
      exact ⟨readKey_ok hkey, readBounded_ok hattempts, hdistinct, hother, fun _ => rfl⟩
    · rename_i hkind
      obtain ⟨projectId, -, h⟩ := Except.bind_ok.1 h
      obtain ⟨duration, -, h⟩ := Except.bind_ok.1 h
      cases h
      exact ⟨readKey_ok hkey, readBounded_ok hattempts, hdistinct, hother, fun hk => absurd hk hkind⟩
  | _ => cases h

/-- What the loop over the tasks leaves. -/
structure FieldsChecked (tasks : List NormalizedTask) : Prop where
  keys : (tasks.map NormalizedTask.key).Nodup
  valid : ∀ t ∈ tasks, t.Valid

theorem normalizeTasks_ok {raws : List Json} : ∀ {index : Nat} {seen : List String}
    {tasks : List NormalizedTask}, normalizeTasks c index seen raws = .ok tasks →
    FieldsChecked tasks ∧ tasks.length = raws.length ∧ ∀ t ∈ tasks, t.key ∉ seen := by
  induction raws with
  | nil =>
    intro index seen tasks h
    cases h
    exact ⟨⟨List.nodup_nil, by simp⟩, rfl, by simp⟩
  | cons raw raws ih =>
    intro index seen tasks h
    unfold normalizeTasks at h
    obtain ⟨t, ht, h⟩ := Except.bind_ok.1 h
    obtain ⟨rest, hrest, h⟩ := Except.bind_ok.1 h
    cases h
    obtain ⟨hfresh, hvalid⟩ := normalizeTask_ok ht
    obtain ⟨hchecked, hlength, hseen⟩ := ih hrest
    refine ⟨⟨?_, ?_⟩, by rw [List.length_cons, List.length_cons, hlength], ?_⟩
    · rw [List.map_cons, List.nodup_cons]
      refine ⟨fun hmem => ?_, hchecked.keys⟩
      obtain ⟨u, hu, heq⟩ := List.mem_map.1 hmem
      exact hseen u hu (heq ▸ List.mem_append_right _ (List.mem_singleton_self _))
    · rintro u hu
      rcases List.mem_cons.1 hu with rfl | hu
      · exact hvalid
      · exact hchecked.valid u hu
    · rintro u hu
      rcases List.mem_cons.1 hu with rfl | hu
      · exact hfresh
      · exact fun hmem => hseen u hu (List.mem_append_left _ hmem)

theorem readPlan_ok {plan : List (String × Json)} {header : PlanHeader}
    (h : readPlan c plan = .ok (header, tasks)) :
    FieldsChecked tasks ∧ tasks.length = header.tasks.length ∧ readHeader plan = .ok header := by
  unfold readPlan at h
  obtain ⟨header', hheader, h⟩ := Except.bind_ok.1 h
  obtain ⟨tasks', htasks, h⟩ := Except.bind_ok.1 h
  cases h
  obtain ⟨hchecked, hlength, -⟩ := normalizeTasks_ok htasks
  exact ⟨hchecked, hlength, hheader⟩

/-! ### The graph of the tasks -/

/-- The dependencies as a relation between keys. -/
abbrev PlanDepends (tasks : List NormalizedTask) : String → String → Prop :=
  DependsOn (graphOf tasks)

theorem graphOf_keys (tasks : List NormalizedTask) :
    (graphOf tasks).map Prod.fst = tasks.map NormalizedTask.key := by
  rw [graphOf, List.map_map]
  rfl

theorem planDepends_iff {p k : String} :
    PlanDepends tasks p k ↔ ∃ t ∈ tasks, t.key = k ∧ p ∈ t.dependencies := by
  simp only [DependsOn, graphOf, List.mem_map, Prod.mk.injEq]
  constructor
  · rintro ⟨deps, ⟨t, ht, rfl, rfl⟩, hp⟩
    exact ⟨t, ht, rfl, hp⟩
  · rintro ⟨t, ht, rfl, hp⟩
    exact ⟨_, ⟨t, ht, rfl, rfl⟩, hp⟩

theorem checkKnown_ok {u : Unit} : checkKnown tasks = .ok u ↔
    ∀ t ∈ tasks, ∀ d ∈ t.dependencies, d ∈ tasks.map NormalizedTask.key := by
  unfold checkKnown
  dsimp only
  split
  · rename_i hnone
    refine iff_of_true rfl fun t ht d hd => ?_
    have hno := List.find?_eq_none.1 hnone t ht
    by_contra hout
    exact hno (List.any_eq_true.2 ⟨d, hd, decide_eq_true hout⟩)
  · rename_i t hsome
    refine iff_of_false (by simp [failPlan]) fun hall => ?_
    have hany := List.find?_some hsome
    obtain ⟨d, hd, hout⟩ := List.any_eq_true.1 hany
    exact of_decide_eq_true hout (hall t (List.mem_of_find?_eq_some hsome) d hd)

theorem FieldsChecked.closed (hf : FieldsChecked tasks)
    (hk : ∀ t ∈ tasks, ∀ d ∈ t.dependencies, d ∈ tasks.map NormalizedTask.key) :
    Closed (graphOf tasks) := by
  refine ⟨by rw [graphOf_keys]; exact hf.keys, fun x hx p hp => ?_⟩
  obtain ⟨t, ht, rfl⟩ := List.mem_map.1 hx
  rw [graphOf_keys]
  exact hk t ht p hp

/-! ### Ancestors -/

theorem addParent_other {key k parent : String} (ancestors : String → List String) (hk : k ≠ key) :
    addParent key ancestors parent k = ancestors k := Function.update_of_ne hk _ _

/-- What a task inherits from its parents, while those keep their own ancestors. -/
theorem mem_addParents {key p : String} (parents : List String) :
    ∀ {ancestors : String → List String}, key ∉ parents →
      (p ∈ parents.foldl (addParent key) ancestors key ↔
        p ∈ ancestors key ∨ ∃ q ∈ parents, p = q ∨ p ∈ ancestors q) := by
  induction parents with
  | nil => simp
  | cons parent parents ih =>
    intro ancestors hkey
    rw [List.mem_cons, not_or] at hkey
    rw [List.foldl_cons, ih hkey.2]
    have hself : p ∈ addParent key ancestors parent key ↔
        p ∈ ancestors key ∨ p = parent ∨ p ∈ ancestors parent := by
      rw [addParent, Function.update_self, List.mem_union_iff, List.mem_insert_iff]
      tauto
    have hother : ∀ q ∈ parents, addParent key ancestors parent q = ancestors q :=
      fun q hq => addParent_other ancestors fun heq => hkey.2 (heq ▸ hq)
    rw [hself]
    constructor
    · rintro ((h | h) | ⟨q, hq, h⟩)
      · exact .inl h
      · exact .inr ⟨parent, List.mem_cons_self .., h⟩
      · rw [hother q hq] at h
        exact .inr ⟨q, List.mem_cons_of_mem _ hq, h⟩
    · rintro (h | ⟨q, hq, h⟩)
      · exact .inl (.inl h)
      · rcases List.mem_cons.1 hq with rfl | hq
        · exact .inl (.inr h)
        · exact .inr ⟨q, hq, by rw [hother q hq]; exact h⟩

theorem addParents_other {key k : String} (parents : List String) (hk : k ≠ key) :
    ∀ ancestors : String → List String,
      parents.foldl (addParent key) ancestors k = ancestors k := by
  induction parents with
  | nil => exact fun _ => rfl
  | cons parent parents ih =>
    intro ancestors
    rw [List.foldl_cons, ih, addParent_other ancestors hk]

/-- Along a linearization the ancestors are the transitive closure. -/
theorem mem_ancestorsAlong {keys order : List String} {dependencies : String → List String}
    {dep : String → String → Prop} (hdep : ∀ p k, p ∈ dependencies k ↔ dep p k)
    (hl : Linearizes keys dep order) :
    ∀ k ∈ order, ∀ p, p ∈ ancestorsAlong dependencies order k ↔ TransGen dep p k := by
  have hbuild : ∀ l rest, order = l ++ rest →
      (∀ k ∈ l, ∀ p, p ∈ ancestorsAlong dependencies l k ↔ TransGen dep p k) ∧
        ∀ k, k ∉ l → ancestorsAlong dependencies l k = [] := by
    intro l
    induction l using List.reverseRecOn with
    | nil => exact fun _ _ => ⟨by simp, fun _ _ => rfl⟩
    | append_singleton l key ih =>
      intro rest heq
      rw [List.append_assoc, List.singleton_append] at heq
      obtain ⟨hclosure, hempty⟩ := ih (key :: rest) heq
      have hbefore : ∀ q ∈ dependencies key, q ∈ l := fun q hq =>
        hl.before l key rest heq q ((hdep q key).1 hq)
      have hfresh : key ∉ l := by
        have hnodup := hl.nodup
        rw [heq, List.nodup_append] at hnodup
        exact fun hmem => hnodup.2.2 key hmem key (List.mem_cons_self ..) rfl
      have hstep : ancestorsAlong dependencies (l ++ [key]) =
          (dependencies key).foldl (addParent key) (ancestorsAlong dependencies l) := by
        rw [ancestorsAlong, List.foldl_append]
        rfl
      rw [hstep]
      refine ⟨fun k hk p => ?_, fun k hk => ?_⟩
      · by_cases hkey : k = key
        · subst hkey
          rw [mem_addParents _ fun hmem => hfresh (hbefore k hmem), hempty k hfresh,
            TransGen.tail'_iff]
          constructor
          · rintro (h | ⟨q, hq, rfl | h⟩)
            · cases h
            · exact ⟨p, .refl, (hdep p k).1 hq⟩
            · exact ⟨q, ((hclosure q (hbefore q hq) p).1 h).to_reflTransGen, (hdep q k).1 hq⟩
          · rintro ⟨q, hpq, hq⟩
            have hq := (hdep q k).2 hq
            refine .inr ⟨q, hq, ?_⟩
            rcases reflTransGen_iff_eq_or_transGen.1 hpq with heq | hpq
            · exact .inl heq.symm
            · exact .inr ((hclosure q (hbefore q hq) p).2 hpq)
        · rw [addParents_other _ hkey]
          have hkl : k ∈ l := by simpa [hkey] using hk
          exact hclosure k hkl p
      · rw [List.mem_append, List.mem_singleton, not_or] at hk
        rw [addParents_other _ hk.2, hempty k hk.1]
  exact (hbuild order [] (List.append_nil _).symm).1

/-! ### Writers of one project -/

theorem mem_pairs {α : Type} {l : List α} {a b : α} (h : (a, b) ∈ pairs l) : a ∈ l ∧ b ∈ l := by
  induction l with
  | nil => cases h
  | cons x l ih =>
    rw [pairs, List.mem_append, List.mem_map] at h
    rcases h with ⟨y, hy, heq⟩ | h
    · cases heq
      exact ⟨List.mem_cons_self .., List.mem_cons_of_mem _ hy⟩
    · exact ⟨List.mem_cons_of_mem _ (ih h).1, List.mem_cons_of_mem _ (ih h).2⟩

theorem pairs_ne {α : Type} {l : List α} (hl : l.Nodup) {a b : α} (h : (a, b) ∈ pairs l) : a ≠ b := by
  induction l with
  | nil => cases h
  | cons x l ih =>
    rw [List.nodup_cons] at hl
    rw [pairs, List.mem_append, List.mem_map] at h
    rcases h with ⟨y, hy, heq⟩ | h
    · cases heq
      rintro rfl
      exact hl.1 hy
    · exact ih hl.2 h

/-- Two elements are a pair, one way or the other. -/
theorem pairs_total {α : Type} {l : List α} {a b : α} (ha : a ∈ l) (hb : b ∈ l) (hne : a ≠ b) :
    (a, b) ∈ pairs l ∨ (b, a) ∈ pairs l := by
  induction l with
  | nil => cases ha
  | cons x l ih =>
    rw [pairs, List.mem_append, List.mem_append, List.mem_map, List.mem_map]
    rcases List.mem_cons.1 ha with rfl | hal
    · rcases List.mem_cons.1 hb with rfl | hbl
      · exact absurd rfl hne
      · exact .inl (.inl ⟨b, hbl, rfl⟩)
    · rcases List.mem_cons.1 hb with rfl | hbl
      · exact .inr (.inl ⟨a, hal, rfl⟩)
      · exact (ih hal hbl).imp .inr .inr

theorem mem_pipelineKeys {project key : String} : (project, key) ∈ pipelineKeys tasks ↔
    ∃ t ∈ tasks, t.kind = .pipeline ∧ t.projectId = some project ∧ t.key = key := by
  rw [pipelineKeys, List.mem_filterMap]
  refine exists_congr fun t => and_congr_right fun _ => ?_
  by_cases hk : t.kind = .pipeline
  · rw [if_pos hk, Option.map_eq_some_iff]
    simp only [hk, true_and, Prod.mk.injEq]
    constructor
    · rintro ⟨p, hp, rfl, rfl⟩
      exact ⟨hp, rfl⟩
    · rintro ⟨hp, rfl⟩
      exact ⟨project, hp, rfl, rfl⟩
  · rw [if_neg hk]
    simp [hk]

/-- The keys of a project's writers, in the order of the tasks. -/
def writersOf (tasks : List NormalizedTask) (project : String) : List String :=
  ((pipelineKeys tasks).filter fun x => x.1 = project).map Prod.snd

theorem mem_writersOf {project key : String} :
    key ∈ writersOf tasks project ↔ (project, key) ∈ pipelineKeys tasks := by
  simp only [writersOf, List.mem_map, List.mem_filter, decide_eq_true_eq]
  constructor
  · rintro ⟨⟨p, k⟩, ⟨hmem, rfl⟩, rfl⟩
    exact hmem
  · exact fun h => ⟨(project, key), ⟨h, rfl⟩, rfl⟩

theorem writersOf_sublist (tasks : List NormalizedTask) (project : String) :
    (writersOf tasks project).Sublist (tasks.map NormalizedTask.key) := by
  induction tasks with
  | nil => exact .slnil
  | cons t tasks ih =>
    unfold writersOf pipelineKeys at ih ⊢
    rw [List.map_cons, List.filterMap_cons]
    split
    · exact ih.cons _
    · rename_i x hx
      obtain ⟨p, -, rfl⟩ : ∃ p, t.projectId = some p ∧ (p, t.key) = x := by
        split at hx
        · exact Option.map_eq_some_iff.1 hx
        · cases hx
      rw [List.filter_cons]
      split
      · exact ih.cons_cons _
      · exact ih.cons _

theorem mem_writerPairs {project left right : String} :
    (project, left, right) ∈ writerPairs tasks ↔ (left, right) ∈ pairs (writersOf tasks project) := by
  unfold writerPairs
  rw [List.mem_flatMap]
  constructor
  · rintro ⟨p, -, hmem⟩
    obtain ⟨⟨a, b⟩, hpair, heq⟩ := List.mem_map.1 hmem
    cases heq
    exact hpair
  · intro hpair
    refine ⟨project, ?_, List.mem_map.2 ⟨(left, right), hpair, rfl⟩⟩
    rw [List.mem_eraseDups]
    exact List.mem_map.2 ⟨(project, left), mem_writersOf.1 (mem_pairs hpair).1, rfl⟩

/-- Two writers of one project with no path between them. -/
structure Unordered (tasks : List NormalizedTask) (t u : NormalizedTask) : Prop where
  left : t ∈ tasks ∧ t.kind = .pipeline
  right : u ∈ tasks ∧ u.kind = .pipeline
  project : t.projectId = u.projectId
  distinct : t.key ≠ u.key
  apart : ¬TransGen (PlanDepends tasks) t.key u.key ∧ ¬TransGen (PlanDepends tasks) u.key t.key

theorem checkWriters_ok (hf : FieldsChecked tasks) (hc : Closed (graphOf tasks)) {order : List String}
    (ho : LeastOrder (graphOf tasks) order) {u : Unit} :
    checkWriters tasks order = .ok u ↔ ∀ t u, ¬Unordered tasks t u := by
  have hancestors : ∀ {k p}, k ∈ tasks.map NormalizedTask.key →
      (p ∈ ancestorsAlong (dependenciesOf (graphOf tasks)) order k ↔
        TransGen (PlanDepends tasks) p k) := by
    intro k p hk
    refine mem_ancestorsAlong (fun p k => mem_dependenciesOf hc.distinct) ho.linearizes k ?_ p
    rw [ho.linearizes.mem, graphOf_keys]
    exact hk
  unfold checkWriters
  dsimp only
  split
  · rename_i hnone
    refine iff_of_true rfl fun t u htu => ?_
    obtain ⟨project, hproject⟩ := Option.isSome_iff_exists.1
      ((hf.valid t htu.left.1).project htu.left.2)
    have ht := mem_writersOf.2 (mem_pipelineKeys.2 ⟨t, htu.left.1, htu.left.2, hproject, rfl⟩)
    have hu := mem_writersOf.2 (mem_pipelineKeys.2
      ⟨u, htu.right.1, htu.right.2, htu.project ▸ hproject, rfl⟩)
    have htkey := List.mem_map_of_mem (f := NormalizedTask.key) htu.left.1
    have hukey := List.mem_map_of_mem (f := NormalizedTask.key) htu.right.1
    rcases pairs_total ht hu htu.distinct with hpair | hpair
    · refine List.find?_eq_none.1 hnone _ (mem_writerPairs.2 hpair) (decide_eq_true ?_)
      rw [hancestors hukey, hancestors htkey]
      exact htu.apart
    · refine List.find?_eq_none.1 hnone _ (mem_writerPairs.2 hpair) (decide_eq_true ?_)
      rw [hancestors hukey, hancestors htkey]
      exact htu.apart.symm
  · rename_i project left right hsome
    refine iff_of_false (by simp [failPlan]) fun hnone => ?_
    have hpair := mem_writerPairs.1 (List.mem_of_find?_eq_some hsome)
    have hfound := List.find?_some hsome
    have hapart := of_decide_eq_true hfound
    obtain ⟨hleft, hright⟩ := mem_pairs hpair
    obtain ⟨t, ht, htk, htp, rfl⟩ := mem_pipelineKeys.1 (mem_writersOf.1 hleft)
    obtain ⟨u, hu, huk, hup, rfl⟩ := mem_pipelineKeys.1 (mem_writersOf.1 hright)
    have htkey := List.mem_map_of_mem (f := NormalizedTask.key) ht
    have hukey := List.mem_map_of_mem (f := NormalizedTask.key) hu
    rw [hancestors hukey, hancestors htkey] at hapart
    have hnodup := hf.keys.sublist (writersOf_sublist tasks project)
    exact hnone t u ⟨⟨ht, htk⟩, ⟨hu, huk⟩, htp.trans hup.symm, pairs_ne hnodup hpair, hapart⟩

/-! ### The order of the tasks -/

/-- The tasks of a plan: distinct keys, every dependency the key of an earlier task, and a path between
    every two writers of one project. -/
structure WellFormedPlan (tasks : List NormalizedTask) : Prop where
  keys : (tasks.map NormalizedTask.key).Nodup
  earlier : ∀ pre t post, tasks = pre ++ t :: post →
    ∀ d ∈ t.dependencies, d ∈ pre.map NormalizedTask.key
  writers : ∀ t ∈ tasks, ∀ u ∈ tasks, t.kind = .pipeline → u.kind = .pipeline →
    t.projectId = u.projectId → t.key ≠ u.key →
    TransGen (PlanDepends tasks) t.key u.key ∨ TransGen (PlanDepends tasks) u.key t.key

/-- What can be wrong with tasks whose fields are fine. -/
inductive GraphFault (tasks : List NormalizedTask) : Prop
  | unknown {t d} : t ∈ tasks → d ∈ t.dependencies → d ∉ tasks.map NormalizedTask.key → GraphFault tasks
  | cycle : Cyclic (PlanDepends tasks) → GraphFault tasks
  | writers {t u} : Unordered tasks t u → GraphFault tasks

/-- The tasks in the order of their keys. -/
def inOrder (tasks : List NormalizedTask) (order : List String) : List NormalizedTask :=
  order.filterMap fun key => tasks.find? fun t => t.key = key

theorem find_key (hf : FieldsChecked tasks) {t : NormalizedTask} (ht : t ∈ tasks) :
    (tasks.find? fun u => u.key = t.key) = some t := by
  cases hfound : tasks.find? fun u => u.key = t.key with
  | none => exact absurd (decide_eq_true rfl) (List.find?_eq_none.1 hfound t ht)
  | some u =>
    have hkey := List.find?_some hfound
    rw [Option.some.injEq]
    exact List.inj_on_of_nodup_map hf.keys (List.mem_of_find?_eq_some hfound) ht
      (of_decide_eq_true hkey)

theorem inOrder_perm (hf : FieldsChecked tasks) {order : List String}
    (ho : order.Perm (tasks.map NormalizedTask.key)) : (inOrder tasks order).Perm tasks := by
  have hall : (tasks.map NormalizedTask.key).filterMap (fun key => tasks.find? fun t => t.key = key) =
      tasks := by
    rw [List.filterMap_map]
    calc tasks.filterMap _ = tasks.filterMap some :=
          List.filterMap_congr fun t ht => find_key hf ht
      _ = tasks := List.filterMap_some
  have hperm := ho.filterMap fun key => tasks.find? fun t => t.key = key
  rw [hall] at hperm
  exact hperm

theorem inOrder_keys {order : List String} (ho : ∀ k ∈ order, k ∈ tasks.map NormalizedTask.key) :
    (inOrder tasks order).map NormalizedTask.key = order := by
  induction order with
  | nil => rfl
  | cons k order ih =>
    obtain ⟨t, ht, rfl⟩ := List.mem_map.1 (ho k (List.mem_cons_self ..))
    unfold inOrder at ih ⊢
    rw [List.filterMap_cons]
    cases hfound : tasks.find? fun u => u.key = t.key with
    | none => exact absurd (decide_eq_true rfl) (List.find?_eq_none.1 hfound t ht)
    | some u =>
      have hkey := List.find?_some hfound
      dsimp only
      rw [List.map_cons, of_decide_eq_true hkey, ih fun k hk => ho k (List.mem_cons_of_mem _ hk)]

theorem planDepends_perm {tasks' : List NormalizedTask} (h : tasks'.Perm tasks) :
    PlanDepends tasks' = PlanDepends tasks := by
  funext p k
  refine propext ?_
  rw [planDepends_iff, planDepends_iff]
  exact exists_congr fun t => and_congr_left fun _ => h.mem_iff

/-- The checks of the graph refuse tasks for a fault of the graph, or put them in order. -/
theorem orderTasks_cases (hf : FieldsChecked tasks) :
    (∃ e, orderTasks tasks = .error e ∧ GraphFault tasks) ∨
      ∃ order, orderTasks tasks = .ok (inOrder tasks order) ∧ LeastOrder (graphOf tasks) order ∧
        ∀ t u, ¬Unordered tasks t u := by
  unfold orderTasks
  rcases hknown : checkKnown tasks with e | u
  · left
    refine ⟨e, rfl, ?_⟩
    have hnot : ¬∀ t ∈ tasks, ∀ d ∈ t.dependencies, d ∈ tasks.map NormalizedTask.key := by
      rw [← checkKnown_ok (u := ()), hknown]
      simp
    push Not at hnot
    obtain ⟨t, ht, d, hd, hout⟩ := hnot
    exact .unknown ht hd hout
  have hc := hf.closed (checkKnown_ok.1 hknown)
  rcases hc.order_cases with ⟨herror, hcyclic⟩ | ⟨order, hok, hleast⟩
  · left
    rw [herror]
    exact ⟨_, rfl, .cycle hcyclic⟩
  rw [hok]
  rcases hwriters : checkWriters tasks order with e | u
  · left
    refine ⟨e, by simp only [hwriters]; rfl, ?_⟩
    have hnot : ¬∀ t u, ¬Unordered tasks t u := by
      rw [← checkWriters_ok hf hc hleast (u := ()), hwriters]
      simp
    push Not at hnot
    obtain ⟨t, u, htu⟩ := hnot
    exact .writers htu
  · right
    exact ⟨order, by simp only [hwriters]; rfl, hleast, (checkWriters_ok hf hc hleast).1 hwriters⟩

theorem inOrder_wellFormed (hf : FieldsChecked tasks) {order : List String}
    (ho : LeastOrder (graphOf tasks) order) (hu : ∀ t u, ¬Unordered tasks t u) :
    (inOrder tasks order).Perm tasks ∧ WellFormedPlan (inOrder tasks order) := by
  have hmem : ∀ k, k ∈ order ↔ k ∈ tasks.map NormalizedTask.key := by
    intro k
    rw [ho.linearizes.mem, graphOf_keys]
  have hperm : (inOrder tasks order).Perm tasks :=
    inOrder_perm hf ((List.perm_ext_iff_of_nodup ho.linearizes.nodup hf.keys).2 hmem)
  have hkeys : (inOrder tasks order).map NormalizedTask.key = order :=
    inOrder_keys fun k hk => (hmem k).1 hk
  refine ⟨hperm, by rw [hkeys]; exact ho.linearizes.nodup, fun pre t post heq d hd => ?_,
    fun t ht u hu' htk huk hproject hne => ?_⟩
  · have ht : t ∈ tasks := hperm.mem_iff.1 (heq ▸ List.mem_append_right _ (List.mem_cons_self ..))
    refine ho.linearizes.before (pre.map NormalizedTask.key) t.key (post.map NormalizedTask.key) ?_ d
      (planDepends_iff.2 ⟨t, ht, rfl, hd⟩)
    rw [← hkeys, heq, List.map_append, List.map_cons]
  · rw [planDepends_perm hperm]
    by_contra hapart
    rw [not_or] at hapart
    exact hu t u ⟨⟨hperm.mem_iff.1 ht, htk⟩, ⟨hperm.mem_iff.1 hu', huk⟩, hproject, hne, hapart⟩

/-! ### The whole plan -/

/-- What `validate_plan` accepts is well formed and has the tasks of the plan; what passes the field checks
    is refused for its graph alone. -/
structure ValidatesPlans (c : PlanContext) : Prop where
  accepted : ∀ plan p, validatePlan c plan = .ok p → WellFormedPlan p.tasks
  tasks : ∀ plan p, validatePlan c plan = .ok p →
    ∃ header tasks, readPlan c plan = .ok (header, tasks) ∧ p.tasks.Perm tasks
  refused : ∀ plan header tasks e, readPlan c plan = .ok (header, tasks) →
    validatePlan c plan = .error e → GraphFault tasks

/-- An accepted plan has passed the field checks, and its tasks are in order. -/
theorem validatePlan_ok {plan : List (String × Json)} {p : ValidPlan} (h : validatePlan c plan = .ok p) :
    ∃ header tasks, readPlan c plan = .ok (header, tasks) ∧
      p.maxParallelTasks = header.maxParallelTasks ∧ p.tasks.Perm tasks ∧ WellFormedPlan p.tasks := by
  unfold validatePlan at h
  obtain ⟨⟨header, tasks⟩, hread, h⟩ := Except.bind_ok.1 h
  obtain ⟨ordered, hordered, h⟩ := Except.bind_ok.1 h
  cases h
  have hf := (readPlan_ok hread).1
  rcases orderTasks_cases hf with ⟨e, herror, -⟩ | ⟨order, hok, hleast, hwriters⟩
  · rw [herror] at hordered
    cases hordered
  · rw [hok, Except.ok.injEq] at hordered
    subst hordered
    obtain ⟨hperm, hwell⟩ := inOrder_wellFormed hf hleast hwriters
    exact ⟨header, tasks, hread, rfl, hperm, hwell⟩

/-- An accepted plan is a graph of distinct tasks with serialized writers, and nothing else is asked of the
    graph. -/
theorem validate_plan_dag (c : PlanContext) : ValidatesPlans c := by
  refine ⟨fun plan p hp => ?_, fun plan p hp => ?_, fun plan header tasks e hread herror => ?_⟩
  · obtain ⟨-, -, -, -, -, hwell⟩ := validatePlan_ok hp
    exact hwell
  · obtain ⟨header, tasks, hread, -, hperm, -⟩ := validatePlan_ok hp
    exact ⟨header, tasks, hread, hperm⟩
  · rcases orderTasks_cases (readPlan_ok hread).1 with ⟨e', -, hfault⟩ | ⟨order, hok, -⟩
    · exact hfault
    · unfold validatePlan at herror
      rw [hread] at herror
      dsimp only [bind, Except.bind] at herror
      rw [hok] at herror
      cases herror

/-! ### The plan that is inserted -/

/-- The columns of the task that are written; `ids` numbers the projects. -/
def NormalizedTask.planTask (ids : String → ProjectId) (t : NormalizedTask) : PlanTask where
  key := t.key
  kind := t.kind
  projectId := t.projectId.map ids
  priority := t.priority
  maxAttempts := t.maxAttempts.toNat
  dependencies := t.dependencies

theorem readHeader_ok {plan : List (String × Json)} {header : PlanHeader}
    (h : readHeader plan = .ok header) :
    (1 ≤ header.maxParallelTasks ∧ header.maxParallelTasks ≤ 16) ∧
      1 ≤ header.tasks.length ∧ header.tasks.length ≤ 32 := by
  unfold readHeader at h
  obtain ⟨_, -, h⟩ := Except.bind_ok.1 h
  split at h
  · cases h
  · obtain ⟨_, -, h⟩ := Except.bind_ok.1 h
    obtain ⟨_, -, h⟩ := Except.bind_ok.1 h
    obtain ⟨maximum, hmaximum, h⟩ := Except.bind_ok.1 h
    split at h
    · obtain ⟨_, hsize, h⟩ := Except.bind_ok.1 h
      cases h
      rw [checkPlan_ok, decide_eq_true_eq] at hsize
      exact ⟨readBounded_ok hmaximum, hsize⟩
    · cases h

/-- Nobody depends on a later task. -/
theorem WellFormedPlan.ordered (hw : WellFormedPlan tasks) :
    tasks.Pairwise fun earlier later => later.key ∉ earlier.dependencies := by
  have hsuffix : ∀ post pre, tasks = pre ++ post →
      post.Pairwise fun earlier later => later.key ∉ earlier.dependencies := by
    intro post
    induction post with
    | nil => exact fun _ _ => .nil
    | cons t post ih =>
      intro pre heq
      refine .cons (fun u hu hdep => ?_) (ih (pre ++ [t]) (by rw [heq, List.append_assoc]; rfl))
      have hkeys := hw.keys
      rw [heq, List.map_append, List.nodup_append] at hkeys
      exact hkeys.2.2 u.key (hw.earlier pre t post heq u.key hdep) u.key
        (List.mem_map_of_mem (List.mem_cons_of_mem _ hu)) rfl
  exact hsuffix tasks [] rfl

/-- An accepted plan is one that the database model can insert. -/
theorem validatePlan_normalized {plan : List (String × Json)} {p : ValidPlan} (ids : String → ProjectId)
    (h : validatePlan c plan = .ok p) : ∃ n : NormalizedPlan,
      n.tasks = p.tasks.map (NormalizedTask.planTask ids) ∧
        (n.maxParallelTasks : Int) = p.maxParallelTasks := by
  obtain ⟨header, tasks, hread, hmaximum, hperm, hw⟩ := validatePlan_ok h
  obtain ⟨hf, hlength, hheader⟩ := readPlan_ok hread
  obtain ⟨hbounds, hsize⟩ := readHeader_ok hheader
  have hvalid : ∀ t ∈ p.tasks, t.Valid := fun t ht => hf.valid t (hperm.mem_iff.1 ht)
  have hmap : (p.tasks.map (NormalizedTask.planTask ids)).map PlanTask.key =
      p.tasks.map NormalizedTask.key := by
    rw [List.map_map]
    rfl
  have hrow : ∀ t ∈ p.tasks.map (NormalizedTask.planTask ids), ∃ u ∈ p.tasks, u.planTask ids = t :=
    fun t ht => List.mem_map.1 ht
  refine ⟨⟨p.maxParallelTasks.toNat, p.tasks.map (NormalizedTask.planTask ids), by omega,
    by rw [List.length_map, hperm.length_eq]; omega, by rw [hmap]; exact hw.keys,
    List.pairwise_map.2 hw.ordered, fun t ht k hk => ?_, fun t ht => ?_, fun t ht => ?_,
    fun t ht hkind => ?_⟩, rfl, by dsimp only; omega⟩
  · obtain ⟨u, hu, rfl⟩ := hrow t ht
    refine ⟨fun heq => (hvalid u hu).other ?_, ?_⟩
    · have hself : k = u.key := heq
      exact hself ▸ hk
    · obtain ⟨pre, post, heq⟩ := List.append_of_mem hu
      rw [hmap, heq, List.map_append]
      exact List.mem_append_left _ (hw.earlier pre u post heq k hk)
  · obtain ⟨u, hu, rfl⟩ := hrow t ht
    exact (hvalid u hu).distinct
  · obtain ⟨u, hu, rfl⟩ := hrow t ht
    have hattempts := (hvalid u hu).attempts
    simp only [NormalizedTask.planTask]
    omega
  · obtain ⟨u, hu, rfl⟩ := hrow t ht
    have hproject := (hvalid u hu).project hkind
    simp only [NormalizedTask.planTask, Option.isSome_map]
    exact hproject

/-- One committing worker role and one project. -/
def sampleContext : PlanContext :=
  ⟨⟨[("builder", ⟨true, "worker", true, false⟩)], by decide⟩, ⟨[("demo", true)], by decide⟩, false, true⟩

/-- A writer of the project, and one that depends on it. -/
def sampleTasks : List Json :=
  let writer (key : String) (dependencies : List Json) : Json :=
    .obj [("acceptance_criteria", .arr [.str "done"]), ("dependencies", .arr dependencies),
      ("instruction", .str "write"), ("key", .str key), ("marker", .str "m"),
      ("project_id", .str "demo"), ("role_id", .str "builder")]
  [writer "a" [.str "b"], writer "b" []]

example : (validatePlan sampleContext [("objective", .str "x"), ("schema_version", .int 1),
    ("tasks", .arr sampleTasks)]).toOption.map (fun p => p.tasks.map NormalizedTask.key) =
      some ["b", "a"] := by decide +kernel

end HermesOps
