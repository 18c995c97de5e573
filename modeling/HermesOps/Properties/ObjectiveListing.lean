import HermesOps.Properties.ObjectiveViews

/-! A client that lists the objectives page by page while the control plane goes on. No step changes the
    time of an objective or the projects it is about, and none removes one; so the pages together show
    every objective that meets the filters all along, none twice and the newest first, and there are pages
    enough for all. -/

namespace HermesOps.ObjectiveReads

open Schemes

/-! ### Following the cursors -/

/-- The databases at each page: steps of the control plane come before every one of them. -/
def databasesAlong (m : Machine Action World) (w : World) : List (List Action) → List Database
  | [] => []
  | as :: later => (m.run w as).db :: databasesAlong m (m.run w as) later

/-- What a client collects that asks for one page after another; nothing when a page is refused, or when
    none of them is the last. -/
def listing (n : Names) (known : ProjectId → Bool) (limit : Nat) (f : Filters) :
    Option Cursor → List Database → Option (List Item)
  | _, [] => none
  | cursor, d :: later =>
    match listObjectives d n known limit cursor f with
    | .error _ => none
    | .ok (items, none) => some items
    | .ok (items, some next) => (listing n known limit f (some next) later).map (items ++ ·)

def Item.row (item : Item) : Row := (item.objectiveId, item.objective)

variable {d : Database} {w : World} {n : Names} {known : ProjectId → Bool} {limit : Nat} {f : Filters}
  {databases : List Database} {shown : List Item} {k : Option Key}

theorem cursor_key : (k.map (Cursor.mk f)).map Cursor.key = k := by
  cases k <;> rfl

theorem listObjectives_eq (hlimit : 1 ≤ limit ∧ limit ≤ 200) (hknown : f.projectId.all known = true)
    (hread : ∀ x ∈ (Pagination.page n.key limit k (selected d f)).items, readable x.2 = true) :
    listObjectives d n known limit (k.map (Cursor.mk f)) f =
      .ok ((Pagination.page n.key limit k (selected d f)).items.map
          fun x => ⟨x.1, x.2, objectiveView d x.2⟩,
        (Pagination.page n.key limit k (selected d f)).next.map (Cursor.mk f)) := by
  have hfilters : ¬(k.map (Cursor.mk f)).any (fun c => c.filters ≠ f) = true := by cases k <;> simp
  rw [listObjectives, if_neg (not_not.2 hlimit), if_neg hfilters, if_neg (not_not.2 hknown), cursor_key]
  exact if_pos (List.all_eq_true.2 hread)

/-- A page that is not refused is the page of the selected rows. -/
theorem listed_page {items : List Item} {following : Option Cursor}
    (h : listObjectives d n known limit (k.map (Cursor.mk f)) f = .ok (items, following)) :
    items.map Item.row = (Pagination.page n.key limit k (selected d f)).items ∧
      following = (Pagination.page n.key limit k (selected d f)).next.map (Cursor.mk f) := by
  unfold listObjectives at h
  rw [cursor_key] at h
  split at h
  · cases h
  · split at h
    · cases h
    · split at h
      · cases h
      · dsimp only at h
        split at h
        · cases h
          refine ⟨?_, rfl⟩
          rw [List.map_map]
          exact List.map_id _
        · cases h

/-- What is collected is what the pages have of the selected rows. -/
theorem listing_traverse (h : listing n known limit f (k.map (Cursor.mk f)) databases = some shown) :
    Pagination.traverse n.key limit k (databases.map fun d => selected d f) =
      some (shown.map Item.row) := by
  induction databases generalizing k shown with
  | nil => cases h
  | cons d later ih =>
    rw [listing] at h
    rw [List.map_cons]
    cases hlist : listObjectives d n known limit (k.map (Cursor.mk f)) f with
    | error e =>
      rw [hlist] at h
      cases h
    | ok found =>
      obtain ⟨items, following⟩ := found
      obtain ⟨hitems, hfollowing⟩ := listed_page hlist
      rw [hlist] at h
      cases hnext : (Pagination.page n.key limit k (selected d f)).next with
      | none =>
        rw [hnext] at hfollowing
        obtain rfl : following = none := hfollowing
        obtain rfl := Option.some.inj h
        rw [Pagination.traverse_last hnext, hitems]
      | some c =>
        rw [hnext] at hfollowing
        obtain rfl : following = some ⟨f, c⟩ := hfollowing
        obtain ⟨rest, hrest, rfl⟩ := Option.map_eq_some_iff.1 h
        have hrest : listing n known limit f ((some c).map (Cursor.mk f)) later = some rest := hrest
        rw [Pagination.traverse_next hnext, ih hrest, Option.map_some, List.map_append, hitems]

/-- The last page is reached where the pages of the selected rows have one, when every row is read. -/
theorem listing_isSome (hlimit : 1 ≤ limit ∧ limit ≤ 200) (hknown : f.projectId.all known = true)
    (hread : ∀ d ∈ databases, ∀ x ∈ selected d f, readable x.2 = true)
    (h : (Pagination.traverse n.key limit k (databases.map fun d => selected d f)).isSome) :
    (listing n known limit f (k.map (Cursor.mk f)) databases).isSome := by
  induction databases generalizing k with
  | nil => exact h
  | cons d later ih =>
    have hpage : ∀ x ∈ (Pagination.page n.key limit k (selected d f)).items, readable x.2 = true :=
      fun x hx => hread d List.mem_cons_self x (Pagination.mem_page hx).1
    rw [listing, listObjectives_eq hlimit hknown hpage]
    rw [List.map_cons] at h
    cases hnext : (Pagination.page n.key limit k (selected d f)).next with
    | none => rfl
    | some c =>
      rw [Pagination.traverse_next hnext, Option.isSome_map] at h
      change ((listing n known limit f ((some c).map (Cursor.mk f)) later).map _).isSome = true
      rw [Option.isSome_map]
      exact ih (fun d hd => hread d (List.mem_cons_of_mem _ hd)) h

/-- Every entry is shown as a reader of its objective sees it when its page is read. -/
theorem listing_views {cursor : Option Cursor} (h : listing n known limit f cursor databases = some shown) :
    ∀ item ∈ shown, ∃ d ∈ databases, (item.objectiveId, item.objective) ∈ selected d f ∧
      view d item.objectiveId = some item.view := by
  induction databases generalizing cursor shown with
  | nil => cases h
  | cons d later ih =>
    have here : ∀ {items next}, listObjectives d n known limit cursor f = .ok (items, next) →
      ∀ item ∈ items,
        ∃ d' ∈ d :: later, (item.objectiveId, item.objective) ∈ selected d' f ∧
          view d' item.objectiveId = some item.view := by
      intro items next hlist item hitem
      obtain ⟨hmem, hread, hview⟩ := mem_listed hlist hitem
      exact ⟨d, List.mem_cons_self, hmem, view_some.2 ⟨_, (mem_selected.1 hmem).1, hread, hview.symm⟩⟩
    rw [listing] at h
    cases hlist : listObjectives d n known limit cursor f with
    | error e =>
      rw [hlist] at h
      cases h
    | ok found =>
      obtain ⟨items, next⟩ := found
      rw [hlist] at h
      cases next with
      | none =>
        obtain rfl := Option.some.inj h
        exact here hlist
      | some next =>
        obtain ⟨rest, hrest, rfl⟩ := Option.map_eq_some_iff.1 h
        intro item hitem
        rcases List.mem_append.1 hitem with hitem | hitem
        · exact here hlist item hitem
        · obtain ⟨d', hd', hitem⟩ := ih hrest item hitem
          exact ⟨d', List.mem_cons_of_mem _ hd', hitem⟩

/-! ### The databases along a run -/

section Runs

variable {h : History} {config : Config} {ass : List (List Action)} {id : ObjectiveId} {o : Objective}

theorem length_databasesAlong (m : Machine Action World) (w : World) (ass : List (List Action)) :
    (databasesAlong m w ass).length = ass.length := by
  induction ass generalizing w with
  | nil => rfl
  | cons as later ih => rw [databasesAlong, List.length_cons, ih, List.length_cons]

/-- An objective that is there at first is in every database. -/
theorem keeps_along (ho : w.db.queue.objectives.get? id = some o) :
    ∀ d ∈ databasesAlong (machine h config) w ass,
      ∃ o', d.queue.objectives.get? id = some o' ∧ SameEntry o o' := by
  induction ass generalizing w o with
  | nil =>
    intro d hd
    cases hd
  | cons as later ih =>
    intro d hd
    obtain ⟨o', ho', hsame⟩ := run_keeps h config w as id o ho
    rcases List.mem_cons.1 hd with rfl | hd
    · exact ⟨o', ho', hsame⟩
    · obtain ⟨o'', ho'', hsame'⟩ := ih ho' d hd
      exact ⟨o'', ho'', hsame.trans hsame'⟩

/-- An objective that is in one of the databases is there at the end. -/
theorem keeps_to_end : ∀ d ∈ databasesAlong (machine h config) w ass,
    Keeps d.queue.objectives ((machine h config).run w ass.flatten).db.queue.objectives := by
  induction ass generalizing w with
  | nil =>
    intro d hd
    cases hd
  | cons as later ih =>
    intro d hd
    rw [List.flatten_cons, Machine.run_append]
    rcases List.mem_cons.1 hd with rfl | hd
    · exact run_keeps h config _ later.flatten
    · exact ih d hd

theorem key_same {n : Names} {o o' : Objective} (hsame : SameEntry o o') :
    n.key (id, o') = n.key (id, o) := by
  rw [Names.key, Names.key, hsame.createdAt]

theorem key_inj {n : Names} {x z : Row} (hkey : n.key x = n.key z) : x.1 = z.1 :=
  n.injective (congrArg (fun k : Key => OrderDual.ofDual (ofLex k).2) hkey)

theorem selected_distinct (d : Database) (n : Names) (f : Filters) : ((selected d f).map n.key).Nodup := by
  have hids : ((selected d f).map Prod.fst).Nodup := Table.nodup_select_keys _ _
  refine List.Nodup.map_on (fun x hx y hy hkey => ?_) (List.Nodup.of_map _ hids)
  exact List.inj_on_of_nodup_map hids hx hy (key_inj hkey)

/-- Keys in order are those of newer objectives first. -/
theorem key_lt {n : Names} {x z : Row} (hlt : n.key x < n.key z) :
    z.2.createdAt < x.2.createdAt ∨ z.2.createdAt = x.2.createdAt ∧ n.text z.1 < n.text x.1 := by
  rw [Names.key, Names.key, Prod.Lex.toLex_lt_toLex] at hlt
  rcases hlt with hlt | ⟨heq, hlt⟩
  · exact .inl (OrderDual.toDual_lt_toDual.1 hlt)
  · exact .inr ⟨(OrderDual.toDual.injective heq).symm, OrderDual.toDual_lt_toDual.1 hlt⟩

/-- The pages are asked for while the control plane goes on. If the client comes to the last page, it has
    the objectives newest first and none twice, each as it was seen when its page was read, and every
    objective that met the filters at every page. If every objective can be read and there are pages
    enough for all of them, it comes to the last. -/
theorem objectives_listed (h : History) (config : Config) (n : Names) (known : ProjectId → Bool)
    (f : Filters)
    (hlimit : 1 ≤ limit ∧ limit ≤ 200) (hknown : f.projectId.all known = true) (w : World)
    (ass : List (List Action)) :
    (∀ shown, listing n known limit f none (databasesAlong (machine h config) w ass) = some shown →
      (shown.map Item.objectiveId).Nodup ∧
      shown.Pairwise (fun a b => b.objective.createdAt ≤ a.objective.createdAt) ∧
      (∀ item ∈ shown, ∃ d ∈ databasesAlong (machine h config) w ass,
        view d item.objectiveId = some item.view ∧
        ∀ s, f.state = some s → item.view.1 = s) ∧
      ∀ id o, w.db.queue.objectives.get? id = some o →
        (∀ d ∈ databasesAlong (machine h config) w ass, ∀ o', d.queue.objectives.get? id = some o' →
          f.selects d o' = true) → ∃ item ∈ shown, item.objectiveId = id) ∧
    (ass ≠ [] →
      (∀ id o, ((machine h config).run w ass.flatten).db.queue.objectives.get? id = some o →
        readable o = true) →
      ((machine h config).run w ass.flatten).db.queue.objectives.rows.length ≤ limit * ass.length →
      (listing n known limit f none (databasesAlong (machine h config) w ass)).isSome) := by
  have hdistinct : ∀ rows ∈ (databasesAlong (machine h config) w ass).map fun d => selected d f,
      (rows.map n.key).Nodup := by
    intro rows hrows
    obtain ⟨d, -, rfl⟩ := List.mem_map.1 hrows
    exact selected_distinct d n f
  refine ⟨fun shown hshown => ?_, fun hsome hread hcount => ?_⟩
  · change listing n known limit f ((none : Option Key).map (Cursor.mk f)) _ = _ at hshown
    have htraverse := listing_traverse hshown
    have hviews := listing_views hshown
    have hsorted : shown.Pairwise fun a b => n.key a.row < n.key b.row := by
      have hrows := Pagination.traverse_sorted hdistinct htraverse
      rwa [List.map_map, List.pairwise_map] at hrows
    have hend : ∀ item ∈ shown, ∃ o, ((machine h config).run w ass.flatten).db.queue.objectives.get?
        item.objectiveId = some o ∧ SameEntry item.objective o := by
      intro item hitem
      obtain ⟨d, hd, hmem, -⟩ := hviews item hitem
      exact keeps_to_end d hd _ _ (mem_selected.1 hmem).1
    refine ⟨?_, hsorted.imp fun hlt => ?_, fun item hitem => ?_, fun id o ho hadmit => ?_⟩
    · rw [List.Nodup, List.pairwise_map]
      refine hsorted.imp_of_mem fun {a b} ha hb hlt hid => ?_
      obtain ⟨o, ho, hsame⟩ := hend a ha
      obtain ⟨o', ho', hsame'⟩ := hend b hb
      obtain rfl : o = o' := Option.some.inj (ho.symm.trans (hid ▸ ho'))
      have hkey : n.key a.row = n.key b.row := by
        rw [Names.key, Names.key, Item.row, Item.row, hid, ← hsame.createdAt, ← hsame'.createdAt]
      exact absurd hlt (hkey ▸ lt_irrefl _)
    · rcases key_lt hlt with hlt | ⟨heq, -⟩
      · exact hlt.le
      · exact heq.le
    · obtain ⟨d, hd, hmem, hview⟩ := hviews item hitem
      refine ⟨d, hd, hview, fun s hs => ?_⟩
      obtain ⟨ho, -, hstate⟩ := mem_selected.1 hmem
      obtain ⟨o, ho', -, hshows⟩ := view_some.1 hview
      obtain rfl : item.objective = o := Option.some.inj (ho.symm.trans ho')
      rw [← hshows]
      exact hstate s hs
    · have hkey : n.key (id, o) ∈ (shown.map Item.row).map n.key := by
        refine Pagination.traverse_complete hlimit.1 hdistinct htraverse (Pagination.past_none _)
          fun rows hrows => ?_
        obtain ⟨d, hd, rfl⟩ := List.mem_map.1 hrows
        obtain ⟨o', ho', hsame⟩ := keeps_along ho d hd
        exact List.mem_map.2 ⟨(id, o'), Table.mem_select.2 ⟨ho', hadmit d hd o' ho'⟩, key_same hsame⟩
      obtain ⟨x, hx, hsame⟩ := List.mem_map.1 hkey
      obtain ⟨item, hitem, rfl⟩ := List.mem_map.1 hx
      exact ⟨item, hitem, key_inj hsame⟩
  · have htotal : (Pagination.traverse n.key limit none
        ((databasesAlong (machine h config) w ass).map fun d => selected d f)).isSome := by
      refine Pagination.traverse_isSome
        (((machine h config).run w ass.flatten).db.queue.objectives.rows.map n.key) hdistinct ?_ ?_ ?_
      · intro rows hrows x hx
        obtain ⟨d, hd, rfl⟩ := List.mem_map.1 hrows
        obtain ⟨o, ho, hsame⟩ := keeps_to_end d hd x.1 x.2 (Table.mem_select.1 hx).1
        exact List.mem_map.2 ⟨(x.1, o), Table.mem_rows_iff.2 ho, key_same hsame⟩
      · intro hnil
        have hlength := length_databasesAlong (machine h config) w ass
        rw [List.map_eq_nil_iff.1 hnil] at hlength
        exact hsome (List.length_eq_zero_iff.1 hlength.symm)
      · rw [List.length_map, length_databasesAlong]
        refine (List.length_filter_le _ _).trans ?_
        rw [List.length_map]
        exact hcount
    refine listing_isSome (k := none) hlimit hknown (fun d hd x hx => ?_) htotal
    obtain ⟨o, ho, hsame⟩ := keeps_to_end d hd x.1 x.2 (Table.mem_select.1 hx).1
    exact hsame.readable.symm.trans (hread x.1 o ho)

end Runs

/-! ### A listing -/

/-- Identifiers as texts of one length or another. -/
def sampleNames : Names where
  text id := String.ofList ("objective-".toList ++ List.replicate id '0')
  injective i j hij := by
    have hlists := List.append_cancel_left (String.ofList_injective hij)
    simpa using congrArg List.length hlists

def sampleListed : World := Scenario.system.run Scenario.start
  [.objective (.submit 0 Scenario.submission 1), .objective (.submit 1 Scenario.submission 2)]

/-- Pages of one objective; a third is submitted after the first page. -/
def samplePages : List (List Action) := [[], [.objective (.submit 2 Scenario.submission 3)], []]

theorem sampleListed_listing : ∃ shown, listing sampleNames (fun _ => true) 1 ⟨none, none⟩ none
      (databasesAlong Scenario.system sampleListed samplePages) = some shown ∧
    (shown.map Item.objectiveId).Nodup ∧ (∃ item ∈ shown, item.objectiveId = 0) ∧
    ∃ item ∈ shown, item.objectiveId = 1 := by
  have hlimit : 1 ≤ 1 ∧ 1 ≤ 200 := by decide
  obtain ⟨hlisted, hsome⟩ := objectives_listed Scenario.history Scenario.config sampleNames (fun _ => true)
    ⟨none, none⟩ hlimit rfl sampleListed samplePages
  have hread : ∀ x ∈ (Scenario.system.run sampleListed samplePages.flatten).db.queue.objectives.rows,
      readable x.2 = true := by
    decide
  obtain ⟨shown, hshown⟩ := Option.isSome_iff_exists.1
    (hsome (by decide) (fun id o ho => hread (id, o) (Table.mem_rows_iff.2 ho)) (by decide))
  obtain ⟨hnodup, -, -, hall⟩ := hlisted shown hshown
  have hfirst : ∃ o, sampleListed.db.queue.objectives.get? 0 = some o :=
    Option.isSome_iff_exists.1 (by decide)
  have hsecond : ∃ o, sampleListed.db.queue.objectives.get? 1 = some o :=
    Option.isSome_iff_exists.1 (by decide)
  obtain ⟨o, ho⟩ := hfirst
  obtain ⟨o', ho'⟩ := hsecond
  exact ⟨shown, hshown, hnodup, hall 0 o ho fun _ _ _ _ => rfl, hall 1 o' ho' fun _ _ _ _ => rfl⟩

end HermesOps.ObjectiveReads
