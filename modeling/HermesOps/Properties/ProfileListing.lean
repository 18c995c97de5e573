import HermesOps.Properties.ProfileCursors
import HermesOps.Properties.ProfileReads

/-! A client that lists the profiles page by page while the writers go on. The names of profiles do not
    change and no profile is removed, so the pages together show every profile that was there before the
    first one, each once and in the order of the names; and there are pages enough for all. -/

namespace HermesOps.Profiles

open Schemes Controller.Commands Hermesfile

variable {y : Reader} {p : Hashing} {x : CursorRules} {secret : String} {t : Tables} {w : World}

/-! ### Following the cursors -/

/-- The tables at each page: actions of the writers come before every one of them. -/
def tablesAlong (m : Machine Action World) (w : World) : List (List Action) → List Tables
  | [] => []
  | as :: later => (m.run w as).store.content :: tablesAlong m (m.run w as) later

/-- What a client collects that asks for one page after another; nothing when a page fails, or when none
    of them is the last. -/
def listing (x : CursorRules) (secret : String) (limit : Nat) (state : Option ProfileState) :
    Option String → List Tables → Option (List Profile)
  | _, [] => none
  | cursor, t :: later =>
    match listPage x secret t limit cursor state with
    | .error _ => none
    | .ok (items, none) => some items
    | .ok (items, some next) => (listing x secret limit state (some next) later).map (items ++ ·)

/-! ### One page -/

/-- A cursor of an existing profile, or none. -/
structure Following (x : CursorRules) (secret : String) (state : Option ProfileState)
    (cursor : Option String)
    (after : Option (String × String)) : Prop where
  written : cursor = after.map (encodeCursor x secret state)
  valid : ∀ k, after = some k → namePattern.fullMatch k.1 = true ∧ isSandboxId k.2 = true

variable {limit : Nat} {state : Option ProfileState} {cursor : Option String}
  {after : Option (String × String)}

theorem decodeAfter_following (hf : x.floats.Sound) (hdigest : ∀ k m, (x.hmac k m).length = 32)
    (h : Following x secret state cursor after) : decodeAfter x secret state cursor = .ok after := by
  obtain ⟨rfl, hvalid⟩ := h
  cases after with
  | none => rfl
  | some k =>
    change (decodeCursor x secret state (encodeCursor x secret state k)).map some = .ok (some k)
    rw [(decodeCursor_iff hf hdigest).2 ⟨(hvalid k rfl).1, (hvalid k rfl).2, rfl⟩]
    rfl

theorem listPage_eq (hf : x.floats.Sound) (hdigest : ∀ k m, (x.hmac k m).length = 32)
    (hlimit : 1 ≤ limit ∧ limit ≤ maxListLimit) (h : Following x secret state cursor after) :
    listPage x secret t limit cursor state = ((t.page limit after state).items.mapM profileProjection).map
      fun items => (items, ((t.page limit after state).next.map ofLex).map
        (encodeCursor x secret state)) := by
  unfold listPage
  rw [show Controller.require _ _ = .ok () from if_pos (decide_eq_true hlimit),
    decodeAfter_following hf hdigest h]
  change (listProfiles t limit after state >>= _) = _
  rw [listProfiles_eq hlimit]
  cases (t.page limit after state).items.mapM profileProjection with
  | error e => rfl
  | ok items => rfl

/-- The cursor of the next page is one of a profile. -/
theorem Numbered.following (hn : Numbered y t) {k : String ×ₗ String}
    (h : (t.page limit after state).next = some k) :
    Following x secret state (some (encodeCursor x secret state (ofLex k))) (some (ofLex k)) := by
  obtain ⟨-, z, hz, rfl⟩ := Pagination.page_more h
  have hrow := hn.checked (mem_page (List.mem_of_getLast? hz)).profile
  have hcheck := of_decide_eq_true hrow
  refine ⟨rfl, fun k hk => ?_⟩
  obtain rfl := Option.some.inj hk
  exact ⟨hcheck.2.1, hcheck.1⟩

theorem mapM_append {α β ε : Type} {f : α → Except ε β} {l l' : List α} {ys ys' : List β}
    (h : l.mapM f = .ok ys) (h' : l'.mapM f = .ok ys') : (l ++ l').mapM f = .ok (ys ++ ys') := by
  rw [List.mapM_append, h, h']
  rfl

/-- What is collected is the projection of what the pages have. -/
theorem listing_traverse (hf : x.floats.Sound) (hdigest : ∀ k m, (x.hmac k m).length = 32)
    (hlimit : 1 ≤ limit ∧ limit ≤ maxListLimit) {tables : List Tables} (hn : ∀ t ∈ tables, Numbered y t)
    {shown : List Profile} (hfollow : Following x secret state cursor after)
    (h : listing x secret limit state cursor tables = some shown) :
    ∃ rows, Pagination.traverse rowKey limit (after.map toLex)
    (tables.map fun t => t.inState state) = some rows ∧
      rows.mapM profileProjection = .ok shown := by
  induction tables generalizing cursor after shown with
  | nil => cases h
  | cons t later ih =>
    rw [listing, listPage_eq hf hdigest hlimit hfollow] at h
    rw [List.map_cons]
    cases hitems : (t.page limit after state).items.mapM profileProjection with
    | error e =>
      rw [hitems] at h
      cases h
    | ok items =>
      rw [hitems] at h
      cases hnext : (t.page limit after state).next with
      | none =>
        rw [hnext] at h
        obtain rfl := Option.some.inj h
        exact ⟨_, Pagination.traverse_last hnext, hitems⟩
      | some k =>
        rw [hnext] at h
        change (listing x secret limit state (some (encodeCursor x secret state (ofLex k))) later).map _
          = _ at h
        obtain ⟨rest, hrest, rfl⟩ := Option.map_eq_some_iff.1 h
        obtain ⟨rows, hrows, hshown⟩ := ih (fun t ht => hn t (List.mem_cons_of_mem _ ht))
          ((hn t List.mem_cons_self).following hnext) hrest
        change Pagination.traverse rowKey limit (some k) _ = some rows at hrows
        refine ⟨(t.page limit after state).items ++ rows, ?_, mapM_append hitems hshown⟩
        rw [Pagination.traverse_next hnext, hrows]
        rfl

theorem Numbered.page_projects (hn : Numbered y t)
    (hpublic : ∀ id row, t.profiles.get? id = some row → row.Public) :
    ∃ items, (t.page limit after state).items.mapM profileProjection = .ok items :=
  mapM_ok_iff.2 fun _ hx => (hn.projection_ok (mem_page hx)).2 (hpublic _ _ (mem_page hx).profile)

/-- A client that finds only public profiles collects all pages. -/
theorem listing_isSome (hf : x.floats.Sound) (hdigest : ∀ k m, (x.hmac k m).length = 32)
    (hlimit : 1 ≤ limit ∧ limit ≤ maxListLimit) {tables : List Tables} (hn : ∀ t ∈ tables, Numbered y t)
    (hpublic : ∀ t ∈ tables, ∀ id row, t.profiles.get? id = some row → row.Public)
    (hfollow : Following x secret state cursor after)
    (h : (Pagination.traverse rowKey limit (after.map toLex)
      (tables.map fun t => t.inState state)).isSome) :
    (listing x secret limit state cursor tables).isSome := by
  induction tables generalizing cursor after with
  | nil => cases h
  | cons t later ih =>
    have ht := hn t List.mem_cons_self
    obtain ⟨items, hitems⟩ : ∃ items, (t.page limit after state).items.mapM profileProjection = .ok items :=
      ht.page_projects (hpublic t List.mem_cons_self)
    rw [listing, listPage_eq hf hdigest hlimit hfollow, hitems]
    rw [List.map_cons] at h
    cases hnext : (t.page limit after state).next with
    | none => rfl
    | some k =>
      rw [Pagination.traverse_next hnext, Option.isSome_map] at h
      change ((listing x secret limit state
        (some (encodeCursor x secret state (ofLex k))) later).map _).isSome
      rw [Option.isSome_map]
      exact ih (fun t ht => hn t (List.mem_cons_of_mem _ ht))
        (fun t ht => hpublic t (List.mem_cons_of_mem _ ht))
        (ht.following hnext) h

/-! ### The tables along a run -/

variable {ass : List (List Action)}

theorem WorldInv.numberedAlong (hw : WorldInv y w) :
    ∀ t ∈ tablesAlong (profileMachine y p) w ass, Numbered y t := by
  induction ass generalizing w with
  | nil =>
    intro t ht
    cases ht
  | cons as later ih =>
    intro t ht
    rcases List.mem_cons.1 ht with rfl | ht
    · exact (hw.run as).numbered
    · exact ih (hw.run as) t ht

/-- A profile that is there at first is in every table under its name. -/
theorem WorldInv.staysAlong (hw : WorldInv y w) {id : String} {row : ProfileRow}
    (hrow : w.store.content.profiles.get? id = some row) :
    ∀ t ∈ tablesAlong (profileMachine y p) w ass, ∃ row', t.profiles.get? id = some row' ∧
      row'.profileName = row.profileName := by
  induction ass generalizing w row with
  | nil =>
    intro t ht
    cases ht
  | cons as later ih =>
    intro t ht
    obtain ⟨next, hnext, hname, -⟩ := hw.identity (p := p) as hrow
    rcases List.mem_cons.1 ht with rfl | ht
    · exact ⟨next, hnext, hname⟩
    · obtain ⟨last, hlast, hsame⟩ := ih (hw.run as) hnext t ht
      exact ⟨last, hlast, hsame.trans hname⟩

/-- A profile that is in one of the tables is there at the end. -/
theorem WorldInv.staysToEnd (hw : WorldInv y w) {id : String} {row : ProfileRow} :
    ∀ t ∈ tablesAlong (profileMachine y p) w ass, t.profiles.get? id = some row →
      ∃ row', ((profileMachine y p).run w ass.flatten).store.content.profiles.get? id = some row' ∧
        row'.profileName = row.profileName := by
  induction ass generalizing w with
  | nil =>
    intro t ht
    cases ht
  | cons as later ih =>
    intro t ht hrow
    rw [List.flatten_cons, Machine.run_append]
    rcases List.mem_cons.1 ht with rfl | ht
    · obtain ⟨last, hlast, hname, -⟩ := (hw.run as).identity (p := p) later.flatten hrow
      exact ⟨last, hlast, hname⟩
    · exact ih (hw.run as) t ht hrow

theorem length_tablesAlong (m : Machine Action World) (w : World) (ass : List (List Action)) :
    (tablesAlong m w ass).length = ass.length := by
  induction ass generalizing w with
  | nil => rfl
  | cons as later ih => rw [tablesAlong, List.length_cons, ih, List.length_cons]

theorem project_some {r : CurrentRow} {profile : Profile} (h : profileProjection r = .ok profile) :
    profile.id = r.sandboxId ∧ profile.profileName = r.profile.profileName := by
  unfold profileProjection at h
  cases hproject : r.project with
  | none =>
    rw [hproject] at h
    cases h
  | some shown =>
    rw [hproject] at h
    obtain rfl := Except.ok.inj h
    unfold CurrentRow.project at hproject
    split at hproject
    · obtain ⟨displayName, -, hproject⟩ := Option.bind_eq_some_iff.1 hproject
      obtain ⟨description, -, hproject⟩ := Option.bind_eq_some_iff.1 hproject
      obtain ⟨members, -, hproject⟩ := Option.bind_eq_some_iff.1 hproject
      obtain ⟨labels, -, hproject⟩ := Option.bind_eq_some_iff.1 hproject
      obtain ⟨diagnostics, -, hproject⟩ := Option.bind_eq_some_iff.1 hproject
      rw [← Option.some.inj hproject]
      exact ⟨rfl, rfl⟩
    · cases hproject

/-- The keys of the profiles at the end of a run. -/
def Tables.keys (t : Tables) : List (String ×ₗ String) :=
  t.profiles.rows.map fun r => toLex (r.2.profileName, r.1)

theorem mapM_ok_map {α β γ ε : Type} {f : α → Except ε β} {g : α → γ} {k : β → γ}
    (hf : ∀ a b, f a = .ok b → k b = g a) {l : List α} {ys : List β} (h : l.mapM f = .ok ys) :
    ys.map k = l.map g := by
  induction l generalizing ys with
  | nil =>
    obtain rfl := Except.ok.inj h
    rfl
  | cons a l ih =>
    rw [List.mapM_cons] at h
    cases ha : f a with
    | error e =>
      rw [ha] at h
      cases h
    | ok b =>
      rw [ha] at h
      cases hl : l.mapM f with
      | error e =>
        rw [hl] at h
        cases h
      | ok bs =>
        rw [hl] at h
        obtain rfl := Except.ok.inj h
        rw [List.map_cons, List.map_cons, hf a b ha, ih hl]

/-- The identifiers and names that are shown. -/
theorem shown_names {rows : List CurrentRow} {shown : List Profile}
    (h : rows.mapM profileProjection = .ok shown) :
    (shown.map fun profile => (profile.id, profile.profileName)) =
      rows.map fun r => (r.sandboxId, r.profile.profileName) :=
  mapM_ok_map (fun _ _ hr => Prod.ext (project_some hr).1 (project_some hr).2) h

/-- Keys in order have names in order when no name has two identifiers. -/
theorem names_sorted {rows : List CurrentRow} (hrows : (rows.map rowKey).Pairwise (· < ·))
    (hnames : ∀ a ∈ rows, ∀ b ∈ rows, a.profile.profileName = b.profile.profileName →
    a.sandboxId = b.sandboxId) :
    (rows.map fun r => r.profile.profileName).Pairwise (· < ·) := by
  rw [List.pairwise_map] at hrows ⊢
  refine hrows.imp_of_mem fun {a b} ha hb hab => ?_
  rw [rowKey, rowKey, Prod.Lex.toLex_lt_toLex] at hab
  rcases hab with hname | ⟨hname, hid⟩
  · exact hname
  · rw [show a.sandboxId = b.sandboxId from hnames a ha b hb hname] at hid
    exact absurd hid (lt_irrefl _)

/-- The pages are asked for while the three writers go on. If the client comes to the last page, it has
    every profile that was there before the first, none twice and all in the order of their names, and none
    that is not there at the end. If the profiles that it meets are public and there are pages enough for
    all profiles, it comes to the last. -/
theorem listing_exact (hf : x.floats.Sound) (hdigest : ∀ k m, (x.hmac k m).length = 32)
    (h : (profileMachine y p).Reachable (fun _ _ => True) w) (hlimit : 1 ≤ limit ∧ limit ≤ maxListLimit)
    (secret : String) (ass : List (List Action)) :
    (∀ shown, listing x secret limit none none (tablesAlong (profileMachine y p) w ass) = some shown →
      (shown.map Profile.profileName).Pairwise (· < ·) ∧
      (∀ id row, w.store.content.profiles.get? id = some row →
        ∃ profile ∈ shown, profile.id = id ∧ profile.profileName = row.profileName) ∧
      ∀ profile ∈ shown, ∃ row,
        ((profileMachine y p).run w ass.flatten).store.content.profiles.get? profile.id = some row ∧
          row.profileName = profile.profileName) ∧
    (ass ≠ [] →
      ((profileMachine y p).run w ass.flatten).store.content.profiles.rows.length ≤ limit * ass.length →
      (∀ t ∈ tablesAlong (profileMachine y p) w ass, ∀ id row, t.profiles.get? id = some row → row.Public) →
        (listing x secret limit none none (tablesAlong (profileMachine y p) w ass)).isSome) := by
  have hw : WorldInv y w := worldInv_reachable h
  have hn : ∀ t ∈ tablesAlong (profileMachine y p) w ass, Numbered y t := hw.numberedAlong
  have hfollow : Following x secret none none none := ⟨rfl, fun k hk => by cases hk⟩
  have hdistinct : ∀ rows ∈ (tablesAlong (profileMachine y p) w ass).map fun t => t.inState none,
      (rows.map rowKey).Nodup := by
    intro rows hrows
    obtain ⟨t, -, rfl⟩ := List.mem_map.1 hrows
    exact inState_distinct t none
  refine ⟨fun shown hshown => ?_, fun hsome hcount hpublic => ?_⟩
  · obtain ⟨rows, hrows, hprojected⟩ := listing_traverse hf hdigest hlimit hn hfollow hshown
    have hpairs := shown_names hprojected
    have hend : ∀ r ∈ rows, ∃ row,
      ((profileMachine y p).run w ass.flatten).store.content.profiles.get? r.sandboxId =
        some row ∧ row.profileName = r.profile.profileName := by
      intro r hr
      obtain ⟨⟨_, hstate, hmem⟩, -⟩ := Pagination.traverse_mem hdistinct hrows hr
      obtain ⟨t, ht, rfl⟩ := List.mem_map.1 hstate
      exact hw.staysToEnd t ht (Profiles.mem_selectCurrent.1 hmem).1.profile
    refine ⟨?_, fun id row hrow => ?_, fun profile hprofile => ?_⟩
    · have hnames := names_sorted (Pagination.traverse_sorted hdistinct hrows) fun a ha b hb hname => by
        obtain ⟨rowA, hrowA, hnameA⟩ := hend a ha
        obtain ⟨rowB, hrowB, hnameB⟩ := hend b hb
        exact (hw.run ass.flatten).numbered.named hrowA hrowB (hnameA.trans (hname.trans hnameB.symm))
      have hsame := congrArg (List.map Prod.snd) hpairs
      rw [List.map_map, List.map_map] at hsame
      exact hsame ▸ hnames
    · have hkey : toLex (row.profileName, id) ∈ rows.map rowKey := by
        refine Pagination.traverse_complete hlimit.1 hdistinct hrows
          (Pagination.past_none _) fun state hstate => ?_
        obtain ⟨t, ht, rfl⟩ := List.mem_map.1 hstate
        obtain ⟨row', hrow', hname⟩ := hw.staysAlong hrow t ht
        obtain ⟨r, hr, hid, hprofile⟩ := (hn t ht).mem_selectCurrent (fun _ _ => true) hrow' rfl
        exact List.mem_map.2 ⟨r, hr, by rw [rowKey, hprofile, hid, hname]⟩
      obtain ⟨r, hr, hsame⟩ := List.mem_map.1 hkey
      have hpair := Prod.mk.inj (toLex_inj.1 hsame)
      have hmem : (id, row.profileName) ∈ shown.map fun profile => (profile.id, profile.profileName) := by
        rw [hpairs]
        exact List.mem_map.2 ⟨r, hr, Prod.ext hpair.2 hpair.1⟩
      obtain ⟨profile, hprofile, heq⟩ := List.mem_map.1 hmem
      exact ⟨profile, hprofile, (Prod.mk.inj heq).1, (Prod.mk.inj heq).2⟩
    · have hmem : (profile.id, profile.profileName) ∈
          rows.map fun r => (r.sandboxId, r.profile.profileName) := by
        rw [← hpairs]
        exact List.mem_map.2 ⟨profile, hprofile, rfl⟩
      obtain ⟨r, hr, heq⟩ := List.mem_map.1 hmem
      obtain ⟨row, hrow, hname⟩ := hend r hr
      obtain ⟨hid, hsame⟩ := Prod.mk.inj heq
      exact ⟨row, hid ▸ hrow, hname.trans hsame⟩
  · refine listing_isSome hf hdigest hlimit hn hpublic hfollow ?_
    refine Pagination.traverse_isSome
      ((profileMachine y p).run w ass.flatten).store.content.keys hdistinct ?_ ?_ ?_
    · intro rows hrows r hr
      obtain ⟨t, ht, rfl⟩ := List.mem_map.1 hrows
      obtain ⟨hrow, -⟩ := Profiles.mem_selectCurrent.1 hr
      obtain ⟨last, hlast, hname⟩ := hw.staysToEnd t ht hrow.profile
      exact List.mem_map.2 ⟨(r.sandboxId, last), Table.mem_rows_iff.2 hlast, by rw [hname]; rfl⟩
    · intro hnil
      have hlength := length_tablesAlong (profileMachine y p) w ass
      rw [List.map_eq_nil_iff.1 hnil] at hlength
      exact hsome (List.length_eq_zero_iff.1 hlength.symm)
    · rw [List.length_map, length_tablesAlong]
      refine (List.length_filter_le _ _).trans ?_
      rw [Tables.keys, List.length_map]
      exact hcount

/-- Two pages of one profile, with the import that waits in between. -/
def samplePages : List (List Action) := [[], [.write 0 sampleIds none]]

theorem sampleWorld_listing :
    (∀ shown, listing sampleCursorRules sampleSecret 1 none none
        (tablesAlong (profileMachine sampleReader sampleHashing) sampleWorld samplePages) = some shown →
      (shown.map Profile.profileName).Pairwise (· < ·) ∧
      (∀ id row, sampleWorld.store.content.profiles.get? id = some row →
        ∃ profile ∈ shown, profile.id = id ∧ profile.profileName = row.profileName) ∧
      ∀ profile ∈ shown, ∃ row, ((profileMachine sampleReader sampleHashing).run sampleWorld
        samplePages.flatten).store.content.profiles.get? profile.id = some row ∧
          row.profileName = profile.profileName) ∧
    (samplePages ≠ [] → ((profileMachine sampleReader sampleHashing).run sampleWorld
        samplePages.flatten).store.content.profiles.rows.length ≤ 1 * samplePages.length →
      (∀ t ∈ tablesAlong (profileMachine sampleReader sampleHashing) sampleWorld samplePages,
        ∀ id row, t.profiles.get? id = some row → row.Public) →
      (listing sampleCursorRules sampleSecret 1 none none
        (tablesAlong (profileMachine sampleReader sampleHashing) sampleWorld samplePages)).isSome) :=
  listing_exact Controller.sampleFloats_sound sampleCursorRules_digest sampleWorld_reachable (by decide)
    sampleSecret samplePages

end HermesOps.Profiles
