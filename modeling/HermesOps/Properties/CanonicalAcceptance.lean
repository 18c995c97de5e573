import HermesOps.Properties.HermesfileCanonical

/-! The canonical form of an accepted Hermesfile is accepted. Its edits keep every constraint of the
    document and add no warning, so only the bound on the data nodes can be broken, by the defaults. -/

namespace HermesOps.Hermesfile

open Schemes.Checks

variable {lib : Library} {es : List Edit} {e : Edit} {m m' : Members}

/-! ### Edits and constraints -/

theorem get_of_some {key : String} {x : Value} (h : m.get? key = some x) : m.get key = x := by
  rw [Members.get, h, Option.getD_some]

section

variable (hnodup : (editedKeys es).Nodup) (h : applyEdits es m = some m')

include h

theorem get_untouched {key : String} (hkey : key ∉ editedKeys es) : m'.get key = m.get key := by
  rw [Members.get, get?_applyEdits h hkey, Members.get]

theorem present_untouched {key : String} {P : Value → Prop} (hkey : key ∉ editedKeys es)
    (hp : Present m key P) : Present m' key P := by
  rwa [Present, get?_applyEdits h hkey]

theorem keepsField_untouched {key : String} {gs : List (CheckGroup Value)} (hkey : key ∉ editedKeys es) :
    Keeps (fieldGroups key gs) m m' := Keeps.same (congrArg some (get_untouched h hkey).symm)

include hnodup

theorem present_edited (he : e ∈ es) {P Q : Value → Prop} (hedit : ∀ x y, e.edit x = some y → P x → Q y)
    (hdefault : ∀ x y, e.absent = .default x → e.edit x = some y → Q y) (hp : Present m e.key P) :
    Present m' e.key Q := by
  intro y hy
  cases hx : m.get? e.key with
  | some x =>
    obtain ⟨y', hedited, hget⟩ := edited_some hnodup h he hx
    rw [hget, Option.some.injEq] at hy
    rw [← hy]
    exact hedit x y' hedited (hp x hx)
  | none =>
    cases habsent : e.absent with
    | raises =>
      obtain ⟨x, -, hsome, -⟩ := edited_raises hnodup h he habsent
      rw [hx] at hsome
      cases hsome
    | skipped =>
      rw [edited_skipped hnodup h he hx habsent] at hy
      cases hy
    | default x =>
      obtain ⟨y', hedited, hget⟩ := edited_default hnodup h he hx habsent
      rw [hget, Option.some.injEq] at hy
      rw [← hy]
      exact hdefault x y' habsent hedited

/-- The groups of a field that is edited. -/
theorem keeps_edited (he : e ∈ es) {gs : List (CheckGroup Value)}
    (hedit : ∀ x y, e.edit x = some y → Keeps gs x y)
    (hdefault : ∀ x y, e.absent = .default x → e.edit x = some y → Silent gs y) :
    Keeps (presentGroups e.key gs) m m' := by
  cases hx : m.get? e.key with
  | some x =>
    obtain ⟨y, hedited, hget⟩ := edited_some hnodup h he hx
    exact Keeps.comap hx hget (hedit x y hedited)
  | none =>
    cases habsent : e.absent with
    | raises =>
      obtain ⟨x, -, hsome, -⟩ := edited_raises hnodup h he habsent
      rw [hx] at hsome
      cases hsome
    | skipped => exact Keeps.same (hx.trans (edited_skipped hnodup h he hx habsent).symm)
    | default x =>
      obtain ⟨y, hedited, hget⟩ := edited_default hnodup h he hx habsent
      exact Keeps.silent hx hget (hdefault x y habsent hedited)

/-- A field keeps its place and only a default is new. -/
theorem keys_edited {required optional : List String}
    (hdefault : ∀ e ∈ es, ∀ x, e.absent = .default x → e.key ∈ required ++ optional)
    (hrequired : ∀ key ∈ required, key ∈ m.keys) (hknown : ∀ key ∈ m.keys, key ∈ required ++ optional) :
    (∀ key ∈ required, key ∈ m'.keys) ∧ ∀ key ∈ m'.keys, key ∈ required ++ optional := by
  constructor
  · intro key hkey
    obtain ⟨x, hx⟩ := Members.mem_keys_iff.1 (hrequired key hkey)
    by_cases hedited : key ∈ editedKeys es
    · obtain ⟨e, he, rfl⟩ := List.mem_map.1 hedited
      obtain ⟨y, -, hy⟩ := edited_some hnodup h he hx
      exact Members.mem_keys_iff.2 ⟨y, hy⟩
    · exact Members.mem_keys_iff.2 ⟨x, (get?_applyEdits h hedited).trans hx⟩
  · intro key hkey
    by_cases hold : key ∈ m.keys
    · exact hknown key hold
    obtain ⟨y, hy⟩ := Members.mem_keys_iff.1 hkey
    have hx := Members.get?_eq_none_iff.2 hold
    by_cases hedited : key ∈ editedKeys es
    · obtain ⟨e, he, rfl⟩ := List.mem_map.1 hedited
      cases habsent : e.absent with
      | raises =>
        obtain ⟨x, -, hsome, -⟩ := edited_raises hnodup h he habsent
        rw [hx] at hsome
        cases hsome
      | skipped =>
        rw [edited_skipped hnodup h he hx habsent] at hy
        cases hy
      | default x => exact hdefault e he x habsent
    · rw [get?_applyEdits h hedited, hx] at hy
      cases hy

end

/-- The constraints of an object that is edited. -/
theorem Table.edited {required optional : List String} {P Q : Members → Prop} {x y : Value}
    (hnodup : (editedKeys es).Nodup)
    (hdefault : ∀ e ∈ es, ∀ x, e.absent = .default x → e.key ∈ required ++ optional)
    (hfields : ∀ m m', applyEdits es m = some m' → P m → Q m') (h : editObject es x = some y)
    (hx : Table required optional x P) : Table required optional y Q := by
  obtain ⟨m, rfl, hrequired, hknown, hp⟩ := hx
  obtain ⟨m', hm', rfl⟩ := Option.map_eq_some_iff.1 h
  obtain ⟨hrequired, hknown⟩ := keys_edited hnodup hm' hdefault hrequired hknown
  exact ⟨m', rfl, hrequired, hknown, hfields m m' hm' hp⟩

/-- The groups of an object that is edited. -/
theorem keeps_object {required optional : List String} {gs : List (CheckGroup Members)} {x y : Value}
    (hnodup : (editedKeys es).Nodup)
    (hdefault : ∀ e ∈ es, ∀ x, e.absent = .default x → e.key ∈ required ++ optional)
    (hfields : ∀ m m', applyEdits es m = some m' → Keeps gs m m') (h : editObject es x = some y) :
    Keeps (objectGroups required optional gs) x y := by
  refine Keeps.constraint (Table.edited hnodup hdefault (fun _ _ _ _ => trivial) h) ?_
  obtain ⟨m, hm, h⟩ := Option.bind_eq_some_iff.1 h
  obtain ⟨m', hm', rfl⟩ := Option.map_eq_some_iff.1 h
  exact Keeps.comap hm rfl (hfields m m' hm')

/-! ### Texts and numbers -/

theorem accepts_plain {rule : StringRule} {t : String} (h : isPlain t = true) (hmin : rule.minimum ≤ 1)
    (hmax : 32 ≤ rule.maximum) (hpattern : rule.pattern t = true) (henum : rule.enum = none) :
    rule.Accepts t := by
  obtain ⟨hlength, hone, hall⟩ := of_decide_eq_true h
  have hchar : ∀ c ∈ t.toList, 32 < c.toNat ∧ c.toNat < 127 := fun c hc =>
    of_decide_eq_true (List.all_eq_true.1 hall c hc)
  constructor
  · omega
  · omega
  · rw [List.any_eq_false]
    intro c hc
    have := hchar c hc
    rw [isControl, Bool.not_eq_true, Bool.or_eq_false_iff, decide_eq_false_iff_not,
      Bool.and_eq_false_iff, decide_eq_false_iff_not]
    exact ⟨Or.inl (by omega), by omega⟩
  · rw [Bool.and_eq_false_iff, List.any_eq_false]
    refine Or.inr fun c hc => ?_
    have := hchar c hc
    simp only [Bool.or_eq_true, decide_eq_true_eq, not_or]
    constructor <;> rintro rfl
    · exact absurd this.1 (by decide)
    · exact absurd this.1 (by decide)
  · exact hpattern
  · rw [henum]
    rfl

theorem duration_edited {x y : Value} (h : canonicalDurationText x = some y) : Duration y := by
  obtain ⟨t, ht, rfl⟩ := Option.map_eq_some_iff.1 h
  obtain ⟨s, -, hs⟩ := Option.bind_eq_some_iff.1 ht
  obtain ⟨hplain, hmatch, hparse⟩ := canonicalDuration_some hs
  refine ⟨t, rfl, accepts_plain hplain (by decide) (by decide) hmatch rfl, ?_⟩
  dsimp only
  rw [hparse, ← canonicalDuration_isSome, hs]
  rfl

theorem quantity_edited {x y : Value} (h : canonicalQuantityText x = some y) : Quantity y := by
  obtain ⟨t, ht, rfl⟩ := Option.map_eq_some_iff.1 h
  obtain ⟨s, -, hs⟩ := Option.bind_eq_some_iff.1 ht
  obtain ⟨hplain, hmatch, hparse⟩ := canonicalQuantity_some hs
  refine ⟨t, rfl, accepts_plain hplain (by decide) (by decide) hmatch rfl, ?_⟩
  have hsome : (canonicalQuantity s).isSome := by rw [hs]; rfl
  obtain ⟨n, hn, -⟩ := canonicalQuantity_isSome.1 hsome
  dsimp only
  rw [hparse, hn]
  rfl

theorem number_edited {minimumExclusive maximum : Rat} {x y : Value} (h : canonicalNumber x = some y)
    (hx : Number minimumExclusive maximum x) : Number minimumExclusive maximum y := by
  unfold canonicalNumber at h
  split at h
  · rename_i q
    split at h
    · rename_i hden
      cases h
      obtain ⟨q', (⟨n, hn, -⟩ | hq), hmin, hmax⟩ := hx
      · cases hn
      · cases hq
        exact ⟨q, Or.inl ⟨q.num, rfl, (Rat.coe_int_num_of_den_eq_one hden).symm⟩, hmin, hmax⟩
    · cases h
      exact hx
  · cases h
    exact hx

/-! ### Commands -/

theorem command_edited {requireExpect : Bool} {x y : Value} (h : canonicalCommand x = some y)
    (hx : Command requireExpect x) : Command requireExpect y := by
  refine Table.edited (by decide) (by simp [commandEdits]) (fun m m' hm hp => ?_) h hx
  obtain ⟨hname, hrun, -, hworking, hexpect⟩ := hp
  have htimeout : Duration (m'.get "timeout") := by
    obtain ⟨x, y, -, hy, hget⟩ := edited_raises (e := ⟨"timeout", .raises, canonicalDurationText⟩)
      (by decide) hm List.mem_cons_self rfl
    rw [get_of_some hget]
    exact duration_edited hy
  refine ⟨?_, ?_, htimeout, present_untouched hm (by decide) hworking, fun hr => ?_⟩
  · rwa [get_untouched hm (by decide)]
  · rwa [get_untouched hm (by decide)]
  · rw [get_untouched hm (by decide)]
    exact hexpect hr

/-- The name of a command. -/
theorem name_edited {x y : Value} (h : canonicalCommand x = some y) :
    (y.members?.bind fun m => (m.get "name").text?) = x.members?.bind fun m => (m.get "name").text? := by
  obtain ⟨m, hm, h⟩ := Option.bind_eq_some_iff.1 h
  obtain ⟨m', hm', rfl⟩ := Option.map_eq_some_iff.1 h
  rw [hm, Value.members?, Option.bind_some, Option.bind_some, get_untouched hm' (by decide)]

/-- What the loop does to an array of commands. -/
theorem commands_edited {requireExpect : Bool} {items : List Value} {y : Value}
    (h : canonicalCommands (.seq items) = some y) (hitems : ∀ x ∈ items, Command requireExpect x)
    (hnodup : (commandNames items).Nodup) :
    ∃ items' : List Value, y = .seq items' ∧ items'.length = items.length ∧
      (∀ x ∈ items', Command requireExpect x) ∧ (commandNames items').Nodup := by
  obtain ⟨items', hmap, rfl⟩ := Option.map_eq_some_iff.1 h
  rw [mapM_some] at hmap
  refine ⟨items', rfl, hmap.length_eq.symm, ?_, ?_⟩
  · exact forall_edited hmap (fun _ _ => command_edited) hitems
  · rwa [commandNames, filterMap_edited hmap fun _ _ => name_edited]

theorem steps_edited {x y : Value} (h : canonicalCommands x = some y) (hx : Steps x) : Steps y := by
  obtain ⟨items, rfl, hlength, hitems, hnodup⟩ := hx
  obtain ⟨items', rfl, hlength', hitems', hnodup'⟩ := commands_edited h hitems hnodup
  exact ⟨items', rfl, by omega, hitems', hnodup'⟩

theorem validation_edited {x y : Value} (h : canonicalValidation x = some y) (hx : Validation x) :
    Validation y := by
  refine Table.edited (by decide) (by simp [validationEdits]) (fun m m' hm hp => ?_) h hx
  obtain ⟨items, hcommands, hmin, hmax, hitems, hnodup⟩ := hp
  obtain ⟨x, y, hx, hy, hget⟩ := edited_raises (e := ⟨"commands", .raises, canonicalCommands⟩)
    (by decide) hm List.mem_cons_self rfl
  rw [get_of_some hx] at hcommands
  rw [hcommands] at hy
  obtain ⟨items', rfl, hlength, hitems', hnodup'⟩ := commands_edited hy hitems hnodup
  exact ⟨items', get_of_some hget, by omega, by omega, hitems', hnodup'⟩

/-! ### Mounts -/

theorem canonicalMount_some {x y : Value} (h : canonicalMount x = some y) :
    y = x ∨ ∃ m m', x = .map m ∧ y = .map m' ∧ applyEdits mountEdits m = some m' := by
  unfold canonicalMount at h
  split at h
  · obtain ⟨m', hm', rfl⟩ := Option.map_eq_some_iff.1 h
    exact Or.inr ⟨_, m', rfl, rfl, hm'⟩
  · split at h <;> cases h
    exact Or.inl rfl
  · split at h <;> cases h
    exact Or.inl rfl
  · cases h

/-- What is read off a mount is not its size. -/
theorem read_mount {α : Type} {x y : Value} (h : canonicalMount x = some y) {f : Members → Option α}
    (hf : ∀ m m', applyEdits mountEdits m = some m' → f m' = f m) :
    y.members?.bind f = x.members?.bind f := by
  rcases canonicalMount_some h with rfl | ⟨m, m', rfl, rfl, hm⟩
  · rfl
  · exact hf m m' hm

theorem mount_edited {x y : Value} (h : canonicalMount x = some y) (hx : Mount x) : Mount y := by
  obtain ⟨m₀, rfl, -⟩ := id hx
  have hedit : editObject mountEdits (.map m₀) = some y := h
  refine Table.edited (by decide) (by simp [mountEdits]) (fun m m' hm hp => ?_) hedit hx
  obtain ⟨hname, ⟨type, htype, haccepts, htmpfs⟩, htarget, hreadOnly, hsize⟩ := hp
  have hmem : (⟨"size", .skipped, canonicalQuantityText⟩ : Edit) ∈ mountEdits := List.mem_cons_self
  refine ⟨?_, ⟨type, ?_, haccepts, fun heq => ?_⟩, ?_, ?_, ?_⟩
  · rwa [get_untouched hm (by decide)]
  · rwa [get_untouched hm (by decide)]
  · obtain ⟨x, hx⟩ := Option.isSome_iff_exists.1 (htmpfs heq)
    obtain ⟨y, -, hy⟩ := edited_some (by decide) hm hmem hx
    exact Option.isSome_iff_exists.2 ⟨y, hy⟩
  · rwa [get_untouched hm (by decide)]
  · rwa [get_untouched hm (by decide)]
  · exact present_edited (by decide) hm hmem (fun _ _ h _ => quantity_edited h) (by simp) hsize

theorem mountType_edited {x y : Value} (h : canonicalMount x = some y) : mountType y = mountType x :=
  read_mount h fun m m' hm => by rw [get_untouched hm (by decide)]

theorem mounts_edited {x y : Value} {workspace : Option Path} (h : canonicalMounts x = some y)
    (hx : Mounts x workspace) : Mounts y workspace := by
  obtain ⟨mounts, rfl, hlength, hmounts, hnames, hcount, htargets, hoverlaps⟩ := hx
  obtain ⟨mounts', hmap, rfl⟩ := Option.map_eq_some_iff.1 h
  rw [mapM_some] at hmap
  have hpaths : mountPaths mounts' = mountPaths mounts := by
    refine filterMap_edited (zipIdx_edited hmap 0) fun x y hxy => ?_
    rw [read_mount hxy.1 fun m m' hm => by rw [get_untouched hm (by decide)], mountType_edited hxy.1,
      hxy.2]
  have hnames' : mountNames mounts' = mountNames mounts :=
    filterMap_edited hmap fun x y hxy =>
      read_mount hxy fun m m' hm => by rw [get_untouched hm (by decide)]
  refine ⟨mounts', rfl, hmap.length_eq ▸ hlength, ?_, hnames' ▸ hnames, ?_, hpaths ▸ htargets,
    hpaths ▸ hoverlaps⟩
  · exact forall_edited hmap (fun _ _ => mount_edited) hmounts
  · rwa [countP_edited hmap fun x y hxy => by rw [mountType_edited hxy]]

/-! ### Sections -/

theorem runtime_edited {x y : Value} (h : canonicalRuntime x = some y) (hx : Runtime x) : Runtime y := by
  refine Table.edited (by decide) (by simp [runtimeEdits]) (fun m m' hm hp => ?_) h hx
  obtain ⟨hcpu, hmemory, htmpfs, hpids, -, -⟩ := hp
  have hduration : ∀ key, (⟨key, .raises, canonicalDurationText⟩ : Edit) ∈ runtimeEdits →
      Duration (m'.get key) := by
    intro key hmem
    obtain ⟨x, y, -, hy, hget⟩ := edited_raises (by decide) hm hmem rfl
    rw [get_of_some hget]
    exact duration_edited hy
  refine ⟨?_, ?_, ?_, ?_, hduration _ (by simp [runtimeEdits]), hduration _ (by simp [runtimeEdits])⟩
  · obtain ⟨x, y, hx, hy, hget⟩ := edited_raises (e := ⟨"cpu", .raises, canonicalNumber⟩)
      (by decide) hm (by simp [runtimeEdits]) rfl
    rw [get_of_some hx] at hcpu
    rw [get_of_some hget]
    exact number_edited hy hcpu
  · exact present_edited (e := ⟨"memory", .raises, canonicalQuantityText⟩) (by decide) hm
      (by simp [runtimeEdits]) (fun _ _ h _ => quantity_edited h) (by simp) hmemory
  · exact present_edited (e := ⟨"tmpfsSize", .skipped, canonicalQuantityText⟩) (by decide) hm
      (by simp [runtimeEdits]) (fun _ _ h _ => quantity_edited h) (by simp) htmpfs
  · rwa [get_untouched hm (by decide)]

/-- The assertion at the front of the secret pattern only makes it match less. -/
theorem search_boundary {word : Char → Bool} {r : Schemes.Regex} {s : String} (h : r.search s = false) :
    (Schemes.Regex.seq (.boundary word) r).search s = false := by
  rw [Schemes.Regex.search, List.any_eq_false] at h ⊢
  intro x hx
  have hrun : r.run x = [] := by simpa using h x hx
  rw [Schemes.Regex.run, Schemes.Regex.run]
  split <;> simp [hrun]

theorem registry_default (lib : Library) : Registry lib (.str "docker.io") := by
  refine ⟨"docker.io", rfl, ?_, ?_⟩
  · constructor <;> decide
  · have hword : (Schemes.Regex.sequence
        [secretWord foldCase, .star (.set Controller.isSpace), .char '=']).search "docker.io" = false := by
      decide +kernel
    have hsecret : (Schemes.Regex.sequence [.boundary fun c => lib.isAlnum c || c = '_',
        secretWord foldCase, .star (.set Controller.isSpace), .char '=']).search "docker.io" = false :=
      search_boundary hword
    have hkey : privateKeyPattern.search "docker.io" = false := by decide +kernel
    have hurl : (credentialUrl foldCase Controller.isSpace).search "docker.io" = false := by
      decide +kernel
    have hmarkers : ["://", "@", "/", "$\x7b"].any (fun marker => contains marker "docker.io") = false := by
      decide +kernel
    simp only [List.any_cons, List.any_nil, Bool.or_false, Bool.or_eq_false_iff] at hmarkers
    obtain ⟨hscheme, hat, hslash, hbrace⟩ := hmarkers
    simp only [badRegistry, secretLike, secretValuePatterns, List.any_cons, List.any_nil, hscheme, hat,
      hslash, hbrace, hkey, hsecret, hurl, Bool.or_false]

theorem base_edited {x y : Value} (h : canonicalBase x = some y) (hx : Base lib x) : Base lib y := by
  refine Table.edited (by decide) (by simp [baseEdits]) (fun m m' hm hp => ?_) h hx
  obtain ⟨hregistry, himage, htag, hdigest⟩ := hp
  refine ⟨?_, ?_, present_untouched hm (by decide) htag, ?_⟩
  · refine present_edited (e := ⟨"registry", .default (.str "docker.io"), some⟩) (by decide) hm
      List.mem_cons_self ?_ ?_ hregistry
    · rintro x y h hx
      cases h
      exact hx
    · rintro x y hx h
      cases hx
      cases h
      exact registry_default lib
  · rwa [get_untouched hm (by decide)]
  · rwa [get_untouched hm (by decide)]

theorem silent_packages (ecosystem : Ecosystem) : Silent [packageGroup ecosystem] (.seq []) := by
  refine ⟨List.forall_mem_singleton.2 ?_, List.forall_mem_singleton.2 rfl⟩
  exact ⟨[], rfl, by decide, by decide, by simp, List.nodup_nil, trivial⟩

/-- The groups of the packages, which are only given a default. -/
theorem keeps_packages {ecosystem : Ecosystem} (hnodup : (editedKeys es).Nodup)
    (hmem : (⟨"packages", .default (.seq []), some⟩ : Edit) ∈ es) (h : applyEdits es m = some m') :
    Keeps (presentGroups "packages" [packageGroup ecosystem]) m m' := by
  refine keeps_edited hnodup h hmem ?_ ?_
  · rintro x y h
    cases h
    exact Keeps.refl _ _
  · rintro x y hx h
    cases hx
    cases h
    exact silent_packages ecosystem

/-- A field that is only given a default. -/
theorem present_default {key : String} {x : Value} {P : Value → Prop} (hnodup : (editedKeys es).Nodup)
    (hmem : (⟨key, .default x, some⟩ : Edit) ∈ es) (hdefault : P x) (h : applyEdits es m = some m')
    (hp : Present m key P) : Present m' key P := by
  refine present_edited hnodup h hmem ?_ ?_ hp
  · rintro x y h hx
    cases h
    exact hx
  · rintro x y hx h
    cases hx
    cases h
    exact hdefault

theorem keeps_apt {x y : Value} (h : canonicalApt x = some y) : Keeps aptGroups x y := by
  refine keeps_object (by decide) (by simp [aptEdits]) (fun m m' hm => ?_) h
  refine Keeps.constraint (present_default (by decide) (x := .bool true) (by simp [aptEdits]) ?_ hm)
    (keeps_packages (by decide) (by simp [aptEdits]) hm)
  exact ⟨true, rfl, by simp⟩

theorem keeps_python {x y : Value} (h : canonicalPython x = some y) : Keeps pythonGroups x y := by
  refine keeps_object (by decide) (by simp [pythonEdits]) (fun m m' hm => ?_) h
  refine Keeps.constraint (present_default (by decide) (x := .str "python3") (by simp [pythonEdits]) ?_ hm)
    (keeps_packages (by decide) (by simp [pythonEdits]) hm)
  exact ⟨"python3", rfl, by constructor <;> decide, trivial⟩

theorem keeps_node {x y : Value} (h : canonicalNode x = some y) : Keeps nodeGroups x y := by
  refine keeps_object (by decide) (by simp [nodeEdits]) (fun m m' hm => ?_) h
  refine Keeps.constraint (present_default (by decide) (x := .str "npm") (by simp [nodeEdits]) ?_ hm)
    (keeps_packages (by decide) (by simp [nodeEdits]) hm)
  exact ⟨"npm", rfl, by constructor <;> decide, trivial⟩

theorem keeps_build {x y : Value} (h : canonicalBuild x = some y) : Keeps (buildGroups lib) x y := by
  refine keeps_object (by decide) (by simp [buildEdits]) (fun m m' hm => ?_) h
  refine Keeps.append (Keeps.append (Keeps.append ?_ ?_) ?_) (Keeps.constraint ?_ Keeps.nil)
  · exact keeps_edited (e := ⟨"apt", .skipped, canonicalApt⟩) (by decide) hm (by simp [buildEdits])
      (fun _ _ => keeps_apt) (by simp)
  · exact keeps_edited (e := ⟨"python", .skipped, canonicalPython⟩) (by decide) hm (by simp [buildEdits])
      (fun _ _ => keeps_python) (by simp)
  · exact keeps_edited (e := ⟨"node", .skipped, canonicalNode⟩) (by decide) hm (by simp [buildEdits])
      (fun _ _ => keeps_node) (by simp)
  · rintro ⟨henvironment, hsteps⟩
    constructor
    · exact present_default (by decide) (x := .map []) (by simp [buildEdits])
        ⟨[], rfl, by decide, by simp⟩ hm henvironment
    · refine present_edited (e := ⟨"steps", .default (.seq []), canonicalCommands⟩) (by decide) hm
        (by simp [buildEdits]) (fun _ _ => steps_edited) ?_ hsteps
      rintro x y hx h
      cases hx
      exact steps_edited h ⟨[], rfl, by decide, by simp, List.nodup_nil⟩

theorem keeps_spec {x y : Value} (h : canonicalSpec x = some y) : Keeps (specGroups lib) x y := by
  refine keeps_object (by decide) (by simp [specEdits]) (fun m m' hm => ?_) h
  have hworkspace : m'.get "workspace" = m.get "workspace" := get_untouched hm (by decide)
  have hvalidation : Validation (m.get "validation") → Validation (m'.get "validation") := by
    obtain ⟨x, y, hx, hy, hget⟩ := edited_raises (e := ⟨"validation", .raises, canonicalValidation⟩)
      (by decide) hm (by simp [specEdits]) rfl
    rw [get_of_some hx, get_of_some hget]
    exact validation_edited hy
  have hmounts : ∀ workspace, Mounts ((m.get? "mounts").getD (.seq [])) workspace →
      Mounts ((m'.get? "mounts").getD (.seq [])) workspace := by
    intro workspace hold
    obtain ⟨x, hx, hget⟩ := edited_orDefault (e := ⟨"mounts", .default (.seq []), canonicalMounts⟩)
      (by decide) hm (by simp [specEdits]) rfl
    rw [hget]
    exact mounts_edited hx hold
  refine Keeps.append (Keeps.append (Keeps.append (Keeps.append ?_ ?_) ?_) ?_) ?_
  · refine Keeps.constraint (fun hbase => ?_) Keeps.nil
    obtain ⟨x, y, hx, hy, hget⟩ := edited_raises (e := ⟨"base", .raises, canonicalBase⟩)
      (by decide) hm (by simp [specEdits]) rfl
    rw [get_of_some hx] at hbase
    rw [get_of_some hget]
    exact base_edited hy hbase
  · obtain ⟨x, hx, hget⟩ := edited_orDefault (e := ⟨"build", .default (.map []), canonicalBuild⟩)
      (by decide) hm (by simp [specEdits]) rfl
    exact Keeps.comap rfl (congrArg some hget) (keeps_build hx)
  · refine Keeps.constraint ?_ Keeps.nil
    rintro ⟨hold, hruntime⟩
    obtain ⟨x, y, hx, hy, hget⟩ := edited_raises (e := ⟨"runtime", .raises, canonicalRuntime⟩)
      (by decide) hm (by simp [specEdits]) rfl
    rw [get_of_some hx] at hruntime
    rw [get_of_some hget, hworkspace]
    exact ⟨hold, runtime_edited hy hruntime⟩
  · exact keepsField_untouched hm (by decide)
  · refine Keeps.constraint ?_ Keeps.nil
    rintro ⟨hsecurity, hold, hcommands⟩
    have hsame : m'.get "security" = m.get "security" := get_untouched hm (by decide)
    rw [hworkspace, hsame]
    exact ⟨hsecurity, hmounts _ hold, hvalidation hcommands⟩

/-- The canonical form keeps the constraints of the document, but for the bound on the data nodes. -/
theorem keeps_document {x y : Value} (h : canonicalize x = some y)
    (hnodes : x.nodes ≤ maxNodes → y.nodes ≤ maxNodes) : Keeps (documentGroups lib) x y := by
  refine Keeps.constraint ?_ (keeps_object (by decide) (by simp) (fun m m' hm => ?_) h)
  · rintro ⟨hold, hgraph⟩
    exact ⟨hnodes hold, keepsGraph_canonicalize x y 0 h (by decide) hgraph⟩
  · refine Keeps.constraint ?_ ?_
    · rintro ⟨hversion, hkind, hmetadata⟩
      rw [get_untouched hm (by decide), get_untouched hm (by decide), get_untouched hm (by decide)]
      exact ⟨hversion, hkind, hmetadata⟩
    · obtain ⟨x, y, hx, hy, hget⟩ := edited_raises (e := ⟨"spec", .raises, canonicalSpec⟩)
        (by decide) hm List.mem_cons_self rfl
      exact Keeps.comap (congrArg some (get_of_some hx)) (congrArg some (get_of_some hget)) (keeps_spec hy)

/-! ### Resources -/

theorem foldl_bind_none (path : List String) :
    path.foldl (fun x key => x.bind fun v => v.members?.bind fun m => m.get? key) (none : Option Value) =
      none := by
  induction path with
  | nil => rfl
  | cons key path ih => exact ih

theorem at?_cons (value : Value) (key : String) (path : List String) :
    value.at? (key :: path) = (value.at? [key]).bind fun x => x.at? path := by
  rw [Value.at?, Value.at?, List.foldl_cons, List.foldl_cons, List.foldl_nil]
  cases (some value).bind fun v => v.members?.bind fun m => m.get? key with
  | none => exact foldl_bind_none path
  | some x => rfl

/-- What is read off a value is what is read off its edited form. -/
def Reads {β : Type} (f : Value → Option Value) (g : Value → β) : Prop := ∀ x y, f x = some y → g y = g x

theorem at?_single (m : Members) (key : String) : (Value.map m).at? [key] = m.get? key := rfl

/-- What is read behind a field that is edited. -/
theorem reads_field {β : Type} (hnodup : (editedKeys es).Nodup) (he : e ∈ es) {path : List String}
    {g : Option Value → β} (hedit : Reads e.edit fun x => g (x.at? path))
    (hdefault : ∀ x y, e.absent = .default x → e.edit x = some y → g (y.at? path) = g none) :
    Reads (editObject es) fun v => g (v.at? (e.key :: path)) := by
  intro v w h
  obtain ⟨m, hv, h⟩ := Option.bind_eq_some_iff.1 h
  obtain ⟨m', hm, rfl⟩ := Option.map_eq_some_iff.1 h
  obtain rfl : v = .map m := by
    cases v <;> cases hv
    rfl
  dsimp only
  rw [at?_cons, at?_cons (.map m), at?_single, at?_single]
  cases hx : m.get? e.key with
  | some x =>
    obtain ⟨y, hy, hget⟩ := edited_some hnodup hm he hx
    rw [hget]
    exact hedit x y hy
  | none =>
    cases habsent : e.absent with
    | raises =>
      obtain ⟨x, -, hsome, -⟩ := edited_raises hnodup hm he habsent
      rw [hx] at hsome
      cases hsome
    | skipped => rw [edited_skipped hnodup hm he hx habsent]
    | default x =>
      obtain ⟨y, hy, hget⟩ := edited_default hnodup hm he hx habsent
      rw [hget]
      exact hdefault x y habsent hy

theorem reads_milliseconds : Reads canonicalDurationText milliseconds := by
  intro x y h
  obtain ⟨t, ht, rfl⟩ := Option.map_eq_some_iff.1 h
  obtain ⟨s, hs, ht⟩ := Option.bind_eq_some_iff.1 ht
  rw [milliseconds, milliseconds, hs]
  exact (canonicalDuration_some ht).2.2

theorem reads_bytes : Reads canonicalQuantityText bytes := by
  intro x y h
  obtain ⟨t, ht, rfl⟩ := Option.map_eq_some_iff.1 h
  obtain ⟨s, hs, ht⟩ := Option.bind_eq_some_iff.1 ht
  rw [bytes, bytes, hs]
  exact (canonicalQuantity_some ht).2.2

/-- What is read of a document is read behind `spec`. -/
theorem reads_document {β : Type} {path : List String} {g : Option Value → β}
    (h : Reads canonicalSpec fun x => g (x.at? path)) :
    Reads canonicalize fun d => g (d.at? ("spec" :: path)) := by
  exact reads_field (e := ⟨"spec", .raises, canonicalSpec⟩) (by decide) List.mem_cons_self h (by simp)

/-- A field of the runtime, which has no default. -/
theorem reads_runtime {β : Type} {g : Value → Option β} (he : e ∈ runtimeEdits)
    (hedit : Reads e.edit g) : Reads canonicalize fun d => (d.at? ["spec", "runtime", e.key]).bind g := by
  refine reads_document (g := fun o => o.bind g) ?_
  refine reads_field (e := ⟨"runtime", .raises, canonicalRuntime⟩) (g := fun o => o.bind g) (by decide)
    (by simp [specEdits]) ?_ (by simp)
  refine reads_field (g := fun o => o.bind g) (by decide) he hedit fun x y habsent _ => ?_
  simp only [runtimeEdits, List.mem_cons, List.not_mem_nil, or_false] at he
  rcases he with rfl | rfl | rfl | rfl | rfl <;> cases habsent

theorem map_edited {α β : Type} {R : α → α → Prop} {f : α → β} {l l' : List α}
    (h : List.Forall₂ R l l') (hstep : ∀ x y, R x y → f y = f x) : l'.map f = l.map f := by
  induction h with
  | nil => rfl
  | cons hxy _ ih => rw [List.map_cons, List.map_cons, hstep _ _ hxy, ih]

theorem reads_commands : Reads canonicalCommands fun x => timeouts (some x) := by
  intro x y h
  unfold canonicalCommands at h
  split at h
  · obtain ⟨items, hmap, rfl⟩ := Option.map_eq_some_iff.1 h
    have htimeout : Reads canonicalCommand fun v => (v.at? ["timeout"]).bind milliseconds :=
      reads_field (e := ⟨"timeout", .raises, canonicalDurationText⟩) (g := fun o => o.bind milliseconds)
        (by decide) List.mem_cons_self reads_milliseconds (by simp)
    exact map_edited (mapM_some.1 hmap) htimeout
  · split at h <;> cases h
    rfl
  · split at h <;> cases h
    rfl
  · cases h

theorem reads_steps : Reads canonicalize fun d => timeouts (d.at? ["spec", "build", "steps"]) := by
  refine reads_document (g := timeouts) ?_
  refine reads_field (e := ⟨"build", .default (.map []), canonicalBuild⟩) (by decide)
    (by simp [specEdits]) ?_ ?_
  · refine reads_field (e := ⟨"steps", .default (.seq []), canonicalCommands⟩) (by decide)
      (by simp [buildEdits]) reads_commands ?_
    rintro x y hx h
    cases hx
    cases h
    rfl
  · rintro x y hx h
    cases hx
    cases h
    rfl

theorem reads_validation : Reads canonicalize fun d =>
    timeouts (d.at? ["spec", "validation", "commands"]) := by
  refine reads_document (g := timeouts) ?_
  refine reads_field (e := ⟨"validation", .raises, canonicalValidation⟩) (by decide)
    (by simp [specEdits]) ?_ (by simp)
  exact reads_field (e := ⟨"commands", .raises, canonicalCommands⟩) (by decide) List.mem_cons_self
    reads_commands (by simp)

theorem reads_mount : Reads canonicalMount fun v => (v.at? ["size"]).bind bytes := by
  have hsize : Reads (editObject mountEdits) fun v => (v.at? ["size"]).bind bytes :=
    reads_field (e := ⟨"size", .skipped, canonicalQuantityText⟩) (g := fun o => o.bind bytes)
      (by decide) List.mem_cons_self reads_bytes (by simp)
  intro x y h
  unfold canonicalMount at h
  split at h
  · exact hsize _ y h
  · split at h <;> cases h
    rfl
  · split at h <;> cases h
    rfl
  · cases h

theorem reads_sizes : Reads canonicalMounts fun x => sizes (some x) := by
  intro x y h
  unfold canonicalMounts at h
  split at h
  · obtain ⟨items, hmap, rfl⟩ := Option.map_eq_some_iff.1 h
    exact map_edited (mapM_some.1 hmap) reads_mount
  · cases h
    rfl
  · split at h <;> cases h
    rfl
  · cases h

theorem reads_mounts : Reads canonicalize fun d => sizes (d.at? ["spec", "mounts"]) := by
  refine reads_document (g := sizes) ?_
  refine reads_field (e := ⟨"mounts", .default (.seq []), canonicalMounts⟩) (by decide)
    (by simp [specEdits]) reads_sizes ?_
  rintro x y hx h
  cases hx
  cases h
  rfl

/-- The canonical form denotes the resources of the document. -/
theorem resources_canonicalize {document c : Value} (h : canonicalize document = some c) :
    resources c = resources document := by
  have hmemory := reads_runtime (e := ⟨"memory", .raises, canonicalQuantityText⟩)
    (by simp [runtimeEdits]) reads_bytes document c h
  have htmpfs := reads_runtime (e := ⟨"tmpfsSize", .skipped, canonicalQuantityText⟩)
    (by simp [runtimeEdits]) reads_bytes document c h
  have htimeout := reads_runtime (e := ⟨"timeout", .raises, canonicalDurationText⟩)
    (by simp [runtimeEdits]) reads_milliseconds document c h
  have hgrace := reads_runtime (e := ⟨"stopGracePeriod", .raises, canonicalDurationText⟩)
    (by simp [runtimeEdits]) reads_milliseconds document c h
  have hsteps := reads_steps document c h
  have hcommands := reads_validation document c h
  have hmounts := reads_mounts document c h
  dsimp only at hmemory htmpfs htimeout hgrace hsteps hcommands hmounts
  rw [resources, resources, hmemory, htmpfs, htimeout, hgrace, hsteps, hcommands, hmounts]

/-! ### Stability -/

/-- The first constraint of an accepted document bounds its data nodes. -/
theorem accepted_nodes {document : Value} (h : (validateDocument lib document).hasErrors = false) :
    document.nodes ≤ maxNodes := by
  by_contra hlarge
  exact accepted_iff.1 h (Or.inl ⟨by decide, fun hholds => hlarge hholds.1⟩)

/-- An accepted document has an accepted canonical form, which is its own and denotes the same resources,
    exactly if the edited parts have the shapes that are read, with whole numbers of KiB, and the
    missing defaults fit within the bound on the data nodes. -/
theorem canonical_stable (lib : Library) (document : Value)
    (haccepted : (validateDocument lib document).hasErrors = false) :
    (∃ c, canonicalize document = some c ∧ (validateDocument lib c).hasErrors = false ∧
        canonicalize c = some c ∧ resources c = resources document) ↔
      Canonicalizable document ∧ document.nodes + missingDefaults document ≤ maxNodes := by
  rw [← isSome_canonicalize]
  constructor
  · rintro ⟨c, hc, hagain, -, -⟩
    rw [hc, ← nodes_canonicalize hc]
    exact ⟨rfl, accepted_nodes hagain⟩
  · rintro ⟨hsome, hnodes⟩
    obtain ⟨c, hc⟩ := Option.isSome_iff_exists.1 hsome
    refine ⟨c, hc, ?_, canonicalize_idem _ _ hc, resources_canonicalize hc⟩
    rw [accepted_iff] at haccepted ⊢
    refine fun hcaught => haccepted ((keeps_document hc fun _ => ?_).caught hcaught)
    rwa [nodes_canonicalize hc]

/-- A document with 1536 bytes for its memory has no canonical form. -/
theorem fraction_not_canonical : ¬∀ (lib : Library) (document : Value),
    (validateDocument lib document).hasErrors = false →
      ∃ c, canonicalize document = some c ∧ (validateDocument lib c).hasErrors = false ∧
        canonicalize c = some c ∧ resources c = resources document := by
  intro h
  have haccepted : (validateDocument plainLibrary (sampleDocument [] false "1.5KiB")).hasErrors = false := by
    decide +kernel
  obtain ⟨c, hc, -⟩ := h _ _ haccepted
  have hnone : (canonicalize (sampleDocument [] false "1.5KiB")).isNone = true := by decide +kernel
  rw [hc] at hnone
  cases hnone

theorem canonical_stable_sample :
    ∃ c, canonicalize (sampleDocument [] false "1.5GiB") = some c ∧
      (validateDocument plainLibrary c).hasErrors = false ∧ canonicalize c = some c ∧
      resources c = resources (sampleDocument [] false "1.5GiB") := by
  have haccepted : (validateDocument plainLibrary (sampleDocument [] false "1.5GiB")).hasErrors = false := by
    decide +kernel
  refine (canonical_stable plainLibrary _ haccepted).2 ⟨?_, ?_⟩
  · rw [← isSome_canonicalize]
    decide +kernel
  · decide +kernel

end HermesOps.Hermesfile
