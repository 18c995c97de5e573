import HermesOps.Hermesfile.Profiles
import HermesOps.Properties.HermesfileAcceptance

/-! What every accepted source has in common, even where its warnings hide errors: the loader makes no
    mapping with a repeated key, the metadata is checked before there is any warning, and the warnings
    themselves are two texts at a handful of paths. This is what the columns of a profile are made of. -/

namespace HermesOps.Hermesfile

open Schemes Schemes.Checks

/-! ### The loader repeats no key -/

mutual

/-- No mapping in the value has a repeated key. -/
def Value.Distinct : Value → Prop
  | .seq items => ItemsDistinct items
  | .map members => (Members.keys members).Nodup ∧ MembersDistinct members
  | _ => True

def ItemsDistinct : List Value → Prop
  | [] => True
  | x :: xs => x.Distinct ∧ ItemsDistinct xs

def MembersDistinct : List (String × Value) → Prop
  | [] => True
  | (_, x) :: xs => x.Distinct ∧ MembersDistinct xs

end

theorem membersDistinct_append {m m' : Members} (h : MembersDistinct m) (h' : MembersDistinct m') :
    MembersDistinct (m ++ m') := by
  induction m with
  | nil => exact h'
  | cons x m ih => exact ⟨h.1, ih h.2⟩

theorem MembersDistinct.of_mem {m : Members} (h : MembersDistinct m) {x : String × Value} (hx : x ∈ m) :
    x.2.Distinct := by
  induction m with
  | nil => cases hx
  | cons y m ih =>
    rcases List.mem_cons.1 hx with rfl | hx
    · exact h.1
    · exact ih h.2 hx

theorem YamlNode.key?_fresh {mapping : Members} {node : YamlNode} {key : String}
    (h : node.key? mapping = some key) : key ∉ mapping.keys := by
  unfold key? at h
  split at h
  · split at h
    · cases h
    · rename_i hkey
      obtain rfl := Option.some.inj h
      exact fun hmem => hkey (Or.inr hmem)
  · cases h

mutual

theorem construct_distinct : ∀ (node : YamlNode) (v : Value), construct node = some v → v.Distinct
  | .scalar x, v, h => by
    rw [construct] at h
    obtain rfl := Option.some.inj h
    cases x <;> exact trivial
  | .seq items, v, h => by
    rw [construct] at h
    obtain ⟨vs, hvs, rfl⟩ := Option.map_eq_some_iff.1 h
    exact constructItems_distinct items vs hvs
  | .map members, v, h => by
    rw [construct] at h
    obtain ⟨m, hm, rfl⟩ := Option.map_eq_some_iff.1 h
    exact constructMembers_distinct members [] m List.nodup_nil trivial hm
  | .alias, v, h => by cases h

theorem constructItems_distinct : ∀ (items : List YamlNode) (vs : List Value),
    constructItems items = some vs → ItemsDistinct vs
  | [], vs, h => by
    rw [constructItems] at h
    obtain rfl := Option.some.inj h
    trivial
  | x :: xs, vs, h => by
    rw [constructItems] at h
    obtain ⟨v, hv, h⟩ := Option.bind_eq_some_iff.1 h
    obtain ⟨vs, hvs, rfl⟩ := Option.map_eq_some_iff.1 h
    exact ⟨construct_distinct x v hv, constructItems_distinct xs vs hvs⟩

/-- The mapping so far has no repeated key, and `key?` lets none in. -/
theorem constructMembers_distinct : ∀ (members : List (YamlNode × YamlNode)) (mapping m : Members),
    mapping.keys.Nodup → MembersDistinct mapping → constructMembers mapping members = some m →
      (Members.keys m).Nodup ∧ MembersDistinct m
  | [], mapping, m, hkeys, hdistinct, h => by
    rw [constructMembers] at h
    obtain rfl := Option.some.inj h
    exact ⟨hkeys, hdistinct⟩
  | (k, x) :: rest, mapping, m, hkeys, hdistinct, h => by
    rw [constructMembers] at h
    obtain ⟨key, hkey, h⟩ := Option.bind_eq_some_iff.1 h
    obtain ⟨v, hv, h⟩ := Option.bind_eq_some_iff.1 h
    have hfresh := YamlNode.key?_fresh hkey
    refine constructMembers_distinct rest _ m ?_ ?_ h
    · rw [Members.keys, List.map_append, List.nodup_append]
      refine ⟨hkeys, by simp, ?_⟩
      rintro a ha b hb rfl
      have heq : a = key := by simpa using hb
      rw [heq] at ha
      exact hfresh ha
    · exact membersDistinct_append hdistinct ⟨construct_distinct x v hv, trivial⟩

end

/-- A loaded document repeats no key. -/
theorem loadAll_distinct {y : Reader} {text : String} {document : Value}
    (h : loadAll y text = some [document]) : document.Distinct := by
  obtain ⟨nodes, -, h⟩ := Option.bind_eq_some_iff.1 h
  cases nodes with
  | nil => cases h
  | cons node nodes =>
    rw [List.mapM_cons] at h
    obtain ⟨v, hv, h⟩ := Option.bind_eq_some_iff.1 h
    obtain ⟨vs, -, h⟩ := Option.bind_eq_some_iff.1 h
    obtain ⟨rfl, -⟩ := List.cons.inj (Option.some.inj h)
    exact construct_distinct node v hv

/-! ### The metadata is checked before any warning -/

variable {lib : Library} {document : Value}

/-- The first constraints of an accepted document hold: no warning comes before them. -/
theorem accepted_metadata (h : (validateDocument lib document).hasErrors = false) :
    document.nodes ≤ maxNodes ∧ ∃ root, document = .map root ∧ Metadata (Members.get root "metadata") := by
  have hcaught := accepted_iff.1 h
  unfold documentGroups objectGroups at hcaught
  simp only [List.map_cons, Caught, not_or, not_and, not_not] at hcaught
  have hroom : 0 < maxDiagnostics := by decide
  obtain ⟨hgraph, hkeys, hroot, -⟩ := hcaught
  obtain ⟨root, rfl, -⟩ := hkeys hroom
  exact ⟨(hgraph hroom).1, root, rfl, (hroot hroom root rfl).2.2⟩

/-- The canonical form has the metadata of the document. -/
theorem metadata_canonicalize {root : Members} {canonical : Value}
    (h : canonicalize (.map root) = some canonical) :
    ∃ root', canonical = .map root' ∧ Members.get root' "metadata" = Members.get root "metadata" := by
  obtain ⟨root', hroot', rfl⟩ := Option.map_eq_some_iff.1 h
  refine ⟨root', rfl, ?_⟩
  rw [Members.get, Members.get, get?_applyEdits hroot' (by decide)]

/-! ### The warnings -/

/-- The characters of the paths of warnings. -/
def isPathChar : Char → Bool := Regex.chars [('a', 'z'), ('0', '9')] "/"

structure WarningPath (path : String) : Prop where
  nonempty : path ≠ ""
  length : path.length ≤ 64
  chars : ∀ c ∈ path.toList, isPathChar c = true

/-- What the checks report: errors, and the two warnings. -/
inductive Announced : Diagnostic → Prop
  | error {d : Diagnostic} : d.severity = .error → Announced d
  | package {path : String} : WarningPath path → Announced
      { severity := .warning, code := "package_not_version_pinned", path
        message := "Package is not version-pinned; the resolved build record must preserve its exact version." }
  | network {path : String} : WarningPath path → Announced
      { severity := .warning, code := "full_network_requires_policy", path
        message := "Full network access requires external policy approval." }

def AllAnnounced (l : Findings) : Prop := ∀ d ∈ l, Announced d

theorem AllAnnounced.append {f g : Findings} (hf : AllAnnounced f) (hg : AllAnnounced g) :
    AllAnnounced (f ++ g) := by
  intro d hd
  rcases List.mem_append.1 hd with hd | hd
  · exact hf d hd
  · exact hg d hd

theorem AllAnnounced.of_faults {f : Findings} (h : Faults f) : AllAnnounced f :=
  fun d hd => Announced.error (h d hd)

theorem announced_whenObject {value : Value} {check : Members → Findings}
    (h : ∀ m, value = .map m → AllAnnounced (check m)) : AllAnnounced (whenObject value check) := by
  cases value with
  | map m => exact h m rfl
  | _ => exact fun d hd => by cases hd

theorem announced_whenPresent {m : Members} {key : String} {check : Value → Findings}
    (h : ∀ x, m.get? key = some x → AllAnnounced (check x)) : AllAnnounced (whenPresent m key check) := by
  unfold whenPresent
  cases hx : m.get? key with
  | some x => exact h x hx
  | none => exact fun d hd => by cases hd

theorem isPathChar_of_isDigit {c : Char} (h : c.isDigit = true) : isPathChar c = true := by
  unfold Char.isDigit at h
  simp only [isPathChar, Regex.chars, List.any_cons, List.any_nil, Bool.or_eq_true, Bool.and_eq_true,
    decide_eq_true_eq, Char.le_def] at h ⊢
  exact Or.inl (Or.inr (Or.inl h))

/-- Digits stand in a path as they are. -/
theorem escape_digits {l : List Char} (h : ∀ c ∈ l, c.isDigit = true) : l.flatMap (fun c =>
    if c = '~' then ['~', '0'] else if c = '/' then ['~', '1'] else [c]) = l := by
  induction l with
  | nil => rfl
  | cons c l ih =>
    have hc := h c List.mem_cons_self
    have htilde : c ≠ '~' := by rintro rfl; exact absurd hc (by decide)
    have hslash : c ≠ '/' := by rintro rfl; exact absurd hc (by decide)
    rw [List.flatMap_cons, if_neg htilde, if_neg hslash, ih fun d hd => h d (List.mem_cons_of_mem _ hd)]
    rfl

/-- The path of an item of an array. -/
theorem warningPath_item {path : String} (hlength : path.length ≤ 48)
    (hchars : ∀ c ∈ path.toList, isPathChar c = true) {i : Nat} (hi : i < 10 ^ 6) :
    WarningPath (child path (toString i)) := by
  have hdigits : ∀ c ∈ (toString i).toList, c.isDigit = true := by
    intro c hc
    rw [Nat.toString_eq_repr, Nat.toList_repr] at hc
    exact Nat.isDigit_of_mem_toDigits (by decide) (by decide) hc
  have hlist : (child path (toString i)).toList = path.toList ++ '/' :: (toString i).toList := by
    rw [child, escape_digits hdigits]
    simp
  have hshort : (toString i).toList.length ≤ 6 := by
    rw [Nat.toString_eq_repr, Nat.toList_repr]
    exact (Nat.length_toDigits_le_iff (by decide) (by decide)).2 hi
  refine ⟨?_, ?_, ?_⟩
  · intro hnil
    rw [hnil] at hlist
    simp at hlist
  · rw [← String.length_toList, hlist, List.length_append, List.length_cons, String.length_toList]
    omega
  · rw [hlist]
    intro c hc
    rcases List.mem_append.1 hc with hc | hc
    · exact hchars c hc
    · rcases List.mem_cons.1 hc with rfl | hc
      · decide
      · exact isPathChar_of_isDigit (hdigits c hc)

theorem length_le_nodesItems (items : List Value) : items.length ≤ nodesItems items := by
  induction items with
  | nil => exact Nat.le_refl 0
  | cons x items ih =>
    have hpos := nodes_pos x
    rw [List.length_cons, nodesItems]
    omega

theorem nodes_le_of_mem {m : Members} {x : String × Value} (h : x ∈ m) : x.2.nodes ≤ nodesMembers m := by
  induction m with
  | nil => cases h
  | cons y m ih =>
    rw [nodesMembers]
    rcases List.mem_cons.1 h with rfl | h
    · exact Nat.le_add_right _ _
    · exact (ih h).trans (Nat.le_add_left _ _)

/-- A field of an object has fewer nodes than the object. -/
theorem nodes_field {m : Members} {key : String} {x : Value} {n : Nat} (hm : (Value.map m).nodes ≤ n)
    (hx : m.get? key = some x) : x.nodes ≤ n := by
  have hle := nodes_le_of_mem (Members.mem_of_get? hx)
  rw [Value.nodes] at hm
  exact hle.trans (Nat.le_of_succ_le hm)

theorem nodes_getD {m : Members} {key : String} {x : Value} (hm : (Value.map m).nodes ≤ maxNodes)
    (hx : x.nodes ≤ maxNodes) : ((m.get? key).getD x).nodes ≤ maxNodes := by
  cases h : m.get? key with
  | none => exact hx
  | some y => exact nodes_field hm h

theorem announced_packages {ecosystem : Ecosystem} {value : Value} {path : String}
    (hlength : path.length ≤ 48) (hchars : ∀ c ∈ path.toList, isPathChar c = true)
    (hnodes : value.nodes ≤ maxNodes) : AllAnnounced (checkPackages ecosystem value path) := by
  refine AllAnnounced.append (.of_faults faults_stringList) ?_
  intro d hd
  obtain ⟨x, hx, hd⟩ := List.mem_flatMap.1 hd
  split at hd
  · cases hd
  · rw [notice, List.mem_singleton] at hd
    have hcount : ((packageRule.parse value).getD []).length ≤ maxNodes := by
      cases value with
      | seq items =>
        have hitems := length_le_nodesItems items
        rw [Value.nodes] at hnodes
        exact (List.length_filterMap_le _ _).trans (by omega)
      | _ => exact Nat.zero_le _
    have hindex : x.2 < 10 ^ 6 :=
      (List.snd_lt_of_mem_zipIdx hx).trans_le (hcount.trans (by decide))
    have hpath := warningPath_item hlength hchars hindex
    rw [hd, orRoot, if_neg hpath.nonempty]
    exact Announced.package hpath

theorem announced_build {value : Value} (hnodes : value.nodes ≤ maxNodes) :
    AllAnnounced (checkBuild lib value) := by
  refine AllAnnounced.append (.of_faults faults_exactKeys) (announced_whenObject fun build hbuild => ?_)
  rw [hbuild] at hnodes
  have hsection : ∀ {check : Value → Findings} {key : String},
      (∀ x, x.nodes ≤ maxNodes → AllAnnounced (check x)) → AllAnnounced (whenPresent build key check) :=
    fun h => announced_whenPresent fun x hx => h x (nodes_field hnodes hx)
  have hpackages : ∀ {ecosystem : Ecosystem} {m : Members} {path : String}, (Value.map m).nodes ≤ maxNodes →
      path.length ≤ 48 → (∀ c ∈ path.toList, isPathChar c = true) →
        AllAnnounced (whenPresent m "packages" fun x => checkPackages ecosystem x path) :=
    fun hm hlength hchars => announced_whenPresent fun x hx =>
      announced_packages hlength hchars (nodes_field hm hx)
  refine .append (.append (.append (.append (hsection fun x hx => ?_) (hsection fun x hx => ?_))
    (hsection fun x hx => ?_)) (.of_faults (faults_whenPresent fun _ => faults_environment)))
    (.of_faults (faults_whenPresent fun _ => faults_steps))
  all_goals
    refine AllAnnounced.append (.of_faults faults_exactKeys) (announced_whenObject fun m hm => ?_)
    rw [hm] at hx
    exact .append (.of_faults (faults_whenPresent fun _ => by simp))
      (hpackages hx (by decide) (List.all_eq_true.1 (by decide)))

theorem announced_policy {value : Value} {path : String} (h : WarningPath (path ++ "/mode")) :
    AllAnnounced (checkPolicy lib value path) := by
  refine AllAnnounced.append (.of_faults faults_exactKeys) (announced_whenObject fun policy _ => ?_)
  refine .append (.append (.of_faults (by simp [checkMode])) ?_)
    (.of_faults (faults_flatMap fun _ => faults_faultIf))
  intro d hd
  unfold noteFull at hd
  split at hd
  · rw [notice, List.mem_singleton, orRoot, if_neg h.nonempty] at hd
    rw [hd]
    exact Announced.network h
  · cases hd

theorem announced_network {value : Value} : AllAnnounced (checkNetwork lib value) := by
  refine AllAnnounced.append (.of_faults faults_exactKeys) (announced_whenObject fun network _ => ?_)
  exact .append (announced_policy ⟨by decide, by decide, List.all_eq_true.1 (by decide)⟩)
    (announced_policy ⟨by decide, by decide, List.all_eq_true.1 (by decide)⟩)

theorem announced_spec {value : Value} (hnodes : value.nodes ≤ maxNodes) :
    AllAnnounced (checkSpec lib value) := by
  refine AllAnnounced.append (.of_faults faults_exactKeys) (announced_whenObject fun spec hspec => ?_)
  rw [hspec] at hnodes
  refine .append (.append (.append (.append (.append (.append (.append ?_ ?_) ?_) ?_) ?_) ?_) ?_) ?_
  · exact .of_faults faults_base
  · exact announced_build (nodes_getD hnodes (by decide))
  · exact .of_faults faults_workspace
  · exact .of_faults faults_runtime
  · exact announced_network
  · exact .of_faults faults_security
  · exact .of_faults faults_mounts
  · exact .of_faults faults_validation

/-- Everything the checks of a document report. -/
theorem announced_document (hnodes : document.nodes ≤ maxNodes) :
    AllAnnounced (documentFindings lib document) := by
  refine AllAnnounced.append (AllAnnounced.append (.of_faults (faults_graph document "" 0 0))
    (.of_faults faults_exactKeys)) (announced_whenObject fun root hroot => ?_)
  rw [hroot] at hnodes
  refine .append (.append (.append (.of_faults faults_constant) (.of_faults faults_constant))
    (.of_faults faults_metadata)) (announced_spec ?_)
  exact nodes_getD (x := .null) hnodes (by decide)

/-- The diagnostics of an accepted document are warnings, at most a hundred. -/
theorem accepted_diagnostics (h : (validateDocument lib document).hasErrors = false) :
    (validateDocument lib document).diagnostics.length ≤ maxDiagnostics ∧
      ∀ d ∈ (validateDocument lib document).diagnostics, Announced d ∧ d.severity = .warning := by
  have hnodes := (accepted_metadata h).1
  constructor
  · rw [diagnostics_validateDocument]
    exact List.length_take_le _ _
  · intro d hd
    have hwarning : d.severity ≠ .error := by
      intro herror
      have hany := List.any_eq_false.1 h d hd
      simp [herror] at hany
    rw [diagnostics_validateDocument] at hd
    refine ⟨announced_document hnodes d (List.mem_of_mem_take hd), ?_⟩
    cases hs : d.severity with
    | error => exact absurd hs hwarning
    | warning => rfl

end HermesOps.Hermesfile
