import HermesOps.Hermesfile.Canonical
import HermesOps.Properties.HermesfileAcceptance

/-! The canonical form of a Hermesfile. -/

namespace HermesOps.Hermesfile

open Schemes.Checks

/-! ### A canonical document is its own canonical form -/

theorem idem_text {f : String → Option String} (hf : ∀ s t, f s = some t → f t = some t) :
    Idempotent fun value => (value.text?.bind f).map .str := by
  intro x y h
  obtain ⟨t, ht, rfl⟩ := Option.map_eq_some_iff.1 h
  obtain ⟨s, -, hs⟩ := Option.bind_eq_some_iff.1 ht
  simp only [Value.text?, Option.bind_some, hf s t hs, Option.map_some]

theorem idem_duration : Idempotent canonicalDurationText := idem_text fun _ _ => canonicalDuration_idem

theorem idem_quantity : Idempotent canonicalQuantityText := idem_text fun _ _ => canonicalQuantity_idem

theorem idem_number : Idempotent canonicalNumber := by
  intro x y h
  unfold canonicalNumber at h
  split at h
  · rename_i q
    split at h
    · cases h
      rfl
    · rename_i hden
      cases h
      simp only [canonicalNumber, if_neg hden]
  · rename_i hother
    cases h
    unfold canonicalNumber
    split
    · exact absurd rfl (hother _)
    · rfl

theorem idem_some : Idempotent some := fun _ _ _ => rfl

theorem idem_mapM {f : Value → Option Value} (hf : Idempotent f) {items items' : List Value}
    (h : items.mapM f = some items') : items'.mapM f = some items' := by
  rw [mapM_some] at h ⊢
  induction h with
  | nil => exact List.Forall₂.nil
  | cons hxy _ ih => exact List.Forall₂.cons (hf _ _ hxy) ih

theorem idem_command : Idempotent canonicalCommand :=
  editObject_idem (by decide) (by simp [commandEdits, idem_duration])

theorem idem_commands : Idempotent canonicalCommands := by
  intro x y h
  unfold canonicalCommands at h
  split at h
  · obtain ⟨items, hitems, rfl⟩ := Option.map_eq_some_iff.1 h
    rw [canonicalCommands, idem_mapM idem_command hitems]
    rfl
  · split at h
    · rename_i hs
      cases h
      rw [canonicalCommands, if_pos hs]
    · cases h
  · split at h
    · rename_i hm
      cases h
      rw [canonicalCommands, if_pos hm]
    · cases h
  · cases h

theorem idem_base : Idempotent canonicalBase :=
  editObject_idem (by decide) (by simp [baseEdits, idem_some])

theorem idem_apt : Idempotent canonicalApt := editObject_idem (by decide) (by simp [aptEdits, idem_some])

theorem idem_python : Idempotent canonicalPython :=
  editObject_idem (by decide) (by simp [pythonEdits, idem_some])

theorem idem_node : Idempotent canonicalNode :=
  editObject_idem (by decide) (by simp [nodeEdits, idem_some])

theorem idem_build : Idempotent canonicalBuild :=
  editObject_idem (by decide)
    (by simp [buildEdits, idem_some, idem_commands, idem_apt, idem_python, idem_node])

theorem idem_runtime : Idempotent canonicalRuntime :=
  editObject_idem (by decide) (by simp [runtimeEdits, idem_quantity, idem_duration, idem_number])

theorem idem_validation : Idempotent canonicalValidation :=
  editObject_idem (by decide) (by simp [validationEdits, idem_commands])

theorem idem_mount : Idempotent canonicalMount := by
  intro x y h
  unfold canonicalMount at h
  split at h
  · rename_i mount
    have hidem : Idempotent (editObject mountEdits) :=
      editObject_idem (by decide) (by simp [mountEdits, idem_quantity])
    obtain ⟨m, hm, hy⟩ := Option.bind_eq_some_iff.1 h
    obtain ⟨m', -, rfl⟩ := Option.map_eq_some_iff.1 hy
    exact hidem _ _ h
  · split at h
    · cases h
    · rename_i hsize
      cases h
      rw [canonicalMount, if_neg hsize]
  · split at h
    · cases h
    · rename_i hsize
      cases h
      rw [canonicalMount, if_neg hsize]
  · cases h

theorem idem_mounts : Idempotent canonicalMounts := by
  intro x y h
  unfold canonicalMounts at h
  split at h
  · obtain ⟨items, hitems, rfl⟩ := Option.map_eq_some_iff.1 h
    rw [canonicalMounts, idem_mapM idem_mount hitems]
    rfl
  · cases h
    rfl
  · split at h
    · cases h
    · rename_i hsize
      cases h
      rw [canonicalMounts, if_neg hsize]
  · cases h

theorem idem_spec : Idempotent canonicalSpec :=
  editObject_idem (by decide)
    (by simp [specEdits, idem_base, idem_build, idem_mounts, idem_runtime, idem_validation])

theorem canonicalize_idem : Idempotent canonicalize :=
  editObject_idem (by decide) (by simp [idem_spec])

/-! ### What has a canonical form -/

def Requires (m : Members) (key : String) (P : Value → Prop) : Prop := ∃ x, m.get? key = some x ∧ P x

def IsObject (value : Value) : Prop := ∃ m : Members, value = .map m

/-- A quantity of whole KiB. -/
def WholeQuantity (value : Value) : Prop :=
  ∃ s n, value = .str s ∧ parseQuantity s = some n ∧ 1024 ∣ n

def ReadDuration (value : Value) : Prop := ∃ s ms, value = .str s ∧ parseDuration s = some ms

def TimedCommand (value : Value) : Prop :=
  ∃ m : Members, value = .map m ∧ Requires m "timeout" ReadDuration

/-- An array of such values, or something with nothing to go through. -/
def TimedCommands (value : Value) : Prop :=
  (∃ items : List Value, value = .seq items ∧ ∀ x ∈ items, TimedCommand x) ∨ value = .str "" ∨
    value = .map []

def ReadBuild (value : Value) : Prop :=
  ∃ build : Members, value = .map build ∧ Present build "steps" TimedCommands ∧
    Present build "apt" IsObject ∧ Present build "python" IsObject ∧ Present build "node" IsObject

def ReadRuntime (value : Value) : Prop :=
  ∃ runtime : Members, value = .map runtime ∧ Requires runtime "memory" WholeQuantity ∧
    Present runtime "tmpfsSize" WholeQuantity ∧ Requires runtime "timeout" ReadDuration ∧
    Requires runtime "stopGracePeriod" ReadDuration ∧ Requires runtime "cpu" fun _ => True

def ReadValidation (value : Value) : Prop :=
  ∃ validation : Members, value = .map validation ∧ Requires validation "commands" TimedCommands

/-- An object without a size or with one of whole KiB, or an array or text in which no size is found. -/
def SizedMount (value : Value) : Prop :=
  (∃ m : Members, value = .map m ∧ Present m "size" WholeQuantity) ∨
    (∃ items : List Value, value = .seq items ∧ ∀ x ∈ items, x.text? ≠ some "size") ∨
    ∃ s, value = .str s ∧ contains "size" s = false

def SizedMounts (value : Value) : Prop :=
  (∃ items : List Value, value = .seq items ∧ ∀ x ∈ items, SizedMount x) ∨ (∃ s, value = .str s) ∨
    ∃ m : Members, value = .map m ∧ ∀ x ∈ m, contains "size" x.1 = false

def ReadSpec (value : Value) : Prop :=
  ∃ spec : Members, value = .map spec ∧ Requires spec "base" IsObject ∧ Present spec "build" ReadBuild ∧
    Present spec "mounts" SizedMounts ∧ Requires spec "runtime" ReadRuntime ∧
    Requires spec "validation" ReadValidation

/-- Every part of the document that is edited has the shape that the edit reads. -/
def Canonicalizable (document : Value) : Prop :=
  ∃ root : Members, document = .map root ∧ Requires root "spec" ReadSpec

theorem isSome_object {es : List Edit} {value : Value} (hnodup : (editedKeys es).Nodup) :
    (editObject es value).isSome ↔
      ∃ m : Members, value = .map m ∧ ∀ e ∈ es, (e.slot (m.get? e.key)).isSome := by
  rw [editObject]
  cases value with
  | map m => simp [Value.members?, isSome_applyEdits hnodup]
  | _ => simp [Value.members?]

theorem slot_raises {m : Members} {key : String} {f : Value → Option Value} :
    (Edit.slot ⟨key, .raises, f⟩ (m.get? key)).isSome ↔ Requires m key fun x => (f x).isSome := by
  unfold Requires
  cases m.get? key <;> simp [Edit.slot]

theorem slot_skipped {m : Members} {key : String} {f : Value → Option Value} :
    (Edit.slot ⟨key, .skipped, f⟩ (m.get? key)).isSome ↔ Present m key fun x => (f x).isSome := by
  unfold Present
  cases m.get? key <;> simp [Edit.slot]

theorem slot_default {m : Members} {key : String} {f : Value → Option Value} {x : Value}
    (hx : (f x).isSome) :
    (Edit.slot ⟨key, .default x, f⟩ (m.get? key)).isSome ↔ Present m key fun x => (f x).isSome := by
  unfold Present
  cases m.get? key <;> simp [Edit.slot, hx]

theorem isSome_duration {value : Value} : (canonicalDurationText value).isSome ↔ ReadDuration value := by
  unfold canonicalDurationText ReadDuration
  cases value with
  | str s =>
    simp only [Value.text?, Option.bind_some, Option.isSome_map, Value.str.injEq, exists_and_left,
      exists_eq_left', canonicalDuration_isSome, ← Option.isSome_iff_exists]
  | _ => simp [Value.text?]

theorem isSome_quantity {value : Value} : (canonicalQuantityText value).isSome ↔ WholeQuantity value := by
  unfold canonicalQuantityText WholeQuantity
  cases value with
  | str s =>
    simp only [Value.text?, Option.bind_some, Option.isSome_map, canonicalQuantity_isSome,
      Value.str.injEq, exists_and_left, exists_eq_left']
  | _ => simp [Value.text?]

theorem isSome_number {value : Value} : (canonicalNumber value).isSome := by
  unfold canonicalNumber
  split
  · split <;> rfl
  · rfl

theorem isSome_command {value : Value} : (canonicalCommand value).isSome ↔ TimedCommand value := by
  rw [canonicalCommand, isSome_object (by decide)]
  simp only [commandEdits, List.forall_mem_cons, List.not_mem_nil, false_imp_iff, implies_true, and_true,
    slot_raises, isSome_duration, TimedCommand]

theorem isSome_mapM {f : Value → Option Value} {items : List Value} :
    (items.mapM f).isSome ↔ ∀ x ∈ items, (f x).isSome := by
  induction items with
  | nil => simp
  | cons x items ih =>
    rw [List.mapM_cons, List.forall_mem_cons, ← ih]
    cases f x <;> cases items.mapM f <;> simp

theorem isSome_commands {value : Value} : (canonicalCommands value).isSome ↔ TimedCommands value := by
  unfold canonicalCommands TimedCommands
  cases value with
  | seq items => simp [isSome_mapM, isSome_command]
  | str s => by_cases hs : s = "" <;> simp [hs]
  | map m => cases m <;> simp
  | _ => simp

/-- Edits that only add defaults succeed on every object. -/
theorem isSome_defaults {es : List Edit} {value : Value} (hnodup : (editedKeys es).Nodup)
    (hslot : ∀ e ∈ es, ∀ o, (e.slot o).isSome) : (editObject es value).isSome ↔ IsObject value := by
  rw [isSome_object hnodup, IsObject]
  exact ⟨fun ⟨m, hm, _⟩ => ⟨m, hm⟩, fun ⟨m, hm⟩ => ⟨m, hm, fun e he => hslot e he _⟩⟩

theorem slot_constant {key : String} {x : Value} (o : Option Value) :
    (Edit.slot ⟨key, .default x, some⟩ o).isSome := by
  cases o <;> rfl

theorem isSome_base {value : Value} : (canonicalBase value).isSome ↔ IsObject value :=
  isSome_defaults (by decide) (by simp [baseEdits, slot_constant])

theorem isSome_apt {value : Value} : (canonicalApt value).isSome ↔ IsObject value :=
  isSome_defaults (by decide) (by simp [aptEdits, slot_constant])

theorem isSome_python {value : Value} : (canonicalPython value).isSome ↔ IsObject value :=
  isSome_defaults (by decide) (by simp [pythonEdits, slot_constant])

theorem isSome_node {value : Value} : (canonicalNode value).isSome ↔ IsObject value :=
  isSome_defaults (by decide) (by simp [nodeEdits, slot_constant])

theorem isSome_build {value : Value} : (canonicalBuild value).isSome ↔ ReadBuild value := by
  rw [canonicalBuild, isSome_object (by decide)]
  have hsteps : (canonicalCommands (.seq [])).isSome := rfl
  simp only [buildEdits, List.forall_mem_cons, List.not_mem_nil, false_imp_iff, implies_true, and_true,
    slot_constant, true_and, slot_default hsteps, slot_skipped, isSome_commands, isSome_apt,
    isSome_python, isSome_node, ReadBuild]

theorem isSome_runtime {value : Value} : (canonicalRuntime value).isSome ↔ ReadRuntime value := by
  rw [canonicalRuntime, isSome_object (by decide)]
  simp only [runtimeEdits, List.forall_mem_cons, List.not_mem_nil, false_imp_iff, implies_true, and_true,
    slot_raises, slot_skipped, isSome_quantity, isSome_duration, isSome_number, ReadRuntime]

theorem isSome_validation {value : Value} :
    (canonicalValidation value).isSome ↔ ReadValidation value := by
  rw [canonicalValidation, isSome_object (by decide)]
  simp only [validationEdits, List.forall_mem_cons, List.not_mem_nil, false_imp_iff, implies_true,
    and_true, slot_raises, isSome_commands, ReadValidation]

theorem isSome_mount {value : Value} : (canonicalMount value).isSome ↔ SizedMount value := by
  unfold canonicalMount SizedMount
  cases value with
  | map m =>
    rw [isSome_object (by decide)]
    simp [mountEdits, slot_skipped, isSome_quantity]
  | seq items => simp
  | str s => cases hs : contains "size" s <;> simp [hs]
  | _ => simp

theorem isSome_mounts {value : Value} : (canonicalMounts value).isSome ↔ SizedMounts value := by
  unfold canonicalMounts SizedMounts
  cases value with
  | seq items => simp [isSome_mapM, isSome_mount]
  | str s => simp
  | map m => simp
  | _ => simp

theorem isSome_spec {value : Value} : (canonicalSpec value).isSome ↔ ReadSpec value := by
  rw [canonicalSpec, isSome_object (by decide)]
  have hbuild : (canonicalBuild (.map [])).isSome := by decide
  have hmounts : (canonicalMounts (.seq [])).isSome := rfl
  simp only [specEdits, List.forall_mem_cons, List.not_mem_nil, false_imp_iff, implies_true, and_true,
    slot_raises, slot_default hbuild, slot_default hmounts, isSome_base, isSome_build, isSome_mounts,
    isSome_runtime, isSome_validation, ReadSpec]

/-- The documents with a canonical form. -/
theorem isSome_canonicalize {document : Value} :
    (canonicalize document).isSome ↔ Canonicalizable document := by
  rw [canonicalize, isSome_object (by decide)]
  simp only [List.forall_mem_cons, List.not_mem_nil, false_imp_iff, implies_true, and_true, slot_raises,
    isSome_spec, Canonicalizable]

/-! ### The data nodes of the canonical form -/

def noGrowth : String → Value → Nat := fun _ _ => 0

theorem grows_text {f : String → Option String} :
    Grows (fun value => (value.text?.bind f).map .str) fun _ => 0 := by
  intro x y h
  obtain ⟨t, ht, rfl⟩ := Option.map_eq_some_iff.1 h
  obtain ⟨s, hs, -⟩ := Option.bind_eq_some_iff.1 ht
  cases x with
  | str s => rfl
  | _ => cases hs

theorem grows_duration : Grows canonicalDurationText fun _ => 0 := grows_text

theorem grows_quantity : Grows canonicalQuantityText fun _ => 0 := grows_text

theorem grows_number : Grows canonicalNumber fun _ => 0 := by
  intro x y h
  unfold canonicalNumber at h
  split at h
  · split at h <;> cases h <;> rfl
  · cases h
    rfl

theorem grows_some : Grows some fun _ => 0 := by
  rintro x y h
  cases h
  rfl

theorem extraNodes_raises {es : List Edit} (h : ∀ e ∈ es, ∀ x, e.absent ≠ .default x) (m : Members) :
    extraNodes noGrowth es m = 0 := by
  refine List.sum_eq_zero fun n hn => ?_
  obtain ⟨e, he, rfl⟩ := List.mem_map.1 hn
  unfold Edit.extra
  cases m.get? e.key with
  | some x => rfl
  | none =>
    cases habsent : e.absent with
    | default x => exact absurd habsent (h e he x)
    | _ => rfl

/-- Edits without a default do not add nodes. -/
theorem grows_edits {es : List Edit} (hnodup : (editedKeys es).Nodup)
    (hgrows : ∀ e ∈ es, Grows e.edit fun _ => 0) (hdefault : ∀ e ∈ es, ∀ x, e.absent ≠ .default x) :
    Grows (editObject es) fun _ => 0 := by
  intro x y h
  have hnodes : y.nodes = x.nodes + extraOf noGrowth es x := grows_object hnodup hgrows x y h
  rw [hnodes, extraOf]
  cases x with
  | map m => simp [Value.members?, extraNodes_raises hdefault]
  | _ => rfl

theorem grows_command : Grows canonicalCommand fun _ => 0 :=
  grows_edits (by decide) (by simp [commandEdits, grows_duration]) (by simp [commandEdits])

theorem grows_mapM {f : Value → Option Value} (hf : Grows f fun _ => 0) {items items' : List Value}
    (h : items.mapM f = some items') : nodesItems items' = nodesItems items := by
  rw [mapM_some] at h
  induction h with
  | nil => rfl
  | cons hxy _ ih => rw [nodesItems, nodesItems, hf _ _ hxy, ih, Nat.add_zero]

theorem grows_commands : Grows canonicalCommands fun _ => 0 := by
  intro x y h
  unfold canonicalCommands at h
  split at h
  · obtain ⟨items, hitems, rfl⟩ := Option.map_eq_some_iff.1 h
    rw [Value.nodes, Value.nodes, grows_mapM grows_command hitems]
    rfl
  · split at h <;> cases h
    rfl
  · split at h <;> cases h
    rfl
  · cases h

theorem grows_mount : Grows canonicalMount fun _ => 0 := by
  intro x y h
  unfold canonicalMount at h
  split at h
  · exact grows_edits (by decide) (by simp [mountEdits, grows_quantity]) (by simp [mountEdits]) _ _ h
  · split at h <;> cases h
    rfl
  · split at h <;> cases h
    rfl
  · cases h

theorem grows_mounts : Grows canonicalMounts fun _ => 0 := by
  intro x y h
  unfold canonicalMounts at h
  split at h
  · obtain ⟨items, hitems, rfl⟩ := Option.map_eq_some_iff.1 h
    rw [Value.nodes, Value.nodes, grows_mapM grows_mount hitems]
    rfl
  · cases h
    rfl
  · split at h <;> cases h
    rfl
  · cases h

theorem grows_runtime : Grows canonicalRuntime fun _ => 0 :=
  grows_edits (by decide) (by simp [runtimeEdits, grows_quantity, grows_duration, grows_number])
    (by simp [runtimeEdits])

theorem grows_validation : Grows canonicalValidation fun _ => 0 :=
  grows_edits (by decide) (by simp [validationEdits, grows_commands]) (by simp [validationEdits])

/-- The defaults that a section of `build` lacks. -/
def buildGrowth (key : String) : Value → Nat :=
  if key = "apt" then extraOf noGrowth aptEdits
  else if key = "python" then extraOf noGrowth pythonEdits
  else if key = "node" then extraOf noGrowth nodeEdits
  else fun _ => 0

/-- The defaults that a section of `spec` lacks. -/
def specGrowth (key : String) : Value → Nat :=
  if key = "base" then extraOf noGrowth baseEdits
  else if key = "build" then extraOf buildGrowth buildEdits
  else fun _ => 0

/-- The data nodes of the defaults that a document lacks. -/
def missingDefaults (document : Value) : Nat :=
  extraOf (fun _ => extraOf specGrowth specEdits) [⟨"spec", .raises, canonicalSpec⟩] document

theorem grows_defaults {es : List Edit} (hnodup : (editedKeys es).Nodup)
    (h : ∀ e ∈ es, Grows e.edit fun _ => 0) : Grows (editObject es) (extraOf noGrowth es) :=
  grows_object hnodup h

theorem grows_build : Grows canonicalBuild (extraOf buildGrowth buildEdits) := by
  refine grows_object (by decide) ?_
  have hapt : Grows canonicalApt (extraOf noGrowth aptEdits) :=
    grows_defaults (by decide) (by simp [aptEdits, grows_some])
  have hpython : Grows canonicalPython (extraOf noGrowth pythonEdits) :=
    grows_defaults (by decide) (by simp [pythonEdits, grows_some])
  have hnode : Grows canonicalNode (extraOf noGrowth nodeEdits) :=
    grows_defaults (by decide) (by simp [nodeEdits, grows_some])
  simp [buildEdits, buildGrowth, grows_some, grows_commands, hapt, hpython, hnode]

theorem grows_spec : Grows canonicalSpec (extraOf specGrowth specEdits) := by
  refine grows_object (by decide) ?_
  have hbase : Grows canonicalBase (extraOf noGrowth baseEdits) :=
    grows_defaults (by decide) (by simp [baseEdits, grows_some])
  simp [specEdits, specGrowth, hbase, grows_build, grows_mounts, grows_runtime, grows_validation]

/-- Canonicalization adds the defaults that are missing and no other data node. -/
theorem nodes_canonicalize {document c : Value} (h : canonicalize document = some c) :
    c.nodes = document.nodes + missingDefaults document :=
  grows_object (by decide) (by simp [grows_spec]) document c h

/-! ### The graph of the canonical form -/

/-- The function keeps the graph sound where `k` more levels fit below. -/
def KeepsGraph (k : Nat) (f : Value → Option Value) : Prop :=
  ∀ x y depth, f x = some y → depth + k ≤ maxDepth → GraphHolds depth x → GraphHolds depth y

theorem membersHold_get {m : Members} {depth : Nat} (h : MembersHold depth m) {key : String} {x : Value}
    (hx : m.get? key = some x) : GraphHolds depth x := by
  induction m with
  | nil => cases hx
  | cons z m ih =>
    obtain ⟨k, z⟩ := z
    rw [Members.get?_cons] at hx
    rw [MembersHold] at h
    split at hx
    · cases hx
      exact h.2.1
    · exact ih h.2.2 hx

theorem membersHold_set {m : Members} {depth : Nat} (h : MembersHold depth m) {key : String} {y : Value}
    (hkey : key.length ≤ 256) (hy : GraphHolds depth y) : MembersHold depth (m.set key y) := by
  induction m with
  | nil => exact ⟨hkey, hy, trivial⟩
  | cons z m ih =>
    obtain ⟨k, z⟩ := z
    rw [MembersHold] at h
    rw [Members.set]
    split
    · exact ⟨hkey, hy, h.2.2⟩
    · exact ⟨h.1, h.2.1, ih h.2.2⟩

/-- An edit keeps the graph sound when its function does and its default is sound. -/
structure Edit.KeepsGraph (e : Edit) (k : Nat) : Prop where
  key : e.key.length ≤ 256
  edit : Hermesfile.KeepsGraph k e.edit
  absent : ∀ x depth, e.absent = .default x → depth + k ≤ maxDepth → GraphHolds depth x

theorem membersHold_edits {es : List Edit} {k depth : Nat} (hkeeps : ∀ e ∈ es, e.KeepsGraph k)
    (hdepth : depth + k ≤ maxDepth) {m m' : Members} (h : applyEdits es m = some m')
    (hm : MembersHold depth m) : MembersHold depth m' := by
  induction es generalizing m with
  | nil =>
    cases h
    exact hm
  | cons e es ih =>
    obtain ⟨m₁, hm₁, hrest⟩ := Option.bind_eq_some_iff.1 h
    rw [List.forall_mem_cons] at hkeeps
    refine ih hkeeps.2 hrest ?_
    obtain ⟨o, ho, rfl⟩ := Option.map_eq_some_iff.1 hm₁
    cases o with
    | none => exact hm
    | some y =>
      refine membersHold_set hm hkeeps.1.key ?_
      cases hx : m.get? e.key with
      | some x =>
        rw [hx] at ho
        obtain ⟨y', hy, heq⟩ := Option.map_eq_some_iff.1 ho
        cases heq
        exact hkeeps.1.edit x _ depth hy hdepth (membersHold_get hm hx)
      | none =>
        rw [hx, Edit.slot] at ho
        cases habsent : e.absent with
        | raises =>
          rw [habsent] at ho
          cases ho
        | skipped =>
          rw [habsent] at ho
          cases ho
        | default x =>
          rw [habsent] at ho
          obtain ⟨y', hy, heq⟩ := Option.map_eq_some_iff.1 ho
          cases heq
          exact hkeeps.1.edit x _ depth hy hdepth (hkeeps.1.absent x depth habsent hdepth)

theorem keepsGraph_object {es : List Edit} {k : Nat} (hkeeps : ∀ e ∈ es, e.KeepsGraph k) :
    KeepsGraph (k + 1) (editObject es) := by
  intro x y depth h hdepth hx
  obtain ⟨m, hm, h⟩ := Option.bind_eq_some_iff.1 h
  obtain ⟨m', hm', rfl⟩ := Option.map_eq_some_iff.1 h
  cases x with
  | map m₀ =>
    cases hm
    rw [GraphHolds] at hx ⊢
    exact ⟨hx.1, membersHold_edits hkeeps (by omega) hm' hx.2⟩
  | _ => cases hm

theorem KeepsGraph.mono {k k' : Nat} {f : Value → Option Value} (h : KeepsGraph k f) (hle : k ≤ k') :
    KeepsGraph k' f := fun x y depth hf hdepth => h x y depth hf (by omega)

theorem graphHolds_plain {t : String} (h : isPlain t = true) {depth : Nat} (hdepth : depth ≤ maxDepth) :
    GraphHolds depth (.str t) := by
  obtain ⟨hlength, -, hall⟩ := of_decide_eq_true h
  refine ⟨hdepth, Nat.le_trans hlength (by decide), fun c hc => ?_⟩
  have hc' := of_decide_eq_true (List.all_eq_true.1 hall c hc)
  omega

theorem keepsGraph_text {f : String → Option String} (hf : ∀ s t, f s = some t → isPlain t = true) :
    KeepsGraph 0 fun value => (value.text?.bind f).map .str := by
  intro x y depth h hdepth _
  obtain ⟨t, ht, rfl⟩ := Option.map_eq_some_iff.1 h
  obtain ⟨s, -, hs⟩ := Option.bind_eq_some_iff.1 ht
  exact graphHolds_plain (hf s t hs) hdepth

theorem keepsGraph_duration : KeepsGraph 0 canonicalDurationText :=
  keepsGraph_text fun _ _ h => (canonicalDuration_some h).1

theorem keepsGraph_quantity : KeepsGraph 0 canonicalQuantityText :=
  keepsGraph_text fun _ _ h => (canonicalQuantity_some h).1

theorem keepsGraph_number : KeepsGraph 0 canonicalNumber := by
  intro x y depth h hdepth hx
  unfold canonicalNumber at h
  split at h
  · split at h
    · cases h
      exact ⟨hdepth, trivial⟩
    · cases h
      exact hx
  · cases h
    exact hx

theorem keepsGraph_some (k : Nat) : KeepsGraph k some := by
  rintro x y depth h - hx
  cases h
  exact hx

theorem itemsHold_mapM {f : Value → Option Value} {k depth : Nat} (hf : KeepsGraph k f)
    (hdepth : depth + k ≤ maxDepth) {items items' : List Value} (h : items.mapM f = some items')
    (hitems : ItemsHold depth items) : ItemsHold depth items' := by
  rw [mapM_some] at h
  induction h with
  | nil => trivial
  | cons hxy _ ih => exact ⟨hf _ _ depth hxy hdepth hitems.1, ih hitems.2⟩

/-- An edit without a default. -/
theorem Edit.keepsGraph {key : String} {absent : Absent} {f : Value → Option Value} {k : Nat}
    (hkey : key.length ≤ 256) (hf : Hermesfile.KeepsGraph k f) (habsent : ∀ x, absent ≠ .default x) :
    Edit.KeepsGraph ⟨key, absent, f⟩ k :=
  ⟨hkey, hf, fun x _ h => absurd h (habsent x)⟩

/-- An edit with a default that is sound wherever it fits. -/
theorem Edit.keepsGraph_default {key : String} {x : Value} {f : Value → Option Value} {k : Nat}
    (hkey : key.length ≤ 256) (hf : Hermesfile.KeepsGraph k f)
    (hx : ∀ depth, depth ≤ maxDepth → GraphHolds depth x) :
    Edit.KeepsGraph ⟨key, .default x, f⟩ k := by
  refine ⟨hkey, hf, ?_⟩
  rintro y depth h hdepth
  cases h
  exact hx depth (by omega)

theorem keepsGraph_command : KeepsGraph 1 canonicalCommand := by
  refine keepsGraph_object ?_
  simp only [commandEdits, List.forall_mem_cons, List.not_mem_nil, false_imp_iff, implies_true, and_true]
  exact Edit.keepsGraph (by decide) keepsGraph_duration (by simp)

theorem keepsGraph_commands : KeepsGraph 2 canonicalCommands := by
  intro x y depth h hdepth hx
  unfold canonicalCommands at h
  split at h
  · obtain ⟨items, hitems, rfl⟩ := Option.map_eq_some_iff.1 h
    rw [GraphHolds] at hx ⊢
    exact ⟨hx.1, itemsHold_mapM keepsGraph_command (by omega) hitems hx.2⟩
  · split at h <;> cases h
    exact hx
  · split at h <;> cases h
    exact hx
  · cases h

theorem keepsGraph_mount : KeepsGraph 1 canonicalMount := by
  intro x y depth h hdepth hx
  unfold canonicalMount at h
  split at h
  · refine keepsGraph_object (k := 0) ?_ _ y depth h hdepth hx
    simp only [mountEdits, List.forall_mem_cons, List.not_mem_nil, false_imp_iff, implies_true, and_true]
    exact Edit.keepsGraph (by decide) keepsGraph_quantity (by simp)
  · split at h <;> cases h
    exact hx
  · split at h <;> cases h
    exact hx
  · cases h

theorem keepsGraph_mounts : KeepsGraph 2 canonicalMounts := by
  intro x y depth h hdepth hx
  unfold canonicalMounts at h
  split at h
  · obtain ⟨items, hitems, rfl⟩ := Option.map_eq_some_iff.1 h
    rw [GraphHolds] at hx ⊢
    exact ⟨hx.1, itemsHold_mapM keepsGraph_mount (by omega) hitems hx.2⟩
  · cases h
    exact hx
  · split at h <;> cases h
    exact hx
  · cases h

theorem graphHolds_array {depth : Nat} (h : depth ≤ maxDepth) : GraphHolds depth (.seq []) := ⟨h, trivial⟩

theorem graphHolds_object {depth : Nat} (h : depth ≤ maxDepth) : GraphHolds depth (.map []) := ⟨h, trivial⟩

theorem keepsGraph_base : KeepsGraph 1 canonicalBase := by
  refine keepsGraph_object (k := 0) (List.forall_mem_singleton.2 ?_)
  exact Edit.keepsGraph_default (by decide) (keepsGraph_some 0) fun _ => graphHolds_plain (by decide)

theorem keepsGraph_apt : KeepsGraph 1 canonicalApt := by
  refine keepsGraph_object (k := 0) (List.forall_mem_cons.2 ⟨?_, List.forall_mem_singleton.2 ?_⟩)
  · exact Edit.keepsGraph_default (by decide) (keepsGraph_some 0) fun _ h => ⟨h, trivial⟩
  · exact Edit.keepsGraph_default (by decide) (keepsGraph_some 0) fun _ => graphHolds_array

theorem keepsGraph_python : KeepsGraph 1 canonicalPython := by
  refine keepsGraph_object (k := 0) (List.forall_mem_cons.2 ⟨?_, List.forall_mem_singleton.2 ?_⟩)
  · exact Edit.keepsGraph_default (by decide) (keepsGraph_some 0) fun _ => graphHolds_plain (by decide)
  · exact Edit.keepsGraph_default (by decide) (keepsGraph_some 0) fun _ => graphHolds_array

theorem keepsGraph_node : KeepsGraph 1 canonicalNode := by
  refine keepsGraph_object (k := 0) (List.forall_mem_cons.2 ⟨?_, List.forall_mem_singleton.2 ?_⟩)
  · exact Edit.keepsGraph_default (by decide) (keepsGraph_some 0) fun _ => graphHolds_plain (by decide)
  · exact Edit.keepsGraph_default (by decide) (keepsGraph_some 0) fun _ => graphHolds_array

theorem keepsGraph_build : KeepsGraph 3 canonicalBuild := by
  refine keepsGraph_object ?_
  simp only [buildEdits, List.forall_mem_cons, List.not_mem_nil, false_imp_iff, implies_true, and_true]
  refine ⟨?_, ?_, ?_, ?_, ?_⟩
  · exact Edit.keepsGraph_default (by decide) (keepsGraph_some 2) fun _ => graphHolds_object
  · exact Edit.keepsGraph_default (by decide) keepsGraph_commands fun _ => graphHolds_array
  · exact Edit.keepsGraph (by decide) (keepsGraph_apt.mono (by decide)) (by simp)
  · exact Edit.keepsGraph (by decide) (keepsGraph_python.mono (by decide)) (by simp)
  · exact Edit.keepsGraph (by decide) (keepsGraph_node.mono (by decide)) (by simp)

theorem keepsGraph_runtime : KeepsGraph 1 canonicalRuntime := by
  refine keepsGraph_object ?_
  simp only [runtimeEdits, List.forall_mem_cons, List.not_mem_nil, false_imp_iff, implies_true, and_true]
  refine ⟨?_, ?_, ?_, ?_, ?_⟩
  · exact Edit.keepsGraph (by decide) keepsGraph_quantity (by simp)
  · exact Edit.keepsGraph (by decide) keepsGraph_quantity (by simp)
  · exact Edit.keepsGraph (by decide) keepsGraph_duration (by simp)
  · exact Edit.keepsGraph (by decide) keepsGraph_duration (by simp)
  · exact Edit.keepsGraph (by decide) keepsGraph_number (by simp)

theorem keepsGraph_validation : KeepsGraph 3 canonicalValidation := by
  refine keepsGraph_object (List.forall_mem_singleton.2 ?_)
  exact Edit.keepsGraph (by decide) keepsGraph_commands (by simp)

theorem keepsGraph_spec : KeepsGraph 4 canonicalSpec := by
  refine keepsGraph_object ?_
  simp only [specEdits, List.forall_mem_cons, List.not_mem_nil, false_imp_iff, implies_true, and_true]
  refine ⟨?_, ?_, ?_, ?_, ?_⟩
  · exact Edit.keepsGraph (by decide) (keepsGraph_base.mono (by decide)) (by simp)
  · exact Edit.keepsGraph_default (by decide) keepsGraph_build fun _ => graphHolds_object
  · exact Edit.keepsGraph_default (by decide) (keepsGraph_mounts.mono (by decide)) fun _ => graphHolds_array
  · exact Edit.keepsGraph (by decide) (keepsGraph_runtime.mono (by decide)) (by simp)
  · exact Edit.keepsGraph (by decide) keepsGraph_validation (by simp)

theorem keepsGraph_canonicalize : KeepsGraph 5 canonicalize := by
  refine keepsGraph_object (List.forall_mem_singleton.2 ?_)
  exact Edit.keepsGraph (by decide) keepsGraph_spec (by simp)

end HermesOps.Hermesfile
