import HermesOps.Schemes.Checks
import HermesOps.Hermesfile.Validator

/-! What a Hermesfile that is accepted satisfies. Each check is read as the constraint it states, and a
    document without an error finding satisfies all of them. The validator keeps the first hundred
    diagnostics, warnings and errors together, so it finds the errors of a document unless a hundred
    warnings come before the first of them. -/

namespace HermesOps.Hermesfile

open Schemes.Checks

variable {lib : Library} {value : Value} {path : String}

/-! ### Findings without an error -/

instance : Graded Diagnostic := ⟨fun d => d.severity = .error⟩

theorem clean_fault {code message : String} : Clean (fault code path message) ↔ False := by
  simp [Clean, Graded.fault, fault]

theorem clean_notice {code message : String} : Clean (notice code path message) ↔ True := by
  simp [Clean, Graded.fault, notice]

theorem clean_faultIf {test : Bool} {code message : String} :
    Clean (faultIf test code path message) ↔ test = false := by
  cases test <;> simp [faultIf, clean_nil, clean_fault]

/-- A check whose verdict does not depend on the path is passed by every item. -/
theorem clean_eachItem {items : List Value} {check : Value → String → Findings} {P : Value → Prop}
    (h : ∀ x path, Clean (check x path) ↔ P x) :
    Clean (eachItem items path check) ↔ ∀ x ∈ items, P x := by
  rw [eachItem, clean_flatMap]
  constructor
  · intro hall x hx
    obtain ⟨i, hi⟩ := List.getElem?_of_mem hx
    exact (h x _).1 (hall (x, i) (List.mk_mem_zipIdx_iff_getElem?.2 hi))
  · intro hall x hx
    exact (h x.1 _).2 (hall x.1 (List.fst_mem_of_mem_zipIdx hx))

/-! ### Objects, strings and arrays -/

/-- An object with all the required fields and no unknown one. -/
def Table (required optional : List String) (value : Value) (P : Members → Prop) : Prop :=
  ∃ m : Members, value = .map m ∧ (∀ key ∈ required, key ∈ m.keys) ∧
    (∀ key ∈ m.keys, key ∈ required ++ optional) ∧ P m

def Present (m : Members) (key : String) (P : Value → Prop) : Prop := ∀ x, m.get? key = some x → P x

theorem mem_sorted {key : String} {keys : List String} : key ∈ sorted keys ↔ key ∈ keys :=
  List.mem_insertionSort _

theorem clean_table {required optional : List String} {f : Members → Findings} :
    Clean (exactKeys required optional value path ++ whenObject value f) ↔
      Table required optional value fun m => Clean (f m) := by
  unfold exactKeys whenObject Table
  cases value with
  | map m =>
    simp only [clean_append, clean_flatMap, clean_fault, mem_sorted, List.mem_filter, imp_false,
      decide_eq_true_eq, not_and, not_not, Value.map.injEq, exists_eq_left', and_assoc]
  | _ => simp [clean_fault]

theorem Table.congr {required optional : List String} {P Q : Members → Prop} (h : ∀ m, P m ↔ Q m) :
    Table required optional value P ↔ Table required optional value Q := by
  simp only [Table, h]

theorem clean_whenPresent {m : Members} {key : String} {f : Value → Findings} :
    Clean (whenPresent m key f) ↔ Present m key fun x => Clean (f x) := by
  unfold whenPresent Present
  cases m.get? key <;> simp [clean_nil]

/-- The text passes the rule. -/
structure StringRule.Accepts (rule : StringRule) (s : String) : Prop where
  minimum : rule.minimum ≤ s.length
  maximum : s.length ≤ rule.maximum
  control : s.toList.any (isControl rule.allowNewline) = false
  newline : (!rule.allowNewline && s.toList.any fun c => c = '\n' || c = '\r') = false
  pattern : rule.pattern s = true
  enum : (rule.enum.any fun values => s ∉ values) = false

/-- A string that passes the rule and a further test. -/
def Text (rule : StringRule) (value : Value) (P : String → Prop) : Prop :=
  ∃ s, value = .str s ∧ rule.Accepts s ∧ P s

theorem clean_string {rule : StringRule} :
    Clean (rule.check value path) ↔ Text rule value fun _ => True := by
  unfold StringRule.check Text
  cases value with
  | str s =>
    simp only [Value.str.injEq, exists_eq_left', and_true]
    by_cases hlen : rule.minimum ≤ s.length ∧ s.length ≤ rule.maximum
    · rw [if_neg (not_not.2 hlen)]
      simp only [clean_append, clean_faultIf, Bool.not_eq_false', and_assoc]
      exact ⟨fun ⟨hc, hn, hp, he⟩ => ⟨hlen.1, hlen.2, hc, hn, hp, he⟩,
        fun ⟨_, _, hc, hn, hp, he⟩ => ⟨hc, hn, hp, he⟩⟩
    · rw [if_pos hlen, clean_fault, false_iff]
      exact fun h => hlen ⟨h.minimum, h.maximum⟩
  | _ => simp [clean_fault]

theorem StringRule.Accepts.parse {rule : StringRule} {s : String} (h : rule.Accepts s) :
    rule.parse (.str s) = some s := if_pos ⟨h.minimum, h.maximum⟩

/-- A rule and a test of what `string` returns. -/
theorem clean_text {rule : StringRule} {test : String → Bool} {code path' message : String} :
    Clean (rule.check value path ++ faultIf ((rule.parse value).any test) code path' message) ↔
      Text rule value fun s => test s = false := by
  rw [clean_append, clean_faultIf, clean_string]
  constructor
  · rintro ⟨⟨s, rfl, h, -⟩, htest⟩
    rw [h.parse] at htest
    exact ⟨s, rfl, h, htest⟩
  · rintro ⟨s, rfl, h, htest⟩
    exact ⟨⟨s, rfl, h, trivial⟩, by rw [h.parse]; exact htest⟩

/-- An array of distinct strings that pass the rule, and a further test. -/
def Texts (rule : ListRule) (value : Value) (P : List String → Prop) : Prop :=
  ∃ l : List String, value = .seq (l.map .str) ∧ rule.minimum ≤ l.length ∧ l.length ≤ rule.maximum ∧
    (∀ s ∈ l, rule.item.Accepts s) ∧ l.Nodup ∧ P l

theorem parse_texts {rule : StringRule} {l : List String} (h : ∀ s ∈ l, rule.Accepts s) :
    (l.map Value.str).filterMap rule.parse = l := by
  induction l with
  | nil => rfl
  | cons s l ih =>
    rw [List.map_cons, List.filterMap_cons, (h s List.mem_cons_self).parse]
    dsimp only
    rw [ih fun x hx => h x (List.mem_cons_of_mem _ hx)]

theorem texts_of_items {rule : StringRule} {items : List Value}
    (h : ∀ x ∈ items, Text rule x fun _ => True) :
    ∃ l : List String, items = l.map .str ∧ ∀ s ∈ l, rule.Accepts s := by
  induction items with
  | nil => exact ⟨[], rfl, by simp⟩
  | cons x items ih =>
    obtain ⟨l, rfl, hl⟩ := ih fun y hy => h y (List.mem_cons_of_mem _ hy)
    obtain ⟨s, rfl, hs, -⟩ := h x List.mem_cons_self
    exact ⟨s :: l, rfl, List.forall_mem_cons.2 ⟨hs, hl⟩⟩

theorem clean_stringList {rule : ListRule} :
    Clean (rule.check value path) ↔ Texts rule value fun _ => True := by
  unfold ListRule.check Texts
  cases value with
  | seq items =>
    have hchecks : Clean (eachItem items path rule.item.check) ↔
        ∀ x ∈ items, Text rule.item x fun _ => True := clean_eachItem fun _ _ => clean_string
    simp only [clean_append, clean_faultIf, hchecks, Value.seq.injEq, decide_eq_false_iff_not, not_not]
    constructor
    · rintro ⟨⟨hlen, hitems⟩, hdup⟩
      obtain ⟨l, rfl, hl⟩ := texts_of_items hitems
      rw [parse_texts hl, List.length_map] at hdup
      rw [List.length_map] at hlen
      refine ⟨l, rfl, hlen.1, hlen.2, hl, ?_, trivial⟩
      by_contra hn
      exact hdup ⟨rfl, hn⟩
    · rintro ⟨l, rfl, hmin, hmax, hl, hnodup, -⟩
      rw [parse_texts hl, List.length_map]
      refine ⟨⟨⟨hmin, hmax⟩, fun x hx => ?_⟩, fun h => h.2 hnodup⟩
      obtain ⟨s, hs, rfl⟩ := List.mem_map.1 hx
      exact ⟨s, rfl, hl s hs, trivial⟩
  | _ => simp [clean_fault]

/-! ### Scalars -/

def Flag (expected : Option Bool) (value : Value) : Prop :=
  ∃ b, value = .bool b ∧ ∀ e, expected = some e → b = e

theorem clean_boolean {expected : Option Bool} :
    Clean (checkBoolean expected value path) ↔ Flag expected value := by
  unfold checkBoolean Flag
  cases value with
  | bool b => cases expected <;> simp [clean_faultIf]
  | _ => simp [clean_fault]

def Integer (minimum maximum : Int) (value : Value) : Prop :=
  ∃ n, value = .int n ∧ minimum ≤ n ∧ n ≤ maximum

theorem clean_integer {minimum maximum : Int} :
    Clean (checkInteger minimum maximum value path) ↔ Integer minimum maximum value := by
  unfold checkInteger Integer
  cases value with
  | int n => simp [clean_faultIf]
  | _ => simp [clean_fault]

/-- An integer or a finite float in the range. -/
def Number (minimumExclusive maximum : Rat) (value : Value) : Prop :=
  ∃ q : Rat, ((∃ n : Int, value = .int n ∧ q = n) ∨ value = .float (.finite q)) ∧
    minimumExclusive < q ∧ q ≤ maximum

theorem clean_number {minimumExclusive maximum : Rat} :
    Clean (checkNumber minimumExclusive maximum value path) ↔ Number minimumExclusive maximum value := by
  unfold checkNumber Number
  cases value with
  | int n => simp [clean_faultIf]
  | float x => cases x <;> simp [clean_faultIf, clean_fault]
  | _ => simp [clean_fault]

def Duration (value : Value) : Prop := Text durationRule value fun s => (parseDuration s).isSome

theorem clean_duration : Clean (checkDuration value path) ↔ Duration value := by
  rw [checkDuration, clean_text, Duration]
  simp only [Option.isNone_eq_false_iff]

def Quantity (value : Value) : Prop := Text quantityRule value fun s => (parseQuantity s).isSome

theorem clean_quantity : Clean (checkQuantity value path) ↔ Quantity value := by
  rw [checkQuantity, clean_text, Quantity]
  simp only [Option.isNone_eq_false_iff]

/-- A canonical path outside the protected ones. -/
def ContainerPath (value : Value) : Prop := Text pathRule value fun s => (containerPath s).isSome

theorem clean_path {message : String} : Clean (checkPath message value path) ↔ ContainerPath value := by
  rw [checkPath, clean_text, ContainerPath]
  simp only [Option.isNone_eq_false_iff]

def Constant (maximum : Nat) (expected : String) (value : Value) : Prop :=
  Text { maximum } value fun s => s = expected

theorem clean_constant {maximum : Nat} {expected code message : String} :
    Clean (checkConstant maximum expected code message value path) ↔ Constant maximum expected value := by
  rw [checkConstant, clean_text, Constant]
  simp only [ne_eq, decide_not, Bool.not_eq_false', decide_eq_true_eq]

/-! ### The graph -/

def ScalarHolds : Value → Prop
  | .float x => ∃ q, x = .finite q
  | .str s => s.length ≤ maxScalarChars ∧ ∀ c ∈ s.toList, c.toNat ≠ 0
  | .other => False
  | _ => True

theorem clean_scalar : Clean (scalarFindings value path) ↔ ScalarHolds value := by
  unfold scalarFindings ScalarHolds
  cases value with
  | float x => cases x <;> simp [clean_nil, clean_fault]
  | str s => simp [clean_append, clean_faultIf]
  | _ => simp [clean_nil, clean_fault]

mutual

/-- No value is too deep, no key too long and no scalar of a type that is not supported. -/
def GraphHolds (depth : Nat) : Value → Prop
  | .map members => depth ≤ maxDepth ∧ MembersHold (depth + 1) members
  | .seq items => depth ≤ maxDepth ∧ ItemsHold (depth + 1) items
  | value => depth ≤ maxDepth ∧ ScalarHolds value

def ItemsHold (depth : Nat) : List Value → Prop
  | [] => True
  | x :: xs => GraphHolds depth x ∧ ItemsHold depth xs

def MembersHold (depth : Nat) : List (String × Value) → Prop
  | [] => True
  | (key, x) :: xs => key.length ≤ 256 ∧ GraphHolds depth x ∧ MembersHold depth xs

end

theorem nodes_pos (value : Value) : 0 < value.nodes := by
  cases value <;> simp [Value.nodes]

/-- The checks of some nodes: they add nothing when the nodes are few enough and sound, and then count
    them. -/
structure Counts (result : Findings × Nat) (counter nodes : Nat) (P : Prop) : Prop where
  clean : Clean result.1 ↔ counter + nodes ≤ maxNodes ∧ P
  counted : Clean result.1 → result.2 = counter + nodes

theorem Counts.append {f g : Findings × Nat} {counter m n : Nat} {P Q : Prop} (hf : Counts f counter m P)
    (hg : counter + m ≤ maxNodes → f.2 = counter + m → Counts g (counter + m) n Q) :
    Counts (f.1 ++ g.1, g.2) counter (m + n) (P ∧ Q) := by
  have hboth : Clean f.1 → Counts g (counter + m) n Q := fun hclean =>
    hg (hf.clean.1 hclean).1 (hf.counted hclean)
  constructor
  · dsimp only
    rw [clean_append]
    constructor
    · rintro ⟨hcf, hcg⟩
      have hp := hf.clean.1 hcf
      have hq := (hboth hcf).clean.1 hcg
      exact ⟨by omega, hp.2, hq.2⟩
    · rintro ⟨hle, hp, hq⟩
      have hcf := hf.clean.2 ⟨by omega, hp⟩
      exact ⟨hcf, (hboth hcf).clean.2 ⟨by omega, hq⟩⟩
  · intro hclean
    obtain ⟨hcf, hcg⟩ := clean_append.1 hclean
    have hcount := (hboth hcf).counted hcg
    dsimp only
    omega

theorem Counts.prepend {g : Findings × Nat} {counter n : Nat} {P : Prop} (hg : Counts g counter n P)
    {test : Bool} {code message : String} :
    Counts (faultIf test code path message ++ g.1, g.2) counter n (test = false ∧ P) := by
  constructor
  · dsimp only
    rw [clean_append, clean_faultIf, hg.clean]
    exact and_left_comm
  · intro hclean
    exact hg.counted (clean_append.1 hclean).2

mutual

theorem clean_graph (value : Value) (path : String) (depth counter : Nat) :
    Counts (graphFindings value path depth counter) counter value.nodes (GraphHolds depth value) := by
  have hpos := nodes_pos value
  have refused : ∀ (path : String) (code message : String),
      ¬(counter + value.nodes ≤ maxNodes ∧ GraphHolds depth value) →
      Counts (fault code path message, counter + 1) counter value.nodes
        (GraphHolds depth value) := fun _ _ _ hnot =>
    ⟨by rw [clean_fault, false_iff]; exact hnot, fun h => (clean_fault.1 h).elim⟩
  unfold graphFindings
  by_cases hmax : maxNodes < counter + 1
  · rw [if_pos hmax]
    exact refused _ _ _ fun h => by omega
  rw [if_neg hmax]
  by_cases hdepth : maxDepth < depth
  · rw [if_pos hdepth]
    refine refused _ _ _ ?_
    rintro ⟨-, h⟩
    cases value <;> simp only [GraphHolds] at h <;> omega
  rw [if_neg hdepth]
  have hle : depth ≤ maxDepth := Nat.le_of_not_lt hdepth
  cases value with
  | map members =>
    obtain ⟨hclean, hcount⟩ := clean_members members path (depth + 1) (counter + 1) (by omega)
    simp only [Value.nodes, GraphHolds, hle, true_and, Nat.add_right_comm counter 1] at hclean hcount ⊢
    exact ⟨hclean, hcount⟩
  | seq items =>
    obtain ⟨hclean, hcount⟩ := clean_items items 0 path (depth + 1) (counter + 1) (by omega)
    simp only [Value.nodes, GraphHolds, hle, true_and, Nat.add_right_comm counter 1] at hclean hcount ⊢
    exact ⟨hclean, hcount⟩
  | _ =>
    refine ⟨?_, fun _ => rfl⟩
    simp only [Value.nodes, GraphHolds, hle, true_and, clean_scalar]
    exact ⟨fun h => ⟨by omega, h⟩, fun h => h.2⟩

theorem clean_items (items : List Value) (index : Nat) (path : String) (depth counter : Nat)
    (hcounter : counter ≤ maxNodes) :
    Counts (graphItems items index path depth counter) counter (nodesItems items)
      (ItemsHold depth items) := by
  cases items with
  | nil => exact ⟨by simp [graphItems, clean_nil, nodesItems, ItemsHold, hcounter], fun _ => rfl⟩
  | cons x xs =>
    rw [graphItems, nodesItems, ItemsHold]
    refine (clean_graph x (child path (toString index)) depth counter).append fun hle hcount => ?_
    rw [hcount]
    exact clean_items xs (index + 1) path depth _ hle

theorem clean_members (members : List (String × Value)) (path : String) (depth counter : Nat)
    (hcounter : counter ≤ maxNodes) :
    Counts (graphMembers members path depth counter) counter (nodesMembers members)
      (MembersHold depth members) := by
  cases members with
  | nil => exact ⟨by simp [graphMembers, clean_nil, nodesMembers, MembersHold, hcounter], fun _ => rfl⟩
  | cons x xs =>
    obtain ⟨key, x⟩ := x
    rw [graphMembers, nodesMembers, MembersHold, ← Nat.not_lt, ← decide_eq_false_iff_not, ← and_assoc]
    refine (clean_graph x (child path key) depth counter).prepend.append fun hle hcount => ?_
    dsimp only at hcount
    rw [hcount]
    exact clean_members xs path depth _ hle

end

/-! ### Commands and packages -/

theorem Texts.parse {rule : ListRule} {l : List String} (h : ∀ s ∈ l, rule.item.Accepts s) :
    rule.parse (.seq (l.map .str)) = some l := by
  rw [ListRule.parse, parse_texts h]

/-- A rule for an array and a test of what `string_list` returns. -/
theorem clean_texts {rule : ListRule} {test : List String → Bool} {P : List String → Prop}
    {code path' message : String} :
    Texts rule value P ∧ Clean (faultIf ((rule.parse value).any test) code path' message) ↔
      Texts rule value fun l => P l ∧ test l = false := by
  rw [clean_faultIf]
  constructor
  · rintro ⟨⟨l, rfl, hmin, hmax, hl, hnodup, hp⟩, htest⟩
    rw [Texts.parse hl] at htest
    exact ⟨l, rfl, hmin, hmax, hl, hnodup, hp, htest⟩
  · rintro ⟨l, rfl, hmin, hmax, hl, hnodup, hp, htest⟩
    exact ⟨⟨l, rfl, hmin, hmax, hl, hnodup, hp⟩, by rw [Texts.parse hl]; exact htest⟩

/-- The arguments do not reach a shell. -/
def Argv (value : Value) : Prop :=
  Texts argvRule value fun argv => shellPassthrough argv = false ∧ argvBytes argv ≤ 32768

theorem clean_argv : Clean (checkArgv value path) ↔ Argv value := by
  rw [checkArgv, clean_append, clean_append, clean_stringList, clean_texts, clean_texts, Argv]
  simp only [true_and, decide_eq_false_iff_not, Nat.not_lt]

def Command (requireExpect : Bool) (value : Value) : Prop :=
  Table (commandFields requireExpect) ["workingDirectory"] value fun table =>
    Text nameRule (table.get "name") (fun _ => True) ∧ Argv (table.get "run") ∧
      Duration (table.get "timeout") ∧ Present table "workingDirectory" ContainerPath ∧
      (requireExpect = true → Integer 0 255 (table.get "expectExitCode"))

theorem clean_command {requireExpect : Bool} :
    Clean (checkCommand requireExpect value path) ↔ Command requireExpect value := by
  unfold checkCommand Command
  rw [clean_table]
  cases requireExpect <;>
    simp only [clean_append, clean_string, clean_argv, clean_duration, clean_whenPresent, clean_path,
      clean_integer, clean_nil, and_assoc, Bool.false_eq_true, if_true, if_false, false_implies,
      true_implies]

theorem clean_commands {requireExpect : Bool} {commands : List Value} :
    Clean (eachItem commands path (checkCommand requireExpect)) ↔
      ∀ command ∈ commands, Command requireExpect command := clean_eachItem fun _ _ => clean_command

theorem clean_packages {ecosystem : Ecosystem} :
    Clean (checkPackages ecosystem value path) ↔ Texts packageRule value fun _ => True := by
  rw [checkPackages, clean_append, clean_stringList, and_iff_left]
  rw [clean_flatMap]
  intro x _
  split
  · exact clean_nil.2 trivial
  · exact clean_notice.2 trivial

/-! ### Sections -/

def Labels (value : Value) : Prop :=
  ∃ labels : Members, value = .map labels ∧ labels.length ≤ 64 ∧
    ∀ x ∈ labels, Text { maximum := 63, pattern := labelPattern.fullMatch } (.str x.1) (fun _ => True) ∧
      Text { minimum := 0, maximum := 120 } x.2 fun _ => True

theorem clean_labels : Clean (checkLabels value path) ↔ Labels value := by
  unfold checkLabels Labels
  cases value with
  | map labels =>
    simp only [clean_append, clean_faultIf, clean_flatMap, clean_string, decide_eq_false_iff_not,
      Nat.not_lt, Value.map.injEq, exists_eq_left']
  | _ => simp [clean_fault]

def Metadata (value : Value) : Prop :=
  Table ["name"] ["displayName", "description", "labels"] value fun metadata =>
    Text nameRule (metadata.get "name") (fun _ => True) ∧
      Present metadata "displayName" (fun x => Text { maximum := 120 } x fun _ => True) ∧
      Present metadata "description" (fun x =>
        Text { minimum := 0, maximum := 1000, allowNewline := true } x fun _ => True) ∧
      Present metadata "labels" Labels

theorem clean_metadata : Clean (checkMetadata value) ↔ Metadata value := by
  unfold checkMetadata Metadata
  rw [clean_table]
  simp only [clean_append, clean_string, clean_whenPresent, clean_labels, and_assoc]

def Registry (lib : Library) (value : Value) : Prop :=
  Text registryRule value fun s => badRegistry lib s = false

theorem clean_registry : Clean (checkRegistry lib value path) ↔ Registry lib value := clean_text

def Base (lib : Library) (value : Value) : Prop :=
  Table ["image", "digest"] ["registry", "tag"] value fun base =>
    Present base "registry" (Registry lib) ∧
      Text { maximum := 255, pattern := imagePattern.fullMatch } (base.get "image") (fun _ => True) ∧
      Present base "tag" (fun x => Text { maximum := 128 } x fun _ => True) ∧
      Text { maximum := 71, pattern := digestPattern.fullMatch } (base.get "digest") fun _ => True

theorem clean_base : Clean (checkBase lib value) ↔ Base lib value := by
  unfold checkBase Base
  rw [clean_table]
  simp only [clean_append, clean_whenPresent, clean_registry, clean_string, and_assoc]

def Apt (value : Value) : Prop :=
  Table [] ["update", "packages"] value fun apt =>
    Present apt "update" (Flag none) ∧ Present apt "packages" fun x => Texts packageRule x fun _ => True

theorem clean_apt : Clean (checkApt value) ↔ Apt value := by
  unfold checkApt Apt
  rw [clean_table]
  simp only [clean_append, clean_whenPresent, clean_boolean, clean_packages]

def Python (value : Value) : Prop :=
  Table [] ["interpreter", "packages"] value fun python =>
    Present python "interpreter" (fun x =>
        Text { maximum := 16, enum := some ["python3", "python"] } x fun _ => True) ∧
      Present python "packages" fun x => Texts packageRule x fun _ => True

theorem clean_python : Clean (checkPython value) ↔ Python value := by
  unfold checkPython Python
  rw [clean_table]
  simp only [clean_append, clean_whenPresent, clean_string, clean_packages]

def Node (value : Value) : Prop :=
  Table [] ["packageManager", "packages"] value fun node =>
    Present node "packageManager" (fun x =>
        Text { maximum := 16, enum := some ["npm", "pnpm", "yarn"] } x fun _ => True) ∧
      Present node "packages" fun x => Texts packageRule x fun _ => True

theorem clean_node : Clean (checkNode value) ↔ Node value := by
  unfold checkNode Node
  rw [clean_table]
  simp only [clean_append, clean_whenPresent, clean_string, clean_packages]

/-- A variable whose key and value are no secret. -/
def Variable (lib : Library) (x : String × Value) : Prop :=
  Text { maximum := 128, pattern := envPattern.fullMatch } (.str x.1) (fun _ => True) ∧
    secretKeyPattern.search x.1 = false ∧
    Text environmentRule x.2 fun s => secretLike lib s = false

theorem clean_variable {x : String × Value} : Clean (checkVariable lib x path) ↔ Variable lib x := by
  unfold checkVariable Variable
  simp only [clean_append]
  constructor
  · rintro ⟨⟨⟨hkey, hvalue⟩, hsecret⟩, hlike⟩
    exact ⟨clean_string.1 hkey, clean_faultIf.1 hsecret, clean_text.1 (clean_append.2 ⟨hvalue, hlike⟩)⟩
  · rintro ⟨hkey, hsecret, s, hs, haccepts, hlike⟩
    refine ⟨⟨⟨clean_string.2 hkey, clean_string.2 ⟨s, hs, haccepts, trivial⟩⟩, clean_faultIf.2 hsecret⟩, ?_⟩
    rw [clean_faultIf, hs, haccepts.parse]
    exact hlike

def Environment (lib : Library) (value : Value) : Prop :=
  ∃ environment : Members, value = .map environment ∧ environment.length ≤ 128 ∧
    ∀ x ∈ environment, Variable lib x

theorem clean_environment : Clean (checkEnvironment lib value path) ↔ Environment lib value := by
  unfold checkEnvironment Environment
  cases value with
  | map environment =>
    simp only [clean_append, clean_faultIf, clean_flatMap, clean_variable, decide_eq_false_iff_not,
      Nat.not_lt, Value.map.injEq, exists_eq_left']
  | _ => simp [clean_fault]

def Steps (value : Value) : Prop :=
  ∃ steps : List Value, value = .seq steps ∧ steps.length ≤ 128 ∧ (∀ step ∈ steps, Command false step) ∧
    (commandNames steps).Nodup

theorem clean_steps : Clean (checkSteps value path) ↔ Steps value := by
  unfold checkSteps Steps
  cases value with
  | seq steps =>
    simp only [clean_append, clean_faultIf, clean_commands, decide_eq_false_iff_not, Nat.not_lt, not_not,
      Value.seq.injEq, exists_eq_left', and_assoc]
  | _ => simp [clean_fault]

def Build (lib : Library) (value : Value) : Prop :=
  Table [] ["apt", "python", "node", "environment", "steps"] value fun build =>
    Present build "apt" Apt ∧ Present build "python" Python ∧ Present build "node" Node ∧
      Present build "environment" (Environment lib) ∧ Present build "steps" Steps

theorem clean_build : Clean (checkBuild lib value) ↔ Build lib value := by
  unfold checkBuild Build
  rw [clean_table]
  simp only [clean_append, clean_whenPresent, clean_apt, clean_python, clean_node, clean_environment,
    clean_steps, and_assoc]

/-- A user or group other than root. -/
def Identity (value : Value) : Prop := Text userRule value fun s => s ≠ "root"

theorem clean_identity : Clean (checkIdentity value path) ↔ Identity value := by
  rw [checkIdentity, clean_append, clean_string, clean_faultIf, decide_eq_false_iff_not, Identity]
  constructor
  · rintro ⟨⟨s, rfl, h, -⟩, hroot⟩
    rw [h.parse, Option.some.injEq] at hroot
    exact ⟨s, rfl, h, hroot⟩
  · rintro ⟨s, rfl, h, hroot⟩
    rw [h.parse, Option.some.injEq]
    exact ⟨⟨s, rfl, h, trivial⟩, hroot⟩

def Workspace (value : Value) : Prop :=
  Table ["user", "group", "directory", "sourceMode"] [] value fun workspace =>
    Identity (workspace.get "user") ∧ Identity (workspace.get "group") ∧
      ContainerPath (workspace.get "directory") ∧
      Text { maximum := 16, enum := some ["worktree", "clone", "readOnly"] }
        (workspace.get "sourceMode") fun _ => True

theorem clean_workspace : Clean (checkWorkspace value) ↔ Workspace value := by
  unfold checkWorkspace Workspace
  rw [clean_table]
  simp only [clean_append, clean_identity, clean_path, clean_string, and_assoc]

def Runtime (value : Value) : Prop :=
  Table ["cpu", "memory", "pids", "timeout", "stopGracePeriod"] ["tmpfsSize"] value fun runtime =>
    Number 0 256 (runtime.get "cpu") ∧ Present runtime "memory" Quantity ∧
      Present runtime "tmpfsSize" Quantity ∧ Integer 16 65536 (runtime.get "pids") ∧
      Duration (runtime.get "timeout") ∧ Duration (runtime.get "stopGracePeriod")

theorem clean_runtime : Clean (checkRuntime value) ↔ Runtime value := by
  unfold checkRuntime Runtime
  rw [clean_table]
  simp only [clean_append, clean_number, clean_whenPresent, clean_quantity, clean_integer, clean_duration,
    and_assoc]

/-- The allow list is empty or not as the mode says. -/
def ModeHolds (policy : Members) : Prop :=
  ∃ mode, Text modeRule (policy.get "mode") (· = mode) ∧
    Texts allowRule (policy.get "allow") fun allow =>
      (mode = "none" → allow = []) ∧ (mode = "allowlist" → allow ≠ [])

def EntriesHold (lib : Library) (policy : Members) : Prop :=
  ∀ entry ∈ (allowRule.parse (policy.get "allow")).getD [],
    networkEntry lib entry = true ∧ secretLike lib entry = false

def Policy (lib : Library) (value : Value) : Prop :=
  Table ["mode", "allow"] [] value fun policy => ModeHolds policy ∧ EntriesHold lib policy

theorem clean_mode {policy : Members} :
    Clean (checkMode policy path) ↔ ModeHolds policy := by
  unfold checkMode ModeHolds
  simp only [clean_append, clean_string, clean_stringList, clean_faultIf]
  constructor
  · rintro ⟨⟨⟨⟨mode, hmode, hm, -⟩, l, hl, hmin, hmax, hitems, hnodup, -⟩, hnone⟩, hsome⟩
    rw [hmode, hm.parse, hl, Texts.parse hitems] at hnone hsome
    refine ⟨mode, ⟨mode, hmode, hm, rfl⟩, l, hl, hmin, hmax, hitems, hnodup, ?_, ?_⟩
    · rintro rfl
      simpa using hnone
    · rintro rfl
      simpa using hsome
  · rintro ⟨mode, ⟨_, hmode, hm, rfl⟩, l, hl, hmin, hmax, hitems, hnodup, hnone, hsome⟩
    rw [hmode, hm.parse, hl, Texts.parse hitems]
    refine ⟨⟨⟨⟨_, rfl, hm, trivial⟩, l, rfl, hmin, hmax, hitems, hnodup, trivial⟩, ?_⟩, ?_⟩
    · simpa using hnone
    · simpa using hsome

theorem clean_entries {policy : Members} :
    Clean (checkEntries lib policy path) ↔ EntriesHold lib policy := by
  unfold checkEntries EntriesHold
  simp only [clean_flatMap, clean_faultIf]
  constructor
  · intro h entry hentry
    obtain ⟨i, hi⟩ := List.getElem?_of_mem hentry
    have hbad := h (entry, i) (List.mk_mem_zipIdx_iff_getElem?.2 hi)
    simpa using hbad
  · intro h x hx
    simpa using h x.1 (List.fst_mem_of_mem_zipIdx hx)

theorem clean_full {policy : Members} : Clean (noteFull policy path) := by
  unfold noteFull
  split
  · exact clean_notice.2 trivial
  · exact clean_nil.2 trivial

theorem clean_policy : Clean (checkPolicy lib value path) ↔ Policy lib value := by
  unfold checkPolicy Policy
  refine clean_table.trans (Table.congr fun policy => ?_)
  rw [clean_append, clean_append, clean_mode, clean_entries, and_iff_left clean_full]

def Network (lib : Library) (value : Value) : Prop :=
  Table ["build", "runtime"] [] value fun network =>
    Policy lib (network.get "build") ∧ Policy lib (network.get "runtime")

theorem clean_network : Clean (checkNetwork lib value) ↔ Network lib value := by
  unfold checkNetwork Network
  rw [clean_table]
  simp only [clean_append, clean_policy]

/-- Everything is dropped and nothing added. -/
def Capabilities (value : Value) : Prop :=
  Table ["drop", "add"] [] value fun capabilities =>
    Texts dropRule (capabilities.get "drop") (fun drop => "ALL" ∈ drop) ∧
      Texts addRule (capabilities.get "add") fun add => add = []

theorem clean_capabilities : Clean (checkCapabilities value) ↔ Capabilities value := by
  unfold checkCapabilities Capabilities
  refine clean_table.trans (Table.congr fun capabilities => ?_)
  rw [clean_append, clean_append, clean_append, and_assoc, and_and_and_comm, clean_stringList,
    clean_texts, clean_stringList, clean_texts]
  simp only [true_and, ne_eq, decide_not, Bool.not_eq_false', decide_eq_true_eq]

def Security (value : Value) : Prop :=
  Table securityFields [] value fun security =>
    Flag (some false) (security.get "privileged") ∧ Flag (some true) (security.get "noNewPrivileges") ∧
      Flag none (security.get "readOnlyRoot") ∧ Flag (some false) (security.get "secrets") ∧
      Flag (some false) (security.get "allowDockerSocket") ∧
      Flag (some false) (security.get "allowDeviceAccess") ∧
      Text { maximum := 32, enum := some ["default"] } (security.get "seccompProfile") (fun _ => True) ∧
      Capabilities (security.get "capabilities")

theorem clean_security : Clean (checkSecurity value) ↔ Security value := by
  unfold checkSecurity Security
  rw [clean_table]
  simp only [clean_append, clean_boolean, clean_string, clean_capabilities, and_assoc]

/-! ### Mounts -/

def Mount (value : Value) : Prop :=
  Table ["name", "type", "target", "readOnly"] ["size"] value fun table =>
    Text nameRule (table.get "name") (fun _ => True) ∧
      Text mountTypeRule (table.get "type") (fun type => type = "tmpfs" → (table.get? "size").isSome) ∧
      ContainerPath (table.get "target") ∧ Flag none (table.get "readOnly") ∧
      Present table "size" Quantity

theorem clean_mount : Clean (checkMount value path) ↔ Mount value := by
  unfold checkMount Mount
  refine clean_table.trans (Table.congr fun table => ?_)
  have htarget : ∀ message, Clean (pathRule.check (table.get "target") (path ++ "/target")) ∧
      Clean (faultIf ((pathRule.parse (table.get "target")).any fun s => (containerPath s).isNone)
        "unsafe_container_path" (path ++ "/target") message) ↔ ContainerPath (table.get "target") :=
    fun _ => clean_append.symm.trans clean_path
  have htype : ∀ code message, Clean (mountTypeRule.check (table.get "type") (path ++ "/type")) ∧
      Clean (faultIf (mountTypeRule.parse (table.get "type") = some "tmpfs" ∧ (table.get? "size").isNone)
        code (path ++ "/size") message) ↔
      Text mountTypeRule (table.get "type") fun type => type = "tmpfs" → (table.get? "size").isSome := by
    intro code message
    rw [clean_string, clean_faultIf, decide_eq_false_iff_not]
    constructor
    · rintro ⟨⟨s, hs, h, -⟩, hsize⟩
      rw [hs, h.parse, Option.some.injEq, not_and, Bool.not_eq_true, Option.isNone_eq_false_iff] at hsize
      exact ⟨s, hs, h, hsize⟩
    · rintro ⟨s, hs, h, hsize⟩
      rw [hs, h.parse, Option.some.injEq, not_and, Bool.not_eq_true, Option.isNone_eq_false_iff]
      exact ⟨⟨s, rfl, h, trivial⟩, hsize⟩
  rw [← htype, ← htarget]
  simp only [clean_append, clean_string, clean_boolean, clean_whenPresent, clean_quantity]
  tauto

/-- A workspace mount is the directory of the workspace, and no other mount overlaps it. -/
def TargetHolds (workspace : Option Path) (m : MountPath) : Prop :=
  if m.type = "workspace" then ∀ path, workspace = some path → m.target = path
  else ∀ path, workspace = some path → pathsOverlap m.target path = false

def Mounts (value : Value) (workspace : Option Path) : Prop :=
  ∃ mounts : List Value, value = .seq mounts ∧ mounts.length ≤ 64 ∧ (∀ mount ∈ mounts, Mount mount) ∧
    (mountNames mounts).Nodup ∧ (mounts.countP fun mount => mountType mount = some "workspace") ≤ 1 ∧
    (∀ m ∈ mountPaths mounts, TargetHolds workspace m) ∧
    ∀ left ∈ mountPaths mounts, ∀ right ∈ mountPaths mounts, left.index < right.index →
      pathsOverlap left.target right.target = false

theorem clean_target {workspace : Option Path} {paths : List MountPath} {m : MountPath} :
    Clean (checkTarget workspace paths m) ↔ TargetHolds workspace m ∧
      ∀ right ∈ paths, m.index < right.index → pathsOverlap m.target right.target = false := by
  unfold checkTarget TargetHolds
  simp only [clean_append, clean_faultIf, clean_flatMap, decide_eq_false_iff_not, not_and,
    Bool.not_eq_true]
  by_cases htype : m.type = "workspace" <;> cases workspace <;> simp [htype, and_comm]

theorem clean_mounts {workspace : Option Path} :
    Clean (checkMounts value workspace) ↔ Mounts value workspace := by
  unfold checkMounts Mounts
  cases value with
  | seq mounts =>
    have hmounts : Clean (eachItem mounts "/spec/mounts" checkMount) ↔ ∀ mount ∈ mounts, Mount mount :=
      clean_eachItem fun _ _ => clean_mount
    simp only [clean_append, clean_faultIf, clean_flatMap, clean_target, hmounts, forall_and,
      decide_eq_false_iff_not, not_not, Nat.not_lt, Value.seq.injEq, exists_eq_left', and_assoc]
  | _ => simp [clean_fault]

/-! ### The document -/

def Validation (value : Value) : Prop :=
  Table ["commands"] [] value fun validation =>
    ∃ commands : List Value, validation.get "commands" = .seq commands ∧ 1 ≤ commands.length ∧
      commands.length ≤ 128 ∧ (∀ command ∈ commands, Command true command) ∧
      (commandNames commands).Nodup

theorem clean_validation : Clean (checkValidation value) ↔ Validation value := by
  unfold checkValidation Validation
  refine clean_table.trans (Table.congr fun validation => ?_)
  unfold checkCommands
  cases validation.get "commands" with
  | seq commands =>
    simp only [clean_append, clean_faultIf, clean_commands, decide_eq_false_iff_not, not_not,
      Value.seq.injEq, exists_eq_left', and_assoc]
  | _ => simp [clean_fault]

def Spec (lib : Library) (value : Value) : Prop :=
  Table ["base", "workspace", "runtime", "network", "security", "validation"] ["build", "mounts"] value
    fun spec =>
      Base lib (spec.get "base") ∧ Build lib ((spec.get? "build").getD (.map [])) ∧
        Workspace (spec.get "workspace") ∧ Runtime (spec.get "runtime") ∧
        Network lib (spec.get "network") ∧ Security (spec.get "security") ∧
        Mounts ((spec.get? "mounts").getD (.seq [])) (workspacePath (spec.get "workspace")) ∧
        Validation (spec.get "validation")

theorem clean_spec : Clean (checkSpec lib value) ↔ Spec lib value := by
  unfold checkSpec Spec
  rw [clean_table]
  simp only [clean_append, clean_base, clean_build, clean_workspace, clean_runtime, clean_network,
    clean_security, clean_mounts, clean_validation, and_assoc]

/-- Every hard constraint. -/
def Sound (lib : Library) (document : Value) : Prop :=
  (document.nodes ≤ maxNodes ∧ GraphHolds 0 document) ∧
    Table ["apiVersion", "kind", "metadata", "spec"] [] document fun root =>
      Constant 64 "hermesops.dev/v1" (root.get "apiVersion") ∧
        Constant 64 "SandboxProfile" (root.get "kind") ∧ Metadata (root.get "metadata") ∧
        Spec lib (root.get "spec")

theorem clean_document {document : Value} : Clean (documentFindings lib document) ↔ Sound lib document := by
  unfold documentFindings Sound
  rw [List.append_assoc, clean_append, clean_table, (clean_graph document "" 0 0).clean, Nat.zero_add]
  simp only [clean_append, clean_constant, clean_metadata, clean_spec, and_assoc]

end HermesOps.Hermesfile
