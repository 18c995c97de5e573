import HermesOps.Properties.HermesfileSoundness

/-! When a Hermesfile is accepted. The validator keeps the first hundred diagnostics, warnings and errors
    together. Its checks are taken in groups, each with the warnings that follow it, so a constraint is
    enforced unless a hundred warnings come before it, and an accepted document satisfies all of them
    unless it has so many. -/

namespace HermesOps.Hermesfile

open Schemes.Checks

variable {lib : Library} {value : Value} {path : String}

/-! ### Checks that only report errors -/

@[simp] theorem faults_fault {code message : String} : Faults (fault code path message) := by
  simp [Faults, Graded.fault, fault]

@[simp] theorem faults_faultIf {test : Bool} {code message : String} :
    Faults (faultIf test code path message) := by
  cases test <;> simp [faultIf]

theorem faults_eachItem {items : List Value} {check : Value → String → Findings}
    (h : ∀ x path, Faults (check x path)) : Faults (eachItem items path check) :=
  faults_flatMap fun x => h x.1 _

@[simp] theorem faults_exactKeys {required optional : List String} :
    Faults (exactKeys required optional value path) := by
  unfold exactKeys
  cases value with
  | map m => exact faults_append.2 ⟨faults_flatMap fun _ => faults_fault, faults_flatMap fun _ => faults_fault⟩
  | _ => exact faults_fault

theorem faults_whenObject {check : Members → Findings} (h : ∀ m, Faults (check m)) :
    Faults (whenObject value check) := by
  cases value <;> simp [whenObject, h]

theorem faults_whenPresent {m : Members} {key : String} {check : Value → Findings}
    (h : ∀ x, Faults (check x)) : Faults (whenPresent m key check) := by
  unfold whenPresent
  cases m.get? key <;> simp [h]

@[simp] theorem faults_string {rule : StringRule} : Faults (rule.check value path) := by
  unfold StringRule.check
  cases value with
  | str s =>
    dsimp only
    split <;> simp
  | _ => exact faults_fault

@[simp] theorem faults_boolean {expected : Option Bool} : Faults (checkBoolean expected value path) := by
  unfold checkBoolean
  cases value <;> simp

@[simp] theorem faults_integer {minimum maximum : Int} :
    Faults (checkInteger minimum maximum value path) := by
  unfold checkInteger
  cases value <;> simp

@[simp] theorem faults_number {minimumExclusive maximum : Rat} :
    Faults (checkNumber minimumExclusive maximum value path) := by
  unfold checkNumber
  cases value with
  | float x => cases x <;> simp
  | _ => simp

@[simp] theorem faults_stringList {rule : ListRule} : Faults (rule.check value path) := by
  unfold ListRule.check
  cases value with
  | seq items => simp [faults_eachItem]
  | _ => exact faults_fault

@[simp] theorem faults_duration : Faults (checkDuration value path) := by simp [checkDuration]

@[simp] theorem faults_quantity : Faults (checkQuantity value path) := by simp [checkQuantity]

@[simp] theorem faults_path {message : String} : Faults (checkPath message value path) := by
  simp [checkPath]

@[simp] theorem faults_constant {maximum : Nat} {expected code message : String} :
    Faults (checkConstant maximum expected code message value path) := by simp [checkConstant]

@[simp] theorem faults_command {requireExpect : Bool} : Faults (checkCommand requireExpect value path) := by
  refine faults_append.2 ⟨faults_exactKeys, faults_whenObject fun table => ?_⟩
  cases requireExpect <;> simp [checkArgv, faults_whenPresent]

theorem faults_scalar : Faults (scalarFindings value path) := by
  unfold scalarFindings
  cases value with
  | float x => cases x <;> simp
  | _ => simp

mutual

theorem faults_graph (value : Value) (path : String) (depth counter : Nat) :
    Faults (graphFindings value path depth counter).1 := by
  unfold graphFindings
  split
  · exact faults_fault
  split
  · exact faults_fault
  cases value with
  | map members => exact faults_members members path _ _
  | seq items => exact faults_items items 0 path _ _
  | _ =>
    dsimp only
    exact faults_scalar

theorem faults_items (items : List Value) (index : Nat) (path : String) (depth counter : Nat) :
    Faults (graphItems items index path depth counter).1 := by
  cases items with
  | nil => exact faults_nil
  | cons x xs =>
    rw [graphItems]
    exact faults_append.2 ⟨faults_graph x _ _ _, faults_items xs _ _ _ _⟩

theorem faults_members (members : List (String × Value)) (path : String) (depth counter : Nat) :
    Faults (graphMembers members path depth counter).1 := by
  cases members with
  | nil => exact faults_nil
  | cons x xs =>
    obtain ⟨key, x⟩ := x
    rw [graphMembers]
    exact faults_append.2 ⟨faults_append.2 ⟨faults_faultIf, faults_graph x _ _ _⟩,
      faults_members xs _ _ _⟩

end

/-! ### The groups of the checks -/

/-- All the required fields and no unknown one. -/
def Keys (required optional : List String) (value : Value) : Prop :=
  Table required optional value fun _ => True

theorem clean_keys {required optional : List String} :
    Clean (exactKeys required optional value path) ↔ Keys required optional value := by
  have hnil : whenObject value (fun _ => []) = [] := by cases value <;> rfl
  rw [← List.append_nil (exactKeys required optional value path), ← hnil, clean_table]
  exact Table.congr fun _ => clean_nil

/-- The groups of the checks of an object. -/
def objectGroups (required optional : List String) (gs : List (CheckGroup Members)) : List (CheckGroup Value) :=
  CheckGroup.constraint (Keys required optional) :: gs.map (CheckGroup.comap Value.members?)

theorem follows_object {required optional : List String} {check : Members → Findings}
    {gs : List (CheckGroup Members)} (h : ∀ m, Follows m (check m) gs) :
    Follows value (exactKeys required optional value path ++ whenObject value check)
      (objectGroups required optional gs) := by
  refine Follows.append (Follows.constraint faults_exactKeys clean_keys) ?_
  cases value with
  | map m => exact (h m).comap rfl
  | _ => exact Follows.absent rfl gs

/-- The groups of the checks of a field that is always looked at. -/
def fieldGroups (key : String) (gs : List (CheckGroup Value)) : List (CheckGroup Members) :=
  gs.map (CheckGroup.comap fun m => some (m.get key))

/-- The groups of the checks of a field if it is there. -/
def presentGroups (key : String) (gs : List (CheckGroup Value)) : List (CheckGroup Members) :=
  gs.map (CheckGroup.comap fun m => m.get? key)

theorem follows_present {m : Members} {key : String} {check : Value → Findings} {gs : List (CheckGroup Value)}
    (h : ∀ x, Follows x (check x) gs) : Follows m (whenPresent m key check) (presentGroups key gs) := by
  unfold whenPresent presentGroups
  cases hx : m.get? key with
  | some x => exact (h x).comap hx
  | none => exact Follows.absent (f := fun m => Members.get? m key) hx gs

def packageGroup (ecosystem : Ecosystem) : CheckGroup Value where
  holds value := Texts packageRule value fun _ => True
  notices value := ((packageRule.parse value).getD []).countP fun s => !isPinned ecosystem s

theorem length_notices {ecosystem : Ecosystem} {l : List String} {message : String} (k : Nat) :
    ((l.zipIdx k).flatMap fun x => if isPinned ecosystem x.1 then [] else
      notice "package_not_version_pinned" (child path (toString x.2)) message).length =
      l.countP fun s => !isPinned ecosystem s := by
  induction l generalizing k with
  | nil => rfl
  | cons s l ih =>
    rw [List.zipIdx_cons, List.flatMap_cons, List.length_append, ih, List.countP_cons, Nat.add_comm]
    cases isPinned ecosystem s <;> rfl

theorem follows_packages {ecosystem : Ecosystem} :
    Follows value (checkPackages ecosystem value path) [packageGroup ecosystem] := by
  refine Follows.group faults_stringList clean_stringList ?_ (length_notices 0)
  refine clean_flatMap.2 fun x _ => ?_
  split
  · exact clean_nil.2 trivial
  · exact clean_notice.2 trivial

def aptGroups : List (CheckGroup Value) :=
  objectGroups [] ["update", "packages"]
    (CheckGroup.constraint (fun apt => Present apt "update" (Flag none)) ::
      presentGroups "packages" [packageGroup .apt])

theorem follows_apt : Follows value (checkApt value) aptGroups :=
  follows_object fun apt => Follows.append
    (Follows.constraint (faults_whenPresent fun _ => faults_boolean)
      (clean_whenPresent.trans (by simp only [clean_boolean])))
    (follows_present fun _ => follows_packages)

def pythonGroups : List (CheckGroup Value) :=
  objectGroups [] ["interpreter", "packages"]
    (CheckGroup.constraint (fun python => Present python "interpreter" fun x =>
        Text { maximum := 16, enum := some ["python3", "python"] } x fun _ => True) ::
      presentGroups "packages" [packageGroup .python])

theorem follows_python : Follows value (checkPython value) pythonGroups :=
  follows_object fun python => Follows.append
    (Follows.constraint (faults_whenPresent fun _ => faults_string)
      (clean_whenPresent.trans (by simp only [clean_string])))
    (follows_present fun _ => follows_packages)

def nodeGroups : List (CheckGroup Value) :=
  objectGroups [] ["packageManager", "packages"]
    (CheckGroup.constraint (fun node => Present node "packageManager" fun x =>
        Text { maximum := 16, enum := some ["npm", "pnpm", "yarn"] } x fun _ => True) ::
      presentGroups "packages" [packageGroup .node])

theorem follows_node : Follows value (checkNode value) nodeGroups :=
  follows_object fun node => Follows.append
    (Follows.constraint (faults_whenPresent fun _ => faults_string)
      (clean_whenPresent.trans (by simp only [clean_string])))
    (follows_present fun _ => follows_packages)

def buildGroups (lib : Library) : List (CheckGroup Value) :=
  objectGroups [] ["apt", "python", "node", "environment", "steps"]
    (presentGroups "apt" aptGroups ++ presentGroups "python" pythonGroups ++
      presentGroups "node" nodeGroups ++
      [CheckGroup.constraint fun build =>
        Present build "environment" (Environment lib) ∧ Present build "steps" Steps])

theorem faults_environment : Faults (checkEnvironment lib value path) := by
  unfold checkEnvironment
  cases value with
  | map m => exact faults_append.2 ⟨faults_faultIf, faults_flatMap fun x => by simp [checkVariable]⟩
  | _ => exact faults_fault

theorem faults_steps : Faults (checkSteps value path) := by
  unfold checkSteps
  cases value with
  | seq steps => simp [faults_eachItem]
  | _ => exact faults_fault

theorem follows_build : Follows value (checkBuild lib value) (buildGroups lib) := by
  refine follows_object fun build => ?_
  rw [List.append_assoc]
  refine Follows.append (Follows.append (Follows.append (follows_present fun _ => follows_apt)
    (follows_present fun _ => follows_python)) (follows_present fun _ => follows_node)) ?_
  refine Follows.constraint ?_ ?_
  · exact faults_append.2
      ⟨faults_whenPresent fun _ => faults_environment, faults_whenPresent fun _ => faults_steps⟩
  · simp only [clean_append, clean_whenPresent, clean_environment, clean_steps]

/-- The mode of a policy, with its warning. -/
def modeGroup : CheckGroup Members where
  holds policy := ModeHolds policy
  notices policy := if modeRule.parse (policy.get "mode") = some "full" then 1 else 0

def policyGroups (lib : Library) : List (CheckGroup Value) :=
  objectGroups ["mode", "allow"] [] [modeGroup, CheckGroup.constraint (EntriesHold lib)]

theorem length_full {policy : Members} :
    (noteFull policy path).length = if modeRule.parse (policy.get "mode") = some "full" then 1 else 0 := by
  unfold noteFull
  split <;> rfl

theorem follows_policy : Follows value (checkPolicy lib value path) (policyGroups lib) := by
  refine follows_object fun policy => ?_
  show Follows policy _ ([modeGroup] ++ [CheckGroup.constraint (EntriesHold lib)])
  refine Follows.append ?_ ?_
  · exact Follows.group (by simp [checkMode]) clean_mode clean_full length_full
  · exact Follows.constraint (faults_flatMap fun _ => faults_faultIf) clean_entries

def networkGroups (lib : Library) : List (CheckGroup Value) :=
  objectGroups ["build", "runtime"] []
    (fieldGroups "build" (policyGroups lib) ++ fieldGroups "runtime" (policyGroups lib))

theorem follows_network : Follows value (checkNetwork lib value) (networkGroups lib) :=
  follows_object fun _ => Follows.append (follows_policy.comap rfl) (follows_policy.comap rfl)

def specGroups (lib : Library) : List (CheckGroup Value) :=
  objectGroups ["base", "workspace", "runtime", "network", "security", "validation"] ["build", "mounts"]
    ([CheckGroup.constraint fun spec => Base lib (spec.get "base")] ++
      (buildGroups lib).map (CheckGroup.comap fun spec => some ((spec.get? "build").getD (.map []))) ++
      [CheckGroup.constraint fun spec => Workspace (spec.get "workspace") ∧ Runtime (spec.get "runtime")] ++
      fieldGroups "network" (networkGroups lib) ++
      [CheckGroup.constraint fun spec => Security (spec.get "security") ∧
        Mounts ((spec.get? "mounts").getD (.seq [])) (workspacePath (spec.get "workspace")) ∧
        Validation (spec.get "validation")])

/-- The groups of the checks of a document, in their order. -/
def documentGroups (lib : Library) : List (CheckGroup Value) :=
  CheckGroup.constraint (fun d => d.nodes ≤ maxNodes ∧ GraphHolds 0 d) ::
    objectGroups ["apiVersion", "kind", "metadata", "spec"] []
      (CheckGroup.constraint (fun root => Constant 64 "hermesops.dev/v1" (root.get "apiVersion") ∧
          Constant 64 "SandboxProfile" (root.get "kind") ∧ Metadata (root.get "metadata")) ::
        fieldGroups "spec" (specGroups lib))

theorem faults_base : Faults (checkBase lib value) := by
  refine faults_append.2 ⟨faults_exactKeys, faults_whenObject fun base => ?_⟩
  simp [checkRegistry, faults_whenPresent]

theorem faults_workspace : Faults (checkWorkspace value) := by
  refine faults_append.2 ⟨faults_exactKeys, faults_whenObject fun workspace => ?_⟩
  simp [checkIdentity]

theorem faults_runtime : Faults (checkRuntime value) := by
  refine faults_append.2 ⟨faults_exactKeys, faults_whenObject fun runtime => ?_⟩
  simp [faults_whenPresent]

theorem faults_security : Faults (checkSecurity value) := by
  refine faults_append.2 ⟨faults_exactKeys, faults_whenObject fun security => ?_⟩
  simp [checkCapabilities, faults_whenObject]

theorem faults_mounts {workspace : Option Path} : Faults (checkMounts value workspace) := by
  unfold checkMounts
  cases value with
  | seq mounts =>
    have hmount : ∀ x path, Faults (checkMount x path) := fun x path =>
      faults_append.2 ⟨faults_exactKeys, faults_whenObject fun table => by simp [faults_whenPresent]⟩
    have htarget : ∀ m, Faults (checkTarget workspace (mountPaths mounts) m) := fun m => by
      simp [checkTarget, faults_flatMap]
    simp [faults_eachItem hmount, faults_flatMap htarget]
  | _ => exact faults_fault

theorem faults_validation : Faults (checkValidation value) := by
  refine faults_append.2 ⟨faults_exactKeys, faults_whenObject fun validation => ?_⟩
  unfold checkCommands
  cases validation.get "commands" with
  | seq commands => simp [faults_eachItem]
  | _ => exact faults_fault

theorem faults_metadata : Faults (checkMetadata value) := by
  refine faults_append.2 ⟨faults_exactKeys, faults_whenObject fun metadata => ?_⟩
  have hlabels : ∀ x path, Faults (checkLabels x path) := by
    intro x path
    unfold checkLabels
    cases x with
    | map labels => exact faults_append.2 ⟨faults_faultIf, faults_flatMap fun _ => by simp⟩
    | _ => exact faults_fault
  simp [faults_whenPresent, hlabels]

theorem follows_spec : Follows value (checkSpec lib value) (specGroups lib) := by
  refine follows_object fun spec => ?_
  have hlimits : Follows spec (checkWorkspace (spec.get "workspace") ++ checkRuntime (spec.get "runtime"))
      [CheckGroup.constraint fun spec =>
        Workspace (spec.get "workspace") ∧ Runtime (spec.get "runtime")] :=
    Follows.constraint (faults_append.2 ⟨faults_workspace, faults_runtime⟩)
      (by rw [clean_append, clean_workspace, clean_runtime])
  have hrest : Follows spec (checkSecurity (spec.get "security") ++
        (checkMounts ((spec.get? "mounts").getD (.seq [])) (workspacePath (spec.get "workspace")) ++
          checkValidation (spec.get "validation")))
      [CheckGroup.constraint fun spec => Security (spec.get "security") ∧
        Mounts ((spec.get? "mounts").getD (.seq [])) (workspacePath (spec.get "workspace")) ∧
        Validation (spec.get "validation")] :=
    Follows.constraint
      (faults_append.2 ⟨faults_security, faults_append.2 ⟨faults_mounts, faults_validation⟩⟩)
      (by rw [clean_append, clean_append, clean_security, clean_mounts, clean_validation])
  have hbase : Follows spec (checkBase lib (spec.get "base"))
      [CheckGroup.constraint fun spec => Base lib (spec.get "base")] :=
    Follows.constraint faults_base clean_base
  have hnetwork : Follows spec (checkNetwork lib (spec.get "network"))
      (fieldGroups "network" (networkGroups lib)) := follows_network.comap rfl
  have hbuild : Follows spec (checkBuild lib ((spec.get? "build").getD (.map [])))
      ((buildGroups lib).map (CheckGroup.comap fun spec =>
        some ((Members.get? spec "build").getD (.map [])))) := follows_build.comap rfl
  have h := (((hbase.append hbuild).append hlimits).append hnetwork).append hrest
  simpa only [List.append_assoc] using h

theorem follows_document {document : Value} :
    Follows document (documentFindings lib document) (documentGroups lib) := by
  unfold documentFindings documentGroups
  rw [List.append_assoc]
  refine Follows.append (Follows.constraint (faults_graph document "" 0 0) ?_)
    (follows_object fun root => Follows.append (Follows.constraint ?_ ?_) (follows_spec.comap rfl))
  · rw [(clean_graph document "" 0 0).clean, Nat.zero_add]
  · simp [faults_metadata]
  · rw [clean_append, clean_append, clean_constant, clean_constant, clean_metadata, and_assoc]

/-! ### Acceptance -/

theorem foldl_add {v : Validator} (hv : v.diagnostics.length ≤ maxDiagnostics) (f : Findings) :
    (f.foldl Validator.add v).diagnostics =
      v.diagnostics ++ f.take (maxDiagnostics - v.diagnostics.length) := by
  induction f generalizing v with
  | nil => simp
  | cons d f ih =>
    rw [List.foldl_cons, Validator.add]
    split
    · rename_i hfull
      rw [ih hv, Nat.sub_eq_zero_of_le hfull, List.take_zero, List.take_zero]
    · rename_i hroom
      have hlt := Nat.lt_of_not_le hroom
      have hlength : (v.diagnostics ++ [d]).length = v.diagnostics.length + 1 := List.length_append
      rw [ih (hlength.trans_le hlt)]
      dsimp only
      rw [hlength, show maxDiagnostics - v.diagnostics.length =
        maxDiagnostics - (v.diagnostics.length + 1) + 1 by omega, List.take_succ_cons, List.append_assoc,
        List.singleton_append]

theorem diagnostics_validateDocument {document : Value} :
    (validateDocument lib document).diagnostics =
      (documentFindings lib document).take maxDiagnostics := by
  rw [validateDocument, foldl_add (Nat.zero_le _)]
  rfl

/-- A document is accepted if no constraint that it breaks comes before the hundredth warning. -/
theorem accepted_iff {document : Value} : (validateDocument lib document).hasErrors = false ↔
    ¬Caught document maxDiagnostics (documentGroups lib) := by
  rw [← follows_document.kept, ← diagnostics_validateDocument]
  simp [Validator.hasErrors, Clean, Graded.fault]

/-- The groups are what `Sound` demands. -/
theorem sound_iff {document : Value} :
    Sound lib document ↔ ∀ g ∈ documentGroups lib, g.holds document :=
  clean_document.symm.trans follows_document.clean

/-- An accepted document satisfies every constraint, exactly if it breaks none or breaks one before
    which fewer than a hundred warnings come. -/
theorem accepted_sound (lib : Library) (document : Value) :
    ((validateDocument lib document).hasErrors = false → Sound lib document) ↔
      (∀ g ∈ documentGroups lib, g.holds document) ∨
        ∃ before g after, documentGroups lib = before ++ g :: after ∧ ¬g.holds document ∧
          (before.map fun g => g.notices document).sum < maxDiagnostics := by
  rw [accepted_iff, sound_iff, ← caught_iff]
  exact or_iff_not_imp_right.symm

/-- A hundred packages without a version. -/
def unpinnedPackages : List Value :=
  (List.range 100).map fun i => .str (String.ofList ['p', Char.ofNat (97 + i / 10), Char.ofNat (97 + i % 10)])

/-- A document with some packages, a flag for a privileged sandbox and an amount of memory. -/
def sampleDocument (packages : List Value) (privileged : Bool) (memory : String) : Value :=
  .map
    [ ("apiVersion", .str "hermesops.dev/v1"),
      ("kind", .str "SandboxProfile"),
      ("metadata", .map [("name", .str "dev")]),
      ("spec", .map
        [ ("base", .map
            [ ("image", .str "debian"),
              ("digest", .str
                "sha256:0123456789abcdef0123456789abcdef0123456789abcdef0123456789abcdef") ]),
          ("build", .map [("apt", .map [("packages", .seq packages)])]),
          ("workspace", .map
            [ ("user", .str "dev"), ("group", .str "dev"), ("directory", .str "/work"),
              ("sourceMode", .str "clone") ]),
          ("runtime", .map
            [ ("cpu", .int 1), ("memory", .str memory), ("pids", .int 64), ("timeout", .str "1h"),
              ("stopGracePeriod", .str "10s") ]),
          ("network", .map
            [ ("build", .map [("mode", .str "none"), ("allow", .seq [])]),
              ("runtime", .map [("mode", .str "none"), ("allow", .seq [])]) ]),
          ("security", .map
            [ ("privileged", .bool privileged), ("noNewPrivileges", .bool true),
              ("readOnlyRoot", .bool true),
              ("capabilities", .map [("drop", .seq [.str "ALL"]), ("add", .seq [])]),
              ("seccompProfile", .str "default"), ("secrets", .bool false),
              ("allowDockerSocket", .bool false), ("allowDeviceAccess", .bool false) ]),
          ("validation", .map
            [ ("commands", .seq
                [ .map
                    [ ("name", .str "test"), ("run", .seq [.str "make", .str "test"]),
                      ("timeout", .str "10m"), ("expectExitCode", .int 0) ] ]) ]) ]) ]

def crowdedDocument : Value := sampleDocument unpinnedPackages true "1GiB"

def plainLibrary : Library := ⟨fun c => c.isAlphanum, fun _ => false⟩

set_option maxRecDepth 20000 in
/-- A document for a privileged sandbox is accepted behind a hundred unpinned packages. -/
theorem warnings_hide_errors : ¬∀ (lib : Library) (document : Value),
    (validateDocument lib document).hasErrors = false → Sound lib document := by
  intro h
  have hfindings : (documentFindings plainLibrary crowdedDocument).map
      (fun d => decide (d.severity = .error)) = List.replicate 100 false ++ [true] := by decide +kernel
  have hall : true ∈ List.replicate 100 false ++ [true] := by simp
  rw [← hfindings] at hall
  obtain ⟨d, hd, herror⟩ := List.mem_map.1 hall
  have hkept : (validateDocument plainLibrary crowdedDocument).hasErrors = false := by
    have hany : ∀ f : Findings, (f.any fun d => d.severity = .error) =
        (f.map fun d => decide (d.severity = .error)).any id := fun f => by rw [List.any_map]; rfl
    rw [Validator.hasErrors, diagnostics_validateDocument, hany, List.map_take, hfindings]
    rfl
  have hseverity : d.severity = .error := of_decide_eq_true herror
  exact clean_document.2 (h plainLibrary crowdedDocument hkept) d hd hseverity

end HermesOps.Hermesfile
