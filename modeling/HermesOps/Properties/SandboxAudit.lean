import HermesOps.Sandbox.Audit
import HermesOps.Schemes.Transaction

/-! What an audited sandbox can reach. The audit compares texts; the places they name are compared here. The
    two agree on paths in their shortest form, except that the audit lets a mount of a directory above a
    forbidden one pass. -/

namespace HermesOps.Sandbox

open Schemes RootedPath

/-! ### Places -/

/-- The place an absolute path names. -/
def place (text : String) : Option (List (List Char)) :=
  if text.toList.head? = some '/' then some (read text.toList) else none

/-- The shortest text of the same place. -/
def spelled (text : String) : String :=
  match place text with
  | some path => String.ofList (render path)
  | none => text

/-- One of the two places lies within the other. -/
def Touches (source forbidden : String) : Prop :=
  ∃ s f, place source = some s ∧ place forbidden = some f ∧ (s <+: f ∨ f <+: s)

/-- The source is a directory above the other place. -/
def Encloses (source forbidden : String) : Prop :=
  ∃ s f, place source = some s ∧ place forbidden = some f ∧ s <+: f ∧ s ≠ f

instance (source forbidden : String) : Decidable (Encloses source forbidden) :=
  decidable_of_iff (∃ s ∈ place source, ∃ f ∈ place forbidden, s <+: f ∧ s ≠ f)
    ⟨fun ⟨s, hs, f, hf, h⟩ => ⟨s, f, hs, hf, h⟩, fun ⟨s, f, hs, hf, h⟩ => ⟨s, hs, f, hf, h⟩⟩

section Places

variable {path : List (List Char)} {text source forbidden : String}

theorem head_render (path : List (List Char)) : (render path).head? = some '/' := by
  cases path with
  | nil => rfl
  | cons n ns => rfl

theorem place_render (h : ∀ n ∈ path, IsName n) : place (String.ofList (render path)) = some path := by
  unfold place
  rw [String.toList_ofList, if_pos (head_render path), read_render h]

theorem place_isName (h : place text = some path) : ∀ n ∈ path, IsName n := by
  unfold place at h
  split at h
  · obtain rfl := Option.some.inj h
    exact read_isName text.toList
  · cases h

/-- A path names a place exactly when its shortest text is that of the place. -/
theorem place_eq_iff (h : ∀ n ∈ path, IsName n) :
    place text = some path ↔ spelled text = String.ofList (render path) := by
  unfold spelled
  cases hplace : place text with
  | some p =>
    dsimp only
    rw [Option.some_inj, String.ofList_inj]
    exact (render_inj (place_isName hplace) h).symm
  | none =>
    constructor
    · intro hnone
      cases hnone
    · intro htext
      dsimp only at htext
      rw [htext, place_render h] at hplace
      cases hplace

/-- The textual test on the shortest text tells what lies within a directory. -/
theorem spelled_within (hpath : ∀ n ∈ path, IsName n) (hne : path ≠ []) :
    (spelled source = String.ofList (render path) ∨
        startsWith (spelled source) (String.ofList (render path) ++ "/") = true) ↔
      ∃ s, place source = some s ∧ path <+: s := by
  have hhead : (String.ofList (render path) ++ "/").toList = render path ++ ['/'] := by simp
  cases hplace : place source with
  | some s =>
    have hs : spelled source = String.ofList (render s) := (place_eq_iff (place_isName hplace)).mp hplace
    rw [hs, String.ofList_inj]
    unfold startsWith
    rw [hhead, String.toList_ofList, decide_eq_true_iff,
      render_within (place_isName hplace) hpath hne]
    simp
  | none =>
    have hs : spelled source = source := by simp [spelled, hplace]
    rw [hs]
    constructor
    · rintro (rfl | hstart)
      · rw [place_render hpath] at hplace
        cases hplace
      · unfold startsWith at hstart
        rw [decide_eq_true_iff, hhead] at hstart
        obtain ⟨rest, hrest⟩ := hstart
        unfold place at hplace
        rw [if_pos] at hplace
        · cases hplace
        · rw [← hrest, List.append_assoc, List.head?_append, head_render]
          rfl
    · rintro ⟨s, hs, -⟩
      cases hs

end Places

/-! ### The forbidden places -/

def forbiddenPaths (root : Root) : List (List (List Char)) :=
  [root.names ++ ["secrets".toList], root.names ++ ["state".toList, "hermes-home".toList],
    ["var".toList, "run".toList, "docker.sock".toList], ["run".toList, "hermes-docker".toList]]

def socketPaths : List (List (List Char)) :=
  [["var".toList, "run".toList, "docker.sock".toList],
    ["run".toList, "hermes-docker".toList, "docker.sock".toList]]

section Forbidden

variable {root : Root} {source destination : String}

theorem forbiddenPaths_isName : ∀ path ∈ forbiddenPaths root, path ≠ [] ∧ ∀ n ∈ path, IsName n := by
  have happend : ∀ names : List (List Char), names ≠ [] → (∀ n ∈ names, IsName n) →
      root.names ++ names ≠ [] ∧ ∀ n ∈ root.names ++ names, IsName n := by
    intro names hne hnames
    refine ⟨List.append_ne_nil_of_right_ne_nil _ hne, ?_⟩
    intro n hn
    rcases List.mem_append.mp hn with hn | hn
    · exact root.valid n hn
    · exact hnames n hn
  intro path hpath
  simp only [forbiddenPaths, List.mem_cons, List.not_mem_nil, or_false] at hpath
  rcases hpath with rfl | rfl | rfl | rfl
  · exact happend _ (by decide) (by decide)
  · exact happend _ (by decide) (by decide)
  · exact ⟨by decide, by decide⟩
  · exact ⟨by decide, by decide⟩

theorem forbiddenMountSources_eq :
    forbiddenMountSources root = (forbiddenPaths root).map fun path => String.ofList (render path) :=
  rfl

theorem socketPaths_isName : ∀ path ∈ socketPaths, ∀ n ∈ path, IsName n := by decide

theorem forbiddenMountDestinations_eq :
    forbiddenMountDestinations = socketPaths.map fun path => String.ofList (render path) := rfl

/-- The test of the sources on the shortest text tells what lies within a forbidden place. -/
theorem forbiddenSource_spelled : forbiddenSource root (spelled source) = true ↔
    ∃ forbidden ∈ forbiddenMountSources root, ∃ s f, place source = some s ∧
      place forbidden = some f ∧ f <+: s := by
  rw [forbiddenMountSources_eq]
  unfold forbiddenSource
  rw [List.any_eq_true, forbiddenMountSources_eq]
  simp only [List.mem_map, exists_exists_and_eq_and, decide_eq_true_eq]
  constructor
  · rintro ⟨path, hpath, hsource⟩
    obtain ⟨hne, hnames⟩ := forbiddenPaths_isName path hpath
    obtain ⟨s, hs, hwithin⟩ := (spelled_within hnames hne).mp hsource
    exact ⟨path, hpath, s, path, hs, place_render hnames, hwithin⟩
  · rintro ⟨path, hpath, s, f, hs, hf, hwithin⟩
    obtain ⟨hne, hnames⟩ := forbiddenPaths_isName path hpath
    rw [place_render hnames] at hf
    obtain rfl := Option.some.inj hf
    exact ⟨path, hpath, (spelled_within hnames hne).mpr ⟨s, hs, hwithin⟩⟩

/-- No forbidden place is touched when none is enclosed and the test passes on the shortest text. -/
theorem untouched_iff : (∀ forbidden ∈ forbiddenMountSources root, ¬Touches source forbidden) ↔
    (∀ forbidden ∈ forbiddenMountSources root, ¬Encloses source forbidden) ∧
      forbiddenSource root (spelled source) = false := by
  rw [Bool.eq_false_iff, ne_eq, forbiddenSource_spelled]
  constructor
  · intro h
    refine ⟨?_, ?_⟩
    · rintro forbidden hforbidden ⟨s, f, hs, hf, habove, -⟩
      exact h forbidden hforbidden ⟨s, f, hs, hf, .inl habove⟩
    · rintro ⟨forbidden, hforbidden, s, f, hs, hf, hwithin⟩
      exact h forbidden hforbidden ⟨s, f, hs, hf, .inr hwithin⟩
  · rintro ⟨hencloses, hwithin⟩ forbidden hforbidden ⟨s, f, hs, hf, htouch⟩
    by_cases heq : s = f
    · exact hwithin ⟨forbidden, hforbidden, s, f, hs, hf, heq ▸ List.prefix_rfl⟩
    · rcases htouch with habove | hinside
      · exact hencloses forbidden hforbidden ⟨s, f, hs, hf, habove, heq⟩
      · exact hwithin ⟨forbidden, hforbidden, s, f, hs, hf, hinside⟩

theorem place_socket_iff : (∀ socket ∈ forbiddenMountDestinations, place destination ≠ place socket) ↔
    spelled destination ∉ forbiddenMountDestinations := by
  rw [forbiddenMountDestinations_eq]
  simp only [List.mem_map, not_exists, not_and, forall_exists_index, and_imp, forall_apply_eq_imp_iff₂]
  refine forall₂_congr fun path hpath => ?_
  have hnames := socketPaths_isName path hpath
  rw [place_render hnames, ne_eq, place_eq_iff hnames, eq_comm]

end Forbidden

/-! ### Security options -/

def trueTexts : List String := ["1", "t", "T", "TRUE", "true", "True"]

def falseTexts : List String := ["0", "f", "F", "FALSE", "false", "False"]

/-- The option gives `no-new-privileges` the value. -/
def givesValue (option value : String) : Bool :=
  option = "no-new-privileges=" ++ value ∨ option = "no-new-privileges:" ++ value

/-- What a security option says about `no-new-privileges`, as Docker reads it. -/
def privilegeSetting (option : String) : Option Bool :=
  if option = "no-new-privileges" ∨ trueTexts.any (givesValue option) then some true
  else if falseTexts.any (givesValue option) then some false
  else none

/-- Docker goes through the options in order. -/
def noNewPrivileges (options : List String) : Bool :=
  options.foldl (fun inForce option => (privilegeSetting option).getD inForce) false

/-- The last setting counts. -/
theorem foldl_getD {α β : Type} (f : α → Option β) (l : List α) (b : β) :
    l.foldl (fun x y => (f y).getD x) b = ((l.filterMap f).getLast?).getD b := by
  induction l generalizing b with
  | nil => rfl
  | cons y ys ih =>
    rw [List.foldl_cons, ih, List.filterMap_cons]
    cases f y with
    | none => rfl
    | some x =>
      rw [List.getLast?_cons, Option.getD_some, Option.getD_some]

theorem noNewPrivileges_iff {options : List String} :
    noNewPrivileges options = true ↔ (options.filterMap privilegeSetting).getLast? = some true := by
  unfold noNewPrivileges
  rw [foldl_getD]
  cases (options.filterMap privilegeSetting).getLast? with
  | none => simp
  | some x => simp

/-! ### Environment -/

/-- The name of an entry contains one of the fragments, whatever the case of its letters. -/
def NamesSensitive (entry : String) : Prop :=
  ∃ fragment ∈ sensitiveEnvFragments,
    fragment.toList <:+: (entry.toList.takeWhile fun c => c ≠ '=').map Char.toUpper

section Environment

variable {casing : Casing} {entry : String}

theorem fragment_ascii : ∀ fragment ∈ sensitiveEnvFragments, ∀ c ∈ fragment.toList, c.toNat < 128 := by
  have hall : (sensitiveEnvFragments.all fun fragment => fragment.toList.all fun c => c.toNat < 128) = true := by
    rfl
  intro fragment hfragment c hc
  exact of_decide_eq_true (List.all_eq_true.1 (List.all_eq_true.1 hall fragment hfragment) c hc)

theorem ascii_of_toUpper {c : Char} (h : c.toUpper.toNat < 128) : c.toNat < 128 := by
  by_cases hlower : c.toNat < 128
  · exact hlower
  · have hsame : c.toUpper = c := by
      unfold Char.toUpper
      rw [dif_neg]
      rintro ⟨-, hz⟩
      have : c.toNat ≤ 122 := hz
      omega
    rwa [hsame] at h

theorem flatMap_upperChar {l : List Char} (h : ∀ c ∈ l, c.toUpper.toNat < 128) :
    l.flatMap casing.upperChar = l.map Char.toUpper := by
  induction l with
  | nil => rfl
  | cons c cs ih =>
    obtain ⟨hc, hcs⟩ := List.forall_mem_cons.mp h
    rw [List.flatMap_cons, List.map_cons, casing.ascii c (ascii_of_toUpper hc), ih hcs,
      List.singleton_append]

theorem sensitiveEntry_of_names (h : NamesSensitive entry) : sensitiveEntry casing entry = true := by
  obtain ⟨fragment, hfragment, before, after, hname⟩ := h
  have hascii := fragment_ascii fragment hfragment
  obtain ⟨name, rest, hsplit⟩ : ∃ name rest, entry.toList = name ++ rest ∧
      name.map Char.toUpper = before ++ fragment.toList ++ after :=
    ⟨_, _, (List.takeWhile_append_dropWhile).symm, hname.symm⟩
  obtain ⟨hentry, hmap⟩ := hsplit
  obtain ⟨l, r, rfl, hl, -⟩ := List.map_eq_append_iff.mp hmap
  obtain ⟨p, q, rfl, -, hq⟩ := List.map_eq_append_iff.mp hl
  have hupper : q.flatMap casing.upperChar = fragment.toList := by
    rw [flatMap_upperChar, hq]
    intro c hc
    exact hascii _ (hq ▸ List.mem_map_of_mem hc)
  unfold sensitiveEntry
  rw [List.any_eq_true]
  refine ⟨fragment, hfragment, decide_eq_true ?_⟩
  unfold Casing.upper
  rw [String.toList_ofList, hentry]
  simp only [List.flatMap_append, hupper, List.append_assoc]
  exact ⟨p.flatMap casing.upperChar, _, by rw [List.append_assoc]⟩

end Environment

/-! ### The audit -/

/-- What an accepted document should mean for the container. -/
structure Confined (host : Host) (role : Role) (grant : Grant) (d : Document) : Prop where
  sources : ∀ mount ∈ d.mounts, ∀ forbidden ∈ forbiddenMountSources host.root,
    ¬Touches mount.source forbidden
  sockets : ∀ mount ∈ d.mounts, ∀ socket ∈ forbiddenMountDestinations,
    place mount.destination ≠ place socket
  newPrivileges : noNewPrivileges d.securityOpt = true
  capabilities : "ALL" ∈ d.capDrop.map host.casing.upper ∧ d.capAdd = []
  privileged : d.privileged = false
  network : d.networkMode = "none" ∧ ∀ network ∈ d.networks, network = "none"
  environment : ∀ entry ∈ d.env, ¬NamesSensitive entry
  workspace : ∃ workspace,
    (d.mounts.filter fun mount => place mount.destination = place "/workspace") = [workspace] ∧
      host.resolve workspace.source = host.resolve grant.clone ∧ workspace.rw = role.writable

/-- The documents on which the textual tests mean what they stand for. -/
structure Plain (root : Root) (d : Document) : Prop where
  above : ∀ mount ∈ d.mounts, ∀ forbidden ∈ forbiddenMountSources root, ¬Encloses mount.source forbidden
  sources : ∀ mount ∈ d.mounts, forbiddenSource root (spelled mount.source) = false
  destinations : ∀ mount ∈ d.mounts, spelled mount.destination ∉ forbiddenMountDestinations
  workspace : ∀ mount ∈ d.mounts, spelled mount.destination = "/workspace" →
    mount.destination = "/workspace"
  options : (d.securityOpt.filterMap privilegeSetting).getLast? = some true
  capabilities : d.capAdd = []

section Audit

variable {host : Host} {role : Role} {grant : Grant} {inspect : Nat → Option Document} {d : Document}
  {a : Audit}

@[simp] theorem require_ok {test : Bool} {refusal : Refusal} {u : Unit} :
    require test refusal = .ok u ↔ test = true := by
  unfold require
  cases test <;> simp

theorem auditWorkspace_ok {workspace : Mount} (h : auditWorkspace host role grant d = .ok workspace) :
    (d.mounts.filter fun mount => mount.destination = "/workspace") = [workspace] ∧
      host.resolve workspace.source = host.resolve grant.clone ∧ workspace.rw = role.writable := by
  unfold auditWorkspace at h
  split at h
  · rename_i mount hfilter
    simp only [Except.bind_ok, require_ok, decide_eq_true_eq] at h
    obtain ⟨_, hsource, _, hmode, hpure⟩ := h
    obtain rfl := Except.pure_ok.mp hpure
    exact ⟨hfilter, hsource, hmode⟩
  · cases h

/-- What the tests of an accepted document say. -/
structure Passed (host : Host) (role : Role) (grant : Grant) (d : Document) : Prop where
  workspace : ∃ workspace,
    (d.mounts.filter fun mount => mount.destination = "/workspace") = [workspace] ∧
      host.resolve workspace.source = host.resolve grant.clone ∧ workspace.rw = role.writable
  network : d.networkMode = "none" ∧ ∀ network ∈ d.networks, network = "none"
  privileged : d.privileged = false
  capabilities : "ALL" ∈ d.capDrop.map host.casing.upper
  environment : ∀ entry ∈ d.env, sensitiveEntry host.casing entry = false

theorem auditDocument_ok (h : auditDocument host role grant d = .ok a) : Passed host role grant d := by
  unfold auditDocument at h
  simp only [Except.bind_ok, require_ok, decide_eq_true_eq] at h
  obtain ⟨_, _, _, _, _, _, _, _, _, _, _, _, workspace, hworkspace, _, _, _, hmode, _, hnetworks, _, _,
    _, _, _, _, _, hprivileged, _, _, _, hcaps, _, _, _, henv, _⟩ := h
  refine ⟨⟨workspace, auditWorkspace_ok hworkspace⟩, ⟨hmode, ?_⟩, ?_, hcaps, ?_⟩
  · intro network hnetwork
    exact of_decide_eq_true (List.all_eq_true.mp hnetworks network hnetwork)
  · simpa using hprivileged
  · intro entry hentry
    have hnone := List.filter_eq_nil_iff.mp henv entry hentry
    exact Bool.eq_false_iff.mpr hnone

theorem auditAs_ok (h : auditAs host role grant inspect = .ok a) (hfound : firstFound inspect = some d) :
    Passed host role grant d := by
  have haudit : audit host role grant inspect = .ok a := by
    cases role with
    | worker =>
      unfold auditAs auditSandbox at h
      cases hcase : audit host .worker grant inspect with
      | ok b =>
        rw [hcase] at h
        exact congrArg Except.ok (Except.ok.inj h)
      | error e =>
        rw [hcase] at h
        cases h
    | reviewer =>
      unfold auditAs auditReviewerSandbox at h
      cases hcase : audit host .reviewer grant inspect with
      | ok b =>
        rw [hcase] at h
        exact congrArg Except.ok (Except.ok.inj h)
      | error e =>
        rw [hcase] at h
        cases h
  unfold audit at haudit
  rw [hfound] at haudit
  exact auditDocument_ok haudit

theorem workspace_names : ∀ n ∈ ["workspace".toList], IsName n := by decide

theorem place_workspace_iff {destination : String} :
    place destination = place "/workspace" ↔ spelled destination = "/workspace" := by
  have hplace : place "/workspace" = some ["workspace".toList] := place_render workspace_names
  rw [hplace, place_eq_iff workspace_names]
  rfl

theorem filter_workspace (hspelled : ∀ mount ∈ d.mounts, spelled mount.destination = "/workspace" →
      mount.destination = "/workspace") :
    (d.mounts.filter fun mount => place mount.destination = place "/workspace") =
      d.mounts.filter fun mount => mount.destination = "/workspace" := by
  refine List.filter_congr fun mount hmount => ?_
  rw [decide_eq_decide, place_workspace_iff]
  constructor
  · exact hspelled mount hmount
  · intro h
    rw [h]
    rfl

/-- An accepted sandbox is confined if and only if its document is plain. -/
theorem audit_confines_iff (host : Host) (role : Role) (grant : Grant) (inspect : Nat → Option Document)
    (d : Document) (a : Audit) (hfound : firstFound inspect = some d)
    (haudit : auditAs host role grant inspect = .ok a) :
    Confined host role grant d ↔ Plain host.root d := by
  have hpassed := auditAs_ok haudit hfound
  obtain ⟨workspace, hworkspace, hclone, hmode⟩ := hpassed.workspace
  constructor
  · intro h
    refine ⟨?_, ?_, ?_, ?_, noNewPrivileges_iff.mp h.newPrivileges, h.capabilities.2⟩
    · intro mount hmount
      exact (untouched_iff.mp (h.sources mount hmount)).1
    · intro mount hmount
      exact (untouched_iff.mp (h.sources mount hmount)).2
    · intro mount hmount
      exact place_socket_iff.mp (h.sockets mount hmount)
    · intro mount hmount hspelled
      obtain ⟨only, honly, -⟩ := h.workspace
      have hmem : ∀ m ∈ d.mounts, place m.destination = place "/workspace" → m = only := by
        intro m hm hplace
        have : m ∈ d.mounts.filter fun mount => place mount.destination = place "/workspace" :=
          List.mem_filter.mpr ⟨hm, decide_eq_true hplace⟩
        rw [honly] at this
        exact List.mem_singleton.mp this
      have hfirst := List.mem_filter.mp (hworkspace ▸ List.mem_singleton_self workspace)
      have hdestination : workspace.destination = "/workspace" := of_decide_eq_true hfirst.2
      have hwork := hmem workspace hfirst.1 (by rw [hdestination])
      rw [hmem mount hmount (place_workspace_iff.mpr hspelled), ← hwork, hdestination]
  · intro h
    refine ⟨?_, ?_, noNewPrivileges_iff.mpr h.options, ⟨hpassed.capabilities, h.capabilities⟩,
      hpassed.privileged, hpassed.network, ?_, ?_⟩
    · intro mount hmount
      exact untouched_iff.mpr ⟨h.above mount hmount, h.sources mount hmount⟩
    · intro mount hmount
      exact place_socket_iff.mpr (h.destinations mount hmount)
    · intro entry hentry hnames
      have := hpassed.environment entry hentry
      rw [sensitiveEntry_of_names hnames] at this
      cases this
    · exact ⟨workspace, by rw [filter_workspace h.workspace, hworkspace], hclone, hmode⟩

end Audit

/-! ### A mounted parent directory -/

def sampleHost : Host where
  root := ⟨["opt".toList, "docker".toList, "hermesops".toList], by decide⟩
  resolve text := text
  casing := ⟨fun c => [c.toUpper], fun _ _ => rfl⟩
  repr text := "'" ++ text ++ "'"
  reprList texts := "[" ++ ", ".intercalate (texts.map fun text => "'" ++ text ++ "'") ++ "]"

def sampleGrant : Grant where
  containerId := "0123456789ab"
  taskId := "task-1"
  runtimeRequestId := "agent-runtime-1"
  clone := "/opt/docker/hermesops/workspaces/clone"
  imageId := "sha256:0"
  cpuLimit := 2
  memoryMb := 2048

/-- The document of the sandbox with some more mounts. -/
def sampleDocument (mounts : List Mount) : Document where
  id := "0123456789ab"
  image := "sha256:0"
  status := "running"
  labels := [("hermesops-sandbox", "1"), ("hermesops-task-id", "task-1"),
    ("hermesops-runtime-request-id", "agent-runtime-1")]
  mounts := ⟨"/opt/docker/hermesops/workspaces/clone", "/workspace", true⟩ :: mounts
  networkMode := "none"
  networks := ["none"]
  memory := 2147483648
  nanoCpus := 2000000000
  pidsLimit := some 256
  privileged := false
  securityOpt := ["no-new-privileges"]
  capAdd := []
  capDrop := ["ALL"]
  user := "1000:1000"
  env := ["PATH=/usr/bin"]

theorem sample_accepted (mounts : List Mount)
    (h : (auditDocument sampleHost .worker sampleGrant (sampleDocument mounts)).isOk = true) :
    ∃ a, auditAs sampleHost .worker sampleGrant (fun _ => some (sampleDocument mounts)) = .ok a := by
  cases haudit : auditDocument sampleHost .worker sampleGrant (sampleDocument mounts) with
  | ok a =>
    refine ⟨a, ?_⟩
    have hfound : firstFound (fun _ => some (sampleDocument mounts)) = some (sampleDocument mounts) := rfl
    unfold auditAs auditSandbox audit
    rw [hfound]
    dsimp only
    rw [haudit]
    rfl
  | error e =>
    rw [haudit] at h
    cases h

theorem sample_plain : Plain sampleHost.root (sampleDocument []) :=
  ⟨by decide +kernel, by decide +kernel, by decide +kernel, by decide +kernel, by decide +kernel, rfl⟩

theorem sample_confined :
    Confined sampleHost .worker sampleGrant (sampleDocument []) := by
  obtain ⟨a, ha⟩ := sample_accepted [] (by decide +kernel)
  exact (audit_confines_iff sampleHost .worker sampleGrant (fun _ => some (sampleDocument []))
    (sampleDocument []) a rfl ha).mpr sample_plain

/-- The directory that holds the secrets may be mounted. -/
theorem parent_accepted :
    ¬∀ (host : Host) (role : Role) (grant : Grant) (inspect : Nat → Option Document) (d : Document)
        (a : Audit), firstFound inspect = some d → auditAs host role grant inspect = .ok a →
      Confined host role grant d := by
  intro h
  obtain ⟨a, ha⟩ := sample_accepted [⟨"/opt/docker/hermesops", "/host", true⟩] (by decide +kernel)
  have hconfined := h sampleHost .worker sampleGrant _ _ a rfl ha
  refine hconfined.sources ⟨"/opt/docker/hermesops", "/host", true⟩ (by decide +kernel)
    "/opt/docker/hermesops/secrets" (by decide +kernel) ?_
  exact ⟨["opt".toList, "docker".toList, "hermesops".toList],
    ["opt".toList, "docker".toList, "hermesops".toList, "secrets".toList], by decide +kernel,
    by decide +kernel, .inl (by decide)⟩

end HermesOps.Sandbox
