import HermesOps.Properties.ProjectMutations
import HermesOps.Properties.RegistrySync
import HermesOps.Properties.TomlDocuments
import Mathlib.Data.List.DropRight

/-! The configuration that the Controller writes for a project, as the registry reads it. A request whose
    configuration has a lone surrogate never gets this far, since its hash is computed first. -/

namespace HermesOps.Registry

open Schemes ProjectCommands Toml
open Hermesfile (Value)
open Controller (quote strip isProjectId isSpace isLowerLetter isDigit maxIntDigits)

/-! ### Configurations -/

/-- The lines of a configuration. -/
def configLines (d : ConfigData) (maxParallelTasks : Nat) : List Line := [
  .number "schema_version" 1, .blank,
  .table "project", .text "id" d.projectId, .text "name" d.name, .flag "enabled" d.enabled,
  .text "policy" d.policyId, .blank,
  .table "paths", .text "repo" d.repoPath, .text "data" d.dataPath, .blank,
  .table "git", .text "default_branch" d.defaultBranch, .flag "allow_push" false,
  .flag "require_clean" true, .blank,
  .table "execution", .number "writer_concurrency" 1, .number "max_parallel_tasks" maxParallelTasks, .blank,
  .table "review", .flag "required" true]

set_option maxRecDepth 4000 in
theorem configText_lines (d : ConfigData) (n : Nat) :
    (configText d n).toList = write (configLines d n) := by
  unfold configText configLines
  repeat rw [write_cons]
  unfold Line.chars
  dsimp only
  repeat rw [String.toList_append]
  rw [show toString (n : Int) = toString n from rfl]
  generalize (quote d.projectId).toList = id
  generalize (quote d.name).toList = name
  generalize (if d.enabled = true then "true" else "false").toList = enabled
  generalize (quote d.policyId).toList = policy
  generalize (quote d.repoPath).toList = repo
  generalize (quote d.dataPath).toList = data
  generalize (quote d.defaultBranch).toList = branch
  generalize (toString n).toList = number
  repeat rw [List.append_assoc]
  rfl

def projectTable (d : ConfigData) : Hermesfile.Members := [
  ("id", .str d.projectId), ("name", .str d.name), ("enabled", .bool d.enabled), ("policy", .str d.policyId)]

def pathsTable (d : ConfigData) : Hermesfile.Members := [("repo", .str d.repoPath), ("data", .str d.dataPath)]

def gitTable (d : ConfigData) : Hermesfile.Members := [
  ("default_branch", .str d.defaultBranch), ("allow_push", .bool false), ("require_clean", .bool true)]

def executionTable (maxParallelTasks : Nat) : Hermesfile.Members := [
  ("writer_concurrency", .int 1), ("max_parallel_tasks", .int maxParallelTasks)]

def reviewTable : Hermesfile.Members := [("required", .bool true)]

/-- What a reader of TOML sees in a configuration. -/
def configData (d : ConfigData) (maxParallelTasks : Nat) : Hermesfile.Members := [
  ("schema_version", .int 1), ("project", .map (projectTable d)), ("paths", .map (pathsTable d)),
  ("git", .map (gitTable d)), ("execution", .map (executionTable maxParallelTasks)),
  ("review", .map reviewTable)]

/-- The texts of a configuration. -/
def texts (d : ConfigData) : List String :=
  [d.projectId, d.name, d.policyId, d.repoPath, d.dataPath, d.defaultBranch]

/-- TOML allows the character on one line. -/
def isLegible (text : String) : Bool := delete ∉ text.toList

theorem effect_configLines (d : ConfigData) (n : Nat) :
    (configLines d n).foldlM Line.effect ⟨[], none⟩ = .ok ⟨configData d n, some "review"⟩ := by
  have hhead : [.number "schema_version" 1, .blank].foldlM Line.effect ⟨[], none⟩ =
      .ok ⟨[("schema_version", .int 1)], none⟩ := rfl
  have hlines : configLines d n = [.number "schema_version" 1, .blank] ++
      ((.table "project" :: [.text "id" d.projectId, .text "name" d.name, .flag "enabled" d.enabled,
        .text "policy" d.policyId, .blank]) ++
      ((.table "paths" :: [.text "repo" d.repoPath, .text "data" d.dataPath, .blank]) ++
      ((.table "git" :: [.text "default_branch" d.defaultBranch, .flag "allow_push" false,
        .flag "require_clean" true, .blank]) ++
      ((.table "execution" :: [.number "writer_concurrency" 1, .number "max_parallel_tasks" n, .blank]) ++
      (.table "review" :: [.flag "required" true]))))) := rfl
  rw [hlines]
  refine (effect_append hhead).trans ?_
  refine (effect_append (effect_section rfl _ (by simp [Line.member, List.filterMap]) (by simp))).trans ?_
  refine (effect_append (effect_section rfl _ (by simp [Line.member, List.filterMap]) (by simp))).trans ?_
  refine (effect_append (effect_section rfl _ (by simp [Line.member, List.filterMap]) (by simp))).trans ?_
  refine (effect_append (effect_section rfl _ (by simp [Line.member, List.filterMap]) (by simp))).trans ?_
  exact effect_section rfl _ (by simp [Line.member, List.filterMap]) (by simp)

/-- A configuration is refused for one character, and otherwise read as it is meant. -/
theorem loads_configText (d : ConfigData) {n : Nat} (hn : n ≤ 64) :
    loads (configText d n) =
      if (texts d).all isLegible then .ok (configData d n) else .error .decode := by
  have hsmall : ∀ n ≤ 64, (Nat.toDigits 10 n).length ≤ maxIntDigits := by decide
  have hplain : ∀ l ∈ configLines d n, l.isPlain = true := by
    have hnumber : (Line.number "max_parallel_tasks" n).isPlain = true :=
      Bool.and_eq_true_iff.2 ⟨rfl, decide_eq_true (hsmall n hn)⟩
    simp only [configLines, List.forall_mem_cons]
    exact ⟨rfl, rfl, rfl, rfl, rfl, rfl, rfl, rfl, rfl, rfl, rfl, rfl, rfl, rfl, rfl, rfl, rfl, rfl, rfl,
      hnumber, rfl, rfl, rfl, fun _ h => by cases h⟩
  have hclean : (configLines d n).all Line.isClean = (texts d).all isLegible := by
    simp only [configLines, texts, List.all_cons, List.all_nil, Line.isClean, isLegible, Bool.true_and]
  rw [loads_lines (configText_lines d n) hplain, hclean, effect_configLines]
  rfl

variable {g : Site}

theorem demand_ok {test : Bool} {message : String} {u : Unit} :
    demand test message = .ok u ↔ test = true := by
  unfold demand
  split
  · rename_i h
    exact iff_of_true rfl h
  · rename_i h
    exact iff_of_false (fun heq => by cases heq) h

theorem requireString_ok {table : Hermesfile.Members} {key source text value : String}
    (h : table.get? key = some (.str text)) :
    requireString table key source = .ok value ↔ strip text ≠ "" ∧ strip text = value := by
  unfold requireString
  rw [h]
  dsimp only
  split
  · rename_i hempty
    exact iff_of_false (fun heq => by cases heq) fun hne => hne.1 hempty
  · rename_i hne
    exact ⟨fun heq => ⟨hne, Except.ok.inj heq⟩, fun heq => congrArg _ heq.2⟩

/-- The path lies under the root, once it is resolved. -/
structure Lies (g : Site) (path root : String) : Prop where
  named : strip path ≠ ""
  absolute : isAbsolute (g.resolve (strip path)) = true
  within : isWithin (g.resolve (strip path)) (g.resolve root) = true

/-- The registry accepts the values of the configuration. -/
structure Registrable (g : Site) (d : ConfigData) (maxParallelTasks : Nat) : Prop where
  projectId : isProjectId (strip d.projectId) = true
  name : strip d.name ≠ ""
  policyId : strip d.policyId ≠ "" ∧ g.policyExists (strip d.policyId) = true
  repo : Lies g d.repoPath (g.root ++ "/workspaces")
  data : Lies g d.dataPath (g.root ++ "/project-data")
  branch : strip d.defaultBranch ≠ ""
  tasks : 1 ≤ maxParallelTasks ∧ maxParallelTasks ≤ 64

/-- What the registry takes from a configuration. -/
def registered (g : Site) (d : ConfigData) (maxParallelTasks : Nat) (source hash : String) : Project where
  projectId := strip d.projectId
  displayName := strip d.name
  enabled := d.enabled
  policyId := strip d.policyId
  repoPath := g.resolve (strip d.repoPath)
  dataPath := g.resolve (strip d.dataPath)
  defaultBranch := strip d.defaultBranch
  requireClean := true
  writerConcurrency := 1
  maxParallelTasks := maxParallelTasks
  configSource := source
  configHash := hash

theorem validateProject_config {source hash : String} {n : Nat} {d : ConfigData} {x : Project} :
    validateProject g ⟨source, .ok (configData d n), hash⟩ = .ok x ↔
      Registrable g d n ∧ registered g d n source hash = x := by
  have hread : readToml ⟨source, .ok (configData d n), hash⟩ = .ok (configData d n) := rfl
  have hversion : ((configData d n).get? "schema_version").any equalsOne = true := rfl
  have hproject : requireTable (configData d n) "project" source = .ok (projectTable d) := rfl
  have hpaths : requireTable (configData d n) "paths" source = .ok (pathsTable d) := rfl
  have hgit : requireTable (configData d n) "git" source = .ok (gitTable d) := rfl
  have hexecution : requireTable (configData d n) "execution" source = .ok (executionTable n) := rfl
  have hreview : requireTable (configData d n) "review" source = .ok reviewTable := rfl
  have hid : ∀ v, requireString (projectTable d) "id" source = .ok v ↔ _ := fun _ => requireString_ok rfl
  have hname : ∀ v, requireString (projectTable d) "name" source = .ok v ↔ _ :=
    fun _ => requireString_ok rfl
  have hpolicy : ∀ v, requireString (projectTable d) "policy" source = .ok v ↔ _ :=
    fun _ => requireString_ok rfl
  have hrepo : ∀ v, requireString (pathsTable d) "repo" source = .ok v ↔ _ := fun _ => requireString_ok rfl
  have hdata : ∀ v, requireString (pathsTable d) "data" source = .ok v ↔ _ := fun _ => requireString_ok rfl
  have hbranch : ∀ v, requireString (gitTable d) "default_branch" source = .ok v ↔ _ :=
    fun _ => requireString_ok rfl
  have henabled : requireBoolean (projectTable d) "enabled" source = .ok d.enabled := rfl
  have hpush : requireBoolean (gitTable d) "allow_push" source = .ok false := rfl
  have hclean : requireBoolean (gitTable d) "require_clean" source = .ok true := rfl
  have hwriters : requireInteger (executionTable n) "writer_concurrency" source = .ok 1 := rfl
  have htasks : requireInteger (executionTable n) "max_parallel_tasks" source = .ok n := rfl
  have hrequired : requireBoolean reviewTable "required" source = .ok true := rfl
  unfold validateProject
  simp only [Except.bind_ok, hread, hversion, hproject, hpaths, hgit, hexecution, hreview, hid, hname,
    hpolicy, hrepo, hdata, hbranch, henabled, hpush, hclean, hwriters, htasks, hrequired, Except.ok.injEq,
    exists_eq_left', demand_ok, Except.pure_ok]
  constructor
  · rintro ⟨_, -, _, ⟨-, rfl⟩, _, hid, _, ⟨hname, rfl⟩, _, ⟨hpolicy, rfl⟩, _, hexists, _, ⟨hrepo, rfl⟩, _,
      ⟨hdata, rfl⟩, _, hrepoAbsolute, _, hdataAbsolute, _, hrepoWithin, _, hdataWithin, _, ⟨hbranch, rfl⟩,
      _, -, _, -, _, htasks, _, -, rfl⟩
    have htasks := of_decide_eq_true htasks
    exact ⟨⟨hid, hname, ⟨hpolicy, hexists⟩, ⟨hrepo, hrepoAbsolute, hrepoWithin⟩,
      ⟨hdata, hdataAbsolute, hdataWithin⟩, hbranch, by omega⟩, rfl⟩
  · rintro ⟨⟨hid, hname, ⟨hpolicy, hexists⟩, hrepo, hdata, hbranch, htasks⟩, rfl⟩
    have hne : strip d.projectId ≠ "" := by
      intro hempty
      rw [hempty] at hid
      cases hid
    exact ⟨(), trivial, _, ⟨hne, rfl⟩, (), hid, _, ⟨hname, rfl⟩, _, ⟨hpolicy, rfl⟩, (), hexists, _,
      ⟨hrepo.named, rfl⟩, _, ⟨hdata.named, rfl⟩, (), hrepo.absolute, (), hdata.absolute, (), hrepo.within, (),
      hdata.within, _, ⟨hbranch, rfl⟩, (), rfl, (), rfl, (), decide_eq_true (by omega), (), trivial, rfl⟩

/-! ### Writing -/

variable {s : ProjectCommands.Site} {d : ConfigData} {policy : Controller.Members}

/-- The policy lets `_render_config` write a configuration with so many parallel tasks. -/
structure WithinLimits (s : ProjectCommands.Site) (policy : Controller.Members) (maxParallelTasks : Nat) :
    Prop where
  writers : s.intOf (((subtable policy "execution").get? "writer_concurrency").getD (.int 1)) = some 1
  tasks : s.intOf (((subtable policy "execution").get? "max_parallel_tasks").getD (.int 3)) =
    some (maxParallelTasks : Int)
  bounds : 1 ≤ maxParallelTasks ∧ maxParallelTasks ≤ 64
  review : truth (((subtable policy "review").get? "required").getD (.bool true)) = true

/-- The bytes of a configuration: what is always there, the six texts as JSON, the flag and the number. -/
def configSize (d : ConfigData) (maxParallelTasks : Nat) : Nat :=
  239 + ((texts d).map fun text => (quote text).utf8ByteSize).sum + (if d.enabled then 4 else 5) +
    (if maxParallelTasks < 10 then 1 else 2)

theorem configText_size (d : ConfigData) {n : Nat} (hn : n ≤ 64) :
    (configText d n).utf8ByteSize = configSize d n := by
  have hfixed : "schema_version = 1\n\n[project]\nid = ".utf8ByteSize + "\nname = ".utf8ByteSize +
      "\nenabled = ".utf8ByteSize + "\npolicy = ".utf8ByteSize + "\n\n[paths]\nrepo = ".utf8ByteSize +
      "\ndata = ".utf8ByteSize + "\n\n[git]\ndefault_branch = ".utf8ByteSize +
      "\nallow_push = false\nrequire_clean = true\n\n[execution]\nwriter_concurrency = 1\n".utf8ByteSize +
      "max_parallel_tasks = ".utf8ByteSize + "\n\n[review]\nrequired = true\n".utf8ByteSize = 239 := rfl
  have hdigits : ∀ n : Nat, n ≤ 64 → (toString (n : Int)).utf8ByteSize = if n < 10 then 1 else 2 := by
    decide
  have henabled : (if d.enabled then "true" else "false" : String).utf8ByteSize =
      if d.enabled then 4 else 5 := by
    cases d.enabled <;> rfl
  unfold configText configSize texts
  repeat rw [String.utf8ByteSize_append]
  rw [hdigits n hn, henabled]
  simp only [List.map_cons, List.map_nil, List.sum_cons, List.sum_nil]
  omega

theorem renderConfig_ok {text : String} : s.renderConfig d policy = .ok text ↔
    ∃ n : Nat, WithinLimits s policy n ∧ configSize d n ≤ maxConfigBytes ∧ configText d n = text := by
  unfold ProjectCommands.Site.renderConfig
  dsimp only
  constructor
  · intro h
    split at h
    · rename_i writers tasks hwriters htasks
      split at h
      · cases h
      · rename_i hlimits
        simp only [not_or, not_not] at hlimits
        obtain ⟨rfl, hbounds, hreview⟩ := hlimits
        obtain ⟨n, rfl⟩ := Int.eq_ofNat_of_zero_le (show 0 ≤ tasks by omega)
        split at h
        · cases h
        · rename_i hsize
          rw [configText_size d (by omega)] at hsize
          exact ⟨n, ⟨hwriters, htasks, by omega, hreview⟩, Nat.not_lt.1 hsize, Except.ok.inj h⟩
    · cases h
  · rintro ⟨n, ⟨hwriters, htasks, hbounds, hreview⟩, hsize, rfl⟩
    rw [hwriters, htasks]
    dsimp only
    rw [if_neg, if_neg]
    · rw [configText_size d hbounds.2]
      exact Nat.not_lt.2 hsize
    · simp only [not_or, not_not]
      exact ⟨trivial, by omega, hreview⟩

/-! ### Texts of a request -/

theorem strip_self {text : String} (h : ∀ c ∈ text.toList, isSpace c = false) : strip text = text := by
  have hkeep : ∀ cs : List Char, (∀ c ∈ cs, isSpace c = false) → cs.dropWhile isSpace = cs := by
    intro cs hcs
    cases cs with
    | nil => rfl
    | cons c cs => rw [List.dropWhile_cons_of_neg (by simp [hcs c List.mem_cons_self])]
  unfold strip
  rw [hkeep _ h, hkeep _ fun c hc => h c (List.mem_reverse.1 hc), List.reverse_reverse, String.ofList_toList]

theorem strip_strip (text : String) : strip (strip text) = strip text := by
  have hstrip : ∀ text : String, strip text =
      String.ofList ((text.toList.dropWhile isSpace).rdropWhile isSpace) := fun _ => rfl
  have hsplit : ∀ cs : List Char, cs.rdropWhile isSpace ++ (cs.reverse.takeWhile isSpace).reverse = cs := by
    intro cs
    rw [List.rdropWhile, ← List.reverse_append, List.takeWhile_append_dropWhile, List.reverse_reverse]
  have hfront : ((text.toList.dropWhile isSpace).rdropWhile isSpace).dropWhile
      isSpace = (text.toList.dropWhile isSpace).rdropWhile isSpace := by
    refine List.dropWhile_eq_self_iff.2 fun hpos => ?_
    have hhead := List.dropWhile_eq_self_iff.1
      (List.dropWhile_idempotent isSpace (l := text.toList))
    rw [← hsplit (text.toList.dropWhile isSpace)] at hhead
    have hnot := hhead (by rw [List.length_append]; omega)
    rwa [List.getElem_append_left hpos] at hnot
  rw [hstrip (strip text), hstrip text, String.toList_ofList, hfront, List.rdropWhile_idempotent]

/-- The text is read back as it is written, and is not empty. -/
structure IsSettled (text : String) : Prop where
  stripped : strip text = text
  named : text ≠ ""
  legible : isLegible text = true

theorem publicText_settled {field text : String} {maximum : Nat} {value : Controller.Json}
    (h : publicText field maximum value = .ok text) : IsSettled text := by
  unfold publicText at h
  split at h
  · dsimp only at h
    split at h
    · cases h
    · rename_i htext
      cases h
      simp only [not_or, Bool.not_eq_true] at htext
      refine ⟨strip_strip _, htext.1, decide_eq_true fun hmem => ?_⟩
      have hany := List.any_eq_false.1 htext.2.2 _ hmem
      exact hany (by decide)
  · cases h

theorem validateBranch_settled {branch : String} {value : Controller.Json}
    (h : validateBranch value = .ok branch) : IsSettled branch := by
  obtain ⟨text, htext, h⟩ := Except.bind_ok.1 h
  split at h
  · cases h
  · obtain rfl := Except.pure_ok.1 h
    exact publicText_settled htext

/-- A text of small letters, digits and hyphens. -/
theorem settled_of_slug {text : String} (hne : text ≠ "")
    (h : text.toList.all (fun ch => isLowerLetter ch || isDigit ch || ch = '-') = true) :
    IsSettled text := by
  have hnumbers : ∀ n < 123, 97 ≤ n ∨ 48 ≤ n ∧ n ≤ 57 ∨ n = 45 →
      isSpace (Char.ofNat n) = false ∧ Char.ofNat n ≠ delete := by decide
  have hchars : ∀ c ∈ text.toList, isSpace c = false ∧ c ≠ delete := by
    intro c hc
    have hslug := List.all_eq_true.1 h c hc
    simp only [isLowerLetter, isDigit, Bool.or_eq_true, decide_eq_true_eq] at hslug
    have hrange : 97 ≤ c.toNat ∧ c.toNat ≤ 122 ∨ 48 ≤ c.toNat ∧ c.toNat ≤ 57 ∨ c.toNat = 45 := by
      rcases hslug with (hletter | hdigit) | rfl
      · exact .inl hletter
      · exact .inr (.inl hdigit)
      · exact .inr (.inr rfl)
    have hchar := hnumbers c.toNat (by omega) (by omega)
    rwa [Char.ofNat_toNat] at hchar
  exact ⟨strip_self fun c hc => (hchars c hc).1, hne, decide_eq_true fun hmem => (hchars _ hmem).2 rfl⟩

theorem projectId_settled {id : String} (h : isProjectId id = true) : IsSettled id := by
  obtain ⟨hlow, -, -, hchars⟩ := of_decide_eq_true h
  refine settled_of_slug ?_ hchars
  rintro rfl
  cases hlow

theorem policyId_settled {id : String} (h : isPolicyId id = true) : IsSettled id := by
  obtain ⟨hhead, -, hchars⟩ := of_decide_eq_true h
  refine settled_of_slug ?_ hchars
  rintro rfl
  cases hhead

/-! ### Requests -/

/-- The name of `update_project`: the one of the body, or else that of the row. -/
def chosenName (r : ProjectRequest) (row : ProjectRow) : Controller.Result String :=
  match r.base.body.get? "name" with
  | some value => publicText "project_name" maxNameLength value
  | none => .ok row.displayName

/-- The configurations that the two requests hand to `_render_config`, with their policies. -/
inductive Accepted (s : ProjectCommands.Site) : ConfigData → Controller.Members → Prop
  | created {roots : Roots} {body : Controller.Members} {d : ConfigData} {policy : Controller.Members}
      (h : checkCreateBody s roots body = .ok (d, policy)) : Accepted s d policy
  | updated {r : ProjectRequest} {c : Content} {key name policyId : String} {row : ProjectRow}
      {policy : Controller.Members} (arguments : checkUpdateArguments r = .ok (key, row.resourceRevision))
      (found : c.projects.get? r.projectId = some row) (unarchived : row.archived = false)
      (chosen : chosenName r row = .ok name)
      (allowed : s.policy ((r.base.body.get? "policy_id").getD (.str row.policyId)) =
        .ok (policyId, policy)) :
      Accepted s ⟨r.projectId, name, row.enabled, policyId, s.pathText row.repoPath,
        s.pathText row.dataPath, row.defaultBranch⟩ policy

theorem policy_id {value : Controller.Json} {id : String} (h : s.policy value = .ok (id, policy)) :
    isPolicyId id = true := by
  obtain rfl := policy_ok h
  rw [ProjectCommands.Site.policy] at h
  split at h
  · assumption
  · cases h

/-- What is checked of the identifiers, and of the texts of a new project. -/
theorem checkCreateBody_ok {roots : Roots} {body : Controller.Members}
    (h : checkCreateBody s roots body = .ok (d, policy)) :
    isProjectId d.projectId = true ∧ isPolicyId d.policyId = true ∧ IsSettled d.name ∧
      IsSettled d.defaultBranch ∧ d.enabled = false := by
  obtain ⟨_, -, h⟩ := Except.bind_ok.1 h
  obtain ⟨projectId, hslug, h⟩ := Except.bind_ok.1 h
  obtain ⟨name, hname, h⟩ := Except.bind_ok.1 h
  obtain ⟨repository, -, h⟩ := Except.bind_ok.1 h
  obtain ⟨mode, -, h⟩ := Except.bind_ok.1 h
  obtain ⟨branch, hbranch, h⟩ := Except.bind_ok.1 h
  obtain ⟨_, -, h⟩ := Except.bind_ok.1 h
  obtain ⟨⟨policyId, _⟩, hpolicy, h⟩ := Except.bind_ok.1 h
  rw [controller_ok] at hslug hname hbranch hpolicy
  cases Except.pure_ok.1 h
  refine ⟨?_, policy_id hpolicy, publicText_settled hname, validateBranch_settled hbranch, rfl⟩
  unfold checkSlug at hslug
  split at hslug
  · unfold validateSlug at hslug
    split at hslug
    · cases hslug
      assumption
    · cases hslug
  · cases hslug

theorem Accepted.identified (h : Accepted s d policy) :
    isProjectId d.projectId = true ∧ isPolicyId d.policyId = true := by
  cases h with
  | created h =>
    obtain ⟨hid, hpolicy, -⟩ := checkCreateBody_ok h
    exact ⟨hid, hpolicy⟩
  | updated arguments found unarchived chosen allowed =>
    exact ⟨(checkUpdateArguments_ok arguments).2.1, policy_id allowed⟩

/-- The configuration that an update writes. -/
def updateConfig (s : ProjectCommands.Site) (r : ProjectRequest) (u : UpdateData) : ConfigData :=
  ⟨r.projectId, u.name, u.row.enabled, u.policyId, s.pathText u.row.repoPath, s.pathText u.row.dataPath,
    u.row.defaultBranch⟩

theorem accepted_of_update {r : ProjectRequest} {c : Content} {key : String} {expected : Nat}
    {u : UpdateData} (harguments : checkUpdateArguments r = .ok (key, expected)) (h : checkUpdate s r expected c = .ok u) :
    ∃ policy, Accepted s (updateConfig s r u) policy ∧
      s.renderConfig (updateConfig s r u) policy = .ok u.config := by
  obtain ⟨row, hrow, h⟩ := Except.bind_ok.1 h
  obtain ⟨_, hrevision, h⟩ := Except.bind_ok.1 h
  obtain ⟨_, harchived, h⟩ := Except.bind_ok.1 h
  obtain ⟨name, hname, h⟩ := Except.bind_ok.1 h
  obtain ⟨⟨policyId, policy⟩, hpolicy, h⟩ := Except.bind_ok.1 h
  obtain ⟨profile, -, h⟩ := Except.bind_ok.1 h
  obtain ⟨_, -, h⟩ := Except.bind_ok.1 h
  obtain ⟨config, hconfig, h⟩ := Except.bind_ok.1 h
  obtain rfl := Except.pure_ok.1 h
  rw [controller_ok] at hrow hrevision harchived hname hpolicy
  obtain rfl : row.resourceRevision = expected := of_decide_eq_true (Controller.require_ok.1 hrevision)
  have hunarchived : row.archived = false := by simpa using Controller.require_ok.1 harchived
  exact ⟨policy, .updated harguments (projectRow_ok hrow) hunarchived hname hpolicy, hconfig⟩

/-! ### The round trip -/

/-- The values of the configuration. -/
structure Restored (d : ConfigData) (x : Project) : Prop where
  projectId : x.projectId = d.projectId
  displayName : x.displayName = d.name
  enabled : x.enabled = d.enabled
  policyId : x.policyId = d.policyId
  defaultBranch : x.defaultBranch = d.defaultBranch
  repoPath : x.repoPath = d.repoPath
  dataPath : x.dataPath = d.dataPath

/-- The row as the Controller leaves it when it has written the file. -/
structure Written (source hash : String) (d : ConfigData) (row : ProjectRow) : Prop where
  displayName : row.displayName = d.name
  enabled : row.enabled = d.enabled
  policyId : row.policyId = d.policyId
  defaultBranch : row.defaultBranch = d.defaultBranch
  repoPath : row.repoPath = d.repoPath
  dataPath : row.dataPath = d.dataPath
  configSource : row.configSource = source
  configHash : row.configHash = hash
  unarchived : row.archived = false

/-- A sync that reads the file leaves the row as it is. -/
def Leaves (g : Site) (file : ProjectFile) (projectId : String) (row : ProjectRow) : Prop :=
  ∀ files projects e now t t', file ∈ files → discoverProjects g files = .ok projects →
    commandSync e projects now t = some t' → t.get? projectId = some row → t'.get? projectId = some row

/-- The configuration is written, `tomllib` and the registry read what was written, and no later sync
    changes the row. -/
def RoundTrips (s : ProjectCommands.Site) (g : Site) (source : String) (d : ConfigData)
    (policy : Controller.Members) : Prop :=
  ∃ text data x, s.renderConfig d policy = .ok text ∧ loads text = .ok data ∧
    validateProject g ⟨source, .ok data, s.hashing.sha256 text⟩ = .ok x ∧ Restored d x ∧
    ∀ row, Written source (s.hashing.sha256 text) d row →
      Leaves g ⟨source, .ok data, s.hashing.sha256 text⟩ d.projectId row

/-- A path that the registry takes as it is. -/
structure IsSettledPath (g : Site) (path root : String) : Prop where
  named : strip path ≠ ""
  resolved : g.resolve (strip path) = path
  absolute : isAbsolute path = true
  within : isWithin path (g.resolve root) = true

/-- What the two sides have to agree on. -/
structure Agreeable (s : ProjectCommands.Site) (g : Site) (d : ConfigData) (policy : Controller.Members)
    (maxParallelTasks : Nat) : Prop where
  limits : WithinLimits s policy maxParallelTasks
  size : configSize d maxParallelTasks ≤ maxConfigBytes
  name : IsSettled d.name
  branch : IsSettled d.defaultBranch
  policy : g.policyExists d.policyId = true
  repo : IsSettledPath g d.repoPath (g.root ++ "/workspaces")
  data : IsSettledPath g d.dataPath (g.root ++ "/project-data")
  paths : isLegible d.repoPath = true ∧ isLegible d.dataPath = true

theorem discoverFrom_mem {files : List ProjectFile} {found projects : List Project}
    (h : discoverFrom g files found = .ok projects) :
    (∀ x ∈ found, x ∈ projects) ∧ ∀ file ∈ files, ∃ x ∈ projects, validateProject g file = .ok x := by
  induction files generalizing found with
  | nil =>
    obtain rfl := Except.ok.inj h
    exact ⟨fun _ hx => hx, fun _ hfile => by cases hfile⟩
  | cons file files ih =>
    rw [discoverFrom] at h
    obtain ⟨x, hx, h⟩ := Except.bind_ok.1 h
    obtain ⟨_, -, h⟩ := Except.bind_ok.1 h
    obtain ⟨_, -, h⟩ := Except.bind_ok.1 h
    obtain ⟨hfound, hfiles⟩ := ih h
    refine ⟨fun y hy => hfound y (List.mem_append_left _ hy), List.forall_mem_cons.2 ⟨?_, hfiles⟩⟩
    exact ⟨x, hfound x (List.mem_append_right _ List.mem_cons_self), hx⟩

theorem leaves_of_carries {file : ProjectFile} {x : Project} {row : ProjectRow}
    (hx : validateProject g file = .ok x) (h : Carries x row) : Leaves g file x.projectId row := by
  intro files projects e now t t' hfile hfiles hsync hrow
  obtain ⟨y, hy, hvalid⟩ := (discoverFrom_mem hfiles).2 file hfile
  obtain rfl := Except.ok.inj (hx.symm.trans hvalid)
  rw [commandSync_listed (discovered_nodup hfiles).1 hsync hy, hrow]
  exact congrArg some (updated_self h now)

theorem forall_texts {P : String → Prop} : (∀ text ∈ texts d, P text) ↔
    P d.projectId ∧ P d.name ∧ P d.policyId ∧ P d.repoPath ∧ P d.dataPath ∧ P d.defaultBranch := by
  simp [texts]

/-- What the registry takes from a configuration whose texts it takes as they are. -/
theorem registered_restored {n : Nat} {source hash : String} (h : Accepted s d policy)
    (hagree : Agreeable s g d policy n) : Restored d (registered g d n source hash) := by
  obtain ⟨hid, hpolicy⟩ := h.identified
  exact ⟨(projectId_settled hid).stripped, hagree.name.stripped, rfl, (policyId_settled hpolicy).stripped,
    hagree.branch.stripped, hagree.repo.resolved, hagree.data.resolved⟩

theorem Agreeable.registrable {n : Nat} (h : Accepted s d policy) (hagree : Agreeable s g d policy n) :
    Registrable g d n := by
  obtain ⟨hid, hpolicy⟩ := h.identified
  have hlies : ∀ {path root}, IsSettledPath g path root → Lies g path root := by
    intro path root hpath
    refine ⟨hpath.named, ?_, ?_⟩
    · rw [hpath.resolved]
      exact hpath.absolute
    · rw [hpath.resolved]
      exact hpath.within
  refine ⟨?_, ?_, ⟨?_, ?_⟩, hlies hagree.repo, hlies hagree.data, ?_, hagree.limits.bounds⟩
  · rw [(projectId_settled hid).stripped]
    exact hid
  · rw [hagree.name.stripped]
    exact hagree.name.named
  · rw [(policyId_settled hpolicy).stripped]
    exact (policyId_settled hpolicy).named
  · rw [(policyId_settled hpolicy).stripped]
    exact hagree.policy
  · rw [hagree.branch.stripped]
    exact hagree.branch.named

theorem Agreeable.legible {n : Nat} (h : Accepted s d policy) (hagree : Agreeable s g d policy n) :
    (texts d).all isLegible = true := by
  obtain ⟨hid, hpolicy⟩ := h.identified
  exact List.all_eq_true.2 (forall_texts.2 ⟨(projectId_settled hid).legible, hagree.name.legible,
    (policyId_settled hpolicy).legible, hagree.paths.1, hagree.paths.2, hagree.branch.legible⟩)

theorem written_carries {n : Nat} {source hash : String} {row : ProjectRow}
    (hrestored : Restored d (registered g d n source hash)) (h : Written source hash d row) :
    Carries (registered g d n source hash) row := by
  refine ⟨h.displayName.trans hrestored.displayName.symm, h.repoPath.trans hrestored.repoPath.symm,
    h.dataPath.trans hrestored.dataPath.symm, h.policyId.trans hrestored.policyId.symm, ?_, h.configSource,
    h.configHash, h.defaultBranch.trans hrestored.defaultBranch.symm⟩
  rw [h.enabled, Project.enabledFor, h.unarchived]
  rfl

/-- The texts of a new project are read back; what remains are the policy, the size and the paths. -/
theorem created_agreeable_iff {roots : Roots} {body : Controller.Members} {n : Nat}
    (h : checkCreateBody s roots body = .ok (d, policy)) :
    Agreeable s g d policy n ↔ WithinLimits s policy n ∧ configSize d n ≤ maxConfigBytes ∧
      g.policyExists d.policyId = true ∧ IsSettledPath g d.repoPath (g.root ++ "/workspaces") ∧
      IsSettledPath g d.dataPath (g.root ++ "/project-data") ∧
      isLegible d.repoPath = true ∧ isLegible d.dataPath = true := by
  obtain ⟨-, -, hname, hbranch, -⟩ := checkCreateBody_ok h
  constructor
  · intro hagree
    exact ⟨hagree.limits, hagree.size, hagree.policy, hagree.repo, hagree.data, hagree.paths⟩
  · rintro ⟨hlimits, hsize, hpolicy, hrepo, hdata, hpaths⟩
    exact ⟨hlimits, hsize, hname, hbranch, hpolicy, hrepo, hdata, hpaths⟩

/-- A configuration that is accepted makes the round trip exactly when the policy is within the limits, the
    file is small enough, and the registry and TOML take every text as it is. -/
theorem configuration_round_trips_iff (g : Site) (source : String) (h : Accepted s d policy) :
    RoundTrips s g source d policy ↔ ∃ n, Agreeable s g d policy n := by
  constructor
  · rintro ⟨text, data, x, hrender, hload, hvalid, hrestored, -⟩
    obtain ⟨n, hlimits, hsize, rfl⟩ := renderConfig_ok.1 hrender
    rw [loads_configText d hlimits.bounds.2] at hload
    split at hload
    · rename_i hlegible
      obtain rfl := Except.ok.inj hload
      obtain ⟨hregistrable, rfl⟩ := validateProject_config.1 hvalid
      obtain ⟨-, hname, -, hrepo, hdata, hbranch⟩ := forall_texts.1 (List.all_eq_true.1 hlegible)
      have hpath : ∀ {path root}, Lies g path root → g.resolve (strip path) = path →
          IsSettledPath g path root := fun hlies hsame => ⟨hlies.named, hsame, hsame ▸ hlies.absolute, hsame ▸ hlies.within⟩
      refine ⟨n, hlimits, hsize, ⟨hrestored.displayName, ?_, hname⟩,
        ⟨hrestored.defaultBranch, ?_, hbranch⟩, ?_, hpath hregistrable.repo hrestored.repoPath,
        hpath hregistrable.data hrestored.dataPath, hrepo, hdata⟩
      · rw [← show strip d.name = d.name from hrestored.displayName]
        exact hregistrable.name
      · rw [← show strip d.defaultBranch = d.defaultBranch from hrestored.defaultBranch]
        exact hregistrable.branch
      · rw [← show strip d.policyId = d.policyId from hrestored.policyId]
        exact hregistrable.policyId.2
    · cases hload
  · rintro ⟨n, hagree⟩
    have hload := loads_configText d hagree.limits.bounds.2
    rw [if_pos (hagree.legible h)] at hload
    have hvalid : ∀ hash, validateProject g ⟨source, .ok (configData d n), hash⟩ =
        .ok (registered g d n source hash) :=
      fun hash => validateProject_config.2 ⟨hagree.registrable h, rfl⟩
    have hrestored : ∀ hash, Restored d (registered g d n source hash) :=
      fun _ => registered_restored h hagree
    refine ⟨configText d n, configData d n, _, renderConfig_ok.2 ⟨n, hagree.limits, hagree.size, rfl⟩,
      hload, hvalid _, hrestored _, fun row hrow => ?_⟩
    have hleaves := leaves_of_carries (hvalid _) (written_carries (hrestored _) hrow)
    rwa [(hrestored _).projectId] at hleaves

/-! ### A project with U+007F in its name -/

/-- The registry beside `demoSite`. -/
def demoRegistry : Site where
  root := "/srv/hermesops"
  policyExists policyId := policyId = "standard"
  resolve text := text
  repr text := "'" ++ text ++ "'"

def demoPolicy : Controller.Members := [("policy_id", .str "standard"), ("schema_version", .int 1)]

/-- `PATCH` with the policy that the project has. -/
def policyRequest : ProjectRequest :=
  { renameRequest "" with
    base := { (renameRequest "").base with body := [("policy_id", .str "standard")] } }

/-- The project under a name that the registry has stored. -/
def namedContent (name : String) : Content :=
  { demoLedger.content with
    projects := ⟨[("demo", { demoRow with displayName := name })], List.nodup_singleton _⟩ }

theorem demo_accepted (name : String) : Accepted demoSite (demoConfig name) demoPolicy := by
  have harguments : checkUpdateArguments policyRequest = .ok ("demo-key-1", 1) := rfl
  have hfound : (namedContent name).projects.get? policyRequest.projectId =
      some { demoRow with displayName := name } := rfl
  exact .updated harguments hfound rfl rfl rfl

theorem demo_agreeable {name : String} (hname : IsSettled name)
    (hsize : configSize (demoConfig name) 3 ≤ maxConfigBytes) :
    Agreeable demoSite demoRegistry (demoConfig name) demoPolicy 3 := by
  have hbranch : IsSettled "main" := ⟨by decide, by decide, by decide⟩
  have hrepo : IsSettledPath demoRegistry "/srv/hermesops/workspaces/demo" "/srv/hermesops/workspaces" :=
    ⟨by decide, by decide, by decide, by decide⟩
  have hdata : IsSettledPath demoRegistry "/srv/hermesops/project-data/demo"
      "/srv/hermesops/project-data" := ⟨by decide, by decide, by decide, by decide⟩
  have hlegible : isLegible "/srv/hermesops/workspaces/demo" = true ∧
      isLegible "/srv/hermesops/project-data/demo" = true := by decide
  exact ⟨⟨rfl, rfl, by decide, rfl⟩, hsize, hname, hbranch, rfl, hrepo, hdata, hlegible⟩

theorem demo_round_trips :
    RoundTrips demoSite demoRegistry demoRow.configSource (demoConfig "Demo") demoPolicy :=
  (configuration_round_trips_iff demoRegistry demoRow.configSource (demo_accepted "Demo")).2
    ⟨3, demo_agreeable ⟨by decide, by decide, by decide⟩ (by decide)⟩

set_option maxRecDepth 20000 in
/-- A name with U+007F, which the registry has taken from a file, goes through an update into a file that
    `tomllib` refuses. -/
theorem delete_unreadable :
    Registrable demoRegistry (demoConfig "a\x7fb") 3 ∧
      (∃ u, checkUpdateArguments policyRequest = .ok ("demo-key-1", 1) ∧
        checkUpdate demoSite policyRequest 1 (namedContent "a\x7fb") = .ok u ∧
        loads u.config = .error .decode) ∧
      ¬RoundTrips demoSite demoRegistry demoRow.configSource (demoConfig "a\x7fb") demoPolicy := by
  have hunread : loads (configText (demoConfig "a\x7fb") (3 : Nat)) = .error .decode := by
    rw [loads_configText _ (by decide)]
    rfl
  refine ⟨?_, ⟨_, rfl, rfl, hunread⟩, ?_⟩
  · exact ⟨by decide, by decide, by decide, ⟨by decide, by decide, by decide⟩,
      ⟨by decide, by decide, by decide⟩, by decide, by decide⟩
  · rintro ⟨text, data, x, hrender, hload, -⟩
    obtain rfl : configText (demoConfig "a\x7fb") (3 : Nat) = text := Except.ok.inj hrender
    cases hunread.symm.trans hload

end HermesOps.Registry
