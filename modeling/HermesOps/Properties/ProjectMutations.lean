import HermesOps.Controller.ProjectCommands

/-! Which changes of a project the table accepts. An update of a row whose eleven columns stay as they
    are must keep the revision, any other must advance it by one. `command_project` compares before it
    writes; `update_project` always writes the next revision, so that a request which restates the row
    is refused by the trigger. -/

namespace HermesOps.ProjectCommands

open Schemes Controller.Commands
open Controller (dataKeys dataTexts lenient validateData_lenient Json Result Keys Members
  IdempotencyRow strip isProjectId validateIdempotencyKey TextRules validateData isText)

variable {s : Site} {r : ProjectRequest} {c : Content} {t : Ledger Content} {row : ProjectRow}

/-! ### The triggers -/

/-- The next revision passes when one of the columns changes, the same revision when none does. -/
theorem guards_iff {old new : ProjectRow} :
    revisionGuard old new = true ∧ stableGuard old new = true ↔
      new.resourceRevision = old.resourceRevision + if resourceChanged old new then 1 else 0 := by
  unfold revisionGuard stableGuard
  cases resourceChanged old new <;> simp

theorem updateProject_some {f : ProjectRow → ProjectRow} (hrow : c.projects.get? r.projectId = some row)
    (hguards : (f row).resourceRevision =
      row.resourceRevision + if resourceChanged row (f row) then 1 else 0)
    (hcheck : (f row).check = true) :
    c.updateProject r.projectId f =
      some { c with projects := c.projects.updateAt r.projectId f } := by
  simp only [Content.updateProject, hrow]
  rw [if_pos ⟨(guards_iff.2 hguards).1, (guards_iff.2 hguards).2, hcheck⟩]

theorem updateProject_none {f : ProjectRow → ProjectRow} (hrow : c.projects.get? r.projectId = some row)
    (hguards : (f row).resourceRevision ≠
      row.resourceRevision + if resourceChanged row (f row) then 1 else 0) :
    c.updateProject r.projectId f = none := by
  simp only [Content.updateProject, hrow]
  rw [if_neg fun h => hguards (guards_iff.1 ⟨h.1, h.2.1⟩)]

/-! ### What the checks establish -/

theorem controller_ok {α : Type} {x : Result α} {a : α} : controller x = .ok a ↔ x = .ok a := by
  cases x <;> simp [controller, Except.mapError]

theorem projectRow_ok {projectId : String} (h : c.projectRow projectId = .ok row) :
    c.projects.get? projectId = some row := by
  unfold Content.projectRow at h
  split at h
  · rename_i hrow
    cases h
    exact hrow
  · cases h

theorem policy_ok {value : Json} {id : String} {data : Members} (h : s.policy value = .ok (id, data)) :
    value = .str id := by
  unfold Site.policy at h
  split at h
  · split at h
    · split at h
      · cases h
      · split at h
        · split at h
          · cases h
            rfl
          · cases h
        · cases h
    · cases h
  · cases h

theorem publicText_ok {field text : String} {maximum : Nat} {value : Json}
    (h : publicText field maximum value = .ok text) : ∃ raw, value = .str raw ∧ text = strip raw := by
  unfold publicText at h
  split at h
  · dsimp only at h
    split at h
    · cases h
    · cases h
      exact ⟨_, rfl, rfl⟩
  · cases h

/-- The JSON value of a profile's name or of none. -/
def profileValue : Option String → Json := Json.optional

theorem sandboxProfile_ok {value : Json} {profile : Option String}
    (h : c.sandboxProfile value = .ok profile) :
    value = profileValue profile ∧ profile.all (fun id => 1 ≤ id.length ∧ id.length ≤ 63) = true := by
  have hspans : Hermesfile.namePattern.Spans 1 63 := by
    have h := (Regex.spans_set (p := Hermesfile.lowerAlnum)).seq (((Regex.spans_set
      (p := Regex.chars [('a', 'z'), ('0', '9')] "-")).upTo 61).seq
        (Regex.spans_set (p := Hermesfile.lowerAlnum))).optional
    exact h
  unfold Content.sandboxProfile at h
  split at h
  · cases h
    exact ⟨rfl, rfl⟩
  · split at h
    · rename_i hname
      split at h
      · cases h
      · split at h
        · cases h
        · cases h
          exact ⟨rfl, decide_eq_true (hspans.length hname)⟩
    · cases h
  · cases h

/-- What the transaction of an update has checked. -/
structure UpdateChecked (s : Site) (r : ProjectRequest) (expected : Nat) (c : Content) (u : UpdateData)
    (policy : Members) : Prop where
  found : c.projects.get? r.projectId = some u.row
  revision : u.row.resourceRevision = expected
  name : match r.base.body.get? "name" with
    | some value => ∃ raw, value = .str raw ∧ u.name = strip raw
    | none => u.name = u.row.displayName
  policyId : (r.base.body.get? "policy_id").getD (.str u.row.policyId) = .str u.policyId
  policyFile : s.policy (.str u.policyId) = .ok (u.policyId, policy)
  profile : match r.base.body.get? "sandbox_profile_id" with
    | some value => value = profileValue u.sandboxProfile ∧
        u.sandboxProfile.all (fun id => 1 ≤ id.length ∧ id.length ≤ 63) = true
    | none => u.sandboxProfile = u.row.sandboxProfileId
  config : s.renderConfig ⟨r.projectId, u.name, u.row.enabled, u.policyId, s.pathText u.row.repoPath,
    s.pathText u.row.dataPath, u.row.defaultBranch⟩ policy = .ok u.config

theorem checkUpdate_ok {expected : Nat} {u : UpdateData} (h : checkUpdate s r expected c = .ok u) :
    ∃ policy, UpdateChecked s r expected c u policy := by
  obtain ⟨row, hrow, h⟩ := Except.bind_ok.1 h
  obtain ⟨_, hrevision, h⟩ := Except.bind_ok.1 h
  obtain ⟨_, -, h⟩ := Except.bind_ok.1 h
  obtain ⟨name, hname, h⟩ := Except.bind_ok.1 h
  obtain ⟨⟨policyId, policy⟩, hpolicy, h⟩ := Except.bind_ok.1 h
  obtain ⟨profile, hprofile, h⟩ := Except.bind_ok.1 h
  obtain ⟨_, -, h⟩ := Except.bind_ok.1 h
  obtain ⟨config, hconfig, h⟩ := Except.bind_ok.1 h
  obtain rfl := Except.pure_ok.1 h
  rw [controller_ok] at hrow hrevision hname hpolicy hprofile
  have hid := policy_ok hpolicy
  refine ⟨policy, projectRow_ok hrow, of_decide_eq_true (Controller.require_ok.1 hrevision), ?_, hid,
    by rw [← hid]; exact hpolicy, ?_, hconfig⟩
  · cases hbody : r.base.body.get? "name" with
    | none =>
      rw [hbody] at hname
      cases hname
      rfl
    | some value =>
      rw [hbody] at hname
      exact publicText_ok hname
  · cases hbody : r.base.body.get? "sandbox_profile_id" with
    | none =>
      rw [hbody] at hprofile
      cases hprofile
      rfl
    | some value =>
      rw [hbody] at hprofile
      exact sandboxProfile_ok hprofile

/-- What the transaction of a command has checked. -/
structure CommandChecked (s : Site) (r : ProjectRequest) (command : ProjectCommand) (expected : Nat)
    (c : Content) (x : CommandData) (policy : Members) : Prop where
  found : c.projects.get? r.projectId = some x.row
  revision : x.row.resourceRevision = expected
  policyFile : s.policy (.str x.row.policyId) = .ok (x.row.policyId, policy)
  config : s.renderConfig ⟨r.projectId, x.row.displayName, command.enabled x.row, x.row.policyId,
    s.pathText x.row.repoPath, s.pathText x.row.dataPath, x.row.defaultBranch⟩ policy = .ok x.config

theorem checkCommand_ok {command : ProjectCommand} {expected : Nat} {x : CommandData}
    (h : checkCommand s r command expected c = .ok x) :
    ∃ policy, CommandChecked s r command expected c x policy := by
  obtain ⟨row, hrow, h⟩ := Except.bind_ok.1 h
  obtain ⟨_, hrevision, h⟩ := Except.bind_ok.1 h
  obtain ⟨_, -, h⟩ := Except.bind_ok.1 h
  obtain ⟨_, -, h⟩ := Except.bind_ok.1 h
  obtain ⟨_, -, h⟩ := Except.bind_ok.1 h
  obtain ⟨_, -, h⟩ := Except.bind_ok.1 h
  obtain ⟨clean, -, h⟩ := Except.bind_ok.1 h
  obtain ⟨_, -, h⟩ := Except.bind_ok.1 h
  obtain ⟨⟨policyId, policy⟩, hpolicy, h⟩ := Except.bind_ok.1 h
  obtain ⟨config, hconfig, h⟩ := Except.bind_ok.1 h
  obtain rfl := Except.pure_ok.1 h
  rw [controller_ok] at hrow hrevision hpolicy
  obtain rfl : row.policyId = policyId := by
    have hid := policy_ok hpolicy
    simpa using hid
  exact ⟨policy, projectRow_ok hrow, of_decide_eq_true (Controller.require_ok.1 hrevision), hpolicy,
    hconfig⟩

/-! ### When a request restates the row -/

/-- The stored hash is the one of the configuration that the row describes. -/
def ConfigCurrent (s : Site) (projectId : String) (row : ProjectRow) : Prop :=
  ∃ policy text, s.policy (.str row.policyId) = .ok (row.policyId, policy) ∧
    s.renderConfig ⟨projectId, row.displayName, row.enabled, row.policyId, s.pathText row.repoPath,
      s.pathText row.dataPath, row.defaultBranch⟩ policy = .ok text ∧
    s.hashing.sha256 text = row.configHash

/-- A request that changes a project. -/
inductive Mutation where
  | update
  | command (text : String)

def Mutation.run (s : Site) (r : ProjectRequest) (t : Ledger Content) :
    Mutation → Except Failure (Nat × Json) × Ledger Content
  | .update => updateProject s r t
  | .command text => commandProject s r text t

/-- The request passes every check before its first write. -/
def Mutation.Passes (s : Site) (r : ProjectRequest) (c : Content) : Mutation → Prop
  | .update => ∃ key revision u, checkUpdateArguments r = .ok (key, revision) ∧
      checkUpdate s r revision c = .ok u
  | .command text => ∃ key revision command reason x,
      checkCommandArguments r text = .ok ((key, revision), command, reason) ∧
        checkCommand s r command revision c = .ok x

/-- Every value the request gives or implies is the stored one, and the stored hash is current. -/
def Mutation.Restates (s : Site) (r : ProjectRequest) (row : ProjectRow) : Mutation → Prop
  | .update =>
      (∀ value, r.base.body.get? "name" = some value →
        ∃ raw, value = .str raw ∧ strip raw = row.displayName) ∧
      (∀ value, r.base.body.get? "policy_id" = some value → value = .str row.policyId) ∧
      (∀ value, r.base.body.get? "sandbox_profile_id" = some value →
        value = profileValue row.sandboxProfileId) ∧
      ConfigCurrent s r.projectId row
  | .command text => ∃ command, ProjectCommand.parse text = some command ∧
      command.enabled row = row.enabled ∧ command.archived row = row.archived ∧
      ConfigCurrent s r.projectId row

theorem profileValue_inj {x y : Option String} (h : profileValue x = profileValue y) : x = y := by
  cases x <;> cases y <;> simp_all [profileValue, Json.optional]

/-- The columns of the update change unless the request restates the row. -/
theorem update_changes_iff (now : Time) {expected : Nat} {u : UpdateData} {policy : Members}
    (h : UpdateChecked s r expected c u policy) :
    resourceChanged u.row (u.columns s now u.row) = false ↔ Mutation.Restates s r u.row .update := by
  have hcolumns : resourceChanged u.row (u.columns s now u.row) = false ↔
      u.name = u.row.displayName ∧ u.policyId = u.row.policyId ∧
        u.sandboxProfile = u.row.sandboxProfileId ∧ s.hashing.sha256 u.config = u.row.configHash := by
    simp only [resourceChanged, UpdateData.columns, ne_eq, decide_eq_false_iff_not, not_or, not_not]
    tauto
  rw [hcolumns]
  have hname := h.name
  have hpolicy := h.policyId
  have hprofile := h.profile
  constructor
  · rintro ⟨hn, hp, hs, hc⟩
    refine ⟨fun value hv => ?_, fun value hv => ?_, fun value hv => ?_, policy, u.config, ?_, ?_, hc⟩
    · rw [hv] at hname
      obtain ⟨raw, rfl, htext⟩ := hname
      exact ⟨raw, rfl, by rw [← hn, htext]⟩
    · rw [hv, Option.getD_some] at hpolicy
      rw [hpolicy, hp]
    · rw [hv] at hprofile
      rw [hprofile.1, hs]
    · rw [← hp]
      exact h.policyFile
    · rw [← hn, ← hp]
      exact h.config
  · rintro ⟨hn, hp, hs, policy', text, hfile, hrender, hhash⟩
    have h₁ : u.name = u.row.displayName := by
      cases hv : r.base.body.get? "name" with
      | none => rw [hv] at hname; exact hname
      | some value =>
        rw [hv] at hname
        obtain ⟨raw, hraw, htext⟩ := hname
        obtain ⟨raw', hraw', hstored⟩ := hn value hv
        rw [hraw] at hraw'
        cases hraw'
        rw [htext, hstored]
    have h₂ : u.policyId = u.row.policyId := by
      cases hv : r.base.body.get? "policy_id" with
      | none =>
        rw [hv, Option.getD_none] at hpolicy
        exact (Json.str.inj hpolicy).symm
      | some value =>
        rw [hv, Option.getD_some, hp value hv] at hpolicy
        exact (Json.str.inj hpolicy).symm
    have h₃ : u.sandboxProfile = u.row.sandboxProfileId := by
      cases hv : r.base.body.get? "sandbox_profile_id" with
      | none => rw [hv] at hprofile; exact hprofile
      | some value =>
        rw [hv] at hprofile
        exact profileValue_inj (hprofile.1.symm.trans (hs value hv))
    have hconfig := h.config
    have hpolicyFile := h.policyFile
    rw [h₂, hfile] at hpolicyFile
    cases hpolicyFile
    rw [h₁, h₂, hrender] at hconfig
    cases hconfig
    exact ⟨h₁, h₂, h₃, hhash⟩

/-- The comparison of the code and the one of the triggers agree. -/
theorem command_changes {command : ProjectCommand} {x : CommandData} {now : Time} :
    resourceChanged x.row (x.columns s command now x.row) = x.changed s command := by
  simp only [resourceChanged, CommandData.columns, CommandData.changed, ne_eq, not_true_eq_false,
    false_or, or_false]
  rw [decide_eq_decide]
  tauto

theorem command_changes_iff {command : ProjectCommand} {expected : Nat} {x : CommandData}
    {policy : Members} {text : String} (hparse : ProjectCommand.parse text = some command)
    (h : CommandChecked s r command expected c x policy) :
    x.changed s command = false ↔ Mutation.Restates s r x.row (.command text) := by
  simp only [CommandData.changed, decide_eq_false_iff_not, not_or, not_not]
  constructor
  · rintro ⟨he, ha, hc⟩
    refine ⟨command, hparse, he, ha, policy, x.config, h.policyFile, ?_, hc⟩
    rw [← he]
    exact h.config
  · rintro ⟨command', hparse', he, ha, policy', text', hfile, hrender, hhash⟩
    cases hparse.symm.trans hparse'
    have hconfig := h.config
    have hpolicyFile := h.policyFile
    rw [hfile] at hpolicyFile
    cases hpolicyFile
    rw [he, hrender] at hconfig
    cases hconfig
    exact ⟨he, ha, hhash⟩

/-! ### The writes -/

theorem writeProject_run (t : Ledger Content) {path config : String} {f : ProjectRow → ProjectRow}
    {revision : Nat} {content : Content} (hwritable : r.writable = true) (hsize : revision < 2 ^ 63)
    (h : (t.content.replaceConfig path config).updateProject r.projectId f = some content) :
    writeProject r path config f revision ⟨t, none⟩ = (.ok (), ⟨{ t with content }, none⟩) := by
  have hfile : (Txn.ensure r.writable .file : Command Content Unit) ⟨t, none⟩ = (.ok (), ⟨t, none⟩) := by
    rw [hwritable]; rfl
  have hbound (t : Ledger Content) : (Txn.ensure (revision < 2 ^ 63) .uncaught : Command Content Unit)
      ⟨t, none⟩ = (.ok (), ⟨t, none⟩) := by
    rw [decide_eq_true hsize]; rfl
  have hconfig : execute (fun t => some { t with content := t.content.replaceConfig path config }) ⟨t, none⟩ =
      (.ok (), ⟨{ t with content := t.content.replaceConfig path config }, none⟩) := run_execute rfl
  rw [writeProject, Txn.run_bind_of_ok hfile, Txn.run_bind_of_ok hconfig,
    Txn.run_bind_of_ok (hbound _), run_execute]
  rw [h]; rfl

theorem writeProject_refused (t : Ledger Content) {path config : String} {f : ProjectRow → ProjectRow}
    {revision : Nat} (h : revision < 2 ^ 63 → (t.content.replaceConfig path config).updateProject r.projectId f = none) :
    ∃ e w, writeProject r path config f revision ⟨t, none⟩ = (.error e, w) := by
  rcases hrun : writeProject r path config f revision ⟨t, none⟩ with ⟨result, w⟩
  cases result with
  | error e => exact ⟨e, w, rfl⟩
  | ok a =>
    obtain ⟨_, w₁, hfile, hrun⟩ := Txn.bind_ok.1 hrun
    obtain ⟨_, w₂, hconfig, hrun⟩ := Txn.bind_ok.1 hrun
    obtain ⟨_, w₃, hbound, hrun⟩ := Txn.bind_ok.1 hrun
    obtain ⟨-, hfirst⟩ := Txn.ensure_ok.1 hfile
    obtain ⟨hsize, hthird⟩ := Txn.ensure_ok.1 hbound
    have hreplaced : some { t with content := t.content.replaceConfig path config } = some w₂.state := by
      rw [← hfirst] at hconfig
      exact execute_ok (f := fun t : Ledger Content => some { t with
        content := t.content.replaceConfig path config }) hconfig
    have hupdate := execute_ok hrun
    rw [← hthird, ← Option.some.inj hreplaced, h (of_decide_eq_true hsize)] at hupdate
    cases hupdate

/-- The update a request issues is accepted when it moves the revision as its columns change. -/
theorem replaced_updateProject (path config : String) (f : ProjectRow → ProjectRow)
    (hrow : c.projects.get? r.projectId = some row)
    (hguards : (f row).resourceRevision =
      row.resourceRevision + if resourceChanged row (f row) then 1 else 0)
    (hcheck : (f row).check = true) :
    ∃ content, (c.replaceConfig path config).updateProject r.projectId f = some content ∧
      content.projects.get? r.projectId = some (f row) := by
  refine ⟨_, updateProject_some hrow hguards hcheck, ?_⟩
  rw [Table.get?_updateAt, if_pos rfl]
  exact (congrArg _ hrow).trans rfl

/-! ### What a request reports -/

def member (key : String) : Json → Option Json
  | .obj members => Members.get? members key
  | _ => none

/-- `resource_revision` of the operation's result in a response. -/
def reportedRevision (payload : Json) : Option Int :=
  (((member "data" payload).bind (member "result")).bind (member "resource_revision")).bind Json.asInt

/-- The keys and the words of the events on projects. -/
def reportedKeys : List String := ["fields", "new_state", "old_state", "reason_present"]

def reportedWords : List String := updateFields ++ ["archived", "enabled", "disabled"]

/-- The request is undisturbed, its configuration file can be written, its body is a JSON object, and
    none of the words in its event is taken for a secret. -/
structure Ready (s : Site) (r : ProjectRequest) (records : Records) : Prop extends
    Undisturbed s.hashing naming r.base records where
  writable : r.writable = true
  body : (r.base.body.map Prod.fst).Pairwise (· < ·)
  keys : ∀ k ∈ reportedKeys, s.hashing.rules.keyIsSensitive k = false
  words : ∀ w ∈ reportedWords, s.hashing.rules.forbiddenValue w = false

theorem isText_projectId {projectId : String} (h : isProjectId projectId = true) :
    isText projectId = true := by
  obtain ⟨hlow, hhigh, -, hall⟩ := of_decide_eq_true h
  refine decide_eq_true ⟨?_, by omega, ?_⟩
  · rintro rfl
    rw [String.length_empty] at hlow
    omega
  · simp only [Controller.hasControl, List.any_eq_true, decide_eq_true_eq, not_exists, not_and]
    intro ch hch
    have hchar := List.all_eq_true.1 hall ch hch
    simp only [Controller.isLowerLetter, Controller.isDigit, Bool.or_eq_true, decide_eq_true_eq] at hchar
    rcases hchar with (hchar | hchar) | rfl
    · omega
    · omega
    · decide

/-- The fields of an update, in order. -/
theorem fields_sublist {fields : List String} (hsorted : fields.Pairwise (· < ·))
    (h : ∀ k ∈ fields, k ∈ updateFields) : fields ∈ updateFields.sublists := by
  refine List.mem_sublists.2 ?_
  have hordered : updateFields.Pairwise (· < ·) := by decide
  have hantisymm : Std.Antisymm fun x y : String => x < y :=
    ⟨fun a b hab hba => absurd (String.lt_trans hab hba) (String.lt_irrefl a)⟩
  have hnodup : fields.Nodup := by
    refine hsorted.imp ?_
    rintro a b hlt rfl
    exact String.lt_irrefl a hlt
  exact List.sublist_of_subperm_of_pairwise (List.Nodup.subperm hnodup h) hsorted hordered

/-- The event of an update is accepted. -/
theorem validateData_fields {rules : TextRules} {fields : List String}
    (hkeys : ∀ k ∈ reportedKeys, rules.keyIsSensitive k = false)
    (hwords : ∀ w ∈ reportedWords, rules.forbiddenValue w = false)
    (h : fields ∈ updateFields.sublists) :
    validateData rules (.obj [("fields", .arr (fields.map .str))]) = true := by
  have hall : ∀ l ∈ updateFields.sublists,
      (∀ k ∈ dataKeys (.obj [("fields", .arr (l.map .str))]), k ∈ reportedKeys) ∧
      (∀ w ∈ dataTexts (.obj [("fields", .arr (l.map .str))]), w ∈ reportedWords) ∧
      validateData lenient (.obj [("fields", .arr (l.map .str))]) = true := by
    decide
  obtain ⟨hk, hw, hdata⟩ := hall fields h
  rw [validateData_lenient (fun k hmem => hkeys k (hk k hmem)) fun w hmem => hwords w (hw w hmem)]
  exact hdata

def stateTexts : List String := ["archived", "enabled", "disabled"]

theorem stateText_mem (archived enabled : Bool) : stateText archived enabled ∈ stateTexts := by
  cases archived <;> cases enabled <;> decide

/-- The event of a command is accepted. -/
theorem validateData_states {rules : TextRules} {old new : String} {reason : Bool}
    (hkeys : ∀ k ∈ reportedKeys, rules.keyIsSensitive k = false)
    (hwords : ∀ w ∈ reportedWords, rules.forbiddenValue w = false)
    (hold : old ∈ stateTexts) (hnew : new ∈ stateTexts) :
    validateData rules (.obj [("new_state", .str new), ("old_state", .str old),
      ("reason_present", .bool reason)]) = true := by
  have hall : ∀ old ∈ stateTexts, ∀ new ∈ stateTexts, ∀ reason : Bool,
      let data : Json := .obj [("new_state", .str new), ("old_state", .str old),
        ("reason_present", .bool reason)]
      (∀ k ∈ dataKeys data, k ∈ reportedKeys) ∧ (∀ w ∈ dataTexts data, w ∈ reportedWords) ∧
        validateData lenient data = true := by
    decide
  obtain ⟨hk, hw, hdata⟩ := hall old hold new hnew reason
  rw [validateData_lenient (fun k hmem => hkeys k (hk k hmem)) fun w hmem => hwords w (hw w hmem)]
  exact hdata

/-! ### The whole request -/

theorem validateIdempotencyKey_ok {given : Option String} {key : String}
    (h : validateIdempotencyKey given = .ok key) : given = some key := by
  unfold validateIdempotencyKey at h
  split at h
  · cases h
  · split at h
    · cases h
      rfl
    · cases h

theorem validateSlug_ok {projectId slug : String} (h : validateSlug projectId = .ok slug) :
    isProjectId projectId = true := by
  unfold validateSlug at h
  split at h
  · assumption
  · cases h

theorem checkUpdateArguments_ok {key : String} {revision : Nat}
    (h : checkUpdateArguments r = .ok (key, revision)) :
    r.base.key = some key ∧ isProjectId r.projectId = true ∧
      ∀ k ∈ r.base.body.map Prod.fst, k ∈ updateFields := by
  obtain ⟨_, hkey, h⟩ := Except.bind_ok.1 h
  obtain ⟨_, hslug, h⟩ := Except.bind_ok.1 h
  obtain ⟨_, -, h⟩ := Except.bind_ok.1 h
  obtain ⟨_, hbody, h⟩ := Except.bind_ok.1 h
  cases Except.pure_ok.1 h
  have hfields := (of_decide_eq_true (Controller.require_ok.1 hbody)).2
  refine ⟨validateIdempotencyKey_ok hkey, validateSlug_ok hslug, fun k hk => ?_⟩
  obtain ⟨x, hx, rfl⟩ := List.mem_map.1 hk
  exact of_decide_eq_true (List.all_eq_true.1 hfields x hx)

theorem checkCommandArguments_ok {text key : String} {revision : Nat} {command : ProjectCommand}
    {reason : Bool} (h : checkCommandArguments r text = .ok ((key, revision), command, reason)) :
    r.base.key = some key ∧ isProjectId r.projectId = true ∧
      ProjectCommand.parse text = some command := by
  obtain ⟨_, hkey, h⟩ := Except.bind_ok.1 h
  obtain ⟨_, hslug, h⟩ := Except.bind_ok.1 h
  obtain ⟨_, -, h⟩ := Except.bind_ok.1 h
  split at h
  · cases h
  · rename_i hparse
    obtain ⟨_, -, h⟩ := Except.bind_ok.1 h
    cases Except.pure_ok.1 h
    exact ⟨validateIdempotencyKey_ok hkey, validateSlug_ok hslug, hparse⟩

/-- The request ends with 202, and the revision it reports is the stored one. -/
def Succeeds (s : Site) (r : ProjectRequest) (t : Ledger Content) (m : Mutation) : Prop :=
  ∃ payload t' row, m.run s r t = (.ok (202, payload), t') ∧
    t'.content.projects.get? r.projectId = some row ∧
    reportedRevision payload = some (row.resourceRevision : Int)

/-- What the records ask of the report of a change. -/
structure ProjectReport (s : Site) (r : ProjectRequest) (o : Report) : Prop where
  target : o.targetId = r.projectId
  project : o.projectId = some r.projectId
  kind : o.kind ∈ commandKinds
  event : Controller.isEventType o.eventType = true ∧ 3 ≤ o.eventType.length ∧
    o.eventType.length ≤ 128
  data : validateData s.hashing.rules (.obj o.data) = true

theorem reportedRevision_payload {operationId kind targetId createdAt : String} {result : Members}
    {metadata : Json} {n : Int} (h : Members.get? result "resource_revision" = some (.int n)) :
    reportedRevision (.obj [("data", operationPayload s.hashing naming operationId kind targetId createdAt
      result), ("meta", metadata)]) = some n := by
  have hdata : member "result" (operationPayload s.hashing naming operationId kind targetId createdAt
      result) = some (.obj result) := rfl
  unfold reportedRevision
  rw [show member "data" (.obj [("data", operationPayload s.hashing naming operationId kind targetId
    createdAt result), ("meta", metadata)]) = some (operationPayload s.hashing naming operationId kind
      targetId createdAt result) from rfl, Option.bind_some, hdata, Option.bind_some]
  exact (congrArg (fun x => Option.bind x Json.asInt) h).trans rfl

/-- A change writes its records and reports the revision of its result. -/
theorem concludeProject_run (keys : Keys) {o : Report} {records : Records} {n : Int}
    {idempotency : Table (String × String) IdempotencyRow} (h : Ready s r records)
    (hproject : isProjectId r.projectId = true) (ho : ProjectReport s r o)
    (hresult : Members.get? o.result "resource_revision" = some (.int n))
    (ht : t.records = { records with idempotency }) :
    ∃ payload operationId records', concludeProject s o keys r.base.draws ⟨t, none⟩ =
      (.ok (payload, operationId), ⟨{ t with records := records' }, none⟩) ∧
      reportedRevision payload = some n := by
  have hensure : (Txn.ensure (o.kind ∈ commandKinds ∧ isProjectId o.targetId) .integrity :
      Command Content Unit) ⟨t, none⟩ = (.ok (), ⟨t, none⟩) := by
    rw [decide_eq_true ⟨ho.kind, by rw [ho.target]; exact hproject⟩]; rfl
  have htext := isText_projectId hproject
  have hvalid : o.Valid s.hashing naming :=
    ⟨by rw [ho.target]; exact htext, by rw [ho.project]; exact htext, ho.event, by decide, ho.data⟩
  obtain ⟨metadata, records', hconclude⟩ :=
    conclude_run keys h.toUndisturbed hvalid ht
  have hrun : concludeProject s o keys r.base.draws ⟨t, none⟩ =
      conclude s.hashing naming o keys r.base.draws ⟨t, none⟩ := by
    rw [concludeProject, Txn.run_bind_of_ok hensure]
  rw [hconclude] at hrun
  exact ⟨_, _, records', hrun, reportedRevision_payload hresult⟩

section Transact

variable (method : String) (work : Nat → Keys → Command Content (Json × String)) {key : String}
  {arguments : Result (String × Nat)} {revision : Nat}

/-- Work that raises ends the request. -/
theorem transact_refused (h : Ready s r t.records) (hkey : r.base.key = some key)
    (harguments : arguments = .ok (key, revision))
    (hwork : ∀ idempotency, ∃ e w, work revision (r.base.keys s.hashing naming method key)
      ⟨{ t with records := { t.records with idempotency } }, none⟩ = (.error e, w)) :
    ∃ e, (transact s method r arguments work t).1 = .error e := by
  obtain ⟨idempotency, hanswer⟩ := answer_run method (work revision) h.toUndisturbed hkey
  obtain ⟨e, w, hrun⟩ := hwork idempotency
  rw [hrun] at hanswer
  refine ⟨e, ?_⟩
  rcases hend : answer s.hashing naming method r.base key (work revision) ⟨t, none⟩ with ⟨result, w'⟩
  rw [hend] at hanswer
  simp only at hanswer
  subst hanswer
  simp only [transact, harguments, Txn.atomically, h.connection, hend]
  rfl

/-- Work that returns ends the request with 202. -/
theorem transact_succeeds {Q : Json → Content → Prop} (h : Ready s r t.records)
    (hkey : r.base.key = some key) (harguments : arguments = .ok (key, revision))
    (hwork : ∀ idempotency, ∃ payload operationId state,
      work revision (r.base.keys s.hashing naming method key)
        ⟨{ t with records := { t.records with idempotency } }, none⟩ =
          (.ok (payload, operationId), ⟨state, none⟩) ∧ Q payload state.content) :
    ∃ payload t', transact s method r arguments work t = (.ok (202, payload), t') ∧
      Q payload t'.content := by
  obtain ⟨idempotency, hanswer⟩ := answer_run method (work revision) h.toUndisturbed hkey
  obtain ⟨payload, operationId, state, hrun, hq⟩ := hwork idempotency
  rw [hrun] at hanswer
  obtain ⟨w', hend, hcontent⟩ := hanswer rfl
  refine ⟨payload, w'.state, ?_, by rw [hcontent]; exact hq⟩
  simp only [transact, harguments, Txn.atomically, h.connection, hend]
  rfl

end Transact

/-! ### Updates -/

section Update

variable {key : String} {revision : Nat} {u : UpdateData}

theorem updateReport_valid (h : Ready s r t.records)
    (hfields : ∀ k ∈ r.base.body.map Prod.fst, k ∈ updateFields) :
    ProjectReport s r (u.report r) where
  target := rfl
  project := rfl
  kind := (by decide : "project.update" ∈ commandKinds)
  event := (by decide : Controller.isEventType "project.updated" = true ∧
    3 ≤ "project.updated".length ∧ "project.updated".length ≤ 128)
  data := by
    have hdata := validateData_fields h.keys h.words (fields_sublist h.body hfields)
    rw [List.map_map] at hdata
    exact hdata

theorem updateColumns_check {expected : Nat} {policy : Members} {now : Time}
    (h : UpdateChecked s r expected c u policy) (hcheck : u.row.check = true) :
    (u.columns s now u.row).check = true := by
  obtain ⟨hlow, hhigh, hprofile, -⟩ := of_decide_eq_true hcheck
  refine decide_eq_true ⟨hlow, hhigh, ?_, Nat.le_add_left 1 _⟩
  have hchosen := h.profile
  cases hbody : r.base.body.get? "sandbox_profile_id" with
  | none =>
    rw [hbody] at hchosen
    simp only [UpdateData.columns, hchosen]
    exact hprofile
  | some value =>
    rw [hbody] at hchosen
    exact hchosen.2

/-- The first statement of the work reads what the checks found. -/
theorem updateWork_run {keys : Keys} (idempotency : Table (String × String) IdempotencyRow)
    (hu : checkUpdate s r revision t.content = .ok u) :
    updateWork s r revision keys ⟨{ t with records := { t.records with idempotency } }, none⟩ =
      (writeProject r (s.pathText u.row.configSource) u.config (u.columns s r.base.draws.now)
        (u.row.resourceRevision + 1) >>= fun _ => concludeProject s (u.report r) keys r.base.draws)
        ⟨{ t with records := { t.records with idempotency } }, none⟩ := by
  unfold updateWork
  refine Txn.run_bind_of_ok ?_
  rw [Txn.run_statement, hu]
  rfl

theorem update_succeeds (h : Ready s r t.records) (hcheck : u.row.check = true)
    (harguments : checkUpdateArguments r = .ok (key, revision))
    (hu : checkUpdate s r revision t.content = .ok u)
    (hchanged : resourceChanged u.row (u.columns s r.base.draws.now u.row) = true)
    (hsize : u.row.resourceRevision + 1 < 2 ^ 63) : Succeeds s r t .update := by
  obtain ⟨policy, hchecked⟩ := checkUpdate_ok hu
  obtain ⟨hkey, hproject, hfields⟩ := checkUpdateArguments_ok harguments
  obtain ⟨content, hupdate, hstored⟩ := replaced_updateProject
    (s.pathText u.row.configSource) u.config (u.columns s r.base.draws.now) hchecked.found
    (by rw [hchanged]; rfl) (updateColumns_check hchecked hcheck)
  obtain ⟨payload, t', hrun, hq⟩ := transact_succeeds "PATCH" (updateWork s r)
    (Q := fun payload c => ∃ row, c.projects.get? r.projectId = some row ∧
      reportedRevision payload = some (row.resourceRevision : Int)) h hkey harguments
    fun idempotency => by
      have hwrite := writeProject_run { t with records := { t.records with idempotency } } h.writable
        hsize hupdate
      obtain ⟨payload, operationId, records', hconclude, hreported⟩ := concludeProject_run
        (r.base.keys s.hashing naming "PATCH" key) (t := ⟨content, { t.records with idempotency }⟩)
        h hproject (updateReport_valid h hfields) rfl rfl
      refine ⟨payload, operationId, ⟨content, records'⟩, ?_, u.columns s r.base.draws.now u.row, hstored,
        hreported⟩
      rw [updateWork_run idempotency hu, Txn.run_bind_of_ok hwrite, hconclude]
  obtain ⟨row, hrow, hreported⟩ := hq
  exact ⟨payload, t', row, hrun, hrow, hreported⟩

theorem update_refused (h : Ready s r t.records)
    (harguments : checkUpdateArguments r = .ok (key, revision))
    (hu : checkUpdate s r revision t.content = .ok u)
    (hbad : u.row.resourceRevision + 1 < 2 ^ 63 →
      resourceChanged u.row (u.columns s r.base.draws.now u.row) = false) :
    ¬Succeeds s r t .update := by
  obtain ⟨policy, hchecked⟩ := checkUpdate_ok hu
  obtain ⟨hkey, -, -⟩ := checkUpdateArguments_ok harguments
  obtain ⟨e, hrefused⟩ := transact_refused "PATCH" (updateWork s r) h hkey harguments
    fun idempotency => by
      have hnone (hsize : u.row.resourceRevision + 1 < 2 ^ 63) :
          (t.content.replaceConfig (s.pathText u.row.configSource) u.config).updateProject r.projectId
            (u.columns s r.base.draws.now) = none := by
        refine updateProject_none hchecked.found ?_
        rw [hbad hsize]
        exact Nat.succ_ne_self _
      obtain ⟨e, w, hwrite⟩ :=
        writeProject_refused { t with records := { t.records with idempotency } } hnone
      exact ⟨e, w, by rw [updateWork_run idempotency hu, Txn.run_bind_of_error hwrite]⟩
  rintro ⟨payload, t', row, hrun, -⟩
  rw [show Mutation.run s r t .update = transact s "PATCH" r (checkUpdateArguments r) (updateWork s r) t
    from rfl] at hrun
  rw [hrun] at hrefused
  cases hrefused

end Update

/-! ### Commands -/

section Command

variable {key text : String} {revision : Nat} {command : ProjectCommand} {reason : Bool}
  {x : CommandData}

theorem commandReport_valid (x : CommandData) (command : ProjectCommand) (reason : Bool)
    (h : Ready s r t.records) : ProjectReport s r (x.report s r command reason) where
  target := rfl
  project := rfl
  kind := by
    have hall : ∀ command : ProjectCommand, "project." ++ command.text ∈ commandKinds := by
      intro command
      cases command <;> decide
    exact hall command
  event := by
    have hall : ∀ command : ProjectCommand, Controller.isEventType command.eventType = true ∧
        3 ≤ command.eventType.length ∧ command.eventType.length ≤ 128 := by
      intro command
      cases command <;> decide
    exact hall command
  data := validateData_states h.keys h.words (stateText_mem _ _) (stateText_mem _ _)

theorem commandColumns_check {now : Time} (hcheck : x.row.check = true) :
    (x.columns s command now x.row).check = true := by
  obtain ⟨hlow, hhigh, hprofile, hrevision⟩ := of_decide_eq_true hcheck
  exact decide_eq_true ⟨hlow, hhigh, hprofile, hrevision.trans (Nat.le_add_right _ _)⟩

/-- The first statement of the work reads what the checks found. -/
theorem commandWork_run {keys : Keys} (idempotency : Table (String × String) IdempotencyRow)
    (hx : checkCommand s r command revision t.content = .ok x) :
    commandWork s r command reason revision keys
        ⟨{ t with records := { t.records with idempotency } }, none⟩ =
      (if x.changed s command then
        writeProject r (s.pathText x.row.configSource) x.config (x.columns s command r.base.draws.now)
          (x.newRevision s command) >>= fun _ =>
            concludeProject s (x.report s r command reason) keys r.base.draws
      else concludeProject s (x.report s r command reason) keys r.base.draws)
        ⟨{ t with records := { t.records with idempotency } }, none⟩ := by
  unfold commandWork
  refine Txn.run_bind_of_ok ?_
  rw [Txn.run_statement, hx]
  rfl

theorem commandProject_eq
    (harguments : checkCommandArguments r text = .ok ((key, revision), command, reason)) :
    commandProject s r text t =
      transact s "POST" r (.ok (key, revision)) (commandWork s r command reason) t := by
  rw [commandProject, harguments]

theorem command_succeeds (h : Ready s r t.records) (hcheck : x.row.check = true)
    (harguments : checkCommandArguments r text = .ok ((key, revision), command, reason))
    (hx : checkCommand s r command revision t.content = .ok x)
    (hsize : x.changed s command = true → x.row.resourceRevision + 1 < 2 ^ 63) :
    Succeeds s r t (.command text) := by
  obtain ⟨policy, hchecked⟩ := checkCommand_ok hx
  obtain ⟨hkey, hproject, -⟩ := checkCommandArguments_ok harguments
  obtain ⟨payload, t', hrun, hq⟩ := transact_succeeds "POST" (commandWork s r command reason)
    (Q := fun payload c => ∃ row, c.projects.get? r.projectId = some row ∧
      reportedRevision payload = some (row.resourceRevision : Int)) h hkey
    (rfl : (Except.ok (key, revision) : Result (String × Nat)) = .ok (key, revision))
    fun idempotency => by
      cases hchanged : x.changed s command with
      | false =>
        obtain ⟨payload, operationId, records', hconclude, hreported⟩ := concludeProject_run
          (r.base.keys s.hashing naming "POST" key)
          (t := { t with records := { t.records with idempotency } }) h hproject
          (commandReport_valid x command reason h) rfl rfl
        refine ⟨payload, operationId, ⟨t.content, records'⟩, ?_, x.row, hchecked.found, ?_⟩
        · rw [commandWork_run idempotency hx, hchanged, if_neg Bool.false_ne_true, hconclude]
        · rw [hreported, CommandData.newRevision, hchanged]
          rfl
      | true =>
        have hrevision : x.newRevision s command = x.row.resourceRevision + 1 := by
          rw [CommandData.newRevision, hchanged]
          rfl
        obtain ⟨content, hupdate, hstored⟩ := replaced_updateProject
          (s.pathText x.row.configSource) x.config (x.columns s command r.base.draws.now)
          hchecked.found (by rw [command_changes]; rfl) (commandColumns_check hcheck)
        have hwrite := writeProject_run { t with records := { t.records with idempotency } } h.writable
          (by rw [hrevision]; exact hsize hchanged : x.newRevision s command < 2 ^ 63) hupdate
        obtain ⟨payload, operationId, records', hconclude, hreported⟩ := concludeProject_run
          (r.base.keys s.hashing naming "POST" key)
          (t := ⟨content, { t.records with idempotency }⟩) h hproject
          (commandReport_valid x command reason h) rfl rfl
        refine ⟨payload, operationId, ⟨content, records'⟩, ?_,
          x.columns s command r.base.draws.now x.row, hstored, hreported⟩
        rw [commandWork_run idempotency hx, hchanged, if_pos rfl, Txn.run_bind_of_ok hwrite, hconclude]
  obtain ⟨row, hrow, hreported⟩ := hq
  exact ⟨payload, t', row, by rw [Mutation.run, commandProject_eq harguments, hrun], hrow, hreported⟩

/-- A revision that the column cannot hold ends the request. -/
theorem command_refused (h : Ready s r t.records)
    (harguments : checkCommandArguments r text = .ok ((key, revision), command, reason))
    (hx : checkCommand s r command revision t.content = .ok x)
    (hchanged : x.changed s command = true) (hsize : ¬x.row.resourceRevision + 1 < 2 ^ 63) :
    ¬Succeeds s r t (.command text) := by
  obtain ⟨hkey, -, -⟩ := checkCommandArguments_ok harguments
  have hrevision : x.newRevision s command = x.row.resourceRevision + 1 := by
    rw [CommandData.newRevision, hchanged]
    rfl
  obtain ⟨e, hrefused⟩ := transact_refused "POST" (commandWork s r command reason) h hkey
    (rfl : (Except.ok (key, revision) : Result (String × Nat)) = .ok (key, revision))
    fun idempotency => by
      obtain ⟨e, w, hwrite⟩ := writeProject_refused
        { t with records := { t.records with idempotency } } (r := r)
        fun hsmall : x.newRevision s command < 2 ^ 63 =>
          (absurd (hrevision ▸ hsmall) hsize : (t.content.replaceConfig (s.pathText x.row.configSource)
            x.config).updateProject r.projectId (x.columns s command r.base.draws.now) = none)
      refine ⟨e, w, ?_⟩
      rw [commandWork_run idempotency hx, hchanged, if_pos rfl, Txn.run_bind_of_error hwrite]
  rintro ⟨payload, t', row, hrun, -⟩
  rw [Mutation.run, commandProject_eq harguments] at hrun
  rw [hrun] at hrefused
  cases hrefused

end Command

/-! ### Which requests succeed -/

/-- A request that passes its checks ends with 202, reporting the stored revision, unless it is an
    update that restates the row or needs a revision beyond the last one. -/
theorem mutation_succeeds_iff {m : Mutation} (hrow : t.content.projects.get? r.projectId = some row)
    (hcheck : row.check = true) (hpasses : m.Passes s r t.content) (h : Ready s r t.records) :
    Succeeds s r t m ↔ (m.Restates s r row → m ≠ .update) ∧
      (¬m.Restates s r row → row.resourceRevision + 1 < 2 ^ 63) := by
  cases m with
  | update =>
    obtain ⟨key, revision, u, harguments, hu⟩ := hpasses
    obtain ⟨policy, hchecked⟩ := checkUpdate_ok hu
    obtain rfl : u.row = row := Option.some.inj (hchecked.found.symm.trans hrow)
    have hrestates := update_changes_iff r.base.draws.now hchecked
    constructor
    · intro hsucceeds
      by_contra hbad
      refine update_refused h harguments hu (fun hsize => ?_) hsucceeds
      rw [hrestates]
      by_contra hnot
      exact hbad ⟨fun hyes => absurd hyes hnot, fun _ => hsize⟩
    · rintro ⟨hnot, hsize⟩
      have hfresh : ¬Mutation.Restates s r u.row .update := fun hyes => hnot hyes rfl
      refine update_succeeds h hcheck harguments hu ?_ (hsize hfresh)
      rw [← hrestates] at hfresh
      simpa using hfresh
  | command text =>
    obtain ⟨key, revision, command, reason, x, harguments, hx⟩ := hpasses
    obtain ⟨policy, hchecked⟩ := checkCommand_ok hx
    obtain rfl : x.row = row := Option.some.inj (hchecked.found.symm.trans hrow)
    have hrestates := command_changes_iff (checkCommandArguments_ok harguments).2.2 hchecked
    constructor
    · intro hsucceeds
      refine ⟨fun _ => by simp, fun hnot => ?_⟩
      rw [← hrestates, Bool.not_eq_false] at hnot
      by_contra hsize
      exact command_refused h harguments hx hnot hsize hsucceeds
    · rintro ⟨-, hsize⟩
      refine command_succeeds h hcheck harguments hx fun hchanged => hsize ?_
      rw [← hrestates, hchanged]
      simp

/-! ### A project that is given the name it has -/

def demoRow : ProjectRow where
  displayName := "Demo"
  repoPath := "/srv/hermesops/workspaces/demo"
  dataPath := "/srv/hermesops/project-data/demo"
  policyId := "standard"
  enabled := false
  configSource := "/srv/hermesops/repo/config/projects.d/demo.toml"
  configHash := "4986cebf4f5ff528f66455438ff1953340a811444ad53890f91c6ee18064fad7"
  registeredAt := 0
  updatedAt := 0
  defaultBranch := "main"
  sandboxProfileId := none
  archived := false
  repositoryMode := .existing
  resourceRevision := 1

/-- The configuration of the project under a name. -/
def demoConfig (name : String) : ConfigData where
  projectId := "demo"
  name
  enabled := false
  policyId := "standard"
  repoPath := "/srv/hermesops/workspaces/demo"
  dataPath := "/srv/hermesops/project-data/demo"
  defaultBranch := "main"

/-- The digests of the texts that occur. -/
def demoDigests : List (String × String) := [
  ( "aaaaaaaaaaaaaaaaaaaaaaaaaaaaaaaa",
    "3ba3f5f43b92602683c19aee62a20342b084dd5971ddd33808d81a328879a547" ),
  ( requestText "PATCH" "/api/v1/projects/demo" [("name", .str "Demo")],
    "94a7ab072fd882c3cf33f59587c8355ab1e0b27a01bd86f0183ef2690f1e025d" ),
  ( requestText "PATCH" "/api/v1/projects/demo" [("name", .str "Demo 2")],
    "427fec41cde55199501f0852d872bde59a4c31dc419684716867a9147422b713" ),
  (configText (demoConfig "Demo") 3, demoRow.configHash),
  ( configText (demoConfig "Demo 2") 3,
    "075b3bc7b47ecbac69d5077093943709b545da4fb4ad853fddb53c3443ad0ee0" ) ]

/-- The digest of the operation stands for every other text. -/
def demoSite : Site where
  hashing := {
    rules := ⟨fun _ => false, fun _ => false, fun _ => true, fun _ => true⟩
    sha256 := fun text => (demoDigests.lookup text).getD
      "0b5a2bafeb98da0e4449dbea1da85540a8b7f63f19b362dd360d97bde8ad9d78"
    hmac := fun _ _ => "8424546c38b81469465793a4dcda3be2a121b03e9994895a71e414cf9068f667"
    timeText := fun _ => "2026-01-02T03:04:05.006Z" }
  policyFile id :=
    if id = "standard" then some [("policy_id", .str "standard"), ("schema_version", .int 1)] else none
  convert _ := none
  pathText := id
  pathKind _ := .directory
  git _ := none

def demoLedger : Ledger Content where
  content := {
    projects := ⟨[("demo", demoRow)], by decide⟩
    sandboxProfiles := .empty
    projectLocks := []
    runs := []
    objectives := []
    configs := fun path =>
      if path = demoRow.configSource then .regular (configText (demoConfig "Demo") 3) else .unavailable }
  records := .empty

/-- `PATCH` with this name, at the first revision. -/
def renameRequest (name : String) : ProjectRequest where
  base := {
    session := "aaaaaaaaaaaaaaaaaaaaaaaaaaaaaaaa"
    key := some "demo-key-1"
    route := "/api/v1/projects/demo"
    body := [("name", .str name)]
    draws := {
      operationHex := "00000000000000000000000000000001"
      auditHex := "00000000000000000000000000000002"
      correlationHex := "00000000000000000000000000000003"
      journalHex := "00000000000000000000000000000004"
      reservedAt := 1
      now := 1
      metadata := fun revision => some (.obj [("resource_revision", .int revision)])
      failsAfter := none } }
  projectId := "demo"
  ifMatch := some "\"1\""
  writable := true

theorem rename_ready (name : String) : Ready demoSite (renameRequest name) demoLedger.records where
  session := (by decide : Controller.isAscii "aaaaaaaaaaaaaaaaaaaaaaaaaaaaaaaa" = true)
  route := (by decide : 1 ≤ "/api/v1/projects/demo".length ∧ "/api/v1/projects/demo".length ≤ 512)
  unused := fun _ _ => rfl
  connection := rfl
  operationHex := (by decide : Controller.isUuidHex "00000000000000000000000000000001" = true)
  auditHex := (by decide : Controller.isUuidHex "00000000000000000000000000000002" = true)
  correlationHex := (by decide : Controller.isUuidHex "00000000000000000000000000000003" = true)
  journalHex := (by decide : Controller.isUuidHex "00000000000000000000000000000004" = true)
  operation := rfl
  unaudited := rfl
  audit := rfl
  event := fun _ hx => by cases hx
  time := rfl
  timeGuard := rfl
  space := by decide
  metadata := fun _ => rfl
  writable := rfl
  body := List.pairwise_singleton _ _
  keys := fun _ _ => rfl
  words := fun _ _ => rfl

/-- What the checks of the request yield. -/
def renamed (name : String) : UpdateData where
  row := demoRow
  name
  policyId := "standard"
  sandboxProfile := none
  config := configText (demoConfig name) 3

set_option maxRecDepth 20000 in
/-- The name the project has already: every check passes, and the trigger refuses the update. -/
theorem restating_update_refused :
    demoRow.check = true ∧ Ready demoSite (renameRequest "Demo") demoLedger.records ∧
      Mutation.Passes demoSite (renameRequest "Demo") demoLedger.content .update ∧
      (updateProject demoSite (renameRequest "Demo") demoLedger).1 = .error .integrity := by
  refine ⟨by decide, rename_ready "Demo", ⟨"demo-key-1", 1, renamed "Demo", ?_, ?_⟩, ?_⟩
  · rfl
  · rfl
  · rfl

set_option maxRecDepth 20000 in
theorem rename_passes : Mutation.Passes demoSite (renameRequest "Demo 2") demoLedger.content .update :=
  ⟨"demo-key-1", 1, renamed "Demo 2", rfl, rfl⟩

/-- Another name is accepted. -/
theorem rename_succeeds : Succeeds demoSite (renameRequest "Demo 2") demoLedger .update := by
  have hrow : demoLedger.content.projects.get? "demo" = some demoRow := rfl
  refine (mutation_succeeds_iff hrow (by decide) rename_passes (rename_ready "Demo 2")).2
    ⟨fun h => ?_, fun _ => by decide⟩
  obtain ⟨raw, hraw, hname⟩ := h.1 (.str "Demo 2") rfl
  cases hraw
  exact absurd hname (by decide)

end HermesOps.ProjectCommands
