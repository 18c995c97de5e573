import HermesOps.Http.ConsoleProxy

/-! The two routers agree on what the Console forwards, apart from one path: the Controller takes the project
    `objectives` for the objectives of a project without a name. A branch whose lead does not fit a path is
    skipped, so that a few branches are left for each family of routes. -/

namespace HermesOps.Http

open Controller (splitOnce isPrefixedHex isHexChar isDigit isLowerLetter isProjectId isObjectiveId)

/-! ### Texts behind a lead -/

theorem behind_append (lead rest : String) : behind lead (lead ++ rest) = some rest := by
  have hlen : lead.length = lead.toList.length := String.length_toList.symm
  rw [behind, String.toList_append, hlen, List.take_left, if_pos rfl, List.drop_left, String.ofList_toList]

theorem behind_some {lead text rest : String} (h : behind lead text = some rest) : text = lead ++ rest := by
  unfold behind at h
  split at h
  · rename_i hlead
    obtain rfl := Option.some.inj h
    refine String.toList_inj.1 ?_
    rw [String.toList_append, String.toList_ofList, ← hlead, List.take_append_drop]
  · exact absurd h (by simp)

theorem behind_isSome {lead text : String} : (behind lead text).isSome ↔ lead.toList <+: text.toList := by
  constructor
  · intro h
    obtain ⟨rest, hrest⟩ := Option.isSome_iff_exists.1 h
    rw [behind_some hrest, String.toList_append]
    exact List.prefix_append _ _
  · rintro ⟨rest, hrest⟩
    have htext : text = lead ++ String.ofList rest :=
      String.toList_inj.1 (by rw [String.toList_append, String.toList_ofList, hrest])
    rw [htext, behind_append]
    rfl

/-- Leads that do not fit each other do not fit the same text. -/
theorem behind_other (lead other : String) {rest : String} (h : ¬other.toList <+: lead.toList)
    (h' : ¬lead.toList <+: other.toList) : behind other (lead ++ rest) = none := by
  rw [← Option.not_isSome_iff_eq_none, behind_isSome, String.toList_append]
  intro hother
  rcases List.prefix_or_prefix_of_prefix hother (List.prefix_append lead.toList rest.toList) with hp | hp
  · exact h hp
  · exact h' hp

/-! ### Identifiers -/

/-- An identifier that stands for itself in a path. -/
structure IsPlain (id : String) : Prop where
  nonempty : id ≠ ""
  slash : '/' ∉ id.toList
  percent : '%' ∉ id.toList

theorem IsPlain.identifier {id : String} (h : IsPlain id) (decode : String → String) :
    identifier decode id = some id := by
  rw [Http.identifier, unquote_plain h.percent]
  exact if_neg (not_or.2 ⟨h.nonempty, h.slash⟩)

/-- Texts whose characters pass a test that the slash and the percent sign do not pass are plain. -/
theorem IsPlain.of_all {test : Char → Bool} {id : String} (hne : id ≠ "") (hall : id.toList.all test = true)
    (hslash : test '/' = false) (hpercent : test '%' = false) : IsPlain id := by
  have hmem := List.all_eq_true.1 hall
  refine ⟨hne, fun h => ?_, fun h => ?_⟩
  · exact absurd (hmem _ h) (by rw [hslash]; exact Bool.false_ne_true)
  · exact absurd (hmem _ h) (by rw [hpercent]; exact Bool.false_ne_true)

theorem toList_of_isPrefixedHex {lead id : String} (h : isPrefixedHex lead id = true) :
    ∃ hex, id.toList = lead.toList ++ hex ∧ hex.length = 32 ∧ hex.all isHexChar = true := by
  obtain ⟨htake, hlen, hall⟩ := of_decide_eq_true h
  refine ⟨id.toList.drop lead.length, ?_, hlen, hall⟩
  conv_lhs => rw [← List.take_append_drop lead.length id.toList, htake]

theorem IsPlain.of_prefixedHex {lead id : String} (h : isPrefixedHex lead id = true)
    (hslash : '/' ∉ lead.toList) (hpercent : '%' ∉ lead.toList) : IsPlain id := by
  obtain ⟨hex, hid, hlen, hall⟩ := toList_of_isPrefixedHex h
  have hmem := List.all_eq_true.1 hall
  refine ⟨?_, ?_, ?_⟩
  · rintro rfl
    have hnil : hex = [] := (List.append_eq_nil_iff.1 hid.symm).2
    rw [hnil] at hlen
    exact absurd hlen (by decide)
  · rw [hid, List.mem_append, not_or]
    exact ⟨hslash, fun hc => absurd (hmem _ hc) (by decide)⟩
  · rw [hid, List.mem_append, not_or]
    exact ⟨hpercent, fun hc => absurd (hmem _ hc) (by decide)⟩

theorem IsPlain.of_sandboxId {id : String} (h : isSandboxId id = true) : IsPlain id :=
  IsPlain.of_prefixedHex h (by decide) (by decide)

theorem IsPlain.of_operationId {id : String} (h : isOperationId id = true) : IsPlain id :=
  IsPlain.of_prefixedHex h (by decide) (by decide)

theorem IsPlain.of_objectiveId {id : String} (h : isObjectiveId id = true) : IsPlain id :=
  IsPlain.of_prefixedHex h (by decide) (by decide)

theorem IsPlain.of_projectId {id : String} (h : isProjectId id = true) : IsPlain id := by
  obtain ⟨hlen, -, -, hall⟩ := of_decide_eq_true h
  refine IsPlain.of_all ?_ hall (by decide) (by decide)
  rintro rfl
  exact absurd hlen (by decide)

theorem IsPlain.of_revision {text : String} (h : isRevision text = true) : IsPlain text := by
  obtain ⟨hall, hhead⟩ := of_decide_eq_true h
  refine IsPlain.of_all ?_ hall (by decide) (by decide)
  rintro rfl
  exact absurd hhead (by decide)

theorem IsPlain.of_mem {texts : List String} {text : String} (h : text ∈ texts)
    (hall : ∀ t ∈ texts, t ≠ "" ∧ '/' ∉ t.toList ∧ '%' ∉ t.toList) : IsPlain text :=
  let ⟨hne, hslash, hpercent⟩ := hall text h
  ⟨hne, hslash, hpercent⟩

/-! ### Branches that apply -/

section Branches

variable {decode : String → String}

/-- No path with this lead fits the branch. -/
def Branch.skips (lead : String) : Branch → Bool
  | .exactly path _ => ¬lead.toList <+: path.toList
  | .item other _ _ | .command other _ => ¬other.toList <+: lead.toList ∧ ¬lead.toList <+: other.toList
  | .hermesfile =>
    ¬"/api/v1/hermesfiles/".toList <+: lead.toList ∧ ¬lead.toList <+: "/api/v1/hermesfiles/".toList

theorem Branch.decides_of_skips {b : Branch} {lead rest : String} (h : b.skips lead = true) :
    b.decides decode (lead ++ rest) = none := by
  cases b with
  | exactly path operation =>
    refine if_neg ?_
    rintro rfl
    refine of_decide_eq_true h ?_
    rw [String.toList_append]
    exact List.prefix_append _ _
  | item other trail operation =>
    obtain ⟨h1, h2⟩ := of_decide_eq_true h
    refine if_neg ?_
    rintro ⟨hother, -⟩
    have hnone : behind other (lead ++ rest) = none := behind_other _ _ h1 h2
    exact absurd (behind_isSome.2 hother) (by rw [hnone]; exact Bool.false_ne_true)
  | command other operation =>
    obtain ⟨h1, h2⟩ := of_decide_eq_true h
    rw [Branch.decides, behind_other _ _ h1 h2, Option.bind_none]
  | hermesfile =>
    obtain ⟨h1, h2⟩ := of_decide_eq_true h
    rw [Branch.decides, behind_other _ _ h1 h2, Option.map_none]

/-- The branches that are skipped do not decide. -/
theorem dispatch_kept (branches : List Branch) (lead rest : String) :
    dispatch decode branches (lead ++ rest) =
      dispatch decode (branches.filter fun b => ¬b.skips lead) (lead ++ rest) := by
  unfold dispatch
  induction branches with
  | nil => rfl
  | cons b branches ih =>
    cases hskip : b.skips lead with
    | true =>
      rw [List.findSome?_cons, Branch.decides_of_skips hskip, List.filter_cons_of_neg (by simp [hskip])]
      exact ih
    | false =>
      rw [List.filter_cons_of_pos (by simp [hskip]), List.findSome?_cons, List.findSome?_cons]
      cases b.decides decode (lead ++ rest) with
      | none => exact ih
      | some operation => rfl

/-- The text behind the last slash is read off a path in one way. -/
theorem last_segment {p q t u : List Char} (ht : '/' ∉ t) (hu : '/' ∉ u)
    (h : p ++ '/' :: t = q ++ '/' :: u) : t = u := by
  rcases List.append_eq_append_iff.1 h with ⟨a, -, ha⟩ | ⟨a, -, ha⟩
  · cases a with
    | nil => exact (List.cons.inj ha).2
    | cons c a =>
      refine absurd ?_ ht
      rw [(List.cons.inj ha).2]
      exact List.mem_append_right _ List.mem_cons_self
  · cases a with
    | nil => exact (List.cons.inj ha).2.symm
    | cons c a =>
      refine absurd ?_ hu
      rw [(List.cons.inj ha).2]
      exact List.mem_append_right _ List.mem_cons_self

/-- A plain identifier behind a lead ends with a trail of one segment only if it is that segment. -/
theorem trail_suffix {lead id trail : String} {l t : List Char} (hid : IsPlain id)
    (hlead : lead.toList = l ++ ['/']) (htrail : trail.toList = '/' :: t) (ht : '/' ∉ t)
    (h : trail.toList <:+ (lead ++ id).toList) : id.toList = t := by
  obtain ⟨p, hp⟩ := h
  rw [htrail, String.toList_append, hlead, List.append_assoc] at hp
  exact (last_segment ht hid.slash hp).symm

theorem between_lead (lead rest : String) : between lead "" (lead ++ rest) = rest := by
  have hlen : lead.length = lead.toList.length := String.length_toList.symm
  have hwhole : (lead ++ rest).toList.take (lead ++ rest).length = (lead ++ rest).toList := by
    rw [← String.length_toList, List.take_length]
  rw [between, String.length_empty, Nat.sub_zero, hwhole, String.toList_append, hlen, List.drop_left,
    String.ofList_toList]

theorem decides_item {lead id : String} (hid : IsPlain id) (operation : String → Operation) :
    (Branch.item lead "" operation).decides decode (lead ++ id) = some (some (operation id)) := by
  have hfits : lead.toList <+: (lead ++ id).toList ∧ "".toList <:+ (lead ++ id).toList := by
    rw [String.toList_append]
    exact ⟨List.prefix_append _ _, List.nil_suffix⟩
  rw [Branch.decides, if_pos hfits, between_lead, hid.identifier decode, Option.map_some]

theorem decides_trail {lead id trail : String} {l t : List Char} (hid : IsPlain id)
    (hlead : lead.toList = l ++ ['/']) (htrail : trail.toList = '/' :: t) (ht : '/' ∉ t)
    (hne : id.toList ≠ t) (operation : String → Operation) :
    (Branch.item lead trail operation).decides decode (lead ++ id) = none := by
  refine if_neg ?_
  rintro ⟨-, hsuffix⟩
  exact hne (trail_suffix hid hlead htrail ht hsuffix)

/-- An identifier and a command behind a lead are taken apart as the Console takes them apart. -/
theorem decides_command (decode : String → String) (lead : String) {suffix : String} {isId : String → Bool} {commands : List String}
    (hroute : isCommandRoute isId commands suffix = true) (hid : ∀ id, isId id = true → IsPlain id)
    (hcommands : ∀ t ∈ commands, t ≠ "" ∧ '/' ∉ t.toList ∧ '%' ∉ t.toList)
    (operation : String → String → Operation) :
    (Branch.command lead operation).decides decode (lead ++ suffix) =
        some (recognisedCommand operation suffix) ∧
      (recognisedCommand operation suffix).isSome ∧
      (splitOnce "/commands/".toList suffix.toList).isSome := by
  unfold isCommandRoute at hroute
  cases hsplit : splitOnce "/commands/".toList suffix.toList with
  | none =>
    rw [hsplit] at hroute
    exact absurd hroute Bool.false_ne_true
  | some pair =>
    rw [hsplit, Option.any_some] at hroute
    obtain ⟨hisId, hcommand⟩ := Bool.and_eq_true_iff.1 hroute
    have hplain := hid _ hisId
    have hplain' := IsPlain.of_mem (of_decide_eq_true hcommand) hcommands
    refine ⟨?_, ?_, rfl⟩
    · rw [Branch.decides, behind_append, Option.bind_some, hsplit, Option.map_some, recognisedCommand, hsplit,
        Option.map_some]
      simp only [hplain.identifier decode, hplain'.identifier decode, Option.bind_some, Option.map_some]
    · rw [recognisedCommand, hsplit]
      rfl

end Branches

/-! ### What is exposed -/

/-- The families of exposed routes with a part that varies. -/
inductive IsFamilyRoute (method : Method) : String → Prop where
  | hermesfile (suffix : String) (hroute : isHermesfileRoute method suffix = true) :
      IsFamilyRoute method ("/api/v1/hermesfiles/" ++ suffix)
  | operation (id : String) (hmethod : method = .get) (hid : isOperationId id = true) :
      IsFamilyRoute method ("/api/v1/operations/" ++ id)
  | objective (id : String) (hmethod : method = .get) (hid : isObjectiveId id = true) :
      IsFamilyRoute method ("/api/v1/objectives/" ++ id)
  | objectiveCommand (suffix : String) (hmethod : method = .post)
      (hroute : isCommandRoute isObjectiveId objectiveCommands suffix = true) :
      IsFamilyRoute method ("/api/v1/objectives/" ++ suffix)
  | project (id : String) (hmethod : method = .get ∨ method = .patch) (hid : isProjectId id = true) :
      IsFamilyRoute method ("/api/v1/projects/" ++ id)
  | projectCommand (suffix : String) (hmethod : method = .post)
      (hroute : isCommandRoute isProjectId projectCommands suffix = true) :
      IsFamilyRoute method ("/api/v1/projects/" ++ suffix)

theorem isExposed_routes {method : Method} {url : Url} (h : isExposed method url = true)
    (hfixed : (method, url.path) ∉ controllerRoutes) : IsFamilyRoute method url.path := by
  unfold isExposed at h
  split at h
  · exact absurd h Bool.false_ne_true
  split at h
  · exact absurd h Bool.false_ne_true
  rw [if_neg fun hboth => hfixed hboth.1] at h
  cases hhermesfile : behind "/api/v1/hermesfiles/" url.path with
  | some suffix =>
    rw [hhermesfile] at h
    rw [behind_some hhermesfile]
    exact .hermesfile suffix h
  | none =>
  cases hoperation : behind "/api/v1/operations/" url.path with
  | some suffix =>
    simp only [hhermesfile, hoperation, Bool.and_eq_true, decide_eq_true_eq] at h
    rw [behind_some hoperation]
    exact .operation suffix h.1.1 h.2
  | none =>
  cases hobjective : behind "/api/v1/objectives/" url.path with
  | some suffix =>
    simp only [hhermesfile, hoperation, hobjective] at h
    rw [behind_some hobjective]
    split at h
    · rename_i hget
      exact .objective suffix hget.1 h
    · simp only [Bool.and_eq_true, decide_eq_true_eq] at h
      exact .objectiveCommand suffix h.1.1 h.2
  | none =>
  cases hproject : behind "/api/v1/projects/" url.path with
  | some suffix =>
    simp only [hhermesfile, hoperation, hobjective, hproject] at h
    rw [behind_some hproject]
    split at h
    · rename_i hmethod
      exact .project suffix hmethod h
    · simp only [Bool.and_eq_true, decide_eq_true_eq] at h
      exact .projectCommand suffix h.1 h.2
  | none =>
    simp only [hhermesfile, hoperation, hobjective, hproject] at h
    exact absurd h Bool.false_ne_true

/-! ### The fixed routes -/

/-- Both routers find the same operation for a path. -/
def Agree (decode : String → String) (method : Method) (path : String) : Prop :=
  ∃ operation, recognisedOperation method path = some operation ∧
    controllerOperation decode method path = some operation

theorem agree_fixed {method : Method} {path : String} (h : (method, path) ∈ controllerRoutes)
    (decode : String → String) : Agree decode method path := by
  have hlookup : ∀ x ∈ exposedOperations, exposedOperations.lookup x.1 = some x.2 := by decide
  have hdispatch : ∀ x ∈ exposedOperations, controllerOperation decode x.1.1 x.1.2 = some x.2 := by
    simp only [exposedOperations, List.forall_mem_cons]
    exact ⟨rfl, rfl, rfl, rfl, rfl, rfl, rfl, rfl, rfl, rfl, rfl, rfl, rfl, rfl, rfl, rfl, rfl,
      List.forall_mem_nil _⟩
  rw [← exposedOperations_routes] at h
  obtain ⟨x, hx, hroute⟩ := List.mem_map.1 h
  refine ⟨x.2, ?_, ?_⟩
  · rw [recognisedOperation, ← hroute, hlookup x hx]
  · have hmatch := hdispatch x hx
    rwa [hroute] at hmatch

theorem lookup_other {method : Method} {path : String} (h : (method, path) ∉ controllerRoutes) :
    exposedOperations.lookup (method, path) = none := by
  rw [List.lookup_eq_none_iff]
  intro x hx
  have hne : (method, path) ≠ x.1 := by
    rintro heq
    rw [heq, ← exposedOperations_routes] at h
    exact h (List.mem_map_of_mem hx)
  simpa using hne

/-! ### The families -/

section Families

variable {decode : String → String} {method : Method}

/-- The only segment of a text is the text. -/
theorem segment_eq {suffix id : String} (h : (suffix.toList.splitOn '/').map String.ofList = [id]) :
    suffix = id := by
  obtain ⟨part, hsplit, rfl⟩ := List.map_eq_singleton_iff.1 h
  have hjoin : ['/'].intercalate (suffix.toList.splitOn '/') = suffix.toList := List.intercalate_splitOn '/'
  rw [hsplit] at hjoin
  rw [← String.toList_inj, String.toList_ofList, ← hjoin]
  simp [List.intercalate]

theorem recognised_hermesfile {suffix : String}
    (hother : (method, "/api/v1/hermesfiles/" ++ suffix) ∉ controllerRoutes) :
    recognisedOperation method ("/api/v1/hermesfiles/" ++ suffix) = recognisedHermesfile method suffix := by
  rw [recognisedOperation, lookup_other hother]
  simp only [behind_append]

theorem get_hermesfile {suffix : String} (hother : suffix ≠ "template") :
    controllerOperation decode .get ("/api/v1/hermesfiles/" ++ suffix) = hermesfileOperation decode suffix := by
  have hkept : (handleGet.filter fun b => ¬b.skips "/api/v1/hermesfiles/") =
      [.exactly "/api/v1/hermesfiles/template" .getHermesfileTemplate, .hermesfile] := rfl
  have hne : "/api/v1/hermesfiles/" ++ suffix ≠ "/api/v1/hermesfiles/template" := by
    intro heq
    have hbehind := behind_append "/api/v1/hermesfiles/" suffix
    rw [heq] at hbehind
    exact hother (Option.some.inj (hbehind.symm.trans rfl))
  rw [controllerOperation, dispatch_kept, hkept, dispatch, List.findSome?_cons, Branch.decides, if_neg hne,
    List.findSome?_cons, Branch.decides, behind_append]
  rfl

theorem hermesfileOperation_eq (decode : String → String) {suffix : String} (h : isHermesfileRoute .get suffix = true) :
    hermesfileOperation decode suffix = recognisedHermesfile .get suffix ∧
      (recognisedHermesfile .get suffix).isSome := by
  have hsegments : ((suffix.toList.splitOn '/').map fun part => unquote decode (String.ofList part)) =
      ((suffix.toList.splitOn '/').map String.ofList).map (unquote decode) := by
    rw [List.map_map]
    rfl
  have hrevisions : unquote decode "revisions" = "revisions" := unquote_plain (by decide)
  have hdiff : unquote decode "diff" = "diff" := unquote_plain (by decide)
  rw [hermesfileOperation, hsegments, recognisedHermesfile]
  unfold isHermesfileRoute at h
  generalize (suffix.toList.splitOn '/').map String.ofList = segments at h ⊢
  match segments, h with
  | [id], h =>
    have hid := IsPlain.of_sandboxId (Bool.and_eq_true_iff.1 h).2
    simp [unquote_plain hid.percent, hid.nonempty.symm]
  | [id, part], h =>
    simp only [Bool.and_eq_true, decide_eq_true_eq, List.mem_cons, List.not_mem_nil, or_false] at h
    obtain ⟨⟨-, hpart⟩, hsandbox⟩ := h
    have hid := IsPlain.of_sandboxId hsandbox
    rcases hpart with rfl | rfl
    · simp [unquote_plain hid.percent, hid.nonempty.symm, hrevisions]
    · simp [unquote_plain hid.percent, hid.nonempty.symm, hdiff]
  | [id, part, revision], h =>
    simp only [Bool.and_eq_true, decide_eq_true_eq] at h
    obtain ⟨⟨⟨-, rfl⟩, hsandbox⟩, hnumber⟩ := h
    have hid := IsPlain.of_sandboxId hsandbox
    have hrevision := IsPlain.of_revision hnumber
    simp [unquote_plain hid.percent, unquote_plain hrevision.percent, hid.nonempty.symm,
      hrevision.nonempty.symm, hrevisions]

theorem isPatchPath_hermesfile {id : String} (hid : IsPlain id) :
    isPatchPath ("/api/v1/hermesfiles/" ++ id) = true := by
  rw [isPatchPath, behind_other _ _ (by decide) (by decide), behind_append, Option.none_or, Option.map_some,
    Option.getD_some]
  exact decide_eq_true hid.slash

theorem isPatchPath_project {id : String} (hid : IsPlain id) :
    isPatchPath ("/api/v1/projects/" ++ id) = true := by
  rw [isPatchPath, behind_append, Option.some_or, Option.map_some, Option.getD_some]
  exact decide_eq_true hid.slash

theorem patch_hermesfile {id : String} (hid : IsPlain id) :
    controllerOperation decode .patch ("/api/v1/hermesfiles/" ++ id) = some (.updateHermesfile id) := by
  have hkept : (protectedPatch.filter fun b => ¬b.skips "/api/v1/hermesfiles/") =
      [.item "/api/v1/hermesfiles/" "" .updateHermesfile] := rfl
  rw [controllerOperation, if_pos (isPatchPath_hermesfile hid), dispatch_kept, hkept, dispatch,
    List.findSome?_cons, decides_item hid]
  rfl

theorem patch_project {id : String} (hid : IsPlain id) :
    controllerOperation decode .patch ("/api/v1/projects/" ++ id) = some (.updateProject id) := by
  have hkept : (protectedPatch.filter fun b => ¬b.skips "/api/v1/projects/") =
      [.item "/api/v1/projects/" "" .updateProject] := rfl
  rw [controllerOperation, if_pos (isPatchPath_project hid), dispatch_kept, hkept, dispatch,
    List.findSome?_cons, decides_item hid]
  rfl

theorem get_operation {id : String} (hid : IsPlain id) :
    controllerOperation decode .get ("/api/v1/operations/" ++ id) = some (.getOperation id) := by
  have hkept : (handleGet.filter fun b => ¬b.skips "/api/v1/operations/") =
      [.item "/api/v1/operations/" "" .getOperation] := rfl
  rw [controllerOperation, dispatch_kept, hkept, dispatch, List.findSome?_cons, decides_item hid]
  rfl

theorem get_objective {id : String} (hid : IsPlain id) (hne : id ≠ "tasks") :
    controllerOperation decode .get ("/api/v1/objectives/" ++ id) = some (.getObjective id) := by
  have hkept : (handleGet.filter fun b => ¬b.skips "/api/v1/objectives/") =
      [.item "/api/v1/objectives/" "/tasks" .listObjectiveTasks,
        .item "/api/v1/objectives/" "" .getObjective] := rfl
  rw [controllerOperation, dispatch_kept, hkept, dispatch, List.findSome?_cons,
    decides_trail (l := "/api/v1/objectives".toList) (t := "tasks".toList) hid rfl rfl (by decide)
      (fun heq => hne (String.toList_inj.1 heq)), List.findSome?_cons, decides_item hid]
  rfl

/-- A project that is not named `objectives` is read under its name. -/
theorem get_project {id : String} (hid : IsPlain id) (hne : id ≠ "objectives") :
    controllerOperation decode .get ("/api/v1/projects/" ++ id) = some (.getProject id) := by
  have hkept : (handleGet.filter fun b => ¬b.skips "/api/v1/projects/") =
      [.item "/api/v1/projects/" "/objectives" .listProjectObjectives,
        .item "/api/v1/projects/" "" .getProject] := rfl
  rw [controllerOperation, dispatch_kept, hkept, dispatch, List.findSome?_cons,
    decides_trail (l := "/api/v1/projects".toList) (t := "objectives".toList) hid rfl rfl (by decide)
      (fun heq => hne (String.toList_inj.1 heq)), List.findSome?_cons, decides_item hid]
  rfl

/-- The Controller reads the objectives of a project without a name, and finds no route. -/
theorem get_project_objectives :
    controllerOperation decode .get "/api/v1/projects/objectives" = none := by rfl

theorem post_projectCommand (decode : String → String) {suffix : String}
    (hroute : isCommandRoute isProjectId projectCommands suffix = true) :
    controllerOperation decode .post ("/api/v1/projects/" ++ suffix) =
        recognisedCommand .commandProject suffix ∧
      (recognisedCommand .commandProject suffix).isSome := by
  have hkept : (protectedPost.filter fun b => ¬b.skips "/api/v1/projects/") =
      [.command "/api/v1/projects/" .commandProject] := rfl
  obtain ⟨hdecides, hsome, hmarker⟩ := decides_command decode "/api/v1/projects/" hroute
    (fun _ => IsPlain.of_projectId) (by decide) .commandProject
  have hpost : isPostPath ("/api/v1/projects/" ++ suffix) = true := by
    refine decide_eq_true (.inr (.inl ?_))
    rw [isCommandOf, behind_append, Option.any_some, hmarker]
  refine ⟨?_, hsome⟩
  rw [controllerOperation, if_pos hpost, dispatch_kept, hkept, dispatch, List.findSome?_cons, hdecides]
  rfl

theorem post_objectiveCommand (decode : String → String) {suffix : String}
    (hroute : isCommandRoute isObjectiveId objectiveCommands suffix = true) :
    controllerOperation decode .post ("/api/v1/objectives/" ++ suffix) =
        recognisedCommand .commandObjective suffix ∧
      (recognisedCommand .commandObjective suffix).isSome := by
  have hkept : (protectedPost.filter fun b => ¬b.skips "/api/v1/objectives/") =
      [.command "/api/v1/objectives/" .commandObjective] := rfl
  obtain ⟨hdecides, hsome, hmarker⟩ := decides_command decode "/api/v1/objectives/" hroute
    (fun _ => IsPlain.of_objectiveId) (by decide) .commandObjective
  have hpost : isPostPath ("/api/v1/objectives/" ++ suffix) = true := by
    refine decide_eq_true (.inr (.inr (.inl ?_)))
    rw [isCommandOf, behind_append, Option.any_some, hmarker]
  refine ⟨?_, hsome⟩
  rw [controllerOperation, if_pos hpost, dispatch_kept, hkept, dispatch, List.findSome?_cons, hdecides]
  rfl

/-- The path that the two routers read differently. -/
def isObjectivesProject (method : Method) (path : String) : Prop :=
  method = .get ∧ path = "/api/v1/projects/objectives"

theorem agree_hermesfile {suffix : String} (hroute : isHermesfileRoute method suffix = true)
    (hother : (method, "/api/v1/hermesfiles/" ++ suffix) ∉ controllerRoutes) :
    Agree decode method ("/api/v1/hermesfiles/" ++ suffix) := by
  have hrecognised := recognised_hermesfile hother
  by_cases hget : method = .get
  · subst hget
    have hne : suffix ≠ "template" := by
      rintro rfl
      exact absurd hroute (by decide)
    obtain ⟨heq, hsome⟩ := hermesfileOperation_eq decode hroute
    obtain ⟨operation, hoperation⟩ := Option.isSome_iff_exists.1 hsome
    exact ⟨operation, hrecognised.trans hoperation, (get_hermesfile hne).trans (heq.trans hoperation)⟩
  · -- only an update is left, of the sandbox that is the whole suffix
    obtain ⟨hmethod, id, hsegments, hid⟩ : method = .patch ∧ ∃ id,
        (suffix.toList.splitOn '/').map String.ofList = [id] ∧ isSandboxId id = true := by
      unfold isHermesfileRoute at hroute
      split at hroute
      · rename_i id hsegments
        obtain ⟨hmethod, hid⟩ := Bool.and_eq_true_iff.1 hroute
        exact ⟨(of_decide_eq_true hmethod).resolve_left hget, id, hsegments, hid⟩
      · simp [hget] at hroute
      · simp [hget] at hroute
      · exact absurd hroute Bool.false_ne_true
    subst hmethod
    refine ⟨.updateHermesfile id, ?_, ?_⟩
    · rw [hrecognised, recognisedHermesfile, hsegments]
      rfl
    · rw [segment_eq hsegments]
      exact patch_hermesfile (IsPlain.of_sandboxId hid)

theorem agree_operation {id : String} (hid : isOperationId id = true)
    (hother : (.get, "/api/v1/operations/" ++ id) ∉ controllerRoutes) :
    Agree decode .get ("/api/v1/operations/" ++ id) := by
  refine ⟨.getOperation id, ?_, get_operation (IsPlain.of_operationId hid)⟩
  rw [recognisedOperation, lookup_other hother]
  simp only [behind_other "/api/v1/operations/" "/api/v1/hermesfiles/" (by decide) (by decide), behind_append]

/-- Behind `/api/v1/objectives/` the last tests decide. -/
theorem recognised_objective {suffix : String}
    (hother : (method, "/api/v1/objectives/" ++ suffix) ∉ controllerRoutes) :
    recognisedOperation method ("/api/v1/objectives/" ++ suffix) =
      if method = .get then some (.getObjective suffix) else recognisedCommand .commandObjective suffix := by
  rw [recognisedOperation, lookup_other hother]
  simp only [behind_other "/api/v1/objectives/" "/api/v1/hermesfiles/" (by decide) (by decide),
    behind_other "/api/v1/objectives/" "/api/v1/operations/" (by decide) (by decide), behind_append]

theorem recognised_project {suffix : String}
    (hother : (method, "/api/v1/projects/" ++ suffix) ∉ controllerRoutes) :
    recognisedOperation method ("/api/v1/projects/" ++ suffix) =
      if method = .get then some (.getProject suffix)
      else if method = .patch then some (.updateProject suffix)
      else recognisedCommand .commandProject suffix := by
  rw [recognisedOperation, lookup_other hother]
  simp only [behind_other "/api/v1/projects/" "/api/v1/hermesfiles/" (by decide) (by decide),
    behind_other "/api/v1/projects/" "/api/v1/operations/" (by decide) (by decide),
    behind_other "/api/v1/projects/" "/api/v1/objectives/" (by decide) (by decide), behind_append]

theorem agree_objective {id : String} (hid : isObjectiveId id = true)
    (hother : (.get, "/api/v1/objectives/" ++ id) ∉ controllerRoutes) :
    Agree decode .get ("/api/v1/objectives/" ++ id) := by
  refine ⟨.getObjective id, (recognised_objective hother).trans (if_pos rfl),
    get_objective (IsPlain.of_objectiveId hid) ?_⟩
  rintro rfl
  exact absurd hid (by decide)

theorem agree_objectiveCommand {suffix : String}
    (hroute : isCommandRoute isObjectiveId objectiveCommands suffix = true)
    (hother : (.post, "/api/v1/objectives/" ++ suffix) ∉ controllerRoutes) :
    Agree decode .post ("/api/v1/objectives/" ++ suffix) := by
  obtain ⟨heq, hsome⟩ := post_objectiveCommand decode hroute
  obtain ⟨operation, hoperation⟩ := Option.isSome_iff_exists.1 hsome
  refine ⟨operation, ?_, heq.trans hoperation⟩
  rw [recognised_objective hother, if_neg (by decide), hoperation]

theorem agree_projectCommand {suffix : String}
    (hroute : isCommandRoute isProjectId projectCommands suffix = true)
    (hother : (.post, "/api/v1/projects/" ++ suffix) ∉ controllerRoutes) :
    Agree decode .post ("/api/v1/projects/" ++ suffix) := by
  obtain ⟨heq, hsome⟩ := post_projectCommand decode hroute
  obtain ⟨operation, hoperation⟩ := Option.isSome_iff_exists.1 hsome
  refine ⟨operation, ?_, heq.trans hoperation⟩
  rw [recognised_project hother, if_neg (by decide), if_neg (by decide), hoperation]

/-- Projects are read and updated under their names, but for the one whose name is a trail. -/
theorem agree_project {id : String} (hmethod : method = .get ∨ method = .patch) (hid : isProjectId id = true)
    (hother : (method, "/api/v1/projects/" ++ id) ∉ controllerRoutes)
    (hnot : ¬isObjectivesProject method ("/api/v1/projects/" ++ id)) :
    Agree decode method ("/api/v1/projects/" ++ id) := by
  have hplain := IsPlain.of_projectId hid
  have hrecognised := recognised_project hother
  rcases hmethod with rfl | rfl
  · refine ⟨.getProject id, hrecognised.trans (if_pos rfl), get_project hplain ?_⟩
    rintro rfl
    exact hnot ⟨rfl, rfl⟩
  · refine ⟨.updateProject id, ?_, patch_project hplain⟩
    rw [hrecognised, if_neg (by decide), if_pos rfl]

theorem agree_family {path : String} (h : IsFamilyRoute method path)
    (hother : (method, path) ∉ controllerRoutes) (hnot : ¬isObjectivesProject method path) :
    Agree decode method path := by
  cases h with
  | hermesfile suffix hroute => exact agree_hermesfile hroute hother
  | operation id hmethod hid =>
    subst hmethod
    exact agree_operation hid hother
  | objective id hmethod hid =>
    subst hmethod
    exact agree_objective hid hother
  | objectiveCommand suffix hmethod hroute =>
    subst hmethod
    exact agree_objectiveCommand hroute hother
  | project id hmethod hid => exact agree_project hmethod hid hother hnot
  | projectCommand suffix hmethod hroute =>
    subst hmethod
    exact agree_projectCommand hroute hother

end Families

/-! ### What is forwarded -/

/-- What `_controller_route_exposed` recognises is what the Controller does, but for one path. -/
theorem recognised_dispatch {method : Method} {url : Url} (decode : String → String)
    (h : isExposed method url = true) :
    ∃ operation, recognised method url = some operation ∧
      (controllerOperation decode method url.path = some operation ↔ ¬isObjectivesProject method url.path) := by
  have hrecognised : recognised method url = recognisedOperation method url.path := if_pos h
  rw [hrecognised]
  by_cases hfixed : (method, url.path) ∈ controllerRoutes
  · obtain ⟨operation, hoperation, hdispatch⟩ := agree_fixed hfixed decode
    refine ⟨operation, hoperation, iff_of_true hdispatch ?_⟩
    rintro ⟨rfl, hpath⟩
    rw [hpath] at hfixed
    exact absurd hfixed (by decide)
  · have hfamily := isExposed_routes h hfixed
    by_cases hnot : isObjectivesProject method url.path
    · obtain ⟨rfl, hpath⟩ := hnot
      refine ⟨.getProject "objectives", ?_, iff_of_false ?_ (not_not_intro ⟨rfl, hpath⟩)⟩
      · rw [hpath]
        rfl
      · rw [hpath, get_project_objectives]
        exact nofun
    · obtain ⟨operation, hoperation, hdispatch⟩ : Agree decode method url.path := agree_family hfamily hfixed hnot
      exact ⟨operation, hoperation, iff_of_true hdispatch hnot⟩

/-- The event stream is not exposed. -/
theorem path_ne_websocket {method : Method} {url : Url} (h : isExposed method url = true) :
    url.path ≠ websocketPath := by
  intro hpath
  have hlead : ∀ {lead rest : String}, lead ++ rest = websocketPath →
      lead.toList <+: websocketPath.toList := by
    rintro lead rest heq
    rw [← heq, String.toList_append]
    exact List.prefix_append _ _
  by_cases hfixed : (method, url.path) ∈ controllerRoutes
  · have hnone : ∀ x ∈ controllerRoutes, x.2 ≠ websocketPath := by decide
    exact hnone _ hfixed hpath
  · have hfamily := isExposed_routes h hfixed
    rw [hpath] at hfamily
    generalize heq : websocketPath = path at hfamily
    cases hfamily with
    | hermesfile suffix hroute => exact absurd (hlead heq.symm) (by decide)
    | operation id hmethod hid => exact absurd (hlead heq.symm) (by decide)
    | objective id hmethod hid => exact absurd (hlead heq.symm) (by decide)
    | objectiveCommand suffix hmethod hroute => exact absurd (hlead heq.symm) (by decide)
    | project id hmethod hid => exact absurd (hlead heq.symm) (by decide)
    | projectCommand suffix hmethod hroute => exact absurd (hlead heq.symm) (by decide)

section Forwarding

variable {s : ProxySite} {r : Request} {e : Exchange} {input : List UInt8} {f : ProxyRequest}

/-- The target that the Console puts together is read as it read the target of the request. -/
theorem urlSplit_rebuilt {valid : String → Bool} {target : String} {url : Url}
    (h : urlSplit valid target = some url) (hfragment : url.fragment = "")
    (hapi : isApiPath url.rebuilt = true) : urlSplit valid url.rebuilt = some url := by
  have hsplit := urlSplit_split h
  obtain ⟨rest, hrest⟩ := Option.isSome_iff_exists.1 hapi
  have hrooted : url.rebuilt.toList = '/' :: 'a' :: ("pi/".toList ++ rest.toList) := by
    rw [behind_some hrest, String.toList_append]
    rfl
  have hkept : ∀ c ∈ url.rebuilt.toList, isRemoved c = false := by
    intro c hc
    rw [Url.rebuilt, String.toList_append, List.mem_append] at hc
    rcases hc with hc | hc
    · exact hsplit.kept c (List.mem_append_left _ hc)
    · split at hc
      · exact absurd hc (List.not_mem_nil)
      · rw [String.toList_append, List.mem_append] at hc
        rcases hc with hc | hc
        · rw [List.mem_singleton.1 hc]
          rfl
        · exact hsplit.kept c (List.mem_append_right _ hc)
  rw [urlSplit_rooted hrooted (by decide) hkept, parts_rebuilt hsplit, ← hfragment]

/-- What lets a request pass to the Controller. -/
structure Passes (s : ProxySite) (r : Request) (f : ProxyRequest) (url : Url) : Prop where
  method : f.method = r.method
  read : urlSplit s.validNetloc r.target = some url
  target : f.target = url.rebuilt
  fragment : url.fragment = ""
  api : isApiPath f.target = true
  exposed : routeExposed s.console f.method f.target = some true
  origin : validatedOrigin s.console r f.method = true
  headers : f.headers = proxyRequestHeaders s r f.method

theorem parsedPath_some {c : ConsoleSite} {method : Method} {path : String}
    (h : parsedPath c r method = some (some path)) :
    ∃ url, c.split r.target = some url ∧ path = url.rebuilt ∧ url.fragment = "" := by
  obtain ⟨url, hurl, hpath⟩ := Option.bind_eq_some_iff.1 h
  refine ⟨url, hurl, ?_⟩
  dsimp only at hpath
  split at hpath
  · exact absurd hpath (by simp)
  · rename_i hclean
    have hfragment : url.fragment = "" := by
      by_contra hne
      exact hclean (.inl hne)
    split at hpath
    · rename_i hquery
      refine ⟨?_, hfragment⟩
      rw [← Option.some.inj (Option.some.inj hpath), Url.rebuilt, if_pos hquery]
    · rename_i hquery
      obtain ⟨exposed, -, hexposed⟩ := Option.map_eq_some_iff.1 hpath
      split at hexposed
      · refine ⟨?_, hfragment⟩
        rw [← Option.some.inj hexposed, Url.rebuilt, if_neg hquery]
      · exact absurd hexposed (by simp)

theorem forwardedAs_passes {method : Method} (hmethod : r.method = method)
    (h : forwardedAs s r e method input = some f) : ∃ url, Passes s r f url := by
  unfold forwardedAs at h
  split at h
  · split at h
    · rename_i path hpath
      obtain ⟨url, hread, htarget, hfragment⟩ := parsedPath_some hpath
      split at h
      · rename_i hapi
        unfold proxied at h
        split at h
        · rename_i hchecks
          obtain ⟨body, -, rfl⟩ := Option.map_eq_some_iff.1 h
          exact ⟨url, hmethod.symm, hread, htarget, hfragment, hapi, hchecks.1, hchecks.2.2.1, rfl⟩
        · exact absurd h (by simp)
      · exact absurd h (by simp)
    · exact absurd h (by simp)
  · exact absurd h (by simp)

theorem forwarded_passes (h : forwarded s r e input = some f) : ∃ url, Passes s r f url := by
  unfold forwarded at h
  split at h
  · rename_i hmethod
    exact forwardedAs_passes hmethod h
  · rename_i hmethod
    exact forwardedAs_passes hmethod h
  · rename_i hmethod
    exact forwardedAs_passes hmethod h
  · exact absurd h (by simp)
  · exact absurd h (by simp)
  · exact absurd h (by simp)

theorem Passes.reread {url : Url} (h : Passes s r f url) : urlSplit s.validNetloc f.target = some url := by
  have hapi := h.api
  rw [h.target] at hapi ⊢
  exact urlSplit_rebuilt h.read h.fragment hapi

theorem Passes.isExposed {url : Url} (h : Passes s r f url) : isExposed f.method url = true := by
  obtain ⟨reread, hreread, hexposed⟩ := Option.map_eq_some_iff.1 h.exposed
  have hsame : reread = url := Option.some.inj (hreread.symm.trans h.reread)
  rwa [hsame] at hexposed

/-- The Controller dispatches the path that the Console read, and hands on the query that it read. -/
theorem Passes.dispatch {url : Url} (h : Passes s r f url) (decode : String → String) :
    controllerDispatch s.validNetloc decode f.method f.target =
      (controllerOperation decode f.method url.path).map fun operation => (operation, url.query) := by
  have hsplit := urlSplit_split h.read
  have hpath : upTo '?' f.target.toList = url.path.toList := by
    have hmark : upTo '?' url.rebuilt.toList = url.path.toList := by
      by_cases hquery : url.query = ""
      · rw [Url.rebuilt, if_pos hquery, String.append_empty, upTo_of_not_mem hsplit.pathMarks.2]
      · rw [Url.rebuilt, if_neg hquery, String.toList_append, String.toList_append]
        exact upTo_append_cons hsplit.pathMarks.2
    rw [h.target, hmark]
  have hstream : ¬(f.method = .get ∧ upTo '?' f.target.toList = websocketPath.toList) := by
    rintro ⟨-, hevents⟩
    rw [hpath] at hevents
    exact path_ne_websocket h.isExposed (String.toList_inj.1 hevents)
  rw [controllerDispatch, if_neg hstream, h.reread, Option.bind_some]

/-- A read has no body. -/
theorem proxyLength_get {length : Nat} (h : proxyLength r .get = some length) : length = 0 := by
  unfold proxyLength at h
  split at h
  · exact absurd h (by simp)
  split at h
  · exact absurd h (by simp)
  split at h
  · exact absurd h (by simp)
  split at h
  · exact absurd h (by simp)
  · rename_i hget
    split at h
    · exact absurd h (by simp)
    · rename_i announced _ _ _
      have hzero : announced = 0 := by
        by_contra hne
        exact hget ⟨rfl, hne⟩
      rw [← Option.some.inj h, hzero]
      rfl

/-- What is sent is answered by the Controller, and its body is read off the connection. -/
theorem proxied_relays {method : Method} {path : String} (hmethod : isMutation method = true ∨ method = .get)
    (h : proxied s r e method path input = some f) :
    proxyController s.console r e method path input = relay r e (f.body.elim 0 List.length) := by
  unfold proxied at h
  split at h
  · rename_i hchecks
    obtain ⟨hexposed, hsingle, horigin, -⟩ := hchecks
    obtain ⟨body, hbody, rfl⟩ := Option.map_eq_some_iff.1 h
    obtain ⟨length, hlength, hread⟩ := Option.bind_eq_some_iff.1 hbody
    split at hread
    · exact absurd hread (by simp)
    · rename_i hcomplete
      obtain rfl := Option.some.inj hread
      have hle : length ≤ input.length := by
        by_contra hlt
        exact hcomplete ⟨by omega, .inr (by omega)⟩
      have hsize : (if isMutation method then some (input.take length) else none).elim 0 List.length = length := by
        cases hmutation : isMutation method with
        | true => simp [hle]
        | false =>
          obtain rfl := hmethod.resolve_left (by simp [hmutation])
          exact (proxyLength_get hlength).symm
      dsimp only
      rw [hsize]
      rw [proxyController, hexposed]
      simp only [hlength, hsingle, horigin, not_true, or_self, if_false]
      rw [if_neg hcomplete]
  · exact absurd h (by simp)

theorem forwardedAs_relays {method : Method} (hmethod : isMutation method = true ∨ method = .get)
    (h : forwardedAs s r e method input = some f) :
    ∃ path, validHost s.console r = true ∧ parsedPath s.console r method = some (some path) ∧
      isApiPath path = true ∧
      proxyController s.console r e method path input = relay r e (f.body.elim 0 List.length) := by
  unfold forwardedAs at h
  split at h
  · rename_i hhost
    split at h
    · rename_i path hpath
      split at h
      · rename_i hapi
        exact ⟨path, hhost, hpath, hapi, proxied_relays hmethod h⟩
      · exact absurd h (by simp)
    · exact absurd h (by simp)
  · exact absurd h (by simp)

/-- Where a request is forwarded, the handler relays the answer to it. -/
theorem forwarded_relays (h : forwarded s r e input = some f) :
    consoleHandle s.console r e input = relay r e (f.body.elim 0 List.length) := by
  unfold forwarded at h
  unfold consoleHandle
  split at h
  · rename_i hmethod
    obtain ⟨path, hhost, hpath, hapi, hrelay⟩ := forwardedAs_relays (.inr rfl) h
    rw [hmethod]
    simp only [serveStatic, hhost, hpath, hapi, not_true, if_false, if_true, Bool.false_eq_true, hrelay]
  · rename_i hmethod
    obtain ⟨path, hhost, hpath, hapi, hrelay⟩ := forwardedAs_relays (.inl rfl) h
    rw [hmethod]
    simp only [serveMutation, hhost, hpath, hapi, not_true, if_false, if_true, hrelay]
  · rename_i hmethod
    obtain ⟨path, hhost, hpath, hapi, hrelay⟩ := forwardedAs_relays (.inl rfl) h
    rw [hmethod]
    simp only [serveMutation, hhost, hpath, hapi, not_true, if_false, if_true, hrelay]
  · exact absurd h (by simp)
  · exact absurd h (by simp)
  · exact absurd h (by simp)

/-- A field that the browser sent once, and that the Console hands on. -/
theorem allowedField_some {name : String} {field : String × String} (h : allowedField r name = some field) :
    field.1 = name ∧ r.getAll name = [field.2] := by
  unfold allowedField at h
  split at h
  · rename_i value hvalue
    split at h
    · obtain rfl := Option.some.inj h
      exact ⟨rfl, hvalue⟩
    · exact absurd h (by simp)
  · exact absurd h (by simp)

theorem mem_proxyRequestHeaders {method : Method} {field : String × String}
    (h : field ∈ proxyRequestHeaders s r method) :
    field = ("Host", s.controllerHost ++ ":" ++ toString s.controllerPort) ∨ field = ("Connection", "close") ∨
      field = ("Origin", s.controllerOrigin) ∨
      field.1 ∈ requestHeaderAllowlist ∧ r.getAll field.1 = [field.2] := by
  have hfield : field ∈ [("Host", s.controllerHost ++ ":" ++ toString s.controllerPort),
      ("Connection", "close"), ("Origin", s.controllerOrigin)] ++
        requestHeaderAllowlist.filterMap (allowedField r) := by
    unfold proxyRequestHeaders at h
    dsimp only at h
    split at h
    · exact (List.mem_filter.1 h).1
    · exact h
  rcases List.mem_append.1 hfield with hfixed | hallowed
  · simp only [List.mem_cons, List.not_mem_nil, or_false] at hfixed
    tauto
  · obtain ⟨name, hname, hsome⟩ := List.mem_filterMap.1 hallowed
    obtain ⟨rfl, hvalue⟩ := allowedField_some hsome
    exact .inr (.inr (.inr ⟨hname, hvalue⟩))

/-- No field is named twice. -/
theorem nodup_proxyRequestHeaders (method : Method) :
    ((proxyRequestHeaders s r method).map Prod.fst).Nodup := by
  have hsub : ∀ names : List String, ((names.filterMap (allowedField r)).map Prod.fst).Sublist names := by
    intro names
    induction names with
    | nil => exact List.Sublist.refl _
    | cons name names ih =>
      cases hfield : allowedField r name with
      | none =>
        rw [List.filterMap_cons_none hfield]
        exact ih.cons name
      | some field =>
        rw [List.filterMap_cons_some hfield, List.map_cons, (allowedField_some hfield).1]
        exact ih.cons_cons name
  have hall : (((([("Host", s.controllerHost ++ ":" ++ toString s.controllerPort), ("Connection", "close"),
      ("Origin", s.controllerOrigin)] : List (String × String)) ++
        requestHeaderAllowlist.filterMap (allowedField r))).map Prod.fst).Nodup := by
    have hnames : (["Host", "Connection", "Origin"] ++ requestHeaderAllowlist).Nodup := by decide
    refine List.Nodup.sublist ?_ hnames
    rw [List.map_append]
    exact (List.Sublist.refl _).append (hsub _)
  unfold proxyRequestHeaders
  dsimp only
  split
  · exact hall.sublist (List.filter_sublist.map _)
  · exact hall

/-- A mutation is let through with a single origin only, that of the Console. -/
theorem Passes.single_origin {url : Url} (h : Passes s r f url) (hmutation : isMutation f.method = true) :
    r.getAll "origin" = [browserOrigin s.console] := by
  rcases of_decide_eq_true h.origin with horigin | ⟨hread, -⟩
  · exact horigin
  · exact absurd hmutation hread

/-- The request that is sent asks the Controller for what the Console recognised: both read the same target,
    the dispatch finds the operation with its identifiers and its command, and no field of the browser but
    single values of allowed names goes along. -/
structure ForwardsExactly (s : ProxySite) (decode : String → String) (r : Request) (f : ProxyRequest) : Prop where
  read : ∃ url operation, urlSplit s.validNetloc r.target = some url ∧
    urlSplit s.validNetloc f.target = some url ∧ recognised f.method url = some operation ∧
    controllerDispatch s.validNetloc decode f.method f.target = some (operation, url.query)
  method : f.method = r.method
  fields : ∀ field ∈ f.headers,
    field = ("Host", s.controllerHost ++ ":" ++ toString s.controllerPort) ∨ field = ("Connection", "close") ∨
      field = ("Origin", s.controllerOrigin) ∨ field.1 ∈ requestHeaderAllowlist ∧ r.getAll field.1 = [field.2]
  single : (f.headers.map Prod.fst).Nodup
  origin : isMutation f.method = true → r.getAll "origin" = [browserOrigin s.console]

/-- The Console reads the path of the project `objectives` in the target of a `GET`. -/
def ReadsObjectivesProject (s : ProxySite) (r : Request) : Prop :=
  ∃ url, urlSplit s.validNetloc r.target = some url ∧ isObjectivesProject r.method url.path

/-- A request is forwarded exactly, unless it reads the project `objectives`. -/
theorem forwarded_exactly_iff {s : ProxySite} {r : Request} {e : Exchange} {input : List UInt8}
    {f : ProxyRequest} (decode : String → String) (h : forwarded s r e input = some f) :
    ForwardsExactly s decode r f ↔ ¬ReadsObjectivesProject s r := by
  obtain ⟨url, hpass⟩ := forwarded_passes h
  obtain ⟨operation, hrecognised, hdispatch⟩ := recognised_dispatch decode hpass.isExposed
  have hnot : ReadsObjectivesProject s r ↔ isObjectivesProject f.method url.path := by
    rw [hpass.method]
    constructor
    · rintro ⟨other, hother, hproject⟩
      rwa [Option.some.inj (hother.symm.trans hpass.read)] at hproject
    · intro hproject
      exact ⟨url, hpass.read, hproject⟩
  rw [hnot, ← hdispatch]
  constructor
  · rintro ⟨⟨other, found, hother, -, hfound, hanswer⟩, -⟩
    obtain rfl := Option.some.inj (hother.symm.trans hpass.read)
    obtain rfl := Option.some.inj (hfound.symm.trans hrecognised)
    rw [hpass.dispatch, Option.map_eq_some_iff] at hanswer
    obtain ⟨op, hop, hpair⟩ := hanswer
    rw [hop, (Prod.mk.inj hpair).1]
  · intro hanswer
    refine ⟨⟨url, operation, hpass.read, hpass.reread, hrecognised, ?_⟩, hpass.method, ?_, ?_,
      hpass.single_origin⟩
    · rw [hpass.dispatch, hanswer, Option.map_some]
    · intro field hfield
      rw [hpass.headers] at hfield
      exact mem_proxyRequestHeaders hfield
    · rw [hpass.headers]
      exact nodup_proxyRequestHeaders f.method

end Forwarding

/-! ### Two requests -/

/-- The default settings. -/
def defaultSite : ProxySite where
  host := "127.0.0.1"
  port := 8788
  controllerHost := "127.0.0.1"
  controllerPort := 8765
  controllerOrigin := "http://127.0.0.1:8787"
  validNetloc := fun _ => true

def quietExchange : Exchange := ⟨true, true, .ok ()⟩

def enableAlpha : Request where
  method := .post
  target := "/api/v1/projects/alpha/commands/enable"
  headers := [("host", "127.0.0.1:8788"), ("origin", "http://127.0.0.1:8788"),
    ("content-type", "application/json"), ("content-length", "2"), ("if-match", "\"3\"")]
  closes := false

def enableAlphaForwarded : ProxyRequest where
  method := .post
  target := "/api/v1/projects/alpha/commands/enable"
  headers := [("Host", "127.0.0.1:8765"), ("Connection", "close"), ("Origin", "http://127.0.0.1:8787"),
    ("content-type", "application/json"), ("if-match", "\"3\"")]
  body := some [123, 125]

/-- A command reaches the Controller as the Console recognised it. -/
theorem enableAlpha_exactly : ForwardsExactly defaultSite id enableAlpha enableAlphaForwarded := by
  have hforwarded : forwarded defaultSite enableAlpha quietExchange [123, 125] = some enableAlphaForwarded := by
    rfl
  refine (forwarded_exactly_iff id hforwarded).2 ?_
  rintro ⟨url, -, hget, -⟩
  exact absurd hget (by decide)

def readObjectivesProject : Request where
  method := .get
  target := "/api/v1/projects/objectives"
  headers := [("host", "127.0.0.1:8788")]
  closes := false

def objectivesProjectForwarded : ProxyRequest where
  method := .get
  target := "/api/v1/projects/objectives"
  headers := [("Host", "127.0.0.1:8765"), ("Connection", "close"), ("Origin", "http://127.0.0.1:8787")]
  body := none

/-- The project `objectives` is forwarded as a project, and the Controller finds no route. -/
theorem objectivesProject_misread :
    ¬∀ (s : ProxySite) (decode : String → String) (r : Request) (e : Exchange) (input : List UInt8)
        (f : ProxyRequest), forwarded s r e input = some f → ForwardsExactly s decode r f := by
  intro hall
  have hforwarded : forwarded defaultSite readObjectivesProject quietExchange [] =
      some objectivesProjectForwarded := by rfl
  obtain ⟨url, operation, -, -, -, hdispatch⟩ := (hall _ id _ _ _ _ hforwarded).read
  have hnone : controllerDispatch defaultSite.validNetloc id .get "/api/v1/projects/objectives" = none := by
    decide
  exact absurd (hnone.symm.trans hdispatch) nofun

end HermesOps.Http
