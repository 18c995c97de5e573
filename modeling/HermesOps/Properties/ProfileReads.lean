import HermesOps.Properties.ProfileRevisions
import HermesOps.Properties.ProfileSources
import HermesOps.Schemes.Pagination
import Mathlib.Data.Prod.Lex
import Mathlib.Data.String.Basic

/-! Which profiles can be read back. The writers screen the text of a source for secrets, and the reads
    screen the texts that the loader made of it. A profile is shown exactly when none of its public texts
    looks like a credential; everything else that the reads check holds of every stored profile. -/

namespace HermesOps.Profiles

open Schemes Controller.Commands Hermesfile
open Controller (Result)

variable {y : Reader} {p : Hashing} {s : Submission} {now : Time} {t : Tables}

/-! ### The metadata of accepted sources -/

def displayRule : StringRule := { maximum := 120 }

def descriptionRule : StringRule := { minimum := 0, maximum := 1000, allowNewline := true }

def labelRule : StringRule := { minimum := 0, maximum := 120 }

/-- What the validator has checked of the metadata that the stores take. -/
structure Metadata.Checked (m : Metadata) : Prop where
  displayName : displayRule.Accepts m.displayName
  description : descriptionRule.Accepts m.description
  count : m.labels.length ≤ 64
  keys : m.labels.keys.Nodup
  labels : ∀ x ∈ m.labels, labelPattern.fullMatch x.1 = true ∧ ∃ text, x.2 = .str text ∧
    labelRule.Accepts text

/-- An accepted source has one document, which passed the checks. -/
theorem Submitted.document (h : Submitted y s) : ∃ document, loadAll y s.source = some [document] ∧
    (validateDocument y.lib document).hasErrors = false ∧
    canonicalize document = some s.accepted.canonical ∧
    s.accepted.diagnostics = (validateDocument y.lib document).diagnostics := by
  have hvalid := h.valid
  unfold validateSource at hvalid
  split at hvalid
  · cases hvalid
  split at hvalid
  · rename_i document hload
    dsimp only at hvalid
    split at hvalid
    · cases hvalid
    rename_i herrors
    unfold accept at hvalid
    split at hvalid
    · cases hvalid
    rename_i canonical hcanonical
    split at hvalid
    · cases hvalid
    · have haccepted := Verdict.valid.inj hvalid
      refine ⟨document, hload, Bool.not_eq_true _ ▸ herrors, ?_, ?_⟩
      · rw [hcanonical, ← haccepted]
      · rw [← haccepted]
  · cases hvalid

theorem name_displays {text : String} (h : nameRule.Accepts text) : displayRule.Accepts text where
  minimum := h.minimum
  maximum := h.maximum.trans (by decide)
  control := h.control
  newline := h.newline
  pattern := rfl
  enum := rfl

theorem description_empty : descriptionRule.Accepts "" := ⟨by decide, by decide, rfl, rfl, rfl, rfl⟩

/-- An optional text is absent, or it is the text of the field. -/
theorem textOrEmpty_ok {m : Members} {key text : String} {rule : StringRule}
    (hpresent : Present m key fun x => Text rule x fun _ => True)
    (h : textOrEmpty (Members.get m key) = some text) : text = "" ∨ rule.Accepts text := by
  unfold Members.get at h
  cases hx : m.get? key with
  | none =>
    rw [hx] at h
    exact .inl (Option.some.inj h).symm
  | some x =>
    obtain ⟨given, rfl, haccepts, -⟩ := hpresent x hx
    rw [hx] at h
    obtain rfl := Option.some.inj h
    exact .inr haccepts

theorem readMetadata_checked {canonical : Value} {m : Metadata} {metadata : Members}
    (hroot : ∃ members, canonical = .map members ∧ Members.get members "metadata" = .map metadata)
    (hmetadata : Hermesfile.Metadata (.map metadata)) (hdistinct : MembersDistinct metadata)
    (h : readMetadata canonical = some m) : m.Checked := by
  obtain ⟨members, rfl, hfield⟩ := hroot
  obtain ⟨metadata', heq, -, -, hname, hdisplay, hdescription, hlabels⟩ := hmetadata
  cases heq
  unfold readMetadata at h
  simp only [Value.members?, hfield, Option.bind_eq_bind, Option.bind_some] at h
  obtain ⟨name, hreadName, h⟩ := Option.bind_eq_some_iff.1 h
  obtain ⟨display, hreadDisplay, h⟩ := Option.bind_eq_some_iff.1 h
  obtain ⟨description, hreadDescription, h⟩ := Option.bind_eq_some_iff.1 h
  obtain ⟨labels, hreadLabels, h⟩ := Option.bind_eq_some_iff.1 h
  obtain rfl := Option.some.inj h
  obtain ⟨given, hgiven, haccepts, -⟩ := hname
  rw [hgiven] at hreadName
  obtain rfl := Option.some.inj hreadName
  have hlabelsChecked : labels.length ≤ 64 ∧ labels.keys.Nodup ∧
      ∀ x ∈ labels, labelPattern.fullMatch x.1 = true ∧ ∃ text, x.2 = .str text ∧
        labelRule.Accepts text := by
    unfold Members.get at hreadLabels
    cases hx : Members.get? metadata "labels" with
    | none =>
      rw [hx] at hreadLabels
      obtain rfl := Option.some.inj hreadLabels
      exact ⟨Nat.zero_le _, List.nodup_nil, fun x hx => by cases hx⟩
    | some x =>
      obtain ⟨given, rfl, hcount, heach⟩ := hlabels x hx
      rw [hx] at hreadLabels
      obtain rfl := Option.some.inj hreadLabels
      refine ⟨hcount, (hdistinct.of_mem (Members.mem_of_get? hx)).1, ?_⟩
      intro x hx
      obtain ⟨⟨_, hkey, hpattern, -⟩, text, htext, haccepts, -⟩ := heach x hx
      cases hkey
      exact ⟨hpattern.pattern, text, htext, haccepts⟩
  refine ⟨?_, ?_, hlabelsChecked.1, hlabelsChecked.2.1, hlabelsChecked.2.2⟩
  · dsimp only
    split
    · exact name_displays haccepts
    · rename_i hne
      exact (textOrEmpty_ok hdisplay hreadDisplay).resolve_left hne
  · rcases textOrEmpty_ok hdescription hreadDescription with rfl | haccepts
    · exact description_empty
    · exact haccepts

theorem Submitted.checked (h : Submitted y s) : s.metadata.Checked := by
  obtain ⟨document, hload, herrors, hcanonical, -⟩ := h.document
  obtain ⟨-, root, rfl, hmetadata⟩ := accepted_metadata herrors
  obtain ⟨root', hroot', hsame⟩ := metadata_canonicalize hcanonical
  have hdistinct := loadAll_distinct hload
  obtain ⟨metadata, hfield, -⟩ := id hmetadata
  have hmembers : MembersDistinct metadata := by
    unfold Members.get at hfield
    cases hx : Members.get? root "metadata" with
    | none =>
      rw [hx] at hfield
      cases hfield
    | some x =>
      rw [hx] at hfield
      obtain rfl : x = .map metadata := hfield
      exact (hdistinct.2.of_mem (Members.mem_of_get? hx)).2
  exact readMetadata_checked ⟨root', hroot', hsame.trans hfield⟩ (hfield ▸ hmetadata) hmembers
    h.metadata

/-! ### Diagnostics -/

theorem needs_prefixedToken {P : Char → Prop} {lead : Regex} {body : Char → Bool} (h : lead.Needs P) :
    (prefixedToken lead body).Needs P :=
  Regex.needs_sequence (.tail _ (.head _)) h

/-- Each of the patterns needs a character that no path has. -/
theorem patterns_need : ∀ pattern ∈ highConfidenceSecretPatterns,
    pattern.Needs fun c => isPathChar c = false := by
  have hcolon : ∀ c, Regex.chars [] ":=" c = true → isPathChar c = false := by
    intro c hc
    have hmem : c ∈ ":=".toList := by simpa [Regex.chars] using hc
    have htwo : ":=".toList = [':', '='] := rfl
    rw [htwo] at hmem
    rcases List.mem_cons.1 hmem with rfl | hmem
    · rfl
    · rw [List.mem_singleton.1 hmem]
      rfl
  have hdash : (Regex.char '-').Needs fun c => isPathChar c = false := by
    refine Regex.needs_set fun c hc => ?_
    rw [of_decide_eq_true hc]
    rfl
  have hliteral : ∀ {text : String} (c : Char), c ∈ text.toList → isPathChar c = false →
      (Regex.literal text).Needs fun c => isPathChar c = false :=
    fun c hc h => Regex.needs_literal hc h
  simp only [highConfidenceSecretPatterns, List.forall_mem_cons]
  refine ⟨?_, ?_, ?_, ?_, ?_, ?_, ?_, ?_, ?_, ?_, fun _ h => absurd h List.not_mem_nil⟩
  · exact Regex.needs_sequence (.head _) (hliteral '-' (by decide) rfl)
  · exact hliteral '$' (by decide) rfl
  · exact Regex.needs_sequence (.tail _ (.tail _ (.head _))) (hliteral ':' (by decide) rfl)
  · exact Regex.needs_sequence (.tail _ (.tail _ (.tail _ (.head _)))) (Regex.needs_set hcolon)
  · exact needs_prefixedToken (hliteral '-' (by decide) rfl)
  · exact needs_prefixedToken (hliteral '_' (by decide) rfl)
  · exact needs_prefixedToken (hliteral '_' (by decide) rfl)
  · exact needs_prefixedToken (Regex.needs_sequence (.tail _ (.tail _ (.head _))) hdash)
  · exact Regex.needs_sequence (.tail _ (.head _)) (hliteral 'A' (by decide) rfl)
  · exact Regex.needs_sequence (.tail _ (.head _)) (hliteral 'J' (by decide) rfl)

theorem credentialLike_path {path : String} (h : ∀ c ∈ path.toList, isPathChar c = true) :
    credentialLike path = false := by
  rw [credentialLike, List.any_eq_false]
  intro pattern hpattern
  rw [(patterns_need pattern hpattern).search_eq_false fun c hc => by rw [h c hc]; exact Bool.noConfusion]
  exact Bool.false_ne_true

/-- The path of a warning has no control character. -/
theorem isControl_path {c : Char} (h : isPathChar c = true) : isControl false c = false := by
  simp only [isPathChar, Regex.chars, List.any_cons, List.any_nil, Bool.or_false, Bool.or_eq_true,
    decide_eq_true_eq, Char.le_def] at h
  simp only [isControl, Bool.false_and, Bool.not_false, Bool.and_true, Bool.or_eq_false_iff,
    decide_eq_false_iff_not]
  have hslash : c ∈ "/".toList → c.toNat = 47 := by
    intro hc
    rw [show "/".toList = ['/'] from rfl, List.mem_singleton] at hc
    rw [hc]
    rfl
  have hval : c.toNat = c.val.toNat := rfl
  rcases h with (h | h) | h
  · have := UInt32.le_iff_toNat_le.1 h.1
    have := UInt32.le_iff_toNat_le.1 h.2
    have hlow : ('a' : Char).val.toNat = 97 := rfl
    have hhigh : ('z' : Char).val.toNat = 122 := rfl
    omega
  · have := UInt32.le_iff_toNat_le.1 h.1
    have := UInt32.le_iff_toNat_le.1 h.2
    have hlow : ('0' : Char).val.toNat = 48 := rfl
    have hhigh : ('9' : Char).val.toNat = 57 := rfl
    omega
  · have := hslash h
    omega

/-! ### Texts -/

/-- A text that has passed its checks is shown unless it looks like a credential. -/
theorem publicText_accepted {rule : StringRule} {text : String} (h : rule.Accepts text) :
    publicText rule.minimum rule.maximum rule.allowNewline (.str text) =
      if credentialLike text then none else some text := by
  have hnewline : rule.allowNewline = true ∨ ¬(text.toList.any fun c => c = '\n' ∨ c = '\r') = true := by
    have hnewline := h.newline
    cases hallow : rule.allowNewline with
    | true => exact .inl rfl
    | false =>
      rw [hallow] at hnewline
      right
      simpa using hnewline
  have hcontrol : ¬text.toList.any (isControl rule.allowNewline) = true := by
    rw [h.control]; exact Bool.false_ne_true
  unfold publicText
  cases hc : credentialLike text with
  | true => exact if_neg fun hall => hall.2.2.2.2 hc
  | false => exact if_pos ⟨h.minimum, h.maximum, hcontrol, hnewline, by rw [hc]; exact Bool.false_ne_true⟩

theorem publicText_isSome {rule : StringRule} {text : String} (h : rule.Accepts text) :
    (publicText rule.minimum rule.maximum rule.allowNewline (.str text)).isSome ↔
    credentialLike text = false := by
  rw [publicText_accepted h]
  cases credentialLike text <;> simp

theorem publicText_of_all {minimum maximum : Nat} {text : String} (hmin : minimum ≤ text.length)
    (hmax : text.length ≤ maximum) (hcontrol : ∀ c ∈ text.toList, isControl false c = false)
    (hcredential : credentialLike text = false) :
    publicText minimum maximum false (.str text) = some text := by
  refine if_pos ⟨hmin, hmax, ?_, .inr ?_, by rw [hcredential]; exact Bool.false_ne_true⟩
  · rw [Bool.not_eq_true, List.any_eq_false]
    intro c hc
    rw [hcontrol c hc]
    exact Bool.false_ne_true
  · rw [Bool.not_eq_true, List.any_eq_false]
    intro c hc
    rw [decide_eq_true_eq]
    rintro (rfl | rfl)
    · exact absurd (hcontrol _ hc) (by decide)
    · exact absurd (hcontrol _ hc) (by decide)

/-! ### The warnings are shown -/

/-- A text of the validator itself: short, and nothing that a read refuses. -/
def isPlain (text : String) : Bool :=
  1 ≤ text.length ∧ text.length ≤ 128 ∧ text.toList.all (fun c => !isControl false c) ∧ ¬credentialLike text

theorem publicText_plain {text : String} (h : isPlain text = true) {maximum : Nat} (hmax : 128 ≤ maximum) :
    publicText 1 maximum false (.str text) = some text := by
  obtain ⟨hmin, hlength, hcontrol, hcredential⟩ := of_decide_eq_true h
  refine publicText_of_all hmin (hlength.trans hmax) ?_ (Bool.not_eq_true _ ▸ hcredential)
  intro c hc
  have hclear := List.all_eq_true.1 hcontrol c hc
  exact Bool.not_eq_true' _ ▸ hclear

theorem plain_texts : ∀ text ∈ ["package_not_version_pinned", "full_network_requires_policy",
    "docs/hermesfile/SPECIFICATION_V1.md", "Full network access requires external policy approval.",
    "Package is not version-pinned; the resolved build record must preserve its exact version."],
    isPlain text = true := by
  decide +kernel

theorem publicText_path {path : String} (h : WarningPath path) :
    publicText 1 4096 false (.str path) = some path := by
  refine publicText_of_all ?_ (h.length.trans (by decide)) (fun c hc => isControl_path (h.chars c hc))
    (credentialLike_path h.chars)
  rw [Nat.succ_le_iff, Nat.pos_iff_ne_zero, ne_eq, String.length_eq_zero_iff]
  exact h.nonempty

/-- The members of a diagnostic are the five that a read looks for. -/
theorem publicDiagnostic_value {d : Diagnostic} (hcode : publicText 1 128 false (.str d.code) = some d.code)
    (hpath : publicText 1 4096 false (.str d.path) = some d.path)
    (hmessage : publicText 1 1000 false (.str d.message) = some d.message)
    (hdocumentation : publicText 1 4096 false (.str d.documentation) = some d.documentation) :
    (publicDiagnostic (diagnosticValue d)).isSome := by
  have hseverity : (if d.severity = .error then "error" else "warning") ∈ ["info", "warning", "error"] := by
    split <;> decide
  unfold publicDiagnostic
  rw [diagnosticValue, strictObject, if_pos ⟨Nat.le_refl 5, show diagnosticKeys.Nodup by decide⟩,
    Option.bind_eq_bind, Option.bind_some,
    if_pos ⟨rfl, show (diagnosticKeys.all fun key => key ∈ diagnosticKeys) = true by decide⟩]
  change (if _ then (publicText 1 128 false (.str d.code)).bind _ else none).isSome
  rw [if_pos hseverity, hcode, Option.bind_some]
  change ((publicText 1 4096 false (.str d.path)).bind _).isSome
  rw [hpath, Option.bind_some]
  change ((publicText 1 1000 false (.str d.message)).bind _).isSome
  rw [hmessage, Option.bind_some]
  change ((publicText 1 4096 false (.str d.documentation)).bind _).isSome
  rw [hdocumentation]
  rfl

theorem publicDiagnostic_warning {d : Diagnostic} (h : Announced d) (hwarning : d.severity = .warning) :
    (publicDiagnostic (diagnosticValue d)).isSome := by
  have hplain : ∀ text ∈ _, isPlain text = true := plain_texts
  cases h with
  | error herror =>
    rw [hwarning] at herror
    cases herror
  | package hpath =>
    exact publicDiagnostic_value (publicText_plain (hplain _ (by simp)) (by decide)) (publicText_path hpath)
      (publicText_plain (hplain _ (by simp)) (by decide))
        (publicText_plain (hplain _ (by simp)) (by decide))
  | network hpath =>
    exact publicDiagnostic_value (publicText_plain (hplain _ (by simp)) (by decide)) (publicText_path hpath)
      (publicText_plain (hplain _ (by simp)) (by decide))
        (publicText_plain (hplain _ (by simp)) (by decide))

theorem isSome_mapM_iff {α β : Type} {f : α → Option β} {l : List α} :
    (l.mapM f).isSome ↔ ∀ x ∈ l, (f x).isSome := by
  induction l with
  | nil => simp
  | cons x l ih =>
    rw [List.mapM_cons, List.forall_mem_cons, ← ih]
    cases f x with
    | none => simp
    | some y => cases l.mapM f <;> simp

/-- The diagnostics of an accepted source. -/
theorem Submitted.publicDiagnostics (h : Submitted y s) :
    (publicDiagnostics (.seq (s.accepted.diagnostics.map diagnosticValue))).isSome := by
  obtain ⟨document, -, herrors, -, hdiagnostics⟩ := h.document
  obtain ⟨hcount, hwarnings⟩ := accepted_diagnostics herrors
  rw [hdiagnostics]
  unfold Profiles.publicDiagnostics
  dsimp only
  rw [if_pos (by rw [List.length_map]; exact hcount), isSome_mapM_iff]
  intro x hx
  obtain ⟨d, hd, rfl⟩ := List.mem_map.1 hx
  obtain ⟨hannounced, hwarning⟩ := hwarnings d hd
  exact publicDiagnostic_warning hannounced hwarning

/-! ### Profiles -/

/-- None of the texts that a read shows looks like a credential. -/
structure ProfileRow.Public (row : ProfileRow) : Prop where
  displayName : credentialLike row.displayName = false
  description : credentialLike row.description = false
  labels : ∀ {m : Hermesfile.Members} {key text : String}, row.labels = .map m → (key, .str text) ∈ m →
    credentialLike text = false

theorem publicLabel_isSome {x : String × Value} (hkey : labelPattern.fullMatch x.1 = true) {text : String}
    (htext : x.2 = .str text) (h : labelRule.Accepts text) :
    (publicLabel x).isSome ↔ credentialLike text = false := by
  rw [publicLabel, if_pos hkey, Option.isSome_map, htext]
  exact publicText_isSome h

theorem Metadata.Checked.publicLabels {m : Metadata} (h : m.Checked) :
    ((strictObject 64 (.map m.labels)).bind fun labels => labels.mapM publicLabel).isSome ↔
      ∀ key text, (key, .str text) ∈ m.labels → credentialLike text = false := by
  rw [strictObject, if_pos ⟨h.count, h.keys⟩, Option.bind_some, isSome_mapM_iff]
  constructor
  · intro hall key text hmem
    obtain ⟨hkey, given, hgiven, haccepts⟩ := h.labels _ hmem
    obtain rfl := Value.str.inj hgiven
    exact (publicLabel_isSome hkey rfl haccepts).1 (hall _ hmem)
  · rintro hall ⟨key, value⟩ hmem
    obtain ⟨hkey, text, rfl, haccepts⟩ := h.labels _ hmem
    exact (publicLabel_isSome hkey rfl haccepts).2 (hall key text hmem)

/-- The plain columns pass the checks of a read. -/
theorem Current.wellFormed {id : String} {row : ProfileRow} (hrow : row.check y id = true)
    (h : Current y t id row s now) :
    (⟨id, row, s.revisionRow id row.currentSourceRevision now⟩ : CurrentRow).wellFormed = true := by
  have hprofile := of_decide_eq_true hrow
  have hrevision := of_decide_eq_true h.revisionCheck
  exact decide_eq_true ⟨hprofile.1, hprofile.2.1, hprofile.2.2.2.2.2.2.1, hrevision.2.2.2.2.2.2.1,
    hrevision.2.2.2.2.2.2.2.2.2.1, hprofile.2.2.2.2.2.2.2.2.2.2, hprofile.2.2.2.2.2.2.2.1,
    hprofile.2.2.2.2.2.2.2.2.2.1, hrevision.2.2.2.2.2.2.2.2.2.2.1, hrevision.2.2.2.2.2.2.2.2.2.2.2.1,
    hprofile.2.2.2.2.2.2.2.2.1⟩

theorem Current.project_isSome {id : String} {row : ProfileRow} (hrow : row.check y id = true)
    (h : Current y t id row s now) :
    (⟨id, row, s.revisionRow id row.currentSourceRevision now⟩ : CurrentRow).project.isSome ↔
    row.Public := by
  have hchecked := h.submitted.checked
  have hlabels := hchecked.publicLabels
  have hdisplay := publicText_isSome hchecked.displayName
  have hdescription := publicText_isSome hchecked.description
  rw [← h.shows.displayName] at hdisplay
  rw [← h.shows.description] at hdescription
  rw [← h.shows.labels] at hlabels
  unfold CurrentRow.project
  rw [if_pos (h.wellFormed hrow)]
  simp only [Option.bind_eq_bind]
  constructor
  · intro hsome
    obtain ⟨profile, hproject⟩ := Option.isSome_iff_exists.1 hsome
    obtain ⟨displayName, hshown, hproject⟩ := Option.bind_eq_some_iff.1 hproject
    obtain ⟨description, hshown', hproject⟩ := Option.bind_eq_some_iff.1 hproject
    obtain ⟨members, hobject, hproject⟩ := Option.bind_eq_some_iff.1 hproject
    obtain ⟨labels, hshown'', -⟩ := Option.bind_eq_some_iff.1 hproject
    refine ⟨hdisplay.1 (Option.isSome_of_eq_some hshown),
      hdescription.1 (Option.isSome_of_eq_some hshown'), ?_⟩
    intro m key text hm hmem
    have hboth := hlabels.1 (by rw [hobject, Option.bind_some, hshown'']; rfl)
    rw [h.shows.labels] at hm
    obtain rfl := Value.map.inj hm
    exact hboth key text hmem
  · rintro ⟨hname, htext, heach⟩
    obtain ⟨displayName, hshown⟩ := Option.isSome_iff_exists.1 (hdisplay.2 hname)
    obtain ⟨description, hshown'⟩ := Option.isSome_iff_exists.1 (hdescription.2 htext)
    obtain ⟨labels, hlabels⟩ := Option.isSome_iff_exists.1
      (hlabels.2 fun key text hmem => heach h.shows.labels hmem)
    obtain ⟨members, hobject, hlabels⟩ := Option.bind_eq_some_iff.1 hlabels
    obtain ⟨diagnostics, hdiagnostics⟩ := Option.isSome_iff_exists.1 h.submitted.publicDiagnostics
    rw [show publicText 1 120 false (.str row.displayName) = _ from hshown, Option.bind_some,
      show publicText 0 1000 true (.str row.description) = _ from hshown', Option.bind_some, hobject,
      Option.bind_some, hlabels, Option.bind_some]
    change ((Profiles.publicDiagnostics (.seq _)).bind _).isSome
    rw [hdiagnostics]
    rfl

/-! ### Reads -/

theorem profileProjection_ok {x : CurrentRow} :
    (∃ profile, profileProjection x = .ok profile) ↔ x.project.isSome := by
  unfold profileProjection
  cases x.project with
  | none => simp
  | some profile => simp

/-- A row that a read joins is shown exactly when its texts are public. -/
theorem Numbered.projection_ok (hn : Numbered y t) {x : CurrentRow} (hx : IsRow t x) :
    (∃ profile, profileProjection x = .ok profile) ↔ x.profile.Public := by
  obtain ⟨s, now, hcurrent⟩ := hn.current hx.profile
  obtain ⟨id, row, revision⟩ := x
  obtain heq : revision = s.revisionRow id row.currentSourceRevision now :=
    Option.some.inj (hx.revision.symm.trans hcurrent.revision)
  subst heq
  rw [profileProjection_ok, hcurrent.project_isSome (hn.checked hx.profile)]

/-- Every profile is joined, whichever read looks for it. -/
theorem Numbered.mem_selectCurrent (hn : Numbered y t) (test : String → ProfileRow → Bool) {id : String}
    {row : ProfileRow} (hrow : t.profiles.get? id = some row) (htest : test id row = true) :
    ∃ x ∈ t.selectCurrent test, x.sandboxId = id ∧ x.profile = row := by
  obtain ⟨s, now, hcurrent⟩ := hn.current hrow
  exact ⟨⟨id, row, _⟩, Profiles.mem_selectCurrent.2 ⟨⟨hrow, hcurrent.revision, rfl⟩, htest, rfl⟩, rfl, rfl⟩

theorem Numbered.getProfile_eq (hn : Numbered y t) {id : String} {row : ProfileRow}
    (hrow : t.profiles.get? id = some row) :
    ∃ x, IsRow t x ∧ x.profile = row ∧ getProfile t id = profileProjection x := by
  have hid : isSandboxId id = true := (of_decide_eq_true (hn.checked hrow)).1
  obtain ⟨x, hx, -, -⟩ := hn.mem_selectCurrent (fun i _ => i = id) hrow (decide_eq_true rfl)
  cases hhead : (t.selectCurrent fun i _ => i = id).head? with
  | none =>
    rw [List.head?_eq_none_iff.1 hhead] at hx
    cases hx
  | some z =>
    obtain ⟨hz, hsame, -⟩ := Profiles.mem_selectCurrent.1 (List.mem_of_head? hhead)
    refine ⟨z, hz, ?_, ?_⟩
    · have hfound := hz.profile
      rw [of_decide_eq_true hsame, hrow] at hfound
      exact (Option.some.inj hfound).symm
    · unfold getProfile
      rw [if_pos hid, hhead]

theorem Numbered.getProfile_ok (hn : Numbered y t) {id : String} {row : ProfileRow}
    (hrow : t.profiles.get? id = some row) :
    ((∃ profile, getProfile t id = .ok profile) ↔ row.Public) ∧
      (¬row.Public → getProfile t id = .error projectionFailed) := by
  obtain ⟨x, hx, rfl, heq⟩ := hn.getProfile_eq hrow
  rw [heq]
  refine ⟨hn.projection_ok hx, fun hprivate => ?_⟩
  rw [← hn.projection_ok hx, profileProjection_ok, Bool.not_eq_true, Option.isSome_eq_false_iff,
    Option.isNone_iff_eq_none] at hprivate
  rw [profileProjection, hprivate]

theorem mapM_ok_iff {α β ε : Type} {f : α → Except ε β} {l : List α} :
    (∃ ys, l.mapM f = .ok ys) ↔ ∀ x ∈ l, ∃ y, f x = .ok y := by
  induction l with
  | nil => simp [pure, Except.pure]
  | cons x l ih =>
    rw [List.mapM_cons, List.forall_mem_cons, ← ih]
    cases f x with
    | error e => simp [bind, Except.bind]
    | ok y => cases l.mapM f <;> simp [bind, Except.bind, pure, Except.pure]

/-! ### Pages -/

/-- The key of a listing. -/
def rowKey (x : CurrentRow) : String ×ₗ String := toLex (x.profile.profileName, x.sandboxId)

/-- The profiles in a state, in no order. -/
def Tables.inState (t : Tables) (state : Option ProfileState) : List CurrentRow :=
  t.selectCurrent fun _ row => state.all fun s => row.state = s

/-- A page of a listing, before the projection. -/
def Tables.page (t : Tables) (limit : Nat) (cursor : Option (String × String))
    (state : Option ProfileState) :
    Pagination.Page CurrentRow (String ×ₗ String) :=
  Pagination.page rowKey limit (cursor.map toLex) (t.inState state)

theorem selectCurrent_and (test more : String → ProfileRow → Bool) :
    (t.selectCurrent fun id row => test id row ∧ more id row) =
      (t.selectCurrent test).filter fun x => more x.sandboxId x.profile := by
  unfold Tables.selectCurrent Tables.joined Table.select
  rw [List.filterMap_filter, List.filterMap_filter, List.filter_filterMap, List.filter_filterMap,
    List.filter_filterMap]
  refine List.filterMap_congr fun x _ => ?_
  cases hx : (t.revisions.get? x.2.currentRevisionId).bind fun r =>
      if r.sandboxId = x.1 then some (⟨x.1, x.2, r⟩ : CurrentRow) else none with
  | none => cases test x.1 x.2 <;> simp
  | some c =>
    obtain ⟨r, -, hc⟩ := Option.bind_eq_some_iff.1 hx
    split at hc
    · obtain rfl := Option.some.inj hc
      by_cases hnumber : r.sourceRevision = x.2.currentSourceRevision
      · cases htest : test x.1 x.2 <;> cases hmore : more x.1 x.2 <;>
          simp [Option.filter_some, hnumber, htest, hmore]
      · cases test x.1 x.2 <;> cases more x.1 x.2 <;> simp [Option.filter_some, hnumber]
    · cases hc

theorem listedBefore_iff (a b : CurrentRow) : (listedBefore a b = true) = (rowKey a ≤ rowKey b) := by
  rw [listedBefore, decide_eq_true_eq, rowKey, rowKey, Prod.Lex.toLex_le_toLex]

theorem past_iff (cursor : Option (String × String)) (x : CurrentRow) :
    (cursor.all fun after => after.1 < x.profile.profileName ∨
      (after.1 = x.profile.profileName ∧ after.2 < x.sandboxId)) =
        decide (Pagination.Past (cursor.map toLex) (rowKey x)) := by
  cases cursor with
  | none => exact (decide_eq_true (Pagination.past_none _)).symm
  | some after =>
    refine decide_eq_decide.2 ?_
    rw [Option.map_some, Pagination.past_some, rowKey, Prod.Lex.toLex_lt_toLex]

/-- The rows of the query are the rows after the cursor. -/
theorem found_inState (cursor : Option (String × String)) (state : Option ProfileState) :
    ((t.selectCurrent fun id row => (state.all fun s => row.state = s) ∧
      cursor.all fun after => after.1 < row.profileName ∨
        (after.1 = row.profileName ∧ after.2 < id)).insertionSort fun a b => listedBefore a b) =
      Pagination.found rowKey (cursor.map toLex) (t.inState state) := by
  rw [selectCurrent_and]
  simp only [past_iff, listedBefore_iff]
  rfl

theorem listProfiles_eq {limit : Nat} {cursor : Option (String × String)} {state : Option ProfileState}
    (hlimit : 1 ≤ limit ∧ limit ≤ maxListLimit) :
    listProfiles t limit cursor state = ((t.page limit cursor state).items.mapM profileProjection).map
      fun items => (items, (t.page limit cursor state).next.map ofLex) := by
  unfold listProfiles
  rw [show Controller.require _ _ = .ok () from if_pos (decide_eq_true hlimit), found_inState]
  change ((t.page limit cursor state).items.mapM profileProjection >>= _) = _
  cases (t.page limit cursor state).items.mapM profileProjection with
  | error e => rfl
  | ok items =>
    change Except.ok (items, Option.map (fun row : CurrentRow => (row.profile.profileName, row.sandboxId))
      (if _ then _ else none)) =
        Except.ok (items, Option.map ofLex (if _ then Option.map rowKey _ else none))
    split
    · rw [Option.map_map]
      rfl
    · rfl

theorem mem_page {limit : Nat} {cursor : Option (String × String)} {state : Option ProfileState}
    {x : CurrentRow} (h : x ∈ (t.page limit cursor state).items) : IsRow t x :=
  (Profiles.mem_selectCurrent.1 (Pagination.mem_page h).1).1

theorem listProfiles_ok {limit : Nat} {cursor : Option (String × String)} {state : Option ProfileState}
    (hlimit : 1 ≤ limit ∧ limit ≤ maxListLimit) :
    (∃ page, listProfiles t limit cursor state = .ok page) ↔
      ∀ x ∈ (t.page limit cursor state).items, ∃ profile, profileProjection x = .ok profile := by
  rw [listProfiles_eq hlimit, ← mapM_ok_iff]
  cases (t.page limit cursor state).items.mapM profileProjection with
  | error e => simp [Except.map]
  | ok items => exact ⟨fun _ => ⟨items, rfl⟩, fun _ => ⟨_, rfl⟩⟩

theorem joined_sublist (rows : List (String × ProfileRow)) :
    ((rows.filterMap fun x => (t.revisions.get? x.2.currentRevisionId).bind fun r =>
      if r.sandboxId = x.1 then some (⟨x.1, x.2, r⟩ : CurrentRow)
        else none).map CurrentRow.sandboxId).Sublist
        (rows.map Prod.fst) := by
  induction rows with
  | nil => exact List.Sublist.slnil
  | cons x rows ih =>
    rw [List.filterMap_cons]
    split
    · exact ih.cons _
    · rename_i c hc
      obtain ⟨r, -, hc⟩ := Option.bind_eq_some_iff.1 hc
      split at hc
      · obtain rfl := Option.some.inj hc
        exact ih.cons_cons _
      · cases hc

/-- No two rows of a listing have one key. -/
theorem inState_distinct (t : Tables) (state : Option ProfileState) :
    ((t.inState state).map rowKey).Nodup := by
  have hids : ((t.inState state).map CurrentRow.sandboxId).Nodup :=
    (Table.nodup_select_keys _ _).sublist ((List.filter_sublist.map _).trans (joined_sublist _))
  refine List.Nodup.of_map (fun k => (ofLex k).2) ?_
  rw [List.map_map]
  exact hids

/-- The page that starts at a profile shows it. -/
theorem Numbered.page_self (hn : Numbered y t) {id : String} {row : ProfileRow}
    (hrow : t.profiles.get? id = some row) :
    ∃ x ∈ (t.page 1 (some (row.profileName, "")) none).items, x.profile = row := by
  obtain ⟨x, hx, rfl, rfl⟩ := hn.mem_selectCurrent (fun _ _ => true) hrow rfl
  have hid : "" < x.sandboxId := by
    have hcheck : isSandboxId x.sandboxId = true := (of_decide_eq_true (hn.checked hrow)).1
    refine lt_of_le_of_ne (List.nil_le _) ?_
    intro hempty
    rw [← hempty] at hcheck
    exact absurd hcheck (by decide)
  have hpast : Pagination.Past ((some (x.profile.profileName, "")).map toLex) (rowKey x) := by
    rw [Option.map_some, Pagination.past_some, rowKey, Prod.Lex.toLex_lt_toLex]
    exact .inr ⟨rfl, hid⟩
  refine ⟨x, ?_, rfl⟩
  cases hnext : (t.page 1 (some (x.profile.profileName, "")) none).next with
  | none =>
    rw [Tables.page, Pagination.page_last (Nat.le_refl 1) hnext]
    exact Pagination.mem_found.2 ⟨hx, hpast⟩
  | some k =>
    refine ((Pagination.page_split (inState_distinct t none) hnext).2 x hx hpast).resolve_right ?_
    intro hlater
    obtain ⟨-, z, hz, rfl⟩ := Pagination.page_more hnext
    have hmem := List.mem_of_getLast? hz
    have hzrow := mem_page hmem
    have hzpast := (Pagination.mem_page hmem).2
    rw [Option.map_some, Pagination.past_some, rowKey, Prod.Lex.toLex_lt_toLex] at hzpast
    rw [rowKey, rowKey, Prod.Lex.toLex_lt_toLex] at hlater
    have hname : z.profile.profileName = x.profile.profileName := by
      rcases hzpast with h | ⟨h, -⟩
      · rcases hlater with h' | ⟨h', -⟩
        · exact absurd (h.trans h') (lt_irrefl _)
        · exact h'
      · exact h.symm
    have hsame := hn.named hzrow.profile hrow hname
    rw [hname, hsame] at hlater
    rcases hlater with h | ⟨-, h⟩ <;> exact absurd h (lt_irrefl _)

theorem Numbered.listings_ok (hn : Numbered y t) :
    (∀ limit cursor state, 1 ≤ limit → limit ≤ maxListLimit →
      ∃ page, listProfiles t limit cursor state = .ok page) ↔
      ∀ id row, t.profiles.get? id = some row → row.Public := by
  constructor
  · intro hall id row hrow
    obtain ⟨x, hx, rfl⟩ := hn.page_self hrow
    have hpage := hall 1 (some (x.profile.profileName, "")) none (Nat.le_refl 1) (by decide)
    exact (hn.projection_ok (mem_page hx)).1 ((listProfiles_ok ⟨Nat.le_refl 1, by decide⟩).1 hpage x hx)
  · intro hall limit cursor state hlow hhigh
    refine (listProfiles_ok ⟨hlow, hhigh⟩).2 fun x hx => ?_
    have hrow := mem_page hx
    exact (hn.projection_ok hrow).2 (hall _ _ hrow.profile)

/-! ### The three reads of a reachable store -/

variable {w : World} {i : Nat}

theorem readBack_ok (t : Tables) (outcome : Imported) :
    (∃ reply, readBack t outcome true = .ok reply) ↔
      ∃ profile, getProfile t outcome.sandboxId = .ok profile := by
  cases outcome with
  | unchanged id =>
    change (∃ reply, ((getProfile t id).map _).mapError _ = .ok reply) ↔
      ∃ profile, getProfile t id = .ok profile
    cases getProfile t id <;> simp [Except.map, Except.mapError]
  | stored id created =>
    change (∃ reply, ((getProfile t id).map _).mapError _ = .ok reply) ↔
      ∃ profile, getProfile t id = .ok profile
    cases getProfile t id <;> simp [Except.map, Except.mapError]

theorem WorldInv.read_ok (hw : WorldInv y w) {outcome : Imported}
    (hi : w.imports i = some (.finished outcome)) :
    ∃ row, w.store.content.profiles.get? outcome.sandboxId = some row ∧
      ((∃ reply, (Profiles.act y p (.read i true) w).1 = some (.ok reply)) ↔ row.Public) := by
  obtain ⟨row, hrow⟩ := Option.isSome_iff_exists.1 (hw.finished hi)
  refine ⟨row, hrow, ?_⟩
  simp only [Profiles.act, hi, Option.some.injEq]
  rw [readBack_ok, (hw.numbered.getProfile_ok hrow).1]

/-- A profile can be read exactly when none of the texts that its current source shows looks like a
    credential: the checks of the writers leave nothing else to refuse. Otherwise its reads fail, every
    listing that comes to it fails, and so does an import that has stored it. -/
theorem reads_iff (h : (profileMachine y p).Reachable (fun _ _ => True) w) :
    (∀ id row, w.store.content.profiles.get? id = some row →
      ((∃ profile, getProfile w.store.content id = .ok profile) ↔ row.Public) ∧
        (¬row.Public → getProfile w.store.content id = .error projectionFailed)) ∧
    ((∀ limit cursor state, 1 ≤ limit → limit ≤ maxListLimit →
        ∃ page, listProfiles w.store.content limit cursor state = .ok page) ↔
      ∀ id row, w.store.content.profiles.get? id = some row → row.Public) ∧
    ∀ i outcome, w.imports i = some (.finished outcome) →
      ∃ row, w.store.content.profiles.get? outcome.sandboxId = some row ∧
        ((∃ reply, (act y p (.read i true) w).1 = some (.ok reply)) ↔ row.Public) := by
  have hw : WorldInv y w := worldInv_reachable h
  exact ⟨fun id row hrow => hw.numbered.getProfile_ok hrow, hw.numbered.listings_ok,
    fun i outcome hi => hw.read_ok hi⟩

theorem sampleWorld_reads :
    (∀ id row, sampleWorld.store.content.profiles.get? id = some row →
      ((∃ profile, getProfile sampleWorld.store.content id = .ok profile) ↔ row.Public) ∧
        (¬row.Public → getProfile sampleWorld.store.content id = .error projectionFailed)) ∧
    ((∀ limit cursor state, 1 ≤ limit → limit ≤ maxListLimit →
        ∃ page, listProfiles sampleWorld.store.content limit cursor state = .ok page) ↔
      ∀ id row, sampleWorld.store.content.profiles.get? id = some row → row.Public) ∧
    ∀ i outcome, sampleWorld.imports i = some (.finished outcome) →
      ∃ row, sampleWorld.store.content.profiles.get? outcome.sandboxId = some row ∧
        ((∃ reply, (act sampleReader sampleHashing (.read i true) sampleWorld).1 = some (.ok reply)) ↔
          row.Public) :=
  reads_iff sampleWorld_reachable

end HermesOps.Profiles
