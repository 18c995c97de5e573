import HermesOps.Http.Requests
import Mathlib.Data.List.TakeWhile

/-! `urlsplit` and `unquote` of `urllib.parse`, as far as the two routers depend on them: the path, the
    query and the fragment of a target. A target that is put together again from a path and a query is
    read back as it was. -/

namespace HermesOps.Http

open Controller (isDigit)

/-! ### Texts in front of a mark and behind it -/

/-- The text up to the first mark. -/
def upTo (mark : Char) (text : List Char) : List Char := text.takeWhile (· ≠ mark)

/-- The text behind the first mark. -/
def past (mark : Char) (text : List Char) : List Char := (text.dropWhile (· ≠ mark)).tail

theorem not_mem_upTo (mark : Char) (text : List Char) : mark ∉ upTo mark text := by
  intro h
  have hne := List.mem_takeWhile_imp h
  simp at hne

theorem mem_of_mem_upTo {mark c : Char} {text : List Char} (h : c ∈ upTo mark text) : c ∈ text :=
  List.takeWhile_subset _ h

theorem mem_of_mem_past {mark c : Char} {text : List Char} (h : c ∈ past mark text) : c ∈ text :=
  List.dropWhile_subset _ (List.mem_of_mem_tail h)

theorem upTo_of_not_mem {mark : Char} {text : List Char} (h : mark ∉ text) : upTo mark text = text := by
  refine List.takeWhile_eq_self_iff.2 fun c hc => decide_eq_true ?_
  rintro rfl
  exact h hc

theorem past_of_not_mem {mark : Char} {text : List Char} (h : mark ∉ text) : past mark text = [] := by
  have hdrop : text.dropWhile (· ≠ mark) = [] := by
    refine List.dropWhile_eq_nil_iff.2 fun c hc => decide_eq_true ?_
    rintro rfl
    exact h hc
  rw [past, hdrop, List.tail_nil]

theorem upTo_append_cons {mark : Char} {before after : List Char} (h : mark ∉ before) :
    upTo mark (before ++ mark :: after) = before := by
  have hall : ∀ c ∈ before, decide (c ≠ mark) = true := by
    intro c hc
    refine decide_eq_true ?_
    rintro rfl
    exact h hc
  rw [upTo, List.takeWhile_append_of_pos hall, List.takeWhile_cons_of_neg (by simp), List.append_nil]

theorem past_append_cons {mark : Char} {before after : List Char} (h : mark ∉ before) :
    past mark (before ++ mark :: after) = after := by
  have hall : ∀ c ∈ before, decide (c ≠ mark) = true := by
    intro c hc
    refine decide_eq_true ?_
    rintro rfl
    exact h hc
  rw [past, List.dropWhile_append_of_pos hall, List.dropWhile_cons_of_neg (by simp), List.tail_cons]

/-! ### `urlsplit` -/

/-- `_UNSAFE_URL_BYTES_TO_REMOVE`: these go anywhere. -/
def isRemoved (c : Char) : Bool := c = '\t' ∨ c = '\r' ∨ c = '\n'

/-- `_WHATWG_C0_CONTROL_OR_SPACE`: these go in front. -/
def isControlOrSpace (c : Char) : Bool := c.toNat ≤ 32

def isAsciiLetter (c : Char) : Bool := 65 ≤ c.toNat ∧ c.toNat ≤ 90 ∨ 97 ≤ c.toNat ∧ c.toNat ≤ 122

/-- `scheme_chars`. -/
def isSchemeChar (c : Char) : Bool := isAsciiLetter c || isDigit c || c = '+' || c = '-' || c = '.'

def cleaned (target : List Char) : List Char := (target.dropWhile isControlOrSpace).filter fun c => ¬isRemoved c

/-- The text behind the scheme, where there is one. -/
def behindScheme (text : List Char) : List Char :=
  if ':' ∈ text ∧ (upTo ':' text).head?.any isAsciiLetter ∧ (upTo ':' text).all isSchemeChar then past ':' text
  else text

/-- `_splitnetloc` ends an authority here. -/
def isAuthorityChar (c : Char) : Bool := c ≠ '/' ∧ c ≠ '?' ∧ c ≠ '#'

/-- The text behind the authority, where there is one; nothing when the authority is not valid. -/
def behindAuthority (validNetloc : String → Bool) (text : List Char) : Option (List Char) :=
  match text with
  | '/' :: '/' :: rest =>
    if validNetloc (String.ofList (rest.takeWhile isAuthorityChar)) then some (rest.dropWhile isAuthorityChar)
    else none
  | _ => some text

/-- The path, the query and the fragment of a text without scheme and authority. -/
def parts (text : List Char) : Url where
  path := String.ofList (upTo '?' (upTo '#' text))
  query := String.ofList (past '?' (upTo '#' text))
  fragment := String.ofList (past '#' text)

/-- `urlsplit`; the checks of the authority, which raise, are a parameter. -/
def urlSplit (validNetloc : String → Bool) (target : String) : Option Url :=
  (behindAuthority validNetloc (behindScheme (cleaned target.toList))).map parts

/-- `parsed.path + (("?" + parsed.query) if parsed.query else "")`. -/
def Url.rebuilt (url : Url) : String := url.path ++ (if url.query = "" then "" else "?" ++ url.query)

/-- `unquote`; what it makes of a text with a percent sign is a parameter. -/
def unquote (decode : String → String) (text : String) : String := if '%' ∈ text.toList then decode text else text

theorem unquote_plain {decode : String → String} {text : String} (h : '%' ∉ text.toList) :
    unquote decode text = text := if_neg h

/-! ### Targets that are split again -/

theorem cleaned_plain {text : List Char} (hhead : text.head?.any isControlOrSpace = false)
    (hall : ∀ c ∈ text, isRemoved c = false) : cleaned text = text := by
  have hdrop : text.dropWhile isControlOrSpace = text := by
    cases text with
    | nil => rfl
    | cons c rest => exact List.dropWhile_cons_of_neg (by simpa using hhead)
  rw [cleaned, hdrop]
  exact List.filter_eq_self.2 fun c hc => decide_eq_true (by rw [hall c hc]; exact Bool.false_ne_true)

theorem not_isRemoved_of_mem_cleaned {target : List Char} {c : Char} (h : c ∈ cleaned target) :
    isRemoved c = false := by
  have hkept := of_decide_eq_true (List.mem_filter.1 h).2
  exact Bool.not_eq_true _ ▸ hkept

theorem mem_of_mem_behindScheme {text : List Char} {c : Char} (h : c ∈ behindScheme text) : c ∈ text := by
  unfold behindScheme at h
  split at h
  · exact mem_of_mem_past h
  · exact h

theorem mem_of_mem_behindAuthority {valid : String → Bool} {text rest : List Char} {c : Char}
    (h : behindAuthority valid text = some rest) (hc : c ∈ rest) : c ∈ text := by
  unfold behindAuthority at h
  split at h
  · split at h
    · obtain rfl := Option.some.inj h
      exact List.mem_cons_of_mem _ (List.mem_cons_of_mem _ (List.dropWhile_subset _ hc))
    · exact absurd h (by simp)
  · obtain rfl := Option.some.inj h
    exact hc

/-- What `urlsplit` leaves of a target: the marks and the characters that it removes are gone. -/
structure Url.Split (url : Url) : Prop where
  pathMarks : '#' ∉ url.path.toList ∧ '?' ∉ url.path.toList
  queryMarks : '#' ∉ url.query.toList
  kept : ∀ c ∈ url.path.toList ++ url.query.toList, isRemoved c = false

theorem urlSplit_split {valid : String → Bool} {target : String} {url : Url}
    (h : urlSplit valid target = some url) : url.Split := by
  obtain ⟨text, htext, rfl⟩ := Option.map_eq_some_iff.1 h
  have hclean : ∀ c ∈ text, isRemoved c = false := fun c hc =>
    not_isRemoved_of_mem_cleaned (mem_of_mem_behindScheme (mem_of_mem_behindAuthority htext hc))
  refine ⟨⟨?_, ?_⟩, ?_, ?_⟩
  · intro hmark
    rw [parts, String.toList_ofList] at hmark
    exact not_mem_upTo '#' text (mem_of_mem_upTo hmark)
  · rw [parts, String.toList_ofList]
    exact not_mem_upTo '?' _
  · intro hmark
    rw [parts, String.toList_ofList] at hmark
    exact not_mem_upTo '#' text (mem_of_mem_past hmark)
  · intro c hc
    rw [parts, String.toList_ofList, String.toList_ofList, List.mem_append] at hc
    rcases hc with hc | hc
    · exact hclean c (mem_of_mem_upTo (mem_of_mem_upTo hc))
    · exact hclean c (mem_of_mem_upTo (mem_of_mem_past hc))

/-- A path that starts with a single slash has neither scheme nor authority in front. -/
theorem urlSplit_rooted {valid : String → Bool} {target : String} {c : Char} {rest : List Char}
    (htarget : target.toList = '/' :: c :: rest) (hc : c ≠ '/')
    (hkept : ∀ x ∈ target.toList, isRemoved x = false) :
    urlSplit valid target = some (parts target.toList) := by
  have hclean : cleaned target.toList = target.toList :=
    cleaned_plain (by rw [htarget]; rfl) hkept
  have hscheme : behindScheme target.toList = target.toList := by
    refine if_neg ?_
    rintro ⟨hcolon, hletter, -⟩
    rw [htarget, upTo, List.takeWhile_cons_of_pos (by decide)] at hletter
    exact absurd hletter Bool.false_ne_true
  have hauthority : behindAuthority valid target.toList = some target.toList := by
    rw [htarget]
    unfold behindAuthority
    split
    · rename_i hmatch
      exact absurd (List.cons.inj (List.cons.inj hmatch).2).1 hc
    · rfl
  rw [urlSplit, hclean, hscheme, hauthority, Option.map_some]

/-- A split target that is put together again has the same path and query. -/
theorem parts_rebuilt {url : Url} (h : url.Split) :
    parts url.rebuilt.toList = ⟨url.path, url.query, ""⟩ := by
  by_cases hquery : url.query = ""
  · have hrebuilt : url.rebuilt.toList = url.path.toList := by
      rw [Url.rebuilt, if_pos hquery, String.append_empty]
    rw [hrebuilt, parts, upTo_of_not_mem h.pathMarks.1, past_of_not_mem h.pathMarks.1,
      upTo_of_not_mem h.pathMarks.2, past_of_not_mem h.pathMarks.2, hquery, String.ofList_toList]
  · have hrebuilt : url.rebuilt.toList = url.path.toList ++ '?' :: url.query.toList := by
      rw [Url.rebuilt, if_neg hquery, String.toList_append, String.toList_append]
      rfl
    have hmark : '#' ∉ url.rebuilt.toList := by
      rw [hrebuilt, List.mem_append, List.mem_cons, not_or, not_or]
      exact ⟨h.pathMarks.1, by decide, h.queryMarks⟩
    rw [parts, upTo_of_not_mem hmark, past_of_not_mem hmark, hrebuilt, upTo_append_cons h.pathMarks.2,
      past_append_cons h.pathMarks.2, String.ofList_toList, String.ofList_toList]

end HermesOps.Http
