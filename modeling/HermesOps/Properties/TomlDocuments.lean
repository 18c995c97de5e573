import HermesOps.Properties.JsonRoundTrip
import HermesOps.Registry.Toml

/-! What `tomllib` makes of a document that is written line by line. Each line is read on its own, and the
    lines of a section fill its table. A text is written as JSON writes it and is read back unless it contains
    the one control character that JSON does not escape and TOML does not allow. -/

namespace HermesOps.Registry.Toml

open Hermesfile (Value Members)
open Controller (escape quote hexDigit hexValue maxIntDigits)

/-! ### Texts -/

/-- U+007F. -/
def delete : Char := '\x7f'

theorem scanText_escape {rest after : List Char} {d : Char} (h : escaped rest = .ok (d, after)) :
    scanText ('\\' :: rest) = (scanText after).map fun x => (d :: x.1, x.2) := by
  rw [scanText, if_neg (by decide), if_pos rfl]
  split
  · rename_i d' after' h'
    cases h.symm.trans h'
    rfl
  · rename_i h'
    cases h.symm.trans h'

/-- A control character is read back from its four digits. -/
theorem escaped_control {c : Char} (h : c.toNat < 32) (rest : List Char) :
    escaped ('u' :: '0' :: '0' :: hexDigit (c.toNat / 16) :: hexDigit (c.toNat % 16) :: rest) =
      .ok (c, rest) := by
  have hzero : hexValue '0' = some 0 := by decide
  have hnumber : hexNumber ['0', '0', hexDigit (c.toNat / 16), hexDigit (c.toNat % 16)] = some c.toNat := by
    simp only [hexNumber, List.foldlM_cons, List.foldlM_nil, hzero, Option.map_some, Option.bind_eq_bind,
      Option.bind_some, Controller.hexValue_hexDigit (show c.toNat / 16 < 16 by omega),
      Controller.hexValue_hexDigit (show c.toNat % 16 < 16 by omega), Option.pure_def, Option.some.injEq]
    omega
  have hvalid : c.toNat.isValidChar := .inl (by omega)
  have htake : ('0' :: '0' :: hexDigit (c.toNat / 16) :: hexDigit (c.toNat % 16) :: rest).take 4 =
      ['0', '0', hexDigit (c.toNat / 16), hexDigit (c.toNat % 16)] := rfl
  rw [escaped, if_pos rfl, hexChar, htake, hnumber]
  dsimp only
  rw [if_pos ⟨rfl, hvalid⟩, Char.ofNat_toNat]
  rfl

/-- A character that is written as it is. -/
theorem scanText_plain {c : Char} (hquote : c ≠ '"') (hslash : c ≠ '\\') (hlow : 32 ≤ c.toNat)
    (rest : List Char) :
    scanText (c :: rest) =
      if c = delete then .error .decode else (scanText rest).map fun x => (c :: x.1, x.2) := by
  rw [scanText, if_neg hquote, if_neg hslash]
  by_cases hc : c = delete
  · subst hc
    rfl
  · have hlegal : isIllegal c = false := by
      refine decide_eq_false fun h => ?_
      rcases h.1 with h | h
      · omega
      · exact hc (Controller.toNat_inj h)
    rw [hlegal, if_neg hc, if_neg Bool.false_ne_true]

/-- What JSON writes for a character is read as that character, if TOML allows it. -/
theorem scanText_written (c : Char) (rest : List Char) :
    scanText ((escape c).toList ++ rest) =
      if c = delete then .error .decode else (scanText rest).map fun x => (c :: x.1, x.2) := by
  have hplain : c ≠ '"' → c ≠ '\\' → 32 ≤ c.toNat → scanText (c.toString.toList ++ rest) =
      if c = delete then .error .decode else (scanText rest).map fun x => (c :: x.1, x.2) := by
    intro hquote hslash hlow
    rw [show c.toString.toList = [c] from String.toList_ofList]
    exact scanText_plain hquote hslash hlow rest
  by_cases hd : c = delete
  · subst hd
    exact hplain (by decide) (by decide) (by decide)
  rw [if_neg hd] at hplain ⊢
  unfold escape
  split_ifs with h₁ h₂ h₃ h₄ h₅ h₆ h₇ h₈
  · obtain rfl : c = '"' := Controller.toNat_inj h₁
    exact scanText_escape rfl
  · obtain rfl : c = '\\' := Controller.toNat_inj h₂
    exact scanText_escape rfl
  · obtain rfl : c = '\n' := Controller.toNat_inj h₃
    exact scanText_escape rfl
  · obtain rfl : c = '\r' := Controller.toNat_inj h₄
    exact scanText_escape rfl
  · obtain rfl : c = '\t' := Controller.toNat_inj h₅
    exact scanText_escape rfl
  · obtain rfl : c = '\x08' := Controller.toNat_inj h₆
    exact scanText_escape rfl
  · obtain rfl : c = '\x0c' := Controller.toNat_inj h₇
    exact scanText_escape rfl
  · have hdigits : (String.ofList [hexDigit (c.toNat / 16), hexDigit (c.toNat % 16)]).toList =
        [hexDigit (c.toNat / 16), hexDigit (c.toNat % 16)] := String.toList_ofList
    rw [String.toList_append, hdigits]
    exact scanText_escape (escaped_control h₈ rest)
  · exact hplain (fun h => h₁ (h ▸ rfl)) (fun h => h₂ (h ▸ rfl)) (Nat.not_lt.1 h₈)

/-- A text is read back if it does not contain the character. -/
theorem scanText_chars (cs rest : List Char) :
    scanText (cs.flatMap (fun c => (escape c).toList) ++ '"' :: rest) =
      if delete ∈ cs then .error .decode else .ok (cs, rest) := by
  induction cs with
  | nil =>
    rw [List.flatMap_nil, List.nil_append, scanText, if_pos rfl, if_neg List.not_mem_nil]
  | cons c cs ih =>
    rw [List.flatMap_cons, List.append_assoc, scanText_written, ih]
    by_cases hc : c = delete
    · simp [hc]
    · by_cases hcs : delete ∈ cs
      · simp [hc, hcs, Except.map]
      · simp [hc, hcs, Except.map, eq_comm]

/-! ### Lines -/

/-- A line of a configuration, with a bare name. -/
inductive Line where
  | blank
  | table (name : String)
  | text (key value : String)
  | flag (key : String) (value : Bool)
  | number (key : String) (value : Nat)

namespace Line

/-- The line as it is written. -/
def chars : Line → List Char
  | blank => []
  | table name => '[' :: (name.toList ++ [']'])
  | text key value => key.toList ++ (" = " ++ quote value).toList
  | flag key value => key.toList ++ (" = " ++ if value then "true" else "false").toList
  | number key value => key.toList ++ (" = " ++ toString value).toList

/-- The name of a table or a key. -/
def name : Line → Option String
  | blank => none
  | table name | text name _ | flag name _ | number name _ => some name

/-- A bare name. -/
def isBareName (name : String) : Bool := name ≠ "" ∧ name.toList.all isBare

/-- No character of the text is refused. -/
def isClean : Line → Bool
  | text _ value => delete ∉ value.toList
  | _ => true

/-- What a clean line does. -/
def effect (doc : Doc) : Line → Reading Doc
  | blank => .ok doc
  | table name => doc.declare name
  | text key value => doc.assign key (.str value)
  | flag key value => doc.assign key (.bool value)
  | number key value => doc.assign key (.int value)

end Line

/-! ### Values -/

theorem escape_head (c : Char) : ∃ d tail, (escape c).toList = d :: tail ∧ d ≠ '"' := by
  unfold escape
  split_ifs with h₁ h₂ h₃ h₄ h₅ h₆ h₇ h₈
  · exact ⟨_, _, rfl, by decide⟩
  · exact ⟨_, _, rfl, by decide⟩
  · exact ⟨_, _, rfl, by decide⟩
  · exact ⟨_, _, rfl, by decide⟩
  · exact ⟨_, _, rfl, by decide⟩
  · exact ⟨_, _, rfl, by decide⟩
  · exact ⟨_, _, rfl, by decide⟩
  · exact ⟨_, _, String.toList_append, by decide⟩
  · exact ⟨c, [], String.toList_ofList, fun h => h₁ (h ▸ rfl)⟩

theorem scanValue_text (value : String) (rest : List Char) :
    scanValue ((quote value).toList ++ '\n' :: rest) =
      if delete ∈ value.toList then .error .decode else .ok (.str value, '\n' :: rest) := by
  rw [Controller.toList_quote, List.cons_append, List.append_assoc, List.cons_append, List.nil_append]
  have hscan := scanText_chars value.toList ('\n' :: rest)
  rw [scanValue]
  · rw [hscan]
    split <;> simp [Except.map]
  · intro tail h
    cases hvalue : value.toList with
    | nil =>
      rw [hvalue, List.flatMap_nil, List.nil_append] at h
      cases h
    | cons c cs =>
      obtain ⟨d, after, hc, hd⟩ := escape_head c
      rw [hvalue, List.flatMap_cons, hc, List.cons_append, List.cons_append, List.cons.injEq] at h
      exact hd h.1

theorem scanValue_flag (value : Bool) (rest : List Char) :
    scanValue ((if value then "true" else "false").toList ++ '\n' :: rest) =
      .ok (.bool value, '\n' :: rest) := by
  cases value <;> rfl

theorem inWord_digit {c : Char} (h : c.isDigit = true) : inWord c = true := by
  have hall : [' ', '\t', '\n', '#'].all (fun d => !d.isDigit) = true := rfl
  refine decide_eq_true fun hmem => ?_
  have hother := List.all_eq_true.1 hall c hmem
  rw [h] at hother
  cases hother

theorem number_head (n : Nat) : ∃ c tail, (toString n).toList = c :: tail ∧ c.isDigit = true := by
  obtain ⟨c, tail, hcons⟩ := List.exists_cons_of_ne_nil (Schemes.Decimal.toDigits_canonical n).ne_nil
  exact ⟨c, tail, Nat.toList_repr.trans hcons,
    Schemes.Decimal.toDigits_digits n c (hcons ▸ List.mem_cons_self)⟩

theorem scanValue_number {n : Nat} (h : (Nat.toDigits 10 n).length ≤ maxIntDigits) (rest : List Char) :
    scanValue ((toString n).toList ++ '\n' :: rest) = .ok (.int n, '\n' :: rest) := by
  have hdigits := Schemes.Decimal.toDigits_digits n
  have hword : ∀ c ∈ Nat.toDigits 10 n, inWord c = true := fun c hc => inWord_digit (hdigits c hc)
  obtain ⟨c, tail, hcons, hc⟩ := number_head n
  rw [show (toString n).toList = Nat.toDigits 10 n from Nat.toList_repr] at hcons ⊢
  have htake : (Nat.toDigits 10 n ++ '\n' :: rest).takeWhile inWord = Nat.toDigits 10 n := by
    rw [List.takeWhile_append_of_pos hword, List.takeWhile_cons_of_neg (by decide), List.append_nil]
  have hdrop : (Nat.toDigits 10 n ++ '\n' :: rest).dropWhile inWord = '\n' :: rest := by
    rw [List.dropWhile_append_of_pos hword, List.dropWhile_cons_of_neg (by decide)]
  have hdecimal : isDecimal (Nat.toDigits 10 n) = true := by
    refine decide_eq_true ⟨?_, List.all_eq_true.2 hdigits, ?_, h⟩
    · exact (Schemes.Decimal.toDigits_canonical n).ne_nil
    · rcases Schemes.Decimal.toDigits_canonical n with hzero | ⟨c, tail, hcons, hc⟩
      · exact .inl hzero
      · rw [hcons]
        exact .inr fun heq => hc (Option.some.inj heq)
  have hhead : ∀ d : Char, d.isDigit = false → ∀ after, Nat.toDigits 10 n ++ '\n' :: rest ≠ d :: after := by
    intro d hd after heq
    rw [hcons, List.cons_append, List.cons.injEq] at heq
    rw [heq.1, hd] at hc
    cases hc
  rw [scanValue, htake, if_pos hdecimal, hdrop, Nat.ofDigitChars_ten_toDigits]
  · exact fun after heq => hhead '"' (by decide) _ heq
  · exact fun after heq => hhead '"' (by decide) _ heq
  · exact fun after heq => hhead 't' (by decide) _ heq
  · exact fun after heq => hhead 'f' (by decide) _ heq

/-! ### Statements -/

theorem bare_ne {c : Char} (h : isBare c = true) :
    isBlank c = false ∧ c ≠ '\n' ∧ c ≠ '[' ∧ c ≠ '#' := by
  have hall : [' ', '\t', '\n', '[', '#'].all (fun d => !isBare d) = true := rfl
  have hne : ∀ d ∈ [' ', '\t', '\n', '[', '#'], c ≠ d := by
    rintro d hd rfl
    have hother := List.all_eq_true.1 hall c hd
    rw [h] at hother
    cases hother
  exact ⟨decide_eq_false (by simp [hne]), hne _ (by simp), hne _ (by simp), hne _ (by simp)⟩

theorem isBareName_iff {name : String} : Line.isBareName name = true ↔
    name.toList ≠ [] ∧ ∀ c ∈ name.toList, isBare c = true := by
  unfold Line.isBareName
  rw [decide_eq_true_iff, List.all_eq_true, ne_eq, ← String.toList_eq_nil_iff]

variable {name : String} {doc : Doc} {rest : List Char}

/-- A bare name ends before a blank or a bracket. -/
theorem scanKey_name (h : Line.isBareName name = true) {d : Char} (hd : isBare d = false)
    (hdot : ∀ tail, (d :: rest).dropWhile isBlank ≠ '.' :: tail) :
    scanKey (name.toList ++ d :: rest) = .ok (name, (d :: rest).dropWhile isBlank) := by
  obtain ⟨hne, hbare⟩ := isBareName_iff.1 h
  have htake : (name.toList ++ d :: rest).takeWhile isBare = name.toList := by
    rw [List.takeWhile_append_of_pos hbare, List.takeWhile_cons_of_neg (by simp [hd]), List.append_nil]
  have hdrop : (name.toList ++ d :: rest).dropWhile isBare = d :: rest := by
    rw [List.dropWhile_append_of_pos hbare, List.dropWhile_cons_of_neg (by simp [hd])]
  unfold scanKey
  rw [htake, hdrop]
  split
  · rename_i hnil _
    exact absurd hnil hne
  · rename_i hnil _
    exact absurd hnil hne
  · rename_i hnil _ _
    exact absurd hnil hne
  · rename_i hafter _
    exact absurd hafter (hdot _)
  · rw [String.ofList_toList]

theorem statement_bare {c : Char} (h : isBare c = true) :
    statement doc (c :: rest) = member doc (c :: rest) := by
  obtain ⟨-, -, hbracket, hcomment⟩ := bare_ne h
  rw [statement]
  · rw [if_pos (.inl h)]
  · exact fun tail heq => absurd heq hbracket
  · exact fun heq => hbracket heq
  · exact fun heq => hcomment heq

/-- Behind its key, a member is its value and what the value does to the table. -/
theorem member_ok {cs : List Char} {name : String} (hkey : scanKey cs = .ok (name, '=' :: rest)) :
    member doc cs = (scanValue (rest.dropWhile isBlank)).bind fun x =>
      (doc.assign name x.1).map fun doc => (doc, x.2) := by
  rw [member, hkey]
  show (scanValue (rest.dropWhile isBlank)).bind _ = _
  cases scanValue (rest.dropWhile isBlank) with
  | error e => rfl
  | ok x =>
    show (doc.assign name x.1).bind _ = (doc.assign name x.1).map _
    cases doc.assign name x.1 <;> rfl

/-- A member is read when its value is. -/
theorem statement_member (h : Line.isBareName name = true) {written : List Char} {value : Reading Value}
    (hblank : (written ++ '\n' :: rest).dropWhile isBlank = written ++ '\n' :: rest)
    (hvalue : scanValue (written ++ '\n' :: rest) = value.map fun v => (v, '\n' :: rest)) :
    statement doc (name.toList ++ ' ' :: '=' :: ' ' :: (written ++ '\n' :: rest)) =
      (value.bind fun v => doc.assign name v).map fun doc => (doc, '\n' :: rest) := by
  have hkey : scanKey (name.toList ++ ' ' :: '=' :: ' ' :: (written ++ '\n' :: rest)) =
      .ok (name, '=' :: ' ' :: (written ++ '\n' :: rest)) :=
    scanKey_name h (by decide) fun _ heq => by cases heq
  obtain ⟨hne, hbare⟩ := isBareName_iff.1 h
  obtain ⟨c, cs, hname⟩ := List.exists_cons_of_ne_nil hne
  have hmember : statement doc (name.toList ++ ' ' :: '=' :: ' ' :: (written ++ '\n' :: rest)) =
      member doc (name.toList ++ ' ' :: '=' :: ' ' :: (written ++ '\n' :: rest)) := by
    rw [hname, List.cons_append]
    exact statement_bare (hbare c (hname ▸ List.mem_cons_self))
  have hspace : (' ' :: (written ++ '\n' :: rest)).dropWhile isBlank = written ++ '\n' :: rest := by
    rw [List.dropWhile_cons_of_pos (by decide), hblank]
  rw [hmember, member_ok hkey, hspace, hvalue]
  cases value with
  | error e => rfl
  | ok v => rfl

theorem statement_table (h : Line.isBareName name = true) :
    statement doc ('[' :: (name.toList ++ ']' :: rest)) = (doc.declare name).map fun doc => (doc, rest) := by
  obtain ⟨hne, hbare⟩ := isBareName_iff.1 h
  obtain ⟨c, cs, hname⟩ := List.exists_cons_of_ne_nil hne
  have hc := bare_ne (hbare c (hname ▸ List.mem_cons_self))
  have hkey : scanKey ((name.toList ++ ']' :: rest).dropWhile isBlank) = .ok (name, ']' :: rest) := by
    rw [hname, List.cons_append, List.dropWhile_cons_of_neg (by simp [hc.1]), ← List.cons_append, ← hname]
    exact scanKey_name h (by decide) fun _ heq => by cases heq
  rw [statement]
  · rw [header, hkey]
    show (do let doc ← doc.declare name; return (doc, rest)) = _
    cases doc.declare name <;> rfl
  · rw [hname]
    exact fun tail heq => hc.2.2.1 (List.cons.inj heq).1

/-- The statement of a line, which ends with it. -/
theorem readLines_statement {rounds : Nat} {c : Char} {cs : List Char} {result : Reading Doc}
    (hblank : isBlank c = false) (hc : c ≠ '\n')
    (h : statement doc (c :: cs) = result.map fun doc => (doc, '\n' :: rest)) :
    readLines (rounds + 1) doc (c :: cs) = result.bind fun doc => readLines rounds doc rest := by
  rw [readLines, List.dropWhile_cons_of_neg (by simp [hblank])]
  split
  · rename_i heq
    cases heq
  · rename_i heq
    exact absurd (List.cons.inj heq).1 hc
  · rw [h]
    cases result <;> rfl

/-! ### Documents -/

namespace Line

/-- The names are bare, and numbers are short enough for `int`. -/
def isPlain (l : Line) : Bool :=
  l.name.all isBareName && match l with
    | number _ value => (Nat.toDigits 10 value).length ≤ maxIntDigits
    | _ => true

/-- What a line does. -/
def read (doc : Doc) (l : Line) : Reading Doc := if l.isClean then l.effect doc else .error .decode

end Line

theorem readLines_member {rounds : Nat} (h : Line.isBareName name = true) {written : String}
    {value : Reading Value}
    (hblank : (written.toList ++ '\n' :: rest).dropWhile isBlank = written.toList ++ '\n' :: rest)
    (hvalue : scanValue (written.toList ++ '\n' :: rest) = value.map fun v => (v, '\n' :: rest)) :
    readLines (rounds + 1) doc (name.toList ++ (" = " ++ written).toList ++ '\n' :: rest) =
      (value.bind fun v => doc.assign name v).bind fun doc => readLines rounds doc rest := by
  obtain ⟨hne, hbare⟩ := isBareName_iff.1 h
  obtain ⟨c, cs, hname⟩ := List.exists_cons_of_ne_nil hne
  have hc := bare_ne (hbare c (hname ▸ List.mem_cons_self))
  have hchars : name.toList ++ (" = " ++ written).toList ++ '\n' :: rest =
      name.toList ++ ' ' :: '=' :: ' ' :: (written.toList ++ '\n' :: rest) := by
    rw [String.toList_append, List.append_assoc, List.append_assoc]
    rfl
  have hstatement : statement doc (name.toList ++ ' ' :: '=' :: ' ' :: (written.toList ++ '\n' :: rest)) = _ :=
    statement_member h hblank hvalue
  rw [hchars]
  rw [hname, List.cons_append] at hstatement ⊢
  exact readLines_statement hc.1 hc.2.1 hstatement

theorem readLines_line {rounds : Nat} {l : Line} (h : l.isPlain = true) :
    readLines (rounds + 1) doc (l.chars ++ '\n' :: rest) =
      (l.read doc).bind fun doc => readLines rounds doc rest := by
  obtain ⟨hname, hnumber⟩ := Bool.and_eq_true_iff.1 h
  cases l with
  | blank => rfl
  | table name =>
    rw [Line.chars, List.cons_append, List.append_assoc]
    exact readLines_statement (by decide) (by decide) (statement_table hname)
  | text key value =>
    have hvalue : scanValue ((quote value).toList ++ '\n' :: rest) =
        (if delete ∈ value.toList then .error .decode else .ok (.str value) : Reading Value).map
          fun v => (v, '\n' :: rest) := by
      rw [scanValue_text]
      split <;> rfl
    refine (readLines_member hname ?_ hvalue).trans ?_
    · rw [Controller.toList_quote, List.cons_append, List.dropWhile_cons_of_neg (by decide)]
    · unfold Line.read Line.isClean
      by_cases hclean : delete ∈ value.toList
      · simp [hclean, Except.bind]
      · simp [hclean, Except.bind, Line.effect]
  | flag key value =>
    have hvalue : scanValue ((if value then "true" else "false").toList ++ '\n' :: rest) =
        (.ok (.bool value) : Reading Value).map fun v => (v, '\n' :: rest) := scanValue_flag value rest
    refine readLines_member hname ?_ hvalue
    cases value <;> rfl
  | number key value =>
    have hvalue : scanValue ((toString value).toList ++ '\n' :: rest) =
        (.ok (.int value) : Reading Value).map fun v => (v, '\n' :: rest) :=
      scanValue_number (of_decide_eq_true hnumber) rest
    refine readLines_member hname ?_ hvalue
    obtain ⟨c, tail, hcons, hc⟩ := number_head value
    have hblank : isBlank c = false := decide_eq_false fun h => by
      rcases h with rfl | rfl
      · cases hc
      · cases hc
    rw [hcons, List.cons_append, List.dropWhile_cons_of_neg (by simp [hblank])]

/-! ### Documents -/

/-- The lines as they are written. -/
def write (lines : List Line) : List Char := lines.flatMap fun l => l.chars ++ ['\n']

variable {lines : List Line}

theorem write_cons (l : Line) (lines : List Line) :
    write (l :: lines) = l.chars ++ '\n' :: write lines := by
  rw [write, List.flatMap_cons, List.append_assoc]
  rfl

theorem readLines_write (h : ∀ l ∈ lines, l.isPlain = true) {rounds : Nat}
    (hrounds : lines.length < rounds) :
    readLines rounds doc (write lines) = (lines.foldlM Line.read doc).map Doc.data := by
  induction lines generalizing doc rounds with
  | nil =>
    obtain ⟨rounds, rfl⟩ := Nat.exists_eq_succ_of_ne_zero (Nat.ne_of_gt hrounds)
    rfl
  | cons l lines ih =>
    obtain ⟨hl, hlines⟩ := List.forall_mem_cons.1 h
    obtain ⟨rounds, rfl⟩ := Nat.exists_eq_succ_of_ne_zero (Nat.ne_of_gt (Nat.zero_lt_of_lt hrounds))
    rw [write_cons, readLines_line hl, List.foldlM_cons]
    cases hread : l.read doc with
    | error e => rfl
    | ok doc' => exact ih hlines (Nat.lt_of_succ_lt_succ hrounds)

theorem effect_error {l : Line} {e : TomlError} (h : l.effect doc = .error e) : e = .decode := by
  cases l with
  | blank => cases h
  | table name =>
    simp only [Line.effect, Doc.declare] at h
    split at h
    · cases h
      rfl
    · cases h
  | text | flag | number =>
    simp only [Line.effect, Doc.assign] at h
    repeat' split at h
    all_goals cases h
    all_goals rfl

/-- One line that is not clean is enough for the document to be refused. -/
theorem foldlM_read : lines.foldlM Line.read doc =
    if lines.all Line.isClean then lines.foldlM Line.effect doc else .error .decode := by
  induction lines generalizing doc with
  | nil => rfl
  | cons l lines ih =>
    rw [List.foldlM_cons, List.foldlM_cons, Line.read, List.all_cons]
    cases hclean : l.isClean with
    | false => rfl
    | true =>
      rw [if_pos rfl, Bool.true_and]
      cases heffect : l.effect doc with
      | error e =>
        rw [effect_error heffect]
        split <;> rfl
      | ok doc' => exact ih

theorem unified_self {cs : List Char} (h : '\r' ∉ cs) : unified cs = cs := by
  fun_induction unified cs with
  | case1 rest ih => exact absurd List.mem_cons_self h
  | case2 c rest _ ih => rw [ih fun hmem => h (List.mem_cons_of_mem _ hmem)]
  | case3 => rfl

theorem printable_of_all {cs : List Char} (h : cs.all (fun c => 32 ≤ c.toNat) = true) :
    ∀ c ∈ cs, 32 ≤ c.toNat := fun c hc => of_decide_eq_true (List.all_eq_true.1 h c hc)

/-- No control character is written for a character. -/
theorem escape_printable (c : Char) : ∀ d ∈ (escape c).toList, 32 ≤ d.toNat := by
  have hdigit : ∀ n < 16, 32 ≤ (hexDigit n).toNat := by decide
  unfold escape
  split_ifs with h₁ h₂ h₃ h₄ h₅ h₆ h₇ h₈
  · exact printable_of_all rfl
  · exact printable_of_all rfl
  · exact printable_of_all rfl
  · exact printable_of_all rfl
  · exact printable_of_all rfl
  · exact printable_of_all rfl
  · exact printable_of_all rfl
  · intro d hd
    rw [String.toList_append] at hd
    rcases List.mem_append.1 hd with hd | hd
    · have hcode : "\\u00".toList.all (fun c => 32 ≤ c.toNat) = true := rfl
      exact printable_of_all hcode d hd
    · rw [String.toList_ofList] at hd
      rcases List.mem_cons.1 hd with rfl | hd
      · exact hdigit _ (by omega)
      · rw [List.mem_singleton.1 hd]
        exact hdigit _ (by omega)
  · intro d hd
    rw [show c.toString.toList = [c] from String.toList_ofList] at hd
    rw [List.mem_singleton.1 hd]
    exact Nat.not_lt.1 h₈

theorem quote_printable (value : String) : ∀ d ∈ (quote value).toList, 32 ≤ d.toNat := by
  intro d hd
  rw [Controller.toList_quote] at hd
  rcases List.mem_cons.1 hd with rfl | hd
  · decide
  · rcases List.mem_append.1 hd with hd | hd
    · obtain ⟨c, -, hc⟩ := List.mem_flatMap.1 hd
      exact escape_printable c d hc
    · rw [List.mem_singleton.1 hd]
      decide

theorem bareName_printable (h : Line.isBareName name = true) : ∀ d ∈ name.toList, 32 ≤ d.toNat := by
  intro d hd
  have hbare := (isBareName_iff.1 h).2 d hd
  by_contra hlow
  have hall : ∀ n < 32, isBare (Char.ofNat n) = false := by decide
  have hfalse := hall d.toNat (Nat.not_le.1 hlow)
  rw [Char.ofNat_toNat, hbare] at hfalse
  cases hfalse

theorem chars_printable {l : Line} (h : l.isPlain = true) : ∀ d ∈ l.chars, 32 ≤ d.toNat := by
  have hname := (Bool.and_eq_true_iff.1 h).1
  have hmember : ∀ {key written : String}, Line.isBareName key = true →
      (∀ d ∈ written.toList, 32 ≤ d.toNat) → ∀ d ∈ key.toList ++ (" = " ++ written).toList, 32 ≤ d.toNat := by
    intro key written hkey hwritten
    rw [String.toList_append]
    exact List.forall_mem_append.2 ⟨bareName_printable hkey,
      List.forall_mem_append.2 ⟨printable_of_all rfl, hwritten⟩⟩
  cases l with
  | blank => exact fun _ hd => by cases hd
  | table name =>
    exact List.forall_mem_cons.2 ⟨by decide,
      List.forall_mem_append.2 ⟨bareName_printable hname, printable_of_all rfl⟩⟩
  | text key value => exact hmember hname (quote_printable value)
  | flag key value =>
    refine hmember hname ?_
    cases value <;> exact printable_of_all rfl
  | number key value =>
    refine hmember hname ?_
    rw [show (toString value).toList = Nat.toDigits 10 value from Nat.toList_repr]
    intro d hd
    have hbound := Schemes.Decimal.digit_bounds (Schemes.Decimal.toDigits_digits value d hd)
    omega

/-- What `tomllib` makes of the lines. -/
theorem loads_lines {text : String} (htext : text.toList = write lines)
    (h : ∀ l ∈ lines, l.isPlain = true) :
    loads text = if lines.all Line.isClean then (lines.foldlM Line.effect ⟨[], none⟩).map Doc.data
      else .error .decode := by
  have hreturn : '\r' ∉ write lines := by
    intro hmem
    obtain ⟨l, hl, hd⟩ := List.mem_flatMap.1 hmem
    rcases List.mem_append.1 hd with hd | hd
    · exact absurd (chars_printable (h l hl) _ hd) (by decide)
    · exact absurd (List.mem_singleton.1 hd) (by decide)
  have hrounds : lines.length < (write lines).length + 1 := by
    clear htext h hreturn
    induction lines with
    | nil => exact Nat.zero_lt_one
    | cons l lines ih =>
      rw [write_cons, List.length_append, List.length_cons, List.length_cons]
      omega
  rw [loads, htext, unified_self hreturn, readLines_write h hrounds, foldlM_read]
  split <;> rfl

/-! ### Sections -/

/-- The member that a line adds to its table. -/
def Line.member : Line → Option (String × Value)
  | .blank | .table _ => none
  | .text key value => some (key, .str value)
  | .flag key value => some (key, .bool value)
  | .number key value => some (key, .int value)

variable {data table : Members} {key : String} {value : Value}

theorem get?_cons_none {k : String} {y : Value} (h : Hermesfile.Members.get? ((k, y) :: data) key = none) :
    k ≠ key ∧ data.get? key = none := by
  rw [Hermesfile.Members.get?_cons] at h
  split at h
  · cases h
  · rename_i hk
    exact ⟨hk, h⟩

theorem get?_append_new (h : data.get? key = none) (value : Value) :
    (data ++ [(key, value)]).get? key = some value := by
  induction data with
  | nil => simp [Hermesfile.Members.get?]
  | cons x data ih =>
    obtain ⟨hx, hdata⟩ := get?_cons_none h
    rw [List.cons_append, Hermesfile.Members.get?_cons, if_neg hx]
    exact ih hdata

theorem set_append_new (h : data.get? key = none) (old value : Value) :
    (data ++ [(key, old)]).set key value = data ++ [(key, value)] := by
  induction data with
  | nil => simp [Hermesfile.Members.set]
  | cons x data ih =>
    obtain ⟨hx, hdata⟩ := get?_cons_none h
    rw [List.cons_append, Hermesfile.Members.set, if_neg hx, ih hdata]
    rfl

theorem set_new (h : data.get? key = none) (value : Value) :
    data.set key value = data ++ [(key, value)] := by
  induction data with
  | nil => rfl
  | cons x data ih =>
    obtain ⟨hx, hdata⟩ := get?_cons_none h
    rw [Hermesfile.Members.set, if_neg hx, ih hdata]
    rfl

theorem declare_new (h : data.get? name = none) (header : Option String) :
    Doc.declare ⟨data, header⟩ name = .ok ⟨data ++ [(name, .map [])], some name⟩ := by
  rw [Doc.declare, if_neg (by simp [h]), set_new h]

theorem assign_new (hname : data.get? name = none) (hkey : table.get? key = none) :
    Doc.assign ⟨data ++ [(name, .map table)], some name⟩ key value =
      .ok ⟨data ++ [(name, .map (table ++ [(key, value)]))], some name⟩ := by
  simp only [Doc.assign, get?_append_new hname, hkey]
  rw [if_neg (by simp), set_append_new hname, set_new hkey]

theorem effect_append {before after : List Line} {doc' : Doc}
    (h : before.foldlM Line.effect doc = .ok doc') :
    (before ++ after).foldlM Line.effect doc = after.foldlM Line.effect doc' := by
  rw [List.foldlM_append, h]
  rfl

/-- The lines of a section fill its table in their order. -/
theorem effect_members (hname : data.get? name = none)
    (hkeys : ((table ++ lines.filterMap Line.member).map Prod.fst).Nodup)
    (hlines : ∀ l ∈ lines, ∀ other, l ≠ .table other) :
    lines.foldlM Line.effect ⟨data ++ [(name, .map table)], some name⟩ =
      .ok ⟨data ++ [(name, .map (table ++ lines.filterMap Line.member))], some name⟩ := by
  induction lines generalizing table with
  | nil =>
    rw [List.filterMap_nil, List.append_nil]
    rfl
  | cons l lines ih =>
    obtain ⟨hl, hrest⟩ := List.forall_mem_cons.1 hlines
    have hassign : ∀ {key value}, l.member = some (key, value) →
        l.effect ⟨data ++ [(name, .map table)], some name⟩ =
          Doc.assign ⟨data ++ [(name, .map table)], some name⟩ key value →
        (l :: lines).foldlM Line.effect ⟨data ++ [(name, .map table)], some name⟩ =
          .ok ⟨data ++ [(name, .map (table ++ (l :: lines).filterMap Line.member))], some name⟩ := by
      intro key value hmember heffect
      rw [List.filterMap_cons_some hmember] at hkeys ⊢
      have hkey : table.get? key = none := by
        rw [Hermesfile.Members.get?_eq_none_iff]
        intro hmem
        rw [List.map_append, List.nodup_append] at hkeys
        exact hkeys.2.2 _ hmem _ (List.mem_cons_self) rfl
      rw [List.foldlM_cons, heffect, assign_new hname hkey]
      rw [List.append_cons table _ (lines.filterMap Line.member)] at hkeys ⊢
      exact ih hkeys hrest
    cases l with
    | blank => exact ih hkeys hrest
    | table other => exact absurd rfl (hl other)
    | text key value => exact hassign rfl rfl
    | flag key value => exact hassign rfl rfl
    | number key value => exact hassign rfl rfl

theorem effect_section (hname : data.get? name = none) (header : Option String)
    (hkeys : ((lines.filterMap Line.member).map Prod.fst).Nodup)
    (hlines : ∀ l ∈ lines, ∀ other, l ≠ .table other) :
    (.table name :: lines).foldlM Line.effect ⟨data, header⟩ =
      .ok ⟨data ++ [(name, .map (lines.filterMap Line.member))], some name⟩ := by
  rw [List.foldlM_cons, Line.effect, declare_new hname]
  exact effect_members hname hkeys hlines

end HermesOps.Registry.Toml
