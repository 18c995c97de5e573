import HermesOps.Hermesfile.Canonical

/-! `validate_source` of `hermesfile.py` with the constructor of `_StrictLoader`, and the screen for
    secrets of `sandbox_profiles.py`. A source is its decoded text: bytes that are not UTF-8 are refused
    before anything else happens. The scanner, the parser and the resolver of the YAML library are a
    parameter that gives the composed nodes, and so is the `repr` of a float. The patterns of the screen
    look at bytes, but only tell the ASCII ones apart, so they are run over characters. -/

namespace HermesOps.Hermesfile

open Schemes

/-! ### Loading -/

/-- A scalar as the library constructs it. -/
inductive Scalar where
  | null
  | bool (b : Bool)
  | int (n : Int)
  | float (x : Float64)
  | str (s : String)
  | other

/-- A composed node; an alias is an event that `compose_node` refuses. -/
inductive YamlNode where
  | scalar (x : Scalar)
  | seq (items : List YamlNode)
  | map (members : List (YamlNode × YamlNode))
  | alias

def Scalar.value : Scalar → Value
  | .null => .null
  | .bool b => .bool b
  | .int n => .int n
  | .float x => .float x
  | .str s => .str s
  | .other => .other

/-- A key of `construct_mapping`: a new text that is not `<<`. -/
def YamlNode.key? (mapping : Members) : YamlNode → Option String
  | .scalar (.str key) => if key = "<<" ∨ key ∈ mapping.keys then none else some key
  | _ => none

mutual

/-- `construct_object`; nothing when the loader raises. -/
def construct : YamlNode → Option Value
  | .scalar x => some x.value
  | .seq items => (constructItems items).map .seq
  | .map members => (constructMembers [] members).map .map
  | .alias => none

def constructItems : List YamlNode → Option (List Value)
  | [] => some []
  | x :: xs => (construct x).bind fun v => (constructItems xs).map fun vs => v :: vs

/-- `construct_mapping`, with the mapping so far. -/
def constructMembers (mapping : Members) : List (YamlNode × YamlNode) → Option Members
  | [] => some mapping
  | (k, x) :: rest =>
    (k.key? mapping).bind fun key => (construct x).bind fun v =>
      constructMembers (mapping ++ [(key, v)]) rest

end

/-- What validation takes from libraries; `compose` gives the documents of a text. -/
structure Reader where
  lib : Library
  compose : String → Option (List YamlNode)
  floatRepr : Rat → String
  sha256 : String → String

variable (y : Reader)

/-- `list(yaml.load_all(text, Loader=_StrictLoader))`. -/
def loadAll (text : String) : Option (List Value) := (y.compose text).bind (List.mapM construct)

/-! ### Canonical bytes -/

mutual

/-- `json.dumps` with sorted keys and without spaces: nothing for a value that has no JSON form, or an
    integer of more digits than are printed. -/
def jsonText : Value → Option String
  | .null => some "null"
  | .bool b => some (if b then "true" else "false")
  | .int n => if n.natAbs < 10 ^ 4300 then some (toString n) else none
  | .float (.finite q) => some (y.floatRepr q)
  | .float _ => none
  | .str s => some (Controller.quote s)
  | .seq items => (jsonItems items).map fun texts => "[" ++ ",".intercalate texts ++ "]"
  | .map members => (jsonMembers members).map fun texts =>
      "\x7b" ++ ",".intercalate ((texts.insertionSort fun a b => a.1 ≤ b.1).map Prod.snd) ++ "\x7d"
  | .other => none

def jsonItems : List Value → Option (List String)
  | [] => some []
  | x :: xs => (jsonText x).bind fun s => (jsonItems xs).map fun texts => s :: texts

/-- The members, each with its key. -/
def jsonMembers : List (String × Value) → Option (List (String × String))
  | [] => some []
  | (k, x) :: xs =>
    (jsonText x).bind fun s => (jsonMembers xs).map fun texts =>
      (k, Controller.quote k ++ ":" ++ s) :: texts

end

/-! ### Validation -/

def maxSourceBytes : Nat := 262144
def maxSourceLines : Nat := 8192

/-- The parts of a `HermesfileResult` that are stored. -/
structure Accepted where
  canonical : Value
  canonicalText : String
  sourceSha256 : String
  canonicalSha256 : String
  diagnostics : List Diagnostic

/-- A report that is not valid, an exception that is not about YAML, or a valid report. -/
inductive Verdict where
  | invalid
  | raised
  | valid (r : Accepted)

/-- The size and the characters of a source. -/
def readable (source : String) : Bool :=
  source.utf8ByteSize ≤ maxSourceBytes ∧ source.toList.count '\n' + 1 ≤ maxSourceLines ∧
    source.toList.head? ≠ some (Char.ofNat 0xFEFF) ∧ source.toList.all fun c => c.toNat ≠ 0

/-- The result for a document without errors. -/
def accept (source : String) (document : Value) (diagnostics : List Diagnostic) : Verdict :=
  match canonicalize document with
  | none => .raised
  | some canonical =>
    match jsonText y canonical with
    | none => .raised
    | some canonicalText => .valid
        { canonical, canonicalText, sourceSha256 := y.sha256 source,
          canonicalSha256 := y.sha256 canonicalText, diagnostics }

/-- `validate_source`. -/
def validateSource (source : String) : Verdict :=
  if ¬readable source then .invalid
  else
    match loadAll y source with
    | some [document] =>
      let validator := validateDocument y.lib document
      if validator.hasErrors then .invalid else accept y source document validator.diagnostics
    | _ => .invalid

/-! ### The screen for secrets -/

/-- The bytes that `(?i)` compares alike. -/
def foldAscii (c : Char) : Char := if 65 ≤ c.toNat ∧ c.toNat ≤ 90 then Char.ofNat (c.toNat + 32) else c

def isAsciiSpace (c : Char) : Bool := c.toNat ∈ [9, 10, 11, 12, 13, 32]

def isAsciiWord : Char → Bool := Regex.chars [('A', 'Z'), ('a', 'z'), ('0', '9')] "_"

def upperAlnum : Char → Bool := Regex.chars [('A', 'Z'), ('0', '9')] ""

def tokenChar : Char → Bool := Regex.chars [('A', 'Z'), ('a', 'z'), ('0', '9')] "_-"

/-- `word\b`. -/
def wholeWord (word : String) : Regex :=
  .seq (.literalFolding foldAscii word) (.boundary isAsciiWord)

/-- A prefix that no alphanumeric stands before, and at least twenty characters. -/
def prefixedToken (lead : Regex) (body : Char → Bool) : Regex :=
  .sequence [.notAfter alnum, lead, .atLeast 20 (.set body)]

/-- `_HIGH_CONFIDENCE_SECRET_PATTERNS`. -/
def highConfidenceSecretPatterns : List Regex :=
  [ privateKeyPattern,
    .literal "$\x7b",
    credentialUrl foldAscii isAsciiSpace,
    .sequence
      [ .boundary isAsciiWord,
        secretWord foldAscii,
        .star (.set isAsciiSpace),
        .set (Regex.chars [] ":="),
        .star (.set isAsciiSpace),
        .notBefore (.oneOf [wholeWord "false", wholeWord "null", wholeWord "none"]),
        .plus (.set fun c => !(isAsciiSpace c || c = '#')) ],
    prefixedToken (.literal "sk-") tokenChar,
    prefixedToken (.literal "ghp_") alnum,
    prefixedToken (.literal "github_pat_") isAsciiWord,
    prefixedToken (.sequence [.literal "xox", .set (Regex.chars [] "baprs"), .char '-'])
      (Regex.chars [('A', 'Z'), ('a', 'z'), ('0', '9')] "-"),
    .sequence
      [ .notAfter upperAlnum, .literal "AKIA", .times 16 (.set upperAlnum),
        .notBefore (.set upperAlnum) ],
    .sequence
      [ .notAfter tokenChar, .literal "eyJ", .atLeast 8 (.set tokenChar), .char '.',
        .atLeast 8 (.set tokenChar), .char '.', .atLeast 8 (.set tokenChar),
        .notBefore (.set tokenChar) ] ]

/-- The text matches one of the patterns. -/
def credentialLike (text : String) : Bool :=
  highConfidenceSecretPatterns.any fun pattern => pattern.search text

end HermesOps.Hermesfile
