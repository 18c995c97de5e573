import Mathlib.Data.List.Sort
import HermesOps.Schemes.Regex
import HermesOps.Controller.Values
import HermesOps.Hermesfile.Values
import HermesOps.Hermesfile.Quantities

/-! The checks of `hermesfile.py` on a parsed document. None of them looks at the diagnostics that are
    there already, so each is a list of the diagnostics it adds, in their order, and the value it
    returns is a function of its own; `_Validator` keeps the first hundred of what it is given. -/

namespace HermesOps.Hermesfile

open Schemes

def maxNodes : Nat := 10000
def maxDepth : Nat := 32
def maxDiagnostics : Nat := 100
def maxScalarChars : Nat := 16384

/-- What the checks take from the standard library: `str.isalnum` of a character, which `\b` looks at,
    and whether `ipaddress.ip_network` accepts a text. -/
structure Library where
  isAlnum : Char → Bool
  isIpNetwork : String → Bool

/-! ### Patterns -/

def lowerAlnum : Char → Bool := Regex.chars [('a', 'z'), ('0', '9')] ""
def alnum : Char → Bool := Regex.chars [('A', 'Z'), ('a', 'z'), ('0', '9')] ""
def hexLower : Char → Bool := Regex.chars [('a', 'f'), ('0', '9')] ""

def namePattern : Regex :=
  .seq (.set lowerAlnum) (.optional (.seq
    (.upTo 61 (.set (Regex.chars [('a', 'z'), ('0', '9')] "-"))) (.set lowerAlnum)))

def labelPattern : Regex :=
  .seq (.set alnum) (.upTo 62 (.set (Regex.chars [('A', 'Z'), ('a', 'z'), ('0', '9')] "_.-")))

def userPattern : Regex :=
  .seq (.set (Regex.chars [('a', 'z')] "_"))
    (.upTo 31 (.set (Regex.chars [('a', 'z'), ('0', '9')] "_-")))

def envPattern : Regex :=
  .seq (.set (Regex.chars [('A', 'Z')] "_")) (.star (.set (Regex.chars [('A', 'Z'), ('0', '9')] "_")))

def packagePattern : Regex :=
  .seq (.set alnum) (.star (.set (Regex.chars [('A', 'Z'), ('a', 'z'), ('0', '9')] "+.:~=@/_-")))

def imagePattern : Regex :=
  .seq (.plus (.set lowerAlnum)) (.star (.seq
    (.alt (.set (Regex.chars [] "._-")) (.seq (.char '/') (.optional (.char '/'))))
    (.plus (.set lowerAlnum))))

def digestPattern : Regex := .seq (.literal "sha256:") (.times 64 (.set hexLower))

def hostLabelPattern : Regex :=
  .seq (.set alnum) (.optional (.seq
    (.upTo 61 (.set (Regex.chars [('A', 'Z'), ('a', 'z'), ('0', '9')] "-"))) (.set alnum)))

/-- What `re.IGNORECASE` compares an ASCII letter with: besides the capitals, the four characters with a
    case variant in ASCII. -/
def foldCase (c : Char) : Char :=
  if 65 ≤ c.toNat ∧ c.toNat ≤ 90 then Char.ofNat (c.toNat + 32)
  else if c.toNat = 0x212A then 'k'
  else if c.toNat = 0x17F then 's'
  else if c.toNat = 0x130 ∨ c.toNat = 0x131 then 'i'
  else c

def anyCase : String → Regex := Regex.literalFolding foldCase

def secretKeyPattern : Regex :=
  Regex.sequence
    [ .alt .start (.char '_'),
      .oneOf
        [ .sequence [anyCase "api", .optional (.char '_'), anyCase "key"],
          anyCase "auth",
          anyCase "credential",
          anyCase "password",
          .sequence [anyCase "private", .optional (.char '_'), anyCase "key"],
          anyCase "secret",
          anyCase "token" ],
      .alt (.char '_') .finish ]

/-- `-{5}BEGIN [A-Z0-9 ]*PRIVATE KEY-{5}`. -/
def privateKeyPattern : Regex :=
  Regex.sequence
    [ .literal "-----BEGIN ",
      .star (.set (Regex.chars [('A', 'Z'), ('0', '9')] " ")),
      .literal "PRIVATE KEY-----" ]

/-- `(?:token|password|secret|api[_-]?key)` with the fold of the characters. -/
def secretWord (fold : Char → Char) : Regex :=
  .oneOf
    [ .literalFolding fold "token",
      .literalFolding fold "password",
      .literalFolding fold "secret",
      .sequence
        [ .literalFolding fold "api",
          .optional (.set (Regex.chars [] "_-")),
          .literalFolding fold "key" ] ]

/-- `https?://[^/\s:@]+:[^/\s@]+@` with the fold of the characters and the class of spaces. -/
def credentialUrl (fold : Char → Char) (space : Char → Bool) : Regex :=
  .sequence
    [ .literalFolding fold "http",
      .optional (.literalFolding fold "s"),
      .literal "://",
      .plus (.set fun c => !(Regex.chars [] "/:@" c || space c)),
      .char ':',
      .plus (.set fun c => !(Regex.chars [] "/@" c || space c)),
      .char '@' ]

/-- `SECRET_VALUE_PATTERNS`. -/
def secretValuePatterns (lib : Library) : List Regex :=
  [ privateKeyPattern,
    .sequence
      [ .boundary fun c => lib.isAlnum c || c = '_',
        secretWord foldCase,
        .star (.set Controller.isSpace),
        .char '=' ],
    credentialUrl foldCase Controller.isSpace ]

/-- `needle in text`. -/
def contains (needle text : String) : Bool := text.toList.tails.any needle.toList.isPrefixOf

/-- `_secret_like`. -/
def secretLike (lib : Library) (value : String) : Bool :=
  contains "$\x7b" value || (secretValuePatterns lib).any fun pattern => pattern.search value

/-! ### Paths and names -/

/-- The components of an absolute path. -/
abbrev Path := List String

/-- `PROTECTED_PATHS` but for `/`, which has no component. -/
def protectedPaths : List Path :=
  [ ["bin"], ["boot"], ["dev"], ["etc"], ["lib"], ["lib64"], ["proc"], ["root"], ["run"], ["sbin"],
    ["sys"], ["usr"], ["var", "run"] ]

/-- `_is_protected_path`. -/
def isProtectedPath (path : Path) : Bool :=
  path = [] || protectedPaths.any fun item => item.isPrefixOf path

/-- The pieces of `value.split("/")`. -/
def splitPath (value : String) : List String := (value.toList.splitOn '/').map String.ofList

/-- `_container_path`. -/
def containerPath (value : String) : Option Path :=
  if value.toList.head? = some '/' ∧ value.toList.getLast? ≠ some '/' ∧ ¬contains "//" value then
    let pieces := (splitPath value).drop 1
    if pieces = [] ∨ pieces.any (· ∈ ["", ".", ".."]) ∨ isProtectedPath pieces then none
    else some pieces
  else none

/-- `_paths_overlap`. -/
def pathsOverlap (left right : Path) : Bool := left.isPrefixOf right || right.isPrefixOf left

/-- `PurePosixPath(value).name`. -/
def posixName (value : String) : String :=
  (((splitPath value).filter fun piece => piece ≠ "" ∧ piece ≠ ".").getLast?).getD ""

/-- `value.lower()`, as far as a comparison with an ASCII text can tell: the Kelvin sign is the one
    other character with an ASCII letter for its lower case. -/
def lower (value : String) : String :=
  String.ofList (value.toList.map fun c =>
    if 65 ≤ c.toNat ∧ c.toNat ≤ 90 then Char.ofNat (c.toNat + 32)
    else if c.toNat = 0x212A then 'k'
    else c)

def shellNames : List String :=
  ["ash", "bash", "cmd", "dash", "fish", "ksh", "powershell", "pwsh", "sh", "zsh"]

/-- The command hands its arguments to a shell. -/
def shellPassthrough (argv : List String) : Bool :=
  match argv with
  | [] => false
  | first :: rest =>
    let executable := lower (posixName first)
    match rest with
    | second :: _ =>
      if executable = "busybox" ∨ executable = "env" then lower (posixName second) ∈ shellNames
      else executable ∈ shellNames
    | [] => executable ∈ shellNames

/-- `_network_entry`. -/
def networkEntry (lib : Library) (value : String) : Bool :=
  if ["://", "@", "?", "#", "/", "\\"].any fun marker => contains marker value then
    lib.isIpNetwork value
  else
    lib.isIpNetwork value ||
      (value.length ≤ 253 && value.toList.getLast? ≠ some '.' && value.toList.head? ≠ some '.' &&
        (value.toList.splitOn '.').all fun label => hostLabelPattern.fullMatch (String.ofList label))

/-! ### Diagnostics -/

inductive Severity where
  | error | warning
  deriving DecidableEq

structure Diagnostic where
  severity : Severity
  code : String
  path : String
  message : String
  documentation : String := "docs/hermesfile/SPECIFICATION_V1.md"
  deriving DecidableEq

/-- The diagnostics of a check, in the order in which it adds them. -/
abbrev Findings := List Diagnostic

def orRoot (path : String) : String := if path = "" then "/" else path

def fault (code path message : String) : Findings := 
  [{ severity := .error, code, path := orRoot path, message }]

def notice (code path message : String) : Findings := 
  [{ severity := .warning, code, path := orRoot path, message }]

def faultIf (test : Bool) (code path message : String) : Findings :=
  if test then fault code path message else []

/-- `_Validator.child`. -/
def child (path key : String) : String :=
  path ++ "/" ++ String.ofList (key.toList.flatMap fun c =>
    if c = '~' then ['~', '0'] else if c = '/' then ['~', '1'] else [c])

/-- The checks of the items of an array, with their positions. -/
def eachItem (items : List Value) (path : String) (check : Value → String → Findings) : Findings :=
  items.zipIdx.flatMap fun x => check x.1 (child path (toString x.2))

/-! ### The graph -/

/-- A scalar of `_validate_graph`. -/
def scalarFindings (value : Value) (path : String) : Findings :=
  match value with
  | .float (.finite _) => []
  | .float _ => fault "non_finite_number" path "Non-finite numbers are not accepted."
  | .str s =>
    faultIf (maxScalarChars < s.length) "scalar_too_large" path
        "Scalar value exceeds the allowed bound." ++
      faultIf (s.toList.any fun c => c.toNat = 0) "nul_character_forbidden" path
        "NUL characters are not accepted."
  | .other => fault "unsupported_yaml_type" path "YAML value type is not supported."
  | _ => []

mutual

/-- `_validate_graph`, with the counter of the nodes seen. -/
def graphFindings (value : Value) (path : String) (depth counter : Nat) : Findings × Nat :=
  if maxNodes < counter + 1 then
    (fault "document_too_complex" "/" "Hermesfile contains too many data nodes.", counter + 1)
  else if maxDepth < depth then
    (fault "document_too_deep" path "Hermesfile nesting is too deep.", counter + 1)
  else
    match value with
    | .map members => graphMembers members path (depth + 1) (counter + 1)
    | .seq items => graphItems items 0 path (depth + 1) (counter + 1)
    | value => (scalarFindings value path, counter + 1)

def graphItems (items : List Value) (index : Nat) (path : String) (depth counter : Nat) :
    Findings × Nat :=
  match items with
  | [] => ([], counter)
  | x :: xs =>
    let first := graphFindings x (child path (toString index)) depth counter
    let rest := graphItems xs (index + 1) path depth first.2
    (first.1 ++ rest.1, rest.2)

def graphMembers (members : List (String × Value)) (path : String) (depth counter : Nat) :
    Findings × Nat :=
  match members with
  | [] => ([], counter)
  | (key, x) :: xs =>
    let first := graphFindings x (child path key) depth counter
    let rest := graphMembers xs path depth first.2
    (faultIf (256 < key.length) "mapping_key_too_long"
        (child path (String.ofList (key.toList.take 32))) "Mapping key is too long." ++
      first.1 ++ rest.1, rest.2)

end

/-! ### The checks of `_Validator` -/

def sorted (keys : List String) : List String := keys.insertionSort (· ≤ ·)

/-- `exact_keys`. -/
def exactKeys (required optional : List String) (value : Value) (path : String) : Findings :=
  match value with
  | .map m =>
    (sorted (required.filter fun key => key ∉ Members.keys m)).flatMap (fun key =>
        fault "required_field_missing" (child path key) "Required field is missing.") ++
      (sorted ((Members.keys m).filter fun key => key ∉ required ++ optional)).flatMap fun key =>
        fault "unknown_field" (child path key) "Unknown fields are not accepted."
  | _ => fault "invalid_type" path "Expected an object."

/-- What follows `exact_keys` when the value is an object. -/
def whenObject (value : Value) (check : Members → Findings) : Findings :=
  match value with
  | .map m => check m
  | _ => []

/-- `if key in table`. -/
def whenPresent (m : Members) (key : String) (check : Value → Findings) : Findings :=
  match m.get? key with
  | some x => check x
  | none => []

/-- The arguments of `string`. -/
structure StringRule where
  minimum : Nat := 1
  maximum : Nat
  pattern : String → Bool := fun _ => true
  enum : Option (List String) := none
  allowNewline : Bool := false

/-- A character that is not accepted. -/
def isControl (allowNewline : Bool) (c : Char) : Bool :=
  (c.toNat < 32 && !(allowNewline && (c = '\n' || c = '\t'))) || c.toNat = 127

/-- `string`: what it returns. -/
def StringRule.parse (rule : StringRule) (value : Value) : Option String :=
  match value with
  | .str s => if rule.minimum ≤ s.length ∧ s.length ≤ rule.maximum then some s else none
  | _ => none

/-- `string`: what it adds. -/
def StringRule.check (rule : StringRule) (value : Value) (path : String) : Findings :=
  match value with
  | .str s =>
    if ¬(rule.minimum ≤ s.length ∧ s.length ≤ rule.maximum) then
      fault "invalid_length" path "String length is outside the allowed bounds."
    else
      faultIf (s.toList.any (isControl rule.allowNewline)) "control_character_forbidden" path
          "Control characters are not accepted." ++
        faultIf (!rule.allowNewline && s.toList.any fun c => c = '\n' || c = '\r')
          "multiline_value_forbidden" path "Multiline values are not accepted here." ++
        faultIf (!rule.pattern s) "invalid_format" path
          "Value does not match the required format." ++
        faultIf (rule.enum.any fun values => s ∉ values) "unsupported_value" path
          "Value is not supported by Hermesfile v1."
  | _ => fault "invalid_type" path "Expected a string."

/-- `boolean`. -/
def checkBoolean (expected : Option Bool) (value : Value) (path : String) : Findings :=
  match value with
  | .bool b =>
    faultIf (expected.any fun e => b ≠ e) "security_invariant_violation" path
      "This security value cannot be weakened."
  | _ => fault "invalid_type" path "Expected a boolean."

/-- `integer`. -/
def checkInteger (minimum maximum : Int) (value : Value) (path : String) : Findings :=
  match value with
  | .int n =>
    faultIf (¬(minimum ≤ n ∧ n ≤ maximum)) "invalid_numeric_range" path
      "Numeric value is outside the allowed bounds."
  | _ => fault "invalid_type" path "Expected an integer."

/-- `number`. -/
def checkNumber (minimumExclusive maximum : Rat) (value : Value) (path : String) : Findings :=
  match value with
  | .int n =>
    faultIf (¬(minimumExclusive < n ∧ n ≤ maximum)) "invalid_numeric_range" path
      "Numeric value is outside the allowed bounds."
  | .float (.finite q) =>
    faultIf (¬(minimumExclusive < q ∧ q ≤ maximum)) "invalid_numeric_range" path
      "Numeric value is outside the allowed bounds."
  | .float _ => fault "non_finite_number" path "Non-finite numbers are not accepted."
  | _ => fault "invalid_type" path "Expected a finite number."

/-- The arguments of `string_list`. -/
structure ListRule where
  minimum : Nat := 0
  maximum : Nat
  item : StringRule

/-- `string_list`: what it returns. -/
def ListRule.parse (rule : ListRule) (value : Value) : Option (List String) :=
  match value with
  | .seq items => some (items.filterMap rule.item.parse)
  | _ => none

/-- `string_list`: what it adds. -/
def ListRule.check (rule : ListRule) (value : Value) (path : String) : Findings :=
  match value with
  | .seq items =>
    let result := items.filterMap rule.item.parse
    faultIf (¬(rule.minimum ≤ items.length ∧ items.length ≤ rule.maximum)) "invalid_item_count" path
        "Array length is outside the allowed bounds." ++
      eachItem items path rule.item.check ++
      faultIf (result.length = items.length ∧ ¬result.Nodup) "duplicate_item" path
        "Duplicate array items are not accepted."
  | _ => fault "invalid_type" path "Expected an array."

/-! ### Sections -/

def nameRule : StringRule := { maximum := 63, pattern := namePattern.fullMatch }

def durationRule : StringRule := { maximum := 32, pattern := fun s => (matchDuration s).isSome }

def quantityRule : StringRule := { maximum := 32, pattern := fun s => (matchQuantity s).isSome }

def pathRule : StringRule := { maximum := 4096 }

/-- A string that must be a duration. -/
def checkDuration (value : Value) (path : String) : Findings :=
  durationRule.check value path ++
    faultIf ((durationRule.parse value).any fun s => (parseDuration s).isNone) "invalid_duration" path
      "Duration is invalid or too large."

/-- A string that must be a quantity. -/
def checkQuantity (value : Value) (path : String) : Findings :=
  quantityRule.check value path ++
    faultIf ((quantityRule.parse value).any fun s => (parseQuantity s).isNone) "invalid_quantity" path
      "IEC quantity is invalid or outside the allowed bound."

/-- A string that must be a path in the container. -/
def checkPath (message : String) (value : Value) (path : String) : Findings :=
  pathRule.check value path ++
    faultIf ((pathRule.parse value).any fun s => (containerPath s).isNone) "unsafe_container_path" path
      message

def argvRule : ListRule := { minimum := 1, maximum := 64, item := { maximum := 4096 } }

def argvBytes (argv : List String) : Nat := (argv.map String.utf8ByteSize).sum

/-- The arguments of a command. -/
def checkArgv (value : Value) (path : String) : Findings :=
  argvRule.check value path ++
    faultIf ((argvRule.parse value).any shellPassthrough) "shell_execution_forbidden" path
      "Shell pass-through commands are not accepted in Hermesfile v1." ++
    faultIf ((argvRule.parse value).any fun argv => 32768 < argvBytes argv) "command_too_large" path
      "Command argument data exceeds the allowed bound."

def commandFields (requireExpect : Bool) : List String :=
  ["name", "run", "timeout"] ++ if requireExpect then ["expectExitCode"] else []

/-- `_validate_command`. -/
def checkCommand (requireExpect : Bool) (value : Value) (path : String) : Findings :=
  exactKeys (commandFields requireExpect) ["workingDirectory"] value path ++
    whenObject value fun table =>
      nameRule.check (table.get "name") (child path "name") ++
        checkArgv (table.get "run") (child path "run") ++
        checkDuration (table.get "timeout") (child path "timeout") ++
        whenPresent table "workingDirectory" (fun x =>
          checkPath "Working directory must be a safe canonical container path." x
            (child path "workingDirectory")) ++
        if requireExpect then
          checkInteger 0 255 (table.get "expectExitCode") (child path "expectExitCode")
        else []

/-- The names that the commands of a list carry. -/
def commandNames (commands : List Value) : List String :=
  commands.filterMap fun command => command.members?.bind fun m => (m.get "name").text?

inductive Ecosystem where
  | apt | python | node
  deriving DecidableEq

/-- The text after the last `/`. -/
def packageTail (package : String) : String := ((splitPath package).getLast?).getD ""

def isPinned (ecosystem : Ecosystem) (package : String) : Bool :=
  match ecosystem with
  | .apt => contains "=" package
  | .python => contains "==" package || contains " @ " package
  | .node =>
    match (packageTail package).toList with
    | '@' :: rest => '@' ∈ rest
    | tail => '@' ∈ tail

def packageRule : ListRule :=
  { maximum := 256, item := { maximum := 300, pattern := packagePattern.fullMatch } }

/-- `_validate_string_packages`. -/
def checkPackages (ecosystem : Ecosystem) (value : Value) (path : String) : Findings :=
  packageRule.check value path ++
    (((packageRule.parse value).getD []).zipIdx.flatMap fun x =>
      if isPinned ecosystem x.1 then []
      else notice "package_not_version_pinned" (child path (toString x.2))
        "Package is not version-pinned; the resolved build record must preserve its exact version.")

/-- A string that must be one text. -/
def checkConstant (maximum : Nat) (expected code message : String) (value : Value) (path : String) :
    Findings :=
  StringRule.check { maximum } value path ++
    faultIf ((StringRule.parse { maximum } value).any fun s => s ≠ expected) code path message

def checkLabels (value : Value) (path : String) : Findings :=
  match value with
  | .map labels =>
    faultIf (64 < labels.length) "too_many_labels" path "Too many labels." ++
      labels.flatMap fun x =>
        StringRule.check { maximum := 63, pattern := labelPattern.fullMatch } (.str x.1)
            (child path x.1) ++
          StringRule.check { minimum := 0, maximum := 120 } x.2 (child path x.1)
  | _ => fault "invalid_type" path "Expected an object."

def checkMetadata (value : Value) : Findings :=
  exactKeys ["name"] ["displayName", "description", "labels"] value "/metadata" ++
    whenObject value fun metadata =>
      nameRule.check (metadata.get "name") "/metadata/name" ++
        whenPresent metadata "displayName" (fun x =>
          StringRule.check { maximum := 120 } x "/metadata/displayName") ++
        whenPresent metadata "description" (fun x =>
          StringRule.check { minimum := 0, maximum := 1000, allowNewline := true } x
            "/metadata/description") ++
        whenPresent metadata "labels" fun x => checkLabels x "/metadata/labels"

def registryRule : StringRule := { maximum := 253 }

/-- What a registry must not contain. -/
def badRegistry (lib : Library) (registry : String) : Bool :=
  contains "://" registry || contains "@" registry || contains "/" registry || secretLike lib registry

def checkRegistry (lib : Library) (value : Value) (path : String) : Findings :=
  registryRule.check value path ++
    faultIf ((registryRule.parse value).any (badRegistry lib)) "invalid_registry" path
      "Registry must be a credential-free registry host."

def checkBase (lib : Library) (value : Value) : Findings :=
  exactKeys ["image", "digest"] ["registry", "tag"] value "/spec/base" ++
    whenObject value fun base =>
      whenPresent base "registry" (fun x => checkRegistry lib x "/spec/base/registry") ++
        StringRule.check { maximum := 255, pattern := imagePattern.fullMatch } (base.get "image")
          "/spec/base/image" ++
        whenPresent base "tag" (fun x => StringRule.check { maximum := 128 } x "/spec/base/tag") ++
        StringRule.check { maximum := 71, pattern := digestPattern.fullMatch } (base.get "digest")
          "/spec/base/digest"

def checkApt (value : Value) : Findings :=
  exactKeys [] ["update", "packages"] value "/spec/build/apt" ++
    whenObject value fun apt =>
      whenPresent apt "update" (fun x => checkBoolean none x "/spec/build/apt/update") ++
        whenPresent apt "packages" fun x => checkPackages .apt x "/spec/build/apt/packages"

def checkPython (value : Value) : Findings :=
  exactKeys [] ["interpreter", "packages"] value "/spec/build/python" ++
    whenObject value fun python =>
      whenPresent python "interpreter" (fun x =>
          StringRule.check { maximum := 16, enum := some ["python3", "python"] } x
            "/spec/build/python/interpreter") ++
        whenPresent python "packages" fun x => checkPackages .python x "/spec/build/python/packages"

def checkNode (value : Value) : Findings :=
  exactKeys [] ["packageManager", "packages"] value "/spec/build/node" ++
    whenObject value fun node =>
      whenPresent node "packageManager" (fun x =>
          StringRule.check { maximum := 16, enum := some ["npm", "pnpm", "yarn"] } x
            "/spec/build/node/packageManager") ++
        whenPresent node "packages" fun x => checkPackages .node x "/spec/build/node/packages"

def environmentRule : StringRule := { minimum := 0, maximum := 4096, allowNewline := true }

def checkVariable (lib : Library) (x : String × Value) (path : String) : Findings :=
  StringRule.check { maximum := 128, pattern := envPattern.fullMatch } (.str x.1) path ++
    environmentRule.check x.2 path ++
    faultIf (secretKeyPattern.search x.1) "secret_environment_key_forbidden" path
      "Secret-like environment keys are forbidden in Hermesfile v1." ++
    faultIf ((environmentRule.parse x.2).any (secretLike lib)) "secret_like_value_forbidden" path
      "Secret references and credential-like values are forbidden."

def checkEnvironment (lib : Library) (value : Value) (path : String) : Findings :=
  match value with
  | .map environment =>
    faultIf (128 < environment.length) "too_many_environment_variables" path
        "Too many environment variables." ++
      environment.flatMap fun x => checkVariable lib x (child path x.1)
  | _ => fault "invalid_type" path "Expected an object."

def checkSteps (value : Value) (path : String) : Findings :=
  match value with
  | .seq steps =>
    faultIf (128 < steps.length) "invalid_item_count" path "Too many build steps." ++
      eachItem steps path (checkCommand false) ++
      faultIf (¬(commandNames steps).Nodup) "duplicate_step_name" path "Build step names must be unique."
  | _ => fault "invalid_type" path "Expected an array."

def checkBuild (lib : Library) (value : Value) : Findings :=
  exactKeys [] ["apt", "python", "node", "environment", "steps"] value "/spec/build" ++
    whenObject value fun build =>
      whenPresent build "apt" checkApt ++ whenPresent build "python" checkPython ++
        whenPresent build "node" checkNode ++
        whenPresent build "environment" (fun x => checkEnvironment lib x "/spec/build/environment") ++
        whenPresent build "steps" fun x => checkSteps x "/spec/build/steps"

def userRule : StringRule := { maximum := 32, pattern := userPattern.fullMatch }

def checkIdentity (value : Value) (path : String) : Findings :=
  userRule.check value path ++
    faultIf (userRule.parse value = some "root") "root_identity_forbidden" path
      "Sandbox identity must not be root."

def checkWorkspace (value : Value) : Findings :=
  exactKeys ["user", "group", "directory", "sourceMode"] [] value "/spec/workspace" ++
    whenObject value fun workspace =>
      checkIdentity (workspace.get "user") "/spec/workspace/user" ++
        checkIdentity (workspace.get "group") "/spec/workspace/group" ++
        checkPath "Workspace directory must be a safe canonical container path."
          (workspace.get "directory") "/spec/workspace/directory" ++
        StringRule.check { maximum := 16, enum := some ["worktree", "clone", "readOnly"] }
          (workspace.get "sourceMode") "/spec/workspace/sourceMode"

/-- `workspace_path`. -/
def workspacePath (value : Value) : Option Path :=
  value.members?.bind fun workspace => (pathRule.parse (workspace.get "directory")).bind containerPath

def checkRuntime (value : Value) : Findings :=
  exactKeys ["cpu", "memory", "pids", "timeout", "stopGracePeriod"] ["tmpfsSize"] value
      "/spec/runtime" ++
    whenObject value fun runtime =>
      checkNumber 0 256 (runtime.get "cpu") "/spec/runtime/cpu" ++
        whenPresent runtime "memory" (fun x => checkQuantity x "/spec/runtime/memory") ++
        whenPresent runtime "tmpfsSize" (fun x => checkQuantity x "/spec/runtime/tmpfsSize") ++
        checkInteger 16 65536 (runtime.get "pids") "/spec/runtime/pids" ++
        checkDuration (runtime.get "timeout") "/spec/runtime/timeout" ++
        checkDuration (runtime.get "stopGracePeriod") "/spec/runtime/stopGracePeriod"

def modeRule : StringRule := { maximum := 16, enum := some ["none", "allowlist", "full"] }

def allowRule : ListRule := { maximum := 256, item := { maximum := 253 } }

/-- The mode of a policy and its allow list. -/
def checkMode (policy : Members) (path : String) : Findings :=
  let mode := modeRule.parse (policy.get "mode")
  let allow := (allowRule.parse (policy.get "allow")).getD []
  modeRule.check (policy.get "mode") (path ++ "/mode") ++
    allowRule.check (policy.get "allow") (path ++ "/allow") ++
    faultIf (mode = some "none" ∧ allow ≠ []) "network_allowlist_forbidden" (path ++ "/allow")
      "Network mode none requires an empty allow list." ++
    faultIf (mode = some "allowlist" ∧ allow = []) "network_allowlist_required" (path ++ "/allow")
      "Allowlist mode requires at least one destination."

/-- The warning of a policy for full access. -/
def noteFull (policy : Members) (path : String) : Findings :=
  if modeRule.parse (policy.get "mode") = some "full" then
    notice "full_network_requires_policy" (path ++ "/mode")
      "Full network access requires external policy approval."
  else []

/-- The entries of the allow list of a policy. -/
def checkEntries (lib : Library) (policy : Members) (path : String) : Findings :=
  ((allowRule.parse (policy.get "allow")).getD []).zipIdx.flatMap fun x =>
    faultIf (!networkEntry lib x.1 || secretLike lib x.1) "invalid_network_destination"
      (child (path ++ "/allow") (toString x.2))
      "Network destination must be a credential-free DNS name or CIDR."

/-- The policy of one phase. -/
def checkPolicy (lib : Library) (value : Value) (path : String) : Findings :=
  exactKeys ["mode", "allow"] [] value path ++
    whenObject value fun policy =>
      checkMode policy path ++ noteFull policy path ++ checkEntries lib policy path

def checkNetwork (lib : Library) (value : Value) : Findings :=
  exactKeys ["build", "runtime"] [] value "/spec/network" ++
    whenObject value fun network =>
      checkPolicy lib (network.get "build") "/spec/network/build" ++
        checkPolicy lib (network.get "runtime") "/spec/network/runtime"

def dropRule : ListRule := { minimum := 1, maximum := 64, item := { maximum := 64 } }

def addRule : ListRule := { maximum := 0, item := { maximum := 64 } }

def checkCapabilities (value : Value) : Findings :=
  exactKeys ["drop", "add"] [] value "/spec/security/capabilities" ++
    whenObject value fun capabilities =>
      dropRule.check (capabilities.get "drop") "/spec/security/capabilities/drop" ++
        addRule.check (capabilities.get "add") "/spec/security/capabilities/add" ++
        faultIf ((dropRule.parse (capabilities.get "drop")).any fun drop => "ALL" ∉ drop)
          "security_invariant_violation" "/spec/security/capabilities/drop"
          "Capability drop list must contain ALL." ++
        faultIf ((addRule.parse (capabilities.get "add")).any fun add => add ≠ [])
          "security_invariant_violation" "/spec/security/capabilities/add"
          "Added Linux capabilities are forbidden."

def securityFields : List String :=
  [ "privileged", "noNewPrivileges", "readOnlyRoot", "capabilities", "seccompProfile", "secrets",
    "allowDockerSocket", "allowDeviceAccess" ]

def checkSecurity (value : Value) : Findings :=
  exactKeys securityFields [] value "/spec/security" ++
    whenObject value fun security =>
      checkBoolean (some false) (security.get "privileged") "/spec/security/privileged" ++
        checkBoolean (some true) (security.get "noNewPrivileges") "/spec/security/noNewPrivileges" ++
        checkBoolean none (security.get "readOnlyRoot") "/spec/security/readOnlyRoot" ++
        checkBoolean (some false) (security.get "secrets") "/spec/security/secrets" ++
        checkBoolean (some false) (security.get "allowDockerSocket") "/spec/security/allowDockerSocket" ++
        checkBoolean (some false) (security.get "allowDeviceAccess") "/spec/security/allowDeviceAccess" ++
        StringRule.check { maximum := 32, enum := some ["default"] } (security.get "seccompProfile")
          "/spec/security/seccompProfile" ++
        checkCapabilities (security.get "capabilities")

def mountTypeRule : StringRule :=
  { maximum := 16, enum := some ["workspace", "cache", "tmpfs", "artifact"] }

/-- The checks of one mount. -/
def checkMount (value : Value) (path : String) : Findings :=
  exactKeys ["name", "type", "target", "readOnly"] ["size"] value path ++
    whenObject value fun table =>
      nameRule.check (table.get "name") (path ++ "/name") ++
        mountTypeRule.check (table.get "type") (path ++ "/type") ++
        pathRule.check (table.get "target") (path ++ "/target") ++
        checkBoolean none (table.get "readOnly") (path ++ "/readOnly") ++
        whenPresent table "size" (fun x => checkQuantity x (path ++ "/size")) ++
        faultIf (mountTypeRule.parse (table.get "type") = some "tmpfs" ∧ (table.get? "size").isNone)
          "tmpfs_size_required" (path ++ "/size") "tmpfs mounts require a bounded size." ++
        faultIf ((pathRule.parse (table.get "target")).any fun s => (containerPath s).isNone)
          "unsafe_container_path" (path ++ "/target")
          "Mount target must be a safe canonical container path."

/-- `names`, of the mounts. -/
def mountNames (mounts : List Value) : List String :=
  mounts.filterMap fun mount => mount.members?.bind fun table => nameRule.parse (table.get "name")

def mountType (mount : Value) : Option String :=
  mount.members?.bind fun table => mountTypeRule.parse (table.get "type")

/-- An entry of `mount_paths`. -/
structure MountPath where
  index : Nat
  type : String
  target : Path
  deriving DecidableEq

/-- `mount_paths`. -/
def mountPaths (mounts : List Value) : List MountPath :=
  mounts.zipIdx.filterMap fun x =>
    (x.1.members?.bind fun table => (pathRule.parse (table.get "target")).bind containerPath).map
      fun target => ⟨x.2, (mountType x.1).getD "", target⟩

def mountTarget (m : MountPath) : String := "/spec/mounts/" ++ toString m.index ++ "/target"

/-- The comparisons of one target with the workspace and with the targets after it. -/
def checkTarget (workspace : Option Path) (paths : List MountPath) (left : MountPath) : Findings :=
  faultIf (left.type = "workspace" ∧ workspace.any fun path => left.target ≠ path)
      "workspace_mount_mismatch" (mountTarget left)
      "Workspace mount target must match spec.workspace.directory." ++
    paths.flatMap (fun right =>
      faultIf (left.index < right.index ∧ pathsOverlap left.target right.target)
        "overlapping_mount_targets" (mountTarget right) "Logical mount targets must not overlap.") ++
    faultIf (left.type ≠ "workspace" ∧ workspace.any (pathsOverlap left.target))
      "workspace_mount_overlap" (mountTarget left)
      "Additional mounts must not overlap the workspace directory."

def checkMounts (value : Value) (workspace : Option Path) : Findings :=
  match value with
  | .seq mounts =>
    faultIf (64 < mounts.length) "invalid_item_count" "/spec/mounts" "Too many logical mounts." ++
      eachItem mounts "/spec/mounts" checkMount ++
      faultIf (¬(mountNames mounts).Nodup) "duplicate_mount_name" "/spec/mounts"
        "Mount names must be unique." ++
      faultIf (1 < mounts.countP fun mount => mountType mount = some "workspace")
        "duplicate_workspace_mount" "/spec/mounts" "At most one explicit workspace mount is accepted." ++
      (mountPaths mounts).flatMap (checkTarget workspace (mountPaths mounts))
  | _ => fault "invalid_type" "/spec/mounts" "Expected an array."

def checkCommands (value : Value) (path : String) : Findings :=
  match value with
  | .seq commands =>
    faultIf (¬(1 ≤ commands.length ∧ commands.length ≤ 128)) "invalid_item_count" path
        "Validation command count must be between 1 and 128." ++
      eachItem commands path (checkCommand true) ++
      faultIf (¬(commandNames commands).Nodup) "duplicate_validation_name" path
        "Validation command names must be unique."
  | _ => fault "invalid_type" path "Expected an array."

def checkValidation (value : Value) : Findings :=
  exactKeys ["commands"] [] value "/spec/validation" ++
    whenObject value fun validation => checkCommands (validation.get "commands") "/spec/validation/commands"

def checkSpec (lib : Library) (value : Value) : Findings :=
  exactKeys ["base", "workspace", "runtime", "network", "security", "validation"] ["build", "mounts"]
      value "/spec" ++
    whenObject value fun spec =>
      checkBase lib (spec.get "base") ++
        checkBuild lib ((spec.get? "build").getD (.map [])) ++
        checkWorkspace (spec.get "workspace") ++
        checkRuntime (spec.get "runtime") ++
        checkNetwork lib (spec.get "network") ++
        checkSecurity (spec.get "security") ++
        checkMounts ((spec.get? "mounts").getD (.seq [])) (workspacePath (spec.get "workspace")) ++
        checkValidation (spec.get "validation")

/-- Everything that `_validate_document` tries to add, in its order. -/
def documentFindings (lib : Library) (document : Value) : Findings :=
  (graphFindings document "" 0 0).1 ++
    exactKeys ["apiVersion", "kind", "metadata", "spec"] [] document "" ++
    whenObject document fun root =>
      checkConstant 64 "hermesops.dev/v1" "unsupported_api_version"
          "Hermesfile must use apiVersion hermesops.dev/v1." (root.get "apiVersion") "/apiVersion" ++
        checkConstant 64 "SandboxProfile" "unsupported_kind"
          "Hermesfile v1 accepts SandboxProfile only." (root.get "kind") "/kind" ++
        checkMetadata (root.get "metadata") ++
        checkSpec lib (root.get "spec")

/-! ### The validator -/

/-- `_Validator`: the diagnostics it has kept. -/
structure Validator where
  diagnostics : List Diagnostic

/-- `add`: a diagnostic is dropped when there are a hundred. -/
def Validator.add (v : Validator) (d : Diagnostic) : Validator :=
  if maxDiagnostics ≤ v.diagnostics.length then v else ⟨v.diagnostics ++ [d]⟩

/-- `has_errors`. -/
def Validator.hasErrors (v : Validator) : Bool := v.diagnostics.any fun d => d.severity = .error

/-- `_validate_document`. -/
def validateDocument (lib : Library) (document : Value) : Validator :=
  (documentFindings lib document).foldl Validator.add ⟨[]⟩

end HermesOps.Hermesfile
