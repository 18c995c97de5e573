import HermesOps.Hermesfile.Validator
import HermesOps.Hermesfile.Edits

/-! `_canonicalize` of `hermesfile.py`. It edits a copy of the document field by field: `setdefault` and a
    later assignment to the same key are one edit, and an edit fails where the code raises, which is for
    a key that is missing, a value that has no such operation or a text that does not parse. A loop may
    go through anything that can be iterated, and `in` looks into texts and arrays too. -/

namespace HermesOps.Hermesfile

def canonicalDurationText (value : Value) : Option Value :=
  (value.text?.bind canonicalDuration).map .str

def canonicalQuantityText (value : Value) : Option Value :=
  (value.text?.bind canonicalQuantity).map .str

/-- A float that is an integer becomes one. -/
def canonicalNumber (value : Value) : Option Value :=
  match value with
  | .float (.finite q) => if q.den = 1 then some (.int q.num) else some value
  | value => some value

/-! ### Sections -/

def baseEdits : List Edit := [⟨"registry", .default (.str "docker.io"), some⟩]

def canonicalBase : Value → Option Value := editObject baseEdits

def aptEdits : List Edit :=
  [⟨"update", .default (.bool true), some⟩, ⟨"packages", .default (.seq []), some⟩]

def canonicalApt : Value → Option Value := editObject aptEdits

def pythonEdits : List Edit :=
  [⟨"interpreter", .default (.str "python3"), some⟩, ⟨"packages", .default (.seq []), some⟩]

def canonicalPython : Value → Option Value := editObject pythonEdits

def nodeEdits : List Edit :=
  [⟨"packageManager", .default (.str "npm"), some⟩, ⟨"packages", .default (.seq []), some⟩]

def canonicalNode : Value → Option Value := editObject nodeEdits

def commandEdits : List Edit := [⟨"timeout", .raises, canonicalDurationText⟩]

/-- A build step or a validation command. -/
def canonicalCommand : Value → Option Value := editObject commandEdits

/-- The loop that sets `item["timeout"]`. -/
def canonicalCommands (value : Value) : Option Value :=
  match value with
  | .seq items => (items.mapM canonicalCommand).map .seq
  | .str s => if s = "" then some value else none
  | .map m => if m.isEmpty then some value else none
  | _ => none

def buildEdits : List Edit :=
  [ ⟨"environment", .default (.map []), some⟩, ⟨"steps", .default (.seq []), canonicalCommands⟩,
    ⟨"apt", .skipped, canonicalApt⟩, ⟨"python", .skipped, canonicalPython⟩,
    ⟨"node", .skipped, canonicalNode⟩ ]

def canonicalBuild : Value → Option Value := editObject buildEdits

def runtimeEdits : List Edit :=
  [ ⟨"memory", .raises, canonicalQuantityText⟩, ⟨"tmpfsSize", .skipped, canonicalQuantityText⟩,
    ⟨"timeout", .raises, canonicalDurationText⟩, ⟨"stopGracePeriod", .raises, canonicalDurationText⟩,
    ⟨"cpu", .raises, canonicalNumber⟩ ]

def canonicalRuntime : Value → Option Value := editObject runtimeEdits

def validationEdits : List Edit := [⟨"commands", .raises, canonicalCommands⟩]

def canonicalValidation : Value → Option Value := editObject validationEdits

def mountEdits : List Edit := [⟨"size", .skipped, canonicalQuantityText⟩]

/-- What the loop does with a mount: only an object can be given a size. -/
def canonicalMount (value : Value) : Option Value :=
  match value with
  | .map mount => editObject mountEdits (.map mount)
  | .seq items => if items.any fun x => x.text? = some "size" then none else some value
  | .str s => if contains "size" s then none else some value
  | _ => none

/-- The loop that sets `mount["size"]`. -/
def canonicalMounts (value : Value) : Option Value :=
  match value with
  | .seq items => (items.mapM canonicalMount).map .seq
  | .str _ => some value
  | .map m => if m.any fun x => contains "size" x.1 then none else some value
  | _ => none

def specEdits : List Edit :=
  [ ⟨"base", .raises, canonicalBase⟩, ⟨"build", .default (.map []), canonicalBuild⟩,
    ⟨"mounts", .default (.seq []), canonicalMounts⟩, ⟨"runtime", .raises, canonicalRuntime⟩,
    ⟨"validation", .raises, canonicalValidation⟩ ]

def canonicalSpec : Value → Option Value := editObject specEdits

/-- `_canonicalize`. -/
def canonicalize : Value → Option Value := editObject [⟨"spec", .raises, canonicalSpec⟩]

/-! ### What a document denotes -/

/-- The value at a path of keys. -/
def Value.at? (value : Value) (path : List String) : Option Value :=
  path.foldl (fun x key => x.bind fun v => v.members?.bind fun m => m.get? key) (some value)

def milliseconds (value : Value) : Option Nat := value.text?.bind parseDuration

def bytes (value : Value) : Option Nat := value.text?.bind parseQuantity

/-- The elements of an array. -/
def Value.items : Value → List Value
  | .seq items => items
  | _ => []

/-- The amounts of a document. -/
structure Resources where
  memory : Option Nat
  tmpfsSize : Option Nat
  timeout : Option Nat
  stopGracePeriod : Option Nat
  steps : List (Option Nat)
  commands : List (Option Nat)
  mounts : List (Option Nat)
  deriving DecidableEq

def timeouts (commands : Option Value) : List (Option Nat) :=
  ((commands.map Value.items).getD []).map fun x => (x.at? ["timeout"]).bind milliseconds

def sizes (mounts : Option Value) : List (Option Nat) :=
  ((mounts.map Value.items).getD []).map fun x => (x.at? ["size"]).bind bytes

def resources (document : Value) : Resources where
  memory := (document.at? ["spec", "runtime", "memory"]).bind bytes
  tmpfsSize := (document.at? ["spec", "runtime", "tmpfsSize"]).bind bytes
  timeout := (document.at? ["spec", "runtime", "timeout"]).bind milliseconds
  stopGracePeriod := (document.at? ["spec", "runtime", "stopGracePeriod"]).bind milliseconds
  steps := timeouts (document.at? ["spec", "build", "steps"])
  commands := timeouts (document.at? ["spec", "validation", "commands"])
  mounts := sizes (document.at? ["spec", "mounts"])

end HermesOps.Hermesfile
