import HermesOps.Hermesfile.Source

/-! `validate_source` of `hermesfile.py` from the parsed document on, with the exceptions that nobody
    catches. The loader yields any sequence of code points as a text; a character stands for a code point,
    and which characters stand for lone surrogates is a parameter, since no check tells two of those from
    each other and only `str.encode` refuses them. -/

namespace HermesOps.Hermesfile

/-- The characters that stand for lone surrogates. -/
structure CodePoints where
  isLone : Char → Bool
  notAscii : ∀ c, isLone c = true → 128 ≤ c.toNat

/-- `text.encode("utf-8")` does not raise. -/
def CodePoints.encodable (p : CodePoints) (text : String) : Bool := text.toList.all fun c => !p.isLone c

/-- The arguments that `_validate_command` encodes to measure them. -/
def encodedArguments (command : Value) : List String :=
  (command.members?.bind fun table => argvRule.parse (table.get "run")).getD []

/-- The commands that `_validate_document` looks at. -/
def checkedCommands (document : Value) : List Value :=
  ((document.at? ["spec", "build", "steps"]).map Value.items).getD [] ++
    ((document.at? ["spec", "validation", "commands"]).map Value.items).getD []

/-- A `HermesfileReport`, or an exception. -/
inductive Outcome where
  | raised
  | invalid (diagnostics : List Diagnostic)
  | valid (r : Accepted)

/-- The rest of `validate_source` for a document without errors: the bytes are encoded and the name is
    looked up. -/
def acceptParsed (y : Reader) (p : CodePoints) (source : String) (document : Value)
    (diagnostics : List Diagnostic) : Outcome :=
  match accept y source document diagnostics with
  | .valid r =>
    if p.encodable r.canonicalText ∧ (r.canonical.at? ["metadata", "name"]).isSome then .valid r else .raised
  | _ => .raised

/-- `validate_source` after the parser. -/
def validateParsed (y : Reader) (p : CodePoints) (source : String) (document : Value) : Outcome :=
  if (checkedCommands document).any fun c => (encodedArguments c).any fun s => !p.encodable s then .raised
  else
    let validator := validateDocument y.lib document
    if validator.hasErrors then .invalid validator.diagnostics
    else acceptParsed y p source document validator.diagnostics

end HermesOps.Hermesfile
