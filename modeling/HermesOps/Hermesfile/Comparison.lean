import HermesOps.Hermesfile.Validator
import HermesOps.Controller.Values

/-! `_diff_values` and `compare` of `hermesfile_lifecycle.py`. The two loops of `_diff_values`, over the keys
    of two dictionaries and over the indices of two lists, are one loop over steps into a container. A float
    is the number it stands for, so that the two zeros are one. -/

namespace HermesOps.Hermesfile

def maxDiffChanges : Nat := 500

/-- `type(value)`. -/
inductive ValueType where
  | null
  | bool
  | int
  | float
  | str
  | list
  | dict
  | other
  deriving DecidableEq

def Value.type : Value → ValueType
  | .null => .null
  | .bool _ => .bool
  | .int _ => .int
  | .float _ => .float
  | .str _ => .str
  | .seq _ => .list
  | .map _ => .dict
  | .other => .other

/-- `before == after` for two scalars of one type. -/
def Value.sameScalar : Value → Value → Bool
  | .null, .null => true
  | .bool b, .bool c => b = c
  | .int n, .int k => n = k
  | .float (.finite q), .float (.finite r) => q = r
  | .str s, .str t => s = t
  | _, _ => false

inductive ChangeKind where
  | added
  | removed
  | modified
  deriving DecidableEq

structure Change where
  path : String
  kind : ChangeKind
  deriving DecidableEq

/-- A step from a container to one of its values. -/
inductive Step where
  | key (k : String)
  | index (i : Nat)
  deriving DecidableEq

def Value.child? : Value → Step → Option Value
  | .map m, .key k => Members.get? m k
  | .seq items, .index i => items[i]?
  | _, _ => none

/-- The steps of the loop over two containers of one type. -/
def steps : Value → Value → List Step
  | .map m, .map n => (sorted (Members.keys m ++ Members.keys n).dedup).map .key
  | .seq xs, .seq ys => (List.range (max xs.length ys.length)).map .index
  | _, _ => []

/-- The path of the value the step leads to. -/
def Step.childPath (path : String) : Step → String
  | .key k => child path k
  | .index i => path ++ "/" ++ toString i

theorem sizeOf_get? {m : Members} {key : String} {x : Value} (h : m.get? key = some x) :
    sizeOf x < sizeOf m := by
  induction m with
  | nil => cases h
  | cons y m ih =>
    rw [show y :: m = (y.1, y.2) :: m from rfl, Members.get?_cons] at h
    split at h
    · obtain rfl := Option.some.inj h
      have : sizeOf y = 1 + sizeOf y.1 + sizeOf y.2 := rfl
      rw [List.cons.sizeOf_spec]
      omega
    · have := ih h
      rw [List.cons.sizeOf_spec]
      omega

theorem sizeOf_child? {x y : Value} {s : Step} (h : x.child? s = some y) : sizeOf y < sizeOf x := by
  cases x with
  | map m =>
    cases s with
    | key k =>
      have : sizeOf y < sizeOf m := sizeOf_get? (m := m) h
      rw [Value.map.sizeOf_spec]
      omega
    | index i => cases h
  | seq items =>
    cases s with
    | key k => cases h
    | index i =>
      have : sizeOf y < sizeOf items := List.sizeOf_lt_of_mem (List.mem_of_getElem? h)
      rw [Value.seq.sizeOf_spec]
      omega
  | _ => cases s <;> cases h

mutual

/-- `_diff_values`: whether to stop, and the changes. -/
def diffValues (before after : Value) (path : String) (changes : List Change) : Bool × List Change :=
  if maxDiffChanges ≤ changes.length then (true, changes)
  else if before.type ≠ after.type then (false, changes ++ [⟨orRoot path, .modified⟩])
  else if before.type = .dict ∨ before.type = .list then
    diffChildren before after (steps before after) path changes
  else if before.sameScalar after then (false, changes)
  else (false, changes ++ [⟨orRoot path, .modified⟩])
termination_by (sizeOf before, 1, 0)

/-- The rest of the loop over the values of two containers. -/
def diffChildren (before after : Value) (rest : List Step) (path : String) (changes : List Change) :
    Bool × List Change :=
  match rest with
  | [] => (false, changes)
  | s :: rest =>
    let child := s.childPath path
    let r : Bool × List Change :=
      match hbefore : before.child? s, after.child? s with
      | none, _ => (false, changes ++ [⟨child, .added⟩])
      | some _, none => (false, changes ++ [⟨child, .removed⟩])
      | some x, some y =>
        have := sizeOf_child? hbefore
        diffValues x y child changes
    if r.1 then (true, r.2)
    else if maxDiffChanges ≤ r.2.length then (true, r.2)
    else diffChildren before after rest path r.2
termination_by (sizeOf before, 0, rest.length)

end

/-- What `compare` reads of a revision. -/
structure Revision where
  canonical : Value
  canonicalSha256 : String

structure Comparison where
  sandboxId : String
  fromRevision : Int
  toRevision : Int
  fromCanonicalSha256 : String
  toCanonicalSha256 : String
  changed : Bool
  changes : List Change
  truncated : Bool

/-- `compare`, over `get_revision`. -/
def compareRevisions (getRevision : String → Int → Controller.Result Revision) (sandboxId : String)
    (fromRevision toRevision : Int) : Controller.Result Comparison := do
  Controller.require (¬(fromRevision < 1 ∨ toRevision < 1 ∨ fromRevision = toRevision))
    { status := 400, code := "invalid_revision_comparison", title := "Invalid revision comparison" }
  let before ← getRevision sandboxId fromRevision
  let after ← getRevision sandboxId toRevision
  let (truncated, changes) := diffValues before.canonical after.canonical "" []
  return {
    sandboxId, fromRevision, toRevision
    fromCanonicalSha256 := before.canonicalSha256
    toCanonicalSha256 := after.canonicalSha256
    changed := changes ≠ []
    changes := changes.take maxDiffChanges
    truncated }

end HermesOps.Hermesfile
