import Mathlib.Data.Rat.Defs
import Mathlib.Data.List.Basic

/-! The tree a Hermesfile is parsed into. A mapping is the list of its members in the order of the
    dictionary; its operations take the first member of a key, which in a dictionary is the only one. -/

namespace HermesOps.Hermesfile

/-- A float; a finite one is the rational number it stands for. -/
inductive Float64 where
  | finite (q : Rat)
  | infinite
  | nan
  deriving DecidableEq

/-- A value of the loader; `other` stands for its values of any further type. -/
inductive Value where
  | null
  | bool (b : Bool)
  | int (n : Int)
  | float (x : Float64)
  | str (s : String)
  | seq (items : List Value)
  | map (members : List (String × Value))
  | other

abbrev Members := List (String × Value)

namespace Members

/-- `value.get(key)`, with nothing for an absent key. -/
def get? (m : Members) (key : String) : Option Value := (m.find? fun x => x.1 = key).map Prod.snd

/-- `value.get(key)`. -/
def get (m : Members) (key : String) : Value := (m.get? key).getD .null

def keys (m : Members) : List String := m.map Prod.fst

/-- `value[key] = x`. -/
def set : Members → String → Value → Members
  | [], key, x => [(key, x)]
  | (k, y) :: m, key, x => if k = key then (key, x) :: m else (k, y) :: set m key x

/-- `value.setdefault(key, x)`. -/
def setDefault (m : Members) (key : String) (x : Value) : Members :=
  if (m.get? key).isSome then m else m.set key x

variable {m : Members} {key : String} {x : Value}

theorem get?_cons (k : String) (y : Value) (m : Members) :
    get? ((k, y) :: m) key = if k = key then some y else m.get? key := by
  unfold get?
  rw [List.find?_cons]
  by_cases hk : k = key <;> simp [hk]

theorem keys_cons (y : String × Value) (m : Members) : keys (y :: m) = y.1 :: m.keys := rfl

theorem get?_eq_none_iff : m.get? key = none ↔ key ∉ m.keys := by
  induction m with
  | nil => simp [get?, keys]
  | cons y m ih =>
    rw [get?_cons, keys, List.map_cons, List.mem_cons]
    split
    · rename_i hk
      simp [hk]
    · rename_i hk
      rw [ih, keys]
      simp [Ne.symm hk]

theorem mem_keys_iff : key ∈ m.keys ↔ ∃ x, m.get? key = some x := by
  rw [← Option.ne_none_iff_exists', Ne, get?_eq_none_iff, not_not]

theorem mem_of_get? (h : m.get? key = some x) : (key, x) ∈ m := by
  obtain ⟨y, hy, rfl⟩ := Option.map_eq_some_iff.1 h
  have hk : y.1 = key := by simpa using List.find?_some hy
  rw [← hk]
  exact List.mem_of_find?_eq_some hy

theorem get?_set (m : Members) (key : String) (x : Value) (j : String) :
    (m.set key x).get? j = if j = key then some x else m.get? j := by
  induction m with
  | nil =>
    rw [set, get?_cons]
    by_cases hj : key = j
    · rw [if_pos hj, if_pos hj.symm]
    · rw [if_neg hj, if_neg (Ne.symm hj)]
  | cons y m ih =>
    rw [set]
    by_cases hy : y.1 = key
    · rw [if_pos hy, get?_cons, show y :: m = (y.1, y.2) :: m from rfl, get?_cons, hy]
      by_cases hj : key = j
      · rw [if_pos hj, if_pos hj.symm]
      · rw [if_neg hj, if_neg (Ne.symm hj), if_neg hj]
    · rw [if_neg hy, get?_cons, show y :: m = (y.1, y.2) :: m from rfl, get?_cons, ih]
      by_cases hj : y.1 = j
      · rw [if_pos hj, if_pos hj, if_neg]
        rintro rfl
        exact hy hj
      · rw [if_neg hj, if_neg hj]

theorem set_self (h : m.get? key = some x) : m.set key x = m := by
  induction m with
  | nil => cases h
  | cons y m ih =>
    rw [show y :: m = (y.1, y.2) :: m from rfl, get?_cons] at h
    rw [set]
    split at h
    · rename_i hy
      rw [if_pos hy, ← hy, ← Option.some.inj h]
    · rename_i hy
      rw [if_neg hy, ih h]

end Members

/-- The members of a mapping. -/
def Value.members? : Value → Option Members
  | .map m => some m
  | _ => none

/-- The text of a string. -/
def Value.text? : Value → Option String
  | .str s => some s
  | _ => none

mutual

/-- The data nodes of a value, itself included. -/
def Value.nodes : Value → Nat
  | .seq items => nodesItems items + 1
  | .map members => nodesMembers members + 1
  | _ => 1

def nodesItems : List Value → Nat
  | [] => 0
  | x :: xs => x.nodes + nodesItems xs

def nodesMembers : List (String × Value) → Nat
  | [] => 0
  | (_, x) :: xs => x.nodes + nodesMembers xs

end

end HermesOps.Hermesfile
