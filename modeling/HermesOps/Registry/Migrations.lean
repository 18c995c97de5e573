import HermesOps.Schemes.Machine
import Mathlib.Data.List.Sort
import Mathlib.Data.String.Basic

/-! `command_migrate` of `hermesops-db.py`. A run reads the applied versions once and then executes the
    scripts of its checkout that are not among them, each in a transaction of its own. Any number of runs
    may be under way, each with its own checkout, and a run may be interrupted at any time, which rolls
    its script back. Every script under `migrations` inserts the number of its file name into
    `schema_migrations`, whose primary key it is, and sets `user_version` to it; what else it does to the
    schema is its body. -/

namespace HermesOps.Migrations

open Schemes

/-! ### Files -/

/-- A file of the directory `migrations`; the body is `none` where a statement of it fails. -/
structure Script (σ : Type) where
  name : String
  body : σ → Option σ

/-- The pattern `[0-9][0-9][0-9]_*.sql`. -/
def matchesPattern : List Char → Bool
  | a :: b :: c :: '_' :: rest => a.isDigit && b.isDigit && c.isDigit && ".sql".toList.isSuffixOf rest
  | _ => false

/-- `int` of the three digits before the first underscore. -/
def prefixNumber : List Char → Nat
  | a :: b :: c :: _ => 100 * (a.toNat - 48) + 10 * (b.toNat - 48) + (c.toNat - 48)
  | _ => 0

variable {σ : Type}

def Script.version (x : Script σ) : Nat := prefixNumber x.name.toList

/-- `migration_files`. -/
def migrationFiles (directory : List (Script σ)) : List (Script σ) :=
  (directory.filter fun x => matchesPattern x.name.toList).insertionSort fun a b => a.name ≤ b.name

/-! ### The database -/

/-- The rows of `schema_migrations` in the order of their insertion, `user_version`, and everything else. -/
structure Database (σ : Type) where
  applied : List Nat
  userVersion : Nat
  schema : σ

/-- `executescript` of one transaction. -/
def Script.execute (x : Script σ) (db : Database σ) : Option (Database σ) := do
  let schema ← x.body db.schema
  if x.version ∈ db.applied then none
  else some ⟨db.applied ++ [x.version], x.version, schema⟩

/-! ### Runs -/

/-- A run of `command_migrate`: what it has read, its files, and those that are left. -/
structure Run (σ : Type) where
  applied : List Nat
  files : List (Script σ)
  rest : List (Script σ)
  failed : Bool

structure World (σ : Type) where
  db : Database σ
  runs : List (Run σ)

inductive Action (σ : Type) where
  | start (checkout : List (Script σ))
  /-- The next round of the loop. -/
  | advance (i : Nat)
  /-- A kill, or a database that stays locked. -/
  | interrupt (i : Nat)

/-- One round of the loop. -/
def Run.advance (r : Run σ) (db : Database σ) : Run σ × Database σ :=
  match r.rest with
  | [] => (r, db)
  | x :: rest =>
    if r.failed then (r, db)
    else if x.version ∈ r.applied then ({ r with rest }, db)
    else
      match x.execute db with
      | some db => ({ r with rest }, db)
      | none => ({ r with failed := true }, db)

def step (a : Action σ) (w : World σ) : World σ :=
  match a with
  | .start checkout =>
    let files := migrationFiles checkout
    { w with runs := w.runs ++ [⟨w.db.applied, files, files, false⟩] }
  | .advance i =>
    match w.runs[i]? with
    | some r => ⟨(r.advance w.db).2, w.runs.set i (r.advance w.db).1⟩
    | none => w
  | .interrupt i =>
    match w.runs[i]? with
    | some r => { w with runs := w.runs.set i { r with failed := true } }
    | none => w

def Database.initial (schema : σ) : Database σ := ⟨[], 0, schema⟩

/-- The run has printed `PASS`. -/
def Run.passed (r : Run σ) : Bool := !r.failed && r.rest.isEmpty

def machine (schema : σ) : Machine (Action σ) (World σ) := ⟨fun w => w = ⟨.initial schema, []⟩, step⟩

end HermesOps.Migrations
