import HermesOps.Registry.Migrations

/-! Migrations over every interleaving of their runs. The database has always been made by the first
    scripts of the directory, each executed once and in the order of its number, whichever runs came
    between and wherever they were interrupted; a run that passes has left none of its scripts out. -/

namespace HermesOps.Migrations

open Schemes

variable {σ : Type} {schema : σ} {w : World σ} {directory : List (Script σ)}

/-! ### The order of the files -/

theorem isDigit_toNat {c : Char} (h : c.isDigit = true) : 48 ≤ c.toNat ∧ c.toNat ≤ 57 := by
  simp only [Char.isDigit, Bool.and_eq_true, decide_eq_true_eq] at h
  exact h

theorem matchesPattern_cases {name : List Char} (h : matchesPattern name = true) :
    ∃ a b c rest, name = a :: b :: c :: rest ∧ a.isDigit = true ∧ b.isDigit = true ∧ c.isDigit = true := by
  unfold matchesPattern at h
  split at h
  · rename_i a b c rest
    simp only [Bool.and_eq_true] at h
    exact ⟨a, b, c, _, rfl, h.1.1.1, h.1.1.2, h.1.2⟩
  · cases h

/-- The order of the numbers is that of the names. -/
theorem prefixNumber_lt {name name' : List Char} (hname : matchesPattern name = true)
    (hname' : matchesPattern name' = true) (h : prefixNumber name < prefixNumber name') : name < name' := by
  obtain ⟨a, b, c, rest, rfl, ha, hb, hc⟩ := matchesPattern_cases hname
  obtain ⟨a', b', c', rest', rfl, ha', hb', hc'⟩ := matchesPattern_cases hname'
  have := isDigit_toNat ha
  have := isDigit_toNat hb
  have := isDigit_toNat hc
  have := isDigit_toNat ha'
  have := isDigit_toNat hb'
  have := isDigit_toNat hc'
  have hlt {x y : Char} (h : x.toNat < y.toNat) : x < y := h
  have heq {x y : Char} (h : x.toNat = y.toNat) : x = y := Char.toNat_inj.1 h
  rw [prefixNumber, prefixNumber] at h
  rw [List.cons_lt_cons_iff]
  by_cases hfirst : a.toNat < a'.toNat
  · exact .inl (hlt hfirst)
  · refine .inr ⟨heq (by omega), ?_⟩
    rw [List.cons_lt_cons_iff]
    by_cases hsecond : b.toNat < b'.toNat
    · exact .inl (hlt hsecond)
    · refine .inr ⟨heq (by omega), ?_⟩
      rw [List.cons_lt_cons_iff]
      exact .inl (hlt (by omega))

theorem mem_migrationFiles {x : Script σ} (h : x ∈ migrationFiles directory) :
    matchesPattern x.name.toList = true := by
  have hperm := List.perm_insertionSort (fun a b : Script σ => a.name ≤ b.name)
    (directory.filter fun x => matchesPattern x.name.toList)
  exact (List.mem_filter.1 (hperm.mem_iff.1 h)).2

/-- The files come in the order of their numbers. -/
theorem files_sorted (hdistinct : ((migrationFiles directory).map Script.version).Nodup) :
    ((migrationFiles directory).map Script.version).Pairwise (· < ·) := by
  have hle : ((migrationFiles directory).map Script.version).Pairwise (· ≤ ·) := by
    rw [List.pairwise_map]
    have hsorted : (migrationFiles directory).Pairwise fun a b => a.name ≤ b.name :=
      List.pairwise_insertionSort _ _
    refine hsorted.imp_of_mem fun ha hb hab => ?_
    refine Nat.le_of_not_lt fun hlt => ?_
    exact absurd (String.lt_iff_toList_lt.2 (prefixNumber_lt (mem_migrationFiles hb)
      (mem_migrationFiles ha) hlt))
      (not_lt.2 hab)
  exact (hle.and hdistinct).imp fun h => lt_of_le_of_ne h.1 h.2

/-! ### The scripts that were executed -/

/-- The scripts executed one after the other. -/
def replay (files : List (Script σ)) (db : Database σ) : Option (Database σ) :=
  files.foldlM (fun db x => x.execute db) db

section Replay

variable {files : List (Script σ)} {x : Script σ} {db db' : Database σ}

theorem execute_some (h : x.execute db = some db') :
    x.version ∉ db.applied ∧ db'.applied = db.applied ++ [x.version] ∧ db'.userVersion = x.version := by
  obtain ⟨schema, -, h⟩ := Option.bind_eq_some_iff.1 h
  split at h
  · cases h
  · rename_i hnew
    cases h
    exact ⟨hnew, rfl, rfl⟩

theorem replay_append (files files' : List (Script σ)) :
    replay (files ++ files') db = (replay files db).bind fun db => replay files' db := List.foldlM_append

theorem replay_single (x : Script σ) (db : Database σ) : replay [x] db = x.execute db := by
  change (x.execute db).bind some = _
  exact Option.bind_fun_some _

theorem replay_applied (h : replay files db = some db') :
    db'.applied = db.applied ++ files.map Script.version := by
  induction files generalizing db with
  | nil =>
    cases h
    rw [List.map_nil, List.append_nil]
  | cons x files ih =>
    obtain ⟨middle, hx, h⟩ := Option.bind_eq_some_iff.1 h
    rw [ih h, (execute_some hx).2.1, List.append_assoc]
    rfl

/-- `user_version` is the last version. -/
theorem replay_userVersion (h : replay files db = some db')
    (hdb : db.userVersion = db.applied.getLast?.getD 0) :
    db'.userVersion = db'.applied.getLast?.getD 0 := by
  induction files generalizing db with
  | nil =>
    cases h
    exact hdb
  | cons x files ih =>
    obtain ⟨middle, hx, h⟩ := Option.bind_eq_some_iff.1 h
    obtain ⟨-, happlied, huser⟩ := execute_some hx
    refine ih h ?_
    rw [happlied, huser, List.getLast?_concat]
    rfl

end Replay

/-! ### Every run -/

/-- A run of a checkout: its first files are in the database, and so is what it has read. -/
structure RunOk (files : List (Script σ)) (db : Database σ) (r : Run σ) : Prop where
  checkout : r.files <+: files
  read : ∀ v ∈ r.applied, v ∈ db.applied
  done : ∃ k ≤ r.files.length, r.rest = r.files.drop k ∧ k ≤ db.applied.length

/-- The first scripts have made the database. -/
structure WorldInv (schema : σ) (files : List (Script σ)) (w : World σ) : Prop where
  made : replay (files.take w.db.applied.length) (.initial schema) = some w.db
  runs : ∀ r ∈ w.runs, RunOk files w.db r

/-- A checkout of this or an earlier revision. -/
def FromRevision (files : List (Script σ)) : Action σ → World σ → Prop
  | .start checkout, _ => migrationFiles checkout <+: files
  | _, _ => True

section Runs

variable {files : List (Script σ)} {r : Run σ} {db : Database σ} {a : Action σ}

theorem WorldInv.applied_eq (h : WorldInv schema files w) :
    w.db.applied = (files.take w.db.applied.length).map Script.version := replay_applied h.made

theorem WorldInv.length_le (h : WorldInv schema files w) : w.db.applied.length ≤ files.length := by
  have hlength := congrArg List.length h.applied_eq
  rw [List.length_map, List.length_take] at hlength
  omega

/-- The version of a file is applied when there are more versions than files before it. -/
theorem WorldInv.mem_applied (h : WorldInv schema files w) (hdistinct : (files.map Script.version).Nodup)
    {k : Nat}
    {x : Script σ} (hx : files[k]? = some x) : x.version ∈ w.db.applied ↔ k < w.db.applied.length := by
  have hget : (files.map Script.version)[k]? = some x.version := by
    rw [List.getElem?_map, hx, Option.map_some]
  have hmem : x.version ∈ w.db.applied ↔
    x.version ∈ (files.map Script.version).take w.db.applied.length := by
    conv_lhs => rw [h.applied_eq, List.map_take]
  rw [hmem]
  constructor
  · intro hmem
    obtain ⟨j, hj⟩ := List.mem_iff_getElem?.1 hmem
    rw [List.getElem?_take] at hj
    split at hj
    · rename_i hlt
      have hsame : j = k := by
        obtain ⟨hj', hjv⟩ := List.getElem?_eq_some_iff.1 hj
        obtain ⟨hk', hkv⟩ := List.getElem?_eq_some_iff.1 hget
        exact (List.Nodup.getElem_inj_iff hdistinct).1 (hjv.trans hkv.symm)
      exact hsame ▸ hlt
    · cases hj
  · intro hlt
    refine List.mem_of_getElem? (i := k) ?_
    rw [List.getElem?_take, if_pos hlt, hget]

/-- What an append to the database leaves of a run. -/
theorem RunOk.mono (h : RunOk files db r) {db' : Database σ} (hdb : db.applied <+: db'.applied) :
    RunOk files db' r := by
  obtain ⟨k, hk, hrest, hle⟩ := h.done
  exact ⟨h.checkout, fun v hv => hdb.subset (h.read v hv), k, hk, hrest, hle.trans hdb.length_le⟩

/-- The next file of a run is the file after those it has done. -/
theorem RunOk.next (h : RunOk files db r) {x : Script σ} {rest : List (Script σ)}
    (hrest : r.rest = x :: rest) :
    ∃ k < r.files.length, files[k]? = some x ∧ rest = r.files.drop (k + 1) ∧ k ≤ db.applied.length := by
  obtain ⟨k, -, hk, hle⟩ := h.done
  rw [hrest] at hk
  have hlt : k < r.files.length := by
    by_contra hge
    rw [List.drop_eq_nil_of_le (by omega)] at hk
    cases hk
  rw [List.drop_eq_getElem_cons hlt] at hk
  obtain ⟨hx, hrest'⟩ := List.cons.inj hk
  obtain ⟨later, hlater⟩ := h.checkout
  refine ⟨k, hlt, ?_, hrest', hle⟩
  rw [← hlater, List.getElem?_append_left hlt, List.getElem?_eq_getElem hlt, hx]

/-- One round: the database is left alone or gets its next script, and the run is as it should be. -/
theorem advance_ok (hdistinct : (files.map Script.version).Nodup) (h : WorldInv schema files w)
    (hr : r ∈ w.runs) :
    w.db.applied <+: (r.advance w.db).2.applied ∧
      replay (files.take (r.advance w.db).2.applied.length) (.initial schema) = some (r.advance w.db).2 ∧
      RunOk files (r.advance w.db).2 (r.advance w.db).1 := by
  have hok := h.runs r hr
  have hsame : w.db.applied <+: w.db.applied := List.prefix_refl _
  unfold Run.advance
  cases hrest : r.rest with
  | nil => exact ⟨hsame, h.made, hok⟩
  | cons x rest =>
    obtain ⟨k, hk, hx, hrest', hle⟩ := hok.next hrest
    dsimp only
    split
    · exact ⟨hsame, h.made, hok⟩
    · split
      · rename_i hread
        have hlt := (h.mem_applied hdistinct hx).1 (hok.read _ hread)
        exact ⟨hsame, h.made, hok.checkout, hok.read, k + 1, hk, hrest', hlt⟩
      · cases hnew : x.execute w.db with
        | none =>
          have hdone := hok.done
          rw [hrest] at hdone
          exact ⟨hsame, h.made, hok.checkout, hok.read, hdone⟩
        | some db =>
          obtain ⟨hfresh, happlied, -⟩ := execute_some hnew
          have hcount : k = w.db.applied.length := by
            have hge := mt (h.mem_applied hdistinct hx).2 hfresh
            omega
          have hgrew : w.db.applied <+: db.applied := ⟨_, happlied.symm⟩
          have hlength : db.applied.length = w.db.applied.length + 1 := by
            rw [happlied, List.length_append, List.length_singleton]
          refine ⟨hgrew, ?_, hok.checkout, fun v hv => hgrew.subset (hok.read v hv), k + 1, hk, hrest', ?_⟩
          · rw [hlength, List.take_add_one, ← hcount, hx, replay_append, hcount, h.made]
            exact (replay_single x w.db).trans hnew
          · change k + 1 ≤ db.applied.length
            omega

theorem worldInv_step (hdistinct : (files.map Script.version).Nodup) (h : WorldInv schema files w)
    (ha : FromRevision files a w) : WorldInv schema files (step a w) ∧
      w.db.applied <+: (step a w).db.applied := by
  cases a with
  | start checkout =>
    refine ⟨⟨h.made, fun r hr => ?_⟩, List.prefix_refl _⟩
    rcases List.mem_append.1 hr with hr | hr
    · exact h.runs r hr
    · rw [List.mem_singleton.1 hr]
      exact ⟨ha, fun v hv => hv, 0, Nat.zero_le _, rfl, Nat.zero_le _⟩
  | advance i =>
    rw [step]
    cases hr : w.runs[i]? with
    | none => exact ⟨h, List.prefix_refl _⟩
    | some r =>
      obtain ⟨hgrew, hmade, hok⟩ := advance_ok hdistinct h (List.mem_of_getElem? hr)
      refine ⟨⟨hmade, fun q hq => ?_⟩, hgrew⟩
      rcases List.mem_or_eq_of_mem_set hq with hq | rfl
      · exact (h.runs q hq).mono hgrew
      · exact hok
  | interrupt i =>
    rw [step]
    cases hr : w.runs[i]? with
    | none => exact ⟨h, List.prefix_refl _⟩
    | some r =>
      have hok := h.runs r (List.mem_of_getElem? hr)
      refine ⟨⟨h.made, fun q hq => ?_⟩, List.prefix_refl _⟩
      rcases List.mem_or_eq_of_mem_set hq with hq | rfl
      · exact h.runs q hq
      · exact ⟨hok.checkout, hok.read, hok.done⟩

theorem worldInv_reachable (hdistinct : (files.map Script.version).Nodup)
    (h : (machine schema).Reachable (FromRevision files) w) : WorldInv schema files w := by
  refine Machine.invariant (I := WorldInv schema files) ?_
    (fun a w _ ha hw => (worldInv_step hdistinct hw ha).1) h
  rintro w rfl
  refine ⟨rfl, fun r hr => ?_⟩
  cases hr

/-- Versions are only added. -/
theorem applied_grows (hdistinct : (files.map Script.version).Nodup) (h : WorldInv schema files w)
    {as : List (Action σ)} (has : (machine schema).Along (FromRevision files) w as) :
    w.db.applied <+: ((machine schema).run w as).db.applied := by
  induction as generalizing w with
  | nil => exact List.prefix_refl _
  | cons a as ih =>
    obtain ⟨hw, hgrew⟩ := worldInv_step hdistinct h has.1
    exact hgrew.trans (ih hw has.2)

/-- A run that has passed has left nothing out. -/
theorem RunOk.passed (h : RunOk files db r) (hpassed : r.passed = true) :
    r.files.length ≤ db.applied.length := by
  obtain ⟨k, hk, hrest, hle⟩ := h.done
  simp only [Run.passed, Bool.and_eq_true, List.isEmpty_iff] at hpassed
  rw [hpassed.2] at hrest
  have := List.drop_eq_nil_iff.1 hrest.symm
  omega

/-- In every interleaving of runs of any checkouts the database is what the first scripts of the directory
    make of an empty one, executed once each and in the order of their numbers; a run that has passed has
    had all of its scripts executed, and no version is ever taken back. -/
theorem migrations_in_order (hdistinct : ((migrationFiles directory).map Script.version).Nodup)
    (h : (machine schema).Reachable (FromRevision (migrationFiles directory)) w) :
    (∃ n ≤ (migrationFiles directory).length,
      replay ((migrationFiles directory).take n) (.initial schema) = some w.db ∧
      w.db.applied = ((migrationFiles directory).take n).map Script.version) ∧
    w.db.applied.Pairwise (· < ·) ∧
    w.db.userVersion = w.db.applied.getLast?.getD 0 ∧
    (∀ r ∈ w.runs, r.passed = true → r.files.map Script.version <+: w.db.applied) ∧
    ∀ as, (machine schema).Along (FromRevision (migrationFiles directory)) w as →
      w.db.applied <+: ((machine schema).run w as).db.applied := by
  have hw := worldInv_reachable hdistinct h
  refine ⟨⟨_, hw.length_le, hw.made, hw.applied_eq⟩, ?_, replay_userVersion hw.made rfl,
    fun r hr hpassed => ?_,
    fun as has => applied_grows hdistinct hw has⟩
  · rw [hw.applied_eq]
    exact (files_sorted hdistinct).sublist ((List.take_sublist _ _).map _)
  · have hok := hw.runs r hr
    have hle := hok.passed hpassed
    rw [hw.applied_eq, List.map_take]
    refine (List.prefix_take_iff).2 ⟨hok.checkout.map _, ?_⟩
    rw [List.length_map]
    exact hle

end Runs

/-! ### A run that nobody disturbs -/

section Alone

variable {files : List (Script σ)} {r : Run σ} {i : Nat}

/-- What the remaining scripts of a run come to. -/
structure Settled (r : Run σ) (w w' : World σ) (i : Nat) : Prop where
  passed : ∀ db, replay (r.rest.filter fun x => x.version ∉ r.applied) w.db = some db →
    w'.db = db ∧ ∃ r', w'.runs[i]? = some r' ∧ r'.passed = true
  failed : replay (r.rest.filter fun x => x.version ∉ r.applied) w.db = none →
    ∃ r', w'.runs[i]? = some r' ∧ r'.passed = false

theorem step_advance (hr : w.runs[i]? = some r) :
    step (.advance i) w = ⟨(r.advance w.db).2, w.runs.set i (r.advance w.db).1⟩ := by
  rw [step, hr]

/-- A run that has failed stays where it is. -/
theorem run_failed (hr : w.runs[i]? = some r) (hfailed : r.failed = true) (n : Nat) :
    (machine schema).run w (List.replicate n (.advance i)) = w := by
  induction n with
  | zero => rfl
  | succ n ih =>
    have hsame : r.advance w.db = (r, w.db) := by
      unfold Run.advance
      cases r.rest with
      | nil => rfl
      | cons x rest => exact if_pos hfailed
    have hstep : step (.advance i) w = w := by
      obtain ⟨hi, hget⟩ := List.getElem?_eq_some_iff.1 hr
      rw [step_advance hr, hsame]
      dsimp only
      rw [← hget, List.set_getElem_self]
    rw [List.replicate_succ]
    change (machine schema).run (step (.advance i) w) _ = w
    rw [hstep, ih]

theorem run_alone (hr : w.runs[i]? = some r) (hactive : r.failed = false) :
    Settled r w ((machine schema).run w (List.replicate r.rest.length (.advance i))) i := by
  obtain ⟨applied, files, rest, failed⟩ := r
  cases hactive
  induction rest generalizing w with
  | nil =>
    refine ⟨fun db h => ?_, fun h => by cases h⟩
    cases h
    exact ⟨rfl, _, hr, rfl⟩
  | cons x rest ih =>
    have hi : i < w.runs.length := (List.getElem?_eq_some_iff.1 hr).1
    rw [List.length_cons, List.replicate_succ]
    change Settled _ w ((machine schema).run (step (.advance i) w) _) i
    rw [step_advance hr]
    by_cases hread : x.version ∈ applied
    · have hnext : Run.advance ⟨applied, files, x :: rest, false⟩ w.db =
          (⟨applied, files, rest, false⟩, w.db) := by
        unfold Run.advance
        dsimp only
        rw [if_neg Bool.false_ne_true, if_pos hread]
      rw [hnext]
      have hrest := ih (w := ⟨w.db, w.runs.set i ⟨applied, files, rest, false⟩⟩) (List.getElem?_set_self hi)
      have hfilter : (x :: rest).filter (fun x => x.version ∉ applied) =
          rest.filter fun x => x.version ∉ applied :=
        List.filter_cons_of_neg (by simpa using hread)
      exact ⟨fun db h => hrest.passed db (hfilter ▸ h), fun h => hrest.failed (hfilter ▸ h)⟩
    · have hfilter : (x :: rest).filter (fun x => x.version ∉ applied) =
          x :: rest.filter fun x => x.version ∉ applied := List.filter_cons_of_pos (by simpa using hread)
      cases hnew : x.execute w.db with
      | none =>
        have hnext : Run.advance ⟨applied, files, x :: rest, false⟩ w.db =
            (⟨applied, files, x :: rest, true⟩, w.db) := by
          unfold Run.advance
          dsimp only
          rw [if_neg Bool.false_ne_true, if_neg hread, hnew]
        rw [hnext, run_failed (List.getElem?_set_self hi) rfl]
        refine ⟨fun db h => ?_, fun _ => ⟨_, List.getElem?_set_self hi, rfl⟩⟩
        rw [hfilter, replay, List.foldlM_cons, hnew] at h
        cases h
      | some db =>
        have hnext : Run.advance ⟨applied, files, x :: rest, false⟩ w.db =
            (⟨applied, files, rest, false⟩, db) := by
          unfold Run.advance
          dsimp only
          rw [if_neg Bool.false_ne_true, if_neg hread, hnew]
        rw [hnext]
        have hrest := ih (w := ⟨db, w.runs.set i ⟨applied, files, rest, false⟩⟩) (List.getElem?_set_self hi)
        have hreplay : replay ((x :: rest).filter fun x => x.version ∉ applied) w.db =
            replay (rest.filter fun x => x.version ∉ applied) db := by
          rw [hfilter, replay, List.foldlM_cons, hnew]
          rfl
        exact ⟨fun db h => hrest.passed db (hreplay ▸ h), fun h => hrest.failed (hreplay ▸ h)⟩

/-- The files of a checkout that are not applied are those after the applied ones. -/
theorem filter_unapplied (hdistinct : (files.map Script.version).Nodup) (h : WorldInv schema files w)
    {checkout : List (Script σ)} (hcheckout : checkout <+: files) :
    (checkout.filter fun x => x.version ∉ w.db.applied) = checkout.drop w.db.applied.length := by
  obtain ⟨later, rfl⟩ := hcheckout
  have hmem {k : Nat} {x : Script σ} (hx : checkout[k]? = some x) :
      x.version ∈ w.db.applied ↔ k < w.db.applied.length := by
    refine h.mem_applied hdistinct ?_
    rw [List.getElem?_append_left (List.getElem?_eq_some_iff.1 hx).1, hx]
  conv_lhs => rw [← List.take_append_drop w.db.applied.length checkout]
  rw [List.filter_append, List.filter_eq_nil_iff.2, List.nil_append, List.filter_eq_self.2]
  · intro x hx
    obtain ⟨k, hk⟩ := List.mem_iff_getElem?.1 hx
    rw [List.getElem?_drop] at hk
    exact decide_eq_true fun happlied => absurd ((hmem hk).1 happlied) (by omega)
  · intro x hx
    obtain ⟨k, hk⟩ := List.mem_iff_getElem?.1 hx
    rw [List.getElem?_take] at hk
    split at hk
    · rename_i hlt
      simpa using (hmem hk).2 hlt
    · cases hk

end Alone

/-- A run that starts in a state and that nobody disturbs. -/
def undisturbed (schema : σ) (w : World σ) (checkout : List (Script σ)) : World σ :=
  (machine schema).run w (.start checkout :: List.replicate (migrationFiles checkout).length
    (.advance w.runs.length))

/-- Such a run passes exactly when the scripts of its checkout after the applied ones execute one after
    the other, and these are what it executes. -/
theorem undisturbed_run (hdistinct : ((migrationFiles directory).map Script.version).Nodup)
    (h : (machine schema).Reachable (FromRevision (migrationFiles directory)) w)
    (checkout : List (Script σ))
    (hcheckout : migrationFiles checkout <+: migrationFiles directory) :
    (∀ db, replay ((migrationFiles checkout).drop w.db.applied.length) w.db = some db →
      (undisturbed schema w checkout).db = db ∧
        ∃ r, (undisturbed schema w checkout).runs[w.runs.length]? = some r ∧ r.passed = true) ∧
    (replay ((migrationFiles checkout).drop w.db.applied.length) w.db = none →
      ∃ r, (undisturbed schema w checkout).runs[w.runs.length]? = some r ∧ r.passed = false) := by
  have hw := worldInv_reachable hdistinct h
  have hr : (step (.start checkout) w).runs[w.runs.length]? =
      some ⟨w.db.applied, migrationFiles checkout, migrationFiles checkout, false⟩ := by
    change (w.runs ++ [_])[w.runs.length]? = _
    rw [List.getElem?_append_right (Nat.le_refl _), Nat.sub_self]
    rfl
  have halone : Settled _ _ (undisturbed schema w checkout) w.runs.length := run_alone hr rfl
  rw [← filter_unapplied hdistinct hw hcheckout]
  exact ⟨halone.passed, halone.failed⟩

/-! ### Two runs at once -/

def sampleScript (name : String) : Script (List String) := ⟨name, fun schema => some (schema ++ [name])⟩

def sampleDirectory : List (Script (List String)) :=
  [sampleScript "002_b.sql", sampleScript "README", sampleScript "001_a.sql"]

/-- The second run starts between the scripts of the first. -/
def sampleRuns : List (Action (List String)) :=
  [.start sampleDirectory, .advance 0, .start sampleDirectory, .advance 0, .advance 1, .advance 1]

def sampleWorld : World (List String) := (machine []).run ⟨.initial [], []⟩ sampleRuns

theorem sampleDirectory_distinct : ((migrationFiles sampleDirectory).map Script.version).Nodup := by decide

theorem sampleWorld_reachable :
    (machine []).Reachable (FromRevision (migrationFiles sampleDirectory)) sampleWorld :=
  .run (.start rfl) ⟨List.prefix_refl _, trivial, List.prefix_refl _, trivial, trivial, trivial, trivial⟩

/-- The run that comes too late with a script fails. -/
theorem sampleWorld_in_order : sampleWorld.db.applied = [1, 2] ∧
    sampleWorld.runs.map Run.passed = [true, false] ∧
    sampleWorld.db.applied.Pairwise (· < ·) ∧
    ∀ as, (machine []).Along (FromRevision (migrationFiles sampleDirectory)) sampleWorld as →
      sampleWorld.db.applied <+: ((machine []).run sampleWorld as).db.applied := by
  obtain ⟨-, hsorted, -, -, hgrows⟩ := migrations_in_order sampleDirectory_distinct sampleWorld_reachable
  exact ⟨by decide, by decide, hsorted, hgrows⟩

/-- The next run passes. -/
theorem sampleWorld_undisturbed : (undisturbed [] sampleWorld sampleDirectory).db = sampleWorld.db ∧
    ∃ r, (undisturbed [] sampleWorld sampleDirectory).runs[2]? = some r ∧ r.passed = true :=
  (undisturbed_run sampleDirectory_distinct sampleWorld_reachable sampleDirectory
    (List.prefix_refl _)).1 _ rfl

end HermesOps.Migrations
