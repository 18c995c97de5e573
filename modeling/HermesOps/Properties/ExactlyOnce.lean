import HermesOps.Controller.ObjectiveCommands

/-! Exactly-once commands. A request that returns either found a recorded response, and then it wrote
    nothing, or found its key free, and then its response stands under the key; no request changes a
    row that holds a response. A later request with the key is answered from that row, or refused. -/

namespace HermesOps.Controller

open Schemes

variable {c : Surroundings}

/-! ### What the bodies leave alone -/

section Keeps

variable {γ α : Type} {π : CommandTables → γ}

theorem keeps_query {f : CommandTables → α} : Txn.Keeps π (query f) :=
  .statement fun s a s' h => by cases h; rfl

theorem keeps_execute {f : CommandTables → Option CommandTables}
    (h : ∀ t t', f t = some t' → π t' = π t) : Txn.Keeps π (execute f) := by
  refine .statement fun s a s' hs => ?_
  split at hs
  · rename_i t ht; cases hs; exact h s _ ht
  · cases hs

theorem keeps_checked {r : Result α} : Txn.Keeps π (checked r) := .lift

end Keeps

/-- The status of an accepted call. -/
def Call.status : Call → Nat
  | .csrf => 200
  | _ => 202

/-- The row a key has got once its response is recorded. -/
def IdempotencyRow.completed (row : IdempotencyRow) (status : Nat) (payload : Json)
    (operationId : Option String) (now : Time) : IdempotencyRow :=
  { row with
    responseStatus := some status
    responseJson := some payload
    operationId
    completedAt := some now }

/-- The key a request is kept under. -/
def tableKey (c : Surroundings) (r : Request) (key : String) : String × String :=
  (sessionFingerprint c r.session, keyHash c r.session key)

/-- The row answers the request. -/
def IdempotencyRow.Answers (c : Surroundings) (row : IdempotencyRow) (r : Request) : Prop :=
  row.method = "POST" ∧ row.route = r.route ∧
    row.requestHash = Controller.requestHash c r.session "POST" r.route r.body

theorem query_ok {α : Type} {f : CommandTables → α} {w w' : Work CommandTables} {a : α}
    (h : query f w = (.ok a, w')) : a = f w.state ∧ w'.state = w.state := by
  have hs := Txn.statement_ok h
  simp only [Except.ok.injEq, Prod.mk.injEq] at hs
  exact ⟨hs.1.symm, hs.2.symm⟩

theorem execute_ok {f : CommandTables → Option CommandTables} {w w' : Work CommandTables} {u : Unit}
    (h : execute f w = (.ok u, w')) : f w.state = some w'.state := by
  have hs := Txn.statement_ok h
  split at hs
  · rename_i t ht; cases hs; exact ht
  · cases hs

/-- What the lookup of a key finds. -/
theorem replayOrReserve_ok {r : Request} {key : String} {now : Time} {w w' : Work CommandTables}
    {replay : Option Json} {keys : Keys}
    (h : replayOrReserve c r.session key "POST" r.route r.body now w = (.ok (replay, keys), w')) :
    isAscii r.session = true ∧
      keys = ⟨sessionFingerprint c r.session, keyHash c r.session key,
        requestHash c r.session "POST" r.route r.body⟩ ∧
      ((∃ row payload, w.state.idempotency.get? (tableKey c r key) = some row ∧
          row.Answers c r ∧ row.responseJson = some payload ∧ replay = some payload ∧
          w'.state = w.state) ∨
        (replay = none ∧ ∃ row, row.Answers c r ∧ ∃ idempotency,
          w.state.idempotency.insert (tableKey c r key) row = some idempotency ∧
          w'.state = { w.state with idempotency })) := by
  obtain ⟨_, w₁, hensure, h⟩ := Txn.bind_ok.1 h
  obtain ⟨hascii, hw₁⟩ := Txn.ensure_ok.1 hensure
  subst hw₁
  obtain ⟨found, w₂, hq, h⟩ := Txn.bind_ok.1 h
  obtain ⟨hfound, hw₂⟩ := query_ok hq
  refine ⟨hascii, ?_⟩
  cases found with
  | some row =>
    by_cases hsame : row.method ≠ "POST" ∨ row.route ≠ r.route ∨
        row.requestHash ≠ requestHash c r.session "POST" r.route r.body
    · simp only [if_pos hsame] at h
      exact absurd h Txn.raise_ok
    · simp only [if_neg hsame] at h
      simp only [not_or, not_not] at hsame
      cases hpayload : row.responseJson with
      | none => simp only [hpayload] at h; exact absurd h Txn.raise_ok
      | some payload =>
        simp only [hpayload] at h
        obtain ⟨heq, hw'⟩ := Txn.pure_ok.1 h
        cases heq
        subst hw'
        exact ⟨rfl, .inl ⟨row, payload, hfound.symm, hsame, hpayload, rfl, hw₂⟩⟩
  | none =>
    obtain ⟨_, w₃, he, h⟩ := Txn.bind_ok.1 h
    obtain ⟨idempotency, hins, hw₃⟩ := Option.map_eq_some_iff.1 (execute_ok he)
    obtain ⟨heq, hw'⟩ := Txn.pure_ok.1 h
    cases heq
    subst hw'
    rw [hw₂] at hins hw₃
    exact ⟨rfl, .inr ⟨rfl, _, ⟨rfl, rfl, rfl⟩, idempotency, hins, hw₃.symm⟩⟩

theorem run_query {α : Type} {f : CommandTables → α} {t : CommandTables} {left : Option Nat}
    (hleft : left ≠ some 0) :
    query f ⟨t, left⟩ = (.ok (f t), ⟨t, left.map Nat.pred⟩) := by
  unfold query Txn.statement
  split
  · exact absurd ‹_› hleft
  · rfl

theorem requestMaterial_inj {route : String} {body body' : Members}
    (h : requestMaterial "POST" route body = requestMaterial "POST" route body') :
    canonicalJson (.obj body) = canonicalJson (.obj body') := by
  unfold requestMaterial at h
  have h₁ := (String.append_right_inj _).1 h
  have h₂ := (String.append_right_inj _).1 h₁
  exact (String.append_right_inj _).1 h₂

/-- Surroundings of one session: its hashes for the request below, and plain answers elsewhere. -/
def plain : Surroundings where
  rules := ⟨fun _ => false, fun _ => false, fun _ => true, fun _ => true⟩
  fingerprint _ := "3eb1bd439947eb762998e566ccc2e099"
  digest _ := "00000000000000000000000000000000"
  hmac _ m :=
    if m = "hermesops-idempotency-v1\x00csrf-key-01" then
      "5fd299beef215a9bbd2c9074ed6fb2b353aa9629fe4545c16fbc0b455bfcb514"
    else if m = "hermesops-request-v1\x00POST\x00/api/v1/auth/csrf\x00\x7b\x7d" then
      "b953902b36703e2de218d0e6e52f27eeb7ce5b9cce9d5a4da617da9a74becdec"
    else m
  signature _ m := m
  objectiveId _ := 0
  projectId _ := 0
  projectText _ := "project"
  timeText _ := "2026-01-01T00:00:00.000Z"
  expiryText _ := "2026-01-01T00:10:00Z"
  parseTime _ := none
  unquote s := s

end HermesOps.Controller
