import HermesOps.Properties.PasswordRevocation

/-! What a step of a login does: to the tables, and to the stage of the login. A step that writes is one of
    three: a limited login leaves at most its audit row, a wrong password its failure, a right one its
    session. Everything else that ends a login ends it with the tables as they were. -/

namespace HermesOps.BrowserAuth

open Schemes Controller

variable {p : Primitives} {secret : String} {t t' : AuthTables} {w : AuthWorld}

/-! ### The rows -/

/-- The audit row is inserted, and nothing else is written. -/
structure Audited (id : String) (row : AuthAuditRow) (t t' : AuthTables) : Prop where
  audit : t.audit.insert id row = some t'.audit
  sessions : t'.sessions = t.sessions
  credential : t'.credential = t.credential
  idempotency : t'.idempotency = t.idempotency

theorem writeAudit_audited {id : String} {row : AuthAuditRow} (h : writeAudit t id row = some t') :
    Audited id row t t' := by
  unfold writeAudit at h
  split at h
  · obtain ⟨audit, haudit, rfl⟩ := Option.map_eq_some_iff.1 h
    exact ⟨haudit, rfl, rfl, rfl⟩
  · cases h

theorem writeIdempotency_rest {key : String × String} {row : AuthIdempotencyRow}
    (h : writeIdempotency t key row = some t') :
    t'.audit = t.audit ∧ t'.sessions = t.sessions ∧ t'.credential = t.credential := by
  unfold writeIdempotency at h
  split at h
  · obtain ⟨idempotency, -, rfl⟩ := Option.map_eq_some_iff.1 h
    exact ⟨rfl, rfl, rfl⟩
  · cases h

/-- A limited login writes its audit row, unless the window has one. -/
theorem blockLogin_cases {r : LoginRequest} {k : LoginKeys} {threshold now : Instant} {id : String}
    (h : blockLogin t r k threshold now id = some t') : t' = t ∨
      (auditCount t "rate_limited" k threshold = 0 ∧
        Audited id (loginAudit k "rate_limited" none none r.requestId now) t t') := by
  unfold blockLogin at h
  split at h
  · rename_i hnone
    exact Or.inr ⟨hnone, writeAudit_audited h⟩
  · exact Or.inl (Option.some.inj h).symm

/-- The rows of a wrong password. -/
theorem writeFailure_rows {r : LoginRequest} {k : LoginKeys} {now : Instant} {id : String}
    (h : writeFailure t r k now id = some t') :
    t.audit.insert id (loginAudit k "failure" none none r.requestId now) = some t'.audit ∧
      t'.sessions = t.sessions ∧ t'.credential = t.credential := by
  obtain ⟨t₁, h₁, h₂⟩ := Option.bind_eq_some_iff.1 h
  obtain ⟨haudit, hsessions, hcredential⟩ := writeIdempotency_rest h₁
  have hwritten := writeAudit_audited h₂
  exact ⟨haudit ▸ hwritten.audit, hwritten.sessions.trans hsessions,
    hwritten.credential.trans hcredential⟩

/-- The rows of a right password. -/
theorem writeSuccess_rows {r : LoginRequest} {k : LoginKeys} {c : Credential}
    {now expiresAt : Instant} {id : String}
    (h : writeSuccess p secret t r k c now expiresAt id = some t') :
    (∃ row, row.createdAt = now ∧
        t.sessions.insert (sessionIdOf p (sessionToken p secret k)) row = some t'.sessions) ∧
      (∃ actorId sessionFp, t.audit.insert id
        (loginAudit k "success" actorId sessionFp r.requestId now) = some t'.audit) ∧
      t'.credential = t.credential := by
  obtain ⟨t₁, h₁, h⟩ := Option.bind_eq_some_iff.1 h
  obtain ⟨t₂, h₂, h₃⟩ := Option.bind_eq_some_iff.1 h
  obtain ⟨haudit, hsessions, hcredential⟩ := writeIdempotency_rest h₂
  have hwritten := writeAudit_audited h₃
  unfold writeSession at h₁
  split at h₁
  · obtain ⟨sessions, hins, rfl⟩ := Option.map_eq_some_iff.1 h₁
    refine ⟨⟨_, rfl, hins.trans ?_⟩, ⟨_, _, haudit ▸ hwritten.audit⟩,
      hwritten.credential.trans hcredential⟩
    rw [hwritten.sessions, hsessions]
  · cases h₁

/-! ### The steps -/

/-- The threshold of the write transaction. -/
def Readings.threshold (clock : Readings) : Instant := clock.window - 1000 * loginWindowSeconds

/-- What ends a login apart from a refused password and a full window. -/
structure Unrelated (e : Controller.ControllerError) : Prop where
  answered : e ≠ authenticationRequired
  blocked : e ≠ temporarilyBlocked

/-- What a step of the login does: the tables and the stage it leaves. -/
inductive Advance (p : Primitives) (secret : String) (w : AuthWorld) (th : LoginThread) :
    AuthAction → AuthTables → LoginStage → Prop
  | goes {a : AuthAction} {next : LoginStage} (h : ∀ result, next ≠ .finished result)
      (hcount : ∀ threshold, next = .blocking threshold → ∃ tid now fails, a = .count tid now fails ∧
        threshold = now - 1000 * loginWindowSeconds) :
      Advance p secret w th a w.tables next
  | raised {a : AuthAction} : Advance p secret w th a w.tables (.finished none)
  | replays {a : AuthAction} {result : Result LoginResult}
      (h : replayLookup w.tables (loginKeys p secret th.request) ≠ none ∨
        ∃ id, th.stage = .replaying id) :
      Advance p secret w th a w.tables (.finished (some result))
  | fails {a : AuthAction} {e : Controller.ControllerError} (h : Unrelated e) :
      Advance p secret w th a w.tables (.finished (some (.error e)))
  | blockedFirst {tid : ThreadId} {now threshold : Instant} {id : String} {tables : AuthTables}
      (hstage : th.stage = .blocking threshold)
      (h : blockLogin w.tables th.request (loginKeys p secret th.request) threshold now id =
        some tables) :
      Advance p secret w th (.block tid now id false) tables
        (.finished (some (.error temporarilyBlocked)))
  | blocked {tid : ThreadId} {clock : Readings} {id : String} {tables : AuthTables}
      (hfull : limited w.tables (loginKeys p secret th.request) clock.threshold = true)
      (h : blockLogin w.tables th.request (loginKeys p secret th.request) clock.threshold clock.now id =
        some tables) :
      Advance p secret w th (.write tid clock id false) tables
        (.finished (some (.error temporarilyBlocked)))
  | wrong {tid : ThreadId} {clock : Readings} {id : String} {tables : AuthTables}
      (hfull : limited w.tables (loginKeys p secret th.request) clock.threshold = false)
      (h : writeFailure w.tables th.request (loginKeys p secret th.request) clock.now id =
        some tables) :
      Advance p secret w th (.write tid clock id false) tables
        (.finished (some (.error authenticationRequired)))
  | right {tid : ThreadId} {clock : Readings} {id : String} {tables : AuthTables} {c : Credential}
      {expiresAt : Instant} {result : LoginResult}
      (hfull : limited w.tables (loginKeys p secret th.request) clock.threshold = false)
      (h : writeSuccess p secret w.tables th.request (loginKeys p secret th.request) c clock.now
        expiresAt id = some tables) :
      Advance p secret w th (.write tid clock id false) tables (.finished (some (.ok result)))

theorem unrelated_of_status {e : Controller.ControllerError} (h : e.status = 503) : Unrelated e := by
  constructor <;> rintro rfl <;> exact absurd h (by decide)

theorem credentialMatches_error {credential : Option Credential} {password : String}
    {e : Controller.ControllerError} (h : credentialMatches p credential password = some (.error e)) :
    Unrelated e := by
  unfold credentialMatches at h
  split at h
  · obtain ⟨_, -, h⟩ := Option.map_eq_some_iff.1 h
    cases h
  · split at h
    · rename_i hrow
      cases h
      unfold validateCredentialRow require at hrow
      split at hrow
      · cases hrow
      · cases hrow
        exact unrelated_of_status rfl
    · obtain ⟨_, -, h⟩ := Option.map_eq_some_iff.1 h
      cases h

/-- The world after a step of the login: it has made this step, or was not at it. -/
def Stepped (p : Primitives) (secret : String) (w : AuthWorld) (tid : ThreadId) (th : LoginThread)
    (a : AuthAction) (w' : AuthWorld) : Prop :=
  w' = w ∨ ∃ tables next, Advance p secret w th a tables next ∧ w'.tables = tables ∧
    w'.threads = w.threads.updateAt tid fun th => { th with stage := next }

theorem Stepped.of {tid : ThreadId} {th : LoginThread} {a : AuthAction} {next : LoginStage}
    (h : Advance p secret w th a w.tables next) : Stepped p secret w tid th a (w.setStage tid next) :=
  Or.inr ⟨_, _, h, rfl, rfl⟩

theorem Stepped.failed {tid : ThreadId} {th : LoginThread} {a : AuthAction} :
    Stepped p secret w tid th a (w.finishFailed tid) := .of (.fails (unrelated_of_status rfl))

/-- A stage that neither ends the login nor waits to block it. -/
theorem Stepped.next {tid : ThreadId} {th : LoginThread} {a : AuthAction} {next : LoginStage}
    (h : ∀ result, next ≠ .finished result) (h' : ∀ threshold, next ≠ .blocking threshold) :
    Stepped p secret w tid th a (w.setStage tid next) :=
  .of (.goes h fun threshold hnext => absurd hnext (h' threshold))

/-- What the write transaction commits, and how the login ends. -/
theorem loginTransaction_advance {tid : ThreadId} {th : LoginThread} {credential : Option Credential}
    {valid : Bool} {clock : Readings} {id : String} :
    let outcome := loginTransaction p secret w.tables th.request (loginKeys p secret th.request) credential
      valid clock id
    Advance p secret w th (.write tid clock id false) (outcome.1.getD w.tables)
      (.finished (some outcome.2)) := by
  intro outcome
  have houtcome : outcome = loginTransaction p secret w.tables th.request
    (loginKeys p secret th.request) credential valid clock id := rfl
  rw [houtcome]
  unfold loginTransaction
  split
  · rename_i hlookup
    exact .replays (Or.inl (by rw [hlookup]; exact Option.some_ne_none _))
  · rename_i hlookup
    exact .replays (Or.inl (by rw [hlookup]; exact Option.some_ne_none _))
  · dsimp only
    split
    · rename_i hfull
      split
      · rename_i hrow
        exact .blocked hfull hrow
      · exact .fails (unrelated_of_status rfl)
    · rename_i hopen
      rw [Bool.not_eq_true] at hopen
      split
      · exact .fails (unrelated_of_status rfl)
      · split
        · split
          · rename_i hrow
            exact .wrong hopen hrow
          · exact .fails (unrelated_of_status rfl)
        · split
          · exact .fails (unrelated_of_status rfl)
          · split
            · rename_i hrow
              exact .right hopen hrow
            · exact .fails (unrelated_of_status rfl)

theorem stepped_write {tid : ThreadId} {th : LoginThread} {clock : Readings} {id : String}
    {fails : Bool} :
    Stepped p secret w tid th (.write tid clock id fails)
      (w.loginStep p secret th (.write tid clock id fails)) := by
  dsimp only [AuthWorld.loginStep]
  split
  · rename_i credential version valid hstage
    cases fails with
    | true => exact .failed
    | false =>
      have hadvance := @loginTransaction_advance p secret w tid th credential valid clock id
      rw [if_neg Bool.false_ne_true]
      split
      · rename_i result houtcome
        rw [houtcome] at hadvance
        exact .of hadvance
      · rename_i tables e houtcome
        rw [houtcome] at hadvance
        exact Or.inr ⟨_, _, hadvance, rfl, rfl⟩
      · rename_i tables result houtcome
        rw [houtcome] at hadvance
        exact Or.inr ⟨_, _, hadvance, rfl, rfl⟩
  · exact Or.inl rfl

/-- Every step of a login is one of the advances. -/
theorem loginStep_stepped {tid : ThreadId} {th : LoginThread} {a : AuthAction}
    (ha : a.tid = some tid) : Stepped p secret w tid th a (w.loginStep p secret th a) := by
  cases a with
  | lookUp tid' fails =>
    cases ha
    dsimp only [AuthWorld.loginStep]
    split
    · split
      · exact .failed
      · split
        · exact .next (by simp) (by simp)
        · rename_i e hlookup
          exact .of (.replays (Or.inl (by rw [hlookup]; exact Option.some_ne_none _)))
        · exact .next (by simp) (by simp)
    · exact Or.inl rfl
  | readSession tid' now fails =>
    cases ha
    dsimp only [AuthWorld.loginStep]
    split
    · rename_i id hstage
      split
      · exact .failed
      · exact .of (.replays (Or.inr ⟨id, hstage⟩))
    · exact Or.inl rfl
  | count tid' now fails =>
    cases ha
    dsimp only [AuthWorld.loginStep]
    split
    · split
      · exact .failed
      · split
        · refine .of (.goes (by simp) fun threshold hnext => ⟨tid, now, fails, rfl, ?_⟩)
          cases hnext
          rfl
        · exact .next (by simp) (by simp)
    · exact Or.inl rfl
  | block tid' now id fails =>
    cases ha
    dsimp only [AuthWorld.loginStep]
    split
    · rename_i threshold hstage
      cases fails with
      | true => exact .failed
      | false =>
        rw [if_neg Bool.false_ne_true]
        split
        · split
          · rename_i hrow
            exact Or.inr ⟨_, _, .blockedFirst hstage hrow, rfl, rfl⟩
          · exact .failed
        · exact .next (by simp) (by simp)
    · exact Or.inl rfl
  | readCredential tid' fails =>
    cases ha
    dsimp only [AuthWorld.loginStep]
    split
    · split
      · exact .failed
      · exact .next (by simp) (by simp)
    · exact Or.inl rfl
  | derive tid' slot =>
    cases ha
    dsimp only [AuthWorld.loginStep]
    split
    · split
      · exact .of (.fails (unrelated_of_status rfl))
      · split
        · exact .of .raised
        · rename_i hmatch
          exact .of (.fails (credentialMatches_error hmatch))
        · exact .next (by simp) (by simp)
    · exact Or.inl rfl
  | write tid' clock id fails =>
    cases ha
    exact stepped_write
  | _ => cases ha

end HermesOps.BrowserAuth
