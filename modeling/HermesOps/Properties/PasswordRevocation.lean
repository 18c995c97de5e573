import HermesOps.Controller.BrowserAuth

/-! What a password change does to the browser sessions, over every interleaving. A session is created
    only while the credential its password was verified against is still the one of the table, and
    a change revokes every session there is; so a session that is not revoked was verified against
    the present credential. Rows are never deleted, revocations never undone, and one request can
    create its session only once, since the identifier is computed from the request. -/

namespace HermesOps.BrowserAuth

open Schemes Controller

variable {p : Primitives} {secret : String} {t t' : AuthTables} {w w' : AuthWorld}

/-! ### The transactions -/

/-- The columns the invariant speaks of stay. -/
def AuthTables.Same (t t' : AuthTables) : Prop :=
  t'.sessions = t.sessions ∧ t'.credential = t.credential

theorem AuthTables.Same.trans {t'' : AuthTables} (h : t.Same t') (h' : t'.Same t'') : t.Same t'' :=
  ⟨h'.1.trans h.1, h'.2.trans h.2⟩

theorem writeAudit_some {id : String} {row : AuthAuditRow} (h : writeAudit t id row = some t') :
    t.Same t' := by
  unfold writeAudit at h
  split at h
  · obtain ⟨audit, -, rfl⟩ := Option.map_eq_some_iff.1 h
    exact ⟨rfl, rfl⟩
  · cases h

theorem writeIdempotency_some {key : String × String} {row : AuthIdempotencyRow}
    (h : writeIdempotency t key row = some t') : t.Same t' := by
  unfold writeIdempotency at h
  split at h
  · obtain ⟨idempotency, -, rfl⟩ := Option.map_eq_some_iff.1 h
    exact ⟨rfl, rfl⟩
  · cases h

theorem blockLogin_some {r : LoginRequest} {k : LoginKeys} {threshold now : Instant} {id : String}
    (h : blockLogin t r k threshold now id = some t') : t.Same t' := by
  unfold blockLogin at h
  split at h
  · exact writeAudit_some h
  · cases h
    exact ⟨rfl, rfl⟩

theorem writeFailure_some {r : LoginRequest} {k : LoginKeys} {now : Instant} {id : String}
    (h : writeFailure t r k now id = some t') : t.Same t' := by
  obtain ⟨t₁, h₁, h₂⟩ := Option.bind_eq_some_iff.1 h
  exact (writeIdempotency_some h₁).trans (writeAudit_some h₂)

theorem writeSuccess_some {r : LoginRequest} {k : LoginKeys} {c : Credential} {now expiresAt : Instant}
    {id : String} (h : writeSuccess p secret t r k c now expiresAt id = some t') :
    ∃ row, t.sessions.insert (sessionIdOf p (sessionToken p secret k)) row = some t'.sessions ∧
      t'.credential = t.credential := by
  obtain ⟨t₁, h₁, h⟩ := Option.bind_eq_some_iff.1 h
  obtain ⟨t₂, h₂, h₃⟩ := Option.bind_eq_some_iff.1 h
  unfold writeSession at h₁
  split at h₁
  · obtain ⟨sessions, hins, rfl⟩ := Option.map_eq_some_iff.1 h₁
    obtain ⟨hs, hc⟩ := (writeIdempotency_some h₂).trans (writeAudit_some h₃)
    exact ⟨_, hins.trans (congrArg some hs.symm), hc⟩
  · cases h₁

/-- The row is revoked unless it was. -/
def SessionRow.revoked (now : Instant) (row : SessionRow) : SessionRow :=
  { row with revokedAt := some now }

theorem revoke_some {which : SessionId → SessionRow → Bool} {now : Instant}
    (h : revoke t which now = some t') : t'.credential = t.credential ∧ t'.sessions =
      t.sessions.update (fun id row => which id row && row.revokedAt.isNone) (SessionRow.revoked now) := by
  unfold revoke at h
  dsimp only at h
  split at h
  · cases h
  · cases h
    exact ⟨rfl, rfl⟩

theorem initializeOperator_some {x : PasswordChange} {now : Instant}
    (h : initializeOperator p t x now = some t') :
    t'.sessions = t.sessions ∧ t.credential = none ∧
      ∃ c, t'.credential = some c ∧ c.passwordSalt = x.salt := by
  unfold initializeOperator at h
  split at h
  · obtain ⟨digest, -, h⟩ := Option.bind_eq_some_iff.1 h
    split at h
    · cases h
    · rename_i hnone
      cases h
      exact ⟨rfl, hnone, _, rfl, rfl⟩
  · cases h

theorem setPassword_some {x : PasswordChange} {now : Instant} {id : String}
    (h : setPassword p t x now id = some t') :
    t'.sessions = t.sessions.update (fun _ row => row.revokedAt.isNone) (SessionRow.revoked now) ∧
      ∃ c, t'.credential = some c ∧ c.passwordSalt = x.salt := by
  unfold setPassword at h
  split at h
  · obtain ⟨digest, -, h⟩ := Option.bind_eq_some_iff.1 h
    obtain ⟨c, -, h⟩ := Option.bind_eq_some_iff.1 h
    split at h
    · cases h
    · obtain ⟨t₁, h₁, h₂⟩ := Option.bind_eq_some_iff.1 h
      obtain ⟨hc, hs⟩ := revoke_some h₁
      obtain ⟨hs₂, hc₂⟩ := writeAudit_some h₂
      refine ⟨?_, c.changed x digest now, hc₂.trans hc, rfl⟩
      rw [hs₂, hs]
      simp only [Bool.true_and]
  · cases h

theorem logout_some {s : AuthenticatedSession} {key requestId id : String} {now : Instant}
    (h : logout p t s key requestId now id = some t') :
    t'.credential = t.credential ∧ (t'.sessions = t.sessions ∨
      ∃ which : SessionId → SessionRow → Bool, t'.sessions =
      t.sessions.update (fun id row => which id row && row.revokedAt.isNone)
        (SessionRow.revoked now)) := by
  obtain ⟨sid, -, h⟩ := Option.bind_eq_some_iff.1 h
  split at h
  · dsimp only at h
    split at h
    · split at h
      · cases h
      · cases h
        exact ⟨rfl, .inl rfl⟩
    · obtain ⟨t₁, h₁, h⟩ := Option.bind_eq_some_iff.1 h
      obtain ⟨t₂, h₂, h₃⟩ := Option.bind_eq_some_iff.1 h
      obtain ⟨hc, hs⟩ := revoke_some h₁
      obtain ⟨hs₂, hc₂⟩ := (writeIdempotency_some h₂).trans (writeAudit_some h₃)
      refine ⟨hc₂.trans hc, .inr ⟨fun i _ => i = sid, ?_⟩⟩
      rw [hs₂, hs]
  · cases h

/-! ### The steps -/

/-- The credential a login holds, and the version it was read at. -/
def LoginStage.held : LoginStage → Option (Option Credential × Nat)
  | .verifying credential version => some (credential, version)
  | .writing credential version _ => some (credential, version)
  | _ => none

/-- The stages a step of a login may lead to: what it then holds it held before, or has just read. -/
def Leads (w : AuthWorld) (th : LoginThread) (next : LoginStage) : Prop :=
  next.held = none ∨ next.held = th.stage.held ∨
    next.held = some (credentialOf w.tables th.request.username, w.version)

/-- What the step of a login does. -/
inductive LoginMove (p : Primitives) (secret : String) (w : AuthWorld) (tid : ThreadId)
    (th : LoginThread) : AuthWorld → Prop
  | stay : LoginMove p secret w tid th w
  | go {next : LoginStage} (h : Leads w th next) : LoginMove p secret w tid th (w.setStage tid next)
  | refuse {tables : AuthTables} (h : w.tables.Same tables) (e : Controller.ControllerError) :
      LoginMove p secret w tid th ({ w with tables }.finish tid (.error e))
  | succeed {tables : AuthTables} {c : Credential} {version : Nat} {row : SessionRow}
      {result : LoginResult} (hstage : th.stage = .writing (some c) version true)
      (hc : credentialOf w.tables th.request.username = some c)
      (hrow : w.tables.sessions.insert
        (sessionIdOf p (sessionToken p secret (loginKeys p secret th.request))) row =
          some tables.sessions)
      (hsame : tables.credential = w.tables.credential) :
      LoginMove p secret w tid th (AuthWorld.finish { w with
        tables
        logins := w.logins ++ [⟨sessionIdOf p (sessionToken p secret (loginKeys p secret th.request)),
          th.request, version⟩] } tid (.ok result))

/-- What the write transaction of a login commits. -/
theorem loginTransaction_some {r : LoginRequest} {k : LoginKeys} {credential : Option Credential}
    {valid : Bool} {clock : Readings} {id : String} {result : Result LoginResult}
    (h : loginTransaction p secret t r k credential valid clock id = (some t', result)) :
    (t.Same t' ∧ ∃ e, result = .error e) ∨
      ∃ c row expiresAt, valid = true ∧ credential = some c ∧ credentialOf t r.username = some c ∧
        result = .ok ⟨c.actorId, expiresAt, sessionToken p secret k, sessionTtlSeconds⟩ ∧
        t.sessions.insert (sessionIdOf p (sessionToken p secret k)) row = some t'.sessions ∧
        t'.credential = t.credential := by
  unfold loginTransaction at h
  split at h
  · cases h
  · cases h
  · dsimp only at h
    split at h
    · split at h
      · rename_i hblock
        cases h
        exact .inl ⟨blockLogin_some hblock, _, rfl⟩
      · cases h
    · split at h
      · cases h
      · rename_i hsame
        split at h
        · split at h
          · rename_i hfail
            cases h
            exact .inl ⟨writeFailure_some hfail, _, rfl⟩
          · cases h
        · rename_i hvalid
          split at h
          · cases h
          · rename_i c
            split at h
            · rename_i hsuccess
              cases h
              obtain ⟨row, hrow, hc⟩ := writeSuccess_some hsuccess
              rw [not_not] at hvalid hsame
              exact .inr ⟨c, row, _, hvalid, rfl, hsame, rfl, hrow, hc⟩
            · cases h

theorem Leads.finished {th : LoginThread} (result : Option (Result LoginResult)) :
    Leads w th (.finished result) := .inl rfl

/-- The login that takes the step. -/
def AuthAction.tid : AuthAction → Option ThreadId
  | .lookUp tid _ | .readSession tid _ _ | .count tid _ _ | .block tid _ _ _ | .readCredential tid _
  | .derive tid _ | .write tid _ _ _ => some tid
  | _ => none

/-- The action of a login does nothing unless its thread is live. -/
theorem step_login {a : AuthAction} {tid : ThreadId} (ha : a.tid = some tid) :
    w.step p secret a = w ∨
      ∃ th, w.threads.get? tid = some th ∧ w.step p secret a = w.loginStep p secret th a := by
  cases a with
  | login | install | setPassword | logout => cases ha
  | _ =>
    cases ha
    dsimp only [AuthWorld.step]
    split
    · rename_i th hth
      exact Or.inr ⟨th, hth, rfl⟩
    · exact Or.inl rfl

/-- Every step of a login is one of the moves. -/
theorem loginStep_move {tid : ThreadId} {th : LoginThread} {a : AuthAction} (ha : a.tid = some tid) :
    LoginMove p secret w tid th (w.loginStep p secret th a) := by
  have hfinish : ∀ result, LoginMove p secret w tid th (w.finish tid result) := fun result =>
    .go (Leads.finished _)
  cases a with
  | lookUp tid' fails =>
    cases ha
    dsimp only [AuthWorld.loginStep]
    split
    · split
      · exact hfinish _
      · split
        · exact .go (.inl rfl)
        · exact hfinish _
        · exact .go (.inl rfl)
    · exact .stay
  | readSession tid' now fails =>
    cases ha
    dsimp only [AuthWorld.loginStep]
    split
    · split
      · exact hfinish _
      · exact hfinish _
    · exact .stay
  | count tid' now fails =>
    cases ha
    dsimp only [AuthWorld.loginStep]
    split
    · split
      · exact hfinish _
      · split
        · exact .go (.inl rfl)
        · exact .go (.inl rfl)
    · exact .stay
  | block tid' now id fails =>
    cases ha
    dsimp only [AuthWorld.loginStep]
    split
    · split
      · exact hfinish _
      · split
        · split
          · rename_i hblock
            exact .refuse (blockLogin_some hblock) _
          · exact hfinish _
        · exact .go (.inl rfl)
    · exact .stay
  | readCredential tid' fails =>
    cases ha
    dsimp only [AuthWorld.loginStep]
    split
    · split
      · exact hfinish _
      · exact .go (.inr (.inr rfl))
    · exact .stay
  | derive tid' slot =>
    cases ha
    dsimp only [AuthWorld.loginStep]
    split
    · rename_i hs
      split
      · exact hfinish _
      · split
        · exact .go (Leads.finished _)
        · exact hfinish _
        · exact .go (.inr (.inl (by rw [hs]; rfl)))
    · exact .stay
  | write tid' clock id fails =>
    cases ha
    dsimp only [AuthWorld.loginStep]
    split
    · rename_i credential version valid hs
      split
      · exact hfinish _
      · split
        · exact hfinish _
        · rename_i tables e ht
          rcases loginTransaction_some ht with ⟨hsame, -⟩ | ⟨c, row, expiresAt, -, -, -, he, -⟩
          · exact .refuse hsame e
          · cases he
        · rename_i tables result ht
          rcases loginTransaction_some ht with ⟨-, e, he⟩ | ⟨c, row, expiresAt, rfl, rfl, hc, he, hrow, hsame⟩
          · cases he
          · cases he
            exact .succeed hs hc hrow hsame
    · exact .stay
  | _ => cases ha

/-! ### Revocations are not undone -/

/-- What a session keeps. -/
structure SessionRow.Later (row row' : SessionRow) : Prop where
  tokenHash : row'.tokenHash = row.tokenHash
  expiresAt : row'.expiresAt = row.expiresAt
  revokedAt : row.revokedAt.isSome → row'.revokedAt.isSome

theorem SessionRow.Later.rfl {row : SessionRow} : row.Later row := ⟨Eq.refl _, Eq.refl _, id⟩

theorem SessionRow.Later.trans {row row' row'' : SessionRow} (h : row.Later row')
    (h' : row'.Later row'') : row.Later row'' :=
  ⟨h'.tokenHash.trans h.tokenHash, h'.expiresAt.trans h.expiresAt, fun hr => h'.revokedAt (h.revokedAt hr)⟩

/-- A session stays, with what it keeps. -/
def Persists (t t' : AuthTables) : Prop :=
  ∀ id row, t.sessions.get? id = some row → ∃ row', t'.sessions.get? id = some row' ∧ row.Later row'

theorem persists_of_eq (h : t'.sessions = t.sessions) : Persists t t' :=
  fun _ row hrow => ⟨row, by rw [h]; exact hrow, .rfl⟩

theorem persists_update {which : SessionId → SessionRow → Bool} {now : Instant}
    (h : t'.sessions = t.sessions.update which (SessionRow.revoked now)) : Persists t t' := by
  intro id row hrow
  rw [h, Table.get?_update, hrow]
  by_cases hw : which id row = true
  · exact ⟨_, congrArg some (if_pos hw), rfl, rfl, fun _ => rfl⟩
  · exact ⟨_, congrArg some (if_neg hw), .rfl⟩

theorem persists_insert {id : SessionId} {row : SessionRow}
    (h : t.sessions.insert id row = some t'.sessions) : Persists t t' := by
  intro id' row' hrow
  refine ⟨row', ?_, .rfl⟩
  rw [Table.get?_insert h, if_neg]
  · exact hrow
  · rintro rfl
    rw [Table.get?_of_insert h] at hrow
    cases hrow

theorem LoginMove.persists {tid : ThreadId} {th : LoginThread} (h : LoginMove p secret w tid th w') :
    Persists w.tables w'.tables := by
  cases h with
  | stay => exact persists_of_eq rfl
  | go => exact persists_of_eq rfl
  | refuse hsame => exact persists_of_eq hsame.1
  | succeed _ _ hrow => exact persists_insert hrow

theorem step_persists (a : AuthAction) : Persists w.tables (w.step p secret a).tables := by
  have hlogin : ∀ tid, a.tid = some tid → Persists w.tables (w.step p secret a).tables := by
    intro tid ha
    rcases step_login (p := p) (w := w) ha with h | ⟨th, -, h⟩
    · rw [h]
      exact persists_of_eq rfl
    · rw [h]
      exact (loginStep_move ha).persists
  cases a with
  | login tid r =>
    dsimp only [AuthWorld.step, AuthWorld.start]
    split <;> exact persists_of_eq rfl
  | install x now fails =>
    dsimp only [AuthWorld.step]
    split
    · rename_i ht
      split at ht
      · cases ht
      · exact persists_of_eq (initializeOperator_some ht).1
    · exact persists_of_eq rfl
  | setPassword x now id fails =>
    dsimp only [AuthWorld.step]
    split
    · rename_i ht
      split at ht
      · cases ht
      · exact persists_update (setPassword_some ht).1
    · exact persists_of_eq rfl
  | logout s key requestId now id fails =>
    dsimp only [AuthWorld.step]
    split
    · rename_i ht
      split at ht
      · cases ht
      · rcases (logout_some ht).2 with h | ⟨which, h⟩
        · exact persists_of_eq h
        · exact persists_update h
    · exact persists_of_eq rfl
  | _ => exact hlogin _ rfl

/-- A session persists along every run. -/
theorem run_persists (as : List AuthAction) {w : AuthWorld} :
    Persists w.tables ((machine p secret).run w as).tables := by
  induction as generalizing w with
  | nil => exact persists_of_eq rfl
  | cons a as ih =>
    intro id row hrow
    have hstep : Persists w.tables (w.step p secret a).tables := step_persists a
    obtain ⟨row₁, hrow₁, h₁⟩ := hstep id row hrow
    obtain ⟨row₂, hrow₂, h₂⟩ := ih id row₁ hrow₁
    exact ⟨row₂, hrow₂, h₁.trans h₂⟩

/-! ### The invariant -/

/-- The salt a password change draws is not one of an earlier credential. -/
def FreshSalt (a : AuthAction) (w : AuthWorld) : Prop :=
  match a with
  | .install x _ _ | .setPassword x _ _ _ => x.salt ∉ w.salts
  | _ => True

instance (a : AuthAction) (w : AuthWorld) : Decidable (FreshSalt a w) := by
  cases a <;> unfold FreshSalt <;> infer_instance

/-- The salts tell the versions of the credential apart, a login holds the credential of the version it
    has read, and the sessions of an earlier version are revoked. -/
structure AuthInv (p : Primitives) (secret : String) (w : AuthWorld) : Prop where
  salts : w.salts.Nodup
  credential : ∀ c, w.tables.credential = some c → w.salts.head? = some c.passwordSalt
  empty : w.tables.credential = none → w.logins = []
  held : ∀ tid th c version, w.threads.get? tid = some th → th.stage.held = some (some c, version) →
    version ≤ w.version ∧ (w.salts.drop (w.version - version)).head? = some c.passwordSalt
  recorded : w.tables.sessions.rows.map Prod.fst = w.logins.map LoginRecord.sessionId
  identified : ∀ l ∈ w.logins, l.sessionId =
    sessionIdOf p (sessionToken p secret (loginKeys p secret l.request))
  revoked : ∀ l ∈ w.logins, l.version < w.version → ∀ row,
    w.tables.sessions.get? l.sessionId = some row → row.revokedAt.isSome

theorem credentialOf_some {username : String} {c : Credential} (h : credentialOf t username = some c) :
    t.credential = some c := (Option.filter_eq_some_iff.1 h).1

theorem setStage_back {tid tid' : ThreadId} {next : LoginStage} {th' : LoginThread}
    (h : (w.setStage tid next).threads.get? tid' = some th') :
    (tid' = tid ∧ th'.stage = next) ∨ w.threads.get? tid' = some th' := by
  dsimp only [AuthWorld.setStage] at h
  rw [Table.get?_updateAt] at h
  split at h
  · rename_i htid
    obtain ⟨th, -, rfl⟩ := Option.map_eq_some_iff.1 h
    exact .inl ⟨htid, rfl⟩
  · exact .inr h

namespace AuthInv

variable (hI : AuthInv p secret w)
include hI

/-- A login that goes on, over tables with the same sessions and credential. -/
theorem advance {tid : ThreadId} {th : LoginThread} {next : LoginStage} {tables : AuthTables}
    (hth : w.threads.get? tid = some th) (hsame : w.tables.Same tables) (hnext : Leads w th next) :
    AuthInv p secret ({ w with tables }.setStage tid next) := by
  obtain ⟨hs, hc⟩ := hsame
  refine ⟨hI.salts, fun c h => ?_, fun h => ?_, fun tid' th' c version hth' hheld => ?_, ?_,
    hI.identified, fun l hl hlt row hrow => ?_⟩
  · exact hI.credential c (hc ▸ h)
  · exact hI.empty (hc ▸ h)
  · rcases setStage_back hth' with ⟨rfl, hstage⟩ | hold
    · rw [hstage] at hheld
      rcases hnext with hnone | hkept | hread
      · rw [hnone] at hheld
        cases hheld
      · exact hI.held _ th c version hth (hkept ▸ hheld)
      · rw [hread] at hheld
        simp only [Option.some.injEq, Prod.mk.injEq] at hheld
        obtain ⟨hcred, rfl⟩ := hheld
        refine ⟨Nat.le_refl _, ?_⟩
        have := hI.credential c (credentialOf_some hcred)
        dsimp only [AuthWorld.setStage, AuthWorld.version]
        rw [Nat.sub_self, List.drop_zero]
        exact this
    · exact hI.held tid' th' c version hold hheld
  · exact (congrArg _ (congrArg _ hs)).trans hI.recorded
  · exact hI.revoked l hl hlt row (hs ▸ hrow)

/-- The credential a login has verified its password against is the present one. -/
theorem current {tid : ThreadId} {th : LoginThread} {c : Credential} {version : Nat}
    (hth : w.threads.get? tid = some th) (hheld : th.stage.held = some (some c, version))
    (hc : w.tables.credential = some c) : version = w.version := by
  obtain ⟨hle, hdrop⟩ := hI.held tid th c version hth hheld
  have hhead := hI.credential c hc
  have hnodup := hI.salts
  unfold AuthWorld.version at hle hdrop ⊢
  cases hsalts : w.salts with
  | nil => rw [hsalts] at hhead; cases hhead
  | cons salt salts =>
    rw [hsalts] at hhead hnodup hle hdrop
    obtain rfl : salt = c.passwordSalt := Option.some.inj hhead
    -- further down the list the salt would occur a second time
    cases hk : (c.passwordSalt :: salts).length - version with
    | zero => omega
    | succ k =>
      rw [hk, List.drop_succ_cons] at hdrop
      exact absurd (List.mem_of_mem_drop (List.mem_of_head? hdrop)) (List.nodup_cons.1 hnodup).1

theorem mem_recorded {l : LoginRecord} (hl : l ∈ w.logins) :
    w.tables.sessions.get? l.sessionId ≠ none := by
  rw [Ne, Table.get?_eq_none_iff, not_not, hI.recorded]
  exact List.mem_map_of_mem hl

theorem move {tid : ThreadId} {th : LoginThread} (hth : w.threads.get? tid = some th)
    (h : LoginMove p secret w tid th w') : AuthInv p secret w' := by
  cases h with
  | stay => exact hI
  | go hnext => exact hI.advance hth ⟨rfl, rfl⟩ hnext
  | refuse hsame e => exact hI.advance hth hsame (Leads.finished _)
  | @succeed tables c version row result hstage hc hrow hsame =>
    have hcred := credentialOf_some hc
    have hversion : version = w.version := hI.current hth (by rw [hstage]; rfl) hcred
    refine ⟨hI.salts, fun c h => ?_, fun h => ?_, fun tid' th' c' version' hth' hheld => ?_, ?_,
      fun l hl => ?_, fun l hl hlt row' hrow' => ?_⟩
    · exact hI.credential c (hsame ▸ h)
    · rw [show tables.credential = none from h, hcred] at hsame
      cases hsame
    · rcases setStage_back hth' with ⟨-, hnext⟩ | hold
      · rw [hnext] at hheld
        cases hheld
      · exact hI.held tid' th' c' version' hold hheld
    · dsimp only [AuthWorld.finish, AuthWorld.setStage]
      rw [Table.rows_insert hrow, List.map_append, List.map_append, hI.recorded]
      rfl
    · rcases List.mem_append.1 hl with hl | hl
      · exact hI.identified l hl
      · rw [List.mem_singleton.1 hl]
    · rcases List.mem_append.1 hl with hl | hl
      · dsimp only [AuthWorld.finish, AuthWorld.setStage] at hrow'
        rw [Table.get?_insert hrow, if_neg] at hrow'
        · exact hI.revoked l hl hlt row' hrow'
        · intro heq
          have := hI.mem_recorded hl
          rw [heq] at this
          exact this (Table.get?_of_insert hrow)
      · rw [List.mem_singleton.1 hl, hversion] at hlt
        exact absurd hlt (Nat.lt_irrefl _)

/-- A new credential, once every session is revoked. -/
theorem replace {tables : AuthTables} {x : PasswordChange} {c : Credential}
    (hfresh : x.salt ∉ w.salts) (hc : tables.credential = some c) (hsalt : c.passwordSalt = x.salt)
    (hkeys : tables.sessions.rows.map Prod.fst = w.tables.sessions.rows.map Prod.fst)
    (hrevoked : ∀ l ∈ w.logins, ∀ row, tables.sessions.get? l.sessionId = some row →
      row.revokedAt.isSome) :
    AuthInv p secret { w with tables, salts := x.salt :: w.salts } := by
  refine ⟨List.nodup_cons.2 ⟨hfresh, hI.salts⟩, fun c' h => ?_, fun h => ?_,
    fun tid th c' version hth hheld => ?_, hkeys.trans hI.recorded, hI.identified,
    fun l hl _ row hrow => hrevoked l hl row hrow⟩
  · obtain rfl : c = c' := Option.some.inj (hc.symm.trans h)
    rw [hsalt]
    rfl
  · rw [hc] at h
    cases h
  · obtain ⟨hle, hdrop⟩ := hI.held tid th c' version hth hheld
    unfold AuthWorld.version at hle hdrop ⊢
    refine ⟨Nat.le_succ_of_le hle, ?_⟩
    rw [List.length_cons, Nat.succ_sub hle, List.drop_succ_cons]
    exact hdrop

theorem step (a : AuthAction) (hfresh : FreshSalt a w) : AuthInv p secret (w.step p secret a) := by
  have hlogin : ∀ tid, a.tid = some tid → AuthInv p secret (w.step p secret a) := by
    intro tid ha
    rcases step_login (p := p) (w := w) ha with h | ⟨th, hth, h⟩
    · rw [h]
      exact hI
    · rw [h]
      exact hI.move hth (loginStep_move ha)
  cases a with
  | login tid r =>
    dsimp only [AuthWorld.step, AuthWorld.start]
    split
    · rename_i threads hins
      refine ⟨hI.salts, hI.credential, hI.empty, fun tid' th' c version hth' hheld => ?_, hI.recorded,
        hI.identified, hI.revoked⟩
      dsimp only at hth'
      rw [Table.get?_insert hins] at hth'
      split at hth'
      · cases hth'
        dsimp only at hheld
        split at hheld <;> cases hheld
      · exact hI.held tid' th' c version hth' hheld
    · exact hI
  | install x now fails =>
    dsimp only [AuthWorld.step]
    split
    · rename_i ht
      split at ht
      · cases ht
      · obtain ⟨hs, hnone, c, hc, hsalt⟩ := initializeOperator_some ht
        refine hI.replace hfresh hc hsalt (by rw [hs]) fun l hl => ?_
        rw [hI.empty hnone] at hl
        cases hl
    · exact hI
  | setPassword x now id fails =>
    dsimp only [AuthWorld.step]
    split
    · rename_i ht
      split at ht
      · cases ht
      · obtain ⟨hs, c, hc, hsalt⟩ := setPassword_some ht
        refine hI.replace hfresh hc hsalt (by rw [hs, Table.keys_update]) fun l _ row hrow => ?_
        rw [hs, Table.get?_update] at hrow
        obtain ⟨old, -, rfl⟩ := Option.map_eq_some_iff.1 hrow
        split
        · rfl
        · rename_i hrevoked
          exact Option.isSome_iff_ne_none.2 (by simpa using hrevoked)
    · exact hI
  | logout s key requestId now id fails =>
    dsimp only [AuthWorld.step]
    split
    · rename_i tables ht
      split at ht
      · cases ht
      · obtain ⟨hc, hs⟩ := logout_some ht
        have hkeys : tables.sessions.rows.map Prod.fst = w.tables.sessions.rows.map Prod.fst := by
          rcases hs with hs | ⟨which, hs⟩
          · rw [hs]
          · rw [hs, Table.keys_update]
        have hlater : Persists w.tables tables := by
          rcases hs with hs | ⟨which, hs⟩
          · exact persists_of_eq hs
          · exact persists_update hs
        refine ⟨hI.salts, fun c h => hI.credential c (hc ▸ h), fun h => hI.empty (hc ▸ h), hI.held,
          hkeys.trans hI.recorded, hI.identified, fun l hl hlt row hrow => ?_⟩
        obtain ⟨old, hold⟩ := Option.ne_none_iff_exists'.1 (hI.mem_recorded hl)
        obtain ⟨row', hrow', hkept⟩ := hlater _ old hold
        obtain rfl : row = row' := Option.some.inj (hrow.symm.trans hrow')
        exact hkept.revokedAt (hI.revoked l hl hlt old hold)
    · exact hI
  | _ => exact hlogin _ rfl

end AuthInv

theorem authInv_reachable (hw : (machine p secret).Reachable FreshSalt w) : AuthInv p secret w := by
  refine Machine.invariant (fun w hw => ?_) (fun a w _ hfresh hI => hI.step a hfresh) hw
  rw [show w = ⟨⟨none, .empty, .empty, .empty⟩, .empty, [], []⟩ from hw]
  exact ⟨List.nodup_nil, by simp, by simp, by simp, rfl, by simp, by simp⟩

/-! ### What is accepted -/

/-- An accepted browser cookie names a session that is neither revoked nor expired. -/
theorem authenticateCookie_ok {header : Option String} {now : Instant} {s : AuthenticatedSession}
    {id : SessionId} (h : authenticateCookie p secret t header now = .ok s)
    (hid : s.sessionId = some id) :
    ∃ row, t.sessions.get? id = some row ∧ row.revokedAt = none ∧ now < row.expiresAt := by
  unfold authenticateCookie at h
  cases hv : cookieValue header with
  | error e => rw [hv] at h; cases h
  | ok supplied =>
    rw [hv] at h
    simp only [bind, Except.bind] at h
    split at h
    · cases h
      cases hid
    · split at h
      · cases h
      · split at h
        · cases h
        · rename_i id' row hfind
          unfold sessionFromRow at h
          split at h
          · cases h
          · split at h
            · cases h
            · rename_i hcurrent
              cases h
              cases hid
              refine ⟨row, Table.mem_rows_iff.1 (List.mem_of_find?_eq_some hfind), ?_⟩
              simpa using hcurrent

/-- The two requests come from the same source with the same key and credentials. -/
def LoginRequest.Repeats (r r' : LoginRequest) : Prop :=
  r.source = r'.source ∧ r.idempotencyKey = r'.idempotencyKey ∧ r.username = r'.username ∧
    r.password = r'.password

theorem loginKeys_repeats {r r' : LoginRequest} (h : r.Repeats r') :
    sessionToken p secret (loginKeys p secret r) = sessionToken p secret (loginKeys p secret r') := by
  obtain ⟨hsource, hkey, huser, hpassword⟩ := h
  simp only [sessionToken, loginKeys, hsource, hkey, huser, hpassword]

/-- In every interleaving of logins, logouts and password changes whose salts differ: no session that was
    verified against an earlier credential than the present one is accepted; a session that is
    revoked, or expired at some instant, is not accepted in any later state at any later instant; and
    the sessions are those of the recorded logins, no two of which repeat a request. -/
theorem password_change_revokes (p : Primitives) (secret : String) {w : AuthWorld}
    (hw : (machine p secret).Reachable FreshSalt w) :
    (∀ l ∈ w.logins, l.version < w.version → ∀ header now s,
      authenticateCookie p secret w.tables header now = .ok s → s.sessionId ≠ some l.sessionId) ∧
    (∀ id row now, w.tables.sessions.get? id = some row →
      row.revokedAt.isSome ∨ row.expiresAt ≤ now → ∀ as later header s, now ≤ later →
      authenticateCookie p secret ((machine p secret).run w as).tables header later = .ok s →
        s.sessionId ≠ some id) ∧
    w.tables.sessions.rows.map Prod.fst = w.logins.map LoginRecord.sessionId ∧
    w.logins.Pairwise fun l l' => ¬l.request.Repeats l'.request := by
  have hI := authInv_reachable hw
  refine ⟨fun l hl hlt header now s hok hid => ?_, fun id row now hrow hover as later header s hle hok
    hid => ?_, hI.recorded, ?_⟩
  · obtain ⟨row, hrow, hnone, -⟩ := authenticateCookie_ok hok hid
    have hrevoked := hI.revoked l hl hlt row hrow
    rw [hnone] at hrevoked
    cases hrevoked
  · obtain ⟨row', hrow', hnone, hcurrent⟩ := authenticateCookie_ok hok hid
    have hrun : Persists w.tables ((machine p secret).run w as).tables := run_persists as
    obtain ⟨row'', hrow'', -, hexpires, hkept⟩ := hrun id row hrow
    obtain rfl : row' = row'' := Option.some.inj (hrow'.symm.trans hrow'')
    rcases hover with hrevoked | hexpired
    · have := hkept hrevoked
      rw [hnone] at this
      cases this
    · rw [hexpires] at hcurrent
      exact absurd hcurrent (Int.not_lt.2 (Int.le_trans hexpired hle))
  · -- a repeated request would have the identifier of a session that exists
    have hnodup : (w.logins.map LoginRecord.sessionId).Nodup := hI.recorded ▸ w.tables.sessions.keys
    refine (List.pairwise_map.1 hnodup).imp_of_mem fun hl hl' hne hsame => hne ?_
    rw [hI.identified _ hl, hI.identified _ hl', loginKeys_repeats hsame]

/-- Digests that depend on the length of the text, and keys that depend on password and salt. -/
def lengthPrimitives : Primitives where
  sha256 s := List.replicate 32 (UInt8.ofNat s.length)
  sha256Hex s := String.ofList (List.replicate 32 (hexDigit (s.length % 16)))
  hmacHex _ s := String.ofList [hexDigit (s.length % 16)]
  hmacText _ s := String.ofList (List.replicate 43 (hexDigit (s.length % 16)))
  scrypt password salt _ _ _ := some ((salt ++ salt).map fun b => b + UInt8.ofNat password.length)

def probeSecret : String := "0123456789abcdef0123456789abcdef"

def operatorPassword (password : String) (salt : UInt8) : PasswordChange :=
  ⟨"operator", password, List.replicate 16 salt, 16384, 8, 1⟩

def operatorLogin (key : String) : LoginRequest :=
  ⟨"operator", "first password", key, "127.0.0.1", "", "request-1"⟩

/-- The stages of a login that is not limited. -/
def loginRun (tid : ThreadId) : List AuthAction :=
  [.lookUp tid false, .count tid 0 false, .readCredential tid false, .derive tid true]

/-- One login succeeds before the change; another one has verified the old password when it comes. -/
def loginsAroundChange : List AuthAction :=
  [.install (operatorPassword "first password" 1) 0 false, .login 0 (operatorLogin "key-00001"),
    .login 1 (operatorLogin "key-000002")] ++ loginRun 0 ++ loginRun 1 ++
  [ .write 0 ⟨1, 1, 1, 1⟩ "auth_1" false,
    .setPassword (operatorPassword "second password" 2) 2 "auth_2" false,
    .write 1 ⟨3, 3, 3, 3⟩ "auth_3" false ]

def authRun (as : List AuthAction) : AuthWorld :=
  (machine lengthPrimitives probeSecret).run ⟨⟨none, .empty, .empty, .empty⟩, .empty, [], []⟩ as

def firstCookie : Option String :=
  some ("hermesops_session=" ++
    sessionToken lengthPrimitives probeSecret
      (loginKeys lengthPrimitives probeSecret (operatorLogin "key-00001")))

set_option maxRecDepth 20000 in
/-- The session of the first login is accepted until the change, and never after it. -/
theorem password_change_revokes_first :
    (authenticateCookie lengthPrimitives probeSecret (authRun (loginsAroundChange.take 12)).tables
      firstCookie 1).toOption.isSome ∧
    ∀ l ∈ (authRun loginsAroundChange).logins, ∀ header now s,
      authenticateCookie lengthPrimitives probeSecret (authRun loginsAroundChange).tables header now =
        .ok s → s.sessionId ≠ some l.sessionId := by
  have hreach : (machine lengthPrimitives probeSecret).Reachable FreshSalt
      (authRun loginsAroundChange) := (Machine.Reachable.start rfl).run (by decide +kernel)
  have hearlier : ∀ l ∈ (authRun loginsAroundChange).logins,
      l.version < (authRun loginsAroundChange).version := by decide +kernel
  exact ⟨by decide +kernel, fun l hl =>
    (password_change_revokes lengthPrimitives probeSecret hreach).1 l hl (hearlier l hl)⟩

end HermesOps.BrowserAuth
