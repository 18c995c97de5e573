import HermesOps.Controller.AuthClock
import HermesOps.Properties.LoginWrites

/-! Whether a password change commits. Its timestamp is read before it has the write lock, and the trigger on
    the sessions refuses to revoke one that is younger; so a login that commits in between makes the
    whole change fail, unless its session is revoked again by the time the lock is there. -/

namespace HermesOps.BrowserAuth

open Schemes Controller

variable {p : Primitives} {secret : String} {t t' : AuthTables} {w : AuthWorld}

/-! ### The change -/

/-- What `set_password` writes. -/
def changedTables (t : AuthTables) (x : PasswordChange) (digest : Bytes) (c : Credential) (now : Instant)
    (audit : Table String AuthAuditRow) : AuthTables where
  credential := some (c.changed x digest now)
  sessions := t.sessions.update (fun _ row => row.revokedAt.isNone) (SessionRow.revoked now)
  idempotency := t.idempotency
  audit := audit

def passwordAudit (now : Instant) : AuthAuditRow :=
  ⟨"password_change", "success", some "operator", none, none, none, "local-cli", now⟩

/-- No session that is open is younger than the instant. -/
def AuthTables.NoneSince (t : AuthTables) (now : Instant) : Prop :=
  ∀ id row, t.sessions.get? id = some row → row.revokedAt = none → row.createdAt ≤ now

theorem revoke_isSome {now : Instant} (h : t.NoneSince now) : revoke t (fun _ _ => true) now = some { t with
    sessions := t.sessions.update (fun _ row => row.revokedAt.isNone) (SessionRow.revoked now) } := by
  unfold revoke
  dsimp only
  rw [if_neg]
  · simp only [Bool.true_and]
    rfl
  · rw [Table.any_iff]
    rintro ⟨id, row, hrow, hyoung⟩
    simp only [Bool.true_and, Bool.and_eq_true, decide_eq_true_eq, Option.isNone_iff_eq_none] at hyoung
    exact absurd (h id row hrow hyoung.1) (Int.not_le.2 hyoung.2)

theorem revoke_noneSince {now : Instant} (h : revoke t (fun _ _ => true) now = some t') :
    t.NoneSince now := by
  intro id row hrow hopen
  unfold revoke at h
  dsimp only at h
  split at h
  · cases h
  · rename_i hyoung
    rw [Table.any_iff] at hyoung
    refine Int.not_lt.1 fun hlt => hyoung ⟨id, row, hrow, ?_⟩
    simp [hopen, hlt]

theorem writeAudit_eq {id : String} {row : AuthAuditRow} {audit : Table String AuthAuditRow}
    (hid : 8 ≤ row.requestId.length ∧ row.requestId.length ≤ 128)
    (h : t.audit.insert id row = some audit) : writeAudit t id row = some { t with audit } := by
  unfold writeAudit
  rw [if_pos hid, h]
  rfl

/-- A change of valid arguments commits when no open session is younger than its timestamp. -/
theorem setPassword_eq {x : PasswordChange} {now : Instant} {id : String} {digest : Bytes} {c : Credential}
    {audit : Table String AuthAuditRow}
    (hargs : isUsername x.username ∧ isPassword x.password ∧ validScrypt x.n x.r x.p)
    (hderive : derivePassword p x.password x.salt x.n x.r x.p = some digest)
    (hc : credentialOf t x.username = some c) (hcreated : c.createdAt ≤ now) (hnone : t.NoneSince now)
    (haudit : t.audit.insert id (passwordAudit now) = some audit) :
    setPassword p t x now id = some (changedTables t x digest c now audit) := by
  have hrevoke := revoke_isSome (t := { t with credential := some (c.changed x digest now) }) hnone
  unfold setPassword
  rw [if_pos hargs, hderive, Option.bind_eq_bind, Option.bind_some, hc, Option.bind_eq_bind,
    Option.bind_some, if_neg (Int.not_lt.2 hcreated), hrevoke, Option.bind_eq_bind, Option.bind_some]
  have hid : 8 ≤ (passwordAudit now).requestId.length ∧ (passwordAudit now).requestId.length ≤ 128 := by
    rw [show (passwordAudit now).requestId = "local-cli" from rfl]
    decide
  exact writeAudit_eq hid haudit

/-- A change that commits has found no younger session open. -/
theorem setPassword_noneSince {x : PasswordChange} {now : Instant} {id : String}
    (h : setPassword p t x now id = some t') : t.NoneSince now := by
  unfold setPassword at h
  split at h
  · obtain ⟨digest, -, h⟩ := Option.bind_eq_some_iff.1 h
    obtain ⟨c, -, h⟩ := Option.bind_eq_some_iff.1 h
    split at h
    · cases h
    · obtain ⟨t₁, hrevoke, -⟩ := Option.bind_eq_some_iff.1 h
      have hnone := revoke_noneSince hrevoke
      exact hnone
  · cases h

/-! ### Sessions and credentials over time -/

theorem setPassword_credential {x : PasswordChange} {now : Instant} {id : String}
    (h : setPassword p t x now id = some t') :
    ∃ c c', t.credential = some c ∧ t'.credential = some c' ∧ c'.username = c.username ∧
      c'.createdAt = c.createdAt := by
  unfold setPassword at h
  split at h
  · obtain ⟨digest, -, h⟩ := Option.bind_eq_some_iff.1 h
    obtain ⟨c, hc, h⟩ := Option.bind_eq_some_iff.1 h
    split at h
    · cases h
    · obtain ⟨t₁, hrevoke, h⟩ := Option.bind_eq_some_iff.1 h
      refine ⟨c, c.changed x digest now, credentialOf_some hc, ?_, rfl, rfl⟩
      rw [(writeAudit_audited h).credential, (revoke_some hrevoke).1]
  · cases h

theorem initializeOperator_credential {x : PasswordChange} {now : Instant}
    (h : initializeOperator p t x now = some t') :
    t.credential = none ∧ ∃ c, t'.credential = some c ∧ c.createdAt = now := by
  unfold initializeOperator at h
  split at h
  · obtain ⟨digest, -, h⟩ := Option.bind_eq_some_iff.1 h
    split at h
    · cases h
    · rename_i hnone
      cases h
      exact ⟨hnone, _, rfl, rfl⟩
  · cases h

/-- Where the sessions and the credential of the next state come from. -/
structure Traced (a : AuthAction) (t t' : AuthTables) : Prop where
  sessions : ∀ id row', t'.sessions.get? id = some row' →
    (∃ row, t.sessions.get? id = some row ∧ row'.createdAt = row.createdAt) ∨
      (t.sessions.get? id = none ∧
        ∃ tid clock auditId, a = .write tid clock auditId false ∧ row'.createdAt = clock.now)
  kept : ∀ c, t.credential = some c →
    ∃ c', t'.credential = some c' ∧ c'.username = c.username ∧ c'.createdAt = c.createdAt
  credential : ∀ c', t'.credential = some c' →
    (∃ c, t.credential = some c ∧ c'.createdAt = c.createdAt) ∨ a.stamp? = some c'.createdAt

theorem Traced.of_same {a : AuthAction} (hs : t'.sessions = t.sessions) (hc : t'.credential = t.credential) :
    Traced a t t' where
  sessions _ row' h := Or.inl ⟨row', hs ▸ h, rfl⟩
  kept c h := ⟨c, hc.trans h, rfl, rfl⟩
  credential c' h := Or.inl ⟨c', hc ▸ h, rfl⟩

theorem traced_revoked {which : SessionId → SessionRow → Bool} {now : Instant} {id : SessionId}
    {row' : SessionRow}
    (h : (t.sessions.update which (SessionRow.revoked now)).get? id = some row') :
    ∃ row, t.sessions.get? id = some row ∧ row'.createdAt = row.createdAt := by
  rw [Table.get?_update] at h
  obtain ⟨row, hrow, rfl⟩ := Option.map_eq_some_iff.1 h
  refine ⟨row, hrow, ?_⟩
  split <;> rfl

theorem Advance.traced {th : LoginThread} {a : AuthAction} {tables : AuthTables} {next : LoginStage}
    (h : Advance p secret w th a tables next) : Traced a w.tables tables := by
  cases h with
  | goes | raised | replays | fails => exact .of_same rfl rfl
  | blockedFirst _ hrow | blocked _ hrow =>
    rcases blockLogin_cases hrow with rfl | ⟨-, haudited⟩
    · exact .of_same rfl rfl
    · exact .of_same haudited.sessions haudited.credential
  | wrong _ hrow =>
    obtain ⟨-, hs, hc⟩ := writeFailure_rows hrow
    exact .of_same hs hc
  | @right tid clock auditId tables c expiresAt result hopen hrow =>
    obtain ⟨⟨row, hcreated, hins⟩, -, hc⟩ := writeSuccess_rows hrow
    refine ⟨fun id row' h => ?_, fun c h => ⟨c, hc.trans h, rfl, rfl⟩, fun c' h => Or.inl ⟨c', hc ▸ h, rfl⟩⟩
    rw [Table.get?_insert hins] at h
    split at h
    · rename_i hid
      cases h
      exact Or.inr ⟨hid ▸ Table.get?_of_insert hins, tid, clock, auditId, rfl, hcreated⟩
    · exact Or.inl ⟨row', h, rfl⟩

theorem step_traced (a : AuthAction) : Traced a w.tables (w.step p secret a).tables := by
  have hlogin : ∀ tid, a.tid = some tid → Traced a w.tables (w.step p secret a).tables := by
    intro tid ha
    rcases step_login (p := p) (w := w) ha with h | ⟨th, -, h⟩
    · rw [h]
      exact .of_same rfl rfl
    · rw [h]
      rcases loginStep_stepped (p := p) (w := w) ha with h | ⟨tables, next, h, htables, -⟩
      · rw [h]
        exact .of_same rfl rfl
      · rw [htables]
        exact h.traced
  cases a with
  | login tid r =>
    dsimp only [AuthWorld.step, AuthWorld.start]
    split <;> exact .of_same rfl rfl
  | install x now fails =>
    dsimp only [AuthWorld.step]
    split
    · rename_i ht
      split at ht
      · cases ht
      · obtain ⟨hnone, c, hc, hcreated⟩ := initializeOperator_credential ht
        refine ⟨fun id row' h => Or.inl ⟨row', (initializeOperator_some ht).1 ▸ h, rfl⟩,
          fun c h => ?_, fun c' h => Or.inr ?_⟩
        · rw [hnone] at h
          cases h
        · obtain rfl : c = c' := Option.some.inj (hc.symm.trans h)
          rw [hcreated]
          rfl
    · exact .of_same rfl rfl
  | setPassword x now auditId fails =>
    dsimp only [AuthWorld.step]
    split
    · rename_i ht
      split at ht
      · cases ht
      · obtain ⟨c, c', hc, hc', hname, hcreated⟩ := setPassword_credential ht
        refine ⟨fun id row' h => Or.inl ?_, fun d h => ?_, fun d h => Or.inl ?_⟩
        · rw [(setPassword_some ht).1] at h
          exact traced_revoked h
        · obtain rfl : c = d := Option.some.inj (hc.symm.trans h)
          exact ⟨c', hc', hname, hcreated⟩
        · obtain rfl : c' = d := Option.some.inj (hc'.symm.trans h)
          exact ⟨c, hc, hcreated⟩
    · exact .of_same rfl rfl
  | logout session key requestId now auditId fails =>
    dsimp only [AuthWorld.step]
    split
    · rename_i ht
      split at ht
      · cases ht
      · obtain ⟨hc, hs⟩ := logout_some ht
        refine ⟨fun id row' h => Or.inl ?_, fun c h => ⟨c, hc.trans h, rfl, rfl⟩,
          fun c' h => Or.inl ⟨c', hc ▸ h, rfl⟩⟩
        rcases hs with hs | ⟨which, hs⟩
        · exact ⟨row', hs ▸ h, rfl⟩
        · rw [hs] at h
          exact traced_revoked h
    · exact .of_same rfl rfl
  | _ => exact hlogin _ rfl

/-! ### The clock -/

variable {w w' : ClockedWorld}

/-- Nothing carries an instant that is still to come. -/
structure Past (w : ClockedWorld) : Prop where
  sessions : ∀ id row, w.auth.tables.sessions.get? id = some row → row.createdAt ≤ w.clock
  credential : ∀ c, w.auth.tables.credential = some c → c.createdAt ≤ w.clock
  stamps : ∀ now ∈ w.stamps, now ≤ w.clock

theorem Past.step (h : Past w) (a : ClockedAction) : Past (w.step p secret a) := by
  have hclock := @ClockedWorld.clock_step p secret w a
  cases a with
  | stamp now =>
    dsimp only [ClockedWorld.step] at hclock ⊢
    split
    · rename_i hle
      refine ⟨fun id row hrow => (h.sessions id row hrow).trans hle,
        fun c hc => (h.credential c hc).trans hle, fun x hx => ?_⟩
      rcases List.mem_cons.1 hx with rfl | hx
      · exact Int.le_refl _
      · exact (h.stamps x hx).trans hle
    · exact h
  | act a =>
    dsimp only [ClockedWorld.step] at hclock ⊢
    split
    · rename_i htimely
      rw [if_pos htimely] at hclock
      have htraced := @step_traced p secret w.auth a
      refine ⟨fun id row hrow => ?_, fun c hc => ?_, fun now hnow => (h.stamps now hnow).trans hclock⟩
      · rcases htraced.sessions id row hrow with ⟨old, hold, hcreated⟩ | ⟨-, tid, clock, auditId, rfl, hcreated⟩
        · rw [hcreated]
          exact (h.sessions id old hold).trans hclock
        · obtain ⟨-, -, hwindow, hexpiry⟩ := ClockedWorld.timely_write.1 htimely
          rw [hcreated]
          exact hwindow.trans hexpiry
      · rcases htraced.credential c hc with ⟨old, hold, hcreated⟩ | hstamp
        · rw [hcreated]
          exact (h.credential old hold).trans hclock
        · have hmem := (of_decide_eq_true htimely).2
          rw [hstamp, Option.all_some, decide_eq_true_eq] at hmem
          exact (h.stamps _ hmem).trans hclock
    · exact h

theorem past_reachable (hw : (clockedMachine p secret).Reachable (fun _ _ => True) w) : Past w := by
  refine Machine.invariant (fun w hw => ?_) (fun a w _ _ h => h.step a) hw
  obtain ⟨hauth, hstamps⟩ := hw
  have htables : w.auth = ⟨⟨none, .empty, .empty, .empty⟩, .empty, [], []⟩ := hauth
  refine ⟨fun id row hrow => ?_, fun c hc => ?_, fun now hnow => ?_⟩
  · rw [htables] at hrow
    cases hrow
  · rw [htables] at hc
    cases hc
  · rw [hstamps] at hnow
    cases hnow

/-- What a run leaves: the readings taken, and the operator. -/
structure Onward (w w' : ClockedWorld) : Prop where
  stamps : ∀ now ∈ w.stamps, now ∈ w'.stamps
  operator : ∀ c, w.auth.tables.credential = some c → ∃ c', w'.auth.tables.credential = some c' ∧
    c'.username = c.username ∧ c'.createdAt = c.createdAt

theorem onward_step (a : ClockedAction) : Onward w (w.step p secret a) := by
  have hrefl : Onward w w := ⟨fun _ h => h, fun c h => ⟨c, h, rfl, rfl⟩⟩
  cases a with
  | stamp now =>
    dsimp only [ClockedWorld.step]
    split
    · exact ⟨fun x hx => List.mem_cons_of_mem _ hx, hrefl.operator⟩
    · exact hrefl
  | act a =>
    dsimp only [ClockedWorld.step]
    split
    · exact ⟨hrefl.stamps, (step_traced a).kept⟩
    · exact hrefl

theorem onward_run (as : List ClockedAction) {w : ClockedWorld} :
    Onward w ((clockedMachine p secret).run w as) := by
  induction as generalizing w with
  | nil => exact ⟨fun _ h => h, fun c h => ⟨c, h, rfl, rfl⟩⟩
  | cons a as ih =>
    have hstep : Onward w (w.step p secret a) := onward_step a
    have hrest := @ih (w.step p secret a)
    refine ⟨fun now h => hrest.stamps now (hstep.stamps now h), fun c h => ?_⟩
    obtain ⟨c₁, h₁, hname₁, hcreated₁⟩ := hstep.operator c h
    obtain ⟨c₂, h₂, hname₂, hcreated₂⟩ := hrest.operator c₁ h₁
    exact ⟨c₂, h₂, hname₂.trans hname₁, hcreated₂.trans hcreated₁⟩

/-- A session stays as old as it is. -/
theorem createdAt_step (a : ClockedAction) {id : SessionId} {row : SessionRow}
    (h : w.auth.tables.sessions.get? id = some row) :
    ∃ row', (w.step p secret a).auth.tables.sessions.get? id = some row' ∧
      row'.createdAt = row.createdAt := by
  cases a with
  | stamp now =>
    dsimp only [ClockedWorld.step]
    split <;> exact ⟨row, h, rfl⟩
  | act a =>
    dsimp only [ClockedWorld.step]
    split
    · obtain ⟨row', hrow', -⟩ := step_persists (p := p) a id row h
      refine ⟨row', hrow', ?_⟩
      rcases (step_traced a).sessions id row' hrow' with ⟨old, hold, hcreated⟩ | ⟨hnone, -⟩
      · rw [hcreated, Option.some.inj (hold.symm.trans h)]
      · rw [h] at hnone
        cases hnone
    · exact ⟨row, h, rfl⟩

theorem createdAt_run (as : List ClockedAction) {w : ClockedWorld} {id : SessionId} {row : SessionRow}
    (h : w.auth.tables.sessions.get? id = some row) :
    ∃ row', ((clockedMachine p secret).run w as).auth.tables.sessions.get? id = some row' ∧
      row'.createdAt = row.createdAt := by
  induction as generalizing w row with
  | nil => exact ⟨row, h, rfl⟩
  | cons a as ih =>
    obtain ⟨row₁, h₁, hcreated₁⟩ := createdAt_step (p := p) a h
    obtain ⟨row₂, h₂, hcreated₂⟩ := ih h₁
    exact ⟨row₂, h₂, hcreated₂.trans hcreated₁⟩

/-! ### The call -/

/-- The call has committed: the credential, the end of every session, and the audit row. -/
structure PasswordSet (x : PasswordChange) (digest : Bytes) (now : Instant) (auditId : String)
    (t : AuthTables) : Prop where
  credential : ∃ c, t.credential = some c ∧ c.username = x.username ∧ c.passwordSalt = x.salt ∧
    c.passwordDigest = digest ∧ c.updatedAt = now
  closed : ∀ id row, t.sessions.get? id = some row → row.revokedAt.isSome
  audited : t.audit.get? auditId = some (passwordAudit now)

theorem passwordSet_changed {x : PasswordChange} {digest : Bytes} {now : Instant} {auditId : String}
    {c : Credential} {audit : Table String AuthAuditRow} (hname : c.username = x.username)
    (haudit : t.audit.insert auditId (passwordAudit now) = some audit) :
    PasswordSet x digest now auditId (changedTables t x digest c now audit) := by
  refine ⟨⟨_, rfl, hname, rfl, rfl, rfl⟩, fun id row hrow => ?_, ?_⟩
  · rw [changedTables, Table.get?_update] at hrow
    obtain ⟨old, -, rfl⟩ := Option.map_eq_some_iff.1 hrow
    split
    · rfl
    · rename_i hrevoked
      exact Option.isSome_iff_ne_none.2 (by simpa using hrevoked)
  · rw [changedTables, Table.get?_insert haudit, if_pos rfl]

theorem credentialOf_eq {c : Credential} {username : String} (hc : t.credential = some c)
    (hname : c.username = username) : credentialOf t username = some c := by
  rw [credentialOf, hc, Option.filter_some, if_pos (decide_eq_true hname)]

/-- The call reads the clock, any other calls take their steps, and then it has the write lock: it commits
    if and only if no session that was created meanwhile is open and younger than its timestamp. -/
theorem password_change_commits_iff (p : Primitives) (secret : String) {w : ClockedWorld}
    (hw : (clockedMachine p secret).Reachable (fun _ _ => True) w) {x : PasswordChange} {c : Credential}
    {digest : Bytes} {now : Instant} (hnow : w.clock ≤ now)
    (hargs : isUsername x.username ∧ isPassword x.password ∧ validScrypt x.n x.r x.p)
    (hoperator : credentialOf w.auth.tables x.username = some c)
    (hderive : derivePassword p x.password x.salt x.n x.r x.p = some digest)
    (as : List ClockedAction) {w' : ClockedWorld}
    (hrun : (clockedMachine p secret).run (w.step p secret (.stamp now)) as = w') {auditId : String}
    (hfresh : w'.auth.tables.audit.get? auditId = none) :
    PasswordSet x digest now auditId
        (w'.step p secret (.act (.setPassword x now auditId false))).auth.tables ↔
      ∀ id row, w.auth.tables.sessions.get? id = none →
        w'.auth.tables.sessions.get? id = some row → row.revokedAt = none → row.createdAt ≤ now := by
  have hpast := past_reachable hw
  have hstamp : w.step p secret (.stamp now) = { w with clock := now, stamps := now :: w.stamps } :=
    if_pos hnow
  obtain ⟨hstamps, hkept⟩ := hrun ▸ onward_run (p := p) as
    (w := w.step p secret (.stamp now))
  have htimely : w'.timely (.setPassword x now auditId false) = true := by
    refine decide_eq_true ⟨List.pairwise_singleton _ _, ?_⟩
    exact decide_eq_true (hstamps now (by rw [hstamp]; exact List.mem_cons_self))
  have hstep : (w'.step p secret (.act (.setPassword x now auditId false))).auth.tables =
      (setPassword p w'.auth.tables x now auditId).getD w'.auth.tables := by
    dsimp only [ClockedWorld.step]
    rw [if_pos htimely]
    dsimp only [AuthWorld.step]
    rw [if_neg Bool.false_ne_true]
    cases setPassword p w'.auth.tables x now auditId <;> rfl
  have hname : c.username = x.username := by
    rw [credentialOf, Option.filter_eq_some_iff] at hoperator
    exact of_decide_eq_true hoperator.2
  obtain ⟨c', hc', hname', hcreated'⟩ := hkept c (by rw [hstamp]; exact credentialOf_some hoperator)
  constructor
  · intro hset id row _ hrow hopen
    cases hresult : setPassword p w'.auth.tables x now auditId with
    | none =>
      rw [hstep, hresult, Option.getD_none] at hset
      rw [hset.audited] at hfresh
      cases hfresh
    | some t => exact setPassword_noneSince hresult id row hrow hopen
  · intro hnone
    have hnoneSince : w'.auth.tables.NoneSince now := by
      intro id row hrow hopen
      cases hold : w.auth.tables.sessions.get? id with
      | none => exact hnone id row hold hrow hopen
      | some old =>
        obtain ⟨row', hrow', hcreated⟩ := hrun ▸ createdAt_run (p := p) as
          (w := w.step p secret (.stamp now)) (by rw [hstamp]; exact hold)
        rw [Option.some.inj (hrow.symm.trans hrow'), hcreated]
        exact (hpast.sessions id old hold).trans hnow
    obtain ⟨audit, haudit⟩ := Table.insert_of_get?_eq_none hfresh (passwordAudit now)
    have hcreated : c'.createdAt ≤ now := by
      rw [hcreated']
      exact (hpast.credential c (credentialOf_some hoperator)).trans hnow
    rw [hstep, setPassword_eq hargs hderive (credentialOf_eq hc' (hname'.trans hname)) hcreated hnoneSince
      haudit]
    exact passwordSet_changed (hname'.trans hname) haudit

theorem stamp_auth {now : Instant} : (w.step p secret (.stamp now)).auth = w.auth := by
  dsimp only [ClockedWorld.step]
  split <;> rfl

/-- An operator, and a login that has verified the password at instant 0. -/
def verifiedLogin : List ClockedAction :=
  .stamp 0 :: (AuthAction.install (operatorPassword "first password" 1) 0 false ::
    .login 0 (operatorLogin "key-00001") :: loginRun 0).map .act

/-- Empty tables at instant 0. -/
def clockedStart : ClockedWorld := ⟨⟨⟨none, .empty, .empty, .empty⟩, .empty, [], []⟩, 0, []⟩

def clockedRun (as : List ClockedAction) : ClockedWorld :=
  (clockedMachine lengthPrimitives probeSecret).run clockedStart as

theorem clockedRun_reachable (as : List ClockedAction) :
    (clockedMachine lengthPrimitives probeSecret).Reachable (fun _ _ => True) (clockedRun as) := by
  have hstart : (clockedMachine lengthPrimitives probeSecret).start clockedStart := ⟨rfl, rfl⟩
  refine (Machine.Reachable.start hstart).run ?_
  generalize clockedStart = w
  induction as generalizing w with
  | nil => trivial
  | cons a as ih => exact ⟨trivial, ih _⟩

/-- The derived key of the new password. -/
def secondDigest : Bytes := (List.replicate 32 (2 : UInt8)).map fun b => b + UInt8.ofNat 15

/-- The credential of the operator. -/
def firstCredential : Credential where
  actorId := "operator"
  username := "operator"
  passwordAlgorithm := "scrypt"
  passwordSalt := List.replicate 16 1
  passwordDigest := (List.replicate 32 (1 : UInt8)).map fun b => b + UInt8.ofNat 14
  scryptN := 16384
  scryptR := 8
  scryptP := 1
  createdAt := 0
  updatedAt := 0

set_option maxRecDepth 20000 in
/-- Nothing happens while the call waits. -/
theorem password_change_undisturbed : PasswordSet (operatorPassword "second password" 2) secondDigest 1
    "auth_2" (((clockedRun verifiedLogin).step lengthPrimitives probeSecret (.stamp 1)).step
      lengthPrimitives probeSecret
      (.act (.setPassword (operatorPassword "second password" 2) 1 "auth_2" false))).auth.tables := by
  refine (password_change_commits_iff lengthPrimitives probeSecret (clockedRun_reachable verifiedLogin)
    (c := firstCredential) (by decide +kernel) (by decide +kernel) (by decide +kernel) (by decide +kernel)
    [] rfl (by decide +kernel)).2 ?_
  intro id row hnone hrow
  have hstored : ((clockedRun verifiedLogin).step lengthPrimitives probeSecret
      (.stamp 1)).auth.tables.sessions.get? id = some row := hrow
  rw [stamp_auth, hnone] at hstored
  cases hstored

set_option maxRecDepth 20000 in
/-- The login writes its session between the reading of the clock and the change. -/
theorem late_login_defeats_change : ¬∀ (p : Primitives) (secret : String) (w : ClockedWorld),
    (clockedMachine p secret).Reachable (fun _ _ => True) w → ∀ (x : PasswordChange) (c : Credential)
      (digest : Bytes) (now : Instant), w.clock ≤ now →
      (isUsername x.username ∧ isPassword x.password ∧ validScrypt x.n x.r x.p) →
      credentialOf w.auth.tables x.username = some c →
      derivePassword p x.password x.salt x.n x.r x.p = some digest →
      ∀ (as : List ClockedAction) (w' : ClockedWorld),
        (clockedMachine p secret).run (w.step p secret (.stamp now)) as = w' → ∀ auditId,
        w'.auth.tables.audit.get? auditId = none →
          PasswordSet x digest now auditId
            (w'.step p secret (.act (.setPassword x now auditId false))).auth.tables := by
  intro h
  have hset := h lengthPrimitives probeSecret (clockedRun verifiedLogin)
    (clockedRun_reachable verifiedLogin) (operatorPassword "second password" 2) firstCredential
    secondDigest 1 (by decide +kernel) (by decide +kernel) (by decide +kernel) (by decide +kernel)
    [.act (.write 0 ⟨2, 2, 2, 2⟩ "auth_1" false)] _ rfl "auth_2" (by decide +kernel)
  have hrow := hset.audited
  revert hrow
  decide +kernel

end HermesOps.BrowserAuth
