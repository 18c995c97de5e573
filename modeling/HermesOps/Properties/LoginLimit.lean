import HermesOps.Properties.PasswordChanges

/-! The limit on failed logins, over every overlap of attempts. A failure is written only when the count of
    the write transaction is below the limit, so no window that ends at the new row holds more. The row
    carries one reading of the clock and the count goes back from a later one; what lies between the two
    thresholds is seen by nobody. -/

namespace HermesOps.BrowserAuth

open Schemes Controller

variable {p : Primitives} {secret : String} {t t' : AuthTables}

/-! ### Windows -/

/-- `LOGIN_WINDOW_SECONDS`. -/
def windowLength : Instant := 1000 * loginWindowSeconds

/-- The logins of a source with this outcome that fall in the window from `a` on. -/
def windowCount (t : AuthTables) (outcome sourceFp : String) (a : Instant) : Nat :=
  t.audit.count fun _ row => row.action = "login" ∧ row.outcome = outcome ∧
    row.sourceFingerprint = some sourceFp ∧ a ≤ row.createdAt ∧ row.createdAt ≤ a + windowLength

/-- Every window of every source is within its bounds. -/
def Bounded (t : AuthTables) : Prop :=
  ∀ sourceFp a, windowCount t "failure" sourceFp a ≤ loginMaxFailures ∧
    windowCount t "rate_limited" sourceFp a ≤ 1

/-- A window holds at most what lies from its start on. -/
theorem windowCount_le {outcome : String} {k : LoginKeys} {a b : Instant} (h : b ≤ a) :
    windowCount t outcome k.sourceFp a ≤ auditCount t outcome k b := by
  refine Table.count_le fun id row hrow hq => ⟨row, hrow, ?_⟩
  rw [decide_eq_true_eq] at hq ⊢
  obtain ⟨haction, houtcome, hsource, hfrom, -⟩ := hq
  exact ⟨haction, houtcome, hsource, h.trans hfrom⟩

/-- One row more. -/
theorem windowCount_insert {id : String} {row : AuthAuditRow} (h : t.audit.insert id row = some t'.audit)
    (outcome sourceFp : String) (a : Instant) : windowCount t' outcome sourceFp a =
      windowCount t outcome sourceFp a + if row.action = "login" ∧ row.outcome = outcome ∧
        row.sourceFingerprint = some sourceFp ∧ a ≤ row.createdAt ∧
        row.createdAt ≤ a + windowLength then 1 else 0 := by
  rw [windowCount, windowCount, Table.count_insert h]
  simp only [decide_eq_true_eq]

/-- A new login row keeps a window bounded when fewer rows than the bound lie in the window before it. -/
theorem windowCount_login {id outcome requestId : String} {k : LoginKeys} {actorId sessionFp : Option String}
    {now : Instant} {bound : Nat}
    (h : t.audit.insert id (loginAudit k outcome actorId sessionFp requestId now) = some t'.audit)
    (hfew : auditCount t outcome k (now - windowLength) < bound) {sourceFp : String} {a : Instant}
    (ha : windowCount t outcome sourceFp a ≤ bound) : windowCount t' outcome sourceFp a ≤ bound := by
  rw [windowCount_insert h]
  split
  · rename_i hin
    obtain ⟨-, -, hsource, -, hend⟩ := hin
    have hnow : now ≤ a + windowLength := hend
    have hstart : now - windowLength ≤ a := Int.sub_right_le_of_le_add hnow
    have hle := @windowCount_le t outcome k a _ hstart
    rw [show k.sourceFp = sourceFp from Option.some.inj hsource] at hle
    exact Nat.succ_le_of_lt (hle.trans_lt hfew)
  · exact ha

/-- A row of another outcome. -/
theorem windowCount_other {id outcome outcome' requestId : String} {k : LoginKeys}
    {actorId sessionFp : Option String} {now : Instant}
    (h : t.audit.insert id (loginAudit k outcome' actorId sessionFp requestId now) = some t'.audit)
    (hne : outcome' ≠ outcome) (sourceFp : String) (a : Instant) :
    windowCount t' outcome sourceFp a = windowCount t outcome sourceFp a := by
  rw [windowCount_insert h, if_neg fun hin => hne hin.2.1]
  rfl

/-! ### The condition -/

/-- The two thresholds that the readings of a write transaction give agree on whether the window is full,
    and on whether it has its audit row. -/
def Steady (p : Primitives) (secret : String) : ClockedAction → ClockedWorld → Prop
  | .act (.write tid clock _ _), w => ∀ th, w.auth.threads.get? tid = some th →
    let k := loginKeys p secret th.request
    (limited w.auth.tables k (clock.now - windowLength) = true →
      limited w.auth.tables k clock.threshold = true) ∧
    (auditCount w.auth.tables "rate_limited" k clock.threshold = 0 →
      auditCount w.auth.tables "rate_limited" k (clock.now - windowLength) = 0)
  | _, _ => True

/-! ### What a step does -/

/-- The login has an answer to repeat. -/
def LoginThread.Replays (p : Primitives) (secret : String) (t : AuthTables) (th : LoginThread) : Prop :=
  replayLookup t (loginKeys p secret th.request) ≠ none ∨ ∃ id, th.stage = .replaying id

/-- What the limit asks of a step. -/
structure LoginKept (p : Primitives) (secret : String) (a : ClockedAction) (w w' : ClockedWorld) : Prop where
  /-- A session is made by a write transaction whose source had a window with room. -/
  sessions : ∀ id, w.auth.tables.sessions.get? id = none → w'.auth.tables.sessions.get? id ≠ none →
    ∃ tid clock auditId th, a = .act (.write tid clock auditId false) ∧
      w.auth.threads.get? tid = some th ∧ windowCount w.auth.tables "failure"
        (loginKeys p secret th.request).sourceFp (clock.now - windowLength) < loginMaxFailures
  /-- A wrong password that is answered is counted. -/
  answered : ∀ tid th th', w.auth.threads.get? tid = some th → w'.auth.threads.get? tid = some th' →
    th.stage ≠ th'.stage → th'.stage = .finished (some (.error authenticationRequired)) →
      th.Replays p secret w.auth.tables ∨
        ∃ auditId now, w.auth.tables.audit.insert auditId
          (loginAudit (loginKeys p secret th.request) "failure" none none th.request.requestId now) =
            some w'.auth.tables.audit
  /-- A login that is blocked leaves at most its audit row. -/
  blocked : ∀ tid th th', w.auth.threads.get? tid = some th → w'.auth.threads.get? tid = some th' →
    th.stage ≠ th'.stage → th'.stage = .finished (some (.error temporarilyBlocked)) →
      w'.auth.tables = w.auth.tables ∨ ∃ auditId now,
        Audited auditId (loginAudit (loginKeys p secret th.request) "rate_limited" none none
          th.request.requestId now) w.auth.tables w'.auth.tables

/-! ### The bounds -/

theorem bounded_audit (h : t'.audit = t.audit) (ht : Bounded t) : Bounded t' := by
  intro sourceFp a
  unfold windowCount
  rw [h]
  exact ht sourceFp a

/-- A row of another action. -/
theorem bounded_insert {id : String} {row : AuthAuditRow} (h : t.audit.insert id row = some t'.audit)
    (haction : row.action ≠ "login") (ht : Bounded t) : Bounded t' := by
  intro sourceFp a
  rw [windowCount_insert h, windowCount_insert h, if_neg fun hin => haction hin.1,
    if_neg fun hin => haction hin.1]
  exact ht sourceFp a

theorem bounded_rate_limited {id requestId : String} {k : LoginKeys} {now : Instant}
    (h : t.audit.insert id (loginAudit k "rate_limited" none none requestId now) = some t'.audit)
    (hnone : auditCount t "rate_limited" k (now - windowLength) = 0) (ht : Bounded t) : Bounded t' := by
  intro sourceFp a
  refine ⟨?_, windowCount_login h (by rw [hnone]; exact Nat.one_pos) (ht sourceFp a).2⟩
  rw [windowCount_other h (by decide)]
  exact (ht sourceFp a).1

theorem bounded_failure {id requestId : String} {k : LoginKeys} {now : Instant}
    (h : t.audit.insert id (loginAudit k "failure" none none requestId now) = some t'.audit)
    (hroom : limited t k (now - windowLength) = false) (ht : Bounded t) : Bounded t' := by
  intro sourceFp a
  have hfew : auditCount t "failure" k (now - windowLength) < loginMaxFailures := by
    rw [limited, decide_eq_false_iff_not, Nat.not_le] at hroom
    exact hroom
  refine ⟨windowCount_login h hfew (ht sourceFp a).1, ?_⟩
  rw [windowCount_other h (by decide)]
  exact (ht sourceFp a).2

theorem bounded_success {id requestId : String} {k : LoginKeys} {actorId sessionFp : Option String}
    {now : Instant}
    (h : t.audit.insert id (loginAudit k "success" actorId sessionFp requestId now) = some t'.audit)
    (ht : Bounded t) : Bounded t' := by
  intro sourceFp a
  rw [windowCount_other h (by decide), windowCount_other h (by decide)]
  exact ht sourceFp a

theorem auditCount_anti {outcome : String} {k : LoginKeys} {a b : Instant} (h : b ≤ a) :
    auditCount t outcome k a ≤ auditCount t outcome k b := by
  refine Table.count_le fun id row hrow hq => ⟨row, hrow, ?_⟩
  rw [decide_eq_true_eq] at hq ⊢
  exact ⟨hq.1, hq.2.1, hq.2.2.1, h.trans hq.2.2.2⟩

theorem revoke_audit {which : SessionId → SessionRow → Bool} {now : Instant}
    (h : revoke t which now = some t') : t'.audit = t.audit := by
  unfold revoke at h
  dsimp only at h
  split at h
  · cases h
  · cases h
    rfl

theorem setPassword_audit {x : PasswordChange} {now : Instant} {id : String}
    (h : setPassword p t x now id = some t') : t.audit.insert id (passwordAudit now) = some t'.audit := by
  unfold setPassword at h
  split at h
  · obtain ⟨digest, -, h⟩ := Option.bind_eq_some_iff.1 h
    obtain ⟨c, -, h⟩ := Option.bind_eq_some_iff.1 h
    split at h
    · cases h
    · obtain ⟨t₁, hrevoke, h⟩ := Option.bind_eq_some_iff.1 h
      have haudit := (writeAudit_audited h).audit
      rwa [revoke_audit hrevoke] at haudit
  · cases h

theorem logout_audit {session : AuthenticatedSession} {key requestId id : String} {now : Instant}
    (h : logout p t session key requestId now id = some t') : t' = t ∨
      ∃ row, row.action = "logout" ∧ t.audit.insert id row = some t'.audit := by
  obtain ⟨sid, -, h⟩ := Option.bind_eq_some_iff.1 h
  split at h
  · dsimp only at h
    split at h
    · split at h
      · cases h
      · exact Or.inl (Option.some.inj h).symm
    · obtain ⟨t₁, hrevoke, h⟩ := Option.bind_eq_some_iff.1 h
      obtain ⟨t₂, hidempotency, h⟩ := Option.bind_eq_some_iff.1 h
      have haudit := (writeAudit_audited h).audit
      rw [(writeIdempotency_rest hidempotency).1, revoke_audit hrevoke] at haudit
      exact Or.inr ⟨_, rfl, haudit⟩
  · cases h

/-! ### The invariant -/

/-- The windows are within their bounds, and a login that is to be blocked has gone back from an instant
    that has been. -/
structure WithinLimit (w : ClockedWorld) : Prop where
  bounded : Bounded w.auth.tables
  waiting : ∀ tid th threshold, w.auth.threads.get? tid = some th → th.stage = .blocking threshold →
    threshold ≤ w.clock - windowLength

variable {w w' : ClockedWorld}

/-- The advance of a login keeps the bounds. -/
theorem Advance.bounded {tid : ThreadId} {th : LoginThread} {a : AuthAction} {tables : AuthTables}
    {next : LoginStage} (h : Advance p secret w.auth th a tables next) (ha : a.tid = some tid)
    (hth : w.auth.threads.get? tid = some th) (hw : WithinLimit w) (htimely : w.timely a = true)
    (hsteady : Steady p secret (.act a) w) : Bounded tables := by
  cases h with
  | goes | raised | replays | fails => exact hw.bounded
  | @blockedFirst tid' now threshold id tables hstage hrow =>
    cases ha
    rcases blockLogin_cases hrow with rfl | ⟨hnone, haudited⟩
    · exact hw.bounded
    · have hclock : w.clock ≤ now := by
        have hpairwise := (of_decide_eq_true htimely).1
        exact (List.pairwise_cons.1 hpairwise).1 now List.mem_cons_self
      have hthreshold : threshold ≤ now - windowLength :=
        (hw.waiting tid th threshold hth hstage).trans (Int.sub_le_sub_right hclock _)
      refine bounded_rate_limited haudited.audit (Nat.le_zero.1 ?_) hw.bounded
      rw [← hnone]
      exact auditCount_anti hthreshold
  | @blocked tid' clock id tables hfull hrow =>
    cases ha
    rcases blockLogin_cases hrow with rfl | ⟨hnone, haudited⟩
    · exact hw.bounded
    · exact bounded_rate_limited haudited.audit ((hsteady th hth).2 hnone) hw.bounded
  | @wrong tid' clock id tables hopen hrow =>
    cases ha
    refine bounded_failure (writeFailure_rows hrow).1 ?_ hw.bounded
    rw [Bool.eq_false_iff]
    intro hlimited
    rw [(hsteady th hth).1 hlimited] at hopen
    cases hopen
  | right _ hrow =>
    obtain ⟨actorId, sessionFp, haudit⟩ := (writeSuccess_rows hrow).2.1
    exact bounded_success haudit hw.bounded

/-- The stages after a step: those of the other logins stay. -/
theorem stage_of_updateAt {threads threads' : Table ThreadId LoginThread} {tid tid' : ThreadId}
    {next : LoginStage} {th' : LoginThread}
    (h : threads' = threads.updateAt tid fun th => { th with stage := next })
    (hth' : threads'.get? tid' = some th') :
    (tid' = tid ∧ th'.stage = next) ∨ threads.get? tid' = some th' := by
  rw [h, Table.get?_updateAt] at hth'
  split at hth'
  · rename_i htid
    obtain ⟨th, -, rfl⟩ := Option.map_eq_some_iff.1 hth'
    exact Or.inl ⟨htid, rfl⟩
  · exact Or.inr hth'

/-- What a step makes of the tables and the logins. -/
inductive Effect (p : Primitives) (secret : String) (w : AuthWorld) : AuthAction → AuthWorld → Prop
  | stays {a : AuthAction} : Effect p secret w a w
  | starts {a : AuthAction} {tid : ThreadId} {th : LoginThread} {threads : Table ThreadId LoginThread}
      (h : w.threads.insert tid th = some threads) (hstage : ∀ threshold, th.stage ≠ .blocking threshold) :
      Effect p secret w a { w with threads }
  | advances {a : AuthAction} {tid : ThreadId} {th : LoginThread} {tables : AuthTables}
      {next : LoginStage} {w' : AuthWorld} (ha : a.tid = some tid) (hth : w.threads.get? tid = some th)
      (h : Advance p secret w th a tables next) (htables : w'.tables = tables)
      (hthreads : w'.threads = w.threads.updateAt tid fun th => { th with stage := next }) :
      Effect p secret w a w'
  | writes {a : AuthAction} {w' : AuthWorld} (hthreads : w'.threads = w.threads)
      (hsessions : ∀ id, w.tables.sessions.get? id = none → w'.tables.sessions.get? id = none)
      (haudit : w'.tables.audit = w.tables.audit ∨ ∃ id row, row.action ≠ "login" ∧
        w.tables.audit.insert id row = some w'.tables.audit) : Effect p secret w a w'

theorem get?_none_of_update {t : Table SessionId SessionRow} {which : SessionId → SessionRow → Bool}
    {f : SessionRow → SessionRow} {id : SessionId} (h : t.get? id = none) :
    (t.update which f).get? id = none := by
  rw [Table.get?_update, h]
  rfl

theorem step_effect {w : AuthWorld} (a : AuthAction) : Effect p secret w a (w.step p secret a) := by
  have hlogin : ∀ tid, a.tid = some tid → Effect p secret w a (w.step p secret a) := by
    intro tid ha
    rcases step_login (p := p) (w := w) ha with h | ⟨th, hth, h⟩
    · rw [h]
      exact .stays
    · rw [h]
      rcases loginStep_stepped (p := p) (w := w) ha with
        h | ⟨tables, next, h, htables, hthreads⟩
      · rw [h]
        exact .stays
      · exact .advances ha hth h htables hthreads
  cases a with
  | login tid r =>
    dsimp only [AuthWorld.step, AuthWorld.start]
    split
    · rename_i threads hins
      refine .starts hins fun threshold => ?_
      dsimp only
      split <;> simp
    · exact .stays
  | install x now fails =>
    dsimp only [AuthWorld.step]
    split
    · rename_i tables ht
      split at ht
      · cases ht
      · have hs := (initializeOperator_some ht).1
        refine .writes rfl (fun id hid => hs ▸ hid) (Or.inl ?_)
        unfold initializeOperator at ht
        split at ht
        · obtain ⟨digest, -, ht⟩ := Option.bind_eq_some_iff.1 ht
          split at ht
          · cases ht
          · cases ht
            rfl
        · cases ht
    · exact .stays
  | setPassword x now auditId fails =>
    dsimp only [AuthWorld.step]
    split
    · rename_i tables ht
      split at ht
      · cases ht
      · refine .writes rfl (fun id hid => ?_) (Or.inr ⟨_, _, by simp [passwordAudit], setPassword_audit ht⟩)
        rw [(setPassword_some ht).1]
        exact get?_none_of_update hid
    · exact .stays
  | logout session key requestId now auditId fails =>
    dsimp only [AuthWorld.step]
    split
    · rename_i tables ht
      split at ht
      · cases ht
      · refine .writes rfl (fun id hid => ?_) ?_
        · rcases (logout_some ht).2 with hs | ⟨which, hs⟩
          · rw [hs]
            exact hid
          · rw [hs]
            exact get?_none_of_update hid
        · rcases logout_audit ht with rfl | ⟨row, haction, haudit⟩
          · exact Or.inl rfl
          · exact Or.inr ⟨_, row, by rw [haction]; decide, haudit⟩
    · exact .stays
  | _ => exact hlogin _ rfl

theorem WithinLimit.step (h : WithinLimit w) (a : ClockedAction) (hsteady : Steady p secret a w) :
    WithinLimit (w.step p secret a) := by
  have hclock := @ClockedWorld.clock_step p secret w a
  have hwaiting : ∀ tid th threshold, w.auth.threads.get? tid = some th → th.stage = .blocking threshold →
      threshold ≤ (w.step p secret a).clock - windowLength := fun tid th threshold hth hstage =>
    (h.waiting tid th threshold hth hstage).trans (Int.sub_le_sub_right hclock _)
  cases a with
  | stamp now =>
    refine ⟨?_, fun tid th threshold hth => hwaiting tid th threshold ?_⟩
    · rw [stamp_auth]
      exact h.bounded
    · rwa [stamp_auth] at hth
  | act a =>
    dsimp only [ClockedWorld.step] at hwaiting ⊢
    split
    · rename_i htimely
      rw [if_pos htimely] at hwaiting
      have heffect := @step_effect p secret w.auth a
      revert heffect
      generalize w.auth.step p secret a = auth
      intro heffect
      cases heffect with
      | stays => exact ⟨h.bounded, hwaiting⟩
      | @starts tid th threads hins hstage =>
        refine ⟨h.bounded, fun tid' th' threshold hth' hblocking => ?_⟩
        dsimp only at hth'
        rw [Table.get?_insert hins] at hth'
        split at hth'
        · cases hth'
          exact absurd hblocking (hstage threshold)
        · exact hwaiting tid' th' threshold hth' hblocking
      | @advances tid th tables next _ ha hth hadvance htables hthreads =>
        refine ⟨?_, fun tid' th' threshold hth' hblocking => ?_⟩
        · rw [htables]
          exact hadvance.bounded ha hth h htimely hsteady
        · rcases stage_of_updateAt hthreads hth' with ⟨-, hstage⟩ | hold
          · rw [hstage] at hblocking
            cases hadvance with
            | goes _ hcount =>
              obtain ⟨tid'', now, fails, rfl, hthreshold⟩ := hcount threshold hblocking
              rw [hthreshold]
              exact Int.le_refl _
            | _ => cases hblocking
          · exact hwaiting tid' th' threshold hold hblocking
      | writes hthreads _ haudit =>
        refine ⟨?_, fun tid' th' threshold hth' => hwaiting tid' th' threshold (hthreads ▸ hth')⟩
        rcases haudit with haudit | ⟨id, row, haction, haudit⟩
        · exact bounded_audit haudit h.bounded
        · exact bounded_insert haudit haction h.bounded
    · exact h

/-- An advance of a login keeps to the limit. -/
theorem Advance.kept {tid : ThreadId} {th : LoginThread} {a : AuthAction} {tables : AuthTables}
    {next : LoginStage} (h : Advance p secret w.auth th a tables next) (ha : a.tid = some tid)
    (hth : w.auth.threads.get? tid = some th) (hsteady : Steady p secret (.act a) w)
    (htables : w'.auth.tables = tables)
    (hthreads : w'.auth.threads = w.auth.threads.updateAt tid fun th => { th with stage := next }) :
    LoginKept p secret (.act a) w w' := by
  have hmoved : ∀ tid' (th₀ th' : LoginThread), w.auth.threads.get? tid' = some th₀ →
      w'.auth.threads.get? tid' = some th' → th₀.stage ≠ th'.stage → th₀ = th ∧ th'.stage = next := by
    intro tid' th₀ th' hth₀ hth' hne
    rcases stage_of_updateAt hthreads hth' with ⟨rfl, hstage⟩ | hold
    · exact ⟨Option.some.inj (hth₀.symm.trans hth), hstage⟩
    · exact absurd (congrArg LoginThread.stage (Option.some.inj (hth₀.symm.trans hold))) hne
  refine ⟨fun id hnone hsome => ?_, fun tid' th₀ th' hth₀ hth' hne hended => ?_,
    fun tid' th₀ th' hth₀ hth' hne hended => ?_⟩
  · rw [htables] at hsome
    cases h with
    | goes | raised | replays | fails => exact absurd hnone hsome
    | blockedFirst _ hrow | blocked _ hrow =>
      rcases blockLogin_cases hrow with rfl | ⟨-, haudited⟩
      · exact absurd hnone hsome
      · rw [haudited.sessions] at hsome
        exact absurd hnone hsome
    | wrong _ hrow =>
      rw [(writeFailure_rows hrow).2.1] at hsome
      exact absurd hnone hsome
    | @right tid' clock auditId tables c expiresAt result hopen hrow =>
      cases ha
      refine ⟨tid, clock, auditId, th, rfl, hth, ?_⟩
      have hroom : limited w.auth.tables (loginKeys p secret th.request) (clock.now - windowLength) =
          false := by
        rw [Bool.eq_false_iff]
        intro hlimited
        rw [(hsteady th hth).1 hlimited] at hopen
        cases hopen
      rw [limited, decide_eq_false_iff_not, Nat.not_le] at hroom
      exact (windowCount_le (Int.le_refl _)).trans_lt hroom
  · obtain ⟨rfl, hstage⟩ := hmoved tid' th₀ th' hth₀ hth' hne
    rw [hended] at hstage
    cases h with
    | goes hend _ => exact absurd hstage.symm (hend _)
    | raised => cases hstage
    | replays hreplay => exact Or.inl hreplay
    | fails he =>
      cases hstage
      exact absurd rfl he.answered
    | blockedFirst | blocked => cases hstage
    | @wrong tid' clock auditId tables hopen hrow =>
      refine Or.inr ⟨auditId, clock.now, ?_⟩
      rw [htables]
      exact (writeFailure_rows hrow).1
    | right => cases hstage
  · obtain ⟨rfl, hstage⟩ := hmoved tid' th₀ th' hth₀ hth' hne
    rw [hended] at hstage
    rw [htables]
    cases h with
    | goes hend _ => exact absurd hstage.symm (hend _)
    | raised => cases hstage
    | replays => exact Or.inl rfl
    | fails he =>
      cases hstage
      exact absurd rfl he.blocked
    | blockedFirst _ hrow | blocked _ hrow =>
      rcases blockLogin_cases hrow with heq | ⟨-, haudited⟩
      · exact Or.inl heq
      · exact Or.inr ⟨_, _, haudited⟩
    | wrong | right => cases hstage

/-- A step that leaves every login at its stage. -/
theorem LoginKept.of_stages {a : ClockedAction}
    (hsessions : ∀ id, w.auth.tables.sessions.get? id = none → w'.auth.tables.sessions.get? id = none)
    (hstages : ∀ tid th th', w.auth.threads.get? tid = some th → w'.auth.threads.get? tid = some th' →
      th.stage = th'.stage) : LoginKept p secret a w w' where
  sessions id hnone hsome := absurd (hsessions id hnone) hsome
  answered tid th th' hth hth' hne := absurd (hstages tid th th' hth hth') hne
  blocked tid th th' hth hth' hne := absurd (hstages tid th th' hth hth') hne

theorem loginKept_step (a : ClockedAction) (hsteady : Steady p secret a w) :
    LoginKept p secret a w (w.step p secret a) := by
  have hsame : ∀ {w' : ClockedWorld}, w'.auth.threads = w.auth.threads → ∀ tid (th th' : LoginThread),
      w.auth.threads.get? tid = some th → w'.auth.threads.get? tid = some th' → th.stage = th'.stage := by
    intro w' heq tid th th' hth hth'
    rw [heq, hth] at hth'
    cases hth'
    rfl
  cases a with
  | stamp now =>
    refine .of_stages (fun id h => ?_) (hsame (by rw [stamp_auth]))
    rwa [stamp_auth]
  | act a =>
    dsimp only [ClockedWorld.step]
    split
    · have heffect := @step_effect p secret w.auth a
      revert heffect
      generalize w.auth.step p secret a = auth
      intro heffect
      cases heffect with
      | stays => exact .of_stages (fun id h => h) (hsame rfl)
      | @starts tid th threads hins hstage =>
        refine .of_stages (fun id h => h) fun tid' th₀ th' hth₀ hth' => ?_
        dsimp only at hth'
        rw [Table.get?_insert hins, if_neg, hth₀] at hth'
        · cases hth'
          rfl
        · rintro rfl
          rw [Table.get?_of_insert hins] at hth₀
          cases hth₀
      | advances ha hth hadvance htables hthreads =>
        exact hadvance.kept ha hth hsteady htables hthreads
      | writes hthreads hsessions _ => exact .of_stages hsessions (hsame hthreads)
    · exact .of_stages (fun id h => h) (hsame rfl)

/-- Along a run in which the two thresholds of every write transaction agree, no window of any source holds
    more failures than the limit or more than one audit row of a blocked login, and every step keeps to
    the limit. -/
theorem login_limit (p : Primitives) (secret : String) {w : ClockedWorld} {as : List ClockedAction}
    (hw : (clockedMachine p secret).start w)
    (hsteady : (clockedMachine p secret).Along (Steady p secret) w as) :
    Bounded ((clockedMachine p secret).run w as).auth.tables ∧
      (clockedMachine p secret).Along (fun a w => LoginKept p secret a w (w.step p secret a)) w as := by
  have hstart : ∀ w, (clockedMachine p secret).start w → WithinLimit w := by
    rintro w ⟨hauth, -⟩
    have htables : w.auth = ⟨⟨none, .empty, .empty, .empty⟩, .empty, [], []⟩ := hauth
    refine ⟨fun sourceFp a => ?_, fun tid th threshold hth => ?_⟩
    · rw [htables]
      exact ⟨Nat.zero_le _, Nat.zero_le _⟩
    · rw [htables] at hth
      cases hth
  have hinvariant := Machine.invariant hstart (fun a w _ hsteady h => h.step a hsteady)
    ((Machine.Reachable.start hw).run hsteady)
  exact ⟨hinvariant.bounded, Machine.Reachable.along (fun a w _ hsteady => loginKept_step a hsteady)
    (.start hw) hsteady⟩

/-- Two readings in the same millisecond have the same threshold. -/
theorem steady_of_instant {as : List ClockedAction} {w : ClockedWorld} (h : ∀ tid clock id fails,
      ClockedAction.act (.write tid clock id fails) ∈ as → clock.now = clock.window) :
    (clockedMachine p secret).Along (Steady p secret) w as := by
  induction as generalizing w with
  | nil => trivial
  | cons a as ih =>
    refine ⟨?_, ih fun tid clock id fails hmem => h tid clock id fails (List.mem_cons_of_mem _ hmem)⟩
    cases a with
    | stamp now => trivial
    | act a =>
      cases a with
      | write tid clock id fails =>
        intro th _
        have hreading := h tid clock id fails List.mem_cons_self
        rw [Readings.threshold, hreading]
        exact ⟨fun hlimited => hlimited, fun hnone => hnone⟩
      | _ => trivial

/-- A login with a wrong password, and with a key of this many characters. -/
def wrongLogin (n : Nat) : LoginRequest :=
  { operatorLogin (String.ofList (List.replicate n 'k')) with password := "a wrong password" }

/-- An operator, and six logins that have verified a wrong password at instant 0. -/
def wrongLogins : List ClockedAction :=
  .stamp 0 :: ((AuthAction.install (operatorPassword "first password" 1) 0 false ::
    (List.range 6).flatMap fun tid => .login tid (wrongLogin (9 + tid)) :: loginRun tid).map .act)

def wrongWrite (tid : ThreadId) (now window : Instant) : ClockedAction :=
  .act (.write tid ⟨now, now, window, window⟩ (toString tid) false)

/-- Five failures, in one window. -/
def fiveFailures : List ClockedAction :=
  wrongWrite 0 1000 1000 :: [1, 2, 3, 4].map fun tid => wrongWrite tid 2000 2000

def wrongSource : String := fingerprint lengthPrimitives probeSecret "login-source-audit" "127.0.0.1" 32

set_option maxRecDepth 20000 in
/-- The sixth attempt is blocked while the five failures are in the window. -/
theorem login_limit_reached :
    windowCount (clockedRun (wrongLogins ++ fiveFailures ++ [wrongWrite 5 60000 60000])).auth.tables
      "failure" wrongSource 0 = 5 ∧
    Bounded (clockedRun (wrongLogins ++ fiveFailures ++ [wrongWrite 5 60000 60000])).auth.tables := by
  refine ⟨by decide +kernel, (login_limit lengthPrimitives probeSecret (w := clockedStart) ⟨rfl, rfl⟩
    (steady_of_instant fun tid clock id fails hmem => ?_)).1⟩
  simp [wrongLogins, fiveFailures, wrongWrite, loginRun, List.range_succ] at hmem
  rcases hmem with ⟨-, rfl, -⟩ | ⟨-, rfl, -⟩ | ⟨-, rfl, -⟩ | ⟨-, rfl, -⟩ | ⟨-, rfl, -⟩ | ⟨-, rfl, -⟩ <;> rfl

set_option maxRecDepth 20000 in
/-- The sixth failure carries instant 60999; the count for it goes back from 61001 and misses the first. -/
theorem six_failures_in_a_window : ¬∀ (p : Primitives) (secret : String) (w : ClockedWorld)
    (as : List ClockedAction), (clockedMachine p secret).start w →
      Bounded ((clockedMachine p secret).run w as).auth.tables := by
  intro h
  have hbounded := (h lengthPrimitives probeSecret clockedStart
    (wrongLogins ++ fiveFailures ++ [wrongWrite 5 60999 61001]) ⟨rfl, rfl⟩ wrongSource 1000).1
  revert hbounded
  decide +kernel

end HermesOps.BrowserAuth
