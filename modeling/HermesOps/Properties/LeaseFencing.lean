import HermesOps.Notifier.Outbox

/-! Accounting of deliveries and fencing of leases. The deliveries of a notification carry the numbers up
    to its attempt count, and its status is what they make of it, as long as every process records
    under the number that the row has. A process that has lost its notification to another claim
    still has the number from its own claim, and nothing but the `UNIQUE` constraint on the numbers
    stops it: it writes whenever it is the first to record. -/

namespace HermesOps.Notifier

open Schemes

/-- A notification of this status is not delivered any more. -/
def NotificationStatus.isFinal : NotificationStatus → Bool
  | .delivered | .deadLetter => true
  | _ => false

/-- The deliveries of a notification and its row agree. -/
structure Accounted (d : Table (NotificationId × Nat) Delivery) (id : NotificationId)
    (y : Notification) : Prop where
  numbered : ∀ n, (d.get? (id, n)).isSome ↔ 1 ≤ n ∧ n ≤ y.attemptCount
  bounded : y.attemptCount ≤ y.maxAttempts
  delivered : y.status = .delivered ↔ ∃ n x, d.get? (id, n) = some x ∧ x.status = .delivered
  deadLetter : y.status = .deadLetter → y.attemptCount = y.maxAttempts ∧
    ∀ n x, d.get? (id, n) = some x → x.status = .failed
  remaining : y.status.isFinal = false → y.attemptCount < y.maxAttempts

/-- The row and the deliveries of the notification are the same in both outboxes. -/
def SameDeliveries (o o' : Outbox) (id : NotificationId) : Prop :=
  o'.notifications.get? id = o.notifications.get? id ∧
    ∀ n, o'.deliveries.get? (id, n) = o.deliveries.get? (id, n)

/-- What the action leaves: accounted deliveries, final notifications as they were, nothing written by a
    process that has lost its notification, every success under an unexpired lease recorded, and one
    process with an unexpired lease on each notification. -/
structure DeliverySafe (a : Action) (w : World) : Prop where
  accounted : ∀ id y, (w.step a).outbox.notifications.get? id = some y →
    Accounted (w.step a).outbox.deliveries id y
  final : ∀ id y, w.outbox.notifications.get? id = some y → y.status.isFinal = true →
    SameDeliveries w.outbox (w.step a).outbox id
  fenced : ∀ p u, a.actor = some p → w.workers.get? p = some u →
    w.lastClaimant u.notificationId ≠ some p →
    SameDeliveries w.outbox (w.step a).outbox u.notificationId
  recorded : ∀ p base waited u row, a = .finish p base waited → w.workers.get? p = some u →
    u.stage = .answered row none → w.clock < u.expiresAt →
    ((w.step a).outbox.notifications.get? u.notificationId).map Notification.status = some .delivered
  sole : ∀ p q u v, (w.step a).workers.get? p = some u → (w.step a).workers.get? q = some v →
    u.notificationId = v.notificationId → (w.step a).clock < u.expiresAt →
    (w.step a).clock < v.expiresAt → p = q

/-- A process is the first to record under its attempt number, after another process has claimed the
    notification. -/
def finishesLate (a : Action) (w : World) : Bool :=
  match a with
  | .finish pid _ _ => (w.workers.get? pid).any fun u =>
      match u.stage with
      | .answered row _ => w.lastClaimant u.notificationId ≠ some pid ∧ row.attemptCount < 20 ∧
          w.outbox.deliveries.get? (u.notificationId, row.attemptCount + 1) = none
      | _ => false
  | _ => false

variable {o o' : Outbox} {w : World} {a : Action} {id : NotificationId} {y y' : Notification}

/-! ### The transactions -/

/-- An open row stays accounted for under another open status. -/
theorem Accounted.reopened {d : Table (NotificationId × Nat) Delivery} (h : Accounted d id y)
    (hs : y.status.isFinal = false) (hs' : y'.status.isFinal = false)
    (hc : y'.attemptCount = y.attemptCount) (hm : y'.maxAttempts = y.maxAttempts) :
    Accounted d id y' := by
  have hopen : ¬∃ n x, d.get? (id, n) = some x ∧ x.status = .delivered := by
    rw [← h.delivered]
    intro hd
    rw [hd] at hs
    cases hs
  refine ⟨fun n => by rw [hc]; exact h.numbered n, by rw [hc, hm]; exact h.bounded, ?_, ?_,
    fun _ => by rw [hc, hm]; exact h.remaining hs⟩
  · refine iff_of_false (fun hd => ?_) hopen
    rw [hd] at hs'
    cases hs'
  · intro hd
    rw [hd] at hs'
    cases hs'

theorem Accounted.congr {d d' : Table (NotificationId × Nat) Delivery} (h : Accounted d id y)
    (hd : ∀ n, d'.get? (id, n) = d.get? (id, n)) : Accounted d' id y := by
  refine ⟨fun n => ?_, h.bounded, ?_, fun hs => ⟨(h.deadLetter hs).1, fun n x hx => ?_⟩, h.remaining⟩
  · rw [hd]
    exact h.numbered n
  · rw [h.delivered]
    simp only [hd]
  · exact (h.deadLetter hs).2 n x (by rw [← hd]; exact hx)

theorem reconcile_get? (o : Outbox) (now : Instant) (id : NotificationId) :
    (reconcileAbandonedDeliveries o now).notifications.get? id =
      (o.notifications.get? id).map fun y =>
        if y.status = .delivering ∧ y.leaseExpiresAt.all (fun e => e ≤ now) then y.released now
        else y := by
  simp only [reconcileAbandonedDeliveries, Table.get?_update, decide_eq_true_eq]

/-- A reconciled row is as it was, or was abandoned and is released. -/
theorem reconcile_back {now : Instant}
    (hy : (reconcileAbandonedDeliveries o now).notifications.get? id = some y') :
    ∃ y, o.notifications.get? id = some y ∧ y'.attemptCount = y.attemptCount ∧
      y'.maxAttempts = y.maxAttempts ∧ (y' = y ∨ (y.status = .delivering ∧ y'.status = .retry ∧
        ∀ e, y.leaseExpiresAt = some e → e ≤ now)) := by
  rw [reconcile_get?, Option.map_eq_some_iff] at hy
  obtain ⟨y, hy, rfl⟩ := hy
  refine ⟨y, hy, ?_⟩
  split
  · rename_i hab
    refine ⟨rfl, rfl, .inr ⟨hab.1, rfl, fun e he => ?_⟩⟩
    simpa [he] using hab.2
  · exact ⟨rfl, rfl, .inl rfl⟩

theorem reconcile_accounted {now : Instant}
    (h : ∀ id y, o.notifications.get? id = some y → Accounted o.deliveries id y) :
    ∀ id y, (reconcileAbandonedDeliveries o now).notifications.get? id = some y →
      Accounted (reconcileAbandonedDeliveries o now).deliveries id y := by
  intro id y' hy
  obtain ⟨y, hy, hc, hm, rfl | ⟨hs, hs', -⟩⟩ := reconcile_back hy
  · exact h id y' hy
  · exact (h id y hy).reopened (by rw [hs]; rfl) (by rw [hs']; rfl) hc hm

/-- A claim takes nothing, or leases an open row of the reconciled outbox. -/
theorem claimOne_cases (o : Outbox) (owner : String) (leaseSeconds : Int)
    (channel : Option Channel) (only : Option NotificationId) (now current : Instant) :
    claimOne o owner leaseSeconds channel only now current =
        (reconcileAbandonedDeliveries o current, none) ∨
      ∃ id y, (reconcileAbandonedDeliveries o current).notifications.get? id = some y ∧
        (y.status = .pending ∨ y.status = .retry) ∧
        claimOne o owner leaseSeconds channel only now current =
          (⟨(reconcileAbandonedDeliveries o current).notifications.updateAt id
            (Notification.leased owner (now + 1000 * leaseSeconds) now), o.deliveries⟩, some id) := by
  simp only [claimOne]
  cases hc : claimable (reconcileAbandonedDeliveries o current) channel only now with
  | nil => exact .inl rfl
  | cons x rest =>
    obtain ⟨id, y⟩ := x
    have hmem : (id, y) ∈ claimable (reconcileAbandonedDeliveries o current) channel only now := by
      rw [hc]
      exact List.mem_cons_self
    rw [claimable, List.mem_insertionSort, Table.mem_select] at hmem
    obtain ⟨hy, hp⟩ := hmem
    exact .inr ⟨id, y, hy, (of_decide_eq_true hp).1, rfl⟩

/-- What a `finish_delivery` that commits has written. -/
theorem finishDelivery_ok {row : Notification} {error : Option String} {base : Int}
    {finished current : Instant}
    (h : finishDelivery o id row error base finished current = .ok o') :
    row.attemptCount < 20 ∧ ∃ x f, o.deliveries.insert (id, row.attemptCount + 1) x = some o'.deliveries ∧
      (x.status = .delivered ↔ error = none) ∧ o'.notifications = o.notifications.updateAt id f ∧
      ∀ y, (f y).attemptCount = row.attemptCount + 1 ∧ (f y).maxAttempts = y.maxAttempts ∧
        (f y).status = if error = none then .delivered
          else if row.maxAttempts ≤ row.attemptCount + 1 then .deadLetter else .retry := by
  unfold finishDelivery at h
  simp only at h
  split at h
  · cases h
  · split at h
    · cases h
    · split at h
      · cases h
      · rename_i deliveries hins
        rename_i hsize _
        refine ⟨by omega, ?_⟩
        cases error with
        | none =>
          cases h
          exact ⟨_, _, hins, by simp, rfl, fun y => ⟨rfl, rfl, rfl⟩⟩
        | some e =>
          cases h
          exact ⟨_, _, hins, by simp, rfl, fun y => ⟨rfl, rfl, by simp [Notification.failed]⟩⟩

/-- A free attempt number is recorded. -/
theorem finishDelivery_free {row : Notification} (error : Option String) (base : Int)
    (finished current : Instant) (hy : o.notifications.get? id = some y)
    (hc : row.attemptCount < 20) (hn : o.deliveries.get? (id, row.attemptCount + 1) = none) :
    ∃ o', finishDelivery o id row error base finished current = .ok o' := by
  unfold finishDelivery
  obtain ⟨deliveries, hins⟩ := Table.insert_of_get?_eq_none hn
    (⟨if error.isNone then .delivered else .failed, if error.isNone then "ok" else "error", error,
      finished, finished⟩ : Delivery)
  simp only [hy, hins]
  rw [if_neg (by omega), if_neg (by simp)]
  cases error <;> exact ⟨_, rfl⟩

/-! ### Leases -/

/-- The row that the process has read. -/
def WorkerStage.row : WorkerStage → Option Notification
  | .claimed => none
  | .holding row | .answered row _ => some row

/-- The outbox is accounted for, and every process that has not lost its notification knows the attempt
    count of the row. -/
structure LeaseInv (w : World) : Prop where
  accounted : ∀ id y, w.outbox.notifications.get? id = some y → Accounted w.outbox.deliveries id y
  owned : ∀ id n, (w.outbox.deliveries.get? (id, n)).isSome →
    (w.outbox.notifications.get? id).isSome
  limits : ∀ id y, w.outbox.notifications.get? id = some y → y.maxAttempts ≤ 20
  present : ∀ p u, w.workers.get? p = some u →
    ∃ y, w.outbox.notifications.get? u.notificationId = some y ∧
      ∀ row, u.stage.row = some row → row.maxAttempts = y.maxAttempts
  held : ∀ p u y, w.workers.get? p = some u → w.outbox.notifications.get? u.notificationId = some y →
    w.lastClaimant u.notificationId = some p →
    ((y.status = .delivering ∧ y.leaseExpiresAt = some u.expiresAt) ∨
      (y.status = .retry ∧ u.expiresAt ≤ w.clock)) ∧
    ∀ row, u.stage.row = some row → row.attemptCount = y.attemptCount
  lost : ∀ p u, w.workers.get? p = some u → w.lastClaimant u.notificationId ≠ some p →
    u.expiresAt ≤ w.clock

theorem LeaseInv.tick (hI : LeaseInv w) (elapsed : Nat) :
    LeaseInv { w with clock := w.clock + elapsed } := by
  refine ⟨hI.accounted, hI.owned, hI.limits, hI.present, fun p u y hu hy hc => ?_,
    fun p u hu hc => ?_⟩
  · obtain ⟨hst | ⟨hst, he⟩, hrow⟩ := hI.held p u y hu hy hc
    · exact ⟨.inl hst, hrow⟩
    · exact ⟨.inr ⟨hst, Int.le_trans he (Int.le_add_of_nonneg_right (Int.natCast_nonneg _))⟩, hrow⟩
  · exact Int.le_trans (hI.lost p u hu hc) (Int.le_add_of_nonneg_right (Int.natCast_nonneg _))

theorem LeaseInv.enqueue (hI : LeaseInv w) (i : NotificationId) (m : Message) :
    LeaseInv { w with outbox := Notifier.enqueue w.outbox i m w.clock } := by
  unfold Notifier.enqueue
  split
  · exact hI
  · rename_i hm
    rw [not_not] at hm
    split
    · exact hI
    · cases hins : w.outbox.notifications.insert i (m.row w.clock) with
      | none => exact hI
      | some notifications =>
        have hnew := Table.get?_of_insert hins
        have hnone : ∀ n, w.outbox.deliveries.get? (i, n) = none := by
          intro n
          rw [← Option.not_isSome_iff_eq_none]
          intro hsome
          have := hI.owned i n hsome
          rw [hnew] at this
          cases this
        have hother : ∀ {p u}, w.workers.get? p = some u → u.notificationId ≠ i := by
          rintro p u hu rfl
          obtain ⟨y, hy, -⟩ := hI.present p u hu
          rw [hnew] at hy
          cases hy
        refine ⟨fun id y hy => ?_, fun id n hs => ?_, fun id y hy => ?_, fun p u hu => ?_,
          fun p u y hu hy hc => ?_, hI.lost⟩
        · simp only [Table.get?_insert hins] at hy
          split at hy
          · rename_i hid
            subst hid
            cases hy
            refine ⟨fun n => ?_, Nat.zero_le _, ?_, fun hd => (by cases hd), fun _ => hm.1⟩
            · simp only [hnone n, Message.row]
              constructor
              · intro h; cases h
              · rintro ⟨h, h'⟩; omega
            · refine iff_of_false (fun hd => (by cases hd)) ?_
              rintro ⟨n, x, hx, -⟩
              rw [hnone n] at hx
              cases hx
          · exact hI.accounted id y hy
        · simp only [Table.get?_insert hins]
          split
          · rfl
          · exact hI.owned id n hs
        · simp only [Table.get?_insert hins] at hy
          split at hy
          · cases hy
            exact hm.2
          · exact hI.limits id y hy
        · simp only [Table.get?_insert hins, if_neg (hother hu)]
          exact hI.present p u hu
        · simp only [Table.get?_insert hins, if_neg (hother hu)] at hy
          exact hI.held p u y hu hy hc

theorem LeaseInv.reconcile (hI : LeaseInv w) :
    LeaseInv { w with outbox := reconcileAbandonedDeliveries w.outbox w.clock } := by
  refine ⟨reconcile_accounted hI.accounted, fun id n hs => ?_, fun id y' hy => ?_, fun p u hu => ?_,
    fun p u y' hu hy hc => ?_, hI.lost⟩
  · simp only [reconcile_get?, Option.isSome_map]
    exact hI.owned id n hs
  · obtain ⟨y, hy, -, hm, -⟩ := reconcile_back hy
    rw [hm]
    exact hI.limits id y hy
  · obtain ⟨y, hy, hrow⟩ := hI.present p u hu
    simp only [reconcile_get?, hy, Option.map_some]
    refine ⟨_, rfl, fun row hr => ?_⟩
    rw [hrow row hr]
    split <;> rfl
  · obtain ⟨y, hy, hcount, -, hst⟩ := reconcile_back hy
    obtain ⟨hheld, hrow⟩ := hI.held p u y hu hy hc
    refine ⟨?_, fun row hr => by rw [hcount]; exact hrow row hr⟩
    rcases hst with rfl | ⟨hd, hr, hexp⟩
    · exact hheld
    · rcases hheld with ⟨-, he⟩ | ⟨hr', -⟩
      · exact .inr ⟨hr, hexp _ he⟩
      · rw [hd] at hr'
        cases hr'

/-- A free process leases an open row. -/
theorem LeaseInv.leased (hI : LeaseInv w) {pid : Pid} {workers : Table Pid Worker}
    (owner : String) (expires now : Instant) (hy : w.outbox.notifications.get? id = some y)
    (hs : y.status = .pending ∨ y.status = .retry)
    (hins : w.workers.insert pid ⟨id, expires, .claimed⟩ = some workers) :
    LeaseInv ⟨⟨w.outbox.notifications.updateAt id (Notification.leased owner expires now),
      w.outbox.deliveries⟩, workers, (id, pid) :: w.claims, w.clock⟩ := by
  have hback : ∀ {i z}, (w.outbox.notifications.updateAt id
      (Notification.leased owner expires now)).get? i = some z →
      ∃ z₀, w.outbox.notifications.get? i = some z₀ ∧ z.attemptCount = z₀.attemptCount ∧
        z.maxAttempts = z₀.maxAttempts ∧
        (i = id → z.status = .delivering ∧ z.leaseExpiresAt = some expires) ∧ (i ≠ id → z = z₀) := by
    intro i z hz
    rw [Table.get?_updateAt] at hz
    split at hz
    · rename_i hi
      subst hi
      rw [hy] at hz
      cases hz
      exact ⟨y, hy, rfl, rfl, fun _ => ⟨rfl, rfl⟩, fun h => absurd rfl h⟩
    · rename_i hi
      exact ⟨z, hz, rfl, rfl, fun h => absurd h hi, fun _ => rfl⟩
  have hlast : ∀ i, World.lastClaimant ⟨⟨w.outbox.notifications.updateAt id
      (Notification.leased owner expires now), w.outbox.deliveries⟩, workers,
      (id, pid) :: w.claims, w.clock⟩ i = if i = id then some pid else w.lastClaimant i := by
    intro i
    rw [World.lastClaimant, List.lookup_cons]
    by_cases hi : i = id
    · rw [if_pos hi, beq_iff_eq.2 hi]
    · rw [if_neg hi, beq_eq_false_iff_ne.2 hi]
      rfl
  refine ⟨fun i z hz => ?_, fun i n hn => ?_, fun i z hz => ?_, fun p u hu => ?_,
    fun p u z hu hz hc => ?_, fun p u hu hc => ?_⟩
  · obtain ⟨z₀, hz₀, hcount, hmax, hsame, hdiff⟩ := hback hz
    by_cases hi : i = id
    · subst hi
      rw [hy] at hz₀
      cases hz₀
      refine (hI.accounted i y hy).reopened ?_ (by rw [(hsame rfl).1]; rfl) hcount hmax
      rcases hs with h | h <;> rw [h] <;> rfl
    · rw [hdiff hi]
      exact hI.accounted i z₀ hz₀
  · have := hI.owned i n hn
    simp only [Table.get?_updateAt]
    split
    · rw [Option.isSome_map]
      exact this
    · exact this
  · obtain ⟨z₀, hz₀, -, hmax, -⟩ := hback hz
    rw [hmax]
    exact hI.limits i z₀ hz₀
  · simp only [Table.get?_insert hins] at hu
    split at hu
    · cases hu
      refine ⟨y.leased owner expires now, ?_, fun row hr => (by cases hr)⟩
      simp only [Table.get?_updateAt, if_true, hy, Option.map_some]
    · obtain ⟨z, hz, hrow⟩ := hI.present p u hu
      simp only [Table.get?_updateAt, hz, Option.map_some]
      split
      · exact ⟨_, rfl, hrow⟩
      · exact ⟨_, rfl, hrow⟩
  · obtain ⟨z₀, hz₀, hcount, -, hsame, hdiff⟩ := hback hz
    rw [hlast] at hc
    simp only [Table.get?_insert hins] at hu
    split at hu
    · cases hu
      exact ⟨.inl (hsame rfl), fun row hr => (by cases hr)⟩
    · rename_i hp
      by_cases hi : u.notificationId = id
      · rw [if_pos hi] at hc
        exact absurd (Option.some.inj hc).symm hp
      · rw [if_neg hi] at hc
        obtain ⟨hst, hrow⟩ := hI.held p u z₀ hu hz₀ hc
        rw [hdiff hi]
        exact ⟨hst, hrow⟩
  · rw [hlast] at hc
    simp only [Table.get?_insert hins] at hu
    split at hu
    · cases hu
      rename_i hp
      simp only [if_true] at hc
      exact absurd (by rw [hp]) hc
    · by_cases hi : u.notificationId = id
      · by_cases hold : w.lastClaimant u.notificationId = some p
        · obtain ⟨z, hz, -⟩ := hI.present p u hu
          have hz' := hz
          rw [hi, hy] at hz'
          cases hz'
          obtain ⟨⟨hst, -⟩ | ⟨-, he⟩, -⟩ := hI.held p u y hu hz hold
          · rcases hs with h | h <;> rw [hst] at h <;> cases h
          · exact he
        · exact hI.lost p u hu hold
      · rw [if_neg hi] at hc
        exact hI.lost p u hu hc

theorem LeaseInv.endWorker (hI : LeaseInv w) (pid : Pid) : LeaseInv (w.endWorker pid) := by
  have hback : ∀ {p u}, (w.endWorker pid).workers.get? p = some u → w.workers.get? p = some u := by
    intro p u hu
    rw [World.endWorker, Table.get?_delete_key] at hu
    split at hu
    · cases hu
    · exact hu
  exact ⟨hI.accounted, hI.owned, hI.limits, fun p u hu => hI.present p u (hback hu),
    fun p u y hu => hI.held p u y (hback hu), fun p u hu => hI.lost p u (hback hu)⟩

/-- A process goes on with what it knows of its row. -/
theorem LeaseInv.setWorker (hI : LeaseInv w) {pid : Pid} {u : Worker} {stage : WorkerStage}
    (hu : w.workers.get? pid = some u)
    (hrow : ∀ row y, stage.row = some row → w.outbox.notifications.get? u.notificationId = some y →
      row.maxAttempts = y.maxAttempts ∧
        (w.lastClaimant u.notificationId = some pid → row.attemptCount = y.attemptCount)) :
    LeaseInv (w.setWorker pid stage) := by
  have hback : ∀ {p v}, (w.setWorker pid stage).workers.get? p = some v →
      w.workers.get? p = some v ∨ (p = pid ∧ v = { u with stage }) := by
    intro p v hv
    rw [World.setWorker, Table.get?_updateAt] at hv
    split at hv
    · rename_i hp
      subst hp
      rw [hu] at hv
      cases hv
      exact .inr ⟨rfl, rfl⟩
    · exact .inl hv
  refine ⟨hI.accounted, hI.owned, hI.limits, fun p v hv => ?_, fun p v y hv hy hc => ?_,
    fun p v hv hc => ?_⟩
  · rcases hback hv with hv | ⟨rfl, rfl⟩
    · exact hI.present p v hv
    · obtain ⟨y, hy, -⟩ := hI.present p u hu
      exact ⟨y, hy, fun row hr => (hrow row y hr hy).1⟩
  · rcases hback hv with hv | ⟨rfl, rfl⟩
    · exact hI.held p v y hv hy hc
    · exact ⟨(hI.held p u y hu hy hc).1, fun row hr => (hrow row y hr hy).2 hc⟩
  · rcases hback hv with hv | ⟨rfl, rfl⟩
    · exact hI.lost p v hv hc
    · exact hI.lost p u hu hc

/-- The outcome recorded by the process that has not lost its notification. -/
theorem Accounted.recorded {d d' : Table (NotificationId × Nat) Delivery} (h : Accounted d id y)
    {x : Delivery} {error : Option String} (hopen : y.status.isFinal = false)
    (hins : d.insert (id, y.attemptCount + 1) x = some d')
    (hx : x.status = .delivered ↔ error = none) (hc : y'.attemptCount = y.attemptCount + 1)
    (hm : y'.maxAttempts = y.maxAttempts)
    (hs : y'.status = if error = none then .delivered
      else if y.maxAttempts ≤ y.attemptCount + 1 then .deadLetter else .retry) :
    Accounted d' id y' := by
  have hroom := h.remaining hopen
  have hget : ∀ n, d'.get? (id, n) = if n = y.attemptCount + 1 then some x else d.get? (id, n) := by
    intro n
    rw [Table.get?_insert hins]
    simp only [Prod.mk.injEq, true_and]
  have hfailed : ∀ n z, d.get? (id, n) = some z → z.status = .failed := by
    intro n z hz
    cases hst : z.status with
    | failed => rfl
    | delivered =>
      have := h.delivered.2 ⟨n, z, hz, hst⟩
      rw [this] at hopen
      cases hopen
  refine ⟨fun n => ?_, by rw [hc, hm]; omega, ?_, fun hd => ?_, fun hf => ?_⟩
  · rw [hget, hc]
    split
    · simp only [Option.isSome_some, true_iff]
      omega
    · rw [h.numbered]
      omega
  · by_cases he : error = none
    · rw [hs, if_pos he]
      exact iff_of_true rfl ⟨y.attemptCount + 1, x, by rw [hget, if_pos rfl], hx.2 he⟩
    · refine iff_of_false (fun hd => ?_) ?_
      · rw [hs, if_neg he] at hd
        split at hd <;> cases hd
      · rintro ⟨n, z, hz, hzd⟩
        rw [hget] at hz
        split at hz
        · cases hz
          exact he (hx.1 hzd)
        · rw [hfailed n z hz] at hzd
          cases hzd
  · have he : error ≠ none := by
      intro he
      rw [hs, if_pos he] at hd
      cases hd
    rw [hs, if_neg he] at hd
    split at hd
    · refine ⟨by rw [hc, hm]; omega, fun n z hz => ?_⟩
      rw [hget] at hz
      split at hz
      · cases hz
        cases hst : x.status with
        | failed => rfl
        | delivered => exact absurd (hx.1 hst) he
      · exact hfailed n z hz
    · cases hd
  · rw [hs] at hf
    split at hf
    · cases hf
    · split at hf
      · cases hf
      · rw [hc, hm]
        omega

/-- The holder of a notification records an outcome. -/
theorem LeaseInv.finish (hI : LeaseInv w) {pid : Pid} {u : Worker} {row : Notification}
    {error : Option String} {base : Int} {finished current : Instant}
    (hu : w.workers.get? pid = some u) (hstage : u.stage = .answered row error)
    (hc : w.lastClaimant u.notificationId = some pid)
    (hf : finishDelivery w.outbox u.notificationId row error base finished current = .ok o') :
    LeaseInv ({ w with outbox := o' }.endWorker pid) := by
  obtain ⟨-, x, f, hins, hx, hrows, hfy⟩ := finishDelivery_ok hf
  obtain ⟨y, hy, hmax⟩ := hI.present pid u hu
  obtain ⟨hst, hcount⟩ := hI.held pid u y hu hy hc
  have hcount : row.attemptCount = y.attemptCount := hcount row (by rw [hstage]; rfl)
  have hmax : row.maxAttempts = y.maxAttempts := hmax row (by rw [hstage]; rfl)
  have hopen : y.status.isFinal = false := by
    rcases hst with ⟨h, -⟩ | ⟨h, -⟩ <;> rw [h] <;> rfl
  have hrow : ∀ i, o'.notifications.get? i =
      if i = u.notificationId then some (f y) else w.outbox.notifications.get? i := by
    intro i
    rw [hrows, Table.get?_updateAt]
    split
    · rename_i hi
      rw [hi, hy, Option.map_some]
    · rfl
  have hother : ∀ i, i ≠ u.notificationId → ∀ n,
      o'.deliveries.get? (i, n) = w.outbox.deliveries.get? (i, n) := by
    intro i hi n
    rw [Table.get?_insert hins, if_neg]
    rintro h
    exact hi (congrArg Prod.fst h)
  have hback : ∀ {p v}, ({ w with outbox := o' }.endWorker pid).workers.get? p = some v →
      p ≠ pid ∧ w.workers.get? p = some v := by
    intro p v hv
    rw [World.endWorker, Table.get?_delete_key] at hv
    split at hv
    · cases hv
    · rename_i hp
      exact ⟨hp, hv⟩
  refine ⟨fun i z hz => ?_, fun i n hn => ?_, fun i z hz => ?_, fun p v hv => ?_,
    fun p v z hv hz hcl => ?_, fun p v hv hcl => hI.lost p v (hback hv).2 hcl⟩
  · change o'.notifications.get? i = some z at hz
    rw [hrow] at hz
    split at hz
    · rename_i hi
      subst hi
      cases hz
      obtain ⟨h₁, h₂, h₃⟩ := hfy y
      rw [hcount] at hins h₁
      rw [hcount, hmax] at h₃
      exact (hI.accounted _ y hy).recorded hopen hins hx h₁ h₂ h₃
    · rename_i hi
      exact (hI.accounted i z hz).congr (hother i hi)
  · change (o'.notifications.get? i).isSome
    rw [hrow]
    split
    · rfl
    · rename_i hi
      refine hI.owned i n ?_
      rw [← hother i hi]
      exact hn
  · change o'.notifications.get? i = some z at hz
    rw [hrow] at hz
    split at hz
    · cases hz
      rw [(hfy y).2.1]
      exact hI.limits _ y hy
    · exact hI.limits i z hz
  · obtain ⟨hp, hv⟩ := hback hv
    obtain ⟨z, hz, hzrow⟩ := hI.present p v hv
    change ∃ z, o'.notifications.get? v.notificationId = some z ∧ _
    rw [hrow]
    split
    · rename_i hi
      rw [hi, hy] at hz
      cases hz
      exact ⟨f y, rfl, fun row hr => by rw [(hfy y).2.1]; exact hzrow row hr⟩
    · exact ⟨z, hz, hzrow⟩
  · obtain ⟨hp, hv⟩ := hback hv
    change o'.notifications.get? v.notificationId = some z at hz
    change w.lastClaimant v.notificationId = some p at hcl
    rw [hrow] at hz
    split at hz
    · rename_i hi
      rw [hi, hc] at hcl
      exact absurd (Option.some.inj hcl).symm hp
    · exact hI.held p v z hv hz hcl

/-! ### One step -/

/-- A process that records is not late. -/
theorem not_late_of_finish {pid : Pid} {u : Worker} {row : Notification} {error : Option String}
    {base : Int} {waited : Nat} {finished current : Instant}
    (hok : finishesLate (.finish pid base waited) w = false) (hu : w.workers.get? pid = some u)
    (hstage : u.stage = .answered row error)
    (hf : finishDelivery w.outbox u.notificationId row error base finished current = .ok o') :
    w.lastClaimant u.notificationId = some pid := by
  obtain ⟨hsize, x, f, hins, -⟩ := finishDelivery_ok hf
  by_contra hc
  simp [finishesLate, hu, hstage, hc, hsize, Table.get?_of_insert hins] at hok

theorem LeaseInv.worker (hI : LeaseInv w) {pid : Pid} {u : Worker}
    (hu : w.workers.get? pid = some u) (hok : finishesLate a w = false) (ha : a.actor = some pid) :
    LeaseInv (w.workerStep u a) := by
  cases a with
  | reread p =>
    cases ha
    simp only [World.workerStep]
    split
    · rename_i row hs hrow
      refine hI.setWorker hu fun row' y hr hy => ?_
      rw [hrow] at hy
      cases hr
      cases hy
      exact ⟨rfl, fun _ => rfl⟩
    · exact hI
  | deliver p error =>
    cases ha
    simp only [World.workerStep]
    split
    · rename_i row hs
      refine hI.setWorker hu fun row' y hr hy => ?_
      cases hr
      obtain ⟨y', hy', hmax⟩ := hI.present pid u hu
      rw [hy] at hy'
      cases hy'
      exact ⟨hmax row (by rw [hs]; rfl), fun hc => (hI.held pid u y hu hy hc).2 row (by rw [hs]; rfl)⟩
    · exact hI
  | finish p base waited =>
    cases ha
    simp only [World.workerStep]
    split
    · rename_i row error hs
      split
      · rename_i outbox hf
        exact hI.finish hu hs (not_late_of_finish hok hu hs hf) hf
      · exact hI.endWorker pid
    · exact hI
  | crash p => exact hI.endWorker p
  | _ => exact hI

/-- After its claim, the steps of a process are those of its live worker. -/
theorem World.step_worker {pid : Pid} (ha : a.actor = some pid)
    (hclaim : ∀ owner lease channel only waited, a ≠ .claim pid owner lease channel only waited) :
    w.step a = w ∨ ∃ u, w.workers.get? pid = some u ∧ w.step a = w.workerStep u a := by
  cases a with
  | tick | enqueue | register => cases ha
  | claim p owner lease channel only waited =>
    cases ha
    exact absurd rfl (hclaim owner lease channel only waited)
  | reread p | deliver p _ | finish p _ _ | crash p =>
    cases ha
    simp only [World.step]
    split
    · rename_i u hu
      exact Or.inr ⟨u, hu, rfl⟩
    · exact Or.inl rfl

theorem LeaseInv.step (hI : LeaseInv w) (hok : finishesLate a w = false) : LeaseInv (w.step a) := by
  have hworker : ∀ pid, a.actor = some pid →
      (∀ owner lease channel only waited, a ≠ .claim pid owner lease channel only waited) →
      LeaseInv (w.step a) := by
    intro pid ha hclaim
    rcases World.step_worker (w := w) ha hclaim with h | ⟨u, hu, h⟩
    · rw [h]
      exact hI
    · rw [h]
      exact hI.worker hu hok ha
  cases a with
  | tick elapsed => exact hI.tick elapsed
  | enqueue id m => exact hI.enqueue id m
  | register => exact hI.reconcile
  | claim pid owner leaseSeconds channel only waited =>
    simp only [World.step]
    split
    · exact hI
    · unfold World.claimStep
      rcases claimOne_cases w.outbox owner leaseSeconds channel only (w.clock - waited) w.clock with
        h | ⟨id, y, hy, hs, h⟩
      · rw [h]
        exact hI.reconcile
      · rw [h]
        simp only
        split
        · rename_i workers hins
          exact hI.reconcile.leased owner _ _ hy hs hins
        · exact hI
  | reread pid | deliver pid _ | finish pid _ _ | crash pid =>
    exact hworker pid rfl fun _ _ _ _ _ h => by cases h

theorem leaseInv_start (hw : machine.start w) : LeaseInv w := by
  obtain ⟨clock, rfl⟩ := hw
  exact ⟨fun _ _ hy => (by cases hy), fun _ _ hn => (by cases hn), fun _ _ hy => (by cases hy),
    fun _ _ hu => (by cases hu), fun _ _ _ hu => (by cases hu), fun _ _ hu => (by cases hu)⟩

theorem leaseInv_reachable (hw : machine.Reachable (fun a w => finishesLate a w = false) w) :
    LeaseInv w :=
  Machine.invariant (fun _ hs => leaseInv_start hs) (fun _ _ _ hok hI => hI.step hok) hw

/-! ### Safety of a step -/

theorem SameDeliveries.rfl : SameDeliveries o o id := ⟨Eq.refl _, fun _ => Eq.refl _⟩

/-- A final notification is not reconciled. -/
theorem reconcile_final {now : Instant} (hy : o.notifications.get? id = some y)
    (hf : y.status.isFinal = true) : SameDeliveries o (reconcileAbandonedDeliveries o now) id := by
  refine ⟨?_, fun _ => Eq.refl _⟩
  rw [reconcile_get?, hy, Option.map_some, if_neg]
  rintro ⟨hs, -⟩
  rw [hs] at hf
  cases hf

/-- A final notification is not claimed. -/
theorem claimStep_final {pid : Pid} {owner : String} {leaseSeconds : Int} {channel : Option Channel}
    {only : Option NotificationId} {now : Instant} (hy : w.outbox.notifications.get? id = some y)
    (hf : y.status.isFinal = true) :
    SameDeliveries w.outbox (w.claimStep pid owner leaseSeconds channel only now).outbox id := by
  unfold World.claimStep
  rcases claimOne_cases w.outbox owner leaseSeconds channel only now w.clock with
    h | ⟨i, z, hz, hs, h⟩
  · rw [h]
    exact reconcile_final hy hf
  · rw [h]
    simp only
    split
    · have hfinal : SameDeliveries w.outbox (reconcileAbandonedDeliveries w.outbox w.clock) _ :=
        reconcile_final hy hf
      obtain ⟨hrow, -⟩ := hfinal
      refine ⟨?_, fun _ => Eq.refl _⟩
      rw [Table.get?_updateAt, if_neg, hrow]
      rintro rfl
      rw [hrow, hy] at hz
      cases hz
      rcases hs with h | h <;> rw [h] at hf <;> cases hf
    · exact .rfl

/-- The outcome of another notification leaves this one as it is. -/
theorem finishDelivery_other {i : NotificationId} {row : Notification} {error : Option String}
    {base : Int} {finished current : Instant} (hi : id ≠ i)
    (hf : finishDelivery o i row error base finished current = .ok o') : SameDeliveries o o' id := by
  obtain ⟨-, x, f, hins, -, hrows, -⟩ := finishDelivery_ok hf
  refine ⟨by rw [hrows, Table.get?_updateAt, if_neg hi], fun n => ?_⟩
  rw [Table.get?_insert hins, if_neg]
  intro h
  exact hi (congrArg Prod.fst h)

/-- Only a `finish_delivery` that commits writes to the outbox. -/
theorem workerStep_outbox {u : Worker} :
    (w.workerStep u a).outbox = w.outbox ∨ ∃ pid base waited row error o', a = .finish pid base waited ∧
      u.stage = .answered row error ∧ (w.workerStep u a).outbox = o' ∧
      finishDelivery w.outbox u.notificationId row error base (w.clock - waited) w.clock = .ok o' := by
  cases a with
  | reread p =>
    simp only [World.workerStep]
    split <;> exact .inl (Eq.refl _)
  | deliver p error =>
    simp only [World.workerStep]
    split <;> exact .inl (Eq.refl _)
  | finish p base waited =>
    simp only [World.workerStep]
    split
    · rename_i row error hs
      split
      · rename_i o' hf
        exact .inr ⟨p, base, waited, row, error, o', Eq.refl _, hs, Eq.refl _, hf⟩
      · exact .inl (Eq.refl _)
    · exact .inl (Eq.refl _)
  | _ => exact .inl (Eq.refl _)

/-- The step of a process leaves a final notification, and one that it has lost, as it is. -/
theorem LeaseInv.worker_same (hI : LeaseInv w) {pid : Pid} {u : Worker}
    (hu : w.workers.get? pid = some u) (hok : finishesLate a w = false) (ha : a.actor = some pid)
    (hid : id = u.notificationId → w.lastClaimant id ≠ some pid ∨
      ∃ y, w.outbox.notifications.get? id = some y ∧ y.status.isFinal = true) :
    SameDeliveries w.outbox (w.workerStep u a).outbox id := by
  rcases workerStep_outbox (w := w) (a := a) (u := u) with h | ⟨p, base, waited, row, error, o', rfl,
    hs, h, hf⟩
  · rw [h]
    exact .rfl
  · rw [h]
    cases ha
    refine finishDelivery_other (fun hi => ?_) hf
    have hc := not_late_of_finish hok hu hs hf
    rcases hid hi with hlost | ⟨y, hy, hfin⟩
    · rw [hi] at hlost
      exact hlost hc
    · rw [hi] at hy
      obtain ⟨⟨hst, -⟩ | ⟨hst, -⟩, -⟩ := hI.held pid u y hu hy hc <;> rw [hst] at hfin <;> cases hfin

theorem LeaseInv.final (hI : LeaseInv w) (hok : finishesLate a w = false)
    (hy : w.outbox.notifications.get? id = some y) (hf : y.status.isFinal = true) :
    SameDeliveries w.outbox (w.step a).outbox id := by
  have hworker : ∀ pid, a.actor = some pid →
      (∀ owner lease channel only waited, a ≠ .claim pid owner lease channel only waited) →
      SameDeliveries w.outbox (w.step a).outbox id := by
    intro pid ha hclaim
    rcases World.step_worker (w := w) ha hclaim with h | ⟨u, hu, h⟩
    · rw [h]
      exact .rfl
    · rw [h]
      exact hI.worker_same hu hok ha fun _ => .inr ⟨y, hy, hf⟩
  cases a with
  | tick elapsed => exact .rfl
  | enqueue i m =>
    simp only [World.step, Notifier.enqueue]
    split
    · exact .rfl
    · split
      · exact .rfl
      · split
        · rename_i hins
          refine ⟨?_, fun _ => Eq.refl _⟩
          rw [Table.get?_insert hins, if_neg]
          rintro rfl
          rw [Table.get?_of_insert hins] at hy
          cases hy
        · exact .rfl
  | register => exact reconcile_final hy hf
  | claim pid owner leaseSeconds channel only waited =>
    simp only [World.step]
    split
    · exact .rfl
    · exact claimStep_final hy hf
  | reread pid | deliver pid _ | finish pid _ _ | crash pid =>
    exact hworker pid (Eq.refl _) fun _ _ _ _ _ h => by cases h

theorem LeaseInv.fenced (hI : LeaseInv w) (hok : finishesLate a w = false) {p : Pid} {u : Worker}
    (ha : a.actor = some p) (hu : w.workers.get? p = some u)
    (hc : w.lastClaimant u.notificationId ≠ some p) :
    SameDeliveries w.outbox (w.step a).outbox u.notificationId := by
  have hsame : SameDeliveries w.outbox (w.workerStep u a).outbox u.notificationId :=
    hI.worker_same hu hok ha fun _ => .inl hc
  cases a with
  | claim pid owner leaseSeconds channel only waited =>
    cases ha
    simp only [World.step, hu, Option.isSome_some, if_true]
    exact .rfl
  | reread pid | deliver pid _ | finish pid _ _ | crash pid =>
    cases ha
    simp only [World.step, hu]
    exact hsame
  | _ => cases ha

/-- A success under an unexpired lease is recorded. -/
theorem LeaseInv.recorded (hI : LeaseInv w) {p : Pid} {base : Int} {waited : Nat} {u : Worker}
    {row : Notification} (hu : w.workers.get? p = some u) (hs : u.stage = .answered row none)
    (hlive : w.clock < u.expiresAt) :
    ((w.step (.finish p base waited)).outbox.notifications.get? u.notificationId).map
      Notification.status = some .delivered := by
  have hc : w.lastClaimant u.notificationId = some p := by
    by_contra hc
    exact absurd hlive (Int.not_lt.2 (hI.lost p u hu hc))
  obtain ⟨y, hy, -⟩ := hI.present p u hu
  obtain ⟨hst, hcount⟩ := hI.held p u y hu hy hc
  have hcount : row.attemptCount = y.attemptCount := hcount row (by rw [hs]; rfl)
  have hacc := hI.accounted _ y hy
  have hroom : y.attemptCount < y.maxAttempts := by
    refine hacc.remaining ?_
    rcases hst with ⟨h, -⟩ | ⟨h, -⟩ <;> rw [h] <;> rfl
  have hsize := hI.limits _ y hy
  have hfree : w.outbox.deliveries.get? (u.notificationId, row.attemptCount + 1) = none := by
    rw [← Option.not_isSome_iff_eq_none, hacc.numbered, hcount]
    omega
  obtain ⟨o', hf⟩ := finishDelivery_free none base (w.clock - waited) w.clock hy (by omega) hfree
  obtain ⟨-, x, f, -, -, hrows, hfy⟩ := finishDelivery_ok hf
  simp only [World.step, hu, World.workerStep, hs, hf, World.endWorker]
  rw [hrows, Table.get?_updateAt, if_pos (Eq.refl _), hy]
  simp [(hfy y).2.2]

theorem LeaseInv.sole (hI : LeaseInv w) {p q : Pid} {u v : Worker} (hu : w.workers.get? p = some u)
    (hv : w.workers.get? q = some v) (hid : u.notificationId = v.notificationId)
    (hlu : w.clock < u.expiresAt) (hlv : w.clock < v.expiresAt) : p = q := by
  have hp : w.lastClaimant u.notificationId = some p := by
    by_contra hc
    exact absurd hlu (Int.not_lt.2 (hI.lost p u hu hc))
  have hq : w.lastClaimant v.notificationId = some q := by
    by_contra hc
    exact absurd hlv (Int.not_lt.2 (hI.lost q v hv hc))
  rw [hid, hq] at hp
  exact (Option.some.inj hp).symm

theorem LeaseInv.safe (hI : LeaseInv w) (hok : finishesLate a w = false) : DeliverySafe a w := by
  refine ⟨(hI.step hok).accounted, fun id y hy hf => hI.final hok hy hf,
    fun p u ha hu hc => hI.fenced hok ha hu hc, fun p base waited u row ha hu hs hl => ?_,
    fun p q u v hu hv hid => (hI.step hok).sole hu hv hid⟩
  subst ha
  exact hI.recorded hu hs hl

/-- A late process writes. -/
theorem not_safe_of_late (hI : LeaseInv w) (hn : finishesLate a w = true) : ¬DeliverySafe a w := by
  intro hsafe
  unfold finishesLate at hn
  split at hn
  · rename_i pid base waited
    obtain ⟨u, hu, hlate⟩ := (Option.any_eq_true _ _).1 hn
    split at hlate
    · rename_i row error hs
      obtain ⟨hc, hsize, hfree⟩ := of_decide_eq_true hlate
      obtain ⟨y, hy, -⟩ := hI.present pid u hu
      obtain ⟨o', hf⟩ := finishDelivery_free error base (w.clock - waited) w.clock hy hsize hfree
      obtain ⟨-, x, f, hins, -⟩ := finishDelivery_ok hf
      have hsame := (hsafe.fenced pid u (Eq.refl _) hu hc).2 (row.attemptCount + 1)
      simp only [World.step, hu, World.workerStep, hs, hf, World.endWorker] at hsame
      rw [hfree, Table.get?_insert hins, if_pos (Eq.refl _)] at hsame
      cases hsame
    · cases hlate
  · cases hn

/-! ### Runs -/

/-- The steps of a run are safe exactly as long as no process that has lost its notification is the first
    to record under its attempt number. -/
theorem delivery_safe_iff {w : World} (hw : machine.start w) (as : List Action) :
    machine.Along DeliverySafe w as ↔ machine.Along (fun a w => finishesLate a w = false) w as := by
  have hI := leaseInv_start hw
  clear hw
  induction as generalizing w with
  | nil => exact Iff.rfl
  | cons a as ih =>
    by_cases hok : finishesLate a w = false
    · exact and_congr (iff_of_true (hI.safe hok) hok) (ih (hI.step hok))
    · refine iff_of_false (fun h => ?_) fun h => hok h.1
      exact not_safe_of_late hI (by simpa using hok) h.1

def message : Message := ⟨"objective-event:0:FILE", .info, .file, 2⟩

def emptyOutbox : World := ⟨⟨.empty, .empty⟩, .empty, [], 0⟩

theorem emptyOutbox_start : machine.start emptyOutbox := ⟨0, rfl⟩

/-- The first delivery fails and the second succeeds. -/
def retriedDelivery : List Action :=
  [ .enqueue 0 message,
    .claim 0 "ops-notifier:host" 120 none none 0,
    .reread 0,
    .deliver 0 (some "NotifierError: Telegram HTTP 500"),
    .finish 0 15 0,
    .tick 15000,
    .claim 0 "ops-notifier:host" 120 none none 0,
    .reread 0,
    .deliver 0 none,
    .finish 0 15 0 ]

/-- The lease of the first process runs out while it delivers; the second one delivers as well, and its
    success comes after the failure of the first. -/
def takenOverDelivery : List Action :=
  [ .enqueue 0 message,
    .claim 0 "ops-notifier:host" 120 none none 0,
    .reread 0,
    .tick 120000,
    .claim 1 "ops-notifier-once:host" 120 none none 0,
    .reread 1,
    .deliver 1 none,
    .deliver 0 (some "URLError: timed out"),
    .finish 0 15 0 ]

theorem delivery_safe_retried : machine.Along DeliverySafe emptyOutbox retriedDelivery :=
  (delivery_safe_iff emptyOutbox_start _).2 (by decide)

/-- The process whose lease has run out writes its failure, and the success is never recorded. -/
theorem late_failure_recorded : ¬∀ (w : World) (as : List Action), machine.start w →
    machine.Along DeliverySafe w as := by
  intro hall
  obtain ⟨-, hlast, -⟩ := (Machine.along_append _ (takenOverDelivery.take 8) _).1
    (hall _ (takenOverDelivery.take 8 ++ [.finish 0 15 0]) emptyOutbox_start)
  have hw : machine.Reachable (fun a w => finishesLate a w = false)
      (machine.run emptyOutbox (takenOverDelivery.take 8)) :=
    .run (.start emptyOutbox_start) (by decide)
  exact not_safe_of_late (leaseInv_reachable hw) (by decide) hlast

end HermesOps.Notifier
