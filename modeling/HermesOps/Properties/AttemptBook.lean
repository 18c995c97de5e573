import HermesOps.Properties.GraphMoves
import HermesOps.Properties.RunLinks

/-! The attempts of a task as a book: one row for each number up to `attempt_count`, and an open row
    only under the last number. A transaction leaves the book alone, closes one attempt together with
    its task, opens the next one, or adds and deletes whole plans. -/

namespace HermesOps

open Schemes

/-- The book of every task is in order. -/
structure AttemptBook (g : Graph) : Prop where
  numbered : ∀ i t, g.tasks.get? i = some t → ∀ n, 1 ≤ n → n ≤ t.attemptCount →
    ∃ j x, g.attempts.get? j = some x ∧ x.taskId = i ∧ x.attemptNumber = n
  within : ∀ j x t, g.attempts.get? j = some x → g.tasks.get? x.taskId = some t →
    1 ≤ x.attemptNumber ∧ x.attemptNumber ≤ t.attemptCount
  distinct : ∀ j k x y, g.attempts.get? j = some x → g.attempts.get? k = some y →
    x.taskId = y.taskId → x.attemptNumber = y.attemptNumber → j = k
  current : ∀ i t, g.tasks.get? i = some t → t.status = .running →
    ∃ j x, g.attempts.get? j = some x ∧ x.taskId = i ∧ x.attemptNumber = t.attemptCount ∧
      x.status = .running
  latest : ∀ j x t, g.attempts.get? j = some x → g.tasks.get? x.taskId = some t →
    x.status = .running → x.attemptNumber = t.attemptCount
  idle : ∀ j x t, g.attempts.get? j = some x → g.tasks.get? x.taskId = some t →
    x.status = .running → t.status ≠ .pending ∧ t.status ≠ .ready

/-- Whoever may still hold an open attempt of a task that is not `RUNNING`. -/
def Graph.Held (g : Graph) (P : AttemptId → Prop) : Prop :=
  ∀ j x t, g.attempts.get? j = some x → g.tasks.get? x.taskId = some t → x.status = .running →
    t.status ≠ .running → P j

variable {g g' : Graph} {P Q : AttemptId → Prop} {i : TaskId} {j : AttemptId}

theorem AttemptBook.empty : AttemptBook ⟨.empty, .empty, [], .empty⟩ := by
  refine ⟨fun _ _ h => ?_, fun _ _ _ h => ?_, fun _ _ _ _ h => ?_, fun _ _ h => ?_, fun _ _ _ h => ?_,
    fun _ _ _ h => ?_⟩ <;> cases h

/-- The open attempts of a task are one. -/
theorem AttemptBook.unique (hB : AttemptBook g) {t : Task} (ht : g.tasks.get? i = some t)
    {k : AttemptId} {x y : Attempt} (hx : g.attempts.get? j = some x) (hy : g.attempts.get? k = some y)
    (hxi : x.taskId = i) (hyi : y.taskId = i) (hxr : x.status = .running) (hyr : y.status = .running) :
    j = k := by
  subst hxi
  have h₁ := hB.latest j x t hx ht hxr
  have h₂ := hB.latest k y t hy (hyi ▸ ht) hyr
  exact hB.distinct j k x y hx hy hyi.symm (h₁.trans h₂.symm)

/-! ### Quiet transactions -/

/-- The status changes of a task whose attempts are left alone. -/
structure TaskQuiet (t t' : Task) : Prop where
  count : t'.attemptCount = t.attemptCount
  running : t'.status = .running → t.status = .running
  waiting : t'.status = .pending ∨ t'.status = .ready → t.status = .pending ∨ t.status = .ready

/-- The attempt keeps its number and its status. -/
structure AttemptQuiet (x x' : Attempt) : Prop where
  task : x'.taskId = x.taskId
  number : x'.attemptNumber = x.attemptNumber
  status : x'.status = x.status

/-- No attempt is opened or closed. -/
structure GraphQuiet (g g' : Graph) : Prop where
  tasks : Table.Related (fun _ => TaskQuiet) g.tasks g'.tasks
  attempts : Table.Related (fun _ => AttemptQuiet) g.attempts g'.attempts

theorem TaskQuiet.rfl {t : Task} : TaskQuiet t t := ⟨.refl _, id, id⟩

theorem AttemptQuiet.rfl {x : Attempt} : AttemptQuiet x x := ⟨.refl _, .refl _, .refl _⟩

theorem TaskQuiet.of_stop {t t' : Task} (h : TaskStop t t') : TaskQuiet t t' := by
  refine ⟨h.count, fun hr => ?_, fun hw => ?_⟩
  · rcases h.status with hs | ⟨-, hs | hs⟩
    · exact hs ▸ hr
    · rw [hs] at hr; cases hr
    · rw [hs] at hr; cases hr
  · rcases h.status with hs | ⟨-, hs | hs⟩
    · exact hs ▸ hw
    · rw [hs] at hw; rcases hw with hw | hw <;> cases hw
    · rw [hs] at hw; rcases hw with hw | hw <;> cases hw

theorem attemptsQuiet_of_eq (h : g'.attempts = g.attempts) :
    Table.Related (fun _ => AttemptQuiet) g.attempts g'.attempts := by
  rw [h]
  exact .refl fun _ _ _ => .rfl

theorem GraphQuiet.of_eq (h : g' = g) : GraphQuiet g g' := by
  rw [h]
  exact ⟨.refl fun _ _ _ => .rfl, .refl fun _ _ _ => .rfl⟩

theorem AttemptBook.quiet (hB : AttemptBook g) (h : GraphQuiet g g') : AttemptBook g' := by
  refine ⟨fun i t' ht' n h1 hn => ?_, fun j x' t' hx' ht' => ?_, fun j k x' y' hx' hy' hi hn => ?_,
    fun i t' ht' hr => ?_, fun j x' t' hx' ht' hr => ?_, fun j x' t' hx' ht' hr => ?_⟩
  · obtain ⟨t, ht, hq⟩ := h.tasks.back ht'
    obtain ⟨j, x, hx, hxi, hxn⟩ := hB.numbered i t ht n h1 (hq.count ▸ hn)
    obtain ⟨x', hx', hk⟩ := h.attempts.forth hx
    exact ⟨j, x', hx', hk.task.trans hxi, hk.number.trans hxn⟩
  · obtain ⟨x, hx, hk⟩ := h.attempts.back hx'
    obtain ⟨t, ht, hq⟩ := h.tasks.back ht'
    rw [hk.number, hq.count]
    exact hB.within j x t hx (hk.task ▸ ht)
  · obtain ⟨x, hx, hk⟩ := h.attempts.back hx'
    obtain ⟨y, hy, hl⟩ := h.attempts.back hy'
    exact hB.distinct j k x y hx hy (by rw [← hk.task, ← hl.task, hi]) (by rw [← hk.number, ← hl.number, hn])
  · obtain ⟨t, ht, hq⟩ := h.tasks.back ht'
    obtain ⟨j, x, hx, hxi, hxn, hxr⟩ := hB.current i t ht (hq.running hr)
    obtain ⟨x', hx', hk⟩ := h.attempts.forth hx
    exact ⟨j, x', hx', hk.task.trans hxi, by rw [hk.number, hq.count, hxn], hk.status.trans hxr⟩
  · obtain ⟨x, hx, hk⟩ := h.attempts.back hx'
    obtain ⟨t, ht, hq⟩ := h.tasks.back ht'
    rw [hk.number, hq.count]
    exact hB.latest j x t hx (hk.task ▸ ht) (hk.status ▸ hr)
  · obtain ⟨x, hx, hk⟩ := h.attempts.back hx'
    obtain ⟨t, ht, hq⟩ := h.tasks.back ht'
    have hidle := hB.idle j x t hx (hk.task ▸ ht) (hk.status ▸ hr)
    refine ⟨fun hs => ?_, fun hs => ?_⟩
    · rcases hq.waiting (.inl hs) with hp | hp
      · exact hidle.1 hp
      · exact hidle.2 hp
    · rcases hq.waiting (.inr hs) with hp | hp
      · exact hidle.1 hp
      · exact hidle.2 hp

/-- Open attempts stay held when the tasks that stop running have a holder of theirs. -/
theorem Graph.Held.quiet (hH : g.Held P) (h : GraphQuiet g g') (hPQ : ∀ j, P j → Q j)
    (hnew : ∀ j x t t', g.attempts.get? j = some x → g.tasks.get? x.taskId = some t →
      g'.tasks.get? x.taskId = some t' → x.status = .running → t.status = .running →
      t'.status ≠ .running → Q j) : g'.Held Q := by
  intro j x' t' hx' ht' hr hn
  obtain ⟨x, hx, hk⟩ := h.attempts.back hx'
  obtain ⟨t, ht, -⟩ := h.tasks.back ht'
  rw [hk.task] at ht ht'
  by_cases hrun : t.status = .running
  · exact hnew j x t t' hx ht ht' (hk.status ▸ hr) hrun hn
  · exact hPQ j (hH j x t hx ht (hk.status ▸ hr) hrun)

/-! ### Closing an attempt -/

/-- Attempt `j` is closed and its task `i` stops running. -/
structure GraphClosed (g g' : Graph) (i : TaskId) (j : AttemptId) : Prop where
  tasks : Table.Related (fun k t t' => t'.attemptCount = t.attemptCount ∧
    if k = i then t'.status ≠ .running else TaskQuiet t t' ∧ (t.status = .running → t'.status = .running))
    g.tasks g'.tasks
  attempts : Table.Related (fun k x x' => x'.taskId = x.taskId ∧ x'.attemptNumber = x.attemptNumber ∧
    if k = j then x'.status ≠ .running else x'.status = x.status) g.attempts g'.attempts

/-- Nobody but `j` has an open attempt of task `i`, and `j` is one of its attempts. -/
structure Graph.Open (g : Graph) (i : TaskId) (j : AttemptId) : Prop where
  task : ∀ x, g.attempts.get? j = some x → x.taskId = i
  alone : ∀ k x, g.attempts.get? k = some x → x.taskId = i → x.status = .running → k = j

theorem AttemptBook.open (hB : AttemptBook g) {x : Attempt} {t : Task} (hx : g.attempts.get? j = some x)
    (hxi : x.taskId = i) (ht : g.tasks.get? i = some t) (hr : x.status = .running) : g.Open i j :=
  ⟨fun y hy => by rw [hx] at hy; cases hy; exact hxi,
    fun _ _ hy hyi hyr => hB.unique ht hy hx hyi hxi hyr hr⟩

/-- A row that is still open after the closing was open before, and is another one. -/
theorem GraphClosed.still (h : GraphClosed g g' i j) (ho : g.Open i j) {k : AttemptId} {x' : Attempt}
    (hx' : g'.attempts.get? k = some x') (hr : x'.status = .running) : k ≠ j ∧ x'.taskId ≠ i ∧
      ∃ x, g.attempts.get? k = some x ∧ x'.taskId = x.taskId ∧ x'.attemptNumber = x.attemptNumber ∧
        x.status = .running := by
  obtain ⟨x, hx, htask, hnum, hst⟩ := h.attempts.back hx'
  have hkj : k ≠ j := by
    intro hkj
    rw [if_pos hkj] at hst
    exact hst hr
  rw [if_neg hkj] at hst
  refine ⟨hkj, fun hi => ?_, x, hx, htask, hnum, hst ▸ hr⟩
  exact hkj (ho.alone k x hx (htask ▸ hi) (hst ▸ hr))

theorem AttemptBook.closed (hB : AttemptBook g) (ho : g.Open i j) (h : GraphClosed g g' i j) :
    AttemptBook g' := by
  refine ⟨fun k t' ht' n h1 hn => ?_, fun k x' t' hx' ht' => ?_, fun k l x' y' hx' hy' hi hn => ?_,
    fun k t' ht' hr => ?_, fun k x' t' hx' ht' hr => ?_, fun k x' t' hx' ht' hr => ?_⟩
  · obtain ⟨t, ht, hcount, -⟩ := h.tasks.back ht'
    obtain ⟨l, x, hx, hxi, hxn⟩ := hB.numbered k t ht n h1 (hcount ▸ hn)
    obtain ⟨x', hx', htask, hnum, -⟩ := h.attempts.forth hx
    exact ⟨l, x', hx', htask.trans hxi, hnum.trans hxn⟩
  · obtain ⟨x, hx, htask, hnum, -⟩ := h.attempts.back hx'
    obtain ⟨t, ht, hcount, -⟩ := h.tasks.back ht'
    rw [hnum, hcount]
    exact hB.within k x t hx (htask ▸ ht)
  · obtain ⟨x, hx, htask, hnum, -⟩ := h.attempts.back hx'
    obtain ⟨y, hy, htask', hnum', -⟩ := h.attempts.back hy'
    exact hB.distinct k l x y hx hy (by rw [← htask, ← htask', hi]) (by rw [← hnum, ← hnum', hn])
  · obtain ⟨t, ht, hcount, hst⟩ := h.tasks.back ht'
    have hki : k ≠ i := by
      intro hki
      rw [if_pos hki] at hst
      exact hst hr
    rw [if_neg hki] at hst
    obtain ⟨l, x, hx, hxk, hxn, hxr⟩ := hB.current k t ht (hst.1.running hr)
    obtain ⟨x', hx', htask, hnum, hxst⟩ := h.attempts.forth hx
    have hlj : l ≠ j := by
      rintro rfl
      exact hki (hxk.symm.trans (ho.task x hx))
    rw [if_neg hlj] at hxst
    exact ⟨l, x', hx', htask.trans hxk, by rw [hnum, hcount, hxn], hxst.trans hxr⟩
  · obtain ⟨-, -, x, hx, htask, hnum, hxr⟩ := h.still ho hx' hr
    obtain ⟨t, ht, hcount, -⟩ := h.tasks.back ht'
    rw [hnum, hcount]
    exact hB.latest k x t hx (htask ▸ ht) hxr
  · obtain ⟨-, hne, x, hx, htask, -, hxr⟩ := h.still ho hx' hr
    obtain ⟨t, ht, -, hst⟩ := h.tasks.back ht'
    rw [if_neg hne] at hst
    have hidle := hB.idle k x t hx (htask ▸ ht) hxr
    refine ⟨fun hs => ?_, fun hs => ?_⟩
    · rcases hst.1.waiting (.inl hs) with hp | hp
      · exact hidle.1 hp
      · exact hidle.2 hp
    · rcases hst.1.waiting (.inr hs) with hp | hp
      · exact hidle.1 hp
      · exact hidle.2 hp

theorem Graph.Held.closed (hH : g.Held P) (ho : g.Open i j) (h : GraphClosed g g' i j)
    (hPQ : ∀ k, k ≠ j → P k → Q k) : g'.Held Q := by
  intro k x' t' hx' ht' hr hn
  obtain ⟨hkj, hne, x, hx, htask, -, hxr⟩ := h.still ho hx' hr
  obtain ⟨t, ht, -, hst⟩ := h.tasks.back ht'
  rw [if_neg hne] at hst
  exact hPQ k hkj (hH k x t hx (htask ▸ ht) hxr fun hrun => hn (hst.2 hrun))

/-! ### Opening an attempt -/

/-- The rows a reservation leaves. -/
theorem reserveAttempt_rows {d : Database} {now : Time} {task : Task}
    (h : reserveAttempt d i j now = .ok (g, task)) :
    d.graph.tasks.get? i = some task ∧ task.status = .ready ∧
      Table.Related (fun k t t' => if k = i then t'.status = .running ∧
        t'.attemptCount = t.attemptCount + 1 else t' = t) d.graph.tasks g.tasks ∧
      ∃ x : Attempt, x.taskId = i ∧ x.attemptNumber = task.attemptCount + 1 ∧ x.status = .running ∧
        d.graph.attempts.insert j x = some g.attempts := by
  obtain ⟨htask, -, hready, -⟩ := reserveAttempt_ok h
  refine ⟨htask, hready, ?_⟩
  simp only [reserveAttempt, htask] at h
  split at h
  · cases h
  · split at h
    · cases h
    · split at h
      · rename_i attempts hatt
        simp only [Except.ok.injEq, Prod.mk.injEq] at h
        obtain ⟨rfl, -⟩ := h
        refine ⟨.update (fun k t hk hp => ?_) (fun k t hk hp => ?_), _, rfl, rfl, rfl, hatt⟩
        · obtain ⟨rfl, -⟩ := of_decide_eq_true hp
          obtain rfl : task = t := by rw [htask] at hk; simpa using hk
          rw [if_pos rfl]
          exact ⟨rfl, rfl⟩
        · rw [if_neg]
          rintro rfl
          obtain rfl : task = t := by rw [htask] at hk; simpa using hk
          rw [decide_eq_false_iff_not] at hp
          exact hp ⟨rfl, hready⟩
      · cases h

theorem AttemptBook.reserved {d : Database} {now : Time} {task : Task} (hB : AttemptBook d.graph)
    (h : reserveAttempt d i j now = .ok (g, task)) : AttemptBook g := by
  obtain ⟨htask, hready, hrel, x₀, hx₀i, hx₀n, hx₀r, hins⟩ := reserveAttempt_rows h
  have hget := Table.get?_insert hins
  have hold : ∀ {k x t}, d.graph.attempts.get? k = some x → d.graph.tasks.get? x.taskId = some t →
      x.status = .running → x.taskId ≠ i := by
    rintro k x t hx ht hr rfl
    rw [htask] at ht
    cases ht
    exact (hB.idle k x task hx htask hr).2 hready
  have hcount : ∀ {k t'}, g.tasks.get? k = some t' → ∃ t, d.graph.tasks.get? k = some t ∧
      t.attemptCount ≤ t'.attemptCount ∧ (k = i → t = task ∧ t'.status = .running ∧
        t'.attemptCount = t.attemptCount + 1) ∧ (k ≠ i → t' = t) := by
    intro k t' ht'
    obtain ⟨t, ht, hst⟩ := hrel.back ht'
    by_cases hk : k = i
    · rw [if_pos hk] at hst
      refine ⟨t, ht, by omega, fun _ => ⟨?_, hst⟩, fun hne => absurd hk hne⟩
      rw [hk, htask] at ht
      exact (Option.some.inj ht).symm
    · rw [if_neg hk] at hst
      exact ⟨t, ht, by rw [hst], fun hki => absurd hki hk, fun _ => hst⟩
  refine ⟨fun k t' ht' n h1 hn => ?_, fun k x t' hx ht' => ?_, fun k l x y hx hy hi hn => ?_,
    fun k t' ht' hr => ?_, fun k x t' hx ht' hr => ?_, fun k x t' hx ht' hr => ?_⟩
  · obtain ⟨t, ht, -, heq, hne⟩ := hcount ht'
    have hkeep : n ≤ t.attemptCount → ∃ l x, g.attempts.get? l = some x ∧ x.taskId = k ∧
        x.attemptNumber = n := by
      intro hle
      obtain ⟨l, x, hx, hxk⟩ := hB.numbered k t ht n h1 hle
      refine ⟨l, x, ?_, hxk⟩
      rw [hget, if_neg, hx]
      rintro rfl
      rw [Table.get?_of_insert hins] at hx
      cases hx
    by_cases hk : k = i
    · obtain ⟨rfl, -, hc⟩ := heq hk
      by_cases hle : n ≤ t.attemptCount
      · exact hkeep hle
      · exact ⟨j, x₀, by rw [hget, if_pos rfl], hx₀i.trans hk.symm, by omega⟩
    · rw [hne hk] at hn
      exact hkeep hn
  · obtain ⟨t, ht, hle, heq, -⟩ := hcount ht'
    rw [hget] at hx
    split at hx
    · cases hx
      obtain ⟨rfl, -, hc⟩ := heq hx₀i
      omega
    · have := hB.within k x t hx ht
      omega
  · -- the new row has a number no old row of its task has
    have hfresh : ∀ {k x}, d.graph.attempts.get? k = some x → x.taskId = i →
        x.attemptNumber ≠ task.attemptCount + 1 := by
      rintro k x hx rfl hnum
      have := (hB.within k x task hx htask).2
      omega
    rw [hget] at hx hy
    split at hx <;> split at hy
    · rename_i hk hl
      exact hk.trans hl.symm
    · cases hx
      exact absurd (hn.symm.trans hx₀n) (hfresh hy (hi.symm.trans hx₀i))
    · cases hy
      exact absurd (hn.trans hx₀n) (hfresh hx (hi.trans hx₀i))
    · exact hB.distinct k l x y hx hy hi hn
  · obtain ⟨t, ht, -, heq, hne⟩ := hcount ht'
    by_cases hk : k = i
    · obtain ⟨rfl, -, hc⟩ := heq hk
      exact ⟨j, x₀, by rw [hget, if_pos rfl], hx₀i.trans hk.symm, hx₀n.trans hc.symm, hx₀r⟩
    · obtain rfl := hne hk
      obtain ⟨l, x, hx, hxk⟩ := hB.current k t' ht hr
      refine ⟨l, x, ?_, hxk⟩
      rw [hget, if_neg, hx]
      rintro rfl
      rw [Table.get?_of_insert hins] at hx
      cases hx
  · obtain ⟨t, ht, -, heq, hne⟩ := hcount ht'
    rw [hget] at hx
    split at hx
    · cases hx
      obtain ⟨rfl, -, hc⟩ := heq hx₀i
      exact hx₀n.trans hc.symm
    · have hxi := hold hx ht hr
      rw [hne hxi]
      exact hB.latest k x t hx ht hr
  · obtain ⟨t, ht, -, heq, hne⟩ := hcount ht'
    rw [hget] at hx
    split at hx
    · cases hx
      rw [(heq hx₀i).2.1]
      exact ⟨fun hs => (by cases hs), fun hs => (by cases hs)⟩
    · have hxi := hold hx ht hr
      rw [hne hxi]
      exact hB.idle k x t hx ht hr

/-- The reserved task runs, so no attempt loses its holder. -/
theorem Graph.Held.reserved {d : Database} {now : Time} {task : Task} (hH : d.graph.Held P)
    (h : reserveAttempt d i j now = .ok (g, task)) (hPQ : ∀ k, P k → Q k) : g.Held Q := by
  obtain ⟨-, -, hrel, x₀, hx₀i, -, -, hins⟩ := reserveAttempt_rows h
  intro k x t' hx ht' hr hn
  obtain ⟨t, ht, hst⟩ := hrel.back ht'
  by_cases hxi : x.taskId = i
  · rw [if_pos hxi] at hst
    exact absurd hst.1 hn
  · rw [if_neg hxi] at hst
    rw [Table.get?_insert hins] at hx
    split at hx
    · cases hx
      exact absurd hx₀i hxi
    · exact hPQ k (hH k x t hx ht hr (hst ▸ hn))

/-! ### Whole plans -/

theorem AttemptBook.inserted {p : PlanId} (hB : AttemptBook g) (h : GraphInserted g g' p)
    (hplaced : ∀ j x, g.attempts.get? j = some x → (g.tasks.get? x.taskId).isSome) :
    AttemptBook g' := by
  have hold : ∀ {k x t'}, g.attempts.get? k = some x → g'.tasks.get? x.taskId = some t' →
      g.tasks.get? x.taskId = some t' := by
    intro k x t' hx ht'
    rcases h.tasks x.taskId with heq | ⟨hn, -⟩
    · rw [← heq, ht']
    · have := hplaced k x hx
      rw [hn] at this
      cases this
  have hnew : ∀ {i t'}, g'.tasks.get? i = some t' → g.tasks.get? i = some t' ∨
      (t'.attemptCount = 0 ∧ t'.status = .pending) := by
    intro i t' ht'
    rcases h.tasks i with heq | ⟨-, t, ht, -, hs, hc⟩
    · exact .inl (heq ▸ ht')
    · rw [ht] at ht'
      cases ht'
      exact .inr ⟨hc, hs⟩
  refine ⟨fun i t' ht' n h1 hn => ?_, fun j x t' hx ht' => ?_, fun j k x y hx hy hi hn => ?_,
    fun i t' ht' hr => ?_, fun j x t' hx ht' hr => ?_, fun j x t' hx ht' hr => ?_⟩
  all_goals rw [h.attempts] at *
  · rcases hnew ht' with ht | ⟨hc, -⟩
    · exact hB.numbered i t' ht n h1 hn
    · omega
  · exact hB.within j x t' hx (hold hx ht')
  · exact hB.distinct j k x y hx hy hi hn
  · rcases hnew ht' with ht | ⟨-, hs⟩
    · exact hB.current i t' ht hr
    · rw [hs] at hr; cases hr
  · exact hB.latest j x t' hx (hold hx ht') hr
  · exact hB.idle j x t' hx (hold hx ht') hr

theorem Graph.Held.inserted {p : PlanId} (hH : g.Held P) (h : GraphInserted g g' p)
    (hplaced : ∀ j x, g.attempts.get? j = some x → (g.tasks.get? x.taskId).isSome)
    (hPQ : ∀ k, P k → Q k) : g'.Held Q := by
  intro k x t' hx ht' hr hn
  rw [h.attempts] at hx
  rcases h.tasks x.taskId with heq | ⟨hnone, -⟩
  · exact hPQ k (hH k x t' hx (heq ▸ ht') hr hn)
  · have := hplaced k x hx
    rw [hnone] at this
    cases this

theorem AttemptBook.deleted {p : PlanId} (hB : AttemptBook g) (h : GraphDeleted g g' p) :
    AttemptBook g' := by
  have hkeep : ∀ {i t j x}, g'.tasks.get? i = some t → g.attempts.get? j = some x → x.taskId = i →
      g'.attempts.get? j = some x := by
    rintro i t j x ht hx rfl
    refine (h.attempts j x).2 ⟨hx, fun u hu => ?_⟩
    obtain ⟨ht, hp⟩ := h.task.1 ht
    rw [ht] at hu
    cases hu
    exact hp
  refine ⟨fun i t ht n h1 hn => ?_, fun j x t hx ht => ?_, fun j k x y hx hy hi hn => ?_,
    fun i t ht hr => ?_, fun j x t hx ht hr => ?_, fun j x t hx ht hr => ?_⟩
  · obtain ⟨j, x, hx, hxi, hxn⟩ := hB.numbered i t (h.task.1 ht).1 n h1 hn
    exact ⟨j, x, hkeep ht hx hxi, hxi, hxn⟩
  · exact hB.within j x t ((h.attempts j x).1 hx).1 (h.task.1 ht).1
  · exact hB.distinct j k x y ((h.attempts j x).1 hx).1 ((h.attempts k y).1 hy).1 hi hn
  · obtain ⟨j, x, hx, hxi, hxn⟩ := hB.current i t (h.task.1 ht).1 hr
    exact ⟨j, x, hkeep ht hx hxi, hxi, hxn⟩
  · exact hB.latest j x t ((h.attempts j x).1 hx).1 (h.task.1 ht).1 hr
  · exact hB.idle j x t ((h.attempts j x).1 hx).1 (h.task.1 ht).1 hr

theorem Graph.Held.deleted {p : PlanId} (hH : g.Held P) (h : GraphDeleted g g' p)
    (hPQ : ∀ k, P k → Q k) : g'.Held Q := fun k x t hx ht hr hn =>
  hPQ k (hH k x t ((h.attempts k x).1 hx).1 (h.task.1 ht).1 hr hn)

end HermesOps
