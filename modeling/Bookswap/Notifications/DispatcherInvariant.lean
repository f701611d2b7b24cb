import Bookswap.Notifications.DispatcherService

/-!
# What the dispatchers keep

A lease token is drawn once, so whoever holds the token of a row is the one worker that claimed
it, at the row's current attempt. While a renewed lease lasts no statement of another worker
meets its condition on the row, so the row keeps the lease's token.

- `RowStep`: what a step can do to one row; `Step.row_kept`, `Step.row_before` cite it.
- `Enters`: the phases a worker can enter, and what is so when it does.
- `Dispatch.Sound`, `dispatchSound`: the invariant of a run.
-/

namespace Bookswap

open Store

/-! ## What steps do to rows -/

namespace WorkerPhase

/-- The claim a worker is at. -/
def job : WorkerPhase → ClaimedDelivery
  | .claimed c | .loaded c | .renewed c _ | .sending c _ | .finishing c _ => c

/-- The end of the lease under which a worker may send. -/
def lease : WorkerPhase → Option Time
  | .renewed _ leaseUntil | .sending _ leaseUntil => some leaseUntil
  | _ => none

/-- The provider has not been called yet. -/
def unsent : WorkerPhase → Bool
  | .claimed _ | .loaded _ | .renewed _ _ => true
  | _ => false

end WorkerPhase

theorem mem_of_claimCandidate {now : Time} {locked : DeliveryId → Bool} {t : Table Delivery.id}
    {d : Delivery} (h : claimCandidate now locked t = some d) : d ∈ t ∧ d.claimable now = true := by
  have hmem : d ∈ t.rows.filter _ := List.argmin_mem h
  obtain ⟨hd, hp⟩ := List.mem_filter.mp hmem
  exact ⟨hd, (Bool.and_eq_true_iff.mp hp).1⟩

theorem Delivery.claimable_iff {now : Time} {d : Delivery} : d.claimable now = true ↔
    d.status = .pending ∧ d.nextAttemptAt ≤ now ∧ d.attempts < MAX_DELIVERY_ATTEMPTS := by
  simp [claimable]

theorem claimCandidate_claimable {now : Time} {locked : DeliveryId → Bool} {t : Table Delivery.id}
    {d : Delivery} (h : claimCandidate now locked t = some d) :
    d.status = .pending ∧ d.nextAttemptAt ≤ now ∧ d.attempts < MAX_DELIVERY_ATTEMPTS :=
  Delivery.claimable_iff.mp (mem_of_claimCandidate h).2

theorem Delivery.reapable_iff {now : Time} {d : Delivery} : d.reapable now = true ↔
    d.status = .pending ∧ MAX_DELIVERY_ATTEMPTS ≤ d.attempts ∧
      ∀ u, d.leaseUntil = some u → u ≤ now := by
  cases h : d.leaseUntil <;> simp [reapable, h]

theorem ClaimedDelivery.fences_iff {c : ClaimedDelivery} {d : Delivery} :
    c.fences d = true ↔ d.id = c.id ∧ d.leaseToken = some c.leaseToken := by
  simp [fences]

theorem ClaimedDelivery.renewable_iff {clock : Time} {c : ClaimedDelivery} {d : Delivery} :
    c.renewable clock d = true ↔ d.id = c.id ∧ d.status = .pending ∧
      d.leaseToken = some c.leaseToken ∧ d.attempts = c.attempts ∧
        ∃ u, d.leaseUntil = some u ∧ clock < u := by
  cases h : d.leaseUntil <;> simp [renewable, h]

/-- What one step can do to one row. -/
inductive RowStep (s : Dispatch) : DispatchOp → Delivery → Delivery → Prop
  | same {op : DispatchOp} {d : Delivery} : RowStep s op d d
  | reaped {now : Time} {d : Delivery} : now ≤ s.clock → d.reapable now = true →
      RowStep s (.reap now) d (reapEdit d)
  | claimed {w : WorkerId} {now : Time} {leaseToken : LeaseToken} {locked : DeliveryId → Bool}
      {d : Delivery} : now ≤ s.clock → leaseToken ∉ s.tokens →
      claimCandidate now locked s.deliveries = some d →
      RowStep s (.claim w now leaseToken locked) d
        (claimEdit leaseToken (now + DELIVERY_LEASE_MS) d)
  | renewed {w : WorkerId} {c : ClaimedDelivery} {d : Delivery} :
      s.workers w = some (.loaded c) → c.renewable s.clock d = true →
      RowStep s (.renew w) d (renewEdit (s.clock + DELIVERY_LEASE_MS) d)
  | finished {w : WorkerId} {c : ClaimedDelivery} {outcome : AttemptOutcome} {completedAt : Time}
      {d : Delivery} : s.workers w = some (.finishing c outcome) → c.fences d = true →
      RowStep s (.finish w completedAt) d (finishEdit completedAt c outcome d)

section Finish

variable (completedAt : Time) (c : ClaimedDelivery) (outcome : AttemptOutcome) (d : Delivery)

@[simp] theorem finishEdit_leaseToken : (finishEdit completedAt c outcome d).leaseToken = none := by
  cases h : outcome.failure
  · simp [finishEdit, h]
  · simp only [finishEdit, h]
    split <;> rfl

@[simp] theorem finishEdit_attempts :
    (finishEdit completedAt c outcome d).attempts = d.attempts := by
  cases h : outcome.failure
  · simp [finishEdit, h]
  · simp only [finishEdit, h]
    split <;> rfl

end Finish

namespace RowStep

variable {s : Dispatch} {op : DispatchOp} {d d' : Delivery}

theorem attempts_le (h : RowStep s op d d') : d.attempts ≤ d'.attempts := by
  cases h with
  | claimed => exact Nat.le_succ _
  | finished => rw [finishEdit_attempts]
  | _ => exact le_refl d.attempts

theorem attempts_max (h : RowStep s op d d') (hd : d.attempts ≤ MAX_DELIVERY_ATTEMPTS) :
    d'.attempts ≤ MAX_DELIVERY_ATTEMPTS := by
  cases h with
  | claimed _ _ hp => exact (claimCandidate_claimable hp).2.2
  | finished => rwa [finishEdit_attempts]
  | _ => exact hd

/-- **A row with a result, and so without a token, is left alone.** -/
theorem final (h : RowStep s op d d') (hd : d.status ≠ .pending → d.leaseToken = none)
    (hs : d.status ≠ .pending) : d' = d := by
  cases h with
  | same => rfl
  | reaped _ hp => exact absurd (Delivery.reapable_iff.mp hp).1 hs
  | claimed _ _ hp => exact absurd (claimCandidate_claimable hp).1 hs
  | renewed _ hp => exact absurd (ClaimedDelivery.renewable_iff.mp hp).2.1 hs
  | finished _ hp =>
    have ht := (ClaimedDelivery.fences_iff.mp hp).2
    rw [hd hs] at ht
    cases ht

/-- A token that was drawn before is on the row only where it was, at the same attempt. -/
theorem token (h : RowStep s op d d') {t : LeaseToken} (ht : d'.leaseToken = some t)
    (hdrawn : t ∈ s.tokens) : d.leaseToken = some t ∧ d'.attempts = d.attempts := by
  cases h with
  | same | renewed => exact ⟨ht, rfl⟩
  | reaped => cases ht
  | claimed _ hfresh => exact absurd ((Option.some.inj ht).symm ▸ hdrawn) hfresh
  | finished =>
    rw [finishEdit_leaseToken] at ht
    cases ht

/-- While a row has a token, its lease ends when its next attempt is due. -/
theorem due (h : RowStep s op d d') (hd : d.leaseToken ≠ none → d.leaseUntil = some d.nextAttemptAt)
    (ht : d'.leaseToken ≠ none) : d'.leaseUntil = some d'.nextAttemptAt := by
  cases h with
  | same => exact hd ht
  | reaped => exact absurd rfl ht
  | claimed | renewed => rfl
  | finished => exact absurd (finishEdit_leaseToken ..) ht

theorem final_token (h : RowStep s op d d') (hd : d.status ≠ .pending → d.leaseToken = none)
    (hs : d'.status ≠ .pending) : d'.leaseToken = none := by
  cases h with
  | same => exact hd hs
  | reaped => rfl
  | claimed _ _ hp => exact absurd (claimCandidate_claimable hp).1 hs
  | renewed _ hp => exact absurd (ClaimedDelivery.renewable_iff.mp hp).2.1 hs
  | finished => exact finishEdit_leaseToken ..

end RowStep

namespace Dispatch

variable {s s' : Dispatch} {op : DispatchOp}

@[simp] theorem moveOn_deliveries (w : WorkerId) (p : Option WorkerPhase) :
    (s.moveOn w p).deliveries = s.deliveries := rfl
@[simp] theorem moveOn_clock (w : WorkerId) (p : Option WorkerPhase) :
    (s.moveOn w p).clock = s.clock := rfl
@[simp] theorem moveOn_tokens (w : WorkerId) (p : Option WorkerPhase) :
    (s.moveOn w p).tokens = s.tokens := rfl
@[simp] theorem moveOn_calls (w : WorkerId) (p : Option WorkerPhase) :
    (s.moveOn w p).calls = s.calls := rfl

/-- A conditional update takes every row through a step. -/
theorem rowStep_updateWhere {p : Delivery → Bool} {f : Table.Edit Delivery.id}
    (hp : ∀ d ∈ s.deliveries, p d = true → RowStep s op d (f d)) (d : Delivery)
    (hd : d ∈ s.deliveries) : RowStep s op d (if p d then f d else d) := by
  by_cases h : p d = true
  · rw [if_pos h]
    exact hp d hd h
  · rw [if_neg h]
    exact .same

/-- **The rows after a step**: a new one, or the rows before it, each taken through one step. -/
theorem Step.rows (h : Step s op s') :
    (∃ id notificationId channel now, op = .enqueue id notificationId channel now ∧
        s.deliveries.insert (newDelivery id notificationId channel now) = some s'.deliveries) ∨
      ∃ f : Delivery → Delivery, (∀ d, (f d).id = d.id) ∧
        s'.deliveries.rows = s.deliveries.rows.map f ∧
          ∀ d ∈ s.deliveries, RowStep s op d (f d) := by
  have hsame : s'.deliveries = s.deliveries → ∃ f : Delivery → Delivery, (∀ d, (f d).id = d.id) ∧
      s'.deliveries.rows = s.deliveries.rows.map f ∧ ∀ d ∈ s.deliveries, RowStep s op d (f d) :=
    fun heq => ⟨id, fun _ => rfl, by rw [heq, List.map_id], fun _ _ => .same⟩
  have hedit : ∀ (p : Delivery → Bool) (f : Table.Edit Delivery.id),
      s'.deliveries = s.deliveries.updateWhere p f →
        (∀ d ∈ s.deliveries, p d = true → RowStep s op d (f d)) →
          ∃ f : Delivery → Delivery, (∀ d, (f d).id = d.id) ∧
            s'.deliveries.rows = s.deliveries.rows.map f ∧
              ∀ d ∈ s.deliveries, RowStep s op d (f d) := by
    intro p f heq hp
    exact ⟨Table.Edit.only p f, (Table.Edit.only p f).keeps, by rw [heq]; rfl,
      rowStep_updateWhere hp⟩
  cases h with
  | enqueue _ hins => exact Or.inl ⟨_, _, _, _, rfl, hins⟩
  | reap hnow => exact Or.inr (hedit _ reapEdit rfl fun d _ hp => .reaped hnow hp)
  | @claim w now leaseToken locked hfree hnow hfresh =>
    refine Or.inr ?_
    cases hc : claimCandidate now locked s.deliveries with
    | none => exact hsame (by simp [Bookswap.claim, hc])
    | some d₀ =>
      have hd₀ := (mem_of_claimCandidate hc).1
      refine hedit (fun d => d.id = d₀.id) (claimEdit leaseToken (now + DELIVERY_LEASE_MS))
        (by simp [Bookswap.claim, hc, Table.modify]) fun d hd hid => ?_
      rw [Table.eq_of_key_eq hd hd₀ (of_decide_eq_true hid)]
      exact .claimed hnow hfresh hc
  | renew hw => exact Or.inr (hedit _ _ rfl fun d _ hp => .renewed hw hp)
  | finish hw _ => exact Or.inr (hedit _ _ rfl fun d _ hp => .finished hw hp)
  | wait | load | send | answer | crash => exact Or.inr (hsame rfl)

/-- What becomes of a row. -/
theorem Step.row_kept (h : Step s op s') {d : Delivery} (hd : d ∈ s.deliveries) :
    ∃ d' ∈ s'.deliveries, d'.id = d.id ∧ RowStep s op d d' := by
  rcases h.rows with ⟨_, _, _, _, rfl, hins⟩ | ⟨f, hid, hrows, hstep⟩
  · exact ⟨d, (Table.mem_insert hins).mpr (Or.inl hd), rfl, .same⟩
  · refine ⟨f d, ?_, hid d, hstep d hd⟩
    rw [Table.mem_def, hrows]
    exact List.mem_map_of_mem hd

/-- Where a row comes from. -/
theorem Step.row_before (h : Step s op s') {d' : Delivery} (hd' : d' ∈ s'.deliveries) :
    (∃ d ∈ s.deliveries, d'.id = d.id ∧ RowStep s op d d') ∨
      (∀ d ∈ s.deliveries, d.id ≠ d'.id) ∧
        ∃ id notificationId channel now, d' = newDelivery id notificationId channel now := by
  rcases h.rows with ⟨id, n, channel, now, rfl, hins⟩ | ⟨f, hid, hrows, hstep⟩
  · rcases (Table.mem_insert hins).mp hd' with hd | rfl
    · exact Or.inl ⟨d', hd, rfl, .same⟩
    · exact Or.inr ⟨Table.fresh_of_insert hins, id, n, channel, now, rfl⟩
  · rw [Table.mem_def, hrows] at hd'
    obtain ⟨d, hd, rfl⟩ := List.mem_map.mp hd'
    exact Or.inl ⟨d, hd, hid d, hstep d hd⟩

/-! ## What steps do to workers -/

/-- The phases a worker can enter, and what is so when it does. -/
inductive Enters (s s' : Dispatch) : DispatchOp → WorkerId → WorkerPhase → Prop
  /-- It has claimed a row, under a token that nobody drew before. -/
  | claimed {w : WorkerId} {now : Time} {leaseToken : LeaseToken} {locked : DeliveryId → Bool}
      {d : Delivery} : claimCandidate now locked s.deliveries = some d → leaseToken ∉ s.tokens →
      claimEdit leaseToken (now + DELIVERY_LEASE_MS) d ∈ s'.deliveries →
      Enters s s' (.claim w now leaseToken locked) w
        (.claimed ⟨d.id, d.notificationId, d.channel, d.attempts + 1, leaseToken⟩)
  /-- It has renewed its lease on the row. -/
  | renewed {op : DispatchOp} {w : WorkerId} {c : ClaimedDelivery} {d : Delivery} :
      s.workers w = some (.loaded c) → d ∈ s.deliveries → c.renewable s.clock d = true →
      s'.clock = s.clock → renewEdit (s.clock + DELIVERY_LEASE_MS) d ∈ s'.deliveries →
      Enters s s' op w (.renewed c (s.clock + DELIVERY_LEASE_MS))
  /-- It goes on with its claim, and the table stays as it is. -/
  | moved {op : DispatchOp} {w : WorkerId} {p q : WorkerPhase} : s.workers w = some p →
      q.job = p.job → (∀ u, q.lease = some u → p.lease = some u) →
      (q.unsent = true → p.unsent = true) → s'.deliveries = s.deliveries → s'.clock = s.clock →
      Enters s s' op w q

/-- **A step moves at most one worker, into a phase it may enter.** -/
theorem Step.workers (h : Step s op s') :
    s'.workers = s.workers ∨ ∃ w p, s'.workers = Function.update s.workers w p ∧
      ∀ q, p = some q → s.Enters s' op w q := by
  cases h with
  | enqueue | wait | reap => exact Or.inl rfl
  | @claim w now leaseToken locked hfree hnow hfresh =>
    refine Or.inr ⟨w, _, rfl, fun q hq => ?_⟩
    cases hc : claimCandidate now locked s.deliveries with
    | none => simp [Bookswap.claim, hc] at hq
    | some d =>
      have hd := (mem_of_claimCandidate hc).1
      simp only [Bookswap.claim, hc, Option.map_some, Option.some.injEq] at hq
      rw [← hq]
      have hrow : claimEdit leaseToken (now + DELIVERY_LEASE_MS) d ∈
          (Bookswap.claim now leaseToken locked s.deliveries).1 := by
        simp only [Bookswap.claim, hc]
        exact Table.mem_modify.mpr ⟨d, hd, if_pos rfl⟩
      exact .claimed hc hfresh hrow
  | @load w c result hw =>
    refine Or.inr ⟨w, _, rfl, fun q hq => ?_⟩
    rw [← Option.some.inj hq]
    cases result.outcome c.channel with
    | none => exact .moved hw rfl (fun _ h => nomatch h) (fun _ => rfl) rfl rfl
    | some outcome => exact .moved hw rfl (fun _ h => nomatch h) (fun _ => rfl) rfl rfl
  | @renew w c hw =>
    refine Or.inr ⟨w, _, rfl, fun q hq => ?_⟩
    split at hq
    · cases hq
    next hcount =>
      rw [← Option.some.inj hq]
      have hpos : 0 < s.deliveries.rows.countP (c.renewable s.clock) := Nat.pos_of_ne_zero hcount
      obtain ⟨d, hd, hp⟩ := List.countP_pos_iff.mp hpos
      exact .renewed hw hd hp rfl (Table.mem_updateWhere.mpr ⟨d, hd, if_pos hp⟩)
  | @send w c leaseUntil hw =>
    refine Or.inr ⟨w, _, rfl, fun q hq => ?_⟩
    rw [← Option.some.inj hq]
    exact .moved hw rfl (fun _ h => h) (fun h => nomatch h) rfl rfl
  | @answer w c leaseUntil failure hw =>
    refine Or.inr ⟨w, _, rfl, fun q hq => ?_⟩
    rw [← Option.some.inj hq]
    exact .moved hw rfl (fun _ h => nomatch h) (fun h => nomatch h) rfl rfl
  | @finish w => exact Or.inr ⟨w, none, rfl, fun q hq => nomatch hq⟩
  | @crash w => exact Or.inr ⟨w, none, rfl, fun q hq => nomatch hq⟩

/-- A worker's phase after a step: it was in it, or it has just entered it. -/
theorem Step.phase (h : Step s op s') {w : WorkerId} {p : WorkerPhase}
    (hw : s'.workers w = some p) : s.workers w = some p ∨ s.Enters s' op w p := by
  rcases h.workers with hsame | ⟨w₀, p₀, hupd, henter⟩
  · exact Or.inl (hsame ▸ hw)
  · rw [hupd, Function.update_apply] at hw
    split at hw
    next heq =>
      rw [heq]
      exact Or.inr (henter p hw)
    · exact Or.inl hw

theorem Step.tokens (h : Step s op s') : ∀ t ∈ s.tokens, t ∈ s'.tokens := by
  cases h with
  | claim => exact fun t ht => List.mem_cons_of_mem _ ht
  | _ => exact fun t ht => ht

theorem Step.clock (h : Step s op s') : s.clock ≤ s'.clock := by
  cases h with
  | wait hle => exact hle
  | _ => exact le_refl s.clock

/-- The provider is called by a worker that has just renewed its lease. -/
theorem Step.calls (h : Step s op s') : s'.calls = s.calls ∨
    ∃ w c u, s.workers w = some (.renewed c u) ∧ s'.workers w = some (.sending c u) ∧
      s'.calls = ⟨c.id, c.attempts⟩ :: s.calls := by
  cases h with
  | send hw => exact Or.inr ⟨_, _, _, hw, Function.update_self .., rfl⟩
  | _ => exact Or.inl rfl

/-! ## The invariant -/

/-- What a claim knows of the rows: the token is drawn, the attempt is not ahead of the row, and
whoever finds the token on a row finds this claim's attempt. -/
structure Holds (s : Dispatch) (c : ClaimedDelivery) : Prop where
  drawn : c.leaseToken ∈ s.tokens
  positive : 1 ≤ c.attempts
  reached : ∃ d ∈ s.deliveries, d.id = c.id ∧ c.attempts ≤ d.attempts
  current : ∀ d ∈ s.deliveries, d.leaseToken = some c.leaseToken →
    d.id = c.id ∧ d.attempts = c.attempts

/-- The invariant of the dispatchers. -/
structure Sound (s : Dispatch) : Prop where
  attempts : ∀ d ∈ s.deliveries, d.attempts ≤ MAX_DELIVERY_ATTEMPTS
  final : ∀ d ∈ s.deliveries, d.status ≠ .pending → d.leaseToken = none
  due : ∀ d ∈ s.deliveries, d.leaseToken ≠ none → d.leaseUntil = some d.nextAttemptAt
  drawn : ∀ d ∈ s.deliveries, ∀ t, d.leaseToken = some t → t ∈ s.tokens
  holds : ∀ w p, s.workers w = some p → s.Holds p.job
  distinct : ∀ w w' p p', s.workers w = some p → s.workers w' = some p' → w ≠ w' →
    p.job.leaseToken ≠ p'.job.leaseToken ∧ (p.job.id = p'.job.id → p.job.attempts ≠ p'.job.attempts)
  leased : ∀ w p u, s.workers w = some p → p.lease = some u → s.clock < u →
    ∃ d ∈ s.deliveries, d.leaseToken = some p.job.leaseToken ∧ d.leaseUntil = some u
  called : ∀ x ∈ s.calls, 1 ≤ x.attempts ∧ ∃ d ∈ s.deliveries, d.id = x.id ∧ x.attempts ≤ d.attempts
  calledOnce : s.calls.Nodup
  unsent : ∀ w p, s.workers w = some p → p.unsent = true →
    (⟨p.job.id, p.job.attempts⟩ : ProviderCall) ∉ s.calls

variable {w : WorkerId} {d d' : Delivery} {c : ClaimedDelivery}

/-! ## Steps keep it -/

theorem Step.token_drawn {now : Time} {t : LeaseToken} {locked : DeliveryId → Bool}
    (h : Step s (.claim w now t locked) s') : t ∈ s'.tokens := by
  cases h
  exact List.mem_cons_self

/-- Every row stays, at its attempt or at a later one. -/
theorem Step.reached (h : Step s op s') {id : DeliveryId} {n : Nat}
    (hd : ∃ d ∈ s.deliveries, d.id = id ∧ n ≤ d.attempts) :
    ∃ d ∈ s'.deliveries, d.id = id ∧ n ≤ d.attempts := by
  obtain ⟨d, hd, rfl, hn⟩ := hd
  obtain ⟨d', hd', hid, hrow⟩ := h.row_kept hd
  exact ⟨d', hd', hid, hn.trans hrow.attempts_le⟩

/-- A claim knows after a step what it knew before. -/
theorem Holds.step (hc : s.Holds c) (h : Step s op s') : s'.Holds c where
  drawn := h.tokens _ hc.drawn
  positive := hc.positive
  reached := h.reached hc.reached
  current := by
    intro d' hd' ht
    rcases h.row_before hd' with ⟨d, hd, hid, hrow⟩ | ⟨-, _, _, _, _, rfl⟩
    · obtain ⟨htoken, hattempts⟩ := hrow.token ht hc.drawn
      obtain ⟨hcid, hcattempts⟩ := hc.current d hd htoken
      exact ⟨hid.trans hcid, hattempts.trans hcattempts⟩
    · cases ht

/-- The row of a live lease keeps its token: no other worker's statement meets its condition. -/
theorem Sound.leased_step (hs : s.Sound) (h : Step s op s') {p : WorkerPhase} {u : Time}
    (hw : s.workers w = some p) (hl : p.lease = some u) (hlive : s.clock < u) :
    ∃ d ∈ s'.deliveries, d.leaseToken = some p.job.leaseToken ∧ d.leaseUntil = some u := by
  obtain ⟨d, hd, htoken, huntil⟩ := hs.leased w p u hw hl hlive
  have hdue : d.nextAttemptAt = u := by
    have h := hs.due d hd (by rw [htoken]; exact Option.some_ne_none _)
    rw [huntil] at h
    exact (Option.some.inj h).symm
  -- a worker that meets the token of the row is the holder of the lease
  have hsole : ∀ w' p', s.workers w' = some p' → d.leaseToken = some p'.job.leaseToken → p' = p := by
    intro w' p' hw' ht
    by_cases hww : w' = w
    · rw [hww, hw] at hw'
      exact (Option.some.inj hw').symm
    · rw [htoken] at ht
      exact absurd (Option.some.inj ht).symm (hs.distinct w' w p' p hw' hw hww).1
  obtain ⟨d', hd', -, hrow⟩ := h.row_kept hd
  cases hrow with
  | same => exact ⟨d, hd', htoken, huntil⟩
  | reaped hnow hp =>
    have hle := (Delivery.reapable_iff.mp hp).2.2 u huntil
    exact absurd (lt_of_le_of_lt (hle.trans hnow) hlive) (lt_irrefl u)
  | claimed hnow _ hp =>
    have hle := (claimCandidate_claimable hp).2.1
    rw [hdue] at hle
    exact absurd (lt_of_le_of_lt (hle.trans hnow) hlive) (lt_irrefl u)
  | renewed hw' hp =>
    have hp := hsole _ _ hw' (ClaimedDelivery.renewable_iff.mp hp).2.2.1
    rw [← hp] at hl
    cases hl
  | finished hw' hp =>
    have hp := hsole _ _ hw' (ClaimedDelivery.fences_iff.mp hp).2
    rw [← hp] at hl
    cases hl

/-- What a worker holds when it enters a phase. -/
theorem Sound.holds_enter (hs : s.Sound) (h : Step s op s') {p : WorkerPhase}
    (he : s.Enters s' op w p) : s'.Holds p.job := by
  cases he with
  | @claimed _ now leaseToken locked d hc hfresh hrow =>
    refine ⟨h.token_drawn, Nat.succ_pos _, ⟨_, hrow, rfl, le_refl _⟩, fun d' hd' ht => ?_⟩
    rcases h.row_before hd' with ⟨d₀, hd₀, -, hstep⟩ | ⟨-, _, _, _, _, rfl⟩
    · cases hstep with
      | same => exact absurd (hs.drawn _ hd₀ _ ht) hfresh
      | claimed _ _ hc' =>
        rw [hc] at hc'
        obtain rfl := Option.some.inj hc'
        exact ⟨rfl, rfl⟩
    · cases ht
  | renewed hw => exact (hs.holds _ _ hw).step h
  | moved hw hjob =>
    rw [hjob]
    exact (hs.holds _ _ hw).step h

/-- A worker that enters a phase has a token and an attempt of its own. -/
theorem Sound.distinct_enter (hs : s.Sound) {p : WorkerPhase} (he : s.Enters s' op w p)
    {w' : WorkerId} {p' : WorkerPhase} (hw' : s.workers w' = some p') (hww : w ≠ w') :
    p.job.leaseToken ≠ p'.job.leaseToken ∧
      (p.job.id = p'.job.id → p.job.attempts ≠ p'.job.attempts) := by
  cases he with
  | @claimed _ now leaseToken locked d hc hfresh hrow =>
    have hheld := hs.holds w' p' hw'
    refine ⟨fun ht => hfresh ?_, fun hid hn => ?_⟩
    · rw [show leaseToken = p'.job.leaseToken from ht]
      exact hheld.drawn
    -- no claim is ahead of its row
    obtain ⟨d₀, hd₀, hid₀, hle⟩ := hheld.reached
    obtain rfl := Table.eq_of_key_eq hd₀ (mem_of_claimCandidate hc).1 (hid₀.trans hid.symm)
    have hn : d₀.attempts + 1 = p'.job.attempts := hn
    omega
  | renewed hw => exact hs.distinct w w' (.loaded _) p' hw hw' hww
  | moved hw hjob =>
    rw [hjob]
    exact hs.distinct w w' _ p' hw hw' hww

theorem Sound.distinct_step (hs : s.Sound) (h : Step s op s') {w w' : WorkerId}
    {p p' : WorkerPhase} (hw : s'.workers w = some p) (hw' : s'.workers w' = some p')
    (hww : w ≠ w') : p.job.leaseToken ≠ p'.job.leaseToken ∧
      (p.job.id = p'.job.id → p.job.attempts ≠ p'.job.attempts) := by
  rcases h.workers with hsame | ⟨w₀, p₀, hupd, henter⟩
  · rw [hsame] at hw hw'
    exact hs.distinct w w' p p' hw hw' hww
  · rw [hupd, Function.update_apply] at hw hw'
    split at hw
    next heq =>
      rw [if_neg (fun h => hww (heq.trans h.symm))] at hw'
      exact hs.distinct_enter (heq ▸ henter p hw) hw' hww
    · split at hw'
      next heq =>
        obtain ⟨ht, hn⟩ := hs.distinct_enter (heq ▸ henter p' hw') hw (Ne.symm hww)
        exact ⟨ht.symm, fun hid => (hn hid.symm).symm⟩
      · exact hs.distinct w w' p p' hw hw' hww

theorem Sound.step (hs : s.Sound) (h : Step s op s') : s'.Sound where
  attempts := by
    intro d' hd'
    rcases h.row_before hd' with ⟨d, hd, -, hrow⟩ | ⟨-, _, _, _, _, rfl⟩
    · exact hrow.attempts_max (hs.attempts d hd)
    · exact Nat.zero_le _
  final := by
    intro d' hd' hfin
    rcases h.row_before hd' with ⟨d, hd, -, hrow⟩ | ⟨-, _, _, _, _, rfl⟩
    · exact hrow.final_token (hs.final d hd) hfin
    · rfl
  due := by
    intro d' hd' ht
    rcases h.row_before hd' with ⟨d, hd, -, hrow⟩ | ⟨-, _, _, _, _, rfl⟩
    · exact hrow.due (hs.due d hd) ht
    · exact absurd rfl ht
  drawn := by
    intro d' hd' t ht
    rcases h.row_before hd' with ⟨d, hd, -, hrow⟩ | ⟨-, _, _, _, _, rfl⟩
    · cases hrow with
      | same | renewed => exact h.tokens t (hs.drawn _ hd t ht)
      | reaped => cases ht
      | claimed =>
        obtain rfl := Option.some.inj ht
        exact h.token_drawn
      | finished =>
        rw [finishEdit_leaseToken] at ht
        cases ht
    · cases ht
  holds := by
    intro w p hw
    rcases h.phase hw with hw₀ | he
    · exact (hs.holds w p hw₀).step h
    · exact hs.holds_enter h he
  distinct _ _ _ _ hw hw' hww := hs.distinct_step h hw hw' hww
  leased := by
    intro w p u hw hl hlive
    rcases h.phase hw with hw₀ | he
    · exact hs.leased_step h hw₀ hl (lt_of_le_of_lt h.clock hlive)
    · cases he with
      | claimed => cases hl
      | renewed _ _ hren _ hrow =>
        obtain rfl := Option.some.inj hl
        exact ⟨_, hrow, (ClaimedDelivery.renewable_iff.mp hren).2.2.1, rfl⟩
      | moved hw₀ hjob hlease _ hdel hclock =>
        rw [hjob, hdel]
        exact hs.leased w _ u hw₀ (hlease u hl) (hclock ▸ hlive)
  called := by
    intro x hx
    rcases h.calls with hsame | ⟨w, c, u, hw, -, hcons⟩
    · rw [hsame] at hx
      exact ⟨(hs.called x hx).1, h.reached (hs.called x hx).2⟩
    · rw [hcons] at hx
      rcases List.mem_cons.mp hx with rfl | hx
      · have hheld := hs.holds w _ hw
        exact ⟨hheld.positive, h.reached hheld.reached⟩
      · exact ⟨(hs.called x hx).1, h.reached (hs.called x hx).2⟩
  calledOnce := by
    rcases h.calls with hsame | ⟨w, c, u, hw, -, hcons⟩
    · rw [hsame]
      exact hs.calledOnce
    · rw [hcons]
      exact List.nodup_cons.mpr ⟨hs.unsent w _ hw rfl, hs.calledOnce⟩
  unsent := by
    intro w p hw hu hmem
    have hold : (⟨p.job.id, p.job.attempts⟩ : ProviderCall) ∉ s.calls := by
      rcases h.phase hw with hw₀ | he
      · exact hs.unsent w p hw₀ hu
      · cases he with
        | @claimed _ now leaseToken locked d hc =>
          -- every earlier call is at an attempt that the row has reached
          intro hx
          obtain ⟨-, d₀, hd₀, hid₀, hle⟩ := hs.called _ hx
          obtain rfl := Table.eq_of_key_eq hd₀ (mem_of_claimCandidate hc).1 hid₀
          simp only [WorkerPhase.job] at hle
          omega
        | renewed hw₀ => exact hs.unsent w (.loaded _) hw₀ rfl
        | moved hw₀ hjob _ hun =>
          rw [hjob]
          exact hs.unsent w _ hw₀ (hun hu)
    rcases h.calls with hsame | ⟨w₀, c, u, hw₀, hw₀', hcons⟩
    · rw [hsame] at hmem
      exact hold hmem
    · rw [hcons] at hmem
      rcases List.mem_cons.mp hmem with heq | hmem
      · -- the call of this step is another worker's, and so of another attempt
        obtain ⟨hid, hn⟩ := ProviderCall.mk.inj heq
        by_cases hww : w = w₀
        · rw [hww, hw₀'] at hw
          obtain rfl := Option.some.inj hw
          cases hu
        · exact (hs.distinct_step h hw hw₀' hww).2 hid hn
      · exact hold hmem

end Dispatch

/-- **In every reachable state the queue is sound.** -/
theorem dispatchSound {s : Dispatch} (hr : dispatcher.Reachable s) : s.Sound := by
  refine hr.invariant (fun s hi => ?_) fun s op s' _ h hs => h.step hs
  have hnone : ∀ d, d ∉ s.deliveries := by
    rw [hi.no_deliveries]
    exact fun d => Table.not_mem_empty
  have hidle : ∀ w p, s.workers w ≠ some p := fun w p hw => by
    rw [hi.no_workers] at hw
    cases hw
  have huncalled : ∀ x, x ∉ s.calls := by
    rw [hi.no_calls]
    exact fun x => List.not_mem_nil
  exact {
    attempts := fun d hd => absurd hd (hnone d)
    final := fun d hd => absurd hd (hnone d)
    due := fun d hd => absurd hd (hnone d)
    drawn := fun d hd => absurd hd (hnone d)
    holds := fun w p hw => absurd hw (hidle w p)
    distinct := fun w _ p _ hw => absurd hw (hidle w p)
    leased := fun w p _ hw => absurd hw (hidle w p)
    called := fun x hx => absurd hx (huncalled x)
    calledOnce := by rw [hi.no_calls]; exact List.nodup_nil
    unsent := fun w p hw => absurd hw (hidle w p) }

end Bookswap
