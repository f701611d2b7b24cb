import Bookswap.Notifications.DispatcherInvariant
import Mathlib.Data.List.Perm.Subperm

/-!
# Deliveries are safe and none is stuck

Two workers in live leases never send one delivery. A worker that stalls inside `send` beyond its
lease is still sending when the next one has claimed the row and renewed a lease of its own; the
fencing token then keeps its result out of the table, not its letter out of the world.

- `Dispatch.DeliverySafe`, `delivery_safe`: what every reachable state of the queue guarantees.
- `stalled_sender`: two workers at one delivery.
-/

namespace Bookswap

open Store

/-- What a delivery says of its outcome. -/
def Delivery.result (d : Delivery) : DeliveryStatus × Option Time × Option String :=
  (d.status, d.sentAt, d.error)

namespace Dispatch

/-- The step is the result of a worker that holds the row's token. -/
def WritesFenced (s : Dispatch) (op : DispatchOp) (d : Delivery) : Prop :=
  ∃ w completedAt c outcome, op = .finish w completedAt ∧
    s.workers w = some (.finishing c outcome) ∧ c.id = d.id ∧ d.leaseToken = some c.leaseToken

/-- The step reaps a row whose attempts are used up and whose lease, if any, is over. -/
def Reaps (op : DispatchOp) (d : Delivery) : Prop :=
  ∃ now, op = .reap now ∧ d.status = .pending ∧ MAX_DELIVERY_ATTEMPTS ≤ d.attempts ∧
    ∀ u, d.leaseUntil = some u → u ≤ now

/-- What the queue guarantees. -/
structure DeliverySafe (s : Dispatch) : Prop where
  final : ∀ s', dispatcher.Leads s s' → ∀ d ∈ s.deliveries, d.status ≠ .pending → d ∈ s'.deliveries
  attempts : ∀ d ∈ s.deliveries, d.attempts ≤ MAX_DELIVERY_ATTEMPTS
  calls : ∀ id, (s.calls.filter fun x => x.id = id).length ≤ MAX_DELIVERY_ATTEMPTS
  fenced : ∀ op s', dispatcher.step s op s' → ∀ d ∈ s.deliveries, ∀ d' ∈ s'.deliveries,
    d'.id = d.id → d'.result ≠ d.result → s.WritesFenced op d ∨ Reaps op d
  /-- Of two workers that have renewed their lease on one row, one is past its lease. -/
  sole : ∀ w w' p p' u u', s.workers w = some p → s.workers w' = some p' → p.job.id = p'.job.id →
    p.lease = some u → p'.lease = some u' → s.clock < u → s.clock < u' → w = w'
  progress : ∀ d ∈ s.deliveries, d.status = .pending → ∀ now, d.nextAttemptAt ≤ now →
    (∀ u, d.leaseUntil = some u → u ≤ now) →
      (∀ leaseToken, ∃ locked c,
        (claim now leaseToken locked s.deliveries).2 = some c ∧ c.id = d.id) ∨
      ∃ d' ∈ reap now s.deliveries, d'.id = d.id ∧ d'.status = .failed

variable {s s' : Dispatch} {op : DispatchOp} {d d' : Delivery}

theorem Sound.final_step (hs : s.Sound) (h : Step s op s') (hd : d ∈ s.deliveries)
    (hfin : d.status ≠ .pending) : d ∈ s'.deliveries := by
  obtain ⟨d', hd', -, hrow⟩ := h.row_kept hd
  rwa [← hrow.final (hs.final d hd) hfin]

/-- The calls for one delivery are at different attempts, none beyond the last. -/
theorem Sound.calls_le (hs : s.Sound) (id : DeliveryId) :
    (s.calls.filter fun x => x.id = id).length ≤ MAX_DELIVERY_ATTEMPTS := by
  have hmem : ∀ x ∈ s.calls.filter fun x => x.id = id, x ∈ s.calls ∧ x.id = id := fun x hx => by
    simpa using List.mem_filter.mp hx
  have hnodup : ((s.calls.filter fun x => x.id = id).map ProviderCall.attempts).Nodup := by
    refine (hs.calledOnce.filter _).map_on fun x hx y hy hn => ?_
    have hid : x.id = y.id := (hmem x hx).2.trans (hmem y hy).2.symm
    cases x
    cases y
    simp_all
  have hsub : (s.calls.filter fun x => x.id = id).map ProviderCall.attempts ⊆
      List.range' 1 MAX_DELIVERY_ATTEMPTS := by
    intro n hn
    obtain ⟨x, hx, rfl⟩ := List.mem_map.mp hn
    obtain ⟨hpos, d, hd, -, hle⟩ := hs.called x (hmem x hx).1
    have hmax := hs.attempts d hd
    rw [List.mem_range'_1]
    omega
  have hlen := (hnodup.subperm hsub).length_le
  rwa [List.length_map, List.length_range'] at hlen

/-- A result is written over the row's token, or by `reap`. -/
theorem Sound.fenced_step (h : Step s op s') (hd : d ∈ s.deliveries)
    (hd' : d' ∈ s'.deliveries) (hid : d'.id = d.id) (hne : d'.result ≠ d.result) :
    s.WritesFenced op d ∨ Reaps op d := by
  obtain ⟨d₁, hd₁, hid₁, hrow⟩ := h.row_kept hd
  obtain rfl := Table.eq_of_key_eq hd' hd₁ (hid.trans hid₁.symm)
  cases hrow with
  | same | claimed | renewed => exact absurd rfl hne
  | reaped _ hp => exact Or.inr ⟨_, rfl, Delivery.reapable_iff.mp hp⟩
  | finished hw hp =>
    obtain ⟨hcid, ht⟩ := ClaimedDelivery.fences_iff.mp hp
    exact Or.inl ⟨_, _, _, _, rfl, hw, hcid.symm, ht⟩

/-- Two live leases on one row are one lease. -/
theorem Sound.sole (hs : s.Sound) {w w' : WorkerId} {p p' : WorkerPhase} {u u' : Time}
    (hw : s.workers w = some p) (hw' : s.workers w' = some p') (hid : p.job.id = p'.job.id)
    (hl : p.lease = some u) (hl' : p'.lease = some u') (hlive : s.clock < u)
    (hlive' : s.clock < u') : w = w' := by
  obtain ⟨d, hd, ht, -⟩ := hs.leased w p u hw hl hlive
  obtain ⟨d', hd', ht', -⟩ := hs.leased w' p' u' hw' hl' hlive'
  have hdid := ((hs.holds w p hw).current d hd ht).1
  have hdid' := ((hs.holds w' p' hw').current d' hd' ht').1
  obtain rfl := Table.eq_of_key_eq hd hd' (hdid.trans (hid.trans hdid'.symm))
  by_contra hne
  rw [ht] at ht'
  exact (hs.distinct w w' p p' hw hw' hne).1 (Option.some.inj ht')

/-- A claimable row is what a claim takes when the other rows are locked. -/
theorem claim_of_claimable {t : Table Delivery.id} {now : Time} (hd : d ∈ t)
    (hp : d.claimable now = true) (leaseToken : LeaseToken) :
    ∃ locked c, (claim now leaseToken locked t).2 = some c ∧ c.id = d.id := by
  have hcand : ∃ d₀, claimCandidate now (fun id => id ≠ d.id) t = some d₀ := by
    rw [← Option.isSome_iff_exists, Option.isSome_iff_ne_none]
    intro hnone
    have hmem : d ∈ t.rows.filter fun d₀ => d₀.claimable now && !decide (d₀.id ≠ d.id) :=
      List.mem_filter.mpr ⟨hd, by simp [hp]⟩
    rw [List.argmin_eq_none.mp hnone] at hmem
    cases hmem
  obtain ⟨d₀, hc⟩ := hcand
  have hid : d₀.id = d.id := by
    have hmem : d₀ ∈ t.rows.filter _ := List.argmin_mem hc
    simpa using (Bool.and_eq_true_iff.mp (List.mem_filter.mp hmem).2).2
  exact ⟨fun id => id ≠ d.id, ⟨d₀.id, d₀.notificationId, d₀.channel, d₀.attempts + 1, leaseToken⟩,
    by simp only [claim, hc], hid⟩

/-- A reapable row is failed by `reap`. -/
theorem reap_of_reapable {t : Table Delivery.id} {now : Time} (hd : d ∈ t)
    (hp : d.reapable now = true) : ∃ d' ∈ reap now t, d'.id = d.id ∧ d'.status = .failed :=
  ⟨reapEdit d, Table.mem_updateWhere.mpr ⟨d, hd, if_pos hp⟩, rfl, rfl⟩

end Dispatch

/-- **Deliveries are safe and none is stuck.** -/
theorem delivery_safe {s : Dispatch} (hr : dispatcher.Reachable s) : s.DeliverySafe := by
  have hs := dispatchSound hr
  constructor
  case final =>
    intro s' hleads d hd hfin
    exact hleads.keeps (fun s op s' hr hd h => (dispatchSound hr).final_step h hd hfin) hr hd
  case attempts => exact hs.attempts
  case calls => exact hs.calls_le
  case fenced => exact fun op s' h d hd d' hd' => Dispatch.Sound.fenced_step h hd hd'
  case sole => exact fun w w' p p' u u' => hs.sole
  case progress =>
    intro d hd hpending now hdue hover
    -- the attempts decide which of the two statements takes the row
    by_cases hleft : d.attempts < MAX_DELIVERY_ATTEMPTS
    · exact Or.inl fun leaseToken => Dispatch.claim_of_claimable hd
        (Delivery.claimable_iff.mpr ⟨hpending, hdue, hleft⟩) leaseToken
    · exact Or.inr (Dispatch.reap_of_reapable hd
        (Delivery.reapable_iff.mpr ⟨hpending, Nat.le_of_not_lt hleft, hover⟩))

/-! ## A stalled sender -/

/-- An empty queue. -/
def exampleDispatch : Dispatch := ⟨.empty, 0, fun _ => none, [], []⟩

theorem dispatcher_next {s s' : Dispatch} (hr : dispatcher.Reachable s) (op : DispatchOp)
    (hs : s.Step op s') : dispatcher.Reachable s' := hr.next hs

/-- The first worker stalls in `send` until its lease is over, and the second one claims the
delivery, renews its lease and calls the provider. -/
theorem stalled_reachable : ∃ s, dispatcher.Reachable s ∧ s.clock = 60000 ∧
    s.workers 1 = some (.sending ⟨1, 1, .email, 1, 100⟩ 60000) ∧
    s.workers 2 = some (.sending ⟨1, 1, .email, 2, 101⟩ 120000) := by
  have empty : dispatcher.Reachable exampleDispatch := .start ⟨rfl, fun _ => rfl, rfl⟩
  have queued := dispatcher_next empty (.enqueue 1 1 .email 0) (.enqueue (by decide) rfl)
  have claimed := dispatcher_next queued (.claim 1 0 100 fun _ => false)
    (.claim rfl (by decide) (by decide))
  have loaded := dispatcher_next claimed (.load 1 .job) (.load rfl)
  have renewed := dispatcher_next loaded (.renew 1) (.renew rfl)
  have sent := dispatcher_next renewed (.send 1) (.send rfl)
  have stalled := dispatcher_next sent (.wait 60000) (.wait (by decide))
  have reclaimed := dispatcher_next stalled (.claim 2 60000 101 fun _ => false)
    (.claim rfl (by decide) (by decide))
  have reloaded := dispatcher_next reclaimed (.load 2 .job) (.load rfl)
  have rerenewed := dispatcher_next reloaded (.renew 2) (.renew rfl)
  have resent := dispatcher_next rerenewed (.send 2) (.send rfl)
  exact ⟨_, resent, rfl, rfl, rfl⟩

theorem delivery_safe_stalled : ∃ s : Dispatch, (∃ p, s.workers 2 = some p) ∧ s.DeliverySafe := by
  obtain ⟨s, hr, -, -, hw⟩ := stalled_reachable
  exact ⟨s, ⟨_, hw⟩, delivery_safe hr⟩

/-- **Two workers at one delivery**, one of them in a lease that is not over. -/
theorem stalled_sender : ¬∀ s, dispatcher.Reachable s → ∀ w w' c c' u u',
    s.workers w = some (.sending c u) → s.workers w' = some (.sending c' u') → c.id = c'.id →
      s.clock < u' → w = w' := by
  intro h
  obtain ⟨s, hr, hclock, hw, hw'⟩ := stalled_reachable
  have hlive : s.clock < 120000 := by
    rw [hclock]
    decide
  exact absurd (h s hr 1 2 _ _ _ _ hw hw' rfl hlive) (by decide)

end Bookswap
