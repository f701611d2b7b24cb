import Bookswap.Search.ProviderRateLimiter
import Mathlib.Data.List.Perm.Basic

/-!
# The rate of the outbound calls

`OutboundCalls.Inv` ties the three maps of the limiter to the starts that were granted: whatever was
granted ends its interval by `nextAvailableAt`, and a call that waits was cleared of the cooldowns
that were set before it took its slot. Only a cooldown that arrives during the wait can break the
last one: `penalize` looks at no reserved slot and the timer asks nobody.

- `OutboundCalls.Inv.step`: what holds whatever the answers are.
- `outbound_calls`: with `Unhindered` answers also no start falls into a cooldown.
- `penalized_while_waiting`: a run in which one does.
-/

namespace Bookswap

namespace OutboundCalls

/-- Two starts of one source keep the interval. -/
def Apart (env : LimiterEnv) (c d : OutboundCall) : Prop :=
  c.source = d.source → c.at_ + env.externalSearchMinIntervalMs ≤ d.at_ ∨
    d.at_ + env.externalSearchMinIntervalMs ≤ c.at_

/-- A call that starts after a cooldown was set starts after its end. -/
def CooledDown : OutboundEvent → OutboundEvent → Prop
  | .started call, .penalized source until_ => call.source = source → until_ ≤ call.at_
  | _, _ => True

/-- A suggestion keeps its gap to every call that started before. -/
def GapKept : OutboundEvent → OutboundEvent → Prop
  | .started call, .started previous =>
    ∀ gap ∈ call.minGap, previous.source = call.source → previous.at_ + gap ≤ call.at_
  | _, _ => True

/-- What the limiter is for, in a state: the log is newest first. -/
structure Honoured (env : LimiterEnv) (s : OutboundCalls) : Prop where
  apart : s.granted.Pairwise (Apart env)
  cooledDown : s.log.Pairwise CooledDown
  gapKept : s.log.Pairwise GapKept

/-- What it is for, in a step: a suggestion starts at once or changes nothing, and a call that is
refused changes nothing. -/
structure Answered (env : LimiterEnv) (s : OutboundCalls) : Prop where
  atOnce : ∀ source minGapMs s', Step env s (.suggests source minGapMs) s' →
    s' = s ∨ s'.waiting = s.waiting ∧
      s'.log = .started { source, at_ := s.now, minGap := some minGapMs } :: s.log
  acquire : ∀ source maxWaitMs e l,
    s.limiter.acquire env source maxWaitMs s.now = (.error e, l) → l = s.limiter
  tryAcquire : ∀ source minGapMs e l,
    s.limiter.tryAcquire env source minGapMs s.now = (.error e, l) → l = s.limiter

/-- No call of the source waits for a slot inside the cooldown that is being set. -/
def Unhindered (env : LimiterEnv) (s : OutboundCalls) : Action → OutboundCalls → Prop
  | .penalizes source retryAfterMs, _ => ∀ call ∈ s.waiting, call.source = source →
    ProviderRateLimiter.until_ env retryAfterMs s.now ≤ call.at_
  | _, _ => True

/-! ## What the maps know -/

/-- The maps of the limiter cover the starts that were granted and the cooldowns that were set. -/
structure Inv (env : LimiterEnv) (s : OutboundCalls) : Prop where
  booked : ∀ call ∈ s.granted, call.at_ + env.externalSearchMinIntervalMs ≤
    (s.limiter.nextAvailableAt call.source).getD 0
  started : ∀ call ∈ s.granted, call.at_ ≤ (s.limiter.lastStartedAt call.source).getD 0
  penalized : ∀ source until_, .penalized source until_ ∈ s.log →
    until_ ≤ (s.limiter.cooldownUntil source).getD 0
  apart : s.granted.Pairwise (Apart env)
  gapKept : s.log.Pairwise GapKept
  searches : ∀ call ∈ s.waiting, call.minGap = none

/-- The same for the cooldowns and the calls that wait. -/
structure Cool (s : OutboundCalls) : Prop where
  waiting : ∀ call ∈ s.waiting, ∀ until_, .penalized call.source until_ ∈ s.log →
    until_ ≤ call.at_
  cooledDown : s.log.Pairwise CooledDown

variable {env : LimiterEnv} {s s' : OutboundCalls} {call : OutboundCall} {a : Action}

theorem Apart.symm {c d : OutboundCall} (h : Apart env c d) : Apart env d c :=
  fun hsource => (h hsource.symm).symm

theorem mem_startedCalls : call ∈ s.startedCalls ↔ .started call ∈ s.log := by
  simp only [startedCalls, List.mem_filterMap]
  constructor
  · rintro ⟨e, he, heq⟩
    cases e with
    | started c =>
      obtain rfl : c = call := by simpa using heq
      exact he
    | penalized => simp at heq
  · exact fun h => ⟨_, h, rfl⟩

/-- A start that the limiter allows keeps the interval to all that were granted. -/
theorem Inv.earliest (h : s.Inv env) {source : BookLookupSource} {at_ : Int}
    (hat : s.limiter.earliest source ≤ at_) {d : OutboundCall} (hd : d ∈ s.granted)
    (hsource : d.source = source) : d.at_ + env.externalSearchMinIntervalMs ≤ at_ := by
  have hbooked := h.booked d hd
  rw [hsource] at hbooked
  unfold ProviderRateLimiter.earliest at hat
  omega

theorem Inv.cooled (h : s.Inv env) {source : BookLookupSource} {at_ until_ : Int}
    (hat : s.limiter.earliest source ≤ at_) (hu : .penalized source until_ ∈ s.log) :
    until_ ≤ at_ := by
  have hpenalized := h.penalized source until_ hu
  unfold ProviderRateLimiter.earliest at hat
  omega

variable (call) (s') in
/-- One more start is granted: the limiter books it and the list has it somewhere. -/
theorem Inv.grant (h : s.Inv env) (hat : s.limiter.earliest call.source ≤ call.at_)
    (hlimiter : s'.limiter = s.limiter.taken env call.source call.at_)
    (hgranted : s'.granted.Perm (call :: s.granted)) :
    (∀ c ∈ s'.granted, c.at_ + env.externalSearchMinIntervalMs ≤
      (s'.limiter.nextAvailableAt c.source).getD 0) ∧
    (∀ c ∈ s'.granted, c.at_ ≤ (s'.limiter.lastStartedAt c.source).getD 0) ∧
    s'.granted.Pairwise (Apart env) := by
  have hpos := env.minInterval_pos
  refine ⟨fun c hc => ?_, fun c hc => ?_, ?_⟩
  · rw [hlimiter, ProviderRateLimiter.nextAvailableAt_taken]
    rcases List.mem_cons.mp (hgranted.mem_iff.mp hc) with rfl | hc
    · simp
    · split
      next hsource =>
        have := h.earliest hat hc hsource
        show c.at_ + _ ≤ call.at_ + _
        omega
      · exact h.booked c hc
  · rw [hlimiter, ProviderRateLimiter.lastStartedAt_taken]
    rcases List.mem_cons.mp (hgranted.mem_iff.mp hc) with rfl | hc
    · simp
    · split
      next hsource =>
        have := h.earliest hat hc hsource
        show c.at_ ≤ call.at_
        omega
      · exact h.started c hc
  · refine (hgranted.pairwise_iff Apart.symm).mpr
      (List.pairwise_cons.mpr ⟨fun d hd hsource => ?_, h.apart⟩)
    exact .inr (h.earliest hat hd hsource.symm)

/-- A call that is logged as started keeps its gap, if it has one. -/
theorem Inv.gapKept_cons (h : s.Inv env)
    (hgap : ∀ gap ∈ call.minGap, (s.limiter.lastStartedAt call.source).getD 0 + gap ≤ call.at_) :
    (OutboundEvent.started call :: s.log).Pairwise GapKept := by
  refine List.pairwise_cons.mpr ⟨fun e he => ?_, h.gapKept⟩
  cases e with
  | penalized => trivial
  | started d =>
    intro gap hmem hsource
    have hlast := h.started d (List.mem_append_left _ (mem_startedCalls.mpr he))
    have := hgap gap hmem
    rw [hsource] at hlast
    omega

/-- A start that the limiter allows is outside every cooldown that was set. -/
theorem Inv.cooledDown_cons (h : s.Inv env) (hc : s.Cool)
    (hat : s.limiter.earliest call.source ≤ call.at_) :
    (OutboundEvent.started call :: s.log).Pairwise CooledDown := by
  refine List.pairwise_cons.mpr ⟨fun e he => ?_, hc.cooledDown⟩
  cases e with
  | started => trivial
  | penalized source until_ =>
    rintro rfl
    exact h.cooled hat he

/-! ## The steps -/

/-- **Whatever the answers are**: the starts stay apart and the suggestions keep their gap. -/
theorem Inv.step (h : s.Inv env) (hs : Step env s a s') : s'.Inv env := by
  cases hs with
  | passes => exact { h with }
  | refused hr =>
    obtain rfl := ProviderRateLimiter.acquire_refused hr
    exact h
  | yields hr =>
    obtain rfl := ProviderRateLimiter.tryAcquire_refused hr
    exact h
  | @starts source maxWaitMs l hr =>
    obtain ⟨hnow, rfl⟩ := ProviderRateLimiter.acquire_ok hr
    rw [Int.add_zero] at hnow ⊢
    obtain ⟨hb, hl, ha⟩ := h.grant
      { s with
        limiter := s.limiter.taken env source s.now
        log := .started { source, at_ := s.now } :: s.log }
      { source, at_ := s.now }
      (by show s.limiter.earliest source ≤ s.now; omega) rfl (List.Perm.refl _)
    exact
      { booked := hb
        started := hl
        penalized := fun p u hp => h.penalized p u (by simpa using hp)
        apart := ha
        gapKept := h.gapKept_cons (by simp)
        searches := h.searches }
  | @waits source maxWaitMs wait l hwait hr =>
    obtain ⟨hnow, rfl⟩ := ProviderRateLimiter.acquire_ok hr
    obtain ⟨hb, hl, ha⟩ := h.grant
      { s with
        limiter := s.limiter.taken env source (s.now + wait)
        waiting := { source, at_ := s.now + wait } :: s.waiting }
      { source, at_ := s.now + wait }
      (by show s.limiter.earliest source ≤ s.now + wait; omega) rfl List.perm_middle
    exact
      { booked := hb
        started := hl
        penalized := h.penalized
        apart := ha
        gapKept := h.gapKept
        searches := List.forall_mem_cons.mpr ⟨rfl, h.searches⟩ }
  | @suggested source minGapMs u l hr =>
    obtain ⟨hfree, hgap, rfl⟩ := ProviderRateLimiter.tryAcquire_ok hr
    obtain ⟨hb, hl, ha⟩ := h.grant
      { s with
        limiter := s.limiter.taken env source s.now
        log := .started { source, at_ := s.now, minGap := some minGapMs } :: s.log }
      { source, at_ := s.now, minGap := some minGapMs }
      hfree rfl (List.Perm.refl _)
    exact
      { booked := hb
        started := hl
        penalized := fun p u hp => h.penalized p u (by simpa using hp)
        apart := ha
        gapKept := h.gapKept_cons (by simpa using hgap)
        searches := h.searches }
  | @penalizes source retryAfterMs =>
    refine
      { booked := h.booked
        started := h.started
        penalized := fun p u hp => ?_
        apart := h.apart
        gapKept := List.pairwise_cons.mpr ⟨fun _ _ => trivial, h.gapKept⟩
        searches := h.searches }
    show u ≤ ((s.limiter.penalize env source retryAfterMs s.now).cooldownUntil p).getD 0
    rw [ProviderRateLimiter.cooldownUntil_penalize]
    rcases List.mem_cons.mp hp with hp | hp
    · obtain ⟨rfl, rfl⟩ := by simpa using hp
      rw [if_pos rfl, Option.getD_some]
      omega
    · have hold := h.penalized p u hp
      split
      next hsource =>
        rw [hsource] at hold
        show u ≤ max _ _
        omega
      · exact hold
  | @fires call hmem hdue =>
    -- the call moves from the ones that wait to the ones that started
    have hperm : (OutboundCalls.granted { s with
        waiting := s.waiting.erase call, log := .started call :: s.log }).Perm s.granted :=
      List.perm_middle.symm.trans ((List.perm_cons_erase hmem).symm.append_left _)
    exact
      { booked := fun c hc => h.booked c (hperm.mem_iff.mp hc)
        started := fun c hc => h.started c (hperm.mem_iff.mp hc)
        penalized := fun p u hp => h.penalized p u (by simpa using hp)
        apart := (hperm.pairwise_iff Apart.symm).mpr h.apart
        gapKept := h.gapKept_cons (by simp [h.searches call hmem])
        searches := fun c hc => h.searches c (List.mem_of_mem_erase hc) }

/-- **With unhindered answers** the calls that wait stay clear of the cooldowns. -/
theorem Cool.step (hc : s.Cool) (h : s.Inv env) (hs : Step env s a s')
    (hu : Unhindered env s a s') : s'.Cool := by
  cases hs with
  | passes => exact { hc with }
  | refused hr =>
    obtain rfl := ProviderRateLimiter.acquire_refused hr
    exact hc
  | yields hr =>
    obtain rfl := ProviderRateLimiter.tryAcquire_refused hr
    exact hc
  | @starts source maxWaitMs l hr =>
    obtain ⟨hnow, -⟩ := ProviderRateLimiter.acquire_ok hr
    exact
      { waiting := fun c hmem u hp => hc.waiting c hmem u (by simpa using hp)
        cooledDown := h.cooledDown_cons hc (by show s.limiter.earliest source ≤ s.now; omega) }
  | @waits source maxWaitMs wait l hwait hr =>
    obtain ⟨hnow, -⟩ := ProviderRateLimiter.acquire_ok hr
    refine { hc with waiting := List.forall_mem_cons.mpr ⟨fun u hp => ?_, hc.waiting⟩ }
    exact h.cooled (by show s.limiter.earliest source ≤ s.now + wait; omega) hp
  | @suggested source minGapMs u l hr =>
    obtain ⟨hfree, -, -⟩ := ProviderRateLimiter.tryAcquire_ok hr
    exact
      { waiting := fun c hmem u hp => hc.waiting c hmem u (by simpa using hp)
        cooledDown := h.cooledDown_cons hc hfree }
  | @penalizes source retryAfterMs =>
    refine
      { waiting := fun c hmem u hp => ?_
        cooledDown := List.pairwise_cons.mpr ⟨fun _ _ => trivial, hc.cooledDown⟩ }
    rcases List.mem_cons.mp hp with hp | hp
    · simp only [OutboundEvent.penalized.injEq] at hp
      rw [hp.2]
      exact hu c hmem hp.1
    · exact hc.waiting c hmem u hp
  | @fires call hmem hdue =>
    refine
      { waiting := fun c hmem u hp =>
          hc.waiting c (List.mem_of_mem_erase hmem) u (by simpa using hp)
        cooledDown := List.pairwise_cons.mpr ⟨fun e he => ?_, hc.cooledDown⟩ }
    cases e with
    | started => trivial
    | penalized source until_ =>
      rintro rfl
      exact hc.waiting call hmem until_ he

theorem answered (s : OutboundCalls) : s.Answered env where
  atOnce source minGapMs s' hs := by
    cases hs with
    | yields hr =>
      obtain rfl := ProviderRateLimiter.tryAcquire_refused hr
      exact .inl rfl
    | suggested => exact .inr ⟨rfl, rfl⟩
  acquire _ _ _ _ hr := ProviderRateLimiter.acquire_refused hr
  tryAcquire _ _ _ _ hr := ProviderRateLimiter.tryAcquire_refused hr

/-! ## The runs -/

theorem Inv.of_reachable (h : (outboundCalls env).Reachable s) : s.Inv env := by
  refine Machine.Reachable.invariant (I := fun s => s.Inv env) ?_ ?_ h
  · rintro ⟨now, limiter, waiting, log⟩ ⟨rfl, rfl, rfl⟩
    exact ⟨by simp [granted, startedCalls], by simp [granted, startedCalls], by simp,
      by simp [granted, startedCalls], by simp, by simp⟩
  · exact fun s a s' _ hi hs => hi.step hs

theorem Cool.of_reachable
    (h : ((outboundCalls env).restrict (Unhindered env)).Reachable s) : s.Cool := by
  refine Machine.Reachable.invariant (M := (outboundCalls env).restrict (Unhindered env))
    (I := Cool) ?_ ?_ h
  · rintro ⟨now, limiter, waiting, log⟩ ⟨rfl, rfl, rfl⟩
    exact ⟨by simp, by simp⟩
  · exact fun s a s' hr hi hs => hi.step (.of_reachable hr.of_restrict) hs.1 hs.2

/-- **The limiter keeps its promises** in every run in which no cooldown is set over the slot of a
call that waits. -/
theorem outbound_calls (env : LimiterEnv) {s : OutboundCalls}
    (h : ((outboundCalls env).restrict (Unhindered env)).Reachable s) :
    s.Honoured env ∧ s.Answered env :=
  have hinv := Inv.of_reachable h.of_restrict
  ⟨⟨hinv.apart, (Cool.of_reachable h).cooledDown, hinv.gapKept⟩, answered s⟩

/-- A process with the defaults, in which one call starts and a second one waits for its slot. -/
def defaultLimits : LimiterEnv := ⟨none, none⟩

def firstCall : OutboundCall := { source := .openLibrary, at_ := 10000 }
def secondCall : OutboundCall := { source := .openLibrary, at_ := 11000 }

theorem two_acquired (P : OutboundCalls → Action → OutboundCalls → Prop)
    (h : ∀ s s' source maxWaitMs, P s (.acquires source maxWaitMs) s') :
    ((outboundCalls defaultLimits).restrict P).Reachable
      { now := 10000
        limiter := (ProviderRateLimiter.taken {} defaultLimits .openLibrary 10000).taken
          defaultLimits .openLibrary 11000
        waiting := [secondCall]
        log := [.started firstCall] } := by
  have h0 : ((outboundCalls defaultLimits).restrict P).Reachable { now := 10000 } :=
    .start ⟨rfl, rfl, rfl⟩
  have h1 := h0.next
    ⟨@Step.starts defaultLimits _ .openLibrary 4000 _ rfl, h _ _ _ _⟩
  exact h1.next
    ⟨@Step.waits defaultLimits _ .openLibrary 4000 1000 _ (by decide) rfl, h _ _ _ _⟩

/-- The second call starts, then the first one is answered with a 429, and a suggestion yields. -/
theorem outbound_calls_in_turn :
    ∃ s, ((outboundCalls defaultLimits).restrict (Unhindered defaultLimits)).Reachable s ∧
      s.startedCalls = [secondCall, firstCall] ∧ s.Honoured defaultLimits ∧
        s.Answered defaultLimits := by
  have h1 := two_acquired (Unhindered defaultLimits) fun _ _ _ _ => trivial
  have h2 := h1.next ⟨@Step.passes defaultLimits _ 11000 (by decide) (by decide), trivial⟩
  have h3 := h2.next
    ⟨@Step.fires defaultLimits _ secondCall (List.mem_singleton_self _) rfl, trivial⟩
  have h4 := h3.next ⟨@Step.penalizes defaultLimits _ .openLibrary none, fun _ hc => nomatch hc⟩
  have h5 := h4.next
    ⟨@Step.yields defaultLimits _ .openLibrary 2000 ⟨.openLibrary⟩ _ rfl, trivial⟩
  exact ⟨_, h5, rfl, outbound_calls _ h5⟩

/-- The 429 comes while the second call waits: the timer fires inside the cooldown and the call
goes out. -/
theorem penalized_while_waiting :
    ¬ ∀ (env : LimiterEnv) (s : OutboundCalls), (outboundCalls env).Reachable s →
      s.Honoured env ∧ s.Answered env := by
  intro hall
  have h1 := two_acquired (fun _ _ _ => True) fun _ _ _ _ => trivial
  have h2 := h1.of_restrict.next (@Step.passes defaultLimits _ 10500 (by decide) (by decide))
  have h3 := h2.next (@Step.penalizes defaultLimits _ .openLibrary none)
  have h4 := h3.next (@Step.passes defaultLimits _ 11000 (by decide) (by decide))
  have h5 := h4.next (@Step.fires defaultLimits _ secondCall (List.mem_singleton_self _) rfl)
  have hcool := (hall _ _ h5).1.cooledDown
  have hlate := List.rel_of_pairwise_cons hcool List.mem_cons_self rfl
  revert hlate
  decide

end OutboundCalls

end Bookswap
