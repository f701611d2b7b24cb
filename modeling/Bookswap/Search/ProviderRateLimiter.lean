import Bookswap.Catalog.LookupService
import Bookswap.Lib.Machine
import Mathlib.Logic.Function.Basic

/-!
# provider-rate-limiter.ts

The interval between the calls to one external source, kept in the memory of the process. The
limiter is a function of its state; `OutboundCalls` puts it into a process whose clock runs and
whose timers fire when they are due, so that answers arrive while other calls wait for their slot.
-/

namespace Bookswap

/-- `BOOK_LOOKUP_SOURCES` -/
inductive BookLookupSource
  | openLibrary | googleBooks | isbndb
  deriving DecidableEq, Repr

/-- The variables of external-search.config.ts that the limiter reads; `fromEnv` is the function of
lookup.config.ts over again. -/
structure LimiterEnv where
  minInterval : Option Int
  rateLimitCooldown : Option Int

namespace LimiterEnv

def externalSearchMinIntervalMs (env : LimiterEnv) : Int := fromEnv env.minInterval 1000

def externalRateLimitCooldownMs (env : LimiterEnv) : Int := fromEnv env.rateLimitCooldown 30000

theorem minInterval_pos (env : LimiterEnv) : 0 < env.externalSearchMinIntervalMs :=
  Int.natCast_pos.mpr (fromEnv_pos _ (by decide))

end LimiterEnv

def MAX_RATE_LIMIT_COOLDOWN_MS : Int := 5 * 60000
def MIN_RATE_LIMIT_COOLDOWN_MS : Int := 1000

structure ProviderRateLimitedError where
  source : BookLookupSource
  deriving DecidableEq, Repr

structure ProviderRateLimiter where
  /-- Before this the next call to the source must not start. -/
  nextAvailableAt : BookLookupSource → Option Int := fun _ => none
  /-- When the last call to the source started. -/
  lastStartedAt : BookLookupSource → Option Int := fun _ => none
  /-- The source asked us to back off. -/
  cooldownUntil : BookLookupSource → Option Int := fun _ => none

namespace ProviderRateLimiter

/-- No call to the source starts before this, as far as the limiter knows. -/
def earliest (l : ProviderRateLimiter) (source : BookLookupSource) : Int :=
  max ((l.nextAvailableAt source).getD 0) ((l.cooldownUntil source).getD 0)

/-- Both maps written with a start at `at_`. -/
def taken (l : ProviderRateLimiter) (env : LimiterEnv) (source : BookLookupSource) (at_ : Int) :
    ProviderRateLimiter :=
  { l with
    nextAvailableAt :=
      Function.update l.nextAvailableAt source (some (at_ + env.externalSearchMinIntervalMs))
    lastStartedAt := Function.update l.lastStartedAt source (some at_) }

/-- `acquire` up to its timer: the wait for the slot that it took. -/
def acquire (env : LimiterEnv) (source : BookLookupSource) (maxWaitMs : Int) (now : Int)
    (l : ProviderRateLimiter) : Except ProviderRateLimitedError Int × ProviderRateLimiter :=
  let earliest := l.earliest source
  let wait := max 0 (earliest - now)
  if wait > maxWaitMs then (.error ⟨source⟩, l)
  else (.ok wait, l.taken env source (max now earliest))

def tryAcquire (env : LimiterEnv) (source : BookLookupSource) (minGapMs : Int) (now : Int)
    (l : ProviderRateLimiter) : Except ProviderRateLimitedError Unit × ProviderRateLimiter :=
  let free := l.earliest source
  let gapEnds := (l.lastStartedAt source).getD 0 + minGapMs
  if free > now ∨ gapEnds > now then (.error ⟨source⟩, l)
  else (.ok (), l.taken env source now)

/-- When the cooldown that `penalize` sets at `now` ends. -/
def until_ (env : LimiterEnv) (retryAfterMs : Option Int) (now : Int) : Int :=
  let requested := retryAfterMs.getD env.externalRateLimitCooldownMs
  now + min (max requested MIN_RATE_LIMIT_COOLDOWN_MS) MAX_RATE_LIMIT_COOLDOWN_MS

def penalize (env : LimiterEnv) (source : BookLookupSource) (retryAfterMs : Option Int) (now : Int)
    (l : ProviderRateLimiter) : ProviderRateLimiter :=
  { l with
    cooldownUntil := Function.update l.cooldownUntil source
      (some (max ((l.cooldownUntil source).getD 0) (until_ env retryAfterMs now))) }

variable {env : LimiterEnv} {source : BookLookupSource} {now : Int} {l l' : ProviderRateLimiter}

@[simp] theorem nextAvailableAt_taken (at_ : Int) (p : BookLookupSource) :
    (l.taken env source at_).nextAvailableAt p =
      if p = source then some (at_ + env.externalSearchMinIntervalMs) else l.nextAvailableAt p :=
  Function.update_apply ..

@[simp] theorem lastStartedAt_taken (at_ : Int) (p : BookLookupSource) :
    (l.taken env source at_).lastStartedAt p =
      if p = source then some at_ else l.lastStartedAt p :=
  Function.update_apply ..

@[simp] theorem cooldownUntil_penalize (retryAfterMs : Option Int) (p : BookLookupSource) :
    (l.penalize env source retryAfterMs now).cooldownUntil p =
      if p = source then
        some (max ((l.cooldownUntil source).getD 0) (until_ env retryAfterMs now))
      else l.cooldownUntil p :=
  Function.update_apply ..

/-- **A refused call changes no state.** -/
theorem acquire_refused {maxWaitMs : Int} {e : ProviderRateLimitedError}
    (h : l.acquire env source maxWaitMs now = (.error e, l')) : l' = l := by
  simp only [acquire] at h
  split at h <;> simp_all

theorem tryAcquire_refused {minGapMs : Int} {e : ProviderRateLimitedError}
    (h : l.tryAcquire env source minGapMs now = (.error e, l')) : l' = l := by
  simp only [tryAcquire] at h
  split at h <;> simp_all

/-- A slot that `acquire` takes is no earlier than the limiter allows; the timer is set for it. -/
theorem acquire_ok {maxWaitMs wait : Int} (h : l.acquire env source maxWaitMs now = (.ok wait, l')) :
    now + wait = max now (l.earliest source) ∧ l' = l.taken env source (now + wait) := by
  simp only [acquire] at h
  split at h
  · simp at h
  · simp only [Prod.mk.injEq, Except.ok.injEq] at h
    have hwait : now + wait = max now (l.earliest source) := by
      rw [← h.1]
      omega
    exact ⟨hwait, by rw [hwait]; exact h.2.symm⟩

/-- A slot that `tryAcquire` takes is free now, and the gap is over. -/
theorem tryAcquire_ok {minGapMs : Int} {u : Unit}
    (h : l.tryAcquire env source minGapMs now = (.ok u, l')) :
    l.earliest source ≤ now ∧ (l.lastStartedAt source).getD 0 + minGapMs ≤ now ∧
      l' = l.taken env source now := by
  simp only [tryAcquire] at h
  split at h
  · simp at h
  next hfree =>
    simp only [Prod.mk.injEq] at h
    exact ⟨by omega, by omega, h.2.symm⟩

end ProviderRateLimiter

/-! ## The process around it -/

/-- A call that has its slot: a search, or a suggestion with the gap it keeps. -/
structure OutboundCall where
  source : BookLookupSource
  at_ : Int
  minGap : Option Int := none
  deriving DecidableEq, Repr

/-- What happened to the sources, as the log keeps it. -/
inductive OutboundEvent
  | started (call : OutboundCall)
  | penalized (source : BookLookupSource) (until_ : Int)
  deriving DecidableEq, Repr

structure OutboundCalls where
  now : Int
  limiter : ProviderRateLimiter := {}
  /-- The calls of `acquire` whose timers have not fired. -/
  waiting : List OutboundCall := []
  /-- Newest first; nothing of the process reads it. -/
  log : List OutboundEvent := []

namespace OutboundCalls

/-- The calls that have started. -/
def startedCalls (s : OutboundCalls) : List OutboundCall :=
  s.log.filterMap fun
    | .started call => some call
    | .penalized .. => none

/-- Every start that was granted: those of the calls that have started and of those that wait. -/
def granted (s : OutboundCalls) : List OutboundCall := s.startedCalls ++ s.waiting

inductive Action
  | passes (t : Int)
  | acquires (source : BookLookupSource) (maxWaitMs : Int)
  | suggests (source : BookLookupSource) (minGapMs : Int)
  | penalizes (source : BookLookupSource) (retryAfterMs : Option Int)
  | fires (call : OutboundCall)
  deriving DecidableEq, Repr

inductive Step (env : LimiterEnv) : OutboundCalls → Action → OutboundCalls → Prop
  /-- Timers fire on time: the clock does not pass one that is due. -/
  | passes {s} {t : Int} (hle : s.now ≤ t) (hdue : ∀ call ∈ s.waiting, t ≤ call.at_) :
    Step env s (.passes t) { s with now := t }
  | refused {s source maxWaitMs e l}
    (h : s.limiter.acquire env source maxWaitMs s.now = (.error e, l)) :
    Step env s (.acquires source maxWaitMs) { s with limiter := l }
  | starts {s source maxWaitMs l} (h : s.limiter.acquire env source maxWaitMs s.now = (.ok 0, l)) :
    Step env s (.acquires source maxWaitMs)
      { s with limiter := l, log := .started { source, at_ := s.now } :: s.log }
  | waits {s source maxWaitMs wait l} (hwait : 0 < wait)
    (h : s.limiter.acquire env source maxWaitMs s.now = (.ok wait, l)) :
    Step env s (.acquires source maxWaitMs)
      { s with limiter := l, waiting := { source, at_ := s.now + wait } :: s.waiting }
  | yields {s source minGapMs e l}
    (h : s.limiter.tryAcquire env source minGapMs s.now = (.error e, l)) :
    Step env s (.suggests source minGapMs) { s with limiter := l }
  | suggested {s source minGapMs u l}
    (h : s.limiter.tryAcquire env source minGapMs s.now = (.ok u, l)) :
    Step env s (.suggests source minGapMs)
      { s with
        limiter := l
        log := .started { source, at_ := s.now, minGap := some minGapMs } :: s.log }
  | penalizes {s source retryAfterMs} :
    Step env s (.penalizes source retryAfterMs)
      { s with
        limiter := s.limiter.penalize env source retryAfterMs s.now
        log := .penalized source (ProviderRateLimiter.until_ env retryAfterMs s.now) :: s.log }
  | fires {s call} (hmem : call ∈ s.waiting) (hdue : call.at_ = s.now) :
    Step env s (.fires call)
      { s with waiting := s.waiting.erase call, log := .started call :: s.log }

end OutboundCalls

/-- One process: at any time of the clock it starts with an empty limiter. -/
def outboundCalls (env : LimiterEnv) : Machine OutboundCalls OutboundCalls.Action where
  init s := s.limiter = {} ∧ s.waiting = [] ∧ s.log = []
  step := OutboundCalls.Step env

end Bookswap
