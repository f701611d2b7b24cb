import Bookswap.Domain
import Bookswap.Lib.Machine
import Bookswap.Lib.Table
import Mathlib.Algebra.Group.Int.Defs
import Mathlib.Data.List.MinMax
import Mathlib.Logic.Function.Basic

/-!
# notification-dispatcher.service.ts

The queue of deliveries and the workers that empty it. Each of `claim`, `reap`,
`renewBeforeSend` and `finish` is one conditional statement; between two of them any other
worker may run, and a worker may die. All clocks read one time, but `claim`, `reap` and `finish`
bind a time that was read before the statement, while `renewBeforeSend` asks the database.

- `claim`, `reap`, `renewBeforeSend`, `finish`: the statements, on the table.
- `WorkerPhase`: where a worker is in `deliver`.
- `Dispatch.Step`, `dispatcher`: the steps of any number of workers.
-/

namespace Bookswap

open Store (Table)

abbrev DeliveryId := Nat
abbrev NotificationId := Nat
abbrev LeaseToken := Nat
abbrev WorkerId := Nat

/-! ## notifications.constants.ts -/

def MAX_DELIVERY_ATTEMPTS : Nat := 5
def DELIVERY_BACKOFF_BASE_MS : Int := 30000
def DELIVERY_BACKOFF_MAX_MS : Int := 15 * 60000
def DELIVERY_ATTEMPT_TIMEOUT_MS : Int := 10000
def DELIVERY_LEASE_MS : Int := 6 * DELIVERY_ATTEMPT_TIMEOUT_MS

/-! ## delivery-backoff.ts -/

def backoffDelayMs (attempts : Nat) : Int :=
  min (DELIVERY_BACKOFF_BASE_MS * 2 ^ (attempts - 1)) DELIVERY_BACKOFF_MAX_MS

def isTerminalFailure (attempts : Nat) : Bool := MAX_DELIVERY_ATTEMPTS ≤ attempts

def nextAttemptAfterFailure (now : Time) (attempts : Nat) : Time := now + backoffDelayMs attempts

/-! ## Rows -/

inductive Channel
  | inApp | email | telegram
  deriving DecidableEq, Repr

def Channel.name : Channel → String
  | .inApp => "IN_APP"
  | .email => "EMAIL"
  | .telegram => "TELEGRAM"

inductive DeliveryStatus
  | pending | sent | failed
  deriving DecidableEq, Repr

/-- `NotificationDelivery` -/
structure Delivery where
  id : DeliveryId
  notificationId : NotificationId
  channel : Channel
  status : DeliveryStatus
  attempts : Nat
  nextAttemptAt : Time
  sentAt : Option Time
  error : Option String
  leaseToken : Option LeaseToken
  leaseUntil : Option Time
  deriving DecidableEq, Repr

/-- A row as `notificationDelivery.createMany` leaves it, with the defaults of its columns. -/
def newDelivery (id : DeliveryId) (notificationId : NotificationId) (channel : Channel)
    (now : Time) : Delivery where
  id := id
  notificationId := notificationId
  channel := channel
  status := .pending
  attempts := 0
  nextAttemptAt := now
  sentAt := none
  error := none
  leaseToken := none
  leaseUntil := none

/-- What the claiming `UPDATE … RETURNING` gives its worker: the row's attempt is this worker's,
under this token. -/
structure ClaimedDelivery where
  id : DeliveryId
  notificationId : NotificationId
  channel : Channel
  attempts : Nat
  leaseToken : LeaseToken
  deriving DecidableEq, Repr

/-! ## The statements -/

/-- The condition of `claim`. -/
def Delivery.claimable (now : Time) (d : Delivery) : Bool :=
  d.status = .pending ∧ d.nextAttemptAt ≤ now ∧ d.attempts < MAX_DELIVERY_ATTEMPTS

def claimEdit (leaseToken : LeaseToken) (leaseUntil : Time) : Table.Edit Delivery.id where
  toFun d := { d with
    attempts := d.attempts + 1
    leaseToken := some leaseToken
    leaseUntil := some leaseUntil
    nextAttemptAt := leaseUntil }
  keeps _ := rfl

/-- Instants in their order. -/
local instance (priority := high) : Preorder Time := Int.instLinearOrder.toPreorder

/-- The row that `claim` takes: the one that has waited longest, of those that no other statement
holds at the moment (`locked`, `SKIP LOCKED`). -/
def claimCandidate (now : Time) (locked : DeliveryId → Bool) (t : Table Delivery.id) :
    Option Delivery :=
  (t.rows.filter fun d => d.claimable now && !locked d.id).argmin Delivery.nextAttemptAt

/-- `claim` -/
def claim (now : Time) (leaseToken : LeaseToken) (locked : DeliveryId → Bool)
    (t : Table Delivery.id) : Table Delivery.id × Option ClaimedDelivery :=
  match claimCandidate now locked t with
  | none => (t, none)
  | some d =>
    (t.modify d.id (claimEdit leaseToken (now + DELIVERY_LEASE_MS)),
      some ⟨d.id, d.notificationId, d.channel, d.attempts + 1, leaseToken⟩)

/-- The condition of `reap`: the attempts are used up and nobody is at the last one. -/
def Delivery.reapable (now : Time) (d : Delivery) : Bool :=
  d.status = .pending ∧ MAX_DELIVERY_ATTEMPTS ≤ d.attempts ∧ d.leaseUntil.all (· ≤ now)

def reapEdit : Table.Edit Delivery.id where
  toFun d := { d with
    status := .failed
    error := some "Спроби вичерпано; остання не завершилася — процес перервано"
    leaseToken := none
    leaseUntil := none }
  keeps _ := rfl

/-- `reap` -/
def reap (now : Time) (t : Table Delivery.id) : Table Delivery.id :=
  t.updateWhere (Delivery.reapable now) reapEdit

/-- The condition of `renewBeforeSend`: still this attempt, of this worker, in a live lease. -/
def ClaimedDelivery.renewable (clock : Time) (c : ClaimedDelivery) (d : Delivery) : Bool :=
  d.id = c.id ∧ d.status = .pending ∧ d.leaseToken = some c.leaseToken ∧ d.attempts = c.attempts ∧
    d.leaseUntil.any (clock < ·)

def renewEdit (leaseUntil : Time) : Table.Edit Delivery.id where
  toFun d := { d with leaseUntil := some leaseUntil, nextAttemptAt := leaseUntil }
  keeps _ := rfl

/-- `renewBeforeSend`; the number of rows is 0 when the lease is lost. -/
def renewBeforeSend (clock : Time) (c : ClaimedDelivery) (t : Table Delivery.id) :
    Table Delivery.id × Nat :=
  t.updateMany (c.renewable clock) (renewEdit (clock + DELIVERY_LEASE_MS))

/-- The argument of `finish`. -/
structure AttemptOutcome where
  failure : Option String
  terminal : Bool
  deriving DecidableEq, Repr

/-- `failure.slice(0, 500)` -/
def sliceError (failure : String) : String := String.ofList (failure.toList.take 500)

def finishEdit (completedAt : Time) (c : ClaimedDelivery) (outcome : AttemptOutcome) :
    Table.Edit Delivery.id where
  toFun d := match outcome.failure with
    | none => { d with
        status := .sent
        sentAt := some completedAt
        error := none
        leaseToken := none
        leaseUntil := none }
    | some failure =>
      if outcome.terminal ∨ isTerminalFailure c.attempts then { d with
        error := some (sliceError failure)
        leaseToken := none
        leaseUntil := none
        status := .failed }
      else { d with
        error := some (sliceError failure)
        leaseToken := none
        leaseUntil := none
        nextAttemptAt := nextAttemptAfterFailure completedAt c.attempts }
  keeps d := by
    cases outcome.failure
    · rfl
    · dsimp only
      split <;> rfl

/-- The condition of `finish`. -/
def ClaimedDelivery.fences (c : ClaimedDelivery) (d : Delivery) : Bool :=
  d.id = c.id ∧ d.leaseToken = some c.leaseToken

/-- `finish` -/
def finish (completedAt : Time) (c : ClaimedDelivery) (outcome : AttemptOutcome)
    (t : Table Delivery.id) : Table Delivery.id :=
  t.updateWhere c.fences (finishEdit completedAt c outcome)

/-! ## Workers -/

/-- How the part of `deliver` before the renewal ends. -/
inductive LoadResult
  | noSender
  | failed (error : String)
  | vanished
  | job
  deriving DecidableEq, Repr

/-- What a worker then finishes with at once, if it does. -/
def LoadResult.outcome (channel : Channel) : LoadResult → Option AttemptOutcome
  | .noSender => some ⟨some ("Канал " ++ channel.name ++ " не має реалізації"), false⟩
  | .failed error => some ⟨some error, false⟩
  | .vanished => some ⟨some "Сповіщення зникло до відправки", true⟩
  | .job => none

/-- Where a worker is in `deliver`; `leaseUntil` is the end of the lease it renewed to. -/
inductive WorkerPhase
  | claimed (c : ClaimedDelivery)
  | loaded (c : ClaimedDelivery)
  | renewed (c : ClaimedDelivery) (leaseUntil : Time)
  | sending (c : ClaimedDelivery) (leaseUntil : Time)
  | finishing (c : ClaimedDelivery) (outcome : AttemptOutcome)
  deriving DecidableEq, Repr

/-- A call of `sender.send`: for which attempt of which delivery. -/
structure ProviderCall where
  id : DeliveryId
  attempts : Nat
  deriving DecidableEq, Repr

/-- The queue, its clock and its workers. `tokens` are the lease tokens drawn so far, and `calls`
the calls of a provider. -/
structure Dispatch where
  deliveries : Table Delivery.id
  clock : Time
  workers : WorkerId → Option WorkerPhase
  tokens : List LeaseToken
  calls : List ProviderCall

inductive DispatchOp
  | enqueue (id : DeliveryId) (notificationId : NotificationId) (channel : Channel) (now : Time)
  | wait (now : Time)
  | reap (now : Time)
  | claim (w : WorkerId) (now : Time) (leaseToken : LeaseToken) (locked : DeliveryId → Bool)
  | load (w : WorkerId) (result : LoadResult)
  | renew (w : WorkerId)
  | send (w : WorkerId)
  /-- The provider has answered, failed, or let the timeout pass. -/
  | answer (w : WorkerId) (failure : Option String)
  | finish (w : WorkerId) (completedAt : Time)
  | crash (w : WorkerId)

namespace Dispatch

/-- A worker goes on in the phase `p`, or is free again. -/
def moveOn (s : Dispatch) (w : WorkerId) (p : Option WorkerPhase) : Dispatch :=
  { s with workers := Function.update s.workers w p }

/-- The steps. -/
inductive Step : Dispatch → DispatchOp → Dispatch → Prop
  | enqueue {s : Dispatch} {id : DeliveryId} {notificationId : NotificationId} {channel : Channel}
      {now : Time} {t : Table Delivery.id} : now ≤ s.clock →
      s.deliveries.insert (newDelivery id notificationId channel now) = some t →
      Step s (.enqueue id notificationId channel now) { s with deliveries := t }
  | wait {s : Dispatch} {now : Time} : s.clock ≤ now → Step s (.wait now) { s with clock := now }
  | reap {s : Dispatch} {now : Time} : now ≤ s.clock →
      Step s (.reap now) { s with deliveries := Bookswap.reap now s.deliveries }
  | claim {s : Dispatch} {w : WorkerId} {now : Time} {leaseToken : LeaseToken}
      {locked : DeliveryId → Bool} : s.workers w = none → now ≤ s.clock → leaseToken ∉ s.tokens →
      Step s (.claim w now leaseToken locked) ({ s with
        deliveries := (Bookswap.claim now leaseToken locked s.deliveries).1
        tokens := leaseToken :: s.tokens }.moveOn w
          ((Bookswap.claim now leaseToken locked s.deliveries).2.map .claimed))
  | load {s : Dispatch} {w : WorkerId} {c : ClaimedDelivery} {result : LoadResult} :
      s.workers w = some (.claimed c) →
      Step s (.load w result) (s.moveOn w (some (match result.outcome c.channel with
        | none => .loaded c
        | some outcome => .finishing c outcome)))
  | renew {s : Dispatch} {w : WorkerId} {c : ClaimedDelivery} : s.workers w = some (.loaded c) →
      Step s (.renew w) ({ s with
        deliveries := (renewBeforeSend s.clock c s.deliveries).1 }.moveOn w
          (if (renewBeforeSend s.clock c s.deliveries).2 = 0 then none
          else some (.renewed c (s.clock + DELIVERY_LEASE_MS))))
  | send {s : Dispatch} {w : WorkerId} {c : ClaimedDelivery} {leaseUntil : Time} :
      s.workers w = some (.renewed c leaseUntil) →
      Step s (.send w) ({ s with calls := ⟨c.id, c.attempts⟩ :: s.calls }.moveOn w
        (some (.sending c leaseUntil)))
  | answer {s : Dispatch} {w : WorkerId} {c : ClaimedDelivery} {leaseUntil : Time}
      {failure : Option String} : s.workers w = some (.sending c leaseUntil) →
      Step s (.answer w failure) (s.moveOn w (some (.finishing c ⟨failure, false⟩)))
  | finish {s : Dispatch} {w : WorkerId} {c : ClaimedDelivery} {outcome : AttemptOutcome}
      {completedAt : Time} : s.workers w = some (.finishing c outcome) → completedAt ≤ s.clock →
      Step s (.finish w completedAt) ({ s with
        deliveries := Bookswap.finish completedAt c outcome s.deliveries }.moveOn w none)
  | crash {s : Dispatch} {w : WorkerId} : Step s (.crash w) (s.moveOn w none)

/-- Nothing has been queued. -/
structure Init (s : Dispatch) : Prop where
  no_deliveries : s.deliveries = .empty
  no_workers : ∀ w, s.workers w = none
  no_calls : s.calls = []

end Dispatch

/-- The machine of the dispatchers. -/
def dispatcher : Machine Dispatch DispatchOp where
  init := Dispatch.Init
  step := Dispatch.Step

end Bookswap
