import Bookswap.Domain

/-!
# The transition tables

`loans/loan.transitions.ts` and `loans/guest-loan-confirmation.transitions.ts`:
pure tables that decide which action is possible from which status, what it needs
of the copy and what it changes.

- `resolveTransition`: registered loans, by origin, status, action and actor. A
  refusal says whether nobody may act (`state`) or the other side may (`role`).
- `resolveGuestTransition`: guest loans, where only the owner acts.
- `resolveConfirmationTransition`: the owner's two decisions on a confirmation.

`TransitionRow` lists the rows of the first table, so that a proof about an applied
action is a case analysis over twelve rows (`transitionRow_of_resolve`).
-/

namespace Bookswap

/-! ## Registered loans -/

/-- A side of the loan. -/
inductive LoanActor
  | owner | borrower
  deriving DecidableEq, Repr

/-- Where `Copy.currentHolderId` points, in terms of the sides. -/
inductive LoanHolder
  | owner | borrower
  deriving DecidableEq, Repr

structure CopyPrecondition where
  status : CopyStatus
  holder : LoanHolder
  deriving DecidableEq, Repr

inductive NotificationTarget
  | owner | borrower | counterparty
  deriving DecidableEq, Repr

structure LoanNotification where
  recipient : NotificationTarget
  type : NotificationType
  deriving DecidableEq, Repr

/-- The column a transition stamps with the current time. -/
inductive LoanStamp
  | respondedAt | handedAt | returnedAt
  deriving DecidableEq, Repr

structure LoanTransition where
  toStatus : LoanStatus
  /-- `none`: the state of the copy does not matter. -/
  requires : Option CopyPrecondition
  copyStatus : Option CopyStatus
  holder : Option LoanHolder
  stamp : Option LoanStamp
  notify : Option LoanNotification
  rejectRivals : Bool
  event : Option LoanEventType
  deriving DecidableEq, Repr

inductive LoanRefusal
  | state | role
  deriving DecidableEq, Repr

abbrev LoanTransitionResult := Except LoanRefusal LoanTransition

namespace LoanTransition

/-- A copy under a record: reserved, at home. -/
def RECORD_HELD : CopyPrecondition := ⟨.reserved, .owner⟩

def confirmRecord : LoanTransition where
  toStatus := .handedOver
  requires := some RECORD_HELD
  copyStatus := some .lentOut
  holder := some .borrower
  stamp := none
  notify := some ⟨.owner, .loanRecordConfirmed⟩
  rejectRivals := true
  event := some .recordConfirmed

def declineRecord : LoanTransition where
  toStatus := .declined
  requires := some RECORD_HELD
  copyStatus := some .available
  holder := none
  stamp := none
  notify := some ⟨.owner, .loanRecordDeclined⟩
  rejectRivals := false
  event := some .recordDeclined

def withdrawRecord : LoanTransition where
  toStatus := .cancelled
  requires := some RECORD_HELD
  copyStatus := some .available
  holder := none
  stamp := none
  notify := some ⟨.borrower, .loanRecordWithdrawn⟩
  rejectRivals := false
  event := some .recordWithdrawn

/-- Status and copy stay; only the dates of the record change. -/
def amendRecord : LoanTransition where
  toStatus := .pendingConfirmation
  requires := some RECORD_HELD
  copyStatus := none
  holder := none
  stamp := none
  notify := some ⟨.borrower, .loanRecordAmended⟩
  rejectRivals := false
  event := some .recordAmended

def approve : LoanTransition where
  toStatus := .approved
  requires := some ⟨.available, .owner⟩
  copyStatus := some .reserved
  holder := none
  stamp := some .respondedAt
  notify := some ⟨.borrower, .loanApproved⟩
  rejectRivals := true
  event := none

/-- A refusal neither needs nor touches the copy. -/
def reject : LoanTransition where
  toStatus := .rejected
  requires := none
  copyStatus := none
  holder := none
  stamp := some .respondedAt
  notify := some ⟨.borrower, .loanRejected⟩
  rejectRivals := false
  event := none

def cancelRequest : LoanTransition where
  toStatus := .cancelled
  requires := none
  copyStatus := none
  holder := none
  stamp := none
  notify := none
  rejectRivals := false
  event := none

def cancelApproved : LoanTransition where
  toStatus := .cancelled
  requires := some ⟨.reserved, .owner⟩
  copyStatus := some .available
  holder := none
  stamp := none
  notify := some ⟨.counterparty, .loanCancelled⟩
  rejectRivals := false
  event := none

def handOver : LoanTransition where
  toStatus := .handedOver
  requires := some ⟨.reserved, .owner⟩
  copyStatus := some .lentOut
  holder := some .borrower
  stamp := some .handedAt
  notify := some ⟨.owner, .loanHandedOver⟩
  rejectRivals := false
  event := none

/-- Only loans the owner recorded have an audit trail of their return. -/
def returnBook (origin : LoanOrigin) : LoanTransition where
  toStatus := .returned
  requires := some ⟨.lentOut, .borrower⟩
  copyStatus := some .available
  holder := some .owner
  stamp := some .returnedAt
  notify := some ⟨.borrower, .loanReturned⟩
  rejectRivals := false
  event := if origin = .requested then none else some .loanReturned

/-- The holder stays: the book is physically with the borrower. -/
def markLost : LoanTransition where
  toStatus := .lost
  requires := some ⟨.lentOut, .borrower⟩
  copyStatus := some .unavailable
  holder := none
  stamp := none
  notify := none
  rejectRivals := false
  event := some .loanLost

/-- `LOST → LOST`: only the copy changes, and the event records it. -/
def recover : LoanTransition where
  toStatus := .lost
  requires := some ⟨.unavailable, .borrower⟩
  copyStatus := some .available
  holder := some .owner
  stamp := none
  notify := none
  rejectRivals := false
  event := some .recovered

end LoanTransition

/-- A row that only one side may use. -/
def onlyFor (side actor : LoanActor) (t : LoanTransition) : LoanTransitionResult :=
  if actor ≠ side then .error .role else .ok t

def fromPendingConfirmation (action : LoanAction) (actor : LoanActor) : LoanTransitionResult :=
  match action with
  | .confirmRecord => onlyFor .borrower actor .confirmRecord
  | .declineRecord => onlyFor .borrower actor .declineRecord
  | .withdrawRecord => onlyFor .owner actor .withdrawRecord
  | .amendRecord => onlyFor .owner actor .amendRecord
  | _ => .error .state

def fromRequested (action : LoanAction) (actor : LoanActor) : LoanTransitionResult :=
  match action with
  | .approve => onlyFor .owner actor .approve
  | .reject => onlyFor .owner actor .reject
  | .cancel => onlyFor .borrower actor .cancelRequest
  | _ => .error .state

def fromApproved (action : LoanAction) (actor : LoanActor) : LoanTransitionResult :=
  match action with
  | .cancel => .ok .cancelApproved
  | .handOver => onlyFor .borrower actor .handOver
  | _ => .error .state

def fromHandedOver (action : LoanAction) (actor : LoanActor) (origin : LoanOrigin) :
    LoanTransitionResult :=
  match action with
  | .return => onlyFor .owner actor (.returnBook origin)
  | .markLost => onlyFor .owner actor .markLost
  | _ => .error .state

def fromLost (action : LoanAction) (actor : LoanActor) : LoanTransitionResult :=
  match action with
  | .recover => onlyFor .owner actor .recover
  | _ => .error .state

/-- The table of loans the owner recorded. -/
def resolveRecorded (fromStatus : LoanStatus) (action : LoanAction) (actor : LoanActor) :
    LoanTransitionResult :=
  match fromStatus with
  | .pendingConfirmation => fromPendingConfirmation action actor
  | .handedOver => fromHandedOver action actor .recordedExisting
  | .lost => fromLost action actor
  | _ => .error .state

/-- **The table of registered loans** (loan.transitions.ts:88). The status is checked
before the side. -/
def resolveTransition (fromStatus : LoanStatus) (action : LoanAction) (actor : LoanActor)
    (origin : LoanOrigin) : LoanTransitionResult :=
  match origin with
  | .recordedGuest => .error .state
  | .recordedExisting => resolveRecorded fromStatus action actor
  | .requested =>
    if isRecordAction action then .error .state
    else match fromStatus with
      | .requested => fromRequested action actor
      | .approved => fromApproved action actor
      | .handedOver => fromHandedOver action actor origin
      | .lost => fromLost action actor
      | _ => .error .state

/-- The rows of the table, one constructor each. -/
inductive TransitionRow :
    LoanStatus → LoanAction → LoanActor → LoanOrigin → LoanTransition → Prop
  | confirmRecord : TransitionRow .pendingConfirmation .confirmRecord .borrower
      .recordedExisting .confirmRecord
  | declineRecord : TransitionRow .pendingConfirmation .declineRecord .borrower
      .recordedExisting .declineRecord
  | withdrawRecord : TransitionRow .pendingConfirmation .withdrawRecord .owner
      .recordedExisting .withdrawRecord
  | amendRecord : TransitionRow .pendingConfirmation .amendRecord .owner
      .recordedExisting .amendRecord
  | approve : TransitionRow .requested .approve .owner .requested .approve
  | reject : TransitionRow .requested .reject .owner .requested .reject
  | cancelRequest : TransitionRow .requested .cancel .borrower .requested .cancelRequest
  | cancelApproved (actor : LoanActor) :
      TransitionRow .approved .cancel actor .requested .cancelApproved
  | handOver : TransitionRow .approved .handOver .borrower .requested .handOver
  | returnBook (origin : LoanOrigin) : origin ≠ .recordedGuest →
      TransitionRow .handedOver .return .owner origin (.returnBook origin)
  | markLost (origin : LoanOrigin) : origin ≠ .recordedGuest →
      TransitionRow .handedOver .markLost .owner origin .markLost
  | recover (origin : LoanOrigin) : origin ≠ .recordedGuest →
      TransitionRow .lost .recover .owner origin .recover

theorem onlyFor_eq_ok {side actor : LoanActor} {t t' : LoanTransition} :
    onlyFor side actor t = .ok t' ↔ actor = side ∧ t = t' := by
  unfold onlyFor
  by_cases h : actor = side
  · simp [h]
  · simp [h]

/-- **What the table allows is one of its rows.** -/
theorem transitionRow_of_resolve {fromStatus : LoanStatus} {action : LoanAction}
    {actor : LoanActor} {origin : LoanOrigin} {t : LoanTransition}
    (h : resolveTransition fromStatus action actor origin = .ok t) :
    TransitionRow fromStatus action actor origin t := by
  cases origin with
  | recordedGuest => cases h
  | recordedExisting =>
    cases fromStatus <;> cases action <;> try cases h
    all_goals
      obtain ⟨rfl, rfl⟩ := onlyFor_eq_ok.mp h
      constructor
    all_goals decide
  | requested =>
    cases fromStatus <;> cases action <;> try cases h
    case approved.cancel.refl => exact .cancelApproved actor
    all_goals
      obtain ⟨rfl, rfl⟩ := onlyFor_eq_ok.mp h
      constructor
    all_goals decide

/-- And every row is allowed. -/
theorem TransitionRow.resolve {fromStatus : LoanStatus} {action : LoanAction}
    {actor : LoanActor} {origin : LoanOrigin} {t : LoanTransition}
    (h : TransitionRow fromStatus action actor origin t) :
    resolveTransition fromStatus action actor origin = .ok t := by
  cases h with
  | returnBook _ ho => cases origin <;> first | rfl | exact absurd rfl ho
  | markLost _ ho => cases origin <;> first | rfl | exact absurd rfl ho
  | recover _ ho => cases origin <;> first | rfl | exact absurd rfl ho
  | _ => rfl

/-! ## Guest loans -/

/-- A guest loan's own statuses: `Extract<LoanStatus, …>`. -/
inductive GuestLoanStatus
  | handedOver | returned | lost
  deriving DecidableEq, Repr

def GuestLoanStatus.toLoanStatus : GuestLoanStatus → LoanStatus
  | .handedOver => .handedOver
  | .returned => .returned
  | .lost => .lost

/-- `GUEST_LOAN_STATUSES`, as a narrowing. -/
def LoanStatus.asGuest : LoanStatus → Option GuestLoanStatus
  | .handedOver => some .handedOver
  | .returned => some .returned
  | .lost => some .lost
  | _ => none

structure GuestLoanTransition where
  toStatus : GuestLoanStatus
  /-- `none`: the copy is not checked. -/
  requiresCopyStatus : Option CopyStatus
  copyStatus : Option CopyStatus
  /-- Does the book go back to the owner? -/
  copyHolder : Bool
  /-- Is `returnedAt` stamped? -/
  stamp : Bool
  event : LoanEventType
  deriving DecidableEq, Repr

def resolveGuestTransition (fromStatus : GuestLoanStatus) (action : GuestLoanAction) :
    Option GuestLoanTransition :=
  match fromStatus, action with
  | .handedOver, .return => some ⟨.returned, some .lentOut, some .available, true, true,
      .loanReturned⟩
  | .handedOver, .markLost => some ⟨.lost, some .lentOut, some .unavailable, false, false,
      .loanLost⟩
  | .lost, .recover => some ⟨.lost, some .unavailable, some .available, true, false,
      .recovered⟩
  | .lost, .closeLoss => some ⟨.lost, none, none, false, false, .lossClosed⟩
  | _, _ => none

/-! ## Guest confirmations -/

structure ConfirmationTransition where
  confirmationTo : GuestLoanConfirmationStatus
  loanTo : LoanStatus
  /-- `available`: the book is home; `lentOut`: the contact stays the holder. -/
  copyTo : CopyStatus
  event : LoanEventType
  rejectsRequestedRivals : Bool
  deriving DecidableEq, Repr

def CANCEL_HANDOVER : ConfirmationTransition :=
  ⟨.cancelled, .cancelled, .available, .guestHandoverCancelled, false⟩

def RECORD_OWNER_STATEMENT : ConfirmationTransition :=
  ⟨.ownerRecorded, .handedOver, .lentOut, .guestLoanOwnerRecorded, true⟩

def resolveConfirmationTransition (fromStatus : GuestLoanConfirmationStatus)
    (action : GuestConfirmationAction) : Option ConfirmationTransition :=
  if fromStatus ≠ .open ∧ fromStatus ≠ .denied then none
  else some (match action with
    | .cancelHandover => CANCEL_HANDOVER
    | .recordOwnerStatement => RECORD_OWNER_STATEMENT)

end Bookswap
