import Mathlib.Data.List.Basic

/-!
# The vocabulary of the lending domain

The enumerations of `packages/shared/src/domain` and `prisma/schema.prisma`, the
two readings of time (an instant in milliseconds, a day without time), and the
errors a request can answer with (`common/api.exception.ts`).

- Identifiers are opaque in the source (`cuid`); all that the code uses of them is
  equality and their order, so they are natural numbers here.
- A day is the number of days since the epoch; the source compares days as ISO
  strings, which order the same way.
-/

namespace Bookswap

abbrev UserId := Nat
abbrev CopyId := Nat
abbrev EditionId := Nat
abbrev LoanId := Nat
abbrev ContactId := Nat
abbrev ConfirmationId := Nat

/-- An instant, in milliseconds since the epoch. -/
abbrev Time := Int

/-- A day without time, in days since the epoch. -/
abbrev Day := Int

/-! ## Days and instants -/

def DAY_MS : Int := 86400000

/-- The UTC day of an instant: `toISOString().slice(0, 10)`. -/
def isoDayOf (t : Time) : Day := t / DAY_MS

/-- The actual date of a handover: the start of the UTC day (loan.service.ts:1041). -/
def toHandedDate (day : Day) : Time := day * DAY_MS

/-- The last instant at which a book due that day is not late (loan.mapper.ts:160). -/
def toDueDate (day : Option Day) : Option Time := day.map fun d => d * DAY_MS + (DAY_MS - 1)

/-- The day shown for a stored instant (loan.mapper.ts:146). -/
def toIsoDay (value : Option Time) : Option Day := value.map isoDayOf

/-- Any instant of a day falls on that day. -/
theorem ediv_DAY_MS (d r : Int) (h₀ : 0 ≤ r) (h₁ : r < DAY_MS) : (d * DAY_MS + r) / DAY_MS = d := by
  unfold DAY_MS at *
  omega

@[simp] theorem isoDayOf_toHandedDate (d : Day) : isoDayOf (toHandedDate d) = d := by
  simp [isoDayOf, toHandedDate, DAY_MS]

/-- A stored due date is shown as the day it was set to. -/
@[simp] theorem toIsoDay_toDueDate (d : Option Day) : toIsoDay (toDueDate d) = d := by
  cases d with
  | none => rfl
  | some d =>
    have h := ediv_DAY_MS d (DAY_MS - 1) (by decide) (by decide)
    simp [toIsoDay, toDueDate, isoDayOf, h]

/-! ## Enumerations -/

inductive LoanStatus
  | requested | approved | rejected | cancelled | handedOver | returned | lost
  | pendingConfirmation | declined
  deriving DecidableEq, Repr

/-- `EXCLUSIVE_LOAN_STATUS`: at most one such loan per copy (domain/loan.ts:62). -/
def LoanStatus.isExclusive : LoanStatus → Bool
  | .approved | .handedOver | .pendingConfirmation => true
  | _ => false

/-- `OPEN_LOAN_STATUS` (domain/loan.ts:40). -/
def LoanStatus.isOpen : LoanStatus → Bool
  | .requested | .approved | .handedOver | .pendingConfirmation => true
  | _ => false

inductive CopyStatus
  | available | reserved | lentOut | unavailable
  deriving DecidableEq, Repr

inductive LoanOrigin
  | requested | recordedExisting | recordedGuest
  deriving DecidableEq, Repr

inductive BorrowerKind
  | registered | guest
  deriving DecidableEq, Repr

inductive LoanAction
  | approve | reject | cancel | handOver | return | markLost | recover
  | confirmRecord | declineRecord | withdrawRecord | amendRecord
  deriving DecidableEq, Repr

/-- The word of an action in requests and messages (`LOAN_ACTIONS`). -/
def LoanAction.text : LoanAction → String
  | .approve => "approve"
  | .reject => "reject"
  | .cancel => "cancel"
  | .handOver => "hand_over"
  | .return => "return"
  | .markLost => "mark_lost"
  | .recover => "recover"
  | .confirmRecord => "confirm_record"
  | .declineRecord => "decline_record"
  | .withdrawRecord => "withdraw_record"
  | .amendRecord => "amend_record"

/-- contracts/loan.ts:180 -/
def isRecordAction : LoanAction → Bool
  | .confirmRecord | .declineRecord | .withdrawRecord | .amendRecord => true
  | _ => false

inductive GuestLoanAction
  | return | markLost | recover | closeLoss
  deriving DecidableEq, Repr

inductive GuestConfirmationAction
  | cancelHandover | recordOwnerStatement
  deriving DecidableEq, Repr

inductive GuestLoanConfirmationStatus
  | open | denied | received | cancelled | ownerRecorded
  deriving DecidableEq, Repr

inductive GuestAnswer
  | received | denied
  deriving DecidableEq, Repr

inductive LoanEventType
  | recordProposed | recordAmended | recordConfirmed | recordDeclined | recordWithdrawn
  | guestLoanRecorded | loanReturned | loanLost | recovered | lossClosed
  | guestConfirmationRequested | guestHandoverCancelled | guestLoanOwnerRecorded
  | guestLoanReceived | guestLoanDenied
  deriving DecidableEq, Repr

/-- The notification types the loan flows write. -/
inductive NotificationType
  | loanRequested | loanApproved | loanRejected | loanCancelled | loanHandedOver
  | loanReturned | loanRecordProposed | loanRecordConfirmed | loanRecordDeclined
  | loanRecordWithdrawn | loanRecordAmended | guestLoanReceived | guestLoanDenied
  deriving DecidableEq, Repr

inductive Visibility
  | pub | friends | priv
  deriving DecidableEq, Repr

inductive Condition
  | new | good | worn | damaged
  deriving DecidableEq, Repr

inductive FriendshipStatus
  | pending | accepted | declined | blocked
  deriving DecidableEq, Repr

/-! ## Errors -/

/-- The domain codes of `API_ERROR_CODES` that the modelled requests answer with. -/
inductive ErrorCode
  | validationError | forbidden | notFound | conflict
  | friendshipSelf | friendshipExists | friendshipBlocked | friendshipInvalidTransition
  | copyHasActiveLoan | copyHasLoanHistory | copyArchived | copyStatusLocked
  | loanSelf | loanCopyUnavailable | loanDuplicateRequest | loanRequestsPaused
  | loanInvalidTransition | loanCopyStateMismatch | loanAlreadyRecovered
  | loanRecoveryDateInvalid | loanRecordDateInvalid | loanAlreadyClosed
  | externalBorrowerHasActiveLoan | externalBorrowerHasUnresolvedLoss
  | guestLinkInvalid | guestLinkExpired | guestCodeInvalid | guestCodeRateLimited
  | guestProofInvalid | guestLinkEmailFailed | guestLinkNotIssuable
  | inviteInvalid | inviteExpired | inviteRevoked | inviteExhausted | inviteSelf
  | inviteEmailFailed | inviteRateLimited | inviteEmailUnverified
  | editionIsbnTaken | externalIdentityConflict
  | libraryAddOperationConflict | libraryAddResultRemoved
  | workMerged | editionLanguageConflict | editionTextKindConflict
  | catalogRevisionConflict | catalogEditForbidden
  | catalogLookupTimeout | catalogLookupProviderError | catalogLookupNotFound
  | invalidCredentials | invalidToken | internalError | telegramNotLinked
  | importExpired | importRowConflict | importNotReady | importTooLarge
  deriving DecidableEq, Repr

/-- An answer to the client: code, message, HTTP status. -/
structure ApiException where
  code : ErrorCode
  message : String
  status : Nat
  deriving DecidableEq, Repr

/-- How a request fails: an answer to the client, or `throw new Error` (a 500). -/
inductive Failure
  | api (e : ApiException)
  | internal (message : String)
  deriving DecidableEq, Repr

/-- `throw new ApiException(code, message, status)`. -/
def apiError (code : ErrorCode) (message : String) (status : Nat) : Failure :=
  .api ⟨code, message, status⟩

/-- A transaction: it fails, or commits a value. -/
abbrev Tx (α : Type) := Except Failure α

/-- How a transaction that may be repeated ends without a commit: its own failure, or a unique
constraint that another transaction was first to use (`P2002`). -/
inductive TxFailure
  | failed (f : Failure)
  | uniqueViolation (constraint : String)
  deriving DecidableEq, Repr

end Bookswap
