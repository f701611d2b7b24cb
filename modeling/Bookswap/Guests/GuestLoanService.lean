import Bookswap.ExternalBorrowers.Retention
import Bookswap.Loans.LoanService

/-!
# GuestLoanService

`loans/guest-loan.service.ts`: loans to a private contact of the owner, who has no
account. Only the owner acts; the copy is held by the contact
(`heldByContactId`, with `currentHolderId` empty).

- `createGuestLoan`: a loan recorded as handed over at once.
- `applyGuestTransition`: `return`, `mark_lost`, `recover`, `close_loss`.

The first half of `createGuestLoan` (locks, guards, the loan, the copy) is word for
word the first half of `GuestLoanConfirmationService.createRequest`, and is
`lendToContact` for both.
-/

namespace Bookswap

open Store Checked

/-! ## Requests and answers -/

structure CreateGuestLoanRequest where
  copyId : CopyId
  externalBorrowerId : ContactId
  handedAt : Day
  dueAt : Option Day
  due_after : ∀ d ∈ dueAt, handedAt ≤ d

structure UpdateGuestLoanRequest where
  action : GuestLoanAction
  effectiveAt : Option Day
  effectiveAt_with : effectiveAt ≠ none → action = .recover

def notFoundContact : Failure := notFound "Контакт не знайдено"

def alreadyClosed : Failure :=
  apiError .loanAlreadyClosed "Втрату вже закрито для цього позичання" 409

/-- `asGuestLoan` -/
def Loan.isGuestRow (l : Loan) : Bool := l.handedAt ≠ none ∧ l.status.asGuest ≠ none

/-- `requireGuestRow`: a transaction ends on a row this service can answer with. -/
def requireGuestRow (row : Option Loan) : Tx Unit :=
  throwIf ((row.all Loan.isGuestRow) = false)
    (.internal "Очікувалась гостьова позика з допустимим статусом і handedAt")

/-! ## create -/

/-- The row of a new guest loan. -/
def guestLoanRow (status : LoanStatus) (now : Time) (copy : Copy) (req : CreateGuestLoanRequest)
    (id : LoanId) : Loan :=
  { id := id, copyId := copy.id, ownerId := copy.ownerId, borrowerId := none,
    status := status, borrowerKind := .guest,
    borrowerContactId := some req.externalBorrowerId, origin := .recordedGuest,
    createdAt := now, message := none, responseNote := none, requestedAt := none,
    respondedAt := none, handedAt := some (toHandedDate req.handedAt),
    dueAt := toDueDate req.dueAt, returnedAt := none }

/-- The copy goes to a contact. -/
def contactEdit (status : CopyStatus) (contactId : ContactId) : Table.Edit Copy.id where
  toFun c := { c with
    status := status, currentHolderId := none, heldByContactId := some contactId }
  keeps _ := rfl

/-- The common half of `createGuestLoan` and `createRequest`: the guards, the new loan and
the copy in the contact's hands. -/
def lendToContact (loanStatus : LoanStatus) (copyStatus : CopyStatus) (now : Time)
    (ownerId : UserId) (req : CreateGuestLoanRequest) (id : LoanId) (db : Db) : Tx Db := do
  let contact ← orThrow (db.contacts.find? req.externalBorrowerId) notFoundContact
  throwIf (contact.ownerId ≠ ownerId) notFoundContact
  let copy ← orThrow (db.copies.find? req.copyId) notFoundCopy
  throwIf (copy.ownerId ≠ ownerId) notFoundCopy
  throwIf (copy.archivedAt ≠ none) copyArchived
  throwIf (copy.status ≠ .available ∨ copy.currentHolderId ≠ some copy.ownerId ∨
    copy.heldByContactId ≠ none) copyUnavailable
  assertRecordDates req.handedAt req.dueAt now
  let loans ← orThrow (db.loans.insert (guestLoanRow loanStatus now copy req id))
    (.internal "Loan_pkey")
  let (copies, count) := db.copies.updateMany
    (fun c => c.id = copy.id ∧ c.status = .available ∧ c.currentHolderId = some copy.ownerId ∧
      c.heldByContactId = none)
    (contactEdit copyStatus req.externalBorrowerId)
  assertSingleRow count
  return { db with loans := loans, copies := copies }

/-- `GuestLoanService.createGuestLoan` (guest-loan.service.ts:143). -/
def createGuestLoan (now : Time) (ownerId : UserId) (req : CreateGuestLoanRequest) (id : LoanId)
    (db : Db) : Tx Db := do
  let db ← lendToContact .handedOver .lentOut now ownerId req id db
  let db ← rejectRequestedRivals req.copyId ownerId now db
  let db := db.record ⟨id, .guestLoanRecorded, some ownerId, now, none, .empty⟩
  let db ← recomputeRetainUntil req.externalBorrowerId db
  requireGuestRow (db.loans.find? id)
  return db

/-! ## apply -/

/-- Is the copy where the transition needs it? A guest's copy has no registered holder, and
its contact is the loan's, also when both are erased. -/
def GuestLoanTransition.copyReady (outcome : GuestLoanTransition) (loan : Loan) (copy : Copy) :
    Prop :=
  ∀ status ∈ outcome.requiresCopyStatus, copy.status = status ∧
    copy.currentHolderId = none ∧ copy.heldByContactId = loan.borrowerContactId

instance (outcome : GuestLoanTransition) (loan : Loan) (copy : Copy) :
    Decidable (outcome.copyReady loan copy) := by
  unfold GuestLoanTransition.copyReady
  infer_instance

/-- A recovery happens once; a loss is closed once, and not after a recovery. -/
def assertNotClosed (db : Db) (loanId : LoanId) (event : LoanEventType) : Tx Unit := do
  throwIf (event = .recovered ∧ db.hasEvent loanId .recovered = true) alreadyRecovered
  throwIf (event = .lossClosed ∧
    (db.hasEvent loanId .recovered = true ∨ db.hasEvent loanId .lossClosed = true)) alreadyClosed

/-- The preconditions of `recover` beyond the table (guest-loan.service.ts:449). -/
def assertGuestRecoverable (db : Db) (loan : Loan) (copy : Copy) (effectiveAt : Option Day)
    (now : Time) : Tx Time := do
  throwIf (∃ d ∈ effectiveAt, isoDayOf now < d) recoveryDateInvalid
  throwIf (copy.archivedAt ≠ none) copyArchived
  throwIf (db.occupiedByOther copy.id loan.id = true) copyOccupied
  return recoveredAt effectiveAt now

/-- The columns of the loan a guest transition writes. -/
def guestLoanEdit (outcome : GuestLoanTransition) (now : Time) : Table.Edit Loan.id where
  toFun l := { l with
    status := outcome.toStatus.toLoanStatus
    returnedAt := if outcome.stamp then some now else l.returnedAt }
  keeps _ := rfl

/-- The columns of the copy a guest transition writes. -/
def guestCopyEdit (outcome : GuestLoanTransition) (ownerId : UserId) : Table.Edit Copy.id where
  toFun c := { c with
    status := outcome.copyStatus.getD c.status
    currentHolderId := if outcome.copyHolder then some ownerId else c.currentHolderId
    heldByContactId := if outcome.copyHolder then none else c.heldByContactId }
  keeps _ := rfl

/-- The deadline of the loan's contact, if it still has one. -/
def recomputeOf (contactId : Option ContactId) (db : Db) : Tx Db :=
  match contactId with
  | none => .ok db
  | some id => recomputeRetainUntil id db

/-- `GuestLoanService.applyTransition` (guest-loan.service.ts:343). -/
def applyGuestTransition (now : Time) (ownerId : UserId) (id : LoanId)
    (req : UpdateGuestLoanRequest) (db : Db) : Tx Db := do
  let loan ← orThrow (db.loans.find? id) notFoundLoan
  throwIf (¬(loan.origin = .recordedGuest ∧ loan.borrowerKind = .guest ∧ loan.handedAt ≠ none ∧
    loan.ownerId = ownerId)) notFoundLoan
  let status ← orThrow loan.status.asGuest notFoundLoan
  let copy ← orThrow (db.copies.find? loan.copyId) notFoundLoan
  let outcome ← orThrow (resolveGuestTransition status req.action)
    (apiError .loanInvalidTransition "Дія неможлива в поточному стані гостьової позики" 409)
  assertNotClosed db id outcome.event
  let effectiveAt ← whenever (outcome.event = .recovered)
    (assertGuestRecoverable db loan copy req.effectiveAt now)
  throwIf (¬outcome.copyReady loan copy) copyStateChanged
  let loans ← updateOne (outcome.toStatus ≠ status) db.loans
    (fun l => l.id = loan.id ∧ l.status = loan.status) (guestLoanEdit outcome now)
  let copies ← updateOne (outcome.copyStatus ≠ none ∨ outcome.copyHolder) db.copies
    (fun c => c.id = copy.id ∧ c.status = copy.status ∧ c.heldByContactId = copy.heldByContactId)
    (guestCopyEdit outcome ownerId)
  let db := ({ db with loans := loans, copies := copies }).record
    ⟨loan.id, outcome.event, some ownerId, now, effectiveAt, .empty⟩
  let db ← recomputeOf loan.borrowerContactId db
  requireGuestRow (db.loans.find? loan.id)
  return db

end Bookswap
