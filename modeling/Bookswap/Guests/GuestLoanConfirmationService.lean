import Bookswap.Guests.GuestConfirmationSecrets
import Bookswap.Guests.GuestLoanService

/-!
# GuestLoanConfirmationService

`loans/guest-loan-confirmation.service.ts`: a handover to a contact that waits for the
guest's word. The owner opens it (`createRequest`), issues links to it (`rotateLink`)
and may settle it without the guest (`applyAction`); what the guest does is
`GuestLoanResponseService`.

An e-mail with a link is sent after `rotateLink` commits; when the sending fails, a
second statement withdraws the link (`withdrawLink`).
-/

namespace Bookswap

open Store Checked

def notFoundConfirmation : Failure := notFound "Запит підтвердження не знайдено"

/-- `GUEST_CONFIRMATION_LOAN_STATUSES` -/
def LoanStatus.isConfirmation : LoanStatus → Bool
  | .pendingConfirmation | .cancelled | .handedOver | .returned | .lost => true
  | _ => false

/-- `asGuestConfirmation` -/
def Loan.isConfirmationRow (l : Loan) : Bool := l.handedAt ≠ none ∧ l.status.isConfirmation

/-- `requireRow`: a transaction ends on a row this service can answer with. -/
def requireRow (row : Option Loan) : Tx Unit :=
  throwIf ((row.all Loan.isConfirmationRow) = false)
    (.internal "Очікувався запит гостьового підтвердження з допустимим статусом позики і handedAt")

/-! ## create -/

/-- The row of a new confirmation, with the defaults of its columns. -/
def confirmationRow (now : Time) (id : ConfirmationId) (loanId : LoanId) (contactId : ContactId) :
    GuestLoanConfirmation :=
  { id := id, loanId := loanId, externalBorrowerId := some contactId, status := .open,
    createdAt := now, resolvedAt := none, linkTokenHash := none, linkIssuedAt := none,
    linkExpiresAt := none, challengeMac := none, codeHash := none, codeExpiresAt := none,
    codeNonce := none, codeAttempts := 0, codeFailedTotal := 0, codeSentCount := 0,
    codeWindowStartedAt := none, proofHash := none, proofExpiresAt := none, verifiedAt := none }

/-- `createRequest` (guest-loan-confirmation.service.ts:149). -/
def createRequest (now : Time) (ownerId : UserId) (req : CreateGuestLoanRequest) (id : LoanId)
    (confirmationId : ConfirmationId) (db : Db) : Tx Db := do
  let db ← lendToContact .pendingConfirmation .reserved now ownerId req id db
  let confirmations ← orThrow
    (db.confirmations.insert (confirmationRow now confirmationId id req.externalBorrowerId))
    (.internal "GuestLoanConfirmation_pkey")
  let db := ({ db with confirmations := confirmations }).record
    ⟨id, .guestConfirmationRequested, some ownerId, now, none, .empty⟩
  let db ← recomputeRetainUntil req.externalBorrowerId db
  requireRow (db.loans.find? id)
  return db

/-! ## The chain of a pending handover -/

/-- `lockChain`: the owner's confirmation and its loan. -/
def lockChain (db : Db) (ownerId : UserId) (id : ConfirmationId) :
    Tx (GuestLoanConfirmation × Loan) := do
  let confirmation ← orThrow (db.confirmations.find? id) notFoundConfirmation
  let loan ← orThrow (db.loans.find? confirmation.loanId) notFoundConfirmation
  throwIf (¬(loan.ownerId = ownerId ∧ loan.origin = .recordedGuest ∧ loan.borrowerKind = .guest))
    notFoundConfirmation
  return (confirmation, loan)

/-- The loan waits, and its copy is reserved in the hands of the same contact. -/
structure PendingChain (loan : Loan) (copy : Copy) (contactId : ContactId) : Prop where
  pending : loan.status = .pendingConfirmation
  contact : loan.borrowerContactId = some contactId
  reserved : copy.status = .reserved
  no_holder : copy.currentHolderId = none
  held : copy.heldByContactId = some contactId

instance (loan : Loan) (copy : Copy) (contactId : ContactId) :
    Decidable (PendingChain loan copy contactId) :=
  decidable_of_iff (loan.status = .pendingConfirmation ∧ loan.borrowerContactId = some contactId ∧
    copy.status = .reserved ∧ copy.currentHolderId = none ∧ copy.heldByContactId = some contactId)
    ⟨fun ⟨a, b, c, d, e⟩ => ⟨a, b, c, d, e⟩, fun ⟨a, b, c, d, e⟩ => ⟨a, b, c, d, e⟩⟩

/-- `readPendingChain`: the copy and the contact of a pending handover. -/
def readPendingChain (db : Db) (confirmation : GuestLoanConfirmation) (loan : Loan) :
    Tx (Copy × ContactId) := do
  let copy ← orThrow (db.copies.find? loan.copyId) notFoundLoan
  let contactId ← orThrow confirmation.externalBorrowerId copyStateChanged
  throwIf (¬PendingChain loan copy contactId) copyStateChanged
  return (copy, contactId)

/-! ## apply -/

/-- The loan takes a new status. -/
def statusEdit (status : LoanStatus) : Table.Edit Loan.id where
  toFun l := { l with status := status }
  keeps _ := rfl

/-- The copy comes home, or stays with the contact as lent. -/
def settleCopyEdit (copyTo : CopyStatus) (ownerId : UserId) : Table.Edit Copy.id where
  toFun c :=
    if copyTo = .available then
      { c with status := .available, currentHolderId := some ownerId, heldByContactId := none }
    else { c with status := .lentOut }
  keeps c := by
    split <;> rfl

/-- A confirmation leaves its open state: the link and all secrets go with it. -/
def resolveEdit (status : GuestLoanConfirmationStatus) (resolvedAt : Option Time) :
    Table.Edit GuestLoanConfirmation.id where
  toFun g := { g.clearedLinkAndChallenge with status := status, resolvedAt := resolvedAt }
  keeps _ := rfl

/-- The rivals, when the decision rejects them. -/
def rejectRivalsWhen (c : Bool) (copyId : CopyId) (actorId : UserId) (now : Time) (db : Db) :
    Tx Db :=
  if c then rejectRequestedRivals copyId actorId now db else return db

/-- The writes of `applyAction` (guest-loan-confirmation.service.ts:287): the loan, its copy,
the rivals, the confirmation, the event, the contact's deadline. -/
def writeDecision (now : Time) (ownerId : UserId) (confirmation : GuestLoanConfirmation)
    (loan : Loan) (copy : Copy) (contactId : ContactId) (transition : ConfirmationTransition)
    (db : Db) : Tx Db := do
  let loans ← updateOne true db.loans
    (fun l => l.id = loan.id ∧ l.status = .pendingConfirmation) (statusEdit transition.loanTo)
  let copies ← updateOne true db.copies
    (fun c => c.id = copy.id ∧ c.status = .reserved ∧ c.heldByContactId = some contactId)
    (settleCopyEdit transition.copyTo ownerId)
  let db ← rejectRivalsWhen transition.rejectsRequestedRivals copy.id ownerId now
    { db with loans := loans, copies := copies }
  let confirmations ← updateOne true db.confirmations
    (fun g => g.id = confirmation.id ∧ g.status = confirmation.status)
    (resolveEdit transition.confirmationTo (some now))
  let db := ({ db with confirmations := confirmations }).record
    ⟨loan.id, transition.event, some ownerId, now, none, .empty⟩
  let db ← recomputeRetainUntil contactId db
  requireRow (db.loans.find? loan.id)
  return db

/-- `applyAction` (guest-loan-confirmation.service.ts:270). -/
def applyAction (now : Time) (ownerId : UserId) (id : ConfirmationId)
    (action : GuestConfirmationAction) (db : Db) : Tx Db := do
  let (confirmation, loan) ← lockChain db ownerId id
  let transition ← orThrow (resolveConfirmationTransition confirmation.status action)
    (apiError .loanInvalidTransition
      "Дія неможлива в поточному стані запиту підтвердження" 409)
  let (copy, contactId) ← readPendingChain db confirmation loan
  writeDecision now ownerId confirmation loan copy contactId transition db

/-! ## Links -/

/-- The columns of a new link; all that hung on the old one is cleared. -/
def linkEdit (secrets : GuestConfirmationSecrets) (token : Token) (now : Time) :
    Table.Edit GuestLoanConfirmation.id where
  toFun g := { g.clearedLinkAndChallenge with
    linkTokenHash := some (secrets.hashToken token)
    linkIssuedAt := some now
    linkExpiresAt := some (now + GUEST_LINK_TTL_MS) }
  keeps _ := rfl

/-- `rotateLink` (guest-loan-confirmation.service.ts:403). -/
def rotateLink (secrets : GuestConfirmationSecrets) (now : Time) (ownerId : UserId)
    (id : ConfirmationId) (token : Token) (db : Db) : Tx Db := do
  let (confirmation, loan) ← lockChain db ownerId id
  throwIf (confirmation.status ≠ .open)
    (apiError .guestLinkNotIssuable
      "Посилання можна видати лише для запиту, що чекає відповіді гостя" 409)
  let _ ← readPendingChain db confirmation loan
  let confirmations ← updateOne true db.confirmations
    (fun g => g.id = id ∧ g.status = .open) (linkEdit secrets token now)
  requireRow (db.loans.find? loan.id)
  return { db with confirmations := confirmations }

/-- The statement `issueLink` runs when the e-mail with the link could not be sent
(guest-loan-confirmation.service.ts:369): only the link it issued is withdrawn. -/
def withdrawLink (secrets : GuestConfirmationSecrets) (id : ConfirmationId) (token : Token)
    (db : Db) : Db :=
  { db with
    confirmations := (db.confirmations.updateMany
      (fun g => g.id = id ∧ g.linkTokenHash = some (secrets.hashToken token))
      ⟨GuestLoanConfirmation.clearedLinkAndChallenge, fun _ => rfl⟩).1 }

end Bookswap
