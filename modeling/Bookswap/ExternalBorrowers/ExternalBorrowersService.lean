import Bookswap.Guests.GuestLoanService

/-!
# ExternalBorrowersService and the retention cleanup

`external-borrowers/external-borrowers.service.ts` and
`external-borrowers/guest-contact-retention-cleanup.service.ts`: the owner's private
contacts, and the two ways a contact is erased. Erasure empties the contact's columns in
`Copy`, `Loan` and `GuestLoanConfirmation` and keeps their rows (`Db.eraseContacts`).

- `deleteContact`: by the owner; refused while a loan is active or a loss unresolved.
- `cleanupContacts`: by the daily job, past the deadline; refused only while active.
-/

namespace Bookswap

open Store Checked

/-- `ExternalBorrowersService.create`. -/
def createContact (now : Time) (ownerId : UserId) (alias' : String) (id : ContactId) (db : Db) :
    Tx Db := do
  let row : ExternalBorrower :=
    { id := id, ownerId := ownerId, aliasName := alias',
      retainUntil := some (now + RETENTION_NO_LOAN_WINDOW_MS), createdAt := now,
      guestNickname := none, guestEmail := none, guestEmailVerifiedAt := none }
  let contacts ← orThrow (db.contacts.insert row) (.internal "ExternalBorrower_pkey")
  return { db with contacts := contacts }

/-- `updateAlias` -/
def updateAlias (ownerId : UserId) (id : ContactId) (alias' : String) (db : Db) : Tx Db := do
  let (contacts, count) := db.contacts.updateMany (fun c => c.id = id ∧ c.ownerId = ownerId)
    ⟨fun c => { c with aliasName := alias' }, fun _ => rfl⟩
  throwIf (count = 0) notFoundContact
  return { db with contacts := contacts }

/-- Has the contact a loan in an exclusive status? -/
def Db.contactActive (db : Db) (id : ContactId) : Bool :=
  db.loans.rows.any fun l => l.borrowerContactId = some id ∧ l.status.isExclusive

/-- Has the contact a loss that is neither recovered nor closed? -/
def Db.contactUnresolved (db : Db) (id : ContactId) : Bool :=
  db.loans.rows.any fun l => l.borrowerContactId = some id ∧ l.status = .lost ∧
    db.hasEvent l.id .recovered = false ∧ db.hasEvent l.id .lossClosed = false

/-- `ExternalBorrowersService.delete` (external-borrowers.service.ts:119). -/
def deleteContact (ownerId : UserId) (id : ContactId) (db : Db) : Tx Db := do
  let contact ← orThrow (db.contacts.find? id) notFoundContact
  throwIf (contact.ownerId ≠ ownerId) notFoundContact
  throwIf (db.contactActive id = true)
    (apiError .externalBorrowerHasActiveLoan
      "У контакту є активна позика — спершу поверніть книжку або запишіть втрату" 409)
  throwIf (db.contactUnresolved id = true)
    (apiError .externalBorrowerHasUnresolvedLoss
      "У контакту є незакрита втрата — спершу «Знайшлася» або «Закрити втрату»" 409)
  return db.eraseContacts (· = id)

/-- One batch of `cleanupPhase`: the contacts of the batch whose deadline has passed and who
have no active loan. -/
def Db.dueContact (db : Db) (now : Time) (batch : List ContactId) (id : ContactId) : Bool :=
  id ∈ batch ∧ ((db.contacts.find? id).any fun c => c.retainUntil.any fun t => t ≤ now) ∧
    db.contactActive id = false

/-- `cleanupPhase` (guest-contact-retention-cleanup.service.ts:130), one transaction. -/
def cleanupContacts (now : Time) (batch : List ContactId) (db : Db) : Db :=
  db.eraseContacts (db.dueContact now batch)

/-- `backfillPhase`: the deadline of one contact, recomputed. -/
def backfillContact (id : ContactId) (db : Db) : Tx Db := recomputeRetainUntil id db

end Bookswap
