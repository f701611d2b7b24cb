import Bookswap.Loans.LoanService

/-!
# LibraryService: the owner's shelf

The writes of `library/library.service.ts` and `library/copy-writer.ts`: the owner adds,
edits, removes, archives and restores copies. What the owner and others read of it is
`Library.Reading`.

`updateCopy` is the only writer of `Copy.status` that takes no lock; its guard is a
sub-query of the one statement (`ownerMayUpdate`). Here it runs in one step; `Race`
splits it.
-/

namespace Bookswap

open Store Checked

/-- `defaultCopyVisibility` (copy-writer.ts:34). -/
def defaultCopyVisibility (libraryVisibility : Visibility) : Visibility :=
  strictestVisibility libraryVisibility .friends

/-- `OwnerCopyStatus`: the states the owner sets by hand. -/
inductive OwnerCopyStatus
  | available | unavailable
  deriving DecidableEq, Repr

def OwnerCopyStatus.toCopyStatus : OwnerCopyStatus → CopyStatus
  | .available => .available
  | .unavailable => .unavailable

/-- The body of `POST /me/library`. -/
structure AddCopyRequest where
  editionId : EditionId
  condition : Option Condition
  note : Option String
  visibility : Option Visibility
  acquiredAt : Option Day

/-- The body of `PATCH /me/library/:id`; an outer `none` is an absent field. -/
structure UpdateCopyRequest where
  condition : Option Condition
  note : Option (Option String)
  visibility : Option Visibility
  acquiredAt : Option (Option Day)
  status : Option OwnerCopyStatus

/-! ## addCopy -/

/-- The row of a new copy: at home, with the column default `AVAILABLE`. -/
def copyRow (now : Time) (owner : User) (req : AddCopyRequest) (id : CopyId) : Copy :=
  { id := id, editionId := req.editionId, ownerId := owner.id,
    currentHolderId := some owner.id, heldByContactId := none, archivedAt := none,
    status := .available,
    visibility := req.visibility.getD (defaultCopyVisibility owner.libraryVisibility),
    condition := req.condition.getD .good, note := req.note,
    acquiredAt := req.acquiredAt.map toHandedDate, createdAt := now }

/-- `addCopy` with `CopyWriter.create` (library.service.ts:213, copy-writer.ts:51). -/
def addCopy (now : Time) (userId : UserId) (req : AddCopyRequest) (id : CopyId) (db : Db) :
    Tx Db := do
  let owner ← orThrow (db.users.find? userId) (.internal "Copy_ownerId_fkey")
  let copies ← orThrow (db.copies.insert (copyRow now owner req id)) (.internal "Copy_pkey")
  return { db with copies := copies }

/-! ## updateCopy -/

/-- Has the copy a loan in an exclusive status? -/
def Db.hasExclusiveLoan (db : Db) (copyId : CopyId) : Bool :=
  db.loans.rows.any fun l => l.copyId = copyId ∧ l.status.isExclusive

/-- The `where` of `updateCopy`: the owner's row; when the status changes, also a copy in the
owner's hands without an exclusive loan. -/
def ownerMayUpdate (db : Db) (userId : UserId) (req : UpdateCopyRequest) (c : Copy) : Bool :=
  c.ownerId = userId ∧
    (req.status.isSome → c.currentHolderId = some userId ∧ db.hasExclusiveLoan c.id = false)

/-- The columns `updateCopy` writes. -/
def updateCopyEdit (req : UpdateCopyRequest) : Table.Edit Copy.id where
  toFun c := { c with
    condition := req.condition.getD c.condition
    note := req.note.getD c.note
    visibility := req.visibility.getD c.visibility
    acquiredAt := (req.acquiredAt.map fun d => d.map toHandedDate).getD c.acquiredAt
    status := (req.status.map OwnerCopyStatus.toCopyStatus).getD c.status }
  keeps _ := rfl

/-- `updateCopy` (library.service.ts:250). -/
def updateCopy (userId : UserId) (copyId : CopyId) (req : UpdateCopyRequest) (db : Db) :
    Tx Db := do
  let existing ← orThrow (db.copies.find? copyId) notFoundCopy
  throwIf (existing.ownerId ≠ userId) notFoundCopy
  let (copies, count) := db.copies.updateMany
    (fun c => c.id = copyId ∧ ownerMayUpdate db userId req c) (updateCopyEdit req)
  throwIf (count = 0 ∧ req.status = none) notFoundCopy
  throwIf (count = 0)
    (apiError .copyStatusLocked
      "Статус не можна змінити, поки книжка не вдома або має активне позичання" 409)
  return { db with copies := copies }

/-! ## removeCopy, archiveCopy, restoreCopy -/

/-- `lockOwnCopy` -/
def lockOwnCopy (db : Db) (userId : UserId) (copyId : CopyId) : Tx Copy := do
  let copy ← orThrow (db.copies.find? copyId) notFoundCopy
  throwIf (copy.ownerId ≠ userId) notFoundCopy
  return copy

/-- Has the copy any loan at all? -/
def Db.hasLoan (db : Db) (copyId : CopyId) : Bool :=
  db.loans.rows.any fun l => l.copyId = copyId

/-- `removeCopy` (library.service.ts:306). -/
def removeCopy (userId : UserId) (copyId : CopyId) (db : Db) : Tx Db := do
  let _ ← lockOwnCopy db userId copyId
  throwIf (db.hasLoan copyId = true)
    (apiError .copyHasLoanHistory
      "Примірник не можна видалити: у нього є історія позичань. Заархівуйте його" 409)
  return { db with copies := db.copies.filter fun c => c.id ≠ copyId }

/-- Put the copy away, or back. -/
def archiveEdit (archivedAt : Option Time) : Table.Edit Copy.id where
  toFun c := { c with archivedAt := archivedAt }
  keeps _ := rfl

/-- The waiting requests are rejected by the owner who archives: the rows read first are
notified, and the count of the update must be theirs. -/
def rejectOnArchive (now : Time) (userId : UserId) (copyId : CopyId) (db : Db) : Tx Db := do
  let requests := db.rivals copyId none
  let (loans, count) := db.loans.updateMany
    (fun l => l.id ∈ requests.map Loan.id ∧ l.isRequestFlowRequested) (Loan.rejectedAt now)
  throwIf (count ≠ requests.length)
    (.internal "Запити змінилися під блокуванням архівування")
  let notices ← rejectionNotices copyId userId requests
  return { db with loans := loans, notifications := db.notifications ++ notices }

/-- `archiveCopy` (library.service.ts:334); on an archived copy it does nothing. -/
def archiveCopy (now : Time) (userId : UserId) (copyId : CopyId) (db : Db) : Tx Db := do
  let copy ← lockOwnCopy db userId copyId
  if copy.archivedAt ≠ none then
    return db
  throwIf (db.hasExclusiveLoan copyId = true)
    (apiError .copyHasActiveLoan "Примірник не можна архівувати: він зараз у позичанні" 409)
  let db ← rejectOnArchive now userId copyId db
  return { db with copies := db.copies.modify copyId (archiveEdit (some now)) }

/-- `restoreCopy` (library.service.ts:399). -/
def restoreCopy (userId : UserId) (copyId : CopyId) (db : Db) : Tx Db := do
  let _ ← lockOwnCopy db userId copyId
  return { db with copies := db.copies.modify copyId (archiveEdit none) }

end Bookswap
