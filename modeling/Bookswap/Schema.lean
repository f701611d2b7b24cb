import Bookswap.Domain
import Bookswap.Lib.Table

/-!
# The stored rows

The models of `prisma/schema.prisma` that the lending flows read or write, and the
database as a record of tables. `LoanEvent` and `Notification` are append-only in
the source and are lists here, oldest first; every other model is a table with its
primary key.

- `Friendship` carries `userAId < userBId` (CHECK `friendship_ab_ordered`), so the
  pair itself is its key.
- `GuestLoanConfirmation` keeps all columns of the link and of the challenge.
- `Db.eraseContacts` is `DELETE` on `ExternalBorrower` with its three `SET NULL`
  foreign keys.
-/

namespace Bookswap

open Store (Table)

/-! ## Rows -/

/-- The public profile and the settings of a user that the flows read. -/
structure User where
  id : UserId
  displayName : String
  handle : String
  avatarUrl : Option String
  libraryVisibility : Visibility
  showHolderNames : Bool
  friendsOfFriendsAccess : Bool
  loanRequestsPaused : Bool
  deriving DecidableEq, Repr

/-- A pair of users; the order of the two ids is the CHECK `friendship_ab_ordered`. -/
structure Friendship where
  userAId : UserId
  userBId : UserId
  ordered : userAId < userBId
  status : FriendshipStatus
  requestedById : UserId
  blockedById : Option UserId
  deriving DecidableEq

def Friendship.pair (f : Friendship) : UserId × UserId := (f.userAId, f.userBId)

structure Copy where
  id : CopyId
  editionId : EditionId
  ownerId : UserId
  currentHolderId : Option UserId
  heldByContactId : Option ContactId
  archivedAt : Option Time
  status : CopyStatus
  visibility : Visibility
  condition : Condition
  note : Option String
  acquiredAt : Option Time
  createdAt : Time
  deriving DecidableEq, Repr

structure Loan where
  id : LoanId
  copyId : CopyId
  ownerId : UserId
  borrowerId : Option UserId
  status : LoanStatus
  borrowerKind : BorrowerKind
  borrowerContactId : Option ContactId
  origin : LoanOrigin
  createdAt : Time
  message : Option String
  responseNote : Option String
  requestedAt : Option Time
  respondedAt : Option Time
  handedAt : Option Time
  dueAt : Option Time
  returnedAt : Option Time
  deriving DecidableEq, Repr

/-- The dates of a recorded loan (`recordDatesSchema`). -/
structure RecordDates where
  handedOn : Day
  dueOn : Option Day
  deriving DecidableEq, Repr

/-- `LOAN_EVENT_PAYLOAD_SCHEMA`: only two event types carry anything. -/
inductive EventPayload
  | empty
  | dates (d : RecordDates)
  | amended (previous next : RecordDates)
  deriving DecidableEq, Repr

structure LoanEvent where
  loanId : LoanId
  type : LoanEventType
  actorId : Option UserId
  occurredAt : Time
  effectiveAt : Option Time
  payload : EventPayload
  deriving DecidableEq, Repr

/-- The value of a keyed or plain hash (a hex text in the source). -/
abbrev Digest := Nat

/-- A random 256-bit secret: a link token or a proof. -/
abbrev Token := Nat

/-- A six-digit code. -/
abbrev Code := Fin 1000000

/-- The random identifier of one code issue. -/
abbrev Nonce := Nat

structure GuestLoanConfirmation where
  id : ConfirmationId
  loanId : LoanId
  externalBorrowerId : Option ContactId
  status : GuestLoanConfirmationStatus
  createdAt : Time
  resolvedAt : Option Time
  linkTokenHash : Option Digest
  linkIssuedAt : Option Time
  linkExpiresAt : Option Time
  challengeMac : Option Digest
  codeHash : Option Digest
  codeExpiresAt : Option Time
  codeNonce : Option Nonce
  codeAttempts : Nat
  codeFailedTotal : Nat
  codeSentCount : Nat
  codeWindowStartedAt : Option Time
  proofHash : Option Digest
  proofExpiresAt : Option Time
  verifiedAt : Option Time
  deriving DecidableEq, Repr

structure ExternalBorrower where
  id : ContactId
  ownerId : UserId
  aliasName : String
  retainUntil : Option Time
  createdAt : Time
  guestNickname : Option String
  guestEmail : Option String
  guestEmailVerifiedAt : Option Time
  deriving DecidableEq, Repr

inductive NotificationPayload
  | loan (loanId : LoanId) (copyId : CopyId) (actorId : UserId)
  | guestResponse (loanId : LoanId) (copyId : CopyId) (confirmationId : ConfirmationId)
  deriving DecidableEq, Repr

structure Notification where
  userId : UserId
  type : NotificationType
  payload : NotificationPayload
  deriving DecidableEq, Repr

/-! ## The database -/

structure Db where
  users : Table User.id
  friendships : Table Friendship.pair
  copies : Table Copy.id
  loans : Table Loan.id
  confirmations : Table GuestLoanConfirmation.id
  contacts : Table ExternalBorrower.id
  events : List LoanEvent
  notifications : List Notification

namespace Db

/-- The events of one loan, oldest first. -/
def eventsOf (db : Db) (loanId : LoanId) : List LoanEvent :=
  db.events.filter fun e => e.loanId = loanId

/-- Is there an event of this type for the loan? (`loanEvent.findFirst`) -/
def hasEvent (db : Db) (loanId : LoanId) (type : LoanEventType) : Bool :=
  db.events.any fun e => e.loanId = loanId ∧ e.type = type

/-- `LoanEventService.record` (loan-event.service.ts:16). -/
def record (db : Db) (e : LoanEvent) : Db := { db with events := db.events ++ [e] }

/-- `NotificationsService.create` in the caller's transaction. -/
def notify (db : Db) (n : Notification) : Db :=
  { db with notifications := db.notifications ++ [n] }

/-- Forget a contact in a nullable column: `ON DELETE SET NULL`. -/
def forget (gone : ContactId → Bool) (c : Option ContactId) : Option ContactId :=
  c.filter fun x => !gone x

/-- `DELETE FROM "ExternalBorrower"` for the contacts in `gone`. The foreign keys of
`Copy`, `Loan` and `GuestLoanConfirmation` are `SET NULL` (schema.prisma). -/
def eraseContacts (db : Db) (gone : ContactId → Bool) : Db :=
  { db with
    contacts := db.contacts.filter fun c => !gone c.id
    copies := db.copies.map
      ⟨fun c => { c with heldByContactId := forget gone c.heldByContactId }, fun _ => rfl⟩
    loans := db.loans.map
      ⟨fun l => { l with borrowerContactId := forget gone l.borrowerContactId }, fun _ => rfl⟩
    confirmations := db.confirmations.map
      ⟨fun g => { g with externalBorrowerId := forget gone g.externalBorrowerId },
        fun _ => rfl⟩ }

theorem hasEvent_iff {db : Db} {loanId : LoanId} {type : LoanEventType} :
    db.hasEvent loanId type = true ↔ ∃ e ∈ db.events, e.loanId = loanId ∧ e.type = type := by
  simp [hasEvent]

end Db

end Bookswap
