import Bookswap.Lib.Lists
import Bookswap.Lib.Newest
import Bookswap.Library.LibraryMapper
import Mathlib.Data.Prod.Lex

/-!
# profile-summary: where is my book, and what happened lately

`placeOf` answers where a copy of the owner's is, from the row of the copy and its open
loans (`SUMMARY_COPY` in `profile-summary.service.ts`). `latestActivity` merges the latest steps of
the user's loans with the days on which the user added copies; `activityLoansOf` reads, for each
timestamp of a loan, only as many loans as there are lines to show.
-/

namespace Bookswap

/-- The other side of a loan, or the holder of a copy. -/
inductive ProfileCounterpart
  | user (user : PublicUser)
  | guest (aliasName : Option String)
  deriving DecidableEq, Repr

inductive ProfileBookPlace
  | lost (holder : ProfileCounterpart)
  | lent (holder : ProfileCounterpart) (dueAt : Option Day) (overdue : Bool)
  | unavailable
  | reserved (borrower : ProfileCounterpart)
  | homeRequested (pendingRequestCount : Nat)
  | home
  deriving DecidableEq, Repr

/-- An open loan with its borrower and contact. -/
structure SummaryCopyLoanRow where
  loan : Loan
  borrower : Option User
  borrowerContact : Option ExternalBorrower

structure SummaryCopyRow where
  copy : Copy
  currentHolder : Option User
  heldByContact : Option ExternalBorrower
  loans : List SummaryCopyLoanRow

/-- The contact a nullable foreign key names. -/
def Db.contactOf (db : Db) (id : Option ContactId) : Option ExternalBorrower :=
  id.bind db.contacts.find?

/-- What the query `SUMMARY_COPY` reads of a copy. -/
def Db.summaryCopyRow (db : Db) (copy : Copy) : SummaryCopyRow where
  copy := copy
  currentHolder := db.userOf copy.currentHolderId
  heldByContact := db.contactOf copy.heldByContactId
  loans := (db.openLoansOf copy.id).map fun l =>
    ⟨l, db.userOf l.borrowerId, db.contactOf l.borrowerContactId⟩

def counterpartOf (user : Option User) (contact : Option ExternalBorrower) : ProfileCounterpart :=
  match user with
  | none => .guest (contact.map ExternalBorrower.aliasName)
  | some user => .user (toPublicUser user)

/-- profile-summary.mapper.ts:53 -/
def placeOf (row : SummaryCopyRow) (now : Time) : ProfileBookPlace :=
  if isHome row.copy = false then
    let holder := counterpartOf row.currentHolder row.heldByContact
    if row.copy.status = .unavailable then .lost holder
    else
      let loan := row.loans.find? fun l => l.loan.status = .handedOver
      .lent holder (toIsoDay (loan.bind (·.loan.dueAt)))
        (loan.any fun l => isOverdue l.loan now)
  else if row.copy.status = .unavailable then .unavailable
  else if row.copy.status = .reserved then
    let loan := row.loans.find? fun l =>
      l.loan.status = .approved ∨ l.loan.status = .pendingConfirmation
    .reserved (counterpartOf (loan.bind (·.borrower)) (loan.bind (·.borrowerContact)))
  else
    let pendingRequestCount := row.loans.countP fun l => l.loan.status = .requested
    if pendingRequestCount > 0 then .homeRequested pendingRequestCount else .home

/-! ## Activity -/

/-- A handover that really happened. -/
def HANDED_LOAN_STATUSES : List LoanStatus := [.handedOver, .returned, .lost]

inductive ProfileLoanEvent
  | requested | approved | rejected | handedOver | returned
  deriving DecidableEq, Repr

inductive ProfileRole
  | owner | borrower
  deriving DecidableEq, Repr

/-- The work of a loan's copy, as a line names it. -/
structure ActivityWork where
  id : Nat
  title : String
  deriving DecidableEq, Repr

structure ActivityLoanRow where
  loan : Loan
  owner : Option User
  borrower : Option User
  borrowerContact : Option ExternalBorrower
  work : ActivityWork

/-- Copies added on one day: how many, and when the last of them was added. -/
structure AddedCopiesDay where
  count : Nat
  at_ : Time
  deriving DecidableEq, Repr

/-- A line of the activity. -/
inductive ProfileActivity
  | loan (event : ProfileLoanEvent) (at_ : Time) (loanId : LoanId) (role : ProfileRole)
      (counterpart : ProfileCounterpart) (work : ActivityWork)
  | copiesAdded (at_ : Time) (count : Nat)
  deriving DecidableEq, Repr

/-- `line.at` -/
def ProfileActivity.at_ : ProfileActivity → Time
  | .loan _ at_ _ _ _ _ => at_
  | .copiesAdded at_ _ => at_

/-- The steps a loan's timestamps prove. -/
def loanStepsOf (loan : Loan) : List (ProfileLoanEvent × Time) :=
  (if loan.origin = .requested then
    (loan.requestedAt.map fun t => (.requested, t)).toList ++
      (loan.respondedAt.map fun t =>
        (if loan.status = .rejected then .rejected else .approved, t)).toList
  else []) ++
  (if loan.status ∈ HANDED_LOAN_STATUSES then
    (loan.handedAt.map fun t => (.handedOver, t)).toList
  else []) ++
  if loan.status = .returned then (loan.returnedAt.map fun t => (.returned, t)).toList else []

def toLoanActivity (row : ActivityLoanRow) (viewerId : UserId) : List ProfileActivity :=
  let asOwner := row.loan.ownerId = viewerId
  let counterpart :=
    if asOwner then counterpartOf row.borrower row.borrowerContact else counterpartOf row.owner none
  (loanStepsOf row.loan).map fun step =>
    .loan step.1 step.2 row.loan.id (if asOwner then .owner else .borrower) counterpart row.work

def AddedCopiesDay.toActivity (day : AddedCopiesDay) : ProfileActivity := .copiesAdded day.at_ day.count

/-- `[...new Map(loans.map((loan) => [loan.id, loan])).values()]`: the place of the first, the value
of the last. -/
def uniqueLoans (loans : List ActivityLoanRow) : List ActivityLoanRow :=
  (loans.map (·.loan.id)).eraseDups.filterMap fun id => loans.reverse.find? (·.loan.id = id)

def latestActivity (loans : List ActivityLoanRow) (addedDays : List AddedCopiesDay)
    (viewerId : UserId) (limit : Nat) : List ProfileActivity :=
  Newest.newest ProfileActivity.at_ limit
    ((uniqueLoans loans).flatMap (toLoanActivity · viewerId) ++
      addedDays.map AddedCopiesDay.toActivity)

/-! ### The queries -/

/-- `STEP_COLUMNS` -/
inductive StepColumn
  | requestedAt | respondedAt | handedAt | returnedAt
  deriving DecidableEq, Repr

def STEP_COLUMNS : List StepColumn := [.requestedAt, .respondedAt, .handedAt, .returnedAt]

def StepColumn.of (loan : Loan) : StepColumn → Option Time
  | .requestedAt => loan.requestedAt
  | .respondedAt => loan.respondedAt
  | .handedAt => loan.handedAt
  | .returnedAt => loan.returnedAt

/-- Which loans may carry each step. -/
def STEP_FILTERS (loan : Loan) : StepColumn → Bool
  | .requestedAt => loan.origin = .requested
  | .respondedAt => loan.origin = .requested
  | .handedAt => loan.status ∈ HANDED_LOAN_STATUSES
  | .returnedAt => loan.status = .returned

section

variable (db : Db) (workOf : EditionId → ActivityWork) (userId : UserId) (limit : Nat)

/-- The loans of the user in either role. -/
def Db.mine : List Loan :=
  db.loans.rows.filter fun l => l.ownerId = userId ∨ l.borrowerId = some userId

/-- `ACTIVITY_LOAN`; the foreign keys of a loan are there. -/
def activityLoanRow (loan : Loan) : ActivityLoanRow where
  loan := loan
  owner := db.userOf (some loan.ownerId)
  borrower := db.userOf loan.borrowerId
  borrowerContact := db.contactOf loan.borrowerContactId
  work := workOf (((db.copies.find? loan.copyId).map Copy.editionId).getD 0)

/-- One query: the loans that may carry the step, latest first, no more than the limit. -/
def stepLoans (column : StepColumn) : List Loan :=
  Newest.newest (fun l => toLex ((column.of l).getD 0, l.id)) limit
    ((db.mine userId).filter fun l => STEP_FILTERS l column ∧ (column.of l).isSome)

def activityLoansOf : List ActivityLoanRow :=
  STEP_COLUMNS.flatMap fun column =>
    (stepLoans db userId limit column).map (activityLoanRow db workOf)

/-- The copies that the user added on a day. -/
def Db.addedOn (day : Day) : List Copy :=
  db.copies.rows.filter fun c => c.ownerId = userId ∧ isoDayOf c.createdAt = day

/-- `GROUP BY "createdAt"::date` -/
def addedCopiesDays : List AddedCopiesDay :=
  ((db.copies.rows.filter fun c => c.ownerId = userId).map fun c =>
      isoDayOf c.createdAt).eraseDups.filterMap fun day =>
    ((db.addedOn userId day).map Copy.createdAt).max?.map fun at_ =>
      ⟨(db.addedOn userId day).length, at_⟩

def addedCopiesDaysOf : List AddedCopiesDay :=
  Newest.newest AddedCopiesDay.at_ limit (addedCopiesDays db userId)

end

end Bookswap
