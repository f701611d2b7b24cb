import Bookswap.Access

/-!
# library.mapper.ts

The pure projections of a copy for the people who look at a shelf. A `CopyRow` is what the
query reads (`WITH_CATALOG`): the copy, its registered holder, and its open loans with their
borrowers; the catalogue part of the row is in `Catalog`.

- `viewerLoanOf`, `canRequestCopy`, `expectedReturnOf`: what a viewer may know and do.
- `toVisibleCopy`: the projection for everyone but the owner's own pages.
-/

namespace Bookswap

/-! ## Users -/

/-- `PUBLIC_USER_FIELDS`, as `toPublicUser` answers with them. -/
structure PublicUser where
  id : UserId
  displayName : String
  handle : String
  avatarUrl : Option String
  deriving DecidableEq, Repr

def toPublicUser (user : User) : PublicUser :=
  ⟨user.id, user.displayName, user.handle, user.avatarUrl⟩

namespace Db

/-- The user a nullable foreign key names. -/
def userOf (db : Db) (id : Option UserId) : Option User := id.bind db.users.find?

/-- The loans of a copy that are still open (`OPEN_LOAN_STATUSES`). -/
def openLoansOf (db : Db) (copyId : CopyId) : List Loan :=
  db.loans.rows.filter fun l => l.copyId = copyId ∧ l.status.isOpen

end Db

/-! ## Rows -/

structure CopyRow where
  copy : Copy
  currentHolder : Option User
  loans : List Loan

/-- The row of a copy, as the query reads it. -/
def Db.copyRow (db : Db) (copy : Copy) : CopyRow :=
  ⟨copy, db.userOf copy.currentHolderId, db.openLoansOf copy.id⟩

/-- At home: the holder is the owner, and no contact has the book. -/
def isHome (copy : Copy) : Bool :=
  copy.currentHolderId = some copy.ownerId ∧ copy.heldByContactId = none

/-- `isOverdue` (loan.mapper.ts:130) -/
def isOverdue (loan : Loan) (now : Time) : Bool :=
  loan.status = .handedOver ∧ ∃ t ∈ loan.dueAt, t < now

/-! ## The viewer's own loan -/

structure ViewerLoan where
  id : LoanId
  status : LoanStatus
  deriving DecidableEq, Repr

/-- `OPEN_RANK`; a closed status has none. -/
def LoanStatus.openRank : LoanStatus → Option Nat
  | .requested => some 1
  | .approved | .pendingConfirmation => some 2
  | .handedOver => some 3
  | _ => none

/-- One round of the loop: a loan of the viewer's that went further than the best so far. -/
def betterLoan (viewerId : UserId) (best : Option ViewerLoan) (loan : Loan) : Option ViewerLoan :=
  if loan.borrowerId ≠ some viewerId then best
  else match loan.status.openRank with
    | none => best
    | some rank =>
      if ∃ b ∈ best, ∃ r ∈ b.status.openRank, rank ≤ r then best
      else some ⟨loan.id, loan.status⟩

def viewerLoanOf (loans : List Loan) (viewerId : UserId) : Option ViewerLoan :=
  loans.foldl (betterLoan viewerId) none

/-- A viewer has no loan exactly when none of theirs is open. -/
theorem viewerLoanOf_eq_none_iff {loans : List Loan} {viewerId : UserId} :
    viewerLoanOf loans viewerId = none ↔
      ∀ l ∈ loans, l.borrowerId = some viewerId → l.status.openRank = none := by
  have hkeep : ∀ (ls : List Loan) (b : ViewerLoan),
      (ls.foldl (betterLoan viewerId) (some b)) ≠ none := by
    intro ls
    induction ls with
    | nil => exact fun b => Option.some_ne_none b
    | cons l ls ih =>
      intro b
      rw [List.foldl_cons]
      unfold betterLoan
      split
      · exact ih b
      · split
        · exact ih b
        · split
          · exact ih b
          · exact ih _
  unfold viewerLoanOf
  induction loans with
  | nil => simp
  | cons l ls ih =>
    rw [List.foldl_cons, List.forall_mem_cons]
    by_cases hb : l.borrowerId = some viewerId
    · cases hr : l.status.openRank with
      | none => simp [betterLoan, hb, hr, ih]
      | some rank =>
        simp only [betterLoan, hb, hr, ne_eq, not_true_eq_false, if_false, Option.mem_def,
          reduceCtorEq, false_and, exists_false, true_imp_iff, iff_false]
        exact fun hnone => absurd hnone (hkeep ls _)
    · simp [betterLoan, hb, ih]

/-! ## What may be expected and asked -/

/-- The day the copy is expected back: of the one exclusive loan, unless it is only a claim. -/
def expectedReturnOf (status : CopyStatus) (loans : List Loan) : Option Day :=
  if status ≠ .reserved ∧ status ≠ .lentOut then none
  else match loans.find? (·.status.isExclusive) with
    | none => none
    | some loan => if loan.status = .pendingConfirmation then none else toIsoDay loan.dueAt

/-- Could this viewer ask for the copy right now? The conditions of `request`, in its order. -/
def canRequestCopy (copy : Copy) (loans : List Loan) (role : ViewerRole) (viewerId : UserId)
    (ownerPausedRequests : Bool) : Bool :=
  mayRequestLoan role ∧ copy.ownerId ≠ viewerId ∧ ownerPausedRequests = false ∧
    copy.status = .available ∧ isHome copy ∧ viewerLoanOf loans viewerId = none

/-! ## The projection for a viewer -/

/-- Who looks at another's shelf. -/
structure Viewer where
  id : UserId
  role : ViewerRole
  showHolderNames : Bool
  ownerPausedRequests : Bool

structure VisibleCopy where
  id : CopyId
  status : CopyStatus
  condition : Condition
  isHome : Bool
  holder : Option PublicUser
  myActiveLoan : Option ViewerLoan
  canRequest : Bool
  expectedReturnAt : Option Day
  deriving DecidableEq, Repr

def toVisibleCopy (row : CopyRow) (viewer : Viewer) : VisibleCopy where
  id := row.copy.id
  status := row.copy.status
  condition := row.copy.condition
  isHome := Bookswap.isHome row.copy
  holder :=
    if Bookswap.isHome row.copy ∨ viewer.showHolderNames = false then none
    else row.currentHolder.map toPublicUser
  myActiveLoan := viewerLoanOf row.loans viewer.id
  canRequest :=
    canRequestCopy row.copy row.loans viewer.role viewer.id viewer.ownerPausedRequests
  expectedReturnAt := expectedReturnOf row.copy.status row.loans

end Bookswap
