import Bookswap.History.HistoryMapper
import Bookswap.Search.NetworkInventory

/-!
# history.service.ts: who borrowed the book

The history of a copy and of a work, as a viewer may read it. Loans to others are told with names
only where `holderNamesVisibleTo` says so; claims that nobody confirmed are told to their parties.

- `copyHistory`, `workHistory`: the two pages.
- `workHistory_eq`: **roles read in bulk change no entry**.
-/

namespace Bookswap

open Store Checked

/-! ## Entries -/

/-- `GUEST_LOAN_EVIDENCE` -/
inductive GuestLoanEvidence
  | ownerStatement | awaitingGuest | guestConfirmed | guestDenied
  deriving DecidableEq, Repr

/-- domain/loan.ts:227 -/
def guestLoanEvidenceOf : Option GuestLoanConfirmationStatus → Option GuestLoanEvidence
  | none | some .ownerRecorded => some .ownerStatement
  | some .open => some .awaitingGuest
  | some .received => some .guestConfirmed
  | some .denied => some .guestDenied
  | some .cancelled => none

/-- A loan with its sides (`WITH_SIDES`). -/
structure HistoryLoanRow where
  loan : Loan
  owner : User
  borrower : Option User
  guestConfirmation : Option GuestLoanConfirmationStatus

/-- The status of the confirmation of a loan, if it has one. -/
def Db.confirmationStatusOf (db : Db) (id : LoanId) : Option GuestLoanConfirmationStatus :=
  (db.confirmations.rows.find? fun g => g.loanId = id).map (·.status)

/-- The foreign key says that the owner is there. -/
def Db.historyLoanRow (db : Db) (l : Loan) : Option HistoryLoanRow :=
  (db.users.find? l.ownerId).map fun owner =>
    ⟨l, owner, db.userOf l.borrowerId, db.confirmationStatusOf l.id⟩

/-- Statuses and dates: nothing that says who. -/
structure HistoryFacts where
  status : LoanStatus
  origin : LoanOrigin
  guestEvidence : Option GuestLoanEvidence
  isOverdue : Bool
  requestedAt : Option Time
  respondedAt : Option Time
  handedAt : Option Time
  returnedAt : Option Time
  dueAt : Option Day
  deriving DecidableEq, Repr

inductive HistoryEntry
  | anonymous (facts : HistoryFacts)
  | named (facts : HistoryFacts) (loanId : LoanId) (owner borrower : PublicUser)
  deriving DecidableEq, Repr

/-- history.mapper.ts:68 -/
def factsOf (row : HistoryLoanRow) (now : Time) : HistoryFacts where
  status := row.loan.status
  origin := row.loan.origin
  guestEvidence :=
    if row.loan.origin = .recordedGuest then guestLoanEvidenceOf row.guestConfirmation else none
  isOverdue := Bookswap.isOverdue row.loan now
  requestedAt := row.loan.requestedAt
  respondedAt := row.loan.respondedAt
  handedAt := row.loan.handedAt
  returnedAt := row.loan.returnedAt
  dueAt := toIsoDay row.loan.dueAt

/-- A guest has no name to tell. -/
def toHistoryEntry (row : HistoryLoanRow) (showNames : Bool) (now : Time) : HistoryEntry :=
  match showNames, row.borrower with
  | true, some borrower =>
    .named (factsOf row now) row.loan.id (toPublicUser row.owner) (toPublicUser borrower)
  | _, _ => .anonymous (factsOf row now)

/-- From the oldest request to the newest. -/
def byRequestedAt (one other : HistoryLoanRow) : Bool :=
  let t := one.loan.requestedAt.getD one.loan.createdAt
  let t' := other.loan.requestedAt.getD other.loan.createdAt
  t < t' ∨ t = t' ∧ one.loan.id ≤ other.loan.id

/-! ## Who may read what -/

/-- A claim that nobody confirmed is for its parties. -/
def isVisibleToParty (loan : Loan) (viewerId : UserId) : Bool :=
  let withdrawnRecord := loan.status = .cancelled ∧ loan.origin ≠ .requested
  if ¬(loan.status = .pendingConfirmation ∨ loan.status = .declined) ∧ ¬withdrawnRecord then true
  else loan.ownerId = viewerId ∨ loan.borrowerId = some viewerId

/-- A friend of a friend does not read the history. -/
def isHistoryVisible (role : ViewerRole) : Bool := role = .owner ∨ role = .friend

/-- `ACTUAL_HANDOVER`: the book changed hands. -/
def Loan.isActualHandover (l : Loan) : Bool :=
  (l.status = .handedOver ∨ l.status = .returned ∨ l.status = .lost) ∧ l.handedAt ≠ none

/-! ## copyHistory -/

structure HistoryCopy where
  id : CopyId
  status : CopyStatus
  condition : Condition
  edition : Edition
  work : Work

def toHistoryCopy (r : ShelfRow) : HistoryCopy :=
  ⟨r.row.copy.id, r.row.copy.status, r.row.copy.condition, r.edition, r.work⟩

structure CopyHistory where
  copy : HistoryCopy
  entries : List HistoryEntry

section

variable (cat : CatalogDb) (db : Db) (now : Time)

/-- The loans of a copy that satisfy a condition, oldest request first. -/
def Db.historyOf (p : Loan → Bool) (showNames : Bool) (copyId : CopyId) : List HistoryEntry :=
  let loans := db.loans.rows.filter fun l => l.copyId = copyId ∧ p l
  ((loans.filterMap db.historyLoanRow).mergeSort byRequestedAt).map fun row =>
    toHistoryEntry row showNames now

/-- history.service.ts:76 -/
def copyHistory (viewerId : UserId) (copyId : CopyId) : Tx CopyHistory := do
  let copy ← orThrow (db.copies.find? copyId) notFoundCopy
  let owner ← orThrow (db.users.find? copy.ownerId) (.internal "Copy_ownerId_fkey")
  let role := db.roleOf viewerId copy.ownerId
  throwIf (role = .blocked) blocked
  throwIf (copyVisibleTo role owner.libraryVisibility copy.visibility = false) notFoundCopy
  throwIf (isHistoryVisible role = false)
    (apiError .forbidden "Історія цього примірника доступна лише власнику та його друзям" 403)
  let shelf ← orThrow (cat.join (db.copyRow copy)) (.internal "Copy_editionId_fkey")
  let showNames := holderNamesVisibleTo role owner.showHolderNames
  return ⟨toHistoryCopy shelf,
    db.historyOf now (fun l => isVisibleToParty l viewerId) showNames copy.id⟩

/-! ## workHistory -/

structure WorkHistoryEntry where
  entry : HistoryEntry
  copyId : CopyId
  edition : Edition

structure WorkHistory where
  work : Work
  entries : List WorkHistoryEntry

/-- history.service.ts:281; a friend of a friend is left with the others. -/
def roleFor (viewerId ownerId : UserId) (relation : Option FriendRelation) : ViewerRole :=
  if viewerId = ownerId then .owner
  else if relation = some .blockedByMe ∨ relation = some .blockedMe then .blocked
  else if relation = some .friends then .friend else .other

/-- What a copy of the work adds. -/
def Db.workEntries (role : ViewerRole) (r : ShelfRow) (owner : User) : List WorkHistoryEntry :=
  if copyVisibleTo role owner.libraryVisibility r.row.copy.visibility = true ∧
      isHistoryVisible role = true then
    (db.historyOf now Loan.isActualHandover (holderNamesVisibleTo role owner.showHolderNames)
      r.row.copy.id).map fun entry => ⟨entry, r.row.copy.id, r.edition⟩
  else []

/-- A copy of the work, with its owner. -/
def Db.copyOfWork (workId : WorkId) (c : Copy) : Option (ShelfRow × User) :=
  (cat.join (db.copyRow c)).bind fun r =>
    if r.edition.workId = workId then (db.users.find? c.ownerId).map fun owner => (r, owner)
    else none

def Db.copiesOfWork (workId : WorkId) : List (ShelfRow × User) :=
  db.copies.rows.filterMap (db.copyOfWork cat workId)

/-- history.service.ts:123 -/
def workHistory (viewerId : UserId) (workId : WorkId) : Tx WorkHistory := do
  let work ← orThrow (cat.work? workId) (notFound "Твір не знайдено")
  let copies := db.copiesOfWork cat workId
  let ownerIds := (copies.map fun c => c.1.row.copy.ownerId).eraseDups
  let relations := db.relationsWith viewerId ownerIds
  return ⟨work, copies.flatMap fun c =>
    let ownerId := c.1.row.copy.ownerId
    db.workEntries now (roleFor viewerId ownerId (relationIn relations ownerId)) c.1 c.2⟩

end

/-! ## Roles in bulk -/

section Roles

variable {cat : CatalogDb} {db : Db} {now : Time} {viewerId o : UserId}

/-- The role from the relations is the role, but that a friend of a friend is with the others. -/
theorem Db.roleFor_eq {ownerIds : List UserId} (ho : o ∈ ownerIds) :
    roleFor viewerId o (relationIn (db.relationsWith viewerId ownerIds) o) =
      if db.roleOf viewerId o = .friendOfFriend then .other else db.roleOf viewerId o := by
  unfold roleFor
  by_cases hself : viewerId = o
  · subst hself
    rw [if_pos rfl, Db.roleOf_self]
    rfl
  rw [if_neg hself, Db.relationIn_relationsWith hself ho]
  unfold Db.roleOf
  rw [if_neg hself]
  cases hpair : db.findPair viewerId o with
  | none => by_cases hf : o ∈ db.friendsOfFriendsAmong viewerId [o] <;> simp [hf]
  | some f =>
    cases hstatus : f.status with
    | accepted => simp [relationOf, hstatus]
    | blocked => by_cases hby : f.blockedById = some viewerId <;> simp [relationOf, hstatus, hby]
    | pending =>
      by_cases hf : o ∈ db.friendsOfFriendsAmong viewerId [o] <;>
        by_cases hby : f.requestedById = viewerId <;> simp [relationOf, hstatus, hby, hf]
    | declined =>
      by_cases hf : o ∈ db.friendsOfFriendsAmong viewerId [o] <;> simp [relationOf, hstatus, hf]

theorem Db.workEntries_of_closed {role : ViewerRole} {r : ShelfRow} {owner : User}
    (h : isHistoryVisible role = false) : db.workEntries now role r owner = [] := by
  unfold Db.workEntries
  rw [if_neg]
  rintro ⟨-, hopen⟩
  rw [h] at hopen
  cases hopen

/-- Neither a friend of a friend nor the others read the history. -/
theorem Db.workEntries_congr {role role' : ViewerRole} {r : ShelfRow} {owner : User}
    (h : role' = if role = .friendOfFriend then .other else role) :
    db.workEntries now role' r owner = db.workEntries now role r owner := by
  subst h
  split
  · next hrole =>
    subst hrole
    rw [Db.workEntries_of_closed rfl, Db.workEntries_of_closed rfl]
  · rfl

/-- **Roles read in bulk change no entry.** -/
theorem workHistory_eq {workId : WorkId} : workHistory cat db now viewerId workId =
    (orThrow (cat.work? workId) (notFound "Твір не знайдено")).map fun work =>
      ⟨work, (db.copiesOfWork cat workId).flatMap fun c =>
        db.workEntries now (db.roleOf viewerId c.1.row.copy.ownerId) c.1 c.2⟩ := by
  unfold workHistory
  cases hwork : orThrow (cat.work? workId) (notFound "Твір не знайдено") with
  | error e => rfl
  | ok work =>
    refine congrArg Except.ok (congrArg (WorkHistory.mk work) (List.flatMap_congr fun c hc => ?_))
    refine Db.workEntries_congr (Db.roleFor_eq ?_)
    rw [List.mem_eraseDups]
    exact List.mem_map.mpr ⟨c, hc, rfl⟩

end Roles

end Bookswap
