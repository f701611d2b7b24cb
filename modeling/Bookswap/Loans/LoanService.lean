import Bookswap.Access
import Bookswap.Loans.Rivals
import Bookswap.Loans.Transitions

/-!
# LoanService

`loans/loan.service.ts`: the transactions on loans between registered users. Each is
one function of the database; the `FOR UPDATE` locks are absent, since a
transaction here runs in one step (what a lock prevents is the subject of `Race`).

- `request`: a viewer asks for a copy (`— → REQUESTED`).
- `createRecorded`: the owner records a handover that took place.
- `runTransition`: every action on a registered loan.

Requests carry the refinements of their schema (`contracts/loan.ts`) as fields, so a
body the controller would refuse cannot be built.
-/

namespace Bookswap

open Store Checked

/-! ## Requests -/

structure CreateLoanRequest where
  copyId : CopyId
  message : Option String
  proposedDueAt : Option Day

structure CreateRecordedLoanRequest where
  copyId : CopyId
  borrowerId : UserId
  handedAt : Day
  dueAt : Option Day
  due_after : ∀ d ∈ dueAt, handedAt ≤ d

/-- The body of `PATCH /loans/:id`. In `dueAt` the outer `none` is an absent field and
`some none` is `null`. -/
structure UpdateLoanRequest where
  action : LoanAction
  note : Option String
  dueAt : Option (Option Day)
  effectiveAt : Option Day
  handedAt : Option Day
  dueAt_with : dueAt ≠ none → action = .approve ∨ action = .amendRecord
  clear_with : dueAt = some none → action = .amendRecord
  effectiveAt_with : effectiveAt ≠ none → action = .recover
  handedAt_with : handedAt ≠ none → action = .amendRecord
  note_with : note ≠ none → action ≠ .recover ∧ isRecordAction action = false
  amend_with : action = .amendRecord → handedAt ≠ none ∨ dueAt ≠ none

/-- A body that names the action and nothing else. -/
def UpdateLoanRequest.plain (action : LoanAction) (h : action ≠ .amendRecord) :
    UpdateLoanRequest where
  action := action
  note := none
  dueAt := none
  effectiveAt := none
  handedAt := none
  dueAt_with h := absurd rfl h
  clear_with h := nomatch h
  effectiveAt_with h := absurd rfl h
  handedAt_with h := absurd rfl h
  note_with h := absurd rfl h
  amend_with ha := absurd ha h

/-! ## Answers -/

def notFound (message : String) : Failure := apiError .notFound message 404

def notFoundLoan : Failure := notFound "Позичання не знайдено"

def notFoundCopy : Failure := notFound "Примірника не знайдено"

/-- `blocked()` of access.service.ts. -/
def blocked : Failure :=
  apiError .friendshipBlocked "Дія недоступна: пару заблоковано" 403

def copyUnavailable : Failure :=
  apiError .loanCopyUnavailable
    "Цей примірник зараз не можна записати як позичений: він не вільний і не вдома" 409

def copyArchived : Failure :=
  apiError .copyArchived "Примірник в архіві: спершу відновіть його з архіву" 409

def alreadyRecovered : Failure :=
  apiError .loanAlreadyRecovered "Знахідку вже зафіксовано для цього позичання" 409

def copyStateChanged : Failure :=
  apiError .loanCopyStateMismatch "Стан примірника змінився — оновіть сторінку" 409

def copyOccupied : Failure :=
  apiError .loanCopyStateMismatch
    "Примірник зайнятий іншою позикою — відновлення неможливе" 409

def recordDateInvalid : Failure :=
  apiError .loanRecordDateInvalid
    "Дата передачі не може бути в майбутньому, а строк повернення — раніше за дату передачі" 400

def recoveryDateInvalid : Failure :=
  apiError .loanRecoveryDateInvalid "Дата знахідки не може бути в майбутньому" 400

/-- A refusal of the table as an answer. -/
def refusal (reason : LoanRefusal) (action : LoanAction) : Failure :=
  match reason with
  | .role =>
    apiError .forbidden s!"Дію «{action.text}» виконує інша сторона позичання" 403
  | .state =>
    apiError .loanInvalidTransition "Дія неможлива в поточному стані позичання" 409

/-! ## The loans this service serves -/

/-- `REQUEST_FLOW_STATUSES` -/
def LoanStatus.isRequestFlow : LoanStatus → Bool
  | .pendingConfirmation | .declined => false
  | _ => true

/-- `RECORDED_STATUSES` -/
def LoanStatus.isRecorded : LoanStatus → Bool
  | .requested | .approved | .rejected => false
  | _ => true

/-- What `asServedLoan` asks of origin, dates and status. -/
def Loan.HasServedOrigin (l : Loan) : Prop :=
  (l.origin = .requested ∧ l.requestedAt ≠ none ∧ l.status.isRequestFlow = true) ∨
    (l.origin = .recordedExisting ∧ l.handedAt ≠ none ∧ l.status.isRecorded = true)

instance (l : Loan) : Decidable l.HasServedOrigin := by
  unfold Loan.HasServedOrigin
  infer_instance

/-- A row narrowed by `asServedLoan`: registered, with a borrower, and in a status its
origin allows. -/
structure ServedLoan where
  row : Loan
  borrowerId : UserId
  row_borrowerId : row.borrowerId = some borrowerId
  registered : row.borrowerKind = .registered
  served : row.HasServedOrigin

/-- loan.mapper.ts:96 -/
def asServedLoan (row : Loan) : Option ServedLoan :=
  match hb : row.borrowerId with
  | none => none
  | some borrowerId =>
    if h : row.borrowerKind = .registered ∧ row.HasServedOrigin then
      some ⟨row, borrowerId, hb, h.1, h.2⟩
    else none

theorem row_of_asServedLoan {row : Loan} {s : ServedLoan} (h : asServedLoan row = some s) :
    s.row = row := by
  unfold asServedLoan at h
  split at h
  · cases h
  · split at h
    · cases h
      rfl
    · cases h

theorem ServedLoan.asServedLoan_row (s : ServedLoan) : asServedLoan s.row = some s := by
  obtain ⟨row, b, hb, hk, hs⟩ := s
  unfold asServedLoan
  split
  · rename_i hnone
    rw [hb] at hnone
    cases hnone
  · rename_i b' hb'
    obtain rfl : b = b' := Option.some.inj (hb.symm.trans hb')
    rw [dif_pos ⟨hk, hs⟩]

/-- `requireServed`: a transaction ends on a row this service can answer with. -/
def requireServed (row : Option Loan) : Tx Unit :=
  throwIf ((row.bind asServedLoan).isNone)
    (.internal "Очікувалась позика request-flow або записана власником із зареєстрованим позичальником")

namespace ServedLoan

def isParticipant (s : ServedLoan) (userId : UserId) : Bool :=
  s.row.ownerId = userId ∨ s.borrowerId = userId

def holderIdOf (s : ServedLoan) : LoanHolder → UserId
  | .owner => s.row.ownerId
  | .borrower => s.borrowerId

def recipientOf (s : ServedLoan) (target : NotificationTarget) (actor : LoanActor) : UserId :=
  match target with
  | .counterparty => if actor = .owner then s.borrowerId else s.row.ownerId
  | .owner => s.row.ownerId
  | .borrower => s.borrowerId

end ServedLoan

/-! ## request -/

/-- The row `request` creates. -/
def requestRow (now : Time) (borrowerId : UserId) (copy : Copy) (req : CreateLoanRequest)
    (id : LoanId) : Loan :=
  { id := id, copyId := copy.id, ownerId := copy.ownerId, borrowerId := some borrowerId,
    status := .requested, borrowerKind := .registered, borrowerContactId := none,
    origin := .requested, createdAt := now, message := req.message, responseNote := none,
    requestedAt := some now, respondedAt := none, handedAt := none,
    dueAt := toDueDate req.proposedDueAt, returnedAt := none }

/-- Has the viewer an open request for the copy already? -/
def Db.hasOwnRequest (db : Db) (copyId : CopyId) (borrowerId : UserId) : Bool :=
  db.loans.rows.any fun l =>
    l.copyId = copyId ∧ l.borrowerId = some borrowerId ∧ l.status = .requested

/-- `LoanService.request` (loan.service.ts:230). `id` is the identifier of the new row. -/
def request (now : Time) (borrowerId : UserId) (req : CreateLoanRequest) (id : LoanId)
    (db : Db) : Tx Db := do
  let copy ← orThrow (db.copies.find? req.copyId) notFoundCopy
  throwIf (copy.archivedAt ≠ none) notFoundCopy
  let owner ← orThrow (db.users.find? copy.ownerId) (.internal "Copy_ownerId_fkey")
  throwIf (copy.ownerId = borrowerId) (apiError .loanSelf "Це ваш власний примірник" 400)
  let role := db.roleOf borrowerId copy.ownerId
  throwIf (role = .blocked) blocked
  throwIf (mayRequestLoan role = false)
    (apiError .forbidden "Просити книжку можна лише в друзів" 403)
  throwIf (copyVisibleTo role owner.libraryVisibility copy.visibility = false) notFoundCopy
  throwIf (owner.loanRequestsPaused = true)
    (apiError .loanRequestsPaused "Власник тимчасово не приймає запитів на позичання" 409)
  throwIf (copy.status ≠ .available ∨ copy.currentHolderId ≠ some copy.ownerId)
    (apiError .loanCopyUnavailable "Цей примірник зараз не можна попросити" 409)
  throwIf (db.hasOwnRequest copy.id borrowerId = true)
    (apiError .loanDuplicateRequest "Ви вже просили цей примірник — запит чекає на відповідь" 409)
  let created := requestRow now borrowerId copy req id
  let loans ← orThrow (db.loans.insert created) (.internal "Loan_pkey")
  requireServed (some created)
  return ({ db with loans := loans }).notify
    ⟨copy.ownerId, .loanRequested, .loan id copy.id borrowerId⟩

/-! ## recordExisting -/

/-- `assertRecordDates`, and `assertGuestLoanDates` of the guest services. -/
def assertRecordDates (handedOn : Day) (dueOn : Option Day) (now : Time) : Tx Unit :=
  throwIf (isoDayOf now < handedOn ∨ ∃ d ∈ dueOn, d < handedOn) recordDateInvalid

/-- The row `createRecorded` creates; the column default of `requestedAt` is overridden. -/
def recordedRow (now : Time) (copy : Copy) (req : CreateRecordedLoanRequest) (id : LoanId) :
    Loan :=
  { id := id, copyId := copy.id, ownerId := copy.ownerId, borrowerId := some req.borrowerId,
    status := .pendingConfirmation, borrowerKind := .registered, borrowerContactId := none,
    origin := .recordedExisting, createdAt := now, message := none, responseNote := none,
    requestedAt := none, respondedAt := none, handedAt := some (toHandedDate req.handedAt),
    dueAt := toDueDate req.dueAt, returnedAt := none }

/-- A free copy becomes reserved, at home. -/
def reserveEdit : Table.Edit Copy.id where
  toFun c := { c with status := .reserved }
  keeps _ := rfl

/-- `LoanService.createRecorded` (loan.service.ts:458). -/
def createRecorded (now : Time) (ownerId : UserId) (req : CreateRecordedLoanRequest)
    (id : LoanId) (db : Db) : Tx Db := do
  let copy ← orThrow (db.copies.find? req.copyId) notFoundCopy
  throwIf (copy.ownerId ≠ ownerId) notFoundCopy
  throwIf (copy.archivedAt ≠ none) copyArchived
  throwIf (req.borrowerId = ownerId)
    (apiError .loanSelf "Книжку не можна записати як позичену самому собі" 400)
  let role := db.roleOf ownerId req.borrowerId
  throwIf (role = .blocked) blocked
  throwIf (role ≠ .friend) (apiError .forbidden "Записати передачу можна лише другові" 403)
  throwIf (copy.status ≠ .available ∨ copy.currentHolderId ≠ some copy.ownerId ∨
    copy.heldByContactId ≠ none) copyUnavailable
  assertRecordDates req.handedAt req.dueAt now
  let created := recordedRow now copy req id
  let loans ← orThrow (db.loans.insert created) (.internal "Loan_pkey")
  let (copies, count) := db.copies.updateMany
    (fun c => c.id = copy.id ∧ c.status = .available ∧ c.currentHolderId = some copy.ownerId)
    reserveEdit
  assertSingleRow count
  requireServed (some created)
  return (({ db with loans := loans, copies := copies }).record
    ⟨id, .recordProposed, some ownerId, now, none, .dates ⟨req.handedAt, req.dueAt⟩⟩).notify
    ⟨req.borrowerId, .loanRecordProposed, .loan id copy.id ownerId⟩

/-! ## apply -/

/-- Is there another exclusive loan on the copy? -/
def Db.occupiedByOther (db : Db) (copyId : CopyId) (loanId : LoanId) : Bool :=
  db.loans.rows.any fun l => l.copyId = copyId ∧ l.id ≠ loanId ∧ l.status.isExclusive

/-- The moment a recovery took effect: the stated day, or now. -/
def recoveredAt (effectiveAt : Option Day) (now : Time) : Time :=
  match effectiveAt with
  | some day => toHandedDate day
  | none => now

/-- `assertRecoverable` (loan.service.ts:849). -/
def assertRecoverable (db : Db) (loan : Loan) (copy : Copy) (effectiveAt : Option Day)
    (now : Time) : Tx Time := do
  throwIf (∃ d ∈ effectiveAt, isoDayOf now < d) recoveryDateInvalid
  throwIf (db.hasEvent loan.id .recovered = true) alreadyRecovered
  throwIf (copy.archivedAt ≠ none) copyArchived
  throwIf (db.occupiedByOther loan.copyId loan.id = true) copyOccupied
  return recoveredAt effectiveAt now

/-- Does the copy stand as the transition needs it? -/
def CopyPrecondition.holds (p : CopyPrecondition) (s : ServedLoan) (copy : Copy) : Prop :=
  copy.status = p.status ∧ copy.currentHolderId = some (s.holderIdOf p.holder)

instance (p : CopyPrecondition) (s : ServedLoan) (copy : Copy) : Decidable (p.holds s copy) := by
  unfold CopyPrecondition.holds
  infer_instance

/-- `assertCopyReady` (loan.service.ts:919). -/
def assertCopyReady (outcome : LoanTransition) (s : ServedLoan) (copy : Copy) : Tx Unit :=
  throwIf (∃ p ∈ outcome.requires, ¬p.holds s copy) copyStateChanged

/-- `assertAmendedDates` (loan.service.ts:1061): the dates before and after. -/
def assertAmendedDates (loan : Loan) (req : UpdateLoanRequest) (now : Time) :
    Tx (RecordDates × RecordDates) := do
  let handedOn ← orThrow (toIsoDay loan.handedAt) (.internal "Записана позика без handedAt")
  let previous : RecordDates := ⟨handedOn, toIsoDay loan.dueAt⟩
  let next : RecordDates :=
    ⟨req.handedAt.getD previous.handedOn, req.dueAt.getD previous.dueOn⟩
  throwIf (next = previous)
    (apiError .validationError "Вказані дати збігаються з чинними — нічого виправляти" 400)
  assertRecordDates next.handedOn next.dueOn now
  return (previous, next)

/-- The columns a change of status writes (loan.service.ts:684). -/
def transitionEdit (outcome : LoanTransition) (req : UpdateLoanRequest) (now : Time) :
    Table.Edit Loan.id where
  toFun l := { l with
    status := outcome.toStatus
    responseNote := req.note <|> l.responseNote
    dueAt := (req.dueAt.map toDueDate).getD l.dueAt
    respondedAt := if outcome.stamp = some .respondedAt then some now else l.respondedAt
    handedAt := if outcome.stamp = some .handedAt then some now else l.handedAt
    returnedAt := if outcome.stamp = some .returnedAt then some now else l.returnedAt }
  keeps _ := rfl

/-- The dates an amendment writes. -/
def amendEdit (next : RecordDates) : Table.Edit Loan.id where
  toFun l := { l with
    handedAt := some (toHandedDate next.handedOn), dueAt := toDueDate next.dueOn }
  keeps _ := rfl

/-- The columns of the copy a transition writes (loan.service.ts:715). -/
def copyEdit (outcome : LoanTransition) (s : ServedLoan) : Table.Edit Copy.id where
  toFun c := { c with
    status := outcome.copyStatus.getD c.status
    currentHolderId := (outcome.holder.map fun h => some (s.holderIdOf h)).getD c.currentHolderId
    heldByContactId := if outcome.holder = some .owner then none else c.heldByContactId }
  keeps _ := rfl

/-- A conditional update of one row, with its `assertSingleRow`; skipped unless `c`. -/
def updateOne {α κ : Type} {key : α → κ} (c : Bool) (t : Table key) (p : α → Bool)
    (f : Table.Edit key) : Tx (Table key) :=
  if c then do
    let (t', count) := t.updateMany p f
    assertSingleRow count
    return t'
  else
    return t

/-- The row of the loan: the status with its columns, or the amended dates. -/
def writeLoan (now : Time) (req : UpdateLoanRequest) (stored : Loan) (outcome : LoanTransition)
    (amended : Option (RecordDates × RecordDates)) (loans : Table Loan.id) :
    Tx (Table Loan.id) := do
  let loans ← updateOne (outcome.toStatus ≠ stored.status) loans
    (fun l => l.id = stored.id ∧ l.status = stored.status) (transitionEdit outcome req now)
  match amended with
  | none => return loans
  | some (_, next) =>
    updateOne true loans
      (fun l => l.id = stored.id ∧ l.status = .pendingConfirmation) (amendEdit next)

/-- Step 9: the rivals, when the transition rejects them. -/
def rejectRivalsOf (loan : ServedLoan) (outcome : LoanTransition) (now : Time) (db : Db) : Tx Db :=
  if outcome.rejectRivals then
    rejectRivals loan.row.copyId loan.row.id loan.row.ownerId now db
  else return db

/-- Step 10: the notification. -/
def notifyParty (loan : ServedLoan) (actor : LoanActor) (actorId : UserId)
    (outcome : LoanTransition) (db : Db) : Db :=
  match outcome.notify with
  | none => db
  | some n => db.notify ⟨loan.recipientOf n.recipient actor, n.type,
      .loan loan.row.id loan.row.copyId actorId⟩

/-- Step 9a: the event, with the dates of an amendment. -/
def recordTransition (now : Time) (actorId : UserId) (loan : ServedLoan)
    (outcome : LoanTransition) (effectiveAt : Option Time)
    (amended : Option (RecordDates × RecordDates)) (db : Db) : Db :=
  match outcome.event with
  | none => db
  | some type => db.record ⟨loan.row.id, type, some actorId, now, effectiveAt,
      match amended with
      | none => .empty
      | some (previous, next) => .amended previous next⟩

/-- The writes of `runTransition` (loan.service.ts:680–765): the loan, its copy, the
rivals, the notification, the event. -/
def writeTransition (now : Time) (actorId : UserId) (req : UpdateLoanRequest)
    (loan : ServedLoan) (actor : LoanActor) (copy : Copy) (outcome : LoanTransition)
    (effectiveAt : Option Time) (amended : Option (RecordDates × RecordDates)) (db : Db) :
    Tx Db := do
  let stored := loan.row
  let loans ← writeLoan now req stored outcome amended db.loans
  let copies ← updateOne (outcome.copyStatus ≠ none ∨ outcome.holder ≠ none) db.copies
    (fun c => c.id = copy.id ∧ c.status = copy.status ∧ c.currentHolderId = copy.currentHolderId)
    (copyEdit outcome loan)
  let db ← rejectRivalsOf loan outcome now { db with loans := loans, copies := copies }
  let db := notifyParty loan actor actorId outcome db
  let db := recordTransition now actorId loan outcome effectiveAt amended db
  requireServed (db.loans.find? stored.id)
  return db

/-- `LoanService.runTransition` (loan.service.ts:594): every action on a registered
loan. -/
def runTransition (now : Time) (actorId : UserId) (loanId : LoanId) (req : UpdateLoanRequest)
    (db : Db) : Tx Db := do
  -- the lock query joins the loan with its copy and names the sides
  let stored ← orThrow (db.loans.find? loanId) notFoundLoan
  throwIf (¬((stored.origin = .requested ∨ stored.origin = .recordedExisting) ∧
    stored.borrowerKind = .registered ∧
    (stored.ownerId = actorId ∨ stored.borrowerId = some actorId))) notFoundLoan
  let copy ← orThrow (db.copies.find? stored.copyId) notFoundLoan
  let loan ← orThrow (asServedLoan stored) notFoundLoan
  throwIf (loan.isParticipant actorId = false) notFoundLoan
  -- assertStructure
  throwIf (stored.ownerId ≠ copy.ownerId)
    (.internal "ownerId розійшовся з власником примірника")
  throwIf (stored.ownerId = loan.borrowerId) (.internal "позичальник збігається з власником")
  let actor : LoanActor := if stored.ownerId = actorId then .owner else .borrower
  let outcome ← (resolveTransition stored.status req.action actor stored.origin).mapError
    (refusal · req.action)
  let effectiveAt ← whenever (outcome.event = some .recovered)
    (assertRecoverable db stored copy req.effectiveAt now)
  assertCopyReady outcome loan copy
  let amended ← whenever (outcome.event = some .recordAmended) (assertAmendedDates stored req now)
  writeTransition now actorId req loan actor copy outcome effectiveAt amended db

end Bookswap
