import Bookswap.Loans.Coherence
import Bookswap.Loans.LoanService

/-!
# What the transactions of LoanService do

One lemma per transaction: it commits exactly when its guards hold, and then the
database changes by exactly the stated writes. Every later proof cites these lemmas
and unfolds no transaction.

- `request_eq_ok`, with the guards `RequestGuards`.
- `createRecorded_eq_ok`, with `RecordGuards`.
- `runTransition_eq_ok`, with `TransitionGuards`; the writes are `Db.transitioned`.
-/

namespace Bookswap

open Store Checked

/-! ## Small transactions -/

@[simp] theorem assertSingleRow_eq_ok {n : Nat} {u : Unit} :
    assertSingleRow n = .ok u ↔ n = 1 := by
  simp [assertSingleRow]

theorem requireServed_eq_ok {row : Loan} {u : Unit} :
    requireServed (some row) = .ok u ↔ ∃ s, asServedLoan row = some s := by
  rw [requireServed, throwIf_eq_ok, Option.bind_some]
  cases asServedLoan row with
  | none => simp
  | some s => simp

theorem asServedLoan_of {row : Loan} {borrowerId : UserId} (hb : row.borrowerId = some borrowerId)
    (hk : row.borrowerKind = .registered) (hs : row.HasServedOrigin) :
    asServedLoan row = some ⟨row, borrowerId, hb, hk, hs⟩ :=
  ServedLoan.asServedLoan_row ⟨row, borrowerId, hb, hk, hs⟩

/-- On a row that is there and satisfies the condition, a conditional update of one row
is that row's update. -/
theorem updateOne_eq {α κ : Type} [DecidableEq κ] {key : α → κ} {c : Bool} {t : Table key}
    {p : α → Bool} {f : Table.Edit key} {a : α} {k : κ} (ha : t.find? k = some a)
    (hpa : p a = true) (hp : ∀ b, p b = true → key b = k) :
    updateOne c t p f = .ok (if c then t.modify k f else t) := by
  cases c with
  | false => rfl
  | true => rw [updateOne, if_pos rfl, if_pos rfl, Table.updateMany_of_find? ha hpa hp]; rfl

@[simp] theorem assertRecordDates_eq_ok {handedOn : Day} {dueOn : Option Day} {now : Time}
    {u : Unit} :
    assertRecordDates handedOn dueOn now = .ok u ↔
      handedOn ≤ isoDayOf now ∧ ∀ d ∈ dueOn, handedOn ≤ d := by
  simp [assertRecordDates]

/-! ## request -/

/-- The guards of `request`. -/
structure RequestGuards (db : Db) (borrowerId : UserId) (copy : Copy) (owner : User) : Prop where
  not_archived : copy.archivedAt = none
  not_self : copy.ownerId ≠ borrowerId
  role : mayRequestLoan (db.roleOf borrowerId copy.ownerId) = true
  visible : copyVisibleTo (db.roleOf borrowerId copy.ownerId) owner.libraryVisibility
    copy.visibility = true
  not_paused : owner.loanRequestsPaused = false
  available : copy.status = .available
  home : copy.currentHolderId = some copy.ownerId
  no_own_request : db.hasOwnRequest copy.id borrowerId = false

/-- **request** commits exactly under its guards; it adds the loan and tells the owner. -/
theorem request_eq_ok {now : Time} {borrowerId : UserId} {req : CreateLoanRequest}
    {id : LoanId} {db db' : Db} :
    request now borrowerId req id db = .ok db' ↔
      ∃ copy owner loans, db.copies.find? req.copyId = some copy ∧
        db.users.find? copy.ownerId = some owner ∧ RequestGuards db borrowerId copy owner ∧
        db.loans.insert (requestRow now borrowerId copy req id) = some loans ∧
        db' = ({ db with loans := loans }).notify
          ⟨copy.ownerId, .loanRequested, .loan id copy.id borrowerId⟩ := by
  have hserved : ∀ copy, ∃ s, asServedLoan (requestRow now borrowerId copy req id) = some s :=
    fun copy => ⟨_, asServedLoan_of rfl rfl (Or.inl ⟨rfl, by simp [requestRow], rfl⟩)⟩
  simp only [request, bind_eq_ok, throwIf_eq_ok, orThrow_eq_ok, pure_eq_ok, exists_const,
    requireServed_eq_ok, hserved, true_and]
  constructor
  · rintro ⟨copy, hcopy, harch, owner, howner, hself, -, hrole, hvis, hpaused, hfree, hown, loans,
      hins, rfl⟩
    simp only [ne_eq, not_or, not_not, Bool.not_eq_false, Bool.not_eq_true] at *
    exact ⟨copy, owner, loans, hcopy, howner,
      ⟨harch, hself, hrole, hvis, hpaused, hfree.1, hfree.2, hown⟩, hins, rfl⟩
  · rintro ⟨copy, owner, loans, hcopy, howner, g, hins, rfl⟩
    refine ⟨copy, hcopy, by simp [g.not_archived], owner, howner, g.not_self, ?_, by simp [g.role],
      by simp [g.visible], by simp [g.not_paused], by simp [g.available, g.home],
      by simp [g.no_own_request], loans, hins, rfl⟩
    intro hb
    have := g.role
    rw [hb] at this
    cases this

/-! ## recordExisting -/

/-- A copy that is free, at home and in nobody's hands. -/
structure Copy.FreeAtHome (copy : Copy) : Prop where
  available : copy.status = .available
  home : copy.currentHolderId = some copy.ownerId
  no_contact : copy.heldByContactId = none

/-- The guards of `createRecorded`. -/
structure RecordGuards (db : Db) (ownerId : UserId) (req : CreateRecordedLoanRequest)
    (now : Time) (copy : Copy) : Prop where
  own : copy.ownerId = ownerId
  not_archived : copy.archivedAt = none
  not_self : req.borrowerId ≠ ownerId
  friend : db.roleOf ownerId req.borrowerId = .friend
  free : copy.FreeAtHome
  handed : req.handedAt ≤ isoDayOf now

/-- **createRecorded** commits exactly under its guards; it adds the loan, reserves the
copy, records the proposal and tells the borrower. -/
theorem createRecorded_eq_ok {now : Time} {ownerId : UserId} {req : CreateRecordedLoanRequest}
    {id : LoanId} {db db' : Db} :
    createRecorded now ownerId req id db = .ok db' ↔
      ∃ copy loans, db.copies.find? req.copyId = some copy ∧
        RecordGuards db ownerId req now copy ∧
        db.loans.insert (recordedRow now copy req id) = some loans ∧
        db' = (({ db with loans := loans, copies := db.copies.modify copy.id reserveEdit }).record
          ⟨id, .recordProposed, some ownerId, now, none, .dates ⟨req.handedAt, req.dueAt⟩⟩).notify
          ⟨req.borrowerId, .loanRecordProposed, .loan id copy.id ownerId⟩ := by
  have hserved : ∀ copy, ∃ s, asServedLoan (recordedRow now copy req id) = some s :=
    fun copy => ⟨_, asServedLoan_of rfl rfl (Or.inr ⟨rfl, by simp [recordedRow], rfl⟩)⟩
  have hupdate : ∀ copy, db.copies.find? req.copyId = some copy → copy.FreeAtHome →
      db.copies.updateMany (fun c => c.id = copy.id ∧ c.status = .available ∧
        c.currentHolderId = some copy.ownerId) reserveEdit =
        (db.copies.modify copy.id reserveEdit, 1) := by
    intro copy hcopy hfree
    have hself : db.copies.find? copy.id = some copy := Table.find?_of_mem (Table.mem_of_find? hcopy)
    exact Table.updateMany_of_find? hself (by simp [hfree.available, hfree.home])
      (fun c hc => (of_decide_eq_true hc).1)
  simp only [createRecorded, bind_eq_ok, throwIf_eq_ok, orThrow_eq_ok, pure_eq_ok, exists_const,
    requireServed_eq_ok, hserved, true_and, assertRecordDates_eq_ok, assertSingleRow_eq_ok]
  constructor
  · rintro ⟨copy, hcopy, hown, harch, hself, -, hfriend, hfree, ⟨hhanded, -⟩, loans, hins, -, rfl⟩
    simp only [ne_eq, not_or, not_not] at hown harch hself hfriend hfree
    have hf : copy.FreeAtHome := ⟨hfree.1, hfree.2.1, hfree.2.2⟩
    refine ⟨copy, loans, hcopy, ⟨hown, harch, hself, hfriend, hf, hhanded⟩, hins, ?_⟩
    rw [hupdate copy hcopy hf]
  · rintro ⟨copy, loans, hcopy, g, hins, rfl⟩
    refine ⟨copy, hcopy, by simp [g.own], by simp [g.not_archived], g.not_self, by simp [g.friend],
      by simp [g.friend], by simp [g.free.available, g.free.home, g.free.no_contact],
      ⟨g.handed, req.due_after⟩, loans, hins, ?_, ?_⟩
    · rw [hupdate copy hcopy g.free]
    · rw [hupdate copy hcopy g.free]

/-! ## apply -/

/-- The dates before and after an amendment, when the loan has a handover date. -/
def amendedDates (loan : Loan) (req : UpdateLoanRequest) : Option (RecordDates × RecordDates) :=
  (toIsoDay loan.handedAt).map fun handedOn =>
    let previous : RecordDates := ⟨handedOn, toIsoDay loan.dueAt⟩
    (previous, ⟨req.handedAt.getD handedOn, req.dueAt.getD previous.dueOn⟩)

/-- What `assertAmendedDates` asks of the dates. -/
structure AmendGuards (now : Time) (dates : RecordDates × RecordDates) : Prop where
  changed : dates.2 ≠ dates.1
  handed : dates.2.handedOn ≤ isoDayOf now
  due : ∀ d ∈ dates.2.dueOn, dates.2.handedOn ≤ d

theorem assertAmendedDates_eq_ok {loan : Loan} {req : UpdateLoanRequest} {now : Time}
    {dates : RecordDates × RecordDates} :
    assertAmendedDates loan req now = .ok dates ↔
      amendedDates loan req = some dates ∧ AmendGuards now dates := by
  simp only [assertAmendedDates, amendedDates, bind_eq_ok, orThrow_eq_ok, throwIf_eq_ok,
    assertRecordDates_eq_ok, pure_eq_ok, exists_const, Option.map_eq_some_iff]
  constructor
  · rintro ⟨handedOn, hh, hne, ⟨hhanded, hdue⟩, rfl⟩
    exact ⟨⟨handedOn, hh, rfl⟩, hne, hhanded, hdue⟩
  · rintro ⟨⟨handedOn, hh, rfl⟩, g⟩
    exact ⟨handedOn, hh, g.changed, ⟨g.handed, g.due⟩, rfl⟩

/-- What `assertRecoverable` asks. -/
structure RecoverGuards (db : Db) (loan : Loan) (copy : Copy) (effectiveAt : Option Day)
    (now : Time) : Prop where
  date : ∀ d ∈ effectiveAt, d ≤ isoDayOf now
  first : db.hasEvent loan.id .recovered = false
  not_archived : copy.archivedAt = none
  unoccupied : db.occupiedByOther loan.copyId loan.id = false

theorem assertRecoverable_eq_ok {db : Db} {loan : Loan} {copy : Copy} {effectiveAt : Option Day}
    {now t : Time} :
    assertRecoverable db loan copy effectiveAt now = .ok t ↔
      RecoverGuards db loan copy effectiveAt now ∧ t = recoveredAt effectiveAt now := by
  simp only [assertRecoverable, bind_eq_ok, throwIf_eq_ok, pure_eq_ok, exists_const]
  constructor
  · rintro ⟨hdate, hfirst, harch, hocc, rfl⟩
    refine ⟨⟨fun d hd => ?_, by simpa using hfirst, by simpa using harch, by simpa using hocc⟩, rfl⟩
    exact Int.not_lt.mp fun hlt => hdate ⟨d, hd, hlt⟩
  · rintro ⟨g, rfl⟩
    refine ⟨?_, by simp [g.first], by simp [g.not_archived], by simp [g.unoccupied], rfl⟩
    rintro ⟨d, hd, hlt⟩
    exact absurd (g.date d hd) (Int.not_le.mpr hlt)

theorem assertCopyReady_eq_ok {outcome : LoanTransition} {s : ServedLoan} {copy : Copy} {u : Unit} :
    assertCopyReady outcome s copy = .ok u ↔ ∀ p ∈ outcome.requires, p.holds s copy := by
  simp [assertCopyReady]

/-- The side of the caller. -/
def actorOf (loan : Loan) (actorId : UserId) : LoanActor :=
  if loan.ownerId = actorId then .owner else .borrower

/-- What one transition writes into the row of the loan. -/
def loanEdit (outcome : LoanTransition) (req : UpdateLoanRequest) (now : Time) (stored : Loan) :
    Table.Edit Loan.id :=
  if outcome.event = some .recordAmended then
    match amendedDates stored req with
    | some dates => amendEdit dates.2
    | none => ⟨id, fun _ => rfl⟩
  else if outcome.toStatus ≠ stored.status then transitionEdit outcome req now
  else ⟨id, fun _ => rfl⟩

/-- The notification of a transition, if it has one. -/
def transitionNotices (outcome : LoanTransition) (s : ServedLoan) (actorId : UserId) :
    List Notification :=
  (outcome.notify.map fun n =>
    (⟨s.recipientOf n.recipient (actorOf s.row actorId), n.type,
      .loan s.row.id s.row.copyId actorId⟩ : Notification)).toList

/-- The event of a transition, if it has one. -/
def transitionEvent (outcome : LoanTransition) (req : UpdateLoanRequest) (now : Time)
    (stored : Loan) (actorId : UserId) : Option LoanEvent :=
  outcome.event.map fun type =>
    ⟨stored.id, type, some actorId, now,
      if type = .recovered then some (recoveredAt req.effectiveAt now) else none,
      if type = .recordAmended then
        match amendedDates stored req with
        | some dates => .amended dates.1 dates.2
        | none => .empty
      else .empty⟩

/-- The rivals a transition rejects, if it rejects any. -/
def Db.withRivalsOf (db : Db) (outcome : LoanTransition) (stored : Loan) (now : Time) : Db :=
  db.withRejectedWhen outcome.rejectRivals stored.copyId (some stored.id) stored.ownerId now

/-- **The writes of one transition**: the rivals are rejected, then the loan and its copy
change, and the notification and the event are added. -/
def Db.transitioned (db : Db) (now : Time) (actorId : UserId) (req : UpdateLoanRequest)
    (s : ServedLoan) (copy : Copy) (outcome : LoanTransition) : Db :=
  let rejected := db.withRivalsOf outcome s.row now
  { rejected with
    loans := rejected.loans.modify s.row.id (loanEdit outcome req now s.row)
    copies := db.copies.modify copy.id (copyEdit outcome s)
    events := rejected.events ++ (transitionEvent outcome req now s.row actorId).toList
    notifications := rejected.notifications ++ transitionNotices outcome s actorId }

/-- The guards of `runTransition`. -/
structure TransitionGuards (db : Db) (now : Time) (actorId : UserId) (loanId : LoanId)
    (req : UpdateLoanRequest) (s : ServedLoan) (copy : Copy) (outcome : LoanTransition) :
    Prop where
  find_loan : db.loans.find? loanId = some s.row
  find_copy : db.copies.find? s.row.copyId = some copy
  participant : s.row.ownerId = actorId ∨ s.borrowerId = actorId
  owner_eq : s.row.ownerId = copy.ownerId
  sides_ne : s.row.ownerId ≠ s.borrowerId
  row : TransitionRow s.row.status req.action (actorOf s.row actorId) s.row.origin outcome
  recoverable : outcome.event = some .recovered →
    RecoverGuards db s.row copy req.effectiveAt now
  ready : ∀ p ∈ outcome.requires, p.holds s copy
  amendable : outcome.event = some .recordAmended →
    ∃ dates, amendedDates s.row req = some dates ∧ AmendGuards now dates
  rivals_registered : outcome.rejectRivals = true →
    ∀ l ∈ db.rivals s.row.copyId (some s.row.id), l.borrowerId ≠ none

/-- The optional check of a recovery. -/
theorem recoverCheck_eq_ok {db : Db} {outcome : LoanTransition} {loan : Loan} {copy : Copy}
    {effectiveAt : Option Day} {now : Time} {e : Option Time} :
    whenever (outcome.event = some .recovered)
        (assertRecoverable db loan copy effectiveAt now) = .ok e ↔
      (outcome.event = some .recovered → RecoverGuards db loan copy effectiveAt now) ∧
        e = if outcome.event = some .recovered then some (recoveredAt effectiveAt now)
          else none := by
  rw [whenever_eq_ok]
  by_cases h : outcome.event = some .recovered
  · simp only [h, true_and, not_true_eq_false, false_and, or_false, assertRecoverable_eq_ok,
      true_imp_iff, if_true]
    constructor
    · rintro ⟨a, ⟨g, rfl⟩, rfl⟩
      exact ⟨g, rfl⟩
    · rintro ⟨g, rfl⟩
      exact ⟨_, ⟨g, rfl⟩, rfl⟩
  · simp [h]

/-- The optional check of an amendment. -/
theorem amendCheck_eq_ok {outcome : LoanTransition} {loan : Loan} {req : UpdateLoanRequest}
    {now : Time} {a : Option (RecordDates × RecordDates)} :
    whenever (outcome.event = some .recordAmended) (assertAmendedDates loan req now) = .ok a ↔
      (outcome.event = some .recordAmended →
        ∃ dates, amendedDates loan req = some dates ∧ AmendGuards now dates) ∧
        a = if outcome.event = some .recordAmended then amendedDates loan req else none := by
  rw [whenever_eq_ok]
  by_cases h : outcome.event = some .recordAmended
  · simp only [h, true_and, not_true_eq_false, false_and, or_false, assertAmendedDates_eq_ok,
      true_imp_iff, if_true]
    constructor
    · rintro ⟨dates, ⟨hd, g⟩, rfl⟩
      exact ⟨⟨dates, hd, g⟩, hd.symm⟩
    · rintro ⟨⟨dates, hd, g⟩, rfl⟩
      exact ⟨dates, ⟨hd, g⟩, hd⟩
  · simp [h]

/-- The stored row is spared from the rejection of its rivals. -/
theorem find?_withRivalsOf {db : Db} {outcome : LoanTransition} {stored : Loan} {now : Time}
    (hl : db.loans.find? stored.id = some stored) :
    (db.withRivalsOf outcome stored now).loans.find? stored.id = some stored := by
  unfold Db.withRivalsOf Db.withRejectedWhen
  split
  · have hspared : stored.isRival stored.copyId (some stored.id) = false := by
      simp [Loan.isRival]
    rw [Db.withRejected, Table.find?_updateWhere, hl, Option.map_some, hspared]
    rfl
  · exact hl

/-- The only row with an amendment keeps the status. -/
theorem TransitionRow.of_amended {status : LoanStatus} {action : LoanAction} {actor : LoanActor}
    {origin : LoanOrigin} {t : LoanTransition} (row : TransitionRow status action actor origin t)
    (h : t.event = some .recordAmended) : status = .pendingConfirmation ∧ t = .amendRecord := by
  cases row with
  | amendRecord => exact ⟨rfl, rfl⟩
  | returnBook _ ho => cases origin <;> cases h
  | _ => cases h

/-- A row keeps to the statuses of its origin. -/
theorem TransitionRow.toStatus_flow {status : LoanStatus} {action : LoanAction}
    {actor : LoanActor} {origin : LoanOrigin} {t : LoanTransition}
    (row : TransitionRow status action actor origin t) :
    (origin = .requested ∧ t.toStatus.isRequestFlow = true) ∨
      (origin = .recordedExisting ∧ t.toStatus.isRecorded = true) := by
  cases row with
  | returnBook _ ho => cases origin <;> simp_all [LoanTransition.returnBook, LoanStatus.isRequestFlow,
      LoanStatus.isRecorded]
  | markLost _ ho => cases origin <;> simp_all [LoanTransition.markLost, LoanStatus.isRequestFlow,
      LoanStatus.isRecorded]
  | recover _ ho => cases origin <;> simp_all [LoanTransition.recover, LoanStatus.isRequestFlow,
      LoanStatus.isRecorded]
  | confirmRecord => exact Or.inr ⟨rfl, rfl⟩
  | declineRecord => exact Or.inr ⟨rfl, rfl⟩
  | withdrawRecord => exact Or.inr ⟨rfl, rfl⟩
  | amendRecord => exact Or.inr ⟨rfl, rfl⟩
  | _ => exact Or.inl ⟨rfl, rfl⟩

theorem transitionEdit_handedAt {outcome : LoanTransition} {req : UpdateLoanRequest}
    {now : Time} {l : Loan} (h : l.handedAt ≠ none) :
    (transitionEdit outcome req now l).handedAt ≠ none := by
  by_cases hs : outcome.stamp = some .handedAt
  · simp [transitionEdit, hs]
  · simpa [transitionEdit, hs] using h

/-- The three forms of `loanEdit`. -/
theorem loanEdit_cases (outcome : LoanTransition) (req : UpdateLoanRequest) (now : Time)
    (stored : Loan) :
    (∃ dates, loanEdit outcome req now stored = amendEdit dates ∧
        outcome.event = some .recordAmended) ∨
      loanEdit outcome req now stored = transitionEdit outcome req now ∨
      (loanEdit outcome req now stored = ⟨id, fun _ => rfl⟩ ∧
        (outcome.event = some .recordAmended ∨ outcome.toStatus = stored.status)) := by
  unfold loanEdit
  by_cases hev : outcome.event = some .recordAmended
  · rw [if_pos hev]
    cases amendedDates stored req with
    | none => exact Or.inr (Or.inr ⟨rfl, Or.inl hev⟩)
    | some dates => exact Or.inl ⟨dates.2, rfl, hev⟩
  · rw [if_neg hev]
    by_cases hst : outcome.toStatus = stored.status
    · rw [if_neg (not_not.mpr hst)]
      exact Or.inr (Or.inr ⟨rfl, Or.inr hst⟩)
    · rw [if_pos hst]
      exact Or.inr (Or.inl rfl)

theorem loanEdit_sameParties (outcome : LoanTransition) (req : UpdateLoanRequest) (now : Time)
    (stored l : Loan) : l.SameParties (loanEdit outcome req now stored l) := by
  rcases loanEdit_cases outcome req now stored with ⟨dates, h, -⟩ | h | ⟨h, -⟩
  · rw [h]
    exact ⟨rfl, rfl, rfl, rfl, rfl, rfl, rfl, rfl⟩
  · rw [h]
    exact ⟨rfl, rfl, rfl, rfl, rfl, rfl, rfl, rfl⟩
  · rw [h]
    exact Loan.SameParties.refl l

/-- After a transition the loan has the status of its row. -/
theorem TransitionRow.loanEdit_status {status : LoanStatus} {action : LoanAction}
    {actor : LoanActor} {origin : LoanOrigin} {outcome : LoanTransition}
    (row : TransitionRow status action actor origin outcome) {stored : Loan}
    (hs : stored.status = status) (req : UpdateLoanRequest) (now : Time) :
    (loanEdit outcome req now stored stored).status = outcome.toStatus := by
  rcases loanEdit_cases outcome req now stored with ⟨dates, h, hev⟩ | h | ⟨h, hev | hst⟩
  · obtain ⟨hp, rfl⟩ := row.of_amended hev
    rw [h]
    exact hs.trans hp
  · rw [h]
    rfl
  · obtain ⟨hp, rfl⟩ := row.of_amended hev
    rw [h]
    exact hs.trans hp
  · rw [h]
    exact hst.symm

theorem loanEdit_handedAt {outcome : LoanTransition} {req : UpdateLoanRequest} {now : Time}
    {stored l : Loan} (hl : l.handedAt ≠ none) :
    (loanEdit outcome req now stored l).handedAt ≠ none := by
  rcases loanEdit_cases outcome req now stored with ⟨dates, h, -⟩ | h | ⟨h, -⟩
  · rw [h]
    simp [amendEdit]
  · rw [h]
    exact transitionEdit_handedAt hl
  · rw [h]
    exact hl

/-- A transition leaves a loan this service still serves. -/
theorem TransitionRow.served {action : LoanAction} {actor : LoanActor} {status : LoanStatus}
    {origin : LoanOrigin} {outcome : LoanTransition}
    (row : TransitionRow status action actor origin outcome) {l : Loan} (hs : l.status = status)
    (ho : l.origin = origin) (h : l.HasServedOrigin) {req : UpdateLoanRequest} {now : Time} :
    (loanEdit outcome req now l l).HasServedOrigin := by
  have hsame := loanEdit_sameParties outcome req now l l
  have hstatus := row.loanEdit_status hs req now
  rcases h with ⟨horig, hreq, -⟩ | ⟨horig, hhanded, -⟩
  · refine Or.inl ⟨hsame.origin.trans horig, hsame.requestedAt ▸ hreq, ?_⟩
    rcases row.toStatus_flow with ⟨-, hf⟩ | ⟨hor, -⟩
    · rw [hstatus, hf]
    · rw [← ho, horig] at hor
      cases hor
  · refine Or.inr ⟨hsame.origin.trans horig, loanEdit_handedAt hhanded, ?_⟩
    rcases row.toStatus_flow with ⟨hor, -⟩ | ⟨-, hf⟩
    · rw [← ho, horig] at hor
      cases hor
    · rw [hstatus, hf]

/-- The two updates of the loan's row are the one edit `loanEdit`. -/
theorem writeLoan_eq {loans : Table Loan.id} {stored : Loan} {req : UpdateLoanRequest}
    {actor : LoanActor} {outcome : LoanTransition} {now : Time}
    (hl : loans.find? stored.id = some stored)
    (row : TransitionRow stored.status req.action actor stored.origin outcome)
    (hdates : outcome.event = some .recordAmended → ∃ dates, amendedDates stored req = some dates) :
    writeLoan now req stored outcome
      (if outcome.event = some .recordAmended then amendedDates stored req else none) loans =
      .ok (loans.modify stored.id (loanEdit outcome req now stored)) := by
  rw [writeLoan, updateOne_eq hl (by simp) (fun b hb => (of_decide_eq_true hb).1), ok_bind]
  by_cases hev : outcome.event = some .recordAmended
  · obtain ⟨hst, rfl⟩ := row.of_amended hev
    obtain ⟨dates, hd⟩ := hdates hev
    have hsame : (LoanTransition.amendRecord).toStatus = stored.status := hst.symm
    simp only [if_pos hev, hd, hsame, ne_eq, not_true_eq_false, decide_false, Bool.false_eq_true,
      if_false, loanEdit]
    exact updateOne_eq hl (by simp [hst]) (fun b hb => (of_decide_eq_true hb).1)
  · rw [if_neg hev, loanEdit, if_neg hev]
    by_cases hst : outcome.toStatus = stored.status
    · simp only [hst, ne_eq, not_true_eq_false, decide_false, Bool.false_eq_true, if_false]
      rw [Table.modify_eq_self fun _ _ _ => rfl]
      rfl
    · simp only [hst, ne_eq, not_false_eq_true, decide_true, if_true]
      rfl

/-- The copy's update, made only when the transition touches the copy, is its edit. -/
theorem writeCopy_eq {copies : Table Copy.id} {copy : Copy} {outcome : LoanTransition}
    {s : ServedLoan} (hc : copies.find? copy.id = some copy) :
    updateOne (outcome.copyStatus ≠ none ∨ outcome.holder ≠ none) copies
      (fun c => c.id = copy.id ∧ c.status = copy.status ∧
        c.currentHolderId = copy.currentHolderId) (copyEdit outcome s) =
      .ok (copies.modify copy.id (copyEdit outcome s)) := by
  rw [updateOne_eq hc (by simp) (fun b hb => (of_decide_eq_true hb).1)]
  by_cases h : outcome.copyStatus ≠ none ∨ outcome.holder ≠ none
  · rw [if_pos (decide_eq_true h)]
  · rw [if_neg (by simpa using h)]
    simp only [ne_eq, not_or, not_not] at h
    rw [Table.modify_eq_self fun c _ _ => by simp [copyEdit, h.1, h.2]]

theorem notifyParty_eq (s : ServedLoan) (actorId : UserId) (outcome : LoanTransition) (db : Db) :
    notifyParty s (actorOf s.row actorId) actorId outcome db =
      { db with notifications := db.notifications ++ transitionNotices outcome s actorId } := by
  unfold notifyParty transitionNotices
  cases outcome.notify with
  | none => simp
  | some n => rfl

theorem recordTransition_eq (now : Time) (actorId : UserId) (s : ServedLoan)
    (outcome : LoanTransition) (req : UpdateLoanRequest) (db : Db) :
    recordTransition now actorId s outcome
      (if outcome.event = some .recovered then some (recoveredAt req.effectiveAt now) else none)
      (if outcome.event = some .recordAmended then amendedDates s.row req else none) db =
      { db with events := db.events ++ (transitionEvent outcome req now s.row actorId).toList } := by
  unfold recordTransition transitionEvent
  cases outcome.event with
  | none => simp
  | some type =>
    simp only [Option.some.injEq, Option.map_some, Option.toList_some, Db.record]
    by_cases h : type = .recordAmended
    · rw [if_pos h, if_pos h]
      cases amendedDates s.row req <;> rfl
    · rw [if_neg h, if_neg h]

/-- Rejecting the rivals after the writes of the loan and its copy is rejecting them
before: the loan itself is spared. -/
theorem rejectRivalsOf_written {db db' : Db} {s : ServedLoan} {outcome : LoanTransition}
    {copies : Table Copy.id} {f : Table.Edit Loan.id} {now : Time} :
    rejectRivalsOf s outcome now
        { db with loans := db.loans.modify s.row.id f, copies := copies } = .ok db' ↔
      (outcome.rejectRivals = true →
        ∀ l ∈ db.rivals s.row.copyId (some s.row.id), l.borrowerId ≠ none) ∧
        db' = { db.withRivalsOf outcome s.row now with
          loans := (db.withRivalsOf outcome s.row now).loans.modify s.row.id f
          copies := copies } := by
  have hspared : ∀ l ∈ db.loans, l.id = s.row.id →
      l.isRival s.row.copyId (some s.row.id) = false ∧
        (f l).isRival s.row.copyId (some s.row.id) = false := by
    intro l _ hid
    have hid' : (f l).id = s.row.id := (f.keeps l).trans hid
    simp [Loan.isRival, hid, hid']
  exact rejectRequested_modified hspared

/-- The writes of a transition whose row is found commit exactly when every rival has a
borrower. -/
theorem writeTransition_eq_ok {db db' : Db} {now : Time} {actorId : UserId}
    {req : UpdateLoanRequest} {s : ServedLoan} {copy : Copy} {outcome : LoanTransition}
    (hl : db.loans.find? s.row.id = some s.row) (hc : db.copies.find? copy.id = some copy)
    (row : TransitionRow s.row.status req.action (actorOf s.row actorId) s.row.origin outcome)
    (hdates : outcome.event = some .recordAmended → ∃ dates, amendedDates s.row req = some dates) :
    writeTransition now actorId req s (actorOf s.row actorId) copy outcome
      (if outcome.event = some .recovered then some (recoveredAt req.effectiveAt now) else none)
      (if outcome.event = some .recordAmended then amendedDates s.row req else none) db = .ok db' ↔
      (outcome.rejectRivals = true →
        ∀ l ∈ db.rivals s.row.copyId (some s.row.id), l.borrowerId ≠ none) ∧
        db' = db.transitioned now actorId req s copy outcome := by
  -- the row the transaction ends on
  have hserved : ∃ s', asServedLoan (loanEdit outcome req now s.row s.row) = some s' := by
    have hsame := loanEdit_sameParties outcome req now s.row s.row
    exact ⟨_, asServedLoan_of (hsame.borrowerId.trans s.row_borrowerId)
      (hsame.borrowerKind.trans s.registered) (row.served rfl rfl s.served)⟩
  have hfound : ∀ {d : Db}, d.loans = (db.withRivalsOf outcome s.row now).loans.modify s.row.id
      (loanEdit outcome req now s.row) →
      d.loans.find? s.row.id = some (loanEdit outcome req now s.row s.row) := by
    intro d hd
    rw [hd, Table.find?_modify, if_pos rfl, find?_withRivalsOf hl, Option.map_some]
  unfold writeTransition
  simp only [writeLoan_eq hl row hdates, writeCopy_eq hc, ok_bind, bind_eq_ok,
    rejectRivalsOf_written, notifyParty_eq, recordTransition_eq, pure_eq_ok]
  constructor
  · rintro ⟨d, ⟨hrivals, rfl⟩, u, -, rfl⟩
    exact ⟨hrivals, rfl⟩
  · rintro ⟨hrivals, rfl⟩
    refine ⟨_, ⟨hrivals, rfl⟩, ⟨⟩, ?_, rfl⟩
    rw [hfound rfl]
    exact requireServed_eq_ok.mpr hserved

theorem ServedLoan.isParticipant_eq_true (s : ServedLoan) {userId : UserId} :
    s.isParticipant userId = true ↔ s.row.ownerId = userId ∨ s.borrowerId = userId :=
  decide_eq_true_iff

/-- **runTransition** commits exactly under its guards, with the writes `transitioned`. -/
theorem runTransition_eq_ok {now : Time} {actorId : UserId} {loanId : LoanId}
    {req : UpdateLoanRequest} {db db' : Db} :
    runTransition now actorId loanId req db = .ok db' ↔
      ∃ s copy outcome, TransitionGuards db now actorId loanId req s copy outcome ∧
        db' = db.transitioned now actorId req s copy outcome := by
  simp only [runTransition, bind_eq_ok, throwIf_eq_ok, orThrow_eq_ok, exists_const,
    mapError_eq_ok, assertCopyReady_eq_ok, recoverCheck_eq_ok, amendCheck_eq_ok]
  constructor
  · rintro ⟨stored, hl, hlock, copy, hc, s, hs, hpart, howner, hsides, outcome, hres, _,
      ⟨hrec, rfl⟩, hready, _, ⟨hamend, rfl⟩, hwrite⟩
    obtain rfl := row_of_asServedLoan hs
    have row := transitionRow_of_resolve hres
    have hdates : outcome.event = some .recordAmended →
        ∃ dates, amendedDates s.row req = some dates := fun h => (hamend h).imp fun _ hd => hd.1
    have hown : db.loans.find? s.row.id = some s.row := Table.find?_of_mem (Table.mem_of_find? hl)
    have hcopy : db.copies.find? copy.id = some copy := Table.find?_of_mem (Table.mem_of_find? hc)
    obtain ⟨hrivals, rfl⟩ := (writeTransition_eq_ok hown hcopy row hdates).mp hwrite
    exact ⟨s, copy, outcome, ⟨hl, hc, s.isParticipant_eq_true.mp (by simpa using hpart),
      not_not.mp howner, hsides, row, hrec, hready, hamend, hrivals⟩, rfl⟩
  · rintro ⟨s, copy, outcome, g, rfl⟩
    have hdates : outcome.event = some .recordAmended →
        ∃ dates, amendedDates s.row req = some dates :=
      fun h => (g.amendable h).imp fun _ hd => hd.1
    have hown : db.loans.find? s.row.id = some s.row :=
      Table.find?_of_mem (Table.mem_of_find? g.find_loan)
    have hcopy : db.copies.find? copy.id = some copy :=
      Table.find?_of_mem (Table.mem_of_find? g.find_copy)
    have horigin : s.row.origin = .requested ∨ s.row.origin = .recordedExisting :=
      s.served.imp (fun h => h.1) (fun h => h.1)
    have hside : s.row.ownerId = actorId ∨ s.row.borrowerId = some actorId :=
      g.participant.imp id fun h => s.row_borrowerId.trans (congrArg some h)
    exact ⟨s.row, g.find_loan, not_not.mpr ⟨horigin, s.registered, hside⟩, copy, g.find_copy, s,
      s.asServedLoan_row, by simp [s.isParticipant_eq_true.mpr g.participant],
      not_not.mpr g.owner_eq, g.sides_ne, outcome, g.row.resolve, _, ⟨g.recoverable, rfl⟩, g.ready,
      _, ⟨g.amendable, rfl⟩,
      (writeTransition_eq_ok hown hcopy g.row hdates).mpr ⟨g.rivals_registered, rfl⟩⟩

end Bookswap
