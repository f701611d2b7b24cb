import Bookswap.Guests.GuestLoanResponseService
import Bookswap.Loans.LoanSpec

/-!
# What the transactions on guest loans do

The counterpart of `Loans.LoanSpec` for the three guest services: what a committed
transaction had checked and what it wrote. The order of independent writes is
normalized: rivals are rejected first, then the loan, its copy and its confirmation
change, then the event is added; the contact's deadline is last.

- `createGuestLoan_writes`, `createRequest_writes`: a new loan to a contact.
- `applyGuestTransition_eq_ok`, `applyAction_eq_ok`: the owner's actions, as
  equivalences up to the deadline's computation.
- `applyAnswer_eq_ok`: the guest's answer.
-/

namespace Bookswap

open Store Checked

variable {db db' : Db} {now : Time} {ownerId : UserId}

/-! ## A new loan to a contact -/

/-- The guards of `lendToContact`. -/
structure LendGuards (ownerId : UserId) (req : CreateGuestLoanRequest) (now : Time)
    (contact : ExternalBorrower) (copy : Copy) : Prop where
  own_contact : contact.ownerId = ownerId
  own : copy.ownerId = ownerId
  not_archived : copy.archivedAt = none
  free : copy.FreeAtHome
  handed : req.handedAt ≤ isoDayOf now

/-- **lendToContact** adds the loan and gives the copy to the contact. -/
theorem lendToContact_writes {loanStatus : LoanStatus} {copyStatus : CopyStatus}
    {req : CreateGuestLoanRequest} {id : LoanId}
    (h : lendToContact loanStatus copyStatus now ownerId req id db = .ok db') :
    ∃ contact copy loans, db.contacts.find? req.externalBorrowerId = some contact ∧
      db.copies.find? req.copyId = some copy ∧ LendGuards ownerId req now contact copy ∧
      db.loans.insert (guestLoanRow loanStatus now copy req id) = some loans ∧
      db' = { db with
        loans := loans
        copies := db.copies.modify copy.id (contactEdit copyStatus req.externalBorrowerId) } := by
  simp only [lendToContact, bind_eq_ok, throwIf_eq_ok, orThrow_eq_ok, pure_eq_ok, exists_const,
    assertRecordDates_eq_ok, assertSingleRow_eq_ok] at h
  obtain ⟨contact, hcontact, hown, copy, hcopy, hcown, harch, hfree, ⟨hhanded, -⟩, loans, hins, -,
    rfl⟩ := h
  simp only [ne_eq, not_or, not_not] at hown hcown harch hfree
  have hself : db.copies.find? copy.id = some copy :=
    Table.find?_of_mem (Table.mem_of_find? hcopy)
  refine ⟨contact, copy, loans, hcontact, hcopy,
    ⟨hown, hcown, harch, ⟨hfree.1, hfree.2.1, hfree.2.2⟩, hhanded⟩, hins, ?_⟩
  rw [Table.updateMany_of_find? hself (by simp [hfree.1, hfree.2.1, hfree.2.2])
    fun c hc => (of_decide_eq_true hc).1]

/-- Rejecting the rivals after the writes of a guest loan is rejecting them before: the
loan is no request. -/
theorem rejectRivals_lent {loans : Table Loan.id} {copies : Table Copy.id} {row : Loan}
    {copyId : CopyId} (hins : db.loans.insert row = some loans)
    (hrow : row.isRequestFlowRequested = false) :
    rejectRequestedRivals copyId ownerId now { db with loans := loans, copies := copies } =
        .ok db' ↔
      (∀ l ∈ db.rivals copyId none, l.borrowerId ≠ none) ∧
        ∃ loans', (db.withRejected copyId none ownerId now).loans.insert row = some loans' ∧
          db' = { db.withRejected copyId none ownerId now with
            loans := loans', copies := copies } := by
  have hnot : row.isRival copyId none = false := by
    simp [Loan.isRival, hrow]
  have hrivals : Db.rivals { db with loans := loans, copies := copies } copyId none =
      db.rivals copyId none := by
    simp [Db.rivals, Table.rows_insert hins, hnot]
  have hloans := Table.insert_updateWhere (f := Loan.rejectedAt now) hins hnot
  rw [rejectRequestedRivals, rejectRequested_eq_ok, hrivals]
  refine and_congr_right fun _ => ?_
  constructor
  · rintro rfl
    refine ⟨_, hloans, ?_⟩
    simp only [Db.withRejected, hrivals]
  · rintro ⟨loans', hl, rfl⟩
    obtain rfl := Option.some.inj (hloans.symm.trans hl)
    simp only [Db.withRejected, hrivals]

/-- **createGuestLoan** rejects the rivals, adds the loan, and gives the copy away. -/
theorem createGuestLoan_writes {req : CreateGuestLoanRequest} {id : LoanId}
    (h : createGuestLoan now ownerId req id db = .ok db') :
    ∃ contact copy loans t, db.contacts.find? req.externalBorrowerId = some contact ∧
      db.copies.find? req.copyId = some copy ∧ LendGuards ownerId req now contact copy ∧
      (∀ l ∈ db.rivals copy.id none, l.borrowerId ≠ none) ∧
      (db.withRejected copy.id none ownerId now).loans.insert
        (guestLoanRow .handedOver now copy req id) = some loans ∧
      db' = ({ db.withRejected copy.id none ownerId now with
        loans := loans
        copies := db.copies.modify copy.id
          (contactEdit .lentOut req.externalBorrowerId) }.record
        ⟨id, .guestLoanRecorded, some ownerId, now, none, .empty⟩).withRetainUntil
        req.externalBorrowerId t := by
  simp only [createGuestLoan, bind_eq_ok, pure_eq_ok] at h
  obtain ⟨db₁, hlend, db₂, hrej, db₃, hret, -, -, rfl⟩ := h
  obtain ⟨contact, copy, loans, hcontact, hcopy, g, hins, rfl⟩ := lendToContact_writes hlend
  have hid : copy.id = req.copyId := Table.key_of_find? hcopy
  rw [← hid] at hrej
  obtain ⟨hrivals, loans', hins', rfl⟩ := (rejectRivals_lent hins (by
    simp [Loan.isRequestFlowRequested, guestLoanRow])).mp hrej
  obtain ⟨t, rfl⟩ := recomputeRetainUntil_writes hret
  exact ⟨contact, copy, loans', t, hcontact, hcopy, g, hrivals, hins', rfl⟩

/-- **createRequest** adds the loan with its confirmation, and gives the copy away. -/
theorem createRequest_writes {req : CreateGuestLoanRequest} {id : LoanId}
    {confirmationId : ConfirmationId}
    (h : createRequest now ownerId req id confirmationId db = .ok db') :
    ∃ contact copy loans confirmations t,
      db.contacts.find? req.externalBorrowerId = some contact ∧
      db.copies.find? req.copyId = some copy ∧ LendGuards ownerId req now contact copy ∧
      db.loans.insert (guestLoanRow .pendingConfirmation now copy req id) = some loans ∧
      db.confirmations.insert (confirmationRow now confirmationId id req.externalBorrowerId) =
        some confirmations ∧
      db' = ({ db with
        loans := loans
        copies := db.copies.modify copy.id
          (contactEdit .reserved req.externalBorrowerId)
        confirmations := confirmations }.record
        ⟨id, .guestConfirmationRequested, some ownerId, now, none, .empty⟩).withRetainUntil
        req.externalBorrowerId t := by
  simp only [createRequest, bind_eq_ok, pure_eq_ok, orThrow_eq_ok] at h
  obtain ⟨db₁, hlend, confirmations, hconf, db₃, hret, -, -, rfl⟩ := h
  obtain ⟨contact, copy, loans, hcontact, hcopy, g, hins, rfl⟩ := lendToContact_writes hlend
  obtain ⟨t, rfl⟩ := recomputeRetainUntil_writes hret
  exact ⟨contact, copy, loans, confirmations, t, hcontact, hcopy, g, hins, hconf, rfl⟩

/-! ## The owner's actions on a guest loan -/

theorem asGuest_eq_some {s : LoanStatus} {g : GuestLoanStatus} :
    s.asGuest = some g ↔ s = g.toLoanStatus := by
  cases s <;> cases g <;> simp [LoanStatus.asGuest, GuestLoanStatus.toLoanStatus]

/-- The guards of `applyGuestTransition`. -/
structure GuestGuards (db : Db) (now : Time) (ownerId : UserId) (id : LoanId)
    (req : UpdateGuestLoanRequest) (loan : Loan) (status : GuestLoanStatus) (copy : Copy)
    (outcome : GuestLoanTransition) : Prop where
  find_loan : db.loans.find? id = some loan
  find_copy : db.copies.find? loan.copyId = some copy
  origin : loan.origin = .recordedGuest
  kind : loan.borrowerKind = .guest
  handed : loan.handedAt ≠ none
  own : loan.ownerId = ownerId
  status_eq : loan.status = status.toLoanStatus
  row : resolveGuestTransition status req.action = some outcome
  first_recovery : outcome.event = .recovered → db.hasEvent id .recovered = false
  first_closure : outcome.event = .lossClosed →
    db.hasEvent id .recovered = false ∧ db.hasEvent id .lossClosed = false
  date : outcome.event = .recovered → ∀ d ∈ req.effectiveAt, d ≤ isoDayOf now
  not_archived : outcome.event = .recovered → copy.archivedAt = none
  unoccupied : outcome.event = .recovered → db.occupiedByOther copy.id loan.id = false
  ready : outcome.copyReady loan copy

/-- The writes of one guest transition, before the deadline of the contact. -/
def Db.guestTransitioned (db : Db) (now : Time) (ownerId : UserId) (req : UpdateGuestLoanRequest)
    (loan : Loan) (copy : Copy) (outcome : GuestLoanTransition) : Db :=
  { db with
    loans := db.loans.modify loan.id (guestLoanEdit outcome now)
    copies := db.copies.modify copy.id (guestCopyEdit outcome ownerId)
    events := db.events ++ [⟨loan.id, outcome.event, some ownerId, now,
      if outcome.event = .recovered then some (recoveredAt req.effectiveAt now) else none,
      .empty⟩] }

theorem assertNotClosed_eq_ok {id : LoanId} {event : LoanEventType} {u : Unit} :
    assertNotClosed db id event = .ok u ↔
      (event = .recovered → db.hasEvent id .recovered = false) ∧
        (event = .lossClosed →
          db.hasEvent id .recovered = false ∧ db.hasEvent id .lossClosed = false) := by
  simp only [assertNotClosed, bind_eq_ok, throwIf_eq_ok, exists_const, not_and, not_or,
    Bool.not_eq_true]

theorem guestRecoverCheck_eq_ok {outcome : GuestLoanTransition} {loan : Loan} {copy : Copy}
    {effectiveAt : Option Day} {e : Option Time} :
    whenever (outcome.event = .recovered)
        (assertGuestRecoverable db loan copy effectiveAt now) = .ok e ↔
      (outcome.event = .recovered → (∀ d ∈ effectiveAt, d ≤ isoDayOf now) ∧
        copy.archivedAt = none ∧ db.occupiedByOther copy.id loan.id = false) ∧
        e = if outcome.event = .recovered then some (recoveredAt effectiveAt now) else none := by
  have hdate : (¬∃ d ∈ effectiveAt, isoDayOf now < d) ↔ ∀ d ∈ effectiveAt, d ≤ isoDayOf now := by
    simp only [not_exists, not_and, Int.not_lt]
  rw [whenever_eq_ok]
  by_cases h : outcome.event = .recovered
  · simp only [h, true_and, not_true_eq_false, false_and, or_false, true_imp_iff, if_true,
      assertGuestRecoverable, bind_eq_ok, throwIf_eq_ok, pure_eq_ok, exists_const, hdate, ne_eq,
      not_not, Bool.not_eq_true]
    constructor
    · rintro ⟨a, ⟨hd, ha, ho, rfl⟩, rfl⟩
      exact ⟨⟨hd, ha, ho⟩, rfl⟩
    · rintro ⟨⟨hd, ha, ho⟩, rfl⟩
      exact ⟨_, ⟨hd, ha, ho, rfl⟩, rfl⟩
  · simp [h]

/-- A transition that keeps the status writes no column of the loan. -/
theorem guestLoanEdit_eq_self {status : GuestLoanStatus} {action : GuestLoanAction}
    {outcome : GuestLoanTransition} (h : resolveGuestTransition status action = some outcome)
    {l : Loan} (hl : l.status = status.toLoanStatus) (hs : outcome.toStatus = status) :
    guestLoanEdit outcome now l = l := by
  cases status <;> cases action <;> cases h <;> try cases hs
  all_goals
    obtain ⟨⟩ := l
    cases hl
    rfl

/-- A transition that names no state of the copy does not touch it. -/
theorem guestCopyEdit_eq_self {outcome : GuestLoanTransition} (h₁ : outcome.copyStatus = none)
    (h₂ : outcome.copyHolder = false) (c : Copy) : guestCopyEdit outcome ownerId c = c := by
  simp [guestCopyEdit, h₁, h₂]

/-- The deadline of a contact is all a recomputation writes. -/
theorem recomputeOf_writes {contactId : Option ContactId}
    (h : recomputeOf contactId db = .ok db') :
    db' = db ∨ ∃ id t, db' = db.withRetainUntil id t := by
  cases contactId with
  | none => exact Or.inl (Except.ok.inj h).symm
  | some id =>
    obtain ⟨t, ht⟩ := recomputeRetainUntil_writes h
    exact Or.inr ⟨id, t, ht⟩

theorem recomputeOf_loans {contactId : Option ContactId}
    (h : recomputeOf contactId db = .ok db') : db'.loans = db.loans := by
  rcases recomputeOf_writes h with rfl | ⟨id, t, rfl⟩ <;> rfl

theorem requireGuestRow_eq_ok {row : Loan} {u : Unit} :
    requireGuestRow (some row) = .ok u ↔ row.handedAt ≠ none ∧ row.status.asGuest ≠ none := by
  simp [requireGuestRow, Loan.isGuestRow]

/-- **applyGuestTransition** commits exactly under its guards, and when the deadline of the
contact can be computed afterwards. -/
theorem applyGuestTransition_eq_ok {id : LoanId} {req : UpdateGuestLoanRequest} :
    applyGuestTransition now ownerId id req db = .ok db' ↔
      ∃ loan status copy outcome, GuestGuards db now ownerId id req loan status copy outcome ∧
        recomputeOf loan.borrowerContactId
          (db.guestTransitioned now ownerId req loan copy outcome) = .ok db' := by
  -- the two conditional updates are the two edits
  have hloan : ∀ {loan status outcome}, db.loans.find? loan.id = some loan →
      loan.status = GuestLoanStatus.toLoanStatus status →
      resolveGuestTransition status req.action = some outcome →
      updateOne (outcome.toStatus ≠ status) db.loans
        (fun l => l.id = loan.id ∧ l.status = loan.status) (guestLoanEdit outcome now) =
        .ok (db.loans.modify loan.id (guestLoanEdit outcome now)) := by
    intro loan status outcome hl hs hrow
    rw [updateOne_eq hl (by simp) fun b hb => (of_decide_eq_true hb).1]
    by_cases hst : outcome.toStatus = status
    · rw [if_neg (by simpa using hst), Table.modify_eq_self fun a ha hk => ?_]
      obtain rfl : a = loan := Table.eq_of_key_eq ha (Table.mem_of_find? hl) hk
      exact guestLoanEdit_eq_self hrow hs hst
    · rw [if_pos (by simpa using hst)]
  have hcopy : ∀ {copy : Copy} {outcome : GuestLoanTransition},
      db.copies.find? copy.id = some copy →
      updateOne (outcome.copyStatus ≠ none ∨ outcome.copyHolder) db.copies
        (fun c => c.id = copy.id ∧ c.status = copy.status ∧
          c.heldByContactId = copy.heldByContactId) (guestCopyEdit outcome ownerId) =
        .ok (db.copies.modify copy.id (guestCopyEdit outcome ownerId)) := by
    intro copy outcome hc
    rw [updateOne_eq hc (by simp) fun b hb => (of_decide_eq_true hb).1]
    by_cases h : outcome.copyStatus ≠ none ∨ outcome.copyHolder = true
    · rw [if_pos (decide_eq_true h)]
    · rw [if_neg (by simpa using h)]
      simp only [ne_eq, not_or, not_not, Bool.not_eq_true] at h
      rw [Table.modify_eq_self fun c _ _ => guestCopyEdit_eq_self h.1 h.2 c]
  simp only [applyGuestTransition, bind_eq_ok, throwIf_eq_ok, orThrow_eq_ok, pure_eq_ok,
    exists_const, asGuest_eq_some, assertNotClosed_eq_ok, guestRecoverCheck_eq_ok, not_not]
  constructor
  · rintro ⟨loan, hl, ⟨horigin, hkind, hhanded, hown⟩, status, hs, copy, hc, outcome, hrow,
      ⟨hrec, hclo⟩, _, ⟨hcheck, rfl⟩, hready, loans, hloans, copies, hcopies, _, hret, -, -, rfl⟩
    have hl' : db.loans.find? loan.id = some loan := Table.find?_of_mem (Table.mem_of_find? hl)
    have hc' : db.copies.find? copy.id = some copy := Table.find?_of_mem (Table.mem_of_find? hc)
    obtain rfl := Except.ok.inj ((hloan hl' hs hrow).symm.trans hloans)
    obtain rfl := Except.ok.inj (hcopy hc' |>.symm.trans hcopies)
    exact ⟨loan, status, copy, outcome, ⟨hl, hc, horigin, hkind, hhanded, hown, hs, hrow, hrec,
      hclo, fun h => (hcheck h).1, fun h => (hcheck h).2.1, fun h => (hcheck h).2.2, hready⟩, hret⟩
  · rintro ⟨loan, status, copy, outcome, g, hret⟩
    have hl' : db.loans.find? loan.id = some loan :=
      Table.find?_of_mem (Table.mem_of_find? g.find_loan)
    have hc' : db.copies.find? copy.id = some copy :=
      Table.find?_of_mem (Table.mem_of_find? g.find_copy)
    refine ⟨loan, g.find_loan, ⟨g.origin, g.kind, g.handed, g.own⟩, status, g.status_eq, copy,
      g.find_copy, outcome, g.row, ⟨g.first_recovery, g.first_closure⟩, _,
      ⟨fun h => ⟨g.date h, g.not_archived h, g.unoccupied h⟩, rfl⟩, g.ready, _,
      hloan hl' g.status_eq g.row, _, hcopy hc', db', hret, ⟨⟩, ?_, rfl⟩
    rw [recomputeOf_loans hret]
    show requireGuestRow ((db.loans.modify loan.id (guestLoanEdit outcome now)).find? loan.id) = _
    rw [Table.find?_modify, if_pos rfl, hl', Option.map_some, requireGuestRow_eq_ok]
    exact ⟨g.handed, by cases h : outcome.toStatus <;>
      simp [guestLoanEdit, h, GuestLoanStatus.toLoanStatus, LoanStatus.asGuest]⟩

/-! ## The owner's decisions on a confirmation -/

/-- What `lockChain` found. -/
structure ChainGuards (db : Db) (ownerId : UserId) (id : ConfirmationId)
    (confirmation : GuestLoanConfirmation) (loan : Loan) : Prop where
  find_confirmation : db.confirmations.find? id = some confirmation
  find_loan : db.loans.find? confirmation.loanId = some loan
  own : loan.ownerId = ownerId
  origin : loan.origin = .recordedGuest
  kind : loan.borrowerKind = .guest

theorem lockChain_eq_ok {id : ConfirmationId} {r : GuestLoanConfirmation × Loan} :
    lockChain db ownerId id = .ok r ↔ ChainGuards db ownerId id r.1 r.2 := by
  simp only [lockChain, bind_eq_ok, orThrow_eq_ok, throwIf_eq_ok, exists_const, not_not,
    pure_eq_ok]
  constructor
  · rintro ⟨confirmation, hc, loan, hl, ⟨hown, horigin, hkind⟩, rfl⟩
    exact ⟨hc, hl, hown, horigin, hkind⟩
  · intro g
    exact ⟨_, g.find_confirmation, _, g.find_loan, ⟨g.own, g.origin, g.kind⟩, rfl⟩

theorem readPendingChain_eq_ok {confirmation : GuestLoanConfirmation} {loan : Loan}
    {r : Copy × ContactId} :
    readPendingChain db confirmation loan = .ok r ↔
      db.copies.find? loan.copyId = some r.1 ∧ confirmation.externalBorrowerId = some r.2 ∧
        PendingChain loan r.1 r.2 := by
  simp only [readPendingChain, bind_eq_ok, orThrow_eq_ok, throwIf_eq_ok, exists_const, not_not,
    pure_eq_ok]
  constructor
  · rintro ⟨copy, hc, contactId, hid, hp, rfl⟩
    exact ⟨hc, hid, hp⟩
  · rintro ⟨hc, hid, hp⟩
    exact ⟨_, hc, _, hid, hp, rfl⟩

/-- A loan that waits for its guest is no rival, before and after its status is settled. -/
theorem settled_not_rival (copyId : CopyId) (spared : Option LoanId) {loan : Loan}
    {status : LoanStatus} (hl : db.loans.find? loan.id = some loan)
    (hpending : loan.status = .pendingConfirmation) (hs : status ≠ .requested) :
    ∀ l ∈ db.loans, l.id = loan.id → l.isRival copyId spared = false ∧
      (statusEdit status l).isRival copyId spared = false := by
  intro l hmem hid
  obtain rfl := Table.eq_of_key_eq hmem (Table.mem_of_find? hl) hid
  simp [Loan.isRival, Loan.isRequestFlowRequested, hpending, statusEdit, hs]

/-- The writes that settle a pending handover, before the deadline of the contact: the
rivals, the loan, the copy, the confirmation and the event. -/
def Db.settled (db : Db) (now : Time) (ownerId : UserId) (actorId : Option UserId)
    (id : ConfirmationId) (loan : Loan) (copy : Copy) (t : ConfirmationTransition)
    (resolvedAt : Option Time) : Db :=
  let rejected := db.withRejectedWhen t.rejectsRequestedRivals copy.id none ownerId now
  { rejected with
    loans := rejected.loans.modify loan.id (statusEdit t.loanTo)
    copies := db.copies.modify copy.id (settleCopyEdit t.copyTo ownerId)
    confirmations := db.confirmations.modify id (resolveEdit t.confirmationTo resolvedAt)
    events := db.events ++ [⟨loan.id, t.event, actorId, now, none, .empty⟩] }

theorem withRejectedWhen_confirmations {c : Bool} {copyId : CopyId} {spared : Option LoanId}
    {actorId : UserId} :
    (db.withRejectedWhen c copyId spared actorId now).confirmations = db.confirmations := by
  cases c <;> rfl

theorem withRejectedWhen_events {c : Bool} {copyId : CopyId} {spared : Option LoanId}
    {actorId : UserId} :
    (db.withRejectedWhen c copyId spared actorId now).events = db.events := by
  cases c <;> rfl

theorem withRejectedWhen_contacts {c : Bool} {copyId : CopyId} {spared : Option LoanId}
    {actorId : UserId} :
    (db.withRejectedWhen c copyId spared actorId now).contacts = db.contacts := by
  cases c <;> rfl

/-- A loan that is no rival is found as it was. -/
theorem find?_withRejectedWhen {c : Bool} {copyId : CopyId} {spared : Option LoanId}
    {actorId : UserId} {loan : Loan} (hl : db.loans.find? loan.id = some loan)
    (h : loan.isRival copyId spared = false) :
    (db.withRejectedWhen c copyId spared actorId now).loans.find? loan.id = some loan := by
  cases c with
  | false => exact hl
  | true =>
    show (db.loans.updateWhere _ _).find? loan.id = _
    rw [Table.find?_updateWhere, hl, Option.map_some, h]
    rfl

theorem isConfirmation_of_transition {status : GuestLoanConfirmationStatus}
    {action : GuestConfirmationAction} {t : ConfirmationTransition}
    (h : resolveConfirmationTransition status action = some t) :
    (status = .open ∨ status = .denied) ∧ (t = CANCEL_HANDOVER ∧ action = .cancelHandover ∨
      t = RECORD_OWNER_STATEMENT ∧ action = .recordOwnerStatement) := by
  unfold resolveConfirmationTransition at h
  split at h
  · cases h
  · rename_i hs
    refine ⟨?_, ?_⟩
    · by_contra hn
      exact hs (not_or.mp hn)
    · cases action <;> cases h
      · exact Or.inl ⟨rfl, rfl⟩
      · exact Or.inr ⟨rfl, rfl⟩

theorem recomputeRetainUntil_loans {contactId : ContactId}
    (h : recomputeRetainUntil contactId db = .ok db') : db'.loans = db.loans := by
  obtain ⟨t, rfl⟩ := recomputeRetainUntil_writes h
  rfl

theorem requireRow_eq_ok {row : Loan} {u : Unit} :
    requireRow (some row) = .ok u ↔ row.handedAt ≠ none ∧ row.status.isConfirmation = true := by
  simp [requireRow, Loan.isConfirmationRow]

/-- The writes of a decision commit exactly when every rival it rejects has a borrower and
the deadline of the contact can be computed afterwards. -/
theorem writeDecision_eq_ok {confirmation : GuestLoanConfirmation} {loan : Loan} {copy : Copy}
    {contactId : ContactId} {t : ConfirmationTransition} {action : GuestConfirmationAction}
    (hg : db.confirmations.find? confirmation.id = some confirmation)
    (hl : db.loans.find? loan.id = some loan) (hc : db.copies.find? copy.id = some copy)
    (hp : PendingChain loan copy contactId)
    (ht : resolveConfirmationTransition confirmation.status action = some t) :
    writeDecision now ownerId confirmation loan copy contactId t db = .ok db' ↔
      (t.rejectsRequestedRivals = true → ∀ l ∈ db.rivals copy.id none, l.borrowerId ≠ none) ∧
        recomputeRetainUntil contactId
          (db.settled now ownerId (some ownerId) confirmation.id loan copy t (some now)) =
            .ok db' ∧ loan.handedAt ≠ none := by
  have hto : t.loanTo ≠ .requested ∧ t.loanTo.isConfirmation = true := by
    rcases (isConfirmation_of_transition ht).2 with ⟨rfl, -⟩ | ⟨rfl, -⟩ <;> decide
  have hloans := updateOne_eq (c := true) (f := statusEdit t.loanTo) hl
    (p := fun l => l.id = loan.id ∧ l.status = .pendingConfirmation)
    (by simp [hp.pending]) fun b hb => (of_decide_eq_true hb).1
  have hcopies := updateOne_eq (c := true) (f := settleCopyEdit t.copyTo ownerId) hc
    (p := fun c => c.id = copy.id ∧ c.status = .reserved ∧ c.heldByContactId = some contactId)
    (by simp [hp.reserved, hp.held]) fun b hb => (of_decide_eq_true hb).1
  have hconf := updateOne_eq (c := true) (f := resolveEdit t.confirmationTo (some now)) hg
    (p := fun g => g.id = confirmation.id ∧ g.status = confirmation.status)
    (by simp) fun b hb => (of_decide_eq_true hb).1
  have hnot := settled_not_rival copy.id none hl hp.pending hto.1
  have hfound : ∀ {d : Db}, d.loans =
      (db.withRejectedWhen t.rejectsRequestedRivals copy.id none ownerId now).loans.modify loan.id
        (statusEdit t.loanTo) → d.loans.find? loan.id = some (statusEdit t.loanTo loan) := by
    intro d hd
    have hown := (hnot loan (Table.mem_of_find? hl) rfl).1
    rw [hd, Table.find?_modify, if_pos rfl, find?_withRejectedWhen hl hown, Option.map_some]
  unfold writeDecision rejectRivalsWhen rejectRequestedRivals
  simp only [hloans, hcopies, if_true, ok_bind, bind_eq_ok, rejectRequested_modified hnot,
    pure_eq_ok]
  constructor
  · rintro ⟨d, ⟨hrivals, rfl⟩, confirmations, hconf', d', hret, _, hrow, rfl⟩
    simp only [withRejectedWhen_confirmations, hconf, if_true, Except.ok.injEq] at hconf'
    subst hconf'
    refine ⟨hrivals, ?_, ?_⟩
    · simp only [Db.record, withRejectedWhen_events] at hret
      exact hret
    · rw [recomputeRetainUntil_loans hret, hfound rfl, requireRow_eq_ok] at hrow
      exact hrow.1
  · rintro ⟨hrivals, hret, hhanded⟩
    refine ⟨_, ⟨hrivals, rfl⟩, db.confirmations.modify confirmation.id
      (resolveEdit t.confirmationTo (some now)), ?_, db', ?_, ⟨⟩, ?_, rfl⟩
    · simp only [withRejectedWhen_confirmations, hconf, if_true]
    · simp only [Db.record, withRejectedWhen_events]
      exact hret
    · rw [recomputeRetainUntil_loans hret, hfound rfl, requireRow_eq_ok]
      exact ⟨hhanded, hto.2⟩

/-- **applyAction** commits exactly under its guards, and when the deadline of the contact
can be computed afterwards. -/
theorem applyAction_eq_ok {id : ConfirmationId} {action : GuestConfirmationAction} :
    applyAction now ownerId id action db = .ok db' ↔
      ∃ confirmation loan copy contactId t, ChainGuards db ownerId id confirmation loan ∧
        resolveConfirmationTransition confirmation.status action = some t ∧
        db.copies.find? loan.copyId = some copy ∧
        confirmation.externalBorrowerId = some contactId ∧ PendingChain loan copy contactId ∧
        (t.rejectsRequestedRivals = true → ∀ l ∈ db.rivals copy.id none, l.borrowerId ≠ none) ∧
        recomputeRetainUntil contactId
          (db.settled now ownerId (some ownerId) id loan copy t (some now)) = .ok db' ∧
        loan.handedAt ≠ none := by
  simp only [applyAction, bind_eq_ok, orThrow_eq_ok, lockChain_eq_ok, readPendingChain_eq_ok,
    Prod.exists]
  constructor
  · rintro ⟨confirmation, loan, g, t, ht, copy, contactId, ⟨hcopy, hid, hp⟩, hw⟩
    have hkey : confirmation.id = id := Table.key_of_find? g.find_confirmation
    have hw' := (writeDecision_eq_ok (hkey ▸ g.find_confirmation)
      (Table.find?_of_mem (Table.mem_of_find? g.find_loan))
      (Table.find?_of_mem (Table.mem_of_find? hcopy)) hp ht).mp hw
    exact ⟨confirmation, loan, copy, contactId, t, g, ht, hcopy, hid, hp, hkey ▸ hw'⟩
  · rintro ⟨confirmation, loan, copy, contactId, t, g, ht, hcopy, hid, hp, hw⟩
    have hkey : confirmation.id = id := Table.key_of_find? g.find_confirmation
    exact ⟨confirmation, loan, g, t, ht, copy, contactId, ⟨hcopy, hid, hp⟩,
      (writeDecision_eq_ok (hkey ▸ g.find_confirmation)
        (Table.find?_of_mem (Table.mem_of_find? g.find_loan))
        (Table.find?_of_mem (Table.mem_of_find? hcopy)) hp ht).mpr (hkey ▸ hw)⟩

/-- **rotateLink** writes the new link over an open, pending confirmation. -/
theorem rotateLink_writes {secrets : GuestConfirmationSecrets} {id : ConfirmationId}
    {token : Token} (h : rotateLink secrets now ownerId id token db = .ok db') :
    ∃ confirmation loan, ChainGuards db ownerId id confirmation loan ∧
      confirmation.status = .open ∧ loan.status = .pendingConfirmation ∧
      db' = { db with confirmations := db.confirmations.modify id (linkEdit secrets token now) } := by
  simp only [rotateLink, bind_eq_ok, lockChain_eq_ok, throwIf_eq_ok, exists_const, not_not,
    readPendingChain_eq_ok, pure_eq_ok, Prod.exists, ne_eq] at h
  obtain ⟨confirmation, loan, g, hopen, copy, contactId, ⟨-, -, hp⟩, confirmations, hconf, -, -, rfl⟩ :=
    h
  refine ⟨confirmation, loan, g, hopen, hp.pending, ?_⟩
  rw [updateOne_eq g.find_confirmation
    (by simp [hopen, Table.key_of_find? g.find_confirmation])
    fun b hb => (of_decide_eq_true hb).1, if_pos rfl, Except.ok.injEq] at hconf
  rw [hconf]

/-! ## The guest's answer -/

theorem lockOwnRow_eq_ok {secrets : GuestConfirmationSecrets} {id : ConfirmationId}
    {token : Token} {row : GuestLoanConfirmation} :
    lockOwnRow secrets db id token now = .ok row ↔
      db.confirmations.find? id = some row ∧ row.status = .open ∧
        row.linkTokenHash = some (secrets.hashToken token) ∧
        ∃ t, row.linkExpiresAt = some t ∧ now < t := by
  unfold lockOwnRow
  cases db.confirmations.find? id with
  | none => simp
  | some r =>
    dsimp only
    by_cases hr : r.status ≠ .open ∨ r.linkTokenHash ≠ some (secrets.hashToken token)
    · rw [if_pos hr]
      simp only [reduceCtorEq, Option.some.injEq, false_iff]
      rintro ⟨rfl, hs, ht, -⟩
      exact hr.elim (fun h => h hs) fun h => h ht
    · rw [if_neg hr]
      simp only [ne_eq, not_or, not_not] at hr
      cases ht : r.linkExpiresAt with
      | none =>
        simp only [reduceCtorEq, Option.some.injEq, false_iff]
        rintro ⟨rfl, -, -, t, ht', -⟩
        rw [ht] at ht'
        cases ht'
      | some t =>
        by_cases hlt : t ≤ now
        · simp only [if_pos hlt, reduceCtorEq, Option.some.injEq, false_iff]
          rintro ⟨rfl, -, -, t', ht', hnow⟩
          obtain rfl := Option.some.inj (ht.symm.trans ht')
          exact absurd hnow (Int.not_lt.mpr hlt)
        · simp only [if_neg hlt, Except.ok.injEq, Option.some.injEq]
          constructor
          · rintro rfl
            exact ⟨rfl, hr.1, hr.2, t, ht, Int.not_le.mp hlt⟩
          · rintro ⟨rfl, -⟩
            rfl

/-- What an answer `RECEIVED` makes of a pending handover, as a transition. -/
def GUEST_RECEIVED : ConfirmationTransition :=
  ⟨.received, .handedOver, .lentOut, .guestLoanReceived, true⟩

/-- What an answer `DENIED` writes before the notification: only the confirmation changes. -/
def Db.denied (db : Db) (now : Time) (id : ConfirmationId) (loan : Loan) : Db :=
  { db with
    confirmations := db.confirmations.modify id (resolveEdit .denied none)
    events := db.events ++ [⟨loan.id, .guestLoanDenied, none, now, none, .empty⟩] }

/-- **The writes of an accepted answer**, before the deadline of the contact. -/
def Db.answered (db : Db) (secrets : GuestConfirmationSecrets) (now : Time) (lookup : TokenLookup)
    (contactId : ContactId) (req : AnswerGuestResponseRequest) (row : GuestLoanConfirmation)
    (loan : Loan) (copy : Copy) : Db :=
  let told := (if req.answer = .received then
      db.settled now lookup.ownerId none lookup.id loan copy GUEST_RECEIVED (some now)
    else db.denied now lookup.id loan).notify
      ⟨lookup.ownerId, req.answer.notificationType, .guestResponse loan.id copy.id lookup.id⟩
  { told with
    contacts := told.contacts.modify contactId (guestIdentityEdit secrets req row.verifiedAt) }

/-- The guards of an accepted answer. -/
structure AnswerGuards (db : Db) (secrets : GuestConfirmationSecrets) (now : Time)
    (lookup : TokenLookup) (contactId : ContactId) (req : AnswerGuestResponseRequest)
    (row : GuestLoanConfirmation) (loan : Loan) (copy : Copy) : Prop where
  contact : lookup.externalBorrowerId = some contactId
  row_eq : lockOwnRow secrets db lookup.id req.token now = .ok row
  proof : ProofAccepted secrets row req now
  find_loan : db.loans.find? lookup.loanId = some loan
  find_copy : db.copies.find? lookup.copyId = some copy
  pending : PendingChain loan copy contactId
  rivals_registered : req.answer = .received →
    ∀ l ∈ db.rivals copy.id none, l.borrowerId ≠ none

/-- A declined answer changes nothing. -/
theorem applyAnswer_declined {secrets : GuestConfirmationSecrets} {lookup : TokenLookup}
    {req : AnswerGuestResponseRequest} {f : GuestFailure}
    (h : applyAnswer secrets now lookup req db = .ok (db', .error f)) : db' = db := by
  unfold applyAnswer at h
  split at h
  · cases h
    rfl
  · split at h
    · cases h
      rfl
    · split at h
      · cases h
        rfl
      · simp only [bind_eq_ok, pure_eq_ok, Prod.mk.injEq, reduceCtorEq, and_false, exists_false] at h

theorem settled_confirmations {actorId : Option UserId} {id : ConfirmationId} {loan : Loan}
    {copy : Copy} {t : ConfirmationTransition} {resolvedAt : Option Time} :
    (db.settled now ownerId actorId id loan copy t resolvedAt).confirmations =
      db.confirmations.modify id (resolveEdit t.confirmationTo resolvedAt) := rfl

theorem settled_contacts {actorId : Option UserId} {id : ConfirmationId} {loan : Loan}
    {copy : Copy} {t : ConfirmationTransition} {resolvedAt : Option Time} :
    (db.settled now ownerId actorId id loan copy t resolvedAt).contacts = db.contacts :=
  withRejectedWhen_contacts

/-- The writes of an answer whose rows were found. -/
theorem writeAnswer_writes {secrets : GuestConfirmationSecrets} {lookup : TokenLookup}
    {contactId : ContactId} {req : AnswerGuestResponseRequest} {row : GuestLoanConfirmation}
    {loan : Loan} {copy : Copy} (hg : db.confirmations.find? lookup.id = some row)
    (hopen : row.status = .open) (hl : db.loans.find? loan.id = some loan)
    (hc : db.copies.find? copy.id = some copy) (hp : PendingChain loan copy contactId)
    (h : writeAnswer secrets now lookup contactId req row loan copy db = .ok db') :
    (req.answer = .received → ∀ l ∈ db.rivals copy.id none, l.borrowerId ≠ none) ∧
      ∃ t, db' = (db.answered secrets now lookup contactId req row loan copy).withRetainUntil
        contactId t := by
  have hconf := fun status resolvedAt => updateOne_eq (c := true)
    (f := resolveEdit status resolvedAt) hg
    (p := fun g => g.id = lookup.id ∧ g.status = .open)
    (by simp [hopen, Table.key_of_find? hg]) fun b hb => (of_decide_eq_true hb).1
  simp only [if_true] at hconf
  simp only [writeAnswer, bind_eq_ok] at h
  obtain ⟨db₁, hsettle, confirmations, hupdate, hret⟩ := h
  obtain ⟨t, rfl⟩ := recomputeRetainUntil_writes hret
  cases hans : req.answer with
  | denied =>
    simp only [settleReceived, hans, reduceCtorEq, if_false, pure_eq_ok] at hsettle
    subst hsettle
    rw [hconf, Except.ok.injEq] at hupdate
    subst hupdate
    refine ⟨fun hr => ?_, t, ?_⟩
    · cases hr
    simp only [Db.answered, hans]
    rfl
  | received =>
    have hnot := settled_not_rival copy.id none hl hp.pending
      (show LoanStatus.handedOver ≠ .requested by decide)
    have hloans := updateOne_eq (c := true) (f := statusEdit .handedOver) hl
      (p := fun l => l.id = loan.id ∧ l.status = .pendingConfirmation)
      (by simp [hp.pending]) fun b hb => (of_decide_eq_true hb).1
    have hcopies := updateOne_eq (c := true) (f := settleCopyEdit .lentOut lookup.ownerId) hc
      (p := fun c => c.id = copy.id ∧ c.status = .reserved ∧ c.heldByContactId = some contactId)
      (by simp [hp.reserved, hp.held]) fun b hb => (of_decide_eq_true hb).1
    have hrej := @rejectRequested_modified db db₁ copy.id none lookup.ownerId now true loan.id
      (statusEdit .handedOver) (db.copies.modify copy.id (settleCopyEdit .lentOut lookup.ownerId))
      hnot
    simp only [if_true, true_imp_iff] at hrej
    simp only [settleReceived, hans, if_true, receiveLoan, hloans, hcopies, ok_bind,
      rejectRequestedRivals, hrej] at hsettle
    obtain ⟨hrivals, rfl⟩ := hsettle
    simp only [withRejectedWhen_confirmations, hconf, Except.ok.injEq] at hupdate
    subst hupdate
    refine ⟨fun _ => hrivals, t, ?_⟩
    simp only [Db.answered, hans]
    rfl

/-- **An accepted answer** had its guards and made its writes. -/
theorem applyAnswer_writes {secrets : GuestConfirmationSecrets} {lookup : TokenLookup}
    {req : AnswerGuestResponseRequest}
    (h : applyAnswer secrets now lookup req db = .ok (db', .ok ())) :
    ∃ contactId row loan copy t,
      AnswerGuards db secrets now lookup contactId req row loan copy ∧
      db' = (db.answered secrets now lookup contactId req row loan copy).withRetainUntil
        contactId t := by
  unfold applyAnswer at h
  split at h
  · cases h
  · rename_i contactId hcontact
    split at h
    · cases h
    · rename_i row hrow
      split at h
      · cases h
      · rename_i hproof
        simp only [bind_eq_ok, orThrow_eq_ok, throwIf_eq_ok, exists_const, not_not, pure_eq_ok,
          Prod.mk.injEq, and_true] at h
        obtain ⟨loan, hl, copy, hc, hp, db₁, hw, rfl⟩ := h
        obtain ⟨hg, hopen, -, -⟩ := lockOwnRow_eq_ok.mp hrow
        obtain ⟨hrivals, t, rfl⟩ := writeAnswer_writes hg hopen
          (Table.find?_of_mem (Table.mem_of_find? hl)) (Table.find?_of_mem (Table.mem_of_find? hc))
          hp hw
        exact ⟨contactId, row, loan, copy, t,
          ⟨hcontact, hrow, not_not.mp hproof, hl, hc, hp, hrivals⟩, rfl⟩

end Bookswap
