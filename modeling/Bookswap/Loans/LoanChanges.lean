import Bookswap.Guests.GuestSpec
import Bookswap.Loans.LoanCoherence
import Mathlib.Logic.Relation

/-!
# How the row of a loan changes

A row is created in one of three ways and then changes by five kinds of write, whatever the service.
What is said here of one write holds of every loan at every later moment.

- `LoanOpening`, `LoanChange`: the rows that are created, and the writes.
- `Db.LoansChange`: what a transaction does to the table of loans, with one rule for each shape of
  write.
- `Loan.Facts`: the dates go with the status; `LoanChange.facts` keeps them.
- `LoanChange.closed`, `LoanChange.handedAt`: what no write changes.
-/

namespace Bookswap

open Store Relation

/-! ## Rows -/

/-- The rows that are created. -/
inductive LoanOpening : Loan → Prop
  | request (now : Time) (borrowerId : UserId) (copy : Copy) (req : CreateLoanRequest)
      (id : LoanId) : LoanOpening (requestRow now borrowerId copy req id)
  | record (now : Time) (copy : Copy) (req : CreateRecordedLoanRequest) (id : LoanId) :
      LoanOpening (recordedRow now copy req id)
  | guest {status : LoanStatus} (now : Time) (copy : Copy) (req : CreateGuestLoanRequest)
      (id : LoanId) : status = .handedOver ∨ status = .pendingConfirmation →
      LoanOpening (guestLoanRow status now copy req id)

/-- One write to a row. -/
inductive LoanChange (l : Loan) : Loan → Prop
  | forget (gone : ContactId → Bool) : LoanChange l (l.forget gone)
  | reject (now : Time) : l.status = .requested → LoanChange l (Loan.rejectedAt now l)
  | transition {actor : LoanActor} {outcome : LoanTransition} (req : UpdateLoanRequest)
      (now : Time) : TransitionRow l.status req.action actor l.origin outcome →
      (outcome.event = some .recordAmended →
        ∃ dates, amendedDates l req = some dates ∧ AmendGuards now dates) →
      LoanChange l (loanEdit outcome req now l l)
  | guest {status : GuestLoanStatus} {action : GuestLoanAction} {outcome : GuestLoanTransition}
      (now : Time) : l.status = status.toLoanStatus → l.handedAt ≠ none →
      resolveGuestTransition status action = some outcome → LoanChange l (guestLoanEdit outcome now l)
  | settle {status : LoanStatus} : l.status = .pendingConfirmation → l.origin = .recordedGuest →
      status = .handedOver ∨ status = .cancelled → LoanChange l (statusEdit status l)

/-- The statuses that nothing leaves. -/
def LoanStatus.isClosed : LoanStatus → Bool
  | .rejected | .cancelled | .declined | .returned => true
  | _ => false

/-- The dates of a row go with its status. -/
structure Loan.Facts (l : Loan) : Prop where
  returned : l.returnedAt ≠ none ↔ l.status = .returned
  handed : l.status.wasHanded = true ∨ l.origin ≠ .requested → l.handedAt ≠ none
  requested : l.requestedAt = none ↔ l.origin ≠ .requested
  due : l.origin ≠ .requested → ∀ handed ∈ toIsoDay l.handedAt, ∀ due ∈ toIsoDay l.dueAt,
    handed ≤ due

/-! ## The facts -/

/-- A day and its due day, as they are written. -/
theorem due_after_handed {handedAt : Day} {dueAt : Option Day} (h : ∀ d ∈ dueAt, handedAt ≤ d) :
    ∀ handed ∈ toIsoDay (some (toHandedDate handedAt)), ∀ due ∈ toIsoDay (toDueDate dueAt),
      handed ≤ due := by
  intro handed hh due hd
  rw [toIsoDay_toDueDate] at hd
  have hday : handedAt = handed := by simpa [toIsoDay] using hh
  exact hday ▸ h due hd

theorem LoanOpening.facts {l : Loan} (h : LoanOpening l) : l.Facts := by
  cases h with
  | request now borrowerId copy req id =>
    exact ⟨by simp [requestRow], by simp [requestRow, LoanStatus.wasHanded], by simp [requestRow],
      fun ho => absurd rfl ho⟩
  | record now copy req id =>
    refine ⟨by simp [recordedRow], by simp [recordedRow], by simp [recordedRow], fun _ => ?_⟩
    exact due_after_handed req.due_after
  | guest now copy req id hs =>
    refine ⟨?_, by simp [guestLoanRow], by simp [guestLoanRow], fun _ => ?_⟩
    · rcases hs with rfl | rfl <;> simp [guestLoanRow]
    · exact due_after_handed req.due_after

/-- What a row of the table does to the facts: the stamps go with the new status. -/
theorem TransitionRow.stamps {status : LoanStatus} {action : LoanAction} {actor : LoanActor}
    {origin : LoanOrigin} {outcome : LoanTransition}
    (row : TransitionRow status action actor origin outcome) :
    status ≠ .returned ∧ (outcome.stamp = some .returnedAt ↔ outcome.toStatus = .returned) ∧
      (outcome.stamp = some .handedAt → status = .approved) := by
  cases row <;> simp [LoanTransition.confirmRecord, LoanTransition.declineRecord,
    LoanTransition.withdrawRecord, LoanTransition.amendRecord, LoanTransition.approve,
    LoanTransition.reject, LoanTransition.cancelRequest, LoanTransition.cancelApproved,
    LoanTransition.handOver, LoanTransition.returnBook, LoanTransition.markLost,
    LoanTransition.recover]

/-- The status a row leaves says where it was: handed before, recorded, or handed now. -/
theorem TransitionRow.handed {status : LoanStatus} {action : LoanAction} {actor : LoanActor}
    {origin : LoanOrigin} {outcome : LoanTransition}
    (row : TransitionRow status action actor origin outcome)
    (h : outcome.toStatus.wasHanded = true) :
    status.wasHanded = true ∨ origin ≠ .requested ∨ outcome.stamp = some .handedAt := by
  cases row <;> first
    | exact .inl rfl
    | exact .inr (.inl (by decide))
    | exact .inr (.inr rfl)
    | cases h

/-- No row starts from a closed loan, and a handed book stays one. -/
theorem TransitionRow.open {status : LoanStatus} {action : LoanAction} {actor : LoanActor}
    {origin : LoanOrigin} {outcome : LoanTransition}
    (row : TransitionRow status action actor origin outcome) :
    status.isClosed = false ∧ (status.wasHanded = true → outcome.toStatus.wasHanded = true) := by
  cases row <;> exact ⟨rfl, fun h => by first | rfl | cases h⟩

/-- Nothing starts from a returned guest loan. -/
theorem guestTransition_open {status : GuestLoanStatus} {action : GuestLoanAction}
    {outcome : GuestLoanTransition} (h : resolveGuestTransition status action = some outcome) :
    status.toLoanStatus.isClosed = false := by
  cases status with
  | returned => cases action <;> cases h
  | handedOver | lost => rfl

/-- **Every write keeps the facts.** -/
theorem LoanChange.facts {l l' : Loan} (h : LoanChange l l') (hl : l.Facts) : l'.Facts := by
  cases h with
  | forget gone => exact ⟨hl.returned, hl.handed, hl.requested, hl.due⟩
  | reject now hs =>
    have hnone : l.returnedAt = none := by
      by_contra hne
      rw [hl.returned.mp hne] at hs
      cases hs
    refine ⟨by simp [Loan.rejectedAt, hnone], fun h => hl.handed (h.imp ?_ id), hl.requested, hl.due⟩
    exact fun h => by cases h
  | @transition actor outcome req now row hamend =>
    have hsame := loanEdit_sameParties outcome req now l l
    have hstatus := row.loanEdit_status rfl req now
    obtain ⟨hnot, hstamp, hhand⟩ := row.stamps
    have hnone : l.returnedAt = none := by
      by_contra hne
      exact hnot (hl.returned.mp hne)
    by_cases hev : outcome.event = some .recordAmended
    · -- an amendment: new dates, the same status
      obtain ⟨amended, ham, guards⟩ := hamend hev
      have hedit : loanEdit outcome req now l l = amendEdit amended.2 l := by
        unfold loanEdit
        rw [if_pos hev, ham]
      rw [hedit]
      refine ⟨hl.returned, fun _ => Option.some_ne_none _, hl.requested, fun _ => ?_⟩
      exact due_after_handed guards.due
    · by_cases hst : outcome.toStatus = l.status
      · have hedit : loanEdit outcome req now l l = l := by
          unfold loanEdit
          rw [if_neg hev, if_neg (not_not.mpr hst)]
          rfl
        rw [hedit]
        exact hl
      · have hedit : loanEdit outcome req now l l = transitionEdit outcome req now l := by
          unfold loanEdit
          rw [if_neg hev, if_pos hst]
        rw [hedit]
        refine ⟨?_, fun h => ?_, hl.requested, fun ho => ?_⟩
        · show (if outcome.stamp = some .returnedAt then some now else l.returnedAt) ≠ none ↔
            outcome.toStatus = .returned
          rw [hnone, ← hstamp]
          split <;> simp_all
        · by_cases hstamped : outcome.stamp = some .handedAt
          · simp [transitionEdit, hstamped]
          · refine transitionEdit_handedAt (hl.handed ?_)
            rcases h with h | h
            · exact (row.handed h).imp id fun h => h.resolve_right hstamped
            · exact .inr h
        · -- the dates of a record change by an amendment alone
          have hrecorded : l.origin = .recordedExisting :=
            (row.toStatus_flow.resolve_left fun h => ho h.1).1
          obtain ⟨hstamp', happrove, hamendment⟩ := row.keepsDates hrecorded hev
          have hdue : req.dueAt = none := by
            by_contra hne
            exact (req.dueAt_with hne).elim happrove hamendment
          have hdates : (transitionEdit outcome req now l).handedAt = l.handedAt ∧
              (transitionEdit outcome req now l).dueAt = l.dueAt := by
            simp [transitionEdit, hstamp', hdue]
          rw [hdates.1, hdates.2]
          exact hl.due ho
  | @guest status action outcome now hs hh hrow =>
    have hnone : l.returnedAt = none := by
      by_contra hne
      have hopen := guestTransition_open hrow
      rw [← hs, hl.returned.mp hne] at hopen
      cases hopen
    refine ⟨?_, fun _ => hh, hl.requested, hl.due⟩
    show (if outcome.stamp then some now else l.returnedAt) ≠ none ↔
      outcome.toStatus.toLoanStatus = .returned
    rw [hnone]
    cases status <;> cases action <;> cases hrow <;> simp [GuestLoanStatus.toLoanStatus]
  | settle hs ho hto =>
    have hnone : l.returnedAt = none := by
      by_contra hne
      rw [hl.returned.mp hne] at hs
      cases hs
    refine ⟨?_, fun _ => hl.handed (.inr ?_), hl.requested, hl.due⟩
    · rcases hto with rfl | rfl <;> simp [statusEdit, hnone]
    · rw [ho]
      decide

/-! ## What no write changes -/

/-- **A closed loan never changes again**, but for a contact that is forgotten. -/
theorem LoanChange.closed {l l' : Loan} (h : LoanChange l l') (hclosed : l.status.isClosed = true) :
    ∃ gone, l' = l.forget gone := by
  cases h with
  | forget gone => exact ⟨gone, rfl⟩
  | reject now hs =>
    rw [hs] at hclosed
    cases hclosed
  | transition req now row _ =>
    rw [row.open.1] at hclosed
    cases hclosed
  | @guest status action outcome now hs hh hrow =>
    rw [hs, guestTransition_open hrow] at hclosed
    cases hclosed
  | settle hs ho hto =>
    rw [hs] at hclosed
    cases hclosed

/-- **Once handed over, a book keeps the date**, and stays handed over. -/
theorem LoanChange.handedAt {l l' : Loan} (h : LoanChange l l')
    (hhanded : l.status.wasHanded = true) :
    l'.handedAt = l.handedAt ∧ l'.status.wasHanded = true := by
  cases h with
  | forget gone => exact ⟨rfl, hhanded⟩
  | reject now hs =>
    rw [hs] at hhanded
    cases hhanded
  | @transition actor outcome req now row _ =>
    have hstatus := row.loanEdit_status rfl req now
    refine ⟨?_, ?_⟩
    · have hstamp : outcome.stamp ≠ some .handedAt := by
        intro hs
        rw [row.stamps.2.2 hs] at hhanded
        cases hhanded
      rcases loanEdit_cases outcome req now l with ⟨dates, hedit, hev⟩ | hedit | ⟨hedit, -⟩
      · rw [(row.of_amended hev).1] at hhanded
        cases hhanded
      · rw [hedit]
        simp [transitionEdit, hstamp]
      · rw [hedit]
        rfl
    · rw [hstatus]
      exact row.open.2 hhanded
  | @guest status action outcome now hs hh hrow =>
    refine ⟨rfl, ?_⟩
    show outcome.toStatus.toLoanStatus.wasHanded = true
    cases outcome.toStatus <;> rfl
  | settle hs ho hto =>
    rw [hs] at hhanded
    cases hhanded

/-! ## Runs of writes -/

abbrev LoanChanges : Loan → Loan → Prop := ReflTransGen LoanChange

theorem LoanChanges.facts {l l' : Loan} (h : LoanChanges l l') (hl : l.Facts) : l'.Facts := by
  induction h with
  | refl => exact hl
  | tail _ hstep ih => exact hstep.facts ih

/-- Forgetting twice is forgetting once. -/
theorem Loan.forget_forget (gone gone' : ContactId → Bool) (l : Loan) :
    (l.forget gone).forget gone' = l.forget fun c => gone c || gone' c := by
  unfold Loan.forget Db.forget
  cases l.borrowerContactId with
  | none => rfl
  | some c =>
    cases hg : gone c <;> cases hg' : gone' c <;> simp [Option.filter, hg, hg']

theorem Loan.forget_none (l : Loan) : l.forget (fun _ => false) = l := by
  have hkept : Db.forget (fun _ => false) l.borrowerContactId = l.borrowerContactId := by
    cases l.borrowerContactId <;> rfl
  unfold Loan.forget
  rw [hkept]

theorem LoanChanges.closed {l l' : Loan} (h : LoanChanges l l')
    (hclosed : l.status.isClosed = true) : ∃ gone, l' = l.forget gone := by
  induction h with
  | refl => exact ⟨fun _ => false, l.forget_none.symm⟩
  | tail _ hstep ih =>
    obtain ⟨gone, rfl⟩ := ih
    obtain ⟨gone', rfl⟩ := hstep.closed hclosed
    exact ⟨_, Loan.forget_forget gone gone' l⟩

theorem LoanChanges.handedAt {l l' : Loan} (h : LoanChanges l l')
    (hhanded : l.status.wasHanded = true) :
    l'.handedAt = l.handedAt ∧ l'.status.wasHanded = true := by
  induction h with
  | refl => exact ⟨rfl, hhanded⟩
  | tail _ hstep ih =>
    obtain ⟨hdate, hstatus⟩ := hstep.handedAt ih.2
    exact ⟨hdate.trans ih.1, hstatus⟩

/-! ## Tables -/

/-- What becomes of the loans: each is there, written to, and what is new was created. -/
structure Db.LoansChange (db db' : Db) : Prop where
  kept : ∀ {id l}, db.loans.find? id = some l →
    ∃ l', db'.loans.find? id = some l' ∧ LoanChanges l l'
  opened : ∀ {id l'}, db'.loans.find? id = some l' → db.loans.find? id = none →
    ∃ l, LoanOpening l ∧ LoanChanges l l'

namespace Db.LoansChange

variable {db db' db'' : Db}

theorem of_eq (h : db'.loans = db.loans) : db.LoansChange db' := by
  refine ⟨fun hl => ⟨_, h ▸ hl, .refl⟩, fun hl hnone => ?_⟩
  rw [h, hnone] at hl
  cases hl

theorem trans (h : db.LoansChange db') (h' : db'.LoansChange db'') : db.LoansChange db'' := by
  constructor
  · intro id l hl
    obtain ⟨l', hl', hchange⟩ := h.kept hl
    obtain ⟨l'', hl'', hchange'⟩ := h'.kept hl'
    exact ⟨l'', hl'', ReflTransGen.trans hchange hchange'⟩
  · intro id l'' hl'' hnone
    cases hmid : db'.loans.find? id with
    | none => exact h'.opened hl'' hmid
    | some l' =>
      obtain ⟨l, hopen, hchange⟩ := h.opened hmid hnone
      obtain ⟨_, hfound, hchange'⟩ := h'.kept hmid
      obtain rfl := Option.some.inj (hfound.symm.trans hl'')
      exact ⟨l, hopen, ReflTransGen.trans hchange hchange'⟩

/-- Every row is written to, or none. -/
theorem of_map {f : Loan → Loan} (h : ∀ id, db'.loans.find? id = (db.loans.find? id).map f)
    (hf : ∀ l ∈ db.loans, LoanChanges l (f l)) : db.LoansChange db' := by
  constructor
  · intro id l hl
    refine ⟨f l, ?_, hf l (Table.mem_of_find? hl)⟩
    rw [h, hl]
    rfl
  · intro id l' hl' hnone
    rw [h, hnone] at hl'
    cases hl'

/-- One row is written to. -/
theorem of_modify {l : Loan} {f : Table.Edit Loan.id} (hl : db.loans.find? l.id = some l)
    (h : db'.loans = db.loans.modify l.id f) (hf : LoanChange l (f l)) : db.LoansChange db' := by
  refine of_map (f := fun x => if x.id = l.id then f x else x) (fun id => ?_) fun x hx => ?_
  · rw [h, Table.find?_modify]
    by_cases hid : id = l.id
    · rw [if_pos hid, hid, hl, Option.map_some, Option.map_some, if_pos rfl]
    · rw [if_neg hid]
      cases hx : db.loans.find? id with
      | none => rfl
      | some x => rw [Option.map_some, if_neg (Table.key_of_find? hx ▸ hid)]
  · split
    · next hid =>
      obtain rfl := Table.eq_of_key_eq hx (Table.mem_of_find? hl) hid
      exact .single hf
    · exact .refl

/-- A row is created. -/
theorem of_insert {l : Loan} {loans : Table Loan.id} (hins : db.loans.insert l = some loans)
    (h : db'.loans = loans) (hl : LoanOpening l) : db.LoansChange db' := by
  constructor
  · intro id x hx
    refine ⟨x, ?_, .refl⟩
    rw [h, Table.find?_insert hins, if_neg ?_, hx]
    rintro rfl
    rw [Table.find?_fresh hins] at hx
    cases hx
  · intro id x hx hnone
    rw [h, Table.find?_insert hins] at hx
    split at hx
    · cases hx
      exact ⟨l, hl, .refl⟩
    · rw [hnone] at hx
      cases hx

theorem rejected (copyId : CopyId) (spared : Option LoanId) (actorId : UserId) (now : Time) :
    db.LoansChange (db.withRejected copyId spared actorId now) := by
  refine of_map (f := fun l => if l.isRival copyId spared then Loan.rejectedAt now l else l)
    (fun id => Table.find?_updateWhere id) fun l _ => ?_
  split
  · next hrival => exact .single (.reject now (Loan.isRival_iff.mp hrival).2.1)
  · exact .refl

theorem rejectedWhen (c : Bool) (copyId : CopyId) (spared : Option LoanId) (actorId : UserId)
    (now : Time) : db.LoansChange (db.withRejectedWhen c copyId spared actorId now) := by
  cases c with
  | false => exact of_eq rfl
  | true => exact rejected copyId spared actorId now

theorem erased (gone : ContactId → Bool) : db.LoansChange (db.eraseContacts gone) :=
  of_map (fun id => Table.find?_map id) fun _ _ => .single (.forget gone)

end Db.LoansChange

end Bookswap
