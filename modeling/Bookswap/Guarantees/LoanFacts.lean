import Bookswap.Guests.GuestCodes
import Bookswap.Loans.LoanChanges

/-!
# The facts of a loan are stable

Four services write the dates and the status of a loan. Each of their transactions is a creation of
a row and writes of five kinds, so what holds across one write holds across a run.

- `World.Step.loansChange`: what each transaction does to the table of loans.
- `LoanStable`: what never changes of a loan from some state on.
- `loan_facts_stable`: the facts and their stability in every reachable state.
-/

namespace Bookswap

open Store

variable {db db' : Db} {now : Time}

/-! ## The services -/

theorem request_changes {borrowerId : UserId} {req : CreateLoanRequest} {id : LoanId}
    (hok : request now borrowerId req id db = .ok db') : db.LoansChange db' := by
  obtain ⟨copy, owner, loans, -, -, -, hins, rfl⟩ := request_eq_ok.mp hok
  exact .of_insert hins rfl (.request now borrowerId copy req id)

theorem createRecorded_changes {ownerId : UserId} {req : CreateRecordedLoanRequest} {id : LoanId}
    (hok : createRecorded now ownerId req id db = .ok db') : db.LoansChange db' := by
  obtain ⟨copy, loans, -, -, hins, rfl⟩ := createRecorded_eq_ok.mp hok
  exact .of_insert hins rfl (.record now copy req id)

theorem runTransition_changes {actorId : UserId} {loanId : LoanId} {req : UpdateLoanRequest}
    (hok : runTransition now actorId loanId req db = .ok db') : db.LoansChange db' := by
  obtain ⟨s, copy, outcome, g, rfl⟩ := runTransition_eq_ok.mp hok
  have hl := Table.find?_of_mem (Table.mem_of_find? g.find_loan)
  have hrejected : db.LoansChange (db.withRivalsOf outcome s.row now) := .rejectedWhen _ _ _ _ _
  exact hrejected.trans (.of_modify (find?_withRivalsOf hl) rfl (.transition req now g.row g.amendable))

theorem recompute_changes {contactId : ContactId}
    (hret : recomputeRetainUntil contactId db = .ok db') : db.LoansChange db' := by
  obtain ⟨t, rfl⟩ := recomputeRetainUntil_writes hret
  exact .of_eq rfl

theorem createGuestLoan_changes {ownerId : UserId} {req : CreateGuestLoanRequest} {id : LoanId}
    (hok : createGuestLoan now ownerId req id db = .ok db') : db.LoansChange db' := by
  obtain ⟨contact, copy, loans, t, -, -, -, -, hins, rfl⟩ := createGuestLoan_writes hok
  have hrejected : db.LoansChange (db.withRejected copy.id none ownerId now) := .rejected _ _ _ _
  exact hrejected.trans (.of_insert hins rfl (.guest now copy req id (.inl rfl)))

theorem createRequest_changes {ownerId : UserId} {req : CreateGuestLoanRequest} {id : LoanId}
    {confirmationId : ConfirmationId}
    (hok : createRequest now ownerId req id confirmationId db = .ok db') : db.LoansChange db' := by
  obtain ⟨contact, copy, loans, confirmations, t, -, -, -, hins, -, rfl⟩ := createRequest_writes hok
  exact .of_insert hins rfl (.guest now copy req id (.inr rfl))

theorem applyGuestTransition_changes {ownerId : UserId} {id : LoanId}
    {req : UpdateGuestLoanRequest} (hok : applyGuestTransition now ownerId id req db = .ok db') :
    db.LoansChange db' := by
  obtain ⟨loan, status, copy, outcome, g, hret⟩ := applyGuestTransition_eq_ok.mp hok
  have hl := Table.find?_of_mem (Table.mem_of_find? g.find_loan)
  have hmoved : db.LoansChange (db.guestTransitioned now ownerId req loan copy outcome) :=
    .of_modify hl rfl (.guest now g.status_eq g.handed g.row)
  exact hmoved.trans (.of_eq (recomputeOf_loans hret))

/-- A handover that is settled. -/
theorem settled_changes {ownerId : UserId} {loan : Loan} {id : ConfirmationId} {copy : Copy}
    {contactId : ContactId} {t : ConfirmationTransition} (hl : db.loans.find? loan.id = some loan)
    (hp : PendingChain loan copy contactId) (ho : loan.origin = .recordedGuest)
    (ht : t.loanTo = .handedOver ∨ t.loanTo = .cancelled) (actorId : Option UserId)
    (resolvedAt : Option Time) :
    db.LoansChange (db.settled now ownerId actorId id loan copy t resolvedAt) := by
  have hto : t.loanTo ≠ .requested := by
    rcases ht with h | h <;> rw [h] <;> decide
  have hnot := (settled_not_rival copy.id none hl hp.pending hto loan (Table.mem_of_find? hl) rfl).1
  have hrejected : db.LoansChange
      (db.withRejectedWhen t.rejectsRequestedRivals copy.id none ownerId now) :=
    .rejectedWhen _ _ _ _ _
  exact hrejected.trans
    (.of_modify (find?_withRejectedWhen hl hnot) rfl (.settle hp.pending ho ht))

theorem applyAction_changes {ownerId : UserId} {id : ConfirmationId}
    {action : GuestConfirmationAction} (hok : applyAction now ownerId id action db = .ok db') :
    db.LoansChange db' := by
  obtain ⟨confirmation, loan, copy, contactId, t, g, ht, -, -, hp, -, hret, -⟩ :=
    applyAction_eq_ok.mp hok
  have hl := Table.find?_of_mem (Table.mem_of_find? g.find_loan)
  have hto : t.loanTo = .handedOver ∨ t.loanTo = .cancelled := by
    rcases (isConfirmation_of_transition ht).2 with ⟨rfl, -⟩ | ⟨rfl, -⟩
    · exact .inr rfl
    · exact .inl rfl
  exact (settled_changes hl hp g.origin hto _ _).trans (recompute_changes hret)

/-- The guest's answer writes to the loan only when the book was received. -/
theorem applyAnswer_changes {secrets : GuestConfirmationSecrets} {lookup : TokenLookup}
    {req : AnswerGuestResponseRequest} {r : Except GuestFailure Unit} (h : db.Coherent)
    (hok : applyAnswer secrets now lookup req db = .ok (db', r)) : db.LoansChange db' := by
  cases r with
  | error f =>
    rw [applyAnswer_declined hok]
    exact .of_eq rfl
  | ok u =>
    obtain ⟨contactId, row, loan, copy, t, g, rfl⟩ := applyAnswer_writes hok
    have hmem := Table.mem_of_find? g.find_loan
    have hl := Table.find?_of_mem hmem
    have horigin : loan.origin = .recordedGuest := by
      cases hkind : loan.borrowerKind with
      | guest => exact ((h.parties hmem).guest hkind).1
      | registered =>
        have hnone := ((h.parties hmem).registered hkind).2.2
        rw [g.pending.contact] at hnone
        cases hnone
    have hanswered : db.LoansChange (db.answered secrets now lookup contactId req row loan copy) := by
      unfold Db.answered
      by_cases hr : req.answer = .received
      · simp only [if_pos hr]
        have hsettled : db.LoansChange
            (db.settled now lookup.ownerId none lookup.id loan copy GUEST_RECEIVED (some now)) :=
          settled_changes hl g.pending horigin (.inl rfl) none (some now)
        exact hsettled.trans (.of_eq rfl)
      · simp only [if_neg hr]
        exact .of_eq rfl
    exact hanswered.trans (.of_eq rfl)

theorem archiveCopy_changes {userId : UserId} {copyId : CopyId}
    (hok : archiveCopy now userId copyId db = .ok db') : db.LoansChange db' := by
  rcases archiveCopy_writes hok with rfl | ⟨-, -, rfl⟩
  · exact .of_eq rfl
  · have hrejected : db.LoansChange (db.withRejected copyId none userId now) := .rejected _ _ _ _
    exact hrejected.trans (.of_eq rfl)

/-- **What each transaction does to the loans.** -/
theorem World.Step.loansChange {secrets : GuestConfirmationSecrets} {w w' : World} {op : Op}
    (h : w.Coherent) (hs : w.Step secrets op w') : w.db.LoansChange w'.db := by
  cases op with
  | request now borrowerId req id => exact request_changes hs.1
  | recordExisting now ownerId req id => exact createRecorded_changes hs.1
  | apply now actorId loanId req => exact runTransition_changes hs.1
  | createGuestLoan now ownerId req id => exact createGuestLoan_changes hs.1
  | applyGuest now ownerId id req => exact applyGuestTransition_changes hs.1
  | createRequest now ownerId req id confirmationId => exact createRequest_changes hs.1
  | applyAction now ownerId id action => exact applyAction_changes hs.1
  | rotateLink now ownerId id token =>
    obtain ⟨_, _, _, _, _, hdb⟩ := rotateLink_writes hs.1
    exact .of_eq (by rw [hdb])
  | withdrawLink id token => exact .of_eq (Except.ok.inj hs.1 ▸ rfl)
  | findByToken token lookup => exact .of_eq (hs.2.1 ▸ rfl)
  | requestCode now lookup req code nonce reply =>
    rcases requestCode_cases hs.1 with ⟨hdb, -⟩ | ⟨row, -, -, hdb⟩ <;>
      · rw [hdb]
        exact .of_eq rfl
  | withdrawCode id nonce => exact .of_eq (Except.ok.inj hs.1 ▸ rfl)
  | verifyCode now lookup req proof compared reply =>
    rcases verifyCode_cases hs.1 with ⟨hdb, -⟩ | ⟨row, live, -, -, ⟨-, -, hdb⟩ | ⟨-, -, hdb⟩⟩ <;>
      · rw [hdb]
        exact .of_eq rfl
  | answer now lookup req reply => exact applyAnswer_changes h.db hs.1
  | addCopy now userId req id =>
    obtain ⟨_, _, _, _, hdb⟩ := addCopy_writes hs.1
    exact .of_eq (by rw [hdb])
  | updateCopy userId copyId req =>
    obtain ⟨_, _, _, _, hdb⟩ := updateCopy_writes hs.1
    exact .of_eq (by rw [hdb])
  | removeCopy userId copyId =>
    obtain ⟨-, hdb⟩ := removeCopy_writes hs.1
    exact .of_eq (by rw [hdb])
  | archiveCopy now userId copyId => exact archiveCopy_changes hs.1
  | restoreCopy userId copyId =>
    obtain ⟨-, hdb⟩ := restoreCopy_eq_ok.mp hs.1
    exact .of_eq (by rw [hdb])
  | createContact now ownerId aliasName id =>
    obtain ⟨_, _, _, hdb⟩ := createContact_writes hs.1
    exact .of_eq (by rw [hdb])
  | updateAlias ownerId id aliasName =>
    obtain ⟨_, hdb⟩ := updateAlias_writes hs.1
    exact .of_eq (by rw [hdb])
  | deleteContact ownerId id =>
    obtain ⟨-, hdb⟩ := deleteContact_writes hs.1
    rw [hdb]
    exact .erased _
  | cleanupContacts now batch =>
    obtain ⟨hok, -⟩ := hs
    exact Except.ok.inj hok ▸ .erased _
  | backfillContact id => exact recompute_changes hs.1
  | social users friendships => exact .of_eq (by rw [hs.2.1])

/-! ## Runs -/

/-- What never changes of the loan from `l` on. -/
structure LoanStable (l l' : Loan) : Prop where
  /-- A closed loan stays as it is; its contact may be forgotten. -/
  closed : l.status.isClosed = true → ∃ gone, l' = l.forget gone
  /-- The date of a handover stays. -/
  handedAt : l.status.wasHanded = true → l'.handedAt = l.handedAt

/-- **The facts of a loan hold in every reachable state, and stay.** -/
theorem loan_facts_stable {secrets : GuestConfirmationSecrets} {w : World}
    (h : (system secrets).Reachable w) {l : Loan} (hl : l ∈ w.db.loans) :
    l.Facts ∧ ∀ w', (system secrets).Leads w w' →
      ∃ l', w'.db.loans.find? l.id = some l' ∧ LoanStable l l' := by
  have hfacts : ∀ id l, w.db.loans.find? id = some l → l.Facts := by
    refine h.invariant (I := fun w => ∀ id l, w.db.loans.find? id = some l → l.Facts)
      (fun w hinit id l hfind => ?_) fun w op w' hr hw hs id l' hfind => ?_
    · have hnone : w.db.loans = .empty := World.Init.no_loans hinit
      rw [hnone] at hfind
      cases hfind
    · have hchange := World.Step.loansChange (reachable_coherent hr) hs
      cases hold : w.db.loans.find? id with
      | none =>
        obtain ⟨l, hopen, hwrites⟩ := hchange.opened hfind hold
        exact hwrites.facts hopen.facts
      | some l =>
        obtain ⟨_, hfound, hwrites⟩ := hchange.kept hold
        obtain rfl := Option.some.inj (hfound.symm.trans hfind)
        exact hwrites.facts (hw id l hold)
  refine ⟨hfacts _ _ (Table.find?_of_mem hl), fun w' hlead => ?_⟩
  have hwritten : ∃ l', w'.db.loans.find? l.id = some l' ∧ LoanChanges l l' := by
    refine Machine.Leads.keeps
      (P := fun w' : World => ∃ l', w'.db.loans.find? l.id = some l' ∧ LoanChanges l l') ?_ h
      ⟨l, Table.find?_of_mem hl, .refl⟩ hlead
    rintro a op b ha ⟨l', hfind, hwrites⟩ hs
    obtain ⟨l'', hfind', hwrites'⟩ := (World.Step.loansChange (reachable_coherent ha) hs).kept hfind
    exact ⟨l'', hfind', Relation.ReflTransGen.trans hwrites hwrites'⟩
  obtain ⟨l', hfind, hwrites⟩ := hwritten
  exact ⟨l', hfind, hwrites.closed, fun hhanded => (hwrites.handedAt hhanded).1⟩

/-- A handover that waits for its guest. -/
theorem loan_facts_stable_waiting :
    (guestLoanRow .pendingConfirmation 0 exampleCopy exampleLend 20).Facts ∧
      ∀ w', (system exampleSecrets).Leads ⟨exampleWaiting, []⟩ w' → ∃ l',
        w'.db.loans.find? 20 = some l' ∧
          LoanStable (guestLoanRow .pendingConfirmation 0 exampleCopy exampleLend 20) l' :=
  loan_facts_stable (exampleWaiting_reachable exampleSecrets) (List.mem_singleton.mpr rfl)

end Bookswap
