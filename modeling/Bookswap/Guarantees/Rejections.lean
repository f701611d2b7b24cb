import Bookswap.Guarantees.CopyLoan

/-!
# Rejected requests

Requests are rejected by the owner, by a promise or a handover of the same copy, and by the
archive: three implementations, six operations. Whoever rejects, a copy that is promised or
out has no request left, a rejected loan has its one notice, and nothing else has one
(`RequestsSettled`). The steps that settle a record or a guest handover without handing the
book over touch no other loan (`Op.Touches`, `spares_others`).
-/

namespace Bookswap

open Store

variable {secrets : GuestConfirmationSecrets} {w w' : World} {op : Op}

/-- The steps that settle one loan without a handover: the record is declined, withdrawn or
amended, the handover cancelled, or denied by the guest. -/
inductive Op.Touches (db : Db) : Op → LoanId → Prop
  | record (now : Time) (actorId : UserId) (loanId : LoanId) (req : UpdateLoanRequest) :
      req.action = .declineRecord ∨ req.action = .withdrawRecord ∨ req.action = .amendRecord →
      Touches db (.apply now actorId loanId req) loanId
  | cancelHandover (now : Time) (ownerId : UserId) (g : GuestLoanConfirmation) :
      g ∈ db.confirmations → Touches db (.applyAction now ownerId g.id .cancelHandover) g.loanId
  | denied (now : Time) (lookup : TokenLookup) (req : AnswerGuestResponseRequest)
      (reply : Except GuestFailure Unit) : req.answer = .denied →
      Touches db (.answer now lookup req reply) lookup.loanId

/-- **Requests and their rejections**, in one state. -/
structure RequestsSettled (db : Db) : Prop where
  /-- A copy that is promised or out has no request left. -/
  none_left : ∀ l ∈ db.loans, l.status = .approved ∨ l.status = .handedOver →
    ∀ r ∈ db.loans, r.copyId = l.copyId → r.isRequestFlowRequested = false
  /-- A rejected loan was answered, and its borrower was told once. -/
  rejected : ∀ l ∈ db.loans, l.status = .rejected → l.respondedAt ≠ none ∧
    ∃ b n, l.borrowerId = some b ∧ db.rejectionsOf l.id = [n] ∧ n.userId = b
  /-- No other loan was rejected in a notice. -/
  others : ∀ l ∈ db.loans, l.status ≠ .rejected → db.rejectionsOf l.id = []

theorem Db.Coherent.requestsSettled {db : Db} (h : db.Coherent) : RequestsSettled db := by
  constructor
  case none_left =>
    intro l hl hs r hr hcopy
    have hne := h.no_rivals l hl r hr hcopy.symm hs
    simp [Loan.isRequestFlowRequested, hne]
  case rejected =>
    intro l hl hs
    have hmatch : (db.dossier l).RejectionsMatch := (h.sound l hl).rejections
    obtain ⟨hat, b, actorId, hb, hrej⟩ := hmatch.of_rejected hs
    exact ⟨hat, b, _, hb, hrej, rfl⟩
  case others =>
    intro l hl hs
    have hmatch : (db.dossier l).RejectionsMatch := (h.sound l hl).rejections
    exact hmatch.of_other hs

/-! ## Steps that touch one loan -/

/-- The rows that settle a record without a handover reject nobody. -/
theorem TransitionRow.spares_rivals {status : LoanStatus} {action : LoanAction} {actor : LoanActor}
    {origin : LoanOrigin} {outcome : LoanTransition}
    (row : TransitionRow status action actor origin outcome)
    (ha : action = .declineRecord ∨ action = .withdrawRecord ∨ action = .amendRecord) :
    outcome.rejectRivals = false := by
  cases row <;> first | rfl | (rcases ha with ha | ha | ha <;> cases ha)

/-- **Settling one loan without a handover changes no other.** -/
theorem World.Step.spares_others (hs : w.Step secrets op w') {id : LoanId}
    (ht : op.Touches w.db id) {k : LoanId} (hk : k ≠ id) :
    w'.db.loans.find? k = w.db.loans.find? k := by
  cases ht with
  | record now actorId loanId req ha =>
    obtain ⟨s, copy, outcome, g, hdb⟩ := runTransition_eq_ok.mp hs.1
    have hid : s.row.id = id := Table.key_of_find? g.find_loan
    have hrivals := g.row.spares_rivals ha
    have hloans : w'.db.loans = w.db.loans.modify s.row.id (loanEdit outcome req now s.row) := by
      rw [hdb, Db.transitioned, Db.withRivalsOf, hrivals]
      rfl
    rw [hloans, Table.find?_modify, if_neg (hid ▸ hk)]
  | cancelHandover now ownerId g hg =>
    obtain ⟨confirmation, loan, copy, contactId, t, guards, ht, -, -, -, -, hret, -⟩ :=
      applyAction_eq_ok.mp hs.1
    obtain rfl := Option.some.inj ((Table.find?_of_mem hg).symm.trans guards.find_confirmation)
    have hid : loan.id = g.loanId := Table.key_of_find? guards.find_loan
    have hcancel : t = CANCEL_HANDOVER := by
      rcases (isConfirmation_of_transition ht).2 with ⟨rfl, -⟩ | ⟨-, ha⟩
      · rfl
      · cases ha
    rw [recomputeRetainUntil_loans hret, hcancel]
    show (w.db.loans.modify loan.id _).find? k = _
    rw [Table.find?_modify, if_neg (hid ▸ hk)]
  | denied now lookup req reply ha =>
    obtain ⟨hok, -⟩ := hs
    cases reply with
    | error f => rw [applyAnswer_declined hok]
    | ok u =>
      obtain ⟨contactId, row, loan, copy, t, -, hdb⟩ := applyAnswer_writes hok
      have hloans : w'.db.loans = w.db.loans := by
        rw [hdb, Db.answered, ha]
        rfl
      rw [hloans]

/-- **Requests are settled in every reachable state**, and the steps that hand over nothing
touch one loan. -/
theorem requests_settled (h : (system secrets).Reachable w) :
    RequestsSettled w.db ∧ ∀ {op w' id}, w.Step secrets op w' → op.Touches w.db id →
      ∀ k ≠ id, w'.db.loans.find? k = w.db.loans.find? k :=
  ⟨(reachable_coherent h).db.requestsSettled, fun hs ht _ hk => hs.spares_others ht hk⟩

theorem requests_settled_waiting : RequestsSettled exampleWaiting :=
  (requests_settled (exampleWaiting_reachable exampleSecrets)).1

end Bookswap
