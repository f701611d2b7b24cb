import Bookswap.Guests.GuestSpec
import Bookswap.Loans.LoanCoherence

/-!
# The guest services keep the invariant

A guest loan is opened with its copy in the contact's hands (`lent_opens`); the owner's
actions on it, the owner's decisions on its confirmation and the guest's answer are
steps of one loan. Links, codes, proofs and deadlines are quiet.

- `createGuestLoan_evolves`, `createRequest_evolves`
- `applyGuestTransition_evolves`
- `applyAction_evolves`, `rotateLink_evolves`
- `requestCode_evolves`, `verifyCode_evolves`, `applyAnswer_evolves`
-/

namespace Bookswap

open Store

variable {db db' : Db} {now : Time} {ownerId : UserId}

/-! ## Quiet writes -/

/-- A deadline is quiet. -/
theorem Db.Quiet.retain (contactId : ContactId) (t : Option Time) :
    db.Quiet (db.withRetainUntil contactId t) := by
  refine ⟨rfl, rfl, rfl, ⟨[], (List.append_nil _).symm, fun _ hn => nomatch hn⟩,
    ⟨noEdit, (map_noEdit _).symm, fun _ => ⟨rfl, rfl, rfl⟩⟩, fun id k hk => ?_,
    fun _ u hu => ⟨u, hu⟩⟩
  exact ⟨_, (Table.find?_map id).trans (congrArg _ hk)⟩

/-- The secrets of a confirmation are quiet. -/
theorem Db.Quiet.secrets {f : Table.Edit GuestLoanConfirmation.id}
    (hf : ∀ g, (f g).loanId = g.loanId ∧ (f g).externalBorrowerId = g.externalBorrowerId ∧
      (f g).status = g.status) :
    db.Quiet { db with confirmations := db.confirmations.map f } :=
  ⟨rfl, rfl, rfl, ⟨[], (List.append_nil _).symm, fun _ hn => nomatch hn⟩, ⟨f, rfl, hf⟩,
    fun _ k hk => ⟨k, hk⟩, fun _ u hu => ⟨u, hu⟩⟩

/-- What holds of every edited row holds of the rows an update edits. -/
theorem only_keeps {p : GuestLoanConfirmation → Bool} {f : Table.Edit GuestLoanConfirmation.id}
    (hf : ∀ g, (f g).loanId = g.loanId ∧ (f g).externalBorrowerId = g.externalBorrowerId ∧
      (f g).status = g.status) (g : GuestLoanConfirmation) :
    (Table.Edit.only p f g).loanId = g.loanId ∧
      (Table.Edit.only p f g).externalBorrowerId = g.externalBorrowerId ∧
      (Table.Edit.only p f g).status = g.status := by
  rw [Table.Edit.only_apply]
  split
  · exact hf g
  · exact ⟨rfl, rfl, rfl⟩

/-- An update of the secrets of some confirmations keeps the invariant. -/
theorem Db.Coherent.secrets (h : db.Coherent) {p : GuestLoanConfirmation → Bool}
    {f : Table.Edit GuestLoanConfirmation.id}
    (hf : ∀ g, (f g).loanId = g.loanId ∧ (f g).externalBorrowerId = g.externalBorrowerId ∧
      (f g).status = g.status) :
    db.Evolves { db with confirmations := db.confirmations.updateWhere p f } :=
  h.quiet (.secrets (only_keeps hf))

theorem recomputeOf_evolves {contactId : Option ContactId} (h : db.Coherent)
    (hok : recomputeOf contactId db = .ok db') : db.Evolves db' := by
  rcases recomputeOf_writes hok with rfl | ⟨id, t, rfl⟩
  · exact h.refl
  · exact h.quiet (.retain id t)

theorem recomputeRetainUntil_evolves {contactId : ContactId} (h : db.Coherent)
    (hok : recomputeRetainUntil contactId db = .ok db') : db.Evolves db' := by
  obtain ⟨t, rfl⟩ := recomputeRetainUntil_writes hok
  exact h.quiet (.retain contactId t)

/-! ## Opening a guest loan -/

/-- A new loan to a contact opens as it should, when its first event and status do. -/
theorem lent_opens {contact : ExternalBorrower} {copy : Copy} {req : CreateGuestLoanRequest}
    {loanStatus : LoanStatus} {copyStatus : CopyStatus} {id : LoanId} {type : LoanEventType}
    {loans : Table Loan.id} {confirmations : Table GuestLoanConfirmation.id}
    (hcontact : db.contacts.find? req.externalBorrowerId = some contact)
    (hcopy : db.copies.find? req.copyId = some copy) (g : LendGuards ownerId req now contact copy)
    (hins : db.loans.insert (guestLoanRow loanStatus now copy req id) = some loans)
    (hopen : Opening .recordedGuest (some type) loanStatus)
    (hstatus : (loanStatus, copyStatus) = (.handedOver, .lentOut) ∨
      (loanStatus, copyStatus) = (.pendingConfirmation, .reserved))
    (halone : loanStatus = .handedOver →
      ∀ r ∈ db.loans, r.copyId = copy.id → r.status ≠ .requested)
    (hconf : if type = .guestConfirmationRequested then
        ∃ x, db.confirmations.insert x = some confirmations ∧ x.loanId = id ∧
          x.externalBorrowerId = some req.externalBorrowerId ∧ x.status = .open
      else confirmations = db.confirmations) :
    Opens db (guestLoanRow loanStatus now copy req id) loans confirmations copy
      (contactEdit copyStatus req.externalBorrowerId)
      (some ⟨id, type, some ownerId, now, none, .empty⟩) [] where
  insert := hins
  find_copy := Table.find?_of_mem (Table.mem_of_find? hcopy)
  owner := rfl
  copy_owner := rfl
  known := fun k hk => ⟨contact, Option.some.inj hk ▸ hcontact⟩
  named := fun _ he => Option.some.inj he ▸ rfl
  opening := hopen
  parties := ⟨fun hk => (nomatch hk), fun _ => ⟨rfl, rfl, fun _ => Option.some_ne_none _⟩⟩
  shift := by
    rcases hstatus with hs | hs <;> obtain ⟨rfl, rfl⟩ := Prod.mk.inj hs
    · exact .take _ rfl rfl g.free.available fun _ => rfl
    · exact .take _ rfl rfl g.free.available fun _ => rfl
  waiting := fun _ => g.free.available
  alone := halone
  requested := fun ho => nomatch ho
  handed := fun _ => Option.some_ne_none _
  silent := fun n hn => nomatch hn
  dates := fun ho => nomatch ho
  confirmations := by
    simp only [Option.map_some, Option.some.injEq]
    exact hconf

/-- **A guest loan recorded as handed over keeps the invariant.** -/
theorem createGuestLoan_evolves {req : CreateGuestLoanRequest} {id : LoanId} (h : db.Coherent)
    (hok : createGuestLoan now ownerId req id db = .ok db') : db.Evolves db' := by
  obtain ⟨contact, copy, loans, t, hcontact, hcopy, g, hrivals, hins, rfl⟩ :=
    createGuestLoan_writes hok
  have hrejected := h.rejected ownerId now hrivals
  have hopens : Opens (db.withRejected copy.id none ownerId now)
      (guestLoanRow .handedOver now copy req id) loans db.confirmations copy
      (contactEdit .lentOut req.externalBorrowerId)
      (some ⟨id, .guestLoanRecorded, some ownerId, now, none, .empty⟩) [] :=
    lent_opens hcontact hcopy g hins .guestRecord (Or.inl rfl)
      (fun _ r hr hcopy => no_request_withRejected h r hr hcopy (Option.some_ne_none _)) rfl
  have hopened := hrejected.coherent.opened hopens
  have hretained := hopened.coherent.quiet (.retain req.externalBorrowerId t)
  have hall := hrejected.trans (hopened.trans hretained)
  rw [Db.opened, List.append_nil] at hall
  exact hall

/-- **A handover that waits for the guest's word keeps the invariant.** -/
theorem createRequest_evolves {req : CreateGuestLoanRequest} {id : LoanId}
    {confirmationId : ConfirmationId} (h : db.Coherent)
    (hok : createRequest now ownerId req id confirmationId db = .ok db') : db.Evolves db' := by
  obtain ⟨contact, copy, loans, confirmations, t, hcontact, hcopy, g, hins, hconf, rfl⟩ :=
    createRequest_writes hok
  have hopens : Opens db (guestLoanRow .pendingConfirmation now copy req id) loans confirmations copy
      (contactEdit .reserved req.externalBorrowerId)
      (some ⟨id, .guestConfirmationRequested, some ownerId, now, none, .empty⟩) [] :=
    lent_opens hcontact hcopy g hins .guestRequest (Or.inr rfl) (fun hs => nomatch hs)
      ⟨_, hconf, rfl, rfl, rfl⟩
  have hopened := h.opened hopens
  have hretained := hopened.coherent.quiet (.retain req.externalBorrowerId t)
  have hall := hopened.trans hretained
  rw [Db.opened, List.append_nil] at hall
  exact hall

/-! ## The owner's actions on a guest loan -/

section Transition

variable {id : LoanId} {req : UpdateGuestLoanRequest} {loan : Loan} {status : GuestLoanStatus}
  {copy : Copy} {outcome : GuestLoanTransition}

/-- An event a guard found missing is new in the log. -/
theorem not_mem_log {type : LoanEventType} (h : db.hasEvent id type = false) : type ∉ db.log id := by
  intro hmem
  obtain ⟨e, he, htype⟩ := List.mem_map.mp hmem
  obtain ⟨hmem, hid⟩ := List.mem_filter.mp he
  rw [Db.hasEvent_iff.mpr ⟨e, hmem, of_decide_eq_true hid, htype⟩] at h
  cases h

/-- Every action on a guest loan is a step of its life. -/
theorem GuestGuards.lifeStep (g : GuestGuards db now ownerId id req loan status copy outcome) :
    LifeStep (db.log loan.id) loan.origin loan.status (some outcome.event)
      outcome.toStatus.toLoanStatus := by
  have hid := Table.key_of_find? g.find_loan
  have hrow := g.row
  have hrec := g.first_recovery
  have hclo := g.first_closure
  rw [g.origin, g.status_eq, hid]
  generalize req.action = action at hrow
  cases status <;> cases action <;> cases hrow
  · exact .returnRecorded (by decide)
  · exact .markLost
  · exact .recover (not_mem_log (hrec rfl))
  · exact .closeLoss (not_mem_log (hclo rfl).1) (not_mem_log (hclo rfl).2)

/-- The copy follows the guest loan. -/
theorem GuestGuards.shift (h : db.Coherent)
    (g : GuestGuards db now ownerId id req loan status copy outcome) :
    Shift (loan.demand (db.log loan.id))
      ((guestLoanEdit outcome now loan).demand (db.log loan.id ++ [outcome.event]))
      copy.shape (guestCopyEdit outcome ownerId copy).shape := by
  have hmem := Table.mem_of_find? g.find_loan
  have hid := Table.key_of_find? g.find_loan
  have htrail : Trail loan.origin (db.log loan.id) loan.status := (h.sound loan hmem).trail
  have hborrower : loan.borrowerId = none := ((h.sound loan hmem).parties.guest g.kind).2.1
  have hown : copy.ownerId = ownerId := by
    obtain ⟨c, hc, ho⟩ := h.placed loan hmem
    obtain rfl := Option.some.inj (hc.symm.trans g.find_copy)
    exact ho.trans g.own
  have hstatus := g.status_eq
  have hready := g.ready
  have hrow := g.row
  have hrec := g.first_recovery
  have hclo := g.first_closure
  -- the two shapes a guest loan that took place can demand
  let lent : Shape := ⟨loan.ownerId, .lentOut, none, loan.borrowerContactId⟩
  let away : Shape := ⟨loan.ownerId, .unavailable, none, loan.borrowerContactId⟩
  generalize req.action = action at hrow
  cases status <;> cases action <;> cases hrow
  · exact .free lent (by simp [Loan.demand, hstatus, GuestLoanStatus.toLoanStatus, hborrower, lent])
      rfl fun _ => ⟨Or.inl rfl, congrArg some hown.symm, rfl⟩
  · have hnot := htrail.not_recovered (by rw [hstatus]; decide)
    refine .carry lent away
      (by simp [Loan.demand, hstatus, GuestLoanStatus.toLoanStatus, hborrower, lent]) ?_ fun he => ?_
    · simp [Loan.demand, guestLoanEdit, GuestLoanStatus.toLoanStatus, hborrower, away, hnot]
    · obtain ⟨-, hh, hc⟩ := hready .lentOut rfl
      simp [Copy.shape, guestCopyEdit, hown, ← g.own, hh, hc, away]
  · have hnot := not_mem_log (hrec rfl)
    rw [← hid] at hnot
    refine .free away (by simp [Loan.demand, hstatus, GuestLoanStatus.toLoanStatus, hborrower, away,
      hnot]) ?_ fun _ => ⟨Or.inl rfl, congrArg some hown.symm, rfl⟩
    simp [Loan.demand, guestLoanEdit, GuestLoanStatus.toLoanStatus]
  · have hnot := not_mem_log (hclo rfl).1
    rw [← hid] at hnot
    refine .carry away away (by simp [Loan.demand, hstatus, GuestLoanStatus.toLoanStatus, hborrower,
      away, hnot]) ?_ fun he => he
    simp [Loan.demand, guestLoanEdit, GuestLoanStatus.toLoanStatus, hborrower, away, hnot]

/-- The guest loan's own statuses are neither a rejection nor a promise. -/
theorem toLoanStatus_cases (g : GuestLoanStatus) :
    g.toLoanStatus ≠ .rejected ∧ g.toLoanStatus ≠ .approved := by
  cases g <;> decide

/-- An action stays in its status, stamps the return, or is a loss. -/
theorem guestTransition_cases {status : GuestLoanStatus} {action : GuestLoanAction}
    {outcome : GuestLoanTransition} (h : resolveGuestTransition status action = some outcome) :
    outcome.toStatus ≠ .handedOver ∧ (outcome.toStatus = .returned → outcome.stamp = true) ∧
      outcome.event.movesConfirmation = false := by
  cases status <;> cases action <;> cases h <;> decide

theorem GuestGuards.moves (h : db.Coherent)
    (g : GuestGuards db now ownerId id req loan status copy outcome) (event : LoanEvent)
    (hloan : event.loanId = loan.id) (htype : event.type = outcome.event) :
    Moves db loan (guestLoanEdit outcome now) copy (guestCopyEdit outcome ownerId) noEdit
      (some event) [] := by
  have hrow := guestTransition_cases g.row
  have hstatus : (guestLoanEdit outcome now loan).status = outcome.toStatus.toLoanStatus := rfl
  constructor
  case mem => exact Table.mem_of_find? g.find_loan
  case find_copy => exact g.find_copy
  case parties => exact ⟨rfl, rfl, rfl, rfl, rfl, rfl, rfl, rfl⟩
  case copy_owner => rfl
  case named => exact fun e he => Option.some.inj he ▸ hloan
  case life =>
    rw [Option.map_some, htype]
    exact g.lifeStep
  case shift =>
    rw [Option.map_some, htype]
    exact g.shift h
  case alone =>
    rintro (hs | hs)
    · exact absurd hs (toLoanStatus_cases _).2
    · refine absurd ?_ hrow.1
      rw [hstatus] at hs
      revert hs
      cases outcome.toStatus <;> decide
  case handed => exact fun _ => g.handed
  case returned =>
    intro hs
    have hto : outcome.toStatus = .returned := by
      rw [hstatus] at hs
      revert hs
      cases outcome.toStatus <;> decide
    simp [guestLoanEdit, hrow.2.1 hto]
  case rejection =>
    rw [hstatus, if_neg (toLoanStatus_cases _).1]
    intro n hn
    cases hn
  case dates =>
    intro ho
    rw [g.origin] at ho
    cases ho
  case confirmation_loan => exact fun _ _ => rfl
  case confirmation_contact => exact fun _ _ => rfl
  case confirmation_other => exact fun _ _ _ => rfl
  case confirmation_own =>
    intro x _ _ hx
    rw [confirmationAfter_append fun e he => by
      rw [← Option.some.inj he, htype]
      exact hrow.2.2]
    exact hx

/-- **Every action on a guest loan keeps the invariant.** -/
theorem applyGuestTransition_evolves (h : db.Coherent)
    (hok : applyGuestTransition now ownerId id req db = .ok db') : db.Evolves db' := by
  obtain ⟨loan, status, copy, outcome, g, hret⟩ := applyGuestTransition_eq_ok.mp hok
  have hid : copy.id = loan.copyId := Table.key_of_find? g.find_copy
  have hmoved := h.moved (g.moves h ⟨loan.id, outcome.event, some ownerId, now,
    if outcome.event = .recovered then some (recoveredAt req.effectiveAt now) else none, .empty⟩
    rfl rfl)
  rw [Db.moved, map_noEdit, ← hid, List.append_nil] at hmoved
  exact hmoved.trans (recomputeOf_evolves hmoved.coherent hret)

end Transition

/-! ## Settling a waiting handover -/

/-- The loan of a confirmation is a guest's, and the confirmation is its only one and stands
where its log says. -/
structure ConfirmedLoan (db : Db) (confirmation : GuestLoanConfirmation) (loan : Loan) : Prop where
  origin : loan.origin = .recordedGuest
  kind : loan.borrowerKind = .guest
  only : db.confirmationsOf loan.id = [confirmation]
  contact : confirmation.externalBorrowerId = loan.borrowerContactId
  status : confirmation.status = confirmationAfter (db.log loan.id)
  trail : Trail .recordedGuest (db.log loan.id) loan.status

theorem Db.Coherent.confirmedLoan (h : db.Coherent) {confirmation : GuestLoanConfirmation}
    {loan : Loan} (hg : confirmation ∈ db.confirmations)
    (hl : db.loans.find? confirmation.loanId = some loan) : ConfirmedLoan db confirmation loan := by
  have hmem := Table.mem_of_find? hl
  have hid : loan.id = confirmation.loanId := Table.key_of_find? hl
  have sound := h.sound loan hmem
  have htrail : Trail loan.origin (db.log loan.id) loan.status := sound.trail
  have hconf : confirmation ∈ db.confirmationsOf loan.id := mem_confirmationsOf.mpr ⟨hg, hid.symm⟩
  have hmatch := sound.confirmations
  unfold Dossier.ConfirmationsMatch at hmatch
  by_cases hask : .guestConfirmationRequested ∈ (db.dossier loan).log
  · rw [if_pos hask] at hmatch
    obtain ⟨x, hx, hcontact, hstatus⟩ := hmatch
    obtain rfl : confirmation = x :=
      List.mem_singleton.mp ((show db.confirmationsOf loan.id = [x] from hx) ▸ hconf)
    have horigin := htrail.origin_of_asked hask
    refine ⟨horigin, ?_, hx, hcontact, hstatus, horigin ▸ htrail⟩
    cases hk : loan.borrowerKind with
    | registered => exact absurd horigin (sound.parties.registered hk).1
    | guest => rfl
  · rw [if_neg hask] at hmatch
    rw [show db.confirmationsOf loan.id = [] from hmatch] at hconf
    cases hconf

/-- What a decision on a waiting handover respects. -/
structure Settles (log : List LoanEventType) (t : ConfirmationTransition) : Prop where
  life : LifeStep log .recordedGuest .pendingConfirmation (some t.event) t.loanTo
  confirmation : confirmationAfter (log ++ [t.event]) = t.confirmationTo
  outcome : (t.loanTo = .cancelled ∧ t.copyTo = .available) ∨
    (t.loanTo = .handedOver ∧ t.copyTo = .lentOut ∧ t.rejectsRequestedRivals = true)

theorem withRejectedWhen_log {c : Bool} {copyId : CopyId} {spared : Option LoanId}
    {actorId : UserId} (id : LoanId) :
    (db.withRejectedWhen c copyId spared actorId now).log id = db.log id := by
  cases c <;> rfl

theorem withRejectedWhen_copies {c : Bool} {copyId : CopyId} {spared : Option LoanId}
    {actorId : UserId} :
    (db.withRejectedWhen c copyId spared actorId now).copies = db.copies := by
  cases c <;> rfl

section Settle

variable {id : ConfirmationId} {confirmation : GuestLoanConfirmation} {loan : Loan} {copy : Copy}
  {contactId : ContactId} {t : ConfirmationTransition}

/-- The copy follows the settled loan. -/
theorem Settles.shift {log : List LoanEventType} (s : Settles log t) (hk : loan.borrowerKind = .guest)
    (hb : loan.borrowerId = none) (hp : PendingChain loan copy contactId)
    (hown : copy.ownerId = loan.ownerId) :
    Shift (loan.demand log) ((statusEdit t.loanTo loan).demand (log ++ [t.event]))
      copy.shape (settleCopyEdit t.copyTo loan.ownerId copy).shape := by
  let reserved : Shape := ⟨loan.ownerId, .reserved, none, loan.borrowerContactId⟩
  let lent : Shape := ⟨loan.ownerId, .lentOut, none, loan.borrowerContactId⟩
  have hbefore : loan.demand log = some reserved := by
    simp [Loan.demand, hp.pending, hk, reserved]
  rcases s.outcome with ⟨hto, hcopy⟩ | ⟨hto, hcopy, -⟩
  · refine .free reserved hbefore (by simp [Loan.demand, statusEdit, hto]) fun _ => ?_
    rw [hcopy]
    exact ⟨Or.inl rfl, congrArg some hown.symm, rfl⟩
  · refine .carry reserved lent hbefore (by simp [Loan.demand, statusEdit, hto, hb, lent]) fun _ => ?_
    simp [Copy.shape, settleCopyEdit, hcopy, hown, hp.no_holder, hp.held, hp.contact, lent]

/-- **Settling a waiting handover keeps the invariant.** -/
theorem settled_evolves (h : db.Coherent) (now : Time)
    (hg : db.confirmations.find? id = some confirmation)
    (hl : db.loans.find? confirmation.loanId = some loan)
    (hc : db.copies.find? loan.copyId = some copy) (hp : PendingChain loan copy contactId)
    (hs : Settles (db.log loan.id) t)
    (hrivals : t.rejectsRequestedRivals = true →
      ∀ l ∈ db.rivals copy.id none, l.borrowerId ≠ none)
    (actorId : Option UserId) (resolvedAt : Option Time) :
    db.Evolves (db.settled now loan.ownerId actorId id loan copy t resolvedAt) := by
  have hmem := Table.mem_of_find? hl
  have confirmed := h.confirmedLoan (Table.mem_of_find? hg) hl
  have hborrower : loan.borrowerId = none :=
    ((h.sound loan hmem).parties.guest confirmed.kind).2.1
  have hown : copy.ownerId = loan.ownerId := by
    obtain ⟨c, hc', ho⟩ := h.placed loan hmem
    obtain rfl := Option.some.inj (hc'.symm.trans hc)
    exact ho
  have hself : db.loans.find? loan.id = some loan := Table.find?_of_mem hmem
  have hcopyId : copy.id = loan.copyId := Table.key_of_find? hc
  have hcid : confirmation.id = id := Table.key_of_find? hg
  have hnot := (settled_not_rival copy.id none hself hp.pending
    (show LoanStatus.handedOver ≠ .requested by decide) loan hmem rfl).1
  -- every other confirmation is another loan's
  have honly : ∀ x ∈ db.confirmations, x.loanId = loan.id → x = confirmation := fun x hx hid =>
    List.mem_singleton.mp (confirmed.only ▸ mem_confirmationsOf.mpr ⟨hx, hid⟩)
  have hrejected : db.Evolves
      (db.withRejectedWhen t.rejectsRequestedRivals copy.id none loan.ownerId now) :=
    h.rejectedWhen hrivals
  have m : Moves (db.withRejectedWhen t.rejectsRequestedRivals copy.id none loan.ownerId now) loan
      (statusEdit t.loanTo) copy (settleCopyEdit t.copyTo loan.ownerId)
      (.only (fun g => g.id = id) (resolveEdit t.confirmationTo resolvedAt))
      (some ⟨loan.id, t.event, actorId, now, none, .empty⟩) [] := by
    constructor
    case mem => exact Table.mem_of_find? (find?_withRejectedWhen hself hnot)
    case find_copy =>
      rw [withRejectedWhen_copies]
      exact hc
    case parties => exact ⟨rfl, rfl, rfl, rfl, rfl, rfl, rfl, rfl⟩
    case copy_owner =>
      show (if t.copyTo = .available then _ else _ : Copy).ownerId = _
      split <;> rfl
    case named => exact fun e he => Option.some.inj he ▸ rfl
    case life =>
      rw [withRejectedWhen_log, confirmed.origin, hp.pending]
      exact hs.life
    case shift =>
      rw [withRejectedWhen_log]
      exact hs.shift confirmed.kind hborrower hp hown
    case alone =>
      intro hto
      refine Or.inr (Or.inr fun r hr hcopy _ => ?_)
      rcases hs.outcome with ⟨hcancel, -⟩ | ⟨-, -, hrej⟩
      · rw [show (statusEdit t.loanTo loan).status = t.loanTo from rfl, hcancel] at hto
        rcases hto with hto | hto <;> cases hto
      · rw [hrej] at hr
        exact no_request_withRejected h r hr (hcopy.trans hcopyId.symm) (Option.some_ne_none _)
    case handed =>
      refine fun _ => (h.sound loan hmem).handed (Or.inl fun ho => ?_)
      exact nomatch confirmed.origin.symm.trans ho
    case returned =>
      intro hto
      rcases hs.outcome with ⟨hcancel, -⟩ | ⟨hover, -⟩
      · exact nomatch hcancel.symm.trans hto
      · exact nomatch hover.symm.trans hto
    case rejection =>
      rw [if_neg]
      · exact fun n hn => nomatch hn
      · intro hto
        rcases hs.outcome with ⟨hcancel, -⟩ | ⟨hover, -⟩
        · exact nomatch hcancel.symm.trans hto
        · exact nomatch hover.symm.trans hto
    case dates => exact fun ho => nomatch confirmed.origin.symm.trans ho
    case confirmation_loan =>
      intro x _
      rw [Table.Edit.only_apply]
      split <;> rfl
    case confirmation_contact =>
      intro x _
      rw [Table.Edit.only_apply]
      split <;> rfl
    case confirmation_other =>
      intro x hx hloan
      rw [withRejectedWhen_confirmations] at hx
      rw [Table.Edit.only_apply, if_neg]
      intro hid
      have hx' := Table.eq_of_key_eq hx (Table.mem_of_find? hg)
        ((of_decide_eq_true hid).trans hcid.symm)
      rw [hx', ← Table.key_of_find? hl] at hloan
      exact hloan rfl
    case confirmation_own =>
      intro x hx hloan _
      rw [withRejectedWhen_confirmations] at hx
      rw [honly x hx hloan, Table.Edit.only_apply, if_pos (decide_eq_true hcid),
        withRejectedWhen_log]
      exact hs.confirmation.symm
  have hmoved := hrejected.coherent.moved m
  have hall := hrejected.trans hmoved
  rw [Db.moved, withRejectedWhen_copies, withRejectedWhen_confirmations, withRejectedWhen_events,
    ← hcopyId, List.append_nil] at hall
  exact hall

end Settle

/-- The owner's two decisions settle. -/
theorem settles_of_action {log : List LoanEventType} {status : GuestLoanConfirmationStatus}
    {action : GuestConfirmationAction} {t : ConfirmationTransition}
    (htrail : Trail .recordedGuest log .pendingConfirmation)
    (ht : resolveConfirmationTransition status action = some t) : Settles log t := by
  rcases (isConfirmation_of_transition ht).2 with ⟨rfl, -⟩ | ⟨rfl, -⟩
  · refine ⟨.cancelHandover, ?_, Or.inl ⟨rfl, rfl⟩⟩
    rcases htrail.guest_pending with rfl | rfl <;> rfl
  · refine ⟨.recordOwnerStatement, ?_, Or.inr ⟨rfl, rfl, rfl⟩⟩
    rcases htrail.guest_pending with rfl | rfl <;> rfl

/-- An open confirmation has been asked for, and nothing else has happened. -/
theorem log_of_open {log : List LoanEventType}
    (htrail : Trail .recordedGuest log .pendingConfirmation)
    (hopen : confirmationAfter log = .open) : log = [.guestConfirmationRequested] := by
  rcases htrail.guest_pending with rfl | rfl
  · rfl
  · cases hopen

/-- **The owner's decisions keep the invariant.** -/
theorem applyAction_evolves {id : ConfirmationId} {action : GuestConfirmationAction}
    (h : db.Coherent) (hok : applyAction now ownerId id action db = .ok db') : db.Evolves db' := by
  obtain ⟨confirmation, loan, copy, contactId, t, g, ht, hc, -, hp, hrivals, hret, -⟩ :=
    applyAction_eq_ok.mp hok
  have confirmed := h.confirmedLoan (Table.mem_of_find? g.find_confirmation) g.find_loan
  have htrail := confirmed.trail
  rw [hp.pending] at htrail
  have hsettled := settled_evolves h now g.find_confirmation g.find_loan hc hp
    (settles_of_action htrail ht) hrivals (some ownerId) (some now)
  rw [g.own] at hsettled
  exact hsettled.trans (recomputeRetainUntil_evolves hsettled.coherent hret)

/-! ## Links and codes -/

/-- **A new link keeps the invariant.** -/
theorem rotateLink_evolves {secrets : GuestConfirmationSecrets} {id : ConfirmationId}
    {token : Token} (h : db.Coherent)
    (hok : rotateLink secrets now ownerId id token db = .ok db') : db.Evolves db' := by
  obtain ⟨confirmation, loan, -, -, -, rfl⟩ := rotateLink_writes hok
  exact h.secrets fun _ => ⟨rfl, rfl, rfl⟩

theorem withdrawLink_evolves {secrets : GuestConfirmationSecrets} {id : ConfirmationId}
    {token : Token} (h : db.Coherent) : db.Evolves (withdrawLink secrets id token db) :=
  h.secrets fun _ => ⟨rfl, rfl, rfl⟩

theorem withdrawCode_evolves {id : ConfirmationId} {nonce : Nonce} (h : db.Coherent) :
    db.Evolves (withdrawCode id nonce db) :=
  h.secrets fun _ => ⟨rfl, rfl, rfl⟩

/-- **A new code keeps the invariant.** -/
theorem requestCode_evolves {secrets : GuestConfirmationSecrets} {lookup : TokenLookup}
    {req : RequestGuestCodeRequest} {code : Code} {nonce : Nonce} (h : db.Coherent) :
    db.Evolves (requestCode secrets now lookup req code nonce db).1 := by
  unfold requestCode
  split
  · exact h.refl
  · split
    · exact h.refl
    · split
      · exact h.refl
      · exact h.secrets fun _ => ⟨rfl, rfl, rfl⟩

theorem wrongGuessEdit_keeps (g : GuestLoanConfirmation) :
    (wrongGuessEdit g).loanId = g.loanId ∧
      (wrongGuessEdit g).externalBorrowerId = g.externalBorrowerId ∧
      (wrongGuessEdit g).status = g.status := by
  by_cases h : g.codeAttempts + 1 ≥ GUEST_CODE_MAX_ATTEMPTS
  · simp [wrongGuessEdit, h, GuestLoanConfirmation.clearedChallenge]
  · simp [wrongGuessEdit, h]

/-- **A guess keeps the invariant.** -/
theorem verifyCode_evolves {secrets : GuestConfirmationSecrets} {lookup : TokenLookup}
    {req : VerifyGuestCodeRequest} {proof : Token} (h : db.Coherent) :
    db.Evolves (verifyCode secrets now lookup req proof db).1 := by
  unfold verifyCode
  split
  · exact h.refl
  · split
    · exact h.refl
    · split
      · exact h.refl
      · split
        · exact h.secrets fun _ => ⟨rfl, rfl, rfl⟩
        · exact h.secrets wrongGuessEdit_keeps

/-! ## The guest's answer -/

/-- What an earlier lookup found is still so: the confirmation belongs to the loan, and the
loan to the copy and the owner. -/
structure TokenLookup.Valid (lookup : TokenLookup) (db : Db) : Prop where
  confirmation : ∃ g, db.confirmations.find? lookup.id = some g ∧ g.loanId = lookup.loanId
  loan : ∃ l, db.loans.find? lookup.loanId = some l ∧ l.copyId = lookup.copyId ∧
    l.ownerId = lookup.ownerId

/-- A lookup stays valid, however late it is used. -/
theorem TokenLookup.Valid.extends {lookup : TokenLookup} (v : lookup.Valid db)
    (hext : db.Extends db') : lookup.Valid db' := by
  obtain ⟨⟨g, hg, hgl⟩, l, hl, hc, ho⟩ := v
  obtain ⟨g', hg', hgl'⟩ := hext.confirmations hg
  obtain ⟨l', hl', hc', ho', -⟩ := hext.loans hl
  exact ⟨⟨g', hg', hgl'.trans hgl⟩, l', hl', hc'.trans hc, ho'.trans ho⟩

/-- A lookup is valid when it is made. -/
theorem findByToken_valid {secrets : GuestConfirmationSecrets} {token : Token}
    {lookup : TokenLookup} (h : findByToken secrets token db = .ok lookup) : lookup.Valid db := by
  simp only [findByToken, Checked.bind_eq_ok, Checked.orThrow_eq_ok, Checked.pure_eq_ok] at h
  obtain ⟨row, hrow, loan, hl, rfl⟩ := h
  have hmem : row ∈ db.confirmations := List.mem_of_find?_eq_some hrow
  exact ⟨⟨row, Table.find?_of_mem hmem, rfl⟩, loan, hl, rfl, rfl⟩

/-- A denial leaves the loan and its copy, and keeps the invariant. -/
theorem denied_evolves (now : Time) {id : ConfirmationId} {confirmation : GuestLoanConfirmation} {loan : Loan}
    {copy : Copy} (h : db.Coherent) (hg : db.confirmations.find? id = some confirmation)
    (hl : db.loans.find? confirmation.loanId = some loan)
    (hc : db.copies.find? loan.copyId = some copy) (hpending : loan.status = .pendingConfirmation)
    (hopen : confirmation.status = .open) : db.Evolves (db.denied now id loan) := by
  have hmem := Table.mem_of_find? hl
  have confirmed := h.confirmedLoan (Table.mem_of_find? hg) hl
  have htrail := confirmed.trail
  rw [hpending] at htrail
  have hlog := log_of_open htrail (confirmed.status.symm.trans hopen)
  have hcid : confirmation.id = id := Table.key_of_find? hg
  have honly : ∀ x ∈ db.confirmations, x.loanId = loan.id → x = confirmation := fun x hx hid =>
    List.mem_singleton.mp (confirmed.only ▸ mem_confirmationsOf.mpr ⟨hx, hid⟩)
  have hdemand := Loan.demand_of_exclusive (l := loan) (db.log loan.id) (by rw [hpending]; rfl)
  have m : Moves db loan noEdit copy noEdit
      (.only (fun g => g.id = id) (resolveEdit .denied none))
      (some ⟨loan.id, .guestLoanDenied, none, now, none, .empty⟩) [] := by
    constructor
    case mem => exact hmem
    case find_copy => exact hc
    case parties => exact .refl loan
    case copy_owner => rfl
    case named => exact fun e he => Option.some.inj he ▸ rfl
    case life =>
      show LifeStep (db.log loan.id) loan.origin loan.status (some .guestLoanDenied) loan.status
      rw [confirmed.origin, hpending]
      exact .denied (by rw [hlog]; decide)
    case shift =>
      obtain ⟨t, ht⟩ := hdemand
      refine .carry t t ht ?_ fun he => he
      rw [← ht]
      show loan.demand _ = _
      simp [Loan.demand, hpending]
    case alone =>
      rintro (hto | hto)
      · cases hpending.symm.trans hto
      · cases hpending.symm.trans hto
    case handed =>
      refine fun _ => (h.sound loan hmem).handed (Or.inl fun ho => ?_)
      cases confirmed.origin.symm.trans ho
    case returned =>
      intro hto
      cases hpending.symm.trans hto
    case rejection =>
      have hnot : loan.status ≠ .rejected := by
        intro hto
        cases hpending.symm.trans hto
      show if loan.status = .rejected then _ else _
      rw [if_neg hnot]
      intro _ hn
      cases hn
    case dates =>
      intro ho
      cases confirmed.origin.symm.trans ho
    case confirmation_loan =>
      intro x _
      rw [Table.Edit.only_apply]
      split <;> rfl
    case confirmation_contact =>
      intro x _
      rw [Table.Edit.only_apply]
      split <;> rfl
    case confirmation_other =>
      intro x hx hloan
      rw [Table.Edit.only_apply, if_neg]
      intro hid
      have hx' := Table.eq_of_key_eq hx (Table.mem_of_find? hg)
        ((of_decide_eq_true hid).trans hcid.symm)
      rw [hx', ← Table.key_of_find? hl] at hloan
      exact hloan rfl
    case confirmation_own =>
      intro x hx hloan _
      rw [honly x hx hloan, Table.Edit.only_apply, if_pos (decide_eq_true hcid), hlog]
      rfl
  have hmoved := h.moved m
  rw [Db.moved, modify_noEdit, modify_noEdit, List.append_nil] at hmoved
  exact hmoved

/-- **The guest's answer keeps the invariant**, whatever an earlier lookup it relies on. -/
theorem applyAnswer_evolves {secrets : GuestConfirmationSecrets} {lookup : TokenLookup}
    {req : AnswerGuestResponseRequest} {r : Except GuestFailure Unit} (h : db.Coherent)
    (v : lookup.Valid db) (hok : applyAnswer secrets now lookup req db = .ok (db', r)) :
    db.Evolves db' := by
  cases r with
  | error f =>
    rw [applyAnswer_declined hok]
    exact h.refl
  | ok u =>
    obtain ⟨contactId, row, loan, copy, t, g, rfl⟩ := applyAnswer_writes hok
    obtain ⟨hrow, hopen, -⟩ := lockOwnRow_eq_ok.mp g.row_eq
    -- the lookup's ids are those of the rows
    have hloan : row.loanId = lookup.loanId := by
      obtain ⟨x, hx, hxl⟩ := v.confirmation
      rwa [Option.some.inj (hrow.symm.trans hx)]
    obtain ⟨x, hx, hcopyId, howner⟩ := v.loan
    obtain rfl : loan = x := Option.some.inj (g.find_loan.symm.trans hx)
    have hl : db.loans.find? row.loanId = some loan := hloan ▸ g.find_loan
    have hc : db.copies.find? loan.copyId = some copy := hcopyId ▸ g.find_copy
    have confirmed := h.confirmedLoan (Table.mem_of_find? hrow) hl
    have htrail := confirmed.trail
    rw [g.pending.pending] at htrail
    have hlog := log_of_open htrail (confirmed.status.symm.trans hopen)
    -- the notification and the guest's identity are quiet
    have hquiet : ∀ {d : Db}, d.Coherent → d.Evolves
        { d.notify ⟨lookup.ownerId, req.answer.notificationType,
            .guestResponse loan.id copy.id lookup.id⟩ with
          contacts := d.contacts.modify contactId (guestIdentityEdit secrets req row.verifiedAt) } := by
      intro d hd
      refine hd.quiet ⟨rfl, rfl, rfl, ⟨_, rfl, fun n hn => ?_⟩,
        ⟨noEdit, (map_noEdit _).symm, fun _ => ⟨rfl, rfl, rfl⟩⟩, fun id k hk => ?_,
        fun _ u hu => ⟨u, hu⟩⟩
      · rw [List.mem_singleton.mp hn]
        show req.answer.notificationType ≠ _
        cases req.answer <;> decide
      · exact ⟨_, (Table.find?_map id).trans (congrArg _ hk)⟩
    have hanswered : db.Evolves (db.answered secrets now lookup contactId req row loan copy) := by
      unfold Db.answered
      by_cases hr : req.answer = .received
      · simp only [if_pos hr]
        have hsettles : Settles (db.log loan.id) GUEST_RECEIVED := by
          rw [hlog]
          exact ⟨.received (by decide), rfl, Or.inr ⟨rfl, rfl, rfl⟩⟩
        have hsettled := settled_evolves h now hrow hl hc g.pending hsettles
          (fun _ => g.rivals_registered hr) none (some now)
        rw [howner] at hsettled
        exact hsettled.trans (hquiet hsettled.coherent)
      · simp only [if_neg hr]
        have hdenied := denied_evolves now h hrow hl hc g.pending.pending hopen
        exact hdenied.trans (hquiet hdenied.coherent)
    exact hanswered.trans (hanswered.coherent.quiet (.retain contactId t))

end Bookswap
