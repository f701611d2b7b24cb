import Bookswap.ExternalBorrowers.Deadlines
import Bookswap.Guests.GuestCodes
import Bookswap.Guarantees.Progress

/-!
# The deadline of a contact is exact

Every transaction that touches a loan of a contact recomputes the contact's deadline, and the
others leave the deadline as it is, so the stored deadline is the deadline at any time.

- `*_deadlines`: each service; `World.Step.deadlines`: each step.
- `contact_deadlines_exact`: **in every reachable database the stored deadline is the deadline**,
  and computing it again neither fails nor changes anything.
-/

namespace Bookswap

open Store Checked

variable {db db' : Db} {now : Time}

/-- Every stored deadline is the deadline. -/
def Db.DeadlinesExact (db : Db) : Prop := ∀ id, db.DeadlineExact id

theorem Db.DeadlinesExact.kept (h : db.DeadlinesExact) (k : ∀ id, db.DeadlineKept db' id) :
    db'.DeadlinesExact := fun id => (h id).kept (k id)

/-- The deadline of one contact is recomputed, and the other contacts are left alone. -/
theorem Db.DeadlinesExact.recomputed {contactId : ContactId} {db₁ : Db} (h : db.DeadlinesExact)
    (hret : recomputeRetainUntil contactId db₁ = .ok db')
    (k : ∀ id, id ≠ contactId → db.DeadlineKept db₁ id) : db'.DeadlinesExact := by
  intro id
  by_cases hid : id = contactId
  · subst hid
    exact deadline_of_recompute hret
  · obtain ⟨t, rfl⟩ := recomputeRetainUntil_writes hret
    exact (h id).kept ((k id hid).trans (.retained hid t))

/-- A loan of a registered user has no contact. -/
theorem Db.Coherent.no_contact (h : db.Coherent) :
    ∀ l ∈ db.loans, l.borrowerKind = .registered → l.borrowerContactId = none :=
  fun _ hl hk => ((h.parties hl).registered hk).2.2

/-! ## The services -/

theorem request_deadlines {borrowerId : UserId} {req : CreateLoanRequest} {id : LoanId}
    (hexact : db.DeadlinesExact) (hok : request now borrowerId req id db = .ok db') :
    db'.DeadlinesExact := by
  obtain ⟨copy, owner, loans, -, -, -, hins, rfl⟩ := request_eq_ok.mp hok
  exact hexact.kept fun contactId =>
    .inserted hins (fun heq => nomatch heq) rfl (List.append_nil _).symm (List.forall_mem_nil _) rfl

theorem createRecorded_deadlines {ownerId : UserId} {req : CreateRecordedLoanRequest}
    {id : LoanId} (hexact : db.DeadlinesExact)
    (hok : createRecorded now ownerId req id db = .ok db') : db'.DeadlinesExact := by
  obtain ⟨copy, loans, -, -, hins, rfl⟩ := createRecorded_eq_ok.mp hok
  refine hexact.kept fun contactId => .inserted hins (fun heq => nomatch heq) rfl rfl ?_ rfl
  intro e he
  rw [List.mem_singleton.mp he]
  rfl

theorem runTransition_deadlines {actorId : UserId} {loanId : LoanId} {req : UpdateLoanRequest}
    (h : db.Coherent) (hexact : db.DeadlinesExact)
    (hok : runTransition now actorId loanId req db = .ok db') : db'.DeadlinesExact := by
  obtain ⟨s, copy, outcome, g, rfl⟩ := runTransition_eq_ok.mp hok
  have hmem := Table.mem_of_find? g.find_loan
  have hnone : s.row.borrowerContactId = none := h.no_contact _ hmem s.registered
  have hl : (db.withRivalsOf outcome s.row now).loans.find? s.row.id = some s.row :=
    find?_withRivalsOf (Table.find?_of_mem hmem)
  refine hexact.kept fun contactId => ?_
  have hrejected : db.DeadlineKept (db.withRivalsOf outcome s.row now) contactId :=
    .rejectedWhen h.no_contact _ _ _ _ _
  refine hrejected.trans (.modified (Table.mem_of_find? hl) ?_
    (loanEdit_sameParties outcome req now s.row s.row).borrowerContactId rfl rfl ?_ rfl)
  · rw [hnone]
    exact fun heq => nomatch heq
  · intro e he
    obtain ⟨type, -, rfl⟩ := Option.map_eq_some_iff.mp (Option.mem_toList.mp he)
    rfl

/-- A loan to a contact is entered with the contact's deadline. -/
theorem createGuestLoan_recomputes {ownerId : UserId} {req : CreateGuestLoanRequest} {id : LoanId}
    (hok : createGuestLoan now ownerId req id db = .ok db') :
    ∃ db₁, recomputeRetainUntil req.externalBorrowerId db₁ = .ok db' := by
  simp only [createGuestLoan, bind_eq_ok, pure_eq_ok] at hok
  obtain ⟨db₁, -, db₂, -, db₃, hret, -, -, rfl⟩ := hok
  exact ⟨_, hret⟩

theorem createRequest_recomputes {ownerId : UserId} {req : CreateGuestLoanRequest} {id : LoanId}
    {confirmationId : ConfirmationId}
    (hok : createRequest now ownerId req id confirmationId db = .ok db') :
    ∃ db₁, recomputeRetainUntil req.externalBorrowerId db₁ = .ok db' := by
  simp only [createRequest, bind_eq_ok, pure_eq_ok] at hok
  obtain ⟨db₁, -, confirmations, -, db₃, hret, -, -, rfl⟩ := hok
  exact ⟨_, hret⟩

theorem writeAnswer_recomputes {secrets : GuestConfirmationSecrets} {lookup : TokenLookup}
    {contactId : ContactId} {req : AnswerGuestResponseRequest} {row : GuestLoanConfirmation}
    {loan : Loan} {copy : Copy}
    (hok : writeAnswer secrets now lookup contactId req row loan copy db = .ok db') :
    ∃ db₁, recomputeRetainUntil contactId db₁ = .ok db' := by
  simp only [writeAnswer, bind_eq_ok] at hok
  obtain ⟨db₁, -, confirmations, -, hret⟩ := hok
  exact ⟨_, hret⟩

/-- A write whose deadline is that of `X`, when the transaction ends with a recomputation. -/
theorem Db.DeadlinesExact.withRetainUntil {contactId : ContactId} {db₁ : Db} {t : Option Time}
    (h : db.DeadlinesExact)
    (hret : ∃ db₂, recomputeRetainUntil contactId db₂ = .ok (db₁.withRetainUntil contactId t))
    (k : ∀ id, id ≠ contactId → db.DeadlineKept db₁ id) :
    (db₁.withRetainUntil contactId t).DeadlinesExact := by
  intro id
  by_cases hid : id = contactId
  · subst hid
    exact deadline_of_recompute hret.choose_spec
  · exact (h id).kept ((k id hid).trans (.retained hid t))

theorem createGuestLoan_deadlines {ownerId : UserId} {req : CreateGuestLoanRequest} {id : LoanId}
    (h : db.Coherent) (hexact : db.DeadlinesExact)
    (hok : createGuestLoan now ownerId req id db = .ok db') : db'.DeadlinesExact := by
  obtain ⟨contact, copy, loans, t, -, -, -, -, hins, rfl⟩ := createGuestLoan_writes hok
  refine hexact.withRetainUntil (createGuestLoan_recomputes hok) fun contactId hne => ?_
  have hrejected : db.DeadlineKept (db.withRejected copy.id none ownerId now) contactId :=
    .rejected h.no_contact _ _ _ _
  refine hrejected.trans (.inserted hins ?_ rfl rfl ?_ rfl)
  · exact fun heq => hne (Option.some.inj heq).symm
  · intro e he
    rw [List.mem_singleton.mp he]
    rfl

theorem createRequest_deadlines {ownerId : UserId} {req : CreateGuestLoanRequest} {id : LoanId}
    {confirmationId : ConfirmationId} (hexact : db.DeadlinesExact)
    (hok : createRequest now ownerId req id confirmationId db = .ok db') : db'.DeadlinesExact := by
  obtain ⟨contact, copy, loans, confirmations, t, -, -, -, hins, -, rfl⟩ := createRequest_writes hok
  refine hexact.withRetainUntil (createRequest_recomputes hok) fun contactId hne => ?_
  refine .inserted hins ?_ rfl rfl ?_ rfl
  · exact fun heq => hne (Option.some.inj heq).symm
  · intro e he
    rw [List.mem_singleton.mp he]
    rfl

theorem applyGuestTransition_deadlines {ownerId : UserId} {id : LoanId}
    {req : UpdateGuestLoanRequest} (hexact : db.DeadlinesExact)
    (hok : applyGuestTransition now ownerId id req db = .ok db') : db'.DeadlinesExact := by
  obtain ⟨loan, status, copy, outcome, g, hret⟩ := applyGuestTransition_eq_ok.mp hok
  have hmoved : ∀ contactId, loan.borrowerContactId ≠ some contactId →
      db.DeadlineKept (db.guestTransitioned now ownerId req loan copy outcome) contactId := by
    refine fun contactId hne => .modified (Table.mem_of_find? g.find_loan) hne rfl rfl rfl ?_ rfl
    intro e he
    rw [List.mem_singleton.mp he]
  cases hcontact : loan.borrowerContactId with
  | none =>
    rw [hcontact] at hret
    cases hret
    exact hexact.kept fun contactId => hmoved contactId (by rw [hcontact]; exact fun heq => nomatch heq)
  | some contactId =>
    rw [hcontact] at hret
    refine hexact.recomputed hret fun id hne => hmoved id ?_
    rw [hcontact]
    exact fun heq => hne (Option.some.inj heq).symm

/-- A handover that is settled touches the loan of one contact. -/
theorem settled_kept {ownerId : UserId} {loan : Loan} {id : ConfirmationId} {copy : Copy}
    {contactId contactId' : ContactId} {t : ConfirmationTransition} (h : db.Coherent)
    (hl : db.loans.find? loan.id = some loan) (hp : PendingChain loan copy contactId)
    (ht : t.loanTo = .handedOver ∨ t.loanTo = .cancelled) (actorId : Option UserId)
    (resolvedAt : Option Time) (hne : contactId' ≠ contactId) :
    db.DeadlineKept (db.settled now ownerId actorId id loan copy t resolvedAt) contactId' := by
  have hto : t.loanTo ≠ .requested := by
    rcases ht with h | h <;> rw [h] <;> decide
  have hnot := (settled_not_rival copy.id none hl hp.pending hto loan (Table.mem_of_find? hl) rfl).1
  have hrejected : db.DeadlineKept
      (db.withRejectedWhen t.rejectsRequestedRivals copy.id none ownerId now) contactId' :=
    .rejectedWhen h.no_contact _ _ _ _ _
  have hevents : (db.settled now ownerId actorId id loan copy t resolvedAt).events =
      (db.withRejectedWhen t.rejectsRequestedRivals copy.id none ownerId now).events ++
        [⟨loan.id, t.event, actorId, now, none, .empty⟩] := by
    rw [withRejectedWhen_events]
    rfl
  refine hrejected.trans
    (.modified (Table.mem_of_find? (find?_withRejectedWhen hl hnot)) ?_ rfl rfl hevents ?_ rfl)
  · rw [hp.contact]
    exact fun heq => hne (Option.some.inj heq).symm
  · intro e he
    rw [List.mem_singleton.mp he]

theorem applyAction_deadlines {ownerId : UserId} {id : ConfirmationId}
    {action : GuestConfirmationAction} (h : db.Coherent) (hexact : db.DeadlinesExact)
    (hok : applyAction now ownerId id action db = .ok db') : db'.DeadlinesExact := by
  obtain ⟨confirmation, loan, copy, contactId, t, g, ht, -, -, hp, -, hret, -⟩ :=
    applyAction_eq_ok.mp hok
  have hl := Table.find?_of_mem (Table.mem_of_find? g.find_loan)
  have hto : t.loanTo = .handedOver ∨ t.loanTo = .cancelled := by
    rcases (isConfirmation_of_transition ht).2 with ⟨rfl, -⟩ | ⟨rfl, -⟩
    · exact .inr rfl
    · exact .inl rfl
  exact hexact.recomputed hret fun contactId' hne => settled_kept h hl hp hto _ _ hne

/-- A guest's answer touches the loan and the row of the guest's contact. -/
theorem answered_kept {secrets : GuestConfirmationSecrets} {lookup : TokenLookup}
    {contactId contactId' : ContactId} {req : AnswerGuestResponseRequest}
    {row : GuestLoanConfirmation} {loan : Loan} {copy : Copy} (h : db.Coherent)
    (hl : db.loans.find? loan.id = some loan) (hp : PendingChain loan copy contactId)
    (hne : contactId' ≠ contactId) :
    db.DeadlineKept (db.answered secrets now lookup contactId req row loan copy) contactId' := by
  have hidentity : ∀ db₁ : Db, db₁.DeadlineKept { db₁ with
      contacts := db₁.contacts.modify contactId (guestIdentityEdit secrets req row.verifiedAt) }
      contactId' := by
    refine fun db₁ => .edited rfl rfl rfl fun c hid => ?_
    rw [Table.Edit.only_apply, if_neg (by simpa [hid] using hne)]
    exact ⟨rfl, rfl⟩
  unfold Db.answered
  refine .trans ?_ (hidentity _)
  by_cases hr : req.answer = .received
  · rw [if_pos hr]
    have hsettled : db.DeadlineKept
        (db.settled now lookup.ownerId none lookup.id loan copy GUEST_RECEIVED (some now))
        contactId' := settled_kept h hl hp (.inl rfl) none (some now) hne
    exact hsettled.trans (.of_eq rfl rfl rfl)
  · rw [if_neg hr]
    refine .modified (Table.mem_of_find? hl) (f := ⟨fun l => l, fun _ => rfl⟩) ?_ rfl ?_ rfl ?_ rfl
    · rw [hp.contact]
      exact fun heq => hne (Option.some.inj heq).symm
    · exact (Table.modify_eq_self fun _ _ _ => rfl).symm
    · intro e he
      rw [List.mem_singleton.mp he]

theorem applyAnswer_deadlines {secrets : GuestConfirmationSecrets} {lookup : TokenLookup}
    {req : AnswerGuestResponseRequest} {reply : Except GuestFailure Unit} (h : db.Coherent)
    (hexact : db.DeadlinesExact)
    (hok : applyAnswer secrets now lookup req db = .ok (db', reply)) : db'.DeadlinesExact := by
  cases reply with
  | error f => exact applyAnswer_declined hok ▸ hexact
  | ok u =>
    obtain ⟨contactId, row, loan, copy, t, g, rfl⟩ := applyAnswer_writes hok
    have hret : ∃ db₂, recomputeRetainUntil contactId db₂ =
        .ok ((db.answered secrets now lookup contactId req row loan copy).withRetainUntil
          contactId t) := by
      unfold applyAnswer at hok
      rw [g.contact, g.row_eq] at hok
      dsimp only at hok
      rw [if_neg (not_not.mpr g.proof)] at hok
      simp only [bind_eq_ok, pure_eq_ok, Prod.mk.injEq] at hok
      obtain ⟨_, -, _, -, -, -, _, hw, rfl, -⟩ := hok
      exact writeAnswer_recomputes hw
    have hl := Table.find?_of_mem (Table.mem_of_find? g.find_loan)
    exact hexact.withRetainUntil hret fun contactId' hne => answered_kept h hl g.pending hne

/-- A new contact has no loans yet. -/
theorem createContact_deadlines {ownerId : UserId} {aliasName : String} {id : ContactId}
    (h : db.Coherent) (hexact : db.DeadlinesExact)
    (hok : createContact now ownerId aliasName id db = .ok db') : db'.DeadlinesExact := by
  simp only [createContact, bind_eq_ok, orThrow_eq_ok, pure_eq_ok] at hok
  obtain ⟨contacts, hins, rfl⟩ := hok
  intro contactId c hc hid
  rcases (Table.mem_insert hins).mp hc with hc | rfl
  · have hkept : db.RetentionKept { db with contacts := contacts } c.id :=
      ⟨fun _ _ => Iff.rfl, ⟨[], (List.append_nil _).symm, List.forall_mem_nil _⟩⟩
    exact (hexact contactId c hc hid).kept hkept rfl rfl
  · refine .unused fun l hl hcontact => ?_
    obtain ⟨k, hk⟩ := h.known l hl _ hcontact
    exact Table.fresh_of_insert hins k (Table.mem_of_find? hk) (Table.key_of_find? hk)

/-- Whoever stays keeps the loans; who goes needs no deadline. -/
theorem erased_deadlines {gone : ContactId → Bool} (hexact : db.DeadlinesExact) :
    (db.eraseContacts gone).DeadlinesExact := by
  intro contactId
  by_cases hgone : gone contactId = true
  · intro c hc hid
    have hstays := (Table.mem_filter.mp hc).2
    rw [hid, hgone] at hstays
    cases hstays
  · refine (hexact contactId).kept ⟨⟨fun l hc => ?_, [], (List.append_nil _).symm,
      List.forall_mem_nil _⟩, fun c hc hid => ⟨c, (Table.mem_filter.mp hc).1, hid, rfl, rfl⟩⟩
    have hforget : ∀ x : Loan, x.borrowerContactId = some contactId →
        { x with borrowerContactId := Db.forget gone x.borrowerContactId } = x := by
      intro x hx
      have hsame : Db.forget gone x.borrowerContactId = x.borrowerContactId := by
        rw [hx]
        simp [Db.forget, hgone]
      rw [hsame]
    show l ∈ db.loans.map _ ↔ _
    rw [Table.mem_map]
    constructor
    · rintro ⟨x, hx, rfl⟩
      have hx' : x.borrowerContactId = some contactId := (Option.filter_eq_some_iff.mp hc).1
      show { x with borrowerContactId := Db.forget gone x.borrowerContactId } ∈ db.loans
      rw [hforget x hx']
      exact hx
    · exact fun hl => ⟨l, hl, hforget l hc⟩

/-- **Each step keeps every deadline exact.** -/
theorem World.Step.deadlines {secrets : GuestConfirmationSecrets} {w w' : World} {op : Op}
    (h : w.Coherent) (hexact : w.db.DeadlinesExact) (hs : w.Step secrets op w') :
    w'.db.DeadlinesExact := by
  have hquiet : w'.db.loans = w.db.loans → w'.db.events = w.db.events →
      w'.db.contacts = w.db.contacts → w'.db.DeadlinesExact :=
    fun hloans hevents hcontacts => hexact.kept fun _ => .of_eq hloans hevents hcontacts
  cases op with
  | request now borrowerId req id => exact request_deadlines hexact hs.1
  | recordExisting now ownerId req id => exact createRecorded_deadlines hexact hs.1
  | apply now actorId loanId req => exact runTransition_deadlines h.db hexact hs.1
  | createGuestLoan now ownerId req id => exact createGuestLoan_deadlines h.db hexact hs.1
  | applyGuest now ownerId id req => exact applyGuestTransition_deadlines hexact hs.1
  | createRequest now ownerId req id confirmationId =>
    exact createRequest_deadlines hexact hs.1
  | applyAction now ownerId id action => exact applyAction_deadlines h.db hexact hs.1
  | rotateLink now ownerId id token =>
    obtain ⟨_, _, _, _, _, hdb⟩ := rotateLink_writes hs.1
    exact hquiet (by rw [hdb]) (by rw [hdb]) (by rw [hdb])
  | withdrawLink id token =>
    have hdb := Except.ok.inj hs.1
    exact hquiet (by rw [← hdb]; rfl) (by rw [← hdb]; rfl) (by rw [← hdb]; rfl)
  | findByToken token lookup =>
    have hdb := hs.2.1
    exact hquiet (by rw [hdb]) (by rw [hdb]) (by rw [hdb])
  | requestCode now lookup req code nonce reply =>
    rcases requestCode_cases hs.1 with ⟨hdb, -⟩ | ⟨row, -, -, hdb⟩
    · exact hquiet (by rw [hdb]) (by rw [hdb]) (by rw [hdb])
    · exact hquiet (by rw [hdb]; rfl) (by rw [hdb]; rfl) (by rw [hdb]; rfl)
  | withdrawCode id nonce =>
    have hdb := Except.ok.inj hs.1
    exact hquiet (by rw [← hdb]; rfl) (by rw [← hdb]; rfl) (by rw [← hdb]; rfl)
  | verifyCode now lookup req proof compared reply =>
    rcases verifyCode_cases hs.1 with ⟨hdb, -⟩ | ⟨row, live, -, -, ⟨-, -, hdb⟩ | ⟨-, -, hdb⟩⟩
    · exact hquiet (by rw [hdb]) (by rw [hdb]) (by rw [hdb])
    · exact hquiet (by rw [hdb]; rfl) (by rw [hdb]; rfl) (by rw [hdb]; rfl)
    · exact hquiet (by rw [hdb]; rfl) (by rw [hdb]; rfl) (by rw [hdb]; rfl)
  | answer now lookup req reply => exact applyAnswer_deadlines h.db hexact hs.1
  | addCopy now userId req id =>
    obtain ⟨_, _, _, _, hdb⟩ := addCopy_writes hs.1
    exact hquiet (by rw [hdb]) (by rw [hdb]) (by rw [hdb])
  | updateCopy userId copyId req =>
    obtain ⟨_, _, _, _, hdb⟩ := updateCopy_writes hs.1
    exact hquiet (by rw [hdb]) (by rw [hdb]) (by rw [hdb])
  | removeCopy userId copyId =>
    obtain ⟨-, hdb⟩ := removeCopy_writes hs.1
    exact hquiet (by rw [hdb]) (by rw [hdb]) (by rw [hdb])
  | archiveCopy now userId copyId =>
    rcases archiveCopy_writes hs.1 with hdb | ⟨-, -, hdb⟩
    · exact hquiet (by rw [hdb]) (by rw [hdb]) (by rw [hdb])
    · refine hexact.kept fun id => ?_
      have hrejected : w.db.DeadlineKept (w.db.withRejected copyId none userId now) id :=
        .rejected h.db.no_contact _ _ _ _
      exact hrejected.trans (.of_eq (by rw [hdb]) (by rw [hdb]) (by rw [hdb]))
  | restoreCopy userId copyId =>
    obtain ⟨-, hdb⟩ := restoreCopy_eq_ok.mp hs.1
    exact hquiet (by rw [hdb]) (by rw [hdb]) (by rw [hdb])
  | createContact now ownerId aliasName id => exact createContact_deadlines h.db hexact hs.1
  | updateAlias ownerId id aliasName =>
    obtain ⟨hok, -⟩ := hs
    simp only [updateAlias, bind_eq_ok, throwIf_eq_ok, exists_const, pure_eq_ok] at hok
    obtain ⟨-, hdb⟩ := hok
    refine hexact.kept fun contactId => .edited (by rw [← hdb]) (by rw [← hdb])
      (show w'.db.contacts = w.db.contacts.map _ by rw [← hdb]; rfl) fun c _ => ?_
    rw [Table.Edit.only_apply]
    split
    · exact ⟨rfl, rfl⟩
    · exact ⟨rfl, rfl⟩
  | deleteContact ownerId id =>
    obtain ⟨-, hdb⟩ := deleteContact_writes hs.1
    rw [hdb]
    exact erased_deadlines hexact
  | cleanupContacts now batch => exact Except.ok.inj hs.1 ▸ erased_deadlines hexact
  | backfillContact id =>
    exact hexact.recomputed hs.1 fun contactId _ => .of_eq rfl rfl rfl
  | social users friendships =>
    have hdb := hs.2.1
    exact hquiet (by rw [hdb]) (by rw [hdb]) (by rw [hdb])

/-- **The stored deadline of every contact is its deadline, in every reachable database**: 90 days
after a contact was created without loans, none while a loan is active, and else the latest
moment at which one of the loans may be forgotten. Computing it again succeeds and changes
nothing. -/
theorem contact_deadlines_exact {secrets : GuestConfirmationSecrets} {w₀ w : World}
    (h₀ : w₀.Init) (hnew : ∀ c ∈ w₀.db.contacts,
      c.retainUntil = some (c.createdAt + RETENTION_NO_LOAN_WINDOW_MS))
    (hleads : (system secrets).Leads w₀ w) :
    ∀ c ∈ w.db.contacts, w.db.Deadline c c.retainUntil ∧
      recomputeRetainUntil c.id w.db = .ok w.db := by
  have hstart : (system secrets).Reachable w₀ := .start h₀
  have hexact₀ : w₀.db.DeadlinesExact := by
    intro id c hc _
    rw [hnew c hc]
    refine .unused fun l hl => ?_
    rw [h₀.no_loans] at hl
    exact absurd hl Table.not_mem_empty
  have hexact : w.db.DeadlinesExact := by
    refine hleads.keeps (P := fun w => w.db.DeadlinesExact) ?_ hstart hexact₀
    exact fun w op w' hr hexact hs => World.Step.deadlines (reachable_coherent hr) hexact hs
  have hcoherent := (reachable_coherent (hstart.leads hleads)).db
  intro c hc
  have hdeadline := hexact c.id c hc rfl
  refine ⟨hdeadline, ?_⟩
  obtain ⟨db', hok⟩ := hcoherent.retain_ok c.id
  obtain ⟨t, rfl⟩ := recomputeRetainUntil_writes hok
  -- the computed deadline is the stored one, so the write changes nothing
  have hsame : t = c.retainUntil := by
    have hmem : { c with retainUntil := t } ∈ (w.db.withRetainUntil c.id t).contacts :=
      Table.mem_modify.mpr ⟨c, hc, if_pos rfl⟩
    have hcomputed := deadline_of_recompute hok _ hmem rfl
    have hkept : (w.db.withRetainUntil c.id t).RetentionKept w.db
        ({ c with retainUntil := t } : ExternalBorrower).id :=
      ⟨fun _ _ => Iff.rfl, ⟨[], (List.append_nil _).symm, List.forall_mem_nil _⟩⟩
    have hback : w.db.Deadline c t := hcomputed.kept hkept rfl rfl
    exact hback.unique hdeadline
  rw [hok, Db.withRetainUntil, Table.modify_eq_self fun x hx hid => ?_]
  obtain rfl := Table.eq_of_key_eq hx hc hid
  rw [Table.Edit.mk_apply, hsame]

/-- A contact is entered and lent a book. -/
theorem contact_deadlines_exact_waiting :
    ∃ c ∈ exampleWaiting.contacts, c.id = 7 ∧ exampleWaiting.Deadline c c.retainUntil ∧
      recomputeRetainUntil c.id exampleWaiting = .ok exampleWaiting := by
  let empty : Db := { exampleDb with contacts := .empty }
  let met : Db := { exampleDb with
    contacts := ⟨[⟨7, 1, "сусідка", some RETENTION_NO_LOAN_WINDOW_MS, 0, none, none, none⟩],
      by decide⟩ }
  have hinit : World.Init ⟨empty, []⟩ :=
    ⟨rfl, rfl, rfl, rfl, rfl, example_init.idle, example_init.owned⟩
  have hmet : createContact 0 1 "сусідка" 7 empty = .ok met := rfl
  have hlent : createRequest 0 1 exampleLend 20 30 met = .ok exampleWaiting := rfl
  have hfirst : (system exampleSecrets).Leads ⟨empty, []⟩ ⟨met, []⟩ :=
    .single ⟨.createContact 0 1 "сусідка" 7, hmet, rfl⟩
  have hleads : (system exampleSecrets).Leads ⟨empty, []⟩ ⟨exampleWaiting, []⟩ :=
    hfirst.tail ⟨.createRequest 0 1 exampleLend 20 30, hlent, rfl⟩
  have hcontact : exampleWaiting.contacts.rows =
      [⟨7, 1, "сусідка", none, 0, none, none, none⟩] := rfl
  have hmem : (⟨7, 1, "сусідка", none, 0, none, none, none⟩ : ExternalBorrower) ∈
      exampleWaiting.contacts := by
    rw [Table.mem_def, hcontact]
    exact List.mem_singleton_self _
  exact ⟨_, hmem, rfl, contact_deadlines_exact hinit
    (fun c hc => absurd hc Table.not_mem_empty) hleads _ hmem⟩

end Bookswap
