import Bookswap.Guarantees.CopyLoan
import Bookswap.History.HistoryMapper

/-!
# Every ended loan is dated

The history finds the date of an ending in a column for some statuses and in an event for others;
four services write them. That the date is there is a fact about one state, from the dossier of the
loan; that it never changes is a fact about steps.

- `Db.Coherent.completedAt_iff`: a loan is dated exactly when it has ended.
- `KeepsEndings`, with one rule for each kind of change: the dates of endings stay.
- `ended_loans_dated`: both, in every reachable state.
-/

namespace Bookswap

open Store

variable {db db' : Db} {l : Loan} {now : Time}

/-! ## In one state -/

/-- The loan has ended, in a way that is recorded: a cancelled request is not. -/
def Loan.HasEnding (l : Loan) : Prop :=
  l.status ∈ [.returned, .rejected, .declined, .lost] ∨
    (l.status = .cancelled ∧ l.origin ≠ .requested)

/-- A lost loan was reported lost. -/
theorem Trail.lost_event {origin : LoanOrigin} {log : List LoanEventType} {status : LoanStatus}
    (h : Trail origin log status) (hs : status = .lost) : .loanLost ∈ log := by
  induction h with
  | opened hopen => cases hopen <;> cases hs
  | stepped _ hstep ih =>
    cases hstep with
    | markLost => simp
    | recover _ => exact List.mem_append_left _ (ih rfl)
    | closeLoss _ _ => exact List.mem_append_left _ (ih rfl)
    | _ => cases hs

/-- A declined record was declined by its borrower. -/
theorem Trail.declined_event {origin : LoanOrigin} {log : List LoanEventType} {status : LoanStatus}
    (h : Trail origin log status) (hs : status = .declined) : .recordDeclined ∈ log := by
  cases h with
  | opened hopen => cases hopen <;> cases hs
  | stepped _ hstep =>
    cases hstep with
    | declineRecord => simp
    | _ => cases hs

/-- A cancelled record was withdrawn, and a cancelled handover cancelled. -/
theorem Trail.cancelled_event {origin : LoanOrigin} {log : List LoanEventType}
    {status : LoanStatus} (h : Trail origin log status) (hs : status = .cancelled)
    (ho : origin ≠ .requested) : .recordWithdrawn ∈ log ∨ .guestHandoverCancelled ∈ log := by
  cases h with
  | opened hopen => cases hopen <;> cases hs
  | stepped _ hstep =>
    cases hstep with
    | withdrawRecord => simp
    | cancelHandover => simp
    | cancelRequest => exact absurd rfl ho
    | cancelApproved => exact absurd rfl ho
    | _ => cases hs

/-- A request leaves no event when it is cancelled. -/
theorem Trail.request_uncancelled {log : List LoanEventType} {status : LoanStatus}
    (h : Trail .requested log status) :
    .recordWithdrawn ∉ log ∧ .guestHandoverCancelled ∉ log := by
  cases h.request_form <;> decide

/-- An event of the types is in the log. -/
theorem datesOf_ne_nil {id : LoanId} {types : List LoanEventType} :
    latestOf (datesOf types (db.eventsOf id)) ≠ none ↔ ∃ type ∈ types, type ∈ db.log id := by
  rw [latestOf_ne_none]
  unfold Db.log
  simp only [some_mem_datesOf, List.mem_map]
  constructor
  · rintro ⟨t, e, he, htype, rfl⟩
    exact ⟨e.type, htype, e, he, rfl⟩
  · rintro ⟨_, htype, e, he, rfl⟩
    exact ⟨_, e, he, htype, rfl⟩

/-- **A loan is dated exactly when it has ended.** -/
theorem Db.Coherent.completedAt_iff (h : db.Coherent) (hl : l ∈ db.loans) :
    completedAtOf l (db.eventsOf l.id) ≠ none ↔ l.HasEnding := by
  have sound := h.sound l hl
  have htrail := h.trail hl
  unfold completedAtOf Loan.HasEnding
  cases hs : l.status with
  | requested => simp [COMPLETION_SOURCE]
  | approved => simp [COMPLETION_SOURCE]
  | handedOver => simp [COMPLETION_SOURCE]
  | pendingConfirmation => simp [COMPLETION_SOURCE]
  | returned =>
    have hret : l.returnedAt ≠ none := sound.returned hs
    simpa [COMPLETION_SOURCE] using hret
  | rejected =>
    have hres : l.respondedAt ≠ none := (sound.rejections.of_rejected hs).1
    simpa [COMPLETION_SOURCE] using hres
  | declined =>
    simp only [COMPLETION_SOURCE]
    rw [datesOf_ne_nil]
    simpa using htrail.declined_event hs
  | lost =>
    simp only [COMPLETION_SOURCE]
    rw [datesOf_ne_nil]
    simpa using htrail.lost_event hs
  | cancelled =>
    simp only [COMPLETION_SOURCE]
    rw [datesOf_ne_nil]
    by_cases ho : l.origin = .requested
    · rw [ho] at htrail
      simpa [ho] using htrail.request_uncancelled
    · simpa [ho] using htrail.cancelled_event hs ho

/-- Every loan has a dated fact. -/
theorem Db.Coherent.latestFact (h : db.Coherent) (hl : l ∈ db.loans) :
    latestFactAtOf l (db.eventsOf l.id) ≠ none := by
  have sound := h.sound l hl
  unfold latestFactAtOf
  rw [latestOf_ne_none]
  by_cases ho : l.origin = .requested
  · obtain ⟨t, ht⟩ := Option.ne_none_iff_exists'.mp (sound.requested ho)
    have ht : l.requestedAt = some t := ht
    exact ⟨t, by simp [ho, ht]⟩
  · obtain ⟨t, ht⟩ := Option.ne_none_iff_exists'.mp (sound.handed (.inl ho))
    have ht : l.handedAt = some t := ht
    exact ⟨t, by simp [ht]⟩

/-- The latest fact is not before the ending. -/
theorem completed_le_latestFact {events : List LoanEvent} {t : Time}
    (h : completedAtOf l events = some t) : ∃ f, latestFactAtOf l events = some f ∧ t ≤ f := by
  unfold latestFactAtOf
  exact le_latestOf (by simp [h])

/-! ## Across steps -/

/-- The endings that are dated stay, with their dates. -/
def Db.KeepsEndings (db db' : Db) : Prop :=
  ∀ id t, db.completedAt id = some t → db'.completedAt id = some t

theorem Db.KeepsEndings.refl (db : Db) : db.KeepsEndings db := fun _ _ h => h

theorem Db.KeepsEndings.trans {db₁ db₂ db₃ : Db} (h : db₁.KeepsEndings db₂)
    (h' : db₂.KeepsEndings db₃) : db₁.KeepsEndings db₃ := fun id t ht => h' id t (h id t ht)

theorem Db.completedAt_eq_some {id : LoanId} {t : Time} :
    db.completedAt id = some t ↔
      ∃ l, db.loans.find? id = some l ∧ completedAtOf l (db.eventsOf id) = some t := by
  rw [Db.completedAt_eq, Option.bind_eq_some_iff]

/-- A dated loan has ended. -/
theorem Db.Coherent.hasEnding (h : db.Coherent) {id : LoanId} {t : Time}
    (hl : db.loans.find? id = some l) (ht : completedAtOf l (db.eventsOf id) = some t) :
    l.HasEnding := by
  obtain rfl := Table.key_of_find? hl
  refine (h.completedAt_iff (Table.mem_of_find? hl)).mp ?_
  rw [ht]
  exact Option.some_ne_none t

/-- Nothing that dates an ended loan has changed. -/
theorem Db.Coherent.keeps_of_facts (h : db.Coherent)
    (hloans : ∀ id l, db.loans.find? id = some l → l.HasEnding → ∃ l',
      db'.loans.find? id = some l' ∧ l'.status = l.status ∧ l'.returnedAt = l.returnedAt ∧
        l'.respondedAt = l.respondedAt ∧ db'.eventsOf id = db.eventsOf id) :
    db.KeepsEndings db' := by
  intro id t ht
  obtain ⟨l, hl, hdate⟩ := Db.completedAt_eq_some.mp ht
  obtain ⟨l', hl', hs, hret, hres, hev⟩ := hloans id l hl (h.hasEnding hl hdate)
  exact Db.completedAt_eq_some.mpr ⟨l', hl', by rw [hev, completedAtOf_congr hs hret hres, hdate]⟩

/-- Loans and events are as they were. -/
theorem Db.KeepsEndings.of_eq (hloans : db'.loans = db.loans) (hevents : db'.events = db.events) :
    db.KeepsEndings db' := by
  intro id t ht
  unfold Db.completedAt Db.historyEventsOf Db.eventsOf at ht ⊢
  rw [hloans, hevents]
  exact ht

/-- **A step of an ended loan** is a lost book's: it is found, or its loss is closed. -/
theorem LifeStep.of_ended {log : List LoanEventType} {event : Option LoanEventType}
    {status' : LoanStatus} (h : LifeStep log l.origin l.status event status') (he : l.HasEnding) :
    l.status = .lost ∧ status' = .lost ∧ ∀ e ∈ event, e ≠ .loanLost := by
  unfold Loan.HasEnding at he
  generalize l.status = status at h he
  generalize l.origin = origin at h he
  cases h with
  | recover _ => exact ⟨rfl, rfl, by simp⟩
  | closeLoss _ _ => exact ⟨rfl, rfl, by simp⟩
  | _ => simp at he

/-- **A step of one loan moves no ending**, when the loan has none, or stays lost. -/
theorem Db.Coherent.keeps_edited (h : db.Coherent) (f : Table.Edit Loan.id)
    (event : Option LoanEvent) (hl : db.loans.find? l.id = some l)
    (hloans : db'.loans = db.loans.modify l.id f) (hevents : db'.events = db.events ++ event.toList)
    (named : ∀ e ∈ event, e.loanId = l.id)
    (hlost : l.HasEnding →
      l.status = .lost ∧ (f l).status = .lost ∧ ∀ e ∈ event, e.type ≠ .loanLost) :
    db.KeepsEndings db' := by
  intro id t ht
  obtain ⟨x, hx, hdate⟩ := Db.completedAt_eq_some.mp ht
  have hlog : db'.eventsOf id =
      if id = l.id then db.eventsOf id ++ event.toList else db.eventsOf id := by
    rw [← eventsOf_append named id]
    unfold Db.eventsOf
    rw [hevents]
  by_cases hid : id = l.id
  · subst hid
    obtain rfl := Option.some.inj (hx.symm.trans hl)
    obtain ⟨hs, hs', hevent⟩ := hlost (h.hasEnding hx hdate)
    refine Db.completedAt_eq_some.mpr ⟨f x, by rw [hloans, Table.find?_modify, if_pos rfl, hx]; rfl, ?_⟩
    rw [hlog, if_pos rfl]
    simp only [completedAtOf, hs, hs', COMPLETION_SOURCE] at hdate ⊢
    rw [← hdate]
    cases event with
    | none => rw [Option.toList_none, List.append_nil]
    | some e =>
      rw [Option.toList_some, datesOf_concat]
      rw [List.mem_singleton]
      exact hevent e rfl
  · refine Db.completedAt_eq_some.mpr ⟨x, ?_, by rw [hlog, if_neg hid, hdate]⟩
    rw [hloans, Table.find?_modify, if_neg hid, hx]

/-- A loan that begins moves no ending. -/
theorem keeps_opened {loans : Table Loan.id} (event : Option LoanEvent)
    (hins : db.loans.insert l = some loans) (hloans : db'.loans = loans)
    (hevents : db'.events = db.events ++ event.toList) (named : ∀ e ∈ event, e.loanId = l.id) :
    db.KeepsEndings db' := by
  intro id t ht
  obtain ⟨x, hx, hdate⟩ := Db.completedAt_eq_some.mp ht
  have hid : id ≠ l.id := by
    rintro rfl
    rw [Table.find?_fresh hins] at hx
    cases hx
  have hlog : db'.eventsOf id = db.eventsOf id := by
    have happend := @eventsOf_append db _ _ named id
    rw [if_neg hid] at happend
    rw [← happend]
    unfold Db.eventsOf
    rw [hevents]
  refine Db.completedAt_eq_some.mpr ⟨x, ?_, by rw [hlog, hdate]⟩
  rw [hloans, Table.find?_insert hins, if_neg hid, hx]

/-- A rejected request had not ended. -/
theorem Db.Coherent.keeps_rejected (h : db.Coherent) (copyId : CopyId) (spared : Option LoanId)
    (actorId : UserId) (now : Time) :
    db.KeepsEndings (db.withRejected copyId spared actorId now) := by
  refine h.keeps_of_facts fun id x hx hended => ⟨x, ?_, rfl, rfl, rfl, rfl⟩
  have hfind : (db.withRejected copyId spared actorId now).loans.find? id =
      (db.loans.find? id).map fun l =>
        if l.isRival copyId spared then Loan.rejectedAt now l else l := Table.find?_updateWhere id
  rw [hfind, hx, Option.map_some, if_neg]
  intro hrival
  have hs := (Loan.isRival_iff.mp hrival).2.1
  unfold Loan.HasEnding at hended
  rw [hs] at hended
  simp at hended

theorem Db.Coherent.keeps_rejectedWhen (h : db.Coherent) (c : Bool) (copyId : CopyId)
    (spared : Option LoanId) (actorId : UserId) (now : Time) :
    db.KeepsEndings (db.withRejectedWhen c copyId spared actorId now) := by
  cases c with
  | false => exact .refl db
  | true => exact h.keeps_rejected copyId spared actorId now

/-- A forgotten contact moves no ending. -/
theorem Db.Coherent.keeps_erased (h : db.Coherent) (gone : ContactId → Bool) :
    db.KeepsEndings (db.eraseContacts gone) := by
  refine h.keeps_of_facts fun id x hx _ => ⟨x.forget gone, ?_, rfl, rfl, rfl, rfl⟩
  have hfind : (db.eraseContacts gone).loans.find? id = (db.loans.find? id).map (Loan.forget gone) :=
    Table.find?_map id
  rw [hfind, hx]
  rfl

theorem keeps_retained {contactId : ContactId}
    (hret : recomputeRetainUntil contactId db = .ok db') : db.KeepsEndings db' := by
  obtain ⟨t, rfl⟩ := recomputeRetainUntil_writes hret
  exact .of_eq rfl rfl

/-! ## The services -/

section Services

variable {ownerId actorId userId : UserId} {copyId : CopyId}

theorem request_keeps {borrowerId : UserId} {req : CreateLoanRequest} {id : LoanId}
    (hok : request now borrowerId req id db = .ok db') : db.KeepsEndings db' := by
  obtain ⟨copy, owner, loans, -, -, -, hins, rfl⟩ := request_eq_ok.mp hok
  exact keeps_opened none hins rfl (List.append_nil _).symm fun _ he => nomatch he

theorem createRecorded_keeps {req : CreateRecordedLoanRequest} {id : LoanId}
    (hok : createRecorded now ownerId req id db = .ok db') : db.KeepsEndings db' := by
  obtain ⟨copy, loans, -, -, hins, rfl⟩ := createRecorded_eq_ok.mp hok
  refine keeps_opened (some _) hins rfl rfl fun e he => ?_
  rw [← Option.some.inj he]
  rfl

/-- **A transition moves no ending**: a lost book may be found, its loss closed. -/
theorem runTransition_keeps {loanId : LoanId} {req : UpdateLoanRequest} (h : db.Coherent)
    (hok : runTransition now actorId loanId req db = .ok db') : db.KeepsEndings db' := by
  obtain ⟨s, copy, outcome, g, rfl⟩ := runTransition_eq_ok.mp hok
  have hrejected : db.Evolves (db.withRivalsOf outcome s.row now) :=
    h.rejectedWhen g.rivals_registered
  have hkeeps : db.KeepsEndings (db.withRivalsOf outcome s.row now) :=
    h.keeps_rejectedWhen _ _ _ _ _
  have hlife := g.row.lifeStep g.not_recovered
  refine hkeeps.trans (hrejected.coherent.keeps_edited (l := s.row) _ _ ?_ rfl rfl
    transitionEvent_loanId fun hended => ?_)
  · exact find?_withRivalsOf (Table.find?_of_mem (Table.mem_of_find? g.find_loan))
  · obtain ⟨hs, hs', hevent⟩ := hlife.of_ended hended
    refine ⟨hs, (g.row.loanEdit_status rfl _ _).trans hs', fun e he => hevent e.type ?_⟩
    have htype : (transitionEvent outcome req now s.row actorId).map LoanEvent.type = outcome.event :=
      transitionEvent_type
    rw [← htype]
    exact Option.mem_map_of_mem _ he

theorem createGuestLoan_keeps {req : CreateGuestLoanRequest} {id : LoanId} (h : db.Coherent)
    (hok : createGuestLoan now ownerId req id db = .ok db') : db.KeepsEndings db' := by
  obtain ⟨contact, copy, loans, t, -, -, -, -, hins, rfl⟩ := createGuestLoan_writes hok
  refine (h.keeps_rejected copy.id none ownerId now).trans
    (keeps_opened (some _) hins rfl rfl fun e he => ?_)
  rw [← Option.some.inj he]
  rfl

theorem createRequest_keeps {req : CreateGuestLoanRequest} {id : LoanId}
    {confirmationId : ConfirmationId}
    (hok : createRequest now ownerId req id confirmationId db = .ok db') : db.KeepsEndings db' := by
  obtain ⟨contact, copy, loans, confirmations, t, -, -, -, hins, -, rfl⟩ := createRequest_writes hok
  refine keeps_opened (some _) hins rfl rfl fun e he => ?_
  rw [← Option.some.inj he]
  rfl

/-- **An action on a guest loan moves no ending.** -/
theorem applyGuestTransition_keeps {id : LoanId} {req : UpdateGuestLoanRequest} (h : db.Coherent)
    (hok : applyGuestTransition now ownerId id req db = .ok db') : db.KeepsEndings db' := by
  obtain ⟨loan, status, copy, outcome, g, hret⟩ := applyGuestTransition_eq_ok.mp hok
  have hkeeps : db.KeepsEndings (db.guestTransitioned now ownerId req loan copy outcome) := by
    refine h.keeps_edited _ (some _) (Table.find?_of_mem (Table.mem_of_find? g.find_loan))
      rfl rfl (fun e he => ?_) fun hended => ?_
    · rw [← Option.some.inj he]
    · obtain ⟨hs, hs', hevent⟩ := g.lifeStep.of_ended hended
      refine ⟨hs, hs', fun e he => ?_⟩
      rw [← Option.some.inj he]
      exact hevent _ rfl
  refine hkeeps.trans ?_
  rcases recomputeOf_writes hret with rfl | ⟨contactId, t, rfl⟩
  · exact .refl _
  · exact .of_eq rfl rfl

/-- Settling a waiting handover moves no ending: it had none. -/
theorem settled_keeps {id : ConfirmationId} {copy : Copy} {contactId : ContactId}
    {t : ConfirmationTransition} (h : db.Coherent) (hl : db.loans.find? l.id = some l)
    (hp : PendingChain l copy contactId)
    (hrivals : t.rejectsRequestedRivals = true →
      ∀ r ∈ db.rivals copy.id none, r.borrowerId ≠ none)
    (actorId : Option UserId) (resolvedAt : Option Time) :
    db.KeepsEndings (db.settled now ownerId actorId id l copy t resolvedAt) := by
  have hrejected : db.Evolves
      (db.withRejectedWhen t.rejectsRequestedRivals copy.id none ownerId now) :=
    h.rejectedWhen hrivals
  have hnot := (settled_not_rival copy.id none hl hp.pending
    (show LoanStatus.handedOver ≠ .requested by decide) l (Table.mem_of_find? hl) rfl).1
  refine (h.keeps_rejectedWhen t.rejectsRequestedRivals copy.id none ownerId now).trans
    (hrejected.coherent.keeps_edited _ (some _) (find?_withRejectedWhen hl hnot) rfl
      (congrArg (· ++ _) withRejectedWhen_events.symm) (fun e he => ?_) fun hended => ?_)
  · rw [← Option.some.inj he]
  · unfold Loan.HasEnding at hended
    rw [hp.pending] at hended
    simp at hended

theorem applyAction_keeps {id : ConfirmationId} {action : GuestConfirmationAction}
    (h : db.Coherent) (hok : applyAction now ownerId id action db = .ok db') :
    db.KeepsEndings db' := by
  obtain ⟨confirmation, loan, copy, contactId, t, g, -, -, -, hp, hrivals, hret, -⟩ :=
    applyAction_eq_ok.mp hok
  have hl := Table.find?_of_mem (Table.mem_of_find? g.find_loan)
  exact (settled_keeps h hl hp hrivals _ _).trans (keeps_retained hret)

/-- **The guest's answer moves no ending.** -/
theorem applyAnswer_keeps {secrets : GuestConfirmationSecrets} {lookup : TokenLookup}
    {req : AnswerGuestResponseRequest} {r : Except GuestFailure Unit} (h : db.Coherent)
    (hok : applyAnswer secrets now lookup req db = .ok (db', r)) : db.KeepsEndings db' := by
  cases r with
  | error f =>
    rw [applyAnswer_declined hok]
    exact .refl db
  | ok u =>
    obtain ⟨contactId, row, loan, copy, t, g, rfl⟩ := applyAnswer_writes hok
    have hl := Table.find?_of_mem (Table.mem_of_find? g.find_loan)
    have hanswered : db.KeepsEndings (db.answered secrets now lookup contactId req row loan copy) := by
      unfold Db.answered
      by_cases hr : req.answer = .received
      · simp only [if_pos hr]
        have hsettled : db.KeepsEndings
            (db.settled now lookup.ownerId none lookup.id loan copy GUEST_RECEIVED (some now)) :=
          settled_keeps h hl g.pending (fun _ => g.rivals_registered hr) none (some now)
        exact hsettled.trans (.of_eq rfl rfl)
      · simp only [if_neg hr]
        refine h.keeps_edited noEdit (some _) hl (modify_noEdit _ _).symm rfl
          (fun e he => ?_) fun hended => ?_
        · rw [← Option.some.inj he]
        · unfold Loan.HasEnding at hended
          rw [g.pending.pending] at hended
          simp at hended
    exact hanswered.trans (.of_eq rfl rfl)

theorem archiveCopy_keeps (h : db.Coherent) (hok : archiveCopy now userId copyId db = .ok db') :
    db.KeepsEndings db' := by
  rcases archiveCopy_writes hok with rfl | ⟨-, -, rfl⟩
  · exact .refl _
  · exact (h.keeps_rejected copyId none userId now).trans (.of_eq rfl rfl)

theorem requestCode_keeps {secrets : GuestConfirmationSecrets} {lookup : TokenLookup}
    {req : RequestGuestCodeRequest} {code : Code} {nonce : Nonce} :
    db.KeepsEndings (requestCode secrets now lookup req code nonce db).1 := by
  unfold requestCode
  split
  · exact .refl db
  · split
    · exact .refl db
    · split
      · exact .refl db
      · exact .of_eq rfl rfl

theorem verifyCode_keeps {secrets : GuestConfirmationSecrets} {lookup : TokenLookup}
    {req : VerifyGuestCodeRequest} {proof : Token} :
    db.KeepsEndings (verifyCode secrets now lookup req proof db).1 := by
  unfold verifyCode
  split
  · exact .refl db
  · split
    · exact .refl db
    · split
      · exact .refl db
      · split
        · exact .of_eq rfl rfl
        · exact .of_eq rfl rfl

end Services

/-- **No step of the system moves an ending.** -/
theorem World.Step.keepsEndings {secrets : GuestConfirmationSecrets} {w w' : World} {op : Op}
    (h : w.Coherent) (hs : w.Step secrets op w') : w.db.KeepsEndings w'.db := by
  cases op with
  | request now borrowerId req id => exact request_keeps hs.1
  | recordExisting now ownerId req id => exact createRecorded_keeps hs.1
  | apply now actorId loanId req => exact runTransition_keeps h.db hs.1
  | createGuestLoan now ownerId req id => exact createGuestLoan_keeps h.db hs.1
  | applyGuest now ownerId id req => exact applyGuestTransition_keeps h.db hs.1
  | createRequest now ownerId req id confirmationId => exact createRequest_keeps hs.1
  | applyAction now ownerId id action => exact applyAction_keeps h.db hs.1
  | rotateLink now ownerId id token =>
    obtain ⟨_, _, _, _, _, hdb⟩ := rotateLink_writes hs.1
    rw [hdb]
    exact .of_eq rfl rfl
  | withdrawLink id token => exact .of_eq (Except.ok.inj hs.1 ▸ rfl) (Except.ok.inj hs.1 ▸ rfl)
  | findByToken token lookup => exact .of_eq (hs.2.1 ▸ rfl) (hs.2.1 ▸ rfl)
  | requestCode now lookup req code nonce reply =>
    have hkeeps : w.db.KeepsEndings (Bookswap.requestCode secrets now lookup req code nonce w.db).1 :=
      requestCode_keeps
    rwa [hs.1] at hkeeps
  | withdrawCode id nonce => exact .of_eq (Except.ok.inj hs.1 ▸ rfl) (Except.ok.inj hs.1 ▸ rfl)
  | verifyCode now lookup req proof compared reply =>
    have hkeeps : w.db.KeepsEndings (Bookswap.verifyCode secrets now lookup req proof w.db).1 :=
      verifyCode_keeps
    rwa [hs.1] at hkeeps
  | answer now lookup req reply => exact applyAnswer_keeps h.db hs.1
  | addCopy now userId req id =>
    obtain ⟨_, _, _, _, hdb⟩ := addCopy_writes hs.1
    exact .of_eq (by rw [hdb]) (by rw [hdb])
  | updateCopy userId copyId req =>
    obtain ⟨_, _, _, _, hdb⟩ := updateCopy_writes hs.1
    exact .of_eq (by rw [hdb]) (by rw [hdb])
  | removeCopy userId copyId =>
    obtain ⟨-, hdb⟩ := removeCopy_writes hs.1
    exact .of_eq (by rw [hdb]) (by rw [hdb])
  | archiveCopy now userId copyId => exact archiveCopy_keeps h.db hs.1
  | restoreCopy userId copyId =>
    obtain ⟨-, hdb⟩ := restoreCopy_eq_ok.mp hs.1
    exact .of_eq (by rw [hdb]) (by rw [hdb])
  | createContact now ownerId aliasName id =>
    obtain ⟨_, _, _, hdb⟩ := createContact_writes hs.1
    exact .of_eq (by rw [hdb]) (by rw [hdb])
  | updateAlias ownerId id aliasName =>
    obtain ⟨_, hdb⟩ := updateAlias_writes hs.1
    exact .of_eq (by rw [hdb]) (by rw [hdb])
  | deleteContact ownerId id =>
    obtain ⟨-, hdb⟩ := deleteContact_writes hs.1
    rw [hdb]
    exact h.db.keeps_erased _
  | cleanupContacts now batch =>
    obtain ⟨hok, -⟩ := hs
    exact Except.ok.inj hok ▸ h.db.keeps_erased _
  | backfillContact id => exact keeps_retained hs.1
  | social users friendships => exact .of_eq (by rw [hs.2.1]) (by rw [hs.2.1])

/-- What the history says of the dates of one loan. -/
structure LoanDated (w : World) (l : Loan) (leads : World → Prop) : Prop where
  /-- It is dated exactly when it has ended. -/
  completed : completedAtOf l (w.db.historyEventsOf l.id) ≠ none ↔ l.HasEnding
  /-- It has a latest fact, -/
  latest : latestFactAtOf l (w.db.historyEventsOf l.id) ≠ none
  /-- which is not before its ending. -/
  ordered : ∀ t, completedAtOf l (w.db.historyEventsOf l.id) = some t →
    ∃ f, latestFactAtOf l (w.db.historyEventsOf l.id) = some f ∧ t ≤ f
  /-- Nothing that happens later moves the ending. -/
  final : ∀ t, completedAtOf l (w.db.historyEventsOf l.id) = some t →
    ∀ w', leads w' → w'.db.completedAt l.id = some t

/-- **Every ended loan is dated**, once and for all. -/
theorem ended_loans_dated {secrets : GuestConfirmationSecrets} {w : World}
    (h : (system secrets).Reachable w) {l : Loan} (hl : l ∈ w.db.loans) :
    LoanDated w l ((system secrets).Leads w) := by
  have hc := (reachable_coherent h).db
  have hdate : completedAtOf l (w.db.historyEventsOf l.id) = completedAtOf l (w.db.eventsOf l.id) :=
    completedAtOf_loaded l _
  have hfact : latestFactAtOf l (w.db.historyEventsOf l.id) = latestFactAtOf l (w.db.eventsOf l.id) :=
    latestFactAtOf_loaded l _
  constructor
  case completed =>
    rw [hdate]
    exact hc.completedAt_iff hl
  case latest =>
    rw [hfact]
    exact hc.latestFact hl
  case ordered => exact fun t ht => completed_le_latestFact ht
  case final =>
    intro t ht w' hlead
    refine Machine.Leads.keeps (P := fun w' : World => w'.db.completedAt l.id = some t) ?_ h ?_ hlead
    · exact fun a op b ha hp hs => hs.keepsEndings (reachable_coherent ha) _ _ hp
    · show (w.db.loans.find? l.id).bind _ = _
      rw [Table.find?_of_mem hl]
      exact ht

/-- A loan that waits for its guest has not ended. -/
theorem ended_loans_dated_waiting :
    LoanDated ⟨exampleWaiting, []⟩ (guestLoanRow .pendingConfirmation 0 exampleCopy exampleLend 20)
      ((system exampleSecrets).Leads ⟨exampleWaiting, []⟩) :=
  ended_loans_dated (exampleWaiting_reachable exampleSecrets) (List.mem_singleton.mpr rfl)

end Bookswap
