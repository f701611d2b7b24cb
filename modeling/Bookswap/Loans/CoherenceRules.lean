import Bookswap.Loans.Coherence

/-!
# The other rules of coherence

`Loans.Coherence` has the rules for quiet changes and for a step of one loan. Here are a
loan that begins (`Coherent.opened`), the rejection of the rivals on a copy
(`Coherent.rejected`), the owner's changes to the shelf (`Coherent.shelved`, `added`,
`removed`), and the erasure of contacts (`Coherent.erased`).
-/

namespace Bookswap

open Store Occupancy

variable {db : Db}

/-! ## A loan begins -/

/-- The writes that open a loan: its row, its copy, its confirmation, its first event. -/
def Db.opened (db : Db) (l : Loan) (loans : Table Loan.id)
    (confirmations : Table GuestLoanConfirmation.id) (g : Table.Edit Copy.id)
    (event : Option LoanEvent) (notices : List Notification) : Db :=
  { db with
    loans := loans
    copies := db.copies.modify l.copyId g
    confirmations := confirmations
    events := db.events ++ event.toList
    notifications := db.notifications ++ notices }

/-- What the writes that open a loan respect. -/
structure Opens (db : Db) (l : Loan) (loans : Table Loan.id)
    (confirmations : Table GuestLoanConfirmation.id) (c : Copy) (g : Table.Edit Copy.id)
    (event : Option LoanEvent) (notices : List Notification) : Prop where
  insert : db.loans.insert l = some loans
  find_copy : db.copies.find? l.copyId = some c
  owner : c.ownerId = l.ownerId
  copy_owner : (g c).ownerId = c.ownerId
  known : ∀ k, l.borrowerContactId = some k → ∃ x, db.contacts.find? k = some x
  named : ∀ e ∈ event, e.loanId = l.id
  opening : Opening l.origin (event.map LoanEvent.type) l.status
  parties : l.PartiesValid
  shift : Shift none (l.demand (event.map LoanEvent.type).toList) c.shape (g c).shape
  waiting : l.status = .requested → c.status = .available
  alone : l.status = .handedOver → ∀ r ∈ db.loans, r.copyId = l.copyId → r.status ≠ .requested
  requested : l.origin = .requested → l.requestedAt ≠ none
  handed : l.origin ≠ .requested → l.handedAt ≠ none
  silent : ∀ n ∈ notices, n.type ≠ .loanRejected
  dates : l.origin = .recordedExisting → ∃ e, event = some e ∧ e.payload.proposed = l.dates
  confirmations : if event.map LoanEvent.type = some .guestConfirmationRequested then
      ∃ x, db.confirmations.insert x = some confirmations ∧ x.loanId = l.id ∧
        x.externalBorrowerId = l.borrowerContactId ∧ x.status = .open
    else confirmations = db.confirmations

section Opened

variable {l : Loan} {loans : Table Loan.id} {confirmations : Table GuestLoanConfirmation.id}
  {c : Copy} {g : Table.Edit Copy.id} {event : Option LoanEvent} {notices : List Notification}

/-- A loan that does not exist yet has no events, rejections or confirmations. -/
theorem Db.Coherent.nothing_of_fresh (h : db.Coherent) {id : LoanId}
    (hid : db.loans.find? id = none) :
    db.eventsOf id = [] ∧ db.rejectionsOf id = [] ∧ db.confirmationsOf id = [] := by
  refine ⟨?_, ?_, ?_⟩
  · refine List.filter_eq_nil_iff.mpr fun e he heq => ?_
    obtain ⟨l, hl⟩ := h.event_loan e he
    rw [of_decide_eq_true heq, hid] at hl
    cases hl
  · refine List.filter_eq_nil_iff.mpr fun n hn hrej => ?_
    obtain ⟨htype, hloan⟩ := of_decide_eq_true hrej
    obtain ⟨l, hl⟩ := h.notice_loan n hn htype
    rw [hloan, hid] at hl
    cases hl
  · refine List.filter_eq_nil_iff.mpr fun x hx heq => ?_
    obtain ⟨l, hl⟩ := h.confirmation_loan x hx
    rw [of_decide_eq_true heq, hid] at hl
    cases hl

theorem Opens.eventsOf (o : Opens db l loans confirmations c g event notices) (id : LoanId) :
    (db.opened l loans confirmations g event notices).eventsOf id =
      if id = l.id then db.eventsOf id ++ event.toList else db.eventsOf id :=
  eventsOf_append o.named id

theorem Opens.log_other (o : Opens db l loans confirmations c g event notices) {id : LoanId}
    (hid : id ≠ l.id) :
    (db.opened l loans confirmations g event notices).log id = db.log id := by
  rw [Db.log, o.eventsOf, if_neg hid, Db.log]

theorem Opens.log_own (o : Opens db l loans confirmations c g event notices) (h : db.Coherent) :
    (db.opened l loans confirmations g event notices).log l.id =
      (event.map LoanEvent.type).toList := by
  rw [Db.log, o.eventsOf, if_pos rfl, (h.nothing_of_fresh (Table.find?_fresh o.insert)).1,
    List.nil_append, ← Option.toList_map]

theorem Opens.confirmationsOf_other (o : Opens db l loans confirmations c g event notices)
    {id : LoanId} (hid : id ≠ l.id) :
    (db.opened l loans confirmations g event notices).confirmationsOf id =
      db.confirmationsOf id := by
  have hconf := o.confirmations
  show confirmations.rows.filter _ = _
  split at hconf
  · obtain ⟨x, hins, hx, -⟩ := hconf
    rw [Table.rows_insert hins, List.filter_append, List.filter_singleton, hx,
      decide_eq_false (Ne.symm hid)]
    simp [Db.confirmationsOf]
  · rw [hconf]
    rfl

/-- The first status of a loan is neither `APPROVED` nor a settled one. -/
theorem Opening.status_cases {origin : LoanOrigin} {event : Option LoanEventType}
    {status : LoanStatus} (h : Opening origin event status) :
    status ≠ .approved ∧ status ≠ .returned ∧ status ≠ .rejected ∧
      (origin = .requested → status.wasHanded = false) := by
  cases h <;> simp [LoanStatus.wasHanded]

/-- A record begins with its proposal. -/
theorem Opening.record_event {origin : LoanOrigin} {event : Option LoanEventType}
    {status : LoanStatus} (h : Opening origin event status) (ho : origin = .recordedExisting) :
    event = some .recordProposed := by
  cases h <;> first | rfl | cases ho

theorem Opens.sound_own (o : Opens db l loans confirmations c g event notices) (h : db.Coherent) :
    ((db.opened l loans confirmations g event notices).dossier l).Sound := by
  have hfresh := h.nothing_of_fresh (Table.find?_fresh o.insert)
  have hlog := o.log_own h
  have hstatus := o.opening.status_cases
  refine ⟨?_, o.parties, o.requested, ?_, ?_, .other hstatus.2.2.1 ?_, ?_, ?_⟩
  · show Trail l.origin ((db.opened l loans confirmations g event notices).log l.id) l.status
    rw [hlog]
    exact .opened o.opening
  · rintro (ho | hs)
    · exact o.handed ho
    · refine o.handed fun ho => ?_
      exact Bool.false_ne_true ((hstatus.2.2.2 ho).symm.trans hs)
  · exact fun hs => absurd hs hstatus.2.1
  · show (db.notifications ++ notices).filter _ = []
    rw [rejections_append o.silent]
    exact hfresh.2.1
  · have hconf := o.confirmations
    unfold Dossier.ConfirmationsMatch
    show if _ ∈ (db.opened l loans confirmations g event notices).log l.id then _ else _
    rw [hlog]
    by_cases he : event.map LoanEvent.type = some .guestConfirmationRequested
    · rw [if_pos he] at hconf
      obtain ⟨x, hins, hx, hcontact, hopen⟩ := hconf
      rw [he, if_pos (by simp)]
      refine ⟨x, ?_, hcontact, ?_⟩
      · show confirmations.rows.filter _ = [x]
        rw [Table.rows_insert hins, List.filter_append, List.filter_singleton, hx, decide_eq_true rfl]
        exact congrArg (· ++ [x]) hfresh.2.2
      · show x.status = confirmationAfter ((db.opened l loans confirmations g event notices).log l.id)
        rw [hlog, he, hopen]
        rfl
    · rw [if_neg he] at hconf
      have hnot : .guestConfirmationRequested ∉ (event.map LoanEvent.type).toList := by
        simpa using he
      rw [if_neg hnot]
      show confirmations.rows.filter _ = []
      rw [hconf]
      exact hfresh.2.2
  · intro ho
    obtain ⟨e, rfl, hd⟩ := o.dates ho
    have htype : e.type = .recordProposed := Option.some.inj (o.opening.record_event ho)
    show DatesChain ((db.opened l loans confirmations g (some e) notices).eventsOf l.id) l.dates
    rw [o.eventsOf, if_pos rfl, hfresh.1, List.nil_append, Option.toList_some]
    constructor
    · intro pre post e' heq hty
      have hmem : e' ∈ [e] := heq ▸ List.mem_append_right _ List.mem_cons_self
      rw [List.mem_singleton.mp hmem, htype] at hty
      cases hty
    · exact fun x hx => Or.inl (List.mem_singleton.mp hx ▸ htype)
    · rw [← List.nil_append [e], lastDates_concat, hd]
      cases l.dates <;> rfl

theorem Opens.occupancy (o : Opens db l loans confirmations c g event notices) (h : db.Coherent) :
    (db.opened l loans confirmations g event notices).occupancy =
      ⟨Function.update db.occupancy.shape l.copyId (some (g c).shape),
        Function.update db.occupancy.hold l.id
          ((l.demand (event.map LoanEvent.type).toList).map fun t => (l.copyId, t))⟩ := by
  refine Occupancy.State.ext (funext fun r => ?_) (funext fun id => ?_)
  · show ((db.copies.modify l.copyId g).find? r).map Copy.shape =
      Function.update db.occupancy.shape l.copyId (some (g c).shape) r
    rw [Table.find?_modify]
    by_cases hr : r = l.copyId
    · subst hr
      rw [if_pos rfl, o.find_copy, Function.update_self]
      rfl
    · rw [if_neg hr, Function.update_of_ne hr]
      rfl
  · show (loans.find? id).bind (fun x => (x.demand
        ((db.opened l loans confirmations g event notices).log id)).map fun t => (x.copyId, t)) =
      Function.update db.occupancy.hold l.id
        ((l.demand (event.map LoanEvent.type).toList).map fun t => (l.copyId, t)) id
    rw [Table.find?_insert o.insert]
    by_cases hid : id = l.id
    · subst hid
      rw [if_pos rfl, Function.update_self, o.log_own h]
      rfl
    · rw [if_neg hid, Function.update_of_ne hid, o.log_other hid]
      rfl

theorem Opens.confirmations_kept (o : Opens db l loans confirmations c g event notices) {id : ConfirmationId}
    {x : GuestLoanConfirmation} (hx : db.confirmations.find? id = some x) :
    ∃ x', confirmations.find? id = some x' ∧ x'.loanId = x.loanId := by
  have hconf := o.confirmations
  split at hconf
  · obtain ⟨y, hins, -⟩ := hconf
    refine ⟨x, ?_, rfl⟩
    rw [Table.find?_insert hins, if_neg, hx]
    rintro rfl
    rw [Table.find?_fresh hins] at hx
    cases hx
  · exact ⟨x, hconf ▸ hx, rfl⟩

/-- **Opening a loan keeps the invariant.** -/
theorem Db.Coherent.opened (h : db.Coherent)
    (o : Opens db l loans confirmations c g event notices) :
    db.Evolves (db.opened l loans confirmations g event notices) := by
  have hfresh := Table.find?_fresh o.insert
  have hne : ∀ {x}, x ∈ db.loans → x.id ≠ l.id := fun hx hid =>
    Table.fresh_of_insert o.insert _ hx hid
  have hkeep : ∀ {id x}, db.loans.find? id = some x →
      ∃ x', (db.opened l loans confirmations g event notices).loans.find? id = some x' := by
    intro id x hx
    refine ⟨x, ?_⟩
    show loans.find? id = some x
    rw [Table.find?_insert o.insert, if_neg, hx]
    rintro rfl
    rw [hfresh] at hx
    cases hx
  have hself : ∃ x', (db.opened l loans confirmations g event notices).loans.find? l.id = some x' :=
    ⟨l, Table.find?_of_mem ((Table.mem_insert o.insert).mpr (Or.inr rfl))⟩
  have hplaced : ∀ {r c'}, db.copies.find? r = some c' →
      ∃ c'', (db.opened l loans confirmations g event notices).copies.find? r = some c'' ∧
        c''.ownerId = c'.ownerId := by
    intro r c' hc'
    show ∃ c'', (db.copies.modify l.copyId g).find? r = some c'' ∧ _
    rw [Table.find?_modify]
    split
    · rename_i hr
      subst hr
      rw [o.find_copy]
      obtain rfl := Option.some.inj (o.find_copy.symm.trans hc')
      exact ⟨_, rfl, o.copy_owner⟩
    · exact ⟨c', hc', rfl⟩
  refine ⟨?_, fun hl => ⟨_, ?_, rfl, rfl, rfl⟩, o.confirmations_kept⟩
  constructor
  · intro x hx
    rcases (Table.mem_insert o.insert).mp hx with hx | rfl
    · refine (h.sound x hx).frame (f := id) rfl ?_ ?_ ?_ fun _ _ => ⟨rfl, rfl⟩
      · exact (o.eventsOf x.id).trans (if_neg (hne hx))
      · exact rejections_append o.silent x.id
      · rw [List.map_id]
        exact o.confirmationsOf_other (hne hx)
    · exact o.sound_own h
  · rw [o.occupancy h]
    refine Agrees.shift h.agrees (fun _ _ _ => hold_not_available) ?_ ?_ o.shift
    · show (db.loans.find? l.id).bind _ = _
      rw [hfresh]
      rfl
    · show (db.copies.find? l.copyId).map _ = _
      rw [o.find_copy]
      rfl
  · intro x hx r hr hcopy hs
    rcases (Table.mem_insert o.insert).mp hx with hmem | rfl
    · rcases (Table.mem_insert o.insert).mp hr with hr | rfl
      · exact h.no_rivals x hmem r hr hcopy hs
      · -- a request finds the copy available, so nothing on it is promised or away
        intro hreq
        have hfree := h.free_of_available (Table.mem_of_find? o.find_copy) (o.waiting hreq) x hmem
          (hcopy.trans (Table.key_of_find? o.find_copy).symm)
        have hex : x.status.isExclusive = true := by
          rcases hs with hs | hs <;> rw [hs] <;> rfl
        obtain ⟨t, ht⟩ := Loan.demand_of_exclusive (db.log x.id) hex
        rw [hfree] at ht
        cases ht
    · have hs' : x.status = .handedOver := hs.resolve_left o.opening.status_cases.1
      rcases (Table.mem_insert o.insert).mp hr with hr | rfl
      · exact o.alone hs' r hr hcopy.symm
      · rw [hs']
        decide
  · intro x hx
    rcases (Table.mem_insert o.insert).mp hx with hx | rfl
    · obtain ⟨c', hc', hown⟩ := h.placed x hx
      obtain ⟨c'', hc'', hown'⟩ := hplaced hc'
      exact ⟨c'', hc'', hown'.trans hown⟩
    · obtain ⟨c'', hc'', hown'⟩ := hplaced o.find_copy
      exact ⟨c'', hc'', hown'.trans o.owner⟩
  · intro x hx
    obtain ⟨c', hc', rfl⟩ := Table.mem_modify.mp hx
    split
    · rename_i hid
      obtain rfl := Option.some.inj ((Table.find?_of_mem hc').symm.trans (hid ▸ o.find_copy))
      rw [o.copy_owner]
      exact h.owned c' hc'
    · exact h.owned c' hc'
  · intro x hx
    rcases (Table.mem_insert o.insert).mp hx with hx | rfl
    · exact h.known x hx
    · exact o.known
  · intro e he
    rcases List.mem_append.mp he with he | he
    · exact (h.event_loan e he).elim fun _ hx => hkeep hx
    · rw [o.named e (Option.mem_toList.mp he)]
      exact hself
  · intro n hn ht
    rcases List.mem_append.mp hn with hn | hn
    · exact (h.notice_loan n hn ht).elim fun _ hx => hkeep hx
    · exact absurd ht (o.silent n hn)
  · have hconf := o.confirmations
    intro x hx
    split at hconf
    · obtain ⟨y, hins, hy, -⟩ := hconf
      rcases (Table.mem_insert hins).mp hx with hx | rfl
      · exact (h.confirmation_loan x hx).elim fun _ hx => hkeep hx
      · rw [hy]
        exact hself
    · have hx' : x ∈ db.confirmations := hconf ▸ hx
      exact (h.confirmation_loan x hx').elim fun _ hx => hkeep hx
  · show loans.find? _ = _
    rw [Table.find?_insert o.insert, if_neg, hl]
    rintro rfl
    rw [hfresh] at hl
    cases hl

end Opened

/-! ## The rivals on a copy are rejected -/

section Rejected

variable {copyId : CopyId} {spared : Option LoanId} {actorId : UserId} {now : Time}

/-- A rival, by its columns. -/
theorem Loan.isRival_iff {l : Loan} :
    l.isRival copyId spared = true ↔ l.copyId = copyId ∧ l.status = .requested ∧
      l.origin = .requested ∧ l.borrowerKind = .registered ∧ some l.id ≠ spared := by
  simp [Loan.isRival, Loan.isRequestFlowRequested, and_assoc]

/-- The notices of the rivals: one to each, about itself. -/
theorem rejectionsOf_withRejected (actorId : UserId) (now : Time)
    (hb : ∀ l ∈ db.rivals copyId spared, l.borrowerId ≠ none)
    {l : Loan} (hl : l ∈ db.loans) :
    (l.isRival copyId spared = true → ∃ b, l.borrowerId = some b ∧
      (db.withRejected copyId spared actorId now).rejectionsOf l.id =
        db.rejectionsOf l.id ++ [rejectionNotice copyId actorId l.id b]) ∧
    (l.isRival copyId spared = false →
      (db.withRejected copyId spared actorId now).rejectionsOf l.id = db.rejectionsOf l.id) := by
  -- the notices about `l` come from the rivals that are `l`
  have hswap : ∀ rs : List Loan,
      (rs.filterMap fun r => r.borrowerId.map (rejectionNotice copyId actorId r.id)).filter
        (Notification.isRejectionOf l.id) =
      (rs.filter fun r => r.id = l.id).filterMap fun r =>
        r.borrowerId.map (rejectionNotice copyId actorId r.id) := by
    intro rs
    induction rs with
    | nil => rfl
    | cons r rs ih =>
      cases hr : r.borrowerId with
      | none => by_cases hid : r.id = l.id <;> simp [hr, hid, ih]
      | some b =>
        by_cases hid : r.id = l.id <;>
          simp [hr, hid, ih, Notification.isRejectionOf, rejectionNotice,
            NotificationPayload.loanId]
  have hself : (db.rivals copyId spared).filter (fun r => r.id = l.id) =
      [l].filter (Loan.isRival copyId spared) := by
    rw [Db.rivals, List.filter_comm, Table.filter_rows_key, Table.find?_of_mem hl,
      Option.toList_some]
  have hnotices : (db.withRejected copyId spared actorId now).rejectionsOf l.id =
      db.rejectionsOf l.id ++ ([l].filter (Loan.isRival copyId spared)).filterMap fun r =>
        r.borrowerId.map (rejectionNotice copyId actorId r.id) := by
    rw [← hself, ← hswap]
    exact List.filter_append ..
  constructor
  · intro hr
    obtain ⟨b, hborrower⟩ := Option.ne_none_iff_exists'.mp (hb l (Db.mem_rivals.mpr ⟨hl, hr⟩))
    refine ⟨b, hborrower, ?_⟩
    rw [hnotices, List.filter_singleton, hr]
    simp [hborrower]
  · intro hr
    rw [hnotices, List.filter_singleton, hr]
    simp

/-- A rejected loan, or another one as it was. -/
theorem mem_withRejected {x : Loan} :
    x ∈ (db.withRejected copyId spared actorId now).loans ↔
      ∃ l ∈ db.loans, (if l.isRival copyId spared then Loan.rejectedAt now l else l) = x :=
  Table.mem_updateWhere

theorem rejectedAt_sameParties (l : Loan) : l.SameParties (Loan.rejectedAt now l) :=
  ⟨rfl, rfl, rfl, rfl, rfl, rfl, rfl, rfl⟩

/-- **Rejecting the rivals keeps the invariant.** -/
theorem Db.Coherent.rejected (h : db.Coherent) (actorId : UserId) (now : Time)
    (hb : ∀ l ∈ db.rivals copyId spared, l.borrowerId ≠ none) :
    db.Evolves (db.withRejected copyId spared actorId now) := by
  have hfind : ∀ id, (db.withRejected copyId spared actorId now).loans.find? id =
      (db.loans.find? id).map fun l =>
        if l.isRival copyId spared then Loan.rejectedAt now l else l :=
    fun id => Table.find?_updateWhere id
  have hkeep : ∀ {id}, (∃ x, db.loans.find? id = some x) →
      ∃ x', (db.withRejected copyId spared actorId now).loans.find? id = some x' := by
    rintro id ⟨x, hx⟩
    rw [hfind, hx]
    exact ⟨_, rfl⟩
  refine ⟨?_, fun {id l} hl => ?_, fun hg => ⟨_, hg, rfl⟩⟩
  swap
  · rw [hfind, hl]
    refine ⟨_, rfl, ?_⟩
    by_cases hr : l.isRival copyId spared = true
    · simp only [hr, if_true]
      exact ⟨rfl, rfl, rfl⟩
    · simp only [hr]
      exact ⟨rfl, rfl, rfl⟩
  constructor
  · intro x hx
    obtain ⟨l, hl, rfl⟩ := mem_withRejected.mp hx
    have hrejections := rejectionsOf_withRejected actorId now hb hl
    have s := h.sound l hl
    by_cases hr : l.isRival copyId spared = true
    · rw [if_pos hr]
      obtain ⟨hcopy, hstatus, horigin, hkind, -⟩ := Loan.isRival_iff.mp hr
      obtain ⟨b, hborrower, hnotices⟩ := hrejections.1 hr
      have hnone : db.rejectionsOf l.id = [] :=
        s.rejections.of_other (show l.status ≠ .rejected by rw [hstatus]; decide)
      have htrail : Trail l.origin (db.log l.id) l.status := s.trail
      rw [horigin, hstatus] at htrail
      refine ⟨?_, ?_, s.requested, ?_, ?_, ?_, ?_, ?_⟩
      · show Trail l.origin (db.log l.id) .rejected
        have := htrail.stepped .reject
        rwa [Option.toList_none, List.append_nil, ← horigin] at this
      · refine Loan.PartiesValid.step s.parties (rejectedAt_sameParties l) ?_
        intro _ hs
        cases hs
      · rintro (ho | hs)
        · exact absurd horigin ho
        · cases hs
      · intro hs
        cases hs
      · refine .rejected actorId rfl (Option.some_ne_none now) hborrower ?_
        show (db.withRejected copyId spared actorId now).rejectionsOf l.id =
          [rejectionNotice l.copyId actorId l.id b]
        rw [hnotices, hnone, hcopy, List.nil_append]
      · exact s.confirmations
      · intro ho
        rw [show l.origin = .recordedExisting from ho] at horigin
        cases horigin
    · rw [if_neg hr]
      refine s.frame (f := id) rfl rfl (hrejections.2 (Bool.eq_false_iff.mpr hr)) ?_
        fun _ _ => ⟨rfl, rfl⟩
      rw [List.map_id]
      rfl
  · have hocc : (db.withRejected copyId spared actorId now).occupancy = db.occupancy := by
      refine Occupancy.State.ext rfl (funext fun id => ?_)
      show ((db.withRejected copyId spared actorId now).loans.find? id).bind (fun l =>
        (l.demand (db.log id)).map fun t => (l.copyId, t)) = (db.loans.find? id).bind fun l =>
        (l.demand (db.log id)).map fun t => (l.copyId, t)
      rw [hfind]
      cases db.loans.find? id with
      | none => rfl
      | some l =>
        by_cases hr : l.isRival copyId spared = true
        · have hs := (Loan.isRival_iff.mp hr).2.1
          simp [hr, Loan.demand, hs, Loan.rejectedAt]
        · simp [hr]
    rw [hocc]
    exact h.agrees
  · intro x hx r hr hcopy hs
    obtain ⟨l, hl, rfl⟩ := mem_withRejected.mp hx
    obtain ⟨m, hm, rfl⟩ := mem_withRejected.mp hr
    by_cases hrl : l.isRival copyId spared = true
    · rw [if_pos hrl] at hs
      rcases hs with hs | hs <;> cases hs
    · by_cases hrm : m.isRival copyId spared = true
      · rw [if_pos hrm]
        intro hnot
        cases hnot
      · rw [if_neg hrl] at hcopy hs
        rw [if_neg hrm] at hcopy ⊢
        exact h.no_rivals l hl m hm hcopy hs
  · intro x hx
    obtain ⟨l, hl, rfl⟩ := mem_withRejected.mp hx
    split <;> exact h.placed l hl
  · exact h.owned
  · intro x hx
    obtain ⟨l, hl, rfl⟩ := mem_withRejected.mp hx
    split <;> exact h.known l hl
  · exact fun e he => hkeep (h.event_loan e he)
  · intro n hn ht
    rcases List.mem_append.mp hn with hn | hn
    · exact hkeep (h.notice_loan n hn ht)
    · obtain ⟨l, hl, hn⟩ := List.mem_filterMap.mp hn
      obtain ⟨b, -, rfl⟩ := Option.map_eq_some_iff.mp hn
      exact hkeep ⟨l, Table.find?_of_mem (Db.mem_rivals.mp hl).1⟩
  · exact fun x hx => hkeep (h.confirmation_loan x hx)

/-- The same under a condition. -/
theorem Db.Coherent.rejectedWhen (h : db.Coherent) {c : Bool}
    (hb : c = true → ∀ l ∈ db.rivals copyId spared, l.borrowerId ≠ none) :
    db.Evolves (db.withRejectedWhen c copyId spared actorId now) := by
  cases c with
  | false => exact h.refl
  | true => exact h.rejected actorId now (hb rfl)

/-- After the rejection no request waits on the copy but the spared one. -/
theorem no_request_withRejected (h : db.Coherent) :
    ∀ r ∈ (db.withRejected copyId spared actorId now).loans, r.copyId = copyId →
      some r.id ≠ spared → r.status ≠ .requested := by
  intro r hr hcopy hspared hreq
  obtain ⟨l, hl, rfl⟩ := mem_withRejected.mp hr
  by_cases hrl : l.isRival copyId spared = true
  · rw [if_pos hrl] at hreq
    cases hreq
  · rw [if_neg hrl] at hreq hcopy hspared
    have htrail : Trail l.origin (db.log l.id) l.status := (h.sound l hl).trail
    have horigin : l.origin = .requested := htrail.origin_of_requested hreq
    have hkind : l.borrowerKind = .registered := by
      cases hk : l.borrowerKind with
      | registered => rfl
      | guest =>
        have hguest : l.origin = .recordedGuest := ((h.sound l hl).parties.guest hk).1
        rw [horigin] at hguest
        cases hguest
    exact hrl (Loan.isRival_iff.mpr ⟨hcopy, hreq, horigin, hkind, hspared⟩)

end Rejected

/-! ## The shelf -/

/-- **A change on the shelf keeps the invariant**: the copy shows the same, or nobody has a
claim on it and it stays idle. -/
theorem Db.Coherent.shelved (h : db.Coherent) {copyId : CopyId} {c : Copy} {g : Table.Edit Copy.id}
    (hc : db.copies.find? copyId = some c) (hown : (g c).ownerId = c.ownerId)
    (hg : (g c).shape = c.shape ∨ ((∀ l ∈ db.loans, l.copyId = copyId →
      l.demand (db.log l.id) = none) ∧ (c.shape.Idle → (g c).shape.Idle))) :
    db.Evolves { db with copies := db.copies.modify copyId g } := by
  have hocc : ({ db with copies := db.copies.modify copyId g } : Db).occupancy =
      ⟨Function.update db.occupancy.shape copyId (some (g c).shape), db.occupancy.hold⟩ := by
    refine Occupancy.State.ext (funext fun r => ?_) rfl
    show ((db.copies.modify copyId g).find? r).map Copy.shape =
      Function.update db.occupancy.shape copyId (some (g c).shape) r
    rw [Table.find?_modify]
    by_cases hr : r = copyId
    · subst hr
      rw [if_pos rfl, hc, Function.update_self]
      rfl
    · rw [if_neg hr, Function.update_of_ne hr]
      rfl
  have hplaced : ∀ {r c'}, db.copies.find? r = some c' →
      ∃ c'', (db.copies.modify copyId g).find? r = some c'' ∧ c''.ownerId = c'.ownerId := by
    intro r c' hc'
    rw [Table.find?_modify]
    split
    · rename_i hr
      subst hr
      rw [hc]
      obtain rfl := Option.some.inj (hc.symm.trans hc')
      exact ⟨_, rfl, hown⟩
    · exact ⟨c', hc', rfl⟩
  refine ⟨⟨h.sound, ?_, h.no_rivals, ?_, ?_, h.known, h.event_loan, h.notice_loan,
    h.confirmation_loan⟩, fun hl => ⟨_, hl, rfl, rfl, rfl⟩, fun hg => ⟨_, hg, rfl⟩⟩
  · rw [hocc]
    have hshape : db.occupancy.shape copyId = some c.shape := shape_eq_some.mpr ⟨c, hc, rfl⟩
    rcases hg with hsame | ⟨hfree, hidle⟩
    · rw [hsame, ← hshape, Function.update_eq_self]
      exact h.agrees
    · have hnone : db.occupancy.Free copyId := by
        intro k t hk
        obtain ⟨l, hl, hcopy, ht⟩ := hold_eq_some.mp hk
        have hd := hfree l (Table.mem_of_find? hl) hcopy
        rw [Table.key_of_find? hl, ht] at hd
        cases hd
      exact h.agrees.settle hnone fun t ht =>
        Option.some.inj ht ▸ hidle (h.agrees.rest hshape hnone)
  · intro l hl
    obtain ⟨c', hc', ho⟩ := h.placed l hl
    obtain ⟨c'', hc'', ho'⟩ := hplaced hc'
    exact ⟨c'', hc'', ho'.trans ho⟩
  · intro x hx
    obtain ⟨c', hc', rfl⟩ := Table.mem_modify.mp hx
    split
    · rename_i hid
      obtain rfl := Option.some.inj ((Table.find?_of_mem hc').symm.trans (hid ▸ hc))
      rw [hown]
      exact h.owned c' hc'
    · exact h.owned c' hc'

/-- A loan lies on a copy that exists, so an unknown copy has none. -/
theorem Db.Coherent.no_loan_on (h : db.Coherent) {copyId : CopyId}
    (hc : db.copies.find? copyId = none) : db.occupancy.Free copyId := by
  intro k t hk
  obtain ⟨l, hl, rfl, -⟩ := hold_eq_some.mp hk
  obtain ⟨c, hc', -⟩ := h.placed l (Table.mem_of_find? hl)
  rw [hc] at hc'
  cases hc'

/-- **A new copy keeps the invariant.** -/
theorem Db.Coherent.added (h : db.Coherent) {c : Copy} {copies : Table Copy.id}
    (hins : db.copies.insert c = some copies) (hidle : c.shape.Idle)
    (hown : ∃ u, db.users.find? c.ownerId = some u) :
    db.Evolves { db with copies := copies } := by
  have hfresh := Table.find?_fresh hins
  have hocc : ({ db with copies := copies } : Db).occupancy =
      ⟨Function.update db.occupancy.shape c.id (some c.shape), db.occupancy.hold⟩ := by
    refine Occupancy.State.ext (funext fun r => ?_) rfl
    show (copies.find? r).map Copy.shape =
      Function.update db.occupancy.shape c.id (some c.shape) r
    rw [Table.find?_insert hins]
    by_cases hr : r = c.id
    · subst hr
      rw [if_pos rfl, Function.update_self]
      rfl
    · rw [if_neg hr, Function.update_of_ne hr]
      rfl
  refine ⟨⟨h.sound, ?_, h.no_rivals, ?_, ?_, h.known, h.event_loan, h.notice_loan,
    h.confirmation_loan⟩, fun hl => ⟨_, hl, rfl, rfl, rfl⟩, fun hg => ⟨_, hg, rfl⟩⟩
  · rw [hocc]
    exact h.agrees.settle (h.no_loan_on hfresh) fun t ht => Option.some.inj ht ▸ hidle
  · intro l hl
    obtain ⟨c', hc', ho⟩ := h.placed l hl
    refine ⟨c', ?_, ho⟩
    show copies.find? l.copyId = some c'
    rw [Table.find?_insert hins, if_neg, hc']
    intro hid
    rw [hid, hfresh] at hc'
    cases hc'
  · intro x hx
    rcases (Table.mem_insert hins).mp hx with hx | rfl
    · exact h.owned x hx
    · exact hown

/-- **Removing a copy without loans keeps the invariant.** -/
theorem Db.Coherent.removed (h : db.Coherent) {copyId : CopyId}
    (hnone : ∀ l ∈ db.loans, l.copyId ≠ copyId) :
    db.Evolves { db with copies := db.copies.filter fun c => c.id ≠ copyId } := by
  have hocc : ({ db with copies := db.copies.filter fun c => c.id ≠ copyId } : Db).occupancy =
      ⟨Function.update db.occupancy.shape copyId none, db.occupancy.hold⟩ := by
    refine Occupancy.State.ext (funext fun r => ?_) rfl
    show ((db.copies.filter fun c => c.id ≠ copyId).find? r).map Copy.shape =
      Function.update db.occupancy.shape copyId none r
    rw [Table.find?_filter]
    by_cases hr : r = copyId
    · subst hr
      rw [Function.update_self]
      cases hc : db.copies.find? r with
      | none => rfl
      | some c => simp [Table.key_of_find? hc]
    · rw [Function.update_of_ne hr]
      show _ = (db.copies.find? r).map Copy.shape
      cases hc : db.copies.find? r with
      | none => rfl
      | some c => simp [Table.key_of_find? hc, hr]
  have hfree : db.occupancy.Free copyId := by
    intro k t hk
    obtain ⟨l, hl, hcopy, -⟩ := hold_eq_some.mp hk
    exact hnone l (Table.mem_of_find? hl) hcopy
  refine ⟨⟨h.sound, ?_, h.no_rivals, ?_, ?_, h.known, h.event_loan, h.notice_loan,
    h.confirmation_loan⟩, fun hl => ⟨_, hl, rfl, rfl, rfl⟩, fun hg => ⟨_, hg, rfl⟩⟩
  · rw [hocc]
    exact h.agrees.settle hfree fun t ht => nomatch ht
  · intro l hl
    obtain ⟨c, hc, ho⟩ := h.placed l hl
    refine ⟨c, ?_, ho⟩
    show (db.copies.filter fun c => c.id ≠ copyId).find? l.copyId = some c
    rw [Table.find?_filter, hc]
    simp [Table.key_of_find? hc, hnone l hl]
  · intro x hx
    exact h.owned x (Table.mem_filter.mp hx).1

/-! ## Contacts are erased -/

/-- A shape without the erased contacts. -/
def Shape.forget (gone : ContactId → Bool) (s : Shape) : Shape :=
  { s with heldByContactId := Db.forget gone s.heldByContactId }

/-- A loan without the erased contacts. -/
def Loan.forget (gone : ContactId → Bool) (l : Loan) : Loan :=
  { l with borrowerContactId := Db.forget gone l.borrowerContactId }

/-- A loan whose contact is forgotten demands what it did, without the contact. -/
theorem Loan.demand_forget (gone : ContactId → Bool) (l : Loan) (log : List LoanEventType) :
    (l.forget gone).demand log = (l.demand log).map (Shape.forget gone) := by
  unfold Loan.demand
  show (match l.status with | _ => _) = _
  cases hs : l.status <;> simp only [Loan.forget, hs, Option.map_some, Option.map_none] <;>
    first | rfl | (split <;> rfl)

theorem forget_eq_some {gone : ContactId → Bool} {o : Option ContactId} {c : ContactId} :
    Db.forget gone o = some c ↔ o = some c ∧ gone c = false := by
  simp [Db.forget, Option.filter_eq_some_iff]

/-- A contact that stays is not forgotten. -/
theorem forget_of_kept {gone : ContactId → Bool} {o : Option ContactId} (hne : o ≠ none)
    (hkept : ∀ c, o = some c → gone c = false) : Db.forget gone o ≠ none := by
  obtain ⟨c, rfl⟩ := Option.ne_none_iff_exists'.mp hne
  rw [forget_eq_some.mpr ⟨rfl, hkept c rfl⟩]
  exact Option.some_ne_none c

/-- **Erasing contacts without active loans keeps the invariant.** -/
theorem Db.Coherent.erased (h : db.Coherent) {gone : ContactId → Bool}
    (hidle : ∀ l ∈ db.loans, ∀ c, l.borrowerContactId = some c → gone c = true →
      l.status.isExclusive = false) : db.Evolves (db.eraseContacts gone) := by
  have hfind : ∀ id, (db.eraseContacts gone).loans.find? id =
      (db.loans.find? id).map (Loan.forget gone) := fun id => Table.find?_map id
  have hcopies : ∀ id, (db.eraseContacts gone).copies.find? id = (db.copies.find? id).map
      fun c => { c with heldByContactId := Db.forget gone c.heldByContactId } :=
    fun id => Table.find?_map id
  have hmem : ∀ x, x ∈ (db.eraseContacts gone).loans ↔ ∃ l ∈ db.loans, l.forget gone = x :=
    fun x => Table.mem_map
  have hkeep : ∀ {id}, (∃ x, db.loans.find? id = some x) →
      ∃ x', (db.eraseContacts gone).loans.find? id = some x' := by
    rintro id ⟨x, hx⟩
    rw [hfind, hx]
    exact ⟨_, rfl⟩
  have hconf : ∀ id, (db.eraseContacts gone).confirmationsOf id = (db.confirmationsOf id).map
      fun g => { g with externalBorrowerId := Db.forget gone g.externalBorrowerId } :=
    fun id => confirmationsOf_map (fun _ _ => rfl) id
  refine ⟨?_, .of_map rfl (fun _ _ => ⟨rfl, rfl, rfl⟩) rfl fun _ _ => rfl⟩
  constructor
  · intro x hx
    obtain ⟨l, hl, rfl⟩ := (hmem x).mp hx
    have s := h.sound l hl
    refine ⟨s.trail, ?_, s.requested, s.handed, s.returned, ?_, ?_, s.dates⟩
    · refine ⟨fun hk => ?_, fun hk => ?_⟩
      · obtain ⟨ho, hb, hc⟩ := s.parties.registered hk
        exact ⟨ho, hb, congrArg (Db.forget gone) (show l.borrowerContactId = none from hc)⟩
      · obtain ⟨ho, hb, hc⟩ := s.parties.guest hk
        refine ⟨ho, hb, fun hex => forget_of_kept (hc hex) fun c hcontact => ?_⟩
        by_contra hgone
        have := hidle l hl c hcontact (Bool.not_eq_false _ ▸ hgone)
        rw [show l.status.isExclusive = true from hex] at this
        cases this
    · exact s.rejections
    · -- the contact is forgotten in the loan and in its confirmation alike
      have hmatch := s.confirmations
      unfold Dossier.ConfirmationsMatch at hmatch ⊢
      show if _ ∈ db.log l.id then _ else _
      by_cases hask : .guestConfirmationRequested ∈ db.log l.id
      · rw [if_pos hask]
        rw [if_pos (show _ ∈ (db.dossier l).log from hask)] at hmatch
        obtain ⟨g, hg, hcontact, hs⟩ := hmatch
        refine ⟨{ g with externalBorrowerId := Db.forget gone g.externalBorrowerId }, ?_, ?_, hs⟩
        · show (db.eraseContacts gone).confirmationsOf l.id = _
          rw [hconf, show db.confirmationsOf l.id = [g] from hg, List.map_singleton]
        · exact congrArg (Db.forget gone) hcontact
      · rw [if_neg hask]
        rw [if_neg (show _ ∉ (db.dossier l).log from hask)] at hmatch
        show (db.eraseContacts gone).confirmationsOf l.id = _
        rw [hconf, show db.confirmationsOf l.id = [] from hmatch, List.map_nil]
  · have hocc : (db.eraseContacts gone).occupancy =
        ⟨fun r => (db.occupancy.shape r).map (Shape.forget gone),
          fun k => (db.occupancy.hold k).map (Prod.map id (Shape.forget gone))⟩ := by
      refine Occupancy.State.ext (funext fun r => ?_) (funext fun k => ?_)
      · show ((db.eraseContacts gone).copies.find? r).map Copy.shape =
          ((db.copies.find? r).map Copy.shape).map (Shape.forget gone)
        rw [hcopies]
        cases db.copies.find? r <;> rfl
      · show ((db.eraseContacts gone).loans.find? k).bind (fun l =>
            (l.demand (db.log k)).map fun t => (l.copyId, t)) =
          ((db.loans.find? k).bind fun l =>
            (l.demand (db.log k)).map fun t => (l.copyId, t)).map (Prod.map id (Shape.forget gone))
        rw [hfind]
        cases db.loans.find? k with
        | none => rfl
        | some l =>
          simp only [Option.map_some, Option.bind_some, Loan.demand_forget, Option.map_map]
          rfl
    rw [hocc]
    refine h.agrees.relabel fun t ht => ⟨ht.status, ht.home, ?_⟩
    exact congrArg (Db.forget gone) ht.no_contact
  · intro x hx r hr hcopy hs
    obtain ⟨l, hl, rfl⟩ := (hmem x).mp hx
    obtain ⟨m, hm, rfl⟩ := (hmem r).mp hr
    exact h.no_rivals l hl m hm hcopy hs
  · intro x hx
    obtain ⟨l, hl, rfl⟩ := (hmem x).mp hx
    obtain ⟨c, hc, ho⟩ := h.placed l hl
    show ∃ c, (db.eraseContacts gone).copies.find? l.copyId = some c ∧ c.ownerId = l.ownerId
    rw [hcopies, hc]
    exact ⟨_, rfl, ho⟩
  · intro x hx
    obtain ⟨c, hc, rfl⟩ := Table.mem_map.mp hx
    exact h.owned c hc
  · intro x hx c hc
    obtain ⟨l, hl, rfl⟩ := (hmem x).mp hx
    obtain ⟨hcontact, hkept⟩ := forget_eq_some.mp (show Db.forget gone l.borrowerContactId = _ from hc)
    obtain ⟨k, hk⟩ := h.known l hl c hcontact
    refine ⟨k, ?_⟩
    show (db.contacts.filter fun c => !gone c.id).find? c = some k
    rw [Table.find?_filter, hk]
    simp [Table.key_of_find? hk, hkept]
  · exact fun e he => hkeep (h.event_loan e he)
  · exact fun n hn ht => hkeep (h.notice_loan n hn ht)
  · intro x hx
    obtain ⟨g, hg, rfl⟩ := Table.mem_map.mp hx
    exact hkeep (h.confirmation_loan g hg)

end Bookswap
