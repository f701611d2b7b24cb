import Bookswap.Loans.CoherenceRules
import Bookswap.Loans.LoanSpec

/-!
# LoanService keeps the invariant

`request` and `createRecorded` open a loan; an action rejects the rivals, if its row says
so, and then is a step of one loan (`runTransition_evolves`). What the step respects is
read off the twelve rows of the table, one lemma for each side: the life of the loan
(`TransitionRow.lifeStep`), the copy (`TransitionRow.shift`), the notices, the dates.
-/

namespace Bookswap

open Store

variable {db db' : Db} {now : Time}

/-- An edit that changes nothing. -/
def noEdit {α κ : Type} {key : α → κ} : Table.Edit key := ⟨id, fun _ => rfl⟩

theorem modify_noEdit {α κ : Type} [DecidableEq κ] {key : α → κ} (t : Table key) (k : κ) :
    t.modify k noEdit = t := Table.modify_eq_self fun _ _ _ => rfl

theorem map_noEdit {α κ : Type} {key : α → κ} (t : Table key) : t.map noEdit = t :=
  Table.map_eq_self fun _ _ => rfl

/-! ## Opening -/

/-- **A request keeps the invariant.** -/
theorem request_evolves {borrowerId : UserId} {req : CreateLoanRequest} {id : LoanId}
    (h : db.Coherent) (hok : request now borrowerId req id db = .ok db') : db.Evolves db' := by
  obtain ⟨copy, owner, loans, hcopy, -, g, hins, rfl⟩ := request_eq_ok.mp hok
  have o : Opens db (requestRow now borrowerId copy req id) loans db.confirmations copy noEdit none
      [⟨copy.ownerId, .loanRequested, .loan id copy.id borrowerId⟩] :=
    { insert := hins
      find_copy := Table.find?_of_mem (Table.mem_of_find? hcopy)
      owner := rfl
      copy_owner := rfl
      known := fun _ hk => nomatch hk
      named := fun _ he => nomatch he
      opening := .request
      parties := ⟨fun _ => ⟨(nomatch ·), ⟨borrowerId, rfl, g.not_self.symm⟩, rfl⟩,
        fun hk => nomatch hk⟩
      shift := .stay rfl rfl rfl
      waiting := fun _ => g.available
      alone := fun hs => nomatch hs
      requested := fun _ => Option.some_ne_none now
      handed := fun ho => absurd rfl ho
      silent := fun n hn => List.mem_singleton.mp hn ▸ (nomatch ·)
      dates := fun ho => nomatch ho
      confirmations := by simp }
  have := h.opened o
  rw [Db.opened, modify_noEdit, Option.toList_none, List.append_nil] at this
  exact this

/-- **A record keeps the invariant.** -/
theorem createRecorded_evolves {ownerId : UserId} {req : CreateRecordedLoanRequest} {id : LoanId}
    (h : db.Coherent) (hok : createRecorded now ownerId req id db = .ok db') : db.Evolves db' := by
  obtain ⟨copy, loans, hcopy, g, hins, rfl⟩ := createRecorded_eq_ok.mp hok
  have hother : req.borrowerId ≠ copy.ownerId := g.own.symm ▸ g.not_self
  have o : Opens db (recordedRow now copy req id) loans db.confirmations copy reserveEdit
      (some ⟨id, .recordProposed, some ownerId, now, none, .dates ⟨req.handedAt, req.dueAt⟩⟩)
      [⟨req.borrowerId, .loanRecordProposed, .loan id copy.id ownerId⟩] :=
    { insert := hins
      find_copy := Table.find?_of_mem (Table.mem_of_find? hcopy)
      owner := rfl
      copy_owner := rfl
      known := fun _ hk => nomatch hk
      named := fun _ he => Option.some.inj he ▸ rfl
      opening := .record
      parties := ⟨fun _ => ⟨(nomatch ·), ⟨req.borrowerId, rfl, hother⟩, rfl⟩,
        fun hk => nomatch hk⟩
      shift := .take _ rfl rfl g.free.available fun _ => by
        simp [Copy.shape, reserveEdit, recordedRow, g.free.home, g.free.no_contact]
      waiting := fun hs => nomatch hs
      alone := fun hs => nomatch hs
      requested := fun ho => nomatch ho
      handed := fun _ => Option.some_ne_none _
      silent := fun n hn => List.mem_singleton.mp hn ▸ (nomatch ·)
      dates := fun _ => ⟨_, rfl, (Loan.dates_of_days (d := ⟨req.handedAt, req.dueAt⟩) rfl rfl).symm⟩
      confirmations := by simp }
  exact h.opened o

/-! ## The rows of the table as steps of a life -/

section Rows

variable {status : LoanStatus} {action : LoanAction} {actor : LoanActor} {origin : LoanOrigin}
  {outcome : LoanTransition}

/-- Every row is a step of the loan's life. -/
theorem TransitionRow.lifeStep (row : TransitionRow status action actor origin outcome)
    {log : List LoanEventType} (hrec : outcome.event = some .recovered → .recovered ∉ log) :
    LifeStep log origin status outcome.event outcome.toStatus := by
  cases row with
  | confirmRecord => exact .confirmRecord
  | declineRecord => exact .declineRecord
  | withdrawRecord => exact .withdrawRecord
  | amendRecord => exact .amendRecord
  | approve => exact .approve
  | reject => exact .reject
  | cancelRequest => exact .cancelRequest
  | cancelApproved actor => exact .cancelApproved
  | handOver => exact .handOver
  | returnBook origin ho =>
    cases origin with
    | requested => exact .returnRequested
    | recordedExisting => exact .returnRecorded (by decide)
    | recordedGuest => exact absurd rfl ho
  | markLost origin ho => exact .markLost
  | recover origin ho => exact .recover (hrec rfl)

/-- No row of a registered loan moves a confirmation. -/
theorem TransitionRow.event_not_guest (row : TransitionRow status action actor origin outcome) :
    ∀ e ∈ outcome.event, e.movesConfirmation = false := by
  cases row with
  | returnBook origin ho =>
    cases origin <;> intro e he <;> cases he
    rfl
    rfl
  | approve => exact fun e he => nomatch he
  | reject => exact fun e he => nomatch he
  | cancelRequest => exact fun e he => nomatch he
  | cancelApproved actor => exact fun e he => nomatch he
  | handOver => exact fun e he => nomatch he
  | _ => exact fun e he => Option.some.inj he ▸ rfl

/-- Only a rejection stamps an answer to a rejected loan, and only it sends `LOAN_REJECTED`. -/
theorem TransitionRow.rejects (row : TransitionRow status action actor origin outcome) :
    if outcome.toStatus = .rejected then outcome = .reject
    else ∀ n ∈ outcome.notify, n.type ≠ .loanRejected := by
  cases row with
  | reject => rfl
  | cancelRequest => exact fun n hn => nomatch hn
  | markLost origin ho => exact fun n hn => nomatch hn
  | recover origin ho => exact fun n hn => nomatch hn
  | _ => exact fun n hn => Option.some.inj hn ▸ (nomatch ·)

/-- A loan becomes promised or lent by a row that rejects the rivals, or was promised. -/
theorem TransitionRow.alone (row : TransitionRow status action actor origin outcome)
    (hs : outcome.toStatus = .approved ∨ outcome.toStatus = .handedOver) :
    status = .approved ∨ outcome.rejectRivals = true := by
  cases row <;> first
    | exact Or.inl rfl
    | exact Or.inr rfl
    | (rcases hs with hs | hs <;> cases hs)

/-- A handover is stamped, or was recorded with its date. -/
theorem TransitionRow.stampsHanded (row : TransitionRow status action actor origin outcome)
    (hs : outcome.toStatus = .handedOver) :
    origin = .recordedExisting ∨ (outcome.stamp = some .handedAt ∧ status ≠ .handedOver) := by
  cases row <;> first
    | exact Or.inl rfl
    | exact Or.inr ⟨rfl, by decide⟩
    | cases hs

/-- A return is stamped. -/
theorem TransitionRow.stampsReturned (row : TransitionRow status action actor origin outcome)
    (hs : outcome.toStatus = .returned) :
    outcome.stamp = some .returnedAt ∧ status ≠ .returned := by
  cases row <;> first
    | exact ⟨rfl, by decide⟩
    | cases hs

/-- On a recorded loan no row but the amendment touches the dates. -/
theorem TransitionRow.keepsDates (row : TransitionRow status action actor origin outcome)
    (ho : origin = .recordedExisting) (hev : outcome.event ≠ some .recordAmended) :
    outcome.stamp ≠ some .handedAt ∧ action ≠ .approve ∧ action ≠ .amendRecord := by
  cases row with
  | amendRecord => exact absurd rfl hev
  | returnBook origin _ => exact ⟨by simp [LoanTransition.returnBook], by decide, by decide⟩
  | handOver => cases ho
  | approve => cases ho
  | _ => exact ⟨by decide, by decide, by decide⟩

/-- **The copy follows the loan**: from the state the row requires to the one the loan
demands afterwards. -/
theorem TransitionRow.shift (row : TransitionRow status action actor origin outcome)
    {s : ServedLoan} {copy : Copy} {log : List LoanEventType} (hs : s.row.status = status)
    (hcontact : s.row.borrowerContactId = none) (hown : copy.ownerId = s.row.ownerId)
    (hready : ∀ p ∈ outcome.requires, p.holds s copy) (hlog : status ≠ .lost → .recovered ∉ log)
    (hrec : outcome.event = some .recovered → .recovered ∉ log) :
    Shift (s.row.demand log)
      (({ s.row with status := outcome.toStatus } : Loan).demand (log ++ outcome.event.toList))
      copy.shape (copyEdit outcome s copy).shape := by
  have hkind := s.registered
  have hborrower := s.row_borrowerId
  -- the three shapes a registered loan can demand
  let reserved : Shape := ⟨s.row.ownerId, .reserved, some s.row.ownerId, none⟩
  let lent : Shape := ⟨s.row.ownerId, .lentOut, some s.borrowerId, none⟩
  let away : Shape := ⟨s.row.ownerId, .unavailable, some s.borrowerId, none⟩
  have hshape : ∀ {t : Shape}, copy.shape = t → copy.ownerId = t.ownerId ∧
      copy.status = t.status ∧ copy.currentHolderId = t.currentHolderId ∧
      copy.heldByContactId = t.heldByContactId := by
    rintro t rfl
    exact ⟨rfl, rfl, rfl, rfl⟩
  cases row with
  | confirmRecord =>
    refine .carry reserved lent (by simp [Loan.demand, hs, hkind, reserved])
      (by simp [Loan.demand, LoanTransition.confirmRecord, hborrower, hcontact, lent]) fun he => ?_
    obtain ⟨-, -, -, hc⟩ := hshape he
    simp [Copy.shape, copyEdit, LoanTransition.confirmRecord, ServedLoan.holderIdOf, hown, hc, lent,
      reserved]
  | declineRecord =>
    refine .free reserved (by simp [Loan.demand, hs, hkind, reserved]) rfl fun he => ?_
    obtain ⟨-, -, hh, hc⟩ := hshape he
    exact ⟨Or.inl rfl, hh.trans (congrArg some hown.symm), hc⟩
  | withdrawRecord =>
    refine .free reserved (by simp [Loan.demand, hs, hkind, reserved]) rfl fun he => ?_
    obtain ⟨-, -, hh, hc⟩ := hshape he
    exact ⟨Or.inl rfl, hh.trans (congrArg some hown.symm), hc⟩
  | amendRecord =>
    exact .carry reserved reserved (by simp [Loan.demand, hs, hkind, reserved])
      (by simp [Loan.demand, LoanTransition.amendRecord, hkind, reserved]) fun he => he
  | approve =>
    obtain ⟨hav, hhome⟩ := hready _ rfl
    refine .take reserved (by simp [Loan.demand, hs]) rfl hav fun hidle => ?_
    have hc : copy.heldByContactId = none := hidle.no_contact
    simp [Copy.shape, copyEdit, LoanTransition.approve, hown, hhome, hc, ServedLoan.holderIdOf,
      reserved]
  | reject => exact .stay (by simp [Loan.demand, hs]) rfl rfl
  | cancelRequest => exact .stay (by simp [Loan.demand, hs]) rfl rfl
  | cancelApproved actor =>
    refine .free reserved (by simp [Loan.demand, hs, reserved]) rfl fun he => ?_
    obtain ⟨-, -, hh, hc⟩ := hshape he
    exact ⟨Or.inl rfl, hh.trans (congrArg some hown.symm), hc⟩
  | handOver =>
    refine .carry reserved lent (by simp [Loan.demand, hs, reserved])
      (by simp [Loan.demand, LoanTransition.handOver, hborrower, hcontact, lent]) fun he => ?_
    obtain ⟨-, -, -, hc⟩ := hshape he
    simp [Copy.shape, copyEdit, LoanTransition.handOver, ServedLoan.holderIdOf, hown, hc, lent,
      reserved]
  | returnBook origin ho =>
    exact .free lent (by simp [Loan.demand, hs, hborrower, hcontact, lent]) rfl fun _ =>
      ⟨Or.inl rfl, congrArg some hown.symm, rfl⟩
  | markLost origin ho =>
    refine .carry lent away (by simp [Loan.demand, hs, hborrower, hcontact, lent]) ?_ fun he => ?_
    · simp [Loan.demand, LoanTransition.markLost, hborrower, hcontact, away,
        hlog (by decide)]
    · obtain ⟨-, -, hh, hc⟩ := hshape he
      simp [Copy.shape, copyEdit, LoanTransition.markLost, hown, hh, hc, lent, away]
  | recover origin ho =>
    refine .free away (by simp [Loan.demand, hs, hborrower, hcontact, away, hrec rfl]) ?_ fun _ =>
      ⟨Or.inl rfl, congrArg some hown.symm, rfl⟩
    simp [Loan.demand, LoanTransition.recover]

end Rows

/-! ## apply -/

section Apply

variable {actorId : UserId} {loanId : LoanId} {req : UpdateLoanRequest} {s : ServedLoan}
  {copy : Copy} {outcome : LoanTransition}

theorem transitionEvent_type :
    (transitionEvent outcome req now s.row actorId).map LoanEvent.type = outcome.event := by
  unfold transitionEvent
  cases outcome.event <;> rfl

theorem transitionEvent_loanId :
    ∀ e ∈ transitionEvent outcome req now s.row actorId, e.loanId = s.row.id := by
  intro e he
  obtain ⟨type, -, rfl⟩ := Option.map_eq_some_iff.mp he
  rfl

theorem withRivalsOf_events : (db.withRivalsOf outcome s.row now).events = db.events := by
  unfold Db.withRivalsOf Db.withRejectedWhen
  split <;> rfl

theorem withRivalsOf_copies : (db.withRivalsOf outcome s.row now).copies = db.copies := by
  unfold Db.withRivalsOf Db.withRejectedWhen
  split <;> rfl

theorem withRivalsOf_log (id : LoanId) :
    (db.withRivalsOf outcome s.row now).log id = db.log id := by
  rw [Db.log, Db.eventsOf, withRivalsOf_events]
  rfl

/-- The event is new in the log of the loan, when it is a recovery. -/
theorem TransitionGuards.not_recovered
    (g : TransitionGuards db now actorId loanId req s copy outcome) :
    outcome.event = some .recovered → .recovered ∉ db.log s.row.id := by
  intro hev hmem
  obtain ⟨e, he, htype⟩ := List.mem_map.mp hmem
  obtain ⟨hmem, hid⟩ := List.mem_filter.mp he
  have hfirst := (g.recoverable hev).first
  rw [Db.hasEvent_iff.mpr ⟨e, hmem, of_decide_eq_true hid, htype⟩] at hfirst
  cases hfirst

/-- How the dates of a recorded loan go on. -/
theorem TransitionGuards.datesStep
    (g : TransitionGuards db now actorId loanId req s copy outcome)
    (ho : s.row.origin = .recordedExisting) :
    DatesStep s.row.dates (transitionEvent outcome req now s.row actorId)
      (loanEdit outcome req now s.row s.row).dates := by
  by_cases hev : outcome.event = some .recordAmended
  · obtain ⟨dates, hd, -⟩ := g.amendable hev
    have hbefore : s.row.dates = some dates.1 := by
      obtain ⟨handedOn, hh, rfl⟩ := Option.map_eq_some_iff.mp hd
      rw [Loan.dates, hh]
      rfl
    rw [transitionEvent, hev]
    simp only [Option.map_some, DatesStep, if_true, hd, loanEdit, hev]
    exact ⟨dates.1, dates.2, rfl, hbefore, Loan.dates_of_days rfl rfl⟩
  · obtain ⟨hstamp, hnotApprove, hnotAmend⟩ := g.row.keepsDates ho hev
    have hdue : req.dueAt = none := by
      by_contra hne
      rcases req.dueAt_with hne with h | h
      · exact hnotApprove h
      · exact hnotAmend h
    have hkeep : (loanEdit outcome req now s.row s.row).dates = s.row.dates := by
      rw [loanEdit, if_neg hev]
      split
      · simp [Loan.dates, transitionEdit, hstamp, hdue]
      · rfl
    rw [hkeep]
    unfold transitionEvent
    cases h : outcome.event with
    | none => rfl
    | some type =>
      have htype : type ≠ .recordAmended := fun ht => hev (h.trans (congrArg some ht))
      simp [DatesStep, htype]

/-- A step of an action respects what the invariant asks of a step. -/
theorem TransitionGuards.moves (h : db.Coherent)
    (g : TransitionGuards db now actorId loanId req s copy outcome) :
    Moves (db.withRivalsOf outcome s.row now) s.row (loanEdit outcome req now s.row) copy
      (copyEdit outcome s) noEdit (transitionEvent outcome req now s.row actorId)
      (transitionNotices outcome s actorId) := by
  have hl : db.loans.find? s.row.id = some s.row :=
    Table.find?_of_mem (Table.mem_of_find? g.find_loan)
  have sound := h.sound s.row (Table.mem_of_find? g.find_loan)
  have hparties := sound.parties.registered s.registered
  have hstatus := g.row.loanEdit_status rfl req now
  have hsame := loanEdit_sameParties outcome req now s.row s.row
  have htrail : Trail s.row.origin (db.log s.row.id) s.row.status := sound.trail
  constructor
  case mem => exact Table.mem_of_find? (find?_withRivalsOf hl)
  case find_copy =>
    rw [withRivalsOf_copies]
    exact g.find_copy
  case parties => exact hsame
  case copy_owner => rfl
  case named => exact transitionEvent_loanId
  case life =>
    rw [transitionEvent_type, hstatus, withRivalsOf_log]
    exact g.row.lifeStep g.not_recovered
  case shift =>
    rw [transitionEvent_type, withRivalsOf_log,
      Loan.demand_congr hsame.ownerId hsame.borrowerKind hsame.borrowerId hsame.borrowerContactId,
      hstatus]
    exact g.row.shift rfl hparties.2.2 g.owner_eq.symm g.ready htrail.not_recovered g.not_recovered
  case alone =>
    intro hs
    rw [hstatus] at hs
    rcases g.row.alone hs with ha | hr
    · exact Or.inl ha
    · refine Or.inr (Or.inr fun r hr' hcopy hid => ?_)
      unfold Db.withRivalsOf Db.withRejectedWhen at hr'
      rw [if_pos hr] at hr'
      exact no_request_withRejected h r hr' hcopy fun he => hid (Option.some.inj he)
  case handed =>
    intro hh
    by_cases hne : s.row.handedAt = none
    · -- handed over now, and not a record: the moment is stamped
      have hs := hh.resolve_left (not_not.mpr hne)
      rw [hstatus] at hs
      rcases g.row.stampsHanded hs with ho | ⟨hstamp, hfrom⟩
      · exact absurd hne (sound.handed (Or.inl fun hreq => nomatch ho.symm.trans hreq))
      · have hev : outcome.event ≠ some .recordAmended := fun hev => by
          obtain ⟨-, rfl⟩ := g.row.of_amended hev
          cases hstamp
        rw [loanEdit, if_neg hev, if_pos (by rw [hs]; exact hfrom.symm)]
        simp [transitionEdit, hstamp]
    · exact loanEdit_handedAt hne
  case returned =>
    intro hs
    rw [hstatus] at hs
    obtain ⟨hstamp, hfrom⟩ := g.row.stampsReturned hs
    have hev : outcome.event ≠ some .recordAmended := fun hev => by
      obtain ⟨-, rfl⟩ := g.row.of_amended hev
      cases hstamp
    rw [loanEdit, if_neg hev, if_pos (by rw [hs]; exact hfrom.symm)]
    simp [transitionEdit, hstamp]
  case rejection =>
    have hrej := g.row.rejects
    rw [hstatus]
    by_cases hs : outcome.toStatus = .rejected
    · rw [if_pos hs] at hrej ⊢
      subst hrej
      refine ⟨?_, s.borrowerId, actorId, s.row_borrowerId, rfl⟩
      have hfrom : s.row.status ≠ .rejected := (g.row.lifeStep g.not_recovered).not_rejected
      rw [loanEdit, if_neg (by decide), if_pos (by rw [hs]; exact hfrom.symm)]
      exact Option.some_ne_none now
    · rw [if_neg hs] at hrej ⊢
      intro n hn
      obtain ⟨notice, hnotice, rfl⟩ := Option.map_eq_some_iff.mp (Option.mem_toList.mp hn)
      exact hrej notice hnotice
  case dates => exact g.datesStep
  case confirmation_loan => exact fun _ _ => rfl
  case confirmation_contact => exact fun _ _ => rfl
  case confirmation_other => exact fun _ _ _ => rfl
  case confirmation_own =>
    intro x _ _ hx
    rw [transitionEvent_type, confirmationAfter_append g.row.event_not_guest]
    exact hx

/-- **Every action of LoanService keeps the invariant.** -/
theorem runTransition_evolves (h : db.Coherent)
    (hok : runTransition now actorId loanId req db = .ok db') : db.Evolves db' := by
  obtain ⟨s, copy, outcome, g, rfl⟩ := runTransition_eq_ok.mp hok
  have hrejected : db.Evolves (db.withRivalsOf outcome s.row now) :=
    h.rejectedWhen g.rivals_registered
  have := hrejected.trans (hrejected.coherent.moved (g.moves h))
  have hid : copy.id = s.row.copyId := Table.key_of_find? g.find_copy
  rw [Db.moved, map_noEdit, withRivalsOf_copies, ← hid] at this
  exact this

end Apply

end Bookswap
