import Bookswap.Lib.Occupancy
import Bookswap.Loans.Lifecycle
import Bookswap.Loans.Rivals

/-!
# The dossier of a loan

What the tables hold about one loan: its row, its events, the rejections it was sent and
the confirmation of its handover. `Dossier.Sound` says that these agree: the events
replay the status, a rejected loan and no other has a rejection, the confirmation is
where the log says. `Loan.demand` is what the loan imposes on its copy meanwhile.
-/

namespace Bookswap

open Store

/-! ## What a loan imposes on its copy -/

/-- What the shelf shows of a copy: where it is, and for whom. -/
structure Shape where
  ownerId : UserId
  status : CopyStatus
  currentHolderId : Option UserId
  heldByContactId : Option ContactId
  deriving DecidableEq

def Copy.shape (c : Copy) : Shape := ⟨c.ownerId, c.status, c.currentHolderId, c.heldByContactId⟩

/-- A copy nobody has a claim on: at home, lendable or not. -/
structure Shape.Idle (s : Shape) : Prop where
  status : s.status = .available ∨ s.status = .unavailable
  home : s.currentHolderId = some s.ownerId
  no_contact : s.heldByContactId = none

/-- The shape a loan with this log imposes on its copy. A loss that was not recovered keeps
the copy away; any other closed loan imposes nothing. -/
def Loan.demand (l : Loan) (log : List LoanEventType) : Option Shape :=
  match l.status with
  | .approved => some ⟨l.ownerId, .reserved, some l.ownerId, none⟩
  | .pendingConfirmation =>
    if l.borrowerKind = .registered then some ⟨l.ownerId, .reserved, some l.ownerId, none⟩
    else some ⟨l.ownerId, .reserved, none, l.borrowerContactId⟩
  | .handedOver => some ⟨l.ownerId, .lentOut, l.borrowerId, l.borrowerContactId⟩
  | .lost =>
    if .recovered ∈ log then none
    else some ⟨l.ownerId, .unavailable, l.borrowerId, l.borrowerContactId⟩
  | _ => none

/-- How a copy's shape follows its loan's demand: nothing is demanded before or after; a free
copy is taken; the demand changes and the copy with it; or the copy is given back. -/
inductive Shift (before after : Option Shape) (s s' : Shape) : Prop
  | stay : before = none → after = none → s' = s → Shift before after s s'
  | take (t : Shape) : before = none → after = some t → s.status = .available →
      (s.Idle → s' = t) → Shift before after s s'
  | carry (t₀ t : Shape) : before = some t₀ → after = some t → (s = t₀ → s' = t) →
      Shift before after s s'
  | free (t₀ : Shape) : before = some t₀ → after = none → (s = t₀ → s'.Idle) →
      Shift before after s s'

/-- The demand depends on the status, the parties and the log. -/
theorem Loan.demand_congr {l l' : Loan} {log : List LoanEventType} (ho : l'.ownerId = l.ownerId)
    (hk : l'.borrowerKind = l.borrowerKind) (hb : l'.borrowerId = l.borrowerId)
    (hc : l'.borrowerContactId = l.borrowerContactId) :
    l'.demand log = ({ l with status := l'.status } : Loan).demand log := by
  unfold Loan.demand
  rw [ho, hk, hb, hc]

/-- The loans that impose a shape, and which. -/
inductive Demands (l : Loan) (log : List LoanEventType) : Shape → Prop
  | approved : l.status = .approved →
      Demands l log ⟨l.ownerId, .reserved, some l.ownerId, none⟩
  | pendingRegistered : l.status = .pendingConfirmation → l.borrowerKind = .registered →
      Demands l log ⟨l.ownerId, .reserved, some l.ownerId, none⟩
  | pendingGuest : l.status = .pendingConfirmation → l.borrowerKind = .guest →
      Demands l log ⟨l.ownerId, .reserved, none, l.borrowerContactId⟩
  | handedOver : l.status = .handedOver →
      Demands l log ⟨l.ownerId, .lentOut, l.borrowerId, l.borrowerContactId⟩
  | lost : l.status = .lost → .recovered ∉ log →
      Demands l log ⟨l.ownerId, .unavailable, l.borrowerId, l.borrowerContactId⟩

theorem Loan.demand_eq_some {l : Loan} {log : List LoanEventType} {t : Shape} :
    l.demand log = some t ↔ Demands l log t := by
  constructor
  · intro h
    unfold Loan.demand at h
    cases hs : l.status <;> rw [hs] at h <;> dsimp only at h
    case approved => exact Option.some.inj h ▸ .approved hs
    case handedOver => exact Option.some.inj h ▸ .handedOver hs
    case pendingConfirmation =>
      cases hk : l.borrowerKind with
      | registered =>
        rw [if_pos hk] at h
        exact Option.some.inj h ▸ .pendingRegistered hs hk
      | guest =>
        rw [if_neg (by rw [hk]; decide)] at h
        exact Option.some.inj h ▸ .pendingGuest hs hk
    case lost =>
      split at h
      · cases h
      · rename_i hrec
        exact Option.some.inj h ▸ .lost hs hrec
    all_goals cases h
  · intro h
    cases h with
    | approved hs => simp [Loan.demand, hs]
    | pendingRegistered hs hk => simp [Loan.demand, hs, hk]
    | pendingGuest hs hk => simp [Loan.demand, hs, hk]
    | handedOver hs => simp [Loan.demand, hs]
    | lost hs hrec => simp [Loan.demand, hs, hrec]

/-- A demand is never an available copy. -/
theorem Loan.demand_not_available {l : Loan} {log : List LoanEventType} {t : Shape}
    (h : l.demand log = some t) : t.status ≠ .available := by
  cases Loan.demand_eq_some.mp h <;> exact (nomatch ·)

/-- An exclusive loan imposes a shape. -/
theorem Loan.demand_of_exclusive {l : Loan} (log : List LoanEventType)
    (h : l.status.isExclusive = true) : ∃ t, l.demand log = some t := by
  unfold Loan.demand
  cases hs : l.status <;> rw [hs] at h <;> try cases h
  · exact ⟨_, rfl⟩
  · exact ⟨_, rfl⟩
  · dsimp only
    split <;> exact ⟨_, rfl⟩

/-! ## The dates of a record -/

/-- The dates a loan carries, as days. -/
def Loan.dates (l : Loan) : Option RecordDates :=
  (toIsoDay l.handedAt).map fun handedOn => ⟨handedOn, toIsoDay l.dueAt⟩

/-- Dates that were written as days are read as the same days. -/
theorem Loan.dates_of_days {l : Loan} {d : RecordDates}
    (hh : l.handedAt = some (toHandedDate d.handedOn)) (hd : l.dueAt = toDueDate d.dueOn) :
    l.dates = some d := by
  rw [Loan.dates, hh, hd, toIsoDay_toDueDate]
  simp [toIsoDay]

/-- The dates an event proposes: those of a proposal, or the new ones of an amendment. -/
def EventPayload.proposed : EventPayload → Option RecordDates
  | .empty => none
  | .dates d => some d
  | .amended _ next => some next

/-- The dates proposed or amended last. -/
def lastDates (events : List LoanEvent) : Option RecordDates :=
  (events.filterMap (·.payload.proposed)).getLast?

/-- **The chain of dates**: every amendment starts from the dates before it, and the loan
carries the last ones. -/
structure DatesChain (events : List LoanEvent) (dates : Option RecordDates) : Prop where
  linked : ∀ {pre post e}, events = pre ++ e :: post → e.type = .recordAmended →
    ∃ previous next, e.payload = .amended previous next ∧ lastDates pre = some previous
  plain : ∀ e ∈ events, e.type = .recordProposed ∨ e.type = .recordAmended ∨ e.payload = .empty
  current : lastDates events = dates

/-- How one event carries the dates on. -/
def DatesStep (before : Option RecordDates) (event : Option LoanEvent)
    (after : Option RecordDates) : Prop :=
  match event with
  | none => after = before
  | some e =>
    if e.type = .recordAmended then
      ∃ previous next, e.payload = .amended previous next ∧ before = some previous ∧
        after = some next
    else e.payload = .empty ∧ after = before

theorem lastDates_concat (events : List LoanEvent) (e : LoanEvent) :
    lastDates (events ++ [e]) = e.payload.proposed.or (lastDates events) := by
  unfold lastDates
  rw [List.filterMap_append]
  cases h : e.payload.proposed with
  | none => simp [h]
  | some d => simp [h]

theorem DatesChain.step {events : List LoanEvent} {before after : Option RecordDates}
    {event : Option LoanEvent} (h : DatesChain events before) (hs : DatesStep before event after) :
    DatesChain (events ++ event.toList) after := by
  cases event with
  | none =>
    obtain rfl : after = before := hs
    rwa [Option.toList_none, List.append_nil]
  | some e =>
    rw [Option.toList_some]
    constructor
    · intro pre post e' heq htype
      rcases List.eq_nil_or_concat post with rfl | ⟨post', x, rfl⟩
      · -- the new event
        obtain ⟨rfl, he⟩ := List.append_inj' heq rfl
        obtain rfl : e = e' := List.head_eq_of_cons_eq he
        unfold DatesStep at hs
        dsimp only at hs
        rw [if_pos htype] at hs
        obtain ⟨previous, next, hp, hb, -⟩ := hs
        exact ⟨previous, next, hp, h.current.trans hb⟩
      · -- an earlier one
        rw [List.concat_eq_append, ← List.cons_append, ← List.append_assoc] at heq
        exact h.linked (List.append_inj' heq rfl).1 htype
    · intro x hx
      rcases List.mem_append.mp hx with hx | hx
      · exact h.plain x hx
      · rw [List.mem_singleton.mp hx]
        by_cases htype : e.type = .recordAmended
        · exact Or.inr (Or.inl htype)
        · unfold DatesStep at hs
          dsimp only at hs
          rw [if_neg htype] at hs
          exact Or.inr (Or.inr hs.1)
    · rw [lastDates_concat]
      unfold DatesStep at hs
      dsimp only at hs
      split at hs
      · obtain ⟨previous, next, hp, -, ha⟩ := hs
        rw [hp, ha]
        rfl
      · rw [hs.1, hs.2]
        exact h.current

/-! ## The confirmation of a handover -/

/-- Where the confirmation of a guest handover stands after a log. -/
def confirmationAfter (log : List LoanEventType) : GuestLoanConfirmationStatus :=
  if .guestHandoverCancelled ∈ log then .cancelled
  else if .guestLoanOwnerRecorded ∈ log then .ownerRecorded
  else if .guestLoanReceived ∈ log then .received
  else if .guestLoanDenied ∈ log then .denied
  else .open

/-- Does the event move the confirmation? -/
def LoanEventType.movesConfirmation : LoanEventType → Bool
  | .guestHandoverCancelled | .guestLoanOwnerRecorded | .guestLoanReceived | .guestLoanDenied => true
  | _ => false

/-- Any other event leaves it where it is. -/
theorem confirmationAfter_append {log : List LoanEventType} {event : Option LoanEventType}
    (h : ∀ e ∈ event, e.movesConfirmation = false) :
    confirmationAfter (log ++ event.toList) = confirmationAfter log := by
  have hnot : ∀ t : LoanEventType, t.movesConfirmation = true → t ∉ event.toList := by
    intro t ht hmem
    have := h t (Option.mem_toList.mp hmem)
    rw [ht] at this
    cases this
  unfold confirmationAfter
  simp only [List.mem_append, hnot .guestHandoverCancelled rfl, hnot .guestLoanOwnerRecorded rfl,
    hnot .guestLoanReceived rfl, hnot .guestLoanDenied rfl, or_false]

/-! ## The dossier -/

/-- The loan a notification is about. -/
def NotificationPayload.loanId : NotificationPayload → LoanId
  | .loan loanId _ _ => loanId
  | .guestResponse loanId _ _ => loanId

/-- Is this the notice that the loan was rejected? -/
def Notification.isRejectionOf (loanId : LoanId) (n : Notification) : Bool :=
  n.type = .loanRejected ∧ n.payload.loanId = loanId

/-- What the tables hold about one loan. -/
structure Dossier where
  loan : Loan
  events : List LoanEvent
  rejections : List Notification
  confirmations : List GuestLoanConfirmation

def Dossier.log (d : Dossier) : List LoanEventType := d.events.map LoanEvent.type

namespace Db

/-- The types of a loan's events, oldest first. -/
def log (db : Db) (loanId : LoanId) : List LoanEventType :=
  (db.eventsOf loanId).map LoanEvent.type

/-- The rejections a loan was sent. -/
def rejectionsOf (db : Db) (loanId : LoanId) : List Notification :=
  db.notifications.filter (Notification.isRejectionOf loanId)

/-- The confirmations of a loan. -/
def confirmationsOf (db : Db) (loanId : LoanId) : List GuestLoanConfirmation :=
  db.confirmations.rows.filter fun g => g.loanId = loanId

def dossier (db : Db) (l : Loan) : Dossier :=
  ⟨l, db.eventsOf l.id, db.rejectionsOf l.id, db.confirmationsOf l.id⟩

end Db

/-- The two kinds of borrower. A contact may be forgotten, but not while the loan is
exclusive. -/
structure Loan.PartiesValid (l : Loan) : Prop where
  registered : l.borrowerKind = .registered →
    l.origin ≠ .recordedGuest ∧ (∃ b, l.borrowerId = some b ∧ b ≠ l.ownerId) ∧
      l.borrowerContactId = none
  guest : l.borrowerKind = .guest →
    l.origin = .recordedGuest ∧ l.borrowerId = none ∧
      (l.status.isExclusive = true → l.borrowerContactId ≠ none)

/-- The rejections a loan has: one when it is rejected, to its borrower, and none
otherwise. -/
def Dossier.RejectionsMatch (d : Dossier) : Prop :=
  if d.loan.status = .rejected then
    d.loan.respondedAt ≠ none ∧ ∃ b actorId, d.loan.borrowerId = some b ∧
      d.rejections = [rejectionNotice d.loan.copyId actorId d.loan.id b]
  else d.rejections = []

theorem Dossier.RejectionsMatch.of_other {d : Dossier} (h : d.RejectionsMatch)
    (hs : d.loan.status ≠ .rejected) : d.rejections = [] := by
  unfold Dossier.RejectionsMatch at h
  rwa [if_neg hs] at h

theorem Dossier.RejectionsMatch.of_rejected {d : Dossier} (h : d.RejectionsMatch)
    (hs : d.loan.status = .rejected) :
    d.loan.respondedAt ≠ none ∧ ∃ b actorId, d.loan.borrowerId = some b ∧
      d.rejections = [rejectionNotice d.loan.copyId actorId d.loan.id b] := by
  unfold Dossier.RejectionsMatch at h
  rwa [if_pos hs] at h

theorem Dossier.RejectionsMatch.other {d : Dossier} (hs : d.loan.status ≠ .rejected)
    (h : d.rejections = []) : d.RejectionsMatch := by
  unfold Dossier.RejectionsMatch
  rwa [if_neg hs]

theorem Dossier.RejectionsMatch.rejected {d : Dossier} {b : UserId} (actorId : UserId)
    (hs : d.loan.status = .rejected) (hat : d.loan.respondedAt ≠ none)
    (hb : d.loan.borrowerId = some b)
    (h : d.rejections = [rejectionNotice d.loan.copyId actorId d.loan.id b]) :
    d.RejectionsMatch := by
  unfold Dossier.RejectionsMatch
  rw [if_pos hs]
  exact ⟨hat, b, actorId, hb, h⟩

/-- The confirmation a loan has: one when it was requested, of the same contact and where
the log says, and none otherwise. -/
def Dossier.ConfirmationsMatch (d : Dossier) : Prop :=
  if .guestConfirmationRequested ∈ d.log then
    ∃ g, d.confirmations = [g] ∧ g.externalBorrowerId = d.loan.borrowerContactId ∧
      g.status = confirmationAfter d.log
  else d.confirmations = []

/-- **The parts of a dossier agree.** -/
structure Dossier.Sound (d : Dossier) : Prop where
  trail : Trail d.loan.origin d.log d.loan.status
  parties : d.loan.PartiesValid
  requested : d.loan.origin = .requested → d.loan.requestedAt ≠ none
  handed : d.loan.origin ≠ .requested ∨ d.loan.status.wasHanded = true → d.loan.handedAt ≠ none
  returned : d.loan.status = .returned → d.loan.returnedAt ≠ none
  rejections : d.RejectionsMatch
  confirmations : d.ConfirmationsMatch
  dates : d.loan.origin = .recordedExisting → DatesChain d.events d.loan.dates

end Bookswap
