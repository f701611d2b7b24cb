import Bookswap.Schema
import Mathlib.Computability.RegularExpressions

/-!
# The life of a loan

The abstract model: what a loan is for, said without any service. A loan is opened
with a first event or none, and then lives by the steps of `LifeStep`, each of which
moves its status and may add an event to its log. `Trail` is the set of logs and
statuses such a life can have.

- `LifeStep`: every step, by origin, with what it asks of the log so far.
- `Trail.status_eq`: for the recorded origins the status is a function of the last
  event that bears one.
- `Trail.request_form`, `record_form`, `guest_form`: the logs of each origin, listed.
- `Trail.request_word`, `record_begins`, `guest_begins`: the same as languages.
-/

namespace Bookswap

/-! ## Steps -/

/-- How a loan comes into being: its first event and its first status. -/
inductive Opening : LoanOrigin → Option LoanEventType → LoanStatus → Prop
  | request : Opening .requested none .requested
  | record : Opening .recordedExisting (some .recordProposed) .pendingConfirmation
  | guestRecord : Opening .recordedGuest (some .guestLoanRecorded) .handedOver
  | guestRequest : Opening .recordedGuest (some .guestConfirmationRequested) .pendingConfirmation

/-- One step of a loan's life; `log` is what happened before it. -/
inductive LifeStep (log : List LoanEventType) :
    LoanOrigin → LoanStatus → Option LoanEventType → LoanStatus → Prop
  | approve : LifeStep log .requested .requested none .approved
  | reject : LifeStep log .requested .requested none .rejected
  | cancelRequest : LifeStep log .requested .requested none .cancelled
  | cancelApproved : LifeStep log .requested .approved none .cancelled
  | handOver : LifeStep log .requested .approved none .handedOver
  | returnRequested : LifeStep log .requested .handedOver none .returned
  | confirmRecord :
      LifeStep log .recordedExisting .pendingConfirmation (some .recordConfirmed) .handedOver
  | declineRecord :
      LifeStep log .recordedExisting .pendingConfirmation (some .recordDeclined) .declined
  | withdrawRecord :
      LifeStep log .recordedExisting .pendingConfirmation (some .recordWithdrawn) .cancelled
  | amendRecord :
      LifeStep log .recordedExisting .pendingConfirmation (some .recordAmended)
        .pendingConfirmation
  | cancelHandover :
      LifeStep log .recordedGuest .pendingConfirmation (some .guestHandoverCancelled) .cancelled
  | recordOwnerStatement :
      LifeStep log .recordedGuest .pendingConfirmation (some .guestLoanOwnerRecorded) .handedOver
  | received : .guestLoanDenied ∉ log →
      LifeStep log .recordedGuest .pendingConfirmation (some .guestLoanReceived) .handedOver
  | denied : .guestLoanDenied ∉ log →
      LifeStep log .recordedGuest .pendingConfirmation (some .guestLoanDenied) .pendingConfirmation
  | returnRecorded {origin : LoanOrigin} : origin ≠ .requested →
      LifeStep log origin .handedOver (some .loanReturned) .returned
  | markLost {origin : LoanOrigin} : LifeStep log origin .handedOver (some .loanLost) .lost
  | recover {origin : LoanOrigin} : .recovered ∉ log →
      LifeStep log origin .lost (some .recovered) .lost
  | closeLoss : .recovered ∉ log → .lossClosed ∉ log →
      LifeStep log .recordedGuest .lost (some .lossClosed) .lost

/-- The logs and statuses a life can have. -/
inductive Trail : LoanOrigin → List LoanEventType → LoanStatus → Prop
  | opened {origin : LoanOrigin} {event : Option LoanEventType} {status : LoanStatus} :
      Opening origin event status → Trail origin event.toList status
  | stepped {origin : LoanOrigin} {log : List LoanEventType} {status status' : LoanStatus}
      {event : Option LoanEventType} :
      Trail origin log status → LifeStep log origin status event status' →
      Trail origin (log ++ event.toList) status'

/-! ## What a step cannot do -/

/-- Has the book been handed over, as the status tells? -/
def LoanStatus.wasHanded : LoanStatus → Bool
  | .handedOver | .returned | .lost => true
  | _ => false

/-- A step never goes back to an exclusive status. -/
theorem LifeStep.exclusive_before {log : List LoanEventType} {status status' : LoanStatus}
    {event : Option LoanEventType} (h : LifeStep log .recordedGuest status event status')
    (hs : status'.isExclusive = true) : status.isExclusive = true := by
  cases h <;> first | rfl | cases hs

/-- A step never asks for a confirmation. -/
theorem LifeStep.event_ne_asked {log : List LoanEventType} {origin : LoanOrigin}
    {status status' : LoanStatus} {event : Option LoanEventType}
    (h : LifeStep log origin status event status') :
    .guestConfirmationRequested ∉ event.toList := by
  cases h <;> decide

/-- No step leaves a rejected loan, and none that arrives at `REJECTED` starts there. -/
theorem LifeStep.not_rejected {log : List LoanEventType} {origin : LoanOrigin}
    {status status' : LoanStatus} {event : Option LoanEventType}
    (h : LifeStep log origin status event status') : status ≠ .rejected := by
  cases h <;> decide

/-- Only what was handed over, or is now, comes to a handed status. -/
theorem LifeStep.handed_before {log : List LoanEventType} {origin : LoanOrigin}
    {status status' : LoanStatus} {event : Option LoanEventType}
    (h : LifeStep log origin status event status') (hs : status'.wasHanded = true) :
    status.wasHanded = true ∨ status' = .handedOver := by
  cases h <;> first | exact Or.inl rfl | exact Or.inr rfl | cases hs

/-- A request is where a life starts. -/
theorem LifeStep.not_requested_after {log : List LoanEventType} {origin : LoanOrigin}
    {status status' : LoanStatus} {event : Option LoanEventType}
    (h : LifeStep log origin status event status') : status' ≠ .requested := by
  cases h <;> decide

/-- Only a request waits for an answer. -/
theorem Trail.origin_of_requested {origin : LoanOrigin} {log : List LoanEventType}
    {status : LoanStatus} (h : Trail origin log status) (hs : status = .requested) :
    origin = .requested := by
  cases h with
  | opened hopen => cases hopen <;> first | rfl | cases hs
  | stepped _ hstep => exact absurd hs hstep.not_requested_after

/-- Only a request is approved. -/
theorem Trail.origin_of_approved {origin : LoanOrigin} {log : List LoanEventType}
    {status : LoanStatus} (h : Trail origin log status) (hs : status = .approved) :
    origin = .requested := by
  cases h with
  | opened hopen => cases hopen <;> cases hs
  | stepped _ hstep => cases hstep <;> first | rfl | cases hs

/-- Only a guest is asked to confirm. -/
theorem Trail.origin_of_asked {origin : LoanOrigin} {log : List LoanEventType} {status : LoanStatus}
    (h : Trail origin log status) (hmem : .guestConfirmationRequested ∈ log) :
    origin = .recordedGuest := by
  induction h with
  | opened hopen => cases hopen <;> first | rfl | (revert hmem; decide)
  | stepped _ hstep ih =>
    rcases List.mem_append.mp hmem with hmem | hmem
    · exact ih hmem
    · exact absurd hmem hstep.event_ne_asked

/-- Only a lost book is found. -/
theorem Trail.not_recovered {origin : LoanOrigin} {log : List LoanEventType} {status : LoanStatus}
    (h : Trail origin log status) (hs : status ≠ .lost) : .recovered ∉ log := by
  induction h with
  | opened hopen => cases hopen <;> decide
  | stepped _ hstep ih =>
    cases hstep <;> first
      | exact absurd rfl hs
      | (rw [List.mem_append, not_or]; exact ⟨ih (by decide), by decide⟩)

/-! ## The status is in the log -/

/-- Does the event settle the status? An amendment, a denial and a closed loss do not. -/
def LoanEventType.bearsStatus : LoanEventType → Bool
  | .recordAmended | .guestLoanDenied | .lossClosed => false
  | _ => true

/-- The status an event leaves behind. -/
def LoanEventType.statusAfter : LoanEventType → LoanStatus
  | .recordProposed | .recordAmended | .guestConfirmationRequested | .guestLoanDenied =>
    .pendingConfirmation
  | .recordConfirmed | .guestLoanRecorded | .guestLoanOwnerRecorded | .guestLoanReceived =>
    .handedOver
  | .recordDeclined => .declined
  | .recordWithdrawn | .guestHandoverCancelled => .cancelled
  | .loanReturned => .returned
  | .loanLost | .recovered | .lossClosed => .lost

/-- The last event of a log that bears a status. -/
def lastStatusEvent (log : List LoanEventType) : Option LoanEventType :=
  (log.filter LoanEventType.bearsStatus).getLast?

theorem lastStatusEvent_concat (log : List LoanEventType) (e : LoanEventType) :
    lastStatusEvent (log ++ [e]) =
      if e.bearsStatus then some e else lastStatusEvent log := by
  unfold lastStatusEvent
  rw [List.filter_append]
  by_cases h : e.bearsStatus = true
  · rw [if_pos h, List.filter_singleton, h]
    exact List.getLast?_concat
  · rw [if_neg h, List.filter_singleton, Bool.eq_false_iff.mpr h]
    exact congrArg _ (List.append_nil _)

/-- **The log replays the status** of a recorded loan. -/
theorem Trail.status_eq {origin : LoanOrigin} {log : List LoanEventType} {status : LoanStatus}
    (h : Trail origin log status) (ho : origin ≠ .requested) :
    (lastStatusEvent log).map LoanEventType.statusAfter = some status := by
  induction h with
  | opened hopen => cases hopen <;> first | rfl | exact absurd rfl ho
  | stepped _ hstep ih =>
    cases hstep <;> first
      | exact absurd rfl ho
      | (rw [Option.toList_some, lastStatusEvent_concat]; first | rfl | exact ih)

/-! ## The languages of the logs -/

open RegularExpression in
/-- The end of a record: confirmed and closed, declined, or withdrawn. -/
def recordEnds : RegularExpression LoanEventType :=
  char .recordConfirmed * (char .loanReturned + char .loanLost * (1 + char .recovered)) +
    char .recordDeclined + char .recordWithdrawn

open RegularExpression in
/-- The words of a loan the owner recorded with a friend. -/
def recordedWords : RegularExpression LoanEventType :=
  char .recordProposed * (star (char .recordAmended) * recordEnds)

open RegularExpression in
/-- The end of a guest loan that took place. -/
def guestClosings : RegularExpression LoanEventType :=
  char .loanReturned + char .loanLost * (1 + char .lossClosed) * (1 + char .recovered)

open RegularExpression in
/-- The words of a guest loan. -/
def guestWords : RegularExpression LoanEventType :=
  char .guestLoanRecorded * guestClosings +
    char .guestConfirmationRequested *
      (char .guestLoanReceived * guestClosings +
        (1 + char .guestLoanDenied) *
          (char .guestLoanOwnerRecorded * guestClosings + char .guestHandoverCancelled))

open RegularExpression in
/-- The words of a requested loan; its other steps leave no event. -/
def requestWords : RegularExpression LoanEventType :=
  1 + char .loanLost * (1 + char .recovered)

/-! ## The forms of the logs -/

/-- The event logs of a request-flow loan. -/
inductive RequestForm : List LoanEventType → LoanStatus → Prop
  | silent {status : LoanStatus} : status ≠ .lost → RequestForm [] status
  | lost : RequestForm [.loanLost] .lost
  | recovered : RequestForm [.loanLost, .recovered] .lost

theorem Trail.request_form {log : List LoanEventType} {status : LoanStatus}
    (h : Trail .requested log status) : RequestForm log status := by
  induction h with
  | opened hopen =>
    cases hopen
    exact .silent (by decide)
  | stepped _ hstep ih =>
    cases ih with
    | silent hs =>
      cases hstep <;> first
        | exact absurd rfl hs
        | exact .lost
        | exact .silent (by decide)
        | contradiction
    | lost =>
      cases hstep with
      | recover _ => exact .recovered
    | recovered =>
      cases hstep with
      | recover hnot => exact absurd (by decide) hnot

/-- How a recorded loan goes on after its proposal and amendments. -/
inductive RecordTail : List LoanEventType → LoanStatus → Prop
  | pending : RecordTail [] .pendingConfirmation
  | confirmed : RecordTail [.recordConfirmed] .handedOver
  | returned : RecordTail [.recordConfirmed, .loanReturned] .returned
  | lost : RecordTail [.recordConfirmed, .loanLost] .lost
  | recovered : RecordTail [.recordConfirmed, .loanLost, .recovered] .lost
  | declined : RecordTail [.recordDeclined] .declined
  | withdrawn : RecordTail [.recordWithdrawn] .cancelled

theorem Trail.record_form {log : List LoanEventType} {status : LoanStatus}
    (h : Trail .recordedExisting log status) :
    ∃ n tail, log = .recordProposed :: (List.replicate n .recordAmended ++ tail) ∧
      RecordTail tail status := by
  induction h with
  | opened hopen =>
    cases hopen
    exact ⟨0, [], rfl, .pending⟩
  | stepped _ hstep ih =>
    obtain ⟨n, tail, rfl, htail⟩ := ih
    have hgrow : ∀ {e status}, RecordTail (tail ++ [e]) status →
        ∃ m tail', .recordProposed :: (List.replicate n .recordAmended ++ tail) ++ [e] =
          LoanEventType.recordProposed :: (List.replicate m .recordAmended ++ tail') ∧
          RecordTail tail' status :=
      fun {e status} ht => ⟨n, tail ++ [e], by simp, ht⟩
    cases htail with
    | pending =>
      cases hstep with
      | confirmRecord => exact hgrow .confirmed
      | declineRecord => exact hgrow .declined
      | withdrawRecord => exact hgrow .withdrawn
      | amendRecord => exact ⟨n + 1, [], by simp [List.replicate_succ'], .pending⟩
    | confirmed =>
      cases hstep with
      | returnRecorded _ => exact hgrow .returned
      | markLost => exact hgrow .lost
    | lost =>
      cases hstep with
      | recover _ => exact hgrow .recovered
    | recovered =>
      cases hstep with
      | recover hnot => exact absurd (by simp) hnot
    | returned => cases hstep
    | declined => cases hstep
    | withdrawn => cases hstep

/-- How a guest loan begins, once the handover took place. -/
inductive GuestHead : List LoanEventType → Prop
  | recorded : GuestHead [.guestLoanRecorded]
  | received : GuestHead [.guestConfirmationRequested, .guestLoanReceived]
  | ownerRecorded : GuestHead [.guestConfirmationRequested, .guestLoanOwnerRecorded]
  | deniedOwnerRecorded :
      GuestHead [.guestConfirmationRequested, .guestLoanDenied, .guestLoanOwnerRecorded]

/-- How a guest loan ends, once the handover took place. -/
inductive GuestTail : List LoanEventType → LoanStatus → Prop
  | handedOver : GuestTail [] .handedOver
  | returned : GuestTail [.loanReturned] .returned
  | lost : GuestTail [.loanLost] .lost
  | lostClosed : GuestTail [.loanLost, .lossClosed] .lost
  | lostRecovered : GuestTail [.loanLost, .recovered] .lost
  | lostClosedRecovered : GuestTail [.loanLost, .lossClosed, .recovered] .lost

/-- The event logs of a guest loan. -/
inductive GuestForm : List LoanEventType → LoanStatus → Prop
  | took {head tail : List LoanEventType} {status : LoanStatus} :
      GuestHead head → GuestTail tail status → GuestForm (head ++ tail) status
  | pending : GuestForm [.guestConfirmationRequested] .pendingConfirmation
  | denied : GuestForm [.guestConfirmationRequested, .guestLoanDenied] .pendingConfirmation
  | cancelled : GuestForm [.guestConfirmationRequested, .guestHandoverCancelled] .cancelled
  | deniedCancelled :
      GuestForm [.guestConfirmationRequested, .guestLoanDenied, .guestHandoverCancelled] .cancelled

theorem GuestHead.form {head : List LoanEventType} (h : GuestHead head) :
    GuestForm head .handedOver := by
  have := GuestForm.took h .handedOver
  rwa [List.append_nil] at this

theorem Trail.guest_form {log : List LoanEventType} {status : LoanStatus}
    (h : Trail .recordedGuest log status) : GuestForm log status := by
  induction h with
  | opened hopen =>
    cases hopen with
    | guestRecord => exact GuestHead.recorded.form
    | guestRequest => exact .pending
  | stepped _ hstep ih =>
    cases ih with
    | @took head tail _ hhead htail =>
      have hgrow : ∀ {e status}, GuestTail (tail ++ [e]) status →
          GuestForm (head ++ tail ++ [e]) status := fun ht => by
        rw [List.append_assoc]
        exact .took hhead ht
      cases htail with
      | handedOver =>
        cases hstep with
        | returnRecorded _ => exact hgrow .returned
        | markLost => exact hgrow .lost
      | returned => cases hstep
      | lost =>
        cases hstep with
        | recover _ => exact hgrow .lostRecovered
        | closeLoss _ _ => exact hgrow .lostClosed
      | lostClosed =>
        cases hstep with
        | recover _ => exact hgrow .lostClosedRecovered
        | closeLoss _ hnot => exact absurd (by simp) hnot
      | lostRecovered =>
        cases hstep with
        | recover hnot => exact absurd (by simp) hnot
        | closeLoss hnot _ => exact absurd (by simp) hnot
      | lostClosedRecovered =>
        cases hstep with
        | recover hnot => exact absurd (by simp) hnot
        | closeLoss hnot _ => exact absurd (by simp) hnot
    | pending =>
      cases hstep with
      | cancelHandover => exact .cancelled
      | recordOwnerStatement => exact GuestHead.ownerRecorded.form
      | received _ => exact GuestHead.received.form
      | denied _ => exact .denied
    | denied =>
      cases hstep with
      | cancelHandover => exact .deniedCancelled
      | recordOwnerStatement => exact GuestHead.deniedOwnerRecorded.form
      | received hnot => exact absurd (by simp) hnot
      | denied hnot => exact absurd (by simp) hnot
    | cancelled => cases hstep
    | deniedCancelled => cases hstep

/-- A guest loan waits with at most a denial. -/
theorem Trail.guest_pending {log : List LoanEventType}
    (h : Trail .recordedGuest log .pendingConfirmation) :
    log = [.guestConfirmationRequested] ∨
      log = [.guestConfirmationRequested, .guestLoanDenied] := by
  generalize hs : LoanStatus.pendingConfirmation = status at h
  cases h.guest_form with
  | took _ ht => cases ht <;> cases hs
  | pending => exact Or.inl rfl
  | denied => exact Or.inr rfl
  | cancelled => cases hs
  | deniedCancelled => cases hs

/-- A proposal, any number of amendments and an end make a word. -/
theorem mem_recordedWords {n : Nat} {tail : List LoanEventType}
    (h : tail ∈ recordEnds.matches') :
    .recordProposed :: (List.replicate n .recordAmended ++ tail) ∈ recordedWords.matches' := by
  have hstar : List.replicate n LoanEventType.recordAmended ∈
      (RegularExpression.star (RegularExpression.char LoanEventType.recordAmended)).matches' := by
    rw [RegularExpression.matches'_star, Language.mem_kstar]
    refine ⟨List.replicate n [.recordAmended], ?_, fun y hy => ?_⟩
    · rw [List.flatten_replicate_singleton]
    · rw [List.eq_of_mem_replicate hy, RegularExpression.matches'_char]
      rfl
  rw [recordedWords, RegularExpression.matches'_mul, RegularExpression.matches'_mul]
  refine Language.mem_mul.mpr ⟨[.recordProposed], ?_, _, Language.mem_mul.mpr ⟨_, hstar, _, h, rfl⟩,
    rfl⟩
  rw [RegularExpression.matches'_char]
  rfl

/-- A tail can be brought to an end. -/
theorem RecordTail.completes {tail : List LoanEventType} {status : LoanStatus}
    (h : RecordTail tail status) : ∃ w, tail ++ w ∈ recordEnds.matches' := by
  cases h with
  | pending => exact ⟨[.recordDeclined], (RegularExpression.rmatch_iff_matches' ..).mp (by decide)⟩
  | confirmed => exact ⟨[.loanReturned], (RegularExpression.rmatch_iff_matches' ..).mp (by decide)⟩
  | _ => exact ⟨[], (RegularExpression.rmatch_iff_matches' ..).mp (by decide)⟩

theorem GuestForm.completes {log : List LoanEventType} {status : LoanStatus}
    (h : GuestForm log status) : ∃ w, log ++ w ∈ guestWords.matches' := by
  cases h with
  | took hhead htail =>
    cases htail with
    | handedOver =>
      refine ⟨[.loanReturned], (RegularExpression.rmatch_iff_matches' ..).mp ?_⟩
      cases hhead <;> decide
    | _ =>
      refine ⟨[], (RegularExpression.rmatch_iff_matches' ..).mp ?_⟩
      cases hhead <;> decide
  | pending =>
    exact ⟨[.guestHandoverCancelled], (RegularExpression.rmatch_iff_matches' ..).mp (by decide)⟩
  | denied =>
    exact ⟨[.guestHandoverCancelled], (RegularExpression.rmatch_iff_matches' ..).mp (by decide)⟩
  | _ => exact ⟨[], (RegularExpression.rmatch_iff_matches' ..).mp (by decide)⟩

/-- **The log of a requested loan is a word of its language.** -/
theorem Trail.request_word {log : List LoanEventType} {status : LoanStatus}
    (h : Trail .requested log status) : log ∈ requestWords.matches' := by
  cases h.request_form <;> exact (RegularExpression.rmatch_iff_matches' ..).mp (by decide)

/-- **The log of a recorded loan is a prefix of a word of its language.** -/
theorem Trail.record_begins {log : List LoanEventType} {status : LoanStatus}
    (h : Trail .recordedExisting log status) : ∃ w, log ++ w ∈ recordedWords.matches' := by
  obtain ⟨n, tail, rfl, htail⟩ := h.record_form
  obtain ⟨w, hw⟩ := htail.completes
  refine ⟨w, ?_⟩
  rw [List.cons_append, List.append_assoc]
  exact mem_recordedWords hw

/-- **The log of a guest loan is a prefix of a word of its language.** -/
theorem Trail.guest_begins {log : List LoanEventType} {status : LoanStatus}
    (h : Trail .recordedGuest log status) : ∃ w, log ++ w ∈ guestWords.matches' :=
  h.guest_form.completes

end Bookswap
