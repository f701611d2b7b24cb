import Bookswap.Guarantees.CopyLoan

/-!
# The event log replays a loan

Status and audit trail are written by separate statements of four services; what the
invariant says of one loan, in the words of its log: the log is a word, or the beginning of
one, of its origin's language; the last event that bears a status tells the status; and the
amendments of a record lead from one pair of dates to the next (`EventLogReplays`).
-/

namespace Bookswap

open Store

/-- **The log of a loan and its row agree.** -/
structure EventLogReplays (db : Db) (l : Loan) : Prop where
  /-- A record's log is the beginning of a word. -/
  record : l.origin = .recordedExisting → ∃ w, db.log l.id ++ w ∈ recordedWords.matches'
  /-- And so is a guest loan's. -/
  guest : l.origin = .recordedGuest → ∃ w, db.log l.id ++ w ∈ guestWords.matches'
  /-- What a guest denied, no guest receives. -/
  denied : ∀ pre post, db.log l.id = pre ++ .guestLoanReceived :: post → .guestLoanDenied ∉ pre
  /-- A requested loan leaves a log only when it is lost. -/
  request : l.origin = .requested → db.log l.id ∈ requestWords.matches'
  /-- The last event that bears a status bears this one. -/
  status : l.origin ≠ .requested →
    (lastStatusEvent (db.log l.id)).map LoanEventType.statusAfter = some l.status
  /-- Every amendment starts from the dates before it, and the loan carries the last ones. -/
  dates : l.origin = .recordedExisting → DatesChain (db.eventsOf l.id) l.dates

/-- A word that lacks one of two letters has no such pair. -/
theorem not_mem_before {α : Type} {a b : α} {log pre post : List α} (h : a ∉ log ∨ b ∉ log)
    (hlog : log = pre ++ b :: post) : a ∉ pre := by
  rcases h with h | h
  · exact fun hpre => h (hlog ▸ List.mem_append_left _ hpre)
  · exact absurd (hlog ▸ List.mem_append_right _ List.mem_cons_self) h

/-- A guest loan was received or denied, or neither. -/
theorem Trail.not_received_denied {origin : LoanOrigin} {log : List LoanEventType}
    {status : LoanStatus} (h : Trail origin log status) :
    .guestLoanDenied ∉ log ∨ .guestLoanReceived ∉ log := by
  cases origin with
  | requested => cases h.request_form <;> exact Or.inl (by decide)
  | recordedExisting =>
    obtain ⟨n, tail, rfl, htail⟩ := h.record_form
    refine Or.inl ?_
    rw [List.mem_cons, List.mem_append, List.mem_replicate]
    cases htail <;> simp
  | recordedGuest =>
    cases h.guest_form with
    | took hhead htail => cases hhead <;> cases htail <;> decide
    | _ => decide

/-- **The log of every reachable loan replays it.** -/
theorem event_log_replays {secrets : GuestConfirmationSecrets} {w : World}
    (h : (system secrets).Reachable w) {l : Loan} (hl : l ∈ w.db.loans) :
    EventLogReplays w.db l := by
  have hco := (reachable_coherent h).db
  have htrail := hco.trail hl
  constructor
  case record => exact fun ho => (ho ▸ htrail).record_begins
  case guest => exact fun ho => (ho ▸ htrail).guest_begins
  case denied => exact fun pre post hlog => not_mem_before htrail.not_received_denied hlog
  case request => exact fun ho => (ho ▸ htrail).request_word
  case status => exact htrail.status_eq
  case dates => exact (hco.sound l hl).dates

theorem event_log_replays_waiting :
    EventLogReplays exampleWaiting
      (guestLoanRow .pendingConfirmation 0 exampleCopy exampleLend 20) :=
  event_log_replays (exampleWaiting_reachable exampleSecrets) (List.mem_singleton.mpr rfl)

end Bookswap
