import Bookswap.Schema

/-!
# history.mapper.ts: when a loan ended, and its latest fact

The history dates a loan by its columns and by a few of its events. `COMPLETION_SOURCE` says, for
each status, where the ending is recorded.
-/

namespace Bookswap

/-- Where an ending is recorded. -/
inductive CompletionSource
  | returnedAt
  | respondedAt
  | events (types : List LoanEventType)

def COMPLETION_SOURCE : LoanStatus → Option CompletionSource
  | .returned => some .returnedAt
  | .rejected => some .respondedAt
  | .cancelled => some (.events [.recordWithdrawn, .guestHandoverCancelled])
  | .declined => some (.events [.recordDeclined])
  | .lost => some (.events [.loanLost])
  | .requested | .approved | .handedOver | .pendingConfirmation => none

/-- Every event type `completedAtOf` reads. -/
def COMPLETION_EVENT_TYPES : List LoanEventType :=
  ([LoanStatus.returned, .rejected, .cancelled, .declined, .lost, .requested, .approved, .handedOver,
      .pendingConfirmation].flatMap fun status =>
    match COMPLETION_SOURCE status with
    | some (.events types) => types
    | _ => []).eraseDups

/-- Facts after the handover that no column records. -/
def LATER_FACT_EVENT_TYPES : List LoanEventType := [.recovered]

def HISTORY_DATE_EVENT_TYPES : List LoanEventType := COMPLETION_EVENT_TYPES ++ LATER_FACT_EVENT_TYPES

/-- The actual date when it differs from the moment of writing. -/
def eventDateOf (event : LoanEvent) : Time := event.effectiveAt.getD event.occurredAt

def latestOf (dates : List (Option Time)) : Option Time := (dates.filterMap id).max?

/-- The dates of the events of some types. -/
def datesOf (types : List LoanEventType) (events : List LoanEvent) : List (Option Time) :=
  (events.filter fun e => e.type ∈ types).map fun e => some (eventDateOf e)

def completedAtOf (loan : Loan) (events : List LoanEvent) : Option Time :=
  match COMPLETION_SOURCE loan.status with
  | none => none
  | some .returnedAt => loan.returnedAt
  | some .respondedAt => loan.respondedAt
  | some (.events types) => latestOf (datesOf types events)

def latestFactAtOf (loan : Loan) (events : List LoanEvent) : Option Time :=
  latestOf <|
    [if loan.origin = .requested then loan.requestedAt else none, loan.respondedAt, loan.handedAt,
      loan.returnedAt, completedAtOf loan events] ++
    datesOf LATER_FACT_EVENT_TYPES events

/-- The events that the personal history loads with a loan. -/
def Db.historyEventsOf (db : Db) (id : LoanId) : List LoanEvent :=
  (db.eventsOf id).filter fun e => e.type ∈ HISTORY_DATE_EVENT_TYPES

/-- When the loan ended, if it did and that is recorded. -/
def Db.completedAt (db : Db) (id : LoanId) : Option Time :=
  (db.loans.find? id).bind fun l => completedAtOf l (db.historyEventsOf id)

/-! ## What the dates depend on -/

theorem latestOf_ne_none {dates : List (Option Time)} :
    latestOf dates ≠ none ↔ ∃ t, some t ∈ dates := by
  unfold latestOf
  rw [ne_eq, List.max?_eq_none_iff, List.eq_nil_iff_forall_not_mem]
  simp

/-- The latest of some dates is not before any of them. -/
theorem le_latestOf {dates : List (Option Time)} {t : Time} (h : some t ∈ dates) :
    ∃ f, latestOf dates = some f ∧ t ≤ f := by
  obtain ⟨f, hf⟩ := Option.ne_none_iff_exists'.mp (latestOf_ne_none.mpr ⟨t, h⟩)
  refine ⟨f, hf, ?_⟩
  exact (List.max?_eq_some_iff.mp hf).2 t (by simpa using h)

theorem some_mem_datesOf {types : List LoanEventType} {events : List LoanEvent} {t : Time} :
    some t ∈ datesOf types events ↔ ∃ e ∈ events, e.type ∈ types ∧ eventDateOf e = t := by
  unfold datesOf
  simp [and_assoc]

/-- An event of another type changes no date. -/
theorem datesOf_concat {types : List LoanEventType} {events : List LoanEvent} {e : LoanEvent}
    (h : e.type ∉ types) : datesOf types (events ++ [e]) = datesOf types events := by
  unfold datesOf
  rw [List.filter_append, List.filter_singleton]
  simp [h]

/-- The types that `completedAtOf` reads are loaded. -/
theorem datesOf_loaded {types : List LoanEventType} {events : List LoanEvent}
    (h : ∀ t ∈ types, t ∈ HISTORY_DATE_EVENT_TYPES) :
    datesOf types (events.filter fun e => e.type ∈ HISTORY_DATE_EVENT_TYPES) =
      datesOf types events := by
  unfold datesOf
  rw [List.filter_filter]
  refine congrArg _ (List.filter_congr fun e _ => ?_)
  by_cases he : e.type ∈ types
  · simp [he, h _ he]
  · simp [he]

theorem completionSource_loaded {status : LoanStatus} {types : List LoanEventType}
    (h : COMPLETION_SOURCE status = some (.events types)) :
    ∀ t ∈ types, t ∈ HISTORY_DATE_EVENT_TYPES := by
  cases status <;> cases h <;> decide

/-- **Loading only some events loses no ending.** -/
theorem completedAtOf_loaded (loan : Loan) (events : List LoanEvent) :
    completedAtOf loan (events.filter fun e => e.type ∈ HISTORY_DATE_EVENT_TYPES) =
      completedAtOf loan events := by
  unfold completedAtOf
  split
  · rfl
  · rfl
  · rfl
  · next h => rw [datesOf_loaded (completionSource_loaded h)]

theorem latestFactAtOf_loaded (loan : Loan) (events : List LoanEvent) :
    latestFactAtOf loan (events.filter fun e => e.type ∈ HISTORY_DATE_EVENT_TYPES) =
      latestFactAtOf loan events := by
  unfold latestFactAtOf
  rw [completedAtOf_loaded, datesOf_loaded (by decide)]

/-- An ending depends on the status, two columns and the events. -/
theorem completedAtOf_congr {l l' : Loan} (hs : l'.status = l.status)
    (hret : l'.returnedAt = l.returnedAt) (hres : l'.respondedAt = l.respondedAt)
    (events : List LoanEvent) : completedAtOf l' events = completedAtOf l events := by
  unfold completedAtOf
  rw [hs, hret, hres]

theorem Db.completedAt_eq (db : Db) (id : LoanId) :
    db.completedAt id = (db.loans.find? id).bind fun l => completedAtOf l (db.eventsOf id) := by
  unfold Db.completedAt Db.historyEventsOf
  simp only [completedAtOf_loaded]

end Bookswap
