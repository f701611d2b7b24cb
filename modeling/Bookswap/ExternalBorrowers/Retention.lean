import Bookswap.Lib.Checked
import Bookswap.Schema

/-!
# How long a contact is kept

`external-borrowers/retention.ts`: the deadline of a contact, recomputed from its
loans and their events inside every transaction that changes one of them.

The source refuses to invent a date: a closed loan whose closing event is missing is
an integrity error (a 500). `recomputeRetainUntil_ok` says when there is none: some
loan of the contact is exclusive, or every loan is `Closed`.
-/

namespace Bookswap

open Store Checked

def RETENTION_NO_LOAN_WINDOW_MS : Int := 90 * DAY_MS
def RETENTION_CLOSED_WINDOW_MS : Int := 90 * DAY_MS
def RETENTION_UNRESOLVED_LOSS_WINDOW_MS : Int := 365 * DAY_MS
def RETENTION_CANCELLED_HANDOVER_WINDOW_MS : Int := 90 * DAY_MS

/-- `CLOSURE_EVENT_TYPES` -/
def LoanEventType.isClosure : LoanEventType → Bool
  | .recovered | .lossClosed => true
  | _ => false

/-- The event types the computation reads. -/
def LoanEventType.isRetention : LoanEventType → Bool
  | .loanLost | .recovered | .lossClosed | .guestHandoverCancelled => true
  | _ => false

/-- The earliest moment of the events found. -/
def earliest (first : LoanEvent) (rest : List LoanEvent) : Time :=
  rest.foldl (fun t e => if e.occurredAt < t then e.occurredAt else t) first.occurredAt

/-- The latest of the candidates. -/
def latest (first : Time) (rest : List Time) : Time :=
  rest.foldl (fun t c => if t < c then c else t) first

def integrityError : Failure := .internal "цілісність даних порушена"

/-- retention.ts:62 -/
def candidateFor (loan : Loan) (events : List LoanEvent) : Tx Time :=
  match loan.status with
  | .returned =>
    match loan.returnedAt with
    | none => .error integrityError
    | some t => .ok (t + RETENTION_CLOSED_WINDOW_MS)
  | .lost =>
    match events.filter fun e => e.loanId = loan.id ∧ e.type.isClosure with
    | first :: rest => .ok (earliest first (first :: rest) + RETENTION_CLOSED_WINDOW_MS)
    | [] =>
      match events.find? fun e => e.loanId = loan.id ∧ e.type = .loanLost with
      | none => .error integrityError
      | some lost => .ok (lost.occurredAt + RETENTION_UNRESOLVED_LOSS_WINDOW_MS)
  | .cancelled =>
    match events.filter fun e => e.loanId = loan.id ∧ e.type = .guestHandoverCancelled with
    | [] => .error integrityError
    | first :: rest =>
      .ok (earliest first (first :: rest) + RETENTION_CANCELLED_HANDOVER_WINDOW_MS)
  | _ => .error integrityError

/-- The deadline of a contact with these loans; `none` while one of them is active. -/
def retainUntilOf (contact : ExternalBorrower) (loans : List Loan) (events : List LoanEvent) :
    Tx (Option Time) :=
  if loans.isEmpty then .ok (some (contact.createdAt + RETENTION_NO_LOAN_WINDOW_MS))
  else if loans.any (·.status.isExclusive) then .ok none
  else do
    match ← loans.mapM (candidateFor · events) with
    | [] => .ok none
    | first :: rest => .ok (some (latest first rest))

namespace Db

/-- The loans of a contact. -/
def loansOfContact (db : Db) (contactId : ContactId) : List Loan :=
  db.loans.rows.filter fun l => l.borrowerContactId = some contactId

/-- The events the computation reads for these loans. -/
def retentionEvents (db : Db) (loans : List Loan) : List LoanEvent :=
  db.events.filter fun e => e.loanId ∈ loans.map Loan.id ∧ e.type.isRetention

/-- Write the deadline of one contact. -/
def withRetainUntil (db : Db) (contactId : ContactId) (t : Option Time) : Db :=
  { db with
    contacts := db.contacts.modify contactId ⟨fun c => { c with retainUntil := t }, fun _ => rfl⟩ }

end Db

/-- `recomputeRetainUntil` (retention.ts:135). -/
def recomputeRetainUntil (contactId : ContactId) (db : Db) : Tx Db :=
  match db.contacts.find? contactId with
  | none => .ok db
  | some contact => do
    let loans := db.loansOfContact contactId
    let retainUntil ← retainUntilOf contact loans (db.retentionEvents loans)
    return db.withRetainUntil contactId retainUntil

/-- A loan whose closing is dated, so that it gives a candidate. -/
def Db.Closed (db : Db) (l : Loan) : Prop :=
  (l.status = .returned ∧ l.returnedAt ≠ none) ∨
    (l.status = .lost ∧ db.hasEvent l.id .loanLost = true) ∨
    (l.status = .cancelled ∧ db.hasEvent l.id .guestHandoverCancelled = true)

variable {db db' : Db} {contactId : ContactId}

/-- Whatever the deadline, only the contact's row is written. -/
theorem recomputeRetainUntil_writes (h : recomputeRetainUntil contactId db = .ok db') :
    ∃ t, db' = db.withRetainUntil contactId t := by
  unfold recomputeRetainUntil at h
  split at h
  · rename_i hnone
    cases h
    refine ⟨none, ?_⟩
    rw [Db.withRetainUntil, Table.modify_eq_self fun c hc hk => ?_]
    exact absurd hk (Table.find?_eq_none_iff.mp hnone c hc)
  · obtain ⟨t, -, hw⟩ := bind_eq_ok.mp h
    exact ⟨t, (pure_eq_ok.mp hw).symm⟩

theorem mem_retentionEvents {loans : List Loan} {l : Loan} {type : LoanEventType}
    (hl : l ∈ loans) (ht : type.isRetention = true) (h : db.hasEvent l.id type = true) :
    ∃ e ∈ db.retentionEvents loans, e.loanId = l.id ∧ e.type = type := by
  obtain ⟨e, he, hid, hty⟩ := Db.hasEvent_iff.mp h
  refine ⟨e, List.mem_filter.mpr ⟨he, decide_eq_true ⟨?_, by rw [hty, ht]⟩⟩, hid, hty⟩
  exact hid ▸ List.mem_map_of_mem hl

/-- A closed loan gives a candidate. -/
theorem candidateFor_ok {loans : List Loan} {l : Loan} (hl : l ∈ loans) (h : db.Closed l) :
    ∃ t, candidateFor l (db.retentionEvents loans) = .ok t := by
  unfold candidateFor
  rcases h with ⟨hs, hr⟩ | ⟨hs, he⟩ | ⟨hs, he⟩
  · obtain ⟨t, ht⟩ := Option.ne_none_iff_exists'.mp hr
    rw [hs, ht]
    exact ⟨_, rfl⟩
  · obtain ⟨e, hmem, hid, hty⟩ := mem_retentionEvents hl rfl he
    rw [hs]
    dsimp only
    split
    · exact ⟨_, rfl⟩
    · split
      · rename_i hnone
        have hno := List.find?_eq_none.mp hnone e hmem
        exact absurd (decide_eq_true (And.intro hid hty)) hno
      · exact ⟨_, rfl⟩
  · obtain ⟨e, hmem, hid, hty⟩ := mem_retentionEvents hl rfl he
    rw [hs]
    dsimp only
    split
    · rename_i hnil
      have : e ∈ (db.retentionEvents loans).filter fun e =>
          e.loanId = l.id ∧ e.type = .guestHandoverCancelled :=
        List.mem_filter.mpr ⟨hmem, decide_eq_true ⟨hid, hty⟩⟩
      rw [hnil] at this
      cases this
    · exact ⟨_, rfl⟩

/-- The deadline exists while a loan is active, and when all are closed. -/
theorem retainUntilOf_ok {contact : ExternalBorrower} {loans : List Loan}
    (h : (∃ l ∈ loans, l.status.isExclusive = true) ∨ ∀ l ∈ loans, db.Closed l) :
    ∃ t, retainUntilOf contact loans (db.retentionEvents loans) = .ok t := by
  unfold retainUntilOf
  by_cases hempty : loans.isEmpty = true
  · rw [if_pos hempty]
    exact ⟨_, rfl⟩
  · rw [if_neg hempty]
    by_cases hex : loans.any (·.status.isExclusive) = true
    · rw [if_pos hex]
      exact ⟨_, rfl⟩
    · rw [if_neg hex]
      have hall : ∀ l ∈ loans, db.Closed l := by
        rcases h with ⟨l, hl, hs⟩ | h
        · exact absurd (List.any_eq_true.mpr ⟨l, hl, hs⟩) hex
        · exact h
      obtain ⟨ts, hts⟩ := mapM_ok fun l hl => candidateFor_ok hl (hall l hl)
      rw [hts]
      cases ts <;> exact ⟨_, rfl⟩

/-- **No integrity error** while a loan of the contact is active, or all are closed. -/
theorem recomputeRetainUntil_ok
    (h : (∃ l ∈ db.loans, l.borrowerContactId = some contactId ∧ l.status.isExclusive = true) ∨
      ∀ l ∈ db.loans, l.borrowerContactId = some contactId → db.Closed l) :
    ∃ t, recomputeRetainUntil contactId db = .ok (db.withRetainUntil contactId t) := by
  have hmem : ∀ l, l ∈ db.loansOfContact contactId ↔
      l ∈ db.loans ∧ l.borrowerContactId = some contactId := by
    intro l
    simp [Db.loansOfContact, Table.mem_def]
  suffices hok : ∃ db', recomputeRetainUntil contactId db = .ok db' by
    obtain ⟨db', hok⟩ := hok
    obtain ⟨t, rfl⟩ := recomputeRetainUntil_writes hok
    exact ⟨t, hok⟩
  unfold recomputeRetainUntil
  split
  · exact ⟨_, rfl⟩
  · rename_i contact _
    have hof : (∃ l ∈ db.loansOfContact contactId, l.status.isExclusive = true) ∨
        ∀ l ∈ db.loansOfContact contactId, db.Closed l := by
      rcases h with ⟨l, hl, hc, hs⟩ | h
      · exact Or.inl ⟨l, (hmem l).mpr ⟨hl, hc⟩, hs⟩
      · exact Or.inr fun l hl => h l ((hmem l).mp hl).1 ((hmem l).mp hl).2
    obtain ⟨t, ht⟩ := @retainUntilOf_ok db contact _ hof
    refine ⟨db.withRetainUntil contactId t, ?_⟩
    show (retainUntilOf contact _ _ >>= _) = _
    rw [ht]
    rfl

end Bookswap
