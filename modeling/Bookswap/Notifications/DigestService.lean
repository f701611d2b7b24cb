import Bookswap.System
import Mathlib.Data.List.Basic

/-!
# notification-digest.service.ts

The daily reminders. A pass runs the three types one after the other; for each it scans the loans
outside a transaction (`emit`) and then opens one transaction per recipient (`emitFor`), which
reads an owner's switch again, locks the candidates' rows and reads them again, and inserts one
notification under the key of the recipient, the type and the UTC day.

- `matchesDigestType`, `byUser`, `stillDue`, `digestPayload`: the pure parts.
- `DigestPhase`: where a process is in its pass.
- `Reminding.Step`, `reminders`: any number of processes, between the transactions of `system`
  and changes of the owners' switches. A transaction that would change a locked row waits.
-/

namespace Bookswap

open Store

abbrev ProcessId := Nat

/-! ## Types and days -/

/-- `DIGEST_NOTIFICATION_TYPE` -/
inductive DigestType
  | dueSoon | overdue | dueSoonOwner
  deriving DecidableEq, Repr

def DUE_SOON_WINDOW_DAYS : Int := 3

def DigestType.isOwnerReminder (type : DigestType) : Bool := type = .dueSoonOwner

/-- The day on which a loan with this due date is reminded of. -/
def triggerDay (dueAt : Time) : Day := isoDayOf (dueAt - DUE_SOON_WINDOW_DAYS * DAY_MS)

/-- `matchesDigestType` -/
def DigestType.matches (type : DigestType) (dueAt now : Time) : Bool :=
  match type with
  | .overdue => dueAt < now
  | .dueSoon | .dueSoonOwner => triggerDay dueAt = isoDayOf now

/-! ## Candidates -/

/-- Who is reminded of a loan. -/
def DigestType.recipientOf (type : DigestType) (l : Loan) : Option UserId :=
  if type.isOwnerReminder then some l.ownerId else l.borrowerId

structure DueLoan where
  id : LoanId
  copyId : CopyId
  recipientId : UserId
  dueAt : Time
  deriving DecidableEq, Repr

/-- The condition of the scan; `reminders` is the column `User.ownerDueReminders`. -/
def DigestType.scans (type : DigestType) (reminders : UserId → Bool) (l : Loan) : Bool :=
  l.status = .handedOver ∧ l.dueAt ≠ none ∧
    if type.isOwnerReminder then reminders l.ownerId = true else l.borrowerId ≠ none

/-- A scanned loan that is due for the type. -/
def DigestType.dueLoan (type : DigestType) (now : Time) (l : Loan) : Option DueLoan :=
  match l.dueAt, type.recipientOf l with
  | some dueAt, some recipientId =>
    if type.matches dueAt now then some ⟨l.id, l.copyId, recipientId, dueAt⟩ else none
  | _, _ => none

/-- The buckets, in the order in which their users were met. -/
def byUser (loans : List DueLoan) : List (UserId × List DueLoan) :=
  (loans.map DueLoan.recipientId).eraseDups.map fun u =>
    (u, loans.filter fun l => l.recipientId = u)

/-! ## One recipient -/

/-- The condition under which a row is locked. -/
def DigestType.locks (type : DigestType) (userId : UserId) (candidates : List DueLoan)
    (l : Loan) : Bool :=
  l.id ∈ candidates.map DueLoan.id ∧ type.recipientOf l = some userId

/-- The locked rows that are still due, the earliest due date first. -/
def stillDue (type : DigestType) (now : Time) (rows : List Loan) : List (Loan × Time) :=
  (rows.filterMap fun l => l.dueAt.bind fun dueAt =>
    if l.status = .handedOver ∧ type.matches dueAt now then some (l, dueAt) else none).mergeSort
      fun a b => a.2 ≤ b.2

structure DigestPayload where
  count : Nat
  loanId : Option LoanId
  copyId : Option CopyId
  loanIds : List LoanId
  dueDate : Option Day
  guestLoan : Bool
  actorId : Option UserId
  deriving DecidableEq, Repr

/-- `payload`, with `ownerReminderDetails` for an owner: the borrower is named only when the
reminder is about one book, and a guest never. -/
def digestPayload (type : DigestType) (due : List (Loan × Time)) : DigestPayload :=
  let single := if due.length = 1 ∧ type.isOwnerReminder then due.head? else none
  { count := due.length
    loanId := due.head?.map fun x => x.1.id
    copyId := due.head?.map fun x => x.1.copyId
    loanIds := due.map fun x => x.1.id
    dueDate := if type.isOwnerReminder then due.head?.map fun x => isoDayOf x.2 else none
    guestLoan := single.any fun x => x.1.borrowerId = none
    actorId := single.bind fun x => x.1.borrowerId }

/-- `<userId>:<type>:<YYYY-MM-DD>` -/
structure DigestKey where
  userId : UserId
  type : DigestType
  day : Day
  deriving DecidableEq, Repr

/-! ## Passes -/

/-- What a digest reads: the loans, and the owners' switches. -/
structure DigestView where
  loans : Table Loan.id
  ownerDueReminders : UserId → Bool

/-- The rest of a pass once a type was scanned. `scanned` is what the scan saw; no step reads
it. -/
structure Emission where
  now : Time
  type : DigestType
  scanned : DigestView
  buckets : List (UserId × List DueLoan)
  later : List DigestType

/-- A transaction of `emitFor`: its recipient and candidates, and the switch it read again, if it
is an owner's. -/
structure EmitTx where
  emission : Emission
  userId : UserId
  candidates : List DueLoan
  switch : Option Bool

/-- Where a process is in its pass. -/
inductive DigestPhase
  | scanning (now : Time) (types : List DigestType)
  | emitting (e : Emission)
  | started (t : EmitTx)
  /-- The rows are locked; `view` is what there was then. -/
  | locked (t : EmitTx) (rows : List Loan) (view : DigestView)

/-- A committed digest, with what it was made from. -/
structure LoanDigest where
  key : DigestKey
  payload : DigestPayload
  now : Time
  scanned : DigestView
  locked : DigestView
  switch : Option Bool

/-- Go on with the buckets that are left, then with the types that are left. -/
def Emission.resume (e : Emission) : Option DigestPhase :=
  match e.buckets, e.later with
  | [], [] => none
  | [], types => some (.scanning e.now types)
  | _, _ => some (.emitting e)

/-- The first bucket is done with. -/
def Emission.next (e : Emission) : Option DigestPhase :=
  { e with buckets := e.buckets.tail }.resume

def DigestPhase.lockedRows : DigestPhase → List Loan
  | .locked _ rows _ => rows
  | _ => []

namespace EmitTx

def key (t : EmitTx) : DigestKey := ⟨t.userId, t.emission.type, isoDayOf t.emission.now⟩

/-- The digest of the rows that the transaction has locked. -/
def digest (t : EmitTx) (rows : List Loan) (view : DigestView) : LoanDigest where
  key := t.key
  payload := digestPayload t.emission.type (stillDue t.emission.type t.emission.now rows)
  now := t.emission.now
  scanned := t.emission.scanned
  locked := view
  switch := t.switch

end EmitTx

/-- The world, the owners' switches, the committed digests and the passes under way. -/
structure Reminding where
  world : World
  ownerDueReminders : UserId → Bool
  digests : List LoanDigest
  passes : ProcessId → Option DigestPhase

inductive RemindingOp
  | world (op : Op)
  | setOwnerDueReminders (userId : UserId) (on : Bool)
  | run (p : ProcessId) (now : Time)
  | scan (p : ProcessId) (loans : List Loan)
  | start (p : ProcessId)
  | lock (p : ProcessId) (rows : List Loan)
  | insert (p : ProcessId)
  | crash (p : ProcessId)

namespace Reminding

def view (s : Reminding) : DigestView := ⟨s.world.db.loans, s.ownerDueReminders⟩

/-- A process goes on in the phase `ph`, or has finished its pass. -/
def moveOn (s : Reminding) (p : ProcessId) (ph : Option DigestPhase) : Reminding :=
  { s with passes := Function.update s.passes p ph }

/-- No row that a transaction has locked is among `rows`. -/
def Unlocked (s : Reminding) (rows : List Loan) : Prop :=
  ∀ p ph, s.passes p = some ph → ∀ l ∈ ph.lockedRows, ∀ r ∈ rows, r.id ≠ l.id

/-- The steps. -/
inductive Step (secrets : GuestConfirmationSecrets) : Reminding → RemindingOp → Reminding → Prop
  /-- A transaction that changes a locked row waits for the end of the lock. -/
  | world {s : Reminding} {op : Op} {w : World} : s.world.Step secrets op w →
      (∀ p ph, s.passes p = some ph → ∀ l ∈ ph.lockedRows, l ∈ w.db.loans) →
      Step secrets s (.world op) { s with world := w }
  | setOwnerDueReminders {s : Reminding} {userId : UserId} {on : Bool} :
      Step secrets s (.setOwnerDueReminders userId on)
        { s with ownerDueReminders := Function.update s.ownerDueReminders userId on }
  | run {s : Reminding} {p : ProcessId} {now : Time} : s.passes p = none →
      Step secrets s (.run p now)
        (s.moveOn p (some (.scanning now [.dueSoon, .overdue, .dueSoonOwner])))
  /-- `findMany` has no order of its own. -/
  | scan {s : Reminding} {p : ProcessId} {now : Time} {type : DigestType}
      {later : List DigestType} {loans : List Loan} :
      s.passes p = some (.scanning now (type :: later)) →
      loans.Perm (s.world.db.loans.rows.filter (type.scans s.ownerDueReminders)) →
      Step secrets s (.scan p loans) (s.moveOn p (Emission.resume
        ⟨now, type, s.view, byUser (loans.filterMap (type.dueLoan now)), later⟩))
  | start {s : Reminding} {p : ProcessId} {e : Emission} {userId : UserId}
      {candidates : List DueLoan} {rest : List (UserId × List DueLoan)} :
      s.passes p = some (.emitting e) → e.buckets = (userId, candidates) :: rest →
      Step secrets s (.start p) (s.moveOn p
        (if e.type.isOwnerReminder then
          if s.ownerDueReminders userId then some (.started ⟨e, userId, candidates, some true⟩)
          else e.next
        else some (.started ⟨e, userId, candidates, none⟩)))
  | lock {s : Reminding} {p : ProcessId} {t : EmitTx} {rows : List Loan} :
      s.passes p = some (.started t) →
      rows.Perm (s.world.db.loans.rows.filter
        (t.emission.type.locks t.userId t.candidates)) → s.Unlocked rows →
      Step secrets s (.lock p rows) (s.moveOn p
        (if stillDue t.emission.type t.emission.now rows = [] then t.emission.next
        else some (.locked t rows s.view)))
  /-- Another digest of the key: the unique index refuses this one, and the pass goes on. -/
  | insert {s : Reminding} {p : ProcessId} {t : EmitTx} {rows : List Loan} {view : DigestView} :
      s.passes p = some (.locked t rows view) →
      Step secrets s (.insert p) ({ s with
        digests := if t.key ∈ s.digests.map LoanDigest.key then s.digests
          else t.digest rows view :: s.digests }.moveOn p t.emission.next)
  | crash {s : Reminding} {p : ProcessId} : Step secrets s (.crash p) (s.moveOn p none)

/-- A library before any loan, and nobody was reminded. -/
structure Init (s : Reminding) : Prop where
  world : s.world.Init
  no_digests : s.digests = []
  no_passes : ∀ p, s.passes p = none

end Reminding

/-- The machine of the digests. -/
def reminders (secrets : GuestConfirmationSecrets) : Machine Reminding RemindingOp where
  init := Reminding.Init
  step := Reminding.Step secrets

end Bookswap
