import Bookswap.Catalog.MergeService
import Bookswap.Lib.RowLocks
import Bookswap.Lib.Service
import Mathlib.Data.List.Sort

/-!
# Merges beside other writers, statement by statement

What a merge is about, of the whole catalog: the pointers of the works, and the rows that reference
a work. The operations that write such rows run beside merges; each guards itself against a merged
work in its own way.

- `WorkRows`, `RowWrite`: the tables, and what a statement writes.
- `mergeScript`: `MergeService.merge`.
- `createEditionScript`, `chainScript`, `newChainScript`, `setStatusScript`: writers that lock the
  work first; `assertCanonicalScript`, `insertScript`: a check and an `INSERT` that are two
  transactions.
- `workWriters`: the service.
-/

namespace Bookswap

open ReadCommitted RowLocks

/-! ## Tables -/

/-- The tables that reference a work. -/
inductive ReferenceTable
  | translations | editions | reviews | wishlist | statuses
  deriving DecidableEq, Repr

/-- A row that references a work; `stamp` is what a merge prefers rows by. -/
structure Reference where
  id : Nat
  userId : UserId
  workId : WorkId
  stamp : Time
  status : Option ReadingStatus
  archived : Bool
  deriving DecidableEq, Repr

/-- A row of `Work`. -/
structure WorkPointer where
  id : WorkId
  mergedIntoId : Option WorkId
  deriving DecidableEq, Repr

structure WorkRows where
  works : List WorkPointer
  rows : ReferenceTable → List Reference

namespace WorkRows

variable (s : WorkRows)

def work? (id : WorkId) : Option WorkPointer := s.works.find? fun w => w.id = id

/-- What the work was merged into. -/
def mergedInto (id : WorkId) : Option WorkId := (s.work? id).bind WorkPointer.mergedIntoId

/-- `resolve` -/
def resolve (id : WorkId) : Option WorkId := (s.work? id).map fun w => w.mergedIntoId.getD w.id

/-- The works that were merged into this one. -/
def incoming (id : WorkId) : List WorkId :=
  (s.works.filter fun w => w.mergedIntoId = some id).map WorkPointer.id

/-- The rows of the table that reference the work. -/
def idsOn (table : ReferenceTable) (id : WorkId) : List Nat :=
  ((s.rows table).filter fun r => r.workId = id).map Reference.id

/-- The rows of one table change. -/
def updateRows (table : ReferenceTable) (f : List Reference → List Reference) : WorkRows :=
  { s with rows := Function.update s.rows table (f (s.rows table)) }

end WorkRows

/-! ## Writes -/

inductive RowWrite
  | createWork (id : WorkId)
  | insert (table : ReferenceTable) (row : Reference)
  | setStatus (id : Nat) (status : ReadingStatus) (now : Time)
  | archive (ids : List Nat)
  | delete (table : ReferenceTable) (ids : List Nat)
  /-- `UPDATE … SET "workId" = target WHERE "workId" = source`, with the rows it found. -/
  | move (table : ReferenceTable) (ids : List Nat) (source target : WorkId)
  /-- `UPDATE "Work" SET "mergedIntoId" = target WHERE "mergedIntoId" = source`, likewise. -/
  | repoint (ids : List WorkId) (source target : WorkId)
  | point (source target : WorkId)
  deriving DecidableEq, Repr

namespace RowWrite

/-- What the write makes of a work. -/
def onWork : RowWrite → WorkPointer → WorkPointer
  | .repoint ids source target, w =>
    if w.id ∈ ids ∧ w.mergedIntoId = some source then { w with mergedIntoId := some target } else w
  | .point source target, w => if w.id = source then { w with mergedIntoId := some target } else w
  | _, w => w

/-- What the write makes of a row of the table, if it leaves it. -/
def onRow (table : ReferenceTable) : RowWrite → Reference → Option Reference
  | .setStatus id status now, r =>
    some (if table = .statuses ∧ r.id = id then { r with status := some status, stamp := now }
      else r)
  | .archive ids, r =>
    some (if table = .reviews ∧ r.id ∈ ids then { r with archived := true } else r)
  | .delete table' ids, r => if table = table' ∧ r.id ∈ ids then none else some r
  | .move table' ids source target, r =>
    some (if table = table' ∧ r.id ∈ ids ∧ r.workId = source then { r with workId := target }
      else r)
  | _, r => some r

/-- The rows that the write adds to the table. -/
def added (table : ReferenceTable) : RowWrite → List Reference
  | .insert table' row => if table = table' then [row] else []
  | _ => []

/-- The works that the write adds. -/
def created : RowWrite → List WorkPointer
  | .createWork id => [⟨id, none⟩]
  | _ => []

def apply (x : RowWrite) (s : WorkRows) : WorkRows where
  works := x.created ++ s.works.map x.onWork
  rows table := x.added table ++ (s.rows table).filterMap (x.onRow table)

@[simp] theorem onWork_id (x : RowWrite) (w : WorkPointer) : (x.onWork w).id = w.id := by
  cases x with
  | repoint | point =>
    unfold onWork
    dsimp only
    split <;> rfl
  | _ => rfl

end RowWrite

/-- The identifier of a work is its key. -/
def workRowsSchema : Schema WorkRows RowWrite WorkId where
  write := RowWrite.apply
  keys x := x.created.map WorkPointer.id
  taken s id := s.works.any fun w => w.id = id
  taken_write x s k := by
    simp only [RowWrite.apply, List.any_append, Bool.or_eq_true, List.any_eq_true, List.mem_map,
      decide_eq_true_eq]
    refine or_congr Iff.rfl ?_
    constructor
    · rintro ⟨_, ⟨w, hw, rfl⟩, hid⟩
      exact ⟨w, hw, (x.onWork_id w).symm.trans hid⟩
    · rintro ⟨w, hw, hid⟩
      exact ⟨_, ⟨w, hw, rfl⟩, (x.onWork_id w).trans hid⟩

/-! ## Scripts -/

inductive WorkRowsError
  | merge (e : WorkMergeErrorCode)
  | notFound
  | merged (canonicalWorkId : WorkId)
  /-- The foreign key of an `INSERT` is violated. -/
  | foreignKey
  /-- Neither found nor inserted. -/
  | broken
  deriving DecidableEq, Repr

/-- A call that writes rows on a work, and where it is. -/
inductive WorkCall
  | merge (sourceWorkId targetWorkId : WorkId)
  | createTranslation (userId : UserId) (workId : WorkId) (now : Time)
  | createEdition (userId : UserId) (workId : WorkId) (now : Time)
  /-- A quick add of a work that is there, with a translation or without. -/
  | chain (userId : UserId) (workId : WorkId) (translation : Bool) (now : Time)
  /-- A quick add of a new work. -/
  | newChain (userId : UserId) (translation : Bool) (now : Time)
  | addToWishlist (userId : UserId) (workId : WorkId) (now : Time)
  | setStatus (userId : UserId) (workId : WorkId) (status : ReadingStatus) (now : Time)
  /-- The check has passed; the `INSERT` is a transaction of its own. -/
  | inserting (table : ReferenceTable) (userId : UserId) (workId : WorkId) (now : Time)
  | finished (result : Except WorkRowsError Unit)

/-- The database, and the calls on it. -/
abbrev WorkServing :=
  Serving WorkRows RowWrite (RowLock WorkId) Nat Unit Unit WorkRowsError WorkCall

abbrev RowScript (α : Type) :=
  Script WorkRows RowWrite (RowLock WorkId) Nat Unit Unit WorkRowsError α

/-- The rows are locked one after the other, in the order given. -/
def lockAll (mode : LockMode) (ids : List WorkId) : RowScript PUnit :=
  ids.forM fun id => .acquire ⟨id, mode⟩

/-- A work that is there and not merged, of those that are read. -/
def canonicalOrThrow (work : Option WorkPointer) : RowScript Unit :=
  match work with
  | none => .throw .notFound
  | some ⟨_, some canonical⟩ => .throw (.merged canonical)
  | some ⟨_, none⟩ => pure ()

/-! ### merge -/

/-- `lockWorks`: the rows are found first, then locked by id. -/
def lockWorks (sourceWorkId targetWorkId : WorkId) : RowScript PUnit := do
  let incoming ← .select fun s => s.incoming sourceWorkId
  lockAll .update ((sourceWorkId :: targetWorkId :: incoming).insertionSort (· ≤ ·))

/-- `assertMergeable`, of the works as they are read. -/
def mergeable (source target : Option WorkPointer) : Except WorkRowsError Unit :=
  match source, target with
  | none, _ | some _, none => .error (.merge .workNotFound)
  | some ⟨_, some _⟩, some _ => .error (.merge .sourceAlreadyMerged)
  | some ⟨_, none⟩, some ⟨_, some _⟩ => .error (.merge .targetAlreadyMerged)
  | some ⟨_, none⟩, some ⟨_, none⟩ => .ok ()

/-- The row of the source wins over that of the target. -/
def prefersSource : ReferenceTable → Reference → Reference → Bool
  | .wishlist, r, q => r.stamp < q.stamp
  | _, r, q => r.stamp > q.stamp

/-- The rows of the table that lose: of each reader with one on both works, one of the two. -/
def losingRows (table : ReferenceTable) (sourceWorkId targetWorkId : WorkId) (s : WorkRows) :
    List Nat :=
  losersOf Reference.userId Reference.workId Reference.id (prefersSource table)
    (onEither Reference.workId sourceWorkId targetWorkId
      ((s.rows table).filter fun r => !r.archived)) sourceWorkId

/-- `UPDATE … WHERE "workId" = source` -/
def moveTable (sourceWorkId targetWorkId : WorkId) (table : ReferenceTable) : RowScript Unit := do
  let ids ← .select fun s => s.idsOn table sourceWorkId
  .insert (.move table ids sourceWorkId targetWorkId)

/-- `merge`, after its check of the arguments. The language of editions and the author lists are
left out: they reference no work. -/
def mergeScript (sourceWorkId targetWorkId : WorkId) : RowScript WorkCall := do
  lockWorks sourceWorkId targetWorkId
  let source ← .select fun s => s.work? sourceWorkId
  let target ← .select fun s => s.work? targetWorkId
  .ofExcept (mergeable source target)
  let reviews ← .select (losingRows .reviews sourceWorkId targetWorkId)
  .insert (.archive reviews)
  let items ← .select (losingRows .wishlist sourceWorkId targetWorkId)
  .insert (.delete .wishlist items)
  let statuses ← .select (losingRows .statuses sourceWorkId targetWorkId)
  .insert (.delete .statuses statuses)
  moveTable sourceWorkId targetWorkId .translations
  moveTable sourceWorkId targetWorkId .editions
  moveTable sourceWorkId targetWorkId .reviews
  moveTable sourceWorkId targetWorkId .wishlist
  moveTable sourceWorkId targetWorkId .statuses
  let incoming ← .select fun s => s.incoming sourceWorkId
  lockAll .noKeyUpdate incoming
  .insert (.repoint incoming sourceWorkId targetWorkId)
  .insert (.point sourceWorkId targetWorkId)
  return .finished (.ok ())

/-! ### Writers that lock the work -/

/-- `lockWork` and the read of the work under the lock. -/
def lockExisting (workId : WorkId) : RowScript Unit := do
  .acquire ⟨workId, .update⟩
  let work ← .select fun s => s.work? workId
  canonicalOrThrow work

/-- A row of the table for the work, with a new id. -/
def insertRow (table : ReferenceTable) (userId : UserId) (workId : WorkId)
    (status : Option ReadingStatus) (now : Time) : RowScript Unit := do
  let id ← .draw
  .insert (.insert table ⟨id, userId, workId, now, status, false⟩)

/-- `createEdition` -/
def createEditionScript (userId : UserId) (workId : WorkId) (now : Time) : RowScript WorkCall := do
  lockExisting workId
  insertRow .editions userId workId none now
  return .finished (.ok ())

/-- The rows of a chain under its work. -/
def insertChain (userId : UserId) (workId : WorkId) (translation : Bool) (now : Time) :
    RowScript WorkCall := do
  if translation then
    insertRow .translations userId workId none now
  insertRow .editions userId workId none now
  return .finished (.ok ())

/-- `createManual` of a work that is there, and `createUnspecifiedEdition`. -/
def chainScript (userId : UserId) (workId : WorkId) (translation : Bool) (now : Time) :
    RowScript WorkCall := do
  lockExisting workId
  insertChain userId workId translation now

/-- `createManual` of a new work, and `createFromExternal`. A row that nobody can have named before
it is there is nobody else's: that the identifier is new is said by its lock. -/
def newChainScript (userId : UserId) (translation : Bool) (now : Time) : RowScript WorkCall := do
  let workId ← .draw
  .acquire ⟨workId, .update⟩
  .insert (.createWork workId)
  insertChain userId workId translation now

/-- `ReadingStatusService.set`, with one round of `writeStatus`: the second is for a row that
somebody inserted meanwhile. -/
def setStatusScript (userId : UserId) (workId : WorkId) (status : ReadingStatus) (now : Time) :
    RowScript WorkCall := do
  .acquire ⟨workId, .share⟩
  let work ← .select fun s => s.work? workId
  canonicalOrThrow work
  let row ← .select fun s =>
    (s.rows .statuses).find? fun r => r.userId = userId ∧ r.workId = workId
  match row with
  | some row =>
    if row.status ≠ some status then
      .insert (.setStatus row.id status now)
    return .finished (.ok ())
  | none =>
    insertRow .statuses userId workId (some status) now
    return .finished (.ok ())

/-! ### A check and an `INSERT` -/

/-- `assertCanonical`: a plain read. -/
def assertCanonicalScript (workId : WorkId) (next : WorkCall) : RowScript WorkCall := do
  let work ← .select fun s => s.work? workId
  canonicalOrThrow work
  return next

/-- The `INSERT` of `createTranslation` and of `WishlistService.add`. The foreign key takes
`FOR KEY SHARE` on the work; a wishlist item that is there already is returned. -/
def insertScript (table : ReferenceTable) (userId : UserId) (workId : WorkId) (now : Time) :
    RowScript WorkCall := do
  .acquire ⟨workId, .keyShare⟩
  let work ← .select fun s => s.work? workId
  if work.isNone then .throw .foreignKey
  let present ← .select fun s =>
    (s.rows table).any fun r => table = .wishlist ∧ r.userId = userId ∧ r.workId = workId
  if !present then
    insertRow table userId workId none now
  return .finished (.ok ())

/-- The transaction of a call. -/
def WorkCall.script : WorkCall → Option (RowScript WorkCall)
  | .merge source target => some do
    if source = target then .throw (.merge .self)
    mergeScript source target
  | .createTranslation userId workId now =>
    some (assertCanonicalScript workId (.inserting .translations userId workId now))
  | .createEdition userId workId now => some (createEditionScript userId workId now)
  | .chain userId workId translation now => some (chainScript userId workId translation now)
  | .newChain userId translation now => some (newChainScript userId translation now)
  | .addToWishlist userId workId now =>
    some (assertCanonicalScript workId (.inserting .wishlist userId workId now))
  | .setStatus userId workId status now => some (setStatusScript userId workId status now)
  | .inserting table userId workId now => some (insertScript table userId workId now)
  | .finished _ => none

/-- The call is a request, not in the middle of one. -/
def WorkCall.isRequest : WorkCall → Bool
  | .inserting .. | .finished _ => false
  | _ => true

def WorkCall.isFinished : WorkCall → Bool
  | .finished _ => true
  | _ => false

/-- Every merged work points to one that is not merged, and works and what references them are
there. -/
structure WorkRows.Sound (s : WorkRows) : Prop where
  ids : (s.works.map WorkPointer.id).Nodup
  forest : ∀ w ∈ s.works, ∀ t, w.mergedIntoId = some t → ⟨t, none⟩ ∈ s.works
  present : ∀ table, ∀ r ∈ s.rows table, ∃ w ∈ s.works, w.id = r.workId

/-- No row references a work that was merged into another. -/
def WorkRows.NothingLeft (s : WorkRows) : Prop :=
  ∀ table, ∀ r ∈ s.rows table, s.mergedInto r.workId = none

/-- Merges, and whatever else writes rows on works, from tables that satisfy `start`. -/
def workWriters (start : WorkRows → Prop) : Service WorkRows RowWrite WorkId (RowLock WorkId) Nat
    Unit Unit WorkRowsError WorkCall where
  schema := workRowsSchema
  script _ call := call.script
  failed _ e := .finished (.error e)
  refused _ _ := .finished (.error .broken)
  answers _ _ := True
  posts _ call := call.isRequest = true
  elsewhere _ _ := False
  init s := s.Sound ∧ start s
  conflict := RowLock.Conflict
  conflict_symm _ _ h := h.symm

end Bookswap
