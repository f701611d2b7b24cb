import Bookswap.Import.ImportWriter

/-!
# library-import.repository.ts

The transactions on the stored drafts. Each first expires the owner's overdue drafts; whoever
changes an import holds the lock of its row.

- `expireOwnerDrafts`, `readOwned`: the parts that they share.
- `saveDraftInTransaction`, `updateRows`, `commitImport`.
-/

namespace Bookswap

open ReadCommitted

variable (env : ImportEnv)

/-- `expireOwnerDrafts`: how many were expired. The candidates are locked and then read again. -/
def expireOwnerDrafts (ownerId : UserId) (now : Time) : ImportScript Nat := do
  let candidates ← .select fun db => ((db.overdue ownerId now).map LibraryImport.id).mergeSort (· ≤ ·)
  if candidates = [] then return 0
  else
    (candidates.map ImportLock.libraryImport).forM fun n => .acquire n
    let ids ← .select fun db =>
      ((db.overdue ownerId now).map LibraryImport.id).filter fun id => id ∈ candidates
    if ids = [] then return 0
    else
      .insert (.deleteRows ids)
      .insert (.expire ownerId now ids)
      return ids.length

/-- `validateRowOnRead` -/
def validateRowOnRead (row : LibraryImportRowRecord) : Except ImportFailure LibraryImportRowRecord :=
  match libraryImportRowRecordSchema env row with
  | none => .error (.payload .read (some row.rowNumber))
  | some parsed => .ok parsed

/-- `readOwned`, by id or by the digest of the file. -/
def readOwned (wanted : LibraryImport → Bool) : ImportScript (Option OwnedLibraryImport) := do
  match ← .select fun db => (db.imports.find? wanted).map fun i =>
      (OwnedLibraryImport.mk i (sortRows (db.rows i.id))) with
  | none => return none
  | some found =>
    let rows ← .ofExcept (found.rows.mapM (validateRowOnRead env))
    return some ⟨found.summary, rows⟩

def byId (ownerId : UserId) (importId : ImportId) (i : LibraryImport) : Bool :=
  i.ownerId = ownerId && i.id = importId

def byHash (ownerId : UserId) (sourceHash : String) (i : LibraryImport) : Bool :=
  i.ownerId = ownerId && i.sourceHash = sourceHash

/-- `findOwned`, `findOwnedByHash` -/
def findOwned (ownerId : UserId) (wanted : LibraryImport → Bool) (now : Time) :
    ImportScript (Option OwnedLibraryImport) := do
  let _ ← expireOwnerDrafts ownerId now
  readOwned env wanted

/-! ## saveDraft -/

/-- `SaveLibraryImportDraftOutcome` -/
inductive SaveOutcome
  | created | existingDraft | revived | committed
  deriving DecidableEq, Repr

/-- The draft that a file makes. -/
structure NewDraft where
  ownerId : UserId
  sourceHash : String
  copyCount : Nat
  rows : List LibraryImportRowRecord
  now : Time

/-- `DRAFT_TTL_MS` -/
def DRAFT_TTL_MS : Time := draftTtlHours * 60 * 60 * 1000

/-- `validateRowsForWrite` -/
def validateRowsForWrite (input : NewDraft) : Except ImportFailure (List LibraryImportRowRecord) :=
  if isHexDigest input.sourceHash ∧ input.copyCount ≤ maxCopies ∧ 1 ≤ input.rows.length ∧
    input.rows.length ≤ maxDataRows
  then validateRows env input.rows
  else .error (.payload .write none)

/-- `SELECT … FOR UPDATE` of the import of the file. -/
def lockByHash (ownerId : UserId) (sourceHash : String) : ImportScript (Option LibraryImport) := do
  match ← .select fun db => db.imports.find? (byHash ownerId sourceHash) with
  | none => return none
  | some found =>
    .acquire (.libraryImport found.id)
    .select fun db => db.imports.find? (byHash ownerId sourceHash)

/-- `readSummary` -/
def readSummary (importId : ImportId) : ImportScript LibraryImport := do
  match ← .select fun db => db.import? importId with
  | none => .throw (.internal "LibraryImport")
  | some found => return found

/-- `saveDraftInTransaction` -/
def saveDraftInTransaction (input : NewDraft) : ImportScript (SaveOutcome × LibraryImport) := do
  let _ ← expireOwnerDrafts input.ownerId input.now
  let expiresAt := input.now + DRAFT_TTL_MS
  match ← lockByHash input.ownerId input.sourceHash with
  | none => do
    let id ← .draw
    .insert (.createImport
      { id := id
        ownerId := input.ownerId
        sourceHash := input.sourceHash
        status := .draft
        rowCount := input.rows.length
        copyCount := input.copyCount
        createdCopyCount := none
        expiresAt := expiresAt
        committedAt := none })
    .insert (.insertRows id input.rows)
    let summary ← readSummary id
    return (.created, summary)
  | some existing =>
    match existing.status with
    | .expired => do
      .insert (.deleteRows [existing.id])
      .insert (.setDraft existing.id input.rows.length input.copyCount expiresAt)
      .insert (.insertRows existing.id input.rows)
      let summary ← readSummary existing.id
      return (.revived, summary)
    | .draft => do
      let summary ← readSummary existing.id
      return (.existingDraft, summary)
    | .committed => do
      let summary ← readSummary existing.id
      return (.committed, summary)

/-! ## updateRows -/

/-- The owner's import under its lock. The source names the owner in the lock, too: whoever is not
the owner reads nothing afterwards. -/
def lockOwned (ownerId : UserId) (importId : ImportId) (now : Time) :
    ImportScript (Option OwnedLibraryImport) := do
  let _ ← expireOwnerDrafts ownerId now
  .acquire (.libraryImport importId)
  readOwned env (byId ownerId importId)

/-- `updateRows` -/
def updateRows (ownerId : UserId) (importId : ImportId) (now : Time)
    (apply : OwnedLibraryImport → ImportScript (List LibraryImportRowRecord)) :
    ImportScript (Option OwnedLibraryImport) := do
  match ← lockOwned env ownerId importId now with
  | none => return none
  | some owned =>
    let rows ← apply owned
    let next ← .ofExcept (validateRows env rows)
    if next ≠ [] then
      .insert (.deleteRows [importId])
      .insert (.insertRows importId next)
    readOwned env (byId ownerId importId)

/-! ## commit -/

/-- `CommitLibraryImportResult.outcome` -/
inductive CommitOutcome
  | committed | alreadyCommitted
  deriving DecidableEq, Repr

/-- `commit` -/
def commitImport (ownerId : UserId) (importId : ImportId) (now : Time)
    (apply : OwnedLibraryImport → ImportScript (List (List Copy))) :
    ImportScript (Option (CommitOutcome × LibraryImport)) := do
  match ← lockOwned env ownerId importId now with
  | none => return none
  | some owned =>
    if owned.summary.status = .committed then return some (.alreadyCommitted, owned.summary)
    else do
      let copies ← apply owned
      .insert (.deleteRows [importId])
      .insert (.setCommitted importId now copies.flatten.length)
      let summary ← readSummary importId
      return some (.committed, summary)

end Bookswap
