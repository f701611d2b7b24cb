import Bookswap.Import.ImportRepository

/-!
# library-import.service.ts: the calls

`preview`, `patchRow`, `commit`, `getDraft` and the expiry of drafts as chains of transactions. The
calls to the providers are between transactions, and nothing that was read before a transaction is
taken for granted within it.

- `ImportRequest`, `ImportStage`, `ImportReply`: what is asked, where a call is, what is answered.
- `importScript`: the transaction of each stage.
- `libraryImport`: the service.
-/

namespace Bookswap

open ReadCommitted

variable (env : ImportEnv)

inductive ImportRequest
  | preview (ownerId : UserId) (file : ParsedFile env)
  | patchRow (ownerId : UserId) (importId : ImportId) (rowNumber : Nat)
    (request : LibraryImportRowPatchRequest)
  | commit (ownerId : UserId) (importId : ImportId) (expectedDraftVersion : String)
  | getDraft (ownerId : UserId) (importId : ImportId)
  | expireOwnerDrafts (ownerId : UserId)

inductive ImportReply
  | draft (owned : OwnedLibraryImport)
  /-- The answer to a commit has no rows. -/
  | committed (outcome : CommitOutcome) (summary : LibraryImport)
  | expired (count : Nat)

/-- Where a call is. -/
inductive ImportStage
  /-- The first transaction. -/
  | start
  /-- `preview`: no live draft was there. -/
  | resolving (now : Time)
  | saving (input : NewDraft) (again : Bool)
  /-- `preview`: another one was first. -/
  | reading (importId : ImportId)
  /-- `patchRow`: the row was there in the expected version. -/
  | updating (target : LibraryImportRowRecord)
  | answered (answer : Except ImportFailure ImportReply)

/-! ## The outside and the catalog -/

def outside : ImportScript ImportOutside := .request ()

/-- What the resolution reads, one statement after the other. -/
def readCatalogView (cached : String → Option BatchLookupRowOutcome) : ImportScript CatalogView := do
  let editions ← .select ImportDb.catalog
  let ranking ← .select ImportDb.catalog
  let works ← .select ImportDb.catalog
  return ⟨editions, cached, ranking, works⟩

/-- The lookups for the ISBNs without a local edition. -/
def fetchUnresolved (isbns : List String) : ImportScript (String → Option BatchLookupRowOutcome) := do
  let unresolved ← .select fun db =>
    isbns.filter fun isbn13 => (findLocalEdition db.catalog isbn13).isNone
  let answer ← outside
  return fun isbn13 => if isbn13 ∈ unresolved then answer.fetched isbn13 else none

/-! ## Transactions -/

def findByHash (ownerId : UserId) (sourceHash : String) : ImportScript ImportStage := do
  let now ← ImportOutside.now <$> outside
  match ← findOwned env ownerId (byHash ownerId sourceHash) now with
  | some existing =>
    if existing.summary.status ≠ .expired then return .answered (.ok (.draft existing))
    else return .resolving now
  | none => return .resolving now

/-- `resolveRows`, with the check that `saveDraft` makes before its transaction. -/
def resolveDraft (call : Nat) (ownerId : UserId) (file : ParsedFile env) (now : Time) :
    ImportScript ImportStage := do
  let resolvable := toResolvable (file.rows.map toDraftInput) fun _ => none
  let fetched ← fetchUnresolved (resolvable.map fun row => row.values.isbn13)
  let cached ← ImportOutside.cached <$> outside
  let view ← readCatalogView cached
  let input : NewDraft :=
    ⟨ownerId, file.sourceHash, file.copyCount, previewRows env call file view fetched, now⟩
  let rows ← .ofExcept (validateRowsForWrite env input)
  return .saving { input with rows } false

def saveDraft (input : NewDraft) : ImportScript ImportStage := do
  let (outcome, summary) ← saveDraftInTransaction input
  match outcome with
  | .created | .revived => return .answered (.ok (.draft ⟨summary, input.rows⟩))
  | .existingDraft | .committed => return .reading summary.id

def getDraft (ownerId : UserId) (importId : ImportId) : ImportScript ImportStage := do
  let now ← ImportOutside.now <$> outside
  let found ← findOwned env ownerId (byId ownerId importId) now
  let owned ← .ofExcept (requireLive found)
  return .answered (.ok (.draft owned))

def findPatchable (ownerId : UserId) (importId : ImportId) (rowNumber : Nat)
    (request : LibraryImportRowPatchRequest) : ImportScript ImportStage := do
  let now ← ImportOutside.now <$> outside
  let found ← findOwned env ownerId (byId ownerId importId) now
  let target ← .ofExcept (requirePatchable found rowNumber request.expectedRowVersion)
  return .updating target

/-- `prefetch`: the lookup for the row as the action leaves it. -/
def prefetch (target : LibraryImportRowRecord) (action : RowAction) :
    ImportScript (String → Option BatchLookupRowOutcome) :=
  match action, (patchedInput env target action).values with
  | .skip, _ => return fun _ => none
  | _, none => return fun _ => none
  | _, some values => fetchUnresolved [values.isbn13]

/-- `rebuild`: the checks again, under the lock, and then the rows. -/
def rebuild (call : Nat) (rowNumber : Nat) (request : LibraryImportRowPatchRequest)
    (fetched : String → Option BatchLookupRowOutcome) (owned : OwnedLibraryImport) :
    ImportScript (List LibraryImportRowRecord) := do
  let _ ← .ofExcept (requirePatchable (some owned) rowNumber request.expectedRowVersion)
  let cached ← ImportOutside.cached <$> outside
  let view ← readCatalogView cached
  .ofExcept (rebuildRows env call owned.rows rowNumber request.action view fetched)

def patchRow (call : Nat) (ownerId : UserId) (importId : ImportId) (rowNumber : Nat)
    (request : LibraryImportRowPatchRequest) (target : LibraryImportRowRecord) :
    ImportScript ImportStage := do
  let fetched ← prefetch env target request.action
  let now ← ImportOutside.now <$> outside
  let updated ← updateRows env ownerId importId now (rebuild env call rowNumber request fetched)
  let owned ← .ofExcept (requireLive updated)
  return .answered (.ok (.draft owned))

/-- `requireCurrentDraft` -/
def requireCurrentDraft (rows : List LibraryImportRowRecord) (expected : String) :
    Except ImportFailure Unit :=
  if toDraftVersion env rows = expected then .ok () else .error (.notReady .draftChanged)

/-- The plan of a draft that may be committed. -/
def requirePlan (owned : OwnedLibraryImport) (expectedDraftVersion : String) :
    Except ImportFailure LibraryImportCommitPlan := do
  let _ ← requireLive (some owned)
  requireCurrentDraft env owned.rows expectedDraftVersion
  let assessed := assessLibraryImportCommit owned.rows
  match assessed.blockers with
  | blocker :: _ => .error (.notReady blocker)
  | [] =>
    if exceedsCopyCap assessed.plan.copyCount then .error (.tooManyCopies assessed.plan.copyCount)
    else .ok assessed.plan

/-- `commit`: what its transaction applies. -/
def applyCommit (ownerId : UserId) (expectedDraftVersion : String) (now : Time)
    (owned : OwnedLibraryImport) : ImportScript (List (List Copy)) := do
  let plan ← .ofExcept (requirePlan env owned expectedDraftVersion)
  writeImport env now ownerId plan

def commitDraft (ownerId : UserId) (importId : ImportId) (expectedDraftVersion : String) :
    ImportScript ImportStage := do
  let now ← ImportOutside.now <$> outside
  match ← commitImport env ownerId importId now (applyCommit env ownerId expectedDraftVersion now) with
  | none => return .answered (.error importNotFound)
  | some (outcome, summary) => return .answered (.ok (.committed outcome summary))

def expireDrafts (ownerId : UserId) : ImportScript ImportStage := do
  let now ← ImportOutside.now <$> outside
  let count ← expireOwnerDrafts ownerId now
  return .answered (.ok (.expired count))

/-! ## The service -/

/-- The transaction of a stage of the call `r`. -/
def importScript (request : Nat → ImportRequest env) (r : Nat) (stage : ImportStage) :
    Option (ImportScript ImportStage) :=
  match request r, stage with
  | .preview ownerId file, .start => some (findByHash env ownerId file.sourceHash)
  | .preview ownerId file, .resolving now => some (resolveDraft env r ownerId file now)
  | .preview _ _, .saving input _ => some (saveDraft input)
  | .preview ownerId _, .reading importId => some (getDraft env ownerId importId)
  | .patchRow ownerId importId rowNumber request, .start =>
    some (findPatchable env ownerId importId rowNumber request)
  | .patchRow ownerId importId rowNumber request, .updating target =>
    some (patchRow env r ownerId importId rowNumber request target)
  | .commit ownerId importId version, .start => some (commitDraft env ownerId importId version)
  | .getDraft ownerId importId, .start => some (getDraft env ownerId importId)
  | .expireOwnerDrafts ownerId, .start => some (expireDrafts ownerId)
  | _, _ => none

/-- A first insertion that another preview of the file was faster than is repeated. -/
def importRefused (stage : ImportStage) (key : ImportKey) : ImportStage :=
  match stage with
  | .saving input false =>
    if key.constraint = "LibraryImport_ownerId_sourceHash_key" then .saving input true
    else .answered (.error (.uniqueViolation key.constraint))
  | _ => .answered (.error (.uniqueViolation key.constraint))

/-- What other services may do: the drafts are the import's alone. -/
structure ImportElsewhere (db db' : ImportDb) : Prop where
  imports : db'.imports = db.imports
  rows : db'.rows = db.rows

/-- The calls of any clients, numbered, with what they ask. -/
def libraryImport (request : Nat → ImportRequest env) :
    Service ImportDb ImportWrite ImportKey ImportLock Nat Unit ImportOutside ImportFailure
      ImportStage where
  schema := importSchema
  script := importScript env request
  failed _ e := .answered (.error e)
  refused := importRefused
  answers _ _ := True
  posts _ stage := stage = .start
  elsewhere := ImportElsewhere
  init db := db.imports = [] ∧ db.rows = fun _ => []

end Bookswap
