import Bookswap.Lib.Machine
import Bookswap.Library.LibraryService
import Bookswap.QuickAdd.CatalogChain

/-!
# quick-add.service.ts

`POST /me/library/quick-add`. `prepare` runs before the transaction and may ask a source; `run` is
the transaction: the lock of the operation, the look-up of an earlier outcome, and otherwise the
chain, the copy and the record of the operation. `transact` repeats it once when it has lost a
race for a key of `RACE_CONSTRAINTS`.

- `prepare`, `run`: the two scripts.
- `QuickAdding`, `QuickAdding.Step`, `quickAdding`: any number of calls, statement by statement,
  between whatever other services commit.
-/

namespace Bookswap

open ReadCommitted

/-- What is known of an external record before the transaction. -/
structure PreparedExternal where
  confirmed : Option ConfirmedExternalEdition
  work : Option ConfirmedExternalWork

def PreparedExternal.nothing : PreparedExternal := ⟨none, none⟩

structure QuickAddResponse where
  operationId : OperationId
  replayed : Bool
  copy : Copy

/-- `hasDetails`: the person refined the record. -/
def QuickAddExternalEditionTarget.hasDetails (t : QuickAddExternalEditionTarget) : Bool :=
  t.edition.isSome || t.translation.isSome

def QuickAddExternalWorkTarget.hasDetails (t : QuickAddExternalWorkTarget) : Bool :=
  t.edition.isSome || t.translation.isSome

/-! ## prepare -/

/-- `prepare` -/
def prepare (isbnFirst : Bool) (userId : UserId) (request : QuickAddRequest) :
    AddScript PreparedExternal := do
  match request.target with
  | .existingEdition _ | .manual _ => return .nothing
  | .externalWork target =>
    let repeated ← .select fun db => db.operation? userId request.operationId
    if repeated.isSome then return .nothing
    let known ← ExternalWork.findLocal target.key
    if needsWorkSource target known then
      return ⟨none, some (← ExternalWork.fetch target.key)⟩
    return .nothing
  | .externalEdition target =>
    let repeated ← .select fun db => db.operation? userId request.operationId
    if repeated.isSome then return .nothing
    let known ← ExternalEdition.findLocal isbnFirst (ExternalEdition.namedBy target)
    if known.editionId.isSome then return .nothing
    return ⟨some (← ExternalEdition.fetch target), none⟩

/-! ## The edition of the target -/

variable (env : QuickAddEnv)

/-- `existingEditionId` -/
def existingEditionId (editionId : EditionId) : AddScript EditionId := do
  match ← .select fun db => db.edition? editionId with
  | none => .throw (.ofCode .notFound "Видання не знайдено" 404)
  | some edition => return edition.id

/-- `rememberReference` -/
def rememberReference (editionId : EditionId) (reference : ExternalReferenceKey) :
    AddScript Unit := do
  .insertNew (.editionReference ⟨reference, editionId⟩)
  match ← .select fun db => db.editionReference? reference with
  | none => .throw (.internal "EditionExternalReference")
  | some stored =>
    if stored.editionId ≠ editionId then
      .throw (.ofCode .externalIdentityConflict
        "Зовнішнє посилання вже належить іншому виданню — примірник не створено" 409
        (.obj [("referenceEditionId", .ofId stored.editionId),
          ("expectedEditionId", .ofId editionId)]))

/-- The confirmed reference is remembered, if there is one. -/
def rememberConfirmed (editionId : EditionId) : Option ExternalReferenceKey → AddScript Unit
  | none => pure ()
  | some reference => rememberReference editionId reference

/-- `manualOn` -/
def manualOn (workId : WorkId) (edition : QuickAddManualEdition)
    (translation : Option QuickAddTranslation) : QuickAddManualTarget :=
  ⟨.existing workId, edition, translation⟩

/-- `createRefinedEdition` -/
def createRefinedEdition (userId : UserId) (target : QuickAddExternalEditionTarget)
    (confirmed : ConfirmedExternalEdition) : AddScript EditionId := do
  let edition := editionFromSource confirmed target.edition
  let workId ← createWorkFromSource env userId
    ⟨confirmed.metadata.title, confirmed.metadata.authors, none, confirmed.metadata.description,
      originalLanguageOf edition⟩
  createManual env userId (manualOn workId edition target.translation)

/-- `editionAlreadyInCatalog` -/
def editionAlreadyInCatalog (editionId : EditionId) : QuickAddFailure :=
  .ofCode .editionIsbnTaken "Це видання вже є в каталозі" 409 (.obj [("editionId", .ofId editionId)])

/-- The identity that the transaction looks for: the confirmed one, else the named one. -/
def identityOf (target : QuickAddExternalEditionTarget) :
    Option ConfirmedExternalEdition → LocalIdentity
  | none => ExternalEdition.namedBy target
  | some confirmed => ⟨confirmed.isbn13, confirmed.reference⟩

/-- The edition was found. -/
def foundEditionId (target : QuickAddExternalEditionTarget)
    (confirmed : Option ConfirmedExternalEdition) (referenceKnown : Bool) (editionId : EditionId) :
    AddScript EditionId := do
  if target.hasDetails then .throw (editionAlreadyInCatalog editionId)
  else
    if referenceKnown = false then
      rememberConfirmed editionId (confirmed.bind ConfirmedExternalEdition.reference)
    return editionId

/-- The edition is created from what the source confirmed. -/
def createdEditionId (userId : UserId) (target : QuickAddExternalEditionTarget) :
    Option ConfirmedExternalEdition → AddScript EditionId
  | none => .throw
    (.internal "Зовнішнє видання не знайдено локально й не було підтверджене джерелом")
  | some confirmed => do
    let editionId ←
      if target.hasDetails then createRefinedEdition env userId target confirmed
      else createFromExternal env userId confirmed.metadata confirmed.isbn13
    rememberConfirmed editionId confirmed.reference
    return editionId

/-- `externalEditionId` -/
def externalEditionId (userId : UserId) (target : QuickAddExternalEditionTarget)
    (confirmed : Option ConfirmedExternalEdition) : AddScript EditionId := do
  let found ← ExternalEdition.findLocal true (identityOf target confirmed)
  match found.editionId with
  | some editionId => foundEditionId target confirmed found.referenceKnown editionId
  | none => createdEditionId env userId target confirmed

/-- `canonicalWorkId`: a merged work stands for its canonical one. -/
def canonicalWorkId (workId : WorkId) : AddScript WorkId :=
  .select fun db => ((db.work? workId).bind Work.mergedIntoId).getD workId

/-- Our work for the record: the known one, or a new one with its reference. -/
def workOfRecord (userId : UserId) (key : ExternalReferenceKey)
    (confirmed : Option ConfirmedExternalWork) : Option KnownExternalWork → AddScript WorkId
  | some known => canonicalWorkId known.workId
  | none =>
    match confirmed with
    | none => .throw (.internal "Новий твір без підтверджених метаданих")
    | some confirmed => do
      let workId ← createWorkFromSource env userId
        ⟨confirmed.title, confirmed.authors, confirmed.firstPubYear, none, none⟩
      .insert (.workReference ⟨key, workId, none⟩)
      return workId

/-- The unspecified edition of the record: the one it has, or a new one. -/
def unspecifiedEditionId (userId : UserId) (key : ExternalReferenceKey)
    (confirmed : Option ConfirmedExternalWork) (known : Option KnownExternalWork)
    (workId : WorkId) : AddScript EditionId :=
  match known.bind KnownExternalWork.editionId with
  | some editionId => return editionId
  | none => do
    let editionId ← createUnspecifiedEdition userId workId
      (confirmed.bind ConfirmedExternalWork.coverUrl)
    .insert (.workReferenceEdition key editionId)
    return editionId

/-- The text of the lock of a work record. -/
def workLockText (key : ExternalReferenceKey) : String :=
  s!"quick-add-work:{key.source.text}:{key.externalId}"

/-- `externalWorkEditionId` -/
def externalWorkEditionId (userId : UserId) (target : QuickAddExternalWorkTarget)
    (confirmed : Option ConfirmedExternalWork) : AddScript EditionId := do
  .acquire (.advisory (env.hashtext (workLockText target.key)))
  let known ← ExternalWork.findLocal target.key
  if needsWorkSource target known ∧ confirmed.isNone then
    .throw (.internal "Запис твору потребує відповіді джерела, але її не отримано")
  else
    let workId ← workOfRecord env userId target.key confirmed known
    if target.hasDetails then
      createManual env userId (manualOn workId (editionOfWorkRecord target.edition
        (confirmed.bind ConfirmedExternalWork.coverUrl)) target.translation)
    else unspecifiedEditionId userId target.key confirmed known workId

/-- `editionIdFor` -/
def editionIdFor (userId : UserId) (target : QuickAddTarget) (prepared : PreparedExternal) :
    AddScript EditionId :=
  match target with
  | .existingEdition editionId => existingEditionId editionId
  | .manual target => createManual env userId target
  | .externalEdition target => externalEditionId env userId target prepared.confirmed
  | .externalWork target => externalWorkEditionId env userId target prepared.work

/-! ## run -/

/-- The visibility of a new copy: as given, else from the profile. -/
def newCopyVisibility (ownerId : UserId) : Option Visibility → AddScript Visibility
  | some visibility => pure visibility
  | none => do
    match ← .select fun db => db.user? ownerId with
    | none => .throw (.internal "User")
    | some owner => return defaultCopyVisibility owner.libraryVisibility

/-- `CopyWriter.create` (copy-writer.ts:51). -/
def createCopy (now : Time) (ownerId : UserId) (editionId : EditionId)
    (values : Option QuickAddCopy) : AddScript Copy := do
  let visibility ← newCopyVisibility ownerId (values.bind QuickAddCopy.visibility)
  let id ← .draw
  let copy : Copy :=
    { id := id
      editionId := editionId
      ownerId := ownerId
      currentHolderId := some ownerId
      heldByContactId := none
      archivedAt := none
      status := .available
      visibility := visibility
      condition := (values.bind QuickAddCopy.condition).getD .good
      note := (values.bind QuickAddCopy.note).join
      acquiredAt := (values.bind QuickAddCopy.acquiredAt).join.map toHandedDate
      createdAt := now }
  .insert (.copy copy)
  return copy

def operationConflict : QuickAddFailure :=
  .ofCode .libraryAddOperationConflict "Цей operationId уже використано для іншого запиту" 409

def resultRemoved : QuickAddFailure :=
  .ofCode .libraryAddResultRemoved
    "Примірник, створений цією операцією, уже видалено — почніть нове додавання" 409

/-- The copy of an earlier outcome, if it still is the user's. -/
def earlierCopy (userId : UserId) : Option CopyId → AddScript (Option Copy)
  | none => pure none
  | some copyId => .select fun db => (db.copy? copyId).filter fun c => c.ownerId = userId

/-- `replay` -/
def replay (userId : UserId) (request : QuickAddRequest) (earlier : LibraryAddOperation) :
    AddScript QuickAddResponse := do
  if earlier.requestHash ≠ requestHashOf env.sha256 request then .throw operationConflict
  else
    match ← earlierCopy userId earlier.copyId with
    | none => .throw resultRemoved
    | some copy => return ⟨request.operationId, true, copy⟩

/-- The first outcome: the chain, the copy and the operation. -/
def firstOutcome (now : Time) (userId : UserId) (request : QuickAddRequest)
    (prepared : PreparedExternal) : AddScript QuickAddResponse := do
  let editionId ← editionIdFor env userId request.target prepared
  let copy ← createCopy now userId editionId request.copy
  .insert (.operation
    { userId := userId
      operationId := request.operationId
      requestHash := requestHashOf env.sha256 request
      targetKind := request.target.kind
      editionId := copy.editionId
      copyId := some copy.id })
  return ⟨request.operationId, false, copy⟩

/-- The text of the lock of an operation. -/
def operationLockText (userId : UserId) (operationId : OperationId) : String :=
  s!"quick-add:{userId}:{operationId}"

/-- `run`: the transaction. -/
def run (now : Time) (userId : UserId) (request : QuickAddRequest) (prepared : PreparedExternal) :
    AddScript QuickAddResponse := do
  .acquire (.advisory (env.hashtext (operationLockText userId request.operationId)))
  match ← .select fun db => db.operation? userId request.operationId with
  | some earlier => replay env userId request earlier
  | none => firstOutcome env now userId request prepared

/-! ## Calls -/

/-- `RACE_CONSTRAINTS` -/
def RACE_CONSTRAINTS : List String :=
  ["Edition_isbn13_key", "EditionExternalReference_source_externalId_key",
    "WorkExternalReference_source_externalId_key", "LibraryAddOperation_userId_operationId_key"]

def MAX_ATTEMPTS : Nat := 2

abbrev RequestId := Nat

/-- One HTTP request. -/
structure QuickAddCall where
  userId : UserId
  request : QuickAddRequest

/-- A transaction of quick-add under way. -/
abbrev AddTx (α : Type) :=
  Open CatalogDb CatalogWrite LockName Nat Unit Provider QuickAddFailure α

/-- Where a call is. -/
inductive QuickAddPhase
  /-- Outside a transaction; the rest of `prepare` only reads and asks. -/
  | preparing (script : AddScript PreparedExternal)
  | transacting (attempt : Nat) (prepared : PreparedExternal) (tx : AddTx QuickAddResponse)
  | answered (answer : Except QuickAddFailure QuickAddResponse)
  /-- The process died before the commit. -/
  | lost

namespace QuickAddPhase

/-- The locks that the call holds. -/
def locks : QuickAddPhase → List LockName
  | .transacting _ _ tx => tx.locks
  | _ => []

/-- The rows that the call has inserted and not committed. -/
def writes : QuickAddPhase → List CatalogWrite
  | .transacting _ _ tx => tx.writes
  | _ => []

end QuickAddPhase

/-- What a commit of a call has written, newest first. -/
structure QuickAddCommit where
  requestId : RequestId
  userId : UserId
  operationId : OperationId
  writes : List CatalogWrite

/-- The database, the calls, and what the calls have committed so far, newest first. -/
structure QuickAdding where
  db : CatalogDb
  calls : RequestId → Option (QuickAddCall × QuickAddPhase)
  commits : List QuickAddCommit

inductive QuickAddingOp
  | post (r : RequestId) (call : QuickAddCall) (isbnFirst : Bool)
  | prepare (r : RequestId)
  /-- The transaction begins. -/
  | begin (r : RequestId) (now : Time)
  | statement (r : RequestId)
  | commit (r : RequestId)
  | fail (r : RequestId)
  /-- A unique index refuses a row: the transaction is repeated, or the call fails. -/
  | refuse (r : RequestId) (key : CatalogKey) (now : Time)
  | timeout (r : RequestId)
  | crash (r : RequestId)
  | elsewhere (db : CatalogDb)

/-- What other services commit: they delete, archive and edit copies and write to the catalog as
they like, but operations are quick-add's. A deleted copy is forgotten by its operation
(`ON DELETE SET NULL`), and no copy changes its owner. -/
structure Elsewhere (db db' : CatalogDb) : Prop where
  operations : db'.operations = db.operations.map fun o =>
    { o with copyId := o.copyId.filter fun c => (db'.copy? c).isSome }
  owners : ∀ c ∈ db'.copies, ∀ c₀ ∈ db.copies, c₀.id = c.id → c.ownerId = c₀.ownerId

namespace QuickAdding

/-- The call `r` is in the phase `ph` now. -/
def move (s : QuickAdding) (r : RequestId) (call : QuickAddCall) (ph : QuickAddPhase) : QuickAdding :=
  { s with calls := Function.update s.calls r (some (call, ph)) }

/-- Another call holds the lock. -/
def Held (s : QuickAdding) (r : RequestId) (n : LockName) : Prop :=
  ∃ q call ph, q ≠ r ∧ s.calls q = some (call, ph) ∧ n ∈ ph.locks

/-- Another call has inserted a row of the key. -/
def Pending (s : QuickAdding) (r : RequestId) (key : CatalogKey) : Prop :=
  ∃ q call ph, q ≠ r ∧ s.calls q = some (call, ph) ∧ key ∈ catalogSchema.keysOf ph.writes

/-- The steps; `answers` are the answers that the sources may give. -/
inductive Step (answers : Provider → Prop) : QuickAdding → QuickAddingOp → QuickAdding → Prop
  | post {s : QuickAdding} {r : RequestId} {call : QuickAddCall} {isbnFirst : Bool} :
      s.calls r = none →
      Step answers s (.post r call isbnFirst)
        (s.move r call (.preparing (Bookswap.prepare isbnFirst call.userId call.request)))
  | prepare {s : QuickAdding} {r : RequestId} {call : QuickAddCall}
      {p p' : AddScript PreparedExternal} : s.calls r = some (call, .preparing p) →
      (Open.start p).Step catalogSchema (fun _ => answers) (fun _ => False) (fun _ => False) s.db
        (.start p') →
      Step answers s (.prepare r) (s.move r call (.preparing p'))
  | begin {s : QuickAdding} {r : RequestId} {call : QuickAddCall} {now : Time}
      {prepared : PreparedExternal} : s.calls r = some (call, .preparing (.done prepared)) →
      Step answers s (.begin r now) (s.move r call (.transacting 1 prepared
        (.start (run env now call.userId call.request prepared))))
  | statement {s : QuickAdding} {r : RequestId} {call : QuickAddCall} {attempt : Nat}
      {prepared : PreparedExternal} {tx tx' : AddTx QuickAddResponse} :
      s.calls r = some (call, .transacting attempt prepared tx) →
      tx.Step catalogSchema (fun _ => answers) (s.Held r) (s.Pending r) s.db tx' →
      Step answers s (.statement r) (s.move r call (.transacting attempt prepared tx'))
  | commit {s : QuickAdding} {r : RequestId} {call : QuickAddCall} {attempt : Nat}
      {prepared : PreparedExternal} {response : QuickAddResponse} {ls : List LockName}
      {ws : List CatalogWrite} :
      s.calls r = some (call, .transacting attempt prepared ⟨.done response, ls, ws⟩) →
      Step answers s (.commit r) { s.move r call (.answered (.ok response)) with
        db := catalogSchema.view s.db ws
        commits := ⟨r, call.userId, call.request.operationId, ws⟩ :: s.commits }
  | failPreparing {s : QuickAdding} {r : RequestId} {call : QuickAddCall} {e : QuickAddFailure} :
      s.calls r = some (call, .preparing (.throw e)) →
      Step answers s (.fail r) (s.move r call (.answered (.error e)))
  | fail {s : QuickAdding} {r : RequestId} {call : QuickAddCall} {attempt : Nat}
      {prepared : PreparedExternal} {e : QuickAddFailure} {ls : List LockName}
      {ws : List CatalogWrite} :
      s.calls r = some (call, .transacting attempt prepared ⟨.throw e, ls, ws⟩) →
      Step answers s (.fail r) (s.move r call (.answered (.error e)))
  | refuse {s : QuickAdding} {r : RequestId} {call : QuickAddCall} {attempt : Nat} {now : Time}
      {prepared : PreparedExternal} {tx : AddTx QuickAddResponse} {key : CatalogKey} :
      s.calls r = some (call, .transacting attempt prepared tx) →
      tx.Refused catalogSchema (s.Pending r) s.db key →
      Step answers s (.refuse r key now) (s.move r call
        (if key.constraint ∈ RACE_CONSTRAINTS ∧ attempt < MAX_ATTEMPTS then
          .transacting (attempt + 1) prepared
            (.start (run env now call.userId call.request prepared))
        else .answered (.error (.refused key))))
  | timeout {s : QuickAdding} {r : RequestId} {call : QuickAddCall} {attempt : Nat}
      {prepared : PreparedExternal} {tx : AddTx QuickAddResponse} :
      s.calls r = some (call, .transacting attempt prepared tx) →
      Step answers s (.timeout r) (s.move r call (.answered (.error .timedOut)))
  | crashPreparing {s : QuickAdding} {r : RequestId} {call : QuickAddCall}
      {p : AddScript PreparedExternal} : s.calls r = some (call, .preparing p) →
      Step answers s (.crash r) (s.move r call .lost)
  | crash {s : QuickAdding} {r : RequestId} {call : QuickAddCall} {attempt : Nat}
      {prepared : PreparedExternal} {tx : AddTx QuickAddResponse} :
      s.calls r = some (call, .transacting attempt prepared tx) →
      Step answers s (.crash r) (s.move r call .lost)
  /-- Whoever would take a key that a call has inserted waits for it. -/
  | elsewhere {s : QuickAdding} {db : CatalogDb} : Elsewhere s.db db →
      (∀ r call ph, s.calls r = some (call, ph) → catalogSchema.Free ph.writes db) →
      Step answers s (.elsewhere db) { s with db := db }

/-- No operation, and no call. -/
structure Init (s : QuickAdding) : Prop where
  no_operations : s.db.operations = []
  no_calls : ∀ r, s.calls r = none
  no_commits : s.commits = []

end QuickAdding

/-- The machine of quick-add. -/
def quickAdding (answers : Provider → Prop) : Machine QuickAdding QuickAddingOp where
  init := QuickAdding.Init
  step := QuickAdding.Step env answers

end Bookswap
