import Bookswap.Import.ImportDraft
import Bookswap.Lib.Service

/-!
# The stored drafts

`LibraryImport` and `LibraryImportRow` of `prisma/schema.prisma`, beside the catalog. The rows of
an import are deleted and inserted together, so they are a list by import.

- `LibraryImport`, `ImportDb`, `ImportWrite`: the tables and what transactions write.
- `importSchema`: what a write does and which unique keys it takes.
- `ImportScript`: a transaction on them.
-/

namespace Bookswap

open ReadCommitted

abbrev ImportId := Nat

inductive LibraryImportStatus
  | draft | expired | committed
  deriving DecidableEq, Repr

/-- `LibraryImportSummary` -/
structure LibraryImport where
  id : ImportId
  ownerId : UserId
  sourceHash : String
  status : LibraryImportStatus
  rowCount : Nat
  copyCount : Nat
  createdCopyCount : Option Nat
  expiresAt : Time
  committedAt : Option Time
  deriving DecidableEq, Repr

structure ImportDb where
  catalog : CatalogDb
  imports : List LibraryImport
  rows : ImportId → List LibraryImportRowRecord

namespace ImportDb

variable (db : ImportDb)

def import? (id : ImportId) : Option LibraryImport := db.imports.find? fun i => i.id = id

/-- The drafts of the owner that are past their TTL. -/
def overdue (ownerId : UserId) (now : Time) : List LibraryImport :=
  db.imports.filter fun i => i.ownerId = ownerId ∧ i.status = .draft ∧ i.expiresAt ≤ now

end ImportDb

/-! ## Writes and unique keys -/

inductive ImportWrite
  | catalog (x : CatalogWrite)
  | createImport (i : LibraryImport)
  /-- `createMany` -/
  | insertRows (importId : ImportId) (rows : List LibraryImportRowRecord)
  /-- `deleteMany` -/
  | deleteRows (ids : List ImportId)
  /-- `updateMany` of what is still overdue. -/
  | expire (ownerId : UserId) (now : Time) (ids : List ImportId)
  /-- A revived draft. -/
  | setDraft (id : ImportId) (rowCount copyCount : Nat) (expiresAt : Time)
  | setCommitted (id : ImportId) (committedAt : Time) (createdCopyCount : Nat)

inductive ImportKey
  | catalog (key : CatalogKey)
  | importId (id : ImportId)
  | ownerHash (ownerId : UserId) (sourceHash : String)
  deriving DecidableEq

/-- The name of the index, as the error of the database has it. -/
def ImportKey.constraint : ImportKey → String
  | .catalog key => key.constraint
  | .importId _ => "LibraryImport_pkey"
  | .ownerHash _ _ => "LibraryImport_ownerId_sourceHash_key"

def ImportWrite.keys : ImportWrite → List ImportKey
  | .catalog x => x.keys.map .catalog
  | .createImport i => [.importId i.id, .ownerHash i.ownerId i.sourceHash]
  | _ => []

def ImportDb.taken (db : ImportDb) : ImportKey → Bool
  | .catalog key => db.catalog.taken key
  | .importId id => db.imports.any fun i => i.id = id
  | .ownerHash ownerId sourceHash =>
    db.imports.any fun i => i.ownerId = ownerId ∧ i.sourceHash = sourceHash

/-- What a write makes of an import that is there. -/
def ImportWrite.onImport (x : ImportWrite) (i : LibraryImport) : LibraryImport :=
  match x with
  | .expire ownerId now ids =>
    if i.id ∈ ids ∧ i.ownerId = ownerId ∧ i.status = .draft ∧ i.expiresAt ≤ now
    then { i with status := .expired } else i
  | .setDraft id rowCount copyCount expiresAt =>
    if i.id = id then { i with status := .draft, rowCount, copyCount, expiresAt } else i
  | .setCommitted id committedAt createdCopyCount =>
    if i.id = id then
      { i with
        status := .committed
        committedAt := some committedAt
        createdCopyCount := some createdCopyCount } else i
  | _ => i

/-- What a write makes of the rows. -/
def ImportWrite.onRows (x : ImportWrite) (rows : ImportId → List LibraryImportRowRecord) :
    ImportId → List LibraryImportRowRecord :=
  match x with
  | .insertRows importId added => Function.update rows importId (rows importId ++ added)
  | .deleteRows ids => fun id => if id ∈ ids then [] else rows id
  | _ => rows

def ImportWrite.apply (x : ImportWrite) (db : ImportDb) : ImportDb where
  catalog := match x with
    | .catalog y => y.apply db.catalog
    | _ => db.catalog
  imports := match x with
    | .createImport i => i :: db.imports
    | _ => db.imports.map x.onImport
  rows := x.onRows db.rows

/-- A write changes neither the id nor the owner nor the file of an import. -/
theorem ImportWrite.onImport_keeps (x : ImportWrite) (i : LibraryImport) :
    (x.onImport i).id = i.id ∧ (x.onImport i).ownerId = i.ownerId ∧
      (x.onImport i).sourceHash = i.sourceHash := by
  cases x with
  | expire | setDraft | setCommitted =>
    refine ⟨?_, ?_, ?_⟩ <;>
      · dsimp only [onImport]
        split <;> rfl
  | _ => exact ⟨rfl, rfl, rfl⟩

@[simp] theorem ImportWrite.onImport_id (x : ImportWrite) (i : LibraryImport) :
    (x.onImport i).id = i.id := (x.onImport_keeps i).1

@[simp] theorem ImportWrite.onImport_ownerId (x : ImportWrite) (i : LibraryImport) :
    (x.onImport i).ownerId = i.ownerId := (x.onImport_keeps i).2.1

@[simp] theorem ImportWrite.onImport_sourceHash (x : ImportWrite) (i : LibraryImport) :
    (x.onImport i).sourceHash = i.sourceHash := (x.onImport_keeps i).2.2

/-- A write takes its keys and no others. -/
theorem ImportWrite.taken_apply (x : ImportWrite) (db : ImportDb) (k : ImportKey) :
    (x.apply db).taken k = true ↔ k ∈ x.keys ∨ db.taken k = true := by
  cases x with
  | catalog y =>
    cases k with
    | catalog key =>
      simp only [ImportDb.taken, apply, keys, List.mem_map, ImportKey.catalog.injEq]
      rw [y.taken_apply]
      simp
    | importId id | ownerHash ownerId sourceHash => simp [ImportDb.taken, apply, keys]
  | createImport i =>
    cases k with
    | catalog key => simp [ImportDb.taken, apply, keys]
    | importId id => simp [ImportDb.taken, apply, keys, @eq_comm _ id]
    | ownerHash ownerId sourceHash =>
      simp [ImportDb.taken, apply, keys, @eq_comm _ ownerId, @eq_comm _ sourceHash]
  | _ => cases k <;> simp [ImportDb.taken, apply, keys]

def importSchema : Schema ImportDb ImportWrite ImportKey where
  write := ImportWrite.apply
  keys := ImportWrite.keys
  taken := ImportDb.taken
  taken_write := ImportWrite.taken_apply

/-! ### What single writes leave -/

section Apply

variable (db : ImportDb)

theorem ImportWrite.imports_of_onImport_id {x : ImportWrite} (h : ∀ i, x.onImport i = i) :
    db.imports.map x.onImport = db.imports := by
  rw [show x.onImport = id from funext h, List.map_id]

@[simp] theorem ImportWrite.imports_apply_insertRows (id : ImportId)
    (rows : List LibraryImportRowRecord) : ((insertRows id rows).apply db).imports = db.imports :=
  imports_of_onImport_id db fun _ => rfl

@[simp] theorem ImportWrite.imports_apply_deleteRows (ids : List ImportId) :
    ((deleteRows ids).apply db).imports = db.imports :=
  imports_of_onImport_id db fun _ => rfl

@[simp] theorem ImportWrite.imports_apply_catalog (x : CatalogWrite) :
    ((catalog x).apply db).imports = db.imports :=
  imports_of_onImport_id db fun _ => rfl

/-- The rows of the catalog touch no draft. -/
theorem view_catalog (writes : List CatalogWrite) :
    (importSchema.view db (writes.map .catalog)).imports = db.imports ∧
      (importSchema.view db (writes.map .catalog)).rows = db.rows := by
  induction writes with
  | nil => exact ⟨rfl, rfl⟩
  | cons x writes ih =>
    rw [List.map_cons, Schema.view_cons]
    exact ⟨(ImportWrite.imports_apply_catalog _ x).trans ih.1, ih.2⟩

theorem catalog_view (writes : List CatalogWrite) :
    (importSchema.view db (writes.map .catalog)).catalog = catalogSchema.view db.catalog writes := by
  induction writes with
  | nil => rfl
  | cons x writes ih =>
    rw [List.map_cons, Schema.view_cons, Schema.view_cons, ← ih]
    rfl

end Apply

/-! ## Scripts -/

/-- `LibraryImportNotReadyDetails` -/
inductive LibraryImportNotReady
  | rowsUnresolved (rowNumbers : List Nat)
  | nothingToImport
  | conflictingEditionRows (rowNumbers : List Nat)
  | draftChanged
  | workMerged (rowNumbers : List Nat)
  | workLangMismatch (rowNumbers : List Nat)
  | editionAppeared (rowNumbers : List Nat)
  deriving DecidableEq, Repr

/-- `LibraryImportPayloadError.direction` -/
inductive PayloadDirection
  | write | read
  deriving DecidableEq, Repr

/-- How a transaction fails. -/
inductive ImportFailure
  | api (e : ApiException)
  | notReady (details : LibraryImportNotReady)
  | tooManyCopies (actual : Nat)
  | payload (direction : PayloadDirection) (rowNumber : Option Nat)
  | internal (message : String)
  /-- `P2002` -/
  | uniqueViolation (constraint : String)
  deriving DecidableEq, Repr

/-- A row that is locked `FOR UPDATE`. -/
inductive ImportLock
  | libraryImport (id : ImportId)
  | work (id : WorkId)
  deriving DecidableEq

/-- The clock, the cached lookups, and what a lookup answers. -/
structure ImportOutside where
  now : Time
  cached : String → Option BatchLookupRowOutcome
  fetched : String → Option BatchLookupRowOutcome

abbrev ImportScript (α : Type) :=
  Script ImportDb ImportWrite ImportLock Nat Unit ImportOutside ImportFailure α

end Bookswap
