import Bookswap.Schema
import Bookswap.Lib.ReadCommitted

/-!
# The catalog and the shelf, as quick-add writes them

The rows of `prisma/schema.prisma` from `Author` to `LibraryAddOperation`. A table is the list of
its rows, the newest first; that a key has one row is the work of the unique indexes, which here
are `CatalogKey`.

- `CatalogDb`, `CatalogWrite`: the tables, and the rows a transaction adds.
- `catalogSchema`: what a write does and which unique keys it takes.
-/

namespace Bookswap

open ReadCommitted (Schema)

abbrev WorkId := Nat
abbrev AuthorId := Nat
abbrev TranslationId := Nat
abbrev OperationId := Nat

inductive EditionFormat
  | hardcover | paperback | pocket
  deriving DecidableEq, Repr

inductive EditionTextKind
  | original | translation | unknown
  deriving DecidableEq, Repr

inductive AuthorRole
  | author | coAuthor | editor | illustrator
  deriving DecidableEq, Repr

inductive ExternalBookSource
  | openLibrary | googleBooks | isbndb
  deriving DecidableEq, Repr

/-- `QUICK_ADD_TARGET_KIND` -/
inductive QuickAddTargetKind
  | existingEdition | externalEdition | manual | externalWork
  deriving DecidableEq, Repr

/-! ## Rows -/

structure Author where
  id : AuthorId
  name : String
  nameNorm : String
  nameLatin : Option String
  deriving DecidableEq, Repr

structure WorkAuthor where
  workId : WorkId
  authorId : AuthorId
  role : AuthorRole
  position : Nat
  deriving DecidableEq, Repr

structure Work where
  id : WorkId
  title : String
  titleNorm : String
  origLang : Option String
  firstPubYear : Option Int
  description : Option String
  createdById : UserId
  mergedIntoId : Option WorkId
  deriving DecidableEq, Repr

structure Translation where
  id : TranslationId
  workId : WorkId
  translator : String
  lang : String
  sourceLang : String
  year : Option Int
  isAbridged : Bool
  hasNotes : Bool
  notes : Option String
  createdById : UserId
  deriving DecidableEq, Repr

structure Edition where
  id : EditionId
  workId : WorkId
  translationId : Option TranslationId
  textKind : EditionTextKind
  lang : Option String
  publisher : Option String
  year : Option Int
  isbn13 : Option String
  pageCount : Option Int
  coverUrl : Option String
  format : Option EditionFormat
  createdById : UserId
  deriving DecidableEq, Repr

structure ExternalReferenceKey where
  source : ExternalBookSource
  externalId : String
  deriving DecidableEq, Repr

structure EditionExternalReference where
  key : ExternalReferenceKey
  editionId : EditionId
  deriving DecidableEq, Repr

structure WorkExternalReference where
  key : ExternalReferenceKey
  workId : WorkId
  editionId : Option EditionId
  deriving DecidableEq, Repr

structure LibraryAddOperation where
  userId : UserId
  operationId : OperationId
  requestHash : String
  targetKind : QuickAddTargetKind
  editionId : EditionId
  copyId : Option CopyId
  deriving DecidableEq, Repr

/-! ## Tables -/

structure CatalogDb where
  users : List User
  authors : List Author
  works : List Work
  workAuthors : List WorkAuthor
  translations : List Translation
  editions : List Edition
  editionReferences : List EditionExternalReference
  workReferences : List WorkExternalReference
  copies : List Copy
  operations : List LibraryAddOperation

namespace CatalogDb

variable (db : CatalogDb)

def user? (id : UserId) : Option User := db.users.find? fun u => u.id = id

def work? (id : WorkId) : Option Work := db.works.find? fun w => w.id = id

def edition? (id : EditionId) : Option Edition := db.editions.find? fun e => e.id = id

def editionByIsbn? (isbn13 : String) : Option Edition :=
  db.editions.find? fun e => e.isbn13 = some isbn13

def editionReference? (key : ExternalReferenceKey) : Option EditionExternalReference :=
  db.editionReferences.find? fun r => r.key = key

def workReference? (key : ExternalReferenceKey) : Option WorkExternalReference :=
  db.workReferences.find? fun r => r.key = key

def copy? (id : CopyId) : Option Copy := db.copies.find? fun c => c.id = id

def operation? (userId : UserId) (operationId : OperationId) : Option LibraryAddOperation :=
  db.operations.find? fun o => o.userId = userId ∧ o.operationId = operationId

end CatalogDb

/-! ## Writes and unique keys -/

/-- The rows that the quick-add transaction writes. -/
inductive CatalogWrite
  | author (a : Author)
  | work (w : Work)
  | workAuthor (l : WorkAuthor)
  | translation (t : Translation)
  | edition (e : Edition)
  | editionReference (r : EditionExternalReference)
  | workReference (r : WorkExternalReference)
  /-- The one `UPDATE`: the reference of a work gets its edition. -/
  | workReferenceEdition (key : ExternalReferenceKey) (editionId : EditionId)
  | copy (c : Copy)
  | operation (o : LibraryAddOperation)

/-- The unique indexes, with the values of a row. -/
inductive CatalogKey
  | authorId (id : AuthorId)
  | workId (id : WorkId)
  | workAuthor (workId : WorkId) (authorId : AuthorId) (role : AuthorRole)
  | translationId (id : TranslationId)
  | editionId (id : EditionId)
  | isbn13 (isbn13 : String)
  | editionReference (key : ExternalReferenceKey)
  | workReference (key : ExternalReferenceKey)
  | copyId (id : CopyId)
  | operation (userId : UserId) (operationId : OperationId)
  deriving DecidableEq

/-- The name of the index, as the error of the database has it. -/
def CatalogKey.constraint : CatalogKey → String
  | .authorId _ => "Author_pkey"
  | .workId _ => "Work_pkey"
  | .workAuthor _ _ _ => "WorkAuthor_pkey"
  | .translationId _ => "Translation_pkey"
  | .editionId _ => "Edition_pkey"
  | .isbn13 _ => "Edition_isbn13_key"
  | .editionReference _ => "EditionExternalReference_source_externalId_key"
  | .workReference _ => "WorkExternalReference_source_externalId_key"
  | .copyId _ => "Copy_pkey"
  | .operation _ _ => "LibraryAddOperation_userId_operationId_key"

def CatalogWrite.keys : CatalogWrite → List CatalogKey
  | .author a => [.authorId a.id]
  | .work w => [.workId w.id]
  | .workAuthor l => [.workAuthor l.workId l.authorId l.role]
  | .translation t => [.translationId t.id]
  | .edition e => .editionId e.id :: (e.isbn13.map CatalogKey.isbn13).toList
  | .editionReference r => [.editionReference r.key]
  | .workReference r => [.workReference r.key]
  | .workReferenceEdition _ _ => []
  | .copy c => [.copyId c.id]
  | .operation o => [.operation o.userId o.operationId]

def CatalogWrite.apply (x : CatalogWrite) (db : CatalogDb) : CatalogDb :=
  match x with
  | .author a => { db with authors := a :: db.authors }
  | .work w => { db with works := w :: db.works }
  | .workAuthor l => { db with workAuthors := l :: db.workAuthors }
  | .translation t => { db with translations := t :: db.translations }
  | .edition e => { db with editions := e :: db.editions }
  | .editionReference r => { db with editionReferences := r :: db.editionReferences }
  | .workReference r => { db with workReferences := r :: db.workReferences }
  | .workReferenceEdition key editionId =>
    { db with workReferences := db.workReferences.map fun r =>
        if r.key = key then { r with editionId := some editionId } else r }
  | .copy c => { db with copies := c :: db.copies }
  | .operation o => { db with operations := o :: db.operations }

def CatalogDb.taken (db : CatalogDb) : CatalogKey → Bool
  | .authorId id => db.authors.any fun a => a.id = id
  | .workId id => db.works.any fun w => w.id = id
  | .workAuthor workId authorId role =>
    db.workAuthors.any fun l => l.workId = workId ∧ l.authorId = authorId ∧ l.role = role
  | .translationId id => db.translations.any fun t => t.id = id
  | .editionId id => db.editions.any fun e => e.id = id
  | .isbn13 isbn13 => db.editions.any fun e => e.isbn13 = some isbn13
  | .editionReference key => db.editionReferences.any fun r => r.key = key
  | .workReference key => db.workReferences.any fun r => r.key = key
  | .copyId id => db.copies.any fun c => c.id = id
  | .operation userId operationId =>
    db.operations.any fun o => o.userId = userId ∧ o.operationId = operationId

/-- A write takes its keys and no others. -/
theorem CatalogWrite.taken_apply (x : CatalogWrite) (db : CatalogDb) (k : CatalogKey) :
    (x.apply db).taken k = true ↔ k ∈ x.keys ∨ db.taken k = true := by
  cases x with
  | workReferenceEdition key editionId =>
    have hkey : ∀ r : WorkExternalReference,
        (if r.key = key then { r with editionId := some editionId } else r).key = r.key := by
      intro r
      split <;> rfl
    cases k <;> simp [CatalogWrite.apply, CatalogWrite.keys, CatalogDb.taken, hkey]
  | edition e =>
    cases hisbn : e.isbn13 <;> cases k <;>
      grind [CatalogWrite.apply, CatalogWrite.keys, CatalogDb.taken]
  | _ => cases k <;> grind [CatalogWrite.apply, CatalogWrite.keys, CatalogDb.taken]

def catalogSchema : Schema CatalogDb CatalogWrite CatalogKey where
  write := CatalogWrite.apply
  keys := CatalogWrite.keys
  taken := CatalogDb.taken
  taken_write := CatalogWrite.taken_apply

/-! ### The rows of a table that writes add -/

def CatalogWrite.work? : CatalogWrite → Option Work
  | .work w => some w
  | _ => none

def CatalogWrite.workAuthor? : CatalogWrite → Option WorkAuthor
  | .workAuthor l => some l
  | _ => none

def CatalogWrite.translation? : CatalogWrite → Option Translation
  | .translation t => some t
  | _ => none

def CatalogWrite.edition? : CatalogWrite → Option Edition
  | .edition e => some e
  | _ => none

def CatalogWrite.copy? : CatalogWrite → Option Copy
  | .copy c => some c
  | _ => none

/-- What writes add to a table whose rows are only inserted. -/
theorem view_table {α : Type} {table : CatalogDb → List α} {row? : CatalogWrite → Option α}
    (h : ∀ x db, table (x.apply db) = (row? x).toList ++ table db) (db : CatalogDb)
    (ws : List CatalogWrite) : table (catalogSchema.view db ws) = ws.filterMap row? ++ table db := by
  induction ws with
  | nil => rfl
  | cons x ws ih =>
    rw [Schema.view_cons]
    show table (x.apply (catalogSchema.view db ws)) = _
    rw [h, ih]
    cases hx : row? x with
    | none => rw [List.filterMap_cons_none hx, Option.toList_none, List.nil_append]
    | some a => rw [List.filterMap_cons_some hx, Option.toList_some, List.singleton_append,
        List.cons_append]

section Tables

variable (db : CatalogDb) (ws : List CatalogWrite)

theorem view_works : (catalogSchema.view db ws).works = ws.filterMap CatalogWrite.work? ++ db.works :=
  view_table (fun x _ => by cases x <;> rfl) db ws

theorem view_workAuthors :
    (catalogSchema.view db ws).workAuthors = ws.filterMap CatalogWrite.workAuthor? ++ db.workAuthors :=
  view_table (fun x _ => by cases x <;> rfl) db ws

theorem view_translations : (catalogSchema.view db ws).translations =
    ws.filterMap CatalogWrite.translation? ++ db.translations :=
  view_table (fun x _ => by cases x <;> rfl) db ws

theorem view_editions :
    (catalogSchema.view db ws).editions = ws.filterMap CatalogWrite.edition? ++ db.editions :=
  view_table (fun x _ => by cases x <;> rfl) db ws

theorem view_copies :
    (catalogSchema.view db ws).copies = ws.filterMap CatalogWrite.copy? ++ db.copies :=
  view_table (fun x _ => by cases x <;> rfl) db ws

end Tables

end Bookswap
