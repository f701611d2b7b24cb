import Bookswap.Lib.Checked
import Bookswap.QuickAdd.CatalogChain

/-!
# The catalog with its versions and what readers keep of a work

The tables of `CatalogDb` with the column `revision` of works, translations and editions, and the
rows that readers attach to a work: `Review`, `WishlistItem`, `WorkReadingStatus`. Beside it the
requests of catalog.ts and catalog-correction.ts, and how an operation of the catalog fails.

- `CatalogStore`: the tables; `updateWork`, `updateTranslation`, `updateEditions`.
- `CatalogFailure`: the answers that refuse an operation.
- `authorLinksOf`: the author list of a work, by position.
-/

namespace Bookswap

/-! ## Rows -/

inductive ReadingStatus
  | notRead | reading | read
  deriving DecidableEq, Repr

structure Review where
  id : Nat
  workId : WorkId
  userId : UserId
  rating : Nat
  text : Option String
  updatedAt : Time
  archivedAt : Option Time
  archivedByMergeSourceId : Option WorkId
  deriving DecidableEq, Repr

structure WishlistItem where
  id : Nat
  userId : UserId
  workId : WorkId
  createdAt : Time
  deriving DecidableEq, Repr

structure WorkReadingStatus where
  id : Nat
  userId : UserId
  workId : WorkId
  status : ReadingStatus
  updatedAt : Time
  deriving DecidableEq, Repr

/-! ## Requests -/

/-- `createEditionRequestSchema` -/
structure CreateEditionRequest where
  translationId : Option (Option TranslationId)
  publisher : Option (Option String)
  year : Option (Option Int)
  isbn13 : Option (Option String)
  pageCount : Option (Option Int)
  coverUrl : Option (Option String)
  format : Option EditionFormat

/-- `workPatchRequestSchema` -/
structure WorkPatchRequest where
  title : Option String
  origLang : Option (Option String)
  firstPubYear : Option (Option Int)
  description : Option (Option String)
  authors : Option (List WorkAuthorInput)
  expectedRevision : Nat

/-- `translationPatchRequestSchema` -/
structure TranslationPatchRequest where
  translator : Option String
  lang : Option String
  sourceLang : Option String
  year : Option (Option Int)
  isAbridged : Option Bool
  hasNotes : Option Bool
  notes : Option (Option String)
  expectedRevision : Nat

/-- `editionPatchRequestSchema` -/
structure EditionPatchRequest where
  translationId : Option (Option TranslationId)
  publisher : Option (Option String)
  year : Option (Option Int)
  isbn13 : Option (Option String)
  pageCount : Option (Option Int)
  coverUrl : Option (Option String)
  format : Option (Option EditionFormat)
  textKind : Option EditionTextKind
  lang : Option (Option String)
  expectedRevision : Nat

/-! ## Tables -/

structure CatalogStore where
  db : CatalogDb
  workRevision : WorkId → Nat
  translationRevision : TranslationId → Nat
  editionRevision : EditionId → Nat
  reviews : List Review
  wishlist : List WishlistItem
  statuses : List WorkReadingStatus

/-- The author list of a work, by position. -/
def CatalogDb.authorLinksOf (db : CatalogDb) (workId : WorkId) : List WorkAuthor :=
  (db.workAuthors.filter fun l => l.workId = workId).mergeSort fun l m => l.position ≤ m.position

def CatalogDb.translation? (db : CatalogDb) (id : TranslationId) : Option Translation :=
  db.translations.find? fun t => t.id = id

namespace CatalogStore

variable (s : CatalogStore)

/-- Rows are inserted. -/
def insert (rows : List CatalogWrite) : CatalogStore :=
  { s with db := catalogSchema.view s.db rows.reverse }

/-- An `UPDATE` of a work, with a new version. -/
def updateWork (id : WorkId) (f : Work → Work) : CatalogStore :=
  { s with
    db := { s.db with works := s.db.works.map fun w => if w.id = id then f w else w }
    workRevision := Function.update s.workRevision id (s.workRevision id + 1) }

/-- An `UPDATE` of a translation, with a new version. -/
def updateTranslation (id : TranslationId) (f : Translation → Translation) : CatalogStore :=
  { s with
    db := { s.db with translations := s.db.translations.map fun t => if t.id = id then f t else t }
    translationRevision :=
      Function.update s.translationRevision id (s.translationRevision id + 1) }

/-- An `UPDATE` of an edition, with a new version. -/
def updateEdition (id : EditionId) (f : Edition → Edition) : CatalogStore :=
  { s with
    db := { s.db with editions := s.db.editions.map fun e => if e.id = id then f e else e }
    editionRevision := Function.update s.editionRevision id (s.editionRevision id + 1) }

/-- The author list of a work is deleted and inserted anew. -/
def replaceAuthors (workId : WorkId) (links : List (AuthorId × AuthorRole)) : CatalogStore :=
  { s with db := { s.db with
      workAuthors := (links.zipIdx.map fun x => ⟨workId, x.1.1, x.1.2, x.2⟩) ++
        s.db.workAuthors.filter fun l => l.workId ≠ workId } }

end CatalogStore

/-! ## Failures -/

/-- What a version conflict shows of the entity as it is now. -/
inductive CatalogEntity
  | work (w : Work) (authors : List WorkAuthor)
  | translation (t : Translation) (editionCount : Nat)
  | edition (e : Edition)

inductive CatalogFailure
  | failed (f : QuickAddFailure)
  /-- 409 `CATALOG_REVISION_CONFLICT`, with the entity. -/
  | revisionConflict (message : String) (current : CatalogEntity)

/-- An operation of the catalog: refused, or committed. -/
abbrev CatalogTx (α : Type) := Except CatalogFailure α

/-- `throw new ApiException(code, message, status, details)` -/
def CatalogFailure.ofCode (code : ErrorCode) (message : String) (status : Nat)
    (details : Json := .null) : CatalogFailure :=
  .failed (.ofCode code message status details)

/-- `notFound` (catalog.service.ts:1014) -/
def catalogNotFound (message : String) : CatalogFailure := .ofCode .notFound message 404

/-- `forbidden` (catalog.service.ts:1019) -/
def catalogForbidden : CatalogFailure :=
  .ofCode .catalogEditForbidden "Ви не можете редагувати цей запис каталогу" 403

/-- `workMergedConflict` (canonical-work.service.ts:85) -/
def workMergedConflict (target requestedWorkId : WorkId) : CatalogFailure :=
  .ofCode .workMerged s!"Твір злито у {target}" 409
    (.obj [("canonicalWorkId", .ofId target), ("requestedWorkId", .ofId requestedWorkId)])

/-- `editionLanguageConflict` (edition-language-errors.ts:7) -/
def editionLanguageConflict (message : String) (editionIds : List EditionId) : CatalogFailure :=
  .ofCode .editionLanguageConflict message 409
    (if editionIds = [] then .null else .obj [("editionIds", .arr (editionIds.map .ofId))])

end Bookswap
