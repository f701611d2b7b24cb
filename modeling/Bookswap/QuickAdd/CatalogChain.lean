import Bookswap.Catalog.EditionLanguage
import Bookswap.QuickAdd.ExternalSources

/-!
# catalog-chain.writer.ts

The chain `Author → Work → WorkAuthor → Edition`, written within the transaction of quick-add: by
hand (`createManual`), from a confirmed edition (`createFromExternal`), or as the unspecified
edition of a known work. Nothing is made up: what nobody reported stays unknown.
-/

namespace Bookswap

open ReadCommitted

/-- A work as the source reports it. -/
structure SourceWork where
  title : String
  authors : List String
  firstPubYear : Option Int
  description : Option String
  origLang : Option String

variable (env : QuickAddEnv)

/-! ## Works -/

/-- The names that are kept: trimmed, cut, each once, none empty, at most ten. -/
def sourceNames (authors : List String) : List String :=
  ((authors.map fun name => slice (trim name) authorNameMax).eraseDups.filter fun name =>
    name ≠ "").take authorsMax

/-- A new author of a name, linked to the work. -/
def createSourceAuthor (workId : WorkId) (name : String) (position : Nat) : AddScript Unit := do
  let authorId ← .draw
  .insert (.author ⟨authorId, name, env.bookswapNorm name, none⟩)
  .insert (.workAuthor ⟨workId, authorId, .author, position⟩)

/-- `createWorkFromSource` -/
def createWorkFromSource (userId : UserId) (work : SourceWork) : AddScript WorkId := do
  let title := slice (trim work.title) titleMax
  let workId ← .draw
  .insert (.work
    { id := workId
      title := title
      titleNorm := env.bookswapNorm title
      origLang := work.origLang
      firstPubYear := inRange work.firstPubYear yearMin yearMax
      description := work.description.map (slice · descriptionMax)
      createdById := userId
      mergedIntoId := none })
  (sourceNames work.authors).zipIdx.forM fun x => createSourceAuthor env workId x.1 x.2
  return workId

/-- `assertAuthorsExist` (catalog.service.ts:947). -/
def assertAuthorsExist (authors : List WorkAuthorInput) : AddScript Unit := do
  let ids := (authors.filterMap fun a =>
    match a.source with
    | .authorId id => some id
    | .name _ => none).eraseDups
  if ids.length = 0 then return ()
  let found ← .select fun db => (db.authors.filter fun a => a.id ∈ ids).length
  if found ≠ ids.length then .throw (.ofCode .notFound "Автора не знайдено" 404)

/-- The author of a link: an existing one, or a new one of the name. -/
def linkedAuthor (author : WorkAuthorInput) : AddScript (AuthorId × AuthorRole) :=
  match author.source with
  | .authorId authorId => return (authorId, author.role.getD .author)
  | .name name => do
    let authorId ← .draw
    .insert (.author ⟨authorId, name, env.bookswapNorm name, author.nameLatin.join⟩)
    return (authorId, author.role.getD .author)

/-- `createWorkIn` (catalog.service.ts:223). -/
def createWorkIn (userId : UserId) (work : NewWork) : AddScript WorkId := do
  let authors := work.authors.getD []
  assertAuthorsExist authors
  let workId ← .draw
  .insert (.work
    { id := workId
      title := work.title
      titleNorm := env.bookswapNorm work.title
      origLang := work.origLang.join
      firstPubYear := work.firstPubYear.join
      description := work.description.join
      createdById := userId
      mergedIntoId := none })
  let links ← authors.mapM (linkedAuthor env)
  links.eraseDups.zipIdx.forM fun x => .insert (.workAuthor ⟨workId, x.1.1, x.1.2, x.2⟩)
  return workId

/-- `lockExistingWork`: the language of the work's original. -/
def lockExistingWork (workId : WorkId) : AddScript (Option String) := do
  .acquire (.work workId)
  match ← .select fun db => db.work? workId with
  | none => .throw (.ofCode .notFound "Твір не знайдено" 404)
  | some work =>
    match work.mergedIntoId with
    | some target => .throw (.ofCode .workMerged s!"Твір злито у {target}" 409
        (.obj [("canonicalWorkId", .ofId target), ("requestedWorkId", .ofId workId)]))
    | none => return work.origLang

/-! ## Editions -/

/-- `textOrThrow` (edition-language-errors.ts:17). -/
def textOrThrow (resolution : Except EditionTextFailure EditionTextState) :
    Except QuickAddFailure EditionTextState :=
  match resolution with
  | .ok state => .ok state
  | .error (.internal message) => .error (.internal message)
  | .error (.refused .languageConflict message) =>
    .error (.ofCode .editionLanguageConflict message 409)
  | .error (.refused .kindRequiresUnlink message) =>
    .error (.ofCode .editionTextKindConflict message 422
      (.obj [("reason", .str "KIND_REQUIRES_UNLINK")]))
  | .error (.refused .unlinkNeedsKind message) =>
    .error (.ofCode .editionTextKindConflict message 422
      (.obj [("reason", .str "UNLINK_NEEDS_KIND")]))

theorem of_textOrThrow_ok {resolution : Except EditionTextFailure EditionTextState}
    {text : EditionTextState} (h : textOrThrow resolution = .ok text) : resolution = .ok text := by
  unfold textOrThrow at h
  split at h <;> cases h
  rfl

/-- An edition with the ISBN is offered instead of a second one. -/
def assertIsbnFree (isbn13 : Option String) : AddScript Unit :=
  match isbn13 with
  | none => pure ()
  | some isbn13 => do
    match ← .select fun db => db.editionByIsbn? isbn13 with
    | none => pure ()
    | some taken => .throw (.ofCode .editionIsbnTaken "Видання з таким ISBN уже є в каталозі" 409
        (.obj [("editionId", .ofId taken.id)]))

/-- The work that a manual edition is of, and the language of its original. -/
def manualWork (userId : UserId) (work : QuickAddManualWork) (edition : QuickAddManualEdition) :
    AddScript (WorkId × Option String) :=
  match work with
  | .existing workId => do
    let origLang ← lockExistingWork workId
    return (workId, origLang)
  | .new work => do
    let origLang := work.origLang.join <|> originalLanguageOf edition
    let workId ← createWorkIn env userId { work with origLang := some origLang }
    return (workId, origLang)

/-- The translation of a manual edition. -/
def manualTranslation (userId : UserId) (workId : WorkId) :
    Option QuickAddTranslation → AddScript (Option TranslationId)
  | none => pure none
  | some t => do
    let translationId ← .draw
    .insert (.translation
      { id := translationId
        workId := workId
        translator := t.translator
        lang := t.lang
        sourceLang := t.sourceLang
        year := t.year.join
        isAbridged := t.isAbridged.getD false
        hasNotes := t.hasNotes.getD false
        notes := t.notes.join
        createdById := userId })
    return some translationId

/-- `createManual` -/
def createManual (userId : UserId) (target : QuickAddManualTarget) : AddScript EditionId := do
  let input := target.edition
  assertIsbnFree input.isbn13.join
  let (workId, workOrigLang) ← manualWork env userId target.work input
  let translationId ← manualTranslation userId workId target.translation
  let text ← .ofExcept (textOrThrow (resolveEditionText none
    ⟨some input.textKind, input.lang, translationId.map some⟩
    ⟨workOrigLang, target.translation.map QuickAddTranslation.lang, none⟩))
  let editionId ← .draw
  .insert (.edition
    { id := editionId
      workId := workId
      translationId := text.translationId
      textKind := text.textKind
      lang := text.lang
      publisher := input.publisher.join
      year := input.year.join
      isbn13 := input.isbn13.join
      pageCount := input.pageCount.join
      coverUrl := input.coverUrl.join
      format := input.format.join
      createdById := userId })
  return editionId

/-- `createUnspecifiedEdition` -/
def createUnspecifiedEdition (userId : UserId) (workId : WorkId) (coverUrl : Option String) :
    AddScript EditionId := do
  let _ ← lockExistingWork workId
  let editionId ← .draw
  .insert (.edition
    { id := editionId
      workId := workId
      translationId := none
      textKind := .unknown
      lang := none
      publisher := none
      year := none
      isbn13 := none
      pageCount := none
      coverUrl := sourceCover coverUrl
      format := none
      createdById := userId })
  return editionId

/-- `createFromExternal` -/
def createFromExternal (userId : UserId) (metadata : ExternalMetadata) (isbn13 : Option String) :
    AddScript EditionId := do
  let workId ← createWorkFromSource env userId
    ⟨metadata.title, metadata.authors, none, metadata.description, none⟩
  let editionId ← .draw
  .insert (.edition
    { id := editionId
      workId := workId
      translationId := none
      textKind := .unknown
      lang := metadata.language
      publisher := metadata.publisher.map (slice · publisherMax)
      year := inRange metadata.publishedYear yearMin yearMax
      isbn13 := isbn13
      pageCount := inRange metadata.pageCount 1 pageCountMax
      coverUrl := sourceCover metadata.coverUrl
      format := metadata.format
      createdById := userId })
  return editionId

end Bookswap
