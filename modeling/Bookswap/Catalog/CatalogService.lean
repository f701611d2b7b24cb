import Bookswap.Catalog.CatalogStore

/-!
# catalog.service.ts: creating and correcting the catalog

Each operation is one transaction, a function of the tables: all of them lock the row of the work
first (`catalog-locks.ts`), so they take effect one after the other. `createTranslation` alone is
two statements without a lock, and is given the tables of both.

- `createTranslation`, `createEdition`.
- `patchWork`, with `cascadeOriginalLang`; `patchTranslation`; `patchEdition`.
- `applyEditionTextUpdates`, `planWorkOriginalLangChange`, `planMergeLanguage`: what follows for the
  editions of a work.
-/

namespace Bookswap

open Checked ReadCommitted

/-! ## canonical-work.service.ts -/

/-- Where a request for a work lands. -/
structure CanonicalWork where
  workId : WorkId
  requestedWorkId : WorkId
  moved : Bool
  deriving DecidableEq, Repr

/-- `resolve` -/
def CanonicalWorkService.resolve (db : CatalogDb) (requestedWorkId : WorkId) : CatalogTx CanonicalWork := do
  let work ← orThrow (db.work? requestedWorkId) (catalogNotFound "Твір не знайдено")
  return ⟨work.mergedIntoId.getD work.id, requestedWorkId, work.mergedIntoId.isSome⟩

/-- `assertCanonical` -/
def CanonicalWorkService.assertCanonical (db : CatalogDb) (requestedWorkId : WorkId) :
    CatalogTx PUnit := do
  let resolved ← CanonicalWorkService.resolve db requestedWorkId
  throwIf (resolved.moved = true) (workMergedConflict resolved.workId requestedWorkId)

/-! ## edition-language.ts: cascades -/

inductive CascadePlan
  | updates (updates : List (EditionId × String))
  | conflict (editionIds : List EditionId)

/-- The edition follows the original language of its work. -/
def followsOriginal (oldLang : Option String) (newLang : String) (e : Edition) : Bool :=
  e.textKind = .original ∧ e.lang ≠ some newLang ∧
    (e.lang = none ∨ (oldLang ≠ none ∧ e.lang = oldLang))

/-- The edition is known to be in another language. -/
def contradictsOriginal (oldLang : Option String) (newLang : String) (e : Edition) : Bool :=
  e.textKind = .original ∧ e.lang ≠ some newLang ∧
    ¬ (e.lang = none ∨ (oldLang ≠ none ∧ e.lang = oldLang))

/-- `planWorkOriginalLangChange` -/
def planWorkOriginalLangChange (editions : List Edition) (oldLang newLang : Option String) :
    CascadePlan :=
  match newLang with
  | none => .updates []
  | some newLang =>
    let conflicts := (editions.filter (contradictsOriginal oldLang newLang)).map Edition.id
    if conflicts ≠ [] then .conflict conflicts
    else .updates ((editions.filter (followsOriginal oldLang newLang)).map fun e => (e.id, newLang))

inductive MergeLanguageAction
  | keep
  | set (lang : String)
  | conflict
  deriving DecidableEq, Repr

/-- `planMergeLanguage` -/
def planMergeLanguage (e : Edition) (targetOrigLang : Option String) : MergeLanguageAction :=
  match targetOrigLang with
  | none => .keep
  | some lang =>
    if e.textKind ≠ .original then .keep
    else if e.lang = none then .set lang
    else if e.lang = some lang then .keep
    else .conflict

/-- `applyEditionTextUpdates`: a new language and a new version for each of the editions. -/
def applyEditionTextUpdates (s : CatalogStore) (updates : List (EditionId × String)) :
    CatalogStore :=
  updates.foldl (fun s u => s.updateEdition u.1 fun e => { e with lang := some u.2 }) s

/-! ## Creating -/

/-- `createTranslation`: the check sees `seen`, the `INSERT` runs on `s`. -/
def createTranslation (seen s : CatalogStore) (userId : UserId) (workId : WorkId)
    (request : QuickAddTranslation) (id : TranslationId) : CatalogTx CatalogStore := do
  CanonicalWorkService.assertCanonical seen.db workId
  return s.insert [.translation
    { id := id
      workId := workId
      translator := request.translator
      lang := request.lang
      sourceLang := request.sourceLang
      year := request.year.join
      isAbridged := request.isAbridged.getD false
      hasNotes := request.hasNotes.getD false
      notes := request.notes.join
      createdById := userId }]

/-- The translation that an edition of the work is to be linked to. -/
def translationOfWork (s : CatalogStore) (workId : WorkId) :
    Option TranslationId → CatalogTx (Option Translation)
  | none => pure none
  | some translationId =>
    some <$> orThrow ((s.db.translation? translationId).filter fun t => t.workId = workId)
      (.ofCode .validationError "Переклад не належить цьому твору" 400)

/-- `textOrThrow` of `resolveEditionText`. -/
def editionText (current : Option EditionTextState) (patch : EditionTextPatch)
    (context : EditionTextContext) : CatalogTx EditionTextState :=
  (textOrThrow (resolveEditionText current patch context)).mapError .failed

/-- The ISBN is free, or that of the edition itself (`isbnTaken`). -/
def isbnFree (s : CatalogStore) (editionId : EditionId) : Option String → CatalogTx PUnit
  | none => pure ⟨⟩
  | some isbn13 =>
    match s.db.editionByIsbn? isbn13 with
    | none => pure ⟨⟩
    | some taken => throwIf (taken.id ≠ editionId)
        (.ofCode .editionIsbnTaken "Видання з таким ISBN уже є в каталозі" 409
          (.obj [("editionId", .ofId taken.id)]))

/-- The work under its lock: it exists and is canonical. -/
def canonicalWork (s : CatalogStore) (workId : WorkId) : CatalogTx Work := do
  let work ← orThrow (s.db.work? workId) (catalogNotFound "Твір не знайдено")
  match work.mergedIntoId with
  | some target => throw (workMergedConflict target workId)
  | none => return work

/-- `createEdition` -/
def createEdition (s : CatalogStore) (userId : UserId) (workId : WorkId)
    (request : CreateEditionRequest) (id : EditionId) : CatalogTx CatalogStore := do
  let work ← canonicalWork s workId
  let translationId := request.translationId.join
  let translation ← translationOfWork s workId translationId
  -- a translation makes it a translation, none an original: the kind is written, not inferred
  let text ← editionText none
    ⟨some (if translationId = none then .original else .translation), none, some translationId⟩
    ⟨work.origLang, translation.map Translation.lang, none⟩
  isbnFree s id request.isbn13.join
  return s.insert [.edition
    { id := id
      workId := workId
      translationId := translationId
      textKind := text.textKind
      lang := text.lang
      publisher := request.publisher.join
      year := request.year.join
      isbn13 := request.isbn13.join
      pageCount := request.pageCount.join
      coverUrl := request.coverUrl.join
      format := request.format
      createdById := userId }]

/-! ## Correcting -/

/-- R8: the creator, or who has a copy of one of the editions. -/
def canEdit (db : CatalogDb) (userId createdById : UserId) (editions : List Edition) : Bool :=
  createdById = userId || editions.any fun e => db.copies.any fun c =>
    c.editionId = e.id ∧ c.ownerId = userId ∧ c.archivedAt = none

/-- The author of the `n`-th input: the named one, or a new one of the drawn id. -/
def linkOf (newId : Nat → AuthorId) (x : WorkAuthorInput × Nat) : AuthorId × AuthorRole :=
  match x.1.source with
  | .authorId authorId => (authorId, x.1.role.getD .author)
  | .name _ => (newId x.2, x.1.role.getD .author)

/-- The authors that the inputs name anew. -/
def newAuthorOf (norm : String → String) (newId : Nat → AuthorId) (x : WorkAuthorInput × Nat) :
    Option Author :=
  match x.1.source with
  | .authorId _ => none
  | .name name => some ⟨newId x.2, name, norm name, x.1.nameLatin.join⟩

/-- The authors that are named by id exist (`assertAuthorsExist`). -/
def authorsExist (db : CatalogDb) (authors : List WorkAuthorInput) : CatalogTx PUnit :=
  let ids := (authors.filterMap fun a =>
    match a.source with
    | .authorId id => some id
    | .name _ => none).eraseDups
  throwIf (ids ≠ [] ∧ (db.authors.filter fun a => a.id ∈ ids).length ≠ ids.length)
    (catalogNotFound "Автора не знайдено")

/-- A supplied author list replaces the whole list; positions follow its order. -/
def replaceAuthorList (norm : String → String) (s : CatalogStore) (workId : WorkId)
    (newId : Nat → AuthorId) : Option (List WorkAuthorInput) → CatalogTx CatalogStore
  | none => pure s
  | some authors => do
    authorsExist s.db authors
    let s := s.insert ((authors.zipIdx.filterMap (newAuthorOf norm newId)).map .author)
    return s.replaceAuthors workId (authors.zipIdx.map (linkOf newId)).eraseDups

/-- `cascadeOriginalLang` -/
def cascadeOriginalLang (s : CatalogStore) (workId : WorkId) (oldLang newLang : Option String) :
    CatalogTx CatalogStore :=
  let lang := newLang.getD "нова"
  match planWorkOriginalLangChange (s.db.editions.filter fun e => e.workId = workId) oldLang
      newLang with
  | .updates updates => pure (applyEditionTextUpdates s updates)
  | .conflict editionIds => throw (editionLanguageConflict
      s!"Мову оригіналу не змінено: видання мають іншу відому мову, ніж {lang}" editionIds)

/-- The fields of the work that the request names. -/
def WorkPatchRequest.patched (norm : String → String) (request : WorkPatchRequest) (w : Work) :
    Work :=
  { w with
    title := request.title.getD w.title
    titleNorm := (request.title.map norm).getD w.titleNorm
    origLang := request.origLang.getD w.origLang
    firstPubYear := request.firstPubYear.getD w.firstPubYear
    description := request.description.getD w.description }

/-- `patchWork` -/
def patchWork (norm : String → String) (s : CatalogStore) (userId : UserId) (workId : WorkId)
    (request : WorkPatchRequest) (newId : Nat → AuthorId) : CatalogTx CatalogStore := do
  let before ← canonicalWork s workId
  throwIf (canEdit s.db userId before.createdById
    (s.db.editions.filter fun e => e.workId = workId) = false) catalogForbidden
  throwIf (s.workRevision workId ≠ request.expectedRevision)
    (.revisionConflict "Твір змінено раніше — оновіть дані й спробуйте ще раз"
      (.work before (s.db.authorLinksOf workId)))
  -- before the work itself: a contradiction refuses the whole operation
  let origLang := request.origLang.getD before.origLang
  let s ← if origLang ≠ before.origLang then cascadeOriginalLang s workId before.origLang origLang
    else pure s
  replaceAuthorList norm (s.updateWork workId (request.patched norm)) workId newId request.authors

/-- The fields of the translation that the request names. -/
def TranslationPatchRequest.patched (request : TranslationPatchRequest) (t : Translation) :
    Translation :=
  { t with
    translator := request.translator.getD t.translator
    lang := request.lang.getD t.lang
    sourceLang := request.sourceLang.getD t.sourceLang
    year := request.year.getD t.year
    isAbridged := request.isAbridged.getD t.isAbridged
    hasNotes := request.hasNotes.getD t.hasNotes
    notes := request.notes.getD t.notes }

/-- The editions that follow a new language of their translation. -/
def linkedUpdates (s : CatalogStore) (before : Translation) :
    Option String → List (EditionId × String)
  | none => []
  | some lang =>
    if lang = before.lang then []
    else (s.db.editions.filter fun e => e.translationId = some before.id ∧ e.lang ≠ some lang).map
      fun e => (e.id, lang)

/-- `patchTranslation` -/
def patchTranslation (s : CatalogStore) (userId : UserId) (translationId : TranslationId)
    (request : TranslationPatchRequest) : CatalogTx CatalogStore := do
  let before ← orThrow (s.db.translation? translationId) (catalogNotFound "Переклад не знайдено")
  let linked := s.db.editions.filter fun e => e.translationId = some translationId
  throwIf (canEdit s.db userId before.createdById linked = false) catalogForbidden
  throwIf (s.translationRevision translationId ≠ request.expectedRevision)
    (.revisionConflict "Переклад змінено раніше — оновіть дані й спробуйте ще раз"
      (.translation before linked.length))
  return (applyEditionTextUpdates s (linkedUpdates s before request.lang)).updateTranslation
    translationId request.patched

/-- The fields of the edition that the request names, with the text as it was resolved. -/
def EditionPatchRequest.patched (request : EditionPatchRequest) (text : Option EditionTextState)
    (e : Edition) : Edition :=
  { e with
    translationId := request.translationId.getD e.translationId
    textKind := (text.map EditionTextState.textKind).getD e.textKind
    lang := (text.map EditionTextState.lang).getD e.lang
    publisher := request.publisher.getD e.publisher
    year := request.year.getD e.year
    isbn13 := request.isbn13.getD e.isbn13
    pageCount := request.pageCount.getD e.pageCount
    coverUrl := request.coverUrl.getD e.coverUrl
    format := request.format.getD e.format }

/-- The request touches the text of the edition. -/
def EditionPatchRequest.changesText (request : EditionPatchRequest) : Bool :=
  request.translationId.isSome || request.textKind.isSome || request.lang.isSome

/-- The language of the translation that the edition is linked to after the request. -/
def targetTranslation (s : CatalogStore) (before : Edition) (current : Option Translation) :
    Option (Option TranslationId) → CatalogTx (Option String)
  | none => pure (current.map Translation.lang)
  | some translationId => do
    let translation ← translationOfWork s before.workId translationId
    return translation.map Translation.lang

/-- `patchEdition` -/
def patchEdition (s : CatalogStore) (userId : UserId) (editionId : EditionId)
    (request : EditionPatchRequest) : CatalogTx CatalogStore := do
  let before ← orThrow (s.db.edition? editionId) (catalogNotFound "Видання не знайдено")
  throwIf (canEdit s.db userId before.createdById [before] = false) catalogForbidden
  let current := before.translationId.bind s.db.translation?
  let target ← targetTranslation s before current request.translationId
  throwIf (s.editionRevision editionId ≠ request.expectedRevision)
    (.revisionConflict "Видання змінено раніше — оновіть дані й спробуйте ще раз" (.edition before))
  let text ← whenever (request.changesText = true) (editionText
    (some ⟨before.textKind, before.lang, before.translationId⟩)
    ⟨request.textKind, request.lang, request.translationId⟩
    ⟨(s.db.work? before.workId).bind Work.origLang, target, current.map Translation.lang⟩)
  isbnFree s editionId request.isbn13.join
  return s.updateEdition editionId (request.patched text)

end Bookswap
