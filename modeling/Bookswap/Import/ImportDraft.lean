import Bookswap.Import.ImportRows

/-!
# library-import.resolver.ts, library-import.candidates.ts, library-import.draft.ts

From the input of a row to its record in the draft. A row without field errors is resolved against
the catalog: an edition of its ISBN, or a chain, which asks for a decision as soon as there is a
similar work.

- `RowDraftInput`, `ResolvableRow`, `ResolvedRow`.
- `CatalogView`: what a resolution reads of the catalog, each statement at its moment.
- `resolveRow`, `LibraryImportResolver.resolve`: the answer for one row and for all.
- `duplicateErrors`, `toRowRecord`, `recordsOf`: the records of a draft.
-/

namespace Bookswap

/-- `LookupService`: what one ISBN of a batch ended up as. -/
inductive BatchLookupRowOutcome
  | found (result : BookLookupResult)
  | notFound
  | unavailable (reason : LibraryImportLookupUnavailableReason)

/-! ## Candidates -/

namespace CatalogDb

variable (db : CatalogDb)

def author? (id : AuthorId) : Option Author := db.authors.find? fun a => a.id = id

/-- The links of a work, in the order of `position`. -/
def authorLinks (workId : WorkId) : List WorkAuthor :=
  (db.workAuthors.filter fun l => l.workId = workId).mergeSort fun l m => l.position ≤ m.position

def authorsOf (workId : WorkId) : List Author :=
  (db.authorLinks workId).filterMap fun l => db.author? l.authorId

end CatalogDb

/-- `LIKE '%…%'` of an escaped text. -/
def containsText (text pattern : String) : Bool :=
  text.toList.tails.any fun rest => pattern.toList.isPrefixOf rest

variable (env : ImportEnv)

/-- The work is similar to the term, by its title or by an author. -/
def matchesTerm (db : CatalogDb) (term : String) (w : Work) : Bool :=
  env.similar w.titleNorm term || containsText w.titleNorm term ||
    (db.authorsOf w.id).any fun a => env.similar a.nameNorm term || containsText a.nameNorm term

def candidateScore (db : CatalogDb) (term : String) (w : Work) : Nat :=
  ((db.authorsOf w.id).map fun a => env.similarity a.nameNorm term).foldl max
    (env.similarity w.titleNorm term)

/-- `rankCandidates`: the ids of the first ten, by score and then by title. -/
def rankCandidates (db : CatalogDb) (term : String) : List WorkId :=
  (((db.works.filter fun w => w.mergedIntoId = none ∧ matchesTerm env db term w).mergeSort fun v w =>
    candidateScore env db term v > candidateScore env db term w ∨
      (candidateScore env db term v = candidateScore env db term w ∧ v.titleNorm ≤ w.titleNorm)).take
    SEARCH_CANDIDATES_LIMIT).map Work.id

/-- `hydrate`: a ranked work that is not merged, with its authors. -/
def hydrate (db : CatalogDb) (workId : WorkId) : Option LibraryImportCandidate :=
  ((db.work? workId).filter fun w => w.mergedIntoId = none).map fun w =>
    ⟨w.id, w.title, (db.authorsOf w.id).map Author.name⟩

/-- What a resolution reads: the local editions, the cached lookups, the ranking and the ranked
works. -/
structure CatalogView where
  editions : CatalogDb
  cached : String → Option BatchLookupRowOutcome
  ranking : CatalogDb
  works : CatalogDb

/-- The candidates for a title (`find`). -/
def CatalogView.candidates (view : CatalogView) (title : String) : List LibraryImportCandidate :=
  let term := env.bookswapNorm title
  if term = "" then [] else (rankCandidates env view.ranking term).filterMap (hydrate view.works)

/-! ## Resolution -/

/-- A row to resolve. Of `chosenWorkId` the outer `none` is no choice, `some none` is "create a new
one". -/
structure ResolvableRow where
  rowNumber : Nat
  values : LibraryImportRowValues
  chosenWorkId : Option (Option WorkId)

structure ResolvedRow where
  status : LibraryImportRowStatus
  resolution : Option LibraryImportRowResolution
  errors : List LibraryImportRowError
  candidates : List LibraryImportCandidate

/-- `findLocalEditions`: the edition of the ISBN whose work is not merged. -/
def findLocalEdition (db : CatalogDb) (isbn13 : String) : Option Edition :=
  (db.editionByIsbn? isbn13).filter fun e =>
    (db.work? e.workId).any fun w => w.mergedIntoId = none

def existingEdition (edition : Edition) : ResolvedRow where
  status := .readyExistingEdition
  resolution := some (.existingEdition edition.id edition.workId)
  errors := []
  candidates := []

def lookupErrors : Option BatchLookupRowOutcome → List LibraryImportRowError
  | none => [.lookupUnavailable .concurrentUpdate]
  | some .notFound => [.lookupNotFound]
  | some (.unavailable reason) => [.lookupUnavailable reason]
  | some (.found _) => []

def needsDecision (outcome : Option BatchLookupRowOutcome) (error : LibraryImportRowError) :
    ResolvedRow where
  status := .needsReview
  resolution := none
  errors := lookupErrors outcome ++ [error]
  candidates := []

/-- `settle`: a chain is ready when the owner has decided, or there was nothing to decide. -/
def settle (chosenWorkId : Option (Option WorkId)) (catalog : LibraryImportResolvedCatalog)
    (candidates : List LibraryImportCandidate) : ResolvedRow :=
  let offered : Bool := match chosenWorkId with
    | none => false
    | some none => true
    | some (some workId) => candidates.any fun c => c.workId = workId
  let workId := if offered then chosenWorkId.join else none
  if offered ∨ candidates = [] then
    { status := .readyCreateChain
      resolution := some (.createChain workId catalog)
      errors := []
      candidates }
  else
    { status := .needsReview
      resolution := none
      errors := [.ambiguousCatalogMatch candidates]
      candidates }

/-- What a row is resolved to. -/
def resolveRow (view : CatalogView) (fetched : String → Option BatchLookupRowOutcome)
    (row : ResolvableRow) : ResolvedRow :=
  match findLocalEdition view.editions row.values.isbn13 with
  | some edition => existingEdition edition
  | none =>
    let outcome := fetched row.values.isbn13 <|> view.cached row.values.isbn13
    let found := match outcome with
      | some (.found result) => some result
      | _ => none
    match buildResolvedCatalog env row.values found with
    | .complete catalog =>
      settle row.chosenWorkId catalog (view.candidates env catalog.work.title)
    | .incomplete missing => needsDecision outcome (.missingCatalogData missing)
    | .conflicting fields => needsDecision outcome (.conflictingCatalogData fields)

/-- What the lookup says of the row, freshly asked or cached. -/
def outcomeOf (view : CatalogView) (fetched : String → Option BatchLookupRowOutcome)
    (isbn13 : String) : Option BatchLookupRowOutcome :=
  fetched isbn13 <|> view.cached isbn13

def foundOf : Option BatchLookupRowOutcome → Option BookLookupResult
  | some (.found result) => some result
  | _ => none

theorem settle_cases (chosenWorkId : Option (Option WorkId)) (catalog : LibraryImportResolvedCatalog)
    (candidates : List LibraryImportCandidate) :
    (∃ workId, settle chosenWorkId catalog candidates =
        ⟨.readyCreateChain, some (.createChain workId catalog), [], candidates⟩ ∧
      (chosenWorkId = some workId ∨ workId = none ∧ candidates = []) ∧
      ∀ id, workId = some id → ∃ c ∈ candidates, c.workId = id) ∨
    (candidates ≠ [] ∧ settle chosenWorkId catalog candidates =
      ⟨.needsReview, none, [.ambiguousCatalogMatch candidates], candidates⟩) := by
  rcases chosenWorkId with - | - | workId
  · by_cases hnil : candidates = []
    · exact .inl ⟨none, by simp [settle, hnil], .inr ⟨rfl, hnil⟩, fun _ h => nomatch h⟩
    · exact .inr ⟨hnil, by simp [settle, hnil]⟩
  · exact .inl ⟨none, by simp [settle], .inl rfl, fun _ h => nomatch h⟩
  · by_cases hoffered : ∃ c ∈ candidates, c.workId = workId
    · refine .inl ⟨some workId, ?_, .inl rfl, fun id h => by cases h; exact hoffered⟩
      have hany : (candidates.any fun c => c.workId = workId) = true := by simpa using hoffered
      simp only [settle, hany, if_true, true_or, Option.join_some]
    · have hany : (candidates.any fun c => c.workId = workId) = false := by
        rw [List.any_eq_false]
        simpa using hoffered
      by_cases hnil : candidates = []
      · exact .inl ⟨none, by simp [settle, hnil], .inr ⟨rfl, hnil⟩, fun _ h => nomatch h⟩
      · exact .inr ⟨hnil, by simp [settle, hany, hnil]⟩

/-- **What a row is resolved to**: an edition of its ISBN, an open question about its data, or a
chain that is settled with the candidates for its title. -/
theorem resolveRow_cases (view : CatalogView) (fetched : String → Option BatchLookupRowOutcome)
    (row : ResolvableRow) :
    (∃ edition, findLocalEdition view.editions row.values.isbn13 = some edition ∧
      resolveRow env view fetched row = existingEdition edition) ∨
    (findLocalEdition view.editions row.values.isbn13 = none ∧ ∃ columns error,
      (buildResolvedCatalog env row.values (foundOf (outcomeOf view fetched row.values.isbn13)) =
          .incomplete columns ∧ error = .missingCatalogData columns ∨
        buildResolvedCatalog env row.values (foundOf (outcomeOf view fetched row.values.isbn13)) =
          .conflicting columns ∧ error = .conflictingCatalogData columns) ∧
      resolveRow env view fetched row =
        needsDecision (outcomeOf view fetched row.values.isbn13) error) ∨
    (findLocalEdition view.editions row.values.isbn13 = none ∧ ∃ catalog,
      buildResolvedCatalog env row.values (foundOf (outcomeOf view fetched row.values.isbn13)) =
        .complete catalog ∧
      resolveRow env view fetched row =
        settle row.chosenWorkId catalog (view.candidates env catalog.work.title)) := by
  cases hedition : findLocalEdition view.editions row.values.isbn13 with
  | some edition => exact .inl ⟨edition, rfl, by simp [resolveRow, hedition]⟩
  | none =>
    have hfound : resolveRow env view fetched row =
        match buildResolvedCatalog env row.values
          (foundOf (outcomeOf view fetched row.values.isbn13)) with
        | .complete catalog =>
          settle row.chosenWorkId catalog (view.candidates env catalog.work.title)
        | .incomplete missing => needsDecision (outcomeOf view fetched row.values.isbn13)
          (.missingCatalogData missing)
        | .conflicting fields => needsDecision (outcomeOf view fetched row.values.isbn13)
          (.conflictingCatalogData fields) := by
      simp only [resolveRow, hedition, outcomeOf, foundOf]
    cases hbuild : buildResolvedCatalog env row.values
        (foundOf (outcomeOf view fetched row.values.isbn13)) with
    | complete catalog => exact .inr (.inr ⟨rfl, catalog, rfl, by rw [hfound, hbuild]⟩)
    | incomplete missing =>
      exact .inr (.inl ⟨rfl, missing, _, .inl ⟨rfl, rfl⟩, by rw [hfound, hbuild]⟩)
    | conflicting fields =>
      exact .inr (.inl ⟨rfl, fields, _, .inr ⟨rfl, rfl⟩, by rw [hfound, hbuild]⟩)

/-- The answers, by row number. -/
def LibraryImportResolver.resolve (view : CatalogView) (fetched : String → Option BatchLookupRowOutcome)
    (rows : List ResolvableRow) (rowNumber : Nat) : Option ResolvedRow :=
  (rows.find? fun row => row.rowNumber = rowNumber).map (resolveRow env view fetched)

/-! ## Draft records -/

structure RowDraftInput where
  rowNumber : Nat
  cells : LibraryImportCells
  values : Option LibraryImportRowValues
  fieldErrors : List LibraryImportRowError
  rejectedCells : LibraryImportRejectedCells
  skipped : Bool
  /-- `none` to mint a new one. -/
  rowVersion : Option String

/-- `PARSE_ERROR_CODES` -/
def LibraryImportRowError.isField (e : LibraryImportRowError) : Bool := e.field?.isSome

def fieldErrorsOf (errors : List LibraryImportRowError) : List LibraryImportRowError :=
  errors.filter LibraryImportRowError.isField

/-- The values that count in the comparison and in the resolution: not those of a skipped row or of
a row with field errors. -/
def RowDraftInput.comparable (row : RowDraftInput) : Option LibraryImportRowValues :=
  if row.skipped ∨ row.fieldErrors ≠ [] then none else row.values

/-- The duplicates among the rows, each with the first row of its key. -/
def duplicatesFrom : List RowDraftInput → FirstRowByKey → List (Nat × Nat)
  | [], _ => []
  | row :: rest, firstByKey =>
    let noted := noteComparable firstByKey row.rowNumber row.comparable
    (noted.1.map fun first => (row.rowNumber, first)).toList ++ duplicatesFrom rest noted.2

/-- `duplicateErrors`, by row number. -/
def duplicateErrors (rows : List RowDraftInput) (rowNumber : Nat) : Option Nat :=
  (duplicatesFrom rows []).lookup rowNumber

/-- `record`, in the call `call`. -/
def record (call : Nat) (row : RowDraftInput) (status : LibraryImportRowStatus)
    (errors : List LibraryImportRowError) (resolution : Option LibraryImportRowResolution) :
    LibraryImportRowRecord where
  rowNumber := row.rowNumber
  status := status
  payload :=
    { cells := row.cells
      values := row.values
      errors := errors
      resolution := resolution
      rejectedCells := row.rejectedCells
      rowVersion := row.rowVersion.getD (env.randomUUID call row.rowNumber) }

def toRowRecord (call : Nat) (row : RowDraftInput) (duplicate : Option Nat)
    (resolved : Option ResolvedRow) : LibraryImportRowRecord :=
  if row.skipped then record env call row .skipped row.fieldErrors none
  else
    let errors := row.fieldErrors ++ (duplicate.map .duplicateRow).toList
    if errors ≠ [] ∨ row.values = none then record env call row .invalid errors none
    else match resolved with
      | none => record env call row .needsReview [] none
      | some resolved => record env call row resolved.status resolved.errors resolved.resolution

/-- `toResolvable` -/
def toResolvable (inputs : List RowDraftInput) (chosen : Nat → Option (Option WorkId)) :
    List ResolvableRow :=
  inputs.filterMap fun row => row.comparable.map fun values =>
    ⟨row.rowNumber, values, chosen row.rowNumber⟩

/-- The records of all rows, recomputed together. -/
def recordsOf (call : Nat) (inputs : List RowDraftInput) (resolved : Nat → Option ResolvedRow) :
    List LibraryImportRowRecord :=
  inputs.map fun row =>
    toRowRecord env call row (duplicateErrors inputs row.rowNumber) (resolved row.rowNumber)

/-- The rows in the order of their numbers. -/
def sortRows (rows : List LibraryImportRowRecord) : List LibraryImportRowRecord :=
  rows.mergeSort fun left right => left.rowNumber ≤ right.rowNumber

def toDraftVersion (rows : List LibraryImportRowRecord) : String :=
  env.sha256 ((sortRows rows).map fun row => (row.rowNumber, row.payload.rowVersion))

end Bookswap
