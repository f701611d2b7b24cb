import Bookswap.Import.RowValues

/-!
# contracts/library-import.ts: the record of a row

What a draft keeps of a row: its cells and values, its errors, what it would create, and a version.
`libraryImportRowRecordSchema` is checked on every write and every read.

- `LibraryImportRowError`, `LibraryImportRowResolution`, `LibraryImportRowRecord`.
- `libraryImportResolvedCatalogSchema`: the chain that a row describes; `refusedColumns` are the
  columns of its issues.
- `libraryImportRowRecordSchema`, `Accepted`: the schema of a row; a record that it accepts comes
  back as it is (`normalizes_rowRecordSchema`).
-/

namespace Bookswap

open Normalizing

/-! ## The resolved catalog -/

structure LibraryImportResolvedWork where
  title : String
  authors : List String
  origLang : String
  firstPubYear : Option Int
  deriving DecidableEq, Repr

structure LibraryImportResolvedTranslation where
  translator : String
  lang : String
  sourceLang : String
  year : Option Int
  isAbridged : Bool
  hasNotes : Bool
  notes : Option String
  deriving DecidableEq, Repr

structure LibraryImportResolvedEdition where
  isbn13 : String
  publisher : Option String
  year : Option Int
  pageCount : Option Int
  coverUrl : Option String
  format : EditionFormat
  deriving DecidableEq, Repr

structure LibraryImportResolvedCatalog where
  work : LibraryImportResolvedWork
  translation : Option LibraryImportResolvedTranslation
  edition : LibraryImportResolvedEdition
  deriving DecidableEq, Repr

section CatalogSchema

variable (env : ImportEnv)

def libraryImportResolvedWorkSchema (w : LibraryImportResolvedWork) :
    Option LibraryImportResolvedWork := do
  let title ← titleSchema w.title
  let authors ← authorsSchema w.authors
  let origLang ← languageCodeSchema w.origLang
  let firstPubYear ← optional yearSchema w.firstPubYear
  return { title, authors, origLang, firstPubYear }

def libraryImportResolvedTranslationSchema (t : LibraryImportResolvedTranslation) :
    Option LibraryImportResolvedTranslation := do
  let translator ← translatorSchema t.translator
  let lang ← languageCodeSchema t.lang
  let sourceLang ← languageCodeSchema t.sourceLang
  let year ← optional yearSchema t.year
  let notes ← optional translationNotesSchema t.notes
  return { t with translator, lang, sourceLang, year, notes }

def libraryImportResolvedEditionSchema (e : LibraryImportResolvedEdition) :
    Option LibraryImportResolvedEdition := do
  let isbn13 ← isbn13Schema e.isbn13
  let publisher ← optional publisherSchema e.publisher
  let year ← optional yearSchema e.year
  let pageCount ← optional pageCountSchema e.pageCount
  let coverUrl ← optional (coverUrlSchema env) e.coverUrl
  return { e with isbn13, publisher, year, pageCount, coverUrl }

def libraryImportResolvedCatalogSchema (c : LibraryImportResolvedCatalog) :
    Option LibraryImportResolvedCatalog := do
  let work ← libraryImportResolvedWorkSchema c.work
  let translation ← optional libraryImportResolvedTranslationSchema c.translation
  let edition ← libraryImportResolvedEditionSchema env c.edition
  return { work, translation, edition }

/-- The schema refuses the field that `COLUMN_BY_PATH` gives the column. -/
def refusesField (c : LibraryImportResolvedCatalog) (column : LibraryImportColumn) : Bool :=
  let ofTranslation (refuses : LibraryImportResolvedTranslation → Bool) : Bool :=
    c.translation.any refuses
  match column with
  | .title => (titleSchema c.work.title).isNone
  | .authors => (authorsSchema c.work.authors).isNone
  | .origLang => (languageCodeSchema c.work.origLang).isNone
  | .firstPubYear => (optional yearSchema c.work.firstPubYear).isNone
  | .translator => ofTranslation fun t => (translatorSchema t.translator).isNone
  | .editionLang => ofTranslation fun t => (languageCodeSchema t.lang).isNone
  | .translationSourceLang => ofTranslation fun t => (languageCodeSchema t.sourceLang).isNone
  | .translationYear => ofTranslation fun t => (optional yearSchema t.year).isNone
  | .translationNotes => ofTranslation fun t => (optional translationNotesSchema t.notes).isNone
  | .isbn13 => (isbn13Schema c.edition.isbn13).isNone
  | .publisher => (optional publisherSchema c.edition.publisher).isNone
  | .editionYear => (optional yearSchema c.edition.year).isNone
  | .pageCount => (optional pageCountSchema c.edition.pageCount).isNone
  | .coverUrl => (optional (coverUrlSchema env) c.edition.coverUrl).isNone
  | _ => false

/-- The columns of `COLUMN_BY_PATH`, in the order of the schema. -/
def COLUMN_BY_PATH : List LibraryImportColumn :=
  [.title, .authors, .origLang, .firstPubYear, .translator, .editionLang, .translationSourceLang,
    .translationYear, .isAbridged, .hasNotes, .translationNotes, .isbn13, .publisher, .editionYear,
    .pageCount, .coverUrl, .format]

/-- `columnsOfIssues` -/
def columnsOfIssues (c : LibraryImportResolvedCatalog) : List LibraryImportColumn :=
  let columns := COLUMN_BY_PATH.filter (refusesField env c)
  if columns ≠ [] then columns else [.title]

theorem normalizes_resolvedWorkSchema : Normalizes libraryImportResolvedWorkSchema := by
  intro c d h
  unfold libraryImportResolvedWorkSchema at h ⊢
  simp only [↓do_eq_some, Option.pure_def, Option.some.injEq] at h ⊢
  obtain ⟨title, h₁, authors, h₂, origLang, h₃, year, h₄, rfl⟩ := h
  exact ⟨_, normalizes_textSchema _ _ _ _ h₁, _, normalizes_authorsSchema _ _ h₂,
    _, normalizes_languageCodeSchema _ _ h₃, _, (normalizes_numberSchema _ _).optional _ _ h₄, rfl⟩

theorem normalizes_resolvedTranslationSchema :
    Normalizes libraryImportResolvedTranslationSchema := by
  intro c d h
  unfold libraryImportResolvedTranslationSchema at h ⊢
  simp only [↓do_eq_some, Option.pure_def, Option.some.injEq] at h ⊢
  obtain ⟨translator, h₁, lang, h₂, sourceLang, h₃, year, h₄, notes, h₅, rfl⟩ := h
  exact ⟨_, normalizes_textSchema _ _ _ _ h₁, _, normalizes_languageCodeSchema _ _ h₂,
    _, normalizes_languageCodeSchema _ _ h₃, _, (normalizes_numberSchema _ _).optional _ _ h₄,
    _, (normalizes_textSchema _ _).optional _ _ h₅, rfl⟩

theorem normalizes_resolvedEditionSchema :
    Normalizes (libraryImportResolvedEditionSchema env) := by
  intro c d h
  unfold libraryImportResolvedEditionSchema at h ⊢
  simp only [↓do_eq_some, Option.pure_def, Option.some.injEq] at h ⊢
  obtain ⟨isbn13, h₁, publisher, h₂, year, h₃, pageCount, h₄, coverUrl, h₅, rfl⟩ := h
  exact ⟨_, normalizes_isbn13Schema _ _ h₁, _, (normalizes_textSchema _ _).optional _ _ h₂,
    _, (normalizes_numberSchema _ _).optional _ _ h₃,
    _, (normalizes_numberSchema _ _).optional _ _ h₄,
    _, (normalizes_coverUrlSchema env).optional _ _ h₅, rfl⟩

theorem normalizes_resolvedCatalogSchema :
    Normalizes (libraryImportResolvedCatalogSchema env) := by
  intro c d h
  unfold libraryImportResolvedCatalogSchema at h ⊢
  simp only [↓do_eq_some, Option.pure_def, Option.some.injEq] at h ⊢
  obtain ⟨work, h₁, translation, h₂, edition, h₃, rfl⟩ := h
  exact ⟨_, normalizes_resolvedWorkSchema _ _ h₁,
    _, normalizes_resolvedTranslationSchema.optional _ _ h₂,
    _, normalizes_resolvedEditionSchema env _ _ h₃, rfl⟩

end CatalogSchema

/-! ## Errors, resolutions, rows -/

inductive LibraryImportRowStatus
  | readyExistingEdition | readyCreateChain | needsReview | invalid | skipped
  deriving DecidableEq, Repr

/-- `LIBRARY_IMPORT_CELL_REJECTION`: why a reader refused a cell of a sheet. -/
inductive LibraryImportCellRejection
  | unexpectedDate | dateOutOfRange | unrepresentableNumber
  deriving DecidableEq, Repr

abbrev LibraryImportRejectedCells := LibraryImportColumn → Option LibraryImportCellRejection

structure LibraryImportCandidate where
  workId : WorkId
  title : String
  authors : List String
  deriving DecidableEq, Repr

inductive LibraryImportLookupUnavailableReason
  | providerError | timeout | budgetExhausted | concurrentUpdate
  deriving DecidableEq, Repr

inductive LibraryImportRowError
  | invalidIsbn
  | invalidField (field : LibraryImportColumn)
  | duplicateRow (firstRowNumber : Nat)
  | lookupNotFound
  | lookupUnavailable (reason : LibraryImportLookupUnavailableReason)
  | missingCatalogData (fields : List LibraryImportColumn)
  | conflictingCatalogData (fields : List LibraryImportColumn)
  | ambiguousCatalogMatch (candidates : List LibraryImportCandidate)
  deriving DecidableEq, Repr

inductive LibraryImportRowResolution
  | existingEdition (editionId : EditionId) (workId : WorkId)
  /-- Without a work: create a new one. -/
  | createChain (workId : Option WorkId) (catalog : LibraryImportResolvedCatalog)
  deriving DecidableEq, Repr

structure LibraryImportRowPayload where
  cells : LibraryImportCells
  values : Option LibraryImportRowValues
  errors : List LibraryImportRowError
  resolution : Option LibraryImportRowResolution
  rejectedCells : LibraryImportRejectedCells
  rowVersion : String

structure LibraryImportRowRecord where
  rowNumber : Nat
  status : LibraryImportRowStatus
  payload : LibraryImportRowPayload

/-! ## The schema of a row -/

/-- `libraryImportCandidateSchema` -/
def LibraryImportCandidate.accepted (c : LibraryImportCandidate) : Bool :=
  c.title ≠ "" && c.authors.all (· ≠ "") && c.authors.length ≤ authorsMax

/-- `libraryImportRowNumberSchema` -/
def rowNumberAccepted (rowNumber : Nat) : Bool := 1 ≤ rowNumber && rowNumber ≤ maxDataRows

/-- `libraryImportRowErrorSchema` -/
def LibraryImportRowError.accepted : LibraryImportRowError → Bool
  | .invalidIsbn | .lookupNotFound | .lookupUnavailable _ => true
  | .invalidField field => field ≠ .isbn13
  | .duplicateRow firstRowNumber => rowNumberAccepted firstRowNumber
  | .missingCatalogData fields =>
    1 ≤ fields.length && fields.length ≤ LIBRARY_IMPORT_CSV_HEADER.length
  | .conflictingCatalogData fields =>
    2 ≤ fields.length && fields.length ≤ LIBRARY_IMPORT_CSV_HEADER.length
  | .ambiguousCatalogMatch candidates =>
    1 ≤ candidates.length && candidates.length ≤ SEARCH_CANDIDATES_LIMIT &&
      candidates.all LibraryImportCandidate.accepted

/-- What is read of the resolution's kind. -/
inductive ResolutionKind
  | existingEdition | createChain
  deriving DecidableEq

def LibraryImportRowResolution.kind : LibraryImportRowResolution → ResolutionKind
  | .existingEdition _ _ => .existingEdition
  | .createChain _ _ => .createChain

/-- `READY_RESOLUTION_KIND` -/
def READY_RESOLUTION_KIND : LibraryImportRowStatus → Option ResolutionKind
  | .readyExistingEdition => some .existingEdition
  | .readyCreateChain => some .createChain
  | .needsReview | .invalid | .skipped => none

/-- `READY_ROW_STATUSES` -/
def LibraryImportRowStatus.ready : LibraryImportRowStatus → Bool
  | .readyExistingEdition | .readyCreateChain => true
  | .needsReview | .invalid | .skipped => false

/-- What the schema of the payload checks besides values and resolution, which it parses. -/
structure LibraryImportRowPayload.Accepted (p : LibraryImportRowPayload) : Prop where
  cells : ∀ column ∈ LIBRARY_IMPORT_CSV_HEADER, utf16Length (p.cells column) ≤ maxBytes
  errors_length : p.errors.length ≤ LIBRARY_IMPORT_CSV_HEADER.length
  errors : ∀ e ∈ p.errors, e.accepted = true
  rowVersion : 1 ≤ utf16Length p.rowVersion ∧ utf16Length p.rowVersion ≤ 64
  explained : p.values ≠ none ∨ p.errors ≠ []

instance (p : LibraryImportRowPayload) : Decidable p.Accepted :=
  decidable_of_iff
    ((∀ column ∈ LIBRARY_IMPORT_CSV_HEADER, utf16Length (p.cells column) ≤ maxBytes) ∧
      p.errors.length ≤ LIBRARY_IMPORT_CSV_HEADER.length ∧ (∀ e ∈ p.errors, e.accepted = true) ∧
      (1 ≤ utf16Length p.rowVersion ∧ utf16Length p.rowVersion ≤ 64) ∧
      (p.values ≠ none ∨ p.errors ≠ []))
    ⟨fun ⟨h₁, h₂, h₃, h₄, h₅⟩ => ⟨h₁, h₂, h₃, h₄, h₅⟩, fun ⟨h₁, h₂, h₃, h₄, h₅⟩ => ⟨h₁, h₂, h₃, h₄, h₅⟩⟩

/-- A duplicate points to an earlier row. -/
def LibraryImportRowError.pointsBefore (rowNumber : Nat) : LibraryImportRowError → Bool
  | .duplicateRow firstRowNumber => firstRowNumber < rowNumber
  | _ => true

/-- The `superRefine` of the record. -/
structure LibraryImportRowRecord.Coherent (row : LibraryImportRowRecord) : Prop where
  resolution : row.payload.resolution.map LibraryImportRowResolution.kind =
    READY_RESOLUTION_KIND row.status
  invalid : row.status = .invalid → row.payload.errors ≠ []
  ready : row.status.ready = true → row.payload.errors = [] ∧ row.payload.values ≠ none
  without_values : row.payload.values = none → row.status = .invalid ∨ row.status = .skipped
  duplicates : ∀ e ∈ row.payload.errors, e.pointsBefore row.rowNumber = true

instance (row : LibraryImportRowRecord) : Decidable row.Coherent :=
  decidable_of_iff
    (row.payload.resolution.map LibraryImportRowResolution.kind = READY_RESOLUTION_KIND row.status ∧
      (row.status = .invalid → row.payload.errors ≠ []) ∧
      (row.status.ready = true → row.payload.errors = [] ∧ row.payload.values ≠ none) ∧
      (row.payload.values = none → row.status = .invalid ∨ row.status = .skipped) ∧
      ∀ e ∈ row.payload.errors, e.pointsBefore row.rowNumber = true)
    ⟨fun ⟨h₁, h₂, h₃, h₄, h₅⟩ => ⟨h₁, h₂, h₃, h₄, h₅⟩, fun ⟨h₁, h₂, h₃, h₄, h₅⟩ => ⟨h₁, h₂, h₃, h₄, h₅⟩⟩

section RowSchema

variable (env : ImportEnv)

def libraryImportRowResolutionSchema :
    LibraryImportRowResolution → Option LibraryImportRowResolution
  | .existingEdition editionId workId => some (.existingEdition editionId workId)
  | .createChain workId catalog =>
    (libraryImportResolvedCatalogSchema env catalog).map (.createChain workId)

/-- What the schema makes of values and resolution. -/
def LibraryImportRowPayload.parse (p : LibraryImportRowPayload) : Option LibraryImportRowPayload := do
  let values ← optional (libraryImportRowValuesSchema env) p.values
  let resolution ← optional (libraryImportRowResolutionSchema env) p.resolution
  return { p with values, resolution }

/-- `libraryImportRowRecordSchema` -/
def libraryImportRowRecordSchema (row : LibraryImportRowRecord) : Option LibraryImportRowRecord :=
  (row.payload.parse env).bind fun payload =>
    if rowNumberAccepted row.rowNumber ∧ payload.Accepted ∧ { row with payload }.Coherent
    then some { row with payload } else none

theorem normalizes_rowResolutionSchema : Normalizes (libraryImportRowResolutionSchema env) := by
  intro x y h
  cases x with
  | existingEdition editionId workId =>
    cases h
    rfl
  | createChain workId catalog =>
    rw [libraryImportRowResolutionSchema, Option.map_eq_some_iff] at h
    obtain ⟨parsed, hparsed, rfl⟩ := h
    rw [libraryImportRowResolutionSchema, normalizes_resolvedCatalogSchema env _ _ hparsed]
    rfl

/-- What the schema makes of values and resolution, and that it leaves the rest. -/
theorem LibraryImportRowPayload.parse_eq_some {p q : LibraryImportRowPayload} :
    p.parse env = some q ↔ optional (libraryImportRowValuesSchema env) p.values = some q.values ∧
      optional (libraryImportRowResolutionSchema env) p.resolution = some q.resolution ∧
      q = { p with values := q.values, resolution := q.resolution } := by
  simp only [parse, Option.bind_eq_bind, Option.bind_eq_some_iff, Option.pure_def, Option.some.injEq]
  constructor
  · rintro ⟨values, hvalues, resolution, hresolution, rfl⟩
    exact ⟨hvalues, hresolution, rfl⟩
  · rintro ⟨hvalues, hresolution, hq⟩
    exact ⟨_, hvalues, _, hresolution, hq.symm⟩

theorem libraryImportRowRecordSchema_eq_some {row parsed : LibraryImportRowRecord} :
    libraryImportRowRecordSchema env row = some parsed ↔
      row.payload.parse env = some parsed.payload ∧ parsed.rowNumber = row.rowNumber ∧
      parsed.status = row.status ∧ rowNumberAccepted parsed.rowNumber = true ∧
      parsed.payload.Accepted ∧ parsed.Coherent := by
  unfold libraryImportRowRecordSchema
  rw [Option.bind_eq_some_iff]
  constructor
  · rintro ⟨payload, hpayload, h⟩
    split at h
    · cases h
      exact ⟨hpayload, rfl, rfl, ‹_›⟩
    · cases h
  · obtain ⟨rowNumber, status, payload⟩ := parsed
    rintro ⟨hpayload, rfl, rfl, haccepted⟩
    exact ⟨payload, hpayload, if_pos haccepted⟩

/-- **A record that was accepted is accepted again as it is.** -/
theorem normalizes_rowRecordSchema : Normalizes (libraryImportRowRecordSchema env) := by
  intro row parsed h
  obtain ⟨hparse, -, -, hrest⟩ := (libraryImportRowRecordSchema_eq_some env).mp h
  refine (libraryImportRowRecordSchema_eq_some env).mpr ⟨?_, rfl, rfl, hrest⟩
  obtain ⟨hvalues, hresolution, -⟩ := (LibraryImportRowPayload.parse_eq_some env).mp hparse
  exact (LibraryImportRowPayload.parse_eq_some env).mpr
    ⟨(normalizes_rowValuesSchema env).optional _ _ hvalues,
      (normalizes_rowResolutionSchema env).optional _ _ hresolution, rfl⟩

end RowSchema

end Bookswap
