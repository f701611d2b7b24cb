import Bookswap.Import.RowRecord

/-!
# library-import-rows.ts, library-import.resolution.ts

What happens to a row once it is a row: its field errors and values, duplicates within the file,
and the chain of the catalog that it describes together with what a lookup found.

- `rowErrors`, `rowValues`: the reading of a row's cells, with the cells that a reader refused.
- `mem_rowErrors_iff`, `rowValues_eq_none_iff`: a column has an error exactly if its text or its
  cell was refused, and a row with an error has no values.
- `buildLibraryImportRows`, `ParsedFile`: a file that was read.
- `buildResolvedCatalog`: the chain, or what is missing or contradictory.
-/

namespace Bookswap

/-! ## Field errors -/

def libraryImportFieldError : LibraryImportColumn → LibraryImportRowError
  | .isbn13 => .invalidIsbn
  | column => .invalidField column

/-- The column of a field error. -/
def LibraryImportRowError.field? : LibraryImportRowError → Option LibraryImportColumn
  | .invalidIsbn => some .isbn13
  | .invalidField field => some field
  | _ => none

def libraryImportFieldErrors (failed : List LibraryImportColumn) : List LibraryImportRowError :=
  (LIBRARY_IMPORT_CSV_HEADER.filter (· ∈ failed)).map libraryImportFieldError

def mergeFieldErrors (fromSchema : List LibraryImportRowError)
    (rejected : LibraryImportRejectedCells) : List LibraryImportRowError :=
  (LIBRARY_IMPORT_CSV_HEADER.filter fun column =>
    (rejected column).isSome || fromSchema.any fun e => e.field? = some column).map
      libraryImportFieldError

variable (env : ImportEnv)

/-- The field errors of a row: what the schema says, and the cells that a reader refused. -/
def rowErrors (cells : LibraryImportCells) (rejected : LibraryImportRejectedCells) :
    List LibraryImportRowError :=
  mergeFieldErrors (match libraryImportCsvRowSchema env cells with
    | .ok _ => []
    | .error failed => libraryImportFieldErrors failed) rejected

/-- The values of a row without field errors. -/
def rowValues (cells : LibraryImportCells) (rejected : LibraryImportRejectedCells) :
    Option LibraryImportRowValues :=
  match libraryImportCsvRowSchema env cells with
  | .ok values => if rowErrors env cells rejected = [] then some values else none
  | .error _ => none

@[simp] theorem field?_libraryImportFieldError (column : LibraryImportColumn) :
    (libraryImportFieldError column).field? = some column := by
  cases column <;> rfl

theorem libraryImportFieldError_injective : Function.Injective libraryImportFieldError := by
  intro c d h
  have hfield := congrArg LibraryImportRowError.field? h
  simpa using hfield

theorem mem_libraryImportFieldErrors {failed : List LibraryImportColumn}
    {column : LibraryImportColumn} :
    libraryImportFieldError column ∈ libraryImportFieldErrors failed ↔ column ∈ failed := by
  rw [libraryImportFieldErrors, List.mem_map_of_injective libraryImportFieldError_injective]
  simp [mem_header]

/-- A column has one of the merged errors exactly if either source names it. -/
theorem mem_mergeFieldErrors {fromSchema : List LibraryImportRowError}
    {rejected : LibraryImportRejectedCells} {e : LibraryImportRowError} :
    e ∈ mergeFieldErrors fromSchema rejected ↔ ∃ column, libraryImportFieldError column = e ∧
      (rejected column ≠ none ∨ ∃ e' ∈ fromSchema, e'.field? = some column) := by
  simp [mergeFieldErrors, mem_header, Option.isSome_iff_ne_none, and_comm]

/-- **A column has an error exactly if its text or its cell was refused.** -/
theorem mem_rowErrors_iff {cells : LibraryImportCells} {rejected : LibraryImportRejectedCells}
    {e : LibraryImportRowError} :
    e ∈ rowErrors env cells rejected ↔ ∃ column, libraryImportFieldError column = e ∧
      (rejected column ≠ none ∨ rejectsCell env column (cells column) = true) := by
  rw [rowErrors, mem_mergeFieldErrors]
  refine exists_congr fun column => and_congr_right fun _ => or_congr_right ?_
  cases h : libraryImportCsvRowSchema env cells with
  | ok values =>
    have hread := (libraryImportCsvRowSchema_eq_ok env).mp h
    have hall := isNone_readCells env cells
    rw [hread, Option.isNone_some, eq_comm, List.any_eq_false] at hall
    simpa using hall column (mem_header column)
  | error failed =>
    have hfailed := (libraryImportCsvRowSchema_eq_error env h).1 column
    rw [← hfailed, ← mem_libraryImportFieldErrors]
    constructor
    · rintro ⟨e', he', hfield⟩
      obtain ⟨column', -, rfl⟩ := List.mem_map.mp he'
      rw [field?_libraryImportFieldError, Option.some.injEq] at hfield
      rwa [← hfield]
    · intro hmem
      exact ⟨_, hmem, field?_libraryImportFieldError column⟩

/-- A row has no values exactly if it has a field error. -/
theorem rowValues_eq_none_iff {cells : LibraryImportCells}
    {rejected : LibraryImportRejectedCells} :
    rowValues env cells rejected = none ↔ rowErrors env cells rejected ≠ [] := by
  unfold rowValues
  cases h : libraryImportCsvRowSchema env cells with
  | ok values => simp
  | error failed =>
    refine iff_of_true rfl fun hnil => ?_
    obtain ⟨hfailed, hne⟩ := libraryImportCsvRowSchema_eq_error env h
    obtain ⟨column, hcolumn⟩ := List.exists_mem_of_ne_nil failed hne
    have hmem : libraryImportFieldError column ∈ rowErrors env cells rejected :=
      (mem_rowErrors_iff env).mpr ⟨column, rfl, .inr ((hfailed column).mp hcolumn)⟩
    rw [hnil] at hmem
    cases hmem

theorem rowErrors_of_rowValues {cells : LibraryImportCells} {rejected : LibraryImportRejectedCells}
    {values : LibraryImportRowValues} (h : rowValues env cells rejected = some values) :
    rowErrors env cells rejected = [] := by
  refine not_not.mp fun hne => ?_
  have hnone : rowValues env cells rejected = none := (rowValues_eq_none_iff env).mpr hne
  exact absurd (hnone.symm.trans h) (by simp)

theorem readCells_of_rowValues {cells : LibraryImportCells} {rejected : LibraryImportRejectedCells}
    {values : LibraryImportRowValues} (h : rowValues env cells rejected = some values) :
    readCells env cells = some values := by
  unfold rowValues at h
  split at h
  · rename_i v hv
    split at h
    · cases h
      exact (libraryImportCsvRowSchema_eq_ok env).mp hv
    · cases h
  · cases h

theorem length_rowErrors_le (cells : LibraryImportCells) (rejected : LibraryImportRejectedCells) :
    (rowErrors env cells rejected).length ≤ LIBRARY_IMPORT_CSV_HEADER.length := by
  rw [rowErrors, mergeFieldErrors, List.length_map]
  exact List.length_filter_le _ _

-- from here on the reading of a row is known by its lemmas only
attribute [irreducible] rowErrors rowValues

/-! ## Files -/

structure LibraryImportParsedRow where
  rowNumber : Nat
  cells : LibraryImportCells
  values : Option LibraryImportRowValues
  errors : List LibraryImportRowError
  rejectedCells : LibraryImportRejectedCells

/-- `libraryImportDuplicateKey`: every value but the quantity (the source takes their JSON text). -/
def libraryImportDuplicateKey (values : LibraryImportRowValues) : LibraryImportRowValues :=
  { values with quantity := 0 }

/-- The first rows of the keys so far. -/
abbrev FirstRowByKey := List (LibraryImportRowValues × Nat)

/-- The row that a row repeats, if there is one; otherwise the row is the first of its key. -/
def noteRow (firstRowByKey : FirstRowByKey) (rowNumber : Nat) (values : LibraryImportRowValues) :
    Option Nat × FirstRowByKey :=
  let key := libraryImportDuplicateKey values
  match firstRowByKey.lookup key with
  | none => (none, (key, rowNumber) :: firstRowByKey)
  | some first => (some first, firstRowByKey)

/-- The same for a row that may have no values: it is not compared. -/
def noteComparable (firstRowByKey : FirstRowByKey) (rowNumber : Nat) :
    Option LibraryImportRowValues → Option Nat × FirstRowByKey
  | none => (none, firstRowByKey)
  | some values => noteRow firstRowByKey rowNumber values

/-- The rows from a row number on. -/
def buildRowsFrom (rejections : Nat → LibraryImportRejectedCells) :
    List LibraryImportCells → Nat → FirstRowByKey → List LibraryImportParsedRow
  | [], _, _ => []
  | cells :: rest, rowNumber, firstRowByKey =>
    let rejectedCells := rejections rowNumber
    let values := rowValues env cells rejectedCells
    let noted := noteComparable firstRowByKey rowNumber values
    { rowNumber, cells, values
      errors := rowErrors env cells rejectedCells ++ (noted.1.map .duplicateRow).toList
      rejectedCells } :: buildRowsFrom rejections rest (rowNumber + 1) noted.2

/-- `buildLibraryImportRows` -/
def buildLibraryImportRows (records : List LibraryImportCells)
    (rejections : Nat → LibraryImportRejectedCells) : List LibraryImportParsedRow :=
  buildRowsFrom env rejections records 1 []

/-- `countLibraryImportCopies` -/
def countLibraryImportCopies (rows : List LibraryImportParsedRow) : Nat :=
  (rows.map fun row =>
    if row.rejectedCells .quantity ≠ none then 0
    else (libraryImportQuantityCellSchema (row.cells .quantity)).getD 0).sum

/-- `/^[0-9a-f]{64}$/` -/
def isHexDigest (value : String) : Bool :=
  value.toList.length = 64 && value.toList.all fun c => c.isDigit || ('a' ≤ c && c ≤ 'f')

/-- A file that `readLibraryImportFile` accepts, CSV or sheet. -/
structure ParsedFile where
  sourceHash : String
  records : List LibraryImportCells
  /-- A refused cell of a sheet has no text. -/
  rejections : Nat → LibraryImportRejectedCells
  digest : isHexDigest sourceHash = true
  some_rows : 1 ≤ records.length
  few_rows : records.length ≤ maxDataRows
  cells : ∀ cells ∈ records, ∀ column, utf16Length (cells column) ≤ maxBytes
  few_copies : countLibraryImportCopies (buildLibraryImportRows env records rejections) ≤ maxCopies

def ParsedFile.rows (file : ParsedFile env) : List LibraryImportParsedRow :=
  buildLibraryImportRows env file.records file.rejections

def ParsedFile.copyCount (file : ParsedFile env) : Nat := countLibraryImportCopies file.rows

/-- What the reading of a row leaves on it: its values and its field errors, and perhaps the row
that it repeats. -/
structure LibraryImportParsedRow.Read (row : LibraryImportParsedRow) : Prop where
  values : row.values = rowValues env row.cells row.rejectedCells
  errors : ∃ first : Option Nat, row.errors =
    rowErrors env row.cells row.rejectedCells ++ (first.map .duplicateRow).toList

theorem buildRowsFrom_spec (rejections : Nat → LibraryImportRejectedCells)
    (records : List LibraryImportCells) (rowNumber : Nat) (firstRowByKey : FirstRowByKey) :
    (buildRowsFrom env rejections records rowNumber firstRowByKey).map
        LibraryImportParsedRow.rowNumber = List.range' rowNumber records.length ∧
      ∀ row ∈ buildRowsFrom env rejections records rowNumber firstRowByKey,
        row.Read env ∧ row.cells ∈ records := by
  induction records generalizing rowNumber firstRowByKey with
  | nil => simp [buildRowsFrom]
  | cons cells rest ih =>
    rw [buildRowsFrom]
    obtain ⟨hnumbers, hrows⟩ := ih (rowNumber + 1)
      (noteComparable firstRowByKey rowNumber (rowValues env cells (rejections rowNumber))).2
    refine ⟨?_, fun row hrow => ?_⟩
    · rw [List.map_cons, hnumbers, List.length_cons, List.range'_succ]
    · rcases List.mem_cons.mp hrow with rfl | hrow
      · exact ⟨⟨rfl, _, rfl⟩, List.mem_cons_self⟩
      · exact ⟨(hrows row hrow).1, List.mem_cons_of_mem _ (hrows row hrow).2⟩

/-- The rows of a file are numbered from one, and each is read. -/
theorem ParsedFile.rows_spec (file : ParsedFile env) :
    file.rows.map LibraryImportParsedRow.rowNumber = List.range' 1 file.records.length ∧
      ∀ row ∈ file.rows, row.Read env ∧ row.cells ∈ file.records :=
  buildRowsFrom_spec env file.rejections file.records 1 []

/-! ## The chain of a row -/

inductive CatalogAssembly
  | complete (catalog : LibraryImportResolvedCatalog)
  | incomplete (missing : List LibraryImportColumn)
  | conflicting (fields : List LibraryImportColumn)

/-- `translationColumnsGiven`: the columns whose values say that the edition is a translation. -/
def translationColumnsGiven (values : LibraryImportRowValues) : List LibraryImportColumn :=
  (if values.translator.isSome then [.translator] else []) ++
  (if values.translationSourceLang.isSome then [.translationSourceLang] else []) ++
  (if values.translationYear.isSome then [.translationYear] else []) ++
  (if values.isAbridged = some true then [.isAbridged] else []) ++
  (if values.hasNotes = some true then [.hasNotes] else []) ++
  (if values.translationNotes.isSome then [.translationNotes] else [])

/-- `nonEmpty` -/
def nonEmpty (authors : Option (List String)) : Option (List String) :=
  authors.filter fun names => names ≠ []

/-- The chain of a row whose title, authors and original language are known. -/
def assembleCatalog (values : LibraryImportRowValues) (lookup : Option BookLookupResult)
    (title : String) (authors : List String) (origLang : String) : CatalogAssembly :=
  let editionLang := (values.editionLang <|> lookup.bind BookLookupResult.language).getD origLang
  let needsTranslation : Bool := editionLang ≠ origLang
  if needsTranslation ∧ values.translator = none then .incomplete [.translator]
  else if ¬ needsTranslation ∧ translationColumnsGiven values ≠ [] then
    .conflicting (.editionLang :: translationColumnsGiven values)
  else
    let candidate : LibraryImportResolvedCatalog :=
      { work := { title, authors, origLang, firstPubYear := values.firstPubYear }
        translation := if needsTranslation then values.translator.map fun translator =>
          { translator
            lang := editionLang
            sourceLang := values.translationSourceLang.getD origLang
            year := values.translationYear
            isAbridged := values.isAbridged.getD false
            hasNotes := values.hasNotes.getD false
            notes := values.translationNotes } else none
        edition :=
          { isbn13 := values.isbn13
            publisher := values.publisher <|> lookup.bind BookLookupResult.publisher
            year := values.editionYear <|> lookup.bind BookLookupResult.publishedYear
            pageCount := values.pageCount <|> lookup.bind BookLookupResult.pageCount
            coverUrl := values.coverUrl <|> lookup.bind BookLookupResult.coverUrl
            format := values.format } }
    match libraryImportResolvedCatalogSchema env candidate with
    | some catalog => .complete catalog
    | none => .incomplete (columnsOfIssues env candidate)

/-- `buildResolvedCatalog`: the file wins over the lookup, which only fills gaps. -/
def buildResolvedCatalog (values : LibraryImportRowValues) (lookup : Option BookLookupResult) :
    CatalogAssembly :=
  let title := values.title <|> lookup.map BookLookupResult.title
  let authors := values.authors <|> nonEmpty (lookup.bind BookLookupResult.authors)
  match title, authors, values.origLang with
  | some title, some authors, some origLang =>
    assembleCatalog env values lookup title authors origLang
  | _, _, _ =>
    .incomplete ((if title.isNone then [.title] else []) ++
      (if authors.isNone then [.authors] else []) ++
      (if values.origLang.isNone then [.origLang] else []))

end Bookswap
