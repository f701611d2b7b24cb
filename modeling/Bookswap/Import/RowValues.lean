import Bookswap.Lib.Normalizing
import Bookswap.QuickAdd.ExternalSources
import Mathlib.Algebra.GroupWithZero.Nat

/-!
# contracts/library-import.ts: the cells of a row and its values

A row of an imported file is 22 texts, one a column. `libraryImportCsvRowSchema` reads them into
typed values, each by the schema of its field; an empty cell is an absent value or a default.

- `LibraryImportColumn`, `LibraryImportCells`, `LibraryImportRowValues`.
- `rejectsCell`: the schema of the column refuses the text.
- `libraryImportCsvRowSchema`: the values of a row, or its refused columns.
- `libraryImportRowValuesSchema`: the schema of stored values; what a row is read into passes it
  unchanged (`rowValues_of_cells`).
-/

namespace Bookswap

open Normalizing

/-- What the code gets from the platform, the database and the digest. -/
structure ImportEnv where
  /-- `new URL(value)` does not throw. -/
  isUrl : String → Bool
  /-- `bookswap_norm` -/
  bookswapNorm : String → String
  /-- `pg_trgm`: the operator `%` under the pinned threshold. -/
  similar : String → String → Bool
  /-- `pg_trgm`: `similarity`. -/
  similarity : String → String → Nat
  /-- The `randomUUID()` that a call mints for a row. -/
  randomUUID : Nat → Nat → String
  /-- The SHA-256 of the ordered `rowNumber:rowVersion` pairs. -/
  sha256 : List (Nat × String) → String

/-! ## Limits -/

/-- `LIBRARY_IMPORT_LIMITS` -/
def maxBytes : Nat := 48 * 1024
def maxDataRows : Nat := 200
def quantityMin : Nat := 1
def quantityMax : Nat := 20
def quantityDefault : Nat := 1
def maxCopies : Nat := 500
def draftTtlHours : Int := 24

def translatorMax : Nat := 200
def notesMax : Nat := 1000
def noteMax : Nat := 1000
def SEARCH_CANDIDATES_LIMIT : Nat := 10

/-! ## Fields -/

/-- `value.length`: the UTF-16 code units. -/
def utf16Length (value : String) : Nat :=
  (value.toList.map fun c => if c.toNat < 0x10000 then 1 else 2).sum

/-- `z.string().trim().min(min).max(max)` -/
def textSchema (min max : Nat) : String → Option String :=
  canonical trim fun t => min ≤ utf16Length t ∧ utf16Length t ≤ max

def titleSchema : String → Option String := textSchema 1 titleMax
def authorNameSchema : String → Option String := textSchema 1 authorNameMax
def translatorSchema : String → Option String := textSchema 1 translatorMax
def translationNotesSchema : String → Option String := textSchema 0 notesMax
def publisherSchema : String → Option String := textSchema 1 publisherMax
def noteSchema : String → Option String := textSchema 0 noteMax

/-- `toLowerCase()`, as far as it can end in a language code: besides A to Z, the Kelvin sign. -/
def toLowerCase (value : String) : String :=
  String.ofList (value.toList.map fun c => if c = Char.ofNat 0x212A then 'k' else c.toLower)

/-- `languageCodeSchema` (domain/language.ts). -/
def languageCodeSchema : String → Option String :=
  canonical (fun raw => toLowerCase (trim raw)) isLanguageCode

/-- The digits of an ISBN with the weights 1 and 3 in turn. -/
def isbnSum (digits : List Char) : Nat :=
  (digits.zipIdx.map fun x => (x.1.toNat - '0'.toNat) * if x.2 % 2 = 0 then 1 else 3).sum

/-- `isValidIsbn13` (domain/isbn.ts:24). -/
def isValidIsbn13 (value : String) : Bool :=
  let digits := (normalizeIsbn13 value).toList
  digits.length = 13 && digits.all Char.isDigit &&
    (digits.take 3 = ['9', '7', '8'] || digits.take 3 = ['9', '7', '9']) && isbnSum digits % 10 = 0

def isbn13Schema : String → Option String :=
  canonical (fun raw => normalizeIsbn13 (trim raw)) isValidIsbn13

/-- A number between two bounds. -/
def numberSchema (min max : Int) : Int → Option Int := canonical id fun n => min ≤ n ∧ n ≤ max

def yearSchema : Int → Option Int := numberSchema yearMin yearMax
def pageCountSchema : Int → Option Int := numberSchema 1 pageCountMax

def quantitySchema : Nat → Option Nat := canonical id fun n => quantityMin ≤ n ∧ n ≤ quantityMax

/-- `authorsSchema` -/
def authorsSchema : List String → Option (List String) :=
  refine (each authorNameSchema) fun names => 1 ≤ names.length ∧ names.length ≤ authorsMax

/-- `z.url().max(…)` -/
def coverUrlSchema (env : ImportEnv) : String → Option String :=
  canonical trim fun url => env.isUrl url ∧ utf16Length url ≤ coverUrlMax

def editionFormatSchema : String → Option EditionFormat
  | "HARDCOVER" => some .hardcover
  | "PAPERBACK" => some .paperback
  | "POCKET" => some .pocket
  | _ => none

def conditionSchema : String → Option Condition
  | "NEW" => some .new
  | "GOOD" => some .good
  | "WORN" => some .worn
  | "DAMAGED" => some .damaged
  | _ => none

def visibilitySchema : String → Option Visibility
  | "PUBLIC" => some .pub
  | "FRIENDS" => some .friends
  | "PRIVATE" => some .priv
  | _ => none

/-! ### Days -/

def isLeapYear (year : Nat) : Bool := (year % 4 = 0 && year % 100 ≠ 0) || year % 400 = 0

def daysInMonth (year month : Nat) : Nat :=
  if month = 2 then (if isLeapYear year then 29 else 28)
  else if month ∈ [4, 6, 9, 11] then 30 else 31

/-- The days from the epoch to a date of the Gregorian calendar. -/
def dayOfDate (year month day : Nat) : Day :=
  let y : Int := if month ≤ 2 then (year : Int) - 1 else year
  let m : Int := if month ≤ 2 then (month : Int) + 9 else (month : Int) - 3
  let era := y / 400
  let yoe := y - era * 400
  let doy := (153 * m + 2) / 5 + day - 1
  era * 146097 + (yoe * 365 + yoe / 4 - yoe / 100 + doy) - 719468

/-- The number that digits write. -/
def digitsValue (digits : List Char) : Nat :=
  digits.foldl (fun n c => n * 10 + (c.toNat - '0'.toNat)) 0

/-- `z.iso.date()`: `YYYY-MM-DD`, a day of the calendar. -/
def isoDateSchema (raw : String) : Option Day :=
  match raw.toList with
  | [y₁, y₂, y₃, y₄, '-', m₁, m₂, '-', d₁, d₂] =>
    let year := digitsValue [y₁, y₂, y₃, y₄]
    let month := digitsValue [m₁, m₂]
    let day := digitsValue [d₁, d₂]
    if [y₁, y₂, y₃, y₄, m₁, m₂, d₁, d₂].all Char.isDigit && 1 ≤ month && month ≤ 12 && 1 ≤ day &&
      day ≤ daysInMonth year month
    then some (dayOfDate year month day) else none
  | _ => none

/-! ## Columns, cells, values -/

/-- `LIBRARY_IMPORT_CSV_HEADER` -/
inductive LibraryImportColumn
  | isbn13 | title | authors | origLang | firstPubYear | editionLang | translator
  | translationSourceLang | translationYear | isAbridged | hasNotes | translationNotes | publisher
  | editionYear | pageCount | coverUrl | format | condition | visibility | note | acquiredAt
  | quantity
  deriving DecidableEq, Repr

def LIBRARY_IMPORT_CSV_HEADER : List LibraryImportColumn :=
  [.isbn13, .title, .authors, .origLang, .firstPubYear, .editionLang, .translator,
    .translationSourceLang, .translationYear, .isAbridged, .hasNotes, .translationNotes, .publisher,
    .editionYear, .pageCount, .coverUrl, .format, .condition, .visibility, .note, .acquiredAt,
    .quantity]

theorem mem_header (column : LibraryImportColumn) : column ∈ LIBRARY_IMPORT_CSV_HEADER := by
  cases column <;> decide

theorem header_nodup : LIBRARY_IMPORT_CSV_HEADER.Nodup := by decide

/-- The text of every column. -/
abbrev LibraryImportCells := LibraryImportColumn → String

structure LibraryImportRowValues where
  isbn13 : String
  title : Option String
  authors : Option (List String)
  origLang : Option String
  firstPubYear : Option Int
  editionLang : Option String
  translator : Option String
  translationSourceLang : Option String
  translationYear : Option Int
  isAbridged : Option Bool
  hasNotes : Option Bool
  translationNotes : Option String
  publisher : Option String
  editionYear : Option Int
  pageCount : Option Int
  coverUrl : Option String
  format : EditionFormat
  condition : Condition
  visibility : Visibility
  note : Option String
  acquiredAt : Option Day
  quantity : Nat
  deriving DecidableEq, Repr

/-! ## Cells -/

/-- An empty cell is `whenEmpty`; any other text goes through the schema. -/
def cell {α : Type} (schema : String → Option α) (whenEmpty : α) (raw : String) : Option α :=
  if raw = "" then some whenEmpty else schema raw

/-- A cell that may be empty. -/
def optionalCell {α : Type} (schema : String → Option α) (raw : String) : Option (Option α) :=
  cell (fun raw => (schema raw).map some) none raw

/-- `INTEGER_CELL_PATTERN`: `0`, or digits without a leading zero, perhaps after a minus. -/
def integerOf (raw : String) : Option Int :=
  let natural (digits : List Char) : Option Nat :=
    if digits.all Char.isDigit && digits.head? ≠ some '0' && digits ≠ []
    then some (digitsValue digits) else none
  match raw.toList with
  | ['0'] => some 0
  | '-' :: digits => (natural digits).map fun n => -n
  | digits => (natural digits).map fun n => n

/-- `integerCell` -/
def integerCell (schema : Int → Option Int) (raw : String) : Option Int :=
  (integerOf raw).bind schema

def booleanCellSchema : String → Option Bool
  | "true" => some true
  | "false" => some false
  | _ => none

/-- `authorsCellSchema`: the names between `|`. -/
def authorsCellSchema (raw : String) : Option (List String) :=
  authorsSchema ((raw.toList.splitOn '|').map String.ofList)

/-- `libraryImportQuantityCellSchema` -/
def libraryImportQuantityCellSchema : String → Option Nat :=
  cell (fun raw => (integerOf raw).bind fun n => if 0 ≤ n then quantitySchema n.toNat else none)
    quantityDefault

variable (env : ImportEnv)

/-- The schema of the column refuses the text. -/
def rejectsCell (column : LibraryImportColumn) (raw : String) : Bool :=
  match column with
  | .isbn13 => (isbn13Schema raw).isNone
  | .title => (optionalCell titleSchema raw).isNone
  | .authors => (optionalCell authorsCellSchema raw).isNone
  | .origLang | .editionLang | .translationSourceLang =>
    (optionalCell languageCodeSchema raw).isNone
  | .firstPubYear | .translationYear | .editionYear =>
    (optionalCell (integerCell yearSchema) raw).isNone
  | .translator => (optionalCell translatorSchema raw).isNone
  | .isAbridged | .hasNotes => (optionalCell booleanCellSchema raw).isNone
  | .translationNotes => (optionalCell translationNotesSchema raw).isNone
  | .publisher => (optionalCell publisherSchema raw).isNone
  | .pageCount => (optionalCell (integerCell pageCountSchema) raw).isNone
  | .coverUrl => (optionalCell (coverUrlSchema env) raw).isNone
  | .format => (cell editionFormatSchema .paperback raw).isNone
  | .condition => (cell conditionSchema .good raw).isNone
  | .visibility => (cell visibilitySchema .friends raw).isNone
  | .note => (optionalCell noteSchema raw).isNone
  | .acquiredAt => (optionalCell isoDateSchema raw).isNone
  | .quantity => (libraryImportQuantityCellSchema raw).isNone

/-- The values of a row whose every cell is accepted. -/
def readCells (cells : LibraryImportCells) : Option LibraryImportRowValues := do
  let isbn13 ← isbn13Schema (cells .isbn13)
  let title ← optionalCell titleSchema (cells .title)
  let authors ← optionalCell authorsCellSchema (cells .authors)
  let origLang ← optionalCell languageCodeSchema (cells .origLang)
  let firstPubYear ← optionalCell (integerCell yearSchema) (cells .firstPubYear)
  let editionLang ← optionalCell languageCodeSchema (cells .editionLang)
  let translator ← optionalCell translatorSchema (cells .translator)
  let translationSourceLang ← optionalCell languageCodeSchema (cells .translationSourceLang)
  let translationYear ← optionalCell (integerCell yearSchema) (cells .translationYear)
  let isAbridged ← optionalCell booleanCellSchema (cells .isAbridged)
  let hasNotes ← optionalCell booleanCellSchema (cells .hasNotes)
  let translationNotes ← optionalCell translationNotesSchema (cells .translationNotes)
  let publisher ← optionalCell publisherSchema (cells .publisher)
  let editionYear ← optionalCell (integerCell yearSchema) (cells .editionYear)
  let pageCount ← optionalCell (integerCell pageCountSchema) (cells .pageCount)
  let coverUrl ← optionalCell (coverUrlSchema env) (cells .coverUrl)
  let format ← cell editionFormatSchema .paperback (cells .format)
  let condition ← cell conditionSchema .good (cells .condition)
  let visibility ← cell visibilitySchema .friends (cells .visibility)
  let note ← optionalCell noteSchema (cells .note)
  let acquiredAt ← optionalCell isoDateSchema (cells .acquiredAt)
  let quantity ← libraryImportQuantityCellSchema (cells .quantity)
  return {
    isbn13, title, authors, origLang, firstPubYear, editionLang, translator, translationSourceLang,
    translationYear, isAbridged, hasNotes, translationNotes, publisher, editionYear, pageCount,
    coverUrl, format, condition, visibility, note, acquiredAt, quantity }

/-- `libraryImportCsvRowSchema`: the values, or the columns of its issues. -/
def libraryImportCsvRowSchema (cells : LibraryImportCells) :
    Except (List LibraryImportColumn) LibraryImportRowValues :=
  match readCells env cells with
  | some values => .ok values
  | none => .error (LIBRARY_IMPORT_CSV_HEADER.filter fun column =>
      rejectsCell env column (cells column))

/-- `libraryImportRowValuesSchema` -/
def libraryImportRowValuesSchema (v : LibraryImportRowValues) : Option LibraryImportRowValues := do
  let isbn13 ← isbn13Schema v.isbn13
  let title ← optional titleSchema v.title
  let authors ← optional authorsSchema v.authors
  let origLang ← optional languageCodeSchema v.origLang
  let firstPubYear ← optional yearSchema v.firstPubYear
  let editionLang ← optional languageCodeSchema v.editionLang
  let translator ← optional translatorSchema v.translator
  let translationSourceLang ← optional languageCodeSchema v.translationSourceLang
  let translationYear ← optional yearSchema v.translationYear
  let translationNotes ← optional translationNotesSchema v.translationNotes
  let publisher ← optional publisherSchema v.publisher
  let editionYear ← optional yearSchema v.editionYear
  let pageCount ← optional pageCountSchema v.pageCount
  let coverUrl ← optional (coverUrlSchema env) v.coverUrl
  let note ← optional noteSchema v.note
  let quantity ← quantitySchema v.quantity
  return { v with
    isbn13, title, authors, origLang, firstPubYear, editionLang, translator, translationSourceLang,
    translationYear, translationNotes, publisher, editionYear, pageCount, coverUrl, note, quantity }

/-! ## Reading cells -/

theorem isNone_bind {α β : Type} {o : Option α} {f : α → Option β} {b : Bool}
    (h : ∀ a, (f a).isNone = b) : (o >>= f).isNone = (o.isNone || b) := by
  cases o with
  | none => rfl
  | some a => exact h a

/-- A row has values exactly if no column refuses its text. -/
theorem isNone_readCells (cells : LibraryImportCells) : (readCells env cells).isNone =
    LIBRARY_IMPORT_CSV_HEADER.any fun column => rejectsCell env column (cells column) := by
  simp only [LIBRARY_IMPORT_CSV_HEADER, List.any_cons, List.any_nil, rejectsCell]
  repeat' refine isNone_bind fun _ => ?_
  rfl

theorem libraryImportCsvRowSchema_eq_ok {cells : LibraryImportCells}
    {values : LibraryImportRowValues} :
    libraryImportCsvRowSchema env cells = .ok values ↔ readCells env cells = some values := by
  unfold libraryImportCsvRowSchema
  cases readCells env cells <;> simp

/-- The issues of a row name exactly the columns that refuse their texts, and there are some. -/
theorem libraryImportCsvRowSchema_eq_error {cells : LibraryImportCells}
    {failed : List LibraryImportColumn} (h : libraryImportCsvRowSchema env cells = .error failed) :
    (∀ column, column ∈ failed ↔ rejectsCell env column (cells column) = true) ∧ failed ≠ [] := by
  unfold libraryImportCsvRowSchema at h
  have hnone := isNone_readCells env cells
  cases hread : readCells env cells with
  | some values => simp [hread] at h
  | none =>
    simp only [hread, Except.error.injEq] at h
    subst h
    refine ⟨fun column => ?_, fun hnil => ?_⟩
    · simp [mem_header]
    · rw [hread, Option.isNone_none, eq_comm, List.any_eq_true] at hnone
      obtain ⟨column, hmem, hreject⟩ := hnone
      exact List.filter_eq_nil_iff.mp hnil column hmem hreject

/-! ## Values that are read back -/

theorem toList_trim (value : String) : (trim value).toList = trimmed isSpace value.toList := by
  simp only [trim, trimmed, String.toList_ofList, List.rdropWhile]

theorem trim_trim (value : String) : trim (trim value) = trim value := by
  apply String.toList_inj.mp
  rw [toList_trim, toList_trim, trimmed_trimmed]

theorem normalizeIsbn13_trim (value : String) :
    normalizeIsbn13 (trim (normalizeIsbn13 value)) = normalizeIsbn13 value := by
  have hclean : ∀ c ∈ (normalizeIsbn13 value).toList, isSpace c = false ∧ c ≠ '-' := by
    intro c hc
    rw [normalizeIsbn13, String.toList_ofList, List.mem_filter] at hc
    simpa using hc.2
  apply String.toList_inj.mp
  rw [normalizeIsbn13, toList_trim, trimmed_of_forall fun c hc => (hclean c hc).1,
    String.toList_ofList, List.filter_eq_self]
  intro c hc
  simpa using hclean c hc

theorem toLowerCase_languageCode : ∀ c ∈ LANGUAGE_CODES, toLowerCase (trim c) = c := by
  decide +kernel

theorem normalizes_textSchema (min max : Nat) : Normalizes (textSchema min max) :=
  .canonical trim_trim

theorem normalizes_languageCodeSchema : Normalizes languageCodeSchema := by
  intro raw code h
  obtain ⟨-, hcode⟩ := canonical_eq_some.mp h
  exact canonical_eq_some.mpr
    ⟨(toLowerCase_languageCode code (of_decide_eq_true hcode)).symm, hcode⟩

theorem normalizes_isbn13Schema : Normalizes isbn13Schema :=
  .canonical fun raw => normalizeIsbn13_trim (trim raw)

theorem normalizes_numberSchema (min max : Int) : Normalizes (numberSchema min max) :=
  .canonical fun _ => rfl

theorem normalizes_quantitySchema : Normalizes quantitySchema := .canonical fun _ => rfl

theorem normalizes_authorsSchema : Normalizes authorsSchema :=
  (normalizes_textSchema _ _).each.refine

theorem normalizes_coverUrlSchema : Normalizes (coverUrlSchema env) := .canonical trim_trim

/-- Stored values pass their schema as they are. -/
theorem normalizes_rowValuesSchema : Normalizes (libraryImportRowValuesSchema env) := by
  intro v w h
  unfold libraryImportRowValuesSchema at h ⊢
  simp only [↓do_eq_some, Option.pure_def, Option.some.injEq] at h ⊢
  obtain ⟨isbn13, h₁, title, h₂, authors, h₃, origLang, h₄, firstPubYear, h₅, editionLang, h₆,
    translator, h₇, sourceLang, h₈, translationYear, h₉, notes, h₁₀, publisher, h₁₁, editionYear,
    h₁₂, pageCount, h₁₃, coverUrl, h₁₄, note, h₁₅, quantity, h₁₆, rfl⟩ := h
  have hlang := normalizes_languageCodeSchema.optional
  have hyear := (normalizes_numberSchema yearMin yearMax).optional
  have htext := fun min max => (normalizes_textSchema min max).optional
  exact ⟨_, normalizes_isbn13Schema _ _ h₁, _, htext _ _ _ _ h₂,
    _, normalizes_authorsSchema.optional _ _ h₃, _, hlang _ _ h₄, _, hyear _ _ h₅, _, hlang _ _ h₆,
    _, htext _ _ _ _ h₇, _, hlang _ _ h₈, _, hyear _ _ h₉, _, htext _ _ _ _ h₁₀,
    _, htext _ _ _ _ h₁₁, _, hyear _ _ h₁₂, _, (normalizes_numberSchema _ _).optional _ _ h₁₃,
    _, (normalizes_coverUrlSchema env).optional _ _ h₁₄, _, htext _ _ _ _ h₁₅,
    _, normalizes_quantitySchema _ _ h₁₆, rfl⟩

/-- What a cell is read into is accepted as a stored value. -/
theorem stored_of_cell {α : Type} {schema : String → Option α} {stored : α → Option α}
    (h : ∀ raw a, schema raw = some a → stored a = some a) {raw : String} {o : Option α}
    (hcell : optionalCell schema raw = some o) : optional stored o = some o := by
  unfold optionalCell cell at hcell
  split at hcell
  · cases hcell
    rfl
  · obtain ⟨a, ha, rfl⟩ := Option.map_eq_some_iff.mp hcell
    exact Option.map_eq_some_iff.mpr ⟨a, h raw a ha, rfl⟩

theorem stored_text {min max : Nat} {raw : String} {o : Option String}
    (h : optionalCell (textSchema min max) raw = some o) : optional (textSchema min max) o = some o :=
  stored_of_cell (normalizes_textSchema min max) h

theorem stored_languageCode {raw : String} {o : Option String}
    (h : optionalCell languageCodeSchema raw = some o) : optional languageCodeSchema o = some o :=
  stored_of_cell normalizes_languageCodeSchema h

theorem stored_number {min max : Int} {raw : String} {o : Option Int}
    (h : optionalCell (integerCell (numberSchema min max)) raw = some o) :
    optional (numberSchema min max) o = some o := by
  refine stored_of_cell (fun raw n hcell => ?_) h
  obtain ⟨m, -, hm⟩ := Option.bind_eq_some_iff.mp hcell
  exact normalizes_numberSchema min max m n hm

theorem stored_quantity {raw : String} {n : Nat}
    (h : libraryImportQuantityCellSchema raw = some n) : quantitySchema n = some n := by
  unfold libraryImportQuantityCellSchema cell at h
  split at h
  · cases h
    decide
  · obtain ⟨m, -, hm⟩ := Option.bind_eq_some_iff.mp h
    split at hm
    · exact normalizes_quantitySchema _ _ hm
    · cases hm

/-- **The values of a row pass the schema of stored values unchanged.** -/
theorem rowValues_of_cells {cells : LibraryImportCells} {v : LibraryImportRowValues}
    (h : readCells env cells = some v) : libraryImportRowValuesSchema env v = some v := by
  unfold readCells at h
  unfold libraryImportRowValuesSchema
  simp only [↓do_eq_some, Option.pure_def, Option.some.injEq] at h ⊢
  obtain ⟨isbn13, h₁, title, h₂, authors, h₃, origLang, h₄, firstPubYear, h₅, editionLang, h₆,
    translator, h₇, sourceLang, h₈, translationYear, h₉, isAbridged, -, hasNotes, -, notes, h₁₀,
    publisher, h₁₁, editionYear, h₁₂, pageCount, h₁₃, coverUrl, h₁₄, format, -, condition, -,
    visibility, -, note, h₁₅, acquiredAt, -, quantity, h₁₆, rfl⟩ := h
  exact ⟨_, normalizes_isbn13Schema _ _ h₁, _, stored_text h₂,
    _, stored_of_cell (fun _ => normalizes_authorsSchema _) h₃, _, stored_languageCode h₄,
    _, stored_number h₅, _, stored_languageCode h₆, _, stored_text h₇, _, stored_languageCode h₈,
    _, stored_number h₉, _, stored_text h₁₀, _, stored_text h₁₁, _, stored_number h₁₂,
    _, stored_number h₁₃, _, stored_of_cell (normalizes_coverUrlSchema env) h₁₄, _, stored_text h₁₅,
    _, stored_quantity h₁₆, rfl⟩

end Bookswap
