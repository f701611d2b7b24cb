import Bookswap.Import.ImportRows
import Bookswap.Import.XlsxContainer
import Bookswap.Lib.IsoDate
import Bookswap.Lib.Utf8
import Mathlib.Data.List.Sort

/-!
# library-import-csv.parser.ts, library-import-xlsx.reader.ts, library-import-xlsx.cells.ts

A file becomes the rows of an import, or a refusal. Both readers hand each row to
`libraryImportCsvCellsSchema`, which throws where a cell is missing or too long. The CSV
parser and the digest are `FileTools`; a workbook is what the spreadsheet library has built
from an archive that passed the gates.

What a reader throws is outside, what it answers is inside: `Except Thrown (Except Refusal File)`.
-/

namespace Bookswap

/-- What a reader throws. -/
inductive Thrown
  /-- `ZodError` -/
  | schema
  /-- `RangeError`: the ISO text of an invalid date. -/
  | range
  /-- An error of the CSV parser that is not a `CsvError`. -/
  | foreign
  deriving DecidableEq, Repr

/-! ## The header -/

def LibraryImportColumn.name : LibraryImportColumn → String
  | .isbn13 => "isbn13"
  | .title => "title"
  | .authors => "authors"
  | .origLang => "orig_lang"
  | .firstPubYear => "first_pub_year"
  | .editionLang => "edition_lang"
  | .translator => "translator"
  | .translationSourceLang => "translation_source_lang"
  | .translationYear => "translation_year"
  | .isAbridged => "is_abridged"
  | .hasNotes => "has_notes"
  | .translationNotes => "translation_notes"
  | .publisher => "publisher"
  | .editionYear => "edition_year"
  | .pageCount => "page_count"
  | .coverUrl => "cover_url"
  | .format => "format"
  | .condition => "condition"
  | .visibility => "visibility"
  | .note => "note"
  | .acquiredAt => "acquired_at"
  | .quantity => "quantity"

/-- `isLibraryImportHeader` -/
def isLibraryImportHeader (record : List String) : Bool :=
  record = LIBRARY_IMPORT_CSV_HEADER.map LibraryImportColumn.name

/-- The sets that `libraryImportHeaderMismatch` fills. -/
structure HeaderScan where
  seen : List LibraryImportColumn
  duplicateColumns : List LibraryImportColumn
  unknownColumnPositions : List Nat

def HeaderScan.note (scan : HeaderScan) (name : String × Nat) : HeaderScan :=
  match LIBRARY_IMPORT_CSV_HEADER.find? fun column => column.name = name.1 with
  | none => { scan with unknownColumnPositions := scan.unknownColumnPositions ++ [name.2 + 1] }
  | some column =>
    if column ∈ scan.seen then
      { scan with duplicateColumns :=
          if column ∈ scan.duplicateColumns then scan.duplicateColumns
          else scan.duplicateColumns ++ [column] }
    else { scan with seen := column :: scan.seen }

/-- `libraryImportHeaderMismatch` (library-import-rows.ts:69). -/
def libraryImportHeaderMismatch (actual : List String) : LibraryImportHeaderMismatch :=
  let scan := actual.zipIdx.foldl HeaderScan.note ⟨[], [], []⟩
  { missingColumns := LIBRARY_IMPORT_CSV_HEADER.filter (· ∉ scan.seen)
    duplicateColumns := scan.duplicateColumns
    unknownColumnPositions := scan.unknownColumnPositions
    orderMismatch := actual.zipIdx.any fun name =>
      LIBRARY_IMPORT_CSV_HEADER[name.2]?.map LibraryImportColumn.name ≠ some name.1 }

/-- `libraryImportCsvCellsSchema.parse`: every column has a text of bounded length. -/
def libraryImportCsvCellsSchema (values : LibraryImportColumn → Option String) :
    Except Thrown LibraryImportCells :=
  if LIBRARY_IMPORT_CSV_HEADER.all fun column => (values column).any (utf16Length · ≤ maxBytes)
  then .ok fun column => (values column).getD ""
  else .error .schema

/-! ## CSV -/

inductive LibraryImportInvalidCsvDetails
  | ambiguousDelimiter | invalidEncoding
  | columnCount (line : Int)
  | malformedCsv (line : Int)
  | headerMismatch (mismatch : LibraryImportHeaderMismatch)
  | empty (delimiter : Char) (header : List LibraryImportColumn)
  deriving DecidableEq, Repr

inductive LibraryImportCsvError
  | tooLarge (details : LibraryImportTooLargeDetails)
  | invalid (details : LibraryImportInvalidCsvDetails)
  deriving DecidableEq, Repr

structure LibraryImportCsvFile where
  delimiter : Char
  sourceHash : String
  rows : List LibraryImportParsedRow
  copyCount : Nat

/-- What `csv-parse` throws. -/
inductive CsvFailure
  | csvError (code : String) (lines : Option Int)
  | foreign
  deriving DecidableEq, Repr

structure FileTools where
  /-- `parse` of `csv-parse/sync`, with the options of the source. -/
  parse : String → Char → Except CsvFailure (List (List String))
  /-- The hexadecimal SHA-256. -/
  sha256 : Bytes → String

def UTF8_BOM : Bytes := [0xef, 0xbb, 0xbf]

def stripOneBom (input : Bytes) : Bytes :=
  if UTF8_BOM.isPrefixOf input then input.drop UTF8_BOM.length else input

/-- `new TextDecoder('utf-8', { fatal: true, ignoreBOM: true })` -/
def decodeUtf8 (bytes : Bytes) : Option String :=
  (Utf8.decodeFatal (bytes.map UInt8.toNat)).map fun text => String.ofList (text.map Char.ofNat)

def csvHeaderMismatch (actual : List String) : LibraryImportCsvError :=
  .invalid (.headerMismatch (libraryImportHeaderMismatch actual))

def detectDelimiter (text : String) : Except LibraryImportCsvError Char :=
  let firstLine := text.toList.takeWhile fun c => c ≠ '\r' ∧ c ≠ '\n'
  if ',' ∈ firstLine ∧ ';' ∈ firstLine then .error (.invalid .ambiguousDelimiter)
  else if ',' ∈ firstLine then .ok ','
  else if ';' ∈ firstLine then .ok ';'
  else .error (csvHeaderMismatch [String.ofList firstLine])

def COLUMN_COUNT_ERROR_CODES : List String :=
  ["CSV_RECORD_INCONSISTENT_FIELDS_LENGTH", "CSV_RECORD_INCONSISTENT_COLUMNS"]

/-- `readRecords` (library-import-csv.parser.ts:104). -/
def readRecords (tools : FileTools) (text : String) (delimiter : Char) :
    Except Thrown (Except LibraryImportCsvError (List (List String))) :=
  match tools.parse text delimiter with
  | .ok records => .ok (.ok records)
  | .error .foreign => .error .foreign
  | .error (.csvError code lines) =>
    let line := if 0 < lines.getD 0 then lines.getD 0 else 1
    .ok (.error (.invalid
      (if code ∈ COLUMN_COUNT_ERROR_CODES then .columnCount line else .malformedCsv line)))

/-- `toCells` -/
def toCells (record : List String) : Except Thrown LibraryImportCells :=
  libraryImportCsvCellsSchema fun column => record[LIBRARY_IMPORT_CSV_HEADER.idxOf column]?

variable (env : ImportEnv)

/-- `parseLibraryImportCsv` (library-import-csv.parser.ts:148). -/
def parseLibraryImportCsv (tools : FileTools) (input : Bytes) :
    Except Thrown (Except LibraryImportCsvError LibraryImportCsvFile) :=
  if maxBytes < input.length then .ok (.error (.tooLarge ⟨.bytes, maxBytes, input.length⟩))
  else
    let content := stripOneBom input
    match decodeUtf8 content with
    | none => .ok (.error (.invalid .invalidEncoding))
    | some text =>
      match detectDelimiter text with
      | .error failure => .ok (.error failure)
      | .ok delimiter =>
        match readRecords tools text delimiter with
        | .error thrown => .error thrown
        | .ok (.error failure) => .ok (.error failure)
        | .ok (.ok records) =>
          let header := records.headD []
          let data := records.tail
          if isLibraryImportHeader header = false then .ok (.error (csvHeaderMismatch header))
          else if data.isEmpty then
            .ok (.error (.invalid (.empty delimiter LIBRARY_IMPORT_CSV_HEADER)))
          else if maxDataRows < data.length then
            .ok (.error (.tooLarge ⟨.rows, maxDataRows, data.length⟩))
          else
            match data.mapM toCells with
            | .error thrown => .error thrown
            | .ok cells =>
              let rows := buildLibraryImportRows env cells fun _ _ => none
              let copyCount := countLibraryImportCopies rows
              if maxCopies < copyCount then
                .ok (.error (.tooLarge ⟨.copies, maxCopies, copyCount⟩))
              else .ok (.ok ⟨delimiter, tools.sha256 content, rows, copyCount⟩)

/-! ## Cells of a sheet -/

/-- `ValueType` of ExcelJS. -/
inductive ValueType
  | null | merge | number | string | date | hyperlink | formula | sharedString | richText | boolean
  | error
  deriving DecidableEq, Repr

/-- A number, as far as the code looks at it; its decimal text is short. -/
structure CellNumber where
  isFinite : Bool
  /-- `Math.abs(value) >= 1e21` -/
  isLarge : Bool
  /-- `Number.isSafeInteger(value) && value >= 0` -/
  isSafe : Bool
  text : String
  short : utf16Length text ≤ 32

inductive CellValue
  | none
  | string (value : String)
  | boolean (value : Bool)
  | number (value : CellNumber)
  /-- The milliseconds of a `Date`, if it is valid. -/
  | date (time : Option Int)
  | richText (runs : List String)
  /-- An object with a `text`, such as a hyperlink. -/
  | text (text : String)
  | other

structure XlsxCell where
  type : ValueType
  value : CellValue

/-- `'header'` reads a cell of the header row. -/
abbrev XlsxCellColumn := Option LibraryImportColumn

inductive XlsxCellRead
  | text (text : String)
  | rejected (reason : LibraryImportCellRejection)
  | formulaCell
  | cellError

/-- `toISOString().slice(0, 10)` -/
def dateText (time : Int) : String :=
  String.ofList (((IsoDate.toISOString time).take 10).map Char.ofNat)

/-- `Date.UTC(1900, 2, 1)` -/
def EARLIEST_DATE : Int := IsoDate.dayOf 1900 3 1 * 86400000

/-- `readText` -/
def readText : CellValue → Except Thrown String
  | .none => .ok ""
  | .string value => .ok value
  | .boolean value => .ok (if value then "true" else "false")
  | .number value => .ok value.text
  | .date none => .error .range
  | .date (some time) => .ok (dateText time)
  | .richText runs => .ok (String.join runs)
  | .text text => .ok text
  | .other => .ok ""

/-- `readDate` -/
def readDate (value : CellValue) (column : XlsxCellColumn) : XlsxCellRead :=
  match value with
  | .date time =>
    if column ≠ some .acquiredAt then .rejected .unexpectedDate
    else
      match time with
      | none => .rejected .dateOutOfRange
      | some time =>
        if time < EARLIEST_DATE then .rejected .dateOutOfRange else .text (dateText time)
  | _ => .rejected .unexpectedDate

/-- `readNumber` -/
def readNumber (value : CellValue) (column : XlsxCellColumn) : XlsxCellRead :=
  match value with
  | .number value =>
    if value.isFinite = false ∨ value.isLarge = true then .rejected .unrepresentableNumber
    else if column = some .isbn13 then
      if value.isSafe then .text value.text else .rejected .unrepresentableNumber
    else .text value.text
  | _ => .rejected .unrepresentableNumber

/-- `readXlsxCell` (library-import-xlsx.cells.ts:47). -/
def readXlsxCell (cell : XlsxCell) (column : XlsxCellColumn) : Except Thrown XlsxCellRead :=
  match cell.type with
  | .formula => .ok .formulaCell
  | .error => .ok .cellError
  | .number => .ok (readNumber cell.value column)
  | .date => .ok (readDate cell.value column)
  | _ => (readText cell.value).map .text

/-! ## Sheets -/

/-- A row that the library has built: its number and its cells by column. -/
structure XlsxRow where
  number : Nat
  cells : List (Nat × XlsxCell)

namespace XlsxRow

/-- `row.getCell(column)` -/
def getCell (row : XlsxRow) (column : Nat) : XlsxCell :=
  (row.cells.lookup column).getD ⟨.null, .none⟩

/-- `row.eachCell({ includeEmpty: false })` -/
def populated (row : XlsxRow) : List Nat :=
  (row.cells.filter fun cell => cell.2.type ≠ .null).map Prod.fst

end XlsxRow

abbrev Worksheet := List XlsxRow
abbrev Workbook := List Worksheet

structure SheetScan where
  rows : List XlsxRow
  cells : Nat
  extraColumns : List Nat

/-- `scanSheet` -/
def scanSheet (sheet : Worksheet) : SheetScan :=
  let columns := sheet.flatMap XlsxRow.populated
  { rows := sheet.filter fun row => row.populated ≠ []
    cells := columns.length
    extraColumns := ((columns.filter (LIBRARY_IMPORT_CSV_HEADER.length < ·)).dedup).insertionSort
      (· ≤ ·) }

/-- The columns with their positions, from 1. -/
def headerEntries : List (LibraryImportColumn × Nat) := LIBRARY_IMPORT_CSV_HEADER.zipIdx 1

/-- The loop of `readRow` over the columns. -/
def readColumns (row : XlsxRow) (sheet : Nat) :
    List (LibraryImportColumn × Nat) → (LibraryImportColumn → Option String) →
      LibraryImportRejectedCells →
        Except Thrown (Except LibraryImportXlsxError
          ((LibraryImportColumn → Option String) × LibraryImportRejectedCells))
  | [], values, rejected => .ok (.ok (values, rejected))
  | (column, position) :: rest, values, rejected =>
    match readXlsxCell (row.getCell position) (some column) with
    | .error thrown => .error thrown
    | .ok .formulaCell => .ok (.error (.invalid (.formulaCell sheet row.number position)))
    | .ok .cellError => .ok (.error (.invalid (.cellError sheet row.number position)))
    | .ok (.rejected reason) =>
      readColumns row sheet rest (Function.update values column (some ""))
        (Function.update rejected column (some reason))
    | .ok (.text text) =>
      readColumns row sheet rest (Function.update values column (some text)) rejected

/-- `readRow` (library-import-xlsx.reader.ts:92). -/
def readRow (row : XlsxRow) (sheet : Nat) :
    Except Thrown (Except LibraryImportXlsxError (LibraryImportCells × LibraryImportRejectedCells)) :=
  match readColumns row sheet headerEntries (fun _ => none) (fun _ => none) with
  | .error thrown => .error thrown
  | .ok (.error failure) => .ok (.error failure)
  | .ok (.ok (values, rejected)) =>
    match libraryImportCsvCellsSchema values with
    | .error thrown => .error thrown
    | .ok cells => .ok (.ok (cells, rejected))

/-- The loop of `readHeader`. -/
def readNames (row : XlsxRow) (sheet : Nat) :
    List Nat → List String → Except Thrown (Except LibraryImportXlsxError (List String))
  | [], names => .ok (.ok names)
  | position :: rest, names =>
    match readXlsxCell (row.getCell position) none with
    | .error thrown => .error thrown
    | .ok .formulaCell => .ok (.error (.invalid (.formulaCell sheet row.number position)))
    | .ok .cellError => .ok (.error (.invalid (.cellError sheet row.number position)))
    | .ok (.rejected _) => readNames row sheet rest (names ++ [""])
    | .ok (.text text) => readNames row sheet rest (names ++ [text])

/-- `readHeader`: what refuses the file, if anything does. -/
def readHeader (row : XlsxRow) (sheet : Nat) : Except Thrown (Option LibraryImportXlsxError) :=
  match readNames row sheet (headerEntries.map Prod.snd) [] with
  | .error thrown => .error thrown
  | .ok (.error failure) => .ok (some failure)
  | .ok (.ok names) =>
    .ok (if isLibraryImportHeader names then none
      else some (.invalid (.headerMismatch sheet (libraryImportHeaderMismatch names))))

/-- The rows read so far, and what was rejected in them. -/
abbrev SheetRows := List LibraryImportCells × (Nat → LibraryImportRejectedCells)

/-- The loop of `readSheet` over the data rows. -/
def readRows (sheet : Nat) :
    List XlsxRow → SheetRows → Except Thrown (Except LibraryImportXlsxError SheetRows)
  | [], read => .ok (.ok read)
  | row :: rest, read =>
    match readRow row sheet with
    | .error thrown => .error thrown
    | .ok (.error failure) => .ok (.error failure)
    | .ok (.ok (cells, rejected)) =>
      let rejects := LIBRARY_IMPORT_CSV_HEADER.any fun column => (rejected column).isSome
      let blank := !rejects && LIBRARY_IMPORT_CSV_HEADER.all fun column => cells column == ""
      if blank then readRows sheet rest read
      else
        let records := read.1 ++ [cells]
        readRows sheet rest
          (records, if rejects then Function.update read.2 records.length rejected else read.2)

/-- `readSheet` (library-import-xlsx.reader.ts:136). -/
def readSheet (scan : SheetScan) (sheet : Nat) :
    Except Thrown (Except LibraryImportXlsxError SheetRows) :=
  match scan.rows with
  | [] => .ok (.error (.invalid .noSheet))
  | header :: rest =>
    match readHeader header sheet with
    | .error thrown => .error thrown
    | .ok (some failure) => .ok (.error failure)
    | .ok none => readRows sheet rest ([], fun _ _ => none)

/-- `LIBRARY_IMPORT_XLSX_LIMITS.maxCells` -/
def LIBRARY_IMPORT_XLSX_LIMITS.maxCells : Nat := 100000

/-- `selectSheet` (library-import-xlsx.reader.ts:186). -/
def selectSheet (workbook : Workbook) : Except LibraryImportXlsxError (Nat × SheetScan) :=
  let scans := (workbook.map scanSheet).zipIdx 1
  match scans.filter fun scan => 0 < scan.1.cells with
  | [] => .error (.invalid .noSheet)
  | [(scan, sheet)] =>
    if LIBRARY_IMPORT_XLSX_LIMITS.maxCells < scan.cells then
      .error (tooLargeXlsx .cells LIBRARY_IMPORT_XLSX_LIMITS.maxCells scan.cells)
    else if scan.extraColumns ≠ [] then
      .error (.invalid (.headerMismatch sheet
        ⟨[], [], scan.extraColumns.take LIBRARY_IMPORT_CSV_HEADER.length, false⟩))
    else .ok (sheet, scan)
  | withData => .error (.invalid (.multipleSheets (withData.map Prod.snd)))

structure LibraryImportXlsxFile where
  sourceHash : String
  rows : List LibraryImportParsedRow
  copyCount : Nat

/-- `LIBRARY_IMPORT_XLSX_HASH_PREFIX` -/
def LIBRARY_IMPORT_XLSX_HASH_PREFIX : Bytes := "bookswap:library-import:xlsx:v1\n".toUTF8.toList

/-- `finish` (library-import-xlsx.reader.ts:275). -/
def LibraryImportXlsx.finish (tools : FileTools) (read : SheetRows) (input : Bytes) (sheet : Nat) :
    Except LibraryImportXlsxError LibraryImportXlsxFile :=
  if read.1.isEmpty then .error (.invalid (.empty sheet))
  else if maxDataRows < read.1.length then
    .error (tooLargeXlsx .rows maxDataRows read.1.length)
  else
    let rows := buildLibraryImportRows env read.1 read.2
    let copyCount := countLibraryImportCopies rows
    if maxCopies < copyCount then .error (tooLargeXlsx .copies maxCopies copyCount)
    else .ok ⟨tools.sha256 (LIBRARY_IMPORT_XLSX_HASH_PREFIX ++ input), rows, copyCount⟩

/-- `readLibraryImportXlsx` (library-import-xlsx.reader.ts:240), from the workbook on. -/
def readWorkbook (tools : FileTools) (workbook : Workbook) (input : Bytes) :
    Except Thrown (Except LibraryImportXlsxError LibraryImportXlsxFile) :=
  match selectSheet workbook with
  | .error failure => .ok (.error failure)
  | .ok (sheet, scan) =>
    match readSheet scan sheet with
    | .error thrown => .error thrown
    | .ok (.error failure) => .ok (.error failure)
    | .ok (.ok read) => .ok (LibraryImportXlsx.finish env tools read input sheet)

end Bookswap
