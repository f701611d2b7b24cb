import Bookswap.Import.RowValues
import Bookswap.Lib.OrderedMap
import Mathlib.Data.List.Infix

/-!
# library-import-zip.ts, library-import-ooxml.ts, library-import-xml.ts

An uploaded archive becomes the parts of a workbook, or a refusal. The archive reader (yauzl), the
archive writer (fflate) and the XML reader (saxes behind a UTF-8 decoder) are `XlsxTools`; whatever
they throw is a message.
-/

namespace Bookswap

open Store

abbrev Bytes := List UInt8

/-! ## Refusals -/

inductive LibraryImportLimit
  | bytes | rows | copies | zipEntries | uncompressedBytes | compressionRatio | sheets | cells
  | sheetRows
  deriving DecidableEq, Repr

structure LibraryImportTooLargeDetails where
  limit : LibraryImportLimit
  max : Nat
  actual : Nat
  deriving DecidableEq, Repr

structure LibraryImportHeaderMismatch where
  missingColumns : List LibraryImportColumn
  duplicateColumns : List LibraryImportColumn
  unknownColumnPositions : List Nat
  orderMismatch : Bool
  deriving DecidableEq, Repr

inductive LibraryImportInvalidXlsxDetails
  | notAZip | unsupportedContainer | macroEnabled | externalLinks | forbiddenPart | duplicateEntry
  | unsafeEntryPath | malformedZip | malformedXlsx | noSheet
  | multipleSheets (sheets : List Nat)
  | headerMismatch (sheet : Nat) (mismatch : LibraryImportHeaderMismatch)
  | formulaCell (sheet row column : Nat)
  | cellError (sheet row column : Nat)
  | empty (sheet : Nat)
  deriving DecidableEq, Repr

/-- `LibraryImportXlsxError` -/
inductive LibraryImportXlsxError
  | tooLarge (details : LibraryImportTooLargeDetails)
  | invalid (details : LibraryImportInvalidXlsxDetails)
  deriving DecidableEq, Repr

def tooLargeXlsx (limit : LibraryImportLimit) (max actual : Nat) : LibraryImportXlsxError :=
  .tooLarge { limit, max, actual }

abbrev invalidXlsx := LibraryImportXlsxError.invalid

/-! ## What is not under our control -/

/-- An `Entry` of yauzl, as the central directory describes it. -/
structure ZipEntry where
  fileName : String
  generalPurposeBitFlag : Nat
  compressedSize : Nat
  uncompressedSize : Nat
  deriving DecidableEq, Repr

/-- The data events of a stream, and the error that ends it, if one does. -/
structure EntryStream where
  chunks : List Bytes
  error : Option String := none

/-- An open archive: the entries that it reports, and a stream for each of them. -/
structure ZipFile where
  entries : Except String (List ZipEntry)
  openReadStream : ZipEntry → Except String EntryStream

structure XmlElement where
  name : String
  attributes : List (String × String)
  deriving DecidableEq, Repr

/-- What a parser reports: an opened tag, or an error or a DOCTYPE. -/
inductive XmlEvent
  | opentag (element : XmlElement)
  | refused
  deriving DecidableEq, Repr

/-- The events of one `write`, and whether it throws after them. -/
structure XmlWrite where
  events : List XmlEvent
  throws : Bool := false

/-- The reading of a part: its chunks and the closing of the parser. -/
structure XmlReading where
  writes : List XmlWrite
  close : XmlWrite

structure XlsxTools where
  fromBuffer : Bytes → Except String ZipFile
  zipSync : List (String × Bytes) → Except String Bytes
  readXml : Bytes → XmlReading
  toLowerCase : String → String

/-! ## Limits and paths -/

namespace LIBRARY_IMPORT_XLSX_LIMITS

def maxBytes : Nat := 512 * 1024
def maxUncompressedBytes : Nat := 8 * 1024 * 1024
def maxEntryUncompressedBytes : Nat := 8 * 1024 * 1024
def maxEntries : Nat := 64
def maxCompressionRatio : Nat := 200

end LIBRARY_IMPORT_XLSX_LIMITS

def CFB_MAGIC : Bytes := [0xd0, 0xcf, 0x11, 0xe0, 0xa1, 0xb1, 0x1a, 0xe1]
def ZIP_MAGIC : Bytes := [0x50, 0x4b, 0x03, 0x04]

def startsWith (input magic : Bytes) : Bool := magic.isPrefixOf input

/-- `/^front/` -/
def hasFront (front name : String) : Bool := front.toList.isPrefixOf name.toList

/-- `/back$/` -/
def hasBack (back name : String) : Bool := back.toList.isSuffixOf name.toList

/-- `/^front\d+back$/` -/
def isNumbered (front back name : String) : Bool :=
  let length := name.toList.length - front.toList.length - back.toList.length
  let digits := (name.toList.drop front.toList.length).take length
  hasFront front name && hasBack back name && 0 < length && digits.all Char.isDigit

def KEPT_PARTS : List (String → Bool) :=
  [(· = "[Content_Types].xml"), (· = "_rels/.rels"), (· = "xl/workbook.xml"),
    (· = "xl/_rels/workbook.xml.rels"), (· = "xl/sharedStrings.xml"), (· = "xl/styles.xml"),
    isNumbered "xl/theme/theme" ".xml", isNumbered "xl/worksheets/sheet" ".xml",
    isNumbered "xl/worksheets/_rels/sheet" ".xml.rels"]

def DROPPED_PARTS : List (String → Bool) :=
  [hasFront "docProps/", (· = "xl/calcChain.xml"), hasFront "xl/printerSettings/",
    hasFront "customXml/"]

def MACRO_PART (name : String) : Bool := name = "xl/vbaProject.bin"

def EXTERNAL_LINK_PART : String → Bool := hasFront "xl/externalLinks/"

def isKeptPart (name : String) : Bool := KEPT_PARTS.any fun part => part name

def isDroppedPart (name : String) : Bool := DROPPED_PARTS.any fun part => part name

def UNSAFE_PATH_MESSAGES : List String :=
  ["invalid characters in fileName", "absolute path:", "invalid relative path:"]

/-! ## The declarations of the parts -/

inductive XmlScanOutcome
  | ok | stopped | rejected
  deriving DecidableEq, Repr

section Scan

variable {σ : Type} (visit : σ → XmlElement → Bool × σ)

/-- The handlers of the parser on the events of one chunk. -/
def XmlScanOutcome.handle (start : XmlScanOutcome × σ) (events : List XmlEvent) :
    XmlScanOutcome × σ :=
  events.foldl
    (fun state event =>
      match event with
      | .refused => (.rejected, state.2)
      | .opentag element =>
        if state.1 ≠ .ok then state
        else
          let visited := visit state.2 element
          (if visited.1 then .stopped else .ok, visited.2))
    start

/-- The loop of `scanXml` over the chunks. -/
def scanWrites : List XmlWrite → XmlWrite → σ → XmlScanOutcome × σ
  | [], close, s =>
    let (outcome, s) := XmlScanOutcome.handle visit (.ok, s) close.events
    (if close.throws then .rejected else outcome, s)
  | write :: writes, close, s =>
    let (outcome, s) := XmlScanOutcome.handle visit (.ok, s) write.events
    if write.throws then (.rejected, s)
    else if outcome ≠ .ok then (outcome, s)
    else scanWrites writes close s

def scanXml (reading : XmlReading) (s : σ) : XmlScanOutcome × σ :=
  scanWrites visit reading.writes reading.close s

end Scan

inductive Declaration
  | macroEnabled | externalLinks
  deriving DecidableEq, Repr

def MACRO_MARKERS : List String := ["macroenabled", "vbaproject", "ms-excel.addin"]
def EXTERNAL_LINK_TYPE : String := "/externallink"

/-- `value.includes(part)` -/
def includes (value part : String) : Bool := part.toList <:+: value.toList

variable (tools : XlsxTools)

/-- `attribute`: the first one of that name, in any case. -/
def attributeOf (element : XmlElement) (name : String) : Option String :=
  (element.attributes.find? fun entry =>
    tools.toLowerCase entry.1 = tools.toLowerCase name).map fun entry => trim entry.2

def declarationOf (element : XmlElement) : Option Declaration :=
  let contentType := (attributeOf tools element "ContentType").map tools.toLowerCase
  let type := (attributeOf tools element "Type").map tools.toLowerCase
  let isMacro (value : Option String) : Bool :=
    value.any fun value => MACRO_MARKERS.any fun marker => includes value marker
  if isMacro contentType ∨ isMacro type then some .macroEnabled
  else if type.any (includes · EXTERNAL_LINK_TYPE) then some .externalLinks
  else if (attributeOf tools element "TargetMode").map tools.toLowerCase = some "external" then
    some .externalLinks
  else none

def Declaration.reason : Declaration → LibraryImportInvalidXlsxDetails
  | .macroEnabled => .macroEnabled
  | .externalLinks => .externalLinks

/-- The refusal of one part, if its declarations are looked at. -/
def declarationFailure (name : String) (bytes : Bytes) : Option LibraryImportXlsxError :=
  if ¬ hasBack ".rels" name ∧ name ≠ "[Content_Types].xml" then none
  else
    let visit (_ : Option Declaration) (element : XmlElement) : Bool × Option Declaration :=
      ((declarationOf tools element).isSome, declarationOf tools element)
    match scanXml visit (tools.readXml bytes) none with
    | (.rejected, _) => some (invalidXlsx .malformedXlsx)
    | (_, found) => found.map fun declaration => invalidXlsx declaration.reason

def checkOoxmlDeclarations (parts : OrderedMap String Bytes) : Option LibraryImportXlsxError :=
  parts.rows.findSome? fun part => declarationFailure tools part.1 part.2

/-! ## The container -/

/-- What `readEntry` throws. -/
inductive ZipReadError
  | budgetExceeded (spent : Nat)
  | other (message : String)
  deriving DecidableEq, Repr

structure ByteBudget where
  limit : Nat
  spent : Nat := 0
  deriving DecidableEq, Repr

def ByteBudget.take (budget : ByteBudget) (count : Nat) : Bool × ByteBudget :=
  let spent := budget.spent + count
  (spent ≤ budget.limit, { budget with spent })

/-- The data events of one member. -/
def readChunks : List Bytes → Bytes → ByteBudget → Except ZipReadError (Bytes × ByteBudget)
  | [], read, budget => .ok (read, budget)
  | chunk :: chunks, read, budget =>
    match budget.take chunk.length with
    | (false, budget) => .error (.budgetExceeded budget.spent)
    | (true, budget) => readChunks chunks (read ++ chunk) budget

def readEntry (zipfile : ZipFile) (entry : ZipEntry) (budget : ByteBudget) :
    Except ZipReadError (Bytes × ByteBudget) :=
  match zipfile.openReadStream entry with
  | .error message => .error (.other message)
  | .ok stream =>
    match readChunks stream.chunks [] budget with
    | .error error => .error error
    | .ok result =>
      match stream.error with
      | some message => .error (.other message)
      | none => .ok result

structure ZipEntryVerdict where
  keep : Bool
  error : Option LibraryImportXlsxError := none
  deriving DecidableEq, Repr

def isDirectory (name : String) : Bool := hasBack "/" name

/-- `classify`: the fate of a member, decided from its path alone. -/
def classifyName (name : String) : ZipEntryVerdict :=
  if isDirectory name then { keep := false }
  else if MACRO_PART name then { keep := false, error := some (invalidXlsx .macroEnabled) }
  else if EXTERNAL_LINK_PART name then
    { keep := false, error := some (invalidXlsx .externalLinks) }
  else if isKeptPart name then { keep := true }
  else if isDroppedPart name then { keep := false }
  else { keep := false, error := some (invalidXlsx .forbiddenPart) }

def ENCRYPTED_BIT : Nat := 0x1

def ZipEntry.encrypted (entry : ZipEntry) : Bool :=
  entry.generalPurposeBitFlag &&& ENCRYPTED_BIT ≠ 0

open LIBRARY_IMPORT_XLSX_LIMITS in
def checkEntrySize (entry : ZipEntry) : Option LibraryImportXlsxError :=
  if entry.encrypted then some (invalidXlsx .unsupportedContainer)
  else if entry.uncompressedSize > maxEntryUncompressedBytes then
    some (tooLargeXlsx .uncompressedBytes maxEntryUncompressedBytes entry.uncompressedSize)
  else
    let compressed := max entry.compressedSize 1
    let ratio := (entry.uncompressedSize + compressed - 1) / compressed
    if ratio > maxCompressionRatio then
      some (tooLargeXlsx .compressionRatio maxCompressionRatio ratio)
    else none

open LIBRARY_IMPORT_XLSX_LIMITS in
/-- The loop of `checkMetadata`, and the total that it leaves to be checked. -/
def checkEntries : List ZipEntry → List String → Nat → Option LibraryImportXlsxError
  | [], _, declared =>
    if declared > maxUncompressedBytes then
      some (tooLargeXlsx .uncompressedBytes maxUncompressedBytes declared)
    else none
  | entry :: entries, seen, declared =>
    if entry.fileName ∈ seen then some (invalidXlsx .duplicateEntry)
    else
      match checkEntrySize entry with
      | some failure => some failure
      | none => checkEntries entries (entry.fileName :: seen) (declared + entry.uncompressedSize)

open LIBRARY_IMPORT_XLSX_LIMITS in
def checkMetadata (entries : List ZipEntry) : Option LibraryImportXlsxError :=
  if entries.length > maxEntries then
    some (tooLargeXlsx .zipEntries maxEntries entries.length)
  else checkEntries entries [] 0

open LIBRARY_IMPORT_XLSX_LIMITS in
def classifyReadError : ZipReadError → LibraryImportXlsxError
  | .budgetExceeded spent => tooLargeXlsx .uncompressedBytes maxUncompressedBytes spent
  | .other message =>
    if UNSAFE_PATH_MESSAGES.any fun front => hasFront front message then
      invalidXlsx .unsafeEntryPath
    else if includes message "encrypted" then invalidXlsx .unsupportedContainer
    else invalidXlsx .malformedZip

/-- The successful `LibraryImportZipResult`. -/
structure ZipContent where
  canonical : Bytes
  parts : OrderedMap String Bytes

/-- The loop of `extract`: what it throws, what it returns, or the parts. -/
def extractParts (zipfile : ZipFile) : List ZipEntry → ByteBudget → OrderedMap String Bytes →
    Except ZipReadError (Except LibraryImportXlsxError (OrderedMap String Bytes))
  | [], _, parts => .ok (.ok parts)
  | entry :: entries, budget, parts =>
    match (classifyName entry.fileName).error with
    | some failure => .ok (.error failure)
    | none =>
      if (classifyName entry.fileName).keep then
        match readEntry zipfile entry budget with
        | .error error => .error error
        | .ok (bytes, budget) =>
          extractParts zipfile entries budget (parts.set entry.fileName bytes)
      else extractParts zipfile entries budget parts

def extract (zipfile : ZipFile) (entries : List ZipEntry) :
    Except ZipReadError (Except LibraryImportXlsxError ZipContent) :=
  match extractParts zipfile entries ⟨LIBRARY_IMPORT_XLSX_LIMITS.maxUncompressedBytes, 0⟩
      Table.empty with
  | .error error => .error error
  | .ok (.error failure) => .ok (.error failure)
  | .ok (.ok parts) =>
    match checkOoxmlDeclarations tools parts with
    | some declared => .ok (.error declared)
    | none =>
      if (parts.get "xl/workbook.xml").isNone then .ok (.error (invalidXlsx .malformedXlsx))
      else
        match tools.zipSync parts.rows with
        | .error message => .error (.other message)
        | .ok canonical => .ok (.ok { canonical, parts })

/-- The body of the `try` of `readXlsxContainer`. -/
def openContainer (input : Bytes) : Except ZipReadError (Except LibraryImportXlsxError ZipContent) :=
  match tools.fromBuffer input with
  | .error message => .error (.other message)
  | .ok zipfile =>
    match zipfile.entries with
    | .error message => .error (.other message)
    | .ok entries =>
      match checkMetadata entries with
      | some failure => .ok (.error failure)
      | none => extract tools zipfile entries

def readXlsxContainer (input : Bytes) : Except LibraryImportXlsxError ZipContent :=
  if startsWith input CFB_MAGIC then .error (invalidXlsx .unsupportedContainer)
  else if ¬ startsWith input ZIP_MAGIC then .error (invalidXlsx .notAZip)
  else
    match openContainer tools input with
    | .error error => .error (classifyReadError error)
    | .ok result => result

end Bookswap
