import Bookswap.Catalog.CatalogSchema

/-!
# The quick-add request and its content hash

`contracts/quick-add.ts` and `quick-add.hash.ts`. A request is one action of the user; its content
is everything but the `operationId`, and two requests with one `operationId` are one action only
if their contents agree.

- `QuickAddTarget`, `QuickAddRequest`: the body, as the schema parses it. In a field that may be
  absent or `null` the outer `none` is the absent field.
- `Json`, `canonical`, `requestHashOf`: the content without the differences of form.
-/

namespace Bookswap

/-! ## Text -/

/-- `\s`, and what `trim` takes off. -/
def isSpace (c : Char) : Bool :=
  c.toNat ∈ [0x9, 0xA, 0xB, 0xC, 0xD, 0x20, 0xA0, 0x1680, 0x2028, 0x2029, 0x202F, 0x205F, 0x3000,
    0xFEFF] ∨ (0x2000 ≤ c.toNat ∧ c.toNat ≤ 0x200A)

/-- `value.trim()` -/
def trim (value : String) : String :=
  String.ofList ((value.toList.dropWhile isSpace).reverse.dropWhile isSpace).reverse

/-- `value.slice(0, max)` -/
def slice (value : String) (max : Nat) : String := String.ofList (value.toList.take max)

/-- `normalizeIsbn13` (domain/isbn.ts:13). -/
def normalizeIsbn13 (value : String) : String :=
  String.ofList (value.toList.filter fun c => !isSpace c && c ≠ '-')

/-! ## The body -/

inductive CopyEntryMethod
  | manual | barcode
  deriving DecidableEq, Repr

structure QuickAddCopy where
  condition : Option Condition
  note : Option (Option String)
  visibility : Option Visibility
  acquiredAt : Option (Option Day)

/-- An existing author, or a new one by name. -/
inductive WorkAuthorSource
  | authorId (id : AuthorId)
  | name (name : String)
  deriving DecidableEq

/-- `workAuthorInputSchema`: exactly one of `authorId` and `name`. -/
structure WorkAuthorInput where
  source : WorkAuthorSource
  nameLatin : Option (Option String)
  role : Option AuthorRole

structure NewWork where
  title : String
  firstPubYear : Option (Option Int)
  description : Option (Option String)
  origLang : Option (Option String)
  authors : Option (List WorkAuthorInput)

inductive QuickAddManualWork
  | existing (workId : WorkId)
  | new (work : NewWork)

/-- `createTranslationRequestSchema` -/
structure QuickAddTranslation where
  translator : String
  lang : String
  sourceLang : String
  year : Option (Option Int)
  isAbridged : Option Bool
  hasNotes : Option Bool
  notes : Option (Option String)

/-- `quickAddEditionDetailsSchema` -/
structure QuickAddEditionDetails where
  textKind : Option EditionTextKind
  lang : Option (Option String)
  publisher : Option (Option String)
  year : Option (Option Int)
  isbn13 : Option (Option String)
  pageCount : Option (Option Int)
  coverUrl : Option (Option String)
  format : Option (Option EditionFormat)

/-- `quickAddManualEditionSchema`: the details, with a `textKind`. -/
structure QuickAddManualEdition where
  textKind : EditionTextKind
  lang : Option (Option String)
  publisher : Option (Option String)
  year : Option (Option Int)
  isbn13 : Option (Option String)
  pageCount : Option (Option Int)
  coverUrl : Option (Option String)
  format : Option (Option EditionFormat)

structure QuickAddManualTarget where
  work : QuickAddManualWork
  edition : QuickAddManualEdition
  translation : Option QuickAddTranslation

/-- An ISBN, or a record of the source, or both. -/
structure QuickAddExternalEditionTarget where
  isbn13 : Option String
  reference : Option ExternalReferenceKey
  named : isbn13 ≠ none ∨ reference ≠ none
  edition : Option QuickAddEditionDetails
  translation : Option QuickAddTranslation

structure QuickAddExternalWorkTarget where
  key : ExternalReferenceKey
  edition : Option QuickAddEditionDetails
  translation : Option QuickAddTranslation

inductive QuickAddTarget
  | existingEdition (editionId : EditionId)
  | externalEdition (target : QuickAddExternalEditionTarget)
  | manual (target : QuickAddManualTarget)
  | externalWork (target : QuickAddExternalWorkTarget)

def QuickAddTarget.kind : QuickAddTarget → QuickAddTargetKind
  | .existingEdition _ => .existingEdition
  | .externalEdition _ => .externalEdition
  | .manual _ => .manual
  | .externalWork _ => .externalWork

structure QuickAddRequest where
  operationId : OperationId
  entryMethod : Option CopyEntryMethod
  copy : Option QuickAddCopy
  target : QuickAddTarget

/-! ## JSON -/

/-- A parsed JSON value; `day` is the text of a day. -/
inductive Json
  | null
  | bool (b : Bool)
  | num (n : Int)
  | str (s : String)
  | day (d : Day)
  | arr (items : List Json)
  | obj (fields : List (String × Json))

namespace Json

/-- `isAbsent`: `null` and the empty object; a field that is `undefined` is no field here. -/
def isAbsent : Json → Bool
  | null => true
  | obj [] => true
  | _ => false

mutual

/-- `canonical` -/
def canonical : Json → Json
  | arr items => arr (canonicalItems items)
  | obj fields => obj ((canonicalFields fields).mergeSort fun a b => a.1 ≤ b.1)
  | null => null
  | bool b => bool b
  | num n => num n
  | str s => str s
  | day d => day d

def canonicalItems : List Json → List Json
  | [] => []
  | v :: vs => canonical v :: canonicalItems vs

/-- The fields that are not absent. -/
def canonicalFields : List (String × Json) → List (String × Json)
  | [] => []
  | (key, v) :: fields =>
    if (canonical v).isAbsent then canonicalFields fields
    else (key, canonical v) :: canonicalFields fields

end

/-- A field that may be absent. -/
def field {α : Type} (key : String) (toJson : α → Json) (value : Option α) :
    List (String × Json) :=
  (value.map fun v => (key, toJson v)).toList

def orNull {α : Type} (toJson : α → Json) : Option α → Json
  | none => null
  | some v => toJson v

end Json

/-! ## The content of a request -/

open Json (field orNull)

def EditionTextKind.text : EditionTextKind → String
  | .original => "ORIGINAL"
  | .translation => "TRANSLATION"
  | .unknown => "UNKNOWN"

def EditionFormat.text : EditionFormat → String
  | .hardcover => "HARDCOVER"
  | .paperback => "PAPERBACK"
  | .pocket => "POCKET"

def AuthorRole.text : AuthorRole → String
  | .author => "AUTHOR"
  | .coAuthor => "CO_AUTHOR"
  | .editor => "EDITOR"
  | .illustrator => "ILLUSTRATOR"

def ExternalBookSource.text : ExternalBookSource → String
  | .openLibrary => "OPEN_LIBRARY"
  | .googleBooks => "GOOGLE_BOOKS"
  | .isbndb => "ISBNDB"

def Condition.text : Condition → String
  | .new => "NEW"
  | .good => "GOOD"
  | .worn => "WORN"
  | .damaged => "DAMAGED"

def Visibility.text : Visibility → String
  | .pub => "PUBLIC"
  | .friends => "FRIENDS"
  | .priv => "PRIVATE"

def CopyEntryMethod.text : CopyEntryMethod → String
  | .manual => "MANUAL"
  | .barcode => "BARCODE"

/-- An identifier is a text in the source. -/
def Json.ofId (id : Nat) : Json := .str (toString id)

def QuickAddCopy.toJson (c : QuickAddCopy) : Json := .obj <|
  field "condition" (.str ·.text) c.condition ++ field "note" (orNull .str) c.note ++
  field "visibility" (.str ·.text) c.visibility ++
  field "acquiredAt" (orNull .day) c.acquiredAt

def WorkAuthorInput.toJson (a : WorkAuthorInput) : Json := .obj <|
  (match a.source with
    | .authorId id => [("authorId", Json.ofId id)]
    | .name name => [("name", .str name)]) ++
  field "nameLatin" (orNull .str) a.nameLatin ++ field "role" (.str ·.text) a.role

def QuickAddManualWork.toJson : QuickAddManualWork → Json
  | .existing workId => .obj [("workId", .ofId workId)]
  | .new w => .obj <|
    [("title", .str w.title)] ++ field "firstPubYear" (orNull .num) w.firstPubYear ++
    field "description" (orNull .str) w.description ++ field "origLang" (orNull .str) w.origLang ++
    field "authors" (fun as => .arr (as.map WorkAuthorInput.toJson)) w.authors

def QuickAddTranslation.toJson (t : QuickAddTranslation) : Json := .obj <|
  [("translator", .str t.translator), ("lang", .str t.lang), ("sourceLang", .str t.sourceLang)] ++
  field "year" (orNull .num) t.year ++ field "isAbridged" .bool t.isAbridged ++
  field "hasNotes" .bool t.hasNotes ++ field "notes" (orNull .str) t.notes

def QuickAddEditionDetails.toJson (e : QuickAddEditionDetails) : Json := .obj <|
  field "textKind" (.str ·.text) e.textKind ++ field "lang" (orNull .str) e.lang ++
  field "publisher" (orNull .str) e.publisher ++ field "year" (orNull .num) e.year ++
  field "isbn13" (orNull .str) e.isbn13 ++ field "pageCount" (orNull .num) e.pageCount ++
  field "coverUrl" (orNull .str) e.coverUrl ++ field "format" (orNull (.str ·.text)) e.format

/-- The details of a whole edition. -/
def QuickAddManualEdition.details (e : QuickAddManualEdition) : QuickAddEditionDetails where
  textKind := some e.textKind
  lang := e.lang
  publisher := e.publisher
  year := e.year
  isbn13 := e.isbn13
  pageCount := e.pageCount
  coverUrl := e.coverUrl
  format := e.format

def ExternalReferenceKey.fields (key : ExternalReferenceKey) : List (String × Json) :=
  [("source", .str key.source.text), ("externalId", .str key.externalId)]

def QuickAddTarget.toJson : QuickAddTarget → Json
  | .existingEdition editionId =>
    .obj [("kind", .str "EXISTING_EDITION"), ("editionId", .ofId editionId)]
  | .externalEdition t => .obj <|
    [("kind", .str "EXTERNAL_EDITION")] ++ field "isbn13" .str t.isbn13 ++
    (t.reference.map ExternalReferenceKey.fields).getD [] ++
    field "edition" QuickAddEditionDetails.toJson t.edition ++
    field "translation" QuickAddTranslation.toJson t.translation
  | .manual t => .obj <|
    [("kind", .str "MANUAL"), ("work", t.work.toJson), ("edition", t.edition.details.toJson)] ++
    field "translation" QuickAddTranslation.toJson t.translation
  | .externalWork t => .obj <|
    [("kind", .str "EXTERNAL_WORK")] ++ t.key.fields ++
    field "edition" QuickAddEditionDetails.toJson t.edition ++
    field "translation" QuickAddTranslation.toJson t.translation

/-- The request without its `operationId`, and with the default entry method. -/
def QuickAddRequest.content (r : QuickAddRequest) : Json := .obj <|
  [("entryMethod", .str (r.entryMethod.getD .manual).text)] ++
  field "copy" QuickAddCopy.toJson r.copy ++ [("target", r.target.toJson)]

/-- `requestHashOf`; `sha256` is the hash of the value's JSON text. -/
def requestHashOf (sha256 : Json → String) (request : QuickAddRequest) : String :=
  sha256 request.content.canonical

end Bookswap
