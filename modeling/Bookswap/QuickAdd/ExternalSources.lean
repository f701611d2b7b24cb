import Bookswap.QuickAdd.QuickAddRequest

/-!
# External records: external-edition.resolver.ts, external-work.resolver.ts, external-details.ts

What a source is asked and what is made of its answer. `findLocal` reads only the database, `fetch`
only the source; what the source confirmed is never overridden by the client.

- `Provider`: what the sources answer at a moment.
- `ExternalEdition.findLocal`, `ExternalEdition.fetch`; `ExternalWork.findLocal`, `fetch`.
- `editionFromSource`, `editionOfWorkRecord`, `needsWorkSource`: the pure rules.
-/

namespace Bookswap

open ReadCommitted

/-! ## Scripts of quick-add -/

/-- How a quick-add fails: an answer, a `throw new Error`, a unique index that refuses a row, or a
transaction that took too long. -/
inductive QuickAddFailure
  | api (e : ApiException) (details : Json)
  | internal (message : String)
  | refused (key : CatalogKey)
  | timedOut

/-- The HTTP status of the answer. -/
def QuickAddFailure.status : QuickAddFailure → Nat
  | .api e _ => e.status
  | _ => 500

def QuickAddFailure.ofCode (code : ErrorCode) (message : String) (status : Nat)
    (details : Json := .null) : QuickAddFailure :=
  .api ⟨code, message, status⟩ details

/-- What a source is found to say: too late, an error, or a record (`none`: it has no such
record). -/
inductive ProviderOutcome (α : Type)
  | timeout
  | error (description : String)
  | value (record : Option α)

/-- `BookLookupResult` -/
structure BookLookupResult where
  title : String
  authors : Option (List String)
  publishedYear : Option Int
  language : Option String
  publisher : Option String
  description : Option String
  pageCount : Option Int
  format : Option EditionFormat
  coverUrl : Option String
  source : Option ExternalBookSource
  externalId : Option String

/-- `GoogleVolumeRecord` -/
structure VolumeRecord where
  externalId : String
  isbn13 : Option String
  result : BookLookupResult

/-- What is used of an `ExternalSearchResult` of a work. -/
structure WorkRecord where
  title : String
  authors : Option (List String)
  firstPublishedYear : Option Int
  coverUrl : Option String

/-- What the sources answer at a moment: `LookupService.lookup`, `fetchVolume` and `fetchWork`. -/
structure Provider where
  lookup : String → Except QuickAddFailure BookLookupResult
  fetchVolume : String → ProviderOutcome VolumeRecord
  fetchWork : String → ProviderOutcome WorkRecord

/-- A lock: `pg_advisory_xact_lock` of a hash, or the row of a work. -/
inductive LockName
  | advisory (hash : Int)
  | work (id : WorkId)
  deriving DecidableEq

/-- A script of quick-add. -/
abbrev AddScript (α : Type) :=
  Script CatalogDb CatalogWrite LockName Nat Unit Provider QuickAddFailure α

/-- What the code gets from the database and the platform: `hashtext`, `bookswap_norm`, and the
SHA-256 of a value's JSON text. -/
structure QuickAddEnv where
  hashtext : String → Int
  bookswapNorm : String → String
  sha256 : Json → String

/-! ## Limits -/

/-- `CATALOG_LIMITS` -/
def titleMax : Nat := 300
def descriptionMax : Nat := 2000
def authorNameMax : Nat := 200
def publisherMax : Nat := 200
def coverUrlMax : Nat := 2048
def pageCountMax : Int := 20000
def authorsMax : Nat := 10
def yearMin : Int := -4000
def yearMax : Int := 2100

/-- `LANGUAGE_CODES` (domain/language.ts). -/
def LANGUAGE_CODES : List String :=
  ["aa", "ab", "ae", "af", "ak", "am", "an", "ar", "as", "av", "ay", "az", "ba", "be", "bg", "bh",
    "bi", "bm", "bn", "bo", "br", "bs", "ca", "ce", "ch", "co", "cr", "cs", "cu", "cv", "cy", "da",
    "de", "dv", "dz", "ee", "el", "en", "eo", "es", "et", "eu", "fa", "ff", "fi", "fj", "fo", "fr",
    "fy", "ga", "gd", "gl", "gn", "gu", "gv", "ha", "he", "hi", "ho", "hr", "ht", "hu", "hy", "hz",
    "ia", "id", "ie", "ig", "ii", "ik", "io", "is", "it", "iu", "ja", "jv", "ka", "kg", "ki", "kj",
    "kk", "kl", "km", "kn", "ko", "kr", "ks", "ku", "kv", "kw", "ky", "la", "lb", "lg", "li", "ln",
    "lo", "lt", "lu", "lv", "mg", "mh", "mi", "mk", "ml", "mn", "mr", "ms", "mt", "my", "na", "nb",
    "nd", "ne", "ng", "nl", "nn", "no", "nr", "nv", "ny", "oc", "oj", "om", "or", "os", "pa", "pi",
    "pl", "ps", "pt", "qu", "rm", "rn", "ro", "ru", "rw", "sa", "sc", "sd", "se", "sg", "si", "sk",
    "sl", "sm", "sn", "so", "sq", "sr", "ss", "st", "su", "sv", "sw", "ta", "te", "tg", "th", "ti",
    "tk", "tl", "tn", "to", "tr", "ts", "tt", "tw", "ty", "ug", "uk", "ur", "uz", "ve", "vi", "vo",
    "wa", "wo", "xh", "yi", "yo", "za", "zh", "zu"]

def isLanguageCode (value : String) : Bool := value ∈ LANGUAGE_CODES

/-! ## external-details.ts -/

/-- A value outside the catalog's bounds is unknown. -/
def inRange (value : Option Int) (min max : Int) : Option Int :=
  value.filter fun v => min ≤ v ∧ v ≤ max

/-- A cover that does not fit is unknown. -/
def sourceCover (url : Option String) : Option String :=
  url.filter fun u => u.length ≤ coverUrlMax

/-- The language of an edition that the person called the original. -/
def originalLanguageOf (edition : QuickAddManualEdition) : Option String :=
  if edition.textKind = .original then edition.lang.join else none

structure ExternalMetadata where
  title : String
  authors : List String
  publishedYear : Option Int
  language : Option String
  publisher : Option String
  description : Option String
  pageCount : Option Int
  format : Option EditionFormat
  coverUrl : Option String

/-- What the source confirmed of an edition. -/
structure ConfirmedExternalEdition where
  isbn13 : Option String
  reference : Option ExternalReferenceKey
  metadata : ExternalMetadata

/-- What the source says of a work. -/
structure ConfirmedExternalWork where
  title : String
  authors : List String
  firstPubYear : Option Int
  coverUrl : Option String

/-- What the person added; nothing by default. -/
def QuickAddEditionDetails.none : QuickAddEditionDetails :=
  ⟨.none, .none, .none, .none, .none, .none, .none, .none⟩

/-- A refined external edition: what the source reported wins. -/
def editionFromSource (confirmed : ConfirmedExternalEdition)
    (details : Option QuickAddEditionDetails) : QuickAddManualEdition :=
  let metadata := confirmed.metadata
  let added := details.getD .none
  { textKind := added.textKind.getD .unknown
    lang := some (metadata.language <|> added.lang.join)
    publisher := some ((metadata.publisher.map (slice · publisherMax)) <|> added.publisher.join)
    year := some (inRange metadata.publishedYear yearMin yearMax <|> added.year.join)
    isbn13 := some (confirmed.isbn13 <|> added.isbn13.join)
    pageCount := some (inRange metadata.pageCount 1 pageCountMax <|> added.pageCount.join)
    format := some (metadata.format <|> added.format.join)
    coverUrl := some (sourceCover metadata.coverUrl <|> added.coverUrl.join) }

/-- A refined work record: the edition is the person's; only the cover may be the record's. -/
def editionOfWorkRecord (details : Option QuickAddEditionDetails) (recordCover : Option String) :
    QuickAddManualEdition :=
  let added := details.getD .none
  { textKind := added.textKind.getD .unknown
    lang := added.lang
    publisher := added.publisher
    year := added.year
    isbn13 := added.isbn13
    pageCount := added.pageCount
    coverUrl := some ((added.coverUrl).getD (sourceCover recordCover))
    format := added.format }

/-- A confirmed work reference that is already in the catalog. -/
structure KnownExternalWork where
  workId : WorkId
  editionId : Option EditionId

/-- Does adding this work record need the source? -/
def needsWorkSource (target : QuickAddExternalWorkTarget) : Option KnownExternalWork → Bool
  | none => true
  | some known =>
    if target.edition.isNone ∧ target.translation.isNone then known.editionId.isNone
    else (target.edition.bind QuickAddEditionDetails.coverUrl).isNone

/-! ## external-edition.resolver.ts -/

/-- One call to a source, as the API answers it. -/
def fromProvider {α : Type} (notFound : String) (outcome : ProviderOutcome α) :
    Except QuickAddFailure α :=
  match outcome with
  | .timeout => .error (.ofCode .catalogLookupTimeout "Зовнішній провайдер не відповів вчасно" 504)
  | .error description => .error (.ofCode .catalogLookupProviderError
      s!"Зовнішній провайдер повернув помилку: {description}" 502)
  | .value none => .error (.ofCode .catalogLookupNotFound notFound 404)
  | .value (some record) => .ok record

def toMetadata (result : BookLookupResult) : ExternalMetadata where
  title := result.title
  authors := result.authors.getD []
  publishedYear := result.publishedYear
  language := result.language.filter isLanguageCode
  publisher := result.publisher
  description := result.description
  pageCount := result.pageCount
  format := result.format
  coverUrl := result.coverUrl

/-- What an edition is looked up by. -/
structure LocalIdentity where
  isbn13 : Option String
  reference : Option ExternalReferenceKey

structure LocalResolution where
  editionId : Option EditionId
  referenceKnown : Bool

namespace ExternalEdition

/-- The identity that the client named. -/
def namedBy (target : QuickAddExternalEditionTarget) : LocalIdentity :=
  ⟨target.isbn13.map normalizeIsbn13, target.reference⟩

def identityConflict (details : List (String × Json)) : QuickAddFailure :=
  .ofCode .externalIdentityConflict
    "ISBN і зовнішнє посилання вказують на різні видання — примірник не створено" 409
    (.obj details)

/-- What the two look-ups of `findLocal` come to; a reference comes with its edition's ISBN. -/
def resolveLocal (identity : LocalIdentity) (byIsbn : Option Edition)
    (byReference : Option (EditionId × Option String)) :
    Except QuickAddFailure LocalResolution :=
  match byIsbn, byReference with
  | some e, some (editionId, _) =>
    if e.id ≠ editionId then
      .error (identityConflict
        [("isbnEditionId", .ofId e.id), ("referenceEditionId", .ofId editionId)])
    else .ok ⟨some e.id, true⟩
  | none, some (editionId, isbn13) =>
    if identity.isbn13 ≠ none ∧ isbn13 ≠ none ∧ isbn13 ≠ identity.isbn13 then
      .error (identityConflict [("referenceEditionId", .ofId editionId)])
    else .ok ⟨some editionId, true⟩
  | some e, none => .ok ⟨some e.id, false⟩
  | none, none => .ok ⟨none, false⟩

/-- The edition with the ISBN. -/
def byIsbn (isbn13 : Option String) : AddScript (Option Edition) :=
  match isbn13 with
  | none => pure none
  | some isbn13 => .select fun db => db.editionByIsbn? isbn13

/-- The edition that the reference leads to, and its ISBN. -/
def byReference (reference : Option ExternalReferenceKey) :
    AddScript (Option (EditionId × Option String)) :=
  match reference with
  | none => pure none
  | some key => .select fun db => (db.editionReference? key).map fun r =>
      (r.editionId, (db.edition? r.editionId).bind Edition.isbn13)

/-- `findLocal`; the two look-ups run at once, and outside a transaction either may be the first. -/
def findLocal (isbnFirst : Bool) (identity : LocalIdentity) : AddScript LocalResolution :=
  if isbnFirst then do
    let byIsbn ← byIsbn identity.isbn13
    let byReference ← byReference identity.reference
    .ofExcept (resolveLocal identity byIsbn byReference)
  else do
    let byReference ← byReference identity.reference
    let byIsbn ← byIsbn identity.isbn13
    .ofExcept (resolveLocal identity byIsbn byReference)

/-- What a volume confirms. -/
def confirmVolume (named : LocalIdentity) (reference : ExternalReferenceKey)
    (volume : VolumeRecord) : Except QuickAddFailure ConfirmedExternalEdition :=
  if named.isbn13 ≠ none ∧ volume.isbn13 ≠ none ∧ volume.isbn13 ≠ named.isbn13 then
    .error (.ofCode .validationError "ISBN не збігається з виданням, яке повідомило джерело" 422)
  else .ok
    { isbn13 := volume.isbn13
      reference := some ⟨reference.source, volume.externalId⟩
      metadata := toMetadata volume.result }

/-- What a look-up by ISBN confirms. -/
def confirmLookup (isbn13 : String) (result : BookLookupResult) : ConfirmedExternalEdition where
  isbn13 := some isbn13
  reference := result.source.bind fun source =>
    result.externalId.map fun externalId => ⟨source, externalId⟩
  metadata := toMetadata result

/-- What `fetch` makes of the provider's answer. -/
def fetchFrom (provider : Provider) (target : QuickAddExternalEditionTarget) :
    Except QuickAddFailure ConfirmedExternalEdition := do
  let named := namedBy target
  match named.reference with
  | some reference =>
    let volume ← fromProvider "Зовнішній провайдер не знає цього видання"
      (provider.fetchVolume reference.externalId)
    confirmVolume named reference volume
  | none =>
    match named.isbn13 with
    | none => .error (.ofCode .validationError "Потрібен ISBN-13 або пара source + externalId" 400)
    | some isbn13 =>
      let result ← provider.lookup isbn13
      return confirmLookup isbn13 result

/-- `fetch` -/
def fetch (target : QuickAddExternalEditionTarget) : AddScript ConfirmedExternalEdition := do
  let provider ← .request ()
  .ofExcept (fetchFrom provider target)

end ExternalEdition

/-! ## external-work.resolver.ts -/

namespace ExternalWork

/-- `findLocal` -/
def findLocal (key : ExternalReferenceKey) : AddScript (Option KnownExternalWork) :=
  .select fun db => (db.workReference? key).map fun r => ⟨r.workId, r.editionId⟩

/-- What `fetch` makes of the provider's answer. -/
def fetchFrom (provider : Provider) (key : ExternalReferenceKey) :
    Except QuickAddFailure ConfirmedExternalWork := do
  let record ← fromProvider "Зовнішнє джерело не знає цього твору"
    (provider.fetchWork key.externalId)
  return ⟨record.title, record.authors.getD [], record.firstPublishedYear, record.coverUrl⟩

/-- `fetch` -/
def fetch (key : ExternalReferenceKey) : AddScript ConfirmedExternalWork := do
  let provider ← .request ()
  .ofExcept (fetchFrom provider key)

end ExternalWork

end Bookswap
