import Bookswap.Import.ImportDraft
import Bookswap.Lib.Lists
import Bookswap.Lib.WorkerPool

/-!
# Looking a book up by ISBN: lookup.service.ts and its providers

`lookup.service.ts`, `fallback-book-lookup-provider.ts`, `batched-book-lookup-provider.ts`,
`lookup.config.ts` and the schema of a cached answer (`contracts/lookup.ts`). What a provider
answers comes from outside: every call ends in time with a record, with the answer that there is
none, with an error (the network, a status such as 429, an unreadable body), or too late.

- `TimedOutcome`, `BooksReply`: what a call under `runWithTimeout` comes to.
- `bookLookupResultSchema`, `classifyCacheRow`: when a cached row is an answer.
- `fallbackLookup`, `LookupService.lookup`: one ISBN.
- `runOpenLibraryBatches`, `resolveOne`, `batchPass`: many ISBNs, the batches one after the other and
  the fallback in concurrent workers.
- `LookupService.lookupMany`: the cache and a pass of the providers.
-/

namespace Bookswap

/-! ## Calls -/

/-- `TimedOutcome` -/
inductive TimedOutcome (α : Type)
  | value (v : α)
  | timeout
  | error (description : String)

/-- A `BookLookupResult` with the reference of its work, of which quick-add makes no use. -/
structure LookupRecord extends BookLookupResult where
  workExternalId : Option String

/-- A lookup of one ISBN; `none` is `undefined`: the provider has no such book. -/
abbrev LookupOutcome := TimedOutcome (Option LookupRecord)

/-! ## lookup.config.ts -/

/-- The integers that the variables of `process.env` denote; `none` where one denotes none. -/
structure LookupEnv where
  cacheTtlMs : Option Int
  negativeCacheTtlMs : Option Int
  fallbackBudget : Option Int
  fallbackConcurrency : Option Int

/-- `fromEnv`: a positive integer, or the default. -/
def fromEnv (raw : Option Int) (fallback : Nat) : Nat :=
  match raw with
  | some n => if 0 < n then n.toNat else fallback
  | none => fallback

namespace LookupEnv

variable (env : LookupEnv)

def lookupCacheTtlMs : Nat := fromEnv env.cacheTtlMs (30 * 24 * 60 * 60000)
def lookupNegativeCacheTtlMs : Nat := fromEnv env.negativeCacheTtlMs (24 * 60 * 60000)
def lookupFallbackBudget : Nat := fromEnv env.fallbackBudget 50
def lookupFallbackConcurrency : Nat := fromEnv env.fallbackConcurrency 4

end LookupEnv

theorem fromEnv_pos (raw : Option Int) {fallback : Nat} (h : 0 < fallback) :
    0 < fromEnv raw fallback := by
  unfold fromEnv
  cases raw with
  | none => exact h
  | some n =>
    dsimp only
    split
    · omega
    · exact h

/-! ## The cache -/

/-- `value.key` of an object; `none` is `undefined`. -/
def Json.get? : Json → String → Option Json
  | .obj fields, key => fields.lookup key
  | _, _ => none

/-- `schema.optional()` -/
def optionalSchema {α : Type} (schema : Json → Option α) : Option Json → Option (Option α)
  | none => some none
  | some v => (schema v).map some

/-- `z.string()` -/
def stringSchema : Json → Option String
  | .str s => some s
  | _ => none

/-- `z.string().min(1)` -/
def nonEmptySchema (v : Json) : Option String := (stringSchema v).filter fun s => s ≠ ""

/-- `z.array(schema)` -/
def arraySchema {α : Type} (schema : Json → Option α) : Json → Option (List α)
  | .arr items => items.mapM schema
  | _ => none

/-- `z.number().int()`: a safe integer. -/
def intSchema : Json → Option Int
  | .num n => if n.natAbs ≤ 9007199254740991 then some n else none
  | _ => none

/-- `z.enum`, of values with their texts. -/
def enumSchema {α : Type} (text : α → String) (values : List α) (v : Json) : Option α :=
  (stringSchema v).bind fun s => values.find? fun value => text value = s

/-- `bookLookupResultSchema.safeParse` -/
def bookLookupResultSchema (payload : Json) : Option LookupRecord :=
  match payload with
  | .obj _ => do
    let title ← payload.get? "title" |>.bind nonEmptySchema
    let authors ← optionalSchema (arraySchema nonEmptySchema) (payload.get? "authors")
    let publishedYear ← optionalSchema intSchema (payload.get? "publishedYear")
    let language ←
      optionalSchema (fun v => (stringSchema v).bind languageCodeSchema) (payload.get? "language")
    let publisher ← optionalSchema stringSchema (payload.get? "publisher")
    let description ← optionalSchema nonEmptySchema (payload.get? "description")
    let pageCount ← optionalSchema
      (fun v => (intSchema v).filter fun n => 0 < n ∧ n ≤ pageCountMax) (payload.get? "pageCount")
    let format ← optionalSchema (enumSchema EditionFormat.text [.hardcover, .paperback, .pocket])
      (payload.get? "format")
    let coverUrl ← optionalSchema stringSchema (payload.get? "coverUrl")
    let source ← optionalSchema
      (enumSchema ExternalBookSource.text [.openLibrary, .googleBooks, .isbndb])
      (payload.get? "source")
    let externalId ← optionalSchema stringSchema (payload.get? "externalId")
    let workExternalId ← optionalSchema stringSchema (payload.get? "workExternalId")
    return { title, authors, publishedYear, language, publisher, description, pageCount, format,
             coverUrl, source, externalId, workExternalId }
  | _ => none

/-- The payload of a found book. -/
def LookupRecord.toJson (r : LookupRecord) : Json := .obj <|
  [("title", .str r.title)] ++ Json.field "authors" (fun as => .arr (as.map .str)) r.authors ++
  Json.field "publishedYear" .num r.publishedYear ++ Json.field "language" .str r.language ++
  Json.field "publisher" .str r.publisher ++ Json.field "description" .str r.description ++
  Json.field "pageCount" .num r.pageCount ++ Json.field "format" (.str ·.text) r.format ++
  Json.field "coverUrl" .str r.coverUrl ++ Json.field "source" (.str ·.text) r.source ++
  Json.field "externalId" .str r.externalId ++ Json.field "workExternalId" .str r.workExternalId

/-- `NEGATIVE_CACHE_PAYLOAD` -/
def NEGATIVE_CACHE_PAYLOAD : Json := .obj [("notFound", .bool true)]

def isNegativeCachePayload (payload : Json) : Bool :=
  match payload.get? "notFound" with
  | some (.bool true) => true
  | _ => false

/-- A row of `ExternalBookLookup`. -/
structure CacheRow where
  payload : Json
  fetchedAt : Time

/-- The rows of `ExternalBookLookup` by their ISBN. -/
abbrev LookupCache := String → Option CacheRow

inductive CacheReadResult
  | hit (result : LookupRecord)
  | notFound
  | miss

def classifyCacheRow (env : LookupEnv) (now : Time) (row : CacheRow) : CacheReadResult :=
  let age := now - row.fetchedAt
  if isNegativeCachePayload row.payload then
    if age ≤ env.lookupNegativeCacheTtlMs then .notFound else .miss
  else if age > env.lookupCacheTtlMs then .miss
  else
    match bookLookupResultSchema row.payload with
    | none => .miss
    | some result => .hit result

def readCache (env : LookupEnv) (cache : LookupCache) (now : Time) (isbn : String) :
    CacheReadResult :=
  match cache isbn with
  | none => .miss
  | some row => classifyCacheRow env now row

/-- `upsert` -/
def LookupCache.write (cache : LookupCache) (isbn : String) (payload : Json) (now : Time) :
    LookupCache :=
  Function.update cache isbn (some ⟨payload, now⟩)

/-! ## One ISBN -/

/-- What `FallbackBookLookupProvider.ask` records of a source. -/
inductive LookupAttemptOutcome
  | found (result : LookupRecord)
  | missing
  | failed (label description : String)

def ask (label : String) (source : ExternalBookSource) (outcome : LookupOutcome) : LookupAttemptOutcome :=
  match outcome with
  | .value none => .missing
  | .value (some result) => .found { result with source := some source }
  | .timeout => .failed label "deadline exceeded"
  | .error description => .failed label description

def LookupAttemptOutcome.failure : LookupAttemptOutcome → Option String
  | .failed label description => some s!"{label}: {description}"
  | _ => none

def LookupAttemptOutcome.result : LookupAttemptOutcome → Option LookupRecord
  | .found result => some result
  | _ => none

/-- `mergeLookupResults`: `source` and `externalId` are never borrowed. -/
def mergeLookupResults (base extra : LookupRecord) : LookupRecord where
  title := base.title
  authors := base.authors <|> extra.authors
  publishedYear := base.publishedYear <|> extra.publishedYear
  language := base.language <|> extra.language
  publisher := base.publisher <|> extra.publisher
  description := base.description <|> extra.description
  pageCount := base.pageCount <|> extra.pageCount
  format := base.format <|> extra.format
  coverUrl := base.coverUrl <|> extra.coverUrl
  source := base.source
  externalId := base.externalId
  workExternalId := base.workExternalId <|> extra.workExternalId

/-- What the sources answer one lookup: `openLibrary.lookup`, `googleBooks.lookup` and
`openLibrary.lookupWork` of the merged record, of which an error is only logged. -/
structure LookupReplies where
  openLibrary : LookupOutcome
  googleBooks : LookupOutcome
  lookupWork : String → List String → Except String (Option String)

/-- `FallbackBookLookupProvider.lookup`: both sources at once, each with its deadline. -/
def fallbackLookup (replies : LookupReplies) : Except String (Option LookupRecord) :=
  let outcomes := [ask "Open Library" .openLibrary replies.openLibrary,
    ask "Google Books" .googleBooks replies.googleBooks]
  match outcomes.filterMap LookupAttemptOutcome.result with
  | [] =>
    let failures := outcomes.filterMap LookupAttemptOutcome.failure
    if failures.isEmpty then .ok none else .error ("; ".intercalate failures)
  | basis :: rest =>
    let merged := rest.foldl mergeLookupResults basis
    if merged.workExternalId.isSome then .ok (some merged)
    else
      match replies.lookupWork merged.title (merged.authors.getD []) with
      | .ok (some workExternalId) =>
        .ok (some { merged with workExternalId := some workExternalId })
      | _ => .ok (some merged)

namespace LookupService

/-- `fetchFromProvider`: the provider's answer, unless the deadline of the whole lookup came
first. -/
def fetchFromProvider (late : Bool) (replies : LookupReplies) :
    Except ApiException (Option LookupRecord) :=
  if late then .error ⟨.catalogLookupTimeout, "Зовнішній провайдер не відповів вчасно", 504⟩
  else (fallbackLookup replies).mapError fun description =>
    ⟨.catalogLookupProviderError, s!"Зовнішній провайдер повернув помилку: {description}", 502⟩

def throwNotFound (isbn : String) : ApiException :=
  ⟨.catalogLookupNotFound, s!"Зовнішні провайдери не знають ISBN {isbn}", 404⟩

/-- `LookupService.lookup`: the answer, and the payload it writes to the cache, if any. -/
def lookup (env : LookupEnv) (cache : LookupCache) (now : Time) (late : Bool)
    (replies : LookupReplies) (isbn : String) : Except ApiException LookupRecord × Option Json :=
  match readCache env cache now isbn with
  | .hit result => (.ok result, none)
  | .notFound => (.error (throwNotFound isbn), none)
  | .miss =>
    match fetchFromProvider late replies with
    | .error e => (.error e, none)
    | .ok none => (.error (throwNotFound isbn), some NEGATIVE_CACHE_PAYLOAD)
    | .ok (some result) => (.ok result, some result.toJson)

end LookupService

/-! ## Many ISBNs: Open Library -/

/-- What the answer of the Books API holds for one bibkey. -/
inductive BibkeyAnswer
  | absent
  | record (result : LookupRecord)
  | unreadable (message : String)

/-- `OpenLibraryBatchResult` -/
structure OpenLibraryBatchResult where
  found : String → Option LookupRecord
  failed : String → Option String

/-- What one call of the Books API comes to. -/
abbrev BooksReply := TimedOutcome (String → BibkeyAnswer)

/-- `OPEN_LIBRARY_BIBKEYS_PER_REQUEST` -/
def OPEN_LIBRARY_BIBKEYS_PER_REQUEST : Nat := 50

/-- `OpenLibraryLookupProvider.lookupMany`; a bibkey that the answer does not mention is in neither
map. -/
def openLibraryLookupMany (reply : BooksReply) (isbns : List String) :
    TimedOutcome OpenLibraryBatchResult :=
  if isbns.length > OPEN_LIBRARY_BIBKEYS_PER_REQUEST then
    .error s!"Open Library batch обмежений {OPEN_LIBRARY_BIBKEYS_PER_REQUEST} bibkeys"
  else
    match reply with
    | .timeout => .timeout
    | .error description => .error description
    | .value body => .value
      { found := fun isbn => match body isbn with
          | .record result => if isbn ∈ isbns then some result else none
          | _ => none
        failed := fun isbn => match body isbn with
          | .unreadable message => if isbn ∈ isbns then some message else none
          | _ => none }

/-- The providers that are asked for one ISBN at a time. -/
inductive SingleProvider
  | googleBooks | isbnDb
  deriving DecidableEq, Repr

/-- What a pass meets outside: whether the signal is aborted before a chunk is asked for, what the
Books API answers a chunk, and what the other providers answer an ISBN. -/
structure BatchReplies where
  abortedBefore : List String → Bool
  books : List String → BooksReply
  single : SingleProvider → String → LookupOutcome

/-- What the batches found, and the reasons their failures leave to the fallback. -/
structure BatchesResult where
  found : String → Option LookupRecord
  failed : String → Option LibraryImportLookupUnavailableReason

/-- Every ISBN of the chunk fails. -/
def BatchesResult.fail (r : BatchesResult) (chunk : List String)
    (reason : LibraryImportLookupUnavailableReason) : BatchesResult :=
  { r with failed := fun isbn => if isbn ∈ chunk then some reason else r.failed isbn }

/-- One chunk. -/
def askChunk (replies : BatchReplies) (r : BatchesResult) (chunk : List String) : BatchesResult :=
  if replies.abortedBefore chunk then r.fail chunk .timeout
  else
    match openLibraryLookupMany (replies.books chunk) chunk with
    | .value result =>
      { found := fun isbn => result.found isbn <|> r.found isbn
        failed := fun isbn => (result.failed isbn).map (fun _ => .providerError) <|> r.failed isbn }
    | .timeout => r.fail chunk .timeout
    | .error _ => r.fail chunk .providerError

/-- `runOpenLibraryBatches`: the chunks one after the other. -/
def runOpenLibraryBatches (replies : BatchReplies) (isbns : List String) : BatchesResult :=
  (chunks OPEN_LIBRARY_BIBKEYS_PER_REQUEST isbns).foldl (askChunk replies)
    ⟨fun _ => none, fun _ => none⟩

/-! ## Many ISBNs: the fallback -/

/-- What a pass says of one ISBN. -/
inductive Verdict
  | found (result : LookupRecord)
  | notFound
  | unavailable (reason : LibraryImportLookupUnavailableReason)

/-- `BatchBookLookupOutcome` -/
structure BatchBookLookupOutcome where
  found : String → Option LookupRecord
  notFound : String → Bool
  unavailable : String → Option LibraryImportLookupUnavailableReason

def BatchBookLookupOutcome.empty : BatchBookLookupOutcome :=
  ⟨fun _ => none, fun _ => false, fun _ => none⟩

/-- The verdict on an ISBN is entered. -/
def BatchBookLookupOutcome.enter (o : BatchBookLookupOutcome) (isbn : String) :
    Verdict → BatchBookLookupOutcome
  | .found result => { o with found := Function.update o.found isbn (some result) }
  | .notFound => { o with notFound := Function.update o.notFound isbn true }
  | .unavailable reason => { o with unavailable := Function.update o.unavailable isbn (some reason) }

/-- What the workers share: the signal, and the calls made so far. -/
structure FallbackShared where
  aborted : Bool
  asked : List (SingleProvider × String)

/-- Where `resolveOne` is: the attempts left, whether the first of them is under way, and the
reason for which the ISBN is unavailable so far. -/
structure Attempts where
  left : List SingleProvider
  underWay : Bool
  unavailable : Option LibraryImportLookupUnavailableReason

/-- One turn of `resolveOne`. -/
def resolveTurn (replies : BatchReplies) (e : FallbackShared) (isbn : String) (l : Attempts) :
    FallbackShared × (Attempts ⊕ Verdict) :=
  match l.left with
  | [] =>
    match l.unavailable with
    | none => (e, .inr .notFound)
    | some reason => (e, .inr (.unavailable reason))
  | p :: left =>
    if l.underWay then
      match replies.single p isbn with
      | .value (some result) => (e, .inr (.found result))
      | .value none => (e, .inl ⟨left, false, l.unavailable⟩)
      | .timeout => (e, .inl ⟨left, false, some .timeout⟩)
      | .error _ => (e, .inl ⟨left, false, some (l.unavailable.getD .providerError)⟩)
    else if e.aborted then (e, .inr (.unavailable (l.unavailable.getD .timeout)))
    else ({ e with asked := (p, isbn) :: e.asked }, .inl { l with underWay := true })

/-- `resolveOne`: Google Books, then ISBNdb. -/
def resolveOne (replies : BatchReplies)
    (failed : String → Option LibraryImportLookupUnavailableReason) :
    WorkerPool.Program FallbackShared String Attempts Verdict where
  start isbn := ⟨[.googleBooks, .isbnDb], false, failed isbn⟩
  turn e isbn l e' r := resolveTurn replies e isbn l = (e', r)

/-- The signal may be aborted at any time. -/
def Abort (e e' : FallbackShared) : Prop := e' = { e with aborted := true }

section Pass

variable (env : LookupEnv) (replies : BatchReplies) (isbns : List String)

/-- `[...new Set(isbns)]` -/
def pendingIsbns : List String := isbns.eraseDups

/-- What the batches leave to the fallback. -/
def remainingIsbns : List String :=
  (pendingIsbns isbns).filter fun isbn =>
    ((runOpenLibraryBatches replies (pendingIsbns isbns)).found isbn).isNone

/-- The ISBNs that the budget pays for. -/
def affordable : List String := (remainingIsbns replies isbns).take env.lookupFallbackBudget

/-- The number of workers of the fallback. -/
def fallbackWorkers : Nat :=
  min env.lookupFallbackConcurrency (affordable env replies isbns).length

/-- The workers of `runBoundedFallback`. -/
def batchPass : Machine (WorkerPool.Pool FallbackShared String Attempts Verdict) Unit :=
  WorkerPool.pool
    (resolveOne replies (runOpenLibraryBatches replies (pendingIsbns isbns)).failed)
    (affordable env replies isbns) (fallbackWorkers env replies isbns) Abort
    ⟨(chunks OPEN_LIBRARY_BIBKEYS_PER_REQUEST (pendingIsbns isbns)).any replies.abortedBefore, []⟩

/-- The outcome before the workers start: what the batches found, and the rows past the budget. -/
def outcomeBefore : BatchBookLookupOutcome where
  found := (runOpenLibraryBatches replies (pendingIsbns isbns)).found
  notFound := fun _ => false
  unavailable := fun isbn =>
    if isbn ∈ (remainingIsbns replies isbns).drop env.lookupFallbackBudget then
      some .budgetExhausted
    else none

/-- The outcome so far: the workers' verdicts were entered as they came. -/
def passOutcome (s : WorkerPool.Pool FallbackShared String Attempts Verdict) :
    BatchBookLookupOutcome :=
  s.results.foldr (fun r o => o.enter r.1 r.2) (outcomeBefore env replies isbns)

/-- `BatchedBookLookupProvider.lookupMany` has ended in this state. -/
def PassEnds (s : WorkerPool.Pool FallbackShared String Attempts Verdict) : Prop :=
  (batchPass env replies isbns).Reachable s ∧ s.Done (fallbackWorkers env replies isbns)

end Pass

/-! ## Many ISBNs: the cache -/

namespace LookupService

/-- `readCachedMany` -/
def readCachedMany (env : LookupEnv) (cache : LookupCache) (now : Time) (isbns : List String)
    (isbn : String) : Option BatchLookupRowOutcome :=
  if isbn ∈ isbns then
    match readCache env cache now isbn with
    | .hit result => some (.found result.toBookLookupResult)
    | .notFound => some .notFound
    | .miss => none
  else none

/-- The ISBNs that the providers are asked for. -/
def misses (env : LookupEnv) (cache : LookupCache) (now : Time) (isbns : List String) :
    List String :=
  isbns.eraseDups.filter fun isbn => (readCachedMany env cache now isbns isbn).isNone

/-- `LookupService.lookupMany`: what is set last stands. -/
def lookupMany (env : LookupEnv) (cache : LookupCache) (now : Time) (isbns : List String)
    (fetched : BatchBookLookupOutcome) (isbn : String) : Option BatchLookupRowOutcome :=
  match fetched.unavailable isbn with
  | some reason => some (.unavailable reason)
  | none =>
    if fetched.notFound isbn then some .notFound
    else
      match fetched.found isbn with
      | some result => some (.found result.toBookLookupResult)
      | none => readCachedMany env cache now isbns isbn

/-- `writeCacheMany`: the payload written for an ISBN, if any. -/
def writeCacheMany (fetched : BatchBookLookupOutcome) (isbn : String) : Option Json :=
  match fetched.found isbn with
  | some result => some result.toJson
  | none => if fetched.notFound isbn then some NEGATIVE_CACHE_PAYLOAD else none

end LookupService

end Bookswap
