import Bookswap.QuickAdd.QuickAddRequest
import Bookswap.Search.MergeExternalResults

/-!
# external-search.service.ts: the external part of a page

A search reads the sources block by block until the pool has the page and one record more. Only
the first block that is not in the cache is fetched; after that the loop stops. What the sources
answer, what the cache holds and how the local matches rank come from outside.

- `matchLocal` is the matcher of `AddSearchService`.
-/

namespace Bookswap

/-! ## The page -/

structure SearchPageSplit where
  localFrom : Nat
  localCount : Nat
  externalFrom : Nat
  externalCount : Nat

/-- How a page is divided: the local matches first, then the external pool. -/
def splitSearchPage (page pageSize localTotal : Nat) : SearchPageSplit :=
  let from_ := (page - 1) * pageSize
  let localCount := min (localTotal - from_) pageSize
  { localFrom := min from_ localTotal
    localCount := localCount
    externalFrom := from_ - localTotal
    externalCount := pageSize - localCount }

/-! ## Records that are already our editions -/

/-- `referenceOf`: the source and the id, as the record's own id has them. -/
def ExternalSearchResult.referenceOf (record : ExternalSearchResult) :
    Option ExternalReferenceKey :=
  match record.id.toList.span (· ≠ ':') with
  | (source, _ :: externalId) =>
    match [ExternalBookSource.openLibrary, .googleBooks, .isbndb].find? fun s =>
        s.text = String.ofList source with
    | some s => if externalId = [] then none else some ⟨s, String.ofList externalId⟩
    | none => none
  | (_, []) => none

/-- The edition that one record is known as: a work by its reference, a printing by its ISBN or
its reference, unless the two disagree. -/
def CatalogDb.editionOf (db : CatalogDb) (record : ExternalSearchResult) : Option EditionId :=
  match record.kind with
  | .work => do
    let reference ← record.referenceOf
    let row ← db.workReference? reference
    row.editionId
  | .edition =>
    let viaIsbn := (record.isbn13.bind db.editionByIsbn?).map Edition.id
    let viaReference := (record.referenceOf.bind db.editionReference?).map
      EditionExternalReference.editionId
    if viaIsbn ≠ none ∧ viaReference ≠ none ∧ viaIsbn ≠ viaReference then none
    else viaIsbn <|> viaReference

/-- `matches.set` -/
def setMatch (db : CatalogDb) (found : String → Option EditionId) (record : ExternalSearchResult) :
    String → Option EditionId :=
  match db.editionOf record with
  | some editionId => Function.update found record.id (some editionId)
  | none => found

/-- **matchLocal**: a map from the ids of the records, works first. -/
def CatalogDb.matchLocal (db : CatalogDb) (records : List ExternalSearchResult) :
    String → Option EditionId :=
  ((records.filter fun record => record.kind = .work) ++
    records.filter fun record => record.kind = .edition).foldl (setMatch db) fun _ => none

/-- The records from here on, with the editions `seen` so far. -/
def markFrom (found : String → Option EditionId) (shown : List EditionId) (seen : List EditionId) :
    List ExternalSearchResult → List ExternalSearchResult
  | [] => []
  | record :: records =>
    match found record.id with
    | none => record :: markFrom found shown seen records
    | some editionId =>
      if editionId ∈ seen ∨ editionId ∈ shown then markFrom found shown seen records
      else { record with localEditionId := some editionId } ::
        markFrom found shown (editionId :: seen) records

/-- Records of one edition collapse, and so do those that the local half shows. -/
def markLocalEditions (db : CatalogDb) (shown : List EditionId)
    (pool : List ExternalSearchResult) : List ExternalSearchResult :=
  markFrom (db.matchLocal pool) shown [] pool

/-- `knownEditionsOf`: the editions of our matches. -/
structure KnownEditions where
  isbns : List String
  ids : List EditionId

def CatalogDb.knownEditionsOf (db : CatalogDb) (workIds : List WorkId) : KnownEditions :=
  let editions := db.editions.filter fun e => e.workId ∈ workIds
  ⟨editions.filterMap Edition.isbn13, editions.map Edition.id⟩

/-- The merged records without the ISBNs that are known. -/
def withoutKnown (known : KnownEditions) (records : List ExternalSearchResult) :
    List ExternalSearchResult :=
  records.filter fun record => match record.isbn13 with
    | none => true
    | some isbn13 => isbn13 ∉ known.isbns

/-! ## The sources -/

inductive ExternalSearchSourceStatus
  | ok | timeout | error | rateLimited
  deriving DecidableEq, Repr

/-- What a source can fail with. -/
inductive ExternalSearchFailure
  | timeout | ownLimit | providerLimit | other
  deriving DecidableEq, Repr

def classify : ExternalSearchFailure → ExternalSearchSourceStatus
  | .timeout => .timeout
  | .ownLimit | .providerLimit => .rateLimited
  | .other => .error

structure ExternalSearchBlockResult where
  results : List ExternalSearchResult
  exhausted : Bool
  partialFailure : Option ExternalSearchFailure := none

/-- What a source answers for one block, from the cache or by itself. -/
abbrev BlockAnswer := Except ExternalSearchFailure ExternalSearchBlockResult

/-- What one source has contributed so far. -/
structure ProviderState where
  source : ExternalBookSource
  status : ExternalSearchSourceStatus
  exhausted : Bool
  entries : List RankedResult

def ProviderState.start (source : ExternalBookSource) : ProviderState := ⟨source, .ok, false, []⟩

def ProviderState.isActive (state : ProviderState) : Bool :=
  state.status = .ok ∧ state.exhausted = false

/-- **readBlock**: a failure marks the source, and leaves what it delivered. -/
def ProviderState.readBlock (answer : BlockAnswer) (index size : Nat) (state : ProviderState) :
    ProviderState :=
  match answer with
  | .error failure => { state with status := classify failure }
  | .ok block =>
    { state with
      exhausted := block.exhausted
      status := (block.partialFailure.map classify).getD state.status
      entries := state.entries ++ block.results.zipIdx.map fun x =>
        ⟨x.1, index, index * size + x.2⟩ }

/-! ## The search -/

/-- `MAX_BLOCKS` -/
def MAX_BLOCKS : Nat := 20

inductive ExternalSearchMore
  | yes | no | unknown
  deriving DecidableEq, Repr

/-- What one search finds around it. -/
structure SearchWorld where
  text : SearchText
  providers : List ExternalBookSource
  blockSize : Nat
  db : CatalogDb
  /-- The works that match the query, ranked. -/
  matches_ : List WorkId
  answers : ExternalBookSource → Nat → BlockAnswer

structure ExternalSearchRequest where
  query : String
  page : Nat
  pageSize : Nat
  /-- `options.localTotal` -/
  localTotal : Option Nat := none
  /-- Whether the records are matched with our editions. -/
  matchLocal : Bool := false

structure ExternalSearchResponse where
  results : List ExternalSearchResult
  sources : List (ExternalBookSource × ExternalSearchSourceStatus)
  page : Nat
  pageSize : Nat
  more : ExternalSearchMore
  complete : Bool

namespace SearchWorld

variable (world : SearchWorld) (req : ExternalSearchRequest)

/-- The sources that still have something to say read their block. -/
def readRound (index : Nat) (states : List ProviderState) : List ProviderState :=
  states.map fun state =>
    if state.isActive then
      state.readBlock (world.answers state.source index) index world.blockSize
    else state

/-- The editions of our matches. -/
def known : KnownEditions := world.db.knownEditionsOf world.matches_

/-- The pool of what was read. -/
def poolOf (entries : List RankedResult) : List ExternalSearchResult :=
  let pool := withoutKnown world.known (mergeResults world.text req.query entries)
  if req.matchLocal then markLocalEditions world.db world.known.ids pool else pool

/-- What the loop has at the start of a turn. -/
structure Reading where
  states : List ProviderState
  pool : List ExternalSearchResult
  fetchSpent : Bool
  blocksRead : Nat

/-- The turns of the loop that are left; `cached` is what `peek` finds. -/
def readBlocks (cached : ExternalBookSource → Nat → Bool) (needed : Nat) :
    Nat → Nat → Reading → Reading
  | 0, _, reading => reading
  | turns + 1, index, reading =>
    let active := reading.states.filter ProviderState.isActive
    let missing := active.any fun state => cached state.source index = false
    if active = [] ∨ (missing ∧ reading.fetchSpent) then reading
    else
      let states := world.readRound index reading.states
      let next : Reading :=
        ⟨states, world.poolOf req (states.flatMap ProviderState.entries),
          missing || reading.fetchSpent, index + 1⟩
      if needed ≤ next.pool.length then next
      else readBlocks cached needed turns (index + 1) next

/-- The number of rows of the shared list that are ours. -/
def localTotalOf : Nat := req.localTotal.getD world.matches_.length

def splitOf : SearchPageSplit := splitSearchPage req.page req.pageSize (world.localTotalOf req)

/-- What the loop reads: the page and one record more, if it can. -/
def readingOf (cached : ExternalBookSource → Nat → Bool) : Reading :=
  let split := world.splitOf req
  world.readBlocks req cached (split.externalFrom + split.externalCount + 1) MAX_BLOCKS 0
    ⟨world.providers.map .start, [], false, 0⟩

/-- **search**: the external part of one page. -/
def search (cached : ExternalBookSource → Nat → Bool) : ExternalSearchResponse :=
  let split := world.splitOf req
  if split.externalCount = 0 ∧ req.page * req.pageSize < world.localTotalOf req then
    ⟨[], [], req.page, req.pageSize, .unknown, true⟩
  else
    let reading := world.readingOf req cached
    let last := split.externalFrom + split.externalCount
    let results := (reading.pool.drop split.externalFrom).take split.externalCount
    let canReadMore := reading.blocksRead < MAX_BLOCKS ∧
      reading.states.any ProviderState.isActive
    { results := results
      sources := reading.states.map fun state => (state.source, state.status)
      page := req.page
      pageSize := req.pageSize
      more := if last < reading.pool.length then .yes else if canReadMore then .unknown else .no
      complete := results.length = split.externalCount ∨ ¬canReadMore }

end SearchWorld

end Bookswap
