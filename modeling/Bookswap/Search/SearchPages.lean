import Bookswap.Search.ExternalSearchService

/-!
# search-candidates.service.ts and add-search.service.ts: the local part of a page

Both services rank the local matches as a whole and cut the page out of the ranking; the external
part of the same page is cut by `ExternalSearchService.search`, with the length of the ranking that
they give it. `byEditionOrder` compares texts as the locale does and comes from outside.
-/

namespace Bookswap

universe u

variable {ρ : Type u}

/-- What a local endpoint answers with: its rows, the number of all of them, whether more follow. -/
structure LocalPage (ρ : Type u) where
  rows : List ρ
  total : Nat
  hasMore : Bool

/-- `SearchCandidatesService.search`; `CatalogService.search` cuts its page in the same way. -/
def candidatesPage (ranked : List ρ) (page pageSize : Nat) : LocalPage ρ :=
  let split := splitSearchPage page pageSize ranked.length
  { rows := (ranked.drop split.localFrom).take split.localCount
    total := ranked.length
    hasMore := page * pageSize < ranked.length }

/-- One row of the local half: an edition, or a work that has none yet. -/
structure LayoutRow where
  workId : WorkId
  editionId : Option EditionId
  deriving DecidableEq

/-- `layout`: the works as they rank, each with its editions; the ISBN that was asked for is first. -/
def CatalogDb.layout (db : CatalogDb) (byEditionOrder : Edition → Edition → Int)
    (exactIsbn : Option String) (works : List WorkId) : List LayoutRow :=
  works.flatMap fun workId =>
    let own := (db.editions.filter fun e => e.workId = workId).mergeSort fun one other =>
      if one.isbn13 = exactIsbn ∧ other.isbn13 ≠ exactIsbn then true
      else if one.isbn13 ≠ exactIsbn ∧ other.isbn13 = exactIsbn then false
      else byEditionOrder one other ≤ 0
    if own = [] then [⟨workId, none⟩] else own.map fun e => ⟨workId, some e.id⟩

/-- `AddSearchService.search` -/
def addSearchPage (layout : List ρ) (page pageSize : Nat) : LocalPage ρ :=
  let from_ := (page - 1) * pageSize
  { rows := (layout.drop from_).take pageSize
    total := layout.length
    hasMore := page * pageSize < layout.length }

namespace SearchWorld

variable (world : SearchWorld) (req : ExternalSearchRequest)

/-- The rounds that a search reads; a page of our own rows with more behind it reads none. -/
def roundsRead (cached : ExternalBookSource → Nat → Bool) : Nat :=
  if (world.splitOf req).externalCount = 0 ∧ req.page * req.pageSize < world.localTotalOf req then 0
  else (world.readingOf req cached).blocksRead

end SearchWorld

end Bookswap
