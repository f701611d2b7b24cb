import Bookswap.Catalog.CatalogSchema
import Mathlib.Data.List.Sort

/-!
# merge-external-results.ts: one list from several sources

Records are folded block by block into a list of rows. A record whose group key is known enriches
its row in place, any other becomes a row at the end; a work that was created in this block
collapses into its only printing. What the keys and the order are computed from, normalized text
and relevance, are parameters.
-/

namespace Bookswap

inductive ExternalSearchRecordKind
  | edition | work
  deriving DecidableEq, Repr

def ExternalSearchRecordKind.text : ExternalSearchRecordKind → String
  | .edition => "EDITION"
  | .work => "WORK"

structure ExternalSearchResult where
  id : String
  kind : ExternalSearchRecordKind
  sources : List ExternalBookSource
  title : String
  authors : Option (List String) := none
  isbn13 : Option String := none
  language : Option String := none
  publishedYear : Option Int := none
  firstPublishedYear : Option Int := none
  publisher : Option String := none
  pageCount : Option Nat := none
  format : Option EditionFormat := none
  coverUrl : Option String := none
  description : Option String := none
  externalId : Option String := none
  workExternalId : Option String := none
  localEditionId : Option EditionId := none
  deriving DecidableEq

/-- A record with its place in its source's stream. -/
structure RankedResult where
  result : ExternalSearchResult
  block : Nat
  rank : Nat
  deriving DecidableEq

/-- `comparableText`, and the score of `relevanceOf`. -/
structure SearchText where
  comparableText : String → String
  relevanceOf : String → ExternalSearchResult → Int

namespace SearchText

variable (text : SearchText)

/-- The authors as a set. -/
def authorsKey : Option (List String) → String
  | none => ""
  | some authors =>
    "|".intercalate ((authors.map text.comparableText).eraseDups.insertionSort (· ≤ ·))

/-- The year the record itself claims. -/
def ownYear (result : ExternalSearchResult) : Option Int :=
  match result.kind with
  | .work => result.firstPublishedYear
  | .edition => result.publishedYear

def hasMergeEvidence (result : ExternalSearchResult) : Bool :=
  if text.authorsKey result.authors = "" ∨ ownYear result = none then false
  else result.kind = .work ∨ result.publisher ≠ none

/-- What makes two records obvious duplicates. -/
def groupKey (result : ExternalSearchResult) : String :=
  match result.isbn13 with
  | some isbn13 => "isbn:" ++ isbn13
  | none =>
    if text.hasMergeEvidence result = false then "unmergeable:" ++ result.id
    else "\x00".intercalate ["meta", result.kind.text, text.comparableText result.title,
      text.authorsKey result.authors, ((ownYear result).map toString).getD "undefined",
      (result.publisher.map text.comparableText).getD "", result.language.getD ""]

/-- `base` keeps what it has, and takes what it lacks from `extra`. -/
def mergeInto (base extra : ExternalSearchResult) : ExternalSearchResult where
  id := base.id
  kind := base.kind
  sources := (base.sources ++ extra.sources).eraseDups
  title := base.title
  authors := base.authors <|> extra.authors
  isbn13 := base.isbn13 <|> extra.isbn13
  language := base.language <|> extra.language
  publishedYear := base.publishedYear <|> extra.publishedYear
  firstPublishedYear := base.firstPublishedYear <|> extra.firstPublishedYear
  publisher := base.publisher <|> extra.publisher
  pageCount := base.pageCount <|> extra.pageCount
  format := base.format <|> extra.format
  coverUrl := base.coverUrl <|> extra.coverUrl
  description := base.description <|> extra.description
  externalId := base.externalId <|> extra.externalId
  workExternalId := base.workExternalId <|> extra.workExternalId
  localEditionId := base.localEditionId <|> extra.localEditionId

def sameBook (work edition : ExternalSearchResult) : Bool :=
  text.comparableText work.title = text.comparableText edition.title ∧
    text.authorsKey work.authors ≠ "" ∧
    text.authorsKey work.authors = text.authorsKey edition.authors

end SearchText

/-- A row of the merged list. A row is an object: `slot` says which. -/
structure ResultRow where
  slot : Nat
  result : ExternalSearchResult

/-- `rows` and `byKey`; `next` is the slot of the next row. -/
structure ResultMerge where
  rows : List ResultRow
  byKey : String → Option Nat
  next : Nat

namespace ResultMerge

variable (text : SearchText)

def start : ResultMerge := ⟨[], fun _ => none, 0⟩

/-- `row.result = mergeInto(row.result, extra)` -/
def absorb (m : ResultMerge) (slot : Nat) (extra : ExternalSearchResult) : ResultMerge :=
  { m with rows := m.rows.map fun row =>
      if row.slot = slot then { row with result := SearchText.mergeInto row.result extra }
      else row }

/-- `rows.push(row)`, with the row's key. -/
def push (m : ResultMerge) (key : String) (result : ExternalSearchResult) : ResultMerge where
  rows := m.rows ++ [⟨m.next, result⟩]
  byKey := Function.update m.byKey key (some m.next)
  next := m.next + 1

/-- The row leaves the list; its key is `only`'s from now on. -/
def redirect (m : ResultMerge) (slot : Nat) (key : String) (only : Nat) : ResultMerge :=
  { m with
    rows := m.rows.filter fun row => row.slot ≠ slot
    byKey := Function.update m.byKey key (some only) }

/-- One record, with the rows created so far in its block. -/
def mergeEntry (m : ResultMerge × List (Nat × String)) (entry : ExternalSearchResult) :
    ResultMerge × List (Nat × String) :=
  match m.1.byKey (text.groupKey entry) with
  | some slot => (m.1.absorb slot entry, m.2)
  | none => (m.1.push (text.groupKey entry) entry, m.2 ++ [(m.1.next, text.groupKey entry)])

/-- The printings that a row may collapse into. -/
def printingsOf (m : ResultMerge) (work : ExternalSearchResult) : List ResultRow :=
  m.rows.filter fun row => row.result.kind = .edition ∧ text.sameBook work row.result

/-- A work collapses into its only printing. -/
def collapse (m : ResultMerge) (created : Nat × String) : ResultMerge :=
  match m.rows.find? fun row => row.slot = created.1 with
  | none => m
  | some row =>
    if row.result.kind ≠ .work then m
    else
      match m.printingsOf text row.result with
      | [only] => (m.absorb only.slot row.result).redirect row.slot created.2 only.slot
      | _ => m

/-- The records of a block: most relevant first, then by their own rank. -/
def entriesOf (query : String) (ranked : List RankedResult) (block : Nat) : List RankedResult :=
  (ranked.filter fun entry => entry.block = block).insertionSort fun left right =>
    text.relevanceOf query right.result < text.relevanceOf query left.result ∨
      (text.relevanceOf query right.result = text.relevanceOf query left.result ∧
        left.rank ≤ right.rank)

def mergeBlock (query : String) (ranked : List RankedResult) (m : ResultMerge) (block : Nat) :
    ResultMerge :=
  let (merged, created) := ((entriesOf text query ranked block).map RankedResult.result).foldl
    (mergeEntry text) (m, [])
  created.foldl (collapse text) merged

/-- The blocks that were read, in ascending order. -/
def blocksOf (ranked : List RankedResult) : List Nat :=
  (ranked.map RankedResult.block).eraseDups.insertionSort (· ≤ ·)

end ResultMerge

/-- **mergeResults** -/
def mergeResults (text : SearchText) (query : String) (ranked : List RankedResult) :
    List ExternalSearchResult :=
  ((ResultMerge.blocksOf ranked).foldl (ResultMerge.mergeBlock text query ranked) .start).rows.map
    ResultRow.result

end Bookswap
