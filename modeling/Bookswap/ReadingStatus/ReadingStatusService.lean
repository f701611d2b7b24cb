import Bookswap.Catalog.CatalogStore
import Bookswap.Lib.KeysetPaging
import Bookswap.Lib.Table
import Bookswap.ReadingStatus.ReadingListCursor
import Mathlib.Data.Prod.Lex
import Mathlib.Order.Lex

/-!
# The pages of the reading list

`reading-status/reading-status.service.ts`: the own list (`list`), the list of what friends
read (`friendsReading`), and the write of a status that can run between two reads
(`writeStatus`). Ids are compared by the collation of the database, which is any linear
order.

- `readPage`: the page after a cursor, with one row more read than shown.
- `follow`: a client that follows `nextCursor` to the end.
- `readingPaging`: the same walk over the keys `(updatedAt, id)`, downwards.
-/

namespace Bookswap

open Store Keyset

/-- A row of `WorkReadingStatus`; the column `updatedAt` has milliseconds. -/
@[ext] structure StatusRow where
  id : RowId
  userId : UserId
  workId : WorkId
  status : ReadingStatus
  updatedAt : Int
  valid : IsoDate.Valid updatedAt

instance : DecidableEq StatusRow := fun _ _ => decidable_of_iff' _ StatusRow.ext_iff

/-- The cursor of a page that ends with the row. -/
def StatusRow.position (r : StatusRow) : ReadingListCursor := ⟨r.updatedAt, r.id, r.valid⟩

/-! ### Setting a status -/

/-- A call of `set` for a work that is there, at the moment its row is written; `newId` is the
id of the row if there is none yet. -/
structure SetStatus where
  userId : UserId
  workId : WorkId
  status : ReadingStatus
  newId : RowId
  now : Int
  valid : IsoDate.Valid now

/-- `stamp` -/
def stamp (op : SetStatus) (rows : Table StatusRow.id) (id : RowId) : Table StatusRow.id :=
  rows.modify id
    ⟨fun r => { r with status := op.status, updatedAt := op.now, valid := op.valid }, fun _ => rfl⟩

/-- `writeStatus` (reading-status.service.ts:104), as one step. -/
def writeStatus (op : SetStatus) (rows : Table StatusRow.id) : Table StatusRow.id :=
  match rows.rows.find? fun r => r.userId = op.userId ∧ r.workId = op.workId with
  | some row => if row.status ≠ op.status then stamp op rows row.id else rows
  | none =>
    (rows.insert ⟨op.newId, op.userId, op.workId, op.status, op.now, op.valid⟩).getD rows

/-- The table after the calls before the `i`-th read. -/
def tableAt (sets : Nat → List SetStatus) (rows : Table StatusRow.id) : Nat → Table StatusRow.id
  | 0 => (sets 0).foldl (fun t op => writeStatus op t) rows
  | i + 1 => (sets (i + 1)).foldl (fun t op => writeStatus op t) (tableAt sets rows i)

/-- The call does not touch the row: it is about another one, or asks for the status it has. -/
def SetStatus.Leaves (op : SetStatus) (r : StatusRow) : Prop :=
  r.userId = op.userId → r.workId = op.workId → r.status = op.status

def Untouched (sets : Nat → List SetStatus) (r : StatusRow) : Prop :=
  ∀ i, ∀ op ∈ sets i, op.Leaves r

theorem mem_writeStatus {op : SetStatus} {rows : Table StatusRow.id} {r : StatusRow}
    (h : r ∈ rows) (hop : op.Leaves r) : r ∈ writeStatus op rows := by
  unfold writeStatus
  split
  · rename_i row hrow
    split
    · -- the row that is stamped gets another status, so it is another one
      rename_i hstatus
      have hfound : row.userId = op.userId ∧ row.workId = op.workId := by
        simpa using List.find?_some hrow
      have hne : r.id ≠ row.id := by
        intro hid
        obtain rfl := Table.eq_of_key_eq h (List.mem_of_find?_eq_some hrow) hid
        exact hstatus (hop hfound.1 hfound.2)
      exact Table.mem_modify.mpr ⟨r, h, if_neg hne⟩
    · exact h
  · cases hins : rows.insert ⟨op.newId, op.userId, op.workId, op.status, op.now, op.valid⟩ with
    | none => exact h
    | some rows' => exact (Table.mem_insert hins).mpr (Or.inl h)

theorem mem_writes {ops : List SetStatus} {rows : Table StatusRow.id} {r : StatusRow}
    (h : r ∈ rows) (hops : ∀ op ∈ ops, op.Leaves r) :
    r ∈ ops.foldl (fun t op => writeStatus op t) rows := by
  induction ops generalizing rows with
  | nil => exact h
  | cons op ops ih =>
    exact ih (mem_writeStatus h (hops op List.mem_cons_self))
      fun op' hop' => hops op' (List.mem_cons_of_mem _ hop')

/-- An untouched row is in the table at every read. -/
theorem mem_tableAt {sets : Nat → List SetStatus} {rows : Table StatusRow.id} {r : StatusRow}
    (h : r ∈ rows) (hu : Untouched sets r) (i : Nat) : r ∈ tableAt sets rows i := by
  induction i with
  | zero => exact mem_writes h (hu 0)
  | succ i ih => exact mem_writes ih (hu (i + 1))

/-! ### A page -/

section Pages

variable [LinearOrder RowId]

/-- `after` (reading-status.service.ts:356): the rows after the cursor. -/
def afterCursor (cursor : Option ReadingListCursor) (r : StatusRow) : Bool :=
  match cursor with
  | none => true
  | some c => r.updatedAt < c.updatedAt ∨ (r.updatedAt = c.updatedAt ∧ r.id < c.id)

/-- `orderBy: [{ updatedAt: 'desc' }, { id: 'desc' }]` -/
def Ranked (a b : StatusRow) : Prop :=
  b.updatedAt < a.updatedAt ∨ (b.updatedAt = a.updatedAt ∧ b.id ≤ a.id)

instance : DecidableRel Ranked := fun _ _ => inferInstanceAs (Decidable (_ ∨ _))

/-- `workReadingStatus.findMany` with the filter `p`. -/
def findMany (p : StatusRow → Bool) (cursor : Option ReadingListCursor) (take : Nat)
    (rows : Table StatusRow.id) : List StatusRow :=
  ((rows.rows.filter fun r => p r && afterCursor cursor r).insertionSort Ranked).take take

/-- The rows of a page and the cursor of the next one. -/
structure ReadingPage where
  items : List StatusRow
  nextCursor : Option String

/-- The page of at most `limit` rows after the cursor. -/
def readPage (p : StatusRow → Bool) (limit : Nat) (rows : Table StatusRow.id)
    (cursor : Option ReadingListCursor) : ReadingPage :=
  let found := findMany p cursor (limit + 1) rows
  let page := found.take limit
  { items := page
    nextCursor :=
      match page.getLast? with
      | none => none
      | some last => if limit < found.length then some (encodeCursor last.position) else none }

/-- `query.cursor === undefined ? undefined : decodeCursor(query.cursor)` -/
def queryCursor : Option String → Tx (Option ReadingListCursor)
  | none => .ok none
  | some raw => (decodeCursor raw).map some

/-- `ReadingListQueryRequest`, with the number that the text of `limit` is. -/
structure ReadingListQuery where
  status : Option ReadingStatus
  cursor : Option String
  limit : Option Nat

/-- The rows of the own list. -/
def ownRow (userId : UserId) (status : Option ReadingStatus) (r : StatusRow) : Bool :=
  r.userId == userId && match status with
    | some s => r.status == s
    | none => r.status == .reading || r.status == .read

/-- `ReadingStatusService.list` (reading-status.service.ts:219). -/
def list (userId : UserId) (query : ReadingListQuery) (rows : Table StatusRow.id) :
    Tx ReadingPage := do
  let cursor ← queryCursor query.cursor
  return readPage (ownRow userId query.status) (query.limit.getD 20) rows cursor

/-- The rows of the list of friends; `merged` are the works merged into another. -/
def friendRow (friendIds : List UserId) (merged : WorkId → Bool) (r : StatusRow) : Bool :=
  r.userId ∈ friendIds ∧ r.status = .reading ∧ merged r.workId = false

/-- `ReadingStatusService.friendsReading` (reading-status.service.ts:269), with the accepted
friends. -/
def friendsReading (friendIds : List UserId) (merged : WorkId → Bool) (cursor : Option String)
    (limit : Option Nat) (rows : Table StatusRow.id) : Tx ReadingPage := do
  let cursor ← queryCursor cursor
  if friendIds.isEmpty then return ⟨[], none⟩
  return readPage (friendRow friendIds merged) (limit.getD 12) rows cursor

/-- A client that follows `nextCursor`; `fetch i` is its `i`-th read. -/
def follow (fetch : Nat → Option String → Tx ReadingPage) :
    Nat → Nat → Option String → Option (Tx (List (List StatusRow)))
  | 0, _, _ => none
  | fuel + 1, i, cursor =>
    match fetch i cursor with
    | .error e => some (.error e)
    | .ok page =>
      match page.nextCursor with
      | none => some (.ok [page.items])
      | some next => (follow fetch fuel (i + 1) (some next)).map (Except.map (page.items :: ·))

/-! ### The same walk over keys -/

/-- The order of the list: downwards by `(updatedAt, id)`. -/
abbrev ReadingKey := (Int ×ₗ RowId)ᵒᵈ

def StatusRow.key (r : StatusRow) : ReadingKey := OrderDual.toDual (toLex (r.updatedAt, r.id))

def ReadingListCursor.key (c : ReadingListCursor) : ReadingKey :=
  OrderDual.toDual (toLex (c.updatedAt, c.id))

variable {p : StatusRow → Bool} {limit i fuel : Nat} {rows : Table StatusRow.id}
  {cursor : Option ReadingListCursor} {r r' : StatusRow}
  {tables : Nat → Table StatusRow.id}

omit [LinearOrder RowId] in
theorem id_of_key (h : r.key = r'.key) : r.id = r'.id := congrArg (fun k => k.2) h

theorem ranked_iff : Ranked r r' ↔ r.key ≤ r'.key := by
  show _ ↔ toLex (r'.updatedAt, r'.id) ≤ toLex (r.updatedAt, r.id)
  rw [Prod.Lex.toLex_le_toLex]
  exact Iff.rfl

theorem afterCursor_eq : afterCursor cursor r =
    Keyset.after (cursor.map ReadingListCursor.key) r.key := by
  cases cursor with
  | none => rfl
  | some c =>
    rw [Bool.eq_iff_iff, Option.map_some, after_some]
    show _ ↔ toLex (r.updatedAt, r.id) < toLex (c.updatedAt, c.id)
    rw [Prod.Lex.toLex_lt_toLex]
    exact decide_eq_true_iff

/-- The keys of the rows the query finds. -/
theorem map_key_findMany {take : Nat} : (findMany p cursor take rows).map StatusRow.key =
    (Keyset.rest (cursor.map ReadingListCursor.key)
      ((rows.rows.filter p).map StatusRow.key)).take take := by
  have hfilter : (rows.rows.filter fun r => p r && afterCursor cursor r).map StatusRow.key =
      ((rows.rows.filter p).map StatusRow.key).filter
        (Keyset.after (cursor.map ReadingListCursor.key)) := by
    rw [List.filter_map, List.filter_filter]
    refine congrArg (List.map _) (List.filter_congr fun r _ => ?_)
    rw [afterCursor_eq, Bool.and_comm]
    rfl
  rw [findMany, List.map_take, Keyset.rest, ← hfilter]
  exact congrArg (List.take take) (List.map_insertionSort _ _ _ _ fun a _ b _ => ranked_iff)

omit [LinearOrder RowId] in
theorem nodup_keys : ((rows.rows.filter p).map StatusRow.key).Nodup := by
  have hids : (((rows.rows.filter p).map StatusRow.key).map fun k => k.2).Nodup := by
    rw [List.map_map]
    exact rows.nodup.sublist (List.filter_sublist.map _)
  exact List.Nodup.of_map _ hids

/-- The walk through the rows that `p` accepts, by their keys. -/
def readingPaging (p : StatusRow → Bool) (limit : Nat) (tables : Nat → Table StatusRow.id) :
    Paging ReadingKey Unit Failure where
  size := limit
  limit := limit + 1
  size_le := Nat.le_succ _
  le_succ := Nat.le_refl _
  view i _ := ((tables i).rows.filter p).map StatusRow.key
  nodup _ _ := nodup_keys
  handle _ _ _ := .ok ()

/-- The `i`-th read of a client, when its query accepts the rows of `p`. -/
def fetchPage (p : StatusRow → Bool) (limit : Nat) (tables : Nat → Table StatusRow.id) (i : Nat)
    (cursor : Option String) : Tx ReadingPage := do
  let cursor ← queryCursor cursor
  return readPage p limit (tables i) cursor

theorem fetchPage_encoded : fetchPage p limit tables i (cursor.map encodeCursor) =
    .ok (readPage p limit (tables i) cursor) := by
  unfold fetchPage
  cases cursor with
  | none => rfl
  | some c =>
    rw [Option.map_some, queryCursor, decodeCursor_encodeCursor]
    rfl

theorem map_key_items : (readPage p limit rows cursor).items.map StatusRow.key =
    ((Keyset.rest (cursor.map ReadingListCursor.key)
      ((rows.rows.filter p).map StatusRow.key)).take (limit + 1)).take limit := by
  show ((findMany p cursor (limit + 1) rows).take limit).map _ = _
  rw [List.map_take, map_key_findMany]

theorem length_findMany : (findMany p cursor (limit + 1) (tables i)).length =
    ((readingPaging p limit tables).read i (cursor.map ReadingListCursor.key) ()).length := by
  have hkeys := congrArg List.length (@map_key_findMany _ p (tables i) cursor (limit + 1))
  rwa [List.length_map] at hkeys

/-- The page has a next one when the query found one row more, and then it has a last row. -/
theorem nextCursor_of_more (hlimit : 0 < limit)
    (hmore : limit < (findMany p cursor (limit + 1) rows).length) :
    ∃ last, (readPage p limit rows cursor).items.getLast? = some last ∧
      (readPage p limit rows cursor).nextCursor = some (encodeCursor last.position) := by
  unfold readPage
  dsimp only
  cases hlast : ((findMany p cursor (limit + 1) rows).take limit).getLast? with
  | none =>
    have hlen := congrArg List.length (List.getLast?_eq_none_iff.mp hlast)
    rw [List.length_take, List.length_nil] at hlen
    omega
  | some last =>
    dsimp only
    rw [if_pos hmore]
    exact ⟨last, rfl, rfl⟩

theorem nextCursor_of_last (hlast : ¬limit < (findMany p cursor (limit + 1) rows).length) :
    (readPage p limit rows cursor).nextCursor = none := by
  unfold readPage
  dsimp only
  split
  · rfl
  · exact if_neg hlast

/-- **The client's walk is the walk over keys**: the cursor survives its encoding. -/
theorem follow_eq_loop (hlimit : 0 < limit) :
    (follow (fetchPage p limit tables) fuel i (cursor.map encodeCursor)).map
        (Except.map (List.map (List.map StatusRow.key))) =
      ((readingPaging p limit tables).loop fuel i (cursor.map ReadingListCursor.key) ()).map
        (Except.map Prod.fst) := by
  induction fuel generalizing i cursor with
  | zero => rfl
  | succ fuel ih =>
    have hpage : (readPage p limit (tables i) cursor).items.map StatusRow.key =
        (readingPaging p limit tables).page i (cursor.map ReadingListCursor.key) () :=
      map_key_items
    have hread := @length_findMany _ p limit i cursor tables
    have hloop : (readingPaging p limit tables).loop (fuel + 1) i
          (cursor.map ReadingListCursor.key) () =
        if ((readingPaging p limit tables).read i (cursor.map ReadingListCursor.key) ()).length <
            limit + 1 then
          some (.ok ([(readingPaging p limit tables).page i
            (cursor.map ReadingListCursor.key) ()], ()))
        else
          ((readingPaging p limit tables).loop fuel (i + 1)
            (((readingPaging p limit tables).page i
              (cursor.map ReadingListCursor.key) ()).getLast?.or
                (cursor.map ReadingListCursor.key)) ()).map
            (Except.map fun r => ((readingPaging p limit tables).page i
              (cursor.map ReadingListCursor.key) () :: r.1, r.2)) := rfl
    rw [follow, fetchPage_encoded, hloop]
    dsimp only
    by_cases hmore : limit < (findMany p cursor (limit + 1) (tables i)).length
    · obtain ⟨last, hlast, hnext⟩ := nextCursor_of_more hlimit hmore
      have hkey : ((readingPaging p limit tables).page i
          (cursor.map ReadingListCursor.key) ()).getLast? = some last.position.key := by
        rw [← hpage, List.getLast?_map, hlast]
        rfl
      have hrest := @ih (i + 1) (some last.position)
      rw [Option.map_some, Option.map_some] at hrest
      rw [hnext, if_neg (by omega), hkey, Option.some_or]
      dsimp only
      cases hl : (readingPaging p limit tables).loop fuel (i + 1) (some last.position.key) () with
      | none =>
        rw [hl] at hrest
        rw [Option.map_eq_none_iff.mp hrest]
        rfl
      | some r =>
        rw [hl] at hrest
        obtain ⟨r', hr', heq⟩ := Option.map_eq_some_iff.mp hrest
        rw [hr']
        refine congrArg some ?_
        cases r' with
        | error e =>
          cases r with
          | error e' =>
            cases heq
            rfl
          | ok r => cases heq
        | ok pages =>
          cases r with
          | error e' => cases heq
          | ok r =>
            have hpages : pages.map (List.map StatusRow.key) = r.1 := Except.ok.inj heq
            show Except.ok (_ :: pages.map _) = Except.ok (_ :: r.1)
            rw [hpages, hpage]
    · rw [nextCursor_of_last hmore, if_pos (by omega)]
      dsimp only
      rw [← hpage]
      rfl

end Pages

end Bookswap
