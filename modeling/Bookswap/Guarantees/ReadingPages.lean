import Bookswap.ReadingStatus.ReadingStatusService
import Mathlib.Data.Finset.Union

/-!
# Following the cursor lists every row once

A client that follows `nextCursor` walks through `(updatedAt, id)` downwards. A row that
nobody touches keeps its key, so it stays in view until its page comes; a row that is set
meanwhile may be listed twice or not at all.

- `follow_lists`: on a table that rests, the pages are the rows in order.
- `follow_ends`: the walk ends when the calls of `set` do.
- `follow_untouched`: an untouched row is listed exactly once.
- `reading_list_pages`: both lists, and the cursors they hand out.
-/

namespace Bookswap

open Store Keyset JsonStrings

section Pages

variable [LinearOrder RowId] {p : StatusRow → Bool} {limit fuel i : Nat}
  {tables : Nat → Table StatusRow.id} {rows : Table StatusRow.id} {r : StatusRow}
  {pages : List (List StatusRow)} {sets : Nat → List SetStatus}

/-! ### The rows of a walk -/

theorem mem_items {cursor : Option ReadingListCursor}
    (h : r ∈ (readPage p limit rows cursor).items) : r ∈ rows ∧ p r = true := by
  have hfound : r ∈ rows.rows.filter fun r => p r && afterCursor cursor r :=
    (List.mem_insertionSort _).mp (List.mem_of_mem_take (List.mem_of_mem_take h))
  obtain ⟨hmem, hp⟩ := List.mem_filter.mp hfound
  exact ⟨hmem, (Bool.and_eq_true_iff.mp hp).1⟩

/-- Every row listed was in the table of its read. -/
theorem mem_of_follow {cursor : Option ReadingListCursor}
    (h : follow (fetchPage p limit tables) fuel i (cursor.map encodeCursor) = some (.ok pages))
    (hr : r ∈ pages.flatten) : ∃ j, r ∈ tables j ∧ p r = true := by
  induction fuel generalizing i cursor pages with
  | zero => cases h
  | succ fuel ih =>
    rw [follow, fetchPage_encoded] at h
    dsimp only at h
    by_cases hmore : ∃ last : StatusRow,
        (readPage p limit (tables i) cursor).nextCursor = some (encodeCursor last.position)
    · obtain ⟨last, hnext⟩ := hmore
      rw [hnext] at h
      obtain ⟨rest, hrest, hok⟩ := Option.map_eq_some_iff.mp h
      cases rest with
      | error e => cases hok
      | ok rest =>
        cases hok
        rw [List.flatten_cons, List.mem_append] at hr
        rcases hr with hr | hr
        · exact ⟨i, mem_items hr⟩
        · have hrest' : follow (fetchPage p limit tables) fuel (i + 1)
              ((some last.position).map encodeCursor) = some (.ok rest) := hrest
          exact ih hrest' hr
    · have hnone : (readPage p limit (tables i) cursor).nextCursor = none := by
        unfold readPage at hmore ⊢
        dsimp only at hmore ⊢
        split
        · rfl
        · rename_i last hlast
          rw [hlast] at hmore
          split
          · rename_i hlt
            exact absurd ⟨last, if_pos hlt⟩ hmore
          · rfl
      rw [hnone] at h
      cases h
      rw [List.flatten_singleton] at hr
      exact ⟨i, mem_items hr⟩

/-- The run over keys behind a walk of the client. -/
theorem run_of_follow (hlimit : 0 < limit)
    (h : follow (fetchPage p limit tables) fuel 0 none = some (.ok pages)) :
    (readingPaging p limit tables).Run 0 none () (pages.map (List.map StatusRow.key)) () := by
  have heq := @follow_eq_loop _ p limit 0 fuel none tables hlimit
  rw [Option.map_none, Option.map_none, h] at heq
  obtain ⟨r, hr, hok⟩ := Option.map_eq_some_iff.mp heq.symm
  obtain ⟨⟨keys, u⟩, rfl, rfl⟩ := Checked.map_eq_ok.mp hok
  exact Paging.run_of_loop hr

omit [LinearOrder RowId] in
theorem flatten_keys : (pages.map (List.map StatusRow.key)).flatten =
    pages.flatten.map StatusRow.key := List.map_flatten.symm

omit [LinearOrder RowId] in
/-- Two rows of one table with one key are one. -/
theorem eq_of_key {r' : StatusRow} (h : r ∈ rows) (h' : r' ∈ rows) (hkey : r.key = r'.key) :
    r = r' :=
  Table.eq_of_key_eq h h' (id_of_key hkey)

theorem nodup_flatten (hlimit : 0 < limit)
    (h : follow (fetchPage p limit tables) fuel 0 none = some (.ok pages)) :
    pages.flatten.Nodup := by
  have hkeys := (run_of_follow hlimit h).nodup
  rw [flatten_keys] at hkeys
  exact List.Nodup.of_map _ hkeys

/-- A row that is in the table at every read is listed. -/
theorem mem_flatten (hlimit : 0 < limit)
    (h : follow (fetchPage p limit tables) fuel 0 none = some (.ok pages))
    (hr : ∀ i, r ∈ tables i) (hp : p r = true) : r ∈ pages.flatten := by
  have hkey := ((run_of_follow hlimit h).handled (fun _ => True) (fun _ => True)
    (fun i _ _ => List.mem_map_of_mem (List.mem_filter.mpr ⟨hr i, hp⟩))
    (fun _ _ _ _ _ _ _ => trivial) (fun _ _ _ _ _ _ _ => trivial)
    (fun _ _ _ _ _ _ _ => trivial) (after_none r.key) trivial).1
  rw [flatten_keys] at hkey
  obtain ⟨r', hmem, heq⟩ := List.mem_map.mp hkey
  obtain ⟨j, hj, -⟩ := @mem_of_follow _ p limit fuel 0 tables r' pages none h hmem
  exact eq_of_key hj (hr j) heq ▸ hmem

/-! ### A table that rests, and one that is written -/

/-- **On a table that rests the pages are its rows, in order.** -/
theorem follow_lists (hlimit : 0 < limit)
    (h : follow (fetchPage p limit fun _ => rows) fuel 0 none = some (.ok pages)) :
    pages.flatten.Perm (rows.rows.filter p) ∧ pages.flatten.Pairwise Ranked := by
  constructor
  · have hrows : (rows.rows.filter p).Nodup := List.Nodup.of_map _ (@nodup_keys p rows)
    refine (List.perm_ext_iff_of_nodup (nodup_flatten hlimit h) hrows).mpr fun r => ?_
    constructor
    · intro hr
      obtain ⟨j, hj, hp⟩ := @mem_of_follow _ p limit fuel 0 (fun _ => rows) r pages none h hr
      exact List.mem_filter.mpr ⟨hj, hp⟩
    · intro hr
      obtain ⟨hmem, hp⟩ := List.mem_filter.mp hr
      exact mem_flatten hlimit h (fun _ => hmem) hp
  · have hasc := (run_of_follow hlimit h).ascending
    rw [flatten_keys, List.pairwise_map] at hasc
    exact hasc.imp fun hlt => ranked_iff.mpr (le_of_lt hlt)

/-- **The walk ends** when the table changes no more from some read on. -/
theorem follow_ends (hlimit : 0 < limit) {last : Nat} (hrest : ∀ i, last ≤ i → tables i = tables last) :
    ∃ fuel pages, follow (fetchPage p limit tables) fuel 0 none = some (.ok pages) := by
  let keys : Finset ReadingKey := (Finset.range (last + 1)).biUnion fun i =>
    (((tables i).rows.filter p).map StatusRow.key).toFinset
  have hview : ∀ i, ∀ k ∈ ((tables i).rows.filter p).map StatusRow.key, k ∈ keys := by
    intro i k hk
    refine Finset.mem_biUnion.mpr ⟨min i last, Finset.mem_range.mpr (by omega), ?_⟩
    have htable : tables (min i last) = tables i := by
      rcases Nat.le_total i last with hle | hle
      · rw [Nat.min_eq_left hle]
      · rw [Nat.min_eq_right hle, hrest i hle]
    rw [htable]
    exact List.mem_toFinset.mpr hk
  have hcard : (keys.filter fun k => Keyset.after none k = true).card < keys.card + 1 :=
    Nat.lt_succ_of_le (Finset.card_filter_le _ _)
  obtain ⟨r, hr⟩ : ∃ r, (readingPaging p limit tables).loop (keys.card + 1) 0 none () = some r :=
    Paging.loop_ends keys (fun _ => True) hlimit (fun i _ _ => hview i)
      (fun _ _ _ _ _ _ => trivial) trivial hcard
  have heq := @follow_eq_loop _ p limit 0 (keys.card + 1) none tables hlimit
  rw [Option.map_none, Option.map_none, hr] at heq
  cases r with
  | error e =>
    obtain ⟨j, c, u, -, herr⟩ := Paging.failed_page (fun _ => True) (fun _ _ _ _ _ _ => trivial)
      trivial hr
    cases herr
  | ok r =>
    obtain ⟨r', hr', hok⟩ := Option.map_eq_some_iff.mp heq
    obtain ⟨pages, rfl, -⟩ := Checked.map_eq_ok.mp hok
    exact ⟨keys.card + 1, pages, hr'⟩

omit [LinearOrder RowId] in
/-- No more calls, no more changes. -/
theorem tableAt_rests {last : Nat} (h : ∀ i, last < i → sets i = []) :
    ∀ i, last ≤ i → tableAt sets rows i = tableAt sets rows last := by
  intro i hi
  induction i, hi using Nat.le_induction with
  | base => rfl
  | succ i hi ih => rw [tableAt, h (i + 1) (Nat.lt_succ_of_le hi), List.foldl_nil, ih]

/-- **An untouched row is listed exactly once.** -/
theorem follow_untouched (hlimit : 0 < limit)
    (h : follow (fetchPage p limit (tableAt sets rows)) fuel 0 none = some (.ok pages))
    (hr : r ∈ rows) (hp : p r = true) (hu : Untouched sets r) : pages.flatten.count r = 1 :=
  List.count_eq_one_of_mem (nodup_flatten hlimit h)
    (mem_flatten hlimit h (mem_tableAt hr hu) hp)

/-! ### Both lists -/

/-- A reader whose `i`-th read sees the `i`-th table lists the rows of `p`: all of them in
order when the table rests; when statuses are set between the reads, the walk ends with
the calls and the rows they leave alone are listed once. -/
def ListsAll (p : StatusRow → Bool)
    (reads : (Nat → Table StatusRow.id) → Nat → Option String → Tx ReadingPage) : Prop :=
  (∀ rows, ∃ fuel pages, follow (reads fun _ => rows) fuel 0 none = some (.ok pages) ∧
    pages.flatten.Perm (rows.rows.filter p) ∧ pages.flatten.Pairwise Ranked) ∧
  ∀ rows sets,
    ((∃ last, ∀ i, last < i → sets i = []) →
      ∃ fuel pages, follow (reads (tableAt sets rows)) fuel 0 none = some (.ok pages)) ∧
    ∀ fuel pages, follow (reads (tableAt sets rows)) fuel 0 none = some (.ok pages) →
      ∀ r ∈ rows, p r = true → Untouched sets r → pages.flatten.count r = 1

theorem listsAll_fetchPage (hlimit : 0 < limit) : ListsAll p (fetchPage p limit) := by
  refine ⟨fun rows => ?_, fun rows sets => ⟨?_, ?_⟩⟩
  · obtain ⟨fuel, pages, h⟩ := @follow_ends _ p limit (fun _ => rows) hlimit 0 fun _ _ => rfl
    exact ⟨fuel, pages, h, follow_lists hlimit h⟩
  · rintro ⟨last, hlast⟩
    exact follow_ends hlimit (tableAt_rests hlast)
  · exact fun fuel pages h r hr hp hu => follow_untouched hlimit h hr hp hu

/-- The reads of the own list. -/
def ownReads (userId : UserId) (status : Option ReadingStatus) (limit : Option Nat)
    (tables : Nat → Table StatusRow.id) (i : Nat) (cursor : Option String) : Tx ReadingPage :=
  list userId ⟨status, cursor, limit⟩ (tables i)

/-- The reads of the list of friends. -/
def friendReads (friendIds : List UserId) (merged : WorkId → Bool) (limit : Option Nat)
    (tables : Nat → Table StatusRow.id) (i : Nat) (cursor : Option String) : Tx ReadingPage :=
  friendsReading friendIds merged cursor limit (tables i)

/-- Without friends the page is empty, as the query would find it. -/
theorem friendReads_eq {friendIds : List UserId} {merged : WorkId → Bool} {limit : Option Nat} :
    friendReads friendIds merged limit =
      fetchPage (friendRow friendIds merged) (limit.getD 12) := by
  funext tables i cursor
  unfold friendReads friendsReading fetchPage
  refine congrArg (queryCursor cursor >>= ·) (funext fun c => ?_)
  cases friendIds with
  | cons id ids => rfl
  | nil =>
    have hnone : findMany (friendRow [] merged) c (limit.getD 12 + 1) (tables i) = [] := by
      have hfilter : ((tables i).rows.filter fun r =>
          friendRow [] merged r && afterCursor c r) = [] :=
        List.filter_eq_nil_iff.mpr fun r _ => by simp [friendRow]
      rw [findMany, hfilter]
      rfl
    have hpage : readPage (friendRow [] merged) (limit.getD 12) (tables i) c = ⟨[], none⟩ := by
      unfold readPage
      rw [hnone]
      dsimp only
      rw [List.take_nil]
      rfl
    show (Except.ok _ : Tx ReadingPage) = .ok _
    rw [hpage]

omit [LinearOrder RowId] in
theorem getD_pos {limit : Option Nat} {default : Nat} (h : limit ≠ some 0) (hd : 0 < default) :
    0 < limit.getD default := by
  cases limit with
  | none => exact hd
  | some n => exact Nat.pos_of_ne_zero fun hn => h (congrArg some hn)

/-- **Pagination of the reading lists.** -/
theorem reading_list_pages :
    (∀ c, decodeCursor (encodeCursor c) = .ok c) ∧
    (∀ raw c, decodeCursor raw = .ok c ↔
      parsedCursor raw = some ((IsoDate.toISOString c.updatedAt).map unit, c.id.units)) ∧
    (∀ userId status limit, limit ≠ some 0 →
      ListsAll (ownRow userId status) (ownReads userId status limit)) ∧
    ∀ friendIds merged limit, limit ≠ some 0 →
      ListsAll (friendRow friendIds merged) (friendReads friendIds merged limit) := by
  refine ⟨decodeCursor_encodeCursor, fun raw c => decodeCursor_eq_ok_iff, ?_, ?_⟩
  · exact fun userId status limit h => listsAll_fetchPage (getD_pos h (by decide))
  · intro friendIds merged limit h
    rw [friendReads_eq]
    exact listsAll_fetchPage (getD_pos h (by decide))

end Pages

/-- The last millisecond of a year, and an id. -/
def lastPosition : ReadingListCursor := ⟨1767225599999, ⟨[unit 99, unit 109], by decide⟩, by decide⟩

/-- The cursor of `lastPosition` with a padding character is read as the same position. -/
theorem reading_list_pages_padded :
    ¬∀ raw c, decodeCursor raw = .ok c → ∃ c', raw = encodeCursor c' := by
  intro h
  have hread : decodeCursor "WyIyMDI1LTEyLTMxVDIzOjU5OjU5Ljk5OVoiLCJjbSJd=" =
      .ok lastPosition :=
    decodeCursor_eq_ok_iff.mpr (by decide +kernel)
  obtain ⟨c, hc⟩ := h _ _ hread
  have hback := decodeCursor_encodeCursor c
  rw [← hc, hread] at hback
  cases hback
  exact absurd hc (by decide +kernel)

end Bookswap
