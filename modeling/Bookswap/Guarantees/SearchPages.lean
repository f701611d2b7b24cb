import Bookswap.Guarantees.SearchPool
import Bookswap.Lib.PageSlices
import Bookswap.Search.SearchPages

/-!
# The pages of the shared list

A page that came back complete is cut out of the whole list: our own rows and behind them the pool
of everything that the sources can be read for. What the cache holds decides how far one search
gets, and nothing else. Every search that stops early has found a round missing that the next one
reads, as long as the blocks stay in the cache.

- `SearchWorld.RoundsRead`, `readBlocks_rounds`: the rounds of one search.
- `SearchWorld.search_slice`, `search_more_yes`, `search_more_no`: what an answer says of the pool.
- `SearchWorld.incomplete_next`: a repeat gets further.
- `SearchWorld.page_shown`, `next_nonempty`, `later_empty`: a page in the whole list.
- `search_pages_tile`: the pages of both services tile their list.
-/

namespace Bookswap

universe u

abbrev BlockCached := ExternalBookSource → Nat → Bool

variable {world : SearchWorld} {req : ExternalSearchRequest} {cached : BlockCached}

namespace SearchWorld


/-! ## The rounds of one search -/

/-- A source that still answers has no block of this round in the cache. -/
def Missing (world : SearchWorld) (cached : BlockCached) (i : Nat) : Prop :=
  ∃ state ∈ world.statesAfter i, state.isActive = true ∧ cached state.source i = false

/-- The blocks of the first rounds are in the cache. -/
def Holds (world : SearchWorld) (cached : BlockCached) (n : Nat) : Prop :=
  ∀ i < n, ∀ state ∈ world.statesAfter i, state.isActive = true → cached state.source i = true

theorem Holds.not_missing {n i : Nat} (h : world.Holds cached n) (hi : i < n) :
    ¬world.Missing cached i := by
  rintro ⟨state, hstate, hactive, hmissing⟩
  rw [h i hi state hstate hactive] at hmissing
  cases hmissing

/-- Some rounds were read, at most one of them from outside. -/
structure RoundsRead (world : SearchWorld) (req : ExternalSearchRequest) (cached : BlockCached)
    (reading : Reading) : Prop extends world.ReadingAfter req reading where
  le : reading.blocksRead ≤ MAX_BLOCKS
  spent : reading.fetchSpent = true ↔ ∃ i < reading.blocksRead, world.Missing cached i
  once : ∀ i j, i < reading.blocksRead → j < reading.blocksRead →
    world.Missing cached i → world.Missing cached j → i = j

/-- Why a search stops. -/
def Stops (world : SearchWorld) (cached : BlockCached) (needed : Nat) (reading : Reading) : Prop :=
  reading.blocksRead = MAX_BLOCKS ∨
  (∀ state ∈ world.statesAfter reading.blocksRead, state.isActive = false) ∨
  (world.Missing cached reading.blocksRead ∧ ∃ i < reading.blocksRead, world.Missing cached i) ∨
  needed ≤ reading.pool.length

theorem any_missing_iff (cached : BlockCached) {states : List ProviderState} {i : Nat}
    (hstates : states = world.statesAfter i) :
    ((states.filter ProviderState.isActive).any fun state =>
      decide (cached state.source i = false)) = true ↔ world.Missing cached i := by
  subst hstates
  rw [List.any_eq_true]
  constructor
  · rintro ⟨state, hstate, hmissing⟩
    obtain ⟨hstate, hactive⟩ := List.mem_filter.mp hstate
    exact ⟨state, hstate, hactive, of_decide_eq_true hmissing⟩
  · rintro ⟨state, hstate, hactive, hmissing⟩
    exact ⟨state, List.mem_filter.mpr ⟨hstate, hactive⟩, decide_eq_true hmissing⟩

/-- One more round. -/
theorem RoundsRead.next {reading : Reading} (h : world.RoundsRead req cached reading)
    {missing : Bool} (hmissing : missing = true ↔ world.Missing cached reading.blocksRead)
    (hlt : reading.blocksRead < MAX_BLOCKS)
    (hgoes : ¬(missing = true ∧ reading.fetchSpent = true)) :
    world.RoundsRead req cached ⟨world.statesAfter (reading.blocksRead + 1),
      world.poolOf req (world.entriesAfter (reading.blocksRead + 1)),
      missing || reading.fetchSpent, reading.blocksRead + 1⟩ := by
  refine ⟨⟨rfl, rfl⟩, hlt, ?_, fun i j hi hj hmi hmj => ?_⟩
  · show (missing || reading.fetchSpent) = true ↔ ∃ i < reading.blocksRead + 1, _
    rw [Bool.or_eq_true, hmissing, h.spent]
    constructor
    · rintro (hlast | ⟨i, hi, hm⟩)
      · exact ⟨_, Nat.lt_succ_self _, hlast⟩
      · exact ⟨i, Nat.lt_succ_of_lt hi, hm⟩
    · rintro ⟨i, hi, hm⟩
      rcases Nat.lt_succ_iff_lt_or_eq.mp hi with hi | rfl
      · exact .inr ⟨i, hi, hm⟩
      · exact .inl hm
  · -- a round that is missing now is the first one
    have hfirst : ∀ {k l}, k < reading.blocksRead → l = reading.blocksRead →
        world.Missing cached k → ¬world.Missing cached l := by
      rintro k l hk rfl hmk hml
      exact hgoes ⟨hmissing.mpr hml, h.spent.mpr ⟨k, hk, hmk⟩⟩
    have hi : i < reading.blocksRead + 1 := hi
    have hj : j < reading.blocksRead + 1 := hj
    rcases Nat.lt_succ_iff_lt_or_eq.mp hi with hi | hi
    · rcases Nat.lt_succ_iff_lt_or_eq.mp hj with hj | hj
      · exact h.once i j hi hj hmi hmj
      · exact absurd hmj (hfirst hi hj hmi)
    · rcases Nat.lt_succ_iff_lt_or_eq.mp hj with hj | hj
      · exact absurd hmi (hfirst hj hi hmj)
      · rw [hi, hj]

/-- **The loop**, by induction on the turns that are left. -/
theorem readBlocks_rounds (needed turns : Nat) {index : Nat} {reading : Reading}
    (h : world.RoundsRead req cached reading) (hindex : reading.blocksRead = index)
    (hturns : index + turns = MAX_BLOCKS) :
    world.RoundsRead req cached (world.readBlocks req cached needed turns index reading) ∧
      world.Stops cached needed (world.readBlocks req cached needed turns index reading) := by
  induction turns generalizing index reading with
  | zero => exact ⟨h, .inl (hindex.trans hturns)⟩
  | succ turns ih =>
    subst hindex
    have hmissing := any_missing_iff cached h.states
    unfold readBlocks
    dsimp only
    generalize (reading.states.filter ProviderState.isActive).any (fun state =>
      decide (cached state.source reading.blocksRead = false)) = missing at hmissing ⊢
    split
    · next hstop =>
      refine ⟨h, .inr ?_⟩
      rcases hstop with hidle | ⟨hm, hspent⟩
      · rw [h.states, List.filter_eq_nil_iff] at hidle
        exact .inl fun state hstate => Bool.eq_false_iff.mpr (hidle state hstate)
      · exact .inr (.inl ⟨hmissing.mp hm, h.spent.mp hspent⟩)
    · next hgoes =>
      have hnext := h.next hmissing (by omega) fun hboth => hgoes (.inr hboth)
      have hstates : world.readRound reading.blocksRead reading.states =
          world.statesAfter (reading.blocksRead + 1) := by
        rw [h.states]
        rfl
      rw [hstates]
      split
      · next hneeded => exact ⟨hnext, .inr (.inr (.inr hneeded))⟩
      · exact ih hnext rfl (by omega)

variable (world req) in
/-- **The rounds of a search.** -/
theorem readingOf_rounds (cached : BlockCached) :
    world.RoundsRead req cached (world.readingOf req cached) ∧
      world.Stops cached ((world.splitOf req).externalFrom + (world.splitOf req).externalCount + 1)
        (world.readingOf req cached) := by
  refine readBlocks_rounds _ _
    ⟨⟨rfl, ?_⟩, Nat.zero_le _, ?_, fun i j hi => absurd hi (Nat.not_lt_zero i)⟩ rfl rfl
  · show [] = world.poolOf req (world.entriesAfter 0)
    rw [entriesAfter_zero, poolOf_nil]
  · constructor
    · intro hspent
      cases hspent
    · rintro ⟨i, hi, -⟩
      exact absurd hi (Nat.not_lt_zero i)

/-! ## What an answer says about the pool -/

/-- The pool of everything that a search can read. -/
def wholePool (world : SearchWorld) (req : ExternalSearchRequest) : List ExternalSearchResult :=
  world.poolOf req (world.entriesAfter MAX_BLOCKS)

/-- The page has our own rows alone, and more of them follow. -/
def Local (world : SearchWorld) (req : ExternalSearchRequest) : Prop :=
  (world.splitOf req).externalCount = 0 ∧ req.page * req.pageSize < world.localTotalOf req

/-- Sources that have nothing more to say are left as they are. -/
theorem statesAfter_of_idle {n m : Nat}
    (hidle : ∀ state ∈ world.statesAfter n, state.isActive = false) (h : n ≤ m) :
    world.statesAfter m = world.statesAfter n := by
  induction m, h using Nat.le_induction with
  | base => rfl
  | succ m _ ih =>
    have hsame : ∀ state ∈ world.statesAfter n,
        (if state.isActive then state.readBlock (world.answers state.source m) m world.blockSize
          else state) = id state := by
      intro state hstate
      rw [hidle state hstate]
      rfl
    show world.readRound m (world.statesAfter m) = world.statesAfter n
    rw [ih, readRound, List.map_congr_left hsame, List.map_id]

/-- A search that cannot read more has the whole pool. -/
theorem RoundsRead.pool_eq_whole {reading : Reading} (h : world.RoundsRead req cached reading)
    (hdone : ¬(reading.blocksRead < MAX_BLOCKS ∧
      reading.states.any ProviderState.isActive = true)) :
    reading.pool = world.wholePool req := by
  rw [h.pool]
  unfold wholePool entriesAfter
  by_cases hlast : reading.blocksRead = MAX_BLOCKS
  · rw [hlast]
  · have hidle : ∀ state ∈ world.statesAfter reading.blocksRead, state.isActive = false := by
      intro state hstate
      refine Bool.eq_false_iff.mpr fun hactive => hdone ⟨Nat.lt_of_le_of_ne h.le hlast, ?_⟩
      rw [h.states]
      exact List.any_eq_true.mpr ⟨state, hstate, hactive⟩
    rw [statesAfter_of_idle hidle h.le]

theorem search_local (h : world.Local req) (cached : BlockCached) :
    world.search req cached = ⟨[], [], req.page, req.pageSize, .unknown, true⟩ := if_pos h

/-- The answer of a search that reads. -/
theorem search_read (h : ¬world.Local req) (cached : BlockCached) :
    world.search req cached =
      { results := ((world.readingOf req cached).pool.drop (world.splitOf req).externalFrom).take
          (world.splitOf req).externalCount
        sources := (world.readingOf req cached).states.map fun state => (state.source, state.status)
        page := req.page
        pageSize := req.pageSize
        more := if (world.splitOf req).externalFrom + (world.splitOf req).externalCount <
            (world.readingOf req cached).pool.length then .yes
          else if (world.readingOf req cached).blocksRead < MAX_BLOCKS ∧
            (world.readingOf req cached).states.any ProviderState.isActive then .unknown else .no
        complete := (((world.readingOf req cached).pool.drop (world.splitOf req).externalFrom).take
            (world.splitOf req).externalCount).length = (world.splitOf req).externalCount ∨
          ¬((world.readingOf req cached).blocksRead < MAX_BLOCKS ∧
            (world.readingOf req cached).states.any ProviderState.isActive) } := if_neg h

theorem search_results (h : ¬world.Local req) (cached : BlockCached) :
    (world.search req cached).results =
      ((world.readingOf req cached).pool.drop (world.splitOf req).externalFrom).take
        (world.splitOf req).externalCount := by
  rw [search_read h]

theorem search_complete_iff (h : ¬world.Local req) (cached : BlockCached) :
    (world.search req cached).complete = true ↔
      (world.search req cached).results.length = (world.splitOf req).externalCount ∨
        ¬((world.readingOf req cached).blocksRead < MAX_BLOCKS ∧
          (world.readingOf req cached).states.any ProviderState.isActive = true) := by
  rw [search_read h]
  exact decide_eq_true_iff

theorem roundsRead_of_read (h : ¬world.Local req) (cached : BlockCached) :
    world.roundsRead req cached = (world.readingOf req cached).blocksRead := if_neg h

/-- The answer is `YES` with a row in hand behind the page. -/
theorem search_more_yes (h : (world.search req cached).more = .yes) :
    ¬world.Local req ∧ (world.splitOf req).externalFrom + (world.splitOf req).externalCount <
      (world.readingOf req cached).pool.length := by
  by_cases hlocal : world.Local req
  · rw [search_local hlocal] at h
    cases h
  · refine ⟨hlocal, ?_⟩
    rw [search_read hlocal] at h
    dsimp only at h
    split at h
    · assumption
    · split at h <;> cases h

/-- The answer is `NO` when the whole pool ends with the page. -/
theorem search_more_no (h : (world.search req cached).more = .no) :
    ¬world.Local req ∧ (world.wholePool req).length ≤
      (world.splitOf req).externalFrom + (world.splitOf req).externalCount := by
  by_cases hlocal : world.Local req
  · rw [search_local hlocal] at h
    cases h
  · refine ⟨hlocal, ?_⟩
    rw [search_read hlocal] at h
    dsimp only at h
    split at h
    · cases h
    · next hends =>
      split at h
      · cases h
      · next hdone =>
        rw [← (readingOf_rounds world req cached).1.pool_eq_whole hdone]
        exact Nat.le_of_not_lt hends

/-! ### The pool that only grows -/

section Grows

variable (hgrows : ∀ {n m}, n ≤ m → GrowsTo ExternalSearchResult.Enriches
  (world.poolOf req (world.entriesAfter n)) (world.poolOf req (world.entriesAfter m)))

include hgrows

theorem reading_grows (cached : BlockCached) :
    GrowsTo ExternalSearchResult.Enriches (world.readingOf req cached).pool
      (world.wholePool req) := by
  have hrounds := (readingOf_rounds world req cached).1
  rw [hrounds.pool]
  exact hgrows hrounds.le

/-- **A complete page is cut out of the whole pool.** -/
theorem search_slice (hcomplete : (world.search req cached).complete = true) :
    List.Forall₂ ExternalSearchResult.Enriches (world.search req cached).results
      (((world.wholePool req).drop (world.splitOf req).externalFrom).take
        (world.splitOf req).externalCount) := by
  by_cases hlocal : world.Local req
  · rw [search_local hlocal, hlocal.1]
    exact .nil
  · have hresults := search_results hlocal cached
    rcases (search_complete_iff hlocal cached).mp hcomplete with hfull | hdone
    · rw [hresults] at hfull ⊢
      exact (reading_grows hgrows cached).forall₂_slice hfull
    · rw [hresults, (readingOf_rounds world req cached).1.pool_eq_whole hdone]
      exact List.forall₂_same.mpr fun r _ => .refl r

end Grows

/-! ## Asking again -/

/-- A page that is short only because the budget ran out has found a round missing. -/
theorem incomplete_missing (h : (world.search req cached).complete = false) :
    ¬world.Local req ∧ (world.readingOf req cached).blocksRead < MAX_BLOCKS ∧
      ∃ i < (world.readingOf req cached).blocksRead, world.Missing cached i := by
  have hlocal : ¬world.Local req := by
    intro hlocal
    rw [search_local hlocal] at h
    cases h
  have hnot : ¬(world.search req cached).complete = true := Bool.eq_false_iff.mp h
  rw [search_complete_iff hlocal cached, not_or, not_not] at hnot
  obtain ⟨hshort, hmax, hactive⟩ := hnot
  obtain ⟨hrounds, hstops⟩ := readingOf_rounds world req cached
  refine ⟨hlocal, hmax, ?_⟩
  rcases hstops with hlast | hidle | ⟨-, hspent⟩ | hneeded
  · omega
  · obtain ⟨state, hstate, hstill⟩ := List.any_eq_true.mp hactive
    rw [hrounds.states] at hstate
    rw [hidle state hstate] at hstill
    cases hstill
  · exact hspent
  · refine absurd ?_ hshort
    rw [search_results hlocal, List.length_take, List.length_drop]
    omega

/-- **A repeat gets further**, while the blocks that the search before it has read are there. -/
theorem incomplete_next {cached' : BlockCached} (h : (world.search req cached').complete = false)
    (hholds : world.Holds cached' (world.roundsRead req cached)) :
    world.roundsRead req cached < world.roundsRead req cached' := by
  obtain ⟨hlocal, -, i, hi, hmissing⟩ := incomplete_missing h
  rw [roundsRead_of_read hlocal cached']
  by_contra hless
  exact hholds.not_missing (i := i) (by omega) hmissing

/-- **Repeating ends.** -/
theorem repeats_end {cached : Nat → BlockCached}
    (hholds : ∀ k, world.Holds (cached (k + 1)) (world.roundsRead req (cached k))) :
    ∃ k ≤ MAX_BLOCKS, (world.search req (cached k)).complete = true := by
  by_contra hnever
  have hshort : ∀ k ≤ MAX_BLOCKS, (world.search req (cached k)).complete = false :=
    fun k hk => Bool.eq_false_iff.mpr fun hcomplete => hnever ⟨k, hk, hcomplete⟩
  -- the search with number `k` reads at least `k` rounds
  have hrounds : ∀ k ≤ MAX_BLOCKS, k ≤ world.roundsRead req (cached k) := by
    intro k
    induction k with
    | zero => exact fun _ => Nat.zero_le _
    | succ k ih =>
      intro hk
      have hfurther := incomplete_next (hshort (k + 1) hk) (hholds k)
      have hbefore := ih (by omega)
      omega
  obtain ⟨hlocal, hmax, -⟩ := incomplete_missing (hshort MAX_BLOCKS (Nat.le_refl _))
  have hlast := hrounds MAX_BLOCKS (Nat.le_refl _)
  rw [roundsRead_of_read hlocal] at hlast
  omega

end SearchWorld

/-! ## Page by page -/

/-- The same search for another page. -/
def ExternalSearchRequest.atPage (req : ExternalSearchRequest) (page : Nat) :
    ExternalSearchRequest := { req with page := page }

section Split

variable {page page' pageSize localTotal : Nat}

theorem page_mul (h : 0 < page) : page * pageSize = (page - 1) * pageSize + pageSize := by
  rw [← Nat.succ_mul, Nat.succ_eq_add_one, Nat.sub_add_cancel h]

/-- The page ends in the pool where the list does, once our own rows are over. -/
theorem split_last (h : 0 < page) (htotal : localTotal ≤ page * pageSize) :
    (splitSearchPage page pageSize localTotal).externalFrom +
      (splitSearchPage page pageSize localTotal).externalCount = page * pageSize - localTotal := by
  show ((page - 1) * pageSize - localTotal) +
    (pageSize - min (localTotal - (page - 1) * pageSize) pageSize) = _
  rw [page_mul h] at htotal ⊢
  omega

/-- A later page begins behind it. -/
theorem split_later (h : page < page') :
    page * pageSize - localTotal ≤ (splitSearchPage page' pageSize localTotal).externalFrom := by
  have hmul : page * pageSize ≤ (page' - 1) * pageSize := Nat.mul_le_mul_right _ (by omega)
  exact Nat.sub_le_sub_right hmul localTotal

/-- The next page is of the pool alone. -/
theorem split_next (htotal : localTotal ≤ page * pageSize) :
    (splitSearchPage (page + 1) pageSize localTotal).externalCount = pageSize := by
  show pageSize - min (localTotal - (page + 1 - 1) * pageSize) pageSize = pageSize
  rw [Nat.add_sub_cancel]
  omega

end Split

/-- **The local parts** of both services are the pages of their ranking. -/
theorem candidatesPage_rows {ρ : Type u} (ranked : List ρ) (pageSize i : Nat) :
    (candidatesPage ranked (i + 1) pageSize).rows = pageOf ranked pageSize i := by
  show (ranked.drop (min ((i + 1 - 1) * pageSize) ranked.length)).take
    (min (ranked.length - (i + 1 - 1) * pageSize) pageSize) = _
  rw [Nat.add_sub_cancel]
  unfold pageOf
  have hdrop : ranked.drop (min (i * pageSize) ranked.length) = ranked.drop (i * pageSize) :=
    List.drop_eq_drop_iff.mpr (by omega)
  rw [hdrop]
  refine List.take_eq_take_iff.mpr ?_
  rw [List.length_drop]
  omega

theorem addSearchPage_rows {ρ : Type u} (layout : List ρ) (pageSize i : Nat) :
    (addSearchPage layout (i + 1) pageSize).rows = pageOf layout pageSize i := rfl

namespace SearchWorld

/-- Our own rows are over when a page reads sources. -/
theorem total_le_of_read {page : Nat} (hpage : 0 < page) (h : ¬world.Local (req.atPage page)) :
    world.localTotalOf req ≤ page * req.pageSize := by
  by_contra hless
  refine h ⟨?_, Nat.lt_of_not_le hless⟩
  show req.pageSize - min (world.localTotalOf req - (page - 1) * req.pageSize) req.pageSize = 0
  rw [page_mul hpage] at hless
  omega

section Grows

variable (hgrows : ∀ {n m}, n ≤ m → GrowsTo ExternalSearchResult.Enriches
  (world.poolOf req (world.entriesAfter n)) (world.poolOf req (world.entriesAfter m)))

include hgrows

/-- One page of the shared list. -/
theorem page_shown {ρ : Type u} {rows : List ρ} (hrows : world.localTotalOf req = rows.length)
    {i : Nat} (hcomplete : (world.search (req.atPage (i + 1)) cached).complete = true) :
    List.Forall₂ (Sum.LiftRel Eq ExternalSearchResult.Enriches)
      ((pageOf rows req.pageSize i).map .inl ++
        (world.search (req.atPage (i + 1)) cached).results.map .inr)
      (pageOf (rows.map .inl ++ (world.wholePool req).map .inr) req.pageSize i) := by
  rw [pageOf_append, pageOf_map, List.length_map, ← List.map_drop, ← List.map_take]
  refine List.rel_append ?_ ?_
  · exact List.forall₂_same.mpr fun x hx => by
      obtain ⟨row, -, rfl⟩ := List.mem_map.mp hx
      exact .inl rfl
  · have hslice := @search_slice world (req.atPage (i + 1)) _ hgrows hcomplete
    have hcount : ((world.splitOf (req.atPage (i + 1))).externalCount) =
        req.pageSize - (rows.length - i * req.pageSize) := by
      show req.pageSize - min (world.localTotalOf req - (i + 1 - 1) * req.pageSize) req.pageSize = _
      rw [Nat.add_sub_cancel, hrows]
      omega
    have hfrom : (world.splitOf (req.atPage (i + 1))).externalFrom =
        i * req.pageSize - rows.length := by
      show (i + 1 - 1) * req.pageSize - world.localTotalOf req = _
      rw [Nat.add_sub_cancel, hrows]
    rw [hcount, hfrom] at hslice
    rw [List.forall₂_map_left_iff, List.forall₂_map_right_iff]
    exact hslice.imp fun _ _ h => .inr h

/-- **`YES` is kept**: the next page has a row, when it is complete, and already when the blocks
that were read for this one are still in the cache. -/
theorem next_nonempty {page : Nat} (hpage : 0 < page) (hsize : 0 < req.pageSize)
    (hyes : (world.search (req.atPage page) cached).more = .yes) {cached' : BlockCached}
    (hnext : (world.search (req.atPage (page + 1)) cached').complete = true ∨
      world.Holds cached' (world.roundsRead (req.atPage page) cached)) :
    (world.search (req.atPage (page + 1)) cached').results ≠ [] := by
  obtain ⟨hread, hmore⟩ := search_more_yes hyes
  have htotal := total_le_of_read hpage hread
  have hlast : world.localTotalOf req ≤ page * req.pageSize →
      (world.splitOf (req.atPage page)).externalFrom +
        (world.splitOf (req.atPage page)).externalCount =
          page * req.pageSize - world.localTotalOf req := split_last hpage
  rw [hlast htotal] at hmore
  have hwhole : page * req.pageSize - world.localTotalOf req < (world.wholePool req).length :=
    Nat.lt_of_lt_of_le hmore (@reading_grows world (req.atPage page) hgrows cached).length_le
  have hfrom : (world.splitOf (req.atPage (page + 1))).externalFrom =
      page * req.pageSize - world.localTotalOf req := by
    show (page + 1 - 1) * req.pageSize - world.localTotalOf req = _
    rw [Nat.add_sub_cancel]
  have hcount : (world.splitOf (req.atPage (page + 1))).externalCount = req.pageSize :=
    split_next htotal
  -- our own rows are over
  have hread' : ¬world.Local (req.atPage (page + 1)) := by
    rintro ⟨hnone, -⟩
    omega
  refine List.ne_nil_of_length_pos ?_
  rcases hnext with hcomplete | hholds
  · have hlength := (@search_slice world (req.atPage (page + 1)) _ hgrows hcomplete).length_eq
    rw [hlength, hfrom, hcount, List.length_take, List.length_drop]
    show 0 < min req.pageSize ((world.wholePool req).length - _)
    omega
  · rw [search_results hread', hfrom, hcount, List.length_take, List.length_drop]
    have hpool : page * req.pageSize - world.localTotalOf req <
        (world.readingOf (req.atPage (page + 1)) cached').pool.length := by
      obtain ⟨hrounds, -⟩ := readingOf_rounds world (req.atPage page) cached
      obtain ⟨hrounds', hstops⟩ := readingOf_rounds world (req.atPage (page + 1)) cached'
      rw [roundsRead_of_read hread] at hholds
      rcases hstops with hend | hidle | ⟨-, i, hi, hmissing⟩ | hneeded
      · rw [hrounds'.pool_eq_whole fun hgoes => by omega]
        exact hwhole
      · rw [hrounds'.pool_eq_whole fun hgoes => ?_]
        · exact hwhole
        · obtain ⟨state, hstate, hactive⟩ := List.any_eq_true.mp hgoes.2
          rw [hrounds'.states] at hstate
          rw [hidle state hstate] at hactive
          cases hactive
      · -- it has come past the rounds that are in the cache
        have hpast : (world.readingOf (req.atPage page) cached).blocksRead ≤ i :=
          Nat.le_of_not_lt fun hless => hholds.not_missing hless hmissing
        rw [hrounds'.pool]
        rw [hrounds.pool] at hmore
        exact Nat.lt_of_lt_of_le hmore (hgrows (by omega)).length_le
      · rw [hfrom, hcount] at hneeded
        omega
    omega

/-- **`NO` is final.** -/
theorem later_empty {page page' : Nat} (hpage : 0 < page) (hlater : page < page')
    (hno : (world.search (req.atPage page) cached).more = .no) (cached' : BlockCached) :
    (world.search (req.atPage page') cached').results = [] := by
  obtain ⟨hread, hends⟩ := search_more_no hno
  have htotal := total_le_of_read hpage hread
  have hlast : (world.splitOf (req.atPage page)).externalFrom +
      (world.splitOf (req.atPage page)).externalCount =
        page * req.pageSize - world.localTotalOf req := split_last hpage htotal
  have hbehind : page * req.pageSize - world.localTotalOf req ≤
      (world.splitOf (req.atPage page')).externalFrom := split_later hlater
  have hwhole : (world.wholePool req).length ≤ page * req.pageSize - world.localTotalOf req :=
    hlast ▸ hends
  by_cases hlocal : world.Local (req.atPage page')
  · rw [search_local hlocal]
  · have hpool := (@reading_grows world (req.atPage page') hgrows cached').length_le
    have hpool : (world.readingOf (req.atPage page') cached').pool.length ≤
        (world.wholePool req).length := hpool
    rw [search_results hlocal, List.drop_eq_nil_of_le (by omega), List.take_nil]

end Grows

end SearchWorld

/-! ## Both services -/

/-- The pages of one search tile the shared list of its rows and its pool. -/
structure Tiles {ρ : Type u} (world : SearchWorld) (req : ExternalSearchRequest) (rows : List ρ)
    (localPage : List ρ → Nat → Nat → LocalPage ρ) : Prop where
  /-- Complete pages are a front of the list, each row where it is and as far as it was read. -/
  tiles : ∀ (cached : Nat → BlockCached) n,
    (∀ i < n, (world.search (req.atPage (i + 1)) (cached i)).complete = true) →
    List.Forall₂ (Sum.LiftRel Eq ExternalSearchResult.Enriches)
      ((List.range n).flatMap fun i => (localPage rows (i + 1) req.pageSize).rows.map Sum.inl ++
        (world.search (req.atPage (i + 1)) (cached i)).results.map Sum.inr)
      ((rows.map Sum.inl ++ (world.wholePool req).map Sum.inr).take (n * req.pageSize))
  /-- Every record that can be read is in exactly one row of the pool before the filters. -/
  once : ∃ parts, List.Forall₂ MadeFrom parts
      (mergeResults world.text req.query (world.entriesAfter MAX_BLOCKS)) ∧
    parts.flatten.Perm ((world.entriesAfter MAX_BLOCKS).map RankedResult.result)
  more_yes : ∀ page cached cached', 0 < page →
    (world.search (req.atPage page) cached).more = .yes →
    ((world.search (req.atPage (page + 1)) cached').complete = true ∨
      world.Holds cached' (world.roundsRead (req.atPage page) cached)) →
    (world.search (req.atPage (page + 1)) cached').results ≠ []
  more_no : ∀ page page' cached cached', 0 < page → page < page' →
    (world.search (req.atPage page) cached).more = .no →
    (world.search (req.atPage page') cached').results = []
  oneRound : ∀ page cached i j, i < world.roundsRead (req.atPage page) cached →
    j < world.roundsRead (req.atPage page) cached →
    world.Missing cached i → world.Missing cached j → i = j
  repeats : ∀ page (cached : Nat → BlockCached),
    (∀ k, world.Holds (cached (k + 1)) (world.roundsRead (req.atPage page) (cached k))) →
    ∃ k ≤ MAX_BLOCKS, (world.search (req.atPage page) (cached k)).complete = true

theorem SearchWorld.oneRound {i j : Nat} (hi : i < world.roundsRead req cached)
    (hj : j < world.roundsRead req cached) (hmi : world.Missing cached i)
    (hmj : world.Missing cached j) : i = j := by
  by_cases hlocal : world.Local req
  · rw [show world.roundsRead req cached = 0 from if_pos hlocal] at hi
    exact absurd hi (Nat.not_lt_zero i)
  · rw [SearchWorld.roundsRead_of_read hlocal] at hi hj
    exact (SearchWorld.readingOf_rounds world req cached).1.once i j hi hj hmi hmj

theorem tiles_of_grows {ρ : Type u} {rows : List ρ} {localPage : List ρ → Nat → Nat → LocalPage ρ}
    (hwork : ∀ r, world.Delivers r → r.kind = .work → r.isbn13 = none)
    (hids : req.matchLocal = true → ∀ r r', world.Delivers r → world.Delivers r' → r.id = r'.id →
      r.kind = r'.kind ∧ r.isbn13 = r'.isbn13)
    (hsize : 0 < req.pageSize) (hrows : world.localTotalOf req = rows.length)
    (hpage : ∀ i, (localPage rows (i + 1) req.pageSize).rows = pageOf rows req.pageSize i) :
    Tiles world req rows localPage := by
  have hgrows : ∀ {n m}, n ≤ m → GrowsTo ExternalSearchResult.Enriches
      (world.poolOf req (world.entriesAfter n)) (world.poolOf req (world.entriesAfter m)) :=
    SearchWorld.poolOf_entriesAfter_grows hwork hids
  refine ⟨fun cached n hcomplete => ?_, ?_,
    fun page cached cached' hp hyes hnext => SearchWorld.next_nonempty hgrows hp hsize hyes hnext,
    fun page page' cached cached' hp hlater hno =>
      SearchWorld.later_empty hgrows hp hlater hno cached',
    fun page cached i j => SearchWorld.oneRound, fun page cached => SearchWorld.repeats_end⟩
  · refine forall₂_pages fun i hi => ?_
    rw [hpage i]
    exact SearchWorld.page_shown hgrows hrows (hcomplete i hi)
  · exact mergeResults_gathers (SearchWorld.worksUnnumbered hwork MAX_BLOCKS)

/-- **The pages of a search tile its list**: of the candidates, and of the page that adds books when
the records of one id are one thing. -/
theorem search_pages_tile (world : SearchWorld)
    (hwork : ∀ r, world.Delivers r → r.kind = .work → r.isbn13 = none) (query : String)
    {pageSize : Nat} (hsize : 0 < pageSize) (byEditionOrder : Edition → Edition → Int)
    (exactIsbn : Option String) :
    Tiles world ⟨query, 1, pageSize, none, false⟩ world.matches_ candidatesPage ∧
      ((∀ r r', world.Delivers r → world.Delivers r' → r.id = r'.id →
          r.kind = r'.kind ∧ r.isbn13 = r'.isbn13) →
        Tiles world ⟨query, 1, pageSize,
            some (world.db.layout byEditionOrder exactIsbn world.matches_).length, true⟩
          (world.db.layout byEditionOrder exactIsbn world.matches_) addSearchPage) :=
  ⟨tiles_of_grows hwork (fun h => absurd h Bool.false_ne_true) hsize rfl
      (candidatesPage_rows _ pageSize),
    fun hids => tiles_of_grows hwork (fun _ => hids) hsize rfl (addSearchPage_rows _ pageSize)⟩

theorem search_pages_tile_volumes :
    Tiles (twoBlocks [volumeU, numberedV] [numberedV]) ⟨"q", 1, 12, none, false⟩
        ([] : List WorkId) candidatesPage ∧
      Tiles (twoBlocks [volumeU, numberedV] [numberedV]) ⟨"q", 1, 12, some 0, true⟩
        ([] : List LayoutRow) addSearchPage := by
  obtain ⟨hcandidates, hadd⟩ := search_pages_tile (twoBlocks [volumeU, numberedV] [numberedV])
    (twoBlocks_works (by decide)) "q" (show 0 < 12 by decide) (fun _ _ => 0) none
  refine ⟨hcandidates, hadd fun r r' hr hr' => ?_⟩
  have hagree : ∀ r ∈ [volumeU, numberedV] ++ [numberedV],
      ∀ r' ∈ [volumeU, numberedV] ++ [numberedV],
      r.id = r'.id → r.kind = r'.kind ∧ r.isbn13 = r'.isbn13 := by decide
  exact hagree r (twoBlocks_delivers hr) r' (twoBlocks_delivers hr')

/-- **A page is empty that the one before it has promised**, when a volume turns out to be an
edition that is shown already; and a page is never complete when its blocks are gone before it is
repeated. -/
theorem search_pages_untiled :
    let world := twoBlocks [volumeU, volumeV] [numberedV]
    let req : ExternalSearchRequest := ⟨"q", 1, 1, some 0, true⟩
    let deep : ExternalSearchRequest := ⟨"q", 1, 3, some 0, true⟩
    (world.search (req.atPage 1) fun _ _ => false).more = .yes ∧
      (world.search (req.atPage 2) fun _ i => i = 0).complete = true ∧
      (world.search (req.atPage 2) fun _ i => i = 0).results = [] ∧
      ∀ k : Nat,
        (world.search (deep.atPage 1) ((fun _ _ _ => false : Nat → BlockCached) k)).complete =
          false := by
  refine ⟨by decide +kernel, by decide +kernel, ?_, fun k => ?_⟩
  · exact List.length_eq_zero_iff.mp (by decide +kernel)
  · show ((twoBlocks [volumeU, volumeV] [numberedV]).search ⟨"q", 1, 3, some 0, true⟩
      fun _ _ => false).complete = false
    decide +kernel

end Bookswap
