import Bookswap.Search.ExternalSearchService
import Bookswap.Search.MergeInvariant

/-!
# The external pool grows at its end

`mergeResults` leaves the rows of earlier blocks where they are, and enriches them. The filters
behind it look at the id, the kind and the ISBN of a row, which enriching does not change; but the
matcher answers by id, so it takes records with one id to be one thing.

- `withoutKnown_grows`, `markLocalEditions_grows`: the two filters.
- `external_pool_grows`: every list on the way to a page, and the pools of two searches.
- `external_pool_shifts`: a source that gives one id with and without an ISBN moves a page.
-/

namespace Bookswap

open ResultMerge

variable {text : SearchText} {query : String} {ranked : List RankedResult}

/-! ## The filters -/

theorem withoutKnown_grows (known : KnownEditions) {xs ys : List ExternalSearchResult}
    (h : GrowsTo ExternalSearchResult.Enriches xs ys) :
    GrowsTo ExternalSearchResult.Enriches (withoutKnown known xs) (withoutKnown known ys) :=
  h.filter fun x y hxy => by rw [hxy.isbn13]

/-- Records with one id are one thing. -/
def IdsAgree (records : List ExternalSearchResult) : Prop :=
  ∀ r ∈ records, ∀ r' ∈ records, r.id = r'.id → r.kind = r'.kind ∧ r.isbn13 = r'.isbn13

/-- The edition of a record depends on its id, kind and ISBN. -/
theorem editionOf_congr (db : CatalogDb) {r r' : ExternalSearchResult} (hid : r.id = r'.id)
    (hkind : r.kind = r'.kind) (hisbn : r.isbn13 = r'.isbn13) : db.editionOf r = db.editionOf r' := by
  unfold CatalogDb.editionOf ExternalSearchResult.referenceOf
  rw [hid, hkind, hisbn]

theorem setMatch_apply (db : CatalogDb) (found : String → Option EditionId)
    (record : ExternalSearchResult) (id : String) :
    setMatch db found record id =
      if record.id = id then (db.editionOf record <|> found id) else found id := by
  unfold setMatch
  cases hedition : db.editionOf record with
  | none => split <;> rfl
  | some editionId =>
    by_cases hid : record.id = id
    · subst hid
      simp
    · rw [if_neg hid]
      exact Function.update_of_ne (Ne.symm hid) ..

/-- What the map says of an id that stands for one edition. -/
theorem foldl_setMatch (db : CatalogDb) {id : String} (edition : Option EditionId)
    {records : List ExternalSearchResult}
    (hrecords : ∀ r ∈ records, r.id = id → db.editionOf r = edition)
    (found : String → Option EditionId) :
    records.foldl (setMatch db) found id =
      if ∃ r ∈ records, r.id = id then (edition <|> found id) else found id := by
  induction records generalizing found with
  | nil => simp
  | cons r records ih =>
    rw [List.foldl_cons, ih fun x hx => hrecords x (List.mem_cons_of_mem _ hx), setMatch_apply]
    by_cases hid : r.id = id
    · have hself : ∃ x ∈ r :: records, x.id = id := ⟨r, List.mem_cons_self, hid⟩
      rw [if_pos hid, hrecords r List.mem_cons_self hid, if_pos hself]
      split
      · cases edition <;> simp
      · rfl
    · simp [hid]

/-- **The matcher** finds for a record its own edition, when ids agree. -/
theorem matchLocal_apply (db : CatalogDb) {records : List ExternalSearchResult}
    (hids : IdsAgree records) {r : ExternalSearchResult} (hr : r ∈ records) :
    db.matchLocal records r.id = db.editionOf r := by
  have hmem : ∀ x, x ∈ (records.filter fun x => x.kind = .work) ++
      (records.filter fun x => x.kind = .edition) ↔ x ∈ records := by
    intro x
    rw [List.mem_append, List.mem_filter, List.mem_filter]
    cases hkind : x.kind <;> simp
  unfold CatalogDb.matchLocal
  rw [foldl_setMatch db (db.editionOf r), if_pos ⟨r, (hmem r).mpr hr, rfl⟩]
  · cases db.editionOf r <;> rfl
  · intro x hx hid
    obtain ⟨hkind, hisbn⟩ := hids x ((hmem x).mp hx) r hr hid
    exact editionOf_congr db hid hkind hisbn

/-- Marking keeps the positions, when what is found of a row does not change. -/
theorem markFrom_grows {found found' : String → Option EditionId} {shown : List EditionId}
    {xs ys : List ExternalSearchResult} (h : GrowsTo ExternalSearchResult.Enriches xs ys)
    (hfound : ∀ x ∈ xs, ∀ y ∈ ys, x.Enriches y → found' y.id = found x.id) (seen : List EditionId) :
    GrowsTo ExternalSearchResult.Enriches (markFrom found shown seen xs)
      (markFrom found' shown seen ys) := by
  induction h generalizing seen with
  | nil ys => exact .nil _
  | @cons x y xs ys hxy _ ih =>
    have hrest : ∀ a ∈ xs, ∀ b ∈ ys, a.Enriches b → found' b.id = found a.id :=
      fun a ha b hb => hfound a (List.mem_cons_of_mem _ ha) b (List.mem_cons_of_mem _ hb)
    unfold markFrom
    rw [hfound x List.mem_cons_self y List.mem_cons_self hxy]
    cases found x.id with
    | none => exact .cons hxy (ih hrest seen)
    | some editionId =>
      dsimp only
      split
      · exact ih hrest seen
      · exact .cons { hxy with localEditionId := Fills.refl _ } (ih hrest _)

theorem markLocalEditions_grows (db : CatalogDb) (shown : List EditionId)
    {xs ys : List ExternalSearchResult} (h : GrowsTo ExternalSearchResult.Enriches xs ys)
    (hxs : IdsAgree xs) (hys : IdsAgree ys) :
    GrowsTo ExternalSearchResult.Enriches (markLocalEditions db shown xs)
      (markLocalEditions db shown ys) := by
  refine markFrom_grows h (fun x hx y hy hxy => ?_) []
  rw [matchLocal_apply db hxs hx, matchLocal_apply db hys hy]
  exact editionOf_congr db hxy.id hxy.kind hxy.isbn13

/-! ## The pool of what was read -/

/-- Rows of the merged list agree where the records do. -/
theorem mergeResults_idsAgree (hwork : WorksUnnumbered ranked)
    (hids : IdsAgree (ranked.map RankedResult.result)) :
    IdsAgree (mergeResults text query ranked) := by
  intro r hr r' hr' hid
  obtain ⟨entry, hentry, hbase⟩ := mergeResults_based hwork hr
  obtain ⟨entry', hentry', hbase'⟩ := mergeResults_based hwork hr'
  have h := hids _ (List.mem_map_of_mem hentry) _ (List.mem_map_of_mem hentry')
    (hbase.id.symm.trans (hid.trans hbase'.id))
  exact ⟨hbase.kind.trans (h.1.trans hbase'.kind.symm),
    hbase.isbn13.trans (h.2.trans hbase'.isbn13.symm)⟩

theorem IdsAgree.mono {xs ys : List ExternalSearchResult} (h : IdsAgree ys) (hsub : xs ⊆ ys) :
    IdsAgree xs := fun r hr r' hr' => h r (hsub hr) r' (hsub hr')

theorem ResultMerge.WorksUnnumbered.upTo (h : WorksUnnumbered ranked) (k : Nat) :
    WorksUnnumbered (ResultMerge.upTo k ranked) := fun entry hentry => h entry (List.mem_of_mem_filter hentry)

theorem IdsAgree.upTo (h : IdsAgree (ranked.map RankedResult.result)) (k : Nat) :
    IdsAgree ((ResultMerge.upTo k ranked).map RankedResult.result) :=
  h.mono (List.map_subset _ (List.filter_subset_self _))

theorem upTo_upTo {k k' : Nat} (h : k ≤ k') : upTo k (upTo k' ranked) = upTo k ranked := by
  unfold upTo
  rw [List.filter_filter]
  refine List.filter_congr fun entry _ => ?_
  by_cases hb : entry.block ≤ k
  · simp [hb, Nat.le_trans hb h]
  · simp [hb]

theorem mergeResults_upTo_grows (hwork : WorksUnnumbered ranked) {k k' : Nat} (h : k ≤ k') :
    GrowsTo ExternalSearchResult.Enriches (mergeResults text query (upTo k ranked))
      (mergeResults text query (upTo k' ranked)) := by
  have hgrows := mergeResults_grows text query (hwork.upTo k') k
  rwa [upTo_upTo h] at hgrows

variable {world : SearchWorld} {req : ExternalSearchRequest}

variable (world req) in
/-- **The pool of a search grows at its end.** -/
theorem poolOf_grows (hwork : WorksUnnumbered ranked)
    (hids : req.matchLocal = true → IdsAgree (ranked.map RankedResult.result)) {k k' : Nat}
    (h : k ≤ k') :
    GrowsTo ExternalSearchResult.Enriches (world.poolOf req (upTo k ranked))
      (world.poolOf req (upTo k' ranked)) := by
  have hmerged : GrowsTo ExternalSearchResult.Enriches
      (mergeResults world.text req.query (upTo k ranked))
      (mergeResults world.text req.query (upTo k' ranked)) := mergeResults_upTo_grows hwork h
  have hagree : ∀ j, req.matchLocal = true →
      IdsAgree (withoutKnown world.known (mergeResults world.text req.query (upTo j ranked))) :=
    fun j hm => (mergeResults_idsAgree (hwork.upTo j) ((hids hm).upTo j)).mono
      (List.filter_subset_self _)
  unfold SearchWorld.poolOf
  by_cases hm : req.matchLocal = true
  · simp only [if_pos hm]
    exact markLocalEditions_grows world.db _ (withoutKnown_grows _ hmerged) (hagree k hm)
      (hagree k' hm)
  · simp only [if_neg hm]
    exact withoutKnown_grows _ hmerged

/-! ## What a search has read -/

namespace SearchWorld

/-- A record that some source answers with. -/
def Delivers (world : SearchWorld) (r : ExternalSearchResult) : Prop :=
  ∃ source index block, world.answers source index = .ok block ∧ r ∈ block.results

/-- The sources after some rounds. -/
def statesAfter (world : SearchWorld) : Nat → List ProviderState
  | 0 => world.providers.map .start
  | n + 1 => world.readRound n (world.statesAfter n)

def entriesAfter (world : SearchWorld) (n : Nat) : List RankedResult :=
  (world.statesAfter n).flatMap ProviderState.entries

/-- A block adds its own entries. -/
theorem entries_readBlock (answer : BlockAnswer) (index size : Nat) (state : ProviderState) :
    ∃ added, (state.readBlock answer index size).entries = state.entries ++ added ∧
      ∀ e ∈ added, e.block = index ∧ ∃ block, answer = .ok block ∧ e.result ∈ block.results := by
  unfold ProviderState.readBlock
  cases answer with
  | error failure => exact ⟨[], (List.append_nil _).symm, fun e he => nomatch he⟩
  | ok block =>
    refine ⟨_, rfl, fun e he => ?_⟩
    obtain ⟨x, hx, rfl⟩ := List.mem_map.mp he
    exact ⟨rfl, block, rfl, List.fst_mem_of_mem_zipIdx hx⟩

/-- A round adds the entries of its block. -/
theorem entries_readRound (world : SearchWorld) (n : Nat) (state : ProviderState) :
    ∃ added, (if state.isActive then
        state.readBlock (world.answers state.source n) n world.blockSize else state).entries =
        state.entries ++ added ∧
      ∀ e ∈ added, e.block = n ∧ world.Delivers e.result := by
  split
  · obtain ⟨added, hadded, hof⟩ := entries_readBlock (world.answers state.source n) n
      world.blockSize state
    refine ⟨added, hadded, fun e he => ?_⟩
    obtain ⟨hblock, block, hanswer, hmem⟩ := hof e he
    exact ⟨hblock, state.source, n, block, hanswer, hmem⟩
  · exact ⟨[], (List.append_nil _).symm, fun e he => nomatch he⟩

/-- What was read came from a source, in an earlier round. -/
theorem mem_entriesAfter {n : Nat} {e : RankedResult} (he : e ∈ world.entriesAfter n) :
    e.block < n ∧ world.Delivers e.result := by
  induction n with
  | zero =>
    obtain ⟨state, hstate, he⟩ := List.mem_flatMap.mp he
    obtain ⟨source, -, rfl⟩ := List.mem_map.mp hstate
    cases he
  | succ n ih =>
    obtain ⟨state', hstate, he⟩ := List.mem_flatMap.mp he
    obtain ⟨state, hmem, rfl⟩ := List.mem_map.mp hstate
    obtain ⟨added, hentries, hadded⟩ := world.entries_readRound n state
    rw [hentries] at he
    rcases List.mem_append.mp he with he | he
    · obtain ⟨hblock, hdelivers⟩ := ih (List.mem_flatMap.mpr ⟨state, hmem, he⟩)
      exact ⟨Nat.lt_succ_of_lt hblock, hdelivers⟩
    · obtain ⟨hblock, hdelivers⟩ := hadded e he
      exact ⟨by omega, hdelivers⟩

/-- A later round adds nothing to the earlier blocks. -/
theorem upTo_entriesAfter_succ {k n : Nat} (h : k < n) :
    upTo k (world.entriesAfter (n + 1)) = upTo k (world.entriesAfter n) := by
  unfold upTo entriesAfter
  rw [List.filter_flatMap, List.filter_flatMap]
  show ((world.statesAfter n).map _).flatMap _ = _
  rw [List.flatMap_map]
  refine List.flatMap_congr fun state _ => ?_
  obtain ⟨added, hentries, hadded⟩ := world.entries_readRound n state
  have hnone : (added.filter fun e => e.block ≤ k) = [] := by
    refine List.filter_eq_nil_iff.mpr fun e he => ?_
    have hblock := (hadded e he).1
    rw [decide_eq_true_eq]
    omega
  rw [hentries, List.filter_append, hnone, List.append_nil]

/-- **The blocks of a shorter search** are the first blocks of a longer one. -/
theorem upTo_entriesAfter {n m : Nat} (h : n + 1 ≤ m) :
    upTo n (world.entriesAfter m) = world.entriesAfter (n + 1) := by
  induction m, h using Nat.le_induction with
  | base =>
    refine List.filter_eq_self.mpr fun e he => decide_eq_true ?_
    have hblock := (mem_entriesAfter he).1
    omega
  | succ m hm ih => rw [upTo_entriesAfter_succ (by omega), ih]

theorem upTo_entriesAfter_self (n : Nat) :
    upTo n (world.entriesAfter n) = world.entriesAfter n :=
  List.filter_eq_self.mpr fun _ he => decide_eq_true (mem_entriesAfter he).1.le

theorem entriesAfter_zero : world.entriesAfter 0 = [] := by
  refine List.flatMap_eq_nil_iff.mpr fun state hstate => ?_
  obtain ⟨source, -, rfl⟩ := List.mem_map.mp hstate
  rfl

theorem poolOf_nil : world.poolOf req [] = [] := by
  unfold poolOf
  split <;> rfl

/-- The loop stops after some rounds, with the pool of what they read. -/
structure ReadingAfter (world : SearchWorld) (req : ExternalSearchRequest) (reading : Reading) :
    Prop where
  states : reading.states = world.statesAfter reading.blocksRead
  pool : reading.pool = world.poolOf req (world.entriesAfter reading.blocksRead)

theorem readBlocks_after (cached : ExternalBookSource → Nat → Bool) (needed turns : Nat)
    {index : Nat} {reading : Reading} (h : world.ReadingAfter req reading)
    (hindex : reading.blocksRead = index) :
    world.ReadingAfter req (world.readBlocks req cached needed turns index reading) := by
  induction turns generalizing index reading with
  | zero => exact h
  | succ turns ih =>
    unfold readBlocks
    dsimp only
    split
    · exact h
    · have hstates : world.readRound index reading.states = world.statesAfter (index + 1) := by
        rw [h.states, hindex]
        rfl
      have hnext : world.ReadingAfter req ⟨world.readRound index reading.states,
          world.poolOf req ((world.readRound index reading.states).flatMap ProviderState.entries),
          (reading.states.filter ProviderState.isActive).any
            (fun state => decide (cached state.source index = false)) || reading.fetchSpent,
          index + 1⟩ := ⟨hstates, by rw [hstates]; rfl⟩
      split
      · exact hnext
      · exact ih hnext rfl

/-- **What a search reads** are the first blocks of its sources. -/
theorem readingOf_after (cached : ExternalBookSource → Nat → Bool) :
    world.ReadingAfter req (world.readingOf req cached) := by
  refine readBlocks_after cached _ _ ⟨rfl, ?_⟩ rfl
  show [] = world.poolOf req (world.entriesAfter 0)
  rw [entriesAfter_zero, poolOf_nil]

end SearchWorld

/-! ## What every search shows -/

/-- The entries of any number of rounds come from records without such numbers. -/
theorem SearchWorld.worksUnnumbered
    (hwork : ∀ r, world.Delivers r → r.kind = .work → r.isbn13 = none) (n : Nat) :
    WorksUnnumbered (world.entriesAfter n) := fun _ he => hwork _ (mem_entriesAfter he).2

/-- **The pool of more rounds** has the rows of the first ones where they were. -/
theorem SearchWorld.poolOf_entriesAfter_grows
    (hwork : ∀ r, world.Delivers r → r.kind = .work → r.isbn13 = none)
    (hids : req.matchLocal = true → ∀ r r', world.Delivers r → world.Delivers r' → r.id = r'.id →
      r.kind = r'.kind ∧ r.isbn13 = r'.isbn13) {n m : Nat} (h : n ≤ m) :
    GrowsTo ExternalSearchResult.Enriches (world.poolOf req (world.entriesAfter n))
      (world.poolOf req (world.entriesAfter m)) := by
  cases n with
  | zero =>
    rw [entriesAfter_zero, poolOf_nil]
    exact .nil _
  | succ n =>
    have hagree : req.matchLocal = true →
        IdsAgree ((world.entriesAfter m).map RankedResult.result) := by
      intro hmatch r hr r' hr'
      obtain ⟨e, he, rfl⟩ := List.mem_map.mp hr
      obtain ⟨e', he', rfl⟩ := List.mem_map.mp hr'
      exact hids hmatch _ _ (mem_entriesAfter he).2 (mem_entriesAfter he').2
    have hgrows := poolOf_grows world req (worksUnnumbered hwork m) hagree (show n ≤ m by omega)
    rwa [upTo_entriesAfter h, upTo_entriesAfter_self] at hgrows

/-- What every reader of the shared list relies on. -/
structure PoolGrows (world : SearchWorld) : Prop where
  /-- The merged list of the first blocks is a front of the one of more blocks. -/
  merged : ∀ query ranked, (∀ e ∈ ranked, world.Delivers e.result) → ∀ k k', k ≤ k' →
    GrowsTo ExternalSearchResult.Enriches (mergeResults world.text query (upTo k ranked))
      (mergeResults world.text query (upTo k' ranked))
  /-- Every record that was read is in exactly one of its rows. -/
  once : ∀ query ranked, (∀ e ∈ ranked, world.Delivers e.result) → ∀ k,
    ∃ parts, List.Forall₂ MadeFrom parts (mergeResults world.text query (upTo k ranked)) ∧
      parts.flatten.Perm ((upTo k ranked).map RankedResult.result)
  /-- So it is behind the filters; -/
  pool : ∀ req : ExternalSearchRequest,
    (req.matchLocal = true → ∀ r r', world.Delivers r → world.Delivers r' → r.id = r'.id →
      r.kind = r'.kind ∧ r.isbn13 = r'.isbn13) →
    ∀ ranked, (∀ e ∈ ranked, world.Delivers e.result) → ∀ k k', k ≤ k' →
      GrowsTo ExternalSearchResult.Enriches (world.poolOf req (upTo k ranked))
        (world.poolOf req (upTo k' ranked))
  /-- and of two searches, the one that has read more has the rows of the other where they were. -/
  reading : ∀ req req' : ExternalSearchRequest, req'.query = req.query →
    req'.matchLocal = req.matchLocal →
    (req.matchLocal = true → ∀ r r', world.Delivers r → world.Delivers r' → r.id = r'.id →
      r.kind = r'.kind ∧ r.isbn13 = r'.isbn13) →
    ∀ cached cached', (world.readingOf req cached).blocksRead ≤
        (world.readingOf req' cached').blocksRead →
      GrowsTo ExternalSearchResult.Enriches (world.readingOf req cached).pool
        (world.readingOf req' cached').pool

/-- **The external pool only grows at its end**, whatever the sources deliver. -/
theorem external_pool_grows (world : SearchWorld)
    (hwork : ∀ r, world.Delivers r → r.kind = .work → r.isbn13 = none) : PoolGrows world := by
  have hworks : ∀ {ranked : List RankedResult}, (∀ e ∈ ranked, world.Delivers e.result) →
      WorksUnnumbered ranked := fun hranked e he => hwork e.result (hranked e he)
  have hagree : ∀ {ranked : List RankedResult}, (∀ e ∈ ranked, world.Delivers e.result) →
      (∀ r r', world.Delivers r → world.Delivers r' → r.id = r'.id →
        r.kind = r'.kind ∧ r.isbn13 = r'.isbn13) → IdsAgree (ranked.map RankedResult.result) := by
    intro ranked hranked hids r hr r' hr'
    obtain ⟨e, he, rfl⟩ := List.mem_map.mp hr
    obtain ⟨e', he', rfl⟩ := List.mem_map.mp hr'
    exact hids _ _ (hranked e he) (hranked e' he')
  constructor
  case merged => exact fun query ranked hranked k k' h => mergeResults_upTo_grows (hworks hranked) h
  case once =>
    exact fun query ranked hranked k => mergeResults_gathers ((hworks hranked).upTo k)
  case pool =>
    exact fun req hids ranked hranked k k' h =>
      poolOf_grows _ _ (hworks hranked) (fun hm => hagree hranked (hids hm)) h
  case reading =>
    intro req req' hquery hmatch hids cached cached' hread
    have hpool : (world.readingOf req' cached').pool =
        world.poolOf req (world.entriesAfter (world.readingOf req' cached').blocksRead) := by
      rw [(SearchWorld.readingOf_after cached').pool]
      unfold SearchWorld.poolOf
      rw [hquery, hmatch]
    rw [(SearchWorld.readingOf_after cached).pool, hpool]
    exact SearchWorld.poolOf_entriesAfter_grows hwork hids hread

/-! ## Records of one id -/

def plainText : SearchText := ⟨id, fun _ _ => 0⟩

def volumeU : ExternalSearchResult :=
  { id := "GOOGLE_BOOKS:u", kind := .edition, sources := [.googleBooks], title := "u" }

def volumeV : ExternalSearchResult :=
  { id := "GOOGLE_BOOKS:v", kind := .edition, sources := [.googleBooks], title := "v" }

def numberedV : ExternalSearchResult := { volumeV with isbn13 := some "9780000000002" }

/-- One edition of ours, known by its ISBN and by the reference of `volumeU`. -/
def shelfDb : CatalogDb where
  users := []
  authors := []
  works := []
  workAuthors := []
  translations := []
  editions := [⟨5, 1, none, .unknown, none, none, none, some "9780000000002", none, none, none, 2⟩]
  editionReferences := [⟨⟨.googleBooks, "u"⟩, 5⟩]
  workReferences := []
  copies := []
  operations := []

/-- Two blocks of one source. -/
def twoBlocks (first second : List ExternalSearchResult) : SearchWorld where
  text := plainText
  providers := [.googleBooks]
  blockSize := 24
  db := shelfDb
  matches_ := []
  answers _ index := match index with
    | 0 => .ok ⟨first, false, none⟩
    | _ => .ok ⟨second, true, none⟩

theorem twoBlocks_delivers {first second : List ExternalSearchResult} {r : ExternalSearchResult}
    (h : (twoBlocks first second).Delivers r) : r ∈ first ++ second := by
  obtain ⟨source, index, block, hanswer, hr⟩ := h
  cases index with
  | zero =>
    obtain rfl := Except.ok.inj hanswer
    exact List.mem_append_left _ hr
  | succ index =>
    obtain rfl := Except.ok.inj hanswer
    exact List.mem_append_right _ hr

/-- Volumes are no works. -/
theorem twoBlocks_works {first second : List ExternalSearchResult}
    (hall : ∀ r ∈ first ++ second, r.kind = .edition) (r : ExternalSearchResult)
    (hr : (twoBlocks first second).Delivers r) (hkind : r.kind = .work) : r.isbn13 = none := by
  rw [hall r (twoBlocks_delivers hr)] at hkind
  cases hkind

theorem external_pool_grows_volumes : PoolGrows (twoBlocks [volumeU, numberedV] [numberedV]) :=
  external_pool_grows _ (twoBlocks_works (by decide))

def addSearchRequest : ExternalSearchRequest where
  query := "q"
  page := 1
  pageSize := 24
  matchLocal := true

/-- **A volume of the first page goes**, when the source has learned its ISBN before it answers with
it again: it is the edition that the other volume is known as. -/
theorem external_pool_shifts :
    let world := twoBlocks [volumeU, volumeV] [numberedV]
    (∀ r, world.Delivers r → r.kind = .work → r.isbn13 = none) ∧
      ((world.poolOf addSearchRequest (upTo 0 (world.entriesAfter 2))).map fun r => r.id) =
        ["GOOGLE_BOOKS:u", "GOOGLE_BOOKS:v"] ∧
      ((world.poolOf addSearchRequest (upTo 1 (world.entriesAfter 2))).map fun r => r.id) =
        ["GOOGLE_BOOKS:u"] ∧
      ¬GrowsTo ExternalSearchResult.Enriches
        (world.poolOf addSearchRequest (upTo 0 (world.entriesAfter 2)))
        (world.poolOf addSearchRequest (upTo 1 (world.entriesAfter 2))) := by
  intro world
  have hfirst : ((world.poolOf addSearchRequest (upTo 0 (world.entriesAfter 2))).map fun r => r.id) =
      ["GOOGLE_BOOKS:u", "GOOGLE_BOOKS:v"] := by decide +kernel
  have hsecond : ((world.poolOf addSearchRequest (upTo 1 (world.entriesAfter 2))).map fun r => r.id) =
      ["GOOGLE_BOOKS:u"] := by decide +kernel
  refine ⟨twoBlocks_works (by decide), hfirst, hsecond, fun hgrows => ?_⟩
  have hlength := hgrows.length_le
  have hfirst := congrArg List.length hfirst
  have hsecond := congrArg List.length hsecond
  rw [List.length_map] at hfirst hsecond
  rw [hfirst, hsecond] at hlength
  exact absurd hlength (by decide)

end Bookswap
