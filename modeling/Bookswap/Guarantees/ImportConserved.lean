import Bookswap.Guarantees.DraftConcurrency
import Mathlib.Data.List.ReduceOption

/-!
# A commit conserves rows and copies

- `ChainIsbns`, `chainIsbns`: the chain of a stored row is one for the ISBN of the row.
- `RowCopies`: what a ready row contributes.
- `ImportConserved`, `import_conserved`: the rows of the plan, and the editions, works and copies
  that a commit creates.
-/

namespace Bookswap

open ReadCommitted Normalizing

/-! ## The chain of a row -/

/-- The edition of a chain has the ISBN of its row. -/
def ChainIsbns (rows : List LibraryImportRowRecord) : Prop :=
  ∀ row ∈ rows, ∀ workId catalog, row.payload.resolution = some (.createChain workId catalog) →
    ∃ values, row.payload.values = some values ∧ catalog.edition.isbn13 = values.isbn13

section Rows

variable {env : ImportEnv}

theorem isbn13_of_catalogSchema {c d : LibraryImportResolvedCatalog}
    (h : libraryImportResolvedCatalogSchema env c = some d) :
    isbn13Schema c.edition.isbn13 = some d.edition.isbn13 := by
  unfold libraryImportResolvedCatalogSchema libraryImportResolvedEditionSchema at h
  simp only [↓do_eq_some, Option.pure_def, Option.some.injEq] at h
  obtain ⟨_, -, _, -, _, ⟨isbn13, hisbn, _, -, _, -, _, -, _, -, rfl⟩, rfl⟩ := h
  exact hisbn

theorem isbn13_of_valuesSchema {v v' : LibraryImportRowValues}
    (h : libraryImportRowValuesSchema env v = some v') :
    isbn13Schema v.isbn13 = some v'.isbn13 := by
  unfold libraryImportRowValuesSchema at h
  simp only [↓do_eq_some, Option.pure_def, Option.some.injEq] at h
  obtain ⟨isbn13, hisbn, _, -, _, -, _, -, _, -, _, -, _, -, _, -, _, -, _, -, _, -, _, -, _, -,
    _, -, _, -, _, -, rfl⟩ := h
  exact hisbn

/-- A complete chain is a candidate for the ISBN of the values that the schema accepts. -/
theorem candidate_of_complete {values : LibraryImportRowValues} {lookup : Option BookLookupResult}
    {title : String} {authors : List String} {origLang : String}
    {catalog : LibraryImportResolvedCatalog}
    (h : assembleCatalog env values lookup title authors origLang = .complete catalog) :
    ∃ candidate : LibraryImportResolvedCatalog, candidate.edition.isbn13 = values.isbn13 ∧
      libraryImportResolvedCatalogSchema env candidate = some catalog := by
  unfold assembleCatalog at h
  extract_lets editionLang needsTranslation candidate at h
  refine ⟨candidate, rfl, ?_⟩
  clear_value candidate
  split at h
  · cases h
  split at h
  · cases h
  split at h
  · next found hfound =>
    cases h
    exact hfound
  · cases h

theorem isbn13_of_complete {values : LibraryImportRowValues} {lookup : Option BookLookupResult}
    {catalog : LibraryImportResolvedCatalog}
    (h : buildResolvedCatalog env values lookup = .complete catalog) :
    isbn13Schema values.isbn13 = some catalog.edition.isbn13 := by
  unfold buildResolvedCatalog at h
  extract_lets title authors at h
  split at h
  · obtain ⟨candidate, hisbn, hcandidate⟩ := candidate_of_complete h
    rw [← hisbn]
    exact isbn13_of_catalogSchema hcandidate
  · cases h

/-- What is resolved to a chain is resolved to a complete one. -/
theorem complete_of_resolveRow {view : CatalogView}
    {fetched : String → Option BatchLookupRowOutcome} {row : ResolvableRow} {workId : Option WorkId}
    {catalog : LibraryImportResolvedCatalog}
    (h : (resolveRow env view fetched row).resolution = some (.createChain workId catalog)) :
    ∃ lookup, buildResolvedCatalog env row.values lookup = .complete catalog := by
  rcases resolveRow_cases env view fetched row with
    ⟨edition, -, hrow⟩ | ⟨-, columns, error, -, hrow⟩ | ⟨-, found, hfound, hrow⟩
  · rw [hrow] at h
    cases h
  · rw [hrow] at h
    cases h
  · refine ⟨_, hfound.trans (congrArg _ ?_)⟩
    rcases settle_cases row.chosenWorkId found (view.candidates env found.work.title) with
      ⟨_, hsettle, -⟩ | ⟨-, hsettle⟩
    · rw [hrow, hsettle] at h
      cases h
      rfl
    · rw [hrow, hsettle] at h
      cases h

/-- The stored catalog of a chain is the parsed one. -/
theorem accepted_chain {built row : LibraryImportRowRecord} {workId : Option WorkId}
    {catalog : LibraryImportResolvedCatalog}
    (h : libraryImportRowRecordSchema env built = some row)
    (hrow : row.payload.resolution = some (.createChain workId catalog)) :
    ∃ catalog', built.payload.resolution = some (.createChain workId catalog') ∧
      libraryImportResolvedCatalogSchema env catalog' = some catalog := by
  obtain ⟨catalog', hbuilt⟩ := accepted_createChain h hrow
  refine ⟨catalog', hbuilt, ?_⟩
  obtain ⟨hparse, -⟩ := (libraryImportRowRecordSchema_eq_some env).mp h
  obtain ⟨-, hresolution, -⟩ := (LibraryImportRowPayload.parse_eq_some env).mp hparse
  rw [hrow, hbuilt] at hresolution
  simpa [Normalizing.optional, libraryImportRowResolutionSchema] using hresolution

/-- **The chains that are stored have the ISBNs of their rows.** -/
theorem chainIsbns_of_written {call : Nat} {inputs : List RowDraftInput}
    {chosen : Nat → Option (Option WorkId)} {view : CatalogView}
    {fetched : String → Option BatchLookupRowOutcome} {rows : List LibraryImportRowRecord}
    (h : validateRows env (recordsOf env call inputs
      (LibraryImportResolver.resolve env view fetched (toResolvable inputs chosen))) = .ok rows) :
    ChainIsbns rows := by
  intro row hrow workId catalog hresolution
  obtain ⟨input, hinput, haccepted⟩ := (recordOf_of_written h).1 row hrow
  obtain ⟨catalog', hbuilt, hcatalog⟩ := accepted_chain haccepted hresolution
  obtain ⟨-, r, hr, hchain⟩ := toRowRecord_createChain hbuilt
  obtain ⟨values, hcomparable, rfl⟩ := resolved_input (numbers_of_written h).2 hinput rfl hr
  obtain ⟨lookup, hcomplete⟩ := complete_of_resolveRow hchain
  have hvalues : input.values = some values := by
    unfold RowDraftInput.comparable at hcomparable
    split at hcomparable
    · cases hcomparable
    · exact hcomparable
  -- both ISBNs are what the schema makes of the one of the input
  obtain ⟨hparse, -⟩ := (libraryImportRowRecordSchema_eq_some env).mp haccepted
  obtain ⟨hparsed, -, -⟩ := (LibraryImportRowPayload.parse_eq_some env).mp hparse
  have hbuiltValues : (recordOf env call inputs (LibraryImportResolver.resolve env view fetched
      (toResolvable inputs chosen)) input).payload.values = some values :=
    toRowRecord_keeps.2.2.1.trans hvalues
  rw [hbuiltValues] at hparsed
  cases hstored : row.payload.values with
  | none =>
    rw [hstored] at hparsed
    simp [Normalizing.optional] at hparsed
  | some stored =>
    rw [hstored] at hparsed
    have hschema : libraryImportRowValuesSchema env values = some stored := by
      simpa [Normalizing.optional] using hparsed
    refine ⟨stored, rfl, ?_⟩
    have hisbn := isbn13_of_complete hcomplete
    have hcatalogIsbn := isbn13_of_catalogSchema hcatalog
    have hvaluesIsbn := isbn13_of_valuesSchema hschema
    rw [hisbn] at hvaluesIsbn
    rw [normalizes_isbn13Schema _ _ hisbn] at hcatalogIsbn
    exact (Option.some.inj hcatalogIsbn).symm.trans (Option.some.inj hvaluesIsbn)

theorem chainIsbns_nil : ChainIsbns [] := fun _ h => nomatch h

theorem DraftMade.chainIsbns {request : Nat → ImportRequest env} {r : Nat} {input : NewDraft}
    (h : DraftMade env request r input) : ChainIsbns input.rows := by
  obtain ⟨file, view, fetched, -, -, hrows⟩ := h.file
  exact chainIsbns_of_written hrows

theorem Rebuilt.chainIsbns {request : Nat → ImportRequest env} {r : Nat} {i : LibraryImport}
    {rows rows' : List LibraryImportRowRecord} (h : Rebuilt env request r i rows rows') :
    ChainIsbns rows' := by
  obtain ⟨rowNumber, patch, view, fetched, rebuilt, -, -, hrebuilt, hvalid⟩ := h.action
  rw [rebuildRows_eq_ok hrebuilt] at hvalid
  exact chainIsbns_of_written hvalid

/-- **In every state the chains of the stored rows are chains for their ISBNs.** -/
theorem chainIsbns {request : Nat → ImportRequest env} {w : Importing}
    (hw : (libraryImport env request).machine.Reachable w) (id : ImportId) :
    ChainIsbns (w.db.rows id) := by
  refine hw.invariant (I := fun w => ∀ id, ChainIsbns (w.db.rows id)) (fun w hi id => ?_)
    (fun w op w' hw hc h id => ?_) id
  · obtain ⟨-, hrows⟩ : _ ∧ w.db.rows = fun _ => [] := hi.db
    rw [hrows]
    exact chainIsbns_nil
  · rcases importing_cases hw h with ⟨-, hrows, -⟩ |
      ⟨r, stage, next, ls, ws, -, -, rfl, hfree, hpost⟩
    · rw [hrows]
      exact hc id
    · have hold : ∀ {db' : ImportDb}, db'.rows id = w.db.rows id ∨ db'.rows id = [] →
          ChainIsbns (db'.rows id) := by
        rintro db' (h | h)
        · rw [h]
          exact hc id
        · rw [h]
          exact chainIsbns_nil
      cases hpost.rowsEffect (libraryImport_kept hw).inv hfree with
      | kept hrows => exact hold (hrows id)
      | @made id' input _ hmade hrows hothers =>
        by_cases hid : id = id'
        · rw [hid]
          exact hrows ▸ hmade.chainIsbns
        · exact hold (hothers id hid)
      | @rebuilt i rows _ hrebuilt hrows hothers =>
        by_cases hid : id = i.id
        · rw [hid]
          exact hrows ▸ hrebuilt.chainIsbns
        · exact hold (hothers id hid)

end Rows

/-! ## What a commit creates -/

/-- The edition that the copies of a row go on: the chosen one, or the created one of its ISBN. -/
def OnEdition (created : List Edition) (row : LibraryImportRowRecord)
    (values : LibraryImportRowValues) (editionId : EditionId) : Prop :=
  match row.payload.resolution with
  | some (.existingEdition chosen _) => editionId = chosen
  | some (.createChain _ _) => ∃ e ∈ created, e.isbn13 = some values.isbn13 ∧ e.id = editionId
  | none => False

/-- What a ready row contributes. -/
structure RowCopies (ownerId : UserId) (created : List Edition) (row : LibraryImportRowRecord)
    (copies : List Copy) : Prop where
  ofValues : ∃ values, row.payload.values = some values ∧ copies.length = values.quantity ∧
    ∀ c ∈ copies, c.ownerId = ownerId ∧ c.condition = values.condition ∧
      c.visibility = values.visibility ∧ c.note = values.note ∧
      OnEdition created row values c.editionId

theorem StoredRows.draftRows {env : ImportEnv} {rows : List LibraryImportRowRecord}
    (h : StoredRows env rows) : DraftRows rows := by
  refine ⟨h.sorted.imp Nat.ne_of_lt, fun row hrow => ?_⟩
  exact ((libraryImportRowRecordSchema_eq_some env).mp (h.accepted row hrow)).2.2.2.2.2

/-- Some ready row asks for a chain of the ISBN. -/
def AsksChain (rows : List LibraryImportRowRecord) (isbn13 : String) : Prop :=
  ∃ row ∈ committable rows, ∃ values workId catalog, row.payload.values = some values ∧
    values.isbn13 = isbn13 ∧ row.payload.resolution = some (.createChain workId catalog)

/-- What a commit of the rows adds to the catalog. -/
structure Created (ownerId : UserId) (rows : List LibraryImportRowRecord) (db db' : CatalogDb)
    (editions : List Edition) (newWorks : List (Option Work)) (copies : List (List Copy)) :
    Prop where
  editionRows : db'.editions = editions.reverse ++ db.editions
  workRows : db'.works = newWorks.reduceOption.reverse ++ db.works
  copyRows : db'.copies = copies.flatten.reverse ++ db.copies
  /-- One edition for each ISBN that a row asks a chain for, and there was none. -/
  one : ∀ isbn13, AsksChain rows isbn13 →
    (editions.filter fun e => e.isbn13 = some isbn13).length = 1 ∧ db.editionByIsbn? isbn13 = none
  no_other : ∀ e ∈ editions, ∃ isbn13, e.isbn13 = some isbn13 ∧ AsksChain rows isbn13
  /-- No chain is asked for the ISBN of a row that has its edition. -/
  apart : ∀ row ∈ committable rows, ∀ values editionId workId, row.payload.values = some values →
    row.payload.resolution = some (.existingEdition editionId workId) →
    ¬ AsksChain rows values.isbn13
  /-- At most one new work for an edition. -/
  chains : List.Forall₂ (fun e w? => ∀ w, w? = some w → e.workId = w.id ∧ w.createdById = ownerId)
    editions newWorks
  contributed : List.Forall₂ (RowCopies ownerId editions) (committable rows) copies

section Creation

variable {ownerId : UserId} {rows : List LibraryImportRowRecord} {drafts : List ChainDraft}

theorem isbn13_of_chain (hc : ChainIsbns rows) {chain : PlannedChain}
    (hchain : chain ∈ (assessLibraryImportCommit rows).plan.chains) :
    chain.catalog.edition.isbn13 = chain.isbn13 := by
  obtain ⟨row, hrow, values, hvalues, hisbn, hresolution⟩ := row_of_chain hchain
  obtain ⟨values', hvalues', hsame⟩ := hc row (mem_committable.mp hrow).1 _ _ hresolution
  rw [hvalues] at hvalues'
  cases hvalues'
  exact hsame.trans hisbn

/-- The created editions have the ISBNs of the chains. -/
theorem isbns_of_drafts {chains : List PlannedChain}
    (hisbns : ∀ chain ∈ chains, chain.catalog.edition.isbn13 = chain.isbn13)
    (h : List.Forall₂ (ChainOf ownerId) chains drafts) :
    (drafts.map ChainDraft.edition).map Edition.isbn13 =
      chains.map fun chain => some chain.isbn13 := by
  induction h with
  | nil => rfl
  | cons hd _ ih =>
    rw [List.map_cons, List.map_cons, List.map_cons, hd.edition.1,
      hisbns _ List.mem_cons_self, ih fun chain hchain => hisbns chain (List.mem_cons_of_mem _ hchain)]

theorem asksChain_of_chain {chain : PlannedChain}
    (hchain : chain ∈ (assessLibraryImportCommit rows).plan.chains) :
    AsksChain rows chain.isbn13 := by
  obtain ⟨row, hrow, values, hvalues, hisbn, hresolution⟩ := row_of_chain hchain
  exact ⟨row, hrow, values, _, _, hvalues, hisbn, hresolution⟩

theorem asksChain_iff (ha : Assessed rows) {isbn13 : String} : AsksChain rows isbn13 ↔
    isbn13 ∈ (assessLibraryImportCommit rows).plan.chains.map PlannedChain.isbn13 := by
  constructor
  · rintro ⟨row, hrow, values, workId, catalog, hvalues, rfl, hresolution⟩
    obtain ⟨chain, hchain, hisbn, -⟩ := chain_of_row ha hrow hvalues hresolution
    exact List.mem_map.mpr ⟨chain, hchain, hisbn⟩
  · intro h
    obtain ⟨chain, hchain, rfl⟩ := List.mem_map.mp h
    exact asksChain_of_chain hchain

/-- The draft of a chain is found by its ISBN. -/
theorem editionOf_chain {editionId : EditionId} {isbn13 : String}
    (hisbns : ∀ d ∈ drafts, d.edition.isbn13 = some d.isbn13)
    (h : editionOf drafts (.chain isbn13) = some editionId) :
    ∃ e ∈ drafts.map ChainDraft.edition, e.isbn13 = some isbn13 ∧ e.id = editionId := by
  obtain ⟨d, hfound, rfl⟩ := Option.map_eq_some_iff.mp h
  have hmem := List.mem_of_find?_eq_some hfound
  have hd : d.isbn13 = isbn13 := by simpa using List.find?_some hfound
  exact ⟨d.edition, List.mem_map_of_mem hmem, hd ▸ hisbns d hmem, rfl⟩

/-- The copies of the plan are what the ready rows contribute. -/
theorem rowCopies_of_written {now : Time} {copies : List (List Copy)} (hrows : DraftRows rows)
    (hsorted : (rows.map LibraryImportRowRecord.rowNumber).Pairwise (· < ·)) (ha : Assessed rows)
    (hisbns : ∀ d ∈ drafts, d.edition.isbn13 = some d.isbn13)
    (h : List.Forall₂ (CopiesOf now ownerId drafts) (assessLibraryImportCommit rows).plan.copies
      copies) :
    List.Forall₂ (RowCopies ownerId (drafts.map ChainDraft.edition)) (committable rows) copies := by
  rw [plan_copies hsorted ha] at h
  have hready : ∀ row ∈ committable rows, ∃ values resolution,
      row.payload.values = some values ∧ row.payload.resolution = some resolution :=
    fun row hrow => hrows.ready hrow
  generalize committable rows = ready at h hready
  induction ready generalizing copies with
  | nil =>
    cases h
    exact .nil
  | cons row ready ih =>
    obtain ⟨values, resolution, hvalues, hresolution⟩ := hready row List.mem_cons_self
    obtain ⟨copy, hcopy⟩ : ∃ copy, plannedOf row = some copy := by
      rw [plannedOf, hvalues, hresolution]
      exact ⟨_, rfl⟩
    rw [List.filterMap_cons_some hcopy] at h
    rw [plannedOf, hvalues, hresolution] at hcopy
    cases hcopy
    cases h with
    | cons hof hrest =>
      refine .cons ⟨values, hvalues, hof.quantity, fun c hc => ?_⟩
        (ih hrest fun r hr => hready r (List.mem_cons_of_mem _ hr))
      obtain ⟨hedition, howner, -, hcondition, hvisibility, hnote, -⟩ := hof.each c hc
      refine ⟨howner, hcondition, hvisibility, hnote, ?_⟩
      unfold OnEdition
      rw [hresolution]
      cases resolution with
      | existingEdition chosen workId => exact (Option.some.inj hedition).symm
      | createChain workId catalog => exact editionOf_chain hisbns hedition

/-- The tables of the catalog after a commit. -/
theorem tables_of_written {db : ImportDb} {ls : List ImportLock} {copies : List (List Copy)}
    {id : ImportId} {now : Time} {n : Nat} {ws₁ ws : List ImportWrite}
    (hexpiry : Expiry ls db ws₁)
    (hws : ws = .setCommitted id now n :: .deleteRows [id] ::
      (importWrites drafts copies).reverse ++ ws₁) :
    (importSchema.view db ws).catalog.editions =
      (drafts.map ChainDraft.edition).reverse ++ db.catalog.editions ∧
    (importSchema.view db ws).catalog.works =
      ((drafts.map ChainDraft.newWork).map (Option.map WorkDraft.work)).reduceOption.reverse ++
        db.catalog.works ∧
    (importSchema.view db ws).catalog.copies = copies.flatten.reverse ++ db.catalog.copies := by
  have hcatalog : (importSchema.view db ws).catalog = catalogSchema.view db.catalog
      (chainWrites drafts ++ copies.flatten.map CatalogWrite.copy).reverse := by
    rw [hws, Schema.view_append, ← hexpiry.creates_nothing.1, importWrites, ← List.map_reverse]
    exact catalog_view _ _
  rw [hcatalog, view_editions, view_works, view_copies]
  refine ⟨?_, ?_, ?_⟩ <;> congr 1 <;> rw [List.filterMap_reverse] <;> congr 1
  · simp [chainWrites, Function.comp_def, CatalogWrite.edition?]
  · simp only [chainWrites, List.filterMap_append, List.filterMap_map, Function.comp_def,
      CatalogWrite.work?, List.reduceOption, List.map_map]
    simp [List.map_filterMap]
  · simp [chainWrites, Function.comp_def, CatalogWrite.copy?]

/-- No edition has the ISBN of one that a transaction inserts. -/
theorem isbn_free {db : ImportDb} {ws : List ImportWrite} (hfree : importSchema.Free ws db)
    {e : Edition} {isbn13 : String} (he : .catalog (.edition e) ∈ ws) (hisbn : e.isbn13 = some isbn13) :
    db.catalog.editionByIsbn? isbn13 = none := by
  have hkey : ImportKey.catalog (.isbn13 isbn13) ∈ importSchema.keysOf ws := by
    refine List.mem_flatMap.mpr ⟨_, he, ?_⟩
    refine List.mem_map.mpr ⟨.isbn13 isbn13, ?_, rfl⟩
    simp [CatalogWrite.keys, hisbn]
  have hany : (db.catalog.editions.any fun e => e.isbn13 = some isbn13) = false := hfree _ hkey
  rw [CatalogDb.editionByIsbn?, List.find?_eq_none]
  intro e he h
  exact absurd (List.any_eq_true.mpr ⟨e, he, h⟩) (by rw [hany]; exact Bool.false_ne_true)

/-- **What a commit that goes through creates.** -/
theorem created_of_written {db : ImportDb} {ls : List ImportLock} {copies : List (List Copy)}
    {id : ImportId} {now : Time} {n : Nat} {ws₁ ws : List ImportWrite} (hrows : DraftRows rows)
    (hsorted : (rows.map LibraryImportRowRecord.rowNumber).Pairwise (· < ·))
    (hchains : ChainIsbns rows) (ha : Assessed rows) (hfree : importSchema.Free ws db)
    (hexpiry : Expiry ls db ws₁)
    (hwritten : WrittenImport now ownerId (assessLibraryImportCommit rows).plan drafts copies)
    (hws : ws = .setCommitted id now n :: .deleteRows [id] ::
      (importWrites drafts copies).reverse ++ ws₁) :
    Created ownerId rows db.catalog (importSchema.view db ws).catalog
      (drafts.map ChainDraft.edition)
      ((drafts.map ChainDraft.newWork).map (Option.map WorkDraft.work)) copies := by
  obtain ⟨heditions, hworks, hcopies⟩ := tables_of_written hexpiry hws
  have hisbns := isbns_of_drafts (fun chain hchain => isbn13_of_chain hchains hchain)
    hwritten.chains
  have hdrafts : ∀ d ∈ drafts, d.edition.isbn13 = some d.isbn13 := by
    intro d hd
    obtain ⟨chain, hchain, hof⟩ := exists_of_forall₂ hwritten.chains d hd
    rw [hof.edition.1, isbn13_of_chain hchains hchain, hof.isbn13]
  have hmem : ∀ e ∈ drafts.map ChainDraft.edition, ImportWrite.catalog (.edition e) ∈ ws := by
    intro e he
    obtain ⟨d, hd, rfl⟩ := List.mem_map.mp he
    have hchain : CatalogWrite.edition d.edition ∈ chainWrites drafts :=
      List.mem_append_right _ (List.mem_map.mpr ⟨d, hd, rfl⟩)
    rw [hws]
    refine List.mem_append_left _ (List.mem_cons_of_mem _ (List.mem_cons_of_mem _ ?_))
    exact List.mem_reverse.mpr (List.mem_map.mpr ⟨_, List.mem_append_left _ hchain, rfl⟩)
  refine ⟨heditions, hworks, hcopies, fun isbn13 hasks => ?_, fun e he => ?_,
    fun row hrow values editionId workId hvalues hresolution hasks => ?_, ?_,
    rowCopies_of_written hrows hsorted ha hdrafts hwritten.copies⟩
  · have hisbn := (asksChain_iff ha).mp hasks
    have hlength : ((drafts.map ChainDraft.edition).filter fun e => e.isbn13 = some isbn13).length =
        ((drafts.map ChainDraft.edition).map Edition.isbn13).count (some isbn13) := by
      rw [List.count_eq_countP, List.countP_map, List.countP_eq_length_filter]
      exact congrArg _ (List.filter_congr fun e _ => (beq_eq_decide _ _).symm)
    have hone : ((drafts.map ChainDraft.edition).filter fun e =>
        e.isbn13 = some isbn13).length = 1 := by
      have hnodup := (chains_isbns_nodup rows).map (f := some) fun _ _ => Option.some.inj
      rw [List.map_map] at hnodup
      rw [hlength, hisbns]
      refine List.count_eq_one_of_mem hnodup ?_
      obtain ⟨chain, hchain, rfl⟩ := List.mem_map.mp hisbn
      exact List.mem_map_of_mem hchain
    obtain ⟨e, he⟩ := List.exists_mem_of_length_pos (by rw [hone]; exact Nat.one_pos)
    obtain ⟨he, hsome⟩ := List.mem_filter.mp he
    exact ⟨hone, isbn_free hfree (hmem e he) (of_decide_eq_true hsome)⟩
  · have hin : e.isbn13 ∈ (assessLibraryImportCommit rows).plan.chains.map
        fun chain => some chain.isbn13 := hisbns ▸ List.mem_map_of_mem he
    obtain ⟨chain, hchain, hsome⟩ := List.mem_map.mp hin
    exact ⟨chain.isbn13, hsome.symm, asksChain_of_chain hchain⟩
  · obtain ⟨chain, hchain, hisbn⟩ := List.mem_map.mp ((asksChain_iff ha).mp hasks)
    exact no_chain_of_row ha hrow hvalues hresolution hchain hisbn
  · rw [List.map_map, List.forall₂_map_left_iff, List.forall₂_map_right_iff, List.forall₂_same]
    intro d hd w hw
    obtain ⟨wd, hnew, rfl⟩ := Option.map_eq_some_iff.mp hw
    obtain ⟨chain, -, hof⟩ := exists_of_forall₂ hwritten.chains d hd
    cases hchosen : chain.workId with
    | some workId =>
      rw [(hof.chosen workId hchosen).1] at hnew
      cases hnew
    | none =>
      obtain ⟨wd', hnew', hwork, hedition⟩ := hof.created hchosen
      rw [hnew'] at hnew
      cases hnew
      exact ⟨hedition, hwork.createdById⟩

end Creation

/-! ## In every run -/

section Runs

variable {env : ImportEnv} {request : Nat → ImportRequest env} {w : Importing}

/-- The rows of every draft that is accepted, and what its commit creates. -/
structure ImportConserved (env : ImportEnv) (request : Nat → ImportRequest env) (w : Importing) :
    Prop where
  grouped : ∀ id, (assessLibraryImportCommit (w.db.rows id)).blockers = [] →
    ((groupByIsbn (committable (w.db.rows id))).flatMap IsbnGroup.rowNumbers).Nodup ∧
    ∀ row ∈ w.db.rows id,
      (row.status.ready = true → ∃! g, g ∈ groupByIsbn (committable (w.db.rows id)) ∧
        row.rowNumber ∈ g.rowNumbers) ∧
      (row.status.ready = false → ∀ g ∈ groupByIsbn (committable (w.db.rows id)),
        row.rowNumber ∉ g.rowNumbers)
  written : ∀ r ownerId id version w' summary, request r = .commit ownerId id version →
    (libraryImport env request).machine.step w (.commit r) w' →
    w'.calls r = some (.between (.answered (.ok (.committed .committed summary)))) →
    (assessLibraryImportCommit (w.db.rows id)).blockers = [] ∧ ∃ editions newWorks copies,
      Created ownerId (w.db.rows id) w.db.catalog w'.db.catalog editions newWorks copies
  unwritten : ∀ r ownerId id version w', request r = .commit ownerId id version →
    (libraryImport env request).machine.step w (.commit r) w' →
    (∀ summary, w'.calls r ≠ some (.between (.answered (.ok (.committed .committed summary))))) →
    w'.db.catalog = w.db.catalog
  /-- Where the write throws, or a unique key refuses it, or it is cut short. -/
  failed : ∀ r key w', (libraryImport env request).machine.step w (.fail r) w' ∨
    (libraryImport env request).machine.step w (.refuse r key) w' ∨
    (libraryImport env request).machine.step w (.abort r) w' → w'.db = w.db

theorem import_conserved (hw : (libraryImport env request).machine.Reachable w) :
    ImportConserved env request w := by
  have hkept := libraryImport_kept hw
  refine ⟨fun id hblockers => ?_, ?_, ?_, ?_⟩
  · have hrows := (hkept.inv.rows id).draftRows
    refine ⟨(groups_rowNumbers hrows).nodup_iff.mpr
      ((hrows.numbers).sublist (List.filter_sublist.map _)), fun row hrow => ⟨fun hready => ?_,
        fun hready g hg => not_in_group hrows hrow hready hg⟩⟩
    exact exists_unique_group hrows (mem_committable.mpr ⟨hrow, hready⟩)
  · intro r ownerId id version w' summary hrequest hstep hanswer
    cases hstep with
    | @commit _ stage next ls ws hr =>
      have hnext := Serving.afterCommit_calls.symm.trans hanswer
      cases (hkept.post hr).2.commitCase hrequest with
      | nothing _ hsettled =>
        cases hnext
        cases (hsettled.committed _ _ rfl).1
      | written _ _ _ _ _ hblockers hwritten _ hexpiry hws =>
        exact ⟨hblockers, _, _, _, created_of_written ((hkept.inv.rows id).draftRows)
          (hkept.inv.rows id).sorted (chainIsbns hw id) (assessed_of_no_blockers hblockers)
          ((Service.apart hw).free r _ hr) hexpiry hwritten hws⟩
  · intro r ownerId id version w' hrequest hstep hanswer
    cases hstep with
    | @commit _ stage next ls ws hr =>
      cases (hkept.post hr).2.commitCase hrequest with
      | nothing hexpiry => exact hexpiry.creates_nothing.1
      | written _ _ _ _ _ _ _ hnext =>
        exact absurd (Serving.afterCommit_calls.trans (by rw [hnext])) (hanswer _)
  · rintro r key w' (hstep | hstep | hstep) <;> cases hstep <;> rfl

end Runs

theorem import_conserved_kobzar : ∃ w : Importing,
    (libraryImport kobzarEnv kobzarRequest).machine.Reachable w ∧
      (assessLibraryImportCommit (w.db.rows 5)).blockers = [] ∧ committable (w.db.rows 5) ≠ [] ∧
      ImportConserved kobzarEnv kobzarRequest w := by
  have hrun : (kobzarImport [(0, []), (0, []), (0, [5])]).any (fun y =>
      (assessLibraryImportCommit (y.1.rows 5)).blockers.isEmpty &&
        !(committable (y.1.rows 5)).isEmpty) = true := by
    decide +kernel
  obtain ⟨y, hy, hrun⟩ := (Option.any_eq_true _ _).mp hrun
  obtain ⟨w, hw⟩ := kobzarImport_served hy
  rw [← hw.db, Bool.and_eq_true, List.isEmpty_iff, Bool.not_eq_true',
    List.isEmpty_eq_false_iff] at hrun
  exact ⟨w, hw.reachable, hrun.1, hrun.2, import_conserved hw.reachable⟩

end Bookswap
