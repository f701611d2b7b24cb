import Bookswap.Import.ImportService
import Bookswap.Import.DraftRuns

/-!
# What the transactions on the drafts keep

An import is changed only under its lock, a committed one not at all, and rows are stored for
drafts only. What a transaction guarantees is stated on the database in which it commits.

- `StoredDrafts`: the invariant of the tables.
- `ImportRely`, `Touches`: what others may do, and what a commit does to the imports it has locked.
- `Expiry`, `ImportChange`, `ImportPost`: the writes of a transaction.
- `importContract`: the contract of the service.
-/

namespace Bookswap

open ReadCommitted

variable (env : ImportEnv)

/-! ## The tables -/

/-- Rows as they are stored: accepted as they are, in the order of their numbers. -/
structure StoredRows (rows : List LibraryImportRowRecord) : Prop where
  accepted : ∀ row ∈ rows, libraryImportRowRecordSchema env row = some row
  sorted : (rows.map LibraryImportRowRecord.rowNumber).Pairwise (· < ·)

/-- **The invariant of the drafts.** -/
structure StoredDrafts (db : ImportDb) : Prop where
  ids : (db.imports.map LibraryImport.id).Nodup
  hashes : (db.imports.map fun i => (i.ownerId, i.sourceHash)).Nodup
  drafts : ∀ id, db.rows id ≠ [] → ∃ i ∈ db.imports, i.id = id ∧ i.status = .draft
  rows : ∀ id, StoredRows env (db.rows id)

section Tables

variable {env} {db : ImportDb}

theorem storedRows_nil : StoredRows env [] := ⟨fun _ h => (nomatch h), .nil⟩

theorem StoredDrafts.import_ext (h : StoredDrafts env db) {i j : LibraryImport}
    (hi : i ∈ db.imports) (hj : j ∈ db.imports) (hid : i.id = j.id) : i = j :=
  List.inj_on_of_nodup_map h.ids hi hj hid

theorem StoredDrafts.import_ext_hash (h : StoredDrafts env db) {i j : LibraryImport}
    (hi : i ∈ db.imports) (hj : j ∈ db.imports) (howner : i.ownerId = j.ownerId)
    (hhash : i.sourceHash = j.sourceHash) : i = j :=
  List.inj_on_of_nodup_map h.hashes hi hj (Prod.ext howner hhash)

/-- An import that is no draft has no rows. -/
theorem StoredDrafts.rows_eq_nil (h : StoredDrafts env db) {i : LibraryImport}
    (hi : i ∈ db.imports) (hstatus : i.status ≠ .draft) : db.rows i.id = [] := by
  by_contra hne
  obtain ⟨j, hj, hid, hdraft⟩ := h.drafts i.id hne
  rw [h.import_ext hj hi hid] at hdraft
  exact hstatus hdraft

/-- Sorted rows are read as they are. -/
theorem StoredRows.sortRows (h : StoredRows env rows) : sortRows rows = rows := by
  refine List.mergeSort_of_pairwise ?_
  have hsorted := List.pairwise_map.mp h.sorted
  exact hsorted.imp fun hlt => by simpa using Nat.le_of_lt hlt

theorem StoredRows.validateRowOnRead {rows : List LibraryImportRowRecord}
    (h : ∀ row ∈ rows, libraryImportRowRecordSchema env row = some row) :
    rows.mapM (validateRowOnRead env) = .ok rows := by
  induction rows with
  | nil => rfl
  | cons row rows ih =>
    have hrow : Bookswap.validateRowOnRead env row = .ok row := by
      rw [Bookswap.validateRowOnRead, h row List.mem_cons_self]
    rw [List.mapM_cons, hrow, ih fun r hr => h r (List.mem_cons_of_mem _ hr)]
    rfl

end Tables

/-! ## What others may do -/

/-- The imports that are locked stay, with their rows; the committed ones stay; and none goes. -/
structure ImportRely (ls : List ImportLock) (db db' : ImportDb) : Prop where
  stored : StoredDrafts env db'
  locked : ∀ i ∈ db.imports, .libraryImport i.id ∈ ls → i ∈ db'.imports ∧ db'.rows i.id = db.rows i.id
  committed : ∀ i ∈ db.imports, i.status = .committed → i ∈ db'.imports
  there : ∀ i ∈ db.imports, ∃ i' ∈ db'.imports,
    i'.id = i.id ∧ i'.ownerId = i.ownerId ∧ i'.sourceHash = i.sourceHash

theorem ImportRely.refl {env : ImportEnv} {ls : List ImportLock} {db : ImportDb}
    (h : StoredDrafts env db) : ImportRely env ls db db :=
  ⟨h, fun _ hi _ => ⟨hi, rfl⟩, fun _ hi _ => hi, fun i hi => ⟨i, hi, rfl, rfl, rfl⟩⟩

theorem ImportRely.trans {env : ImportEnv} {ls : List ImportLock} {db db' db'' : ImportDb}
    (h : ImportRely env ls db db') (h' : ImportRely env ls db' db'') : ImportRely env ls db db'' := by
  refine ⟨h'.stored, fun i hi hlock => ?_, fun i hi hc => h'.committed i (h.committed i hi hc) hc,
    fun i hi => ?_⟩
  · obtain ⟨hi', hrows⟩ := h.locked i hi hlock
    obtain ⟨hi'', hrows'⟩ := h'.locked i hi' hlock
    exact ⟨hi'', hrows'.trans hrows⟩
  · obtain ⟨i', hi', hid, howner, hhash⟩ := h.there i hi
    obtain ⟨i'', hi'', hid', howner', hhash'⟩ := h'.there i' hi'
    exact ⟨i'', hi'', hid'.trans hid, howner'.trans howner, hhash'.trans hhash⟩

/-! ## What a commit does -/

/-- Only the imports `ids` change, which are not committed. -/
structure Touches (ids : List ImportId) (db db' : ImportDb) : Prop where
  imports : ∃ f : LibraryImport → LibraryImport, db'.imports = db.imports.map f ∧
    (∀ i, (f i).id = i.id ∧ (f i).ownerId = i.ownerId ∧ (f i).sourceHash = i.sourceHash) ∧
    ∀ i, i.id ∉ ids → f i = i
  rows : ∀ id, id ∉ ids → db'.rows id = db.rows id
  open_ : ∀ i ∈ db.imports, i.id ∈ ids → i.status ≠ .committed

section Touches

variable {env} {ids : List ImportId} {db db' : ImportDb}

theorem Touches.mem (h : Touches ids db db') {i : LibraryImport} (hi : i ∈ db.imports)
    (hid : i.id ∉ ids) : i ∈ db'.imports := by
  obtain ⟨f, hf, -, hsame⟩ := h.imports
  rw [hf, ← hsame i hid]
  exact List.mem_map_of_mem hi

/-- The tables are in order again when they are for what was touched. -/
theorem Touches.stored (h : Touches ids db db') (hdb : StoredDrafts env db)
    (hdrafts : ∀ id ∈ ids, db'.rows id ≠ [] → ∃ i ∈ db'.imports, i.id = id ∧ i.status = .draft)
    (hrows : ∀ id ∈ ids, StoredRows env (db'.rows id)) : StoredDrafts env db' := by
  obtain ⟨f, hf, hkeeps, -⟩ := h.imports
  refine ⟨?_, ?_, fun id hne => ?_, fun id => ?_⟩
  · have hid : LibraryImport.id ∘ f = LibraryImport.id := funext fun i => (hkeeps i).1
    rw [hf, List.map_map, hid]
    exact hdb.ids
  · have hhash : (fun i : LibraryImport => (i.ownerId, i.sourceHash)) ∘ f =
        fun i => (i.ownerId, i.sourceHash) :=
      funext fun i => Prod.ext (hkeeps i).2.1 (hkeeps i).2.2
    rw [hf, List.map_map, hhash]
    exact hdb.hashes
  · by_cases hid : id ∈ ids
    · exact hdrafts id hid hne
    · rw [h.rows id hid] at hne
      obtain ⟨i, hi, rfl, hdraft⟩ := hdb.drafts id hne
      exact ⟨i, h.mem hi hid, rfl, hdraft⟩
  · by_cases hid : id ∈ ids
    · exact hrows id hid
    · rw [h.rows id hid]
      exact hdb.rows id

/-- Whoever holds other locks sees nothing of it. -/
theorem Touches.rely (h : Touches ids db db') (hdb' : StoredDrafts env db') {ls : List ImportLock}
    (hls : ∀ id ∈ ids, .libraryImport id ∉ ls) : ImportRely env ls db db' := by
  refine ⟨hdb', fun i hi hlock => ?_, fun i hi hc => ?_, fun i hi => ?_⟩
  · have hid : i.id ∉ ids := fun hid => hls i.id hid hlock
    exact ⟨h.mem hi hid, h.rows i.id hid⟩
  · exact h.mem hi fun hid => h.open_ i hi hid hc
  · obtain ⟨f, hf, hkeeps, -⟩ := h.imports
    exact ⟨f i, hf ▸ List.mem_map_of_mem hi, hkeeps i⟩

end Touches

/-! ## The writes of a transaction -/

/-- Overdue drafts expire, under their locks. -/
inductive Expiry (ls : List ImportLock) (db : ImportDb) : List ImportWrite → Prop
  | nothing : Expiry ls db []
  | overdue {ownerId : UserId} {now : Time} {ids : List ImportId} :
      (∀ id ∈ ids, .libraryImport id ∈ ls ∧ ∃ i ∈ db.imports, i.id = id ∧ i.ownerId = ownerId ∧
        i.status = .draft ∧ i.expiresAt ≤ now) →
      Expiry ls db [.expire ownerId now ids, .deleteRows ids]

/-- The call `r` is a preview whose file makes the draft. -/
structure DraftMade (request : Nat → ImportRequest env) (r : Nat) (input : NewDraft) : Prop where
  file : ∃ (file : ParsedFile env) (view : CatalogView)
    (fetched : String → Option BatchLookupRowOutcome),
    request r = .preview input.ownerId file ∧ input.sourceHash = file.sourceHash ∧
      validateRows env (previewRows env r file view fetched) = .ok input.rows

/-- The call `r` is an action on a row of the import, whose rows it makes again. -/
structure Rebuilt (request : Nat → ImportRequest env) (r : Nat) (i : LibraryImport)
    (rows rows' : List LibraryImportRowRecord) : Prop where
  action : ∃ (rowNumber : Nat) (patch : LibraryImportRowPatchRequest) (view : CatalogView)
    (fetched : String → Option BatchLookupRowOutcome) (rebuilt : List LibraryImportRowRecord),
    request r = .patchRow i.ownerId i.id rowNumber patch ∧
    (∃ target, (rows.find? fun row => row.rowNumber = rowNumber) = some target ∧
      target.payload.rowVersion = patch.expectedRowVersion) ∧
    rebuildRows env r rows rowNumber patch.action view fetched = .ok rebuilt ∧
    validateRows env rebuilt = .ok rows'

/-- The call `r` is a commit of the import, in the version of its rows, and the plan of these rows
is written. -/
structure Committing (request : Nat → ImportRequest env) (r : Nat) (i : LibraryImport)
    (rows : List LibraryImportRowRecord) (now : Time) (drafts : List ChainDraft)
    (copies : List (List Copy)) : Prop where
  plan : ∃ (version : String) (plan : LibraryImportCommitPlan),
    request r = .commit i.ownerId i.id version ∧
    requirePlan env ⟨i, rows⟩ version = .ok plan ∧
    WrittenImport now i.ownerId plan drafts copies

/-- What a transaction that writes nothing leads to. -/
structure Settled (request : Nat → ImportRequest env) (r : Nat) (next : ImportStage)
    (db : ImportDb) : Prop where
  saving : ∀ input again, next = .saving input again → DraftMade env request r input
  committed : ∀ outcome summary, next = .answered (.ok (.committed outcome summary)) →
    outcome = .alreadyCommitted ∧ summary ∈ db.imports ∧ summary.status = .committed ∧
      ∃ version, request r = .commit summary.ownerId summary.id version
  patched : ∀ owned, next = .answered (.ok (.draft owned)) →
    ∀ ownerId importId rowNumber patch, request r ≠ .patchRow ownerId importId rowNumber patch

def NewDraft.draft (input : NewDraft) (id : ImportId) : LibraryImport where
  id := id
  ownerId := input.ownerId
  sourceHash := input.sourceHash
  status := .draft
  rowCount := input.rows.length
  copyCount := input.copyCount
  createdCopyCount := none
  expiresAt := input.now + DRAFT_TTL_MS
  committedAt := none

/-- What a transaction does after the expiry: nothing, or one change of one import. -/
inductive ImportChange (request : Nat → ImportRequest env) (r : Nat) (next : ImportStage)
    (ls : List ImportLock) (db : ImportDb) : List ImportWrite → Prop
  | nothing : Settled env request r next db → ImportChange request r next ls db []
  | created {input : NewDraft} {id : ImportId} {owned : OwnedLibraryImport} :
      DraftMade env request r input → next = .answered (.ok (.draft owned)) →
      ImportChange request r next ls db
        [.insertRows id input.rows, .createImport (input.draft id)]
  | revived {input : NewDraft} {i : LibraryImport} {owned : OwnedLibraryImport} {rowCount copyCount : Nat}
      {expiresAt : Time} :
      DraftMade env request r input → next = .answered (.ok (.draft owned)) →
      i ∈ db.imports → .libraryImport i.id ∈ ls → i.status = .expired →
      ImportChange request r next ls db
        [.insertRows i.id input.rows, .setDraft i.id rowCount copyCount expiresAt,
          .deleteRows [i.id]]
  | updated {i : LibraryImport} {rows : List LibraryImportRowRecord} {owned : OwnedLibraryImport} :
      Rebuilt env request r i (db.rows i.id) rows → next = .answered (.ok (.draft owned)) →
      i ∈ db.imports → .libraryImport i.id ∈ ls → i.status = .draft →
      ImportChange request r next ls db [.insertRows i.id rows, .deleteRows [i.id]]
  | committed {i : LibraryImport} {now : Time} {drafts : List ChainDraft}
      {copies : List (List Copy)} :
      Committing env request r i (db.rows i.id) now drafts copies →
      next = .answered (.ok (.committed .committed
        ((ImportWrite.setCommitted i.id now copies.flatten.length).onImport i))) →
      i ∈ db.imports → .libraryImport i.id ∈ ls → i.status = .draft →
      ImportChange request r next ls db
        (.setCommitted i.id now copies.flatten.length :: .deleteRows [i.id] ::
          (importWrites drafts copies).reverse)

/-- What the commit of a transaction guarantees. -/
def ImportPost (request : Nat → ImportRequest env) (r : Nat) (next : ImportStage)
    (ls : List ImportLock) (db : ImportDb) (ws : List ImportWrite) : Prop :=
  ∃ ws₁ ws₂, ws = ws₂ ++ ws₁ ∧ Expiry ls db ws₁ ∧
    ImportChange env request r next ls (importSchema.view db ws₁) ws₂

/-! ## The rows that are written -/

section Rows

variable {env} {request : Nat → ImportRequest env} {r : Nat}

theorem storedRows_of_written {call : Nat} {inputs : List RowDraftInput}
    {resolved : Nat → Option ResolvedRow} {rows : List LibraryImportRowRecord}
    (h : validateRows env (recordsOf env call inputs resolved) = .ok rows)
    (hsorted : (inputs.map RowDraftInput.rowNumber).Pairwise (· < ·)) : StoredRows env rows := by
  refine ⟨fun row hrow => ?_, (numbers_of_written h).1 ▸ hsorted⟩
  obtain ⟨input, -, haccepted⟩ := (recordOf_of_written h).1 row hrow
  exact normalizes_rowRecordSchema env _ _ haccepted

theorem DraftMade.storedRows {input : NewDraft} (h : DraftMade env request r input) :
    StoredRows env input.rows := by
  obtain ⟨file, view, fetched, -, -, hrows⟩ := h.file
  refine storedRows_of_written hrows ?_
  have hnumbers : (file.rows.map toDraftInput).map RowDraftInput.rowNumber =
      file.rows.map LibraryImportParsedRow.rowNumber := by
    rw [List.map_map]
    rfl
  rw [hnumbers, (file.rows_spec env).1]
  exact List.pairwise_lt_range' 1

theorem rebuildInputs_numbers (rowNumber : Nat) (action : RowAction)
    (rows : List LibraryImportRowRecord) :
    (rows.map (rebuildInput env rowNumber action)).map RowDraftInput.rowNumber =
      rows.map LibraryImportRowRecord.rowNumber := by
  rw [List.map_map]
  exact List.map_congr_left fun row _ => rebuildInput_rowNumber env _ _ row

/-- A rebuild keeps the numbers of the rows. -/
theorem Rebuilt.numbers {i : LibraryImport} {rows rows' : List LibraryImportRowRecord}
    (h : Rebuilt env request r i rows rows') :
    rows'.map LibraryImportRowRecord.rowNumber = rows.map LibraryImportRowRecord.rowNumber := by
  obtain ⟨rowNumber, patch, view, fetched, rebuilt, -, -, hrebuilt, hvalid⟩ := h.action
  rw [rebuildRows_eq_ok hrebuilt] at hvalid
  rw [(numbers_of_written hvalid).1, rebuildInputs_numbers]

theorem Rebuilt.storedRows {i : LibraryImport} {rows rows' : List LibraryImportRowRecord}
    (h : Rebuilt env request r i rows rows') (hrows : StoredRows env rows) :
    StoredRows env rows' := by
  obtain ⟨rowNumber, patch, view, fetched, rebuilt, -, -, hrebuilt, hvalid⟩ := h.action
  rw [rebuildRows_eq_ok hrebuilt] at hvalid
  refine storedRows_of_written hvalid ?_
  rw [rebuildInputs_numbers]
  exact hrows.sorted

end Rows

/-! ## The changes keep the tables in order -/

section Changes

variable {env} {request : Nat → ImportRequest env} {r : Nat} {next : ImportStage}
  {ls : List ImportLock} {db : ImportDb} {ws : List ImportWrite}

theorem onImport_of_ne {x : ImportWrite} {i : LibraryImport} {ids : List ImportId}
    (hx : (∃ ownerId now, x = .expire ownerId now ids) ∨
      ∃ id ∈ ids, (∃ n m t, x = .setDraft id n m t) ∨ ∃ t n, x = .setCommitted id t n)
    (hi : i.id ∉ ids) : x.onImport i = i := by
  rcases hx with ⟨ownerId, now, rfl⟩ | ⟨id, hid, ⟨n, m, t, rfl⟩ | ⟨t, n, rfl⟩⟩
  · exact if_neg fun h => hi h.1
  · have hne : ¬i.id = id := fun h => hi (h ▸ hid)
    exact if_neg hne
  · have hne : ¬i.id = id := fun h => hi (h ▸ hid)
    exact if_neg hne

theorem view_overdue (db : ImportDb) (ownerId : UserId) (now : Time) (ids : List ImportId) :
    let db' := importSchema.view db [.expire ownerId now ids, .deleteRows ids]
    db'.imports = db.imports.map (ImportWrite.expire ownerId now ids).onImport ∧
      db'.rows = fun id => if id ∈ ids then [] else db.rows id := by
  refine ⟨?_, rfl⟩
  show List.map _ ((ImportWrite.deleteRows ids).apply db).imports = _
  rw [ImportWrite.imports_apply_deleteRows]

/-- The expiry makes no import a committed one. -/
theorem status_of_expire {ownerId : UserId} {now : Time} {ids : List ImportId} {i : LibraryImport}
    (h : ((ImportWrite.expire ownerId now ids).onImport i).status = .committed) :
    i.status = .committed := by
  unfold ImportWrite.onImport at h
  dsimp only at h
  split at h
  · cases h
  · exact h

/-- Some drafts expire: they are locked, and they lose their rows. -/
theorem Expiry.touches (hdb : StoredDrafts env db) (h : Expiry ls db ws) :
    ∃ ids : List ImportId, (∀ id ∈ ids, .libraryImport id ∈ ls) ∧
      Touches ids db (importSchema.view db ws) ∧
      ∀ id ∈ ids, (importSchema.view db ws).rows id = [] := by
  cases h with
  | nothing =>
    exact ⟨[], nofun, ⟨⟨id, by simp, fun _ => ⟨rfl, rfl, rfl⟩, fun _ _ => rfl⟩, fun _ _ => rfl,
      fun _ _ h => nomatch h⟩, nofun⟩
  | @overdue ownerId now ids hids =>
    obtain ⟨himports, hrows⟩ := view_overdue db ownerId now ids
    refine ⟨ids, fun id hid => (hids id hid).1, ⟨⟨_, himports, fun i => ⟨by simp, by simp, by simp⟩,
      fun i hi => onImport_of_ne (.inl ⟨_, _, rfl⟩) hi⟩, fun id hid => ?_, fun i hi hid => ?_⟩,
      fun id hid => ?_⟩
    · rw [hrows]
      exact if_neg hid
    · obtain ⟨-, j, hj, hjid, -, hdraft, -⟩ := hids i.id hid
      rw [hdb.import_ext hi hj hjid.symm, hdraft]
      nofun
    · rw [hrows]
      exact if_pos hid

theorem Expiry.stored (hdb : StoredDrafts env db) (h : Expiry ls db ws) :
    StoredDrafts env (importSchema.view db ws) := by
  obtain ⟨ids, -, htouches, hrows⟩ := h.touches hdb
  refine htouches.stored hdb (fun id hid hne => absurd (hrows id hid) hne) fun id hid => ?_
  rw [hrows id hid]
  exact storedRows_nil

/-- An expiry takes no key. -/
theorem Expiry.free (h : Expiry ls db ws) {ws' : List ImportWrite}
    (hfree : importSchema.Free (ws' ++ ws) db) :
    importSchema.Free ws' (importSchema.view db ws) := by
  have hkeys : importSchema.keysOf ws = [] := by
    cases h <;> rfl
  intro key hkey
  refine Bool.eq_false_iff.mpr fun htaken => ?_
  rcases importSchema.taken_view.mp htaken with hin | htaken
  · rw [hkeys] at hin
    cases hin
  · have hmem : key ∈ importSchema.keysOf (ws' ++ ws) := by
      rw [Schema.keysOf, List.flatMap_append]
      exact List.mem_append_left _ hkey
    exact Bool.false_ne_true ((hfree key hmem).symm.trans htaken)

/-- What is overdue and locked stays overdue. -/
theorem Expiry.relied {db' : ImportDb} (h : Expiry ls db ws) (hrely : ImportRely env ls db db') :
    Expiry ls db' ws := by
  cases h with
  | nothing => exact .nothing
  | overdue hids =>
    refine .overdue fun id hid => ?_
    obtain ⟨hlock, i, hi, rfl, howner, hdraft, hdue⟩ := hids id hid
    exact ⟨hlock, i, (hrely.locked i hi hlock).1, rfl, howner, hdraft, hdue⟩

/-- What the others do looks the same behind the expiry. -/
theorem ImportRely.view {db' : ImportDb} (hrely : ImportRely env ls db db') (h : Expiry ls db ws) :
    ImportRely env ls (importSchema.view db ws) (importSchema.view db' ws) := by
  have hstored := (h.relied hrely).stored hrely.stored
  cases h with
  | nothing => exact hrely
  | @overdue ownerId now ids hids =>
    obtain ⟨himports, hrows⟩ := view_overdue db ownerId now ids
    obtain ⟨himports', hrows'⟩ := view_overdue db' ownerId now ids
    have hmem : ∀ j ∈ db'.imports, (ImportWrite.expire ownerId now ids).onImport j ∈
        (importSchema.view db' [.expire ownerId now ids, .deleteRows ids]).imports := fun j hj => by
      rw [himports']
      exact List.mem_map_of_mem hj
    refine ⟨hstored, fun i hi hlock => ?_, fun i hi hc => ?_, fun i hi => ?_⟩ <;>
      rw [himports] at hi <;>
      obtain ⟨j, hj, rfl⟩ := List.mem_map.mp hi
    · rw [ImportWrite.onImport_id] at hlock ⊢
      obtain ⟨hj', hsame⟩ := hrely.locked j hj hlock
      exact ⟨hmem j hj', by simp only [hrows, hrows', hsame]⟩
    · exact hmem j (hrely.committed j hj (status_of_expire hc))
    · obtain ⟨j', hj', hkeys⟩ := hrely.there j hj
      exact ⟨_, hmem j' hj', by simpa using hkeys⟩

/-- What was found under a lock is so as long as it is held. -/
theorem ImportChange.relied {db' : ImportDb} (h : ImportChange env request r next ls db ws)
    (hrely : ImportRely env ls db db') : ImportChange env request r next ls db' ws := by
  cases h with
  | nothing hsettled =>
    refine .nothing ⟨hsettled.saving, fun outcome summary hnext => ?_, hsettled.patched⟩
    obtain ⟨houtcome, hmem, hstatus, hrequest⟩ := hsettled.committed outcome summary hnext
    exact ⟨houtcome, hrely.committed summary hmem hstatus, hstatus, hrequest⟩
  | created hmade hnext => exact .created hmade hnext
  | revived hmade hnext hi hlock hstatus =>
    exact .revived hmade hnext (hrely.locked _ hi hlock).1 hlock hstatus
  | updated hrebuilt hnext hi hlock hstatus =>
    obtain ⟨hi', hrows⟩ := hrely.locked _ hi hlock
    rw [← hrows] at hrebuilt
    exact .updated hrebuilt hnext hi' hlock hstatus
  | committed hcommitting hnext hi hlock hstatus =>
    obtain ⟨hi', hrows⟩ := hrely.locked _ hi hlock
    rw [← hrows] at hcommitting
    exact .committed hcommitting hnext hi' hlock hstatus

/-- Rows that are deleted and inserted again. -/
theorem onRows_replace (id : ImportId) (added : List LibraryImportRowRecord)
    (rows : ImportId → List LibraryImportRowRecord) (j : ImportId) :
    (ImportWrite.insertRows id added).onRows ((ImportWrite.deleteRows [id]).onRows rows) j =
      if j = id then added else rows j := by
  show Function.update (fun j => if j ∈ [id] then [] else rows j) id
    ((if id ∈ [id] then [] else rows id) ++ added) j = _
  rw [Function.update_apply]
  by_cases hj : j = id <;> simp [hj]

/-- The chains and the copies of a commit touch no draft. -/
theorem view_importWrites (db : ImportDb) (drafts : List ChainDraft) (copies : List (List Copy)) :
    (importSchema.view db (importWrites drafts copies).reverse).imports = db.imports ∧
      (importSchema.view db (importWrites drafts copies).reverse).rows = db.rows := by
  rw [importWrites, ← List.map_reverse]
  exact view_catalog db _

theorem view_revived (db : ImportDb) (id : ImportId) (rows : List LibraryImportRowRecord)
    (rowCount copyCount : Nat) (expiresAt : Time) :
    (importSchema.view db [.insertRows id rows, .setDraft id rowCount copyCount expiresAt,
      .deleteRows [id]]).imports =
      db.imports.map (ImportWrite.setDraft id rowCount copyCount expiresAt).onImport := by
  show List.map _ (List.map _ ((ImportWrite.deleteRows [id]).apply db).imports) = _
  rw [ImportWrite.imports_apply_deleteRows]
  exact List.map_id _

theorem view_updated (db : ImportDb) (id : ImportId) (rows : List LibraryImportRowRecord) :
    (importSchema.view db [.insertRows id rows, .deleteRows [id]]).imports =
      db.imports.map (ImportWrite.insertRows id rows).onImport := by
  show List.map _ ((ImportWrite.deleteRows [id]).apply db).imports = _
  rw [ImportWrite.imports_apply_deleteRows]

theorem view_committed (db : ImportDb) (id : ImportId) (now : Time) (n : Nat)
    (drafts : List ChainDraft) (copies : List (List Copy)) :
    (importSchema.view db (.setCommitted id now n :: .deleteRows [id] ::
      (importWrites drafts copies).reverse)).imports =
      db.imports.map (ImportWrite.setCommitted id now n).onImport := by
  show List.map _ ((ImportWrite.deleteRows [id]).apply _).imports = _
  rw [ImportWrite.imports_apply_deleteRows]
  exact congrArg (List.map _) (view_importWrites db drafts copies).1

/-- A change of one import that is locked. -/
theorem Touches.effect {i : LibraryImport} {rows : List LibraryImportRowRecord} {db' : ImportDb}
    (h : Touches [i.id] db db') (hdb : StoredDrafts env db) (hlock : .libraryImport i.id ∈ ls)
    (hrows : db'.rows i.id = rows) (hstored : StoredRows env rows)
    (hdraft : rows ≠ [] → ∃ i' ∈ db'.imports, i'.id = i.id ∧ i'.status = .draft) :
    StoredDrafts env db' ∧ ∀ ls', (∀ n ∈ ls', n ∉ ls) → ImportRely env ls' db db' := by
  have hdb' : StoredDrafts env db' := by
    refine h.stored hdb (fun id hid => ?_) fun id hid => ?_ <;>
      rw [List.mem_singleton.mp hid, hrows]
    · exact hdraft
    · exact hstored
  refine ⟨hdb', fun ls' hls' => h.rely hdb' fun id hid hid' => ?_⟩
  rw [List.mem_singleton.mp hid] at hid'
  exact hls' _ hid' hlock

/-- A change of the import `i`, which is not committed. -/
theorem StoredDrafts.touches {db' : ImportDb} (hdb : StoredDrafts env db) {i : LibraryImport}
    (hi : i ∈ db.imports) (hopen : i.status ≠ .committed) {x : ImportWrite}
    (hx : (∃ n m t, x = .setDraft i.id n m t) ∨ (∃ t n, x = .setCommitted i.id t n) ∨
      ∃ rows, x = .insertRows i.id rows) (himports : db'.imports = db.imports.map x.onImport)
    (hrows : ∀ j, j ≠ i.id → db'.rows j = db.rows j) : Touches [i.id] db db' := by
  refine ⟨⟨x.onImport, himports, x.onImport_keeps, fun j hj => ?_⟩, fun j hj => ?_,
    fun j hj hid => ?_⟩
  · rcases hx with h | h | ⟨rows, rfl⟩
    · exact onImport_of_ne (.inr ⟨i.id, List.mem_singleton_self _, .inl h⟩) hj
    · exact onImport_of_ne (.inr ⟨i.id, List.mem_singleton_self _, .inr h⟩) hj
    · rfl
  · exact hrows j fun h => hj (List.mem_singleton.mpr h)
  · rw [hdb.import_ext hj hi (List.mem_singleton.mp hid)]
    exact hopen

/-- A new draft: its keys were free. -/
theorem draft_created {input : NewDraft} {id : ImportId} (hdb : StoredDrafts env db)
    (hstored : StoredRows env input.rows)
    (hnew : ∀ i ∈ db.imports, i.id ≠ id ∧
      (i.ownerId, i.sourceHash) ≠ (input.ownerId, input.sourceHash)) :
    let db' := importSchema.view db [.insertRows id input.rows, .createImport (input.draft id)]
    StoredDrafts env db' ∧ (∀ ls, ImportRely env ls db db') ∧
      ∀ j, db'.rows j = if j = id then input.rows else db.rows j := by
  intro db'
  have himports : db'.imports = input.draft id :: db.imports :=
    ImportWrite.imports_apply_insertRows _ id input.rows
  have hrows : ∀ j, db'.rows j = if j = id then input.rows else db.rows j := by
    intro j
    have hnone : db.rows id = [] := by
      by_contra hne
      obtain ⟨i, hi, hid, -⟩ := hdb.drafts id hne
      exact (hnew i hi).1 hid
    show Function.update db.rows id (db.rows id ++ input.rows) j = _
    rw [Function.update_apply, hnone]
    rfl
  have hmem : ∀ i ∈ db.imports, i ∈ db'.imports := fun i hi => by
    rw [himports]
    exact List.mem_cons_of_mem _ hi
  have hdb' : StoredDrafts env db' := by
    refine ⟨?_, ?_, fun j hj => ?_, fun j => ?_⟩
    · rw [himports, List.map_cons, List.nodup_cons]
      refine ⟨fun h => ?_, hdb.ids⟩
      obtain ⟨i, hi, hid⟩ := List.mem_map.mp h
      exact (hnew i hi).1 hid
    · rw [himports, List.map_cons, List.nodup_cons]
      refine ⟨fun h => ?_, hdb.hashes⟩
      obtain ⟨i, hi, hhash⟩ := List.mem_map.mp h
      exact (hnew i hi).2 hhash
    · rw [hrows] at hj
      split at hj
      · next hid =>
        exact ⟨input.draft id, himports ▸ List.mem_cons_self, hid.symm, rfl⟩
      · obtain ⟨i, hi, hid, hdraft⟩ := hdb.drafts j hj
        exact ⟨i, hmem i hi, hid, hdraft⟩
    · rw [hrows]
      split
      · exact hstored
      · exact hdb.rows j
  refine ⟨hdb', fun ls => ⟨hdb', fun i hi _ => ⟨hmem i hi, ?_⟩, fun i hi _ => hmem i hi,
    fun i hi => ⟨i, hmem i hi, rfl, rfl, rfl⟩⟩, hrows⟩
  rw [hrows]
  exact if_neg (hnew i hi).1

/-- The keys of a new draft are free: no import has them. -/
theorem new_of_free {input : NewDraft} {id : ImportId}
    (hfree : importSchema.Free [.insertRows id input.rows, .createImport (input.draft id)] db) :
    ∀ i ∈ db.imports, i.id ≠ id ∧
      (i.ownerId, i.sourceHash) ≠ (input.ownerId, input.sourceHash) := by
  have hkey : ∀ k ∈ [ImportKey.importId id, .ownerHash input.ownerId input.sourceHash],
      db.taken k = false := fun k hk => hfree k hk
  have hid := hkey _ List.mem_cons_self
  have hhash := hkey _ (List.mem_cons_of_mem _ List.mem_cons_self)
  simp only [ImportDb.taken, List.any_eq_false, decide_eq_true_eq] at hid hhash
  exact fun i hi => ⟨hid i hi, fun h => hhash i hi (Prod.ext_iff.mp h)⟩

/-- **What a change makes of the tables**: a new draft, or another state of one import that is
locked. -/
theorem ImportChange.effect (hdb : StoredDrafts env db)
    (h : ImportChange env request r next ls db ws) (hfree : importSchema.Free ws db) :
    StoredDrafts env (importSchema.view db ws) ∧
      ∀ ls', (∀ n ∈ ls', n ∉ ls) → ImportRely env ls' db (importSchema.view db ws) := by
  cases h with
  | nothing => exact ⟨hdb, fun ls' _ => .refl hdb⟩
  | @created input id owned hmade hnext =>
    obtain ⟨hdb', hrely, -⟩ := draft_created hdb hmade.storedRows (new_of_free hfree)
    exact ⟨hdb', fun ls' _ => hrely ls'⟩
  | @revived input i owned n m t hmade hnext hi hlock hstatus =>
    have hrows := onRows_replace i.id input.rows db.rows
    have himports := view_revived db i.id input.rows n m t
    have htouches := hdb.touches hi (by rw [hstatus]; nofun) (.inl ⟨n, m, t, rfl⟩) himports
      fun j hj => (hrows j).trans (if_neg hj)
    refine htouches.effect hdb hlock ((hrows i.id).trans (if_pos rfl)) hmade.storedRows fun _ => ?_
    exact ⟨_, himports ▸ List.mem_map_of_mem hi, by simp, by simp [ImportWrite.onImport]⟩
  | @updated i rows owned hrebuilt hnext hi hlock hstatus =>
    have hrows := onRows_replace i.id rows db.rows
    have himports := view_updated db i.id rows
    have htouches := hdb.touches hi (by rw [hstatus]; nofun) (.inr (.inr ⟨rows, rfl⟩)) himports
      fun j hj => (hrows j).trans (if_neg hj)
    refine htouches.effect hdb hlock ((hrows i.id).trans (if_pos rfl))
      (hrebuilt.storedRows (hdb.rows i.id)) fun _ => ?_
    exact ⟨i, himports ▸ List.mem_map_of_mem (f := fun i => i) hi, rfl, hstatus⟩
  | @committed i now drafts copies hcommitting hnext hi hlock hstatus =>
    obtain ⟨-, hrows⟩ := view_importWrites db drafts copies
    have himports := view_committed db i.id now copies.flatten.length drafts copies
    have htouches := hdb.touches hi (by rw [hstatus]; nofun) (.inr (.inl ⟨_, _, rfl⟩)) himports
      fun j hj => (if_neg fun h => hj (List.mem_singleton.mp h)).trans (congrFun hrows j)
    exact htouches.effect hdb hlock (if_pos (List.mem_singleton_self i.id)) storedRows_nil
      fun h => absurd rfl h

end Changes

end Bookswap
