import Bookswap.Guarantees.ImportLifecycle

/-!
# Versions of a draft

Every call that writes rows mints a version for one of them at least, and writes once. So rows with
the versions of an earlier state are the rows of that state.

- `RowsEffect`: what a commit of the database does to the rows.
- `Wrote`, `VersionsMinted`, `LaterRows`: who wrote the rows, where their versions are from, and
  what becomes of them.
- `DraftConcurrency`, `draft_concurrency`: the version of a draft stands for its rows.
-/

namespace Bookswap

open ReadCommitted

/-- The transaction stores rows. -/
def ImportWrite.insertsRows : ImportWrite → Bool
  | .insertRows _ _ => true
  | _ => false

section Effect

variable {env : ImportEnv} {request : Nat → ImportRequest env} {r : Nat} {next : ImportStage}
  {ls : List ImportLock} {db : ImportDb} {ws : List ImportWrite}

/-- What a transaction does to the rows: some drafts lose theirs, and one may get others. -/
inductive RowsEffect (request : Nat → ImportRequest env) (r : Nat) (next : ImportStage)
    (db db' : ImportDb) (ws : List ImportWrite) : Prop
  | kept : (∀ id, db'.rows id = db.rows id ∨ db'.rows id = []) →
      ws.any ImportWrite.insertsRows = false →
      (∀ owned, next = .answered (.ok (.draft owned)) →
        ∀ ownerId importId rowNumber patch, request r ≠ .patchRow ownerId importId rowNumber patch) →
      RowsEffect request r next db db' ws
  | made {id : ImportId} {input : NewDraft} {owned : OwnedLibraryImport} :
      DraftMade env request r input → db'.rows id = input.rows →
      (∀ j, j ≠ id → db'.rows j = db.rows j ∨ db'.rows j = []) →
      next = .answered (.ok (.draft owned)) → ws.any ImportWrite.insertsRows = true →
      RowsEffect request r next db db' ws
  | rebuilt {i : LibraryImport} {rows : List LibraryImportRowRecord} {owned : OwnedLibraryImport} :
      Rebuilt env request r i (db.rows i.id) rows → db'.rows i.id = rows →
      (∀ j, j ≠ i.id → db'.rows j = db.rows j ∨ db'.rows j = []) →
      next = .answered (.ok (.draft owned)) → ws.any ImportWrite.insertsRows = true →
      RowsEffect request r next db db' ws

theorem Expiry.inserts_nothing (h : Expiry ls db ws) :
    ws.any ImportWrite.insertsRows = false := by
  cases h <;> rfl

/-- A draft that has rows after the expiry had them before. -/
theorem Expiry.rows_eq (h : Expiry ls db ws) {id : ImportId}
    (hne : (importSchema.view db ws).rows id ≠ []) :
    (importSchema.view db ws).rows id = db.rows id :=
  (h.creates_nothing.2.2 id).resolve_right hne

/-- **What a commit does to the rows.** -/
theorem ImportPost.rowsEffect (hdb : StoredDrafts env db) (hfree : importSchema.Free ws db)
    (h : ImportPost env request r next ls db ws) :
    RowsEffect request r next db (importSchema.view db ws) ws := by
  obtain ⟨ws₁, ws₂, rfl, hexpiry, hchange⟩ := h
  obtain ⟨-, -, hrows⟩ := hexpiry.creates_nothing
  have hquiet := hexpiry.inserts_nothing
  have hdb₁ := hexpiry.stored hdb
  rw [Schema.view_append]
  cases hchange with
  | nothing hsettled => exact .kept hrows hquiet hsettled.patched
  | @created input id owned hmade hnext =>
    obtain ⟨-, -, hnew⟩ := draft_created hdb₁ hmade.storedRows (new_of_free (hexpiry.free hfree))
    refine .made hmade ((hnew id).trans (if_pos rfl)) (fun j hj => ?_) hnext rfl
    rw [hnew j, if_neg hj]
    exact hrows j
  | @revived input i owned n m t hmade hnext =>
    have hnew := onRows_replace i.id input.rows (importSchema.view db ws₁).rows
    refine .made hmade ((hnew i.id).trans (if_pos rfl)) (fun j hj => ?_) hnext rfl
    have hsame := (hnew j).trans (if_neg hj)
    exact (hrows j).imp hsame.trans hsame.trans
  | @updated i rows owned hrebuilt hnext =>
    have hnew := onRows_replace i.id rows (importSchema.view db ws₁).rows
    have hne : (importSchema.view db ws₁).rows i.id ≠ [] := by
      obtain ⟨_, _, _, _, _, -, ⟨target, htarget, -⟩, -⟩ := hrebuilt.action
      rintro hnil
      rw [hnil] at htarget
      cases htarget
    refine .rebuilt (hexpiry.rows_eq hne ▸ hrebuilt) ((hnew i.id).trans (if_pos rfl))
      (fun j hj => ?_) hnext rfl
    have hsame := (hnew j).trans (if_neg hj)
    exact (hrows j).imp hsame.trans hsame.trans
  | @committed i now drafts copies hcommitting hnext =>
    refine .kept (fun id => ?_) ?_ (by rw [hnext]; nofun)
    · by_cases hid : id ∈ [i.id]
      · exact .inr (if_pos hid)
      · have hsame : (importSchema.view (importSchema.view db ws₁)
            (.setCommitted i.id now copies.flatten.length :: .deleteRows [i.id] ::
              (importWrites drafts copies).reverse)).rows id = (importSchema.view db ws₁).rows id :=
          (if_neg hid).trans (congrFun (view_importWrites _ drafts copies).2 id)
        rw [hsame]
        exact hrows id
    · rw [List.any_append, hquiet, Bool.or_false, List.any_cons, List.any_cons, List.any_reverse,
        importWrites, List.any_map]
      simp [ImportWrite.insertsRows, Function.comp_def]

end Effect

/-! ## Versions -/

section Versions

variable {env : ImportEnv} {request : Nat → ImportRequest env} {r : Nat}

/-- The version is one that the call minted for the row. -/
def Minted (env : ImportEnv) (q : Nat) (row : LibraryImportRowRecord) : Prop :=
  row.payload.rowVersion = env.randomUUID q row.rowNumber

theorem version_of_written {call : Nat} {inputs : List RowDraftInput}
    {resolved : Nat → Option ResolvedRow} {rows : List LibraryImportRowRecord}
    (h : validateRows env (recordsOf env call inputs resolved) = .ok rows) :
    (∀ row ∈ rows, ∃ input ∈ inputs, row.rowNumber = input.rowNumber ∧
      row.payload.rowVersion = input.rowVersion.getD (env.randomUUID call input.rowNumber)) ∧
    ∀ input ∈ inputs, ∃ row ∈ rows, row.rowNumber = input.rowNumber ∧
      row.payload.rowVersion = input.rowVersion.getD (env.randomUUID call input.rowNumber) := by
  have hkeeps : ∀ {input : RowDraftInput} {row : LibraryImportRowRecord},
      libraryImportRowRecordSchema env (recordOf env call inputs resolved input) = some row →
      row.rowNumber = input.rowNumber ∧
        row.payload.rowVersion = input.rowVersion.getD (env.randomUUID call input.rowNumber) := by
    intro input row haccepted
    obtain ⟨hnumber, -, -, -, hversion⟩ := @toRowRecord_keeps env call input
      (duplicateErrors inputs input.rowNumber) (resolved input.rowNumber)
    obtain ⟨kn, -, -, -, -, kv⟩ := accepted_keeps haccepted
    exact ⟨kn.trans hnumber, kv.trans hversion⟩
  obtain ⟨hrows, hinputs⟩ := recordOf_of_written h
  refine ⟨fun row hrow => ?_, fun input hinput => ?_⟩
  · obtain ⟨input, hinput, haccepted⟩ := hrows row hrow
    exact ⟨input, hinput, hkeeps haccepted⟩
  · obtain ⟨row, hrow, haccepted⟩ := hinputs input hinput
    exact ⟨row, hrow, hkeeps haccepted⟩

/-- The rows of a new draft: each has a version of the call. -/
theorem DraftMade.minted {input : NewDraft} (h : DraftMade env request r input) :
    (∀ row ∈ input.rows, Minted env r row) ∧ input.rows ≠ [] := by
  obtain ⟨file, view, fetched, -, -, hrows⟩ := h.file
  have hnumbers := (numbers_of_written hrows).1
  refine ⟨fun row hrow => ?_, fun hnil => ?_⟩
  · obtain ⟨input', hinput, hnumber, hversion⟩ := (version_of_written hrows).1 row hrow
    obtain ⟨parsed, -, rfl⟩ := List.mem_map.mp hinput
    rw [Minted, hnumber, hversion]
    rfl
  · rw [hnil, List.map_map] at hnumbers
    have hempty : file.rows = [] := List.map_eq_nil_iff.mp hnumbers.symm
    have hlength := congrArg List.length (file.rows_spec env).1
    rw [hempty, List.length_range'] at hlength
    have hsome := file.some_rows
    simp only [List.map_nil, List.length_nil] at hlength
    omega

/-- The rows after an action: one has a version of the call, which had the expected one; the others
have theirs. -/
theorem Rebuilt.versions {i : LibraryImport} {rows rows' : List LibraryImportRowRecord}
    (h : Rebuilt env request r i rows rows') :
    ∃ rowNumber patch, request r = .patchRow i.ownerId i.id rowNumber patch ∧
      (∃ target ∈ rows, target.rowNumber = rowNumber ∧
        target.payload.rowVersion = patch.expectedRowVersion) ∧
      (∃ row ∈ rows', Minted env r row) ∧
      ∀ row ∈ rows', Minted env r row ∨ ∃ old ∈ rows, old.rowNumber = row.rowNumber ∧
        old.payload.rowVersion = row.payload.rowVersion ∧ row.rowNumber ≠ rowNumber := by
  obtain ⟨rowNumber, patch, view, fetched, rebuilt, hrequest, ⟨target, htarget, hversion⟩, hrebuilt,
    hvalid⟩ := h.action
  rw [rebuildRows_eq_ok hrebuilt] at hvalid
  have hmem := List.mem_of_find?_eq_some htarget
  have hnumber : target.rowNumber = rowNumber := by simpa using List.find?_some htarget
  have hnone : ∀ row : LibraryImportRowRecord,
      (patchedInput env row patch.action).rowVersion = none := by
    intro row
    cases patch.action <;> rfl
  refine ⟨rowNumber, patch, hrequest, ⟨target, hmem, hnumber, hversion⟩, ?_, fun row hrow => ?_⟩
  · obtain ⟨row, hrow, hn, hv⟩ := (version_of_written hvalid).2 _
      (List.mem_map_of_mem hmem)
    refine ⟨row, hrow, ?_⟩
    rw [Minted, hn, hv, rebuildInput, if_pos hnumber, hnone]
    rfl
  · obtain ⟨input, hinput, hn, hv⟩ := (version_of_written hvalid).1 row hrow
    obtain ⟨old, hold, rfl⟩ := List.mem_map.mp hinput
    by_cases hown : old.rowNumber = rowNumber
    · refine .inl ?_
      rw [Minted, hn, hv, rebuildInput, if_pos hown, hnone]
      rfl
    · refine .inr ⟨old, hold, ?_, ?_, ?_⟩
      · rw [hn, rebuildInput_rowNumber]
      · rw [hv, rebuildInput, if_neg hown]
        rfl
      · rw [hn, rebuildInput_rowNumber]
        exact hown

end Versions

/-! ## In every run -/

section Runs

variable {env : ImportEnv} {request : Nat → ImportRequest env} {w w' w'' : Importing}
  {op : ServiceOp ImportDb ImportKey ImportStage}

/-- The call has stored rows. -/
def Wrote (w : Importing) (q : Nat) : Prop :=
  ∃ ws, (q, ws) ∈ w.log ∧ ws.any ImportWrite.insertsRows = true

/-- A call that has stored rows has ended, and whatever is stored has a version of such a call. -/
structure VersionsMinted (env : ImportEnv) (w : Importing) : Prop where
  ended : ∀ q, Wrote w q → w.calls q = some .lost ∨
    ∃ answer, w.calls q = some (.between (.answered answer))
  minted : ∀ id, ∀ row ∈ w.db.rows id, ∃ q, Wrote w q ∧ Minted env q row

/-- What becomes of the rows: they stay, or they go, or a call that had stored none stores some. -/
structure LaterRows (env : ImportEnv) (w w' : Importing) : Prop where
  wrote : ∀ q, Wrote w q → Wrote w' q
  rows : ∀ id, w'.db.rows id = w.db.rows id ∨ w'.db.rows id = [] ∨
    ∃ row ∈ w'.db.rows id, ∃ q, ¬ Wrote w q ∧ Wrote w' q ∧ Minted env q row
  origin : ∀ id, ∀ row ∈ w'.db.rows id,
    (∃ old ∈ w.db.rows id, old.rowNumber = row.rowNumber ∧
      old.payload.rowVersion = row.payload.rowVersion) ∨
    ∃ q, ¬ Wrote w q ∧ Wrote w' q ∧ Minted env q row

theorem LaterRows.refl (env : ImportEnv) (w : Importing) : LaterRows env w w :=
  ⟨fun _ h => h, fun _ => .inl rfl, fun _ row hrow => .inl ⟨row, hrow, rfl, rfl⟩⟩

theorem LaterRows.trans (h : LaterRows env w w') (h' : LaterRows env w' w'') :
    LaterRows env w w'' := by
  refine ⟨fun q hq => h'.wrote q (h.wrote q hq), fun id => ?_, fun id row hrow => ?_⟩
  · rcases h'.rows id with hsame | hnil | ⟨row, hrow, q, hq, hq', hminted⟩
    · rw [hsame]
      rcases h.rows id with h | h | ⟨row, hrow, q, hq, hq', hminted⟩
      · exact .inl h
      · exact .inr (.inl h)
      · exact .inr (.inr ⟨row, hrow, q, hq, h'.wrote q hq', hminted⟩)
    · exact .inr (.inl hnil)
    · exact .inr (.inr ⟨row, hrow, q, fun hw => hq (h.wrote q hw), hq', hminted⟩)
  · rcases h'.origin id row hrow with ⟨mid, hmid, hn, hv⟩ | ⟨q, hq, hq', hminted⟩
    · rcases h.origin id mid hmid with ⟨old, hold, hn', hv'⟩ | ⟨q, hq, hq', hminted⟩
      · exact .inl ⟨old, hold, hn'.trans hn, hv'.trans hv⟩
      · refine .inr ⟨q, hq, h'.wrote q hq', ?_⟩
        rw [Minted, ← hv, ← hn]
        exact hminted
    · exact .inr ⟨q, fun hw => hq (h.wrote q hw), hq', hminted⟩

theorem importScript_answered (q : Nat) (answer : Except ImportFailure ImportReply) :
    importScript env request q (.answered answer) = none := by
  unfold importScript
  cases request q <;> rfl

/-- A call with a transaction to run has stored nothing yet. -/
theorem VersionsMinted.inside (h : VersionsMinted env w) {q : Nat} {stage : ImportStage}
    {tx : Open ImportDb ImportWrite ImportLock Nat Unit ImportOutside ImportFailure ImportStage}
    (hq : w.calls q = some (.inside stage tx)) : ¬ Wrote w q := by
  intro hw
  rcases h.ended q hw with hlost | ⟨answer, hanswered⟩
  · rw [hq] at hlost
    cases hlost
  · rw [hq] at hanswered
    cases hanswered

/-- The calls that have stored rows, after a step that stores none. -/
theorem VersionsMinted.ended_step (h : VersionsMinted env w)
    (hstep : (libraryImport env request).machine.step w op w') (q : Nat) (hq : Wrote w q) :
    w'.calls q = some .lost ∨ ∃ answer, w'.calls q = some (.between (.answered answer)) := by
  have hmove : ∀ r a, (r = q → a = .lost) → (w.move r a).calls q = some .lost ∨
      ∃ answer, (w.move r a).calls q = some (.between (.answered answer)) := by
    intro r a hlost
    rw [Serving.move_calls]
    by_cases hqr : q = r
    · rw [if_pos hqr, hlost hqr.symm]
      exact .inl rfl
    · rw [if_neg hqr]
      exact h.ended q hq
  -- a call that moves was not at its end
  have hactive : ∀ {r stage tx}, w.calls r = some (.inside stage tx) → r ≠ q := by
    rintro r stage tx hr rfl
    exact h.inside hr hq
  cases hstep with
  | @post r stage hr _ =>
    refine hmove _ _ fun hrq => ?_
    subst hrq
    rcases h.ended _ hq with hlost | ⟨answer, hanswered⟩
    · rw [hr] at hlost
      cases hlost
    · rw [hr] at hanswered
      cases hanswered
  | @begin r stage p hr hp =>
    refine hmove _ _ fun hrq => ?_
    subst hrq
    rcases h.ended _ hq with hlost | ⟨answer, hanswered⟩
    · rw [hr] at hlost
      cases hlost
    · rw [hr] at hanswered
      cases hanswered
      change importScript env request r (.answered answer) = some p at hp
      rw [importScript_answered] at hp
      cases hp
  | statement hr => exact hmove _ _ fun hrq => absurd hrq (hactive hr)
  | commit hr => exact hmove _ _ fun hrq => absurd hrq (hactive hr)
  | fail hr => exact hmove _ _ fun hrq => absurd hrq (hactive hr)
  | refuse hr => exact hmove _ _ fun hrq => absurd hrq (hactive hr)
  | abort => exact hmove _ _ fun _ => rfl
  | elsewhere => exact h.ended q hq

theorem wrote_afterCommit {r q : Nat} {next : ImportStage} {ws : List ImportWrite} :
    Wrote (w.afterCommit importSchema r next ws) q ↔
      Wrote w q ∨ (q = r ∧ ws.any ImportWrite.insertsRows = true) := by
  constructor
  · rintro ⟨ws', hmem, hinserts⟩
    rcases List.mem_cons.mp hmem with heq | hmem
    · cases heq
      exact .inr ⟨rfl, hinserts⟩
    · exact .inl ⟨ws', hmem, hinserts⟩
  · rintro (⟨ws', hmem, hinserts⟩ | ⟨rfl, hinserts⟩)
    · exact ⟨ws', List.mem_cons_of_mem _ hmem, hinserts⟩
    · exact ⟨ws, List.mem_cons_self, hinserts⟩

/-- The rows after a transaction of a call that had stored none. -/
theorem laterRows_of_effect {r : Nat} {next : ImportStage} {ws : List ImportWrite}
    (hr : ¬ Wrote w r) (h : RowsEffect request r next w.db (importSchema.view w.db ws) ws) :
    LaterRows env w (w.afterCommit importSchema r next ws) := by
  have hstay : ∀ id, (importSchema.view w.db ws).rows id = w.db.rows id ∨
      (importSchema.view w.db ws).rows id = [] → ∀ row ∈ (importSchema.view w.db ws).rows id,
      ∃ old ∈ w.db.rows id, old.rowNumber = row.rowNumber ∧
        old.payload.rowVersion = row.payload.rowVersion := by
    rintro id (h | h) row hrow <;> rw [h] at hrow
    · exact ⟨row, hrow, rfl, rfl⟩
    · cases hrow
  have hwrote : ∀ q, Wrote w q → Wrote (w.afterCommit importSchema r next ws) q := fun q hq =>
    wrote_afterCommit.mpr (.inl hq)
  cases h with
  | kept hrows =>
    refine ⟨hwrote, fun id => (hrows id).imp_right .inl, fun id row hrow => .inl ?_⟩
    exact hstay id (hrows id) row hrow
  | @made id input _ hmade hnew hrows _ hinserts =>
    have hwrites : Wrote (w.afterCommit importSchema r next ws) r :=
      wrote_afterCommit.mpr (.inr ⟨rfl, hinserts⟩)
    obtain ⟨hminted, hne⟩ := hmade.minted
    refine ⟨hwrote, fun j => ?_, fun j row hrow => ?_⟩
    · by_cases hj : j = id
      · obtain ⟨row, hrow⟩ := List.exists_mem_of_ne_nil _ hne
        subst hj
        exact .inr (.inr ⟨row, hnew ▸ hrow, r, hr, hwrites, hminted row hrow⟩)
      · exact (hrows j hj).imp_right .inl
    · by_cases hj : j = id
      · subst hj
        change row ∈ (importSchema.view w.db ws).rows j at hrow
        rw [hnew] at hrow
        exact .inr ⟨r, hr, hwrites, hminted row hrow⟩
      · exact .inl (hstay j (hrows j hj) row hrow)
  | @rebuilt i rows _ hrebuilt hnew hrows _ hinserts =>
    have hwrites : Wrote (w.afterCommit importSchema r next ws) r :=
      wrote_afterCommit.mpr (.inr ⟨rfl, hinserts⟩)
    obtain ⟨_, _, -, -, ⟨fresh, hfresh, hminted⟩, hversions⟩ := hrebuilt.versions
    refine ⟨hwrote, fun j => ?_, fun j row hrow => ?_⟩
    · by_cases hj : j = i.id
      · subst hj
        exact .inr (.inr ⟨fresh, hnew ▸ hfresh, r, hr, hwrites, hminted⟩)
      · exact (hrows j hj).imp_right .inl
    · by_cases hj : j = i.id
      · subst hj
        change row ∈ (importSchema.view w.db ws).rows i.id at hrow
        rw [hnew] at hrow
        rcases hversions row hrow with hminted | ⟨old, hold, hn, hv, -⟩
        · exact .inr ⟨r, hr, hwrites, hminted⟩
        · exact .inl ⟨old, hold, hn, hv⟩
      · exact .inl (hstay j (hrows j hj) row hrow)

/-- The rows after a step. -/
theorem laterRows_step (hw : (libraryImport env request).machine.Reachable w)
    (hv : VersionsMinted env w) (h : (libraryImport env request).machine.step w op w') :
    LaterRows env w w' := by
  rcases importing_cases hw h with ⟨-, hrows, hlog⟩ |
    ⟨r, stage, next, ls, ws, -, hr, rfl, hfree, hpost⟩
  · have hwrote : ∀ q, Wrote w q → Wrote w' q := fun q hq => by rwa [Wrote, hlog]
    exact ⟨hwrote, fun id => .inl (by rw [hrows]),
      fun id row hrow => .inl ⟨row, hrows ▸ hrow, rfl, rfl⟩⟩
  · exact laterRows_of_effect (hv.inside hr) (hpost.rowsEffect (libraryImport_kept hw).inv hfree)

theorem versionsMinted_step (hw : (libraryImport env request).machine.Reachable w)
    (hv : VersionsMinted env w) (h : (libraryImport env request).machine.step w op w') :
    VersionsMinted env w' := by
  have hlater := laterRows_step hw hv h
  refine ⟨fun q hq => ?_, fun id row hrow => ?_⟩
  · by_cases hold : Wrote w q
    · exact hv.ended_step h q hold
    · rcases importing_cases hw h with ⟨-, -, hlog⟩ |
        ⟨r, stage, next, ls, ws, -, hr, rfl, hfree, hpost⟩
      · rw [Wrote, hlog] at hq
        exact absurd hq hold
      · rcases wrote_afterCommit.mp hq with hq | ⟨rfl, hinserts⟩
        · exact absurd hq hold
        · refine .inr ?_
          cases hpost.rowsEffect (libraryImport_kept hw).inv hfree with
          | kept _ hquiet =>
            rw [hquiet] at hinserts
            cases hinserts
          | made _ _ _ hnext | rebuilt _ _ _ hnext =>
            exact ⟨_, Serving.afterCommit_calls.trans (by rw [hnext])⟩
  · rcases hlater.origin id row hrow with ⟨old, hold, hn, hversion⟩ | ⟨q, -, hq, hminted⟩
    · obtain ⟨q, hq, hminted⟩ := hv.minted id old hold
      refine ⟨q, hlater.wrote q hq, ?_⟩
      rw [Minted, ← hversion, ← hn]
      exact hminted
    · exact ⟨q, hq, hminted⟩

theorem versionsMinted (hw : (libraryImport env request).machine.Reachable w) :
    VersionsMinted env w := by
  refine hw.invariant (I := VersionsMinted env) (fun w hi => ?_)
    fun w op w' hw hv h => versionsMinted_step hw hv h
  obtain ⟨-, hrows⟩ : _ ∧ w.db.rows = fun _ => [] := hi.db
  refine ⟨fun q hq => ?_, fun id row hrow => ?_⟩
  · obtain ⟨ws, hmem, -⟩ := hq
    rw [hi.no_log] at hmem
    cases hmem
  · rw [hrows] at hrow
    cases hrow

theorem laterRows (hw : (libraryImport env request).machine.Reachable w)
    (hlead : (libraryImport env request).machine.Leads w w') : LaterRows env w w' :=
  hlead.keeps (P := fun w' => LaterRows env w w')
    (fun _ _ _ hw' h hstep => h.trans (laterRows_step hw' (versionsMinted hw') hstep)) hw
    (.refl env w)

/-! ### The version of a draft -/

/-- What the code takes for granted of `randomUUID` and of SHA-256. -/
structure ImportEnv.Injective (env : ImportEnv) : Prop where
  randomUUID : ∀ {q q' n n' : Nat}, env.randomUUID q n = env.randomUUID q' n' → q = q' ∧ n = n'
  sha256 : ∀ {l l' : List (Nat × String)}, env.sha256 l = env.sha256 l' → l = l'

/-- Rows of one version have the same row versions. -/
theorem mem_of_toDraftVersion (henv : env.Injective) {rows rows' : List LibraryImportRowRecord}
    (h : toDraftVersion env rows = toDraftVersion env rows') {row : LibraryImportRowRecord}
    (hrow : row ∈ rows) : ∃ row' ∈ rows', row'.rowNumber = row.rowNumber ∧
      row'.payload.rowVersion = row.payload.rowVersion := by
  have hpairs := henv.sha256 h
  have hmem : (row.rowNumber, row.payload.rowVersion) ∈ (sortRows rows).map fun row =>
      (row.rowNumber, row.payload.rowVersion) :=
    List.mem_map.mpr ⟨row, List.mem_mergeSort.mpr hrow, rfl⟩
  rw [hpairs] at hmem
  obtain ⟨row', hrow', heq⟩ := List.mem_map.mp hmem
  obtain ⟨hn, hv⟩ := Prod.ext_iff.mp heq
  exact ⟨row', List.mem_mergeSort.mp hrow', hn, hv⟩

/-- **The version stands for the rows.** -/
theorem rows_of_version (henv : env.Injective)
    (hw : (libraryImport env request).machine.Reachable w)
    (hlead : (libraryImport env request).machine.Leads w w') {id : ImportId}
    (h : toDraftVersion env (w.db.rows id) = toDraftVersion env (w'.db.rows id)) :
    w'.db.rows id = w.db.rows id := by
  rcases (laterRows hw hlead).rows id with hsame | hnil | ⟨row, hrow, q, hq, -, hminted⟩
  · exact hsame
  · rw [hnil]
    refine (List.eq_nil_iff_forall_not_mem.mpr fun row hrow => ?_).symm
    obtain ⟨row', hrow', -⟩ := mem_of_toDraftVersion henv h hrow
    rw [hnil] at hrow'
    cases hrow'
  · -- a new row has a version of a call that had stored nothing
    obtain ⟨old, hold, -, hversion⟩ := mem_of_toDraftVersion henv h.symm hrow
    obtain ⟨q', hq', hminted'⟩ := (versionsMinted hw).minted id old hold
    rw [Minted, hversion, hminted] at hminted'
    rw [(henv.randomUUID hminted').1] at hq
    exact absurd hq' hq

/-! ### Two actions on one version -/

/-- The version was minted, and no row of the import has it any more. -/
structure Spent (env : ImportEnv) (w : Importing) (id : ImportId) (version : String) : Prop where
  minted : ∃ q n, Wrote w q ∧ version = env.randomUUID q n
  gone : ∀ row ∈ w.db.rows id, row.payload.rowVersion ≠ version

theorem Spent.later (henv : env.Injective) {id : ImportId} {version : String}
    (h : Spent env w id version) (hlater : LaterRows env w w') : Spent env w' id version := by
  obtain ⟨⟨q, n, hq, rfl⟩, hgone⟩ := h
  refine ⟨⟨q, n, hlater.wrote q hq, rfl⟩, fun row hrow hversion => ?_⟩
  rcases hlater.origin id row hrow with ⟨old, hold, -, hv⟩ | ⟨q', hq', -, hminted⟩
  · exact hgone old hold (hv.trans hversion)
  · rw [Minted, hversion] at hminted
    rw [← (henv.randomUUID hminted).1] at hq'
    exact hq' hq

/-- An action that stored rows has spent the version that it expected. -/
def ActionsSpent (env : ImportEnv) (request : Nat → ImportRequest env) (w : Importing) : Prop :=
  ∀ r ownerId id rowNumber patch, request r = .patchRow ownerId id rowNumber patch → Wrote w r →
    Spent env w id patch.expectedRowVersion

/-- What the action `r` finds and leaves when it stores rows. -/
theorem spent_by_step (henv : env.Injective)
    (hw : (libraryImport env request).machine.Reachable w)
    (h : (libraryImport env request).machine.step w op w') {r : Nat} {ownerId : UserId}
    {id : ImportId} {rowNumber : Nat} {patch : LibraryImportRowPatchRequest}
    (hrequest : request r = .patchRow ownerId id rowNumber patch) (hold : ¬ Wrote w r)
    (hnew : Wrote w' r) :
    (∃ target ∈ w.db.rows id, target.payload.rowVersion = patch.expectedRowVersion) ∧
      Spent env w' id patch.expectedRowVersion ∧ ∀ q, Wrote w' q → q ≠ r → Wrote w q := by
  have hv := versionsMinted hw
  rcases importing_cases hw h with ⟨-, -, hlog⟩ |
    ⟨s, stage, next, ls, ws, -, hs, rfl, hfree, hpost⟩
  · rw [Wrote, hlog] at hnew
    exact absurd hnew hold
  rcases wrote_afterCommit.mp hnew with hnew | ⟨rfl, hinserts⟩
  · exact absurd hnew hold
  have hothers : ∀ q, Wrote (w.afterCommit importSchema r next ws) q → q ≠ r → Wrote w q :=
    fun q hq hne => (wrote_afterCommit.mp hq).resolve_right fun h => hne h.1
  cases hpost.rowsEffect (libraryImport_kept hw).inv hfree with
  | kept _ hquiet =>
    rw [hquiet] at hinserts
    cases hinserts
  | made hmade =>
    obtain ⟨_, _, _, hpreview, -⟩ := hmade.file
    rw [hrequest] at hpreview
    cases hpreview
  | @rebuilt i rows _ hrebuilt hrows _ _ _ =>
    obtain ⟨n, patch', hrequest', ⟨target, htarget, hnumber, hversion⟩, -, hversions⟩ :=
      hrebuilt.versions
    rw [hrequest] at hrequest'
    cases hrequest'
    obtain ⟨q, hq, hminted⟩ := hv.minted i.id target htarget
    rw [Minted, hversion] at hminted
    refine ⟨⟨target, htarget, hversion⟩, ⟨⟨q, target.rowNumber,
      wrote_afterCommit.mpr (.inl hq), hminted⟩, fun row hrow hsame => ?_⟩, hothers⟩
    change row ∈ (importSchema.view w.db ws).rows i.id at hrow
    rw [hrows] at hrow
    rcases hversions row hrow with hfresh | ⟨old, hold', hn, hv', hne⟩
    · rw [Minted, hsame, hminted] at hfresh
      exact hold ((henv.randomUUID hfresh).1 ▸ hq)
    · obtain ⟨q', -, hminted'⟩ := hv.minted i.id old hold'
      rw [Minted, hv', hsame, hminted] at hminted'
      exact hne (hn.symm.trans ((henv.randomUUID hminted').2.symm.trans hnumber))

theorem actionsSpent (henv : env.Injective)
    (hw : (libraryImport env request).machine.Reachable w) : ActionsSpent env request w := by
  refine hw.invariant (I := ActionsSpent env request) (fun w hi => ?_)
    fun w op w' hw hspent h => ?_
  · rintro r _ _ _ _ - ⟨ws, hmem, -⟩
    rw [hi.no_log] at hmem
    cases hmem
  · intro r ownerId id rowNumber patch hrequest hwrote
    by_cases hold : Wrote w r
    · exact (hspent r _ _ _ _ hrequest hold).later henv
        (laterRows_step hw (versionsMinted hw) h)
    · exact (spent_by_step henv hw h hrequest hold hwrote).2.1

/-- **Of two actions that expect one version at most one stores its rows.** -/
theorem one_action (henv : env.Injective) (hw : (libraryImport env request).machine.Reachable w) :
    ∀ {r q : Nat} {ownerId ownerId' : UserId} {id : ImportId} {n n' : Nat}
      {patch patch' : LibraryImportRowPatchRequest}, request r = .patchRow ownerId id n patch →
      request q = .patchRow ownerId' id n' patch' →
      patch.expectedRowVersion = patch'.expectedRowVersion → Wrote w r → Wrote w q → r = q := by
  refine hw.invariant (I := fun w => ∀ {r q : Nat} {ownerId ownerId' : UserId} {id : ImportId}
    {n n' : Nat} {patch patch' : LibraryImportRowPatchRequest},
    request r = .patchRow ownerId id n patch → request q = .patchRow ownerId' id n' patch' →
    patch.expectedRowVersion = patch'.expectedRowVersion → Wrote w r → Wrote w q → r = q)
    (fun w hi => ?_) fun w op w' hw hone h => ?_
  · rintro r q _ _ _ _ _ _ _ - - - ⟨ws, hmem, -⟩
    rw [hi.no_log] at hmem
    cases hmem
  · intro r q ownerId ownerId' id n n' patch patch' hr hq hsame hwr hwq
    -- the second one would have found a row with a version that is spent
    have hsecond : ∀ {r q : Nat} {ownerId ownerId' : UserId} {n n' : Nat}
        {patch patch' : LibraryImportRowPatchRequest}, request r = .patchRow ownerId id n patch →
        request q = .patchRow ownerId' id n' patch' →
        patch.expectedRowVersion = patch'.expectedRowVersion → Wrote w r → ¬ Wrote w q →
        Wrote w' q → False := by
      intro r q ownerId ownerId' n n' patch patch' hr hq hsame hwr hold hnew
      obtain ⟨⟨target, htarget, hversion⟩, -⟩ := spent_by_step henv hw h hq hold hnew
      exact (actionsSpent henv hw r _ _ _ _ hr hwr).gone target htarget
        (hversion.trans hsame.symm)
    by_cases hr' : Wrote w r
    · by_cases hq' : Wrote w q
      · exact hone hr hq hsame hr' hq'
      · exact (hsecond hr hq hsame hr' hq' hwq).elim
    · by_cases hq' : Wrote w q
      · exact (hsecond hq hr hsame.symm hq' hr' hwr).elim
      · by_contra hne
        exact hq' ((spent_by_step henv hw h hr hr' hwr).2.2 q hwq fun h => hne h.symm)

/-- An action that is answered with the draft has stored its rows. -/
theorem wrote_of_answered (hw : (libraryImport env request).machine.Reachable w) :
    ∀ {r : Nat} {ownerId : UserId} {id : ImportId} {n : Nat} {patch : LibraryImportRowPatchRequest}
      {owned : OwnedLibraryImport}, request r = .patchRow ownerId id n patch →
      w.calls r = some (.between (.answered (.ok (.draft owned)))) → Wrote w r := by
  refine hw.invariant (I := fun w => ∀ {r : Nat} {ownerId : UserId} {id : ImportId} {n : Nat}
    {patch : LibraryImportRowPatchRequest} {owned : OwnedLibraryImport},
    request r = .patchRow ownerId id n patch →
    w.calls r = some (.between (.answered (.ok (.draft owned)))) → Wrote w r)
    (fun w hi => ?_) fun w op w' hw hans h => ?_
  · intro r _ _ _ _ _ _ hr
    rw [hi.no_calls] at hr
    cases hr
  intro r ownerId id n patch owned hrequest hr
  -- a move of a call to another place than such an answer
  have hmove : ∀ q a, (w.move q a).calls r = some (.between (.answered (.ok (.draft owned)))) →
      a ≠ .between (.answered (.ok (.draft owned))) → Wrote w r := by
    intro q a hr hne
    rw [Serving.move_calls] at hr
    split at hr
    · exact absurd (Option.some.inj hr) hne
    · exact hans hrequest hr
  have hkept := libraryImport_kept hw
  have hapart := Service.apart hw
  cases h with
  | post _ hposts =>
    rw [show _ = ImportStage.start from hposts] at hr
    exact hmove _ _ hr fun heq => nomatch heq
  | begin => exact hmove _ _ hr fun heq => nomatch heq
  | statement => exact hmove _ _ hr fun heq => nomatch heq
  | fail => exact hmove _ _ hr fun heq => nomatch heq
  | @refuse q stage tx key =>
    refine hmove _ _ hr fun heq => ?_
    change Activity.between (importRefused stage key) = _ at heq
    unfold importRefused at heq
    split at heq
    · split at heq <;> cases heq
    · cases heq
  | abort => exact hmove _ _ hr fun heq => nomatch heq
  | elsewhere => exact hans hrequest hr
  | @commit q stage next ls ws hq =>
    refine wrote_afterCommit.mpr ?_
    change (w.move q (.between next)).calls r = _ at hr
    rw [Serving.move_calls] at hr
    split at hr
    · next hrq =>
      subst hrq
      cases hr
      have hpost : ImportPost env request r _ ls w.db ws := (hkept.post hq).2
      cases hpost.rowsEffect hkept.inv (hapart.free r _ hq) with
      | kept _ _ hpatched => exact absurd hrequest (hpatched owned rfl _ _ _ _)
      | made _ _ _ _ hinserts | rebuilt _ _ _ _ hinserts => exact .inr ⟨rfl, hinserts⟩
    · exact .inl (hans hrequest hr)

/-! ### A commit of a version -/

/-- What the transaction of a commit does: the expiry and no more, or it writes the plan of the rows
that are stored, in the version that it expects. -/
inductive CommitCase (env : ImportEnv) (request : Nat → ImportRequest env) (r : Nat)
    (ownerId : UserId) (id : ImportId) (version : String) (next : ImportStage)
    (ls : List ImportLock) (db : ImportDb) (ws : List ImportWrite) : Prop
  | nothing : Expiry ls db ws → Settled env request r next (importSchema.view db ws) →
      CommitCase env request r ownerId id version next ls db ws
  | written {i : LibraryImport} {now : Time} {drafts : List ChainDraft} {copies : List (List Copy)}
      {summary : LibraryImport} {ws₁ : List ImportWrite} :
      i ∈ db.imports → i.id = id → i.ownerId = ownerId → i.status = .draft →
      toDraftVersion env (db.rows id) = version →
      (assessLibraryImportCommit (db.rows id)).blockers = [] →
      WrittenImport now ownerId (assessLibraryImportCommit (db.rows id)).plan drafts copies →
      next = .answered (.ok (.committed .committed summary)) → Expiry ls db ws₁ →
      ws = .setCommitted id now copies.flatten.length :: .deleteRows [id] ::
        (importWrites drafts copies).reverse ++ ws₁ →
      CommitCase env request r ownerId id version next ls db ws

theorem ImportPost.commitCase {r : Nat} {ownerId : UserId} {id : ImportId} {version : String}
    {next : ImportStage} {ls : List ImportLock} {db : ImportDb} {ws : List ImportWrite}
    (hrequest : request r = .commit ownerId id version)
    (h : ImportPost env request r next ls db ws) :
    CommitCase env request r ownerId id version next ls db ws := by
  obtain ⟨ws₁, ws₂, rfl, hexpiry, hchange⟩ := h
  cases hchange with
  | nothing hsettled => exact .nothing hexpiry hsettled
  | created hmade | revived hmade =>
    obtain ⟨_, _, _, hpreview, -⟩ := hmade.file
    rw [hrequest] at hpreview
    cases hpreview
  | updated hrebuilt =>
    obtain ⟨_, _, _, _, _, hpatch, -⟩ := hrebuilt.action
    rw [hrequest] at hpatch
    cases hpatch
  | @committed i now drafts copies hcommitting hnext hi hlock hstatus =>
    obtain ⟨version', plan, hcommit, hplan, hwritten⟩ := hcommitting.plan
    rw [hrequest] at hcommit
    cases hcommit
    obtain ⟨-, hversion, hblockers, rfl, -⟩ := requirePlan_eq_ok hplan
    dsimp only at hversion hblockers hwritten
    have hne : (importSchema.view db ws₁).rows i.id ≠ [] := by
      intro hnil
      rw [hnil] at hblockers
      cases hblockers
    rw [hexpiry.rows_eq hne] at hversion hblockers hwritten
    exact .written (hexpiry.mem_of_live hi (by rw [hstatus]; nofun)) rfl rfl hstatus hversion
      hblockers hwritten hnext hexpiry rfl

/-- **Draft optimistic concurrency.** -/
structure DraftConcurrency (env : ImportEnv) (request : Nat → ImportRequest env) (w : Importing) :
    Prop where
  /-- In a later state the version stands for the same rows. -/
  same_rows : ∀ w', (libraryImport env request).machine.Leads w w' → ∀ id,
    toDraftVersion env (w.db.rows id) = toDraftVersion env (w'.db.rows id) →
    w'.db.rows id = w.db.rows id
  /-- Of two actions on an import that expect the same version of a row one has stored rows at most,
  and only that one is answered with the draft. -/
  one_action : ∀ r q ownerId ownerId' id n n' patch patch',
    request r = .patchRow ownerId id n patch → request q = .patchRow ownerId' id n' patch' →
    patch.expectedRowVersion = patch'.expectedRowVersion → Wrote w r → Wrote w q → r = q
  answered : ∀ r ownerId id n patch owned, request r = .patchRow ownerId id n patch →
    w.calls r = some (.between (.answered (.ok (.draft owned)))) → Wrote w r
  /-- A commit that is answered as done had the version of the stored rows, and wrote their plan. -/
  exact_ : ∀ r ownerId id version w' summary, request r = .commit ownerId id version →
    (libraryImport env request).machine.step w (.commit r) w' →
    w'.calls r = some (.between (.answered (.ok (.committed .committed summary)))) →
    toDraftVersion env (w.db.rows id) = version ∧ ∃ now drafts copies ls ws,
      WrittenImport now ownerId (assessLibraryImportCommit (w.db.rows id)).plan drafts copies ∧
      Expiry ls w.db ws ∧
      w'.log = (r, .setCommitted id now copies.flatten.length :: .deleteRows [id] ::
        (importWrites drafts copies).reverse ++ ws) :: w.log
  /-- A commit of a draft with another version has no success and changes nothing: at most overdue
  drafts expire. -/
  stale : ∀ r ownerId id version w', request r = .commit ownerId id version →
    (libraryImport env request).machine.step w (.commit r) w' →
    (∃ i ∈ w.db.imports, i.id = id ∧ i.status = .draft) →
    toDraftVersion env (w.db.rows id) ≠ version →
    (∀ outcome summary, w'.calls r ≠
      some (.between (.answered (.ok (.committed outcome summary))))) ∧
      ∃ ls ws, Expiry ls w.db ws ∧ w'.db = importSchema.view w.db ws ∧ w'.log = (r, ws) :: w.log
  failed : ∀ r key w', (libraryImport env request).machine.step w (.fail r) w' ∨
    (libraryImport env request).machine.step w (.refuse r key) w' ∨
    (libraryImport env request).machine.step w (.abort r) w' → w'.db = w.db ∧ w'.log = w.log

theorem draft_concurrency (henv : env.Injective)
    (hw : (libraryImport env request).machine.Reachable w) : DraftConcurrency env request w := by
  have hkept := libraryImport_kept hw
  refine ⟨fun w' hlead id h => rows_of_version henv hw hlead h,
    fun r q ownerId ownerId' id n n' patch patch' hr hq hsame => one_action henv hw hr hq hsame,
    fun r ownerId id n patch owned hr => wrote_of_answered hw hr, ?_, ?_, ?_⟩
  · intro r ownerId id version w' summary hrequest hstep hanswer
    cases hstep with
    | @commit _ stage next ls ws hr =>
      have hnext := Serving.afterCommit_calls.symm.trans hanswer
      cases (hkept.post hr).2.commitCase hrequest with
      | nothing _ hsettled =>
        cases hnext
        cases (hsettled.committed _ _ rfl).1
      | written _ _ _ _ hversion _ hwritten _ hexpiry hws =>
        exact ⟨hversion, _, _, _, _, _, hwritten, hexpiry, by rw [← hws]; rfl⟩
  · intro r ownerId id version w' hrequest hstep hdraft hne
    obtain ⟨i, hi, hid, hstatus⟩ := hdraft
    cases hstep with
    | @commit _ stage next ls ws hr =>
      cases (hkept.post hr).2.commitCase hrequest with
      | nothing hexpiry hsettled =>
        refine ⟨fun outcome summary hanswer => ?_, ls, ws, hexpiry, rfl, rfl⟩
        have hnext := Serving.afterCommit_calls.symm.trans hanswer
        cases hnext
        obtain ⟨-, hmem, hcommitted, version', hcommit⟩ := hsettled.committed _ _ rfl
        rw [hrequest] at hcommit
        injection hcommit with _ hid'
        have hold := hexpiry.mem_of_live hmem (by rw [hcommitted]; nofun)
        rw [hkept.inv.import_ext hold hi (hid'.symm.trans hid.symm), hstatus] at hcommitted
        cases hcommitted
      | written _ _ _ _ hversion => exact absurd hversion hne
  · rintro r key w' (hstep | hstep | hstep) <;> cases hstep <;> exact ⟨rfl, rfl⟩

end Runs

/-! ### Two actions on one row -/

section TwoActions

/-- A number, so that its end can be told. -/
def markedNat (n : Nat) : List Char := List.replicate n 'n' ++ ['v']

theorem markedNat_append_inj {n m : Nat} {l l' : List Char}
    (h : markedNat n ++ l = markedNat m ++ l') : n = m ∧ l = l' := by
  induction n generalizing m with
  | zero =>
    cases m with
    | zero => exact ⟨rfl, List.append_cancel_left h⟩
    | succ m => simp [markedNat, List.replicate_succ] at h
  | succ n ih =>
    cases m with
    | zero => simp [markedNat, List.replicate_succ] at h
    | succ m =>
      have hcons : 'n' :: (markedNat n ++ l) = 'n' :: (markedNat m ++ l') := h
      obtain ⟨hn, hl⟩ := ih (List.cons.inj hcons).2
      exact ⟨congrArg _ hn, hl⟩

/-- Each version with its number and its length. -/
def markedVersions (versions : List (Nat × String)) : List Char :=
  versions.flatMap fun p => markedNat p.1 ++ (markedNat p.2.toList.length ++ p.2.toList)

theorem markedVersions_inj {l l' : List (Nat × String)}
    (h : markedVersions l = markedVersions l') : l = l' := by
  induction l generalizing l' with
  | nil =>
    cases l' with
    | nil => rfl
    | cons p l' => simp [markedVersions, markedNat] at h
  | cons p l ih =>
    cases l' with
    | nil => simp [markedVersions, markedNat] at h
    | cons p' l' =>
      simp only [markedVersions, List.flatMap_cons, List.append_assoc] at h
      obtain ⟨hnumber, h⟩ := markedNat_append_inj h
      obtain ⟨hlength, h⟩ := markedNat_append_inj h
      obtain ⟨htext, h⟩ := List.append_inj h hlength
      rw [Prod.ext hnumber (String.toList_injective htext), ih h]

def markedEnv : ImportEnv :=
  { kobzarEnv with sha256 := fun versions => String.ofList (markedVersions versions) }

theorem markedEnv_injective : markedEnv.Injective where
  randomUUID {q q' n n'} h := by
    have hlist : List.replicate (q + 1) 'v' ++ List.replicate n 'r' =
        List.replicate (q' + 1) 'v' ++ List.replicate n' 'r' :=
      String.ofList_injective h
    have hv := congrArg (List.count 'v') hlist
    have hr := congrArg (List.count 'r') hlist
    simp [List.count_replicate] at hv hr
    exact ⟨hv, hr⟩
  sha256 h := markedVersions_inj (String.ofList_injective h)

def markedFile : ParsedFile markedEnv where
  sourceHash := kobzarFile.sourceHash
  records := kobzarFile.records
  rejections := kobzarFile.rejections
  digest := kobzarFile.digest
  some_rows := kobzarFile.some_rows
  few_rows := kobzarFile.few_rows
  cells := kobzarFile.cells
  few_copies := by decide +kernel

/-- A preview, and two clients that skip the row in the version that they have seen. -/
def skipTwice (r : Nat) : ImportRequest markedEnv :=
  if r = 0 then .preview 1 markedFile else .patchRow 1 5 1 ⟨"vr", .skip⟩

theorem draft_concurrency_skipped : ∃ w : Importing,
    (libraryImport markedEnv skipTwice).machine.Reachable w ∧
      (∃ row ∈ w.db.rows 5, row.status = .skipped) ∧ DraftConcurrency markedEnv skipTwice w := by
  have hrun : ((libraryImport markedEnv skipTwice).serve (fun _ => noProvider)
      [(0, []), (0, []), (0, [5]), (1, []), (1, [])] (emptyImports, fun _ => .start)).any (fun y =>
        (y.1.rows 5).any fun row => decide (row.status = .skipped)) = true := by
    decide +kernel
  obtain ⟨y, hy, hskipped⟩ := (Option.any_eq_true _ _).mp hrun
  obtain ⟨row, hrow, hstatus⟩ := List.any_eq_true.mp hskipped
  have hinit : (libraryImport markedEnv skipTwice).init emptyImports := ⟨rfl, rfl⟩
  have hstart := @Service.Served.start _ _ _ _ _ _ _ _ _ _ _ (fun _ => ImportStage.start) hinit
    fun _ => rfl
  obtain ⟨w, hw⟩ := hstart.serve (fun _ => trivial) hy
  rw [← hw.db] at hrow
  exact ⟨w, hw.reachable, ⟨row, hrow, of_decide_eq_true hstatus⟩,
    draft_concurrency markedEnv_injective hw.reachable⟩

end TwoActions

end Bookswap
