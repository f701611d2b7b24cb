import Bookswap.Import.ImportCommit
import Bookswap.Lib.Machine

/-!
# The runs of a draft

What may happen to the rows of one import while it is a draft: a file makes them, and actions
rebuild them, each from the rows that are stored and a view of the catalog of its own. Every write
is checked first.

- `Draft`, `Draft.preview`, `Draft.patch`, `draftMachine`: the rows with their history, what makes
  and changes them, and their runs.
- `RowDraftInput.Read`, `RowsRead`: what inputs and stored rows keep of their cells.
- `toRowRecord_keeps`, `fieldErrorsOf_toRowRecord`: what a record keeps of its input.
- `DraftStep.cases`, `rowsRead`: every step, and every run, keeps the rows read.
-/

namespace Bookswap

variable (env : ImportEnv)

/-! ## The machine -/

/-- `isbn13`, `title`, `origLang`, `authors` -/
structure IdentifyingFields where
  isbn13 : String
  title : Option String
  origLang : Option String
  authors : Option (List String)
  deriving DecidableEq

def LibraryImportRowValues.identifying (v : LibraryImportRowValues) : IdentifyingFields :=
  ⟨v.isbn13, v.title, v.origLang, v.authors⟩

/-- The identifying fields of the row with the number. -/
def identifyingFields (rows : List LibraryImportRowRecord) (rowNumber : Nat) :
    Option IdentifyingFields :=
  (rows.find? fun row => row.rowNumber = rowNumber).bind fun row =>
    row.payload.values.map LibraryImportRowValues.identifying

/-- The rows of a draft, and what is said of their history. -/
structure Draft where
  rows : List LibraryImportRowRecord
  /-- The candidates that the latest rebuild computed, by row number. -/
  candidates : Nat → List LibraryImportCandidate
  /-- The owner has asked for a new work since the row's identifying fields last changed. -/
  choseNew : Nat → Bool

/-- An action on a row, in the call `call`, with what its rebuild sees. -/
structure PatchOp where
  call : Nat
  rowNumber : Nat
  request : LibraryImportRowPatchRequest
  view : CatalogView
  fetched : String → Option BatchLookupRowOutcome

inductive DraftOp
  | preview
  | patch (op : PatchOp)

def candidatesOf (resolved : Nat → Option ResolvedRow) (rowNumber : Nat) :
    List LibraryImportCandidate :=
  (resolved rowNumber).elim [] ResolvedRow.candidates

def PatchOp.choosesNew (op : PatchOp) (rowNumber : Nat) : Bool :=
  match op.request.action with
  | .choose none => rowNumber = op.rowNumber
  | _ => false

/-- The draft after the action has left `rows`. -/
def Draft.after (d : Draft) (op : PatchOp) (rows : List LibraryImportRowRecord) : Draft where
  rows := rows
  candidates := candidatesOf
    (rebuildResolved env d.rows op.rowNumber op.request.action op.view op.fetched)
  choseNew rowNumber := op.choosesNew rowNumber ||
    d.choseNew rowNumber && identifyingFields d.rows rowNumber = identifyingFields rows rowNumber

/-- A file becomes a draft, unless the check on its rows fails. -/
def Draft.preview (call : Nat) (file : ParsedFile env) (view : CatalogView)
    (fetched : String → Option BatchLookupRowOutcome) : Except ImportFailure Draft :=
  (validateRows env (previewRows env call file view fetched)).map fun rows =>
    ⟨rows, candidatesOf (previewResolved env file view fetched), fun _ => false⟩

/-- An action on a row, or why it is refused. -/
def Draft.patch (d : Draft) (op : PatchOp) : Except ImportFailure Draft :=
  match d.rows.find? fun row => row.rowNumber = op.rowNumber with
  | none => .error importNotFound
  | some target => do
    requireCurrentRow target op.request.expectedRowVersion
    let rebuilt ← rebuildRows env op.call d.rows op.rowNumber op.request.action op.view op.fetched
    let rows ← validateRows env rebuilt
    return d.after env op rows

def Draft.Previewed (d : Draft) : Prop :=
  ∃ (call : Nat) (file : ParsedFile env) (view : CatalogView)
    (fetched : String → Option BatchLookupRowOutcome),
    Draft.preview env call file view fetched = .ok d

inductive DraftStep : Draft → DraftOp → Draft → Prop
  /-- The draft expired, and the file was sent again. -/
  | preview {d d' : Draft} : d'.Previewed env → DraftStep d .preview d'
  | patch {d d' : Draft} {op : PatchOp} : d.patch env op = .ok d' → DraftStep d (.patch op) d'

def draftMachine : Machine Draft DraftOp where
  init d := d.Previewed env
  step := DraftStep env

/-! ## Records and their inputs -/

/-- Values and field errors are what the cells say. -/
structure RowDraftInput.Read (row : RowDraftInput) : Prop where
  values : row.values = rowValues env row.cells row.rejectedCells
  fieldErrors : row.fieldErrors = rowErrors env row.cells row.rejectedCells

/-- The same of the stored rows, which are numbered and accepted as they are. -/
structure RowsRead (rows : List LibraryImportRowRecord) : Prop where
  numbers : (rows.map LibraryImportRowRecord.rowNumber).Nodup
  accepted : ∀ row ∈ rows, libraryImportRowRecordSchema env row = some row
  read : ∀ row ∈ rows, (storedInput row).Read env

theorem isField_of_mem_rowErrors {cells : LibraryImportCells}
    {rejected : LibraryImportRejectedCells} {e : LibraryImportRowError}
    (h : e ∈ rowErrors env cells rejected) : e.isField = true := by
  obtain ⟨column, rfl, -⟩ := (mem_rowErrors_iff env).mp h
  simp [LibraryImportRowError.isField]

theorem fieldErrorsOf_rowErrors (cells : LibraryImportCells)
    (rejected : LibraryImportRejectedCells) :
    fieldErrorsOf (rowErrors env cells rejected) = rowErrors env cells rejected :=
  List.filter_eq_self.mpr fun _ h => isField_of_mem_rowErrors env h

@[simp] theorem fieldErrorsOf_duplicate (first : Option Nat) :
    fieldErrorsOf (first.map .duplicateRow).toList = [] := by
  cases first <;> rfl

/-- An error of the resolver. -/
def LibraryImportRowError.isResolution : LibraryImportRowError → Bool
  | .lookupNotFound | .lookupUnavailable _ | .missingCatalogData _ | .conflictingCatalogData _
  | .ambiguousCatalogMatch _ => true
  | .invalidIsbn | .invalidField _ | .duplicateRow _ => false

theorem isField_of_isResolution {e : LibraryImportRowError} (h : e.isResolution = true) :
    e.isField = false := by
  cases e <;> first | rfl | cases h

/-- The resolver finds no fault with a field, and compares no rows. -/
theorem isResolution_resolveRow {view : CatalogView}
    {fetched : String → Option BatchLookupRowOutcome} {row : ResolvableRow}
    {e : LibraryImportRowError} (h : e ∈ (resolveRow env view fetched row).errors) :
    e.isResolution = true := by
  have hlookup : ∀ outcome, ∀ e ∈ lookupErrors outcome, e.isResolution = true := by
    intro outcome e he
    cases outcome with
    | none =>
      cases List.mem_singleton.mp he
      rfl
    | some outcome =>
      cases outcome with
      | found result => cases he
      | notFound | unavailable reason =>
        cases List.mem_singleton.mp he
        rfl
  rcases resolveRow_cases env view fetched row with
    ⟨edition, -, hrow⟩ | ⟨-, columns, error, herror, hrow⟩ | ⟨-, catalog, -, hrow⟩
  · rw [hrow] at h
    cases h
  · rw [hrow] at h
    rcases List.mem_append.mp h with h | h
    · exact hlookup _ e h
    · cases List.mem_singleton.mp h
      rcases herror with ⟨-, rfl⟩ | ⟨-, rfl⟩ <;> rfl
  · rw [hrow] at h
    rcases settle_cases row.chosenWorkId catalog (view.candidates env catalog.work.title) with
      ⟨workId, hsettle, -⟩ | ⟨-, hsettle⟩
    · rw [hsettle] at h
      cases h
    · rw [hsettle] at h
      cases List.mem_singleton.mp h
      rfl

theorem isResolution_resolve {view : CatalogView} {fetched : String → Option BatchLookupRowOutcome}
    {rows : List ResolvableRow} {rowNumber : Nat} {resolved : ResolvedRow}
    (h : LibraryImportResolver.resolve env view fetched rows rowNumber = some resolved)
    {e : LibraryImportRowError} (he : e ∈ resolved.errors) : e.isResolution = true := by
  obtain ⟨row, -, rfl⟩ := Option.map_eq_some_iff.mp h
  exact isResolution_resolveRow env he

theorem isField_resolve {view : CatalogView} {fetched : String → Option BatchLookupRowOutcome}
    {rows : List ResolvableRow} {rowNumber : Nat} {resolved : ResolvedRow}
    (h : LibraryImportResolver.resolve env view fetched rows rowNumber = some resolved)
    {e : LibraryImportRowError} (he : e ∈ resolved.errors) : e.isField = false :=
  isField_of_isResolution (isResolution_resolve env h he)

section Records

variable {env} {call : Nat} {row : RowDraftInput} {duplicate : Option Nat}
  {resolved : Option ResolvedRow}

/-- **What a record is**: skipped, invalid, or as the row was resolved. -/
theorem toRowRecord_cases :
    (row.skipped = true ∧ toRowRecord env call row duplicate resolved =
      record env call row .skipped row.fieldErrors none) ∨
    (row.skipped = false ∧ (row.fieldErrors ≠ [] ∨ duplicate ≠ none ∨ row.values = none) ∧
      toRowRecord env call row duplicate resolved =
        record env call row .invalid (row.fieldErrors ++ (duplicate.map .duplicateRow).toList) none) ∨
    (row.skipped = false ∧ row.fieldErrors = [] ∧ duplicate = none ∧ row.values ≠ none ∧
      toRowRecord env call row duplicate resolved =
        resolved.elim (record env call row .needsReview [] none)
          fun r => record env call row r.status r.errors r.resolution) := by
  cases hskipped : row.skipped with
  | true => exact .inl ⟨rfl, by simp [toRowRecord, hskipped]⟩
  | false =>
    by_cases hbad : row.fieldErrors ≠ [] ∨ duplicate ≠ none ∨ row.values = none
    · refine .inr (.inl ⟨rfl, hbad, ?_⟩)
      have hcond : row.fieldErrors ++ (duplicate.map .duplicateRow).toList ≠ [] ∨
          row.values = none := by
        rcases hbad with h | h | h
        · exact .inl fun hnil => h (List.append_eq_nil_iff.mp hnil).1
        · obtain ⟨first, rfl⟩ := Option.ne_none_iff_exists'.mp h
          exact .inl (by simp)
        · exact .inr h
      simp only [toRowRecord, hskipped, Bool.false_eq_true, if_false, if_pos hcond]
    · simp only [not_or, not_not] at hbad
      obtain ⟨hfield, rfl, hvalues⟩ := hbad
      refine .inr (.inr ⟨rfl, hfield, rfl, hvalues, ?_⟩)
      cases resolved <;> simp [toRowRecord, hskipped, hfield, hvalues]

/-- A record has the number, cells, values and rejections of its input, and its version unless it
is a new one. -/
theorem toRowRecord_keeps :
    (toRowRecord env call row duplicate resolved).rowNumber = row.rowNumber ∧
    (toRowRecord env call row duplicate resolved).payload.cells = row.cells ∧
    (toRowRecord env call row duplicate resolved).payload.values = row.values ∧
    (toRowRecord env call row duplicate resolved).payload.rejectedCells = row.rejectedCells ∧
    (toRowRecord env call row duplicate resolved).payload.rowVersion =
      row.rowVersion.getD (env.randomUUID call row.rowNumber) := by
  rcases @toRowRecord_cases env call row duplicate resolved with
    ⟨-, h⟩ | ⟨-, -, h⟩ | ⟨-, -, -, -, h⟩
  · rw [h]
    exact ⟨rfl, rfl, rfl, rfl, rfl⟩
  · rw [h]
    exact ⟨rfl, rfl, rfl, rfl, rfl⟩
  · rw [h]
    cases resolved <;> exact ⟨rfl, rfl, rfl, rfl, rfl⟩

theorem fieldErrorsOf_toRowRecord (hfield : fieldErrorsOf row.fieldErrors = row.fieldErrors)
    (hresolved : ∀ r, resolved = some r → ∀ e ∈ r.errors, e.isField = false) :
    fieldErrorsOf (toRowRecord env call row duplicate resolved).payload.errors =
      row.fieldErrors := by
  rcases @toRowRecord_cases env call row duplicate resolved with
    ⟨-, h⟩ | ⟨-, -, h⟩ | ⟨-, hnone, -, -, h⟩
  · rw [h]
    exact hfield
  · rw [h]
    show fieldErrorsOf (row.fieldErrors ++ (duplicate.map .duplicateRow).toList) = row.fieldErrors
    unfold fieldErrorsOf at hfield ⊢
    rw [List.filter_append, hfield]
    exact List.append_right_eq_self.mpr (fieldErrorsOf_duplicate duplicate)
  · rw [h, hnone]
    cases resolved with
    | none => rfl
    | some r =>
      refine List.filter_eq_nil_iff.mpr fun e he => ?_
      rw [hresolved r rfl e he]
      exact Bool.false_ne_true

end Records

/-! ## Rows that were written -/

section Written

variable {env} {call : Nat} {inputs : List RowDraftInput} {resolved : Nat → Option ResolvedRow}
  {rows : List LibraryImportRowRecord} {input : RowDraftInput} {row : LibraryImportRowRecord}

/-- The record that a rebuild makes of an input. -/
def recordOf (env : ImportEnv) (call : Nat) (inputs : List RowDraftInput)
    (resolved : Nat → Option ResolvedRow) (input : RowDraftInput) : LibraryImportRowRecord :=
  toRowRecord env call input (duplicateErrors inputs input.rowNumber) (resolved input.rowNumber)

theorem recordsOf_eq_map : recordsOf env call inputs resolved =
    inputs.map (recordOf env call inputs resolved) := rfl

/-- The rows are what the check makes of the records. -/
theorem accepted_of_validateRows {built : List LibraryImportRowRecord}
    (h : validateRows env built = .ok rows) :
    (∀ row ∈ rows, ∃ b ∈ built, libraryImportRowRecordSchema env b = some row) ∧
      ∀ b ∈ built, ∃ row ∈ rows, libraryImportRowRecordSchema env b = some row := by
  obtain ⟨hmap, -⟩ := (validateRows_eq_ok env).mp h
  constructor
  · intro row hrow
    have hmem : some row ∈ rows.map some := List.mem_map_of_mem hrow
    rw [← hmap] at hmem
    exact List.mem_map.mp hmem
  · intro b hb
    have hmem : libraryImportRowRecordSchema env b ∈ built.map (libraryImportRowRecordSchema env) :=
      List.mem_map_of_mem hb
    rw [hmap] at hmem
    obtain ⟨row, hrow, heq⟩ := List.mem_map.mp hmem
    exact ⟨row, hrow, heq.symm⟩

/-- Every row that was written is the accepted record of an input, and the other way round. -/
theorem recordOf_of_written (h : validateRows env (recordsOf env call inputs resolved) = .ok rows) :
    (∀ row ∈ rows, ∃ input ∈ inputs,
      libraryImportRowRecordSchema env (recordOf env call inputs resolved input) = some row) ∧
      ∀ input ∈ inputs, ∃ row ∈ rows,
        libraryImportRowRecordSchema env (recordOf env call inputs resolved input) = some row := by
  obtain ⟨hrows, hbuilt⟩ := accepted_of_validateRows h
  rw [recordsOf_eq_map] at hrows hbuilt
  refine ⟨fun row hrow => ?_, fun input hinput => hbuilt _ (List.mem_map_of_mem hinput)⟩
  obtain ⟨b, hb, haccepted⟩ := hrows row hrow
  obtain ⟨input, hinput, rfl⟩ := List.mem_map.mp hb
  exact ⟨input, hinput, haccepted⟩

/-- The schema leaves everything but values and resolution. -/
theorem accepted_keeps {built : LibraryImportRowRecord}
    (h : libraryImportRowRecordSchema env built = some row) :
    row.rowNumber = built.rowNumber ∧ row.status = built.status ∧
      row.payload.cells = built.payload.cells ∧ row.payload.errors = built.payload.errors ∧
      row.payload.rejectedCells = built.payload.rejectedCells ∧
      row.payload.rowVersion = built.payload.rowVersion := by
  obtain ⟨hparse, hnumber, hstatus, -⟩ := (libraryImportRowRecordSchema_eq_some env).mp h
  obtain ⟨-, -, hpayload⟩ := (LibraryImportRowPayload.parse_eq_some env).mp hparse
  rw [hpayload]
  exact ⟨hnumber, hstatus, rfl, rfl, rfl, rfl⟩

/-- The values of a row that was read are accepted unchanged. -/
theorem accepted_values {built : LibraryImportRowRecord}
    (h : libraryImportRowRecordSchema env built = some row)
    (hread : built.payload.values = rowValues env built.payload.cells built.payload.rejectedCells) :
    row.payload.values = built.payload.values := by
  obtain ⟨hparse, -⟩ := (libraryImportRowRecordSchema_eq_some env).mp h
  obtain ⟨hvalues, -, -⟩ := (LibraryImportRowPayload.parse_eq_some env).mp hparse
  cases hbuilt : built.payload.values with
  | none =>
    rw [hbuilt] at hvalues
    exact (Option.some.inj hvalues).symm
  | some values =>
    rw [hbuilt] at hvalues hread
    have hself := rowValues_of_cells env (readCells_of_rowValues env hread.symm)
    simp only [Normalizing.optional, hself, Option.map_some, Option.some.injEq] at hvalues
    exact hvalues.symm

/-- **A row that was written is its input, read and decided.** -/
structure InputOf (env : ImportEnv) (call : Nat) (input : RowDraftInput)
    (row : LibraryImportRowRecord) : Prop where
  rowNumber : row.rowNumber = input.rowNumber
  cells : row.payload.cells = input.cells
  values : row.payload.values = input.values
  rejectedCells : row.payload.rejectedCells = input.rejectedCells
  fieldErrors : fieldErrorsOf row.payload.errors = input.fieldErrors
  rowVersion : row.payload.rowVersion =
    input.rowVersion.getD (env.randomUUID call input.rowNumber)
  skipped : row.status = .skipped → input.skipped = true

theorem inputOf_recordOf (hread : input.Read env)
    (hresolved : ∀ n r, resolved n = some r → ∀ e ∈ r.errors, e.isField = false)
    (hstatus : ∀ n r, resolved n = some r → r.status ≠ .skipped)
    (h : libraryImportRowRecordSchema env (recordOf env call inputs resolved input) = some row) :
    InputOf env call input row := by
  obtain ⟨hnumber, hcells, hvalues, hrejected, hversion⟩ := @toRowRecord_keeps env call input
    (duplicateErrors inputs input.rowNumber) (resolved input.rowNumber)
  change (recordOf env call inputs resolved input).rowNumber = _ at hnumber
  change (recordOf env call inputs resolved input).payload.cells = _ at hcells
  change (recordOf env call inputs resolved input).payload.values = _ at hvalues
  change (recordOf env call inputs resolved input).payload.rejectedCells = _ at hrejected
  change (recordOf env call inputs resolved input).payload.rowVersion = _ at hversion
  obtain ⟨kn, ks, kc, ke, kr, kv⟩ := accepted_keeps h
  refine ⟨kn.trans hnumber, kc.trans hcells, ?_, kr.trans hrejected, ?_, kv.trans hversion, ?_⟩
  · refine (accepted_values h ?_).trans hvalues
    rw [hvalues, hcells, hrejected]
    exact hread.values
  · rw [ke]
    refine fieldErrorsOf_toRowRecord ?_ (hresolved _)
    rw [hread.fieldErrors]
    exact fieldErrorsOf_rowErrors env _ _
  · intro hskipped
    rw [ks] at hskipped
    rcases @toRowRecord_cases env call input (duplicateErrors inputs input.rowNumber)
      (resolved input.rowNumber) with ⟨hs, -⟩ | ⟨-, -, hrecord⟩ | ⟨-, -, -, -, hrecord⟩
    · exact hs
    · rw [recordOf, hrecord] at hskipped
      cases hskipped
    · rw [recordOf, hrecord] at hskipped
      cases hr : resolved input.rowNumber with
      | none =>
        rw [hr] at hskipped
        cases hskipped
      | some r =>
        rw [hr] at hskipped
        exact absurd hskipped (hstatus _ r hr)

theorem InputOf.read (h : InputOf env call input row) (hread : input.Read env) :
    (storedInput row).Read env := by
  refine ⟨?_, ?_⟩
  · show row.payload.values = rowValues env row.payload.cells row.payload.rejectedCells
    rw [h.values, h.cells, h.rejectedCells]
    exact hread.values
  · show fieldErrorsOf row.payload.errors = rowErrors env row.payload.cells row.payload.rejectedCells
    rw [h.fieldErrors, h.cells, h.rejectedCells]
    exact hread.fieldErrors

end Written

/-! ## Every step keeps the rows read -/

section Steps

variable {env}

theorem resolve_status {view : CatalogView} {fetched : String → Option BatchLookupRowOutcome}
    {rows : List ResolvableRow} {rowNumber : Nat} {resolved : ResolvedRow}
    (h : LibraryImportResolver.resolve env view fetched rows rowNumber = some resolved) :
    resolved.status ≠ .skipped := by
  obtain ⟨row, -, rfl⟩ := Option.map_eq_some_iff.mp h
  rcases resolveRow_cases env view fetched row with
    ⟨edition, -, hrow⟩ | ⟨-, columns, error, -, hrow⟩ | ⟨-, catalog, -, hrow⟩
  · rw [hrow]
    nofun
  · rw [hrow]
    nofun
  · rw [hrow]
    rcases settle_cases row.chosenWorkId catalog (view.candidates env catalog.work.title) with
      ⟨workId, hsettle, -⟩ | ⟨-, hsettle⟩
    all_goals
      rw [hsettle]
      nofun

/-- A row of a file is read. -/
theorem LibraryImportParsedRow.Read.input {row : LibraryImportParsedRow} (h : row.Read env) :
    (toDraftInput row).Read env := by
  refine ⟨h.values, ?_⟩
  obtain ⟨first, herrors⟩ := h.errors
  show fieldErrorsOf row.errors = rowErrors env row.cells row.rejectedCells
  rw [herrors, fieldErrorsOf, List.filter_append]
  show fieldErrorsOf (rowErrors env row.cells row.rejectedCells) ++
    fieldErrorsOf (first.map .duplicateRow).toList = _
  rw [fieldErrorsOf_rowErrors, fieldErrorsOf_duplicate, List.append_nil]

/-- An action leaves its row read. -/
theorem patchedInput_read {row : LibraryImportRowRecord} (h : (storedInput row).Read env)
    (action : RowAction) : (patchedInput env row action).Read env := by
  cases action with
  | edit cells => exact ⟨rfl, rfl⟩
  | choose | skip | restore | retry => exact ⟨h.values, h.fieldErrors⟩

theorem rebuildInput_read {row : LibraryImportRowRecord} (h : (storedInput row).Read env)
    (rowNumber : Nat) (action : RowAction) : (rebuildInput env rowNumber action row).Read env := by
  unfold rebuildInput
  split
  · exact patchedInput_read h action
  · exact h

/-- **Rows that were made of inputs that are read are read.** -/
theorem rowsRead_of_written {call : Nat} {inputs : List RowDraftInput}
    {resolvable : List ResolvableRow} {view : CatalogView}
    {fetched : String → Option BatchLookupRowOutcome} {rows : List LibraryImportRowRecord}
    (hinputs : ∀ input ∈ inputs, input.Read env)
    (h : validateRows env (recordsOf env call inputs
      (LibraryImportResolver.resolve env view fetched resolvable)) = .ok rows) :
    RowsRead env rows := by
  refine ⟨((validateRows_eq_ok env).mp h).2, fun row hrow => ?_, fun row hrow => ?_⟩
  · obtain ⟨input, -, haccepted⟩ := (recordOf_of_written h).1 row hrow
    exact normalizes_rowRecordSchema env _ _ haccepted
  · obtain ⟨input, hinput, haccepted⟩ := (recordOf_of_written h).1 row hrow
    exact (inputOf_recordOf (hinputs input hinput) (fun _ _ hr _ he => isField_resolve env hr he)
      (fun _ _ hr => resolve_status hr) haccepted).read (hinputs input hinput)

variable {d d' : Draft} {op : DraftOp}

theorem Draft.preview_eq_ok {call : Nat} {file : ParsedFile env} {view : CatalogView}
    {fetched : String → Option BatchLookupRowOutcome} :
    Draft.preview env call file view fetched = .ok d ↔
      validateRows env (previewRows env call file view fetched) = .ok d.rows ∧
      d.candidates = candidatesOf (previewResolved env file view fetched) ∧
      d.choseNew = fun _ => false := by
  obtain ⟨rows, candidates, choseNew⟩ := d
  unfold Draft.preview
  cases validateRows env (previewRows env call file view fetched) with
  | error e => simp [Except.map]
  | ok rows' =>
    simp only [Except.map, Except.ok.injEq, Draft.mk.injEq]
    constructor
    · rintro ⟨rfl, rfl, rfl⟩
      exact ⟨rfl, rfl, rfl⟩
    · rintro ⟨rfl, rfl, rfl⟩
      exact ⟨rfl, rfl, rfl⟩

theorem Draft.Previewed.rowsRead (h : d.Previewed env) : RowsRead env d.rows := by
  obtain ⟨call, file, view, fetched, hpreview⟩ := h
  refine rowsRead_of_written (fun input hinput => ?_) (Draft.preview_eq_ok.mp hpreview).1
  obtain ⟨row, hrow, rfl⟩ := List.mem_map.mp hinput
  exact ((file.rows_spec env).2 row hrow).1.input

theorem rebuildRows_eq_ok {call : Nat} {rows rebuilt : List LibraryImportRowRecord}
    {rowNumber : Nat} {action : RowAction} {view : CatalogView}
    {fetched : String → Option BatchLookupRowOutcome}
    (h : rebuildRows env call rows rowNumber action view fetched = .ok rebuilt) :
    rebuilt = recordsOf env call (rows.map (rebuildInput env rowNumber action))
      (rebuildResolved env rows rowNumber action view fetched) := by
  unfold rebuildRows at h
  dsimp only at h
  split at h
  · cases hoffered : requireOfferedChoice (rebuildResolved env rows rowNumber
      (RowAction.choose _) view fetched rowNumber) _ with
    | error e =>
      rw [hoffered] at h
      cases h
    | ok _ =>
      rw [hoffered] at h
      cases h
      rfl
  · cases h
    rfl

/-- **What an action does**: every row is made again of its input. -/
theorem DraftStep.rebuilt {op : PatchOp} (h : DraftStep env d (.patch op) d') :
    d' = d.after env op d'.rows ∧
    (∃ target, (d.rows.find? fun row => row.rowNumber = op.rowNumber) = some target ∧
      target.payload.rowVersion = op.request.expectedRowVersion) ∧
    validateRows env (recordsOf env op.call
      (d.rows.map (rebuildInput env op.rowNumber op.request.action))
      (rebuildResolved env d.rows op.rowNumber op.request.action op.view op.fetched)) =
        .ok d'.rows := by
  cases h with
  | patch h =>
    unfold Draft.patch at h
    split at h
    · cases h
    · next target hfind =>
      unfold requireCurrentRow at h
      split at h
      · next hversion =>
        cases hrebuilt : rebuildRows env op.call d.rows op.rowNumber op.request.action op.view
            op.fetched with
        | error e =>
          rw [hrebuilt] at h
          cases h
        | ok rebuilt =>
          cases hrows : validateRows env rebuilt with
          | error e =>
            rw [hrebuilt] at h
            change (validateRows env rebuilt >>= fun rows => pure (d.after env op rows)) = _ at h
            rw [hrows] at h
            cases h
          | ok rows =>
            rw [hrebuilt] at h
            change (validateRows env rebuilt >>= fun rows => pure (d.after env op rows)) = _ at h
            rw [hrows] at h
            cases h
            refine ⟨rfl, ⟨target, hfind, hversion⟩, ?_⟩
            rw [← rebuildRows_eq_ok hrebuilt]
            exact hrows
      · cases h

theorem DraftStep.rowsRead (h : DraftStep env d op d') (hd : RowsRead env d.rows) :
    RowsRead env d'.rows := by
  cases op with
  | preview =>
    cases h with
    | preview hd' => exact hd'.rowsRead
  | patch op =>
    refine rowsRead_of_written (fun input hinput => ?_) h.rebuilt.2.2
    obtain ⟨row, hrow, rfl⟩ := List.mem_map.mp hinput
    exact rebuildInput_read (hd.read row hrow) _ _

/-- **In every run the rows are read.** -/
theorem rowsRead (hr : (draftMachine env).Reachable d) : RowsRead env d.rows :=
  hr.invariant (I := fun d => RowsRead env d.rows) (fun _ h => Draft.Previewed.rowsRead h)
    fun _ _ _ _ hd h => DraftStep.rowsRead h hd

/-- The row of a draft after an action comes from the row of its number. -/
theorem DraftStep.inputOf {op : PatchOp} (h : DraftStep env d (.patch op) d')
    (hd : RowsRead env d.rows) {row' : LibraryImportRowRecord} (hrow' : row' ∈ d'.rows) :
    ∃ row ∈ d.rows, InputOf env op.call (rebuildInput env op.rowNumber op.request.action row) row' := by
  obtain ⟨input, hinput, haccepted⟩ := (recordOf_of_written h.rebuilt.2.2).1 row' hrow'
  obtain ⟨row, hrow, rfl⟩ := List.mem_map.mp hinput
  exact ⟨row, hrow, inputOf_recordOf (rebuildInput_read (hd.read row hrow) _ _)
    (fun _ _ hr _ he => isField_resolve env hr he) (fun _ _ hr => resolve_status hr) haccepted⟩

/-- Every row is there after an action. -/
theorem DraftStep.keepsRow {op : PatchOp} (h : DraftStep env d (.patch op) d')
    (hd : RowsRead env d.rows) {row : LibraryImportRowRecord} (hrow : row ∈ d.rows) :
    ∃ row' ∈ d'.rows,
      InputOf env op.call (rebuildInput env op.rowNumber op.request.action row) row' := by
  obtain ⟨row', hrow', haccepted⟩ := (recordOf_of_written h.rebuilt.2.2).2 _
    (List.mem_map_of_mem hrow)
  exact ⟨row', hrow', inputOf_recordOf (rebuildInput_read (hd.read row hrow) _ _)
    (fun _ _ hr _ he => isField_resolve env hr he) (fun _ _ hr => resolve_status hr) haccepted⟩

end Steps

/-! ## Duplicates -/

section Duplicates

variable {env}

/-- A row that is compared repeats an earlier one that is. -/
theorem mem_duplicatesFrom {inputs : List RowDraftInput} {firstByKey : FirstRowByKey}
    {n first : Nat} (h : (n, first) ∈ duplicatesFrom inputs firstByKey) :
    (∃ input ∈ inputs, input.rowNumber = n ∧ input.comparable ≠ none) ∧
      (first ∈ firstByKey.map Prod.snd ∨
        ∃ input ∈ inputs, input.rowNumber = first ∧ input.comparable ≠ none) := by
  induction inputs generalizing firstByKey with
  | nil => cases h
  | cons input rest ih =>
    rw [duplicatesFrom] at h
    rcases List.mem_append.mp h with hhere | hrest
    · obtain ⟨k, hk, heq⟩ : ∃ k, (noteComparable firstByKey input.rowNumber input.comparable).1 =
          some k ∧ (input.rowNumber, k) = (n, first) := by
        cases hnoted : (noteComparable firstByKey input.rowNumber input.comparable).1 with
        | none => simp [hnoted] at hhere
        | some k =>
          rw [hnoted] at hhere
          exact ⟨k, rfl, (List.mem_singleton.mp hhere).symm⟩
      cases heq
      cases hvalues : input.comparable with
      | none =>
        rw [hvalues] at hk
        cases hk
      | some values =>
        refine ⟨⟨input, List.mem_cons_self, rfl, by simp [hvalues]⟩, .inl ?_⟩
        rw [hvalues] at hk
        simp only [noteComparable, noteRow] at hk
        split at hk
        · cases hk
        · next k' hlookup =>
          cases hk
          obtain ⟨l₁, l₂, hl, -⟩ := List.lookup_eq_some_iff.mp hlookup
          rw [hl]
          simp
    · obtain ⟨⟨i, hi, hin⟩, hfirst⟩ := ih hrest
      refine ⟨⟨i, List.mem_cons_of_mem _ hi, hin⟩, ?_⟩
      rcases hfirst with hfirst | ⟨j, hj, hjn⟩
      · cases hvalues : input.comparable with
        | none =>
          rw [hvalues] at hfirst
          exact .inl hfirst
        | some values =>
          rw [hvalues] at hfirst
          simp only [noteComparable, noteRow] at hfirst
          split at hfirst
          · rw [List.map_cons, List.mem_cons] at hfirst
            rcases hfirst with rfl | hfirst
            · exact .inr ⟨input, List.mem_cons_self, rfl, by simp [hvalues]⟩
            · exact .inl hfirst
          · exact .inl hfirst
      · exact .inr ⟨j, List.mem_cons_of_mem _ hj, hjn⟩

theorem duplicateErrors_spec {inputs : List RowDraftInput} {n first : Nat}
    (h : duplicateErrors inputs n = some first) :
    (∃ input ∈ inputs, input.rowNumber = n ∧ input.comparable ≠ none) ∧
      ∃ input ∈ inputs, input.rowNumber = first ∧ input.comparable ≠ none := by
  obtain ⟨l₁, l₂, hl, -⟩ := List.lookup_eq_some_iff.mp h
  have hmem : (n, first) ∈ duplicatesFrom inputs [] := by
    rw [hl]
    simp
  obtain ⟨hn, hfirst⟩ := mem_duplicatesFrom hmem
  exact ⟨hn, hfirst.resolve_left (by simp)⟩

theorem RowDraftInput.fieldErrors_of_comparable {input : RowDraftInput}
    (h : input.comparable ≠ none) : input.fieldErrors = [] := by
  by_contra hne
  exact h (by simp [RowDraftInput.comparable, hne])

/-- Rows that are marked as repeated, and those that they repeat, have no field errors. -/
def DuplicatesCompared (rows : List LibraryImportRowRecord) : Prop :=
  ∀ row ∈ rows, ∀ first, .duplicateRow first ∈ row.payload.errors →
    fieldErrorsOf row.payload.errors = [] ∧
      ∃ r ∈ rows, r.rowNumber = first ∧ fieldErrorsOf r.payload.errors = []

/-- The rows have the numbers of the inputs, which are distinct. -/
theorem numbers_of_written {call : Nat} {inputs : List RowDraftInput}
    {resolved : Nat → Option ResolvedRow} {rows : List LibraryImportRowRecord}
    (h : validateRows env (recordsOf env call inputs resolved) = .ok rows) :
    rows.map LibraryImportRowRecord.rowNumber = inputs.map RowDraftInput.rowNumber ∧
      (inputs.map RowDraftInput.rowNumber).Nodup := by
  obtain ⟨hmap, hnodup⟩ := (validateRows_eq_ok env).mp h
  have hsome : (rows.map LibraryImportRowRecord.rowNumber).map some =
      (inputs.map RowDraftInput.rowNumber).map some := by
    calc (rows.map LibraryImportRowRecord.rowNumber).map some
        = (rows.map some).map (Option.map LibraryImportRowRecord.rowNumber) := by
          simp [List.map_map]
      _ = ((recordsOf env call inputs resolved).map (libraryImportRowRecordSchema env)).map
            (Option.map LibraryImportRowRecord.rowNumber) := by rw [hmap]
      _ = (inputs.map RowDraftInput.rowNumber).map some := by
          rw [recordsOf_eq_map, List.map_map, List.map_map, List.map_map]
          refine List.map_congr_left fun input hinput => ?_
          obtain ⟨row, -, haccepted⟩ := (recordOf_of_written h).2 input hinput
          show Option.map _ (libraryImportRowRecordSchema env _) = some input.rowNumber
          rw [haccepted, Option.map_some, (accepted_keeps haccepted).1]
          exact congrArg some toRowRecord_keeps.1
  have hnumbers := List.map_injective_iff.mpr (fun _ _ => Option.some.inj) hsome
  exact ⟨hnumbers, hnumbers ▸ hnodup⟩

/-- **Only rows without field errors are compared.** -/
theorem duplicatesCompared_of_written {call : Nat} {inputs : List RowDraftInput}
    {resolvable : List ResolvableRow} {view : CatalogView}
    {fetched : String → Option BatchLookupRowOutcome} {rows : List LibraryImportRowRecord}
    (hinputs : ∀ input ∈ inputs, input.Read env)
    (h : validateRows env (recordsOf env call inputs
      (LibraryImportResolver.resolve env view fetched resolvable)) = .ok rows) :
    DuplicatesCompared rows := by
  have hinput : ∀ {input row}, input ∈ inputs → libraryImportRowRecordSchema env
      (recordOf env call inputs (LibraryImportResolver.resolve env view fetched resolvable) input) =
        some row → InputOf env call input row := fun hin haccepted =>
    inputOf_recordOf (hinputs _ hin) (fun _ _ hr _ he => isField_resolve env hr he)
      (fun _ _ hr => resolve_status hr) haccepted
  intro row hrow first hfirst
  obtain ⟨input, hin, haccepted⟩ := (recordOf_of_written h).1 row hrow
  rw [(accepted_keeps haccepted).2.2.2.1, recordOf] at hfirst
  have hread := hinputs input hin
  have hnotField : LibraryImportRowError.duplicateRow first ∉ input.fieldErrors := by
    rw [hread.fieldErrors]
    exact fun hmem => by cases isField_of_mem_rowErrors env hmem
  -- the error is the one of the comparison: neither a field error nor one of the resolver
  have hdup : duplicateErrors inputs input.rowNumber = some first := by
    rcases @toRowRecord_cases env call input (duplicateErrors inputs input.rowNumber)
      (LibraryImportResolver.resolve env view fetched resolvable input.rowNumber) with
      ⟨-, hrecord⟩ | ⟨-, -, hrecord⟩ | ⟨-, -, -, -, hrecord⟩
    · rw [hrecord] at hfirst
      exact absurd hfirst hnotField
    · rw [hrecord] at hfirst
      rcases List.mem_append.mp hfirst with hmem | hmem
      · exact absurd hmem hnotField
      · simpa using hmem
    · rw [hrecord] at hfirst
      cases hr : LibraryImportResolver.resolve env view fetched resolvable input.rowNumber with
      | none =>
        rw [hr] at hfirst
        cases hfirst
      | some r =>
        rw [hr] at hfirst
        cases isResolution_resolve env hr hfirst
  obtain ⟨⟨i, hi, hin', hcomparable⟩, j, hj, hjn, hjcomparable⟩ := duplicateErrors_spec hdup
  have hsame : i = input := List.inj_on_of_nodup_map (numbers_of_written h).2 hi hin hin'
  subst hsame
  obtain ⟨r, hr, hraccepted⟩ := (recordOf_of_written h).2 j hj
  refine ⟨?_, r, hr, ?_, ?_⟩
  · rw [(hinput hin haccepted).fieldErrors]
    exact RowDraftInput.fieldErrors_of_comparable hcomparable
  · rw [(hinput hj hraccepted).rowNumber, hjn]
  · rw [(hinput hj hraccepted).fieldErrors]
    exact RowDraftInput.fieldErrors_of_comparable hjcomparable

variable {d d' : Draft} {op : DraftOp}

theorem Draft.Previewed.duplicatesCompared (h : d.Previewed env) : DuplicatesCompared d.rows := by
  obtain ⟨call, file, view, fetched, hpreview⟩ := h
  refine duplicatesCompared_of_written (fun input hinput => ?_) (Draft.preview_eq_ok.mp hpreview).1
  obtain ⟨row, hrow, rfl⟩ := List.mem_map.mp hinput
  exact ((file.rows_spec env).2 row hrow).1.input

theorem duplicatesCompared (hr : (draftMachine env).Reachable d) : DuplicatesCompared d.rows := by
  refine hr.invariant (I := fun d => DuplicatesCompared d.rows)
    (fun _ h => Draft.Previewed.duplicatesCompared h) fun d op d' hd _ h => ?_
  have h : DraftStep env d op d' := h
  cases op with
  | preview =>
    cases h with
    | preview hd' => exact hd'.duplicatesCompared
  | patch op =>
    refine duplicatesCompared_of_written (fun input hinput => ?_) h.rebuilt.2.2
    obtain ⟨row, hrow, rfl⟩ := List.mem_map.mp hinput
    exact rebuildInput_read ((rowsRead hd).read row hrow) _ _

end Duplicates

end Bookswap
