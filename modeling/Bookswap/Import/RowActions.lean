import Bookswap.Import.ImportStore

/-!
# library-import.service.ts: a draft and the actions on its rows

Pure parts of `preview` and `patchRow`. An action changes the input of one row; then all rows are
computed again from their inputs and a view of the catalog.

- `RowAction`, `LibraryImportRowPatchRequest`: what a client may ask of a row.
- `storedInput`, `patchedInput`: the inputs of a rebuild.
- `choiceOf`: the works that the rows have settled on.
- `previewRows`, `requirePatchable`, `rebuildRows`: the rows of a new draft; the checks on an
  action, and the rows after it.
- `validateRows`, `validateRows_eq_ok`: the check on every write.
-/

namespace Bookswap

/-! ## Requests -/

/-- `libraryImportEditCellsSchema`: texts for some columns. -/
structure LibraryImportEditCells where
  cell : LibraryImportColumn → Option String
  some_cell : ∃ column, cell column ≠ none
  short : ∀ column text, cell column = some text → utf16Length text ≤ maxBytes

/-- `LIBRARY_IMPORT_ROW_ACTION` -/
inductive RowAction
  | edit (cells : LibraryImportEditCells)
  | choose (workId : Option WorkId)
  | skip
  | restore
  | retry

structure LibraryImportRowPatchRequest where
  expectedRowVersion : String
  action : RowAction

/-- The cells with the texts of the edit. -/
def LibraryImportEditCells.applyTo (edit : LibraryImportEditCells) (cells : LibraryImportCells) :
    LibraryImportCells :=
  fun column => (edit.cell column).getD (cells column)

/-- A column that the action gives a text. -/
def RowAction.writes (column : LibraryImportColumn) : RowAction → Bool
  | .edit cells => (cells.cell column).isSome
  | _ => false

/-! ## Inputs -/

def storedInput (row : LibraryImportRowRecord) : RowDraftInput where
  rowNumber := row.rowNumber
  cells := row.payload.cells
  values := row.payload.values
  fieldErrors := fieldErrorsOf row.payload.errors
  rejectedCells := row.payload.rejectedCells
  skipped := row.status = .skipped
  rowVersion := some row.payload.rowVersion

/-- `keepRejections`: a column that the edit writes loses its rejection. -/
def keepRejections (rejected : LibraryImportRejectedCells) (edit : LibraryImportEditCells) :
    LibraryImportRejectedCells :=
  fun column => if (edit.cell column).isSome then none else rejected column

/-- `toDraftInput` -/
def toDraftInput (row : LibraryImportParsedRow) : RowDraftInput where
  rowNumber := row.rowNumber
  cells := row.cells
  values := row.values
  fieldErrors := fieldErrorsOf row.errors
  rejectedCells := row.rejectedCells
  skipped := false
  rowVersion := none

variable (env : ImportEnv)

/-- The row under the action. It gets a new version in any case. -/
def patchedInput (row : LibraryImportRowRecord) : RowAction → RowDraftInput
  | .edit edit =>
    let cells := edit.applyTo row.payload.cells
    let rejectedCells := keepRejections row.payload.rejectedCells edit
    { rowNumber := row.rowNumber
      cells
      values := rowValues env cells rejectedCells
      fieldErrors := rowErrors env cells rejectedCells
      rejectedCells
      skipped := false
      rowVersion := none }
  | .skip => { storedInput row with skipped := true, rowVersion := none }
  | .choose _ | .restore | .retry => { storedInput row with skipped := false, rowVersion := none }

/-- The inputs of a rebuild: one row under the action, the others as they are stored. -/
def rebuildInput (rowNumber : Nat) (action : RowAction) (row : LibraryImportRowRecord) :
    RowDraftInput :=
  if row.rowNumber = rowNumber then patchedInput env row action else storedInput row

@[simp] theorem patchedInput_rowNumber (row : LibraryImportRowRecord) (action : RowAction) :
    (patchedInput env row action).rowNumber = row.rowNumber := by
  cases action <;> rfl

@[simp] theorem rebuildInput_rowNumber (rowNumber : Nat) (action : RowAction)
    (row : LibraryImportRowRecord) :
    (rebuildInput env rowNumber action row).rowNumber = row.rowNumber := by
  unfold rebuildInput
  split
  · exact patchedInput_rowNumber env row action
  · rfl

/-! ## Choices -/

/-- `join('\0')` -/
def joinAuthors (authors : Option (List String)) : List Char :=
  [Char.ofNat 0].intercalate ((authors.getD []).map String.toList)

/-- `sameBook`: what decides which work a row belongs to. -/
def sameBook (before after : LibraryImportRowValues) : Bool :=
  before.isbn13 = after.isbn13 && before.title = after.title && before.origLang = after.origLang &&
    joinAuthors before.authors = joinAuthors after.authors

/-- The work of the stored resolution, while the row describes the same book. -/
def carriedChoice (rowNumber : Nat) (action : RowAction) (row : LibraryImportRowRecord) :
    Option (Option WorkId) :=
  match row.payload.resolution, row.payload.values, (rebuildInput env rowNumber action row).values with
  | some (.createChain workId _), some before, some after =>
    if sameBook before after then some workId else none
  | _, _, _ => none

/-- `choiceOf`, by row number. -/
def choiceOf (rows : List LibraryImportRowRecord) (rowNumber : Nat) (action : RowAction)
    (n : Nat) : Option (Option WorkId) :=
  let carried := (rows.find? fun row => row.rowNumber = n).bind (carriedChoice env rowNumber action)
  match action with
  | .choose workId => if n = rowNumber then some workId else carried
  | _ => carried

/-! ## Rows -/

/-- What the rows of a file are resolved to: nobody has chosen anything for them. -/
def previewResolved (file : ParsedFile env) (view : CatalogView)
    (fetched : String → Option BatchLookupRowOutcome) : Nat → Option ResolvedRow :=
  LibraryImportResolver.resolve env view fetched
    (toResolvable (file.rows.map toDraftInput) fun _ => none)

/-- The rows of a new draft (`resolveRows`). -/
def previewRows (call : Nat) (file : ParsedFile env) (view : CatalogView)
    (fetched : String → Option BatchLookupRowOutcome) : List LibraryImportRowRecord :=
  recordsOf env call (file.rows.map toDraftInput) (previewResolved env file view fetched)

structure OwnedLibraryImport where
  summary : LibraryImport
  /-- By `rowNumber`. -/
  rows : List LibraryImportRowRecord

def importNotFound : ImportFailure := .api ⟨.notFound, "Імпорт не знайдено", 404⟩

def alreadyCommitted : ImportFailure :=
  .api ⟨.conflict, "Імпорт уже завершено й не змінюється", 409⟩

def requireLive : Option OwnedLibraryImport → Except ImportFailure OwnedLibraryImport
  | none => .error importNotFound
  | some owned =>
    if owned.summary.status = .expired then
      .error (.api ⟨.importExpired, "Чернетка імпорту застаріла. Надішліть файл ще раз.", 410⟩)
    else .ok owned

def requireCurrentRow (row : LibraryImportRowRecord) (expected : String) : Except ImportFailure Unit :=
  if row.payload.rowVersion = expected then .ok ()
  else .error (.api ⟨.importRowConflict,
    "Рядок змінився після того, як ви його прочитали. Перечитайте чернетку й повторіть дію.", 409⟩)

/-- The row of a live draft in the version that the client has seen. -/
def requirePatchable (found : Option OwnedLibraryImport) (rowNumber : Nat) (expected : String) :
    Except ImportFailure LibraryImportRowRecord := do
  let owned ← requireLive found
  if owned.summary.status = .committed then .error alreadyCommitted
  match owned.rows.find? fun row => row.rowNumber = rowNumber with
  | none => .error importNotFound
  | some target =>
    requireCurrentRow target expected
    return target

def requireOfferedChoice (resolved : Option ResolvedRow) (workId : Option WorkId) :
    Except ImportFailure Unit :=
  match workId with
  | none => .ok ()
  | some workId =>
    if resolved.any fun r => r.candidates.any fun c => c.workId = workId then .ok ()
    else .error (.api ⟨.validationError,
      "Вибраний твір не входить до запропонованих для цього рядка", 400⟩)

/-- What the rows are resolved to in a rebuild. -/
def rebuildResolved (rows : List LibraryImportRowRecord) (rowNumber : Nat) (action : RowAction)
    (view : CatalogView) (fetched : String → Option BatchLookupRowOutcome) :
    Nat → Option ResolvedRow :=
  let inputs := rows.map (rebuildInput env rowNumber action)
  LibraryImportResolver.resolve env view fetched
    (toResolvable inputs (choiceOf env rows rowNumber action))

/-- `rebuild` after its checks: every row again, from the stored rows and the one action. -/
def rebuildRows (call : Nat) (rows : List LibraryImportRowRecord) (rowNumber : Nat)
    (action : RowAction) (view : CatalogView) (fetched : String → Option BatchLookupRowOutcome) :
    Except ImportFailure (List LibraryImportRowRecord) := do
  let resolved := rebuildResolved env rows rowNumber action view fetched
  match action with
  | .choose workId => requireOfferedChoice (resolved rowNumber) workId
  | _ => pure ()
  return recordsOf env call (rows.map (rebuildInput env rowNumber action)) resolved

/-! ## The check on a write -/

/-- The rows after the numbers `seen`. -/
def validateFrom (seen : List Nat) :
    List LibraryImportRowRecord → Except ImportFailure (List LibraryImportRowRecord)
  | [] => .ok []
  | row :: rest =>
    match libraryImportRowRecordSchema env row with
    | none => .error (.payload .write none)
    | some parsed =>
      if parsed.rowNumber ∈ seen then .error (.payload .write (some parsed.rowNumber))
      else (validateFrom (parsed.rowNumber :: seen) rest).map (parsed :: ·)

/-- `validateRows` -/
def validateRows (rows : List LibraryImportRowRecord) :
    Except ImportFailure (List LibraryImportRowRecord) :=
  validateFrom env [] rows

theorem validateFrom_eq_ok {seen : List Nat} {rows parsed : List LibraryImportRowRecord} :
    validateFrom env seen rows = .ok parsed ↔
      rows.map (libraryImportRowRecordSchema env) = parsed.map some ∧
      (parsed.map LibraryImportRowRecord.rowNumber).Nodup ∧
      ∀ row ∈ parsed, row.rowNumber ∉ seen := by
  induction rows generalizing seen parsed with
  | nil =>
    cases parsed <;> simp [validateFrom]
  | cons row rest ih =>
    rw [validateFrom]
    cases h : libraryImportRowRecordSchema env row with
    | none => cases parsed <;> simp [h]
    | some first =>
      show (if first.rowNumber ∈ seen then Except.error (.payload .write (some first.rowNumber))
        else (validateFrom env (first.rowNumber :: seen) rest).map (first :: ·)) = .ok parsed ↔ _
      by_cases hseen : first.rowNumber ∈ seen
      · rw [if_pos hseen]
        refine iff_of_false (by simp) ?_
        rintro ⟨hmap, -, hfresh⟩
        cases parsed with
        | nil => simp at hmap
        | cons p ps =>
          obtain ⟨hp, -⟩ : some first = some p ∧ _ := by simpa [h] using hmap
          cases hp
          exact hfresh first List.mem_cons_self hseen
      · rw [if_neg hseen]
        cases parsed with
        | nil => cases validateFrom env (first.rowNumber :: seen) rest <;> simp [Except.map]
        | cons p ps =>
          have hcons : (validateFrom env (first.rowNumber :: seen) rest).map (first :: ·) =
              .ok (p :: ps) ↔
              first = p ∧ validateFrom env (first.rowNumber :: seen) rest = .ok ps := by
            cases validateFrom env (first.rowNumber :: seen) rest <;> simp [Except.map]
          rw [hcons, ih]
          simp only [List.map_cons, h, List.cons.injEq, Option.some.injEq, List.nodup_cons,
            List.mem_map, List.mem_cons, not_or, forall_eq_or_imp]
          grind

/-- **The check passes exactly if every row is accepted and the numbers are distinct.** -/
theorem validateRows_eq_ok {rows parsed : List LibraryImportRowRecord} :
    validateRows env rows = .ok parsed ↔
      rows.map (libraryImportRowRecordSchema env) = parsed.map some ∧
      (parsed.map LibraryImportRowRecord.rowNumber).Nodup := by
  rw [validateRows, validateFrom_eq_ok]
  simp

end Bookswap
