import Bookswap.Import.DraftRuns
import Bookswap.Lib.FirstOfKey

/-!
# Duplicate rows

The parser marks the rows of a file while it reads them, a rebuild those of a draft from its
inputs. Both are the one pass of `FirstOfKey.marked` over the keys of the rows that are compared:
`marks_buildRowsFrom`, `duplicatesFrom_eq`. A draft remembers no mark: every rebuild says of each row
what the cells, the rejections and the skips say again (`duplicateOf_draft`).
-/

namespace Bookswap

open FirstOfKey

/-- The row that a row repeats, as its errors say. -/
def duplicateOf (errors : List LibraryImportRowError) : Option Nat :=
  errors.findSome? fun
    | .duplicateRow firstRowNumber => some firstRowNumber
    | _ => none

/-- The key of a row that is compared, under its number. -/
def RowDraftInput.entry (row : RowDraftInput) : Nat × Option LibraryImportRowValues :=
  (row.rowNumber, row.comparable.map libraryImportDuplicateKey)

def LibraryImportParsedRow.entry (row : LibraryImportParsedRow) :
    Nat × Option LibraryImportRowValues :=
  (row.rowNumber, row.values.map libraryImportDuplicateKey)

/-- The stored row read again: what its cells, its rejections and its status say. -/
def readAgain (env : ImportEnv) (row : LibraryImportRowRecord) : RowDraftInput where
  rowNumber := row.rowNumber
  cells := row.payload.cells
  values := rowValues env row.payload.cells row.payload.rejectedCells
  fieldErrors := rowErrors env row.payload.cells row.payload.rejectedCells
  rejectedCells := row.payload.rejectedCells
  skipped := row.status = .skipped
  rowVersion := some row.payload.rowVersion

/-- The numbers of the rows before `n` that are compared and have the key. -/
def repeatable (inputs : List RowDraftInput) (n : Nat) (key : LibraryImportRowValues) : Set Nat :=
  {m | m < n ∧ ∃ row ∈ inputs, row.rowNumber = m ∧
    ∃ values, row.comparable = some values ∧ libraryImportDuplicateKey values = key}

section Marks

variable {env : ImportEnv}

theorem duplicateOf_append {fields rest : List LibraryImportRowError}
    (h : ∀ e ∈ fields, e.isField = true) : duplicateOf (fields ++ rest) = duplicateOf rest := by
  unfold duplicateOf
  rw [List.findSome?_append]
  have hnone : (fields.findSome? fun
      | LibraryImportRowError.duplicateRow firstRowNumber => some firstRowNumber
      | _ => none) = none := by
    rw [List.findSome?_eq_none_iff]
    intro e he
    have hfield := h e he
    cases e <;> first | rfl | cases hfield
  rw [hnone]
  rfl

@[simp] theorem duplicateOf_toList (first : Option Nat) :
    duplicateOf (first.map .duplicateRow).toList = first := by
  cases first <;> rfl

theorem duplicateOf_of_fields {fields : List LibraryImportRowError}
    (h : ∀ e ∈ fields, e.isField = true) : duplicateOf fields = none := by
  rw [← List.append_nil fields, duplicateOf_append h]
  rfl

theorem duplicateOf_of_resolution {errors : List LibraryImportRowError}
    (h : ∀ e ∈ errors, e.isResolution = true) : duplicateOf errors = none := by
  rw [duplicateOf, List.findSome?_eq_none_iff]
  intro e he
  have hresolution := h e he
  cases e <;> first | rfl | cases hresolution

/-- Both passes note a row under its key. -/
theorem noteComparable_eq (table : FirstRowByKey) (rowNumber : Nat)
    (values : Option LibraryImportRowValues) :
    noteComparable table rowNumber values =
      note table rowNumber (values.map libraryImportDuplicateKey) := by
  cases values with
  | none => rfl
  | some values =>
    cases hlookup : table.lookup (libraryImportDuplicateKey values) with
    | none => simp [noteComparable, noteRow, note, hlookup]
    | some first => simp [noteComparable, noteRow, note, hlookup]

variable (env) in
/-- **The parser** says of its rows what one pass over their keys says. -/
theorem marks_buildRowsFrom (rejections : Nat → LibraryImportRejectedCells)
    (records : List LibraryImportCells) (rowNumber : Nat) (table : FirstRowByKey) :
    (buildRowsFrom env rejections records rowNumber table).map
        (fun row => (row.rowNumber, duplicateOf row.errors)) =
      marked ((buildRowsFrom env rejections records rowNumber table).map
        LibraryImportParsedRow.entry) table := by
  induction records generalizing rowNumber table with
  | nil => rfl
  | cons cells rest ih =>
    rw [buildRowsFrom, List.map_cons, List.map_cons, ih]
    simp only [LibraryImportParsedRow.entry, marked, noteComparable_eq,
      duplicateOf_append fun e => isField_of_mem_rowErrors env, duplicateOf_toList]

/-- **A rebuild** does the same over the keys of its inputs. -/
theorem duplicatesFrom_eq (inputs : List RowDraftInput) (table : FirstRowByKey) :
    duplicatesFrom inputs table = (marked (inputs.map RowDraftInput.entry) table).filterMap
      fun x => x.2.map (x.1, ·) := by
  induction inputs generalizing table with
  | nil => rfl
  | cons row rest ih =>
    rw [duplicatesFrom, ih, List.map_cons, RowDraftInput.entry, marked, noteComparable_eq]
    cases (note table row.rowNumber (row.comparable.map libraryImportDuplicateKey)).1 <;> simp

/-- Two lists of inputs with the same keys have the same duplicates. -/
theorem duplicateErrors_congr {inputs inputs' : List RowDraftInput}
    (h : inputs.map RowDraftInput.entry = inputs'.map RowDraftInput.entry) :
    duplicateErrors inputs = duplicateErrors inputs' := by
  funext n
  simp only [duplicateErrors, duplicatesFrom_eq, h]

theorem map_fst_entry (inputs : List RowDraftInput) :
    (inputs.map RowDraftInput.entry).map Prod.fst = inputs.map RowDraftInput.rowNumber := by
  simp [RowDraftInput.entry, Function.comp_def]

/-- The duplicate of a row is what the pass says of its number. -/
theorem duplicateErrors_eq_some_iff {inputs : List RowDraftInput}
    (h : (inputs.map RowDraftInput.rowNumber).Nodup) {n first : Nat} :
    duplicateErrors inputs n = some first ↔
      (n, some first) ∈ marked (inputs.map RowDraftInput.entry) [] := by
  have hkeys : ((duplicatesFrom inputs []).map Prod.fst).Nodup := by
    have hsub : ((duplicatesFrom inputs []).map Prod.fst).Sublist
        ((marked (inputs.map RowDraftInput.entry) []).map Prod.fst) := by
      rw [duplicatesFrom_eq]
      generalize marked (inputs.map RowDraftInput.entry) [] = marks
      induction marks with
      | nil => exact .slnil
      | cons x marks ih =>
        obtain ⟨m, mark⟩ := x
        cases mark with
        | none => simpa using ih.cons m
        | some first => simpa using ih.cons_cons m
    rw [map_fst_marked, map_fst_entry] at hsub
    exact hsub.nodup h
  have hmem : (n, first) ∈ duplicatesFrom inputs [] ↔
      (n, some first) ∈ marked (inputs.map RowDraftInput.entry) [] := by
    rw [duplicatesFrom_eq, List.mem_filterMap]
    constructor
    · rintro ⟨⟨m, mark⟩, hx, heq⟩
      obtain ⟨k, rfl, hk⟩ := Option.map_eq_some_iff.mp heq
      cases hk
      exact hx
    · exact fun hx => ⟨_, hx, rfl⟩
  rw [← hmem, duplicateErrors]
  constructor
  · intro hlookup
    obtain ⟨l₁, l₂, hl, -⟩ := List.lookup_eq_some_iff.mp hlookup
    rw [hl]
    simp
  · intro hx
    obtain ⟨l₁, l₂, hl⟩ := List.append_of_mem hx
    refine List.lookup_eq_some_iff.mpr ⟨l₁, l₂, hl, fun y hy => ?_⟩
    rw [hl, List.map_append, List.map_cons, List.nodup_append] at hkeys
    have hne := hkeys.2.2 y.1 (List.mem_map_of_mem hy) n List.mem_cons_self
    simpa using fun heq => hne heq.symm

/-- Whatever the pass says of a row is what the map of the duplicates has. -/
theorem duplicateErrors_of_mem_marked {inputs : List RowDraftInput}
    (h : (inputs.map RowDraftInput.rowNumber).Nodup) {n : Nat} {mark : Option Nat}
    (hmark : (n, mark) ∈ marked (inputs.map RowDraftInput.entry) []) :
    duplicateErrors inputs n = mark := by
  cases hdup : duplicateErrors inputs n with
  | some first =>
    have hother := (duplicateErrors_eq_some_iff h).mp hdup
    have hkeys : ((marked (inputs.map RowDraftInput.entry) []).map Prod.fst).Nodup := by
      rwa [map_fst_marked, map_fst_entry]
    exact congrArg Prod.snd (List.inj_on_of_nodup_map hkeys hother hmark rfl)
  | none =>
    cases mark with
    | none => rfl
    | some first => exact hdup.symm.trans ((duplicateErrors_eq_some_iff h).mpr hmark)

/-- **A row that is compared repeats the least row before it with its key.** -/
theorem duplicateErrors_iff_isLeast {inputs : List RowDraftInput}
    (h : (inputs.map RowDraftInput.rowNumber).Pairwise (· < ·)) {row : RowDraftInput}
    (hrow : row ∈ inputs) {first : Nat} :
    duplicateErrors inputs row.rowNumber = some first ↔ ∃ values, row.comparable = some values ∧
      IsLeast (repeatable inputs row.rowNumber (libraryImportDuplicateKey values)) first := by
  have hnodup : (inputs.map RowDraftInput.rowNumber).Nodup := h.imp fun hlt => Nat.ne_of_lt hlt
  have hset : ∀ key, {m | m < row.rowNumber ∧
      (m, some key) ∈ inputs.map RowDraftInput.entry} = repeatable inputs row.rowNumber key := by
    intro key
    ext m
    refine and_congr_right fun _ => ?_
    simp only [List.mem_map, RowDraftInput.entry, Prod.mk.injEq, Option.map_eq_some_iff]
  have hkey : ∀ key, (row.rowNumber, some key) ∈ inputs.map RowDraftInput.entry ↔
      ∃ values, row.comparable = some values ∧ libraryImportDuplicateKey values = key := by
    intro key
    simp only [List.mem_map, RowDraftInput.entry, Prod.mk.injEq, Option.map_eq_some_iff]
    constructor
    · rintro ⟨r, hr, hn, hr'⟩
      rwa [List.inj_on_of_nodup_map hnodup hr hrow hn] at hr'
    · exact fun hv => ⟨row, hrow, rfl, hv⟩
  rw [duplicateErrors_eq_some_iff hnodup, mem_marked_iff_isLeast (by rwa [map_fst_entry])]
  constructor
  · rintro ⟨key, hmem, hleast⟩
    obtain ⟨values, hvalues, rfl⟩ := (hkey key).mp hmem
    exact ⟨values, hvalues, by rwa [hset] at hleast⟩
  · rintro ⟨values, hvalues, hleast⟩
    exact ⟨_, (hkey _).mpr ⟨values, hvalues, rfl⟩, by rwa [hset]⟩

/-! ## A file and its draft -/

/-- A row of a file is compared if it has values. -/
theorem comparable_toDraftInput {row : LibraryImportParsedRow} (h : row.Read env) :
    (toDraftInput row).comparable = row.values := by
  have hread := h.input
  rw [RowDraftInput.comparable, hread.fieldErrors]
  simp only [toDraftInput, Bool.false_eq_true, false_or]
  split
  next hne =>
    rw [h.values, eq_comm, rowValues_eq_none_iff]
    simpa using hne
  · rfl

/-- **The parser and a new draft agree**: the mark of a row of the file is its duplicate among the
inputs of the draft. -/
theorem duplicateOf_parsed {records : List LibraryImportCells}
    {rejections : Nat → LibraryImportRejectedCells} {row : LibraryImportParsedRow}
    (hrow : row ∈ buildLibraryImportRows env records rejections) :
    duplicateOf row.errors = duplicateErrors
      ((buildLibraryImportRows env records rejections).map toDraftInput) row.rowNumber := by
  obtain ⟨hnumbers, hread⟩ := buildRowsFrom_spec env rejections records 1 []
  set rows := buildLibraryImportRows env records rejections with hrows
  have hentries : (rows.map toDraftInput).map RowDraftInput.entry =
      rows.map LibraryImportParsedRow.entry := by
    rw [List.map_map]
    refine List.map_congr_left fun r hr => ?_
    show (r.rowNumber, _) = (r.rowNumber, _)
    rw [comparable_toDraftInput (hread r hr).1]
  have hnodup : ((rows.map toDraftInput).map RowDraftInput.rowNumber).Nodup := by
    have hmap : (rows.map toDraftInput).map RowDraftInput.rowNumber =
        List.range' 1 records.length := by
      rw [← hnumbers, List.map_map]
      rfl
    rw [hmap]
    exact List.nodup_range'
  refine (duplicateErrors_of_mem_marked hnodup ?_).symm
  rw [hentries, hrows]
  have hmarks := marks_buildRowsFrom env rejections records 1 []
  rw [buildLibraryImportRows, ← hmarks]
  exact List.mem_map.mpr ⟨row, hrow, rfl⟩

/-! ## Every rebuild -/

section Rebuilds

variable {call : Nat} {inputs : List RowDraftInput} {resolvable : List ResolvableRow}
  {view : CatalogView} {fetched : String → Option BatchLookupRowOutcome}
  {rows : List LibraryImportRowRecord} {input : RowDraftInput} {row : LibraryImportRowRecord}

/-- A record has the mark of the comparison: neither its field errors nor the resolver add one. -/
theorem duplicateOf_recordOf (hsorted : (inputs.map RowDraftInput.rowNumber).Pairwise (· < ·))
    (hinput : input ∈ inputs) (hread : input.Read env) :
    duplicateOf (recordOf env call inputs
      (LibraryImportResolver.resolve env view fetched resolvable) input).payload.errors =
        duplicateErrors inputs input.rowNumber := by
  have hfields : ∀ e ∈ input.fieldErrors, e.isField = true := by
    rw [hread.fieldErrors]
    exact fun e he => isField_of_mem_rowErrors env he
  rcases @toRowRecord_cases env call input (duplicateErrors inputs input.rowNumber)
    (LibraryImportResolver.resolve env view fetched resolvable input.rowNumber) with
    ⟨hskipped, hrecord⟩ | ⟨-, -, hrecord⟩ | ⟨-, -, hnone, -, hrecord⟩
  · rw [recordOf, hrecord]
    show duplicateOf input.fieldErrors = _
    rw [duplicateOf_of_fields hfields]
    cases hdup : duplicateErrors inputs input.rowNumber with
    | none => rfl
    | some first =>
      obtain ⟨values, hvalues, -⟩ := (duplicateErrors_iff_isLeast hsorted hinput).mp hdup
      simp [RowDraftInput.comparable, hskipped] at hvalues
  · rw [recordOf, hrecord]
    show duplicateOf (input.fieldErrors ++ _) = _
    rw [duplicateOf_append hfields, duplicateOf_toList]
  · rw [recordOf, hrecord, hnone]
    cases hr : LibraryImportResolver.resolve env view fetched resolvable input.rowNumber with
    | none => rfl
    | some r => exact duplicateOf_of_resolution fun e he => isResolution_resolve env hr he

/-- A row that was written has the key of its input, read again. -/
theorem entry_readAgain (hread : input.Read env)
    (h : libraryImportRowRecordSchema env (recordOf env call inputs
      (LibraryImportResolver.resolve env view fetched resolvable) input) = some row) :
    (readAgain env row).entry = input.entry := by
  have hof := inputOf_recordOf hread (fun _ _ hr _ he => isField_resolve env hr he)
    (fun _ _ hr => resolve_status hr) h
  have hstatus : row.status = .skipped ↔ input.skipped = true := by
    refine ⟨hof.skipped, fun hskipped => ?_⟩
    rw [(accepted_keeps h).2.1, recordOf]
    simp only [toRowRecord, hskipped, if_true]
    rfl
  have hvalues : rowValues env row.payload.cells row.payload.rejectedCells = input.values := by
    rw [hof.cells, hof.rejectedCells]
    exact hread.values.symm
  have herrors : rowErrors env row.payload.cells row.payload.rejectedCells = input.fieldErrors := by
    rw [hof.cells, hof.rejectedCells]
    exact hread.fieldErrors.symm
  have hcomparable : (readAgain env row).comparable = input.comparable := by
    simp only [RowDraftInput.comparable, readAgain, hvalues, herrors, decide_eq_true_eq, hstatus]
  rw [RowDraftInput.entry, hcomparable]
  show (row.rowNumber, _) = (input.rowNumber, _)
  rw [hof.rowNumber]

/-- **What a rebuild says of the rows is what the rows say when they are read again.** -/
theorem duplicateOf_written (hinputs : ∀ input ∈ inputs, input.Read env)
    (hsorted : (inputs.map RowDraftInput.rowNumber).Pairwise (· < ·))
    (h : validateRows env (recordsOf env call inputs
      (LibraryImportResolver.resolve env view fetched resolvable)) = .ok rows)
    (hrow : row ∈ rows) :
    duplicateOf row.payload.errors = duplicateErrors (rows.map (readAgain env)) row.rowNumber := by
  have hentries : (rows.map (readAgain env)).map RowDraftInput.entry =
      inputs.map RowDraftInput.entry := by
    have hsome : ((rows.map (readAgain env)).map RowDraftInput.entry).map some =
        (inputs.map RowDraftInput.entry).map some := by
      calc ((rows.map (readAgain env)).map RowDraftInput.entry).map some
          = (rows.map some).map (Option.map fun row => (readAgain env row).entry) := by
            simp [List.map_map]
        _ = ((recordsOf env call inputs (LibraryImportResolver.resolve env view fetched
              resolvable)).map (libraryImportRowRecordSchema env)).map
              (Option.map fun row => (readAgain env row).entry) := by
            rw [((validateRows_eq_ok env).mp h).1]
        _ = (inputs.map RowDraftInput.entry).map some := by
            rw [recordsOf_eq_map, List.map_map, List.map_map, List.map_map]
            refine List.map_congr_left fun input hinput => ?_
            obtain ⟨row, -, haccepted⟩ := (recordOf_of_written h).2 input hinput
            show Option.map _ (libraryImportRowRecordSchema env _) = some input.entry
            rw [haccepted, Option.map_some, entry_readAgain (hinputs input hinput) haccepted]
    exact List.map_injective_iff.mpr (fun _ _ => Option.some.inj) hsome
  obtain ⟨input, hinput, haccepted⟩ := (recordOf_of_written h).1 row hrow
  obtain ⟨hnumber, -, -, herrors, -⟩ := accepted_keeps haccepted
  rw [duplicateErrors_congr hentries, herrors,
    duplicateOf_recordOf hsorted hinput (hinputs input hinput), hnumber]
  exact congrArg _ toRowRecord_keeps.1.symm

end Rebuilds

variable {d d' : Draft} {op : DraftOp}

/-- The rows of a draft stay in the order of their numbers. -/
theorem increasing (hr : (draftMachine env).Reachable d) :
    (d.rows.map LibraryImportRowRecord.rowNumber).Pairwise (· < ·) := by
  have hpreview : ∀ {d : Draft}, d.Previewed env →
      (d.rows.map LibraryImportRowRecord.rowNumber).Pairwise (· < ·) := by
    rintro d ⟨call, file, view, fetched, hpreview⟩
    rw [(numbers_of_written (Draft.preview_eq_ok.mp hpreview).1).1, List.map_map]
    show (file.rows.map LibraryImportParsedRow.rowNumber).Pairwise (· < ·)
    rw [(file.rows_spec env).1]
    exact List.pairwise_lt_range'
  refine hr.invariant (I := fun d => (d.rows.map LibraryImportRowRecord.rowNumber).Pairwise (· < ·))
    (fun _ h => hpreview h) fun d op d' _ hd h => ?_
  have h : DraftStep env d op d' := h
  cases op with
  | preview =>
    cases h with
    | preview hd' => exact hpreview hd'
  | patch op =>
    rw [(numbers_of_written h.rebuilt.2.2).1, List.map_map]
    simpa [Function.comp_def] using hd

theorem Draft.Previewed.duplicateOf (h : d.Previewed env) :
    ∀ row ∈ d.rows, duplicateOf row.payload.errors =
      duplicateErrors (d.rows.map (readAgain env)) row.rowNumber := by
  obtain ⟨call, file, view, fetched, hpreview⟩ := h
  refine fun row hrow => duplicateOf_written (fun input hinput => ?_) ?_
    (Draft.preview_eq_ok.mp hpreview).1 hrow
  · obtain ⟨row, hrow, rfl⟩ := List.mem_map.mp hinput
    exact ((file.rows_spec env).2 row hrow).1.input
  · rw [List.map_map]
    show (file.rows.map LibraryImportParsedRow.rowNumber).Pairwise (· < ·)
    rw [(file.rows_spec env).1]
    exact List.pairwise_lt_range'

/-- **After every action** the marks are those of the rows as they are now. -/
theorem duplicateOf_draft (hr : (draftMachine env).Reachable d) :
    ∀ row ∈ d.rows, duplicateOf row.payload.errors =
      duplicateErrors (d.rows.map (readAgain env)) row.rowNumber := by
  refine hr.invariant (I := fun d => ∀ row ∈ d.rows, duplicateOf row.payload.errors =
    duplicateErrors (d.rows.map (readAgain env)) row.rowNumber)
    (fun _ h => Draft.Previewed.duplicateOf h) fun d op d' hd _ h => ?_
  have h : DraftStep env d op d' := h
  cases op with
  | preview =>
    cases h with
    | preview hd' => exact hd'.duplicateOf
  | patch op =>
    refine fun row hrow => duplicateOf_written (fun input hinput => ?_) ?_ h.rebuilt.2.2 hrow
    · obtain ⟨row, hrow, rfl⟩ := List.mem_map.mp hinput
      exact rebuildInput_read ((rowsRead hd).read row hrow) _ _
    · rw [List.map_map]
      simpa [Function.comp_def] using increasing hd

/-- A stored row that is read is its input. -/
theorem readAgain_eq {row : LibraryImportRowRecord} (h : (storedInput row).Read env) :
    readAgain env row = storedInput row := by
  have hvalues : row.payload.values = rowValues env row.payload.cells row.payload.rejectedCells :=
    h.values
  have herrors : fieldErrorsOf row.payload.errors =
      rowErrors env row.payload.cells row.payload.rejectedCells := h.fieldErrors
  rw [readAgain, storedInput, hvalues, herrors]

/-- **The marks of a draft**: a row that is compared repeats the least row before it with its key. -/
theorem duplicateOf_draft_iff (hr : (draftMachine env).Reachable d) {row : LibraryImportRowRecord}
    (hrow : row ∈ d.rows) {first : Nat} :
    duplicateOf row.payload.errors = some first ↔
      ∃ values, (storedInput row).comparable = some values ∧
        IsLeast (repeatable (d.rows.map storedInput) row.rowNumber
          (libraryImportDuplicateKey values)) first := by
  have hinputs : d.rows.map (readAgain env) = d.rows.map storedInput :=
    List.map_congr_left fun r hmem => readAgain_eq ((rowsRead hr).read r hmem)
  have hsorted : ((d.rows.map storedInput).map RowDraftInput.rowNumber).Pairwise (· < ·) := by
    rw [List.map_map]
    exact increasing hr
  rw [duplicateOf_draft hr row hrow, hinputs]
  exact duplicateErrors_iff_isLeast hsorted (List.mem_map_of_mem hrow)

/-- **The marks of a file**: a row with values repeats the least row before it with its key. -/
theorem duplicateOf_parsed_iff {records : List LibraryImportCells}
    {rejections : Nat → LibraryImportRejectedCells} {row : LibraryImportParsedRow}
    (hrow : row ∈ buildLibraryImportRows env records rejections) {first : Nat} :
    duplicateOf row.errors = some first ↔ ∃ values, row.values = some values ∧
      IsLeast {m | m < row.rowNumber ∧ ∃ r ∈ buildLibraryImportRows env records rejections,
        r.rowNumber = m ∧ ∃ v, r.values = some v ∧
          libraryImportDuplicateKey v = libraryImportDuplicateKey values} first := by
  obtain ⟨hnumbers, hread⟩ := buildRowsFrom_spec env rejections records 1 []
  have hsorted : (((buildLibraryImportRows env records rejections).map toDraftInput).map
      RowDraftInput.rowNumber).Pairwise (· < ·) := by
    rw [List.map_map]
    show ((buildLibraryImportRows env records rejections).map
      LibraryImportParsedRow.rowNumber).Pairwise (· < ·)
    rw [buildLibraryImportRows, hnumbers]
    exact List.pairwise_lt_range'
  have hset : ∀ key, repeatable ((buildLibraryImportRows env records rejections).map toDraftInput)
      row.rowNumber key = {m | m < row.rowNumber ∧
        ∃ r ∈ buildLibraryImportRows env records rejections, r.rowNumber = m ∧
          ∃ v, r.values = some v ∧ libraryImportDuplicateKey v = key} := by
    intro key
    ext m
    refine and_congr_right fun _ => ⟨?_, ?_⟩
    · rintro ⟨input, hinput, hm, v, hv, hkey⟩
      obtain ⟨r, hr, rfl⟩ := List.mem_map.mp hinput
      rw [comparable_toDraftInput (hread r hr).1] at hv
      exact ⟨r, hr, hm, v, hv, hkey⟩
    · rintro ⟨r, hr, hm, v, hv, hkey⟩
      rw [← comparable_toDraftInput (hread r hr).1] at hv
      exact ⟨toDraftInput r, List.mem_map_of_mem hr, hm, v, hv, hkey⟩
  rw [duplicateOf_parsed hrow]
  have hiff := @duplicateErrors_iff_isLeast _ hsorted _ (List.mem_map_of_mem hrow) first
  rw [comparable_toDraftInput (hread row hrow).1] at hiff
  exact hiff.trans (exists_congr fun values => and_congr_right fun _ => by rw [← hset]; rfl)

/-- **Duplicate rows.** The parser marks the rows of a file as the comparison of a new draft does.
In files and in drafts, whatever was done to them, a row that is compared is marked exactly if an
earlier row that is compared has its key, with the least such row. After every action the marks are
those of the rows read again. -/
theorem duplicate_rows (env : ImportEnv) :
    (∀ records rejections, ∀ row ∈ buildLibraryImportRows env records rejections,
      duplicateOf row.errors = duplicateErrors
        ((buildLibraryImportRows env records rejections).map toDraftInput) row.rowNumber ∧
      ∀ first, duplicateOf row.errors = some first ↔ ∃ values, row.values = some values ∧
        IsLeast {m | m < row.rowNumber ∧ ∃ r ∈ buildLibraryImportRows env records rejections,
          r.rowNumber = m ∧ ∃ v, r.values = some v ∧
            libraryImportDuplicateKey v = libraryImportDuplicateKey values} first) ∧
    ∀ d, (draftMachine env).Reachable d → ∀ row ∈ d.rows,
      duplicateOf row.payload.errors =
        duplicateErrors (d.rows.map (readAgain env)) row.rowNumber ∧
      ∀ first, duplicateOf row.payload.errors = some first ↔
        ∃ values, (storedInput row).comparable = some values ∧
          IsLeast (repeatable (d.rows.map storedInput) row.rowNumber
            (libraryImportDuplicateKey values)) first :=
  ⟨fun _ _ _ hrow => ⟨duplicateOf_parsed hrow, fun _ => duplicateOf_parsed_iff hrow⟩,
    fun _ hr row hrow => ⟨duplicateOf_draft hr row hrow, fun _ => duplicateOf_draft_iff hr hrow⟩⟩

/-- A row with these values alone. -/
def plainValues : LibraryImportRowValues where
  isbn13 := "9789660000001"
  title := some "Кобзар"
  authors := some ["Тарас Шевченко"]
  origLang := some "uk"
  firstPubYear := none
  editionLang := none
  translator := none
  translationSourceLang := none
  translationYear := none
  isAbridged := none
  hasNotes := none
  translationNotes := none
  publisher := none
  editionYear := none
  pageCount := none
  coverUrl := none
  format := .paperback
  condition := .good
  visibility := .friends
  note := none
  acquiredAt := none
  quantity := 1

def plainInput (rowNumber : Nat) (skipped : Bool) : RowDraftInput where
  rowNumber := rowNumber
  cells := fun _ => ""
  values := some plainValues
  fieldErrors := []
  rejectedCells := fun _ => none
  skipped := skipped
  rowVersion := none

/-- The second of two equal rows is skipped: it is not marked, though the first is compared and has
its key. -/
theorem skipped_row_unmarked :
    ¬ ∀ inputs : List RowDraftInput, (inputs.map RowDraftInput.rowNumber).Pairwise (· < ·) →
      ∀ row ∈ inputs, ∀ values, row.values = some values → row.fieldErrors = [] →
        (duplicateErrors inputs row.rowNumber ≠ none ↔
          (repeatable inputs row.rowNumber (libraryImportDuplicateKey values)).Nonempty) := by
  intro hall
  have hiff := hall [plainInput 1 false, plainInput 2 true] (by decide) (plainInput 2 true)
    (by simp) plainValues rfl rfl
  refine hiff.mpr ⟨1, by decide, plainInput 1 false, by simp, rfl, plainValues, rfl, rfl⟩ ?_
  decide +kernel

end Marks

end Bookswap
