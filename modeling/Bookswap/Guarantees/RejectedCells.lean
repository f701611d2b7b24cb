import Bookswap.Import.DraftRuns

/-!
# Rejected cells stay rejected

A cell that the reader or the schema of its column refused has a field error, through every action
on any row, until an `EDIT` gives that very column a text. As long as a row has such an error, it
is left out: of the values, of the commit plan, and of the comparison with other rows.

- `error_iff_rejects`: a stored row has the error of a column exactly if its cell is refused.
- `LeavesCell`, `DraftStep.keepsCell`: the actions that do not touch the cell, and one step.
- `LeftOut`, `leftOut_of_error`: what a row with a field error is kept out of.
-/

namespace Bookswap

variable {env : ImportEnv} {d d' : Draft} {op : DraftOp}

/-- The reader or the schema of the column has refused the cell. -/
def LibraryImportRowRecord.Rejects (env : ImportEnv) (row : LibraryImportRowRecord)
    (column : LibraryImportColumn) : Prop :=
  row.payload.rejectedCells column ≠ none ∨ rejectsCell env column (row.payload.cells column) = true

/-- **A row has the error of a column exactly if its cell is refused.** -/
theorem error_iff_rejects {row : LibraryImportRowRecord} (h : (storedInput row).Read env)
    {column : LibraryImportColumn} :
    libraryImportFieldError column ∈ row.payload.errors ↔ row.Rejects env column := by
  have hfield : libraryImportFieldError column ∈ row.payload.errors ↔
      libraryImportFieldError column ∈ fieldErrorsOf row.payload.errors := by
    rw [fieldErrorsOf, List.mem_filter]
    simp [LibraryImportRowError.isField]
  have hread : fieldErrorsOf row.payload.errors =
      rowErrors env row.payload.cells row.payload.rejectedCells := h.fieldErrors
  rw [hfield, hread, mem_rowErrors_iff]
  constructor
  · rintro ⟨column', hcolumn, hrejects⟩
    rw [← libraryImportFieldError_injective hcolumn]
    exact hrejects
  · exact fun hrejects => ⟨column, rfl, hrejects⟩

/-! ## The error stays -/

/-- An action, and not an `EDIT` of that cell. -/
def LeavesCell (rowNumber : Nat) (column : LibraryImportColumn) (_ : Draft) (op : DraftOp)
    (_ : Draft) : Prop :=
  ∃ p, op = .patch p ∧ ¬ (p.rowNumber = rowNumber ∧ p.request.action.writes column = true)

theorem rebuildInput_keepsCell {row : LibraryImportRowRecord} {rowNumber : Nat}
    {action : RowAction} {column : LibraryImportColumn}
    (h : ¬ (rowNumber = row.rowNumber ∧ action.writes column = true)) :
    (rebuildInput env rowNumber action row).cells column = row.payload.cells column ∧
      (rebuildInput env rowNumber action row).rejectedCells column =
        row.payload.rejectedCells column := by
  unfold rebuildInput
  split
  · next hrow =>
    cases action with
    | edit cells =>
      have hnone : cells.cell column = none := by
        rw [← Option.not_isSome_iff_eq_none]
        exact fun hsome => h ⟨hrow.symm, hsome⟩
      exact ⟨by simp [patchedInput, LibraryImportEditCells.applyTo, hnone],
        by simp [patchedInput, keepRejections, hnone]⟩
    | choose | skip | restore | retry => exact ⟨rfl, rfl⟩
  · exact ⟨rfl, rfl⟩

/-- What the row of a draft has in the column. -/
def Draft.HasCell (d : Draft) (rowNumber : Nat) (column : LibraryImportColumn) (text : String)
    (rejection : Option LibraryImportCellRejection) : Prop :=
  ∃ row ∈ d.rows, row.rowNumber = rowNumber ∧ row.payload.cells column = text ∧
    row.payload.rejectedCells column = rejection

/-- **One action that does not touch the cell keeps it.** -/
theorem DraftStep.keepsCell (h : DraftStep env d op d') (hd : RowsRead env d.rows)
    {rowNumber : Nat} {column : LibraryImportColumn} (hop : LeavesCell rowNumber column d op d')
    {text : String} {rejection : Option LibraryImportCellRejection}
    (hcell : d.HasCell rowNumber column text rejection) :
    d'.HasCell rowNumber column text rejection := by
  obtain ⟨p, rfl, hleaves⟩ := hop
  obtain ⟨row, hrow, rfl, htext, hrejection⟩ := hcell
  obtain ⟨row', hrow', hof⟩ := h.keepsRow hd hrow
  obtain ⟨hcells, hrejected⟩ := @rebuildInput_keepsCell env _ _ _ _ hleaves
  refine ⟨row', hrow', ?_, ?_, ?_⟩
  · rw [hof.rowNumber, rebuildInput_rowNumber]
  · rw [hof.cells, hcells, htext]
  · rw [hof.rejectedCells, hrejected, hrejection]

/-! ## What the row is left out of -/

/-- The row creates nothing and is compared with nobody. -/
structure LeftOut (rows : List LibraryImportRowRecord) (row : LibraryImportRowRecord) : Prop where
  status : row.status = .invalid ∨ row.status = .skipped
  values : row.payload.values = none
  copies : ∀ c ∈ (assessLibraryImportCommit rows).plan.copies, c.rowNumber ≠ row.rowNumber
  chains : ∀ c ∈ (assessLibraryImportCommit rows).plan.chains, row.rowNumber ∉ c.rowNumbers
  repeats : ∀ first, .duplicateRow first ∉ row.payload.errors
  repeated : ∀ r ∈ rows, .duplicateRow row.rowNumber ∉ r.payload.errors

/-- What the plan creates, it creates for a row with values. -/
theorem mem_plan {rows : List LibraryImportRowRecord} :
    (∀ c ∈ (assessLibraryImportCommit rows).plan.copies,
      ∃ row ∈ rows, row.rowNumber = c.rowNumber ∧ row.payload.values = some c.values) ∧
    ∀ c ∈ (assessLibraryImportCommit rows).plan.chains, ∀ n ∈ c.rowNumbers,
      ∃ row ∈ rows, row.rowNumber = n ∧ row.payload.values ≠ none := by
  have hmember : ∀ g ∈ groupByIsbn (committable rows), ∀ m ∈ g.members,
      m.row ∈ rows ∧ m.row.payload.values = some m.values := fun g hg m hm =>
    ⟨(mem_committable.mp ((mem_group hg).mp hm).1).1, ((mem_group hg).mp hm).2.1⟩
  constructor
  · intro c hc
    rw [assessLibraryImportCommit, toPlan, List.mem_mergeSort] at hc
    obtain ⟨g, hg, hc⟩ := List.mem_flatMap.mp hc
    unfold IsbnGroup.copies at hc
    split at hc
    · cases hc
    · obtain ⟨m, hm, rfl⟩ := List.mem_map.mp hc
      exact ⟨m.row, (hmember g hg m hm).1, rfl, (hmember g hg m hm).2⟩
  · intro c hc n hn
    obtain ⟨g, hg, hchain⟩ := List.mem_filterMap.mp hc
    have hnumbers : c.rowNumbers = g.rowNumbers := by
      unfold IsbnGroup.chain? at hchain
      split at hchain
      · cases hchain
        rfl
      · cases hchain
    rw [hnumbers] at hn
    obtain ⟨m, hm, rfl⟩ := List.mem_map.mp hn
    exact ⟨m.row, (hmember g hg m hm).1, rfl, by simp [(hmember g hg m hm).2]⟩

theorem leftOut_of_error {rows : List LibraryImportRowRecord} (hread : RowsRead env rows)
    (hcompared : DuplicatesCompared rows) {row : LibraryImportRowRecord} (hrow : row ∈ rows)
    {column : LibraryImportColumn} (herror : libraryImportFieldError column ∈ row.payload.errors) :
    LeftOut rows row := by
  have hfield : fieldErrorsOf row.payload.errors ≠ [] :=
    List.ne_nil_of_mem (List.mem_filter.mpr ⟨herror, by simp [LibraryImportRowError.isField]⟩)
  have hvalues : row.payload.values = none := by
    have h : row.payload.values = rowValues env row.payload.cells row.payload.rejectedCells :=
      (hread.read row hrow).values
    rw [h, rowValues_eq_none_iff]
    have hfieldErrors : fieldErrorsOf row.payload.errors =
        rowErrors env row.payload.cells row.payload.rejectedCells :=
      (hread.read row hrow).fieldErrors
    rwa [← hfieldErrors]
  have hsame : ∀ r ∈ rows, r.rowNumber = row.rowNumber → r = row := fun r hr hn =>
    List.inj_on_of_nodup_map hread.numbers hr hrow hn
  have hcoherent := ((libraryImportRowRecordSchema_eq_some env).mp
    (hread.accepted row hrow)).2.2.2.2.2
  refine ⟨hcoherent.without_values hvalues, hvalues, fun c hc hn => ?_, fun c hc hn => ?_,
    fun first hfirst => hfield (hcompared row hrow first hfirst).1, fun r hr hrepeated => ?_⟩
  · obtain ⟨r, hr, hrn, hrvalues⟩ := mem_plan.1 c hc
    rw [hsame r hr (hrn.trans hn), hvalues] at hrvalues
    cases hrvalues
  · obtain ⟨r, hr, hrn, hrvalues⟩ := mem_plan.2 c hc _ hn
    exact hrvalues (hsame r hr hrn ▸ hvalues)
  · obtain ⟨-, r', hr', hr'n, hr'field⟩ := hcompared r hr _ hrepeated
    exact hfield (hsame r' hr' hr'n ▸ hr'field)

/-! ## Every run -/

/-- The row of a file is stored with its cells and its rejections. -/
theorem previewed_row {call : Nat} {file : ParsedFile env} {view : CatalogView}
    {fetched : String → Option BatchLookupRowOutcome} {rows : List LibraryImportRowRecord}
    (h : validateRows env (previewRows env call file view fetched) = .ok rows)
    {parsed : LibraryImportParsedRow} (hparsed : parsed ∈ file.rows) :
    ∃ row ∈ rows, row.rowNumber = parsed.rowNumber ∧ row.payload.cells = parsed.cells ∧
      row.payload.rejectedCells = parsed.rejectedCells := by
  obtain ⟨row, hrow, haccepted⟩ := (recordOf_of_written h).2 (toDraftInput parsed)
    (List.mem_map_of_mem hparsed)
  have hof := inputOf_recordOf ((file.rows_spec env).2 parsed hparsed).1.input
    (fun _ _ hr _ he => isField_resolve env hr he) (fun _ _ hr => resolve_status hr) haccepted
  exact ⟨row, hrow, hof.rowNumber, hof.cells, hof.rejectedCells⟩

/-- **Rejected cells stay rejected.** What a file is refused is an error of the new draft; an error
stays through every sequence of actions that give the cell no text; and a row that has one is left
out. -/
theorem rejected_cells_stay_rejected (env : ImportEnv) :
    (∀ (call : Nat) (file : ParsedFile env) (view : CatalogView)
      (fetched : String → Option BatchLookupRowOutcome) (d : Draft),
      Draft.preview env call file view fetched = .ok d → ∀ parsed ∈ file.rows, ∀ column,
      parsed.rejectedCells column ≠ none ∨ rejectsCell env column (parsed.cells column) = true →
      ∃ row ∈ d.rows, row.rowNumber = parsed.rowNumber ∧
        libraryImportFieldError column ∈ row.payload.errors) ∧
    (∀ d, (draftMachine env).Reachable d → ∀ row ∈ d.rows, ∀ column,
      libraryImportFieldError column ∈ row.payload.errors →
      ∀ d', ((draftMachine env).restrict (LeavesCell row.rowNumber column)).Leads d d' →
      ∃ row' ∈ d'.rows, row'.rowNumber = row.rowNumber ∧
        libraryImportFieldError column ∈ row'.payload.errors) ∧
    ∀ d, (draftMachine env).Reachable d → ∀ row ∈ d.rows, ∀ column,
      libraryImportFieldError column ∈ row.payload.errors → LeftOut d.rows row := by
  refine ⟨?_, ?_, ?_⟩
  · intro call file view fetched d hd parsed hparsed column hrejected
    obtain ⟨row, hrow, hnumber, hcells, hrejections⟩ :=
      previewed_row (Draft.preview_eq_ok.mp hd).1 hparsed
    have hread := Draft.Previewed.rowsRead ⟨call, file, view, fetched, hd⟩
    refine ⟨row, hrow, hnumber, (error_iff_rejects (hread.read row hrow)).mpr ?_⟩
    rwa [LibraryImportRowRecord.Rejects, hcells, hrejections]
  · intro d hr row hrow column herror d' hlead
    have hrejects := (error_iff_rejects ((rowsRead hr).read row hrow)).mp herror
    have hcell : d.HasCell row.rowNumber column (row.payload.cells column)
        (row.payload.rejectedCells column) := ⟨row, hrow, rfl, rfl, rfl⟩
    have hr' : (draftMachine env).Reachable d' := hr.leads hlead.of_restrict
    have hcell' : d'.HasCell row.rowNumber column (row.payload.cells column)
        (row.payload.rejectedCells column) := by
      clear hr'
      induction hlead with
      | refl => exact hcell
      | tail hlead hstep ih =>
        obtain ⟨op, hop, hleaves⟩ := hstep
        exact DraftStep.keepsCell hop (rowsRead (hr.leads (Machine.Leads.of_restrict hlead)))
          hleaves ih
    obtain ⟨row', hrow', hnumber, htext, hrejection⟩ := hcell'
    refine ⟨row', hrow', hnumber, (error_iff_rejects ((rowsRead hr').read row' hrow')).mpr ?_⟩
    rw [LibraryImportRowRecord.Rejects, htext, hrejection]
    exact hrejects
  · intro d hr row hrow column herror
    exact leftOut_of_error (rowsRead hr) (duplicatesCompared hr) hrow herror

end Bookswap
