import Bookswap.Import.DraftRuns

/-!
# Whose choice a new work is

A row of a draft that is ready to create a new work holds `workId: null`. The same `null` says that
there was nothing to choose from, and that the owner has chosen "a new one"; the next rebuild takes
either for a choice.

- `NewWorkChosen`: the property, that a new work was asked for or nothing is like it.
- `resolved_input`: what the resolution of a row has read.
- `CarriesNoGuess`, `DraftStep.newWorkChosen`: a rebuild that keeps the property.
-/

namespace Bookswap

variable {env : ImportEnv} {d d' : Draft} {op : DraftOp}

/-- A row that is ready to create a new work was asked to, or there was nothing to choose from. -/
def NewWorkChosen (d : Draft) : Prop :=
  ∀ row ∈ d.rows, ∀ catalog, row.payload.resolution = some (.createChain none catalog) →
    d.choseNew row.rowNumber = true ∨ d.candidates row.rowNumber = []

/-! ## What a resolution has read -/

/-- The input is compared and resolved, with the choice of its number. -/
theorem resolved_input {inputs : List RowDraftInput} {chosen : Nat → Option (Option WorkId)}
    {view : CatalogView} {fetched : String → Option BatchLookupRowOutcome} {n : Nat}
    {resolved : ResolvedRow} (hnumbers : (inputs.map RowDraftInput.rowNumber).Nodup)
    {input : RowDraftInput} (hinput : input ∈ inputs) (hn : input.rowNumber = n)
    (h : LibraryImportResolver.resolve env view fetched (toResolvable inputs chosen) n =
      some resolved) :
    ∃ values, input.comparable = some values ∧
      resolved = resolveRow env view fetched ⟨n, values, chosen n⟩ := by
  obtain ⟨row, hfind, rfl⟩ := Option.map_eq_some_iff.mp h
  have hrow := List.mem_of_find?_eq_some hfind
  have hrown : row.rowNumber = n := by simpa using List.find?_some hfind
  obtain ⟨input', hinput', heq⟩ := List.mem_filterMap.mp hrow
  obtain ⟨values, hvalues, rfl⟩ := Option.map_eq_some_iff.mp heq
  have hsame : input' = input :=
    List.inj_on_of_nodup_map hnumbers hinput' hinput (hrown.trans hn.symm)
  subst hsame
  subst hn
  exact ⟨values, hvalues, rfl⟩

/-- The stored work of a chain is the one that the row was resolved with. -/
theorem accepted_createChain {built row : LibraryImportRowRecord} {workId : Option WorkId}
    {catalog : LibraryImportResolvedCatalog}
    (h : libraryImportRowRecordSchema env built = some row)
    (hrow : row.payload.resolution = some (.createChain workId catalog)) :
    ∃ catalog', built.payload.resolution = some (.createChain workId catalog') := by
  obtain ⟨hparse, -⟩ := (libraryImportRowRecordSchema_eq_some env).mp h
  obtain ⟨-, hresolution, -⟩ := (LibraryImportRowPayload.parse_eq_some env).mp hparse
  rw [hrow] at hresolution
  cases hbuilt : built.payload.resolution with
  | none =>
    rw [hbuilt] at hresolution
    cases hresolution
  | some resolution =>
    rw [hbuilt] at hresolution
    cases resolution with
    | existingEdition editionId id =>
      cases hresolution
    | createChain id catalog' =>
      simp only [Normalizing.optional, libraryImportRowResolutionSchema, Option.map_map,
        Option.map_eq_some_iff, Function.comp_apply, Option.some.injEq,
        LibraryImportRowResolution.createChain.injEq] at hresolution
      obtain ⟨-, -, rfl, -⟩ := hresolution
      exact ⟨catalog', rfl⟩

/-- A record with a chain is one that was resolved to it. -/
theorem toRowRecord_createChain {call : Nat} {input : RowDraftInput} {duplicate : Option Nat}
    {resolved : Option ResolvedRow} {resolution : LibraryImportRowResolution}
    (h : (toRowRecord env call input duplicate resolved).payload.resolution = some resolution) :
    duplicate = none ∧ ∃ r, resolved = some r ∧ r.resolution = some resolution := by
  rcases @toRowRecord_cases env call input duplicate resolved with
    ⟨-, hrecord⟩ | ⟨-, -, hrecord⟩ | ⟨-, -, hduplicate, -, hrecord⟩
  · rw [hrecord] at h
    cases h
  · rw [hrecord] at h
    cases h
  · rw [hrecord] at h
    cases resolved with
    | none => cases h
    | some r => exact ⟨hduplicate, r, rfl, h⟩

/-- **A new work is the choice that was read, or the only possibility.** -/
theorem resolveRow_newWork {view : CatalogView} {fetched : String → Option BatchLookupRowOutcome}
    {row : ResolvableRow} {catalog : LibraryImportResolvedCatalog}
    (h : (resolveRow env view fetched row).resolution = some (.createChain none catalog)) :
    findLocalEdition view.editions row.values.isbn13 = none ∧
    buildResolvedCatalog env row.values (foundOf (outcomeOf view fetched row.values.isbn13)) =
      .complete catalog ∧
    (resolveRow env view fetched row).candidates = view.candidates env catalog.work.title ∧
    (row.chosenWorkId = some none ∨ view.candidates env catalog.work.title = []) := by
  rcases resolveRow_cases env view fetched row with
    ⟨edition, -, hrow⟩ | ⟨-, columns, error, -, hrow⟩ | ⟨hedition, found, hfound, hrow⟩
  · rw [hrow] at h
    cases h
  · rw [hrow] at h
    cases h
  · rcases settle_cases row.chosenWorkId found (view.candidates env found.work.title) with
      ⟨workId, hsettle, hchosen, -⟩ | ⟨-, hsettle⟩
    · rw [hrow, hsettle] at h
      cases h
      rw [hrow, hsettle]
      exact ⟨hedition, hfound, rfl, hchosen.imp_right And.right⟩
    · rw [hrow, hsettle] at h
      cases h

/-! ## A rebuild that guesses nothing -/

/-- The row is compared, it has no edition yet, its chain is complete, and there are works like
it. -/
def RowDraftInput.MeetsSimilarWork (env : ImportEnv) (inputs : List RowDraftInput)
    (op : PatchOp) (input : RowDraftInput) : Prop :=
  ∃ values catalog, input.comparable = some values ∧
    duplicateErrors inputs input.rowNumber = none ∧
    findLocalEdition op.view.editions values.isbn13 = none ∧
    buildResolvedCatalog env values (foundOf (outcomeOf op.view op.fetched values.isbn13)) =
      .complete catalog ∧
    op.view.candidates env catalog.work.title ≠ []

/-- The stored row is to be a new work, which its owner has not asked for since its identifying
fields last changed, and does not ask for now. -/
structure Guessed (env : ImportEnv) (d : Draft) (op : PatchOp) (row : LibraryImportRowRecord) :
    Prop where
  carried : carriedChoice env op.rowNumber op.request.action row = some none
  not_asked : ¬ (d.choseNew row.rowNumber = true ∧
    row.payload.values.map LibraryImportRowValues.identifying =
      (rebuildInput env op.rowNumber op.request.action row).values.map
        LibraryImportRowValues.identifying)
  not_now : ∀ workId, op.request.action = .choose workId → op.rowNumber ≠ row.rowNumber

/-- The rebuild finds no work that is similar to a row whose new work is a guess. -/
def CarriesNoGuess (env : ImportEnv) (d : Draft) (op : DraftOp) (_ : Draft) : Prop :=
  ∀ p, op = .patch p → ∀ row ∈ d.rows, Guessed env d p row →
    ¬ (rebuildInput env p.rowNumber p.request.action row).MeetsSimilarWork env
      (d.rows.map (rebuildInput env p.rowNumber p.request.action)) p

theorem identifyingFields_of_mem {rows : List LibraryImportRowRecord}
    (hnumbers : (rows.map LibraryImportRowRecord.rowNumber).Nodup) {row : LibraryImportRowRecord}
    (hrow : row ∈ rows) : identifyingFields rows row.rowNumber =
      row.payload.values.map LibraryImportRowValues.identifying := by
  have hfind : (rows.find? fun r => r.rowNumber = row.rowNumber) = some row := by
    refine List.find?_eq_some_iff_append.mpr ⟨by simp, ?_⟩
    obtain ⟨l₁, l₂, rfl⟩ := List.append_of_mem hrow
    refine ⟨l₁, l₂, rfl, fun r hr => ?_⟩
    rw [List.map_append, List.map_cons, List.nodup_append] at hnumbers
    simpa using hnumbers.2.2 _ (List.mem_map_of_mem hr) _ List.mem_cons_self
  rw [identifyingFields, hfind]
  rfl

/-- A choice in a rebuild is the one of the action, or it is carried over. -/
theorem choiceOf_eq_some {rows : List LibraryImportRowRecord} {rowNumber n : Nat}
    {action : RowAction} {workId : Option WorkId}
    (h : choiceOf env rows rowNumber action n = some workId) :
    (action = .choose workId ∧ n = rowNumber) ∨
      ((∀ w, action = .choose w → rowNumber ≠ n) ∧ ∃ row ∈ rows, row.rowNumber = n ∧
        carriedChoice env rowNumber action row = some workId) := by
  have hcarried : ((rows.find? fun row => row.rowNumber = n).bind
      (carriedChoice env rowNumber action)) = some workId → ∃ row ∈ rows, row.rowNumber = n ∧
        carriedChoice env rowNumber action row = some workId := by
    intro hbind
    obtain ⟨row, hfind, hrow⟩ := Option.bind_eq_some_iff.mp hbind
    exact ⟨row, List.mem_of_find?_eq_some hfind, by simpa using List.find?_some hfind, hrow⟩
  cases action with
  | choose w =>
    simp only [choiceOf] at h
    split at h
    · next heq =>
      cases h
      exact .inl ⟨rfl, heq⟩
    · next hne => exact .inr ⟨fun _ _ heq => hne heq.symm, hcarried h⟩
  | edit | skip | restore | retry => exact .inr ⟨nofun, hcarried h⟩

/-- **One action that guesses nothing keeps the property.** -/
theorem DraftStep.newWorkChosen {op : PatchOp} (h : DraftStep env d (.patch op) d')
    (hd : RowsRead env d.rows) (hop : CarriesNoGuess env d (.patch op) d') : NewWorkChosen d' := by
  intro row' hrow' catalog hresolution
  obtain ⟨hafter, -, hwritten⟩ := h.rebuilt
  obtain ⟨input, hinput, haccepted⟩ := (recordOf_of_written hwritten).1 row' hrow'
  obtain ⟨row, hrow, rfl⟩ := List.mem_map.mp hinput
  have hof := inputOf_recordOf (rebuildInput_read (hd.read row hrow) op.rowNumber op.request.action)
    (fun _ _ hr _ he => isField_resolve env hr he) (fun _ _ hr => resolve_status hr) haccepted
  have hnumber : row'.rowNumber = row.rowNumber := by rw [hof.rowNumber, rebuildInput_rowNumber]
  -- the row was resolved to the chain, with what its number has chosen
  obtain ⟨catalog', hbuilt⟩ := accepted_createChain haccepted hresolution
  obtain ⟨hduplicate, r, hr, hchain⟩ := toRowRecord_createChain hbuilt
  obtain ⟨values, hcomparable, rfl⟩ := resolved_input (numbers_of_written hwritten).2 hinput rfl hr
  obtain ⟨hedition, hcomplete, hcandidates, hchoice⟩ := resolveRow_newWork hchain
  have hstored : d'.candidates row'.rowNumber = op.view.candidates env catalog'.work.title := by
    rw [hafter]
    show candidatesOf (rebuildResolved env d.rows op.rowNumber op.request.action op.view
      op.fetched) row'.rowNumber = _
    rw [hof.rowNumber, candidatesOf, hr, Option.elim_some, hcandidates]
  refine hchoice.elim (fun hchoice => ?_) fun hnil => .inr (hstored.trans hnil)
  rcases choiceOf_eq_some hchoice with ⟨haction, hn⟩ | ⟨hnot, row₀, hrow₀, hn₀, hcarried⟩
  · -- the owner asks for it now
    refine .inl ?_
    rw [hafter]
    show (op.choosesNew row'.rowNumber || _) = true
    have hasks : op.choosesNew row'.rowNumber = true := by
      rw [PatchOp.choosesNew, haction]
      exact decide_eq_true (hof.rowNumber.trans hn)
    rw [hasks, Bool.true_or]
  · -- the choice is carried over: it was asked for, or there is nothing similar
    rw [rebuildInput_rowNumber] at hn₀
    have hsame : row₀ = row := List.inj_on_of_nodup_map hd.numbers hrow₀ hrow hn₀
    subst hsame
    by_cases hasked : d.choseNew row₀.rowNumber = true ∧
        row₀.payload.values.map LibraryImportRowValues.identifying =
          (rebuildInput env op.rowNumber op.request.action row₀).values.map
            LibraryImportRowValues.identifying
    · refine .inl ?_
      have hnumbers' := ((validateRows_eq_ok env).mp hwritten).2
      have hfields : identifyingFields d.rows row'.rowNumber =
          identifyingFields d'.rows row'.rowNumber := by
        rw [identifyingFields_of_mem hnumbers' hrow', hnumber,
          identifyingFields_of_mem hd.numbers hrow₀, hof.values]
        exact hasked.2
      rw [hafter]
      show (_ || d.choseNew row'.rowNumber && decide (identifyingFields d.rows row'.rowNumber =
        identifyingFields d'.rows row'.rowNumber)) = true
      rw [hfields, hnumber, hasked.1, decide_eq_true rfl, Bool.true_and, Bool.or_true]
    · refine .inr (hstored.trans (not_not.mp fun hne => ?_))
      have hguessed : Guessed env d op row₀ :=
        ⟨hcarried, hasked, fun w hw => by simpa using hnot w hw⟩
      exact hop op rfl row₀ hrow₀ hguessed
        ⟨values, catalog', hcomparable, hduplicate, hedition, hcomplete, hne⟩

/-- The rows of a file have chosen nothing. -/
theorem Draft.Previewed.newWorkChosen (h : d.Previewed env) : NewWorkChosen d := by
  intro row hrow catalog hresolution
  obtain ⟨call, file, view, fetched, hpreview⟩ := h
  obtain ⟨hwritten, hcandidates, -⟩ := Draft.preview_eq_ok.mp hpreview
  obtain ⟨input, hinput, haccepted⟩ := (recordOf_of_written hwritten).1 row hrow
  obtain ⟨catalog', hbuilt⟩ := accepted_createChain haccepted hresolution
  obtain ⟨-, r, hr, hchain⟩ := toRowRecord_createChain hbuilt
  obtain ⟨values, -, rfl⟩ := resolved_input (numbers_of_written hwritten).2 hinput rfl hr
  obtain ⟨-, -, hfound, hchoice⟩ := resolveRow_newWork hchain
  have hnumber : row.rowNumber = input.rowNumber :=
    (accepted_keeps haccepted).1.trans toRowRecord_keeps.1
  refine .inr ?_
  rw [hcandidates, candidatesOf, hnumber, hr, Option.elim_some, hfound]
  exact hchoice.resolve_left nofun

/-- **Implicit choices are not mistaken for the owner's**, in every run whose rebuilds find no work
that is similar to a row whose new work is a guess. -/
theorem new_work_is_chosen (env : ImportEnv) {d : Draft}
    (hr : ((draftMachine env).restrict (CarriesNoGuess env)).Reachable d)
    {row : LibraryImportRowRecord} (hrow : row ∈ d.rows) {catalog : LibraryImportResolvedCatalog}
    (hnew : row.payload.resolution = some (.createChain none catalog)) :
    d.choseNew row.rowNumber = true ∨ d.candidates row.rowNumber = [] := by
  have hchosen : NewWorkChosen d := by
    refine hr.invariant (I := NewWorkChosen) (fun d h => Draft.Previewed.newWorkChosen h) ?_
    intro d op d' hd _ hstep
    obtain ⟨hstep, hguess⟩ := hstep
    have hstep : DraftStep env d op d' := hstep
    cases op with
    | preview =>
      cases hstep with
      | preview hd' => exact hd'.newWorkChosen
    | patch op => exact hstep.newWorkChosen (rowsRead hd.of_restrict) hguess
  exact hchosen row hrow catalog hnew

/-! ## A guess that is carried over -/

section KobzarRun

def kobzarEnv : ImportEnv where
  isUrl _ := true
  bookswapNorm := id
  similar text term := text = term
  similarity text term := if text = term then 1000 else 0
  randomUUID call rowNumber := String.ofList (List.replicate (call + 1) 'v' ++ List.replicate rowNumber 'r')
  sha256 versions := String.intercalate "\n" (versions.map Prod.snd)

def kobzarCells : LibraryImportCells
  | .isbn13 => "9780306406157"
  | .title => "Kobzar"
  | .authors => "Taras Shevchenko"
  | .origLang => "uk"
  | _ => ""

def kobzarFile : ParsedFile kobzarEnv where
  sourceHash := String.ofList (List.replicate 64 'a')
  records := [kobzarCells]
  rejections _ _ := none
  digest := by decide +kernel
  some_rows := by decide
  few_rows := by decide
  cells := by
    intro cells hcells column
    cases List.mem_singleton.mp hcells
    cases column <;> decide +kernel
  few_copies := by decide +kernel

def emptyCatalog : CatalogDb := ⟨[], [], [], [], [], [], [], [], [], []⟩

/-- Somebody else has added the work. -/
def kobzarCatalog : CatalogDb :=
  { emptyCatalog with
    works := [⟨7, "Kobzar", "Kobzar", some "uk", none, none, 2, none⟩] }

def viewOf (db : CatalogDb) : CatalogView := ⟨db, fun _ => some .notFound, db, db⟩

def retry : PatchOp where
  call := 1
  rowNumber := 1
  request := ⟨"vr", .retry⟩
  view := viewOf kobzarCatalog
  fetched _ := some .notFound

/-- The row is to be a new work. -/
def LibraryImportRowRecord.newWork (row : LibraryImportRowRecord) : Bool :=
  match row.payload.resolution with
  | some (.createChain none _) => true
  | _ => false

def kobzarDraft : Except ImportFailure Draft :=
  Draft.preview kobzarEnv 0 kobzarFile (viewOf emptyCatalog) fun _ => some .notFound

/-- The call succeeds with such a result. -/
def isOkWith {ε α : Type} (x : Except ε α) (p : α → Bool) : Bool :=
  match x with
  | .ok a => p a
  | .error _ => false

theorem isOkWith_eq_true {ε α : Type} {x : Except ε α} {p : α → Bool} :
    isOkWith x p = true ↔ ∃ a, x = .ok a ∧ p a = true := by
  cases x <;> simp [isOkWith]

theorem LibraryImportRowRecord.resolution_of_newWork {row : LibraryImportRowRecord}
    (h : row.newWork = true) :
    ∃ catalog, row.payload.resolution = some (.createChain none catalog) := by
  unfold newWork at h
  split at h
  · next catalog hresolution => exact ⟨catalog, hresolution⟩
  · cases h

/-- Nothing was chosen, and nothing was there to choose from; then somebody adds the work, and the
row is retried: it is still ready to be a second one. -/
theorem guess_carried_over : ∃ (env : ImportEnv) (d : Draft), (draftMachine env).Reachable d ∧
    ∃ row ∈ d.rows, row.status = .readyCreateChain ∧
      (∃ catalog, row.payload.resolution = some (.createChain none catalog)) ∧
      ¬ (d.choseNew row.rowNumber = true ∨ d.candidates row.rowNumber = []) := by
  have hrun : isOkWith kobzarDraft (fun d => isOkWith (d.patch kobzarEnv retry) fun d' =>
      d'.rows.any fun row => decide (row.status = .readyCreateChain) && row.newWork &&
        !d'.choseNew row.rowNumber && !(d'.candidates row.rowNumber).isEmpty) = true := by
    decide +kernel
  obtain ⟨d, hd, hrun⟩ := isOkWith_eq_true.mp hrun
  obtain ⟨d', hd', hrun⟩ := isOkWith_eq_true.mp hrun
  obtain ⟨row, hrow, hbits⟩ := List.any_eq_true.mp hrun
  simp only [Bool.and_eq_true, decide_eq_true_eq, Bool.not_eq_true', List.isEmpty_eq_false_iff]
    at hbits
  obtain ⟨⟨⟨hstatus, hnew⟩, hchose⟩, hcandidates⟩ := hbits
  have hstart : (draftMachine kobzarEnv).Reachable d := .start ⟨_, _, _, _, hd⟩
  refine ⟨kobzarEnv, d', hstart.next (DraftStep.patch hd' : DraftStep kobzarEnv d (.patch retry) d'), row, hrow, hstatus,
    LibraryImportRowRecord.resolution_of_newWork hnew, ?_⟩
  rw [hchose]
  exact fun h => h.elim nofun hcandidates

/-- The row is retried, and there is still nothing like it. -/
def retryAlone : PatchOp := { retry with view := viewOf emptyCatalog }

theorem carriesNoGuess_retryAlone (d d' : Draft) :
    CarriesNoGuess kobzarEnv d (.patch retryAlone) d' := by
  intro p hp row _ _ hmeets
  cases hp
  obtain ⟨values, catalog, -, -, -, -, hne⟩ := hmeets
  refine hne ?_
  show (if kobzarEnv.bookswapNorm catalog.work.title = "" then [] else _) = _
  split
  · rfl
  · simp [rankCandidates, viewOf, retryAlone, emptyCatalog]

theorem new_work_is_chosen_kobzar : ∃ (d : Draft) (row : LibraryImportRowRecord)
    (catalog : LibraryImportResolvedCatalog),
    ((draftMachine kobzarEnv).restrict (CarriesNoGuess kobzarEnv)).Reachable d ∧ row ∈ d.rows ∧
      row.payload.resolution = some (.createChain none catalog) ∧
      (d.choseNew row.rowNumber = true ∨ d.candidates row.rowNumber = []) := by
  have hrun : isOkWith kobzarDraft (fun d => isOkWith (d.patch kobzarEnv retryAlone) fun d' =>
      d'.rows.any LibraryImportRowRecord.newWork) = true := by
    decide +kernel
  obtain ⟨d, hd, hrun⟩ := isOkWith_eq_true.mp hrun
  obtain ⟨d', hd', hrun⟩ := isOkWith_eq_true.mp hrun
  obtain ⟨row, hrow, hnew⟩ := List.any_eq_true.mp hrun
  obtain ⟨catalog, hresolution⟩ := LibraryImportRowRecord.resolution_of_newWork hnew
  have hstart : ((draftMachine kobzarEnv).restrict (CarriesNoGuess kobzarEnv)).Reachable d :=
    .start ⟨_, _, _, _, hd⟩
  have hstep : ((draftMachine kobzarEnv).restrict (CarriesNoGuess kobzarEnv)).step d
      (.patch retryAlone) d' := ⟨DraftStep.patch hd', carriesNoGuess_retryAlone d d'⟩
  have hreach := hstart.next hstep
  exact ⟨d', row, catalog, hreach, hrow, hresolution,
    new_work_is_chosen kobzarEnv hreach hrow hresolution⟩

end KobzarRun

end Bookswap
