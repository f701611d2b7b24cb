import Bookswap.Import.ImportCommit

/-!
# library-import.writer.ts

The writes of a commit: the chains of the plan and the copies of its rows, or nothing.

- `assertCatalogUnchanged`: the chosen works are still canonical and in the language of the file,
  and no edition has appeared for an ISBN of a new chain.
- `draftChain`, `ChainOf`: the rows of a chain, linked by drawn identifiers.
- `createChains`, `writeImport`, `WrittenImport`: the script, and what it writes.
-/

namespace Bookswap

open ReadCommitted

/-! ## The catalog as it is now -/

inductive ChainFault
  | workMerged | workLangMismatch
  deriving DecidableEq

/-- `chainFault` -/
def chainFault (chain : PlannedChain) (locked : WorkId → Option Work) : Option ChainFault :=
  match chain.workId with
  | none => none
  | some workId => match locked workId with
    | none => some .workMerged
    | some work =>
      if work.mergedIntoId ≠ none then some .workMerged
      else if work.origLang = none ∨ work.origLang = some chain.catalog.work.origLang then none
      else some .workLangMismatch

/-- The rows of the chains, in order. -/
def rowNumbersOf (chains : List PlannedChain) : List Nat :=
  (chains.flatMap PlannedChain.rowNumbers).mergeSort (· ≤ ·)

def faultyRows (fault : ChainFault) (locked : WorkId → Option Work) (chains : List PlannedChain) :
    List Nat :=
  rowNumbersOf (chains.filter fun chain => chainFault chain locked = some fault)

/-- `lockChosenWorks` -/
def lockChosenWorks (chains : List PlannedChain) : ImportScript (WorkId → Option Work) := do
  let workIds := (chains.filterMap PlannedChain.workId).dedup.mergeSort (· ≤ ·)
  (workIds.map ImportLock.work).forM fun n => .acquire n
  .select fun db workId => (db.catalog.work? workId).filter fun w => w.id ∈ workIds

/-- `assertCatalogUnchanged` -/
def assertCatalogUnchanged (plan : LibraryImportCommitPlan) : ImportScript Unit := do
  let locked ← lockChosenWorks plan.chains
  let merged := faultyRows .workMerged locked plan.chains
  if merged ≠ [] then .throw (.notReady (.workMerged merged))
  else
    let mismatched := faultyRows .workLangMismatch locked plan.chains
    if mismatched ≠ [] then .throw (.notReady (.workLangMismatch mismatched))
    else
      let appeared ← .select fun db => rowNumbersOf (plan.chains.filter fun chain =>
        (db.catalog.editionByIsbn? chain.isbn13).isSome)
      if appeared ≠ [] then .throw (.notReady (.editionAppeared appeared))

/-! ## Chains -/

structure WorkDraft where
  work : Work
  /-- By position. -/
  authors : List (Author × WorkAuthor)

structure ChainDraft where
  isbn13 : String
  newWork : Option WorkDraft
  translation : Option Translation
  edition : Edition

variable (env : ImportEnv)

def draftAuthor (workId : WorkId) (x : String × Nat) : ImportScript (Author × WorkAuthor) := do
  let authorId ← .draw
  return (⟨authorId, x.1, env.bookswapNorm x.1, none⟩, ⟨workId, authorId, .author, x.2⟩)

def draftWork (ownerId : UserId) (catalog : LibraryImportResolvedWork) : ImportScript WorkDraft := do
  let workId ← .draw
  let authors ← catalog.authors.zipIdx.mapM (draftAuthor env workId)
  return {
    work :=
      { id := workId
        title := catalog.title
        titleNorm := env.bookswapNorm catalog.title
        origLang := some catalog.origLang
        firstPubYear := catalog.firstPubYear
        description := none
        createdById := ownerId
        mergedIntoId := none }
    authors }

def draftTranslation (ownerId : UserId) (workId : WorkId) :
    Option LibraryImportResolvedTranslation → ImportScript (Option Translation)
  | none => return none
  | some t => do
    let translationId ← .draw
    return some
      { id := translationId
        workId := workId
        translator := t.translator
        lang := t.lang
        sourceLang := t.sourceLang
        year := t.year
        isAbridged := t.isAbridged
        hasNotes := t.hasNotes
        notes := t.notes
        createdById := ownerId }

/-- The work of a chain: the chosen one, or a new one. -/
def chainWork (ownerId : UserId) (chain : PlannedChain) :
    ImportScript (WorkId × Option WorkDraft) :=
  match chain.workId with
  | some workId => return (workId, none)
  | none => do
    let draft ← draftWork env ownerId chain.catalog.work
    return (draft.work.id, some draft)

def draftChain (ownerId : UserId) (chain : PlannedChain) : ImportScript ChainDraft := do
  let work ← chainWork env ownerId chain
  let translation ← draftTranslation ownerId work.1 chain.catalog.translation
  let editionId ← .draw
  return {
    isbn13 := chain.isbn13
    newWork := work.2
    translation
    edition :=
      { id := editionId
        workId := work.1
        translationId := translation.map Translation.id
        textKind := if chain.catalog.translation = none then .original else .translation
        lang := some ((chain.catalog.translation.map LibraryImportResolvedTranslation.lang).getD
          chain.catalog.work.origLang)
        publisher := chain.catalog.edition.publisher
        year := chain.catalog.edition.year
        isbn13 := some chain.catalog.edition.isbn13
        pageCount := chain.catalog.edition.pageCount
        coverUrl := chain.catalog.edition.coverUrl
        format := some chain.catalog.edition.format
        createdById := ownerId } }

/-- The rows of the chains, in the order of the statements. -/
def chainWrites (drafts : List ChainDraft) : List CatalogWrite :=
  let works := drafts.filterMap ChainDraft.newWork
  let authors := works.flatMap WorkDraft.authors
  authors.map (fun x => .author x.1) ++ works.map (fun d => .work d.work) ++
    authors.map (fun x => .workAuthor x.2) ++
    (drafts.filterMap ChainDraft.translation).map .translation ++
    drafts.map fun d => .edition d.edition

/-! ## Copies -/

/-- The edition that the copies of a row go on. -/
def editionOf (drafts : List ChainDraft) : PlannedTarget → Option EditionId
  | .existing editionId => some editionId
  | .chain isbn13 => (drafts.find? fun d => d.isbn13 = isbn13).map fun d => d.edition.id

def draftCopy (now : Time) (ownerId : UserId) (editionId : EditionId)
    (values : LibraryImportRowValues) : ImportScript Copy := do
  let id ← .draw
  return {
    id
    editionId := editionId
    ownerId := ownerId
    currentHolderId := some ownerId
    heldByContactId := none
    archivedAt := none
    status := .available
    visibility := values.visibility
    condition := values.condition
    note := values.note
    acquiredAt := values.acquiredAt.map toHandedDate
    createdAt := now }

/-- The copies of a row: as many as its quantity. -/
def draftCopies (now : Time) (ownerId : UserId) (drafts : List ChainDraft) (copy : PlannedCopy) :
    ImportScript (List Copy) :=
  match editionOf drafts copy.target with
  | none => .throw (.internal "Commit plan referenced an edition it never created")
  | some editionId => (List.replicate copy.quantity copy.values).mapM (draftCopy now ownerId editionId)

/-- The rows of a commit, in the order of the statements. -/
def importWrites (drafts : List ChainDraft) (copies : List (List Copy)) : List ImportWrite :=
  (chainWrites drafts ++ copies.flatten.map CatalogWrite.copy).map .catalog

/-- `write`: the copies that were created, row by row. -/
def writeImport (now : Time) (ownerId : UserId) (plan : LibraryImportCommitPlan) :
    ImportScript (List (List Copy)) := do
  assertCatalogUnchanged plan
  let drafts ← plan.chains.mapM (draftChain env ownerId)
  let copies ← plan.copies.mapM (draftCopies now ownerId drafts)
  (importWrites drafts copies).forM fun x => .insert x
  return copies

/-! ## What is written -/

/-- The authors of a new work, in the order of the file. -/
structure WorkOf (ownerId : UserId) (catalog : LibraryImportResolvedWork) (d : WorkDraft) : Prop where
  title : d.work.title = catalog.title
  origLang : d.work.origLang = some catalog.origLang
  createdById : d.work.createdById = ownerId
  canonical : d.work.mergedIntoId = none
  names : d.authors.map (fun x => x.1.name) = catalog.authors
  links : ∀ x ∈ d.authors, x.2.workId = d.work.id ∧ x.2.authorId = x.1.id

/-- One chain of the plan: one edition, and a new work if none was chosen. -/
structure ChainOf (ownerId : UserId) (chain : PlannedChain) (d : ChainDraft) : Prop where
  isbn13 : d.isbn13 = chain.isbn13
  edition : d.edition.isbn13 = some chain.catalog.edition.isbn13 ∧ d.edition.createdById = ownerId
  chosen : ∀ workId, chain.workId = some workId → d.newWork = none ∧ d.edition.workId = workId
  created : chain.workId = none →
    ∃ w, d.newWork = some w ∧ WorkOf ownerId chain.catalog.work w ∧ d.edition.workId = w.work.id
  translation : ∀ t, d.translation = some t →
    t.workId = d.edition.workId ∧ d.edition.translationId = some t.id

/-- The copies of a row. -/
structure CopiesOf (now : Time) (ownerId : UserId) (drafts : List ChainDraft) (copy : PlannedCopy)
    (copies : List Copy) : Prop where
  quantity : copies.length = copy.quantity
  each : ∀ c ∈ copies, editionOf drafts copy.target = some c.editionId ∧ c.ownerId = ownerId ∧
    c.currentHolderId = some ownerId ∧ c.condition = copy.values.condition ∧
    c.visibility = copy.values.visibility ∧ c.note = copy.values.note ∧
    c.acquiredAt = copy.values.acquiredAt.map toHandedDate ∧ c.status = .available ∧
    c.archivedAt = none ∧ c.createdAt = now

/-- What a commit adds to the catalog for its plan. -/
structure WrittenImport (now : Time) (ownerId : UserId) (plan : LibraryImportCommitPlan)
    (drafts : List ChainDraft) (copies : List (List Copy)) : Prop where
  chains : List.Forall₂ (ChainOf ownerId) plan.chains drafts
  copies : List.Forall₂ (CopiesOf now ownerId drafts) plan.copies copies

/-- What is on the right of a relation has something on the left. -/
theorem exists_of_forall₂ {α β : Type} {R : α → β → Prop} {l : List α} {m : List β}
    (h : List.Forall₂ R l m) (b : β) (hb : b ∈ m) : ∃ a ∈ l, R a b := by
  induction h with
  | nil => cases hb
  | cons hR _ ih =>
    rcases List.mem_cons.mp hb with rfl | hb
    · exact ⟨_, List.mem_cons_self, hR⟩
    · obtain ⟨a, ha, hab⟩ := ih hb
      exact ⟨a, List.mem_cons_of_mem _ ha, hab⟩

theorem forall_of_forall₂ {α β : Type} {R : α → β → Prop} {P : β → Prop} {l : List α} {m : List β}
    (h : List.Forall₂ R l m) (hP : ∀ a b, R a b → P b) (b : β) (hb : b ∈ m) : P b := by
  obtain ⟨a, -, hab⟩ := exists_of_forall₂ h b hb
  exact hP a b hab

section Drafts

variable {env} {E : ImportFailure → Prop}

theorem draws_draftWork (ownerId : UserId) (catalog : LibraryImportResolvedWork) :
    (draftWork env ownerId catalog).Draws E (WorkOf ownerId catalog) := by
  refine fun workId => ?_
  have hauthors : (catalog.authors.zipIdx.mapM (draftAuthor env workId)).Draws E
      fun xs => List.Forall₂ (fun x y => y.1.name = x.1 ∧ y.2.workId = workId ∧
        y.2.authorId = y.1.id) catalog.authors.zipIdx xs :=
    Script.Draws.mapM fun x _ _ => ⟨rfl, rfl, rfl⟩
  refine hauthors.bind fun xs hxs => ⟨rfl, rfl, rfl, rfl, ?_, fun x hx => ?_⟩
  · have hnames : xs.map (fun x => x.1.name) = catalog.authors.zipIdx.map Prod.fst := by
      clear hauthors
      generalize catalog.authors.zipIdx = l at hxs
      induction hxs with
      | nil => rfl
      | cons h _ ih => rw [List.map_cons, List.map_cons, h.1, ih]
    rw [hnames]
    exact List.zipIdx_map_fst 0 catalog.authors
  · exact forall_of_forall₂ hxs (fun _ _ h => h.2) x hx

theorem draws_draftChain (ownerId : UserId) (chain : PlannedChain) :
    (draftChain env ownerId chain).Draws E (ChainOf ownerId chain) := by
  have hwork : (chainWork env ownerId chain).Draws E fun x =>
      (∀ workId, chain.workId = some workId → x.2 = none ∧ x.1 = workId) ∧
      (chain.workId = none → ∃ w, x.2 = some w ∧ WorkOf ownerId chain.catalog.work w ∧
        x.1 = w.work.id) := by
    unfold chainWork
    split
    · next workId hchosen =>
      refine ⟨fun w hw => ?_, fun hnone => ?_⟩
      · rw [hchosen] at hw
        cases hw
        exact ⟨rfl, rfl⟩
      · rw [hchosen] at hnone
        cases hnone
    · next hnone =>
      refine (draws_draftWork ownerId _).bind fun w hw => ⟨fun workId hsome => ?_, fun _ =>
        ⟨w, rfl, hw, rfl⟩⟩
      rw [hnone] at hsome
      cases hsome
  refine hwork.bind fun x hx => ?_
  have htranslation : (draftTranslation ownerId x.1 chain.catalog.translation).Draws E
      fun t? => ∀ t, t? = some t → t.workId = x.1 := by
    cases chain.catalog.translation with
    | none => exact fun t ht => nomatch ht
    | some t =>
      refine fun id t' ht' => ?_
      cases ht'
      rfl
  refine htranslation.bind fun t? ht? editionId => ?_
  refine ⟨rfl, ⟨rfl, rfl⟩, hx.1, hx.2, fun t ht => ⟨ht? t ht, ?_⟩⟩
  show t?.map Translation.id = some t.id
  rw [show t? = some t from ht]
  rfl

theorem draws_draftCopies (now : Time) (ownerId : UserId) (drafts : List ChainDraft)
    (copy : PlannedCopy) (hE : ∀ message, E (.internal message)) :
    (draftCopies now ownerId drafts copy).Draws E (CopiesOf now ownerId drafts copy) := by
  unfold draftCopies
  split
  · exact hE _
  · next editionId hedition =>
    have hcopies : ((List.replicate copy.quantity copy.values).mapM
        (draftCopy now ownerId editionId)).Draws E fun cs => List.Forall₂ (fun v c =>
          editionOf drafts copy.target = some c.editionId ∧ c.ownerId = ownerId ∧
          c.currentHolderId = some ownerId ∧ c.condition = v.condition ∧
          c.visibility = v.visibility ∧ c.note = v.note ∧
          c.acquiredAt = v.acquiredAt.map toHandedDate ∧ c.status = .available ∧
          c.archivedAt = none ∧ c.createdAt = now) (List.replicate copy.quantity copy.values) cs :=
      Script.Draws.mapM fun v _ id => ⟨hedition, rfl, rfl, rfl, rfl, rfl, rfl, rfl, rfl, rfl⟩
    refine hcopies.mono fun cs hcs => ⟨?_, fun c hc => ?_⟩
    · rw [← hcs.length_eq, List.length_replicate]
    · obtain ⟨v, hv, hvc⟩ := exists_of_forall₂ hcs c hc
      rwa [(List.mem_replicate.mp hv).2] at hvc

end Drafts

end Bookswap
