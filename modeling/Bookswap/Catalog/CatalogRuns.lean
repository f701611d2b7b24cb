import Bookswap.Catalog.ImportCoherence
import Bookswap.Catalog.PatchCoherence
import Bookswap.Import.ImportService

/-!
# Runs of the catalog

Every operation that writes to the catalog, one after the other: each is one transaction, and all
but the first statement of `createTranslation` run under the lock of the work.

- `CatalogOp`, `CatalogOp.run`: the operations; `none` is a refusal, which rolls back.
- `catalogRuns`: the machine.
- `run_coherent`: no operation leaves an incoherent catalog.
-/

namespace Bookswap

open ReadCommitted

/-- An operation, with the identifiers that it draws. -/
inductive CatalogOp
  | createWork (userId : UserId) (work : NewWork) (ids : List Nat)
  /-- `seen` is what the check of the work has read. -/
  | createTranslation (seen : CatalogStore) (userId : UserId) (workId : WorkId)
      (request : QuickAddTranslation) (id : TranslationId)
  | createEdition (userId : UserId) (workId : WorkId) (request : CreateEditionRequest)
      (id : EditionId)
  | patchWork (userId : UserId) (workId : WorkId) (request : WorkPatchRequest)
      (newId : Nat → AuthorId)
  | patchTranslation (userId : UserId) (translationId : TranslationId)
      (request : TranslationPatchRequest)
  | patchEdition (userId : UserId) (editionId : EditionId) (request : EditionPatchRequest)
  | merge (sourceWorkId targetWorkId : WorkId) (now : Time)
  | quickAdd (now : Time) (userId : UserId) (request : QuickAddRequest)
      (prepared : PreparedExternal) (ids : List Nat)
  /-- The rows of the stored draft. -/
  | importCommit (now : Time) (ownerId : UserId) (rows : List LibraryImportRowRecord)
      (ids : List Nat)

/-- What the transactions get from outside; the sources and the clock are asked before them. -/
structure CatalogEnv where
  quickAdd : QuickAddEnv
  «import» : ImportEnv
  provider : Provider
  outside : ImportOutside

variable (env : CatalogEnv)

namespace CatalogStore

variable (s : CatalogStore)

/-- A script of quick-add, alone. -/
def commit {α : Type} (p : AddScript α) (ids : List Nat) : Option CatalogStore :=
  (p.alone catalogSchema s.db (fun _ => env.provider) ids []).map fun r =>
    { s with db := catalogSchema.view s.db r.2 }

/-- The writer of an import, alone. -/
def commitImport (now : Time) (ownerId : UserId) (plan : LibraryImportCommitPlan)
    (ids : List Nat) : Option CatalogStore :=
  let db : ImportDb := ⟨s.db, [], fun _ => []⟩
  ((writeImport env.import now ownerId plan).alone importSchema db (fun _ => env.outside) ids
    []).map fun r => { s with db := (importSchema.view db r.2).catalog }

end CatalogStore

/-- What the operation leaves, or that it is refused. -/
def CatalogOp.run (s : CatalogStore) : CatalogOp → Option CatalogStore
  | .createWork userId work ids => s.commit env (createWorkIn env.quickAdd userId work) ids
  | .createTranslation seen userId workId request id =>
    if s.db.taken (.translationId id) then none
    else (Bookswap.createTranslation seen s userId workId request id).toOption
  | .createEdition userId workId request id =>
    if s.db.taken (.editionId id) then none
    else (Bookswap.createEdition s userId workId request id).toOption
  | .patchWork userId workId request newId =>
    (Bookswap.patchWork env.quickAdd.bookswapNorm s userId workId request newId).toOption
  | .patchTranslation userId translationId request =>
    (Bookswap.patchTranslation s userId translationId request).toOption
  | .patchEdition userId editionId request =>
    (Bookswap.patchEdition s userId editionId request).toOption
  | .merge sourceWorkId targetWorkId now =>
    (Bookswap.merge s sourceWorkId targetWorkId now).toOption.map Prod.fst
  | .quickAdd now userId request prepared ids =>
    s.commit env (Bookswap.run env.quickAdd now userId request prepared) ids
  | .importCommit now ownerId rows ids =>
    s.commitImport env now ownerId (assessLibraryImportCommit rows).plan ids

/-- The authors that a patch names anew have identifiers of their own. -/
def CatalogOp.Fresh (s : CatalogStore) : CatalogOp → Prop
  | .patchWork _ _ _ newId => Function.Injective newId ∧ ∀ n, ∀ a ∈ s.db.authors, a.id ≠ newId n
  | _ => True

/-- An operation is committed, or refused. -/
inductive CatalogStep : CatalogStore → CatalogOp → CatalogStore → Prop
  | committed {s s' : CatalogStore} {op : CatalogOp} : op.Fresh s → op.run env s = some s' →
      CatalogStep s op s'
  | refused {s : CatalogStore} {op : CatalogOp} : op.run env s = none → CatalogStep s op s

/-- The machine of the catalog, which is empty at first. -/
def catalogRuns : Machine CatalogStore CatalogOp where
  init s := s.db.works = [] ∧ s.db.translations = [] ∧ s.db.editions = [] ∧ s.db.workAuthors = []
  step := CatalogStep env

/-! ## What an operation leaves -/

section Steps

variable {env} {s s' : CatalogStore}

theorem commit_eq_some {α : Type} {p : AddScript α} {ids : List Nat} {Q : α → CatalogDb → Prop}
    (hs : s.db.Coherent) (hp : Grows p Q) (h : s.commit env p ids = some s') :
    Extends s.db s'.db ∧ s' = { s with db := s'.db } := by
  obtain ⟨⟨a, ws⟩, halone, rfl⟩ := Option.map_eq_some_iff.mp h
  exact ⟨((hp s.db hs).of_alone halone).1, rfl⟩

/-- The chains of a plan have rows. -/
theorem rowNumbers_ne_nil {rows : List LibraryImportRowRecord} {chain : PlannedChain}
    (hchain : chain ∈ (assessLibraryImportCommit rows).plan.chains) : chain.rowNumbers ≠ [] := by
  obtain ⟨g, hg, hsome⟩ := List.mem_filterMap.mp hchain
  obtain ⟨-, -, hrows⟩ := chain?_eq_some.mp hsome
  rw [hrows]
  unfold IsbnGroup.rowNumbers
  rw [ne_eq, List.map_eq_nil_iff]
  exact members_nonempty hg

theorem commitImport_eq_some {now : Time} {ownerId : UserId} {rows : List LibraryImportRowRecord}
    {ids : List Nat} (hs : s.db.Coherent)
    (h : s.commitImport env now ownerId (assessLibraryImportCommit rows).plan ids = some s') :
    Extends s.db s'.db ∧ s' = { s with db := s'.db } := by
  obtain ⟨⟨a, ws⟩, halone, rfl⟩ := Option.map_eq_some_iff.mp h
  refine ⟨?_, rfl⟩
  have hdb : (importSchema.view ⟨s.db, [], fun _ => []⟩ []).catalog.Coherent := hs
  exact (writeImport_grows hdb fun chain hchain => rowNumbers_ne_nil hchain).of_alone halone

theorem createTranslation_extends {seen : CatalogStore} {userId : UserId} {workId : WorkId}
    {request : QuickAddTranslation} {id : TranslationId} (hs : s.db.Coherent)
    (hid : s.db.taken (.translationId id) = false)
    (h : createTranslation seen s userId workId request id = .ok s') :
    Extends s.db s'.db ∧ s' = { s with db := s'.db } := by
  obtain ⟨_, -, h⟩ := Checked.bind_eq_ok.mp h
  cases h
  refine ⟨(Extends.refl hs).translation fun key hkey => ?_, rfl⟩
  rw [List.mem_singleton.mp hkey]
  exact hid

theorem toOption_eq_some {ε α : Type} {x : Except ε α} {a : α} (h : x.toOption = some a) :
    x = .ok a := by
  cases x with
  | error e => cases h
  | ok b =>
    cases h
    rfl

/-- **Every operation keeps the catalog coherent.** -/
theorem run_coherent {op : CatalogOp} (hs : s.db.Coherent) (h : op.run env s = some s') :
    s'.db.Coherent := by
  cases op with
  | createWork userId work ids => exact (commit_eq_some hs createWorkIn_grows h).1.coherent
  | createTranslation seen userId workId request id =>
    simp only [CatalogOp.run] at h
    split at h
    · cases h
    · next hid =>
      exact (createTranslation_extends hs (Bool.eq_false_iff.mpr hid) (toOption_eq_some h)).1.coherent
  | createEdition userId workId request id =>
    simp only [CatalogOp.run] at h
    split at h
    · cases h
    · next hid =>
      refine (createEdition_coherent hs (fun e he heq => hid ?_) (toOption_eq_some h)).coherent
      exact List.any_eq_true.mpr ⟨e, he, decide_eq_true heq⟩
  | patchWork userId workId request newId => exact patchWork_coherent hs (toOption_eq_some h)
  | patchTranslation userId translationId request =>
    exact patchTranslation_coherent hs (toOption_eq_some h)
  | patchEdition userId editionId request => exact patchEdition_coherent hs (toOption_eq_some h)
  | merge sourceWorkId targetWorkId now =>
    obtain ⟨⟨s'', summary⟩, hmerge, rfl⟩ := Option.map_eq_some_iff.mp h
    exact merge_coherent hs (merge_eq_ok (toOption_eq_some hmerge))
  | quickAdd now userId request prepared ids => exact (commit_eq_some hs run_grows h).1.coherent
  | importCommit now ownerId rows ids => exact (commitImport_eq_some hs h).1.coherent

theorem coherent_empty (hworks : s.db.works = []) (htranslations : s.db.translations = [])
    (heditions : s.db.editions = []) (hlinks : s.db.workAuthors = []) : s.db.Coherent := by
  refine ⟨?_, ?_, ?_, ?_, ?_, ?_, fun id => ?_⟩
  · rw [hworks]; exact List.nodup_nil
  · rw [htranslations]; exact List.nodup_nil
  · rw [heditions]; exact List.nodup_nil
  · rw [heditions]; exact fun _ h => nomatch h
  · rw [hlinks]; exact fun _ h => nomatch h
  · rw [heditions]; exact fun _ h => nomatch h
  · rw [CatalogDb.linksOf, hlinks]; exact linkShape_nil

/-- **The catalog is coherent in every reachable state.** -/
theorem coherent_of_reachable (h : (catalogRuns env).Reachable s) : s.db.Coherent := by
  refine h.invariant (I := fun s => s.db.Coherent) (fun s hinit => ?_) fun s op s' _ hs hstep => ?_
  · obtain ⟨hworks, htranslations, heditions, hlinks⟩ := hinit
    exact coherent_empty hworks htranslations heditions hlinks
  · cases hstep with
    | committed _ hrun => exact run_coherent hs hrun
    | refused _ => exact hs

end Steps

end Bookswap
