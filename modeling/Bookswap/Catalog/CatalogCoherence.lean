import Bookswap.Catalog.MergeService
import Bookswap.Lib.Table

/-!
# What the tables of the catalog keep

The text of an edition agrees with its work and its translation (I1–I3), and the author list of a
work has each link once, at the positions from 0 on. Both are kept by every row that is inserted.

- `ResolvedText`, `resolveEditionText_sound`: what a resolved text says.
- `EditionText`, `LinkShape`, `CatalogDb.Coherent`: the invariant.
- `Extends`: the tables after insertions; `Extends.work`, `Extends.link`, `Extends.translation`,
  `Extends.edition`, `Extends.of_same`: one row.
-/

namespace Bookswap

open Checked ReadCommitted

/-! ## Texts of editions -/

/-- What `resolveEditionText` has made sure of. -/
structure ResolvedText (linked : Option TranslationId) (context : EditionTextContext)
    (text : EditionTextState) : Prop where
  translationId : text.translationId = linked
  translation : linked ≠ none → text.textKind = .translation ∧
    ∃ lang, context.targetTranslation = some lang ∧ text.lang = some lang
  original : text.textKind = .original → ∀ lang, context.workOrigLang = some lang →
    text.lang = some lang

theorem resolveLinkedText_sound {before next text : EditionTextState} {patch : EditionTextPatch}
    {context : EditionTextContext} (h : resolveLinkedText before next patch context = .ok text) :
    text.translationId = next.translationId ∧ text.textKind = .translation ∧
      ∃ lang, context.targetTranslation = some lang ∧ text.lang = some lang := by
  unfold resolveLinkedText at h
  by_cases hkind : patch.textKind ≠ none ∧ patch.textKind ≠ some .translation
  · simp only [if_pos hkind] at h
    cases h
  · simp only [if_neg hkind] at h
    cases htarget : context.targetTranslation with
    | none =>
      rw [htarget] at h
      cases h
    | some target =>
      simp only [htarget] at h
      generalize (if patch.lang = none ∧ before.lang ≠ none ∧
        before.lang = impliedLang before context then some target else next.lang) = lang? at h
      match lang? with
      | none =>
        cases h
        exact ⟨rfl, rfl, target, rfl, rfl⟩
      | some lang =>
        by_cases heq : lang = target
        · simp only [if_neg (not_not.mpr heq)] at h
          cases h
          exact ⟨rfl, rfl, target, rfl, congrArg some heq⟩
        · simp only [if_pos heq] at h
          cases h

theorem resolveUnlink_sound {before next text : EditionTextState} {patch : EditionTextPatch}
    {context : EditionTextContext} (h : resolveUnlink before next patch context = .ok text) :
    text.translationId = next.translationId := by
  unfold resolveUnlink at h
  by_cases hunlink : before.translationId ≠ none ∧ patch.translationId = some none
  · simp only [if_pos hunlink] at h
    by_cases hkind : patch.textKind = none
    · simp only [if_pos hkind] at h
      by_cases horig : context.workOrigLang = none
      · simp only [if_pos horig] at h
        cases h
      · simp only [if_neg horig] at h
        cases h
        rfl
    · simp only [if_neg hkind] at h
      cases h
      rfl
  · simp only [if_neg hunlink] at h
    by_cases hkind : before.translationId ≠ none ∧ patch.textKind ≠ none ∧
        patch.textKind ≠ some .translation
    · simp only [if_pos hkind] at h
      cases h
    · simp only [if_neg hkind] at h
      cases h
      rfl

theorem resolveOriginal_sound {next text : EditionTextState} {context : EditionTextContext}
    (h : resolveOriginal next context = .ok text) : text.translationId = next.translationId ∧
      (text.textKind = .original → ∀ lang, context.workOrigLang = some lang →
        text.lang = some lang) := by
  obtain ⟨kind, lang?, linked⟩ := next
  unfold resolveOriginal at h
  cases horig : context.workOrigLang with
  | none =>
    rw [horig] at h
    cases kind <;> cases h <;> exact ⟨rfl, fun _ _ h => nomatch h⟩
  | some orig =>
    rw [horig] at h
    cases kind with
    | original =>
      cases lang? with
      | none =>
        cases h
        exact ⟨rfl, fun _ _ h => h⟩
      | some lang =>
        dsimp only at h
        split at h
        · cases h
        · next heq =>
          cases h
          refine ⟨rfl, fun _ lang' h => ?_⟩
          rw [← h, not_not.mp heq]
    | _ =>
      cases h
      exact ⟨rfl, fun h => nomatch h⟩

/-- **The one rule of texts**: I1 to I3, of what it resolves to. -/
theorem resolveEditionText_sound {current : Option EditionTextState} {patch : EditionTextPatch}
    {context : EditionTextContext} {text : EditionTextState}
    (h : resolveEditionText current patch context = .ok text) :
    ResolvedText (patch.translationId.getD (current.getD NEW_EDITION).translationId) context
      text := by
  unfold resolveEditionText at h
  by_cases hlinked : patch.translationId.getD (current.getD NEW_EDITION).translationId ≠ none
  · simp only [if_pos hlinked] at h
    obtain ⟨hid, hkind, hlang⟩ := resolveLinkedText_sound h
    refine ⟨hid, fun _ => ⟨hkind, hlang⟩, fun horiginal => ?_⟩
    rw [hkind] at horiginal
    cases horiginal
  · simp only [if_neg hlinked] at h
    obtain ⟨unlinked, hunlink, h⟩ := bind_eq_ok.mp h
    have hid := resolveUnlink_sound hunlink
    obtain ⟨hsame, horiginal⟩ := resolveOriginal_sound h
    exact ⟨hsame.trans hid, fun hne => absurd hne hlinked, horiginal⟩

/-! ## The invariant -/

/-- I1 to I3, of one edition. -/
structure EditionText (db : CatalogDb) (e : Edition) : Prop where
  linked : ∀ id, e.translationId = some id → ∃ t ∈ db.translations, t.id = id ∧
    t.workId = e.workId ∧ e.textKind = .translation ∧ e.lang = some t.lang
  original : e.textKind = .original → ∀ w ∈ db.works, w.id = e.workId →
    ∀ lang, w.origLang = some lang → e.lang = some lang

/-- Each link once, at the positions from 0 on. -/
structure LinkShape (links : List WorkAuthor) : Prop where
  keys : (links.map linkKey).Nodup
  positions : (links.map WorkAuthor.position).Perm (List.range links.length)

theorem linkShape_nil : LinkShape [] := ⟨.nil, .refl _⟩

/-- One more link, behind the others. -/
theorem LinkShape.cons {links : List WorkAuthor} (h : LinkShape links) {l : WorkAuthor}
    (hkey : linkKey l ∉ links.map linkKey) (hposition : l.position = links.length) :
    LinkShape (l :: links) where
  keys := List.nodup_cons.mpr ⟨hkey, h.keys⟩
  positions := by
    rw [List.map_cons, List.length_cons, List.range_succ, hposition]
    exact (h.positions.cons _).trans (List.perm_append_singleton _ _).symm

namespace CatalogDb

/-- The links of a work, in no order. -/
def linksOf (db : CatalogDb) (workId : WorkId) : List WorkAuthor :=
  db.workAuthors.filter fun l => l.workId = workId

/-- What every state of the catalog is like. -/
structure Coherent (db : CatalogDb) : Prop where
  workIds : (db.works.map Work.id).Nodup
  translationIds : (db.translations.map Translation.id).Nodup
  editionIds : (db.editions.map Edition.id).Nodup
  editionWorks : ∀ e ∈ db.editions, ∃ w ∈ db.works, w.id = e.workId
  linkWorks : ∀ l ∈ db.workAuthors, ∃ w ∈ db.works, w.id = l.workId
  texts : ∀ e ∈ db.editions, EditionText db e
  links : ∀ workId, LinkShape (db.linksOf workId)

namespace Coherent

variable {db : CatalogDb} (h : db.Coherent)

include h

theorem work?_eq_some {id : WorkId} {w : Work} : db.work? id = some w ↔ w ∈ db.works ∧ w.id = id :=
  Store.Table.find?_eq_some_iff (t := ⟨db.works, h.workIds⟩)

theorem translation?_eq_some {id : TranslationId} {t : Translation} :
    db.translation? id = some t ↔ t ∈ db.translations ∧ t.id = id :=
  Store.Table.find?_eq_some_iff (t := ⟨db.translations, h.translationIds⟩)

theorem edition?_eq_some {id : EditionId} {e : Edition} :
    db.edition? id = some e ↔ e ∈ db.editions ∧ e.id = id :=
  Store.Table.find?_eq_some_iff (t := ⟨db.editions, h.editionIds⟩)

/-- A work that is not there has no author links. -/
theorem linksOf_eq_nil {id : WorkId} (hid : ∀ w ∈ db.works, w.id ≠ id) : db.linksOf id = [] := by
  refine List.filter_eq_nil_iff.mpr fun l hl hwork => ?_
  obtain ⟨w, hw, hwl⟩ := h.linkWorks l hl
  exact hid w hw (hwl.trans (of_decide_eq_true hwork))

end Coherent

end CatalogDb

/-! ## Insertions -/

/-- What has been inserted since `db₀` leaves its works, translations, editions and author lists
alone. -/
structure Extends (db₀ db : CatalogDb) : Prop where
  coherent : db.Coherent
  works : ∀ w ∈ db₀.works, w ∈ db.works
  translations : ∀ t ∈ db₀.translations, t ∈ db.translations
  editions : ∀ e ∈ db₀.editions, e ∈ db.editions
  links : ∀ w ∈ db₀.works, db.linksOf w.id = db₀.linksOf w.id

namespace Extends

variable {db₀ db db' : CatalogDb}

theorem refl (h : db.Coherent) : Extends db db :=
  ⟨h, fun _ h => h, fun _ h => h, fun _ h => h, fun _ _ => rfl⟩

theorem trans {db₁ : CatalogDb} (h : Extends db₀ db₁) (h' : Extends db₁ db) : Extends db₀ db :=
  ⟨h'.coherent, fun w hw => h'.works w (h.works w hw),
    fun t ht => h'.translations t (h.translations t ht),
    fun e he => h'.editions e (h.editions e he),
    fun w hw => (h'.links w (h.works w hw)).trans (h.links w hw)⟩

/-- A write to the other tables. -/
theorem of_same (h : Extends db₀ db) (hworks : db'.works = db.works)
    (htranslations : db'.translations = db.translations) (heditions : db'.editions = db.editions)
    (hlinks : db'.workAuthors = db.workAuthors) : Extends db₀ db' := by
  have hc := h.coherent
  have hlinksOf : ∀ id, db'.linksOf id = db.linksOf id := fun id => by
    rw [CatalogDb.linksOf, CatalogDb.linksOf, hlinks]
  refine ⟨⟨?_, ?_, ?_, ?_, ?_, fun e he => ?_, fun id => ?_⟩, ?_, ?_, ?_, fun w hw => ?_⟩
  · rw [hworks]; exact hc.workIds
  · rw [htranslations]; exact hc.translationIds
  · rw [heditions]; exact hc.editionIds
  · rw [heditions, hworks]; exact hc.editionWorks
  · rw [hlinks, hworks]; exact hc.linkWorks
  · rw [heditions] at he
    refine ⟨?_, ?_⟩
    · rw [htranslations]; exact (hc.texts e he).linked
    · rw [hworks]; exact (hc.texts e he).original
  · rw [hlinksOf]; exact hc.links id
  · rw [hworks]; exact h.works
  · rw [htranslations]; exact h.translations
  · rw [heditions]; exact h.editions
  · rw [hlinksOf]; exact h.links w hw

theorem work (h : Extends db₀ db) {w : Work}
    (hfree : ∀ key ∈ (CatalogWrite.work w).keys, db.taken key = false) :
    Extends db₀ ((CatalogWrite.work w).apply db) := by
  have hc := h.coherent
  have hfresh : ∀ w' ∈ db.works, w'.id ≠ w.id := by
    have hkey := hfree _ List.mem_cons_self
    exact fun w' hw' => by simpa using List.any_eq_false.mp hkey w' hw'
  refine ⟨⟨?_, hc.translationIds, hc.editionIds, fun e he => ?_, fun l hl => ?_, fun e he => ?_,
    hc.links⟩, fun w' hw' => List.mem_cons_of_mem _ (h.works w' hw'), h.translations, h.editions,
    h.links⟩
  · refine List.nodup_cons.mpr ⟨fun hmem => ?_, hc.workIds⟩
    obtain ⟨w', hw', hid⟩ := List.mem_map.mp hmem
    exact hfresh w' hw' hid
  · obtain ⟨w', hw', hid⟩ := hc.editionWorks e he
    exact ⟨w', List.mem_cons_of_mem _ hw', hid⟩
  · obtain ⟨w', hw', hid⟩ := hc.linkWorks l hl
    exact ⟨w', List.mem_cons_of_mem _ hw', hid⟩
  · refine ⟨(hc.texts e he).linked, fun hkind w' hw' hid => ?_⟩
    rcases List.mem_cons.mp hw' with rfl | hw'
    · -- no edition is of the new work yet
      obtain ⟨w'', hw'', hid'⟩ := hc.editionWorks e he
      exact absurd (hid'.trans hid.symm) (hfresh w'' hw'')
    · exact (hc.texts e he).original hkind w' hw' hid

theorem translation (h : Extends db₀ db) {t : Translation}
    (hfree : ∀ key ∈ (CatalogWrite.translation t).keys, db.taken key = false) :
    Extends db₀ ((CatalogWrite.translation t).apply db) := by
  have hc := h.coherent
  have hfresh : ∀ t' ∈ db.translations, t'.id ≠ t.id := by
    have hkey := hfree _ List.mem_cons_self
    exact fun t' ht' => by simpa using List.any_eq_false.mp hkey t' ht'
  refine ⟨⟨hc.workIds, ?_, hc.editionIds, hc.editionWorks, hc.linkWorks, fun e he => ?_, hc.links⟩,
    h.works, fun t' ht' => List.mem_cons_of_mem _ (h.translations t' ht'), h.editions, h.links⟩
  · refine List.nodup_cons.mpr ⟨fun hmem => ?_, hc.translationIds⟩
    obtain ⟨t', ht', hid⟩ := List.mem_map.mp hmem
    exact hfresh t' ht' hid
  · refine ⟨fun id hid => ?_, (hc.texts e he).original⟩
    obtain ⟨t', ht', hlinked⟩ := (hc.texts e he).linked id hid
    exact ⟨t', List.mem_cons_of_mem _ ht', hlinked⟩

theorem edition (h : Extends db₀ db) {e : Edition}
    (hfree : ∀ key ∈ (CatalogWrite.edition e).keys, db.taken key = false)
    (hwork : ∃ w ∈ db.works, w.id = e.workId) (htext : EditionText db e) :
    Extends db₀ ((CatalogWrite.edition e).apply db) := by
  have hc := h.coherent
  have hfresh : ∀ e' ∈ db.editions, e'.id ≠ e.id := by
    have hkey := hfree _ List.mem_cons_self
    exact fun e' he' => by simpa using List.any_eq_false.mp hkey e' he'
  refine ⟨⟨hc.workIds, hc.translationIds, ?_, List.forall_mem_cons.mpr ⟨hwork, hc.editionWorks⟩,
    hc.linkWorks, List.forall_mem_cons.mpr ⟨?_, fun e' he' => ?_⟩, hc.links⟩, h.works,
    h.translations, fun e' he' => List.mem_cons_of_mem _ (h.editions e' he'), h.links⟩
  · refine List.nodup_cons.mpr ⟨fun hmem => ?_, hc.editionIds⟩
    obtain ⟨e', he', hid⟩ := List.mem_map.mp hmem
    exact hfresh e' he' hid
  · exact ⟨htext.linked, htext.original⟩
  · exact ⟨(hc.texts e' he').linked, (hc.texts e' he').original⟩

theorem linksOf_link (db : CatalogDb) (l : WorkAuthor) (id : WorkId) :
    ((CatalogWrite.workAuthor l).apply db).linksOf id =
      if l.workId = id then l :: db.linksOf id else db.linksOf id := by
  show (l :: db.workAuthors).filter _ = _
  rw [List.filter_cons]
  by_cases hid : l.workId = id
  · rw [if_pos (decide_eq_true hid), if_pos hid]
    rfl
  · rw [if_neg (by simpa using hid), if_neg hid]
    rfl

/-- A link of a new work, behind the others. -/
theorem link (h : Extends db₀ db) {l : WorkAuthor}
    (hfree : ∀ key ∈ (CatalogWrite.workAuthor l).keys, db.taken key = false)
    (hwork : ∃ w ∈ db.works, w.id = l.workId) (hnew : ∀ w ∈ db₀.works, w.id ≠ l.workId)
    (hposition : l.position = (db.linksOf l.workId).length) :
    Extends db₀ ((CatalogWrite.workAuthor l).apply db) := by
  have hc := h.coherent
  refine ⟨⟨hc.workIds, hc.translationIds, hc.editionIds, hc.editionWorks,
    List.forall_mem_cons.mpr ⟨hwork, hc.linkWorks⟩, fun e he => ?_, fun id => ?_⟩, h.works,
    h.translations, h.editions, fun w hw => ?_⟩
  · exact ⟨(hc.texts e he).linked, (hc.texts e he).original⟩
  · rw [linksOf_link]
    split
    · next hid =>
      subst hid
      refine (hc.links l.workId).cons (fun hmem => ?_) hposition
      obtain ⟨l', hl', hkey⟩ := List.mem_map.mp hmem
      obtain ⟨hl', hid'⟩ := List.mem_filter.mp hl'
      have htaken := List.any_eq_false.mp (hfree _ List.mem_cons_self) l' hl'
      simp only [linkKey, Prod.mk.injEq] at hkey
      exact htaken (decide_eq_true ⟨of_decide_eq_true hid', hkey.1, hkey.2⟩)
    · exact hc.links id
  · rw [linksOf_link, if_neg fun hid => hnew w hw hid.symm]
    exact h.links w hw

end Extends

end Bookswap
