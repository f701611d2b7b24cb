import Bookswap.Catalog.ChainCoherence
import Bookswap.Lib.Lists

/-!
# Corrections and merges keep the catalog coherent

What `patchWork`, `patchTranslation`, `patchEdition` and `merge` leave of a coherent catalog. A
language that changes, changes in the same step in every edition that follows it.

- `setLangs`: the editions after `applyEditionTextUpdates` with one language.
- `Coherent.editionsChange`: what a step that rewrites editions and works has to keep.
- `createEdition_coherent`, `patchWork_coherent`, `patchTranslation_coherent`,
  `patchEdition_coherent`, `merge_coherent`.
-/

namespace Bookswap

open Checked

/-! ## Languages of editions -/

/-- The editions of these ids are in the language now. -/
def setLangs (ids : List EditionId) (lang : String) (e : Edition) : Edition :=
  if e.id ∈ ids then { e with lang := some lang } else e

@[simp] theorem setLangs_id (ids : List EditionId) (lang : String) (e : Edition) :
    (setLangs ids lang e).id = e.id := by
  unfold setLangs
  split <;> rfl

@[simp] theorem setLangs_workId (ids : List EditionId) (lang : String) (e : Edition) :
    (setLangs ids lang e).workId = e.workId := by
  unfold setLangs
  split <;> rfl

@[simp] theorem setLangs_textKind (ids : List EditionId) (lang : String) (e : Edition) :
    (setLangs ids lang e).textKind = e.textKind := by
  unfold setLangs
  split <;> rfl

@[simp] theorem setLangs_translationId (ids : List EditionId) (lang : String) (e : Edition) :
    (setLangs ids lang e).translationId = e.translationId := by
  unfold setLangs
  split <;> rfl

theorem setLangs_nil (lang : String) : setLangs [] lang = id := by
  funext e
  exact if_neg List.not_mem_nil

/-- Updates to one language. -/
theorem editions_applyEditionTextUpdates (s : CatalogStore) (updates : List (EditionId × String))
    (lang : String) (h : ∀ u ∈ updates, u.2 = lang) :
    (applyEditionTextUpdates s updates).db.editions =
      s.db.editions.map (setLangs (updates.map Prod.fst) lang) := by
  induction updates generalizing s with
  | nil => rw [List.map_nil, setLangs_nil, List.map_id]; rfl
  | cons u updates ih =>
    have hu : u.2 = lang := h u List.mem_cons_self
    show (applyEditionTextUpdates (s.updateEdition u.1 _) updates).db.editions = _
    rw [ih _ fun v hv => h v (List.mem_cons_of_mem _ hv)]
    show (s.db.editions.map _).map _ = _
    rw [List.map_map]
    refine List.map_congr_left fun e _ => ?_
    simp only [Function.comp_apply, setLangs, List.map_cons, List.mem_cons, hu]
    by_cases hid : e.id = u.1
    · by_cases hrest : e.id ∈ updates.map Prod.fst <;> simp [hid]
    · rw [if_neg hid]
      simp only [hid, false_or]

/-! ## Coherence after a change -/

/-- The rows of before stay under their ids, and the editions after the change agree with their
works and translations. -/
theorem CatalogDb.Coherent.change {db db' : CatalogDb} (h : db.Coherent)
    (hworks : db'.works.map Work.id = db.works.map Work.id)
    (htranslations : db'.translations.map Translation.id = db.translations.map Translation.id)
    (heditions : db'.editions.map Edition.id = db.editions.map Edition.id)
    (heditionWorks : ∀ e ∈ db'.editions, ∃ w ∈ db.works, w.id = e.workId)
    (htexts : ∀ e ∈ db'.editions, EditionText db' e)
    (hlinks : db'.workAuthors = db.workAuthors) : db'.Coherent := by
  have hwork : ∀ {id}, (∃ w ∈ db.works, w.id = id) → ∃ w ∈ db'.works, w.id = id := by
    intro id hid
    rw [← List.mem_map (f := Work.id), hworks, List.mem_map]
    exact hid
  refine ⟨hworks ▸ h.workIds, htranslations ▸ h.translationIds, heditions ▸ h.editionIds,
    fun e he => hwork (heditionWorks e he), fun l hl => ?_, htexts, fun id => ?_⟩
  · rw [hlinks] at hl
    exact hwork (h.linkWorks l hl)
  · rw [CatalogDb.linksOf, hlinks]
    exact h.links id

/-! ## Patches -/

section Patches

variable {s s' : CatalogStore}

theorem canonicalWork_eq_ok {workId : WorkId} {w : Work} (h : canonicalWork s workId = .ok w) :
    s.db.work? workId = some w ∧ w.mergedIntoId = none := by
  unfold canonicalWork at h
  obtain ⟨work, hwork, h⟩ := bind_eq_ok.mp h
  rw [orThrow_eq_ok] at hwork
  split at h
  · cases h
  · next hmerged =>
    cases h
    exact ⟨hwork, hmerged⟩

/-- The translation is one of the work. -/
theorem translationOfWork_eq_ok (hs : s.db.Coherent) {workId : WorkId}
    {translationId : Option TranslationId} {t? : Option Translation}
    (h : translationOfWork s workId translationId = .ok t?) {id : TranslationId}
    (hid : translationId = some id) :
    ∃ t ∈ s.db.translations, t? = some t ∧ t.id = id ∧ t.workId = workId := by
  subst hid
  obtain ⟨t, ht, rfl⟩ := map_eq_ok.mp h
  rw [orThrow_eq_ok, Option.filter_eq_some_iff] at ht
  obtain ⟨hmem, htid⟩ := hs.translation?_eq_some.mp ht.1
  exact ⟨t, hmem, rfl, htid, of_decide_eq_true ht.2⟩

theorem editionText_eq_ok {current : Option EditionTextState} {patch : EditionTextPatch}
    {context : EditionTextContext} {text : EditionTextState}
    (h : editionText current patch context = .ok text) :
    ResolvedText (patch.translationId.getD (current.getD NEW_EDITION).translationId) context
      text := by
  rw [editionText, mapError_eq_ok] at h
  exact resolveEditionText_sound (of_textOrThrow_ok h)

theorem createEdition_coherent {userId : UserId} {workId : WorkId}
    {request : CreateEditionRequest} {id : EditionId} (hs : s.db.Coherent)
    (hid : ∀ e ∈ s.db.editions, e.id ≠ id)
    (h : createEdition s userId workId request id = .ok s') : Extends s.db s'.db := by
  unfold createEdition at h
  obtain ⟨work, hwork, h⟩ := bind_eq_ok.mp h
  obtain ⟨translation, htranslation, h⟩ := bind_eq_ok.mp h
  obtain ⟨text, htext, h⟩ := bind_eq_ok.mp h
  obtain ⟨_, hisbn, h⟩ := bind_eq_ok.mp h
  cases h
  obtain ⟨hmem, hworkId⟩ := hs.work?_eq_some.mp (canonicalWork_eq_ok hwork).1
  refine (Extends.refl hs).edition (fun key hkey => ?_) ⟨work, hmem, hworkId⟩ ?_
  · have hfree : ∀ isbn13, request.isbn13.join = some isbn13 → s.db.editionByIsbn? isbn13 = none := by
      intro isbn13 heq
      rw [heq] at hisbn
      unfold isbnFree at hisbn
      dsimp only at hisbn
      split at hisbn
      · assumption
      · next taken htaken =>
        rw [throwIf_eq_ok, not_not] at hisbn
        exact absurd hisbn (hid taken (List.mem_of_find?_eq_some htaken))
    rcases List.mem_cons.mp hkey with rfl | hkey
    · exact List.any_eq_false.mpr fun e he => by simpa using hid e he
    · rw [Option.mem_toList, Option.map_eq_some_iff] at hkey
      obtain ⟨isbn13, hisbn13, rfl⟩ := hkey
      refine List.any_eq_false.mpr fun e he => ?_
      have hnone := List.find?_eq_none.mp (hfree isbn13 hisbn13) e he
      exact hnone
  · refine editionText_resolved hs ⟨work.origLang, translation.map Translation.lang, none⟩
      ⟨work, hmem, hworkId, rfl⟩ (fun id' hid' => ?_) (editionText_eq_ok htext) rfl ?_ rfl rfl
    · obtain ⟨t, ht, hsome, htid, htwork⟩ := translationOfWork_eq_ok hs htranslation hid'
      refine ⟨t, ht, htid, htwork, fun lang hlang => ?_⟩
      rw [hsome] at hlang
      exact Option.some.inj hlang
    · exact (editionText_eq_ok htext).translationId.symm

/-! ### patchWork -/

/-- A new list of links, each once, by position. -/
theorem replaceAuthors_coherent {workId : WorkId} {links : List (AuthorId × AuthorRole)}
    (hs : s.db.Coherent) (hwork : ∃ w ∈ s.db.works, w.id = workId) (hlinks : links.Nodup) :
    (s.replaceAuthors workId links).db.Coherent := by
  have hnew : (s.replaceAuthors workId links).db.linksOf workId =
      links.zipIdx.map fun x => ⟨workId, x.1.1, x.1.2, x.2⟩ := by
    show List.filter _ (_ ++ _) = _
    rw [List.filter_append, List.filter_eq_self.mpr, List.filter_filter, List.filter_eq_nil_iff.mpr,
      List.append_nil]
    · intro l _
      simp
    · intro l hl
      obtain ⟨x, -, rfl⟩ := List.mem_map.mp hl
      exact decide_eq_true rfl
  have hother : ∀ id, id ≠ workId →
      (s.replaceAuthors workId links).db.linksOf id = s.db.linksOf id := by
    intro id hid
    show List.filter _ (_ ++ _) = List.filter _ _
    rw [List.filter_append, List.filter_eq_nil_iff.mpr, List.nil_append, List.filter_filter]
    · refine List.filter_congr fun l _ => ?_
      by_cases hl : l.workId = id
      · simp [hl, hid]
      · simp [hl]
    · intro l hl
      obtain ⟨x, -, rfl⟩ := List.mem_map.mp hl
      simpa using hid.symm
  refine ⟨hs.workIds, hs.translationIds, hs.editionIds, hs.editionWorks, fun l hl => ?_,
    fun e he => ⟨(hs.texts e he).linked, (hs.texts e he).original⟩, fun id => ?_⟩
  · rcases List.mem_append.mp hl with hl | hl
    · obtain ⟨x, -, rfl⟩ := List.mem_map.mp hl
      exact hwork
    · exact hs.linkWorks l (List.mem_of_mem_filter hl)
  · by_cases hid : id = workId
    · subst hid
      rw [hnew]
      constructor
      · rw [List.map_map]
        show (links.zipIdx.map Prod.fst).Nodup
        rwa [List.zipIdx_map_fst]
      · rw [List.map_map, List.length_map, List.length_zipIdx]
        show (links.zipIdx.map Prod.snd).Perm _
        rw [List.zipIdx_map_snd, List.range_eq_range']
    · rw [hother id hid]
      exact hs.links id

theorem replaceAuthorList_coherent {norm : String → String} {workId : WorkId}
    {newId : Nat → AuthorId} {authors : Option (List WorkAuthorInput)} (hs : s.db.Coherent)
    (hwork : ∃ w ∈ s.db.works, w.id = workId)
    (h : replaceAuthorList norm s workId newId authors = .ok s') : s'.db.Coherent := by
  cases authors with
  | none =>
    cases h
    exact hs
  | some authors =>
    obtain ⟨_, -, h⟩ := bind_eq_ok.mp h
    cases h
    generalize authors.zipIdx.filterMap (newAuthorOf norm newId) = added
    have hauthors : ∀ rows : List Author,
        Extends s.db (catalogSchema.view s.db (rows.map CatalogWrite.author)) := by
      intro rows
      induction rows with
      | nil => exact .refl hs
      | cons a rows ih => exact ih.of_same rfl rfl rfl rfl
    have hinsert : Extends s.db (s.insert (added.map .author)).db := by
      have hadded := hauthors added.reverse
      rwa [List.map_reverse] at hadded
    obtain ⟨w, hw, hid⟩ := hwork
    exact replaceAuthors_coherent hinsert.coherent ⟨w, hinsert.works w hw, hid⟩ (nodup_eraseDups _)

/-- The editions that do not contradict a new original language. -/
theorem cascade_eq_ok (hs : s.db.Coherent) {workId : WorkId} {oldLang newLang : Option String}
    (h : cascadeOriginalLang s workId oldLang newLang = .ok s') :
    (newLang = none ∧ s' = s) ∨ ∃ (lang : String) (ids : List EditionId), newLang = some lang ∧
      s' = applyEditionTextUpdates s (ids.map fun id => (id, lang)) ∧
      (∀ e ∈ s.db.editions, e.id ∈ ids → e.workId = workId ∧ e.textKind = .original) ∧
      ∀ e ∈ s.db.editions, e.workId = workId → e.textKind = .original →
        e.lang = some lang ∨ e.id ∈ ids := by
  cases newLang with
  | none =>
    cases h
    exact .inl ⟨rfl, rfl⟩
  | some lang =>
    refine .inr ⟨lang, ((s.db.editions.filter fun e => e.workId = workId).filter
      (followsOriginal oldLang lang)).map Edition.id, rfl, ?_⟩
    unfold cascadeOriginalLang planWorkOriginalLangChange at h
    dsimp only at h
    by_cases hconflict : ((s.db.editions.filter fun e => e.workId = workId).filter
        (contradictsOriginal oldLang lang)).map Edition.id ≠ []
    · rw [if_pos hconflict] at h
      cases h
    · rw [if_neg hconflict] at h
      cases h
      rw [List.map_map]
      refine ⟨rfl, fun e he hmem => ?_, fun e he hwork hkind => ?_⟩
      · obtain ⟨e', he', hid⟩ := List.mem_map.mp hmem
        obtain ⟨he', hfollows⟩ := List.mem_filter.mp he'
        obtain ⟨he', hwork⟩ := List.mem_filter.mp he'
        obtain rfl := List.inj_on_of_nodup_map hs.editionIds he' he hid
        exact ⟨of_decide_eq_true hwork, (of_decide_eq_true hfollows).1⟩
      have hnone : contradictsOriginal oldLang lang e ≠ true := by
        rw [not_not, List.map_eq_nil_iff, List.filter_eq_nil_iff] at hconflict
        exact hconflict e (List.mem_filter.mpr ⟨he, decide_eq_true hwork⟩)
      by_cases hlang : e.lang = some lang
      · exact .inl hlang
      · refine .inr (List.mem_map.mpr ⟨e, List.mem_filter.mpr
          ⟨List.mem_filter.mpr ⟨he, decide_eq_true hwork⟩, ?_⟩, rfl⟩)
        unfold contradictsOriginal at hnone
        unfold followsOriginal
        simp only [hkind, hlang, decide_eq_true_eq, ne_eq, not_false_eq_true, true_and] at hnone ⊢
        exact not_not.mp hnone

theorem patchWork_coherent {norm : String → String} {userId : UserId} {workId : WorkId}
    {request : WorkPatchRequest} {newId : Nat → AuthorId} (hs : s.db.Coherent)
    (h : patchWork norm s userId workId request newId = .ok s') : s'.db.Coherent := by
  unfold patchWork at h
  obtain ⟨before, hbefore, h⟩ := bind_eq_ok.mp h
  obtain ⟨_, -, h⟩ := bind_eq_ok.mp h
  obtain ⟨_, -, h⟩ := bind_eq_ok.mp h
  obtain ⟨hmem, hid⟩ := hs.work?_eq_some.mp (canonicalWork_eq_ok hbefore).1
  -- the editions after the cascade, and what they say in the work's new language
  obtain ⟨s₁, hcascade, h⟩ : ∃ s₁ : CatalogStore,
      (∃ (ids : List EditionId) (lang : String),
        s₁ = applyEditionTextUpdates s (ids.map fun id => (id, lang)) ∧
        (∀ e ∈ s.db.editions, e.id ∈ ids → e.workId = workId ∧ e.textKind = .original) ∧
        ∀ e ∈ s.db.editions, e.workId = workId → e.textKind = .original →
          ∀ l, request.origLang.getD before.origLang = some l → (setLangs ids lang e).lang = some l) ∧
      replaceAuthorList norm (s₁.updateWork workId (request.patched norm)) workId newId
        request.authors = .ok s' := by
    by_cases hchanged : request.origLang.getD before.origLang ≠ before.origLang
    · rw [if_pos hchanged] at h
      obtain ⟨s₁, hcascade, h⟩ := bind_eq_ok.mp h
      refine ⟨s₁, ?_, h⟩
      rcases cascade_eq_ok hs hcascade with ⟨hnone, rfl⟩ | ⟨lang, ids, hsome, rfl, honly, hfollow⟩
      · refine ⟨[], "", rfl, fun _ _ h => (nomatch h), fun e _ _ _ l hl => ?_⟩
        rw [hnone] at hl
        cases hl
      · refine ⟨ids, lang, rfl, honly, fun e he hwork hkind l hl => ?_⟩
        rw [hsome] at hl
        cases hl
        unfold setLangs
        split
        · rfl
        · next hnot => exact (hfollow e he hwork hkind).resolve_right hnot
    · rw [if_neg hchanged] at h
      refine ⟨s, ⟨[], "", rfl, fun _ _ h => (nomatch h), fun e he hwork hkind l hl => ?_⟩, h⟩
      rw [setLangs_nil]
      rw [not_not.mp hchanged] at hl
      exact (hs.texts e he).original hkind before hmem (hid.trans hwork.symm) l hl
  obtain ⟨ids, lang, rfl, honly, hlangs⟩ := hcascade
  have heditions := editions_applyEditionTextUpdates s (ids.map fun id => (id, lang)) lang fun u hu => by obtain ⟨_, -, rfl⟩ := List.mem_map.mp hu; rfl
  have hids : (ids.map fun id => (id, lang)).map Prod.fst = ids := by
    rw [List.map_map]
    exact List.map_id ids
  rw [hids] at heditions
  obtain ⟨editions, revision, hupdates⟩ := applyEditionTextUpdates_eq s
    (ids.map fun id => (id, lang))
  rw [hupdates] at heditions h
  dsimp only at heditions
  subst heditions
  refine replaceAuthorList_coherent ?_ ⟨_, List.mem_map.mpr ⟨before, hmem, rfl⟩, ?_⟩ h
  swap
  · show (if before.id = workId then request.patched norm before else before).id = workId
    rw [if_pos hid]
    exact hid
  refine hs.change ?_ rfl ?_ ?_ ?_ rfl
  · show (s.db.works.map _).map Work.id = _
    rw [List.map_map]
    refine List.map_congr_left fun w _ => ?_
    show (if w.id = workId then request.patched norm w else w).id = w.id
    split <;> rfl
  · show (s.db.editions.map _).map Edition.id = _
    rw [List.map_map]
    exact List.map_congr_left fun e _ => setLangs_id ids lang e
  · intro e he
    obtain ⟨e₀, he₀, rfl⟩ := List.mem_map.mp he
    rw [setLangs_workId]
    exact hs.editionWorks e₀ he₀
  · intro e he
    obtain ⟨e₀, he₀, rfl⟩ := List.mem_map.mp he
    have htext := hs.texts e₀ he₀
    have hsame : e₀.id ∉ ids → setLangs ids lang e₀ = e₀ := fun hnot => if_neg hnot
    refine ⟨fun id hlinked => ?_, fun hkind w hw hwid l hl => ?_⟩
    · rw [setLangs_translationId] at hlinked
      obtain ⟨t, ht, htid, htwork, hkind, htlang⟩ := htext.linked id hlinked
      rw [hsame fun hmem => nomatch hkind.symm.trans (honly e₀ he₀ hmem).2]
      exact ⟨t, ht, htid, htwork, hkind, htlang⟩
    · rw [setLangs_textKind] at hkind
      rw [setLangs_workId] at hwid
      obtain ⟨w₀, hw₀, rfl⟩ := List.mem_map.mp hw
      by_cases hw₀id : w₀.id = workId
      · rw [if_pos hw₀id] at hwid hl
        have heq : w₀ = before :=
          List.inj_on_of_nodup_map hs.workIds hw₀ hmem (hw₀id.trans hid.symm)
        subst heq
        exact hlangs e₀ he₀ (hwid.symm.trans hid) hkind l hl
      · rw [if_neg hw₀id] at hwid hl
        rw [hsame fun hmem => hw₀id (hwid.trans (honly e₀ he₀ hmem).1)]
        exact htext.original hkind w₀ hw₀ hwid l hl

/-! ### patchTranslation -/

theorem linkedUpdates_lang {before : Translation} {lang : Option String}
    {u : EditionId × String} (hu : u ∈ linkedUpdates s before lang) :
    u.2 = lang.getD before.lang := by
  cases lang with
  | none => cases hu
  | some lang =>
    unfold linkedUpdates at hu
    dsimp only at hu
    split at hu
    · cases hu
    · obtain ⟨_, -, rfl⟩ := List.mem_map.mp hu
      rfl

theorem patchTranslation_coherent {userId : UserId} {translationId : TranslationId}
    {request : TranslationPatchRequest} (hs : s.db.Coherent)
    (h : patchTranslation s userId translationId request = .ok s') : s'.db.Coherent := by
  unfold patchTranslation at h
  obtain ⟨before, hbefore, h⟩ := bind_eq_ok.mp h
  obtain ⟨_, -, h⟩ := bind_eq_ok.mp h
  obtain ⟨_, -, h⟩ := bind_eq_ok.mp h
  cases h
  rw [orThrow_eq_ok] at hbefore
  obtain ⟨hmem, rfl⟩ := hs.translation?_eq_some.mp hbefore
  have heditions := editions_applyEditionTextUpdates s (linkedUpdates s before request.lang)
    (request.lang.getD before.lang) fun u hu => linkedUpdates_lang hu
  -- an edition is updated if it is linked and in another language
  have hids : ∀ e ∈ s.db.editions, e.id ∈ (linkedUpdates s before request.lang).map Prod.fst ↔
      e.translationId = some before.id ∧ e.lang ≠ some (request.lang.getD before.lang) := by
    intro e he
    have hfiltered : ∀ lang : String, e.id ∈ ((s.db.editions.filter fun e =>
        e.translationId = some before.id ∧ e.lang ≠ some lang).map fun e => (e.id, lang)).map
          Prod.fst ↔ e.translationId = some before.id ∧ e.lang ≠ some lang := by
      intro lang
      rw [List.map_map]
      constructor
      · intro hmem
        obtain ⟨e', he', hid⟩ := List.mem_map.mp hmem
        obtain ⟨he', hlinked⟩ := List.mem_filter.mp he'
        obtain rfl := List.inj_on_of_nodup_map hs.editionIds he' he hid
        exact of_decide_eq_true hlinked
      · intro hlinked
        exact List.mem_map.mpr ⟨e, List.mem_filter.mpr ⟨he, decide_eq_true hlinked⟩, rfl⟩
    have hsame : e.translationId = some before.id → e.lang = some before.lang := by
      intro hlinked
      obtain ⟨t, ht, htid, -, -, htlang⟩ := (hs.texts e he).linked before.id hlinked
      rwa [List.inj_on_of_nodup_map hs.translationIds ht hmem htid] at htlang
    unfold linkedUpdates
    cases request.lang with
    | none =>
      refine ⟨fun h => (nomatch h), fun ⟨hlinked, hne⟩ => absurd (hsame hlinked) hne⟩
    | some lang =>
      dsimp only [Option.getD_some]
      split
      · next heq =>
        subst heq
        refine ⟨fun h => (nomatch h), fun ⟨hlinked, hne⟩ => absurd (hsame hlinked) hne⟩
      · exact hfiltered lang
  obtain ⟨editions, revision, hupdates⟩ := applyEditionTextUpdates_eq s
    (linkedUpdates s before request.lang)
  rw [hupdates] at heditions ⊢
  dsimp only at heditions
  subst heditions
  generalize (linkedUpdates s before request.lang).map Prod.fst = ids at hids ⊢
  refine hs.change rfl ?_ ?_ ?_ ?_ rfl
  · show (s.db.translations.map _).map Translation.id = _
    rw [List.map_map]
    refine List.map_congr_left fun t _ => ?_
    show (if t.id = before.id then request.patched t else t).id = t.id
    split <;> rfl
  · show (s.db.editions.map _).map Edition.id = _
    rw [List.map_map]
    exact List.map_congr_left fun e _ => setLangs_id ids _ e
  · intro e he
    obtain ⟨e₀, he₀, rfl⟩ := List.mem_map.mp he
    rw [setLangs_workId]
    exact hs.editionWorks e₀ he₀
  · intro e he
    obtain ⟨e₀, he₀, rfl⟩ := List.mem_map.mp he
    refine ⟨fun id hlinked => ?_, fun hkind w hw hwid l hl => ?_⟩
    · rw [setLangs_translationId] at hlinked
      obtain ⟨t, ht, htid, htwork, hkind, htlang⟩ := (hs.texts e₀ he₀).linked id hlinked
      refine ⟨_, List.mem_map.mpr ⟨t, ht, rfl⟩, ?_⟩
      by_cases heq : t.id = before.id
      · obtain rfl := List.inj_on_of_nodup_map hs.translationIds ht hmem heq
        rw [if_pos rfl]
        refine ⟨htid, by rw [setLangs_workId]; exact htwork, by rw [setLangs_textKind]; exact hkind, ?_⟩
        unfold setLangs
        split
        · rfl
        · next hnot =>
          rw [hids e₀ he₀] at hnot
          by_contra hne
          exact hnot ⟨hlinked.trans (congrArg some htid.symm), hne⟩
      · rw [if_neg heq]
        have hnot : e₀.id ∉ ids := by
          intro hmem
          have hother := ((hids e₀ he₀).mp hmem).1
          rw [hlinked] at hother
          exact heq (htid.trans (Option.some.inj hother))
        rw [show setLangs ids _ e₀ = e₀ from if_neg hnot]
        exact ⟨htid, htwork, hkind, htlang⟩
    · -- a linked edition is a translation
      rw [setLangs_textKind] at hkind
      rw [setLangs_workId] at hwid
      have hnot : e₀.id ∉ ids := by
        intro hmem
        obtain ⟨-, -, -, -, htranslation, -⟩ :=
          (hs.texts e₀ he₀).linked before.id ((hids e₀ he₀).mp hmem).1
        rw [hkind] at htranslation
        cases htranslation
      rw [show setLangs ids _ e₀ = e₀ from if_neg hnot]
      exact (hs.texts e₀ he₀).original hkind w hw hwid l hl

/-! ### patchEdition -/

/-- The translation that a patched edition is linked to, with its language. -/
theorem targetTranslation_eq_ok (hs : s.db.Coherent) {before : Edition}
    (hbefore : before ∈ s.db.editions) {linked : Option (Option TranslationId)}
    {target : Option String}
    (h : targetTranslation s before (before.translationId.bind s.db.translation?) linked =
      .ok target) {id : TranslationId} (hid : linked.getD before.translationId = some id) :
    ∃ t ∈ s.db.translations, t.id = id ∧ t.workId = before.workId ∧ target = some t.lang := by
  cases linked with
  | none =>
    cases h
    rw [Option.getD_none] at hid
    obtain ⟨t, ht, htid, htwork, -, -⟩ := (hs.texts before hbefore).linked id hid
    refine ⟨t, ht, htid, htwork, ?_⟩
    rw [hid, Option.bind_some, hs.translation?_eq_some.mpr ⟨ht, htid⟩]
    rfl
  | some translationId =>
    rw [Option.getD_some] at hid
    obtain ⟨t?, ht?, h⟩ := bind_eq_ok.mp h
    cases h
    obtain ⟨t, ht, rfl, htid, htwork⟩ := translationOfWork_eq_ok hs ht? hid
    exact ⟨t, ht, htid, htwork, rfl⟩

theorem patchEdition_coherent {userId : UserId} {editionId : EditionId}
    {request : EditionPatchRequest} (hs : s.db.Coherent)
    (h : patchEdition s userId editionId request = .ok s') : s'.db.Coherent := by
  unfold patchEdition at h
  obtain ⟨before, hbefore, h⟩ := bind_eq_ok.mp h
  obtain ⟨_, -, h⟩ := bind_eq_ok.mp h
  obtain ⟨target, htarget, h⟩ := bind_eq_ok.mp h
  obtain ⟨_, -, h⟩ := bind_eq_ok.mp h
  obtain ⟨text, htext, h⟩ := bind_eq_ok.mp h
  obtain ⟨_, -, h⟩ := bind_eq_ok.mp h
  cases h
  rw [orThrow_eq_ok] at hbefore
  obtain ⟨hmem, rfl⟩ := hs.edition?_eq_some.mp hbefore
  obtain ⟨w, hw, hwid⟩ := hs.editionWorks before hmem
  refine hs.change rfl rfl ?_ ?_ ?_ rfl
  · show (s.db.editions.map _).map Edition.id = _
    rw [List.map_map]
    refine List.map_congr_left fun e _ => ?_
    show (if e.id = before.id then request.patched text e else e).id = e.id
    split <;> rfl
  · intro e he
    obtain ⟨e₀, he₀, rfl⟩ := List.mem_map.mp he
    have hwork : (if e₀.id = before.id then request.patched text e₀ else e₀).workId =
        e₀.workId := by
      split <;> rfl
    rw [hwork]
    exact hs.editionWorks e₀ he₀
  · intro e he
    obtain ⟨e₀, he₀, rfl⟩ := List.mem_map.mp he
    by_cases hid : e₀.id = before.id
    swap
    · rw [if_neg hid]
      exact ⟨(hs.texts e₀ he₀).linked, (hs.texts e₀ he₀).original⟩
    obtain rfl := List.inj_on_of_nodup_map hs.editionIds he₀ hmem hid
    rw [if_pos rfl]
    rcases whenever_eq_ok.mp htext with ⟨hchanges, text, hresolve, rfl⟩ | ⟨hsame, rfl⟩
    · have hwork : HasWork s.db e₀.workId ((s.db.work? e₀.workId).bind Work.origLang) := by
        refine ⟨w, hw, hwid, ?_⟩
        rw [hs.work?_eq_some.mpr ⟨hw, hwid⟩]
        rfl
      have hresolved := editionText_eq_ok hresolve
      suffices hpatched : EditionText s.db (request.patched (some text) e₀) from
        ⟨hpatched.linked, hpatched.original⟩
      refine editionText_resolved hs ⟨_, target, _⟩ hwork (fun id hlinked => ?_)
        hresolved rfl hresolved.translationId.symm rfl rfl
      obtain ⟨t, ht, htid, htwork, htlang⟩ := targetTranslation_eq_ok hs hmem htarget hlinked
      refine ⟨t, ht, htid, htwork, fun lang hlang => ?_⟩
      rw [htlang] at hlang
      exact Option.some.inj hlang
    · have hnone : request.translationId = none := by
        unfold EditionPatchRequest.changesText at hsame
        cases hlinked : request.translationId with
        | none => rfl
        | some linked =>
          rw [hlinked] at hsame
          exact absurd rfl hsame
      have heq : (request.patched none e₀).translationId = e₀.translationId := by
        show request.translationId.getD _ = _
        rw [hnone, Option.getD_none]
      refine ⟨fun id hlinked => ?_, (hs.texts e₀ he₀).original⟩
      rw [heq] at hlinked
      exact (hs.texts e₀ he₀).linked id hlinked

end Patches

/-! ## Merges -/

section Merges

variable {s s' : CatalogStore} {a b : WorkId} {now : Time}

theorem mergeUpdates_lang {editions : List Edition} {lang : Option String}
    {u : EditionId × String} (hu : u ∈ mergeUpdates editions lang) : u.2 = lang.getD "" := by
  obtain ⟨e, -, hset⟩ := List.mem_filterMap.mp hu
  split at hset
  · next hplan =>
    cases hset
    unfold planMergeLanguage at hplan
    cases lang with
    | none => cases hplan
    | some lang =>
      dsimp only at hplan
      split at hplan
      · cases hplan
      · split at hplan
        · cases hplan
          rfl
        · split at hplan <;> cases hplan
  · cases hset
  · cases hset

/-- A moved edition: its language is set if it is an original in none. -/
theorem mergeUpdates_mem (hs : s.db.Coherent) (lang : Option String) {e : Edition}
    (he : e ∈ s.db.editions) :
    e.id ∈ (mergeUpdates (s.db.editions.filter fun e => e.workId = a) lang).map Prod.fst ↔
      e.workId = a ∧ e.textKind = .original ∧ e.lang = none ∧ lang ≠ none := by
  have hplan : ∀ e : Edition, (∃ l, planMergeLanguage e lang = .set l) ↔
      e.textKind = .original ∧ e.lang = none ∧ lang ≠ none := by
    intro e
    unfold planMergeLanguage
    cases lang with
    | none => simp
    | some lang =>
      dsimp only
      split
      · next hkind => simp [hkind]
      · next hkind =>
        split
        · next hnone => simp [not_not.mp hkind, hnone]
        · next hnone => split <;> simp [hnone]
  constructor
  · intro hmem
    obtain ⟨u, hu, hid⟩ := List.mem_map.mp hmem
    obtain ⟨e', he', hset⟩ := List.mem_filterMap.mp hu
    split at hset
    · next l hl =>
      cases hset
      obtain ⟨he', hwork⟩ := List.mem_filter.mp he'
      obtain rfl := List.inj_on_of_nodup_map hs.editionIds he' he hid
      exact ⟨of_decide_eq_true hwork, (hplan e').mp ⟨l, hl⟩⟩
    · cases hset
    · cases hset
  · rintro ⟨hwork, hunset⟩
    obtain ⟨l, hl⟩ := (hplan e).mpr hunset
    refine List.mem_map.mpr ⟨(e.id, l), List.mem_filterMap.mpr ⟨e, List.mem_filter.mpr
      ⟨he, decide_eq_true hwork⟩, ?_⟩, rfl⟩
    rw [hl]

/-- An original of the source is in the language of the target afterwards. -/
theorem lang_of_no_conflict {e : Edition} {lang : String} (he : e ∈ s.db.editions)
    (hwork : e.workId = a) (hkind : e.textKind = .original)
    (h : mergeConflicts (s.db.editions.filter fun e => e.workId = a) (some lang) = []) :
    e.lang = none ∨ e.lang = some lang := by
  have hnot : planMergeLanguage e (some lang) ≠ .conflict := by
    intro hconflict
    have hmem : e.id ∈ mergeConflicts (s.db.editions.filter fun e => e.workId = a) (some lang) :=
      List.mem_map.mpr ⟨e, List.mem_filter.mpr ⟨List.mem_filter.mpr ⟨he, decide_eq_true hwork⟩,
        decide_eq_true hconflict⟩, rfl⟩
    rw [h] at hmem
    cases hmem
  unfold planMergeLanguage at hnot
  dsimp only at hnot
  rw [if_neg (not_not.mpr hkind)] at hnot
  by_cases hnone : e.lang = none
  · exact .inl hnone
  · rw [if_neg hnone] at hnot
    refine .inr (by_contra fun hne => hnot (if_neg hne))

/-! ### Author lists -/

theorem authorLinksOf_perm (db : CatalogDb) (id : WorkId) :
    (db.authorLinksOf id).Perm (db.linksOf id) := List.mergeSort_perm _ _

theorem linksToMove_keys {db : CatalogDb} (hdb : db.Coherent) :
    ((linksToMove db a b).map linkKey).Nodup ∧
      ∀ l ∈ linksToMove db a b, linkKey l ∉ (db.linksOf b).map linkKey := by
  constructor
  · have hkeys : ((db.authorLinksOf a).map linkKey).Nodup :=
      ((authorLinksOf_perm db a).map linkKey).nodup_iff.mpr (hdb.links a).keys
    exact hkeys.sublist (List.filter_sublist.map linkKey)
  · intro l hl hmem
    refine of_decide_eq_true (List.mem_filter.mp hl).2 ?_
    rwa [((authorLinksOf_perm db b).map linkKey).mem_iff]

theorem appendedLinks_keys (db : CatalogDb) :
    (appendedLinks db a b).map linkKey = (linksToMove db a b).map linkKey := by
  unfold appendedLinks
  rw [List.map_map]
  show (linksToMove db a b).zipIdx.map (linkKey ∘ Prod.fst) = _
  rw [← List.map_map, List.zipIdx_map_fst]

theorem appendedLinks_positions (db : CatalogDb) :
    (appendedLinks db a b).map WorkAuthor.position =
      (List.range (linksToMove db a b).length).map ((db.linksOf b).length + ·) := by
  unfold appendedLinks
  rw [List.map_map, (authorLinksOf_perm db b).length_eq]
  show (linksToMove db a b).zipIdx.map (((db.linksOf b).length + ·) ∘ Prod.snd) = _
  rw [← List.map_map, List.zipIdx_map_snd, List.range_eq_range']

/-- The links of every work after a merge. -/
theorem linksOf_merged (h : Merged s a b now s') (id : WorkId) : s'.db.linksOf id =
    if id = b then appendedLinks s.db a b ++ s.db.linksOf b
    else if id = a then [] else s.db.linksOf id := by
  unfold CatalogDb.linksOf
  rw [h.workAuthors]
  show (appendedLinks s.db a b ++ s.db.workAuthors.filter fun l => l.workId ≠ a).filter _ = _
  have hmoved : ∀ l ∈ appendedLinks s.db a b, l.workId = b := by
    intro l hl
    obtain ⟨x, -, rfl⟩ := List.mem_map.mp hl
    rfl
  rw [List.filter_append, List.filter_filter]
  by_cases hid : id = b
  · subst hid
    rw [if_pos rfl, List.filter_eq_self.mpr fun l hl => decide_eq_true (hmoved l hl)]
    refine congrArg _ (List.filter_congr fun l _ => ?_)
    by_cases hl : l.workId = id
    · simp [hl, h.distinct.symm]
    · simp [hl]
  · rw [if_neg hid, List.filter_eq_nil_iff.mpr fun l hl => by
      rw [hmoved l hl]
      simpa using fun heq => hid heq.symm]
    by_cases hid' : id = a
    · subst hid'
      rw [if_pos rfl, List.nil_append, List.filter_eq_nil_iff]
      intro l _
      simp
    · rw [if_neg hid', List.nil_append]
      refine List.filter_congr fun l _ => ?_
      by_cases hl : l.workId = id
      · simp [hl, hid']
      · simp [hl]

/-- The target's list after a merge: its own links, and those of the source that it lacked. -/
theorem linkShape_merged (hs : s.db.Coherent) (h : Merged s a b now s') (id : WorkId) :
    LinkShape (s'.db.linksOf id) := by
  rw [linksOf_merged h]
  split
  · constructor
    · rw [List.map_append, appendedLinks_keys, List.nodup_append]
      refine ⟨(linksToMove_keys hs).1, (hs.links b).keys, fun k hk k' hk' heq => ?_⟩
      obtain ⟨l, hl, rfl⟩ := List.mem_map.mp hk
      exact (linksToMove_keys hs).2 l hl (heq ▸ hk')
    · rw [List.map_append, appendedLinks_positions, List.length_append]
      have hlength : (appendedLinks s.db a b).length = (linksToMove s.db a b).length := by
        unfold appendedLinks
        rw [List.length_map, List.length_zipIdx]
      rw [hlength, Nat.add_comm, List.range_add]
      refine (List.perm_append_comm).trans (List.Perm.append_right _ ?_)
      exact (hs.links b).positions
  · split
    · exact linkShape_nil
    · exact hs.links id

/-- **A merge keeps the catalog coherent.** -/
theorem merge_coherent (hs : s.db.Coherent) (h : Merged s a b now s') : s'.db.Coherent := by
  obtain ⟨source, target, hsource, htarget, -, -, hconflicts, heditions, -⟩ := h.works
  rw [editions_applyEditionTextUpdates s _ _ fun u hu => mergeUpdates_lang hu,
    List.map_map] at heditions
  obtain ⟨htargetMem, htargetId⟩ := hs.work?_eq_some.mp htarget
  have hids := fun e he => mergeUpdates_mem (a := a) hs target.origLang (e := e) he
  generalize (mergeUpdates (s.db.editions.filter fun e => e.workId = a) target.origLang).map
    Prod.fst = ids at heditions hids
  -- every work is there still, under its id and in its language
  have hpoint : ∀ w : Work, (if w.mergedIntoId = some a ∨ w.id = a then
      { w with mergedIntoId := some b } else w).id = w.id ∧
      (if w.mergedIntoId = some a ∨ w.id = a then
        { w with mergedIntoId := some b } else w).origLang = w.origLang := by
    intro w
    split <;> exact ⟨rfl, rfl⟩
  have hworkIds : s'.db.works.map Work.id = s.db.works.map Work.id := by
    rw [h.workRows]
    show (s.db.works.map _).map Work.id = _
    rw [List.map_map]
    exact List.map_congr_left fun w _ => (hpoint w).1
  have hwork : ∀ {id}, (∃ w ∈ s.db.works, w.id = id) → ∃ w ∈ s'.db.works, w.id = id := by
    intro id hid
    rw [← List.mem_map (f := Work.id), hworkIds, List.mem_map]
    exact hid
  have hmoved : ∀ id, (∃ w ∈ s.db.works, w.id = id) → ∃ w ∈ s.db.works, w.id = movedFrom a b id := by
    intro id hid
    unfold movedFrom
    split
    · exact ⟨target, htargetMem, htargetId⟩
    · exact hid
  refine ⟨hworkIds ▸ hs.workIds, ?_, ?_, ?_, ?_, ?_, linkShape_merged hs h⟩
  · rw [h.translations, List.map_map]
    exact hs.translationIds
  · rw [heditions, List.map_map]
    have hsame : (s'.db.editions).map Edition.id = s.db.editions.map Edition.id := by
      rw [heditions, List.map_map]
      exact List.map_congr_left fun e _ => setLangs_id ids _ e
    rw [heditions, List.map_map] at hsame
    rw [hsame]
    exact hs.editionIds
  · intro e he
    rw [heditions] at he
    obtain ⟨e₀, he₀, rfl⟩ := List.mem_map.mp he
    refine hwork ?_
    show ∃ w ∈ s.db.works, w.id = movedFrom a b (setLangs ids _ e₀).workId
    rw [setLangs_workId]
    exact hmoved _ (hs.editionWorks e₀ he₀)
  · intro l hl
    rw [h.workAuthors] at hl
    rcases List.mem_append.mp hl with hl | hl
    · obtain ⟨x, -, rfl⟩ := List.mem_map.mp hl
      exact hwork ⟨target, htargetMem, htargetId⟩
    · exact hwork (hs.linkWorks l (List.mem_of_mem_filter hl))
  · intro e he
    rw [heditions] at he
    obtain ⟨e₀, he₀, rfl⟩ := List.mem_map.mp he
    have htext := hs.texts e₀ he₀
    have hsame : e₀.id ∉ ids → setLangs ids (target.origLang.getD "") e₀ = e₀ := fun h => if_neg h
    refine ⟨fun id hlinked => ?_, fun hkind w hw hwid lang hlang => ?_⟩
    · -- a linked edition keeps its language, and its translation moves with it
      change (setLangs ids (target.origLang.getD "") e₀).translationId = some id at hlinked
      rw [setLangs_translationId] at hlinked
      obtain ⟨t, ht, htid, htwork, hkind, htlang⟩ := htext.linked id hlinked
      have hnot : e₀.id ∉ ids := by
        intro hmem
        have horiginal := ((hids e₀ he₀).mp hmem).2.1
        rw [hkind] at horiginal
        cases horiginal
      refine ⟨{ t with workId := movedFrom a b t.workId }, ?_, htid, ?_, ?_, ?_⟩
      · rw [h.translations]
        exact List.mem_map.mpr ⟨t, ht, rfl⟩
      · show movedFrom a b t.workId = movedFrom a b (setLangs ids _ e₀).workId
        rw [setLangs_workId, htwork]
      · show (setLangs ids _ e₀).textKind = _
        rw [setLangs_textKind, hkind]
      · show (setLangs ids _ e₀).lang = _
        rw [hsame hnot, htlang]
    · change (setLangs ids (target.origLang.getD "") e₀).textKind = .original at hkind
      rw [setLangs_textKind] at hkind
      change w.id = movedFrom a b (setLangs ids (target.origLang.getD "") e₀).workId at hwid
      rw [setLangs_workId] at hwid
      rw [h.workRows] at hw
      obtain ⟨w₀, hw₀, rfl⟩ := List.mem_map.mp hw
      rw [(hpoint w₀).1] at hwid
      rw [(hpoint w₀).2] at hlang
      show (setLangs ids (target.origLang.getD "") e₀).lang = some lang
      by_cases hwork : e₀.workId = a
      · have hbwid : w₀.id = b := by rw [hwid, movedFrom, if_pos hwork]
        obtain rfl := List.inj_on_of_nodup_map hs.workIds hw₀ htargetMem
          (hbwid.trans htargetId.symm)
        rw [hlang] at hconflicts hids ⊢
        by_cases hnone : e₀.lang = none
        · have hmem : e₀.id ∈ ids :=
            (hids e₀ he₀).mpr ⟨hwork, hkind, hnone, Option.some_ne_none lang⟩
          unfold setLangs
          rw [if_pos hmem]
          rfl
        · have hnot : e₀.id ∉ ids := fun hmem => hnone ((hids e₀ he₀).mp hmem).2.2.1
          rw [show setLangs ids _ e₀ = e₀ from if_neg hnot]
          exact (lang_of_no_conflict he₀ hwork hkind hconflicts).resolve_left hnone
      · have hnot : e₀.id ∉ ids := fun hmem => hwork ((hids e₀ he₀).mp hmem).1
        rw [hsame hnot]
        rw [movedFrom, if_neg hwork] at hwid
        exact htext.original hkind w₀ hw₀ hwid lang hlang

end Merges

end Bookswap
