import Bookswap.Catalog.CatalogCoherence
import Bookswap.Lib.ScriptTriples
import Bookswap.QuickAdd.QuickAddService

/-!
# The chains keep the catalog coherent

What the scripts of catalog-chain.writer.ts and quick-add.service.ts leave when they run alone: the
tables they found, with coherent rows added.

- `Grows`: a script that only adds such rows; `HasWork`: the work that it answers.
- `createWorkIn_grows`, `createWorkFromSource_grows`: new works, with their authors.
- `createManual_grows`, `createUnspecifiedEdition_grows`, `createFromExternal_grows`: editions.
- `run_grows`: quick-add.
-/

namespace Bookswap

open Checked ReadCommitted

/-- The work is there, not merged, and in this language. -/
def HasWork (db : CatalogDb) (workId : WorkId) (origLang : Option String) : Prop :=
  ∃ w ∈ db.works, w.id = workId ∧ w.origLang = origLang

/-- The script finds a coherent catalog and adds to it, and `Q` holds of what it answers. -/
def Grows {α : Type} (p : AddScript α) (Q : α → CatalogDb → Prop) : Prop :=
  ∀ db : CatalogDb, db.Coherent → p.Wp catalogSchema (fun a db' => Extends db db' ∧ Q a db') db

theorem HasWork.extends {db db' : CatalogDb} {workId : WorkId} {origLang : Option String}
    (h : HasWork db workId origLang) (hextends : Extends db db') : HasWork db' workId origLang := by
  obtain ⟨w, hw, hwork⟩ := h
  exact ⟨w, hextends.works w hw, hwork⟩

namespace Grows

variable {α β : Type} {Q : α → CatalogDb → Prop} {p : AddScript α}

theorem bind {R : β → CatalogDb → Prop} {f : α → AddScript β} (h : Grows p Q)
    (hf : ∀ a db, db.Coherent → Q a db →
      (f a).Wp catalogSchema (fun b db' => Extends db db' ∧ R b db') db) :
    Grows (p >>= f) R := by
  intro db hdb
  refine Script.Wp.bind ((h db hdb).mono fun a db₁ ⟨hextends, hQ⟩ => ?_)
  exact (hf a db₁ hextends.coherent hQ).mono fun b db₂ ⟨h', hR⟩ => ⟨hextends.trans h', hR⟩

theorem mono {Q' : α → CatalogDb → Prop} (h : Grows p Q) (hQ : ∀ a db, Q a db → Q' a db) :
    Grows p Q' :=
  fun db hdb => (h db hdb).mono fun a db' ⟨hextends, ha⟩ => ⟨hextends, hQ a db' ha⟩

theorem pure {a : α} (h : ∀ db, Q a db) : Grows (.done a) Q := fun db hdb => ⟨.refl hdb, h db⟩

theorem throw {e : QuickAddFailure} : Grows (.throw e : AddScript α) Q := fun _ _ => trivial

theorem select {f : CatalogDb → α} (h : ∀ db, db.Coherent → Q (f db) db) :
    Grows (.select f) Q := fun db hdb => ⟨.refl hdb, h db hdb⟩

theorem ofExcept {x : Except QuickAddFailure α} (h : ∀ a db, x = .ok a → Q a db) :
    Grows (.ofExcept x) Q :=
  fun db hdb => Script.Wp.ofExcept fun a ha => ⟨.refl hdb, h a db ha⟩

/-- A row of another table. -/
theorem insert {x : CatalogWrite} (h : ∀ db, (x.apply db).works = db.works ∧
    (x.apply db).translations = db.translations ∧ (x.apply db).editions = db.editions ∧
    (x.apply db).workAuthors = db.workAuthors) : Grows (.insert x) fun _ _ => True := by
  intro db hdb _
  obtain ⟨hworks, htranslations, heditions, hlinks⟩ := h db
  exact ⟨(Extends.refl hdb).of_same hworks htranslations heditions hlinks, trivial⟩

end Grows

/-! ## Works -/

/-- The position of a row is how many stand before it. -/
theorem zipIdx_position {α : Type} {l : List α} {before after : List (α × Nat)} {x : α × Nat}
    (h : l.zipIdx = before ++ x :: after) : x.2 = before.length := by
  have hget : l.zipIdx[before.length]? = some x := by
    rw [h, List.getElem?_append_right (Nat.le_refl _), Nat.sub_self]
    rfl
  rw [List.getElem?_zipIdx, Option.map_eq_some_iff] at hget
  obtain ⟨a, -, rfl⟩ := hget
  omega

/-- A new work is being written: its row is there, with the first `n` of its links. -/
structure NewWorkRows (db₀ : CatalogDb) (w : Work) (n : Nat) (db : CatalogDb) : Prop where
  grows : Extends db₀ db
  work : w ∈ db.works
  fresh : ∀ w' ∈ db₀.works, w'.id ≠ w.id
  count : (db.linksOf w.id).length = n

namespace NewWorkRows

variable {db₀ db : CatalogDb} {w : Work} {n : Nat}

theorem start (hdb : db.Coherent)
    (hfree : ∀ key ∈ (CatalogWrite.work w).keys, db.taken key = false) :
    NewWorkRows db w 0 ((CatalogWrite.work w).apply db) where
  grows := (Extends.refl hdb).work hfree
  work := List.mem_cons_self
  fresh := by
    have hkey := hfree _ List.mem_cons_self
    exact fun w' hw' => by simpa using List.any_eq_false.mp hkey w' hw'
  count := by
    have hkey := hfree _ List.mem_cons_self
    have hnone : db.linksOf w.id = [] :=
      hdb.linksOf_eq_nil fun w' hw' => by simpa using List.any_eq_false.mp hkey w' hw'
    show (db.linksOf w.id).length = 0
    rw [hnone, List.length_nil]

theorem author (h : NewWorkRows db₀ w n db) (a : Author) :
    NewWorkRows db₀ w n ((CatalogWrite.author a).apply db) :=
  ⟨h.grows.of_same rfl rfl rfl rfl, h.work, h.fresh, h.count⟩

theorem link (h : NewWorkRows db₀ w n db) {l : WorkAuthor}
    (hfree : ∀ key ∈ (CatalogWrite.workAuthor l).keys, db.taken key = false)
    (hwork : l.workId = w.id) (hposition : l.position = n) :
    NewWorkRows db₀ w (n + 1) ((CatalogWrite.workAuthor l).apply db) where
  grows := h.grows.link hfree ⟨w, h.work, hwork.symm⟩ (by rw [hwork]; exact h.fresh)
    (by rw [hwork, h.count]; exact hposition)
  work := h.work
  fresh := h.fresh
  count := by
    rw [Extends.linksOf_link, if_pos hwork, List.length_cons, h.count]

theorem hasWork (h : NewWorkRows db₀ w n db) : HasWork db w.id w.origLang :=
  ⟨w, h.work, rfl, rfl⟩

end NewWorkRows

section Works

variable {env : QuickAddEnv} {userId : UserId}

theorem createWorkFromSource_grows {work : SourceWork} :
    Grows (createWorkFromSource env userId work) fun id db => HasWork db id work.origLang := by
  intro db hdb
  refine Script.Wp.draw fun workId => Script.Wp.insert fun hfree => ?_
  -- an author of the source is new, so each of the names is a link of its own
  refine Script.Wp.bind ((Script.Wp.forM (J := fun done db' =>
    NewWorkRows db _ done.length db') ?_ (NewWorkRows.start hdb hfree)).mono fun _ db' h => ?_)
  · intro done x rest s hl hJ authorId _ hfree
    rw [List.length_append]
    exact (hJ.author _).link hfree rfl (zipIdx_position hl)
  · exact ⟨h.grows, h.hasWork⟩

theorem createWorkIn_grows {work : NewWork} :
    Grows (createWorkIn env userId work) fun id db => HasWork db id work.origLang.join := by
  have hauthors : Grows (assertAuthorsExist (work.authors.getD [])) fun _ _ => True := by
    unfold assertAuthorsExist
    intro db hdb
    dsimp only
    split
    · exact ⟨.refl hdb, trivial⟩
    · show Script.Wp _ _ (if _ then _ else _) db
      split
      · trivial
      · exact ⟨.refl hdb, trivial⟩
  refine hauthors.bind fun _ db hdb _ => ?_
  refine Script.Wp.draw fun workId => Script.Wp.insert fun hfree => ?_
  refine Script.Wp.bind ((Script.Wp.mapM (J := fun _ _ db' => NewWorkRows db _ 0 db') ?_
    (NewWorkRows.start hdb hfree)).mono fun links db₁ h => ?_)
  · intro done bs author s hJ
    unfold linkedAuthor
    split
    · exact hJ
    · exact fun authorId _ => hJ.author _
  · refine Script.Wp.bind ((Script.Wp.forM (J := fun done db' =>
      NewWorkRows db _ done.length db') ?_ h).mono fun _ db' h => ?_)
    · intro done x rest s hl hJ hfree
      rw [List.length_append]
      exact hJ.link hfree rfl (zipIdx_position hl)
    · exact ⟨h.grows, h.hasWork⟩

theorem lockExistingWork_grows {workId : WorkId} :
    Grows (lockExistingWork workId) fun origLang db => HasWork db workId origLang := by
  intro db hdb
  unfold lockExistingWork
  refine Script.Wp.acquire (Script.Wp.select ?_)
  dsimp only
  cases hw : db.work? workId with
  | none => trivial
  | some w =>
    obtain ⟨hmem, hid⟩ := hdb.work?_eq_some.mp hw
    dsimp only
    split
    · trivial
    · exact ⟨.refl hdb, w, hmem, hid, rfl⟩

end Works

/-! ## Editions -/

/-- An edition without a translation, of a text that is not known to be the original. -/
theorem editionText_unknown {db : CatalogDb} {e : Edition} (hlinked : e.translationId = none)
    (hkind : e.textKind = .unknown) : EditionText db e where
  linked id h := by
    rw [hlinked] at h
    cases h
  original h := by
    rw [hkind] at h
    cases h

/-- The one work of its id. -/
theorem HasWork.origLang_eq {db : CatalogDb} (hdb : db.Coherent) {workId : WorkId}
    {origLang : Option String} (h : HasWork db workId origLang) {w : Work} (hw : w ∈ db.works)
    (hid : w.id = workId) : w.origLang = origLang := by
  obtain ⟨w', hw', hid', horig⟩ := h
  have hfound := hdb.work?_eq_some.mpr ⟨hw, hid⟩
  rw [hdb.work?_eq_some.mpr ⟨hw', hid'⟩] at hfound
  cases hfound
  exact horig

/-- A new edition whose text has been resolved. -/
theorem editionText_resolved {db : CatalogDb} (hdb : db.Coherent) {workId : WorkId}
    {translationId : Option TranslationId} (context : EditionTextContext)
    {text : EditionTextState} (hwork : HasWork db workId context.workOrigLang)
    (htranslation : ∀ id, translationId = some id → ∃ t ∈ db.translations, t.id = id ∧
      t.workId = workId ∧ ∀ lang, context.targetTranslation = some lang → t.lang = lang)
    (htext : ResolvedText translationId context text) {e : Edition} (hworkId : e.workId = workId)
    (hid : e.translationId = text.translationId) (hkind : e.textKind = text.textKind)
    (hlang : e.lang = text.lang) : EditionText db e where
  linked id h := by
    rw [hid, htext.translationId] at h
    obtain ⟨t, ht, htid, htwork, htlang⟩ := htranslation id h
    obtain ⟨hk, lang, htarget, hl⟩ := htext.translation (by rw [h]; exact Option.some_ne_none id)
    refine ⟨t, ht, htid, htwork.trans hworkId.symm, hkind.trans hk, ?_⟩
    rw [hlang, hl, htlang lang htarget]
  original h w hw hwid lang hlang' := by
    rw [hlang]
    refine htext.original (hkind.symm.trans h) lang ?_
    rw [← hwork.origLang_eq hdb hw (hwid.trans hworkId)]
    exact hlang'

section Editions

variable {env : QuickAddEnv} {userId : UserId}

theorem assertIsbnFree_grows {isbn13 : Option String} :
    Grows (assertIsbnFree isbn13) fun _ _ => True := by
  unfold assertIsbnFree
  intro db hdb
  split
  · exact ⟨.refl hdb, trivial⟩
  · refine Script.Wp.select ?_
    split
    · exact ⟨.refl hdb, trivial⟩
    · trivial

theorem manualWork_grows {work : QuickAddManualWork} {edition : QuickAddManualEdition} :
    Grows (manualWork env userId work edition) fun r db => HasWork db r.1 r.2 := by
  unfold manualWork
  split
  · exact lockExistingWork_grows.bind fun origLang db hdb h => ⟨.refl hdb, h⟩
  · exact createWorkIn_grows.bind fun workId db hdb h => ⟨.refl hdb, h⟩

theorem manualTranslation_grows {workId : WorkId} {translation : Option QuickAddTranslation} :
    Grows (manualTranslation userId workId translation) fun translationId db =>
      ∀ id, translationId = some id → ∃ t ∈ db.translations, t.id = id ∧ t.workId = workId ∧
        ∀ lang, translation.map QuickAddTranslation.lang = some lang → t.lang = lang := by
  cases translation with
  | none => exact Grows.pure fun db id h => nomatch h
  | some t =>
    intro db hdb
    refine Script.Wp.draw fun translationId => Script.Wp.insert fun hfree => ?_
    refine ⟨(Extends.refl hdb).translation hfree, fun id hid => ?_⟩
    cases hid
    exact ⟨_, List.mem_cons_self, rfl, rfl, fun lang hlang => Option.some.inj hlang⟩

theorem createManual_grows {target : QuickAddManualTarget} :
    Grows (createManual env userId target) fun _ _ => True := by
  refine assertIsbnFree_grows.bind fun _ db hdb _ => ?_
  refine Script.Wp.bind ((manualWork_grows db hdb).mono fun ⟨workId, origLang⟩ db₁ ⟨h₁, hwork⟩ => ?_)
  refine Script.Wp.bind ((manualTranslation_grows db₁ h₁.coherent).mono
    fun translationId db₂ ⟨h₂, htranslation⟩ => ?_)
  refine Script.Wp.bind (Script.Wp.ofExcept fun text htext => ?_)
  refine Script.Wp.draw fun editionId => Script.Wp.insert fun hfree => ?_
  refine ⟨h₁.trans (h₂.trans ((Extends.refl h₂.coherent).edition hfree ?_ ?_)), trivial⟩
  · obtain ⟨w, hw, hid, -⟩ := hwork.extends h₂
    exact ⟨w, hw, hid⟩
  · have hresolved := resolveEditionText_sound (of_textOrThrow_ok htext)
    have hlinked : (translationId.map some).getD NEW_EDITION.translationId = translationId := by
      cases translationId <;> rfl
    rw [Option.getD_none, hlinked] at hresolved
    exact editionText_resolved h₂.coherent _ (hwork.extends h₂) htranslation hresolved rfl rfl rfl rfl

theorem createUnspecifiedEdition_grows {workId : WorkId} {coverUrl : Option String} :
    Grows (createUnspecifiedEdition userId workId coverUrl) fun _ _ => True := by
  refine lockExistingWork_grows.bind fun origLang db hdb ⟨w, hw, hid, _⟩ => ?_
  refine Script.Wp.draw fun editionId => Script.Wp.insert fun hfree => ?_
  exact ⟨(Extends.refl hdb).edition hfree ⟨w, hw, hid⟩ (editionText_unknown rfl rfl), trivial⟩

theorem createFromExternal_grows {metadata : ExternalMetadata} {isbn13 : Option String} :
    Grows (createFromExternal env userId metadata isbn13) fun _ _ => True := by
  refine createWorkFromSource_grows.bind fun workId db hdb ⟨w, hw, hid, _⟩ => ?_
  refine Script.Wp.draw fun editionId => Script.Wp.insert fun hfree => ?_
  exact ⟨(Extends.refl hdb).edition hfree ⟨w, hw, hid⟩ (editionText_unknown rfl rfl), trivial⟩

end Editions

/-! ## Quick-add -/

section QuickAdd

variable {env : QuickAddEnv} {userId : UserId}

theorem Grows.of_reads {α : Type} {p : AddScript α} (h : p.Reads fun _ => True) :
    Grows p fun _ _ => True := by
  intro db hdb
  induction p with
  | done a => exact ⟨.refl hdb, trivial⟩
  | throw e => trivial
  | query k ih => exact ih _ (h _)
  | newId k ih => exact fun i => ih i (h i)
  | ask q k ih => exact fun r => ih r (h r)
  | write | writeNew | lock => exact h.elim

theorem Grows.weaken {α : Type} {p : AddScript α} {Q : α → CatalogDb → Prop} (h : Grows p Q) :
    Grows p fun _ _ => True := h.mono fun _ _ _ => trivial

/-- One after the other. -/
theorem Grows.seq {α β : Type} {p : AddScript α} {f : α → AddScript β} {Q : α → CatalogDb → Prop}
    (h : Grows p Q) (hf : ∀ a, Grows (f a) fun _ _ => True) : Grows (p >>= f) fun _ _ => True :=
  h.bind fun a db hdb _ => hf a db hdb

theorem existingEditionId_grows {editionId : EditionId} :
    Grows (existingEditionId editionId) fun _ _ => True := by
  unfold existingEditionId
  refine .of_reads (Script.Reads.select fun db => ?_)
  cases db.edition? editionId <;> trivial

theorem findLocal_reads {isbnFirst : Bool} {identity : LocalIdentity} :
    (ExternalEdition.findLocal isbnFirst identity).Reads fun _ => True := by
  have hisbn : (ExternalEdition.byIsbn identity.isbn13).Reads fun _ => True := by
    unfold ExternalEdition.byIsbn
    split
    · trivial
    · exact fun _ => trivial
  have hreference : (ExternalEdition.byReference identity.reference).Reads fun _ => True := by
    unfold ExternalEdition.byReference
    split
    · trivial
    · exact fun _ => trivial
  have hlast : ∀ x y, Script.Reads (fun _ => True)
      (.ofExcept (ExternalEdition.resolveLocal identity x y) : AddScript LocalResolution) :=
    fun x y => .ofExcept fun _ _ => trivial
  unfold ExternalEdition.findLocal
  split
  · exact hisbn.bind fun x _ => hreference.bind fun y _ => hlast x y
  · exact hreference.bind fun y _ => hisbn.bind fun x _ => hlast x y

theorem rememberReference_grows {editionId : EditionId} {reference : ExternalReferenceKey} :
    Grows (rememberReference editionId reference) fun _ _ => True := by
  -- the reference is there already, or it is inserted
  have hinserted : Grows (.insertNew (.editionReference ⟨reference, editionId⟩)) fun _ _ => True :=
    fun db hdb => ⟨fun _ => ⟨.refl hdb, trivial⟩,
      fun _ => ⟨(Extends.refl hdb).of_same rfl rfl rfl rfl, trivial⟩⟩
  unfold rememberReference
  refine hinserted.seq fun _ => Grows.of_reads (Script.Reads.select fun db => ?_)
  cases db.editionReference? reference with
  | none => trivial
  | some stored =>
    dsimp only
    split <;> trivial

theorem rememberConfirmed_grows {editionId : EditionId}
    {reference : Option ExternalReferenceKey} :
    Grows (rememberConfirmed editionId reference) fun _ _ => True := by
  cases reference with
  | none => exact Grows.pure fun _ => trivial
  | some reference => exact rememberReference_grows

theorem createRefinedEdition_grows {target : QuickAddExternalEditionTarget}
    {confirmed : ConfirmedExternalEdition} :
    Grows (createRefinedEdition env userId target confirmed) fun _ _ => True :=
  createWorkFromSource_grows.seq fun _ => createManual_grows

theorem foundEditionId_grows {target : QuickAddExternalEditionTarget}
    {confirmed : Option ConfirmedExternalEdition} {referenceKnown : Bool} {editionId : EditionId} :
    Grows (foundEditionId target confirmed referenceKnown editionId) fun _ _ => True := by
  unfold foundEditionId
  split
  · exact Grows.throw
  · split
    · exact rememberConfirmed_grows.seq fun _ => Grows.pure fun _ => trivial
    · exact Grows.pure fun _ => trivial

theorem createdEditionId_grows {target : QuickAddExternalEditionTarget}
    {confirmed : Option ConfirmedExternalEdition} :
    Grows (createdEditionId env userId target confirmed) fun _ _ => True := by
  cases confirmed with
  | none => exact Grows.throw
  | some confirmed =>
    have hafter : ∀ editionId, Grows (do
        rememberConfirmed editionId confirmed.reference
        return editionId : AddScript EditionId) fun _ _ => True :=
      fun _ => rememberConfirmed_grows.seq fun _ => Grows.pure fun _ => trivial
    unfold createdEditionId
    dsimp only
    split
    · exact createRefinedEdition_grows.seq hafter
    · exact createFromExternal_grows.seq hafter

theorem externalEditionId_grows {target : QuickAddExternalEditionTarget}
    {confirmed : Option ConfirmedExternalEdition} :
    Grows (externalEditionId env userId target confirmed) fun _ _ => True := by
  refine (Grows.of_reads findLocal_reads).seq fun found => ?_
  cases found.editionId with
  | some editionId => exact foundEditionId_grows
  | none => exact createdEditionId_grows

theorem workOfRecord_grows {key : ExternalReferenceKey} {confirmed : Option ConfirmedExternalWork}
    {known : Option KnownExternalWork} :
    Grows (workOfRecord env userId key confirmed known) fun _ _ => True := by
  unfold workOfRecord
  split
  · exact Grows.of_reads fun _ => trivial
  · split
    · exact Grows.throw
    · refine createWorkFromSource_grows.seq fun workId => ?_
      have hreference : Grows (.insert (.workReference ⟨key, workId, none⟩)) fun _ _ => True :=
        Grows.insert fun db => ⟨rfl, rfl, rfl, rfl⟩
      exact hreference.seq fun _ => Grows.pure fun _ => trivial

theorem unspecifiedEditionId_grows {key : ExternalReferenceKey}
    {confirmed : Option ConfirmedExternalWork} {known : Option KnownExternalWork}
    {workId : WorkId} :
    Grows (unspecifiedEditionId userId key confirmed known workId) fun _ _ => True := by
  unfold unspecifiedEditionId
  split
  · exact Grows.pure fun _ => trivial
  · refine createUnspecifiedEdition_grows.seq fun editionId => ?_
    have hreference : Grows (.insert (.workReferenceEdition key editionId)) fun _ _ => True :=
      Grows.insert fun db => ⟨rfl, rfl, rfl, rfl⟩
    exact hreference.seq fun _ => Grows.pure fun _ => trivial

/-- A lock changes nothing. -/
theorem Grows.acquire {n : LockName} : Grows (.acquire n) fun _ _ => True :=
  fun _ hdb => ⟨.refl hdb, trivial⟩

theorem externalWorkEditionId_grows {target : QuickAddExternalWorkTarget}
    {confirmed : Option ConfirmedExternalWork} :
    Grows (externalWorkEditionId env userId target confirmed) fun _ _ => True := by
  have hknown : Grows (ExternalWork.findLocal target.key) fun _ _ => True :=
    Grows.of_reads fun _ => trivial
  refine Grows.acquire.seq fun _ => hknown.seq fun known => ?_
  show Grows (if _ then _ else _) _
  split
  · exact Grows.throw
  · refine workOfRecord_grows.seq fun workId => ?_
    show Grows (if _ then _ else _) _
    split
    · exact createManual_grows
    · exact unspecifiedEditionId_grows

theorem editionIdFor_grows {target : QuickAddTarget} {prepared : PreparedExternal} :
    Grows (editionIdFor env userId target prepared) fun _ _ => True := by
  cases target with
  | existingEdition editionId => exact existingEditionId_grows
  | manual target => exact createManual_grows
  | externalEdition target => exact externalEditionId_grows
  | externalWork target => exact externalWorkEditionId_grows

theorem createCopy_grows {now : Time} {editionId : EditionId} {values : Option QuickAddCopy} :
    Grows (createCopy now userId editionId values) fun _ _ => True := by
  have hvisibility : Grows (newCopyVisibility userId (values.bind QuickAddCopy.visibility))
      fun _ _ => True := by
    unfold newCopyVisibility
    split
    · exact Grows.pure fun _ => trivial
    · refine Grows.of_reads (Script.Reads.select fun db => ?_)
      cases db.user? userId <;> trivial
  refine hvisibility.seq fun visibility db hdb => ?_
  exact fun id _ => ⟨(Extends.refl hdb).of_same rfl rfl rfl rfl, trivial⟩

/-- **Quick-add adds coherent rows.** -/
theorem run_grows {now : Time} {request : QuickAddRequest} {prepared : PreparedExternal} :
    Grows (run env now userId request prepared) fun _ _ => True := by
  have hearlier : Grows (.select fun db => db.operation? userId request.operationId)
      fun _ _ => True := Grows.of_reads fun _ => trivial
  refine Grows.acquire.seq fun _ => hearlier.seq fun earlier => ?_
  cases earlier with
  | none =>
    refine editionIdFor_grows.seq fun editionId => createCopy_grows.seq fun copy => ?_
    have hoperation : Grows (.insert (.operation ⟨userId, request.operationId,
        requestHashOf env.sha256 request, request.target.kind, copy.editionId, some copy.id⟩))
        fun _ _ => True := Grows.insert fun db => ⟨rfl, rfl, rfl, rfl⟩
    exact hoperation.seq fun _ => Grows.pure fun _ => trivial
  | some earlier =>
    show Grows (replay env userId request earlier) _
    unfold replay
    split
    · exact Grows.throw
    · have hcopy : Grows (earlierCopy userId earlier.copyId) fun _ _ => True := by
        unfold earlierCopy
        split
        · exact Grows.pure fun _ => trivial
        · exact Grows.of_reads fun _ => trivial
      refine hcopy.seq fun copy => ?_
      cases copy with
      | none => exact Grows.throw
      | some copy => exact Grows.pure fun _ => trivial

end QuickAdd

end Bookswap
