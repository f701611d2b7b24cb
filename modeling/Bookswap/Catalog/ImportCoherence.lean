import Bookswap.Catalog.CatalogCoherence
import Bookswap.Import.ImportWriter
import Bookswap.Lib.ScriptTriples

/-!
# An import keeps the catalog coherent

What `writeImport` leaves when it runs alone: the catalog it found, with the chains of its plan.

- `Chosen`: what `assertCatalogUnchanged` makes sure of.
- `LinkedAuthors`, `ChainText`: what a drafted chain says of its languages and positions.
- `writeImport_grows`: the rows are inserted table by table; the catalog stays coherent.
-/

namespace Bookswap

open ReadCommitted

/-! ## The chosen works -/

/-- The chosen work is there, in the language of the file or in none. -/
def Chosen (db : CatalogDb) (chain : PlannedChain) : Prop :=
  ∀ workId, chain.workId = some workId → ∃ w ∈ db.works, w.id = workId ∧
    (w.origLang = none ∨ w.origLang = some chain.catalog.work.origLang)

/-- A chain with rows that has a fault is reported. -/
theorem not_fault {chains : List PlannedChain} {locked : WorkId → Option Work} {fault : ChainFault}
    (hrows : ∀ chain ∈ chains, chain.rowNumbers ≠ []) (h : faultyRows fault locked chains = [])
    {chain : PlannedChain} (hchain : chain ∈ chains) : chainFault chain locked ≠ some fault := by
  intro hfault
  obtain ⟨n, hn⟩ := List.exists_mem_of_ne_nil _ (hrows chain hchain)
  have hmem : n ∈ faultyRows fault locked chains := by
    unfold faultyRows rowNumbersOf
    rw [List.mem_mergeSort, List.mem_flatMap]
    exact ⟨chain, List.mem_filter.mpr ⟨hchain, decide_eq_true hfault⟩, hn⟩
  rw [h] at hmem
  cases hmem

theorem assertCatalogUnchanged_wp {plan : LibraryImportCommitPlan} {db : ImportDb}
    (hrows : ∀ chain ∈ plan.chains, chain.rowNumbers ≠ []) :
    (assertCatalogUnchanged plan).Wp importSchema
      (fun _ db' => db' = db ∧ ∀ chain ∈ plan.chains, Chosen db.catalog chain) db := by
  have hlock : (lockChosenWorks plan.chains).Wp importSchema (fun locked db' => db' = db ∧
      ∀ workId w, locked workId = some w → w ∈ db.catalog.works ∧ w.id = workId) db := by
    refine Script.Wp.bind ((Script.Wp.forM (J := fun _ db' => db' = db) ?_ rfl).mono
      fun _ db' h => ?_)
    · exact fun _ _ _ _ _ h => Script.Wp.acquire h
    subst h
    refine ⟨rfl, fun workId w hw => ?_⟩
    obtain ⟨hfound, -⟩ := Option.filter_eq_some_iff.mp hw
    exact ⟨List.mem_of_find?_eq_some hfound, by simpa using List.find?_some hfound⟩
  refine Script.Wp.bind (hlock.mono fun locked db' ⟨hdb, hlocked⟩ => ?_)
  subst hdb
  show Script.Wp _ _ (if _ then _ else _) _
  split
  · trivial
  · next hmerged =>
    show Script.Wp _ _ (if _ then _ else _) _
    split
    · trivial
    · next hmismatch =>
      refine Script.Wp.select ?_
      split
      · trivial
      · refine ⟨rfl, fun chain hchain workId hworkId => ?_⟩
        have hnotmerged := not_fault hrows (not_not.mp hmerged) hchain
        have hlang := not_fault hrows (not_not.mp hmismatch) hchain
        unfold chainFault at hnotmerged hlang
        rw [hworkId] at hnotmerged hlang
        dsimp only at hnotmerged hlang
        cases hw : locked workId with
        | none =>
          rw [hw] at hnotmerged
          exact absurd rfl hnotmerged
        | some w =>
          obtain ⟨hmem, hid⟩ := hlocked workId w hw
          rw [hw] at hnotmerged hlang
          dsimp only at hnotmerged hlang
          by_cases hcanonical : w.mergedIntoId ≠ none
          · rw [if_pos hcanonical] at hnotmerged
            exact absurd rfl hnotmerged
          · rw [if_neg hcanonical] at hlang
            refine ⟨w, hmem, hid, ?_⟩
            by_contra hne
            rw [if_neg hne] at hlang
            exact hlang rfl

/-! ## Drafts -/

/-- The links of a new work are at the positions of the file. -/
structure LinkedAuthors (d : WorkDraft) : Prop where
  links : ∀ before x after, d.authors = before ++ x :: after →
    x.2.workId = d.work.id ∧ x.2.position = before.length

/-- The languages of a drafted chain. -/
structure ChainText (chain : PlannedChain) (d : ChainDraft) : Prop where
  work : (d.newWork = none ∧ chain.workId = some d.edition.workId) ∨
    ∃ w, d.newWork = some w ∧ d.edition.workId = w.work.id ∧
      w.work.origLang = some chain.catalog.work.origLang ∧ LinkedAuthors w
  text : (d.translation = none ∧ d.edition.translationId = none ∧
      d.edition.lang = some chain.catalog.work.origLang) ∨
    ∃ t, d.translation = some t ∧ d.edition.translationId = some t.id ∧
      t.workId = d.edition.workId ∧ d.edition.textKind = .translation ∧
      d.edition.lang = some t.lang

section Drafts

variable {env : ImportEnv} {E : ImportFailure → Prop}

theorem draws_linkedAuthors (ownerId : UserId) (catalog : LibraryImportResolvedWork) :
    (draftWork env ownerId catalog).Draws E fun d =>
      d.work.origLang = some catalog.origLang ∧ LinkedAuthors d := by
  intro workId
  have hauthors : (catalog.authors.zipIdx.mapM (draftAuthor env workId)).Draws E
      fun xs => List.Forall₂ (fun x y => y.2.workId = workId ∧ y.2.position = x.2)
        catalog.authors.zipIdx xs :=
    Script.Draws.mapM fun x _ _ => ⟨rfl, rfl⟩
  refine hauthors.bind fun xs hxs => ⟨rfl, ⟨fun before x after hsplit => ?_⟩⟩
  have hget : xs[before.length]? = some x := by
    rw [show xs = before ++ x :: after from hsplit,
      List.getElem?_append_right (Nat.le_refl _), Nat.sub_self]
    rfl
  obtain ⟨hlt, hx⟩ := List.getElem?_eq_some_iff.mp hget
  have hlt' : before.length < catalog.authors.zipIdx.length := by rwa [hxs.length_eq]
  have hrel := hxs.get hlt' hlt
  simp only [List.get_eq_getElem, hx, List.getElem_zipIdx] at hrel
  exact ⟨hrel.1, by omega⟩

theorem draws_chainText (ownerId : UserId) (chain : PlannedChain) :
    (draftChain env ownerId chain).Draws E (ChainText chain) := by
  have hwork : (chainWork env ownerId chain).Draws E fun x =>
      (x.2 = none ∧ chain.workId = some x.1) ∨ ∃ w, x.2 = some w ∧ x.1 = w.work.id ∧
        w.work.origLang = some chain.catalog.work.origLang ∧ LinkedAuthors w := by
    unfold chainWork
    split
    · next workId hchosen => exact .inl ⟨rfl, hchosen⟩
    · exact (draws_linkedAuthors ownerId _).bind fun w hw => .inr ⟨w, rfl, rfl, hw⟩
  refine hwork.bind fun x hx => ?_
  cases htranslation : chain.catalog.translation with
  | none => exact fun editionId => ⟨hx, .inl ⟨rfl, rfl, rfl⟩⟩
  | some t =>
    refine fun translationId editionId => ⟨hx, .inr ⟨_, rfl, rfl, rfl, ?_, rfl⟩⟩
    dsimp only
    rw [if_neg (Option.some_ne_none t)]

end Drafts

/-! ## The rows, table by table -/

/-- A loop of insertions into the catalog. -/
theorem insertCatalog_wp {J : List CatalogWrite → CatalogDb → Prop} {l : List CatalogWrite}
    {db : ImportDb}
    (hstep : ∀ done x rest c, l = done ++ x :: rest → J done c →
      (∀ key ∈ x.keys, c.taken key = false) → J (done ++ [x]) (x.apply c))
    (hstart : J [] db.catalog) :
    ((l.map ImportWrite.catalog).forM fun x => (.insert x : ImportScript Unit)).Wp importSchema
      (fun _ db' => J l db'.catalog) db := by
  have hkeys : ∀ {x : CatalogWrite} {db : ImportDb},
      (∀ key ∈ (ImportWrite.catalog x).keys, db.taken key = false) →
      ∀ key ∈ x.keys, db.catalog.taken key = false :=
    fun h key hkey => h _ (List.mem_map_of_mem hkey)
  refine (Script.Wp.insertAll (J := fun done db' => ∃ done', done = done'.map .catalog ∧
    J done' db'.catalog) (fun done x rest db' hl hJ hfree => ?_) ⟨[], rfl, hstart⟩).mono
    fun _ db' ⟨done', hdone, hJ⟩ => ?_
  · obtain ⟨done', rfl, hJ⟩ := hJ
    obtain ⟨before, after, rfl, hbefore, hafter⟩ := List.map_eq_append_iff.mp hl
    obtain ⟨y, after', rfl, rfl, -⟩ := List.map_eq_cons_iff.mp hafter
    have heq : before = done' :=
      List.map_injective_iff.mpr (fun _ _ h => ImportWrite.catalog.inj h) hbefore
    subst heq
    refine ⟨before ++ [y], by rw [List.map_append]; rfl, ?_⟩
    exact hstep before y after' db'.catalog rfl hJ (hkeys hfree)
  · have heq : l = done' :=
      List.map_injective_iff.mpr (fun _ _ h => ImportWrite.catalog.inj h) hdone
    rwa [heq]

/-- The new works of an import: their rows are there, and those of `later` have no links yet. -/
structure NewWorks (db₀ : CatalogDb) (works later : List WorkDraft) (db : CatalogDb) : Prop where
  grows : Extends db₀ db
  rows : ∀ d ∈ works, d.work ∈ db.works
  fresh : ∀ d ∈ works, ∀ w ∈ db₀.works, w.id ≠ d.work.id
  apart : (works.map fun d => d.work.id).Nodup
  unlinked : ∀ d ∈ later, db.linksOf d.work.id = []

theorem NewWorks.start {db : CatalogDb} (hdb : db.Coherent) : NewWorks db [] [] db :=
  ⟨.refl hdb, fun _ h => (nomatch h), fun _ h => (nomatch h), List.nodup_nil, fun _ h => nomatch h⟩

section Phases

variable {db₀ c : CatalogDb} {works later : List WorkDraft}

theorem NewWorks.author (h : NewWorks db₀ works later c) (a : Author) :
    NewWorks db₀ works later ((CatalogWrite.author a).apply c) :=
  ⟨h.grows.of_same rfl rfl rfl rfl, h.rows, h.fresh, h.apart, h.unlinked⟩

theorem NewWorks.work (h : NewWorks db₀ works works c) {d : WorkDraft}
    (hfree : ∀ key ∈ (CatalogWrite.work d.work).keys, c.taken key = false) :
    NewWorks db₀ (works ++ [d]) (works ++ [d]) ((CatalogWrite.work d.work).apply c) := by
  have hfresh : ∀ w ∈ c.works, w.id ≠ d.work.id := by
    have hkey := hfree _ List.mem_cons_self
    exact fun w' hw' => by simpa using List.any_eq_false.mp hkey w' hw'
  have hmem : ∀ {P : WorkDraft → Prop}, (∀ e ∈ works, P e) → P d → ∀ e ∈ works ++ [d], P e := by
    intro P hworks hd e he
    rcases List.mem_append.mp he with he | he
    · exact hworks e he
    · rw [List.mem_singleton.mp he]
      exact hd
  refine ⟨h.grows.work hfree, hmem (fun e he => List.mem_cons_of_mem _ (h.rows e he))
    List.mem_cons_self, hmem h.fresh fun w hw => hfresh w (h.grows.works w hw), ?_,
    hmem h.unlinked (h.grows.coherent.linksOf_eq_nil hfresh)⟩
  rw [List.map_append, List.nodup_append]
  refine ⟨h.apart, List.nodup_singleton _, fun id hid id' hid' => ?_⟩
  obtain ⟨e, he, rfl⟩ := List.mem_map.mp hid
  rw [List.mem_singleton.mp hid']
  exact hfresh _ (h.rows e he)

/-- **The links of one new work**, position by position. -/
theorem NewWorks.linkAll {d : WorkDraft} {db : ImportDb} (hd : LinkedAuthors d) (hmem : d ∈ works)
    (hlater : ∀ e ∈ later, e.work.id ≠ d.work.id)
    (h : NewWorks db₀ works (d :: later) db.catalog) :
    (((d.authors.map fun x => CatalogWrite.workAuthor x.2).map ImportWrite.catalog).forM
      fun x => (.insert x : ImportScript Unit)).Wp importSchema
      (fun _ db' => NewWorks db₀ works later db'.catalog) db := by
  refine (insertCatalog_wp (J := fun done c => NewWorks db₀ works later c ∧
    (c.linksOf d.work.id).length = done.length) (fun done x rest c hl ⟨hJ, hcount⟩ hfree => ?_)
    ⟨⟨h.grows, h.rows, h.fresh, h.apart, fun e he => h.unlinked e (List.mem_cons_of_mem _ he)⟩,
      by rw [h.unlinked d List.mem_cons_self]; rfl⟩).mono fun _ _ hJ => hJ.1
  obtain ⟨before, after, hauthors, hbefore, hafter⟩ := List.map_eq_append_iff.mp hl
  obtain ⟨y, after', rfl, rfl, -⟩ := List.map_eq_cons_iff.mp hafter
  have hlength : before.length = done.length := by rw [← hbefore, List.length_map]
  obtain ⟨hwork, hposition⟩ := hd.links before y after' hauthors
  have hlink := hJ.grows.link hfree ⟨d.work, hJ.rows d hmem, hwork.symm⟩
    (by rw [hwork]; exact hJ.fresh d hmem) (by rw [hwork, hcount, hposition, hlength])
  refine ⟨⟨hlink, hJ.rows, hJ.fresh, hJ.apart, fun e he => ?_⟩, ?_⟩
  · rw [Extends.linksOf_link, hwork, if_neg (hlater e he).symm]
    exact hJ.unlinked e he
  · rw [Extends.linksOf_link, if_pos hwork, List.length_cons, List.length_append, hcount]
    rfl

/-- The links of all the new works. -/
theorem NewWorks.links {db : ImportDb} {rest : List WorkDraft}
    (hlinked : ∀ d ∈ works, LinkedAuthors d) (hsub : rest.Sublist works)
    (h : NewWorks db₀ works rest db.catalog) :
    ((((rest.flatMap WorkDraft.authors).map fun x => CatalogWrite.workAuthor x.2).map
      ImportWrite.catalog).forM fun x => (.insert x : ImportScript Unit)).Wp importSchema
      (fun _ db' => NewWorks db₀ works [] db'.catalog) db := by
  induction rest generalizing db with
  | nil => exact h
  | cons d rest ih =>
    have hmem : d ∈ works := hsub.subset List.mem_cons_self
    have hapart : ∀ e ∈ rest, e.work.id ≠ d.work.id := by
      have hnodup := h.apart.sublist (hsub.map fun d => d.work.id)
      rw [List.map_cons, List.nodup_cons] at hnodup
      exact fun e he heq => hnodup.1 (List.mem_map.mpr ⟨e, he, heq⟩)
    rw [List.flatMap_cons, List.map_append, List.map_append]
    refine Script.Wp.forM_append ((h.linkAll (hlinked d hmem) hmem hapart).mono fun _ db' h => ?_)
    exact ih ((List.sublist_cons_self d rest).trans hsub) h

theorem NewWorks.translation (h : NewWorks db₀ works later c) {t : Translation}
    (hfree : ∀ key ∈ (CatalogWrite.translation t).keys, c.taken key = false) :
    NewWorks db₀ works later ((CatalogWrite.translation t).apply c) :=
  ⟨h.grows.translation hfree, h.rows, h.fresh, h.apart, h.unlinked⟩

/-- The edition of a chain: its work is new, or was chosen. -/
theorem NewWorks.edition {chains : List PlannedChain} {drafts : List ChainDraft}
    (hdrafts : List.Forall₂ ChainText chains drafts) (hchosen : ∀ chain ∈ chains, Chosen db₀ chain)
    (hworks : works = drafts.filterMap ChainDraft.newWork) (h : NewWorks db₀ works later c)
    (htranslations : ∀ t ∈ drafts.filterMap ChainDraft.translation, t ∈ c.translations)
    {d : ChainDraft} (hd : d ∈ drafts)
    (hfree : ∀ key ∈ (CatalogWrite.edition d.edition).keys, c.taken key = false) :
    NewWorks db₀ works later ((CatalogWrite.edition d.edition).apply c) := by
  obtain ⟨chain, hchain, hdraft⟩ := exists_of_forall₂ hdrafts d hd
  have hwork : ∃ w ∈ c.works, w.id = d.edition.workId ∧
      (w.origLang = none ∨ w.origLang = some chain.catalog.work.origLang) := by
    rcases hdraft.work with ⟨-, hworkId⟩ | ⟨w, hw, hworkId, horig, -⟩
    · obtain ⟨w, hw, hid, hlang⟩ := hchosen chain hchain _ hworkId
      exact ⟨w, h.grows.works w hw, hid, hlang⟩
    · have hmem : w ∈ works := by
        rw [hworks]
        exact List.mem_filterMap.mpr ⟨d, hd, hw⟩
      exact ⟨w.work, h.rows w hmem, hworkId.symm, .inr horig⟩
  obtain ⟨w, hw, hid, hlang⟩ := hwork
  refine ⟨h.grows.edition hfree ⟨w, hw, hid⟩ ⟨fun id hlinked => ?_, fun hkind w' hw' hid' lang
    horig => ?_⟩, h.rows, h.fresh, h.apart, h.unlinked⟩
  · rcases hdraft.text with ⟨-, hnone, -⟩ | ⟨t, ht, htid, htwork, hkind, htlang⟩
    · rw [hnone] at hlinked
      cases hlinked
    · rw [htid] at hlinked
      cases hlinked
      exact ⟨t, htranslations t (List.mem_filterMap.mpr ⟨d, hd, ht⟩), rfl, htwork, hkind, htlang⟩
  · rcases hdraft.text with ⟨-, -, hfile⟩ | ⟨t, -, -, -, htranslation, -⟩
    · -- the work's language, where it is known, is that of the file
      have hfound := h.grows.coherent.work?_eq_some.mpr ⟨hw', hid'⟩
      rw [h.grows.coherent.work?_eq_some.mpr ⟨hw, hid⟩] at hfound
      cases hfound
      rw [horig] at hlang
      rw [hfile]
      exact hlang.resolve_left (Option.some_ne_none lang) |>.symm
    · rw [htranslation] at hkind
      cases hkind

end Phases

/-! ## writeImport -/

/-- What is inserted from a list, row by row, has been inserted from the list. -/
theorem exists_split_of_map {α β : Type} {f : α → β} {l : List α} {done rest : List β} {x : β}
    (h : l.map f = done ++ x :: rest) :
    ∃ before a after, l = before ++ a :: after ∧ done = before.map f ∧ x = f a := by
  obtain ⟨before, after, rfl, hbefore, hafter⟩ := List.map_eq_append_iff.mp h
  obtain ⟨a, after', rfl, hx, -⟩ := List.map_eq_cons_iff.mp hafter
  exact ⟨before, a, after', rfl, hbefore.symm, hx.symm⟩

/-- The chains are inserted: authors, works, links, translations, editions. -/
theorem insertChains_wp {chains : List PlannedChain} {drafts : List ChainDraft} {db : ImportDb}
    (hdb : db.catalog.Coherent) (hdrafts : List.Forall₂ ChainText chains drafts)
    (hchosen : ∀ chain ∈ chains, Chosen db.catalog chain) :
    (((chainWrites drafts).map ImportWrite.catalog).forM
      fun x => (.insert x : ImportScript Unit)).Wp importSchema
      (fun _ db' => Extends db.catalog db'.catalog) db := by
  have hlinked : ∀ d ∈ drafts.filterMap ChainDraft.newWork, LinkedAuthors d := by
    intro w hw
    obtain ⟨d, hd, hnew⟩ := List.mem_filterMap.mp hw
    obtain ⟨chain, -, hdraft⟩ := exists_of_forall₂ hdrafts d hd
    rcases hdraft.work with ⟨hnone, -⟩ | ⟨w', hw', -, -, hlinked⟩
    · rw [hnone] at hnew
      cases hnew
    · rw [hw'] at hnew
      cases hnew
      exact hlinked
  unfold chainWrites
  dsimp only
  generalize hworks : drafts.filterMap ChainDraft.newWork = works at hlinked ⊢
  simp only [List.map_append]
  have hauthors : ∀ l : List (Author × WorkAuthor),
      (((l.map fun x => CatalogWrite.author x.1).map ImportWrite.catalog).forM
        fun x => (.insert x : ImportScript Unit)).Wp importSchema
        (fun _ db' => NewWorks db.catalog [] [] db'.catalog) db := by
    intro l
    refine insertCatalog_wp (J := fun _ c => NewWorks db.catalog [] [] c)
      (fun done x rest c hl hJ hfree => ?_) (NewWorks.start hdb)
    obtain ⟨-, a, -, -, -, rfl⟩ := exists_split_of_map hl
    exact hJ.author a.1
  have hrows : ∀ db₁ : ImportDb, NewWorks db.catalog [] [] db₁.catalog →
      (((works.map fun d => CatalogWrite.work d.work).map ImportWrite.catalog).forM
        fun x => (.insert x : ImportScript Unit)).Wp importSchema
        (fun _ db' => NewWorks db.catalog works works db'.catalog) db₁ := by
    intro db₁ h₁
    refine (insertCatalog_wp (J := fun done c =>
      NewWorks db.catalog (works.take done.length) (works.take done.length) c)
      (fun done x rest c hl hJ hfree => ?_) h₁).mono fun _ db' hJ => ?_
    · obtain ⟨before, d, after, rfl, rfl, rfl⟩ := exists_split_of_map hl
      have hnow : (before ++ d :: after).take before.length = before := List.take_left
      have hnext : (before ++ d :: after).take (before.length + 1) = before ++ [d] := by
        rw [List.take_append, List.take_of_length_le (by omega), Nat.add_sub_cancel_left]
        rfl
      rw [List.length_map, hnow] at hJ
      rw [List.length_append, List.length_map, List.length_singleton, hnext]
      exact hJ.work hfree
    · rwa [List.length_map, List.take_length] at hJ
  have htranslations : ∀ db₁ : ImportDb, NewWorks db.catalog works [] db₁.catalog →
      ((((drafts.filterMap ChainDraft.translation).map CatalogWrite.translation).map
        ImportWrite.catalog).forM fun x => (.insert x : ImportScript Unit)).Wp importSchema
        (fun _ db' => NewWorks db.catalog works [] db'.catalog ∧
          ∀ t ∈ drafts.filterMap ChainDraft.translation, t ∈ db'.catalog.translations) db₁ := by
    intro db₁ h₁
    refine (insertCatalog_wp (J := fun done c => NewWorks db.catalog works [] c ∧
      ∀ t, .translation t ∈ done → t ∈ c.translations)
      (fun done x rest c hl ⟨hJ, hdone⟩ hfree => ?_) ⟨h₁, fun t ht => nomatch ht⟩).mono
      fun _ db' ⟨hJ, hdone⟩ => ⟨hJ, fun t ht => hdone t (List.mem_map_of_mem ht)⟩
    obtain ⟨-, t, -, -, -, rfl⟩ := exists_split_of_map hl
    refine ⟨hJ.translation hfree, fun t' ht' => ?_⟩
    rcases List.mem_append.mp ht' with ht' | ht'
    · exact List.mem_cons_of_mem _ (hdone t' ht')
    · cases List.mem_singleton.mp ht'
      exact List.mem_cons_self
  have heditions : ∀ db₁ : ImportDb, NewWorks db.catalog works [] db₁.catalog →
      (∀ t ∈ drafts.filterMap ChainDraft.translation, t ∈ db₁.catalog.translations) →
      (((drafts.map fun d => CatalogWrite.edition d.edition).map ImportWrite.catalog).forM
        fun x => (.insert x : ImportScript Unit)).Wp importSchema
        (fun _ db' => NewWorks db.catalog works [] db'.catalog) db₁ := by
    intro db₁ h₁ ht₁
    refine (insertCatalog_wp (J := fun _ c => NewWorks db.catalog works [] c ∧
      ∀ t ∈ drafts.filterMap ChainDraft.translation, t ∈ c.translations)
      (fun done x rest c hl ⟨hJ, ht⟩ hfree => ?_) ⟨h₁, ht₁⟩).mono fun _ db' hJ => hJ.1
    obtain ⟨before, d, after, hsplit, -, rfl⟩ := exists_split_of_map hl
    have hd : d ∈ drafts := by
      rw [hsplit]
      exact List.mem_append_right _ List.mem_cons_self
    exact ⟨hJ.edition hdrafts hchosen hworks.symm ht hd hfree, ht⟩
  refine Script.Wp.forM_append (Script.Wp.forM_append (Script.Wp.forM_append
    (Script.Wp.forM_append ((hauthors _).mono fun _ db₁ h₁ => ?_))))
  refine (hrows db₁ h₁).mono fun _ db₂ h₂ => ?_
  refine (h₂.links hlinked (List.Sublist.refl works)).mono fun _ db₃ h₃ => ?_
  refine (htranslations db₃ h₃).mono fun _ db₄ ⟨h₄, ht₄⟩ => ?_
  exact (heditions db₄ h₄ ht₄).mono fun _ db₅ h₅ => h₅.grows

/-- **An import adds coherent rows.** -/
theorem writeImport_grows {env : ImportEnv} {now : Time} {ownerId : UserId}
    {plan : LibraryImportCommitPlan} {db : ImportDb} (hdb : db.catalog.Coherent)
    (hrows : ∀ chain ∈ plan.chains, chain.rowNumbers ≠ []) :
    (writeImport env now ownerId plan).Wp importSchema
      (fun _ db' => Extends db.catalog db'.catalog) db := by
  refine Script.Wp.bind ((assertCatalogUnchanged_wp hrows).mono fun _ db' ⟨heq, hchosen⟩ => ?_)
  subst heq
  refine Script.Wp.bind (Script.Wp.of_draws (E := fun _ => True)
    (Script.Draws.mapM fun chain _ => draws_chainText ownerId chain) fun drafts hdrafts => ?_)
  refine Script.Wp.bind (Script.Wp.of_draws (E := fun _ => True)
    (Script.Draws.mapM fun copy _ => draws_draftCopies now ownerId drafts copy fun _ => trivial)
    fun copies _ => ?_)
  refine Script.Wp.bind ?_
  unfold importWrites
  rw [List.map_append]
  refine Script.Wp.forM_append ((insertChains_wp hdb hdrafts hchosen).mono fun _ db₁ h₁ => ?_)
  refine (insertCatalog_wp (J := fun _ c => Extends db'.catalog c)
    (fun done x rest c hl hJ _ => ?_) h₁).mono fun _ _ h => h
  obtain ⟨-, copy, -, -, -, rfl⟩ := exists_split_of_map hl
  exact hJ.of_same rfl rfl rfl rfl

end Bookswap
