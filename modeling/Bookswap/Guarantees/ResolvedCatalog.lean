import Bookswap.Guarantees.NewWorkChoice

/-!
# The chain of a row

`buildResolvedCatalog` puts together what the file gives and what a lookup found. The values of a
row have passed the schemas of their fields, so the schema of the chain leaves them as they are
(`filled`, `filledOptional`) and can only refuse what came from the lookup.

- `ResolvedFrom`: what a complete chain has of either source.
- `Reported`: why a column may be reported.
- `resolved_catalog`: there is no third outcome.
-/

namespace Bookswap

open Normalizing

/-- A value that the file gives is kept; a missing one is read from the lookup. -/
def Filled {α : Type} (schema : α → Option α) (given found : Option α) (kept : α) : Prop :=
  match given with
  | some value => kept = value
  | none => ∃ value, found = some value ∧ schema value = some kept

/-- The same for a value that may stay missing. -/
def FilledOptional {α : Type} (schema : α → Option α) (given found kept : Option α) : Prop :=
  match given, found with
  | some value, _ => kept = some value
  | none, some value => ∃ read, schema value = some read ∧ kept = some read
  | none, none => kept = none

/-- The language of the edition: the file's, the lookup's, or the original one. -/
def editionLanguage (values : LibraryImportRowValues) (lookup : Option BookLookupResult)
    (origLang : String) : String :=
  (values.editionLang <|> lookup.bind BookLookupResult.language).getD origLang

/-- The authors that the lookup names. -/
def foundAuthors (lookup : Option BookLookupResult) : Option (List String) :=
  nonEmpty (lookup.bind BookLookupResult.authors)

variable (env : ImportEnv) (values : LibraryImportRowValues) (lookup : Option BookLookupResult)

/-- The translation of a chain is the one that the file describes, in the language of the
edition. -/
structure TranslationFrom (origLang : String) (t : LibraryImportResolvedTranslation) : Prop where
  translator : values.translator = some t.translator
  lang : languageCodeSchema (editionLanguage values lookup origLang) = some t.lang
  lang_kept : isLanguageCode (editionLanguage values lookup origLang) = true →
    t.lang = editionLanguage values lookup origLang
  sourceLang : t.sourceLang = values.translationSourceLang.getD origLang
  year : t.year = values.translationYear
  isAbridged : t.isAbridged = values.isAbridged.getD false
  hasNotes : t.hasNotes = values.hasNotes.getD false
  notes : t.notes = values.translationNotes

/-- What a complete chain has of the file and of the lookup. -/
structure ResolvedFrom (catalog : LibraryImportResolvedCatalog) : Prop where
  accepted : libraryImportResolvedCatalogSchema env catalog = some catalog
  title : Filled titleSchema values.title (lookup.map BookLookupResult.title) catalog.work.title
  authors : Filled authorsSchema values.authors (foundAuthors lookup) catalog.work.authors
  origLang : values.origLang = some catalog.work.origLang
  firstPubYear : catalog.work.firstPubYear = values.firstPubYear
  isbn13 : catalog.edition.isbn13 = values.isbn13
  publisher : FilledOptional publisherSchema values.publisher
    (lookup.bind BookLookupResult.publisher) catalog.edition.publisher
  year : FilledOptional yearSchema values.editionYear
    (lookup.bind BookLookupResult.publishedYear) catalog.edition.year
  pageCount : FilledOptional pageCountSchema values.pageCount
    (lookup.bind BookLookupResult.pageCount) catalog.edition.pageCount
  coverUrl : FilledOptional (coverUrlSchema env) values.coverUrl
    (lookup.bind BookLookupResult.coverUrl) catalog.edition.coverUrl
  format : catalog.edition.format = values.format
  original : catalog.translation = none ↔
    editionLanguage values lookup catalog.work.origLang = catalog.work.origLang
  nothing_dropped : catalog.translation = none → translationColumnsGiven values = []
  translation : ∀ t, catalog.translation = some t →
    TranslationFrom values lookup catalog.work.origLang t

/-- The chain that is offered to the schema. -/
def candidateOf (title : String) (authors : List String) (origLang : String) :
    LibraryImportResolvedCatalog :=
  { work := { title, authors, origLang, firstPubYear := values.firstPubYear }
    translation :=
      if editionLanguage values lookup origLang ≠ origLang then
        values.translator.map fun translator =>
          { translator
            lang := editionLanguage values lookup origLang
            sourceLang := values.translationSourceLang.getD origLang
            year := values.translationYear
            isAbridged := values.isAbridged.getD false
            hasNotes := values.hasNotes.getD false
            notes := values.translationNotes }
      else none
    edition :=
      { isbn13 := values.isbn13
        publisher := values.publisher <|> lookup.bind BookLookupResult.publisher
        year := values.editionYear <|> lookup.bind BookLookupResult.publishedYear
        pageCount := values.pageCount <|> lookup.bind BookLookupResult.pageCount
        coverUrl := values.coverUrl <|> lookup.bind BookLookupResult.coverUrl
        format := values.format } }

/-- Neither the file nor the lookup has the value. -/
def MissingIn : LibraryImportColumn → Prop
  | .title => values.title = none ∧ lookup.map BookLookupResult.title = none
  | .authors => values.authors = none ∧ foundAuthors lookup = none
  | .origLang => values.origLang = none
  | .translator => values.translator = none ∧
    ∃ origLang, values.origLang = some origLang ∧ editionLanguage values lookup origLang ≠ origLang
  | _ => False

/-- The schema refuses the value of the column in the chain of both sources. -/
def InvalidIn (column : LibraryImportColumn) : Prop :=
  ∃ title authors origLang,
    (values.title <|> lookup.map BookLookupResult.title) = some title ∧
    (values.authors <|> foundAuthors lookup) = some authors ∧ values.origLang = some origLang ∧
    refusesField env (candidateOf values lookup title authors origLang) column = true

/-- The edition is in the original language, and the values say that it is a translation. -/
def ContradictsIn (column : LibraryImportColumn) : Prop :=
  (∃ origLang, values.origLang = some origLang ∧
    editionLanguage values lookup origLang = origLang) ∧
  translationColumnsGiven values ≠ [] ∧
  (column = .editionLang ∨ column ∈ translationColumnsGiven values)

/-- Why a column may be reported. -/
def Reported (column : LibraryImportColumn) : Prop :=
  MissingIn values lookup column ∨ InvalidIn env values lookup column ∨
    ContradictsIn values lookup column

variable {env} {values} {lookup}

/-! ## Values and their schemas -/

/-- A value that has passed its schema is kept by it. -/
theorem filled {α : Type} {schema : α → Option α} {given found : Option α} {value kept : α}
    (hgiven : optional schema given = some given) (hvalue : (given <|> found) = some value)
    (hkept : schema value = some kept) : Filled schema given found kept := by
  cases given with
  | none => exact ⟨value, hvalue, hkept⟩
  | some v =>
    cases hvalue
    obtain ⟨w, hw, hv⟩ := Option.map_eq_some_iff.mp hgiven
    cases hv
    exact (Option.some.inj (hw.symm.trans hkept)).symm

theorem filledOptional {α : Type} {schema : α → Option α} {given found kept : Option α}
    (hgiven : optional schema given = some given)
    (hkept : optional schema (given <|> found) = some kept) :
    FilledOptional schema given found kept := by
  cases given with
  | none =>
    cases found with
    | none => exact (Option.some.inj hkept).symm
    | some value =>
      obtain ⟨read, hread, rfl⟩ := Option.map_eq_some_iff.mp hkept
      exact ⟨read, hread, rfl⟩
  | some v => exact Option.some.inj (hkept.symm.trans hgiven)

/-- The schema of a given value leaves it. -/
theorem kept_of_given {α : Type} {schema : α → Option α} {given kept : Option α}
    (hgiven : optional schema given = some given) (hkept : optional schema given = some kept) :
    kept = given := Option.some.inj (hkept.symm.trans hgiven)

theorem schema_of_given {α : Type} {schema : α → Option α} {given : Option α} {value : α}
    (hgiven : optional schema given = some given) (hvalue : given = some value) :
    schema value = some value := by
  subst hvalue
  obtain ⟨w, hw, hv⟩ := Option.map_eq_some_iff.mp hgiven
  cases hv
  exact hw

/-- A language code is left by its schema. -/
theorem languageCodeSchema_code {language : String} (h : isLanguageCode language = true) :
    languageCodeSchema language = some language :=
  canonical_eq_some.mpr ⟨(toLowerCase_languageCode language (of_decide_eq_true h)).symm, h⟩

/-- What the schema of stored values says of each field of the chain. -/
structure StoredValues (env : ImportEnv) (values : LibraryImportRowValues) : Prop where
  isbn13 : isbn13Schema values.isbn13 = some values.isbn13
  title : optional titleSchema values.title = some values.title
  authors : optional authorsSchema values.authors = some values.authors
  origLang : optional languageCodeSchema values.origLang = some values.origLang
  firstPubYear : optional yearSchema values.firstPubYear = some values.firstPubYear
  editionLang : optional languageCodeSchema values.editionLang = some values.editionLang
  translator : optional translatorSchema values.translator = some values.translator
  sourceLang : optional languageCodeSchema values.translationSourceLang =
    some values.translationSourceLang
  translationYear : optional yearSchema values.translationYear = some values.translationYear
  notes : optional translationNotesSchema values.translationNotes = some values.translationNotes
  publisher : optional publisherSchema values.publisher = some values.publisher
  editionYear : optional yearSchema values.editionYear = some values.editionYear
  pageCount : optional pageCountSchema values.pageCount = some values.pageCount
  coverUrl : optional (coverUrlSchema env) values.coverUrl = some values.coverUrl

theorem storedValues (h : libraryImportRowValuesSchema env values = some values) :
    StoredValues env values := by
  unfold libraryImportRowValuesSchema at h
  simp only [↓do_eq_some, Option.pure_def, Option.some.injEq] at h
  obtain ⟨isbn13, h₁, title, h₂, authors, h₃, origLang, h₄, firstPubYear, h₅, editionLang, h₆,
    translator, h₇, sourceLang, h₈, translationYear, h₉, notes, h₁₀, publisher, h₁₁, editionYear,
    h₁₂, pageCount, h₁₃, coverUrl, h₁₄, note, -, quantity, -, hv⟩ := h
  exact
    { isbn13 := h₁.trans (congrArg some (congrArg LibraryImportRowValues.isbn13 hv))
      title := h₂.trans (congrArg some (congrArg LibraryImportRowValues.title hv))
      authors := h₃.trans (congrArg some (congrArg LibraryImportRowValues.authors hv))
      origLang := h₄.trans (congrArg some (congrArg LibraryImportRowValues.origLang hv))
      firstPubYear := h₅.trans (congrArg some (congrArg LibraryImportRowValues.firstPubYear hv))
      editionLang := h₆.trans (congrArg some (congrArg LibraryImportRowValues.editionLang hv))
      translator := h₇.trans (congrArg some (congrArg LibraryImportRowValues.translator hv))
      sourceLang :=
        h₈.trans (congrArg some (congrArg LibraryImportRowValues.translationSourceLang hv))
      translationYear :=
        h₉.trans (congrArg some (congrArg LibraryImportRowValues.translationYear hv))
      notes := h₁₀.trans (congrArg some (congrArg LibraryImportRowValues.translationNotes hv))
      publisher := h₁₁.trans (congrArg some (congrArg LibraryImportRowValues.publisher hv))
      editionYear := h₁₂.trans (congrArg some (congrArg LibraryImportRowValues.editionYear hv))
      pageCount := h₁₃.trans (congrArg some (congrArg LibraryImportRowValues.pageCount hv))
      coverUrl := h₁₄.trans (congrArg some (congrArg LibraryImportRowValues.coverUrl hv)) }

/-! ## The three outcomes -/

variable (env) (values) (lookup) in
/-- **What becomes of a row** whose title, authors and original language are known. -/
theorem assembleCatalog_cases (title : String) (authors : List String) (origLang : String) :
    ((editionLanguage values lookup origLang ≠ origLang ∧ values.translator = none) ∧
      assembleCatalog env values lookup title authors origLang = .incomplete [.translator]) ∨
    ((editionLanguage values lookup origLang = origLang ∧ translationColumnsGiven values ≠ []) ∧
      assembleCatalog env values lookup title authors origLang =
        .conflicting (.editionLang :: translationColumnsGiven values)) ∨
    (¬ (editionLanguage values lookup origLang ≠ origLang ∧ values.translator = none) ∧
      ¬ (editionLanguage values lookup origLang = origLang ∧
        translationColumnsGiven values ≠ []) ∧
      ((∃ catalog, libraryImportResolvedCatalogSchema env
          (candidateOf values lookup title authors origLang) = some catalog ∧
        assembleCatalog env values lookup title authors origLang = .complete catalog) ∨
      libraryImportResolvedCatalogSchema env
          (candidateOf values lookup title authors origLang) = none ∧
        assembleCatalog env values lookup title authors origLang =
          .incomplete
            (columnsOfIssues env (candidateOf values lookup title authors origLang)))) := by
  generalize hres : assembleCatalog env values lookup title authors origLang = res
  unfold assembleCatalog at hres
  extract_lets editionLang needsTranslation candidate at hres
  have hlang : editionLang = editionLanguage values lookup origLang := rfl
  have hneeds : needsTranslation = true ↔ editionLanguage values lookup origLang ≠ origLang := by
    simp [needsTranslation, hlang]
  have hcandidate : candidate = candidateOf values lookup title authors origLang := by
    simp only [candidate, candidateOf, hneeds]
    rfl
  clear_value candidate needsTranslation
  subst hcandidate
  split at hres
  next h => exact .inl ⟨⟨hneeds.mp h.1, h.2⟩, hres.symm⟩
  next h =>
    split at hres
    next h' =>
      exact .inr (.inl ⟨⟨not_not.mp fun hne => h'.1 (hneeds.mpr hne), h'.2⟩, hres.symm⟩)
    next h' =>
      refine .inr (.inr ⟨fun hc => h ⟨hneeds.mpr hc.1, hc.2⟩,
        fun hc => h' ⟨fun hne => hneeds.mp hne hc.1, hc.2⟩, ?_⟩)
      split at hres
      next catalog hcatalog => exact .inl ⟨catalog, hcatalog, hres.symm⟩
      next hnone => exact .inr ⟨hnone, hres.symm⟩

/-- The schema leaves a translation out only when there is none, and changes nothing that the file
says of it. -/
theorem translation_kept (hvalues : StoredValues env values) {title : String}
    {authors : List String} {origLang : String} (horig : values.origLang = some origLang)
    {kept : Option LibraryImportResolvedTranslation}
    (h : optional libraryImportResolvedTranslationSchema
      (candidateOf values lookup title authors origLang).translation = some kept) :
    (kept = none ↔ (candidateOf values lookup title authors origLang).translation = none) ∧
      ∀ t, kept = some t → TranslationFrom values lookup origLang t := by
  cases ht : (candidateOf values lookup title authors origLang).translation with
  | none =>
    rw [ht] at h
    cases h
    exact ⟨Iff.rfl, fun t ht => nomatch ht⟩
  | some t =>
    rw [ht] at h
    obtain ⟨read, hread, rfl⟩ := Option.map_eq_some_iff.mp h
    refine ⟨iff_of_false (Option.some_ne_none _) (Option.some_ne_none _), fun t' ht' => ?_⟩
    cases ht'
    unfold candidateOf at ht
    dsimp only at ht
    split at ht
    · obtain ⟨translator, htranslator, rfl⟩ := Option.map_eq_some_iff.mp ht
      have hsource : languageCodeSchema (values.translationSourceLang.getD origLang) =
          some (values.translationSourceLang.getD origLang) := by
        cases hlang : values.translationSourceLang with
        | some language => exact schema_of_given hvalues.sourceLang hlang
        | none => exact schema_of_given hvalues.origLang horig
      simp only [libraryImportResolvedTranslationSchema, ↓do_eq_some, Option.pure_def,
        Option.some.injEq] at hread
      obtain ⟨tr, htr, lang, hlang, source, hs, year, hyear, notes, hnotes, rfl⟩ := hread
      cases (schema_of_given hvalues.translator htranslator).symm.trans htr
      cases hsource.symm.trans hs
      exact
        { translator := htranslator
          lang := hlang
          lang_kept := fun hcode =>
            Option.some.inj (hlang.symm.trans (languageCodeSchema_code hcode))
          sourceLang := rfl
          year := kept_of_given hvalues.translationYear hyear
          isAbridged := rfl
          hasNotes := rfl
          notes := kept_of_given hvalues.notes hnotes }
    · cases ht

/-- **A complete chain** has what the file gives, and the rest of the lookup. -/
theorem resolvedFrom_of_schema (hvalues : StoredValues env values)
    {title : String} {authors : List String} {origLang : String}
    (htitle : (values.title <|> lookup.map BookLookupResult.title) = some title)
    (hauthors : (values.authors <|> foundAuthors lookup) = some authors)
    (horig : values.origLang = some origLang) {catalog : LibraryImportResolvedCatalog}
    (htranslator : ¬ (editionLanguage values lookup origLang ≠ origLang ∧ values.translator = none))
    (hgiven : ¬ (editionLanguage values lookup origLang = origLang ∧
      translationColumnsGiven values ≠ []))
    (h : libraryImportResolvedCatalogSchema env (candidateOf values lookup title authors origLang) =
      some catalog) : ResolvedFrom env values lookup catalog := by
  have haccepted := normalizes_resolvedCatalogSchema env _ _ h
  simp only [libraryImportResolvedCatalogSchema, ↓do_eq_some, Option.pure_def,
    Option.some.injEq] at h
  obtain ⟨work, hwork, translation, htranslation, edition, hedition, rfl⟩ := h
  obtain ⟨hkept, hfrom⟩ := translation_kept hvalues horig htranslation
  simp only [libraryImportResolvedWorkSchema, candidateOf, ↓do_eq_some, Option.pure_def,
    Option.some.injEq] at hwork
  obtain ⟨title', ht, authors', ha, origLang', ho, year, hy, rfl⟩ := hwork
  cases (schema_of_given hvalues.origLang horig).symm.trans ho
  simp only [libraryImportResolvedEditionSchema, candidateOf, ↓do_eq_some, Option.pure_def,
    Option.some.injEq] at hedition
  obtain ⟨isbn13, hisbn, publisher, hpublisher, editionYear, hyear, pageCount, hpages, coverUrl,
    hcover, rfl⟩ := hedition
  have hnone : translation = none ↔ editionLanguage values lookup origLang = origLang := by
    rw [hkept, candidateOf]
    dsimp only
    split
    next hne =>
      refine iff_of_false (fun hmap => htranslator ⟨hne, ?_⟩) hne
      exact Option.map_eq_none_iff.mp hmap
    next heq => exact iff_of_true rfl (not_not.mp heq)
  exact
    { accepted := haccepted
      title := filled hvalues.title htitle ht
      authors := filled hvalues.authors hauthors ha
      origLang := horig
      firstPubYear := kept_of_given hvalues.firstPubYear hy
      isbn13 := (Option.some.inj (hvalues.isbn13.symm.trans hisbn)).symm
      publisher := filledOptional hvalues.publisher hpublisher
      year := filledOptional hvalues.editionYear hyear
      pageCount := filledOptional hvalues.pageCount hpages
      coverUrl := filledOptional hvalues.coverUrl hcover
      format := rfl
      original := hnone
      nothing_dropped := fun hno => not_not.mp fun hne => hgiven ⟨hnone.mp hno, hne⟩
      translation := hfrom }

/-- The schema refuses a chain because of a field of `COLUMN_BY_PATH`. -/
theorem exists_refusesField {c : LibraryImportResolvedCatalog}
    (h : libraryImportResolvedCatalogSchema env c = none) :
    ∃ column ∈ COLUMN_BY_PATH, refusesField env c column = true := by
  by_contra hall
  have hsome : ∀ column ∈ COLUMN_BY_PATH, refusesField env c column = false := fun column hmem =>
    Bool.eq_false_iff.mpr fun hrefuses => hall ⟨column, hmem, hrefuses⟩
  have hpart : ∀ {α : Type} (o : Option α), o.isNone = false → ∃ a, o = some a := fun o ho =>
    Option.isSome_iff_exists.mp (by simpa using ho)
  have hwork : ∃ work, libraryImportResolvedWorkSchema c.work = some work := by
    obtain ⟨title, h₁⟩ := hpart (titleSchema c.work.title) (hsome .title (by decide))
    obtain ⟨authors, h₂⟩ := hpart (authorsSchema c.work.authors) (hsome .authors (by decide))
    obtain ⟨origLang, h₃⟩ := hpart (languageCodeSchema c.work.origLang)
      (hsome .origLang (by decide))
    obtain ⟨year, h₄⟩ := hpart (optional yearSchema c.work.firstPubYear)
      (hsome .firstPubYear (by decide))
    exact ⟨⟨title, authors, origLang, year⟩, by
      simp only [libraryImportResolvedWorkSchema, h₁, h₂, h₃, h₄, Option.bind_eq_bind,
        Option.bind_some, Option.pure_def]⟩
  have hedition : ∃ edition, libraryImportResolvedEditionSchema env c.edition = some edition := by
    obtain ⟨isbn13, h₁⟩ := hpart (isbn13Schema c.edition.isbn13) (hsome .isbn13 (by decide))
    obtain ⟨publisher, h₂⟩ := hpart (optional publisherSchema c.edition.publisher)
      (hsome .publisher (by decide))
    obtain ⟨year, h₃⟩ := hpart (optional yearSchema c.edition.year)
      (hsome .editionYear (by decide))
    obtain ⟨pageCount, h₄⟩ := hpart (optional pageCountSchema c.edition.pageCount)
      (hsome .pageCount (by decide))
    obtain ⟨coverUrl, h₅⟩ := hpart (optional (coverUrlSchema env) c.edition.coverUrl)
      (hsome .coverUrl (by decide))
    exact ⟨⟨isbn13, publisher, year, pageCount, coverUrl, c.edition.format⟩, by
      simp only [libraryImportResolvedEditionSchema, h₁, h₂, h₃, h₄, h₅, Option.bind_eq_bind,
        Option.bind_some, Option.pure_def]⟩
  have htranslation :
      ∃ t, optional libraryImportResolvedTranslationSchema c.translation = some t := by
    cases ht : c.translation with
    | none => exact ⟨none, rfl⟩
    | some t =>
      have hof : ∀ column ∈ COLUMN_BY_PATH, ∀ refuses : LibraryImportResolvedTranslation → Bool,
          refusesField env c column = c.translation.any refuses → refuses t = false := by
        intro column hmem refuses heq
        have hno := hsome column hmem
        rwa [heq, ht] at hno
      obtain ⟨translator, h₁⟩ := hpart (translatorSchema t.translator)
        (hof .translator (by decide) (fun t => (translatorSchema t.translator).isNone) rfl)
      obtain ⟨lang, h₂⟩ := hpart (languageCodeSchema t.lang)
        (hof .editionLang (by decide) (fun t => (languageCodeSchema t.lang).isNone) rfl)
      obtain ⟨source, h₃⟩ := hpart (languageCodeSchema t.sourceLang)
        (hof .translationSourceLang (by decide)
          (fun t => (languageCodeSchema t.sourceLang).isNone) rfl)
      obtain ⟨year, h₄⟩ := hpart (optional yearSchema t.year)
        (hof .translationYear (by decide) (fun t => (optional yearSchema t.year).isNone) rfl)
      obtain ⟨notes, h₅⟩ := hpart (optional translationNotesSchema t.notes)
        (hof .translationNotes (by decide)
          (fun t => (optional translationNotesSchema t.notes).isNone) rfl)
      have hread : libraryImportResolvedTranslationSchema t =
          some ⟨translator, lang, source, year, t.isAbridged, t.hasNotes, notes⟩ := by
        simp only [libraryImportResolvedTranslationSchema, h₁, h₂, h₃, h₄, h₅,
          Option.bind_eq_bind, Option.bind_some, Option.pure_def]
      exact ⟨some _, congrArg (Option.map some) hread⟩
  obtain ⟨work, hwork⟩ := hwork
  obtain ⟨edition, hedition⟩ := hedition
  obtain ⟨translation, ht⟩ := htranslation
  rw [libraryImportResolvedCatalogSchema, hwork, ht, hedition] at h
  cases h

/-- The columns of a refused chain are columns of refused fields. -/
theorem mem_columnsOfIssues {c : LibraryImportResolvedCatalog}
    (h : libraryImportResolvedCatalogSchema env c = none) :
    columnsOfIssues env c ≠ [] ∧
      ∀ column ∈ columnsOfIssues env c, refusesField env c column = true := by
  obtain ⟨column, hmem, hrefuses⟩ := exists_refusesField h
  have hne : COLUMN_BY_PATH.filter (refusesField env c) ≠ [] :=
    List.ne_nil_of_mem (List.mem_filter.mpr ⟨hmem, hrefuses⟩)
  rw [columnsOfIssues, if_pos hne]
  exact ⟨hne, fun column hcolumn => (List.mem_filter.mp hcolumn).2⟩

/-- **The chain of a row** is complete and made of what the file gives, with its gaps filled from
the lookup, or some columns are reported: missing in both, refused, or contradictory. -/
theorem resolved_catalog (env : ImportEnv) (values : LibraryImportRowValues)
    (lookup : Option BookLookupResult)
    (hvalues : libraryImportRowValuesSchema env values = some values) :
    (∃ catalog, buildResolvedCatalog env values lookup = .complete catalog ∧
      ResolvedFrom env values lookup catalog) ∨
    ∃ columns, (buildResolvedCatalog env values lookup = .incomplete columns ∨
        buildResolvedCatalog env values lookup = .conflicting columns) ∧
      columns ≠ [] ∧ ∀ column ∈ columns, Reported env values lookup column := by
  have hstored := storedValues hvalues
  generalize hres : buildResolvedCatalog env values lookup = res
  unfold buildResolvedCatalog at hres
  extract_lets title authors at hres
  split at hres
  next t names origLang ht ha ho =>
    rcases assembleCatalog_cases env values lookup t names origLang with
      ⟨⟨hlang, hnone⟩, heq⟩ | ⟨⟨hlang, hgiven⟩, heq⟩ |
        ⟨hne, hno, ⟨catalog, hcatalog, heq⟩ | ⟨hnone, heq⟩⟩
    · rw [heq] at hres
      refine .inr ⟨_, .inl hres.symm, by simp, fun column hcolumn => .inl ?_⟩
      rw [List.mem_singleton] at hcolumn
      subst hcolumn
      exact ⟨hnone, origLang, ho, hlang⟩
    · rw [heq] at hres
      refine .inr ⟨_, .inr hres.symm, by simp, fun column hcolumn => .inr (.inr ?_)⟩
      exact ⟨⟨origLang, ho, hlang⟩, hgiven, List.mem_cons.mp hcolumn⟩
    · rw [heq] at hres
      exact .inl ⟨catalog, hres.symm, resolvedFrom_of_schema hstored ht ha ho hne hno
        hcatalog⟩
    · rw [heq] at hres
      obtain ⟨hnonempty, hrefused⟩ := mem_columnsOfIssues hnone
      exact .inr ⟨_, .inl hres.symm, hnonempty, fun column hcolumn =>
        .inr (.inl ⟨t, names, origLang, ht, ha, ho, hrefused column hcolumn⟩)⟩
  next hother =>
    -- one of the three is missing, and exactly the missing ones are reported
    refine .inr ⟨_, .inl hres.symm, fun hnil => ?_, fun column hcolumn => .inl ?_⟩
    · simp only [List.append_eq_nil_iff, ite_eq_right_iff, List.cons_ne_nil, imp_false,
        Bool.not_eq_true, Option.isNone_eq_false_iff, Option.isSome_iff_exists] at hnil
      obtain ⟨⟨⟨t, ht⟩, names, ha⟩, origLang, ho⟩ := hnil
      exact hother t names origLang ht ha ho
    · have hor : ∀ {α : Type} {o found : Option α}, (o <|> found) = none →
          o = none ∧ found = none := by
        intro α o found h
        cases o with
        | none => exact ⟨rfl, h⟩
        | some a => cases h
      simp only [List.mem_append] at hcolumn
      rcases hcolumn with (hcolumn | hcolumn) | hcolumn <;> split at hcolumn
      next h =>
        cases List.mem_singleton.mp hcolumn
        exact hor (Option.isNone_iff_eq_none.mp h)
      · cases hcolumn
      next h =>
        cases List.mem_singleton.mp hcolumn
        exact hor (Option.isNone_iff_eq_none.mp h)
      · cases hcolumn
      next h =>
        cases List.mem_singleton.mp hcolumn
        exact Option.isNone_iff_eq_none.mp h
      · cases hcolumn

/-- The cells of the Kobzar without its title and with a translator. -/
def kobzarValues : LibraryImportRowValues :=
  { isbn13 := "9780306406157", title := none, authors := some ["Taras Shevchenko"],
    origLang := some "uk", firstPubYear := none, editionLang := none,
    translator := some "John Weir", translationSourceLang := none, translationYear := none,
    isAbridged := none, hasNotes := none, translationNotes := none, publisher := none,
    editionYear := none, pageCount := none, coverUrl := none, format := .paperback,
    condition := .good, visibility := .friends, note := none, acquiredAt := none, quantity := 1 }

def kobzarLookup : BookLookupResult :=
  ⟨"Kobzar", none, some 1961, some "en", none, none, none, none, none, none, none⟩

theorem resolved_catalog_kobzar :
    (∃ catalog, buildResolvedCatalog kobzarEnv kobzarValues (some kobzarLookup) =
        .complete catalog ∧ ResolvedFrom kobzarEnv kobzarValues (some kobzarLookup) catalog) ∨
    ∃ columns, (buildResolvedCatalog kobzarEnv kobzarValues (some kobzarLookup) =
        .incomplete columns ∨
        buildResolvedCatalog kobzarEnv kobzarValues (some kobzarLookup) = .conflicting columns) ∧
      columns ≠ [] ∧
      ∀ column ∈ columns, Reported kobzarEnv kobzarValues (some kobzarLookup) column :=
  resolved_catalog kobzarEnv kobzarValues (some kobzarLookup) (by decide +kernel)

end Bookswap
