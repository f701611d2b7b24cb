import Mathlib.Tactic.DeriveCountable
import Mathlib.Data.Countable.Basic
import Mathlib.Logic.Equiv.List
import Bookswap.QuickAdd.CanonicalContent
import Bookswap.QuickAdd.QuickAddFailures

/-!
# What one request hash means

A stored operation answers every request with its hash. Two requests with one hash do the same,
whatever the database holds and the sources say, exactly if both refine the record or neither does,
and both leave the cover to the work record or neither does.

- `quickAddAlone`, `SameAction`: the whole call, and two calls with one effect.
- `createManual_settled`, `quickAddAlone_congr`: what the handlers do not tell apart.
- `SameAction.refinesAlike`: what they do tell apart.
-/

namespace Bookswap

open ReadCommitted (Schema Script Trial)

variable {env : QuickAddEnv}

/-! ## Two requests with one effect -/

/-- The call as a whole. -/
def quickAddAlone (env : QuickAddEnv) (isbnFirst : Bool) (now : Time) (userId : UserId)
    (request : QuickAddRequest) : AddScript QuickAddResponse := do
  let prepared ← prepare isbnFirst userId request
  run env now userId request prepared

/-- The action of the request under another `operationId`. -/
def QuickAddRequest.numbered (r : QuickAddRequest) (operationId : OperationId) : QuickAddRequest :=
  { r with operationId := operationId }

/-- **One effect**: the same answer or the same refusal, and the same rows, for every database and
everything the sources may say. A transaction that an index refuses is refused again when it is
repeated, so that the end of one attempt is the end of the call. -/
def SameAction (env : QuickAddEnv) (r s : QuickAddRequest) : Prop :=
  ∀ (isbnFirst : Bool) (now : Time) (userId : UserId) (operationId : OperationId) (db : CatalogDb)
    (provider : Provider) (ids : List Nat), db.operation? userId operationId = none →
    (quickAddAlone env isbnFirst now userId (r.numbered operationId)).trial catalogSchema db
        (fun _ => provider) ids [] =
      (quickAddAlone env isbnFirst now userId (s.numbered operationId)).trial catalogSchema db
        (fun _ => provider) ids []

/-- The cover is left to the record. -/
def QuickAddExternalWorkTarget.leavesCover (t : QuickAddExternalWorkTarget) : Bool :=
  (t.edition.bind QuickAddEditionDetails.coverUrl).isNone

/-- Both refine the record or neither does, and both leave the cover to a work record that they
refine or neither does. -/
def QuickAddTarget.RefinesAlike : QuickAddTarget → QuickAddTarget → Prop
  | .externalEdition t, .externalEdition u => t.hasDetails = u.hasDetails
  | .externalWork t, .externalWork u =>
    t.hasDetails = u.hasDetails ∧ (t.hasDetails = true → t.leavesCover = u.leavesCover)
  | _, _ => True

/-! ## What the handlers do not tell apart -/

theorem linkedAuthor_settled (a : WorkAuthorInput) :
    linkedAuthor env a.settled = linkedAuthor env a := by
  obtain ⟨source, nameLatin, role⟩ := a
  cases source <;> rfl

theorem assertAuthorsExist_settled (authors : List WorkAuthorInput) :
    assertAuthorsExist (authors.map WorkAuthorInput.settled) = assertAuthorsExist authors := by
  unfold assertAuthorsExist
  rw [List.filterMap_map]
  rfl

theorem createWorkIn_settled (userId : UserId) (w : NewWork) :
    createWorkIn env userId w.settled = createWorkIn env userId w := by
  have hauthors : w.settled.authors.getD [] = (w.authors.getD []).map WorkAuthorInput.settled := by
    unfold NewWork.settled
    cases w.authors <;> rfl
  have hlinks : (w.settled.authors.getD []).mapM (linkedAuthor env) =
      (w.authors.getD []).mapM (linkedAuthor env) := by
    rw [hauthors, List.mapM_map]
    exact congrArg (fun f => List.mapM f _) (funext linkedAuthor_settled)
  unfold createWorkIn
  dsimp only
  rw [hlinks, hauthors, assertAuthorsExist_settled]
  rfl

theorem manualWork_settled (userId : UserId) (work : QuickAddManualWork)
    (edition : QuickAddManualEdition) :
    manualWork env userId work.settled edition.settled = manualWork env userId work edition := by
  cases work with
  | existing workId => rfl
  | new work =>
    have hlang : originalLanguageOf edition.settled = originalLanguageOf edition := rfl
    show (do
      let workId ← createWorkIn env userId { work with
        origLang := some (work.origLang.join <|> originalLanguageOf edition.settled) }.settled
      return (workId, work.origLang.join <|> originalLanguageOf edition.settled)) = _
    rw [createWorkIn_settled, hlang]
    rfl

theorem manualTranslation_settled (userId : UserId) (workId : WorkId)
    (translation : Option QuickAddTranslation) :
    manualTranslation userId workId (translation.map QuickAddTranslation.settled) =
      manualTranslation userId workId translation := by
  cases translation <;> rfl

/-- For a new edition an absent language is an unknown one. -/
theorem resolveEditionText_settled (textKind : Option EditionTextKind)
    (lang : Option (Option String)) (translationId : Option (Option TranslationId))
    (context : EditionTextContext) :
    resolveEditionText none ⟨textKind, some lang.join, translationId⟩ context =
      resolveEditionText none ⟨textKind, lang, translationId⟩ context := by
  have hlang : lang.getD none = lang.join := by
    cases lang <;> rfl
  unfold resolveEditionText resolveLinkedText resolveUnlink
  simp [NEW_EDITION, hlang]

/-- **By hand**, an absent field is one that is `null`. -/
theorem createManual_settled (userId : UserId) (target : QuickAddManualTarget) :
    createManual env userId target.settled = createManual env userId target := by
  obtain ⟨work, edition, translation⟩ := target
  have hlang : (translation.map QuickAddTranslation.settled).map QuickAddTranslation.lang =
      translation.map QuickAddTranslation.lang := by
    cases translation <;> rfl
  unfold createManual
  dsimp only [QuickAddManualTarget.settled]
  rw [manualWork_settled, hlang]
  simp only [manualTranslation_settled]
  dsimp only [QuickAddManualEdition.settled, Option.join_some]
  simp only [resolveEditionText_settled]

theorem createManual_congr {userId : UserId} {t u : QuickAddManualTarget}
    (h : t.settled = u.settled) : createManual env userId t = createManual env userId u := by
  rw [← createManual_settled userId t, h, createManual_settled]

theorem createCopy_settled (now : Time) (ownerId : UserId) (editionId : EditionId)
    (values : Option QuickAddCopy) : createCopy now ownerId editionId values =
      createCopy now ownerId editionId (some (values.getD .none).settled) := by
  cases values with
  | none => rfl
  | some copy => rfl

theorem editionFromSource_settled (confirmed : ConfirmedExternalEdition)
    (details : Option QuickAddEditionDetails) : editionFromSource confirmed details =
      editionFromSource confirmed (some (details.getD .none).settled) := rfl

/-! ### A record of an edition -/

section ExternalEdition

variable {t u : QuickAddExternalEditionTarget}

theorem QuickAddExternalEditionTarget.Like.namedBy (h : t.Like u) :
    ExternalEdition.namedBy t = ExternalEdition.namedBy u := by
  unfold ExternalEdition.namedBy
  rw [h.isbn13, h.reference]

theorem createRefinedEdition_congr {userId : UserId} {confirmed : ConfirmedExternalEdition}
    (h : t.Like u) :
    createRefinedEdition env userId t confirmed = createRefinedEdition env userId u confirmed := by
  have hedition : editionFromSource confirmed t.edition =
      editionFromSource confirmed u.edition := by
    rw [editionFromSource_settled confirmed t.edition, h.edition, ← editionFromSource_settled]
  have hmanual : ∀ (workId : WorkId) (edition : QuickAddManualEdition),
      createManual env userId (manualOn workId edition t.translation) =
        createManual env userId (manualOn workId edition u.translation) := by
    intro workId edition
    refine createManual_congr ?_
    show QuickAddManualTarget.mk _ _ (t.translation.map _) = .mk _ _ (u.translation.map _)
    rw [h.translation]
    rfl
  unfold createRefinedEdition
  rw [hedition]
  simp only [hmanual]

theorem externalEditionId_congr {userId : UserId} {confirmed : Option ConfirmedExternalEdition}
    (h : t.Like u) (hdetails : t.hasDetails = u.hasDetails) :
    externalEditionId env userId t confirmed = externalEditionId env userId u confirmed := by
  have hidentity : identityOf t confirmed = identityOf u confirmed := by
    cases confirmed with
    | none => exact h.namedBy
    | some confirmed => rfl
  have hfound : ∀ referenceKnown editionId, foundEditionId t confirmed referenceKnown editionId =
      foundEditionId u confirmed referenceKnown editionId := by
    intro referenceKnown editionId
    unfold foundEditionId
    rw [hdetails]
  have hcreated : createdEditionId env userId t confirmed =
      createdEditionId env userId u confirmed := by
    cases confirmed with
    | none => rfl
    | some confirmed =>
      unfold createdEditionId
      simp only [hdetails, createRefinedEdition_congr h]
  unfold externalEditionId
  rw [hidentity, hcreated]
  simp only [hfound]

end ExternalEdition

/-! ### A record of a work -/

section ExternalWork

variable {t u : QuickAddExternalWorkTarget}

/-- Whether the source of a known work is needed. -/
theorem needsWorkSource_known (t : QuickAddExternalWorkTarget) (known : KnownExternalWork) :
    needsWorkSource t (some known) =
      if t.hasDetails then t.leavesCover else known.editionId.isNone := by
  obtain ⟨key, edition, translation⟩ := t
  cases edition <;> cases translation <;> rfl

theorem needsWorkSource_congr (hdetails : t.hasDetails = u.hasDetails)
    (hcover : t.hasDetails = true → t.leavesCover = u.leavesCover)
    (known : Option KnownExternalWork) : needsWorkSource t known = needsWorkSource u known := by
  cases known with
  | none => rfl
  | some known =>
    rw [needsWorkSource_known, needsWorkSource_known, ← hdetails]
    by_cases h : t.hasDetails = true
    · rw [if_pos h, if_pos h, hcover h]
    · rw [if_neg h, if_neg h]

/-- Given or not, and what is given. -/
theorem eq_of_isNone_of_join {α : Type} {x y : Option (Option α)} (hnone : x.isNone = y.isNone)
    (hjoin : x.join = y.join) : x = y := by
  cases x <;> cases y
  · rfl
  · cases hnone
  · cases hnone
  · exact congrArg some hjoin

theorem editionOfWorkRecord_settled (h : t.Like u) (hcover : t.leavesCover = u.leavesCover)
    (cover : Option String) : (editionOfWorkRecord t.edition cover).settled =
      (editionOfWorkRecord u.edition cover).settled := by
  have hleaves : ∀ t : QuickAddExternalWorkTarget,
      t.leavesCover = (t.edition.getD .none).coverUrl.isNone := by
    intro t
    unfold QuickAddExternalWorkTarget.leavesCover
    cases t.edition <;> rfl
  have hedition := h.edition
  simp only [QuickAddEditionDetails.settled, QuickAddEditionDetails.mk.injEq,
    Option.some.injEq] at hedition
  obtain ⟨hkind, hlang, hpublisher, hyear, hisbn, hpages, hurl, hformat⟩ := hedition
  rw [hleaves, hleaves] at hcover
  unfold QuickAddManualEdition.settled editionOfWorkRecord
  dsimp only
  rw [hkind, hlang, hpublisher, hyear, hisbn, hpages, eq_of_isNone_of_join hcover hurl, hformat]

theorem externalWorkEditionId_congr {userId : UserId} {confirmed : Option ConfirmedExternalWork}
    (h : t.Like u) (hdetails : t.hasDetails = u.hasDetails)
    (hcover : t.hasDetails = true → t.leavesCover = u.leavesCover) :
    externalWorkEditionId env userId t confirmed =
      externalWorkEditionId env userId u confirmed := by
  have hmanual : t.hasDetails = true → ∀ workId,
      createManual env userId (manualOn workId (editionOfWorkRecord t.edition
        (confirmed.bind ConfirmedExternalWork.coverUrl)) t.translation) =
      createManual env userId (manualOn workId (editionOfWorkRecord u.edition
        (confirmed.bind ConfirmedExternalWork.coverUrl)) u.translation) := by
    intro hhas workId
    refine createManual_congr ?_
    show QuickAddManualTarget.mk _ (editionOfWorkRecord t.edition _).settled
        (t.translation.map _) =
      .mk _ (editionOfWorkRecord u.edition _).settled (u.translation.map _)
    rw [h.translation, editionOfWorkRecord_settled h (hcover hhas)]
    rfl
  unfold externalWorkEditionId
  simp only [h.key, needsWorkSource_congr hdetails hcover, ← hdetails]
  by_cases hhas : t.hasDetails = true
  · simp only [hhas, hmanual hhas, if_true]
  · simp only [hhas, Bool.false_eq_true, if_false]

end ExternalWork

/-! ### The whole call -/

theorem QuickAddTarget.Like.kind {t u : QuickAddTarget} (h : t.Like u) : t.kind = u.kind := by
  cases h <;> rfl

theorem prepare_congr {isbnFirst : Bool} {userId : UserId} {r s : QuickAddRequest}
    (hid : r.operationId = s.operationId) (h : r.target.Like s.target)
    (halike : r.target.RefinesAlike s.target) :
    prepare isbnFirst userId r = prepare isbnFirst userId s := by
  obtain ⟨id, method, copy, target⟩ := r
  obtain ⟨id', method', copy', target'⟩ := s
  cases hid
  cases h with
  | existingEdition editionId => rfl
  | manual h => rfl
  | externalEdition h =>
    unfold prepare ExternalEdition.fetch ExternalEdition.fetchFrom
    simp only [h.namedBy]
  | externalWork h =>
    unfold prepare
    simp only [h.key, needsWorkSource_congr halike.1 halike.2]

theorem editionIdFor_congr {userId : UserId} {t u : QuickAddTarget} (h : t.Like u)
    (halike : t.RefinesAlike u) (prepared : PreparedExternal) :
    editionIdFor env userId t prepared = editionIdFor env userId u prepared := by
  cases h with
  | existingEdition editionId => rfl
  | externalEdition h => exact externalEditionId_congr h halike
  | manual h => exact createManual_congr h
  | externalWork h => exact externalWorkEditionId_congr h halike.1 halike.2

/-- **Two calls with one script.** -/
theorem quickAddAlone_congr {isbnFirst : Bool} {now : Time} {userId : UserId}
    {r s : QuickAddRequest} (hid : r.operationId = s.operationId) (h : r.Like s)
    (hhash : requestHashOf env.sha256 r = requestHashOf env.sha256 s)
    (halike : r.target.RefinesAlike s.target) :
    quickAddAlone env isbnFirst now userId r = quickAddAlone env isbnFirst now userId s := by
  have hkind := h.target.kind
  have hcopy : ∀ editionId, createCopy now userId editionId r.copy =
      createCopy now userId editionId s.copy := by
    intro editionId
    rw [createCopy_settled, h.copy, ← createCopy_settled]
  have hoperation : ∀ prepared, firstOutcome env now userId r prepared =
      firstOutcome env now userId s prepared := by
    intro prepared
    unfold firstOutcome
    simp only [editionIdFor_congr h.target halike, hcopy, hid, hhash, hkind]
  have hreplay : ∀ earlier, replay env userId r earlier = replay env userId s earlier := by
    intro earlier
    unfold replay
    rw [hhash, hid]
  unfold quickAddAlone run
  rw [prepare_congr hid h.target halike]
  simp only [hid, hreplay, hoperation]

/-! ## What the handlers tell apart -/

def hashReader : User := ⟨1, "Леся", "lesia", none, .friends, true, false, false⟩

def hashWork : Work := ⟨0, "Кобзар", "кобзар", none, none, none, 1, none⟩

/-- An edition that is known by an ISBN only. -/
def hashEdition (isbn13 : Option String) : Edition :=
  ⟨0, 0, none, .unknown, none, none, none, isbn13, none, none, none, 1⟩

/-- The edition that the target names is in the catalog. -/
def QuickAddExternalEditionTarget.knownDb (t : QuickAddExternalEditionTarget) : CatalogDb where
  users := [hashReader]
  authors := []
  works := [hashWork]
  workAuthors := []
  translations := []
  editions := [hashEdition (t.isbn13.map normalizeIsbn13)]
  editionReferences := (t.reference.map fun key => ⟨key, 0⟩).toList
  workReferences := []
  copies := []
  operations := []

/-- The work of the record is in the catalog, with its edition or without. -/
def recordDb (key : ExternalReferenceKey) (editionId : Option EditionId) : CatalogDb where
  users := [hashReader]
  authors := []
  works := [hashWork]
  workAuthors := []
  translations := []
  editions := [hashEdition none]
  editionReferences := []
  workReferences := [⟨key, 0, editionId⟩]
  copies := []
  operations := []

/-- Sources that answer every question about a work in one way. -/
def answering (outcome : ProviderOutcome WorkRecord) : Provider where
  lookup _ := .error .timedOut
  fetchVolume _ := .timeout
  fetchWork _ := outcome

/-- The transaction for a work record asks no source. -/
theorem silent_run_externalWork {now : Time} {userId : UserId} {request : QuickAddRequest}
    {target : QuickAddExternalWorkTarget} (htarget : request.target = .externalWork target)
    (prepared : PreparedExternal) : (run env now userId request prepared).Silent fun _ => True := by
  have hall : ∀ e : QuickAddFailure, ¬ e.Unprepared → True := fun _ _ => trivial
  have hwork : (externalWorkEditionId env userId target prepared.work).Silent fun _ => True :=
    Script.Silent.bind trivial fun _ => (Script.Silent.select _).bind fun known =>
      silent_workEditionId hall target _ known fun _ _ => trivial
  have hfirst : (firstOutcome env now userId request prepared).Silent fun _ => True := by
    unfold firstOutcome
    rw [htarget]
    exact hwork.bind fun _ => (silent_createCopy hall _ _ _).bind fun _ => trivial
  refine Script.Silent.bind trivial fun _ => (Script.Silent.select _).bind fun earlier => ?_
  cases earlier with
  | none => exact hfirst
  | some earlier => exact silent_replay hall _ earlier

/-! ### Work records -/

section Records

variable {isbnFirst : Bool} {now : Time} {operationId : OperationId}
  {entryMethod : Option CopyEntryMethod} {copy : Option QuickAddCopy}

/-- The source of a work record is asked: its failure is the call's. -/
theorem trial_of_needs {t : QuickAddExternalWorkTarget} {editionId : Option EditionId}
    (h : needsWorkSource t (some ⟨0, editionId⟩) = true) {outcome : ProviderOutcome WorkRecord}
    {e : QuickAddFailure} (he : ExternalWork.fetchFrom (answering outcome) t.key = .error e)
    (ids : List Nat) :
    (quickAddAlone env isbnFirst now 1 ⟨operationId, entryMethod, copy, .externalWork t⟩).trial
      catalogSchema (recordDb t.key editionId) (fun _ => answering outcome) ids [] = .failed e := by
  have hknown : ((recordDb t.key editionId).workReference? t.key).map
      (fun r => KnownExternalWork.mk r.workId r.editionId) = some ⟨0, editionId⟩ := by
    simp [CatalogDb.workReference?, recordDb]
  unfold quickAddAlone prepare ExternalWork.findLocal ExternalWork.fetch
  have hfresh : ((recordDb t.key editionId).operation? 1 operationId).isSome = false := rfl
  simp only [bind_assoc, Script.trial_select, Schema.view_nil, hfresh, Bool.false_eq_true, if_false,
    hknown, h, if_true, Script.trial_request, he]
  rfl

/-- The source is not asked: what it would say does not matter. -/
theorem trial_of_not_needs {t : QuickAddExternalWorkTarget} {editionId : Option EditionId}
    (h : needsWorkSource t (some ⟨0, editionId⟩) = false) (provider provider' : Provider)
    (ids : List Nat) :
    (quickAddAlone env isbnFirst now 1 ⟨operationId, entryMethod, copy, .externalWork t⟩).trial
      catalogSchema (recordDb t.key editionId) (fun _ => provider) ids [] =
    (quickAddAlone env isbnFirst now 1 ⟨operationId, entryMethod, copy, .externalWork t⟩).trial
      catalogSchema (recordDb t.key editionId) (fun _ => provider') ids [] := by
  have hknown : ((recordDb t.key editionId).workReference? t.key).map
      (fun r => KnownExternalWork.mk r.workId r.editionId) = some ⟨0, editionId⟩ := by
    simp [CatalogDb.workReference?, recordDb]
  have hfresh : ((recordDb t.key editionId).operation? 1 operationId).isSome = false := rfl
  unfold quickAddAlone prepare ExternalWork.findLocal ExternalWork.fetch
  simp only [bind_assoc, Script.trial_select, Schema.view_nil, hfresh, Bool.false_eq_true, if_false,
    hknown, h, pure_bind]
  exact (silent_run_externalWork rfl _).trial_eq ids []

/-! ### Records of an edition -/

theorem findLocal_known {α : Type} {t : QuickAddExternalEditionTarget} {ids : List Nat}
    {answer : Unit → Provider} {f : LocalResolution → AddScript α} :
    (ExternalEdition.findLocal isbnFirst (ExternalEdition.namedBy t) >>= f).trial catalogSchema
      t.knownDb answer ids [] =
    (f ⟨some 0, t.reference.isSome⟩).trial catalogSchema t.knownDb answer ids [] := by
  have hisbn : ∀ g : Option Edition → AddScript α,
      (ExternalEdition.byIsbn (t.isbn13.map normalizeIsbn13) >>= g).trial catalogSchema t.knownDb
        answer ids [] =
      (g (t.isbn13.map fun _ => hashEdition (t.isbn13.map normalizeIsbn13))).trial catalogSchema
        t.knownDb answer ids [] := by
    intro g
    unfold QuickAddExternalEditionTarget.knownDb
    cases t.isbn13 with
    | none => rfl
    | some isbn13 =>
      simp only [ExternalEdition.byIsbn, Option.map_some, Script.trial_select]
      simp [CatalogDb.editionByIsbn?, hashEdition]
  have hreference : ∀ g : Option (EditionId × Option String) → AddScript α,
      (ExternalEdition.byReference t.reference >>= g).trial catalogSchema t.knownDb answer ids [] =
        (g (t.reference.map fun _ => (0, t.isbn13.map normalizeIsbn13))).trial catalogSchema
          t.knownDb answer ids [] := by
    intro g
    unfold QuickAddExternalEditionTarget.knownDb
    cases t.reference with
    | none => rfl
    | some key =>
      simp only [ExternalEdition.byReference, Option.map_some, Script.trial_select]
      simp [CatalogDb.editionReference?, CatalogDb.edition?, hashEdition]
  have hresolve : ExternalEdition.resolveLocal (ExternalEdition.namedBy t)
      (t.isbn13.map fun _ => hashEdition (t.isbn13.map normalizeIsbn13))
      (t.reference.map fun _ => (0, t.isbn13.map normalizeIsbn13)) =
        .ok ⟨some 0, t.reference.isSome⟩ := by
    obtain ⟨isbn13, reference, named, edition, translation⟩ := t
    cases isbn13 <;> cases reference
    · exact absurd named (by simp)
    all_goals simp [ExternalEdition.resolveLocal, ExternalEdition.namedBy, hashEdition]
  unfold ExternalEdition.findLocal
  cases isbnFirst with
  | true =>
    simp only [if_true, bind_assoc]
    rw [ExternalEdition.namedBy, hisbn, hreference, ← ExternalEdition.namedBy, hresolve]
    rfl
  | false =>
    simp only [Bool.false_eq_true, if_false, bind_assoc]
    rw [ExternalEdition.namedBy, hreference, hisbn, ← ExternalEdition.namedBy, hresolve]
    rfl

/-- What follows once the edition is found. -/
theorem trial_known {t : QuickAddExternalEditionTarget} (answer : Unit → Provider)
    (ids : List Nat) :
    ∃ (operation : Copy → LibraryAddOperation) (response : Copy → QuickAddResponse),
      (quickAddAlone env isbnFirst now 1
        ⟨operationId, entryMethod, copy, .externalEdition t⟩).trial catalogSchema t.knownDb answer
          ids [] =
        (foundEditionId t none t.reference.isSome 0 >>= fun editionId =>
          createCopy now 1 editionId copy >>= fun c =>
          Script.insert (.operation (operation c)) >>= fun _ =>
          pure (response c)).trial catalogSchema t.knownDb answer ids [] := by
  have hfresh : t.knownDb.operation? 1 operationId = none := rfl
  have hidentity : identityOf t PreparedExternal.nothing.confirmed =
      ExternalEdition.namedBy t := rfl
  refine ⟨fun c => ⟨1, operationId, requestHashOf env.sha256 ⟨operationId, entryMethod, copy,
    .externalEdition t⟩, .externalEdition, c.editionId, some c.id⟩,
    fun c => ⟨operationId, false, c⟩, ?_⟩
  unfold quickAddAlone prepare
  simp only [bind_assoc, Script.trial_select, Schema.view_nil, hfresh, Option.isSome_none,
    Bool.false_eq_true, if_false, findLocal_known, Option.isSome_some, if_true, pure_bind]
  unfold run
  simp only [Script.trial_acquire, Script.trial_select, Schema.view_nil, hfresh]
  unfold firstOutcome editionIdFor externalEditionId
  simp only [bind_assoc, hidentity, findLocal_known]
  rfl

/-- An edition that is found is not refined. -/
theorem trial_of_hasDetails {t : QuickAddExternalEditionTarget} (h : t.hasDetails = true)
    (answer : Unit → Provider) (ids : List Nat) :
    (quickAddAlone env isbnFirst now 1
      ⟨operationId, entryMethod, copy, .externalEdition t⟩).trial catalogSchema t.knownDb answer
        ids [] = .failed (editionAlreadyInCatalog 0) := by
  obtain ⟨operation, response, heq⟩ := trial_known answer ids
  rw [heq]
  unfold foundEditionId
  rw [if_pos h]
  rfl

/-- An edition that is found is taken. -/
theorem trial_of_not_hasDetails {t : QuickAddExternalEditionTarget} (h : t.hasDetails = false)
    (answer : Unit → Provider) :
    ∃ a ws, (quickAddAlone env isbnFirst now 1
      ⟨operationId, entryMethod, copy, .externalEdition t⟩).trial catalogSchema t.knownDb answer
        [5] [] = .done a ws := by
  have hfound : ∀ referenceKnown, foundEditionId t none referenceKnown 0 = pure 0 := by
    intro referenceKnown
    unfold foundEditionId
    rw [if_neg (by rw [h]; exact Bool.false_ne_true)]
    cases referenceKnown <;> rfl
  have hvisibility : ∀ (g : Visibility → AddScript QuickAddResponse),
      ∃ visibility, (newCopyVisibility 1 (copy.bind QuickAddCopy.visibility) >>= g).trial
        catalogSchema t.knownDb answer [5] [] =
          (g visibility).trial catalogSchema t.knownDb answer [5] [] := by
    intro g
    cases copy.bind QuickAddCopy.visibility with
    | none => exact ⟨_, rfl⟩
    | some visibility => exact ⟨visibility, rfl⟩
  obtain ⟨operation, response, heq⟩ := trial_known answer [5]
  rw [heq, hfound, pure_bind]
  unfold createCopy
  rw [bind_assoc]
  obtain ⟨visibility, hv⟩ := hvisibility _
  rw [hv]
  simp only [bind_assoc, Script.trial_draw, pure_bind]
  rw [Script.trial_insert (fun key hkey => by cases List.mem_singleton.mp hkey; rfl),
    Script.trial_insert (fun key hkey => by cases List.mem_singleton.mp hkey; rfl)]
  exact ⟨_, _, rfl⟩

end Records

/-! ### The converse -/

theorem SameAction.symm {r s : QuickAddRequest} (h : SameAction env r s) : SameAction env s r :=
  fun isbnFirst now userId operationId db provider ids hfresh =>
    (h isbnFirst now userId operationId db provider ids hfresh).symm

theorem QuickAddExternalEditionTarget.Like.symm {t u : QuickAddExternalEditionTarget}
    (h : t.Like u) : u.Like t :=
  ⟨h.isbn13.symm, h.reference.symm, h.edition.symm, h.translation.symm⟩

/-- In a catalog with the edition, only one of two such requests would get it. -/
theorem SameAction.hasDetails {t u : QuickAddExternalEditionTarget} {id id' : OperationId}
    {method method' : Option CopyEntryMethod} {copy copy' : Option QuickAddCopy} (hlike : t.Like u)
    (h : SameAction env ⟨id, method, copy, .externalEdition t⟩
      ⟨id', method', copy', .externalEdition u⟩) (ht : t.hasDetails = true) :
    u.hasDetails = true := by
  have hdb : t.knownDb = u.knownDb := by
    unfold QuickAddExternalEditionTarget.knownDb
    rw [hlike.isbn13, hlike.reference]
  by_contra hu
  have hsame := h true 0 1 0 t.knownDb (answering .timeout) [5] rfl
  have hrefused : (quickAddAlone env true 0 1 ⟨0, method, copy, .externalEdition t⟩).trial
      catalogSchema t.knownDb (fun _ => answering .timeout) [5] [] =
        .failed (editionAlreadyInCatalog 0) := trial_of_hasDetails ht _ _
  obtain ⟨a, ws, htaken⟩ : ∃ a ws, (quickAddAlone env true 0 1
      ⟨0, method', copy', .externalEdition u⟩).trial catalogSchema t.knownDb
        (fun _ => answering .timeout) [5] [] = .done a ws :=
    hdb ▸ trial_of_not_hasDetails (Bool.eq_false_iff.mpr hu) _
  cases hrefused.symm.trans (hsame.trans htaken)

/-- When the source fails, what a call answers shows if it was asked. -/
theorem SameAction.needsWorkSource {t u : QuickAddExternalWorkTarget} {id id' : OperationId}
    {method method' : Option CopyEntryMethod} {copy copy' : Option QuickAddCopy}
    (hkey : t.key = u.key)
    (h : SameAction env ⟨id, method, copy, .externalWork t⟩ ⟨id', method', copy', .externalWork u⟩)
    {editionId : Option EditionId} (ht : needsWorkSource t (some ⟨0, editionId⟩) = true) :
    needsWorkSource u (some ⟨0, editionId⟩) = true := by
  by_contra hu
  have hsame := fun provider => h true 0 1 0 (recordDb t.key editionId) provider [] rfl
  have htimeout : (quickAddAlone env true 0 1 ⟨0, method, copy, .externalWork t⟩).trial
      catalogSchema (recordDb t.key editionId) (fun _ => answering .timeout) [] [] = .failed _ :=
    trial_of_needs ht rfl []
  have herror : (quickAddAlone env true 0 1 ⟨0, method, copy, .externalWork t⟩).trial catalogSchema
      (recordDb t.key editionId) (fun _ => answering (.error "")) [] [] = .failed _ :=
    trial_of_needs ht rfl []
  have hsilent : (quickAddAlone env true 0 1 ⟨0, method', copy', .externalWork u⟩).trial
      catalogSchema (recordDb t.key editionId) (fun _ => answering .timeout) [] [] =
    (quickAddAlone env true 0 1 ⟨0, method', copy', .externalWork u⟩).trial catalogSchema
      (recordDb t.key editionId) (fun _ => answering (.error "")) [] [] := by
    rw [hkey]
    exact trial_of_not_needs (Bool.eq_false_iff.mpr hu) _ _ []
  have hfailures := hsilent.trans ((hsame _).symm.trans herror)
  cases htimeout.symm.trans ((hsame _).trans hfailures)

theorem SameAction.refinesAlike {r s : QuickAddRequest} (hlike : r.target.Like s.target)
    (h : SameAction env r s) : r.target.RefinesAlike s.target := by
  obtain ⟨id, method, copy, target⟩ := r
  obtain ⟨id', method', copy', target'⟩ := s
  cases hlike with
  | existingEdition editionId => trivial
  | manual hsettled => trivial
  | externalEdition hlike =>
    exact Bool.eq_iff_iff.mpr ⟨fun ht => h.hasDetails hlike ht,
      fun hu => h.symm.hasDetails hlike.symm hu⟩
  | @externalWork t u hlike =>
    have hneeds : ∀ editionId, Bookswap.needsWorkSource t (some ⟨0, editionId⟩) =
        Bookswap.needsWorkSource u (some ⟨0, editionId⟩) := fun editionId =>
      Bool.eq_iff_iff.mpr ⟨fun ht => h.needsWorkSource hlike.key ht,
        fun hu => h.symm.needsWorkSource hlike.key.symm hu⟩
    have hnew := hneeds none
    have hold := hneeds (some 0)
    simp only [needsWorkSource_known, Option.isNone_none, Option.isNone_some] at hnew hold
    show t.hasDetails = u.hasDetails ∧ (t.hasDetails = true → t.leavesCover = u.leavesCover)
    -- a record that is not refined needs the source just when it has no edition yet
    cases ht : t.hasDetails <;> cases hu : u.hasDetails <;> rw [ht, hu] at hnew hold
    · exact ⟨rfl, fun h => absurd h Bool.false_ne_true⟩
    · exact absurd (hold.trans hnew.symm) Bool.false_ne_true
    · exact absurd (hold.symm.trans hnew) Bool.false_ne_true
    · exact ⟨rfl, fun _ => hnew⟩

/-! ## The hash -/

/-- **One request hash means one action** exactly if both requests refine the record or neither
does, and both leave the cover of a refined work record to it or neither does. -/
theorem request_hash_sound (hsha : Function.Injective env.sha256) {r s : QuickAddRequest}
    (hhash : requestHashOf env.sha256 r = requestHashOf env.sha256 s) :
    SameAction env r s ↔ r.target.RefinesAlike s.target := by
  have hlike := QuickAddRequest.like_of_canonical (hsha hhash)
  constructor
  · exact fun h => h.refinesAlike hlike.target
  · intro halike isbnFirst now userId operationId db provider ids _
    have hscript : quickAddAlone env isbnFirst now userId (r.numbered operationId) =
        quickAddAlone env isbnFirst now userId (s.numbered operationId) :=
      quickAddAlone_congr rfl ⟨hlike.copy, hlike.target⟩ hhash halike
    rw [hscript]

/-! ### A hash without collisions -/

instance charCountable : Countable Char :=
  Function.Injective.countable fun _ _ h => Char.toNat_inj.mp h

instance stringCountable : Countable String :=
  Function.Injective.countable fun _ _ h => String.toList_injective h

/-- A JSON value as a tree without lists. -/
inductive JsonTree
  | null
  | bool (b : Bool)
  | num (n : Int)
  | str (s : String)
  | day (d : Int)
  | nil
  | item (v rest : JsonTree)
  | field (key : String) (v rest : JsonTree)
  | arr (items : JsonTree)
  | obj (fields : JsonTree)
  deriving Countable

namespace Json

mutual

def tree : Json → JsonTree
  | null => .null
  | bool b => .bool b
  | num n => .num n
  | str s => .str s
  | day d => .day d
  | arr items => .arr (treeOfItems items)
  | obj fields => .obj (treeOfFields fields)

def treeOfItems : List Json → JsonTree
  | [] => .nil
  | v :: items => .item v.tree (treeOfItems items)

def treeOfFields : List (String × Json) → JsonTree
  | [] => .nil
  | (key, v) :: fields => .field key v.tree (treeOfFields fields)

end

mutual

theorem tree_injective : ∀ v w : Json, v.tree = w.tree → v = w
  | null, w, h => by cases w <;> first | rfl | cases h
  | bool b, w, h => by cases w <;> cases h; rfl
  | num n, w, h => by cases w <;> cases h; rfl
  | str s, w, h => by cases w <;> cases h; rfl
  | day d, w, h => by cases w <;> cases h; rfl
  | arr items, w, h => by
    cases w with
    | arr items' => exact congrArg arr (treeOfItems_injective items items' (JsonTree.arr.inj h))
    | _ => cases h
  | obj fields, w, h => by
    cases w with
    | obj fields' => exact congrArg obj (treeOfFields_injective fields fields' (JsonTree.obj.inj h))
    | _ => cases h

theorem treeOfItems_injective : ∀ vs ws : List Json, treeOfItems vs = treeOfItems ws → vs = ws
  | [], ws, h => by cases ws <;> first | rfl | cases h
  | v :: vs, ws, h => by
    cases ws with
    | nil => cases h
    | cons w ws =>
      obtain ⟨hv, hvs⟩ := JsonTree.item.inj h
      rw [tree_injective v w hv, treeOfItems_injective vs ws hvs]

theorem treeOfFields_injective : ∀ vs ws : List (String × Json),
    treeOfFields vs = treeOfFields ws → vs = ws
  | [], ws, h => by cases ws <;> first | rfl | cases h
  | (key, v) :: vs, ws, h => by
    cases ws with
    | nil => cases h
    | cons field ws =>
      obtain ⟨key', w⟩ := field
      obtain ⟨hkey, hv, hvs⟩ := JsonTree.field.inj h
      rw [hkey, tree_injective v w hv, treeOfFields_injective vs ws hvs]

end

/-- There is a hash without collisions. -/
theorem exists_injective : ∃ sha256 : Json → String, Function.Injective sha256 := by
  have hcountable : Countable Json := Function.Injective.countable tree_injective
  obtain ⟨number, hnumber⟩ := exists_injective_nat Json
  exact ⟨fun v => toString (number v), fun v w h => hnumber (toString_injective h)⟩

end Json

/-! ### Requests that differ in form only -/

def addEdition (copy : Option QuickAddCopy) : QuickAddRequest :=
  ⟨0, none, copy, .existingEdition 0⟩

/-- An empty `copy` is like none. -/
theorem request_hash_sound_copy : ∃ env : QuickAddEnv,
    SameAction env (addEdition none) (addEdition (some .none)) := by
  obtain ⟨sha256, hsha⟩ := Json.exists_injective
  have hcanonical : (addEdition none).content.canonical =
      (addEdition (some .none)).content.canonical := by
    simp [addEdition, QuickAddRequest.content, QuickAddCopy.toJson, QuickAddCopy.none, Json.field,
      Json.canonical, Json.canonicalFields, Json.isAbsent]
  exact ⟨⟨fun _ => 0, id, sha256⟩, (@request_hash_sound ⟨fun _ => 0, id, sha256⟩ hsha _ _
    (congrArg sha256 hcanonical)).mpr trivial⟩

/-- An edition by its ISBN, refined or not. -/
def byIsbn (edition : Option QuickAddEditionDetails) : QuickAddExternalEditionTarget :=
  ⟨some "9780306406157", none, .inl (Option.some_ne_none _), edition, none⟩

def addByIsbn (edition : Option QuickAddEditionDetails) : QuickAddRequest :=
  ⟨0, none, none, .externalEdition (byIsbn edition)⟩

/-- **Empty details** have the hash of no details, and are another action. -/
theorem empty_details_same_hash : ∃ env : QuickAddEnv, Function.Injective env.sha256 ∧
    requestHashOf env.sha256 (addByIsbn none) = requestHashOf env.sha256 (addByIsbn (some .none)) ∧
    ¬ SameAction env (addByIsbn none) (addByIsbn (some .none)) := by
  obtain ⟨sha256, hsha⟩ := Json.exists_injective
  have hcanonical : (addByIsbn none).content.canonical =
      (addByIsbn (some .none)).content.canonical := by
    simp [addByIsbn, byIsbn, QuickAddRequest.content, QuickAddTarget.toJson,
      QuickAddEditionDetails.toJson, QuickAddEditionDetails.none, Json.field, Json.canonical,
      Json.canonicalFields, Json.isAbsent]
  refine ⟨⟨fun _ => 0, id, sha256⟩, hsha, congrArg sha256 hcanonical, fun h => ?_⟩
  have hlike : (byIsbn (some .none)).Like (byIsbn none) := ⟨rfl, rfl, rfl, rfl⟩
  exact absurd (h.symm.hasDetails hlike rfl) Bool.false_ne_true

end Bookswap
