import Bookswap.Lib.ScriptTrials
import Bookswap.QuickAdd.QuickAddService

/-!
# How a transaction of quick-add fails

The transaction asks no source. Three of its failures say that it lacks what only `prepare` could
have asked for; no other part of it fails so.

- `QuickAddFailure.Unprepared`: the three failures.
- `silent_createManual`, `silent_workOfKnown`, `silent_createdEditionId`, `silent_run`: how each
  part fails.
-/

namespace Bookswap

open ReadCommitted (Script)

/-- The internal errors of a transaction that has not been prepared. -/
def unpreparedMessages : List String :=
  ["Зовнішнє видання не знайдено локально й не було підтверджене джерелом",
    "Запис твору потребує відповіді джерела, але її не отримано",
    "Новий твір без підтверджених метаданих"]

/-- The transaction lacks what `prepare` was to ask for. -/
def QuickAddFailure.Unprepared (e : QuickAddFailure) : Prop :=
  ∃ message ∈ unpreparedMessages, e = .internal message

theorem QuickAddFailure.not_unprepared_api {e : ApiException} {details : Json} :
    ¬ (QuickAddFailure.api e details).Unprepared := by
  rintro ⟨message, -, h⟩
  cases h

theorem QuickAddFailure.not_unprepared_internal {message : String}
    (h : message ∉ unpreparedMessages) : ¬ (QuickAddFailure.internal message).Unprepared := by
  rintro ⟨message', hmem, heq⟩
  cases heq
  exact h hmem

theorem resolveLinkedText_internal {before next : EditionTextState} {patch : EditionTextPatch}
    {context : EditionTextContext} {message : String}
    (h : resolveLinkedText before next patch context = .error (.internal message)) :
    message = "Для привʼязаного перекладу потрібна його мова" := by
  unfold resolveLinkedText at h
  by_cases hkind : patch.textKind ≠ none ∧ patch.textKind ≠ some .translation
  · simp only [if_pos hkind] at h
    cases h
  · simp only [if_neg hkind] at h
    cases htarget : context.targetTranslation with
    | none =>
      rw [htarget] at h
      cases h
      rfl
    | some target =>
      simp only [htarget] at h
      generalize (if patch.lang = none ∧ before.lang ≠ none ∧
        before.lang = impliedLang before context then some target else next.lang) = lang? at h
      cases lang? with
      | none => cases h
      | some lang =>
        by_cases heq : lang ≠ target
        · simp only [if_pos heq] at h
          cases h
        · simp only [if_neg heq] at h
          cases h

/-- Without a link, a text is refused for a reason. -/
theorem resolveUnlink_internal {before next : EditionTextState} {patch : EditionTextPatch}
    {context : EditionTextContext} {message : String} :
    resolveUnlink before next patch context ≠ .error (.internal message) := by
  intro h
  unfold resolveUnlink at h
  by_cases hunlinked : before.translationId ≠ none ∧ patch.translationId = some none
  · simp only [if_pos hunlinked] at h
    by_cases hkind : patch.textKind = none
    · simp only [if_pos hkind] at h
      by_cases hlang : context.workOrigLang = none
      · simp only [if_pos hlang] at h
        cases h
      · simp only [if_neg hlang] at h
        cases h
    · simp only [if_neg hkind] at h
      cases h
  · simp only [if_neg hunlinked] at h
    by_cases hkind : before.translationId ≠ none ∧ patch.textKind ≠ none ∧
        patch.textKind ≠ some .translation
    · simp only [if_pos hkind] at h
      cases h
    · simp only [if_neg hkind] at h
      cases h

theorem resolveOriginal_internal {next : EditionTextState} {context : EditionTextContext}
    {message : String} : resolveOriginal next context ≠ .error (.internal message) := by
  intro h
  unfold resolveOriginal at h
  split at h
  · cases h
  · split at h <;> cases h
  · cases h

/-- The one internal error of a text. -/
theorem resolveEditionText_internal {current : Option EditionTextState} {patch : EditionTextPatch}
    {context : EditionTextContext} {message : String}
    (h : resolveEditionText current patch context = .error (.internal message)) :
    message = "Для привʼязаного перекладу потрібна його мова" := by
  unfold resolveEditionText at h
  dsimp only at h
  split at h
  · exact resolveLinkedText_internal h
  · generalize hunlink : resolveUnlink _ _ _ _ = unlinked at h
    cases unlinked with
    | ok next => exact absurd h resolveOriginal_internal
    | error e =>
      cases h
      exact absurd hunlink resolveUnlink_internal

/-- A text that does not resolve is refused, or is an error of its own. -/
theorem textOrThrow_error {current : Option EditionTextState} {patch : EditionTextPatch}
    {context : EditionTextContext} {e : QuickAddFailure}
    (h : textOrThrow (resolveEditionText current patch context) = .error e) : ¬ e.Unprepared := by
  generalize hresolve : resolveEditionText current patch context = resolution at h
  cases resolution with
  | ok text => cases h
  | error failure =>
    cases failure with
    | internal message =>
      cases h
      rw [resolveEditionText_internal hresolve]
      exact QuickAddFailure.not_unprepared_internal (by simp [unpreparedMessages])
    | refused reason message =>
      cases reason <;> cases h <;> exact QuickAddFailure.not_unprepared_api

/-! ## The parts of the transaction -/

section Parts

variable {env : QuickAddEnv} {userId : UserId} {E : QuickAddFailure → Prop}

theorem silent_createWorkFromSource (work : SourceWork) :
    (createWorkFromSource env userId work).Silent E :=
  fun _ => (Script.Silent.forM fun _ =>
    show Script.Silent E (createSourceAuthor env _ _ _) from fun _ => trivial).bind fun _ => trivial

theorem silent_createFromExternal (metadata : ExternalMetadata) (isbn13 : Option String) :
    (createFromExternal env userId metadata isbn13).Silent E :=
  (silent_createWorkFromSource _).bind fun _ _ => trivial

variable (hE : ∀ e, ¬ e.Unprepared → E e)

include hE

/-- An answer of the API is among the failures. -/
theorem silent_api {α : Type} {e : ApiException} {details : Json} :
    (.throw (.api e details) : AddScript α).Silent E :=
  hE _ QuickAddFailure.not_unprepared_api

theorem silent_createWorkIn (work : NewWork) : (createWorkIn env userId work).Silent E := by
  have hexist : ∀ authors, (assertAuthorsExist authors).Silent E := by
    intro authors
    unfold assertAuthorsExist
    dsimp only
    split
    · trivial
    · refine (Script.Silent.select _).bind fun found => ?_
      split
      · exact silent_api hE
      · trivial
  have hlinked : ∀ author, (linkedAuthor env author).Silent E := by
    intro author
    unfold linkedAuthor
    split
    · trivial
    · exact fun _ => trivial
  refine (hexist _).bind fun _ _ => ?_
  refine (Script.Silent.mapM hlinked).bind fun links => ?_
  exact (Script.Silent.forM fun _ => show Script.Silent E (.insert _) from trivial).bind fun _ =>
    trivial

theorem silent_lockExistingWork (workId : WorkId) : (lockExistingWork workId).Silent E := by
  refine Script.Silent.bind trivial fun _ => (Script.Silent.select _).bind fun work => ?_
  cases work with
  | none => exact silent_api hE
  | some work =>
    dsimp only
    cases work.mergedIntoId with
    | none => trivial
    | some target => exact silent_api hE

theorem silent_createManual (target : QuickAddManualTarget) :
    (createManual env userId target).Silent E := by
  have hisbn : ∀ isbn13, (assertIsbnFree isbn13).Silent E := by
    intro isbn13
    cases isbn13 with
    | none => trivial
    | some isbn13 =>
      refine (Script.Silent.select _).bind fun taken => ?_
      cases taken with
      | none => trivial
      | some taken => exact silent_api hE
  have hwork : ∀ work edition, (manualWork env userId work edition).Silent E := by
    intro work edition
    cases work with
    | existing workId => exact (silent_lockExistingWork hE workId).bind fun _ => trivial
    | new work => exact (silent_createWorkIn hE _).bind fun _ => trivial
  have htranslation : ∀ workId translation,
      (manualTranslation userId workId translation).Silent E := by
    intro workId translation
    cases translation with
    | none => trivial
    | some t => exact fun _ => trivial
  refine (hisbn _).bind fun _ => (hwork _ _).bind fun work => (htranslation _ _).bind fun _ => ?_
  exact (Script.Silent.ofExcept fun e he => hE e (textOrThrow_error he)).bind fun _ _ => trivial

theorem silent_createUnspecifiedEdition (workId : WorkId) (coverUrl : Option String) :
    (createUnspecifiedEdition userId workId coverUrl).Silent E :=
  (silent_lockExistingWork hE workId).bind fun _ _ => trivial

/-! ### Editions -/

theorem silent_existingEditionId (editionId : EditionId) :
    (existingEditionId editionId).Silent E := by
  refine (Script.Silent.select _).bind fun edition => ?_
  cases edition with
  | none => exact silent_api hE
  | some edition => trivial

theorem silent_findLocal (isbnFirst : Bool) (identity : LocalIdentity) :
    (ExternalEdition.findLocal isbnFirst identity).Silent E := by
  have hisbn : (ExternalEdition.byIsbn identity.isbn13).Silent E := by
    cases identity.isbn13 with
    | none => trivial
    | some isbn13 => exact Script.Silent.select _
  have hreference : (ExternalEdition.byReference identity.reference).Silent E := by
    cases identity.reference with
    | none => trivial
    | some key => exact Script.Silent.select _
  have hresolve : ∀ byIsbn byReference, (.ofExcept (ExternalEdition.resolveLocal identity byIsbn
      byReference) : AddScript LocalResolution).Silent E := by
    intro byIsbn byReference
    refine Script.Silent.ofExcept fun e he => hE e ?_
    unfold ExternalEdition.resolveLocal at he
    split at he
    · split at he
      · cases he
        exact QuickAddFailure.not_unprepared_api
      · cases he
    · split at he
      · cases he
        exact QuickAddFailure.not_unprepared_api
      · cases he
    · cases he
    · cases he
  unfold ExternalEdition.findLocal
  cases isbnFirst with
  | true => exact hisbn.bind fun _ => hreference.bind fun _ => hresolve _ _
  | false => exact hreference.bind fun _ => hisbn.bind fun _ => hresolve _ _

theorem silent_rememberConfirmed (editionId : EditionId)
    (reference : Option ExternalReferenceKey) :
    (rememberConfirmed editionId reference).Silent E := by
  cases reference with
  | none => trivial
  | some reference =>
    refine Script.Silent.bind trivial fun _ => (Script.Silent.select _).bind fun stored => ?_
    cases stored with
    | none => exact hE _ (QuickAddFailure.not_unprepared_internal (by simp [unpreparedMessages]))
    | some stored =>
      dsimp only
      split
      · exact silent_api hE
      · trivial

theorem silent_foundEditionId (target : QuickAddExternalEditionTarget)
    (confirmed : Option ConfirmedExternalEdition) (referenceKnown : Bool) (editionId : EditionId) :
    (foundEditionId target confirmed referenceKnown editionId).Silent E := by
  unfold foundEditionId
  split
  · exact silent_api hE
  · dsimp only
    split
    · exact (silent_rememberConfirmed hE _ _).bind fun _ => trivial
    · trivial

/-- An edition is created from what the source has confirmed. -/
theorem silent_createdEditionId (target : QuickAddExternalEditionTarget)
    (confirmed : ConfirmedExternalEdition) :
    (createdEditionId env userId target (some confirmed)).Silent E := by
  unfold createdEditionId
  dsimp only
  split
  · refine Script.Silent.bind ?_ fun editionId =>
      (silent_rememberConfirmed hE _ _).bind fun _ => trivial
    exact (silent_createWorkFromSource _).bind fun workId => silent_createManual hE _
  · exact (silent_createFromExternal _ _).bind fun editionId =>
      (silent_rememberConfirmed hE _ _).bind fun _ => trivial

/-! ### Works -/

/-- What follows once the reference of the record has been read. -/
theorem silent_workEditionId (target : QuickAddExternalWorkTarget)
    (confirmed : Option ConfirmedExternalWork) (known : Option KnownExternalWork)
    (h : needsWorkSource target known = true → confirmed = none →
      E (.internal "Запис твору потребує відповіді джерела, але її не отримано")) :
    (if needsWorkSource target known ∧ confirmed.isNone then
        .throw (.internal "Запис твору потребує відповіді джерела, але її не отримано")
      else do
        let workId ← workOfRecord env userId target.key confirmed known
        if target.hasDetails then
          createManual env userId (manualOn workId (editionOfWorkRecord target.edition
            (confirmed.bind ConfirmedExternalWork.coverUrl)) target.translation)
        else unspecifiedEditionId userId target.key confirmed known workId :
      AddScript EditionId).Silent E := by
  split
  · next hneeds => exact h hneeds.1 (Option.isNone_iff_eq_none.mp hneeds.2)
  · next hneeds =>
    have hrecord : (workOfRecord env userId target.key confirmed known).Silent E := by
      cases known with
      | some known => exact Script.Silent.select _
      | none => cases confirmed with
        | none => exact absurd ⟨rfl, rfl⟩ hneeds
        | some confirmed => exact (silent_createWorkFromSource _).bind fun _ => trivial
    refine hrecord.bind fun workId => ?_
    split
    · exact silent_createManual hE _
    · unfold unspecifiedEditionId
      split
      · trivial
      · exact (silent_createUnspecifiedEdition hE _ _).bind fun _ => trivial

/-! ### The rest -/

theorem silent_createCopy (now : Time) (editionId : EditionId) (values : Option QuickAddCopy) :
    (createCopy now userId editionId values).Silent E := by
  refine Script.Silent.bind ?_ fun visibility _ => trivial
  unfold newCopyVisibility
  split
  · trivial
  · refine (Script.Silent.select _).bind fun user => ?_
    cases user with
    | none => exact hE _ (QuickAddFailure.not_unprepared_internal (by simp [unpreparedMessages]))
    | some user => trivial

theorem silent_replay (request : QuickAddRequest) (earlier : LibraryAddOperation) :
    (replay env userId request earlier).Silent E := by
  unfold replay
  split
  · exact silent_api hE
  · refine Script.Silent.bind ?_ fun copy => ?_
    · unfold earlierCopy
      split
      · trivial
      · exact Script.Silent.select _
    · cases copy with
      | none => exact silent_api hE
      | some copy => trivial

end Parts

end Bookswap
