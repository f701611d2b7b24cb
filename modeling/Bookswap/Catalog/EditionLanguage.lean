import Bookswap.Catalog.CatalogSchema

/-!
# edition-language.ts

What is known of an edition's text: whether it is the original or a translation, and its language.
`resolveEditionText` is the one rule, for a new edition and for a change of one.

- I1: an edition with a linked translation is a translation.
- I2: its language is the translation's.
- I3: the language of an original is the work's original language, where that is known.
-/

namespace Bookswap

structure EditionTextState where
  textKind : EditionTextKind
  lang : Option String
  translationId : Option TranslationId
  deriving DecidableEq, Repr

/-- An outer `none` is an absent field: leave it as it is. -/
structure EditionTextPatch where
  textKind : Option EditionTextKind
  lang : Option (Option String)
  translationId : Option (Option TranslationId)

/-- The languages around the edition: of the work's original, of the translation that
`translationId` names, and of the translation that is linked now. -/
structure EditionTextContext where
  workOrigLang : Option String
  targetTranslation : Option String
  currentTranslation : Option String

inductive EditionTextReason
  | languageConflict | kindRequiresUnlink | unlinkNeedsKind
  deriving DecidableEq, Repr

/-- Why a text does not resolve; `internal` is a `throw new Error`. -/
inductive EditionTextFailure
  | refused (reason : EditionTextReason) (message : String)
  | internal (message : String)
  deriving DecidableEq, Repr

/-- The language that the state before implied by itself. -/
def impliedLang (before : EditionTextState) (context : EditionTextContext) : Option String :=
  if before.translationId ≠ none then context.currentTranslation
  else if before.textKind = .original then context.workOrigLang
  else none

def NEW_EDITION : EditionTextState := ⟨.unknown, none, none⟩

/-- A state with a linked translation. -/
def resolveLinkedText (before next : EditionTextState) (patch : EditionTextPatch)
    (context : EditionTextContext) : Except EditionTextFailure EditionTextState := do
  if patch.textKind ≠ none ∧ patch.textKind ≠ some .translation then
    throw (.refused .kindRequiresUnlink
      "Видання з привʼязаним перекладом — це переклад; щоб змінити тип тексту, відвʼяжіть переклад")
  match context.targetTranslation with
  | none => throw (.internal "Для привʼязаного перекладу потрібна його мова")
  | some target =>
    -- a language that was only implied follows the translation
    let lang := if patch.lang = none ∧ before.lang ≠ none ∧ before.lang = impliedLang before context
      then some target else next.lang
    match lang with
    | none => return { next with textKind := .translation, lang := some target }
    | some lang =>
      if lang ≠ target then
        throw (.refused .languageConflict
          s!"Мова видання ({lang}) не збігається з мовою перекладу ({target})")
      return { next with textKind := .translation, lang := some lang }

/-- What unlinking a translation makes of the kind and the language. -/
def resolveUnlink (before next : EditionTextState) (patch : EditionTextPatch)
    (context : EditionTextContext) : Except EditionTextFailure EditionTextState := do
  if before.translationId ≠ none ∧ patch.translationId = some none then
    if patch.textKind = none then
      if context.workOrigLang = none then
        throw (.refused .unlinkNeedsKind
          "Мова оригіналу твору невідома — вкажіть, що відомо про текст видання (textKind)")
      return { next with
        textKind := .original
        lang := if patch.lang = none then context.workOrigLang else next.lang }
    return next
  if before.translationId ≠ none ∧ patch.textKind ≠ none ∧ patch.textKind ≠ some .translation then
    throw (.refused .kindRequiresUnlink
      "Щоб змінити тип тексту видання з перекладу, відвʼяжіть переклад (translationId: null)")
  return next

/-- The language of an original is the work's. -/
def resolveOriginal (next : EditionTextState) (context : EditionTextContext) :
    Except EditionTextFailure EditionTextState :=
  match next.textKind, context.workOrigLang, next.lang with
  | .original, some orig, none => .ok { next with lang := some orig }
  | .original, some orig, some lang =>
    if lang ≠ orig then
      .error (.refused .languageConflict
        s!"Мова видання ({lang}) не збігається з мовою оригіналу твору ({orig})")
    else .ok next
  | _, _, _ => .ok next

/-- `resolveEditionText`; without `current` the edition is new. -/
def resolveEditionText (current : Option EditionTextState) (patch : EditionTextPatch)
    (context : EditionTextContext) : Except EditionTextFailure EditionTextState := do
  let before := current.getD NEW_EDITION
  let next : EditionTextState :=
    { textKind := patch.textKind.getD before.textKind
      lang := patch.lang.getD before.lang
      translationId := patch.translationId.getD before.translationId }
  if next.translationId ≠ none then
    resolveLinkedText before next patch context
  else
    let next ← resolveUnlink before next patch context
    resolveOriginal next context

end Bookswap
