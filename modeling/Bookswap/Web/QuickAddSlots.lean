import Bookswap.Lib.Labels
import Bookswap.QuickAdd.QuickAddRequest

/-!
# quick-add-slots.ts: the slots of a quick-add

One slot for an edition: its identities are aliases of the slot's key. An action that names
identities overwrites the aliases of those, and of no others (`withAliases`).
-/

namespace Bookswap

inductive QuickAddSlot
  | pending (operationId : OperationId) (request : QuickAddRequest) (added : Nat)
      (screen : Option String)
  | unknown (operationId : OperationId) (request : QuickAddRequest) (added : Nat) (message : String)
      (screen : Option String)
  | rejected (added : Nat) (message : String) (operation : Option (OperationId × QuickAddRequest))
      (code : Option String) (details : Option Json)
  | done (added : Nat) (copyId : CopyId) (editionId : EditionId)

def QuickAddSlot.added : QuickAddSlot → Nat
  | .pending _ _ added _ | .unknown _ _ added _ _ | .rejected added .. | .done added .. => added

/-- The outcome of the slot's operation is not known yet. -/
def QuickAddSlot.unsettled : QuickAddSlot → Bool
  | .pending .. | .unknown .. => true
  | .rejected .. | .done .. => false

structure QuickAddSlotsState where
  slots : String → Option QuickAddSlot
  aliases : String → Option String

/-- `EMPTY_SLOTS` -/
def emptySlots : QuickAddSlotsState := ⟨fun _ => none, fun _ => none⟩

inductive QuickAddSlotsAction
  | started (key : String) (identities : List String) (operationId : OperationId)
      (request : QuickAddRequest) (screen : Option String)
  | unknown (key : String) (message : String)
  | rejected (key : String) (message : String) (code : Option String) (details : Option Json)
  | done (key : String) (identities : List String) (copyId : CopyId) (editionId : EditionId)

/-- The first known alias, or else the first identity; of none it throws. -/
def slotKeyOf (state : QuickAddSlotsState) (identities : List String) : Option String :=
  identities.findSome? state.aliases <|> identities.head?

def slotOf (state : QuickAddSlotsState) (identities : List String) : Option QuickAddSlot :=
  (slotKeyOf state identities).bind state.slots

/-- `edition:<id>` -/
def editionIdentity (editionId : EditionId) : String := "edition:" ++ toString editionId

def isbnIdentity (isbn13 : String) : String := "isbn:" ++ isbn13

def identitiesOf (editionId : EditionId) (isbn13 : Option String) : List String :=
  editionIdentity editionId :: isbn13.toList.map isbnIdentity

def withAliases (aliases : String → Option String) (key : String) (identities : List String) :
    String → Option String :=
  Labels.relabel aliases key (key :: identities)

def quickAddSlotsReducer (state : QuickAddSlotsState) :
    QuickAddSlotsAction → QuickAddSlotsState
  | .started key identities operationId request screen =>
    let added := ((state.slots key).map QuickAddSlot.added).getD 0
    { slots := Function.update state.slots key (some (.pending operationId request added screen))
      aliases := withAliases state.aliases key identities }
  | .unknown key message =>
    match state.slots key with
    | some (.pending operationId request added screen) =>
      { state with slots :=
          Function.update state.slots key (some (.unknown operationId request added message screen)) }
    | _ => state
  | .rejected key message code details =>
    let added := ((state.slots key).map QuickAddSlot.added).getD 0
    let operation := match state.slots key with
      | some (.pending operationId request _ _) => some (operationId, request)
      | _ => none
    { state with slots :=
        Function.update state.slots key (some (.rejected added message operation code details)) }
  | .done key identities copyId editionId =>
    let added := ((state.slots key).map QuickAddSlot.added).getD 0
    { slots := Function.update state.slots key (some (.done (added + 1) copyId editionId))
      aliases := withAliases state.aliases key (identities ++ [editionIdentity editionId]) }

/-- The key and the identities that an action makes its aliases. -/
def QuickAddSlotsAction.links : QuickAddSlotsAction → Option (String × List String)
  | .started key identities .. => some (key, key :: identities)
  | .done key identities _ editionId =>
    some (key, key :: identities ++ [editionIdentity editionId])
  | .unknown .. | .rejected .. => none

/-- **Aliases are overwritten for the identities of the action only.** -/
theorem aliases_quickAddSlotsReducer (state : QuickAddSlotsState) (action : QuickAddSlotsAction) :
    (quickAddSlotsReducer state action).aliases = match action.links with
      | some (key, listed) => Labels.relabel state.aliases key listed
      | none => state.aliases := by
  cases action with
  | started => rfl
  | done => rfl
  | rejected => rfl
  | unknown key message =>
    unfold quickAddSlotsReducer
    dsimp only
    split <;> rfl

end Bookswap
