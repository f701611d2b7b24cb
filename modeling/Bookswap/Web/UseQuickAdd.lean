import Bookswap.Web.QuickAddSlots
import Bookswap.Lib.Machine
import Bookswap.Lib.OrderedMap

/-!
# use-quick-add.ts: one instance of `useQuickAdd`

The reducer's state, the ref that an effect syncs with it, the operations in flight and the stored
entries of the user. A handler reads the ref, which may be older than the state. `actions` keeps
what was dispatched.
-/

namespace Bookswap

open Store

/-- `QuickAddAttempt` -/
structure QuickAddAttempt where
  identities : List String
  target : QuickAddTarget
  entryMethod : CopyEntryMethod
  copy : Option QuickAddCopy
  additional : Bool
  screen : Option String

/-- `PendingEntry` (quick-add-storage.ts) -/
structure PendingEntry where
  operationId : OperationId
  identities : List String
  request : QuickAddRequest
  screen : Option String

/-- What `run` has come to: the request goes on, or its success is being reported. -/
structure QuickAddRun where
  entry : PendingEntry
  succeeded : Bool

/-- How the request of `run` ended. -/
inductive QuickAddAnswer
  | added (copyId : CopyId) (editionId : EditionId)
  | rejected (message : String) (code : Option String) (details : Option Json)
  | unknown (message : String)

structure UseQuickAdd where
  state : QuickAddSlotsState
  /-- `stateRef` -/
  seen : QuickAddSlotsState
  /-- `inFlight`, with what is in flight. -/
  inFlight : OrderedMap String QuickAddRun
  /-- The stored entries; the ones of before the reload that are still to be resumed. -/
  stored : OrderedMap String PendingEntry
  resuming : List (String × PendingEntry)
  actions : List QuickAddSlotsAction

inductive UseQuickAddOp
  /-- The effect of a commit. -/
  | sync
  /-- An entry is resumed after a reload. -/
  | resume
  | add (attempt : QuickAddAttempt) (operationId : OperationId)
  | retry (identities : List String)
  | answer (key : String) (answer : QuickAddAnswer)
  /-- The success has been reported. -/
  | reported (key : String)

namespace UseQuickAdd

/-- A page that was loaded with these entries in its storage. -/
def loaded (stored : OrderedMap String PendingEntry) : UseQuickAdd where
  state := emptySlots
  seen := emptySlots
  inFlight := .empty
  stored := stored
  resuming := stored.rows
  actions := []

variable (s : UseQuickAdd)

def dispatch (action : QuickAddSlotsAction) : UseQuickAdd :=
  { s with state := quickAddSlotsReducer s.state action, actions := s.actions ++ [action] }

/-- `run` up to its request. -/
def run (key : String) (entry : PendingEntry) : UseQuickAdd :=
  match s.inFlight.get key with
  | some _ => s
  | none =>
    { s.dispatch (.started key entry.identities entry.operationId entry.request entry.screen) with
      inFlight := s.inFlight.set key ⟨entry, false⟩
      stored := s.stored.set key entry }

def retry (identities : List String) : UseQuickAdd :=
  match slotKeyOf s.seen identities with
  | none => s
  | some key =>
    match s.seen.slots key with
    | some (.unknown operationId request _ _ screen) =>
      s.run key ⟨operationId, identities, request, screen⟩
    | _ => s

def add (attempt : QuickAddAttempt) (operationId : OperationId) : UseQuickAdd :=
  match slotKeyOf s.seen attempt.identities with
  | none => s
  | some key =>
    if (s.inFlight.get key).isSome then s
    else
      let started := s.run key
        { operationId := operationId
          identities := attempt.identities
          request := ⟨operationId, some attempt.entryMethod, attempt.copy, attempt.target⟩
          screen := attempt.screen }
      match s.seen.slots key with
      | some (.pending ..) => s
      | some (.unknown ..) => s.retry attempt.identities
      | some (.done ..) => if attempt.additional then started else s
      | some (.rejected ..) | none => started

/-- `run` after its request. -/
def answered (key : String) (run : QuickAddRun) : QuickAddAnswer → UseQuickAdd
  | .added copyId editionId =>
    { s.dispatch (.done key run.entry.identities copyId editionId) with
      inFlight := s.inFlight.set key { run with succeeded := true }
      stored := s.stored.delete key }
  | .rejected message code details =>
    { s.dispatch (.rejected key message code details) with
      inFlight := s.inFlight.delete key
      stored := s.stored.delete key }
  | .unknown message =>
    { s.dispatch (.unknown key message) with inFlight := s.inFlight.delete key }

/-- The steps. The entries are resumed by one effect, so nothing comes between. -/
inductive Step : UseQuickAdd → UseQuickAddOp → UseQuickAdd → Prop
  | sync {s : UseQuickAdd} : Step s .sync { s with seen := s.state }
  | resume {s : UseQuickAdd} {key : String} {entry : PendingEntry}
      {rest : List (String × PendingEntry)} : s.resuming = (key, entry) :: rest →
      Step s .resume { s.run key entry with resuming := rest }
  | add {s : UseQuickAdd} {attempt : QuickAddAttempt} {operationId : OperationId} :
      s.resuming = [] → Step s (.add attempt operationId) (s.add attempt operationId)
  | retry {s : UseQuickAdd} {identities : List String} : s.resuming = [] →
      Step s (.retry identities) (s.retry identities)
  | answer {s : UseQuickAdd} {key : String} {run : QuickAddRun} {answer : QuickAddAnswer} :
      s.resuming = [] → s.inFlight.get key = some run → run.succeeded = false →
      Step s (.answer key answer) (s.answered key run answer)
  | reported {s : UseQuickAdd} {key : String} {run : QuickAddRun} : s.resuming = [] →
      s.inFlight.get key = some run → run.succeeded = true →
      Step s (.reported key) { s with inFlight := s.inFlight.delete key }

end UseQuickAdd

def useQuickAdd : Machine UseQuickAdd UseQuickAddOp where
  init s := ∃ stored, s = .loaded stored
  step := UseQuickAdd.Step

end Bookswap
