import Bookswap.Web.UseResource
import Bookswap.Web.Wishlist

/-!
# use-wishlist.ts: one instance of `useWishlist`

The hook over its resource (`useApiResource`), the server's list and the requests of this client.
A step is one callback, one commit with what the render sets, the effects of a commit, or something
that happens at the server: it carries a request out, it answers a GET, another tab changes the
list.

`operationsRef` is synced by an effect. The hook relies on React to run the effects of a commit
before the next handler of the component, and so do the steps: a handler finds no effect pending.
Renders and GETs come at any time between.
-/

namespace Bookswap

/-- `WishlistResponse`: an object of its own for each GET. -/
structure WishlistResponse where
  /-- Which request it answers. -/
  get : Nat
  items : List WishlistItemDto
  deriving DecidableEq

/-- A request that `mutate` has sent. -/
structure WishlistRequest where
  workId : String
  kind : WishlistOperationKind
  /-- The server has carried it out. -/
  served : Bool
  /-- Whether it succeeded, once it has been answered. -/
  answer : Option Bool
  /-- What was shown of the work when it was sent, and over which answer. -/
  shown : Bool
  overData : Option WishlistResponse
  deriving DecidableEq

def WishlistRequest.inFlight (r : WishlistRequest) : Bool := r.answer = none

/-- What the server read for a GET, with who had last changed each work. -/
structure WishlistRead where
  response : WishlistResponse
  changedBy : String → Option Nat

structure UseWishlist where
  resource : UseResource WishlistResponse
  lastData : Option WishlistResponse
  /-- The journal of the committed render, what is set for the next one, and the ref. -/
  operations : WishlistOperations
  queuedOperations : Option WishlistOperations
  operationsRef : WishlistOperations
  /-- Effects of the last commit are to run, among them the one that syncs the ref. -/
  effectPending : Bool
  syncPending : Bool
  /-- The requests that were sent. -/
  requests : List WishlistRequest
  /-- The last success for a work, and how many GETs had been started at the last answer. -/
  confirmed : String → Option Nat
  answeredAt : Nat
  /-- The list of the server, and which request, if one of these, changed a work last. -/
  server : List WishlistItemDto
  changedBy : String → Option Nat
  reads : List WishlistRead

inductive UseWishlistOp
  | render
  | flush (strict : Bool)
  | unmount
  | mutate (workId : String) (kind : WishlistOperationKind)
  /-- The server carries a request out; the row it adds has this id. -/
  | serve (request : Nat) (id : String)
  /-- The request is answered. -/
  | answer (request : Nat) (ok : Bool)
  /-- Another tab adds or removes. -/
  | elsewhere (workId : String) (kind : WishlistOperationKind) (id : String)
  /-- The server reads the list for a GET; its answer arrives, or it fails; its `finally`. -/
  | read (get : Nat)
  | delivered (get : Nat)
  | failed (get : Nat) (message : String)
  | settle (get : Nat)

namespace UseWishlist

def wishlistInputs : ResourceInputs := ⟨"/me/wishlist", 0⟩

/-- The first render of an instance, committed. -/
def initial (server : List WishlistItemDto) : UseWishlist where
  resource := .initial wishlistInputs
  lastData := none
  operations := .empty
  queuedOperations := none
  operationsRef := .empty
  effectPending := true
  syncPending := true
  requests := []
  confirmed := fun _ => none
  answeredAt := 0
  server := server
  changedBy := fun _ => none
  reads := []

variable (s : UseWishlist)

/-- The journal once what is set has been rendered. -/
def latest : WishlistOperations := s.queuedOperations.getD s.operations

def data : Option WishlistResponse := visibleData s.resource.visible s.lastData

def items : Option (List WishlistItemDto) := s.data.map fun data => applyOperations data.items s.latest

def isMember (workId : String) : Bool :=
  match s.items with
  | some items => isInWishlist items workId
  | none => false

def inFlight : List WishlistRequest := s.requests.filter WishlistRequest.inFlight

/-- A render: what is set, and a new answer with its reconciliation. -/
def rendered : UseWishlist :=
  let resource := s.resource.rendered wishlistInputs
  let operations := s.latest
  let next := { s with
    resource := resource
    operations := operations
    queuedOperations := none
    effectPending := true
    syncPending := s.queuedOperations ≠ none }
  match resource.visible with
  | .ready data =>
    if s.lastData ≠ some data then
      let reconciled := reconcileOperations operations data.items
      { next with
        lastData := some data
        operations := reconciled
        syncPending := next.syncPending ∨ reconciled ≠ operations }
    else next
  | _ => next

/-- The effects of a commit. -/
def flushed (strict : Bool) : UseWishlist :=
  { s with
    resource := if s.resource.effectPending then s.resource.flushed strict else s.resource
    operationsRef := if s.syncPending then s.operations else s.operationsRef
    effectPending := false
    syncPending := false }

def applyOperationsChange (next : WishlistOperations) : UseWishlist :=
  { s with operationsRef := next, queuedOperations := some next }

def intentOf (workId : String) : WishlistOperationKind → WishlistOperationIntent
  | .add => .add (optimisticWishlistItem workId)
  | .remove => .remove

/-- `mutate` up to its request. -/
def mutated (workId : String) (kind : WishlistOperationKind) : UseWishlist :=
  match s.data with
  | none => s
  | some _ =>
    let attempt := beginOperation s.operationsRef workId (intentOf workId kind)
    if attempt.2 then
      { s.applyOperationsChange attempt.1 with
        requests := s.requests ++ [⟨workId, kind, false, none, s.isMember workId, s.data⟩] }
    else s

/-- What a change makes of the server's list: a row is added at its front, once. -/
def changed (workId : String) (kind : WishlistOperationKind) (id : String) (request : Option Nat) :
    UseWishlist :=
  { s with
    server := match kind with
      | .add => withAdded s.server ⟨id, workId⟩
      | .remove => withRemoved s.server workId
    changedBy := Function.update s.changedBy workId request }

def servedRequest (i : Nat) (r : WishlistRequest) (id : String) : UseWishlist :=
  { s.changed r.workId r.kind id (some i) with
    requests := s.requests.set i { r with served := true } }

/-- `mutate` after its request: `commit` and `reload`, or the roll-back. -/
def answered (i : Nat) (r : WishlistRequest) (ok : Bool) : UseWishlist :=
  let s := { s with
    requests := s.requests.set i { r with answer := some ok }
    confirmed := if ok then Function.update s.confirmed r.workId (some i) else s.confirmed
    answeredAt := s.resource.runs.length }
  if s.resource.alive = false then s
  else if ok then
    let next := s.applyOperationsChange (withCommittedOperation s.operationsRef r.workId)
    { next with resource := next.resource.reloaded }
  else s.applyOperationsChange (withRolledBackOperation s.operationsRef r.workId)

inductive Step : UseWishlist → UseWishlistOp → UseWishlist → Prop
  | render {s : UseWishlist} : s.resource.alive = true → s.effectPending = false →
      Step s .render s.rendered
  | flush {s : UseWishlist} {strict : Bool} : s.resource.alive = true → s.effectPending = true →
      Step s (.flush strict) (s.flushed strict)
  | unmount {s : UseWishlist} : s.resource.alive = true → s.effectPending = false →
      Step s .unmount { s with resource := s.resource.unmounted }
  | mutate {s : UseWishlist} {workId : String} {kind : WishlistOperationKind} :
      s.resource.alive = true → s.effectPending = false →
      Step s (.mutate workId kind) (s.mutated workId kind)
  | serve {s : UseWishlist} {i : Nat} {r : WishlistRequest} {id : String} :
      s.requests[i]? = some r → r.served = false → Step s (.serve i id) (s.servedRequest i r id)
  | answer {s : UseWishlist} {i : Nat} {r : WishlistRequest} {ok : Bool} :
      s.requests[i]? = some r → r.answer = none → (ok = true → r.served = true) →
      s.effectPending = false → Step s (.answer i ok) (s.answered i r ok)
  | elsewhere {s : UseWishlist} {workId : String} {kind : WishlistOperationKind} {id : String} :
      Step s (.elsewhere workId kind id) (s.changed workId kind id none)
  | read {s : UseWishlist} {run : EffectRun WishlistResponse} : run ∈ s.resource.runs →
      run.load = .running → (∀ read ∈ s.reads, read.response.get ≠ run.id) →
      Step s (.read run.id) { s with reads := s.reads ++ [⟨⟨run.id, s.server⟩, s.changedBy⟩] }
  | delivered {s : UseWishlist} {run : EffectRun WishlistResponse} {read : WishlistRead} :
      run ∈ s.resource.runs → run.load = .running → read ∈ s.reads → read.response.get = run.id →
      Step s (.delivered run.id) { s with resource := s.resource.answered run (.ok read.response) }
  | failed {s : UseWishlist} {run : EffectRun WishlistResponse} {message : String} :
      run ∈ s.resource.runs → run.load = .running →
      Step s (.failed run.id message) { s with resource := s.resource.answered run (.error message) }
  | settle {s : UseWishlist} {run : EffectRun WishlistResponse}
      {outcome : Except String WishlistResponse} : run ∈ s.resource.runs →
      run.load = .answered outcome →
      Step s (.settle run.id) { s with resource := s.resource.settled run outcome }

end UseWishlist

end Bookswap
