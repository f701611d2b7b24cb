import Bookswap.Lib.Machine
import Bookswap.Web.ResourceState

/-!
# use-resource.ts: one instance of `useApiResource`

The state of a component instance between its callbacks: what the last committed render has, what
is queued for the next one, the runs of the effect with what their closures hold, and the queue of
waiters. A step is one callback: a render that is committed, the flush of its effects, a call of
`reload`, the answer of a request, its `finally`.

React runs the effects of a commit before it renders again or unmounts; in strict mode it runs the
effects of a mount, their clean-ups, and the effects again.
-/

namespace Bookswap

/-- A promise of `reload`, and how many requests had been started when it was made. -/
structure Waiter where
  id : Nat
  before : Nat
  deriving DecidableEq

/-- How far `load()` has come. -/
inductive LoadPhase (α : Type)
  | running
  /-- The request has answered; `finally` is still to come. -/
  | answered (outcome : Except String α)
  | settled (outcome : Except String α)

def LoadPhase.outcome {α : Type} : LoadPhase α → Option (Except String α)
  | .running => none
  | .answered outcome | .settled outcome => some outcome

/-- A run of the main effect. `superseded` is set where the controller aborts. -/
structure EffectRun (α : Type) where
  id : Nat
  key : String
  generation : Nat
  inputs : ResourceInputs
  claimed : List Waiter
  superseded : Bool
  load : LoadPhase α

/-- What resolves a waiter. -/
inductive ResolvedBy
  | request (id : Nat)
  | unmount
  deriving DecidableEq

/-- `Waiters` -/
structure WaiterQueue where
  pending : List Waiter
  mounted : Bool

structure UseResource (α : Type) where
  /-- The committed render. -/
  inputs : ResourceInputs
  nonce : Nat
  tracked : String × Nat
  snapshot : Option (ResourceSnapshot α)
  /-- What is set for the next one. -/
  queuedReloads : Nat
  queuedSnapshot : Option (ResourceSnapshot α)
  /-- In the tree; and whether effects of the commit are still to run. -/
  alive : Bool
  effectPending : Bool
  /-- The runs of the effect, the newest first. -/
  runs : List (EffectRun α)
  queue : WaiterQueue
  /-- How often the queue's clean-up has run. -/
  unmounts : Nat
  /-- The promises that `reload` returned, and those that were resolved. -/
  issued : List Waiter
  resolved : List (Waiter × ResolvedBy)

inductive UseResourceOp (α : Type)
  /-- The component renders with these inputs, and the render is committed. -/
  | render (inputs : ResourceInputs)
  /-- Its effects run. -/
  | flush (strict : Bool)
  | unmount
  | reload
  | answer (id : Nat) (outcome : Except String α)
  | settle (id : Nat)

namespace UseResource

variable {α : Type}

/-- The first render of an instance, committed. -/
def initial (inputs : ResourceInputs) : UseResource α where
  inputs := inputs
  nonce := 0
  tracked := (requestKey 0 inputs, 1)
  snapshot := none
  queuedReloads := 0
  queuedSnapshot := none
  alive := true
  effectPending := true
  runs := []
  queue := ⟨[], true⟩
  unmounts := 0
  issued := []
  resolved := []

/-- What the component shows. -/
def visible (s : UseResource α) : ResourceState α :=
  visibleState s.snapshot s.tracked.1 s.tracked.2

/-- A render: the queued updates, and a new generation when the key is another. -/
def rendered (s : UseResource α) (inputs : ResourceInputs) : UseResource α :=
  let nonce := s.nonce + s.queuedReloads
  let key := requestKey nonce inputs
  let tracked := if s.tracked.1 ≠ key then (key, s.tracked.2 + 1) else s.tracked
  { s with
    inputs := inputs
    nonce := nonce
    tracked := tracked
    snapshot := s.queuedSnapshot <|> s.snapshot
    queuedReloads := 0
    queuedSnapshot := none
    effectPending := (tracked, inputs) ≠ (s.tracked, s.inputs) }

/-- The main effect claims who waits, and starts the request. -/
def runEffect (s : UseResource α) : UseResource α :=
  { s with
    runs := ⟨s.runs.length, s.tracked.1, s.tracked.2, s.inputs, s.queue.pending, false, .running⟩ ::
      s.runs
    queue := { s.queue with pending := [] } }

/-- Its clean-up gives the waiters back and aborts. -/
def cleanEffect (s : UseResource α) : UseResource α :=
  match s.runs with
  | [] => s
  | run :: runs =>
    { s with
      runs := { run with superseded := true, claimed := [] } :: runs
      queue := { s.queue with pending := run.claimed ++ s.queue.pending } }

/-- The life of the queue. -/
def mountQueue (s : UseResource α) : UseResource α :=
  { s with queue := { s.queue with mounted := true } }

def unmountQueue (s : UseResource α) : UseResource α :=
  { s with
    queue := ⟨[], false⟩
    unmounts := s.unmounts + 1
    resolved := s.resolved ++ s.queue.pending.map fun w => (w, .unmount) }

/-- The effects of a commit: at the mount both, in strict mode twice. -/
def flushed (s : UseResource α) (strict : Bool) : UseResource α :=
  let s := { s with effectPending := false }
  match s.runs with
  | [] =>
    let mounted := s.runEffect.mountQueue
    if strict then mounted.cleanEffect.unmountQueue.runEffect.mountQueue else mounted
  | _ :: _ => s.cleanEffect.runEffect

def unmounted (s : UseResource α) : UseResource α :=
  { s.cleanEffect.unmountQueue with alive := false }

def reloaded (s : UseResource α) : UseResource α :=
  let w : Waiter := ⟨s.issued.length, s.runs.length⟩
  if s.queue.mounted then
    { s with
      issued := s.issued ++ [w]
      queue := { s.queue with pending := s.queue.pending ++ [w] }
      queuedReloads := s.queuedReloads + 1 }
  else { s with issued := s.issued ++ [w], resolved := s.resolved ++ [(w, .unmount)] }

/-- What an answer makes of the state. -/
def stateOf : Except String α → ResourceState α
  | .ok data => .ready data
  | .error message => .error message

/-- `load()` goes on: the answer to an aborted request is dropped. -/
def answered (s : UseResource α) (run : EffectRun α) (outcome : Except String α) : UseResource α :=
  { s with
    runs := s.runs.map fun r => if r.id = run.id then { r with load := .answered outcome } else r
    queuedSnapshot :=
      if run.superseded ∨ s.queue.mounted = false then s.queuedSnapshot
      else some ⟨run.key, run.generation, stateOf outcome⟩ }

/-- `finally`: a superseded run resolves nobody. -/
def settled (s : UseResource α) (run : EffectRun α) (outcome : Except String α) : UseResource α :=
  if run.superseded then
    { s with runs := s.runs.map fun r =>
        if r.id = run.id then { r with load := .settled outcome } else r }
  else
    { s with
      runs := s.runs.map fun r =>
        if r.id = run.id then { r with load := .settled outcome, claimed := [] } else r
      resolved := s.resolved ++ run.claimed.map fun w => (w, .request run.id) }

/-- The steps. -/
inductive Step : UseResource α → UseResourceOp α → UseResource α → Prop
  | render {s : UseResource α} {inputs : ResourceInputs} : s.alive = true →
      s.effectPending = false → Step s (.render inputs) (s.rendered inputs)
  | flush {s : UseResource α} {strict : Bool} : s.alive = true → s.effectPending = true →
      Step s (.flush strict) (s.flushed strict)
  | unmount {s : UseResource α} : s.alive = true → s.effectPending = false →
      Step s .unmount s.unmounted
  | reload {s : UseResource α} : Step s .reload s.reloaded
  | answer {s : UseResource α} {run : EffectRun α} {outcome : Except String α} : run ∈ s.runs →
      run.load = .running → Step s (.answer run.id outcome) (s.answered run outcome)
  | settle {s : UseResource α} {run : EffectRun α} {outcome : Except String α} : run ∈ s.runs →
      run.load = .answered outcome → Step s (.settle run.id) (s.settled run outcome)

end UseResource

/-- The machine of one instance. -/
def useApiResource (α : Type) : Machine (UseResource α) (UseResourceOp α) where
  init s := ∃ inputs, s = .initial inputs
  step := UseResource.Step

end Bookswap
