import Bookswap.Lib.LeastRecent
import Bookswap.Search.ExternalSearchService
import Bookswap.Search.ProviderRateLimiter

/-!
# external-search.cache.ts

The blocks of the external sources in the memory of the process, with a time to live, a cap for
each mode and one load for all who ask for a key at the same time. The cache is a function of its
state; `BlockRequests` puts it into a process in which callers come and go, loads end and the clock
runs between any two callbacks.
-/

namespace Bookswap

open Store (OrderedMap)

/-! ## Keys -/

inductive ExternalSearchMode
  | full | suggest
  deriving DecidableEq, Repr

def ExternalSearchMode.text : ExternalSearchMode → String
  | .full => "FULL"
  | .suggest => "SUGGEST"

def BookLookupSource.text : BookLookupSource → String
  | .openLibrary => "OPEN_LIBRARY"
  | .googleBooks => "GOOGLE_BOOKS"
  | .isbndb => "ISBNDB"

/-- `replace(/\s+/gu, ' ')`; whether the last character was a space. -/
def singleSpaced : Bool → List Char → List Char
  | _, [] => []
  | inSpace, c :: cs =>
    if isSpace c then if inSpace then singleSpaced true cs else ' ' :: singleSpaced true cs
    else c :: singleSpaced false cs

/-- `externalSearchCacheKey`; `fold` is `normalize('NFKC').toLocaleLowerCase()`. -/
def externalSearchCacheKey (fold : String → String) (source : BookLookupSource) (query : String)
    (blockIndex blockSize : Nat) (mode : ExternalSearchMode := .full) : String :=
  let normalized := trim (String.ofList (singleSpaced false (fold query).toList))
  "\x00".intercalate
    [mode.text, source.text, toString blockSize, toString blockIndex, normalized]

/-- `key.startsWith('SUGGEST\0')` -/
def isSuggest (key : String) : Bool := "SUGGEST\x00".toList.isPrefixOf key.toList

/-- The mode that the cache takes a key for. -/
def modeOf (key : String) : ExternalSearchMode := if isSuggest key then .suggest else .full

/-! ## The cache -/

/-- The variables of external-search.config.ts that the cache reads. -/
structure BlockCacheEnv where
  cacheTtl : Option Int
  cacheMaxEntries : Option Int
  suggestCacheMaxEntries : Option Int

namespace BlockCacheEnv

variable (env : BlockCacheEnv)

def externalSearchCacheTtlMs : Nat := fromEnv env.cacheTtl (60 * 60000)
def externalSearchCacheMaxEntries : Nat := fromEnv env.cacheMaxEntries 500
def externalSuggestCacheMaxEntries : Nat := fromEnv env.suggestCacheMaxEntries 300

/-- The cap of a mode. -/
def cap : ExternalSearchMode → Nat
  | .full => env.externalSearchCacheMaxEntries
  | .suggest => env.externalSuggestCacheMaxEntries

theorem cap_pos (mode : ExternalSearchMode) : 0 < env.cap mode := by
  cases mode with
  | full => exact fromEnv_pos _ (by decide)
  | suggest => exact fromEnv_pos _ (by decide)

end BlockCacheEnv

structure CacheEntry where
  value : ExternalSearchBlockResult
  expiresAt : Int

abbrev LoadId := Nat

structure ExternalSearchCache where
  entries : OrderedMap String CacheEntry := Store.Table.empty
  inFlight : String → Option LoadId := fun _ => none
  /-- The keys that were read or written, newest first; nothing of the code reads it. -/
  uses : List String := []

/-- What a call of `resolve` comes to. -/
inductive Resolved
  | cached (value : ExternalSearchBlockResult)
  | pending (load : LoadId)
  | started

/-- The entry has the mode. -/
def hasMode (mode : ExternalSearchMode) (e : String × CacheEntry) : Bool := modeOf e.1 = mode

namespace ExternalSearchCache

/-- `read` -/
def read (now : Int) (key : String) (cache : ExternalSearchCache) :
    Option ExternalSearchBlockResult × ExternalSearchCache :=
  match cache.entries.get key with
  | none => (none, cache)
  | some entry =>
    if entry.expiresAt ≤ now then (none, { cache with entries := cache.entries.delete key })
    else (some entry.value,
      { cache with entries := cache.entries.touch key entry, uses := key :: cache.uses })

/-- `peek` -/
def peek (now : Int) (key : String) (cache : ExternalSearchCache) :
    Option ExternalSearchBlockResult × ExternalSearchCache :=
  cache.read now key

/-- `write` -/
def write (env : BlockCacheEnv) (now : Int) (key : String) (value : ExternalSearchBlockResult)
    (cache : ExternalSearchCache) : ExternalSearchCache :=
  let mode := modeOf key
  let entry : CacheEntry := ⟨value, now + env.externalSearchCacheTtlMs⟩
  { cache with
    entries := (cache.entries.touch key entry).evict (hasMode mode) (env.cap mode)
    uses := key :: cache.uses }

/-- `resolve`, up to where it waits; a new load is the load `id`. -/
def resolve (now : Int) (key : String) (id : LoadId) (cache : ExternalSearchCache) :
    Resolved × ExternalSearchCache :=
  match cache.read now key with
  | (some value, cache) => (.cached value, cache)
  | (none, cache) =>
    match cache.inFlight key with
    | some load => (.pending load, cache)
    | none => (.started, { cache with inFlight := Function.update cache.inFlight key (some id) })

/-- The callback of `.then`: a partial block is not stored, and a failed load has none. -/
def loaded (env : BlockCacheEnv) (now : Int) (key : String) (answer : BlockAnswer)
    (cache : ExternalSearchCache) : ExternalSearchCache :=
  match answer with
  | .error _ => cache
  | .ok value => if value.partialFailure = none then cache.write env now key value else cache

/-- The callback of `.finally`. -/
def ended (key : String) (cache : ExternalSearchCache) : ExternalSearchCache :=
  { cache with inFlight := Function.update cache.inFlight key none }

end ExternalSearchCache

/-! ## The process around it -/

/-- How far a load is. -/
inductive BlockLoadPhase
  | loading
  /-- The source has answered, the callbacks have not run. -/
  | settled (answer : BlockAnswer)
  /-- The callback of `.then` has run. -/
  | handled (answer : BlockAnswer)
  /-- The callback of `.finally` has run. -/
  | ended (answer : BlockAnswer)

def BlockLoadPhase.answer? : BlockLoadPhase → Option BlockAnswer
  | .loading => none
  | .settled answer | .handled answer | .ended answer => some answer

structure BlockLoad where
  key : String
  phase : BlockLoadPhase

/-- The load is under way, up to its last callback. -/
def BlockLoad.InFlight (load : BlockLoad) : Prop := ∀ answer, load.phase ≠ .ended answer

abbrev CallerId := Nat

inductive CallerPhase
  | waiting (load : LoadId)
  | answered (answer : BlockAnswer)

structure BlockRequests where
  now : Int
  cache : ExternalSearchCache := {}
  loads : LoadId → Option BlockLoad := fun _ => none
  callers : CallerId → Option CallerPhase := fun _ => none

namespace BlockRequests

inductive Action
  | passes (t : Int)
  | peeks (key : String) (found : Option ExternalSearchBlockResult)
  | resolves (caller : CallerId) (key : String) (id : LoadId)
  | settles (id : LoadId) (answer : BlockAnswer)
  | handles (id : LoadId)
  | ends (id : LoadId)
  | answers (caller : CallerId)

/-- The load `id` is this one now. -/
def withLoad (s : BlockRequests) (id : LoadId) (load : BlockLoad) : BlockRequests :=
  { s with loads := Function.update s.loads id (some load) }

/-- The caller is in this phase now. -/
def withCaller (s : BlockRequests) (caller : CallerId) (phase : CallerPhase) : BlockRequests :=
  { s with callers := Function.update s.callers caller (some phase) }

inductive Step (env : BlockCacheEnv) : BlockRequests → Action → BlockRequests → Prop
  | passes {s} {t : Int} (hle : s.now ≤ t) : Step env s (.passes t) { s with now := t }
  | peeks {s key found cache} (h : s.cache.peek s.now key = (found, cache)) :
    Step env s (.peeks key found) { s with cache := cache }
  | cached {s caller key id value cache} (hcaller : s.callers caller = none)
    (hid : s.loads id = none) (h : s.cache.resolve s.now key id = (.cached value, cache)) :
    Step env s (.resolves caller key id)
      ({ s with cache := cache }.withCaller caller (.answered (.ok value)))
  | joins {s caller key id load cache} (hcaller : s.callers caller = none)
    (hid : s.loads id = none) (h : s.cache.resolve s.now key id = (.pending load, cache)) :
    Step env s (.resolves caller key id) ({ s with cache := cache }.withCaller caller (.waiting load))
  | starts {s caller key id cache} (hcaller : s.callers caller = none) (hid : s.loads id = none)
    (h : s.cache.resolve s.now key id = (.started, cache)) :
    Step env s (.resolves caller key id)
      (({ s with cache := cache }.withLoad id ⟨key, .loading⟩).withCaller caller (.waiting id))
  | settles {s id key answer} (h : s.loads id = some ⟨key, .loading⟩) :
    Step env s (.settles id answer) (s.withLoad id ⟨key, .settled answer⟩)
  | handles {s id key answer} (h : s.loads id = some ⟨key, .settled answer⟩) :
    Step env s (.handles id)
      ({ s with cache := s.cache.loaded env s.now key answer }.withLoad id ⟨key, .handled answer⟩)
  | ends {s id key answer} (h : s.loads id = some ⟨key, .handled answer⟩) :
    Step env s (.ends id) ({ s with cache := s.cache.ended key }.withLoad id ⟨key, .ended answer⟩)
  | answers {s caller id key answer} (h : s.callers caller = some (.waiting id))
    (hload : s.loads id = some ⟨key, .ended answer⟩) :
    Step env s (.answers caller) (s.withCaller caller (.answered answer))

end BlockRequests

/-- One process: at any time of the clock it starts with an empty cache and nobody asking. -/
def blockRequests (env : BlockCacheEnv) : Machine BlockRequests BlockRequests.Action where
  init s := s.cache = {} ∧ (∀ id, s.loads id = none) ∧ ∀ caller, s.callers caller = none
  step := BlockRequests.Step env

end Bookswap
