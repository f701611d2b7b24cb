import Bookswap.Search.ExternalSearchCache

/-!
# The cache of the external blocks

Reading moves an entry to the end of the map or drops it, and only `write` evicts: from the front,
and only of the mode that it writes. A load has its key in `inFlight` up to its last callback, so
nobody starts another one meanwhile; between the two callbacks the entry that it stored and the
load itself say the same.

- `BlockRequests.Inv`, `Inv.step`: what a step keeps.
- `BlockRequests.Gets`: what a caller who waits for a load will get, whatever happens.
- `BlockRequests.Sound`, `BlockRequests.Served`: what holds of a state, and of a step.
- `external_block_cache`: they hold in every run.
-/

namespace Bookswap

open Store (OrderedMap lastUse)
open Store.OrderedMap (InOrder)

/-! ## Keys -/

/-- The mode of a key is the mode that it was made for. -/
theorem modeOf_externalSearchCacheKey (fold : String → String) (source : BookLookupSource)
    (query : String) (blockIndex blockSize : Nat) (mode : ExternalSearchMode) :
    modeOf (externalSearchCacheKey fold source query blockIndex blockSize mode) = mode := by
  have hkey : externalSearchCacheKey fold source query blockIndex blockSize mode =
      mode.text ++ "\x00" ++ source.text ++ "\x00" ++ toString blockSize ++ "\x00" ++
        toString blockIndex ++ "\x00" ++
          trim (String.ofList (singleSpaced false (fold query).toList)) := rfl
  unfold modeOf isSuggest
  rw [hkey]
  simp only [String.toList_append, List.append_assoc]
  cases mode with
  | full =>
    have hfront : ExternalSearchMode.full.text.toList = ['F', 'U', 'L', 'L'] := rfl
    rw [hfront]
    rfl
  | suggest =>
    have hfront : ExternalSearchMode.suggest.text.toList = ['S', 'U', 'G', 'G', 'E', 'S', 'T'] := rfl
    rw [hfront]
    rfl

/-! ## What reading and writing leave -/

namespace ExternalSearchCache

variable {env : BlockCacheEnv} {cache cache' : ExternalSearchCache} {now : Int} {key : String}

/-- The three ways to read a key. -/
theorem read_cases (cache : ExternalSearchCache) (now : Int) (key : String) :
    (cache.entries.get key = none ∧ cache.read now key = (none, cache)) ∨
    (∃ entry, cache.entries.get key = some entry ∧ entry.expiresAt ≤ now ∧
      cache.read now key = (none, { cache with entries := cache.entries.delete key })) ∨
    ∃ entry, cache.entries.get key = some entry ∧ now < entry.expiresAt ∧
      cache.read now key = (some entry.value,
        { cache with entries := cache.entries.touch key entry, uses := key :: cache.uses }) := by
  unfold read
  cases hget : cache.entries.get key with
  | none => exact .inl ⟨rfl, rfl⟩
  | some entry =>
    by_cases hexpired : entry.expiresAt ≤ now
    · exact .inr (.inl ⟨entry, rfl, hexpired, if_pos hexpired⟩)
    · exact .inr (.inr ⟨entry, rfl, Int.not_le.mp hexpired, if_neg hexpired⟩)

/-- What reading keeps: it drops an expired entry, or nothing. -/
structure Reads (now : Int) (cache cache' : ExternalSearchCache) : Prop where
  inFlight : cache'.inFlight = cache.inFlight
  known : ∀ k entry, cache'.entries.get k = some entry → cache.entries.get k = some entry
  kept : ∀ k entry, cache.entries.get k = some entry →
    cache'.entries.get k = some entry ∨ entry.expiresAt ≤ now
  inOrder : InOrder cache.uses cache.entries → InOrder cache'.uses cache'.entries
  count : ∀ mode, cache'.entries.count (hasMode mode) ≤ cache.entries.count (hasMode mode)

theorem reads_read (cache : ExternalSearchCache) (now : Int) (key : String) :
    Reads now cache (cache.read now key).2 := by
  rcases read_cases cache now key with ⟨-, hread⟩ | ⟨entry, hget, hexpired, hread⟩ |
    ⟨entry, hget, -, hread⟩
  · rw [hread]
    exact ⟨rfl, fun _ _ h => h, fun _ _ h => .inl h, id, fun _ => Nat.le_refl _⟩
  · rw [hread]
    refine ⟨rfl, fun k e h => ?_, fun k e h => ?_, fun h => h.delete key,
      fun mode => OrderedMap.count_delete_le _ _ _⟩
    · change (cache.entries.delete key).get k = some e at h
      rw [OrderedMap.get_delete] at h
      split at h
      · cases h
      · exact h
    · show (cache.entries.delete key).get k = some e ∨ _
      rw [OrderedMap.get_delete]
      split
      · next hk =>
        subst hk
        rw [hget] at h
        cases h
        exact .inr hexpired
      · exact .inl h
  · rw [hread]
    have hsame : ∀ k, (cache.entries.touch key entry).get k = cache.entries.get k := by
      intro k
      rw [OrderedMap.get_touch]
      split
      · next hk =>
        subst hk
        exact hget.symm
      · rfl
    refine ⟨rfl, fun k e h => ?_, fun k e h => .inl ?_, fun h => h.touch key entry, fun mode => ?_⟩
    · rw [← hsame k]
      exact h
    · exact (hsame k).trans h
    · exact Nat.le_of_eq (OrderedMap.count_touch_of_get entry rfl hget)

/-- The three ways to resolve a key. -/
theorem resolve_cases {resolved : Resolved} {id : LoadId}
    (h : cache.resolve now key id = (resolved, cache')) :
    (∃ entry, cache.entries.get key = some entry ∧ now < entry.expiresAt ∧
      resolved = .cached entry.value ∧ Reads now cache cache') ∨
    (∃ load, cache.inFlight key = some load ∧ resolved = .pending load ∧ Reads now cache cache') ∨
    (cache.inFlight key = none ∧ resolved = .started ∧ ∃ cache₁, Reads now cache cache₁ ∧
      cache₁.entries.get key = none ∧
      cache' = { cache₁ with inFlight := Function.update cache₁.inFlight key (some id) }) := by
  have hreads := reads_read cache now key
  unfold resolve at h
  rcases read_cases cache now key with ⟨hget, hread⟩ | ⟨entry, hget, hexpired, hread⟩ |
    ⟨entry, hget, hfresh, hread⟩
  case inr.inr =>
    rw [hread] at h hreads
    cases h
    exact .inl ⟨entry, hget, hfresh, rfl, hreads⟩
  all_goals
    rw [hread] at h hreads
    dsimp only at h
    cases hflight : cache.inFlight key with
    | some load =>
      rw [hflight] at h
      cases h
      exact .inr (.inl ⟨load, rfl, rfl, hreads⟩)
    | none =>
      rw [hflight] at h
      cases h
      refine .inr (.inr ⟨rfl, rfl, _, hreads, ?_, rfl⟩)
      first
      | exact hget
      | exact (OrderedMap.get_delete ..).trans (if_pos rfl)

theorem get_write {value : ExternalSearchBlockResult} {k : String} {entry : CacheEntry}
    (h : (cache.write env now key value).entries.get k = some entry) :
    (k = key ∧ entry = ⟨value, now + env.externalSearchCacheTtlMs⟩) ∨
      k ≠ key ∧ cache.entries.get k = some entry := by
  have hmem : (k, entry) ∈ cache.entries.touch key ⟨value, now + env.externalSearchCacheTtlMs⟩ :=
    OrderedMap.evict_sublist.mem (OrderedMap.get_eq_some_iff.mp h)
  have hget := OrderedMap.get_eq_some_iff.mpr hmem
  rw [OrderedMap.get_touch] at hget
  split at hget
  · next hk => exact .inl ⟨hk, (Option.some.inj hget).symm⟩
  · next hk => exact .inr ⟨hk, hget⟩

theorem inOrder_write (h : InOrder cache.uses cache.entries) (value : ExternalSearchBlockResult) :
    InOrder (cache.write env now key value).uses (cache.write env now key value).entries :=
  (h.touch key _).sublist OrderedMap.evict_sublist

theorem hasMode_of_ne {mode : ExternalSearchMode} (hmode : mode ≠ modeOf key)
    (e : String × CacheEntry) (he : hasMode mode e = true) : e.1 ≠ key := by
  rintro rfl
  exact hmode (of_decide_eq_true he).symm

/-- **The entries of the other mode stay as they are.** -/
theorem filter_write_of_ne {mode : ExternalSearchMode} (hmode : mode ≠ modeOf key)
    (value : ExternalSearchBlockResult) :
    (cache.write env now key value).entries.rows.filter (hasMode mode) =
      cache.entries.rows.filter (hasMode mode) := by
  have hother : hasMode mode = fun e => !hasMode (modeOf key) e := by
    funext e
    unfold hasMode
    cases mode <;> cases hk : modeOf key <;> cases modeOf e.1 <;>
      first | rfl | exact absurd hk.symm hmode
  rw [← OrderedMap.filter_touch_of_other cache.entries _ (hasMode_of_ne hmode), hother]
  exact OrderedMap.filter_others_evict _ _ _

/-- **Each mode keeps to its own cap.** -/
theorem count_write (h : ∀ mode, cache.entries.count (hasMode mode) ≤ env.cap mode)
    (value : ExternalSearchBlockResult) (mode : ExternalSearchMode) :
    (cache.write env now key value).entries.count (hasMode mode) ≤ env.cap mode := by
  by_cases hmode : mode = modeOf key
  · subst hmode
    refine (Nat.le_of_eq OrderedMap.count_evict).trans ?_
    exact Nat.min_le_right _ _
  · have hsame : (cache.write env now key value).entries.count (hasMode mode) =
        cache.entries.count (hasMode mode) := by
      unfold OrderedMap.count
      rw [List.countP_eq_length_filter, filter_write_of_ne hmode, List.countP_eq_length_filter]
    rw [hsame]
    exact h mode

/-- **What a write evicts** is of its mode, which is full, and was used before all that stay. -/
theorem evicted_write (h : InOrder cache.uses cache.entries) {value : ExternalSearchBlockResult}
    {e : String × CacheEntry} (he : e ∈ cache.entries) (hkey : e.1 ≠ key)
    (hgone : e ∉ (cache.write env now key value).entries) :
    modeOf e.1 = modeOf key ∧
      (cache.write env now key value).entries.count (hasMode (modeOf key)) = env.cap (modeOf key) ∧
      ∀ e' ∈ (cache.write env now key value).entries, modeOf e'.1 = modeOf key →
        lastUse e.1 (cache.write env now key value).uses <
          lastUse e'.1 (cache.write env now key value).uses := by
  have hmem : e ∈ cache.entries.touch key ⟨value, now + env.externalSearchCacheTtlMs⟩ := by
    refine OrderedMap.get_eq_some_iff.mp ?_
    rw [OrderedMap.get_touch, if_neg hkey]
    exact OrderedMap.get_eq_some_iff.mpr he
  obtain ⟨hown, hfull, hbefore⟩ := (h.touch key _).evicted hmem hgone
  refine ⟨of_decide_eq_true hown, ?_, fun e' he' hmode => hbefore e' he' (decide_eq_true hmode)⟩
  refine OrderedMap.count_evict.trans ?_
  omega

/-! ### The callback of `.then` -/

variable {answer : BlockAnswer}

/-- A load that failed or that brought a part stores nothing, any other is written. -/
theorem loaded_cases (env : BlockCacheEnv) (now : Int) (key : String) (answer : BlockAnswer)
    (cache : ExternalSearchCache) :
    cache.loaded env now key answer = cache ∨
      ∃ value, answer = .ok value ∧ value.partialFailure = none ∧
        cache.loaded env now key answer = cache.write env now key value := by
  cases answer with
  | error failure => exact .inl rfl
  | ok value =>
    by_cases hwhole : value.partialFailure = none
    · exact .inr ⟨value, rfl, hwhole, if_pos hwhole⟩
    · exact .inl (if_neg hwhole)

theorem inFlight_loaded : (cache.loaded env now key answer).inFlight = cache.inFlight := by
  rcases loaded_cases env now key answer cache with hsame | ⟨value, -, -, hwrite⟩
  · rw [hsame]
  · rw [hwrite]
    rfl

theorem get_loaded {k : String} {entry : CacheEntry}
    (h : (cache.loaded env now key answer).entries.get k = some entry) :
    (k = key ∧ answer = .ok entry.value ∧ entry.value.partialFailure = none ∧
      entry.expiresAt = now + env.externalSearchCacheTtlMs) ∨
      cache.entries.get k = some entry := by
  rcases loaded_cases env now key answer cache with hsame | ⟨value, hanswer, hwhole, hwrite⟩
  · rw [hsame] at h
    exact .inr h
  · rw [hwrite] at h
    rcases get_write h with ⟨hk, rfl⟩ | ⟨-, hold⟩
    · exact .inl ⟨hk, hanswer, hwhole, rfl⟩
    · exact .inr hold

theorem inOrder_loaded (h : InOrder cache.uses cache.entries) :
    InOrder (cache.loaded env now key answer).uses (cache.loaded env now key answer).entries := by
  rcases loaded_cases env now key answer cache with hsame | ⟨value, -, -, hwrite⟩
  · rwa [hsame]
  · rw [hwrite]
    exact inOrder_write h value

theorem count_loaded (h : ∀ mode, cache.entries.count (hasMode mode) ≤ env.cap mode)
    (mode : ExternalSearchMode) :
    (cache.loaded env now key answer).entries.count (hasMode mode) ≤ env.cap mode := by
  rcases loaded_cases env now key answer cache with hsame | ⟨value, -, -, hwrite⟩
  · rw [hsame]
    exact h mode
  · rw [hwrite]
    exact count_write h value mode

end ExternalSearchCache

/-! ## What a step keeps -/

namespace BlockRequests

open ExternalSearchCache (Reads)

variable {env : BlockCacheEnv} {s s' : BlockRequests} {a : Action} {id j : LoadId}
  {load load' : BlockLoad} {caller : CallerId} {phase : CallerPhase} {key : String}

@[simp] theorem loads_withLoad :
    (s.withLoad id load).loads j = if j = id then some load else s.loads j :=
  Function.update_apply ..

@[simp] theorem callers_withCaller {c : CallerId} :
    (s.withCaller caller phase).callers c = if c = caller then some phase else s.callers c :=
  Function.update_apply ..

/-- What is true of the cache, the loads and the callers between two callbacks. -/
structure Inv (env : BlockCacheEnv) (s : BlockRequests) : Prop where
  flights : ∀ key id, s.cache.inFlight key = some id ↔
    ∃ load, s.loads id = some load ∧ load.key = key ∧ load.InFlight
  /-- Until a load is handled its key has no entry. -/
  absent : ∀ id key, s.loads id = some ⟨key, .loading⟩ ∨
    (∃ answer, s.loads id = some ⟨key, .settled answer⟩) → s.cache.entries.get key = none
  /-- Afterwards the entry is what it has brought. -/
  handled : ∀ id key answer entry, s.loads id = some ⟨key, .handled answer⟩ →
    s.cache.entries.get key = some entry → answer = .ok entry.value
  stored : ∀ key entry, s.cache.entries.get key = some entry →
    entry.value.partialFailure = none ∧
    (∃ id load, s.loads id = some load ∧ load.key = key ∧
      load.phase.answer? = some (.ok entry.value)) ∧
    entry.expiresAt ≤ s.now + env.externalSearchCacheTtlMs
  inOrder : InOrder s.cache.uses s.cache.entries
  caps : ∀ mode, s.cache.entries.count (hasMode mode) ≤ env.cap mode
  waits : ∀ caller id, s.callers caller = some (.waiting id) → ∃ load, s.loads id = some load

/-- There is one load of a key under way. -/
theorem Inv.single (h : s.Inv env) (hid : s.loads id = some load) (hj : s.loads j = some load')
    (hkey : load.key = load'.key) (hload : load.InFlight) (hload' : load'.InFlight) : id = j := by
  have hfirst := (h.flights load'.key id).mpr ⟨load, hid, hkey, hload⟩
  have hsecond := (h.flights load'.key j).mpr ⟨load', hj, rfl, hload'⟩
  exact Option.some.inj (hfirst.symm.trans hsecond)

/-- A key is read. -/
theorem Inv.reads (h : s.Inv env) {cache : ExternalSearchCache} (hc : Reads s.now s.cache cache) :
    Inv env { s with cache := cache } := by
  refine ⟨fun k i => ?_, fun i k hload => ?_, fun i k answer entry hload hget =>
    h.handled i k answer entry hload (hc.known k entry hget), fun k entry hget =>
      h.stored k entry (hc.known k entry hget), hc.inOrder h.inOrder, fun mode =>
        (hc.count mode).trans (h.caps mode), h.waits⟩
  · show cache.inFlight k = some i ↔ _
    rw [hc.inFlight]
    exact h.flights k i
  · have hnone := h.absent i k hload
    refine Option.eq_none_iff_forall_ne_some.mpr fun entry hget => ?_
    rw [hc.known k entry hget] at hnone
    cases hnone

/-- A caller waits for a load that there is, or is answered. -/
theorem Inv.withCaller (h : s.Inv env)
    (hphase : ∀ i, phase = .waiting i → ∃ load, s.loads i = some load) :
    Inv env (s.withCaller caller phase) := by
  refine ⟨h.flights, h.absent, h.handled, h.stored, h.inOrder, h.caps, fun c i hc => ?_⟩
  rw [callers_withCaller] at hc
  split at hc
  · exact hphase i (Option.some.inj hc)
  · exact h.waits c i hc

/-- A load goes on, and is under way as before. -/
theorem Inv.flightsGoOn (h : s.Inv env) {before after : BlockLoadPhase}
    (hid : s.loads id = some ⟨key, before⟩) (hflight : BlockLoad.InFlight ⟨key, before⟩)
    (hflight' : BlockLoad.InFlight ⟨key, after⟩) (k : String) (i : LoadId) :
    s.cache.inFlight k = some i ↔
      ∃ load, (s.withLoad id ⟨key, after⟩).loads i = some load ∧ load.key = k ∧ load.InFlight := by
  refine (h.flights k i).trans ?_
  rw [loads_withLoad]
  by_cases hi : i = id
  · subst hi
    rw [if_pos rfl, hid]
    constructor
    · rintro ⟨load, heq, hk, -⟩
      cases heq
      exact ⟨_, rfl, hk, hflight'⟩
    · rintro ⟨load, heq, hk, -⟩
      cases heq
      exact ⟨_, rfl, hk, hflight⟩
  · rw [if_neg hi]

/-- What a load has brought is not lost when one goes on. -/
theorem answers_withLoad {before : BlockLoadPhase} (hid : s.loads id = some ⟨key, before⟩)
    (after : BlockLoadPhase)
    (hanswer : ∀ answer, before.answer? = some answer → after.answer? = some answer)
    {k : String} {answer : BlockAnswer}
    (h : ∃ i load, s.loads i = some load ∧ load.key = k ∧ load.phase.answer? = some answer) :
    ∃ i load, (s.withLoad id ⟨key, after⟩).loads i = some load ∧ load.key = k ∧
      load.phase.answer? = some answer := by
  obtain ⟨i, load, hi, hk, ha⟩ := h
  by_cases hid' : i = id
  · subst hid'
    rw [hid] at hi
    cases hi
    exact ⟨i, ⟨key, after⟩, loads_withLoad.trans (if_pos rfl), hk, hanswer answer ha⟩
  · exact ⟨i, load, loads_withLoad.trans ((if_neg hid').trans hi), hk, ha⟩

theorem waits_withLoad (h : s.Inv env) (c : CallerId) (i : LoadId)
    (hc : s.callers c = some (.waiting i)) :
    ∃ load', (s.withLoad id load).loads i = some load' := by
  rw [loads_withLoad]
  split
  · exact ⟨load, rfl⟩
  · exact h.waits c i hc

theorem inFlight_loading : BlockLoad.InFlight ⟨key, .loading⟩ := fun _ h => nomatch h

theorem inFlight_settled {answer : BlockAnswer} : BlockLoad.InFlight ⟨key, .settled answer⟩ :=
  fun _ h => nomatch h

theorem inFlight_handled {answer : BlockAnswer} : BlockLoad.InFlight ⟨key, .handled answer⟩ :=
  fun _ h => nomatch h

/-- A load starts for a key that has neither an entry nor a load. -/
theorem Inv.starts (h : s.Inv env) (hid : s.loads id = none)
    (hget : s.cache.entries.get key = none) (hfree : s.cache.inFlight key = none) :
    Inv env ({ s with cache := { s.cache with
      inFlight := Function.update s.cache.inFlight key (some id) } }.withLoad id
        ⟨key, .loading⟩) := by
  have hnew : ∀ {i load}, s.loads i = some load → i ≠ id := by
    rintro i load hi rfl
    rw [hid] at hi
    cases hi
  refine ⟨fun k i => ?_, fun i k hload => ?_, fun i k answer entry hload hentry => ?_,
    fun k entry hentry => ?_, h.inOrder, h.caps, fun c i hc => waits_withLoad h c i hc⟩
  · show Function.update s.cache.inFlight key (some id) k = some i ↔ _
    rw [Function.update_apply, loads_withLoad]
    by_cases hi : i = id
    · subst hi
      rw [if_pos rfl]
      constructor
      · intro hk
        split at hk
        · next hkey => exact ⟨_, rfl, hkey.symm, inFlight_loading⟩
        · obtain ⟨load, hload, -⟩ := (h.flights k i).mp hk
          exact absurd rfl (hnew hload)
      · rintro ⟨load, heq, hk, -⟩
        cases heq
        exact if_pos hk.symm
    · rw [if_neg hi]
      by_cases hk : k = key
      · subst hk
        rw [if_pos rfl]
        refine ⟨fun heq => absurd (Option.some.inj heq).symm hi, fun hload => ?_⟩
        rw [(h.flights k i).mpr hload] at hfree
        cases hfree
      · rw [if_neg hk]
        exact h.flights k i
  · rw [loads_withLoad] at hload
    split at hload
    · rcases hload with heq | ⟨answer, heq⟩
      · cases heq
        exact hget
      · cases heq
    · exact h.absent i k hload
  · rw [loads_withLoad] at hload
    split at hload
    · cases hload
    · exact h.handled i k answer entry hload hentry
  · obtain ⟨hwhole, ⟨i, load, hi, hk, ha⟩, hexpires⟩ := h.stored k entry hentry
    refine ⟨hwhole, ⟨i, load, ?_, hk, ha⟩, hexpires⟩
    exact loads_withLoad.trans ((if_neg (hnew hi)).trans hi)

/-- The source answers. -/
theorem Inv.settles (h : s.Inv env) {answer : BlockAnswer}
    (hid : s.loads id = some ⟨key, .loading⟩) :
    Inv env (s.withLoad id ⟨key, .settled answer⟩) := by
  refine ⟨h.flightsGoOn hid inFlight_loading inFlight_settled, fun i k hload => ?_,
    fun i k a entry hload hentry => ?_, fun k entry hentry => ?_, h.inOrder, h.caps,
    fun c i hc => waits_withLoad h c i hc⟩
  · rw [loads_withLoad] at hload
    split at hload
    · rcases hload with heq | ⟨a, heq⟩
      · cases heq
      · cases heq
        exact h.absent id key (.inl hid)
    · exact h.absent i k hload
  · rw [loads_withLoad] at hload
    split at hload
    · cases hload
    · exact h.handled i k a entry hload hentry
  · obtain ⟨hwhole, hanswer, hexpires⟩ := h.stored k entry hentry
    exact ⟨hwhole, answers_withLoad hid (.settled answer) (fun _ h => nomatch h) hanswer, hexpires⟩

/-- The callback of `.then`. -/
theorem Inv.handles (h : s.Inv env) {answer : BlockAnswer}
    (hid : s.loads id = some ⟨key, .settled answer⟩) :
    Inv env ({ s with cache := s.cache.loaded env s.now key answer }.withLoad id
      ⟨key, .handled answer⟩) := by
  have hgone : s.cache.entries.get key = none := h.absent id key (.inr ⟨answer, hid⟩)
  -- no other load of the key is under way
  have hother : ∀ {i k phase}, i ≠ id → s.loads i = some ⟨k, phase⟩ →
      BlockLoad.InFlight ⟨k, phase⟩ → k ≠ key := by
    rintro i k phase hne hi hflight rfl
    exact hne (h.single hi hid rfl hflight inFlight_settled)
  refine ⟨fun k i => ?_, fun i k hload => ?_, fun i k a entry hload hentry => ?_,
    fun k entry hentry => ?_, ExternalSearchCache.inOrder_loaded h.inOrder,
    ExternalSearchCache.count_loaded h.caps, fun c i hc => waits_withLoad h c i hc⟩
  · show (s.cache.loaded env s.now key answer).inFlight k = some i ↔ _
    rw [ExternalSearchCache.inFlight_loaded]
    exact h.flightsGoOn hid inFlight_settled inFlight_handled k i
  · rw [loads_withLoad] at hload
    split at hload
    · rcases hload with heq | ⟨a, heq⟩ <;> cases heq
    · next hne =>
      have hk : k ≠ key := by
        rcases hload with heq | ⟨a, heq⟩
        · exact hother hne heq inFlight_loading
        · exact hother hne heq inFlight_settled
      have hnone := h.absent i k hload
      refine Option.eq_none_iff_forall_ne_some.mpr fun entry hget => ?_
      rcases ExternalSearchCache.get_loaded hget with ⟨heq, -⟩ | hold
      · exact hk heq
      · rw [hnone] at hold
        cases hold
  · rw [loads_withLoad] at hload
    rcases ExternalSearchCache.get_loaded hentry with ⟨hk, hanswer, -⟩ | hold
    · split at hload
      · cases hload
        exact hanswer
      · next hne => exact absurd hk (hother hne hload inFlight_handled)
    · split at hload
      · cases hload
        rw [hgone] at hold
        cases hold
      · exact h.handled i k a entry hload hold
  · rcases ExternalSearchCache.get_loaded hentry with ⟨hk, hanswer, hwhole, hexpires⟩ | hold
    · refine ⟨hwhole, ⟨id, ⟨key, .handled answer⟩, loads_withLoad.trans (if_pos rfl), hk.symm, ?_⟩, ?_⟩
      · show some answer = _
        rw [hanswer]
      · exact Int.le_of_eq hexpires
    · obtain ⟨hwhole, hanswer, hexpires⟩ := h.stored k entry hold
      exact ⟨hwhole, answers_withLoad hid (.handled answer) (fun _ h => h) hanswer, hexpires⟩

/-- The callback of `.finally`. -/
theorem Inv.ends (h : s.Inv env) {answer : BlockAnswer}
    (hid : s.loads id = some ⟨key, .handled answer⟩) :
    Inv env ({ s with cache := s.cache.ended key }.withLoad id ⟨key, .ended answer⟩) := by
  refine ⟨fun k i => ?_, fun i k hload => ?_, fun i k a entry hload hentry => ?_,
    fun k entry hentry => ?_, h.inOrder, h.caps, fun c i hc => waits_withLoad h c i hc⟩
  · show Function.update s.cache.inFlight key none k = some i ↔ _
    rw [Function.update_apply, loads_withLoad]
    by_cases hi : i = id
    · subst hi
      rw [if_pos rfl]
      constructor
      · intro hk
        split at hk
        · cases hk
        · next hne =>
          obtain ⟨load, hload, hkey, -⟩ := (h.flights k i).mp hk
          rw [hid] at hload
          cases hload
          exact absurd hkey.symm hne
      · rintro ⟨load, heq, -, hflight⟩
        cases heq
        exact absurd rfl (hflight answer)
    · rw [if_neg hi]
      by_cases hk : k = key
      · subst hk
        rw [if_pos rfl]
        refine ⟨fun heq => (nomatch heq), ?_⟩
        rintro ⟨load, hload, hkey, hflight⟩
        exact absurd (h.single hload hid hkey hflight inFlight_handled) hi
      · rw [if_neg hk]
        exact h.flights k i
  · rw [loads_withLoad] at hload
    split at hload
    · rcases hload with heq | ⟨a, heq⟩ <;> cases heq
    · exact h.absent i k hload
  · rw [loads_withLoad] at hload
    split at hload
    · cases hload
    · exact h.handled i k a entry hload hentry
  · obtain ⟨hwhole, hanswer, hexpires⟩ := h.stored k entry hentry
    exact ⟨hwhole, answers_withLoad hid (.ended answer) (fun _ h => h) hanswer, hexpires⟩

/-- **Every step keeps the invariant.** -/
theorem Inv.step (h : s.Inv env) (hs : Step env s a s') : s'.Inv env := by
  cases hs with
  | passes hle =>
    refine ⟨h.flights, h.absent, h.handled, fun k entry hentry => ?_, h.inOrder, h.caps, h.waits⟩
    obtain ⟨hwhole, hanswer, hexpires⟩ := h.stored k entry hentry
    exact ⟨hwhole, hanswer, hexpires.trans (Int.add_le_add_right hle _)⟩
  | @peeks key found cache hpeek =>
    have hcache : (s.cache.read s.now key).2 = cache := congrArg Prod.snd hpeek
    rw [← hcache]
    exact h.reads (ExternalSearchCache.reads_read _ _ _)
  | @cached caller key id value cache hcaller hid hresolve =>
    rcases ExternalSearchCache.resolve_cases hresolve with ⟨entry, -, -, -, hreads⟩ |
      ⟨load, -, heq, -⟩ | ⟨-, heq, -⟩
    · exact (h.reads hreads).withCaller fun i heq => nomatch heq
    · cases heq
    · cases heq
  | @joins caller key id load cache hcaller hid hresolve =>
    rcases ExternalSearchCache.resolve_cases hresolve with ⟨entry, -, -, heq, -⟩ |
      ⟨load', hflight, heq, hreads⟩ | ⟨-, heq, -⟩
    · cases heq
    · cases heq
      refine (h.reads hreads).withCaller fun i heq => ?_
      cases heq
      obtain ⟨load', hload', -⟩ := (h.flights key load).mp hflight
      exact ⟨load', hload'⟩
    · cases heq
  | @starts caller key id cache hcaller hid hresolve =>
    rcases ExternalSearchCache.resolve_cases hresolve with ⟨entry, -, -, heq, -⟩ |
      ⟨load', -, heq, -⟩ | ⟨hfree, -, cache₁, hreads, hget, rfl⟩
    · cases heq
    · cases heq
    · have hfree₁ : cache₁.inFlight key = none := by rw [hreads.inFlight, hfree]
      have hstarts := (h.reads hreads).starts hid hget hfree₁
      refine hstarts.withCaller fun i heq => ?_
      cases heq
      exact ⟨_, loads_withLoad.trans (if_pos rfl)⟩
  | settles hid => exact h.settles hid
  | handles hid => exact h.handles hid
  | ends hid => exact h.ends hid
  | answers hcaller hload => exact h.withCaller fun i heq => nomatch heq

theorem inv_init (hcache : s.cache = {}) (hloads : ∀ id, s.loads id = none)
    (hcallers : ∀ caller, s.callers caller = none) : s.Inv env := by
  have hget : ∀ k, s.cache.entries.get k = none := by
    intro k
    rw [hcache]
    rfl
  refine ⟨fun k i => ?_, fun i k _ => hget k, fun i k a entry _ hentry => ?_,
    fun k entry hentry => ?_, ?_, fun mode => ?_, fun c i hc => ?_⟩
  · rw [hcache]
    refine ⟨fun heq => (nomatch heq), ?_⟩
    rintro ⟨load, hload, -⟩
    rw [hloads] at hload
    cases hload
  · rw [hget] at hentry
    cases hentry
  · rw [hget] at hentry
    cases hentry
  · rw [hcache]
    exact OrderedMap.inOrder_empty _
  · rw [hcache]
    exact Nat.zero_le _
  · rw [hcallers] at hc
    cases hc

theorem inv_of_reachable (h : (blockRequests env).Reachable s) : s.Inv env :=
  h.invariant (I := Inv env) (fun s hinit => by
      obtain ⟨hcache, hloads, hcallers⟩ := hinit
      exact inv_init hcache hloads hcallers)
    fun _ _ _ _ hinv hs => hinv.step hs

/-! ## What a caller gets -/

/-- A load stays what it is, and what it has brought. -/
theorem load_step (hs : Step env s a s') (hload : s.loads j = some load) :
    ∃ load', s'.loads j = some load' ∧ load'.key = load.key ∧
      ∀ answer, load.phase.answer? = some answer → load'.phase.answer? = some answer := by
  have hgoesOn : ∀ {i key before} (after : BlockLoadPhase), s.loads i = some ⟨key, before⟩ →
      (∀ answer, before.answer? = some answer → after.answer? = some answer) →
      ∃ load', (s.withLoad i ⟨key, after⟩).loads j = some load' ∧ load'.key = load.key ∧
        ∀ answer, load.phase.answer? = some answer → load'.phase.answer? = some answer := by
    intro i key before after hi hanswer
    rw [loads_withLoad]
    split
    · next hj =>
      subst hj
      rw [hload] at hi
      cases hi
      exact ⟨_, rfl, rfl, hanswer⟩
    · exact ⟨load, hload, rfl, fun _ h => h⟩
  have hsame : ∃ load', s.loads j = some load' ∧ load'.key = load.key ∧
      ∀ answer, load.phase.answer? = some answer → load'.phase.answer? = some answer :=
    ⟨load, hload, rfl, fun _ h => h⟩
  cases hs with
  | passes | peeks | cached | joins | answers => exact hsame
  | @starts caller key id cache hcaller hid hresolve =>
    have hne : j ≠ id := by
      rintro rfl
      rw [hid] at hload
      cases hload
    exact ⟨load, (Function.update_of_ne hne _ _).trans hload, rfl, fun _ h => h⟩
  | @settles id key answer hid => exact hgoesOn (.settled answer) hid fun _ h => nomatch h
  | @handles id key answer hid => exact hgoesOn (.handled answer) hid fun _ h => h
  | @ends id key answer hid => exact hgoesOn (.ended answer) hid fun _ h => h

/-- A caller goes on waiting, keeps its answer, or gets that of the load it waits for. -/
theorem caller_step (hs : Step env s a s') {c : CallerId} (hc : s.callers c = some phase) :
    s'.callers c = some phase ∨ ∃ i k answer, phase = .waiting i ∧
      s.loads i = some ⟨k, .ended answer⟩ ∧ s'.callers c = some (.answered answer) := by
  have hnew : ∀ {caller} (phase' : CallerPhase), s.callers caller = none →
      Function.update s.callers caller (some phase') c = some phase := by
    intro caller phase' hcaller
    refine (Function.update_of_ne ?_ _ _).trans hc
    rintro rfl
    rw [hcaller] at hc
    cases hc
  cases hs with
  | passes | peeks | settles | handles | ends => exact .inl hc
  | cached hcaller => exact .inl (hnew _ hcaller)
  | joins hcaller => exact .inl (hnew _ hcaller)
  | starts hcaller => exact .inl (hnew _ hcaller)
  | @answers caller id key answer hcaller hload =>
    by_cases hcall : c = caller
    · subst hcall
      rw [hcaller] at hc
      cases hc
      exact .inr ⟨id, key, answer, rfl, hload, callers_withCaller.trans (if_pos rfl)⟩
    · exact .inl (callers_withCaller.trans ((if_neg hcall).trans hc))

/-- The caller waits for the load, or has got what it brought. -/
def Gets (c : CallerId) (i : LoadId) (s : BlockRequests) : Prop :=
  s.callers c = some (.waiting i) ∨
    ∃ load answer, s.loads i = some load ∧ load.phase.answer? = some answer ∧
      s.callers c = some (.answered answer)

theorem Gets.step {c : CallerId} {i : LoadId} (h : Gets c i s) (hs : Step env s a s') :
    Gets c i s' := by
  rcases h with hwaits | ⟨load, answer, hload, hanswer, hanswered⟩
  · rcases caller_step hs hwaits with hwaits' | ⟨i', k, answer, heq, hload, hanswered⟩
    · exact .inl hwaits'
    · cases heq
      obtain ⟨load', hload', -, hkeeps⟩ := load_step hs hload
      exact .inr ⟨load', answer, hload', hkeeps answer rfl, hanswered⟩
  · rcases caller_step hs hanswered with hanswered' | ⟨i', k, answer', heq, -⟩
    · obtain ⟨load', hload', -, hkeeps⟩ := load_step hs hload
      exact .inr ⟨load', answer, hload', hkeeps answer hanswer, hanswered'⟩
    · cases heq

/-- **Whatever happens**, the caller gets what the load brings. -/
theorem Gets.leads {c : CallerId} {i : LoadId} {t : BlockRequests}
    (hr : (blockRequests env).Reachable s) (h : Gets c i s)
    (hleads : (blockRequests env).Leads s t) : Gets c i t :=
  Machine.Leads.keeps (P := Gets c i) (fun _ _ _ _ h hs => h.step hs) hr h hleads

/-! ## A state and a step -/

/-- What holds between two callbacks. -/
structure Sound (env : BlockCacheEnv) (s : BlockRequests) : Prop where
  /-- At most one load of a key is under way. -/
  single : ∀ i j load load', s.loads i = some load → s.loads j = some load' →
    load.key = load'.key → load.InFlight → load'.InFlight → i = j
  /-- An entry is a whole block that a load of its key has brought. -/
  stored : ∀ key entry, s.cache.entries.get key = some entry →
    entry.value.partialFailure = none ∧ ∃ id load, s.loads id = some load ∧ load.key = key ∧
      load.phase.answer? = some (.ok entry.value)
  caps : ∀ mode, s.cache.entries.count (hasMode mode) ≤ env.cap mode
  /-- Who waits for a load whose source has answered is not waiting for anything else. -/
  goesOn : ∀ caller id, s.callers caller = some (.waiting id) →
    (∃ key, s.loads id = some ⟨key, .loading⟩) ∨
      ∃ a s', Step env s a s' ∧ (a = .handles id ∨ a = .ends id ∨ a = .answers caller)

/-- What a step does. -/
structure Served (env : BlockCacheEnv) (s : BlockRequests) (a : Action) (s' : BlockRequests) :
    Prop where
  /-- Whoever comes while a load of the key is under way starts none and gets what it brings. -/
  joined : ∀ caller key id i load, a = .resolves caller key id → s.loads i = some load →
    load.key = key → load.InFlight →
      s'.loads = s.loads ∧ ∀ t, (blockRequests env).Leads s' t → Gets caller i t
  /-- Only a block that is not expired is returned from the cache. -/
  peeked : ∀ key value, a = .peeks key (some value) →
    ∃ entry, s.cache.entries.get key = some entry ∧ entry.value = value ∧ s.now < entry.expiresAt
  resolved : ∀ caller key id answer, a = .resolves caller key id →
    s'.callers caller = some (.answered answer) → ∃ entry, s.cache.entries.get key = some entry ∧
      answer = .ok entry.value ∧ s.now < entry.expiresAt
  /-- Only a load that brought a whole block stores it, to expire a time to live from now. -/
  stores : ∀ key entry, s'.cache.entries.get key = some entry →
    s.cache.entries.get key = some entry ∨ ∃ id, a = .handles id ∧
      s.loads id = some ⟨key, .settled (.ok entry.value)⟩ ∧ entry.value.partialFailure = none ∧
      entry.expiresAt = s.now + env.externalSearchCacheTtlMs
  /-- An entry goes when it is expired, or as the least recently used of a mode that is full. -/
  drops : ∀ key entry, s.cache.entries.get key = some entry → s'.cache.entries.get key = none →
    entry.expiresAt ≤ s.now ∨ ∃ id load, a = .handles id ∧ s.loads id = some load ∧
      modeOf key = modeOf load.key ∧
      s'.cache.entries.count (hasMode (modeOf key)) = env.cap (modeOf key) ∧
      ∀ k e, s'.cache.entries.get k = some e → modeOf k = modeOf key →
        lastUse key s'.cache.uses < lastUse k s'.cache.uses
  /-- What a load stores evicts or replaces nothing of the other mode. -/
  others : ∀ id load mode, a = .handles id → s.loads id = some load → mode ≠ modeOf load.key →
    s'.cache.entries.rows.filter (hasMode mode) = s.cache.entries.rows.filter (hasMode mode)

theorem Inv.sound (h : s.Inv env) : Sound env s := by
  refine ⟨fun i j load load' hi hj => h.single hi hj, fun key entry hentry => ?_, h.caps,
    fun caller id hwaits => ?_⟩
  · obtain ⟨hwhole, hload, -⟩ := h.stored key entry hentry
    exact ⟨hwhole, hload⟩
  · obtain ⟨⟨key, phase⟩, hload⟩ := h.waits caller id hwaits
    cases phase with
    | loading => exact .inl ⟨key, hload⟩
    | settled answer => exact .inr ⟨_, _, .handles hload, .inl rfl⟩
    | handled answer => exact .inr ⟨_, _, .ends hload, .inr (.inl rfl)⟩
    | ended answer => exact .inr ⟨_, _, .answers hwaits hload, .inr (.inr rfl)⟩

/-- The entries change where a key is read or where a load is handled. -/
theorem cache_step (hs : Step env s a s') :
    ((∀ id, a ≠ .handles id) ∧
      (∀ k entry, s'.cache.entries.get k = some entry → s.cache.entries.get k = some entry) ∧
      ∀ k entry, s.cache.entries.get k = some entry →
        s'.cache.entries.get k = some entry ∨ entry.expiresAt ≤ s.now) ∨
    ∃ id key answer, a = .handles id ∧ s.loads id = some ⟨key, .settled answer⟩ ∧
      s'.cache = s.cache.loaded env s.now key answer := by
  cases hs with
  | passes | settles | ends | answers =>
    exact .inl ⟨fun _ h => (nomatch h), fun _ _ h => h, fun _ _ h => .inl h⟩
  | @peeks key found cache hpeek =>
    have hreads := ExternalSearchCache.reads_read s.cache s.now key
    rw [show (s.cache.read s.now key).2 = cache from congrArg Prod.snd hpeek] at hreads
    exact .inl ⟨fun _ h => (nomatch h), hreads.known, hreads.kept⟩
  | @cached caller key id value cache hcaller hid hresolve =>
    rcases ExternalSearchCache.resolve_cases hresolve with ⟨entry, -, -, -, hreads⟩ |
      ⟨load, -, heq, -⟩ | ⟨-, heq, -⟩
    · exact .inl ⟨fun _ h => (nomatch h), hreads.known, hreads.kept⟩
    · cases heq
    · cases heq
  | @joins caller key id load cache hcaller hid hresolve =>
    rcases ExternalSearchCache.resolve_cases hresolve with ⟨entry, -, -, heq, -⟩ |
      ⟨load', -, -, hreads⟩ | ⟨-, heq, -⟩
    · cases heq
    · exact .inl ⟨fun _ h => (nomatch h), hreads.known, hreads.kept⟩
    · cases heq
  | @starts caller key id cache hcaller hid hresolve =>
    rcases ExternalSearchCache.resolve_cases hresolve with ⟨entry, -, -, heq, -⟩ |
      ⟨load', -, heq, -⟩ | ⟨-, -, cache₁, hreads, -, rfl⟩
    · cases heq
    · cases heq
    · exact .inl ⟨fun _ h => (nomatch h), hreads.known, hreads.kept⟩
  | @handles id key answer hid => exact .inr ⟨id, key, answer, rfl, hid, rfl⟩

/-- A load that is handled finds no entry of its key: the write replaces none. -/
theorem Inv.get_handled (h : s.Inv env) {answer : BlockAnswer} {k : String} {entry : CacheEntry}
    (hid : s.loads id = some ⟨key, .settled answer⟩) (hentry : s.cache.entries.get k = some entry) :
    k ≠ key := by
  rintro rfl
  have hnone := h.absent id k (.inr ⟨answer, hid⟩)
  rw [hentry] at hnone
  cases hnone

/-- **Whoever comes while a load of the key is under way** waits for it, or is given its block. -/
theorem Inv.joined (h : s.Inv env) {i : LoadId}
    (hs : Step env s (.resolves caller key id) s') (hi : s.loads i = some load)
    (hkey : load.key = key) (hflight : load.InFlight) : s'.loads = s.loads ∧ Gets caller i s' := by
  have hpending : s.cache.inFlight key = some i := (h.flights key i).mpr ⟨load, hi, hkey, hflight⟩
  cases hs with
  | cached hcaller hid hresolve =>
    rcases ExternalSearchCache.resolve_cases hresolve with ⟨entry, hentry, -, heq, -⟩ |
      ⟨load', -, heq, -⟩ | ⟨-, heq, -⟩
    · cases heq
      refine ⟨rfl, .inr ?_⟩
      obtain ⟨k, phase⟩ := load
      cases hkey
      have hanswer : phase.answer? = some (.ok entry.value) := by
        cases phase with
        | loading =>
          have hnone := h.absent i k (.inl hi)
          rw [hentry] at hnone
          cases hnone
        | settled answer => exact absurd rfl (h.get_handled hi hentry)
        | handled answer =>
          rw [h.handled i k answer entry hi hentry]
          rfl
        | ended answer => exact absurd rfl (hflight answer)
      exact ⟨⟨k, phase⟩, _, hi, hanswer, callers_withCaller.trans (if_pos rfl)⟩
    · cases heq
    · cases heq
  | joins hcaller hid hresolve =>
    rcases ExternalSearchCache.resolve_cases hresolve with ⟨entry, -, -, heq, -⟩ |
      ⟨load', hload', heq, -⟩ | ⟨-, heq, -⟩
    · cases heq
    · cases heq
      rw [hpending] at hload'
      cases hload'
      exact ⟨rfl, .inl (callers_withCaller.trans (if_pos rfl))⟩
    · cases heq
  | starts hcaller hid hresolve =>
    rcases ExternalSearchCache.resolve_cases hresolve with ⟨entry, -, -, heq, -⟩ |
      ⟨load', -, heq, -⟩ | ⟨hfree, -⟩
    · cases heq
    · cases heq
    · rw [hpending] at hfree
      cases hfree

/-- What is returned from the cache is not expired. -/
theorem peeked_fresh {value : ExternalSearchBlockResult}
    (hs : Step env s (.peeks key (some value)) s') :
    ∃ entry, s.cache.entries.get key = some entry ∧ entry.value = value ∧
      s.now < entry.expiresAt := by
  cases hs with
  | peeks hpeek =>
    unfold ExternalSearchCache.peek at hpeek
    rcases ExternalSearchCache.read_cases s.cache s.now key with ⟨-, hread⟩ | ⟨entry, -, -, hread⟩ |
      ⟨entry, hentry, hfresh, hread⟩
    · rw [hread] at hpeek
      cases hpeek
    · rw [hread] at hpeek
      cases hpeek
    · rw [hread] at hpeek
      cases hpeek
      exact ⟨entry, hentry, rfl, hfresh⟩

theorem resolved_fresh {answer : BlockAnswer} (hs : Step env s (.resolves caller key id) s')
    (hanswered : s'.callers caller = some (.answered answer)) :
    ∃ entry, s.cache.entries.get key = some entry ∧ answer = .ok entry.value ∧
      s.now < entry.expiresAt := by
  cases hs with
  | cached hcaller hid hresolve =>
    rw [callers_withCaller, if_pos rfl] at hanswered
    cases hanswered
    rcases ExternalSearchCache.resolve_cases hresolve with ⟨entry, hentry, hfresh, heq, -⟩ |
      ⟨load', -, heq, -⟩ | ⟨-, heq, -⟩
    · cases heq
      exact ⟨entry, hentry, rfl, hfresh⟩
    · cases heq
    · cases heq
  | joins =>
    rw [callers_withCaller, if_pos rfl] at hanswered
    cases hanswered
  | starts =>
    rw [callers_withCaller, if_pos rfl] at hanswered
    cases hanswered

theorem stored_step (hs : Step env s a s') {entry : CacheEntry}
    (hentry : s'.cache.entries.get key = some entry) :
    s.cache.entries.get key = some entry ∨ ∃ id, a = .handles id ∧
      s.loads id = some ⟨key, .settled (.ok entry.value)⟩ ∧ entry.value.partialFailure = none ∧
      entry.expiresAt = s.now + env.externalSearchCacheTtlMs := by
  rcases cache_step hs with ⟨-, hknown, -⟩ | ⟨id, k, answer, ha, hload, hcache⟩
  · exact .inl (hknown key entry hentry)
  · rw [hcache] at hentry
    rcases ExternalSearchCache.get_loaded hentry with ⟨hk, hanswer, hwhole, hexpires⟩ | hold
    · rw [← hk, hanswer] at hload
      exact .inr ⟨id, ha, hload, hwhole, hexpires⟩
    · exact .inl hold

theorem Inv.drops (h : s.Inv env) (hs : Step env s a s') {entry : CacheEntry}
    (hentry : s.cache.entries.get key = some entry) (hgone : s'.cache.entries.get key = none) :
    entry.expiresAt ≤ s.now ∨ ∃ id load, a = .handles id ∧ s.loads id = some load ∧
      modeOf key = modeOf load.key ∧
      s'.cache.entries.count (hasMode (modeOf key)) = env.cap (modeOf key) ∧
      ∀ k e, s'.cache.entries.get k = some e → modeOf k = modeOf key →
        lastUse key s'.cache.uses < lastUse k s'.cache.uses := by
  rcases cache_step hs with ⟨-, -, hkept⟩ | ⟨id, k, answer, ha, hload, hcache⟩
  · rcases hkept key entry hentry with hsame | hexpired
    · rw [hgone] at hsame
      cases hsame
    · exact .inl hexpired
  · rw [hcache] at hgone ⊢
    rcases ExternalSearchCache.loaded_cases env s.now k answer s.cache with hsame |
      ⟨value, -, -, hwrite⟩
    · rw [hsame, hentry] at hgone
      cases hgone
    · rw [hwrite] at hgone ⊢
      have hmem : (key, entry) ∉ (s.cache.write env s.now k value).entries := by
        intro hmem
        rw [OrderedMap.get_eq_some_iff.mpr hmem] at hgone
        cases hgone
      obtain ⟨hmode, hfull, hbefore⟩ := ExternalSearchCache.evicted_write h.inOrder
        (OrderedMap.get_eq_some_iff.mp hentry) (h.get_handled hload hentry) hmem
      have hmode : modeOf key = modeOf k := hmode
      refine .inr ⟨id, _, ha, hload, hmode, hmode ▸ hfull, fun k' e hget hk' => ?_⟩
      exact hbefore (k', e) (OrderedMap.get_eq_some_iff.mp hget) (hk'.trans hmode)

theorem others_step (hs : Step env s (.handles id) s') (hload : s.loads id = some load)
    {mode : ExternalSearchMode} (hmode : mode ≠ modeOf load.key) :
    s'.cache.entries.rows.filter (hasMode mode) = s.cache.entries.rows.filter (hasMode mode) := by
  rcases cache_step hs with ⟨hnot, -⟩ | ⟨i, k, answer, ha, hi, hcache⟩
  · exact absurd rfl (hnot id)
  · cases ha
    rw [hload] at hi
    cases hi
    rw [hcache]
    rcases ExternalSearchCache.loaded_cases env s.now k answer s.cache with hsame |
      ⟨value, -, -, hwrite⟩
    · rw [hsame]
    · rw [hwrite]
      exact ExternalSearchCache.filter_write_of_ne hmode value

/-- **Every step of a run serves.** -/
theorem served_step (hr : (blockRequests env).Reachable s) (hs : Step env s a s') :
    Served env s a s' := by
  have hinv := inv_of_reachable hr
  refine ⟨?_, ?_, ?_, fun _ _ => stored_step hs, fun _ _ => hinv.drops hs, ?_⟩
  · rintro caller key id i load rfl hi hkey hflight
    obtain ⟨hloads, hgets⟩ := hinv.joined hs hi hkey hflight
    exact ⟨hloads, fun t => hgets.leads (hr.next hs)⟩
  · rintro key value rfl
    exact peeked_fresh hs
  · rintro caller key id answer rfl
    exact resolved_fresh hs
  · rintro id load mode rfl hload hmode
    exact others_step hs hload hmode

end BlockRequests

/-- **The cache of the external blocks**, in every run: one load of a key at a time, whose outcome
is what everyone who comes meanwhile gets; only whole blocks stored, and none returned that is
expired; each mode within its cap, and only its own least recently used entries evicted. -/
theorem external_block_cache (env : BlockCacheEnv) {s : BlockRequests}
    (hr : (blockRequests env).Reachable s) :
    BlockRequests.Sound env s ∧
      (∀ a s', BlockRequests.Step env s a s' → BlockRequests.Served env s a s') ∧
      ∀ fold source query blockIndex blockSize mode,
        modeOf (externalSearchCacheKey fold source query blockIndex blockSize mode) = mode :=
  ⟨(BlockRequests.inv_of_reachable hr).sound, fun _ _ hs => BlockRequests.served_step hr hs,
    modeOf_externalSearchCacheKey⟩

/-- A caller starts a load, another one comes, the source answers and the block is stored. -/
theorem external_block_cache_joined : ∃ s : BlockRequests,
    s.callers 1 = some (.waiting 0) ∧ (s.cache.entries.get "FULL").isSome ∧
      BlockRequests.Sound ⟨none, none, none⟩ s ∧
      (∀ a s', BlockRequests.Step ⟨none, none, none⟩ s a s' →
        BlockRequests.Served ⟨none, none, none⟩ s a s') ∧
      ∀ fold source query blockIndex blockSize mode,
        modeOf (externalSearchCacheKey fold source query blockIndex blockSize mode) = mode := by
  let env : BlockCacheEnv := ⟨none, none, none⟩
  let start : BlockRequests := { now := 0 }
  have hstart : (blockRequests env).Reachable start := .start ⟨rfl, fun _ => rfl, fun _ => rfl⟩
  have hstarts := hstart.next (@BlockRequests.Step.starts env start 0 "FULL" 0 _ rfl rfl rfl)
  have hjoins := hstarts.next (@BlockRequests.Step.joins env _ 1 "FULL" 1 0 _ rfl rfl rfl)
  have hsettles := hjoins.next
    (@BlockRequests.Step.settles env _ 0 "FULL" (.ok ⟨[], false, none⟩) rfl)
  have hhandles := hsettles.next (@BlockRequests.Step.handles env _ 0 "FULL" _ rfl)
  exact ⟨_, rfl, by decide, external_block_cache _ hhandles⟩

end Bookswap
