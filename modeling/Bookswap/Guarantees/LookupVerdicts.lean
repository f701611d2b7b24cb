import Bookswap.Catalog.LookupService

/-!
# Verdicts on an ISBN are sound

"Nobody found it" and "we could not finish asking" stay apart: an ISBN is not found, and remembered
as not found, only when every provider asked for it in that pass has answered that it has none.

- `Silent`, `batches_silent`: what the batches leave without a failure was answered.
- `resolveOne_keeps`: what the attempts of one ISBN keep.
- `passOutcome_at`: of an ISBN the outcome says what its one verdict says.
- `lookup_verdicts`: every ISBN in exactly one of the three, the budget, the cache.
-/

namespace Bookswap

open WorkerPool

variable {env : LookupEnv} {replies : BatchReplies} {isbns : List String} {x : String}

/-! ## The batches -/

/-- The Books API answered the chunk and does not mention the ISBN. -/
def Silent (replies : BatchReplies) (chunk : List String) (x : String) : Prop :=
  replies.abortedBefore chunk = false ∧
    ∃ body, replies.books chunk = .value body ∧ body x = .absent

theorem askChunk_silent {r : BatchesResult} {chunk : List String}
    (hlength : chunk.length ≤ OPEN_LIBRARY_BIBKEYS_PER_REQUEST)
    (hfound : (askChunk replies r chunk).found x = none)
    (hfailed : (askChunk replies r chunk).failed x = none) :
    r.found x = none ∧ r.failed x = none ∧ (x ∈ chunk → Silent replies chunk x) := by
  -- an ISBN of a chunk that failed as a whole carries a reason
  have hfail : ∀ reason, (r.fail chunk reason).found x = none →
      (r.fail chunk reason).failed x = none →
      r.found x = none ∧ r.failed x = none ∧ (x ∈ chunk → Silent replies chunk x) := by
    intro reason hfound hfailed
    unfold BatchesResult.fail at hfound hfailed
    dsimp only at hfound hfailed
    split at hfailed
    · cases hfailed
    · next hx => exact ⟨hfound, hfailed, fun h => absurd h hx⟩
  unfold askChunk at hfound hfailed
  split at hfound
  · next habort =>
    rw [if_pos habort] at hfailed
    exact hfail _ hfound hfailed
  next habort =>
  rw [if_neg habort] at hfailed
  unfold openLibraryLookupMany at hfound hfailed
  rw [if_neg (Nat.not_lt.mpr hlength)] at hfound hfailed
  cases hreply : replies.books chunk with
  | timeout =>
    rw [hreply] at hfound hfailed
    exact hfail _ hfound hfailed
  | error description =>
    rw [hreply] at hfound hfailed
    exact hfail _ hfound hfailed
  | value body =>
    rw [hreply] at hfound hfailed
    simp only [Option.orElse_eq_orElse, Option.orElse_eq_or, Option.or_eq_none_iff,
      Option.map_eq_none_iff] at hfound hfailed
    refine ⟨hfound.2, hfailed.2, fun hx => ⟨Bool.eq_false_iff.mpr habort, body, hreply, ?_⟩⟩
    cases hbody : body x with
    | absent => rfl
    | record result => simp [hbody, hx] at hfound
    | unreadable message => simp [hbody, hx] at hfailed

/-- **What the batches neither found nor failed on, the Books API has answered.** -/
theorem batches_silent (hx : x ∈ isbns)
    (hfound : (runOpenLibraryBatches replies isbns).found x = none)
    (hfailed : (runOpenLibraryBatches replies isbns).failed x = none) :
    ∃ chunk ∈ chunks OPEN_LIBRARY_BIBKEYS_PER_REQUEST isbns, x ∈ chunk ∧
      Silent replies chunk x := by
  have hfold : ∀ (cs : List (List String)) (r : BatchesResult),
      (∀ c ∈ cs, c.length ≤ OPEN_LIBRARY_BIBKEYS_PER_REQUEST) →
      (cs.foldl (askChunk replies) r).found x = none →
      (cs.foldl (askChunk replies) r).failed x = none →
      r.found x = none ∧ r.failed x = none ∧ ∀ c ∈ cs, x ∈ c → Silent replies c x := by
    intro cs
    induction cs with
    | nil => exact fun r _ hfound hfailed => ⟨hfound, hfailed, nofun⟩
    | cons c cs ih =>
      intro r hlength hfound hfailed
      obtain ⟨hf, hg, hrest⟩ := ih (askChunk replies r c)
        (fun d hd => hlength d (List.mem_cons_of_mem _ hd)) hfound hfailed
      obtain ⟨hf, hg, hc⟩ := askChunk_silent (hlength c List.mem_cons_self) hf hg
      refine ⟨hf, hg, fun d hd => ?_⟩
      rcases List.mem_cons.mp hd with rfl | hd
      · exact hc
      · exact hrest d hd
  obtain ⟨-, -, hsilent⟩ := hfold _ _ (fun c hc => length_le_of_mem_chunks hc) hfound hfailed
  rw [← @flatten_chunks _ OPEN_LIBRARY_BIBKEYS_PER_REQUEST (by decide) isbns] at hx
  obtain ⟨chunk, hchunk, hmem⟩ := List.mem_flatten.mp hx
  exact ⟨chunk, hchunk, hmem, hsilent chunk hchunk hmem⟩

theorem openLibraryLookupMany_found {reply : BooksReply} {chunk : List String}
    {r : OpenLibraryBatchResult} (h : openLibraryLookupMany reply chunk = .value r)
    (hx : r.found x ≠ none) : x ∈ chunk := by
  unfold openLibraryLookupMany at h
  split at h
  · cases h
  cases reply with
  | timeout => cases h
  | error description => cases h
  | value body =>
    cases h
    by_contra hmem
    cases hbody : body x <;> simp [hbody, hmem] at hx

/-- A chunk finds nothing but what it asked for. -/
theorem askChunk_found {r : BatchesResult} {chunk : List String}
    (h : (askChunk replies r chunk).found x ≠ none) : r.found x ≠ none ∨ x ∈ chunk := by
  unfold askChunk at h
  split at h
  · exact .inl h
  cases hreply : openLibraryLookupMany (replies.books chunk) chunk with
  | timeout =>
    rw [hreply] at h
    exact .inl h
  | error description =>
    rw [hreply] at h
    exact .inl h
  | value result =>
    rw [hreply] at h
    by_cases hresult : result.found x = none
    · left
      simpa [hresult] using h
    · exact .inr (openLibraryLookupMany_found hreply hresult)

/-- **The batches find nothing but what they asked for.** -/
theorem batches_found (h : (runOpenLibraryBatches replies isbns).found x ≠ none) : x ∈ isbns := by
  have hfold : ∀ (cs : List (List String)) (r : BatchesResult),
      (cs.foldl (askChunk replies) r).found x ≠ none → r.found x ≠ none ∨ x ∈ cs.flatten := by
    intro cs
    induction cs with
    | nil => exact fun r h => .inl h
    | cons c cs ih =>
      intro r h
      rw [List.flatten_cons, List.mem_append]
      rcases ih _ h with hc | hrest
      · exact (askChunk_found hc).imp_right .inl
      · exact .inr (.inr hrest)
  rcases hfold _ _ h with hnone | hmem
  · exact absurd rfl hnone
  · rwa [flatten_chunks (by decide)] at hmem

/-! ## The fallback -/

section Pass

variable {s t : Pool FallbackShared String Attempts Verdict} {v : Verdict}

/-- What holds of an ISBN between two attempts: those made are recorded, and as long as there is
no reason to call it unavailable every one of them said that there is no such book. -/
def Trying (replies : BatchReplies)
    (failed : String → Option LibraryImportLookupUnavailableReason) (e : FallbackShared)
    (x : String) (l : Attempts) : Prop :=
  ∃ made, made ++ l.left = [.googleBooks, .isbnDb] ∧ (∀ p ∈ made, (p, x) ∈ e.asked) ∧
    (l.underWay = true → ∀ p, l.left.head? = some p → (p, x) ∈ e.asked) ∧
    (l.unavailable = none → failed x = none ∧ ∀ p ∈ made, replies.single p x = .value none)

/-- What holds of a verdict: "not found" means that both said so. -/
def Told (replies : BatchReplies)
    (failed : String → Option LibraryImportLookupUnavailableReason) (e : FallbackShared)
    (x : String) : Verdict → Prop
  | .notFound => failed x = none ∧ ∀ p, (p, x) ∈ e.asked ∧ replies.single p x = .value none
  | _ => True

variable {failed : String → Option LibraryImportLookupUnavailableReason} {e e' : FallbackShared}

theorem Trying.mono (he : ∀ c ∈ e.asked, c ∈ e'.asked) {l : Attempts}
    (h : Trying replies failed e x l) : Trying replies failed e' x l := by
  obtain ⟨made, hleft, hasked, hway, hnone⟩ := h
  exact ⟨made, hleft, fun p hp => he _ (hasked p hp), fun hu p hp => he _ (hway hu p hp), hnone⟩

theorem Told.mono (he : ∀ c ∈ e.asked, c ∈ e'.asked) (h : Told replies failed e x v) :
    Told replies failed e' x v := by
  cases v with
  | notFound => exact ⟨h.1, fun p => ⟨he _ (h.2 p).1, (h.2 p).2⟩⟩
  | found result => trivial
  | unavailable reason => trivial

/-- A turn records the call it starts. -/
theorem resolveTurn_asked {l : Attempts} {r : Attempts ⊕ Verdict}
    (h : resolveTurn replies e x l = (e', r)) :
    e' = e ∨ ∃ p, e' = { e with asked := (p, x) :: e.asked } := by
  unfold resolveTurn at h
  split at h
  · split at h <;> cases h <;> exact .inl rfl
  · split at h
    · split at h <;> cases h <;> exact .inl rfl
    · split at h
      · cases h
        exact .inl rfl
      · cases h
        exact .inr ⟨_, rfl⟩

/-- **What the attempts of one ISBN keep.** -/
theorem resolveOne_keeps :
    Keeps (resolveOne replies failed) Abort (Trying replies failed) (Told replies failed) where
  start e x := ⟨[], rfl, nofun, nofun, fun hnone => ⟨hnone, nofun⟩⟩
  turn {e x l e' l'} h ht := by
    obtain ⟨made, hleft, hasked, hway, hnone⟩ := h
    change resolveTurn replies e x l = _ at ht
    unfold resolveTurn at ht
    split at ht
    · split at ht <;> cases ht
    next p left hl =>
    rw [hl] at hleft hway
    have hmade : (made ++ [p]) ++ left = [.googleBooks, .isbnDb] := by
      rw [List.append_assoc]
      exact hleft
    split at ht
    · next hunder =>
      -- the call under way is over, and it was recorded when it started
      have hasked' : ∀ q ∈ made ++ [p], (q, x) ∈ e.asked := fun q hq => by
        rcases List.mem_append.mp hq with hq | hq
        · exact hasked q hq
        · obtain rfl := List.mem_singleton.mp hq
          exact hway hunder q rfl
      split at ht
      · cases ht
      · next hreply =>
        cases ht
        refine ⟨made ++ [p], hmade, hasked', nofun, fun hu => ⟨(hnone hu).1, fun q hq => ?_⟩⟩
        rcases List.mem_append.mp hq with hq | hq
        · exact (hnone hu).2 q hq
        · obtain rfl := List.mem_singleton.mp hq
          exact hreply
      · cases ht
        exact ⟨made ++ [p], hmade, hasked', nofun, nofun⟩
      · cases ht
        exact ⟨made ++ [p], hmade, hasked', nofun, nofun⟩
    · split at ht
      · cases ht
      · cases ht
        refine ⟨made, by rw [hl]; exact hleft, fun q hq => List.mem_cons_of_mem _ (hasked q hq),
          fun _ q hq => ?_, hnone⟩
        rw [hl] at hq
        cases hq
        exact List.mem_cons_self
  finish {e x l e' v} h ht := by
    obtain ⟨made, hleft, hasked, hway, hnone⟩ := h
    change resolveTurn replies e x l = _ at ht
    unfold resolveTurn at ht
    split at ht
    · next hl =>
      rw [hl, List.append_nil] at hleft
      split at ht
      · next hu =>
        cases ht
        have hall : ∀ p, p ∈ made := by
          rw [hleft]
          intro p
          cases p <;> decide
        exact ⟨(hnone hu).1, fun p => ⟨hasked p (hall p), (hnone hu).2 p (hall p)⟩⟩
      · cases ht
        trivial
    · split at ht
      · split at ht <;> cases ht
        trivial
      · split at ht <;> cases ht
        trivial
  grows {e c l e' r} ht := by
    have he : ∀ c ∈ e.asked, c ∈ e'.asked := by
      rcases resolveTurn_asked ht with rfl | ⟨p, rfl⟩
      · exact fun c hc => hc
      · exact fun c hc => List.mem_cons_of_mem _ hc
    exact ⟨fun _ _ h => h.mono he, fun _ _ h => h.mono he⟩
  outside {e e'} ho := by
    obtain rfl : e' = { e with aborted := true } := ho
    exact ⟨fun _ _ h => h, fun _ v h => by cases v <;> exact h⟩

theorem nodup_remainingIsbns (replies : BatchReplies) (isbns : List String) :
    (remainingIsbns replies isbns).Nodup :=
  (nodup_eraseDups isbns).filter _

theorem nodup_affordable (env : LookupEnv) (replies : BatchReplies) (isbns : List String) :
    (affordable env replies isbns).Nodup :=
  (nodup_remainingIsbns replies isbns).sublist (List.take_sublist _ _)

theorem mem_remainingIsbns : x ∈ remainingIsbns replies isbns ↔
    x ∈ isbns ∧ (runOpenLibraryBatches replies (pendingIsbns isbns)).found x = none := by
  unfold remainingIsbns pendingIsbns
  rw [List.mem_filter, List.mem_eraseDups, Option.isNone_iff_eq_none]

/-- There are workers as soon as there is work. -/
theorem fallbackWorkers_pos (h : affordable env replies isbns ≠ []) :
    0 < fallbackWorkers env replies isbns := by
  have hconcurrency : 0 < env.lookupFallbackConcurrency := fromEnv_pos _ (by decide)
  have hlength := List.length_pos_iff.mpr h
  unfold fallbackWorkers
  omega

/-- **Only affordable ISBNs are sent to the fallback.** -/
theorem asked_affordable (hr : (batchPass env replies isbns).Reachable s) :
    ∀ c ∈ s.shared.asked, c.2 ∈ affordable env replies isbns := by
  refine Machine.Reachable.invariant (I := fun s => ∀ c ∈ s.shared.asked,
    c.2 ∈ affordable env replies isbns) (fun s hs c hc => ?_) (fun s u s' hr ih hs => ?_) hr
  · obtain rfl : s = .start _ := hs
    cases hc
  · -- whoever calls runs a job of the list
    have hturn : ∀ {f i a l e r}, s.workers i = .running a l →
        (resolveOne replies f).turn s.shared a l e r → ∀ c ∈ e.asked,
        c.2 ∈ affordable env replies isbns := by
      intro f i a l e r hrun ht c hc
      rcases resolveTurn_asked ht with rfl | ⟨p, rfl⟩
      · exact ih c hc
      · rcases List.mem_cons.mp hc with rfl | hc
        · exact List.mem_of_mem_take
            ((pool_inv (nodup_affordable env replies isbns) hr).runs_taken i a l hrun)
        · exact ih c hc
    cases hs with
    | take hi hidle hjob => exact ih
    | stop hi hidle hnone => exact ih
    | turn hi hrun ht => exact hturn hrun ht
    | finish hi hrun ht => exact hturn hrun ht
    | outside ho =>
      obtain rfl := ho
      exact ih

/-- **A pass can always be brought to its end**: every call ends in time. -/
theorem pass_ends (env : LookupEnv) (replies : BatchReplies) (isbns : List String)
    (s : Pool FallbackShared String Attempts Verdict) :
    ∃ t, (batchPass env replies isbns).Leads s t ∧ t.Done (fallbackWorkers env replies isbns) := by
  -- an attempt that is still to be made costs two turns, one that is under way costs one
  let rank : Attempts → Nat := fun l => 2 * l.left.length + if l.underWay then 0 else 1
  refine @leads_done _ _ _ _ _ _ _ _ _ rank 5 (fun x => ?_) (fun {e x l e' l'} ht => ?_)
    (fun e x l => ⟨_, _, rfl⟩) s
  · exact Nat.le_refl 5
  · change resolveTurn replies e x l = _ at ht
    unfold resolveTurn at ht
    split at ht
    · split at ht <;> cases ht
    next p left hl =>
    split at ht
    · next hunder =>
      split at ht <;> cases ht <;> simp [rank, hl, hunder] <;> omega
    · next hunder =>
      split at ht <;> cases ht
      simp [rank, hunder]

/-! ## The outcome -/

namespace BatchBookLookupOutcome

/-- What the outcome says of one ISBN. -/
def at_ (o : BatchBookLookupOutcome) (x : String) :
    Option LookupRecord × Bool × Option LibraryImportLookupUnavailableReason :=
  (o.found x, o.notFound x, o.unavailable x)

/-- In how many of the three the ISBN is. -/
def count (o : BatchBookLookupOutcome) (x : String) : Nat :=
  (o.found x).isSome.toNat + (o.notFound x).toNat + (o.unavailable x).isSome.toNat

theorem enter_other {o : BatchBookLookupOutcome} {y : String} (h : x ≠ y) :
    (o.enter y v).at_ x = o.at_ x := by
  cases v <;> simp [at_, enter, Function.update_of_ne h]

theorem enter_self {o : BatchBookLookupOutcome} (h : o.at_ x = (none, false, none)) :
    (o.enter x v).at_ x = (empty.enter x v).at_ x := by
  simp only [at_, Prod.mk.injEq] at h
  obtain ⟨hfound, hnot, hunavailable⟩ := h
  cases v <;> simp [at_, enter, empty, hfound, hnot, hunavailable]

/-- An ISBN without a verdict is as it was. -/
theorem enter_all_other {o : BatchBookLookupOutcome} {l : List (String × Verdict)}
    (h : x ∉ l.map Prod.fst) : (l.foldr (fun r o => o.enter r.1 r.2) o).at_ x = o.at_ x := by
  induction l with
  | nil => rfl
  | cons r l ih =>
    rw [List.map_cons, List.mem_cons, not_or] at h
    rw [List.foldr_cons, enter_other h.1, ih h.2]

/-- **Of an ISBN with a verdict the outcome says that verdict.** -/
theorem enter_all {o : BatchBookLookupOutcome} {l : List (String × Verdict)}
    (hl : (l.map Prod.fst).Nodup) (hv : (x, v) ∈ l) (hx : o.at_ x = (none, false, none)) :
    (l.foldr (fun r o => o.enter r.1 r.2) o).at_ x = (empty.enter x v).at_ x := by
  induction l with
  | nil => cases hv
  | cons r l ih =>
    rw [List.map_cons, List.nodup_cons] at hl
    rw [List.foldr_cons]
    rcases List.mem_cons.mp hv with rfl | hv
    · rw [enter_self]
      rw [enter_all_other hl.1, hx]
    · have hne : x ≠ r.1 := by
        rintro rfl
        exact hl.1 (List.mem_map.mpr ⟨_, hv, rfl⟩)
      rw [enter_other hne, ih hl.2 hv]

end BatchBookLookupOutcome

/-- Every provider was asked for the ISBN, and has answered that it has none. -/
def NoneHasIt (replies : BatchReplies) (isbns : List String)
    (s : Pool FallbackShared String Attempts Verdict) (x : String) : Prop :=
  (∃ chunk ∈ chunks OPEN_LIBRARY_BIBKEYS_PER_REQUEST (pendingIsbns isbns), x ∈ chunk ∧
    Silent replies chunk x) ∧
  ∀ p, (p, x) ∈ s.shared.asked ∧ replies.single p x = .value none

/-- The ways in which a pass speaks of an ISBN when it has ended. -/
theorem passOutcome_cases (h : PassEnds env replies isbns s) (x : String) :
    (x ∉ isbns ∧ (passOutcome env replies isbns s).at_ x = (none, false, none)) ∨
    x ∈ isbns ∧
      ((∃ r, (passOutcome env replies isbns s).at_ x = (some r, false, none)) ∨
        (∃ reason, (passOutcome env replies isbns s).at_ x = (none, false, some reason)) ∨
        (passOutcome env replies isbns s).at_ x = (none, true, none) ∧
          NoneHasIt replies isbns s x) := by
  have hbefore : (outcomeBefore env replies isbns).at_ x =
      ((runOpenLibraryBatches replies (pendingIsbns isbns)).found x, false,
        if x ∈ (remainingIsbns replies isbns).drop env.lookupFallbackBudget then
          some .budgetExhausted else none) := rfl
  have hsplit : (remainingIsbns replies isbns).take env.lookupFallbackBudget ++
      (remainingIsbns replies isbns).drop env.lookupFallbackBudget =
      remainingIsbns replies isbns := List.take_append_drop _ _
  have hnodup := nodup_affordable env replies isbns
  have hinv := pool_inv hnodup h.1
  by_cases hafford : x ∈ affordable env replies isbns
  · -- the fallback has a verdict on it, and nothing was said of it before
    have hremain := List.mem_of_mem_take hafford
    obtain ⟨hx, hfound⟩ := mem_remainingIsbns.mp hremain
    have hdrop : x ∉ (remainingIsbns replies isbns).drop env.lookupFallbackBudget := by
      have hdisjoint := nodup_remainingIsbns replies isbns
      rw [← hsplit] at hdisjoint
      exact List.disjoint_of_nodup_append hdisjoint hafford
    rw [hfound, if_neg hdrop] at hbefore
    have hres := resolved_of_done hnodup
      (fun hne => fallbackWorkers_pos hne) h.1 h.2 hafford
    obtain ⟨⟨y, v⟩, hv, rfl⟩ := List.mem_map.mp hres
    have hat := BatchBookLookupOutcome.enter_all hinv.results_nodup hv hbefore
    have htold := (resolveOne_keeps.reachable h.1).2 y v hv
    refine .inr ⟨hx, ?_⟩
    cases v with
    | found r =>
      exact .inl ⟨r, hat.trans (by simp [BatchBookLookupOutcome.at_, BatchBookLookupOutcome.enter,
        BatchBookLookupOutcome.empty])⟩
    | unavailable reason =>
      exact .inr (.inl ⟨reason, hat.trans (by simp [BatchBookLookupOutcome.at_,
        BatchBookLookupOutcome.enter, BatchBookLookupOutcome.empty])⟩)
    | notFound =>
      refine .inr (.inr ⟨hat.trans (by simp [BatchBookLookupOutcome.at_,
        BatchBookLookupOutcome.enter, BatchBookLookupOutcome.empty]), ?_, htold.2⟩)
      exact batches_silent (List.mem_eraseDups.mpr hx) hfound htold.1
  · -- the fallback never touched it
    have hnone : x ∉ s.results.map Prod.fst := fun hres =>
      hafford (List.mem_of_mem_take (hinv.resolved_taken x hres))
    have hat : (passOutcome env replies isbns s).at_ x = _ :=
      (BatchBookLookupOutcome.enter_all_other hnone).trans hbefore
    cases hfound : (runOpenLibraryBatches replies (pendingIsbns isbns)).found x with
    | some r =>
      have hpending : x ∈ pendingIsbns isbns := batches_found (by rw [hfound]; exact nofun)
      have hx : x ∈ isbns := List.mem_eraseDups.mp hpending
      have hdrop : x ∉ (remainingIsbns replies isbns).drop env.lookupFallbackBudget := fun hmem => by
        have hnot := (mem_remainingIsbns.mp (List.mem_of_mem_drop hmem)).2
        rw [hfound] at hnot
        cases hnot
      rw [hfound, if_neg hdrop] at hat
      exact .inr ⟨hx, .inl ⟨r, hat⟩⟩
    | none =>
      rw [hfound] at hat
      by_cases hx : x ∈ isbns
      · have hdrop : x ∈ (remainingIsbns replies isbns).drop env.lookupFallbackBudget := by
          have hmem := mem_remainingIsbns.mpr ⟨hx, hfound⟩
          rw [← hsplit] at hmem
          exact (List.mem_append.mp hmem).resolve_left hafford
        rw [if_pos hdrop] at hat
        exact .inr ⟨hx, .inr (.inl ⟨_, hat⟩)⟩
      · have hdrop : x ∉ (remainingIsbns replies isbns).drop env.lookupFallbackBudget := fun hmem =>
          hx (mem_remainingIsbns.mp (List.mem_of_mem_drop hmem)).1
        rw [if_neg hdrop] at hat
        exact .inl ⟨hx, hat⟩

end Pass

/-! ## The cache and one ISBN -/

/-- The field of a written record is not `notFound`. -/
theorem lookup_field {α : Type} {key key' : String} {toJson : α → Json} {value : Option α}
    (h : key ≠ key') : (Json.field key toJson value).lookup key' = none := by
  cases value with
  | none => rfl
  | some v =>
    have hne : (key' == key) = false := beq_false_of_ne h.symm
    simp [Json.field, List.lookup_cons, hne]

/-- A record that is written is no negative row. -/
theorem isNegativeCachePayload_toJson (r : LookupRecord) :
    isNegativeCachePayload r.toJson = false := by
  have hget : r.toJson.get? "notFound" = none := by
    simp [LookupRecord.toJson, Json.get?, List.lookup_append, lookup_field, List.lookup_cons]
  unfold isNegativeCachePayload
  rw [hget]

/-- A row past its time, or one that the schema refuses, is a miss. -/
theorem classifyCacheRow_miss (now : Time) (row : CacheRow)
    (h : (isNegativeCachePayload row.payload = true ∧
        now - row.fetchedAt > env.lookupNegativeCacheTtlMs) ∨
      (isNegativeCachePayload row.payload = false ∧
        (now - row.fetchedAt > env.lookupCacheTtlMs ∨
          bookLookupResultSchema row.payload = none))) :
    classifyCacheRow env now row = .miss := by
  unfold classifyCacheRow
  rcases h with ⟨hneg, hage⟩ | ⟨hneg, hage | hparse⟩
  · simp only [hneg, if_true]
    rw [if_neg (not_le.mpr hage)]
  · simp only [hneg]
    rw [if_neg Bool.false_ne_true, if_pos hage]
  · simp only [hneg, hparse]
    rw [if_neg Bool.false_ne_true, ite_self]

/-- A source of which neither a record nor a failure is recorded has no such book. -/
theorem ask_missing {label : String} {source : ExternalBookSource} {outcome : LookupOutcome}
    (hresult : (ask label source outcome).result = none)
    (hfailure : (ask label source outcome).failure = none) : outcome = .value none := by
  cases outcome with
  | timeout => cases hfailure
  | error description => cases hfailure
  | value record =>
    cases record with
    | none => rfl
    | some record => cases hresult

/-- Both sources said that there is no such book. -/
def BothHaveNone (r : LookupReplies) : Prop :=
  r.openLibrary = .value none ∧ r.googleBooks = .value none

theorem fallbackLookup_none {r : LookupReplies} (h : fallbackLookup r = .ok none) :
    BothHaveNone r := by
  unfold fallbackLookup at h
  dsimp only at h
  split at h
  · next hresults =>
    split at h
    · next hfailures =>
      rw [List.isEmpty_iff] at hfailures
      simp only [List.filterMap_eq_nil_iff, List.mem_cons, List.not_mem_nil, or_false,
        forall_eq_or_imp, forall_eq] at hresults hfailures
      exact ⟨ask_missing hresults.1 hfailures.1, ask_missing hresults.2 hfailures.2⟩
    · cases h
  · split at h
    · cases h
    · split at h <;> cases h

namespace LookupService

variable {cache : LookupCache} {now : Time}

/-- The provider was asked in time and said that there is no such book. -/
theorem fetchFromProvider_none {late : Bool} {r : LookupReplies}
    (h : fetchFromProvider late r = .ok none) : late = false ∧ BothHaveNone r := by
  unfold fetchFromProvider at h
  split at h
  · cases h
  · next hlate =>
    refine ⟨Bool.eq_false_iff.mpr hlate, fallbackLookup_none ?_⟩
    cases hf : fallbackLookup r with
    | error description =>
      rw [hf] at h
      cases h
    | ok result =>
      rw [hf] at h
      cases h
      rfl

theorem fetchFromProvider_error {late : Bool} {r : LookupReplies} {e : ApiException}
    (h : fetchFromProvider late r = .error e) : e.code ≠ .catalogLookupNotFound := by
  unfold fetchFromProvider at h
  split at h
  · cases h
    exact nofun
  · cases hf : fallbackLookup r with
    | error description =>
      rw [hf] at h
      cases h
      exact nofun
    | ok result =>
      rw [hf] at h
      cases h

/-- **One ISBN is reported as not found** from the cache, or because both sources said so. -/
theorem lookup_notFound {late : Bool} {r : LookupReplies}
    (h : (lookup env cache now late r x).1 = .error (throwNotFound x)) :
    readCache env cache now x = .notFound ∨ late = false ∧ BothHaveNone r := by
  unfold lookup at h
  split at h
  · cases h
  · next hread => exact .inl hread
  · split at h
    · next hfetch =>
      cases h
      exact absurd rfl (fetchFromProvider_error hfetch)
    · next hfetch => exact .inr (fetchFromProvider_none hfetch)
    · cases h

/-- **One ISBN is remembered as not found** only because both sources said so. -/
theorem lookup_negative {late : Bool} {r : LookupReplies} {payload : Json}
    (h : (lookup env cache now late r x).2 = some payload)
    (hneg : isNegativeCachePayload payload = true) : late = false ∧ BothHaveNone r := by
  unfold lookup at h
  split at h
  · cases h
  · cases h
  · split at h
    · cases h
    · next hfetch => exact fetchFromProvider_none hfetch
    · cases h
      rw [isNegativeCachePayload_toJson] at hneg
      cases hneg

theorem mem_misses :
    x ∈ misses env cache now isbns ↔ x ∈ isbns ∧ readCache env cache now x = .miss := by
  unfold misses readCachedMany
  rw [List.mem_filter, List.mem_eraseDups]
  refine and_congr_right fun hx => ?_
  rw [if_pos hx]
  cases readCache env cache now x <;> simp

/-- What the batch path says of an ISBN that a finished pass was asked for. -/
theorem lookupMany_cases {s : Pool FallbackShared String Attempts Verdict}
    (h : PassEnds env replies (misses env cache now isbns) s) (x : String) :
    let fetched := passOutcome env replies (misses env cache now isbns) s
    ((lookupMany env cache now isbns fetched x).isSome = true ↔ x ∈ isbns) ∧
      (lookupMany env cache now isbns fetched x = some .notFound →
        readCache env cache now x = .notFound ∨
          NoneHasIt replies (misses env cache now isbns) s x) ∧
      ∀ payload, writeCacheMany fetched x = some payload →
        isNegativeCachePayload payload = true →
          NoneHasIt replies (misses env cache now isbns) s x := by
  intro fetched
  have hcases := passOutcome_cases h x
  rw [mem_misses] at hcases
  simp only [BatchBookLookupOutcome.at_, Prod.mk.injEq] at hcases
  rcases hcases with ⟨hmiss, hfound, hnot, hunavailable⟩ | ⟨⟨hx, -⟩, hcases⟩
  · -- the pass says nothing of it: the cache answers
    have hmany : lookupMany env cache now isbns fetched x =
        readCachedMany env cache now isbns x := by
      unfold lookupMany
      simp only [fetched, hfound, hnot, hunavailable]
      rfl
    rw [hmany]
    unfold readCachedMany writeCacheMany
    simp only [fetched, hfound, hnot]
    refine ⟨?_, fun hread => ?_, nofun⟩
    · by_cases hx : x ∈ isbns
      · rw [if_pos hx]
        cases hread : readCache env cache now x with
        | hit result => simp [hx]
        | notFound => simp [hx]
        | miss => exact absurd ⟨hx, hread⟩ hmiss
      · simp [hx]
    · left
      split at hread
      · cases hcache : readCache env cache now x with
        | hit result => simp [hcache] at hread
        | notFound => rfl
        | miss => simp [hcache] at hread
      · cases hread
  · unfold lookupMany writeCacheMany
    rcases hcases with ⟨r, hfound, hnot, hunavailable⟩ | ⟨reason, hfound, hnot, hunavailable⟩ |
      ⟨⟨hfound, hnot, hunavailable⟩, hnone⟩
    · simp only [fetched, hfound, hnot, hunavailable]
      refine ⟨by simp [hx], nofun, fun payload hpayload hneg => ?_⟩
      cases hpayload
      rw [isNegativeCachePayload_toJson] at hneg
      cases hneg
    · simp only [fetched, hfound, hnot, hunavailable]
      exact ⟨by simp [hx], nofun, nofun⟩
    · simp only [fetched, hfound, hnot, hunavailable]
      exact ⟨by simp [hx], fun _ => .inr hnone, fun _ _ _ => hnone⟩

end LookupService

/-- **The fallback's budget**: no more distinct ISBNs are sent to it. -/
theorem asked_budget {s : Pool FallbackShared String Attempts Verdict}
    (hr : (batchPass env replies isbns).Reachable s) :
    (s.shared.asked.map Prod.snd).toFinset.card ≤ env.lookupFallbackBudget := by
  have hsub : (s.shared.asked.map Prod.snd).toFinset ⊆ (affordable env replies isbns).toFinset := by
    intro y hy
    rw [List.mem_toFinset, List.mem_map] at hy
    obtain ⟨c, hc, rfl⟩ := hy
    exact List.mem_toFinset.mpr (asked_affordable hr c hc)
  calc (s.shared.asked.map Prod.snd).toFinset.card
      ≤ (affordable env replies isbns).toFinset.card := Finset.card_le_card hsub
    _ ≤ (affordable env replies isbns).length := List.toFinset_card_le _
    _ ≤ env.lookupFallbackBudget := by
      unfold affordable
      exact List.length_take_le _ _

/-- **The verdicts on ISBNs are sound.** Of a pass over any batch: the budget holds in every state,
the pass can be brought to its end, and then every ISBN of the batch is in exactly one of the
three, and not found only when every provider said so. The service reports and remembers an ISBN as
not found for no other reason, be it asked for many or for one, on any cache. An expired row of the
cache, and one that is no answer any more, is a miss. -/
theorem lookup_verdicts (env : LookupEnv) :
    (∀ (replies : BatchReplies) (isbns : List String)
        (s : Pool FallbackShared String Attempts Verdict),
      (batchPass env replies isbns).Reachable s →
        (s.shared.asked.map Prod.snd).toFinset.card ≤ env.lookupFallbackBudget ∧
        (∃ t, (batchPass env replies isbns).Leads s t ∧ PassEnds env replies isbns t) ∧
        (PassEnds env replies isbns s → ∀ x,
          (passOutcome env replies isbns s).count x = (if x ∈ isbns then 1 else 0) ∧
          ((passOutcome env replies isbns s).notFound x = true →
            NoneHasIt replies isbns s x))) ∧
    (∀ (cache : LookupCache) (now : Time) (replies : BatchReplies) (isbns : List String)
        (s : Pool FallbackShared String Attempts Verdict),
      PassEnds env replies (LookupService.misses env cache now isbns) s → ∀ x,
        let fetched := passOutcome env replies (LookupService.misses env cache now isbns) s
        ((LookupService.lookupMany env cache now isbns fetched x).isSome = true ↔ x ∈ isbns) ∧
        (LookupService.lookupMany env cache now isbns fetched x = some .notFound →
          readCache env cache now x = .notFound ∨
            NoneHasIt replies (LookupService.misses env cache now isbns) s x) ∧
        ∀ payload, LookupService.writeCacheMany fetched x = some payload →
          isNegativeCachePayload payload = true →
            NoneHasIt replies (LookupService.misses env cache now isbns) s x) ∧
    (∀ (cache : LookupCache) (now : Time) (late : Bool) (replies : LookupReplies) (x : String),
      ((LookupService.lookup env cache now late replies x).1 =
          .error (LookupService.throwNotFound x) →
        readCache env cache now x = .notFound ∨ late = false ∧ BothHaveNone replies) ∧
      ∀ payload, (LookupService.lookup env cache now late replies x).2 = some payload →
        isNegativeCachePayload payload = true → late = false ∧ BothHaveNone replies) ∧
    (∀ (now : Time) (row : CacheRow),
      ((isNegativeCachePayload row.payload = true ∧
          now - row.fetchedAt > env.lookupNegativeCacheTtlMs) ∨
        (isNegativeCachePayload row.payload = false ∧
          (now - row.fetchedAt > env.lookupCacheTtlMs ∨
            bookLookupResultSchema row.payload = none))) →
      classifyCacheRow env now row = .miss) ∧
    ∀ (cache : LookupCache) (now : Time) (isbns : List String) (x : String),
      x ∈ LookupService.misses env cache now isbns ↔
        x ∈ isbns ∧ readCache env cache now x = .miss := by
  refine ⟨fun replies isbns s hr => ⟨asked_budget hr, ?_, fun hends x => ?_⟩,
    fun cache now replies isbns s hends x => LookupService.lookupMany_cases hends x,
    fun cache now late replies x => ⟨LookupService.lookup_notFound,
      fun payload => LookupService.lookup_negative⟩,
    classifyCacheRow_miss, fun cache now isbns x => LookupService.mem_misses⟩
  · obtain ⟨t, hleads, hdone⟩ := pass_ends env replies isbns s
    exact ⟨t, hleads, hr.leads hleads, hdone⟩
  · have hcases := passOutcome_cases hends x
    simp only [BatchBookLookupOutcome.at_, Prod.mk.injEq] at hcases
    unfold BatchBookLookupOutcome.count
    rcases hcases with ⟨hx, hfound, hnot, hunavailable⟩ | ⟨hx, ⟨r, hfound, hnot, hunavailable⟩ |
      ⟨reason, hfound, hnot, hunavailable⟩ | ⟨⟨hfound, hnot, hunavailable⟩, hnone⟩⟩
    · simp [hx, hfound, hnot, hunavailable]
    · simp [hx, hfound, hnot, hunavailable]
    · simp [hx, hfound, hnot, hunavailable]
    · simp [hx, hfound, hnot, hunavailable, hnone]

/-- Open Library and ISBNdb have no such book, and Google Books does not answer in time. -/
def silentGoogle : BatchReplies where
  abortedBefore _ := false
  books _ := .value fun _ => .absent
  single p _ := match p with
    | .googleBooks => .timeout
    | .isbnDb => .value none

/-- The ISBN that Google Books was too late for is unavailable, once the pass has ended. -/
theorem lookup_verdicts_timeout :
    ∃ s, PassEnds ⟨none, none, none, none⟩ silentGoogle ["9780306406157", "9780306406157"] s ∧
      (passOutcome ⟨none, none, none, none⟩ silentGoogle
        ["9780306406157", "9780306406157"] s).count "9780306406157" = 1 ∧
      (passOutcome ⟨none, none, none, none⟩ silentGoogle
        ["9780306406157", "9780306406157"] s).notFound "9780306406157" = false := by
  have hpass := (lookup_verdicts ⟨none, none, none, none⟩).1 silentGoogle
    ["9780306406157", "9780306406157"]
  obtain ⟨t, -, hends⟩ := (hpass _ (Machine.Reachable.start rfl)).2.1
  obtain ⟨hcount, hnot⟩ := (hpass t hends.1).2.2 hends "9780306406157"
  refine ⟨t, hends, hcount.trans (by decide), Bool.eq_false_iff.mpr fun hreported => ?_⟩
  have hnone := ((hnot hreported).2 .googleBooks).2
  cases hnone

end Bookswap
