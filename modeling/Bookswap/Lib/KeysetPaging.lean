import Mathlib.Data.Finset.Sort
import Mathlib.Data.List.Sort

/-!
# Keyset paging

A job or a reader walks through a table page by page. The query of a page takes the
first keys after the cursor in the order of the keys, the page is handled, and the
cursor moves to its last key. Between two pages the table may change, by the handling
itself or by others, so each page has its own view of it.

- `Paging.loop`: the walk, with fuel, and `Paging.Run`: the walks that reach the end.
- `Paging.loop_ends`: finitely many keys and a positive page size bound it.
- `Run.ascending`: the pages ascend, so a key is listed at most once (`Run.nodup`).
- `Run.handled`: a key that stays in view until it is handled is listed, and what its
  handling achieves holds at the end.
-/

namespace Keyset

universe u v w

variable {K : Type u} [LinearOrder K]

/-- Without a cursor every key is after it. -/
def after (cursor : Option K) (k : K) : Bool :=
  cursor.all (· < k)

@[simp] theorem after_none (k : K) : after none k = true := rfl

@[simp] theorem after_some {c k : K} : after (some c) k = true ↔ c < k :=
  decide_eq_true_iff

/-- The keys in view that are after the cursor, in order. -/
def rest (cursor : Option K) (view : List K) : List K :=
  (view.filter (after cursor)).insertionSort (· ≤ ·)

@[simp] theorem mem_rest {cursor : Option K} {view : List K} {k : K} :
    k ∈ rest cursor view ↔ k ∈ view ∧ after cursor k = true := by
  simp [rest]

/-- Two lists in strictly ascending order with the same keys are one list. -/
theorem eq_of_ascending {a b : List K} (ha : a.Pairwise (· < ·)) (hb : b.Pairwise (· < ·))
    (h : ∀ k, k ∈ a ↔ k ∈ b) : a = b :=
  ((List.perm_ext_iff_of_nodup (ha.imp ne_of_lt) (hb.imp ne_of_lt)).mpr h).eq_of_pairwise
    (fun _ _ _ _ hab hba => absurd hba (lt_asymm hab)) ha hb

theorem rest_ascending (cursor : Option K) {view : List K} (h : view.Nodup) :
    (rest cursor view).Pairwise (· < ·) := by
  have hle : (rest cursor view).Pairwise (· ≤ ·) := List.pairwise_insertionSort _ _
  have hne : (rest cursor view).Pairwise (· ≠ ·) :=
    (List.perm_insertionSort _ _).nodup_iff.mpr (h.filter _)
  exact hle.imp₂ (fun _ _ hab hn => lt_of_le_of_ne hab hn) hne

/-- A walk through the keys of a state: how many keys make a page, how many the query
reads (one more where it peeks), what the query of each page has in view, and what is
done with a page. -/
structure Paging (K : Type u) (σ : Type v) (ε : Type w) where
  size : Nat
  limit : Nat
  size_le : size ≤ limit
  le_succ : limit ≤ size + 1
  view : Nat → σ → List K
  nodup : ∀ i s, (view i s).Nodup
  handle : Nat → List K → σ → Except ε σ

namespace Paging

variable {σ : Type v} {ε : Type w} (P : Paging K σ ε)

/-- The keys the query of the `i`-th page returns. -/
def read (i : Nat) (cursor : Option K) (s : σ) : List K :=
  (rest cursor (P.view i s)).take P.limit

/-- The page made of them. -/
def page (i : Nat) (cursor : Option K) (s : σ) : List K :=
  (P.read i cursor s).take P.size

/-- The walk from a cursor; a read below the limit is the last one. -/
def loop : Nat → Nat → Option K → σ → Option (Except ε (List (List K) × σ))
  | 0, _, _, _ => none
  | fuel + 1, i, cursor, s =>
    match P.handle i (P.page i cursor s) s with
    | .error e => some (.error e)
    | .ok s' =>
      if (P.read i cursor s).length < P.limit then some (.ok ([P.page i cursor s], s'))
      else
        (loop fuel (i + 1) ((P.page i cursor s).getLast?.or cursor) s').map
          (Except.map fun r => (P.page i cursor s :: r.1, r.2))

/-- A walk that reaches the end, with its pages and its last state. -/
inductive Run : Nat → Option K → σ → List (List K) → σ → Prop
  | last {i cursor s s'} (hh : P.handle i (P.page i cursor s) s = .ok s')
      (hs : (P.read i cursor s).length < P.limit) :
      Run i cursor s [P.page i cursor s] s'
  | more {i cursor s s' pages t} (hh : P.handle i (P.page i cursor s) s = .ok s')
      (hs : ¬(P.read i cursor s).length < P.limit)
      (hr : Run (i + 1) ((P.page i cursor s).getLast?.or cursor) s' pages t) :
      Run i cursor s (P.page i cursor s :: pages) t

variable {P} {i : Nat} {cursor : Option K} {s t : σ} {k : K}

theorem page_eq : P.page i cursor s = (rest cursor (P.view i s)).take P.size := by
  rw [page, read, List.take_take, Nat.min_eq_left P.size_le]

theorem mem_page (h : k ∈ P.page i cursor s) : k ∈ P.view i s ∧ after cursor k = true := by
  rw [page_eq] at h
  exact mem_rest.mp (List.mem_of_mem_take h)

theorem page_ascending : (P.page i cursor s).Pairwise (· < ·) := by
  rw [page_eq]
  exact (rest_ascending cursor (P.nodup i s)).sublist (List.take_sublist _ _)

/-- The last page holds all the keys that are left. -/
theorem mem_last_page (hs : (P.read i cursor s).length < P.limit) :
    k ∈ P.page i cursor s ↔ k ∈ P.view i s ∧ after cursor k = true := by
  have hlen : (rest cursor (P.view i s)).length ≤ P.size := by
    have := P.le_succ
    rw [read, List.length_take] at hs
    omega
  rw [page_eq, List.take_of_length_le hlen, mem_rest]

/-- Any other page is full. -/
theorem length_page (hs : ¬(P.read i cursor s).length < P.limit) :
    (P.page i cursor s).length = P.size := by
  have := P.size_le
  rw [page, List.length_take]
  omega

/-- The cursor after a page that is not empty is its last key: not before any key of the
page, and before every key that was in view and is not on the page. -/
theorem cursor_of_page {c : K} (hc : (P.page i cursor s).getLast? = some c) :
    (∀ k ∈ P.page i cursor s, k ≤ c) ∧
      (k ∈ P.view i s → after cursor k = true → k ∉ P.page i cursor s → c < k) := by
  obtain ⟨front, hfront⟩ := List.getLast?_eq_some_iff.mp hc
  constructor
  · have hasc : (front ++ [c]).Pairwise (· < ·) := hfront ▸ page_ascending
    intro k hk
    rw [hfront, List.mem_append, List.mem_singleton] at hk
    rcases hk with hk | rfl
    · exact le_of_lt ((List.pairwise_append.mp hasc).2.2 k hk c (List.mem_singleton_self c))
    · exact le_refl k
  · intro hv ha hnot
    have hrest := rest_ascending cursor (P.nodup i s)
    rw [← List.take_append_drop P.size (rest cursor (P.view i s)), ← page_eq] at hrest
    have hmem : k ∈ rest cursor (P.view i s) := mem_rest.mpr ⟨hv, ha⟩
    rw [← List.take_append_drop P.size (rest cursor (P.view i s)), ← page_eq,
      List.mem_append] at hmem
    have hdrop := hmem.resolve_left hnot
    exact (List.pairwise_append.mp hrest).2.2 c (List.mem_of_getLast? hc) k hdrop

/-- The keys after the next cursor are after this one. -/
theorem after_of_next (h : after ((P.page i cursor s).getLast?.or cursor) k = true) :
    after cursor k = true := by
  cases hc : (P.page i cursor s).getLast? with
  | none => rwa [hc] at h
  | some c =>
    rw [hc] at h
    have hck : c < k := after_some.mp h
    have hca := (mem_page (List.mem_of_getLast? hc)).2
    cases cursor with
    | none => rfl
    | some b => exact after_some.mpr ((after_some.mp hca).trans hck)

/-! ### The walk and its runs -/

/-- What the walk returns is a run. -/
theorem run_of_loop {fuel : Nat} {pages : List (List K)}
    (h : P.loop fuel i cursor s = some (.ok (pages, t))) : P.Run i cursor s pages t := by
  induction fuel generalizing i cursor s pages t with
  | zero => cases h
  | succ fuel ih =>
    rw [loop] at h
    cases hh : P.handle i (P.page i cursor s) s with
    | error e =>
      rw [hh] at h
      cases h
    | ok s' =>
      rw [hh] at h
      dsimp only at h
      split at h
      · rename_i hs
        cases h
        exact .last hh hs
      · rename_i hs
        obtain ⟨r, hr, hok⟩ := Option.map_eq_some_iff.mp h
        cases r with
        | error e => cases hok
        | ok r =>
          cases hok
          exact .more hh hs (ih hr)

/-- **A walk over finitely many keys ends.** -/
theorem loop_ends (keys : Finset K) (Inv : σ → Prop) (hsize : 0 < P.size)
    (hview : ∀ i s, Inv s → ∀ k ∈ P.view i s, k ∈ keys)
    (hkeep : ∀ i c s s', Inv s → P.handle i (P.page i c s) s = .ok s' → Inv s')
    {fuel : Nat} (hs : Inv s) (hfuel : (keys.filter fun k => after cursor k = true).card < fuel) :
    ∃ r, P.loop fuel i cursor s = some r := by
  induction fuel generalizing i cursor s with
  | zero => omega
  | succ fuel ih =>
    rw [loop]
    cases hh : P.handle i (P.page i cursor s) s with
    | error e => exact ⟨_, rfl⟩
    | ok s' =>
      dsimp only
      split
      · exact ⟨_, rfl⟩
      · rename_i hfull
        have hlen := length_page hfull
        obtain ⟨c, hc⟩ : ∃ c, (P.page i cursor s).getLast? = some c := by
          cases hp : (P.page i cursor s).getLast? with
          | some c => exact ⟨c, rfl⟩
          | none =>
            rw [List.getLast?_eq_none_iff.mp hp] at hlen
            exact absurd hlen (by simp; omega)
        have hmem := List.mem_of_getLast? hc
        -- the last key of the page is behind the next cursor
        have hless : (keys.filter fun k => after (some c) k = true).card <
            (keys.filter fun k => after cursor k = true).card := by
          refine Finset.card_lt_card (Finset.ssubset_iff_of_subset ?_ |>.mpr ⟨c, ?_, ?_⟩)
          · intro k hk
            obtain ⟨hk, ha⟩ := Finset.mem_filter.mp hk
            exact Finset.mem_filter.mpr ⟨hk, after_of_next (by rw [hc]; exact ha)⟩
          · exact Finset.mem_filter.mpr
              ⟨hview i s hs c (mem_page hmem).1, (mem_page hmem).2⟩
          · simp
        obtain ⟨r, hr⟩ : ∃ r, P.loop fuel (i + 1) (some c) s' = some r :=
          ih (hkeep i _ s s' hs hh) (by omega)
        rw [hc, Option.some_or, hr]
        exact ⟨_, rfl⟩

/-- Pages of no keys never end. -/
theorem endless (hlimit : P.limit = 0) (hh : ∀ i s, ∃ s', P.handle i [] s = .ok s')
    {fuel : Nat} : P.loop fuel i cursor s = none := by
  induction fuel generalizing i cursor s with
  | zero => rfl
  | succ fuel ih =>
    have hpage : P.page i cursor s = [] := by
      rw [page, read, hlimit, List.take_zero, List.take_nil]
    obtain ⟨s', hok⟩ := hh i s
    rw [loop, hpage, hok]
    dsimp only
    rw [if_neg (by rw [hlimit]; exact Nat.not_lt_zero _), ih]
    rfl

/-- A walk that fails, fails at the handling of a page. -/
theorem failed_page (Inv : σ → Prop)
    (hkeep : ∀ i c s s', Inv s → P.handle i (P.page i c s) s = .ok s' → Inv s')
    {fuel : Nat} {e : ε} (hs : Inv s) (h : P.loop fuel i cursor s = some (.error e)) :
    ∃ j c u, Inv u ∧ P.handle j (P.page j c u) u = .error e := by
  induction fuel generalizing i cursor s with
  | zero => cases h
  | succ fuel ih =>
    rw [loop] at h
    cases hh : P.handle i (P.page i cursor s) s with
    | error e' =>
      rw [hh] at h
      cases h
      exact ⟨i, cursor, s, hs, hh⟩
    | ok s' =>
      rw [hh] at h
      dsimp only at h
      split at h
      · cases h
      · obtain ⟨r, hr, herr⟩ := Option.map_eq_some_iff.mp h
        cases r with
        | ok r => cases herr
        | error e' =>
          cases herr
          exact ih (hkeep i _ s s' hs hh) hr

namespace Run

variable {pages : List (List K)}

/-- An invariant that every page keeps holds at the end. -/
theorem invariant (Inv : σ → Prop)
    (hkeep : ∀ i c s s', Inv s → P.handle i (P.page i c s) s = .ok s' → Inv s')
    (h : P.Run i cursor s pages t) (hs : Inv s) : Inv t := by
  induction h with
  | last hh _ => exact hkeep _ _ _ _ hs hh
  | more hh _ _ ih => exact ih (hkeep _ _ _ _ hs hh)

/-- Every key listed was in view when its page was read. -/
theorem listed (Inv : σ → Prop)
    (hkeep : ∀ i c s s', Inv s → P.handle i (P.page i c s) s = .ok s' → Inv s')
    (h : P.Run i cursor s pages t) (hs : Inv s) (hk : k ∈ pages.flatten) :
    ∃ j u, Inv u ∧ k ∈ P.view j u := by
  induction h with
  | @last i cursor s s' hh _ =>
    rw [List.flatten_singleton] at hk
    exact ⟨i, s, hs, (mem_page hk).1⟩
  | @more i cursor s s' pages t hh _ hr ih =>
    rw [List.flatten_cons, List.mem_append] at hk
    rcases hk with hk | hk
    · exact ⟨i, s, hs, (mem_page hk).1⟩
    · exact ih (hkeep _ _ _ _ hs hh) hk

theorem after_of_mem (h : P.Run i cursor s pages t) (hk : k ∈ pages.flatten) :
    after cursor k = true := by
  induction h with
  | last hh _ =>
    rw [List.flatten_singleton] at hk
    exact (mem_page hk).2
  | more hh _ hr ih =>
    rw [List.flatten_cons, List.mem_append] at hk
    rcases hk with hk | hk
    · exact (mem_page hk).2
    · exact after_of_next (ih hk)

/-- **The pages ascend**, within each of them and from one to the next. -/
theorem ascending (h : P.Run i cursor s pages t) : pages.flatten.Pairwise (· < ·) := by
  induction h with
  | last hh _ =>
    rw [List.flatten_singleton]
    exact page_ascending
  | @more i cursor s s' pages t hh hs hr ih =>
    rw [List.flatten_cons, List.pairwise_append]
    refine ⟨page_ascending, ih, fun a ha b hb => ?_⟩
    obtain ⟨c, hc⟩ := List.getLast?_isSome.mpr (List.ne_nil_of_mem ha) |> Option.isSome_iff_exists.mp
    have hb' := hr.after_of_mem hb
    rw [hc, Option.some_or] at hb'
    exact lt_of_le_of_lt ((cursor_of_page (k := a) hc).1 a ha) (after_some.mp hb')

/-- A key is listed at most once. -/
theorem nodup (h : P.Run i cursor s pages t) : pages.flatten.Nodup :=
  h.ascending.imp ne_of_lt

/-- What a key has reached when it is not listed any more stays. -/
theorem settled {Done : σ → Prop}
    (hkeep : ∀ i c s s', Done s → k ∉ P.page i c s → P.handle i (P.page i c s) s = .ok s' →
      Done s')
    (h : P.Run i cursor s pages t) (hk : k ∉ pages.flatten) (hs : Done s) : Done t := by
  induction h with
  | last hh _ =>
    rw [List.flatten_singleton] at hk
    exact hkeep _ _ _ _ hs hk hh
  | more hh _ hr ih =>
    rw [List.flatten_cons, List.mem_append, not_or] at hk
    exact ih hk.2 (hkeep _ _ _ _ hs hk.1 hh)

/-- **A key that stays in view until it is handled is listed**, and what its handling
achieves holds at the end. -/
theorem handled (Waiting Done : σ → Prop)
    (hview : ∀ i s, Waiting s → k ∈ P.view i s)
    (hwait : ∀ i c s s', Waiting s → k ∉ P.page i c s →
      P.handle i (P.page i c s) s = .ok s' → Waiting s')
    (hdone : ∀ i c s s', Waiting s → k ∈ P.page i c s → P.handle i (P.page i c s) s = .ok s' →
      Done s')
    (hkeep : ∀ i c s s', Done s → k ∉ P.page i c s → P.handle i (P.page i c s) s = .ok s' →
      Done s')
    (h : P.Run i cursor s pages t) (hc : after cursor k = true) (hs : Waiting s) :
    k ∈ pages.flatten ∧ Done t := by
  induction h with
  | @last i cursor s s' hh hlast =>
    have hk := (mem_last_page hlast).mpr ⟨hview i s hs, hc⟩
    exact ⟨by rwa [List.flatten_singleton], hdone _ _ _ _ hs hk hh⟩
  | @more i cursor s s' pages t hh hfull hr ih =>
    rw [List.flatten_cons, List.mem_append]
    by_cases hk : k ∈ P.page i cursor s
    · -- the pages ascend, so the key is not listed again
      have hlater : k ∉ pages.flatten := fun hagain =>
        List.disjoint_of_nodup_append
          (List.flatten_cons ▸ (Run.more hh hfull hr).nodup) hk hagain
      exact ⟨Or.inl hk, hr.settled hkeep hlater (hdone _ _ _ _ hs hk hh)⟩
    · have hnext : after ((P.page i cursor s).getLast?.or cursor) k = true := by
        cases hp : (P.page i cursor s).getLast? with
        | none => exact hc
        | some c => exact after_some.mpr ((cursor_of_page hp).2 (hview i s hs) hc hk)
      obtain ⟨hmem, ht⟩ := ih hnext (hwait _ _ _ _ hs hk hh)
      exact ⟨Or.inr hmem, ht⟩

end Run

end Paging

end Keyset
