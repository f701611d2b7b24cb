import Bookswap.Catalog.MergeService
import Bookswap.Lib.BestOf
import Mathlib

/-!
# Merging a set of works: the order does not matter

What readers keep of works that are merged into one: the reading status that was changed last, the
review that was updated last, with the others archived, and the wishlist item that was added first.

- `ReaderTable`, `settle`: what a merge does to the rows of readers, for the three tables at once.
- `BestLeft`, `BestLeft.settle`: the rows that are left are the best of those brought together.
- `mergeAll`, `finalPlace`: a sequence of merges, and where the rows of a work are after it.
- `Collapses`, `CollapseOutcome`: a set of works is merged into one, and what each reader has then.
- `KeptReview`: what a merge leaves of a review.
- `merge_confluence`: the order of the merges does not matter.
-/

namespace Bookswap

open BestOf Checked

/-! ## The rows of readers -/

/-- A table of rows of readers on works, and what a row is preferred by. -/
structure ReaderTable (ρ κ : Type) where
  id : ρ → Nat
  user : ρ → UserId
  work : ρ → WorkId
  key : ρ → κ
  place : WorkId → ρ → ρ
  id_place : ∀ w r, id (place w r) = id r
  user_place : ∀ w r, user (place w r) = user r
  work_place : ∀ w r, work (place w r) = w
  key_place : ∀ w r, key (place w r) = key r
  place_place : ∀ w w' r, place w (place w' r) = place w r
  place_work : ∀ r, place (work r) r = r

section Settle

variable {ρ κ : Type} [LinearOrder κ] (T : ReaderTable ρ κ)

/-- What a merge of `a` into `b` makes of the rows: the losing ones go, the source's move. -/
def ReaderTable.settle (a b : WorkId) (rows : List ρ) : List ρ :=
  (rows.filter fun r => T.id r ∉ losersOf T.user T.work T.id (fun r q => T.key q < T.key r)
    (onEither T.work a b rows) a).map fun r => T.place (movedFrom a b (T.work r)) r

/-- The rows that are left when the rows `rows₀` are at `home`. -/
structure BestLeft (rows₀ : List ρ) (home : ρ → WorkId) (rows : List ρ) : Prop where
  mem : ∀ r', r' ∈ rows ↔ ∃ r, Best rows₀ T.user T.key home r ∧ r' = T.place (home r) r
  ids : (rows.map T.id).Sublist (rows₀.map T.id)

variable {T} {rows₀ rows : List ρ} {home : ρ → WorkId}

theorem bestLeft_start (hone : OneEach T.user T.work rows₀) : BestLeft T rows₀ T.work rows₀ := by
  refine ⟨fun r => ⟨fun hr => ⟨r, ?_, (T.place_work r).symm⟩, ?_⟩, List.Sublist.refl _⟩
  · exact best_of_single hr fun q hq huser hwork => hone q hq r hr huser hwork
  · rintro ⟨r, hr, rfl⟩
    rw [T.place_work]
    exact hr.1

theorem BestLeft.oneEach (hs : BestLeft T rows₀ home rows) (hkeys : Apart rows₀ T.user T.key) :
    OneEach T.user T.work rows := by
  intro r' hr' q' hq' huser hwork
  obtain ⟨r, hr, rfl⟩ := (hs.mem r').mp hr'
  obtain ⟨q, hq, rfl⟩ := (hs.mem q').mp hq'
  rw [T.user_place, T.user_place] at huser
  rw [T.work_place, T.work_place] at hwork
  rw [best_unique hkeys hr hq huser hwork]

theorem BestLeft.ids_apart (hs : BestLeft T rows₀ home rows) (hids : (rows₀.map T.id).Nodup) :
    ∀ r ∈ rows, ∀ q ∈ rows, T.id r = T.id q → r = q :=
  fun _ hr _ hq h => List.inj_on_of_nodup_map (hs.ids.nodup hids) hr hq h

/-- **Who stays in a merge**: the rows that no best row of the other work beats. -/
theorem BestLeft.stays (hs : BestLeft T rows₀ home rows) (hids : (rows₀.map T.id).Nodup)
    (hkeys : Apart rows₀ T.user T.key) {a b : WorkId} (hab : a ≠ b) {r : ρ}
    (hr : Best rows₀ T.user T.key home r) :
    T.id (T.place (home r) r) ∉ losersOf T.user T.work T.id (fun r q => T.key q < T.key r)
        (onEither T.work a b rows) a ↔
      ∀ q, Best rows₀ T.user T.key home q → T.user q = T.user r → Opposite a b home r q →
        T.key q ≤ T.key r := by
  have hmem : ∀ {x}, x ∈ onEither T.work a b rows ↔ x ∈ rows ∧ (T.work x = a ∨ T.work x = b) := by
    intro x
    simp [onEither]
  have hx : T.place (home r) r ∈ rows := (hs.mem _).mpr ⟨r, hr, rfl⟩
  have hone : OneEach T.user T.work (onEither T.work a b rows) := fun r hr q hq =>
    hs.oneEach hkeys r (hmem.mp hr).1 q (hmem.mp hq).1
  have hidsOn : ∀ r ∈ onEither T.work a b rows, ∀ q ∈ onEither T.work a b rows,
      T.id r = T.id q → r = q := fun r hr q hq =>
    hs.ids_apart hids r (hmem.mp hr).1 q (hmem.mp hq).1
  have htwo : ∀ r ∈ onEither T.work a b rows, T.work r = a ∨ T.work r = b :=
    fun r hr => (hmem.mp hr).2
  by_cases hhome : home r = a ∨ home r = b
  · have hon : T.place (home r) r ∈ onEither T.work a b rows :=
      hmem.mpr ⟨hx, by rwa [T.work_place]⟩
    rw [mem_losersOf hone htwo hab hidsOn hon]
    simp only [T.user_place, T.work_place, T.key_place, decide_eq_false_iff_not, not_lt,
      decide_eq_true_eq]
    constructor
    · intro hno q hq huser hopp
      by_contra hlt
      have hy : T.place (home q) q ∈ rows := (hs.mem _).mpr ⟨q, hq, rfl⟩
      refine hno ⟨T.place (home q) q, hmem.mpr ⟨hy, ?_⟩, ?_, ?_⟩
      · rw [T.work_place]
        exact hopp.elim (fun h => .inr h.2) fun h => .inl h.2
      · rw [T.user_place, huser]
      · rw [T.work_place, T.key_place]
        exact hopp.imp (fun h => ⟨h.1, h.2, (not_le.mp hlt).le⟩) fun h => ⟨h.1, h.2, not_le.mp hlt⟩
    · rintro hbeats ⟨y, hy, huser, hloses⟩
      obtain ⟨q, hq, rfl⟩ := (hs.mem y).mp (hmem.mp hy).1
      rw [T.work_place, T.key_place] at hloses
      rw [T.user_place] at huser
      rcases hloses with ⟨hra, hqb, hle⟩ | ⟨hrb, hqa, hlt⟩
      · -- equal keys would make them one row, on two works
        have heq := le_antisymm (hbeats q hq huser (.inl ⟨hra, hqb⟩)) hle
        have hsame := hkeys q hq.1 r hr.1 huser heq
        rw [hsame, hra] at hqb
        exact hab hqb
      · exact absurd (hbeats q hq huser (.inr ⟨hrb, hqa⟩)) (not_le.mpr hlt)
  · have hnone : ∀ q, ¬ Opposite a b home r q := fun q hopp =>
      hhome (hopp.imp And.left And.left)
    refine iff_of_true (fun hlosers => ?_) fun q _ _ hopp => absurd hopp (hnone q)
    obtain ⟨p, hp, hid⟩ := List.mem_map.mp hlosers
    obtain ⟨hs₁, hs₂, -⟩ := (mem_pairUpByUser hone htwo hab).mp hp
    have hloser : ∃ y ∈ onEither T.work a b rows, T.id y = T.id (T.place (home r) r) := by
      split at hid
      · exact ⟨p.2, hs₂, hid⟩
      · exact ⟨p.1, hs₁, hid⟩
    obtain ⟨y, hy, hyid⟩ := hloser
    have hsame := hs.ids_apart hids y (hmem.mp hy).1 _ hx hyid
    have hwork := htwo y hy
    rw [hsame, T.work_place] at hwork
    exact hhome hwork

/-- **One merge**: what is left are the best rows of what is now together. -/
theorem BestLeft.settle (hs : BestLeft T rows₀ home rows) (hids : (rows₀.map T.id).Nodup)
    (hkeys : Apart rows₀ T.user T.key) {a b : WorkId} (hab : a ≠ b) :
    BestLeft T rows₀ (fun r => movedFrom a b (home r)) (T.settle a b rows) := by
  classical
  refine ⟨fun r' => ?_, ?_⟩
  · have hjoin : (fun r => movedFrom a b (home r)) = join a b home := rfl
    rw [hjoin]
    simp only [ReaderTable.settle, List.mem_map, List.mem_filter, decide_eq_true_eq]
    constructor
    · rintro ⟨x, ⟨hx, hstays⟩, rfl⟩
      obtain ⟨r, hr, rfl⟩ := (hs.mem x).mp hx
      refine ⟨r, (best_join hab).mpr ⟨hr, (hs.stays hids hkeys hab hr).mp hstays⟩, ?_⟩
      rw [T.work_place, T.place_place]
    · rintro ⟨r, hr, rfl⟩
      obtain ⟨hbest, hbeats⟩ := (best_join hab).mp hr
      refine ⟨T.place (home r) r, ⟨(hs.mem _).mpr ⟨r, hbest, rfl⟩,
        (hs.stays hids hkeys hab hbest).mpr hbeats⟩, ?_⟩
      rw [T.work_place, T.place_place]
  · have hmap : (T.settle a b rows).map T.id = (rows.filter fun r => T.id r ∉ losersOf T.user T.work
        T.id (fun r q => T.key q < T.key r) (onEither T.work a b rows) a).map T.id := by
      rw [ReaderTable.settle, List.map_map]
      exact List.map_congr_left fun r _ => T.id_place _ r
    rw [hmap]
    exact (List.filter_sublist.map T.id).trans hs.ids

/-- The rows that no merge touches play no part. -/
theorem ReaderTable.settle_filter (S : Finset WorkId) {a b : WorkId} (ha : a ∈ S) (hb : b ∈ S)
    (rows : List ρ) :
    T.settle a b (rows.filter fun r => T.work r ∈ S) =
      (T.settle a b rows).filter fun r => T.work r ∈ S := by
  have heither : onEither T.work a b (rows.filter fun r => T.work r ∈ S) =
      onEither T.work a b rows := by
    rw [onEither, onEither, List.filter_filter]
    refine List.filter_congr fun r _ => ?_
    rw [← Bool.decide_and, decide_eq_decide]
    refine and_iff_left_of_imp ?_
    rintro (h | h) <;> rw [h] <;> assumption
  have hstays : ∀ w, movedFrom a b w ∈ S ↔ w ∈ S := by
    intro w
    unfold movedFrom
    split
    · next h =>
      rw [h]
      exact iff_of_true hb ha
    · exact Iff.rfl
  rw [ReaderTable.settle, heither, ReaderTable.settle, List.filter_map, List.filter_filter,
    List.filter_filter]
  refine congrArg _ (List.filter_congr fun r _ => ?_)
  rw [Function.comp_apply, T.work_place, Bool.and_comm]
  exact congrArg (· && _) (decide_eq_decide.mpr (hstays (T.work r)).symm)

end Settle

/-! ## A sequence of merges -/

/-- One call of `merge`. -/
structure MergeOp where
  source : WorkId
  target : WorkId
  now : Time

/-- Merges one after the other, none of them refused. -/
def mergeAll (s : CatalogStore) : List MergeOp → MergeTx CatalogStore
  | [] => pure s
  | m :: ms => do
    let (s, _) ← merge s m.source m.target m.now
    mergeAll s ms

/-- Where the rows of a work are after the merges. -/
def finalPlace : List MergeOp → WorkId → WorkId
  | [], w => w
  | m :: ms, w => finalPlace ms (movedFrom m.source m.target w)

/-- What holds at the start, and is kept by each merge, holds at the end. -/
theorem mergeAll_induction {P : CatalogStore → (WorkId → WorkId) → Prop} {S : Finset WorkId}
    (hstep : ∀ s s' place a b now, a ∈ S → b ∈ S → Merged s a b now s' → P s place →
      P s' fun w => movedFrom a b (place w))
    {ms : List MergeOp} {s s' : CatalogStore} {p : WorkId → WorkId} (hP : P s p)
    (hin : ∀ m ∈ ms, m.source ∈ S ∧ m.target ∈ S) (h : mergeAll s ms = .ok s') :
    P s' fun w => finalPlace ms (p w) := by
  induction ms generalizing s p with
  | nil =>
    cases h
    exact hP
  | cons m ms ih =>
    obtain ⟨⟨s₁, summary⟩, hmerge, h⟩ := bind_eq_ok.mp h
    obtain ⟨hsource, htarget⟩ := hin m List.mem_cons_self
    have hP₁ := hstep s s₁ p _ _ m.now hsource htarget (merge_eq_ok hmerge) hP
    exact ih hP₁ (fun m' hm' => hin m' (List.mem_cons_of_mem _ hm')) h

/-! ### The pointers say where the rows are -/

/-- `resolve`: where a work is now, if it is there at all. -/
def CatalogStore.canonical? (s : CatalogStore) (w : WorkId) : Option WorkId :=
  (s.db.work? w).map fun work => work.mergedIntoId.getD w

theorem work?_pointTo (db : CatalogDb) (a b w : WorkId) :
    (pointTo db a b).work? w = (db.work? w).map fun work =>
      if work.mergedIntoId = some a ∨ work.id = a then { work with mergedIntoId := some b }
      else work := by
  unfold CatalogDb.work? pointTo
  rw [List.find?_map]
  refine congrArg _ (congrArg (List.find? · _) (funext fun work => ?_))
  simp only [Function.comp_apply]
  split <;> rfl

theorem Merged.work? {s s' : CatalogStore} {a b : WorkId} {now : Time} (hm : Merged s a b now s')
    (w : WorkId) : s'.db.work? w = (pointTo s.db a b).work? w := by
  unfold CatalogDb.work?
  rw [hm.workRows]

theorem Merged.canonical? {s s' : CatalogStore} {a b : WorkId} {now : Time}
    (hm : Merged s a b now s') (w : WorkId) :
    s'.canonical? w = (s.canonical? w).map (movedFrom a b) := by
  obtain ⟨source, target, hsource, -, hcanonical, -⟩ := hm.works
  unfold CatalogStore.canonical?
  rw [hm.work?, work?_pointTo, Option.map_map, Option.map_map]
  cases hwork : s.db.work? w with
  | none => rfl
  | some work =>
    simp only [Option.map_some, Function.comp_apply, Option.some.injEq]
    have hid : work.id = w := by simpa using List.find?_some hwork
    by_cases hpoints : work.mergedIntoId = some a ∨ work.id = a
    · rw [if_pos hpoints]
      rcases hpoints with h | h
      · simp [h, movedFrom]
      · -- the source itself is not merged yet
        have hwa : w = a := hid.symm.trans h
        rw [hwa, hsource, Option.some.injEq] at hwork
        rw [← hwork, hcanonical, hwa]
        simp [movedFrom]
    · rw [if_neg hpoints]
      push Not at hpoints
      unfold movedFrom
      rw [if_neg]
      cases hinto : work.mergedIntoId with
      | none => exact fun h => hpoints.2 (hid.trans h)
      | some c => exact fun h => hpoints.1 (hinto.trans (congrArg some h))

/-! ## The three tables -/

def statusTable : ReaderTable WorkReadingStatus Time where
  id := WorkReadingStatus.id
  user := WorkReadingStatus.userId
  work := WorkReadingStatus.workId
  key := WorkReadingStatus.updatedAt
  place w r := { r with workId := w }
  id_place _ _ := rfl
  user_place _ _ := rfl
  work_place _ _ := rfl
  key_place _ _ := rfl
  place_place _ _ _ := rfl
  place_work _ := rfl

def reviewTable : ReaderTable Review Time where
  id := Review.id
  user := Review.userId
  work := Review.workId
  key := Review.updatedAt
  place w r := { r with workId := w }
  id_place _ _ := rfl
  user_place _ _ := rfl
  work_place _ _ := rfl
  key_place _ _ := rfl
  place_place _ _ _ := rfl
  place_work _ := rfl

/-- The item that was added first is preferred. -/
def wishlistTable : ReaderTable WishlistItem Timeᵒᵈ where
  id := WishlistItem.id
  user := WishlistItem.userId
  work := WishlistItem.workId
  key r := OrderDual.toDual r.createdAt
  place w r := { r with workId := w }
  id_place _ _ := rfl
  user_place _ _ := rfl
  work_place _ _ := rfl
  key_place _ _ := rfl
  place_place _ _ _ := rfl
  place_work _ := rfl

/-- The reviews that are shown. -/
def CatalogStore.activeReviews (s : CatalogStore) : List Review :=
  s.reviews.filter fun r => r.archivedAt = none

section Tables

variable {s s' : CatalogStore} {a b : WorkId} {now : Time} (hm : Merged s a b now s')

include hm

theorem Merged.statuses_settle : s'.statuses = statusTable.settle a b s.statuses :=
  hm.statuses

theorem Merged.wishlist_settle : s'.wishlist = wishlistTable.settle a b s.wishlist := by
  rw [hm.wishlist]
  unfold dropLosingWishlistItems ReaderTable.settle losingWishlistItems
  have hwins : (fun r q : WishlistItem => decide (r.createdAt < q.createdAt)) =
      fun r q => decide (wishlistTable.key q < wishlistTable.key r) := by
    funext r q
    exact decide_eq_decide.mpr OrderDual.toDual_lt_toDual.symm
  rw [hwins]
  rfl

theorem Merged.activeReviews_settle :
    s'.activeReviews = reviewTable.settle a b s.activeReviews := by
  unfold CatalogStore.activeReviews
  rw [hm.reviews]
  unfold archiveLosingReviews ReaderTable.settle
  rw [List.map_map, List.filter_map, List.filter_filter]
  have hlosing : losersOf reviewTable.user reviewTable.work reviewTable.id
      (fun r q => reviewTable.key q < reviewTable.key r)
      (onEither reviewTable.work a b (s.reviews.filter fun r => r.archivedAt = none)) a =
      losingReviews s a b := rfl
  rw [hlosing]
  -- a review that loses is archived, and not shown any more
  have hshown : ∀ r : Review,
      (if r.id ∈ losingReviews s a b then
        { r with archivedAt := some now, archivedByMergeSourceId := some a } else r).archivedAt
        = none ↔ r.id ∉ losingReviews s a b ∧ r.archivedAt = none := by
    intro r
    split
    · next h => simp [h]
    · next h => simp [h]
  have hsame : s.reviews.filter ((fun r : Review => decide (r.archivedAt = none)) ∘
      ((fun r : Review => { r with workId := movedFrom a b r.workId }) ∘ fun r =>
        if r.id ∈ losingReviews s a b then
          { r with archivedAt := some now, archivedByMergeSourceId := some a } else r)) =
      s.reviews.filter fun r =>
        decide (reviewTable.id r ∉ losingReviews s a b) && decide (r.archivedAt = none) := by
    refine List.filter_congr fun r _ => ?_
    rw [← Bool.decide_and]
    exact decide_eq_decide.mpr (hshown r)
  rw [hsame]
  refine List.map_congr_left fun r hr => ?_
  simp only [List.mem_filter, Bool.and_eq_true, decide_eq_true_eq] at hr
  have hwins : r.id ∉ losingReviews s a b := hr.2.1
  simp only [Function.comp_apply]
  rw [if_neg hwins]
  rfl

end Tables

/-! ## What is left of a set of works -/

section Final

variable {ρ κ : Type} [LinearOrder κ] {T : ReaderTable ρ κ} {S : Finset WorkId}

/-- The rows of a reader on the works. -/
def ReaderTable.ofReader (T : ReaderTable ρ κ) (S : Finset WorkId) (u : UserId) (rows : List ρ) :
    List ρ :=
  (rows.filter fun r => T.work r ∈ S).filter fun r => T.user r = u

/-- A list without repetition, of the one element there is. -/
theorem eq_toList_of_mem {l : List ρ} {o : Option ρ} (hl : l.Nodup)
    (h : ∀ r, r ∈ l ↔ o = some r) : l = o.toList := by
  cases o with
  | none => exact List.eq_nil_iff_forall_not_mem.mpr fun r hr => nomatch (h r).mp hr
  | some b =>
    match l, hl, h with
    | [], _, h => exact absurd ((h b).mpr rfl) List.not_mem_nil
    | [c], _, h =>
      rw [Option.some.inj ((h c).mp List.mem_cons_self)]
      rfl
    | c :: d :: l, hl, h =>
      have hc := Option.some.inj ((h c).mp List.mem_cons_self)
      have hd := Option.some.inj ((h d).mp (List.mem_cons_of_mem _ List.mem_cons_self))
      refine absurd ?_ (List.nodup_cons.mp hl).1
      rw [← hc, hd]
      exact List.mem_cons_self

/-- **Where all is in one place, the best row of each reader is left.** -/
theorem BestLeft.final {rows₀ rows : List ρ} {home : ρ → WorkId} {f : WorkId}
    (hs : BestLeft T rows₀ home rows) (hids : (rows₀.map T.id).Nodup)
    (hkeys : Apart rows₀ T.user T.key) (hhome : ∀ r ∈ rows₀, home r = f) (u : UserId) :
    (rows.filter fun r => T.user r = u) =
      (((rows₀.filter fun r => T.user r = u).argmax T.key).map (T.place f)).toList := by
  classical
  refine eq_toList_of_mem ((hs.ids.nodup hids).of_map.filter _) fun r' => ?_
  have hbest : ∀ r, (Best rows₀ T.user T.key home r ∧ T.user r = u ∧ home r = f) ↔
      (rows₀.filter fun r => T.user r = u).argmax T.key = some r := by
    refine fun r => best_iff_argmax hkeys fun q => ?_
    simp only [List.mem_filter, decide_eq_true_eq]
    exact and_congr_right fun hq => (and_iff_left (hhome q hq)).symm
  rw [Option.map_eq_some_iff, List.mem_filter, decide_eq_true_eq]
  constructor
  · rintro ⟨hr', huser⟩
    obtain ⟨r, hr, rfl⟩ := (hs.mem r').mp hr'
    rw [T.user_place] at huser
    have hplace := hhome r hr.1
    exact ⟨r, (hbest r).mp ⟨hr, huser, hplace⟩, by rw [hplace]⟩
  · rintro ⟨r, hr, rfl⟩
    obtain ⟨hr, huser, hplace⟩ := (hbest r).mpr hr
    rw [T.user_place]
    exact ⟨(hs.mem _).mpr ⟨r, hr, by rw [hplace]⟩, huser⟩

/-- The merges bring the works into `f`. -/
structure Collapses (S : Finset WorkId) (f : WorkId) (ms : List MergeOp) (s' : CatalogStore) :
    Prop where
  within : ∀ m ∈ ms, m.source ∈ S ∧ m.target ∈ S
  collapsed : ∀ w ∈ S, s'.canonical? w = some f

/-- The pointers after the merges are where the rows are. -/
theorem canonical?_mergeAll {ms : List MergeOp} {s s' : CatalogStore}
    (hin : ∀ m ∈ ms, m.source ∈ S ∧ m.target ∈ S) (h : mergeAll s ms = .ok s') (w : WorkId) :
    s'.canonical? w = (s.canonical? w).map (finalPlace ms) := by
  have hmain := mergeAll_induction
    (P := fun s' place => ∀ w, s'.canonical? w = (s.canonical? w).map place)
    (fun s₁ s₂ place a b now _ _ hm hP w => by
      rw [hm.canonical?, hP, Option.map_map]
      rfl)
    (p := id) (fun w => (Option.map_id_apply).symm) hin h
  exact hmain w

theorem Collapses.place {f : WorkId} {ms : List MergeOp} {s s' : CatalogStore}
    (hc : Collapses S f ms s') (h : mergeAll s ms = .ok s')
    (hworks : ∀ w ∈ S, s.canonical? w = some w) : ∀ w ∈ S, finalPlace ms w = f := by
  intro w hw
  have hplace := canonical?_mergeAll hc.within h w
  rw [hc.collapsed w hw, hworks w hw] at hplace
  exact (Option.some.inj hplace).symm

/-- **One table, any sequence of merges**: the best row of each reader is left, on the final
work. -/
theorem ofReader_mergeAll {g : CatalogStore → List ρ}
    (hget : ∀ {s s' a b now}, Merged s a b now s' → g s' = T.settle a b (g s))
    {ms : List MergeOp} {s s' : CatalogStore} {f : WorkId} (hids : ((g s).map T.id).Nodup)
    (hone : OneEach T.user T.work (g s))
    (hkeys : Apart ((g s).filter fun r => T.work r ∈ S) T.user T.key)
    (hworks : ∀ w ∈ S, s.canonical? w = some w) (h : mergeAll s ms = .ok s')
    (hc : Collapses S f ms s') (u : UserId) :
    T.ofReader S u (g s') =
      (((T.ofReader S u (g s)).argmax T.key).map (T.place f)).toList := by
  have hids' : (((g s).filter fun r => T.work r ∈ S).map T.id).Nodup :=
    (List.filter_sublist.map T.id).nodup hids
  have hleft := mergeAll_induction
    (P := fun s' place => BestLeft T ((g s).filter fun r => T.work r ∈ S)
      (fun r => place (T.work r)) ((g s').filter fun r => T.work r ∈ S))
    (fun s₁ s₂ place a b now ha hb hm hP => by
      rw [hget hm, ← T.settle_filter S ha hb]
      exact hP.settle hids' hkeys (hm.distinct))
    (p := id) (bestLeft_start fun r hr q hq =>
      hone r (List.mem_of_mem_filter hr) q (List.mem_of_mem_filter hq)) hc.within h
  refine hleft.final hids' hkeys (fun r hr => ?_) u
  exact hc.place h hworks (T.work r) (of_decide_eq_true (List.mem_filter.mp hr).2)

end Final

/-! ### No review is lost -/

/-- What is left of a review: all of it, at `place`; an archived one is as it was. -/
structure KeptReview (place : WorkId → WorkId) (r r' : Review) : Prop where
  id : r'.id = r.id
  author : r'.userId = r.userId
  said : r'.rating = r.rating ∧ r'.text = r.text
  updatedAt : r'.updatedAt = r.updatedAt
  workId : r'.workId = place r.workId
  archived : r.archivedAt ≠ none →
    r'.archivedAt = r.archivedAt ∧ r'.archivedByMergeSourceId = r.archivedByMergeSourceId

theorem KeptReview.trans {place place' : WorkId → WorkId} {r r' r'' : Review}
    (h : KeptReview place r r') (h' : KeptReview place' r' r'') :
    KeptReview (fun w => place' (place w)) r r'' where
  id := h'.id.trans h.id
  author := h'.author.trans h.author
  said := ⟨h'.said.1.trans h.said.1, h'.said.2.trans h.said.2⟩
  updatedAt := h'.updatedAt.trans h.updatedAt
  workId := by rw [h'.workId, h.workId]
  archived harchived := by
    obtain ⟨hat, hby⟩ := h.archived harchived
    have hagain := h'.archived (by rw [hat]; exact harchived)
    exact ⟨hagain.1.trans hat, hagain.2.trans hby⟩

/-- A merge moves and archives reviews; those that are archived already only move. -/
theorem Merged.keptReviews {s s' : CatalogStore} {a b : WorkId} {now : Time}
    (hids : (s.reviews.map Review.id).Nodup) (hm : Merged s a b now s') :
    List.Forall₂ (KeptReview (movedFrom a b)) s.reviews s'.reviews := by
  rw [hm.reviews]
  unfold archiveLosingReviews
  rw [List.map_map, List.forall₂_map_right_iff, List.forall₂_same]
  intro r hr
  simp only [Function.comp_apply]
  split
  · next hloses =>
    refine ⟨rfl, rfl, ⟨rfl, rfl⟩, rfl, rfl, fun harchived => absurd ?_ harchived⟩
    -- only active reviews are compared
    have hmem : ∃ q ∈ s.activeReviews, q.id = r.id := by
      obtain ⟨p, hp, hid⟩ := List.mem_map.mp hloses
      obtain ⟨u, -, hp⟩ := List.mem_filterMap.mp hp
      obtain ⟨source, hsource, hp⟩ := Option.bind_eq_some_iff.mp hp
      obtain ⟨target, htarget, hp⟩ := Option.bind_eq_some_iff.mp hp
      cases hp
      have hon : ∀ {q : Review} {u : UserId} {f : Review → Bool},
          (((onEither Review.workId a b s.activeReviews).filter f).filter
            fun r => r.userId = u).getLast? = some q → q ∈ s.activeReviews := fun h =>
        List.mem_of_mem_filter (List.mem_of_mem_filter (List.mem_of_mem_filter
          (List.mem_of_getLast? h)))
      split at hid
      · exact ⟨target, hon htarget, hid⟩
      · exact ⟨source, hon hsource, hid⟩
    obtain ⟨q, hq, hid⟩ := hmem
    obtain ⟨hq, hactive⟩ := List.mem_filter.mp hq
    rw [← List.inj_on_of_nodup_map hids hq hr hid]
    exact of_decide_eq_true hactive
  · exact ⟨rfl, rfl, ⟨rfl, rfl⟩, rfl, rfl, fun _ => ⟨rfl, rfl⟩⟩

theorem keptReview_ids {place : WorkId → WorkId} {rows rows' : List Review}
    (h : List.Forall₂ (KeptReview place) rows rows') : rows'.map Review.id = rows.map Review.id := by
  induction h with
  | nil => rfl
  | cons hr _ ih => rw [List.map_cons, List.map_cons, hr.id, ih]

theorem keptReviews_trans {place place' : WorkId → WorkId} {rows rows' rows'' : List Review}
    (h : List.Forall₂ (KeptReview place) rows rows')
    (h' : List.Forall₂ (KeptReview place') rows' rows'') :
    List.Forall₂ (KeptReview fun w => place' (place w)) rows rows'' := by
  induction h generalizing rows'' with
  | nil =>
    cases h'
    exact .nil
  | cons hr _ ih =>
    cases h' with
    | cons hr' h' => exact .cons (hr.trans hr') (ih h')

/-- The works that take part go to the final one, the others stay. -/
theorem keptReviews_mergeAll {S : Finset WorkId} {f : WorkId} {ms : List MergeOp}
    {s s' : CatalogStore} (hids : (s.reviews.map Review.id).Nodup)
    (hworks : ∀ w ∈ S, s.canonical? w = some w) (h : mergeAll s ms = .ok s')
    (hc : Collapses S f ms s') :
    List.Forall₂ (KeptReview fun w => if w ∈ S then f else w) s.reviews s'.reviews := by
  have hmain := mergeAll_induction
    (P := fun s' place => (∀ w, w ∉ S → place w = w) ∧
      List.Forall₂ (KeptReview place) s.reviews s'.reviews)
    (fun s₁ s₂ place a b now ha _ hm hP => by
      refine ⟨fun w hw => ?_, ?_⟩
      · show movedFrom a b (place w) = w
        rw [hP.1 w hw]
        exact if_neg fun hwa : w = a => hw (hwa ▸ ha)
      · have hids₁ : (s₁.reviews.map Review.id).Nodup := by rwa [keptReview_ids hP.2]
        exact keptReviews_trans hP.2 (hm.keptReviews hids₁))
    (p := id) ⟨fun _ _ => rfl, List.forall₂_same.mpr fun r _ =>
      ⟨rfl, rfl, ⟨rfl, rfl⟩, rfl, rfl, fun _ => ⟨rfl, rfl⟩⟩⟩ hc.within h
  have hplace : (fun w => finalPlace ms (id w)) = fun w => if w ∈ S then f else w := by
    funext w
    split
    · next hw => exact hc.place h hworks w hw
    · next hw => exact hmain.1 w hw
  rw [← hplace]
  exact hmain.2

/-! ## The order does not matter -/

/-- The rows of readers as the database keeps them: identifiers are keys, and a reader has one
active review, one wishlist item and one reading status on a work. -/
structure ReaderRows (s : CatalogStore) : Prop where
  reviewIds : (s.reviews.map Review.id).Nodup
  wishlistIds : (s.wishlist.map WishlistItem.id).Nodup
  statusIds : (s.statuses.map WorkReadingStatus.id).Nodup
  oneReview : OneEach Review.userId Review.workId s.activeReviews
  oneItem : OneEach WishlistItem.userId WishlistItem.workId s.wishlist
  oneStatus : OneEach WorkReadingStatus.userId WorkReadingStatus.workId s.statuses

/-- The times of a reader's rows on the works are pairwise distinct, in each table. -/
structure TimesApart (S : Finset WorkId) (s : CatalogStore) : Prop where
  reviews : Apart (s.activeReviews.filter fun r => r.workId ∈ S) Review.userId Review.updatedAt
  wishlist : Apart (s.wishlist.filter fun r => r.workId ∈ S) WishlistItem.userId
    WishlistItem.createdAt
  statuses : Apart (s.statuses.filter fun r => r.workId ∈ S) WorkReadingStatus.userId
    WorkReadingStatus.updatedAt

/-- What each reader has on the works when they are merged into `f`. -/
structure CollapseOutcome (S : Finset WorkId) (f : WorkId) (s s' : CatalogStore) : Prop where
  status : ∀ u, statusTable.ofReader S u s'.statuses =
    (((statusTable.ofReader S u s.statuses).argmax WorkReadingStatus.updatedAt).map
      fun r => { r with workId := f }).toList
  review : ∀ u, reviewTable.ofReader S u s'.activeReviews =
    (((reviewTable.ofReader S u s.activeReviews).argmax Review.updatedAt).map
      fun r => { r with workId := f }).toList
  wishlist : ∀ u, wishlistTable.ofReader S u s'.wishlist =
    (((wishlistTable.ofReader S u s.wishlist).argmin WishlistItem.createdAt).map
      fun r => { r with workId := f }).toList
  reviews : List.Forall₂ (KeptReview fun w => if w ∈ S then f else w) s.reviews s'.reviews

/-- A set of works that is merged into one leaves what is there of each reader. -/
theorem collapseOutcome_mergeAll {S : Finset WorkId} {f : WorkId} {s s' : CatalogStore}
    {ms : List MergeOp} (hrows : ReaderRows s) (htimes : TimesApart S s)
    (hworks : ∀ w ∈ S, s.canonical? w = some w) (h : mergeAll s ms = .ok s')
    (hc : Collapses S f ms s') : CollapseOutcome S f s s' where
  status := ofReader_mergeAll (T := statusTable) (g := CatalogStore.statuses)
    Merged.statuses_settle hrows.statusIds hrows.oneStatus htimes.statuses hworks h hc
  review := ofReader_mergeAll (T := reviewTable) (g := CatalogStore.activeReviews)
    Merged.activeReviews_settle ((List.filter_sublist.map Review.id).nodup hrows.reviewIds)
    hrows.oneReview htimes.reviews hworks h hc
  wishlist := ofReader_mergeAll (T := wishlistTable) (g := CatalogStore.wishlist)
    Merged.wishlist_settle hrows.wishlistIds hrows.oneItem
    (fun r hr q hq huser hkey => htimes.wishlist r hr q hq huser (OrderDual.toDual_inj.mp hkey))
    hworks h hc
  reviews := keptReviews_mergeAll hrows.reviewIds hworks h hc

/-- The two tables show the same to every reader of the works. -/
structure SameOutcome (S : Finset WorkId) (s₁ s₂ : CatalogStore) : Prop where
  status : ∀ u, statusTable.ofReader S u s₁.statuses = statusTable.ofReader S u s₂.statuses
  review : ∀ u, reviewTable.ofReader S u s₁.activeReviews =
    reviewTable.ofReader S u s₂.activeReviews
  wishlist : ∀ u, wishlistTable.ofReader S u s₁.wishlist = wishlistTable.ofReader S u s₂.wishlist

/-- **The order of merges does not matter**: two sequences that collapse the works into `f` leave
each reader the same status, review and wishlist item, and both leave those that `CollapseOutcome` says. -/
theorem merge_confluence {S : Finset WorkId} {f : WorkId} {s s₁ s₂ : CatalogStore}
    {ms₁ ms₂ : List MergeOp} (hrows : ReaderRows s) (htimes : TimesApart S s)
    (hworks : ∀ w ∈ S, s.canonical? w = some w)
    (h₁ : mergeAll s ms₁ = .ok s₁) (hc₁ : Collapses S f ms₁ s₁)
    (h₂ : mergeAll s ms₂ = .ok s₂) (hc₂ : Collapses S f ms₂ s₂) :
    CollapseOutcome S f s s₁ ∧ CollapseOutcome S f s s₂ ∧ SameOutcome S s₁ s₂ := by
  have ho₁ := collapseOutcome_mergeAll hrows htimes hworks h₁ hc₁
  have ho₂ := collapseOutcome_mergeAll hrows htimes hworks h₂ hc₂
  refine ⟨ho₁, ho₂, ?_, ?_, ?_⟩
  · exact fun u => (ho₁.status u).trans (ho₂.status u).symm
  · exact fun u => (ho₁.review u).trans (ho₂.review u).symm
  · exact fun u => (ho₁.wishlist u).trans (ho₂.wishlist u).symm

/-- The same book, entered three times, and a reader with a review and a status on each. -/
def threeKobzars : CatalogStore where
  db :=
    { works := [1, 2, 3].map fun id => ⟨id, "Кобзар", "кобзар", some "uk", none, none, 9, none⟩
      authors := []
      workAuthors := []
      translations := []
      editions := []
      copies := []
      users := []
      editionReferences := []
      workReferences := []
      operations := [] }
  workRevision _ := 1
  translationRevision _ := 1
  editionRevision _ := 1
  reviews := [⟨11, 1, 5, 4, none, 10, none, none⟩, ⟨12, 2, 5, 5, none, 30, none, none⟩,
    ⟨13, 3, 5, 3, none, 20, none, none⟩]
  wishlist := [⟨21, 5, 1, 7⟩, ⟨22, 5, 3, 4⟩]
  statuses := [⟨31, 5, 1, .read, 40⟩, ⟨32, 5, 2, .reading, 10⟩, ⟨33, 5, 3, .notRead, 60⟩]

/-- The first into the second, and this into the third. -/
def oneByOne : List MergeOp := [⟨1, 2, 100⟩, ⟨2, 3, 110⟩]

/-- The second and the first into the third. -/
def bothAtOnce : List MergeOp := [⟨2, 3, 100⟩, ⟨1, 3, 110⟩]

/-- The tables after the merges. -/
def afterMerges (s : CatalogStore) (ms : List MergeOp) : CatalogStore :=
  match mergeAll s ms with
  | .ok s' => s'
  | .error _ => s

theorem merge_confluence_kobzar :
    CollapseOutcome {1, 2, 3} 3 threeKobzars (afterMerges threeKobzars oneByOne) ∧
      CollapseOutcome {1, 2, 3} 3 threeKobzars (afterMerges threeKobzars bothAtOnce) ∧
      SameOutcome {1, 2, 3} (afterMerges threeKobzars oneByOne)
        (afterMerges threeKobzars bothAtOnce) := by
  refine @merge_confluence {1, 2, 3} 3 threeKobzars _ _ oneByOne bothAtOnce
    ⟨?_, ?_, ?_, ?_, ?_, ?_⟩ ⟨?_, ?_, ?_⟩ ?_ rfl ⟨?_, ?_⟩ rfl ⟨?_, ?_⟩
  all_goals first
    | decide +kernel
    | unfold OneEach; decide +kernel
    | unfold Apart; decide +kernel

end Bookswap
