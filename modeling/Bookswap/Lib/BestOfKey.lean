import Bookswap.Lib.Newest
import Bookswap.Lib.OrderedMap
import Mathlib.Algebra.Order.Group.Defs

/-!
# The best of each key

One pass over a list keeps, for every key, an element of the greatest score. What is kept, sorted by
score, is described by `IsRanked`, which says nothing of the order in which the list was read.

- `note`, `noted`: one step of the pass and the whole pass.
- `ranked_isRanked`: what the pass leaves.
- `IsClear`: one key stands out by a margin; `IsRanked.isClear_iff`: the first two tell it.
-/

namespace BestOfKey

open Store

variable {κ α γ : Type} [DecidableEq κ] [LinearOrder γ]

/-- The element is kept when its key has nothing yet, or something of a lower score. -/
def note (key : α → κ) (score : α → γ) (best : OrderedMap κ α) (a : α) : OrderedMap κ α :=
  match best.get (key a) with
  | none => best.set (key a) a
  | some known => if score known < score a then best.set (key a) a else best

/-- The whole pass. -/
def noted (key : α → κ) (score : α → γ) (all : List α) : OrderedMap κ α :=
  all.foldl (note key score) Table.empty

/-- What is kept, the greatest score first. -/
def ranked (key : α → κ) (score : α → γ) (all : List α) : List α :=
  ((noted key score all).rows.map Prod.snd).mergeSort fun a b => score b ≤ score a

variable {key : α → κ} {score : α → γ}

/-- The map has, under its key, an element of the greatest score of every key among those seen. -/
structure Keeps (key : α → κ) (score : α → γ) (seen : List α) (best : OrderedMap κ α) : Prop where
  kept : ∀ k a, best.get k = some a → a ∈ seen ∧ key a = k
  greatest : ∀ a ∈ seen, ∃ b, best.get (key a) = some b ∧ score a ≤ score b

theorem keeps_nil : Keeps key score [] Table.empty :=
  ⟨fun _ _ h => (nomatch h), fun _ h => (nomatch h)⟩

/-- An element that is set is at least as good as what was there. -/
theorem Keeps.set {seen : List α} {best : OrderedMap κ α} (h : Keeps key score seen best) {a : α}
    (ha : ∀ known, best.get (key a) = some known → score known ≤ score a) :
    Keeps key score (seen ++ [a]) (best.set (key a) a) := by
  constructor
  · intro k b hb
    rw [OrderedMap.get_set] at hb
    split at hb
    next hk =>
      cases hb
      exact ⟨by simp, hk.symm⟩
    next =>
      obtain ⟨hmem, hkey⟩ := h.kept k b hb
      exact ⟨List.mem_append_left _ hmem, hkey⟩
  · intro b hb
    rw [OrderedMap.get_set]
    rcases List.mem_append.mp hb with hb | hb
    · obtain ⟨known, hknown, hle⟩ := h.greatest b hb
      split
      next hk => exact ⟨a, rfl, hle.trans (ha known (hk ▸ hknown))⟩
      next => exact ⟨known, hknown, hle⟩
    · cases List.mem_singleton.mp hb
      exact ⟨_, if_pos rfl, le_refl _⟩

/-- **The step**: the map keeps what it should of one element more. -/
theorem Keeps.note {seen : List α} {best : OrderedMap κ α} (h : Keeps key score seen best)
    (a : α) : Keeps key score (seen ++ [a]) (note key score best a) := by
  unfold BestOfKey.note
  split
  next hnone =>
    refine h.set fun known hknown => ?_
    rw [hnone] at hknown
    cases hknown
  next known hknown =>
    split
    next hlt =>
      refine h.set fun known' hknown' => ?_
      rw [hknown] at hknown'
      cases hknown'
      exact hlt.le
    next hnot =>
      -- what is there already is good enough for the new element, too
      constructor
      · intro k b hb
        obtain ⟨hmem, hkey⟩ := h.kept k b hb
        exact ⟨List.mem_append_left _ hmem, hkey⟩
      · intro b hb
        rcases List.mem_append.mp hb with hb | hb
        · exact h.greatest b hb
        · cases List.mem_singleton.mp hb
          exact ⟨known, hknown, not_lt.mp hnot⟩

theorem noted_keeps (key : α → κ) (score : α → γ) (all : List α) :
    Keeps key score all (noted key score all) := by
  have hrun : ∀ (rest seen : List α) (best : OrderedMap κ α), Keeps key score seen best →
      Keeps key score (seen ++ rest) (rest.foldl (BestOfKey.note key score) best) := by
    intro rest
    induction rest with
    | nil =>
      intro seen best h
      simpa using h
    | cons a rest ih =>
      intro seen best h
      have hstep := ih (seen ++ [a]) _ (h.note a)
      rwa [List.append_assoc] at hstep
  exact hrun all [] Table.empty keeps_nil

/-- The best of each key, the greatest score first. -/
structure IsRanked (key : α → κ) (score : α → γ) (all best : List α) : Prop where
  mem : ∀ b ∈ best, b ∈ all
  covers : ∀ a ∈ all, ∃ b ∈ best, key b = key a ∧ score a ≤ score b
  apart : (best.map key).Nodup
  sorted : best.Pairwise fun a b => score b ≤ score a

/-- **What the pass leaves** is the best of each key. -/
theorem ranked_isRanked (key : α → κ) (score : α → γ) (all : List α) :
    IsRanked key score all (ranked key score all) := by
  have hkeeps := noted_keeps key score all
  have hmem : ∀ b, b ∈ ranked key score all ↔ (noted key score all).get (key b) = some b := by
    intro b
    rw [ranked, List.mem_mergeSort, List.mem_map]
    constructor
    · rintro ⟨⟨k, a⟩, hrow, rfl⟩
      have hget := OrderedMap.get_eq_some_iff.mpr hrow
      exact (hkeeps.kept k a hget).2 ▸ hget
    · exact fun hget => ⟨_, OrderedMap.get_eq_some_iff.mp hget, rfl⟩
  constructor
  · exact fun b hb => (hkeeps.kept _ b ((hmem b).mp hb)).1
  · intro a ha
    obtain ⟨b, hb, hle⟩ := hkeeps.greatest a ha
    have hkey := (hkeeps.kept _ b hb).2
    exact ⟨b, (hmem b).mpr (hkey.symm ▸ hb), hkey, hle⟩
  · have hperm : ((ranked key score all).map key).Perm
        (((noted key score all).rows.map Prod.snd).map key) :=
      (List.mergeSort_perm _ _).map key
    have hkeys : ((noted key score all).rows.map Prod.snd).map key =
        (noted key score all).rows.map Prod.fst := by
      rw [List.map_map]
      refine List.map_congr_left fun row hrow => ?_
      exact (hkeeps.kept row.1 row.2 (OrderedMap.get_eq_some_iff.mpr hrow)).2
    rw [hkeys] at hperm
    exact hperm.nodup_iff.mpr (noted key score all).nodup
  · exact Newest.sorted_mergeSort_key score _

/-! ## A clear winner -/

variable [AddCommGroup γ] [IsOrderedAddMonoid γ] {least margin : γ} {all : List α}

/-- The score is enough, and whatever has another key is a margin below it. -/
structure IsClear (key : α → κ) (score : α → γ) (least margin : γ) (all : List α) (a : α) :
    Prop where
  mem : a ∈ all
  greatest : ∀ b ∈ all, key b = key a → score b ≤ score a
  enough : least ≤ score a
  ahead : ∀ b ∈ all, key b ≠ key a → margin ≤ score a - score b

omit [DecidableEq κ] [IsOrderedAddMonoid γ] in
/-- It depends on what is in the list, not on how often and where. -/
theorem IsClear.congr {all' : List α} (hall : ∀ a, a ∈ all ↔ a ∈ all') {a : α}
    (h : IsClear key score least margin all a) : IsClear key score least margin all' a :=
  { mem := (hall a).mp h.mem
    greatest := fun b hb => h.greatest b ((hall b).mpr hb)
    enough := h.enough
    ahead := fun b hb => h.ahead b ((hall b).mpr hb) }

omit [DecidableEq κ] in
/-- Two clear winners have one key and one score. -/
theorem IsClear.unique (hmargin : 0 < margin) {a b : α}
    (ha : IsClear key score least margin all a) (hb : IsClear key score least margin all b) :
    key a = key b ∧ score a = score b := by
  have hkey : key a = key b := by
    by_contra hne
    have hab : score b < score a :=
      sub_pos.mp (hmargin.trans_le (ha.ahead b hb.mem fun h => hne h.symm))
    have hba : score a < score b := sub_pos.mp (hmargin.trans_le (hb.ahead a ha.mem hne))
    exact lt_asymm hab hba
  exact ⟨hkey, le_antisymm (hb.greatest a ha.mem hkey) (ha.greatest b hb.mem hkey.symm)⟩

omit [DecidableEq κ] in
/-- **The first is a clear winner** when its score is enough and the second is a margin below. -/
theorem IsRanked.isClear_iff {best : α} {rest : List α}
    (h : IsRanked key score all (best :: rest)) :
    IsClear key score least margin all best ↔
      least ≤ score best ∧ ∀ second ∈ rest.head?, margin ≤ score best - score second := by
  have hsorted := List.pairwise_cons.mp h.sorted
  have hapart := List.nodup_cons.mp h.apart
  constructor
  · refine fun hclear => ⟨hclear.enough, fun second hsecond => ?_⟩
    have hmem := List.mem_of_mem_head? hsecond
    refine hclear.ahead second (h.mem second (List.mem_cons_of_mem _ hmem)) fun hkey => ?_
    exact hapart.1 (hkey ▸ List.mem_map_of_mem hmem)
  · rintro ⟨henough, hahead⟩
    refine ⟨h.mem best List.mem_cons_self, fun b hb hkey => ?_, henough, fun b hb hkey => ?_⟩
    · obtain ⟨c, hc, hckey, hle⟩ := h.covers b hb
      rcases List.mem_cons.mp hc with rfl | hc
      · exact hle
      · exact absurd (hckey.trans hkey ▸ List.mem_map_of_mem hc) hapart.1
    · obtain ⟨c, hc, hckey, hle⟩ := h.covers b hb
      rcases List.mem_cons.mp hc with rfl | hc
      · exact absurd hckey.symm hkey
      · cases rest with
        | nil => cases hc
        | cons second rest =>
          -- nothing after the second is better than it
          have hsecond : score c ≤ score second := by
            rcases List.mem_cons.mp hc with rfl | hc
            · exact le_refl _
            · exact (List.pairwise_cons.mp hsorted.2).1 c hc
          exact (hahead second rfl).trans (sub_le_sub_left (hle.trans hsecond) _)

omit [DecidableEq κ] in
/-- A clear winner has the key of the first. -/
theorem IsRanked.isClear_head (hmargin : 0 < margin) {best : α} {rest : List α}
    (h : IsRanked key score all (best :: rest)) {a : α}
    (ha : IsClear key score least margin all a) : IsClear key score least margin all best := by
  have hmem := h.mem best List.mem_cons_self
  obtain ⟨c, hc, hckey, hle⟩ := h.covers a ha.mem
  have hbest : score a ≤ score best := by
    rcases List.mem_cons.mp hc with rfl | hc
    · exact hle
    · exact hle.trans ((List.pairwise_cons.mp h.sorted).1 c hc)
  have hkey : key best = key a := by
    by_contra hne
    exact absurd hbest (not_le.mpr (sub_pos.mp (hmargin.trans_le (ha.ahead best hmem hne))))
  refine ⟨hmem, fun b hb hbkey => (ha.greatest b hb (hbkey.trans hkey)).trans hbest,
    ha.enough.trans hbest, fun b hb hbkey => ?_⟩
  exact (ha.ahead b hb fun h => hbkey (h.trans hkey.symm)).trans (sub_le_sub_right hbest _)

end BestOfKey
