import Bookswap.Lib.Growth
import Mathlib.Data.List.Forall2

/-!
# Pages of a list

The pages of one size put together are the list up to where they end. `Forall₂` instead of
equality lets a page show its rows as they were when it was read.

- `pageOf_append`: a page over two lists, one after the other.
- `forall₂_pages`: what is shown page by page is a front of the list.
- `GrowsTo.slice`, `GrowsTo.forall₂_slice`: a page of a list that still grows.
-/

universe u v

variable {α : Type u} {β : Type v}

/-- The page `i` of a list, from 0. -/
def pageOf (l : List α) (size i : Nat) : List α := (l.drop (i * size)).take size

/-- A page takes from the second list what the first one leaves of it. -/
theorem pageOf_append (l₁ l₂ : List α) (size i : Nat) :
    pageOf (l₁ ++ l₂) size i =
      pageOf l₁ size i ++ (l₂.drop (i * size - l₁.length)).take (size - (l₁.length - i * size)) := by
  unfold pageOf
  rw [List.drop_append, List.take_append, List.length_drop]

theorem pageOf_map (f : α → β) (l : List α) (size i : Nat) :
    pageOf (l.map f) size i = (pageOf l size i).map f := by
  unfold pageOf
  rw [← List.map_drop, List.map_take]

/-- **The first pages are a front of the list.** -/
theorem forall₂_pages {R : α → β → Prop} {shown : Nat → List α} {l : List β} {size n : Nat}
    (h : ∀ i < n, List.Forall₂ R (shown i) (pageOf l size i)) :
    List.Forall₂ R ((List.range n).flatMap shown) (l.take (n * size)) := by
  induction n with
  | zero =>
    rw [Nat.zero_mul]
    exact .nil
  | succ n ih =>
    have hfront := ih fun i hi => h i (by omega)
    have hlast : List.Forall₂ R (shown n) ((l.drop (n * size)).take size) := h n (Nat.lt_succ_self n)
    rw [List.range_succ, List.flatMap_append, List.flatMap_singleton, Nat.succ_mul, List.take_add]
    exact List.rel_append hfront hlast

namespace GrowsTo

variable {R : α → α → Prop} {xs ys : List α}

theorem forall₂_take (h : GrowsTo R xs ys) : List.Forall₂ R xs (ys.take xs.length) := by
  induction h with
  | nil ys => exact .nil
  | cons hxy _ ih => exact .cons hxy ih

theorem length_le_of_drop {from_ count : Nat} (hfull : ((xs.drop from_).take count).length = count)
    (hcount : 0 < count) : from_ + count ≤ xs.length := by
  rw [List.length_take, List.length_drop] at hfull
  omega

/-- A page that is full stays where it is. -/
theorem forall₂_slice (h : GrowsTo R xs ys) {from_ count : Nat}
    (hfull : ((xs.drop from_).take count).length = count) :
    List.Forall₂ R ((xs.drop from_).take count) ((ys.drop from_).take count) := by
  cases count with
  | zero => exact .nil
  | succ count =>
    have hlength := length_le_of_drop hfull (Nat.succ_pos count)
    have hslice := List.forall₂_take (count + 1) (List.forall₂_drop from_ h.forall₂_take)
    rwa [List.drop_take, List.take_take, Nat.min_eq_left (by omega)] at hslice

end GrowsTo
