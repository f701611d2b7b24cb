import Mathlib.Algebra.Order.Group.Defs
import Mathlib.Algebra.Order.Group.Unbundled.Basic
import Mathlib.Data.List.Basic
import Mathlib.Data.List.Nodup
import Mathlib.Data.List.Perm.Subperm

/-!
# Limits over a sliding window

A log of dated entries, newest first, in which dates need not follow the order of the log. When
every entry was admitted with fewer than `N` earlier ones dated after the start of the window
that ends with it, no window holds more than `N` entries, wherever it ends.

- `Admitted`: how the log grew.
- `Admitted.window`: what every window then holds.
- `countP_le_of_map`: counting what another list lists under the same keys.
-/

namespace SlidingWindow

universe u v w

variable {α : Type u} {T : Type v} [AddCommGroup T] [LinearOrder T]

/-- Each entry saw fewer than `N` earlier ones dated less than `W` before it, or later. -/
inductive Admitted (date : α → T) (W : T) (N : Nat) : List α → Prop
  | nil : Admitted date W N []
  | cons {a : α} {l : List α} : Admitted date W N l →
      l.countP (fun b => date a - W < date b) < N → Admitted date W N (a :: l)

variable {date : α → T} {W : T} {N : Nat} {l : List α}

/-- **No window of length `W` holds more than `N` admitted entries.** -/
theorem Admitted.window [IsOrderedAddMonoid T] (h : Admitted date W N l) (t : T) :
    l.countP (fun a => t - W < date a ∧ date a ≤ t) ≤ N := by
  induction h with
  | nil => exact Nat.zero_le N
  | @cons a l hl hfew ih =>
    by_cases ha : t - W < date a ∧ date a ≤ t
    · -- what the window holds besides `a` was there when `a` was admitted
      have hsub : l.countP (fun b => t - W < date b ∧ date b ≤ t) ≤
          l.countP fun b => date a - W < date b := by
        refine List.countP_mono_left fun b _ hb => decide_eq_true ?_
        have hstart : date a - W ≤ t - W := sub_le_sub_right ha.2 W
        exact lt_of_le_of_lt hstart (of_decide_eq_true hb).1
      rw [List.countP_cons, if_pos (decide_eq_true ha)]
      omega
    · rw [List.countP_cons, if_neg (by simpa using ha)]
      omega

/-- Entries with distinct keys are no more than the entries of a list that has all their keys. -/
theorem countP_le_of_map {β : Type w} {κ : Type w} {l : List α} {m : List β} {key : α → κ}
    {k : β → κ} {p : α → Bool} {q : β → Bool} (hnodup : (l.map key).Nodup)
    (h : ∀ a ∈ l, p a → ∃ b ∈ m, q b ∧ k b = key a) : l.countP p ≤ m.countP q := by
  have hkeys : ((l.filter p).map key).Nodup := hnodup.sublist (List.filter_sublist.map key)
  have hsub : (l.filter p).map key ⊆ (m.filter q).map k := by
    intro x hx
    obtain ⟨a, ha, rfl⟩ := List.mem_map.mp hx
    obtain ⟨hal, hpa⟩ := List.mem_filter.mp ha
    obtain ⟨b, hb, hqb, hkey⟩ := h a hal hpa
    exact List.mem_map.mpr ⟨b, List.mem_filter.mpr ⟨hb, hqb⟩, hkey⟩
  have hlen := (hkeys.subperm hsub).length_le
  rwa [List.length_map, List.length_map, ← List.countP_eq_length_filter,
    ← List.countP_eq_length_filter] at hlen

end SlidingWindow
