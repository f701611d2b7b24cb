import Mathlib.Data.List.Sort
import Mathlib.Data.List.Perm.Subperm
import Mathlib.Data.List.Nodup
import Mathlib.Order.Basic

/-!
# The newest elements of a list

`newest at_ k l` sorts by a key, greatest first, and keeps `k` elements. What is kept of a list may
be found from a part of it, as long as for every element that the part lacks it has `k` that are
not older.

- `IsNewest`: what it means to be the `k` newest of a list.
- `newest_isNewest`, `isNewest_of_part`: sorting the list, or such a part of it, finds them.
- `IsNewest.unique`: with distinct keys there is one answer.
-/

namespace Newest

variable {α γ : Type} [LinearOrder γ] (at_ : α → γ) (k : Nat)

/-- Sort by the key, greatest first, and keep `k`. -/
def newest (l : List α) : List α := (l.mergeSort fun a b => at_ b ≤ at_ a).take k

/-- `l` are the `k` newest of `all`, newest first. -/
structure IsNewest (all l : List α) : Prop where
  once : l.Subperm all
  length : l.length = min k all.length
  sorted : l.Pairwise fun a b => at_ b ≤ at_ a
  rest : ∀ b ∈ all, b ∉ l → ∀ a ∈ l, at_ b ≤ at_ a

variable {at_ k} {all l : List α}

theorem sorted_mergeSort_key (at_ : α → γ) (l : List α) :
    (l.mergeSort fun a b => at_ b ≤ at_ a).Pairwise fun a b => at_ b ≤ at_ a := by
  have h := @List.pairwise_mergeSort _ (fun a b => decide (at_ b ≤ at_ a))
    (fun a b c hab hbc => by
      rw [decide_eq_true_eq] at hab hbc ⊢
      exact hbc.trans hab)
    (fun a b => by simpa using le_total (at_ b) (at_ a)) l
  simpa only [decide_eq_true_eq] using h

/-- **Sorting the list finds its newest.** -/
theorem newest_isNewest (at_ : α → γ) (k : Nat) (l : List α) :
    IsNewest at_ k l (newest at_ k l) := by
  have hperm := List.mergeSort_perm l fun a b => decide (at_ b ≤ at_ a)
  have hsorted := sorted_mergeSort_key at_ l
  constructor
  · exact (List.take_sublist _ _).subperm.trans hperm.subperm
  · unfold newest
    rw [List.length_take, hperm.length_eq]
  · exact hsorted.sublist (List.take_sublist _ _)
  · intro b hb hnot a ha
    have hdrop : b ∈ (l.mergeSort fun a b => decide (at_ b ≤ at_ a)).drop k := by
      have hmem := hperm.mem_iff.mpr hb
      rw [← List.take_append_drop k (l.mergeSort fun a b => decide (at_ b ≤ at_ a))] at hmem
      exact (List.mem_append.mp hmem).resolve_left hnot
    rw [← List.take_append_drop k (l.mergeSort fun a b => decide (at_ b ≤ at_ a)),
      List.pairwise_append] at hsorted
    exact hsorted.2.2 a ha b hdrop

theorem IsNewest.mem (h : IsNewest at_ k all l) {a : α} (ha : a ∈ l) : a ∈ all :=
  h.once.subset ha

/-- When one is left out, there are `k`. -/
theorem IsNewest.full (h : IsNewest at_ k all l) {b : α} (hb : b ∈ all) (hnot : b ∉ l) :
    l.length = k := by
  rcases Nat.lt_or_ge all.length k with hlt | hge
  · have hlength : all.length ≤ l.length := by
      rw [h.length]
      omega
    exact absurd ((h.once.perm_of_length_le hlength).mem_iff.mpr hb) hnot
  · rw [h.length]
    omega

/-- If `k` elements of a sorted list are not older than `t`, its first `k` are not. -/
theorem take_of_countP {t : γ} (hsorted : l.Pairwise fun a b => at_ b ≤ at_ a)
    (hk : k ≤ l.countP fun a => t ≤ at_ a) : ∀ a ∈ l.take k, t ≤ at_ a := by
  induction l generalizing k with
  | nil => simp
  | cons b l ih =>
    obtain ⟨hb, hsorted⟩ := List.pairwise_cons.mp hsorted
    cases k with
    | zero => simp
    | succ k =>
      rw [List.countP_cons] at hk
      by_cases ht : t ≤ at_ b
      · intro a ha
        rw [List.take_succ_cons, List.mem_cons] at ha
        rcases ha with rfl | ha
        · exact ht
        · refine ih hsorted ?_ a ha
          simp only [ht, decide_true, if_true] at hk
          omega
      · -- nothing after an older element is newer than it
        have hnone : l.countP (fun a => t ≤ at_ a) = 0 := by
          rw [List.countP_eq_zero]
          intro a ha hta
          exact ht ((of_decide_eq_true hta).trans (hb a ha))
        simp [hnone, ht] at hk

/-- Distinct members of a list that satisfy `p` are counted. -/
theorem length_le_countP {p : α → Bool} {m : List α} (hm : m.Nodup) (hsub : ∀ a ∈ m, a ∈ l)
    (hp : ∀ a ∈ m, p a = true) : m.length ≤ l.countP p := by
  rw [List.countP_eq_length_filter]
  refine (List.subperm_of_subset hm fun a ha => ?_).length_le
  exact List.mem_filter.mpr ⟨hsub a ha, hp a ha⟩

/-- **A part finds the newest of the whole** when, for every element that it lacks, it has `k` that
are not older. -/
theorem isNewest_of_part {part : List α} (hall : all.Nodup) (hpart : part.Nodup)
    (hsub : ∀ a ∈ part, a ∈ all)
    (hmissing : ∀ b ∈ all, b ∉ part → k ≤ part.countP fun a => at_ b ≤ at_ a) :
    IsNewest at_ k all (newest at_ k part) := by
  have h := newest_isNewest at_ k part
  have hsubperm : part.Subperm all := List.subperm_of_subset hpart hsub
  constructor
  · exact h.once.trans hsubperm
  · rw [h.length]
    by_cases hlacks : ∃ b ∈ all, b ∉ part
    · obtain ⟨b, hb, hnot⟩ := hlacks
      have hk := (hmissing b hb hnot).trans List.countP_le_length
      have hle := hsubperm.length_le
      omega
    · have hback : all.Subperm part := List.subperm_of_subset hall fun b hb => by
        by_contra hnot
        exact hlacks ⟨b, hb, hnot⟩
      rw [Nat.le_antisymm hsubperm.length_le hback.length_le]
  · exact h.sorted
  · intro b hb hnot
    by_cases hmem : b ∈ part
    · exact h.rest b hmem hnot
    · refine take_of_countP (sorted_mergeSort_key at_ part) ?_
      rw [(List.mergeSort_perm part _).countP_eq]
      exact hmissing b hb hmem

/-- **With distinct keys there is one answer.** -/
theorem IsNewest.unique {l' : List α} (hkeys : (all.map at_).Nodup) (h : IsNewest at_ k all l)
    (h' : IsNewest at_ k all l') : l = l' := by
  have hinj := List.inj_on_of_nodup_map hkeys
  have hnodup : ∀ {m : List α}, m.Subperm all → m.Nodup := fun hm => by
    obtain ⟨m', hperm, hsub⟩ := hm
    exact hperm.nodup_iff.mp ((List.Nodup.of_map at_ hkeys).sublist hsub)
  -- whoever is in one and not in the other would be as new as one that is left out of it
  have hsub : ∀ {m m' : List α}, IsNewest at_ k all m → IsNewest at_ k all m' →
      ∀ b ∈ m, b ∈ m' := by
    intro m m' hm hm' b hb
    by_contra hnot
    have hlength : m'.length = k := hm'.full (hm.mem hb) hnot
    have hout : ∃ a ∈ m', a ∉ m := by
      by_contra hnone
      have hall : ∀ a ∈ m', a ∈ m := fun a ha => by
        by_contra hna
        exact hnone ⟨a, ha, hna⟩
      have hle : m.length ≤ m'.length := by
        rw [hlength, hm.length]
        omega
      have hperm := (List.subperm_of_subset (hnodup hm'.once) hall).perm_of_length_le hle
      exact hnot (hperm.mem_iff.mpr hb)
    obtain ⟨a, ha, hna⟩ := hout
    have hab := hm.rest a (hm'.mem ha) hna b hb
    have hba := hm'.rest b (hm.mem hb) hnot a ha
    have heq := hinj (hm'.mem ha) (hm.mem hb) (le_antisymm hab hba)
    exact hnot (heq ▸ ha)
  have hperm : l.Perm l' :=
    (List.perm_ext_iff_of_nodup (hnodup h.once) (hnodup h'.once)).mpr fun b =>
      ⟨hsub h h' b, hsub h' h b⟩
  refine hperm.eq_of_pairwise (fun a b ha hb hab hba => ?_) h.sorted h'.sorted
  exact hinj (h.mem ha) (h'.mem hb) (le_antisymm hba hab)

end Newest
