import Mathlib.Data.List.Perm.Basic
import Mathlib.Data.List.Nodup

/-!
# Grouping by a key

The groups of a list by a key, in the order in which the keys first occur; the members of a group
keep their order.

- `addTo`, `groups`: the groups, one element after the other.
- `groups_spec`: distinct keys, and a group is what the list has of its key.
- `groups_perm`: together the groups are the list.
-/

namespace Grouping

universe u v

variable {α : Type u} {κ : Type v} [DecidableEq κ] (key : α → κ)

/-- One more element: at the end of its group, or a group of its own. -/
def addTo (a : α) : List (κ × List α) → List (κ × List α)
  | [] => [(key a, [a])]
  | g :: gs => if g.1 = key a then (g.1, g.2 ++ [a]) :: gs else g :: addTo a gs

/-- The groups of a list, after the groups so far. -/
def groupsFrom (gs : List (κ × List α)) (l : List α) : List (κ × List α) :=
  l.foldl (fun gs a => addTo key a gs) gs

def groups (l : List α) : List (κ × List α) := groupsFrom key [] l

/-- The groups are those of the elements `l`. -/
structure Groups (l : List α) (gs : List (κ × List α)) : Prop where
  keys : (gs.map Prod.fst).Nodup
  members : ∀ g ∈ gs, g.2 = l.filter fun a => key a = g.1
  nonempty : ∀ g ∈ gs, g.2 ≠ []
  covers : ∀ a ∈ l, ∃ g ∈ gs, g.1 = key a

variable {key}

theorem mem_keys_addTo {a : α} {gs : List (κ × List α)} {k : κ} :
    k ∈ (addTo key a gs).map Prod.fst ↔ k = key a ∨ k ∈ gs.map Prod.fst := by
  induction gs with
  | nil => simp [addTo]
  | cons g gs ih =>
    rw [addTo]
    split
    · next h => simp [h]
    · rw [List.map_cons, List.mem_cons, ih, List.map_cons, List.mem_cons]
      exact or_left_comm

theorem keys_addTo {a : α} {gs : List (κ × List α)} (h : (gs.map Prod.fst).Nodup) :
    ((addTo key a gs).map Prod.fst).Nodup := by
  induction gs with
  | nil => simp [addTo]
  | cons g gs ih =>
    rw [List.map_cons, List.nodup_cons] at h
    rw [addTo]
    split
    · rw [List.map_cons, List.nodup_cons]
      exact h
    · next hne =>
      rw [List.map_cons, List.nodup_cons, mem_keys_addTo]
      exact ⟨fun hor => hor.elim hne h.1, ih h.2⟩

/-- The group of a key after one more element. -/
theorem mem_addTo {a : α} {gs : List (κ × List α)} {g : κ × List α}
    (hkeys : (gs.map Prod.fst).Nodup) (hg : g ∈ addTo key a gs) :
    (g.1 ≠ key a ∧ g ∈ gs) ∨ (∃ ms, (key a, ms) ∈ gs ∧ g = (key a, ms ++ [a])) ∨
      (key a ∉ gs.map Prod.fst ∧ g = (key a, [a])) := by
  induction gs with
  | nil =>
    rw [addTo, List.mem_singleton] at hg
    exact .inr (.inr ⟨by simp, hg⟩)
  | cons g₀ gs ih =>
    rw [List.map_cons, List.nodup_cons] at hkeys
    rw [addTo] at hg
    split at hg
    · next heq =>
      rcases List.mem_cons.mp hg with rfl | hg
      · refine .inr (.inl ⟨g₀.2, ?_, by rw [heq]⟩)
        rw [← heq]
        exact List.mem_cons_self
      · refine .inl ⟨fun hsame => hkeys.1 ?_, List.mem_cons_of_mem _ hg⟩
        rw [heq, ← hsame]
        exact List.mem_map_of_mem hg
    · next hne =>
      rcases List.mem_cons.mp hg with rfl | hg
      · exact .inl ⟨hne, List.mem_cons_self⟩
      · rcases ih hkeys.2 hg with ⟨hk, hmem⟩ | ⟨ms, hmem, rfl⟩ | ⟨hk, rfl⟩
        · exact .inl ⟨hk, List.mem_cons_of_mem _ hmem⟩
        · exact .inr (.inl ⟨ms, List.mem_cons_of_mem _ hmem, rfl⟩)
        · exact .inr (.inr ⟨by simpa using ⟨Ne.symm hne, by simpa using hk⟩, rfl⟩)

/-- One more element keeps the groups. -/
theorem Groups.add {l : List α} {gs : List (κ × List α)} (h : Groups key l gs) (a : α) :
    Groups key (l ++ [a]) (addTo key a gs) := by
  refine ⟨keys_addTo h.keys, fun g hg => ?_, fun g hg => ?_, fun b hb => ?_⟩
  · rcases mem_addTo h.keys hg with ⟨hk, hmem⟩ | ⟨ms, hmem, rfl⟩ | ⟨hk, rfl⟩
    · rw [h.members g hmem, List.filter_append]
      simp [Ne.symm hk]
    · rw [List.filter_append, ← h.members _ hmem]
      simp
    · have hnone : l.filter (fun b => key b = key a) = [] := by
        refine List.filter_eq_nil_iff.mpr fun b hb => ?_
        obtain ⟨g, hg, hgk⟩ := h.covers b hb
        rw [decide_eq_true_eq]
        intro hsame
        exact hk (hsame ▸ hgk ▸ List.mem_map_of_mem hg)
      rw [List.filter_append, hnone]
      simp
  · rcases mem_addTo h.keys hg with ⟨-, hmem⟩ | ⟨ms, -, rfl⟩ | ⟨-, rfl⟩
    · exact h.nonempty g hmem
    · simp
    · simp
  · have hkey : key b ∈ (addTo key a gs).map Prod.fst := by
      rw [mem_keys_addTo]
      rcases List.mem_append.mp hb with hb | hb
      · obtain ⟨g, hg, hgk⟩ := h.covers b hb
        exact .inr (hgk ▸ List.mem_map_of_mem hg)
      · exact .inl (congrArg key (List.mem_singleton.mp hb))
    obtain ⟨g, hg, hgk⟩ := List.mem_map.mp hkey
    exact ⟨g, hg, hgk⟩

theorem Groups.from {l₀ l : List α} {gs : List (κ × List α)} (h : Groups key l₀ gs) :
    Groups key (l₀ ++ l) (groupsFrom key gs l) := by
  induction l generalizing l₀ gs with
  | nil => simpa [groupsFrom] using h
  | cons a l ih =>
    have hadd := ih (h.add a)
    rw [List.append_assoc] at hadd
    exact hadd

/-- **Distinct keys, and a group is what the list has of its key.** -/
theorem groups_spec (key : α → κ) (l : List α) : Groups key l (groups key l) := by
  have hnil : Groups key ([] : List α) [] := ⟨by simp, by simp, by simp, by simp⟩
  exact hnil.from

/-! ## Rewritten elements -/

section Map

variable {β : Type*} (f : β → α)

theorem addTo_map (b : β) (gs : List (κ × List β)) :
    addTo key (f b) (gs.map fun g => (g.1, g.2.map f)) =
      (addTo (fun b => key (f b)) b gs).map fun g => (g.1, g.2.map f) := by
  induction gs with
  | nil => rfl
  | cons g gs ih =>
    rw [List.map_cons, addTo, addTo]
    dsimp only
    split
    · rw [List.map_cons, List.map_append]
      rfl
    · rw [List.map_cons, ih]

/-- The groups of rewritten elements are the rewritten groups. -/
theorem groups_map (l : List β) :
    groups key (l.map f) = (groups (fun b => key (f b)) l).map fun g => (g.1, g.2.map f) := by
  have hfrom : ∀ (l : List β) (gs : List (κ × List β)),
      groupsFrom key (gs.map fun g => (g.1, g.2.map f)) (l.map f) =
        (groupsFrom (fun b => key (f b)) gs l).map fun g => (g.1, g.2.map f) := by
    intro l
    induction l with
    | nil => exact fun gs => rfl
    | cons b l ih =>
      intro gs
      show groupsFrom key (addTo key (f b) _) (l.map f) = _
      rw [addTo_map, ih]
      rfl
  exact hfrom l []

end Map

/-- The groups of other keys have nothing of a key. -/
theorem count_groups [DecidableEq α] {l : List α} {gs : List (κ × List α)}
    (hkeys : (gs.map Prod.fst).Nodup) (hmembers : ∀ g ∈ gs, g.2 = l.filter fun a => key a = g.1)
    (a : α) : (gs.flatMap Prod.snd).count a =
      if key a ∈ gs.map Prod.fst then l.count a else 0 := by
  induction gs with
  | nil => simp
  | cons g gs ih =>
    rw [List.map_cons, List.nodup_cons] at hkeys
    rw [List.flatMap_cons, List.count_append,
      ih hkeys.2 fun g hg => hmembers g (List.mem_cons_of_mem _ hg),
      hmembers g List.mem_cons_self, List.map_cons]
    by_cases hk : key a = g.1
    · have hfresh : key a ∉ gs.map Prod.fst := hk ▸ hkeys.1
      rw [if_neg hfresh, if_pos (by simp [hk]), List.count_filter (by simp [hk]), Nat.add_zero]
    · have hnone : (l.filter fun a => key a = g.1).count a = 0 :=
        List.count_eq_zero.mpr fun hmem => hk (by simpa using (List.mem_filter.mp hmem).2)
      rw [hnone, Nat.zero_add]
      simp only [List.mem_cons, hk, false_or]

/-- **Together the groups are the list.** -/
theorem groups_perm (key : α → κ) (l : List α) : ((groups key l).flatMap Prod.snd).Perm l := by
  classical
  have hspec := groups_spec key l
  refine List.perm_iff_count.mpr fun a => ?_
  rw [count_groups hspec.keys hspec.members]
  split
  · rfl
  · next hkey =>
    refine (List.count_eq_zero.mpr fun ha => hkey ?_).symm
    obtain ⟨g, hg, hgk⟩ := hspec.covers a ha
    exact hgk ▸ List.mem_map_of_mem hg

/-- What is made of each group, together, is made of the list. -/
theorem flatMap_groups_perm {γ δ : Type*} {make : List α → Option γ} {f : γ → List δ} {g : α → δ}
    (hmake : ∀ k rows, rows ≠ [] → (∀ a ∈ rows, key a = k) →
      ∃ b, make rows = some b ∧ (f b).Perm (rows.map g)) (l : List α) :
    (((groups key l).filterMap fun x => make x.2).flatMap f).Perm (l.map g) := by
  have hspec := groups_spec key l
  have hall : ∀ gs : List (κ × List α), (∀ x ∈ gs, x.2 ≠ [] ∧ ∀ a ∈ x.2, key a = x.1) →
      ((gs.filterMap fun x => make x.2).flatMap f).Perm ((gs.flatMap Prod.snd).map g) := by
    intro gs
    induction gs with
    | nil => exact fun _ => .refl _
    | cons x gs ih =>
      intro hgs
      obtain ⟨hne, hkey⟩ := hgs x List.mem_cons_self
      obtain ⟨b, hb, hperm⟩ := hmake x.1 x.2 hne hkey
      simp only [List.filterMap_cons, hb, List.flatMap_cons, List.map_append]
      exact hperm.append (ih fun y hy => hgs y (List.mem_cons_of_mem x hy))
  refine (hall _ fun x hx => ⟨hspec.nonempty x hx, fun a ha => ?_⟩).trans
    ((groups_perm key l).map g)
  rw [hspec.members x hx] at ha
  exact of_decide_eq_true (List.mem_filter.mp ha).2

/-- What is made of the groups keeps their keys apart. -/
theorem nodup_groups {γ : Type*} {make : List α → Option γ} {k : γ → κ}
    (hmake : ∀ rows b, make rows = some b → ∃ a ∈ rows, k b = key a) (l : List α) :
    (((groups key l).filterMap fun x => make x.2).map k).Nodup := by
  have hspec := groups_spec key l
  have hall : ∀ gs : List (κ × List α), (∀ x ∈ gs, ∀ a ∈ x.2, key a = x.1) →
      (gs.map Prod.fst).Nodup → ((gs.filterMap fun x => make x.2).map k).Nodup ∧
        ∀ b ∈ (gs.filterMap fun x => make x.2), k b ∈ gs.map Prod.fst := by
    intro gs
    induction gs with
    | nil => exact fun _ _ => ⟨List.nodup_nil, fun _ hb => absurd hb List.not_mem_nil⟩
    | cons x gs ih =>
      intro hkeys hnodup
      rw [List.map_cons, List.nodup_cons] at hnodup
      obtain ⟨hrest, hmem⟩ := ih (fun y hy => hkeys y (List.mem_cons_of_mem x hy)) hnodup.2
      cases hx : make x.2 with
      | none =>
        simp only [List.filterMap_cons, hx]
        exact ⟨hrest, fun b hb => List.mem_cons_of_mem _ (hmem b hb)⟩
      | some b =>
        obtain ⟨a, ha, hk⟩ := hmake _ _ hx
        have hkey : k b = x.1 := hk.trans (hkeys x List.mem_cons_self a ha)
        simp only [List.filterMap_cons, hx, List.map_cons, List.nodup_cons, List.forall_mem_cons]
        refine ⟨⟨fun hin => ?_, hrest⟩, hkey ▸ List.mem_cons_self,
          fun b hb => List.mem_cons_of_mem _ (hmem b hb)⟩
        obtain ⟨b', hb', heq⟩ := List.mem_map.mp hin
        exact hnodup.1 (hkey ▸ heq ▸ hmem b' hb')
  refine (hall _ (fun x hx a ha => ?_) hspec.keys).1
  rw [hspec.members x hx] at ha
  exact of_decide_eq_true (List.mem_filter.mp ha).2

end Grouping
