import Mathlib.Data.List.Nodup
import Mathlib.Data.List.Perm.Basic
import Mathlib.Logic.Function.Basic

/-!
# Lists of distinct values and their chunks

- `nodup_eraseDups`: the distinct values of a list, in the order in which they first occur.
- `chunks`: a list in consecutive parts of a given size; together they are the list.
- `flatMap_update_perm`, `flatMap_filter_ne_perm`: a collection of lists, one of which gains
  elements or is taken out.
-/

universe u

variable {α : Type u}

theorem nodup_eraseDups [BEq α] [LawfulBEq α] (l : List α) : l.eraseDups.Nodup := by
  induction h : l.length using Nat.strongRecOn generalizing l with
  | _ n ih =>
    cases l with
    | nil => exact List.nodup_nil
    | cons a l =>
      rw [List.eraseDups_cons, List.nodup_cons]
      subst h
      have hlength := List.length_filter_le (fun b => !b == a) l
      refine ⟨fun hmem => ?_, ih _ (by rw [List.length_cons]; omega) _ rfl⟩
      rw [List.mem_eraseDups, List.mem_filter] at hmem
      simp at hmem

/-- The list from its front, `size` elements at a time; the last part may be shorter. -/
def chunks (size : Nat) (l : List α) : List (List α) :=
  if _h : l = [] ∨ size = 0 then [] else l.take size :: chunks size (l.drop size)
termination_by l.length
decreasing_by
  simp only [not_or] at _h
  have hpos := List.length_pos_iff.mpr _h.1
  rw [List.length_drop]
  omega

theorem flatten_chunks {size : Nat} (hsize : 0 < size) (l : List α) :
    (chunks size l).flatten = l := by
  fun_induction chunks size l with
  | case1 l h =>
    obtain rfl | rfl := h
    · rfl
    · exact absurd hsize (Nat.lt_irrefl 0)
  | case2 l h ih => rw [List.flatten_cons, ih, List.take_append_drop]

theorem length_le_of_mem_chunks {size : Nat} {l c : List α} (hc : c ∈ chunks size l) :
    c.length ≤ size := by
  fun_induction chunks size l with
  | case1 l h => cases hc
  | case2 l h ih =>
    rcases List.mem_cons.mp hc with rfl | hc
    · exact List.length_take_le size l
    · exact ih hc

/-- A sorted list is its front that satisfies a downward closed predicate, and the rest. -/
theorem filter_append_filter_of_pairwise {r : α → α → Prop} {p : α → Bool} {l : List α}
    (hp : ∀ a b, r a b → p b = true → p a = true) (hl : l.Pairwise r) :
    l.filter p ++ l.filter (fun a => !p a) = l := by
  induction l with
  | nil => rfl
  | cons a l ih =>
    obtain ⟨ha, hl⟩ := List.pairwise_cons.mp hl
    by_cases hpa : p a = true
    · rw [List.filter_cons_of_pos hpa, List.filter_cons_of_neg (by simp [hpa]), List.cons_append,
        ih hl]
    · have hrest : ∀ b ∈ l, ¬p b = true := fun b hb hpb => hpa (hp a b (ha b hb) hpb)
      rw [List.filter_cons_of_neg hpa, List.filter_eq_nil_iff.mpr hrest, List.nil_append,
        List.filter_eq_self.mpr fun b hb => ?_]
      rcases List.mem_cons.mp hb with rfl | hb
      · simpa using hpa
      · simpa using hrest b hb

section Collections

variable {κ : Type u} [DecidableEq κ] {ids : List κ} {k : κ}

theorem flatMap_update_of_not_mem (hk : k ∉ ids) (f : κ → List α) (l : List α) :
    ids.flatMap (Function.update f k l) = ids.flatMap f := by
  refine List.flatMap_congr fun a ha => ?_
  rw [Function.update_of_ne]
  rintro rfl
  exact hk ha

/-- One list gains elements. -/
theorem flatMap_update_perm (hids : ids.Nodup) (hk : k ∈ ids) (f : κ → List α) (l : List α) :
    (ids.flatMap (Function.update f k (f k ++ l))).Perm (ids.flatMap f ++ l) := by
  induction ids with
  | nil => cases hk
  | cons a ids ih =>
    obtain ⟨ha, hids⟩ := List.nodup_cons.mp hids
    rw [List.flatMap_cons, List.flatMap_cons]
    by_cases hak : a = k
    · subst hak
      rw [Function.update_self, flatMap_update_of_not_mem ha, List.append_assoc, List.append_assoc]
      exact List.perm_append_comm.append_left _
    · have hk := (List.mem_cons.mp hk).resolve_left (Ne.symm hak)
      rw [Function.update_of_ne hak, List.append_assoc]
      exact (ih hids hk).append_left _

/-- One list is taken out. -/
theorem flatMap_filter_ne_perm (hids : ids.Nodup) (hk : k ∈ ids) (f : κ → List α) :
    (ids.flatMap f).Perm ((ids.filter fun a => a ≠ k).flatMap f ++ f k) := by
  induction ids with
  | nil => cases hk
  | cons a ids ih =>
    obtain ⟨ha, hids⟩ := List.nodup_cons.mp hids
    by_cases hak : a = k
    · subst hak
      have hself : ids.filter (fun b => b ≠ a) = ids := by
        refine List.filter_eq_self.mpr fun b hb => decide_eq_true ?_
        rintro rfl
        exact ha hb
      rw [List.filter_cons_of_neg (by simp), hself, List.flatMap_cons]
      exact List.perm_append_comm
    · have hk := (List.mem_cons.mp hk).resolve_left (Ne.symm hak)
      rw [List.filter_cons_of_pos (by simpa using hak), List.flatMap_cons, List.flatMap_cons,
        List.append_assoc]
      exact (ih hids hk).append_left _

/-- The parts of a list that have each of some keys. -/
theorem flatMap_filter_key_perm (key : α → κ) (l : List α) (hids : ids.Nodup) :
    (ids.flatMap fun k => l.filter fun a => key a = k).Perm (l.filter fun a => key a ∈ ids) := by
  induction ids with
  | nil => simp
  | cons k ids ih =>
    obtain ⟨hk, hids⟩ := List.nodup_cons.mp hids
    have hsplit := List.filter_append_perm (fun a => decide (key a = k))
      (l.filter fun a => key a ∈ k :: ids)
    rw [List.filter_filter, List.filter_filter] at hsplit
    have hleft : (l.filter fun a => decide (key a = k) && decide (key a ∈ k :: ids)) =
        l.filter fun a => key a = k := by
      refine List.filter_congr fun a _ => ?_
      by_cases ha : key a = k <;> simp [ha]
    have hright : (l.filter fun a => !decide (key a = k) && decide (key a ∈ k :: ids)) =
        l.filter fun a => key a ∈ ids := by
      refine List.filter_congr fun a _ => ?_
      by_cases ha : key a = k
      · simp [ha, hk]
      · simp [ha]
    rw [hleft, hright] at hsplit
    rw [List.flatMap_cons]
    exact ((ih hids).append_left _).trans hsplit

/-! ## An element that is set -/

section Set

variable {ρ κ : Type u} {l : List ρ} {i : Nat} {a b : ρ}

/-- An element that is set to one that passes alike. -/
theorem filter_set_map {p : ρ → Bool} {f : ρ → κ} (h : l[i]? = some a) (hp : p b = p a)
    (hf : f b = f a) : ((l.set i b).filter p).map f = (l.filter p).map f := by
  induction l generalizing i with
  | nil => rfl
  | cons x l ih =>
    cases i with
    | zero =>
      obtain rfl := Option.some.inj h
      rw [List.set_cons_zero, List.filter_cons, List.filter_cons, hp]
      split
      · rw [List.map_cons, List.map_cons, hf]
      · rfl
    | succ i =>
      rw [List.set_cons_succ, List.filter_cons, List.filter_cons]
      split
      · rw [List.map_cons, List.map_cons, ih h]
      · exact ih h

/-- An element that is set to one that does not pass. -/
theorem filter_set_perm {p : ρ → Bool} (h : l[i]? = some a) (ha : p a = true) (hb : p b = false) :
    (l.filter p).Perm (a :: (l.set i b).filter p) := by
  induction l generalizing i with
  | nil => cases h
  | cons x l ih =>
    cases i with
    | zero =>
      obtain rfl := Option.some.inj h
      rw [List.set_cons_zero, List.filter_cons_of_pos ha, List.filter_cons_of_neg (by simp [hb])]
    | succ i =>
      rw [List.set_cons_succ, List.filter_cons, List.filter_cons]
      split
      · exact ((ih h).cons x).trans (List.Perm.swap ..)
      · exact ih h

end Set

end Collections
