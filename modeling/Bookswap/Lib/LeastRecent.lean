import Bookswap.Lib.OrderedMap

/-!
# Maps in the order of last use

A map whose keys go to the end when they are used has them in the order of their last use. So
whoever deletes from its front deletes what was not used for the longest time, also when only some
of the keys are up for deletion.

- `lastUse`: the number of the last use of a key.
- `OrderedMap.touch`, `OrderedMap.evict`: a key is used; the first keys of a kind are deleted.
- `OrderedMap.InOrder`: the invariant; `InOrder.touch`, `InOrder.sublist`, `InOrder.evicted`.
-/

namespace Store

universe u v

variable {κ : Type u} {α : Type v}

section Uses

variable [DecidableEq κ]

/-- The number of the last use of the key; the newest use comes first in the list. -/
def lastUse (k : κ) : List κ → Nat
  | [] => 0
  | k' :: uses => if k' = k then uses.length + 1 else lastUse k uses

@[simp] theorem lastUse_cons_self (k : κ) (uses : List κ) :
    lastUse k (k :: uses) = uses.length + 1 := if_pos rfl

theorem lastUse_cons_of_ne {k k' : κ} (h : k' ≠ k) (uses : List κ) :
    lastUse k (k' :: uses) = lastUse k uses := if_neg h

theorem lastUse_le (k : κ) (uses : List κ) : lastUse k uses ≤ uses.length := by
  induction uses with
  | nil => exact Nat.le_refl 0
  | cons k' uses ih =>
    by_cases hk : k' = k
    · subst hk
      exact Nat.le_of_eq (lastUse_cons_self k' uses)
    · rw [lastUse_cons_of_ne hk, List.length_cons]
      omega

end Uses

/-! ## Deleting from the front -/

section Evict

variable {ε : Type v} (own : ε → Bool) (max : Nat)

/-- From the front on, elements of the kind are deleted while there are more than `max` of them;
`count` is how many there still are. -/
def evictFrom : Nat → List ε → List ε
  | _, [] => []
  | count, e :: rest =>
    if count ≤ max then e :: rest
    else if own e then evictFrom (count - 1) rest
    else e :: evictFrom count rest

theorem evictFrom_sublist (count : Nat) (l : List ε) : (evictFrom own max count l).Sublist l := by
  induction l generalizing count with
  | nil => exact .slnil
  | cons e rest ih =>
    unfold evictFrom
    split
    · exact .refl _
    · split
      · exact (ih _).cons e
      · exact (ih _).cons_cons e

/-- Of the kind the last `max` stay. -/
theorem filter_own_evictFrom (l : List ε) :
    (evictFrom own max (l.countP own) l).filter own =
      (l.filter own).drop (l.countP own - max) := by
  induction l with
  | nil => rw [evictFrom, List.filter_nil, List.drop_nil]
  | cons e rest ih =>
    unfold evictFrom
    split
    · next hle => rw [Nat.sub_eq_zero_of_le hle, List.drop_zero]
    · next hmore =>
      split
      · next hown =>
        rw [List.countP_cons_of_pos hown] at hmore ⊢
        have hsucc : rest.countP own + 1 - max = (rest.countP own - max) + 1 := by omega
        rw [Nat.add_sub_cancel, ih, List.filter_cons_of_pos hown, hsucc, List.drop_succ_cons]
      · next hother =>
        rw [List.countP_cons_of_neg hother, List.filter_cons_of_neg hother,
          List.filter_cons_of_neg hother]
        exact ih

/-- Whatever is not of the kind stays. -/
theorem filter_others_evictFrom (count : Nat) (l : List ε) :
    (evictFrom own max count l).filter (fun e => !own e) = l.filter fun e => !own e := by
  induction l generalizing count with
  | nil => rw [evictFrom]
  | cons e rest ih =>
    unfold evictFrom
    split
    · rfl
    · split
      · next hown =>
        have hnot : ¬(!own e) = true := by rw [hown]; exact Bool.false_ne_true
        rw [List.filter_cons_of_neg (p := fun e => !own e) hnot]
        exact ih _
      · next hother =>
        have hnot : (!own e) = true := by rw [Bool.eq_false_iff.mpr hother]; rfl
        rw [List.filter_cons_of_pos (p := fun e => !own e) hnot,
          List.filter_cons_of_pos (p := fun e => !own e) hnot, ih]

end Evict

namespace OrderedMap

/-- The first keys of the kind are deleted, until there are at most `max`. -/
def evict (m : OrderedMap κ α) (own : κ × α → Bool) (max : Nat) : OrderedMap κ α where
  rows := evictFrom own max (m.rows.countP own) m.rows
  nodup := ((evictFrom_sublist own max _ m.rows).map Prod.fst).nodup m.nodup

/-- How many keys are of the kind. -/
def count (m : OrderedMap κ α) (own : κ × α → Bool) : Nat := m.rows.countP own

variable {m m' : OrderedMap κ α} {k : κ} {v : α} {own : κ × α → Bool} {max : Nat}

theorem evict_sublist : (m.evict own max).rows.Sublist m.rows := evictFrom_sublist own max _ _

/-- At most `max` of the kind stay, and not fewer if there were as many. -/
theorem count_evict : (m.evict own max).count own = min (m.count own) max := by
  have hown := congrArg List.length (filter_own_evictFrom own max m.rows)
  rw [← List.countP_eq_length_filter, List.length_drop, ← List.countP_eq_length_filter] at hown
  show (evictFrom own max _ m.rows).countP _ = _
  rw [hown]
  unfold count
  omega

/-- The other keys stay, in their order. -/
theorem filter_others_evict (m : OrderedMap κ α) (own : κ × α → Bool) (max : Nat) :
    (m.evict own max).rows.filter (fun e => !own e) = m.rows.filter fun e => !own e :=
  filter_others_evictFrom own max _ _

theorem mem_evict_of_other {e : κ × α} (he : e ∈ m) (hother : own e = false) :
    e ∈ m.evict own max := by
  have hmem : e ∈ m.rows.filter fun e => !own e := by
    refine List.mem_filter.mpr ⟨he, ?_⟩
    rw [hother]
    rfl
  rw [← filter_others_evict m own max] at hmem
  exact (List.mem_filter.mp hmem).1

/-! ## The order of last use -/

variable [DecidableEq κ] {uses : List κ}

/-- The key goes to the end, with a new value. -/
def touch (m : OrderedMap κ α) (k : κ) (v : α) : OrderedMap κ α := (m.delete k).set k v

theorem get_touch (k' : κ) : (m.touch k v).get k' = if k' = k then some v else m.get k' := by
  unfold touch
  rw [get_set, get_delete]
  split <;> rfl

theorem rows_touch : (m.touch k v).rows = (m.rows.filter fun e => e.1 ≠ k) ++ [(k, v)] := by
  have hgone : (m.delete k).get k = none := by rw [get_delete, if_pos rfl]
  exact rows_set_of_none v hgone

/-- A key of another kind goes to the end: the keys of the kind stay as they are. -/
theorem filter_touch_of_other (m : OrderedMap κ α) (v : α) (hother : ∀ e : κ × α, own e → e.1 ≠ k) :
    (m.touch k v).rows.filter own = m.rows.filter own := by
  have hnew : own (k, v) = false :=
    Bool.eq_false_iff.mpr fun hown => hother (k, v) hown rfl
  have hlast : [(k, v)].filter own = [] := by rw [List.filter_singleton, hnew]; rfl
  rw [rows_touch, List.filter_append, List.filter_filter, hlast, List.append_nil]
  refine List.filter_congr fun e _ => ?_
  by_cases hown : own e = true
  · rw [hown, Bool.true_and]
    exact decide_eq_true (hother e hown)
  · rw [Bool.eq_false_iff.mpr hown, Bool.false_and]

theorem count_delete_le (m : OrderedMap κ α) (k : κ) (own : κ × α → Bool) :
    (m.delete k).count own ≤ m.count own := List.Sublist.countP_le List.filter_sublist

/-- A key that is there goes to the end: as many keys of the kind as before. -/
theorem count_touch_of_get (v : α) {v₀ : α} (hkind : own (k, v) = own (k, v₀))
    (h : m.get k = some v₀) : (m.touch k v).count own = m.count own := by
  have hfind : m.find? k = some (k, v₀) := Table.find?_of_mem (get_eq_some_iff.mp h)
  have hrow := Table.filter_rows_key m k
  rw [hfind, Option.toList_some] at hrow
  have hsplit := List.countP_eq_countP_filter_add m.rows own fun e => decide (e.1 = k)
  rw [hrow] at hsplit
  unfold count
  rw [rows_touch, List.countP_append, hsplit, List.countP_singleton, List.countP_singleton, hkind,
    Nat.add_comm]
  congr 2
  refine List.filter_congr fun e _ => ?_
  exact decide_not

/-- The keys are in the order of their last use. -/
def InOrder (uses : List κ) (m : OrderedMap κ α) : Prop :=
  m.rows.Pairwise fun a b => lastUse a.1 uses < lastUse b.1 uses

theorem inOrder_empty (uses : List κ) : InOrder uses (Table.empty : OrderedMap κ α) := .nil

/-- Deleting keeps the order. -/
theorem InOrder.sublist (h : InOrder uses m) (hsub : m'.rows.Sublist m.rows) :
    InOrder uses m' := List.Pairwise.sublist hsub h

theorem InOrder.delete (h : InOrder uses m) (k : κ) : InOrder uses (m.delete k) :=
  h.sublist List.filter_sublist

/-- **Using a key keeps the order.** -/
theorem InOrder.touch (h : InOrder uses m) (k : κ) (v : α) :
    InOrder (k :: uses) (m.touch k v) := by
  unfold InOrder
  rw [rows_touch]
  have hne : ∀ e ∈ m.rows.filter (fun e => e.1 ≠ k), lastUse e.1 (k :: uses) = lastUse e.1 uses := by
    intro e he
    have hk : e.1 ≠ k := of_decide_eq_true (List.mem_filter.mp he).2
    exact lastUse_cons_of_ne (fun h => hk h.symm) uses
  refine List.pairwise_append.mpr ⟨?_, List.pairwise_singleton _ _, fun a ha b hb => ?_⟩
  · refine (List.Pairwise.sublist List.filter_sublist h).imp_of_mem fun ha hb hlt => ?_
    rwa [hne _ ha, hne _ hb]
  · have hlast := lastUse_le a.1 uses
    rw [List.mem_singleton.mp hb, hne a ha]
    show lastUse a.1 uses < lastUse k (k :: uses)
    rw [lastUse_cons_self]
    omega

/-- **What is evicted is of the kind and was used before all of the kind that stays.** -/
theorem InOrder.evicted (h : InOrder uses m) {e : κ × α} (he : e ∈ m)
    (hgone : e ∉ m.evict own max) :
    own e = true ∧ max < m.count own ∧
      ∀ e' ∈ m.evict own max, own e' = true → lastUse e.1 uses < lastUse e'.1 uses := by
  have hown : own e = true := by
    by_contra hother
    exact hgone (mem_evict_of_other he (Bool.eq_false_iff.mpr hother))
  have hkept := filter_own_evictFrom own max m.rows
  have hmem : e ∈ m.rows.filter own := List.mem_filter.mpr ⟨he, hown⟩
  -- the kind is split into what goes and what stays
  have hsplit := List.take_append_drop (m.rows.countP own - max) (m.rows.filter own)
  have htake : e ∈ (m.rows.filter own).take (m.rows.countP own - max) := by
    rw [← hsplit] at hmem
    refine (List.mem_append.mp hmem).resolve_right fun hdrop => hgone ?_
    rw [← hkept] at hdrop
    exact (List.mem_filter.mp hdrop).1
  refine ⟨hown, ?_, fun e' he' hown' => ?_⟩
  · show max < m.rows.countP _
    by_contra hle
    rw [Nat.sub_eq_zero_of_le (Nat.not_lt.mp hle), List.take_zero] at htake
    cases htake
  · have hdrop : e' ∈ (m.rows.filter own).drop (m.rows.countP own - max) := by
      rw [← hkept]
      exact List.mem_filter.mpr ⟨he', hown'⟩
    have hpair : (m.rows.filter own).Pairwise fun a b =>
        lastUse a.1 uses < lastUse b.1 uses := List.Pairwise.sublist List.filter_sublist h
    rw [← hsplit] at hpair
    exact (List.pairwise_append.mp hpair).2.2 e htake e' hdrop

end OrderedMap

end Store
