import Bookswap.Lib.Table

/-!
# Maps that remember the order of their keys

A key that is set again keeps its place; a new key goes to the end. The entries are a table by
key, so there is one value for each.
-/

namespace Store

universe u v

variable {κ : Type u} {α : Type v} [DecidableEq κ]

/-- A map and the order in which its keys came. -/
abbrev OrderedMap (κ : Type u) (α : Type v) := Table (Prod.fst : κ × α → κ)

namespace OrderedMap

def get (m : OrderedMap κ α) (k : κ) : Option α := (m.find? k).map Prod.snd

def set (m : OrderedMap κ α) (k : κ) (v : α) : OrderedMap κ α :=
  match m.insert (k, v) with
  | some m' => m'
  | none => m.modify k ⟨fun e => (e.1, v), fun _ => rfl⟩

def delete (m : OrderedMap κ α) (k : κ) : OrderedMap κ α := m.filter fun e => e.1 ≠ k

variable {m : OrderedMap κ α} {k : κ} {v : α}

theorem get_eq_some_iff : m.get k = some v ↔ (k, v) ∈ m := by
  unfold get
  rw [Option.map_eq_some_iff]
  constructor
  · rintro ⟨e, he, rfl⟩
    have hkey := Table.key_of_find? he
    subst hkey
    exact Table.mem_of_find? he
  · exact fun h => ⟨(k, v), Table.find?_of_mem h, rfl⟩

@[simp] theorem get_empty : get (Table.empty : OrderedMap κ α) k = none := rfl

theorem get_set (m : OrderedMap κ α) (k : κ) (v : α) (k' : κ) :
    (m.set k v).get k' = if k' = k then some v else m.get k' := by
  unfold get set
  split
  · next m' hins =>
    rw [Table.find?_insert hins]
    by_cases hk : k' = k
    · rw [if_pos hk, if_pos hk]
      rfl
    · rw [if_neg hk, if_neg hk]
  · next hnone =>
    rw [Table.find?_modify]
    by_cases hk : k' = k
    · rw [if_pos hk, if_pos hk]
      -- no row was inserted, so the key has one
      cases hfind : m.find? k with
      | none =>
        have hfresh := Table.find?_eq_none_iff.mp hfind
        unfold Table.insert at hnone
        split at hnone
        · next hmem =>
          obtain ⟨e, he, hkey⟩ := List.mem_map.mp hmem
          exact absurd hkey (hfresh e he)
        · cases hnone
      | some e => rfl
    · rw [if_neg hk, if_neg hk]

theorem get_filter (m : OrderedMap κ α) (p : κ × α → Bool) (k : κ) :
    get (m.filter p) k = (m.get k).filter fun v => p (k, v) := by
  unfold get
  rw [Table.find?_filter]
  cases hfind : m.find? k with
  | none => rfl
  | some e =>
    have hkey := Table.key_of_find? hfind
    subst hkey
    cases hp : p e with
    | true => simp [Option.filter, hp]
    | false => simp [Option.filter, hp]

theorem get_delete (m : OrderedMap κ α) (k k' : κ) :
    (m.delete k).get k' = if k' = k then none else m.get k' := by
  unfold delete
  rw [get_filter]
  by_cases hk : k' = k
  · subst hk
    rw [if_pos rfl]
    cases m.get k' with
    | none => rfl
    | some v => simp [Option.filter]
  · rw [if_neg hk]
    cases m.get k' with
    | none => rfl
    | some v => simp [Option.filter, hk]

/-- A key that is not there yet goes to the end. -/
theorem rows_set_of_none {m : OrderedMap κ α} {k : κ} (v : α) (h : m.get k = none) :
    (m.set k v).rows = m.rows ++ [(k, v)] := by
  unfold set
  split
  · next m' hins => exact Table.rows_insert hins
  · next hnone =>
    -- only a row of the key stands against the insertion
    unfold Table.insert at hnone
    split at hnone
    · next hmem =>
      obtain ⟨e, he, hkey⟩ := List.mem_map.mp hmem
      have hget : m.get e.1 = some e.2 := get_eq_some_iff.mpr he
      rw [hkey] at hget
      rw [h] at hget
      cases hget
    · cases hnone

end OrderedMap

end Store
