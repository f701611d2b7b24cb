import Mathlib.Data.List.Basic
import Mathlib.Data.List.Nodup
import Mathlib.Logic.Function.Basic

/-!
# Tables with a primary key

A table is a list of rows whose keys are pairwise distinct; the distinctness is a
field, so a table with two rows of one key cannot be built. Rows are read by key
(`find?`) or by scanning `rows`, and written by the four statements a relational
store offers:

- `insert a`: fails when the key of `a` is taken.
- `map f`: rewrite every row by an `Edit`, which keeps keys.
- `updateMany p f`: rewrite the rows that satisfy `p` and count them.
- `filter p`: delete the rows that do not satisfy `p`.

For each statement there is one membership lemma and one lookup lemma; nothing
else about the representation is used outside this file.
-/

namespace Store

universe u v

/-- Rows with pairwise distinct keys. -/
structure Table {κ : Type u} {α : Type v} (key : α → κ) where
  rows : List α
  nodup : (rows.map key).Nodup

namespace Table

variable {κ : Type u} {α : Type v} {key : α → κ}

instance : Membership α (Table key) := ⟨fun t a => a ∈ t.rows⟩

theorem mem_def {t : Table key} {a : α} : a ∈ t ↔ a ∈ t.rows := Iff.rfl

@[ext] theorem ext {s t : Table key} (h : s.rows = t.rows) : s = t := by
  cases s
  cases t
  cases h
  rfl

instance [DecidableEq α] : DecidableEq (Table key) := fun s t =>
  decidable_of_iff (s.rows = t.rows) ⟨ext, fun h => h ▸ rfl⟩

/-- The table without rows. -/
def empty : Table key := ⟨[], List.nodup_nil⟩

@[simp] theorem not_mem_empty {a : α} : a ∉ (empty : Table key) := by
  simp [mem_def, empty]

/-- Two rows of one key are one row. -/
theorem eq_of_key_eq {t : Table key} {a b : α} (ha : a ∈ t) (hb : b ∈ t)
    (h : key a = key b) : a = b :=
  List.inj_on_of_nodup_map t.nodup ha hb h

/-! ## Lookup -/

section Lookup

variable [DecidableEq κ]

/-- The row of a key. -/
def find? (t : Table key) (k : κ) : Option α := t.rows.find? fun a => key a = k

theorem find?_eq_some_iff {t : Table key} {k : κ} {a : α} :
    t.find? k = some a ↔ a ∈ t ∧ key a = k := by
  constructor
  · intro h
    exact ⟨List.mem_of_find?_eq_some h, by simpa using List.find?_some h⟩
  · rintro ⟨ha, hk⟩
    cases h : t.find? k with
    | none =>
      have := List.find?_eq_none.mp h a ha
      simp [hk] at this
    | some b =>
      have hb : b ∈ t := List.mem_of_find?_eq_some h
      have hbk : key b = k := by simpa using List.find?_some h
      rw [eq_of_key_eq hb ha (hbk.trans hk.symm)]

theorem find?_of_mem {t : Table key} {a : α} (h : a ∈ t) : t.find? (key a) = some a :=
  find?_eq_some_iff.mpr ⟨h, rfl⟩

theorem mem_of_find? {t : Table key} {k : κ} {a : α} (h : t.find? k = some a) : a ∈ t :=
  (find?_eq_some_iff.mp h).1

theorem key_of_find? {t : Table key} {k : κ} {a : α} (h : t.find? k = some a) : key a = k :=
  (find?_eq_some_iff.mp h).2

theorem find?_eq_none_iff {t : Table key} {k : κ} :
    t.find? k = none ↔ ∀ a ∈ t, key a ≠ k := by
  simp [find?, List.find?_eq_none, mem_def]

/-- The rows of one key are the row of that key, if there is one. -/
theorem filter_rows_key (t : Table key) (k : κ) :
    t.rows.filter (fun a => key a = k) = (t.find? k).toList := by
  have hsub : ∀ l : List α, (l.map key).Nodup →
      l.filter (fun a => key a = k) = (l.find? fun a => key a = k).toList := by
    intro l hl
    induction l with
    | nil => rfl
    | cons a l ih =>
      obtain ⟨hnot, hl⟩ := List.nodup_cons.mp hl
      by_cases ha : key a = k
      · have hrest : l.filter (fun b => key b = k) = [] := by
          refine List.filter_eq_nil_iff.mpr fun b hb hk => hnot ?_
          rw [ha, ← of_decide_eq_true hk]
          exact List.mem_map_of_mem hb
        simp only [List.filter_cons, List.find?_cons, ha, hrest, decide_true, if_true,
          Option.toList_some]
      · simp only [List.filter_cons, List.find?_cons, ha, decide_false, Bool.false_eq_true, if_false,
          ih hl]
  exact hsub t.rows t.nodup

@[simp] theorem find?_empty (k : κ) : (empty : Table key).find? k = none := rfl

end Lookup

/-! ## Insert -/

section Insert

variable [DecidableEq κ]

/-- Add a row; `none` when its key is taken. -/
def insert (t : Table key) (a : α) : Option (Table key) :=
  if h : key a ∈ t.rows.map key then none
  else some ⟨t.rows ++ [a], by
    rw [List.map_append, List.map_singleton]
    exact t.nodup.append (List.nodup_singleton _)
      (List.disjoint_singleton.mpr h)⟩

variable {t t' : Table key} {a b : α}

theorem insert_eq_some_iff :
    t.insert a = some t' ↔ (∀ b ∈ t, key b ≠ key a) ∧ t'.rows = t.rows ++ [a] := by
  unfold insert
  by_cases h : key a ∈ t.rows.map key
  · rw [dif_pos h]
    obtain ⟨b, hb, hk⟩ := List.mem_map.mp h
    simp only [reduceCtorEq, false_iff, not_and]
    exact fun hne => absurd hk (hne b hb)
  · rw [dif_neg h]
    have hne : ∀ b ∈ t, key b ≠ key a := fun b hb hk => h (List.mem_map.mpr ⟨b, hb, hk⟩)
    constructor
    · rintro ⟨⟩
      exact ⟨hne, rfl⟩
    · rintro ⟨-, hr⟩
      exact congrArg some (ext hr.symm)

theorem rows_insert (h : t.insert a = some t') : t'.rows = t.rows ++ [a] :=
  (insert_eq_some_iff.mp h).2

theorem fresh_of_insert (h : t.insert a = some t') : ∀ b ∈ t, key b ≠ key a :=
  (insert_eq_some_iff.mp h).1

theorem mem_insert (h : t.insert a = some t') : b ∈ t' ↔ b ∈ t ∨ b = a := by
  simp [mem_def, rows_insert h]

theorem find?_insert (h : t.insert a = some t') (k : κ) :
    t'.find? k = if k = key a then some a else t.find? k := by
  by_cases hk : k = key a
  · rw [if_pos hk, hk]
    exact find?_of_mem ((mem_insert h).mpr (Or.inr rfl))
  · rw [if_neg hk]
    simp only [find?, rows_insert h, List.find?_append, List.find?_singleton]
    rw [if_neg (by simpa using Ne.symm hk), Option.or_none]

theorem find?_fresh (h : t.insert a = some t') : t.find? (key a) = none :=
  find?_eq_none_iff.mpr (fresh_of_insert h)

/-- A row with a new key can be added. -/
theorem insert_of_fresh (h : t.find? (key a) = none) : ∃ t', t.insert a = some t' := by
  have hfresh : key a ∉ t.rows.map key := by
    intro hmem
    obtain ⟨b, hb, hk⟩ := List.mem_map.mp hmem
    exact find?_eq_none_iff.mp h b hb hk
  unfold insert
  exact ⟨_, dif_neg hfresh⟩

end Insert

/-! ## Update -/

/-- A rewriting of rows that keeps their keys. -/
structure Edit {κ : Type u} {α : Type v} (key : α → κ) where
  toFun : α → α
  keeps : ∀ a, key (toFun a) = key a

instance : CoeFun (Edit key) fun _ => α → α := ⟨Edit.toFun⟩

namespace Edit

@[simp] theorem mk_apply {f : α → α} {h : ∀ a, key (f a) = key a} (a : α) :
    (⟨f, h⟩ : Edit key) a = f a := rfl

/-- Rewrite only the rows that satisfy `p`. -/
def only (p : α → Bool) (f : Edit key) : Edit key where
  toFun a := if p a then f a else a
  keeps a := by
    by_cases h : p a = true
    · rw [if_pos h, f.keeps]
    · rw [if_neg h]

theorem only_apply (p : α → Bool) (f : Edit key) (a : α) :
    only p f a = if p a then f a else a := rfl

end Edit

section Update

variable {t : Table key} {a b : α} {f g : Edit key} {p q : α → Bool}

/-- Rewrite every row. -/
def map (t : Table key) (f : Edit key) : Table key :=
  ⟨t.rows.map f, by
    rw [List.map_map, show key ∘ f = key from funext f.keeps]
    exact t.nodup⟩

theorem rows_map : (t.map f).rows = t.rows.map f := rfl

theorem mem_map : b ∈ t.map f ↔ ∃ a ∈ t, f a = b := by
  simp [mem_def, map]

theorem find?_map [DecidableEq κ] (k : κ) : (t.map f).find? k = (t.find? k).map f := by
  have hkeys : (fun a => decide (key a = k)) ∘ f.toFun = fun a => decide (key a = k) := by
    funext a
    exact congrArg (fun k' => decide (k' = k)) (f.keeps a)
  show (t.rows.map f.toFun).find? _ = _
  rw [List.find?_map, hkeys]
  rfl

/-- A rewriting that changes no row of the table is none. -/
theorem map_eq_self (h : ∀ a ∈ t, f a = a) : t.map f = t := by
  ext1
  exact (List.map_congr_left h).trans (List.map_id _)

theorem map_congr (h : ∀ a ∈ t, f a = g a) : t.map f = t.map g := by
  ext1
  exact List.map_congr_left h

/-- Rewrite the rows that satisfy `p`. -/
def updateWhere (t : Table key) (p : α → Bool) (f : Edit key) : Table key :=
  t.map (.only p f)

theorem rows_updateWhere :
    (t.updateWhere p f).rows = t.rows.map fun a => if p a then f a else a := rfl

theorem mem_updateWhere : b ∈ t.updateWhere p f ↔ ∃ a ∈ t, (if p a then f a else a) = b :=
  mem_map

theorem find?_updateWhere [DecidableEq κ] (k : κ) :
    (t.updateWhere p f).find? k = (t.find? k).map fun a => if p a then f a else a :=
  find?_map k

theorem updateWhere_congr (h : ∀ a ∈ t, p a = q a) :
    t.updateWhere p f = t.updateWhere q f :=
  map_congr fun a ha => by rw [Edit.only_apply, Edit.only_apply, h a ha]

/-- Where no row satisfies the condition nothing changes. -/
theorem updateWhere_eq_self (h : ∀ a ∈ t, p a = false) : t.updateWhere p f = t :=
  map_eq_self fun a ha => by rw [Edit.only_apply, if_neg (Bool.eq_false_iff.mp (h a ha))]

/-- Reading back what an update wrote: a condition that holds exactly of the rewritten
rows finds exactly them. -/
theorem filter_rows_updateWhere (h : ∀ a ∈ t, q (if p a then f a else a) = p a) :
    (t.updateWhere p f).rows.filter q = (t.rows.filter p).map f := by
  rw [rows_updateWhere, List.filter_map]
  have hfilter : t.rows.filter (q ∘ fun a => if p a then f a else a) = t.rows.filter p :=
    List.filter_congr h
  rw [hfilter]
  refine List.map_congr_left fun a ha => ?_
  rw [if_pos (List.mem_filter.mp ha).2]

/-- A row the update does not touch may be added before it or after it. -/
theorem insert_updateWhere [DecidableEq κ] {t' : Table key} (h : t.insert a = some t')
    (hp : p a = false) : (t.updateWhere p f).insert a = some (t'.updateWhere p f) := by
  obtain ⟨hfresh, hrows⟩ := insert_eq_some_iff.mp h
  refine insert_eq_some_iff.mpr ⟨fun b hb => ?_, ?_⟩
  · obtain ⟨b₀, hb₀, rfl⟩ := mem_updateWhere.mp hb
    have hkey : key (if p b₀ then f b₀ else b₀) = key b₀ := (Edit.only p f).keeps b₀
    rw [hkey]
    exact hfresh b₀ hb₀
  · rw [rows_updateWhere, rows_updateWhere, hrows, List.map_append, List.map_singleton, hp]
    rfl

/-- Rewrite the rows that satisfy `p`, and count them. -/
def updateMany (t : Table key) (p : α → Bool) (f : Edit key) : Table key × Nat :=
  (t.updateWhere p f, t.rows.countP p)

end Update

section Modify

variable [DecidableEq κ] {t : Table key} {a b : α} {k : κ} {f g : Edit key} {p : α → Bool}

/-- Rewrite the row of one key. -/
def modify (t : Table key) (k : κ) (f : Edit key) : Table key :=
  t.updateWhere (fun a => key a = k) f

theorem mem_modify : b ∈ t.modify k f ↔ ∃ a ∈ t, (if key a = k then f a else a) = b := by
  simp [modify, mem_updateWhere]

theorem find?_modify (k' : κ) :
    (t.modify k f).find? k' = if k' = k then (t.find? k).map f else t.find? k' := by
  rw [modify, find?_updateWhere]
  cases h : t.find? k' with
  | none =>
    by_cases hk : k' = k
    · subst hk
      simp [h]
    · simp [hk]
  | some a =>
    have hka := key_of_find? h
    by_cases hk : k' = k
    · subst hk
      simp [h, hka]
    · simp [hk, hka]

/-- A conditional update addressed to one existing row rewrites that row, and one row. -/
theorem updateMany_of_find? (ha : t.find? k = some a) (hpa : p a)
    (hp : ∀ b, p b → key b = k) : t.updateMany p f = (t.modify k f, 1) := by
  have hmem := mem_of_find? ha
  have hkey := key_of_find? ha
  have hone : ∀ b ∈ t, (p b = true ↔ key b = k) := fun b hb =>
    ⟨hp b, fun hb' => by rwa [eq_of_key_eq hb hmem (hb'.trans hkey.symm)]⟩
  refine Prod.ext ?_ ?_
  · exact updateWhere_congr fun b hb => Bool.eq_iff_iff.mpr (by simpa using hone b hb)
  · show t.rows.countP p = 1
    have hcount : t.rows.countP p = (t.rows.map key).count k := by
      rw [List.count, List.countP_map]
      refine List.countP_congr fun b hb => ?_
      rw [Function.comp_apply, beq_iff_eq]
      exact hone b hb
    rw [hcount]
    exact List.count_eq_one_of_mem t.nodup (List.mem_map.mpr ⟨a, hmem, hkey⟩)

/-- A rewriting that leaves the row of `k` as it is changes nothing. -/
theorem modify_eq_self (h : ∀ a ∈ t, key a = k → f a = a) : t.modify k f = t :=
  map_eq_self fun a ha => by
    rw [Edit.only_apply]
    by_cases hk : key a = k
    · rw [if_pos (decide_eq_true hk), h a ha hk]
    · rw [if_neg (by simpa using hk)]

/-- The condition `p` does not see a rewriting of rows it never meets. -/
theorem filter_rows_modify (h : ∀ a ∈ t, key a = k → p a = false ∧ p (f a) = false) :
    (t.modify k f).rows.filter p = t.rows.filter p := by
  show (t.rows.map _).filter p = _
  rw [List.filter_map]
  have hcongr : t.rows.filter (p ∘ Edit.only (fun a => decide (key a = k)) f) =
      t.rows.filter p := by
    refine List.filter_congr fun a ha => ?_
    rw [Function.comp_apply, Edit.only_apply]
    by_cases hk : key a = k
    · rw [if_pos (decide_eq_true hk), (h a ha hk).1, (h a ha hk).2]
    · rw [if_neg (by simpa using hk)]
  rw [hcongr]
  refine (List.map_congr_left fun a ha => ?_).trans (List.map_id _)
  obtain ⟨hmem, hp⟩ := List.mem_filter.mp ha
  rw [Edit.only_apply, id_eq]
  refine if_neg fun hk => ?_
  rw [(h a hmem (of_decide_eq_true hk)).1] at hp
  cases hp

/-- Two updates of different rows commute. -/
theorem updateWhere_modify (h : ∀ a ∈ t, key a = k → p a = false ∧ p (f a) = false) :
    (t.modify k f).updateWhere p g = (t.updateWhere p g).modify k f := by
  ext1
  show (t.rows.map _).map _ = (t.rows.map _).map _
  rw [List.map_map, List.map_map]
  refine List.map_congr_left fun a ha => ?_
  simp only [Function.comp_apply, Edit.only_apply]
  by_cases hk : key a = k
  · simp [hk, (h a ha hk).1, (h a ha hk).2]
  · by_cases hp : p a = true
    · simp [hk, hp, g.keeps]
    · simp [hk, hp]

end Modify

/-! ## Delete -/

section Delete

variable {t : Table key} {a : α}

/-- Keep the rows that satisfy `p`. -/
def filter (t : Table key) (p : α → Bool) : Table key :=
  ⟨t.rows.filter p, t.nodup.sublist ((List.filter_sublist).map key)⟩

theorem mem_filter {p : α → Bool} : a ∈ t.filter p ↔ a ∈ t ∧ p a := by
  simp [mem_def, filter]

theorem find?_filter [DecidableEq κ] {p : α → Bool} (k : κ) :
    (t.filter p).find? k = (t.find? k).filter p := by
  cases h : t.find? k with
  | none =>
    rw [Option.filter_none]
    refine find?_eq_none_iff.mpr fun a ha => ?_
    exact find?_eq_none_iff.mp h a (mem_filter.mp ha).1
  | some a =>
    have hmem := mem_of_find? h
    have hkey := key_of_find? h
    by_cases hp : p a = true
    · rw [Option.filter_some_pos hp]
      exact find?_eq_some_iff.mpr ⟨mem_filter.mpr ⟨hmem, hp⟩, hkey⟩
    · rw [Option.filter_some_neg (Bool.not_eq_true _ ▸ hp)]
      refine find?_eq_none_iff.mpr fun b hb hk => hp ?_
      rw [← eq_of_key_eq (mem_filter.mp hb).1 hmem (hk.trans hkey.symm)]
      exact (mem_filter.mp hb).2

end Delete

end Table

end Store
