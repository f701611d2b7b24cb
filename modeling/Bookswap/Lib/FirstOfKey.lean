import Mathlib.Data.List.Nodup
import Mathlib.Order.Bounds.Basic
import Mathlib.Order.Lattice

/-!
# The first entry of a key

Numbered entries, some of which have a key. One pass with a table of the first number of every key
seen so far says of each entry which one it repeats.

- `firstOf`: the first number of a key, said without a table.
- `Covers`: the table knows the first numbers of the entries seen; `Covers.note` is the step.
- `mem_marked`, `mem_marked_iff_isLeast`: what the pass says of an entry; with increasing numbers it
  is the least number of an earlier entry of the key.
-/

universe u

namespace FirstOfKey

variable {κ : Type u} [DecidableEq κ]

/-- The number of the first entry with the key. -/
def firstOf (entries : List (Nat × Option κ)) (key : κ) : Option Nat :=
  (entries.find? fun e => e.2 = some key).map Prod.fst

/-- The entry that is repeated, if there is one; otherwise this one is the first of its key. -/
def note (table : List (κ × Nat)) (number : Nat) : Option κ → Option Nat × List (κ × Nat)
  | none => (none, table)
  | some key =>
    match table.lookup key with
    | none => (none, (key, number) :: table)
    | some first => (some first, table)

/-- The numbers of the entries with what the pass says of them. -/
def marked : List (Nat × Option κ) → List (κ × Nat) → List (Nat × Option Nat)
  | [], _ => []
  | (number, key) :: rest, table =>
    (number, (note table number key).1) :: marked rest (note table number key).2

/-- The table has the first number of every key among the entries. -/
def Covers (table : List (κ × Nat)) (seen : List (Nat × Option κ)) : Prop :=
  ∀ key, table.lookup key = firstOf seen key

variable {table : List (κ × Nat)} {seen entries : List (Nat × Option κ)}

theorem covers_nil : Covers ([] : List (κ × Nat)) [] := fun _ => rfl

/-- What is said of an entry is the first of its key among those seen. -/
theorem Covers.note_fst (h : Covers table seen) (number : Nat) (key : Option κ) :
    (note table number key).1 = key.bind (firstOf seen) := by
  cases key with
  | none => rfl
  | some key =>
    rw [note, Option.bind_some, ← h key]
    cases table.lookup key <;> rfl

theorem firstOf_append_singleton (seen : List (Nat × Option κ)) (number : Nat) (key : Option κ)
    (k : κ) : firstOf (seen ++ [(number, key)]) k =
      (firstOf seen k).or (if key = some k then some number else none) := by
  simp only [firstOf, List.find?_append]
  cases seen.find? fun e => e.2 = some k with
  | some e => rfl
  | none =>
    by_cases hkey : key = some k
    · simp [hkey]
    · simp [hkey]

/-- **The step**: with the entry noted, the table covers one entry more. -/
theorem Covers.note (h : Covers table seen) (number : Nat) (key : Option κ) :
    Covers (note table number key).2 (seen ++ [(number, key)]) := by
  intro k
  rw [firstOf_append_singleton, ← h k]
  cases key with
  | none => simp [FirstOfKey.note]
  | some key =>
    simp only [FirstOfKey.note]
    cases hlookup : table.lookup key with
    | some first =>
      by_cases hk : key = k
      · rw [← hk, hlookup]
        rfl
      · simp [hk]
    | none =>
      by_cases hk : key = k
      · subst hk
        simp [hlookup]
      · have hne : (k == key) = false := by simpa using fun heq => hk heq.symm
        simp [List.lookup_cons, hne, hk]

/-- **What the pass says of each entry.** -/
theorem mem_marked (h : Covers table seen) {number : Nat} {mark : Option Nat} :
    (number, mark) ∈ marked entries table ↔ ∃ before key after,
      entries = before ++ (number, key) :: after ∧ mark = key.bind (firstOf (seen ++ before)) := by
  induction entries generalizing table seen with
  | nil => simp [marked]
  | cons e rest ih =>
    obtain ⟨n, k⟩ := e
    rw [marked, List.mem_cons, ih (h.note n k), h.note_fst]
    constructor
    · rintro (heq | ⟨before, key, after, rfl, rfl⟩)
      · cases heq
        exact ⟨[], k, rest, rfl, by rw [List.append_nil]⟩
      · exact ⟨(n, k) :: before, key, after, rfl, by rw [List.append_assoc]; rfl⟩
    · rintro ⟨before, key, after, heq, rfl⟩
      cases before with
      | nil =>
        cases heq
        exact .inl (by rw [List.append_nil])
      | cons e before =>
        cases heq
        exact .inr ⟨before, key, after, rfl, by rw [List.append_assoc]; rfl⟩

/-- The first of increasing numbers is the least. -/
theorem firstOf_eq_some_iff (hsorted : (entries.map Prod.fst).Pairwise (· < ·)) {key : κ}
    {first : Nat} :
    firstOf entries key = some first ↔ IsLeast {n | (n, some key) ∈ entries} first := by
  induction entries with
  | nil => simp [firstOf, IsLeast]
  | cons e rest ih =>
    obtain ⟨n, k⟩ := e
    rw [List.map_cons, List.pairwise_cons] at hsorted
    obtain ⟨hfirst, hsorted⟩ := hsorted
    by_cases hk : k = some key
    · have hn : firstOf ((n, k) :: rest) key = some n := by simp [firstOf, hk]
      have hleast : IsLeast {m | (m, some key) ∈ (n, k) :: rest} n := by
        refine ⟨by simp [hk], fun m hm => ?_⟩
        rcases List.mem_cons.mp hm with heq | hm
        · cases heq
          exact le_refl n
        · exact (hfirst m (List.mem_map.mpr ⟨_, hm, rfl⟩)).le
      rw [hn, Option.some.injEq]
      constructor
      · rintro rfl
        exact hleast
      · exact fun h => hleast.unique h
    · have hrest : firstOf ((n, k) :: rest) key = firstOf rest key := by simp [firstOf, hk]
      have hset : {m | (m, some key) ∈ (n, k) :: rest} = {m | (m, some key) ∈ rest} := by
        ext m
        simp [Ne.symm hk]
      rw [hrest, hset, ih hsorted]

/-- **With increasing numbers an entry repeats the least number of an earlier entry of its key.** -/
theorem mem_marked_iff_isLeast (hsorted : (entries.map Prod.fst).Pairwise (· < ·))
    {number first : Nat} :
    (number, some first) ∈ marked entries [] ↔ ∃ key, (number, some key) ∈ entries ∧
      IsLeast {m | m < number ∧ (m, some key) ∈ entries} first := by
  have hsplit : ∀ {before key after}, entries = before ++ (number, some key) :: after →
      (before.map Prod.fst).Pairwise (· < ·) ∧
        {m | m < number ∧ (m, some key) ∈ entries} = {m | (m, some key) ∈ before} := by
    rintro before key after rfl
    rw [List.map_append, List.map_cons, List.pairwise_append, List.pairwise_cons] at hsorted
    obtain ⟨hbefore, ⟨hafter, -⟩, hacross⟩ := hsorted
    refine ⟨hbefore, Set.ext fun m => ⟨fun ⟨hlt, hm⟩ => ?_, fun hm => ⟨?_, ?_⟩⟩⟩
    · rcases List.mem_append.mp hm with hm | hm
      · exact hm
      · rcases List.mem_cons.mp hm with heq | hm
        · cases heq
          exact absurd hlt (Nat.lt_irrefl _)
        · exact absurd hlt (hafter m (List.mem_map.mpr ⟨_, hm, rfl⟩)).le.not_gt
    · exact hacross m (List.mem_map.mpr ⟨_, hm, rfl⟩) number List.mem_cons_self
    · exact List.mem_append_left _ hm
  rw [mem_marked covers_nil]
  constructor
  · rintro ⟨before, key, after, hentries, hmark⟩
    cases key with
    | none => cases hmark
    | some key =>
      obtain ⟨hbefore, hset⟩ := hsplit hentries
      refine ⟨key, by simp [hentries], ?_⟩
      rw [hset, ← firstOf_eq_some_iff hbefore]
      exact hmark.symm
  · rintro ⟨key, hmem, hleast⟩
    obtain ⟨before, after, hentries⟩ := List.append_of_mem hmem
    obtain ⟨hbefore, hset⟩ := hsplit hentries
    rw [hset, ← firstOf_eq_some_iff hbefore] at hleast
    exact ⟨before, some key, after, hentries, hleast.symm⟩

theorem map_fst_marked (entries : List (Nat × Option κ)) (table : List (κ × Nat)) :
    (marked entries table).map Prod.fst = entries.map Prod.fst := by
  induction entries generalizing table with
  | nil => rfl
  | cons e rest ih => simp [marked, ih]

end FirstOfKey
