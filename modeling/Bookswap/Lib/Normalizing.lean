import Mathlib.Data.List.Basic
import Mathlib.Data.List.DropRight

/-!
# Schemas that normalize

A schema reads a value and answers with what it makes of it, or refuses. It normalizes when what it
answers is accepted again and left as it is, so that data written through the schema can be read
back through it.

- `Normalizes`: the property.
- `canonical`, `optional`, `each`, `refine`: schemas from parts, which normalize when the parts do.
- `trimmed`: a list without what is at its ends; trimming twice is trimming once.
-/

namespace Normalizing

universe u v

variable {α : Type u} {β : Type v}

/-- What the schema accepts is in a form that it accepts unchanged. -/
def Normalizes (f : α → Option α) : Prop := ∀ x y, f x = some y → f y = some y

/-- Bring the value to its form, then check it. -/
def canonical (form : α → α) (check : α → Bool) (x : α) : Option α :=
  if check (form x) then some (form x) else none

/-- A value that may be absent. -/
def optional (f : α → Option β) : Option α → Option (Option β)
  | none => some none
  | some a => (f a).map some

/-- Every element of a list. -/
def each (f : α → Option β) (l : List α) : Option (List β) := l.mapM f

/-- One more check of what the schema makes of the value. -/
def refine (f : α → Option β) (check : β → Bool) (x : α) : Option β := (f x).filter check

/-- A schema that reads one part and goes on. As a rule for `simp` it stands before the parts
(`↓`), so that what is bound is not looked at again and again. -/
theorem do_eq_some {β : Type u} {x : Option α} {f : α → Option β} {b : β} :
    (x >>= f) = some b ↔ ∃ a, x = some a ∧ f a = some b := Option.bind_eq_some_iff

theorem canonical_eq_some {form : α → α} {check : α → Bool} {x y : α} :
    canonical form check x = some y ↔ y = form x ∧ check y = true := by
  unfold canonical
  constructor
  · intro h
    split at h
    · cases h
      exact ⟨rfl, ‹_›⟩
    · cases h
  · rintro ⟨rfl, h⟩
    rw [if_pos h]

theorem Normalizes.canonical {form : α → α} {check : α → Bool} (h : ∀ x, form (form x) = form x) :
    Normalizes (canonical form check) := by
  intro x y hxy
  obtain ⟨rfl, hcheck⟩ := canonical_eq_some.mp hxy
  exact canonical_eq_some.mpr ⟨(h x).symm, hcheck⟩

theorem Normalizes.optional {f : α → Option α} (h : Normalizes f) :
    Normalizes (optional f) := by
  intro x y hxy
  cases x with
  | none =>
    cases hxy
    rfl
  | some a =>
    obtain ⟨b, hb, rfl⟩ := Option.map_eq_some_iff.mp hxy
    exact Option.map_eq_some_iff.mpr ⟨b, h a b hb, rfl⟩

theorem each_cons_eq_some {f : α → Option β} {a : α} {l : List α} {bs : List β} :
    each f (a :: l) = some bs ↔ ∃ b bs', f a = some b ∧ each f l = some bs' ∧ bs = b :: bs' := by
  simp only [each, List.mapM_cons, Option.bind_eq_bind, Option.bind_eq_some_iff, Option.pure_def,
    Option.some.injEq]
  constructor
  · rintro ⟨b, hb, bs', hbs', rfl⟩
    exact ⟨b, bs', hb, hbs', rfl⟩
  · rintro ⟨b, bs', hb, hbs', rfl⟩
    exact ⟨b, hb, bs', hbs', rfl⟩

theorem Normalizes.each {f : α → Option α} (h : Normalizes f) : Normalizes (each f) := by
  intro l
  induction l with
  | nil =>
    intro y hy
    cases hy
    rfl
  | cons a l ih =>
    intro y hy
    obtain ⟨b, bs, hb, hbs, rfl⟩ := each_cons_eq_some.mp hy
    exact each_cons_eq_some.mpr ⟨b, bs, h a b hb, ih bs hbs, rfl⟩

theorem Normalizes.refine {f : α → Option α} {check : α → Bool} (h : Normalizes f) :
    Normalizes (refine f check) := by
  intro x y hxy
  obtain ⟨hy, hcheck⟩ := Option.filter_eq_some_iff.mp hxy
  exact Option.filter_eq_some_iff.mpr ⟨h x y hy, hcheck⟩

/-- What each element becomes, element by element. -/
theorem each_eq_some_iff {f : α → Option β} {l : List α} {bs : List β} :
    each f l = some bs ↔ l.map f = bs.map some := by
  induction l generalizing bs with
  | nil => cases bs <;> simp [each]
  | cons a l ih =>
    rw [each_cons_eq_some]
    cases bs with
    | nil => simp
    | cons b bs =>
      simp only [List.cons.injEq, List.map_cons, ← ih]
      constructor
      · rintro ⟨b', bs', hb, hbs, rfl, rfl⟩
        exact ⟨hb, hbs⟩
      · rintro ⟨hb, hbs⟩
        exact ⟨b, bs, hb, hbs, rfl, rfl⟩

/-- A list of values that are accepted unchanged is accepted unchanged. -/
theorem each_self {f : α → Option α} {l : List α} (h : ∀ a ∈ l, f a = some a) :
    each f l = some l :=
  each_eq_some_iff.mpr (List.map_congr_left h)

/-! ## Trimming -/

/-- The list without the elements of `p` at its ends. -/
def trimmed (p : α → Bool) (l : List α) : List α := (l.dropWhile p).rdropWhile p

theorem trimmed_trimmed (p : α → Bool) (l : List α) : trimmed p (trimmed p l) = trimmed p l := by
  have hfront : (trimmed p l).dropWhile p = trimmed p l := by
    have hidem := List.dropWhile_idempotent (p := p) l
    obtain ⟨rest, hrest⟩ := List.rdropWhile_prefix (p := p) (l.dropWhile p)
    rw [List.dropWhile_eq_self_iff] at hidem ⊢
    intro hpos
    -- the head of what is left is the head of `l.dropWhile p`
    change 0 < ((l.dropWhile p).rdropWhile p).length at hpos
    change ¬ p ((l.dropWhile p).rdropWhile p)[0] = true
    have hlength : 0 < (l.dropWhile p).length := by
      have := congrArg List.length hrest
      rw [List.length_append] at this
      omega
    have hhead : ((l.dropWhile p).rdropWhile p)[0] = (l.dropWhile p)[0] := by
      rw [List.getElem_of_eq hrest.symm hlength, List.getElem_append_left hpos]
    rw [hhead]
    exact hidem hlength
  have hback := List.rdropWhile_idempotent (p := p) (l.dropWhile p)
  exact (congrArg (List.rdropWhile p) hfront).trans hback

theorem trimmed_of_forall {p : α → Bool} {l : List α} (h : ∀ a ∈ l, p a = false) :
    trimmed p l = l := by
  have hfront : l.dropWhile p = l :=
    List.dropWhile_eq_self_iff.mpr fun hpos => by simp [h _ (List.getElem_mem hpos)]
  rw [trimmed, hfront, List.rdropWhile_eq_self_iff]
  intro hne
  simp [h _ (List.getLast_mem hne)]

end Normalizing
