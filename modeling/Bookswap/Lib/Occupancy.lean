import Mathlib.Data.Option.Basic
import Mathlib.Data.Prod.Basic
import Mathlib.Logic.Function.Basic

/-!
# Exclusive occupancy

Resources `ρ` are shown to the world in a shape `σ`; claimants `κ` occupy them. A
claimant that occupies a resource dictates the resource's shape, and nobody else
may occupy it meanwhile; a resource nobody occupies rests in an idle shape.
`Agrees` is this agreement between the two sides, kept by the five steps:

- `occupy`: a claimant takes a free resource, or moves the one it has to a new shape;
- `release`: the occupant leaves and the resource goes idle;
- `settle`: a free resource appears, or changes its idle shape;
- `remove`: a free resource disappears;
- `relabel`: all shapes are renamed at once, on both sides.
-/

namespace Occupancy

universe u v w

variable {ρ : Type u} {κ : Type v} {σ : Type w}

/-- The two sides: how every resource looks, and what every claimant occupies and
which shape it dictates. -/
@[ext] structure State (ρ : Type u) (κ : Type v) (σ : Type w) where
  shape : ρ → Option σ
  hold : κ → Option (ρ × σ)

/-- No claimant occupies the resource. -/
def State.Free (s : State ρ κ σ) (r : ρ) : Prop := ∀ k t, s.hold k ≠ some (r, t)

/-- **The agreement**: occupants are exclusive, they dictate the shape, and what
nobody occupies is idle. -/
structure Agrees (Idle : σ → Prop) (s : State ρ κ σ) : Prop where
  exclusive : ∀ {k k' r t t'}, s.hold k = some (r, t) → s.hold k' = some (r, t') → k = k'
  held : ∀ {k r t}, s.hold k = some (r, t) → s.shape r = some t
  rest : ∀ {r t}, s.shape r = some t → s.Free r → Idle t

variable [DecidableEq ρ] [DecidableEq κ]

/-- The steps of the abstract machine. -/
inductive Step (Idle : σ → Prop) : State ρ κ σ → State ρ κ σ → Prop
  | occupy {s : State ρ κ σ} (k : κ) (r : ρ) (t : σ) :
      (s.Free r ∧ s.hold k = none) ∨ (∃ t₀, s.hold k = some (r, t₀)) →
      Step Idle s ⟨Function.update s.shape r (some t), Function.update s.hold k (some (r, t))⟩
  | release {s : State ρ κ σ} (k : κ) (r : ρ) (t₀ t : σ) :
      s.hold k = some (r, t₀) → Idle t →
      Step Idle s ⟨Function.update s.shape r (some t), Function.update s.hold k none⟩
  | settle {s : State ρ κ σ} (r : ρ) (t : σ) :
      s.Free r → Idle t → Step Idle s ⟨Function.update s.shape r (some t), s.hold⟩
  | remove {s : State ρ κ σ} (r : ρ) :
      s.Free r → Step Idle s ⟨Function.update s.shape r none, s.hold⟩
  | relabel {s : State ρ κ σ} (f : σ → σ) :
      (∀ t, Idle t → Idle (f t)) →
      Step Idle s ⟨fun r => (s.shape r).map f, fun k => (s.hold k).map (Prod.map id f)⟩

variable {Idle : σ → Prop} {s s' : State ρ κ σ}

omit [DecidableEq ρ] [DecidableEq κ] in
/-- The occupant of a resource is found by anyone who holds it. -/
theorem Agrees.free_or_held (_ : Agrees Idle s) (r : ρ) :
    s.Free r ∨ ∃ k t, s.hold k = some (r, t) := by
  by_cases h : ∃ k t, s.hold k = some (r, t)
  · exact Or.inr h
  · exact Or.inl fun k t hk => h ⟨k, t, hk⟩

/-- Taking a free resource, or moving the one already held. -/
theorem Agrees.occupy (h : Agrees Idle s) {k : κ} {r : ρ} {t : σ}
    (hk : (s.Free r ∧ s.hold k = none) ∨ ∃ t₀, s.hold k = some (r, t₀)) :
    Agrees Idle ⟨Function.update s.shape r (some t),
      Function.update s.hold k (some (r, t))⟩ := by
  -- whoever holds `r` beside `k` contradicts both ways of getting here
  have halone : ∀ k' t', k' ≠ k → s.hold k' ≠ some (r, t') := by
    intro k' t' hne hk'
    rcases hk with ⟨hfree, -⟩ | ⟨t₀, ht₀⟩
    · exact hfree k' t' hk'
    · exact hne (h.exclusive hk' ht₀)
  -- `k` holds nothing but `r`
  have honly : ∀ r' t', s.hold k = some (r', t') → r' = r := by
    intro r' t' hr'
    rcases hk with ⟨-, hnone⟩ | ⟨t₀, ht₀⟩
    · rw [hnone] at hr'
      cases hr'
    · rw [ht₀] at hr'
      cases hr'
      rfl
  constructor
  · intro k₁ k₂ r₁ t₁ t₂ h₁ h₂
    by_cases e₁ : k₁ = k <;> by_cases e₂ : k₂ = k
    · rw [e₁, e₂]
    · subst e₁
      simp only [Function.update_self, Option.some.injEq, Prod.mk.injEq] at h₁
      simp only [Function.update_of_ne e₂] at h₂
      exact absurd (h₁.1 ▸ h₂) (halone k₂ t₂ e₂)
    · subst e₂
      simp only [Function.update_self, Option.some.injEq, Prod.mk.injEq] at h₂
      simp only [Function.update_of_ne e₁] at h₁
      exact absurd (h₂.1 ▸ h₁) (halone k₁ t₁ e₁)
    · simp only [Function.update_of_ne e₁] at h₁
      simp only [Function.update_of_ne e₂] at h₂
      exact h.exclusive h₁ h₂
  · intro k₁ r₁ t₁ h₁
    by_cases e₁ : k₁ = k
    · subst e₁
      simp only [Function.update_self, Option.some.injEq, Prod.mk.injEq] at h₁
      obtain ⟨rfl, rfl⟩ := h₁
      exact Function.update_self ..
    · simp only [Function.update_of_ne e₁] at h₁
      have hr : r₁ ≠ r := fun hr => halone k₁ t₁ e₁ (hr ▸ h₁)
      simp only [Function.update_of_ne hr]
      exact h.held h₁
  · intro r₁ t₁ hs hfree
    have hr : r₁ ≠ r := by
      rintro rfl
      exact hfree k t (Function.update_self ..)
    simp only [Function.update_of_ne hr] at hs
    refine h.rest hs fun k' t' hk' => ?_
    by_cases e : k' = k
    · subst e
      exact hr (honly r₁ t' hk')
    · exact hfree k' t' ((Function.update_of_ne e ..).trans hk')

/-- The occupant leaves and the resource goes idle. -/
theorem Agrees.release (h : Agrees Idle s) {k : κ} {r : ρ} {t₀ t : σ}
    (hk : s.hold k = some (r, t₀)) (ht : Idle t) :
    Agrees Idle ⟨Function.update s.shape r (some t), Function.update s.hold k none⟩ := by
  have hstay : ∀ {k' r' t'}, Function.update s.hold k none k' = some (r', t') →
      k' ≠ k ∧ s.hold k' = some (r', t') := by
    intro k' r' t' hk'
    have hne : k' ≠ k := by
      rintro rfl
      rw [Function.update_self] at hk'
      cases hk'
    rw [Function.update_of_ne hne] at hk'
    exact ⟨hne, hk'⟩
  constructor
  · intro k₁ k₂ r₁ t₁ t₂ h₁ h₂
    exact h.exclusive (hstay h₁).2 (hstay h₂).2
  · intro k₁ r₁ t₁ h₁
    obtain ⟨hne, hold⟩ := hstay h₁
    have hr : r₁ ≠ r := fun hr => hne (h.exclusive hold (hr ▸ hk))
    simp only [Function.update_of_ne hr]
    exact h.held hold
  · intro r₁ t₁ hs hfree
    by_cases hr : r₁ = r
    · subst hr
      simp only [Function.update_self, Option.some.injEq] at hs
      exact hs ▸ ht
    · simp only [Function.update_of_ne hr] at hs
      refine h.rest hs fun k' t' hk' => ?_
      have hne : k' ≠ k := by
        rintro rfl
        rw [hk, Option.some.injEq, Prod.mk.injEq] at hk'
        exact hr hk'.1.symm
      exact hfree k' t' ((Function.update_of_ne hne ..).trans hk')

omit [DecidableEq κ] in
/-- Rewriting the shape of a free resource, idle or gone. -/
theorem Agrees.settle (h : Agrees Idle s) {r : ρ} {o : Option σ} (hfree : s.Free r)
    (ho : ∀ t, o = some t → Idle t) :
    Agrees Idle ⟨Function.update s.shape r o, s.hold⟩ := by
  constructor
  · exact h.exclusive
  · intro k₁ r₁ t₁ h₁
    have hr : r₁ ≠ r := by
      rintro rfl
      exact hfree k₁ t₁ h₁
    simp only [Function.update_of_ne hr]
    exact h.held h₁
  · intro r₁ t₁ hs hf
    by_cases hr : r₁ = r
    · subst hr
      simp only [Function.update_self] at hs
      exact ho t₁ hs
    · simp only [Function.update_of_ne hr] at hs
      exact h.rest hs hf

omit [DecidableEq ρ] [DecidableEq κ] in
/-- Renaming the shapes on both sides at once. -/
theorem Agrees.relabel (h : Agrees Idle s) {f : σ → σ} (hf : ∀ t, Idle t → Idle (f t)) :
    Agrees Idle ⟨fun r => (s.shape r).map f, fun k => (s.hold k).map (Prod.map id f)⟩ := by
  have hsrc : ∀ {k r t}, (s.hold k).map (Prod.map id f) = some (r, t) →
      ∃ t₀, s.hold k = some (r, t₀) ∧ f t₀ = t := by
    intro k r t hk
    obtain ⟨⟨r₀, t₀⟩, h₀, he⟩ := Option.map_eq_some_iff.mp hk
    simp only [Prod.map_apply, id_eq, Prod.mk.injEq] at he
    obtain ⟨rfl, rfl⟩ := he
    exact ⟨t₀, h₀, rfl⟩
  constructor
  · intro k₁ k₂ r₁ t₁ t₂ h₁ h₂
    obtain ⟨u₁, hu₁, -⟩ := hsrc h₁
    obtain ⟨u₂, hu₂, -⟩ := hsrc h₂
    exact h.exclusive hu₁ hu₂
  · intro k₁ r₁ t₁ h₁
    obtain ⟨u₁, hu₁, rfl⟩ := hsrc h₁
    exact Option.map_eq_some_iff.mpr ⟨u₁, h.held hu₁, rfl⟩
  · intro r₁ t₁ hs hfree
    obtain ⟨u₁, hu₁, rfl⟩ := Option.map_eq_some_iff.mp hs
    refine hf u₁ (h.rest hu₁ fun k t hk => hfree k (f t) ?_)
    exact Option.map_eq_some_iff.mpr ⟨(r₁, t), hk, rfl⟩

/-- **The agreement survives every step.** -/
theorem Agrees.step (h : Agrees Idle s) (hs : Step Idle s s') : Agrees Idle s' := by
  cases hs with
  | occupy k r t hk => exact h.occupy hk
  | release k r t₀ t hk ht => exact h.release hk ht
  | settle r t hfree ht => exact h.settle hfree fun _ e => Option.some.inj e ▸ ht
  | remove r hfree => exact h.settle hfree fun _ e => nomatch e
  | relabel f hf => exact h.relabel hf

end Occupancy
