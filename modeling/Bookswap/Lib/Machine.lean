import Mathlib.Data.List.Basic
import Mathlib.Logic.Relation

/-!
# Machines and their runs

A machine has initial states and labelled steps. A run records its labels, newest
first, so that a property can speak about what happened before a step as well as
about the state reached.

- `Machine.Run h s`: the run with history `h` ends in `s`.
- `Run.invariant`: the induction over a run, for invariants that relate the
  history and the state.
- `Reachable.invariant`: the same for a property of states alone; the step may use
  that the state before it is reachable.
- `restrict`: the runs whose steps all satisfy a condition.
- `Leads`, `Leads.keeps`: what a state keeps whatever happens after it.
- `Reachable.simulates`: a view of the states under which every step is a chain of
  abstract steps takes reachable states to states the abstract relation reaches.
-/

universe u v w

/-- A labelled transition system. -/
structure Machine (σ : Type u) (ι : Type v) where
  init : σ → Prop
  step : σ → ι → σ → Prop

namespace Machine

variable {σ : Type u} {ι : Type v} {τ : Type w} {M : Machine σ ι}

/-- `M.Run h s`: from an initial state, the steps `h` (newest first) led to `s`. -/
inductive Run (M : Machine σ ι) : List ι → σ → Prop
  | start {s : σ} : M.init s → M.Run [] s
  | next {h : List ι} {s s' : σ} {i : ι} : M.Run h s → M.step s i s' → M.Run (i :: h) s'

/-- Some run ends in the state. -/
def Reachable (M : Machine σ ι) (s : σ) : Prop := ∃ h, M.Run h s

theorem Reachable.start {s : σ} (h : M.init s) : M.Reachable s := ⟨[], .start h⟩

theorem Reachable.next {s s' : σ} {i : ι} (h : M.Reachable s) (hs : M.step s i s') :
    M.Reachable s' := by
  obtain ⟨l, hl⟩ := h
  exact ⟨i :: l, .next hl hs⟩

/-- **Induction over a run**: what holds initially and survives every step holds of
every run. -/
theorem Run.invariant {I : List ι → σ → Prop} (h0 : ∀ s, M.init s → I [] s)
    (hs : ∀ h s i s', M.Run h s → I h s → M.step s i s' → I (i :: h) s')
    {h : List ι} {s : σ} (hr : M.Run h s) : I h s := by
  induction hr with
  | start hi => exact h0 _ hi
  | next hr hi ih => exact hs _ _ _ _ hr ih hi

/-- **Induction over the reachable states.** -/
theorem Reachable.invariant {I : σ → Prop} (h0 : ∀ s, M.init s → I s)
    (hs : ∀ s i s', M.Reachable s → I s → M.step s i s' → I s')
    {s : σ} (hr : M.Reachable s) : I s := by
  obtain ⟨h, hr⟩ := hr
  exact Run.invariant (I := fun _ s => I s) h0
    (fun h s i s' hr hi hst => hs s i s' ⟨h, hr⟩ hi hst) hr

/-- Some steps lead from one state to the other. -/
def Leads (M : Machine σ ι) : σ → σ → Prop := Relation.ReflTransGen fun a b => ∃ i, M.step a i b

theorem Reachable.leads {s t : σ} (hr : M.Reachable s) (h : M.Leads s t) : M.Reachable t := by
  induction h with
  | refl => exact hr
  | tail _ hstep ih =>
    obtain ⟨i, hi⟩ := hstep
    exact ih.next hi

/-- **What every step keeps is kept whatever happens.** -/
theorem Leads.keeps {P : σ → Prop} (hP : ∀ s i s', M.Reachable s → P s → M.step s i s' → P s')
    {s t : σ} (hr : M.Reachable s) (hp : P s) (h : M.Leads s t) : P t := by
  induction h with
  | refl => exact hp
  | tail hlead hstep ih =>
    obtain ⟨i, hi⟩ := hstep
    exact hP _ i _ (hr.leads hlead) ih hi

/-- The machine whose steps all satisfy `P`. -/
def restrict (M : Machine σ ι) (P : σ → ι → σ → Prop) : Machine σ ι where
  init := M.init
  step s i s' := M.step s i s' ∧ P s i s'

/-- A run whose steps all satisfy `P` is a run. -/
theorem Run.of_restrict {P : σ → ι → σ → Prop} {h : List ι} {s : σ}
    (hr : (M.restrict P).Run h s) : M.Run h s := by
  induction hr with
  | start hi => exact .start hi
  | next _ hi ih => exact .next ih hi.1

theorem Reachable.of_restrict {P : σ → ι → σ → Prop} {s : σ}
    (hr : (M.restrict P).Reachable s) : M.Reachable s := by
  obtain ⟨h, hr⟩ := hr
  exact ⟨h, hr.of_restrict⟩

theorem Leads.of_restrict {P : σ → ι → σ → Prop} {s t : σ} (h : (M.restrict P).Leads s t) :
    M.Leads s t := by
  induction h with
  | refl => exact .refl
  | tail _ hstep ih =>
    obtain ⟨i, hi, -⟩ := hstep
    exact ih.tail ⟨i, hi⟩

/-- A run's history splits at any point into an earlier run and what followed. -/
theorem Run.of_append {h₁ h₂ : List ι} {s : σ} (hr : M.Run (h₁ ++ h₂) s) :
    ∃ s₀, M.Run h₂ s₀ := by
  induction h₁ generalizing s with
  | nil => exact ⟨s, hr⟩
  | cons i h₁ ih =>
    cases hr with
    | next hr _ => exact ih hr

/-- The last step of a run. -/
theorem Run.last {i : ι} {h : List ι} {s : σ} (hr : M.Run (i :: h) s) :
    ∃ s₀, M.Run h s₀ ∧ M.step s₀ i s := by
  cases hr with
  | next hr hs => exact ⟨_, hr, hs⟩

/-- **Simulation**: when a view takes initial states into `A` and every step to a
chain of abstract steps, and abstract steps stay in `A`, the view of a reachable
state is in `A`. -/
theorem Reachable.simulates {view : σ → τ} {R : τ → τ → Prop} {A : τ → Prop}
    (h0 : ∀ s, M.init s → A (view s)) (hA : ∀ a b, A a → R a b → A b)
    (hs : ∀ s i s', M.Reachable s → A (view s) → M.step s i s' →
      Relation.ReflTransGen R (view s) (view s'))
    {s : σ} (hr : M.Reachable s) : A (view s) := by
  refine hr.invariant (I := fun s => A (view s)) h0 fun s i s' hr hi hst => ?_
  have hpath := hs s i s' hr hi hst
  show A (view s')
  generalize view s' = b at hpath
  induction hpath with
  | refl => exact hi
  | tail _ hab ih => exact hA _ _ ih hab

end Machine
