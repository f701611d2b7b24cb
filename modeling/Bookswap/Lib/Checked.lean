import Mathlib.Data.List.Basic

/-!
# Checked computations

A request handler is a chain of guards followed by writes; the first guard that
fails ends the request. Here it is an `Except ε` computation, and this file gives
the inversion rules that take a successful run apart: `Checked.bind_eq_ok` peels
one step of the chain, `throwIf_eq_ok` and `orThrow_eq_ok` turn a guard into the
fact it established.

- `throwIf bad e`: stop with `e` when `bad` holds.
- `orThrow o e`: the row a query returned, or `e` when it returned none.
- `whenever c x`: the check `x` under the condition `c`, and its value only then.
-/

namespace Checked

universe u v

variable {ε : Type u} {α β : Type v}

/-- Stop with `e` when `bad` holds. -/
def throwIf (bad : Prop) [Decidable bad] (e : ε) : Except ε PUnit.{v + 1} :=
  if bad then .error e else .ok ⟨⟩

/-- The value a query returned, or the error raised when it returned none. -/
def orThrow (o : Option α) (e : ε) : Except ε α :=
  match o with
  | some a => .ok a
  | none => .error e

@[simp] theorem throwIf_eq_ok {bad : Prop} [Decidable bad] {e : ε} {x : PUnit.{v + 1}} :
    throwIf bad e = .ok x ↔ ¬bad := by
  unfold throwIf
  by_cases h : bad
  · simp [h]
  · simp [h]

@[simp] theorem orThrow_eq_ok {o : Option α} {e : ε} {a : α} :
    orThrow o e = .ok a ↔ o = some a := by
  cases o with
  | none => simp [orThrow]
  | some b => simp [orThrow]

@[simp] theorem pure_eq_ok {a b : α} : (pure a : Except ε α) = .ok b ↔ a = b := by
  simp [pure, Except.pure]

/-- What throws does not succeed. -/
theorem throw_eq_ok {e : ε} {a : α} : (throw e : Except ε α) = .ok a ↔ False :=
  iff_of_false nofun id

/-- A chain succeeds exactly when its first step does and the rest does after it. -/
theorem bind_eq_ok {x : Except ε α} {f : α → Except ε β} {b : β} :
    (x >>= f) = .ok b ↔ ∃ a, x = .ok a ∧ f a = .ok b := by
  cases x with
  | error e => simp [bind, Except.bind]
  | ok a => simp [bind, Except.bind]

@[simp] theorem ok_bind {a : α} {f : α → Except ε β} : (Except.ok a >>= f) = f a := rfl

theorem map_eq_ok {f : α → β} {x : Except ε α} {b : β} :
    (f <$> x) = .ok b ↔ ∃ a, x = .ok a ∧ f a = b := by
  cases x with
  | error e => simp [Functor.map, Except.map]
  | ok a => simp [Functor.map, Except.map]

/-- Rewording the error keeps the successes. -/
@[simp] theorem mapError_eq_ok {ε' : Type u} {x : Except ε α} {f : ε → ε'} {a : α} :
    x.mapError f = .ok a ↔ x = .ok a := by
  cases x with
  | error e => simp [Except.mapError]
  | ok b => simp [Except.mapError]

/-- A check that runs only under a condition, and yields a value only then. -/
def whenever (c : Prop) [Decidable c] (x : Except ε α) : Except ε (Option α) :=
  if c then some <$> x else pure none

theorem whenever_eq_ok {c : Prop} [Decidable c] {x : Except ε α} {o : Option α} :
    whenever c x = .ok o ↔ (c ∧ ∃ a, x = .ok a ∧ o = some a) ∨ (¬c ∧ o = none) := by
  unfold whenever
  by_cases h : c
  · simp only [h, true_and, not_true_eq_false, false_and, or_false, if_true, map_eq_ok]
    exact exists_congr fun a => and_congr_right fun _ => eq_comm
  · simp only [h, false_and, not_false_eq_true, true_and, false_or, if_false, pure_eq_ok]
    exact eq_comm

/-- A loop of queries succeeds exactly when every query does. -/
theorem mapM_orThrow_eq_ok {g : β → Option α} {e : β → ε} {l : List β} {as : List α} :
    l.mapM (fun b => orThrow (g b) (e b)) = .ok as ↔ l.map g = as.map some := by
  induction l generalizing as with
  | nil => cases as <;> simp [pure, Except.pure]
  | cons b l ih =>
    simp only [List.mapM_cons, bind_eq_ok, orThrow_eq_ok]
    constructor
    · rintro ⟨a, ha, as', has', h⟩
      obtain rfl := pure_eq_ok.mp h
      rw [List.map_cons, List.map_cons, ha, ih.mp has']
    · intro h
      cases as with
      | nil => cases h
      | cons a as' =>
        rw [List.map_cons, List.map_cons, List.cons.injEq] at h
        exact ⟨a, h.1, as', ih.mpr h.2, rfl⟩

/-- A loop that succeeds has the value of each step. -/
theorem forall₂_of_mapM {f : β → Except ε α} {l : List β} {as : List α}
    (h : l.mapM f = .ok as) : List.Forall₂ (fun b a => f b = .ok a) l as := by
  induction l generalizing as with
  | nil =>
    obtain rfl := pure_eq_ok.mp h
    exact .nil
  | cons b l ih =>
    rw [List.mapM_cons] at h
    obtain ⟨a, ha, h⟩ := bind_eq_ok.mp h
    obtain ⟨as', has', h⟩ := bind_eq_ok.mp h
    obtain rfl := pure_eq_ok.mp h
    exact .cons ha (ih has')

/-- A loop whose every step succeeds succeeds. -/
theorem mapM_ok {f : β → Except ε α} {l : List β} (h : ∀ b ∈ l, ∃ a, f b = .ok a) :
    ∃ as, l.mapM f = .ok as := by
  induction l with
  | nil => exact ⟨[], rfl⟩
  | cons b l ih =>
    obtain ⟨a, ha⟩ := h b List.mem_cons_self
    obtain ⟨as, has⟩ := ih fun b' hb' => h b' (List.mem_cons_of_mem b hb')
    refine ⟨a :: as, ?_⟩
    rw [List.mapM_cons, ha, ok_bind, has, ok_bind]
    rfl

end Checked
