import Mathlib.Data.List.Basic

/-!
# Lists that grow at their end

`GrowsTo R xs ys`: whoever has read `xs` finds the same positions in `ys`, each with a value that
its old one is related to. With equality for `R` it is the prefix order.

- `GrowsTo.refl`, `GrowsTo.trans`, `GrowsTo.append`, `GrowsTo.map_right`: growing step by step.
- `GrowsTo.filter_right`: what was not read yet may go.
- `GrowsTo.filter`, `GrowsTo.map`: filters that cannot tell an old value from its new one.
- `GrowsTo.getElem?`: position by position.
-/

universe u v

variable {α : Type u} {β : Type v} {R : α → α → Prop}

/-- `ys` begins with the values of `xs`, as they are by now. -/
inductive GrowsTo (R : α → α → Prop) : List α → List α → Prop
  | nil (ys : List α) : GrowsTo R [] ys
  | cons {x y : α} {xs ys : List α} : R x y → GrowsTo R xs ys → GrowsTo R (x :: xs) (y :: ys)

namespace GrowsTo

variable {xs ys zs : List α}

theorem refl (hR : ∀ a, R a a) : ∀ xs, GrowsTo R xs xs
  | [] => .nil []
  | x :: xs => .cons (hR x) (refl hR xs)

theorem trans (hR : ∀ a b c, R a b → R b c → R a c) (h : GrowsTo R xs ys) (h' : GrowsTo R ys zs) :
    GrowsTo R xs zs := by
  induction h generalizing zs with
  | nil ys => exact .nil zs
  | cons hxy _ ih =>
    cases h' with
    | cons hyz htail => exact .cons (hR _ _ _ hxy hyz) (ih htail)

/-- New values at the end. -/
theorem append (h : GrowsTo R xs ys) (zs : List α) : GrowsTo R xs (ys ++ zs) := by
  induction h with
  | nil ys => exact .nil _
  | cons hxy _ ih => exact .cons hxy ih

/-- Values replaced by related ones. -/
theorem map_right (hR : ∀ a b c, R a b → R b c → R a c) {f : α → α} (hf : ∀ a ∈ ys, R a (f a))
    (h : GrowsTo R xs ys) : GrowsTo R xs (ys.map f) := by
  induction h with
  | nil ys => exact .nil _
  | cons hxy _ ih =>
    rw [List.map_cons]
    exact .cons (hR _ _ _ hxy (hf _ List.mem_cons_self))
      (ih fun a ha => hf a (List.mem_cons_of_mem _ ha))

/-- Values removed that were not read. -/
theorem filter_right {p : α → Bool} (hp : ∀ a ∈ xs, ∀ b, R a b → p b = true)
    (h : GrowsTo R xs ys) : GrowsTo R xs (ys.filter p) := by
  induction h with
  | nil ys => exact .nil _
  | cons hxy _ ih =>
    rw [List.filter_cons_of_pos (hp _ List.mem_cons_self _ hxy)]
    exact .cons hxy (ih fun a ha => hp a (List.mem_cons_of_mem _ ha))

/-- A filter that judges an old value as its new one. -/
theorem filter {p : α → Bool} (hp : ∀ a b, R a b → p a = p b) (h : GrowsTo R xs ys) :
    GrowsTo R (xs.filter p) (ys.filter p) := by
  induction h with
  | nil ys => exact .nil _
  | @cons x y xs ys hxy _ ih =>
    rw [List.filter_cons, List.filter_cons, ← hp x y hxy]
    split
    · exact .cons hxy ih
    · exact ih

theorem map {S : β → β → Prop} {f : α → β} (hf : ∀ a b, R a b → S (f a) (f b))
    (h : GrowsTo R xs ys) : GrowsTo S (xs.map f) (ys.map f) := by
  induction h with
  | nil ys => exact .nil _
  | cons hxy _ ih => exact .cons (hf _ _ hxy) ih

theorem length_le (h : GrowsTo R xs ys) : xs.length ≤ ys.length := by
  induction h with
  | nil ys => exact Nat.zero_le _
  | cons _ _ ih => exact Nat.succ_le_succ ih

/-- A position that was read is still there. -/
theorem getElem? (h : GrowsTo R xs ys) {i : Nat} {a : α} (ha : xs[i]? = some a) :
    ∃ b, ys[i]? = some b ∧ R a b := by
  induction h generalizing i with
  | nil ys => cases ha
  | @cons x y xs ys hxy _ ih =>
    cases i with
    | zero =>
      obtain rfl : x = a := Option.some.inj ha
      exact ⟨y, rfl, hxy⟩
    | succ i => exact ih ha

end GrowsTo
