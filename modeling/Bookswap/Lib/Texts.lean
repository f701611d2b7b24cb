import Mathlib.Data.List.Basic

/-!
# Numbers and words in a text

A number is read back from its digits, and a text that is glued with spaces from its parts, as long
as the front part has none.
-/

namespace Bookswap

theorem toString_injective {n m : Nat} (h : toString n = toString m) : n = m := by
  have hdigits : Nat.toDigits 10 n = Nat.toDigits 10 m := by
    rw [← Nat.toList_repr, ← Nat.toList_repr]
    exact congrArg String.toList h
  rw [← Nat.ofDigitChars_toDigits (b := 10) (n := n) (by decide) (by decide), hdigits,
    Nat.ofDigitChars_toDigits (by decide) (by decide)]

theorem space_not_mem_toString (n : Nat) : ' ' ∉ (toString n).toList := by
  intro h
  have h : ' ' ∈ Nat.toDigits 10 n := by
    rw [← Nat.toList_repr]
    exact h
  exact absurd (Nat.isDigit_of_mem_toDigits (by decide) (by decide) h) (by decide)

/-- What stands before the first space, and what behind it. -/
theorem append_space_injective {a b c d : String} (ha : ' ' ∉ a.toList) (hb : ' ' ∉ b.toList)
    (h : a ++ " " ++ c = b ++ " " ++ d) : a = b ∧ c = d := by
  have hlists := congrArg String.toList h
  simp only [String.toList_append] at hlists
  rw [List.append_assoc, List.append_assoc] at hlists
  have hspace : " ".toList = [' '] := rfl
  rw [hspace, List.singleton_append, List.singleton_append] at hlists
  have hfront : ∀ {l : List Char} (rest : List Char), ' ' ∉ l →
      (l ++ ' ' :: rest).takeWhile (· ≠ ' ') = l := by
    intro l rest hl
    induction l with
    | nil => simp
    | cons x l ih =>
      rw [List.mem_cons, not_or] at hl
      rw [List.cons_append, List.takeWhile_cons_of_pos (by simpa using Ne.symm hl.1), ih hl.2]
  have hab : a.toList = b.toList := by
    rw [← hfront c.toList ha, hlists, hfront d.toList hb]
  rw [hab] at hlists
  have hcd := (List.cons.inj (List.append_cancel_left hlists)).2
  exact ⟨String.toList_injective hab, String.toList_injective hcd⟩

end Bookswap
