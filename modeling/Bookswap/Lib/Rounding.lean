import Mathlib.Data.Rat.Floor
import Mathlib.Tactic.Linarith

/-!
# Rounding half up

`Math.round` on exact numbers: it keeps bounds that are whole numbers, and the order.
-/

/-- `Math.round` -/
def mathRound (x : Rat) : Int := ⌊x + 1 / 2⌋

theorem mathRound_le {x : Rat} {n : Int} (h : x ≤ n) : mathRound x ≤ n := by
  have hlt : mathRound x < n + 1 := Int.floor_lt.mpr (by push_cast; linarith)
  omega

theorem le_mathRound {x : Rat} {n : Int} (h : (n : Rat) ≤ x) : n ≤ mathRound x :=
  Int.le_floor.mpr (by linarith)

theorem mathRound_mono {x y : Rat} (h : x ≤ y) : mathRound x ≤ mathRound y :=
  Int.floor_mono (by linarith)
