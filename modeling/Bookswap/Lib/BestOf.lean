import Mathlib.Data.List.MinMax
import Mathlib.Data.List.Nodup

/-!
# The best of each group

Rows are put in groups, by who they belong to and by where they are. The best row of a group is the
one of the greatest key. When the groups of one place join those of another, the best rows of the
joined groups are those that beat the best row of the other place; so only the best rows have to be
kept, and in the end it does not matter in which order the places were joined.

- `Best`: the best row of its group; `exists_best`, `best_unique`.
- `join`: one place joins another; `best_join`.
- `best_eq_argmax`: where everything is in one place, the best row is the greatest of all.
-/

namespace BestOf

variable {ρ υ κ α : Type} [LinearOrder κ]

/-- The row is the best of those of its owner at its place. -/
def Best (rows : List ρ) (user : ρ → υ) (key : ρ → κ) (home : ρ → α) (r : ρ) : Prop :=
  r ∈ rows ∧ ∀ q ∈ rows, user q = user r → home q = home r → key q ≤ key r

variable {rows : List ρ} {user : ρ → υ} {key : ρ → κ} {home : ρ → α}

/-- A list with something in it has an element of the greatest key. -/
theorem exists_greatest [DecidableEq ρ] {l : List ρ} (h : l ≠ []) :
    ∃ b ∈ l, ∀ q ∈ l, key q ≤ key b := by
  cases hmax : l.argmax key with
  | none => exact absurd (List.argmax_eq_none.mp hmax) h
  | some b => exact ⟨b, List.argmax_mem hmax, fun q hq => List.le_of_mem_argmax hq hmax⟩

/-- Every row has the best one of its group. -/
theorem exists_best [DecidableEq ρ] {r : ρ} (hr : r ∈ rows) :
    ∃ b, Best rows user key home b ∧ user b = user r ∧ home b = home r := by
  classical
  have hne : rows.filter (fun q => user q = user r ∧ home q = home r) ≠ [] :=
    List.ne_nil_of_mem (List.mem_filter.mpr ⟨hr, by simp⟩)
  have hexists : ∃ b ∈ rows.filter fun q => user q = user r ∧ home q = home r,
      ∀ q ∈ rows.filter fun q => user q = user r ∧ home q = home r, key q ≤ key b :=
    exists_greatest hne
  obtain ⟨b, hb, hgreatest⟩ := hexists
  simp only [List.mem_filter, decide_eq_true_eq] at hb hgreatest
  refine ⟨b, ⟨hb.1, fun q hq huser hhome => ?_⟩, hb.2.1, hb.2.2⟩
  exact hgreatest q ⟨hq, huser.trans hb.2.1, hhome.trans hb.2.2⟩

/-- Keys tell the rows of an owner apart. -/
def Apart (rows : List ρ) (user : ρ → υ) (key : ρ → κ) : Prop :=
  ∀ r ∈ rows, ∀ q ∈ rows, user r = user q → key r = key q → r = q

theorem best_unique (hkeys : Apart rows user key) {r q : ρ} (hr : Best rows user key home r)
    (hq : Best rows user key home q) (huser : user r = user q) (hhome : home r = home q) :
    r = q := by
  refine hkeys r hr.1 q hq.1 huser (le_antisymm ?_ ?_)
  · exact hq.2 r hr.1 huser hhome
  · exact hr.2 q hq.1 huser.symm hhome.symm

/-! ## One place joins another -/

/-- What was at `s` is at `t` now. -/
def join [DecidableEq α] (s t : α) (home : ρ → α) (r : ρ) : α :=
  if home r = s then t else home r

variable [DecidableEq α] {s t : α}

/-- The row and the other are on the two sides of the join. -/
def Opposite (s t : α) (home : ρ → α) (r q : ρ) : Prop :=
  (home r = s ∧ home q = t) ∨ (home r = t ∧ home q = s)

theorem join_eq_join {r q : ρ} (hst : s ≠ t) :
    join s t home q = join s t home r ↔ home q = home r ∨ Opposite s t home r q := by
  unfold join Opposite
  split <;> split <;> grind

/-- **The best rows after a join are the best rows before it that no best row of the other side
beats.** -/
theorem best_join [DecidableEq ρ] (hst : s ≠ t) {r : ρ} :
    Best rows user key (join s t home) r ↔ Best rows user key home r ∧
      ∀ q, Best rows user key home q → user q = user r → Opposite s t home r q →
        key q ≤ key r := by
  constructor
  · rintro ⟨hr, hbest⟩
    refine ⟨⟨hr, fun q hq huser hhome => ?_⟩, fun q hq huser hopp => ?_⟩
    · exact hbest q hq huser ((join_eq_join hst).mpr (.inl hhome))
    · exact hbest q hq.1 huser ((join_eq_join hst).mpr (.inr hopp))
  · rintro ⟨⟨hr, hbest⟩, hrivals⟩
    refine ⟨hr, fun q hq huser hhome => ?_⟩
    rcases (join_eq_join hst).mp hhome with hsame | hopp
    · exact hbest q hq huser hsame
    · -- the best row of the other side stands between them
      have hexists : ∃ b, Best rows user key home b ∧ user b = user q ∧ home b = home q :=
        exists_best hq
      obtain ⟨b, hb, hbuser, hbhome⟩ := hexists
      have hle : key q ≤ key b := hb.2 q hq hbuser.symm hbhome.symm
      refine hle.trans (hrivals b hb (hbuser.trans huser) ?_)
      unfold Opposite
      rw [hbhome]
      exact hopp

omit [DecidableEq α] in
/-- Where an owner has one row at a place, every row is the best. -/
theorem best_of_single {r : ρ} (hr : r ∈ rows)
    (h : ∀ q ∈ rows, user q = user r → home q = home r → q = r) : Best rows user key home r :=
  ⟨hr, fun q hq huser hhome => le_of_eq (congrArg key (h q hq huser hhome))⟩

omit [DecidableEq α] in
/-- The best row of a place is the greatest of the rows there. -/
theorem best_iff_argmax [DecidableEq ρ] (hkeys : Apart rows user key) {l : List ρ} {u : υ} {c : α}
    (hl : ∀ r, r ∈ l ↔ r ∈ rows ∧ user r = u ∧ home r = c) {r : ρ} :
    (Best rows user key home r ∧ user r = u ∧ home r = c) ↔ l.argmax key = some r := by
  constructor
  · rintro ⟨hbest, huser, hhome⟩
    have hr : r ∈ l := (hl r).mpr ⟨hbest.1, huser, hhome⟩
    cases hmax : l.argmax key with
    | none =>
      rw [List.argmax_eq_none] at hmax
      rw [hmax] at hr
      cases hr
    | some b =>
      obtain ⟨hb, hbuser, hbhome⟩ := (hl b).mp (List.argmax_mem hmax)
      refine congrArg some (hkeys b hb r hbest.1 (hbuser.trans huser.symm) (le_antisymm ?_ ?_))
      · exact hbest.2 b hb (hbuser.trans huser.symm) (hbhome.trans hhome.symm)
      · exact List.le_of_mem_argmax hr hmax
  · intro hmax
    obtain ⟨hr, huser, hhome⟩ := (hl r).mp (List.argmax_mem hmax)
    refine ⟨⟨hr, fun q hq hquser hqhome => ?_⟩, huser, hhome⟩
    exact List.le_of_mem_argmax ((hl q).mpr ⟨hq, hquser.trans huser, hqhome.trans hhome⟩) hmax

end BestOf
