import Mathlib.Data.List.Basic
import Mathlib.Logic.Relation

/-!
# Classes by overwriting labels

A member's label names its class, and a group of members is joined by writing one label to all of
them. Nothing else is touched, so a member that is not listed keeps its old label: a class stays
whole only if, where one of its members gets another label, all of them do (`Absorbs`).

- `Sound`: members that were joined have one label, which is its own.
- `Sound.relabel`, `Sound.absorbs`: a group keeps the classes whole exactly when it absorbs the
  classes it takes members of.
-/

namespace Labels

universe u

variable {ι : Type u}

/-- One label for all of a group. -/
def relabel [DecidableEq ι] (labels : ι → Option ι) (key : ι) (listed : List ι) : ι → Option ι :=
  fun i => if i ∈ listed then some key else labels i

/-- A member without a label stands for itself. -/
def resolve (labels : ι → Option ι) (i : ι) : ι := (labels i).getD i

/-- Members of one group, and of groups that share members. -/
def Linked (groups : List (List ι)) : ι → ι → Prop :=
  Relation.EqvGen fun i j => ∃ g ∈ groups, i ∈ g ∧ j ∈ g

/-- Where a group takes a member of another class, it takes the whole class. -/
def Absorbs (labels : ι → Option ι) (key : ι) (listed : List ι) : Prop :=
  ∀ i ∈ listed, ∀ k, labels i = some k → k ≠ key → ∀ j, labels j = some k → j ∈ listed

structure Sound (groups : List (List ι)) (labels : ι → Option ι) : Prop where
  together : ∀ g ∈ groups, ∀ i ∈ g, ∀ j ∈ g, labels i = labels j
  known : ∀ g ∈ groups, ∀ i ∈ g, labels i ≠ none
  own : ∀ i k, labels i = some k → labels k = some k
  linked : ∀ i k, labels i = some k → Linked groups i k

variable {groups : List (List ι)} {labels : ι → Option ι} {key : ι} {listed : List ι} {i j k : ι}

theorem Linked.mono {groups' : List (List ι)} (h : groups ⊆ groups') (hij : Linked groups i j) :
    Linked groups' i j := by
  induction hij with
  | rel i j hmem =>
    obtain ⟨g, hg, hmem⟩ := hmem
    exact .rel i j ⟨g, h hg, hmem⟩
  | refl i => exact .refl i
  | symm i j _ ih => exact .symm i j ih
  | trans i j k _ _ ihij ihjk => exact .trans i j k ihij ihjk

theorem Linked.of_mem {g : List ι} (hg : g ∈ groups) (hi : i ∈ g) (hj : j ∈ g) :
    Linked groups i j := .rel _ _ ⟨g, hg, hi, hj⟩

theorem Sound.nil : Sound [] (fun _ : ι => none) :=
  ⟨fun _ hg => (nomatch hg), fun _ hg => (nomatch hg), fun _ _ h => (nomatch h),
    fun _ _ h => (nomatch h)⟩

/-- Joined members have one label. -/
theorem Sound.eq_of_linked (h : Sound groups labels) (hij : Linked groups i j) :
    labels i = labels j := by
  induction hij with
  | rel i j hmem =>
    obtain ⟨g, hg, hi, hj⟩ := hmem
    exact h.together g hg i hi j hj
  | refl i => rfl
  | symm i j _ ih => exact ih.symm
  | trans i j k _ _ ihij ihjk => exact ihij.trans ihjk

/-- And two members with one label were joined. -/
theorem Sound.linked_of_eq (h : Sound groups labels) (hi : labels i = some k)
    (hj : labels j = some k) : Linked groups i j :=
  .trans _ _ _ (h.linked i k hi) (.symm _ _ (h.linked j k hj))

theorem Sound.resolve_eq (h : Sound groups labels) (hij : Linked groups i j) (hi : labels i ≠ none) :
    resolve labels i = resolve labels j := by
  obtain ⟨k, hk⟩ := Option.ne_none_iff_exists'.mp hi
  unfold resolve
  rw [← h.eq_of_linked hij, hk]
  rfl

/-- Linked members have labels, or are one. -/
theorem Sound.known_of_linked (h : Sound groups labels) (hij : Linked groups i j) :
    i = j ∨ labels i ≠ none := by
  induction hij with
  | rel i j hmem =>
    obtain ⟨g, hg, hi, hj⟩ := hmem
    exact Or.inr (h.known g hg i hi)
  | refl i => exact Or.inl rfl
  | symm i j hij ih =>
    refine ih.imp Eq.symm fun hi => ?_
    rwa [← h.eq_of_linked hij]
  | trans i j k hij _ ihij ihjk =>
    rcases ihij with rfl | hi
    · exact ihjk
    · exact Or.inr hi

theorem Sound.resolve_linked (h : Sound groups labels) (hij : Linked groups i j) :
    resolve labels i = resolve labels j := by
  rcases h.known_of_linked hij with rfl | hi
  · rfl
  · exact h.resolve_eq hij hi

variable [DecidableEq ι]

theorem relabel_of_mem (h : i ∈ listed) : relabel labels key listed i = some key := if_pos h

theorem relabel_of_not_mem (h : i ∉ listed) : relabel labels key listed i = labels i := if_neg h

/-- **A group that absorbs keeps the classes whole.** -/
theorem Sound.relabel (h : Sound groups labels) (hkey : key ∈ listed)
    (habsorbs : Absorbs labels key listed) :
    Sound (groups ++ [listed]) (relabel labels key listed) := by
  -- a class that is touched is the key's, or is taken whole
  have hstays : ∀ {i j k}, labels i = some k → labels j = some k → i ∈ listed → j ∉ listed →
      k = key := fun hi hj hmem hnot =>
    by_contra fun hne => hnot (habsorbs _ hmem _ hi hne _ hj)
  have hsame : ∀ {i j}, labels i = labels j → labels i ≠ none →
      Labels.relabel labels key listed i = Labels.relabel labels key listed j := by
    intro i j heq hknown
    obtain ⟨k, hi⟩ := Option.ne_none_iff_exists'.mp hknown
    have hj : labels j = some k := heq ▸ hi
    by_cases hmi : i ∈ listed
    · by_cases hmj : j ∈ listed
      · rw [relabel_of_mem hmi, relabel_of_mem hmj]
      · rw [relabel_of_mem hmi, relabel_of_not_mem hmj, hj, hstays hi hj hmi hmj]
    · by_cases hmj : j ∈ listed
      · rw [relabel_of_not_mem hmi, relabel_of_mem hmj, hi, hstays hj hi hmj hmi]
      · rw [relabel_of_not_mem hmi, relabel_of_not_mem hmj, heq]
  constructor
  case together =>
    intro g hg i hi j hj
    rcases List.mem_append.mp hg with hg | hg
    · exact hsame (h.together g hg i hi j hj) (h.known g hg i hi)
    · obtain rfl := List.mem_singleton.mp hg
      rw [relabel_of_mem hi, relabel_of_mem hj]
  case known =>
    intro g hg i hi
    by_cases hmi : i ∈ listed
    · rw [relabel_of_mem hmi]
      exact Option.some_ne_none _
    · rw [relabel_of_not_mem hmi]
      rcases List.mem_append.mp hg with hg | hg
      · exact h.known g hg i hi
      · exact absurd (List.mem_singleton.mp hg ▸ hi) hmi
  case own =>
    intro i k hi
    by_cases hmi : i ∈ listed
    · rw [relabel_of_mem hmi] at hi
      cases hi
      exact relabel_of_mem hkey
    · rw [relabel_of_not_mem hmi] at hi
      have hk := h.own i k hi
      by_cases hmk : k ∈ listed
      · rw [relabel_of_mem hmk, hstays hk hi hmk hmi]
      · rw [relabel_of_not_mem hmk, hk]
  case linked =>
    intro i k hi
    by_cases hmi : i ∈ listed
    · rw [relabel_of_mem hmi] at hi
      cases hi
      exact .of_mem (List.mem_append_right _ (List.mem_singleton_self _)) hmi hkey
    · rw [relabel_of_not_mem hmi] at hi
      exact (h.linked i k hi).mono (List.subset_append_left _ _)

/-- **And only such a group does.** -/
theorem Sound.absorbs (h : Sound groups labels)
    (hwhole : ∀ i j, Linked (groups ++ [listed]) i j →
      resolve (Labels.relabel labels key listed) i = resolve (Labels.relabel labels key listed) j) :
    Absorbs labels key listed := by
  intro i hi k hik hne j hjk
  by_contra hj
  have hlinked : Linked (groups ++ [listed]) i j :=
    (h.linked_of_eq hik hjk).mono (List.subset_append_left _ _)
  have hsame := hwhole i j hlinked
  unfold resolve at hsame
  rw [relabel_of_mem hi, relabel_of_not_mem hj, hjk] at hsame
  exact hne hsame.symm

end Labels
