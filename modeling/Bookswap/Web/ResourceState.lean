import Bookswap.Lib.Texts

/-!
# resource-state.ts: what a request is, and what to show

A schema is an object; `schemaIdOf` numbers objects, so here a schema is its number. The key of a
request has its inputs in full (`requestKey_injective`).
-/

namespace Bookswap

/-- `ResourceState` -/
inductive ResourceState (α : Type)
  | loading
  | ready (data : α)
  | error (message : String)
  deriving DecidableEq

/-- What is asked: the path and the schema. -/
structure ResourceInputs where
  path : String
  schema : Nat
  deriving DecidableEq

def requestKey (nonce : Nat) (inputs : ResourceInputs) : String :=
  toString nonce ++ " " ++ toString inputs.schema ++ " " ++ inputs.path

/-- What one generation has left behind. -/
structure ResourceSnapshot (α : Type) where
  key : String
  generation : Nat
  state : ResourceState α
  deriving DecidableEq

def visibleState {α : Type} (snapshot : Option (ResourceSnapshot α)) (key : String)
    (generation : Nat) : ResourceState α :=
  match snapshot with
  | none => .loading
  | some snapshot =>
    if snapshot.key ≠ key then .loading
    else if snapshot.generation ≠ generation then .loading
    else snapshot.state

/-- The data to show: the newest answer, or else the last one. -/
def visibleData {α : Type} (state : ResourceState α) (lastData : Option α) : Option α :=
  match state with
  | .ready data => some data
  | _ => lastData

/-- Something but `loading` is visible only of the snapshot that was asked for. -/
theorem visibleState_ne_loading {α : Type} {snapshot : Option (ResourceSnapshot α)} {key : String}
    {generation : Nat} (h : visibleState snapshot key generation ≠ .loading) :
    ∃ s, snapshot = some s ∧ s.key = key ∧ s.generation = generation ∧
      visibleState snapshot key generation = s.state := by
  cases snapshot with
  | none => exact absurd rfl h
  | some s =>
    unfold visibleState at h ⊢
    dsimp only at h ⊢
    by_cases hkey : s.key = key
    · by_cases hgen : s.generation = generation
      · exact ⟨s, rfl, hkey, hgen, by rw [if_neg (not_not.mpr hkey), if_neg (not_not.mpr hgen)]⟩
      · rw [if_neg (not_not.mpr hkey), if_pos hgen] at h
        exact absurd rfl h
    · rw [if_pos hkey] at h
      exact absurd rfl h

/-! ## Keys -/

theorem requestKey_eq (nonce : Nat) (inputs : ResourceInputs) :
    requestKey nonce inputs =
      toString nonce ++ " " ++ (toString inputs.schema ++ " " ++ inputs.path) := by
  unfold requestKey
  simp only [String.append_assoc]

/-- **A key is its inputs.** -/
theorem requestKey_injective {n m : Nat} {i j : ResourceInputs}
    (h : requestKey n i = requestKey m j) : n = m ∧ i = j := by
  rw [requestKey_eq, requestKey_eq] at h
  obtain ⟨hnonce, hrest⟩ := append_space_injective (space_not_mem_toString n)
    (space_not_mem_toString m) h
  obtain ⟨hschema, hpath⟩ := append_space_injective (space_not_mem_toString i.schema)
    (space_not_mem_toString j.schema) hrest
  refine ⟨toString_injective hnonce, ?_⟩
  cases i
  cases j
  rw [ResourceInputs.mk.injEq]
  exact ⟨hpath, toString_injective hschema⟩

end Bookswap
