import Bookswap.Lib.Lists
import Bookswap.Web.UseWishlist

/-!
# The journal and the requests

The journal has one pending entry for each request in flight, which remembers what to go back to,
and a committed one only for the last success of its work (`Journal`). Kept by a request that is
sent, by its answer and by reconciliation.
-/

namespace Bookswap

open Store

namespace UseWishlist

variable {s s' : UseWishlist} {requests : List WishlistRequest} {confirmed : String → Option Nat}
  {operations : WishlistOperations}

/-- Every request is still there, and asks for the same. -/
def SameRequests (requests requests' : List WishlistRequest) : Prop :=
  ∀ (i : Nat) (r : WishlistRequest), requests[i]? = some r →
    ∃ r' : WishlistRequest, requests'[i]? = some r' ∧ r'.kind = r.kind

theorem SameRequests.append (requests more : List WishlistRequest) :
    SameRequests requests (requests ++ more) := fun _ r h =>
  ⟨r, List.getElem?_append_left (List.getElem?_eq_some_iff.mp h).1 ▸ h, rfl⟩

theorem SameRequests.set {i : Nat} {r : WishlistRequest} (h : requests[i]? = some r)
    (r' : WishlistRequest) (hkind : r'.kind = r.kind) : SameRequests requests (requests.set i r') := by
  intro j x hx
  rw [List.getElem?_set]
  by_cases hij : i = j
  · subst hij
    rw [if_pos rfl, if_pos (List.getElem?_eq_some_iff.mp h).1]
    exact ⟨r', rfl, hkind.trans (congrArg _ (Option.some.inj (h.symm.trans hx)))⟩
  · rw [if_neg hij]
    exact ⟨x, hx, rfl⟩

/-! ## The journal -/

/-- Going back to this entry, or to none, shows what was shown before the request. -/
def Restores (r : WishlistRequest) : Option WishlistCommittedOperation → Prop
  | some previous => r.shown = previous.intent.kind.present
  | none => ∃ data, r.overData = some data ∧ r.shown = isInWishlist data.items r.workId

/-- What the journal of an instance in the tree has. -/
structure Journal (requests : List WishlistRequest) (confirmed : String → Option Nat)
    (operations : WishlistOperations) : Prop where
  flying : ∀ r ∈ requests, r.answer = none → ∃ previous,
    operations.get r.workId = some (.pending (intentOf r.workId r.kind) previous) ∧
      Restores r previous
  pending : ∀ w intent previous, operations.get w = some (.pending intent previous) →
    ∃ r ∈ requests, r.answer = none ∧ r.workId = w ∧ intent = intentOf w r.kind
  committed : ∀ w operation, operations.get w = some (.committed operation) ∨
      (∃ intent, operations.get w = some (.pending intent (some operation))) →
    ∃ (i : Nat) (r : WishlistRequest), confirmed w = some i ∧ requests[i]? = some r ∧
      operation.intent = intentOf w r.kind

theorem workId_of_intentOf {w : String} {kind : WishlistOperationKind} {item : WishlistItemDto}
    (h : intentOf w kind = .add item) : item.workId = w := by
  cases kind with
  | add => cases h; rfl
  | remove => cases h

theorem Journal.addressed (h : Journal requests confirmed operations) : operations.Addressed := by
  intro w operation item hget hintent
  cases operation with
  | pending intent previous =>
    obtain ⟨r, -, -, -, rfl⟩ := h.pending w intent previous hget
    exact workId_of_intentOf hintent
  | committed operation =>
    obtain ⟨_, r, -, -, hop⟩ := h.committed w operation (.inl hget)
    exact workId_of_intentOf (hop.symm.trans hintent)

/-- Reconciliation takes committed entries away. -/
theorem Journal.reconcile (h : Journal requests confirmed operations) (items : List WishlistItemDto) :
    Journal requests confirmed (reconcileOperations operations items) := by
  have hsub : ∀ {w operation}, (reconcileOperations operations items).get w = some operation →
      operations.get w = some operation := fun {w operation} hget => by
    rw [get_reconcileOperations] at hget
    exact (Option.filter_eq_some_iff.mp hget).1
  constructor
  case flying =>
    intro r hr hans
    obtain ⟨previous, hget, hrestores⟩ := h.flying r hr hans
    refine ⟨previous, ?_, hrestores⟩
    rw [get_reconcileOperations, hget]
    rfl
  case pending => exact fun w intent previous hget => h.pending w intent previous (hsub hget)
  case committed =>
    exact fun w operation hget => h.committed w operation (hget.imp hsub fun ⟨i, hi⟩ => ⟨i, hsub hi⟩)

/-- **A request is sent.** -/
theorem Journal.sent (h : Journal requests confirmed operations) (new : WishlistRequest)
    (hans : new.answer = none) {previous : Option WishlistCommittedOperation}
    (hget : operations.get new.workId = previous.map .committed) (hrestores : Restores new previous) :
    Journal (requests ++ [new]) confirmed
        (operations.set new.workId (.pending (intentOf new.workId new.kind) previous)) ∧
      ∀ r ∈ requests, r.answer = none → r.workId ≠ new.workId := by
  have hother : ∀ r ∈ requests, r.answer = none → r.workId ≠ new.workId := by
    intro r hr hfly hw
    obtain ⟨_, hpend, -⟩ := h.flying r hr hfly
    rw [hw, hget] at hpend
    cases previous <;> cases hpend
  refine ⟨?_, hother⟩
  constructor
  case flying =>
    intro r hr hfly
    rw [OrderedMap.get_set]
    rcases List.mem_append.mp hr with hr | hr
    · rw [if_neg (hother r hr hfly)]
      exact h.flying r hr hfly
    · obtain rfl := List.mem_singleton.mp hr
      rw [if_pos rfl]
      exact ⟨previous, rfl, hrestores⟩
  case pending =>
    intro w intent prev hpend
    rw [OrderedMap.get_set] at hpend
    by_cases hw : w = new.workId
    · rw [if_pos hw, Option.some.injEq, WishlistOperation.pending.injEq] at hpend
      refine ⟨new, List.mem_append_right _ (List.mem_singleton_self _), hans, hw.symm, ?_⟩
      rw [hw]
      exact hpend.1.symm
    · rw [if_neg hw] at hpend
      obtain ⟨r, hr, hrest⟩ := h.pending w intent prev hpend
      exact ⟨r, List.mem_append_left _ hr, hrest⟩
  case committed =>
    intro w operation hcom
    rw [OrderedMap.get_set] at hcom
    have hold : ∃ (i : Nat) (r : WishlistRequest), confirmed w = some i ∧ requests[i]? = some r ∧
        operation.intent = intentOf w r.kind := by
      by_cases hw : w = new.workId
      · rw [if_pos hw] at hcom
        rcases hcom with hcom | ⟨intent, hcom⟩
        · cases hcom
        · rw [Option.some.injEq, WishlistOperation.pending.injEq] at hcom
          refine h.committed w operation (Or.inl ?_)
          rw [hw, hget, hcom.2]
          rfl
      · rw [if_neg hw] at hcom
        exact h.committed w operation hcom
    obtain ⟨i, r, hi, hr, hop⟩ := hold
    exact ⟨i, r, hi, List.getElem?_append_left (List.getElem?_eq_some_iff.mp hr).1 ▸ hr, hop⟩

/-- **A request is answered**: its entry gives way to a committed one, or to none. -/
theorem Journal.answered (h : Journal requests confirmed operations)
    (hsingle : ((requests.filter WishlistRequest.inFlight).map WishlistRequest.workId).Nodup)
    {i : Nat} {r : WishlistRequest} (hr : requests[i]? = some r) (hfly : r.answer = none)
    (r' : WishlistRequest) (hkind : r'.kind = r.kind) (hans : r'.inFlight = false)
    {operations' : WishlistOperations} {confirmed' : String → Option Nat}
    {entry : Option WishlistCommittedOperation}
    (hget : ∀ k, operations'.get k = if k = r.workId then entry.map .committed else operations.get k)
    (hconfirmed : ∀ k, k ≠ r.workId → confirmed' k = confirmed k)
    (hentry : ∀ operation ∈ entry, ∃ (j : Nat) (x : WishlistRequest),
      confirmed' r.workId = some j ∧ requests[j]? = some x ∧
        operation.intent = intentOf r.workId x.kind) :
    Journal (requests.set i r') confirmed' operations' := by
  have hperm := filter_set_perm (p := WishlistRequest.inFlight) hr (decide_eq_true hfly) hans
  have hrest : ∀ x ∈ (requests.set i r').filter WishlistRequest.inFlight, x.workId ≠ r.workId := by
    have hnodup := (hperm.map WishlistRequest.workId).nodup_iff.mp hsingle
    rw [List.map_cons, List.nodup_cons] at hnodup
    exact fun x hx hw => hnodup.1 (hw ▸ List.mem_map_of_mem hx)
  constructor
  case flying =>
    intro x hx hxfly
    have hxfilter : x ∈ (requests.set i r').filter WishlistRequest.inFlight :=
      List.mem_filter.mpr ⟨hx, decide_eq_true hxfly⟩
    have hxold := List.mem_filter.mp (hperm.mem_iff.mpr (List.mem_cons_of_mem _ hxfilter))
    rw [hget, if_neg (hrest x hxfilter)]
    exact h.flying x hxold.1 hxfly
  case pending =>
    intro w intent previous hpend
    rw [hget] at hpend
    by_cases hw : w = r.workId
    · rw [if_pos hw] at hpend
      cases entry <;> cases hpend
    · rw [if_neg hw] at hpend
      obtain ⟨x, hx, hxfly, rfl, hintent⟩ := h.pending w intent previous hpend
      have hmem := hperm.mem_iff.mp (List.mem_filter.mpr ⟨hx, decide_eq_true hxfly⟩)
      rcases List.mem_cons.mp hmem with rfl | hmem
      · exact absurd rfl hw
      · exact ⟨x, (List.mem_filter.mp hmem).1, hxfly, rfl, hintent⟩
  case committed =>
    intro w operation hcom
    have hold : ∃ (j : Nat) (x : WishlistRequest), confirmed' w = some j ∧ requests[j]? = some x ∧
        operation.intent = intentOf w x.kind := by
      rw [hget] at hcom
      by_cases hw : w = r.workId
      · rw [if_pos hw] at hcom
        rw [hw]
        refine hentry operation ?_
        rcases hcom with hcom | ⟨_, hcom⟩
        · cases entry with
          | none => cases hcom
          | some c => cases hcom; rfl
        · cases entry <;> cases hcom
      · rw [if_neg hw] at hcom
        rw [hconfirmed w hw]
        exact h.committed w operation hcom
    obtain ⟨j, x, hj, hx, hop⟩ := hold
    obtain ⟨x', hx', hxkind⟩ := SameRequests.set hr r' hkind j x hx
    exact ⟨j, x', hj, hx', hxkind ▸ hop⟩

end UseWishlist

end Bookswap
