import Bookswap.Lib.OrderedMap

/-!
# wishlist.ts: the journal of operations over the server's list

One entry for a work: `pending` while its own request goes on, `committed` until an answer of the
server shows it. What is shown is the newest answer with the journal laid over it
(`isInWishlist_applyOperations`).
-/

namespace Bookswap

open Store

/-- `WishlistItem` of the contract: what the list goes by. -/
structure WishlistItemDto where
  id : String
  workId : String
  deriving DecidableEq

def isInWishlist (items : List WishlistItemDto) (workId : String) : Bool :=
  items.any fun item => item.workId = workId

def withAdded (items : List WishlistItemDto) (item : WishlistItemDto) : List WishlistItemDto :=
  if isInWishlist items item.workId then items else item :: items

def withRemoved (items : List WishlistItemDto) (workId : String) : List WishlistItemDto :=
  items.filter fun item => item.workId ≠ workId

def optimisticWishlistItem (workId : String) : WishlistItemDto := ⟨"optimistic:" ++ workId, workId⟩

inductive WishlistOperationKind
  | add
  | remove
  deriving DecidableEq

inductive WishlistOperationIntent
  | add (item : WishlistItemDto)
  | remove
  deriving DecidableEq

def WishlistOperationIntent.kind : WishlistOperationIntent → WishlistOperationKind
  | .add _ => .add
  | .remove => .remove

structure WishlistCommittedOperation where
  intent : WishlistOperationIntent
  deriving DecidableEq

inductive WishlistOperation
  | pending (intent : WishlistOperationIntent) (previous : Option WishlistCommittedOperation)
  | committed (operation : WishlistCommittedOperation)
  deriving DecidableEq

def WishlistOperation.intent : WishlistOperation → WishlistOperationIntent
  | .pending intent _ => intent
  | .committed operation => operation.intent

abbrev WishlistOperations := OrderedMap String WishlistOperation

/-- The new journal, and whether the operation was started. -/
def beginOperation (operations : WishlistOperations) (workId : String)
    (intent : WishlistOperationIntent) : WishlistOperations × Bool :=
  match operations.get workId with
  | some (.pending ..) => (operations, false)
  | some (.committed existing) =>
    if existing.intent.kind = intent.kind then (operations, false)
    else (operations.set workId (.pending intent (some existing)), true)
  | none => (operations.set workId (.pending intent none), true)

def withCommittedOperation (operations : WishlistOperations) (workId : String) :
    WishlistOperations :=
  match operations.get workId with
  | some (.pending intent _) => operations.set workId (.committed ⟨intent⟩)
  | _ => operations

/-- `pending` gives way to what was there before it. -/
def withRolledBackOperation (operations : WishlistOperations) (workId : String) :
    WishlistOperations :=
  match operations.get workId with
  | some (.pending _ none) => operations.delete workId
  | some (.pending _ (some previous)) => operations.set workId (.committed previous)
  | _ => operations

def isReflectedByServer (operation : WishlistCommittedOperation) (workId : String)
    (serverItems : List WishlistItemDto) : Bool :=
  let present := isInWishlist serverItems workId
  match operation.intent.kind with
  | .add => present
  | .remove => !present

def reconcileOperations (operations : WishlistOperations) (serverItems : List WishlistItemDto) :
    WishlistOperations :=
  operations.filter fun
    | (workId, .committed operation) => !isReflectedByServer operation workId serverItems
    | (_, .pending ..) => true

def applyOperation (items : List WishlistItemDto) :
    String × WishlistOperation → List WishlistItemDto
  | (workId, operation) =>
    match operation.intent with
    | .add item => withAdded items item
    | .remove => withRemoved items workId

def applyOperations (serverItems : List WishlistItemDto) (operations : WishlistOperations) :
    List WishlistItemDto :=
  operations.rows.foldl applyOperation serverItems

/-! ## What the journal shows -/

/-- What an operation means for its work. -/
def WishlistOperationKind.present (kind : WishlistOperationKind) : Bool := kind = .add

/-- The items that a journal adds are those of its works. -/
def WishlistOperations.Addressed (operations : WishlistOperations) : Prop :=
  ∀ workId operation item, operations.get workId = some operation →
    operation.intent = .add item → item.workId = workId

theorem isInWishlist_withAdded (items : List WishlistItemDto) (item : WishlistItemDto)
    (workId : String) :
    isInWishlist (withAdded items item) workId =
      if workId = item.workId then true else isInWishlist items workId := by
  unfold withAdded
  by_cases hw : workId = item.workId
  · subst hw
    rw [if_pos rfl]
    split
    · next h => exact h
    · simp [isInWishlist]
  · rw [if_neg hw]
    split
    · rfl
    · simp [isInWishlist, Ne.symm hw]

theorem isInWishlist_withRemoved (items : List WishlistItemDto) (removed workId : String) :
    isInWishlist (withRemoved items removed) workId =
      if workId = removed then false else isInWishlist items workId := by
  unfold withRemoved isInWishlist
  rw [List.any_filter]
  by_cases hw : workId = removed
  · subst hw
    simp
  · rw [if_neg hw]
    congr 1
    funext item
    by_cases hitem : item.workId = workId
    · simp [hitem, hw]
    · simp [hitem]

/-- An operation says whether its work is in the list, and leaves the others. -/
theorem isInWishlist_applyOperation (items : List WishlistItemDto) {key : String}
    {operation : WishlistOperation} (hitem : ∀ item, operation.intent = .add item → item.workId = key)
    (workId : String) :
    isInWishlist (applyOperation items (key, operation)) workId =
      if workId = key then operation.intent.kind.present else isInWishlist items workId := by
  unfold applyOperation
  dsimp only
  cases hintent : operation.intent with
  | add item =>
    dsimp only
    rw [isInWishlist_withAdded, hitem item hintent]
    rfl
  | remove => exact isInWishlist_withRemoved items key workId

/-- **What is shown of a work** is its entry, or else the server's. -/
theorem isInWishlist_applyOperations (serverItems : List WishlistItemDto)
    {operations : WishlistOperations} (haddr : operations.Addressed) (workId : String) :
    isInWishlist (applyOperations serverItems operations) workId =
      match operations.get workId with
      | some operation => operation.intent.kind.present
      | none => isInWishlist serverItems workId := by
  have hrows : ∀ (rows : List (String × WishlistOperation)) (items : List WishlistItemDto),
      (rows.map Prod.fst).Nodup → (∀ e ∈ rows, ∀ item, e.2.intent = .add item → item.workId = e.1) →
      isInWishlist (rows.foldl applyOperation items) workId =
        match rows.find? (fun e => e.1 = workId) with
        | some e => e.2.intent.kind.present
        | none => isInWishlist items workId := by
    intro rows
    induction rows with
    | nil => exact fun items _ _ => rfl
    | cons e rows ih =>
      intro items hnodup haddr
      obtain ⟨hfresh, hnodup⟩ := List.nodup_cons.mp hnodup
      have hhead := isInWishlist_applyOperation items (haddr e List.mem_cons_self) workId
      rw [List.foldl_cons, ih _ hnodup fun x hx => haddr x (List.mem_cons_of_mem _ hx)]
      by_cases hkey : e.1 = workId
      · have hnone : rows.find? (fun x => x.1 = workId) = none := by
          refine List.find?_eq_none.mpr fun x hx hxkey => hfresh ?_
          rw [hkey, ← of_decide_eq_true hxkey]
          exact List.mem_map_of_mem hx
        rw [hnone, List.find?_cons_of_pos (by simpa using hkey)]
        rw [if_pos hkey.symm] at hhead
        exact hhead
      · rw [List.find?_cons_of_neg (by simpa using hkey)]
        rw [if_neg (Ne.symm hkey)] at hhead
        cases rows.find? fun x => x.1 = workId with
        | none => exact hhead
        | some x => rfl
  have hshown := hrows operations.rows serverItems operations.nodup fun e he item hitem =>
    haddr e.1 e.2 item (OrderedMap.get_eq_some_iff.mpr he) hitem
  unfold applyOperations
  rw [hshown]
  unfold OrderedMap.get Table.find?
  cases operations.rows.find? fun e => e.1 = workId with
  | none => rfl
  | some e => rfl

/-! ## The entries -/

variable {operations : WishlistOperations} {workId : String} {intent : WishlistOperationIntent}

/-- An operation that is started takes the entry of its work, and only that. -/
theorem beginOperation_started (h : (beginOperation operations workId intent).2 = true) :
    ∃ previous, (beginOperation operations workId intent).1 =
        operations.set workId (.pending intent previous) ∧
      operations.get workId = previous.map .committed ∧
      ∀ existing ∈ previous, existing.intent.kind ≠ intent.kind := by
  unfold beginOperation at h ⊢
  split at h
  · cases h
  · next existing hget =>
    split at h
    · cases h
    · next hkind =>
      refine ⟨some existing, by rw [if_neg hkind], hget, fun x hx => ?_⟩
      cases hx
      exact hkind
  · next hget => exact ⟨none, rfl, hget, fun x hx => nomatch hx⟩

theorem get_withCommittedOperation {previous : Option WishlistCommittedOperation}
    (h : operations.get workId = some (.pending intent previous)) (k : String) :
    (withCommittedOperation operations workId).get k =
      if k = workId then some (.committed ⟨intent⟩) else operations.get k := by
  unfold withCommittedOperation
  rw [h]
  exact OrderedMap.get_set operations workId _ k

theorem get_withRolledBackOperation {previous : Option WishlistCommittedOperation}
    (h : operations.get workId = some (.pending intent previous)) (k : String) :
    (withRolledBackOperation operations workId).get k =
      if k = workId then previous.map .committed else operations.get k := by
  unfold withRolledBackOperation
  rw [h]
  cases previous with
  | none => exact OrderedMap.get_delete operations workId k
  | some previous => exact OrderedMap.get_set operations workId _ k

/-- What reconciliation leaves is pending, or not shown by the answer. -/
theorem get_reconcileOperations (operations : WishlistOperations)
    (serverItems : List WishlistItemDto) (k : String) :
    (reconcileOperations operations serverItems).get k = (operations.get k).filter fun
      | .committed operation => !isReflectedByServer operation k serverItems
      | .pending .. => true := by
  unfold reconcileOperations
  rw [OrderedMap.get_filter]
  congr 1
  funext operation
  cases operation <;> rfl

end Bookswap
