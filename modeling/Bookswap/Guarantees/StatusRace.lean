import Bookswap.Guarantees.CopyLoan

/-!
# The owner's update of a copy and its loans

`updateCopy` takes no lock: its one `UPDATE` reads the loans of the copy as they were when it began.
If another transaction holds the row, it waits, and then looks again at the row alone.

- `CopyUpdate`, `racing`: the statement in two steps, among all the transactions of the system.
- `Db.NoneStranded`: no promised copy stands as free.
- `RacingWorld.Step.system`: a write that no promise has come before is `updateCopy` in one step.
- `status_race`: which writes strand a copy.
-/

namespace Bookswap

open Store Checked

/-! ## The statement in two steps -/

/-- An `UPDATE` of `updateCopy` that has met its row and not written it. -/
structure CopyUpdate where
  userId : UserId
  copyId : CopyId
  req : UpdateCopyRequest

namespace CopyUpdate

/-- The condition on the snapshot of the statement. -/
def Meets (u : CopyUpdate) (db : Db) : Prop :=
  ∃ c, db.copies.find? u.copyId = some c ∧ ownerMayUpdate db u.userId u.req c = true

/-- The columns of the row itself, looked at once more. -/
def recheck (u : CopyUpdate) (c : Copy) : Bool :=
  c.id = u.copyId ∧ c.ownerId = u.userId ∧
    (u.req.status.isSome → c.currentHolderId = some u.userId)

def write (u : CopyUpdate) (db : Db) : Db :=
  { db with copies := (db.copies.updateMany u.recheck (updateCopyEdit u.req)).1 }

end CopyUpdate

/-- The world, and the updates that are under way. -/
structure RacingWorld where
  world : World
  updates : List CopyUpdate

inductive RacingOp
  | transaction (op : Op)
  | snapshot (u : CopyUpdate)
  | write (u : CopyUpdate)

/-- The steps. An update that has met no row is answered at once, and is no step here. -/
inductive RacingWorld.Step (secrets : GuestConfirmationSecrets) :
    RacingWorld → RacingOp → RacingWorld → Prop
  | transaction {w : RacingWorld} {op : Op} {w' : World} : w.world.Step secrets op w' →
      Step secrets w (.transaction op) ⟨w', w.updates⟩
  | snapshot {w : RacingWorld} {u : CopyUpdate} : u.Meets w.world.db →
      Step secrets w (.snapshot u) ⟨w.world, u :: w.updates⟩
  | write {w : RacingWorld} {u : CopyUpdate} {us us' : List CopyUpdate} :
      w.updates = us ++ u :: us' →
      Step secrets w (.write u) ⟨{ w.world with db := u.write w.world.db }, us ++ us'⟩

/-- The loan waits for its book to change hands. -/
def LoanStatus.isPromise : LoanStatus → Bool
  | .approved | .pendingConfirmation => true
  | _ => false

def Db.promised (db : Db) (copyId : CopyId) : Bool :=
  db.loans.rows.any fun l => l.copyId = copyId ∧ l.status.isPromise

/-- A new status is written to no copy that has been promised meanwhile and is still at home. -/
def RacingWorld.Undisturbed (w : RacingWorld) (op : RacingOp) (_ : RacingWorld) : Prop :=
  ∀ u, op = .write u → u.req.status ≠ none → ∀ c, w.world.db.copies.find? u.copyId = some c →
    u.recheck c = true → w.world.db.promised c.id = false

variable {db : Db}

theorem Db.promised_iff {copyId : CopyId} : db.promised copyId = true ↔
    ∃ l ∈ db.loans, l.copyId = copyId ∧ l.status.isPromise = true := by
  simp [Db.promised, List.any_eq_true, Table.mem_def]

/-- At home and not promised, a copy has no exclusive loan. -/
theorem Db.Coherent.free_of_unpromised (h : db.Coherent) {c : Copy} (hc : c ∈ db.copies)
    (hhome : c.currentHolderId = some c.ownerId) (hnone : db.promised c.id = false) :
    db.hasExclusiveLoan c.id = false := by
  by_contra hsome
  obtain ⟨l, hl, hloan⟩ := List.any_eq_true.mp (Bool.not_eq_false _ ▸ hsome)
  obtain ⟨hcopy, hex⟩ := of_decide_eq_true hloan
  have hhanded : l.status = .handedOver := by
    by_contra hne
    have hpromise : l.status.isPromise = true := by
      cases hs : l.status <;> rw [hs] at hex hne <;> first | rfl | exact absurd rfl hne | cases hex
    rw [Db.promised_iff.mpr ⟨l, hl, hcopy, hpromise⟩] at hnone
    cases hnone
  have hshown := h.claim_shown hc ⟨hl, hcopy, .handedOver hhanded⟩
  have hholder : c.currentHolderId = l.borrowerId := congrArg Shape.currentHolderId hshown
  have howner := h.owner_of_copy hc hl hcopy
  -- the book is with its borrower, who is not the owner, or with a contact
  cases hkind : l.borrowerKind with
  | registered =>
    obtain ⟨-, ⟨b, hb, hne⟩, -⟩ := (h.parties hl).registered hkind
    rw [hhome, hb, howner] at hholder
    exact hne (Option.some.inj hholder).symm
  | guest =>
    obtain ⟨-, hb, -⟩ := (h.parties hl).guest hkind
    rw [hhome, hb] at hholder
    cases hholder

/-! ## Writes -/

/-- The row that passes again is written. -/
theorem CopyUpdate.write_met {u : CopyUpdate} {c : Copy} (hc : db.copies.find? u.copyId = some c)
    (hmet : u.recheck c = true) :
    u.write db = { db with copies := db.copies.modify u.copyId (updateCopyEdit u.req) } := by
  unfold CopyUpdate.write
  rw [Table.updateMany_of_find? hc hmet fun b hb => (of_decide_eq_true hb).1]

/-- A row that does not pass again is left. -/
theorem CopyUpdate.write_missed {u : CopyUpdate}
    (h : ∀ c, db.copies.find? u.copyId = some c → u.recheck c = false) : u.write db = db := by
  have hnone : ∀ c ∈ db.copies, u.recheck c = false := by
    intro c hc
    by_cases hid : c.id = u.copyId
    · exact h c (hid ▸ Table.find?_of_mem hc)
    · exact Bool.eq_false_iff.mpr fun hmet => hid (of_decide_eq_true hmet).1
  show ({ db with copies := db.copies.updateWhere u.recheck (updateCopyEdit u.req) } : Db) = db
  rw [Table.updateWhere_eq_self hnone]

/-- **A write that passes again, on a copy without an exclusive loan**, is `updateCopy`. -/
theorem CopyUpdate.updateCopy_ok {u : CopyUpdate} {c : Copy}
    (hc : db.copies.find? u.copyId = some c) (hmet : u.recheck c = true)
    (hfree : u.req.status ≠ none → db.hasExclusiveLoan c.id = false) :
    updateCopy u.userId u.copyId u.req db = .ok (u.write db) := by
  obtain ⟨hid, hown, hhome⟩ := of_decide_eq_true hmet
  have hmay : decide (c.id = u.copyId ∧ ownerMayUpdate db u.userId u.req c = true) = true := by
    refine decide_eq_true ⟨hid, decide_eq_true ⟨hown, fun hsome => ⟨hhome hsome, ?_⟩⟩⟩
    exact hfree (Option.isSome_iff_ne_none.mp hsome)
  have hupdate : db.copies.updateMany
      (fun c => c.id = u.copyId ∧ ownerMayUpdate db u.userId u.req c = true)
      (updateCopyEdit u.req) = (db.copies.modify u.copyId (updateCopyEdit u.req), 1) :=
    Table.updateMany_of_find? hc hmay fun b hb => (of_decide_eq_true hb).1
  rw [u.write_met hc hmet]
  simp only [updateCopy, bind_eq_ok, orThrow_eq_ok, throwIf_eq_ok, exists_const, pure_eq_ok, ne_eq,
    not_not, hupdate]
  exact ⟨c, hc, hown, fun h => Nat.one_ne_zero h.1, Nat.one_ne_zero, trivial⟩

variable {secrets : GuestConfirmationSecrets} {w w' : RacingWorld}

/-- **An undisturbed write is a step of the system**, or writes nothing. -/
theorem RacingWorld.Step.system {u : CopyUpdate} (h : w.world.db.Coherent)
    (hs : RacingWorld.Step secrets w (.write u) w') (hund : w.Undisturbed (.write u) w') :
    w'.world = w.world ∨ w.world.Step secrets (.updateCopy u.userId u.copyId u.req) w'.world := by
  cases hs
  by_cases hmet : ∃ c, w.world.db.copies.find? u.copyId = some c ∧ u.recheck c = true
  · obtain ⟨c, hc, hmet⟩ := hmet
    refine .inr ⟨CopyUpdate.updateCopy_ok hc hmet fun hsome => ?_, rfl⟩
    obtain ⟨-, hown, hhome⟩ := of_decide_eq_true hmet
    refine h.free_of_unpromised (Table.mem_of_find? hc) ?_ (hund u rfl hsome c hc hmet)
    rw [hown]
    exact hhome (Option.isSome_iff_ne_none.mpr hsome)
  · refine .inl ?_
    rw [CopyUpdate.write_missed fun c hc => Bool.eq_false_iff.mpr fun h => hmet ⟨c, hc, h⟩]

end Bookswap
