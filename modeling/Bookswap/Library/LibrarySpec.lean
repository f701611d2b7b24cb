import Bookswap.ExternalBorrowers.ExternalBorrowersService
import Bookswap.Library.LibraryService
import Bookswap.Loans.LoanSpec

/-!
# What the transactions on the shelf and on contacts do

The counterpart of `Loans.LoanSpec` for `LibraryService` and `ExternalBorrowersService`:
what a committed transaction had checked, and what it wrote.
-/

namespace Bookswap

open Store Checked

variable {db db' : Db} {now : Time} {userId : UserId} {copyId : CopyId}

/-! ## Copies -/

theorem addCopy_writes {req : AddCopyRequest} {id : CopyId}
    (h : addCopy now userId req id db = .ok db') :
    ∃ owner copies, db.users.find? userId = some owner ∧
      db.copies.insert (copyRow now owner req id) = some copies ∧
      db' = { db with copies := copies } := by
  simp only [addCopy, bind_eq_ok, orThrow_eq_ok, pure_eq_ok] at h
  obtain ⟨owner, howner, copies, hins, rfl⟩ := h
  exact ⟨owner, copies, howner, hins, rfl⟩

/-- **updateCopy** edits one row of the owner; a new status needs the copy in the owner's
hands and no exclusive loan. -/
theorem updateCopy_writes {req : UpdateCopyRequest}
    (h : updateCopy userId copyId req db = .ok db') :
    ∃ copy, db.copies.find? copyId = some copy ∧ copy.ownerId = userId ∧
      (req.status ≠ none → copy.currentHolderId = some userId ∧
        db.hasExclusiveLoan copyId = false) ∧
      db' = { db with copies := db.copies.modify copyId (updateCopyEdit req) } := by
  simp only [updateCopy, bind_eq_ok, orThrow_eq_ok, throwIf_eq_ok, exists_const, pure_eq_ok,
    ne_eq, not_not] at h
  obtain ⟨copy, hcopy, hown, -, hcount, rfl⟩ := h
  -- some row was met, and it can only be the copy
  obtain ⟨c, hc, hp⟩ := List.countP_pos_iff.mp (Nat.pos_of_ne_zero hcount)
  have hid := (of_decide_eq_true hp).1
  have hkey := Table.key_of_find? hcopy
  obtain rfl : c = copy := Table.eq_of_key_eq hc (Table.mem_of_find? hcopy) (hid.trans hkey.symm)
  have hmay := of_decide_eq_true (of_decide_eq_true hp).2
  refine ⟨c, hcopy, hown, fun hs => ?_, ?_⟩
  · have := hmay.2 (Option.isSome_iff_ne_none.mpr hs)
    rwa [hkey] at this
  · rw [Table.updateMany_of_find? hcopy hp fun b hb => (of_decide_eq_true hb).1]

theorem lockOwnCopy_eq_ok {copy : Copy} :
    lockOwnCopy db userId copyId = .ok copy ↔
      db.copies.find? copyId = some copy ∧ copy.ownerId = userId := by
  simp only [lockOwnCopy, bind_eq_ok, orThrow_eq_ok, throwIf_eq_ok, exists_const, pure_eq_ok,
    ne_eq, not_not]
  constructor
  · rintro ⟨c, hc, hown, rfl⟩
    exact ⟨hc, hown⟩
  · rintro ⟨hc, hown⟩
    exact ⟨copy, hc, hown, rfl⟩

theorem removeCopy_writes (h : removeCopy userId copyId db = .ok db') :
    db.hasLoan copyId = false ∧
      db' = { db with copies := db.copies.filter fun c => c.id ≠ copyId } := by
  simp only [removeCopy, bind_eq_ok, throwIf_eq_ok, exists_const, pure_eq_ok,
    Bool.not_eq_true] at h
  obtain ⟨copy, -, hloan, rfl⟩ := h
  exact ⟨hloan, rfl⟩

/-- Rejecting on archiving is rejecting every rival. -/
theorem rejectOnArchive_writes (h : rejectOnArchive now userId copyId db = .ok db') :
    (∀ l ∈ db.rivals copyId none, l.borrowerId ≠ none) ∧
      db' = db.withRejected copyId none userId now := by
  simp only [rejectOnArchive, bind_eq_ok, throwIf_eq_ok, exists_const, rejectionNotices_eq_ok,
    pure_eq_ok] at h
  obtain ⟨-, notices, ⟨hb, rfl⟩, rfl⟩ := h
  have hloans := @Db.updateMany_rivals db copyId none userId now
  exact ⟨hb, by rw [hloans]; rfl⟩

/-- **archiveCopy** puts an unoccupied copy away and rejects what waits for it. -/
theorem archiveCopy_writes (h : archiveCopy now userId copyId db = .ok db') :
    db' = db ∨ (db.hasExclusiveLoan copyId = false ∧
      (∀ l ∈ db.rivals copyId none, l.borrowerId ≠ none) ∧
      db' = { db.withRejected copyId none userId now with
        copies := db.copies.modify copyId (archiveEdit (some now)) }) := by
  obtain ⟨copy, -, h⟩ := bind_eq_ok.mp h
  by_cases harch : copy.archivedAt ≠ none
  · rw [if_pos harch, pure_eq_ok] at h
    exact Or.inl h.symm
  · rw [if_neg harch] at h
    simp only [bind_eq_ok, throwIf_eq_ok, exists_const, pure_eq_ok, Bool.not_eq_true] at h
    obtain ⟨hex, db₁, hrej, rfl⟩ := h
    obtain ⟨hb, rfl⟩ := rejectOnArchive_writes hrej
    exact Or.inr ⟨hex, hb, rfl⟩

theorem restoreCopy_eq_ok :
    restoreCopy userId copyId db = .ok db' ↔
      (∃ copy, db.copies.find? copyId = some copy ∧ copy.ownerId = userId) ∧
        db' = { db with copies := db.copies.modify copyId (archiveEdit none) } := by
  simp only [restoreCopy, bind_eq_ok, lockOwnCopy_eq_ok, pure_eq_ok]
  constructor
  · rintro ⟨copy, hc, rfl⟩
    exact ⟨⟨copy, hc⟩, rfl⟩
  · rintro ⟨⟨copy, hc⟩, rfl⟩
    exact ⟨copy, hc, rfl⟩

/-! ## Contacts -/

theorem createContact_writes {aliasName : String} {id : ContactId}
    (h : createContact now userId aliasName id db = .ok db') :
    ∃ row contacts, db.contacts.insert row = some contacts ∧
      db' = { db with contacts := contacts } := by
  simp only [createContact, bind_eq_ok, orThrow_eq_ok, pure_eq_ok] at h
  obtain ⟨contacts, hins, rfl⟩ := h
  exact ⟨_, contacts, hins, rfl⟩

theorem updateAlias_writes {aliasName : String} {id : ContactId}
    (h : updateAlias userId id aliasName db = .ok db') :
    ∃ f : Table.Edit ExternalBorrower.id, db' = { db with contacts := db.contacts.map f } := by
  simp only [updateAlias, bind_eq_ok, throwIf_eq_ok, exists_const, pure_eq_ok] at h
  obtain ⟨-, rfl⟩ := h
  exact ⟨_, rfl⟩

theorem deleteContact_writes {id : ContactId} (h : deleteContact userId id db = .ok db') :
    db.contactActive id = false ∧ db' = db.eraseContacts (· = id) := by
  simp only [deleteContact, bind_eq_ok, orThrow_eq_ok, throwIf_eq_ok, exists_const, pure_eq_ok,
    Bool.not_eq_true] at h
  obtain ⟨contact, -, -, hactive, -, rfl⟩ := h
  exact ⟨hactive, rfl⟩

/-- An inactive contact is all a cleanup erases. -/
theorem dueContact_inactive {batch : List ContactId} {id : ContactId}
    (h : db.dueContact now batch id = true) : db.contactActive id = false :=
  (of_decide_eq_true h).2.2

end Bookswap
