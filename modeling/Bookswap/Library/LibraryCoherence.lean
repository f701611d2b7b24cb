import Bookswap.Guests.GuestCoherence
import Bookswap.Library.LibrarySpec

/-!
# The shelf and the contacts keep the invariant

The owner may set a copy's status by hand only while it is at home and no loan is
exclusive; then nobody has a claim on it (`Coherent.free_at_home`), not even a loss that
was never recovered, since that leaves the book away from home.
-/

namespace Bookswap

open Store

variable {db db' : Db} {now : Time} {userId : UserId} {copyId : CopyId}

/-- **At home and without an exclusive loan, a copy is free.** -/
theorem Db.Coherent.free_at_home (h : db.Coherent) {c : Copy} (hc : c ∈ db.copies)
    (hhome : c.currentHolderId = some c.ownerId) (hex : db.hasExclusiveLoan c.id = false) :
    ∀ l ∈ db.loans, l.copyId = c.id → l.demand (db.log l.id) = none := by
  intro l hl hcopy
  by_contra hne
  obtain ⟨t, ht⟩ := Option.ne_none_iff_exists'.mp hne
  have hfind : db.copies.find? l.copyId = some c := hcopy ▸ Table.find?_of_mem hc
  have hshown := h.demand_shown hl hfind ht
  have hnot : l.status.isExclusive = false := by
    by_contra hs
    have hany : db.hasExclusiveLoan c.id = true :=
      List.any_eq_true.mpr ⟨l, hl, decide_eq_true ⟨hcopy, Bool.not_eq_false _ ▸ hs⟩⟩
    rw [hex] at hany
    cases hany
  -- what is left is a loss, which keeps the book with its borrower
  have hholder : t.currentHolderId = l.borrowerId := by
    unfold Loan.demand at ht
    cases hs : l.status <;> rw [hs] at ht hnot <;> try cases hnot
    all_goals try cases ht
    dsimp only at ht
    split at ht
    · cases ht
    · cases ht
      rfl
  have hown : c.ownerId = l.ownerId := by
    obtain ⟨c', hc', ho⟩ := h.placed l hl
    obtain rfl := Option.some.inj (hc'.symm.trans hfind)
    exact ho
  have hborrower : l.borrowerId = some l.ownerId := by
    rw [← hholder, ← hshown, ← hown]
    exact hhome
  cases hk : l.borrowerKind with
  | registered =>
    obtain ⟨-, ⟨b, hb, hne⟩, -⟩ := (h.sound l hl).parties.registered hk
    exact hne (Option.some.inj (hb.symm.trans hborrower))
  | guest =>
    have hnone : l.borrowerId = none := ((h.sound l hl).parties.guest hk).2.1
    rw [hnone] at hborrower
    cases hborrower

/-- **A new copy keeps the invariant.** -/
theorem addCopy_evolves {req : AddCopyRequest} {id : CopyId} (h : db.Coherent)
    (hok : addCopy now userId req id db = .ok db') : db.Evolves db' := by
  obtain ⟨owner, copies, howner, hins, rfl⟩ := addCopy_writes hok
  exact h.added hins ⟨Or.inl rfl, rfl, rfl⟩ ⟨owner, Table.find?_of_mem (Table.mem_of_find? howner)⟩

/-- **The owner's edits keep the invariant.** -/
theorem updateCopy_evolves {req : UpdateCopyRequest} (h : db.Coherent)
    (hok : updateCopy userId copyId req db = .ok db') : db.Evolves db' := by
  obtain ⟨c, hc, hown, hguard, rfl⟩ := updateCopy_writes hok
  have hid : c.id = copyId := Table.key_of_find? hc
  refine h.shelved hc rfl ?_
  cases hs : req.status with
  | none => exact Or.inl (by simp [Copy.shape, updateCopyEdit, hs])
  | some s =>
    obtain ⟨hhome, hex⟩ := hguard (by rw [hs]; exact Option.some_ne_none s)
    refine Or.inr ⟨?_, fun hidle => ⟨?_, hidle.home, hidle.no_contact⟩⟩
    · rw [← hid] at hex ⊢
      exact h.free_at_home (Table.mem_of_find? hc) (hown ▸ hhome) hex
    · cases s
      · exact Or.inl (by simp [Copy.shape, updateCopyEdit, hs, OwnerCopyStatus.toCopyStatus])
      · exact Or.inr (by simp [Copy.shape, updateCopyEdit, hs, OwnerCopyStatus.toCopyStatus])

/-- **Removing a copy keeps the invariant.** -/
theorem removeCopy_evolves (h : db.Coherent) (hok : removeCopy userId copyId db = .ok db') :
    db.Evolves db' := by
  obtain ⟨hnone, rfl⟩ := removeCopy_writes hok
  refine h.removed fun l hl hcopy => ?_
  have hany : db.hasLoan copyId = true := List.any_eq_true.mpr ⟨l, hl, decide_eq_true hcopy⟩
  rw [hnone] at hany
  cases hany

/-- Putting a copy away, or back, shows nothing. -/
theorem archiveEdit_evolves (h : db.Coherent) (archivedAt : Option Time) :
    db.Evolves { db with copies := db.copies.modify copyId (archiveEdit archivedAt) } := by
  cases hc : db.copies.find? copyId with
  | none =>
    have hsame : db.copies.modify copyId (archiveEdit archivedAt) = db.copies :=
      Table.modify_eq_self fun c hmem hid =>
        absurd hid (Table.find?_eq_none_iff.mp hc c hmem)
    rw [hsame]
    exact h.refl
  | some c => exact h.shelved hc rfl (Or.inl rfl)

/-- **Archiving keeps the invariant.** -/
theorem archiveCopy_evolves (h : db.Coherent)
    (hok : archiveCopy now userId copyId db = .ok db') : db.Evolves db' := by
  rcases archiveCopy_writes hok with rfl | ⟨-, hrivals, rfl⟩
  · exact h.refl
  · have hrejected := h.rejected userId now hrivals
    exact hrejected.trans (archiveEdit_evolves hrejected.coherent (some now))

theorem restoreCopy_evolves (h : db.Coherent) (hok : restoreCopy userId copyId db = .ok db') :
    db.Evolves db' := by
  obtain ⟨-, rfl⟩ := restoreCopy_eq_ok.mp hok
  exact archiveEdit_evolves h none

/-! ## Contacts -/

/-- Contacts that only gain rows or are edited in place are quiet. -/
theorem Db.Quiet.contacts_grow {contacts : Store.Table ExternalBorrower.id}
    (hkeep : ∀ id k, db.contacts.find? id = some k → ∃ k', contacts.find? id = some k') :
    db.Quiet { db with contacts := contacts } :=
  ⟨rfl, rfl, rfl, ⟨[], (List.append_nil _).symm, fun _ hn => nomatch hn⟩,
    ⟨noEdit, (map_noEdit _).symm, fun _ => ⟨rfl, rfl, rfl⟩⟩, hkeep, fun _ u hu => ⟨u, hu⟩⟩

theorem createContact_evolves {aliasName : String} {id : ContactId} (h : db.Coherent)
    (hok : createContact now userId aliasName id db = .ok db') : db.Evolves db' := by
  obtain ⟨row, contacts, hins, rfl⟩ := createContact_writes hok
  refine h.quiet (.contacts_grow fun i k hk => ⟨k, ?_⟩)
  rw [Table.find?_insert hins, if_neg, hk]
  rintro rfl
  rw [Table.find?_fresh hins] at hk
  cases hk

theorem updateAlias_evolves {aliasName : String} {id : ContactId} (h : db.Coherent)
    (hok : updateAlias userId id aliasName db = .ok db') : db.Evolves db' := by
  obtain ⟨f, rfl⟩ := updateAlias_writes hok
  exact h.quiet (.contacts_grow fun i k hk => ⟨f k, (Table.find?_map i).trans (congrArg _ hk)⟩)

/-- Contacts without an active loan may be erased. -/
theorem eraseContacts_evolves {gone : ContactId → Bool} (h : db.Coherent)
    (hidle : ∀ c, gone c = true → db.contactActive c = false) :
    db.Evolves (db.eraseContacts gone) := by
  refine h.erased fun l hl c hc hgone => ?_
  by_contra hex
  have hany : db.contactActive c = true :=
    List.any_eq_true.mpr ⟨l, hl, decide_eq_true ⟨hc, Bool.not_eq_false _ ▸ hex⟩⟩
  rw [hidle c hgone] at hany
  cases hany

/-- **Deleting a contact keeps the invariant.** -/
theorem deleteContact_evolves {id : ContactId} (h : db.Coherent)
    (hok : deleteContact userId id db = .ok db') : db.Evolves db' := by
  obtain ⟨hactive, rfl⟩ := deleteContact_writes hok
  refine eraseContacts_evolves h fun c hc => ?_
  rw [of_decide_eq_true hc]
  exact hactive

/-- **The daily cleanup keeps the invariant.** -/
theorem cleanupContacts_evolves {batch : List ContactId} (h : db.Coherent) :
    db.Evolves (cleanupContacts now batch db) :=
  eraseContacts_evolves h fun _ hc => dueContact_inactive hc

end Bookswap
