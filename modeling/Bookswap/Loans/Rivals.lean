import Bookswap.Lib.Checked
import Bookswap.Schema

/-!
# Rejecting the rivals of a handover

When a copy is promised or handed over, the other requests that wait for it are
rejected, each with its own `LOAN_REJECTED`. The source does this in two places,
`LoanService.rejectRivals` (which spares the loan just approved) and
`GuestLoanService.rejectRequestedRivals`; the loop is one, `rejectRequested`, and
the two are its instances.

- `Db.withRejected`: what the loop leaves behind.
- `rejectRequested_eq_ok`: it succeeds exactly when every rival has a borrower, and
  leaves that. The re-reading after the update, and its comparison of counts, never
  fails on one snapshot (`reread_eq`).
-/

namespace Bookswap

open Store Checked

/-- `assertSingleRow`: the conditional update must have met its row. -/
def assertSingleRow (count : Nat) : Tx Unit :=
  throwIf (count ≠ 1)
    (apiError .conflict "Позичання щойно змінив хтось інший — оновіть сторінку" 409)

/-- `REQUEST_FLOW_REQUESTED`: a request that waits for the owner's answer. -/
def Loan.isRequestFlowRequested (l : Loan) : Bool :=
  l.status = .requested ∧ l.origin = .requested ∧ l.borrowerKind = .registered

/-- The rivals on a copy; `spared` is the loan that must stay. -/
def Loan.isRival (copyId : CopyId) (spared : Option LoanId) (l : Loan) : Bool :=
  l.copyId = copyId ∧ l.isRequestFlowRequested ∧ some l.id ≠ spared

theorem Loan.isRequestFlowRequested_of_isRival {copyId : CopyId} {spared : Option LoanId}
    {l : Loan} (h : l.isRival copyId spared = true) : l.isRequestFlowRequested = true :=
  (of_decide_eq_true h).2.1

/-- The rivals on a copy. -/
def Db.rivals (db : Db) (copyId : CopyId) (spared : Option LoanId) : List Loan :=
  db.loans.rows.filter (Loan.isRival copyId spared)

/-- The columns an automatic rejection writes. -/
def Loan.rejectedAt (now : Time) : Table.Edit Loan.id where
  toFun l := { l with status := .rejected, respondedAt := some now }
  keeps _ := rfl

/-- The notice of a rejection: its payload names the rejected loan. -/
def rejectionNotice (copyId : CopyId) (actorId : UserId) (loanId : LoanId)
    (borrowerId : UserId) : Notification :=
  ⟨borrowerId, .loanRejected, .loan loanId copyId actorId⟩

/-- The notices of the rejected, one each; a request always has a registered borrower. -/
def rejectionNotices (copyId : CopyId) (actorId : UserId) (rejected : List Loan) :
    Tx (List Notification) :=
  rejected.mapM fun rival =>
    orThrow (rival.borrowerId.map (rejectionNotice copyId actorId rival.id))
      (Failure.internal "REQUESTED без зареєстрованого позичальника")

/-- `rejectRivals` / `rejectRequestedRivals` (loan.service.ts:787, guest-loan.service.ts:262). -/
def rejectRequested (copyId : CopyId) (spared : Option LoanId) (actorId : UserId) (now : Time)
    (db : Db) : Tx Db := do
  let rivals := db.rivals copyId spared
  if rivals.isEmpty then
    return db
  let rivalIds := rivals.map Loan.id
  let (loans, _) := db.loans.updateMany
    (fun l => l.id ∈ rivalIds ∧ l.isRequestFlowRequested) (Loan.rejectedAt now)
  let rejected := loans.rows.filter fun l =>
    l.id ∈ rivalIds ∧ l.status = .rejected ∧ l.respondedAt = some now
  throwIf (rejected.length ≠ rivals.length)
    (.internal "Конкурентні запити змінилися під блокуванням")
  let notices ← rejectionNotices copyId actorId rejected
  return { db with loans := loans, notifications := db.notifications ++ notices }

/-- `LoanService.rejectRivals` -/
def rejectRivals (copyId : CopyId) (approvedLoanId : LoanId) (actorId : UserId) (now : Time)
    (db : Db) : Tx Db :=
  rejectRequested copyId (some approvedLoanId) actorId now db

/-- `GuestLoanService.rejectRequestedRivals` -/
def rejectRequestedRivals (copyId : CopyId) (actorId : UserId) (now : Time) (db : Db) : Tx Db :=
  rejectRequested copyId none actorId now db

namespace Db

/-- What rejecting the rivals leaves behind: their rows rejected now, and one notice to
each borrower. -/
def withRejected (db : Db) (copyId : CopyId) (spared : Option LoanId) (actorId : UserId)
    (now : Time) : Db :=
  { db with
    loans := db.loans.updateWhere (Loan.isRival copyId spared) (Loan.rejectedAt now)
    notifications := db.notifications ++ (db.rivals copyId spared).filterMap fun l =>
      l.borrowerId.map (rejectionNotice copyId actorId l.id) }

/-- The rivals rejected under a condition. -/
def withRejectedWhen (db : Db) (c : Bool) (copyId : CopyId) (spared : Option LoanId)
    (actorId : UserId) (now : Time) : Db :=
  if c then db.withRejected copyId spared actorId now else db

variable {db db' : Db} {copyId : CopyId} {spared : Option LoanId} {actorId : UserId} {now : Time}

theorem mem_rivals {l : Loan} :
    l ∈ db.rivals copyId spared ↔ l ∈ db.loans ∧ l.isRival copyId spared = true := by
  simp [rivals, Table.mem_def]

/-- Membership by id among the rivals is being a rival, for the rows of the table. -/
theorem id_mem_rivals {l : Loan} (hl : l ∈ db.loans) :
    l.id ∈ (db.rivals copyId spared).map Loan.id ↔ l.isRival copyId spared = true := by
  constructor
  · intro h
    obtain ⟨r, hr, hid⟩ := List.mem_map.mp h
    obtain ⟨hmem, hrival⟩ := mem_rivals.mp hr
    rwa [Table.eq_of_key_eq hl hmem hid.symm]
  · intro h
    exact List.mem_map.mpr ⟨l, mem_rivals.mpr ⟨hl, h⟩, rfl⟩

/-- On one snapshot the conditional update meets exactly the rivals. -/
theorem updateMany_rivals :
    (db.loans.updateMany (fun l => l.id ∈ (db.rivals copyId spared).map Loan.id ∧
      l.isRequestFlowRequested) (Loan.rejectedAt now)).1 =
      (db.withRejected copyId spared actorId now).loans := by
  refine Table.updateWhere_congr fun l hl => ?_
  rw [Bool.eq_iff_iff, decide_eq_true_iff, id_mem_rivals hl]
  exact ⟨fun h => h.1, fun h => ⟨h, Loan.isRequestFlowRequested_of_isRival h⟩⟩

/-- The re-reading finds the rivals again, rejected. -/
theorem reread_eq :
    (db.withRejected copyId spared actorId now).loans.rows.filter (fun l =>
      l.id ∈ (db.rivals copyId spared).map Loan.id ∧ l.status = .rejected ∧
        l.respondedAt = some now) =
      (db.rivals copyId spared).map (Loan.rejectedAt now) := by
  refine Table.filter_rows_updateWhere fun l hl => ?_
  have hid := @id_mem_rivals db copyId spared l hl
  by_cases hr : l.isRival copyId spared = true
  · rw [if_pos hr, hr]
    exact decide_eq_true ⟨hid.mpr hr, rfl, rfl⟩
  · rw [if_neg hr, Bool.eq_false_iff.mpr hr]
    exact decide_eq_false fun h => hr (hid.mp h.1)

/-- With no rival there is nothing to reject. -/
theorem withRejected_of_no_rival (h : db.rivals copyId spared = []) :
    db.withRejected copyId spared actorId now = db := by
  have hloans : db.loans.updateWhere (Loan.isRival copyId spared) (Loan.rejectedAt now) = db.loans :=
    Table.updateWhere_eq_self fun l hl => Bool.eq_false_iff.mpr fun hr => by
      have hmem := mem_rivals.mpr ⟨hl, hr⟩
      rw [h] at hmem
      cases hmem
  rw [withRejected, hloans, h, List.filterMap_nil, List.append_nil]

end Db

/-- The notices exist exactly when every rejected request has a borrower. -/
theorem rejectionNotices_eq_ok {copyId : CopyId} {actorId : UserId} {rejected : List Loan}
    {notices : List Notification} :
    rejectionNotices copyId actorId rejected = .ok notices ↔
      (∀ l ∈ rejected, l.borrowerId ≠ none) ∧
        notices = rejected.filterMap fun l =>
          l.borrowerId.map (rejectionNotice copyId actorId l.id) := by
  rw [rejectionNotices, mapM_orThrow_eq_ok]
  induction rejected generalizing notices with
  | nil => cases notices <;> simp
  | cons l ls ih =>
    cases hb : l.borrowerId with
    | none => cases notices <;> simp [hb]
    | some b =>
      cases notices with
      | nil => simp [hb]
      | cons n ns =>
        simp only [List.map_cons, hb, Option.map_some, List.cons.injEq, Option.some.injEq, ih,
          List.mem_cons, forall_eq_or_imp, ne_eq, reduceCtorEq, not_false_eq_true, true_and,
          List.filterMap_cons]
        constructor
        · rintro ⟨hn, hbs, hns⟩
          exact ⟨hbs, hn.symm, hns⟩
        · rintro ⟨hbs, hn, hns⟩
          exact ⟨hn.symm, hbs, hns⟩

/-- **The loop of rejections** succeeds exactly when every rival has a borrower. -/
theorem rejectRequested_eq_ok {db db' : Db} {copyId : CopyId} {spared : Option LoanId}
    {actorId : UserId} {now : Time} :
    rejectRequested copyId spared actorId now db = .ok db' ↔
      (∀ l ∈ db.rivals copyId spared, l.borrowerId ≠ none) ∧
        db' = db.withRejected copyId spared actorId now := by
  unfold rejectRequested
  by_cases hempty : (db.rivals copyId spared).isEmpty = true
  · rw [if_pos hempty, pure_eq_ok]
    have hnil := List.isEmpty_iff.mp hempty
    rw [Db.withRejected_of_no_rival hnil, hnil]
    simp [eq_comm]
  · have hloans := @Db.updateMany_rivals db copyId spared actorId now
    have hread := @Db.reread_eq db copyId spared actorId now
    rw [← hloans] at hread
    rw [if_neg hempty]
    simp only [bind_eq_ok, throwIf_eq_ok, pure_eq_ok, exists_const, rejectionNotices_eq_ok]
    rw [hread]
    constructor
    · rintro ⟨-, notices, ⟨hb, rfl⟩, rfl⟩
      refine ⟨fun l hl => List.forall_mem_map.mp hb l hl, ?_⟩
      rw [hloans, List.filterMap_map]
      rfl
    · rintro ⟨hb, rfl⟩
      refine ⟨by simp, _, ⟨List.forall_mem_map.mpr hb, rfl⟩, ?_⟩
      rw [hloans, List.filterMap_map]
      rfl

/-- Rejecting the rivals after a loan that is none of them was written, and its copy, is
rejecting them before. -/
theorem rejectRequested_modified {db db' : Db} {copyId : CopyId} {spared : Option LoanId}
    {actorId : UserId} {now : Time} {c : Bool} {id : LoanId} {f : Table.Edit Loan.id}
    {copies : Table Copy.id} (hnot : ∀ l ∈ db.loans, l.id = id →
      l.isRival copyId spared = false ∧ (f l).isRival copyId spared = false) :
    (if c then rejectRequested copyId spared actorId now
        { db with loans := db.loans.modify id f, copies := copies }
      else pure { db with loans := db.loans.modify id f, copies := copies }) = .ok db' ↔
      (c = true → ∀ l ∈ db.rivals copyId spared, l.borrowerId ≠ none) ∧
        db' = { db.withRejectedWhen c copyId spared actorId now with
          loans := (db.withRejectedWhen c copyId spared actorId now).loans.modify id f
          copies := copies } := by
  have hrivals : Db.rivals { db with loans := db.loans.modify id f, copies := copies }
      copyId spared = db.rivals copyId spared := Table.filter_rows_modify hnot
  have hloans := Table.updateWhere_modify (g := Loan.rejectedAt now) hnot
  unfold Db.withRejectedWhen
  cases c with
  | false =>
    simp only [Bool.false_eq_true, if_false, false_imp_iff, true_and, pure_eq_ok]
    exact eq_comm
  | true => simp only [if_true, true_imp_iff, rejectRequested_eq_ok, hrivals, Db.withRejected, hloans]

end Bookswap
