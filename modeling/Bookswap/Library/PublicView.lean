import Bookswap.History.HistoryService
import Bookswap.Loans.Coherence

/-!
# What a viewer may know of the database

`Db.maskedFor` is the database with everything taken out that a viewer may not know: the copies
they may not see, the claims of others, and, where names are hidden, who holds and who borrows.

- `toVisibleCopy_masked`, `historyOf_masked`: the projections of a copy come out as before.
-/

namespace Bookswap

open Store

variable {db : Db} {viewerId : UserId} {archived : Bool} {c : Copy} {l : Loan}

/-! ## The mask -/

/-- Does the viewer read names on the copies of this owner? -/
def Db.namesShown (db : Db) (viewerId ownerId : UserId) : Bool :=
  (db.users.find? ownerId).any fun owner =>
    holderNamesVisibleTo (db.roleOf viewerId ownerId) owner.showHolderNames

/-- May the viewer see the copy? -/
def Db.seesCopy (db : Db) (viewerId : UserId) (archived : Bool) (c : Copy) : Bool :=
  (archived = true ∨ c.archivedAt = none) ∧ (db.users.find? c.ownerId).any fun owner =>
    copyVisibleTo (db.roleOf viewerId c.ownerId) owner.libraryVisibility c.visibility

/-- A copy without its owner's notes, and without its holder where names are hidden. -/
def Db.maskCopy (db : Db) (viewerId : UserId) : Table.Edit Copy.id where
  toFun c :=
    let shown := db.namesShown viewerId c.ownerId ∨ isHome c
    { c with
      currentHolderId := if shown then c.currentHolderId else none
      heldByContactId := if shown then c.heldByContactId.map fun _ => 0 else none
      visibility := .pub
      archivedAt := none
      note := none
      acquiredAt := none }
  keeps _ := rfl

/-- The copies a viewer sees, as they may know them. -/
def Db.namesShownOn (db : Db) (viewerId : UserId) (copyId : CopyId) : Bool :=
  (db.copies.find? copyId).any fun c => db.namesShown viewerId c.ownerId

/-- A loan that the viewer may know of: on a copy they see, and no claim of others. -/
def Db.knowsLoan (db : Db) (viewerId : UserId) (archived : Bool) (l : Loan) : Bool :=
  (db.copies.find? l.copyId).any (db.seesCopy viewerId archived) ∧ isVisibleToParty l viewerId

/-- A loan without its texts and its guest, and without its borrower where names are hidden. -/
def Db.maskLoan (db : Db) (viewerId : UserId) : Table.Edit Loan.id where
  toFun l :=
    { l with
      borrowerId :=
        if db.namesShownOn viewerId l.copyId ∨ l.borrowerId = some viewerId then l.borrowerId
        else none
      borrowerKind := .registered
      borrowerContactId := none
      message := none
      responseNote := none }
  keeps _ := rfl

/-- Of a confirmation, only its status is told. -/
def maskConfirmation : Table.Edit GuestLoanConfirmation.id where
  toFun g :=
    { g with
      externalBorrowerId := none, createdAt := 0, resolvedAt := none, linkTokenHash := none
      linkIssuedAt := none, linkExpiresAt := none, challengeMac := none, codeHash := none
      codeExpiresAt := none, codeNonce := none, codeAttempts := 0, codeFailedTotal := 0
      codeSentCount := 0, codeWindowStartedAt := none, proofHash := none, proofExpiresAt := none
      verifiedAt := none }
  keeps _ := rfl

/-- **What a viewer may know of the database.** -/
def Db.maskedFor (db : Db) (viewerId : UserId) (archived : Bool) : Db where
  users := db.users
  friendships := db.friendships
  copies := (db.copies.filter (db.seesCopy viewerId archived)).map (db.maskCopy viewerId)
  loans := (db.loans.filter (db.knowsLoan viewerId archived)).map (db.maskLoan viewerId)
  confirmations := (db.confirmations.filter fun g =>
    (db.loans.find? g.loanId).any (db.knowsLoan viewerId archived)).map maskConfirmation
  contacts := .empty
  events := []
  notifications := []

/-! ## Copies -/

@[simp] theorem roleOf_masked {a b : UserId} :
    (db.maskedFor viewerId archived).roleOf a b = db.roleOf a b := rfl

theorem Db.namesShownOn_of_find? {copyId : CopyId} (h : db.copies.find? copyId = some c) :
    db.namesShownOn viewerId copyId = db.namesShown viewerId c.ownerId := by
  unfold Db.namesShownOn
  rw [h]
  rfl

/-- Where the place of a copy is told, the mask hides only which guest has it. -/
theorem maskCopy_of_shown (h : db.namesShown viewerId c.ownerId = true ∨ isHome c = true) :
    (db.maskCopy viewerId c).currentHolderId = c.currentHolderId ∧
      (db.maskCopy viewerId c).heldByContactId = c.heldByContactId.map fun _ => 0 :=
  ⟨if_pos h, if_pos h⟩

theorem maskCopy_of_hidden (h : ¬(db.namesShown viewerId c.ownerId = true ∨ isHome c = true)) :
    (db.maskCopy viewerId c).currentHolderId = none := if_neg h

/-- What the mask keeps of where a copy is. -/
theorem isHome_maskCopy : isHome (db.maskCopy viewerId c) = isHome c := by
  have howner : (db.maskCopy viewerId c).ownerId = c.ownerId := rfl
  by_cases hshown : db.namesShown viewerId c.ownerId = true ∨ isHome c = true
  · obtain ⟨hholder, hcontact⟩ := maskCopy_of_shown hshown
    unfold isHome
    rw [hholder, hcontact, howner]
    simp only [Option.map_eq_none_iff]
  · have haway : isHome c = false := Bool.eq_false_iff.mpr fun h => hshown (.inr h)
    rw [haway]
    unfold isHome
    rw [maskCopy_of_hidden hshown]
    exact decide_eq_false fun h => nomatch h.1

theorem seesCopy_iff {owner : User} (howner : db.users.find? c.ownerId = some owner) :
    db.seesCopy viewerId archived c = true ↔ (archived = true ∨ c.archivedAt = none) ∧
      copyVisibleTo (db.roleOf viewerId c.ownerId) owner.libraryVisibility c.visibility = true := by
  unfold Db.seesCopy
  rw [decide_eq_true_eq, howner]
  rfl

/-- What may be seen may be seen as public. -/
theorem copyVisibleTo_pub {role : ViewerRole} {v v' : Visibility}
    (h : copyVisibleTo role v v' = true) : copyVisibleTo role v .pub = true := by
  cases role <;> cases v <;> cases v' <;> first | rfl | cases h

/-! ## Loans of a copy -/

/-- Is the loan a claim of one side? -/
def Loan.isClaim (l : Loan) : Bool :=
  (l.status = .pendingConfirmation ∨ l.status = .declined) ∨
    l.status = .cancelled ∧ l.origin ≠ .requested

theorem isVisibleToParty_iff : isVisibleToParty l viewerId = true ↔
    (l.isClaim = true → l.ownerId = viewerId ∨ l.borrowerId = some viewerId) := by
  unfold isVisibleToParty Loan.isClaim
  dsimp only
  rw [decide_eq_true_eq]
  split
  · next hfact => exact ⟨fun _ h => absurd h (not_or.mpr hfact), fun _ => rfl⟩
  · next hclaim =>
    rw [decide_eq_true_eq]
    exact ⟨fun h _ => h, fun h => h (by rwa [← not_or, not_not] at hclaim)⟩

/-- The viewer's own loans are for the viewer to know. -/
theorem isVisibleToParty_own (h : l.borrowerId = some viewerId) :
    isVisibleToParty l viewerId = true :=
  isVisibleToParty_iff.mpr fun _ => .inr h

theorem maskLoan_borrower :
    (db.maskLoan viewerId l).borrowerId =
      if db.namesShownOn viewerId l.copyId = true ∨ l.borrowerId = some viewerId then l.borrowerId
      else none := rfl

theorem maskLoan_own :
    (db.maskLoan viewerId l).borrowerId = some viewerId ↔ l.borrowerId = some viewerId := by
  rw [maskLoan_borrower]
  split
  · exact Iff.rfl
  · next hnot =>
    constructor
    · rintro ⟨⟩
    · exact fun h => absurd (.inr h) hnot

/-- The mask tells the same loans. -/
theorem isVisibleToParty_mask :
    isVisibleToParty (db.maskLoan viewerId l) viewerId = isVisibleToParty l viewerId := by
  rw [Bool.eq_iff_iff, isVisibleToParty_iff, isVisibleToParty_iff, maskLoan_own]
  rfl

/-- The loans on a copy that the viewer sees, that satisfy what only facts satisfy. -/
theorem loansOn_masked {p : Loan → Bool} (hc : db.copies.find? c.id = some c)
    (hsees : db.seesCopy viewerId archived c = true)
    (hp : ∀ l ∈ db.loans, db.knowsLoan viewerId archived l = true →
      p (db.maskLoan viewerId l) = p l) :
    ((db.maskedFor viewerId archived).loans.rows.filter fun l => l.copyId = c.id ∧ p l) =
      ((db.loans.rows.filter fun l => l.copyId = c.id ∧ p l).filter
        (isVisibleToParty · viewerId)).map (db.maskLoan viewerId) := by
  show (((db.loans.rows.filter (db.knowsLoan viewerId archived)).map (db.maskLoan viewerId)).filter
    _) = _
  rw [List.filter_map, List.filter_filter, List.filter_filter]
  refine congrArg _ (List.filter_congr fun l hl => ?_)
  show (decide (l.copyId = c.id ∧ p (db.maskLoan viewerId l) = true) && _) = _
  by_cases hcopy : l.copyId = c.id
  · have hknows : db.knowsLoan viewerId archived l = isVisibleToParty l viewerId := by
      unfold Db.knowsLoan
      rw [hcopy, hc]
      simp [hsees]
    rw [hknows]
    by_cases hvisible : isVisibleToParty l viewerId = true
    · rw [hp l hl (hknows.trans hvisible), hvisible, Bool.and_true, Bool.true_and]
    · rw [Bool.eq_false_iff.mpr hvisible, Bool.and_false, Bool.false_and]
  · simp [hcopy]

theorem openLoansOf_masked (hc : db.copies.find? c.id = some c)
    (hsees : db.seesCopy viewerId archived c = true) :
    (db.maskedFor viewerId archived).openLoansOf c.id =
      ((db.openLoansOf c.id).filter (isVisibleToParty · viewerId)).map (db.maskLoan viewerId) :=
  loansOn_masked (p := fun l => l.status.isOpen) hc hsees fun _ _ _ => rfl

/-- The viewer's own loan does not depend on the loans of others. -/
theorem viewerLoanOf_masked (loans : List Loan) : viewerLoanOf
      ((loans.filter (isVisibleToParty · viewerId)).map (db.maskLoan viewerId)) viewerId =
    viewerLoanOf loans viewerId := by
  have hmask : ∀ best l, betterLoan viewerId best (db.maskLoan viewerId l) =
      betterLoan viewerId best l := by
    intro best l
    unfold betterLoan
    by_cases hown : l.borrowerId = some viewerId
    · rw [if_neg (not_not.mpr hown), if_neg (not_not.mpr (maskLoan_own.mpr hown))]
      rfl
    · rw [if_pos hown, if_pos fun h => hown (maskLoan_own.mp h)]
  unfold viewerLoanOf
  generalize (none : Option ViewerLoan) = best
  induction loans generalizing best with
  | nil => rfl
  | cons l loans ih =>
    rw [List.foldl_cons]
    by_cases hvisible : isVisibleToParty l viewerId = true
    · rw [List.filter_cons, if_pos hvisible, List.map_cons, List.foldl_cons, hmask, ih]
    · -- a loan that is not told is not the viewer's
      have hother : l.borrowerId ≠ some viewerId := fun h => hvisible (isVisibleToParty_own h)
      rw [List.filter_cons, if_neg hvisible, ih, betterLoan, if_pos hother]

/-- At most one loan of a copy is exclusive (`one_active_loan_per_copy`). -/
def Db.OneActiveLoan (db : Db) : Prop :=
  ∀ l ∈ db.loans, ∀ l' ∈ db.loans, l.copyId = l'.copyId → l.status.isExclusive = true →
    l'.status.isExclusive = true → l = l'

theorem Db.Coherent.oneActiveLoan (h : db.Coherent) : db.OneActiveLoan := by
  intro l hl l' hl' hcopy hx hx'
  obtain ⟨t, ht⟩ := Loan.demand_of_exclusive (db.log l.id) hx
  obtain ⟨t', ht'⟩ := Loan.demand_of_exclusive (db.log l'.id) hx'
  have hid := h.agrees.exclusive (hold_eq_some.mpr ⟨l, Table.find?_of_mem hl, rfl, ht⟩)
    (hold_eq_some.mpr ⟨l', Table.find?_of_mem hl', hcopy.symm, ht'⟩)
  exact Table.eq_of_key_eq hl hl' hid

/-- The day an exclusive loan promises. -/
def Loan.promisedReturn (l : Loan) : Option Day :=
  if l.status = .pendingConfirmation then none else toIsoDay l.dueAt

theorem expectedReturnOf_eq {status : CopyStatus} {loans : List Loan} :
    expectedReturnOf status loans = if status ≠ .reserved ∧ status ≠ .lentOut then none
      else (loans.find? (·.status.isExclusive)).bind Loan.promisedReturn := by
  unfold expectedReturnOf
  split
  · rfl
  · cases loans.find? (·.status.isExclusive) <;> rfl

/-- A claim that is not told promises nothing. -/
theorem promisedReturn_of_untold (hx : l.status.isExclusive = true)
    (huntold : isVisibleToParty l viewerId ≠ true) : l.promisedReturn = none := by
  have hclaim : l.isClaim = true := by
    by_contra hfact
    exact huntold (isVisibleToParty_iff.mpr fun h => absurd h hfact)
  have hpending : l.status = .pendingConfirmation := by
    unfold Loan.isClaim at hclaim
    cases hstatus : l.status <;> simp_all [LoanStatus.isExclusive]
  exact if_pos hpending

/-- The day a copy is expected back does not depend on claims of others. -/
theorem expectedReturnOf_masked {status : CopyStatus} {loans : List Loan}
    (hone : ∀ l ∈ loans, ∀ l' ∈ loans, l.status.isExclusive = true →
      l'.status.isExclusive = true → l = l') :
    expectedReturnOf status
        ((loans.filter (isVisibleToParty · viewerId)).map (db.maskLoan viewerId)) =
      expectedReturnOf status loans := by
  have hpromise : ∀ o : Option Loan, (o.map (db.maskLoan viewerId)).bind Loan.promisedReturn =
      o.bind Loan.promisedReturn := by
    intro o
    cases o <;> rfl
  rw [expectedReturnOf_eq, expectedReturnOf_eq, List.find?_map, List.find?_filter, hpromise]
  refine congrArg (ite _ none) ?_
  show (loans.find? fun l => isVisibleToParty l viewerId = true ∧ l.status.isExclusive = true).bind
    _ = _
  cases hfind : loans.find? fun l => l.status.isExclusive with
  | none =>
    have hnone : (loans.find? fun l => isVisibleToParty l viewerId = true ∧
        l.status.isExclusive = true) = none := by
      refine List.find?_eq_none.mpr fun l hl => ?_
      rw [decide_eq_true_eq]
      exact fun h => List.find?_eq_none.mp hfind l hl h.2
    rw [hnone]
  | some l =>
    have hl := List.mem_of_find?_eq_some hfind
    have hx := List.find?_some hfind
    cases htold : loans.find? fun l => isVisibleToParty l viewerId = true ∧
        l.status.isExclusive = true with
    | some x =>
      -- there is no other exclusive loan
      have hboth := List.find?_some htold
      rw [decide_eq_true_eq] at hboth
      rw [hone x (List.mem_of_find?_eq_some htold) l hl hboth.2 hx]
    | none =>
      have hnot := List.find?_eq_none.mp htold l hl
      rw [decide_eq_true_eq] at hnot
      exact (promisedReturn_of_untold hx fun h => hnot ⟨h, hx⟩).symm

/-! ## A copy on a shelf -/

theorem Db.OneActiveLoan.of_copy (h : db.OneActiveLoan) {id : CopyId} :
    ∀ l ∈ db.openLoansOf id, ∀ l' ∈ db.openLoansOf id, l.status.isExclusive = true →
      l'.status.isExclusive = true → l = l' := by
  intro l hl l' hl' hx hx'
  obtain ⟨hmem, hon⟩ := List.mem_filter.mp hl
  obtain ⟨hmem', hon'⟩ := List.mem_filter.mp hl'
  exact h l hmem l' hmem'
    ((of_decide_eq_true hon).1.trans (of_decide_eq_true hon').1.symm) hx hx'

/-- Who has a copy is told as the mask tells it. -/
theorem holder_masked {owner : User} (howner : db.users.find? c.ownerId = some owner) :
    (if isHome (db.maskCopy viewerId c) = true ∨
        (db.viewerOf viewerId owner).showHolderNames = false
      then none else (db.userOf (db.maskCopy viewerId c).currentHolderId).map toPublicUser) =
    if isHome c = true ∨ (db.viewerOf viewerId owner).showHolderNames = false then none
      else (db.userOf c.currentHolderId).map toPublicUser := by
  rw [isHome_maskCopy]
  split
  · rfl
  · next hshown =>
    have hnames : db.namesShown viewerId c.ownerId = true := by
      have hid := Table.key_of_find? howner
      rw [not_or, Bool.not_eq_false] at hshown
      unfold Db.namesShown
      rw [howner, ← hid]
      exact hshown.2
    rw [(maskCopy_of_shown (.inl hnames)).1]

/-- **A copy is shown to the viewer as the mask shows it.** -/
theorem toVisibleCopy_masked {owner : User} (hone : db.OneActiveLoan) (hc : c ∈ db.copies)
    (hsees : db.seesCopy viewerId archived c = true)
    (howner : db.users.find? c.ownerId = some owner) :
    toVisibleCopy ((db.maskedFor viewerId archived).copyRow (db.maskCopy viewerId c))
        (db.viewerOf viewerId owner) =
      toVisibleCopy (db.copyRow c) (db.viewerOf viewerId owner) := by
  have hloans : (db.maskedFor viewerId archived).openLoansOf (db.maskCopy viewerId c).id =
      ((db.openLoansOf c.id).filter (isVisibleToParty · viewerId)).map (db.maskLoan viewerId) :=
    openLoansOf_masked (c := c) (Table.find?_of_mem hc) hsees
  have hexpected : expectedReturnOf c.status
      ((db.maskedFor viewerId archived).openLoansOf (db.maskCopy viewerId c).id) =
        expectedReturnOf c.status (db.openLoansOf c.id) := by
    rw [hloans, expectedReturnOf_masked hone.of_copy]
  have hown : viewerLoanOf ((db.maskedFor viewerId archived).openLoansOf
      (db.maskCopy viewerId c).id) viewerId = viewerLoanOf (db.openLoansOf c.id) viewerId := by
    rw [hloans, viewerLoanOf_masked]
  have hcan : canRequestCopy (db.maskCopy viewerId c) ((db.maskedFor viewerId archived).openLoansOf
      (db.maskCopy viewerId c).id) (db.roleOf viewerId owner.id) viewerId owner.loanRequestsPaused =
        canRequestCopy c (db.openLoansOf c.id) (db.roleOf viewerId owner.id) viewerId
          owner.loanRequestsPaused := by
    unfold canRequestCopy
    rw [hown, isHome_maskCopy]
    rfl
  exact VisibleCopy.mk.injEq .. ▸
    ⟨rfl, rfl, rfl, isHome_maskCopy, holder_masked howner, hown, hcan, hexpected⟩

/-! ## The shelf and the network -/

/-- A row of a shelf, as the masked database has it. -/
def Db.maskShelf (db : Db) (viewerId : UserId) (archived : Bool) (r : ShelfRow) : ShelfRow :=
  { r with row := (db.maskedFor viewerId archived).copyRow (db.maskCopy viewerId r.row.copy) }

theorem unshown_maskShelf : Unshown (db.maskShelf viewerId archived) where
  edition _ := rfl
  work _ := rfl
  id _ := rfl
  createdAt _ := rfl
  home _ := isHome_maskCopy

theorem join_masked {cat : CatalogDb} :
    cat.join ((db.maskedFor viewerId archived).copyRow (db.maskCopy viewerId c)) =
      (cat.join (db.copyRow c)).map (db.maskShelf viewerId archived) := by
  show ((cat.edition? c.editionId).bind _) = ((cat.edition? c.editionId).bind _).map _
  cases cat.edition? c.editionId with
  | none => rfl
  | some e =>
    show (cat.work? e.workId).map _ = ((cat.work? e.workId).map _).map _
    rw [Option.map_map]
    rfl

/-! ## The history of a copy -/

/-- Of a loan the viewer knows, the status of its confirmation is told. -/
theorem confirmationStatusOf_masked (hl : l ∈ db.loans)
    (hknows : db.knowsLoan viewerId archived l = true) :
    (db.maskedFor viewerId archived).confirmationStatusOf l.id = db.confirmationStatusOf l.id := by
  have htold : ∀ g : GuestLoanConfirmation, decide ((db.loans.find? g.loanId).any
      (db.knowsLoan viewerId archived) = true ∧ decide (g.loanId = l.id) = true) =
        decide (g.loanId = l.id) := by
    intro g
    by_cases hid : g.loanId = l.id
    · simp [hid, Table.find?_of_mem hl, hknows]
    · simp [hid]
  unfold Db.confirmationStatusOf
  show ((((db.confirmations.rows.filter _).map maskConfirmation).find? _).map _) = _
  rw [List.find?_map, List.find?_filter, Option.map_map]
  show (db.confirmations.rows.find? fun g => _).map _ = _
  simp only [Function.comp_def]
  rw [show (fun g : GuestLoanConfirmation => decide ((db.loans.find? g.loanId).any
      (db.knowsLoan viewerId archived) = true ∧
        decide ((maskConfirmation g).loanId = l.id) = true)) =
        fun g => decide (g.loanId = l.id) from funext htold]
  rfl

/-- A loan of the history, as the mask shows it. -/
def Db.maskHistoryRow (db : Db) (viewerId : UserId) (r : HistoryLoanRow) : HistoryLoanRow :=
  { r with
    loan := db.maskLoan viewerId r.loan
    borrower := db.userOf (db.maskLoan viewerId r.loan).borrowerId }

theorem historyLoanRow_masked (hl : l ∈ db.loans)
    (hknows : db.knowsLoan viewerId archived l = true) :
    (db.maskedFor viewerId archived).historyLoanRow (db.maskLoan viewerId l) =
      (db.historyLoanRow l).map (db.maskHistoryRow viewerId) := by
  unfold Db.historyLoanRow
  show (db.users.find? l.ownerId).map (fun owner => HistoryLoanRow.mk (db.maskLoan viewerId l) owner
    (db.userOf (db.maskLoan viewerId l).borrowerId)
    ((db.maskedFor viewerId archived).confirmationStatusOf l.id)) = _
  rw [confirmationStatusOf_masked hl hknows, Option.map_map]
  rfl

/-- **The history of a copy is told as the mask tells it.** -/
theorem historyOf_masked {now : Time} {p : Loan → Bool} {showNames : Bool}
    (hc : db.copies.find? c.id = some c) (hsees : db.seesCopy viewerId archived c = true)
    (hfacts : ∀ l, p l = true → isVisibleToParty l viewerId = true)
    (hmask : ∀ l, p (db.maskLoan viewerId l) = p l)
    (hnames : showNames = true → db.namesShown viewerId c.ownerId = true) :
    (db.maskedFor viewerId archived).historyOf now p showNames c.id =
      db.historyOf now p showNames c.id := by
  have hknows : ∀ l ∈ db.loans.rows.filter (fun l => l.copyId = c.id ∧ p l),
      l ∈ db.loans ∧ l.copyId = c.id ∧ db.knowsLoan viewerId archived l = true := by
    intro l hl
    obtain ⟨hmem, hon⟩ := List.mem_filter.mp hl
    obtain ⟨hcopy, hpl⟩ := of_decide_eq_true hon
    refine ⟨hmem, hcopy, decide_eq_true ⟨?_, hfacts l hpl⟩⟩
    rw [hcopy, hc]
    exact hsees
  have hrows : ((db.maskedFor viewerId archived).loans.rows.filter fun l =>
      l.copyId = c.id ∧ p l).filterMap (db.maskedFor viewerId archived).historyLoanRow =
        ((db.loans.rows.filter fun l => l.copyId = c.id ∧ p l).filterMap db.historyLoanRow).map
          (db.maskHistoryRow viewerId) := by
    rw [loansOn_masked hc hsees fun l _ _ => hmask l, List.filterMap_map, List.map_filterMap,
      List.filter_eq_self.mpr fun l hl => (of_decide_eq_true (hknows l hl).2.2).2]
    exact List.filterMap_congr fun l hl =>
      historyLoanRow_masked (hknows l hl).1 (hknows l hl).2.2
  unfold Db.historyOf
  dsimp only
  have hsort : ∀ rows : List HistoryLoanRow,
      (rows.map (db.maskHistoryRow viewerId)).mergeSort byRequestedAt =
        (rows.mergeSort byRequestedAt).map (db.maskHistoryRow viewerId) := by
    intro rows
    refine (List.map_mergeSort fun one _ other _ => ?_).symm
    rfl
  rw [hrows, hsort, List.map_map]
  refine List.map_congr_left fun r hr => ?_
  obtain ⟨l, hl, hrow⟩ := List.mem_filterMap.mp (List.mem_mergeSort.mp hr)
  obtain ⟨owner, -, rfl⟩ := Option.map_eq_some_iff.mp hrow
  rw [Function.comp_apply]
  cases hshow : showNames with
  | false => rfl
  | true =>
    have hshown : db.namesShownOn viewerId l.copyId = true := by
      rw [(hknows l hl).2.1, Db.namesShownOn_of_find? hc]
      exact hnames hshow
    unfold Db.maskHistoryRow
    dsimp only
    rw [maskLoan_borrower, if_pos (.inl hshown)]
    rfl

end Bookswap
