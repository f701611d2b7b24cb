import Bookswap.Guarantees.CopyLoan

/-!
# No loan gets stuck

Whatever happened before, the action that brings a loan to its end commits: a promise can be
cancelled or kept, a record confirmed, declined or withdrawn, a book returned or reported
lost, a waiting handover settled by its owner, and a lost book found again
(`LoanProgress`). Each action needs its copy, its contact and its confirmation as the
coherent database has them.

- `Coherent.runs`, `Coherent.runsGuest`, `Coherent.decides`: an action whose row of the table
  is there commits.
- `Coherent.retain_ok`: the deadline of a contact can always be computed.
-/

namespace Bookswap

open Store

variable {db : Db} {l : Loan} {c : Copy} {now : Time}

/-- The transaction commits. -/
def Succeeds (tx : Db → Tx Db) (db : Db) : Prop := ∃ db', tx db = .ok db'

/-! ## The loans a service serves -/

/-- A requested loan keeps to the statuses of the request flow. -/
theorem Trail.requested_status {log : List LoanEventType} {status : LoanStatus}
    (h : Trail .requested log status) : status.isRequestFlow = true := by
  cases h with
  | opened hopen =>
    cases hopen
    rfl
  | stepped _ hstep => cases hstep <;> rfl

/-- A recorded loan keeps to the statuses of a record. -/
theorem Trail.recorded_status {log : List LoanEventType} {status : LoanStatus}
    (h : Trail .recordedExisting log status) : status.isRecorded = true := by
  cases h with
  | opened hopen =>
    cases hopen
    rfl
  | stepped _ hstep => cases hstep <;> rfl

/-- **Every registered loan is served.** -/
theorem Db.Coherent.served (h : db.Coherent) (hl : l ∈ db.loans)
    (hk : l.borrowerKind = .registered) :
    ∃ s : ServedLoan, s.row = l ∧ s.borrowerId ≠ l.ownerId := by
  have sound := h.sound l hl
  have htrail := h.trail hl
  obtain ⟨hguest, ⟨b, hb, hne⟩, -⟩ := (h.parties hl).registered hk
  suffices hserved : l.HasServedOrigin from ⟨⟨l, b, hb, hk, hserved⟩, rfl, hne⟩
  cases ho : l.origin with
  | requested =>
    rw [ho] at htrail
    exact Or.inl ⟨ho, sound.requested ho, htrail.requested_status⟩
  | recordedExisting =>
    rw [ho] at htrail
    exact Or.inr ⟨ho, sound.handed (Or.inl fun h' => nomatch ho.symm.trans h'),
      htrail.recorded_status⟩
  | recordedGuest => exact absurd ho hguest

/-- Every request that waits on a copy has a borrower to tell. -/
theorem Db.Coherent.rivals_registered (h : db.Coherent) {copyId : CopyId} {spared : Option LoanId} :
    ∀ r ∈ db.rivals copyId spared, r.borrowerId ≠ none := by
  intro r hr
  obtain ⟨hmem, hrival⟩ := Db.mem_rivals.mp hr
  have hkind := (of_decide_eq_true (Loan.isRequestFlowRequested_of_isRival hrival)).2.2
  obtain ⟨-, ⟨b, hb, -⟩, -⟩ := (h.parties hmem).registered hkind
  rw [hb]
  exact Option.some_ne_none b

/-- Beside a loan that claims the copy no other is exclusive. -/
theorem Db.Coherent.unoccupied (h : db.Coherent) {t : Shape} (hl : Loan.Claims db l c t) : db.occupiedByOther l.copyId l.id = false := by
  refine List.any_eq_false.mpr fun x hx hocc => ?_
  obtain ⟨hcopy, hne, hs⟩ := of_decide_eq_true hocc
  obtain ⟨t', ht'⟩ := claims_of_exclusive hx (hcopy.trans hl.2.1) hs
  exact hne (congrArg Loan.id (h.claim_unique ht' hl))

/-- The loan of a copy that shows what it demands claims it. -/
theorem Db.Coherent.claims (h : db.Coherent) (hl : l ∈ db.loans)
    (hc : db.copies.find? l.copyId = some c) {t : Shape} (ht : Demands l (db.log l.id) t) :
    Loan.Claims db l c c.shape := by
  have hshown := h.demand_shown hl hc (Loan.demand_eq_some.mpr ht)
  exact ⟨hl, (Table.key_of_find? hc).symm, hshown ▸ ht⟩

/-! ## Actions on registered loans -/

/-- How the copy of a registered loan stands in each status. -/
def LoanStatus.stands : LoanStatus → Option CopyPrecondition
  | .approved | .pendingConfirmation => some ⟨.reserved, .owner⟩
  | .handedOver => some ⟨.lentOut, .borrower⟩
  | .lost => some ⟨.unavailable, .borrower⟩
  | _ => none

/-- After the answer to a request, an action needs the copy as the status has it. -/
theorem TransitionRow.requires_eq {status : LoanStatus} {action : LoanAction} {actor : LoanActor}
    {origin : LoanOrigin} {outcome : LoanTransition}
    (row : TransitionRow status action actor origin outcome) (hs : status ≠ .requested) :
    outcome.requires = status.stands := by
  cases row <;> first | rfl | exact absurd rfl hs

/-- A copy that shows what its loan demands stands as the status has it. -/
theorem Demands.stands {s : ServedLoan} {log : List LoanEventType}
    (hd : Demands s.row log c.shape) : ∀ p ∈ s.row.status.stands, p.holds s c := by
  generalize hshape : c.shape = t at hd
  have hstatus : c.status = t.status := congrArg Shape.status hshape
  have hholder : c.currentHolderId = t.currentHolderId := congrArg Shape.currentHolderId hshape
  have hborrower := s.row_borrowerId
  cases hd with
  | approved hs =>
    rw [hs]
    rintro p ⟨⟩
    exact ⟨hstatus, hholder⟩
  | pendingRegistered hs _ =>
    rw [hs]
    rintro p ⟨⟩
    exact ⟨hstatus, hholder⟩
  | pendingGuest _ hk => exact nomatch hk.symm.trans s.registered
  | handedOver hs =>
    rw [hs]
    rintro p ⟨⟩
    exact ⟨hstatus, hholder.trans hborrower⟩
  | lost hs _ =>
    rw [hs]
    rintro p ⟨⟩
    exact ⟨hstatus, hholder.trans hborrower⟩

/-- A demand is not a request's. -/
theorem Demands.not_requested {log : List LoanEventType} {t : Shape} (hd : Demands l log t) :
    l.status ≠ .requested := by
  cases hd <;> simp_all

/-- **An action on a registered loan that claims its copy commits**, when the table has its row
for the caller. An amendment, which has dates to check, is not meant. -/
theorem Db.Coherent.runs (h : db.Coherent) {s : ServedLoan} (hl : s.row ∈ db.loans)
    (hsides : s.borrowerId ≠ s.row.ownerId) (hc : db.copies.find? s.row.copyId = some c)
    {t : Shape} (hd : Demands s.row (db.log s.row.id) t) {actorId : UserId}
    (hactor : s.row.ownerId = actorId ∨ s.borrowerId = actorId) {req : UpdateLoanRequest}
    {outcome : LoanTransition}
    (row : TransitionRow s.row.status req.action (actorOf s.row actorId) s.row.origin outcome)
    (hevent : outcome.event ≠ some .recordAmended)
    (hrecover : outcome.event = some .recovered → (∀ d ∈ req.effectiveAt, d ≤ isoDayOf now) ∧
      db.hasEvent s.row.id .recovered = false ∧ c.archivedAt = none) :
    Succeeds (runTransition now actorId s.row.id req) db := by
  have hclaims := h.claims hl hc hd
  have hown := h.owner_of_copy (Table.mem_of_find? hc) hl hclaims.2.1
  refine ⟨_, runTransition_eq_ok.mpr ⟨s, c, outcome, ?_, rfl⟩⟩
  constructor
  case find_loan => exact Table.find?_of_mem hl
  case find_copy => exact hc
  case participant => exact hactor
  case owner_eq => exact hown.symm
  case sides_ne => exact hsides.symm
  case row => exact row
  case recoverable =>
    intro he
    obtain ⟨hdate, hfirst, harch⟩ := hrecover he
    exact ⟨hdate, hfirst, harch, h.unoccupied hclaims⟩
  case ready =>
    rw [row.requires_eq hd.not_requested]
    exact hclaims.2.2.stands
  case amendable => exact fun he => absurd he hevent
  case rivals_registered => exact fun _ => h.rivals_registered

/-! ## Actions on guest loans -/

/-- The end of a guest loan is in its log. -/
theorem Db.Coherent.closed_or_exclusive (h : db.Coherent) (hl : l ∈ db.loans)
    (hk : l.borrowerKind = .guest) : l.status.isExclusive = true ∨ db.Closed l := by
  have htrail := h.trail hl
  rw [((h.parties hl).guest hk).1] at htrail
  have hform := htrail.guest_form
  unfold Db.Closed
  rw [recovered_mem_log, recovered_mem_log]
  generalize hlog : db.log l.id = log at hform
  generalize hs : l.status = status at hform
  cases hform with
  | took hhead htail =>
    cases htail with
    | handedOver => exact Or.inl rfl
    | returned => exact Or.inr (Or.inl ⟨rfl, (h.sound l hl).returned hs⟩)
    | _ => exact Or.inr (Or.inr (Or.inl ⟨rfl, by simp⟩))
  | pending => exact Or.inl rfl
  | denied => exact Or.inl rfl
  | cancelled => exact Or.inr (Or.inr (Or.inr ⟨rfl, by simp⟩))
  | deniedCancelled => exact Or.inr (Or.inr (Or.inr ⟨rfl, by simp⟩))

/-- **The deadline of a contact can always be computed.** -/
theorem Db.Coherent.retain_ok (h : db.Coherent) (contactId : ContactId) :
    Succeeds (recomputeRetainUntil contactId) db := by
  have hguest : ∀ x ∈ db.loans, x.borrowerContactId = some contactId → x.borrowerKind = .guest := by
    intro x hx hcontact
    cases hk : x.borrowerKind with
    | registered => exact nomatch hcontact.symm.trans ((h.parties hx).registered hk).2.2
    | guest => rfl
  suffices hok : (∃ x ∈ db.loans, x.borrowerContactId = some contactId ∧
      x.status.isExclusive = true) ∨
      ∀ x ∈ db.loans, x.borrowerContactId = some contactId → db.Closed x by
    obtain ⟨t, ht⟩ := recomputeRetainUntil_ok hok
    exact ⟨_, ht⟩
  by_cases hex : ∃ x ∈ db.loans, x.borrowerContactId = some contactId ∧ x.status.isExclusive = true
  · exact Or.inl hex
  · refine Or.inr fun x hx hcontact => ?_
    rcases h.closed_or_exclusive hx (hguest x hx hcontact) with hs | hclosed
    · exact absurd ⟨x, hx, hcontact, hs⟩ hex
    · exact hclosed

theorem Db.Coherent.retainOf_ok (h : db.Coherent) (contactId : Option ContactId) :
    Succeeds (recomputeOf contactId) db := by
  cases contactId with
  | none => exact ⟨db, rfl⟩
  | some k => exact h.retain_ok k

/-- How the copy of a guest loan stands in each of its statuses. -/
theorem Demands.guest {log : List LoanEventType} (hd : Demands l log c.shape)
    (hb : l.borrowerId = none) {status : GuestLoanStatus} (hs : l.status = status.toLoanStatus)
    {action : GuestLoanAction} {outcome : GuestLoanTransition}
    (row : resolveGuestTransition status action = some outcome) : outcome.copyReady l c := by
  generalize hshape : c.shape = t at hd
  have hstatus : c.status = t.status := congrArg Shape.status hshape
  have hholder : c.currentHolderId = t.currentHolderId := congrArg Shape.currentHolderId hshape
  have hcontact : c.heldByContactId = t.heldByContactId := congrArg Shape.heldByContactId hshape
  cases hd with
  | approved h => cases status <;> cases h.symm.trans hs
  | pendingRegistered h _ => cases status <;> cases h.symm.trans hs
  | pendingGuest h _ => cases status <;> cases h.symm.trans hs
  | handedOver h =>
    cases status <;> cases h.symm.trans hs
    cases action <;> cases row <;> rintro _ ⟨⟩ <;> exact ⟨hstatus, hholder.trans hb, hcontact⟩
  | lost h _ =>
    cases status <;> cases h.symm.trans hs
    cases action <;> cases row <;> rintro _ ⟨⟩
    exact ⟨hstatus, hholder.trans hb, hcontact⟩

/-- **An action on a guest loan that claims its copy commits**, when the table has its row. -/
theorem Db.Coherent.runsGuest (h : db.Coherent) (hl : l ∈ db.loans)
    (hk : l.borrowerKind = .guest) (hc : db.copies.find? l.copyId = some c) {t : Shape}
    (hd : Demands l (db.log l.id) t) {status : GuestLoanStatus}
    (hs : l.status = status.toLoanStatus) {req : UpdateGuestLoanRequest}
    {outcome : GuestLoanTransition} (row : resolveGuestTransition status req.action = some outcome)
    (hclosure : outcome.event ≠ .lossClosed)
    (hrecover : outcome.event = .recovered → (∀ d ∈ req.effectiveAt, d ≤ isoDayOf now) ∧
      db.hasEvent l.id .recovered = false ∧ c.archivedAt = none) :
    Succeeds (applyGuestTransition now l.ownerId l.id req) db := by
  have hclaims := h.claims hl hc hd
  have hparties := (h.parties hl).guest hk
  have hcopyId : c.id = l.copyId := Table.key_of_find? hc
  have g : GuestGuards db now l.ownerId l.id req l status c outcome := by
    constructor
    case find_loan => exact Table.find?_of_mem hl
    case find_copy => exact hc
    case origin => exact hparties.1
    case kind => exact hk
    case handed =>
      exact (h.sound l hl).handed (Or.inl fun ho => nomatch ho.symm.trans hparties.1)
    case own => rfl
    case status_eq => exact hs
    case row => exact row
    case first_recovery => exact fun he => (hrecover he).2.1
    case first_closure => exact fun he => absurd he hclosure
    case date => exact fun he => (hrecover he).1
    case not_archived => exact fun he => (hrecover he).2.2
    case unoccupied => exact fun _ => hcopyId ▸ h.unoccupied hclaims
    case ready => exact hclaims.2.2.guest hparties.2.1 hs row
  have hmoved := h.moved (g.moves h ⟨l.id, outcome.event, some l.ownerId, now,
    if outcome.event = .recovered then some (recoveredAt req.effectiveAt now) else none, .empty⟩
    rfl rfl)
  rw [Db.moved, map_noEdit, ← hcopyId, List.append_nil] at hmoved
  obtain ⟨db', hret⟩ := hmoved.coherent.retainOf_ok l.borrowerContactId
  exact ⟨db', applyGuestTransition_eq_ok.mpr ⟨l, status, c, outcome, g, hret⟩⟩

/-! ## Decisions on a waiting handover -/

/-- A waiting guest loan has its confirmation, with the same contact and still undecided. -/
theorem Db.Coherent.waiting_confirmation (h : db.Coherent) (hl : l ∈ db.loans)
    (hk : l.borrowerKind = .guest) (hs : l.status = .pendingConfirmation) :
    ∃ g ∈ db.confirmations, g.loanId = l.id ∧ g.externalBorrowerId = l.borrowerContactId ∧
      (g.status = .open ∨ g.status = .denied) := by
  have htrail := h.trail hl
  rw [((h.parties hl).guest hk).1, hs] at htrail
  have hmatch : (db.dossier l).ConfirmationsMatch := (h.sound l hl).confirmations
  have hlog : (db.dossier l).log = db.log l.id := rfl
  unfold Dossier.ConfirmationsMatch at hmatch
  rw [hlog, if_pos (by rcases htrail.guest_pending with hp | hp <;> simp [hp])] at hmatch
  obtain ⟨g, hg, hcontact, hstatus⟩ := hmatch
  have hmem : g ∈ db.confirmationsOf l.id := by
    rw [show db.confirmationsOf l.id = [g] from hg]
    exact List.mem_singleton.mpr rfl
  obtain ⟨hmem, hloan⟩ := mem_confirmationsOf.mp hmem
  refine ⟨g, hmem, hloan, hcontact, ?_⟩
  rcases htrail.guest_pending with hp | hp
  · rw [hp] at hstatus
    exact Or.inl hstatus
  · rw [hp] at hstatus
    exact Or.inr hstatus

/-- What a waiting handover demands of its copy is the chain its owner decides on. -/
theorem Demands.pendingChain {log : List LoanEventType} (hd : Demands l log c.shape)
    (hk : l.borrowerKind = .guest) (hs : l.status = .pendingConfirmation) {contactId : ContactId}
    (hcontact : l.borrowerContactId = some contactId) : PendingChain l c contactId := by
  generalize hshape : c.shape = t at hd
  cases hd with
  | approved h => exact nomatch h.symm.trans hs
  | pendingRegistered _ h => exact nomatch h.symm.trans hk
  | pendingGuest _ _ =>
    exact ⟨hs, hcontact, congrArg Shape.status hshape, congrArg Shape.currentHolderId hshape,
      (congrArg Shape.heldByContactId hshape).trans hcontact⟩
  | handedOver h => exact nomatch h.symm.trans hs
  | lost h _ => exact nomatch h.symm.trans hs

/-- An undecided confirmation can be decided either way. -/
theorem resolveConfirmation_of_undecided {status : GuestLoanConfirmationStatus}
    (h : status = .open ∨ status = .denied) (action : GuestConfirmationAction) :
    ∃ t, resolveConfirmationTransition status action = some t := by
  rcases h with rfl | rfl <;> cases action <;> exact ⟨_, rfl⟩

/-- **The owner can settle a waiting handover**, either way. -/
theorem Db.Coherent.decides (h : db.Coherent) (hl : l ∈ db.loans)
    (hk : l.borrowerKind = .guest) (hs : l.status = .pendingConfirmation) :
    ∃ g ∈ db.confirmations, g.loanId = l.id ∧
      ∀ now action, Succeeds (applyAction now l.ownerId g.id action) db := by
  obtain ⟨g, hg, hloan, hcontact, hundecided⟩ := h.waiting_confirmation hl hk hs
  refine ⟨g, hg, hloan, fun now action => ?_⟩
  obtain ⟨c, hc, -⟩ := h.placed l hl
  have hparties := (h.parties hl).guest hk
  obtain ⟨k, hk'⟩ := Option.ne_none_iff_exists'.mp (hparties.2.2 (by rw [hs]; rfl))
  have hchain := (h.claims hl hc (.pendingGuest hs hk)).2.2.pendingChain hk hs hk'
  have hfindg : db.confirmations.find? g.id = some g := Table.find?_of_mem hg
  have hfindl : db.loans.find? g.loanId = some l := hloan ▸ Table.find?_of_mem hl
  have htrail := h.trail hl
  rw [hparties.1, hs] at htrail
  obtain ⟨t, ht⟩ := resolveConfirmation_of_undecided hundecided action
  have hsettled := settled_evolves h now hfindg hfindl hc hchain (settles_of_action htrail ht)
    (fun _ => h.rivals_registered) (some l.ownerId) (some now)
  obtain ⟨db', hret⟩ := hsettled.coherent.retain_ok k
  have hhanded : l.handedAt ≠ none :=
    (h.sound l hl).handed (Or.inl fun ho => nomatch ho.symm.trans hparties.1)
  exact ⟨db', applyAction_eq_ok.mpr ⟨g, l, c, k, t, ⟨hfindg, hfindl, rfl, hparties.1, hk⟩, ht, hc,
    hcontact.trans hk', hchain, fun _ => h.rivals_registered, hret, hhanded⟩⟩

/-! ## No loan gets stuck -/

/-- The owner can record that a lost book was found; only a day in the future is refused. -/
structure Recovers (db : Db) (l : Loan) : Prop where
  registered : l.borrowerKind = .registered → ∀ now (req : UpdateLoanRequest),
    req.action = .recover → (∀ d ∈ req.effectiveAt, d ≤ isoDayOf now) →
      Succeeds (runTransition now l.ownerId l.id req) db
  guest : l.borrowerKind = .guest → ∀ now (req : UpdateGuestLoanRequest),
    req.action = .recover → (∀ d ∈ req.effectiveAt, d ≤ isoDayOf now) →
      Succeeds (applyGuestTransition now l.ownerId l.id req) db

/-- **The ways out of each status**, for any well-formed body that names the action. -/
structure LoanProgress (db : Db) (l : Loan) : Prop where
  /-- A promise is cancelled by either side, and kept by the borrower. -/
  approved : l.borrowerKind = .registered → l.status = .approved →
    ∃ b, l.borrowerId = some b ∧ ∀ now (req : UpdateLoanRequest),
      (req.action = .cancel → Succeeds (runTransition now l.ownerId l.id req) db ∧
        Succeeds (runTransition now b l.id req) db) ∧
      (req.action = .handOver → Succeeds (runTransition now b l.id req) db)
  /-- A record is confirmed or declined by the borrower, and withdrawn by the owner. -/
  pending : l.borrowerKind = .registered → l.status = .pendingConfirmation →
    ∃ b, l.borrowerId = some b ∧ ∀ now (req : UpdateLoanRequest),
      (req.action = .confirmRecord ∨ req.action = .declineRecord →
        Succeeds (runTransition now b l.id req) db) ∧
      (req.action = .withdrawRecord → Succeeds (runTransition now l.ownerId l.id req) db)
  /-- A book that is out comes back or is lost. -/
  handedOver : l.borrowerKind = .registered → l.status = .handedOver →
    ∀ now (req : UpdateLoanRequest), req.action = .return ∨ req.action = .markLost →
      Succeeds (runTransition now l.ownerId l.id req) db
  handedOverGuest : l.borrowerKind = .guest → l.status = .handedOver →
    ∀ now (req : UpdateGuestLoanRequest), req.action = .return ∨ req.action = .markLost →
      Succeeds (applyGuestTransition now l.ownerId l.id req) db
  /-- A handover that waits for its guest is settled by the owner. -/
  pendingGuest : l.borrowerKind = .guest → l.status = .pendingConfirmation →
    ∃ g ∈ db.confirmations, g.loanId = l.id ∧ ∀ now,
      Succeeds (applyAction now l.ownerId g.id .cancelHandover) db ∧
        Succeeds (applyAction now l.ownerId g.id .recordOwnerStatement) db
  /-- A lost book is found again, once its copy is not archived. -/
  lost : l.Unrecovered db →
    (∀ c, db.copies.find? l.copyId = some c → c.archivedAt = none) → Recovers db l
  /-- And to restore the copy is enough. -/
  restored : l.Unrecovered db →
    ∃ db', restoreCopy l.ownerId l.copyId db = .ok db' ∧ Recovers db' l

theorem actorOf_owner : actorOf l l.ownerId = .owner := if_pos rfl

theorem actorOf_borrower {b : UserId} (hne : b ≠ l.ownerId) : actorOf l b = .borrower :=
  if_neg (Ne.symm hne)

/-- A record waits for a registered borrower. -/
theorem Db.Coherent.origin_of_record (h : db.Coherent) (hl : l ∈ db.loans)
    (hk : l.borrowerKind = .registered) (hs : l.status = .pendingConfirmation) :
    l.origin = .recordedExisting := by
  have htrail := h.trail hl
  cases ho : l.origin with
  | requested =>
    rw [ho, hs] at htrail
    exact nomatch htrail.requested_status
  | recordedExisting => rfl
  | recordedGuest => exact absurd ho ((h.parties hl).registered hk).1

/-- **A lost book can be found again** while its copy is on the shelf. -/
theorem Db.Coherent.recovers (h : db.Coherent) (hl : l ∈ db.loans) (hlost : l.Unrecovered db)
    (harch : ∀ c, db.copies.find? l.copyId = some c → c.archivedAt = none) : Recovers db l := by
  obtain ⟨c, hc, -⟩ := h.placed l hl
  have hd := (claims_of_lost hl (Table.key_of_find? hc).symm hlost.1 hlost.2).2.2
  constructor
  · intro hk now req ha hdate
    obtain ⟨s, rfl, hne⟩ := h.served hl hk
    have row : TransitionRow s.row.status req.action (actorOf s.row s.row.ownerId) s.row.origin
        .recover := by
      rw [hlost.1, ha, actorOf_owner]
      exact .recover _ ((h.parties hl).registered hk).1
    exact h.runs hl hne hc hd (Or.inl rfl) row (by decide) fun _ => ⟨hdate, hlost.2, harch c hc⟩
  · intro hk now req ha hdate
    have hs : l.status = GuestLoanStatus.lost.toLoanStatus := hlost.1
    exact h.runsGuest hl hk hc hd hs (by rw [ha]; rfl) (by decide)
      fun _ => ⟨hdate, hlost.2, harch c hc⟩

/-- Restoring the copy of a lost book lets it be found. -/
theorem Db.Coherent.recovers_restored (h : db.Coherent) (hl : l ∈ db.loans)
    (hlost : l.Unrecovered db) :
    ∃ db', restoreCopy l.ownerId l.copyId db = .ok db' ∧ Recovers db' l := by
  obtain ⟨c, hc, howner⟩ := h.placed l hl
  have hok : restoreCopy l.ownerId l.copyId db = .ok { db with
      copies := db.copies.modify l.copyId (archiveEdit none) } :=
    restoreCopy_eq_ok.mpr ⟨⟨c, hc, howner⟩, rfl⟩
  refine ⟨_, hok, (restoreCopy_evolves h hok).coherent.recovers hl hlost fun c' hc' => ?_⟩
  rw [Table.find?_modify, if_pos rfl, hc, Option.map_some] at hc'
  obtain rfl := Option.some.inj hc'
  rfl

/-- A promise can be cancelled by both and kept by the borrower. -/
theorem Db.Coherent.approved_progress (h : db.Coherent) (hl : l ∈ db.loans)
    (hk : l.borrowerKind = .registered) (hs : l.status = .approved) :
    ∃ b, l.borrowerId = some b ∧ ∀ now (req : UpdateLoanRequest),
      (req.action = .cancel → Succeeds (runTransition now l.ownerId l.id req) db ∧
        Succeeds (runTransition now b l.id req) db) ∧
      (req.action = .handOver → Succeeds (runTransition now b l.id req) db) := by
  obtain ⟨s, rfl, hne⟩ := h.served hl hk
  obtain ⟨c, hc, -⟩ := h.placed s.row hl
  have ho := (h.trail hl).origin_of_approved hs
  have hrun := fun {now actorId req outcome} hactor row hevent hrecover =>
    @Db.Coherent.runs db c now h s hl hne hc _ (.approved hs) actorId hactor req outcome row hevent
      hrecover
  refine ⟨s.borrowerId, s.row_borrowerId, fun now req => ⟨fun ha => ?_, fun ha => ?_⟩⟩
  · have row : ∀ actorId, TransitionRow s.row.status req.action (actorOf s.row actorId) s.row.origin
        .cancelApproved := by
      intro actorId
      rw [hs, ha, ho]
      exact .cancelApproved _
    exact ⟨hrun (Or.inl rfl) (row _) (by decide) (fun he => nomatch he),
      hrun (Or.inr rfl) (row _) (by decide) (fun he => nomatch he)⟩
  · have row : TransitionRow s.row.status req.action (actorOf s.row s.borrowerId) s.row.origin
        .handOver := by
      rw [hs, ha, ho, actorOf_borrower hne]
      exact .handOver
    exact hrun (Or.inr rfl) row (by decide) (fun he => nomatch he)

/-- A record can be confirmed, declined and withdrawn. -/
theorem Db.Coherent.pending_progress (h : db.Coherent) (hl : l ∈ db.loans)
    (hk : l.borrowerKind = .registered) (hs : l.status = .pendingConfirmation) :
    ∃ b, l.borrowerId = some b ∧ ∀ now (req : UpdateLoanRequest),
      (req.action = .confirmRecord ∨ req.action = .declineRecord →
        Succeeds (runTransition now b l.id req) db) ∧
      (req.action = .withdrawRecord → Succeeds (runTransition now l.ownerId l.id req) db) := by
  have ho := h.origin_of_record hl hk hs
  obtain ⟨s, rfl, hne⟩ := h.served hl hk
  obtain ⟨c, hc, -⟩ := h.placed s.row hl
  have hrun := fun {now actorId req outcome} hactor row hevent hrecover =>
    @Db.Coherent.runs db c now h s hl hne hc _ (.pendingRegistered hs hk) actorId hactor req outcome
      row hevent hrecover
  refine ⟨s.borrowerId, s.row_borrowerId, fun now req => ⟨?_, fun ha => ?_⟩⟩
  · rintro (ha | ha)
    · have row : TransitionRow s.row.status req.action (actorOf s.row s.borrowerId) s.row.origin
          .confirmRecord := by
        rw [hs, ha, ho, actorOf_borrower hne]
        exact .confirmRecord
      exact hrun (Or.inr rfl) row (by decide) (fun he => nomatch he)
    · have row : TransitionRow s.row.status req.action (actorOf s.row s.borrowerId) s.row.origin
          .declineRecord := by
        rw [hs, ha, ho, actorOf_borrower hne]
        exact .declineRecord
      exact hrun (Or.inr rfl) row (by decide) (fun he => nomatch he)
  · have row : TransitionRow s.row.status req.action (actorOf s.row s.row.ownerId) s.row.origin
        .withdrawRecord := by
      rw [hs, ha, ho, actorOf_owner]
      exact .withdrawRecord
    exact hrun (Or.inl rfl) row (by decide) (fun he => nomatch he)

/-- A book that is out can come back and can be lost. -/
theorem Db.Coherent.handedOver_progress (h : db.Coherent) (hl : l ∈ db.loans)
    (hk : l.borrowerKind = .registered) (hs : l.status = .handedOver) (now : Time)
    (req : UpdateLoanRequest) (ha : req.action = .return ∨ req.action = .markLost) :
    Succeeds (runTransition now l.ownerId l.id req) db := by
  have ho := ((h.parties hl).registered hk).1
  obtain ⟨s, rfl, hne⟩ := h.served hl hk
  obtain ⟨c, hc, -⟩ := h.placed s.row hl
  rcases ha with ha | ha
  · have row : TransitionRow s.row.status req.action (actorOf s.row s.row.ownerId) s.row.origin
        (.returnBook s.row.origin) := by
      rw [hs, ha, actorOf_owner]
      exact .returnBook _ ho
    refine h.runs hl hne hc (.handedOver hs) (Or.inl rfl) row ?_ ?_
    · cases s.row.origin <;> decide
    · cases s.row.origin <;> exact fun he => nomatch he
  · have row : TransitionRow s.row.status req.action (actorOf s.row s.row.ownerId) s.row.origin
        .markLost := by
      rw [hs, ha, actorOf_owner]
      exact .markLost _ ho
    exact h.runs hl hne hc (.handedOver hs) (Or.inl rfl) row (by decide) (fun he => nomatch he)

/-- A guest's book too. -/
theorem Db.Coherent.handedOver_progress_guest (h : db.Coherent) (hl : l ∈ db.loans)
    (hk : l.borrowerKind = .guest) (hs : l.status = .handedOver) (now : Time)
    (req : UpdateGuestLoanRequest) (ha : req.action = .return ∨ req.action = .markLost) :
    Succeeds (applyGuestTransition now l.ownerId l.id req) db := by
  obtain ⟨c, hc, -⟩ := h.placed l hl
  have hs' : l.status = GuestLoanStatus.handedOver.toLoanStatus := hs
  obtain ⟨outcome, row, hclosure, hrecover⟩ : ∃ outcome,
      resolveGuestTransition .handedOver req.action = some outcome ∧
        outcome.event ≠ .lossClosed ∧ outcome.event ≠ .recovered := by
    rcases ha with ha | ha <;> rw [ha] <;> exact ⟨_, rfl, by decide, by decide⟩
  exact h.runsGuest hl hk hc (.handedOver hs) hs' row hclosure fun he => absurd he hrecover

/-- **No reachable loan is stuck.** -/
theorem no_loan_stuck {secrets : GuestConfirmationSecrets} {w : World}
    (h : (system secrets).Reachable w) {l : Loan} (hl : l ∈ w.db.loans) :
    LoanProgress w.db l := by
  have hco := (reachable_coherent h).db
  constructor
  case approved => exact hco.approved_progress hl
  case pending => exact hco.pending_progress hl
  case handedOver => exact hco.handedOver_progress hl
  case handedOverGuest => exact hco.handedOver_progress_guest hl
  case pendingGuest =>
    intro hk hs
    obtain ⟨g, hg, hloan, hdecide⟩ := hco.decides hl hk hs
    exact ⟨g, hg, hloan, fun now => ⟨hdecide now _, hdecide now _⟩⟩
  case lost => exact fun hlost harch => hco.recovers hl hlost harch
  case restored => exact fun hlost => hco.recovers_restored hl hlost

theorem no_loan_stuck_waiting :
    LoanProgress exampleWaiting (guestLoanRow .pendingConfirmation 0 exampleCopy exampleLend 20) :=
  no_loan_stuck (exampleWaiting_reachable exampleSecrets) (List.mem_singleton.mpr rfl)

end Bookswap
