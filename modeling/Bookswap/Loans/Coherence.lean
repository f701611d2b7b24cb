import Bookswap.Loans.Dossier

/-!
# The coherence of copies and loans

The invariant of the database, and the rules that keep it. A transaction is a chain of a
few kinds of change; each kind has one rule, and the rule asks only what that change must
respect.

- `Db.Coherent`: every dossier is sound, copies and loans agree as occupied resources
  and their claimants, no request waits for a copy that is promised or away, and every
  row refers to rows that exist.
- `Coherent.quiet`: nothing the invariant reads has changed.
- `Coherent.opened`, `Coherent.moved`: a loan begins; a loan takes a step of its life.
- `Coherent.rejected`: the rivals on a copy are rejected.
- `Coherent.shelved`, `Coherent.added`, `Coherent.removed`: the shelf.
- `Coherent.erased`: contacts are forgotten.
-/

namespace Bookswap

open Store Occupancy

namespace Db

/-- Copies as resources, loans as their claimants. -/
def occupancy (db : Db) : Occupancy.State CopyId LoanId Shape where
  shape r := (db.copies.find? r).map Copy.shape
  hold k := (db.loans.find? k).bind fun l => (l.demand (db.log k)).map fun t => (l.copyId, t)

/-- **The invariant.** -/
structure Coherent (db : Db) : Prop where
  sound : ∀ l ∈ db.loans, (db.dossier l).Sound
  agrees : Agrees Shape.Idle db.occupancy
  no_rivals : ∀ l ∈ db.loans, ∀ r ∈ db.loans, l.copyId = r.copyId →
    l.status = .approved ∨ l.status = .handedOver → r.status ≠ .requested
  placed : ∀ l ∈ db.loans, ∃ c, db.copies.find? l.copyId = some c ∧ c.ownerId = l.ownerId
  owned : ∀ c ∈ db.copies, ∃ u, db.users.find? c.ownerId = some u
  known : ∀ l ∈ db.loans, ∀ c, l.borrowerContactId = some c → ∃ k, db.contacts.find? c = some k
  event_loan : ∀ e ∈ db.events, ∃ l, db.loans.find? e.loanId = some l
  notice_loan : ∀ n ∈ db.notifications, n.type = .loanRejected →
    ∃ l, db.loans.find? n.payload.loanId = some l
  confirmation_loan : ∀ g ∈ db.confirmations, ∃ l, db.loans.find? g.loanId = some l

end Db

/-- No loan and no confirmation is lost, and each stays where it belongs. -/
structure Db.Extends (db db' : Db) : Prop where
  loans : ∀ {id l}, db.loans.find? id = some l → ∃ l', db'.loans.find? id = some l' ∧
    l'.copyId = l.copyId ∧ l'.ownerId = l.ownerId ∧ l'.borrowerId = l.borrowerId
  confirmations : ∀ {id g}, db.confirmations.find? id = some g →
    ∃ g', db'.confirmations.find? id = some g' ∧ g'.loanId = g.loanId

/-- What a transaction makes of a coherent database. -/
structure Db.Evolves (db db' : Db) : Prop where
  coherent : db'.Coherent
  kept : db.Extends db'

theorem Db.Extends.refl (db : Db) : db.Extends db :=
  ⟨fun h => ⟨_, h, rfl, rfl, rfl⟩, fun h => ⟨_, h, rfl⟩⟩

theorem Db.Extends.trans {db₁ db₂ db₃ : Db} (h : db₁.Extends db₂) (h' : db₂.Extends db₃) :
    db₁.Extends db₃ := by
  constructor
  · intro id l hl
    obtain ⟨l', hl', hc, ho, hb⟩ := h.loans hl
    obtain ⟨l'', hl'', hc', ho', hb'⟩ := h'.loans hl'
    exact ⟨l'', hl'', hc'.trans hc, ho'.trans ho, hb'.trans hb⟩
  · intro id g hg
    obtain ⟨g', hg', hl⟩ := h.confirmations hg
    obtain ⟨g'', hg'', hl'⟩ := h'.confirmations hg'
    exact ⟨g'', hg'', hl'.trans hl⟩

theorem Db.Evolves.trans {db₁ db₂ db₃ : Db} (h : db₁.Evolves db₂) (h' : db₂.Evolves db₃) :
    db₁.Evolves db₃ := ⟨h'.coherent, h.kept.trans h'.kept⟩

theorem Db.Coherent.refl {db : Db} (h : db.Coherent) : db.Evolves db := ⟨h, .refl db⟩

/-- Tables rewritten by edits that keep each row where it belongs. -/
theorem Db.Extends.of_map {db db' : Db} {f : Table.Edit Loan.id}
    {k : Table.Edit GuestLoanConfirmation.id} (hl : db'.loans = db.loans.map f)
    (hf : ∀ l ∈ db.loans, (f l).copyId = l.copyId ∧ (f l).ownerId = l.ownerId ∧
      (f l).borrowerId = l.borrowerId)
    (hg : db'.confirmations = db.confirmations.map k)
    (hk : ∀ g ∈ db.confirmations, (k g).loanId = g.loanId) : db.Extends db' := by
  constructor
  · intro id l h
    rw [hl, Table.find?_map, h]
    exact ⟨_, rfl, hf l (Table.mem_of_find? h)⟩
  · intro id g h
    rw [hg, Table.find?_map, h]
    exact ⟨_, rfl, hk g (Table.mem_of_find? h)⟩

variable {db db' : Db}

theorem hold_eq_some {k : LoanId} {r : CopyId} {t : Shape} :
    db.occupancy.hold k = some (r, t) ↔
      ∃ l, db.loans.find? k = some l ∧ l.copyId = r ∧ l.demand (db.log k) = some t := by
  simp only [Db.occupancy, Option.bind_eq_some_iff, Option.map_eq_some_iff, Prod.mk.injEq]
  constructor
  · rintro ⟨l, hl, t', ht, rfl, rfl⟩
    exact ⟨l, hl, rfl, ht⟩
  · rintro ⟨l, hl, rfl, ht⟩
    exact ⟨l, hl, t, ht, rfl, rfl⟩

theorem shape_eq_some {r : CopyId} {t : Shape} :
    db.occupancy.shape r = some t ↔ ∃ c, db.copies.find? r = some c ∧ c.shape = t :=
  Option.map_eq_some_iff

theorem Db.Coherent.trail (h : db.Coherent) {l : Loan} (hl : l ∈ db.loans) :
    Trail l.origin (db.log l.id) l.status := (h.sound l hl).trail

theorem Db.Coherent.parties (h : db.Coherent) {l : Loan} (hl : l ∈ db.loans) : l.PartiesValid :=
  (h.sound l hl).parties

/-- What a loan demands, its copy shows. -/
theorem Db.Coherent.demand_shown (h : db.Coherent) {l : Loan} {c : Copy} {t : Shape}
    (hl : l ∈ db.loans) (hc : db.copies.find? l.copyId = some c)
    (ht : l.demand (db.log l.id) = some t) : c.shape = t := by
  have hshape := h.agrees.held (hold_eq_some.mpr ⟨l, Table.find?_of_mem hl, rfl, ht⟩)
  obtain ⟨c', hc', rfl⟩ := shape_eq_some.mp hshape
  rw [Option.some.inj (hc.symm.trans hc')]

/-- A copy no loan demands is idle. -/
theorem Db.Coherent.idle_of_free (h : db.Coherent) {c : Copy} (hc : c ∈ db.copies)
    (hfree : ∀ l ∈ db.loans, l.copyId = c.id → l.demand (db.log l.id) = none) : c.shape.Idle := by
  refine h.agrees.rest (r := c.id) (shape_eq_some.mpr ⟨c, Table.find?_of_mem hc, rfl⟩) ?_
  intro k t hk
  obtain ⟨l, hl, hcopy, ht⟩ := hold_eq_some.mp hk
  have hid := Table.key_of_find? hl
  rw [← hid] at ht
  rw [hfree l (Table.mem_of_find? hl) hcopy] at ht
  cases ht

/-- Nobody has a claim on an available copy. -/
theorem Db.Coherent.free_of_available (h : db.Coherent) {c : Copy} (hc : c ∈ db.copies)
    (hs : c.status = .available) :
    ∀ l ∈ db.loans, l.copyId = c.id → l.demand (db.log l.id) = none := by
  intro l hl hcopy
  by_contra hne
  obtain ⟨t, ht⟩ := Option.ne_none_iff_exists'.mp hne
  have hshown := h.demand_shown hl (hcopy ▸ Table.find?_of_mem hc) ht
  exact Loan.demand_not_available ht (hshown ▸ hs)

/-! ## Logs after a change -/

/-- An event about one loan extends the log of that loan only. -/
theorem eventsOf_append {event : Option LoanEvent} {id : LoanId}
    (hnamed : ∀ e ∈ event, e.loanId = id) (k : LoanId) :
    (db.events ++ event.toList).filter (fun e => e.loanId = k) =
      if k = id then db.eventsOf k ++ event.toList else db.eventsOf k := by
  rw [List.filter_append]
  cases event with
  | none => simp [Db.eventsOf]
  | some e =>
    have he : e.loanId = id := hnamed e rfl
    by_cases hk : k = id
    · rw [if_pos hk, Option.toList_some, List.filter_singleton, he, hk]
      simp [Db.eventsOf]
    · rw [if_neg hk, Option.toList_some, List.filter_singleton, he, decide_eq_false (Ne.symm hk)]
      simp [Db.eventsOf]

/-! ## Quiet changes -/

/-- Nothing the invariant reads has changed: loans, copies and events are the same, no
rejection was sent, and no confirmation, contact or user is gone. -/
structure Db.Quiet (db db' : Db) : Prop where
  loans : db'.loans = db.loans
  copies : db'.copies = db.copies
  events : db'.events = db.events
  notices : ∃ ns, db'.notifications = db.notifications ++ ns ∧ ∀ n ∈ ns, n.type ≠ .loanRejected
  confirmations : ∃ f : Table.Edit GuestLoanConfirmation.id,
    db'.confirmations = db.confirmations.map f ∧ ∀ g, (f g).loanId = g.loanId ∧
      (f g).externalBorrowerId = g.externalBorrowerId ∧ (f g).status = g.status
  contacts : ∀ id k, db.contacts.find? id = some k → ∃ k', db'.contacts.find? id = some k'
  users : ∀ id u, db.users.find? id = some u → ∃ u', db'.users.find? id = some u'

/-- Notices that are no rejections leave the rejections as they are. -/
theorem rejections_append {ns : List Notification} (h : ∀ n ∈ ns, n.type ≠ .loanRejected)
    (k : LoanId) :
    (db.notifications ++ ns).filter (Notification.isRejectionOf k) = db.rejectionsOf k := by
  have hnone : ns.filter (Notification.isRejectionOf k) = [] := by
    refine List.filter_eq_nil_iff.mpr fun n hn => ?_
    simp [Notification.isRejectionOf, h n hn]
  rw [List.filter_append, hnone, List.append_nil]
  rfl

/-- An edit that keeps the loan of a confirmation edits the confirmations of each loan. -/
theorem confirmationsOf_map {f : Table.Edit GuestLoanConfirmation.id}
    (h : ∀ g ∈ db.confirmations, (f g).loanId = g.loanId) (k : LoanId) :
    ((db.confirmations.map f).rows.filter fun g => g.loanId = k) =
      (db.confirmationsOf k).map f := by
  rw [Table.rows_map, List.filter_map]
  refine congrArg (List.map f) (List.filter_congr fun g hg => ?_)
  rw [Function.comp_apply, h g hg]

/-- The confirmations of a loan still match when each is edited in place. -/
theorem Dossier.ConfirmationsMatch.map {d d' : Dossier} (h : d.ConfirmationsMatch)
    {f : GuestLoanConfirmation → GuestLoanConfirmation}
    (hconf : d'.confirmations = d.confirmations.map f)
    (hask : .guestConfirmationRequested ∈ d'.log ↔ .guestConfirmationRequested ∈ d.log)
    (hcontact : d'.loan.borrowerContactId = d.loan.borrowerContactId)
    (hf : ∀ g ∈ d.confirmations, (f g).externalBorrowerId = g.externalBorrowerId ∧
      (g.status = confirmationAfter d.log → (f g).status = confirmationAfter d'.log)) :
    d'.ConfirmationsMatch := by
  unfold Dossier.ConfirmationsMatch at *
  by_cases hr : .guestConfirmationRequested ∈ d.log
  · rw [if_pos hr] at h
    rw [if_pos (hask.mpr hr)]
    obtain ⟨g, hg, hc, hs⟩ := h
    have hmem : g ∈ d.confirmations := hg ▸ List.mem_singleton_self g
    refine ⟨f g, by rw [hconf, hg, List.map_singleton], ?_, (hf g hmem).2 hs⟩
    rw [(hf g hmem).1, hc, hcontact]
  · rw [if_neg hr] at h
    rw [if_neg (fun h' => hr (hask.mp h')), hconf, h, List.map_nil]

/-- A dossier whose loan, events and rejections stay, and whose confirmations keep contact
and status, stays sound. -/
theorem Dossier.Sound.frame {d d' : Dossier} (s : d.Sound) (hl : d'.loan = d.loan)
    (he : d'.events = d.events) (hr : d'.rejections = d.rejections)
    {f : GuestLoanConfirmation → GuestLoanConfirmation}
    (hc : d'.confirmations = d.confirmations.map f)
    (hf : ∀ g ∈ d.confirmations, (f g).externalBorrowerId = g.externalBorrowerId ∧
      (f g).status = g.status) : d'.Sound := by
  have hlog : d'.log = d.log := congrArg (List.map LoanEvent.type) he
  refine ⟨?_, hl ▸ s.parties, hl ▸ s.requested, hl ▸ s.handed, hl ▸ s.returned, ?_, ?_, ?_⟩
  · rw [hlog, hl]
    exact s.trail
  · unfold Dossier.RejectionsMatch
    rw [hl, hr]
    exact s.rejections
  · refine s.confirmations.map hc (by rw [hlog]) (by rw [hl]) fun g hg => ⟨(hf g hg).1, fun hs => ?_⟩
    rw [(hf g hg).2, hlog]
    exact hs
  · rw [hl, he]
    exact s.dates

/-- **Quiet changes keep the invariant.** -/
theorem Db.Coherent.quiet (h : db.Coherent) (q : db.Quiet db') : db.Evolves db' := by
  obtain ⟨ns, hns, hrej⟩ := q.notices
  obtain ⟨f, hf, hkeep⟩ := q.confirmations
  have hevents : ∀ k, db'.eventsOf k = db.eventsOf k := fun k => by
    rw [Db.eventsOf, q.events, ← Db.eventsOf]
  have hlog : ∀ k, db'.log k = db.log k := fun k => by
    rw [Db.log, hevents, ← Db.log]
  have hrejections : ∀ k, db'.rejectionsOf k = db.rejectionsOf k := fun k => by
    rw [Db.rejectionsOf, hns]
    exact rejections_append hrej k
  have hconf : ∀ k, db'.confirmationsOf k = (db.confirmationsOf k).map f := fun k => by
    rw [Db.confirmationsOf, hf]
    exact confirmationsOf_map (fun g _ => (hkeep g).1) k
  have hocc : db'.occupancy = db.occupancy := by
    refine Occupancy.State.ext (funext fun r => ?_) (funext fun k => ?_)
    · show (db'.copies.find? r).map _ = _
      rw [q.copies]
      rfl
    · show (db'.loans.find? k).bind _ = _
      rw [q.loans, hlog]
      rfl
  refine ⟨?_, .of_map (f := ⟨id, fun _ => rfl⟩) (q.loans.trans (Table.map_eq_self fun _ _ => rfl).symm)
    (fun _ _ => ⟨rfl, rfl, rfl⟩) hf fun g _ => (hkeep g).1⟩
  constructor
  · intro l hl
    rw [q.loans] at hl
    exact (h.sound l hl).frame rfl (hevents l.id) (hrejections l.id) (hconf l.id) fun g _ => (hkeep g).2
  · rw [hocc]
    exact h.agrees
  · rw [q.loans]
    exact h.no_rivals
  · rw [q.loans, q.copies]
    exact h.placed
  · rw [q.copies]
    intro c hc
    obtain ⟨u, hu⟩ := h.owned c hc
    exact q.users _ _ hu
  · rw [q.loans]
    intro l hl c hc
    obtain ⟨k, hk⟩ := h.known l hl c hc
    exact q.contacts _ _ hk
  · rw [q.events, q.loans]
    exact h.event_loan
  · rw [hns, q.loans]
    intro n hn ht
    rcases List.mem_append.mp hn with hn | hn
    · exact h.notice_loan n hn ht
    · exact absurd ht (hrej n hn)
  · rw [hf, q.loans]
    intro g hg
    obtain ⟨g₀, hg₀, rfl⟩ := Table.mem_map.mp hg
    rw [(hkeep g₀).1]
    exact h.confirmation_loan g₀ hg₀

/-! ## A step of one loan -/

/-- `l'` is `l` with other status, dates or note: the parties, the copy and the origin stay. -/
structure Loan.SameParties (l l' : Loan) : Prop where
  id : l'.id = l.id
  copyId : l'.copyId = l.copyId
  ownerId : l'.ownerId = l.ownerId
  borrowerId : l'.borrowerId = l.borrowerId
  borrowerKind : l'.borrowerKind = l.borrowerKind
  borrowerContactId : l'.borrowerContactId = l.borrowerContactId
  origin : l'.origin = l.origin
  requestedAt : l'.requestedAt = l.requestedAt

theorem Loan.SameParties.refl (l : Loan) : l.SameParties l := ⟨rfl, rfl, rfl, rfl, rfl, rfl, rfl, rfl⟩

/-- The parties stay valid when only a loan that was exclusive is exclusive. -/
theorem Loan.PartiesValid.step {l l' : Loan} (h : l.PartiesValid) (same : l.SameParties l')
    (hex : l.origin = .recordedGuest → l'.status.isExclusive = true →
      l.status.isExclusive = true) : l'.PartiesValid := by
  constructor
  · intro hk
    rw [same.origin, same.borrowerId, same.ownerId, same.borrowerContactId]
    exact h.registered (same.borrowerKind.symm.trans hk)
  · intro hk
    rw [same.origin, same.borrowerId, same.borrowerContactId]
    obtain ⟨horigin, hb, hc⟩ := h.guest (same.borrowerKind.symm.trans hk)
    exact ⟨horigin, hb, fun hs => hc (hex horigin hs)⟩

/-- The writes of one step: the loan `l` and its copy, the confirmations, at most one event,
the notices. -/
def Db.moved (db : Db) (l : Loan) (f : Table.Edit Loan.id) (g : Table.Edit Copy.id)
    (k : Table.Edit GuestLoanConfirmation.id) (event : Option LoanEvent)
    (notices : List Notification) : Db :=
  { db with
    loans := db.loans.modify l.id f
    copies := db.copies.modify l.copyId g
    confirmations := db.confirmations.map k
    events := db.events ++ event.toList
    notifications := db.notifications ++ notices }

/-- What the writes of one step respect. -/
structure Moves (db : Db) (l : Loan) (f : Table.Edit Loan.id) (c : Copy) (g : Table.Edit Copy.id)
    (k : Table.Edit GuestLoanConfirmation.id) (event : Option LoanEvent)
    (notices : List Notification) : Prop where
  mem : l ∈ db.loans
  find_copy : db.copies.find? l.copyId = some c
  parties : l.SameParties (f l)
  copy_owner : (g c).ownerId = c.ownerId
  named : ∀ e ∈ event, e.loanId = l.id
  life : LifeStep (db.log l.id) l.origin l.status (event.map LoanEvent.type) (f l).status
  shift : Shift (l.demand (db.log l.id))
    ((f l).demand (db.log l.id ++ (event.map LoanEvent.type).toList)) c.shape (g c).shape
  alone : (f l).status = .approved ∨ (f l).status = .handedOver →
    l.status = .approved ∨ l.status = .handedOver ∨
      ∀ r ∈ db.loans, r.copyId = l.copyId → r.id ≠ l.id → r.status ≠ .requested
  handed : l.handedAt ≠ none ∨ (f l).status = .handedOver → (f l).handedAt ≠ none
  returned : (f l).status = .returned → (f l).returnedAt ≠ none
  rejection : if (f l).status = .rejected then
      (f l).respondedAt ≠ none ∧ ∃ b actorId, l.borrowerId = some b ∧
        notices = [rejectionNotice l.copyId actorId l.id b]
    else ∀ n ∈ notices, n.type ≠ .loanRejected
  dates : l.origin = .recordedExisting → DatesStep l.dates event (f l).dates
  confirmation_loan : ∀ x ∈ db.confirmations, (k x).loanId = x.loanId
  confirmation_contact : ∀ x ∈ db.confirmations, (k x).externalBorrowerId = x.externalBorrowerId
  confirmation_other : ∀ x ∈ db.confirmations, x.loanId ≠ l.id → (k x).status = x.status
  confirmation_own : ∀ x ∈ db.confirmations, x.loanId = l.id →
    x.status = confirmationAfter (db.log l.id) →
    (k x).status = confirmationAfter (db.log l.id ++ (event.map LoanEvent.type).toList)

/-- The claim on a copy changes hands as the shapes say. -/
theorem Agrees.shift {ρ κ : Type} [DecidableEq ρ] [DecidableEq κ] {s : Occupancy.State ρ κ Shape}
    (h : Agrees Shape.Idle s) (hne : ∀ k r t, s.hold k = some (r, t) → t.status ≠ .available)
    {k : κ} {r : ρ} {before after : Option Shape} {sh sh' : Shape}
    (hk : s.hold k = before.map fun t => (r, t)) (hr : s.shape r = some sh)
    (hs : Shift before after sh sh') :
    Agrees Shape.Idle ⟨Function.update s.shape r (some sh'),
      Function.update s.hold k (after.map fun t => (r, t))⟩ := by
  cases hs with
  | stay hb ha heq =>
    subst hb ha heq
    rw [← hr, Function.update_eq_self, ← hk, Function.update_eq_self]
    exact h
  | take t hb ha hav ht =>
    subst hb ha
    have hfree : s.Free r := fun k' t' hk' =>
      hne k' r t' hk' (Option.some.inj (hr.symm.trans (h.held hk')) ▸ hav)
    rw [ht (h.rest hr hfree)]
    exact h.occupy (Or.inl ⟨hfree, hk⟩)
  | carry t₀ t hb ha ht =>
    subst hb ha
    rw [ht (Option.some.inj (hr.symm.trans (h.held hk)))]
    exact h.occupy (Or.inr ⟨t₀, hk⟩)
  | free t₀ hb ha hi =>
    subst hb ha
    exact h.release hk (hi (Option.some.inj (hr.symm.trans (h.held hk))))

theorem hold_not_available {k : LoanId} {r : CopyId} {t : Shape}
    (h : db.occupancy.hold k = some (r, t)) : t.status ≠ .available := by
  obtain ⟨l, -, -, ht⟩ := hold_eq_some.mp h
  exact Loan.demand_not_available ht

section Moved

variable {l : Loan} {f : Table.Edit Loan.id} {c : Copy} {g : Table.Edit Copy.id}
  {k : Table.Edit GuestLoanConfirmation.id} {event : Option LoanEvent}
  {notices : List Notification}

theorem Moves.eventsOf (m : Moves db l f c g k event notices) (id : LoanId) :
    (db.moved l f g k event notices).eventsOf id =
      if id = l.id then db.eventsOf id ++ event.toList else db.eventsOf id :=
  eventsOf_append m.named id

theorem Moves.log (m : Moves db l f c g k event notices) (id : LoanId) :
    (db.moved l f g k event notices).log id =
      if id = l.id then db.log id ++ (event.map LoanEvent.type).toList else db.log id := by
  rw [Db.log, m.eventsOf]
  by_cases hid : id = l.id
  · rw [if_pos hid, if_pos hid, List.map_append, Db.log, ← Option.toList_map]
  · rw [if_neg hid, if_neg hid, Db.log]

theorem Moves.rejectionsOf (m : Moves db l f c g k event notices) (id : LoanId) :
    (db.moved l f g k event notices).rejectionsOf id =
      if id = l.id ∧ (f l).status = .rejected then db.rejectionsOf id ++ notices
      else db.rejectionsOf id := by
  have hrej := m.rejection
  by_cases hs : (f l).status = .rejected
  · rw [if_pos hs] at hrej
    obtain ⟨-, b, actorId, -, rfl⟩ := hrej
    show (db.notifications ++ _).filter _ = _
    rw [List.filter_append, List.filter_singleton]
    by_cases hid : id = l.id
    · rw [if_pos ⟨hid, hs⟩]
      simp [Notification.isRejectionOf, rejectionNotice, NotificationPayload.loanId, hid,
        Db.rejectionsOf]
    · rw [if_neg fun hc => hid hc.1]
      simp [Notification.isRejectionOf, rejectionNotice, NotificationPayload.loanId, Ne.symm hid,
        Db.rejectionsOf]
  · rw [if_neg hs] at hrej
    rw [if_neg fun hc => hs hc.2]
    exact rejections_append hrej id

theorem Moves.confirmationsOf (m : Moves db l f c g k event notices) (id : LoanId) :
    (db.moved l f g k event notices).confirmationsOf id = (db.confirmationsOf id).map k :=
  confirmationsOf_map m.confirmation_loan id

theorem mem_confirmationsOf {id : LoanId} {x : GuestLoanConfirmation} :
    x ∈ db.confirmationsOf id ↔ x ∈ db.confirmations ∧ x.loanId = id := by
  simp [Db.confirmationsOf, Table.mem_def]

/-- A row of the moved table is the moved loan, or another one as it was. -/
theorem Moves.mem_loans (m : Moves db l f c g k event notices) {x : Loan} :
    x ∈ (db.moved l f g k event notices).loans ↔
      x = f l ∨ (x ∈ db.loans ∧ x.id ≠ l.id) := by
  show x ∈ db.loans.modify l.id f ↔ _
  rw [Table.mem_modify]
  constructor
  · rintro ⟨a, ha, rfl⟩
    by_cases hid : a.id = l.id
    · rw [if_pos hid, Table.eq_of_key_eq ha m.mem hid]
      exact Or.inl rfl
    · rw [if_neg hid]
      exact Or.inr ⟨ha, hid⟩
  · rintro (rfl | ⟨hx, hid⟩)
    · exact ⟨l, m.mem, if_pos rfl⟩
    · exact ⟨x, hx, if_neg hid⟩

/-- The moved loan's dossier is sound again. -/
theorem Moves.sound_own (m : Moves db l f c g k event notices) (s : (db.dossier l).Sound) :
    ((db.moved l f g k event notices).dossier (f l)).Sound := by
  have hid : (f l).id = l.id := m.parties.id
  have hlog : (db.moved l f g k event notices).log (f l).id =
      db.log l.id ++ (event.map LoanEvent.type).toList := by
    rw [m.log, hid, if_pos rfl]
  refine ⟨?_, ?_, ?_, ?_, m.returned, ?_, ?_, ?_⟩
  · show Trail (f l).origin ((db.moved l f g k event notices).log (f l).id) (f l).status
    rw [hlog, m.parties.origin]
    exact s.trail.stepped m.life
  · refine Loan.PartiesValid.step s.parties m.parties fun horigin hex => ?_
    have hlife := m.life
    rw [show l.origin = .recordedGuest from horigin] at hlife
    exact hlife.exclusive_before hex
  · intro ho
    show (f l).requestedAt ≠ none
    rw [m.parties.requestedAt]
    exact s.requested (m.parties.origin.symm.trans ho)
  · intro hh
    refine m.handed ?_
    rcases hh with ho | hs
    · exact Or.inl (s.handed (Or.inl (m.parties.origin ▸ ho)))
    · rcases m.life.handed_before hs with hb | ha
      · exact Or.inl (s.handed (Or.inr hb))
      · exact Or.inr ha
  · have hnone : db.rejectionsOf l.id = [] := s.rejections.of_other m.life.not_rejected
    have hrej := m.rejection
    have hown := m.rejectionsOf l.id
    rw [hnone] at hown
    by_cases hs : (f l).status = .rejected
    · rw [if_pos hs] at hrej
      obtain ⟨hat, b, actorId, hb, hn⟩ := hrej
      refine .rejected actorId hs hat (m.parties.borrowerId.trans hb) ?_
      show (db.moved l f g k event notices).rejectionsOf (f l).id =
        [rejectionNotice (f l).copyId actorId (f l).id b]
      rw [hid, hown, if_pos ⟨rfl, hs⟩, List.nil_append, m.parties.copyId]
      exact hn
    · refine .other hs ?_
      show (db.moved l f g k event notices).rejectionsOf (f l).id = []
      rw [hid, hown, if_neg fun hc => hs hc.2]
  · have hconf : (db.moved l f g k event notices).confirmationsOf (f l).id =
        (db.confirmationsOf l.id).map k := by
      rw [hid]
      exact m.confirmationsOf l.id
    refine s.confirmations.map hconf ?_ m.parties.borrowerContactId fun x hx => ?_
    · show _ ∈ (db.moved l f g k event notices).log (f l).id ↔ _ ∈ db.log l.id
      rw [hlog, List.mem_append, or_iff_left m.life.event_ne_asked]
    · obtain ⟨hmem, hx⟩ := mem_confirmationsOf.mp hx
      refine ⟨m.confirmation_contact x hmem, fun hs => ?_⟩
      show (k x).status = confirmationAfter ((db.moved l f g k event notices).log (f l).id)
      rw [hlog]
      exact m.confirmation_own x hmem hx hs
  · intro ho
    have horigin : l.origin = .recordedExisting := m.parties.origin.symm.trans ho
    show DatesChain ((db.moved l f g k event notices).eventsOf (f l).id) (f l).dates
    rw [m.eventsOf, hid, if_pos rfl]
    exact (s.dates horigin).step (m.dates horigin)

/-- Another loan's dossier is untouched. -/
theorem Moves.sound_other (m : Moves db l f c g k event notices) {x : Loan}
    (hx : x.id ≠ l.id) (s : (db.dossier x).Sound) :
    ((db.moved l f g k event notices).dossier x).Sound := by
  refine s.frame rfl ?_ ?_ (m.confirmationsOf x.id) fun y hy => ?_
  · exact (m.eventsOf x.id).trans (if_neg hx)
  · exact (m.rejectionsOf x.id).trans (if_neg fun hc => hx hc.1)
  · obtain ⟨hmem, hy⟩ := mem_confirmationsOf.mp hy
    exact ⟨m.confirmation_contact y hmem, m.confirmation_other y hmem (hy ▸ hx)⟩

/-- The two sides of the agreement after a step. -/
theorem Moves.occupancy (m : Moves db l f c g k event notices) :
    (db.moved l f g k event notices).occupancy =
      ⟨Function.update db.occupancy.shape l.copyId (some (g c).shape),
        Function.update db.occupancy.hold l.id
          (((f l).demand (db.log l.id ++ (event.map LoanEvent.type).toList)).map
            fun t => (l.copyId, t))⟩ := by
  refine Occupancy.State.ext (funext fun r => ?_) (funext fun id => ?_)
  · show ((db.copies.modify l.copyId g).find? r).map Copy.shape =
      Function.update db.occupancy.shape l.copyId (some (g c).shape) r
    rw [Table.find?_modify]
    by_cases hr : r = l.copyId
    · subst hr
      rw [if_pos rfl, m.find_copy, Function.update_self]
      rfl
    · rw [if_neg hr, Function.update_of_ne hr]
      rfl
  · show ((db.loans.modify l.id f).find? id).bind (fun x =>
        (x.demand ((db.moved l f g k event notices).log id)).map fun t => (x.copyId, t)) =
      Function.update db.occupancy.hold l.id
        (((f l).demand (db.log l.id ++ (event.map LoanEvent.type).toList)).map
          fun t => (l.copyId, t)) id
    rw [Table.find?_modify]
    by_cases hid : id = l.id
    · subst hid
      rw [if_pos rfl, Table.find?_of_mem m.mem, Function.update_self, m.log, if_pos rfl]
      simp [m.parties.copyId]
    · rw [if_neg hid, Function.update_of_ne hid, m.log, if_neg hid]
      rfl

/-- **A step of one loan keeps the invariant.** -/
theorem Db.Coherent.moved (h : db.Coherent) (m : Moves db l f c g k event notices) :
    db.Evolves (db.moved l f g k event notices) := by
  have hkeep : ∀ {id x}, db.loans.find? id = some x →
      ∃ x', (db.moved l f g k event notices).loans.find? id = some x' := by
    intro id x hx
    show ∃ x', (db.loans.modify l.id f).find? id = some x'
    rw [Table.find?_modify]
    split
    · rw [Table.find?_of_mem m.mem]
      exact ⟨_, rfl⟩
    · exact ⟨x, hx⟩
  have hplaced : ∀ {r c'}, db.copies.find? r = some c' →
      ∃ c'', (db.moved l f g k event notices).copies.find? r = some c'' ∧
        c''.ownerId = c'.ownerId := by
    intro r c' hc'
    show ∃ c'', (db.copies.modify l.copyId g).find? r = some c'' ∧ _
    rw [Table.find?_modify]
    split
    · rename_i hr
      subst hr
      rw [m.find_copy]
      obtain rfl := Option.some.inj (m.find_copy.symm.trans hc')
      exact ⟨_, rfl, m.copy_owner⟩
    · exact ⟨c', hc', rfl⟩
  refine ⟨?_, .of_map (f := .only (fun a => a.id = l.id) f) rfl (fun x hx => ?_) rfl
    m.confirmation_loan⟩
  swap
  · rw [Table.Edit.only_apply]
    split
    · rename_i hid
      rw [Table.eq_of_key_eq hx m.mem (of_decide_eq_true hid)]
      exact ⟨m.parties.copyId, m.parties.ownerId, m.parties.borrowerId⟩
    · exact ⟨rfl, rfl, rfl⟩
  constructor
  · intro x hx
    rcases m.mem_loans.mp hx with rfl | ⟨hmem, hid⟩
    · exact m.sound_own (h.sound l m.mem)
    · exact m.sound_other hid (h.sound x hmem)
  · rw [m.occupancy]
    refine Agrees.shift h.agrees (fun _ _ _ => hold_not_available) ?_ ?_ m.shift
    · show (db.loans.find? l.id).bind _ = _
      rw [Table.find?_of_mem m.mem]
      rfl
    · show (db.copies.find? l.copyId).map _ = _
      rw [m.find_copy]
      rfl
  · intro x hx r hr hcopy hs
    rcases m.mem_loans.mp hx with rfl | ⟨hmem, hid⟩
    · rcases m.mem_loans.mp hr with rfl | ⟨hmem', hid'⟩
      · exact m.life.not_requested_after
      · rw [m.parties.copyId] at hcopy
        rcases m.alone hs with ha | ha | ha
        · exact h.no_rivals l m.mem r hmem' hcopy (Or.inl ha)
        · exact h.no_rivals l m.mem r hmem' hcopy (Or.inr ha)
        · exact ha r hmem' hcopy.symm hid'
    · rcases m.mem_loans.mp hr with rfl | ⟨hmem', hid'⟩
      · exact m.life.not_requested_after
      · exact h.no_rivals x hmem r hmem' hcopy hs
  · intro x hx
    rcases m.mem_loans.mp hx with rfl | ⟨hmem, hid⟩
    · obtain ⟨c', hc', hown⟩ := h.placed l m.mem
      obtain ⟨c'', hc'', hown'⟩ := hplaced hc'
      rw [m.parties.copyId, m.parties.ownerId]
      exact ⟨c'', hc'', hown'.trans hown⟩
    · obtain ⟨c', hc', hown⟩ := h.placed x hmem
      obtain ⟨c'', hc'', hown'⟩ := hplaced hc'
      exact ⟨c'', hc'', hown'.trans hown⟩
  · intro x hx
    obtain ⟨c', hc', rfl⟩ := Table.mem_modify.mp hx
    split
    · rename_i hid
      obtain rfl := Option.some.inj ((Table.find?_of_mem hc').symm.trans (hid ▸ m.find_copy))
      rw [m.copy_owner]
      exact h.owned c' hc'
    · exact h.owned c' hc'
  · intro x hx
    rcases m.mem_loans.mp hx with rfl | ⟨hmem, hid⟩
    · rw [m.parties.borrowerContactId]
      exact h.known l m.mem
    · exact h.known x hmem
  · intro e he
    rcases List.mem_append.mp he with he | he
    · exact (h.event_loan e he).elim fun _ hx => hkeep hx
    · rw [m.named e (Option.mem_toList.mp he)]
      exact hkeep (Table.find?_of_mem m.mem)
  · intro n hn ht
    rcases List.mem_append.mp hn with hn | hn
    · exact (h.notice_loan n hn ht).elim fun _ hx => hkeep hx
    · have hrej := m.rejection
      by_cases hs : (f l).status = .rejected
      · rw [if_pos hs] at hrej
        obtain ⟨-, b, actorId, -, rfl⟩ := hrej
        rw [List.mem_singleton.mp hn]
        exact hkeep (Table.find?_of_mem m.mem)
      · rw [if_neg hs] at hrej
        exact absurd ht (hrej n hn)
  · intro x hx
    obtain ⟨x₀, hx₀, rfl⟩ := Table.mem_map.mp hx
    rw [m.confirmation_loan x₀ hx₀]
    exact (h.confirmation_loan x₀ hx₀).elim fun _ hx => hkeep hx

end Moved

end Bookswap
