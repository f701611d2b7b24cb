import Bookswap.System

/-!
# Copies and loans agree

What the invariant says of one copy, in the words of the schema: which status it shows,
who holds it, and which of its loans is the reason (`CopyLoanAgrees`). The proof reads
the two sides of the agreement: a copy is idle, or exactly one loan claims it and shows
through it (`Coherent.idle_or_claimed`).
-/

namespace Bookswap

open Store

variable {db : Db}

/-- Does the loan claim the copy: promised, out, or lost and not found? -/
def Loan.Claims (db : Db) (l : Loan) (c : Copy) (t : Shape) : Prop :=
  l ∈ db.loans ∧ l.copyId = c.id ∧ Demands l (db.log l.id) t

/-- **A copy is idle and unclaimed, or one loan claims it and shows through it.** -/
theorem Db.Coherent.idle_or_claimed (h : db.Coherent) {c : Copy} (hc : c ∈ db.copies) :
    (c.shape.Idle ∧ ∀ l t, ¬Loan.Claims db l c t) ∨ ∃ l, Loan.Claims db l c c.shape := by
  by_cases hclaim : ∃ l t, Loan.Claims db l c t
  · obtain ⟨l, t, hl, hcopy, ht⟩ := hclaim
    have hshown := h.demand_shown hl (hcopy ▸ Table.find?_of_mem hc) (Loan.demand_eq_some.mpr ht)
    exact Or.inr ⟨l, hl, hcopy, hshown ▸ ht⟩
  · refine Or.inl ⟨h.idle_of_free hc fun l hl hcopy => ?_, fun l t ht => hclaim ⟨l, t, ht⟩⟩
    by_contra hne
    obtain ⟨t, ht⟩ := Option.ne_none_iff_exists'.mp hne
    exact hclaim ⟨l, t, hl, hcopy, Loan.demand_eq_some.mp ht⟩

/-- Two claims on one copy are one. -/
theorem Db.Coherent.claim_unique (h : db.Coherent) {c : Copy} {l l' : Loan} {t t' : Shape}
    (hl : l.Claims db c t) (hl' : l'.Claims db c t') : l = l' := by
  obtain ⟨hmem, hcopy, ht⟩ := hl
  obtain ⟨hmem', hcopy', ht'⟩ := hl'
  refine Table.eq_of_key_eq hmem hmem' (h.agrees.exclusive
    (hold_eq_some.mpr ⟨l, Table.find?_of_mem hmem, hcopy, Loan.demand_eq_some.mpr ht⟩)
    (hold_eq_some.mpr ⟨l', Table.find?_of_mem hmem', hcopy', Loan.demand_eq_some.mpr ht'⟩))

/-- What a claim demands, the copy shows. -/
theorem Db.Coherent.claim_shown (h : db.Coherent) {c : Copy} (hc : c ∈ db.copies) {l : Loan}
    {t : Shape} (hl : l.Claims db c t) : c.shape = t :=
  h.demand_shown hl.1 (hl.2.1 ▸ Table.find?_of_mem hc) (Loan.demand_eq_some.mpr hl.2.2)

/-- A loan belongs to the owner of its copy. -/
theorem Db.Coherent.owner_of_copy (h : db.Coherent) {c : Copy} (hc : c ∈ db.copies) {l : Loan}
    (hl : l ∈ db.loans) (hcopy : l.copyId = c.id) : c.ownerId = l.ownerId := by
  obtain ⟨c', hc', ho⟩ := h.placed l hl
  obtain rfl := Option.some.inj (hc'.symm.trans (hcopy ▸ Table.find?_of_mem hc))
  exact ho

/-- An exclusive loan claims its copy. -/
theorem claims_of_exclusive {c : Copy} {l : Loan} (hl : l ∈ db.loans) (hcopy : l.copyId = c.id)
    (hs : l.status.isExclusive = true) : ∃ t, l.Claims db c t := by
  obtain ⟨t, ht⟩ := Loan.demand_of_exclusive (db.log l.id) hs
  exact ⟨t, hl, hcopy, Loan.demand_eq_some.mp ht⟩

/-- The recovery of a loan is in its log. -/
theorem recovered_mem_log {id : LoanId} {type : LoanEventType} :
    db.hasEvent id type = true ↔ type ∈ db.log id := by
  rw [Db.hasEvent_iff, Db.log, List.mem_map]
  constructor
  · rintro ⟨e, he, hid, ht⟩
    exact ⟨e, List.mem_filter.mpr ⟨he, decide_eq_true hid⟩, ht⟩
  · rintro ⟨e, he, ht⟩
    obtain ⟨hmem, hid⟩ := List.mem_filter.mp he
    exact ⟨e, hmem, of_decide_eq_true hid, ht⟩

/-- A lost loan that was not recovered claims its copy. -/
theorem claims_of_lost {c : Copy} {l : Loan} (hl : l ∈ db.loans) (hcopy : l.copyId = c.id)
    (hs : l.status = .lost) (hrec : db.hasEvent l.id .recovered = false) :
    l.Claims db c ⟨l.ownerId, .unavailable, l.borrowerId, l.borrowerContactId⟩ := by
  refine ⟨hl, hcopy, .lost hs fun hmem => ?_⟩
  rw [recovered_mem_log.mpr hmem] at hrec
  cases hrec

/-! ## The agreement, copy by copy -/

/-- A loan on the copy in one of these states. -/
def Loan.On (db : Db) (c : Copy) (p : Loan → Prop) (l : Loan) : Prop :=
  l ∈ db.loans ∧ l.copyId = c.id ∧ p l

/-- A loss that was never recovered. -/
def Loan.Unrecovered (db : Db) (l : Loan) : Prop :=
  l.status = .lost ∧ db.hasEvent l.id .recovered = false

/-- **The agreement of a copy with its loans.** -/
structure CopyLoanAgrees (db : Db) (c : Copy) : Prop where
  /-- At most one loan is exclusive. -/
  exclusive : ∀ l l', Loan.On db c (·.status.isExclusive = true) l →
    Loan.On db c (·.status.isExclusive = true) l' → l = l'
  /-- Reserved at home: promised to a registered user. -/
  reserved : (c.status = .reserved ∧ c.currentHolderId = some c.ownerId) ↔
    ∃! l, Loan.On db c (fun l => l.borrowerKind = .registered ∧
      (l.status = .approved ∨ l.status = .pendingConfirmation)) l
  /-- Reserved with a contact: waiting for that guest's word. -/
  reservedGuest : ∀ contactId, (c.status = .reserved ∧ c.currentHolderId = none ∧
      c.heldByContactId = some contactId) ↔
    ∃! l, Loan.On db c (fun l => l.borrowerKind = .guest ∧
      l.borrowerContactId = some contactId ∧ l.status = .pendingConfirmation) l
  /-- Lent out: handed over. -/
  lentOut : c.status = .lentOut ↔ ∃! l, Loan.On db c (·.status = .handedOver) l
  /-- And held by that loan's borrower, or its contact. -/
  lentHolder : ∀ l, Loan.On db c (·.status = .handedOver) l →
    (l.borrowerKind = .registered → ∃ b, l.borrowerId = some b ∧
      c.currentHolderId = some b ∧ c.heldByContactId = none) ∧
    (l.borrowerKind = .guest → ∃ k, l.borrowerContactId = some k ∧
      c.currentHolderId = none ∧ c.heldByContactId = some k)
  /-- Available: at home, and no loan exclusive. -/
  available : c.status = .available → c.currentHolderId = some c.ownerId ∧
    c.heldByContactId = none ∧ ∀ l, ¬Loan.On db c (·.status.isExclusive = true) l
  /-- Unavailable: kept at home by the owner, or away with the borrower who lost it. The contact
  of a guest may be erased from both. -/
  unavailable : c.status = .unavailable →
    (∀ l, ¬Loan.On db c (·.status.isExclusive = true) l) ∧
      ((c.currentHolderId = some c.ownerId ∧ c.heldByContactId = none ∧
          ∀ l, ¬Loan.On db c (Loan.Unrecovered db) l) ∨
        ∃! l, Loan.On db c (Loan.Unrecovered db) l ∧ c.currentHolderId = l.borrowerId ∧
          c.heldByContactId = l.borrowerContactId)
  /-- And a book that was lost and not found is unavailable, with its borrower. -/
  lost : ∀ l, Loan.On db c (Loan.Unrecovered db) l → c.status = .unavailable ∧
    c.currentHolderId = l.borrowerId ∧ c.heldByContactId = l.borrowerContactId

/-! ## The proof -/

/-- Without a claim nothing is exclusive, and nothing is lost. -/
theorem none_on_of_unclaimed {c : Copy} (hfree : ∀ l t, ¬Loan.Claims db l c t) {p : Loan → Prop}
    (hp : ∀ l, p l → l.status.isExclusive = true) (l : Loan) : ¬Loan.On db c p l := by
  rintro ⟨hl, hcopy, hpl⟩
  obtain ⟨t, ht⟩ := claims_of_exclusive hl hcopy (hp l hpl)
  exact hfree l t ht

/-- Where one loan claims the copy, an exclusive state is that loan's. -/
theorem existsUnique_on_iff (h : db.Coherent) {c : Copy} {l : Loan} {t : Shape}
    (hl : l.Claims db c t) {p : Loan → Prop} (hp : ∀ l, p l → l.status.isExclusive = true) :
    (∃! x, Loan.On db c p x) ↔ p l := by
  constructor
  · rintro ⟨x, ⟨hx, hcopy, hpx⟩, -⟩
    obtain ⟨t', ht'⟩ := claims_of_exclusive hx hcopy (hp x hpx)
    rwa [h.claim_unique hl ht']
  · intro hpl
    refine ⟨l, ⟨hl.1, hl.2.1, hpl⟩, ?_⟩
    rintro x ⟨hx, hcopy, hpx⟩
    obtain ⟨t', ht'⟩ := claims_of_exclusive hx hcopy (hp x hpx)
    exact h.claim_unique ht' hl

theorem not_existsUnique {p : Loan → Prop} (h : ∀ l, ¬p l) : ¬∃! l, p l :=
  fun ⟨l, hl, _⟩ => h l hl

/-- An idle copy agrees with its loans: none of them claims it. -/
theorem idle_agrees {c : Copy} (hidle : c.shape.Idle) (hfree : ∀ l t, ¬Loan.Claims db l c t) : CopyLoanAgrees db c := by
  have hstatus : c.status = .available ∨ c.status = .unavailable := hidle.status
  have hhome : c.currentHolderId = some c.ownerId := hidle.home
  have hnone := fun {p : Loan → Prop} => none_on_of_unclaimed hfree (p := p)
  have hlost : ∀ l, ¬Loan.On db c (Loan.Unrecovered db) l := by
    rintro l ⟨hl, hcopy, hs, hrec⟩
    exact hfree l _ (claims_of_lost hl hcopy hs hrec)
  constructor
  case exclusive => exact fun l l' hl => absurd hl (hnone (fun _ h => h) l)
  case reserved =>
    refine iff_of_false ?_ (not_existsUnique (hnone fun l hl => ?_))
    · rintro ⟨hr, -⟩
      rw [hr] at hstatus
      rcases hstatus with hs | hs <;> cases hs
    · rcases hl.2 with hs | hs <;> rw [hs] <;> rfl
  case reservedGuest =>
    refine fun k => iff_of_false ?_ (not_existsUnique (hnone fun l hl => ?_))
    · rintro ⟨hr, -⟩
      rw [hr] at hstatus
      rcases hstatus with hs | hs <;> cases hs
    · rw [hl.2.2]
      rfl
  case lentOut =>
    refine iff_of_false ?_ (not_existsUnique (hnone fun l hl => ?_))
    · intro hr
      rw [hr] at hstatus
      rcases hstatus with hs | hs <;> cases hs
    · rw [hl]
      rfl
  case lentHolder =>
    refine fun l hl => absurd hl (hnone (fun l hs => ?_) l)
    rw [hs]
    rfl
  case available => exact fun _ => ⟨hhome, hidle.no_contact, hnone fun _ h => h⟩
  case unavailable => exact fun _ => ⟨hnone fun _ h => h, Or.inl ⟨hhome, hidle.no_contact, hlost⟩⟩
  case lost => exact fun l hl => absurd hl (hlost l)

/-- What a claimed copy shows, and why. -/
inductive ShownFor (db : Db) (c : Copy) (l : Loan) : Prop
  | promised : l.borrowerKind = .registered →
      l.status = .approved ∨ l.status = .pendingConfirmation → c.status = .reserved →
      c.currentHolderId = some c.ownerId → ShownFor db c l
  | waiting (k : ContactId) : l.borrowerKind = .guest → l.status = .pendingConfirmation →
      l.borrowerContactId = some k → c.status = .reserved → c.currentHolderId = none →
      c.heldByContactId = some k → ShownFor db c l
  | lent : l.status = .handedOver → c.status = .lentOut → c.currentHolderId = l.borrowerId →
      c.heldByContactId = l.borrowerContactId → ShownFor db c l
  | away : l.Unrecovered db → c.status = .unavailable → c.currentHolderId = l.borrowerId →
      c.heldByContactId = l.borrowerContactId → ShownFor db c l

theorem Db.Coherent.shownFor (h : db.Coherent) {c : Copy} (hc : c ∈ db.copies) {l : Loan}
    (hl : l.Claims db c c.shape) : ShownFor db c l := by
  have hown := h.owner_of_copy hc hl.1 hl.2.1
  have sound := h.sound l hl.1
  have htrail : Trail l.origin (db.log l.id) l.status := sound.trail
  have hd := hl.2.2
  generalize ht : c.shape = t at hd
  have hs : c.status = t.status := congrArg Shape.status ht
  have hh : c.currentHolderId = t.currentHolderId := congrArg Shape.currentHolderId ht
  have hk : c.heldByContactId = t.heldByContactId := congrArg Shape.heldByContactId ht
  cases hd with
  | approved hst =>
    refine .promised ?_ (Or.inl hst) hs (hh.trans (congrArg some hown.symm))
    cases hkind : l.borrowerKind with
    | registered => rfl
    | guest =>
      exact nomatch (htrail.origin_of_approved hst).symm.trans (sound.parties.guest hkind).1
  | pendingRegistered hst hkind =>
    exact .promised hkind (Or.inr hst) hs (hh.trans (congrArg some hown.symm))
  | pendingGuest hst hkind =>
    have hne : l.borrowerContactId ≠ none :=
      (sound.parties.guest hkind).2.2 (show l.status.isExclusive = true by rw [hst]; rfl)
    obtain ⟨k, hcontact⟩ := Option.ne_none_iff_exists'.mp hne
    exact .waiting k hkind hst hcontact hs hh (hk.trans hcontact)
  | handedOver hst => exact .lent hst hs hh hk
  | lost hst hrec =>
    refine .away ⟨hst, ?_⟩ hs hh hk
    by_contra hev
    exact hrec (recovered_mem_log.mp (Bool.not_eq_false _ ▸ hev))

/-- A claimed copy agrees with its loans: it shows what the one claim demands. -/
theorem Db.Coherent.claimed_agrees (h : db.Coherent) {c : Copy} (hc : c ∈ db.copies) {l : Loan}
    (hl : l.Claims db c c.shape) : CopyLoanAgrees db c := by
  have sound := h.sound l hl.1
  have hshown := h.shownFor hc hl
  have honly : ∀ {x}, Loan.On db c (·.status.isExclusive = true) x → x = l := by
    rintro x ⟨hx, hcopy, hs⟩
    obtain ⟨t, ht⟩ := claims_of_exclusive hx hcopy hs
    exact h.claim_unique ht hl
  have hlost : ∀ {x}, Loan.On db c (Loan.Unrecovered db) x → x = l ∧ c.shape =
      ⟨x.ownerId, .unavailable, x.borrowerId, x.borrowerContactId⟩ := by
    rintro x ⟨hx, hcopy, hs, hrec⟩
    have hclaim := claims_of_lost hx hcopy hs hrec
    exact ⟨h.claim_unique hclaim hl, h.claim_shown hc hclaim⟩
  constructor
  case exclusive => exact fun x y hx hy => (honly hx).trans (honly hy).symm
  case reserved =>
    rw [existsUnique_on_iff h hl fun x hx => by rcases hx.2 with hx | hx <;> rw [hx] <;> rfl]
    cases hshown with
    | promised hkind hst hs hh => simp [hkind, hst, hs, hh]
    | waiting k hkind hst _ hs hh _ => simp [hkind, hs, hh]
    | lent hst hs _ _ => simp [hst, hs]
    | away hst hs _ _ => simp [hst.1, hs]
  case reservedGuest =>
    intro k
    rw [existsUnique_on_iff h hl fun x hx => by rw [hx.2.2]; rfl]
    cases hshown with
    | promised hkind _ hs hh => simp [hkind, hs, hh]
    | waiting k' hkind hst hk hs hh hk' => simp [hkind, hst, hk, hs, hh, hk']
    | lent hst hs _ _ => simp [hst, hs]
    | away hst hs _ _ => simp [hst.1, hs]
  case lentOut =>
    rw [existsUnique_on_iff h hl fun x hx => by rw [hx]; rfl]
    cases hshown with
    | promised _ hst hs _ => rcases hst with hst | hst <;> simp [hst, hs]
    | waiting _ _ hst _ hs _ _ => simp [hst, hs]
    | lent hst hs _ _ => simp [hst, hs]
    | away hst hs _ _ => simp [hst.1, hs]
  case lentHolder =>
    rintro x ⟨hx, hcopy, hst⟩
    have hex : x.status.isExclusive = true := by
      rw [hst]
      rfl
    obtain rfl := honly ⟨hx, hcopy, hex⟩
    have hholder : c.currentHolderId = x.borrowerId ∧ c.heldByContactId = x.borrowerContactId := by
      cases hshown with
      | promised _ h' _ _ => rcases h' with h' | h' <;> exact nomatch hst.symm.trans h'
      | waiting _ _ h' _ _ _ _ => exact nomatch hst.symm.trans h'
      | lent _ _ hh hk => exact ⟨hh, hk⟩
      | away h' _ _ _ => exact nomatch hst.symm.trans h'.1
    constructor
    · intro hkind
      obtain ⟨-, ⟨b, hb, -⟩, hnone⟩ := sound.parties.registered hkind
      exact ⟨b, hb, hholder.1.trans hb, hholder.2.trans hnone⟩
    · intro hkind
      obtain ⟨-, hnone, hcontact⟩ := sound.parties.guest hkind
      obtain ⟨k, hk⟩ := Option.ne_none_iff_exists'.mp (hcontact hex)
      exact ⟨k, hk, hholder.1.trans hnone, hholder.2.trans hk⟩
  case available =>
    exact fun hs => absurd hs (Loan.demand_not_available (Loan.demand_eq_some.mpr hl.2.2))
  case unavailable =>
    intro hs
    cases hshown with
    | promised _ _ hs' _ => exact nomatch hs.symm.trans hs'
    | waiting _ _ _ _ hs' _ _ => exact nomatch hs.symm.trans hs'
    | lent _ hs' _ _ => exact nomatch hs.symm.trans hs'
    | away hst _ hh hk =>
      refine ⟨fun x hx => ?_, Or.inr ⟨l, ⟨⟨hl.1, hl.2.1, hst⟩, hh, hk⟩, fun x hx => (hlost hx.1).1⟩⟩
      have hex : x.status.isExclusive = true := hx.2.2
      rw [honly hx, hst.1] at hex
      cases hex
  case lost =>
    intro x hx
    have hshape := (hlost hx).2
    exact ⟨congrArg Shape.status hshape, congrArg Shape.currentHolderId hshape,
      congrArg Shape.heldByContactId hshape⟩

/-- **Every reachable copy agrees with its loans.** -/
theorem copy_loan_agrees {secrets : GuestConfirmationSecrets} {w : World}
    (h : (system secrets).Reachable w) {c : Copy} (hc : c ∈ w.db.copies) :
    CopyLoanAgrees w.db c := by
  have hco := (reachable_coherent h).db
  rcases hco.idle_or_claimed hc with ⟨hidle, hfree⟩ | ⟨l, hl⟩
  · exact idle_agrees hidle hfree
  · exact hco.claimed_agrees hc hl

theorem copy_loan_agrees_waiting :
    CopyLoanAgrees exampleWaiting (contactEdit .reserved 7 exampleCopy) :=
  copy_loan_agrees (exampleWaiting_reachable exampleSecrets) (List.mem_singleton.mpr rfl)

end Bookswap
