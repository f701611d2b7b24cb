import Bookswap.Guarantees.CopyLoan
import Bookswap.Users.ProfileSummary

/-!
# Where the profile says a book is

`placeOf` decides by the two holder columns first and by the status after them. The services
pair status and holders differently for a guest who has not answered yet: the copy is
reserved, but in the contact's hands. There `placeOf` answers `LENT`, with no due day, where
a reservation was meant; the unit test of that case builds a copy at home. Everywhere else
the answer is the one the loans give (`place_agrees_iff`).
-/

namespace Bookswap

open Store

variable {db : Db} {c : Copy} {l : Loan} {now : Time}

/-- The other side of a loan of the owner's. -/
def Db.counterpartOfLoan (db : Db) (l : Loan) : ProfileCounterpart :=
  counterpartOf (db.userOf l.borrowerId) (db.contactOf l.borrowerContactId)

/-- How many requests wait for the copy. -/
def Db.requestCount (db : Db) (c : Copy) : Nat :=
  db.loans.rows.countP fun l => l.copyId = c.id ∧ l.status = .requested

def Loan.IsHandedOver (l : Loan) : Prop := l.status = .handedOver

/-- Promised, or waiting for the other side's word. -/
def Loan.IsReserved (l : Loan) : Prop := l.status = .approved ∨ l.status = .pendingConfirmation

instance : DecidablePred Loan.IsHandedOver := fun _ => inferInstanceAs (Decidable (_ = _))

instance : DecidablePred Loan.IsReserved := fun _ => inferInstanceAs (Decidable (_ ∨ _))

/-- **The place the loans of a copy tell.** -/
structure PlaceAgrees (db : Db) (now : Time) (c : Copy) (place : ProfileBookPlace) : Prop where
  /-- Lent: one of the loans is handed over. -/
  lent : (∃ holder dueAt overdue, place = .lent holder dueAt overdue) ↔
    ∃ l, Loan.On db c Loan.IsHandedOver l
  /-- To its borrower or contact, until its due day. -/
  lentTo : ∀ l, Loan.On db c Loan.IsHandedOver l →
    place = .lent (db.counterpartOfLoan l) (toIsoDay l.dueAt) (isOverdue l now)
  /-- Reserved: one of the loans is promised or waits for a word. -/
  reserved : (∃ borrower, place = .reserved borrower) ↔ ∃ l, Loan.On db c Loan.IsReserved l
  /-- For its other side. -/
  reservedFor : ∀ l, Loan.On db c Loan.IsReserved l → place = .reserved (db.counterpartOfLoan l)
  /-- Lost: a loss that was not recovered left the copy away. -/
  lost : (∃ holder, place = .lost holder) ↔ ∃ l, Loan.On db c (Loan.Unrecovered db) l
  /-- Otherwise at home: kept, asked for, or free. -/
  otherwise : (∀ l, ¬Loan.On db c
      (fun l => l.IsHandedOver ∨ l.IsReserved ∨ Loan.Unrecovered db l) l) →
    place = if c.status = .unavailable then .unavailable
      else if db.requestCount c > 0 then .homeRequested (db.requestCount c) else .home

/-! ## Reading the row -/

theorem mem_openLoansOf {x : Loan} :
    x ∈ db.openLoansOf c.id ↔ x ∈ db.loans ∧ x.copyId = c.id ∧ x.status.isOpen = true := by
  simp [Db.openLoansOf, Table.mem_def]

/-- The requests of the row are the requests of the copy: a request is open. -/
theorem countP_requests :
    (db.summaryCopyRow c).loans.countP (fun r => r.loan.status = .requested) =
      db.requestCount c := by
  show ((db.openLoansOf c.id).map _).countP _ = _
  rw [List.countP_map, Db.openLoansOf, List.countP_filter, Db.requestCount]
  refine List.countP_congr fun x _ => ?_
  simp only [Function.comp_apply, decide_eq_true_eq, Bool.and_eq_true]
  constructor
  · rintro ⟨hs, hcopy, -⟩
    exact ⟨hcopy, hs⟩
  · rintro ⟨hcopy, hs⟩
    exact ⟨hs, hcopy, by rw [hs]; rfl⟩

/-- The one open loan with a property is the one the row finds. -/
theorem find?_summaryLoan {p : Loan → Prop} [DecidablePred p] (hl : l ∈ db.openLoansOf c.id)
    (hpl : p l) (honly : ∀ x, Loan.On db c p x → x = l) :
    (db.summaryCopyRow c).loans.find? (fun r => p r.loan) =
      some ⟨l, db.userOf l.borrowerId, db.contactOf l.borrowerContactId⟩ := by
  show ((db.openLoansOf c.id).map _).find? _ = _
  rw [List.find?_map]
  have hfound : (db.openLoansOf c.id).find? (fun x => p x) = some l := by
    cases hf : (db.openLoansOf c.id).find? (fun x => p x) with
    | none => exact absurd (decide_eq_true hpl) (List.find?_eq_none.mp hf l hl)
    | some x =>
      obtain ⟨hx, hcopy, -⟩ := mem_openLoansOf.mp (List.mem_of_find?_eq_some hf)
      have hpx : p x := by simpa using List.find?_some hf
      rw [honly x ⟨hx, hcopy, hpx⟩]
  rw [show ((fun r : SummaryCopyLoanRow => decide (p r.loan)) ∘ fun l : Loan =>
      (⟨l, db.userOf l.borrowerId, db.contactOf l.borrowerContactId⟩ : SummaryCopyLoanRow)) =
    fun x => decide (p x) from rfl, hfound, Option.map_some]

/-! ## The proof -/

theorem isHome_iff : isHome c = true ↔ c.currentHolderId = some c.ownerId ∧ c.heldByContactId = none :=
  decide_eq_true_iff

/-- The states `PlaceAgrees` speaks of claim the copy. -/
theorem claims_of_place {x : Loan} (hx : Loan.On db c
    (fun l => l.IsHandedOver ∨ l.IsReserved ∨ Loan.Unrecovered db l) x) : ∃ t, x.Claims db c t := by
  obtain ⟨hmem, hcopy, hs | hs | hs⟩ := hx
  · exact claims_of_exclusive hmem hcopy (by rw [show x.status = .handedOver from hs]; rfl)
  · exact claims_of_exclusive hmem hcopy (by rcases hs with hs | hs <;> rw [hs] <;> rfl)
  · exact ⟨_, claims_of_lost hmem hcopy hs.1 hs.2⟩

/-- An unclaimed copy is at home, and its place is told by its status and its requests. -/
theorem place_of_idle (hidle : c.shape.Idle) (hfree : ∀ l t, ¬Loan.Claims db l c t) :
    PlaceAgrees db now c (placeOf (db.summaryCopyRow c) now) := by
  have hnone : ∀ {x}, ¬Loan.On db c
      (fun l => l.IsHandedOver ∨ l.IsReserved ∨ Loan.Unrecovered db l) x := fun hx => by
    obtain ⟨t, ht⟩ := claims_of_place hx
    exact hfree _ t ht
  have hhome : isHome c = true := isHome_iff.mpr ⟨hidle.home, hidle.no_contact⟩
  have hstatus : c.status ≠ .reserved := by
    rcases hidle.status with hs | hs <;> rw [show c.status = _ from hs] <;> decide
  have hplace : placeOf (db.summaryCopyRow c) now = if c.status = .unavailable then .unavailable
      else if db.requestCount c > 0 then .homeRequested (db.requestCount c) else .home := by
    unfold placeOf
    rw [countP_requests]
    simp only [Db.summaryCopyRow, hhome, Bool.true_eq_false, if_false, hstatus]
  constructor
  case lent =>
    refine iff_of_false ?_ fun ⟨x, hx, hcopy, hs⟩ => hnone ⟨hx, hcopy, Or.inl hs⟩
    rintro ⟨_, _, _, he⟩
    rw [hplace] at he
    split at he <;> [skip; split at he] <;> cases he
  case lentTo => exact fun x ⟨hx, hcopy, hs⟩ => absurd ⟨hx, hcopy, Or.inl hs⟩ hnone
  case reserved =>
    refine iff_of_false ?_ fun ⟨x, hx, hcopy, hs⟩ => hnone ⟨hx, hcopy, Or.inr (Or.inl hs)⟩
    rintro ⟨_, he⟩
    rw [hplace] at he
    split at he <;> [skip; split at he] <;> cases he
  case reservedFor => exact fun x ⟨hx, hcopy, hs⟩ => absurd ⟨hx, hcopy, Or.inr (Or.inl hs)⟩ hnone
  case lost =>
    refine iff_of_false ?_ fun ⟨x, hx, hcopy, hs⟩ => hnone ⟨hx, hcopy, Or.inr (Or.inr hs)⟩
    rintro ⟨_, he⟩
    rw [hplace] at he
    split at he <;> [skip; split at he] <;> cases he
  case otherwise => exact fun _ => hplace

/-- The place one claim on the copy tells. -/
inductive PlaceFor (db : Db) (now : Time) (l : Loan) : ProfileBookPlace → Prop
  | lent : l.IsHandedOver →
      PlaceFor db now l (.lent (db.counterpartOfLoan l) (toIsoDay l.dueAt) (isOverdue l now))
  | reserved : l.IsReserved → PlaceFor db now l (.reserved (db.counterpartOfLoan l))
  | lost (holder : ProfileCounterpart) : l.Unrecovered db → PlaceFor db now l (.lost holder)

theorem Loan.IsReserved.not_handedOver (h : l.IsReserved) : ¬l.IsHandedOver := by
  unfold Loan.IsHandedOver
  rcases h with h | h <;> rw [h] <;> decide

theorem Loan.Unrecovered.not_handedOver (h : l.Unrecovered db) : ¬l.IsHandedOver := by
  unfold Loan.IsHandedOver
  rw [h.1]
  decide

theorem Loan.Unrecovered.not_reserved (h : l.Unrecovered db) : ¬l.IsReserved := by
  unfold Loan.IsReserved
  rw [h.1]
  decide

/-- **Where one loan alone claims the copy**, its place is the copy's. -/
theorem PlaceFor.agrees {place : ProfileBookPlace} (hp : PlaceFor db now l place)
    (hl : l ∈ db.loans) (hcopy : l.copyId = c.id)
    (honly : ∀ x, Loan.On db c (fun l => l.IsHandedOver ∨ l.IsReserved ∨ Loan.Unrecovered db l) x →
      x = l) : PlaceAgrees db now c place := by
  have hlent : ∀ {x}, Loan.On db c Loan.IsHandedOver x → x = l :=
    fun hx => honly _ ⟨hx.1, hx.2.1, Or.inl hx.2.2⟩
  have hreserved : ∀ {x}, Loan.On db c Loan.IsReserved x → x = l :=
    fun hx => honly _ ⟨hx.1, hx.2.1, Or.inr (Or.inl hx.2.2)⟩
  have hlost : ∀ {x}, Loan.On db c (Loan.Unrecovered db) x → x = l :=
    fun hx => honly _ ⟨hx.1, hx.2.1, Or.inr (Or.inr hx.2.2)⟩
  -- the claim of `l` in each of the three ways
  have hlent_iff : (∃ x, Loan.On db c Loan.IsHandedOver x) ↔ l.IsHandedOver :=
    ⟨fun ⟨x, hx⟩ => hlent hx ▸ hx.2.2, fun hs => ⟨l, hl, hcopy, hs⟩⟩
  have hreserved_iff : (∃ x, Loan.On db c Loan.IsReserved x) ↔ l.IsReserved :=
    ⟨fun ⟨x, hx⟩ => hreserved hx ▸ hx.2.2, fun hs => ⟨l, hl, hcopy, hs⟩⟩
  have hlost_iff : (∃ x, Loan.On db c (Loan.Unrecovered db) x) ↔ l.Unrecovered db :=
    ⟨fun ⟨x, hx⟩ => hlost hx ▸ hx.2.2, fun hs => ⟨l, hl, hcopy, hs⟩⟩
  constructor
  case lent =>
    rw [hlent_iff]
    cases hp with
    | lent hs => exact iff_of_true ⟨_, _, _, rfl⟩ hs
    | reserved hs => exact iff_of_false (fun ⟨_, _, _, he⟩ => nomatch he) hs.not_handedOver
    | lost _ hs => exact iff_of_false (fun ⟨_, _, _, he⟩ => nomatch he) hs.not_handedOver
  case lentTo =>
    intro x hx
    obtain rfl := hlent hx
    cases hp with
    | lent _ => rfl
    | reserved hs => exact absurd hx.2.2 hs.not_handedOver
    | lost _ hs => exact absurd hx.2.2 hs.not_handedOver
  case reserved =>
    rw [hreserved_iff]
    cases hp with
    | lent hs => exact iff_of_false (fun ⟨_, he⟩ => nomatch he) fun hr => hr.not_handedOver hs
    | reserved hs => exact iff_of_true ⟨_, rfl⟩ hs
    | lost _ hs => exact iff_of_false (fun ⟨_, he⟩ => nomatch he) hs.not_reserved
  case reservedFor =>
    intro x hx
    obtain rfl := hreserved hx
    cases hp with
    | lent hs => exact absurd hs hx.2.2.not_handedOver
    | reserved _ => rfl
    | lost _ hs => exact absurd hx.2.2 hs.not_reserved
  case lost =>
    rw [hlost_iff]
    cases hp with
    | lent hs => exact iff_of_false (fun ⟨_, he⟩ => nomatch he) fun hr => hr.not_handedOver hs
    | reserved hs => exact iff_of_false (fun ⟨_, he⟩ => nomatch he) fun hr => hr.not_reserved hs
    | lost _ hs => exact iff_of_true ⟨_, rfl⟩ hs
  case otherwise =>
    intro hno
    refine absurd ⟨hl, hcopy, ?_⟩ (hno l)
    cases hp with
    | lent hs => exact Or.inl hs
    | reserved hs => exact Or.inr (Or.inl hs)
    | lost _ hs => exact Or.inr (Or.inr hs)

/-- Has the guest who holds the book not answered yet? -/
def Loan.AwaitsGuest (l : Loan) : Prop :=
  l.borrowerKind = .guest ∧ l.status = .pendingConfirmation

/-- Whoever borrows is not the owner, so the book is away. -/
theorem isHome_of_borrower (hp : l.PartiesValid) (hown : c.ownerId = l.ownerId)
    (hholder : c.currentHolderId = l.borrowerId) : isHome c = false := by
  refine decide_eq_false fun hhome => ?_
  rw [hholder] at hhome
  cases hk : l.borrowerKind with
  | registered =>
    obtain ⟨-, ⟨b, hb, hne⟩, -⟩ := hp.registered hk
    rw [hb, hown] at hhome
    exact hne (Option.some.inj hhome.1)
  | guest => exact nomatch (hp.guest hk).2.1.symm.trans hhome.1

theorem placeOf_promised {row : SummaryCopyLoanRow} (hhome : isHome c = true)
    (hs : c.status = .reserved)
    (hfind : (db.summaryCopyRow c).loans.find? (fun r => Loan.IsReserved r.loan) = some row) :
    placeOf (db.summaryCopyRow c) now = .reserved (counterpartOf row.borrower row.borrowerContact) := by
  have hcopy : (db.summaryCopyRow c).copy = c := rfl
  have hfind' : (db.summaryCopyRow c).loans.find? (fun r => decide (r.loan.status = .approved ∨
      r.loan.status = .pendingConfirmation)) = some row := hfind
  simp only [placeOf, hcopy, hhome, hs, hfind', Option.bind_some, Bool.true_eq_false, if_false,
    reduceCtorEq, if_true]

theorem placeOf_away (hhome : isHome c = false) (hs : c.status ≠ .unavailable) :
    placeOf (db.summaryCopyRow c) now =
      .lent (counterpartOf (db.userOf c.currentHolderId) (db.contactOf c.heldByContactId))
        (toIsoDay (((db.summaryCopyRow c).loans.find?
          fun r => Loan.IsHandedOver r.loan).bind (·.loan.dueAt)))
        (((db.summaryCopyRow c).loans.find?
          fun r => Loan.IsHandedOver r.loan).any fun r => isOverdue r.loan now) := by
  have hcopy : (db.summaryCopyRow c).copy = c := rfl
  simp only [placeOf, hcopy, hhome, hs, if_true, if_false]
  rfl

theorem placeOf_lost (hhome : isHome c = false) (hs : c.status = .unavailable) :
    placeOf (db.summaryCopyRow c) now =
      .lost (counterpartOf (db.userOf c.currentHolderId) (db.contactOf c.heldByContactId)) := by
  have hcopy : (db.summaryCopyRow c).copy = c := rfl
  simp only [placeOf, hcopy, hhome, hs, if_true]
  rfl

/-- **The place of a claimed copy is its claim's**, unless its guest has not answered. -/
theorem Db.Coherent.placeFor (h : db.Coherent) (hc : c ∈ db.copies) (hl : l.Claims db c c.shape)
    (hanswered : ¬l.AwaitsGuest) : PlaceFor db now l (placeOf (db.summaryCopyRow c) now) := by
  have hown := h.owner_of_copy hc hl.1 hl.2.1
  have honly : ∀ {p : Loan → Prop}, (∀ x, p x → x.status.isExclusive = true) → ∀ x,
      Loan.On db c p x → x = l := by
    rintro p hp x ⟨hx, hcopy, hpx⟩
    obtain ⟨t, ht⟩ := claims_of_exclusive hx hcopy (hp x hpx)
    exact h.claim_unique ht hl
  have hopen : l.status.isOpen = true → l ∈ db.openLoansOf c.id := fun ho =>
    mem_openLoansOf.mpr ⟨hl.1, hl.2.1, ho⟩
  have hd := hl.2.2
  have hparties := h.parties hl.1
  generalize hshape : c.shape = t at hd
  have hstatus : c.status = t.status := congrArg Shape.status hshape
  have hholder : c.currentHolderId = t.currentHolderId := congrArg Shape.currentHolderId hshape
  have hcontact : c.heldByContactId = t.heldByContactId := congrArg Shape.heldByContactId hshape
  -- a promised copy is at home
  have hpromised : c.status = .reserved → c.currentHolderId = some l.ownerId →
      c.heldByContactId = none → l.IsReserved →
      PlaceFor db now l (placeOf (db.summaryCopyRow c) now) := by
    intro hst hh hk hs
    have hhome : isHome c = true := isHome_iff.mpr ⟨hh.trans (congrArg some hown.symm), hk⟩
    have hfind := find?_summaryLoan (hopen (by rcases hs with hs | hs <;> rw [hs] <;> rfl)) hs
      (honly fun x hx => by rcases hx with hx | hx <;> rw [hx] <;> rfl)
    rw [placeOf_promised hhome hst hfind]
    exact .reserved hs
  cases hd with
  | approved hs => exact hpromised hstatus hholder hcontact (Or.inl hs)
  | pendingRegistered hs _ => exact hpromised hstatus hholder hcontact (Or.inr hs)
  | pendingGuest hs hk => exact absurd ⟨hk, hs⟩ hanswered
  | handedOver hs =>
    have hhome := isHome_of_borrower hparties hown hholder
    have hfind := find?_summaryLoan (p := Loan.IsHandedOver) (hopen (by rw [hs]; rfl)) hs
      (honly fun x hx => by rw [show x.status = .handedOver from hx]; rfl)
    rw [placeOf_away hhome (fun he => nomatch hstatus.symm.trans he), hfind,
      show c.currentHolderId = l.borrowerId from hholder,
      show c.heldByContactId = l.borrowerContactId from hcontact]
    exact .lent hs
  | lost hs hrec =>
    have hhome := isHome_of_borrower hparties hown hholder
    rw [placeOf_lost hhome hstatus]
    refine .lost _ ⟨hs, ?_⟩
    by_contra hev
    exact hrec (recovered_mem_log.mp (Bool.not_eq_false _ ▸ hev))

/-- While a guest has not answered, the answer is another. -/
theorem Db.Coherent.not_placeAgrees (h : db.Coherent) (hc : c ∈ db.copies)
    (hwait : Loan.On db c Loan.AwaitsGuest l) :
    ¬PlaceAgrees db now c (placeOf (db.summaryCopyRow c) now) := by
  obtain ⟨hl, hcopy, hk, hs⟩ := hwait
  have hfind : db.copies.find? l.copyId = some c := hcopy ▸ Table.find?_of_mem hc
  have hd : Demands l (db.log l.id) _ := .pendingGuest hs hk
  have hshown := h.demand_shown hl hfind (Loan.demand_eq_some.mpr hd)
  have hstatus : c.status = .reserved := congrArg Shape.status hshown
  have hhome : isHome c = false := by
    refine decide_eq_false fun hhome => ?_
    exact nomatch (congrArg Shape.currentHolderId hshown).symm.trans hhome.1
  intro hagrees
  have hplace := hagrees.reservedFor l ⟨hl, hcopy, Or.inr hs⟩
  rw [placeOf_away hhome (by rw [hstatus]; decide)] at hplace
  cases hplace

/-- **placeOf answers what the loans tell exactly while no guest of the copy has yet to
answer.** -/
theorem place_agrees_iff {secrets : GuestConfirmationSecrets} {w : World}
    (h : (system secrets).Reachable w) {c : Copy} (hc : c ∈ w.db.copies) (now : Time) :
    PlaceAgrees w.db now c (placeOf (w.db.summaryCopyRow c) now) ↔
      ∀ l, ¬Loan.On w.db c Loan.AwaitsGuest l := by
  have hco := (reachable_coherent h).db
  constructor
  · exact fun hagrees l hwait => hco.not_placeAgrees hc hwait hagrees
  · intro hanswered
    rcases hco.idle_or_claimed hc with ⟨hidle, hfree⟩ | ⟨l, hl⟩
    · exact place_of_idle hidle hfree
    · have hplace : PlaceFor w.db now l _ :=
        hco.placeFor hc hl fun hwait => hanswered l ⟨hl.1, hl.2.1, hwait⟩
      refine hplace.agrees hl.1 hl.2.1 fun x hx => ?_
      obtain ⟨t, ht⟩ := claims_of_place hx
      exact hco.claim_unique ht hl

theorem place_agrees_iff_home :
    PlaceAgrees exampleDb 0 exampleCopy (placeOf (exampleDb.summaryCopyRow exampleCopy) 0) :=
  (place_agrees_iff (Machine.Reachable.start example_init : (system exampleSecrets).Reachable _)
    (List.mem_singleton.mpr rfl) 0).mpr fun _ hl => absurd hl.1 Table.not_mem_empty

/-- The copy lent to the neighbour waits for her word: it is reserved, and `placeOf` says lent. -/
theorem place_waiting : (system exampleSecrets).Reachable ⟨exampleWaiting, []⟩ ∧
    contactEdit .reserved 7 exampleCopy ∈ exampleWaiting.copies ∧
    placeOf (exampleWaiting.summaryCopyRow (contactEdit .reserved 7 exampleCopy)) 0 =
      .lent (.guest (some "сусідка")) none false ∧
    ¬PlaceAgrees exampleWaiting 0 (contactEdit .reserved 7 exampleCopy)
      (placeOf (exampleWaiting.summaryCopyRow (contactEdit .reserved 7 exampleCopy)) 0) := by
  have hreachable := exampleWaiting_reachable exampleSecrets
  have hmem : contactEdit .reserved 7 exampleCopy ∈ exampleWaiting.copies :=
    List.mem_singleton.mpr rfl
  refine ⟨hreachable, hmem, by decide, ?_⟩
  exact (reachable_coherent hreachable).db.not_placeAgrees hmem
    ⟨List.mem_singleton.mpr rfl, rfl, rfl, rfl⟩

end Bookswap
