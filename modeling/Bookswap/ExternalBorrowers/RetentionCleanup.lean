import Bookswap.ExternalBorrowers.ExternalBorrowersService
import Bookswap.Lib.KeysetPaging

/-!
# The two loops of the retention cleanup

`external-borrowers/guest-contact-retention-cleanup.service.ts`: the daily job walks
through the contacts by their ids, page by page, one transaction a page. `backfillPhase`
recomputes the deadlines that are missing, `cleanupPhase` erases the contacts whose
deadline has passed; each is a `Keyset.Paging`.

Other transactions run meanwhile (`Others`). They hold contacts locked, which the pages
skip, and commit between the statements of a page, without touching the contacts the
page holds itself.
-/

namespace Bookswap

open Store Checked Keyset

/-- What the deadline of a contact is computed from. -/
structure ContactFacts where
  row : Option ExternalBorrower
  loans : List Loan
  events : List LoanEvent
  deriving DecidableEq

namespace Db

def factsOf (db : Db) (id : ContactId) : ContactFacts where
  row := db.contacts.find? id
  loans := db.loansOfContact id
  events := db.retentionEvents (db.loansOfContact id)

/-- `SELECT "id" FROM "ExternalBorrower" WHERE … FOR UPDATE SKIP LOCKED`; the cursor, the
order and the limit are the paging's. -/
def selectContacts (db : Db) (p : ExternalBorrower → Bool) (locked : ContactId → Bool) :
    List ContactId :=
  (db.contacts.rows.filter fun c => p c ∧ locked c.id = false).map (·.id)

end Db

/-- The other transactions during a run: what they commit before the `j`-th statement of
the `i`-th page, given the contacts the page holds, and the contacts they hold when the
page is selected. -/
structure Others where
  commit : Nat → Nat → List ContactId → Db → Db
  locked : Nat → ContactId → Bool
  respects : ∀ i j held db, ∀ id ∈ held, (commit i j held db).factsOf id = db.factsOf id

/-- The loop over one page of `backfillPhase`, from its `j`-th statement on. -/
def recomputeEach (others : Others) (held : List ContactId) (i : Nat) :
    Nat → List ContactId → Db → Tx Db
  | _, [], db => .ok db
  | j, id :: batch, db => do
    let db ← backfillContact id (others.commit i j held db)
    recomputeEach others held i (j + 1) batch db

def backfillPaging (others : Others) (batchSize : Nat) : Paging ContactId Db Failure where
  size := batchSize
  limit := batchSize
  size_le := Nat.le_refl _
  le_succ := Nat.le_succ _
  view i db := (others.commit i 0 [] db).selectContacts (·.retainUntil.isNone) (others.locked i)
  nodup i db := ((others.commit i 0 [] db).contacts.nodup.sublist
    (List.filter_sublist.map _))
  handle i batch db := recomputeEach others batch i 1 batch (others.commit i 0 [] db)

/-- `backfillPhase` (guest-contact-retention-cleanup.service.ts:77), with the contacts it
counts. -/
def backfillPhase (others : Others) (batchSize fuel : Nat) (db : Db) :
    Option (Tx (List ContactId × Db)) :=
  ((backfillPaging others batchSize).loop fuel 0 none db).map
    (Except.map fun r => (r.1.flatten, r.2))

structure CleanupState where
  db : Db
  deleted : List ContactId

def cleanupPaging (others : Others) (now : Time) (batchSize : Nat) :
    Paging ContactId CleanupState Failure where
  size := batchSize
  limit := batchSize
  size_le := Nat.le_refl _
  le_succ := Nat.le_succ _
  view i s := (others.commit i 0 [] s.db).selectContacts (fun c => c.retainUntil.any (· ≤ now))
    (others.locked i)
  nodup i s := ((others.commit i 0 [] s.db).contacts.nodup.sublist
    (List.filter_sublist.map _))
  handle i batch s :=
    -- the contacts are read again after the locks on their loans
    let db := others.commit i 1 batch (others.commit i 0 [] s.db)
    .ok ⟨cleanupContacts now batch db, s.deleted ++ batch.filter (db.dueContact now batch)⟩

/-- What `cleanupPhase` leaves: the contacts it selected, those it deleted, the tables. -/
structure Cleanup where
  selected : List ContactId
  deleted : List ContactId
  db : Db

/-- `cleanupPhase` (guest-contact-retention-cleanup.service.ts:135). -/
def cleanupPhase (others : Others) (now : Time) (batchSize fuel : Nat) (db : Db) :
    Option (Tx Cleanup) :=
  ((cleanupPaging others now batchSize).loop fuel 0 none ⟨db, []⟩).map
    (Except.map fun r => ⟨r.1.flatten, r.2.deleted, r.2.db⟩)

namespace Others

/-- Nobody commits anything, and the same contacts stay locked. -/
def still (locked : ContactId → Bool) : Others where
  commit _ _ _ db := db
  locked _ := locked
  respects _ _ _ _ _ _ := rfl

/-- No other transaction locks the contact. One that changes what the contact's deadline
is computed from locks it first, so this stays as it is. -/
structure Undisturbed (others : Others) (id : ContactId) : Prop where
  free : ∀ i, others.locked i id = false
  kept : ∀ i j held db, (others.commit i j held db).factsOf id = db.factsOf id

/-- The contacts ever created have their ids in `ids`. -/
def Within (others : Others) (ids : Finset ContactId) : Prop :=
  ∀ i j held db, (∀ c ∈ db.contacts, c.id ∈ ids) →
    ∀ c ∈ (others.commit i j held db).contacts, c.id ∈ ids

end Others

/-- The closed loans of every contact without a deadline are dated, unless one of its
loans is active. -/
def Db.Dated (db : Db) : Prop :=
  ∀ c ∈ db.contacts, c.retainUntil = none →
    (∃ l ∈ db.loans, l.borrowerContactId = some c.id ∧ l.status.isExclusive = true) ∨
      ∀ l ∈ db.loans, l.borrowerContactId = some c.id → db.Closed l

variable {db db' : Db} {id other : ContactId} {others : Others} {now : Time}
  {batchSize i j : Nat} {held batch : List ContactId}

theorem mem_selectContacts {p : ExternalBorrower → Bool} {locked : ContactId → Bool} :
    id ∈ db.selectContacts p locked ↔
      ∃ c, db.contacts.find? id = some c ∧ p c = true ∧ locked id = false := by
  constructor
  · intro h
    obtain ⟨c, hc, rfl⟩ := List.mem_map.mp h
    obtain ⟨hmem, hp⟩ := List.mem_filter.mp hc
    have hboth := of_decide_eq_true hp
    exact ⟨c, Table.find?_of_mem hmem, hboth.1, hboth.2⟩
  · rintro ⟨c, hc, hp, hl⟩
    refine List.mem_map.mpr ⟨c, List.mem_filter.mpr ⟨Table.mem_of_find? hc, ?_⟩,
      Table.key_of_find? hc⟩
    exact decide_eq_true ⟨hp, by rwa [show c.id = id from Table.key_of_find? hc]⟩

theorem selectContacts_within {ids : Finset ContactId} {p : ExternalBorrower → Bool}
    {locked : ContactId → Bool} (hdb : ∀ c ∈ db.contacts, c.id ∈ ids)
    (h : id ∈ db.selectContacts p locked) : id ∈ ids := by
  obtain ⟨c, hc, -, -⟩ := mem_selectContacts.mp h
  have hmem := hdb c (Table.mem_of_find? hc)
  rwa [show c.id = id from Table.key_of_find? hc] at hmem

/-! ### One deadline -/

/-- Only the row of the contact is written. -/
theorem factsOf_withRetainUntil {t : Option Time} (hne : id ≠ other) :
    (db.withRetainUntil other t).factsOf id = db.factsOf id := by
  have hrow : (db.withRetainUntil other t).contacts.find? id = db.contacts.find? id := by
    show (db.contacts.modify other _).find? id = _
    rw [Table.find?_modify, if_neg hne]
  show ContactFacts.mk _ _ _ = ContactFacts.mk _ _ _
  rw [hrow]
  rfl

theorem factsOf_withRetainUntil_self {t : Option Time} :
    (db.withRetainUntil id t).factsOf id =
      { db.factsOf id with row := (db.factsOf id).row.map ({ · with retainUntil := t }) } := by
  have hrow : (db.withRetainUntil id t).contacts.find? id =
      (db.contacts.find? id).map ({ · with retainUntil := t }) := by
    show (db.contacts.modify id _).find? id = _
    rw [Table.find?_modify, if_pos rfl]
  show ContactFacts.mk _ _ _ = ContactFacts.mk _ _ _
  rw [hrow]
  rfl

/-- The deadline the facts of a contact give is stored. -/
def ContactFacts.Settles (facts settled : ContactFacts) : Prop :=
  ∃ c t, facts.row = some c ∧ retainUntilOf c facts.loans facts.events = .ok t ∧
    settled = { facts with row := some { c with retainUntil := t } }

/-- A deadline computed again is the same. -/
theorem ContactFacts.Settles.again {a b c : ContactFacts} (hab : a.Settles b)
    (hbc : b.Settles c) : a.Settles c := by
  obtain ⟨row, t, hrow, ht, rfl⟩ := hab
  obtain ⟨row', t', hrow', ht', rfl⟩ := hbc
  cases hrow'
  exact ⟨row, t', hrow, ht', rfl⟩

theorem backfillContact_self {c : ExternalBorrower} (hc : db.contacts.find? id = some c)
    (h : backfillContact id db = .ok db') : (db.factsOf id).Settles (db'.factsOf id) := by
  unfold backfillContact recomputeRetainUntil at h
  rw [hc] at h
  obtain ⟨t, ht, hw⟩ := bind_eq_ok.mp h
  cases pure_eq_ok.mp hw
  refine ⟨c, t, hc, ht, ?_⟩
  rw [factsOf_withRetainUntil_self]
  show ContactFacts.mk ((db.contacts.find? id).map _) _ _ = _
  rw [hc]
  rfl

theorem backfillContact_other (h : backfillContact other db = .ok db') (hne : id ≠ other) :
    db'.factsOf id = db.factsOf id := by
  obtain ⟨t, rfl⟩ := recomputeRetainUntil_writes h
  exact factsOf_withRetainUntil hne

/-! ### One page of the backfill -/

/-- A contact that is not on the page keeps its facts. -/
theorem recomputeEach_other (hkept : ∀ i j held db,
      (others.commit i j held db).factsOf id = db.factsOf id)
    (h : recomputeEach others held i j batch db = .ok db') (hid : id ∉ batch) :
    db'.factsOf id = db.factsOf id := by
  induction batch generalizing j db with
  | nil =>
    cases h
    rfl
  | cons x batch ih =>
    obtain ⟨db₁, h₁, h₂⟩ := bind_eq_ok.mp h
    rw [List.mem_cons, not_or] at hid
    rw [ih h₂ hid.2, backfillContact_other h₁ hid.1, hkept]

/-- A contact whose deadline is settled stays so, and one on the page becomes so. -/
theorem recomputeEach_settles {facts : ContactFacts} (hkept : ∀ i j held db,
      (others.commit i j held db).factsOf id = db.factsOf id)
    (h : recomputeEach others held i j batch db = .ok db')
    (hs : facts.Settles (db.factsOf id) ∨
      id ∈ batch ∧ db.factsOf id = facts ∧ facts.row.isSome = true) :
    facts.Settles (db'.factsOf id) := by
  induction batch generalizing j db with
  | nil =>
    cases h
    rcases hs with hs | ⟨hmem, -⟩
    · exact hs
    · cases hmem
  | cons x batch ih =>
    obtain ⟨db₁, h₁, h₂⟩ := bind_eq_ok.mp h
    have hcommit := hkept i j held db
    by_cases hx : id = x
    · -- the contact is recomputed now, from the facts it has had all along
      subst hx
      refine ih h₂ (Or.inl ?_)
      rcases hs with hs | ⟨-, hf, hrow⟩
      · have hs' := hs
        obtain ⟨c, t, -, -, heq⟩ := hs'
        have hc : (others.commit i j held db).contacts.find? id =
            some { c with retainUntil := t } := by
          rw [heq] at hcommit
          exact congrArg ContactFacts.row hcommit
        have hagain := backfillContact_self hc h₁
        rw [hcommit] at hagain
        exact hs.again hagain
      · obtain ⟨c, hc⟩ := Option.isSome_iff_exists.mp hrow
        rw [hf] at hcommit
        have hfind : (others.commit i j held db).contacts.find? id = some c :=
          (congrArg ContactFacts.row hcommit).trans hc
        have hself := backfillContact_self hfind h₁
        rwa [hcommit] at hself
    · refine ih h₂ ?_
      rw [backfillContact_other h₁ hx, hcommit]
      rcases hs with hs | ⟨hmem, hf⟩
      · exact Or.inl hs
      · exact Or.inr ⟨(List.mem_cons.mp hmem).resolve_left hx, hf⟩

/-- Ids stay within a set that the other transactions keep to. -/
theorem recomputeEach_within {ids : Finset ContactId} (hids : others.Within ids)
    (h : recomputeEach others held i j batch db = .ok db')
    (hdb : ∀ c ∈ db.contacts, c.id ∈ ids) : ∀ c ∈ db'.contacts, c.id ∈ ids := by
  induction batch generalizing j db with
  | nil =>
    cases h
    exact hdb
  | cons x batch ih =>
    obtain ⟨db₁, h₁, h₂⟩ := bind_eq_ok.mp h
    refine ih h₂ fun c hc => ?_
    obtain ⟨t, rfl⟩ := recomputeRetainUntil_writes h₁
    obtain ⟨c', hc', rfl⟩ := Table.mem_modify.mp hc
    have hmem := hids i j held db hdb c' hc'
    split
    · exact hmem
    · exact hmem

end Bookswap
