import Bookswap.Notifications.DigestInvariant

/-!
# Digests are unique, sound, and remind once

- `Reminding.DigestsSafe`, `digests_safe`: at most one digest per recipient, type and day; each
  lists what the scan wanted and the lock still found, once each; and a loan whose due date stays
  is in one digest of each due-soon type.
-/

namespace Bookswap

open Store

/-- The step leaves the due date of the loan as it is. -/
def KeepsDue (id : LoanId) (s : Reminding) (_ : RemindingOp) (s' : Reminding) : Prop :=
  ∀ l ∈ s.world.db.loans, l.id = id → ∀ l' ∈ s'.world.db.loans, l'.id = id → l'.dueAt = l.dueAt

/-- What the digests guarantee. -/
structure Reminding.DigestsSafe (s : Reminding) : Prop where
  unique : ∀ x ∈ s.digests, ∀ y ∈ s.digests, x.key.userId = y.key.userId →
    x.key.type = y.key.type → isoDayOf x.now = isoDayOf y.now → x = y
  lists : ∀ x ∈ s.digests, ∀ id, id ∈ x.payload.loanIds ↔
    x.scanned.Wants x.key.type x.now x.key.userId id ∧
      x.locked.Due x.key.type x.now x.key.userId id
  once : ∀ x ∈ s.digests, x.payload.loanIds.Nodup
  count : ∀ x ∈ s.digests, x.payload.count = x.payload.loanIds.length
  switch : ∀ x ∈ s.digests, x.key.type.isOwnerReminder = true → x.switch = some true

section Runs

variable {secrets : GuestConfirmationSecrets} {s : Reminding}

theorem digest_unique (hr : (reminders secrets).Reachable s) {x y : LoanDigest}
    (hx : x ∈ s.digests) (hy : y ∈ s.digests) (hu : x.key.userId = y.key.userId)
    (ht : x.key.type = y.key.type) (hd : isoDayOf x.now = isoDayOf y.now) : x = y := by
  have hs := digestsSound hr
  refine List.inj_on_of_nodup_map hs.keys hx hy ?_
  have hday : x.key.day = y.key.day :=
    (hs.digests x hx).day.trans (hd.trans (hs.digests y hy).day.symm)
  cases hxk : x.key
  cases hyk : y.key
  simp_all

/-- The same loan, of the same people; the loan `id` with the same due date. -/
def SameDue (id : LoanId) (l l' : Loan) : Prop :=
  l'.id = l.id ∧ l'.ownerId = l.ownerId ∧ l'.borrowerId = l.borrowerId ∧
    (l.id = id → l'.dueAt = l.dueAt)

/-- In a run that keeps the due date of a loan, every digest saw the due date it has now. -/
theorem follows_sameDue {id : LoanId}
    (hr : ((reminders secrets).restrict (KeepsDue id)).Reachable s) :
    s.Follows (SameDue id) := by
  refine hr.invariant (I := fun s => s.Follows (SameDue id)) (fun s hi => Reminding.Init.follows hi)
    fun s op s' hr hf hs => ?_
  obtain ⟨hstep, hkeeps⟩ := hs
  refine hf.step hstep (fun l => ⟨rfl, rfl, rfl, fun _ => rfl⟩) fun l l₁ hrel hl₁ => ?_
  obtain ⟨hid, ho, hb, hd⟩ := hrel
  obtain ⟨l₂, hl₂, hid₂, ho₂, hb₂⟩ := loan_kept hr.of_restrict hstep hl₁
  refine ⟨l₂, hl₂, hid₂.trans hid, ho₂.trans ho, hb₂.trans hb, fun h => ?_⟩
  rw [hkeeps l₁ hl₁ (hid.trans h) l₂ hl₂ (hid₂.trans (hid.trans h)), hd h]

theorem DigestType.recipientOf_congr {type : DigestType} {l l' : Loan}
    (ho : l'.ownerId = l.ownerId) (hb : l'.borrowerId = l.borrowerId) :
    type.recipientOf l' = type.recipientOf l := by
  unfold DigestType.recipientOf
  rw [ho, hb]

/-- **A loan whose due date stays is in one digest of each due-soon type.** -/
theorem due_soon_once {id : LoanId}
    (hr : ((reminders secrets).restrict (KeepsDue id)).Reachable s) {x y : LoanDigest}
    (hx : x ∈ s.digests) (hy : y ∈ s.digests) (ht : x.key.type = y.key.type)
    (hsoon : x.key.type ≠ .overdue) (hxid : id ∈ x.payload.loanIds)
    (hyid : id ∈ y.payload.loanIds) : x = y := by
  have hreach := hr.of_restrict
  have hs := digestsSound hreach
  have hf := follows_sameDue hr
  obtain ⟨-, l, hl, hlid, -, hlrec, d, hld, hlm⟩ := ((hs.digests x hx).lists id).mp hxid
  obtain ⟨-, m, hm, hmid, -, hmrec, e, hme, hmm⟩ := ((hs.digests y hy).lists id).mp hyid
  obtain ⟨l', hl', hid, ho, hb, hd⟩ := hf.digests x hx l hl
  obtain ⟨m', hm', hid', ho', hb', hd'⟩ := hf.digests y hy m hm
  obtain rfl := Table.eq_of_key_eq hl' hm' (hid.trans (hlid.trans (hmid.symm.trans hid'.symm)))
  -- one due date, and so one trigger day
  have hde : d = e := by
    have h := (hd hlid).symm.trans (hd' hmid)
    rw [hld, hme] at h
    exact Option.some.inj h
  have hday : ∀ {t : DigestType} {now : Time}, t ≠ .overdue → t.matches d now = true →
      triggerDay d = isoDayOf now := by
    intro t now ht h
    cases t with
    | overdue => exact absurd rfl ht
    | dueSoon | dueSoonOwner => exact of_decide_eq_true h
  refine digest_unique hreach hx hy ?_ ht ?_
  · have hrec : x.key.type.recipientOf l = y.key.type.recipientOf m := by
      rw [← DigestType.recipientOf_congr ho hb, ← DigestType.recipientOf_congr ho' hb', ht]
    rw [hlrec, hmrec] at hrec
    exact Option.some.inj hrec
  · rw [← hde] at hmm
    exact (hday hsoon hlm).symm.trans (hday (ht ▸ hsoon) hmm)

end Runs

/-- **Digests are unique, sound, and remind once.** -/
theorem digests_safe {secrets : GuestConfirmationSecrets} {s : Reminding}
    (hr : (reminders secrets).Reachable s) : s.DigestsSafe ∧
      ∀ id, ((reminders secrets).restrict (KeepsDue id)).Reachable s →
        ∀ x ∈ s.digests, ∀ y ∈ s.digests, x.key.type = y.key.type → x.key.type ≠ .overdue →
          id ∈ x.payload.loanIds → id ∈ y.payload.loanIds → x = y := by
  have hs := digestsSound hr
  refine ⟨?_, fun id hkeep x hx y hy => due_soon_once hkeep hx hy⟩
  constructor
  case unique => exact fun x hx y hy => digest_unique hr hx hy
  case lists => exact fun x hx => (hs.digests x hx).lists
  case once => exact fun x hx => (hs.digests x hx).once
  case count => exact fun x hx => (hs.digests x hx).count
  case switch => exact fun x hx => (hs.digests x hx).switch

/-! ## An example -/

/-- Two copies at home. -/
def exampleShelf : Db :=
  { exampleDb with copies := ⟨[exampleCopy, { exampleCopy with id := 11 }], by decide⟩ }

theorem exampleShelf_init : World.Init ⟨exampleShelf, []⟩ where
  no_loans := rfl
  no_confirmations := rfl
  no_events := rfl
  no_notifications := rfl
  no_lookups := rfl
  idle := fun c hc => by
    rcases List.mem_pair.mp hc with rfl | rfl <;> exact ⟨Or.inl rfl, rfl, rfl⟩
  owned := fun c hc => by
    rcases List.mem_pair.mp hc with rfl | rfl <;> exact ⟨exampleOwner, rfl⟩

/-- A copy lent on day 0, due on day 3. -/
def exampleRecord (copyId : CopyId) : CreateRecordedLoanRequest :=
  ⟨copyId, 2, 0, some 3, fun d hd => by cases hd; decide⟩

/-- The copy is recorded as lent. -/
def exampleRecorded (copyId : CopyId) (id : LoanId) (db : Db) : Db :=
  (createRecorded 0 1 (exampleRecord copyId) id db).toOption.getD db

/-- And the borrower confirms. -/
def exampleLent (copyId : CopyId) (id : LoanId) (db : Db) : Db :=
  (runTransition 0 2 id (.plain .confirmRecord (by decide))
    (exampleRecorded copyId id db)).toOption.getD db

/-- No owner wants to be reminded, and no pass is under way. -/
def exampleReminding (db : Db) (digests : List LoanDigest) : Reminding :=
  ⟨⟨db, []⟩, fun _ => false, digests, fun _ => none⟩

/-- A transaction between the passes. -/
theorem exampleReminding_world {db db' : Db} {digests : List LoanDigest} (op : Op)
    (h : World.Step exampleSecrets ⟨db, []⟩ op ⟨db', []⟩) :
    Reminding.Step exampleSecrets (exampleReminding db digests) (.world op)
      (exampleReminding db' digests) :=
  .world h fun _ _ hp => nomatch hp

theorem exampleLent_reachable : ((reminders exampleSecrets).restrict (KeepsDue 20)).Reachable
    (exampleReminding (exampleLent 10 20 exampleShelf) []) := by
  have hstart : ((reminders exampleSecrets).restrict (KeepsDue 20)).Reachable
      (exampleReminding exampleShelf []) := .start ⟨exampleShelf_init, rfl, fun _ => rfl⟩
  have hrecorded : Reminding.Step exampleSecrets (exampleReminding exampleShelf []) _
      (exampleReminding (exampleRecorded 10 20 exampleShelf) []) :=
    exampleReminding_world (.recordExisting 0 1 (exampleRecord 10) 20) ⟨rfl, rfl⟩
  have hlent : Reminding.Step exampleSecrets
      (exampleReminding (exampleRecorded 10 20 exampleShelf) []) _
      (exampleReminding (exampleLent 10 20 exampleShelf) []) :=
    exampleReminding_world (.apply 0 2 20 (.plain .confirmRecord (by decide))) ⟨rfl, rfl⟩
  refine (hstart.next ⟨hrecorded, fun l hl => nomatch hl⟩).next ⟨hlent, ?_⟩
  intro l hl _ l' hl' _
  cases List.mem_singleton.mp hl
  cases List.mem_singleton.mp hl'
  rfl

/-- The digest of day 0 lists the loan, and no other digest of the type does. -/
theorem digests_safe_lent : ∃ (s : Reminding) (x : LoanDigest), s.DigestsSafe ∧ x ∈ s.digests ∧
    20 ∈ x.payload.loanIds ∧ ∀ y ∈ s.digests, x.key.type = y.key.type →
      20 ∈ y.payload.loanIds → x = y := by
  let s := exampleReminding (exampleLent 10 20 exampleShelf) []
  have hkeeps : ∀ t op t', t.world = s.world → t'.world = s.world →
      (∀ q, op ≠ .crash q) → KeepsDue 20 t op t' := by
    intro t op t' ht ht' _ l hl hid l' hl' hid'
    rw [ht] at hl
    rw [ht'] at hl'
    rw [Table.eq_of_key_eq hl hl' (hid.trans hid'.symm)]
  have hby : byUser ((s.world.db.loans.rows.filter
      (DigestType.dueSoon.scans s.ownerDueReminders)).filterMap (DigestType.dueSoon.dueLoan 0)) =
        [(2, [⟨20, 10, 2, 345599999⟩])] := rfl
  obtain ⟨x, hkey, hnow, hscanned, hlocked, hpass⟩ := Reminding.whole_pass exampleSecrets
    (p := 0) hkeeps (fun _ => rfl) hby
    ⟨_, List.mem_singleton_self _, by decide, _, rfl, rfl, by decide⟩ (by decide)
  have hrun : Reminding.Step exampleSecrets s (.run 0 0) _ := .run rfl
  have hreach := (exampleLent_reachable.next ⟨hrun, hkeeps _ _ _ rfl rfl (by simp)⟩).leads hpass
  obtain ⟨hsafe, honce⟩ := digests_safe hreach.of_restrict
  have hx : x ∈ ((s.commit x).moveOn 0 none).digests := List.mem_singleton_self x
  have hlists : 20 ∈ x.payload.loanIds := by
    refine (hsafe.lists x hx 20).mpr ?_
    rw [hscanned, hlocked, hnow, hkey]
    have hdue : s.view.Due .dueSoon 0 2 20 :=
      ⟨_, List.mem_singleton_self _, rfl, rfl, rfl, _, rfl, by decide⟩
    exact ⟨⟨hdue, fun h => nomatch h⟩, hdue⟩
  refine ⟨_, x, hsafe, hx, hlists, fun y hy hxy hyid => ?_⟩
  exact honce 20 hreach x hx y hy hxy (by rw [hkey]; decide) hlists hyid

end Bookswap
