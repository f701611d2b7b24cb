import Bookswap.Guarantees.Digests

/-!
# Whether the due-soon reminder is sent

The key of the day makes the first digest of a borrower final. A pass that finds a loan due adds
it only when no digest has the key yet, and a loan that becomes due after that digest was made is
on no later trigger day. So the reminder is sent exactly when the digest of the day was made from
the loan as due (`due_soon_reminder_iff`), and otherwise is lost (`due_soon_reminder_lost`).

- `Undisturbed`: a step during which the loan stays out, and the pass goes on.
- `Comes`: what a pass under way has to do until there is a digest of the key.
-/

namespace Bookswap

open Store

namespace Reminding

/-- The loan is out with the borrower, to be back at `dueAt`. -/
def OnLoan (s : Reminding) (id : LoanId) (u : UserId) (dueAt : Time) : Prop :=
  ∃ l ∈ s.world.db.loans, l.id = id ∧ l.status = .handedOver ∧ l.borrowerId = some u ∧
    l.dueAt = some dueAt

/-- The loan is out before and after the step, and the pass of `p` does not die in it. -/
def Undisturbed (p : ProcessId) (id : LoanId) (u : UserId) (dueAt : Time) (s : Reminding)
    (op : RemindingOp) (s' : Reminding) : Prop :=
  (∀ q, op = .crash q → q ≠ p) ∧ s.OnLoan id u dueAt ∧ s'.OnLoan id u dueAt

/-- The key under which the borrower is reminded on the loan's trigger day. -/
def reminderKey (u : UserId) (dueAt : Time) : DigestKey := ⟨u, .dueSoon, triggerDay dueAt⟩

/-- The borrower's digest of the trigger day lists the loan. -/
def Reminded (s : Reminding) (id : LoanId) (u : UserId) (dueAt : Time) : Prop :=
  ∃ x ∈ s.digests, x.key = reminderKey u dueAt ∧ id ∈ x.payload.loanIds

/-- A digest of the borrower and the trigger day was made from the loan as due: it was out with
the borrower at the scan and when the rows were locked. -/
def DueForDigest (s : Reminding) (id : LoanId) (u : UserId) (dueAt : Time) : Prop :=
  ∀ x ∈ s.digests, x.key = reminderKey u dueAt →
    x.scanned.Due .dueSoon x.now u id ∧ x.locked.Due .dueSoon x.now u id

variable {secrets : GuestConfirmationSecrets} {s s' : Reminding} {op : RemindingOp}

/-- The bucket of the borrower, with the loan, is among these. -/
def Waits (u : UserId) (id : LoanId) (buckets : List (UserId × List DueLoan)) : Prop :=
  ∃ b ∈ buckets, b.1 = u ∧ id ∈ b.2.map DueLoan.id

/-- The emission is of the due-soon type, at this time, and its first bucket is the borrower's or
the borrower's is among the others. -/
structure Carries (t : EmitTx) (now : Time) (u : UserId) (id : LoanId) : Prop where
  now : t.emission.now = now
  type : t.emission.type = .dueSoon
  head_or_tail : (t.userId = u ∧ id ∈ t.candidates.map DueLoan.id) ∨
    Waits u id t.emission.buckets.tail

/-- The borrower has a digest of the day, or the pass of `p` is on its way to one. -/
inductive Comes (s : Reminding) (p : ProcessId) (now : Time) (u : UserId) (id : LoanId) : Prop
  | there : ⟨u, .dueSoon, isoDayOf now⟩ ∈ s.digests.map LoanDigest.key → Comes s p now u id
  | scanning {later : List DigestType} : s.passes p = some (.scanning now (.dueSoon :: later)) →
      Comes s p now u id
  | emitting {e : Emission} : s.passes p = some (.emitting e) → e.now = now → e.type = .dueSoon →
      Waits u id e.buckets → Comes s p now u id
  | started {t : EmitTx} : s.passes p = some (.started t) → Carries t now u id →
      Comes s p now u id
  | locked {t : EmitTx} {rows : List Loan} {view : DigestView} :
      s.passes p = some (.locked t rows view) → Carries t now u id → Comes s p now u id

variable {p : ProcessId} {now dueAt : Time} {u : UserId} {id : LoanId}

/-- A pass with the borrower's bucket before it goes on with its buckets. -/
theorem resume_of_waits {e : Emission} (h : Waits u id e.buckets) :
    e.resume = some (.emitting e) := by
  obtain ⟨b, hb, -⟩ := h
  cases hbs : e.buckets with
  | nil =>
    rw [hbs] at hb
    cases hb
  | cons b rest => simp [Emission.resume, hbs]

/-- After a bucket that is not the borrower's the borrower's still waits. -/
theorem Carries.next {t : EmitTx} (hc : Carries t now u id)
    (hw : Waits u id t.emission.buckets.tail) (hp : s.passes p = t.emission.next) :
    s.Comes p now u id := by
  rw [Emission.next, resume_of_waits hw] at hp
  exact .emitting hp hc.now hc.type hw

theorem Step.digest_kept (h : Step secrets s op s') {x : LoanDigest} (hx : x ∈ s.digests) :
    x ∈ s'.digests := by
  rcases h.digests with hsame | ⟨p, t, rows, view, -, -, hcons⟩
  · rwa [hsame]
  · rw [hcons]
    exact List.mem_cons_of_mem _ hx

theorem Step.digests_kept (h : Step secrets s op s') {key : DigestKey}
    (hk : key ∈ s.digests.map LoanDigest.key) : key ∈ s'.digests.map LoanDigest.key := by
  obtain ⟨x, hx, rfl⟩ := List.mem_map.mp hk
  exact List.mem_map_of_mem (h.digest_kept hx)

/-- A loan that is out on its trigger day is due. -/
theorem OnLoan.due (h : s.OnLoan id u dueAt) (hday : triggerDay dueAt = isoDayOf now) :
    s.view.Due .dueSoon now u id := by
  obtain ⟨l, hl, hid, hs, hb, hd⟩ := h
  exact ⟨l, hl, hid, hs, hb, dueAt, hd, decide_eq_true hday⟩

/-- The scan of the due-soon type finds the loan. -/
theorem OnLoan.waits (h : s.OnLoan id u dueAt) (hday : triggerDay dueAt = isoDayOf now)
    {loans : List Loan}
    (hp : loans.Perm (s.world.db.loans.rows.filter
      (DigestType.dueSoon.scans s.ownerDueReminders))) :
    Waits u id (byUser (loans.filterMap (DigestType.dueSoon.dueLoan now))) := by
  obtain ⟨l, hl, hid, hs, hb, hd⟩ := h
  have hscan : DigestType.dueSoon.scans s.ownerDueReminders l = true := by
    simp [DigestType.scans, DigestType.isOwnerReminder, hs, hd, hb]
  have hmem : (⟨l.id, l.copyId, u, dueAt⟩ : DueLoan) ∈
      loans.filterMap (DigestType.dueSoon.dueLoan now) :=
    List.mem_filterMap.mpr ⟨l, hp.mem_iff.mpr (List.mem_filter.mpr ⟨hl, hscan⟩),
      dueLoan_eq_some.mpr ⟨rfl, rfl, hb, hd, decide_eq_true hday⟩⟩
  obtain ⟨b, hbmem, hbu⟩ := exists_bucket hmem
  refine ⟨b, hbmem, hbu, ?_⟩
  rw [mem_byUser hbmem]
  exact List.mem_map.mpr ⟨_, List.mem_filter.mpr ⟨hmem, decide_eq_true hbu.symm⟩, hid⟩

/-- The rows of the borrower's bucket include the loan, still due. -/
theorem OnLoan.stillDue_ne_nil (h : s.OnLoan id u dueAt) (hday : triggerDay dueAt = isoDayOf now)
    {t : EmitTx} (hc : Carries t now u id) (hu : t.userId = u)
    (hid : id ∈ t.candidates.map DueLoan.id) {rows : List Loan}
    (hp : rows.Perm (s.world.db.loans.rows.filter
      (t.emission.type.locks t.userId t.candidates))) :
    stillDue t.emission.type t.emission.now rows ≠ [] := by
  obtain ⟨l, hl, rfl, hs, hb, hd⟩ := h
  have hlock : t.emission.type.locks t.userId t.candidates l = true := by
    rw [hc.type, hu]
    exact decide_eq_true ⟨hid, hb⟩
  have hrow : l ∈ rows := hp.mem_iff.mpr (List.mem_filter.mpr ⟨hl, hlock⟩)
  refine List.ne_nil_of_mem (a := (l, dueAt)) (mem_stillDue.mpr ⟨hrow, hd, hs, ?_⟩)
  rw [hc.type, hc.now]
  exact decide_eq_true hday

/-- A step of another process leaves the pass as it is. -/
theorem Comes.of_eq (hc : s.Comes p now u id) (hp : s'.passes p = s.passes p)
    (hd : ∀ key, key ∈ s.digests.map LoanDigest.key → key ∈ s'.digests.map LoanDigest.key) :
    s'.Comes p now u id := by
  cases hc with
  | there h => exact .there (hd _ h)
  | scanning h => exact .scanning (hp.trans h)
  | emitting h hn ht hw => exact .emitting (hp.trans h) hn ht hw
  | started h hcar => exact .started (hp.trans h) hcar
  | locked h hcar => exact .locked (hp.trans h) hcar

/-- **One step of the run**: the loan is out, so the pass goes on towards its digest. -/
theorem Comes.step (hday : triggerDay dueAt = isoDayOf now) (hc : s.Comes p now u id)
    (h : Step secrets s op s') (hu : Undisturbed p id u dueAt s op s') :
    s'.Comes p now u id := by
  obtain ⟨halive, hloan, -⟩ := hu
  have hkept : ∀ key, key ∈ s.digests.map LoanDigest.key → key ∈ s'.digests.map LoanDigest.key :=
    fun _ => h.digests_kept
  have hother : ∀ {q : ProcessId} {ph : Option DigestPhase}, p ≠ q →
      (s.moveOn q ph).passes p = s.passes p := fun hpq => by rw [moveOn_passes, if_neg hpq]
  have hthere : ∀ {q : ProcessId} {ph : Option DigestPhase}, (s.moveOn q ph).passes q = ph :=
    by intro q ph; rw [moveOn_passes, if_pos rfl]
  cases h with
  | world | setOwnerDueReminders => exact hc.of_eq rfl hkept
  | @run q _ hq =>
    by_cases hpq : p = q
    · -- a pass under way is not begun again
      subst hpq
      cases hc with
      | there h => exact .there h
      | scanning h | emitting h | started h | locked h => rw [hq] at h; cases h
    · exact hc.of_eq (hother hpq) hkept
  | @scan q now' type later loans hq hp =>
    by_cases hpq : p = q
    · subst hpq
      cases hc with
      | there h => exact .there h
      | scanning h =>
        rw [hq] at h
        cases h
        have hw := hloan.waits hday hp
        exact .emitting (hthere.trans (resume_of_waits hw)) rfl rfl hw
      | emitting h | started h | locked h => rw [hq] at h; cases h
    · exact hc.of_eq (hother hpq) hkept
  | @start q e userId candidates rest hq hb =>
    by_cases hpq : p = q
    · subst hpq
      cases hc with
      | there h => exact .there h
      | emitting h hn ht hw =>
        rw [hq] at h
        cases h
        have howner : e.type.isOwnerReminder ≠ true := by rw [ht]; decide
        refine .started (hthere.trans (if_neg howner)) ⟨hn, ht, ?_⟩
        obtain ⟨b, hbmem, hbu, hbid⟩ := hw
        rw [hb] at hbmem
        rcases List.mem_cons.mp hbmem with rfl | hrest
        · exact Or.inl ⟨hbu, hbid⟩
        · exact Or.inr ⟨b, by rw [hb]; exact hrest, hbu, hbid⟩
      | scanning h | started h | locked h => rw [hq] at h; cases h
    · exact hc.of_eq (hother hpq) hkept
  | @lock q t rows hq hp hfree =>
    by_cases hpq : p = q
    · subst hpq
      cases hc with
      | there h => exact .there h
      | started h hcar =>
        rw [hq] at h
        cases h
        by_cases hnil : stillDue t.emission.type t.emission.now rows = []
        · rcases hcar.head_or_tail with ⟨htu, hid⟩ | hw
          · exact absurd hnil (hloan.stillDue_ne_nil hday hcar htu hid hp)
          · exact hcar.next hw (hthere.trans (if_pos hnil))
        · exact .locked (hthere.trans (if_neg hnil)) hcar
      | scanning h | emitting h | locked h => rw [hq] at h; cases h
    · exact hc.of_eq (hother hpq) hkept
  | @insert q t rows view hq =>
    by_cases hpq : p = q
    · subst hpq
      cases hc with
      | there h => exact .there (hkept _ h)
      | locked h hcar =>
        rw [hq] at h
        cases h
        rcases hcar.head_or_tail with ⟨htu, -⟩ | hw
        · -- the borrower's own bucket: its key is there now, by this pass or before it
          have hkey : t.key = ⟨u, .dueSoon, isoDayOf now⟩ := by
            simp only [EmitTx.key, htu, hcar.type, hcar.now]
          refine .there ?_
          show _ ∈ List.map LoanDigest.key (if _ then _ else _)
          rw [← hkey]
          split
          next hin => exact hin
          · exact List.mem_cons_self
        · exact hcar.next hw (by simp [moveOn])
      | scanning h | emitting h | started h => rw [hq] at h; cases h
    · exact hc.of_eq (by simp [moveOn, hpq]) hkept
  | @crash q => exact hc.of_eq (hother fun hpq => halive q rfl hpq.symm) hkept

/-- **The run**: while the loan is out the pass leads to a digest of the day. -/
theorem Comes.leads (hday : triggerDay dueAt = isoDayOf now) (hc : s.Comes p now u id)
    (h : ((reminders secrets).restrict (Undisturbed p id u dueAt)).Leads s s') :
    s'.Comes p now u id := by
  induction h with
  | refl => exact hc
  | tail _ hstep ih =>
    obtain ⟨op, hs, hu⟩ := hstep
    exact ih.step hday hs hu

/-- A pass that is over has left its digest. -/
theorem Comes.over (hc : s.Comes p now u id) (h : s.passes p = none) :
    ⟨u, .dueSoon, isoDayOf now⟩ ∈ s.digests.map LoanDigest.key := by
  cases hc with
  | there h => exact h
  | scanning h' | emitting h' | started h' | locked h' =>
    rw [h] at h'
    cases h'

end Reminding

/-- **The reminder is sent exactly when the digest of the day was made from the loan as due.** A
pass of the trigger day that runs to its end while the loan is out, and whatever happens then. -/
theorem due_soon_reminder_iff {secrets : GuestConfirmationSecrets} {s₀ s₁ s₂ s₃ : Reminding}
    {p : ProcessId} {now dueAt : Time} {id : LoanId} {u : UserId}
    (hr : (reminders secrets).Reachable s₀) (hrun : s₀.Step secrets (.run p now) s₁)
    (hday : triggerDay dueAt = isoDayOf now)
    (hpass : ((reminders secrets).restrict (Reminding.Undisturbed p id u dueAt)).Leads s₁ s₂)
    (hover : s₂.passes p = none) (hlater : (reminders secrets).Leads s₂ s₃) :
    s₃.Reminded id u dueAt ↔ s₃.DueForDigest id u dueAt := by
  have hr₁ : (reminders secrets).Reachable s₁ := hr.next hrun
  have hr₂ : (reminders secrets).Reachable s₂ := hr₁.leads hpass.of_restrict
  have hr₃ := hr₂.leads hlater
  have hs := digestsSound hr₃
  have hkey : Reminding.reminderKey u dueAt ∈ s₃.digests.map LoanDigest.key := by
    have hbegun : s₁.Comes p now u id := by
      cases hrun
      exact .scanning (Reminding.moveOn_self ..)
    have hthere := (hbegun.leads hday hpass).over hover
    rw [← hday] at hthere
    exact hlater.keeps (P := fun s => Reminding.reminderKey u dueAt ∈ s.digests.map LoanDigest.key)
      (fun s op s' _ hk hstep => Reminding.Step.digests_kept hstep hk) hr₂ hthere
  obtain ⟨x, hx, hxkey⟩ := List.mem_map.mp hkey
  have hlists := (hs.digests x hx).lists id
  rw [hxkey] at hlists
  constructor
  · rintro ⟨y, hy, hykey, hyid⟩ z hz hzkey
    obtain rfl : y = x := List.inj_on_of_nodup_map hs.keys hy hx (hykey.trans hxkey.symm)
    obtain rfl : z = y := List.inj_on_of_nodup_map hs.keys hz hy (hzkey.trans hykey.symm)
    exact ⟨(hlists.mp hyid).1.1, (hlists.mp hyid).2⟩
  · intro hdue
    obtain ⟨hscanned, hlocked⟩ := hdue x hx hxkey
    exact ⟨x, hx, hxkey, hlists.mpr ⟨⟨hscanned, fun h => nomatch h⟩, hlocked⟩⟩

/-- A pass over the only loan reminds of it. -/
theorem due_soon_reminder_sent : ∃ s : Reminding, (reminders exampleSecrets).Reachable s ∧
    s.Reminded 20 2 345599999 := by
  let s := exampleReminding (exampleLent 10 20 exampleShelf) []
  have hloan : ∀ t : Reminding, t.world = s.world → t.OnLoan 20 2 345599999 := by
    intro t ht
    rw [Reminding.OnLoan, ht]
    exact ⟨_, List.mem_singleton_self _, rfl, rfl, rfl, rfl⟩
  have hby : byUser ((s.world.db.loans.rows.filter
      (DigestType.dueSoon.scans s.ownerDueReminders)).filterMap (DigestType.dueSoon.dueLoan 0)) =
        [(2, [⟨20, 10, 2, 345599999⟩])] := rfl
  obtain ⟨x, hkey, hnow, hscanned, hlocked, hpass⟩ := Reminding.whole_pass exampleSecrets
    (P := Reminding.Undisturbed 0 20 2 345599999) (s := s) (p := 0)
    (fun t op t' ht ht' hc => ⟨fun q hq => absurd hq (hc q), hloan t ht, hloan t' ht'⟩)
    (fun _ => rfl) hby ⟨_, List.mem_singleton_self _, by decide, _, rfl, rfl, by decide⟩ (by decide)
  have hstart : (reminders exampleSecrets).Reachable s := exampleLent_reachable.of_restrict
  have hrun : Reminding.Step exampleSecrets s (.run 0 0) _ := .run rfl
  have hbegun : (reminders exampleSecrets).Reachable _ := hstart.next hrun
  refine ⟨_, hbegun.leads hpass.of_restrict, ?_⟩
  refine (due_soon_reminder_iff hstart hrun (by decide) hpass (Reminding.moveOn_self ..)
    .refl).mpr fun y hy _ => ?_
  obtain rfl := List.mem_singleton.mp hy
  have hdue : s.view.Due .dueSoon 0 2 20 := (hloan s rfl).due (by decide)
  rw [hscanned, hlocked, hnow]
  exact ⟨hdue, hdue⟩

/-! ## A lost reminder -/

/-- Loan 21 is handed over on the same day as loan 20. -/
def exampleLate : Db := exampleLent 11 21 (exampleLent 10 20 exampleShelf)

/-- The day's digest lists loan 20, and then loan 21 is handed over. -/
theorem exampleLate_reachable : ∃ x : LoanDigest, x.key = ⟨2, .dueSoon, 0⟩ ∧
    21 ∉ x.payload.loanIds ∧ (reminders exampleSecrets).Reachable
      (exampleReminding exampleLate [x]) := by
  let s := exampleReminding (exampleLent 10 20 exampleShelf) []
  have hby : byUser ((s.world.db.loans.rows.filter
      (DigestType.dueSoon.scans s.ownerDueReminders)).filterMap (DigestType.dueSoon.dueLoan 0)) =
        [(2, [⟨20, 10, 2, 345599999⟩])] := rfl
  obtain ⟨x, hkey, -, hscanned, -, hpass⟩ := Reminding.whole_pass exampleSecrets
    (P := fun _ _ _ => True) (s := s) (p := 0) (fun _ _ _ _ _ _ => trivial) (fun _ => rfl) hby
    ⟨_, List.mem_singleton_self _, by decide, _, rfl, rfl, by decide⟩ (by decide)
  have hstart : (reminders exampleSecrets).Reachable s := exampleLent_reachable.of_restrict
  have hend : (reminders exampleSecrets).Reachable
      (exampleReminding (exampleLent 10 20 exampleShelf) [x]) := by
    have hover : (s.commit x).moveOn 0 none =
        exampleReminding (exampleLent 10 20 exampleShelf) [x] := by
      simp [Reminding.moveOn, Reminding.commit, s, exampleReminding]
    have hrun : Reminding.Step exampleSecrets s (.run 0 0) _ := .run rfl
    have hbegun : (reminders exampleSecrets).Reachable _ := hstart.next hrun
    rw [← hover]
    exact hbegun.leads hpass.of_restrict
  refine ⟨x, hkey, fun hin => ?_, ?_⟩
  · -- the scan saw no loan but 20
    have hwant := (((digestsSound hend).digests x (List.mem_singleton_self x)).lists 21).mp hin
    rw [hscanned] at hwant
    obtain ⟨⟨⟨l, hl, hid, -⟩, -⟩, -⟩ := hwant
    cases List.mem_singleton.mp hl
    exact absurd hid (by decide)
  · have hrecorded : Reminding.Step exampleSecrets
        (exampleReminding (exampleLent 10 20 exampleShelf) [x]) _
        (exampleReminding (exampleRecorded 11 21 (exampleLent 10 20 exampleShelf)) [x]) :=
      exampleReminding_world (.recordExisting 0 1 (exampleRecord 11) 21) ⟨rfl, rfl⟩
    have hlent : Reminding.Step exampleSecrets
        (exampleReminding (exampleRecorded 11 21 (exampleLent 10 20 exampleShelf)) [x]) _
        (exampleReminding exampleLate [x]) :=
      exampleReminding_world (.apply 0 2 21 (.plain .confirmRecord (by decide))) ⟨rfl, rfl⟩
    have hafter : (reminders exampleSecrets).Reachable _ := hend.next hrecorded
    exact hafter.next hlent

/-- The two loans as the scan finds them. -/
def exampleDue : List DueLoan := [⟨20, 10, 2, 345599999⟩, ⟨21, 11, 2, 345599999⟩]

/-- **The claim fails**: a whole pass of the trigger day while loan 21 is out, no digest lists the
loan, and none of the key ever will. -/
theorem due_soon_reminder_lost : ∃ s₀ s₁ s₂ : Reminding,
    (reminders exampleSecrets).Reachable s₀ ∧ s₀.Step exampleSecrets (.run 1 0) s₁ ∧
    triggerDay 345599999 = isoDayOf 0 ∧
    ((reminders exampleSecrets).restrict
      (Reminding.Undisturbed 1 21 2 345599999)).Leads s₁ s₂ ∧ s₂.passes 1 = none ∧
    (∀ x ∈ s₂.digests, 21 ∉ x.payload.loanIds) ∧
    ∀ s₃, (reminders exampleSecrets).Leads s₂ s₃ → ¬ s₃.Reminded 21 2 345599999 := by
  obtain ⟨x, hkey, hnot, hr⟩ := exampleLate_reachable
  have hloan : ∀ t : Reminding, t.world = ⟨exampleLate, []⟩ → t.OnLoan 21 2 345599999 := by
    have hrow : ∃ l ∈ exampleLate.loans.rows, l.id = 21 ∧ l.status = .handedOver ∧
        l.borrowerId = some 2 ∧ l.dueAt = some 345599999 := by decide
    intro t ht
    rw [Reminding.OnLoan, ht]
    exact hrow
  have hby : byUser ((exampleLate.loans.rows.filter
      (DigestType.dueSoon.scans fun _ => false)).filterMap (DigestType.dueSoon.dueLoan 0)) =
        [(2, exampleDue)] := by decide +kernel
  have hlock : ∃ l ∈ exampleLate.loans.rows, DigestType.dueSoon.locks 2 exampleDue l ∧
      ∃ d, l.dueAt = some d ∧ l.status = .handedOver ∧ DigestType.dueSoon.matches d 0 = true :=
    ⟨_, List.mem_cons_self, by decide, _, rfl, rfl, by decide⟩
  have hnone : ∀ type ∈ [DigestType.overdue, .dueSoonOwner],
      (exampleLate.loans.rows.filter (type.scans fun _ => false)).filterMap (type.dueLoan 0) =
        [] := by decide
  obtain ⟨y, hykey, -, -, -, hpass⟩ := Reminding.whole_pass exampleSecrets
    (P := Reminding.Undisturbed 1 21 2 345599999) (s := exampleReminding exampleLate [x]) (p := 1)
    (fun t op t' ht ht' hc => ⟨fun q hq => absurd hq (hc q), hloan t ht, hloan t' ht'⟩)
    (fun _ => rfl) hby hlock hnone
  have hsame : (((exampleReminding exampleLate [x]).commit y).moveOn 1 none).digests = [x] :=
    if_pos (by rw [hykey]; exact List.mem_map.mpr ⟨x, List.mem_singleton_self x, hkey⟩)
  have hrun : Reminding.Step exampleSecrets (exampleReminding exampleLate [x]) (.run 1 0) _ :=
    .run rfl
  have hbegun : (reminders exampleSecrets).Reachable _ := hr.next hrun
  have hend := hbegun.leads hpass.of_restrict
  refine ⟨_, _, _, hr, hrun, by decide, hpass, Reminding.moveOn_self .., ?_, fun s₃ hlater => ?_⟩
  · intro z hz
    rw [hsame] at hz
    rw [List.mem_singleton.mp hz]
    exact hnot
  · -- the digest of the key stays the one that was there before
    rintro ⟨z, hz, hzkey, hzid⟩
    have hx : x ∈ s₃.digests := hlater.keeps (P := fun s => x ∈ s.digests)
      (fun s op s' _ hx hs => Reminding.Step.digest_kept hs hx) hend
      (by rw [hsame]; exact List.mem_singleton_self x)
    have hkeys := (digestsSound (hend.leads hlater)).keys
    have hzx : z.key = x.key := by rw [hzkey, hkey]; decide
    exact hnot (List.inj_on_of_nodup_map hkeys hz hx hzx ▸ hzid)

end Bookswap
