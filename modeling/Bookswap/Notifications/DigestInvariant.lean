import Bookswap.Notifications.DigestService

/-!
# What the digests keep

What a bucket holds is decided by the scan, and what a digest lists by the bucket and the locked
rows; both are read off views, so no later step of anybody changes them. The key of a digest is
its recipient, its type and the day of its pass, and the unique index lets one digest have it.

- `DigestView.Due`, `DigestView.Wants`: a loan is due for a recipient; and the scan took it.
- `LoanDigest.Sound`, `digestsSound`: what is so of every committed digest.
- `Follows`: what every step keeps of a loan is so between a digest's view and the present.
- `whole_pass`: a pass that finds one borrower's loans due can be made, and leaves a digest.
-/

namespace Bookswap

open Store

/-! ## Views -/

namespace DigestView

/-- The loan is handed over to be reminded of: this recipient, this type, at this time. -/
def Due (v : DigestView) (type : DigestType) (now : Time) (u : UserId) (id : LoanId) : Prop :=
  ∃ l ∈ v.loans, l.id = id ∧ l.status = .handedOver ∧ type.recipientOf l = some u ∧
    ∃ dueAt, l.dueAt = some dueAt ∧ type.matches dueAt now = true

/-- The scan takes the loan: it is due, and an owner has the switch on. -/
def Wants (v : DigestView) (type : DigestType) (now : Time) (u : UserId) (id : LoanId) : Prop :=
  v.Due type now u id ∧ (type.isOwnerReminder = true → v.ownerDueReminders u = true)

end DigestView

theorem mem_byUser {loans : List DueLoan} {b : UserId × List DueLoan} (hb : b ∈ byUser loans) :
    b.2 = loans.filter fun l => l.recipientId = b.1 := by
  obtain ⟨u, -, rfl⟩ := List.mem_map.mp hb
  rfl

/-- A recipient of a matching loan has a bucket. -/
theorem exists_bucket {loans : List DueLoan} {l : DueLoan} (hl : l ∈ loans) :
    ∃ b ∈ byUser loans, b.1 = l.recipientId :=
  ⟨_, List.mem_map.mpr ⟨_, List.mem_eraseDups.mpr (List.mem_map_of_mem hl), rfl⟩, rfl⟩

theorem dueLoan_eq_some {type : DigestType} {now : Time} {l : Loan} {x : DueLoan} :
    type.dueLoan now l = some x ↔ x.id = l.id ∧ x.copyId = l.copyId ∧
      type.recipientOf l = some x.recipientId ∧ l.dueAt = some x.dueAt ∧
        type.matches x.dueAt now = true := by
  unfold DigestType.dueLoan
  cases hd : l.dueAt with
  | none => simp
  | some d =>
    cases hr : type.recipientOf l with
    | none => simp
    | some u =>
      by_cases hm : type.matches d now = true
      · simp only [hm, if_true, Option.some.injEq]
        constructor
        · rintro rfl
          exact ⟨rfl, rfl, rfl, rfl, hm⟩
        · rintro ⟨hid, hcopy, rfl, rfl, -⟩
          cases x
          simp_all
      · simp only [hm, Bool.false_eq_true, if_false, reduceCtorEq, Option.some.injEq, false_iff]
        rintro ⟨-, -, -, rfl, hm'⟩
        exact hm hm'

theorem mem_stillDue {type : DigestType} {now : Time} {rows : List Loan} {l : Loan} {d : Time} :
    (l, d) ∈ stillDue type now rows ↔
      l ∈ rows ∧ l.dueAt = some d ∧ l.status = .handedOver ∧ type.matches d now = true := by
  unfold stillDue
  rw [List.mem_mergeSort, List.mem_filterMap]
  constructor
  · rintro ⟨l', hl', h⟩
    obtain ⟨d', hd', h⟩ := Option.bind_eq_some_iff.mp h
    split at h
    next hp =>
      cases h
      exact ⟨hl', hd', hp⟩
    · cases h
  · rintro ⟨hl, hd, hp⟩
    exact ⟨l, hl, Option.bind_eq_some_iff.mpr ⟨d, hd, if_pos hp⟩⟩

/-- What the rows list: the rows that are still due. -/
theorem mem_map_stillDue {type : DigestType} {now : Time} {rows : List Loan} {id : LoanId} :
    id ∈ (stillDue type now rows).map (fun x => x.1.id) ↔
      ∃ l ∈ rows, l.id = id ∧ l.status = .handedOver ∧
        ∃ d, l.dueAt = some d ∧ type.matches d now = true := by
  constructor
  · intro h
    obtain ⟨⟨l, d⟩, hx, rfl⟩ := List.mem_map.mp h
    obtain ⟨hl, hd, hs, hm⟩ := mem_stillDue.mp hx
    exact ⟨l, hl, rfl, hs, d, hd, hm⟩
  · rintro ⟨l, hl, rfl, hs, d, hd, hm⟩
    exact List.mem_map.mpr ⟨(l, d), mem_stillDue.mpr ⟨hl, hd, hs, hm⟩, rfl⟩

/-- Each row is listed at most once. -/
theorem nodup_stillDue {type : DigestType} {now : Time} {rows : List Loan}
    (h : (rows.map Loan.id).Nodup) : ((stillDue type now rows).map fun x => x.1.id).Nodup := by
  unfold stillDue
  refine ((List.mergeSort_perm _ _).map _).nodup_iff.mpr ?_
  have hsub : ((rows.filterMap fun l => l.dueAt.bind fun d =>
      if l.status = .handedOver ∧ type.matches d now then some (l, d) else none).map
        fun x => x.1.id).Sublist (rows.map Loan.id) := by
    induction rows with
    | nil => exact .slnil
    | cons l rows ih =>
      have ih := ih (List.nodup_cons.mp h).2
      rw [List.filterMap_cons]
      split
      · exact ih.cons _
      next x hx =>
        obtain ⟨d, -, hx⟩ := Option.bind_eq_some_iff.mp hx
        split at hx
        · cases hx
          exact ih.cons_cons _
        · cases hx
  exact h.sublist hsub

/-! ## Phases -/

/-- The buckets that are left hold what the scan wants for their recipients. -/
def Emission.Sound (e : Emission) : Prop :=
  ∀ b ∈ e.buckets, ∀ id, id ∈ b.2.map DueLoan.id ↔ e.scanned.Wants e.type e.now b.1 id

structure EmitTx.Sound (t : EmitTx) : Prop where
  emission : t.emission.Sound
  candidates : ∀ id, id ∈ t.candidates.map DueLoan.id ↔
    t.emission.scanned.Wants t.emission.type t.emission.now t.userId id
  switch : t.emission.type.isOwnerReminder = true → t.switch = some true

def DigestPhase.Sound : DigestPhase → Prop
  | .scanning _ _ => True
  | .emitting e => e.Sound
  | .started t => t.Sound
  | .locked t rows view => t.Sound ∧
    rows.Perm (view.loans.rows.filter (t.emission.type.locks t.userId t.candidates))

/-- What is so of every committed digest. -/
structure LoanDigest.Sound (x : LoanDigest) : Prop where
  day : x.key.day = isoDayOf x.now
  lists : ∀ id, id ∈ x.payload.loanIds ↔ x.scanned.Wants x.key.type x.now x.key.userId id ∧
    x.locked.Due x.key.type x.now x.key.userId id
  once : x.payload.loanIds.Nodup
  count : x.payload.count = x.payload.loanIds.length
  switch : x.key.type.isOwnerReminder = true → x.switch = some true

theorem Emission.Sound.resume {e : Emission} (h : e.Sound) {ph : DigestPhase}
    (hr : e.resume = some ph) : ph.Sound := by
  unfold Emission.resume at hr
  split at hr
  · cases hr
  · cases hr
    trivial
  · cases hr
    exact h

theorem Emission.Sound.next {e : Emission} (h : e.Sound) {ph : DigestPhase}
    (hr : e.next = some ph) : ph.Sound :=
  Emission.Sound.resume (e := { e with buckets := e.buckets.tail })
    (fun b hb => h b (List.mem_of_mem_tail hb)) hr

/-- **The scan fills the buckets.** -/
theorem Emission.sound_scan {now : Time} {type : DigestType} {v : DigestView} {loans : List Loan}
    {later : List DigestType}
    (hp : loans.Perm (v.loans.rows.filter (type.scans v.ownerDueReminders))) :
    Emission.Sound ⟨now, type, v, byUser (loans.filterMap (type.dueLoan now)), later⟩ := by
  intro b hb id
  rw [mem_byUser hb]
  constructor
  · intro h
    obtain ⟨x, hx, rfl⟩ := List.mem_map.mp h
    obtain ⟨hx, hu⟩ := List.mem_filter.mp hx
    obtain ⟨l, hl, hdue⟩ := List.mem_filterMap.mp hx
    obtain ⟨hmem, hscan⟩ := List.mem_filter.mp (hp.mem_iff.mp hl)
    obtain ⟨hid, -, hrec, hd, hm⟩ := dueLoan_eq_some.mp hdue
    obtain ⟨hs, -, hside⟩ := of_decide_eq_true hscan
    rw [of_decide_eq_true hu] at hrec
    refine ⟨⟨l, hmem, hid.symm, hs, hrec, _, hd, hm⟩, fun hown => ?_⟩
    rw [if_pos hown] at hside
    unfold DigestType.recipientOf at hrec
    rw [if_pos hown] at hrec
    rwa [← Option.some.inj hrec]
  · rintro ⟨⟨l, hl, rfl, hs, hrec, d, hd, hm⟩, hon⟩
    have hscan : type.scans v.ownerDueReminders l = true := by
      refine decide_eq_true ⟨hs, by rw [hd]; exact Option.some_ne_none d, ?_⟩
      unfold DigestType.recipientOf at hrec
      split
      next hown =>
        rw [if_pos hown] at hrec
        rw [Option.some.inj hrec]
        exact hon hown
      next hown =>
        rw [if_neg hown] at hrec
        rw [hrec]
        exact Option.some_ne_none _
    refine List.mem_map.mpr ⟨⟨l.id, l.copyId, b.1, d⟩, List.mem_filter.mpr ⟨?_, by simp⟩, rfl⟩
    exact List.mem_filterMap.mpr ⟨l, hp.mem_iff.mpr (List.mem_filter.mpr ⟨hl, hscan⟩),
      dueLoan_eq_some.mpr ⟨rfl, rfl, hrec, hd, hm⟩⟩

/-- **The digest of the locked rows is sound.** -/
theorem EmitTx.Sound.digest {t : EmitTx} (h : t.Sound) {rows : List Loan} {view : DigestView}
    (hp : rows.Perm (view.loans.rows.filter (t.emission.type.locks t.userId t.candidates))) :
    (t.digest rows view).Sound where
  day := rfl
  lists := by
    intro id
    refine mem_map_stillDue.trans ?_
    constructor
    · rintro ⟨l, hl, rfl, hs, d, hd, hm⟩
      obtain ⟨hmem, hlock⟩ := List.mem_filter.mp (hp.mem_iff.mp hl)
      obtain ⟨hcand, hrec⟩ := of_decide_eq_true hlock
      exact ⟨(h.candidates l.id).mp hcand, l, hmem, rfl, hs, hrec, d, hd, hm⟩
    · rintro ⟨hwant, l, hl, rfl, hs, hrec, d, hd, hm⟩
      refine ⟨l, hp.mem_iff.mpr (List.mem_filter.mpr ⟨hl, ?_⟩), rfl, hs, d, hd, hm⟩
      exact decide_eq_true ⟨(h.candidates l.id).mpr hwant, hrec⟩
  once := nodup_stillDue ((hp.map Loan.id).nodup_iff.mpr
    (view.loans.nodup.sublist (List.filter_sublist.map Loan.id)))
  count := (List.length_map ..).symm
  switch := h.switch

/-! ## Steps -/

theorem Emission.resume_ne_locked {e : Emission} {t : EmitTx} {rows : List Loan}
    {view : DigestView} : e.resume ≠ some (.locked t rows view) := by
  unfold Emission.resume
  split <;> simp

namespace Reminding

variable {secrets : GuestConfirmationSecrets} {s s' : Reminding} {op : RemindingOp}

theorem moveOn_passes (p q : ProcessId) (ph : Option DigestPhase) :
    (s.moveOn p ph).passes q = if q = p then ph else s.passes q := by
  simp [moveOn, Function.update_apply]

@[simp] theorem moveOn_moveOn (s : Reminding) (p : ProcessId) (ph ph' : Option DigestPhase) :
    (s.moveOn p ph).moveOn p ph' = s.moveOn p ph' := by
  simp [moveOn]

@[simp] theorem moveOn_self (s : Reminding) (p : ProcessId) (ph : Option DigestPhase) :
    (s.moveOn p ph).passes p = ph := by
  simp [moveOn]

/-- The world makes its own steps; no digest writes to it. -/
theorem Step.world_cases (h : Step secrets s op s') :
    s'.world = s.world ∨ ∃ o, op = .world o ∧ s.world.Step secrets o s'.world := by
  cases h with
  | world hw => exact Or.inr ⟨_, rfl, hw⟩
  | _ => exact Or.inl rfl

/-- The digests stay, or one of a new key is added from rows under lock. -/
theorem Step.digests (h : Step secrets s op s') : s'.digests = s.digests ∨
    ∃ p t rows view, s.passes p = some (.locked t rows view) ∧
      t.key ∉ s.digests.map LoanDigest.key ∧ s'.digests = t.digest rows view :: s.digests := by
  cases h with
  | @insert p t rows view hp =>
    show (if _ then _ else _) = _ ∨ _
    by_cases hk : t.key ∈ s.digests.map LoanDigest.key
    · exact Or.inl (if_pos hk)
    · exact Or.inr ⟨p, t, rows, view, hp, hk, if_neg hk⟩
  | _ => exact Or.inl rfl

/-- Rows that are under lock were locked before, or are locked at this moment. -/
theorem Step.locked (h : Step secrets s op s') {p : ProcessId} {t : EmitTx} {rows : List Loan}
    {view : DigestView} (hp : s'.passes p = some (.locked t rows view)) :
    s.passes p = some (.locked t rows view) ∨ view = s.view ∧ s'.world = s.world := by
  have hmove : ∀ q ph, (s.moveOn q ph).passes p = some (.locked t rows view) →
      ph ≠ some (.locked t rows view) → s.passes p = some (.locked t rows view) := by
    intro q ph hq hne
    rw [moveOn_passes] at hq
    split at hq
    · exact absurd hq hne
    · exact hq
  cases h with
  | world | setOwnerDueReminders => exact Or.inl hp
  | run | crash => exact Or.inl (hmove _ _ hp (by simp))
  | scan => exact Or.inl (hmove _ _ hp Emission.resume_ne_locked)
  | insert => exact Or.inl (hmove _ _ hp Emission.resume_ne_locked)
  | @start q e userId candidates rest hq hb =>
    refine Or.inl (hmove _ _ hp ?_)
    split
    · split
      · simp
      · exact Emission.resume_ne_locked
    · simp
  | @lock q t' rows' hq hrows hfree =>
    rw [moveOn_passes] at hp
    split at hp
    · split at hp
      · exact absurd hp Emission.resume_ne_locked
      · cases hp
        exact Or.inr ⟨rfl, rfl⟩
    · exact Or.inl hp

/-- The invariant of the digests. -/
structure DigestsSound (s : Reminding) : Prop where
  digests : ∀ x ∈ s.digests, x.Sound
  keys : (s.digests.map LoanDigest.key).Nodup
  passes : ∀ p ph, s.passes p = some ph → ph.Sound

/-- The phase that a process enters is sound. -/
theorem DigestsSound.passes_step (hs : s.DigestsSound) (h : Step secrets s op s') :
    ∀ p ph, s'.passes p = some ph → ph.Sound := by
  have hmove : ∀ p ph', (∀ ph, ph' = some ph → ph.Sound) →
      ∀ q ph, (s.moveOn p ph').passes q = some ph → ph.Sound := by
    intro p ph' hph q ph hq
    rw [moveOn_passes] at hq
    split at hq
    · exact hph ph hq
    · exact hs.passes q ph hq
  cases h with
  | world | setOwnerDueReminders => exact hs.passes
  | run => exact hmove _ _ fun ph hph => by cases hph; trivial
  | scan _ hp => exact hmove _ _ fun ph hph => (Emission.sound_scan hp).resume hph
  | @start p e userId candidates rest hp hb =>
    refine hmove _ _ fun ph hph => ?_
    have he : e.Sound := hs.passes p _ hp
    have hcand := he (userId, candidates) (by rw [hb]; exact List.mem_cons_self)
    by_cases hown : e.type.isOwnerReminder = true
    · rw [if_pos hown] at hph
      split at hph
      · cases hph
        exact ⟨he, hcand, fun _ => rfl⟩
      · exact he.next hph
    · rw [if_neg hown] at hph
      cases hph
      exact ⟨he, hcand, fun h => absurd h hown⟩
  | @lock p t rows hp hrows =>
    refine hmove _ _ fun ph hph => ?_
    have ht : t.Sound := hs.passes p _ hp
    split at hph
    · exact ht.emission.next hph
    · cases hph
      exact ⟨ht, hrows⟩
  | @insert p t rows view hp =>
    exact hmove _ _ fun ph hph => ((hs.passes p _ hp).1 : t.Sound).emission.next hph
  | crash => exact hmove _ _ fun ph hph => nomatch hph

theorem DigestsSound.step (hs : s.DigestsSound) (h : Step secrets s op s') : s'.DigestsSound where
  digests := by
    rcases h.digests with hsame | ⟨p, t, rows, view, hp, -, hcons⟩
    · rw [hsame]
      exact hs.digests
    · rw [hcons]
      intro x hx
      rcases List.mem_cons.mp hx with rfl | hx
      · obtain ⟨ht, hrows⟩ : t.Sound ∧ _ := hs.passes p _ hp
        exact ht.digest hrows
      · exact hs.digests x hx
  keys := by
    rcases h.digests with hsame | ⟨p, t, rows, view, hp, hfresh, hcons⟩
    · rw [hsame]
      exact hs.keys
    · rw [hcons, List.map_cons]
      exact List.nodup_cons.mpr ⟨hfresh, hs.keys⟩
  passes := hs.passes_step h

/-- What the locked view of every digest, committed or under way, says of a loan is related to what
is so now. -/
structure Follows (R : Loan → Loan → Prop) (s : Reminding) : Prop where
  digests : ∀ x ∈ s.digests, ∀ l ∈ x.locked.loans, ∃ l' ∈ s.world.db.loans, R l l'
  passes : ∀ p t rows view, s.passes p = some (.locked t rows view) →
    ∀ l ∈ view.loans, ∃ l' ∈ s.world.db.loans, R l l'

theorem Follows.step {R : Loan → Loan → Prop} (hf : s.Follows R) (h : Step secrets s op s')
    (hrefl : ∀ l, R l l)
    (hkeep : ∀ l l₁, R l l₁ → l₁ ∈ s.world.db.loans → ∃ l₂ ∈ s'.world.db.loans, R l l₂) :
    s'.Follows R where
  digests := by
    have hold : ∀ x ∈ s.digests, ∀ l ∈ x.locked.loans, ∃ l' ∈ s'.world.db.loans, R l l' := by
      intro x hx l hl
      obtain ⟨l₁, hl₁, hr⟩ := hf.digests x hx l hl
      exact hkeep l l₁ hr hl₁
    rcases h.digests with hsame | ⟨p, t, rows, view, hp, -, hcons⟩
    · rw [hsame]
      exact hold
    · rw [hcons]
      intro x hx l hl
      rcases List.mem_cons.mp hx with rfl | hx
      · obtain ⟨l₁, hl₁, hr⟩ := hf.passes p t rows view hp l hl
        exact hkeep l l₁ hr hl₁
      · exact hold x hx l hl
  passes := by
    intro p t rows view hp l hl
    rcases h.locked hp with hp₀ | ⟨rfl, hw⟩
    · obtain ⟨l₁, hl₁, hr⟩ := hf.passes p t rows view hp₀ l hl
      exact hkeep l l₁ hr hl₁
    · rw [hw]
      exact ⟨l, hl, hrefl l⟩

/-- Initially there is no digest to speak of. -/
theorem Init.follows {R : Loan → Loan → Prop} (hi : s.Init) : s.Follows R where
  digests := by
    rw [hi.no_digests]
    exact fun x hx => nomatch hx
  passes := fun p t rows view hp => by
    rw [hi.no_passes] at hp
    cases hp

end Reminding

/-! ## Runs -/

variable {secrets : GuestConfirmationSecrets} {s : Reminding}

/-- **Every committed digest is sound, and no two have one key.** -/
theorem digestsSound (hr : (reminders secrets).Reachable s) : s.DigestsSound := by
  refine hr.invariant (I := Reminding.DigestsSound) (fun s hi => ⟨?_, ?_, fun p ph hp => ?_⟩)
    fun s op s' _ h hs => h.step hs
  · rw [hi.no_digests]
    exact fun x hx => nomatch hx
  · rw [hi.no_digests]
    exact List.nodup_nil
  · rw [hi.no_passes] at hp
    cases hp

/-- The world of a run of digests is the world of a run of the services. -/
theorem world_reachable (hr : (reminders secrets).Reachable s) :
    (system secrets).Reachable s.world := by
  refine hr.invariant (I := fun s => (system secrets).Reachable s.world)
    (fun s (hi : s.Init) => .start hi.world) fun s op s' _ h hs => ?_
  rcases Reminding.Step.world_cases hs with hsame | ⟨o, -, hw⟩
  · rw [hsame]
    exact h
  · exact h.next hw

/-- No loan is lost, and its parties stay. -/
theorem loan_kept (hr : (reminders secrets).Reachable s) {op : RemindingOp} {s' : Reminding}
    (h : s.Step secrets op s') {l : Loan} (hl : l ∈ s.world.db.loans) :
    ∃ l' ∈ s'.world.db.loans, l'.id = l.id ∧ l'.ownerId = l.ownerId ∧
      l'.borrowerId = l.borrowerId := by
  rcases h.world_cases with hsame | ⟨o, -, hw⟩
  · rw [hsame]
    exact ⟨l, hl, rfl, rfl, rfl⟩
  · have hkept := (hw.evolves (reachable_coherent (world_reachable hr))).kept
    obtain ⟨l', hl', -, ho, hb⟩ := hkept.loans (Table.find?_of_mem hl)
    exact ⟨l', Table.mem_of_find? hl', Table.key_of_find? hl', ho, hb⟩

/-! ## A pass over the loans of one borrower -/

namespace Reminding

/-- What the insertion of a digest makes of the state. -/
def commit (s : Reminding) (x : LoanDigest) : Reminding :=
  { s with digests := if x.key ∈ s.digests.map LoanDigest.key then s.digests else x :: s.digests }

/-- A pass of the due-soon type over loans that are due for one borrower. -/
theorem dueSoon_pass (secrets : GuestConfirmationSecrets)
    {P : Reminding → RemindingOp → Reminding → Prop} {s : Reminding} {p : ProcessId} {now : Time}
    {later : List DigestType} {u : UserId} {due : List DueLoan}
    (hP : ∀ t op t', t.world = s.world → t'.world = s.world → (∀ q, op ≠ .crash q) → P t op t')
    (hp : s.passes p = some (.scanning now (.dueSoon :: later)))
    (hfree : ∀ q ph, s.passes q = some ph → ph.lockedRows = [])
    (hby : byUser ((s.world.db.loans.rows.filter
      (DigestType.dueSoon.scans s.ownerDueReminders)).filterMap
        (DigestType.dueSoon.dueLoan now)) = [(u, due)])
    (hrows : ∃ l ∈ s.world.db.loans, DigestType.dueSoon.locks u due l ∧ ∃ d, l.dueAt = some d ∧
      l.status = .handedOver ∧ DigestType.dueSoon.matches d now = true) :
    ∃ x : LoanDigest, x.key = ⟨u, .dueSoon, isoDayOf now⟩ ∧ x.now = now ∧ x.scanned = s.view ∧
      x.locked = s.view ∧ ((reminders secrets).restrict P).Leads s
        ((s.commit x).moveOn p (Emission.resume ⟨now, .dueSoon, s.view, [], later⟩)) := by
  let e : Emission := ⟨now, .dueSoon, s.view, [(u, due)], later⟩
  let t : EmitTx := ⟨e, u, due, none⟩
  let rows := s.world.db.loans.rows.filter (DigestType.dueSoon.locks u due)
  have hnil : stillDue .dueSoon now rows ≠ [] := by
    obtain ⟨l, hl, hlock, d, hd, hs, hm⟩ := hrows
    exact List.ne_nil_of_mem (mem_stillDue.mpr ⟨List.mem_filter.mpr ⟨hl, hlock⟩, hd, hs, hm⟩)
  let found := s.world.db.loans.rows.filter (DigestType.dueSoon.scans s.ownerDueReminders)
  have hscan : Step secrets s (.scan p found) (s.moveOn p (some (.emitting e))) := by
    have h : Step secrets s (.scan p found) _ := .scan hp (List.Perm.refl found)
    rwa [hby] at h
  have hstart : Step secrets (s.moveOn p (some (.emitting e))) (.start p)
      (s.moveOn p (some (.started t))) := by
    have h : Step secrets _ (.start p) _ := .start (moveOn_self s p (some (.emitting e))) rfl
    rwa [moveOn_moveOn] at h
  have hlock : Step secrets (s.moveOn p (some (.started t))) (.lock p rows)
      (s.moveOn p (some (.locked t rows s.view))) := by
    have h : Step secrets _ (.lock p rows) _ := .lock (moveOn_self s p (some (.started t)))
      (List.Perm.refl rows) fun q ph hq l hl => by
        rw [moveOn_passes] at hq
        split at hq
        · cases hq
          cases hl
        · rw [hfree q ph hq] at hl
          cases hl
    rwa [if_neg hnil, moveOn_moveOn] at h
  have hinsert : Step secrets (s.moveOn p (some (.locked t rows s.view))) (.insert p)
      ((s.commit (t.digest rows s.view)).moveOn p t.emission.next) := by
    have h : Step secrets _ (.insert p)
        (((s.commit (t.digest rows s.view)).moveOn p _).moveOn p t.emission.next) :=
      .insert (moveOn_self s p (some (.locked t rows s.view)))
    rwa [moveOn_moveOn] at h
  have hin : ∀ {t op t'}, Step secrets t op t' → t.world = s.world → t'.world = s.world →
      (∀ q, op ≠ .crash q) → ∃ op, ((reminders secrets).restrict P).step t op t' :=
    fun h hw hw' hc => ⟨_, h, hP _ _ _ hw hw' hc⟩
  refine ⟨t.digest rows s.view, rfl, rfl, rfl, rfl, ?_⟩
  exact .tail (.tail (.tail (.single (hin hscan rfl rfl (by simp)))
    (hin hstart rfl rfl (by simp))) (hin hlock rfl rfl (by simp))) (hin hinsert rfl rfl (by simp))

/-- A scan that finds nothing goes on with the next type. -/
theorem scan_nothing (secrets : GuestConfirmationSecrets) {s : Reminding} {p : ProcessId}
    {now : Time} {type : DigestType} {later : List DigestType}
    (hp : s.passes p = some (.scanning now (type :: later)))
    (hnone : (s.world.db.loans.rows.filter (type.scans s.ownerDueReminders)).filterMap
      (type.dueLoan now) = []) :
    ∃ loans, Step secrets s (.scan p loans)
      (s.moveOn p (Emission.resume ⟨now, type, s.view, [], later⟩)) := by
  have h : Step secrets s (.scan p _) _ := .scan hp (List.Perm.refl _)
  rw [hnone] at h
  exact ⟨_, h⟩

/-- A whole pass over loans that are due for one borrower only. -/
theorem whole_pass (secrets : GuestConfirmationSecrets)
    {P : Reminding → RemindingOp → Reminding → Prop} {s : Reminding} {p : ProcessId} {now : Time}
    {u : UserId} {due : List DueLoan}
    (hP : ∀ t op t', t.world = s.world → t'.world = s.world → (∀ q, op ≠ .crash q) → P t op t')
    (hfree : ∀ q, s.passes q = none)
    (hby : byUser ((s.world.db.loans.rows.filter
      (DigestType.dueSoon.scans s.ownerDueReminders)).filterMap
        (DigestType.dueSoon.dueLoan now)) = [(u, due)])
    (hrows : ∃ l ∈ s.world.db.loans, DigestType.dueSoon.locks u due l ∧ ∃ d, l.dueAt = some d ∧
      l.status = .handedOver ∧ DigestType.dueSoon.matches d now = true)
    (hnone : ∀ type ∈ [DigestType.overdue, .dueSoonOwner],
      (s.world.db.loans.rows.filter (type.scans s.ownerDueReminders)).filterMap
        (type.dueLoan now) = []) :
    ∃ x : LoanDigest, x.key = ⟨u, .dueSoon, isoDayOf now⟩ ∧ x.now = now ∧ x.scanned = s.view ∧
      x.locked = s.view ∧ ((reminders secrets).restrict P).Leads
        (s.moveOn p (some (.scanning now [.dueSoon, .overdue, .dueSoonOwner])))
        ((s.commit x).moveOn p none) := by
  let s₁ := s.moveOn p (some (.scanning now [.dueSoon, .overdue, .dueSoonOwner]))
  have hfree₁ : ∀ q ph, s₁.passes q = some ph → ph.lockedRows = [] := by
    intro q ph hq
    rw [moveOn_passes] at hq
    split at hq
    · cases hq
      rfl
    · rw [hfree q] at hq
      cases hq
  obtain ⟨x, hkey, hnow, hscanned, hlocked, hlead⟩ := dueSoon_pass secrets (s := s₁) hP
    (moveOn_self ..) hfree₁ hby hrows
  refine ⟨x, hkey, hnow, hscanned, hlocked, ?_⟩
  obtain ⟨_, h₁⟩ := scan_nothing secrets (moveOn_self (s.commit x) p
    (some (.scanning now [.overdue, .dueSoonOwner]))) (hnone _ (by simp))
  obtain ⟨_, h₂⟩ := scan_nothing secrets (moveOn_self (s.commit x) p
    (some (.scanning now [.dueSoonOwner]))) (hnone _ (by simp))
  rw [moveOn_moveOn] at h₁ h₂
  refine .tail (.tail ?_ ⟨_, h₁, hP _ _ _ rfl rfl (by simp)⟩)
    ⟨_, h₂, hP _ _ _ rfl rfl (by simp)⟩
  have hsame : (s₁.commit x).moveOn p (some (.scanning now [.overdue, .dueSoonOwner])) =
      (s.commit x).moveOn p (some (.scanning now [.overdue, .dueSoonOwner])) :=
    moveOn_moveOn (s.commit x) p _ _
  rw [← hsame]
  exact hlead

end Reminding

end Bookswap
