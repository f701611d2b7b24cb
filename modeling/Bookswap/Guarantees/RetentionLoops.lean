import Bookswap.ExternalBorrowers.RetentionCleanup

/-!
# The retention loops end and cover

Both loops walk by the cursor, not by their filter: a contact that the backfill leaves
without a deadline, or that the cleanup has to keep, stays in the filter and is behind
the cursor all the same. So `Keyset.Paging` applies, whatever a page does to its rows.

- `backfill_settles`: a contact without a deadline is recomputed once, and what its loans
  and events give is stored at the end.
- `cleanup_spares` and `cleanup_deletes`: a due contact is selected once and deleted
  exactly when none of its loans is active.
- `cleanup_rests`: a second cleanup finds nothing more to delete.

An undated closed loan is an integrity error, which stops the backfill: `Dated` rules it
out.
-/

namespace Bookswap

open Store Checked Keyset

variable {db db' : Db} {id other : ContactId} {others : Others} {now : Time}
  {batchSize fuel i j : Nat} {held batch : List ContactId} {ids : Finset ContactId}
  {c : ExternalBorrower}

/-! ### The backfill does not fail -/

/-- The facts give a deadline. -/
def ContactFacts.Computable (facts : ContactFacts) : Prop :=
  ∃ c t, facts.row = some c ∧ retainUntilOf c facts.loans facts.events = .ok t

theorem ContactFacts.Settles.computable {a b : ContactFacts} (h : a.Settles b) :
    b.Computable := by
  obtain ⟨c, t, -, ht, rfl⟩ := h
  exact ⟨_, t, rfl, ht⟩

/-- The deadline is missing only while a loan is active. -/
theorem exclusive_of_no_deadline {loans : List Loan} {events : List LoanEvent}
    (h : retainUntilOf c loans events = .ok none) : ∃ l ∈ loans, l.status.isExclusive = true := by
  unfold retainUntilOf at h
  split at h
  · cases h
  · rename_i hne
    split at h
    · rename_i hany
      exact List.any_eq_true.mp hany
    · obtain ⟨ts, hts, hlast⟩ := bind_eq_ok.mp h
      cases loans with
      | nil => exact absurd rfl hne
      | cons l loans =>
        rw [List.mapM_cons] at hts
        obtain ⟨t, -, hrest⟩ := bind_eq_ok.mp hts
        obtain ⟨rest, -, hpure⟩ := bind_eq_ok.mp hrest
        cases pure_eq_ok.mp hpure
        cases hlast

theorem backfillContact_ok (h : (db.factsOf id).Computable) :
    ∃ db', backfillContact id db = .ok db' := by
  obtain ⟨c, t, hrow, ht⟩ := h
  refine ⟨db.withRetainUntil id t, ?_⟩
  unfold backfillContact recomputeRetainUntil
  rw [show db.contacts.find? id = some c from hrow]
  show (retainUntilOf c _ _ >>= _) = _
  rw [show retainUntilOf c (db.loansOfContact id)
    (db.retentionEvents (db.loansOfContact id)) = .ok t from ht]
  rfl

/-- A page succeeds when each of its contacts has a deadline to be given. -/
theorem recomputeEach_ok (h : ∀ id ∈ batch, id ∈ held ∧ (db.factsOf id).Computable) :
    ∃ db', recomputeEach others held i j batch db = .ok db' := by
  induction batch generalizing j db with
  | nil => exact ⟨db, rfl⟩
  | cons x batch ih =>
    have hcommit : ∀ id ∈ x :: batch, ((others.commit i j held db).factsOf id).Computable :=
      fun id hid => by
        rw [others.respects i j held db id (h id hid).1]
        exact (h id hid).2
    obtain ⟨db₁, h₁⟩ := backfillContact_ok (hcommit x List.mem_cons_self)
    rw [recomputeEach, h₁, ok_bind]
    refine ih fun id hid => ⟨(h id (List.mem_cons_of_mem _ hid)).1, ?_⟩
    by_cases hx : id = x
    · subst hx
      obtain ⟨c, -, hrow, -⟩ := hcommit id List.mem_cons_self
      exact (backfillContact_self hrow h₁).computable
    · rw [backfillContact_other h₁ hx]
      exact hcommit id (List.mem_cons_of_mem _ hid)

/-- Recomputing a deadline leaves the loans dated. -/
theorem Db.Dated.backfillContact (hd : db.Dated) (h : backfillContact id db = .ok db') :
    db'.Dated := by
  obtain ⟨t, hw⟩ := recomputeRetainUntil_writes h
  intro c hc hnull
  by_cases hid : c.id = id
  · -- the deadline was computed and is missing, so a loan is active
    have hfind : db'.contacts.find? id = some c := hid ▸ Table.find?_of_mem hc
    cases hold : db.contacts.find? id with
    | none =>
      have hsame : db' = db := by
        unfold Bookswap.backfillContact recomputeRetainUntil at h
        rw [hold] at h
        cases h
        rfl
      rw [hsame, hold] at hfind
      cases hfind
    | some old =>
      obtain ⟨row, t', hrow, ht', hset⟩ := backfillContact_self hold h
      have hc' : c = { row with retainUntil := t' } := by
        have := congrArg ContactFacts.row hset
        exact Option.some.inj (hfind.symm.trans this)
      have ht : t' = none := by rw [hc'] at hnull; exact hnull
      subst ht
      obtain ⟨l, hl, hex⟩ := exclusive_of_no_deadline ht'
      obtain ⟨hmem, hof⟩ := List.mem_filter.mp hl
      subst hw
      exact Or.inl ⟨l, hmem, by rw [hid]; exact of_decide_eq_true hof, hex⟩
  · subst hw
    obtain ⟨c', hmem, hc'⟩ := Table.mem_modify.mp hc
    have heq : c' = c := by
      by_cases hk : c'.id = id
      · rw [if_pos hk] at hc'
        subst hc'
        exact absurd hk hid
      · rwa [if_neg hk] at hc'
    subst heq
    exact hd c' hmem hnull

theorem recomputeEach_dated (hkeep : ∀ i j held db, db.Dated → (others.commit i j held db).Dated)
    (h : recomputeEach others held i j batch db = .ok db') (hd : db.Dated) : db'.Dated := by
  induction batch generalizing j db with
  | nil =>
    cases h
    exact hd
  | cons x batch ih =>
    obtain ⟨db₁, h₁, h₂⟩ := bind_eq_ok.mp h
    exact ih h₂ ((hkeep i j held db hd).backfillContact h₁)

/-- A contact without a deadline whose closed loans are dated can be given one. -/
theorem Db.Dated.computable (hd : db.Dated) (hc : db.contacts.find? id = some c)
    (hnull : c.retainUntil = none) : (db.factsOf id).Computable := by
  have hid : c.id = id := Table.key_of_find? hc
  have hloans := hd c (Table.mem_of_find? hc) hnull
  rw [hid] at hloans
  obtain ⟨t, hok⟩ := recomputeRetainUntil_ok hloans
  obtain ⟨row, t', hrow, ht', -⟩ := backfillContact_self hc hok
  exact ⟨row, t', hrow, ht'⟩

/-! ### The backfill -/

/-- **The backfill ends.** -/
theorem backfillPhase_ends (hids : others.Within ids) (hsize : 0 < batchSize)
    (hdb : ∀ c ∈ db.contacts, c.id ∈ ids) (hfuel : ids.card < fuel) :
    ∃ r, backfillPhase others batchSize fuel db = some r := by
  have hcard : (ids.filter fun k => after none k = true).card < fuel :=
    lt_of_le_of_lt (Finset.card_filter_le _ _) hfuel
  obtain ⟨r, hr⟩ : ∃ r, (backfillPaging others batchSize).loop fuel 0 none db = some r :=
    Paging.loop_ends ids (fun db => ∀ c ∈ db.contacts, c.id ∈ ids) hsize
      (fun i s hs k hk => selectContacts_within (hids i 0 [] s hs) hk)
      (fun i c s s' hs hh => recomputeEach_within hids hh (hids i 0 [] s hs)) hdb hcard
  exact ⟨_, by rw [backfillPhase, hr]; rfl⟩

/-- It ends without an error where every closed loan it meets is dated. -/
theorem backfillPhase_ok {r : Tx (List ContactId × Db)}
    (hkeep : ∀ i j held db, db.Dated → (others.commit i j held db).Dated) (hd : db.Dated)
    (h : backfillPhase others batchSize fuel db = some r) : ∃ out, r = .ok out := by
  obtain ⟨r, hr, rfl⟩ := Option.map_eq_some_iff.mp h
  cases r with
  | ok out => exact ⟨_, rfl⟩
  | error e =>
    obtain ⟨j, c, u, hu, herr⟩ := Paging.failed_page Db.Dated
      (fun i c s s' hs hh => recomputeEach_dated hkeep hh (hkeep i 0 [] s hs)) hd hr
    have hdated := hkeep j 0 [] u hu
    obtain ⟨db', hok⟩ := @recomputeEach_ok (others.commit j 0 [] u) others j 1
      ((backfillPaging others batchSize).page j c u) ((backfillPaging others batchSize).page j c u)
      fun id hid => by
        obtain ⟨row, hrow, hnull, -⟩ := mem_selectContacts.mp (Paging.mem_page hid).1
        exact ⟨hid, hdated.computable hrow (Option.isNone_iff_eq_none.mp hnull)⟩
    cases hok.symm.trans herr

/-- **Each contact without a deadline is recomputed once.** -/
theorem backfill_settles {out : List ContactId × Db} (hu : others.Undisturbed id)
    (hc : db.contacts.find? id = some c) (hnull : c.retainUntil = none)
    (h : backfillPhase others batchSize fuel db = some (.ok out)) :
    out.1.count id = 1 ∧ (db.factsOf id).Settles (out.2.factsOf id) := by
  obtain ⟨r, hr, hout⟩ := Option.map_eq_some_iff.mp h
  obtain ⟨⟨pages, t⟩, rfl, rfl⟩ := map_eq_ok.mp hout
  have hrun := Paging.run_of_loop hr
  obtain ⟨hmem, hdone⟩ := hrun.handled
    (fun u => u.factsOf id = db.factsOf id) (fun u => (db.factsOf id).Settles (u.factsOf id))
    (fun i u hu' => by
      refine mem_selectContacts.mpr ⟨c, ?_, by rw [hnull]; rfl, hu.free i⟩
      have hrow := congrArg ContactFacts.row ((hu.kept i 0 [] u).trans hu')
      exact hrow.trans hc)
    (fun i k u u' hu' hk hh => by
      rw [recomputeEach_other hu.kept hh hk, hu.kept, hu'])
    (fun i k u u' hu' hk hh => recomputeEach_settles hu.kept hh
      (Or.inr ⟨hk, by rw [hu.kept, hu'], by rw [show (db.factsOf id).row = some c from hc]; rfl⟩))
    (fun i k u u' hu' hk hh => by
      rw [recomputeEach_other hu.kept hh hk, hu.kept]
      exact hu')
    rfl rfl
  exact ⟨List.count_eq_one_of_mem hrun.nodup hmem, hdone⟩

/-- A contact that has a deadline is not among them. -/
theorem backfill_skips {out : List ContactId × Db} (hu : others.Undisturbed id)
    (hc : db.contacts.find? id = some c) (hsome : c.retainUntil ≠ none)
    (h : backfillPhase others batchSize fuel db = some (.ok out)) : out.1.count id = 0 := by
  obtain ⟨r, hr, hout⟩ := Option.map_eq_some_iff.mp h
  obtain ⟨⟨pages, t⟩, rfl, rfl⟩ := map_eq_ok.mp hout
  refine List.count_eq_zero.mpr fun hmem => ?_
  have hview : ∀ i u, u.factsOf id = db.factsOf id →
      id ∉ (backfillPaging others batchSize).view i u := by
    intro i u hu' hin
    obtain ⟨row, hrow, hnull, -⟩ := mem_selectContacts.mp hin
    have hfacts := congrArg ContactFacts.row ((hu.kept i 0 [] u).trans hu')
    have heq : row = c := Option.some.inj (hrow.symm.trans (hfacts.trans hc))
    exact hsome (heq ▸ Option.isNone_iff_eq_none.mp hnull)
  obtain ⟨i, u, hu', hin⟩ := (Paging.run_of_loop hr).listed
    (fun u => u.factsOf id = db.factsOf id)
    (fun i k u u' hu' hh => by
      have hk : id ∉ (backfillPaging others batchSize).page i k u := fun hk =>
        hview i u hu' (Paging.mem_page hk).1
      rw [recomputeEach_other hu.kept hh hk, hu.kept, hu'])
    rfl hmem
  exact hview i u hu' hin

/-! ### The cleanup -/

theorem contactActive_eq : db.contactActive id =
    (db.loansOfContact id).any fun l => l.status.isExclusive := by
  unfold Db.contactActive Db.loansOfContact
  rw [List.any_filter]
  simp

/-- Erasing other contacts leaves the facts of a contact. -/
theorem factsOf_eraseContacts {gone : ContactId → Bool} (hid : gone id = false) :
    (db.eraseContacts gone).factsOf id = db.factsOf id := by
  have hrow : (db.eraseContacts gone).contacts.find? id = db.contacts.find? id := by
    show (db.contacts.filter _).find? id = _
    rw [Table.find?_filter]
    cases hc : db.contacts.find? id with
    | none => rfl
    | some c =>
      have hkey : c.id = id := Table.key_of_find? hc
      simp [hkey, hid]
  have hloans : (db.eraseContacts gone).loansOfContact id = db.loansOfContact id := by
    show (db.loans.rows.map fun l =>
        { l with borrowerContactId := Db.forget gone l.borrowerContactId }).filter _ =
      db.loans.rows.filter _
    induction db.loans.rows with
    | nil => rfl
    | cons l loans ih =>
      rw [List.map_cons, List.filter_cons, List.filter_cons, ih]
      by_cases hl : l.borrowerContactId = some id
      · have hforget : Db.forget gone l.borrowerContactId = l.borrowerContactId := by
          rw [hl]
          simp [Db.forget, hid]
        rw [hforget]
      · have hforget : Db.forget gone l.borrowerContactId ≠ some id := fun h =>
          hl (Option.filter_eq_some_iff.mp h).1
        rw [if_neg (by simpa using hforget), if_neg (by simpa using hl)]
  show ContactFacts.mk _ _ _ = ContactFacts.mk _ _ _
  rw [hrow, hloans]
  rfl

/-- Erasing nobody changes nothing. -/
theorem eraseContacts_nobody {gone : ContactId → Bool} (h : ∀ id, gone id = false) :
    db.eraseContacts gone = db := by
  have hforget : ∀ o, Db.forget gone o = o := by
    intro o
    cases o with
    | none => rfl
    | some x => simp [Db.forget, h x]
  have hcontacts : db.contacts.filter (fun c => !gone c.id) = db.contacts := by
    refine Table.ext (List.filter_eq_self.mpr fun c _ => ?_)
    rw [h, Bool.not_false]
  unfold Db.eraseContacts
  rw [hcontacts, Table.map_eq_self, Table.map_eq_self, Table.map_eq_self]
  all_goals
    intro a _
    simp [hforget]

/-- The deadline has passed. -/
def ExternalBorrower.isDue (c : ExternalBorrower) (now : Time) : Bool :=
  c.retainUntil.any (· ≤ now)

theorem dueContact_eq (hc : db.contacts.find? id = some c) :
    db.dueContact now batch id =
      (decide (id ∈ batch) && c.isDue now && !db.contactActive id) := by
  unfold Db.dueContact ExternalBorrower.isDue
  rw [hc]
  simp [Bool.and_assoc]

/-- **The cleanup ends**, without an error. -/
theorem cleanupPhase_ends (hids : others.Within ids) (hsize : 0 < batchSize)
    (hdb : ∀ c ∈ db.contacts, c.id ∈ ids) (hfuel : ids.card < fuel) :
    ∃ out, cleanupPhase others now batchSize fuel db = some (.ok out) := by
  have hcard : (ids.filter fun k => after none k = true).card < fuel :=
    lt_of_le_of_lt (Finset.card_filter_le _ _) hfuel
  obtain ⟨r, hr⟩ : ∃ r, (cleanupPaging others now batchSize).loop fuel 0 none ⟨db, []⟩ = some r :=
    Paging.loop_ends ids (fun s => ∀ c ∈ s.db.contacts, c.id ∈ ids) hsize
      (fun i s hs k hk => selectContacts_within (hids i 0 [] s.db hs) hk)
      (fun i k s s' hs hh => by
        cases hh
        intro c hc
        have hmem := (Table.mem_filter.mp hc).1
        exact hids i 1 _ _ (hids i 0 [] s.db hs) c hmem) hdb hcard
  cases r with
  | ok out => exact ⟨_, by rw [cleanupPhase, hr]; rfl⟩
  | error e =>
    obtain ⟨j, k, s, -, herr⟩ := Paging.failed_page (fun _ => True) (fun _ _ _ _ _ _ => trivial)
      trivial hr
    cases herr

/-- Is the contact to be deleted? -/
def Db.deletable (db : Db) (now : Time) (c : ExternalBorrower) : Bool :=
  c.isDue now && !db.contactActive c.id

section Cleanup

variable {s s' : CleanupState} {cursor : Option ContactId} {t : CleanupState}
  {pages : List (List ContactId)} {out : Cleanup}

/-- The facts of an undisturbed contact when the page decides. -/
theorem facts_at_decision (hu : others.Undisturbed id)
    (hs : s.db.factsOf id = db.factsOf id) :
    (others.commit i 1 batch (others.commit i 0 [] s.db)).factsOf id = db.factsOf id := by
  rw [hu.kept, hu.kept, hs]

/-- The page deletes the contact when it is on it and is deletable. -/
theorem dueContact_undisturbed (hu : others.Undisturbed id) (hc : db.contacts.find? id = some c)
    (hs : s.db.factsOf id = db.factsOf id) :
    (others.commit i 1 batch (others.commit i 0 [] s.db)).dueContact now batch id =
      (decide (id ∈ batch) && db.deletable now c) := by
  have hfacts := @facts_at_decision db id others i batch s hu hs
  have hrow : (others.commit i 1 batch (others.commit i 0 [] s.db)).contacts.find? id = some c :=
    (congrArg ContactFacts.row hfacts).trans hc
  have hid : c.id = id := Table.key_of_find? hc
  rw [dueContact_eq hrow, contactActive_eq, Db.deletable, contactActive_eq, hid,
    show Db.loansOfContact _ id = db.loansOfContact id from congrArg ContactFacts.loans hfacts,
    Bool.and_assoc]

/-- A contact that is not deletable, or not on the page, keeps its facts. -/
theorem cleanup_page_keeps (hu : others.Undisturbed id) (hc : db.contacts.find? id = some c)
    (hs : s.db.factsOf id = db.factsOf id ∧ id ∉ s.deleted)
    (hkeep : id ∉ batch ∨ db.deletable now c = false)
    (hh : (cleanupPaging others now batchSize).handle i batch s = .ok s') :
    s'.db.factsOf id = db.factsOf id ∧ id ∉ s'.deleted := by
  have hdue : (others.commit i 1 batch (others.commit i 0 [] s.db)).dueContact now batch id =
      false := by
    rw [dueContact_undisturbed hu hc hs.1]
    rcases hkeep with hk | hk
    · rw [decide_eq_false hk, Bool.false_and]
    · rw [hk, Bool.and_false]
  cases hh
  constructor
  · show (cleanupContacts now batch _).factsOf id = _
    rw [cleanupContacts, factsOf_eraseContacts hdue, facts_at_decision hu hs.1]
  · rw [List.mem_append, not_or, List.mem_filter]
    exact ⟨hs.2, fun h => absurd h.2 (by rw [hdue]; exact Bool.false_ne_true)⟩

/-- A deletable contact on the page is deleted. -/
theorem cleanup_page_deletes (hu : others.Undisturbed id) (hc : db.contacts.find? id = some c)
    (hs : s.db.factsOf id = db.factsOf id ∧ id ∉ s.deleted) (hmem : id ∈ batch)
    (hnodup : batch.Nodup) (hdel : db.deletable now c = true)
    (hh : (cleanupPaging others now batchSize).handle i batch s = .ok s') :
    s'.db.contacts.find? id = none ∧ s'.deleted.count id = 1 := by
  have hdue : (others.commit i 1 batch (others.commit i 0 [] s.db)).dueContact now batch id =
      true := by
    rw [dueContact_undisturbed hu hc hs.1, decide_eq_true hmem, hdel]
    rfl
  cases hh
  constructor
  · refine Table.find?_eq_none_iff.mpr fun x hx hid => ?_
    have hgone := (Table.mem_filter.mp hx).2
    rw [show x.id = id from hid, hdue] at hgone
    cases hgone
  · rw [List.count_append, List.count_eq_zero.mpr hs.2, Nat.zero_add]
    exact List.count_eq_one_of_mem (hnodup.filter _) (List.mem_filter.mpr ⟨hmem, hdue⟩)

/-- Once deleted, it is not deleted again. -/
theorem cleanup_page_gone (hu : others.Undisturbed id)
    (hs : s.db.contacts.find? id = none ∧ s.deleted.count id = 1) (hnot : id ∉ batch)
    (hh : (cleanupPaging others now batchSize).handle i batch s = .ok s') :
    s'.db.contacts.find? id = none ∧ s'.deleted.count id = 1 := by
  cases hh
  constructor
  · have hrow : (others.commit i 1 batch (others.commit i 0 [] s.db)).contacts.find? id = none :=
      (congrArg ContactFacts.row ((hu.kept i 1 batch _).trans (hu.kept i 0 [] s.db))).trans hs.1
    refine Table.find?_eq_none_iff.mpr fun x hx => ?_
    exact Table.find?_eq_none_iff.mp hrow x (Table.mem_filter.mp hx).1
  · rw [List.count_append, hs.2, List.count_eq_zero.mpr fun h => hnot (List.mem_filter.mp h).1]

/-- A due contact that stays is in view. -/
theorem mem_cleanup_view (hu : others.Undisturbed id) (hc : db.contacts.find? id = some c)
    (hs : s.db.factsOf id = db.factsOf id) :
    id ∈ (cleanupPaging others now batchSize).view i s ↔ c.isDue now = true := by
  have hrow : (others.commit i 0 [] s.db).contacts.find? id = some c :=
    (congrArg ContactFacts.row ((hu.kept i 0 [] s.db).trans hs)).trans hc
  constructor
  · intro h
    obtain ⟨row, hrow', hdue, -⟩ := mem_selectContacts.mp h
    cases hrow.symm.trans hrow'
    exact hdue
  · exact fun h => mem_selectContacts.mpr ⟨c, hrow, h, hu.free i⟩

/-- A contact that is not deletable is kept, with its loans. -/
theorem cleanup_spares (hu : others.Undisturbed id) (hc : db.contacts.find? id = some c)
    (hnot : db.deletable now c = false)
    (h : cleanupPhase others now batchSize fuel db = some (.ok out)) :
    out.db.factsOf id = db.factsOf id ∧ out.deleted.count id = 0 ∧
      out.selected.count id = if c.isDue now = true then 1 else 0 := by
  obtain ⟨r, hr, hout⟩ := Option.map_eq_some_iff.mp h
  obtain ⟨⟨pages, t⟩, rfl, rfl⟩ := map_eq_ok.mp hout
  have hrun := Paging.run_of_loop hr
  have hpage : ∀ i k u u', u.db.factsOf id = db.factsOf id ∧ id ∉ u.deleted →
      (cleanupPaging others now batchSize).handle i
        ((cleanupPaging others now batchSize).page i k u) u = .ok u' →
      u'.db.factsOf id = db.factsOf id ∧ id ∉ u'.deleted :=
    fun i k u u' hs hh => cleanup_page_keeps hu hc hs (Or.inr hnot) hh
  have hlast := hrun.invariant _ hpage ⟨rfl, List.not_mem_nil⟩
  refine ⟨hlast.1, List.count_eq_zero.mpr hlast.2, ?_⟩
  split
  · rename_i hdue
    have hmem := (hrun.handled _ _
      (fun i u hs => (mem_cleanup_view hu hc hs.1).mpr hdue)
      (fun i k u u' hs _ hh => hpage i k u u' hs hh)
      (fun i k u u' hs _ hh => hpage i k u u' hs hh)
      (fun i k u u' hs _ hh => hpage i k u u' hs hh) rfl ⟨rfl, List.not_mem_nil⟩).1
    exact List.count_eq_one_of_mem hrun.nodup hmem
  · rename_i hdue
    refine List.count_eq_zero.mpr fun hmem => ?_
    obtain ⟨i, u, hs, hin⟩ := hrun.listed _ hpage ⟨rfl, List.not_mem_nil⟩ hmem
    exact hdue ((mem_cleanup_view hu hc hs.1).mp hin)

/-- **A due contact without an active loan is selected once and deleted.** -/
theorem cleanup_deletes (hu : others.Undisturbed id) (hc : db.contacts.find? id = some c)
    (hdel : db.deletable now c = true)
    (h : cleanupPhase others now batchSize fuel db = some (.ok out)) :
    out.db.contacts.find? id = none ∧ out.deleted.count id = 1 ∧ out.selected.count id = 1 := by
  obtain ⟨r, hr, hout⟩ := Option.map_eq_some_iff.mp h
  obtain ⟨⟨pages, t⟩, rfl, rfl⟩ := map_eq_ok.mp hout
  have hrun := Paging.run_of_loop hr
  obtain ⟨hdue, -⟩ := Bool.and_eq_true_iff.mp hdel
  obtain ⟨hmem, hgone, hcount⟩ := hrun.handled
    (fun u => u.db.factsOf id = db.factsOf id ∧ id ∉ u.deleted)
    (fun u => u.db.contacts.find? id = none ∧ u.deleted.count id = 1)
    (fun i u hs => (mem_cleanup_view hu hc hs.1).mpr hdue)
    (fun i k u u' hs hk hh => cleanup_page_keeps hu hc hs (Or.inl hk) hh)
    (fun i k u u' hs hk hh => cleanup_page_deletes hu hc hs hk
      (Paging.page_ascending.imp ne_of_lt) hdel hh)
    (fun i k u u' hs hk hh => cleanup_page_gone hu hs hk hh) rfl ⟨rfl, List.not_mem_nil⟩
  exact ⟨hgone, hcount, List.count_eq_one_of_mem hrun.nodup hmem⟩

/-! ### The cleanup again -/

theorem still_undisturbed {locked : ContactId → Bool} (h : locked id = false) :
    (Others.still locked).Undisturbed id :=
  ⟨fun _ => h, fun _ _ _ _ => rfl⟩

/-- Undisturbed, the cleanup leaves no deletable contact but the locked ones. -/
theorem cleanup_leaves {locked : ContactId → Bool}
    (h : cleanupPhase (Others.still locked) now batchSize fuel db = some (.ok out))
    (hc : out.db.contacts.find? id = some c) (hfree : locked id = false) :
    out.db.deletable now c = false := by
  have hu := still_undisturbed hfree
  have hsub : ∀ x ∈ out.db.contacts, x ∈ db.contacts := by
    obtain ⟨r, hr, hout⟩ := Option.map_eq_some_iff.mp h
    obtain ⟨⟨pages, t⟩, rfl, rfl⟩ := map_eq_ok.mp hout
    refine (Paging.run_of_loop hr).invariant (fun u => ∀ x ∈ u.db.contacts, x ∈ db.contacts)
      (fun i k u u' hs hh => ?_) fun x hx => hx
    cases hh
    exact fun x hx => hs x (Table.mem_filter.mp hx).1
  have hid : c.id = id := Table.key_of_find? hc
  have hold : db.contacts.find? id = some c := by
    rw [← hid]
    exact Table.find?_of_mem (hsub c (Table.mem_of_find? hc))
  cases hdel : db.deletable now c with
  | true => exact absurd hc (by rw [(cleanup_deletes hu hold hdel h).1]; nofun)
  | false =>
    have hfacts := (cleanup_spares hu hold hdel h).1
    rw [← hdel, Db.deletable, Db.deletable, contactActive_eq, contactActive_eq, hid,
      show out.db.loansOfContact id = db.loansOfContact id from
        congrArg ContactFacts.loans hfacts]

/-- **The cleanup again, on an unchanged state, deletes nothing.** -/
theorem cleanup_rests {locked : ContactId → Bool} {fuel' : Nat} {again : Cleanup}
    (h : cleanupPhase (Others.still locked) now batchSize fuel db = some (.ok out))
    (h' : cleanupPhase (Others.still locked) now batchSize fuel' out.db = some (.ok again)) :
    again.deleted = [] ∧ again.db = out.db := by
  obtain ⟨r, hr, hout⟩ := Option.map_eq_some_iff.mp h'
  obtain ⟨⟨pages, t⟩, rfl, rfl⟩ := map_eq_ok.mp hout
  refine ((Paging.run_of_loop hr).invariant (fun u => u.deleted = [] ∧ u.db = out.db)
    (fun i k u u' hs hh => ?_) ⟨rfl, rfl⟩)
  obtain ⟨hdeleted, hdb⟩ := hs
  -- nobody on the page is deletable
  have hnone : ∀ x, u.db.dueContact now
      ((cleanupPaging (Others.still locked) now batchSize).page i k u) x = false := by
    intro x
    by_cases hx : x ∈ (cleanupPaging (Others.still locked) now batchSize).page i k u
    · obtain ⟨row, hrow, -, hfree⟩ := mem_selectContacts.mp (Paging.mem_page hx).1
      have hrow' : u.db.contacts.find? x = some row := hrow
      have hleft := cleanup_leaves h (hdb ▸ hrow') hfree
      rw [Db.deletable, show row.id = x from Table.key_of_find? hrow'] at hleft
      rw [dueContact_eq hrow', Bool.and_assoc, hdb, hleft, Bool.and_false]
    · unfold Db.dueContact
      exact decide_eq_false fun hboth => hx hboth.1
  cases hh
  constructor
  · show u.deleted ++ List.filter _ _ = []
    rw [hdeleted, List.nil_append]
    exact List.filter_eq_nil_iff.mpr fun x _ => Bool.eq_false_iff.mp (hnone x)
  · show cleanupContacts now _ u.db = out.db
    rw [cleanupContacts, eraseContacts_nobody hnone, hdb]

end Cleanup

/-! ### Both loops -/

/-- **The retention loops end and cover.** -/
theorem retention_loops (others : Others) (ids : Finset ContactId) (batchSize : Nat)
    (now : Time) (db : Db) (hids : others.Within ids) (hdb : ∀ c ∈ db.contacts, c.id ∈ ids)
    (hsize : 0 < batchSize) :
    (∀ fuel, ids.card < fuel →
      (∃ r, backfillPhase others batchSize fuel db = some r ∧
        ((∀ i j held db, db.Dated → (others.commit i j held db).Dated) → db.Dated →
          ∃ out, r = .ok out)) ∧
      ∃ out, cleanupPhase others now batchSize fuel db = some (.ok out)) ∧
    (∀ fuel out, backfillPhase others batchSize fuel db = some (.ok out) →
      ∀ id c, others.Undisturbed id → db.contacts.find? id = some c →
        (c.retainUntil = none →
          out.1.count id = 1 ∧ (db.factsOf id).Settles (out.2.factsOf id)) ∧
        (c.retainUntil ≠ none → out.1.count id = 0)) ∧
    (∀ fuel out, cleanupPhase others now batchSize fuel db = some (.ok out) →
      ∀ id c, others.Undisturbed id → db.contacts.find? id = some c →
        out.selected.count id = (if c.isDue now = true then 1 else 0) ∧
        (c.isDue now = true ∧ db.contactActive id = false →
          out.deleted.count id = 1 ∧ out.db.contacts.find? id = none) ∧
        (¬(c.isDue now = true ∧ db.contactActive id = false) →
          out.deleted.count id = 0 ∧ out.db.factsOf id = db.factsOf id)) ∧
    (∀ locked fuel fuel' out again,
      cleanupPhase (.still locked) now batchSize fuel db = some (.ok out) →
      cleanupPhase (.still locked) now batchSize fuel' out.db = some (.ok again) →
      again.deleted = [] ∧ again.db = out.db) := by
  refine ⟨fun fuel hfuel => ⟨?_, cleanupPhase_ends hids hsize hdb hfuel⟩, ?_, ?_, ?_⟩
  · obtain ⟨r, hr⟩ := backfillPhase_ends hids hsize hdb hfuel
    exact ⟨r, hr, fun hkeep hd => backfillPhase_ok hkeep hd hr⟩
  · exact fun fuel out h id c hu hc =>
      ⟨fun hnull => backfill_settles hu hc hnull h, fun hsome => backfill_skips hu hc hsome h⟩
  · intro fuel out h id c hu hc
    have hid : c.id = id := Table.key_of_find? hc
    have hiff : db.deletable now c = true ↔ c.isDue now = true ∧ db.contactActive id = false := by
      simp [Db.deletable, hid]
    by_cases hdel : db.deletable now c = true
    · obtain ⟨hgone, hcount, hselected⟩ := cleanup_deletes hu hc hdel h
      have hboth := hiff.mp hdel
      exact ⟨by rw [if_pos hboth.1, hselected], fun _ => ⟨hcount, hgone⟩,
        fun hnot => absurd hboth hnot⟩
    · obtain ⟨hfacts, hcount, hselected⟩ := cleanup_spares hu hc (Bool.eq_false_iff.mpr hdel) h
      exact ⟨hselected, fun hboth => absurd (hiff.mpr hboth) hdel, fun _ => ⟨hcount, hfacts⟩⟩
  · exact fun locked fuel fuel' out again h h' => cleanup_rests h h'

/-- A contact with a deadline, or none. -/
def keptUntil (id : ContactId) (retainUntil : Option Time) : ExternalBorrower where
  id := id
  ownerId := 1
  aliasName := "Оксана"
  retainUntil := retainUntil
  createdAt := 0
  guestNickname := none
  guestEmail := none
  guestEmailVerifiedAt := none

/-- A loan to a contact. -/
def lentToContact (id : LoanId) (contactId : ContactId) (status : LoanStatus) : Loan where
  id := id
  copyId := id
  ownerId := 1
  borrowerId := none
  status := status
  borrowerKind := .guest
  borrowerContactId := some contactId
  origin := .recordedGuest
  createdAt := 0
  message := none
  responseNote := none
  requestedAt := none
  respondedAt := none
  handedAt := some 0
  dueAt := none
  returnedAt := none

/-- Three contacts: one not yet computed, one to delete, one with the book still out. -/
def contactsToClean : Db where
  users := .empty
  friendships := .empty
  copies := .empty
  loans := ⟨[lentToContact 1 3 .handedOver], by decide⟩
  confirmations := .empty
  contacts := ⟨[keptUntil 3 (some 5), keptUntil 1 none, keptUntil 2 (some 5)], by decide⟩
  events := []
  notifications := []

theorem retention_loops_kept :
    ∃ out, cleanupPhase (.still fun _ => false) 10 1 4 contactsToClean = some (.ok out) ∧
      out.deleted.count 2 = 1 ∧ out.selected.count 3 = 1 ∧ out.deleted.count 3 = 0 := by
  have h := retention_loops (.still fun _ => false) {1, 2, 3} 1 10 contactsToClean
    (fun _ _ _ _ hdb => hdb) (by decide) (by decide)
  obtain ⟨out, hout⟩ := (h.1 4 (by decide)).2
  have hfree : ∀ id, (Others.still fun _ => false).Undisturbed id :=
    fun id => still_undisturbed rfl
  have h2 := h.2.2.1 4 out hout 2 (keptUntil 2 (some 5)) (hfree 2) (by decide)
  have h3 := h.2.2.1 4 out hout 3 (keptUntil 3 (some 5)) (hfree 3) (by decide)
  exact ⟨out, hout, (h2.2.1 (by decide)).1, h3.1, (h3.2.2 (by decide)).1⟩

/-- A loss without its event: the deadline of contact 1 cannot be computed. -/
def undatedLoss : Db :=
  { contactsToClean with
    loans := ⟨[lentToContact 1 1 .lost], by decide⟩
    contacts := ⟨[keptUntil 1 none, keptUntil 2 none], by decide⟩ }

/-- The integrity error of one contact ends the backfill of all; and pages of size 0 never
end the cleanup. -/
theorem retention_loops_undated :
    (∀ fuel out, backfillPhase (.still fun _ => false) 1 fuel undatedLoss ≠ some (.ok out)) ∧
      ∀ fuel, cleanupPhase (.still fun _ => false) 10 0 fuel undatedLoss = none := by
  constructor
  · intro fuel out h
    cases fuel with
    | zero => cases h
    | succ fuel => cases h
  · intro fuel
    rw [cleanupPhase, Paging.endless rfl fun i s => ⟨_, rfl⟩]
    rfl

end Bookswap
