import Mathlib.Data.List.Induction
import Bookswap.ExternalBorrowers.Retention
import Bookswap.Loans.Rivals

/-!
# What the deadline of a contact is

The rules of `external-borrowers/retention.ts` without the computation: when a loan may be
forgotten (`Db.Candidate`), and which of these moments is the deadline (`Db.Deadline`).

- `Deadline.unique`: there is one deadline.
- `deadline_of_recompute`: **the computation writes it**.
- `DeadlineKept`: what another transaction must leave alone for the deadline to stay.
-/

namespace Bookswap

open Store Checked

/-- When a loan that is over may be forgotten. -/
inductive Db.Candidate (db : Db) (l : Loan) : Time → Prop
  | returned {t : Time} : l.status = .returned → l.returnedAt = some t →
    db.Candidate l (t + RETENTION_CLOSED_WINDOW_MS)
  | closedLoss {e : LoanEvent} : l.status = .lost → e ∈ db.events → e.loanId = l.id →
    e.type.isClosure = true →
    (∀ e' ∈ db.events, e'.loanId = l.id → e'.type.isClosure = true →
      e.occurredAt ≤ e'.occurredAt) →
    db.Candidate l (e.occurredAt + RETENTION_CLOSED_WINDOW_MS)
  | openLoss {e : LoanEvent} : l.status = .lost →
    (∀ e' ∈ db.events, e'.loanId = l.id → e'.type.isClosure = false) →
    (db.events.find? fun e => e.loanId = l.id ∧ e.type = .loanLost) = some e →
    db.Candidate l (e.occurredAt + RETENTION_UNRESOLVED_LOSS_WINDOW_MS)
  | cancelled {e : LoanEvent} : l.status = .cancelled → e ∈ db.events → e.loanId = l.id →
    e.type = .guestHandoverCancelled →
    (∀ e' ∈ db.events, e'.loanId = l.id → e'.type = .guestHandoverCancelled →
      e.occurredAt ≤ e'.occurredAt) →
    db.Candidate l (e.occurredAt + RETENTION_CANCELLED_HANDOVER_WINDOW_MS)

/-- The deadline of a contact: 90 days after it was created without a loan, none while a loan is
active, and else the latest of the moments at which its loans may be forgotten. -/
inductive Db.Deadline (db : Db) (contact : ExternalBorrower) : Option Time → Prop
  | unused : (∀ l ∈ db.loans, l.borrowerContactId ≠ some contact.id) →
    db.Deadline contact (some (contact.createdAt + RETENTION_NO_LOAN_WINDOW_MS))
  | active {l : Loan} : l ∈ db.loans → l.borrowerContactId = some contact.id →
    l.status.isExclusive = true → db.Deadline contact none
  | closed {l : Loan} {t : Time} : l ∈ db.loans → l.borrowerContactId = some contact.id →
    db.Candidate l t →
    (∀ l' ∈ db.loans, l'.borrowerContactId = some contact.id →
      ∃ t' ≤ t, db.Candidate l' t') →
    db.Deadline contact (some t)

variable {db db' : Db} {l : Loan} {contact : ExternalBorrower} {contactId : ContactId}

/-! ## There is one deadline -/

theorem Db.Candidate.not_exclusive {t : Time} (h : db.Candidate l t) :
    l.status.isExclusive = false := by
  cases h with
  | returned hs => rw [hs]; rfl
  | closedLoss hs => rw [hs]; rfl
  | openLoss hs => rw [hs]; rfl
  | cancelled hs => rw [hs]; rfl

theorem Db.Candidate.unique {t t' : Time} (h : db.Candidate l t) (h' : db.Candidate l t') :
    t = t' := by
  cases h with
  | returned hs hr =>
    cases h' with
    | returned _ hr' => rw [Option.some.inj (hr.symm.trans hr')]
    | closedLoss hs' => cases hs.symm.trans hs'
    | openLoss hs' => cases hs.symm.trans hs'
    | cancelled hs' => cases hs.symm.trans hs'
  | @closedLoss e hs he hid htype hfirst =>
    cases h' with
    | returned hs' => cases hs.symm.trans hs'
    | @closedLoss e' _ he' hid' htype' hfirst' =>
      rw [Int.le_antisymm (hfirst e' he' hid' htype') (hfirst' e he hid htype)]
    | openLoss _ hnone =>
      rw [hnone e he hid] at htype
      cases htype
    | cancelled hs' => cases hs.symm.trans hs'
  | openLoss hs hnone hfind =>
    cases h' with
    | returned hs' => cases hs.symm.trans hs'
    | @closedLoss e' _ he' hid' htype' =>
      rw [hnone e' he' hid'] at htype'
      cases htype'
    | openLoss _ _ hfind' => rw [Option.some.inj (hfind.symm.trans hfind')]
    | cancelled hs' => cases hs.symm.trans hs'
  | @cancelled e hs he hid htype hfirst =>
    cases h' with
    | returned hs' => cases hs.symm.trans hs'
    | closedLoss hs' => cases hs.symm.trans hs'
    | openLoss hs' => cases hs.symm.trans hs'
    | @cancelled e' _ he' hid' htype' hfirst' =>
      rw [Int.le_antisymm (hfirst e' he' hid' htype') (hfirst' e he hid htype)]

/-- **There is one deadline.** -/
theorem Db.Deadline.unique {t t' : Option Time} (h : db.Deadline contact t)
    (h' : db.Deadline contact t') : t = t' := by
  cases h with
  | unused hnone =>
    cases h' with
    | unused => rfl
    | active hl hc => exact absurd hc (hnone _ hl)
    | closed hl hc => exact absurd hc (hnone _ hl)
  | active hl hc hs =>
    cases h' with
    | unused hnone => exact absurd hc (hnone _ hl)
    | active => rfl
    | closed _ _ _ hall =>
      obtain ⟨t', -, ht'⟩ := hall _ hl hc
      rw [ht'.not_exclusive] at hs
      cases hs
  | closed hl hc ht hall =>
    cases h' with
    | unused hnone => exact absurd hc (hnone _ hl)
    | active hl' hc' hs' =>
      obtain ⟨t', -, ht'⟩ := hall _ hl' hc'
      rw [ht'.not_exclusive] at hs'
      cases hs'
    | closed hl' hc' ht' hall' =>
      obtain ⟨s, hs, hcand⟩ := hall _ hl' hc'
      obtain ⟨s', hs', hcand'⟩ := hall' _ hl hc
      rw [ht.unique hcand'] at hs ⊢
      rw [ht'.unique hcand] at hs' ⊢
      rw [Int.le_antisymm hs' (hcand'.unique ht ▸ hs)]

/-! ## The computation -/

theorem earliest_spec (first : LoanEvent) (rest : List LoanEvent) :
    (∃ e ∈ first :: rest, earliest first rest = e.occurredAt) ∧
      ∀ e ∈ first :: rest, earliest first rest ≤ e.occurredAt := by
  unfold earliest
  induction rest using List.reverseRecOn with
  | nil =>
    refine ⟨⟨first, List.mem_singleton.mpr rfl, rfl⟩, fun e he => ?_⟩
    rw [List.mem_singleton.mp he]
    exact Int.le_refl _
  | append_singleton rest e ih =>
    obtain ⟨⟨e₀, he₀, heq⟩, hle⟩ := ih
    rw [List.foldl_append, List.foldl_cons, List.foldl_nil]
    split
    · next hlt =>
      refine ⟨⟨e, by simp, rfl⟩, fun e' he' => ?_⟩
      rw [← List.cons_append, List.mem_append, List.mem_singleton] at he'
      rcases he' with he' | rfl
      · exact Int.le_of_lt (Int.lt_of_lt_of_le hlt (hle e' he'))
      · exact Int.le_refl _
    · next hnot =>
      refine ⟨⟨e₀, by simpa using List.mem_append_left [e] he₀, heq⟩, fun e' he' => ?_⟩
      rw [← List.cons_append, List.mem_append, List.mem_singleton] at he'
      rcases he' with he' | rfl
      · exact hle e' he'
      · exact Int.not_lt.mp hnot

theorem latest_spec (first : Time) (rest : List Time) :
    latest first rest ∈ first :: rest ∧ ∀ t ∈ first :: rest, t ≤ latest first rest := by
  unfold latest
  induction rest using List.reverseRecOn with
  | nil =>
    refine ⟨List.mem_singleton.mpr rfl, fun t ht => ?_⟩
    rw [List.mem_singleton.mp ht]
    exact Int.le_refl _
  | append_singleton rest t ih =>
    obtain ⟨hmem, hle⟩ := ih
    rw [List.foldl_append, List.foldl_cons, List.foldl_nil]
    split
    · next hlt =>
      refine ⟨by simp, fun t' ht' => ?_⟩
      rw [← List.cons_append, List.mem_append, List.mem_singleton] at ht'
      rcases ht' with ht' | rfl
      · exact Int.le_of_lt (Int.lt_of_le_of_lt (hle t' ht') hlt)
      · exact Int.le_refl _
    · next hnot =>
      refine ⟨by simpa using List.mem_append_left [t] hmem, fun t' ht' => ?_⟩
      rw [← List.cons_append, List.mem_append, List.mem_singleton] at ht'
      rcases ht' with ht' | rfl
      · exact hle t' ht'
      · exact Int.not_lt.mp hnot

/-- The events of one loan that the computation finds are the events of the table. -/
theorem mem_filter_retentionEvents {loans : List Loan} {e : LoanEvent}
    {p : LoanEventType → Bool} (hl : l ∈ loans) (hp : ∀ type, p type = true → type.isRetention) :
    (e ∈ (db.retentionEvents loans).filter fun e => e.loanId = l.id ∧ p e.type) ↔
      e ∈ db.events ∧ e.loanId = l.id ∧ p e.type = true := by
  rw [List.mem_filter, Db.retentionEvents, List.mem_filter, decide_eq_true_iff,
    decide_eq_true_iff]
  constructor
  · rintro ⟨⟨he, -⟩, hid, htype⟩
    exact ⟨he, hid, htype⟩
  · rintro ⟨he, hid, htype⟩
    exact ⟨⟨he, hid ▸ List.mem_map_of_mem hl, hp _ htype⟩, hid, htype⟩

theorem find?_retentionEvents {loans : List Loan} (hl : l ∈ loans) :
    ((db.retentionEvents loans).find? fun e => e.loanId = l.id ∧ e.type = .loanLost) =
      db.events.find? fun e => e.loanId = l.id ∧ e.type = .loanLost := by
  unfold Db.retentionEvents
  rw [List.find?_filter]
  congr 1
  funext e
  have hread : (e.loanId = l.id ∧ e.type = .loanLost) →
      e.loanId ∈ loans.map Loan.id ∧ e.type.isRetention = true := by
    rintro ⟨hid, htype⟩
    exact ⟨hid ▸ List.mem_map_of_mem hl, by rw [htype]; rfl⟩
  rw [decide_eq_decide.mpr]
  rw [decide_eq_true_iff, decide_eq_true_iff]
  exact ⟨fun h => h.2, fun h => ⟨hread h, h⟩⟩

/-- **A computed candidate is the candidate.** -/
theorem candidate_of_candidateFor {loans : List Loan} {t : Time} (hl : l ∈ loans)
    (h : candidateFor l (db.retentionEvents loans) = .ok t) : db.Candidate l t := by
  unfold candidateFor at h
  split at h
  · next hs =>
    split at h
    · cases h
    · next hr =>
      cases h
      exact .returned hs hr
  · next hs =>
    have hclosure : ∀ {e : LoanEvent}, (e ∈ (db.retentionEvents loans).filter fun e =>
        e.loanId = l.id ∧ e.type.isClosure) ↔ e ∈ db.events ∧ e.loanId = l.id ∧
          e.type.isClosure = true :=
      mem_filter_retentionEvents hl fun type htype => by cases type <;> first | rfl | cases htype
    split at h
    · next first rest hfilter =>
      cases h
      rw [hfilter] at hclosure
      obtain ⟨⟨e, he, heq⟩, hle⟩ := earliest_spec first (first :: rest)
      have hmem : ∀ {e}, e ∈ first :: first :: rest → e ∈ first :: rest := fun h => by
        rcases List.mem_cons.mp h with rfl | h
        · exact List.mem_cons_self
        · exact h
      obtain ⟨hevent, hid, htype⟩ := hclosure.mp (hmem he)
      rw [heq]
      refine .closedLoss hs hevent hid htype fun e' he' hid' htype' => ?_
      rw [← heq]
      exact hle e' (List.mem_cons_of_mem _ (hclosure.mpr ⟨he', hid', htype'⟩))
    · next hnil =>
      rw [find?_retentionEvents hl] at h
      split at h
      · cases h
      · next lost hfind =>
        cases h
        refine .openLoss hs (fun e he hid => Bool.eq_false_iff.mpr fun htype => ?_) hfind
        have hmem := hclosure.mpr ⟨he, hid, htype⟩
        rw [hnil] at hmem
        cases hmem
  · next hs =>
    have hcancelled : ∀ {e : LoanEvent}, (e ∈ (db.retentionEvents loans).filter fun e =>
        e.loanId = l.id ∧ e.type = .guestHandoverCancelled) ↔ e ∈ db.events ∧ e.loanId = l.id ∧
          e.type = .guestHandoverCancelled := by
      intro e
      have hmem := @mem_filter_retentionEvents db l loans e
        (fun type => decide (type = .guestHandoverCancelled)) hl
        (fun type htype => by rw [of_decide_eq_true htype]; rfl)
      simpa only [decide_eq_true_eq] using hmem
    split at h
    · cases h
    · next first rest hfilter =>
      cases h
      rw [hfilter] at hcancelled
      obtain ⟨⟨e, he, heq⟩, hle⟩ := earliest_spec first (first :: rest)
      have hmem : ∀ {e}, e ∈ first :: first :: rest → e ∈ first :: rest := fun h => by
        rcases List.mem_cons.mp h with rfl | h
        · exact List.mem_cons_self
        · exact h
      obtain ⟨hevent, hid, htype⟩ := hcancelled.mp (hmem he)
      rw [heq]
      refine .cancelled hs hevent hid htype fun e' he' hid' htype' => ?_
      rw [← heq]
      exact hle e' (List.mem_cons_of_mem _ (hcancelled.mpr ⟨he', hid', htype'⟩))
  · cases h

/-- **A computed deadline is the deadline.** -/
theorem deadline_of_retainUntilOf {t : Option Time}
    (h : retainUntilOf contact (db.loansOfContact contact.id)
      (db.retentionEvents (db.loansOfContact contact.id)) = .ok t) : db.Deadline contact t := by
  have hmem : ∀ {l}, l ∈ db.loansOfContact contact.id ↔
      l ∈ db.loans ∧ l.borrowerContactId = some contact.id := by
    intro l
    simp [Db.loansOfContact, Table.mem_def]
  unfold retainUntilOf at h
  split at h
  · next hempty =>
    cases h
    refine .unused fun l hl hc => ?_
    have hin := hmem.mpr ⟨hl, hc⟩
    rw [List.isEmpty_iff.mp hempty] at hin
    cases hin
  · next hsome =>
    split at h
    · next hex =>
      cases h
      obtain ⟨l, hl, hs⟩ := List.any_eq_true.mp hex
      exact .active (hmem.mp hl).1 (hmem.mp hl).2 hs
    · obtain ⟨ts, hts, h⟩ := bind_eq_ok.mp h
      have hall := forall₂_of_mapM hts
      cases ts with
      | nil =>
        rw [List.forall₂_nil_right_iff] at hall
        exact absurd (List.isEmpty_iff.mpr hall) hsome
      | cons first rest =>
        cases h
        obtain ⟨hlatest, hle⟩ := latest_spec first rest
        obtain ⟨i, hi, heq⟩ := List.getElem_of_mem hlatest
        have hlen := hall.length_eq
        have hcand := fun j hj hj' => candidate_of_candidateFor (List.getElem_mem _)
          (List.Forall₂.get hall (i := j) hj hj')
        have hl := hmem.mp (List.getElem_mem (hlen ▸ hi))
        refine .closed hl.1 hl.2 (heq ▸ hcand i (hlen ▸ hi) hi) fun l' hl' hc' => ?_
        obtain ⟨j, hj, rfl⟩ := List.getElem_of_mem (hmem.mpr ⟨hl', hc'⟩)
        exact ⟨_, hle _ (List.getElem_mem (hlen ▸ hj)), hcand j hj (hlen ▸ hj)⟩

/-! ## What a deadline depends on -/

/-- The loans of the contact and their events are as they were. -/
structure Db.RetentionKept (db db' : Db) (id : ContactId) : Prop where
  loans : ∀ l, l.borrowerContactId = some id → (l ∈ db'.loans ↔ l ∈ db.loans)
  events : ∃ es, db'.events = db.events ++ es ∧
    ∀ e ∈ es, ∀ l ∈ db.loans, l.borrowerContactId = some id → e.loanId ≠ l.id

/-- A transaction that has nothing to do with the contact, whose row keeps the dates. -/
structure Db.DeadlineKept (db db' : Db) (id : ContactId) : Prop extends
    db.RetentionKept db' id where
  contacts : ∀ c' ∈ db'.contacts, c'.id = id → ∃ c ∈ db.contacts, c.id = id ∧
    c'.createdAt = c.createdAt ∧ c'.retainUntil = c.retainUntil

/-- A loan of the contact may be forgotten when it could before. -/
theorem Db.Candidate.kept {t : Time} (k : db.RetentionKept db' contactId) (hl : l ∈ db.loans)
    (hc : l.borrowerContactId = some contactId) (h : db.Candidate l t) : db'.Candidate l t := by
  obtain ⟨es, hes, hother⟩ := k.events
  have hmem : ∀ {e : LoanEvent}, e ∈ db'.events → e.loanId = l.id → e ∈ db.events := by
    intro e he hid
    rw [hes, List.mem_append] at he
    exact he.resolve_right fun hnew => hother e hnew l hl hc hid
  have hold : ∀ {e : LoanEvent}, e ∈ db.events → e ∈ db'.events := fun he =>
    hes ▸ List.mem_append_left _ he
  cases h with
  | returned hs hr => exact .returned hs hr
  | closedLoss hs he hid htype hfirst =>
    exact .closedLoss hs (hold he) hid htype fun e' he' hid' => hfirst e' (hmem he' hid') hid'
  | openLoss hs hnone hfind =>
    refine .openLoss hs (fun e' he' hid' => hnone e' (hmem he' hid') hid') ?_
    rw [hes, List.find?_append, hfind]
    rfl
  | cancelled hs he hid htype hfirst =>
    exact .cancelled hs (hold he) hid htype fun e' he' hid' => hfirst e' (hmem he' hid') hid'

theorem Db.Deadline.kept {contact' : ExternalBorrower} {t : Option Time}
    (k : db.RetentionKept db' contact.id) (hid : contact'.id = contact.id)
    (hcreated : contact'.createdAt = contact.createdAt) (h : db.Deadline contact t) :
    db'.Deadline contact' t := by
  cases h with
  | unused hnone =>
    rw [← hcreated]
    refine .unused fun l hl hc => ?_
    rw [hid] at hc
    exact hnone l ((k.loans l hc).mp hl) hc
  | active hl hc hs => exact .active ((k.loans _ hc).mpr hl) (hid ▸ hc) hs
  | closed hl hc ht hall =>
    refine .closed ((k.loans _ hc).mpr hl) (hid ▸ hc) (ht.kept k hl hc) fun l' hl' hc' => ?_
    rw [hid] at hc'
    have hl₀ := (k.loans l' hc').mp hl'
    obtain ⟨t', hle, ht'⟩ := hall l' hl₀ hc'
    exact ⟨t', hle, ht'.kept k hl₀ hc'⟩

/-- The deadline of the contact, if there is one, is the stored one. -/
def Db.DeadlineExact (db : Db) (id : ContactId) : Prop :=
  ∀ c ∈ db.contacts, c.id = id → db.Deadline c c.retainUntil

theorem Db.DeadlineExact.kept (h : db.DeadlineExact contactId)
    (k : db.DeadlineKept db' contactId) : db'.DeadlineExact contactId := by
  intro c' hc' hid'
  obtain ⟨c, hc, rfl, hcreated, hretain⟩ := k.contacts c' hc' hid'
  rw [hretain]
  exact (h c hc rfl).kept k.toRetentionKept hid' hcreated

namespace Db.DeadlineKept

variable {db'' : Db} {id : ContactId}

theorem of_eq (hloans : db'.loans = db.loans) (hevents : db'.events = db.events)
    (hcontacts : db'.contacts = db.contacts) : db.DeadlineKept db' id where
  loans l _ := by rw [hloans]
  events := ⟨[], by rw [hevents, List.append_nil], List.forall_mem_nil _⟩
  contacts c hc hid := ⟨c, hcontacts ▸ hc, hid, rfl, rfl⟩

theorem trans (h : db.DeadlineKept db' id) (h' : db'.DeadlineKept db'' id) :
    db.DeadlineKept db'' id where
  loans l hc := (h'.loans l hc).trans (h.loans l hc)
  events := by
    obtain ⟨es, hes, hother⟩ := h.events
    obtain ⟨es', hes', hother'⟩ := h'.events
    refine ⟨es ++ es', by rw [hes', hes, List.append_assoc], fun e he l hl hc => ?_⟩
    rcases List.mem_append.mp he with he | he
    · exact hother e he l hl hc
    · exact hother' e he l ((h.loans l hc).mpr hl) hc
  contacts c hc hid := by
    obtain ⟨c', hc', hid', hcreated', hretain'⟩ := h'.contacts c hc hid
    obtain ⟨c'', hc'', hid'', hcreated'', hretain''⟩ := h.contacts c' hc' hid'
    exact ⟨c'', hc'', hid'', hcreated'.trans hcreated'', hretain'.trans hretain''⟩

/-- A new loan of nobody, or of another contact. -/
theorem inserted {row : Loan} {loans : Table Loan.id} {es : List LoanEvent}
    (hins : db.loans.insert row = some loans) (hrow : row.borrowerContactId ≠ some id)
    (hloans : db'.loans = loans) (hevents : db'.events = db.events ++ es)
    (hnamed : ∀ e ∈ es, e.loanId = row.id) (hcontacts : db'.contacts = db.contacts) :
    db.DeadlineKept db' id where
  loans l hc := by
    rw [hloans, Table.mem_insert hins]
    refine or_iff_left ?_
    rintro rfl
    exact hrow hc
  events := by
    refine ⟨es, hevents, fun e he l hl _ heq => ?_⟩
    exact Table.fresh_of_insert hins l hl (heq.symm.trans (hnamed e he))
  contacts c hc hid := ⟨c, hcontacts ▸ hc, hid, rfl, rfl⟩

/-- A write to a loan of nobody, or of another contact. -/
theorem modified {l₀ : Loan} {f : Table.Edit Loan.id} {es : List LoanEvent} (hl₀ : l₀ ∈ db.loans)
    (hother : l₀.borrowerContactId ≠ some id)
    (hkeeps : (f l₀).borrowerContactId = l₀.borrowerContactId)
    (hloans : db'.loans = db.loans.modify l₀.id f) (hevents : db'.events = db.events ++ es)
    (hnamed : ∀ e ∈ es, e.loanId = l₀.id) (hcontacts : db'.contacts = db.contacts) :
    db.DeadlineKept db' id where
  loans l hc := by
    have hself : ∀ x ∈ db.loans, x.id = l₀.id → x = l₀ := fun x hx hid =>
      Table.eq_of_key_eq hx hl₀ hid
    rw [hloans, Table.mem_modify]
    constructor
    · rintro ⟨x, hx, rfl⟩
      split at hc
      · next hid =>
        rw [hself x hx hid, hkeeps] at hc
        exact absurd hc hother
      · next hne =>
        rw [if_neg hne]
        exact hx
    · intro hl
      refine ⟨l, hl, if_neg fun hid => ?_⟩
      rw [hself l hl hid] at hc
      exact hother hc
  events := by
    refine ⟨es, hevents, fun e he l hl hc heq => ?_⟩
    have hsame := Table.eq_of_key_eq hl hl₀ (heq.symm.trans (hnamed e he))
    rw [hsame] at hc
    exact hother hc
  contacts c hc hid := ⟨c, hcontacts ▸ hc, hid, rfl, rfl⟩

/-- Rivals are requests of registered users. -/
theorem rejected (hparties : ∀ l ∈ db.loans, l.borrowerKind = .registered →
      l.borrowerContactId = none) (copyId : CopyId) (spared : Option LoanId) (actorId : UserId)
    (now : Time) : db.DeadlineKept (db.withRejected copyId spared actorId now) id where
  loans l hc := by
    have hnot : ∀ x ∈ db.loans, x.isRival copyId spared = true → x.borrowerContactId = none :=
      fun x hx hrival => hparties x hx
        (of_decide_eq_true (Loan.isRequestFlowRequested_of_isRival hrival)).2.2
    show l ∈ db.loans.updateWhere _ _ ↔ _
    rw [Table.mem_updateWhere]
    constructor
    · rintro ⟨x, hx, rfl⟩
      split at hc
      · next hrival => exact nomatch hc.symm.trans (hnot x hx hrival)
      · next hrival =>
        rw [if_neg hrival]
        exact hx
    · intro hl
      exact ⟨l, hl, if_neg fun hrival => nomatch hc.symm.trans (hnot l hl hrival)⟩
  events := ⟨[], (List.append_nil _).symm, List.forall_mem_nil _⟩
  contacts c hc hid := ⟨c, hc, hid, rfl, rfl⟩

theorem rejectedWhen (hparties : ∀ l ∈ db.loans, l.borrowerKind = .registered →
      l.borrowerContactId = none) (c : Bool) (copyId : CopyId) (spared : Option LoanId)
    (actorId : UserId) (now : Time) :
    db.DeadlineKept (db.withRejectedWhen c copyId spared actorId now) id := by
  cases c with
  | false => exact .of_eq rfl rfl rfl
  | true => exact .rejected hparties copyId spared actorId now

/-- A write to the contacts that keeps the dates of this one. -/
theorem edited {f : Table.Edit ExternalBorrower.id} (hloans : db'.loans = db.loans)
    (hevents : db'.events = db.events) (hcontacts : db'.contacts = db.contacts.map f)
    (hf : ∀ c : ExternalBorrower, c.id = id →
      (f c).createdAt = c.createdAt ∧ (f c).retainUntil = c.retainUntil) :
    db.DeadlineKept db' id where
  loans l _ := by rw [hloans]
  events := ⟨[], by rw [hevents, List.append_nil], List.forall_mem_nil _⟩
  contacts c hc hid := by
    rw [hcontacts, Table.mem_map] at hc
    obtain ⟨c₀, hc₀, rfl⟩ := hc
    have hid₀ : c₀.id = id := (f.keeps c₀).symm.trans hid
    exact ⟨c₀, hc₀, hid₀, hf c₀ hid₀⟩

/-- The deadline of another contact. -/
theorem retained {contactId : ContactId} (hne : id ≠ contactId) (t : Option Time) :
    db.DeadlineKept (db.withRetainUntil contactId t) id := by
  refine .edited rfl rfl rfl fun c hid => ?_
  rw [Table.Edit.only_apply, if_neg (by simpa [hid] using hne)]
  exact ⟨rfl, rfl⟩

end Db.DeadlineKept

/-- **The recomputation writes the deadline.** -/
theorem deadline_of_recompute (h : recomputeRetainUntil contactId db = .ok db') :
    db'.DeadlineExact contactId := by
  intro c hc hid
  unfold recomputeRetainUntil at h
  split at h
  · next hnone =>
    cases h
    exact absurd hid (Table.find?_eq_none_iff.mp hnone c hc)
  · next contact hfind =>
    obtain ⟨t, ht, hw⟩ := bind_eq_ok.mp h
    cases hw
    obtain rfl := Table.key_of_find? hfind
    obtain ⟨c₀, hc₀, rfl⟩ := Table.mem_modify.mp hc
    have hid₀ : c₀.id = contact.id := by
      split at hid
      · next heq => exact heq
      · exact hid
    obtain rfl := Table.eq_of_key_eq hc₀ (Table.mem_of_find? hfind) hid₀
    rw [if_pos rfl]
    have hkept : db.RetentionKept (db.withRetainUntil c₀.id t) c₀.id :=
      ⟨fun _ _ => Iff.rfl, ⟨[], (List.append_nil _).symm, List.forall_mem_nil _⟩⟩
    exact (deadline_of_retainUntilOf ht).kept hkept rfl rfl

end Bookswap
