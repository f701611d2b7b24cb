import Bookswap.Users.ProfileSummary

/-!
# The profile shows the true latest lines

Each of the four queries and the one over the days reads only as many rows as there are lines to
show. A step that no query brings is of a loan that its query left out, and the loans which that
query preferred have as many steps that are not older.

- `loanStepsOf_eq`: a loan's steps are those of the columns whose filter accepts it.
- `uniqueLoans_spec`: merging the queries takes each loan once.
- `latest_activity`: the lines shown are the newest of all.
-/

namespace Bookswap

open Newest

variable {db : Db} {workOf : EditionId → ActivityWork} {userId : UserId} {limit : Nat}

/-! ## Steps and columns -/

/-- The step that the timestamp of the column proves. -/
def StepColumn.event (loan : Loan) : StepColumn → ProfileLoanEvent
  | .requestedAt => .requested
  | .respondedAt => if loan.status = .rejected then .rejected else .approved
  | .handedAt => .handedOver
  | .returnedAt => .returned

theorem StepColumn.event_inj {loan : Loan} {c d : StepColumn} (h : c.event loan = d.event loan) :
    c = d := by
  by_cases hstatus : loan.status = .rejected
  · cases c <;> cases d <;> simp [event, hstatus] at h ⊢
  · cases c <;> cases d <;> simp [event, hstatus] at h ⊢

/-- The step of a column, if the loan carries it. -/
def stepOf (loan : Loan) (c : StepColumn) : Option (ProfileLoanEvent × Time) :=
  if STEP_FILTERS loan c then (c.of loan).map fun t => (c.event loan, t) else none

/-- **The filter of a column accepts exactly the loans whose step is emitted.** -/
theorem loanStepsOf_eq (loan : Loan) : loanStepsOf loan = STEP_COLUMNS.filterMap (stepOf loan) := by
  have hcolumn : ∀ c cs, (c :: cs).filterMap (stepOf loan) =
      (stepOf loan c).toList ++ cs.filterMap (stepOf loan) := by
    intro c cs
    rw [List.filterMap_cons]
    cases stepOf loan c <;> rfl
  have htoList : ∀ (p : Prop) [Decidable p] (o : Option (ProfileLoanEvent × Time)),
      (if p then o else none).toList = if p then o.toList else [] := by
    intro p _ o
    split <;> rfl
  unfold STEP_COLUMNS loanStepsOf
  rw [hcolumn, hcolumn, hcolumn, hcolumn, List.filterMap_nil, List.append_nil]
  unfold stepOf STEP_FILTERS StepColumn.of StepColumn.event
  simp only [decide_eq_true_eq, htoList]
  by_cases horigin : loan.origin = .requested
  · simp only [horigin, if_true, List.append_assoc]
  · simp only [horigin, if_false, List.nil_append]

/-- The line of a step. -/
def lineOf (db : Db) (workOf : EditionId → ActivityWork) (userId : UserId) (loan : Loan)
    (step : ProfileLoanEvent × Time) : ProfileActivity :=
  .loan step.1 step.2 loan.id (if loan.ownerId = userId then .owner else .borrower)
    (if loan.ownerId = userId then
      counterpartOf (db.userOf loan.borrowerId) (db.contactOf loan.borrowerContactId)
    else counterpartOf (db.userOf (some loan.ownerId)) none)
    (activityLoanRow db workOf loan).work

/-- The lines of one loan. -/
def linesOf (db : Db) (workOf : EditionId → ActivityWork) (userId : UserId) (loan : Loan) :
    List ProfileActivity :=
  toLoanActivity (activityLoanRow db workOf loan) userId

theorem mem_linesOf {loan : Loan} {line : ProfileActivity} :
    line ∈ linesOf db workOf userId loan ↔ ∃ c t, STEP_FILTERS loan c = true ∧
      c.of loan = some t ∧ line = lineOf db workOf userId loan (c.event loan, t) := by
  unfold linesOf toLoanActivity
  simp only [List.mem_map, activityLoanRow, loanStepsOf_eq, List.mem_filterMap]
  constructor
  · rintro ⟨step, ⟨c, -, hc⟩, rfl⟩
    unfold stepOf at hc
    split at hc
    · next hfilter =>
      obtain ⟨t, ht, rfl⟩ := Option.map_eq_some_iff.mp hc
      exact ⟨c, t, hfilter, ht, rfl⟩
    · cases hc
  · rintro ⟨c, t, hfilter, ht, rfl⟩
    refine ⟨(c.event loan, t), ⟨c, by cases c <;> decide, ?_⟩, rfl⟩
    unfold stepOf
    rw [if_pos hfilter, ht]
    rfl

theorem nodup_linesOf (db : Db) (workOf : EditionId → ActivityWork) (userId : UserId)
    (loan : Loan) : (linesOf db workOf userId loan).Nodup := by
  unfold linesOf toLoanActivity
  refine List.Nodup.map (fun a b h => ?_) ?_
  · simp only [ProfileActivity.loan.injEq] at h
    exact Prod.ext h.1 h.2.1
  · show (loanStepsOf loan).Nodup
    rw [loanStepsOf_eq]
    refine List.Nodup.filterMap (fun c d step hc hd => ?_) (by decide)
    have hevent : ∀ {c}, step ∈ stepOf loan c → step.1 = c.event loan := by
      intro c hc
      unfold stepOf at hc
      split at hc
      · obtain ⟨t, -, rfl⟩ := Option.map_eq_some_iff.mp hc
        rfl
      · cases hc
    exact StepColumn.event_inj ((hevent hc).symm.trans (hevent hd))

/-! ## Every loan once -/

/-- Rows of one id are one row. -/
def OneRow (rows : List ActivityLoanRow) : Prop :=
  ∀ r ∈ rows, ∀ r' ∈ rows, r.loan.id = r'.loan.id → r = r'

theorem mem_uniqueLoans {rows : List ActivityLoanRow} (h : OneRow rows) {row : ActivityLoanRow} :
    row ∈ uniqueLoans rows ↔ row ∈ rows := by
  unfold uniqueLoans
  rw [List.mem_filterMap]
  constructor
  · rintro ⟨id, -, hfind⟩
    exact List.mem_reverse.mp (List.mem_of_find?_eq_some hfind)
  · intro hrow
    refine ⟨row.loan.id, List.mem_eraseDups.mpr (List.mem_map.mpr ⟨row, hrow, rfl⟩), ?_⟩
    cases hfind : rows.reverse.find? fun r => r.loan.id = row.loan.id with
    | none =>
      have hnone := List.find?_eq_none.mp hfind row (List.mem_reverse.mpr hrow)
      simp at hnone
    | some found =>
      have hid := List.find?_some hfind
      have hmem := List.mem_reverse.mp (List.mem_of_find?_eq_some hfind)
      rw [h found hmem row hrow (of_decide_eq_true hid)]

/-- **Merging the queries takes each loan once.** -/
theorem nodup_uniqueLoans (rows : List ActivityLoanRow) :
    ((uniqueLoans rows).map (·.loan.id)).Nodup := by
  unfold uniqueLoans
  rw [List.map_filterMap]
  refine List.Nodup.filterMap (fun id id' found hid hid' => ?_) (nodup_eraseDups _)
  have hfound : ∀ {i}, found ∈ (rows.reverse.find? fun r => r.loan.id = i).map (·.loan.id) →
      found = i := by
    intro i hi
    obtain ⟨row, hrow, rfl⟩ := Option.map_eq_some_iff.mp hi
    have hid := List.find?_some hrow
    exact of_decide_eq_true hid
  rw [← hfound hid, ← hfound hid']

theorem nodup_mine (db : Db) (userId : UserId) : ((db.mine userId).map Loan.id).Nodup :=
  db.loans.nodup.sublist ((List.filter_sublist ..).map Loan.id)

theorem mine_inj {l l' : Loan} (hl : l ∈ db.mine userId) (hl' : l' ∈ db.mine userId)
    (h : l.id = l'.id) : l = l' :=
  List.inj_on_of_nodup_map (nodup_mine db userId) hl hl' h

theorem stepLoans_isNewest (db : Db) (userId : UserId) (limit : Nat) (c : StepColumn) :
    IsNewest (fun l : Loan => toLex ((c.of l).getD 0, l.id)) limit
      ((db.mine userId).filter fun l => STEP_FILTERS l c ∧ (c.of l).isSome)
      (stepLoans db userId limit c) :=
  newest_isNewest _ _ _

theorem mem_stepLoans {c : StepColumn} {l : Loan} (h : l ∈ stepLoans db userId limit c) :
    l ∈ db.mine userId ∧ STEP_FILTERS l c = true ∧ ∃ t, c.of l = some t := by
  obtain ⟨hmine, hfilter⟩ := List.mem_filter.mp ((stepLoans_isNewest db userId limit c).mem h)
  obtain ⟨hfilter, hsome⟩ := of_decide_eq_true hfilter
  exact ⟨hmine, hfilter, Option.isSome_iff_exists.mp hsome⟩

theorem mem_activityLoansOf {row : ActivityLoanRow} :
    row ∈ activityLoansOf db workOf userId limit ↔
      ∃ c, ∃ l ∈ stepLoans db userId limit c, row = activityLoanRow db workOf l := by
  unfold activityLoansOf
  simp only [List.mem_flatMap, List.mem_map]
  constructor
  · rintro ⟨c, -, l, hl, rfl⟩
    exact ⟨c, l, hl, rfl⟩
  · rintro ⟨c, l, hl, rfl⟩
    exact ⟨c, by cases c <;> decide, l, hl, rfl⟩

theorem oneRow_activityLoansOf (db : Db) (workOf : EditionId → ActivityWork) (userId : UserId)
    (limit : Nat) : OneRow (activityLoansOf db workOf userId limit) := by
  intro r hr r' hr' hid
  obtain ⟨c, l, hl, rfl⟩ := mem_activityLoansOf.mp hr
  obtain ⟨c', l', hl', rfl⟩ := mem_activityLoansOf.mp hr'
  rw [mine_inj (mem_stepLoans hl).1 (mem_stepLoans hl').1 hid]

/-! ## The days -/

/-- A day's line falls on its day. -/
theorem mem_addedCopiesDays {day : AddedCopiesDay} (h : day ∈ addedCopiesDays db userId) :
    day.count = (db.addedOn userId (isoDayOf day.at_)).length := by
  unfold addedCopiesDays at h
  obtain ⟨d, -, hd⟩ := List.mem_filterMap.mp h
  obtain ⟨at_, hat, rfl⟩ := Option.map_eq_some_iff.mp hd
  obtain ⟨c, hc, rfl⟩ := List.mem_map.mp (List.max?_mem hat)
  have hday := (of_decide_eq_true (List.mem_filter.mp hc).2).2
  rw [hday]

theorem nodup_addedCopiesDays (db : Db) (userId : UserId) :
    (addedCopiesDays db userId).Nodup := by
  unfold addedCopiesDays
  refine List.Nodup.filterMap (fun d d' day hd hd' => ?_) (nodup_eraseDups _)
  have hday : ∀ {d}, day ∈ ((db.addedOn userId d).map Copy.createdAt).max?.map (fun at_ =>
      (⟨(db.addedOn userId d).length, at_⟩ : AddedCopiesDay)) → isoDayOf day.at_ = d := by
    intro d hd
    obtain ⟨at_, hat, rfl⟩ := Option.map_eq_some_iff.mp hd
    obtain ⟨c, hc, rfl⟩ := List.mem_map.mp (List.max?_mem hat)
    exact (of_decide_eq_true (List.mem_filter.mp hc).2).2
  rw [← hday hd, ← hday hd']

/-! ## The latest lines -/

/-- All lines there are: the steps of all loans of the user, and the days of added copies. -/
def allActivity (db : Db) (workOf : EditionId → ActivityWork) (userId : UserId) :
    List ProfileActivity :=
  (db.mine userId).flatMap (linesOf db workOf userId) ++
    (addedCopiesDays db userId).map AddedCopiesDay.toActivity

/-- The lines that were read. -/
def readActivity (db : Db) (workOf : EditionId → ActivityWork) (userId : UserId) (limit : Nat) :
    List ProfileActivity :=
  (uniqueLoans (activityLoansOf db workOf userId limit)).flatMap (toLoanActivity · userId) ++
    (addedCopiesDaysOf db userId limit).map AddedCopiesDay.toActivity

/-- A line of a loan names the loan. -/
theorem loan_of_mem {row : ActivityLoanRow} {line : ProfileActivity}
    (h : line ∈ toLoanActivity row userId) : ∃ event t role counterpart work,
      line = .loan event t row.loan.id role counterpart work := by
  unfold toLoanActivity at h
  obtain ⟨step, -, rfl⟩ := List.mem_map.mp h
  exact ⟨_, _, _, _, _, rfl⟩

variable (userId) in
/-- Lines of distinct loans and of distinct days are distinct. -/
theorem nodup_lines (rows : List ActivityLoanRow) (days : List AddedCopiesDay)
    (hrows : (rows.map (·.loan.id)).Nodup) (hlines : ∀ r ∈ rows, (toLoanActivity r userId).Nodup)
    (hdays : days.Nodup) :
    (rows.flatMap (toLoanActivity · userId) ++ days.map AddedCopiesDay.toActivity).Nodup := by
  refine List.Nodup.append ?_ ?_ ?_
  · refine List.nodup_flatMap.mpr ⟨hlines, ?_⟩
    refine (List.pairwise_map.mp hrows).imp fun {r r'} hne line hline hline' => ?_
    obtain ⟨_, _, _, _, _, rfl⟩ := loan_of_mem hline
    obtain ⟨_, _, _, _, _, hline⟩ := loan_of_mem hline'
    simp only [ProfileActivity.loan.injEq] at hline
    exact hne hline.2.2.1
  · refine List.Nodup.map (fun d d' h => ?_) hdays
    cases d
    cases d'
    cases h
    rfl
  · intro line hline hday
    obtain ⟨row, -, hline⟩ := List.mem_flatMap.mp hline
    obtain ⟨_, _, _, _, _, rfl⟩ := loan_of_mem hline
    obtain ⟨day, -, hday⟩ := List.mem_map.mp hday
    cases hday

theorem nodup_allActivity (db : Db) (workOf : EditionId → ActivityWork) (userId : UserId) :
    (allActivity db workOf userId).Nodup := by
  have h := nodup_lines userId
    ((db.mine userId).map (activityLoanRow db workOf)) (addedCopiesDays db userId) ?_ ?_
    (nodup_addedCopiesDays db userId)
  · rw [List.flatMap_map] at h
    exact h
  · rw [List.map_map]
    exact nodup_mine db userId
  · intro r hr
    obtain ⟨l, -, rfl⟩ := List.mem_map.mp hr
    exact nodup_linesOf db workOf userId l

theorem nodup_readActivity (db : Db) (workOf : EditionId → ActivityWork) (userId : UserId)
    (limit : Nat) : (readActivity db workOf userId limit).Nodup := by
  refine nodup_lines _ _ _ (nodup_uniqueLoans _) (fun r hr => ?_) ?_
  · have hrow := (mem_uniqueLoans (oneRow_activityLoansOf db workOf userId limit)).mp hr
    obtain ⟨c, l, -, rfl⟩ := mem_activityLoansOf.mp hrow
    exact nodup_linesOf db workOf userId l
  · obtain ⟨l', hperm, hsub⟩ := (newest_isNewest AddedCopiesDay.at_ limit
      (addedCopiesDays db userId)).once
    exact hperm.nodup_iff.mp ((nodup_addedCopiesDays db userId).sublist hsub)

theorem mem_readActivity_of_step {c : StepColumn} {l : Loan}
    (hl : l ∈ stepLoans db userId limit c) {line : ProfileActivity}
    (hline : line ∈ linesOf db workOf userId l) :
    line ∈ readActivity db workOf userId limit :=
  List.mem_append_left _ (List.mem_flatMap.mpr ⟨activityLoanRow db workOf l,
    (mem_uniqueLoans (oneRow_activityLoansOf db workOf userId limit)).mpr
      (mem_activityLoansOf.mpr ⟨c, l, hl, rfl⟩), hline⟩)

theorem readActivity_subset : ∀ line ∈ readActivity db workOf userId limit,
    line ∈ allActivity db workOf userId := by
  intro line hline
  rcases List.mem_append.mp hline with hline | hline
  · obtain ⟨row, hrow, hline⟩ := List.mem_flatMap.mp hline
    have hrow := (mem_uniqueLoans (oneRow_activityLoansOf db workOf userId limit)).mp hrow
    obtain ⟨c, l, hl, rfl⟩ := mem_activityLoansOf.mp hrow
    exact List.mem_append_left _ (List.mem_flatMap.mpr ⟨l, (mem_stepLoans hl).1, hline⟩)
  · obtain ⟨day, hday, rfl⟩ := List.mem_map.mp hline
    exact List.mem_append_right _ (List.mem_map.mpr
      ⟨day, (newest_isNewest AddedCopiesDay.at_ limit _).mem hday, rfl⟩)

/-- **For a step that was not read, the query of its column has brought enough others**, each with
a step of its own that is not older. -/
theorem missing_step {l : Loan} (hl : l ∈ db.mine userId) {line : ProfileActivity}
    (hline : line ∈ linesOf db workOf userId l)
    (hnot : line ∉ readActivity db workOf userId limit) :
    limit ≤ (readActivity db workOf userId limit).countP fun a => line.at_ ≤ a.at_ := by
  obtain ⟨c, t, hfilter, ht, heq⟩ := mem_linesOf.mp hline
  have hnewest := stepLoans_isNewest db userId limit c
  have hcandidate : l ∈ (db.mine userId).filter fun l => STEP_FILTERS l c ∧ (c.of l).isSome :=
    List.mem_filter.mpr ⟨hl, decide_eq_true ⟨hfilter, by rw [ht]; rfl⟩⟩
  have hout : l ∉ stepLoans db userId limit c := fun hin =>
    hnot (mem_readActivity_of_step hin hline)
  -- the step of each loan that the query has brought
  have hnodup : (stepLoans db userId limit c).Nodup := by
    obtain ⟨m, hperm, hsub⟩ := hnewest.once
    exact hperm.nodup_iff.mp (((List.Nodup.of_map Loan.id (nodup_mine db userId)).filter _).sublist
      hsub)
  have hcount := length_le_countP (l := readActivity db workOf userId limit)
    (p := fun a => line.at_ ≤ a.at_)
    (m := (stepLoans db userId limit c).map fun m =>
      lineOf db workOf userId m (c.event m, (c.of m).getD 0)) ?_ ?_ ?_
  · rwa [List.length_map, hnewest.full hcandidate hout] at hcount
  · refine hnodup.map_on fun m hm m' hm' hline => ?_
    simp only [lineOf, ProfileActivity.loan.injEq] at hline
    exact mine_inj (mem_stepLoans hm).1 (mem_stepLoans hm').1 hline.2.2.1
  · intro a ha
    obtain ⟨m, hm, rfl⟩ := List.mem_map.mp ha
    obtain ⟨-, hfilter, t, ht⟩ := mem_stepLoans hm
    refine mem_readActivity_of_step hm (mem_linesOf.mpr ⟨c, t, hfilter, ht, ?_⟩)
    rw [ht]
    rfl
  · intro a ha
    obtain ⟨m, hm, rfl⟩ := List.mem_map.mp ha
    have hle := hnewest.rest l hcandidate hout m hm
    rw [Prod.Lex.toLex_le_toLex] at hle
    rw [decide_eq_true_eq, heq]
    show t ≤ (c.of m).getD 0
    rw [ht] at hle
    rcases hle with hlt | ⟨heq, -⟩
    · exact le_of_lt hlt
    · exact le_of_eq heq

/-- The same of a day that was not read. -/
theorem missing_day {day : AddedCopiesDay} (hday : day ∈ addedCopiesDays db userId)
    (hnot : day.toActivity ∉ readActivity db workOf userId limit) :
    limit ≤ (readActivity db workOf userId limit).countP fun a => day.toActivity.at_ ≤ a.at_ := by
  have hnewest := newest_isNewest AddedCopiesDay.at_ limit (addedCopiesDays db userId)
  have hmem : ∀ d ∈ addedCopiesDaysOf db userId limit,
      d.toActivity ∈ readActivity db workOf userId limit := fun d hd =>
    List.mem_append_right _ (List.mem_map.mpr ⟨d, hd, rfl⟩)
  have hout : day ∉ addedCopiesDaysOf db userId limit := fun hin => hnot (hmem day hin)
  have hnodup := (List.nodup_append.mp (nodup_readActivity db workOf userId limit)).2.1
  have hcount := length_le_countP (l := readActivity db workOf userId limit)
    (p := fun a => day.toActivity.at_ ≤ a.at_) hnodup ?_ ?_
  · rwa [List.length_map, show (addedCopiesDaysOf db userId limit).length = limit from
      hnewest.full hday hout] at hcount
  · intro a ha
    obtain ⟨d, hd, rfl⟩ := List.mem_map.mp ha
    exact hmem d hd
  · intro a ha
    obtain ⟨d, hd, rfl⟩ := List.mem_map.mp ha
    exact decide_eq_true (hnewest.rest day hday hout d hd)

/-- **The profile shows the true latest lines.** For every user the lines are the `limit` newest of
all steps of all loans of the user and of the days on which copies were added, each once and newest
first; when no two lines are of one moment, they are the first of all lines sorted by time. -/
theorem latest_activity (db : Db) (workOf : EditionId → ActivityWork) (userId : UserId)
    (limit : Nat) :
    IsNewest ProfileActivity.at_ limit (allActivity db workOf userId)
      (latestActivity (activityLoansOf db workOf userId limit)
        (addedCopiesDaysOf db userId limit) userId limit) ∧
    (allActivity db workOf userId).Nodup ∧
    (((allActivity db workOf userId).map ProfileActivity.at_).Nodup →
      latestActivity (activityLoansOf db workOf userId limit)
          (addedCopiesDaysOf db userId limit) userId limit =
        newest ProfileActivity.at_ limit (allActivity db workOf userId)) := by
  have hnewest : IsNewest ProfileActivity.at_ limit (allActivity db workOf userId)
      (newest ProfileActivity.at_ limit (readActivity db workOf userId limit)) := by
    refine isNewest_of_part (nodup_allActivity db workOf userId)
      (nodup_readActivity db workOf userId limit) readActivity_subset fun line hline hnot => ?_
    rcases List.mem_append.mp hline with hline | hline
    · obtain ⟨l, hl, hline⟩ := List.mem_flatMap.mp hline
      exact missing_step hl hline hnot
    · obtain ⟨day, hday, rfl⟩ := List.mem_map.mp hline
      exact missing_day hday hnot
  exact ⟨hnewest, nodup_allActivity db workOf userId,
    fun hkeys => hnewest.unique hkeys (newest_isNewest _ _ _)⟩

end Bookswap
