import Bookswap.Guarantees.ResourceAnswers

/-!
# The answers that a resource has had

`answers`: which requests have answered, and how. Only an answer adds to it; the frames say what the
other callbacks leave alone.
-/

namespace Bookswap

namespace UseResource

variable {α : Type} {s : UseResource α}

/-- The requests that have answered, with their answers. -/
def answers (s : UseResource α) : List (Nat × Except String α) :=
  s.runs.filterMap fun run => run.load.outcome.map fun outcome => (run.id, outcome)

theorem mem_answers {k : Nat} {outcome : Except String α} :
    (k, outcome) ∈ s.answers ↔ ∃ run ∈ s.runs, run.id = k ∧ run.load.outcome = some outcome := by
  unfold answers
  rw [List.mem_filterMap]
  constructor
  · rintro ⟨run, hrun, hout⟩
    obtain ⟨o, ho, heq⟩ := Option.map_eq_some_iff.mp hout
    cases heq
    exact ⟨run, hrun, rfl, ho⟩
  · rintro ⟨run, hrun, rfl, hout⟩
    exact ⟨run, hrun, by rw [hout]; rfl⟩

theorem answers_cleanEffect : s.cleanEffect.answers = s.answers := by
  unfold cleanEffect
  split
  · rfl
  · next run rest hruns =>
    unfold answers
    rw [hruns]
    rfl

theorem answers_runEffect : s.runEffect.answers = s.answers := rfl

/-- What the effects of a commit leave alone. -/
theorem flushed_frame (s : UseResource α) (strict : Bool) :
    (s.flushed strict).answers = s.answers ∧ (s.flushed strict).visible = s.visible ∧
      (s.flushed strict).alive = s.alive ∧ (s.flushed strict).effectPending = false := by
  unfold flushed
  dsimp only
  split
  · split
    · obtain ⟨runs, pending, heq⟩ :=
        cleanEffect_eq ({ s with effectPending := false }.runEffect.mountQueue)
      have hanswers : ({ s with effectPending := false } : UseResource α).runEffect.mountQueue.cleanEffect.answers = s.answers :=
        answers_cleanEffect
      rw [heq] at hanswers ⊢
      exact ⟨hanswers, rfl, rfl, rfl⟩
    · exact ⟨rfl, rfl, rfl, rfl⟩
  · obtain ⟨runs, pending, heq⟩ := cleanEffect_eq { s with effectPending := false }
    have hanswers : ({ s with effectPending := false } : UseResource α).cleanEffect.answers = s.answers :=
      answers_cleanEffect
    rw [heq] at hanswers ⊢
    exact ⟨hanswers, rfl, rfl, rfl⟩

theorem unmounted_frame (s : UseResource α) : s.unmounted.answers = s.answers ∧
    s.unmounted.visible = s.visible ∧ s.unmounted.alive = false := by
  obtain ⟨runs, pending, heq⟩ := cleanEffect_eq s
  have hanswers : s.cleanEffect.answers = s.answers := answers_cleanEffect
  unfold unmounted
  rw [heq] at hanswers ⊢
  exact ⟨hanswers, rfl, rfl⟩

theorem reloaded_frame (s : UseResource α) : s.reloaded.runs = s.runs ∧
    s.reloaded.visible = s.visible ∧ s.reloaded.alive = s.alive := by
  unfold reloaded
  dsimp only
  split
  · exact ⟨rfl, rfl, rfl⟩
  · exact ⟨rfl, rfl, rfl⟩

/-- An edit of one run that keeps its id, and its answer if it has one. -/
theorem mem_answers_edited (h : TidyRuns s.runs s.tracked.2) {run : EffectRun α}
    (hrun : run ∈ s.runs) {f : EffectRun α → EffectRun α} (hid : (f run).id = run.id)
    {runs : List (EffectRun α)}
    (hruns : runs = s.runs.map fun r => if r.id = run.id then f r else r) {k : Nat}
    {outcome : Except String α} :
    (∃ r ∈ runs, r.id = k ∧ r.load.outcome = some outcome) ↔
      if k = run.id then (f run).load.outcome = some outcome else (k, outcome) ∈ s.answers := by
  subst hruns
  constructor
  · rintro ⟨r', hr', rfl, hout⟩
    obtain ⟨r, hr, rfl⟩ := List.mem_map.mp hr'
    by_cases hsame : r.id = run.id
    · obtain rfl := h.unique hr hrun hsame
      rw [if_pos rfl] at hout ⊢
      rw [if_pos hid]
      exact hout
    · rw [if_neg hsame] at hout ⊢
      rw [if_neg hsame]
      exact mem_answers.mpr ⟨r, hr, rfl, hout⟩
  · intro hmem
    by_cases hk : k = run.id
    · rw [if_pos hk] at hmem
      exact ⟨f run, List.mem_map.mpr ⟨run, hrun, if_pos rfl⟩, hid.trans hk.symm, hmem⟩
    · rw [if_neg hk] at hmem
      obtain ⟨r, hr, rfl, hout⟩ := mem_answers.mp hmem
      exact ⟨r, List.mem_map.mpr ⟨r, hr, if_neg hk⟩, rfl, hout⟩

theorem mem_answers_answered (h : TidyRuns s.runs s.tracked.2) {run : EffectRun α}
    (hrun : run ∈ s.runs) (hload : run.load = .running) {new : Except String α} {k : Nat}
    {outcome : Except String α} :
    (k, outcome) ∈ (s.answered run new).answers ↔
      (k = run.id ∧ outcome = new) ∨ (k, outcome) ∈ s.answers := by
  refine mem_answers.trans ((mem_answers_edited h hrun
    (f := fun r => { r with load := .answered new }) rfl rfl).trans ?_)
  by_cases hk : k = run.id
  · rw [if_pos hk]
    have hnot : (k, outcome) ∉ s.answers := by
      intro hmem
      obtain ⟨r, hr, hid, hout⟩ := mem_answers.mp hmem
      obtain rfl := h.unique hr hrun (hid.trans hk)
      rw [hload] at hout
      cases hout
    constructor
    · exact fun hout => Or.inl ⟨hk, (Option.some.inj hout).symm⟩
    · rintro (⟨-, rfl⟩ | hmem)
      · rfl
      · exact absurd hmem hnot
  · rw [if_neg hk]
    exact ⟨Or.inr, fun hmem => hmem.resolve_left fun hk' => hk hk'.1⟩

theorem mem_answers_settled (h : TidyRuns s.runs s.tracked.2) {run : EffectRun α}
    (hrun : run ∈ s.runs) {new : Except String α} (hload : run.load = .answered new) {k : Nat}
    {outcome : Except String α} :
    (k, outcome) ∈ (s.settled run new).answers ↔ (k, outcome) ∈ s.answers := by
  have hsame : k = run.id → ((k, outcome) ∈ s.answers ↔ some new = some outcome) := by
    rintro rfl
    rw [mem_answers]
    constructor
    · rintro ⟨r, hr, hid, hout⟩
      obtain rfl := h.unique hr hrun hid
      rw [← hout, hload]
      rfl
    · exact fun hout => ⟨run, hrun, rfl, by rw [hload]; exact hout⟩
  unfold settled
  split
  · refine mem_answers.trans ((mem_answers_edited h hrun
      (f := fun r => { r with load := .settled new }) rfl rfl).trans ?_)
    by_cases hk : k = run.id
    · rw [if_pos hk, hsame hk]
      rfl
    · rw [if_neg hk]
  · refine mem_answers.trans ((mem_answers_edited h hrun
      (f := fun r => { r with load := .settled new, claimed := [] }) rfl rfl).trans ?_)
    by_cases hk : k = run.id
    · rw [if_pos hk, hsame hk]
      rfl
    · rw [if_neg hk]

theorem settled_frame (s : UseResource α) (run : EffectRun α) (outcome : Except String α) :
    (s.settled run outcome).visible = s.visible ∧ (s.settled run outcome).alive = s.alive := by
  unfold settled
  split
  · exact ⟨rfl, rfl⟩
  · exact ⟨rfl, rfl⟩

/-- A `ready` that is visible is the answer to the request started last. -/
theorem visible_ready (h : (useApiResource α).Reachable s) (halive : s.alive = true) {data : α}
    (hvisible : s.visible = .ready data) : ∃ run rest, s.runs = run :: rest ∧
      run.load.outcome = some (.ok data) := by
  obtain ⟨run, rest, outcome, hruns, -, hout, hstate⟩ :=
    (reachable_coherent h).visible_asks halive (by rw [hvisible]; exact fun h => nomatch h)
  refine ⟨run, rest, hruns, hout.trans (congrArg some ?_)⟩
  rw [hvisible] at hstate
  cases outcome with
  | ok x => cases hstate; rfl
  | error message => cases hstate

end UseResource

end Bookswap
