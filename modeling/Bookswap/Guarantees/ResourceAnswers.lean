import Mathlib.Data.List.Perm.Basic
import Mathlib.Data.List.Nodup
import Bookswap.Web.UseResource

/-!
# A resource shows its own answer and keeps its waiters

At most one run of the effect is not superseded, the newest; it alone holds waiters and may leave
a snapshot. A new generation and a new run go together, so a snapshot of the current generation is
the newest run's.

- `Tidy`: what every part of a step keeps; `Coherent`: what every step keeps.
- `resource_answers`: the claim about every reachable state.
-/

namespace Bookswap

namespace UseResource

variable {α : Type} {s : UseResource α}

/-! ## Runs of the effect -/

/-- The waiters that are not resolved: in the queue, or claimed by a run. -/
def waiting (s : UseResource α) : List Waiter := s.queue.pending ++ s.runs.flatMap EffectRun.claimed

/-- The snapshot was left by a run, and no later run is of its generation. -/
def LeftBy (runs : List (EffectRun α)) (snapshot : ResourceSnapshot α) : Prop :=
  ∃ run ∈ runs, run.key = snapshot.key ∧ run.generation = snapshot.generation ∧
    (∃ outcome, run.load.outcome = some outcome ∧ snapshot.state = stateOf outcome) ∧
    ∀ other ∈ runs, run.id < other.id → run.generation < other.generation

/-- A waiter was resolved by a request that started after its call and has answered, or because
the component was unmounted. -/
def ResolvedRightly (s : UseResource α) (w : Waiter) : ResolvedBy → Prop
  | .request id => w.before ≤ id ∧ ∃ run ∈ s.runs, run.id = id ∧ run.load.outcome ≠ none
  | .unmount => 0 < s.unmounts

/-- What holds of the runs alone. -/
structure TidyRuns (runs : List (EffectRun α)) (generation : Nat) : Prop where
  ids : runs.map EffectRun.id = (List.range runs.length).reverse
  older : ∀ run ∈ runs.tail, run.superseded = true
  superseded : ∀ run ∈ runs, run.superseded = true → run.claimed = []
  settled : ∀ run ∈ runs, ∀ outcome, run.load = .settled outcome → run.claimed = []
  claimed : ∀ run ∈ runs, ∀ w ∈ run.claimed, w.before ≤ run.id
  generations : ∀ run ∈ runs, run.generation ≤ generation

/-- What every part of a step keeps. -/
structure Tidy (s : UseResource α) : Prop where
  key : s.tracked.1 = requestKey s.nonce s.inputs
  runs : TidyRuns s.runs s.tracked.2
  before : ∀ w ∈ s.queue.pending, w.before ≤ s.runs.length
  snapshot : ∀ snapshot, s.snapshot = some snapshot → LeftBy s.runs snapshot
  queued : ∀ snapshot, s.queuedSnapshot = some snapshot → LeftBy s.runs snapshot
  once : (s.waiting ++ s.resolved.map Prod.fst).Perm s.issued
  issued : s.issued.map Waiter.id = List.range s.issued.length
  resolved : ∀ x ∈ s.resolved, s.ResolvedRightly x.1 x.2
  unmounted : s.queue.mounted = false → 0 < s.unmounts

variable {runs : List (EffectRun α)} {run : EffectRun α} {generation : Nat}

theorem TidyRuns.id_lt (h : TidyRuns runs generation) (hrun : run ∈ runs) :
    run.id < runs.length := by
  have hmem := List.mem_map_of_mem (f := EffectRun.id) hrun
  rw [h.ids, List.mem_reverse, List.mem_range] at hmem
  exact hmem

theorem TidyRuns.unique (h : TidyRuns runs generation) {other : EffectRun α} (hrun : run ∈ runs)
    (hother : other ∈ runs) (hid : run.id = other.id) : run = other := by
  refine List.inj_on_of_nodup_map ?_ hrun hother hid
  rw [h.ids]
  exact List.nodup_reverse.mpr List.nodup_range

/-- The run that is not superseded is the newest. -/
theorem TidyRuns.newest (h : TidyRuns runs generation) (hrun : run ∈ runs)
    (hsup : run.superseded = false) : ∃ rest, runs = run :: rest := by
  cases runs with
  | nil => cases hrun
  | cons head rest =>
    rcases List.mem_cons.mp hrun with rfl | hrest
    · exact ⟨rest, rfl⟩
    · have := h.older run hrest
      rw [hsup] at this
      cases this

/-- The newest run has the greatest id. -/
theorem TidyRuns.id_head {rest : List (EffectRun α)} (h : TidyRuns (run :: rest) generation) :
    run.id = rest.length := by
  have hids := h.ids
  rw [List.map_cons, List.length_cons, List.range_succ, List.reverse_append, List.reverse_singleton,
    List.singleton_append, List.cons.injEq] at hids
  exact hids.1

/-- Only the newest run has claimed waiters. -/
theorem TidyRuns.flatMap_claimed {rest : List (EffectRun α)}
    (h : TidyRuns (run :: rest) generation) :
    (run :: rest).flatMap EffectRun.claimed = run.claimed := by
  rw [List.flatMap_cons, List.flatMap_eq_nil_iff.mpr fun r hr => ?_, List.append_nil]
  exact h.superseded r (List.mem_cons_of_mem _ hr) (h.older r hr)

/-! ## Runs that go on -/

/-- A run that goes on: it may answer, settle, be superseded, and let go of its waiters. -/
structure RunGrows (r r' : EffectRun α) : Prop where
  id : r'.id = r.id
  key : r'.key = r.key
  generation : r'.generation = r.generation
  superseded : r.superseded = true → r'.superseded = true
  claimed : r'.claimed ⊆ r.claimed
  let_go : r'.superseded = true → r'.claimed = []
  settled : ∀ outcome, r'.load = .settled outcome → r'.claimed = []
  outcome : ∀ outcome, r.load.outcome = some outcome → r'.load.outcome = some outcome

/-- A run that is left alone. -/
theorem TidyRuns.same (h : TidyRuns runs generation) (hrun : run ∈ runs) : RunGrows run run :=
  ⟨rfl, rfl, rfl, fun hs => hs, List.Subset.refl _, h.superseded run hrun, h.settled run hrun,
    fun _ ho => ho⟩

theorem map_id_of_grows {runs' : List (EffectRun α)} (h : List.Forall₂ RunGrows runs runs') :
    runs'.map EffectRun.id = runs.map EffectRun.id := by
  induction h with
  | nil => rfl
  | cons hr _ ih => rw [List.map_cons, List.map_cons, hr.id, ih]

theorem exists_of_grows {runs' : List (EffectRun α)} (h : List.Forall₂ RunGrows runs runs')
    {r' : EffectRun α} (hr : r' ∈ runs') : ∃ r ∈ runs, RunGrows r r' := by
  induction h with
  | nil => cases hr
  | cons hhead _ ih =>
    rcases List.mem_cons.mp hr with rfl | hr
    · exact ⟨_, List.mem_cons_self, hhead⟩
    · obtain ⟨r, hmem, hgrows⟩ := ih hr
      exact ⟨r, List.mem_cons_of_mem _ hmem, hgrows⟩

theorem exists_grown {runs' : List (EffectRun α)} (h : List.Forall₂ RunGrows runs runs')
    {r : EffectRun α} (hr : r ∈ runs) : ∃ r' ∈ runs', RunGrows r r' := by
  induction h with
  | nil => cases hr
  | cons hhead _ ih =>
    rcases List.mem_cons.mp hr with rfl | hr
    · exact ⟨_, List.mem_cons_self, hhead⟩
    · obtain ⟨r', hmem, hgrows⟩ := ih hr
      exact ⟨r', List.mem_cons_of_mem _ hmem, hgrows⟩

theorem TidyRuns.grow {runs' : List (EffectRun α)} (h : TidyRuns runs generation)
    (hgrows : List.Forall₂ RunGrows runs runs') : TidyRuns runs' generation := by
  constructor
  case ids => rw [map_id_of_grows hgrows, ← hgrows.length_eq, h.ids]
  case older =>
    intro r' hr
    have htail : List.Forall₂ RunGrows runs.tail runs'.tail := by
      cases hgrows with
      | nil => exact .nil
      | cons _ htail => exact htail
    obtain ⟨r, hmem, hr⟩ := exists_of_grows htail hr
    exact hr.superseded (h.older r hmem)
  case superseded =>
    intro r' hr
    obtain ⟨r, hmem, hr⟩ := exists_of_grows hgrows hr
    exact hr.let_go
  case settled =>
    intro r' hr
    obtain ⟨r, hmem, hr⟩ := exists_of_grows hgrows hr
    exact hr.settled
  case claimed =>
    intro r' hr w hw
    obtain ⟨r, hmem, hr⟩ := exists_of_grows hgrows hr
    rw [hr.id]
    exact h.claimed r hmem w (hr.claimed hw)
  case generations =>
    intro r' hr
    obtain ⟨r, hmem, hr⟩ := exists_of_grows hgrows hr
    rw [hr.generation]
    exact h.generations r hmem

theorem LeftBy.grow {runs' : List (EffectRun α)} {snapshot : ResourceSnapshot α}
    (h : LeftBy runs snapshot) (hgrows : List.Forall₂ RunGrows runs runs') :
    LeftBy runs' snapshot := by
  obtain ⟨run, hrun, hkey, hgen, ⟨outcome, hout, hstate⟩, hlast⟩ := h
  obtain ⟨run', hrun', hgrown⟩ := exists_grown hgrows hrun
  refine ⟨run', hrun', hgrown.key.trans hkey, hgrown.generation.trans hgen,
    ⟨outcome, hgrown.outcome outcome hout, hstate⟩, fun other' hother' hlt => ?_⟩
  obtain ⟨other, hother, hsame⟩ := exists_of_grows hgrows hother'
  rw [hgrown.generation, hsame.generation]
  exact hlast other hother (by rwa [hgrown.id, hsame.id] at hlt)

theorem ResolvedRightly.grow {s' : UseResource α} {w : Waiter} {cause : ResolvedBy}
    (h : s.ResolvedRightly w cause) (hgrows : List.Forall₂ RunGrows s.runs s'.runs)
    (hunmounts : s.unmounts ≤ s'.unmounts) : s'.ResolvedRightly w cause := by
  cases cause with
  | unmount => exact Nat.lt_of_lt_of_le h hunmounts
  | request id =>
    obtain ⟨hbefore, run, hrun, hid, hout⟩ := h
    obtain ⟨run', hrun', hgrown⟩ := exists_grown hgrows hrun
    obtain ⟨outcome, hout⟩ := Option.ne_none_iff_exists'.mp hout
    refine ⟨hbefore, run', hrun', hgrown.id.trans hid, ?_⟩
    rw [hgrown.outcome outcome hout]
    exact Option.some_ne_none _

/-- An edit of the run whose callback it is. -/
theorem TidyRuns.edited (h : TidyRuns runs generation) (hrun : run ∈ runs)
    {f : EffectRun α → EffectRun α} (hf : RunGrows run (f run)) :
    List.Forall₂ RunGrows runs (runs.map fun r => if r.id = run.id then f r else r) := by
  rw [List.forall₂_map_right_iff, List.forall₂_same]
  intro r hr
  by_cases hid : r.id = run.id
  · obtain rfl := h.unique hr hrun hid
    rw [if_pos rfl]
    exact hf
  · rw [if_neg hid]
    exact h.same hr

/-! ## The parts of a step -/

/-- **The clean-up** gives the waiters back, and supersedes the run. -/
theorem Tidy.cleanEffect (h : s.Tidy) : s.cleanEffect.Tidy ∧
    (∀ run ∈ s.cleanEffect.runs, run.superseded = true) ∧
    List.Forall₂ RunGrows s.runs s.cleanEffect.runs := by
  unfold UseResource.cleanEffect
  split
  · next hnone =>
    refine ⟨h, fun run hrun => ?_, ?_⟩
    · rw [hnone] at hrun
      cases hrun
    · rw [hnone]
      exact .nil
  · next run rest hruns =>
    have hr := h.runs
    rw [hruns] at hr
    have hgrown : RunGrows run { run with superseded := true, claimed := [] } :=
      ⟨rfl, rfl, rfl, fun _ => rfl, List.nil_subset _, fun _ => rfl, fun _ _ => rfl, fun _ ho => ho⟩
    have hgrows : List.Forall₂ RunGrows s.runs
        ({ run with superseded := true, claimed := [] } :: rest) := by
      rw [hruns]
      exact .cons hgrown (List.forall₂_same.mpr fun r hmem => hr.same (List.mem_cons_of_mem _ hmem))
    refine ⟨?_, fun r hmem => ?_, hgrows⟩
    · constructor
      case key => exact h.key
      case runs => exact h.runs.grow hgrows
      case before =>
        intro w hw
        show w.before ≤ rest.length + 1
        rcases List.mem_append.mp hw with hw | hw
        · have hle := hr.claimed run List.mem_cons_self w hw
          rw [hr.id_head] at hle
          omega
        · have hle := h.before w hw
          rw [hruns] at hle
          exact hle
      case snapshot => exact fun x hx => (h.snapshot x hx).grow hgrows
      case queued => exact fun x hx => (h.queued x hx).grow hgrows
      case once =>
        refine List.Perm.trans (List.Perm.append_right _ ?_) h.once
        have hrest : rest.flatMap EffectRun.claimed = [] :=
          List.flatMap_eq_nil_iff.mpr fun r hmem =>
            hr.superseded r (List.mem_cons_of_mem _ hmem) (hr.older r hmem)
        show ((run.claimed ++ s.queue.pending) ++ (_ :: rest).flatMap EffectRun.claimed).Perm _
        rw [waiting, hruns, List.flatMap_cons, List.flatMap_cons, hrest, List.append_nil,
          List.append_nil, List.append_nil]
        exact List.perm_append_comm
      case issued => exact h.issued
      case resolved => exact fun x hx => (h.resolved x hx).grow hgrows (Nat.le_refl _)
      case unmounted => exact h.unmounted
    · rcases List.mem_cons.mp hmem with rfl | hmem
      · rfl
      · exact hr.older r hmem

/-- **A run begins**, when no other goes on and no snapshot is of its generation. -/
theorem Tidy.runEffect (h : s.Tidy) (hsup : ∀ run ∈ s.runs, run.superseded = true)
    (hnew : ∀ x, s.snapshot = some x ∨ s.queuedSnapshot = some x → x.generation < s.tracked.2) :
    s.runEffect.Tidy := by
  have hleft : ∀ {x}, LeftBy s.runs x → x.generation < s.tracked.2 → LeftBy s.runEffect.runs x := by
    rintro x ⟨run, hrun, hkey, hgen, hout, hlast⟩ hlt
    refine ⟨run, List.mem_cons_of_mem _ hrun, hkey, hgen, hout, fun other hother hid => ?_⟩
    rcases List.mem_cons.mp hother with rfl | hother
    · show run.generation < s.tracked.2
      rw [hgen]
      exact hlt
    · exact hlast other hother hid
  constructor
  case key => exact h.key
  case runs =>
    constructor
    case ids =>
      show s.runs.length :: s.runs.map EffectRun.id = _
      rw [h.runs.ids]
      show _ = (List.range (s.runs.length + 1)).reverse
      rw [List.range_succ, List.reverse_append]
      rfl
    case older => exact hsup
    case superseded =>
      intro run hrun hs
      rcases List.mem_cons.mp hrun with rfl | hrun
      · cases hs
      · exact h.runs.superseded run hrun hs
    case settled =>
      intro run hrun outcome hload
      rcases List.mem_cons.mp hrun with rfl | hrun
      · cases hload
      · exact h.runs.settled run hrun outcome hload
    case claimed =>
      intro run hrun w hw
      rcases List.mem_cons.mp hrun with rfl | hrun
      · exact h.before w hw
      · exact h.runs.claimed run hrun w hw
    case generations =>
      intro run hrun
      rcases List.mem_cons.mp hrun with rfl | hrun
      · exact Nat.le_refl _
      · exact h.runs.generations run hrun
  case before => exact fun w hw => nomatch hw
  case snapshot => exact fun x hx => hleft (h.snapshot x hx) (hnew x (.inl hx))
  case queued => exact fun x hx => hleft (h.queued x hx) (hnew x (.inr hx))
  case once => exact h.once
  case issued => exact h.issued
  case resolved =>
    intro x hx
    have hright := h.resolved x hx
    generalize x.2 = cause at hright ⊢
    cases cause with
    | unmount => exact hright
    | request id =>
      obtain ⟨hbefore, run, hrun, hid⟩ := hright
      exact ⟨hbefore, run, List.mem_cons_of_mem _ hrun, hid⟩
  case unmounted => exact h.unmounted

theorem Tidy.mountQueue (h : s.Tidy) : s.mountQueue.Tidy :=
  ⟨h.key, h.runs, h.before, h.snapshot, h.queued, h.once, h.issued, h.resolved,
    fun hm => (nomatch hm)⟩

/-- **The queue's clean-up** resolves everybody in it. -/
theorem Tidy.unmountQueue (h : s.Tidy) : s.unmountQueue.Tidy := by
  constructor
  case key => exact h.key
  case runs => exact h.runs
  case before => exact fun w hw => nomatch hw
  case snapshot => exact h.snapshot
  case queued => exact h.queued
  case once =>
    refine List.Perm.trans ?_ h.once
    show ((([] : List Waiter) ++ s.runs.flatMap EffectRun.claimed) ++
      (s.resolved ++ s.queue.pending.map fun w => (w, ResolvedBy.unmount)).map Prod.fst).Perm _
    have hfst : (s.queue.pending.map fun w => (w, ResolvedBy.unmount)).map Prod.fst =
        s.queue.pending := by
      rw [List.map_map]
      exact List.map_id _
    rw [List.nil_append, List.map_append, hfst, waiting]
    rw [← List.append_assoc, List.append_assoc s.queue.pending]
    exact List.perm_append_comm
  case issued => exact h.issued
  case resolved =>
    intro x hx
    rcases List.mem_append.mp hx with hx | hx
    · exact (h.resolved x hx).grow (List.forall₂_same.mpr fun r hr => h.runs.same hr)
        (Nat.le_succ _)
    · obtain ⟨w, -, rfl⟩ := List.mem_map.mp hx
      exact Nat.succ_pos _
  case unmounted => exact fun _ => Nat.succ_pos _

/-! ## The callbacks -/

theorem Tidy.reloaded (h : s.Tidy) : s.reloaded.Tidy := by
  let new : Waiter := ⟨s.issued.length, s.runs.length⟩
  have hids : (s.issued ++ [new]).map Waiter.id = List.range (s.issued ++ [new]).length :=
    calc (s.issued ++ [new]).map Waiter.id
      _ = List.range s.issued.length ++ [s.issued.length] :=
        List.map_append.trans (congrArg (· ++ [s.issued.length]) h.issued)
      _ = List.range (s.issued.length + 1) := List.range_succ.symm
      _ = List.range (s.issued ++ [new]).length := by
        rw [List.length_append, List.length_singleton]
  have hrefl : List.Forall₂ RunGrows s.runs s.runs :=
    List.forall₂_same.mpr fun r hr => h.runs.same hr
  unfold UseResource.reloaded
  dsimp only
  split
  · refine ⟨h.key, h.runs, fun w hw => ?_, h.snapshot, h.queued, ?_, hids, fun x hx =>
      (h.resolved x hx).grow hrefl (Nat.le_refl _), h.unmounted⟩
    · rcases List.mem_append.mp hw with hw | hw
      · exact h.before w hw
      · obtain rfl := List.mem_singleton.mp hw
        exact Nat.le_refl s.runs.length
    · -- the new waiter stands between the others
      refine List.Perm.trans ?_ (h.once.append_right _)
      show (((s.queue.pending ++ [new]) ++ _) ++ _).Perm _
      rw [waiting, List.append_assoc, List.append_assoc, List.append_assoc, List.append_assoc]
      refine List.Perm.append_left _ ?_
      rw [← List.append_assoc _ _ [new]]
      exact List.perm_append_comm
  · next hmounted =>
    refine ⟨h.key, h.runs, h.before, h.snapshot, h.queued, ?_, hids, fun x hx => ?_, h.unmounted⟩
    · show (s.waiting ++ (s.resolved ++ [(new, _)]).map Prod.fst).Perm _
      rw [List.map_append, ← List.append_assoc]
      exact h.once.append_right _
    · rcases List.mem_append.mp hx with hx | hx
      · exact (h.resolved x hx).grow hrefl (Nat.le_refl _)
      · rw [List.mem_singleton.mp hx]
        exact h.unmounted (Bool.eq_false_iff.mpr hmounted)

theorem Tidy.rendered (h : s.Tidy) (inputs : ResourceInputs) : (s.rendered inputs).Tidy := by
  have hrefl : List.Forall₂ RunGrows s.runs s.runs :=
    List.forall₂_same.mpr fun r hr => h.runs.same hr
  have hle : s.tracked.2 ≤ (s.rendered inputs).tracked.2 := by
    show _ ≤ (if _ then _ else _ : String × Nat).2
    split
    · exact Nat.le_succ _
    · exact Nat.le_refl _
  constructor
  case key =>
    show (if _ then _ else _ : String × Nat).1 = _
    split
    · rfl
    · next hkey => exact not_not.mp hkey
  case runs =>
    exact { h.runs with generations := fun run hrun => Nat.le_trans (h.runs.generations run hrun) hle }
  case before => exact h.before
  case snapshot =>
    intro x hx
    have hx : (s.queuedSnapshot <|> s.snapshot) = some x := hx
    cases hq : s.queuedSnapshot with
    | none =>
      rw [hq] at hx
      exact h.snapshot x hx
    | some y =>
      rw [hq] at hx
      exact h.queued x (hq.trans hx)
  case queued => exact fun x hx => nomatch hx
  case once => exact h.once
  case issued => exact h.issued
  case resolved => exact fun x hx => (h.resolved x hx).grow hrefl (Nat.le_refl _)
  case unmounted => exact h.unmounted

/-- **An answer** leaves a snapshot of the newest run, or none. -/
theorem Tidy.answered (h : s.Tidy) {run : EffectRun α} (hrun : run ∈ s.runs)
    (hload : run.load = .running) (outcome : Except String α) : (s.answered run outcome).Tidy := by
  have hgrown : RunGrows run { run with load := .answered outcome } := by
    refine ⟨rfl, rfl, rfl, fun hs => hs, List.Subset.refl _, h.runs.superseded run hrun,
      fun o ho => (nomatch ho), fun o ho => ?_⟩
    rw [hload] at ho
    cases ho
  have hgrows := h.runs.edited hrun (f := fun r => { r with load := .answered outcome }) hgrown
  constructor
  case key => exact h.key
  case runs => exact h.runs.grow hgrows
  case before =>
    intro w hw
    show w.before ≤ (s.runs.map _).length
    rw [List.length_map]
    exact h.before w hw
  case snapshot => exact fun x hx => (h.snapshot x hx).grow hgrows
  case queued =>
    intro x hx
    have hx : (if _ then _ else _ : Option (ResourceSnapshot α)) = some x := hx
    split at hx
    · exact (h.queued x hx).grow hgrows
    · next hlive =>
      obtain rfl := Option.some.inj hx
      rw [not_or] at hlive
      have hsup : run.superseded = false := Bool.eq_false_iff.mpr hlive.1
      obtain ⟨rest, hruns⟩ := h.runs.newest hrun hsup
      obtain ⟨run', hrun', -⟩ := exists_grown hgrows hrun
      refine ⟨{ run with load := .answered outcome }, ?_, rfl, rfl, ⟨outcome, rfl, rfl⟩, ?_⟩
      · exact List.mem_map.mpr ⟨run, hrun, if_pos rfl⟩
      · intro other' hother' hlt
        obtain ⟨other, hother, hsame⟩ := exists_of_grows hgrows hother'
        have hbound := h.runs.id_lt hother
        have hr := h.runs
        rw [hruns] at hr
        have hid := hr.id_head
        rw [hruns, List.length_cons] at hbound
        have hlt : run.id < other'.id := hlt
        rw [hsame.id] at hlt
        omega
  case once =>
    refine List.Perm.trans (List.Perm.append_right _ ?_) h.once
    show (s.queue.pending ++ (s.runs.map _).flatMap EffectRun.claimed).Perm _
    rw [List.flatMap_map, waiting]
    refine List.Perm.of_eq (congrArg _ (List.flatMap_congr fun r _ => ?_))
    split <;> rfl
  case issued => exact h.issued
  case resolved => exact fun x hx => (h.resolved x hx).grow hgrows (Nat.le_refl _)
  case unmounted => exact h.unmounted

/-- **finally** resolves what the newest run has claimed. -/
theorem Tidy.settled (h : s.Tidy) {run : EffectRun α} (hrun : run ∈ s.runs)
    {outcome : Except String α} (hload : run.load = .answered outcome) :
    (s.settled run outcome).Tidy := by
  have hout : ∀ o, run.load.outcome = some o → outcome = o := by
    intro o ho
    rw [hload] at ho
    exact Option.some.inj ho
  unfold UseResource.settled
  split
  · next hsup =>
    have hnone := h.runs.superseded run hrun hsup
    have hgrown : RunGrows run { run with load := .settled outcome } :=
      ⟨rfl, rfl, rfl, fun hs => hs, List.Subset.refl _, fun _ => hnone, fun _ _ => hnone,
        fun o ho => congrArg some (hout o ho)⟩
    have hgrows := h.runs.edited hrun (f := fun r => { r with load := .settled outcome }) hgrown
    constructor
    case key => exact h.key
    case runs => exact h.runs.grow hgrows
    case before =>
      intro w hw
      show w.before ≤ (s.runs.map _).length
      rw [List.length_map]
      exact h.before w hw
    case snapshot => exact fun x hx => (h.snapshot x hx).grow hgrows
    case queued => exact fun x hx => (h.queued x hx).grow hgrows
    case once =>
      refine List.Perm.trans (List.Perm.append_right _ ?_) h.once
      show (s.queue.pending ++ (s.runs.map _).flatMap EffectRun.claimed).Perm _
      rw [List.flatMap_map, waiting]
      refine List.Perm.of_eq (congrArg _ (List.flatMap_congr fun r _ => ?_))
      split <;> rfl
    case issued => exact h.issued
    case resolved => exact fun x hx => (h.resolved x hx).grow hgrows (Nat.le_refl _)
    case unmounted => exact h.unmounted
  · next hlive =>
    have hgrown : RunGrows run { run with load := .settled outcome, claimed := [] } :=
      ⟨rfl, rfl, rfl, fun hs => hs, List.nil_subset _, fun _ => rfl, fun _ _ => rfl,
        fun o ho => congrArg some (hout o ho)⟩
    have hgrows := h.runs.edited hrun
      (f := fun r => { r with load := .settled outcome, claimed := [] }) hgrown
    obtain ⟨rest, hruns⟩ := h.runs.newest hrun (Bool.eq_false_iff.mpr hlive)
    constructor
    case key => exact h.key
    case runs => exact h.runs.grow hgrows
    case before =>
      intro w hw
      show w.before ≤ (s.runs.map _).length
      rw [List.length_map]
      exact h.before w hw
    case snapshot => exact fun x hx => (h.snapshot x hx).grow hgrows
    case queued => exact fun x hx => (h.queued x hx).grow hgrows
    case once =>
      refine List.Perm.trans ?_ h.once
      have hempty : (s.runs.map fun r =>
          if r.id = run.id then { r with load := .settled outcome, claimed := [] } else r).flatMap
            EffectRun.claimed = [] := by
        refine List.flatMap_eq_nil_iff.mpr fun r' hr' => ?_
        obtain ⟨r, hr, rfl⟩ := List.mem_map.mp hr'
        by_cases hid : r.id = run.id
        · rw [if_pos hid]
        · rw [if_neg hid]
          refine h.runs.superseded r hr ?_
          rw [hruns] at hr
          rcases List.mem_cons.mp hr with rfl | hrest
          · exact absurd rfl hid
          · have := h.runs.older r
            rw [hruns] at this
            exact this hrest
      have hfst : (run.claimed.map fun w => (w, ResolvedBy.request run.id)).map Prod.fst =
          run.claimed := by
        rw [List.map_map]
        exact List.map_id _
      have hr := h.runs
      rw [hruns] at hr
      show ((s.queue.pending ++ _) ++ (s.resolved ++ _).map Prod.fst).Perm _
      rw [hempty, List.append_nil, List.map_append, hfst, waiting, hruns, hr.flatMap_claimed,
        List.append_assoc]
      exact List.Perm.append_left _ List.perm_append_comm
    case issued => exact h.issued
    case resolved =>
      intro x hx
      rcases List.mem_append.mp hx with hx | hx
      · exact (h.resolved x hx).grow hgrows (Nat.le_refl _)
      · obtain ⟨w, hw, rfl⟩ := List.mem_map.mp hx
        refine ⟨h.runs.claimed run hrun w hw, { run with load := .settled outcome, claimed := [] },
          List.mem_map.mpr ⟨run, hrun, if_pos rfl⟩, rfl, Option.some_ne_none _⟩
    case unmounted => exact h.unmounted

/-! ## A step -/

/-- The run asks what a render has. -/
structure Asks (tracked : String × Nat) (inputs : ResourceInputs) (run : EffectRun α) : Prop where
  live : run.superseded = false
  key : run.key = tracked.1
  generation : run.generation = tracked.2
  inputs : run.inputs = inputs

/-- What every step keeps. -/
structure Coherent (s : UseResource α) : Prop where
  tidy : s.Tidy
  mounted : s.queue.mounted = s.alive
  /-- Without pending effects the newest run asks for what is rendered. -/
  current : s.alive = true → s.effectPending = false →
    ∃ run rest, s.runs = run :: rest ∧ Asks s.tracked s.inputs run
  /-- With pending effects no run does. -/
  stale : s.effectPending = true → ∀ run ∈ s.runs, run.generation < s.tracked.2
  fresh : s.runs = [] → s.effectPending = true ∧ s.snapshot = none ∧ s.queuedSnapshot = none
  /-- Who waits in the queue waits for an effect. -/
  due : s.queue.pending ≠ [] → 0 < s.queuedReloads ∨ s.effectPending = true
  dead : s.alive = false → s.effectPending = false ∧ s.queue.pending = [] ∧
    ∀ run ∈ s.runs, run.claimed = []

theorem Coherent.initial (inputs : ResourceInputs) : (initial inputs : UseResource α).Coherent := by
  have hruns : TidyRuns ([] : List (EffectRun α)) 1 := by
    constructor
    case ids => rfl
    all_goals exact fun run hrun => nomatch hrun
  refine ⟨⟨rfl, hruns, ?_, ?_, ?_, .nil, rfl, ?_, ?_⟩, rfl, ?_, ?_, ?_, ?_, ?_⟩
  · exact fun w hw => nomatch hw
  · exact fun x hx => nomatch hx
  · exact fun x hx => nomatch hx
  · exact fun x hx => nomatch hx
  · exact fun hm => nomatch hm
  · exact fun _ hp => nomatch hp
  · exact fun _ run hrun => nomatch hrun
  · exact fun _ => ⟨rfl, rfl, rfl⟩
  · exact fun hne => absurd rfl hne
  · exact fun ha => nomatch ha

/-- A render that changes nothing that is asked leaves the generation; any other begins one. -/
theorem Tidy.rendered_cases (h : s.Tidy) (inputs : ResourceInputs) :
    (s.queuedReloads = 0 ∧ (s.rendered inputs).inputs = s.inputs ∧
      (s.rendered inputs).tracked = s.tracked ∧ (s.rendered inputs).effectPending = false) ∨
    ((s.rendered inputs).tracked.2 = s.tracked.2 + 1 ∧
      (s.rendered inputs).effectPending = true) := by
  by_cases hkey : s.tracked.1 = requestKey (s.nonce + s.queuedReloads) inputs
  · obtain ⟨hnonce, hinputs⟩ := requestKey_injective (h.key.symm.trans hkey)
    have htracked : (s.rendered inputs).tracked = s.tracked := if_neg (not_not.mpr hkey)
    refine Or.inl ⟨by omega, hinputs.symm, htracked, ?_⟩
    refine decide_eq_false (not_not.mpr ?_)
    rw [Prod.mk.injEq]
    exact ⟨htracked, hinputs.symm⟩
  · have htracked : (s.rendered inputs).tracked =
        (requestKey (s.nonce + s.queuedReloads) inputs, s.tracked.2 + 1) := if_pos hkey
    refine Or.inr ⟨congrArg Prod.snd htracked, decide_eq_true fun heq => ?_⟩
    have hsame := congrArg Prod.snd (htracked.symm.trans (Prod.mk.inj heq).1)
    exact absurd hsame (Nat.succ_ne_self _)

theorem Coherent.rendered (h : s.Coherent) (halive : s.alive = true)
    (hpending : s.effectPending = false) (inputs : ResourceInputs) :
    (s.rendered inputs).Coherent := by
  refine ⟨h.tidy.rendered inputs, h.mounted, fun _ hp => ?_, fun hp run hrun => ?_, fun hnone => ?_,
    fun hne => ?_, fun ha => ?_⟩
  · rcases h.tidy.rendered_cases inputs with ⟨-, hinputs, htracked, -⟩ | ⟨-, hp'⟩
    · obtain ⟨run, rest, hruns, hasks⟩ := h.current halive hpending
      exact ⟨run, rest, hruns, hasks.live, htracked ▸ hasks.key, htracked ▸ hasks.generation,
        hasks.inputs.trans hinputs.symm⟩
    · rw [hp] at hp'
      cases hp'
  · rcases h.tidy.rendered_cases inputs with ⟨-, -, -, hp'⟩ | ⟨hgen, -⟩
    · rw [hp] at hp'
      cases hp'
    · have hle := h.tidy.runs.generations run hrun
      omega
  · have hp := (h.fresh hnone).1
    rw [hpending] at hp
    cases hp
  · rcases h.tidy.rendered_cases inputs with ⟨hzero, -, -, -⟩ | ⟨-, hp⟩
    · rcases h.due hne with hpos | hp
      · omega
      · rw [hpending] at hp
        cases hp
    · exact Or.inr hp
  · exact absurd (halive.symm.trans ha) (by decide)

/-- After a run has begun, it is the newest and asks for what is rendered. -/
theorem Tidy.begun (h : s.Tidy) (hm : s.queue.mounted = true) (halive : s.alive = true)
    (hpending : s.effectPending = false) (hempty : s.queue.pending = [])
    {rest : List (EffectRun α)} (hruns : s.runs = run :: rest) (hasks : Asks s.tracked s.inputs run) :
    s.Coherent := by
  refine ⟨h, hm.trans halive.symm, fun _ _ => ⟨run, rest, hruns, hasks⟩, fun hp => ?_,
    fun hnone => ?_, fun hne => absurd hempty hne, fun ha => ?_⟩
  · exact absurd (hpending.symm.trans hp) (by decide)
  · exact nomatch hruns.symm.trans hnone
  · exact absurd (halive.symm.trans ha) (by decide)

theorem Tidy.setPending (h : s.Tidy) (b : Bool) : { s with effectPending := b }.Tidy :=
  ⟨h.key, h.runs, h.before, h.snapshot, h.queued, h.once, h.issued, h.resolved, h.unmounted⟩

/-- The clean-up touches the runs and the queue only. -/
theorem cleanEffect_eq (s : UseResource α) : ∃ runs pending,
    s.cleanEffect = { s with runs := runs, queue := ⟨pending, s.queue.mounted⟩ } := by
  unfold cleanEffect
  split
  · exact ⟨s.runs, s.queue.pending, rfl⟩
  · exact ⟨_, _, rfl⟩

/-- A snapshot's generation is a run's. -/
theorem Coherent.snapshot_stale (h : s.Coherent) (hpending : s.effectPending = true)
    {x : ResourceSnapshot α} (hx : s.snapshot = some x ∨ s.queuedSnapshot = some x) :
    x.generation < s.tracked.2 := by
  have hleft : LeftBy s.runs x := hx.elim (h.tidy.snapshot x) (h.tidy.queued x)
  obtain ⟨run, hrun, -, hgen, -⟩ := hleft
  rw [← hgen]
  exact h.stale hpending run hrun

/-- In strict mode the first run is superseded, and another begins. -/
theorem Tidy.remounted (h : s.Tidy) (halive : s.alive = true) (hpending : s.effectPending = false)
    (hno : ∀ x, s.snapshot = some x ∨ s.queuedSnapshot = some x → x.generation < s.tracked.2) :
    s.cleanEffect.unmountQueue.runEffect.mountQueue.Coherent := by
  obtain ⟨hclean, hsup, -⟩ := h.cleanEffect
  obtain ⟨runs, pending, heq⟩ := cleanEffect_eq s
  rw [heq] at hclean hsup ⊢
  have hagain := (hclean.unmountQueue.runEffect hsup hno).mountQueue
  exact hagain.begun rfl halive hpending rfl rfl ⟨rfl, rfl, rfl, rfl⟩

/-- **The effects of a commit.** -/
theorem Coherent.flushed (h : s.Coherent) (halive : s.alive = true)
    (hpending : s.effectPending = true) (strict : Bool) : (s.flushed strict).Coherent := by
  have hm : s.queue.mounted = true := h.mounted.trans halive
  have htidy := h.tidy.setPending false
  unfold UseResource.flushed
  dsimp only
  split
  · next hnone =>
    obtain ⟨-, hsnap, hqueued⟩ := h.fresh hnone
    have hno : ∀ x, s.snapshot = some x ∨ s.queuedSnapshot = some x → x.generation < s.tracked.2 := by
      rintro x (hx | hx)
      · exact nomatch hsnap.symm.trans hx
      · exact nomatch hqueued.symm.trans hx
    have hmounted := (htidy.runEffect (fun run hrun => by
      have hrun : run ∈ s.runs := hrun
      rw [hnone] at hrun
      cases hrun) hno).mountQueue
    split
    · exact hmounted.remounted halive rfl hno
    · exact hmounted.begun rfl halive rfl rfl rfl ⟨rfl, rfl, rfl, rfl⟩
  · obtain ⟨hclean, hsup, -⟩ := htidy.cleanEffect
    obtain ⟨runs, pending, heq⟩ := cleanEffect_eq { s with effectPending := false }
    rw [heq] at hclean hsup ⊢
    have hnext := hclean.runEffect hsup fun x hx => h.snapshot_stale hpending hx
    exact hnext.begun hm halive rfl rfl rfl ⟨rfl, rfl, rfl, rfl⟩

theorem Coherent.unmounted (h : s.Coherent) (halive : s.alive = true)
    (hpending : s.effectPending = false) : s.unmounted.Coherent := by
  obtain ⟨hclean, hsup, hgrows⟩ := h.tidy.cleanEffect
  obtain ⟨runs, pending, heq⟩ := cleanEffect_eq s
  have hgone := hclean.unmountQueue
  have hclaims := hclean.runs.superseded
  unfold UseResource.unmounted
  rw [heq] at hgone hsup hclaims hgrows ⊢
  refine ⟨⟨hgone.key, hgone.runs, hgone.before, hgone.snapshot, hgone.queued, hgone.once,
    hgone.issued, hgone.resolved, hgone.unmounted⟩, rfl, fun ha => (nomatch ha), fun hp => ?_,
    fun hnone => ?_, fun hne => absurd rfl hne, fun _ => ⟨hpending, rfl, fun run hrun => ?_⟩⟩
  · exact absurd (hpending.symm.trans hp) (by decide)
  · obtain ⟨run, rest, hruns, -⟩ := h.current halive hpending
    have hnone : runs = [] := hnone
    have hgrows : List.Forall₂ RunGrows s.runs runs := hgrows
    rw [hnone, hruns] at hgrows
    cases hgrows
  · exact hclaims run hrun (hsup run hrun)

theorem Coherent.reloaded (h : s.Coherent) : s.reloaded.Coherent := by
  have htidy := h.tidy.reloaded
  unfold UseResource.reloaded at htidy ⊢
  dsimp only at htidy ⊢
  split
  · next hm =>
    rw [if_pos hm] at htidy
    refine ⟨htidy, h.mounted, h.current, h.stale, h.fresh, fun _ => Or.inl (Nat.succ_pos _),
      fun ha => ?_⟩
    exact absurd (hm.symm.trans (h.mounted.trans ha)) (by decide)
  · next hm =>
    rw [if_neg hm] at htidy
    exact ⟨htidy, h.mounted, h.current, h.stale, h.fresh, h.due, h.dead⟩

/-- Editing a run in a callback keeps what the runs ask. -/
theorem Coherent.of_map (h : s.Coherent) {s' : UseResource α} (htidy : s'.Tidy)
    {e : EffectRun α → EffectRun α} (hruns : s'.runs = s.runs.map e)
    (he : ∀ r, (e r).superseded = r.superseded ∧ (e r).key = r.key ∧
      (e r).generation = r.generation ∧ (e r).inputs = r.inputs ∧ (e r).claimed ⊆ r.claimed)
    (hrest : s' = { s with
      runs := s'.runs, queuedSnapshot := s'.queuedSnapshot, resolved := s'.resolved }) :
    s.runs ≠ [] → s'.Coherent := by
  intro hne
  rw [hrest] at htidy ⊢
  generalize s'.queuedSnapshot = queued at htidy ⊢
  generalize s'.resolved = resolved at htidy ⊢
  rw [hruns] at htidy ⊢
  refine ⟨htidy, h.mounted, fun ha hp => ?_, fun hp run hrun => ?_, fun hnone => ?_, h.due,
    fun ha => ?_⟩
  · obtain ⟨run, rest, hhead, hasks⟩ := h.current ha hp
    obtain ⟨hlive, hkey, hgen, hinputs, -⟩ := he run
    refine ⟨e run, rest.map e, ?_, hlive.trans hasks.live, hkey.trans hasks.key,
      hgen.trans hasks.generation, hinputs.trans hasks.inputs⟩
    show s.runs.map e = _
    rw [hhead, List.map_cons]
  · obtain ⟨r, hr, rfl⟩ := List.mem_map.mp hrun
    show (e r).generation < s.tracked.2
    rw [(he r).2.2.1]
    exact h.stale hp r hr
  · exact absurd (List.map_eq_nil_iff.mp hnone) hne
  · obtain ⟨hp, hq, hclaims⟩ := h.dead ha
    refine ⟨hp, hq, fun run hrun => ?_⟩
    obtain ⟨r, hr, rfl⟩ := List.mem_map.mp hrun
    exact List.subset_nil.mp (hclaims r hr ▸ (he r).2.2.2.2)

/-- **Every step keeps the invariant.** -/
theorem Coherent.step {s' : UseResource α} {op : UseResourceOp α} (h : s.Coherent)
    (hs : Step s op s') : s'.Coherent := by
  cases hs with
  | render halive hpending => exact h.rendered halive hpending _
  | flush halive hpending => exact h.flushed halive hpending _
  | unmount halive hpending => exact h.unmounted halive hpending
  | reload => exact h.reloaded
  | answer hrun hload =>
    refine h.of_map (h.tidy.answered hrun hload _) rfl (fun r => ?_) rfl (List.ne_nil_of_mem hrun)
    split
    · exact ⟨rfl, rfl, rfl, rfl, List.Subset.refl _⟩
    · exact ⟨rfl, rfl, rfl, rfl, List.Subset.refl _⟩
  | settle hrun hload =>
    have htidy := h.tidy.settled hrun hload
    unfold UseResource.settled at htidy ⊢
    split
    · next hsup =>
      rw [if_pos hsup] at htidy
      refine h.of_map htidy rfl (fun r => ?_) rfl (List.ne_nil_of_mem hrun)
      split
      · exact ⟨rfl, rfl, rfl, rfl, List.Subset.refl _⟩
      · exact ⟨rfl, rfl, rfl, rfl, List.Subset.refl _⟩
    · next hlive =>
      rw [if_neg hlive] at htidy
      refine h.of_map htidy rfl (fun r => ?_) rfl (List.ne_nil_of_mem hrun)
      split
      · exact ⟨rfl, rfl, rfl, rfl, List.nil_subset _⟩
      · exact ⟨rfl, rfl, rfl, rfl, List.Subset.refl _⟩

theorem reachable_coherent (h : (useApiResource α).Reachable s) : s.Coherent := by
  refine h.invariant (I := Coherent) (fun s hinit => ?_) fun _ _ _ _ hc hs => hc.step hs
  obtain ⟨inputs, rfl⟩ := hinit
  exact .initial inputs

/-! ## The claim -/

/-- What a component may rely on. -/
structure Reliable (s : UseResource α) : Prop where
  /-- What is visible is the answer to the request started last, which asks for what is rendered. -/
  visible : s.visible ≠ .loading → s.alive = true → ∃ run rest outcome, s.runs = run :: rest ∧
    run.inputs = s.inputs ∧ run.load.outcome = some outcome ∧ s.visible = stateOf outcome
  /-- Every promise of `reload` waits or was resolved, once; -/
  once : (s.waiting ++ s.resolved.map Prod.fst).Perm s.issued
  distinct : s.issued.Nodup
  /-- by a request that started after the call and has answered, or by an unmounting. -/
  resolved : ∀ x ∈ s.resolved, s.ResolvedRightly x.1 x.2
  /-- Where no request goes on and no effect is to come, nobody waits. -/
  idle : (∀ run ∈ s.runs, run.superseded = false → ∃ outcome, run.load = .settled outcome) →
    s.effectPending = false → s.queuedReloads = 0 → s.waiting = []
  unmounted : s.alive = false → s.waiting = []

/-- A snapshot of the current generation is the newest run's. -/
theorem Coherent.visible_asks (h : s.Coherent) (halive : s.alive = true)
    (hvisible : s.visible ≠ .loading) : ∃ run rest outcome, s.runs = run :: rest ∧
      run.inputs = s.inputs ∧ run.load.outcome = some outcome ∧ s.visible = stateOf outcome := by
  obtain ⟨x, hx, -, hgen, hstate⟩ := visibleState_ne_loading hvisible
  obtain ⟨run, hrun, -, hrungen, ⟨outcome, hout, hxstate⟩, hlast⟩ := h.tidy.snapshot x hx
  have hpending : s.effectPending = false := by
    by_contra hp
    have hlt := h.stale (by simpa using hp) run hrun
    omega
  obtain ⟨head, rest, hruns, hasks⟩ := h.current halive hpending
  have hsame : run = head := by
    have hr := h.tidy.runs
    have hhead : head ∈ s.runs := hruns ▸ List.mem_cons_self
    refine hr.unique hrun hhead (by_contra fun hne => ?_)
    have hbound := hr.id_lt hrun
    rw [hruns] at hr hbound
    have hid := hr.id_head
    rw [List.length_cons] at hbound
    have hgt := hlast head hhead (by omega)
    have hheadgen := hasks.generation
    omega
  subst hsame
  exact ⟨run, rest, outcome, hruns, hasks.inputs, hout, hstate.trans hxstate⟩

/-- Nobody waits for nothing. -/
theorem Coherent.idle_empty (h : s.Coherent)
    (hidle : ∀ run ∈ s.runs, run.superseded = false → ∃ outcome, run.load = .settled outcome)
    (hpending : s.effectPending = false) (hqueued : s.queuedReloads = 0) : s.waiting = [] := by
  have hqueue : s.queue.pending = [] := by
    by_contra hne
    rcases h.due hne with hpos | hp
    · omega
    · exact absurd (hpending.symm.trans hp) (by decide)
  unfold waiting
  rw [hqueue, List.nil_append, List.flatMap_eq_nil_iff]
  intro run hrun
  cases hsup : run.superseded with
  | true => exact h.tidy.runs.superseded run hrun hsup
  | false =>
    obtain ⟨outcome, hload⟩ := hidle run hrun hsup
    exact h.tidy.runs.settled run hrun outcome hload

/-- **A resource shows its own answer, and loses no waiter.** -/
theorem resource_answers (h : (useApiResource α).Reachable s) : s.Reliable := by
  have hc := reachable_coherent h
  constructor
  case visible => exact fun hv ha => hc.visible_asks ha hv
  case once => exact hc.tidy.once
  case distinct =>
    refine List.Nodup.of_map Waiter.id ?_
    rw [hc.tidy.issued]
    exact List.nodup_range
  case resolved => exact hc.tidy.resolved
  case idle => exact hc.idle_empty
  case unmounted =>
    intro ha
    obtain ⟨-, hq, hclaims⟩ := hc.dead ha
    unfold waiting
    rw [hq, List.nil_append, List.flatMap_eq_nil_iff]
    exact hclaims

/-- Two calls of `reload` while the first request goes on: the second resolves both. -/
theorem resource_answers_reloads : ∃ s : UseResource Nat,
    s.visible = .ready 6 ∧ s.resolved.length = 2 ∧ s.Reliable := by
  let inputs : ResourceInputs := ⟨"/me/copies", 1⟩
  let mounted : UseResource Nat := (initial inputs).flushed true
  have hmounted : (useApiResource Nat).Reachable mounted :=
    .next (.start ⟨inputs, rfl⟩) (.flush rfl rfl)
  have hreloads := (hmounted.next .reload).next .reload
  have hfirst := hreloads.next (@Step.answer Nat _ _ (.ok 5) List.mem_cons_self rfl)
  have hrender := hfirst.next (@Step.render Nat _ inputs rfl rfl)
  have hsecond := hrender.next (@Step.flush Nat _ false rfl (by decide +kernel))
  have hanswer := hsecond.next (@Step.answer Nat _ _ (.ok 6) List.mem_cons_self rfl)
  have hsettle := hanswer.next (@Step.settle Nat _ _ (.ok 6) List.mem_cons_self rfl)
  have hlast := hsettle.next (@Step.render Nat _ inputs rfl (by decide +kernel))
  exact ⟨_, by decide +kernel, by decide +kernel, resource_answers hlast⟩

end UseResource

end Bookswap
