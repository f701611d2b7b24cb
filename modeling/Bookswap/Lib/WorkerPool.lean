import Bookswap.Lib.Machine
import Mathlib.Algebra.BigOperators.Group.Finset.Basic
import Mathlib.Algebra.Order.BigOperators.Group.Finset
import Mathlib.Data.List.Nodup

/-!
# A pool of workers over a list of jobs

A bounded number of workers takes the jobs of a list from its front, each worker one job at a
time. A job runs in turns, between which the other workers and the world outside move, and ends
with a result. The jobs are pairwise distinct.

- `Program`, `Pool`, `Step`, `pool`: the jobs' code, the state and the machine.
- `Inv`, `Reachable.inv`: a job is still in the list, or with exactly one worker, or has exactly one
  result.
- `Keeps`, `Reachable.keeps`: what the turns of a job keep holds of its result.
- `Step.potential`, `leads_done`: only finitely many steps are left to the workers, and as long as
  one has not stopped there is one.
-/

namespace WorkerPool

variable {ε α σ β : Type}

/-- The code of a job: where it starts, and what one turn may do to the shared state, going on
with a local state or ending with a result. -/
structure Program (ε α σ β : Type) where
  start : α → σ
  turn : ε → α → σ → ε → σ ⊕ β → Prop

inductive Worker (α σ : Type)
  | idle
  | running (job : α) (at_ : σ)
  | stopped

/-- Of `workers`, those below the size of the pool. -/
structure Pool (ε α σ β : Type) where
  next : Nat
  workers : Nat → Worker α σ
  results : List (α × β)
  shared : ε

namespace Pool

/-- Some worker of the pool runs the job. -/
def Runs (size : Nat) (s : Pool ε α σ β) (a : α) : Prop :=
  ∃ i l, i < size ∧ s.workers i = .running a l

/-- The job has a result. -/
def Resolved (s : Pool ε α σ β) (a : α) : Prop := a ∈ s.results.map Prod.fst

/-- Every worker has stopped. -/
def Done (size : Nat) (s : Pool ε α σ β) : Prop := ∀ i < size, s.workers i = .stopped

/-- The worker's next position. -/
def move (s : Pool ε α σ β) (i : Nat) (w : Worker α σ) : Pool ε α σ β :=
  { s with workers := Function.update s.workers i w }

end Pool

/-- One step of a pool: a worker takes the next job or finds none, a job makes a turn, or the
shared state changes from outside. -/
inductive Step (P : Program ε α σ β) (jobs : List α) (size : Nat) (outside : ε → ε → Prop) :
    Pool ε α σ β → Unit → Pool ε α σ β → Prop
  | take {s : Pool ε α σ β} {i : Nat} {a : α} (hi : i < size) (hidle : s.workers i = .idle)
      (hjob : jobs[s.next]? = some a) :
      Step P jobs size outside s ()
        ({ s with next := s.next + 1 }.move i (.running a (P.start a)))
  | stop {s : Pool ε α σ β} {i : Nat} (hi : i < size) (hidle : s.workers i = .idle)
      (hnone : jobs.length ≤ s.next) :
      Step P jobs size outside s () (s.move i .stopped)
  | turn {s : Pool ε α σ β} {i : Nat} {a : α} {l l' : σ} {e : ε} (hi : i < size)
      (hrun : s.workers i = .running a l) (ht : P.turn s.shared a l e (.inl l')) :
      Step P jobs size outside s () ({ s with shared := e }.move i (.running a l'))
  | finish {s : Pool ε α σ β} {i : Nat} {a : α} {l : σ} {e : ε} {b : β} (hi : i < size)
      (hrun : s.workers i = .running a l) (ht : P.turn s.shared a l e (.inr b)) :
      Step P jobs size outside s ()
        ({ s with shared := e, results := (a, b) :: s.results }.move i .idle)
  | outside {s : Pool ε α σ β} {e : ε} (ho : outside s.shared e) :
      Step P jobs size outside s () { s with shared := e }

/-- A pool whose workers are all idle. -/
def Pool.start (e : ε) : Pool ε α σ β := ⟨0, fun _ => .idle, [], e⟩

/-- The machine of a pool. -/
def pool (P : Program ε α σ β) (jobs : List α) (size : Nat) (outside : ε → ε → Prop) (e : ε) :
    Machine (Pool ε α σ β) Unit where
  init s := s = .start e
  step := Step P jobs size outside

variable {P : Program ε α σ β} {jobs : List α} {size : Nat} {outside : ε → ε → Prop} {e₀ : ε}
  {s s' : Pool ε α σ β} {a : α} {b : β} {i : Nat} {w : Worker α σ} {l : σ}

namespace Pool

@[simp] theorem move_next : (s.move i w).next = s.next := rfl

@[simp] theorem move_results : (s.move i w).results = s.results := rfl

@[simp] theorem move_shared : (s.move i w).shared = s.shared := rfl

theorem move_workers (s : Pool ε α σ β) (i : Nat) (w : Worker α σ) (j : Nat) :
    (s.move i w).workers j = if j = i then w else s.workers j :=
  Function.update_apply s.workers i w j

/-- A worker that runs a job after the move ran it before, or the move gave it the job. -/
theorem running_move {j : Nat} (h : (s.move i w).workers j = .running a l) :
    (j = i ∧ w = .running a l) ∨ (j ≠ i ∧ s.workers j = .running a l) := by
  rw [move_workers] at h
  by_cases hj : j = i
  · rw [if_pos hj] at h
    exact .inl ⟨hj, h⟩
  · rw [if_neg hj] at h
    exact .inr ⟨hj, h⟩

/-- A worker that has stopped after the move had stopped before, or the move stopped it. -/
theorem stopped_move {j : Nat} (h : (s.move i w).workers j = .stopped) :
    w = .stopped ∨ s.workers j = .stopped := by
  rw [move_workers] at h
  split at h
  · exact .inl h
  · exact .inr h

end Pool

/-! ## Each job once -/

/-- **The invariant**: a job that was taken runs with one worker or has one result, never both. -/
structure Inv (jobs : List α) (size : Nat) (s : Pool ε α σ β) : Prop where
  results_nodup : (s.results.map Prod.fst).Nodup
  runs_taken : ∀ i a l, s.workers i = .running a l → a ∈ jobs.take s.next
  resolved_taken : ∀ a, s.Resolved a → a ∈ jobs.take s.next
  one : ∀ i j a l l', s.workers i = .running a l → s.workers j = .running a l' → i = j
  apart : ∀ i a l, s.workers i = .running a l → ¬ s.Resolved a
  covered : ∀ a ∈ jobs.take s.next, s.Runs size a ∨ s.Resolved a

theorem Inv.start (e : ε) : Inv jobs size (Pool.start e : Pool ε α σ β) where
  results_nodup := List.nodup_nil
  runs_taken _ _ _ h := nomatch h
  resolved_taken _ h := nomatch h
  one _ _ _ _ _ h := nomatch h
  apart _ _ _ h := nomatch h
  covered _ h := nomatch h

theorem Inv.take (hjobs : jobs.Nodup) (h : Inv jobs size s) (hi : i < size)
    (hidle : s.workers i = .idle)
    (hjob : jobs[s.next]? = some a) (l : σ) :
    Inv jobs size ({ s with next := s.next + 1 }.move i (.running a l)) := by
  have htake : jobs.take (s.next + 1) = jobs.take s.next ++ [a] := by
    rw [List.take_add_one, hjob]
    rfl
  -- the job was not taken before
  have hnew : a ∉ jobs.take s.next := by
    have hn : (jobs.take (s.next + 1)).Nodup := hjobs.sublist (List.take_sublist _ _)
    rw [htake] at hn
    exact fun hmem => (List.disjoint_of_nodup_append hn) hmem (List.mem_singleton.mpr rfl)
  have hmem : ∀ {c}, c ∈ jobs.take s.next → c ∈ jobs.take (s.next + 1) := fun hc => by
    rw [htake]
    exact List.mem_append_left _ hc
  constructor
  · exact h.results_nodup
  · intro j c l' hrun
    rcases Pool.running_move hrun with ⟨-, hw⟩ | ⟨-, hrun⟩
    · cases hw
      show a ∈ jobs.take (s.next + 1)
      rw [htake]
      exact List.mem_append_right _ (List.mem_singleton.mpr rfl)
    · exact hmem (h.runs_taken j c l' hrun)
  · exact fun c hc => hmem (h.resolved_taken c hc)
  · intro j k c l₁ l₂ hj hk
    rcases Pool.running_move hj with ⟨hji, hw⟩ | ⟨hji, hj'⟩ <;>
      rcases Pool.running_move hk with ⟨hki, hw'⟩ | ⟨hki, hk'⟩
    · exact hji.trans hki.symm
    · cases hw
      exact absurd (h.runs_taken k a l₂ hk') hnew
    · cases hw'
      exact absurd (h.runs_taken j a l₁ hj') hnew
    · exact h.one j k c l₁ l₂ hj' hk'
  · intro j c l' hrun hres
    rcases Pool.running_move hrun with ⟨-, hw⟩ | ⟨-, hrun⟩
    · cases hw
      exact hnew (h.resolved_taken a hres)
    · exact h.apart j c l' hrun hres
  · intro c hc
    have hc : c ∈ jobs.take s.next ++ [a] := htake ▸ hc
    rcases List.mem_append.mp hc with hc | hc
    · refine (h.covered c hc).imp (fun ⟨j, l', hj, hrun⟩ => ⟨j, l', hj, ?_⟩) id
      rw [Pool.move_workers, if_neg]
      · exact hrun
      · rintro rfl
        rw [hidle] at hrun
        cases hrun
    · obtain rfl := List.mem_singleton.mp hc
      exact .inl ⟨i, l, hi, by rw [Pool.move_workers, if_pos rfl]⟩

/-- A step of a worker that goes on with its job, or has none before and after. -/
theorem Inv.same (h : Inv jobs size s) (e : ε)
    (hw : ∀ c, (∃ l, w = .running c l) ↔ ∃ l, s.workers i = .running c l) :
    Inv jobs size ({ s with shared := e }.move i w) := by
  -- the workers run the jobs they ran before
  have hback : ∀ {j c l}, ({ s with shared := e }.move i w).workers j = .running c l →
      ∃ l', s.workers j = .running c l' := by
    intro j c l hrun
    rcases Pool.running_move hrun with ⟨rfl, rfl⟩ | ⟨-, hrun⟩
    · exact (hw c).mp ⟨l, rfl⟩
    · exact ⟨l, hrun⟩
  constructor
  · exact h.results_nodup
  · intro j c l hrun
    obtain ⟨l', hrun⟩ := hback hrun
    exact h.runs_taken j c l' hrun
  · exact h.resolved_taken
  · intro j k c l₁ l₂ hj hk
    obtain ⟨l₁', hj⟩ := hback hj
    obtain ⟨l₂', hk⟩ := hback hk
    exact h.one j k c l₁' l₂' hj hk
  · intro j c l hrun
    obtain ⟨l', hrun⟩ := hback hrun
    exact h.apart j c l' hrun
  · intro c hc
    refine (h.covered c hc).imp (fun ⟨j, l, hjs, hrun⟩ => ?_) id
    by_cases hj : j = i
    · subst hj
      obtain ⟨l', rfl⟩ := (hw c).mpr ⟨l, hrun⟩
      exact ⟨j, l', hjs, by rw [Pool.move_workers, if_pos rfl]⟩
    · exact ⟨j, l, hjs, by rw [Pool.move_workers, if_neg hj]; exact hrun⟩

theorem Inv.finish (h : Inv jobs size s) (hrun : s.workers i = .running a l) (e : ε) (b : β) :
    Inv jobs size ({ s with shared := e, results := (a, b) :: s.results }.move i .idle) := by
  have hback : ∀ {j c l'}, ({ s with shared := e, results := (a, b) :: s.results }.move i
      .idle).workers j = .running c l' → j ≠ i ∧ s.workers j = .running c l' := by
    intro j c l' hj
    rcases Pool.running_move hj with ⟨-, hw⟩ | hj
    · cases hw
    · exact hj
  constructor
  · exact List.nodup_cons.mpr ⟨h.apart i a l hrun, h.results_nodup⟩
  · exact fun j c l' hj => h.runs_taken j c l' (hback hj).2
  · intro c hc
    rcases List.mem_cons.mp hc with rfl | hc
    · exact h.runs_taken i _ l hrun
    · exact h.resolved_taken c hc
  · exact fun j k c l₁ l₂ hj hk => h.one j k c l₁ l₂ (hback hj).2 (hback hk).2
  · intro j c l' hj hc
    obtain ⟨hji, hj'⟩ := hback hj
    rcases List.mem_cons.mp hc with rfl | hc
    · exact hji (h.one j i _ l' l hj' hrun)
    · exact h.apart j c l' hj' hc
  · intro c hc
    rcases h.covered c hc with ⟨j, l', hjs, hj⟩ | hres
    · by_cases hji : j = i
      · subst hji
        rw [hrun] at hj
        cases hj
        exact .inr (List.mem_cons_self ..)
      · exact .inl ⟨j, l', hjs, by rw [Pool.move_workers, if_neg hji]; exact hj⟩
    · exact .inr (List.mem_cons_of_mem _ hres)

theorem Inv.step (hjobs : jobs.Nodup) (h : Inv jobs size s) {u : Unit}
    (hs : Step P jobs size outside s u s') : Inv jobs size s' := by
  cases hs with
  | take hi hidle hjob => exact h.take hjobs hi hidle hjob _
  | @stop i hi hidle hnone =>
    refine h.same (w := .stopped) s.shared fun c => ⟨fun ⟨_, hw⟩ => ?_, fun ⟨_, hw⟩ => ?_⟩
    · cases hw
    · rw [hidle] at hw
      cases hw
  | @turn i a l l' e hi hrun ht =>
    refine h.same e fun c => ⟨fun ⟨_, hw⟩ => ?_, fun ⟨_, hw⟩ => ?_⟩
    · cases hw
      exact ⟨l, hrun⟩
    · rw [hrun] at hw
      cases hw
      exact ⟨l', rfl⟩
  | finish hi hrun ht => exact h.finish hrun _ _
  | outside ho =>
    exact ⟨h.results_nodup, h.runs_taken, h.resolved_taken, h.one, h.apart, h.covered⟩

/-- **Every reachable pool has each of its jobs once.** -/
theorem pool_inv (hjobs : jobs.Nodup) (hr : (pool P jobs size outside e₀).Reachable s) :
    Inv jobs size s := by
  refine Machine.Reachable.invariant (fun s hs => ?_) (fun s i s' _ h hs => h.step hjobs hs) hr
  obtain rfl : s = .start e₀ := hs
  exact .start e₀

/-- A worker stops when there is no job left. -/
theorem next_of_stopped (hr : (pool P jobs size outside e₀).Reachable s) :
    ∀ i, s.workers i = .stopped → jobs.length ≤ s.next := by
  refine Machine.Reachable.invariant (I := fun s => ∀ i, s.workers i = .stopped →
    jobs.length ≤ s.next) (fun s hs i hi => ?_) (fun s u s' _ ih hs j hj => ?_) hr
  · obtain rfl : s = .start e₀ := hs
    cases hi
  · -- only a `stop` makes a worker stop
    cases hs with
    | take hi hidle hjob => exact Nat.le_succ_of_le (ih j ((Pool.stopped_move hj).resolve_left nofun))
    | stop hi hidle hnone => exact hnone
    | turn hi hrun ht => exact ih j ((Pool.stopped_move hj).resolve_left nofun)
    | finish hi hrun ht => exact ih j ((Pool.stopped_move hj).resolve_left nofun)
    | outside ho => exact ih j hj

/-- **When every worker has stopped, every job has its result.** -/
theorem resolved_of_done (hjobs : jobs.Nodup) (hsize : jobs ≠ [] → 0 < size)
    (hr : (pool P jobs size outside e₀).Reachable s) (hdone : s.Done size) (ha : a ∈ jobs) :
    s.Resolved a := by
  have htaken := next_of_stopped hr 0 (hdone 0 (hsize (List.ne_nil_of_mem ha)))
  rw [← List.take_of_length_le htaken] at ha
  rcases (pool_inv hjobs hr).covered a ha with ⟨i, l, hi, hrun⟩ | hres
  · rw [hdone i hi] at hrun
    cases hrun
  · exact hres

/-! ## What the turns of a job keep -/

/-- `I` says what holds of a job at a local state and `R` what holds of its result; both survive
whatever the others do to the shared state. -/
structure Keeps (P : Program ε α σ β) (outside : ε → ε → Prop) (I : ε → α → σ → Prop)
    (R : ε → α → β → Prop) : Prop where
  start : ∀ e a, I e a (P.start a)
  turn : ∀ {e a l e' l'}, I e a l → P.turn e a l e' (.inl l') → I e' a l'
  finish : ∀ {e a l e' b}, I e a l → P.turn e a l e' (.inr b) → R e' a b
  grows : ∀ {e c l e' r}, P.turn e c l e' r →
    (∀ a l', I e a l' → I e' a l') ∧ ∀ a b, R e a b → R e' a b
  outside : ∀ {e e'}, outside e e' → (∀ a l', I e a l' → I e' a l') ∧ ∀ a b, R e a b → R e' a b

/-- **What the turns keep holds of every job in every reachable pool.** -/
theorem Keeps.reachable {I : ε → α → σ → Prop} {R : ε → α → β → Prop} (hk : Keeps P outside I R)
    (hr : (pool P jobs size outside e₀).Reachable s) :
    (∀ i a l, s.workers i = .running a l → I s.shared a l) ∧
      ∀ a b, (a, b) ∈ s.results → R s.shared a b := by
  refine Machine.Reachable.invariant
    (I := fun s => (∀ i a l, s.workers i = .running a l → I s.shared a l) ∧
      ∀ a b, (a, b) ∈ s.results → R s.shared a b) (fun s hs => ?_) (fun s u s' _ ih hs => ?_) hr
  · obtain rfl : s = .start e₀ := hs
    exact ⟨nofun, nofun⟩
  obtain ⟨hI, hR⟩ := ih
  cases hs with
  | take hi hidle hjob =>
    refine ⟨fun j c l hj => ?_, hR⟩
    rcases Pool.running_move hj with ⟨-, hw⟩ | ⟨-, hj⟩
    · cases hw
      exact hk.start _ _
    · exact hI j c l hj
  | stop hi hidle hnone =>
    refine ⟨fun j c l hj => ?_, hR⟩
    rcases Pool.running_move hj with ⟨-, hw⟩ | ⟨-, hj⟩
    · cases hw
    · exact hI j c l hj
  | turn hi hrun ht =>
    refine ⟨fun j c l hj => ?_, fun c b hb => (hk.grows ht).2 c b (hR c b hb)⟩
    rcases Pool.running_move hj with ⟨-, hw⟩ | ⟨-, hj⟩
    · cases hw
      exact hk.turn (hI _ _ _ hrun) ht
    · exact (hk.grows ht).1 c l (hI j c l hj)
  | finish hi hrun ht =>
    refine ⟨fun j c l hj => ?_, fun c b hb => ?_⟩
    · rcases Pool.running_move hj with ⟨-, hw⟩ | ⟨-, hj⟩
      · cases hw
      · exact (hk.grows ht).1 c l (hI j c l hj)
    · rcases List.mem_cons.mp hb with heq | hb
      · cases heq
        exact hk.finish (hI _ _ _ hrun) ht
      · exact (hk.grows ht).2 c b (hR c b hb)
  | outside ho =>
    exact ⟨fun j c l hj => (hk.outside ho).1 c l (hI j c l hj),
      fun c b hb => (hk.outside ho).2 c b (hR c b hb)⟩

/-! ## The pool ends -/

/-- What a worker still has to do, given how many turns its job needs at most. -/
def Worker.weight (rank : σ → Nat) : Worker α σ → Nat
  | .idle => 1
  | .running _ l => rank l + 2
  | .stopped => 0

/-- What the pool still has to do: a new job weighs more than any job that has started. -/
def Pool.potential (rank : σ → Nat) (most : Nat) (jobs : List α) (size : Nat)
    (s : Pool ε α σ β) : Nat :=
  (jobs.length - s.next) * (most + 3) + ∑ i ∈ Finset.range size, (s.workers i).weight rank

/-- The workers' weight changes by that of the worker that moved. -/
theorem weight_move (rank : σ → Nat) (hi : i < size) :
    ∑ j ∈ Finset.range size, ((s.move i w).workers j).weight rank + (s.workers i).weight rank =
      ∑ j ∈ Finset.range size, (s.workers j).weight rank + w.weight rank := by
  have hmem : i ∈ Finset.range size := Finset.mem_range.mpr hi
  rw [← Finset.add_sum_erase _ _ hmem, ← Finset.add_sum_erase (Finset.range size)
    (fun j => (s.workers j).weight rank) hmem]
  have hrest : ∑ j ∈ (Finset.range size).erase i, ((s.move i w).workers j).weight rank =
      ∑ j ∈ (Finset.range size).erase i, (s.workers j).weight rank := by
    refine Finset.sum_congr rfl fun j hj => ?_
    rw [Pool.move_workers, if_neg (Finset.ne_of_mem_erase hj)]
  have hself : (s.move i w).workers i = w := by rw [Pool.move_workers, if_pos rfl]
  rw [hrest, hself]
  omega

section Ends

variable {rank : σ → Nat} {most : Nat} (hstart : ∀ a, rank (P.start a) ≤ most)
  (hturn : ∀ {e a l e' l'}, P.turn e a l e' (.inl l') → rank l' < rank l)

include hstart hturn

/-- **Every step but one from outside brings the pool nearer to its end**, and one from outside
does not take it away. -/
theorem Step.potential {u : Unit} (hs : Step P jobs size outside s u s') :
    s'.potential rank most jobs size < s.potential rank most jobs size ∨
      ∃ e, outside s.shared e ∧ s' = { s with shared := e } := by
  unfold Pool.potential
  cases hs with
  | @take i a hi hidle hjob =>
    have hlt : s.next < jobs.length := (List.getElem?_eq_some_iff.mp hjob).1
    have hw := weight_move (s := { s with next := s.next + 1 }) (w := .running a (P.start a)) rank hi
    have ha := hstart a
    have hjobs : jobs.length - s.next = jobs.length - (s.next + 1) + 1 := by omega
    left
    simp only [hidle, Worker.weight, Pool.move_next] at hw ⊢
    rw [hjobs, Nat.add_mul, Nat.one_mul]
    omega
  | @stop i hi hidle hnone =>
    have hw := weight_move (s := s) (w := .stopped) rank hi
    left
    simp only [hidle, Worker.weight, Pool.move_next] at hw ⊢
    omega
  | @turn i a l l' e hi hrun ht =>
    have hw := weight_move (s := { s with shared := e }) (w := .running a l') rank hi
    have hl := hturn ht
    left
    simp only [hrun, Worker.weight, Pool.move_next] at hw ⊢
    omega
  | @finish i a l e b hi hrun ht =>
    have hw := weight_move (s := { s with shared := e, results := (a, b) :: s.results })
      (w := .idle) rank hi
    left
    simp only [hrun, Worker.weight, Pool.move_next] at hw ⊢
    omega
  | outside ho => exact .inr ⟨_, ho, rfl⟩

/-- **From every state the pool can be led to its end.** -/
theorem leads_done (hprogress : ∀ e a l, ∃ e' r, P.turn e a l e' r) (s : Pool ε α σ β) :
    ∃ t, (pool P jobs size outside e₀).Leads s t ∧ t.Done size := by
  induction hn : s.potential rank most jobs size using Nat.strongRecOn generalizing s with
  | ind n ih =>
    by_cases hdone : s.Done size
    · exact ⟨s, .refl, hdone⟩
    · -- a worker that has not stopped has a step to make, and that step is not from outside
      obtain ⟨i, hi, hw⟩ : ∃ i, i < size ∧ s.workers i ≠ .stopped := by
        simpa [Pool.Done] using hdone
      have hstep : ∃ s', Step P jobs size (fun _ _ => False) s () s' := by
        cases hworker : s.workers i with
        | idle =>
          by_cases hnext : jobs.length ≤ s.next
          · exact ⟨_, .stop hi hworker hnext⟩
          · exact ⟨_, .take hi hworker (List.getElem?_eq_getElem (Nat.lt_of_not_le hnext))⟩
        | running a l =>
          obtain ⟨e, r, ht⟩ := hprogress s.shared a l
          cases r with
          | inl l' => exact ⟨_, .turn hi hworker ht⟩
          | inr b => exact ⟨_, .finish hi hworker ht⟩
        | stopped => exact absurd hworker hw
      obtain ⟨s', hs⟩ := hstep
      have hless : s'.potential rank most jobs size < n := by
        rcases Step.potential hstart hturn hs with hlt | ⟨_, hfalse, _⟩
        · exact hn ▸ hlt
        · exact hfalse.elim
      obtain ⟨t, hleads, ht⟩ := ih _ hless s' rfl
      refine ⟨t, Relation.ReflTransGen.head ⟨(), ?_⟩ hleads, ht⟩
      cases hs with
      | take hi hidle hjob => exact .take hi hidle hjob
      | stop hi hidle hnone => exact .stop hi hidle hnone
      | turn hi hrun ht => exact .turn hi hrun ht
      | finish hi hrun ht => exact .finish hi hrun ht
      | outside ho => exact ho.elim

end Ends

end WorkerPool
