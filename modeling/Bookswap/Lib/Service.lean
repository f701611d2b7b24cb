import Bookswap.Lib.Machine
import Bookswap.Lib.ReadCommitted

/-!
# Services whose calls are chains of transactions

A call of a service goes through stages. A stage has a transaction, whose commit decides the next
stage, or none: then the call has ended. The transactions of all calls run statement by statement
against one database, which other services change as well.

- `Service`, `Serving`, `Service.machine`: the calls under way, and their steps.
- `Serving.Apart`: locks and keys of the calls are apart in every run (`Service.apart`).
- `Contract`, `Contract.Proved`: what is kept, what each stage guarantees, and what has to be shown
  of the scripts one by one.
- `Contract.Proved.kept`: then it holds in every run; `Kept.post` is what a commit may rely on.
-/

namespace ReadCommitted

variable {σ ω κ ν ι π ρ ε τ : Type}

/-- `τ` are the stages of the calls. -/
structure Service (σ ω κ ν ι π ρ ε τ : Type) where
  schema : Schema σ ω κ
  /-- The transaction of a stage in a call, with the stage that its commit leads to. -/
  script : Nat → τ → Option (Script σ ω ν ι π ρ ε τ)
  /-- The stage after the script threw. -/
  failed : τ → ε → τ
  /-- The stage after a unique key was refused. -/
  refused : τ → κ → τ
  /-- What the outside may answer. -/
  answers : π → ρ → Prop
  /-- The stages that calls begin with. -/
  posts : Nat → τ → Prop
  /-- What other services may do to the database. -/
  elsewhere : σ → σ → Prop
  init : σ → Prop
  /-- Two calls do not hold these locks at the same time. -/
  conflict : ν → ν → Prop := (· = ·)
  conflict_symm : ∀ n m, conflict n m → conflict m n := by exact fun _ _ h => h.symm

/-- What a call is at. -/
inductive Activity (σ ω ν ι π ρ ε τ : Type)
  | between (stage : τ)
  | inside (stage : τ) (tx : Open σ ω ν ι π ρ ε τ)
  /-- The process died, or the transaction took too long. -/
  | lost

namespace Activity

def locks : Activity σ ω ν ι π ρ ε τ → List ν
  | .inside _ tx => tx.locks
  | _ => []

def writes : Activity σ ω ν ι π ρ ε τ → List ω
  | .inside _ tx => tx.writes
  | _ => []

end Activity

/-- The database, the calls, and what was committed by whom, newest first. -/
structure Serving (σ ω ν ι π ρ ε τ : Type) where
  db : σ
  calls : Nat → Option (Activity σ ω ν ι π ρ ε τ)
  log : List (Nat × List ω)

inductive ServiceOp (σ κ τ : Type)
  | post (r : Nat) (stage : τ)
  | begin (r : Nat)
  | statement (r : Nat)
  | commit (r : Nat)
  | fail (r : Nat)
  | refuse (r : Nat) (key : κ)
  | abort (r : Nat)
  | elsewhere (db : σ)

namespace Serving

variable (w : Serving σ ω ν ι π ρ ε τ)

def move (r : Nat) (a : Activity σ ω ν ι π ρ ε τ) : Serving σ ω ν ι π ρ ε τ :=
  { w with calls := Function.update w.calls r (some a) }

/-- Another call holds a lock that conflicts with this one. -/
def Held (conflict : ν → ν → Prop) (r : Nat) (n : ν) : Prop :=
  ∃ q a m, q ≠ r ∧ w.calls q = some a ∧ m ∈ a.locks ∧ conflict n m

/-- Another call has inserted a row of the key. -/
def Pending (S : Schema σ ω κ) (r : Nat) (key : κ) : Prop :=
  ∃ q a, q ≠ r ∧ w.calls q = some a ∧ key ∈ S.keysOf a.writes

/-- The call `r` commits `ws`. -/
def afterCommit (S : Schema σ ω κ) (r : Nat) (next : τ) (ws : List ω) :
    Serving σ ω ν ι π ρ ε τ :=
  { w.move r (.between next) with db := S.view w.db ws, log := (r, ws) :: w.log }

end Serving

namespace Service

variable (S : Service σ ω κ ν ι π ρ ε τ)

inductive Step : Serving σ ω ν ι π ρ ε τ → ServiceOp σ κ τ → Serving σ ω ν ι π ρ ε τ → Prop
  | post {w : Serving σ ω ν ι π ρ ε τ} {r : Nat} {stage : τ} : w.calls r = none → S.posts r stage →
      Step w (.post r stage) (w.move r (.between stage))
  | begin {w : Serving σ ω ν ι π ρ ε τ} {r : Nat} {stage : τ} {p : Script σ ω ν ι π ρ ε τ} :
      w.calls r = some (.between stage) → S.script r stage = some p →
      Step w (.begin r) (w.move r (.inside stage (.start p)))
  | statement {w : Serving σ ω ν ι π ρ ε τ} {r : Nat} {stage : τ} {tx tx' : Open σ ω ν ι π ρ ε τ} :
      w.calls r = some (.inside stage tx) →
      tx.Step S.schema S.answers (w.Held S.conflict r) (w.Pending S.schema r) w.db tx' →
      Step w (.statement r) (w.move r (.inside stage tx'))
  | commit {w : Serving σ ω ν ι π ρ ε τ} {r : Nat} {stage next : τ} {ls : List ν} {ws : List ω} :
      w.calls r = some (.inside stage ⟨.done next, ls, ws⟩) →
      Step w (.commit r) (w.afterCommit S.schema r next ws)
  | fail {w : Serving σ ω ν ι π ρ ε τ} {r : Nat} {stage : τ} {e : ε} {ls : List ν} {ws : List ω} :
      w.calls r = some (.inside stage ⟨.throw e, ls, ws⟩) →
      Step w (.fail r) (w.move r (.between (S.failed stage e)))
  | refuse {w : Serving σ ω ν ι π ρ ε τ} {r : Nat} {stage : τ} {tx : Open σ ω ν ι π ρ ε τ}
      {key : κ} : w.calls r = some (.inside stage tx) →
      tx.Refused S.schema (w.Pending S.schema r) w.db key →
      Step w (.refuse r key) (w.move r (.between (S.refused stage key)))
  | abort {w : Serving σ ω ν ι π ρ ε τ} {r : Nat} {a : Activity σ ω ν ι π ρ ε τ} :
      w.calls r = some a → Step w (.abort r) (w.move r .lost)
  /-- Whoever would take a key that a call has inserted waits for it. -/
  | elsewhere {w : Serving σ ω ν ι π ρ ε τ} {db : σ} : S.elsewhere w.db db →
      (∀ r a, w.calls r = some a → S.schema.Free a.writes db) →
      Step w (.elsewhere db) { w with db := db }

/-- No call yet. -/
structure Init (w : Serving σ ω ν ι π ρ ε τ) : Prop where
  db : S.init w.db
  no_calls : ∀ r, w.calls r = none
  no_log : w.log = []

def machine : Machine (Serving σ ω ν ι π ρ ε τ) (ServiceOp σ κ τ) where
  init := S.Init
  step := S.Step

end Service

/-! ## Locks and keys -/

section Apart

variable {S : Service σ ω κ ν ι π ρ ε τ} {w w' : Serving σ ω ν ι π ρ ε τ} {op : ServiceOp σ κ τ}

@[simp] theorem Serving.move_db (w : Serving σ ω ν ι π ρ ε τ) (r : Nat)
    (a : Activity σ ω ν ι π ρ ε τ) : (w.move r a).db = w.db := rfl

theorem Serving.move_calls (w : Serving σ ω ν ι π ρ ε τ) (r q : Nat)
    (a : Activity σ ω ν ι π ρ ε τ) :
    (w.move r a).calls q = if q = r then some a else w.calls q := by
  simp [Serving.move, Function.update_apply]

/-- What the call `r` may have next: its own rows and locks, and one that nobody has. -/
structure Serving.Moves (S : Service σ ω κ ν ι π ρ ε τ) (w : Serving σ ω ν ι π ρ ε τ) (r : Nat)
    (a' : Activity σ ω ν ι π ρ ε τ) : Prop where
  writes : a'.writes = [] ∨ ∃ a, w.calls r = some a ∧ (a'.writes = a.writes ∨
    ∃ x, a'.writes = x :: a.writes ∧ ∀ key ∈ S.schema.keys x, ¬ w.Pending S.schema r key ∧
      S.schema.taken (S.schema.view w.db a.writes) key = false)
  locks : a'.locks = [] ∨ ∃ a, w.calls r = some a ∧ (a'.locks = a.locks ∨
    ∃ n, a'.locks = n :: a.locks ∧ ¬ w.Held S.conflict r n)

/-- **What a step can do**: one call moves, one call commits, or somebody else does. -/
theorem Service.Step.cases (h : S.Step w op w') :
    (∃ r a, w' = w.move r a ∧ w.Moves S r a) ∨
    (∃ r stage next ls ws, w.calls r = some (.inside stage ⟨.done next, ls, ws⟩) ∧
      w' = w.afterCommit S.schema r next ws) ∨
    ∃ db, w' = { w with db := db } ∧ S.elsewhere w.db db ∧
      ∀ r a, w.calls r = some a → S.schema.Free a.writes db := by
  cases h with
  | post | begin | fail | refuse | abort => exact .inl ⟨_, _, rfl, .inl rfl, .inl rfl⟩
  | statement hr hstep =>
    exact .inl ⟨_, _, rfl, .inr ⟨_, hr, hstep.keys⟩, .inr ⟨_, hr, hstep.locks⟩⟩
  | commit hr => exact .inr (.inl ⟨_, _, _, _, _, hr, rfl⟩)
  | elsewhere hdb hfree => exact .inr (.inr ⟨_, rfl, hdb, hfree⟩)

/-- The rows and the locks of the calls are apart, and the rows free of what is committed. -/
structure Serving.Apart (S : Service σ ω κ ν ι π ρ ε τ) (w : Serving σ ω ν ι π ρ ε τ) : Prop where
  free : ∀ r a, w.calls r = some a → S.schema.Free a.writes w.db
  keys : ∀ r q a b, r ≠ q → w.calls r = some a → w.calls q = some b →
    ∀ key ∈ S.schema.keysOf a.writes, key ∉ S.schema.keysOf b.writes
  locks : ∀ r q a b, r ≠ q → w.calls r = some a → w.calls q = some b →
    ∀ n ∈ a.locks, ∀ m ∈ b.locks, ¬ S.conflict n m

/-- A property of two calls that is mutual survives the move of one call. -/
theorem Serving.pairwise_move {P : Activity σ ω ν ι π ρ ε τ → Activity σ ω ν ι π ρ ε τ → Prop}
    (hsymm : ∀ a b, P a b → P b a) {r : Nat} {a : Activity σ ω ν ι π ρ ε τ}
    (hw : ∀ q q' b b', q ≠ q' → w.calls q = some b → w.calls q' = some b' → P b b')
    (hr : ∀ q b, q ≠ r → w.calls q = some b → P a b) :
    ∀ q q' b b', q ≠ q' → (w.move r a).calls q = some b → (w.move r a).calls q' = some b' →
      P b b' := by
  intro q q' b b' hne hq hq'
  rw [move_calls] at hq hq'
  by_cases hqr : q = r
  · rw [if_pos hqr] at hq
    rw [if_neg fun h => hne (hqr.trans h.symm)] at hq'
    cases hq
    exact hr q' b' (fun h => hne (hqr.trans h.symm)) hq'
  · rw [if_neg hqr] at hq
    by_cases hqr' : q' = r
    · rw [if_pos hqr'] at hq'
      cases hq'
      exact hsymm _ _ (hr q b hqr hq)
    · rw [if_neg hqr'] at hq'
      exact hw q q' b b' hne hq hq'

theorem Serving.Apart.move {r : Nat} {a : Activity σ ω ν ι π ρ ε τ} (ha : w.Apart S)
    (hm : w.Moves S r a) : (w.move r a).Apart S := by
  refine ⟨fun q b hq => ?_, ?_, ?_⟩
  · rw [move_calls] at hq
    split at hq
    · cases hq
      rcases hm.writes with hnil | ⟨a₀, h₀, hsame | ⟨x, hcons, hx⟩⟩
      · rw [hnil]
        exact S.schema.free_nil _
      · rw [hsame]
        exact ha.free r a₀ h₀
      · rw [hcons]
        exact (ha.free r a₀ h₀).cons fun key hkey => (hx key hkey).2
    · exact ha.free q b hq
  · refine pairwise_move (P := fun a b => ∀ key ∈ S.schema.keysOf a.writes, key ∉ S.schema.keysOf b.writes)
      (fun a b h key hb ha => h key ha hb) ha.keys fun q b hq hb key hkey hkey' => ?_
    rcases hm.writes with hnil | ⟨a₀, h₀, hsame | ⟨x, hcons, hx⟩⟩
    · rw [hnil] at hkey
      cases hkey
    · rw [hsame] at hkey
      exact ha.keys r q a₀ b hq.symm h₀ hb key hkey hkey'
    · rw [hcons] at hkey
      rcases List.mem_append.mp hkey with hkey | hkey
      · exact (hx key hkey).1 ⟨q, b, hq, hb, hkey'⟩
      · exact ha.keys r q a₀ b hq.symm h₀ hb key hkey hkey'
  · refine pairwise_move (P := fun a b => ∀ n ∈ a.locks, ∀ m ∈ b.locks, ¬ S.conflict n m)
      (fun a b h m hb n ha hc => h n ha m hb (S.conflict_symm _ _ hc)) ha.locks
      fun q b hq hb n hn m hm' hc => ?_
    rcases hm.locks with hnil | ⟨a₀, h₀, hsame | ⟨l, hcons, hfresh⟩⟩
    · rw [hnil] at hn
      cases hn
    · rw [hsame] at hn
      exact ha.locks r q a₀ b hq.symm h₀ hb n hn m hm' hc
    · rw [hcons] at hn
      rcases List.mem_cons.mp hn with rfl | hn
      · exact hfresh ⟨q, b, m, hq, hb, hm', hc⟩
      · exact ha.locks r q a₀ b hq.symm h₀ hb n hn m hm' hc

/-- What a call has written keeps clear of another commit. -/
theorem Serving.Apart.free_commit {r q : Nat} {stage next : τ} {ls : List ν}
    {ws : List ω} {b : Activity σ ω ν ι π ρ ε τ} (ha : w.Apart S)
    (hr : w.calls r = some (.inside stage ⟨.done next, ls, ws⟩)) (hne : q ≠ r)
    (hq : w.calls q = some b) : S.schema.Free b.writes (S.schema.view w.db ws) := by
  intro key hkey
  refine Bool.eq_false_iff.mpr fun htaken => ?_
  rcases S.schema.taken_view.mp htaken with hin | hdb
  · exact ha.keys q r b _ hne hq hr key hkey hin
  · exact absurd ((ha.free q b hq key hkey).symm.trans hdb) Bool.false_ne_true

theorem Serving.Apart.step (ha : w.Apart S) (h : S.Step w op w') : w'.Apart S := by
  rcases h.cases with ⟨r, a, rfl, hm⟩ | ⟨r, stage, next, ls, ws, hr, rfl⟩ | ⟨db, rfl, -, hfree⟩
  · exact ha.move hm
  · have hmoved := ha.move (r := r) (a := .between next) ⟨.inl rfl, .inl rfl⟩
    refine ⟨fun q b hq => ?_, hmoved.keys, hmoved.locks⟩
    change (w.move r (.between next)).calls q = some b at hq
    rw [Serving.move_calls] at hq
    split at hq
    · cases hq
      exact S.schema.free_nil _
    · next hne => exact ha.free_commit hr hne hq
  · exact ⟨hfree, ha.keys, ha.locks⟩

theorem Service.Init.apart (h : S.Init w) : w.Apart S := by
  refine ⟨fun r a hr => ?_, fun r q a b _ hr => ?_, fun r q a b _ hr => ?_⟩ <;>
    · rw [h.no_calls] at hr
      cases hr

/-- **Rows and locks are apart in every run.** -/
theorem Service.apart (hr : S.machine.Reachable w) : w.Apart S :=
  hr.invariant (I := fun w => w.Apart S) (fun _ hi => Service.Init.apart hi)
    fun _ _ _ _ ha h => ha.step h

end Apart

/-! ## A call alone -/

section Alone

variable {S : Service σ ω κ ν ι π ρ ε τ} {w : Serving σ ω ν ι π ρ ε τ} {r : Nat}

/-- No other call has a transaction under way. -/
def Serving.Quiet (w : Serving σ ω ν ι π ρ ε τ) (r : Nat) : Prop :=
  ∀ q a, q ≠ r → w.calls q = some a → a.locks = [] ∧ a.writes = []

theorem Serving.Quiet.move {w : Serving σ ω ν ι π ρ ε τ} (h : w.Quiet r)
    (a : Activity σ ω ν ι π ρ ε τ) : (w.move r a).Quiet r := by
  intro q b hne hq
  rw [Serving.move_calls, if_neg hne] at hq
  exact h q b hne hq

theorem Serving.move_move (w : Serving σ ω ν ι π ρ ε τ) (r : Nat) (a b : Activity σ ω ν ι π ρ ε τ) :
    (w.move r a).move r b = w.move r b := by
  simp [Serving.move, Function.update_idem]

/-- The statements of one call are steps of the service. -/
theorem Service.statements {stage : τ} {tx tx' : Open σ ω ν ι π ρ ε τ} (hquiet : w.Quiet r)
    (hw : S.machine.Reachable (w.move r (.inside stage tx)))
    (h : Relation.ReflTransGen (fun t t' => t.Step S.schema S.answers (fun _ => False)
      (fun _ => False) w.db t') tx tx') :
    S.machine.Reachable (w.move r (.inside stage tx')) := by
  induction h with
  | refl => exact hw
  | @tail t t' _ hstep ih =>
    have hcalls : (w.move r (.inside stage t)).calls r = some (.inside stage t) := by
      rw [Serving.move_calls, if_pos rfl]
    have hnext := ih.next (.statement hcalls (hstep.mono ?_ ?_))
    · rwa [Serving.move_move] at hnext
    · rintro n ⟨q, a, m, hne, hq, hn, -⟩
      rw [(hquiet.move _ q a hne hq).1] at hn
      cases hn
    · rintro key ⟨q, a, hne, hq, hkey⟩
      rw [(hquiet.move _ q a hne hq).2] at hkey
      cases hkey

/-- The calls one after the other: each `(r, ids)` is the next transaction of the call `r`, which
draws `ids`. -/
def Service.serve (S : Service σ ω κ ν ι π ρ ε τ) (answer : π → ρ) :
    List (Nat × List ι) → σ × (Nat → τ) → Option (σ × (Nat → τ))
  | [], x => some x
  | (r, ids) :: ops, (s, stages) =>
    match (S.script r (stages r)).bind fun p => p.alone S.schema s answer ids [] with
    | none => none
    | some (next, ws) =>
      S.serve answer ops (S.schema.view s ws, fun q => if q = r then next else stages q)

/-- A state that is reached with no transaction under way. -/
structure Service.Served (S : Service σ ω κ ν ι π ρ ε τ) (x : σ × (Nat → τ))
    (w : Serving σ ω ν ι π ρ ε τ) : Prop where
  reachable : S.machine.Reachable w
  db : w.db = x.1
  calls : ∀ r, (w.calls r = none ∧ S.posts r (x.2 r)) ∨ w.calls r = some (.between (x.2 r))

theorem Service.Served.quiet {x : σ × (Nat → τ)} (h : S.Served x w) : w.Quiet r := by
  intro q a _ hq
  rcases h.calls q with ⟨hnone, -⟩ | hsome
  · rw [hnone] at hq
    cases hq
  · rw [hsome] at hq
    cases hq
    exact ⟨rfl, rfl⟩

theorem Service.Served.start {s : σ} {stages : Nat → τ} (hs : S.init s)
    (hposts : ∀ r, S.posts r (stages r)) : S.Served (s, stages) ⟨s, fun _ => none, []⟩ :=
  ⟨.start ⟨hs, fun _ => rfl, rfl⟩, rfl, fun r => .inl ⟨rfl, hposts r⟩⟩

/-- The next call is posted, if it has to be. -/
theorem Service.Served.posted {x : σ × (Nat → τ)} (h : S.Served x w) (r : Nat) :
    ∃ w', S.Served x w' ∧ w'.calls r = some (.between (x.2 r)) ∧
      ∀ q, q ≠ r → w'.calls q = w.calls q := by
  rcases h.calls r with ⟨hnone, hposts⟩ | hsome
  · have hr : (w.move r (.between (x.2 r))).calls r = some (.between (x.2 r)) := by
      rw [Serving.move_calls, if_pos rfl]
    have hothers : ∀ q, q ≠ r → (w.move r (.between (x.2 r))).calls q = w.calls q := fun q hq => by
      rw [Serving.move_calls, if_neg hq]
    refine ⟨_, ⟨h.reachable.next (.post hnone hposts), h.db, fun q => ?_⟩, hr, hothers⟩
    by_cases hq : q = r
    · exact .inr (hq ▸ hr)
    · rw [hothers q hq]
      exact h.calls q
  · exact ⟨w, h, hsome, fun _ _ => rfl⟩

/-- A transaction of a call that is alone runs to the end. -/
theorem Service.Served.run {x : σ × (Nat → τ)} {answer : π → ρ} {ids : List ι} {next : τ}
    {ws : List ω} (h : S.Served x w) (hr : w.calls r = some (.between (x.2 r)))
    (hanswer : ∀ q, S.answers q (answer q))
    (hrun : (S.script r (x.2 r)).bind (fun p => p.alone S.schema x.1 answer ids []) =
      some (next, ws)) :
    S.Served (S.schema.view x.1 ws, fun q => if q = r then next else x.2 q)
      (w.afterCommit S.schema r next ws) := by
  obtain ⟨p, hp, halone⟩ := Option.bind_eq_some_iff.mp hrun
  rw [← h.db] at halone
  obtain ⟨ls, hsteps⟩ := Script.alone_steps [] hanswer (fun _ => not_false)
    (fun _ => not_false) halone
  have hdone := Service.statements h.quiet (h.reachable.next (.begin hr hp)) hsteps
  have hcalls : (w.move r (.inside (x.2 r) ⟨.done next, ls, ws⟩)).calls r =
      some (.inside (x.2 r) ⟨.done next, ls, ws⟩) := by
    rw [Serving.move_calls, if_pos rfl]
  have hcommitted := hdone.next (.commit hcalls)
  rw [Serving.afterCommit, Serving.move_move] at hcommitted
  refine ⟨hcommitted, congrArg (S.schema.view · ws) h.db, fun q => ?_⟩
  show ((w.move r (.between next)).calls q = none ∧ _) ∨ (w.move r (.between next)).calls q = _
  rw [Serving.move_calls]
  by_cases hq : q = r
  · dsimp only
    rw [if_pos hq, if_pos hq]
    exact .inr rfl
  · dsimp only
    rw [if_neg hq, if_neg hq]
    exact h.calls q

/-- **Calls that are served one after the other are a run of the service**, in which no other call
moves. -/
theorem Service.Served.serve_others {answer : π → ρ} (hanswer : ∀ q, S.answers q (answer q))
    {ops : List (Nat × List ι)} {x y : σ × (Nat → τ)} (h : S.Served x w)
    (hrun : S.serve answer ops x = some y) :
    ∃ w', S.Served y w' ∧ ∀ q, (∀ op ∈ ops, op.1 ≠ q) → w'.calls q = w.calls q := by
  induction ops generalizing x w with
  | nil =>
    cases hrun
    exact ⟨w, h, fun _ _ => rfl⟩
  | cons op ops ih =>
    obtain ⟨r, ids⟩ := op
    obtain ⟨w', hw', hr, hothers⟩ := h.posted r
    unfold Service.serve at hrun
    split at hrun
    · cases hrun
    · next next ws hnext =>
      obtain ⟨w'', hw'', hrest⟩ := ih (hw'.run hr hanswer hnext) hrun
      refine ⟨w'', hw'', fun q hq => ?_⟩
      obtain ⟨hne, hq⟩ := List.forall_mem_cons.mp hq
      rw [hrest q hq, ← hothers q (Ne.symm hne)]
      show (w'.move r (.between next)).calls q = w'.calls q
      rw [Serving.move_calls, if_neg (Ne.symm hne)]

theorem Service.Served.serve {answer : π → ρ} (hanswer : ∀ q, S.answers q (answer q))
    {ops : List (Nat × List ι)} {x y : σ × (Nat → τ)} (h : S.Served x w)
    (hrun : S.serve answer ops x = some y) : ∃ w', S.Served y w' := by
  obtain ⟨w', hw', -⟩ := h.serve_others hanswer hrun
  exact ⟨w', hw'⟩

theorem Serving.afterCommit_calls {T : Schema σ ω κ} {next : τ} {ws : List ω} :
    (w.afterCommit T r next ws).calls r = some (.between next) := by
  show (w.move r (.between next)).calls r = _
  rw [Serving.move_calls, if_pos rfl]

end Alone

/-! ## Contracts -/

/-- What is to hold: an invariant of the database, a condition on the stages, and, for the
transaction of each stage, what it relies on, how it fails, and what its commit guarantees. -/
structure Contract (σ ω ν ε τ : Type) where
  inv : σ → Prop
  stage : Nat → τ → Prop
  rely : Nat → List ν → List ω → σ → σ → Prop
  error : Nat → τ → ε → Prop
  post : Nat → τ → τ → List ν → σ → List ω → Prop

/-- What has to be shown of a service, one script and one commit at a time. -/
structure Contract.Proved (C : Contract σ ω ν ε τ) (S : Service σ ω κ ν ι π ρ ε τ) : Prop where
  init : ∀ s, S.init s → C.inv s
  posted : ∀ r stage, S.posts r stage → C.stage r stage
  refl : ∀ r ls ws s, C.inv s → C.rely r ls ws s s
  chains : ∀ r, Script.Chains (C.rely r)
  script : ∀ r stage p s, C.stage r stage → C.inv s → S.script r stage = some p →
    p.Safe S.schema id (C.rely r) S.answers (C.error r stage) (fun _ _ => True) (C.post r stage)
      [] s []
  stable : ∀ r stage next ls s s' ws, C.rely r ls ws s s' → S.schema.Free ws s' →
    C.post r stage next ls s ws → C.post r stage next ls s' ws
  next : ∀ r stage next ls s ws, C.stage r stage → C.post r stage next ls s ws → C.stage r next
  failed : ∀ r stage e, C.stage r stage → C.error r stage e → C.stage r (S.failed stage e)
  refused : ∀ r stage key, C.stage r stage → C.stage r (S.refused stage key)
  commit : ∀ r stage next ls s ws, C.inv s → S.schema.Free ws s → C.post r stage next ls s ws →
    C.inv (S.schema.view s ws) ∧
      ∀ q ls' ws', q ≠ r → (∀ n ∈ ls', ∀ m ∈ ls, ¬ S.conflict n m) →
      C.rely q ls' ws' s (S.schema.view s ws)
  elsewhere : ∀ s s', C.inv s → S.elsewhere s s' → C.inv s' ∧ ∀ r ls ws, C.rely r ls ws s s'

section Contracts

variable {S : Service σ ω κ ν ι π ρ ε τ} {C : Contract σ ω ν ε τ}
  {w w' : Serving σ ω ν ι π ρ ε τ} {op : ServiceOp σ κ τ}

/-- What the contract says of a call. -/
def Contract.OfCall (C : Contract σ ω ν ε τ) (S : Service σ ω κ ν ι π ρ ε τ) (s : σ) (r : Nat) :
    Activity σ ω ν ι π ρ ε τ → Prop
  | .between stage => C.stage r stage
  | .inside stage tx => C.stage r stage ∧ tx.script.Safe S.schema id (C.rely r) S.answers
      (C.error r stage) (fun _ _ => True) (C.post r stage) tx.locks s tx.writes
  | .lost => True

/-- The contract is kept so far. -/
structure Contract.Kept (C : Contract σ ω ν ε τ) (S : Service σ ω κ ν ι π ρ ε τ)
    (w : Serving σ ω ν ι π ρ ε τ) : Prop where
  inv : C.inv w.db
  calls : ∀ r a, w.calls r = some a → C.OfCall S w.db r a

/-- A call whose state the others keep to stays within its contract. -/
theorem Contract.Proved.ofCall_rely (hC : C.Proved S) {r : Nat} {a : Activity σ ω ν ι π ρ ε τ}
    {s s' : σ} (h : C.OfCall S s r a) (hrely : ∀ ls ws, a.locks = ls → a.writes = ws →
      C.rely r ls ws s s') (hfree : S.schema.Free a.writes s') : C.OfCall S s' r a := by
  cases a with
  | between stage => exact h
  | lost => trivial
  | inside stage tx =>
    exact ⟨h.1, h.2.rely (hC.chains r) (fun next ls s s' ws => hC.stable r stage next ls s s' ws)
      (hrely _ _ rfl rfl) hfree⟩

/-- The call that moves is within its contract, and the others stay. -/
theorem Contract.Kept.move (hk : C.Kept S w) {r : Nat} {a : Activity σ ω ν ι π ρ ε τ}
    (ha : C.OfCall S w.db r a) : C.Kept S (w.move r a) := by
  refine ⟨hk.inv, fun q b hq => ?_⟩
  rw [Serving.move_calls] at hq
  split at hq
  · next hqr =>
    cases hq
    subst hqr
    exact ha
  · exact hk.calls q b hq

/-- What a transaction that is done guarantees. -/
theorem Contract.Kept.post (hk : C.Kept S w) {r : Nat} {stage next : τ} {ls : List ν}
    {ws : List ω} (hr : w.calls r = some (.inside stage ⟨.done next, ls, ws⟩)) :
    C.stage r stage ∧ C.post r stage next ls w.db ws :=
  hk.calls r _ hr

/-- How a transaction may fail. -/
theorem Contract.Kept.error (hk : C.Kept S w) {r : Nat} {stage : τ} {e : ε} {ls : List ν}
    {ws : List ω} (hr : w.calls r = some (.inside stage ⟨.throw e, ls, ws⟩)) :
    C.stage r stage ∧ C.error r stage e :=
  hk.calls r _ hr

/-- **One step keeps the contract.** -/
theorem Contract.Proved.step (hC : C.Proved S) (hk : C.Kept S w) (ha : w.Apart S)
    (h : S.Step w op w') : C.Kept S w' := by
  cases h with
  | post hr hposts => exact hk.move (hC.posted _ _ hposts)
  | @begin r stage p hr hp =>
    have hstage : C.stage r stage := hk.calls r _ hr
    exact hk.move ⟨hstage, hC.script r stage p w.db hstage hk.inv hp⟩
  | @statement r stage tx tx' hr hstep =>
    obtain ⟨hstage, hsafe⟩ := hk.calls r _ hr
    exact hk.move ⟨hstage, hsafe.step (hC.refl _ _ _ _ hk.inv) (ha.free r _ hr) hstep⟩
  | @commit r stage next ls ws hr =>
    obtain ⟨hstage, hpost⟩ := hk.post hr
    obtain ⟨hinv, hrely⟩ := hC.commit r stage next ls w.db ws hk.inv (ha.free r _ hr) hpost
    refine ⟨hinv, fun q b hq => ?_⟩
    change (w.move r (.between next)).calls q = some b at hq
    rw [Serving.move_calls] at hq
    split at hq
    · next hqr =>
      cases hq
      subst hqr
      exact hC.next _ stage next ls w.db ws hstage hpost
    · next hne =>
      refine hC.ofCall_rely (hk.calls q b hq) ?_ (ha.free_commit hr hne hq)
      rintro _ _ rfl rfl
      exact hrely q _ _ hne (ha.locks q r b _ hne hq hr)
  | @fail r stage e ls ws hr =>
    obtain ⟨hstage, herror⟩ := hk.error hr
    exact hk.move (hC.failed r stage e hstage herror)
  | @refuse r stage tx key hr _ =>
    have hstage : C.stage r stage := (hk.calls r _ hr).1
    exact hk.move (hC.refused r stage key hstage)
  | abort hr => exact hk.move trivial
  | @elsewhere db hdb hfree =>
    obtain ⟨hinv, hrely⟩ := hC.elsewhere w.db db hk.inv hdb
    exact ⟨hinv, fun r a hr =>
      hC.ofCall_rely (hk.calls r a hr) (fun ls ws _ _ => hrely r ls ws) (hfree r a hr)⟩

/-- **The contract is kept in every run.** -/
theorem Contract.Proved.kept (hC : C.Proved S) (hr : S.machine.Reachable w) : C.Kept S w := by
  refine hr.invariant (I := C.Kept S) (fun w hi => ?_) fun w op w' hw hk h =>
    hC.step hk (Service.apart hw) h
  refine ⟨hC.init w.db hi.db, fun r a hcall => ?_⟩
  rw [hi.no_calls] at hcall
  cases hcall

/-! ### One call -/

/-- What the call `r` is promised beyond its contract, as long as `F` holds of the database: the
stages `G`, and what its transactions do. -/
structure Contract.Promise (C : Contract σ ω ν ε τ) (S : Service σ ω κ ν ι π ρ ε τ) (r : Nat)
    (F : σ → Prop) (G : τ → Prop) where
  post : τ → List ν → σ → List ω → Prop
  error : ε → Prop
  kept : ∀ w op w', S.machine.Reachable w → F w.db → S.Step w op w' → F w'.db
  script : ∀ stage p s, G stage → C.inv s → F s → S.script r stage = some p →
    p.Safe S.schema id (fun ls ws s s' => C.rely r ls ws s s' ∧ F s') S.answers error
      (fun _ _ => False) post [] s []
  stable : ∀ next ls s s' ws, C.rely r ls ws s s' → F s' → post next ls s ws → post next ls s' ws
  posted : ∀ stage, S.posts r stage → G stage
  next : ∀ next ls s ws, post next ls s ws → G next
  failed : ∀ stage e, error e → G (S.failed stage e)

variable {r : Nat} {F : σ → Prop} {G : τ → Prop}

/-- Where the call is while the promise is kept. -/
def Contract.Promise.OfCall (P : C.Promise S r F G) (s : σ) : Activity σ ω ν ι π ρ ε τ → Prop
  | .between stage => G stage
  | .inside _ tx => tx.script.Safe S.schema id (fun ls ws s s' => C.rely r ls ws s s' ∧ F s')
      S.answers P.error (fun _ _ => False) P.post tx.locks s tx.writes
  | .lost => True

/-- One step keeps the promise. -/
theorem Contract.Promise.step (P : C.Promise S r F G) (hC : C.Proved S)
    (hw : S.machine.Reachable w) (hF : F w.db) (h : S.Step w op w')
    (hcall : ∀ a, w.calls r = some a → P.OfCall w.db a) :
    ∀ a, w'.calls r = some a → P.OfCall w'.db a := by
  have hk := hC.kept hw
  have ha := Service.apart hw
  have hF' := P.kept w op w' hw hF h
  have hchains : Script.Chains fun ls ws s s' => C.rely r ls ws s s' ∧ F s' :=
    fun ls ws s s' s'' hs hs' => ⟨hC.chains r ls ws s s' s'' hs.1 hs'.1, hs'.2⟩
  -- a call that does not move is promised the same
  have hstay : ∀ a s', P.OfCall w.db a → F s' →
      (∀ ls ws, a.locks = ls → a.writes = ws → C.rely r ls ws w.db s') →
      S.schema.Free a.writes s' → P.OfCall s' a := by
    intro a s' hcall hF' hrely hfree
    cases a with
    | between stage => exact hcall
    | lost => trivial
    | inside stage tx =>
      exact Script.Safe.rely hchains (fun next ls s s' ws hs _ => P.stable next ls s s' ws hs.1 hs.2)
        hcall ⟨hrely _ _ rfl rfl, hF'⟩ hfree
  have hmove : ∀ q a', (q = r → P.OfCall w.db a') →
      ∀ a, (w.move q a').calls r = some a → P.OfCall w.db a := by
    intro q a' ha' a hr
    rw [Serving.move_calls] at hr
    split at hr
    · next hqr =>
      cases hr
      exact ha' hqr.symm
    · exact hcall a hr
  cases h with
  | post _ hposts => exact hmove _ _ fun hq => P.posted _ (hq ▸ hposts)
  | @begin q stage p hq hp =>
    refine hmove _ _ fun hqr => ?_
    subst hqr
    exact P.script stage p w.db (hcall _ hq) hk.inv hF hp
  | @statement q stage tx tx' hq hstep =>
    refine hmove _ _ fun hqr => ?_
    subst hqr
    exact Script.Safe.step ⟨hC.refl _ _ _ _ hk.inv, hF⟩ (hcall _ hq) (ha.free _ _ hq) hstep
  | @commit q stage next ls ws hq =>
    intro a hr
    obtain ⟨-, hpost⟩ := hk.post hq
    change (w.move q (.between next)).calls r = some a at hr
    rw [Serving.move_calls] at hr
    split at hr
    · next hqr =>
      cases hr
      subst hqr
      exact P.next next ls w.db ws (hcall _ hq)
    · next hne =>
      refine hstay a _ (hcall a hr) hF' ?_ (ha.free_commit hq hne hr)
      rintro _ _ rfl rfl
      exact (hC.commit q stage next ls w.db ws hk.inv (ha.free q _ hq) hpost).2 r _ _ hne
        (ha.locks r q a _ hne hr hq)
  | @fail q stage e ls ws hq =>
    refine hmove _ _ fun hqr => ?_
    subst hqr
    exact P.failed stage e (hcall _ hq)
  | @refuse q stage tx key hq hrefused =>
    refine hmove _ _ fun hqr => ?_
    subst hqr
    exact (Script.Safe.refused ⟨hC.refl _ _ _ _ hk.inv, hF⟩ (hcall _ hq) (ha.free _ _ hq)
      hrefused).elim
  | abort => exact hmove _ _ fun _ => trivial
  | @elsewhere db hdb hfree =>
    exact fun a hr => hstay a db (hcall a hr) hF'
      (fun ls ws _ _ => (hC.elsewhere w.db db hk.inv hdb).2 r ls ws) (hfree r a hr)

/-- **The promise is kept whatever happens**: a call that has not begun when `F` holds is at a stage
of `G` ever after. -/
theorem Contract.Promise.holds (P : C.Promise S r F G) (hC : C.Proved S)
    (hw : S.machine.Reachable w) (hF : F w.db)
    (hcall : w.calls r = none ∨ ∃ stage, w.calls r = some (.between stage) ∧ G stage)
    (hlead : S.machine.Leads w w') {stage : τ} (hstage : w'.calls r = some (.between stage)) :
    G stage := by
  have hinv := hlead.keeps (P := fun w => F w.db ∧ ∀ a, w.calls r = some a → P.OfCall w.db a)
    (fun w op w' hw h hstep => ⟨P.kept w op w' hw h.1 hstep, P.step hC hw h.1 hstep h.2⟩) hw
    ⟨hF, fun a ha => by
      rcases hcall with hnone | ⟨stage, hsome, hG⟩
      · rw [hnone] at ha
        cases ha
      · rw [hsome] at ha
        cases ha
        exact hG⟩
  exact hinv.2 _ hstage

end Contracts

end ReadCommitted
