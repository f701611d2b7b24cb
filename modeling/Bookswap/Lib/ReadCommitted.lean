import Mathlib.Data.List.Basic
import Mathlib.Logic.Relation

/-!
# Transactions under READ COMMITTED

A transaction is a script: its statements, with the code between them. Every statement sees what
is committed when it begins, and the transaction's own writes; other transactions commit in
between. An insertion waits for a transaction that has inserted the same unique key, and then is
refused or goes on; a lock waits for whoever holds it.

- `Script`: what a transaction still has to do.
- `Schema`: what a write does, and which unique keys its row takes.
- `Open`, `Open.Step`, `Open.Refused`: a transaction under way, its next statement, and the
  statement that a unique key refuses.
- `Script.Safe`: what a script guarantees whatever others commit meanwhile, as long as they keep
  to a relation (a rely condition). `Safe.bind`, `Safe.step` are the rules.
- `Script.Only`: every write of the script is of a kind.
-/

namespace ReadCommitted

universe u

/-- The rest of a transaction. `σ` is the database, `ω` the writes, `ν` the locks, `ι` the random
identifiers, `π` and `ρ` questions to the outside and their answers, `ε` errors. -/
inductive Script (σ ω ν ι π ρ ε α : Type)
  | done (a : α)
  | throw (e : ε)
  /-- A `SELECT`. -/
  | query (k : σ → Script σ ω ν ι π ρ ε α)
  | write (x : ω) (k : Script σ ω ν ι π ρ ε α)
  /-- `INSERT … ON CONFLICT DO NOTHING` -/
  | writeNew (x : ω) (k : Script σ ω ν ι π ρ ε α)
  | lock (n : ν) (k : Script σ ω ν ι π ρ ε α)
  | newId (k : ι → Script σ ω ν ι π ρ ε α)
  | ask (q : π) (k : ρ → Script σ ω ν ι π ρ ε α)

variable {σ ω κ ν ι π ρ ε α β : Type}

namespace Script

/-- One script after the other. -/
def bind (p : Script σ ω ν ι π ρ ε α) (f : α → Script σ ω ν ι π ρ ε β) :
    Script σ ω ν ι π ρ ε β :=
  match p with
  | done a => f a
  | throw e => throw e
  | query k => query fun s => (k s).bind f
  | write x k => write x (k.bind f)
  | writeNew x k => writeNew x (k.bind f)
  | lock n k => lock n (k.bind f)
  | newId k => newId fun i => (k i).bind f
  | ask q k => ask q fun r => (k r).bind f

instance : Monad (Script σ ω ν ι π ρ ε) where
  pure := done
  bind := bind

theorem bind_done (p : Script σ ω ν ι π ρ ε α) : p.bind done = p := by
  induction p with
  | done a | throw e => rfl
  | query k ih => exact congrArg query (funext ih)
  | write x k ih => exact congrArg (write x) ih
  | writeNew x k ih => exact congrArg (writeNew x) ih
  | lock n k ih => exact congrArg (lock n) ih
  | newId k ih => exact congrArg newId (funext ih)
  | ask q k ih => exact congrArg (ask q) (funext ih)

theorem bind_assoc {γ : Type} (p : Script σ ω ν ι π ρ ε α) (f : α → Script σ ω ν ι π ρ ε β)
    (g : β → Script σ ω ν ι π ρ ε γ) : (p.bind f).bind g = p.bind fun a => (f a).bind g := by
  induction p with
  | done a | throw e => rfl
  | query k ih => exact congrArg query (funext ih)
  | write x k ih => exact congrArg (write x) ih
  | writeNew x k ih => exact congrArg (writeNew x) ih
  | lock n k ih => exact congrArg (lock n) ih
  | newId k ih => exact congrArg newId (funext ih)
  | ask q k ih => exact congrArg (ask q) (funext ih)

instance : LawfulMonad (Script σ ω ν ι π ρ ε) :=
  LawfulMonad.mk' (Script σ ω ν ι π ρ ε) bind_done (fun _ _ => rfl) bind_assoc

/-- What a `SELECT` finds. -/
def select (f : σ → α) : Script σ ω ν ι π ρ ε α := query fun s => done (f s)

def insert (x : ω) : Script σ ω ν ι π ρ ε Unit := write x (done ())

def insertNew (x : ω) : Script σ ω ν ι π ρ ε Unit := writeNew x (done ())

def acquire (n : ν) : Script σ ω ν ι π ρ ε Unit := lock n (done ())

def draw : Script σ ω ν ι π ρ ε ι := newId done

def request (q : π) : Script σ ω ν ι π ρ ε ρ := ask q done

def ofExcept (x : Except ε α) : Script σ ω ν ι π ρ ε α :=
  match x with
  | .ok a => done a
  | .error e => throw e

end Script

/-- What a write does, the unique keys its row takes, and the keys that are taken. -/
structure Schema (σ ω κ : Type) where
  write : ω → σ → σ
  keys : ω → List κ
  taken : σ → κ → Bool
  taken_write : ∀ x s k, taken (write x s) k = true ↔ k ∈ keys x ∨ taken s k = true

namespace Schema

/-- The database as the transaction sees it: what is committed, with its writes (newest first). -/
def view (S : Schema σ ω κ) (s : σ) (ws : List ω) : σ := ws.foldr S.write s

@[simp] theorem view_nil (S : Schema σ ω κ) (s : σ) : S.view s [] = s := rfl

@[simp] theorem view_cons (S : Schema σ ω κ) (s : σ) (x : ω) (ws : List ω) :
    S.view s (x :: ws) = S.write x (S.view s ws) := rfl

theorem view_append (S : Schema σ ω κ) (s : σ) (ws ws' : List ω) :
    S.view s (ws' ++ ws) = S.view (S.view s ws) ws' := List.foldr_append

/-- The keys that the writes take. -/
def keysOf (S : Schema σ ω κ) (ws : List ω) : List κ := ws.flatMap S.keys

theorem taken_view (S : Schema σ ω κ) {s : σ} {ws : List ω} {k : κ} :
    S.taken (S.view s ws) k = true ↔ k ∈ S.keysOf ws ∨ S.taken s k = true := by
  induction ws with
  | nil => simp [keysOf]
  | cons x ws ih =>
    rw [view_cons, S.taken_write, ih, ← or_assoc]
    simp only [keysOf, List.flatMap_cons, List.mem_append]

/-- None of the keys of the writes is taken. -/
def Free (S : Schema σ ω κ) (ws : List ω) (s : σ) : Prop :=
  ∀ k ∈ S.keysOf ws, S.taken s k = false

theorem free_nil (S : Schema σ ω κ) (s : σ) : S.Free [] s := fun _ h => nomatch h

/-- One more write whose keys are free. -/
theorem Free.cons {S : Schema σ ω κ} {x : ω} {ws : List ω} {s : σ} (h : S.Free ws s)
    (hx : ∀ k ∈ S.keys x, S.taken (S.view s ws) k = false) : S.Free (x :: ws) s := by
  intro k hk
  rcases List.mem_append.mp hk with hk | hk
  · refine Bool.eq_false_iff.mpr fun htaken => ?_
    have hview : S.taken (S.view s ws) k = true := S.taken_view.mpr (Or.inr htaken)
    rw [hx k hk] at hview
    cases hview
  · exact h k hk

theorem Free.tail {S : Schema σ ω κ} {x : ω} {ws : List ω} {s : σ} (h : S.Free (x :: ws) s) :
    S.Free ws s :=
  fun k hk => h k (List.mem_append_right _ hk)

end Schema

/-! ## Transactions under way -/

/-- A transaction under way: the rest of its script, the locks it holds, and its writes, newest
first. -/
structure Open (σ ω ν ι π ρ ε α : Type) where
  script : Script σ ω ν ι π ρ ε α
  locks : List ν
  writes : List ω

namespace Open

/-- A transaction that begins. -/
def start (p : Script σ ω ν ι π ρ ε α) : Open σ ω ν ι π ρ ε α := ⟨p, [], []⟩

/-- The next statement runs. `held` are the locks and `pending` the keys of the others, `answers`
what the outside answers. -/
inductive Step (S : Schema σ ω κ) (answers : π → ρ → Prop) (held : ν → Prop)
    (pending : κ → Prop) (s : σ) : Open σ ω ν ι π ρ ε α → Open σ ω ν ι π ρ ε α → Prop
  | query {k : σ → Script σ ω ν ι π ρ ε α} {ls : List ν} {ws : List ω} :
      Step S answers held pending s ⟨.query k, ls, ws⟩ ⟨k (S.view s ws), ls, ws⟩
  | write {x : ω} {k : Script σ ω ν ι π ρ ε α} {ls : List ν} {ws : List ω} :
      (∀ key ∈ S.keys x, ¬ pending key ∧ S.taken (S.view s ws) key = false) →
      Step S answers held pending s ⟨.write x k, ls, ws⟩ ⟨k, ls, x :: ws⟩
  | writeNew {x : ω} {k : Script σ ω ν ι π ρ ε α} {ls : List ν} {ws : List ω} :
      (∀ key ∈ S.keys x, ¬ pending key ∧ S.taken (S.view s ws) key = false) →
      Step S answers held pending s ⟨.writeNew x k, ls, ws⟩ ⟨k, ls, x :: ws⟩
  /-- A key of the row is taken: nothing is written. -/
  | writeOld {x : ω} {k : Script σ ω ν ι π ρ ε α} {ls : List ν} {ws : List ω} {key : κ} :
      key ∈ S.keys x → (∀ key ∈ S.keys x, ¬ pending key) → S.taken (S.view s ws) key = true →
      Step S answers held pending s ⟨.writeNew x k, ls, ws⟩ ⟨k, ls, ws⟩
  | lock {n : ν} {k : Script σ ω ν ι π ρ ε α} {ls : List ν} {ws : List ω} : ¬ held n →
      Step S answers held pending s ⟨.lock n k, ls, ws⟩ ⟨k, n :: ls, ws⟩
  | newId {i : ι} {k : ι → Script σ ω ν ι π ρ ε α} {ls : List ν} {ws : List ω} :
      Step S answers held pending s ⟨.newId k, ls, ws⟩ ⟨k i, ls, ws⟩
  | ask {q : π} {r : ρ} {k : ρ → Script σ ω ν ι π ρ ε α} {ls : List ν} {ws : List ω} :
      answers q r → Step S answers held pending s ⟨.ask q k, ls, ws⟩ ⟨k r, ls, ws⟩

/-- The unique key refuses the next write. -/
inductive Refused (S : Schema σ ω κ) (pending : κ → Prop) (s : σ) (key : κ) :
    Open σ ω ν ι π ρ ε α → Prop
  | write {x : ω} {k : Script σ ω ν ι π ρ ε α} {ls : List ν} {ws : List ω} :
      key ∈ S.keys x → (∀ key ∈ S.keys x, ¬ pending key) → S.taken (S.view s ws) key = true →
      Refused S pending s key ⟨.write x k, ls, ws⟩

/-- With fewer locks and keys of others a statement runs all the same. -/
theorem Step.mono {S : Schema σ ω κ} {answers : π → ρ → Prop} {held held' : ν → Prop}
    {pending pending' : κ → Prop} {s : σ} {t t' : Open σ ω ν ι π ρ ε α}
    (h : t.Step S answers held pending s t') (hheld : ∀ n, held' n → held n)
    (hpending : ∀ key, pending' key → pending key) : t.Step S answers held' pending' s t' := by
  cases h with
  | query => exact .query
  | write hnew =>
    exact .write fun key hkey => ⟨fun hp => (hnew key hkey).1 (hpending key hp), (hnew key hkey).2⟩
  | writeNew hnew =>
    exact .writeNew fun key hkey =>
      ⟨fun hp => (hnew key hkey).1 (hpending key hp), (hnew key hkey).2⟩
  | writeOld hkey hnew hold =>
    exact .writeOld hkey (fun key hkey hp => hnew key hkey (hpending key hp)) hold
  | lock hfree => exact .lock fun hn => hfree (hheld _ hn)
  | newId => exact .newId
  | ask hr => exact .ask hr

/-- A statement takes the keys of what it writes, which nobody has; it gives none back. -/
theorem Step.keys {S : Schema σ ω κ} {answers : π → ρ → Prop} {held : ν → Prop}
    {pending : κ → Prop} {s : σ} {t t' : Open σ ω ν ι π ρ ε α}
    (h : t.Step S answers held pending s t') :
    t'.writes = t.writes ∨ ∃ x, t'.writes = x :: t.writes ∧
      ∀ key ∈ S.keys x, ¬ pending key ∧ S.taken (S.view s t.writes) key = false := by
  cases h with
  | write hfree | writeNew hfree => exact Or.inr ⟨_, rfl, hfree⟩
  | _ => exact Or.inl rfl

/-- A statement takes at most one lock, which nobody holds. -/
theorem Step.locks {S : Schema σ ω κ} {answers : π → ρ → Prop} {held : ν → Prop}
    {pending : κ → Prop} {s : σ} {t t' : Open σ ω ν ι π ρ ε α}
    (h : t.Step S answers held pending s t') :
    t'.locks = t.locks ∨ ∃ n, t'.locks = n :: t.locks ∧ ¬ held n := by
  cases h with
  | lock hfree => exact Or.inr ⟨_, rfl, hfree⟩
  | _ => exact Or.inl rfl

/-- The keys of a transaction stay free of what is committed. -/
theorem Step.free {S : Schema σ ω κ} {answers : π → ρ → Prop} {held : ν → Prop}
    {pending : κ → Prop} {s : σ} {t t' : Open σ ω ν ι π ρ ε α}
    (h : t.Step S answers held pending s t') (hfree : S.Free t.writes s) :
    S.Free t'.writes s := by
  rcases h.keys with hsame | ⟨x, hcons, hx⟩
  · rwa [hsame]
  · rw [hcons]
    exact hfree.cons fun key hkey => (hx key hkey).2

end Open

/-! ## What a script guarantees -/

namespace Script

/-- **Rely and guarantee.** `W` is the world, of which the database is a part. While the
transaction holds the locks `ls` and has written `ws`, others move the world along `R ls ws`; the
outside answers as `A` says. Then the script ends with a result as `Q` says, or with an error as
`E` says, or is refused a key as `V` says. -/
def Safe {W : Type} (S : Schema σ ω κ) (db : W → σ) (R : List ν → List ω → W → W → Prop)
    (A : π → ρ → Prop) (E : ε → Prop) (V : κ → W → Prop)
    (Q : α → List ν → W → List ω → Prop) :
    Script σ ω ν ι π ρ ε α → List ν → W → List ω → Prop
  | done a, ls, w, ws => Q a ls w ws
  | throw e, _, _, _ => E e
  | query k, ls, w, ws => ∀ w', R ls ws w w' → S.Free ws (db w') →
      Safe S db R A E V Q (k (S.view (db w') ws)) ls w' ws
  | write x k, ls, w, ws => ∀ w', R ls ws w w' → S.Free ws (db w') →
      (∀ key ∈ S.keys x, S.taken (S.view (db w') ws) key = true → V key w') ∧
      ((∀ key ∈ S.keys x, S.taken (S.view (db w') ws) key = false) →
        Safe S db R A E V Q k ls w' (x :: ws))
  | writeNew x k, ls, w, ws => ∀ w', R ls ws w w' → S.Free ws (db w') →
      ((∃ key ∈ S.keys x, S.taken (S.view (db w') ws) key = true) →
        Safe S db R A E V Q k ls w' ws) ∧
      ((∀ key ∈ S.keys x, S.taken (S.view (db w') ws) key = false) →
        Safe S db R A E V Q k ls w' (x :: ws))
  | lock n k, ls, w, ws => ∀ w', R ls ws w w' → S.Free ws (db w') →
      Safe S db R A E V Q k (n :: ls) w' ws
  | newId k, ls, w, ws => ∀ i, Safe S db R A E V Q (k i) ls w ws
  | ask q k, ls, w, ws => ∀ r, A q r → Safe S db R A E V Q (k r) ls w ws

section Rules

variable {W : Type} {S : Schema σ ω κ} {db : W → σ} {R : List ν → List ω → W → W → Prop}
  {A : π → ρ → Prop} {E : ε → Prop} {V : κ → W → Prop}

/-- The rely condition composes. -/
def Chains (R : List ν → List ω → W → W → Prop) : Prop :=
  ∀ ls ws w w' w'', R ls ws w w' → R ls ws w' w'' → R ls ws w w''

/-- What the others do does not spoil the guarantee. -/
theorem Safe.rely {Q : α → List ν → W → List ω → Prop} (hR : Chains R)
    (hQ : ∀ a ls w w' ws, R ls ws w w' → S.Free ws (db w') → Q a ls w ws → Q a ls w' ws)
    {p : Script σ ω ν ι π ρ ε α} {ls : List ν} {w w' : W} {ws : List ω}
    (h : p.Safe S db R A E V Q ls w ws) (hw : R ls ws w w') (hfree : S.Free ws (db w')) :
    p.Safe S db R A E V Q ls w' ws := by
  induction p with
  | done a => exact hQ a ls w w' ws hw hfree h
  | throw e => exact h
  | query k => exact fun w'' hw' => h w'' (hR _ _ _ _ _ hw hw')
  | write x k => exact fun w'' hw' => h w'' (hR _ _ _ _ _ hw hw')
  | writeNew x k => exact fun w'' hw' => h w'' (hR _ _ _ _ _ hw hw')
  | lock n k => exact fun w'' hw' => h w'' (hR _ _ _ _ _ hw hw')
  | newId k ih => exact fun i => ih i (h i)
  | ask q k ih => exact fun r hr => ih r (h r hr)

/-- A weaker result. -/
theorem Safe.mono {Q Q' : α → List ν → W → List ω → Prop}
    (hQ : ∀ a ls w ws, Q a ls w ws → Q' a ls w ws) {p : Script σ ω ν ι π ρ ε α} {ls : List ν}
    {w : W} {ws : List ω} (h : p.Safe S db R A E V Q ls w ws) :
    p.Safe S db R A E V Q' ls w ws := by
  induction p generalizing ls w ws with
  | done a => exact hQ a ls w ws h
  | throw e => exact h
  | query k ih => exact fun w' hw hfree => ih _ (h w' hw hfree)
  | write x k ih =>
    exact fun w' hw hfree => ⟨(h w' hw hfree).1, fun hnew => ih ((h w' hw hfree).2 hnew)⟩
  | writeNew x k ih =>
    exact fun w' hw hfree =>
      ⟨fun hold => ih ((h w' hw hfree).1 hold), fun hnew => ih ((h w' hw hfree).2 hnew)⟩
  | lock n k ih => exact fun w' hw hfree => ih (h w' hw hfree)
  | newId k ih => exact fun i => ih i (h i)
  | ask q k ih => exact fun r hr => ih r (h r hr)

/-- Others that do less. -/
theorem Safe.others {R' : List ν → List ω → W → W → Prop} {Q : α → List ν → W → List ω → Prop}
    (hR : ∀ ls ws w w', R' ls ws w w' → R ls ws w w') {p : Script σ ω ν ι π ρ ε α} {ls : List ν}
    {w : W} {ws : List ω} (h : p.Safe S db R A E V Q ls w ws) :
    p.Safe S db R' A E V Q ls w ws := by
  induction p generalizing ls w ws with
  | done a | throw e => exact h
  | query k ih => exact fun w' hw hfree => ih _ (h w' (hR _ _ _ _ hw) hfree)
  | write x k ih =>
    exact fun w' hw hfree => ⟨(h w' (hR _ _ _ _ hw) hfree).1, fun hnew =>
      ih ((h w' (hR _ _ _ _ hw) hfree).2 hnew)⟩
  | writeNew x k ih =>
    exact fun w' hw hfree => ⟨fun hold => ih ((h w' (hR _ _ _ _ hw) hfree).1 hold), fun hnew =>
      ih ((h w' (hR _ _ _ _ hw) hfree).2 hnew)⟩
  | lock n k ih => exact fun w' hw hfree => ih (h w' (hR _ _ _ _ hw) hfree)
  | newId k ih => exact fun i => ih i (h i)
  | ask q k ih => exact fun r hr => ih r (h r hr)

/-- **Framing**: what the others keep, holds at the end as it held at the start. -/
theorem Safe.frame {Q : α → List ν → W → List ω → Prop} {F : W → Prop}
    (hF : ∀ ls ws w w', R ls ws w w' → F w → F w') {p : Script σ ω ν ι π ρ ε α} {ls : List ν}
    {w : W} {ws : List ω} (h : p.Safe S db R A E V Q ls w ws) (hw : F w) :
    p.Safe S db R A E V (fun a ls w ws => Q a ls w ws ∧ F w) ls w ws := by
  induction p generalizing ls w ws with
  | done a => exact ⟨h, hw⟩
  | throw e => exact h
  | query k ih => exact fun w' hR hfree => ih _ (h w' hR hfree) (hF _ _ _ _ hR hw)
  | write x k ih =>
    exact fun w' hR hfree => ⟨(h w' hR hfree).1, fun hnew =>
      ih ((h w' hR hfree).2 hnew) (hF _ _ _ _ hR hw)⟩
  | writeNew x k ih =>
    exact fun w' hR hfree =>
      ⟨fun hold => ih ((h w' hR hfree).1 hold) (hF _ _ _ _ hR hw),
        fun hnew => ih ((h w' hR hfree).2 hnew) (hF _ _ _ _ hR hw)⟩
  | lock n k ih => exact fun w' hR hfree => ih (h w' hR hfree) (hF _ _ _ _ hR hw)
  | newId k ih => exact fun i => ih i (h i) hw
  | ask q k ih => exact fun r hr => ih r (h r hr) hw

/-- **Sequencing**: the second script starts from what the first guarantees. -/
theorem Safe.bind {Q : β → List ν → W → List ω → Prop} {p : Script σ ω ν ι π ρ ε α}
    {f : α → Script σ ω ν ι π ρ ε β} {ls : List ν} {w : W} {ws : List ω}
    (h : p.Safe S db R A E V (fun a => (f a).Safe S db R A E V Q) ls w ws) :
    (p >>= f).Safe S db R A E V Q ls w ws := by
  show (p.bind f).Safe S db R A E V Q ls w ws
  induction p generalizing ls w ws with
  | done a => exact h
  | throw e => exact h
  | query k ih => exact fun w' hw hfree => ih _ (h w' hw hfree)
  | write x k ih =>
    exact fun w' hw hfree => ⟨(h w' hw hfree).1, fun hnew => ih ((h w' hw hfree).2 hnew)⟩
  | writeNew x k ih =>
    exact fun w' hw hfree =>
      ⟨fun hold => ih ((h w' hw hfree).1 hold), fun hnew => ih ((h w' hw hfree).2 hnew)⟩
  | lock n k ih => exact fun w' hw hfree => ih (h w' hw hfree)
  | newId k ih => exact fun i => ih i (h i)
  | ask q k ih => exact fun r hr => ih r (h r hr)

/-- A `SELECT`, and what is done with it. -/
theorem Safe.select {Q : β → List ν → W → List ω → Prop} {f : σ → α}
    {g : α → Script σ ω ν ι π ρ ε β} {ls : List ν} {w : W} {ws : List ω}
    (h : ∀ w', R ls ws w w' → S.Free ws (db w') →
      (g (f (S.view (db w') ws))).Safe S db R A E V Q ls w' ws) :
    (select f >>= g).Safe S db R A E V Q ls w ws := h

/-- A lock, and what is done under it. -/
theorem Safe.acquire {Q : β → List ν → W → List ω → Prop} {n : ν}
    {g : Unit → Script σ ω ν ι π ρ ε β} {ls : List ν} {w : W} {ws : List ω}
    (h : ∀ w', R ls ws w w' → S.Free ws (db w') →
      (g ()).Safe S db R A E V Q (n :: ls) w' ws) :
    (Script.acquire n >>= g).Safe S db R A E V Q ls w ws := h

/-- **One statement keeps the guarantee.** -/
theorem Safe.step {Q : α → List ν → W → List ω → Prop} {held : ν → Prop} {pending : κ → Prop}
    {t t' : Open σ ω ν ι π ρ ε α} {w : W} (hrefl : R t.locks t.writes w w)
    (h : t.script.Safe S db R A E V Q t.locks w t.writes) (hfree : S.Free t.writes (db w))
    (hs : t.Step S A held pending (db w) t') :
    t'.script.Safe S db R A E V Q t'.locks w t'.writes := by
  cases hs with
  | query => exact h w hrefl hfree
  | write hnew => exact (h w hrefl hfree).2 fun key hkey => (hnew key hkey).2
  | writeNew hnew => exact (h w hrefl hfree).2 fun key hkey => (hnew key hkey).2
  | writeOld hkey _ hold => exact (h w hrefl hfree).1 ⟨_, hkey, hold⟩
  | lock => exact h w hrefl hfree
  | newId => exact h _
  | ask hr => exact h _ hr

/-- A refused statement is refused as `V` says. -/
theorem Safe.refused {Q : α → List ν → W → List ω → Prop} {pending : κ → Prop} {key : κ}
    {t : Open σ ω ν ι π ρ ε α} {w : W} (hrefl : R t.locks t.writes w w)
    (h : t.script.Safe S db R A E V Q t.locks w t.writes) (hfree : S.Free t.writes (db w))
    (hs : t.Refused S pending (db w) key) : V key w := by
  cases hs with
  | write hkey _ hold => exact (h w hrefl hfree).1 key hkey hold

end Rules

/-! ## The kinds of writes -/

/-- Every write of the script is one of `P`. -/
def Only (P : ω → Prop) : Script σ ω ν ι π ρ ε α → Prop
  | done _ => True
  | throw _ => True
  | query k => ∀ s, Only P (k s)
  | write x k => P x ∧ Only P k
  | writeNew x k => P x ∧ Only P k
  | lock _ k => Only P k
  | newId k => ∀ i, Only P (k i)
  | ask _ k => ∀ r, Only P (k r)

theorem Only.bind {P : ω → Prop} {p : Script σ ω ν ι π ρ ε α}
    {f : α → Script σ ω ν ι π ρ ε β} (hp : p.Only P) (hf : ∀ a, (f a).Only P) :
    (p >>= f).Only P := by
  show (p.bind f).Only P
  induction p with
  | done a => exact hf a
  | throw e => trivial
  | query k ih => exact fun s => ih s (hp s)
  | write x k ih => exact ⟨hp.1, ih hp.2⟩
  | writeNew x k ih => exact ⟨hp.1, ih hp.2⟩
  | lock n k ih => exact ih hp
  | newId k ih => exact fun i => ih i (hp i)
  | ask q k ih => exact fun r => ih r (hp r)

/-- Every step of the loop writes only such rows. -/
theorem Only.forM {P : ω → Prop} {l : List α} {f : α → Script σ ω ν ι π ρ ε PUnit}
    (h : ∀ a, (f a).Only P) : (l.forM f).Only P := by
  induction l with
  | nil => trivial
  | cons a l ih =>
    show Only P (f a >>= fun _ => l.forM f)
    exact (h a).bind fun _ => ih

theorem Only.mapM {P : ω → Prop} {l : List α} {f : α → Script σ ω ν ι π ρ ε β}
    (h : ∀ a, (f a).Only P) : (l.mapM f).Only P := by
  induction l with
  | nil => trivial
  | cons a l ih =>
    rw [List.mapM_cons]
    exact (h a).bind fun _ => ih.bind fun _ => trivial

theorem Only.ofExcept {P : ω → Prop} {x : Except ε α} :
    (ofExcept x : Script σ ω ν ι π ρ ε α).Only P := by
  cases x <;> trivial

/-- A script with writes of a kind adds only those, whatever the others do. -/
theorem Only.safe {W : Type} {S : Schema σ ω κ} {db : W → σ} {R : List ν → List ω → W → W → Prop}
    {A : π → ρ → Prop} {P : ω → Prop} {p : Script σ ω ν ι π ρ ε α} (h : p.Only P)
    {ls : List ν} {w : W} {ws : List ω} :
    p.Safe S db R A (fun _ => True) (fun _ _ => True)
      (fun _ _ _ ws' => ∃ added, ws' = added ++ ws ∧ ∀ x ∈ added, P x) ls w ws := by
  induction p generalizing ls w ws with
  | done a => exact ⟨[], rfl, fun x hx => nomatch hx⟩
  | throw e => trivial
  | query k ih => exact fun w' _ _ => ih _ (h _)
  | write x k ih =>
    refine fun w' _ _ => ⟨fun _ _ _ => trivial, fun _ => ?_⟩
    refine (ih h.2).mono fun a ls w ws' => ?_
    rintro ⟨added, rfl, hP⟩
    exact ⟨added ++ [x], by simp, by simpa [or_imp, forall_and] using ⟨hP, h.1⟩⟩
  | writeNew x k ih =>
    refine fun w' _ _ => ⟨fun _ => ih h.2, fun _ => ?_⟩
    refine (ih h.2).mono fun a ls w ws' => ?_
    rintro ⟨added, rfl, hP⟩
    exact ⟨added ++ [x], by simp, by simpa [or_imp, forall_and] using ⟨hP, h.1⟩⟩
  | lock n k ih => exact fun w' _ _ => ih h
  | newId k ih => exact fun i => ih i (h i)
  | ask q k ih => exact fun r _ => ih r (h r)

/-- The script reads, draws identifiers and writes rows of `P`; it takes no lock and does not
fail. -/
def Plain (P : ω → Prop) : Script σ ω ν ι π ρ ε α → Prop
  | done _ => True
  | throw _ => False
  | query k => ∀ s, Plain P (k s)
  | write x k => P x ∧ Plain P k
  | writeNew _ _ => False
  | lock _ _ => False
  | newId k => ∀ i, Plain P (k i)
  | ask _ _ => False

theorem Plain.bind {P : ω → Prop} {p : Script σ ω ν ι π ρ ε α}
    {f : α → Script σ ω ν ι π ρ ε β} (hp : p.Plain P) (hf : ∀ a, (f a).Plain P) :
    (p >>= f).Plain P := by
  show (p.bind f).Plain P
  induction p with
  | done a => exact hf a
  | throw e => exact hp
  | query k ih => exact fun s => ih s (hp s)
  | write x k ih => exact ⟨hp.1, ih hp.2⟩
  | newId k ih => exact fun i => ih i (hp i)
  | writeNew x k | lock n k | ask q k => exact hp.elim

theorem Plain.forM {P : ω → Prop} {l : List α} {f : α → Script σ ω ν ι π ρ ε PUnit}
    (h : ∀ a, (f a).Plain P) : (l.forM f).Plain P := by
  induction l with
  | nil => trivial
  | cons a l ih =>
    show Plain P (f a >>= fun _ => l.forM f)
    exact (h a).bind fun _ => ih

/-- A plain script adds rows of `P`, and keeps what the others keep. -/
theorem Plain.safe {W : Type} {S : Schema σ ω κ} {db : W → σ}
    {R : List ν → List ω → W → W → Prop} {A : π → ρ → Prop} {E : ε → Prop} {V : κ → W → Prop}
    {P : ω → Prop} {p : Script σ ω ν ι π ρ ε α} (h : p.Plain P)
    (hV : ∀ x, P x → ∀ key ∈ S.keys x, ∀ w, V key w) {F : W → Prop} {ls : List ν} {w : W}
    {ws : List ω} (hF : ∀ ws w w', R ls ws w w' → F w → F w') (hw : F w) :
    p.Safe S db R A E V (fun _ ls' w' ws' => ls' = ls ∧ F w' ∧
      ∃ added, ws' = added ++ ws ∧ ∀ x ∈ added, P x) ls w ws := by
  induction p generalizing w ws with
  | done a => exact ⟨rfl, hw, [], rfl, fun x hx => nomatch hx⟩
  | throw e => exact h.elim
  | query k ih => exact fun w' hR _ => ih _ (h _) (hF _ _ _ hR hw)
  | write x k ih =>
    refine fun w' hR _ => ⟨fun key hkey _ => hV x h.1 key hkey w', fun _ => ?_⟩
    refine (ih h.2 (hF _ _ _ hR hw)).mono fun a ls' w' ws' => ?_
    rintro ⟨hls, hF', added, rfl, hP⟩
    exact ⟨hls, hF', added ++ [x], by simp, by simpa [or_imp, forall_and] using ⟨hP, h.1⟩⟩
  | newId k ih => exact fun i => ih i (h i) hw
  | writeNew x k | lock n k | ask q k => exact h.elim

/-! ## Many statements of a kind -/

/-- The script only draws identifiers, and ends as `P` says or throws as `E` says. -/
def Draws (E : ε → Prop) (P : α → Prop) : Script σ ω ν ι π ρ ε α → Prop
  | done a => P a
  | throw e => E e
  | newId k => ∀ i, Draws E P (k i)
  | query _ | write _ _ | writeNew _ _ | lock _ _ | ask _ _ => False

theorem Draws.bind {E : ε → Prop} {P : α → Prop} {Q : β → Prop} {p : Script σ ω ν ι π ρ ε α}
    {f : α → Script σ ω ν ι π ρ ε β} (hp : p.Draws E P) (hf : ∀ a, P a → (f a).Draws E Q) :
    (p >>= f).Draws E Q := by
  show (p.bind f).Draws E Q
  induction p with
  | done a => exact hf a hp
  | throw e => exact hp
  | newId k ih => exact fun i => ih i (hp i)
  | query | write | writeNew | lock | ask => exact hp.elim

/-- A loop of draws: what each round ends with. -/
theorem Draws.mapM {E : ε → Prop} {P : α → β → Prop} {l : List α}
    {f : α → Script σ ω ν ι π ρ ε β} (h : ∀ a ∈ l, (f a).Draws E (P a)) :
    (l.mapM f).Draws E fun bs => List.Forall₂ P l bs := by
  induction l with
  | nil => exact .nil
  | cons a l ih =>
    rw [List.mapM_cons]
    refine (h a List.mem_cons_self).bind fun b hb => ?_
    refine (ih fun c hc => h c (List.mem_cons_of_mem _ hc)).bind fun bs hbs => ?_
    exact .cons hb hbs

theorem Draws.mono {E : ε → Prop} {P Q : α → Prop} (hPQ : ∀ a, P a → Q a)
    {p : Script σ ω ν ι π ρ ε α} (h : p.Draws E P) : p.Draws E Q := by
  induction p with
  | done a => exact hPQ a h
  | throw e => exact h
  | newId k ih => exact fun i => ih i (h i)
  | query | write | writeNew | lock | ask => exact h.elim

/-- The script writes nothing and takes no lock, and what it ends with is `P`. -/
def Reads (P : α → Prop) : Script σ ω ν ι π ρ ε α → Prop
  | done a => P a
  | throw _ => True
  | query k => ∀ s, Reads P (k s)
  | newId k => ∀ i, Reads P (k i)
  | ask _ k => ∀ r, Reads P (k r)
  | write _ _ | writeNew _ _ | lock _ _ => False

theorem Reads.bind {P : α → Prop} {Q : β → Prop} {p : Script σ ω ν ι π ρ ε α}
    {f : α → Script σ ω ν ι π ρ ε β} (hp : p.Reads P) (hf : ∀ a, P a → (f a).Reads Q) :
    (p >>= f).Reads Q := by
  show (p.bind f).Reads Q
  induction p with
  | done a => exact hf a hp
  | throw e => trivial
  | query k ih => exact fun s => ih s (hp s)
  | newId k ih => exact fun i => ih i (hp i)
  | ask q k ih => exact fun r => ih r (hp r)
  | write | writeNew | lock => exact hp.elim

theorem Reads.select {P : β → Prop} {f : σ → α} {g : α → Script σ ω ν ι π ρ ε β}
    (h : ∀ s, (g (f s)).Reads P) : (select f >>= g).Reads P := h

theorem Reads.ofExcept {P : α → Prop} {x : Except ε α} (h : ∀ a, x = .ok a → P a) :
    (ofExcept x : Script σ ω ν ι π ρ ε α).Reads P := by
  cases x with
  | ok a => exact h a rfl
  | error e => trivial

section Loops

variable {W : Type} {S : Schema σ ω κ} {db : W → σ} {R : List ν → List ω → W → W → Prop}
  {A : π → ρ → Prop} {E : ε → Prop} {ls : List ν} {w : W} {ws : List ω}

/-- Draws change nothing. -/
theorem Draws.safe {V : κ → W → Prop} {P : α → Prop} {Q : α → List ν → W → List ω → Prop}
    {p : Script σ ω ν ι π ρ ε α} (h : p.Draws E P) (hQ : ∀ a, P a → Q a ls w ws) :
    p.Safe S db R A E V Q ls w ws := by
  induction p with
  | done a => exact hQ a h
  | throw e => exact h
  | newId k ih => exact fun i => ih i (h i)
  | query | write | writeNew | lock | ask => exact h.elim

/-- Reading changes nothing, while `J` is kept. -/
theorem Reads.safe {V : κ → W → Prop} {P : α → Prop} {J : W → Prop}
    {Q : α → List ν → W → List ω → Prop} {p : Script σ ω ν ι π ρ ε α} (h : p.Reads P)
    (hJ : ∀ w w', R ls ws w w' → J w → J w') (hw : J w)
    (hQ : ∀ a w', P a → J w' → Q a ls w' ws) : p.Safe S db R A (fun _ => True) V Q ls w ws := by
  induction p generalizing w with
  | done a => exact hQ a w h hw
  | throw e => trivial
  | query k ih => exact fun w' hR _ => ih _ (h _) (hJ _ _ hR hw)
  | newId k ih => exact fun i => ih i (h i) hw
  | ask q k ih => exact fun r _ => ih r (h r) hw
  | write | writeNew | lock => exact h.elim

/-- A row is inserted, and what is done then. -/
theorem Safe.insert {Q : β → List ν → W → List ω → Prop} {x : ω}
    {g : Unit → Script σ ω ν ι π ρ ε β}
    (h : ∀ w', R ls ws w w' → (g ()).Safe S db R A E (fun _ _ => True) Q ls w' (x :: ws)) :
    (Script.insert x >>= g).Safe S db R A E (fun _ _ => True) Q ls w ws :=
  fun w' hR _ => ⟨fun _ _ _ => trivial, fun _ => h w' hR⟩

/-- Many rows are inserted, while `J` is kept. -/
theorem Safe.insertMany {J : W → Prop} {Q : PUnit → List ν → W → List ω → Prop} {l : List ω}
    (hJ : ∀ ws w w', R ls ws w w' → J w → J w') (hw : J w)
    (h : ∀ w', J w' → Q () ls w' (l.reverse ++ ws)) :
    (l.forM fun x => (Script.insert x : Script σ ω ν ι π ρ ε Unit)).Safe S db R A E (fun _ _ => True) Q
      ls w ws := by
  induction l generalizing w ws with
  | nil => exact h w hw
  | cons x l ih =>
    refine fun w' hR _ => ⟨fun _ _ _ => trivial, fun _ => ?_⟩
    refine ih (hJ _ _ _ hR hw) fun w'' hw'' => ?_
    have hq := h w'' hw''
    rwa [List.reverse_cons, List.append_assoc] at hq

/-- Many locks are taken, while `J` is kept. -/
theorem Safe.acquireMany {J : List ν → W → Prop} {V : κ → W → Prop}
    {Q : PUnit → List ν → W → List ω → Prop} {l : List ν}
    (hJ : ∀ ls w w', R ls ws w w' → J ls w → J ls w') (hlock : ∀ n ls w, J ls w → J (n :: ls) w)
    (hw : J ls w) (h : ∀ w', J (l.reverse ++ ls) w' → Q () (l.reverse ++ ls) w' ws) :
    (l.forM fun n => (Script.acquire n : Script σ ω ν ι π ρ ε Unit)).Safe S db R A E V Q ls w ws := by
  induction l generalizing ls w with
  | nil => exact h w hw
  | cons n l ih =>
    refine fun w' hR _ => ?_
    refine ih (hlock n _ _ (hJ _ _ _ hR hw)) fun w'' hw'' => ?_
    rw [List.reverse_cons, List.append_assoc] at h
    exact h w'' hw''

end Loops

/-! ## One transaction alone -/

/-- The script when nothing else is under way: what it ends with and what it has written, when
`ids` are drawn and `answer` is what the outside says. -/
def alone (S : Schema σ ω κ) (s : σ) (answer : π → ρ) :
    Script σ ω ν ι π ρ ε α → List ι → List ω → Option (α × List ω)
  | done a, _, ws => some (a, ws)
  | throw _, _, _ => none
  | query k, ids, ws => alone S s answer (k (S.view s ws)) ids ws
  | write x k, ids, ws =>
    if (S.keys x).any (S.taken (S.view s ws)) then none else alone S s answer k ids (x :: ws)
  | writeNew x k, ids, ws =>
    if (S.keys x).any (S.taken (S.view s ws)) then alone S s answer k ids ws
    else alone S s answer k ids (x :: ws)
  | lock _ k, ids, ws => alone S s answer k ids ws
  | newId _, [], _ => none
  | newId k, i :: ids, ws => alone S s answer (k i) ids ws
  | ask q k, ids, ws => alone S s answer (k (answer q)) ids ws

/-- Its statements run one after the other. -/
theorem alone_steps {S : Schema σ ω κ} {s : σ} {answer : π → ρ} {A : π → ρ → Prop}
    {held : ν → Prop} {pending : κ → Prop} (ls : List ν) (hA : ∀ q, A q (answer q))
    (hheld : ∀ n, ¬ held n) (hpending : ∀ key, ¬ pending key) {p : Script σ ω ν ι π ρ ε α}
    {ids : List ι} {a : α} {ws ws' : List ω} (h : p.alone S s answer ids ws = some (a, ws')) :
    ∃ ls', Relation.ReflTransGen (fun t t' => t.Step S A held pending s t') (Open.mk p ls ws)
      ⟨done a, ls', ws'⟩ := by
  have hfree : ∀ {x : ω} {ws : List ω}, ¬ (S.keys x).any (S.taken (S.view s ws)) = true →
      ∀ key ∈ S.keys x, ¬ pending key ∧ S.taken (S.view s ws) key = false := by
    intro x ws hany key hkey
    refine ⟨hpending key, Bool.eq_false_iff.mpr fun htaken => hany ?_⟩
    exact List.any_eq_true.mpr ⟨key, hkey, htaken⟩
  induction p generalizing ids ls ws with
  | done b =>
    cases h
    exact ⟨ls, .refl⟩
  | throw e => cases h
  | query k ih =>
    obtain ⟨ls', hsteps⟩ := ih _ _ h
    exact ⟨ls', .head .query hsteps⟩
  | write x k ih =>
    unfold alone at h
    split at h
    · cases h
    · next hany =>
      obtain ⟨ls', hsteps⟩ := ih _ h
      exact ⟨ls', .head (.write (hfree hany)) hsteps⟩
  | writeNew x k ih =>
    unfold alone at h
    split at h
    · next hany =>
      obtain ⟨key, hkey, htaken⟩ := List.any_eq_true.mp hany
      obtain ⟨ls', hsteps⟩ := ih _ h
      exact ⟨ls', .head (.writeOld hkey (fun key _ => hpending key) htaken) hsteps⟩
    · next hany =>
      obtain ⟨ls', hsteps⟩ := ih _ h
      exact ⟨ls', .head (.writeNew (hfree hany)) hsteps⟩
  | lock n k ih =>
    obtain ⟨ls', hsteps⟩ := ih _ h
    exact ⟨ls', .head (.lock (hheld n)) hsteps⟩
  | newId k ih =>
    cases ids with
    | nil => cases h
    | cons i ids =>
      obtain ⟨ls', hsteps⟩ := ih i _ h
      exact ⟨ls', .head .newId hsteps⟩
  | ask q k ih =>
    obtain ⟨ls', hsteps⟩ := ih _ _ h
    exact ⟨ls', .head (.ask (hA q)) hsteps⟩

end Script

end ReadCommitted
