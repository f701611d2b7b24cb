import Bookswap.Lib.ReadCommitted

/-!
# What becomes of a script

`Script.alone` tells what a script that ends has written. `Script.trial` tells the other ends too:
the failure, or the unique index that refuses a row.

- `Trial`, `Script.trial`, `trial_fails`: a run with nothing else under way.
- `Script.Silent`, `Silent.trial_eq`, `Silent.safe`: a script that asks nothing does the same whatever
  the answers, and fails only in the ways it names.
-/

namespace ReadCommitted

/-- How a script ends when nothing else is under way. -/
inductive Trial (ω κ ε α : Type)
  | done (a : α) (ws : List ω)
  | failed (e : ε)
  | refused (key : κ)
  /-- There were too few identifiers. -/
  | starved

variable {σ ω κ ν ι π ρ ε α β : Type}

namespace Script

/-- The script when nothing else is under way, when `ids` are drawn and `answer` is what the outside
says. -/
def trial (S : Schema σ ω κ) (s : σ) (answer : π → ρ) :
    Script σ ω ν ι π ρ ε α → List ι → List ω → Trial ω κ ε α
  | done a, _, ws => .done a ws
  | throw e, _, _ => .failed e
  | query k, ids, ws => trial S s answer (k (S.view s ws)) ids ws
  | write x k, ids, ws =>
    ((S.keys x).find? (S.taken (S.view s ws))).elim (trial S s answer k ids (x :: ws)) .refused
  | writeNew x k, ids, ws =>
    if (S.keys x).any (S.taken (S.view s ws)) then trial S s answer k ids ws
    else trial S s answer k ids (x :: ws)
  | lock _ k, ids, ws => trial S s answer k ids ws
  | newId _, [], _ => .starved
  | newId k, i :: ids, ws => trial S s answer (k i) ids ws
  | ask q k, ids, ws => trial S s answer (k (answer q)) ids ws

section Statements

variable {S : Schema σ ω κ} {s : σ} {answer : π → ρ} {ids : List ι} {ws : List ω}

theorem trial_select {f : σ → α} {g : α → Script σ ω ν ι π ρ ε β} :
    (select f >>= g).trial S s answer ids ws = (g (f (S.view s ws))).trial S s answer ids ws := rfl

theorem trial_acquire {n : ν} {g : Unit → Script σ ω ν ι π ρ ε β} :
    (acquire n >>= g).trial S s answer ids ws = (g ()).trial S s answer ids ws := rfl

theorem trial_request {q : π} {g : ρ → Script σ ω ν ι π ρ ε β} :
    (request q >>= g).trial S s answer ids ws = (g (answer q)).trial S s answer ids ws := rfl

theorem trial_draw {i : ι} {g : ι → Script σ ω ν ι π ρ ε β} :
    (draw >>= g).trial S s answer (i :: ids) ws = (g i).trial S s answer ids ws := rfl

/-- A row whose keys are free is inserted. -/
theorem trial_insert {x : ω} {g : Unit → Script σ ω ν ι π ρ ε β}
    (h : ∀ key ∈ S.keys x, S.taken (S.view s ws) key = false) :
    (insert x >>= g).trial S s answer ids ws = (g ()).trial S s answer ids (x :: ws) := by
  have hfree : (S.keys x).find? (S.taken (S.view s ws)) = none := by
    refine List.find?_eq_none.mpr fun key hkey => ?_
    rw [h key hkey]
    exact Bool.false_ne_true
  show ((S.keys x).find? (S.taken (S.view s ws))).elim _ _ = _
  rw [hfree]
  rfl

end Statements

/-! ## Scripts that ask nothing -/

/-- The script asks nothing, and fails only as `E` says. -/
def Silent (E : ε → Prop) : Script σ ω ν ι π ρ ε α → Prop
  | done _ => True
  | throw e => E e
  | query k => ∀ s, Silent E (k s)
  | write _ k => Silent E k
  | writeNew _ k => Silent E k
  | lock _ k => Silent E k
  | newId k => ∀ i, Silent E (k i)
  | ask _ _ => False

variable {E : ε → Prop}

/-- **The answers do not matter.** -/
theorem Silent.trial_eq {S : Schema σ ω κ} {s : σ} {answer answer' : π → ρ}
    {p : Script σ ω ν ι π ρ ε α} (h : p.Silent E) (ids : List ι) (ws : List ω) :
    p.trial S s answer ids ws = p.trial S s answer' ids ws := by
  induction p generalizing ids ws with
  | done a | throw e => rfl
  | query k ih => exact ih _ (h _) ids ws
  | write x k ih =>
    unfold trial
    rw [ih h]
  | writeNew x k ih =>
    unfold trial
    rw [ih h ids ws, ih h ids (x :: ws)]
  | lock n k ih => exact ih h ids ws
  | newId k ih =>
    cases ids with
    | nil => rfl
    | cons i ids => exact ih i (h i) ids ws
  | ask q k ih => exact h.elim

/-- **It fails only as `E` says**, whatever the others do. -/
theorem Silent.safe {W : Type} {S : Schema σ ω κ} {db : W → σ}
    {R : List ν → List ω → W → W → Prop} {A : π → ρ → Prop} {p : Script σ ω ν ι π ρ ε α}
    (h : p.Silent E) (ls : List ν) (w : W) (ws : List ω) :
    p.Safe S db R A E (fun _ _ => True) (fun _ _ _ _ => True) ls w ws := by
  induction p generalizing ls w ws with
  | done a => trivial
  | throw e => exact h
  | query k ih => exact fun w' _ _ => ih _ (h _) ls w' ws
  | write x k ih => exact fun w' _ _ => ⟨fun _ _ _ => trivial, fun _ => ih h ls w' (x :: ws)⟩
  | writeNew x k ih => exact fun w' _ _ => ⟨fun _ => ih h ls w' ws, fun _ => ih h ls w' (x :: ws)⟩
  | lock n k ih => exact fun w' _ _ => ih h (n :: ls) w' ws
  | newId k ih => exact fun i => ih i (h i) ls w ws
  | ask q k ih => exact h.elim

theorem Silent.bind {p : Script σ ω ν ι π ρ ε α} {f : α → Script σ ω ν ι π ρ ε β}
    (hp : p.Silent E) (hf : ∀ a, (f a).Silent E) : (p >>= f).Silent E := by
  show (p.bind f).Silent E
  induction p with
  | done a => exact hf a
  | throw e => exact hp
  | query k ih => exact fun s => ih s (hp s)
  | write x k ih | writeNew x k ih | lock n k ih => exact ih hp
  | newId k ih => exact fun i => ih i (hp i)
  | ask q k ih => exact hp.elim

theorem Silent.select (f : σ → α) : (select f : Script σ ω ν ι π ρ ε α).Silent E :=
  fun _ => trivial

theorem Silent.ofExcept {x : Except ε α} (h : ∀ e, x = .error e → E e) :
    (ofExcept x : Script σ ω ν ι π ρ ε α).Silent E := by
  cases x with
  | ok a => trivial
  | error e => exact h e rfl

theorem Silent.forM {l : List α} {f : α → Script σ ω ν ι π ρ ε PUnit} (h : ∀ a, (f a).Silent E) :
    (l.forM f).Silent E := by
  induction l with
  | nil => trivial
  | cons a l ih =>
    show Silent E (f a >>= fun _ => l.forM f)
    exact (h a).bind fun _ => ih

theorem Silent.mapM {l : List α} {f : α → Script σ ω ν ι π ρ ε β} (h : ∀ a, (f a).Silent E) :
    (l.mapM f).Silent E := by
  induction l with
  | nil => trivial
  | cons a l ih =>
    rw [List.mapM_cons]
    exact (h a).bind fun _ => ih.bind fun _ => trivial

end Script

end ReadCommitted
