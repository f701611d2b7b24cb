import Bookswap.Lib.ReadCommitted

/-!
# Scripts that run alone

A script with nobody beside it sees one state of the tables after another: that before, with its own
writes. `Script.Wp Q p s` says that `p`, from what it sees as `s`, ends as `Q` says, if it ends.

- `Script.Wp`, `Wp.of_alone`: the condition, and that it holds of a run of `Script.alone`.
- `Wp.bind`, `Wp.select`, `Wp.draw`, `Wp.acquire`, `Wp.insert`, `Wp.mono`, `Wp.and`: the rules.
- `Wp.forM`, `Wp.mapM`: loops, with an invariant.
-/

namespace ReadCommitted

variable {σ ω κ ν ι π ρ ε α β : Type}

namespace Script

/-- Whatever is drawn and answered, the script that ends, ends as `Q` says of its result and of the
tables as it sees them. -/
def Wp (S : Schema σ ω κ) (Q : α → σ → Prop) : Script σ ω ν ι π ρ ε α → σ → Prop
  | done a, s => Q a s
  | throw _, _ => True
  | query k, s => Wp S Q (k s) s
  | write x k, s => (∀ key ∈ S.keys x, S.taken s key = false) → Wp S Q k (S.write x s)
  | writeNew x k, s => ((∃ key ∈ S.keys x, S.taken s key = true) → Wp S Q k s) ∧
      ((∀ key ∈ S.keys x, S.taken s key = false) → Wp S Q k (S.write x s))
  | lock _ k, s => Wp S Q k s
  | newId k, s => ∀ i, Wp S Q (k i) s
  | ask _ k, s => ∀ r, Wp S Q (k r) s

variable {S : Schema σ ω κ} {s : σ}

/-- **Soundness**: what holds at the end of a script that ran alone. -/
theorem Wp.of_alone {Q : α → σ → Prop} {answer : π → ρ} {p : Script σ ω ν ι π ρ ε α} {s₀ : σ}
    {ids : List ι} {ws ws' : List ω} {a : α} (h : p.Wp S Q (S.view s₀ ws))
    (hrun : p.alone S s₀ answer ids ws = some (a, ws')) : Q a (S.view s₀ ws') := by
  have hfree : ∀ {x : ω} {ws : List ω}, ¬ (S.keys x).any (S.taken (S.view s₀ ws)) = true →
      ∀ key ∈ S.keys x, S.taken (S.view s₀ ws) key = false := by
    intro x ws hany key hkey
    refine Bool.eq_false_iff.mpr fun htaken => hany ?_
    exact List.any_eq_true.mpr ⟨key, hkey, htaken⟩
  induction p generalizing ids ws with
  | done b =>
    cases hrun
    exact h
  | throw e => cases hrun
  | query k ih => exact ih _ h hrun
  | write x k ih =>
    unfold alone at hrun
    split at hrun
    · cases hrun
    · next hany =>
      have hk : k.Wp S Q (S.view s₀ (x :: ws)) := h (hfree hany)
      exact ih hk hrun
  | writeNew x k ih =>
    unfold alone at hrun
    split at hrun
    · next hany =>
      obtain ⟨key, hkey, htaken⟩ := List.any_eq_true.mp hany
      exact ih (h.1 ⟨key, hkey, htaken⟩) hrun
    · next hany =>
      have hk : k.Wp S Q (S.view s₀ (x :: ws)) := h.2 (hfree hany)
      exact ih hk hrun
  | lock n k ih => exact ih h hrun
  | newId k ih =>
    cases ids with
    | nil => cases hrun
    | cons i ids => exact ih i (h i) hrun
  | ask q k ih => exact ih _ (h _) hrun

/-- **Sequencing.** -/
theorem Wp.bind {Q : β → σ → Prop} {p : Script σ ω ν ι π ρ ε α}
    {f : α → Script σ ω ν ι π ρ ε β} (h : p.Wp S (fun a => (f a).Wp S Q) s) :
    (p >>= f).Wp S Q s := by
  show (p.bind f).Wp S Q s
  induction p generalizing s with
  | done a => exact h
  | throw e => trivial
  | query k ih => exact ih _ h
  | write x k ih => exact fun hfree => ih (h hfree)
  | writeNew x k ih => exact ⟨fun htaken => ih (h.1 htaken), fun hfree => ih (h.2 hfree)⟩
  | lock n k ih => exact ih h
  | newId k ih => exact fun i => ih i (h i)
  | ask q k ih => exact fun r => ih r (h r)

theorem Wp.of_bind {Q : β → σ → Prop} {p : Script σ ω ν ι π ρ ε α}
    {f : α → Script σ ω ν ι π ρ ε β} (h : (p >>= f).Wp S Q s) :
    p.Wp S (fun a => (f a).Wp S Q) s := by
  change (p.bind f).Wp S Q s at h
  induction p generalizing s with
  | done a => exact h
  | throw e => trivial
  | query k ih => exact ih _ h
  | write x k ih => exact fun hfree => ih (h hfree)
  | writeNew x k ih => exact ⟨fun htaken => ih (h.1 htaken), fun hfree => ih (h.2 hfree)⟩
  | lock n k ih => exact ih h
  | newId k ih => exact fun i => ih i (h i)
  | ask q k ih => exact fun r => ih r (h r)

/-! A statement, and what follows it. -/

theorem Wp.select {Q : β → σ → Prop} {f : σ → α} {p : α → Script σ ω ν ι π ρ ε β}
    (h : (p (f s)).Wp S Q s) : (select f >>= p).Wp S Q s := h

theorem Wp.draw {Q : α → σ → Prop} {p : ι → Script σ ω ν ι π ρ ε α} (h : ∀ i, (p i).Wp S Q s) :
    (draw >>= p).Wp S Q s := h

theorem Wp.acquire {Q : α → σ → Prop} {n : ν} {p : Unit → Script σ ω ν ι π ρ ε α}
    (h : (p ()).Wp S Q s) : (acquire n >>= p).Wp S Q s := h

theorem Wp.insert {Q : α → σ → Prop} {x : ω} {p : Unit → Script σ ω ν ι π ρ ε α}
    (h : (∀ key ∈ S.keys x, S.taken s key = false) → (p ()).Wp S Q (S.write x s)) :
    (insert x >>= p).Wp S Q s := h

/-- A weaker result. -/
theorem Wp.mono {Q Q' : α → σ → Prop} {p : Script σ ω ν ι π ρ ε α} (h : p.Wp S Q s)
    (hQ : ∀ a s, Q a s → Q' a s) : p.Wp S Q' s := by
  induction p generalizing s with
  | done a => exact hQ a s h
  | throw e => trivial
  | query k ih => exact ih _ h
  | write x k ih => exact fun hfree => ih (h hfree)
  | writeNew x k ih => exact ⟨fun htaken => ih (h.1 htaken), fun hfree => ih (h.2 hfree)⟩
  | lock n k ih => exact ih h
  | newId k ih => exact fun i => ih i (h i)
  | ask q k ih => exact fun r => ih r (h r)

/-- Two results at once. -/
theorem Wp.and {Q Q' : α → σ → Prop} {p : Script σ ω ν ι π ρ ε α} (h : p.Wp S Q s)
    (h' : p.Wp S Q' s) : p.Wp S (fun a s => Q a s ∧ Q' a s) s := by
  induction p generalizing s with
  | done a => exact ⟨h, h'⟩
  | throw e => trivial
  | query k ih => exact ih _ h h'
  | write x k ih => exact fun hfree => ih (h hfree) (h' hfree)
  | writeNew x k ih =>
    exact ⟨fun htaken => ih (h.1 htaken) (h'.1 htaken), fun hfree => ih (h.2 hfree) (h'.2 hfree)⟩
  | lock n k ih => exact ih h h'
  | newId k ih => exact fun i => ih i (h i) (h' i)
  | ask q k ih => exact fun r => ih r (h r) (h' r)

/-- What is computed beside the tables. -/
theorem Wp.ofExcept {Q : α → σ → Prop} {x : Except ε α} (h : ∀ a, x = .ok a → Q a s) :
    (ofExcept x : Script σ ω ν ι π ρ ε α).Wp S Q s := by
  cases x with
  | ok a => exact h a rfl
  | error e => trivial

/-- A loop, with an invariant of the part that is done. -/
theorem Wp.forM {J : List α → σ → Prop} {l : List α} {f : α → Script σ ω ν ι π ρ ε PUnit}
    (hstep : ∀ done a rest s, l = done ++ a :: rest → J done s →
      (f a).Wp S (fun _ => J (done ++ [a])) s) (hstart : J [] s) :
    (l.forM f).Wp S (fun _ => J l) s := by
  suffices h : ∀ done rest s, l = done ++ rest → J done s →
      (rest.forM f).Wp S (fun _ => J l) s from h [] l s rfl hstart
  intro done rest
  induction rest generalizing done with
  | nil =>
    intro s hl hJ
    rw [List.append_nil] at hl
    rw [← hl] at hJ
    exact hJ
  | cons a rest ih =>
    intro s hl hJ
    show Wp S _ (f a >>= fun _ => rest.forM f) s
    refine Wp.bind ((hstep done a rest s hl hJ).mono fun _ s hJ => ?_)
    exact ih (done ++ [a]) s (by rw [hl, List.append_assoc]; rfl) hJ

/-- A loop that collects. -/
theorem Wp.mapM {J : List α → List β → σ → Prop} {l : List α}
    {f : α → Script σ ω ν ι π ρ ε β}
    (hstep : ∀ done bs a s, J done bs s →
      (f a).Wp S (fun b => J (done ++ [a]) (bs ++ [b])) s) (hstart : J [] [] s) :
    (l.mapM f).Wp S (fun bs => J l bs) s := by
  suffices h : ∀ done bs (rest : List α) s, J done bs s → (rest.mapM f).Wp S
      (fun bs' => J (done ++ rest) (bs ++ bs')) s from h [] [] l s hstart
  intro done bs rest
  induction rest generalizing done bs with
  | nil =>
    intro s hJ
    rw [List.mapM_nil]
    show J (done ++ []) (bs ++ []) s
    rwa [List.append_nil, List.append_nil]
  | cons a rest ih =>
    intro s hJ
    rw [List.mapM_cons]
    refine Wp.bind ((hstep done bs a s hJ).mono fun b s hJ => ?_)
    refine Wp.bind ((ih (done ++ [a]) (bs ++ [b]) s hJ).mono fun bs' s hJ => ?_)
    show J (done ++ a :: rest) (bs ++ b :: bs') s
    rwa [List.append_assoc, List.append_assoc] at hJ

/-- A loop over two lists. -/
theorem Wp.forM_append {Q : PUnit → σ → Prop} {l l' : List α}
    {f : α → Script σ ω ν ι π ρ ε PUnit}
    (h : (l.forM f).Wp S (fun _ s => (l'.forM f).Wp S Q s) s) : ((l ++ l').forM f).Wp S Q s := by
  induction l generalizing s with
  | nil => exact h
  | cons a l ih =>
    show Wp S Q (f a >>= fun _ => (l ++ l').forM f) s
    have hhead : (f a).Wp S (fun _ s => (l.forM f).Wp S (fun _ s => (l'.forM f).Wp S Q s) s) s :=
      Wp.of_bind h
    exact Wp.bind (hhead.mono fun _ s h => ih h)

/-- What is only drawn changes nothing. -/
theorem Wp.of_draws {Q : α → σ → Prop} {E : ε → Prop} {P : α → Prop}
    {p : Script σ ω ν ι π ρ ε α} (h : p.Draws E P) (hQ : ∀ a, P a → Q a s) : p.Wp S Q s := by
  induction p with
  | done a => exact hQ a h
  | throw e => trivial
  | newId k ih => exact fun i => ih i (h i)
  | query | write | writeNew | lock | ask => exact h.elim

/-- A loop of insertions, one row after the other. -/
theorem Wp.insertAll {J : List ω → σ → Prop} {l : List ω}
    (hstep : ∀ done x rest s, l = done ++ x :: rest → J done s →
      (∀ key ∈ S.keys x, S.taken s key = false) → J (done ++ [x]) (S.write x s))
    (hstart : J [] s) :
    (l.forM fun x => (Script.insert x : Script σ ω ν ι π ρ ε Unit)).Wp S (fun _ => J l) s :=
  Wp.forM (fun done x rest s hl hJ hfree => hstep done x rest s hl hJ hfree) hstart

end Script

end ReadCommitted
