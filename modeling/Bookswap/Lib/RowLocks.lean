import Bookswap.Lib.Machine
import Mathlib.Order.WellFoundedSet

/-!
# Row locks

The four strengths of a row lock, and which of them exclude each other. Then transactions that lock
rows one after the other, wait for each other, and let go of all rows when they end.

- `LockMode.conflicts`: the table of conflicts.
- `RowLock.Conflict`: two locks that cannot be held at the same time.
- `Script`, `Locking`, `Protocol.machine`: transactions that lock rows, in any interleaving.
- `Disciplined`: what is locked stands above what is held, or behind a row that is held.
- `Protocol.Ordered.reachable`: every reachable state keeps the order.
- `LocksOrdered.not_deadlocked`, `waits_for_mover`: **no cycle of waiting, so somebody can always go on**.
-/

namespace RowLocks

/-- `FOR KEY SHARE`, `FOR SHARE`, `FOR NO KEY UPDATE` and `FOR UPDATE`, weakest first. -/
inductive LockMode
  | keyShare | share | noKeyUpdate | update
  deriving DecidableEq, Repr

def LockMode.conflicts : LockMode → LockMode → Bool
  | .keyShare, m => m = .update
  | .share, m => m = .noKeyUpdate ∨ m = .update
  | .noKeyUpdate, m => m ≠ .keyShare
  | .update, _ => true

theorem LockMode.conflicts_symm (m n : LockMode) : m.conflicts n = n.conflicts m := by
  cases m <;> cases n <;> rfl

/-- Whoever has a row for `UPDATE` has it alone. -/
theorem LockMode.conflicts_update (m : LockMode) : m.conflicts .update = true := by
  cases m <;> rfl

structure RowLock (β : Type) where
  row : β
  mode : LockMode
  deriving DecidableEq, Repr

/-- The locks are on one row, and exclude each other. -/
def RowLock.Conflict {β : Type} (n m : RowLock β) : Prop :=
  n.row = m.row ∧ n.mode.conflicts m.mode = true

theorem RowLock.Conflict.symm {β : Type} {n m : RowLock β} (h : n.Conflict m) : m.Conflict n :=
  ⟨h.1.symm, (LockMode.conflicts_symm m.mode n.mode).trans h.2⟩

/-- Another lock on a row that is locked for `UPDATE` is in conflict with it. -/
theorem RowLock.conflict_update {β : Type} {n m : RowLock β} (hm : m.mode = .update)
    (h : n.row = m.row) : n.Conflict m :=
  ⟨h, by rw [hm]; exact n.mode.conflicts_update⟩

/-! ## Transactions that lock rows -/

universe u v w z

variable {σ : Type u} {ρ : Type v} {τ : Type w} {κ : Type z}

/-- What a transaction locks: a read that locks nothing, a statement that waits for its rows, and
one that takes those of its rows that are free. What comes next depends on the rows that the
statement returns; a row that has changed while it was waited for is locked and not returned. -/
inductive Script (σ : Type u) (ρ : Type v)
  | done
  | read (next : σ → Script σ ρ)
  | lock (rows : σ → List ρ) (next : List ρ → Script σ ρ)
  | lockFree (rows : σ → List ρ) (next : List ρ → Script σ ρ)

/-- A running transaction; `pending` is what its statement still has to lock. -/
structure Locker (σ : Type u) (ρ : Type v) where
  held : List ρ
  pending : List ρ
  script : Script σ ρ

/-- The database, and the transactions that run. -/
structure Locking (σ : Type u) (ρ : Type v) (τ : Type w) where
  db : σ
  running : τ → Option (Locker σ ρ)

namespace Locking

def Holds (S : Locking σ ρ τ) (t : τ) (row : ρ) : Prop :=
  ∃ l, S.running t = some l ∧ row ∈ l.held

/-- `t` waits for a row that `t'` has. -/
def WaitsFor (S : Locking σ ρ τ) (t t' : τ) : Prop :=
  ∃ l row rows, S.running t = some l ∧ l.pending = row :: rows ∧ t' ≠ t ∧ S.Holds t' row

/-- The rows that other transactions have. -/
def HeldByOthers (S : Locking σ ρ τ) (t : τ) (row : ρ) : Prop := ∃ t', t' ≠ t ∧ S.Holds t' row

variable [DecidableEq τ]

def put (S : Locking σ ρ τ) (t : τ) (l : Option (Locker σ ρ)) : Locking σ ρ τ where
  db := S.db
  running := Function.update S.running t l

@[simp] theorem put_db (S : Locking σ ρ τ) (t : τ) (l : Option (Locker σ ρ)) :
    (S.put t l).db = S.db := rfl

theorem running_put_self (S : Locking σ ρ τ) (t : τ) (l : Option (Locker σ ρ)) :
    (S.put t l).running t = l := Function.update_self ..

theorem running_put_of_ne (S : Locking σ ρ τ) {t t' : τ} (h : t' ≠ t) (l : Option (Locker σ ρ)) :
    (S.put t l).running t' = S.running t' := Function.update_of_ne h ..

end Locking

/-- Who begins, and what may be committed while others hold some rows. -/
structure Protocol (σ : Type u) (ρ : Type v) where
  init : σ → Prop
  begins : σ → Script σ ρ → Prop
  change : (ρ → Prop) → σ → σ → Prop

/-- The moves. A transaction ends in a commit or a rollback, and may do so at any time. -/
inductive Move (τ : Type w)
  | start (t : τ)
  | read (t : τ)
  | ask (t : τ)
  | take (t : τ)
  | takeFree (t : τ)
  | commit (t : τ)
  | rollback (t : τ)
  | outside

namespace Protocol

variable (P : Protocol σ ρ) [DecidableEq τ]

def Step (S : Locking σ ρ τ) : Move τ → Locking σ ρ τ → Prop
  | .start t, S' => S.running t = none ∧ ∃ script, P.begins S.db script ∧
      S' = S.put t (some ⟨[], [], script⟩)
  | .read t, S' => ∃ held next, S.running t = some ⟨held, [], .read next⟩ ∧
      S' = S.put t (some ⟨held, [], next S.db⟩)
  | .ask t, S' => ∃ held rows next found, S.running t = some ⟨held, [], .lock rows next⟩ ∧
      found.Sublist (rows S.db) ∧ S' = S.put t (some ⟨held, rows S.db, next found⟩)
  | .take t, S' => ∃ held row pending script, S.running t = some ⟨held, row :: pending, script⟩ ∧
      ¬S.HeldByOthers t row ∧ S' = S.put t (some ⟨row :: held, pending, script⟩)
  | .takeFree t, S' => ∃ held rows next chosen, S.running t = some ⟨held, [], .lockFree rows next⟩ ∧
      chosen.Sublist (rows S.db) ∧ (∀ row ∈ chosen, ¬S.HeldByOthers t row) ∧
      S' = S.put t (some ⟨chosen.reverse ++ held, [], next chosen⟩)
  | .commit t, S' => S.running t ≠ none ∧ ∃ db', P.change (S.HeldByOthers t) S.db db' ∧
      S' = { S.put t none with db := db' }
  | .rollback t, S' => S.running t ≠ none ∧ S' = S.put t none
  | .outside, S' => ∃ db', P.change (fun row => ∃ t, S.Holds t row) S.db db' ∧
      S' = { S with db := db' }

/-- The transactions in any interleaving. -/
def machine (τ : Type w) [DecidableEq τ] : Machine (Locking σ ρ τ) (Move τ) where
  init S := P.init S.db ∧ ∀ t, S.running t = none
  step S m S' := P.Step S m S'

/-- What others may commit while a transaction holds some rows. -/
def Meanwhile (held : List ρ) : σ → σ → Prop :=
  Relation.ReflTransGen fun db db' => ∃ others, (∀ row ∈ held, others row) ∧ P.change others db db'

end Protocol

/-! ## Discipline -/

/-- An order of the rows, and the row behind which a row is locked, if there is one. -/
structure LockOrder (σ : Type u) (ρ : Type v) (κ : Type z) where
  rank : ρ → κ
  guard : ρ → Option ρ
  /-- The database has the row under this name. -/
  known : σ → ρ → Prop

section Discipline

variable [Preorder κ] (P : Protocol σ ρ) (O : LockOrder σ ρ κ)

/-- A row may be locked: it is held already, its guard is held, or it stands above all that is
held. -/
def LockOrder.Fits (held : List ρ) (row : ρ) : Prop :=
  row ∈ held ∨ (∃ g ∈ held, O.guard row = some g) ∨
    O.guard row = none ∧ ∀ h ∈ held, O.rank h < O.rank row

/-- The rows may be locked one after the other. -/
def LockOrder.Admits : List ρ → List ρ → Prop
  | _, [] => True
  | held, row :: rows => O.Fits held row ∧ LockOrder.Admits (row :: held) rows

/-- **Whatever others commit, every statement of the script is admitted.** -/
def Disciplined : Script σ ρ → List ρ → σ → Prop
  | .done, _, _ => True
  | .read next, held, db => ∀ db', P.Meanwhile held db db' → Disciplined (next db) held db'
  | .lock rows next, held, db => (∀ row ∈ rows db, O.known db row) ∧ O.Admits held (rows db) ∧
      ∀ found, found.Sublist (rows db) → ∀ db', P.Meanwhile held db db' →
        Disciplined (next found) ((rows db).reverse ++ held) db'
  | .lockFree rows next, held, db =>
      (∀ row ∈ rows db, O.known db row ∧ O.guard row = none) ∧
      ∀ chosen, chosen.Sublist (rows db) → ∀ db', P.Meanwhile held db db' →
        Disciplined (next chosen) (chosen.reverse ++ held) db'

/-- A running transaction is where the discipline allows. -/
structure Orderly (l : Locker σ ρ) (db : σ) : Prop where
  known : ∀ row, row ∈ l.held ∨ row ∈ l.pending → O.known db row
  guarded : ∀ row ∈ l.held, ∀ g, O.guard row = some g → g ∈ l.held
  admits : O.Admits l.held l.pending
  disciplined : ∀ db', P.Meanwhile l.held db db' →
    Disciplined P O l.script (l.pending.reverse ++ l.held) db'

/-- The invariant: nobody shares a row, and all are orderly. -/
structure LocksOrdered (S : Locking σ ρ τ) : Prop where
  exclusive : ∀ t t' row, S.Holds t row → S.Holds t' row → t = t'
  orderly : ∀ t l, S.running t = some l → Orderly P O l S.db
  finite : {t | S.running t ≠ none}.Finite

end Discipline

/-! ## What a move keeps -/

section Moves

variable [Preorder κ] {P : Protocol σ ρ} {O : LockOrder σ ρ κ}
  {S S' : Locking σ ρ τ} {t t' : τ} {db db' : σ} {held held' : List ρ} {row : ρ}

theorem Protocol.Meanwhile.mono (hsub : ∀ row ∈ held, row ∈ held')
    (h : P.Meanwhile held' db db') : P.Meanwhile held db db' := by
  unfold Protocol.Meanwhile at h ⊢
  refine Relation.ReflTransGen.mono (fun _ _ hstep => ?_) _ _ h
  obtain ⟨others, hothers, hchange⟩ := hstep
  exact ⟨others, fun row hrow => hothers row (hsub row hrow), hchange⟩

/-- What a protocol has to satisfy, with an invariant of its databases: rows that have a name keep
it, and whoever begins is disciplined. -/
structure Protocol.Ordered (P : Protocol σ ρ) (O : LockOrder σ ρ κ) (I : σ → Prop) : Prop where
  init : ∀ {db}, P.init db → I db
  change : ∀ {others db db'}, I db → P.change others db db' → I db'
  stable : ∀ {others db db' row}, I db → P.change others db db' → O.known db row → O.known db' row
  begins : ∀ {db script}, I db → P.begins db script → ∀ {db'}, P.Meanwhile [] db db' →
    Disciplined P O script [] db'

/-- Another transaction, or none, commits. -/
theorem Orderly.changed {l : Locker σ ρ} (h : Orderly P O l db) {others : ρ → Prop}
    (hothers : ∀ row ∈ l.held, others row) (hchange : P.change others db db')
    (hstable : ∀ row, O.known db row → O.known db' row) : Orderly P O l db' := by
  refine ⟨fun row hrow => hstable row (h.known row hrow), h.guarded, h.admits, ?_⟩
  intro db'' hmeanwhile
  exact h.disciplined db'' (.head ⟨others, hothers, hchange⟩ hmeanwhile)

/-- A row is locked. -/
theorem Orderly.taken {pending : List ρ} {script : Script σ ρ}
    (h : Orderly P O ⟨held, row :: pending, script⟩ db) :
    Orderly P O ⟨row :: held, pending, script⟩ db := by
  obtain ⟨hfits, hadmits⟩ := h.admits
  refine ⟨fun r hr => ?_, fun r hr g hg => ?_, hadmits, fun db' hmeanwhile => ?_⟩
  · simp only [List.mem_cons] at hr
    have hknown := h.known r
    simp only [List.mem_cons] at hknown
    tauto
  · rcases List.mem_cons.mp hr with rfl | hr
    · rcases hfits with hheld | ⟨g', hg', hguard⟩ | ⟨hnone, -⟩
      · exact List.mem_cons_of_mem _ (h.guarded _ hheld g hg)
      · rw [hguard] at hg
        exact List.mem_cons_of_mem _ (Option.some.inj hg ▸ hg')
      · rw [hnone] at hg
        cases hg
    · exact List.mem_cons_of_mem _ (h.guarded r hr g hg)
  · have hdisciplined := h.disciplined db'
      (hmeanwhile.mono fun r hr => List.mem_cons_of_mem _ hr)
    rwa [List.reverse_cons, List.append_assoc] at hdisciplined

/-- Free rows are taken; none of them is behind another one. -/
theorem Orderly.takenFree {rows : σ → List ρ} {next : List ρ → Script σ ρ} {chosen : List ρ}
    (h : Orderly P O ⟨held, [], .lockFree rows next⟩ db) (hchosen : chosen.Sublist (rows db)) :
    Orderly P O ⟨chosen.reverse ++ held, [], next chosen⟩ db := by
  obtain ⟨hrows, hnext⟩ := h.disciplined db .refl
  refine ⟨fun r hr => ?_, fun r hr g hg => ?_, trivial, fun db' hmeanwhile => ?_⟩
  · rcases hr with hr | hr
    · rcases List.mem_append.mp hr with hr | hr
      · exact (hrows r (hchosen.subset (List.mem_reverse.mp hr))).1
      · exact h.known r (.inl hr)
    · exact absurd hr List.not_mem_nil
  · rcases List.mem_append.mp hr with hr | hr
    · rw [(hrows r (hchosen.subset (List.mem_reverse.mp hr))).2] at hg
      cases hg
    · exact List.mem_append_right _ (h.guarded r hr g hg)
  · exact hnext chosen hchosen db' (hmeanwhile.mono fun r hr => List.mem_append_right _ hr)

theorem Orderly.asked {rows : σ → List ρ} {next : List ρ → Script σ ρ} {found : List ρ}
    (h : Orderly P O ⟨held, [], .lock rows next⟩ db) (hfound : found.Sublist (rows db)) :
    Orderly P O ⟨held, rows db, next found⟩ db := by
  obtain ⟨hknown, hadmits, hnext⟩ := h.disciplined db .refl
  exact ⟨fun r hr => hr.elim (fun hr => h.known r (.inl hr)) (hknown r), h.guarded, hadmits,
    hnext found hfound⟩

theorem Orderly.readOn {next : σ → Script σ ρ} (h : Orderly P O ⟨held, [], .read next⟩ db) :
    Orderly P O ⟨held, [], next db⟩ db :=
  ⟨h.known, h.guarded, trivial, h.disciplined db .refl⟩

/-- The database changes. -/
theorem LocksOrdered.changed (h : LocksOrdered P O S) {others : ρ → Prop}
    (hothers : ∀ t row, S.Holds t row → others row) (hchange : P.change others S.db db')
    (hstable : ∀ row, O.known S.db row → O.known db' row) :
    LocksOrdered P O { S with db := db' } :=
  ⟨h.exclusive, fun t l hl => (h.orderly t l hl).changed
    (fun row hrow => hothers t row ⟨l, hl, hrow⟩) hchange hstable, h.finite⟩

/-- A row that is held is held by no other one. -/
theorem LocksOrdered.not_heldByOthers (h : LocksOrdered P O S) {l : Locker σ ρ}
    (hl : S.running t = some l) : ∀ row ∈ l.held, ¬S.HeldByOthers t row := by
  rintro row hrow ⟨t', hne, hholds⟩
  exact hne (h.exclusive t' t row hholds ⟨l, hl, hrow⟩)

variable [DecidableEq τ]

theorem Locking.holds_put {l : Option (Locker σ ρ)} :
    (S.put t l).Holds t' row ↔
      if t' = t then ∃ x, l = some x ∧ row ∈ x.held else S.Holds t' row := by
  unfold Locking.Holds
  split
  · next h => rw [h, Locking.running_put_self]
  · next h => rw [Locking.running_put_of_ne S h]

/-- One transaction moves on, with rows that no other one has. -/
theorem LocksOrdered.put (h : LocksOrdered P O S) {l : Locker σ ρ} (hl : Orderly P O l S.db)
    (hfree : ∀ row ∈ l.held, ¬S.HeldByOthers t row) :
    LocksOrdered P O (S.put t (some l)) := by
  have hheld : ∀ {t' row}, (S.put t (some l)).Holds t' row →
      t' = t ∧ row ∈ l.held ∨ t' ≠ t ∧ S.Holds t' row := by
    intro t' row hholds
    rw [Locking.holds_put] at hholds
    split at hholds
    · next heq =>
      obtain ⟨x, hx, hrow⟩ := hholds
      obtain rfl := Option.some.inj hx
      exact .inl ⟨heq, hrow⟩
    · next hne => exact .inr ⟨hne, hholds⟩
  refine ⟨fun t₁ t₂ row h₁ h₂ => ?_, fun t' l' hl' => ?_, ?_⟩
  · rcases hheld h₁ with ⟨rfl, hrow⟩ | ⟨hne₁, hholds₁⟩
    · rcases hheld h₂ with ⟨rfl, -⟩ | ⟨hne₂, hholds₂⟩
      · rfl
      · exact absurd ⟨t₂, hne₂, hholds₂⟩ (hfree row hrow)
    · rcases hheld h₂ with ⟨rfl, hrow⟩ | ⟨-, hholds₂⟩
      · exact absurd ⟨t₁, hne₁, hholds₁⟩ (hfree row hrow)
      · exact h.exclusive t₁ t₂ row hholds₁ hholds₂
  · by_cases ht : t' = t
    · rw [ht, Locking.running_put_self] at hl'
      exact Option.some.inj hl' ▸ hl
    · rw [Locking.running_put_of_ne S ht] at hl'
      exact h.orderly t' l' hl'
  · refine (h.finite.insert t).subset fun t' hrunning => ?_
    by_cases ht : t' = t
    · exact .inl ht
    · refine .inr ?_
      rwa [Set.mem_ofPred_eq, Locking.running_put_of_ne S ht] at hrunning

/-- A transaction ends. -/
theorem LocksOrdered.drop (h : LocksOrdered P O S) : LocksOrdered P O (S.put t none) := by
  have hheld : ∀ {t' row}, (S.put t none).Holds t' row → S.Holds t' row := by
    intro t' row hholds
    rw [Locking.holds_put] at hholds
    split at hholds
    · obtain ⟨x, hx, -⟩ := hholds
      cases hx
    · exact hholds
  refine ⟨fun t₁ t₂ row h₁ h₂ => h.exclusive t₁ t₂ row (hheld h₁) (hheld h₂),
    fun t' l' hl' => ?_, h.finite.subset fun t' hrunning => ?_⟩
  · by_cases ht : t' = t
    · rw [ht, Locking.running_put_self] at hl'
      cases hl'
    · rw [Locking.running_put_of_ne S ht] at hl'
      exact h.orderly t' l' hl'
  · by_cases ht : t' = t
    · rw [Set.mem_ofPred_eq, ht, Locking.running_put_self] at hrunning
      exact absurd rfl hrunning
    · rwa [Set.mem_ofPred_eq, Locking.running_put_of_ne S ht] at hrunning

/-- **Every move keeps the invariant.** -/
theorem LocksOrdered.step {I : σ → Prop} (hP : P.Ordered O I) (hI : I S.db)
    (h : LocksOrdered P O S) {m : Move τ} (hs : P.Step S m S') :
    I S'.db ∧ LocksOrdered P O S' := by
  cases m with
  | start t =>
    obtain ⟨-, script, hscript, rfl⟩ := hs
    refine ⟨hI, h.put ⟨fun row hrow => ?_, fun row hrow => absurd hrow List.not_mem_nil, trivial,
      fun db' hmeanwhile => hP.begins hI hscript hmeanwhile⟩
      fun row hrow => absurd hrow List.not_mem_nil⟩
    exact hrow.elim (fun hr => absurd hr List.not_mem_nil) fun hr => absurd hr List.not_mem_nil
  | read t =>
    obtain ⟨held, next, hl, rfl⟩ := hs
    exact ⟨hI, h.put (h.orderly t _ hl).readOn fun r hr => h.not_heldByOthers hl r hr⟩
  | ask t =>
    obtain ⟨held, rows, next, found, hl, hfound, rfl⟩ := hs
    exact ⟨hI, h.put ((h.orderly t _ hl).asked hfound) fun r hr => h.not_heldByOthers hl r hr⟩
  | take t =>
    obtain ⟨held, row, pending, script, hl, hfree, rfl⟩ := hs
    refine ⟨hI, h.put (h.orderly t _ hl).taken fun r hr => ?_⟩
    rcases List.mem_cons.mp hr with rfl | hr
    · exact hfree
    · exact h.not_heldByOthers hl r hr
  | takeFree t =>
    obtain ⟨held, rows, next, chosen, hl, hchosen, hfree, rfl⟩ := hs
    refine ⟨hI, h.put ((h.orderly t _ hl).takenFree hchosen) fun r hr => ?_⟩
    rcases List.mem_append.mp hr with hr | hr
    · exact hfree r (List.mem_reverse.mp hr)
    · exact h.not_heldByOthers hl r hr
  | commit t =>
    obtain ⟨-, db', hchange, rfl⟩ := hs
    refine ⟨hP.change hI hchange, h.drop.changed (fun t' row hholds => ?_) hchange
      fun row => hP.stable hI hchange⟩
    rw [Locking.holds_put] at hholds
    split at hholds
    · obtain ⟨x, hx, -⟩ := hholds
      cases hx
    · next hne => exact ⟨t', hne, hholds⟩
  | rollback t =>
    obtain ⟨-, rfl⟩ := hs
    exact ⟨hI, h.drop⟩
  | outside =>
    obtain ⟨db', hchange, rfl⟩ := hs
    exact ⟨hP.change hI hchange, h.changed (fun t row hholds => ⟨t, hholds⟩) hchange
      fun row => hP.stable hI hchange⟩

/-- **Every reachable state keeps the order.** -/
theorem Protocol.Ordered.reachable {I : σ → Prop} (hP : P.Ordered O I)
    (hr : (P.machine τ).Reachable S) : I S.db ∧ LocksOrdered P O S := by
  refine hr.invariant (I := fun S => I S.db ∧ LocksOrdered P O S) (fun S hinit => ?_)
    fun S m S' _ h hs => h.2.step hP h.1 hs
  obtain ⟨hdb, hnone⟩ := hinit
  refine ⟨hP.init hdb, ⟨?_, ?_, ?_⟩⟩
  · rintro t t' row ⟨l, hl, -⟩
    rw [hnone] at hl
    cases hl
  · intro t l hl
    rw [hnone] at hl
    cases hl
  · exact (Set.finite_empty).subset fun t ht => ht (hnone t)

end Moves

/-! ## Keeping the discipline -/

section Rules

variable [Preorder κ] {P : Protocol σ ρ} {O : LockOrder σ ρ κ} {held held' : List ρ} {db db' : σ}
  {row : ρ} {rows : σ → List ρ} {next : List ρ → Script σ ρ} {script : Script σ ρ}

/-- The row is held, or stands behind a row that is held. -/
def LockOrder.Covers (O : LockOrder σ ρ κ) (held : List ρ) (row : ρ) : Prop :=
  row ∈ held ∨ ∃ g ∈ held, O.guard row = some g

omit [Preorder κ] in
theorem LockOrder.Covers.mono (hsub : held ⊆ held') (h : O.Covers held row) :
    O.Covers held' row := by
  rcases h with hrow | ⟨g, hg, hguard⟩
  · exact .inl (hsub hrow)
  · exact .inr ⟨g, hsub hg, hguard⟩

theorem LockOrder.admits_covered {rows : List ρ} (h : ∀ row ∈ rows, O.Covers held row) :
    O.Admits held rows := by
  induction rows generalizing held with
  | nil => trivial
  | cons row rows ih =>
    obtain ⟨hrow, hrest⟩ := List.forall_mem_cons.mp h
    refine ⟨?_, ih fun r hr => (hrest r hr).mono (List.subset_cons_self row held)⟩
    exact hrow.imp id .inl

/-- Rows in rising order, above all that is held. -/
theorem LockOrder.admits_rising {rows : List ρ} (hguard : ∀ row ∈ rows, O.guard row = none)
    (hrising : rows.Pairwise fun a b => O.rank a < O.rank b)
    (habove : ∀ h ∈ held, ∀ row ∈ rows, O.rank h < O.rank row) : O.Admits held rows := by
  induction rows generalizing held with
  | nil => trivial
  | cons row rows ih =>
    obtain ⟨hnone, hguard⟩ := List.forall_mem_cons.mp hguard
    obtain ⟨hfirst, hrising⟩ := List.pairwise_cons.mp hrising
    refine ⟨.inr (.inr ⟨hnone, fun h hh => habove h hh row List.mem_cons_self⟩),
      ih hguard hrising fun h hh r hr => ?_⟩
    rcases List.mem_cons.mp hh with rfl | hh
    · exact hfirst r hr
    · exact habove h hh r (List.mem_cons_of_mem _ hr)

/-- A statement that locks rows in rising order. -/
theorem Disciplined.rising (hknown : ∀ row ∈ rows db, O.known db row)
    (hguard : ∀ row ∈ rows db, O.guard row = none)
    (hrising : (rows db).Pairwise fun a b => O.rank a < O.rank b)
    (habove : ∀ h ∈ held, ∀ row ∈ rows db, O.rank h < O.rank row)
    (hnext : ∀ found, found.Sublist (rows db) → ∀ db', P.Meanwhile held db db' →
      Disciplined P O (next found) ((rows db).reverse ++ held) db') :
    Disciplined P O (.lock rows next) held db :=
  ⟨hknown, O.admits_rising hguard hrising habove, hnext⟩

/-- With these rows held, the script locks nothing that they do not cover. -/
def Closing (P : Protocol σ ρ) (O : LockOrder σ ρ κ) (held : List ρ) (db : σ)
    (script : Script σ ρ) : Prop :=
  ∀ held', held ⊆ held' → ∀ db', P.Meanwhile held db db' → Disciplined P O script held' db'

theorem Closing.disciplined (h : Closing P O held db script) : Disciplined P O script held db :=
  h held (List.Subset.refl held) db .refl

theorem Closing.done : Closing P O held db .done := fun _ _ _ _ => trivial

theorem Closing.read {next : σ → Script σ ρ}
    (hnext : ∀ db', P.Meanwhile held db db' → Closing P O held db' (next db')) :
    Closing P O held db (.read next) := by
  intro held' hsub db' hmeanwhile db'' hmeanwhile'
  exact hnext db' hmeanwhile held' hsub db'' (hmeanwhile'.mono fun _ h => hsub h)

theorem Closing.lock (hknown : ∀ db', P.Meanwhile held db db' → ∀ row ∈ rows db', O.known db' row)
    (hcovers : ∀ db', P.Meanwhile held db db' → ∀ row ∈ rows db', O.Covers held row)
    (hnext : ∀ found, Closing P O held db (next found)) :
    Closing P O held db (.lock rows next) := by
  intro held' hsub db' hmeanwhile
  refine ⟨hknown db' hmeanwhile,
    O.admits_covered fun r hr => (hcovers db' hmeanwhile r hr).mono hsub,
    fun found _ db'' hmeanwhile' => ?_⟩
  exact hnext found _ (fun _ hr => List.mem_append_right _ (hsub hr)) db''
    (.trans hmeanwhile (hmeanwhile'.mono fun _ h => hsub h))

end Rules

/-! ## Nobody waits in a circle -/

section Waiting

variable [Preorder κ] {P : Protocol σ ρ} {O : LockOrder σ ρ κ} {S : Locking σ ρ τ} {t t' : τ}
  {row : ρ}

/-- Who waits for a row holds only rows below it. -/
theorem LocksOrdered.rank_lt (h : LocksOrdered P O S) {l : Locker σ ρ} {rows : List ρ}
    (hl : S.running t = some l) (hpending : l.pending = row :: rows) (hne : t' ≠ t)
    (hholds : S.Holds t' row) : ∀ r, S.Holds t r → O.rank r < O.rank row := by
  have hadmits := (h.orderly t l hl).admits
  rw [hpending] at hadmits
  obtain ⟨hheld | ⟨g, hg, hguard⟩ | ⟨-, hbelow⟩, -⟩ := hadmits
  · exact absurd (h.exclusive t' t row hholds ⟨l, hl, hheld⟩) hne
  · -- both would hold the guard
    obtain ⟨l', hl', hrow⟩ := hholds
    have hg' := (h.orderly t' l' hl').guarded row hrow g hguard
    exact absurd (h.exclusive t' t g ⟨l', hl', hg'⟩ ⟨l, hl, hg⟩) hne
  · rintro r ⟨l', hl', hr⟩
    obtain rfl := Option.some.inj (hl'.symm.trans hl)
    exact hbelow r hr

/-- Along a chain of waiting the rows rise. -/
theorem LocksOrdered.chain (h : LocksOrdered P O S) (hchain : Relation.TransGen S.WaitsFor t t') :
    ∃ l row rows, S.running t = some l ∧ l.pending = row :: rows ∧
      (∀ r, S.Holds t r → O.rank r < O.rank row) ∧
        ∃ row', S.Holds t' row' ∧ O.rank row ≤ O.rank row' := by
  induction hchain with
  | single hwaits =>
    obtain ⟨l, row, rows, hl, hpending, hne, hholds⟩ := hwaits
    exact ⟨l, row, rows, hl, hpending, h.rank_lt hl hpending hne hholds, row, hholds, le_rfl⟩
  | tail _ hwaits ih =>
    obtain ⟨l, row, rows, hl, hpending, hbelow, r, hr, hle⟩ := ih
    obtain ⟨l', row', rows', hl', hpending', hne, hholds⟩ := hwaits
    have hlt := h.rank_lt hl' hpending' hne hholds r hr
    exact ⟨l, row, rows, hl, hpending, hbelow, row', hholds, hle.trans hlt.le⟩

/-- **There is no circle of waiting.** -/
theorem LocksOrdered.not_deadlocked (h : LocksOrdered P O S) (t : τ) :
    ¬Relation.TransGen S.WaitsFor t t := by
  intro hcircle
  obtain ⟨l, row, rows, -, -, hbelow, row', hholds, hle⟩ := h.chain hcircle
  exact absurd (hbelow row' hholds) hle.not_gt

/-- **Whoever waits, waits in the end for somebody who does not.** -/
theorem LocksOrdered.waits_for_mover (h : LocksOrdered P O S) (hrunning : S.running t ≠ none) :
    ∃ t', S.running t' ≠ none ∧ Relation.ReflTransGen S.WaitsFor t t' ∧
      ∀ t'', ¬S.WaitsFor t' t'' := by
  have : IsStrictOrder τ fun a b => Relation.TransGen S.WaitsFor b a :=
    { irrefl := h.not_deadlocked
      trans := fun a b c hab hbc => hbc.trans hab }
  have hrun : ∀ {a b}, S.WaitsFor a b → S.running b ≠ none := by
    rintro a b ⟨-, -, -, -, -, -, l, hl, -⟩
    rw [hl]
    exact nofun
  have hwf : {t | S.running t ≠ none}.WellFoundedOn fun a b => Relation.TransGen S.WaitsFor b a :=
    h.finite.wellFoundedOn
  refine hwf.induction (P := fun a => ∃ b, S.running b ≠ none ∧
    Relation.ReflTransGen S.WaitsFor a b ∧ ∀ c, ¬S.WaitsFor b c) hrunning fun a ha ih => ?_
  by_cases hwaits : ∃ b, S.WaitsFor a b
  · obtain ⟨b, hab⟩ := hwaits
    obtain ⟨c, hc, hbc, hends⟩ := ih b (hrun hab) (.single hab)
    exact ⟨c, hc, .head hab hbc, hends⟩
  · exact ⟨a, ha, .refl, fun b hab => hwaits ⟨b, hab⟩⟩

end Waiting

end RowLocks
