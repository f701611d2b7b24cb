import Bookswap.System
import Bookswap.QuickAdd.QuickAddOutcome

/-!
# Quick-add is idempotent

- `QuickAdding.Idempotent`, `quick_add_idempotent`: an operation creates at most one copy, ever;
  every success returns it; a call that does not succeed has committed nothing; and a call with
  another content than the recorded one is refused.
-/

namespace Bookswap

open ReadCommitted

variable {env : QuickAddEnv} {answers : Provider → Prop}

/-- The operation of the call is recorded with another content. -/
def OtherContent (env : QuickAddEnv) (call : QuickAddCall) (w : QuickAddWorld) : Prop :=
  ∃ o, w.db.operation? call.userId call.request.operationId = some o ∧
    o.requestHash ≠ requestHashOf env.sha256 call.request

theorem OtherContent.later {call : QuickAddCall} {w w' : QuickAddWorld} (hw : w.Later w')
    (h : OtherContent env call w) : OtherContent env call w' := by
  obtain ⟨o, ho, hhash⟩ := h
  obtain ⟨o', ho', hsame⟩ := hw.operation _ _ o ho
  exact ⟨o', ho', hsame.trans_ne hhash⟩

/-- What `prepare` does for an operation that is recorded: it does not fail. -/
def PrepareSafe (answers : Provider → Prop) (w : QuickAddWorld)
    (p : AddScript PreparedExternal) : Prop :=
  p.Safe catalogSchema QuickAddWorld.db (fun _ _ => QuickAddWorld.Later) (fun _ => answers)
    (fun _ => False) (fun _ _ => False) (fun _ _ _ _ => True) [] w []

theorem PrepareSafe.step {w : QuickAddWorld} {p p' : AddScript PreparedExternal}
    (hrec : w.Recorded) (h : PrepareSafe answers w p)
    (hs : (Open.start p).Step catalogSchema (fun _ => answers) (fun _ => False) (fun _ => False)
      w.db (.start p')) : PrepareSafe answers w p' :=
  Script.Safe.step (t := .start p) (.refl hrec) h (catalogSchema.free_nil _) hs

/-- A recorded operation is prepared without a source. -/
theorem prepare_recorded (isbnFirst : Bool) {call : QuickAddCall} {w : QuickAddWorld}
    (h : OtherContent env call w) :
    PrepareSafe answers w (prepare isbnFirst call.userId call.request) := by
  have hrepeated : ∀ {f : Option LibraryAddOperation → AddScript PreparedExternal},
      (∀ o, f (some o) = .done .nothing) → PrepareSafe answers w
        (.select (fun db => db.operation? call.userId call.request.operationId) >>= f) := by
    intro f hf
    refine Script.Safe.select fun w' hw _ => ?_
    obtain ⟨o, ho, -⟩ := h.later hw
    rw [Schema.view_nil, ho, hf]
    trivial
  unfold prepare
  cases call.request.target with
  | existingEdition | manual => trivial
  | externalWork target => exact hrepeated fun o => rfl
  | externalEdition target => exact hrepeated fun o => rfl

/-- **With another content recorded the transaction refuses.** -/
theorem run_conflict (now : Time) {call : QuickAddCall} (prepared : PreparedExternal)
    {w : QuickAddWorld} (h : OtherContent env call w) :
    TxSafe answers (fun e => e = operationConflict) (fun _ _ => False) (fun _ _ _ => False) w
      (.start (run env now call.userId call.request prepared)) := by
  show Script.Safe _ _ _ _ _ _ _ (run env now call.userId call.request prepared) [] w []
  refine Script.Safe.acquire fun w' hw _ => Script.Safe.select fun w'' hw' _ => ?_
  obtain ⟨o, ho, hhash⟩ := (h.later hw).later hw'
  rw [Schema.view_nil, ho]
  show Script.Safe _ _ _ _ _ _ _ (replay env call.userId call.request o) _ _ _
  rw [replay, if_pos hhash]
  rfl

/-- What becomes of a call whose operation is recorded with another content. -/
def PhaseForeclosed (answers : Provider → Prop) (w : QuickAddWorld) : QuickAddPhase → Prop
  | .preparing p => PrepareSafe answers w p
  | .transacting _ _ tx =>
    TxSafe answers (fun e => e = operationConflict) (fun _ _ => False) (fun _ _ _ => False) w tx
  | .answered answer => answer = .error operationConflict ∨ answer = .error .timedOut
  | .lost => True

structure Foreclosed (env : QuickAddEnv) (answers : Provider → Prop) (r : RequestId)
    (call : QuickAddCall) (s : QuickAdding) : Prop where
  other : OtherContent env call s.world
  phase : ∃ ph, s.calls r = some (call, ph) ∧ PhaseForeclosed answers s.world ph

theorem PhaseForeclosed.later {w w' : QuickAddWorld} {ph : QuickAddPhase} (hw : w.Later w')
    (hfree : catalogSchema.Free ph.writes w'.db) (h : PhaseForeclosed answers w ph) :
    PhaseForeclosed answers w' ph := by
  cases ph with
  | preparing p =>
    exact Script.Safe.rely QuickAddWorld.later_chains (fun _ _ _ _ _ _ _ h => h) h hw
      (catalogSchema.free_nil _)
  | transacting attempt prepared tx => exact TxSafe.later (fun _ _ _ _ _ h => h) h hw hfree
  | answered answer => exact h
  | lost => trivial

/-- The call of a step, when the step is of a call. -/
theorem Foreclosed.step {r : RequestId} {call : QuickAddCall} {s s' : QuickAdding}
    {op : QuickAddingOp} (hr : (quickAdding env answers).Reachable s)
    (hf : Foreclosed env answers r call s) (h : QuickAdding.Step env answers s op s') :
    Foreclosed env answers r call s' := by
  obtain ⟨hother, ph, hph, hphase⟩ := hf
  have hw := later_step hr h
  have ha := quickAdding_apart hr
  have hrec := (outcomes hr).recorded
  refine ⟨hother.later hw, ?_⟩
  -- a step of another call, or of nobody's, leaves the phase
  have hstay : s'.calls r = some (call, ph) → ∃ ph, s'.calls r = some (call, ph) ∧
      PhaseForeclosed answers s'.world ph := fun hsame =>
    ⟨ph, hsame, hphase.later hw ((ha.step h).free r call ph hsame)⟩
  have hmove : ∀ q call' ph', (q = r → call' = call → PhaseForeclosed answers s.world ph') →
      (∀ call₀ ph₀, s.calls q = some (call₀, ph₀) → call₀ = call') →
      ∃ ph, (s.move q call' ph').calls r = some (call, ph) ∧
        PhaseForeclosed answers s.world ph := by
    intro q call' ph' hph' hcall
    by_cases hq : r = q
    · subst hq
      obtain rfl := hcall call ph hph
      exact ⟨ph', by simp [QuickAdding.move], hph' rfl rfl⟩
    · exact ⟨ph, by rw [QuickAdding.move_calls, if_neg hq, hph], hphase⟩
  have hown : ∀ {q call' ph'}, s.calls q = some (call', ph') → q = r →
      PhaseForeclosed answers s.world ph' := by
    rintro q call' ph' hq rfl
    rw [hph] at hq
    cases hq
    exact hphase
  cases h with
  | @post q call' isbnFirst hq =>
    refine hmove q call' _ (fun hqr => ?_) fun call₀ ph₀ h₀ => ?_
    · rw [← hqr, hq] at hph
      cases hph
    · rw [hq] at h₀
      cases h₀
  | prepare hq hs =>
    refine hmove _ _ _ (fun hqr _ => ?_) (QuickAdding.same_of_eq hq)
    exact PrepareSafe.step hrec (hown hq hqr) hs
  | @begin q call' now prepared hq =>
    refine hmove _ _ _ (fun _ hcall => ?_) (QuickAdding.same_of_eq hq)
    subst hcall
    exact run_conflict now prepared hother
  | statement hq hs =>
    refine hmove _ _ _ (fun hqr _ => ?_) (QuickAdding.same_of_eq hq)
    exact TxSafe.step hrec (hown hq hqr) (ha.free _ _ _ hq) hs
  | @commit q call' attempt prepared response ls ws hq =>
    by_cases hqr : r = q
    · exact (hown hq hqr.symm : False).elim
    · exact hstay ((QuickAdding.move_calls q r call' _).trans ((if_neg hqr).trans hph))
  | failPreparing hq =>
    refine hmove _ _ _ (fun hqr _ => ?_) (QuickAdding.same_of_eq hq)
    exact (hown hq hqr : False).elim
  | fail hq =>
    refine hmove _ _ _ (fun hqr _ => ?_) (QuickAdding.same_of_eq hq)
    have he : _ = operationConflict := hown hq hqr
    exact Or.inl (congrArg _ he)
  | @refuse q call' attempt now prepared tx key hq hs =>
    refine hmove _ _ _ (fun hqr _ => ?_) (QuickAdding.same_of_eq hq)
    exact (TxSafe.refused hrec (hown hq hqr) (ha.free _ _ _ hq) hs).elim
  | timeout hq => exact hmove _ _ _ (fun _ _ => Or.inr rfl) (QuickAdding.same_of_eq hq)
  | crashPreparing hq => exact hmove _ _ _ (fun _ _ => trivial) (QuickAdding.same_of_eq hq)
  | crash hq => exact hmove _ _ _ (fun _ _ => trivial) (QuickAdding.same_of_eq hq)
  | elsewhere => exact hstay hph

/-- What holds of every state of quick-add. -/
structure QuickAdding.Idempotent (env : QuickAddEnv) (s : QuickAdding) : Prop where
  once : ∀ u op, (s.created u op).length ≤ 1
  same : ∀ r call response, s.calls r = some (call, .answered (.ok response)) →
    s.created call.userId call.request.operationId = [response.copy.id]
  content : ∀ r call response, s.calls r = some (call, .answered (.ok response)) →
    ∀ o, s.db.operation? call.userId call.request.operationId = some o →
      o.requestHash = requestHashOf env.sha256 call.request
  success : ∀ c ∈ s.commits, ∃ call response,
    s.calls c.requestId = some (call, .answered (.ok response))

/-- Only the commit of a call that succeeds, or another service, changes the database. -/
def QuickAdding.Quiet (s : QuickAdding) (op : QuickAddingOp) (s' : QuickAdding) : Prop :=
  (s'.db = s.db ∧ s'.commits = s.commits) ∨
  (∃ r call response ws, op = .commit r ∧ s'.calls r = some (call, .answered (.ok response)) ∧
    s'.commits = ⟨r, call.userId, call.request.operationId, ws⟩ :: s.commits) ∨
  ∃ db, op = .elsewhere db ∧ s'.commits = s.commits

theorem QuickAdding.Step.quiet {s s' : QuickAdding} {op : QuickAddingOp}
    (h : QuickAdding.Step env answers s op s') : s.Quiet op s' := by
  cases h with
  | @commit r call attempt prepared response ls ws hr =>
    exact Or.inr (Or.inl ⟨r, call, response, ws, rfl, by simp [QuickAdding.move], rfl⟩)
  | elsewhere => exact Or.inr (Or.inr ⟨_, rfl, rfl⟩)
  | _ => exact Or.inl ⟨rfl, rfl⟩

theorem idempotent {s : QuickAdding} (hr : (quickAdding env answers).Reachable s) :
    s.Idempotent env := by
  have ho := outcomes hr
  refine ⟨fun u op => ?_, fun r call response h => (QuickAdding.outcome_nil (ho.answers _ _ _ h)).1,
    fun r call response h o hop => ?_, ho.commits⟩
  · cases hop : s.db.operation? u op with
    | none =>
      have hnil : s.created u op = [] := ho.recorded.none u op hop
      simp [hnil]
    | some o =>
      obtain ⟨c, hc, -⟩ := ho.recorded.some u op o hop
      have hone : s.created u op = [c] := hc
      simp [hone]
  · obtain ⟨-, o', hop', hhash⟩ := QuickAdding.outcome_nil (ho.answers _ _ _ h)
    have heq : o = o' := by
      change s.db.operation? _ _ = some o' at hop'
      rw [hop] at hop'
      exact Option.some.inj hop'
    rw [heq, hhash]

/-- What an operation has created stays all that it creates, whether its copy stays or not. -/
theorem created_kept {s s' : QuickAdding} (hr : (quickAdding env answers).Reachable s)
    (h : (quickAdding env answers).Leads s s') {u : UserId} {op : OperationId} {c : CopyId}
    (hc : s.created u op = [c]) : s'.created u op = [c] :=
  h.keeps (P := fun s => s.created u op = [c])
    (fun _ _ _ hr hc hs => (later_step hr hs).created u op c hc) hr hc

/-- **A call that is posted after another content was recorded is refused.** -/
theorem conflict_refused {s s₁ s₂ : QuickAdding} (hr : (quickAdding env answers).Reachable s)
    {r : RequestId} {call call' : QuickAddCall} {isbnFirst : Bool}
    (hother : OtherContent env call s.world)
    (hpost : QuickAdding.Step env answers s (.post r call isbnFirst) s₁)
    (hlead : (quickAdding env answers).Leads s₁ s₂)
    {answer : Except QuickAddFailure QuickAddResponse}
    (hanswer : s₂.calls r = some (call', .answered answer)) :
    answer = .error operationConflict ∨ answer = .error .timedOut := by
  have hbegun : Foreclosed env answers r call s₁ := by
    refine ⟨hother.later (later_step hr hpost), ?_⟩
    cases hpost
    refine ⟨.preparing (prepare isbnFirst call.userId call.request), by simp [QuickAdding.move], ?_⟩
    show PrepareSafe answers s.world (prepare isbnFirst call.userId call.request)
    exact prepare_recorded isbnFirst hother
  have hr₁ : (quickAdding env answers).Reachable s₁ := hr.next hpost
  obtain ⟨-, ph, hph, hphase⟩ := hlead.keeps (P := Foreclosed env answers r call)
    (fun _ _ _ hr hf hs => hf.step hr hs) hr₁ hbegun
  rw [hanswer] at hph
  cases hph
  exact hphase

/-- **Quick-add is idempotent.** -/
theorem quick_add_idempotent {s : QuickAdding} (hr : (quickAdding env answers).Reachable s) :
    s.Idempotent env ∧
    (∀ op s', QuickAdding.Step env answers s op s' → s.Quiet op s') ∧
    (∀ u op c s', s.created u op = [c] → (quickAdding env answers).Leads s s' →
      s'.created u op = [c]) ∧
    ∀ r call isbnFirst s₁ s₂ call' answer, OtherContent env call s.world →
      QuickAdding.Step env answers s (.post r call isbnFirst) s₁ →
      (quickAdding env answers).Leads s₁ s₂ → s₂.calls r = some (call', .answered answer) →
      answer = .error operationConflict ∨ answer = .error .timedOut :=
  ⟨idempotent hr, fun _ _ h => h.quiet, fun _ _ _ _ hc h => created_kept hr h hc,
    fun _ _ _ _ _ _ _ hother hpost hlead h => conflict_refused hr hother hpost hlead h⟩

/-! ## An example -/

def exampleEnv : QuickAddEnv := ⟨fun _ => 0, id, fun _ => ""⟩

/-- A user and an edition, and no copy yet. -/
def exampleCatalog : CatalogDb where
  users := [exampleOwner]
  authors := []
  works := [⟨1, "Тигролови", "тигролови", none, none, none, 1, none⟩]
  workAuthors := []
  translations := []
  editions := [⟨3, 1, none, .unknown, none, none, none, none, none, none, none, 1⟩]
  editionReferences := []
  workReferences := []
  copies := []
  operations := []

def exampleAdd : QuickAddCall := ⟨1, 5, none, none, .existingEdition 3⟩

/-- One call adds a copy of an edition that is there. -/
def exampleAdding (ph : QuickAddPhase) : QuickAdding :=
  QuickAdding.move ⟨exampleCatalog, fun _ => none, []⟩ 0 exampleAdd ph

theorem exampleAdding_calls {ph : QuickAddPhase} :
    (exampleAdding ph).calls 0 = some (exampleAdd, ph) := by
  simp [exampleAdding, QuickAdding.move]

theorem exampleAdding_alone {ph : QuickAddPhase} {q : RequestId} {call : QuickAddCall}
    {ph' : QuickAddPhase} (hne : q ≠ 0) : (exampleAdding ph).calls q ≠ some (call, ph') := by
  rw [exampleAdding, QuickAdding.move_calls, if_neg hne]
  simp

theorem exampleAdding_statement {tx tx' : AddTx QuickAddResponse}
    (h : (quickAdding exampleEnv fun _ => True).Reachable
      (exampleAdding (.transacting 1 .nothing tx)))
    (hs : tx.Step catalogSchema (fun _ _ => True) (fun _ => False) (fun _ => False) exampleCatalog
      tx') :
    (quickAdding exampleEnv fun _ => True).Reachable
      (exampleAdding (.transacting 1 .nothing tx')) := by
  have hstep : QuickAdding.Step exampleEnv (fun _ => True)
      (exampleAdding (.transacting 1 .nothing tx)) (.statement 0)
      ((exampleAdding (.transacting 1 .nothing tx)).move 0 exampleAdd
        (.transacting 1 .nothing tx')) := by
    refine .statement exampleAdding_calls (hs.mono ?_ ?_)
    · rintro n ⟨q, call, ph, hne, hq, -⟩
      exact exampleAdding_alone hne hq
    · rintro key ⟨q, call, ph, hne, hq, -⟩
      exact exampleAdding_alone hne hq
  have hsame : (exampleAdding (.transacting 1 .nothing tx)).move 0 exampleAdd
      (.transacting 1 .nothing tx') = exampleAdding (.transacting 1 .nothing tx') := by
    simp [exampleAdding, QuickAdding.move]
  rw [← hsame]
  exact h.next hstep

theorem exampleAdding_commit {response : QuickAddResponse} {ls : List LockName}
    {ws : List CatalogWrite}
    (h : (quickAdding exampleEnv fun _ => True).Reachable
      (exampleAdding (.transacting 1 .nothing ⟨.done response, ls, ws⟩))) :
    (quickAdding exampleEnv fun _ => True).Reachable
      ((exampleAdding (.transacting 1 .nothing ⟨.done response, ls, ws⟩)).afterCommit 0 exampleAdd
        response ws) :=
  h.next (.commit exampleAdding_calls)

/-- The call succeeds, and its operation has created the copy that it returns. -/
theorem quick_add_idempotent_once : ∃ (s : QuickAdding) (response : QuickAddResponse),
    s.Idempotent exampleEnv ∧ s.calls 0 = some (exampleAdd, .answered (.ok response)) ∧
      s.created 1 5 = [response.copy.id] ∧ s.db.copies = [response.copy] := by
  have hstart : (quickAdding exampleEnv fun _ => True).Reachable
      ⟨exampleCatalog, fun _ => none, []⟩ := .start ⟨rfl, fun _ => rfl, rfl⟩
  have hpost : QuickAdding.Step exampleEnv (fun _ => True) ⟨exampleCatalog, fun _ => none, []⟩
      (.post 0 exampleAdd true) (exampleAdding (.preparing (.done .nothing))) := .post rfl
  have hbegin : QuickAdding.Step exampleEnv (fun _ => True)
      (exampleAdding (.preparing (.done .nothing))) (.begin 0 0)
      ((exampleAdding (.preparing (.done .nothing))).move 0 exampleAdd (.transacting 1 .nothing
        (.start (run exampleEnv 0 1 exampleAdd.request .nothing)))) :=
    .begin exampleAdding_calls
  have hrun : (quickAdding exampleEnv fun _ => True).Reachable (exampleAdding
      (.transacting 1 .nothing (.start (run exampleEnv 0 1 exampleAdd.request .nothing)))) := by
    have h := (hstart.next hpost).next hbegin
    simpa [exampleAdding, QuickAdding.move] using h
  have hlock := exampleAdding_statement hrun (.lock not_false)
  have hoperation := exampleAdding_statement hlock .query
  have hedition := exampleAdding_statement hoperation .query
  have howner := exampleAdding_statement hedition .query
  have hid := exampleAdding_statement howner (.newId (i := 10))
  have hcopy := exampleAdding_statement hid (.write (by
    intro key hkey
    cases List.mem_singleton.mp hkey
    exact ⟨not_false, rfl⟩))
  have hrecord := exampleAdding_statement hcopy (.write (by
    intro key hkey
    cases List.mem_singleton.mp hkey
    exact ⟨not_false, rfl⟩))
  have hcommitted := exampleAdding_commit hrecord
  refine ⟨_, _, (quick_add_idempotent hcommitted).1, QuickAdding.afterCommit_calls, ?_, rfl⟩
  exact (createdBy_cons _ _ 1 5).trans (if_pos ⟨rfl, rfl⟩)

end Bookswap
