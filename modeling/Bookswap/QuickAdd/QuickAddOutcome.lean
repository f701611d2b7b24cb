import Bookswap.QuickAdd.QuickAddInvariant

/-!
# What a quick-add transaction guarantees

Whatever the others commit meanwhile, a transaction that ends well has either repeated the recorded
outcome of its operation, or adds a chain, one copy and the record. The key of the record is free
at the commit, so the second happens once.

- `QuickAddWorld`: the database, with what was committed so far.
- `QuickAddWorld.Recorded`: an operation is recorded exactly when it created its copy.
- `QuickAddWorld.Later`: what nobody ever changes, the rely condition.
- `run_safe`, `run_conflict`: the transaction; `Outcomes`, `outcomes`: the runs.
-/

namespace Bookswap

open ReadCommitted

/-- The database, and what the calls have committed so far. -/
structure QuickAddWorld where
  db : CatalogDb
  commits : List QuickAddCommit

def QuickAdding.world (s : QuickAdding) : QuickAddWorld := ⟨s.db, s.commits⟩

/-- The copies that commits have created for the operation, newest first. -/
def createdBy (userId : UserId) (operationId : OperationId) (commits : List QuickAddCommit) :
    List CopyId :=
  (commits.filter fun c => c.userId = userId ∧ c.operationId = operationId).flatMap fun c =>
    c.writes.filterMap CatalogWrite.copyId?

def QuickAdding.created (s : QuickAdding) (userId : UserId) (operationId : OperationId) :
    List CopyId := createdBy userId operationId s.commits

namespace QuickAddWorld

def created (w : QuickAddWorld) (userId : UserId) (operationId : OperationId) : List CopyId :=
  createdBy userId operationId w.commits

/-- An operation is recorded exactly when it has created its copy, which it names while there is
one. -/
structure Recorded (w : QuickAddWorld) : Prop where
  none : ∀ u op, w.db.operation? u op = none → w.created u op = []
  some : ∀ u op o, w.db.operation? u op = some o →
    ∃ c, w.created u op = [c] ∧ ∀ c' ∈ o.copyId, c' = c

/-- What nobody changes. -/
structure Later (w w' : QuickAddWorld) : Prop where
  recorded : w'.Recorded
  created : ∀ u op c, w.created u op = [c] → w'.created u op = [c]
  operation : ∀ u op o, w.db.operation? u op = Option.some o →
    ∃ o', w'.db.operation? u op = Option.some o' ∧ o'.requestHash = o.requestHash

theorem Later.refl {w : QuickAddWorld} (h : w.Recorded) : w.Later w :=
  ⟨h, fun _ _ _ hc => hc, fun _ _ o ho => ⟨o, ho, rfl⟩⟩

theorem Later.trans {w w' w'' : QuickAddWorld} (h : w.Later w') (h' : w'.Later w'') :
    w.Later w'' := by
  refine ⟨h'.recorded, fun u op c hc => h'.created u op c (h.created u op c hc),
    fun u op o ho => ?_⟩
  obtain ⟨o', ho', hhash⟩ := h.operation u op o ho
  obtain ⟨o'', ho'', hhash'⟩ := h'.operation u op o' ho'
  exact ⟨o'', ho'', hhash'.trans hhash⟩

theorem later_chains :
    Script.Chains (fun (_ : List LockName) (_ : List CatalogWrite) => Later) :=
  fun _ _ _ _ _ h h' => h.trans h'

end QuickAddWorld

open QuickAddWorld (Later)

/-! ## Look-ups after a write -/

theorem operation?_cons (o : LibraryAddOperation) (db : CatalogDb) (u : UserId)
    (op : OperationId) :
    ((CatalogWrite.operation o).apply db).operation? u op =
      if o.userId = u ∧ o.operationId = op then some o else db.operation? u op := by
  unfold CatalogDb.operation? CatalogWrite.apply
  rw [List.find?_cons]
  by_cases h : o.userId = u ∧ o.operationId = op
  · simp [h]
  · simp [h]

theorem operation?_eq_none {db : CatalogDb} {u : UserId} {op : OperationId}
    (h : db.taken (.operation u op) = false) : db.operation? u op = none := by
  refine List.find?_eq_none.mpr fun o ho => ?_
  have := List.any_eq_false.mp h o ho
  simpa using this

/-- A chain leaves the copies and the operations as they are. -/
theorem view_chain {db : CatalogDb} {chain : List CatalogWrite}
    (h : ∀ x ∈ chain, x.isChain = true) :
    (catalogSchema.view db chain).operations = db.operations ∧
      (catalogSchema.view db chain).copies = db.copies := by
  induction chain with
  | nil => exact ⟨rfl, rfl⟩
  | cons x chain ih =>
    obtain ⟨ho, hc⟩ := ih fun y hy => h y (List.mem_cons_of_mem _ hy)
    have hx := h x List.mem_cons_self
    rw [Schema.view_cons]
    cases x with
    | copy | operation => cases hx
    | _ => exact ⟨ho, hc⟩

/-- A chain creates no copy. -/
theorem copyIds_chain {chain : List CatalogWrite} (h : ∀ x ∈ chain, x.isChain = true) :
    chain.filterMap CatalogWrite.copyId? = [] := by
  refine List.filterMap_eq_nil_iff.mpr fun x hx => ?_
  have := h x hx
  cases x <;> first | rfl | cases this

theorem createdBy_cons (c : QuickAddCommit) (commits : List QuickAddCommit) (u : UserId)
    (op : OperationId) :
    createdBy u op (c :: commits) =
      if c.userId = u ∧ c.operationId = op then
        c.writes.filterMap CatalogWrite.copyId? ++ createdBy u op commits
      else createdBy u op commits := by
  unfold createdBy
  by_cases h : c.userId = u ∧ c.operationId = op
  · simp [h]
  · simp [h]

/-! ## The transaction -/

variable {env : QuickAddEnv} {answers : Provider → Prop}

/-- How a transaction ends well: it repeats the recorded outcome, or it adds a chain, the copy and
the record. -/
def Outcome (env : QuickAddEnv) (call : QuickAddCall) (response : QuickAddResponse)
    (w : QuickAddWorld) (ws : List CatalogWrite) : Prop :=
  (ws = [] ∧ w.created call.userId call.request.operationId = [response.copy.id] ∧
    ∃ o, w.db.operation? call.userId call.request.operationId = some o ∧
      o.requestHash = requestHashOf env.sha256 call.request) ∨
  ∃ o chain, ws = .operation o :: .copy response.copy :: chain ∧
    (∀ x ∈ chain, x.isChain = true) ∧ o.userId = call.userId ∧
    o.operationId = call.request.operationId ∧
    o.requestHash = requestHashOf env.sha256 call.request ∧ o.copyId = some response.copy.id

theorem Outcome.later {call : QuickAddCall} {response : QuickAddResponse} {w w' : QuickAddWorld}
    {ws : List CatalogWrite} (h : w.Later w') (ho : Outcome env call response w ws) :
    Outcome env call response w' ws := by
  rcases ho with ⟨hws, hcreated, o, hop, hhash⟩ | hnew
  · obtain ⟨o', hop', hhash'⟩ := h.operation _ _ o hop
    exact Or.inl ⟨hws, h.created _ _ _ hcreated, o', hop', hhash'.trans hhash⟩
  · exact Or.inr hnew

/-- What `Safe` says of a quick-add transaction. -/
def TxSafe (answers : Provider → Prop) (E : QuickAddFailure → Prop)
    (V : CatalogKey → QuickAddWorld → Prop)
    (Q : QuickAddResponse → QuickAddWorld → List CatalogWrite → Prop) (w : QuickAddWorld)
    (tx : AddTx QuickAddResponse) : Prop :=
  tx.script.Safe catalogSchema QuickAddWorld.db (fun _ _ => Later) (fun _ => answers) E V
    (fun response _ => Q response) tx.locks w tx.writes

/-- A transaction in another call's step. -/
theorem TxSafe.later {w w' : QuickAddWorld} {E : QuickAddFailure → Prop}
    {V : CatalogKey → QuickAddWorld → Prop}
    {Q : QuickAddResponse → QuickAddWorld → List CatalogWrite → Prop}
    {tx : AddTx QuickAddResponse}
    (hQ : ∀ response w w' ws, Later w w' → Q response w ws → Q response w' ws)
    (h : TxSafe answers E V Q w tx) (hw : w.Later w')
    (hfree : catalogSchema.Free tx.writes w'.db) : TxSafe answers E V Q w' tx :=
  h.rely QuickAddWorld.later_chains (fun response _ w w' ws hw _ => hQ response w w' ws hw) hw hfree

/-- The next statement of a transaction. -/
theorem TxSafe.step {w : QuickAddWorld} {E : QuickAddFailure → Prop}
    {V : CatalogKey → QuickAddWorld → Prop}
    {Q : QuickAddResponse → QuickAddWorld → List CatalogWrite → Prop}
    {tx tx' : AddTx QuickAddResponse} {held : LockName → Prop} {pending : CatalogKey → Prop}
    (hrec : w.Recorded) (h : TxSafe answers E V Q w tx) (hfree : catalogSchema.Free tx.writes w.db)
    (hs : tx.Step catalogSchema (fun _ => answers) held pending w.db tx') :
    TxSafe answers E V Q w tx' :=
  Script.Safe.step (.refl hrec) h hfree hs

/-- A statement that a unique index refuses. -/
theorem TxSafe.refused {w : QuickAddWorld} {E : QuickAddFailure → Prop}
    {V : CatalogKey → QuickAddWorld → Prop}
    {Q : QuickAddResponse → QuickAddWorld → List CatalogWrite → Prop}
    {tx : AddTx QuickAddResponse} {pending : CatalogKey → Prop} {key : CatalogKey}
    (hrec : w.Recorded) (h : TxSafe answers E V Q w tx) (hfree : catalogSchema.Free tx.writes w.db)
    (hs : tx.Refused catalogSchema pending w.db key) : V key w :=
  Script.Safe.refused (.refl hrec) h hfree hs

theorem chainOnly_newCopyVisibility (ownerId : UserId) (visibility : Option Visibility) :
    ChainOnly (newCopyVisibility ownerId visibility) := by
  cases visibility with
  | some visibility => trivial
  | none =>
    refine (chainOnly_select _).bind fun owner => ?_
    cases owner <;> trivial

/-- The first outcome: a chain, the copy and the record. -/
theorem firstOutcome_safe (now : Time) (call : QuickAddCall) (prepared : PreparedExternal)
    {ls : List LockName} {w : QuickAddWorld} :
    (firstOutcome env now call.userId call.request prepared).Safe catalogSchema QuickAddWorld.db
      (fun _ _ => Later) (fun _ => answers) (fun _ => True) (fun _ _ => True)
      (fun response _ => Outcome env call response) ls w [] := by
  refine Script.Safe.bind ((chainOnly_editionIdFor env _ _ _).safe.mono ?_)
  rintro editionId ls w ws ⟨chain, rfl, hchain⟩
  refine Script.Safe.bind (Script.Safe.bind ((chainOnly_newCopyVisibility _ _).safe.mono ?_))
  rintro visibility ls w ws ⟨read, rfl, hread⟩
  refine fun id w' _ _ => ⟨fun _ _ _ => trivial, fun _ => ?_⟩
  refine fun w'' _ _ => ⟨fun _ _ _ => trivial, fun _ => ?_⟩
  refine Or.inr ⟨_, read ++ (chain ++ []), rfl, fun x hx => ?_, rfl, rfl, rfl, rfl⟩
  rcases List.mem_append.mp hx with hx | hx
  · exact hread x hx
  · exact hchain x (by simpa using hx)

/-- A repetition: the copy that the operation created. -/
theorem replay_safe (call : QuickAddCall) (earlier : LibraryAddOperation) {ls : List LockName}
    {w : QuickAddWorld} (hrec : w.Recorded)
    (hop : w.db.operation? call.userId call.request.operationId = some earlier) :
    (replay env call.userId call.request earlier).Safe catalogSchema QuickAddWorld.db
      (fun _ _ => Later) (fun _ => answers) (fun _ => True) (fun _ _ => True)
      (fun response _ => Outcome env call response) ls w [] := by
  obtain ⟨c, hcreated, hcopy⟩ := hrec.some _ _ _ hop
  unfold replay
  split
  · trivial
  next hhash =>
    rw [not_not] at hhash
    cases hid : earlier.copyId with
    | none => trivial
    | some copyId =>
      refine Script.Safe.select fun w' hw _ => ?_
      rw [Schema.view_nil]
      cases hfound : (w'.db.copy? copyId).filter fun c => c.ownerId = call.userId with
      | none => trivial
      | some copy =>
        obtain ⟨hsome, -⟩ := Option.filter_eq_some_iff.mp hfound
        have hcid : copy.id = c := by
          have hid' : copy.id = copyId := by simpa using List.find?_some hsome
          exact hid'.trans (hcopy copyId (by rw [hid]; rfl))
        obtain ⟨o', hop', hhash'⟩ := hw.operation _ _ _ hop
        refine Or.inl ⟨rfl, ?_, o', hop', hhash'.trans hhash⟩
        show w'.created _ _ = [copy.id]
        rw [hcid]
        exact hw.created _ _ _ hcreated

/-- **What the transaction guarantees**, whatever the others commit meanwhile. -/
theorem run_safe (now : Time) (call : QuickAddCall) (prepared : PreparedExternal)
    (w : QuickAddWorld) :
    TxSafe answers (fun _ => True) (fun _ _ => True) (Outcome env call) w
      (.start (run env now call.userId call.request prepared)) := by
  show Script.Safe _ _ _ _ _ _ _ (run env now call.userId call.request prepared) [] w []
  refine Script.Safe.acquire fun w' _ _ => Script.Safe.select fun w'' hw _ => ?_
  rw [Schema.view_nil]
  cases hop : w''.db.operation? call.userId call.request.operationId with
  | none => exact firstOutcome_safe now call prepared
  | some earlier => exact replay_safe call earlier hw.recorded hop

/-! ## Runs -/

namespace QuickAdding

variable {s s' : QuickAdding} {op : QuickAddingOp}

/-- The invariant of quick-add. -/
structure Outcomes (env : QuickAddEnv) (answers : Provider → Prop) (s : QuickAdding) : Prop where
  recorded : s.world.Recorded
  txs : ∀ r call attempt prepared tx, s.calls r = some (call, .transacting attempt prepared tx) →
    TxSafe answers (fun _ => True) (fun _ _ => True) (Outcome env call) s.world tx
  answers : ∀ r call response, s.calls r = some (call, .answered (.ok response)) →
    Outcome env call response s.world []
  commits : ∀ c ∈ s.commits, ∃ call response,
    s.calls c.requestId = some (call, .answered (.ok response))

/-- A repeated outcome. -/
theorem outcome_nil {call : QuickAddCall} {response : QuickAddResponse} {w : QuickAddWorld}
    (h : Outcome env call response w []) :
    w.created call.userId call.request.operationId = [response.copy.id] ∧
      ∃ o, w.db.operation? call.userId call.request.operationId = some o ∧
        o.requestHash = requestHashOf env.sha256 call.request := by
  rcases h with ⟨-, h⟩ | ⟨o, chain, hws, -⟩
  · exact h
  · cases hws

/-- What a commit without writes has created. -/
theorem created_nil (s : QuickAdding) (r : RequestId) (call : QuickAddCall)
    (response : QuickAddResponse) (u : UserId) (op : OperationId) :
    (s.afterCommit r call response []).world.created u op = s.world.created u op := by
  refine (createdBy_cons _ _ _ _).trans ?_
  split <;> rfl

/-- The operations after the commit of a first outcome. -/
theorem operation?_first (s : QuickAdding) (r : RequestId) (call : QuickAddCall)
    (response : QuickAddResponse) {o : LibraryAddOperation} {chain : List CatalogWrite}
    (hchain : ∀ x ∈ chain, x.isChain = true) (u : UserId) (op : OperationId) :
    (s.afterCommit r call response
      (.operation o :: .copy response.copy :: chain)).world.db.operation? u op =
        if o.userId = u ∧ o.operationId = op then some o else s.world.db.operation? u op := by
  have hold : (catalogSchema.view s.db (.copy response.copy :: chain)).operation? u op =
      s.db.operation? u op := by
    show List.find? _ (catalogSchema.view s.db chain).operations = _
    rw [(view_chain hchain).1]
    rfl
  refine (operation?_cons o (catalogSchema.view s.db (.copy response.copy :: chain)) u op).trans ?_
  rw [hold]
  rfl

/-- What has been created after the commit of a first outcome. -/
theorem created_first (s : QuickAdding) (r : RequestId) (call : QuickAddCall)
    (response : QuickAddResponse) {o : LibraryAddOperation} {chain : List CatalogWrite}
    (hchain : ∀ x ∈ chain, x.isChain = true) (u : UserId) (op : OperationId) :
    (s.afterCommit r call response
      (.operation o :: .copy response.copy :: chain)).world.created u op =
        if call.userId = u ∧ call.request.operationId = op then
          response.copy.id :: s.world.created u op
        else s.world.created u op := by
  refine (createdBy_cons _ _ _ _).trans ?_
  simp only [List.filterMap_cons, CatalogWrite.copyId?, copyIds_chain hchain]
  rfl

/-- **A commit only adds to what is recorded**, and afterwards the outcome is recorded. -/
theorem later_commit {r : RequestId} {call : QuickAddCall} {response : QuickAddResponse}
    {ws : List CatalogWrite} (hrec : s.world.Recorded)
    (hfree : catalogSchema.Free ws s.db) (ho : Outcome env call response s.world ws) :
    s.world.Later (s.afterCommit r call response ws).world ∧
      Outcome env call response (s.afterCommit r call response ws).world [] := by
  rcases ho with ⟨rfl, hcreated, hop⟩ | ⟨o, chain, rfl, hchain, hu, hoid, hhash, hcopy⟩
  · -- nothing was written
    refine ⟨⟨⟨fun u op h => ?_, fun u op o h => ?_⟩, fun u op c h => ?_,
      fun u op o h => ⟨o, h, rfl⟩⟩, Or.inl ⟨rfl, ?_, hop⟩⟩
    · exact (created_nil ..).trans (hrec.none u op h)
    · rw [created_nil]
      exact hrec.some u op o h
    · exact (created_nil ..).trans h
    · exact (created_nil ..).trans hcreated
  · -- the key of the record was free, so there was no outcome before
    have hnone : s.world.db.operation? call.userId call.request.operationId = none := by
      rw [← hu, ← hoid]
      exact operation?_eq_none (hfree (.operation o.userId o.operationId) List.mem_cons_self)
    have hnil := hrec.none _ _ hnone
    refine ⟨⟨⟨fun u op h => ?_, fun u op o' h => ?_⟩, fun u op c h => ?_, fun u op o' h => ?_⟩,
      Or.inl ⟨rfl, ?_, o, ?_, hhash⟩⟩
    · rw [operation?_first s r call response hchain, hu, hoid] at h
      rw [created_first s r call response hchain]
      split at h
      · cases h
      next hne => exact (if_neg hne).trans (hrec.none u op h)
    · rw [operation?_first s r call response hchain, hu, hoid] at h
      rw [created_first s r call response hchain]
      split at h
      next heq =>
        cases h
        obtain ⟨rfl, rfl⟩ := heq
        refine ⟨response.copy.id, by rw [if_pos ⟨rfl, rfl⟩, hnil], fun c' hc' => ?_⟩
        rw [hcopy] at hc'
        exact (Option.some.inj hc').symm
      next hne =>
        obtain ⟨c, hc, hids⟩ := hrec.some u op o' h
        exact ⟨c, (if_neg hne).trans hc, hids⟩
    · rw [created_first s r call response hchain]
      split
      next heq =>
        obtain ⟨rfl, rfl⟩ := heq
        rw [hnil] at h
        cases h
      · exact h
    · refine ⟨o', ?_, rfl⟩
      rw [operation?_first s r call response hchain, hu, hoid]
      split
      next heq =>
        obtain ⟨rfl, rfl⟩ := heq
        rw [hnone] at h
        cases h
      · exact h
    · rw [created_first s r call response hchain, if_pos ⟨rfl, rfl⟩, hnil]
    · rw [operation?_first s r call response hchain, hu, hoid, if_pos ⟨rfl, rfl⟩]

/-- What other services do only adds to what is recorded. -/
theorem later_elsewhere {db : CatalogDb} (hrec : s.world.Recorded) (h : Elsewhere s.db db) :
    s.world.Later { s with db := db }.world := by
  have hop : ∀ u op, db.operation? u op = (s.db.operation? u op).map fun o =>
      { o with copyId := o.copyId.filter fun c => (db.copy? c).isSome } := by
    intro u op
    unfold CatalogDb.operation?
    rw [h.operations, List.find?_map]
    rfl
  refine ⟨⟨fun u op hnone => ?_, fun u op o' ho' => ?_⟩, fun u op c hc => hc, fun u op o ho => ?_⟩
  · change db.operation? u op = none at hnone
    rw [hop, Option.map_eq_none_iff] at hnone
    exact hrec.none u op hnone
  · change db.operation? u op = some o' at ho'
    rw [hop] at ho'
    obtain ⟨o, ho, rfl⟩ := Option.map_eq_some_iff.mp ho'
    obtain ⟨c, hc, hids⟩ := hrec.some u op o ho
    exact ⟨c, hc, fun c' hc' => hids c' (Option.filter_eq_some_iff.mp hc').1⟩
  · change s.db.operation? u op = some o at ho
    refine ⟨{ o with copyId := o.copyId.filter fun c => (db.copy? c).isSome }, ?_, rfl⟩
    show db.operation? u op = _
    rw [hop, ho]
    rfl

theorem Init.outcomes (h : s.Init) : s.Outcomes env answers := by
  refine ⟨⟨fun u op _ => ?_, fun u op o ho => ?_⟩, fun r call attempt prepared tx hr => ?_,
    fun r call response hr => ?_, fun c hc => ?_⟩
  · show createdBy u op s.commits = []
    rw [h.no_commits]
    rfl
  · change s.db.operations.find? _ = some o at ho
    rw [h.no_operations] at ho
    cases ho
  · rw [h.no_calls] at hr
    cases hr
  · rw [h.no_calls] at hr
    cases hr
  · rw [h.no_commits] at hc
    cases hc

/-- A call moves; its transaction, if it is in one, is sound. -/
theorem Outcomes.move (ho : s.Outcomes env answers) {r : RequestId} {call : QuickAddCall}
    {ph : QuickAddPhase}
    (hold : ∀ call₀ response, s.calls r ≠ some (call₀, .answered (.ok response)))
    (htx : ∀ attempt prepared tx, ph = .transacting attempt prepared tx →
      TxSafe answers (fun _ => True) (fun _ _ => True) (Outcome env call) s.world tx)
    (hanswer : ∀ response, ph ≠ .answered (.ok response)) :
    (s.move r call ph).Outcomes env answers := by
  refine ⟨ho.recorded, fun q call' attempt prepared tx hq => ?_, fun q call' response hq => ?_,
    fun c hc => ?_⟩
  · rw [move_calls] at hq
    split at hq
    · cases hq
      exact htx attempt prepared tx rfl
    · exact ho.txs q call' attempt prepared tx hq
  · rw [move_calls] at hq
    split at hq
    · cases hq
      exact absurd rfl (hanswer response)
    · exact ho.answers q call' response hq
  · obtain ⟨call', response, hq⟩ := ho.commits c hc
    refine ⟨call', response, ?_⟩
    rw [move_calls, if_neg ?_]
    · exact hq
    · rintro rfl
      exact hold call' response hq

/-- The world moves on by the same rows for all. -/
theorem Outcomes.later (ho : s.Outcomes env answers) (hcalls : s'.calls = s.calls)
    (hcommits : s'.commits = s.commits) (hw : s.world.Later s'.world)
    (hfree : ∀ r call ph, s'.calls r = some (call, ph) → catalogSchema.Free ph.writes s'.db) :
    s'.Outcomes env answers := by
  refine ⟨hw.recorded, fun q call attempt prepared tx hq => ?_, fun q call response hq => ?_,
    fun c hc => ?_⟩
  · have hq₀ := hq
    rw [hcalls] at hq₀
    exact TxSafe.later (fun _ _ _ _ h h' => h'.later h) (ho.txs q call attempt prepared tx hq₀) hw
      (hfree q call _ hq)
  · rw [hcalls] at hq
    exact (ho.answers q call response hq).later hw
  · rw [hcommits] at hc
    rw [hcalls]
    exact ho.commits c hc

theorem Outcomes.commit (ho : s.Outcomes env answers) {r : RequestId} {call : QuickAddCall}
    {attempt : Nat} {prepared : PreparedExternal} {response : QuickAddResponse}
    {ls : List LockName} {ws : List CatalogWrite}
    (hr : s.calls r = some (call, .transacting attempt prepared ⟨.done response, ls, ws⟩))
    (hfree : catalogSchema.Free ws s.db) (ha : (s.afterCommit r call response ws).Apart) :
    (s.afterCommit r call response ws).Outcomes env answers := by
  have hout : Outcome env call response s.world ws := ho.txs r call attempt prepared _ hr
  obtain ⟨hw, hdone⟩ := later_commit (r := r) ho.recorded hfree hout
  have hcalls : ∀ q, (s.afterCommit r call response ws).calls q =
      if q = r then some (call, .answered (.ok response)) else s.calls q :=
    fun q => move_calls r q call _
  refine ⟨hw.recorded, fun q call' attempt' prepared' tx hq => ?_, fun q call' response' hq => ?_,
    fun c hc => ?_⟩
  · have hfree' := ha.free q call' _ hq
    rw [hcalls] at hq
    split at hq
    · cases hq
    · exact TxSafe.later (fun _ _ _ _ h h' => h'.later h)
        (ho.txs q call' attempt' prepared' tx hq) hw hfree'
  · rw [hcalls] at hq
    split at hq
    · cases hq
      exact hdone
    · exact (ho.answers q call' response' hq).later hw
  · rcases List.mem_cons.mp hc with rfl | hc
    · exact ⟨call, response, (hcalls r).trans (if_pos rfl)⟩
    · obtain ⟨call', response', hq⟩ := ho.commits c hc
      refine ⟨call', response', ?_⟩
      rw [hcalls, if_neg ?_]
      · exact hq
      · intro heq
        rw [heq, hr] at hq
        cases hq

theorem Outcomes.step (ho : s.Outcomes env answers) (ha : s.Apart)
    (h : Step env answers s op s') : s'.Outcomes env answers := by
  have ha' := ha.step h
  have hother : ∀ {r call ph}, s.calls r = some (call, ph) →
      (∀ response, ph ≠ .answered (.ok response)) →
      ∀ call₀ response, s.calls r ≠ some (call₀, .answered (.ok response)) := by
    intro r call ph hr hne call₀ response hr'
    rw [hr] at hr'
    cases hr'
    exact hne response rfl
  cases h with
  | post hr => exact ho.move (by simp [hr]) (fun _ _ _ h => nomatch h) (by simp)
  | prepare hr _ => exact ho.move (hother hr (by simp)) (fun _ _ _ h => nomatch h) (by simp)
  | @begin r call now prepared hr =>
    refine ho.move (hother hr (by simp)) (fun _ _ _ h => ?_) (by simp)
    cases h
    exact run_safe now call prepared s.world
  | @statement r call attempt prepared tx tx' hr hs =>
    refine ho.move (hother hr (by simp)) (fun _ _ _ h => ?_) (by simp)
    cases h
    exact TxSafe.step ho.recorded (ho.txs r call attempt prepared tx hr) (ha.free r call _ hr) hs
  | @commit r call attempt prepared response ls ws hr =>
    exact ho.commit hr (ha.free r call _ hr) ha'
  | failPreparing hr | fail hr | timeout hr | crashPreparing hr | crash hr =>
    exact ho.move (hother hr (by simp)) (fun _ _ _ h => nomatch h) (by simp)
  | @refuse r call attempt now prepared tx key hr _ =>
    refine ho.move (hother hr (by simp)) (fun attempt' prepared' tx' h => ?_) ?_
    · split at h
      · cases h
        exact run_safe now call prepared s.world
      · cases h
    · intro response
      split <;> simp
  | elsewhere hdb hfree =>
    exact ho.later rfl rfl (later_elsewhere ho.recorded hdb) ha'.free

end QuickAdding

/-- **In every run** an operation is recorded exactly when it created its copy. -/
theorem outcomes {s : QuickAdding} (hr : (quickAdding env answers).Reachable s) :
    s.Outcomes env answers := by
  refine hr.invariant (I := QuickAdding.Outcomes env answers)
    (fun s hi => QuickAdding.Init.outcomes hi) fun s op s' hr ho h => ?_
  exact ho.step (quickAdding_apart hr) h

/-- A step leaves what is recorded. -/
theorem later_step {s s' : QuickAdding} {op : QuickAddingOp}
    (hr : (quickAdding env answers).Reachable s) (h : QuickAdding.Step env answers s op s') :
    s.world.Later s'.world := by
  have ho := outcomes hr
  rcases h.cases with ⟨r, call, ph, rfl, -⟩ |
    ⟨r, call, attempt, prepared, response, ls, ws, hcall, rfl⟩ | ⟨db, rfl, hdb, -⟩
  · exact .refl ho.recorded
  · exact (QuickAdding.later_commit ho.recorded ((quickAdding_apart hr).free r call _ hcall)
      (ho.txs r call attempt prepared _ hcall)).1
  · exact QuickAdding.later_elsewhere ho.recorded hdb

end Bookswap
