import Bookswap.QuickAdd.QuickAddInvariant

/-!
# Quick-adds of one external record

Any number of calls add the same record at once. What a kind of record has to guarantee so that
their copies meet on one edition is stated apart from the kind, and from it what every run keeps.

- `RecordKind`, `RecordKind.Converges`: the edition of a record, its `Home`, is made once and is
  found ever after.
- `RecordKind.run_safe`: a transaction ends on the home of the record.
- `RecordKind.Holds`, `Holds.step`: the runs.
-/

namespace Bookswap

open ReadCommitted

/-! ## What the calls have and what they count -/

/-- The operation of the call is not recorded. -/
def Unrecorded (call : QuickAddCall) (db : CatalogDb) : Prop :=
  db.taken (.operation call.userId call.request.operationId) = false

/-- The key of an identifier that is drawn at random. -/
def CatalogKey.Drawn (key : CatalogKey) : Prop := key.constraint ∉ RACE_CONSTRAINTS

/-- No one else has the reference of an edition without an ISBN that the transaction has
written. -/
def Clear (prepared : PreparedExternal) (ws : List CatalogWrite) (db : CatalogDb) : Prop :=
  ∀ confirmed ∈ prepared.confirmed, ∀ key ∈ confirmed.reference, ∀ e, .edition e ∈ ws →
    e.isbn13 = none → db.taken (.editionReference key) = false

theorem Clear.of_subset {prepared : PreparedExternal} {ws ws' : List CatalogWrite} {db : CatalogDb}
    (h : Clear prepared ws' db) (hws : ws ⊆ ws') : Clear prepared ws db :=
  fun confirmed hc key hk e he => h confirmed hc key hk e (hws he)

def CatalogWrite.isWork : CatalogWrite → Bool
  | .work _ => true
  | _ => false

def CatalogWrite.isEdition : CatalogWrite → Bool
  | .edition _ => true
  | _ => false

def CatalogWrite.isReference : CatalogWrite → Bool
  | .editionReference _ | .workReference _ => true
  | _ => false

/-- At most one chain, and one reference. -/
structure OneChain (ws : List CatalogWrite) : Prop where
  works : ws.countP CatalogWrite.isWork ≤ 1
  editions : ws.countP CatalogWrite.isEdition ≤ 1
  references : ws.countP CatalogWrite.isReference ≤ 1

/-! ## Kinds of records -/

/-- One external record and how quick-add treats its kind. -/
structure RecordKind where
  /-- The target asks for the record, as it is. -/
  Asked : QuickAddTarget → Prop
  /-- What always holds of the catalog. -/
  Inv : CatalogDb → Prop
  /-- The edition of the record. -/
  Home : CatalogDb → EditionId → Prop
  /-- How the catalog changes while a transaction holds the locks. -/
  Later : List LockName → CatalogDb → CatalogDb → Prop
  /-- What is known suffices. -/
  Ready : PreparedExternal → CatalogDb → Prop
  /-- A race for the key is lost. -/
  Raced : CatalogKey → CatalogDb → Prop
  /-- The chain leads to the edition. -/
  Lands : EditionId → List LockName → CatalogDb → List CatalogWrite → Prop
  /-- What has been written so far. -/
  Counted : CatalogDb → List CatalogWrite → Prop

namespace RecordKind

variable (K : RecordKind)

/-- What the others do while a call is under way. -/
structure Rely (call : QuickAddCall) (prepared : PreparedExternal) (ls : List LockName)
    (ws : List CatalogWrite) (db db' : CatalogDb) : Prop where
  inv : K.Inv db'
  later : K.Later ls db db'
  clear : Clear prepared ws db'
  users : db'.users = db.users
  unrecorded : Unrecorded call db'

/-- The key may be refused: it was drawn before, or a race for it is lost the first time. -/
def Refusable (again : Bool) (key : CatalogKey) (db : CatalogDb) : Prop :=
  key.Drawn ∨ again = false ∧ K.Raced key db

/-- What the two scripts of quick-add do for the record. -/
structure Converges (env : QuickAddEnv) (provider : Provider) : Prop where
  later_refl : ∀ {ls db}, K.Inv db → K.Later ls db db
  later_trans : ∀ {ls db db' db''}, K.Later ls db db' → K.Later ls db' db'' → K.Later ls db db''
  home_unique : ∀ {db e e'}, K.Home db e → K.Home db e' → e = e'
  home_later : ∀ {ls db db' e}, K.Later ls db db' → K.Home db e → K.Home db' e
  raced_race : ∀ {key db}, K.Raced key db → key.constraint ∈ RACE_CONSTRAINTS
  raced_home : ∀ {key db}, K.Inv db → K.Raced key db → ∃ e, K.Home db e
  ready_later : ∀ {prepared ls db db'}, K.Later ls db db' → K.Ready prepared db →
    K.Ready prepared db'
  lands_later : ∀ {e ls db db' ws}, K.Later ls db db' → K.Lands e ls db ws → K.Lands e ls db' ws
  prepare_safe : ∀ (isbnFirst : Bool) {call db}, K.Asked call.request.target → K.Inv db →
    (prepare isbnFirst call.userId call.request).Safe catalogSchema id (K.Rely call .nothing)
      (fun _ p => p = provider) (fun _ => False) (fun _ _ => False)
      (fun prepared _ db' _ => K.Ready prepared db') [] db []
  edition_safe : ∀ (again : Bool) {call prepared ls db}, K.Asked call.request.target →
    K.Inv db → K.Ready prepared db → (again = true → ∃ e, K.Home db e) →
    (editionIdFor env call.userId call.request.target prepared).Safe catalogSchema id
      (K.Rely call prepared) (fun _ p => p = provider) (fun _ => False) (K.Refusable again)
      K.Lands ls db []
  commit : ∀ {e ls db chain} (o : LibraryAddOperation) (c : Copy), K.Inv db →
    K.Lands e ls db chain → catalogSchema.Free chain db →
    K.Inv (catalogSchema.view db (.operation o :: .copy c :: chain)) ∧
      K.Home (catalogSchema.view db (.operation o :: .copy c :: chain)) e ∧
      ∀ ls', (∀ n ∈ ls', n ∉ ls) →
        K.Later ls' db (catalogSchema.view db (.operation o :: .copy c :: chain))
  lands_chain : ∀ {e ls db chain}, K.Lands e ls db chain → ∀ x ∈ chain, x.isChain = true
  counted : ∀ {e ls db chain all} (o : LibraryAddOperation) (c : Copy), K.Inv db →
    K.Counted db all → K.Lands e ls db chain → catalogSchema.Free chain db →
    K.Counted (catalogSchema.view db (.operation o :: .copy c :: chain))
      (.operation o :: .copy c :: chain ++ all)
  one_chain : ∀ {db all}, K.Counted db all → OneChain all

/-- How a transaction ends: on the edition of the record, with a copy and the operation. -/
def Ends (call : QuickAddCall) (response : QuickAddResponse) (ls : List LockName)
    (db : CatalogDb) (ws : List CatalogWrite) : Prop :=
  ∃ o chain, ws = .operation o :: .copy response.copy :: chain ∧ o.userId = call.userId ∧
    o.operationId = call.request.operationId ∧ K.Lands response.copy.editionId ls db chain

variable {K} {env : QuickAddEnv} {provider : Provider} {call : QuickAddCall}
  {prepared : PreparedExternal}

theorem rely_chains (hK : K.Converges env provider) : Script.Chains (K.Rely call prepared) :=
  fun _ _ _ _ _ h h' => ⟨h'.inv, hK.later_trans h.later h'.later, h'.clear,
    h'.users.trans h.users, h'.unrecorded⟩

theorem Ends.later (hK : K.Converges env provider) {response : QuickAddResponse}
    {ls : List LockName} {db db' : CatalogDb} {ws : List CatalogWrite} (h : K.Later ls db db')
    (he : K.Ends call response ls db ws) : K.Ends call response ls db' ws := by
  obtain ⟨o, chain, hws, hu, hop, hlands⟩ := he
  exact ⟨o, chain, hws, hu, hop, hK.lands_later h hlands⟩

/-! ## The transaction -/

/-- What `Safe` says of a transaction of the call. -/
def TxSafe (provider : Provider) (K : RecordKind) (call : QuickAddCall)
    (prepared : PreparedExternal) (again : Bool) (db : CatalogDb)
    (tx : AddTx QuickAddResponse) : Prop :=
  tx.script.Safe catalogSchema id (K.Rely call prepared) (fun _ p => p = provider)
    (fun _ => False) (K.Refusable again) (K.Ends call) tx.locks db tx.writes

/-- Quick-add writes no users. -/
theorem view_users (db : CatalogDb) (ws : List CatalogWrite) :
    (catalogSchema.view db ws).users = db.users := by
  induction ws with
  | nil => rfl
  | cons x ws ih =>
    rw [← ih]
    cases x <;> rfl

theorem newCopyVisibility_safe (hK : K.Converges env provider) {again : Bool}
    {e : EditionId} {ls : List LockName} {db : CatalogDb} {ws : List CatalogWrite}
    (visibility : Option Visibility) (huser : (db.user? call.userId).isSome = true)
    (hlands : K.Lands e ls db ws) :
    (newCopyVisibility call.userId visibility).Safe catalogSchema id (K.Rely call prepared)
      (fun _ p => p = provider) (fun _ => False) (K.Refusable again)
      (fun _ ls' db' ws' => ws' = ws ∧ K.Lands e ls' db' ws) ls db ws := by
  cases visibility with
  | some visibility => exact ⟨rfl, hlands⟩
  | none =>
    unfold newCopyVisibility
    refine Script.Safe.select fun db' hR _ => ?_
    have hfound : ((catalogSchema.view db' ws).user? call.userId).isSome = true := by
      unfold CatalogDb.user?
      rw [view_users, hR.users]
      exact huser
    obtain ⟨owner, howner⟩ := Option.isSome_iff_exists.mp hfound
    simp only [id_eq]
    rw [howner]
    exact ⟨rfl, hK.lands_later hR.later hlands⟩

/-- Only the record of an operation has its key. -/
theorem operation_of_key {x : CatalogWrite} {u : UserId} {op : OperationId}
    (h : .operation u op ∈ x.keys) : ∃ o, x = .operation o := by
  cases x with
  | operation o => exact ⟨o, rfl⟩
  | edition e => cases hisbn : e.isbn13 <;> simp [CatalogWrite.keys, hisbn] at h
  | _ => simp [CatalogWrite.keys] at h

/-- The operation of the call is not among the rows of a chain. -/
theorem operation_free {db : CatalogDb} {c : Copy} {chain : List CatalogWrite}
    (hchain : ∀ x ∈ chain, x.isChain = true) (h : Unrecorded call db) :
    catalogSchema.taken (catalogSchema.view db (.copy c :: chain))
      (.operation call.userId call.request.operationId) = false := by
  refine Bool.eq_false_iff.mpr fun htaken => ?_
  rcases catalogSchema.taken_view.mp htaken with hkey | hdb
  · obtain ⟨x, hx, hkey⟩ := List.mem_flatMap.mp hkey
    obtain ⟨o, rfl⟩ := operation_of_key hkey
    rcases List.mem_cons.mp hx with hx | hx
    · cases hx
    · cases hchain _ hx
  · have hdb' : db.taken (.operation call.userId call.request.operationId) = true := hdb
    rw [h] at hdb'
    cases hdb'

/-- **A transaction of a direct quick-add ends on the home of the record.** -/
theorem run_safe (hK : K.Converges env provider) (now : Time) (again : Bool) {db : CatalogDb}
    (hasked : K.Asked call.request.target) (hready : K.Ready prepared db)
    (huser : (db.user? call.userId).isSome = true)
    (hagain : again = true → ∃ e, K.Home db e) :
    TxSafe provider K call prepared again db
      (.start (run env now call.userId call.request prepared)) := by
  show Script.Safe _ _ _ _ _ _ _ (run env now call.userId call.request prepared) [] db []
  unfold run
  refine Script.Safe.acquire fun db₁ h₁ _ => Script.Safe.select fun db₂ h₂ _ => ?_
  have hnone : db₂.operation? call.userId call.request.operationId = none := by
    refine List.find?_eq_none.mpr fun o ho => ?_
    have := List.any_eq_false.mp h₂.unrecorded o ho
    simpa using this
  simp only [Schema.view_nil, id_eq]
  rw [hnone]
  have hkept : ∀ ls ws (db db' : CatalogDb), K.Rely call prepared ls ws db db' →
      (db.user? call.userId).isSome = true → (db'.user? call.userId).isSome = true := by
    intro ls ws db db' hR h
    unfold CatalogDb.user?
    rw [hR.users]
    exact h
  have huser₂ := hkept _ _ _ _ h₂ (hkept _ _ _ _ h₁ huser)
  have hready₂ : K.Ready prepared db₂ := hK.ready_later h₂.later (hK.ready_later h₁.later hready)
  have hagain₂ : again = true → ∃ e, K.Home db₂ e := fun h => by
    obtain ⟨e, he⟩ := hagain h
    exact ⟨e, hK.home_later h₂.later (hK.home_later h₁.later he)⟩
  show Script.Safe _ _ _ _ _ _ _ (firstOutcome env now call.userId call.request prepared) _ _ _
  refine Script.Safe.bind (((hK.edition_safe again hasked h₂.inv hready₂ hagain₂).frame hkept
    huser₂).mono ?_)
  rintro editionId ls db₃ chain ⟨hlands, huser₃⟩
  refine Script.Safe.bind (Script.Safe.bind
    ((newCopyVisibility_safe hK _ huser₃ hlands).mono ?_))
  rintro visibility ls db₄ ws ⟨rfl, hlands₄⟩
  -- the copy
  refine fun id db₅ h₅ _ => ⟨fun key hkey _ => ?_, fun _ => ?_⟩
  · rw [List.mem_singleton.mp hkey]
    exact Or.inl (by simp [CatalogKey.Drawn, CatalogKey.constraint, RACE_CONSTRAINTS])
  -- the record of the operation
  have hlands₅ := hK.lands_later h₅.later hlands₄
  refine fun db₆ h₆ _ => ⟨fun key hkey htaken => ?_, fun _ => ?_⟩
  · rw [List.mem_singleton.mp hkey] at htaken
    refine absurd htaken (Bool.eq_false_iff.mp ?_)
    exact operation_free (hK.lands_chain hlands₅) h₆.unrecorded
  · exact ⟨_, _, rfl, rfl, rfl, hK.lands_later h₆.later hlands₅⟩

end RecordKind

/-! ## Runs -/

namespace QuickAdding

/-- The identifiers that the transactions have drawn are new. -/
def FreshIds (s : QuickAdding) : Prop :=
  ∀ r call attempt prepared x k ls ws,
    s.calls r = some (call, .transacting attempt prepared ⟨.write x k, ls, ws⟩) →
    ∀ key ∈ x.keys, key.Drawn →
      ¬ s.Pending r key ∧ catalogSchema.taken (catalogSchema.view s.db ws) key = false

/-- The transaction has made an edition for a record without an ISBN, and by now another one has
the reference of the record. -/
def Overtaken (s : QuickAdding) (r : RequestId) : Prop :=
  ∃ call attempt prepared tx, s.calls r = some (call, .transacting attempt prepared tx) ∧
    ∃ confirmed ∈ prepared.confirmed, ∃ key ∈ confirmed.reference, ∃ e, .edition e ∈ tx.writes ∧
      e.isbn13 = none ∧ s.db.taken (.editionReference key) = true

/-- A step of concurrent quick-adds of one record: only they run, each with an operation of its
own, none is cut off, and none is overtaken. -/
structure Direct (Asked : QuickAddTarget → Prop) (s : QuickAdding) (op : QuickAddingOp)
    (s' : QuickAdding) : Prop where
  post : ∀ r call isbnFirst, op = .post r call isbnFirst → Asked call.request.target ∧
    (s.db.user? call.userId).isSome = true ∧ Unrecorded call s.db ∧
    ∀ q call' ph, s.calls q = some (call', ph) →
      ¬ (call'.userId = call.userId ∧ call'.request.operationId = call.request.operationId)
  timeout : ∀ r, op ≠ .timeout r
  elsewhere : ∀ db, op ≠ .elsewhere db
  fresh : s'.FreshIds
  clear : ∀ r, ¬ s'.Overtaken r

/-- What the calls have written so far. -/
def written (s : QuickAdding) : List CatalogWrite := s.commits.flatMap QuickAddCommit.writes

theorem clear_of_not_overtaken {s : QuickAdding} (h : ∀ r, ¬ s.Overtaken r) {r : RequestId}
    {call : QuickAddCall} {attempt : Nat} {prepared : PreparedExternal}
    {tx : AddTx QuickAddResponse}
    (hr : s.calls r = some (call, .transacting attempt prepared tx)) :
    Clear prepared tx.writes s.db := by
  intro confirmed hc key hk e he hisbn
  refine Bool.eq_false_iff.mpr fun htaken => ?_
  exact h r ⟨call, attempt, prepared, tx, hr, confirmed, hc, key, hk, e, he, hisbn, htaken⟩

end QuickAdding

namespace RecordKind

variable {K : RecordKind} {env : QuickAddEnv} {provider : Provider} {s s' : QuickAdding}
  {op : QuickAddingOp}

/-- What holds of a call in each phase. -/
def PhaseOk (provider : Provider) (K : RecordKind) (db : CatalogDb) (call : QuickAddCall) :
    QuickAddPhase → Prop
  | .preparing p => Unrecorded call db ∧
    p.Safe catalogSchema id (K.Rely call .nothing) (fun _ p => p = provider) (fun _ => False)
      (fun _ _ => False) (fun prepared _ db' _ => K.Ready prepared db') [] db []
  | .transacting attempt prepared tx => Unrecorded call db ∧ K.Ready prepared db ∧
    ∃ again, TxSafe provider K call prepared again db tx ∧
      ((again = false ∧ attempt = 1) ∨ again = true)
  | .answered (.ok response) => K.Home db response.copy.editionId
  | .answered (.error _) => False
  | .lost => True

/-- The invariant of concurrent quick-adds of one record. -/
structure Holds (provider : Provider) (K : RecordKind) (s : QuickAdding) : Prop where
  inv : K.Inv s.db
  counted : K.Counted s.db s.written
  asked : ∀ r call ph, s.calls r = some (call, ph) →
    K.Asked call.request.target ∧ (s.db.user? call.userId).isSome = true
  phases : ∀ r call ph, s.calls r = some (call, ph) → PhaseOk provider K s.db call ph
  distinct : ∀ r q call ph call' ph', s.calls r = some (call, ph) →
    s.calls q = some (call', ph') → r ≠ q →
    ¬ (call.userId = call'.userId ∧ call.request.operationId = call'.request.operationId)
  fresh : s.FreshIds
  clear : ∀ r, ¬ s.Overtaken r

/-- A call moves, and nothing else. -/
theorem Holds.move (h : K.Holds provider s) {r : RequestId} {call : QuickAddCall}
    {ph ph' : QuickAddPhase} (hr : s.calls r = some (call, ph))
    (hok : PhaseOk provider K s.db call ph') (hd : s.Direct K.Asked op (s.move r call ph')) :
    K.Holds provider (s.move r call ph') := by
  refine ⟨h.inv, h.counted, fun q call' ph₁ hq => ?_, fun q call' ph₁ hq => ?_,
    fun p q call₁ ph₁ call₂ ph₂ hp hq hne => ?_, hd.fresh, hd.clear⟩
  · rw [QuickAdding.move_calls] at hq
    split at hq
    · cases hq
      exact h.asked r call ph hr
    · exact h.asked q call' ph₁ hq
  · rw [QuickAdding.move_calls] at hq
    split at hq
    · cases hq
      exact hok
    · exact h.phases q call' ph₁ hq
  · rw [QuickAdding.move_calls] at hp hq
    split at hp <;> split at hq
    next h₁ h₂ => exact absurd (h₁.trans h₂.symm) hne
    next h₁ h₂ =>
      cases hp
      exact h.distinct r q _ _ _ _ hr hq (h₁ ▸ hne)
    next h₁ h₂ =>
      cases hq
      exact h.distinct p r _ _ _ _ hp hr (h₂ ▸ hne)
    · exact h.distinct p q _ _ _ _ hp hq hne

/-- What the others do leaves a call as it should be. -/
theorem PhaseOk.rely (hK : K.Converges env provider) {db db' : CatalogDb} {call : QuickAddCall}
    {ph : QuickAddPhase}
    (hR : Unrecorded call db → (∀ response, ph ≠ .answered (.ok response)) →
      ∀ prepared, Clear prepared ph.writes db' → K.Rely call prepared ph.locks ph.writes db db')
    (hclear : ∀ attempt prepared tx, ph = .transacting attempt prepared tx →
      Clear prepared tx.writes db')
    (hlater : K.Later [] db db') (hfree : catalogSchema.Free ph.writes db')
    (h : PhaseOk provider K db call ph) : PhaseOk provider K db' call ph := by
  cases ph with
  | preparing p =>
    obtain ⟨hun, hsafe⟩ := h
    have hrely := hR hun (by simp) .nothing fun confirmed hc => nomatch hc
    refine ⟨hrely.unrecorded, Script.Safe.rely (rely_chains hK) ?_ hsafe hrely ?_⟩
    · exact fun _ _ _ _ _ h _ => hK.ready_later h.later
    · exact hfree
  | transacting attempt prepared tx =>
    obtain ⟨hun, hready, again, hsafe, hattempt⟩ := h
    have hrely := hR hun (by simp) prepared (hclear attempt prepared tx rfl)
    refine ⟨hrely.unrecorded, hK.ready_later hrely.later hready, again, ?_, hattempt⟩
    unfold TxSafe at hsafe ⊢
    refine Script.Safe.rely (rely_chains hK) ?_ hsafe hrely ?_
    · exact fun _ _ _ _ _ h _ => Ends.later hK h.later
    · exact hfree
  | answered answer =>
    cases answer with
    | error e => exact h
    | ok response => exact hK.home_later hlater h
  | lost => trivial

/-- **A commit**: the home of the record is there, and the others go on. -/
theorem Holds.commit (hK : K.Converges env provider) (h : K.Holds provider s) (ha : s.Apart)
    {r : RequestId} {call : QuickAddCall} {attempt : Nat} {prepared : PreparedExternal}
    {response : QuickAddResponse} {ls : List LockName} {ws : List CatalogWrite}
    (hr : s.calls r = some (call, .transacting attempt prepared ⟨.done response, ls, ws⟩))
    (hd : s.Direct K.Asked op (s.afterCommit r call response ws))
    (ha' : (s.afterCommit r call response ws).Apart) :
    K.Holds provider (s.afterCommit r call response ws) := by
  obtain ⟨-, -, again, hsafe, -⟩ := h.phases r call _ hr
  obtain ⟨o, chain, rfl, hu, hop, hlands⟩ : K.Ends call response ls s.db ws := hsafe
  have hfree : catalogSchema.Free chain s.db := (ha.free r call _ hr).tail.tail
  obtain ⟨hinv, hhome, hlater⟩ := hK.commit o response.copy h.inv hlands hfree
  have hcalls : ∀ q, (s.afterCommit r call response
      (.operation o :: .copy response.copy :: chain)).calls q =
        if q = r then some (call, .answered (.ok response)) else s.calls q :=
    fun q => QuickAdding.move_calls r q call _
  have husers : (catalogSchema.view s.db (.operation o :: .copy response.copy :: chain)).users =
      s.db.users := view_users _ _
  refine ⟨hinv, hK.counted o response.copy h.inv h.counted hlands hfree, fun q call' ph hq => ?_,
    fun q call' ph hq => ?_, fun p q call₁ ph₁ call₂ ph₂ hp hq hne => ?_, hd.fresh, hd.clear⟩
  · have hasked : ∀ {call' : QuickAddCall}, K.Asked call'.request.target ∧
        (s.db.user? call'.userId).isSome = true → K.Asked call'.request.target ∧
          ((catalogSchema.view s.db (.operation o :: .copy response.copy :: chain)).user?
            call'.userId).isSome = true := by
      intro call' h
      refine ⟨h.1, ?_⟩
      unfold CatalogDb.user?
      rw [husers]
      exact h.2
    rw [hcalls] at hq
    split at hq
    · cases hq
      exact hasked (h.asked r call _ hr)
    · exact hasked (h.asked q call' ph hq)
  · have hq' := hq
    rw [hcalls] at hq
    split at hq
    · cases hq
      exact hhome
    next hne =>
      have hfree' := ha'.free q call' ph hq'
      refine PhaseOk.rely hK (fun hun hanswered prepared hclear => ?_)
        (fun attempt prepared tx hph => ?_) (hlater [] (fun n hn => nomatch hn)) hfree'
        (h.phases q call' ph hq)
      · refine ⟨hinv, hlater ph.locks fun n hn hn' => ?_, hclear, husers, ?_⟩
        · exact ha.locks q call' ph hq n hn ⟨r, call, _, fun h => hne h.symm, hr, hn'⟩
        · -- the operation of another call was recorded
          refine Bool.eq_false_iff.mpr fun htaken => ?_
          have htaken' : catalogSchema.taken (catalogSchema.view s.db
            (.operation o :: .copy response.copy :: chain))
              (.operation call'.userId call'.request.operationId) = true := htaken
          rcases catalogSchema.taken_view.mp htaken' with hkey | hdb
          · obtain ⟨x, hx, hkey⟩ := List.mem_flatMap.mp hkey
            obtain ⟨o', rfl⟩ := operation_of_key hkey
            rcases List.mem_cons.mp hx with hx | hx
            · cases hx
              have hown := List.mem_singleton.mp hkey
              injection hown with h₁ h₂
              exact h.distinct r q call _ call' ph hr hq (fun h => hne h.symm)
                ⟨hu.symm.trans h₁.symm, hop.symm.trans h₂.symm⟩
            · rcases List.mem_cons.mp hx with hx | hx
              · cases hx
              · cases hK.lands_chain hlands _ hx
          · have hdb' : s.db.taken (.operation call'.userId call'.request.operationId) = true := hdb
            rw [hun] at hdb'
            cases hdb'
      · subst hph
        exact QuickAdding.clear_of_not_overtaken hd.clear hq'
  · rw [hcalls] at hp hq
    split at hp <;> split at hq
    next h₁ h₂ => exact absurd (h₁.trans h₂.symm) hne
    next h₁ h₂ =>
      cases hp
      exact h.distinct r q _ _ _ _ hr hq (h₁ ▸ hne)
    next h₁ h₂ =>
      cases hq
      exact h.distinct p r _ _ _ _ hp hr (h₂ ▸ hne)
    · exact h.distinct p q _ _ _ _ hp hq hne

end RecordKind

end Bookswap
