import Bookswap.Import.ImportContract
import Bookswap.Guarantees.NewWorkChoice

/-!
# The life of an import

- `CommitEffect`: what a commit of the database does to the imports that are committed.
- `ImportLifecycle`, `import_lifecycle`: one import for a file, rows for drafts only, one commit of
  each import with the copies that it counts, and nothing after it.
-/

namespace Bookswap

open ReadCommitted

/-- The state of the service. -/
abbrev Importing :=
  Serving ImportDb ImportWrite ImportLock Nat Unit ImportOutside ImportFailure ImportStage

/-- The write commits the import. -/
def ImportWrite.commits (id : ImportId) : ImportWrite → Bool
  | .setCommitted id' _ _ => id' = id
  | _ => false

/-- The `Copy` row of a write. -/
def ImportWrite.copy? : ImportWrite → Option Copy
  | .catalog (.copy c) => some c
  | _ => none

/-- The transactions that committed the import. -/
def commitsOf (id : ImportId) (log : List (Nat × List ImportWrite)) : List (Nat × List ImportWrite) :=
  log.filter fun e => e.2.any (ImportWrite.commits id)

/-- The copies that they created. -/
def copiesOf (id : ImportId) (log : List (Nat × List ImportWrite)) : List Copy :=
  (commitsOf id log).flatMap fun e => e.2.filterMap ImportWrite.copy?

section Effect

variable {env : ImportEnv} {request : Nat → ImportRequest env} {r : Nat} {next : ImportStage}
  {ls : List ImportLock} {db : ImportDb} {ws : List ImportWrite}

/-- What a transaction does to the imports that are committed: nothing, or it commits one draft. -/
inductive CommitEffect (db db' : ImportDb) (ws : List ImportWrite) : Prop
  | none : (∀ i ∈ db'.imports, i.status = .committed → i ∈ db.imports) →
      (∀ id, ws.any (ImportWrite.commits id) = false) → ws.filterMap ImportWrite.copy? = [] →
      CommitEffect db db' ws
  | one {i i' : LibraryImport} : i ∈ db.imports → i.status = .draft → i'.id = i.id →
      i'.status = .committed → i' ∈ db'.imports →
      i'.createdCopyCount = some (ws.filterMap ImportWrite.copy?).length →
      (∀ j ∈ db'.imports, j.status = .committed → j = i' ∨ j ∈ db.imports) →
      (∀ id, ws.any (ImportWrite.commits id) = decide (i.id = id)) → CommitEffect db db' ws

/-- An import that is not expired was so before the expiry. -/
theorem Expiry.mem_of_live (h : Expiry ls db ws) {i : LibraryImport}
    (hi : i ∈ (importSchema.view db ws).imports) (hlive : i.status ≠ .expired) :
    i ∈ db.imports := by
  cases h with
  | nothing => exact hi
  | @overdue ownerId now ids hids =>
    rw [(view_overdue db ownerId now ids).1] at hi
    obtain ⟨j, hj, rfl⟩ := List.mem_map.mp hi
    unfold ImportWrite.onImport at hlive ⊢
    dsimp only at hlive ⊢
    split at hlive
    · exact absurd rfl hlive
    · next hne =>
      rw [if_neg hne]
      exact hj

theorem Expiry.quiet (h : Expiry ls db ws) :
    (∀ id, ws.any (ImportWrite.commits id) = false) ∧ ws.filterMap ImportWrite.copy? = [] := by
  cases h <;> exact ⟨fun _ => rfl, rfl⟩

/-- The rows of a commit: its copies, and no other import. -/
theorem importWrites_effect (drafts : List ChainDraft) (copies : List (List Copy)) :
    (∀ id, (importWrites drafts copies).any (ImportWrite.commits id) = false) ∧
      (importWrites drafts copies).filterMap ImportWrite.copy? = copies.flatten := by
  have hchain : ∀ x ∈ chainWrites drafts, (ImportWrite.catalog x).copy? = .none := by
    intro x hx
    simp only [chainWrites, List.mem_append, List.mem_map] at hx
    rcases hx with (((⟨_, -, rfl⟩ | ⟨_, -, rfl⟩) | ⟨_, -, rfl⟩) | ⟨_, -, rfl⟩) | ⟨_, -, rfl⟩ <;> rfl
  refine ⟨fun id => ?_, ?_⟩
  · rw [List.any_eq_false]
    intro x hx
    obtain ⟨y, -, rfl⟩ := List.mem_map.mp hx
    exact Bool.false_ne_true
  · rw [importWrites, List.map_append, List.filterMap_append, List.filterMap_map,
      List.filterMap_map, List.filterMap_map]
    have hnone : (chainWrites drafts).filterMap (ImportWrite.copy? ∘ ImportWrite.catalog) = [] :=
      List.filterMap_eq_nil_iff.mpr hchain
    rw [hnone, List.nil_append]
    exact List.filterMap_some

/-- **What a commit does to the committed imports.** -/
theorem ImportPost.commitEffect (hdb : StoredDrafts env db)
    (h : ImportPost env request r next ls db ws) :
    CommitEffect db (importSchema.view db ws) ws := by
  obtain ⟨ws₁, ws₂, rfl, hexpiry, hchange⟩ := h
  obtain ⟨hquiet, hnocopy⟩ := hexpiry.quiet
  have hlive : ∀ i ∈ (importSchema.view db ws₁).imports, i.status = .committed → i ∈ db.imports :=
    fun i hi hc => hexpiry.mem_of_live hi (by rw [hc]; nofun)
  have hdb₁ := hexpiry.stored hdb
  rw [Schema.view_append]
  generalize hview : importSchema.view db ws₁ = db₁ at hlive hchange hdb₁
  cases hchange with
  | nothing => exact .none hlive hquiet hnocopy
  | @created input id =>
    refine .none (fun i hi hc => ?_) hquiet hnocopy
    have hmem : i ∈ input.draft id :: db₁.imports := by
      rwa [← ImportWrite.imports_apply_insertRows _ id input.rows]
    rcases List.mem_cons.mp hmem with rfl | hmem
    · cases hc
    · exact hlive i hmem hc
  | @revived input i _ n m t =>
    refine .none (fun j hj hc => ?_) hquiet hnocopy
    rw [view_revived] at hj
    obtain ⟨k, hk, rfl⟩ := List.mem_map.mp hj
    unfold ImportWrite.onImport at hc ⊢
    dsimp only at hc ⊢
    split at hc
    · cases hc
    · next hne =>
      rw [if_neg hne]
      exact hlive k hk hc
  | @updated i rows _ =>
    refine .none (fun j hj hc => ?_) hquiet hnocopy
    rw [view_updated] at hj
    obtain ⟨k, hk, rfl⟩ := List.mem_map.mp hj
    exact hlive k hk hc
  | @committed i now drafts copies hcommitting hnext hi hlock hstatus =>
    obtain ⟨hany, hcopies⟩ := importWrites_effect drafts copies
    have hcount : (((.setCommitted i.id now copies.flatten.length : ImportWrite) ::
        .deleteRows [i.id] :: (importWrites drafts copies).reverse ++ ws₁).filterMap
          ImportWrite.copy?) = copies.flatten.reverse := by
      rw [List.filterMap_append, hnocopy, List.append_nil, List.filterMap_cons_none rfl,
        List.filterMap_cons_none rfl, List.filterMap_reverse, hcopies]
    refine @CommitEffect.one _ _ _ i
      ((ImportWrite.setCommitted i.id now copies.flatten.length).onImport i) (hexpiry.mem_of_live (hview ▸ hi)
        (by rw [hstatus]; nofun)) hstatus (by simp) (by simp [ImportWrite.onImport]) ?_ ?_ (fun j hj hc => ?_) fun id => ?_
    · rw [view_committed]
      exact List.mem_map_of_mem hi
    · rw [hcount, List.length_reverse]
      simp [ImportWrite.onImport]
    · rw [view_committed] at hj
      obtain ⟨k, hk, rfl⟩ := List.mem_map.mp hj
      by_cases hid : k.id = i.id
      · rw [hdb₁.import_ext hk hi hid]
        exact .inl rfl
      · have hsame : (ImportWrite.setCommitted i.id now copies.flatten.length).onImport k = k :=
          if_neg hid
        rw [hsame] at hc ⊢
        exact .inr (hlive k hk hc)
    · rw [List.any_append, hquiet, Bool.or_false, List.any_cons, List.any_cons, List.any_reverse,
        hany]
      simp [ImportWrite.commits]

end Effect

/-! ## In every run -/

section Runs

variable {env : ImportEnv} {request : Nat → ImportRequest env} {w w' : Importing}
  {op : ServiceOp ImportDb ImportKey ImportStage}

/-- What is committed, and what the log says of it. -/
structure CommittedOnce (w : Importing) : Prop where
  once : ∀ id, (commitsOf id w.log).length ≤ 1
  counted : ∀ i ∈ w.db.imports, i.status = .committed →
    i.createdCopyCount = some (copiesOf i.id w.log).length
  recorded : ∀ id, commitsOf id w.log ≠ [] →
    ∃ i ∈ w.db.imports, i.id = id ∧ i.status = .committed
  accounted : ∀ e ∈ w.log, e.2.filterMap ImportWrite.copy? ≠ [] →
    ∃ i ∈ w.db.imports, i.status = .committed ∧ e ∈ commitsOf i.id w.log

/-- A step of the service either leaves the imports and the log, or commits a transaction. -/
theorem importing_cases (hw : (libraryImport env request).machine.Reachable w)
    (h : (libraryImport env request).machine.step w op w') :
    (w'.db.imports = w.db.imports ∧ w'.db.rows = w.db.rows ∧ w'.log = w.log) ∨
    ∃ r stage next ls ws, op = .commit r ∧
      w.calls r = some (.inside stage ⟨.done next, ls, ws⟩) ∧
      w' = w.afterCommit importSchema r next ws ∧ importSchema.Free ws w.db ∧
      ImportPost env request r next ls w.db ws := by
  cases h with
  | post | begin | statement | fail | refuse | abort => exact .inl ⟨rfl, rfl, rfl⟩
  | @commit r stage next ls ws hr =>
    exact .inr ⟨r, stage, next, ls, ws, rfl, hr, rfl, (Service.apart hw).free r _ hr,
      ((libraryImport_kept hw).post hr).2⟩
  | elsewhere hdb => exact .inl ⟨hdb.imports, hdb.rows, rfl⟩

theorem commitsOf_cons_none {id : ImportId} {r : Nat} {ws : List ImportWrite}
    {log : List (Nat × List ImportWrite)} (h : ws.any (ImportWrite.commits id) = false) :
    commitsOf id ((r, ws) :: log) = commitsOf id log :=
  List.filter_cons_of_neg (by rw [h]; exact Bool.false_ne_true)

theorem commitsOf_cons_some {id : ImportId} {r : Nat} {ws : List ImportWrite}
    {log : List (Nat × List ImportWrite)} (h : ws.any (ImportWrite.commits id) = true) :
    commitsOf id ((r, ws) :: log) = (r, ws) :: commitsOf id log :=
  List.filter_cons_of_pos h

/-- A commit of the database keeps the log and the committed imports in step. -/
theorem CommittedOnce.afterCommit (hdb : StoredDrafts env w.db) (hc : CommittedOnce w) {r : Nat}
    {next : ImportStage} {ws : List ImportWrite}
    (hkept : ∀ i ∈ w.db.imports, i.status = .committed → i ∈ (importSchema.view w.db ws).imports)
    (h : CommitEffect w.db (importSchema.view w.db ws) ws) :
    CommittedOnce (w.afterCommit importSchema r next ws) := by
  cases h with
  | none hold hquiet hnocopy =>
    have hsame : ∀ id, commitsOf id ((r, ws) :: w.log) = commitsOf id w.log := fun id =>
      commitsOf_cons_none (hquiet id)
    refine ⟨fun id => ?_, fun i hi hstatus => ?_, fun id hne => ?_, fun e he hcopies => ?_⟩
    · show (commitsOf id ((r, ws) :: w.log)).length ≤ 1
      rw [hsame]
      exact hc.once id
    · show i.createdCopyCount = some ((commitsOf i.id ((r, ws) :: w.log)).flatMap _).length
      rw [hsame]
      exact hc.counted i (hold i hi hstatus) hstatus
    · change commitsOf id ((r, ws) :: w.log) ≠ [] at hne
      rw [hsame] at hne
      obtain ⟨i, hi, hid, hstatus⟩ := hc.recorded id hne
      exact ⟨i, hkept i hi hstatus, hid, hstatus⟩
    · rcases List.mem_cons.mp he with rfl | he
      · exact absurd hnocopy hcopies
      · obtain ⟨i, hi, hstatus, hmem⟩ := hc.accounted e he hcopies
        refine ⟨i, hkept i hi hstatus, hstatus, ?_⟩
        show e ∈ commitsOf i.id ((r, ws) :: w.log)
        rwa [hsame]
  | @one i i' hi hdraft hid hstatus hi' hcount hold hany =>
    -- the draft was committed by nobody
    have hfresh : commitsOf i.id w.log = [] := by
      by_contra hne
      obtain ⟨j, hj, hjid, hjstatus⟩ := hc.recorded i.id hne
      rw [hdb.import_ext hj hi hjid, hdraft] at hjstatus
      cases hjstatus
    have hown : commitsOf i.id ((r, ws) :: w.log) = [(r, ws)] := by
      have hpos : ws.any (ImportWrite.commits i.id) = true := by rw [hany, decide_eq_true rfl]
      rw [commitsOf_cons_some hpos, hfresh]
    have hother : ∀ id, id ≠ i.id → commitsOf id ((r, ws) :: w.log) = commitsOf id w.log := by
      intro id hne
      refine commitsOf_cons_none ?_
      rw [hany, decide_eq_false fun h => hne h.symm]
    have hkeptid : ∀ j ∈ w.db.imports, j.status = .committed → j.id ≠ i.id := by
      intro j hj hjstatus hjid
      rw [hdb.import_ext hj hi hjid, hdraft] at hjstatus
      cases hjstatus
    refine ⟨fun id => ?_, fun j hj hjstatus => ?_, fun id hne => ?_, fun e he hcopies => ?_⟩
    · show (commitsOf id ((r, ws) :: w.log)).length ≤ 1
      by_cases h : id = i.id
      · rw [h, hown]
        exact Nat.le_refl 1
      · rw [hother id h]
        exact hc.once id
    · show j.createdCopyCount = some ((commitsOf j.id ((r, ws) :: w.log)).flatMap _).length
      rcases hold j hj hjstatus with rfl | hj
      · rw [hid, hown, List.flatMap_singleton]
        exact hcount
      · rw [hother j.id (hkeptid j hj hjstatus)]
        exact hc.counted j hj hjstatus
    · by_cases h : id = i.id
      · exact ⟨i', hi', hid.trans h.symm, hstatus⟩
      · change commitsOf id ((r, ws) :: w.log) ≠ [] at hne
        rw [hother id h] at hne
        obtain ⟨j, hj, hjid, hjstatus⟩ := hc.recorded id hne
        exact ⟨j, hkept j hj hjstatus, hjid, hjstatus⟩
    · rcases List.mem_cons.mp he with rfl | he
      · refine ⟨i', hi', hstatus, ?_⟩
        show _ ∈ commitsOf i'.id ((r, ws) :: w.log)
        rw [hid, hown]
        exact List.mem_singleton_self _
      · obtain ⟨j, hj, hjstatus, hmem⟩ := hc.accounted e he hcopies
        refine ⟨j, hkept j hj hjstatus, hjstatus, ?_⟩
        show e ∈ commitsOf j.id ((r, ws) :: w.log)
        rwa [hother j.id (hkeptid j hj hjstatus)]

theorem committed_stays_step (hw : (libraryImport env request).machine.Reachable w)
    {i : LibraryImport} (hi : i ∈ w.db.imports) (hc : i.status = .committed)
    (h : (libraryImport env request).machine.step w op w') : i ∈ w'.db.imports := by
  rcases importing_cases hw h with ⟨hsame, -, -⟩ | ⟨r, stage, next, ls, ws, -, -, rfl, hfree, hpost⟩
  · rwa [hsame]
  · exact ((hpost.effect (libraryImport_kept hw).inv hfree).2 [] nofun).committed i hi hc

theorem committedOnce (hw : (libraryImport env request).machine.Reachable w) :
    CommittedOnce w := by
  refine hw.invariant (I := CommittedOnce) (fun w hi => ?_) fun w op w' hw hc h => ?_
  · obtain ⟨himports, -⟩ : w.db.imports = [] ∧ _ := hi.db
    refine ⟨fun id => ?_, fun i h => ?_, fun id h => ?_, fun e h => ?_⟩ <;>
      simp only [himports, hi.no_log, commitsOf] at *
    · exact Nat.zero_le 1
    · cases h
    · exact absurd rfl h
    · cases h
  · rcases importing_cases hw h with ⟨hsame, -, hlog⟩ |
      ⟨r, stage, next, ls, ws, -, -, rfl, hfree, hpost⟩
    · refine ⟨?_, ?_, ?_, ?_⟩ <;> rw [hlog]
      · exact hc.once
      · rw [hsame]
        exact hc.counted
      · rw [hsame]
        exact hc.recorded
      · rw [hsame]
        exact hc.accounted
    · have hdb := (libraryImport_kept hw).inv
      exact hc.afterCommit hdb (((hpost.effect hdb hfree).2 [] nofun).committed)
        (hpost.commitEffect hdb)

/-! ### A later commit -/

/-- An import that is committed stays among the imports. -/
theorem committed_stays (hw : (libraryImport env request).machine.Reachable w) {i : LibraryImport}
    (hi : i ∈ w.db.imports) (hc : i.status = .committed)
    (hlead : (libraryImport env request).machine.Leads w w') : i ∈ w'.db.imports :=
  hlead.keeps (P := fun w => i ∈ w.db.imports)
    (fun _ _ _ hw hi h => committed_stays_step hw hi hc h) hw hi

/-- A transaction that finds the import committed writes nothing but the expiry. -/
theorem ImportPost.of_committed {r : Nat} {next : ImportStage} {ls : List ImportLock} {db : ImportDb}
    {ws : List ImportWrite} {i : LibraryImport} {version : String} (hdb : StoredDrafts env db)
    (hi : i ∈ db.imports) (hc : i.status = .committed)
    (hrequest : request r = .commit i.ownerId i.id version)
    (h : ImportPost env request r next ls db ws) : Expiry ls db ws := by
  obtain ⟨ws₁, ws₂, rfl, hexpiry, hchange⟩ := h
  have hdb₁ := hexpiry.stored hdb
  have hi₁ : i ∈ (importSchema.view db ws₁).imports := by
    obtain ⟨ids, -, htouches, -⟩ := hexpiry.touches hdb
    exact htouches.mem hi fun hid => htouches.open_ i hi hid hc
  cases hchange with
  | nothing => exact hexpiry
  | created hmade | revived hmade =>
    obtain ⟨file, view, fetched, hpreview, -⟩ := hmade.file
    rw [hrequest] at hpreview
    cases hpreview
  | updated hrebuilt =>
    obtain ⟨n, patch, view, fetched, rebuilt, hpatch, -⟩ := hrebuilt.action
    rw [hrequest] at hpatch
    cases hpatch
  | @committed j _ _ _ hcommitting _ hj _ hdraft =>
    obtain ⟨_, _, hcommit, -⟩ := hcommitting.plan
    rw [hrequest] at hcommit
    injection hcommit with _ hid
    rw [← hdb₁.import_ext hi₁ hj hid, hc] at hdraft
    cases hdraft

/-- What others do while the import is committed. -/
def CommittedRely (env : ImportEnv) (i : LibraryImport) (ls : List ImportLock)
    (_ : List ImportWrite) (db db' : ImportDb) : Prop :=
  ImportRely env ls db db' ∧ i ∈ db'.imports

/-- The transaction of a commit under which the import is committed: it cannot fail. -/
theorem commitDraft_again {i : LibraryImport} {version : String} {db : ImportDb}
    (hi : i ∈ db.imports) (hc : i.status = .committed) :
    (commitDraft env i.ownerId i.id version).Safe importSchema id (CommittedRely env i)
      (fun _ _ => True) (fun _ => False) (fun _ _ => False)
      (fun next _ _ _ => next = .answered (.ok (.committed .alreadyCommitted i))) [] db [] := by
  refine fun answer _ => ?_
  show Script.Safe _ _ _ _ _ _ _ (commitImport env i.ownerId i.id answer.now
    (applyCommit env i.ownerId version answer.now) >>= _) _ _ _
  refine Script.Safe.bind (Script.Safe.bind ?_)
  have hlocked : (lockOwned env i.ownerId i.id answer.now).Safe importSchema id
      (CommittedRely env i) (fun _ _ => True) (fun _ => False) (fun _ _ => False) _ [] db [] :=
    (lockOwned_guards i.ownerId i.id answer.now).others fun _ _ _ _ h => h.1
  refine (hlocked.frame (F := fun db => i ∈ db.imports) (fun _ _ _ _ h _ => h.2) hi).mono ?_
  rintro owned? ls db' ws ⟨⟨hexpired, hnone, hsome⟩, hi'⟩
  have hi₁ : i ∈ (importSchema.view db' ws).imports := by
    obtain ⟨ids, -, htouches, -⟩ := hexpired.expiry.touches hexpired.stored
    exact htouches.mem hi' fun hid => htouches.open_ i hi' hid hc
  cases owned? with
  | none =>
    have hnot := hnone rfl i hi₁
    simp [byId] at hnot
  | some owned =>
    obtain ⟨hunderway, -, hid⟩ := hsome owned rfl
    obtain rfl : owned.summary = i := hexpired.view.import_ext hunderway.mem hi₁ hid
    show Script.Safe _ _ _ _ _ _ _ (if owned.summary.status = .committed then _ else _) _ _ _
    rw [if_pos hc]
    rfl

/-- **A later commit is answered with what the first one stored.** -/
def laterCommit (env : ImportEnv) (request : Nat → ImportRequest env) {r : Nat} {i : LibraryImport}
    {version : String} (hc : i.status = .committed)
    (hrequest : request r = .commit i.ownerId i.id version) :
    (importContract env request).Promise (libraryImport env request) r (fun db => i ∈ db.imports)
      fun stage => stage = .start ∨
        stage = .answered (.ok (.committed .alreadyCommitted i)) where
  post next _ _ _ := next = .answered (.ok (.committed .alreadyCommitted i))
  error _ := False
  kept _ _ _ hw hi h := committed_stays_step hw hi hc h
  script stage p db hstage _ hi hp := by
    change importScript env request r stage = some p at hp
    unfold importScript at hp
    rw [hrequest] at hp
    rcases hstage with rfl | rfl
    · cases hp
      exact commitDraft_again hi hc
    · cases hp
  stable _ _ _ _ _ _ _ h := h
  posted _ h := .inl h
  next _ _ _ _ h := .inr h
  failed _ _ := nofun

/-! ### The life of an import -/

/-- What holds in every state. -/
structure ImportLifecycle (env : ImportEnv) (request : Nat → ImportRequest env) (w : Importing) :
    Prop where
  one_for_a_file : ∀ i ∈ w.db.imports, ∀ j ∈ w.db.imports, i.ownerId = j.ownerId →
    i.sourceHash = j.sourceHash → i = j
  rows_of_drafts : ∀ id, w.db.rows id ≠ [] → ∃ i ∈ w.db.imports, i.id = id ∧ i.status = .draft
  /-- One transaction at most commits an import, and no other creates copies. -/
  once : ∀ id, (commitsOf id w.log).length ≤ 1
  counted : ∀ i ∈ w.db.imports, i.status = .committed →
    i.createdCopyCount = some (copiesOf i.id w.log).length
  accounted : ∀ e ∈ w.log, e.2.filterMap ImportWrite.copy? ≠ [] →
    ∃ i ∈ w.db.imports, i.status = .committed ∧ e ∈ commitsOf i.id w.log
  /-- What is committed stays as it is. -/
  final : ∀ i ∈ w.db.imports, i.status = .committed →
    ∀ w', (libraryImport env request).machine.Leads w w' → i ∈ w'.db.imports
  /-- A later commit returns what the first one stored, and creates nothing. -/
  repeated : ∀ i ∈ w.db.imports, i.status = .committed → ∀ r version,
    request r = .commit i.ownerId i.id version →
    (w.calls r = none ∨ w.calls r = some (.between .start)) →
    ∀ w', (libraryImport env request).machine.Leads w w' → ∀ stage,
      w'.calls r = some (.between stage) →
      stage = .start ∨ stage = .answered (.ok (.committed .alreadyCommitted i))
  nothing_created : ∀ i ∈ w.db.imports, i.status = .committed → ∀ r version,
    request r = .commit i.ownerId i.id version →
    ∀ w', (libraryImport env request).machine.step w (.commit r) w' →
      w'.db.catalog = w.db.catalog ∧
      w'.db.imports.map LibraryImport.id = w.db.imports.map LibraryImport.id ∧
      ∀ id, w'.db.rows id = w.db.rows id ∨ w'.db.rows id = []

theorem Expiry.creates_nothing {ls : List ImportLock} {db : ImportDb} {ws : List ImportWrite}
    (h : Expiry ls db ws) : (importSchema.view db ws).catalog = db.catalog ∧
      (importSchema.view db ws).imports.map LibraryImport.id = db.imports.map LibraryImport.id ∧
      ∀ id, (importSchema.view db ws).rows id = db.rows id ∨
        (importSchema.view db ws).rows id = [] := by
  cases h with
  | nothing => exact ⟨rfl, rfl, fun _ => .inl rfl⟩
  | @overdue ownerId now ids =>
    obtain ⟨himports, hrows⟩ := view_overdue db ownerId now ids
    refine ⟨rfl, ?_, fun id => ?_⟩
    · rw [himports, List.map_map]
      exact List.map_congr_left fun i _ => by simp
    · rw [hrows]
      by_cases hid : id ∈ ids
      · exact .inr (if_pos hid)
      · exact .inl (if_neg hid)

/-- **The life of an import, in every run.** -/
theorem import_lifecycle (hw : (libraryImport env request).machine.Reachable w) :
    ImportLifecycle env request w := by
  have hdb := (libraryImport_kept hw).inv
  have honce := committedOnce hw
  refine ⟨fun i hi j hj => hdb.import_ext_hash hi hj, hdb.drafts, honce.once, honce.counted,
    honce.accounted, fun i hi hc w' hlead => committed_stays hw hi hc hlead, ?_, ?_⟩
  · intro i hi hc r version hrequest hcall w' hlead stage hstage
    refine (laterCommit env request hc hrequest).holds (importContract_proved request) hw hi ?_
      hlead hstage
    exact hcall.imp_right fun h => ⟨.start, h, .inl rfl⟩
  · intro i hi hc r version hrequest w' h
    rcases importing_cases hw h with ⟨-, -, hlog⟩ |
      ⟨q, stage, next, ls, ws, hop, -, rfl, -, hpost⟩
    · cases h with
      | commit => exact absurd hlog (List.cons_ne_self _ _)
    · cases hop
      exact (hpost.of_committed hdb hi hc hrequest).creates_nothing

end Runs

/-! ### A file that is imported -/

/-- A preview of the file, and the commit of its draft. -/
def kobzarRequest (r : Nat) : ImportRequest kobzarEnv :=
  if r = 0 then .preview 1 kobzarFile else .commit 1 5 "vr"

def noProvider : ImportOutside := ⟨0, fun _ => none, fun _ => some .notFound⟩

def emptyImports : ImportDb := ⟨emptyCatalog, [], fun _ => []⟩

/-- The calls are served one after the other. -/
def kobzarImport (ops : List (Nat × List Nat)) : Option (ImportDb × (Nat → ImportStage)) :=
  (libraryImport kobzarEnv kobzarRequest).serve (fun _ => noProvider) ops
    (emptyImports, fun _ => .start)

theorem kobzarImport_served {ops : List (Nat × List Nat)} {y : ImportDb × (Nat → ImportStage)}
    (h : kobzarImport ops = some y) :
    ∃ w : Importing, (libraryImport kobzarEnv kobzarRequest).Served y w := by
  have hinit : (libraryImport kobzarEnv kobzarRequest).init emptyImports := ⟨rfl, rfl⟩
  have hstart := @Service.Served.start _ _ _ _ _ _ _ _ _ _ _ (fun _ => ImportStage.start) hinit fun _ => rfl
  exact hstart.serve (fun _ => trivial) h

theorem import_lifecycle_kobzar : ∃ (w : Importing) (i : LibraryImport),
    (libraryImport kobzarEnv kobzarRequest).machine.Reachable w ∧ i ∈ w.db.imports ∧
      i.status = .committed ∧ i.createdCopyCount = some 1 ∧
      ImportLifecycle kobzarEnv kobzarRequest w := by
  have hrun : (kobzarImport [(0, []), (0, []), (0, [5]), (1, [10, 11, 12, 13])]).any (fun y =>
      y.1.imports.any fun i => decide (i.status = .committed ∧ i.createdCopyCount = some 1)) =
      true := by
    decide +kernel
  obtain ⟨y, hy, hrun⟩ := (Option.any_eq_true _ _).mp hrun
  obtain ⟨i, hi, hstatus⟩ := List.any_eq_true.mp hrun
  obtain ⟨w, hw⟩ := kobzarImport_served hy
  obtain ⟨hcommitted, hcount⟩ := of_decide_eq_true hstatus
  rw [← hw.db] at hi
  exact ⟨w, i, hw.reachable, hi, hcommitted, hcount, import_lifecycle hw.reachable⟩

end Bookswap
