import Bookswap.Import.ImportInvariant
import Bookswap.Lib.Checked

/-!
# The contract of the import

Each transaction, statement by statement, whatever the others commit meanwhile.

- `Guards`: what a script ends with when the others keep to `ImportRely`.
- `expireOwnerDrafts_guards`, `lockOwned_guards`, `saveDraft_guards`, `patchRow_guards`,
  `commitDraft_guards`: the transactions.
- `importContract`, `importContract_proved`, `libraryImport_kept`: the contract in every run.
-/

namespace Bookswap

open ReadCommitted

variable (env : ImportEnv)

/-- What the script ends with, how it fails, and which keys refuse it. -/
abbrev GuardsOr {α : Type} (E : ImportFailure → Prop) (V : ImportKey → ImportDb → Prop)
    (p : ImportScript α) (Q : α → List ImportLock → ImportDb → List ImportWrite → Prop)
    (ls : List ImportLock) (db : ImportDb) (ws : List ImportWrite) : Prop :=
  p.Safe importSchema id (fun ls _ => ImportRely env ls) (fun _ _ => True) E V Q ls db ws

/-- What the script ends with, if it does. -/
abbrev Guards {α : Type} (p : ImportScript α)
    (Q : α → List ImportLock → ImportDb → List ImportWrite → Prop) (ls : List ImportLock)
    (db : ImportDb) (ws : List ImportWrite) : Prop :=
  GuardsOr env (fun _ => True) (fun _ _ => True) p Q ls db ws

section Guards

variable {env} {ls : List ImportLock} {db db' : ImportDb} {ws : List ImportWrite}
  {E : ImportFailure → Prop} {V : ImportKey → ImportDb → Prop}

/-! ## Expiry -/

theorem Expiry.locked (h : Expiry ls db ws) (n : ImportLock) : Expiry (n :: ls) db ws := by
  cases h with
  | nothing => exact .nothing
  | overdue hids =>
    refine .overdue fun id hid => ?_
    obtain ⟨hlock, hdue⟩ := hids id hid
    exact ⟨List.mem_cons_of_mem _ hlock, hdue⟩

/-- The tables are in order, and what the transaction wrote is an expiry. -/
structure Expired (env : ImportEnv) (ls : List ImportLock) (db : ImportDb)
    (ws : List ImportWrite) : Prop where
  stored : StoredDrafts env db
  expiry : Expiry ls db ws

theorem Expired.relied (h : Expired env ls db ws) (hrely : ImportRely env ls db db') :
    Expired env ls db' ws :=
  ⟨hrely.stored, h.expiry.relied hrely⟩

theorem Expired.view (h : Expired env ls db ws) : StoredDrafts env (importSchema.view db ws) :=
  h.expiry.stored h.stored

/-- The candidates are locked one by one, and then still overdue or left alone. -/
theorem expireOwnerDrafts_guards (ownerId : UserId) (now : Time) :
    GuardsOr env E V (expireOwnerDrafts ownerId now) (fun _ => Expired env) [] db [] := by
  refine Script.Safe.select fun db₁ hrely _ => ?_
  generalize ((importSchema.view (id db₁) []).overdue ownerId now |>.map LibraryImport.id).mergeSort
    (· ≤ ·) = candidates
  split
  · exact ⟨hrely.stored, .nothing⟩
  refine Script.Safe.bind ?_
  refine Script.Safe.acquireMany (J := fun _ => StoredDrafts env) (fun _ _ _ h _ => h.stored)
    (fun _ _ _ h => h) hrely.stored fun db₂ hdb₂ => ?_
  refine Script.Safe.select fun db₃ hrely₃ _ => ?_
  rw [List.append_nil]
  have hdue : ∀ id ∈ ((db₃.overdue ownerId now).map LibraryImport.id).filter
        (fun id => id ∈ candidates), ImportLock.libraryImport id ∈ (candidates.map
          ImportLock.libraryImport).reverse ∧ ∃ i ∈ db₃.imports, i.id = id ∧ i.ownerId = ownerId ∧
        i.status = .draft ∧ i.expiresAt ≤ now := by
    intro id hid
    obtain ⟨hmem, hcandidate⟩ := List.mem_filter.mp hid
    obtain ⟨i, hi, rfl⟩ := List.mem_map.mp hmem
    obtain ⟨hi, hdue⟩ := List.mem_filter.mp hi
    refine ⟨?_, i, hi, rfl, by simpa using hdue⟩
    exact List.mem_reverse.mpr (List.mem_map_of_mem (by simpa using hcandidate))
  split
  · exact ⟨hrely₃.stored, .nothing⟩
  · refine fun db₄ hrely₄ _ => ⟨fun _ h => (nomatch h), fun _ => fun db₅ hrely₅ _ =>
      ⟨fun _ h => (nomatch h), fun _ => ⟨hrely₅.stored, ?_⟩⟩⟩
    exact (Expiry.overdue hdue).relied (hrely₄.trans hrely₅)

/-- Only reading follows, while `J` is kept. -/
theorem guards_reads {α : Type} {P : α → Prop} {p : ImportScript α} {J : ImportDb → Prop}
    {Q : α → List ImportLock → ImportDb → List ImportWrite → Prop} (hp : p.Reads P)
    (hJ : ∀ db db', ImportRely env ls db db' → J db → J db') (h : J db)
    (hQ : ∀ a db', P a → J db' → Q a ls db' ws) : Guards env p Q ls db ws :=
  hp.safe hJ h hQ

theorem Expired.reads {α : Type} {P : α → Prop} {p : ImportScript α}
    {Q : α → List ImportLock → ImportDb → List ImportWrite → Prop} {ws' : List ImportWrite}
    (h : Expired env ls db ws) (hp : p.Reads P)
    (hQ : ∀ a db', P a → Expired env ls db' ws → Q a ls db' ws') : Guards env p Q ls db ws' :=
  guards_reads (J := fun db => Expired env ls db ws) hp (fun _ _ hrely h => h.relied hrely) h hQ

theorem reads_outside : outside.Reads fun _ => True := fun _ => trivial

theorem reads_readOwned (wanted : LibraryImport → Bool) :
    (readOwned env wanted).Reads fun _ => True := by
  unfold readOwned
  refine Script.Reads.select fun db => ?_
  cases db.imports.find? wanted with
  | none => trivial
  | some found =>
    exact Script.Reads.bind (P := fun _ => True) (Script.Reads.ofExcept fun _ _ => trivial)
      fun _ _ => trivial

theorem reads_readSummary (importId : ImportId) :
    (readSummary importId).Reads fun _ => True := by
  unfold readSummary
  refine Script.Reads.select fun db => ?_
  cases db.import? importId <;> trivial

/-- What is read is what is stored. -/
theorem readOwned_guards (h : Expired env ls db ws) (wanted : LibraryImport → Bool)
    {Q : Option OwnedLibraryImport → List ImportLock → ImportDb → List ImportWrite → Prop}
    (hnone : ∀ db', Expired env ls db' ws →
      (∀ i ∈ (importSchema.view db' ws).imports, wanted i = false) → Q none ls db' ws)
    (hsome : ∀ db' i, Expired env ls db' ws → i ∈ (importSchema.view db' ws).imports →
      wanted i = true → Q (some ⟨i, (importSchema.view db' ws).rows i.id⟩) ls db' ws) :
    GuardsOr env E V (readOwned env wanted) Q ls db ws := by
  unfold readOwned
  refine Script.Safe.select fun db' hrely _ => ?_
  have h' := h.relied hrely
  have hstored := h'.view
  dsimp only [id]
  cases hfind : (importSchema.view db' ws).imports.find? wanted with
  | none => exact hnone db' h' fun i hi => by simpa using List.find?_eq_none.mp hfind i hi
  | some i =>
    have hrows := hstored.rows i.id
    dsimp only [Option.map_some]
    rw [hrows.sortRows, StoredRows.validateRowOnRead hrows.accepted]
    exact hsome db' i h' (List.mem_of_find?_eq_some hfind) (List.find?_some hfind)

/-! ## Under the lock of an import -/

/-- The import is locked, and what was read of it is what is stored. -/
structure Underway (env : ImportEnv) (owned : OwnedLibraryImport) (ls : List ImportLock)
    (db : ImportDb) (ws : List ImportWrite) : Prop extends Expired env ls db ws where
  lock : .libraryImport owned.summary.id ∈ ls
  mem : owned.summary ∈ (importSchema.view db ws).imports
  rows : owned.rows = (importSchema.view db ws).rows owned.summary.id

variable {owned : OwnedLibraryImport}

theorem Underway.relied (h : Underway env owned ls db ws) (hrely : ImportRely env ls db db') :
    Underway env owned ls db' ws := by
  obtain ⟨hmem, hrows⟩ := (hrely.view h.expiry).locked _ h.mem h.lock
  exact ⟨h.toExpired.relied hrely, h.lock, hmem, h.rows.trans hrows.symm⟩

theorem Underway.locked (h : Underway env owned ls db ws) (n : ImportLock) :
    Underway env owned (n :: ls) db ws :=
  ⟨⟨h.stored, h.expiry.locked n⟩, List.mem_cons_of_mem _ h.lock, h.mem, h.rows⟩

theorem Underway.reads {α : Type} {P : α → Prop} {p : ImportScript α}
    {Q : α → List ImportLock → ImportDb → List ImportWrite → Prop} {ws' : List ImportWrite}
    (h : Underway env owned ls db ws) (hp : p.Reads P)
    (hQ : ∀ a db', P a → Underway env owned ls db' ws → Q a ls db' ws') :
    Guards env p Q ls db ws' :=
  guards_reads (J := fun db => Underway env owned ls db ws) hp
    (fun _ _ hrely h => h.relied hrely) h hQ

theorem lockOwned_guards (ownerId : UserId) (importId : ImportId) (now : Time) :
    GuardsOr env E V (lockOwned env ownerId importId now) (fun owned? ls db ws =>
      Expired env ls db ws ∧
      (owned? = none → ∀ i ∈ (importSchema.view db ws).imports, byId ownerId importId i = false) ∧
      ∀ owned, owned? = some owned → Underway env owned ls db ws ∧
        owned.summary.ownerId = ownerId ∧ owned.summary.id = importId) [] db [] := by
  refine ((expireOwnerDrafts_guards ownerId now).mono fun _ ls db ws hexpired => ?_).bind
  refine fun db₁ hrely _ => ?_
  have hlocked : Expired env (.libraryImport importId :: ls) db₁ ws :=
    ⟨hrely.stored, (hexpired.expiry.relied hrely).locked _⟩
  refine readOwned_guards hlocked _ (fun db' h' hnone => ⟨h', fun _ => hnone, nofun⟩)
    fun db' i h' hi hwanted => ?_
  refine ⟨h', nofun, fun owned howned => ?_⟩
  cases howned
  obtain ⟨howner, hid⟩ := by simpa [byId] using hwanted
  exact ⟨⟨h', hid ▸ List.mem_cons_self, hi, rfl⟩, howner, hid⟩

end Guards

/-! ## The transactions -/

section Transactions

variable {env} {request : Nat → ImportRequest env} {r : Nat} {ls : List ImportLock} {db : ImportDb}
  {ws : List ImportWrite}

theorem Expired.post_nothing {next : ImportStage} (h : Expired env ls db ws)
    (hsettled : Settled env request r next (importSchema.view db ws)) :
    ImportPost env request r next ls db ws :=
  ⟨ws, [], rfl, h.expiry, .nothing hsettled⟩

/-- A stage that is neither a saving nor an answer. -/
theorem settled_of_underway {next : ImportStage} (hsaving : ∀ input again, next ≠ .saving input again)
    (hanswer : ∀ reply, next = .answered (.ok reply) → ∃ n, reply = .expired n) :
    Settled env request r next db where
  saving input again hnext := absurd hnext (hsaving input again)
  committed outcome summary hnext := by
    obtain ⟨n, hn⟩ := hanswer _ hnext
    cases hn
  patched owned hnext := by
    obtain ⟨n, hn⟩ := hanswer _ hnext
    cases hn

/-- The answer to a call that is no action on a row. -/
theorem settled_of_draft {owned : OwnedLibraryImport}
    (h : ∀ ownerId importId rowNumber patch,
      request r ≠ .patchRow ownerId importId rowNumber patch) :
    Settled env request r (.answered (.ok (.draft owned))) db where
  saving := nofun
  committed := nofun
  patched _ _ := h

theorem expireDrafts_guards (ownerId : UserId) :
    Guards env (expireDrafts ownerId) (ImportPost env request r) [] db [] := by
  refine fun _ _ => ?_
  refine ((expireOwnerDrafts_guards ownerId _).mono fun n ls db ws h => ?_).bind
  exact h.post_nothing (settled_of_underway nofun fun _ h => by cases h; exact ⟨_, rfl⟩)

theorem findOwned_guards (ownerId : UserId) (wanted : LibraryImport → Bool) (now : Time) :
    Guards env (findOwned env ownerId wanted now) (fun _ => Expired env) [] db [] :=
  ((expireOwnerDrafts_guards ownerId now).mono fun _ _ _ _ h =>
    h.reads (reads_readOwned wanted) fun _ _ _ h' => h').bind

theorem getDraft_guards (ownerId : UserId) (importId : ImportId)
    (h : ∀ ownerId importId rowNumber patch,
      request r ≠ .patchRow ownerId importId rowNumber patch) :
    Guards env (getDraft env ownerId importId) (ImportPost env request r) [] db [] := by
  refine fun _ _ => ?_
  refine ((findOwned_guards ownerId _ _).mono fun found ls db ws hexpired => ?_).bind
  cases requireLive found with
  | error e => trivial
  | ok owned => exact hexpired.post_nothing (settled_of_draft h)

theorem findByHash_guards (ownerId : UserId) (sourceHash : String)
    (h : ∀ ownerId importId rowNumber patch,
      request r ≠ .patchRow ownerId importId rowNumber patch) :
    Guards env (findByHash env ownerId sourceHash) (ImportPost env request r) [] db [] := by
  refine fun _ _ => ?_
  refine ((findOwned_guards ownerId _ _).mono fun found ls db ws hexpired => ?_).bind
  cases found with
  | none => exact hexpired.post_nothing (settled_of_underway nofun nofun)
  | some existing =>
    dsimp only
    split
    · exact hexpired.post_nothing (settled_of_draft h)
    · exact hexpired.post_nothing (settled_of_underway nofun nofun)

theorem findPatchable_guards (ownerId : UserId) (importId : ImportId) (rowNumber : Nat)
    (patch : LibraryImportRowPatchRequest) :
    Guards env (findPatchable env ownerId importId rowNumber patch) (ImportPost env request r)
      [] db [] := by
  refine fun _ _ => ?_
  refine ((findOwned_guards ownerId _ _).mono fun found ls db ws hexpired => ?_).bind
  cases requirePatchable found rowNumber patch.expectedRowVersion with
  | error e => trivial
  | ok target => exact hexpired.post_nothing (settled_of_underway nofun nofun)

/-! ### preview -/

theorem reads_readCatalogView (cached : String → Option BatchLookupRowOutcome) :
    (readCatalogView cached).Reads fun _ => True :=
  fun _ _ _ => trivial

theorem reads_fetchUnresolved (isbns : List String) :
    (fetchUnresolved isbns).Reads fun _ => True :=
  fun _ _ => trivial

theorem validateRows_of_write {input : NewDraft} {rows : List LibraryImportRowRecord}
    (h : validateRowsForWrite env input = .ok rows) : validateRows env input.rows = .ok rows := by
  unfold validateRowsForWrite at h
  split at h
  · exact h
  · cases h

theorem resolveDraft_guards {ownerId : UserId} {file : ParsedFile env} (now : Time)
    (hrequest : request r = .preview ownerId file) (hdb : StoredDrafts env db) :
    Guards env (resolveDraft env r ownerId file now) (ImportPost env request r) [] db [] := by
  have hexpired : Expired env [] db [] := ⟨hdb, .nothing⟩
  have hreads : (resolveDraft env r ownerId file now).Reads fun next =>
      ∃ input, next = .saving input false ∧ DraftMade env request r input := by
    refine (reads_fetchUnresolved _).bind fun fetched _ _ => ?_
    refine (reads_readCatalogView _).bind fun view _ => ?_
    refine (Script.Reads.ofExcept fun rows hrows => hrows).bind fun rows hrows => ?_
    exact ⟨_, rfl, ⟨file, view, fetched, hrequest, rfl, validateRows_of_write hrows⟩⟩
  refine hexpired.reads hreads fun next db' hnext hexpired' => ?_
  obtain ⟨input, rfl, hmade⟩ := hnext
  refine hexpired'.post_nothing ⟨fun input' again h => ?_, nofun, nofun⟩
  cases h
  exact hmade

/-- The import of a file, under its lock. What was found first is what is found under the lock: none
goes, and no other has its key. -/
theorem lockByHash_guards (h : Expired env ls db ws) (ownerId : UserId) (sourceHash : String) :
    Guards env (lockByHash ownerId sourceHash) (fun found ls db ws => Expired env ls db ws ∧
      ∀ i, found = some i → ∃ rows, Underway env ⟨i, rows⟩ ls db ws) ls db ws := by
  unfold lockByHash
  refine Script.Safe.select fun db₁ hrely₁ _ => ?_
  have h₁ := h.relied hrely₁
  dsimp only [id]
  cases hfirst : (importSchema.view db₁ ws).imports.find? (byHash ownerId sourceHash) with
  | none =>
    refine ⟨h₁, fun i hi => ?_⟩
    cases hi
  | some found =>
    refine fun db₂ hrely₂ _ => fun db₃ hrely₃ _ => ?_
    have hexpiry := (h₁.expiry.relied hrely₂).locked (.libraryImport found.id)
    have hexpired : Expired env (.libraryImport found.id :: ls) db₃ ws :=
      ⟨hrely₃.stored, hexpiry.relied hrely₃⟩
    refine ⟨hexpired, fun i hi => ?_⟩
    have hmem := List.mem_of_find?_eq_some hi
    obtain ⟨mid, hmid, hid, howner, hhash⟩ := (hrely₂.view h₁.expiry).there found
      (List.mem_of_find?_eq_some hfirst)
    obtain ⟨last, hlast, hid', howner', hhash'⟩ := (hrely₃.view hexpiry).there mid hmid
    obtain ⟨hfo, hfh⟩ := by simpa [byHash] using List.find?_some hfirst
    obtain ⟨hio, hih⟩ := by simpa [byHash] using List.find?_some hi
    have hsame : last = i := hexpired.view.import_ext_hash hlast hmem
      (by rw [howner', howner, hfo, hio]) (by rw [hhash', hhash, hfh, hih])
    have hlock : i.id = found.id := by rw [← hsame, hid', hid]
    exact ⟨(importSchema.view db₃ ws).rows i.id, hexpired, by rw [hlock]; exact List.mem_cons_self,
      hmem, rfl⟩

/-- What the saving of a draft leads to. -/
def SaveOutcome.next (input : NewDraft) (x : SaveOutcome × LibraryImport) : ImportStage :=
  match x.1 with
  | .created | .revived => .answered (.ok (.draft ⟨x.2, input.rows⟩))
  | .existingDraft | .committed => .reading x.2.id

theorem saveDraftInTransaction_guards {input : NewDraft} (hmade : DraftMade env request r input) :
    Guards env (saveDraftInTransaction input)
      (fun x => ImportPost env request r (SaveOutcome.next input x)) [] db [] := by
  refine ((expireOwnerDrafts_guards input.ownerId input.now).mono fun _ ls db ws hexpired => ?_).bind
  refine ((lockByHash_guards hexpired _ _).mono fun found ls db ws hfound => ?_).bind
  obtain ⟨hexpired, hunderway⟩ := hfound
  cases found with
  | none =>
    refine fun id db₁ hrely₁ _ => ⟨fun _ _ _ => trivial, fun _ db₂ hrely₂ _ =>
      ⟨fun _ _ _ => trivial, fun _ => ?_⟩⟩
    refine (((hexpired.relied hrely₁).relied hrely₂).reads (reads_readSummary id)
      fun summary db' _ h => ?_).bind
    exact ⟨ws, [.insertRows id input.rows, .createImport (input.draft id)], rfl, h.expiry,
      .created hmade rfl⟩
  | some existing =>
    obtain ⟨rows, h⟩ := hunderway existing rfl
    have hkept : ∀ summary outcome, (outcome = .existingDraft ∨ outcome = .committed) →
        ∀ db', Underway env ⟨existing, rows⟩ ls db' ws →
        ImportPost env request r (SaveOutcome.next input (outcome, summary)) ls db' ws := by
      intro summary outcome houtcome db' h'
      refine h'.post_nothing ?_
      rcases houtcome with rfl | rfl <;> exact settled_of_underway nofun nofun
    dsimp only
    cases hstatus : existing.status with
    | expired =>
      refine fun db₁ hrely₁ _ => ⟨fun _ _ _ => trivial, fun _ db₂ hrely₂ _ =>
        ⟨fun _ _ _ => trivial, fun _ db₃ hrely₃ _ => ⟨fun _ _ _ => trivial, fun _ => ?_⟩⟩⟩
      refine ((((h.relied hrely₁).relied hrely₂).relied hrely₃).reads
        (reads_readSummary existing.id) fun summary db' _ h => ?_).bind
      exact ⟨ws, [.insertRows existing.id input.rows, .setDraft existing.id input.rows.length
        input.copyCount (input.now + DRAFT_TTL_MS), .deleteRows [existing.id]], rfl, h.expiry,
        .revived hmade rfl h.mem h.lock hstatus⟩
    | draft =>
      exact (h.reads (reads_readSummary _) fun summary db' _ h' =>
        hkept summary .existingDraft (.inl rfl) db' h').bind
    | committed =>
      exact (h.reads (reads_readSummary _) fun summary db' _ h' =>
        hkept summary .committed (.inr rfl) db' h').bind

theorem saveDraft_guards {input : NewDraft} (hmade : DraftMade env request r input) :
    Guards env (saveDraft input) (ImportPost env request r) [] db [] := by
  refine ((saveDraftInTransaction_guards hmade).mono fun x ls db ws hpost => ?_).bind
  obtain ⟨outcome, summary⟩ := x
  cases outcome <;> exact hpost

/-! ### patchRow -/

theorem requireLive_eq_ok {found : Option OwnedLibraryImport} {owned : OwnedLibraryImport}
    (h : requireLive found = .ok owned) : found = some owned ∧ owned.summary.status ≠ .expired := by
  cases found with
  | none => cases h
  | some o =>
    unfold requireLive at h
    dsimp only at h
    split at h
    · cases h
    · next hlive =>
      cases h
      exact ⟨rfl, hlive⟩

/-- Only a draft has rows to change, and only the version that the client has seen. -/
theorem requirePatchable_eq_ok {owned : OwnedLibraryImport} {rowNumber : Nat} {expected : String}
    {target : LibraryImportRowRecord}
    (h : requirePatchable (some owned) rowNumber expected = .ok target) :
    owned.summary.status = .draft ∧
      (owned.rows.find? fun row => row.rowNumber = rowNumber) = some target ∧
      target.payload.rowVersion = expected := by
  unfold requirePatchable at h
  cases hlive : requireLive (some owned) with
  | error e =>
    rw [hlive] at h
    cases h
  | ok o =>
    obtain ⟨ho, hexpired⟩ := requireLive_eq_ok hlive
    cases ho
    rw [hlive, Checked.ok_bind] at h
    dsimp only at h
    split at h
    · cases h
    · next hcommitted =>
      cases hfirst : owned.rows.find? fun row => row.rowNumber = rowNumber with
      | none =>
        rw [hfirst] at h
        cases h
      | some first =>
        rw [hfirst] at h
        dsimp only at h
        unfold requireCurrentRow at h
        split at h
        · next hversion =>
          cases h
          refine ⟨?_, rfl, hversion⟩
          cases hstatus : owned.summary.status with
          | draft => rfl
          | expired => exact absurd hstatus hexpired
          | committed => exact absurd hstatus hcommitted
        · cases h

theorem reads_prefetch (target : LibraryImportRowRecord) (action : RowAction) :
    (prefetch env target action).Reads fun _ => True := by
  unfold prefetch
  split
  · trivial
  · trivial
  · exact reads_fetchUnresolved _

theorem reads_rebuild (rowNumber : Nat) (patch : LibraryImportRowPatchRequest)
    (fetched : String → Option BatchLookupRowOutcome) (owned : OwnedLibraryImport) :
    (rebuild env r rowNumber patch fetched owned).Reads fun rebuilt =>
      (∃ target, requirePatchable (some owned) rowNumber patch.expectedRowVersion = .ok target) ∧
      ∃ view, rebuildRows env r owned.rows rowNumber patch.action view fetched = .ok rebuilt := by
  refine (Script.Reads.ofExcept fun target h => h).bind fun target htarget => ?_
  refine fun _ => (reads_readCatalogView _).bind fun view _ => ?_
  exact Script.Reads.ofExcept fun rebuilt h => ⟨⟨target, htarget⟩, view, h⟩

theorem updateRows_guards {ownerId : UserId} {importId : ImportId} {rowNumber : Nat}
    {patch : LibraryImportRowPatchRequest} (now : Time)
    (fetched : String → Option BatchLookupRowOutcome)
    (hrequest : request r = .patchRow ownerId importId rowNumber patch) :
    Guards env (updateRows env ownerId importId now (rebuild env r rowNumber patch fetched))
      (fun updated ls db ws => ∀ owned, requireLive updated = .ok owned →
        ImportPost env request r (.answered (.ok (.draft owned))) ls db ws) [] db [] := by
  refine ((lockOwned_guards ownerId importId now).mono fun owned? ls db ws hlocked => ?_).bind
  obtain ⟨hexpired, -, hunderway⟩ := hlocked
  cases owned? with
  | none => exact fun owned h => nomatch h
  | some owned =>
    obtain ⟨h, howner, hid⟩ := hunderway owned rfl
    refine (h.reads (reads_rebuild rowNumber patch fetched owned)
      fun rebuilt db₁ hrebuilt h₁ => ?_).bind
    obtain ⟨⟨target, htarget⟩, view, hrows⟩ := hrebuilt
    obtain ⟨hdraft, hfind, hversion⟩ := requirePatchable_eq_ok htarget
    cases hvalid : validateRows env rebuilt with
    | error e => trivial
    | ok next =>
      have hrebuilt : Rebuilt env request r owned.summary owned.rows next :=
        ⟨rowNumber, patch, view, fetched, rebuilt, howner ▸ hid ▸ hrequest,
          ⟨target, hfind, hversion⟩, hrows, hvalid⟩
      have hne : next ≠ [] := by
        rintro rfl
        have hnil : owned.rows.map LibraryImportRowRecord.rowNumber = [] := hrebuilt.numbers.symm
        rw [List.map_eq_nil_iff.mp hnil] at hfind
        cases hfind
      show Guards env (if next ≠ [] then _ else _) _ _ _ _
      rw [if_pos hne]
      refine fun db₂ hrely₂ _ => ⟨fun _ _ _ => trivial, fun _ db₃ hrely₃ _ =>
        ⟨fun _ _ _ => trivial, fun _ => ?_⟩⟩
      refine ((h₁.relied hrely₂).relied hrely₃).reads (reads_readOwned _)
        fun updated db' _ h' owned' _ => ?_
      refine ⟨ws, [.insertRows importId next, .deleteRows [importId]], rfl, h'.expiry, ?_⟩
      rw [← hid]
      exact .updated (h'.rows ▸ hrebuilt) rfl h'.mem h'.lock hdraft

theorem patchRow_guards {ownerId : UserId} {importId : ImportId} {rowNumber : Nat}
    {patch : LibraryImportRowPatchRequest} (target : LibraryImportRowRecord)
    (hrequest : request r = .patchRow ownerId importId rowNumber patch) :
    Guards env (patchRow env r ownerId importId rowNumber patch target)
      (ImportPost env request r) [] db [] := by
  refine (guards_reads (J := fun _ => True) (reads_prefetch target patch.action)
    (fun _ _ _ _ => trivial) trivial fun fetched db₁ _ _ => ?_).bind
  refine fun _ _ => ?_
  refine ((updateRows_guards _ fetched hrequest).mono fun updated ls db ws h => ?_).bind
  cases hlive : requireLive updated with
  | error e => trivial
  | ok owned => exact h owned hlive

/-! ### commit -/

/-- The works are locked, and then the checks only read. -/
theorem assertCatalogUnchanged_guards {owned : OwnedLibraryImport}
    (h : Underway env owned ls db ws) (plan : LibraryImportCommitPlan)
    {Q : Unit → List ImportLock → ImportDb → List ImportWrite → Prop}
    (hQ : ∀ ls db, Underway env owned ls db ws → Q () ls db ws) :
    Guards env (assertCatalogUnchanged plan) Q ls db ws := by
  refine Script.Safe.bind (Script.Safe.bind ?_)
  refine Script.Safe.acquireMany (J := fun ls db => Underway env owned ls db ws)
    (fun _ _ _ hrely h => h.relied hrely) (fun n _ _ h => h.locked n) h fun db₁ h₁ => ?_
  refine fun db₂ hrely₂ _ => ?_
  have h₂ := h₁.relied hrely₂
  show Guards env (if _ then _ else if _ then _ else _) _ _ _ _
  split
  · trivial
  split
  · trivial
  refine fun db₃ hrely₃ _ => ?_
  show Guards env (if _ then _ else _) _ _ _ _
  split
  · trivial
  · exact hQ _ _ (h₂.relied hrely₃)

theorem writeImport_guards {owned : OwnedLibraryImport} (h : Underway env owned ls db ws)
    (now : Time) (ownerId : UserId) (plan : LibraryImportCommitPlan)
    {Q : List (List Copy) → List ImportLock → ImportDb → List ImportWrite → Prop}
    (hQ : ∀ drafts copies ls db, WrittenImport now ownerId plan drafts copies →
      Underway env owned ls db ws → Q copies ls db ((importWrites drafts copies).reverse ++ ws)) :
    Guards env (writeImport env now ownerId plan) Q ls db ws := by
  refine (assertCatalogUnchanged_guards h plan fun ls db h => ?_).bind
  refine (Script.Draws.safe (Script.Draws.mapM fun chain _ => draws_draftChain ownerId chain)
    fun drafts hchains => ?_).bind
  refine (Script.Draws.safe (Script.Draws.mapM fun copy _ =>
    draws_draftCopies now ownerId drafts copy fun _ => trivial) fun copies hcopies => ?_).bind
  refine (Script.Safe.insertMany (J := fun db => Underway env owned ls db ws)
    (fun _ _ _ hrely h => h.relied hrely) h fun db' h' => ?_).bind
  exact hQ drafts copies ls db' ⟨hchains, hcopies⟩ h'

/-- The summary of an import that is committed now. -/
theorem summary_of_committed {i found : LibraryImport} {now : Time} {drafts : List ChainDraft}
    {copies : List (List Copy)} (hdb : StoredDrafts env db) (hi : i ∈ db.imports)
    (h : (importSchema.view db (.setCommitted i.id now copies.flatten.length ::
      .deleteRows [i.id] :: (importWrites drafts copies).reverse)).import? i.id = some found) :
    found = (ImportWrite.setCommitted i.id now copies.flatten.length).onImport i := by
  have hmem := List.mem_of_find?_eq_some h
  rw [view_committed] at hmem
  obtain ⟨j, hj, rfl⟩ := List.mem_map.mp hmem
  have hid : j.id = i.id := by simpa using List.find?_some h
  rw [hdb.import_ext hj hi hid]

/-- What a draft that is committed has passed. -/
theorem requirePlan_eq_ok {owned : OwnedLibraryImport} {version : String}
    {plan : LibraryImportCommitPlan} (h : requirePlan env owned version = .ok plan) :
    owned.summary.status ≠ .expired ∧ toDraftVersion env owned.rows = version ∧
      (assessLibraryImportCommit owned.rows).blockers = [] ∧
      plan = (assessLibraryImportCommit owned.rows).plan ∧ exceedsCopyCap plan.copyCount = false := by
  unfold requirePlan at h
  cases hlive : requireLive (some owned) with
  | error e =>
    rw [hlive] at h
    cases h
  | ok o =>
    obtain ⟨ho, hstatus⟩ := requireLive_eq_ok hlive
    cases ho
    rw [hlive] at h
    cases hversion : requireCurrentDraft env owned.rows version with
    | error e =>
      rw [hversion] at h
      cases h
    | ok u =>
      rw [hversion, Checked.ok_bind, Checked.ok_bind] at h
      dsimp only at h
      unfold requireCurrentDraft at hversion
      split at h
      · cases h
      · next hblockers =>
        split at h
        · cases h
        · next hcap =>
          cases h
          refine ⟨hstatus, ?_, hblockers, rfl, Bool.eq_false_iff.mpr hcap⟩
          by_contra hne
          rw [if_neg hne] at hversion
          cases hversion

/-- `readSummary` reads the summary that is stored. -/
theorem readSummary_guards {J : ImportDb → Prop} {id : ImportId}
    {Q : LibraryImport → List ImportLock → ImportDb → List ImportWrite → Prop}
    (hJ : ∀ db db', ImportRely env ls db db' → J db → J db') (h : J db)
    (hQ : ∀ db' found, J db' → (importSchema.view db' ws).import? id = some found →
      Q found ls db' ws) : Guards env (readSummary id) Q ls db ws := by
  unfold readSummary
  refine Script.Safe.select fun db' hrely _ => ?_
  simp only [id_eq]
  cases hfound : (importSchema.view db' ws).import? id with
  | none => trivial
  | some found => exact hQ db' found (hJ db db' hrely h) hfound

/-- What the answer to a commit says. -/
def commitAnswer : Option (CommitOutcome × LibraryImport) → ImportStage
  | none => .answered (.error importNotFound)
  | some (outcome, summary) => .answered (.ok (.committed outcome summary))

/-- The end of a commit, when the plan is written. -/
theorem finishCommit_guards {owned : OwnedLibraryImport} {now : Time} {drafts : List ChainDraft}
    {copies : List (List Copy)} (h : Underway env owned ls db ws)
    (hdraft : owned.summary.status = .draft)
    (hcommitting : Committing env request r owned.summary owned.rows now drafts copies) :
    Guards env (do
      .insert (.deleteRows [owned.summary.id])
      .insert (.setCommitted owned.summary.id now copies.flatten.length)
      let summary ← readSummary owned.summary.id
      return some (.committed, summary))
      (fun result => ImportPost env request r (commitAnswer result)) ls db
      ((importWrites drafts copies).reverse ++ ws) := by
  refine Script.Safe.insert fun db₁ hrely₁ => Script.Safe.insert fun db₂ hrely₂ => ?_
  refine Script.Safe.bind ?_
  refine readSummary_guards (J := fun db => Underway env owned ls db ws)
    (fun _ _ hrely h => h.relied hrely) ((h.relied hrely₁).relied hrely₂)
    fun db' found h' hfound => ?_
  refine ⟨ws, .setCommitted owned.summary.id now copies.flatten.length ::
    .deleteRows [owned.summary.id] :: (importWrites drafts copies).reverse, rfl, h'.expiry, ?_⟩
  rw [← List.cons_append, ← List.cons_append, Schema.view_append] at hfound
  have hsummary := summary_of_committed h'.view h'.mem hfound
  exact .committed (h'.rows ▸ hcommitting) (by rw [hsummary]; rfl) h'.mem h'.lock hdraft

theorem commitImport_guards {ownerId : UserId} {importId : ImportId} {version : String}
    (now : Time) (hrequest : request r = .commit ownerId importId version) :
    Guards env (commitImport env ownerId importId now (applyCommit env ownerId version now))
      (fun result => ImportPost env request r (commitAnswer result)) [] db [] := by
  refine ((lockOwned_guards ownerId importId now).mono fun owned? ls db ws hlocked => ?_).bind
  obtain ⟨hexpired, -, hunderway⟩ := hlocked
  cases owned? with
  | none => exact hexpired.post_nothing (settled_of_underway nofun nofun)
  | some owned =>
    obtain ⟨h, rfl, rfl⟩ := hunderway owned rfl
    dsimp only
    split
    · next hcommitted =>
      refine h.post_nothing ⟨nofun, fun outcome summary hnext => ?_, nofun⟩
      cases hnext
      exact ⟨rfl, h.mem, hcommitted, version, hrequest⟩
    · next hopen =>
      refine Script.Safe.bind ?_
      show Guards env ((Script.ofExcept (requirePlan env owned version)) >>= _) _ _ _ _
      cases hplan : requirePlan env owned version with
      | error e => trivial
      | ok plan =>
        refine writeImport_guards h now _ plan fun drafts copies ls db hwritten h => ?_
        have hdraft : owned.summary.status = .draft := by
          have hlive := (requirePlan_eq_ok hplan).1
          cases hstatus : owned.summary.status with
          | draft => rfl
          | expired => exact absurd hstatus hlive
          | committed => exact absurd hstatus hopen
        have hcommitting : Committing env request r owned.summary owned.rows now drafts copies :=
          ⟨version, plan, hrequest, hplan, hwritten⟩
        exact finishCommit_guards h hdraft hcommitting

theorem commitDraft_guards {ownerId : UserId} {importId : ImportId} {version : String}
    (hrequest : request r = .commit ownerId importId version) :
    Guards env (commitDraft env ownerId importId version) (ImportPost env request r) [] db [] := by
  refine fun _ _ => ?_
  refine ((commitImport_guards _ hrequest).mono fun result ls db ws h => ?_).bind
  cases result <;> exact h

end Transactions

/-! ## The contract -/

/-- What the calls agree on: only the draft that is being saved is remembered from one transaction
to the next. -/
def importContract (request : Nat → ImportRequest env) :
    Contract ImportDb ImportWrite ImportLock ImportFailure ImportStage where
  inv := StoredDrafts env
  stage r stage := ∀ input again, stage = .saving input again → DraftMade env request r input
  rely _ ls _ := ImportRely env ls
  error _ _ _ := True
  post r _ := ImportPost env request r

section Contract

variable {env} {request : Nat → ImportRequest env} {r : Nat} {ls : List ImportLock} {db : ImportDb}
  {ws : List ImportWrite}

theorem ImportPost.relied {next : ImportStage} {db' : ImportDb}
    (h : ImportPost env request r next ls db ws) (hrely : ImportRely env ls db db') :
    ImportPost env request r next ls db' ws := by
  obtain ⟨ws₁, ws₂, hws, hexpiry, hchange⟩ := h
  exact ⟨ws₁, ws₂, hws, hexpiry.relied hrely, hchange.relied (hrely.view hexpiry)⟩

theorem ImportPost.next {next : ImportStage} (h : ImportPost env request r next ls db ws) :
    ∀ input again, next = .saving input again → DraftMade env request r input := by
  obtain ⟨ws₁, ws₂, -, -, hchange⟩ := h
  cases hchange with
  | nothing hsettled => exact hsettled.saving
  | created _ hnext | revived _ hnext | updated _ hnext | committed _ hnext =>
    rw [hnext]
    nofun

/-- A commit keeps the tables in order, and what the others have locked. -/
theorem ImportPost.effect {next : ImportStage} (hdb : StoredDrafts env db)
    (hfree : importSchema.Free ws db) (h : ImportPost env request r next ls db ws) :
    StoredDrafts env (importSchema.view db ws) ∧
      ∀ ls', (∀ n ∈ ls', n ∉ ls) → ImportRely env ls' db (importSchema.view db ws) := by
  obtain ⟨ws₁, ws₂, rfl, hexpiry, hchange⟩ := h
  have hdb₁ := hexpiry.stored hdb
  obtain ⟨hdb₂, hrely₂⟩ := hchange.effect hdb₁ (hexpiry.free hfree)
  rw [Schema.view_append]
  refine ⟨hdb₂, fun ls' hls' => ?_⟩
  obtain ⟨ids, hids, htouches, -⟩ := hexpiry.touches hdb
  refine (htouches.rely hdb₁ fun id hid hid' => ?_).trans (hrely₂ ls' hls')
  exact hls' _ hid' (hids id hid)

theorem importContract_script {stage : ImportStage} {p : ImportScript ImportStage}
    (hstage : (importContract env request).stage r stage) (hdb : StoredDrafts env db)
    (hp : importScript env request r stage = some p) :
    Guards env p (ImportPost env request r) [] db [] := by
  unfold importScript at hp
  split at hp <;> cases hp
  · next ownerId file hrequest =>
    exact findByHash_guards ownerId _ (by rw [hrequest]; nofun)
  · next ownerId file now hrequest => exact resolveDraft_guards now hrequest hdb
  · next input again hrequest => exact saveDraft_guards (hstage _ _ rfl)
  · next ownerId file importId hrequest =>
    exact getDraft_guards ownerId importId (by rw [hrequest]; nofun)
  · exact findPatchable_guards _ _ _ _
  · next target hrequest => exact patchRow_guards target hrequest
  · next hrequest => exact commitDraft_guards hrequest
  · next ownerId importId hrequest =>
    exact getDraft_guards ownerId importId (by rw [hrequest]; nofun)
  · exact expireDrafts_guards _

/-- **The import keeps to the contract.** -/
theorem importContract_proved (request : Nat → ImportRequest env) :
    (importContract env request).Proved (libraryImport env request) where
  init db hdb := by
    obtain ⟨himports, hrows⟩ := hdb
    refine ⟨by rw [himports]; exact .nil, by rw [himports]; exact .nil, fun id h => ?_,
      fun id => ?_⟩ <;> rw [hrows] at *
    · exact absurd rfl h
    · exact storedRows_nil
  posted r stage hposts := by
    rw [show stage = .start from hposts]
    nofun
  refl _ _ _ _ hdb := .refl hdb
  chains _ _ _ _ _ _ h h' := h.trans h'
  script _ _ _ _ hstage hdb hp := importContract_script hstage hdb hp
  stable _ _ _ _ _ _ _ hrely _ hpost := hpost.relied hrely
  next _ _ _ _ _ _ _ hpost := hpost.next
  failed _ _ _ _ _ := nofun
  refused r stage key hstage input again h := by
    change importRefused stage key = .saving input again at h
    unfold importRefused at h
    split at h
    · split at h
      · cases h
        exact hstage _ _ rfl
      · cases h
    · cases h
  commit _ _ _ _ _ _ hdb hfree hpost := by
    obtain ⟨hdb', hrely⟩ := hpost.effect hdb hfree
    exact ⟨hdb', fun _ ls' _ _ hls' => hrely ls' fun n hn hn' => hls' n hn n hn' rfl⟩
  elsewhere db db' hdb h := by
    have hdb' : StoredDrafts env db' := by
      refine ⟨h.imports ▸ hdb.ids, h.imports ▸ hdb.hashes, ?_, h.rows ▸ hdb.rows⟩
      rw [h.rows, h.imports]
      exact hdb.drafts
    refine ⟨hdb', fun _ _ _ => ⟨hdb', ?_, ?_, ?_⟩⟩ <;> rw [h.imports]
    · exact fun i hi _ => ⟨hi, by rw [h.rows]⟩
    · exact fun i hi _ => hi
    · exact fun i hi => ⟨i, hi, rfl, rfl, rfl⟩

/-- **In every run, each transaction does what its contract says.** -/
theorem libraryImport_kept {w : Serving ImportDb ImportWrite ImportLock Nat Unit ImportOutside
    ImportFailure ImportStage} (hw : (libraryImport env request).machine.Reachable w) :
    (importContract env request).Kept (libraryImport env request) w :=
  (importContract_proved request).kept hw

end Contract

end Bookswap
