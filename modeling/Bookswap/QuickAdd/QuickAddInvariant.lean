import Bookswap.QuickAdd.QuickAddService

/-!
# What the quick-add transactions keep

The keys and the locks of the transactions under way are apart, and free of what is committed. A
transaction that ends well either repeats the recorded outcome or adds a chain, one copy and the
record of the operation; the key of the record lets it do the latter once.

- `CatalogWrite.isChain`, `editionIdFor_only`: the chain of a target writes no copy and no
  operation.
- `QuickAdding.Step.cases`: a step is a move of one call, a commit, or somebody else's.
- `QuickAdding.Apart`, `apart`: keys are apart.
- `Recorded`, `QuickAddWorld.Later`, `run_safe`: what a transaction guarantees.
-/

namespace Bookswap

open ReadCommitted

/-! ## The writes of a chain -/

/-- A row of the catalog: no copy, no operation. -/
def CatalogWrite.isChain : CatalogWrite → Bool
  | .copy _ | .operation _ => false
  | _ => true

/-- The id of the copy that a write adds. -/
def CatalogWrite.copyId? : CatalogWrite → Option CopyId
  | .copy c => some c.id
  | _ => none

/-- The script writes rows of the catalog only. -/
def ChainOnly {α : Type} (p : AddScript α) : Prop := p.Only fun x => x.isChain = true

section ChainOnly

variable {α : Type} (env : QuickAddEnv)

theorem chainOnly_createSourceAuthor (workId : WorkId) (name : String) (position : Nat) :
    ChainOnly (createSourceAuthor env workId name position) :=
  fun _ => ⟨rfl, rfl, trivial⟩

theorem chainOnly_createWorkFromSource (userId : UserId) (work : SourceWork) :
    ChainOnly (createWorkFromSource env userId work) := by
  refine fun _ => ⟨rfl, ?_⟩
  exact (Script.Only.forM fun x => chainOnly_createSourceAuthor env _ _ _).bind fun _ => trivial

theorem chainOnly_assertAuthorsExist (authors : List WorkAuthorInput) :
    ChainOnly (assertAuthorsExist authors) := by
  unfold assertAuthorsExist ChainOnly
  dsimp only
  split
  · trivial
  · refine fun _ => ?_
    show Script.Only _ (if _ then _ else _)
    split <;> trivial

theorem chainOnly_linkedAuthor (author : WorkAuthorInput) :
    ChainOnly (linkedAuthor env author) := by
  unfold linkedAuthor
  split
  · trivial
  · exact fun _ => ⟨rfl, trivial⟩

theorem chainOnly_createWorkIn (userId : UserId) (work : NewWork) :
    ChainOnly (createWorkIn env userId work) := by
  refine (chainOnly_assertAuthorsExist _).bind fun _ _ => ⟨rfl, ?_⟩
  refine (Script.Only.mapM fun a => chainOnly_linkedAuthor env a).bind fun links => ?_
  exact (Script.Only.forM fun x => show ChainOnly (.insert _) from ⟨rfl, trivial⟩).bind fun _ =>
    trivial

theorem chainOnly_select (f : CatalogDb → α) : ChainOnly (.select f) := fun _ => trivial

theorem chainOnly_lockExistingWork (workId : WorkId) : ChainOnly (lockExistingWork workId) := by
  refine Script.Only.bind (show ChainOnly (.acquire _) from trivial) fun _ => ?_
  refine (chainOnly_select _).bind fun work => ?_
  cases work with
  | none => trivial
  | some work =>
    dsimp only
    cases work.mergedIntoId <;> trivial

theorem chainOnly_assertIsbnFree (isbn13 : Option String) : ChainOnly (assertIsbnFree isbn13) := by
  cases isbn13 with
  | none => trivial
  | some isbn13 =>
    refine (chainOnly_select _).bind fun taken => ?_
    cases taken <;> trivial

theorem chainOnly_manualWork (userId : UserId) (work : QuickAddManualWork)
    (edition : QuickAddManualEdition) : ChainOnly (manualWork env userId work edition) := by
  cases work with
  | existing workId => exact (chainOnly_lockExistingWork workId).bind fun _ => trivial
  | new work => exact (chainOnly_createWorkIn env userId _).bind fun _ => trivial

theorem chainOnly_manualTranslation (userId : UserId) (workId : WorkId)
    (translation : Option QuickAddTranslation) :
    ChainOnly (manualTranslation userId workId translation) := by
  cases translation with
  | none => trivial
  | some t => exact fun _ => ⟨rfl, trivial⟩

theorem chainOnly_createManual (userId : UserId) (target : QuickAddManualTarget) :
    ChainOnly (createManual env userId target) := by
  refine (chainOnly_assertIsbnFree _).bind fun _ => ?_
  refine (chainOnly_manualWork env _ _ _).bind fun work => ?_
  refine (chainOnly_manualTranslation _ _ _).bind fun translationId => ?_
  exact Script.Only.ofExcept.bind fun text _ => ⟨rfl, trivial⟩

theorem chainOnly_createUnspecifiedEdition (userId : UserId) (workId : WorkId)
    (coverUrl : Option String) : ChainOnly (createUnspecifiedEdition userId workId coverUrl) :=
  (chainOnly_lockExistingWork workId).bind fun _ _ => ⟨rfl, trivial⟩

theorem chainOnly_createFromExternal (userId : UserId) (metadata : ExternalMetadata)
    (isbn13 : Option String) : ChainOnly (createFromExternal env userId metadata isbn13) :=
  (chainOnly_createWorkFromSource env _ _).bind fun _ _ => ⟨rfl, trivial⟩

theorem chainOnly_findLocal (isbnFirst : Bool) (identity : LocalIdentity) :
    ChainOnly (ExternalEdition.findLocal isbnFirst identity) := by
  have hisbn : ChainOnly (ExternalEdition.byIsbn identity.isbn13) := by
    cases identity.isbn13 with
    | none => trivial
    | some isbn13 => exact chainOnly_select _
  have hreference : ChainOnly (ExternalEdition.byReference identity.reference) := by
    cases identity.reference with
    | none => trivial
    | some key => exact chainOnly_select _
  unfold ExternalEdition.findLocal
  cases isbnFirst with
  | true => exact hisbn.bind fun _ => hreference.bind fun _ => Script.Only.ofExcept
  | false => exact hreference.bind fun _ => hisbn.bind fun _ => Script.Only.ofExcept

theorem chainOnly_rememberConfirmed (editionId : EditionId)
    (reference : Option ExternalReferenceKey) :
    ChainOnly (rememberConfirmed editionId reference) := by
  cases reference with
  | none => trivial
  | some reference =>
    refine ⟨rfl, (chainOnly_select _).bind fun stored => ?_⟩
    cases stored with
    | none => trivial
    | some stored =>
      dsimp only
      split <;> trivial

theorem chainOnly_createRefinedEdition (userId : UserId) (target : QuickAddExternalEditionTarget)
    (confirmed : ConfirmedExternalEdition) :
    ChainOnly (createRefinedEdition env userId target confirmed) :=
  (chainOnly_createWorkFromSource env _ _).bind fun _ => chainOnly_createManual env _ _

theorem chainOnly_externalEditionId (userId : UserId) (target : QuickAddExternalEditionTarget)
    (confirmed : Option ConfirmedExternalEdition) :
    ChainOnly (externalEditionId env userId target confirmed) := by
  refine (chainOnly_findLocal _ _).bind fun found => ?_
  cases found.editionId with
  | some editionId =>
    show ChainOnly (foundEditionId _ _ _ _)
    unfold foundEditionId
    split
    · trivial
    · dsimp only
      split
      · exact (chainOnly_rememberConfirmed _ _).bind fun _ => trivial
      · trivial
  | none =>
    cases confirmed with
    | none => trivial
    | some confirmed =>
      show ChainOnly (createdEditionId env userId target (some confirmed))
      unfold createdEditionId
      dsimp only
      split
      · exact (chainOnly_createRefinedEdition env _ _ _).bind fun _ =>
          (chainOnly_rememberConfirmed _ _).bind fun _ => trivial
      · exact (chainOnly_createFromExternal env _ _ _).bind fun _ =>
          (chainOnly_rememberConfirmed _ _).bind fun _ => trivial

theorem chainOnly_workOfRecord (userId : UserId) (key : ExternalReferenceKey)
    (confirmed : Option ConfirmedExternalWork) (known : Option KnownExternalWork) :
    ChainOnly (workOfRecord env userId key confirmed known) := by
  cases known with
  | some known => exact chainOnly_select _
  | none =>
    cases confirmed with
    | none => trivial
    | some confirmed =>
      exact (chainOnly_createWorkFromSource env _ _).bind fun _ => ⟨rfl, trivial⟩

theorem chainOnly_externalWorkEditionId (userId : UserId) (target : QuickAddExternalWorkTarget)
    (confirmed : Option ConfirmedExternalWork) :
    ChainOnly (externalWorkEditionId env userId target confirmed) := by
  refine Script.Only.bind (show ChainOnly (.acquire _) from trivial) fun _ => ?_
  refine (chainOnly_select _).bind fun known => ?_
  split
  · trivial
  · refine (chainOnly_workOfRecord env _ _ _ _).bind fun workId => ?_
    split
    · exact chainOnly_createManual env _ _
    · unfold unspecifiedEditionId
      split
      · trivial
      · exact (chainOnly_createUnspecifiedEdition _ _ _).bind fun _ => ⟨rfl, trivial⟩

/-- **The edition of a target is found or made without a copy and without an operation.** -/
theorem chainOnly_editionIdFor (userId : UserId) (target : QuickAddTarget)
    (prepared : PreparedExternal) : ChainOnly (editionIdFor env userId target prepared) := by
  cases target with
  | existingEdition editionId =>
    refine (chainOnly_select _).bind fun edition => ?_
    cases edition <;> trivial
  | manual target => exact chainOnly_createManual env _ _
  | externalEdition target => exact chainOnly_externalEditionId env _ _ _
  | externalWork target => exact chainOnly_externalWorkEditionId env _ _ _

end ChainOnly

/-! ## Steps -/

namespace QuickAdding

variable {env : QuickAddEnv} {answers : Provider → Prop} {s s' : QuickAdding} {op : QuickAddingOp}

/-- The call `r` may go on in the phase `ph'`: what it has of rows and locks it had, or it is one
that nobody has. -/
structure Moves (s : QuickAdding) (r : RequestId) (call : QuickAddCall) (ph' : QuickAddPhase) :
    Prop where
  same : ∀ call₀ ph, s.calls r = some (call₀, ph) → call₀ = call
  writes : ph'.writes = [] ∨ ∃ ph, s.calls r = some (call, ph) ∧ (ph'.writes = ph.writes ∨
    ∃ x, ph'.writes = x :: ph.writes ∧ ∀ key ∈ x.keys, ¬ s.Pending r key ∧
      catalogSchema.taken (catalogSchema.view s.db ph.writes) key = false)
  locks : ph'.locks = [] ∨ ∃ ph, s.calls r = some (call, ph) ∧ (ph'.locks = ph.locks ∨
    ∃ n, ph'.locks = n :: ph.locks ∧ ¬ s.Held r n)

/-- A call that holds nothing. -/
theorem Moves.bare {r : RequestId} {call : QuickAddCall} {ph' : QuickAddPhase}
    (hsame : ∀ call₀ ph, s.calls r = some (call₀, ph) → call₀ = call) (hw : ph'.writes = [])
    (hl : ph'.locks = []) : s.Moves r call ph' :=
  ⟨hsame, Or.inl hw, Or.inl hl⟩

/-- A call that is known is the same call. -/
theorem same_of_eq {r : RequestId} {call : QuickAddCall} {ph : QuickAddPhase}
    (h : s.calls r = some (call, ph)) :
    ∀ call₀ ph₀, s.calls r = some (call₀, ph₀) → call₀ = call := by
  intro call₀ ph₀ h₀
  rw [h] at h₀
  cases h₀
  rfl

/-- What a commit does. -/
def afterCommit (s : QuickAdding) (r : RequestId) (call : QuickAddCall) (response : QuickAddResponse)
    (ws : List CatalogWrite) : QuickAdding :=
  { s.move r call (.answered (.ok response)) with
    db := catalogSchema.view s.db ws
    commits := ⟨r, call.userId, call.request.operationId, ws⟩ :: s.commits }

/-- **What a step can do**: one call moves, one call commits, or somebody else does. -/
theorem Step.cases (h : Step env answers s op s') :
    (∃ r call ph, s' = s.move r call ph ∧ s.Moves r call ph) ∨
    (∃ r call attempt prepared response ls ws,
      s.calls r = some (call, .transacting attempt prepared ⟨.done response, ls, ws⟩) ∧
      s' = s.afterCommit r call response ws) ∨
    ∃ db, s' = { s with db := db } ∧ Elsewhere s.db db ∧
      ∀ r call ph, s.calls r = some (call, ph) → catalogSchema.Free ph.writes db := by
  cases h with
  | @post r call isbnFirst hr =>
    refine Or.inl ⟨r, call, _, rfl, .bare (fun call₀ ph h => ?_) rfl rfl⟩
    rw [hr] at h
    cases h
  | prepare hr _ => exact Or.inl ⟨_, _, _, rfl, .bare (same_of_eq hr) rfl rfl⟩
  | begin hr => exact Or.inl ⟨_, _, _, rfl, .bare (same_of_eq hr) rfl rfl⟩
  | statement hr hstep =>
    refine Or.inl ⟨_, _, _, rfl, same_of_eq hr, Or.inr ⟨_, hr, hstep.keys⟩,
      Or.inr ⟨_, hr, hstep.locks⟩⟩
  | commit hr => exact Or.inr (Or.inl ⟨_, _, _, _, _, _, _, hr, rfl⟩)
  | failPreparing hr => exact Or.inl ⟨_, _, _, rfl, .bare (same_of_eq hr) rfl rfl⟩
  | fail hr => exact Or.inl ⟨_, _, _, rfl, .bare (same_of_eq hr) rfl rfl⟩
  | @refuse r call attempt now prepared tx key hr _ =>
    refine Or.inl ⟨r, call, _, rfl, .bare (same_of_eq hr) ?_ ?_⟩ <;> split <;> rfl
  | timeout hr => exact Or.inl ⟨_, _, _, rfl, .bare (same_of_eq hr) rfl rfl⟩
  | crashPreparing hr => exact Or.inl ⟨_, _, _, rfl, .bare (same_of_eq hr) rfl rfl⟩
  | crash hr => exact Or.inl ⟨_, _, _, rfl, .bare (same_of_eq hr) rfl rfl⟩
  | elsewhere hdb hfree => exact Or.inr (Or.inr ⟨_, rfl, hdb, hfree⟩)

theorem move_calls (r q : RequestId) (call : QuickAddCall) (ph : QuickAddPhase) :
    (s.move r call ph).calls q = if q = r then some (call, ph) else s.calls q := by
  simp [move, Function.update_apply]

theorem afterCommit_calls {r : RequestId} {call : QuickAddCall} {response : QuickAddResponse}
    {ws : List CatalogWrite} :
    (s.afterCommit r call response ws).calls r = some (call, .answered (.ok response)) := by
  simp [afterCommit, move]

/-! ## Keys and locks -/

/-- The rows and the locks of the calls are apart, and the rows free of what is committed. -/
structure Apart (s : QuickAdding) : Prop where
  free : ∀ r call ph, s.calls r = some (call, ph) → catalogSchema.Free ph.writes s.db
  keys : ∀ r call ph, s.calls r = some (call, ph) →
    ∀ key ∈ catalogSchema.keysOf ph.writes, ¬ s.Pending r key
  locks : ∀ r call ph, s.calls r = some (call, ph) → ∀ n ∈ ph.locks, ¬ s.Held r n

/-- Being apart is mutual. -/
theorem Apart.of_disjoint
    (hfree : ∀ r call ph, s.calls r = some (call, ph) → catalogSchema.Free ph.writes s.db)
    (hkeys : ∀ r q call₁ ph₁ call₂ ph₂, r ≠ q → s.calls r = some (call₁, ph₁) →
      s.calls q = some (call₂, ph₂) → ∀ key ∈ catalogSchema.keysOf ph₁.writes,
        key ∉ catalogSchema.keysOf ph₂.writes)
    (hlocks : ∀ r q call₁ ph₁ call₂ ph₂, r ≠ q → s.calls r = some (call₁, ph₁) →
      s.calls q = some (call₂, ph₂) → ∀ n ∈ ph₁.locks, n ∉ ph₂.locks) : s.Apart := by
  refine ⟨hfree, fun r call ph hr key hkey => ?_, fun r call ph hr n hn => ?_⟩
  · rintro ⟨q, call', ph', hne, hq, hkey'⟩
    exact hkeys r q call ph call' ph' hne.symm hr hq key hkey hkey'
  · rintro ⟨q, call', ph', hne, hq, hn'⟩
    exact hlocks r q call ph call' ph' hne.symm hr hq n hn hn'

theorem Apart.move {r : RequestId} {call : QuickAddCall} {ph : QuickAddPhase} (ha : s.Apart)
    (hm : s.Moves r call ph) : (s.move r call ph).Apart := by
  -- what the call has now it had, or nobody has
  have hkey : ∀ key ∈ catalogSchema.keysOf ph.writes, ¬ s.Pending r key := by
    intro key hkey
    rcases hm.writes with hnil | ⟨ph₀, h₀, hsame | ⟨x, hcons, hx⟩⟩
    · rw [hnil] at hkey
      cases hkey
    · rw [hsame] at hkey
      exact ha.keys r call ph₀ h₀ key hkey
    · rw [hcons] at hkey
      rcases List.mem_append.mp hkey with hkey | hkey
      · exact (hx key hkey).1
      · exact ha.keys r call ph₀ h₀ key hkey
  have hlock : ∀ n ∈ ph.locks, ¬ s.Held r n := by
    intro n hn
    rcases hm.locks with hnil | ⟨ph₀, h₀, hsame | ⟨m, hcons, hfresh⟩⟩
    · rw [hnil] at hn
      cases hn
    · rw [hsame] at hn
      exact ha.locks r call ph₀ h₀ n hn
    · rw [hcons] at hn
      rcases List.mem_cons.mp hn with rfl | hn
      · exact hfresh
      · exact ha.locks r call ph₀ h₀ n hn
  refine Apart.of_disjoint ?_ ?_ ?_
  · intro q call' ph' hq
    rw [move_calls] at hq
    split at hq
    · cases hq
      rcases hm.writes with hnil | ⟨ph₀, h₀, hsame | ⟨x, hcons, hx⟩⟩
      · rw [hnil]
        exact catalogSchema.free_nil _
      · rw [hsame]
        exact ha.free r _ ph₀ h₀
      · rw [hcons]
        exact (ha.free r _ ph₀ h₀).cons fun key hkey => (hx key hkey).2
    · exact ha.free q call' ph' hq
  · intro p q call₁ ph₁ call₂ ph₂ hne hp hq key h₁ h₂
    rw [move_calls] at hp hq
    split at hp
    next hpr =>
      cases hp
      rw [if_neg fun h => hne (hpr.trans h.symm)] at hq
      exact hkey key h₁ ⟨q, call₂, ph₂, fun h => hne (hpr.trans h.symm), hq, h₂⟩
    next hpr =>
      split at hq
      next hqr =>
        cases hq
        exact hkey key h₂ ⟨p, call₁, ph₁, hpr, hp, h₁⟩
      · exact ha.keys p call₁ ph₁ hp key h₁ ⟨q, call₂, ph₂, hne.symm, hq, h₂⟩
  · intro p q call₁ ph₁ call₂ ph₂ hne hp hq n h₁ h₂
    rw [move_calls] at hp hq
    split at hp
    next hpr =>
      cases hp
      rw [if_neg fun h => hne (hpr.trans h.symm)] at hq
      exact hlock n h₁ ⟨q, call₂, ph₂, fun h => hne (hpr.trans h.symm), hq, h₂⟩
    next hpr =>
      split at hq
      next hqr =>
        cases hq
        exact hlock n h₂ ⟨p, call₁, ph₁, hpr, hp, h₁⟩
      · exact ha.locks p call₁ ph₁ hp n h₁ ⟨q, call₂, ph₂, hne.symm, hq, h₂⟩

theorem Apart.step (ha : s.Apart) (h : Step env answers s op s') : s'.Apart := by
  rcases h.cases with ⟨r, call, ph, rfl, hm⟩ |
    ⟨r, call, attempt, prepared, response, ls, ws, hr, rfl⟩ | ⟨db, rfl, -, hfree⟩
  · exact ha.move hm
  · have hm : s.Moves r call (.answered (.ok response)) := .bare (same_of_eq hr) rfl rfl
    have hmoved := ha.move hm
    refine ⟨?_, hmoved.keys, hmoved.locks⟩
    intro q call' ph' hq key hkey
    refine Bool.eq_false_iff.mpr fun htaken => ?_
    rcases catalogSchema.taken_view.mp htaken with hin | hdb
    · change (s.move r call _).calls q = _ at hq
      rw [move_calls] at hq
      split at hq
      · cases hq
        cases hkey
      next hne =>
        exact ha.keys q call' ph' hq key hkey ⟨r, call, _, Ne.symm hne, hr, hin⟩
    · have hfree := hmoved.free q call' ph' hq key hkey
      change catalogSchema.taken s.db key = false at hfree
      rw [hdb] at hfree
      cases hfree
  · exact ⟨hfree, ha.keys, ha.locks⟩

theorem Init.apart (h : s.Init) : s.Apart := by
  refine ⟨fun r call ph hr => ?_, fun r call ph hr => ?_, fun r call ph hr => ?_⟩ <;>
    · rw [h.no_calls] at hr
      cases hr

end QuickAdding

/-- **Rows and locks are apart in every run.** -/
theorem quickAdding_apart {env : QuickAddEnv} {answers : Provider → Prop} {s : QuickAdding}
    (hr : (quickAdding env answers).Reachable s) : s.Apart :=
  hr.invariant (I := QuickAdding.Apart) (fun _ hi => QuickAdding.Init.apart hi)
    fun _ _ _ _ ha h => ha.step h

end Bookswap
