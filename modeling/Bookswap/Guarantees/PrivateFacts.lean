import Bookswap.Guarantees.NetworkPages
import Bookswap.Library.PublicView

/-!
# Private facts do not leak

Five pages tell a viewer about the copies of others: the shelf of an owner, the holders of a work,
the search in the network, the history of a copy and that of a work. Each answers from what the
viewer may know (`Db.maskedFor`), so two databases that do not differ there give the same answers.

- `listOf_masked`, `loadInventory_masked`, `copyHistory_masked`, `workHistory_masked`: the pages.
- `private_facts_stay`: **the answers are a function of what the viewer may know**.
-/

namespace Bookswap

open Store Checked

variable {db : Db} {viewerId : UserId} {cat : CatalogDb} {c : Copy} {owner : User}

/-! ## The shelf of an owner -/

/-- One copy after the other. -/
theorem visibleCopies_eq : db.visibleCopies cat viewerId owner =
    db.copies.rows.filterMap fun c =>
      if c.ownerId = owner.id ∧ c.archivedAt = none ∧ copyVisibleTo (db.roleOf viewerId owner.id)
        owner.libraryVisibility c.visibility = true then cat.join (db.copyRow c) else none := by
  unfold Db.visibleCopies Db.findCopies
  rw [List.filterMap_filter, List.filter_filterMap]
  refine List.filterMap_congr fun c _ => ?_
  by_cases hown : c.ownerId = owner.id ∧ c.archivedAt = none
  · rw [if_pos (decide_eq_true hown)]
    cases hjoin : cat.join (db.copyRow c) with
    | none => simp
    | some r =>
      rw [Option.filter_some, (CatalogDb.join_eq_some.mp hjoin).1]
      refine if_congr ?_ rfl rfl
      exact ⟨fun h => ⟨hown.1, hown.2, h⟩, fun h => h.2.2⟩
  · rw [if_neg (fun h => hown (of_decide_eq_true h)), if_neg fun h => hown ⟨h.1, h.2.1⟩]
    rfl

theorem visibleCopies_masked (howner : db.users.find? owner.id = some owner) :
    (db.maskedFor viewerId false).visibleCopies cat viewerId owner =
      (db.visibleCopies cat viewerId owner).map (db.maskShelf viewerId false) := by
  rw [visibleCopies_eq, visibleCopies_eq, List.map_filterMap]
  show ((db.copies.rows.filter (db.seesCopy viewerId false)).map (db.maskCopy viewerId)).filterMap
    _ = _
  rw [List.filterMap_map, List.filterMap_filter]
  refine List.filterMap_congr fun c _ => ?_
  rw [Function.comp_apply, join_masked]
  by_cases hown : c.ownerId = owner.id
  · have hsees := @seesCopy_iff db viewerId false c owner (hown ▸ howner)
    rw [hown] at hsees
    by_cases hseen : db.seesCopy viewerId false c = true
    · obtain ⟨harch, hvisible⟩ := hsees.mp hseen
      have harch := harch.resolve_left Bool.false_ne_true
      rw [if_pos hseen, if_pos ⟨hown, rfl, copyVisibleTo_pub hvisible⟩,
        if_pos ⟨hown, harch, hvisible⟩]
    · rw [if_neg hseen, if_neg fun h => hseen (hsees.mpr ⟨.inr h.2.1, h.2.2⟩)]
      rfl
  · rw [if_neg (fun h => hown h.1 : ¬(c.ownerId = owner.id ∧ c.archivedAt = none ∧ _))]
    split
    · rw [if_neg fun h => hown h.1]
      rfl
    · rfl

/-- **The shelf of an owner tells what the viewer may know.** -/
theorem listOf_masked {localeCompare : String → String → Int}
    {wishlisted : UserId → WorkId → Bool}
    (hone : db.OneActiveLoan) (ownerId : UserId) :
    listOf localeCompare wishlisted cat (db.maskedFor viewerId false) viewerId
        ownerId = listOf localeCompare wishlisted cat db viewerId ownerId := by
  have hgroups : ∀ owner, db.users.find? ownerId = some owner →
      groupByEdition localeCompare (fun row => toVisibleCopy row
          ((db.maskedFor viewerId false).viewerOf viewerId owner))
          ((db.maskedFor viewerId false).visibleCopies cat viewerId owner) =
        groupByEdition localeCompare (fun row => toVisibleCopy row
          (db.viewerOf viewerId owner)) (db.visibleCopies cat viewerId owner) := by
    intro owner howner
    obtain rfl := Table.key_of_find? howner
    rw [visibleCopies_masked howner]
    refine groupByEdition_map _ unshown_maskShelf fun r hr => ?_
    obtain ⟨c, hc, hown, harch, hvisible, hjoin⟩ := mem_visibleCopies.mp hr
    rw [← hown] at howner hvisible
    have hsees : db.seesCopy viewerId false c = true :=
      (seesCopy_iff howner).mpr ⟨.inr harch, hvisible⟩
    unfold Db.maskShelf
    rw [(CatalogDb.join_eq_some.mp hjoin).1]
    exact toVisibleCopy_masked hone hc hsees howner
  unfold listOf
  show (orThrow (db.users.find? ownerId) _ >>= _) = (orThrow (db.users.find? ownerId) _ >>= _)
  cases howner : db.users.find? ownerId with
  | none => rfl
  | some owner =>
    show (throwIf _ _ >>= _) = (throwIf _ _ >>= _)
    simp only [hgroups owner howner, roleOf_masked]
    rfl

/-! ## The network -/

/-- One copy after the other. -/
theorem loadInventory_eq_filterMap {f : InventoryFilter} : loadInventory cat db viewerId f =
    db.copies.rows.filterMap fun c =>
      if f.onCopy c = true then (inventoryRow cat db f c).bind fun r =>
        if f.shows (db.roleOf viewerId c.ownerId) r = true then
          some (inventoryCopy viewerId (db.roleOf viewerId c.ownerId) r) else none
      else none := by
  rw [loadInventory_eq]
  unfold inventoryRows
  rw [List.filterMap_filter, List.filter_filterMap, List.map_filterMap]
  refine List.filterMap_congr fun c _ => ?_
  by_cases hon : f.onCopy c = true
  · rw [if_pos hon, if_pos hon]
    cases hrow : inventoryRow cat db f c with
    | none => rfl
    | some r =>
      rw [Option.filter_some, Option.bind_some, (copy_of_inventoryRow hrow).1]
      split
      · rw [Option.map_some, (copy_of_inventoryRow hrow).1]
      · rfl
  · rw [if_neg hon, if_neg hon]
    rfl

/-- The masked row of a copy that the viewer sees. -/
theorem inventoryRow_masked {f : InventoryFilter} :
    inventoryRow cat (db.maskedFor viewerId false) f (db.maskCopy viewerId c) =
      (inventoryRow cat db f c).map fun r =>
        { r with shelf := db.maskShelf viewerId false r.shelf } := by
  unfold inventoryRow
  rw [join_masked]
  cases cat.join (db.copyRow c) with
  | none => rfl
  | some shelf =>
    show ((db.users.find? c.ownerId).bind _) = ((db.users.find? c.ownerId).bind _).map _
    cases db.users.find? c.ownerId with
    | none => rfl
    | some owner =>
      show (if f.onEdition shelf.edition shelf.work = true then _ else none) =
        (if f.onEdition shelf.edition shelf.work = true then _ else none).map _
      split <;> rfl

/-- **The network tells what the viewer may know.** -/
theorem loadInventory_masked (hone : db.OneActiveLoan) (f : InventoryFilter) :
    loadInventory cat (db.maskedFor viewerId false) viewerId f =
      loadInventory cat db viewerId f := by
  rw [loadInventory_eq_filterMap, loadInventory_eq_filterMap]
  show ((db.copies.rows.filter (db.seesCopy viewerId false)).map (db.maskCopy viewerId)).filterMap
    _ = _
  rw [List.filterMap_map, List.filterMap_filter]
  refine List.filterMap_congr fun c hc => ?_
  rw [Function.comp_apply, inventoryRow_masked]
  cases hrow : inventoryRow cat db f c with
  | none =>
    show (if _ then (if _ then none else none) else none) = if _ then none else none
    simp only [ite_self]
  | some r =>
    obtain ⟨hcopy, hcopyRow⟩ := copy_of_inventoryRow hrow
    have howner := (inventoryRow_eq_some.mp hrow).2.1
    have hsees := @seesCopy_iff db viewerId false c r.owner howner
    by_cases hseen : db.seesCopy viewerId false c = true
    · obtain ⟨harch, hvisible⟩ := hsees.mp hseen
      have harch := harch.resolve_left Bool.false_ne_true
      have hon : f.onCopy (db.maskCopy viewerId c) = f.onCopy c := by
        rw [Bool.eq_iff_iff, InventoryFilter.onCopy_iff, InventoryFilter.onCopy_iff]
        exact and_congr_left fun _ => ⟨fun _ => harch, fun _ => rfl⟩
      have hshows : f.shows (db.roleOf viewerId c.ownerId)
          { r with shelf := db.maskShelf viewerId false r.shelf } =
            f.shows (db.roleOf viewerId c.ownerId) r := by
        rw [Bool.eq_iff_iff, InventoryFilter.shows_iff, InventoryFilter.shows_iff, hcopy]
        exact and_congr_right fun _ => ⟨fun _ => hvisible, fun _ => copyVisibleTo_pub hvisible⟩
      have hshown : inventoryCopy viewerId (db.roleOf viewerId c.ownerId)
          { r with shelf := db.maskShelf viewerId false r.shelf } =
            inventoryCopy viewerId (db.roleOf viewerId c.ownerId) r := by
        have hmasked : inventoryRow cat (db.maskedFor viewerId false) f (db.maskCopy viewerId c) =
            some { r with shelf := db.maskShelf viewerId false r.shelf } := by
          rw [inventoryRow_masked, hrow]
          rfl
        have hsame := toVisibleCopy_masked hone hc hseen howner
        rw [inventoryCopy_eq hrow, ← hsame]
        exact inventoryCopy_eq hmasked
      rw [if_pos hseen, hon]
      show (if f.onCopy c = true then if f.shows (db.roleOf viewerId c.ownerId) _ = true then
        some (inventoryCopy viewerId (db.roleOf viewerId c.ownerId) _) else none else none) = _
      rw [hshows, hshown]
      rfl
    · rw [if_neg hseen]
      by_cases hon : f.onCopy c = true
      · rw [if_pos hon, Option.bind_some, if_neg]
        intro hshows
        have hvisible := (InventoryFilter.shows_iff.mp hshows).2
        rw [hcopy] at hvisible
        exact hseen (hsees.mpr ⟨.inr (InventoryFilter.onCopy_iff.mp hon).1, hvisible⟩)
      · rw [if_neg hon]

/-! ## The history of a copy -/

variable {now : Time}

/-- A copy is found when the viewer may see it. -/
theorem find?_masked_copies {archived : Bool} {copyId : CopyId} :
    (db.maskedFor viewerId archived).copies.find? copyId =
      ((db.copies.find? copyId).filter (db.seesCopy viewerId archived)).map
        (db.maskCopy viewerId) := by
  show ((db.copies.filter _).map _).find? copyId = _
  rw [Table.find?_map, Table.find?_filter]

theorem namesShown_of_find? (howner : db.users.find? c.ownerId = some owner) :
    db.namesShown viewerId c.ownerId =
      holderNamesVisibleTo (db.roleOf viewerId c.ownerId) owner.showHolderNames := by
  unfold Db.namesShown
  rw [howner]
  rfl

/-- **The history of a copy tells what the viewer may know**, but for copies of owners with whom the
viewer is blocked: these are refused as blocked, and others as not found. -/
theorem copyHistory_masked {copyId : CopyId} (howned : ∀ c ∈ db.copies, ∃ u,
      db.users.find? c.ownerId = some u)
    (hblocked : ∀ c ∈ db.copies, c.id = copyId → db.roleOf viewerId c.ownerId ≠ .blocked) :
    copyHistory cat (db.maskedFor viewerId true) now viewerId copyId =
      copyHistory cat db now viewerId copyId := by
  unfold copyHistory
  rw [find?_masked_copies]
  cases hfind : db.copies.find? copyId with
  | none => rfl
  | some c =>
    have hc := Table.mem_of_find? hfind
    obtain rfl := Table.key_of_find? hfind
    obtain ⟨owner, howner⟩ := howned c hc
    have hrole := hblocked c hc rfl
    have hsees := @seesCopy_iff db viewerId true c owner howner
    by_cases hseen : db.seesCopy viewerId true c = true
    · have hvisible := (hsees.mp hseen).2
      have hhistory : ∀ showNames, showNames = holderNamesVisibleTo (db.roleOf viewerId c.ownerId)
          owner.showHolderNames → (db.maskedFor viewerId true).historyOf now
            (fun l => isVisibleToParty l viewerId) showNames c.id =
              db.historyOf now (fun l => isVisibleToParty l viewerId) showNames c.id := by
        rintro _ rfl
        refine historyOf_masked hfind hseen (fun _ h => h) (fun _ => isVisibleToParty_mask) ?_
        rw [namesShown_of_find? howner]
        exact id
      -- the guards ask the same of the masked copy
      rw [Option.filter_some, if_pos hseen, Option.map_some]
      show (orThrow (db.users.find? c.ownerId) _ >>= _) =
        (orThrow (db.users.find? c.ownerId) _ >>= _)
      rw [howner]
      show (throwIf (db.roleOf viewerId c.ownerId = .blocked) _ >>= _) =
        (throwIf (db.roleOf viewerId c.ownerId = .blocked) _ >>= _)
      refine congrArg _ (funext fun _ => ?_)
      show (throwIf (copyVisibleTo (db.roleOf viewerId c.ownerId) owner.libraryVisibility .pub =
          false) _ >>= _) =
        (throwIf (copyVisibleTo (db.roleOf viewerId c.ownerId) owner.libraryVisibility
          c.visibility = false) _ >>= _)
      rw [copyVisibleTo_pub hvisible, hvisible]
      refine congrArg _ (funext fun _ => congrArg _ (funext fun _ => ?_))
      rw [join_masked]
      cases cat.join (db.copyRow c) with
      | none => rfl
      | some r =>
        exact congrArg (fun es => Except.ok (CopyHistory.mk (toHistoryCopy r) es)) (hhistory _ rfl)
    · have hhidden : copyVisibleTo (db.roleOf viewerId c.ownerId) owner.libraryVisibility
          c.visibility = false :=
        Bool.eq_false_iff.mpr fun h => hseen (hsees.mpr ⟨.inl rfl, h⟩)
      rw [Option.filter_some, if_neg hseen, Option.map_none]
      show Except.error _ = (orThrow (db.users.find? c.ownerId) _ >>= _)
      rw [howner]
      simp only [orThrow, ok_bind, throwIf, if_neg hrole, if_pos hhidden]
      rfl

/-! ## The history of a work -/

theorem copyOfWork_masked {workId : WorkId} {archived : Bool} :
    (db.maskedFor viewerId archived).copyOfWork cat workId (db.maskCopy viewerId c) =
      (db.copyOfWork cat workId c).map fun x => (db.maskShelf viewerId archived x.1, x.2) := by
  unfold Db.copyOfWork
  rw [join_masked]
  cases cat.join (db.copyRow c) with
  | none => rfl
  | some r =>
    show (if r.edition.workId = workId then (db.users.find? c.ownerId).map _ else none) =
      (if r.edition.workId = workId then (db.users.find? c.ownerId).map _ else none).map _
    split
    · rw [Option.map_map]
      rfl
    · rfl

/-- A handover that took place is a fact. -/
theorem isVisibleToParty_of_handover {l : Loan} (h : l.isActualHandover = true) :
    isVisibleToParty l viewerId = true := by
  refine isVisibleToParty_iff.mpr fun hclaim => ?_
  have hstatus := (of_decide_eq_true h).1
  unfold Loan.isClaim at hclaim
  rcases hstatus with hs | hs | hs <;> simp [hs] at hclaim

theorem copyOfWork_eq_some {workId : WorkId} {x : ShelfRow × User}
    (h : db.copyOfWork cat workId c = some x) :
    cat.join (db.copyRow c) = some x.1 ∧ db.users.find? c.ownerId = some x.2 := by
  unfold Db.copyOfWork at h
  obtain ⟨r, hr, hx⟩ := Option.bind_eq_some_iff.mp h
  obtain ⟨-, hx⟩ := Option.ite_none_right_eq_some.mp hx
  obtain ⟨owner, howner, rfl⟩ := Option.map_eq_some_iff.mp hx
  exact ⟨hr, howner⟩

/-- What a copy that the viewer sees adds. -/
theorem workEntries_masked {r : ShelfRow} (hc : db.copies.find? c.id = some c)
    (hseen : db.seesCopy viewerId true c = true) (hrow : r.row = db.copyRow c)
    (howner : db.users.find? c.ownerId = some owner) :
    (db.maskedFor viewerId true).workEntries now (db.roleOf viewerId c.ownerId)
        (db.maskShelf viewerId true r) owner =
      db.workEntries now (db.roleOf viewerId c.ownerId) r owner := by
  have hvisible := ((seesCopy_iff howner).mp hseen).2
  have hcopy : r.row.copy = c := congrArg CopyRow.copy hrow
  have hhistory : (db.maskedFor viewerId true).historyOf now Loan.isActualHandover
      (holderNamesVisibleTo (db.roleOf viewerId c.ownerId) owner.showHolderNames) c.id =
        db.historyOf now Loan.isActualHandover
          (holderNamesVisibleTo (db.roleOf viewerId c.ownerId) owner.showHolderNames) c.id := by
    refine historyOf_masked hc hseen (fun _ => isVisibleToParty_of_handover) (fun _ => rfl) ?_
    rw [namesShown_of_find? howner]
    exact id
  have hid : (db.maskShelf viewerId true r).row.copy.id = c.id :=
    (unshown_maskShelf.id r).trans (congrArg Copy.id hcopy)
  have hedition : (db.maskShelf viewerId true r).edition = r.edition := rfl
  have hpub : (db.maskShelf viewerId true r).row.copy.visibility = .pub := rfl
  unfold Db.workEntries
  rw [hid, hedition, hpub, hhistory, hcopy]
  refine if_congr (and_congr_left fun _ => ?_) rfl rfl
  exact ⟨fun _ => hvisible, copyVisibleTo_pub⟩

/-- **The history of a work tells what the viewer may know.** -/
theorem workHistory_masked {workId : WorkId} :
    workHistory cat (db.maskedFor viewerId true) now viewerId workId =
      workHistory cat db now viewerId workId := by
  rw [workHistory_eq, workHistory_eq]
  refine congrArg (fun entries => (orThrow (cat.work? workId) _).map fun work =>
    WorkHistory.mk work entries) ?_
  unfold Db.copiesOfWork
  show (((db.copies.rows.filter (db.seesCopy viewerId true)).map (db.maskCopy viewerId)).filterMap
    _).flatMap _ = _
  rw [List.filterMap_map, List.filterMap_filter]
  have hrows : ∀ cs : List Copy, (∀ c ∈ cs, c ∈ db.copies) →
      (cs.filterMap fun c => if db.seesCopy viewerId true c = true then
          (db.maskedFor viewerId true).copyOfWork cat workId (db.maskCopy viewerId c)
        else none).flatMap (fun x => (db.maskedFor viewerId true).workEntries now
          (db.roleOf viewerId x.1.row.copy.ownerId) x.1 x.2) =
      (cs.filterMap (db.copyOfWork cat workId)).flatMap fun x =>
        db.workEntries now (db.roleOf viewerId x.1.row.copy.ownerId) x.1 x.2 := by
    intro cs
    induction cs with
    | nil => exact fun _ => rfl
    | cons c cs ih =>
      intro hmem
      have ih := ih fun c' hc' => hmem c' (List.mem_cons_of_mem c hc')
      have hc := hmem c List.mem_cons_self
      rw [List.filterMap_cons, List.filterMap_cons]
      cases hx : db.copyOfWork cat workId c with
      | none =>
        rw [copyOfWork_masked, hx]
        simpa using ih
      | some x =>
        obtain ⟨hjoin, howner⟩ := copyOfWork_eq_some hx
        have hrow := (CatalogDb.join_eq_some.mp hjoin).1
        have hown : x.1.row.copy.ownerId = c.ownerId := by rw [hrow]; rfl
        have hmaskedOwn : (db.maskShelf viewerId true x.1).row.copy.ownerId = c.ownerId := hown
        by_cases hseen : db.seesCopy viewerId true c = true
        · rw [if_pos hseen, copyOfWork_masked, hx, Option.map_some]
          dsimp only
          rw [List.flatMap_cons, List.flatMap_cons, ih, hown, hmaskedOwn,
            workEntries_masked (Table.find?_of_mem hc) hseen hrow howner]
        · have hnothing : db.workEntries now (db.roleOf viewerId c.ownerId) x.1 x.2 = [] := by
            refine if_neg fun h => hseen ((seesCopy_iff howner).mpr ⟨.inl rfl, ?_⟩)
            rw [hrow] at h
            exact h.1
          rw [if_neg hseen]
          dsimp only
          rw [List.flatMap_cons, hown, hnothing, List.nil_append, ih]
  exact hrows _ fun c hc => hc

/-! ## Two databases -/

/-- What the pages show of the copies that are not archived is the same. -/
structure SameShelves (cat : CatalogDb) (viewerId : UserId) (db db' : Db) : Prop where
  listOf : ∀ localeCompare wishlisted ownerId,
    listOf localeCompare wishlisted cat db viewerId ownerId =
      listOf localeCompare wishlisted cat db' viewerId ownerId
  holders : ∀ localeCompare workId query,
    holders localeCompare cat db viewerId workId query =
      holders localeCompare cat db' viewerId workId query
  searchNetwork : ∀ localeCompare localeCompareUk collate localMatches query,
    searchNetwork localeCompare localeCompareUk collate localMatches cat db viewerId query =
      searchNetwork localeCompare localeCompareUk collate localMatches cat db' viewerId query

/-- Is the copy not one of an owner with whom the viewer is blocked? -/
def Db.notBlocked (db : Db) (viewerId : UserId) (copyId : CopyId) : Prop :=
  ∀ c ∈ db.copies, c.id = copyId → db.roleOf viewerId c.ownerId ≠ .blocked

/-- The histories are the same; archived copies have theirs too. -/
structure SameHistories (cat : CatalogDb) (viewerId : UserId) (db db' : Db) : Prop where
  copyHistory : ∀ now copyId, db.notBlocked viewerId copyId → db'.notBlocked viewerId copyId →
    copyHistory cat db now viewerId copyId = copyHistory cat db' now viewerId copyId
  workHistory : ∀ now workId,
    workHistory cat db now viewerId workId = workHistory cat db' now viewerId workId

variable {db' : Db}

theorem sameShelves (h : db.OneActiveLoan) (h' : db'.OneActiveLoan)
    (hmask : db.maskedFor viewerId false = db'.maskedFor viewerId false) :
    SameShelves cat viewerId db db' := by
  have hload : ∀ f, loadInventory cat db viewerId f = loadInventory cat db' viewerId f := by
    intro f
    rw [← loadInventory_masked h, ← loadInventory_masked h', hmask]
  refine ⟨fun localeCompare wishlisted ownerId => ?_, fun localeCompare workId query => ?_,
    fun localeCompare localeCompareUk collate localMatches query => ?_⟩
  · rw [← listOf_masked h, ← listOf_masked h', hmask]
  · unfold holders
    rw [hload]
  · unfold searchNetwork eligible
    rw [hload]

theorem sameHistories (h : db.Coherent) (h' : db'.Coherent)
    (hmask : db.maskedFor viewerId true = db'.maskedFor viewerId true) :
    SameHistories cat viewerId db db' := by
  refine ⟨fun now copyId hopen hopen' => ?_, fun now workId => ?_⟩
  · rw [← copyHistory_masked h.owned hopen, ← copyHistory_masked h'.owned hopen', hmask]
  · rw [← workHistory_masked, ← @workHistory_masked db', hmask]

/-- **The answers are a function of what the viewer may know**: two reachable databases that agree
there show the same shelves, the same holders, the same results and the same histories. -/
theorem private_facts_stay {secrets secrets' : GuestConfirmationSecrets} {w w' : World}
    (hr : (system secrets).Reachable w) (hr' : (system secrets').Reachable w') (cat : CatalogDb)
    (viewerId : UserId) :
    (w.db.maskedFor viewerId false = w'.db.maskedFor viewerId false →
        SameShelves cat viewerId w.db w'.db) ∧
      (w.db.maskedFor viewerId true = w'.db.maskedFor viewerId true →
        SameHistories cat viewerId w.db w'.db) := by
  have h := (reachable_coherent hr).db
  have h' := (reachable_coherent hr').db
  exact ⟨sameShelves h.oneActiveLoan h'.oneActiveLoan, sameHistories h h'⟩

/-- `exampleDb`, where the owner wrote a note and has a copy that nobody sees. -/
def exampleHidden : Db :=
  { exampleDb with
    copies := ⟨[{ exampleCopy with note := some "подарунок" },
      { exampleCopy with id := 11, visibility := .priv }], by decide⟩ }

theorem exampleHidden_init : World.Init ⟨exampleHidden, []⟩ where
  no_loans := rfl
  no_confirmations := rfl
  no_events := rfl
  no_notifications := rfl
  no_lookups := rfl
  idle := by
    intro c hc
    rcases List.mem_pair.mp hc with rfl | rfl <;> exact ⟨Or.inl rfl, rfl, rfl⟩
  owned := by
    intro c hc
    rcases List.mem_pair.mp hc with rfl | rfl <;> exact ⟨exampleOwner, rfl⟩

/-- The friend learns neither of the note nor of the copy. -/
theorem private_facts_stay_note : exampleHidden.copies ≠ exampleDb.copies ∧
    SameShelves exampleShelfCatalog 2 exampleDb exampleHidden ∧
      SameHistories exampleShelfCatalog 2 exampleDb exampleHidden := by
  have hr : (system exampleSecrets).Reachable ⟨exampleDb, []⟩ := .start example_init
  have hr' : (system exampleSecrets).Reachable ⟨exampleHidden, []⟩ := .start exampleHidden_init
  obtain ⟨hshelves, hhistories⟩ := private_facts_stay hr hr' exampleShelfCatalog 2
  refine ⟨fun h => ?_, hshelves rfl, hhistories rfl⟩
  have hlength := congrArg (fun t : Store.Table Copy.id => t.rows.length) h
  exact absurd hlength (by decide)

end Bookswap
