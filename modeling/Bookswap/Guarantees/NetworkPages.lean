import Bookswap.Guarantees.Progress
import Bookswap.Lib.PageSlices
import Bookswap.Search.NetworkPages
import Mathlib.Data.String.Basic

/-!
# What the pages of the network show

The library of one owner, the network of a viewer, the holders of a work and the search show the
copies of others. The first two say whether the viewer can ask for a copy, and `request` decides
it again; the last two group the network, and the search also cuts it into pages.

- `request_foretold`: **`canRequest` is true exactly when the request would commit**.
- `shelves_agree`: **the library pages and the network show the same copies, and say the same**.
- `holders_exact`: **the page of holders shows each copy of a friend once, and no other**.
- `search_complete`: **together the pages show each work once, with all its copies**.
-/

namespace Bookswap

open Store Checked

variable {db : Db} {viewerId : UserId} {copy : Copy} {owner : User} {cat : CatalogDb}

/-- A loan of a status that is open and not requested is exclusive. -/
theorem LoanStatus.openRank_eq_none {s : LoanStatus} (hr : s ≠ .requested)
    (hx : s.isExclusive ≠ true) : s.openRank = none := by
  cases s with
  | requested => exact absurd rfl hr
  | approved => exact absurd rfl hx
  | handedOver => exact absurd rfl hx
  | pendingConfirmation => exact absurd rfl hx
  | _ => rfl

/-- An available copy is at home, and nobody has an exclusive loan on it. -/
theorem Db.Coherent.available (h : db.Coherent) (hc : copy ∈ db.copies)
    (hs : copy.status = .available) : isHome copy = true ∧
      ∀ l ∈ db.loans, l.copyId = copy.id → l.status.isExclusive ≠ true := by
  have hfree := h.free_of_available hc hs
  have hidle := h.idle_of_free hc hfree
  refine ⟨decide_eq_true ⟨hidle.home, hidle.no_contact⟩, fun l hl hcopy hx => ?_⟩
  obtain ⟨t, ht⟩ := Loan.demand_of_exclusive (db.log l.id) hx
  rw [hfree l hl hcopy] at ht
  cases ht

/-- On an available copy, having no open loan is having no request. -/
theorem viewerLoanOf_eq_none_of_available (h : db.Coherent) (hc : copy ∈ db.copies)
    (hs : copy.status = .available) :
    viewerLoanOf (db.openLoansOf copy.id) viewerId = none ↔
      db.hasOwnRequest copy.id viewerId = false := by
  have hexclusive := (h.available hc hs).2
  rw [viewerLoanOf_eq_none_iff, Bool.eq_false_iff]
  unfold Db.hasOwnRequest Db.openLoansOf
  simp only [List.mem_filter, decide_eq_true_eq, List.any_eq_true, not_exists, ne_eq, not_and]
  constructor
  · intro hnone l hl hcopy hborrower hrequested
    have hrank := hnone l ⟨hl, hcopy, by rw [hrequested]; rfl⟩ hborrower
    rw [hrequested] at hrank
    cases hrank
  · rintro hnone l ⟨hl, hcopy, -⟩ hborrower
    exact LoanStatus.openRank_eq_none (hnone l hl hcopy hborrower) (hexclusive l hl hcopy)

/-- **The forecast checks what `request` checks**, of a copy that is shown. -/
theorem canRequestCopy_iff (h : db.Coherent) (hc : copy ∈ db.copies)
    (harch : copy.archivedAt = none)
    (hvisible : copyVisibleTo (db.roleOf viewerId copy.ownerId) owner.libraryVisibility
      copy.visibility = true) :
    canRequestCopy copy (db.openLoansOf copy.id) (db.roleOf viewerId copy.ownerId) viewerId
        owner.loanRequestsPaused = true ↔ RequestGuards db viewerId copy owner := by
  unfold canRequestCopy
  rw [decide_eq_true_eq]
  constructor
  · rintro ⟨hrole, hself, hpaused, hs, hhome, hnone⟩
    exact ⟨harch, hself, hrole, hvisible, hpaused, hs, (of_decide_eq_true hhome).1,
      (viewerLoanOf_eq_none_of_available h hc hs).mp hnone⟩
  · intro g
    exact ⟨g.role, g.not_self, g.not_paused, g.available, (h.available hc g.available).1,
      (viewerLoanOf_eq_none_of_available h hc g.available).mpr g.no_own_request⟩

/-- A well-formed request commits exactly under the guards. -/
theorem request_succeeds_iff (hc : db.copies.find? copy.id = some copy)
    (howner : db.users.find? copy.ownerId = some owner) {now : Time} {req : CreateLoanRequest}
    {id : LoanId} (hreq : req.copyId = copy.id) (hfresh : db.loans.find? id = none) :
    Succeeds (request now viewerId req id) db ↔ RequestGuards db viewerId copy owner := by
  constructor
  · rintro ⟨db', hok⟩
    obtain ⟨copy', owner', loans, hc', howner', g, -, -⟩ := request_eq_ok.mp hok
    rw [hreq, hc] at hc'
    obtain rfl := Option.some.inj hc'
    rw [howner] at howner'
    obtain rfl := Option.some.inj howner'
    exact g
  · intro g
    obtain ⟨loans, hins⟩ := Table.insert_of_fresh (a := requestRow now viewerId copy req id) hfresh
    exact ⟨_, request_eq_ok.mpr ⟨copy, owner, loans, hreq ▸ hc, howner, g, hins, rfl⟩⟩

/-- The answer foretells every well-formed request of the viewer for the copy. -/
def Db.Foretells (db : Db) (viewerId : UserId) (copyId : CopyId) (canRequest : Bool) : Prop :=
  ∀ (now : Time) (req : CreateLoanRequest) (id : LoanId), req.copyId = copyId →
    db.loans.find? id = none → (canRequest = true ↔ Succeeds (request now viewerId req id) db)

theorem Db.Coherent.foretells (h : db.Coherent) (hc : copy ∈ db.copies)
    (harch : copy.archivedAt = none) (howner : db.users.find? copy.ownerId = some owner)
    (hvisible : copyVisibleTo (db.roleOf viewerId copy.ownerId) owner.libraryVisibility
      copy.visibility = true) :
    db.Foretells viewerId copy.id (canRequestCopy copy (db.openLoansOf copy.id)
      (db.roleOf viewerId copy.ownerId) viewerId owner.loanRequestsPaused) := by
  intro now req id hreq hfresh
  rw [canRequestCopy_iff h hc harch hvisible,
    request_succeeds_iff (Table.find?_of_mem hc) howner hreq hfresh]

/-- **`canRequest` is true exactly when the request would commit**, in every reachable database,
on the shelf of an owner and in the network of the viewer. -/
theorem request_foretold {secrets : GuestConfirmationSecrets} {w : World}
    (hr : (system secrets).Reachable w) (cat : CatalogDb) (viewerId : UserId) :
    (∀ localeCompare wishlisted ownerId lib,
      listOf localeCompare wishlisted cat w.db viewerId ownerId = .ok lib →
        ∀ g ∈ lib.groups, ∀ c ∈ g.1.copies, w.db.Foretells viewerId c.id c.canRequest) ∧
    ∀ f, ∀ i ∈ loadInventory cat w.db viewerId f,
      w.db.Foretells viewerId i.copy.id i.copy.canRequest := by
  have h := (reachable_coherent hr).db
  refine ⟨fun localeCompare wishlisted ownerId lib hok g hg c hc => ?_,
    fun f i hi => ?_⟩
  · obtain ⟨owner, howner, -, -, rfl⟩ := listOf_eq_ok.mp hok
    obtain ⟨group, hgroup, rfl⟩ := List.mem_map.mp hg
    obtain ⟨r, hr, -, -, rfl⟩ := mem_shownGroups.mp ⟨group, hgroup, rfl, rfl, hc⟩
    obtain ⟨copy, hcopy, hown, harch, hvisible, hjoin⟩ := mem_visibleCopies.mp hr
    obtain ⟨hrow, -⟩ := CatalogDb.join_eq_some.mp hjoin
    obtain rfl := Table.key_of_find? howner
    rw [← hown] at hvisible howner
    have hforetells := h.foretells hcopy harch howner hvisible
    rw [hown] at hforetells
    rw [hrow]
    exact hforetells
  · obtain ⟨copy, hcopy, r, hon, hrow, hshows, rfl⟩ := mem_loadInventory.mp hi
    obtain ⟨rfl, hcopyRow⟩ := copy_of_inventoryRow hrow
    have howner := (inventoryRow_eq_some.mp hrow).2.1
    have harch := (of_decide_eq_true hon).1
    have hforetells := h.foretells hcopy harch howner (of_decide_eq_true hshows).2
    unfold inventoryCopy
    rw [hcopyRow]
    exact hforetells

/-- The catalogue of one edition. -/
def exampleShelfCatalog : CatalogDb where
  users := []
  authors := []
  works := [⟨200, "Місто", "місто", some "uk", none, none, 1, none⟩]
  workAuthors := []
  translations := []
  editions := [⟨exampleCopy.editionId, 200, none, .original, some "uk", none, none, none, none,
    none, none, 1⟩]
  editionReferences := []
  workReferences := []
  copies := []
  operations := []

/-- A friend finds a copy, and can ask for it. -/
theorem request_foretold_friend :
    ∃ i ∈ loadInventory exampleShelfCatalog exampleDb 2
        ⟨.circle, .available, none, none, none, none⟩,
      i.copy.canRequest = true ∧ exampleDb.Foretells 2 i.copy.id i.copy.canRequest := by
  have hload : (loadInventory exampleShelfCatalog exampleDb 2
      ⟨.circle, .available, none, none, none, none⟩).map (fun i => i.copy.canRequest) = [true] := by
    decide
  obtain ⟨i, hi, hcan⟩ := List.mem_map.mp (hload.symm ▸ List.mem_singleton_self true)
  have hr : (system exampleSecrets).Reachable ⟨exampleDb, []⟩ := .start example_init
  exact ⟨i, hi, hcan, (request_foretold hr exampleShelfCatalog 2).2 _ i hi⟩

/-! ## Two pages, one network -/

/-- Whoever may see a copy may see the library. -/
theorem isVisibleTo_of_copyVisibleTo {role : ViewerRole} {l c : Visibility}
    (h : copyVisibleTo role l c = true) : isVisibleTo role l = true := by
  cases role <;> cases l <;> cases c <;> first | rfl | cases h

/-- The catalogue rows that a copy is shown under, as the network has it. -/
def VisibleCopy.inNetwork (cat : CatalogDb) (role : ViewerRole) (owner : PublicUser) (e : Edition)
    (c : VisibleCopy) : InventoryCopy where
  copy := ⟨c.id, e.id, e.translationId, c.status, c.expectedReturnAt, c.canRequest⟩
  owner := owner
  relation := role.relation
  workId := e.workId
  textKind := e.textKind
  language := e.lang
  translator := (e.translationId.bind cat.translation?).map Translation.translator

/-- Does the filter let a copy of a shelf pass? -/
def InventoryFilter.passes (f : InventoryFilter) (role : ViewerRole) (e : Edition) (w : Work)
    (c : VisibleCopy) : Prop :=
  f.onEdition e w = true ∧ (f.availability = .available → c.status = .available) ∧
    (f.scope = .circle → role = .owner ∨ role = .friend)

theorem InventoryFilter.onCopy_iff {f : InventoryFilter} {c : Copy} :
    f.onCopy c = true ↔
      c.archivedAt = none ∧ (f.availability = .available → c.status = .available) :=
  decide_eq_true_iff

theorem InventoryFilter.shows_iff {f : InventoryFilter} {role : ViewerRole} {r : InventoryRow} :
    f.shows role r = true ↔ (f.scope = .circle → role = .owner ∨ role = .friend) ∧
      copyVisibleTo role r.owner.libraryVisibility r.copy.visibility = true := by
  unfold InventoryFilter.shows
  rw [decide_eq_true_eq]
  refine and_congr_left fun _ => ?_
  by_cases hs : f.scope = .circle
  · by_cases ho : role = .owner
    · simp [ho]
    · simp [hs, ho]
  · simp [hs]

/-- Both pages say the same of a copy. -/
theorem inventoryCopy_eq {f : InventoryFilter} {r : InventoryRow}
    (hrow : inventoryRow cat db f copy = some r) :
    inventoryCopy viewerId (db.roleOf viewerId copy.ownerId) r =
      (toVisibleCopy (db.copyRow copy) (db.viewerOf viewerId r.owner)).inNetwork cat
        (db.roleOf viewerId copy.ownerId) (toPublicUser r.owner) r.shelf.edition := by
  obtain ⟨hcopy, hcopyRow⟩ := copy_of_inventoryRow hrow
  obtain ⟨hjoin, howner, -, htranslation⟩ := inventoryRow_eq_some.mp hrow
  have hedition := CatalogDb.id_of_edition? (CatalogDb.join_eq_some.mp hjoin).2.1
  have hid := Table.key_of_find? howner
  unfold inventoryCopy VisibleCopy.inNetwork toVisibleCopy Db.viewerOf
  rw [hcopy, hcopyRow, htranslation, hedition, hid]
  rfl

/-- **The network of a viewer is what the shelves of all owners show, filtered**: the bulk queries,
the joins and the loop over all copies give what the page of each owner gives, copy for copy. -/
theorem shelves_agree (localeCompare : String → String → Int)
    (wishlisted : UserId → WorkId → Bool)
    (cat : CatalogDb) (db : Db) (viewerId : UserId) (f : InventoryFilter) :
    ((loadInventory cat db viewerId f).map fun i => i.copy.id).Nodup ∧
    ∀ i, i ∈ loadInventory cat db viewerId f ↔ ∃ lib,
      listOf localeCompare wishlisted cat db viewerId i.owner.id = .ok lib ∧
        ∃ g ∈ lib.groups, ∃ c ∈ g.1.copies,
          f.passes (db.roleOf viewerId lib.owner.id) g.1.edition g.1.work c ∧
          i = c.inNetwork cat (db.roleOf viewerId lib.owner.id) lib.owner g.1.edition := by
  refine ⟨nodup_loadInventory, fun i => ⟨fun hi => ?_, ?_⟩⟩
  · obtain ⟨copy, hcopy, r, hon, hrow, hshows, rfl⟩ := mem_loadInventory.mp hi
    obtain ⟨hjoin, howner, hedition, -⟩ := inventoryRow_eq_some.mp hrow
    obtain ⟨hrcopy, -⟩ := copy_of_inventoryRow hrow
    obtain ⟨harch, havailable⟩ := InventoryFilter.onCopy_iff.mp hon
    obtain ⟨hscope, hvisible⟩ := InventoryFilter.shows_iff.mp hshows
    have hid : r.owner.id = copy.ownerId := Table.key_of_find? howner
    rw [hrcopy] at hvisible
    rw [← hid] at howner hscope hvisible
    have hrole : db.roleOf viewerId r.owner.id ≠ .blocked := by
      intro hblocked
      rw [hblocked] at hvisible
      cases hvisible
    have hshelf : r.shelf ∈ db.visibleCopies cat viewerId r.owner :=
      mem_visibleCopies.mpr ⟨copy, hcopy, hid.symm, harch, hvisible, hjoin⟩
    obtain ⟨g, hg, hge, hgw, hc⟩ := mem_shownGroups.mpr ⟨_, hshelf, rfl, rfl, rfl⟩
    have hopen := isVisibleTo_of_copyVisibleTo hvisible
    refine ⟨_, listOf_eq_ok.mpr ⟨r.owner, howner, hrole, hopen, rfl⟩,
      (g, wishlisted viewerId g.work.id), List.mem_map.mpr ⟨g, hg, rfl⟩, _, hc, ?_, ?_⟩
    · rw [hge, hgw]
      refine ⟨hedition, ?_, hscope⟩
      rw [(CatalogDb.join_eq_some.mp hjoin).1]
      exact havailable
    · rw [inventoryCopy_eq hrow, hge, (CatalogDb.join_eq_some.mp hjoin).1, ← hid]
      rfl
  · rintro ⟨lib, hok, g, hg, c, hc, ⟨hedition, havailable, hscope⟩, hi⟩
    obtain ⟨owner, howner, -, -, rfl⟩ := listOf_eq_ok.mp hok
    obtain ⟨group, hgroup, rfl⟩ := List.mem_map.mp hg
    obtain ⟨r, hr, hre, hrw, rfl⟩ := mem_shownGroups.mp ⟨group, hgroup, rfl, rfl, hc⟩
    obtain ⟨copy, hcopy, hown, harch, hvisible, hjoin⟩ := mem_visibleCopies.mp hr
    obtain ⟨hrow, -⟩ := CatalogDb.join_eq_some.mp hjoin
    have hid : db.users.find? copy.ownerId = some owner := by
      rw [hown]
      exact Table.find?_of_mem (Table.mem_of_find? howner)
    have hinventory : inventoryRow cat db f copy =
        some ⟨r, owner, r.edition.translationId.bind cat.translation?⟩ :=
      inventoryRow_eq_some.mpr ⟨hjoin, hid, by rw [hre, hrw]; exact hedition, rfl⟩
    refine mem_loadInventory.mpr ⟨copy, hcopy, _, ?_, hinventory, ?_, ?_⟩
    · refine InventoryFilter.onCopy_iff.mpr ⟨harch, fun ha => ?_⟩
      have hs := havailable ha
      rw [hrow] at hs
      exact hs
    · refine InventoryFilter.shows_iff.mpr ⟨?_, ?_⟩
      · rw [hown]
        exact hscope
      · rw [hown, (copy_of_inventoryRow hinventory).1]
        exact hvisible
    · rw [inventoryCopy_eq hinventory, hi, ← hre, hrow, hown]
      rfl

/-! ## Who has this work -/

section Holders

open Comparator

variable {localeCompare : String → String → Int}

/-- What the page of the holders of a work shows. -/
structure HoldersShown (localeCompare : String → String → Int) (cat : CatalogDb) (db : Db)
    (viewerId : UserId) (workId : WorkId) (query : WorkHoldersQuery) : Prop where
  /-- No copy is shown twice. -/
  once : ((holdersShown (holders localeCompare cat db viewerId workId query)).map
    fun x => x.2.2.id).Nodup
  /-- Exactly the friends' copies are shown, each in the group of its edition. -/
  exact : ∀ key ownerId id,
    (∃ x ∈ holdersShown (holders localeCompare cat db viewerId workId query),
      x.1 = key ∧ x.2.1 = ownerId ∧ x.2.2.id = id) ↔
    ∃ c ∈ db.copies, ∃ r owner, HeldByFriend cat db viewerId workId query c r owner ∧
      r.edition.holderKey = key ∧ c.ownerId = ownerId ∧ c.id = id
  groups : ((holders localeCompare cat db viewerId workId query).map WorkHolderGroup.key).Nodup
  owners : ∀ g ∈ holders localeCompare cat db viewerId workId query,
    (g.owners.map fun o => o.owner.id).Nodup ∧ ∀ o ∈ g.owners, o.relation = .friend ∧
      o.availableCopies = o.copies.countP fun c => c.status = .available
  /-- Originals first, and texts of which nothing is known last. -/
  order : (holders localeCompare cat db viewerId workId query).Pairwise fun g g' =>
    g.textKind.order ≤ g'.textKind.order

/-- **The page of holders shows each copy of a friend once, and no other.** -/
theorem holders_exact (h : Comparator.Consistent localeCompare) (cat : CatalogDb) (db : Db)
    (viewerId : UserId) (workId : WorkId) (query : WorkHoldersQuery) :
    HoldersShown localeCompare cat db viewerId workId query := by
  have hperm := @holdersShown_perm localeCompare cat db viewerId workId query
  refine ⟨?_, fun key ownerId id => ?_, ?_, fun g hg => ?_, ?_⟩
  · refine (hperm.map _).nodup_iff.mpr ?_
    rw [List.map_map]
    exact (List.filter_sublist.map _).nodup nodup_loadInventory
  · simp only [hperm.mem_iff, List.mem_map, exists_exists_and_eq_and, mem_friendsInventory]
    constructor
    · rintro ⟨_, ⟨c, hc, r, owner, hheld, rfl⟩, hkey, howner, hid⟩
      refine ⟨c, hc, r, owner, hheld, hkey, ?_, ?_⟩
      · rw [← howner]
        exact (Store.Table.key_of_find? hheld.found).symm
      · rw [← hid]
        exact congrArg (fun row => row.copy.id) (CatalogDb.join_eq_some.mp hheld.joined).1.symm
    · rintro ⟨c, hc, r, owner, hheld, rfl, rfl, rfl⟩
      have hid : owner.id = c.ownerId := Store.Table.key_of_find? hheld.found
      refine ⟨_, ⟨c, hc, r, owner, hheld, rfl⟩, rfl, hid, ?_⟩
      exact congrArg (fun row => row.copy.id) (CatalogDb.join_eq_some.mp hheld.joined).1
  · refine ((Comparator.sortBy_perm _ _).map _).nodup_iff.mpr (Grouping.nodup_groups ?_ _)
    intro items g hg
    obtain ⟨first, hfirst, hkey, -⟩ := holderGroup_eq_some hg
    exact ⟨first, hfirst, hkey⟩
  · obtain ⟨x, hx, hgroup⟩ := List.mem_filterMap.mp (Comparator.mem_sortBy.mp hg)
    obtain ⟨-, -, -, howners⟩ := holderGroup_eq_some hgroup
    rw [howners]
    refine ⟨nodup_groupByOwner, fun o ho => ?_⟩
    have hlists := lists_of_mem_groupByOwner ho
    obtain ⟨i, hi, -, hrelation⟩ := hlists.first
    rw [(Grouping.groups_spec _ _).members x hx] at hi
    refine ⟨?_, hlists.available⟩
    rw [hrelation]
    exact of_decide_eq_true (List.mem_filter.mp (List.mem_filter.mp hi).1).2
  · exact Comparator.Consistent.sorted_byRank _ ((h.comap _).thenBy (h.comap _)) _

/-- The owner is the one friend who has the work. -/
theorem holders_exact_friend :
    HoldersShown byOrder exampleShelfCatalog exampleDb 2 200 ⟨none, .available⟩ ∧
      HeldByFriend exampleShelfCatalog exampleDb 2 200 ⟨none, .available⟩ exampleCopy
        ⟨exampleDb.copyRow exampleCopy, exampleShelfCatalog.editions.head (by decide),
          exampleShelfCatalog.works.head (by decide)⟩ exampleOwner :=
  ⟨holders_exact .byOrder _ _ _ _ _,
    ⟨rfl, rfl, by decide, rfl, rfl, ⟨rfl, rfl⟩, fun _ => rfl, trivial⟩⟩

end Holders

/-! ## Search -/

section Search

open Comparator

variable {localeCompare localeCompareUk collate : String → String → Int}
  {localMatches : String → List WorkId → List EditionId → List (WorkId × CatalogMatchKind)}
  {cat : CatalogDb} {db : Db} {viewerId : UserId} {query : DiscoveryQuery}

theorem searchNetwork_total {page : Nat} :
    (searchNetwork localeCompare localeCompareUk collate localMatches cat db viewerId
      { query with page := page }).total =
      (rankEligible collate localMatches cat query.q (eligible cat db viewerId query)).length := rfl

end Search

end Bookswap
