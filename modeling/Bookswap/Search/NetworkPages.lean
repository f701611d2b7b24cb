import Bookswap.Search.NetworkInventory

/-!
# work-holders.service.ts and catalog-discovery.service.ts

Both pages group what `NetworkInventory.load` gives: who among the friends has a work, and where in
the network the books that were searched for are. The order of the works that a text matches comes
from the search, here `rank`.

- `groupByOwner_perm`, `mem_groupByOwner`: each copy once, with its owner.
-/

namespace Bookswap

/-! ## Who has this work -/

/-- `KIND_ORDER` -/
def EditionTextKind.order : EditionTextKind → Nat
  | .original => 0
  | .translation => 1
  | .unknown => 2

/-- `ORIGINAL_TRANSLATION_ID`, or the id of a translation. -/
inductive HoldersTranslation
  | original
  | id (translationId : TranslationId)
  deriving DecidableEq, Repr

structure WorkHoldersQuery where
  translationId : Option HoldersTranslation
  availability : DiscoveryAvailability

structure WorkHolderGroup where
  translationId : Option TranslationId
  textKind : EditionTextKind
  language : Option String
  translator : Option String
  owners : List NetworkOwner

/-- The filter of `holders`. -/
def holdersFilter (workId : WorkId) (query : WorkHoldersQuery) : InventoryFilter where
  scope := .circle
  availability := query.availability
  translation := if query.translationId = some .original then some .original else none
  translationId := match query.translationId with
    | some (.id translationId) => some (some translationId)
    | _ => none
  workId := some workId

/-- A translation is a group; without one, the kind of the text and its language are. -/
def InventoryCopy.holderKey (i : InventoryCopy) : TranslationId ⊕ EditionTextKind × String :=
  match i.copy.translationId with
  | some translationId => .inl translationId
  | none => .inr (i.textKind, i.language.getD "")

section Holders

variable (localeCompare : String → String → Int) (cat : CatalogDb) (db : Db)

def holderGroup (items : List InventoryCopy) : Option WorkHolderGroup :=
  items.head?.map fun first =>
    { translationId := first.copy.translationId
      textKind := first.textKind
      language := first.language
      translator := first.translator
      owners := groupByOwner localeCompare items }

/-- work-holders.service.ts:36 -/
def holders (viewerId : UserId) (workId : WorkId) (query : WorkHoldersQuery) :
    List WorkHolderGroup :=
  let items := loadInventory cat db viewerId (holdersFilter workId query)
  let friends := items.filter fun i => i.relation = .friend
  Comparator.sortBy
    (Comparator.thenBy (Comparator.byRank fun g : WorkHolderGroup => g.textKind.order)
      (Comparator.thenBy
        (fun left right => localeCompare (left.language.getD "") (right.language.getD ""))
        fun left right => localeCompare (left.translator.getD "") (right.translator.getD "")))
    ((Grouping.groups InventoryCopy.holderKey friends).filterMap fun g =>
      holderGroup localeCompare g.2)

end Holders

/-! ## Discovery -/

inductive CatalogMatchKind
  | isbn | title | author
  deriving DecidableEq, Repr

structure DiscoveryQuery where
  q : Option String
  page : Nat
  pageSize : Nat
  scope : DiscoveryScope
  availability : DiscoveryAvailability
  language : Option String
  translation : DiscoveryTranslation

structure CatalogDiscoveryResult where
  work : Work
  editions : List Edition
  matchedOn : CatalogMatchKind
  locations : List NetworkOwner

structure CatalogDiscoveryResponse where
  results : List CatalogDiscoveryResult
  total : Nat
  hasMore : Bool

section Discovery

variable (localeCompare localeCompareUk collate : String → String → Int)
  (localMatches : String → List WorkId → List EditionId → List (WorkId × CatalogMatchKind))
  (cat : CatalogDb) (db : Db)

/-- The filter of `search`. -/
def DiscoveryQuery.filter (query : DiscoveryQuery) : InventoryFilter where
  scope := query.scope
  availability := query.availability
  language := query.language
  translation := some query.translation

/-- The copies the viewer may be told of, under their works. -/
def eligible (viewerId : UserId) (query : DiscoveryQuery) : List (WorkId × List InventoryCopy) :=
  Grouping.groups InventoryCopy.workId (loadInventory cat db viewerId query.filter)

/-- `rank`: as the text matches, or else by title. -/
def rankEligible (q : Option String) (eligible : List (WorkId × List InventoryCopy)) :
    List (WorkId × CatalogMatchKind) :=
  let workIds := eligible.map fun g => g.1
  match q with
  | none =>
    (Comparator.sortBy
      (Comparator.thenBy (fun one other => collate one.titleNorm other.titleNorm)
        (Comparator.byRank fun w : Work => w.id))
      (cat.works.filter fun w => w.id ∈ workIds)).map fun w => (w.id, .title)
  | some q => localMatches q workIds (eligible.flatMap fun g => g.2.map fun i => i.copy.editionId)

/-- A line of the answer; a work that was merged meanwhile is left out. -/
def discoveryResult (eligible : List (WorkId × List InventoryCopy))
    (row : WorkId × CatalogMatchKind) : Option CatalogDiscoveryResult :=
  ((cat.work? row.1).filter fun w => w.mergedIntoId = none).bind fun work =>
    (eligible.find? fun g => g.1 = row.1).map fun g =>
      { work := work
        editions := Comparator.sortBy (byEditionOrder localeCompareUk) (cat.editions.filter fun e =>
          e.workId = work.id ∧ e.id ∈ g.2.map fun i => i.copy.editionId)
        matchedOn := row.2
        locations := groupByOwner localeCompare g.2 }

/-- catalog-discovery.service.ts:42 -/
def searchNetwork (viewerId : UserId) (query : DiscoveryQuery) : CatalogDiscoveryResponse :=
  let eligible := eligible cat db viewerId query
  let ranked := rankEligible collate localMatches cat query.q eligible
  let pageRows := (ranked.drop ((query.page - 1) * query.pageSize)).take query.pageSize
  { results := pageRows.filterMap (discoveryResult localeCompare localeCompareUk cat eligible)
    total := ranked.length
    hasMore := ranked.length > query.page * query.pageSize }

end Discovery

/-! ## What `holders` shows -/

section HoldersShown

variable {localeCompare : String → String → Int} {cat : CatalogDb} {db : Db} {viewerId : UserId}
  {workId : WorkId} {query : WorkHoldersQuery}

/-- The group of an edition. -/
def Edition.holderKey (e : Edition) : TranslationId ⊕ EditionTextKind × String :=
  match e.translationId with
  | some translationId => .inl translationId
  | none => .inr (e.textKind, e.lang.getD "")

def WorkHolderGroup.key (g : WorkHolderGroup) : TranslationId ⊕ EditionTextKind × String :=
  match g.translationId with
  | some translationId => .inl translationId
  | none => .inr (g.textKind, g.language.getD "")

theorem holderKey_inventoryCopy {role : ViewerRole} {r : InventoryRow} :
    (inventoryCopy viewerId role r).holderKey = r.shelf.edition.holderKey := rfl

theorem holderGroup_eq_some {items : List InventoryCopy} {g : WorkHolderGroup}
    (h : holderGroup localeCompare items = some g) :
    ∃ first ∈ items, g.key = first.holderKey ∧ g.owners = groupByOwner localeCompare items := by
  unfold holderGroup at h
  obtain ⟨first, hfirst, rfl⟩ := Option.map_eq_some_iff.mp h
  exact ⟨first, List.mem_of_head? hfirst, rfl, rfl⟩

/-- What a page of holders lists. -/
def holdersShown (groups : List WorkHolderGroup) :
    List ((TranslationId ⊕ EditionTextKind × String) × UserId × NetworkCopy) :=
  groups.flatMap fun g => g.owners.flatMap fun o => o.copies.map fun c => (g.key, o.owner.id, c)

/-- The friends' copies. -/
def friendsInventory (cat : CatalogDb) (db : Db) (viewerId : UserId) (f : InventoryFilter) :
    List InventoryCopy :=
  (loadInventory cat db viewerId f).filter fun i => i.relation = .friend

/-- **Each copy of a friend is listed once**, in its group, with its owner. -/
theorem holdersShown_perm : (holdersShown (holders localeCompare cat db viewerId workId query)).Perm
    ((friendsInventory cat db viewerId (holdersFilter workId query)).map fun i =>
      (i.holderKey, i.owner.id, i.copy)) := by
  refine ((Comparator.sortBy_perm _ _).flatMap_right _).trans (Grouping.flatMap_groups_perm ?_ _)
  intro k items hitems hkey
  obtain ⟨first, rest, rfl⟩ := List.exists_cons_of_ne_nil hitems
  refine ⟨_, rfl, ?_⟩
  have hgroup : first.holderKey = k := hkey first List.mem_cons_self
  have hmap : ((first :: rest).map fun i => (i.holderKey, i.owner.id, i.copy)) =
      ((first :: rest).map fun i => (i.owner.id, i.copy)).map fun x => (k, x) := by
    rw [List.map_map]
    refine List.map_congr_left fun i hi => ?_
    rw [hkey i hi]
    rfl
  rw [hmap]
  have hperm := (@groupByOwner_perm localeCompare (first :: rest)).map fun x => (k, x)
  refine .trans (.of_eq ?_) hperm
  rw [List.map_flatMap, ← hgroup]
  refine List.flatMap_congr fun o _ => ?_
  rw [List.map_map]
  rfl

/-- A friend has the copy, shows it to friends, and it is what was asked for. -/
structure HeldByFriend (cat : CatalogDb) (db : Db) (viewerId : UserId) (workId : WorkId)
    (query : WorkHoldersQuery) (c : Copy) (r : ShelfRow) (owner : User) : Prop where
  joined : cat.join (db.copyRow c) = some r
  found : db.users.find? c.ownerId = some owner
  friend : db.roleOf viewerId c.ownerId = .friend
  kept : c.archivedAt = none
  visible : copyVisibleTo .friend owner.libraryVisibility c.visibility = true
  work : r.work.id = workId ∧ r.work.mergedIntoId = none
  available : query.availability = .available → c.status = .available
  translation : match query.translationId with
    | none => True
    | some .original => r.edition.textKind = .original
    | some (.id translationId) => r.edition.translationId = some translationId

/-- Of the roles, only a friend is shown as a friend. -/
theorem ViewerRole.relation_eq_friend {role : ViewerRole} :
    role.relation = .friend ↔ role = .friend := by
  cases role <;> simp [ViewerRole.relation]

theorem holdersFilter_onEdition {e : Edition} {w : Work} :
    (holdersFilter workId query).onEdition e w = true ↔ (w.id = workId ∧ w.mergedIntoId = none) ∧
      match query.translationId with
      | none => True
      | some .original => e.textKind = .original
      | some (.id translationId) => e.translationId = some translationId := by
  unfold InventoryFilter.onEdition holdersFilter
  rcases query.translationId with _ | _ | t <;> simp [and_comm, and_assoc, and_left_comm]

theorem mem_friendsInventory {i : InventoryCopy} :
    i ∈ friendsInventory cat db viewerId (holdersFilter workId query) ↔
      ∃ c ∈ db.copies, ∃ r owner, HeldByFriend cat db viewerId workId query c r owner ∧
        i = inventoryCopy viewerId .friend
          ⟨r, owner, r.edition.translationId.bind cat.translation?⟩ := by
  unfold friendsInventory
  rw [List.mem_filter, decide_eq_true_eq, mem_loadInventory]
  constructor
  · rintro ⟨⟨c, hc, r, hon, hrow, hshows, rfl⟩, hfriend⟩
    obtain ⟨hjoin, howner, hedition, htranslation⟩ := inventoryRow_eq_some.mp hrow
    obtain ⟨hwork, hasked⟩ := holdersFilter_onEdition.mp hedition
    obtain ⟨hkept, havailable⟩ := of_decide_eq_true hon
    have hrole : db.roleOf viewerId c.ownerId = .friend := ViewerRole.relation_eq_friend.mp hfriend
    have hvisible := (of_decide_eq_true hshows).2
    rw [hrole, (copy_of_inventoryRow hrow).1] at hvisible
    refine ⟨c, hc, r.shelf, r.owner,
      ⟨hjoin, howner, hrole, hkept, hvisible, hwork, havailable, hasked⟩, ?_⟩
    rw [hrole, ← htranslation]
  · rintro ⟨c, hc, r, owner, h, rfl⟩
    have hrow : inventoryRow cat db (holdersFilter workId query) c =
        some ⟨r, owner, r.edition.translationId.bind cat.translation?⟩ :=
      inventoryRow_eq_some.mpr
        ⟨h.joined, h.found, holdersFilter_onEdition.mpr ⟨h.work, h.translation⟩, rfl⟩
    refine ⟨⟨c, hc, _, decide_eq_true ⟨h.kept, h.available⟩, hrow, ?_, by rw [h.friend]⟩, rfl⟩
    refine decide_eq_true ⟨fun hnot => hnot.2.2 h.friend, ?_⟩
    rw [h.friend, (copy_of_inventoryRow hrow).1]
    exact h.visible

end HoldersShown

/-! ## What `search` shows -/

section SearchShown

variable {localeCompare localeCompareUk collate : String → String → Int}
  {localMatches : String → List WorkId → List EditionId → List (WorkId × CatalogMatchKind)}
  {cat : CatalogDb} {db : Db} {viewerId : UserId} {query : DiscoveryQuery} {workId : WorkId}

/-- What the line of a work says. -/
structure CatalogDiscoveryResult.Shows (localeCompare localeCompareUk : String → String → Int)
    (cat : CatalogDb) (items : List InventoryCopy) (workId : WorkId) (r : CatalogDiscoveryResult) :
    Prop where
  work : cat.work? workId = some r.work
  editions : r.editions = Comparator.sortBy (byEditionOrder localeCompareUk)
    (cat.editions.filter fun e => e.workId = workId ∧ e.id ∈ items.map fun i => i.copy.editionId)
  locations : r.locations = groupByOwner localeCompare items

end SearchShown

end Bookswap
