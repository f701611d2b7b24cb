import Bookswap.Catalog.CatalogStore
import Bookswap.Library.Reading

/-!
# network-inventory.service.ts: the copies a viewer sees in the network

`load` reads every copy once, asks for the roles of all owners in bulk, and keeps the copies that
the viewer may see; the discovery and the holders of a work group what it gives.

- `Db.bulkRole_eq_roleOf`: **the bulk queries give the roles that `roleOf` gives**.
- `mem_loadInventory`, `nodup_loadInventory`: the copies `load` gives, each once.
- `groupByOwner_perm`, `lists_of_mem_groupByOwner`: the lines of the owners.
-/

namespace Bookswap

open Store

/-! ## The filter -/

/-- `CATALOG_DISCOVERY_SCOPES` -/
inductive DiscoveryScope
  | circle | all
  deriving DecidableEq, Repr

/-- `CATALOG_DISCOVERY_AVAILABILITY` -/
inductive DiscoveryAvailability
  | available | any
  deriving DecidableEq, Repr

/-- `CATALOG_DISCOVERY_TRANSLATION` -/
inductive DiscoveryTranslation
  | any | original | translated
  deriving DecidableEq, Repr

/-- In `translationId`, `some none` is the edition in the original language. -/
structure InventoryFilter where
  scope : DiscoveryScope
  availability : DiscoveryAvailability
  language : Option String := none
  translation : Option DiscoveryTranslation := none
  translationId : Option (Option TranslationId) := none
  workId : Option WorkId := none

/-- The conditions on the copy itself. -/
def InventoryFilter.onCopy (f : InventoryFilter) (c : Copy) : Bool :=
  c.archivedAt = none ∧ (f.availability = .available → c.status = .available)

/-- The conditions on the edition and its work. -/
def InventoryFilter.onEdition (f : InventoryFilter) (e : Edition) (w : Work) : Bool :=
  w.mergedIntoId = none ∧ (∀ id ∈ f.workId, w.id = id) ∧ (∀ lang ∈ f.language, e.lang = some lang) ∧
    (f.translation = some .original → e.textKind = .original) ∧
    (f.translation = some .translated → e.textKind = .translation) ∧
    ∀ t ∈ f.translationId, e.translationId = t

/-! ## Roles in bulk -/

/-- `relations.get`: the relation that was set last. -/
def relationIn (relations : List (UserId × FriendRelation)) (id : UserId) : Option FriendRelation :=
  (relations.reverse.find? fun r => r.1 = id).map Prod.snd

/-- Pairs whose role is settled without asking about friends of friends. -/
def CLOSED_RELATIONS : List FriendRelation := [.friends, .blockedByMe, .blockedMe]

/-- network-inventory.service.ts:131 -/
def inventoryRole (viewerId ownerId : UserId) (relation : Option FriendRelation)
    (friendsOfFriends : List UserId) : ViewerRole :=
  if ownerId = viewerId then .owner
  else if relation = some .friends then .friend
  else if relation = some .blockedByMe ∨ relation = some .blockedMe then .blocked
  else if ownerId ∈ friendsOfFriends then .friendOfFriend else .other

/-- The roles of the viewer towards some owners, by one query for the relations and three for the
friends of friends. -/
def Db.bulkRole (db : Db) (viewerId : UserId) (ownerIds : List UserId) (ownerId : UserId) :
    ViewerRole :=
  let others := ownerIds.eraseDups.filter (· ≠ viewerId)
  let relations := db.relationsWith viewerId others
  let friendsOfFriends := db.friendsOfFriendsAmong viewerId
    (others.filter fun id => (relationIn relations id).getD .none ∉ CLOSED_RELATIONS)
  inventoryRole viewerId ownerId (relationIn relations ownerId) friendsOfFriends

/-! ## The inventory -/

structure NetworkCopy where
  id : CopyId
  editionId : EditionId
  translationId : Option TranslationId
  status : CopyStatus
  expectedReturnAt : Option Day
  canRequest : Bool
  deriving DecidableEq, Repr

inductive NetworkRelation
  | self | friend | other
  deriving DecidableEq, Repr

structure InventoryCopy where
  copy : NetworkCopy
  owner : PublicUser
  relation : NetworkRelation
  workId : WorkId
  textKind : EditionTextKind
  language : Option String
  translator : Option String
  deriving DecidableEq, Repr

/-- A copy as the query of the inventory joins it. -/
structure InventoryRow where
  shelf : ShelfRow
  owner : User
  translation : Option Translation

namespace InventoryRow

def copy (r : InventoryRow) : Copy := r.shelf.row.copy

end InventoryRow

/-- A friend of a friend is not a friend. -/
def ViewerRole.relation : ViewerRole → NetworkRelation
  | .owner => .self
  | .friend => .friend
  | _ => .other

def inventoryCopy (viewerId : UserId) (role : ViewerRole) (r : InventoryRow) : InventoryCopy where
  copy :=
    { id := r.copy.id
      editionId := r.copy.editionId
      translationId := r.shelf.edition.translationId
      status := r.copy.status
      expectedReturnAt := expectedReturnOf r.copy.status r.shelf.row.loans
      canRequest :=
        canRequestCopy r.copy r.shelf.row.loans role viewerId r.owner.loanRequestsPaused }
  owner := toPublicUser r.owner
  relation := role.relation
  workId := r.shelf.edition.workId
  textKind := r.shelf.edition.textKind
  language := r.shelf.edition.lang
  translator := r.translation.map Translation.translator

/-- What one row of the query is joined of; the foreign keys say that nothing is missing. -/
def inventoryRow (cat : CatalogDb) (db : Db) (f : InventoryFilter) (c : Copy) :
    Option InventoryRow :=
  (cat.join (db.copyRow c)).bind fun shelf =>
    (db.users.find? c.ownerId).bind fun owner =>
      if f.onEdition shelf.edition shelf.work then
        some ⟨shelf, owner, shelf.edition.translationId.bind cat.translation?⟩
      else none

/-- May the viewer see the row, with a role towards its owner? -/
def InventoryFilter.shows (f : InventoryFilter) (role : ViewerRole) (r : InventoryRow) : Bool :=
  ¬(f.scope = .circle ∧ role ≠ .owner ∧ role ≠ .friend) ∧
    copyVisibleTo role r.owner.libraryVisibility r.copy.visibility

/-- The rows of the query. -/
def inventoryRows (cat : CatalogDb) (db : Db) (f : InventoryFilter) : List InventoryRow :=
  (db.copies.rows.filter f.onCopy).filterMap (inventoryRow cat db f)

/-- `NetworkInventory.load` -/
def loadInventory (cat : CatalogDb) (db : Db) (viewerId : UserId) (f : InventoryFilter) :
    List InventoryCopy :=
  let rows := inventoryRows cat db f
  let role := db.bulkRole viewerId (rows.map fun r => r.copy.ownerId)
  (rows.filter fun r => f.shows (role r.copy.ownerId) r).map fun r =>
    inventoryCopy viewerId (role r.copy.ownerId) r

/-! ## groupByOwner -/

structure NetworkOwner where
  owner : PublicUser
  relation : NetworkRelation
  availableCopies : Nat
  copies : List NetworkCopy
  deriving DecidableEq, Repr

/-- `relationOrder` -/
def NetworkRelation.order : NetworkRelation → Nat
  | .self => 0
  | .friend => 1
  | .other => 2

/-- The copies of one owner; who they are is what the first of them says. -/
def ownerGroup (items : List InventoryCopy) : Option NetworkOwner :=
  items.head?.map fun first =>
    { owner := first.owner
      relation := first.relation
      availableCopies := items.countP fun i => i.copy.status = .available
      copies := items.map fun i => i.copy }

/-- network-inventory.service.ts:184 -/
def groupByOwner (localeCompare : String → String → Int) (items : List InventoryCopy) :
    List NetworkOwner :=
  Comparator.sortBy
    (Comparator.thenBy (Comparator.byRank fun o : NetworkOwner => o.relation.order)
      fun left right => localeCompare left.owner.displayName right.owner.displayName)
    ((Grouping.groups (fun i => i.owner.id) items).filterMap fun g => ownerGroup g.2)

/-! ## What the bulk queries give -/

section Roles

variable {db : Db} {viewerId o : UserId}

/-- A pair is stored under the smaller id first. -/
theorem Friendship.pair_eq_normalizePair {f : Friendship} {a b : UserId}
    (h : f.userAId = a ∧ f.userBId = b ∨ f.userBId = a ∧ f.userAId = b) :
    f.pair = normalizePair a b := by
  have hordered := f.ordered
  unfold normalizePair Friendship.pair
  rcases h with ⟨rfl, rfl⟩ | ⟨rfl, rfl⟩
  · rw [if_pos hordered]
  · rw [if_neg (Nat.lt_asymm hordered)]

theorem Db.findPair_eq_some {f : Friendship} (hne : viewerId ≠ o) (hf : f ∈ db.friendships)
    (h : f.userAId = viewerId ∧ f.userBId = o ∨ f.userBId = viewerId ∧ f.userAId = o) :
    db.findPair viewerId o = some f := by
  unfold Db.findPair
  rw [if_neg hne, ← Friendship.pair_eq_normalizePair h]
  exact Table.find?_of_mem hf

/-- The rows that the query for a list of people reads. -/
theorem Db.mem_relationsWith {others : List UserId} {r : UserId × FriendRelation} :
    r ∈ db.relationsWith viewerId others ↔ ∃ f ∈ db.friendships,
      (f.userAId = viewerId ∧ f.userBId ∈ others ∨ f.userBId = viewerId ∧ f.userAId ∈ others) ∧
        r = (f.otherIdOf viewerId, relationOf (some f) viewerId) := by
  unfold Db.relationsWith
  simp only [List.mem_map, List.mem_filter, decide_eq_true_eq, Table.mem_def, and_assoc]
  exact exists_congr fun f => and_congr_right fun _ => and_congr_right fun _ => eq_comm

/-- The other side of a pair of the viewer's. -/
theorem Friendship.otherIdOf_eq {f : Friendship} {a b : UserId}
    (h : f.userAId = a ∧ f.userBId = b ∨ f.userBId = a ∧ f.userAId = b) : f.otherIdOf a = b := by
  unfold Friendship.otherIdOf
  rcases h with ⟨ha, hb⟩ | ⟨ha, hb⟩
  · rw [if_pos ha, hb]
  · have hne : f.userAId ≠ a := Nat.ne_of_lt (ha ▸ f.ordered)
    rw [if_neg hne, hb]

/-- A row of the query is the row of a pair. -/
theorem Friendship.sides {f : Friendship} {others : List UserId}
    (h : f.userAId = viewerId ∧ f.userBId ∈ others ∨ f.userBId = viewerId ∧ f.userAId ∈ others) :
    f.userAId = viewerId ∧ f.userBId = f.otherIdOf viewerId ∨
      f.userBId = viewerId ∧ f.userAId = f.otherIdOf viewerId := by
  rcases h with ⟨ha, -⟩ | ⟨ha, -⟩
  · exact .inl ⟨ha, (Friendship.otherIdOf_eq (.inl ⟨ha, rfl⟩)).symm⟩
  · exact .inr ⟨ha, (Friendship.otherIdOf_eq (.inr ⟨ha, rfl⟩)).symm⟩

/-- **One query for a list of people gives each of them the relation of the pair.** -/
theorem Db.relationIn_relationsWith {others : List UserId} (hne : viewerId ≠ o) (ho : o ∈ others) :
    relationIn (db.relationsWith viewerId others) o =
      (db.findPair viewerId o).map fun f => relationOf (some f) viewerId := by
  unfold relationIn
  cases hfind : (db.relationsWith viewerId others).reverse.find? fun r => r.1 = o with
  | none =>
    cases hpair : db.findPair viewerId o with
    | none => rfl
    | some f =>
      -- the row of the pair is one that the query reads
      unfold Db.findPair at hpair
      rw [if_neg hne] at hpair
      have hkey : f.pair = normalizePair viewerId o := Table.key_of_find? hpair
      have hsides : f.userAId = viewerId ∧ f.userBId = o ∨
          f.userBId = viewerId ∧ f.userAId = o := by
        unfold Friendship.pair normalizePair at hkey
        split at hkey
        · exact .inl (Prod.mk.injEq .. ▸ hkey)
        · exact .inr (Prod.mk.injEq .. ▸ hkey).symm
      have hmem : (o, relationOf (some f) viewerId) ∈ db.relationsWith viewerId others := by
        refine Db.mem_relationsWith.mpr ⟨f, Table.mem_of_find? hpair, ?_, ?_⟩
        · rcases hsides with ⟨ha, rfl⟩ | ⟨ha, rfl⟩
          · exact .inl ⟨ha, ho⟩
          · exact .inr ⟨ha, ho⟩
        · rw [Friendship.otherIdOf_eq hsides]
      have hnot := List.find?_eq_none.mp hfind _ (List.mem_reverse.mpr hmem)
      exact absurd (decide_eq_true rfl) hnot
  | some r =>
    have hid := List.find?_some hfind
    rw [decide_eq_true_eq] at hid
    obtain ⟨f, hf, hcond, rfl⟩ :=
      Db.mem_relationsWith.mp (List.mem_reverse.mp (List.mem_of_find?_eq_some hfind))
    have hsides := Friendship.sides hcond
    rw [show f.otherIdOf viewerId = o from hid] at hsides
    rw [Db.findPair_eq_some hne hf hsides]
    rfl

/-- Whoever is reached opened the library, and has a friend of the viewer's for a friend. -/
theorem Db.mem_friendsOfFriendsAmong_iff {ids : List UserId} :
    o ∈ db.friendsOfFriendsAmong viewerId ids ↔ o ∈ ids ∧ o ≠ viewerId ∧
      (∃ u ∈ db.users, u.id = o ∧ u.friendsOfFriendsAccess = true) ∧
      ∃ f ∈ db.friendships, f.status = .accepted ∧
        (f.userAId = o ∧ f.userBId ∈ db.acceptedFriendIds viewerId ∨
          f.userBId = o ∧ f.userAId ∈ db.acceptedFriendIds viewerId) := by
  have hopened : ∀ x, x ∈ (db.users.rows.filter fun u =>
      (u.id ∈ ids ∧ u.id ≠ viewerId) ∧ u.friendsOfFriendsAccess = true).map User.id ↔
        x ∈ ids ∧ x ≠ viewerId ∧ ∃ u ∈ db.users, u.id = x ∧ u.friendsOfFriendsAccess = true := by
    intro x
    simp only [List.mem_map, List.mem_filter, decide_eq_true_eq, Table.mem_def]
    constructor
    · rintro ⟨u, ⟨hu, ⟨hids, hne⟩, haccess⟩, rfl⟩
      exact ⟨hids, hne, u, hu, rfl, haccess⟩
    · rintro ⟨hids, hne, u, hu, rfl, haccess⟩
      exact ⟨u, ⟨hu, ⟨hids, hne⟩, haccess⟩, rfl⟩
  unfold Db.friendsOfFriendsAmong
  simp only [List.mem_flatMap, List.mem_filter, decide_eq_true_eq, List.mem_append, hopened,
    List.mem_ite_nil_right, List.mem_singleton]
  constructor
  · rintro ⟨f, ⟨hf, haccepted, -⟩, ⟨⟨hopen, hfriend⟩, rfl⟩ | ⟨⟨hopen, hfriend⟩, rfl⟩⟩
    · exact ⟨hopen.1, hopen.2.1, hopen.2.2, f, hf, haccepted, .inl ⟨rfl, hfriend⟩⟩
    · exact ⟨hopen.1, hopen.2.1, hopen.2.2, f, hf, haccepted, .inr ⟨rfl, hfriend⟩⟩
  · rintro ⟨hids, hne, hu, f, hf, haccepted, ⟨rfl, hfriend⟩ | ⟨rfl, hfriend⟩⟩
    · exact ⟨f, ⟨hf, haccepted, .inl ⟨⟨hids, hne, hu⟩, hfriend⟩⟩,
        .inl ⟨⟨⟨hids, hne, hu⟩, hfriend⟩, rfl⟩⟩
    · exact ⟨f, ⟨hf, haccepted, .inr ⟨⟨hids, hne, hu⟩, hfriend⟩⟩,
        .inr ⟨⟨⟨hids, hne, hu⟩, hfriend⟩, rfl⟩⟩

/-- Whoever is reached as a friend of a friend is reached when asked about alone. -/
theorem Db.mem_friendsOfFriendsAmong {ids : List UserId} :
    o ∈ db.friendsOfFriendsAmong viewerId ids ↔
      o ∈ ids ∧ o ∈ db.friendsOfFriendsAmong viewerId [o] := by
  rw [Db.mem_friendsOfFriendsAmong_iff, Db.mem_friendsOfFriendsAmong_iff]
  simp only [List.mem_singleton, true_and]

/-- **The bulk queries give the roles that `roleOf` gives.** -/
theorem Db.bulkRole_eq_roleOf {ownerIds : List UserId} (ho : o ∈ ownerIds) :
    db.bulkRole viewerId ownerIds o = db.roleOf viewerId o := by
  unfold Db.bulkRole inventoryRole Db.roleOf
  by_cases hself : o = viewerId
  · rw [if_pos hself, if_pos hself.symm]
  have hne : viewerId ≠ o := Ne.symm hself
  have hothers : o ∈ ownerIds.eraseDups.filter (· ≠ viewerId) :=
    List.mem_filter.mpr ⟨List.mem_eraseDups.mpr ho, decide_eq_true hself⟩
  have hrelation := db.relationIn_relationsWith hne hothers
  have hreached : ∀ p : UserId → Bool, o ∈ db.friendsOfFriendsAmong viewerId
      ((ownerIds.eraseDups.filter (· ≠ viewerId)).filter p) ↔
        p o = true ∧ o ∈ db.friendsOfFriendsAmong viewerId [o] := by
    intro p
    rw [Db.mem_friendsOfFriendsAmong, List.mem_filter, and_iff_right hothers]
  rw [if_neg hself, if_neg hne]
  simp only [hreached, hrelation, decide_eq_true_eq]
  cases hpair : db.findPair viewerId o with
  | none => simp [CLOSED_RELATIONS]
  | some f =>
    cases hstatus : f.status with
    | accepted => simp [relationOf, hstatus]
    | blocked =>
      by_cases hby : f.blockedById = some viewerId
      · simp [relationOf, hstatus, hby]
      · simp [relationOf, hstatus, hby]
    | pending =>
      by_cases hby : f.requestedById = viewerId
      · simp [relationOf, hstatus, hby, CLOSED_RELATIONS]
      · simp [relationOf, hstatus, hby, CLOSED_RELATIONS]
    | declined => simp [relationOf, hstatus, CLOSED_RELATIONS]

end Roles

/-! ## What `load` gives -/

section Load

variable {cat : CatalogDb} {db : Db} {viewerId : UserId} {f : InventoryFilter} {c : Copy}
  {r : InventoryRow}

theorem inventoryRow_eq_some : inventoryRow cat db f c = some r ↔
    cat.join (db.copyRow c) = some r.shelf ∧ db.users.find? c.ownerId = some r.owner ∧
      f.onEdition r.shelf.edition r.shelf.work = true ∧
        r.translation = r.shelf.edition.translationId.bind cat.translation? := by
  simp only [inventoryRow, Option.bind_eq_some_iff, Option.ite_none_right_eq_some,
    Option.some.injEq]
  constructor
  · rintro ⟨shelf, hshelf, owner, howner, hf, rfl⟩
    exact ⟨hshelf, howner, hf, rfl⟩
  · rintro ⟨hshelf, howner, hf, htranslation⟩
    exact ⟨r.shelf, hshelf, r.owner, howner, hf, by rw [← htranslation]⟩

theorem copy_of_inventoryRow (h : inventoryRow cat db f c = some r) :
    r.copy = c ∧ r.shelf.row = db.copyRow c := by
  obtain ⟨hrow, -, -⟩ := CatalogDb.join_eq_some.mp (inventoryRow_eq_some.mp h).1
  exact ⟨congrArg CopyRow.copy hrow, hrow⟩

theorem mem_inventoryRows : r ∈ inventoryRows cat db f ↔
    ∃ c ∈ db.copies, f.onCopy c = true ∧ inventoryRow cat db f c = some r := by
  unfold inventoryRows
  simp only [List.mem_filterMap, List.mem_filter, Table.mem_def, and_assoc]

/-- The copies of the rows are those of the table that are joined. -/
theorem copy_inventoryRows : (inventoryRows cat db f).map InventoryRow.copy =
    (db.copies.rows.filter f.onCopy).filter fun c => (inventoryRow cat db f c).isSome := by
  unfold inventoryRows
  induction db.copies.rows.filter f.onCopy with
  | nil => rfl
  | cons c l ih =>
    cases hrow : inventoryRow cat db f c with
    | none =>
      rw [List.filterMap_cons_none hrow, ih, List.filter_cons_of_neg (by rw [hrow]; exact nofun)]
    | some r =>
      rw [List.filterMap_cons_some hrow, List.map_cons, ih, (copy_of_inventoryRow hrow).1,
        List.filter_cons_of_pos (by rw [hrow]; rfl)]

/-- **Asking for all roles at once is asking for each of them.** -/
theorem loadInventory_eq : loadInventory cat db viewerId f =
    ((inventoryRows cat db f).filter fun r => f.shows (db.roleOf viewerId r.copy.ownerId) r).map
      fun r => inventoryCopy viewerId (db.roleOf viewerId r.copy.ownerId) r := by
  have hrole : ∀ r ∈ inventoryRows cat db f,
      db.bulkRole viewerId ((inventoryRows cat db f).map fun r => r.copy.ownerId) r.copy.ownerId =
        db.roleOf viewerId r.copy.ownerId :=
    fun r hr => Db.bulkRole_eq_roleOf (List.mem_map.mpr ⟨r, hr, rfl⟩)
  unfold loadInventory
  dsimp only
  rw [List.filter_congr fun r hr => by rw [hrole r hr]]
  exact List.map_congr_left fun r hr => by rw [hrole r (List.mem_filter.mp hr).1]

/-- The copies `load` gives. -/
theorem mem_loadInventory {i : InventoryCopy} : i ∈ loadInventory cat db viewerId f ↔
    ∃ c ∈ db.copies, ∃ r, f.onCopy c = true ∧ inventoryRow cat db f c = some r ∧
      f.shows (db.roleOf viewerId c.ownerId) r = true ∧
      i = inventoryCopy viewerId (db.roleOf viewerId c.ownerId) r := by
  rw [loadInventory_eq]
  simp only [List.mem_map, List.mem_filter, mem_inventoryRows]
  constructor
  · rintro ⟨r, ⟨⟨c, hc, hon, hrow⟩, hshows⟩, rfl⟩
    obtain ⟨hcopy, -⟩ := copy_of_inventoryRow hrow
    rw [hcopy] at hshows ⊢
    exact ⟨c, hc, r, hon, hrow, hshows, rfl⟩
  · rintro ⟨c, hc, r, hon, hrow, hshows, rfl⟩
    obtain ⟨hcopy, -⟩ := copy_of_inventoryRow hrow
    rw [← hcopy] at hshows
    exact ⟨r, ⟨⟨c, hc, hon, hrow⟩, hshows⟩, by rw [hcopy]⟩

/-- No copy is given twice. -/
theorem nodup_loadInventory : ((loadInventory cat db viewerId f).map fun i => i.copy.id).Nodup := by
  have hrows : ((inventoryRows cat db f).map fun r => r.copy.id).Nodup := by
    have hsub : ((inventoryRows cat db f).map InventoryRow.copy).Sublist db.copies.rows := by
      rw [copy_inventoryRows]
      exact List.filter_sublist.trans List.filter_sublist
    have hids := (hsub.map Copy.id).nodup db.copies.nodup
    rw [List.map_map] at hids
    exact hids
  rw [loadInventory_eq, List.map_map]
  exact (List.filter_sublist.map _).nodup hrows

end Load

/-! ## What `groupByOwner` gives -/

section Owners

variable {localeCompare : String → String → Int} {items : List InventoryCopy} {o : NetworkOwner}

/-- A line has all copies of its owner, and counts those that are available. -/
structure NetworkOwner.Lists (o : NetworkOwner) (items : List InventoryCopy) : Prop where
  copies : o.copies = (items.filter fun i => i.owner.id = o.owner.id).map fun i => i.copy
  available : o.availableCopies = o.copies.countP fun c => c.status = .available
  first : ∃ i ∈ items, o.owner = i.owner ∧ o.relation = i.relation

theorem ownerGroup_eq_some {rows : List InventoryCopy} (h : ownerGroup rows = some o) :
    ∃ first ∈ rows, o.owner = first.owner ∧ o.relation = first.relation ∧
      o.copies = rows.map (fun i => i.copy) ∧
      o.availableCopies = rows.countP fun i => i.copy.status = .available := by
  unfold ownerGroup at h
  obtain ⟨first, hfirst, rfl⟩ := Option.map_eq_some_iff.mp h
  exact ⟨first, List.mem_of_head? hfirst, rfl, rfl, rfl, rfl⟩

theorem ownerGroup_of_ne_nil {rows : List InventoryCopy} (h : rows ≠ []) :
    ∃ o, ownerGroup rows = some o := by
  obtain ⟨first, rest, rfl⟩ := List.exists_cons_of_ne_nil h
  exact ⟨_, rfl⟩

theorem lists_of_mem_groupByOwner (ho : o ∈ groupByOwner localeCompare items) : o.Lists items := by
  have hspec := Grouping.groups_spec (fun i : InventoryCopy => i.owner.id) items
  obtain ⟨g, hg, hgroup⟩ := List.mem_filterMap.mp (Comparator.mem_sortBy.mp ho)
  obtain ⟨first, hfirst, howner, hrelation, hcopies, havailable⟩ := ownerGroup_eq_some hgroup
  rw [hspec.members g hg] at hfirst hcopies havailable
  obtain ⟨hmem, hid⟩ := List.mem_filter.mp hfirst
  refine ⟨?_, ?_, first, hmem, howner, hrelation⟩
  · rw [howner, of_decide_eq_true hid]
    exact hcopies
  · rw [hcopies, List.countP_map]
    exact havailable

/-- An owner has one line. -/
theorem nodup_groupByOwner :
    ((groupByOwner localeCompare items).map fun o => o.owner.id).Nodup := by
  refine ((Comparator.sortBy_perm _ _).map _).nodup_iff.mpr (Grouping.nodup_groups ?_ items)
  intro rows o ho
  obtain ⟨first, hfirst, howner, -⟩ := ownerGroup_eq_some ho
  exact ⟨first, hfirst, congrArg PublicUser.id howner⟩

/-- **The lines show each copy once, with its owner.** -/
theorem groupByOwner_perm : ((groupByOwner localeCompare items).flatMap fun o =>
      o.copies.map fun c => (o.owner.id, c)).Perm (items.map fun i => (i.owner.id, i.copy)) := by
  refine ((Comparator.sortBy_perm _ _).flatMap_right _).trans
    (Grouping.flatMap_groups_perm ?_ items)
  intro k rows hrows hkey
  obtain ⟨o, ho⟩ := ownerGroup_of_ne_nil hrows
  obtain ⟨first, hfirst, howner, -, hcopies, -⟩ := ownerGroup_eq_some ho
  have hmap : (o.copies.map fun c => (o.owner.id, c)) = rows.map fun i => (i.owner.id, i.copy) := by
    rw [hcopies, List.map_map]
    refine List.map_congr_left fun i hi => ?_
    rw [Function.comp_apply, howner, hkey first hfirst, hkey i hi]
  exact ⟨o, ho, .of_eq hmap⟩

end Owners

end Bookswap
