import Bookswap.Schema

/-!
# Access: friendship, roles, visibility

The pure rules of `access/visibility.ts` and `access/friendship.pair.ts`, and the
queries of `access/access.service.ts` that supply the role to them.

- `roleOf`: the role of a viewer towards one owner, by the pair's row and then by
  the mutual friends.
- `relationsWith`, `friendsOfFriendsAmong`: the two bulk queries the network
  inventory uses instead.
- `copyVisibleTo`, `mayRequestLoan`, `holderNamesVisibleTo`: what a role may see.
-/

namespace Bookswap

/-! ## visibility.ts -/

inductive ViewerRole
  | owner | friend | friendOfFriend | other | blocked
  deriving DecidableEq, Repr

/-- `STRICTNESS` -/
def Visibility.strictness : Visibility → Nat
  | .pub => 0
  | .friends => 1
  | .priv => 2

def strictestVisibility (one other : Visibility) : Visibility :=
  if one.strictness ≥ other.strictness then one else other

def isVisibleTo (role : ViewerRole) (visibility : Visibility) : Bool :=
  match role with
  | .blocked => false
  | .owner => true
  | .friend | .friendOfFriend => visibility ≠ .priv
  | .other => visibility = .pub

def mayRequestLoan : ViewerRole → Bool
  | .friend | .friendOfFriend => true
  | _ => false

def copyVisibleTo (role : ViewerRole) (libraryVisibility copyVisibility : Visibility) : Bool :=
  isVisibleTo role (strictestVisibility libraryVisibility copyVisibility)

def holderNamesVisibleTo (role : ViewerRole) (showHolderNames : Bool) : Bool :=
  match role with
  | .blocked => false
  | .owner => true
  | .friend => showHolderNames
  | _ => false

/-- An owner sees everything of their own. -/
@[simp] theorem copyVisibleTo_owner (l c : Visibility) : copyVisibleTo .owner l c = true := rfl

@[simp] theorem copyVisibleTo_blocked (l c : Visibility) :
    copyVisibleTo .blocked l c = false := rfl

/-! ## friendship.pair.ts -/

/-- `normalizePair`: the smaller id first. -/
def normalizePair (oneId otherId : UserId) : UserId × UserId :=
  if oneId < otherId then (oneId, otherId) else (otherId, oneId)

theorem normalizePair_comm {a b : UserId} (h : a ≠ b) : normalizePair a b = normalizePair b a := by
  unfold normalizePair
  rcases Nat.lt_or_gt_of_ne h with hlt | hgt
  · rw [if_pos hlt, if_neg (Nat.lt_asymm hlt)]
  · rw [if_neg (Nat.lt_asymm hgt), if_pos hgt]

namespace Friendship

def isMember (f : Friendship) (userId : UserId) : Bool :=
  f.userAId = userId ∨ f.userBId = userId

/-- The other side of the pair; the source throws when `userId` is no member, and no
caller passes one. -/
def otherIdOf (f : Friendship) (userId : UserId) : UserId :=
  if f.userAId = userId then f.userBId else f.userAId

end Friendship

/-- The state of a pair as one of its sides sees it (`FriendRelation`). -/
inductive FriendRelation
  | none | friends | requestSent | requestReceived | blockedByMe | blockedMe
  deriving DecidableEq, Repr

def relationOf (friendship : Option Friendship) (viewerId : UserId) : FriendRelation :=
  match friendship with
  | none => .none
  | some f =>
    match f.status with
    | .accepted => .friends
    | .pending => if f.requestedById = viewerId then .requestSent else .requestReceived
    | .blocked => if f.blockedById = some viewerId then .blockedByMe else .blockedMe
    | .declined => .none

/-! ## access.service.ts -/

namespace Db

/-- The row of the pair, if there is one. -/
def findPair (db : Db) (oneId otherId : UserId) : Option Friendship :=
  if oneId = otherId then none else db.friendships.find? (normalizePair oneId otherId)

/-- Accepted friendships of a user (`friendship.findMany`). -/
def acceptedOf (db : Db) (userId : UserId) : List Friendship :=
  db.friendships.rows.filter fun f => f.status = .accepted ∧ f.isMember userId

/-- `friendsOfFriendsAmong`: the owners among `ownerIds` who opened their library to
friends of friends and share an accepted friend with the viewer. -/
def friendsOfFriendsAmong (db : Db) (viewerId : UserId) (ownerIds : List UserId) : List UserId :=
  let candidates := ownerIds.filter (· ≠ viewerId)
  let openedIds := (db.users.rows.filter fun u =>
    u.id ∈ candidates ∧ u.friendsOfFriendsAccess = true).map User.id
  let friendIds := (db.acceptedOf viewerId).map (·.otherIdOf viewerId)
  let links := db.friendships.rows.filter fun f =>
    f.status = .accepted ∧
      ((f.userAId ∈ openedIds ∧ f.userBId ∈ friendIds) ∨
        (f.userBId ∈ openedIds ∧ f.userAId ∈ friendIds))
  links.flatMap fun f =>
    (if f.userAId ∈ openedIds ∧ f.userBId ∈ friendIds then [f.userAId] else []) ++
      (if f.userBId ∈ openedIds ∧ f.userAId ∈ friendIds then [f.userBId] else [])

/-- `roleOf`: the block and the friendship first, the mutual friend after them. -/
def roleOf (db : Db) (viewerId ownerId : UserId) : ViewerRole :=
  if viewerId = ownerId then .owner
  else match (db.findPair viewerId ownerId).map Friendship.status with
    | some .blocked => .blocked
    | some .accepted => .friend
    | _ =>
      if ownerId ∈ db.friendsOfFriendsAmong viewerId [ownerId] then .friendOfFriend else .other

/-- `relationsWith`: one query for a list of people. The source builds a map with
`set`, so the last row of a person wins. -/
def relationsWith (db : Db) (viewerId : UserId) (otherIds : List UserId) :
    List (UserId × FriendRelation) :=
  (db.friendships.rows.filter fun f =>
    (f.userAId = viewerId ∧ f.userBId ∈ otherIds) ∨
      (f.userBId = viewerId ∧ f.userAId ∈ otherIds)).map fun f =>
    (f.otherIdOf viewerId, relationOf (some f) viewerId)

/-- `acceptedFriendIds` -/
def acceptedFriendIds (db : Db) (userId : UserId) : List UserId :=
  (db.acceptedOf userId).map (·.otherIdOf userId)

theorem findPair_comm (db : Db) (a b : UserId) : db.findPair a b = db.findPair b a := by
  unfold findPair
  by_cases h : a = b
  · rw [if_pos h, if_pos h.symm]
  · rw [if_neg h, if_neg (Ne.symm h), normalizePair_comm h]

@[simp] theorem roleOf_self (db : Db) (a : UserId) : db.roleOf a a = .owner := by
  simp [roleOf]

/-- Only the owner has the role of the owner. -/
theorem roleOf_eq_owner_iff {db : Db} {viewerId ownerId : UserId} :
    db.roleOf viewerId ownerId = .owner ↔ viewerId = ownerId := by
  constructor
  · intro h
    by_contra hne
    unfold roleOf at h
    rw [if_neg hne] at h
    split at h
    · cases h
    · cases h
    · split at h <;> cases h
  · rintro rfl
    exact roleOf_self db viewerId

end Db

end Bookswap
