import Bookswap.Access

/-!
# The rows of friends and invitations

`Friendship`, `Invitation` and `InvitationAcceptance` of `prisma/schema.prisma`, as the friends
and the invitations service write them.

- `FriendshipRow` adds to the pair of `Access` its identifier, which `PATCH
  /friends/requests/:id` addresses: a deleted row's identifier never comes back.
- `Friendship_userAId_userBId_key` and `InvitationAcceptance_invitationId_userId_key` are
  checked at the insert (`insertFriendship`, `insertAcceptance`).
-/

namespace Bookswap

open Store (Table)

abbrev FriendshipId := Nat
abbrev InvitationId := Nat
abbrev AcceptanceId := Nat

/-! ## Rows -/

structure FriendshipRow extends Friendship where
  id : FriendshipId
  respondedAt : Option Time
  deriving DecidableEq

inductive InvitationKind
  | link | email
  deriving DecidableEq, Repr

structure Invitation where
  id : InvitationId
  inviterId : UserId
  kind : InvitationKind
  tokenHash : Digest
  recipientEmailHash : Option Digest
  maxUses : Nat
  expiresAt : Time
  revokedAt : Option Time
  createdAt : Time
  deriving DecidableEq, Repr

structure InvitationAcceptance where
  id : AcceptanceId
  invitationId : InvitationId
  userId : UserId
  deriving DecidableEq, Repr

inductive FriendNotificationType
  | friendRequested | friendAccepted
  deriving DecidableEq, Repr

structure FriendNotification where
  userId : UserId
  type : FriendNotificationType
  actorId : UserId
  friendshipId : FriendshipId
  deriving DecidableEq, Repr

/-! ## The database -/

structure SocialDb where
  users : List UserId
  friendships : Table FriendshipRow.id
  notifications : List FriendNotification
  invitations : Table Invitation.id
  acceptances : Table InvitationAcceptance.id

namespace SocialDb

/-- `findPair`: the row of the pair, if there is one. -/
def findPair (db : SocialDb) (oneId otherId : UserId) : Option FriendshipRow :=
  if oneId = otherId then none
  else db.friendships.rows.find? fun f => f.pair = normalizePair oneId otherId

/-- `friendship.create`, under the primary key and the key of the pair. -/
def insertFriendship (db : SocialDb) (f : FriendshipRow) : Except TxFailure SocialDb :=
  if ∃ g ∈ db.friendships.rows, g.pair = f.pair then
    .error (.uniqueViolation "Friendship_userAId_userBId_key")
  else match db.friendships.insert f with
    | none => .error (.uniqueViolation "Friendship_pkey")
    | some friendships => .ok { db with friendships := friendships }

/-- The use count of an invitation: the number of its rows. -/
def acceptancesOf (db : SocialDb) (invitationId : InvitationId) : List InvitationAcceptance :=
  db.acceptances.rows.filter fun a => a.invitationId = invitationId

/-- `invitationAcceptance.create`, under the primary key and one row per person. -/
def insertAcceptance (db : SocialDb) (a : InvitationAcceptance) : Except TxFailure SocialDb :=
  if ∃ b ∈ db.acceptances.rows, b.invitationId = a.invitationId ∧ b.userId = a.userId then
    .error (.uniqueViolation "InvitationAcceptance_invitationId_userId_key")
  else match db.acceptances.insert a with
    | none => .error (.uniqueViolation "InvitationAcceptance_pkey")
    | some acceptances => .ok { db with acceptances := acceptances }

theorem findPair_eq_some {db : SocialDb} {a b : UserId} {f : FriendshipRow}
    (h : db.findPair a b = some f) :
    a ≠ b ∧ f ∈ db.friendships ∧ f.pair = normalizePair a b := by
  unfold findPair at h
  split at h
  · cases h
  next hne => exact ⟨hne, List.mem_of_find?_eq_some h, by simpa using List.find?_some h⟩

theorem findPair_eq_none {db : SocialDb} {a b : UserId} (hne : a ≠ b) :
    db.findPair a b = none ↔ ∀ f ∈ db.friendships, f.pair ≠ normalizePair a b := by
  unfold findPair
  rw [if_neg hne, List.find?_eq_none]
  exact forall₂_congr fun f _ => by simp

theorem insertFriendship_eq_ok {db db' : SocialDb} {f : FriendshipRow} :
    db.insertFriendship f = .ok db' ↔
      (∀ g ∈ db.friendships, g.pair ≠ f.pair) ∧
        ∃ t, db.friendships.insert f = some t ∧ db' = { db with friendships := t } := by
  unfold insertFriendship
  by_cases h : ∃ g ∈ db.friendships.rows, g.pair = f.pair
  · rw [if_pos h]
    obtain ⟨g, hg, hp⟩ := h
    simp only [reduceCtorEq, false_iff, not_and]
    exact fun hne => absurd hp (hne g hg)
  · rw [if_neg h]
    have hne : ∀ g ∈ db.friendships, g.pair ≠ f.pair := fun g hg hp => h ⟨g, hg, hp⟩
    cases hins : db.friendships.insert f with
    | none => simp
    | some t => exact ⟨fun h => ⟨hne, t, rfl, (Except.ok.inj h).symm⟩, fun ⟨_, _, ht, hdb⟩ => by
        rw [hdb, Option.some.inj ht]⟩

theorem insertAcceptance_eq_ok {db db' : SocialDb} {a : InvitationAcceptance} :
    db.insertAcceptance a = .ok db' ↔
      (∀ b ∈ db.acceptances, b.invitationId = a.invitationId → b.userId ≠ a.userId) ∧
        ∃ t, db.acceptances.insert a = some t ∧ db' = { db with acceptances := t } := by
  unfold insertAcceptance
  by_cases h : ∃ b ∈ db.acceptances.rows, b.invitationId = a.invitationId ∧ b.userId = a.userId
  · rw [if_pos h]
    obtain ⟨b, hb, hi, hu⟩ := h
    simp only [reduceCtorEq, false_iff, not_and]
    exact fun hne => absurd hu (hne b hb hi)
  · rw [if_neg h]
    have hne : ∀ b ∈ db.acceptances, b.invitationId = a.invitationId → b.userId ≠ a.userId :=
      fun b hb hi hu => h ⟨b, hb, hi, hu⟩
    cases hins : db.acceptances.insert a with
    | none => simp
    | some t => exact ⟨fun h => ⟨hne, t, rfl, (Except.ok.inj h).symm⟩, fun ⟨_, _, ht, hdb⟩ => by
        rw [hdb, Option.some.inj ht]⟩

end SocialDb

end Bookswap
