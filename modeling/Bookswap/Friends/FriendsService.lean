import Bookswap.Friends.FriendshipTransitions
import Bookswap.Friends.SocialSchema
import Bookswap.Lib.Checked

/-!
# friends.service.ts

The only writer of `Friendship.status`. An action is a transaction of two statements: `locate`
reads the pair's row, and `transitionIn` writes what `resolveTransition` decided from it, under
the condition that the row still has the status that was read. Between the two another
transaction may commit, so `transitionIn` takes the row that was read and the database as it is.

- `beginCall`: the checks of the four endpoints before the transaction.
- `locate`, `transitionIn`: the two statements.
- `transitionIn_eq_ok`: a write commits in exactly one of four ways (`Written`).
-/

namespace Bookswap

open Store Checked

/-! ## Errors -/

def friendshipNotFound (message : String) : Failure := apiError .notFound message 404

/-- `refusal`: the state machine's answer as an HTTP one. -/
def RefusalReason.refusal (reason : RefusalReason) (action : FriendshipAction) : Failure :=
  match reason with
  | .blocked => apiError .friendshipBlocked
      (if action = .remove then "Зняти блокування може лише той, хто його поставив"
      else "Дія недоступна: пару заблоковано") 403
  | .exists => apiError .friendshipExists "Запит уже надіслано або ви вже друзі" 409
  | .role => apiError .forbidden "Відповісти на запит може лише той, кому його надіслали" 403
  | .state =>
    if action = .remove then friendshipNotFound "Звʼязку з цим користувачем немає"
    else apiError .friendshipInvalidTransition "Дія неможлива в поточному стані дружби" 409

def friendshipConflict : Failure :=
  apiError .conflict "Звʼязок щойно змінив хтось інший — оновіть сторінку" 409

/-! ## Endpoints -/

/-- What a change is addressed to: a person, or one row by its identifier. -/
inductive FriendshipTarget
  | user (userId : UserId)
  | request (requestId : FriendshipId)
  deriving DecidableEq, Repr

/-- One action on its way through `apply`. -/
structure FriendCall where
  actorId : UserId
  target : FriendshipTarget
  action : FriendshipAction
  deriving DecidableEq, Repr

inductive FriendRequestAction
  | accept | decline
  deriving DecidableEq, Repr

/-- The four routes that change a friendship. -/
inductive FriendEndpoint
  | request (targetId : UserId)
  | respond (requestId : FriendshipId) (action : FriendRequestAction)
  | remove (otherId : UserId)
  | block (otherId : UserId)
  deriving DecidableEq, Repr

/-- `request`, `respond`, `remove`, `block`, up to the call of `apply`. -/
def beginCall (db : SocialDb) (actorId : UserId) (endpoint : FriendEndpoint) : Tx FriendCall :=
  match endpoint with
  | .request targetId => do
    throwIf (actorId = targetId)
      (apiError .friendshipSelf "Не можна надіслати запит самому собі" 400)
    throwIf (targetId ∉ db.users) (friendshipNotFound "Користувача не знайдено")
    return ⟨actorId, .user targetId, .request⟩
  | .respond requestId .accept => return ⟨actorId, .request requestId, .accept⟩
  | .respond requestId .decline => return ⟨actorId, .request requestId, .decline⟩
  | .remove otherId => return ⟨actorId, .user otherId, .remove⟩
  | .block otherId => do
    throwIf (actorId = otherId)
      (apiError .friendshipSelf "Не можна заблокувати самого себе" 400)
    throwIf (otherId ∉ db.users) (friendshipNotFound "Користувача не знайдено")
    return ⟨actorId, .user otherId, .block⟩

/-! ## The transaction -/

/-- What `locate` read: the row, and the other side of the pair. -/
structure Located where
  friendship : Option FriendshipRow
  otherId : UserId
  deriving DecidableEq

namespace Located

/-- The row without its identifier, as the state machine reads it. -/
def pair (read : Located) : Option Friendship := read.friendship.map FriendshipRow.toFriendship

end Located

/-- `locate`; a stranger's request, an unknown and a deleted one are the same 404. -/
def locate (db : SocialDb) (actorId : UserId) (target : FriendshipTarget) : Tx Located :=
  match target with
  | .user userId => return ⟨db.findPair actorId userId, userId⟩
  | .request requestId => do
    let f ← orThrow (db.friendships.find? requestId) (friendshipNotFound "Запит не знайдено")
    throwIf (f.isMember actorId = false) (friendshipNotFound "Запит не знайдено")
    return ⟨some f, f.otherIdOf actorId⟩

/-- The state machine's decision on what was read. -/
def decideTransition (read : Located) (actorId : UserId) (action : FriendshipAction) :
    FriendshipTransition :=
  FriendshipState.resolveTransition (stateOf read.pair) action (actorRoleOf read.pair actorId)

/-- The pair a transition has made friends. -/
structure AcceptedPair where
  friendshipId : FriendshipId
  userAId : UserId
  userBId : UserId
  deriving DecidableEq, Repr

structure TransitionOutcome where
  relation : FriendRelation
  accepted : Option AcceptedPair
  deriving DecidableEq, Repr

/-- `notify`: a request tells the other side, and so does an acceptance. -/
def SocialDb.notifyFriend (db : SocialDb) (f : FriendshipRow) (actorId : UserId) : SocialDb :=
  match f.status with
  | .pending => { db with
      notifications := db.notifications ++ [⟨f.otherIdOf actorId, .friendRequested, actorId, f.id⟩] }
  | .accepted => { db with
      notifications := db.notifications ++ [⟨f.otherIdOf actorId, .friendAccepted, actorId, f.id⟩] }
  | _ => db

def acceptedIn (f : FriendshipRow) : Option AcceptedPair :=
  if f.status = .accepted then some ⟨f.id, f.userAId, f.userBId⟩ else none

/-- The row `transitionIn` creates. An invitation's initiator is the inviter. -/
def createdFriendship (now : Time) (id : FriendshipId) (actorId otherId : UserId)
    (hne : actorId ≠ otherId) (action : FriendshipAction) (status : FriendshipStatus) :
    FriendshipRow where
  userAId := (normalizePair actorId otherId).1
  userBId := (normalizePair actorId otherId).2
  ordered := by
    unfold normalizePair
    split
    next h => exact h
    next h => exact Nat.lt_of_le_of_ne (Nat.le_of_not_lt h) (Ne.symm hne)
  status := status
  requestedById := if action = .invite then otherId else actorId
  blockedById := if status = .blocked then some actorId else none
  id := id
  respondedAt := if status = .pending then none else some now

/-- The columns an update writes: those of the row that was read, where they do not change. -/
def updatedFriendship (now : Time) (actorId : UserId) (read : FriendshipRow)
    (status : FriendshipStatus) : Table.Edit FriendshipRow.id where
  toFun f := { f with
    status := status
    requestedById := if status = .pending then actorId else read.requestedById
    blockedById := if status = .blocked then some actorId else read.blockedById
    respondedAt := if status = .pending then none else some now }
  keeps _ := rfl

/-- The row still has the identifier and the status that were read. -/
def FriendshipRow.stillAs (read f : FriendshipRow) : Bool := f.id = read.id ∧ f.status = read.status

/-- `transitionIn` after `locate`: `read` is what it found, `db` is what the write finds. -/
def transitionIn (now : Time) (newId : FriendshipId) (actorId : UserId) (read : Located)
    (action : FriendshipAction) (db : SocialDb) : Except TxFailure (SocialDb × TransitionOutcome) :=
  match decideTransition read actorId action, read.friendship with
  | .refused reason, _ => .error (.failed (reason.refusal action))
  | .create status, _ =>
    if hne : actorId = read.otherId then
      .error (.failed (.internal "normalizePair: пара із самим собою неможлива"))
    else do
      let created := createdFriendship now newId actorId read.otherId hne action status
      let db ← db.insertFriendship created
      return (db.notifyFriend created actorId,
        ⟨relationOf (some created.toFriendship) actorId, acceptedIn created⟩)
  | .unchanged, _ => .ok (db, ⟨relationOf read.pair actorId, none⟩)
  | .delete, some f => do
    throwIf (db.friendships.rows.countP f.stillAs ≠ 1) (.failed friendshipConflict)
    return ({ db with friendships := db.friendships.filter fun g => !f.stillAs g }, ⟨.none, none⟩)
  | .update status, some f => do
    let edit := updatedFriendship now actorId f status
    throwIf (db.friendships.rows.countP f.stillAs ≠ 1) (.failed friendshipConflict)
    return (({ db with friendships := db.friendships.updateWhere f.stillAs edit }).notifyFriend
        (edit f) actorId,
      ⟨relationOf (some (edit f).toFriendship) actorId, acceptedIn (edit f)⟩)
  | .delete, none | .update _, none =>
    .error (.failed (.internal "Недосяжно: перехід без рядка мусив бути create"))

/-! ## What a write does -/

section Written

variable {now : Time} {newId : FriendshipId} {actorId : UserId} {read : Located}
  {action : FriendshipAction} {db db' : SocialDb} {accepted : Option AcceptedPair}

@[simp] theorem SocialDb.notifyFriend_friendships (f : FriendshipRow) :
    (db.notifyFriend f actorId).friendships = db.friendships := by
  unfold SocialDb.notifyFriend
  split <;> rfl

@[simp] theorem SocialDb.notifyFriend_invitations (f : FriendshipRow) :
    (db.notifyFriend f actorId).invitations = db.invitations := by
  unfold SocialDb.notifyFriend
  split <;> rfl

@[simp] theorem SocialDb.notifyFriend_acceptances (f : FriendshipRow) :
    (db.notifyFriend f actorId).acceptances = db.acceptances := by
  unfold SocialDb.notifyFriend
  split <;> rfl

/-- The four ways in which a write commits. -/
inductive Written (now : Time) (newId : FriendshipId) (actorId : UserId) (read : Located)
    (action : FriendshipAction) (db : SocialDb) : SocialDb → Option AcceptedPair → Prop
  | created {status : FriendshipStatus} {t : Store.Table FriendshipRow.id}
      (hne : actorId ≠ read.otherId) :
      read.friendship = none → CreateRule action status →
      (∀ g ∈ db.friendships,
        g.pair ≠ (createdFriendship now newId actorId read.otherId hne action status).pair) →
      db.friendships.insert (createdFriendship now newId actorId read.otherId hne action status) =
        some t →
      Written now newId actorId read action db
        (({ db with friendships := t }).notifyFriend
          (createdFriendship now newId actorId read.otherId hne action status) actorId)
        (acceptedIn (createdFriendship now newId actorId read.otherId hne action status))
  | unchanged {f : FriendshipRow} :
      action = .invite → read.friendship = some f → f.status = .accepted →
      Written now newId actorId read action db db none
  | deleted {f : FriendshipRow} :
      action = .remove → read.friendship = some f →
      (f.status = .blocked → f.blockedById = some actorId) →
      (∃ g ∈ db.friendships, f.stillAs g) →
      Written now newId actorId read action db
        { db with friendships := db.friendships.filter fun g => !f.stillAs g } none
  | updated {f : FriendshipRow} {status : FriendshipStatus} :
      read.friendship = some f → UpdateRule f.toFriendship actorId action status →
      (∃ g ∈ db.friendships, f.stillAs g) →
      Written now newId actorId read action db
        (({ db with friendships :=
            db.friendships.updateWhere f.stillAs (updatedFriendship now actorId f status) }
          ).notifyFriend (updatedFriendship now actorId f status f) actorId)
        (acceptedIn (updatedFriendship now actorId f status f))

theorem FriendshipRow.exists_stillAs {f : FriendshipRow} (h : db.friendships.rows.countP f.stillAs = 1) :
    ∃ g ∈ db.friendships, f.stillAs g := by
  have hpos : 0 < db.friendships.rows.countP f.stillAs := by omega
  exact List.countP_pos_iff.mp hpos

/-- **A write that commits is one of the four.** -/
theorem transitionIn_eq_ok {outcome : TransitionOutcome}
    (h : transitionIn now newId actorId read action db = .ok (db', outcome)) :
    Written now newId actorId read action db db' outcome.accepted := by
  unfold transitionIn at h
  split at h
  · cases h
  next hdecide =>
    obtain ⟨hnone, hrule⟩ := resolveTransition_eq_create hdecide
    split at h
    · cases h
    next hne =>
      obtain ⟨db₁, hins, hret⟩ := bind_eq_ok.mp h
      obtain ⟨rfl, rfl⟩ := Prod.mk.inj (pure_eq_ok.mp hret)
      obtain ⟨hfresh, t, ht, rfl⟩ := SocialDb.insertFriendship_eq_ok.mp hins
      exact .created hne (Option.map_eq_none_iff.mp hnone) hrule hfresh ht
  next hdecide =>
    obtain ⟨hinvite, f, hread, hs⟩ := resolveTransition_eq_unchanged hdecide
    obtain ⟨row, hrow, rfl⟩ := Option.map_eq_some_iff.mp hread
    cases h
    exact .unchanged hinvite hrow hs
  next row hdecide hrow =>
    obtain ⟨hremove, f, hread, hblocker⟩ := resolveTransition_eq_delete hdecide
    obtain ⟨_, hcount, hret⟩ := bind_eq_ok.mp h
    obtain ⟨rfl, rfl⟩ := Prod.mk.inj (pure_eq_ok.mp hret)
    rw [Located.pair, hrow] at hread
    obtain rfl := Option.some.inj hread
    exact .deleted hremove hrow hblocker
      (FriendshipRow.exists_stillAs (not_not.mp (throwIf_eq_ok.mp hcount)))
  next status row hdecide hrow =>
    obtain ⟨f, hread, hrule⟩ := resolveTransition_eq_update hdecide
    obtain ⟨_, hcount, hret⟩ := bind_eq_ok.mp h
    obtain ⟨rfl, rfl⟩ := Prod.mk.inj (pure_eq_ok.mp hret)
    rw [Located.pair, hrow] at hread
    obtain rfl := Option.some.inj hread
    exact .updated hrow hrule
      (FriendshipRow.exists_stillAs (not_not.mp (throwIf_eq_ok.mp hcount)))
  · cases h
  · cases h

end Written

end Bookswap
