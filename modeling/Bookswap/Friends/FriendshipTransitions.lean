import Bookswap.Access

/-!
# friendship.transitions.ts

The state machine of a pair of users. It is pure: what it decides depends on the state of
the pair, the action and the role of the one who acts, and on nothing in the database.

- `resolveTransition`: the one place that says what may follow what.
- `stateOf`, `actorRoleOf`: the state and the role, read off the pair's row
  (friendship.pair.ts).
-/

namespace Bookswap

/-! ## friendship.pair.ts -/

/-- The state of a pair: the status of its row, or `NONE` without a row. -/
inductive FriendshipState
  | none
  | of (status : FriendshipStatus)
  deriving DecidableEq, Repr

/-- Whoever acts, as the row sees them; sides A and B do not matter. -/
inductive ActorRole
  | none | requester | recipient | blocker | blocked
  deriving DecidableEq, Repr

def stateOf (friendship : Option Friendship) : FriendshipState :=
  match friendship with
  | .none => .none
  | some f => .of f.status

def actorRoleOf (friendship : Option Friendship) (actorId : UserId) : ActorRole :=
  match friendship with
  | .none => .none
  | some f =>
    if f.status = .blocked then if f.blockedById = some actorId then .blocker else .blocked
    else if f.requestedById = actorId then .requester else .recipient

/-! ## Transitions -/

inductive FriendshipAction
  | request | accept | decline | remove | block | invite
  deriving DecidableEq, Repr

inductive RefusalReason
  | blocked | exists | role | state
  deriving DecidableEq, Repr

/-- `TransitionResult`: what an action does to the pair, or why it is refused. -/
inductive FriendshipTransition
  | create (status : FriendshipStatus)
  | update (status : FriendshipStatus)
  | delete
  | unchanged
  | refused (reason : RefusalReason)
  deriving DecidableEq, Repr

/-- Only the one who set a block lifts it. -/
def fromBlocked (action : FriendshipAction) (actor : ActorRole) : FriendshipTransition :=
  if action = .remove ∧ actor = .blocker then .delete else .refused .blocked

def toRequest (state : FriendshipState) (actor : ActorRole) : FriendshipTransition :=
  match state with
  | .none => .create .pending
  | .of .declined => .update .pending
  -- A request from the other side is an answer: both asked.
  | .of .pending => if actor = .recipient then .update .accepted else .refused .exists
  | .of .accepted => .refused .exists
  | .of .blocked => .refused .blocked

def toAccept (state : FriendshipState) (actor : ActorRole) : FriendshipTransition :=
  if state ≠ .of .pending then .refused .state
  else if actor = .recipient then .update .accepted
  else .refused .role

def toDecline (state : FriendshipState) (actor : ActorRole) : FriendshipTransition :=
  if state ≠ .of .pending then .refused .state
  else if actor = .recipient then .update .declined
  else .refused .role

def toInvite (state : FriendshipState) : FriendshipTransition :=
  match state with
  | .none => .create .accepted
  | .of .pending | .of .declined => .update .accepted
  | .of .accepted => .unchanged
  | .of .blocked => .refused .blocked

def toRemove (state : FriendshipState) : FriendshipTransition :=
  if state = .none then .refused .state else .delete

/-- `resolveTransition`; a block is stronger than any other state. -/
def FriendshipState.resolveTransition (state : FriendshipState) (action : FriendshipAction)
    (actor : ActorRole) : FriendshipTransition :=
  if state = .of .blocked then fromBlocked action actor
  else match action with
    | .request => toRequest state actor
    | .accept => toAccept state actor
    | .decline => toDecline state actor
    | .remove => toRemove state
    | .invite => toInvite state
    | .block => if state = .none then .create .blocked else .update .blocked

/-! ## What the machine decides

One lemma per kind of decision says from which row, and by whom, it can come. Later proofs
cite these and unfold no transition. -/

section Decisions

variable {friendship : Option Friendship} {f : Friendship} {action : FriendshipAction}
  {actorId : UserId} {status : FriendshipStatus}

/-- The recipient of a row is whoever did not ask for it. -/
theorem actorRoleOf_eq_recipient :
    actorRoleOf (some f) actorId = .recipient ↔ f.status ≠ .blocked ∧ f.requestedById ≠ actorId := by
  unfold actorRoleOf
  by_cases hb : f.status = .blocked
  · by_cases ha : f.blockedById = some actorId <;> simp [hb, ha]
  · by_cases hr : f.requestedById = actorId <;> simp [hb, hr]

theorem actorRoleOf_eq_blocker :
    actorRoleOf (some f) actorId = .blocker ↔ f.status = .blocked ∧ f.blockedById = some actorId := by
  unfold actorRoleOf
  by_cases hb : f.status = .blocked
  · by_cases ha : f.blockedById = some actorId <;> simp [hb, ha]
  · by_cases hr : f.requestedById = actorId <;> simp [hb, hr]

theorem resolveTransition_of_ne_create (s : FriendshipStatus) (action : FriendshipAction)
    (role : ActorRole) (status : FriendshipStatus) :
    FriendshipState.resolveTransition (.of s) action role ≠ .create status := by
  cases s <;> cases action <;> cases role <;> exact fun h => nomatch h

/-- How a row can begin. -/
inductive CreateRule : FriendshipAction → FriendshipStatus → Prop
  | request : CreateRule .request .pending
  | block : CreateRule .block .blocked
  | invite : CreateRule .invite .accepted

/-- A row is created only where there is none, in one of three states. -/
theorem resolveTransition_eq_create
    (h : (stateOf friendship).resolveTransition action (actorRoleOf friendship actorId) =
      .create status) :
    friendship = none ∧ CreateRule action status := by
  cases friendship with
  | none =>
    refine ⟨rfl, ?_⟩
    cases action with
    | request => cases h; exact .request
    | block => cases h; exact .block
    | invite => cases h; exact .invite
    | accept => cases h
    | decline => cases h
    | remove => cases h
  | some f => exact absurd h (resolveTransition_of_ne_create _ _ _ _)

/-- What an update can do to a row, and who can make it. -/
inductive UpdateRule (f : Friendship) (actorId : UserId) :
    FriendshipAction → FriendshipStatus → Prop
  | ask : f.status = .declined → UpdateRule f actorId .request .pending
  | answer {action : FriendshipAction} : action = .request ∨ action = .accept →
      f.status = .pending → f.requestedById ≠ actorId → UpdateRule f actorId action .accepted
  | decline : f.status = .pending → f.requestedById ≠ actorId →
      UpdateRule f actorId .decline .declined
  | invite : f.status = .pending ∨ f.status = .declined → UpdateRule f actorId .invite .accepted
  | block : f.status ≠ .blocked → UpdateRule f actorId .block .blocked

theorem resolveTransition_eq_update
    (h : (stateOf friendship).resolveTransition action (actorRoleOf friendship actorId) =
      .update status) :
    ∃ f, friendship = some f ∧ UpdateRule f actorId action status := by
  cases friendship with
  | none =>
    revert h
    cases action <;>
      simp [FriendshipState.resolveTransition, stateOf, toRequest, toAccept, toDecline, toRemove, toInvite]
  | some f =>
    refine ⟨f, rfl, ?_⟩
    unfold FriendshipState.resolveTransition at h
    split at h
    · unfold fromBlocked at h
      split at h <;> cases h
    next hb =>
      have hnb : f.status ≠ .blocked := fun hs => hb (congrArg FriendshipState.of hs)
      cases action with
      | request =>
        simp only [stateOf, toRequest] at h
        split at h
        · cases h
        next hs =>
          cases h
          exact .ask (FriendshipState.of.inj hs)
        next hs =>
          split at h
          next hrole =>
            cases h
            exact .answer (Or.inl rfl) (FriendshipState.of.inj hs)
              (actorRoleOf_eq_recipient.mp hrole).2
          · cases h
        · cases h
        · cases h
      | accept =>
        by_cases hs : f.status = .pending
        · by_cases hr : f.requestedById = actorId
          · simp [stateOf, toAccept, actorRoleOf, hs, hr] at h
          · simp only [stateOf, toAccept, actorRoleOf, hs, hr, reduceCtorEq, if_false, if_true, ne_eq,
              not_true_eq_false, FriendshipTransition.update.injEq] at h
            subst h
            exact .answer (Or.inr rfl) hs hr
        · simp [stateOf, toAccept, hs] at h
      | decline =>
        by_cases hs : f.status = .pending
        · by_cases hr : f.requestedById = actorId
          · simp [stateOf, toDecline, actorRoleOf, hs, hr] at h
          · simp only [stateOf, toDecline, actorRoleOf, hs, hr, reduceCtorEq, if_false, if_true, ne_eq,
              not_true_eq_false, FriendshipTransition.update.injEq] at h
            subst h
            exact .decline hs hr
        · simp [stateOf, toDecline, hs] at h
      | remove => simp [stateOf, toRemove] at h
      | block =>
        simp only [stateOf, reduceCtorEq, if_false] at h
        cases h
        exact .block hnb
      | invite =>
        simp only [stateOf, toInvite] at h
        split at h
        · cases h
        next hs =>
          cases h
          exact .invite (Or.inl (FriendshipState.of.inj hs))
        next hs =>
          cases h
          exact .invite (Or.inr (FriendshipState.of.inj hs))
        · cases h
        · cases h

/-- A row is deleted by `remove` alone; a blocked one only by its blocker. -/
theorem resolveTransition_eq_delete
    (h : (stateOf friendship).resolveTransition action (actorRoleOf friendship actorId) =
      .delete) :
    action = .remove ∧
      ∃ f, friendship = some f ∧ (f.status = .blocked → f.blockedById = some actorId) := by
  cases friendship with
  | none =>
    revert h
    cases action <;>
      simp [FriendshipState.resolveTransition, stateOf, toRequest, toAccept, toDecline, toRemove, toInvite]
  | some f =>
    have hrule : ∀ (s : FriendshipStatus) (role : ActorRole),
        FriendshipState.resolveTransition (.of s) action role = .delete →
          action = .remove ∧ (s = .blocked → role = .blocker) := by
      intro s role
      cases s <;> cases action <;> cases role <;> decide
    obtain ⟨hremove, hblocker⟩ := hrule _ _ h
    exact ⟨hremove, f, rfl, fun hb => (actorRoleOf_eq_blocker.mp (hblocker hb)).2⟩

/-- Only an invitation between friends leaves the pair as it is. -/
theorem resolveTransition_eq_unchanged
    (h : (stateOf friendship).resolveTransition action (actorRoleOf friendship actorId) =
      .unchanged) :
    action = .invite ∧ ∃ f, friendship = some f ∧ f.status = .accepted := by
  cases friendship with
  | none =>
    revert h
    cases action <;>
      simp [FriendshipState.resolveTransition, stateOf, toRequest, toAccept, toDecline, toRemove, toInvite]
  | some f =>
    have hrule : ∀ (s : FriendshipStatus) (role : ActorRole),
        FriendshipState.resolveTransition (.of s) action role = .unchanged → action = .invite ∧ s = .accepted := by
      intro s role
      cases s <;> cases action <;> cases role <;> decide
    obtain ⟨hinvite, haccepted⟩ := hrule _ _ h
    exact ⟨hinvite, f, rfl, haccepted⟩

end Decisions

end Bookswap
