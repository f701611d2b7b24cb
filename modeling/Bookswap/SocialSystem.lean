import Bookswap.Invitations.InvitationsService
import Bookswap.Lib.Machine
import Mathlib.Logic.Function.Basic

/-!
# The running friends and invitations services

Every action is cut at the statements between which another transaction may commit. A call in
progress is in one `Phase`; a step moves one call on, so every interleaving of any number of
calls is a run. A call whose write meets a unique key that another transaction was first to use
starts again once, as `runWithRetry` and `runAcceptWithRetry` do.

- A lock is held by the call whose phase holds it (`Phase.invitationLock` and the two advisory
  locks of e-mail); a step that takes or needs a lock waits until no other call has it.
- `spent` is every `cuid` a friendship row was offered: none is used twice.
- `crash` ends a call without a commit wherever it is, and frees its locks.
-/

namespace Bookswap

open Store

abbrev CallId := Nat

/-- A call in progress; `attempt` counts the transactions it has begun, and `checkedAt` is the
time at which an invitation was read under its lock. -/
inductive Phase
  | friend (attempt : Nat) (call : FriendCall)
  | friendLocated (attempt : Nat) (call : FriendCall) (read : Located)
  | accept (attempt : Nat) (userId : UserId) (tokenHash : Digest)
  | acceptChecked (attempt : Nat) (userId : UserId) (tokenHash : Digest) (checkedAt : Time)
      (invitation : Invitation)
  | acceptLocated (attempt : Nat) (userId : UserId) (tokenHash : Digest) (checkedAt : Time)
      (invitation : Invitation) (read : Located)
  | email (req : EmailRequest)
  | emailUserLocked (req : EmailRequest)
  | emailLocked (req : EmailRequest)
  | emailCounted (req : EmailRequest) (perUser : Nat)
  | emailAllowed (req : EmailRequest)

namespace Phase

/-- The invitation row that is locked `FOR UPDATE`. -/
def invitationLock : Phase → Option InvitationId
  | .acceptChecked _ _ _ _ i | .acceptLocated _ _ _ _ i _ => some i.id
  | _ => none

/-- The advisory lock `invite-user:<id>`. -/
def userLock : Phase → Option UserId
  | .emailUserLocked req | .emailLocked req | .emailCounted req _ | .emailAllowed req =>
    some req.inviterId
  | _ => none

/-- The advisory lock `invite-rcpt:<hash>`. -/
def recipientLock : Phase → Option Digest
  | .emailLocked req | .emailCounted req _ | .emailAllowed req => some req.recipientEmailHash
  | _ => none

end Phase

/-- The committed database and the calls in progress. -/
structure Social where
  db : SocialDb
  calls : CallId → Option Phase
  spent : List FriendshipId

/-- How a transaction ended. -/
inductive Reply
  | done | again
  | failed (e : TxFailure)
  deriving DecidableEq, Repr

/-- The steps, each with the call it moves on and the values it draws. -/
inductive SocialOp
  | register (userId : UserId)
  | friend (c : CallId) (actorId : UserId) (endpoint : FriendEndpoint)
  | friendLocate (c : CallId)
  | friendWrite (c : CallId) (now : Time) (newId : FriendshipId) (reply : Reply)
  | accept (c : CallId) (userId : UserId) (tokenHash : Digest)
  | acceptLock (c : CallId) (now : Time)
  | acceptLocate (c : CallId)
  | acceptWrite (c : CallId) (now : Time) (newId : FriendshipId) (acceptanceId : AcceptanceId)
      (reply : Reply)
  | createLink (now : Time) (inviterId : UserId) (id : InvitationId) (tokenHash : Digest)
      (createdAt : Time)
  | revoke (now : Time) (inviterId : UserId) (id : InvitationId)
  | resolve (now : Time) (userId : UserId) (tokenHash : Digest)
  | email (c : CallId) (req : EmailRequest)
  | emailLockUser (c : CallId)
  | emailLockRecipient (c : CallId)
  | emailCountUser (c : CallId)
  | emailCountRecipient (c : CallId)
  | emailInsert (c : CallId) (req : EmailRequest) (id : InvitationId) (tokenHash : Digest)
      (createdAt : Time)
  /-- The letter of the invitation could not be sent. -/
  | emailFailed (now : Time) (id : InvitationId)
  | cleanup (now : Time)
  | crash (c : CallId)
  deriving DecidableEq, Repr

namespace Social

/-- A call goes on in the phase `p`, or ends. -/
def moveOn (s : Social) (c : CallId) (p : Option Phase) : Social :=
  { s with calls := Function.update s.calls c p }

/-- No other call holds the lock `k`. -/
def Unlocked {κ : Type} (s : Social) (c : CallId) (lock : Phase → Option κ) (k : κ) : Prop :=
  ∀ c' p, s.calls c' = some p → lock p = some k → c' = c

/-- Nobody is inside an acceptance of the invitation. -/
def InvitationFree (s : Social) (id : InvitationId) : Prop :=
  ∀ c p, s.calls c = some p → p.invitationLock ≠ some id

/-- The end of a transaction: it commits, fails, or is repeated once after a unique violation. -/
def settle (s : Social) (c : CallId) (attempt : Nat) (again : Phase) :
    Except TxFailure SocialDb → Social × Reply
  | .ok db => ({ s with db := db }.moveOn c none, .done)
  | .error (.uniqueViolation k) =>
    if attempt = 1 then (s.moveOn c (some again), .again)
    else (s.moveOn c none, .failed (.uniqueViolation k))
  | .error (.failed e) => (s.moveOn c none, .failed (.failed e))

/-- The steps. -/
inductive Step : Social → SocialOp → Social → Prop
  | register {s : Social} {u : UserId} : u ∉ s.db.users →
      Step s (.register u) { s with db := { s.db with users := u :: s.db.users } }
  -- friends.service.ts
  | friend {s : Social} {c : CallId} {actorId : UserId} {endpoint : FriendEndpoint}
      {call : FriendCall} : s.calls c = none → actorId ∈ s.db.users →
      beginCall s.db actorId endpoint = .ok call →
      Step s (.friend c actorId endpoint) (s.moveOn c (some (.friend 1 call)))
  | friendLocate {s : Social} {c : CallId} {attempt : Nat} {call : FriendCall} :
      s.calls c = some (.friend attempt call) →
      Step s (.friendLocate c) (s.moveOn c
        ((locate s.db call.actorId call.target).toOption.map (.friendLocated attempt call)))
  | friendWrite {s s' : Social} {c : CallId} {attempt : Nat} {call : FriendCall} {read : Located}
      {now : Time} {newId : FriendshipId} {reply : Reply} :
      s.calls c = some (.friendLocated attempt call read) → newId ∉ s.spent →
      settle { s with spent := newId :: s.spent } c attempt (.friend 2 call)
        (Prod.fst <$> transitionIn now newId call.actorId read call.action s.db) = (s', reply) →
      Step s (.friendWrite c now newId reply) s'
  -- invitations.service.ts
  | accept {s : Social} {c : CallId} {userId : UserId} {tokenHash : Digest} :
      s.calls c = none → userId ∈ s.db.users →
      Step s (.accept c userId tokenHash) (s.moveOn c (some (.accept 1 userId tokenHash)))
  | acceptLock {s : Social} {c : CallId} {attempt : Nat} {userId : UserId} {tokenHash : Digest}
      {now : Time} {check : Option AcceptCheck} :
      s.calls c = some (.accept attempt userId tokenHash) →
      (∀ i, s.db.invitationOf tokenHash = some i → s.InvitationFree i.id) →
      (acceptCheck now userId tokenHash s.db).toOption = check →
      Step s (.acceptLock c now) (s.moveOn c (check.bind fun
        | .proceed i => some (.acceptChecked attempt userId tokenHash now i)
        | .already _ => none))
  | acceptLocate {s : Social} {c : CallId} {attempt : Nat} {userId : UserId} {tokenHash : Digest}
      {checkedAt : Time} {i : Invitation} :
      s.calls c = some (.acceptChecked attempt userId tokenHash checkedAt i) →
      Step s (.acceptLocate c) (s.moveOn c (some (.acceptLocated attempt userId tokenHash checkedAt
        i ⟨s.db.findPair userId i.inviterId, i.inviterId⟩)))
  | acceptWrite {s s' : Social} {c : CallId} {attempt : Nat} {userId : UserId}
      {tokenHash : Digest} {checkedAt : Time} {i : Invitation} {read : Located} {now : Time}
      {newId : FriendshipId} {acceptanceId : AcceptanceId} {reply : Reply} :
      s.calls c = some (.acceptLocated attempt userId tokenHash checkedAt i read) →
      newId ∉ s.spent →
      settle { s with spent := newId :: s.spent } c attempt (.accept 2 userId tokenHash)
        (Prod.fst <$> Bookswap.acceptWrite now newId acceptanceId userId i read s.db) =
          (s', reply) →
      Step s (.acceptWrite c now newId acceptanceId reply) s'
  | createLink {s : Social} {now : Time} {inviterId : UserId} {id : InvitationId}
      {tokenHash : Digest} {createdAt : Time} {db : SocialDb} : inviterId ∈ s.db.users →
      s.db.insertInvitation (linkInvitation now inviterId id tokenHash createdAt) = .ok db →
      Step s (.createLink now inviterId id tokenHash createdAt) { s with db := db }
  | revoke {s : Social} {now : Time} {inviterId : UserId} {id : InvitationId} {db : SocialDb} :
      s.InvitationFree id → Bookswap.revoke now inviterId id s.db = .ok db →
      Step s (.revoke now inviterId id) { s with db := db }
  | resolve {s : Social} {now : Time} {userId : UserId} {tokenHash : Digest} :
      Step s (.resolve now userId tokenHash) s
  -- createEmailWith
  | email {s : Social} {c : CallId} {req : EmailRequest} : s.calls c = none →
      req.inviterId ∈ s.db.users → Step s (.email c req) (s.moveOn c (some (.email req)))
  | emailLockUser {s : Social} {c : CallId} {req : EmailRequest} :
      s.calls c = some (.email req) → s.Unlocked c Phase.userLock req.inviterId →
      Step s (.emailLockUser c) (s.moveOn c (some (.emailUserLocked req)))
  | emailLockRecipient {s : Social} {c : CallId} {req : EmailRequest} :
      s.calls c = some (.emailUserLocked req) →
      s.Unlocked c Phase.recipientLock req.recipientEmailHash →
      Step s (.emailLockRecipient c) (s.moveOn c (some (.emailLocked req)))
  | emailCountUser {s : Social} {c : CallId} {req : EmailRequest} :
      s.calls c = some (.emailLocked req) →
      Step s (.emailCountUser c) (s.moveOn c (some (.emailCounted req (s.db.countPerUser req))))
  | emailCountRecipient {s : Social} {c : CallId} {req : EmailRequest} {perUser : Nat} :
      s.calls c = some (.emailCounted req perUser) →
      Step s (.emailCountRecipient c) (s.moveOn c
        (if withinEmailLimits perUser (s.db.countPerRecipient req) then some (.emailAllowed req)
        else none))
  | emailInsert {s : Social} {c : CallId} {req : EmailRequest} {id : InvitationId}
      {tokenHash : Digest} {createdAt : Time} {db : SocialDb} :
      s.calls c = some (.emailAllowed req) → req.now ≤ createdAt →
      s.db.insertInvitation (emailInvitation req id tokenHash createdAt) = .ok db →
      Step s (.emailInsert c req id tokenHash createdAt) ({ s with db := db }.moveOn c none)
  | emailFailed {s : Social} {now : Time} {id : InvitationId} : s.InvitationFree id →
      Step s (.emailFailed now id) { s with db := s.db.withRevoked now fun i => i.id = id }
  | cleanup {s : Social} {now : Time} :
      (∀ i ∈ s.db.invitations, i.outOfWindow now → s.InvitationFree i.id) →
      Step s (.cleanup now) { s with db := clearRecipientHashes now s.db }
  | crash {s : Social} {c : CallId} : Step s (.crash c) (s.moveOn c none)

/-- Nobody has acted yet. -/
structure Init (s : Social) : Prop where
  no_friendships : s.db.friendships = .empty
  no_invitations : s.db.invitations = .empty
  no_acceptances : s.db.acceptances = .empty
  no_notifications : s.db.notifications = []
  no_calls : ∀ c, s.calls c = none

end Social

/-- The machine of the two services. -/
def socialSystem : Machine Social SocialOp where
  init := Social.Init
  step := Social.Step

theorem socialSystem_next {s s' : Social} (hr : socialSystem.Reachable s) (op : SocialOp)
    (hs : s.Step op s') : socialSystem.Reachable s' := hr.next hs

/-- Two people who have not met. -/
def exampleSocial : Social where
  db := ⟨[1, 2], .empty, [], .empty, .empty⟩
  calls _ := none
  spent := []

theorem exampleSocial_init : exampleSocial.Init := ⟨rfl, rfl, rfl, rfl, fun _ => rfl⟩

theorem exampleSocial_reachable : socialSystem.Reachable exampleSocial := .start exampleSocial_init

end Bookswap
