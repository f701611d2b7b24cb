import Bookswap.Friends.FriendsService

/-!
# invitations.service.ts

Invitations and their acceptance. Accepting is one transaction of four statements: lock the
invitation's row and read it (`acceptCheck`), read the pair (`locate`), write the friendship and
the acceptance row (`acceptWrite`). Sending by e-mail counts earlier invitations under two
advisory locks (`countPerUser`, `countPerRecipient`), then inserts (`emailInvitation`).

- `invitationStatusOf`: the pure rule (invitation.rules.ts).
- `revoke`, `resolve`: one statement each.
- `clearRecipientHashes`: a run of invite-email-hash-cleanup.service.ts.
-/

namespace Bookswap

open Store Checked

/-! ## invitation.rules.ts -/

def INVITATION_TTL_MS : Int := 14 * DAY_MS
def EMAIL_RECIPIENT_LIMIT_WINDOW_MS : Int := 7 * DAY_MS
def INVITATION_LINK_MAX_USES : Nat := 10
def INVITATION_EMAIL_MAX_USES : Nat := 1
def EMAIL_INVITES_PER_USER_PER_DAY : Nat := 10
def EMAIL_INVITES_PER_RECIPIENT_PER_WEEK : Nat := 3

inductive InvitationStatus
  | revoked | expired | exhausted | active
  deriving DecidableEq, Repr

structure InvitationFacts where
  expiresAt : Time
  revokedAt : Option Time
  acceptedCount : Nat
  maxUses : Nat
  deriving DecidableEq, Repr

def invitationStatusOf (facts : InvitationFacts) (now : Time) : InvitationStatus :=
  if facts.revokedAt ≠ none then .revoked
  else if facts.expiresAt ≤ now then .expired
  else if facts.maxUses ≤ facts.acceptedCount then .exhausted
  else .active

/-- `factsOf` -/
def SocialDb.factsOf (db : SocialDb) (i : Invitation) : InvitationFacts :=
  ⟨i.expiresAt, i.revokedAt, (db.acceptancesOf i.id).length, i.maxUses⟩

theorem invitationStatusOf_eq_active {facts : InvitationFacts} {now : Time} :
    invitationStatusOf facts now = .active ↔
      facts.revokedAt = none ∧ now < facts.expiresAt ∧ facts.acceptedCount < facts.maxUses := by
  unfold invitationStatusOf
  by_cases hr : facts.revokedAt = none
  · by_cases he : facts.expiresAt ≤ now
    · simp [hr, he, Int.not_lt.mpr he]
    · by_cases hm : facts.maxUses ≤ facts.acceptedCount
      · simp [hr, he, hm]
      · simp [hr, he, hm, Int.not_le.mp he, Nat.not_le.mp hm]
  · simp [hr]

/-! ## Errors -/

def inviteInvalid : Failure := apiError .inviteInvalid "Запрошення недійсне" 404

/-- `gone` -/
def gone (code : ErrorCode) (message : String) : Failure := apiError code message 410

/-! ## Accepting -/

/-- `relationWith` -/
def SocialDb.relationWith (db : SocialDb) (viewerId otherId : UserId) : FriendRelation :=
  if viewerId = otherId then .none
  else relationOf ((db.findPair viewerId otherId).map FriendshipRow.toFriendship) viewerId

structure AcceptOutcome where
  relation : FriendRelation
  inviterId : UserId
  accepted : Option AcceptedPair
  acceptanceId : Option AcceptanceId
  deriving DecidableEq, Repr

def SocialDb.invitationOf (db : SocialDb) (tokenHash : Digest) : Option Invitation :=
  db.invitations.rows.find? fun i => i.tokenHash = tokenHash

/-- What the invitation's row says under its lock: go on with it, or this person has accepted it
before, also when it has been revoked or has expired since. -/
inductive AcceptCheck
  | proceed (invitation : Invitation)
  | already (outcome : AcceptOutcome)
  deriving DecidableEq, Repr

def acceptCheck (now : Time) (userId : UserId) (tokenHash : Digest) (db : SocialDb) :
    Tx AcceptCheck := do
  let row ← orThrow (db.invitationOf tokenHash) inviteInvalid
  throwIf (row.inviterId = userId) (apiError .inviteSelf "Це ваше власне запрошення" 400)
  if ∃ a ∈ db.acceptancesOf row.id, a.userId = userId then
    return .already ⟨db.relationWith userId row.inviterId, row.inviterId, none, none⟩
  else match invitationStatusOf (db.factsOf row) now with
    | .revoked => .error (gone .inviteRevoked "Запрошення відкликано")
    | .expired => .error (gone .inviteExpired "Строк запрошення минув")
    | .exhausted => .error (gone .inviteExhausted "Запрошення вже використане")
    | .active => return .proceed row

/-- `acceptInviteIn`: any refusal of the friends service is `null`. -/
def acceptInviteIn (now : Time) (newId : FriendshipId) (inviteeId : UserId) (read : Located)
    (db : SocialDb) : Except TxFailure (Option (SocialDb × TransitionOutcome)) :=
  match transitionIn now newId inviteeId read .invite db with
  | .ok result => .ok (some result)
  | .error (.failed (.api _)) => .ok none
  | .error e => .error e

/-- The rest of `acceptOnce`. Friends already: no use is spent and no row is written. -/
def acceptWrite (now : Time) (newId : FriendshipId) (acceptanceId : AcceptanceId)
    (userId : UserId) (invitation : Invitation) (read : Located) (db : SocialDb) :
    Except TxFailure (SocialDb × AcceptOutcome) := do
  let (db, result) ← orThrow (← acceptInviteIn now newId userId read db) (.failed inviteInvalid)
  match result.accepted with
  | none => return (db, ⟨result.relation, invitation.inviterId, none, none⟩)
  | some accepted =>
    let db ← db.insertAcceptance ⟨acceptanceId, invitation.id, userId⟩
    return (db, ⟨result.relation, invitation.inviterId, some accepted, some acceptanceId⟩)

/-! ## Revoking and resolving -/

/-- `revokedAt` is set once. -/
def revokeEdit (now : Time) : Table.Edit Invitation.id where
  toFun i := { i with revokedAt := some now }
  keeps _ := rfl

def SocialDb.withRevoked (db : SocialDb) (now : Time) (p : Invitation → Bool) : SocialDb :=
  { db with invitations := db.invitations.updateWhere p (revokeEdit now) }

def revoke (now : Time) (inviterId : UserId) (id : InvitationId) (db : SocialDb) :
    Tx SocialDb := do
  discard <| orThrow (db.invitations.rows.find? fun i => i.id = id ∧ i.inviterId = inviterId)
    (apiError .notFound "Запрошення не знайдено" 404)
  return db.withRevoked now fun i => i.id = id ∧ i.revokedAt = none

inductive InvitationResolveState
  | self | alreadyAccepted
  | status (s : InvitationStatus)
  deriving DecidableEq, Repr

structure ResolveInvitationResponse where
  state : InvitationResolveState
  inviterId : UserId
  relation : FriendRelation
  deriving DecidableEq, Repr

def resolve (now : Time) (userId : UserId) (tokenHash : Digest) (db : SocialDb) :
    Tx ResolveInvitationResponse := do
  let row ← orThrow (db.invitationOf tokenHash) inviteInvalid
  let relation := db.relationWith userId row.inviterId
  throwIf (relation = .blockedByMe ∨ relation = .blockedMe) inviteInvalid
  let state :=
    if row.inviterId = userId then .self
    else if ∃ a ∈ db.acceptancesOf row.id, a.userId = userId then .alreadyAccepted
    else .status (invitationStatusOf (db.factsOf row) now)
  return ⟨state, row.inviterId, relation⟩

/-! ## Creating -/

/-- The row of `createLink`. -/
def linkInvitation (now : Time) (inviterId : UserId) (id : InvitationId) (tokenHash : Digest)
    (createdAt : Time) : Invitation where
  id := id
  inviterId := inviterId
  kind := .link
  tokenHash := tokenHash
  recipientEmailHash := none
  maxUses := INVITATION_LINK_MAX_USES
  expiresAt := now + INVITATION_TTL_MS
  revokedAt := none
  createdAt := createdAt

/-- What `createEmailWith` has read before its transaction. -/
structure EmailRequest where
  inviterId : UserId
  recipientEmailHash : Digest
  now : Time
  deriving DecidableEq, Repr

def SocialDb.countPerUser (db : SocialDb) (req : EmailRequest) : Nat :=
  db.invitations.rows.countP fun i =>
    i.inviterId = req.inviterId ∧ i.kind = .email ∧ req.now - DAY_MS < i.createdAt

def SocialDb.countPerRecipient (db : SocialDb) (req : EmailRequest) : Nat :=
  db.invitations.rows.countP fun i =>
    i.recipientEmailHash = some req.recipientEmailHash ∧
      req.now - EMAIL_RECIPIENT_LIMIT_WINDOW_MS < i.createdAt

/-- Is another letter allowed after these counts? -/
def withinEmailLimits (perUser perRecipient : Nat) : Bool :=
  perUser < EMAIL_INVITES_PER_USER_PER_DAY ∧
    perRecipient < EMAIL_INVITES_PER_RECIPIENT_PER_WEEK

def inviteRateLimited : Failure :=
  apiError .inviteRateLimited
    "Забагато запрошень поштою. Спробуйте пізніше або поділіться посиланням." 429

/-- The row of `createEmailWith`. -/
def emailInvitation (req : EmailRequest) (id : InvitationId) (tokenHash : Digest)
    (createdAt : Time) : Invitation where
  id := id
  inviterId := req.inviterId
  kind := .email
  tokenHash := tokenHash
  recipientEmailHash := some req.recipientEmailHash
  maxUses := INVITATION_EMAIL_MAX_USES
  expiresAt := req.now + INVITATION_TTL_MS
  revokedAt := none
  createdAt := createdAt

/-- `invitation.create`, under the primary key and the key of the token. -/
def SocialDb.insertInvitation (db : SocialDb) (i : Invitation) : Except TxFailure SocialDb :=
  if ∃ j ∈ db.invitations.rows, j.tokenHash = i.tokenHash then
    .error (.uniqueViolation "Invitation_tokenHash_key")
  else match db.invitations.insert i with
    | none => .error (.uniqueViolation "Invitation_pkey")
    | some invitations => .ok { db with invitations := invitations }

/-! ## invite-email-hash-cleanup.service.ts -/

/-- The row has left the window of the limit on its address. -/
def Invitation.outOfWindow (now : Time) (i : Invitation) : Bool :=
  i.kind = .email ∧ i.recipientEmailHash ≠ none ∧
    i.createdAt ≤ now - EMAIL_RECIPIENT_LIMIT_WINDOW_MS

def forgetHash : Table.Edit Invitation.id where
  toFun i := { i with recipientEmailHash := none }
  keeps _ := rfl

/-- `run` -/
def clearRecipientHashes (now : Time) (db : SocialDb) : SocialDb :=
  { db with invitations := db.invitations.updateWhere (Invitation.outOfWindow now) forgetHash }

end Bookswap
