import Bookswap.Domain
import Bookswap.Lib.Machine
import Bookswap.Lib.Table
import Mathlib.Logic.Function.Basic

/-!
# telegram-link.service.ts

Each of `createLink`, an attempt of `consume`, and `unlink` is one transaction. It locks its `User`
first, and what it writes is seen by others when it commits. A row that a transaction has locked is
waited for; a statement looks for its rows among those that are committed, and asks its condition
of a row again when it has locked it.

- `LinkStage`, `LinkTx.next`: the transactions, statement by statement and row by row.
- `LinkTx.Locks`, `LinkTx.apply`: the locks, and what a commit makes of the tables.
- `Linking`, `telegramLinks`: any number of calls, between each other's statements.
-/

namespace Bookswap

open Store (Table)

abbrev LinkToken := Nat
abbrev ChatId := Nat

/-- What linking reads of a `User`. -/
structure LinkUser where
  id : UserId
  telegramChatId : Option ChatId
  deriving DecidableEq, Repr

structure TelegramLinkToken where
  token : LinkToken
  userId : UserId
  expiresAt : Time
  usedAt : Option Time
  deriving DecidableEq, Repr

structure LinkDb where
  users : Table LinkUser.id
  tokens : Table TelegramLinkToken.token

def TELEGRAM_LINK_TTL_MS : Int := 10 * 60000

def MAX_CONSUME_ATTEMPTS : Nat := 3

inductive LinkFailure
  | unknownToken | expired | used | conflict
  deriving DecidableEq, Repr

/-! ## Rows -/

namespace LinkDb

/-- `telegramChatId` of the user. -/
def chatOf (db : LinkDb) (u : UserId) : Option ChatId :=
  (db.users.find? u).bind LinkUser.telegramChatId

/-- The token is there and not used. -/
def unused (db : LinkDb) (token : LinkToken) : Bool :=
  (db.tokens.find? token).any fun t => t.usedAt = none

/-- The condition of the statement that uses a token up. -/
def claimable (db : LinkDb) (token : LinkToken) (userId : UserId) (now : Time) : Bool :=
  (db.tokens.find? token).any fun t => t.userId = userId ∧ t.usedAt = none ∧ now < t.expiresAt

end LinkDb

def chatEdit (chatId : Option ChatId) : Table.Edit LinkUser.id where
  toFun u := { u with telegramChatId := chatId }
  keeps _ := rfl

def useLinkEdit (now : Time) : Table.Edit TelegramLinkToken.token where
  toFun t := { t with usedAt := some now }
  keeps _ := rfl

def explain (row : Option TelegramLinkToken) (now : Time) : LinkFailure :=
  match row with
  | none => .unknownToken
  | some t => if t.usedAt ≠ none then .used else if t.expiresAt ≤ now then .expired else .used

/-! ## Transactions -/

/-- A transaction that begins with `SELECT … FOR UPDATE` on the user. -/
inductive LockingCall
  | createLink (token : LinkToken)
  | consume (token : LinkToken) (chatId : ChatId)
  deriving DecidableEq, Repr

/-- A transaction that deletes the unused tokens of the user. -/
inductive DeletingCall
  | createLink (token : LinkToken) (expiresAt : Time)
  | unlink
  deriving DecidableEq, Repr

/-- What a transaction leaves to its commit. -/
inductive LinkOutcome
  | created (token : LinkToken) (expiresAt : Time) (deleted : List LinkToken)
  | linked (token : LinkToken) (chatId : ChatId) (now : Time) (stolen : List UserId)
  | failed (reason : LinkFailure)
  | unlinked (deleted : List LinkToken)
  | notLinked
  deriving DecidableEq, Repr

/-- The next statement of a transaction, with what it has written so far. -/
inductive LinkStage
  | locking (k : LockingCall)
  /-- `SELECT clock_timestamp()` -/
  | clock (k : LockingCall)
  | deleting (k : DeletingCall)
  /-- The unused tokens that the statement found, row by row. -/
  | deletingRows (k : DeletingCall) (rows deleted : List LinkToken)
  | claiming (token : LinkToken) (chatId : ChatId) (now : Time)
  | explaining (token : LinkToken) (now : Time)
  | stealing (token : LinkToken) (chatId : ChatId) (now : Time)
  /-- The other users whom the statement found with the chat, row by row. -/
  | stealingRows (token : LinkToken) (chatId : ChatId) (now : Time) (rows stolen : List UserId)
  | linking (token : LinkToken) (chatId : ChatId) (now : Time) (stolen : List UserId)
  | unlinking
  /-- `unlink` has found its user with a chat. -/
  | unlinkingRow
  | done (outcome : LinkOutcome)
  deriving DecidableEq, Repr

/-- A transaction of the user. -/
structure LinkTx where
  userId : UserId
  stage : LinkStage
  deriving DecidableEq, Repr

/-- A row that a statement locks, or a value of the unique index on `telegramChatId`. -/
inductive LinkRow
  | user (id : UserId)
  | token (token : LinkToken)
  | chat (chatId : ChatId)
  deriving DecidableEq, Repr

/-- What the database answers instead of a result. -/
inductive LinkRefusal
  /-- `User_telegramChatId_key` -/
  | uniqueViolation
  | recordNotFound
  deriving DecidableEq, Repr

namespace LinkStage

/-- The transaction has locked its user. -/
def locked : LinkStage → Bool
  | .locking _ | .unlinking | .unlinkingRow | .done .notLinked => false
  | _ => true

/-- The tokens deleted so far. -/
def deleted : LinkStage → List LinkToken
  | .deletingRows _ _ deleted => deleted
  | .done (.created _ _ deleted) => deleted
  | .done (.unlinked deleted) => deleted
  | _ => []

/-- The token used up. -/
def claimed : LinkStage → Option LinkToken
  | .stealing token _ _ => some token
  | .stealingRows token _ _ _ _ => some token
  | .linking token _ _ _ => some token
  | .done (.linked token _ _ _) => some token
  | _ => none

/-- The users who lose their chat. -/
def stolen : LinkStage → List UserId
  | .stealingRows _ _ _ _ stolen => stolen
  | .linking _ _ _ stolen => stolen
  | .done (.linked _ _ _ stolen) => stolen
  | _ => []

/-- The chat that the user has been given. -/
def chat : LinkStage → Option ChatId
  | .done (.linked _ chatId _ _) => some chatId
  | _ => none

end LinkStage

namespace LinkTx

/-- What the transaction has locked. -/
def Locks (tx : LinkTx) : LinkRow → Prop
  | .user id => (tx.stage.locked = true ∧ id = tx.userId) ∨ id ∈ tx.stage.stolen
  | .token token => token ∈ tx.stage.deleted ∨ tx.stage.claimed = some token
  | .chat chatId => tx.stage.chat = some chatId

/-- What the next statement locks. -/
def row (tx : LinkTx) : Option LinkRow :=
  match tx.stage with
  | .locking _ | .unlinkingRow => some (.user tx.userId)
  | .deletingRows _ (token :: _) _ => some (.token token)
  | .claiming token _ _ => some (.token token)
  | .stealingRows _ _ _ (id :: _) _ => some (.user id)
  | .linking _ chatId _ _ => some (.chat chatId)
  | _ => none

/-- After `SELECT clock_timestamp()`. -/
def timed (now : Time) : LockingCall → LinkStage
  | .createLink token => .deleting (.createLink token (now + TELEGRAM_LINK_TTL_MS))
  | .consume token chatId => .claiming token chatId now

/-- After `deleteMany`; `createLink` then inserts its token. -/
def cleared (deleted : List LinkToken) : DeletingCall → LinkOutcome
  | .createLink token expiresAt => .created token expiresAt deleted
  | .unlink => .unlinked deleted

/-- The next statement, on what is committed at the moment. -/
def next (now : Time) (db : LinkDb) (tx : LinkTx) : Except LinkRefusal LinkStage :=
  match tx.stage with
  | .locking k => .ok (.clock k)
  | .clock k => .ok (timed now k)
  | .deleting k =>
    let rows := db.tokens.rows.filter fun t => t.userId = tx.userId ∧ t.usedAt = none
    .ok (.deletingRows k (rows.map TelegramLinkToken.token) [])
  | .deletingRows k (token :: rows) deleted =>
    .ok (.deletingRows k rows (if db.unused token then token :: deleted else deleted))
  | .deletingRows k [] deleted => .ok (.done (cleared deleted k))
  | .claiming token chatId now =>
    if db.claimable token tx.userId now then .ok (.stealing token chatId now)
    else .ok (.explaining token now)
  | .explaining token now => .ok (.done (.failed (explain (db.tokens.find? token) now)))
  | .stealing token chatId now =>
    let rows := db.users.rows.filter fun u => u.telegramChatId = some chatId ∧ u.id ≠ tx.userId
    .ok (.stealingRows token chatId now (rows.map LinkUser.id) [])
  | .stealingRows token chatId now (id :: rows) stolen =>
    .ok (.stealingRows token chatId now rows
      (if db.chatOf id = some chatId then id :: stolen else stolen))
  | .stealingRows token chatId now [] stolen => .ok (.linking token chatId now stolen)
  | .linking token chatId now stolen =>
    if db.users.find? tx.userId = none then .error .recordNotFound
    else if db.users.rows.any fun u =>
        u.telegramChatId = some chatId ∧ u.id ≠ tx.userId ∧ u.id ∉ stolen then
      .error .uniqueViolation
    else .ok (.done (.linked token chatId now stolen))
  | .unlinking =>
    if db.chatOf tx.userId = none then .ok (.done .notLinked) else .ok .unlinkingRow
  | .unlinkingRow =>
    if db.chatOf tx.userId = none then .ok (.done .notLinked) else .ok (.deleting .unlink)
  | .done outcome => .ok (.done outcome)

/-- What the commit makes of the users. -/
def applyUsers (userId : UserId) (outcome : LinkOutcome) (t : Table LinkUser.id) :
    Table LinkUser.id :=
  match outcome with
  | .linked _ chatId _ stolen =>
    (t.updateWhere (fun u => u.id ∈ stolen) (chatEdit none)).modify userId (chatEdit (some chatId))
  | .unlinked _ => t.modify userId (chatEdit none)
  | _ => t

/-- What the commit makes of the tokens; a token that is there already is not inserted. -/
def applyTokens (userId : UserId) (outcome : LinkOutcome) (t : Table TelegramLinkToken.token) :
    Option (Table TelegramLinkToken.token) :=
  match outcome with
  | .created token expiresAt deleted =>
    (t.filter fun x => x.token ∉ deleted).insert ⟨token, userId, expiresAt, none⟩
  | .linked token _ now _ => some (t.modify token (useLinkEdit now))
  | .unlinked deleted => some (t.filter fun x => x.token ∉ deleted)
  | _ => some t

end LinkTx

/-! ## Calls -/

def telegramNotLinked : ApiException := ⟨.telegramNotLinked, "Telegram не підключений", 409⟩

inductive LinkAnswer
  | deepLink (token : LinkToken) (expiresAt : Time)
  | linked (userId : UserId)
  | notLinked (reason : LinkFailure)
  | unlinked
  deriving DecidableEq, Repr

/-- What the call answers after the commit. -/
def LinkOutcome.answer (userId : UserId) : LinkOutcome → Except ApiException LinkAnswer
  | .created token expiresAt _ => .ok (.deepLink token expiresAt)
  | .linked _ _ _ _ => .ok (.linked userId)
  | .failed reason => .ok (.notLinked reason)
  | .unlinked _ => .ok .unlinked
  | .notLinked => .error telegramNotLinked

/-- Where a call is. -/
inductive LinkPhase
  /-- `consume` reads whose the token is. -/
  | reading (token : LinkToken) (chatId : ChatId)
  | consuming (attempt : Nat) (token : LinkToken) (chatId : ChatId) (tx : LinkTx)
  | running (tx : LinkTx)
  | answered (answer : Except ApiException LinkAnswer)

def LinkPhase.tx? : LinkPhase → Option LinkTx
  | .consuming _ _ _ tx => some tx
  | .running tx => some tx
  | _ => none

/-- The same call, with its transaction further on. -/
def LinkPhase.goOn (stage : LinkStage) : LinkPhase → LinkPhase
  | .consuming attempt token chatId tx =>
    .consuming attempt token chatId { tx with stage := stage }
  | .running tx => .running { tx with stage := stage }
  | ph => ph

abbrev LinkCallId := Nat

/-- The database, its clock and the calls. `issued` are the tokens inserted so far; a token drawn at
random is none of them. -/
structure Linking where
  db : LinkDb
  clock : Time
  calls : LinkCallId → Option LinkPhase
  issued : List TelegramLinkToken

inductive LinkOp
  | wait (now : Time)
  | join (u : UserId)
  | call (r : LinkCallId) (ph : LinkPhase)
  | readOwner (r : LinkCallId)
  | statement (r : LinkCallId)
  | lose (r : LinkCallId)
  | commit (r : LinkCallId)
  | crash (r : LinkCallId)

namespace Linking

/-- The call `r` goes on. -/
def move (s : Linking) (r : LinkCallId) (ph : Option LinkPhase) : Linking :=
  { s with calls := Function.update s.calls r ph }

/-- The transaction of the call. -/
def txOf (s : Linking) (r : LinkCallId) : Option LinkTx := (s.calls r).bind LinkPhase.tx?

/-- Another transaction has locked the row. -/
def Held (s : Linking) (r : LinkCallId) (row : LinkRow) : Prop :=
  ∃ q tx, q ≠ r ∧ s.txOf q = some tx ∧ tx.Locks row

/-- How a call begins; `createLink` and `unlink` are called by a user who is logged in. -/
inductive Begins (s : Linking) : LinkPhase → Prop
  | createLink (userId : UserId) (token : LinkToken) : s.db.users.find? userId ≠ none →
      Begins s (.running ⟨userId, .locking (.createLink token)⟩)
  | consume (token : LinkToken) (chatId : ChatId) : Begins s (.reading token chatId)
  | unlink (userId : UserId) : s.db.users.find? userId ≠ none →
      Begins s (.running ⟨userId, .unlinking⟩)

/-- What comes after a lost attempt of `consume`. -/
def retry (attempt : Nat) (token : LinkToken) (chatId : ChatId) (userId : UserId) : LinkPhase :=
  if attempt < MAX_CONSUME_ATTEMPTS then
    .consuming (attempt + 1) token chatId ⟨userId, .locking (.consume token chatId)⟩
  else .answered (.ok (.notLinked .conflict))

/-- The tokens that a commit inserts. -/
def inserted (userId : UserId) : LinkOutcome → List TelegramLinkToken
  | .created token expiresAt _ => [⟨token, userId, expiresAt, none⟩]
  | _ => []

inductive Step : Linking → LinkOp → Linking → Prop
  | wait {s : Linking} {now : Time} : s.clock ≤ now → Step s (.wait now) { s with clock := now }
  | join {s : Linking} {u : UserId} {t : Table LinkUser.id} :
      s.db.users.insert ⟨u, none⟩ = some t →
      Step s (.join u) { s with db := { s.db with users := t } }
  | call {s : Linking} {r : LinkCallId} {ph : LinkPhase} : s.calls r = none → Begins s ph →
      Step s (.call r ph) (s.move r (some ph))
  | readOwner {s : Linking} {r : LinkCallId} {token : LinkToken} {chatId : ChatId} :
      s.calls r = some (.reading token chatId) →
      Step s (.readOwner r) (s.move r (some (match s.db.tokens.find? token with
        | none => .answered (.ok (.notLinked .unknownToken))
        | some t => .consuming 1 token chatId ⟨t.userId, .locking (.consume token chatId)⟩)))
  | statement {s : Linking} {r : LinkCallId} {ph : LinkPhase} {tx : LinkTx} {stage : LinkStage} :
      s.calls r = some ph → ph.tx? = some tx → (∀ row ∈ tx.row, ¬ s.Held r row) →
      tx.next s.clock s.db = .ok stage → Step s (.statement r) (s.move r (some (ph.goOn stage)))
  /-- A deadlock, or the unique index: the attempt is rolled back. -/
  | lose {s : Linking} {r : LinkCallId} {attempt : Nat} {token : LinkToken} {chatId : ChatId}
      {tx : LinkTx} : s.calls r = some (.consuming attempt token chatId tx) →
      Step s (.lose r) (s.move r (some (retry attempt token chatId tx.userId)))
  | commit {s : Linking} {r : LinkCallId} {ph : LinkPhase} {userId : UserId}
      {outcome : LinkOutcome} {t : Table TelegramLinkToken.token} :
      s.calls r = some ph → ph.tx? = some ⟨userId, .done outcome⟩ →
      LinkTx.applyTokens userId outcome s.db.tokens = some t →
      (∀ x ∈ inserted userId outcome, ∀ y ∈ s.issued, y.token ≠ x.token) →
      Step s (.commit r)
        ({ s with
          db := ⟨LinkTx.applyUsers userId outcome s.db.users, t⟩
          issued := inserted userId outcome ++ s.issued }.move r
            (some (.answered (outcome.answer userId))))
  /-- Any other error: the transaction is rolled back, and the call fails. -/
  | crash {s : Linking} {r : LinkCallId} : Step s (.crash r) (s.move r none)

/-- No call and no token, and a chat has one user. -/
structure Init (s : Linking) : Prop where
  no_calls : ∀ r, s.calls r = none
  no_tokens : s.db.tokens.rows = []
  issued : s.issued = []
  chats : ∀ u ∈ s.db.users, ∀ v ∈ s.db.users, u.telegramChatId ≠ none →
    u.telegramChatId = v.telegramChatId → u.id = v.id

end Linking

/-- The machine of links. -/
def telegramLinks : Machine Linking LinkOp where
  init := Linking.Init
  step := Linking.Step

end Bookswap
