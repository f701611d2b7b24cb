import Bookswap.Domain
import Bookswap.Lib.Machine
import Bookswap.Lib.Table
import Mathlib.Logic.Function.Basic

/-!
# Passwords and sessions: auth.service.ts, session.service.ts

`login` reads the hash of the password in one statement, verifies it, and inserts the session in
another. `confirmPasswordReset` is one transaction: it claims the token, writes the hash, uses up
the other tokens and revokes the sessions that its last statement finds.

- `Session.valid`, `validate`, `revokeSession`, `deleteExpired`: the statements on sessions.
- `ResetTx`, `ResetTx.next`: the transaction, statement by statement and row by row.
- `Authenticating`, `authenticating`: any number of calls, between each other's statements.
-/

namespace Bookswap

open Store (Table)

abbrev SessionId := Nat
abbrev ResetTokenId := Nat
abbrev TokenHash := Nat
abbrev PasswordHash := Nat

/-- What auth reads of a `User`. -/
structure Account where
  id : UserId
  email : String
  passwordHash : PasswordHash
  deriving DecidableEq, Repr

structure Session where
  id : SessionId
  tokenHash : TokenHash
  userId : UserId
  expiresAt : Time
  revokedAt : Option Time
  lastUsedAt : Option Time
  deriving DecidableEq, Repr

structure PasswordResetToken where
  id : ResetTokenId
  tokenHash : TokenHash
  userId : UserId
  expiresAt : Time
  usedAt : Option Time
  deriving DecidableEq, Repr

structure AuthDb where
  accounts : Table Account.id
  sessions : Table Session.id
  resetTokens : Table PasswordResetToken.id

def SESSION_TTL_MS : Int := 30 * 24 * 60 * 60 * 1000

def PASSWORD_RESET_TTL_MS : Int := 60 * 60 * 1000

/-! ## Sessions -/

/-- What `validate` asks of a session. -/
def Session.valid (now : Time) (x : Session) : Bool := x.revokedAt = none ∧ now < x.expiresAt

/-- `create`; the token is drawn at random, the row keeps its hash. -/
def newSession (now : Time) (id : SessionId) (tokenHash : TokenHash) (userId : UserId) :
    Session where
  id := id
  tokenHash := tokenHash
  userId := userId
  expiresAt := now + SESSION_TTL_MS
  revokedAt := none
  lastUsedAt := none

/-- The first statement of `validate`: the session of a cookie, when it is valid. -/
def validate (now : Time) (tokenHash : TokenHash) (db : AuthDb) : Option Session :=
  (db.sessions.rows.find? fun x => x.tokenHash = tokenHash).filter (Session.valid now)

def touchEdit (now : Time) : Table.Edit Session.id where
  toFun x := { x with lastUsedAt := some now }
  keeps _ := rfl

def revokeSessionEdit (now : Time) : Table.Edit Session.id where
  toFun x := { x with revokedAt := some now }
  keeps _ := rfl

/-- The condition of `revokeSession`. -/
def Session.revocable (tokenHash : TokenHash) (x : Session) : Bool :=
  x.tokenHash = tokenHash ∧ x.revokedAt = none

/-- `revoke` -/
def revokeSession (now : Time) (tokenHash : TokenHash) (db : AuthDb) : AuthDb :=
  { db with sessions := db.sessions.updateWhere (Session.revocable tokenHash) (revokeSessionEdit now) }

/-- `deleteExpired`, and the same for the tokens (session-cleanup.service.ts:59). -/
def deleteExpired (now : Time) (db : AuthDb) : AuthDb :=
  { db with
    sessions := db.sessions.filter fun x => now < x.expiresAt
    resetTokens := db.resetTokens.filter fun t => now < t.expiresAt }

/-! ## The tokens of a reset -/

/-- `isUsable` -/
def PasswordResetToken.usable (now : Time) (t : PasswordResetToken) : Bool :=
  t.usedAt = none ∧ now < t.expiresAt

/-- The row that `processPasswordReset` inserts. -/
def newResetToken (now : Time) (id : ResetTokenId) (tokenHash : TokenHash) (userId : UserId) :
    PasswordResetToken where
  id := id
  tokenHash := tokenHash
  userId := userId
  expiresAt := now + PASSWORD_RESET_TTL_MS
  usedAt := none

def useEdit (now : Time) : Table.Edit PasswordResetToken.id where
  toFun t := { t with usedAt := some now }
  keeps _ := rfl

def passwordEdit (passwordHash : PasswordHash) : Table.Edit Account.id where
  toFun a := { a with passwordHash := passwordHash }
  keeps _ := rfl

/-- The token is there and not used. -/
def AuthDb.unused (db : AuthDb) (id : ResetTokenId) : Bool :=
  (db.resetTokens.find? id).any fun t => t.usedAt = none

/-- The session is there and not revoked. -/
def AuthDb.unrevoked (db : AuthDb) (id : SessionId) : Bool :=
  (db.sessions.find? id).any fun x => x.revokedAt = none

/-! ## confirmPasswordReset -/

def invalidToken : ApiException :=
  ⟨.invalidToken, "Посилання недійсне або вже використане", 400⟩

/-- The next statement of the transaction. -/
inductive ResetStage
  | finding
  | claiming (record : PasswordResetToken)
  | updating (record : PasswordResetToken)
  | extinguishing (record : PasswordResetToken)
  /-- The other tokens that the statement found, row by row. -/
  | extinguishingRows (record : PasswordResetToken) (rows : List ResetTokenId)
  | revoking (record : PasswordResetToken)
  /-- The sessions that the statement found unrevoked, row by row; `known` are all that there were
  of the user. -/
  | revokingRows (record : PasswordResetToken) (known : List SessionId) (rows : List SessionId)

/-- The transaction of `confirmPasswordReset` and the rows that it has written. -/
structure ResetTx where
  tokenHash : TokenHash
  passwordHash : PasswordHash
  stage : ResetStage
  claimed : Option ResetTokenId
  claimedAt : Time
  user : Option UserId
  used : List ResetTokenId
  usedAt : Time
  revoked : List SessionId
  revokedAt : Time

/-- A row that a statement locks. -/
inductive AuthRow
  | token (id : ResetTokenId)
  | user (id : UserId)
  | session (id : SessionId)
  deriving DecidableEq

namespace ResetTx

def start (tokenHash : TokenHash) (passwordHash : PasswordHash) : ResetTx where
  tokenHash := tokenHash
  passwordHash := passwordHash
  stage := .finding
  claimed := none
  claimedAt := 0
  user := none
  used := []
  usedAt := 0
  revoked := []
  revokedAt := 0

/-- The rows that the transaction has locked. -/
def Locks (tx : ResetTx) : AuthRow → Prop
  | .token id => tx.claimed = some id ∨ id ∈ tx.used
  | .user id => tx.user = some id
  | .session id => id ∈ tx.revoked

/-- The row that the next statement locks. -/
def row (tx : ResetTx) : Option AuthRow :=
  match tx.stage with
  | .claiming record => some (.token record.id)
  | .updating record => some (.user record.userId)
  | .extinguishingRows _ (id :: _) => some (.token id)
  | .revokingRows _ _ (id :: _) => some (.session id)
  | _ => none

/-- The next statement, on what is committed at the moment. -/
def next (now : Time) (db : AuthDb) (tx : ResetTx) : Except ApiException ResetTx :=
  match tx.stage with
  | .finding =>
    match db.resetTokens.rows.find? fun t => t.tokenHash = tx.tokenHash with
    | none => .error invalidToken
    | some record =>
      if record.usable now then .ok { tx with stage := .claiming record } else .error invalidToken
  | .claiming record =>
    if db.unused record.id then
      .ok { tx with stage := .updating record, claimed := some record.id, claimedAt := now }
    else .error invalidToken
  | .updating record => .ok { tx with stage := .extinguishing record, user := some record.userId }
  | .extinguishing record =>
    let rows := db.resetTokens.rows.filter fun t =>
      t.userId = record.userId ∧ t.usedAt = none ∧ t.id ≠ record.id
    .ok { tx with
      stage := .extinguishingRows record (rows.map PasswordResetToken.id)
      usedAt := now }
  | .extinguishingRows record (id :: rows) =>
    .ok { tx with
      stage := .extinguishingRows record rows
      used := if db.unused id then id :: tx.used else tx.used }
  | .extinguishingRows record [] => .ok { tx with stage := .revoking record }
  | .revoking record =>
    let found := db.sessions.rows.filter fun x => x.userId = record.userId
    let rows := (found.filter fun x => x.revokedAt = none).map Session.id
    .ok { tx with stage := .revokingRows record (found.map Session.id) rows, revokedAt := now }
  | .revokingRows record known (id :: rows) =>
    .ok { tx with
      stage := .revokingRows record known rows
      revoked := if db.unrevoked id then id :: tx.revoked else tx.revoked }
  | .revokingRows _ _ [] => .ok tx

/-- What the commit makes of the database. -/
def apply (tx : ResetTx) (db : AuthDb) : AuthDb where
  accounts := db.accounts.updateWhere (fun a => tx.user = some a.id) (passwordEdit tx.passwordHash)
  sessions := db.sessions.updateWhere (fun x => x.id ∈ tx.revoked) (revokeSessionEdit tx.revokedAt)
  resetTokens := (db.resetTokens.updateWhere (fun t => tx.claimed = some t.id)
    (useEdit tx.claimedAt)).updateWhere (fun t => t.id ∈ tx.used) (useEdit tx.usedAt)

end ResetTx

/-! ## Calls -/

def invalidCredentials : ApiException := ⟨.invalidCredentials, "Невірна пошта або пароль", 401⟩

/-- The successful answer of a call. -/
inductive AuthAnswer
  | session (id : SessionId)
  | passwordReset
  | account (a : Option Account)

/-- Where a call is. `seen` is how many resets of the user had been committed when `login` read the
hash. -/
inductive AuthPhase
  | login (email : String) (password : String)
  | verifying (password : String) (account : Account) (seen : Nat)
  | creating (account : Account) (seen : Nat)
  | checking (tokenHash : TokenHash)
  | touching (x : Session)
  | resetting (tx : ResetTx)
  | answered (answer : Except ApiException AuthAnswer)

abbrev AuthCallId := Nat

/-- The database, the clock and the calls. `resets` are the tokens of the resets committed so far,
newest first, and `seen` what `login` had seen of them when it read the hash for a session; only the
sessions that have been drawn have it. -/
structure Authenticating where
  db : AuthDb
  clock : Time
  calls : AuthCallId → Option AuthPhase
  resets : List PasswordResetToken
  seen : SessionId → Option Nat

inductive AuthOp
  | wait (now : Time)
  | call (r : AuthCallId) (ph : AuthPhase)
  | readHash (r : AuthCallId)
  | verify (r : AuthCallId)
  | createSession (r : AuthCallId) (id : SessionId) (tokenHash : TokenHash)
  | check (r : AuthCallId)
  | touch (r : AuthCallId)
  | logout (tokenHash : TokenHash)
  | issue (userId : UserId) (id : ResetTokenId) (tokenHash : TokenHash)
  | statement (r : AuthCallId)
  | commit (r : AuthCallId)
  | fail (r : AuthCallId)
  | crash (r : AuthCallId)
  | cleanUp

namespace Authenticating

/-- The call `r` goes on. -/
def move (s : Authenticating) (r : AuthCallId) (ph : Option AuthPhase) : Authenticating :=
  { s with calls := Function.update s.calls r ph }

/-- How many resets of the user have been committed. -/
def resetsOf (s : Authenticating) (u : UserId) : Nat := s.resets.countP fun t => t.userId = u

/-- Another transaction has locked the row. -/
def Held (s : Authenticating) (r : AuthCallId) (row : AuthRow) : Prop :=
  ∃ q tx, q ≠ r ∧ s.calls q = some (.resetting tx) ∧ tx.Locks row

/-- Any transaction has locked the row. -/
def Locked (s : Authenticating) (row : AuthRow) : Prop :=
  ∃ q tx, s.calls q = some (.resetting tx) ∧ tx.Locks row

/-- A call begins with `login`, `confirmPasswordReset` or a check of a session. -/
inductive Begins : AuthPhase → Prop
  | login (email password : String) : Begins (.login email password)
  | check (tokenHash : TokenHash) : Begins (.checking tokenHash)
  | reset (tokenHash : TokenHash) (passwordHash : PasswordHash) :
      Begins (.resetting (.start tokenHash passwordHash))

/-- The steps; `verifies` is the verification of a password against a hash. -/
inductive Step (verifies : String → PasswordHash → Bool) :
    Authenticating → AuthOp → Authenticating → Prop
  | wait {s : Authenticating} {now : Time} : s.clock ≤ now →
      Step verifies s (.wait now) { s with clock := now }
  | call {s : Authenticating} {r : AuthCallId} {ph : AuthPhase} : s.calls r = none → Begins ph →
      Step verifies s (.call r ph) (s.move r (some ph))
  | unknown {s : Authenticating} {r : AuthCallId} {email password : String} :
      s.calls r = some (.login email password) →
      s.db.accounts.rows.find? (fun a => a.email = email) = none →
      Step verifies s (.readHash r) (s.move r (some (.answered (.error invalidCredentials))))
  | readHash {s : Authenticating} {r : AuthCallId} {email password : String} {a : Account} :
      s.calls r = some (.login email password) →
      s.db.accounts.rows.find? (fun a => a.email = email) = some a →
      Step verifies s (.readHash r) (s.move r (some (.verifying password a (s.resetsOf a.id))))
  | verify {s : Authenticating} {r : AuthCallId} {password : String} {a : Account} {seen : Nat} :
      s.calls r = some (.verifying password a seen) →
      Step verifies s (.verify r) (s.move r (some (if verifies password a.passwordHash then
        .creating a seen else .answered (.error invalidCredentials))))
  | createSession {s : Authenticating} {r : AuthCallId} {a : Account} {seen : Nat}
      {id : SessionId} {tokenHash : TokenHash} {t : Table Session.id} :
      s.calls r = some (.creating a seen) →
      s.db.sessions.insert (newSession s.clock id tokenHash a.id) = some t → s.seen id = none →
      Step verifies s (.createSession r id tokenHash)
        ({ s with
          db := { s.db with sessions := t }
          seen := Function.update s.seen id (some seen) }.move r (some (.answered (.ok (.session id)))))
  | check {s : Authenticating} {r : AuthCallId} {tokenHash : TokenHash} :
      s.calls r = some (.checking tokenHash) →
      Step verifies s (.check r) (s.move r (some (match validate s.clock tokenHash s.db with
        | none => .answered (.ok (.account none))
        | some x => .touching x)))
  | touch {s : Authenticating} {r : AuthCallId} {x : Session} :
      s.calls r = some (.touching x) → ¬ s.Locked (.session x.id) →
      (s.db.sessions.find? x.id).isSome = true →
      Step verifies s (.touch r)
        ({ s with db := { s.db with sessions := s.db.sessions.modify x.id (touchEdit s.clock) } }.move
          r (some (.answered (.ok (.account (s.db.accounts.find? x.userId))))))
  /-- The session was cleaned up in between: the call fails. -/
  | touchGone {s : Authenticating} {r : AuthCallId} {x : Session} :
      s.calls r = some (.touching x) → s.db.sessions.find? x.id = none →
      Step verifies s (.touch r) (s.move r none)
  | logout {s : Authenticating} {tokenHash : TokenHash} :
      (∀ x ∈ s.db.sessions, x.tokenHash = tokenHash → ¬ s.Locked (.session x.id)) →
      Step verifies s (.logout tokenHash) { s with db := revokeSession s.clock tokenHash s.db }
  | issue {s : Authenticating} {userId : UserId} {id : ResetTokenId} {tokenHash : TokenHash}
      {t : Table PasswordResetToken.id} :
      s.db.resetTokens.insert (newResetToken s.clock id tokenHash userId) = some t →
      (∀ x ∈ s.resets, x.id ≠ id) →
      Step verifies s (.issue userId id tokenHash) { s with db := { s.db with resetTokens := t } }
  | statement {s : Authenticating} {r : AuthCallId} {tx tx' : ResetTx} :
      s.calls r = some (.resetting tx) → (∀ row ∈ tx.row, ¬ s.Held r row) →
      tx.next s.clock s.db = .ok tx' →
      Step verifies s (.statement r) (s.move r (some (.resetting tx')))
  | fail {s : Authenticating} {r : AuthCallId} {tx : ResetTx} {e : ApiException} :
      s.calls r = some (.resetting tx) → (∀ row ∈ tx.row, ¬ s.Held r row) →
      tx.next s.clock s.db = .error e →
      Step verifies s (.fail r) (s.move r (some (.answered (.error e))))
  | commit {s : Authenticating} {r : AuthCallId} {tx : ResetTx} {record : PasswordResetToken}
      {known : List SessionId} :
      s.calls r = some (.resetting tx) → tx.stage = .revokingRows record known [] →
      Step verifies s (.commit r)
        ({ s with db := tx.apply s.db, resets := record :: s.resets }.move r
          (some (.answered (.ok .passwordReset))))
  /-- The process dies, or the database gives the transaction up. -/
  | crash {s : Authenticating} {r : AuthCallId} : Step verifies s (.crash r) (s.move r none)
  | cleanUp {s : Authenticating} :
      (∀ x ∈ s.db.sessions, x.expiresAt ≤ s.clock → ¬ s.Locked (.session x.id)) →
      (∀ t ∈ s.db.resetTokens, t.expiresAt ≤ s.clock → ¬ s.Locked (.token t.id)) →
      Step verifies s .cleanUp { s with db := deleteExpired s.clock s.db }

/-- No call, and no reset so far. -/
structure Init (s : Authenticating) : Prop where
  no_calls : ∀ r, s.calls r = none
  no_resets : s.resets = []
  seen : ∀ x ∈ s.db.sessions, s.seen x.id = some 0

end Authenticating

/-- The machine of logins, resets and checks of sessions. -/
def authenticating (verifies : String → PasswordHash → Bool) :
    Machine Authenticating AuthOp where
  init := Authenticating.Init
  step := Authenticating.Step verifies

end Bookswap
