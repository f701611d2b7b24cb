import Bookswap.Guests.GuestLoanConfirmationService

/-!
# GuestLoanResponseService

`loans/guest-loan-response.service.ts`: what the person with the link does. A call first
finds the confirmation by its token without a lock (`findByToken`), and then runs a
transaction that checks the token again (`lockOwnRow`). The two moments are separate
here, so that anything may happen between them.

- `requestCode`: issue a code to the address given; `withdrawCode` when the letter fails.
- `verifyCode`: exchange the code for a proof. A wrong guess commits its count and only
  then answers with a failure, so the transaction returns its answer as a value.
- `applyAnswer`: `RECEIVED` or `DENIED`.
-/

namespace Bookswap

open Store Checked

/-- `Failure` of the source: how a transaction of this service declines. -/
inductive GuestFailure
  | invalid | expired | codeInvalid | rateLimited | proofInvalid
  deriving DecidableEq, Repr

def linkInvalid : Failure :=
  apiError .guestLinkInvalid "Посилання недійсне або вже використане" 404

def linkExpired : Failure :=
  apiError .guestLinkExpired "Строк дії посилання минув — попросіть власника видати нове" 410

/-- `failure` -/
def failure : GuestFailure → Failure
  | .invalid => linkInvalid
  | .expired => linkExpired
  | .codeInvalid =>
    apiError .guestCodeInvalid "Код хибний, прострочений або вже використаний" 400
  | .rateLimited =>
    apiError .guestCodeRateLimited
      "Забагато спроб для цього посилання. Зверніться до власника по нове посилання." 429
  | .proofInvalid =>
    apiError .guestProofInvalid
      "Спершу підтвердіть контроль над адресою кодом із листа" 403

/-- What `findByToken` reads without a lock. -/
structure TokenLookup where
  id : ConfirmationId
  loanId : LoanId
  externalBorrowerId : Option ContactId
  copyId : CopyId
  ownerId : UserId
  deriving DecidableEq, Repr

/-- `findByToken` -/
def findByToken (secrets : GuestConfirmationSecrets) (token : Token) (db : Db) :
    Tx TokenLookup := do
  let row ← orThrow (db.confirmations.rows.find? fun g =>
    g.linkTokenHash = some (secrets.hashToken token)) linkInvalid
  let loan ← orThrow (db.loans.find? row.loanId) (.internal "GuestLoanConfirmation_loanId_fkey")
  return ⟨row.id, row.loanId, row.externalBorrowerId, loan.copyId, loan.ownerId⟩

/-- `lockOwnRow`: the fresh row, if the token is still its current, unexpired link. -/
def lockOwnRow (secrets : GuestConfirmationSecrets) (db : Db) (id : ConfirmationId)
    (token : Token) (now : Time) : Except GuestFailure GuestLoanConfirmation :=
  match db.confirmations.find? id with
  | none => .error .invalid
  | some row =>
    if row.status ≠ .open ∨ row.linkTokenHash ≠ some (secrets.hashToken token) then
      .error .invalid
    else match row.linkExpiresAt with
      | none => .error .invalid
      | some expiresAt => if expiresAt ≤ now then .error .expired else .ok row

/-- Write one confirmation. -/
def Db.editConfirmation (db : Db) (id : ConfirmationId)
    (f : Table.Edit GuestLoanConfirmation.id) : Db :=
  { db with confirmations := db.confirmations.modify id f }

/-! ## requestCode -/

structure RequestGuestCodeRequest where
  token : Token
  email : String
  nickname : String
  deriving DecidableEq, Repr

/-- Is the sending window of the link still running? -/
def GuestLoanConfirmation.windowOpen (row : GuestLoanConfirmation) (now : Time) : Bool :=
  row.codeWindowStartedAt.any fun started => now - started < GUEST_CODE_SEND_WINDOW_MS

/-- The codes already sent in the running window. -/
def GuestLoanConfirmation.sentInWindow (row : GuestLoanConfirmation) (now : Time) : Nat :=
  if row.windowOpen now then row.codeSentCount else 0

/-- The columns of a new code; the old challenge and its proof go. -/
def codeEdit (secrets : GuestConfirmationSecrets) (req : RequestGuestCodeRequest) (code : Code)
    (nonce : Nonce) (now : Time) : Table.Edit GuestLoanConfirmation.id where
  toFun g :=
    { g.clearedChallenge with
      challengeMac := some (secrets.challengeMac g.id req.email req.nickname)
      codeHash := some (secrets.codeHash g.id
        (secrets.challengeMac g.id req.email req.nickname) code)
      codeNonce := some nonce
      codeExpiresAt := some (now + GUEST_CODE_TTL_MS)
      codeSentCount := g.sentInWindow now + 1
      codeWindowStartedAt := if g.windowOpen now then g.codeWindowStartedAt else some now }
  keeps _ := rfl

/-- The transaction of `requestCode` (guest-loan-response.service.ts:116); `code` and `nonce`
are the values the server draws. -/
def requestCode (secrets : GuestConfirmationSecrets) (now : Time) (lookup : TokenLookup)
    (req : RequestGuestCodeRequest) (code : Code) (nonce : Nonce) (db : Db) :
    Db × Except GuestFailure Unit :=
  match lockOwnRow secrets db lookup.id req.token now with
  | .error f => (db, .error f)
  | .ok row =>
    if row.codeFailedTotal ≥ GUEST_CODE_MAX_FAILED_TOTAL then (db, .error .rateLimited)
    else if row.sentInWindow now ≥ GUEST_CODE_MAX_SENDS_PER_WINDOW then
      (db, .error .rateLimited)
    else (db.editConfirmation row.id (codeEdit secrets req code nonce now), .ok ())

/-- The statement `requestCode` runs when the letter could not be sent
(guest-loan-response.service.ts:178): only the issue with its nonce is withdrawn. -/
def withdrawCode (id : ConfirmationId) (nonce : Nonce) (db : Db) : Db :=
  { db with
    confirmations := (db.confirmations.updateMany
      (fun g => g.id = id ∧ g.codeNonce = some nonce)
      ⟨GuestLoanConfirmation.clearedChallenge, fun _ => rfl⟩).1 }

/-! ## verifyCode -/

structure VerifyGuestCodeRequest where
  token : Token
  email : String
  nickname : String
  code : Code
  deriving DecidableEq, Repr

/-- The challenge and the hash of a code that is there and not expired. -/
def GuestLoanConfirmation.liveCode (row : GuestLoanConfirmation) (now : Time) :
    Option (Digest × Digest) :=
  match row.codeHash, row.codeExpiresAt, row.challengeMac with
  | some codeHash, some expiresAt, some mac => if expiresAt ≤ now then none else some (mac, codeHash)
  | _, _, _ => none

/-- Does the guess match the live code? -/
def codeMatches (secrets : GuestConfirmationSecrets) (id : ConfirmationId)
    (req : VerifyGuestCodeRequest) (live : Digest × Digest) : Bool :=
  secrets.challengeMac id req.email req.nickname = live.1 ∧
    secrets.codeHash id (secrets.challengeMac id req.email req.nickname) req.code = live.2

/-- A wrong guess: counted for the link always, and for the code until it goes out. -/
def wrongGuessEdit : Table.Edit GuestLoanConfirmation.id where
  toFun g :=
    if g.codeAttempts + 1 ≥ GUEST_CODE_MAX_ATTEMPTS then
      { g.clearedChallenge with codeFailedTotal := g.codeFailedTotal + 1 }
    else { g with codeFailedTotal := g.codeFailedTotal + 1, codeAttempts := g.codeAttempts + 1 }
  keeps g := by
    split <;> rfl

/-- A right guess: the code goes out and a proof takes its place. -/
def proofEdit (secrets : GuestConfirmationSecrets) (proof : Token) (now : Time) :
    Table.Edit GuestLoanConfirmation.id where
  toFun g :=
    { g with
      codeHash := none, codeExpiresAt := none, codeNonce := none, codeAttempts := 0
      proofHash := some (secrets.hashToken proof)
      proofExpiresAt := some (now + GUEST_PROOF_TTL_MS)
      verifiedAt := some now }
  keeps _ := rfl

/-- The transaction of `verifyCode` (guest-loan-response.service.ts:196); `proof` is the token
the server draws. -/
def verifyCode (secrets : GuestConfirmationSecrets) (now : Time) (lookup : TokenLookup)
    (req : VerifyGuestCodeRequest) (proof : Token) (db : Db) :
    Db × Except GuestFailure Unit :=
  match lockOwnRow secrets db lookup.id req.token now with
  | .error f => (db, .error f)
  | .ok row =>
    if row.codeFailedTotal ≥ GUEST_CODE_MAX_FAILED_TOTAL then (db, .error .rateLimited)
    else match row.liveCode now with
      | none => (db, .error .codeInvalid)
      | some live =>
        if codeMatches secrets row.id req live then
          (db.editConfirmation row.id (proofEdit secrets proof now), .ok ())
        else (db.editConfirmation row.id wrongGuessEdit, .error .codeInvalid)

/-! ## answer -/

structure AnswerGuestResponseRequest where
  token : Token
  email : String
  nickname : String
  proof : Token
  answer : GuestAnswer
  deriving DecidableEq, Repr

/-- The proof is current, unexpired, and for this address and nickname
(guest-loan-response.service.ts:317). -/
structure ProofAccepted (secrets : GuestConfirmationSecrets) (row : GuestLoanConfirmation)
    (req : AnswerGuestResponseRequest) (now : Time) : Prop where
  proof : row.proofHash = some (secrets.hashToken req.proof)
  live : ∃ t ∈ row.proofExpiresAt, now < t
  verified : row.verifiedAt ≠ none
  challenge : row.challengeMac = some (secrets.challengeMac row.id req.email req.nickname)

instance (secrets : GuestConfirmationSecrets) (row : GuestLoanConfirmation)
    (req : AnswerGuestResponseRequest) (now : Time) :
    Decidable (ProofAccepted secrets row req now) :=
  decidable_of_iff (row.proofHash = some (secrets.hashToken req.proof) ∧
    (∃ t ∈ row.proofExpiresAt, now < t) ∧ row.verifiedAt ≠ none ∧
    row.challengeMac = some (secrets.challengeMac row.id req.email req.nickname))
    ⟨fun ⟨a, b, c, d⟩ => ⟨a, b, c, d⟩, fun ⟨a, b, c, d⟩ => ⟨a, b, c, d⟩⟩

/-- The loan, its copy and its rivals, when the guest received the book. -/
def receiveLoan (now : Time) (lookup : TokenLookup) (contactId : ContactId) (loan : Loan)
    (copy : Copy) (db : Db) : Tx Db := do
  let loans ← updateOne true db.loans
    (fun l => l.id = loan.id ∧ l.status = .pendingConfirmation) (statusEdit .handedOver)
  let copies ← updateOne true db.copies
    (fun c => c.id = copy.id ∧ c.status = .reserved ∧ c.heldByContactId = some contactId)
    (settleCopyEdit .lentOut lookup.ownerId)
  rejectRequestedRivals copy.id lookup.ownerId now { db with loans := loans, copies := copies }

/-- Only `RECEIVED` touches the loan, the copy and the rivals. -/
def settleReceived (now : Time) (lookup : TokenLookup) (contactId : ContactId)
    (answer : GuestAnswer) (loan : Loan) (copy : Copy) (db : Db) : Tx Db :=
  if answer = .received then receiveLoan now lookup contactId loan copy db else return db

def GuestAnswer.confirmationStatus : GuestAnswer → GuestLoanConfirmationStatus
  | .received => .received
  | .denied => .denied

def GuestAnswer.eventType : GuestAnswer → LoanEventType
  | .received => .guestLoanReceived
  | .denied => .guestLoanDenied

def GuestAnswer.notificationType : GuestAnswer → NotificationType
  | .received => .guestLoanReceived
  | .denied => .guestLoanDenied

/-- The proven identity goes into the private contact. -/
def guestIdentityEdit (secrets : GuestConfirmationSecrets) (req : AnswerGuestResponseRequest)
    (verifiedAt : Option Time) : Table.Edit ExternalBorrower.id where
  toFun c := { c with
    guestNickname := some (secrets.trim req.nickname)
    guestEmail := some (secrets.normalizeEmail req.email)
    guestEmailVerifiedAt := verifiedAt }
  keeps _ := rfl

/-- The writes of an accepted answer (guest-loan-response.service.ts:343). -/
def writeAnswer (secrets : GuestConfirmationSecrets) (now : Time) (lookup : TokenLookup)
    (contactId : ContactId) (req : AnswerGuestResponseRequest) (row : GuestLoanConfirmation)
    (loan : Loan) (copy : Copy) (db : Db) : Tx Db := do
  let db ← settleReceived now lookup contactId req.answer loan copy db
  let confirmations ← updateOne true db.confirmations
    (fun g => g.id = lookup.id ∧ g.status = .open)
    (resolveEdit req.answer.confirmationStatus (if req.answer = .received then some now else none))
  let db := ({ db with confirmations := confirmations }).record
    ⟨loan.id, req.answer.eventType, none, now, none, .empty⟩
  let db := db.notify ⟨lookup.ownerId, req.answer.notificationType,
    .guestResponse loan.id copy.id lookup.id⟩
  let db := { db with
    contacts := db.contacts.modify contactId (guestIdentityEdit secrets req row.verifiedAt) }
  recomputeRetainUntil contactId db

/-- The transaction of `answer` (guest-loan-response.service.ts:283). -/
def applyAnswer (secrets : GuestConfirmationSecrets) (now : Time) (lookup : TokenLookup)
    (req : AnswerGuestResponseRequest) (db : Db) : Tx (Db × Except GuestFailure Unit) :=
  match lookup.externalBorrowerId with
  | none => .ok (db, .error .invalid)
  | some contactId =>
    match lockOwnRow secrets db lookup.id req.token now with
    | .error f => .ok (db, .error f)
    | .ok row =>
      if ¬ProofAccepted secrets row req now then .ok (db, .error .proofInvalid)
      else do
        let mismatch := apiError .loanCopyStateMismatch
          "Стан позики змінився — зверніться до власника" 409
        let loan ← orThrow (db.loans.find? lookup.loanId) mismatch
        let copy ← orThrow (db.copies.find? lookup.copyId) mismatch
        throwIf (¬PendingChain loan copy contactId) mismatch
        let db ← writeAnswer secrets now lookup contactId req row loan copy db
        return (db, .ok ())

end Bookswap
