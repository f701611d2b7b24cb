import Bookswap.Schema

/-!
# The secrets of a guest confirmation

`loans/guest-confirmation-secrets.ts`, `loans/guest-confirmation.rules.ts` and the
token hash. The cryptographic functions are parameters (`GuestConfirmationSecrets`):
SHA-256 of a token, and the keyed HMAC over a message whose domain, number of parts and
part lengths are part of the text, so that a message is determined by `MacInput`. Where
a result needs that they do not collide, it assumes `Injective`.

The clears (`clearedLinkAndChallenge`, `clearedChallenge`) are the two constant patches
of the rules file.
-/

namespace Bookswap

/-! ## Limits (guest-confirmation.rules.ts) -/

def MINUTE_MS : Int := 60000
def GUEST_LINK_TTL_MS : Int := 7 * DAY_MS
def GUEST_CODE_TTL_MS : Int := 10 * MINUTE_MS
def GUEST_PROOF_TTL_MS : Int := 30 * MINUTE_MS
def GUEST_CODE_MAX_ATTEMPTS : Nat := 5
def GUEST_CODE_MAX_FAILED_TOTAL : Nat := 10
def GUEST_CODE_MAX_SENDS_PER_WINDOW : Nat := 5
def GUEST_CODE_SEND_WINDOW_MS : Int := 60 * MINUTE_MS

/-! ## The functions -/

/-- What is authenticated: a challenge, or a code within a challenge. -/
inductive MacInput
  | challenge (confirmationId : ConfirmationId) (email nickname : String)
  | code (confirmationId : ConfirmationId) (challengeMac : Digest) (code : Code)
  deriving DecidableEq, Repr

/-- The functions the guest services call: hashes and the string operations of the language. -/
structure GuestConfirmationSecrets where
  hashToken : Token → Digest
  mac : MacInput → Digest
  trim : String → String
  toLowerCase : String → String

namespace GuestConfirmationSecrets

variable (secrets : GuestConfirmationSecrets)

/-- `request.email.trim().toLowerCase()` -/
def normalizeEmail (email : String) : String := secrets.toLowerCase (secrets.trim email)

/-- Binds a challenge to the confirmation, the address and the nickname. -/
def challengeMac (confirmationId : ConfirmationId) (email nickname : String) : Digest :=
  secrets.mac (.challenge confirmationId (secrets.normalizeEmail email) (secrets.trim nickname))

/-- Binds a code to its challenge. -/
def codeHash (confirmationId : ConfirmationId) (challengeMac : Digest) (code : Code) : Digest :=
  secrets.mac (.code confirmationId challengeMac code)

/-- No two tokens share a hash, and no two messages share an HMAC. -/
structure Injective : Prop where
  hashToken : Function.Injective secrets.hashToken
  mac : Function.Injective secrets.mac

end GuestConfirmationSecrets

/-! ## The clears -/

namespace GuestLoanConfirmation

/-- `CLEARED_CHALLENGE`: the challenge and the proof; the link and its counters stay. -/
def clearedChallenge (g : GuestLoanConfirmation) : GuestLoanConfirmation :=
  { g with
    challengeMac := none, codeHash := none, codeExpiresAt := none, codeNonce := none
    codeAttempts := 0, proofHash := none, proofExpiresAt := none, verifiedAt := none }

/-- `CLEARED_LINK_AND_CHALLENGE`: the link and all that depends on it. -/
def clearedLinkAndChallenge (g : GuestLoanConfirmation) : GuestLoanConfirmation :=
  { g with
    linkTokenHash := none, linkIssuedAt := none, linkExpiresAt := none
    challengeMac := none, codeHash := none, codeExpiresAt := none, codeNonce := none
    codeAttempts := 0, codeFailedTotal := 0, codeSentCount := 0, codeWindowStartedAt := none
    proofHash := none, proofExpiresAt := none, verifiedAt := none }

end GuestLoanConfirmation

end Bookswap
