import Bookswap.System

/-!
# What a guest's calls do

The counterpart of `Guests.GuestSpec` for the calls that answer with a value: what they had checked
when they wrote, and what they wrote.

- `requestCode_cases`: a code is issued, or nothing changes.
- `verifyCode_cases`: a guess is compared and is right or wrong, or nothing changes.
-/

namespace Bookswap

open Store

variable {db db' : Db} {now : Time}

/-- What `requestCode` does to its confirmation, if it issues a code. -/
structure IssueGuards (db : Db) (secrets : GuestConfirmationSecrets) (now : Time)
    (lookup : TokenLookup) (token : Token) (row : GuestLoanConfirmation) : Prop where
  row_eq : lockOwnRow secrets db lookup.id token now = .ok row
  guessable : row.codeFailedTotal < GUEST_CODE_MAX_FAILED_TOTAL
  sendable : row.sentInWindow now < GUEST_CODE_MAX_SENDS_PER_WINDOW

/-- **requestCode** issues a code, or changes nothing. -/
theorem requestCode_cases {secrets : GuestConfirmationSecrets} {lookup : TokenLookup}
    {req : RequestGuestCodeRequest} {code : Code} {nonce : Nonce} {reply : Except GuestFailure Unit}
    (h : requestCode secrets now lookup req code nonce db = (db', reply)) :
    (db' = db ∧ ∃ f, reply = .error f) ∨
      ∃ row, IssueGuards db secrets now lookup req.token row ∧ reply = .ok () ∧
        db' = db.editConfirmation row.id (codeEdit secrets req code nonce now) := by
  unfold requestCode at h
  split at h
  · cases h
    exact .inl ⟨rfl, _, rfl⟩
  · next row hrow =>
    split at h
    · cases h
      exact .inl ⟨rfl, _, rfl⟩
    · next hfailed =>
      split at h
      · cases h
        exact .inl ⟨rfl, _, rfl⟩
      · next hsent =>
        cases h
        exact .inr ⟨row, ⟨hrow, Nat.not_le.mp hfailed, Nat.not_le.mp hsent⟩, rfl, rfl⟩

/-- What `verifyCode` compares a guess with. -/
structure GuessGuards (db : Db) (secrets : GuestConfirmationSecrets) (now : Time)
    (lookup : TokenLookup) (token : Token) (row : GuestLoanConfirmation)
    (live : Digest × Digest) : Prop where
  row_eq : lockOwnRow secrets db lookup.id token now = .ok row
  guessable : row.codeFailedTotal < GUEST_CODE_MAX_FAILED_TOTAL
  live : row.liveCode now = some live

theorem guessCompared_of_error {secrets : GuestConfirmationSecrets} {lookup : TokenLookup}
    {token : Token} {f : GuestFailure}
    (h : lockOwnRow secrets db lookup.id token now = .error f) :
    guessCompared secrets now lookup token db = false := by
  unfold guessCompared
  rw [h]

theorem guessCompared_of_ok {secrets : GuestConfirmationSecrets} {lookup : TokenLookup}
    {token : Token} {row : GuestLoanConfirmation}
    (h : lockOwnRow secrets db lookup.id token now = .ok row) :
    guessCompared secrets now lookup token db = true ↔
      row.codeFailedTotal < GUEST_CODE_MAX_FAILED_TOTAL ∧ (row.liveCode now).isSome := by
  unfold guessCompared
  rw [h]
  exact decide_eq_true_iff

/-- **verifyCode** compares the guess with a live code, or changes nothing. -/
theorem verifyCode_cases {secrets : GuestConfirmationSecrets} {lookup : TokenLookup}
    {req : VerifyGuestCodeRequest} {proof : Token} {reply : Except GuestFailure Unit}
    (h : verifyCode secrets now lookup req proof db = (db', reply)) :
    (db' = db ∧ guessCompared secrets now lookup req.token db = false ∧ ∃ f, reply = .error f) ∨
      ∃ row live, GuessGuards db secrets now lookup req.token row live ∧
        guessCompared secrets now lookup req.token db = true ∧
        (codeMatches secrets row.id req live = true ∧ reply = .ok () ∧
            db' = db.editConfirmation row.id (proofEdit secrets proof now) ∨
          codeMatches secrets row.id req live = false ∧ reply = .error .codeInvalid ∧
            db' = db.editConfirmation row.id wrongGuessEdit) := by
  unfold verifyCode at h
  split at h
  · next f hrow =>
    cases h
    exact .inl ⟨rfl, guessCompared_of_error hrow, _, rfl⟩
  · next row hrow =>
    have hcompared := guessCompared_of_ok hrow
    split at h
    · next hfailed =>
      cases h
      refine .inl ⟨rfl, Bool.eq_false_iff.mpr fun htrue => ?_, _, rfl⟩
      exact Nat.not_lt.mpr hfailed (hcompared.mp htrue).1
    · next hfailed =>
      have hguess := Nat.not_le.mp hfailed
      split at h
      · next hlive =>
        cases h
        refine .inl ⟨rfl, Bool.eq_false_iff.mpr fun htrue => ?_, _, rfl⟩
        have hsome := (hcompared.mp htrue).2
        rw [hlive] at hsome
        exact Bool.false_ne_true hsome
      · next live hlive =>
        have htrue := hcompared.mpr ⟨hguess, by rw [hlive]; rfl⟩
        refine .inr ⟨row, live, ⟨hrow, hguess, hlive⟩, htrue, ?_⟩
        split at h
        · next hmatch =>
          cases h
          exact .inl ⟨hmatch, rfl, rfl⟩
        · next hmatch =>
          cases h
          exact .inr ⟨Bool.eq_false_iff.mpr hmatch, rfl, rfl⟩

end Bookswap
