import Bookswap.Guests.GuestCodes
import Bookswap.Lib.LinkTallies

/-!
# A confirmation is a guarded link

The row of one confirmation holds hashes and counters; what they stand for is a guarded link
with its secrets. Every transaction of the system moves the link of every confirmation as its
label says, so what holds of guarded links holds of the guest's page.

- `guestEvent`: what a transaction is to the link of one confirmation.
- `Shows`: the row holds the hashes of the link.
- `World.Step.guestLink`: **one step of the system is at most one step of the link**.
- `guest_links`: the run of a link within a run of the system.
-/

namespace Bookswap

open Store GuardedLink

/-- Who a code is sent to: the address and the nickname, as they are compared. -/
abbrev GuestIdentity := String × String

def guestLimits : GuardedLink.Limits where
  linkTtl := GUEST_LINK_TTL_MS
  codeTtl := GUEST_CODE_TTL_MS
  proofTtl := GUEST_PROOF_TTL_MS
  window := GUEST_CODE_SEND_WINDOW_MS
  maxAttempts := GUEST_CODE_MAX_ATTEMPTS
  maxFailed := GUEST_CODE_MAX_FAILED_TOTAL
  maxSends := GUEST_CODE_MAX_SENDS_PER_WINDOW

abbrev GuestLinkEvent := GuardedLink.Event Token GuestIdentity Code Nonce

abbrev GuestLinkState := GuardedLink.State Token GuestIdentity Code Nonce

variable {secrets : GuestConfirmationSecrets} {db db' : Db} {now : Time} {cid : ConfirmationId}
  {s : GuestLinkState} {g : GuestLoanConfirmation}

def GuestConfirmationSecrets.identity (secrets : GuestConfirmationSecrets)
    (email nickname : String) : GuestIdentity :=
  (secrets.normalizeEmail email, secrets.trim nickname)

/-- What a transaction is to the link of the confirmation `cid`: declined calls are nothing. -/
def guestEvent (secrets : GuestConfirmationSecrets) (cid : ConfirmationId) :
    Op → Option GuestLinkEvent
  | .rotateLink now _ id token => if id = cid then some (.rotate now token) else none
  | .withdrawLink id token => if id = cid then some (.withdrawLink token) else none
  | .requestCode now lookup req code nonce (.ok _) =>
    if lookup.id = cid then
      some (.issue now req.token (secrets.identity req.email req.nickname) code nonce)
    else none
  | .withdrawCode id nonce => if id = cid then some (.withdrawCode nonce) else none
  | .verifyCode now lookup req proof true reply =>
    if lookup.id = cid then
      some (.guess now req.token (secrets.identity req.email req.nickname) req.code proof
        reply.toBool)
    else none
  | .answer now lookup req (.ok _) =>
    if lookup.id = cid then
      some (.accept now req.token (secrets.identity req.email req.nickname) req.proof)
    else none
  | .applyAction _ _ id _ => if id = cid then some .close else none
  | _ => none

/-- The history of one link within a history of the system. -/
def guestEvents (secrets : GuestConfirmationSecrets) (cid : ConfirmationId) (h : List Op) :
    List GuestLinkEvent :=
  h.filterMap (guestEvent secrets cid)

/-- The transactions that are events of the link, and which. -/
inductive GuestLinkOp (secrets : GuestConfirmationSecrets) (cid : ConfirmationId) :
    Op → GuestLinkEvent → Prop
  | rotate {now : Time} {ownerId : UserId} {token : Token} :
    GuestLinkOp secrets cid (.rotateLink now ownerId cid token) (.rotate now token)
  | withdrawLink {token : Token} :
    GuestLinkOp secrets cid (.withdrawLink cid token) (.withdrawLink token)
  | issue {now : Time} {lookup : TokenLookup} {req : RequestGuestCodeRequest} {code : Code}
    {nonce : Nonce} : lookup.id = cid →
    GuestLinkOp secrets cid (.requestCode now lookup req code nonce (.ok ()))
      (.issue now req.token (secrets.identity req.email req.nickname) code nonce)
  | withdrawCode {nonce : Nonce} :
    GuestLinkOp secrets cid (.withdrawCode cid nonce) (.withdrawCode nonce)
  | guess {now : Time} {lookup : TokenLookup} {req : VerifyGuestCodeRequest} {proof : Token}
    {reply : Except GuestFailure Unit} : lookup.id = cid →
    GuestLinkOp secrets cid (.verifyCode now lookup req proof true reply)
      (.guess now req.token (secrets.identity req.email req.nickname) req.code proof reply.toBool)
  | accept {now : Time} {lookup : TokenLookup} {req : AnswerGuestResponseRequest} :
    lookup.id = cid → GuestLinkOp secrets cid (.answer now lookup req (.ok ()))
      (.accept now req.token (secrets.identity req.email req.nickname) req.proof)
  | close {now : Time} {ownerId : UserId} {action : GuestConfirmationAction} :
    GuestLinkOp secrets cid (.applyAction now ownerId cid action) .close

theorem guestEvent_eq_some {op : Op} {e : GuestLinkEvent} :
    guestEvent secrets cid op = some e ↔ GuestLinkOp secrets cid op e := by
  constructor
  · intro h
    cases op with
    | rotateLink now ownerId id token =>
      obtain ⟨rfl, ⟨⟩⟩ := Option.ite_none_right_eq_some.mp h
      exact .rotate
    | withdrawLink id token =>
      obtain ⟨rfl, ⟨⟩⟩ := Option.ite_none_right_eq_some.mp h
      exact .withdrawLink
    | requestCode now lookup req code nonce reply =>
      cases reply with
      | error => cases h
      | ok =>
        obtain ⟨hid, ⟨⟩⟩ := Option.ite_none_right_eq_some.mp h
        exact .issue hid
    | withdrawCode id nonce =>
      obtain ⟨rfl, ⟨⟩⟩ := Option.ite_none_right_eq_some.mp h
      exact .withdrawCode
    | verifyCode now lookup req proof compared reply =>
      cases compared with
      | false => cases h
      | true =>
        obtain ⟨hid, ⟨⟩⟩ := Option.ite_none_right_eq_some.mp h
        exact .guess hid
    | answer now lookup req reply =>
      cases reply with
      | error => cases h
      | ok =>
        obtain ⟨hid, ⟨⟩⟩ := Option.ite_none_right_eq_some.mp h
        exact .accept hid
    | applyAction now ownerId id action =>
      obtain ⟨rfl, ⟨⟩⟩ := Option.ite_none_right_eq_some.mp h
      exact .close
    | _ => cases h
  · intro h
    cases h with
    | issue hid => exact if_pos hid
    | guess hid => exact if_pos hid
    | accept hid => exact if_pos hid
    | _ => exact if_pos rfl

/-! ## What a row stands for -/

/-- The HMAC of a challenge, from the identity as it is compared. -/
def GuestConfirmationSecrets.macOf (secrets : GuestConfirmationSecrets) (cid : ConfirmationId)
    (who : GuestIdentity) : Digest :=
  secrets.mac (.challenge cid who.1 who.2)

/-- The columns of the challenge, the code and the proof. -/
def GuestLoanConfirmation.ShowsChallenge (secrets : GuestConfirmationSecrets)
    (g : GuestLoanConfirmation) : GuardedLink.Challenge Token GuestIdentity Code Nonce → Prop
  | .idle => g.codeHash = none ∧ g.codeNonce = none ∧ g.proofHash = none
  | .sent who code nonce expiresAt attempts =>
    g.challengeMac = some (secrets.macOf g.id who) ∧
      g.codeHash = some (secrets.codeHash g.id (secrets.macOf g.id who) code) ∧
      g.codeNonce = some nonce ∧ g.codeExpiresAt = some expiresAt ∧ g.codeAttempts = attempts ∧
      g.proofHash = none
  | .proven who proof expiresAt =>
    g.challengeMac = some (secrets.macOf g.id who) ∧ g.codeHash = none ∧ g.codeNonce = none ∧
      g.proofHash = some (secrets.hashToken proof) ∧ g.proofExpiresAt = some expiresAt ∧
      g.verifiedAt ≠ none

/-- The columns of the link and its counters. -/
structure GuestLoanConfirmation.ShowsLink (secrets : GuestConfirmationSecrets)
    (g : GuestLoanConfirmation) (l : GuardedLink.Link Token GuestIdentity Code Nonce) : Prop where
  open_ : g.status = .open
  token : g.linkTokenHash = some (secrets.hashToken l.token)
  expiresAt : g.linkExpiresAt = some l.expiresAt
  failed : g.codeFailedTotal = l.failed
  sent : g.codeSentCount = l.sent
  windowStart : g.codeWindowStartedAt = l.windowStart
  challenge : g.ShowsChallenge secrets l.challenge

/-- The row holds the hashes of the state. -/
def GuestLoanConfirmation.Shows (secrets : GuestConfirmationSecrets) (g : GuestLoanConfirmation) :
    GuestLinkState → Prop
  | .idle => g.status = .open ∧ g.linkTokenHash = none
  | .linked l => g.ShowsLink secrets l
  | .closed => g.status ≠ .open ∧ g.linkTokenHash = none

/-- The confirmation shows the state; one that does not exist yet has no link. -/
def Db.ShowsLink (secrets : GuestConfirmationSecrets) (db : Db) (cid : ConfirmationId)
    (s : GuestLinkState) : Prop :=
  (db.confirmations.find? cid).elim (s = .idle) fun g => g.Shows secrets s

theorem Db.showsLink_of_some (hg : db.confirmations.find? cid = some g) :
    db.ShowsLink secrets cid s ↔ g.Shows secrets s := by
  unfold Db.ShowsLink
  rw [hg]
  rfl

theorem Db.showsLink_of_none (hg : db.confirmations.find? cid = none) :
    db.ShowsLink secrets cid s ↔ s = .idle := by
  unfold Db.ShowsLink
  rw [hg]
  rfl

theorem Db.ShowsLink.of_eq (hs : db.ShowsLink secrets cid s)
    (hrow : db'.confirmations.find? cid = db.confirmations.find? cid) :
    db'.ShowsLink secrets cid s := by
  unfold Db.ShowsLink
  rw [hrow]
  exact hs

/-! ## The edits of a row -/

theorem macOf_identity (id : ConfirmationId) (email nickname : String) :
    secrets.macOf id (secrets.identity email nickname) = secrets.challengeMac id email nickname :=
  rfl

theorem macOf_injective (hinj : secrets.Injective) {id : ConfirmationId} {who who' : GuestIdentity}
    (h : secrets.macOf id who = secrets.macOf id who') : who = who' := by
  obtain ⟨-, hemail, hnickname⟩ := MacInput.challenge.inj (hinj.mac h)
  exact Prod.ext hemail hnickname

theorem codeHash_injective (hinj : secrets.Injective) {id : ConfirmationId} {mac : Digest}
    {code code' : Code} (h : secrets.codeHash id mac code = secrets.codeHash id mac code') :
    code = code' :=
  (MacInput.code.inj (hinj.mac h)).2.2

/-- A row that is presented with a token shows a link that is presented. -/
theorem GuestLoanConfirmation.Shows.presented (hinj : secrets.Injective) {token : Token}
    (hs : g.Shows secrets s) (hrow : lockOwnRow secrets db cid token now = .ok g) :
    ∃ l, s = .linked l ∧ g.ShowsLink secrets l ∧ l.Presented now token := by
  obtain ⟨-, hopen, htoken, t, hexp, hlt⟩ := lockOwnRow_eq_ok.mp hrow
  cases s with
  | idle =>
    rw [hs.2] at htoken
    cases htoken
  | linked l =>
    have hl : g.ShowsLink secrets l := hs
    rw [hl.token] at htoken
    rw [hl.expiresAt] at hexp
    cases hexp
    exact ⟨l, rfl, hl, hinj.hashToken (Option.some.inj htoken), hlt⟩
  | closed => exact absurd hopen hs.1

theorem GuestLoanConfirmation.ShowsLink.windowOpen
    {l : GuardedLink.Link Token GuestIdentity Code Nonce} (hl : g.ShowsLink secrets l) :
    g.windowOpen now = l.windowOpen guestLimits now := by
  unfold GuestLoanConfirmation.windowOpen Link.windowOpen
  rw [hl.windowStart]
  rfl

theorem GuestLoanConfirmation.ShowsLink.sentInWindow
    {l : GuardedLink.Link Token GuestIdentity Code Nonce} (hl : g.ShowsLink secrets l) :
    g.sentInWindow now = l.sentInWindow guestLimits now := by
  unfold GuestLoanConfirmation.sentInWindow Link.sentInWindow
  rw [hl.windowOpen, hl.sent]

/-- A new code over a link. -/
theorem GuestLoanConfirmation.ShowsLink.issue
    {l : GuardedLink.Link Token GuestIdentity Code Nonce} (hl : g.ShowsLink secrets l)
    (req : RequestGuestCodeRequest) (code : Code) (nonce : Nonce) :
    (codeEdit secrets req code nonce now g).ShowsLink secrets
      (l.issued guestLimits now (secrets.identity req.email req.nickname) code nonce) where
  open_ := hl.open_
  token := hl.token
  expiresAt := hl.expiresAt
  failed := hl.failed
  sent := congrArg (· + 1) hl.sentInWindow
  windowStart := by
    show (if g.windowOpen now then g.codeWindowStartedAt else some now) =
      if l.windowOpen guestLimits now then l.windowStart else some now
    rw [hl.windowOpen, hl.windowStart]
  challenge := ⟨rfl, rfl, rfl, rfl, rfl, rfl⟩

/-- The live code of a row is the code of its link. -/
theorem GuestLoanConfirmation.ShowsLink.liveCode
    {l : GuardedLink.Link Token GuestIdentity Code Nonce} (hl : g.ShowsLink secrets l)
    {live : Digest × Digest} (hlive : g.liveCode now = some live) :
    ∃ who code nonce expiresAt n, l.challenge = .sent who code nonce expiresAt n ∧
      now < expiresAt ∧ live = (secrets.macOf g.id who,
        secrets.codeHash g.id (secrets.macOf g.id who) code) := by
  have hc := hl.challenge
  unfold GuestLoanConfirmation.liveCode at hlive
  cases hchallenge : l.challenge with
  | idle =>
    rw [hchallenge] at hc
    rw [hc.1] at hlive
    cases hlive
  | proven who proof expiresAt =>
    rw [hchallenge] at hc
    rw [hc.2.1] at hlive
    cases hlive
  | sent who code nonce expiresAt n =>
    rw [hchallenge] at hc
    obtain ⟨hmac, hcode, -, hexp, -, -⟩ := hc
    rw [hmac, hcode, hexp] at hlive
    dsimp only at hlive
    split at hlive
    · cases hlive
    · next hlt =>
      cases hlive
      exact ⟨who, code, nonce, expiresAt, n, rfl, Int.not_le.mp hlt, rfl⟩

/-- A guess matches exactly when it is the code, for the same address and nickname. -/
theorem codeMatches_iff (hinj : secrets.Injective) {id : ConfirmationId}
    {req : VerifyGuestCodeRequest} {who : GuestIdentity} {code : Code} :
    codeMatches secrets id req
        (secrets.macOf id who, secrets.codeHash id (secrets.macOf id who) code) = true ↔
      secrets.identity req.email req.nickname = who ∧ req.code = code := by
  unfold codeMatches
  rw [decide_eq_true_iff, ← macOf_identity]
  constructor
  · rintro ⟨hmac, hcode⟩
    obtain rfl := macOf_injective hinj hmac
    exact ⟨rfl, codeHash_injective hinj hcode⟩
  · rintro ⟨rfl, rfl⟩
    exact ⟨rfl, rfl⟩

/-- A proof over a link whose code was guessed. -/
theorem GuestLoanConfirmation.ShowsLink.proof
    {l : GuardedLink.Link Token GuestIdentity Code Nonce} (hl : g.ShowsLink secrets l)
    {who : GuestIdentity} {code : Code} {nonce : Nonce} {expiresAt : Time} {n : Nat}
    (hsent : l.challenge = .sent who code nonce expiresAt n) (proof : Token) :
    (proofEdit secrets proof now g).ShowsLink secrets
      { l with challenge := .proven who proof (now + guestLimits.proofTtl) } where
  open_ := hl.open_
  token := hl.token
  expiresAt := hl.expiresAt
  failed := hl.failed
  sent := hl.sent
  windowStart := hl.windowStart
  challenge := by
    have hc := hl.challenge
    rw [hsent] at hc
    exact ⟨hc.1, rfl, rfl, rfl, rfl, fun heq => nomatch heq⟩

/-- A wrong guess over a link with a code. -/
theorem GuestLoanConfirmation.ShowsLink.miss
    {l : GuardedLink.Link Token GuestIdentity Code Nonce} (hl : g.ShowsLink secrets l)
    {who : GuestIdentity} {code : Code} {nonce : Nonce} {expiresAt : Time} {n : Nat}
    (hsent : l.challenge = .sent who code nonce expiresAt n) :
    (wrongGuessEdit g).ShowsLink secrets
      { l with failed := l.failed + 1, challenge := Link.missed guestLimits l.challenge } := by
  have hc := hl.challenge
  rw [hsent] at hc
  obtain ⟨hmac, hcode, hnonce, hexp, hattempts, hproof⟩ := hc
  show GuestLoanConfirmation.ShowsLink secrets (if g.codeAttempts + 1 ≥ GUEST_CODE_MAX_ATTEMPTS then
      { g.clearedChallenge with codeFailedTotal := g.codeFailedTotal + 1 }
    else { g with
      codeFailedTotal := g.codeFailedTotal + 1, codeAttempts := g.codeAttempts + 1 }) _
  rw [hattempts, hsent, Link.missed_sent]
  show GuestLoanConfirmation.ShowsLink secrets _ { l with
    failed := l.failed + 1
    challenge := if n + 1 ≥ GUEST_CODE_MAX_ATTEMPTS then .idle
      else .sent who code nonce expiresAt (n + 1) }
  by_cases hlast : n + 1 ≥ GUEST_CODE_MAX_ATTEMPTS
  · rw [if_pos hlast, if_pos hlast]
    exact ⟨hl.open_, hl.token, hl.expiresAt, congrArg (· + 1) hl.failed, hl.sent, hl.windowStart,
      rfl, rfl, rfl⟩
  · rw [if_neg hlast, if_neg hlast]
    exact ⟨hl.open_, hl.token, hl.expiresAt, congrArg (· + 1) hl.failed, hl.sent, hl.windowStart,
      hmac, hcode, hnonce, hexp, rfl, hproof⟩

/-- A withdrawn challenge over a link. -/
theorem GuestLoanConfirmation.ShowsLink.withdraw
    {l : GuardedLink.Link Token GuestIdentity Code Nonce} (hl : g.ShowsLink secrets l)
    (nonce : Nonce) :
    (if g.codeNonce = some nonce then g.clearedChallenge else g).ShowsLink secrets
      { l with challenge := l.challenge.withdraw nonce } := by
  have hc := hl.challenge
  cases hchallenge : l.challenge with
  | idle =>
    rw [hchallenge] at hc
    rw [if_neg (by rw [hc.2.1]; exact fun heq => nomatch heq)]
    exact ⟨hl.open_, hl.token, hl.expiresAt, hl.failed, hl.sent, hl.windowStart, hc⟩
  | proven who proof expiresAt =>
    rw [hchallenge] at hc
    rw [if_neg (by rw [hc.2.2.1]; exact fun heq => nomatch heq)]
    exact ⟨hl.open_, hl.token, hl.expiresAt, hl.failed, hl.sent, hl.windowStart, hc⟩
  | sent who code nonce' expiresAt n =>
    rw [hchallenge] at hc
    rw [Challenge.withdraw_sent]
    by_cases hn : nonce' = nonce
    · rw [if_pos hn, if_pos (hn ▸ hc.2.2.1)]
      exact ⟨hl.open_, hl.token, hl.expiresAt, hl.failed, hl.sent, hl.windowStart, rfl, rfl, rfl⟩
    · rw [if_neg hn, if_neg fun heq => hn (Option.some.inj (hc.2.2.1.symm.trans heq))]
      exact ⟨hl.open_, hl.token, hl.expiresAt, hl.failed, hl.sent, hl.windowStart, hc⟩

/-- An accepted proof is the proof of the link. -/
theorem GuestLoanConfirmation.ShowsLink.accepts (hinj : secrets.Injective)
    {l : GuardedLink.Link Token GuestIdentity Code Nonce} (hl : g.ShowsLink secrets l)
    {req : AnswerGuestResponseRequest} (hproof : ProofAccepted secrets g req now) :
    l.Accepts now (secrets.identity req.email req.nickname) req.proof := by
  have hc := hl.challenge
  obtain ⟨t, hexp, hlt⟩ := hproof.live
  refine Link.accepts_iff.mpr ⟨t, ?_, hlt⟩
  cases hchallenge : l.challenge with
  | idle =>
    rw [hchallenge] at hc
    have hnone := hproof.proof
    rw [hc.2.2] at hnone
    cases hnone
  | sent who code nonce expiresAt n =>
    rw [hchallenge] at hc
    have hnone := hproof.proof
    rw [hc.2.2.2.2.2] at hnone
    cases hnone
  | proven who proof expiresAt =>
    rw [hchallenge] at hc
    obtain ⟨hmac, -, -, hhash, hexpires, -⟩ := hc
    have hwho := hproof.challenge
    rw [hmac, ← macOf_identity, Option.some.injEq] at hwho
    have htoken := hproof.proof
    rw [hhash, Option.some.injEq] at htoken
    rw [hexpires] at hexp
    cases hexp
    rw [macOf_injective hinj hwho, hinj.hashToken htoken]

/-! ## A step of the system -/

/-- The link moves as the label says. -/
def GuestMoves (secrets : GuestConfirmationSecrets) (cid : ConfirmationId) (op : Op)
    (s s' : GuestLinkState) : Prop :=
  match guestEvent secrets cid op with
  | none => s' = s
  | some e => s.next guestLimits e = some s'

/-- The confirmation shows a state to which the link moves. -/
def Db.LinkMoves (secrets : GuestConfirmationSecrets) (cid : ConfirmationId) (op : Op)
    (s : GuestLinkState) (db' : Db) : Prop :=
  ∃ s', db'.ShowsLink secrets cid s' ∧ GuestMoves secrets cid op s s'

section

variable {op : Op} {e : GuestLinkEvent} {id : ConfirmationId}

theorem Db.LinkMoves.quiet (hevent : guestEvent secrets cid op = none)
    (hs : db'.ShowsLink secrets cid s) : db'.LinkMoves secrets cid op s := by
  refine ⟨s, hs, ?_⟩
  unfold GuestMoves
  rw [hevent]

theorem Db.LinkMoves.unchanged (hs : db.ShowsLink secrets cid s)
    (hevent : guestEvent secrets cid op = none) (hrows : db'.confirmations = db.confirmations) :
    db'.LinkMoves secrets cid op s :=
  .quiet hevent (hs.of_eq (by rw [hrows]))

theorem Db.LinkMoves.event {t : GuestLinkState} (hevent : guestEvent secrets cid op = some e)
    (hs : db'.ShowsLink secrets cid t) (hnext : s.next guestLimits e = some t) :
    db'.LinkMoves secrets cid op s := by
  refine ⟨t, hs, ?_⟩
  unfold GuestMoves
  rw [hevent]
  exact hnext

/-- A write to another confirmation. -/
theorem Db.LinkMoves.elsewhere {f : Table.Edit GuestLoanConfirmation.id}
    (hs : db.ShowsLink secrets cid s) (hevent : guestEvent secrets cid op = none) (hne : id ≠ cid)
    (hrows : db'.confirmations = db.confirmations.modify id f) :
    db'.LinkMoves secrets cid op s :=
  .quiet hevent (hs.of_eq (by rw [hrows, Table.find?_modify, if_neg (Ne.symm hne)]))

/-- A write to this confirmation. -/
theorem Db.LinkMoves.here {t : GuestLinkState} {f : Table.Edit GuestLoanConfirmation.id}
    (hg : db.confirmations.find? cid = some g) (hevent : guestEvent secrets cid op = some e)
    (hrows : db'.confirmations = db.confirmations.modify cid f) (hs : (f g).Shows secrets t)
    (hnext : s.next guestLimits e = some t) : db'.LinkMoves secrets cid op s := by
  have hg' : db'.confirmations.find? cid = some (f g) := by
    rw [hrows, Table.find?_modify, if_pos rfl, hg]
    rfl
  exact .event hevent ((Db.showsLink_of_some hg').mpr hs) hnext

/-- A conditional update of the rows of one confirmation. -/
theorem Db.showsLink_updateWhere {p : GuestLoanConfirmation → Bool}
    {f : Table.Edit GuestLoanConfirmation.id} {s' : GuestLinkState}
    (hrows : db'.confirmations = db.confirmations.updateWhere p f)
    (hs : db.ShowsLink secrets cid s) (hidle : s = .idle → s' = .idle)
    (hrow : ∀ g : GuestLoanConfirmation, g.id = cid → g.Shows secrets s →
      (if p g then f g else g).Shows secrets s') :
    db'.ShowsLink secrets cid s' := by
  cases hg : db.confirmations.find? cid with
  | none =>
    have hg' : db'.confirmations.find? cid = none := by
      rw [hrows, Table.find?_updateWhere, hg]
      rfl
    exact (Db.showsLink_of_none hg').mpr (hidle ((Db.showsLink_of_none hg).mp hs))
  | some g =>
    have hg' : db'.confirmations.find? cid = some (if p g then f g else g) := by
      rw [hrows, Table.find?_updateWhere, hg]
      rfl
    exact (Db.showsLink_of_some hg').mpr
      (hrow g (Table.key_of_find? hg) ((Db.showsLink_of_some hg).mp hs))

/-! ### The services -/

/-- A new confirmation has no link yet. -/
theorem createRequest_link {ownerId : UserId} {req : CreateGuestLoanRequest} {id : LoanId}
    {confirmationId : ConfirmationId} (hs : db.ShowsLink secrets cid s)
    (hok : createRequest now ownerId req id confirmationId db = .ok db') :
    db'.LinkMoves secrets cid (.createRequest now ownerId req id confirmationId) s := by
  obtain ⟨contact, copy, loans, confirmations, t, -, -, -, -, hins, rfl⟩ :=
    createRequest_writes hok
  refine .quiet rfl ?_
  by_cases hid : cid = confirmationId
  · subst hid
    obtain rfl := (Db.showsLink_of_none (Table.find?_fresh hins)).mp hs
    have hg := (Table.find?_insert hins cid).trans (if_pos rfl)
    exact (Db.showsLink_of_some hg).mpr ⟨rfl, rfl⟩
  · exact hs.of_eq ((Table.find?_insert hins cid).trans (if_neg hid))

theorem GuestLoanConfirmation.Shows.not_closed (hs : g.Shows secrets s) (hopen : g.status = .open) :
    s ≠ .closed := by
  rintro rfl
  exact hs.1 hopen

theorem rotateLink_link {ownerId : UserId} {token : Token} (hs : db.ShowsLink secrets cid s)
    (hok : rotateLink secrets now ownerId id token db = .ok db') :
    db'.LinkMoves secrets cid (.rotateLink now ownerId id token) s := by
  obtain ⟨confirmation, loan, hchain, hopen, -, rfl⟩ := rotateLink_writes hok
  by_cases hid : id = cid
  · subst hid
    have hg := hchain.find_confirmation
    have hshows := (Db.showsLink_of_some hg).mp hs
    have hlink : (linkEdit secrets token now confirmation).ShowsLink secrets
        ⟨token, now + guestLimits.linkTtl, 0, 0, none, .idle⟩ :=
      ⟨hopen, rfl, rfl, rfl, rfl, rfl, rfl, rfl, rfl⟩
    refine .here hg (if_pos rfl) rfl (t := .linked _) hlink ?_
    cases s with
    | closed => exact absurd rfl (hshows.not_closed hopen)
    | _ => rfl
  · exact .elsewhere hs (if_neg hid) hid rfl

theorem withdrawLink_link (hinj : secrets.Injective) {token : Token}
    (hs : db.ShowsLink secrets cid s) :
    (withdrawLink secrets id token db).LinkMoves secrets cid (.withdrawLink id token) s := by
  by_cases hid : id = cid
  · subst hid
    cases s with
    | idle =>
      refine .event (if_pos rfl) (t := .idle)
        (Db.showsLink_updateWhere rfl hs (fun _ => rfl) fun g _ hg => ?_) rfl
      rw [if_neg (by simp [hg.2])]
      exact hg
    | closed =>
      refine .event (if_pos rfl) (t := .closed)
        (Db.showsLink_updateWhere rfl hs (by rintro ⟨⟩) fun g _ hg => ?_) rfl
      rw [if_neg (by simp [hg.2])]
      exact hg
    | linked l =>
      refine .event (if_pos rfl) (t := if l.token = token then .idle else .linked l)
        (Db.showsLink_updateWhere rfl hs (by rintro ⟨⟩) fun g hkey hg => ?_) rfl
      have hl : g.ShowsLink secrets l := hg
      by_cases htoken : l.token = token
      · rw [if_pos htoken, if_pos (by simp [hkey, hl.token, htoken])]
        exact ⟨hl.open_, rfl⟩
      · have hne : secrets.hashToken l.token ≠ secrets.hashToken token :=
          fun heq => htoken (hinj.hashToken heq)
        rw [if_neg htoken, if_neg (by simp [hl.token, hne])]
        exact hl
  · refine .quiet (if_neg hid) (Db.showsLink_updateWhere rfl hs (fun h => h) fun g hkey hg => ?_)
    rw [if_neg (by simp [hkey, Ne.symm hid])]
    exact hg

theorem withdrawCode_link {nonce : Nonce} (hs : db.ShowsLink secrets cid s) :
    (withdrawCode id nonce db).LinkMoves secrets cid (.withdrawCode id nonce) s := by
  by_cases hid : id = cid
  · subst hid
    cases s with
    | idle =>
      refine .event (if_pos rfl) (t := .idle)
        (Db.showsLink_updateWhere rfl hs (fun _ => rfl) fun g _ hg => ?_) rfl
      split
      · exact hg
      · exact hg
    | closed =>
      refine .event (if_pos rfl) (t := .closed)
        (Db.showsLink_updateWhere rfl hs (by rintro ⟨⟩) fun g _ hg => ?_) rfl
      split
      · exact hg
      · exact hg
    | linked l =>
      refine .event (if_pos rfl) (t := .linked { l with challenge := l.challenge.withdraw nonce })
        (Db.showsLink_updateWhere rfl hs (by rintro ⟨⟩) fun g hkey hg => ?_) rfl
      have hl : g.ShowsLink secrets l := hg
      have hwithdrawn := hl.withdraw nonce
      by_cases hn : g.codeNonce = some nonce
      · rw [if_pos hn] at hwithdrawn
        rw [if_pos (by simp [hkey, hn])]
        exact hwithdrawn
      · rw [if_neg hn] at hwithdrawn
        rw [if_neg (by simp [hn])]
        exact hwithdrawn
  · refine .quiet (if_neg hid) (Db.showsLink_updateWhere rfl hs (fun h => h) fun g hkey hg => ?_)
    rw [if_neg (by simp [hkey, Ne.symm hid])]
    exact hg

theorem requestCode_link (hinj : secrets.Injective) {lookup : TokenLookup}
    {req : RequestGuestCodeRequest} {code : Code} {nonce : Nonce} {reply : Except GuestFailure Unit}
    (hs : db.ShowsLink secrets cid s)
    (hok : requestCode secrets now lookup req code nonce db = (db', reply)) :
    db'.LinkMoves secrets cid (.requestCode now lookup req code nonce reply) s := by
  rcases requestCode_cases hok with ⟨rfl, f, rfl⟩ | ⟨row, hissue, rfl, rfl⟩
  · exact .unchanged hs rfl rfl
  · have hg := (lockOwnRow_eq_ok.mp hissue.row_eq).1
    have hkey := Table.key_of_find? hg
    by_cases hid : lookup.id = cid
    · subst hid
      have hshows := (Db.showsLink_of_some hg).mp hs
      obtain ⟨l, rfl, hl, hpresented⟩ := hshows.presented hinj hissue.row_eq
      refine .here hg (if_pos rfl) (by rw [← hkey]; rfl) (t := .linked _)
        (hl.issue req code nonce) ?_
      have hfailed := hl.failed ▸ hissue.guessable
      have hsent := hl.sentInWindow ▸ hissue.sendable
      exact if_pos ⟨hpresented, hfailed, hsent⟩
    · exact .elsewhere hs (if_neg hid) hid (by rw [← hkey]; rfl)

theorem verifyCode_link (hinj : secrets.Injective) {lookup : TokenLookup}
    {req : VerifyGuestCodeRequest} {proof : Token} {reply : Except GuestFailure Unit}
    (hs : db.ShowsLink secrets cid s)
    (hok : verifyCode secrets now lookup req proof db = (db', reply)) :
    db'.LinkMoves secrets cid (.verifyCode now lookup req proof
      (guessCompared secrets now lookup req.token db) reply) s := by
  rcases verifyCode_cases hok with ⟨rfl, hnot, -⟩ | ⟨row, live, hguess, hcompared, hwrite⟩
  · rw [hnot]
    exact .unchanged hs rfl rfl
  · rw [hcompared]
    have hg := (lockOwnRow_eq_ok.mp hguess.row_eq).1
    have hkey := Table.key_of_find? hg
    by_cases hid : lookup.id = cid
    · subst hid
      have hshows := (Db.showsLink_of_some hg).mp hs
      obtain ⟨l, rfl, hl, hpresented⟩ := hshows.presented hinj hguess.row_eq
      obtain ⟨who, code, nonce, expiresAt, n, hsent, hlt, rfl⟩ := hl.liveCode hguess.live
      have hfailed := hl.failed ▸ hguess.guessable
      rcases hwrite with ⟨hmatch, rfl, rfl⟩ | ⟨hmiss, rfl, rfl⟩
      · obtain ⟨hwho, hcode⟩ := (codeMatches_iff hinj).mp hmatch
        refine .here hg (if_pos rfl) (by rw [← hkey]; rfl) (t := .linked _)
          (hl.proof hsent proof) ?_
        have hright : true = decide (secrets.identity req.email req.nickname = who ∧
            req.code = code) := (decide_eq_true ⟨hwho, hcode⟩).symm
        show (if l.Presented now req.token then _ else none) = _
        rw [if_pos hpresented]
        unfold Link.guessed
        rw [hsent]
        dsimp only
        rw [if_pos ⟨hfailed, hlt, hright⟩, ← hwho]
        rfl
      · have hwrong : false = decide (secrets.identity req.email req.nickname = who ∧
            req.code = code) := by
          refine (decide_eq_false fun heq => ?_).symm
          rw [(codeMatches_iff hinj).mpr heq] at hmiss
          cases hmiss
        refine .here hg (if_pos rfl) (by rw [← hkey]; rfl) (t := .linked _) (hl.miss hsent) ?_
        show (if l.Presented now req.token then _ else none) = _
        rw [if_pos hpresented]
        unfold Link.guessed
        rw [hsent]
        dsimp only
        rw [if_pos ⟨hfailed, hlt, hwrong⟩]
        rfl
    · rcases hwrite with ⟨-, -, rfl⟩ | ⟨-, -, rfl⟩
      · exact .elsewhere hs (if_neg hid) hid (by rw [← hkey]; rfl)
      · exact .elsewhere hs (if_neg hid) hid (by rw [← hkey]; rfl)

theorem applyAction_link {ownerId : UserId} {action : GuestConfirmationAction}
    (hs : db.ShowsLink secrets cid s) (hok : applyAction now ownerId id action db = .ok db') :
    db'.LinkMoves secrets cid (.applyAction now ownerId id action) s := by
  obtain ⟨confirmation, loan, copy, contactId, t, hchain, ht, -, -, -, -, hret, -⟩ :=
    applyAction_eq_ok.mp hok
  obtain ⟨deadline, rfl⟩ := recomputeRetainUntil_writes hret
  by_cases hid : id = cid
  · subst hid
    refine .here hchain.find_confirmation (if_pos rfl) rfl (t := .closed) ⟨?_, rfl⟩ rfl
    show t.confirmationTo ≠ .open
    rcases (isConfirmation_of_transition ht).2 with ⟨rfl, -⟩ | ⟨rfl, -⟩ <;> decide
  · exact .elsewhere hs (if_neg hid) hid rfl

theorem answered_confirmations {lookup : TokenLookup} {contactId : ContactId}
    {req : AnswerGuestResponseRequest} {row : GuestLoanConfirmation} {loan : Loan} {copy : Copy} :
    (db.answered secrets now lookup contactId req row loan copy).confirmations =
      db.confirmations.modify lookup.id (resolveEdit req.answer.confirmationStatus
        (if req.answer = .received then some now else none)) := by
  unfold Db.answered
  cases req.answer <;> rfl

theorem answer_link (hinj : secrets.Injective) {lookup : TokenLookup}
    {req : AnswerGuestResponseRequest} {reply : Except GuestFailure Unit}
    (hs : db.ShowsLink secrets cid s)
    (hok : applyAnswer secrets now lookup req db = .ok (db', reply)) :
    db'.LinkMoves secrets cid (.answer now lookup req reply) s := by
  cases reply with
  | error f =>
    obtain rfl := applyAnswer_declined hok
    exact .unchanged hs rfl rfl
  | ok u =>
    obtain ⟨contactId, row, loan, copy, t, hanswer, rfl⟩ := applyAnswer_writes hok
    have hg := (lockOwnRow_eq_ok.mp hanswer.row_eq).1
    have hrows := @answered_confirmations secrets db now lookup contactId req row loan copy
    by_cases hid : lookup.id = cid
    · subst hid
      have hshows := (Db.showsLink_of_some hg).mp hs
      obtain ⟨l, rfl, hl, hpresented⟩ := hshows.presented hinj hanswer.row_eq
      refine .here hg (if_pos rfl) hrows (t := .closed) ⟨?_, rfl⟩ ?_
      · show req.answer.confirmationStatus ≠ .open
        cases req.answer <;> decide
      · exact if_pos ⟨hpresented, hl.accepts hinj hanswer.proof⟩
    · exact .elsewhere hs (if_neg hid) hid hrows

/-- Erasing contacts leaves the links alone. -/
theorem erased_link {gone : ContactId → Bool} (hs : db.ShowsLink secrets cid s)
    (hevent : guestEvent secrets cid op = none) :
    (db.eraseContacts gone).LinkMoves secrets cid op s := by
  refine .quiet hevent ?_
  unfold Db.ShowsLink at hs ⊢
  rw [show (db.eraseContacts gone).confirmations.find? cid = _ from Table.find?_map cid]
  cases hg : db.confirmations.find? cid with
  | none =>
    rw [hg] at hs
    exact hs
  | some g =>
    rw [hg] at hs
    cases s with
    | linked l =>
      have hl : g.ShowsLink secrets l := hs
      exact ⟨hl.open_, hl.token, hl.expiresAt, hl.failed, hl.sent, hl.windowStart, hl.challenge⟩
    | _ => exact hs

end

/-- **One step of the system is at most one step of the link**, the one its label names. -/
theorem World.Step.guestLink (hinj : secrets.Injective) {w w' : World} {op : Op}
    (hw : w.db.ShowsLink secrets cid s) (hs : w.Step secrets op w') :
    w'.db.LinkMoves secrets cid op s := by
  cases op with
  | request now borrowerId req id =>
    obtain ⟨_, _, _, -, -, -, -, hdb⟩ := request_eq_ok.mp hs.1
    exact .unchanged hw rfl (by rw [hdb]; rfl)
  | recordExisting now ownerId req id =>
    obtain ⟨_, _, -, -, -, hdb⟩ := createRecorded_eq_ok.mp hs.1
    exact .unchanged hw rfl (by rw [hdb]; rfl)
  | apply now actorId loanId req =>
    obtain ⟨s, copy, outcome, -, hdb⟩ := runTransition_eq_ok.mp hs.1
    exact .unchanged hw rfl (by rw [hdb]; exact withRejectedWhen_confirmations)
  | createGuestLoan now ownerId req id =>
    obtain ⟨_, _, _, _, -, -, -, -, -, hdb⟩ := createGuestLoan_writes hs.1
    exact .unchanged hw rfl (by rw [hdb]; rfl)
  | applyGuest now ownerId id req =>
    obtain ⟨loan, status, copy, outcome, -, hret⟩ := applyGuestTransition_eq_ok.mp hs.1
    rcases recomputeOf_writes hret with hdb | ⟨contactId, t, hdb⟩
    · exact .unchanged hw rfl (by rw [hdb]; rfl)
    · exact .unchanged hw rfl (by rw [hdb]; rfl)
  | createRequest now ownerId req id confirmationId => exact createRequest_link hw hs.1
  | applyAction now ownerId id action => exact applyAction_link hw hs.1
  | rotateLink now ownerId id token => exact rotateLink_link hw hs.1
  | withdrawLink id token => exact Except.ok.inj hs.1 ▸ withdrawLink_link hinj hw
  | findByToken token lookup => exact .unchanged hw rfl (by rw [hs.2.1])
  | requestCode now lookup req code nonce reply => exact requestCode_link hinj hw hs.1
  | withdrawCode id nonce => exact Except.ok.inj hs.1 ▸ withdrawCode_link hw
  | verifyCode now lookup req proof compared reply =>
    obtain ⟨hok, rfl, -⟩ := hs
    exact verifyCode_link hinj hw hok
  | answer now lookup req reply => exact answer_link hinj hw hs.1
  | addCopy now userId req id =>
    obtain ⟨_, _, _, _, hdb⟩ := addCopy_writes hs.1
    exact .unchanged hw rfl (by rw [hdb])
  | updateCopy userId copyId req =>
    obtain ⟨_, _, _, _, hdb⟩ := updateCopy_writes hs.1
    exact .unchanged hw rfl (by rw [hdb])
  | removeCopy userId copyId =>
    obtain ⟨-, hdb⟩ := removeCopy_writes hs.1
    exact .unchanged hw rfl (by rw [hdb])
  | archiveCopy now userId copyId =>
    rcases archiveCopy_writes hs.1 with hdb | ⟨-, -, hdb⟩
    · exact .unchanged hw rfl (by rw [hdb])
    · exact .unchanged hw rfl (by rw [hdb]; rfl)
  | restoreCopy userId copyId =>
    obtain ⟨-, hdb⟩ := restoreCopy_eq_ok.mp hs.1
    exact .unchanged hw rfl (by rw [hdb])
  | createContact now ownerId aliasName id =>
    obtain ⟨_, _, _, hdb⟩ := createContact_writes hs.1
    exact .unchanged hw rfl (by rw [hdb])
  | updateAlias ownerId id aliasName =>
    obtain ⟨_, hdb⟩ := updateAlias_writes hs.1
    exact .unchanged hw rfl (by rw [hdb])
  | deleteContact ownerId id =>
    obtain ⟨-, hdb⟩ := deleteContact_writes hs.1
    rw [hdb]
    exact erased_link hw rfl
  | cleanupContacts now batch => exact Except.ok.inj hs.1 ▸ erased_link hw rfl
  | backfillContact id =>
    obtain ⟨t, hdb⟩ := recomputeRetainUntil_writes hs.1
    exact .unchanged hw rfl (by rw [hdb]; rfl)
  | social users friendships => exact .unchanged hw rfl (by rw [hs.2.1])

/-- **The link of a confirmation within a run of the system.** -/
theorem guest_links (hinj : secrets.Injective) {h : List Op} {w : World}
    (hr : (system secrets).Run h w) (cid : ConfirmationId) :
    ∃ s, w.db.ShowsLink secrets cid s ∧
      (machine guestLimits).Run (guestEvents secrets cid h) s := by
  induction hr with
  | @start w hi =>
    have hnone : w.db.confirmations.find? cid = none := by
      rw [show w.db.confirmations = .empty from hi.no_confirmations]
      rfl
    exact ⟨.idle, (Db.showsLink_of_none hnone).mpr rfl, .start rfl⟩
  | @next h w w' op _ hstep ih =>
    obtain ⟨s, hshows, hlink⟩ := ih
    obtain ⟨s', hshows', hmoves⟩ := World.Step.guestLink hinj hshows hstep
    refine ⟨s', hshows', ?_⟩
    unfold guestEvents
    rw [List.filterMap_cons]
    unfold GuestMoves at hmoves
    cases hevent : guestEvent secrets cid op with
    | none =>
      rw [hevent] at hmoves
      obtain rfl := hmoves
      exact hlink
    | some e =>
      rw [hevent] at hmoves
      exact .next hlink hmoves

end Bookswap
