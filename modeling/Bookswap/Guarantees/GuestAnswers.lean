import Bookswap.Guests.GuestLinks

/-!
# Who may answer for a guest

The answer of a guest is accepted from whoever holds the last link, and read the last code of
that link in the mailbox it was sent to. Rows hold hashes only, so the statements assume that
the hashes do not collide; nothing is assumed of the interleaving.

- `guest_answer_proven`: **what had to happen before an answer, in order**.
- `guest_links_replaced`: **a link that was replaced, used or closed is of no use again**.
- `guest_guesses_bounded`: **how often the code of a link can be guessed**.
-/

namespace Bookswap

open Store GuardedLink

variable {secrets : GuestConfirmationSecrets} {cid : ConfirmationId} {h : List Op} {w : World}

/-- The transaction replaces, withdraws, uses up or closes the link of `token`. -/
def Op.EndsLink (secrets : GuestConfirmationSecrets) (cid : ConfirmationId) (token : Token)
    (op : Op) : Prop :=
  ∃ e ∈ guestEvent secrets cid op, ¬e.Keeps token

/-- The transaction issues a code for the confirmation. -/
def Op.IssuesCode (secrets : GuestConfirmationSecrets) (cid : ConfirmationId) (op : Op) : Prop :=
  ∃ e ∈ guestEvent secrets cid op, e.issuedAt ≠ none

/-- The transaction presents the link of `token` and is served. -/
def Op.PresentsLink (secrets : GuestConfirmationSecrets) (cid : ConfirmationId) (token : Token)
    (op : Op) : Prop :=
  ∃ e ∈ guestEvent secrets cid op, e.Presents token

/-- The token of a link that the transaction hands out. -/
def Op.linkToken (cid : ConfirmationId) : Op → Option Token
  | .rotateLink _ _ id token => if id = cid then some token else none
  | _ => none

/-- What somebody did before answering, and when. -/
structure AnswerTrail where
  issuedAt : Time
  sentAt : Time
  verifiedAt : Time
  ownerId : UserId
  sent : TokenLookup × RequestGuestCodeRequest × Nonce
  verified : TokenLookup × VerifyGuestCodeRequest
  beforeLink : List Op
  beforeCode : List Op
  beforeProof : List Op

/-- The trail leads to the answer `req` at `now`, after the history `h`, and nothing between its
steps would have undone one. -/
structure AnswerTrail.Followed (secrets : GuestConfirmationSecrets) (cid : ConfirmationId)
    (now : Time) (req : AnswerGuestResponseRequest) (h : List Op) (t : AnswerTrail) : Prop where
  link : Since (fun op => ¬op.EndsLink secrets cid req.token)
    (.rotateLink t.issuedAt t.ownerId cid req.token) t.beforeLink t.beforeCode
  code : Since (fun op => ¬op.EndsLink secrets cid req.token ∧ ¬op.IssuesCode secrets cid ∧
      op ≠ .withdrawCode cid t.sent.2.2)
    (.requestCode t.sentAt t.sent.1 t.sent.2.1 t.verified.2.code t.sent.2.2 (.ok ()))
    t.beforeCode t.beforeProof
  proof : Since (fun op => ¬op.EndsLink secrets cid req.token ∧ ¬op.IssuesCode secrets cid)
    (.verifyCode t.verifiedAt t.verified.1 t.verified.2 req.proof true (.ok ())) t.beforeProof h
  sent_here : t.sent.1.id = cid ∧ t.sent.2.1.token = req.token
  verified_here : t.verified.1.id = cid ∧ t.verified.2.token = req.token
  sent_to : secrets.identity t.sent.2.1.email t.sent.2.1.nickname =
    secrets.identity req.email req.nickname
  verified_by : secrets.identity t.verified.2.email t.verified.2.nickname =
    secrets.identity req.email req.nickname
  link_lives : now < t.issuedAt + GUEST_LINK_TTL_MS
  code_lived : t.verifiedAt < t.sentAt + GUEST_CODE_TTL_MS
  proof_lives : now < t.verifiedAt + GUEST_PROOF_TTL_MS

/-! ## A guest who answers -/

def exampleLookup : TokenLookup := ⟨30, 20, some 7, 10, 1⟩

/-- The link with token 5 goes to the contact of `exampleWaiting`. -/
def exampleLinked : Db :=
  { exampleWaiting with
    confirmations := exampleWaiting.confirmations.modify 30 (linkEdit exampleSecrets 5 0) }

/-- The code 3 goes to the address that was given. -/
def exampleCoded : Db :=
  exampleLinked.editConfirmation 30 (codeEdit exampleSecrets ⟨5, "a", "b"⟩ 3 8 0)

/-- The code is exchanged for the proof 6. -/
def exampleVerified : Db :=
  exampleCoded.editConfirmation 30 (proofEdit exampleSecrets 6 0)

def exampleDenial : AnswerGuestResponseRequest := ⟨5, "a", "b", 6, .denied⟩

/-- The contact never got the book. -/
def exampleDenied : Db :=
  { exampleVerified with
    confirmations := exampleVerified.confirmations.modify 30 (resolveEdit .denied none)
    contacts := (exampleVerified.contacts.modify 7
      (guestIdentityEdit exampleSecrets exampleDenial (some 0)))
    events := exampleVerified.events ++ [⟨20, .guestLoanDenied, none, 0, none, .empty⟩]
    notifications := [⟨1, .guestLoanDenied, .guestResponse 20 10 30⟩] }

/-- From the request for a confirmation to the proof. -/
def exampleVisit : List Op :=
  [.verifyCode 0 exampleLookup ⟨5, "a", "b", 3⟩ 6 true (.ok ()),
    .requestCode 0 exampleLookup ⟨5, "a", "b"⟩ 3 8 (.ok ()), .findByToken 5 exampleLookup,
    .rotateLink 0 1 30 5, .createRequest 0 1 exampleLend 20 30]

theorem exampleLinked_run : (system exampleSecrets).Run
    [.rotateLink 0 1 30 5, .createRequest 0 1 exampleLend 20 30] ⟨exampleLinked, []⟩ := by
  have hstart : (system exampleSecrets).Run [] ⟨exampleDb, []⟩ := .start example_init
  have hlent : createRequest 0 1 exampleLend 20 30 exampleDb = .ok exampleWaiting := rfl
  have hlinked : rotateLink exampleSecrets 0 1 30 5 exampleWaiting = .ok exampleLinked := rfl
  have hwaiting : (system exampleSecrets).Run [.createRequest 0 1 exampleLend 20 30]
      ⟨exampleWaiting, []⟩ := hstart.next ⟨hlent, rfl⟩
  exact hwaiting.next ⟨hlinked, rfl⟩

theorem exampleVisit_run :
    (system exampleSecrets).Run exampleVisit ⟨exampleVerified, [(5, exampleLookup)]⟩ := by
  have hfound : findByToken exampleSecrets 5 exampleLinked = .ok exampleLookup := rfl
  have hread : (system exampleSecrets).step ⟨exampleLinked, []⟩ (.findByToken 5 exampleLookup)
      ⟨exampleLinked, [(5, exampleLookup)]⟩ := ⟨hfound, rfl, rfl⟩
  have hcode : requestCode exampleSecrets 0 exampleLookup ⟨5, "a", "b"⟩ 3 8 exampleLinked =
      (exampleCoded, .ok ()) := rfl
  have hcoded : (system exampleSecrets).step ⟨exampleLinked, [(5, exampleLookup)]⟩
      (.requestCode 0 exampleLookup ⟨5, "a", "b"⟩ 3 8 (.ok ()))
      ⟨exampleCoded, [(5, exampleLookup)]⟩ := ⟨hcode, List.mem_singleton.mpr rfl, rfl⟩
  have hguess : verifyCode exampleSecrets 0 exampleLookup ⟨5, "a", "b", 3⟩ 6 exampleCoded =
      (exampleVerified, .ok ()) := rfl
  have hcompared : true = guessCompared exampleSecrets 0 exampleLookup 5 exampleCoded := rfl
  have hverified : (system exampleSecrets).step ⟨exampleCoded, [(5, exampleLookup)]⟩
      (.verifyCode 0 exampleLookup ⟨5, "a", "b", 3⟩ 6 true (.ok ()))
      ⟨exampleVerified, [(5, exampleLookup)]⟩ :=
    ⟨hguess, hcompared, List.mem_singleton.mpr rfl, rfl⟩
  exact ((exampleLinked_run.next hread).next hcoded).next hverified

/-- A second link replaces the first. -/
def exampleRelinked : Db :=
  { exampleLinked with
    confirmations := exampleLinked.confirmations.modify 30 (linkEdit exampleSecrets 9 0) }

theorem exampleRelinked_run : (system exampleSecrets).Run
    ([.findByToken 9 exampleLookup] ++ .rotateLink 0 1 30 9 ::
      [.rotateLink 0 1 30 5, .createRequest 0 1 exampleLend 20 30])
    ⟨exampleRelinked, [(9, exampleLookup)]⟩ := by
  have hlinked : rotateLink exampleSecrets 0 1 30 9 exampleLinked = .ok exampleRelinked := rfl
  have hrelinked : (system exampleSecrets).step ⟨exampleLinked, []⟩ (.rotateLink 0 1 30 9)
      ⟨exampleRelinked, []⟩ := ⟨hlinked, rfl⟩
  have hfound : findByToken exampleSecrets 9 exampleRelinked = .ok exampleLookup := rfl
  exact (exampleLinked_run.next hrelinked).next ⟨hfound, rfl, rfl⟩

/-! ## The answer -/

/-- The steps of the link that a trail in its own history names. -/
theorem trail_of_proved {t₁ t₂ t₃ now : Time} {code : Code} {nonce : Nonce}
    {req : AnswerGuestResponseRequest}
    (hproved : Proved guestLimits t₁ t₂ t₃ req.token (secrets.identity req.email req.nickname) code
      nonce req.proof (guestEvents secrets cid h))
    (hlink : now < t₁ + GUEST_LINK_TTL_MS) (hproof : now < t₃ + GUEST_PROOF_TTL_MS) :
    ∃ t : AnswerTrail, t.Followed secrets cid now req h := by
  obtain ⟨hcode, v₂, hs₃, v₁, hs₂, v₀, hs₁⟩ := hproved
  obtain ⟨op₃, h₂, hop₃, rfl, hsince₃⟩ := hs₃.of_filterMap
  obtain ⟨op₂, h₁, hop₂, rfl, hsince₂⟩ := hs₂.of_filterMap
  obtain ⟨op₁, h₀, hop₁, rfl, hsince₁⟩ := hs₁.of_filterMap
  have hkeeps : ∀ op, (∀ e ∈ guestEvent secrets cid op, e.Keeps req.token) →
      ¬op.EndsLink secrets cid req.token := fun op hop ⟨e, he, hnot⟩ => hnot (hop e he)
  have hspares : ∀ op, (∀ e ∈ guestEvent secrets cid op, e.Spares req.token) →
      ¬op.EndsLink secrets cid req.token ∧ ¬op.IssuesCode secrets cid := by
    refine fun op hop => ⟨hkeeps op fun e he => (hop e he).keeps, fun ⟨e, he, hissue⟩ => ?_⟩
    have hspared := hop e he
    cases e with
    | issue => exact hspared
    | _ => exact hissue rfl
  generalize htrue : true = right at hop₃
  generalize htoken₁ : req.token = token₁ at hop₁
  generalize htoken₂ : req.token = token₂ at hop₂
  generalize htoken₃ : req.token = token₃ at hop₃
  generalize hwho₂ : secrets.identity req.email req.nickname = who₂ at hop₂
  generalize hwho₃ : secrets.identity req.email req.nickname = who₃ at hop₃
  cases guestEvent_eq_some.mp hop₁ with
  | @rotate _ ownerId _ =>
  cases guestEvent_eq_some.mp hop₂ with
  | @issue _ lookup₂ req₂ _ _ hid₂ =>
  cases guestEvent_eq_some.mp hop₃ with
  | @guess _ lookup₃ req₃ _ reply hid₃ =>
  cases reply with
  | error => cases htrue
  | ok =>
  subst htoken₁
  exact ⟨⟨t₁, t₂, t₃, ownerId, (lookup₂, req₂, nonce), (lookup₃, req₃), h₀, h₁, h₂⟩,
    { link := hsince₁.mono hkeeps
      code := hsince₂.mono fun op hop => by
        obtain ⟨hends, hissues⟩ := hspares op fun e he => (hop e he).1
        refine ⟨hends, hissues, ?_⟩
        rintro rfl
        exact (hop _ (guestEvent_eq_some.mpr .withdrawCode)).2 rfl
      proof := hsince₃.mono hspares
      sent_here := ⟨hid₂, htoken₂.symm⟩
      verified_here := ⟨hid₃, htoken₃.symm⟩
      sent_to := hwho₂.symm
      verified_by := hwho₃.symm
      link_lives := hlink
      code_lived := hcode
      proof_lives := hproof }⟩

/-- **Every accepted answer was earned**: its trail was followed, through the last link, the
last code of it and a proof for the same address and nickname, each in its time, and no answer
was accepted before. -/
theorem guest_answer_proven (hinj : secrets.Injective) {now : Time} {lookup : TokenLookup}
    {req : AnswerGuestResponseRequest}
    (hr : (system secrets).Run (.answer now lookup req (.ok ()) :: h) w) :
    (∃ t : AnswerTrail, t.Followed secrets lookup.id now req h) ∧
      ∀ now' lookup' req', .answer now' lookup' req' (.ok ()) ∈ h → lookup'.id ≠ lookup.id := by
  obtain ⟨s, -, hrun⟩ := guest_links hinj hr lookup.id
  have hevents : guestEvents secrets lookup.id (.answer now lookup req (.ok ()) :: h) =
      .accept now req.token (secrets.identity req.email req.nickname) req.proof ::
        guestEvents secrets lookup.id h :=
    List.filterMap_cons_some (guestEvent_eq_some.mpr (.accept rfl))
  rw [hevents] at hrun
  obtain ⟨⟨t₁, t₂, t₃, code, nonce, -, hproved, hlink, hproof⟩, hfirst, -⟩ := accepted hrun
  refine ⟨trail_of_proved hproved hlink hproof, fun now' lookup' req' hmem hid => ?_⟩
  exact hfirst _ _ _ _ (List.mem_filterMap.mpr ⟨_, hmem, guestEvent_eq_some.mpr (.accept hid)⟩)

theorem guest_answer_proven_denied :
    (∃ t : AnswerTrail, t.Followed exampleSecrets 30 0 exampleDenial exampleVisit) ∧
      ∀ now' lookup' req', .answer now' lookup' req' (.ok ()) ∈ exampleVisit →
        lookup'.id ≠ 30 := by
  have hanswer : applyAnswer exampleSecrets 0 exampleLookup exampleDenial exampleVerified =
      .ok (exampleDenied, .ok ()) := rfl
  have hrun : (system exampleSecrets).Run (.answer 0 exampleLookup exampleDenial (.ok ()) ::
      exampleVisit) ⟨exampleDenied, [(5, exampleLookup)]⟩ :=
    exampleVisit_run.next ⟨hanswer, List.mem_singleton.mpr rfl, rfl⟩
  exact guest_answer_proven exampleSecrets_injective hrun

/-! ## Old links -/

theorem rotated_guestEvent (secrets : GuestConfirmationSecrets) (cid : ConfirmationId) (op : Op) :
    (guestEvent secrets cid op).bind Event.rotated = op.linkToken cid := by
  refine Option.ext fun token => ⟨fun h => ?_, fun h => ?_⟩
  · obtain ⟨e, he, hrotated⟩ := Option.bind_eq_some_iff.mp h
    cases guestEvent_eq_some.mp he with
    | rotate =>
      cases hrotated
      exact if_pos rfl
    | _ => cases hrotated
  · cases op with
    | rotateLink now ownerId id token' =>
      obtain ⟨rfl, ⟨⟩⟩ := Option.ite_none_right_eq_some.mp h
      exact Option.bind_eq_some_iff.mpr ⟨_, guestEvent_eq_some.mpr .rotate, rfl⟩
    | _ => cases h

theorem filterMap_rotated (secrets : GuestConfirmationSecrets) (cid : ConfirmationId)
    (h : List Op) :
    (guestEvents secrets cid h).filterMap Event.rotated = h.filterMap (Op.linkToken cid) := by
  unfold guestEvents
  rw [List.filterMap_filterMap]
  exact List.filterMap_congr fun op _ => rotated_guestEvent secrets cid op

/-- **A link that was replaced, withdrawn, used or closed is of no use again**, when the tokens
that are drawn do not repeat. -/
theorem guest_links_replaced (hinj : secrets.Injective) {op x : Op} {after before : List Op}
    {token : Token} (hr : (system secrets).Run (op :: (after ++ x :: before)) w)
    (hfresh : ((after ++ x :: before).filterMap (Op.linkToken cid)).Nodup)
    (hends : x.EndsLink secrets cid token)
    (hold : token ∈ before.filterMap (Op.linkToken cid)) :
    ¬op.PresentsLink secrets cid token := by
  rintro ⟨e, he, hpresents⟩
  obtain ⟨f, hf, hnot⟩ := hends
  obtain ⟨s, -, hrun⟩ := guest_links hinj hr cid
  have hevents : guestEvents secrets cid (op :: (after ++ x :: before)) =
      e :: guestEvents secrets cid (after ++ x :: before) := List.filterMap_cons_some he
  have hsplit : guestEvents secrets cid (after ++ x :: before) =
      guestEvents secrets cid after ++ f :: guestEvents secrets cid before := by
    unfold guestEvents
    rw [List.filterMap_append, List.filterMap_cons_some hf]
  rw [hevents] at hrun
  obtain ⟨t₁, hhanded⟩ := handed_of_presents hrun hpresents
  rw [← filterMap_rotated secrets] at hfresh hold
  rw [hsplit] at hhanded hfresh
  exact hhanded.not_before hnot hfresh hold

theorem guest_links_replaced_relinked :
    ¬(Op.requestCode 0 exampleLookup ⟨9, "a", "b"⟩ 3 8 (.ok ())).PresentsLink exampleSecrets 30 5 :=
  have hcode : requestCode exampleSecrets 0 exampleLookup ⟨9, "a", "b"⟩ 3 8 exampleRelinked =
      (exampleRelinked.editConfirmation 30 (codeEdit exampleSecrets ⟨9, "a", "b"⟩ 3 8 0), .ok ()) :=
    rfl
  have hstep : (system exampleSecrets).step ⟨exampleRelinked, [(9, exampleLookup)]⟩
      (.requestCode 0 exampleLookup ⟨9, "a", "b"⟩ 3 8 (.ok ()))
      ⟨exampleRelinked.editConfirmation 30 (codeEdit exampleSecrets ⟨9, "a", "b"⟩ 3 8 0),
        [(9, exampleLookup)]⟩ := ⟨hcode, List.mem_singleton.mpr rfl, rfl⟩
  guest_links_replaced exampleSecrets_injective (exampleRelinked_run.next hstep) (by decide)
    ⟨.rotate 0 9, rfl, fun hkeeps => hkeeps⟩ (by decide)

/-! ## Guessing -/

/-- **How often the code of a link can be guessed**: five times for each code and ten times for
the link, whatever is sent, expires, fails or changes in between; five codes go out in each
window; and after ten wrong guesses the link serves nobody until it is replaced. -/
theorem guest_guesses_bounded (hinj : secrets.Injective) (hr : (system secrets).Run h w)
    (cid : ConfirmationId) :
    missCount (sinceCode (guestEvents secrets cid h)) ≤ GUEST_CODE_MAX_ATTEMPTS ∧
    missCount (sinceLink (guestEvents secrets cid h)) ≤ GUEST_CODE_MAX_FAILED_TOTAL ∧
    (∀ x ∈ windowOf guestLimits (guestEvents secrets cid h),
      x.2 ≤ GUEST_CODE_MAX_SENDS_PER_WINDOW) ∧
    (missCount (sinceLink (guestEvents secrets cid h)) = GUEST_CODE_MAX_FAILED_TOTAL →
      ∀ op w', w.Step secrets op w' →
        (∀ now lookup req code nonce, op = .requestCode now lookup req code nonce (.ok ()) →
          lookup.id ≠ cid) ∧
        ∀ now lookup req proof compared reply,
          op = .verifyCode now lookup req proof compared reply → lookup.id = cid →
          compared = false ∧ ∃ f, reply = .error f) := by
  obtain ⟨s, -, hrun⟩ := guest_links hinj hr cid
  have hpos : 0 < guestLimits.maxAttempts := by decide
  have htally := tallies hpos hrun
  refine ⟨htally.code_bound, htally.link_bound, htally.window_bound, fun hall op w' hs => ?_⟩
  have hnone : ∀ e, guestEvent secrets cid op = some e → e.issuedAt = none ∧
      ∀ now token who code proof right, e ≠ .guess now token who code proof right := by
    intro e he
    obtain ⟨s', -, hrun'⟩ := guest_links hinj (.next hr hs) cid
    have hevents : guestEvents secrets cid (op :: h) = e :: guestEvents secrets cid h :=
      List.filterMap_cons_some he
    rw [hevents] at hrun'
    exact exhausted hpos hrun' (Nat.le_of_eq hall.symm)
  constructor
  · rintro now lookup req code nonce rfl hid
    cases (hnone _ (guestEvent_eq_some.mpr (.issue hid))).1
  · rintro now lookup req proof compared reply rfl hid
    cases compared with
    | true => exact absurd rfl ((hnone _ (guestEvent_eq_some.mpr (.guess hid))).2 _ _ _ _ _ _)
    | false =>
      obtain ⟨hok, hcompared, -⟩ := hs
      rcases verifyCode_cases hok with ⟨-, -, hreply⟩ | ⟨row, live, -, htrue, -⟩
      · exact ⟨rfl, hreply⟩
      · rw [htrue] at hcompared
        cases hcompared

theorem guest_guesses_bounded_visit :
    missCount (sinceCode (guestEvents exampleSecrets 30 exampleVisit)) ≤ GUEST_CODE_MAX_ATTEMPTS :=
  (guest_guesses_bounded exampleSecrets_injective exampleVisit_run 30).1

end Bookswap
