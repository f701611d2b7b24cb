import Bookswap.Lib.Machine

/-!
# Links that ask for a code

A link is handed out as a secret token. Whoever holds the token may have a code sent to an
address, exchange the code for a proof, and use the proof once. Codes, proofs and links
expire, wrong guesses are counted for the code and for the link, and codes are counted in
windows of a fixed length. A new link replaces the old one with all that hangs on it.

- `Since`: what came last in a history, and what did not come after it.
- `State.next`: the link as a machine over its events, `machine`.
- `origins`: **a link, a code and a proof are what the last events made them**.
- `accepted`: what had to happen before the proof is used, and in which order.
-/

universe u

/-- The newest event of the history that is not quiet is `e`, and `before` came before it. -/
inductive Since {ε : Type u} (quiet : ε → Prop) (e : ε) (before : List ε) : List ε → Prop
  | here : Since quiet e before (e :: before)
  | later {x : ε} {h : List ε} : quiet x → Since quiet e before h → Since quiet e before (x :: h)

namespace Since

variable {ε : Type u} {quiet quiet' : ε → Prop} {e : ε} {before h : List ε}

theorem eq_append (hs : Since quiet e before h) :
    ∃ after, h = after ++ e :: before ∧ ∀ x ∈ after, quiet x := by
  induction hs with
  | here => exact ⟨[], rfl, fun _ hx => nomatch hx⟩
  | @later x h hx _ ih =>
    obtain ⟨after, rfl, hquiet⟩ := ih
    refine ⟨x :: after, rfl, fun y hy => ?_⟩
    rcases List.mem_cons.mp hy with rfl | hy
    · exact hx
    · exact hquiet y hy

theorem mono (hs : Since quiet e before h) (himp : ∀ x, quiet x → quiet' x) :
    Since quiet' e before h := by
  induction hs with
  | here => exact .here
  | later hx _ ih => exact .later (himp _ hx) ih

theorem mem (hs : Since quiet e before h) : e ∈ h := by
  obtain ⟨after, rfl, -⟩ := hs.eq_append
  exact List.mem_append_right _ List.mem_cons_self

/-- What came last in a view of the history came last in the history. -/
theorem of_filterMap {ι : Type u} {f : ι → Option ε} {h : List ι}
    (hs : Since quiet e before (h.filterMap f)) :
    ∃ i h', f i = some e ∧ h'.filterMap f = before ∧ Since (fun i => ∀ x ∈ f i, quiet x) i h' h := by
  generalize hview : h.filterMap f = view at hs
  induction h generalizing view with
  | nil =>
    rw [List.filterMap_nil] at hview
    rw [← hview] at hs
    cases hs
  | cons i h ih =>
    cases hi : f i with
    | none =>
      rw [List.filterMap_cons_none hi] at hview
      obtain ⟨j, h', hj, hbefore, hsince⟩ := ih view hview hs
      exact ⟨j, h', hj, hbefore, hsince.later fun x hx => by rw [hi] at hx; cases hx⟩
    | some y =>
      rw [List.filterMap_cons_some hi] at hview
      subst hview
      cases hs with
      | here => exact ⟨i, h, hi, rfl, .here⟩
      | later hy hs =>
        obtain ⟨j, h', hj, hbefore, hsince⟩ := ih _ rfl hs
        refine ⟨j, h', hj, hbefore, hsince.later fun x hx => ?_⟩
        rw [hi] at hx
        cases hx
        exact hy

end Since

namespace GuardedLink

/-- How long things live, and how often they may be tried. -/
structure Limits where
  linkTtl : Int
  codeTtl : Int
  proofTtl : Int
  window : Int
  maxAttempts : Nat
  maxFailed : Nat
  maxSends : Nat

section

variable (Token Who Code Nonce : Type)

/-- What happens to a link. The secrets that are drawn, and the clock, are arguments. -/
inductive Event
  | rotate (now : Int) (token : Token)
  /-- The link of `token` never reached anybody. -/
  | withdrawLink (token : Token)
  | issue (now : Int) (token : Token) (who : Who) (code : Code) (nonce : Nonce)
  /-- The code of `nonce` never reached anybody. -/
  | withdrawCode (nonce : Nonce)
  | guess (now : Int) (token : Token) (who : Who) (code : Code) (proof : Token) (right : Bool)
  | accept (now : Int) (token : Token) (who : Who) (proof : Token)
  | close

/-- What hangs on a link. -/
inductive Challenge
  | idle
  | sent (who : Who) (code : Code) (nonce : Nonce) (expiresAt : Int) (attempts : Nat)
  | proven (who : Who) (proof : Token) (expiresAt : Int)

/-- A link with its counters. -/
structure Link where
  token : Token
  expiresAt : Int
  failed : Nat
  sent : Nat
  windowStart : Option Int
  challenge : Challenge Token Who Code Nonce

inductive State
  | idle
  | linked (link : Link Token Who Code Nonce)
  | closed

end

variable {Token Who Code Nonce : Type} {L : Limits}

/-! ## The machine -/

namespace Link

/-- Is the window of the link still running? -/
def windowOpen (L : Limits) (l : Link Token Who Code Nonce) (now : Int) : Bool :=
  l.windowStart.any fun started => now - started < L.window

/-- The codes sent in the running window. -/
def sentInWindow (L : Limits) (l : Link Token Who Code Nonce) (now : Int) : Nat :=
  if l.windowOpen L now then l.sent else 0

/-- The link with a new code. -/
def issued (L : Limits) (l : Link Token Who Code Nonce) (now : Int) (who : Who) (code : Code)
    (nonce : Nonce) : Link Token Who Code Nonce :=
  { l with
    sent := l.sentInWindow L now + 1
    windowStart := if l.windowOpen L now then l.windowStart else some now
    challenge := .sent who code nonce (now + L.codeTtl) 0 }

/-- The challenge after a wrong guess. -/
def missed (L : Limits) : Challenge Token Who Code Nonce → Challenge Token Who Code Nonce
  | .sent who code nonce expiresAt attempts =>
    if attempts + 1 ≥ L.maxAttempts then .idle
    else .sent who code nonce expiresAt (attempts + 1)
  | challenge => challenge

theorem missed_sent {who : Who} {code : Code} {nonce : Nonce} {expiresAt : Int} {n : Nat} :
    missed L (.sent who code nonce expiresAt n : Challenge Token Who Code Nonce) =
      if n + 1 ≥ L.maxAttempts then .idle else .sent who code nonce expiresAt (n + 1) := rfl

end Link

section

variable [DecidableEq Token] [DecidableEq Who] [DecidableEq Code] [DecidableEq Nonce]

/-- The challenge when the code of `nonce` is withdrawn. -/
def Challenge.withdraw (nonce : Nonce) :
    Challenge Token Who Code Nonce → Challenge Token Who Code Nonce
  | .sent who code nonce' expiresAt attempts =>
    if nonce' = nonce then .idle else .sent who code nonce' expiresAt attempts
  | challenge => challenge

omit [DecidableEq Token] [DecidableEq Who] [DecidableEq Code] in
theorem Challenge.withdraw_sent {who : Who} {code : Code} {nonce nonce' : Nonce} {expiresAt : Int}
    {n : Nat} :
    (.sent who code nonce' expiresAt n : Challenge Token Who Code Nonce).withdraw nonce =
      if nonce' = nonce then .idle else .sent who code nonce' expiresAt n := rfl

namespace Link

/-- The link after a guess, when there is a code to compare it with. -/
def guessed (L : Limits) (l : Link Token Who Code Nonce) (now : Int) (who : Who) (code : Code)
    (proof : Token) (right : Bool) : Option (Link Token Who Code Nonce) :=
  match l.challenge with
  | .sent who' code' _ expiresAt _ =>
    if l.failed < L.maxFailed ∧ now < expiresAt ∧ right = decide (who = who' ∧ code = code') then
      if right then some { l with challenge := .proven who proof (now + L.proofTtl) }
      else some { l with failed := l.failed + 1, challenge := missed L l.challenge }
    else none
  | _ => none

/-- Is this the proof that was handed out, and does it still count? -/
def Accepts (l : Link Token Who Code Nonce) (now : Int) (who : Who) (proof : Token) : Prop :=
  match l.challenge with
  | .proven who' proof' expiresAt => who = who' ∧ proof = proof' ∧ now < expiresAt
  | _ => False

instance (l : Link Token Who Code Nonce) (now : Int) (who : Who) (proof : Token) :
    Decidable (l.Accepts now who proof) := by
  unfold Accepts
  split
  · exact inferInstance
  · exact inferInstanceAs (Decidable False)

/-- The link is presented with its token and in time. -/
def Presented (l : Link Token Who Code Nonce) (now : Int) (token : Token) : Prop :=
  l.token = token ∧ now < l.expiresAt

instance (l : Link Token Who Code Nonce) (now : Int) (token : Token) :
    Decidable (l.Presented now token) := inferInstanceAs (Decidable (_ ∧ _))

end Link

/-- The state after the event, when the event is possible. -/
def State.next (L : Limits) (s : State Token Who Code Nonce) :
    Event Token Who Code Nonce → Option (State Token Who Code Nonce)
  | .rotate now token =>
    match s with
    | .closed => none
    | _ => some (.linked ⟨token, now + L.linkTtl, 0, 0, none, .idle⟩)
  | .withdrawLink token =>
    match s with
    | .linked l => some (if l.token = token then .idle else .linked l)
    | s => some s
  | .issue now token who code nonce =>
    match s with
    | .linked l =>
      if l.Presented now token ∧ l.failed < L.maxFailed ∧ l.sentInWindow L now < L.maxSends then
        some (.linked (l.issued L now who code nonce))
      else none
    | _ => none
  | .withdrawCode nonce =>
    match s with
    | .linked l => some (.linked { l with challenge := l.challenge.withdraw nonce })
    | s => some s
  | .guess now token who code proof right =>
    match s with
    | .linked l =>
      if l.Presented now token then (l.guessed L now who code proof right).map .linked else none
    | _ => none
  | .accept now token who proof =>
    match s with
    | .linked l => if l.Presented now token ∧ l.Accepts now who proof then some .closed else none
    | _ => none
  | .close => some .closed

/-- The link as a machine: it begins without one. -/
def machine (L : Limits) : Machine (State Token Who Code Nonce) (Event Token Who Code Nonce) where
  init s := s = .idle
  step s e s' := s.next L e = some s'

end

/-! ## What an event does -/

/-- The kinds of steps. -/
inductive Moves (L : Limits) :
    State Token Who Code Nonce → Event Token Who Code Nonce → State Token Who Code Nonce → Prop
  | rotate {s : State Token Who Code Nonce} {now : Int} {token : Token} : s ≠ .closed →
    Moves L s (.rotate now token) (.linked ⟨token, now + L.linkTtl, 0, 0, none, .idle⟩)
  | linkWithdrawn {l : Link Token Who Code Nonce} :
    Moves L (.linked l) (.withdrawLink l.token) .idle
  | linkKept {s : State Token Who Code Nonce} {token : Token} :
    (∀ l, s = .linked l → token ≠ l.token) → Moves L s (.withdrawLink token) s
  | issue {l : Link Token Who Code Nonce} {now : Int} {who : Who} {code : Code} {nonce : Nonce} :
    now < l.expiresAt → l.failed < L.maxFailed → l.sentInWindow L now < L.maxSends →
    Moves L (.linked l) (.issue now l.token who code nonce) (.linked (l.issued L now who code nonce))
  | codeWithdrawn {l : Link Token Who Code Nonce} {nonce : Nonce} :
    Moves L (.linked l) (.withdrawCode nonce) (.linked { l with challenge := .idle })
  | codeKept {s : State Token Who Code Nonce} {nonce : Nonce} :
    (∀ l who code expiresAt n, s = .linked l → l.challenge ≠ .sent who code nonce expiresAt n) →
    Moves L s (.withdrawCode nonce) s
  | right {l : Link Token Who Code Nonce} {now expiresAt : Int} {who : Who} {code : Code}
    {nonce : Nonce} {n : Nat} {proof : Token} : now < l.expiresAt →
    l.challenge = .sent who code nonce expiresAt n → l.failed < L.maxFailed → now < expiresAt →
    Moves L (.linked l) (.guess now l.token who code proof true)
      (.linked { l with challenge := .proven who proof (now + L.proofTtl) })
  | wrong {l : Link Token Who Code Nonce} {now expiresAt : Int} {who who' : Who}
    {code code' : Code} {nonce : Nonce} {n : Nat} {proof : Token} : now < l.expiresAt →
    l.challenge = .sent who code nonce expiresAt n → l.failed < L.maxFailed → now < expiresAt →
    Moves L (.linked l) (.guess now l.token who' code' proof false)
      (.linked { l with failed := l.failed + 1, challenge := Link.missed L l.challenge })
  | accept {l : Link Token Who Code Nonce} {now expiresAt : Int} {who : Who} {proof : Token} :
    now < l.expiresAt → l.challenge = .proven who proof expiresAt → now < expiresAt →
    Moves L (.linked l) (.accept now l.token who proof) .closed
  | close {s : State Token Who Code Nonce} : Moves L s .close .closed

theorem Link.accepts_iff {l : Link Token Who Code Nonce} {now : Int} {who : Who} {proof : Token} :
    l.Accepts now who proof ↔
      ∃ expiresAt, l.challenge = .proven who proof expiresAt ∧ now < expiresAt := by
  unfold Accepts
  cases l.challenge with
  | proven who' proof' expiresAt =>
    constructor
    · rintro ⟨rfl, rfl, hlt⟩
      exact ⟨_, rfl, hlt⟩
    · rintro ⟨_, heq, hlt⟩
      cases heq
      exact ⟨rfl, rfl, hlt⟩
  | _ =>
    constructor
    · exact False.elim
    · rintro ⟨_, heq, -⟩
      cases heq

theorem Link.moves_of_guessed [DecidableEq Who] [DecidableEq Code]
    {l l' : Link Token Who Code Nonce} {now : Int} {who : Who} {code : Code} {proof : Token}
    {right : Bool} (hnow : now < l.expiresAt)
    (h : l.guessed L now who code proof right = some l') :
    Moves L (.linked l) (.guess now l.token who code proof right) (.linked l') := by
  unfold guessed at h
  split at h
  · next who' code' nonce expiresAt n hsent =>
    split at h
    · next hguess =>
      obtain ⟨hfailed, hlt, hright⟩ := hguess
      cases right with
      | true =>
        obtain ⟨rfl, rfl⟩ := of_decide_eq_true hright.symm
        cases h
        exact .right hnow hsent hfailed hlt
      | false =>
        cases h
        exact .wrong hnow hsent hfailed hlt
    · cases h
  · cases h

section

variable [DecidableEq Token] [DecidableEq Who] [DecidableEq Code] [DecidableEq Nonce]

/-- **Every event is one of the kinds of steps.** -/
theorem moves_of_next {s s' : State Token Who Code Nonce} {e : Event Token Who Code Nonce}
    (h : s.next L e = some s') : Moves L s e s' := by
  cases e with
  | rotate now token =>
    cases s with
    | closed => cases h
    | _ =>
      cases h
      exact .rotate fun heq => nomatch heq
  | withdrawLink token =>
    cases s with
    | linked l =>
      simp only [State.next, Option.some.injEq] at h
      split at h
      · next heq =>
        subst h heq
        exact .linkWithdrawn
      · next hne =>
        subst h
        refine .linkKept fun l' heq => ?_
        cases heq
        exact Ne.symm hne
    | _ =>
      cases h
      exact .linkKept fun l heq => nomatch heq
  | issue now token who code nonce =>
    cases s with
    | linked l =>
      simp only [State.next] at h
      split at h
      · next hissue =>
        obtain ⟨⟨rfl, hlt⟩, hfailed, hsent⟩ := hissue
        cases h
        exact .issue hlt hfailed hsent
      · cases h
    | _ => cases h
  | withdrawCode nonce =>
    cases s with
    | linked l =>
      obtain ⟨token, expiresAt, failed, sent, start, challenge⟩ := l
      cases challenge with
      | sent who code nonce' expiry n =>
        simp only [State.next, Option.some.injEq, Challenge.withdraw] at h
        split at h
        · subst h
          exact .codeWithdrawn
        · next hne =>
          subst h
          refine .codeKept fun l who' code' expiry' n' heq hsent => hne ?_
          cases heq
          cases hsent
          rfl
      | _ =>
        cases h
        refine .codeKept fun l who' code' expiry' n' heq hsent => ?_
        cases heq
        cases hsent
    | _ =>
      cases h
      exact .codeKept fun l _ _ _ _ heq => nomatch heq
  | guess now token who code proof right =>
    cases s with
    | linked l =>
      simp only [State.next] at h
      split at h
      · next hpresented =>
        obtain ⟨rfl, hlt⟩ := hpresented
        obtain ⟨l', hguess, rfl⟩ := Option.map_eq_some_iff.mp h
        exact Link.moves_of_guessed hlt hguess
      · cases h
    | _ => cases h
  | accept now token who proof =>
    cases s with
    | linked l =>
      simp only [State.next] at h
      split at h
      · next haccept =>
        obtain ⟨⟨rfl, hlt⟩, hproof⟩ := haccept
        obtain ⟨expiresAt, hproven, hlive⟩ := Link.accepts_iff.mp hproof
        cases h
        exact .accept hlt hproven hlive
      · cases h
    | _ => cases h
  | close =>
    cases h
    exact .close

end

/-! ## Where a link, a code and a proof come from -/

namespace Event

/-- The link of `token` outlives the event. -/
def Keeps (token : Token) : Event Token Who Code Nonce → Prop
  | .rotate _ _ | .accept .. | .close => False
  | .withdrawLink token' => token' ≠ token
  | _ => True

/-- The link and the newest code outlive the event. -/
def Spares (token : Token) : Event Token Who Code Nonce → Prop
  | .issue .. => False
  | e => e.Keeps token

theorem Spares.keeps {token : Token} {e : Event Token Who Code Nonce} (h : e.Spares token) :
    e.Keeps token := by
  cases e with
  | issue => exact h.elim
  | _ => exact h

end Event

variable {h : List (Event Token Who Code Nonce)} {s s' : State Token Who Code Nonce}
  {e : Event Token Who Code Nonce}

/-- The link of `token` was handed out at `t₁` and is still the one. -/
def Handed (t₁ : Int) (token : Token) (h : List (Event Token Who Code Nonce)) : Prop :=
  ∃ h₀, Since (Event.Keeps token) (.rotate t₁ token) h₀ h

/-- The newest code of the link was sent to `who` at `t₂`, and was not withdrawn. -/
def Coded (t₁ t₂ : Int) (token : Token) (who : Who) (code : Code) (nonce : Nonce)
    (h : List (Event Token Who Code Nonce)) : Prop :=
  ∃ h₁, Since (fun e => e.Spares token ∧ e ≠ .withdrawCode nonce)
    (.issue t₂ token who code nonce) h₁ h ∧ Handed t₁ token h₁

/-- At `t₃` the newest code of the link was exchanged for the proof. -/
def Proved (L : Limits) (t₁ t₂ t₃ : Int) (token : Token) (who : Who) (code : Code) (nonce : Nonce)
    (proof : Token) (h : List (Event Token Who Code Nonce)) : Prop :=
  t₃ < t₂ + L.codeTtl ∧ ∃ h₂, Since (Event.Spares token) (.guess t₃ token who code proof true) h₂ h ∧
    Coded t₁ t₂ token who code nonce h₂

theorem Handed.later {t₁ : Int} {token : Token} (hh : Handed t₁ token h) (he : e.Keeps token) :
    Handed t₁ token (e :: h) := by
  obtain ⟨h₀, hs⟩ := hh
  exact ⟨h₀, hs.later he⟩

theorem Coded.later {t₁ t₂ : Int} {token : Token} {who : Who} {code : Code} {nonce : Nonce}
    (hc : Coded t₁ t₂ token who code nonce h) (he : e.Spares token) (hn : e ≠ .withdrawCode nonce) :
    Coded t₁ t₂ token who code nonce (e :: h) := by
  obtain ⟨h₁, hs, hh⟩ := hc
  exact ⟨h₁, hs.later ⟨he, hn⟩, hh⟩

theorem Proved.later {t₁ t₂ t₃ : Int} {token proof : Token} {who : Who} {code : Code}
    {nonce : Nonce} (hp : Proved L t₁ t₂ t₃ token who code nonce proof h) (he : e.Spares token) :
    Proved L t₁ t₂ t₃ token who code nonce proof (e :: h) := by
  obtain ⟨hlt, h₂, hs, hc⟩ := hp
  exact ⟨hlt, h₂, hs.later he, hc⟩

/-- What hangs on the link handed out at `t₁` came from its history. -/
def Challenge.Origin (L : Limits) (t₁ : Int) (token : Token)
    (h : List (Event Token Who Code Nonce)) : Challenge Token Who Code Nonce → Prop
  | .idle => True
  | .sent who code nonce expiresAt _ =>
    ∃ t₂, expiresAt = t₂ + L.codeTtl ∧ Coded t₁ t₂ token who code nonce h
  | .proven who proof expiresAt => ∃ t₂ t₃ code nonce, expiresAt = t₃ + L.proofTtl ∧
    Proved L t₁ t₂ t₃ token who code nonce proof h

/-- The link and what hangs on it came from the history. -/
structure Link.Origin (L : Limits) (h : List (Event Token Who Code Nonce))
    (l : Link Token Who Code Nonce) (t₁ : Int) : Prop where
  expiresAt : l.expiresAt = t₁ + L.linkTtl
  handed : Handed t₁ l.token h
  challenge : l.challenge.Origin L t₁ l.token h

/-- The state came from the history; a link that was used is closed. -/
structure State.Origin (L : Limits) (h : List (Event Token Who Code Nonce))
    (s : State Token Who Code Nonce) : Prop where
  link : ∀ l, s = .linked l → ∃ t₁, l.Origin L h t₁
  used : ∀ now token who proof, .accept now token who proof ∈ h → s = .closed

theorem Challenge.Origin.later {t₁ : Int} {token : Token} {c : Challenge Token Who Code Nonce}
    (ho : c.Origin L t₁ token h) (he : e.Spares token)
    (hn : ∀ who code nonce expiresAt n, c = .sent who code nonce expiresAt n →
      e ≠ .withdrawCode nonce) :
    c.Origin L t₁ token (e :: h) := by
  cases c with
  | idle => trivial
  | sent who code nonce expiresAt n =>
    obtain ⟨t₂, hexp, hc⟩ := ho
    exact ⟨t₂, hexp, hc.later he (hn _ _ _ _ _ rfl)⟩
  | proven who proof expiresAt =>
    obtain ⟨t₂, t₃, code, nonce, hexp, hp⟩ := ho
    exact ⟨t₂, t₃, code, nonce, hexp, hp.later he⟩

/-- A challenge that is left as it is, or goes. -/
theorem Link.Origin.later {l : Link Token Who Code Nonce} {t₁ : Int} (ho : l.Origin L h t₁)
    (he : e.Spares l.token)
    (hn : ∀ who code nonce expiresAt n, l.challenge = .sent who code nonce expiresAt n →
      e ≠ .withdrawCode nonce) :
    l.Origin L (e :: h) t₁ :=
  ⟨ho.expiresAt, ho.handed.later he.keeps, ho.challenge.later he hn⟩

theorem missed_origin {t₁ : Int} {token : Token} {c : Challenge Token Who Code Nonce}
    (ho : c.Origin L t₁ token h) : (Link.missed L c).Origin L t₁ token h := by
  unfold Link.missed
  split
  · split
    · trivial
    · exact ho
  · exact ho

/-- **One step keeps the origin of the state.** -/
theorem State.Origin.step (ho : s.Origin L h) (hs : Moves L s e s') : s'.Origin L (e :: h) := by
  have hused : ∀ {now token who proof}, Event.accept now token who proof ∈ e :: h →
      (∀ now token who proof, e ≠ .accept now token who proof) → s = .closed := by
    intro now token who proof hmem hne
    rcases List.mem_cons.mp hmem with heq | hmem
    · exact absurd heq.symm (hne _ _ _ _)
    · exact ho.used _ _ _ _ hmem
  cases hs with
  | @rotate _ now token hopen =>
    refine ⟨fun l heq => ?_, fun _ _ _ _ hmem => ?_⟩
    · cases heq
      exact ⟨now, rfl, ⟨h, .here⟩, trivial⟩
    · exact absurd (hused hmem fun _ _ _ _ heq => nomatch heq) hopen
  | linkWithdrawn =>
    refine ⟨fun l heq => (nomatch heq), fun _ _ _ _ hmem => ?_⟩
    cases hused hmem fun _ _ _ _ heq => nomatch heq
  | @linkKept _ token hne =>
    refine ⟨fun l heq => ?_, fun _ _ _ _ hmem => hused hmem fun _ _ _ _ heq => nomatch heq⟩
    obtain ⟨t₁, hl⟩ := ho.link l heq
    exact ⟨t₁, hl.later (hne l heq) fun _ _ _ _ _ _ heq => nomatch heq⟩
  | @issue l now who code nonce =>
    refine ⟨fun l' heq => ?_, fun _ _ _ _ hmem => ?_⟩
    · cases heq
      obtain ⟨t₁, hl⟩ := ho.link l rfl
      exact ⟨t₁, hl.expiresAt, hl.handed.later trivial, now, rfl, h, .here, hl.handed⟩
    · cases hused hmem fun _ _ _ _ heq => nomatch heq
  | @codeWithdrawn l nonce =>
    refine ⟨fun l' heq => ?_, fun _ _ _ _ hmem => ?_⟩
    · cases heq
      obtain ⟨t₁, hl⟩ := ho.link l rfl
      exact ⟨t₁, hl.expiresAt, hl.handed.later trivial, trivial⟩
    · cases hused hmem fun _ _ _ _ heq => nomatch heq
  | @codeKept _ nonce hne =>
    refine ⟨fun l heq => ?_, fun _ _ _ _ hmem => hused hmem fun _ _ _ _ heq => nomatch heq⟩
    obtain ⟨t₁, hl⟩ := ho.link l heq
    refine ⟨t₁, hl.later trivial fun who code nonce' expiresAt n hsent hnonce => ?_⟩
    cases hnonce
    exact hne l who code expiresAt n heq hsent
  | @right l now expiresAt who code nonce n proof _ hsent _ hlt =>
    refine ⟨fun l' heq => ?_, fun _ _ _ _ hmem => ?_⟩
    · cases heq
      obtain ⟨t₁, hl⟩ := ho.link l rfl
      have hcode := hl.challenge
      rw [hsent] at hcode
      obtain ⟨t₂, rfl, hcoded⟩ := hcode
      exact ⟨t₁, hl.expiresAt, hl.handed.later trivial, t₂, now, code, nonce, rfl, hlt, h, .here,
        hcoded⟩
    · cases hused hmem fun _ _ _ _ heq => nomatch heq
  | @wrong l now expiresAt who who' code code' nonce n proof =>
    refine ⟨fun l' heq => ?_, fun _ _ _ _ hmem => ?_⟩
    · cases heq
      obtain ⟨t₁, hl⟩ := ho.link l rfl
      have hlater : l.Origin L (.guess now l.token who' code' proof false :: h) t₁ :=
        hl.later trivial fun _ _ _ _ _ _ heq => nomatch heq
      exact ⟨t₁, hlater.expiresAt, hlater.handed, missed_origin hlater.challenge⟩
    · cases hused hmem fun _ _ _ _ heq => nomatch heq
  | accept => exact ⟨fun l heq => (nomatch heq), fun _ _ _ _ _ => rfl⟩
  | close => exact ⟨fun l heq => (nomatch heq), fun _ _ _ _ _ => rfl⟩

namespace Event

/-- The token with which the event presents a link. -/
def Presents (token : Token) : Event Token Who Code Nonce → Prop
  | .issue _ token' .. | .guess _ token' .. | .accept _ token' .. => token' = token
  | _ => False

/-- The token that is handed out. -/
def rotated : Event Token Who Code Nonce → Option Token
  | .rotate _ token => some token
  | _ => none

end Event

/-- When tokens do not repeat, the last link is none of those handed out before its end. -/
theorem Handed.not_before {t₁ : Int} {token : Token} {x : Event Token Who Code Nonce}
    {after before : List (Event Token Who Code Nonce)} (hh : Handed t₁ token (after ++ x :: before))
    (hx : ¬x.Keeps token) (hfresh : ((after ++ x :: before).filterMap Event.rotated).Nodup) :
    token ∉ before.filterMap Event.rotated := by
  obtain ⟨h₀, hs⟩ := hh
  generalize hview : after ++ x :: before = view at hs hfresh
  induction hs generalizing after with
  | here =>
    rw [List.filterMap_cons_some (by rfl)] at hfresh
    have hnot := (List.nodup_cons.mp hfresh).1
    cases after with
    | nil =>
      cases hview
      exact hnot
    | cons y after =>
      cases hview
      intro hmem
      obtain ⟨e, he, heq⟩ := List.mem_filterMap.mp hmem
      refine hnot (List.mem_filterMap.mpr ⟨e, ?_, heq⟩)
      exact List.mem_append_right _ (List.mem_cons_of_mem _ he)
  | @later y h hy _ ih =>
    cases after with
    | nil =>
      cases hview
      exact absurd hy hx
    | cons y after =>
      cases hview
      refine ih rfl (hfresh.sublist ?_)
      exact (List.sublist_cons_self _ _).filterMap _

section

variable [DecidableEq Token] [DecidableEq Who] [DecidableEq Code] [DecidableEq Nonce]

/-- **Links, codes and proofs are what the last events made them.** -/
theorem origins (hr : (machine L).Run h s) : s.Origin L h := by
  refine hr.invariant (I := fun h s => State.Origin L h s) ?_ ?_
  · rintro s rfl
    exact ⟨fun l heq => (nomatch heq), fun _ _ _ _ hmem => nomatch hmem⟩
  · exact fun h s e s' _ ho hs => ho.step (moves_of_next hs)

/-- A link is presented with the token that was handed out last. -/
theorem handed_of_presents {token : Token} (hr : (machine L).Run (e :: h) s)
    (he : e.Presents token) : ∃ t₁, Handed t₁ token h := by
  obtain ⟨s₀, hr₀, hs⟩ := hr.last
  have ho := origins hr₀
  have hlink : ∀ l, s₀ = .linked l → l.token = token → ∃ t₁, Handed t₁ token h := by
    rintro l hl rfl
    obtain ⟨t₁, hlo⟩ := ho.link l hl
    exact ⟨t₁, hlo.handed⟩
  cases moves_of_next hs with
  | issue => exact hlink _ rfl he
  | right => exact hlink _ rfl he
  | wrong => exact hlink _ rfl he
  | accept => exact hlink _ rfl he
  | _ => exact he.elim

/-- **What had to happen before the proof is used**: the link is the last one and lives, the
proof was given for the last code of the link, sent to the same address, and the link was not
used before. -/
theorem accepted {now : Int} {token proof : Token} {who : Who}
    (hr : (machine L).Run (.accept now token who proof :: h) s) :
    (∃ t₁ t₂ t₃ code nonce, Handed t₁ token h ∧ Proved L t₁ t₂ t₃ token who code nonce proof h ∧
      now < t₁ + L.linkTtl ∧ now < t₃ + L.proofTtl) ∧
    (∀ now token who proof, .accept now token who proof ∉ h) ∧ s = .closed := by
  obtain ⟨s₀, hr₀, hs⟩ := hr.last
  have ho := origins hr₀
  cases moves_of_next hs with
  | @accept l now expiresAt who proof hlink hproven hlt =>
    obtain ⟨t₁, hl⟩ := ho.link l rfl
    have hproof := hl.challenge
    rw [hproven] at hproof
    obtain ⟨t₂, t₃, code, nonce, rfl, hproved⟩ := hproof
    refine ⟨⟨t₁, t₂, t₃, code, nonce, hl.handed, hproved, hl.expiresAt ▸ hlink, hlt⟩, ?_, rfl⟩
    intro now token who proof hmem
    cases ho.used _ _ _ _ hmem

end

end GuardedLink
