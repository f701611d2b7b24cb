import Bookswap.Lib.GuardedLink

/-!
# How often a link may be tried

The counters of a guarded link are the counts of its history since the link was handed out,
and so they bound that history.

- `sinceLink`, `sinceCode`, `windowOf`: the parts of a history that are counted.
- `Tally`, `tallies`: **the counts of a history never pass the limits**.
- `exhausted`: after too many wrong guesses only a new link helps.
-/

namespace GuardedLink

variable {Token Who Code Nonce : Type} {L : Limits} {h : List (Event Token Who Code Nonce)}
  {s s' : State Token Who Code Nonce} {e : Event Token Who Code Nonce}

/-! ## Counting -/

namespace Event

/-- The link is replaced. -/
def isRotation : Event Token Who Code Nonce → Bool
  | .rotate .. => true
  | _ => false

/-- When a code was issued. -/
def issuedAt : Event Token Who Code Nonce → Option Int
  | .issue now .. => some now
  | _ => none

/-- A guess is compared, and is wrong. -/
def isMiss : Event Token Who Code Nonce → Bool
  | .guess _ _ _ _ _ right => !right
  | _ => false

end Event

/-- What happened since the link was handed out. -/
def sinceLink (h : List (Event Token Who Code Nonce)) : List (Event Token Who Code Nonce) :=
  h.takeWhile fun e => !e.isRotation

/-- What happened since the newest code was issued. -/
def sinceCode (h : List (Event Token Who Code Nonce)) : List (Event Token Who Code Nonce) :=
  h.takeWhile fun e => e.issuedAt.isNone

/-- The wrong guesses among the events. -/
def missCount (h : List (Event Token Who Code Nonce)) : Nat := h.countP Event.isMiss

/-- The windows of a link, each from the first code after the one before it has passed: the
start of the newest window and the codes in it. The codes come newest first. -/
def lastWindow (W : Int) : List Int → Option (Int × Nat)
  | [] => none
  | now :: earlier =>
    match lastWindow W earlier with
    | some (started, n) => if now - started < W then some (started, n + 1) else some (now, 1)
    | none => some (now, 1)

/-- The newest window of the link that was handed out last. -/
def windowOf (L : Limits) (h : List (Event Token Who Code Nonce)) : Option (Int × Nat) :=
  lastWindow L.window ((sinceLink h).filterMap Event.issuedAt)

theorem missCount_cons : missCount (e :: h) = missCount h + if e.isMiss then 1 else 0 :=
  List.countP_cons

theorem sinceLink_cons (he : e.isRotation = false) : sinceLink (e :: h) = e :: sinceLink h := by
  unfold sinceLink
  rw [List.takeWhile_cons, he]
  rfl

theorem sinceCode_cons (he : e.issuedAt = none) : sinceCode (e :: h) = e :: sinceCode h := by
  unfold sinceCode
  rw [List.takeWhile_cons, he]
  rfl

theorem windowOf_cons (he : e.isRotation = false) (hi : e.issuedAt = none) :
    windowOf L (e :: h) = windowOf L h := by
  unfold windowOf
  rw [sinceLink_cons he, List.filterMap_cons_none hi]

/-- The counters of a link are the counts of its history, and the bounds hold of the history
whatever became of the link. -/
structure Tally (L : Limits) (h : List (Event Token Who Code Nonce))
    (s : State Token Who Code Nonce) : Prop where
  code_bound : missCount (sinceCode h) ≤ L.maxAttempts
  link_bound : missCount (sinceLink h) ≤ L.maxFailed
  window_bound : ∀ x ∈ windowOf L h, x.2 ≤ L.maxSends
  link : ∀ l, s = .linked l → l.failed = missCount (sinceLink h) ∧
    l.windowStart = (windowOf L h).map Prod.fst ∧ l.sent = (windowOf L h).elim 0 Prod.snd
  code : ∀ l who code nonce expiresAt n, s = .linked l →
    l.challenge = .sent who code nonce expiresAt n → n = missCount (sinceCode h) ∧ n < L.maxAttempts

/-- An event that is neither counted nor begins a count. -/
structure Event.Quiet (e : Event Token Who Code Nonce) : Prop where
  rotation : e.isRotation = false
  issue : e.issuedAt = none
  miss : e.isMiss = false

/-- A quiet event keeps the counts, so it is enough that the state shows no more than before. -/
theorem Tally.quiet (ht : Tally L h s) (he : e.Quiet)
    (hlink : ∀ l', s' = .linked l' → ∃ l, s = .linked l ∧ l'.failed = l.failed ∧
      l'.windowStart = l.windowStart ∧ l'.sent = l.sent ∧
      ∀ who code nonce expiresAt n, l'.challenge = .sent who code nonce expiresAt n →
        l.challenge = .sent who code nonce expiresAt n) :
    Tally L (e :: h) s' := by
  have hcode : missCount (sinceCode (e :: h)) = missCount (sinceCode h) := by
    rw [sinceCode_cons he.issue, missCount_cons, he.miss]
    rfl
  have hlinks : missCount (sinceLink (e :: h)) = missCount (sinceLink h) := by
    rw [sinceLink_cons he.rotation, missCount_cons, he.miss]
    rfl
  have hwindow : windowOf L (e :: h) = windowOf L h := windowOf_cons he.rotation he.issue
  refine ⟨hcode ▸ ht.code_bound, hlinks ▸ ht.link_bound, hwindow ▸ ht.window_bound, ?_, ?_⟩
  · intro l' hl'
    obtain ⟨l, hl, hfailed, hstart, hsent, -⟩ := hlink l' hl'
    rw [hfailed, hstart, hsent, hlinks, hwindow]
    exact ht.link l hl
  · intro l' who code nonce expiresAt n hl' hc'
    obtain ⟨l, hl, -, -, -, hchallenge⟩ := hlink l' hl'
    rw [hcode]
    exact ht.code l who code nonce expiresAt n hl (hchallenge _ _ _ _ _ hc')

/-- The window after one more code. -/
theorem lastWindow_cons {W now : Int} {times : List Int} :
    lastWindow W (now :: times) =
      if ((lastWindow W times).map Prod.fst).any (fun started => now - started < W) then
        (lastWindow W times).map fun x => (x.1, x.2 + 1)
      else some (now, 1) := by
  rw [lastWindow]
  cases lastWindow W times with
  | none => rfl
  | some x =>
    simp only [Option.map_some, Option.any_some, decide_eq_true_eq]

/-- A new code is counted in its window. -/
theorem Tally.issue {l : Link Token Who Code Nonce} {now : Int} {who : Who} {code : Code}
    {nonce : Nonce} (ht : Tally L h (.linked l)) (hpos : 0 < L.maxAttempts)
    (hsent : l.sentInWindow L now < L.maxSends) :
    Tally L (.issue now l.token who code nonce :: h) (.linked (l.issued L now who code nonce)) := by
  obtain ⟨hfailed, hstart, hcount⟩ := ht.link l rfl
  have hlinks : missCount (sinceLink (.issue now l.token who code nonce :: h)) =
      missCount (sinceLink h) := by
    rw [sinceLink_cons rfl, missCount_cons]
    rfl
  have hopen : l.windowOpen L now =
      ((windowOf L h).map Prod.fst).any (fun started => now - started < L.window) := by
    unfold Link.windowOpen
    rw [hstart]
  have hwindow : windowOf L (.issue now l.token who code nonce :: h) =
      if l.windowOpen L now then (windowOf L h).map fun x => (x.1, x.2 + 1)
      else some (now, 1) := by
    rw [hopen]
    unfold windowOf
    rw [sinceLink_cons rfl]
    exact lastWindow_cons
  refine ⟨Nat.zero_le _, hlinks ▸ ht.link_bound, ?_, ?_, ?_⟩
  · intro x hx
    rw [hwindow] at hx
    unfold Link.sentInWindow at hsent
    split at hx
    · next hopen =>
      rw [if_pos hopen, hcount] at hsent
      obtain ⟨y, hy, rfl⟩ := Option.map_eq_some_iff.mp hx
      rw [hy] at hsent
      exact hsent
    · next hclosed =>
      rw [if_neg hclosed] at hsent
      cases hx
      exact hsent
  · rintro _ ⟨⟩
    rw [hlinks, hwindow]
    refine ⟨hfailed, ?_, ?_⟩
    · show (if l.windowOpen L now then l.windowStart else some now) = _
      split
      · rw [hstart, Option.map_map]
        rfl
      · rfl
    · show l.sentInWindow L now + 1 = _
      unfold Link.sentInWindow
      split
      · next hrunning =>
        rw [hcount]
        rw [hopen] at hrunning
        cases hw : windowOf L h with
        | none =>
          rw [hw] at hrunning
          cases hrunning
        | some x => rfl
      · rfl
  · rintro _ who' code' nonce' expiresAt n ⟨⟩ hsent'
    cases hsent'
    exact ⟨rfl, hpos⟩

/-- A wrong guess is counted for its code and for the link. -/
theorem Tally.wrong {l : Link Token Who Code Nonce} {now expiresAt : Int} {who who' : Who}
    {code code' : Code} {nonce : Nonce} {n : Nat} {proof : Token} (ht : Tally L h (.linked l))
    (hc : l.challenge = .sent who code nonce expiresAt n) (hfailed : l.failed < L.maxFailed) :
    Tally L (.guess now l.token who' code' proof false :: h)
      (.linked { l with failed := l.failed + 1, challenge := Link.missed L l.challenge }) := by
  obtain ⟨hcount, hstart, hsent⟩ := ht.link l rfl
  obtain ⟨hn, hlt⟩ := ht.code l _ _ _ _ _ rfl hc
  have hlinks : missCount (sinceLink (.guess now l.token who' code' proof false :: h)) =
      missCount (sinceLink h) + 1 := by
    rw [sinceLink_cons rfl, missCount_cons]
    rfl
  have hcodes : missCount (sinceCode (.guess now l.token who' code' proof false :: h)) =
      missCount (sinceCode h) + 1 := by
    rw [sinceCode_cons rfl, missCount_cons]
    rfl
  have hwindow : windowOf L (.guess now l.token who' code' proof false :: h) = windowOf L h :=
    windowOf_cons rfl rfl
  refine ⟨?_, ?_, hwindow ▸ ht.window_bound, ?_, ?_⟩
  · rw [hcodes, ← hn]
    exact hlt
  · rw [hlinks, ← hcount]
    exact hfailed
  · rintro _ ⟨⟩
    rw [hlinks, hwindow]
    exact ⟨congrArg (· + 1) hcount, hstart, hsent⟩
  · rintro _ who₁ code₁ nonce₁ expiresAt₁ m ⟨⟩ hmissed
    rw [hcodes, ← hn]
    simp only [hc, Link.missed] at hmissed
    split at hmissed
    · cases hmissed
    · next hmore =>
      cases hmissed
      exact ⟨rfl, Nat.not_le.mp hmore⟩

/-- **One step keeps the counts.** -/
theorem Tally.step (hpos : 0 < L.maxAttempts) (ht : Tally L h s) (hs : Moves L s e s') :
    Tally L (e :: h) s' := by
  cases hs with
  | @rotate _ now token =>
    have hcode : missCount (sinceCode (.rotate now token :: h)) = missCount (sinceCode h) := by
      rw [sinceCode_cons rfl, missCount_cons]
      rfl
    refine ⟨hcode ▸ ht.code_bound, Nat.zero_le _, fun x hx => (nomatch hx), ?_, ?_⟩
    · rintro _ ⟨⟩
      exact ⟨rfl, rfl, rfl⟩
    · rintro _ _ _ _ _ _ ⟨⟩ hsent
      cases hsent
  | linkWithdrawn => exact ht.quiet ⟨rfl, rfl, rfl⟩ fun l heq => nomatch heq
  | linkKept =>
    exact ht.quiet ⟨rfl, rfl, rfl⟩ fun l heq => ⟨l, heq, rfl, rfl, rfl, fun _ _ _ _ _ hc => hc⟩
  | issue _ _ hsent => exact ht.issue hpos hsent
  | @codeWithdrawn l nonce =>
    refine ht.quiet ⟨rfl, rfl, rfl⟩ fun l' heq => ⟨l, rfl, ?_⟩
    cases heq
    exact ⟨rfl, rfl, rfl, fun _ _ _ _ _ hc => nomatch hc⟩
  | codeKept =>
    exact ht.quiet ⟨rfl, rfl, rfl⟩ fun l heq => ⟨l, heq, rfl, rfl, rfl, fun _ _ _ _ _ hc => hc⟩
  | @right l =>
    refine ht.quiet ⟨rfl, rfl, rfl⟩ fun l' heq => ⟨l, rfl, ?_⟩
    cases heq
    exact ⟨rfl, rfl, rfl, fun _ _ _ _ _ hc => nomatch hc⟩
  | wrong _ hc hfailed => exact ht.wrong hc hfailed
  | accept => exact ht.quiet ⟨rfl, rfl, rfl⟩ fun l heq => nomatch heq
  | close => exact ht.quiet ⟨rfl, rfl, rfl⟩ fun l heq => nomatch heq

section

variable [DecidableEq Token] [DecidableEq Who] [DecidableEq Code] [DecidableEq Nonce]

/-- **The counts of a history never pass the limits.** -/
theorem tallies (hpos : 0 < L.maxAttempts) (hr : (machine L).Run h s) : Tally L h s := by
  refine hr.invariant (I := fun h s => Tally L h s) ?_ ?_
  · rintro s rfl
    exact ⟨Nat.zero_le _, Nat.zero_le _, fun x hx => (nomatch hx), fun l heq => (nomatch heq),
      fun l _ _ _ _ _ heq => nomatch heq⟩
  · exact fun h s e s' _ ht hs => ht.step hpos (moves_of_next hs)

/-- **A link with too many wrong guesses is of no use**: no code is issued and no guess is
compared until it is replaced. -/
theorem exhausted (hpos : 0 < L.maxAttempts) (hr : (machine L).Run (e :: h) s)
    (hall : L.maxFailed ≤ missCount (sinceLink h)) :
    e.issuedAt = none ∧ ∀ now token who code proof right,
      e ≠ .guess now token who code proof right := by
  obtain ⟨s₀, hr₀, hs⟩ := hr.last
  have ht := tallies hpos hr₀
  have hnot : ∀ l, s₀ = .linked l → ¬l.failed < L.maxFailed := by
    intro l hl hlt
    rw [(ht.link l hl).1] at hlt
    exact Nat.not_lt.mpr hall hlt
  cases moves_of_next hs with
  | issue _ hfailed => exact absurd hfailed (hnot _ rfl)
  | right _ _ hfailed => exact absurd hfailed (hnot _ rfl)
  | wrong _ _ hfailed => exact absurd hfailed (hnot _ rfl)
  | _ => exact ⟨rfl, fun _ _ _ _ _ _ heq => nomatch heq⟩

end

end GuardedLink
