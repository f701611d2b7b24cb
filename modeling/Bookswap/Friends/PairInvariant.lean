import Bookswap.Friends.SocialSpec

/-!
# The pairs stay sound

What every reachable state keeps about the rows of `Friendship` and about the rows that calls
have read and not yet acted upon.

- `Friendship.Sound`: the CHECK `friendship_blocked_has_author`, and whose request it was.
- `Located.Stands`: a row read earlier is deleted, or still the same pair; and if it was blocked
  it is still the very same row, because nothing updates a blocked row and no identifier returns.
- `Social.PairsSound`, `pairsSound`: the invariant of a run.
-/

namespace Bookswap

open Store Checked

namespace Friendship

/-- A block has its author, nothing else has one, and one of the two asked. -/
structure Sound (f : Friendship) : Prop where
  blocked : f.status = .blocked ↔ f.blockedById ≠ none
  requester : f.isMember f.requestedById = true

/-- The row joins these two, in whichever order. -/
def Joins (f : Friendship) (oneId otherId : UserId) : Prop :=
  f.userAId = oneId ∧ f.userBId = otherId ∨ f.userAId = otherId ∧ f.userBId = oneId

theorem isMember_iff {f : Friendship} {u : UserId} :
    f.isMember u = true ↔ f.userAId = u ∨ f.userBId = u := by
  simp [isMember]

theorem Joins.of_pair {f : Friendship} {a b : UserId} (h : f.pair = normalizePair a b) :
    f.Joins a b := by
  unfold normalizePair at h
  split at h
  · obtain ⟨ha, hb⟩ := Prod.mk.inj h
    exact Or.inl ⟨ha, hb⟩
  · obtain ⟨ha, hb⟩ := Prod.mk.inj h
    exact Or.inr ⟨ha, hb⟩

theorem Joins.left {f : Friendship} {a b : UserId} (h : f.Joins a b) : f.isMember a = true := by
  rcases h with ⟨h, -⟩ | ⟨-, h⟩
  · exact isMember_iff.mpr (Or.inl h)
  · exact isMember_iff.mpr (Or.inr h)

theorem Joins.right {f : Friendship} {a b : UserId} (h : f.Joins a b) : f.isMember b = true := by
  rcases h with ⟨-, h⟩ | ⟨h, -⟩
  · exact isMember_iff.mpr (Or.inr h)
  · exact isMember_iff.mpr (Or.inl h)

theorem isMember_of_pair {f g : Friendship} (h : f.pair = g.pair) (u : UserId) :
    f.isMember u = g.isMember u := by
  obtain ⟨ha, hb⟩ := Prod.mk.inj h
  unfold isMember
  rw [ha, hb]

end Friendship

theorem UpdateRule.not_blocked {f : Friendship} {actorId : UserId} {action : FriendshipAction}
    {status : FriendshipStatus} (h : UpdateRule f actorId action status) :
    f.status ≠ .blocked := by
  cases h with
  | ask hs => rw [hs]; decide
  | answer _ hs _ => rw [hs]; decide
  | decline hs _ => rw [hs]; decide
  | invite hs => rcases hs with hs | hs <;> (rw [hs]; decide)
  | block hs => exact hs

/-! ## What was read -/

/-- A row read earlier, as the database has it now. -/
structure FriendshipRow.Stands (s : Social) (actorId : UserId) (f : FriendshipRow) : Prop where
  sound : f.Sound
  actor : f.isMember actorId = true
  spent : f.id ∈ s.spent
  same : ∀ g ∈ s.db.friendships, g.id = f.id → g.pair = f.pair ∧ (f.status = .blocked → g = f)

/-- What `locate` finds is a row of the actor's. -/
theorem mem_of_locate {db : SocialDb} {actorId : UserId} {target : FriendshipTarget}
    {read : Located} (h : locate db actorId target = .ok read) {f : FriendshipRow}
    (hf : read.friendship = some f) : f ∈ db.friendships ∧ f.isMember actorId = true := by
  cases target with
  | user userId =>
    obtain rfl := pure_eq_ok.mp h
    obtain ⟨-, hmem, hpair⟩ := SocialDb.findPair_eq_some hf
    exact ⟨hmem, (Friendship.Joins.of_pair hpair).left⟩
  | request requestId =>
    obtain ⟨g, hg, hrest⟩ := bind_eq_ok.mp h
    obtain ⟨_, hmember, hret⟩ := bind_eq_ok.mp hrest
    obtain rfl := pure_eq_ok.mp hret
    obtain rfl := Option.some.inj hf
    exact ⟨Table.mem_of_find? (orThrow_eq_ok.mp hg), by simpa using throwIf_eq_ok.mp hmember⟩

/-- The invariant of the friendships. -/
structure Social.PairsSound (s : Social) : Prop where
  unique : ∀ f ∈ s.db.friendships, ∀ g ∈ s.db.friendships, f.pair = g.pair → f = g
  sound : ∀ f ∈ s.db.friendships, f.Sound
  spent : ∀ f ∈ s.db.friendships, f.id ∈ s.spent
  reads : ∀ c p actorId action read, s.calls c = some p →
    p.located = some (actorId, action, read) → ∀ f, read.friendship = some f → f.Stands s actorId

/-! ## A write keeps them sound -/

section Written

variable {s : Social} {now : Time} {newId : FriendshipId} {actorId : UserId} {read : Located}
  {action : FriendshipAction} {db' : SocialDb} {accepted : Option AcceptedPair}

/-- A created row is sound. -/
theorem createdFriendship_sound (hne : actorId ≠ read.otherId) (status : FriendshipStatus) :
    (createdFriendship now newId actorId read.otherId hne action status).Sound := by
  have hjoins : (createdFriendship now newId actorId read.otherId hne action status).Joins actorId
      read.otherId := .of_pair rfl
  constructor
  · by_cases hb : status = .blocked <;> simp [createdFriendship, hb]
  · by_cases hi : action = .invite
    · simpa [createdFriendship, hi] using hjoins.right
    · simpa [createdFriendship, hi] using hjoins.left

/-- An updated row is sound: the columns it keeps are those of the row that was read, of the
same pair and not blocked. -/
theorem updatedFriendship_sound {f g : FriendshipRow} {status : FriendshipStatus}
    (hf : f.Stands s actorId) (hg : g ∈ s.db.friendships) (hrule : UpdateRule f.toFriendship
      actorId action status) (hstill : f.stillAs g) :
    (updatedFriendship now actorId f status g).Sound := by
  have hpair := (hf.same g hg (FriendshipRow.stillAs_iff.mp hstill).1).1
  have hnone : f.blockedById = none := by
    by_contra hsome
    exact hrule.not_blocked (hf.sound.blocked.mpr hsome)
  constructor
  · by_cases hb : status = .blocked <;> simp [updatedFriendship, hb, hnone]
  · show g.isMember _ = true
    rw [Friendship.isMember_of_pair hpair]
    by_cases hp : status = .pending
    · simpa [updatedFriendship, hp] using hf.actor
    · simpa [updatedFriendship, hp] using hf.sound.requester

/-- A row after a write is new, or a row of the same pair was there under its identifier; a
blocked one was not touched. -/
theorem Written.origin (h : Written now newId actorId read action s.db db' accepted)
    {g : FriendshipRow} (hg : g ∈ db'.friendships) :
    (g.id = newId ∧ ∀ f ∈ s.db.friendships, f.pair ≠ g.pair) ∨
      ∃ g₀ ∈ s.db.friendships, g₀.id = g.id ∧ g₀.pair = g.pair ∧ (g₀.status = .blocked → g = g₀) := by
  rcases h.mem hg with hold | ⟨hne, status, -, -, hfresh, rfl⟩ |
    ⟨f, g₀, status, -, hrule, hg₀, hstill, rfl⟩
  · exact Or.inr ⟨g, hold, rfl, rfl, fun _ => rfl⟩
  · exact Or.inl ⟨rfl, hfresh⟩
  · refine Or.inr ⟨g₀, hg₀, rfl, rfl, fun hb => ?_⟩
    rw [(FriendshipRow.stillAs_iff.mp hstill).2] at hb
    exact absurd hb hrule.not_blocked

end Written

namespace Social

variable {s s' : Social} {op : SocialOp}

theorem PairsSound.unique_write {db' : SocialDb} {now : Time} {newId : FriendshipId}
    {actorId : UserId} {read : Located} {action : FriendshipAction}
    {accepted : Option AcceptedPair} (h : s.PairsSound)
    (hw : Written now newId actorId read action s.db db' accepted) {f g : FriendshipRow}
    (hf : f ∈ db'.friendships) (hg : g ∈ db'.friendships) (hp : f.pair = g.pair) : f = g := by
  rcases hw.origin hf with ⟨hfid, hfnew⟩ | ⟨f₀, hf₀, hfid, hfp, -⟩
  · rcases hw.origin hg with ⟨hgid, -⟩ | ⟨g₀, hg₀, -, hgp, -⟩
    · exact Table.eq_of_key_eq hf hg (hfid.trans hgid.symm)
    · exact absurd (hgp.trans hp.symm) (hfnew g₀ hg₀)
  · rcases hw.origin hg with ⟨-, hgnew⟩ | ⟨g₀, hg₀, hgid, hgp, -⟩
    · exact absurd (hfp.trans hp) (hgnew f₀ hf₀)
    · have heq := h.unique f₀ hf₀ g₀ hg₀ (hfp.trans (hp.trans hgp.symm))
      exact Table.eq_of_key_eq hf hg (by rw [← hfid, ← hgid, heq])

/-- What a call has read still stands after another call's write. -/
theorem stands_write {db' : SocialDb} {now : Time} {newId : FriendshipId}
    {actorId reader : UserId} {read : Located} {action : FriendshipAction}
    {accepted : Option AcceptedPair} (hnew : newId ∉ s.spent)
    (hw : Written now newId actorId read action s.db db' accepted) {f : FriendshipRow}
    (hf : f.Stands s reader) (hspent : ∀ id ∈ s.spent, id ∈ s'.spent)
    (hdb : s'.db.friendships = db'.friendships) : f.Stands s' reader := by
  refine ⟨hf.sound, hf.actor, hspent _ hf.spent, fun g hg hid => ?_⟩
  rw [hdb] at hg
  rcases hw.origin hg with ⟨hgid, -⟩ | ⟨g₀, hg₀, hgid, hgp, hkeep⟩
  · have hold := hf.spent
    rw [← hid, hgid] at hold
    exact absurd hold hnew
  · obtain ⟨hpair, hblocked⟩ := hf.same g₀ hg₀ (hgid.trans hid)
    refine ⟨hgp.symm.trans hpair, fun hb => ?_⟩
    have h₀ : g₀ = f := hblocked hb
    rw [← h₀] at hb ⊢
    exact hkeep hb

theorem PairsSound.step (h : s.PairsSound) (hs : Step s op s') : s'.PairsSound := by
  have hspent := hs.spent
  -- a row that a call reads now is in the database now
  have hread : ∀ c q, s.Enters c q → ∀ actorId action read,
      q.located = some (actorId, action, read) → ∀ f, read.friendship = some f →
        f.Stands s actorId := by
    intro c q hq actorId action read hloc f hf
    have hmem : f ∈ s.db.friendships ∧ f.isMember actorId = true := by
      cases hq with
      | friendLocated hlocate =>
        cases hloc
        exact mem_of_locate hlocate hf
      | acceptLocated hc =>
        cases hloc
        obtain ⟨-, hmem, hpair⟩ := SocialDb.findPair_eq_some hf
        exact ⟨hmem, (Friendship.Joins.of_pair hpair).left⟩
      | _ => cases hloc
    refine ⟨h.sound f hmem.1, hmem.2, h.spent f hmem.1, fun g hg hid => ?_⟩
    obtain rfl := Table.eq_of_key_eq hg hmem.1 hid
    exact ⟨rfl, fun _ => rfl⟩
  -- what the calls have read stands after the step if it stood before
  have hreads : (∀ (f : FriendshipRow) actorId, f.Stands s actorId → f.Stands s' actorId) →
      ∀ c p actorId action read, s'.calls c = some p →
        p.located = some (actorId, action, read) → ∀ f, read.friendship = some f →
          f.Stands s' actorId := by
    intro hstands c p actorId action read hc hloc f hf
    refine hstands f actorId ?_
    rcases hs.calls with hcalls | ⟨c₀, p₀, hcalls, henter⟩
    · rw [hcalls] at hc
      exact h.reads c p actorId action read hc hloc f hf
    · rw [hcalls, Function.update_apply] at hc
      split at hc
      · subst hc
        exact hread _ _ (henter p rfl).1 _ _ _ hloc f hf
      · exact h.reads c p actorId action read hc hloc f hf
  rcases hs.friendships with hsame | ⟨actorId, action, read, now, newId, db, accepted, hw⟩
  · refine ⟨?_, ?_, ?_, hreads ?_⟩
    · rw [hsame]; exact h.unique
    · rw [hsame]; exact h.sound
    · rw [hsame]; exact fun f hf => hspent _ (h.spent f hf)
    · intro f actorId hf
      refine ⟨hf.sound, hf.actor, hspent _ hf.spent, ?_⟩
      rw [hsame]
      exact hf.same
  · obtain ⟨c, p, -, hc, hloc⟩ := hw.located
    refine ⟨?_, ?_, ?_, hreads fun f reader hf =>
      stands_write hw.fresh hw.written hf hspent hw.friendships⟩
    · rw [hw.friendships]
      exact fun f hf g hg => h.unique_write hw.written hf hg
    · rw [hw.friendships]
      intro g hg
      rcases hw.written.mem hg with hold | ⟨hne, status, -, -, -, rfl⟩ |
        ⟨f, g₀, status, hfr, hrule, hg₀, hstill, rfl⟩
      · exact h.sound g hold
      · exact createdFriendship_sound hne status
      · exact updatedFriendship_sound (h.reads c p _ _ _ hc hloc f hfr) hg₀ hrule hstill
    · rw [hw.friendships, hw.spent]
      intro g hg
      rcases hw.written.origin hg with ⟨hid, -⟩ | ⟨g₀, hg₀, hid, -, -⟩
      · rw [hid]; exact List.mem_cons_self
      · rw [← hid]; exact List.mem_cons_of_mem _ (h.spent g₀ hg₀)

end Social

/-- **In every reachable state the pairs are sound.** -/
theorem pairsSound {s : Social} (hr : socialSystem.Reachable s) : s.PairsSound := by
  refine hr.invariant (fun s hi => ?_) fun s op s' _ h hs => h.step hs
  have hnone : ∀ f, f ∉ s.db.friendships := by
    rw [hi.no_friendships]
    exact fun f => Table.not_mem_empty
  exact ⟨fun f hf => absurd hf (hnone f), fun f hf => absurd hf (hnone f),
    fun f hf => absurd hf (hnone f), fun c p _ _ _ hc => by rw [hi.no_calls] at hc; cases hc⟩

end Bookswap
