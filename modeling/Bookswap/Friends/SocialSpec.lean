import Bookswap.SocialSystem

/-!
# What one step of the social system does

One inversion lemma per part of the state; the invariants cite these and unfold no step.

- `Written.mem`, `Written.kept`: the rows after a friendship write, and the rows before it.
- `Step.friendships`: the friendships change only by a write of a call that has located its row.
- `Step.located`: what a call has located, it located now or before.
- `acceptWrite_eq_ok`: an acceptance is a friendship write and, with it, one row.
-/

namespace Bookswap

open Store Checked

/-! ## Friendship writes -/

section Written

variable {now : Time} {newId : FriendshipId} {actorId : UserId} {read : Located}
  {action : FriendshipAction} {db db' : SocialDb} {accepted : Option AcceptedPair}

/-- Where a row after a write comes from. -/
theorem Written.mem (h : Written now newId actorId read action db db' accepted)
    {g : FriendshipRow} (hg : g ∈ db'.friendships) :
    g ∈ db.friendships ∨
      (∃ (hne : actorId ≠ read.otherId) (status : FriendshipStatus), read.friendship = none ∧
        CreateRule action status ∧
        (∀ f ∈ db.friendships, f.pair ≠ g.pair) ∧
        g = createdFriendship now newId actorId read.otherId hne action status) ∨
      (∃ (f g₀ : FriendshipRow) (status : FriendshipStatus), read.friendship = some f ∧
        UpdateRule f.toFriendship actorId action status ∧ g₀ ∈ db.friendships ∧ f.stillAs g₀ ∧
        g = updatedFriendship now actorId f status g₀) := by
  cases h with
  | @created status t hne hread hrule hfresh hins =>
    simp only [SocialDb.notifyFriend_friendships] at hg
    rcases (Table.mem_insert hins).mp hg with hold | rfl
    · exact Or.inl hold
    · exact Or.inr (Or.inl ⟨hne, status, hread, hrule, hfresh, rfl⟩)
  | unchanged => exact Or.inl hg
  | deleted => exact Or.inl (Table.mem_filter.mp hg).1
  | @updated f status hread hrule hex =>
    simp only [SocialDb.notifyFriend_friendships] at hg
    obtain ⟨g₀, hg₀, rfl⟩ := Table.mem_updateWhere.mp hg
    by_cases hs : f.stillAs g₀
    · rw [if_pos hs]
      exact Or.inr (Or.inr ⟨f, g₀, status, hread, hrule, hg₀, hs, rfl⟩)
    · rw [if_neg hs]
      exact Or.inl hg₀

/-- What becomes of a row that was there before a write. -/
theorem Written.kept (h : Written now newId actorId read action db db' accepted)
    {g : FriendshipRow} (hg : g ∈ db.friendships) :
    g ∈ db'.friendships ∨
      (∃ f, action = .remove ∧ read.friendship = some f ∧ f.stillAs g ∧
        (f.status = .blocked → f.blockedById = some actorId) ∧
        ∀ g' ∈ db'.friendships, g'.id ≠ g.id) ∨
      (∃ (f : FriendshipRow) (status : FriendshipStatus), read.friendship = some f ∧
        UpdateRule f.toFriendship actorId action status ∧ f.stillAs g ∧
        updatedFriendship now actorId f status g ∈ db'.friendships) := by
  cases h with
  | created hne hread hrule hfresh hins =>
    rw [SocialDb.notifyFriend_friendships]
    exact Or.inl ((Table.mem_insert hins).mpr (Or.inl hg))
  | unchanged => exact Or.inl hg
  | @deleted f hremove hread hblocker hex =>
    by_cases hs : f.stillAs g
    · refine Or.inr (Or.inl ⟨f, hremove, hread, hs, hblocker, fun g' hg' hid => ?_⟩)
      obtain ⟨hg', hns⟩ := Table.mem_filter.mp hg'
      rw [Table.eq_of_key_eq hg' hg hid, hs] at hns
      cases hns
    · exact Or.inl (Table.mem_filter.mpr ⟨hg, by simp [hs]⟩)
  | @updated f status hread hrule hex =>
    rw [SocialDb.notifyFriend_friendships]
    by_cases hs : f.stillAs g
    · exact Or.inr (Or.inr ⟨f, status, hread, hrule, hs,
        Table.mem_updateWhere.mpr ⟨g, hg, if_pos hs⟩⟩)
    · exact Or.inl (Table.mem_updateWhere.mpr ⟨g, hg, if_neg hs⟩)

theorem FriendshipRow.stillAs_iff {f g : FriendshipRow} :
    f.stillAs g ↔ g.id = f.id ∧ g.status = f.status := by
  simp [FriendshipRow.stillAs]

theorem Written.invitations (h : Written now newId actorId read action db db' accepted) :
    db'.invitations = db.invitations := by
  cases h <;> simp

theorem Written.acceptances (h : Written now newId actorId read action db db' accepted) :
    db'.acceptances = db.acceptances := by
  cases h <;> simp

end Written

/-! ## Acceptances -/

/-- **An acceptance commits as a friendship write, with one row exactly when that write made
the pair friends.** -/
theorem acceptWrite_eq_ok {now : Time} {newId : FriendshipId} {acceptanceId : AcceptanceId}
    {userId : UserId} {i : Invitation} {read : Located} {db db' : SocialDb}
    {outcome : AcceptOutcome}
    (h : acceptWrite now newId acceptanceId userId i read db = .ok (db', outcome)) :
    ∃ db₁ accepted, Written now newId userId read .invite db db₁ accepted ∧
      ((accepted = none ∧ db' = db₁) ∨
        (∃ t, accepted ≠ none ∧
          (∀ b ∈ db.acceptances, b.invitationId = i.id → b.userId ≠ userId) ∧
          db.acceptances.insert ⟨acceptanceId, i.id, userId⟩ = some t ∧
          db' = { db₁ with acceptances := t })) := by
  unfold acceptWrite acceptInviteIn at h
  obtain ⟨o, ho, hrest⟩ := bind_eq_ok.mp h
  obtain ⟨⟨db₁, result⟩, hsome, hend⟩ := bind_eq_ok.mp hrest
  obtain rfl := orThrow_eq_ok.mp hsome
  split at ho
  next r hr =>
    obtain rfl := Option.some.inj (Except.ok.inj ho)
    have hw := transitionIn_eq_ok hr
    refine ⟨db₁, result.accepted, hw, ?_⟩
    cases hacc : result.accepted with
    | none =>
      simp only [hacc, pure_eq_ok, Prod.mk.injEq] at hend
      exact Or.inl ⟨rfl, hend.1.symm⟩
    | some p =>
      simp only [hacc] at hend
      obtain ⟨db₂, hins, hret⟩ := bind_eq_ok.mp hend
      obtain ⟨rfl, -⟩ := Prod.mk.inj (pure_eq_ok.mp hret)
      obtain ⟨hfresh, t, ht, rfl⟩ := SocialDb.insertAcceptance_eq_ok.mp hins
      rw [hw.acceptances] at hfresh ht
      exact Or.inr ⟨t, Option.some_ne_none p, hfresh, ht, rfl⟩
  · cases ho
  · cases ho

/-! ## Steps -/

namespace Phase

/-- Who is about to write what, from which row. -/
def located : Phase → Option (UserId × FriendshipAction × Located)
  | .friendLocated _ call read => some (call.actorId, call.action, read)
  | .acceptLocated _ userId _ _ _ read => some (userId, .invite, read)
  | _ => none

end Phase

namespace SocialOp

/-- The call that writes a friendship, and the identifier it drew. -/
def writer : SocialOp → Option (CallId × Time × FriendshipId)
  | .friendWrite c now newId _ | .acceptWrite c now newId _ _ => some (c, now, newId)
  | _ => none

end SocialOp

/-- An invitation sent by e-mail: who sent it, to which address, and its `createdAt`. -/
structure Letter where
  id : InvitationId
  inviterId : UserId
  address : Digest
  createdAt : Time
  deriving DecidableEq, Repr

namespace SocialOp

/-- The letter whose row a step commits. -/
def letter : SocialOp → Option Letter
  | .emailInsert _ req id _ createdAt =>
    some ⟨id, req.inviterId, req.recipientEmailHash, createdAt⟩
  | _ => none

/-- The time of a clean-up. -/
def cleanedAt : SocialOp → Option Time
  | .cleanup now => some now
  | _ => none

end SocialOp

namespace Social

variable {s s' : Social} {op : SocialOp}

@[simp] theorem moveOn_db (c : CallId) (p : Option Phase) : (s.moveOn c p).db = s.db := rfl
@[simp] theorem moveOn_spent (c : CallId) (p : Option Phase) :
    (s.moveOn c p).spent = s.spent := rfl

theorem moveOn_calls (c c' : CallId) (p : Option Phase) :
    (s.moveOn c p).calls c' = if c' = c then p else s.calls c' := by
  simp [moveOn, Function.update_apply]

/-- A transaction's end leaves the database as it was unless it committed. -/
theorem settle_eq {c : CallId} {attempt : Nat} {again : Phase} {r : Except TxFailure SocialDb}
    {reply : Reply} (h : s.settle c attempt again r = (s', reply)) :
    (∃ db, r = .ok db ∧ reply = .done ∧ s' = { s with db := db }.moveOn c none) ∨
      (reply ≠ .done ∧ ∃ p, (p = none ∨ p = some again) ∧ s' = s.moveOn c p) := by
  cases r with
  | ok db =>
    obtain ⟨rfl, rfl⟩ := Prod.mk.inj h
    exact Or.inl ⟨db, rfl, rfl, rfl⟩
  | error e =>
    refine Or.inr ?_
    cases e with
    | failed f =>
      obtain ⟨rfl, rfl⟩ := Prod.mk.inj h
      exact ⟨by simp, none, Or.inl rfl, rfl⟩
    | uniqueViolation k =>
      simp only [settle] at h
      split at h
      · obtain ⟨rfl, rfl⟩ := Prod.mk.inj h
        exact ⟨by simp, some again, Or.inr rfl, rfl⟩
      · obtain ⟨rfl, rfl⟩ := Prod.mk.inj h
        exact ⟨by simp, none, Or.inl rfl, rfl⟩

/-- The write of a call that had located its row. -/
structure Writes (s : Social) (op : SocialOp) (s' : Social) (actorId : UserId)
    (action : FriendshipAction) (read : Located) (now : Time) (newId : FriendshipId)
    (db : SocialDb) (accepted : Option AcceptedPair) : Prop where
  located : ∃ c p, op.writer = some (c, now, newId) ∧ s.calls c = some p ∧
    p.located = some (actorId, action, read)
  fresh : newId ∉ s.spent
  spent : s'.spent = newId :: s.spent
  written : Written now newId actorId read action s.db db accepted
  friendships : s'.db.friendships = db.friendships

/-- **The friendships change only by a write.** -/
theorem Step.friendships (h : Step s op s') :
    s'.db.friendships = s.db.friendships ∨
      ∃ actorId action read now newId db accepted,
        s.Writes op s' actorId action read now newId db accepted := by
  cases h with
  | @friendWrite _ c attempt call read now newId reply hc hfresh hend =>
    rcases settle_eq hend with ⟨db, hr, -, rfl⟩ | ⟨-, p, -, rfl⟩
    · obtain ⟨⟨db₁, outcome⟩, htx, rfl⟩ := map_eq_ok.mp hr
      exact Or.inr ⟨_, _, _, _, _, _, _, ⟨⟨c, _, rfl, hc, rfl⟩, hfresh, rfl,
        transitionIn_eq_ok htx, rfl⟩⟩
    · exact Or.inl rfl
  | @acceptWrite _ c attempt userId tokenHash _ i read now newId acceptanceId reply hc hfresh hend =>
    rcases settle_eq hend with ⟨db, hr, -, rfl⟩ | ⟨-, p, -, rfl⟩
    · obtain ⟨⟨db', outcome⟩, htx, rfl⟩ := map_eq_ok.mp hr
      obtain ⟨db₁, accepted, hw, hrest⟩ := acceptWrite_eq_ok htx
      refine Or.inr ⟨_, _, _, _, _, db₁, _, ⟨⟨c, _, rfl, hc, rfl⟩, hfresh, rfl, hw, ?_⟩⟩
      rcases hrest with ⟨-, rfl⟩ | ⟨t, -, -, -, rfl⟩ <;> rfl
    · exact Or.inl rfl
  | createLink _ hins =>
    unfold SocialDb.insertInvitation at hins
    split at hins
    · cases hins
    · split at hins
      · cases hins
      · cases hins
        exact Or.inl rfl
  | emailInsert _ _ hins =>
    unfold SocialDb.insertInvitation at hins
    split at hins
    · cases hins
    · split at hins
      · cases hins
      · cases hins
        exact Or.inl rfl
  | revoke _ hok =>
    obtain ⟨_, -, hret⟩ := bind_eq_ok.mp hok
    obtain rfl := pure_eq_ok.mp hret
    exact Or.inl rfl
  | _ => exact Or.inl rfl

/-- The phases a call can enter, and what is so when it does. -/
inductive Enters (s : Social) (c : CallId) : Phase → Prop
  | friend {attempt : Nat} {call : FriendCall} : Enters s c (.friend attempt call)
  | friendLocated {attempt : Nat} {call : FriendCall} {read : Located} :
      locate s.db call.actorId call.target = .ok read →
      Enters s c (.friendLocated attempt call read)
  | accept {attempt : Nat} {userId : UserId} {tokenHash : Digest} :
      Enters s c (.accept attempt userId tokenHash)
  | acceptChecked {attempt : Nat} {userId : UserId} {tokenHash : Digest} {now : Time}
      {i : Invitation} : acceptCheck now userId tokenHash s.db = .ok (.proceed i) →
      (∀ j, s.db.invitationOf tokenHash = some j → s.InvitationFree j.id) →
      Enters s c (.acceptChecked attempt userId tokenHash now i)
  | acceptLocated {attempt : Nat} {userId : UserId} {tokenHash : Digest} {checkedAt : Time}
      {i : Invitation} : s.calls c = some (.acceptChecked attempt userId tokenHash checkedAt i) →
      Enters s c (.acceptLocated attempt userId tokenHash checkedAt i
        ⟨s.db.findPair userId i.inviterId, i.inviterId⟩)
  | email {req : EmailRequest} : Enters s c (.email req)
  | emailUserLocked {req : EmailRequest} : s.Unlocked c Phase.userLock req.inviterId →
      Enters s c (.emailUserLocked req)
  | emailLocked {req : EmailRequest} : s.calls c = some (.emailUserLocked req) →
      s.Unlocked c Phase.recipientLock req.recipientEmailHash → Enters s c (.emailLocked req)
  | emailCounted {req : EmailRequest} : s.calls c = some (.emailLocked req) →
      Enters s c (.emailCounted req (s.db.countPerUser req))
  | emailAllowed {req : EmailRequest} {perUser : Nat} :
      s.calls c = some (.emailCounted req perUser) →
      withinEmailLimits perUser (s.db.countPerRecipient req) → Enters s c (.emailAllowed req)

theorem Step.calls_of_settle {c : CallId} {attempt : Nat} {again : Phase}
    {r : Except TxFailure SocialDb} {reply : Reply} (ha : s.Enters c again)
    (h : s.settle c attempt again r = (s', reply)) :
    ∃ p, s'.calls = Function.update s.calls c p ∧
      ∀ q, p = some q → s.Enters c q ∧ s'.db = s.db := by
  rcases settle_eq h with ⟨db, -, -, rfl⟩ | ⟨-, p, hp, rfl⟩
  · exact ⟨none, rfl, fun q hq => nomatch hq⟩
  · refine ⟨p, rfl, fun q hq => ⟨?_, rfl⟩⟩
    rcases hp with rfl | rfl
    · cases hq
    · cases hq
      exact ha

/-- **A step moves at most one call, into a phase it may enter; nothing commits when a call goes
on.** -/
theorem Step.calls (h : Step s op s') :
    s'.calls = s.calls ∨ ∃ c p, s'.calls = Function.update s.calls c p ∧
      ∀ q, p = some q → s.Enters c q ∧ s'.db = s.db := by
  have hmove : ∀ c q, s.Enters c q → ∃ c' p, (s.moveOn c (some q)).calls =
      Function.update s.calls c' p ∧
        ∀ r, p = some r → s.Enters c' r ∧ (s.moveOn c (some q)).db = s.db :=
    fun c q hq => ⟨c, some q, rfl, fun r hr => by cases hr; exact ⟨hq, rfl⟩⟩
  have hend : ∀ c, ∃ c' p, (s.moveOn c none).calls = Function.update s.calls c' p ∧
        ∀ r, p = some r → s.Enters c' r ∧ (s.moveOn c none).db = s.db :=
    fun c => ⟨c, none, rfl, fun r hr => nomatch hr⟩
  cases h with
  | register | createLink | revoke | resolve | emailFailed | cleanup => exact Or.inl rfl
  | friend => exact Or.inr (hmove _ _ .friend)
  | @friendLocate c attempt call hc =>
    refine Or.inr ?_
    cases hr : locate s.db call.actorId call.target with
    | error e => exact hend c
    | ok read => exact hmove _ _ (.friendLocated hr)
  | @friendWrite _ c _ _ _ _ newId _ hc hfresh hs =>
    obtain ⟨p, hp, hq⟩ := calls_of_settle (s := { s with spent := newId :: s.spent }) .friend hs
    exact Or.inr ⟨c, p, hp, fun q h => ⟨by cases (hq q h).1 <;> constructor <;> assumption, (hq q h).2⟩⟩
  | accept => exact Or.inr (hmove _ _ .accept)
  | @acceptLock c attempt userId tokenHash now check hc hfree hcheck =>
    refine Or.inr ?_
    cases hr : acceptCheck now userId tokenHash s.db with
    | error e => subst hcheck; rw [hr]; exact hend c
    | ok r =>
      subst hcheck
      rw [hr]
      cases r with
      | already o => exact hend c
      | proceed i => exact hmove _ _ (.acceptChecked hr hfree)
  | acceptLocate hc => exact Or.inr (hmove _ _ (.acceptLocated hc))
  | @acceptWrite _ c _ _ _ _ _ _ _ newId _ _ hc hfresh hs =>
    obtain ⟨p, hp, hq⟩ := calls_of_settle (s := { s with spent := newId :: s.spent }) .accept hs
    exact Or.inr ⟨c, p, hp, fun q h => ⟨by cases (hq q h).1 <;> constructor <;> assumption, (hq q h).2⟩⟩
  | email => exact Or.inr (hmove _ _ .email)
  | emailLockUser hc hfree => exact Or.inr (hmove _ _ (.emailUserLocked hfree))
  | emailLockRecipient hc hfree => exact Or.inr (hmove _ _ (.emailLocked hc hfree))
  | emailCountUser hc => exact Or.inr (hmove _ _ (.emailCounted hc))
  | @emailCountRecipient c req perUser hc =>
    refine Or.inr ?_
    by_cases hok : withinEmailLimits perUser (s.db.countPerRecipient req)
    · rw [if_pos hok]
      exact hmove _ _ (.emailAllowed hc hok)
    · rw [if_neg hok]
      exact hend c
  | emailInsert hc => exact Or.inr ⟨_, none, rfl, fun r hr => nomatch hr⟩
  | crash => exact Or.inr (hend _)

/-- No two calls hold one lock. -/
def Exclusive {κ : Type} (s : Social) (lock : Phase → Option κ) : Prop :=
  ∀ c c' p p' k, s.calls c = some p → s.calls c' = some p' → lock p = some k → lock p' = some k →
    c = c'

/-- **A lock stays exclusive** when a call enters a phase that holds it only where nobody else
does. -/
theorem Step.exclusive {κ : Type} {lock : Phase → Option κ} (h : Step s op s')
    (hx : s.Exclusive lock)
    (henter : ∀ c q k, s.Enters c q → lock q = some k → s.Unlocked c lock k) :
    s'.Exclusive lock := by
  intro c c' p p' k hc hc' hl hl'
  rcases h.calls with hcalls | ⟨c₀, p₀, hcalls, hq⟩
  · rw [hcalls] at hc hc'
    exact hx c c' p p' k hc hc' hl hl'
  · rw [hcalls, Function.update_apply] at hc hc'
    split at hc
    next hcc =>
      split at hc'
      next hcc' => rw [hcc, hcc']
      · rw [hcc]
        exact (henter c₀ p k (hq p hc).1 hl c' p' hc' hl').symm
    · split at hc'
      next hcc' =>
        rw [hcc']
        exact henter c₀ p' k (hq p' hc').1 hl' c p hc hl
      · exact hx c c' p p' k hc hc' hl hl'

/-- No identifier of a friendship is offered twice. -/
theorem Step.spent (h : Step s op s') : ∀ id ∈ s.spent, id ∈ s'.spent := by
  cases h with
  | friendWrite hc hfresh hend | acceptWrite hc hfresh hend =>
    intro id hid
    rcases settle_eq hend with ⟨db, -, -, rfl⟩ | ⟨-, p, -, rfl⟩ <;>
      exact List.mem_cons_of_mem _ hid
  | _ => exact fun id hid => hid

end Social

end Bookswap
