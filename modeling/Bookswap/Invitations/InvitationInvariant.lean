import Bookswap.Friends.PairInvariant

/-!
# Invitations and their uses stay sound

The number of acceptance rows of an invitation is its use count. A call that has locked the
invitation's row and found it usable keeps that true until its own write: nobody revokes,
clears or accepts the locked row in between.

- `Social.Checked`: what a lock holder knows, at the write as at the read.
- `Social.InvitesSound`, `invitesSound`: the invariant of a run.
- `Step.accepts`: an acceptance changes nothing, or writes the friendship and one row.
-/

namespace Bookswap

open Store Checked

/-! ## What steps do to invitations and acceptances -/

namespace Phase

/-- Who accepts which locked invitation, found usable when. -/
def checked : Phase → Option (UserId × Time × Invitation)
  | .acceptChecked _ userId _ checkedAt i | .acceptLocated _ userId _ checkedAt i _ =>
    some (userId, checkedAt, i)
  | _ => none

theorem invitationLock_eq {p : Phase} {id : InvitationId} :
    p.invitationLock = some id ↔ ∃ u t i, p.checked = some (u, t, i) ∧ i.id = id := by
  cases p <;> simp [invitationLock, checked]

end Phase

theorem SocialDb.acceptancesOf_congr {db db' : SocialDb} (h : db'.acceptances = db.acceptances)
    (id : InvitationId) : db'.acceptancesOf id = db.acceptancesOf id := by
  unfold SocialDb.acceptancesOf
  rw [h]

/-- An invitation between friends writes nothing; any other makes them friends. -/
theorem Written.of_invite {now : Time} {newId : FriendshipId} {actorId : UserId}
    {read : Located} {db db' : SocialDb} {accepted : Option AcceptedPair}
    (h : Written now newId actorId read .invite db db' accepted) :
    (accepted = none ∧ db' = db) ∨ accepted ≠ none := by
  generalize ha : FriendshipAction.invite = action at h
  cases h with
  | created hne _ hrule =>
    subst ha
    cases hrule
    exact Or.inr (Option.some_ne_none _)
  | unchanged => exact Or.inl ⟨rfl, rfl⟩
  | deleted hremove =>
    rw [← ha] at hremove
    cases hremove
  | updated _ hrule =>
    subst ha
    cases hrule with
    | answer h => rcases h with h | h <;> cases h
    | invite => exact Or.inr (Option.some_ne_none _)

namespace Social

variable {s s' : Social} {op : SocialOp}

/-- The commit of an acceptance that spends a use. -/
structure Accepts (s : Social) (op : SocialOp) (s' : Social) (c : CallId) (userId : UserId)
    (checkedAt : Time) (i : Invitation) (read : Located) (acceptanceId : AcceptanceId)
    (db : SocialDb) : Prop where
  call : ∃ attempt tokenHash,
    s.calls c = some (.acceptLocated attempt userId tokenHash checkedAt i read)
  op : ∃ now newId, op = .acceptWrite c now newId acceptanceId .done ∧
    ∃ accepted, accepted ≠ none ∧ Written now newId userId read .invite s.db db accepted
  first : ∀ b ∈ s.db.acceptances, b.invitationId = i.id → b.userId ≠ userId
  inserted : ∃ t, s.db.acceptances.insert ⟨acceptanceId, i.id, userId⟩ = some t ∧
    s'.db = { db with acceptances := t }
  ended : s'.calls c = none

/-- **An acceptance changes nothing, or spends a use and makes friends.** -/
theorem Step.accepts {c : CallId} {now : Time} {newId : FriendshipId}
    {acceptanceId : AcceptanceId} {reply : Reply}
    (h : Step s (.acceptWrite c now newId acceptanceId reply) s') :
    s'.db = s.db ∨ ∃ userId checkedAt i read db,
      s.Accepts (.acceptWrite c now newId acceptanceId reply) s' c userId checkedAt i read
        acceptanceId db := by
  cases h with
  | @acceptWrite _ _ attempt userId tokenHash checkedAt i read _ _ _ _ hc hfresh hend =>
    rcases settle_eq hend with ⟨db, hr, rfl, rfl⟩ | ⟨-, p, -, rfl⟩
    · obtain ⟨⟨db', outcome⟩, htx, rfl⟩ := map_eq_ok.mp hr
      obtain ⟨db₁, accepted, hw, hrest⟩ := acceptWrite_eq_ok htx
      rcases hrest with ⟨hnone, rfl⟩ | ⟨t, hsome, hfirst, ht, rfl⟩
      · rcases hw.of_invite with ⟨-, heq⟩ | hne
        · exact Or.inl heq
        · exact absurd hnone hne
      · exact Or.inr ⟨userId, checkedAt, i, read, db₁, ⟨attempt, tokenHash, hc⟩,
          ⟨now, newId, rfl, accepted, hsome, hw⟩, hfirst, ⟨t, ht, rfl⟩, by simp [moveOn_calls]⟩
    · exact Or.inl rfl

/-- Acceptance rows are written by acceptances alone. -/
theorem Step.acceptances (h : Step s op s') :
    s'.db.acceptances = s.db.acceptances ∨
      ∃ c userId checkedAt i read acceptanceId db,
        s.Accepts op s' c userId checkedAt i read acceptanceId db := by
  cases h with
  | acceptWrite hc hfresh hend =>
    rcases Step.accepts (.acceptWrite hc hfresh hend) with hsame | ⟨u, t, i, read, db, ha⟩
    · exact Or.inl (congrArg SocialDb.acceptances hsame)
    · exact Or.inr ⟨_, u, t, i, read, _, db, ha⟩
  | friendWrite hc hfresh hend =>
    rcases settle_eq hend with ⟨db, hr, -, rfl⟩ | ⟨-, p, -, rfl⟩
    · obtain ⟨⟨db₁, outcome⟩, htx, rfl⟩ := map_eq_ok.mp hr
      exact Or.inl (transitionIn_eq_ok htx).acceptances
    · exact Or.inl rfl
  | createLink _ hins | emailInsert _ _ hins =>
    unfold SocialDb.insertInvitation at hins
    split at hins
    · cases hins
    · split at hins
      · cases hins
      · cases hins
        exact Or.inl rfl
  | revoke _ hok =>
    obtain ⟨_, -, hret⟩ := bind_eq_ok.mp hok
    obtain rfl := pure_eq_ok.mp hret
    exact Or.inl rfl
  | _ => exact Or.inl rfl

/-- An edit of invitations in place: whose they are, how often they may be used and when they
were made stays; the address is forgotten only by a clean-up; nothing is edited under a lock. -/
structure Edits (s : Social) (op : SocialOp) (s' : Social) (p : Invitation → Bool)
    (f : Table.Edit Invitation.id) : Prop where
  no_letter : op.letter = none
  rows : s'.db.invitations = s.db.invitations.updateWhere p f
  maxUses : ∀ i, (f i).maxUses = i.maxUses
  issue : ∀ i, (f i).inviterId = i.inviterId ∧ (f i).kind = i.kind ∧ (f i).createdAt = i.createdAt
  address : ∀ i, p i → (f i).recipientEmailHash = i.recipientEmailHash ∨
    (f i).recipientEmailHash = none ∧
      ∃ now, op = .cleanup now ∧ i.createdAt ≤ now - EMAIL_RECIPIENT_LIMIT_WINDOW_MS
  free : ∀ i ∈ s.db.invitations, p i → s.InvitationFree i.id

/-- An invitation that a step adds: a link, or the letter of the step. -/
inductive Adds : SocialOp → Invitation → Prop
  | link {now : Time} {inviterId : UserId} {id : InvitationId} {tokenHash : Digest}
      {createdAt : Time} : Adds (.createLink now inviterId id tokenHash createdAt)
        (linkInvitation now inviterId id tokenHash createdAt)
  | letter {c : CallId} {req : EmailRequest} {id : InvitationId} {tokenHash : Digest}
      {createdAt : Time} : Adds (.emailInsert c req id tokenHash createdAt)
        (emailInvitation req id tokenHash createdAt)

theorem insertInvitation_eq_ok {db db' : SocialDb} {i : Invitation}
    (h : db.insertInvitation i = .ok db') :
    ∃ t, db.invitations.insert i = some t ∧ db' = { db with invitations := t } := by
  unfold SocialDb.insertInvitation at h
  split at h
  · cases h
  · split at h
    · cases h
    next t ht =>
      cases h
      exact ⟨t, ht, rfl⟩

/-- **Invitations are added under a new identifier, or edited in place.** -/
theorem Step.invitations (h : Step s op s') :
    (∃ j, Adds op j ∧ s.db.invitations.insert j = some s'.db.invitations) ∨
      ∃ p f, s.Edits op s' p f := by
  have hsame : op.letter = none → s'.db.invitations = s.db.invitations →
      ∃ p f, s.Edits op s' p f := fun hl heq =>
    ⟨fun _ => false, forgetHash, hl, heq.trans (Table.updateWhere_eq_self fun _ _ => rfl).symm,
      fun _ => rfl, fun _ => ⟨rfl, rfl, rfl⟩, (fun _ hp => nomatch hp),
      (fun _ _ hp => nomatch hp)⟩
  cases h with
  | friendWrite hc hfresh hend =>
    refine Or.inr (hsame rfl ?_)
    rcases settle_eq hend with ⟨db, hr, -, rfl⟩ | ⟨-, p, -, rfl⟩
    · obtain ⟨⟨db₁, outcome⟩, htx, rfl⟩ := map_eq_ok.mp hr
      exact (transitionIn_eq_ok htx).invitations
    · rfl
  | acceptWrite hc hfresh hend =>
    refine Or.inr (hsame rfl ?_)
    rcases Step.accepts (.acceptWrite hc hfresh hend) with heq | ⟨u, t, i, read, db, ha⟩
    · exact congrArg SocialDb.invitations heq
    · obtain ⟨_, _, -, _, -, hw⟩ := ha.op
      obtain ⟨_, -, heq⟩ := ha.inserted
      rw [heq]
      exact hw.invitations
  | createLink _ hins =>
    obtain ⟨t, ht, rfl⟩ := insertInvitation_eq_ok hins
    exact Or.inl ⟨_, .link, ht⟩
  | emailInsert _ _ hins =>
    obtain ⟨t, ht, rfl⟩ := insertInvitation_eq_ok hins
    exact Or.inl ⟨_, .letter, ht⟩
  | @revoke now inviterId id db hfree hok =>
    obtain ⟨_, -, hret⟩ := bind_eq_ok.mp hok
    obtain rfl := pure_eq_ok.mp hret
    refine Or.inr ⟨_, revokeEdit now, rfl, rfl, fun _ => rfl, fun _ => ⟨rfl, rfl, rfl⟩,
      fun _ _ => Or.inl rfl, fun i _ hp => ?_⟩
    have hid : i.id = id := (of_decide_eq_true hp).1
    rwa [hid]
  | @emailFailed now id hfree =>
    refine Or.inr ⟨_, revokeEdit now, rfl, rfl, fun _ => rfl, fun _ => ⟨rfl, rfl, rfl⟩,
      fun _ _ => Or.inl rfl, fun i _ hp => ?_⟩
    have hid : i.id = id := of_decide_eq_true hp
    rwa [hid]
  | @cleanup now hfree =>
    refine Or.inr ⟨_, forgetHash, rfl, rfl, fun _ => rfl, fun _ => ⟨rfl, rfl, rfl⟩,
      fun i hp => Or.inr ⟨rfl, now, rfl, ?_⟩, fun i hi hp => hfree i hi hp⟩
    exact (of_decide_eq_true hp).2.2
  | _ => exact Or.inr (hsame rfl rfl)

/-! ## The invariant -/

/-- What the holder of an invitation's lock has found, and still is so. -/
structure Checked (s : Social) (userId : UserId) (checkedAt : Time) (i : Invitation) : Prop where
  stored : i ∈ s.db.invitations
  other : i.inviterId ≠ userId
  active : invitationStatusOf (s.db.factsOf i) checkedAt = .active
  first : ∀ a ∈ s.db.acceptancesOf i.id, a.userId ≠ userId

/-- The invariant of invitations. -/
structure InvitesSound (s : Social) : Prop where
  uses : ∀ i ∈ s.db.invitations, (s.db.acceptancesOf i.id).length ≤ i.maxUses
  once : ∀ a ∈ s.db.acceptances, ∀ b ∈ s.db.acceptances, a.invitationId = b.invitationId →
    a.userId = b.userId → a = b
  known : ∀ a ∈ s.db.acceptances, ∃ i ∈ s.db.invitations, i.id = a.invitationId
  exclusive : s.Exclusive Phase.invitationLock
  checked : ∀ c p u t i, s.calls c = some p → p.checked = some (u, t, i) → s.Checked u t i
  located : ∀ c attempt u tokenHash t i read,
    s.calls c = some (.acceptLocated attempt u tokenHash t i read) →
      read.otherId = i.inviterId ∧ ∀ f, read.friendship = some f → f.Joins u i.inviterId

/-! ## Steps keep it -/

/-- Under a lock the invitation's row stays as it is, and so do its uses. -/
theorem InvitesSound.frame (h : s.InvitesSound) (hs : Step s op s') {c : CallId} {p p' : Phase}
    {u : UserId} {t : Time} {i : Invitation} (hc : s.calls c = some p) (hc' : s'.calls c = some p')
    (hp : p.checked = some (u, t, i)) : s'.Checked u t i := by
  have hk := h.checked c p u t i hc hp
  have hlock : p.invitationLock = some i.id := Phase.invitationLock_eq.mpr ⟨u, t, i, hp, rfl⟩
  have hstored : i ∈ s'.db.invitations := by
    rcases hs.invitations with ⟨j, -, hins⟩ | ⟨q, f, he⟩
    · exact (Table.mem_insert hins).mpr (Or.inl hk.stored)
    · rw [he.rows]
      refine Table.mem_updateWhere.mpr ⟨i, hk.stored, if_neg fun hq => ?_⟩
      exact he.free i hk.stored hq c p hc hlock
  have huses : s'.db.acceptancesOf i.id = s.db.acceptancesOf i.id := by
    rcases hs.acceptances with hsame | ⟨c₀, u₀, t₀, i₀, read, aid, db, ha⟩
    · exact SocialDb.acceptancesOf_congr hsame i.id
    · obtain ⟨attempt, tokenHash, hcall⟩ := ha.call
      obtain ⟨acceptances, hins, hdb⟩ := ha.inserted
      have hne : i₀.id ≠ i.id := by
        intro hid
        have hcc : c = c₀ := h.exclusive c c₀ p _ i.id hc hcall hlock (congrArg some hid)
        rw [hcc, ha.ended] at hc'
        cases hc'
      rw [hdb]
      show acceptances.rows.filter _ = _
      rw [Table.rows_insert hins, List.filter_append]
      simp [SocialDb.acceptancesOf, hne]
  refine ⟨hstored, hk.other, ?_, ?_⟩
  · have hfacts : s'.db.factsOf i = s.db.factsOf i := by
      unfold SocialDb.factsOf
      rw [huses]
    rw [hfacts]
    exact hk.active
  · rw [huses]
    exact hk.first

/-- A call that enters the locked phase has just found the invitation usable. -/
theorem Enters.checked (h : s.InvitesSound) {c : CallId} {q : Phase} (hq : s.Enters c q)
    {u : UserId} {t : Time} {i : Invitation} (hp : q.checked = some (u, t, i)) :
    s.Checked u t i := by
  cases hq with
  | @acceptChecked _ userId tokenHash now i hcheck _ =>
    cases hp
    obtain ⟨row, hrow, hrest⟩ := bind_eq_ok.mp hcheck
    obtain ⟨_, hself, hend⟩ := bind_eq_ok.mp hrest
    have hmem : row ∈ s.db.invitations := List.mem_of_find?_eq_some (orThrow_eq_ok.mp hrow)
    split at hend
    · cases hend
    next hfirst =>
      split at hend
      · cases hend
      · cases hend
      · cases hend
      next hactive =>
        obtain rfl := AcceptCheck.proceed.inj (pure_eq_ok.mp hend)
        exact ⟨hmem, throwIf_eq_ok.mp hself, hactive, fun a ha hu => hfirst ⟨a, ha, hu⟩⟩
  | acceptLocated hc =>
    cases hp
    exact h.checked _ _ _ _ _ hc rfl
  | _ => cases hp

/-- Nobody else holds the lock that a call takes. -/
theorem Enters.exclusive (h : s.InvitesSound) {c : CallId} {q : Phase} (hq : s.Enters c q)
    {id : InvitationId} (hl : q.invitationLock = some id) :
    s.Unlocked c Phase.invitationLock id := by
  intro c' p' hc' hl'
  cases hq with
  | @acceptChecked _ userId tokenHash now i hcheck hfree =>
    cases hl
    obtain ⟨row, hrow, hrest⟩ := bind_eq_ok.mp hcheck
    obtain ⟨_, -, hend⟩ := bind_eq_ok.mp hrest
    have hid : row = i := by
      split at hend
      · cases hend
      · split at hend
        · cases hend
        · cases hend
        · cases hend
        · exact AcceptCheck.proceed.inj (pure_eq_ok.mp hend)
    rw [← hid] at hl'
    exact absurd hl' (hfree row (orThrow_eq_ok.mp hrow) c' p' hc')
  | acceptLocated hc =>
    cases hl
    exact h.exclusive c' c p' _ _ hc' hc hl' rfl
  | _ => cases hl

/-- An acceptance leaves the invitations as they are. -/
theorem Accepts.invitations {c : CallId} {u : UserId} {t : Time} {i : Invitation}
    {read : Located} {aid : AcceptanceId} {db : SocialDb}
    (ha : s.Accepts op s' c u t i read aid db) : s'.db.invitations = s.db.invitations := by
  obtain ⟨_, _, -, _, -, hw⟩ := ha.op
  obtain ⟨_, -, heq⟩ := ha.inserted
  rw [heq]
  exact hw.invitations

/-- The uses of an invitation after an acceptance: one more of the accepted one. -/
theorem Accepts.acceptancesOf {c : CallId} {u : UserId} {t : Time} {i : Invitation}
    {read : Located} {aid : AcceptanceId} {db : SocialDb}
    (ha : s.Accepts op s' c u t i read aid db) (id : InvitationId) :
    s'.db.acceptancesOf id =
      s.db.acceptancesOf id ++ if i.id = id then [⟨aid, i.id, u⟩] else [] := by
  obtain ⟨acceptances, hins, hdb⟩ := ha.inserted
  rw [hdb]
  show acceptances.rows.filter _ = _
  rw [Table.rows_insert hins, List.filter_append]
  by_cases hid : i.id = id <;> simp [SocialDb.acceptancesOf, hid]

theorem InvitesSound.uses_step (h : s.InvitesSound) (hs : Step s op s') {j : Invitation}
    (hj : j ∈ s'.db.invitations) : (s'.db.acceptancesOf j.id).length ≤ j.maxUses := by
  rcases hs.acceptances with hsame | ⟨c, u, t, i, read, aid, db, ha⟩
  · rw [SocialDb.acceptancesOf_congr hsame]
    rcases hs.invitations with ⟨new, -, hins⟩ | ⟨p, f, he⟩
    · rcases (Table.mem_insert hins).mp hj with hold | rfl
      · exact h.uses j hold
      · -- nobody can have accepted what did not exist
        have hnone : s.db.acceptancesOf j.id = [] := by
          refine List.filter_eq_nil_iff.mpr fun a ha hid => ?_
          obtain ⟨i, hi, hia⟩ := h.known a ha
          exact Table.fresh_of_insert hins i hi (hia.trans (of_decide_eq_true hid))
        rw [hnone]
        exact Nat.zero_le _
    · rw [he.rows] at hj
      obtain ⟨i, hi, rfl⟩ := Table.mem_updateWhere.mp hj
      by_cases hp : p i
      · rw [if_pos hp, f.keeps, he.maxUses]
        exact h.uses i hi
      · rw [if_neg hp]
        exact h.uses i hi
  · obtain ⟨attempt, tokenHash, hcall⟩ := ha.call
    have hk := h.checked c _ u t i hcall rfl
    rw [ha.invitations] at hj
    rw [ha.acceptancesOf, List.length_append]
    by_cases hid : i.id = j.id
    · obtain rfl := Table.eq_of_key_eq hk.stored hj hid
      have hlt : (s.db.acceptancesOf i.id).length < i.maxUses :=
        (invitationStatusOf_eq_active.mp hk.active).2.2
      rw [if_pos rfl]
      exact hlt
    · rw [if_neg hid]
      exact h.uses j hj

theorem InvitesSound.step (h : s.InvitesSound) (hs : Step s op s') : s'.InvitesSound where
  uses _ hj := h.uses_step hs hj
  once := by
    rcases hs.acceptances with hsame | ⟨c, u, t, i, read, aid, db, ha⟩
    · rw [hsame]
      exact h.once
    · obtain ⟨acceptances, hins, hdb⟩ := ha.inserted
      rw [hdb]
      intro a hma b hmb hi hu
      rcases (Table.mem_insert hins).mp hma with hma | rfl
      · rcases (Table.mem_insert hins).mp hmb with hmb | rfl
        · exact h.once a hma b hmb hi hu
        · exact absurd hu (ha.first a hma hi)
      · rcases (Table.mem_insert hins).mp hmb with hmb | rfl
        · exact absurd hu.symm (ha.first b hmb hi.symm)
        · rfl
  known := by
    have hkeep : ∀ i ∈ s.db.invitations, ∃ j ∈ s'.db.invitations, j.id = i.id := by
      intro i hi
      rcases hs.invitations with ⟨new, -, hins⟩ | ⟨p, f, he⟩
      · exact ⟨i, (Table.mem_insert hins).mpr (Or.inl hi), rfl⟩
      · rw [he.rows]
        refine ⟨_, Table.mem_updateWhere.mpr ⟨i, hi, rfl⟩, ?_⟩
        by_cases hp : p i
        · rw [if_pos hp]
          exact f.keeps i
        · rw [if_neg hp]
    intro a hma
    rcases hs.acceptances with hsame | ⟨c, u, t, i, read, aid, db, ha⟩
    · rw [hsame] at hma
      obtain ⟨i, hi, hid⟩ := h.known a hma
      obtain ⟨j, hj, hjd⟩ := hkeep i hi
      exact ⟨j, hj, hjd.trans hid⟩
    · obtain ⟨acceptances, hins, hdb⟩ := ha.inserted
      rw [hdb] at hma
      rcases (Table.mem_insert hins).mp hma with hma | rfl
      · obtain ⟨i, hi, hid⟩ := h.known a hma
        obtain ⟨j, hj, hjd⟩ := hkeep i hi
        exact ⟨j, hj, hjd.trans hid⟩
      · obtain ⟨attempt, tokenHash, hcall⟩ := ha.call
        exact hkeep i (h.checked c _ u t i hcall rfl).stored
  exclusive := hs.exclusive h.exclusive fun _ _ _ hq hl => hq.exclusive h hl
  checked := by
    intro c p u t i hc hp
    rcases hs.calls with hcalls | ⟨c₀, p₀, hcalls, henter⟩
    · exact h.frame hs (hcalls ▸ hc) hc hp
    · have hc₀ := hc
      rw [hcalls, Function.update_apply] at hc₀
      split at hc₀
      · obtain ⟨hq, hdb⟩ := henter p hc₀
        have hk := hq.checked h hp
        refine ⟨hdb ▸ hk.stored, hk.other, ?_, ?_⟩
        · rw [hdb]
          exact hk.active
        · rw [hdb]
          exact hk.first
      · exact h.frame hs hc₀ hc hp
  located := by
    intro c attempt u tokenHash t i read hc
    rcases hs.calls with hcalls | ⟨c₀, p₀, hcalls, henter⟩
    · rw [hcalls] at hc
      exact h.located c attempt u tokenHash t i read hc
    · rw [hcalls, Function.update_apply] at hc
      split at hc
      · obtain ⟨hq, -⟩ := henter _ hc
        cases hq
        refine ⟨rfl, fun f hf => ?_⟩
        exact .of_pair (SocialDb.findPair_eq_some hf).2.2
      · exact h.located c attempt u tokenHash t i read hc

end Social

end Bookswap
