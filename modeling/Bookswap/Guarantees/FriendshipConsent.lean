import Bookswap.Guarantees.FriendshipPair

/-!
# Who consents to a friendship

A conditional update compares a row's identifier and status, not whose request it is. So a
request that was declined and then made again from the other side still has both when an
earlier `accept` reaches its write, and that write makes a friend of whoever asked last.

- `Social.Consents`: a write of `request` or `accept` that makes a pending row a friendship is
  not by the one whose request the stored row is.
- `Social.Unreversed`: the stored row still is a request of whom it was when it was read.
- `consents_iff_unreversed`: the first holds of a step exactly when the second does.
- `consents_reversed`: the run in which it does not.
-/

namespace Bookswap

open Store Checked

namespace Social

/-- Nobody becomes a friend by answering their own request. -/
def Consents (s : Social) (op : SocialOp) (s' : Social) : Prop :=
  ∀ actorId action, s.Acts op actorId action → action = .request ∨ action = .accept →
    ∀ f ∈ s.db.friendships, f.status = .pending →
      ∀ g ∈ s'.db.friendships, g.id = f.id → g.status = .accepted → f.requestedById ≠ actorId

/-- The pending row that a `request` or `accept` would answer is still of the requester it had
when it was read. -/
def Unreversed (s : Social) (op : SocialOp) : Prop :=
  ∀ actorId action read, s.ActsOn op actorId action read → action = .request ∨ action = .accept →
    ∀ r, read.friendship = some r → r.status = .pending → r.requestedById ≠ actorId →
      ∀ f ∈ s.db.friendships, r.stillAs f → f.requestedById = r.requestedById

variable {s s' : Social} {op : SocialOp}

/-- Of two members of a pair neither of whom is the actor, one is the other. -/
theorem eq_of_members {f : Friendship} {a x y : UserId} (ha : f.isMember a = true)
    (hx : f.isMember x = true) (hy : f.isMember y = true) (hxa : x ≠ a) (hya : y ≠ a) : x = y := by
  rw [Friendship.isMember_iff] at ha hx hy
  rcases ha with rfl | rfl <;> rcases hx with rfl | rfl <;> rcases hy with rfl | rfl <;>
    first
    | rfl
    | exact absurd rfl hxa
    | exact absurd rfl hya

/-- A row that was pending and is accepted after the step was answered on what was read. -/
theorem Step.answered (hs : Step s op s') {f g : FriendshipRow}
    (hf : f ∈ s.db.friendships) (hp : f.status = .pending) (hg : g ∈ s'.db.friendships)
    (hid : g.id = f.id) (ha : g.status = .accepted) :
    ∃ actorId action read r, s.ActsOn op actorId action read ∧ read.friendship = some r ∧
      UpdateRule r.toFriendship actorId action .accepted ∧ r.stillAs f := by
  rcases hs.friendships with hsame | ⟨actorId, action, read, now, newId, db, accepted, hw⟩
  · rw [hsame] at hg
    rw [Table.eq_of_key_eq hg hf hid, hp] at ha
    cases ha
  · rw [hw.friendships] at hg
    rcases hw.written.kept hf with hkept | ⟨-, -, -, -, -, hgone⟩ |
      ⟨r, status, hread, hrule, hstill, hkept⟩
    · rw [Table.eq_of_key_eq hg hkept hid, hp] at ha
      cases ha
    · exact absurd hid (hgone g hg)
    · obtain rfl := Table.eq_of_key_eq hg hkept hid
      obtain rfl : status = .accepted := ha
      exact ⟨actorId, action, read, r, hw.actsOn, hread, hrule, hstill⟩

/-- Only one call writes in a step, and on one row that it read. -/
theorem ActsOn.unique {a a' : UserId} {x x' : FriendshipAction} {read read' : Located}
    (h : s.ActsOn op a x read) (h' : s.ActsOn op a' x' read') : a = a' ∧ x = x' ∧ read = read' := by
  obtain ⟨c, now, newId, p, hop, hc, hp⟩ := h
  obtain ⟨c', now', newId', p', hop', hc', hp'⟩ := h'
  rw [hop] at hop'
  obtain ⟨rfl, -⟩ := Prod.mk.inj (Option.some.inj hop')
  rw [hc] at hc'
  obtain rfl := Option.some.inj hc'
  rw [hp] at hp'
  obtain ⟨rfl, h'⟩ := Prod.mk.inj (Option.some.inj hp')
  obtain ⟨rfl, rfl⟩ := Prod.mk.inj h'
  exact ⟨rfl, rfl, rfl⟩

/-- **An unreversed request is answered by the other side.** -/
theorem Step.consents (hs : Step s op s') (hu : s.Unreversed op) : s.Consents op s' := by
  rintro actorId action ⟨read₀, hacts⟩ haction f hf hp g hg hid ha
  obtain ⟨actorId', action', read, r, hacts', hread, hrule, hstill⟩ :=
    hs.answered hf hp hg hid ha
  obtain ⟨rfl, rfl, rfl⟩ := hacts.unique hacts'
  have hrp : r.status = .pending := (FriendshipRow.stillAs_iff.mp hstill).2.symm.trans hp
  cases hrule with
  | answer _ _ hreq =>
    rw [hu _ _ _ hacts haction r hread hrp hreq f hf hstill]
    exact hreq
  | invite => rcases haction with h | h <;> cases h

/-- The state machine lets the other side answer, by either word. -/
theorem decideTransition_answer {read : Located} {r : FriendshipRow} {actorId : UserId}
    {action : FriendshipAction} (hread : read.friendship = some r) (hp : r.status = .pending)
    (hreq : r.requestedById ≠ actorId) (haction : action = .request ∨ action = .accept) :
    decideTransition read actorId action = .update .accepted := by
  have hrole : actorRoleOf read.pair actorId = .recipient := by
    rw [Located.pair, hread]
    exact actorRoleOf_eq_recipient.mpr ⟨by rw [hp]; decide, hreq⟩
  have hstate : stateOf read.pair = .of .pending := by
    rw [Located.pair, hread]
    exact congrArg FriendshipState.of hp
  unfold decideTransition
  rw [hrole, hstate]
  rcases haction with rfl | rfl <;> rfl

/-- An answer to a row that still has its identifier and status is written. -/
theorem transitionIn_answer (now : Time) (newId : FriendshipId) {db : SocialDb} {read : Located}
    {r f : FriendshipRow} {actorId : UserId} {action : FriendshipAction}
    (hread : read.friendship = some r) (hp : r.status = .pending) (hreq : r.requestedById ≠ actorId)
    (haction : action = .request ∨ action = .accept) (hf : f ∈ db.friendships)
    (hstill : r.stillAs f) :
    ∃ db' outcome, transitionIn now newId actorId read action db = .ok (db', outcome) ∧
      updatedFriendship now actorId r .accepted f ∈ db'.friendships := by
  have hfind : db.friendships.find? r.id = some f := by
    rw [← (FriendshipRow.stillAs_iff.mp hstill).1]
    exact Table.find?_of_mem hf
  have hcount : db.friendships.rows.countP r.stillAs = 1 :=
    congrArg Prod.snd (Table.updateMany_of_find? (f := updatedFriendship now actorId r .accepted)
      hfind hstill fun b hb => (FriendshipRow.stillAs_iff.mp hb).1)
  unfold transitionIn
  rw [decideTransition_answer hread hp hreq haction, hread]
  simp only [hcount, ne_eq, not_true_eq_false]
  refine ⟨_, _, rfl, ?_⟩
  rw [SocialDb.notifyFriend_friendships]
  exact Table.mem_updateWhere.mpr ⟨f, hf, if_pos hstill⟩

/-- **Only an unreversed request is answered by the other side.** -/
theorem PairsSound.unreversed (h : s.PairsSound) (hs : Step s op s') (hc : s.Consents op s') :
    s.Unreversed op := by
  intro actorId action read hacts haction r hread hp hreq f hf hstill
  obtain ⟨hid, hstatus⟩ := FriendshipRow.stillAs_iff.mp hstill
  obtain ⟨c, now, newId, p, hop, hcall, hloc⟩ := hacts
  have hstands := h.reads c p _ _ _ hcall hloc r hread
  have hpair := (hstands.same f hf hid).1
  have hmember : ∀ u, r.isMember u = true → f.isMember u = true := fun u hu => by
    rw [Friendship.isMember_of_pair hpair]
    exact hu
  refine eq_of_members (hmember _ hstands.actor) (h.sound f hf).requester
    (hmember _ hstands.sound.requester) ?_ hreq
  -- the write is made, and `Consents` speaks of it
  obtain ⟨db', outcome, htx, hmem⟩ :=
    transitionIn_answer now newId hread hp hreq haction hf hstill
  have hwritten : updatedFriendship now actorId r .accepted f ∈ s'.db.friendships := by
    cases hs with
    | friendWrite hc' hfresh hend =>
      cases hop
      rw [hcall] at hc'
      obtain rfl := Option.some.inj hc'
      cases hloc
      rw [htx] at hend
      obtain ⟨rfl, -⟩ := Prod.mk.inj hend
      exact hmem
    | acceptWrite hc' hfresh hend =>
      cases hop
      rw [hcall] at hc'
      obtain rfl := Option.some.inj hc'
      cases hloc
      rcases haction with h | h <;> cases h
    | _ => cases hop
  exact hc actorId action ⟨read, c, now, newId, p, hop, hcall, hloc⟩ haction f hf
    (hstatus.trans hp) _ hwritten rfl rfl

end Social

/-- **Consent, exactly**: a step from a reachable state lets nobody answer their own request if
and only if the row it answers is still the request that was read; so in a run all of whose
steps answer such rows nobody ever does. -/
theorem consents_iff_unreversed {s : Social} {op : SocialOp} {s' : Social}
    (hs : socialSystem.step s op s') :
    (socialSystem.Reachable s → (s.Consents op s' ↔ s.Unreversed op)) ∧
      ((socialSystem.restrict fun s op _ => s.Unreversed op).Reachable s →
        s.Unreversed op → s.Consents op s') :=
  ⟨fun hr => ⟨(pairsSound hr).unreversed hs, hs.consents⟩, fun _ hu => Social.Step.consents hs hu⟩

/-! ## The reversed request -/

/-- The pair of the two people, in a state and with a requester. -/
def exampleFriendship (status : FriendshipStatus) (requestedById : UserId)
    (respondedAt : Option Time) : FriendshipRow :=
  ⟨⟨1, 2, by decide, status, requestedById, none⟩, 100, respondedAt⟩

/-- The two people with that row, and the notices sent so far. -/
def examplePair (f : FriendshipRow) (notices : List FriendNotification) : SocialDb :=
  ⟨[1, 2], ⟨[f], by simp⟩, notices, .empty, .empty⟩

/-- 1 has asked, and 2 has opened `accept` and read the row. -/
def openedRequest : Social :=
  let asked := exampleFriendship .pending 1 none
  let s₀ := ((exampleSocial.moveOn 0 (some (.friend 1 ⟨1, .user 2, .request⟩))).moveOn 0
    (some (.friendLocated 1 ⟨1, .user 2, .request⟩ ⟨none, 2⟩)))
  let s₁ : Social :=
    { s₀ with db := examplePair asked [⟨2, .friendRequested, 1, 100⟩], spent := [100] }.moveOn 0 none
  (s₁.moveOn 1 (some (.friend 1 ⟨2, .request 100, .accept⟩))).moveOn 1
    (some (.friendLocated 1 ⟨2, .request 100, .accept⟩ ⟨some asked, 1⟩))

theorem openedRequest_reachable : socialSystem.Reachable openedRequest := by
  have asks := socialSystem_next (socialSystem_next exampleSocial_reachable
    (.friend 0 1 (.request 2)) (.friend rfl (by decide) rfl)) (.friendLocate 0) (.friendLocate rfl)
  have asked := socialSystem_next asks (.friendWrite 0 0 100 .done)
    (.friendWrite rfl (by decide) rfl)
  have opened := socialSystem_next (socialSystem_next asked
    (.friend 1 2 (.respond 100 .accept)) (.friend rfl (by decide) rfl))
    (.friendLocate 1) (.friendLocate rfl)
  exact opened

theorem consents_iff_unreversed_opened :
    ∃ s', socialSystem.step openedRequest (.friendWrite 1 0 101 .done) s' ∧
      openedRequest.Consents (.friendWrite 1 0 101 .done) s' := by
  have hs : openedRequest.Step (.friendWrite 1 0 101 .done) _ :=
    .friendWrite rfl (by decide) rfl
  refine ⟨_, hs, ((consents_iff_unreversed hs).1 openedRequest_reachable).mpr ?_⟩
  rintro _ _ _ ⟨c, now, newId, p, hop, hc, hp⟩ - r hr - - f hf -
  cases hop
  cases hc
  cases hp
  cases hr
  rw [List.mem_singleton.mp hf]

/-- 2 then declines elsewhere, and asks 1 themselves. -/
def reversedRequest : Social :=
  let declined := exampleFriendship .declined 1 (some 0)
  let asked : FriendNotification := ⟨2, .friendRequested, 1, 100⟩
  let s₃ := (openedRequest.moveOn 2 (some (.friend 1 ⟨2, .request 100, .decline⟩))).moveOn 2
    (some (.friendLocated 1 ⟨2, .request 100, .decline⟩ ⟨some (exampleFriendship .pending 1 none), 1⟩))
  let s₄ : Social :=
    { s₃ with db := examplePair declined [asked], spent := [101, 100] }.moveOn 2 none
  let s₅ := (s₄.moveOn 3 (some (.friend 1 ⟨2, .user 1, .request⟩))).moveOn 3
    (some (.friendLocated 1 ⟨2, .user 1, .request⟩ ⟨some declined, 1⟩))
  { s₅ with
    db := examplePair (exampleFriendship .pending 2 none) [asked, ⟨1, .friendRequested, 2, 100⟩]
    spent := [102, 101, 100] }.moveOn 3 none

theorem reversedRequest_reachable : socialSystem.Reachable reversedRequest := by
  have declines := socialSystem_next (socialSystem_next openedRequest_reachable
    (.friend 2 2 (.respond 100 .decline)) (.friend rfl (by decide) rfl))
    (.friendLocate 2) (.friendLocate rfl)
  have declined := socialSystem_next declines (.friendWrite 2 0 101 .done)
    (.friendWrite rfl (by decide) rfl)
  have returns := socialSystem_next (socialSystem_next declined
    (.friend 3 2 (.request 1)) (.friend rfl (by decide) rfl)) (.friendLocate 3) (.friendLocate rfl)
  exact socialSystem_next returns (.friendWrite 3 0 102 .done) (.friendWrite rfl (by decide) rfl)

/-- **2 becomes a friend of 1 by accepting the request that 2 has made.** -/
theorem consents_reversed :
    ∃ s op s', socialSystem.Reachable s ∧ socialSystem.step s op s' ∧ ¬s.Consents op s' := by
  refine ⟨reversedRequest, .friendWrite 1 0 103 .done, _, reversedRequest_reachable,
    .friendWrite rfl (by decide) rfl, fun h => ?_⟩
  exact h 2 .accept ⟨_, 1, 0, 103, _, rfl, rfl, rfl⟩ (Or.inr rfl)
    (exampleFriendship .pending 2 none) (List.mem_singleton_self _) rfl
    (exampleFriendship .accepted 1 (some 0)) (List.mem_singleton_self _) rfl rfl rfl

end Bookswap
