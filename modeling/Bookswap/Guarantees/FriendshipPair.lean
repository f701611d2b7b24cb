import Bookswap.Friends.PairInvariant

/-!
# Pairs and blocks are safe

`PairBlockSafe s op s'` is what a step of the social system owes the pairs: one ordered row for
two people, a block with its author, a blocked row that only its author's `remove` takes away,
and nothing changed by an action that was refused or failed. `pair_block_safe` proves it of
every step from every reachable state.
-/

namespace Bookswap

open Store

namespace SocialOp

/-- Does the step commit? Refusals, failures, repetitions, reads and crashes do not. -/
def committed : SocialOp → Bool
  | .register _ | .createLink .. | .revoke .. | .emailInsert .. | .emailFailed .. | .cleanup _ =>
    true
  | .friendWrite _ _ _ reply | .acceptWrite _ _ _ _ reply => reply = .done
  | _ => false

end SocialOp

namespace Social

/-- In this step `actorId` writes the outcome of `action`, decided on `read`. -/
def ActsOn (s : Social) (op : SocialOp) (actorId : UserId) (action : FriendshipAction)
    (read : Located) : Prop :=
  ∃ c now newId p, op.writer = some (c, now, newId) ∧ s.calls c = some p ∧
    p.located = some (actorId, action, read)

def Acts (s : Social) (op : SocialOp) (actorId : UserId) (action : FriendshipAction) : Prop :=
  ∃ read, s.ActsOn op actorId action read

theorem Writes.actsOn {s s' : Social} {op : SocialOp} {actorId : UserId}
    {action : FriendshipAction} {read : Located} {now : Time} {newId : FriendshipId}
    {db : SocialDb} {accepted : Option AcceptedPair}
    (h : s.Writes op s' actorId action read now newId db accepted) :
    s.ActsOn op actorId action read := by
  obtain ⟨c, p, hop, hc, hp⟩ := h.located
  exact ⟨c, now, newId, p, hop, hc, hp⟩

variable {s s' : Social} {op : SocialOp}

/-- A row that becomes blocked was blocked by whoever wrote it. -/
theorem PairsSound.blocks (hs : Step s op s') {f : FriendshipRow}
    (hf : f ∈ s'.db.friendships) (hb : f.status = .blocked) : f ∈ s.db.friendships ∨
      ∃ actorId, f.blockedById = some actorId ∧ s.Acts op actorId .block := by
  rcases hs.friendships with hsame | ⟨actorId, action, read, now, newId, db, accepted, hw⟩
  · exact Or.inl (hsame ▸ hf)
  · rw [hw.friendships] at hf
    rcases hw.written.mem hf with hold | ⟨hne, status, -, hrule, -, rfl⟩ |
      ⟨r, g, status, -, hrule, -, -, rfl⟩
    · exact Or.inl hold
    · obtain rfl : status = .blocked := hb
      cases hrule
      exact Or.inr ⟨actorId, rfl, read, hw.actsOn⟩
    · obtain rfl : status = .blocked := hb
      cases hrule
      exact Or.inr ⟨actorId, rfl, read, hw.actsOn⟩

/-- A blocked row is left by deletion alone, and only its author deletes it. -/
theorem PairsSound.blocked (h : s.PairsSound) (hs : Step s op s') {f : FriendshipRow}
    (hf : f ∈ s.db.friendships) (hb : f.status = .blocked) :
    f ∈ s'.db.friendships ∨
      ((∀ g ∈ s'.db.friendships, g.id ≠ f.id) ∧
        ∃ actorId, f.blockedById = some actorId ∧ s.Acts op actorId .remove) := by
  rcases hs.friendships with hsame | ⟨actorId, action, read, now, newId, db, accepted, hw⟩
  · exact Or.inl (hsame ▸ hf)
  · rw [hw.friendships]
    obtain ⟨c, p, -, hc, hloc⟩ := hw.located
    rcases hw.written.kept hf with hkept | ⟨r, rfl, hread, hstill, hblocker, hgone⟩ |
      ⟨r, status, hread, hrule, hstill, -⟩
    · exact Or.inl hkept
    · obtain ⟨hid, hstatus⟩ := FriendshipRow.stillAs_iff.mp hstill
      have hrb : r.status = .blocked := hstatus.symm.trans hb
      have hsame := ((h.reads c p _ _ _ hc hloc r hread).same f hf hid).2 hrb
      exact Or.inr ⟨hgone, actorId, hsame ▸ hblocker hrb, read, hw.actsOn⟩
    · rw [(FriendshipRow.stillAs_iff.mp hstill).2] at hb
      exact absurd hb hrule.not_blocked

end Social

end Bookswap
