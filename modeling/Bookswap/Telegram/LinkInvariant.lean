import Bookswap.Telegram.TelegramLinkService

/-!
# What links keep

- `Linking.Inv`: one user a chat, one unused token a user, no lock held twice, and what each
  transaction knows of the rows that it has locked.
- `Inv.statement`, `Inv.commit`, `Inv.step`: statements keep it, commits keep it, so all steps do.
-/

namespace Bookswap

open Store (Table)

namespace Linking

/-- The token is there, the user's, and unused. -/
def Mine (db : LinkDb) (u : UserId) (token : LinkToken) : Prop :=
  ∃ t ∈ db.tokens, t.token = token ∧ t.userId = u ∧ t.usedAt = none

/-- Every unused token of the user is among these. -/
def Covers (db : LinkDb) (u : UserId) (tokens : List LinkToken) : Prop :=
  ∀ t ∈ db.tokens, t.userId = u → t.usedAt = none → t.token ∈ tokens

/-- What the stage of a transaction of the user says of the rows. -/
def StageOk (s : Linking) (u : UserId) : LinkStage → Prop
  | .deletingRows _ rows deleted =>
    (∀ token ∈ rows, ∃ x ∈ s.issued, x.token = token ∧ x.userId = u) ∧
      Covers s.db u (rows ++ deleted)
  | .done (.created _ _ deleted) => Covers s.db u deleted
  | .done (.unlinked deleted) => Covers s.db u deleted
  | .done (.linked _ chatId _ stolen) => s.db.users.find? u ≠ none ∧
    ∀ w ∈ s.db.users, w.telegramChatId = some chatId → w.id = u ∨ w.id ∈ stolen
  | _ => True

structure Inv (s : Linking) : Prop where
  chats : ∀ u ∈ s.db.users, ∀ v ∈ s.db.users, u.telegramChatId ≠ none →
    u.telegramChatId = v.telegramChatId → u.id = v.id
  single : ∀ t ∈ s.db.tokens, ∀ t' ∈ s.db.tokens, t.userId = t'.userId → t.usedAt = none →
    t'.usedAt = none → t.token = t'.token
  issued : ∀ t ∈ s.db.tokens, ∃ x ∈ s.issued, x.token = t.token ∧ x.userId = t.userId
  distinct : ∀ x ∈ s.issued, ∀ y ∈ s.issued, x.token = y.token → x.userId = y.userId
  apart : ∀ r q tx tx' row, r ≠ q → s.txOf r = some tx → s.txOf q = some tx' → tx.Locks row →
    ¬ tx'.Locks row
  mine : ∀ r tx token, s.txOf r = some tx → tx.Locks (.token token) → Mine s.db tx.userId token
  stage : ∀ r tx, s.txOf r = some tx → s.StageOk tx.userId tx.stage

variable {s s' : Linking} {r : LinkCallId}

/-! ## A call goes on -/

@[simp] theorem move_db (ph : Option LinkPhase) : (s.move r ph).db = s.db := rfl

@[simp] theorem move_clock (ph : Option LinkPhase) : (s.move r ph).clock = s.clock := rfl

@[simp] theorem move_issued (ph : Option LinkPhase) : (s.move r ph).issued = s.issued := rfl

theorem txOf_move (ph : Option LinkPhase) (q : LinkCallId) :
    (s.move r ph).txOf q = if q = r then ph.bind LinkPhase.tx? else s.txOf q := by
  show (Function.update s.calls r ph q).bind LinkPhase.tx? = _
  rw [Function.update_apply]
  split <;> rfl

theorem StageOk.move {ph : Option LinkPhase} {u : UserId} {stage : LinkStage}
    (h : s.StageOk u stage) : (s.move r ph).StageOk u stage := by
  cases stage with
  | done outcome => cases outcome <;> exact h
  | _ => exact h

/-- Where a call goes is right, and what it locks is locked by no other. -/
theorem Inv.move (h : s.Inv) {ph : Option LinkPhase}
    (hph : ∀ tx, ph.bind LinkPhase.tx? = some tx → s.StageOk tx.userId tx.stage ∧
      (∀ token, tx.Locks (.token token) → Mine s.db tx.userId token) ∧
      ∀ row, tx.Locks row → ¬ s.Held r row) : (s.move r ph).Inv where
  chats := h.chats
  single := h.single
  issued := h.issued
  distinct := h.distinct
  apart q q' tx tx' row hne hq hq' hrow := by
    rw [txOf_move] at hq hq'
    split at hq
    · subst q
      rw [if_neg hne.symm] at hq'
      exact fun hrow' => (hph tx hq).2.2 row hrow ⟨q', tx', hne.symm, hq', hrow'⟩
    · split at hq'
      · subst q'
        exact fun hrow' => (hph tx' hq').2.2 row hrow' ⟨q, tx, hne, hq, hrow⟩
      · exact h.apart q q' tx tx' row hne hq hq' hrow
  mine q tx token hq := by
    rw [txOf_move] at hq
    split at hq
    · exact (hph tx hq).2.1 token
    · exact h.mine q tx token hq
  stage q tx hq := by
    rw [txOf_move] at hq
    split at hq
    · exact (hph tx hq).1.move
    · exact (h.stage q tx hq).move

/-- A transaction that has not begun to lock. -/
theorem Inv.move_start (h : s.Inv) {ph : Option LinkPhase}
    (hph : ∀ tx, ph.bind LinkPhase.tx? = some tx →
      (∃ k, tx.stage = .locking k) ∨ tx.stage = .unlinking) : (s.move r ph).Inv := by
  refine h.move fun tx htx => ?_
  obtain ⟨u, stage⟩ := tx
  have hnone : ∀ row, ¬ (⟨u, stage⟩ : LinkTx).Locks row := by
    intro row
    obtain ⟨k, rfl⟩ | rfl := hph _ htx <;> cases row <;>
      simp [LinkTx.Locks, LinkStage.locked, LinkStage.stolen, LinkStage.deleted,
        LinkStage.claimed, LinkStage.chat]
  refine ⟨?_, fun token hlock => absurd hlock (hnone _), fun row hlock => absurd hlock (hnone row)⟩
  obtain ⟨k, rfl⟩ | rfl := hph _ htx <;> trivial

/-! ## Statements -/

/-- What a transaction has locked after a statement it had locked before, or it is the row of the
statement. -/
theorem locks_next {now : Time} {db : LinkDb} {u : UserId} {stage stage' : LinkStage}
    {row : LinkRow} (hnext : LinkTx.next now db ⟨u, stage⟩ = .ok stage')
    (hlock : (⟨u, stage'⟩ : LinkTx).Locks row) :
    (⟨u, stage⟩ : LinkTx).Locks row ∨ (⟨u, stage⟩ : LinkTx).row = some row := by
  rw [LinkTx.next] at hnext
  cases stage with
  | locking k =>
    cases hnext
    cases row <;> simp [LinkTx.Locks, LinkTx.row, LinkStage.locked, LinkStage.stolen,
      LinkStage.deleted, LinkStage.claimed, LinkStage.chat] at hlock ⊢
    exact hlock.symm
  | clock k =>
    cases hnext
    cases k <;> exact .inl hlock
  | deletingRows k rows deleted =>
    cases rows with
    | nil =>
      cases hnext
      cases k <;> exact .inl hlock
    | cons token rows =>
      cases hnext
      cases row <;> simp [LinkTx.Locks, LinkTx.row, LinkStage.locked, LinkStage.stolen,
        LinkStage.deleted, LinkStage.claimed, LinkStage.chat] at hlock ⊢
      · exact hlock
      · split at hlock
        · obtain rfl | hlock := List.mem_cons.mp hlock
          · exact .inr rfl
          · exact .inl hlock
        · exact .inl hlock
  | claiming token chatId at' =>
    dsimp only at hnext
    split at hnext <;> cases hnext
    · cases row <;> simp [LinkTx.Locks, LinkTx.row, LinkStage.locked, LinkStage.stolen,
        LinkStage.deleted, LinkStage.claimed, LinkStage.chat] at hlock ⊢
      · exact hlock
      · exact hlock
    · exact .inl hlock
  | stealingRows token chatId at' rows stolen =>
    cases rows with
    | nil =>
      cases hnext
      exact .inl hlock
    | cons id rows =>
      cases hnext
      cases row <;> simp [LinkTx.Locks, LinkTx.row, LinkStage.locked, LinkStage.stolen,
        LinkStage.deleted, LinkStage.claimed, LinkStage.chat] at hlock ⊢
      · obtain hlock | hlock := hlock
        · exact .inl (.inl hlock)
        · split at hlock
          · obtain rfl | hlock := List.mem_cons.mp hlock
            · exact .inr rfl
            · exact .inl (.inr hlock)
          · exact .inl (.inr hlock)
      · exact hlock
  | linking token chatId at' stolen =>
    dsimp only at hnext
    split at hnext
    · cases hnext
    · split at hnext <;> cases hnext
      cases row <;> simp [LinkTx.Locks, LinkTx.row, LinkStage.locked, LinkStage.stolen,
        LinkStage.deleted, LinkStage.claimed, LinkStage.chat] at hlock ⊢
      · exact hlock
      · exact hlock
      · exact hlock
  | unlinking =>
    dsimp only at hnext
    split at hnext <;> cases hnext <;> exact .inl hlock
  | unlinkingRow =>
    dsimp only at hnext
    split at hnext <;> cases hnext
    · exact .inl hlock
    · cases row <;> simp [LinkTx.Locks, LinkTx.row, LinkStage.locked, LinkStage.stolen,
        LinkStage.deleted, LinkStage.claimed, LinkStage.chat] at hlock ⊢
      exact hlock.symm
  | _ =>
    cases hnext
    exact .inl hlock

theorem mine_of_unused (h : s.Inv) {u : UserId} {token : LinkToken}
    (hissued : ∃ x ∈ s.issued, x.token = token ∧ x.userId = u) (hu : s.db.unused token = true) :
    Mine s.db u token := by
  rw [LinkDb.unused] at hu
  cases ht : s.db.tokens.find? token with
  | none => simp [ht] at hu
  | some t =>
    have hmem := Table.mem_of_find? ht
    have hkey : t.token = token := Table.key_of_find? ht
    obtain ⟨x, hx, hxt, hxu⟩ := hissued
    obtain ⟨y, hy, hyt, hyu⟩ := h.issued t hmem
    refine ⟨t, hmem, hkey, ?_, by simpa [ht] using hu⟩
    rw [← hyu, ← hxu]
    exact h.distinct y hy x hx (hyt.trans (hkey.trans hxt.symm))

theorem mine_of_claimable {db : LinkDb} {u : UserId} {token : LinkToken} {now : Time}
    (hc : db.claimable token u now = true) : Mine db u token := by
  rw [LinkDb.claimable] at hc
  cases ht : db.tokens.find? token with
  | none => simp [ht] at hc
  | some t =>
    simp only [ht, Option.any_some, decide_eq_true_eq] at hc
    exact ⟨t, Table.mem_of_find? ht, Table.key_of_find? ht, hc.1, hc.2.1⟩

/-- A token that a transaction has locked after a statement is unused, and the user's. -/
theorem mine_next (h : s.Inv) {u : UserId} {stage stage' : LinkStage}
    (hok : s.StageOk u stage)
    (hmine : ∀ token, (⟨u, stage⟩ : LinkTx).Locks (.token token) → Mine s.db u token)
    (hnext : LinkTx.next s.clock s.db ⟨u, stage⟩ = .ok stage') {token : LinkToken}
    (hlock : (⟨u, stage'⟩ : LinkTx).Locks (.token token)) : Mine s.db u token := by
  rw [LinkTx.next] at hnext
  cases stage with
  | deletingRows k rows deleted =>
    cases rows with
    | nil =>
      cases hnext
      cases k <;> exact hmine token hlock
    | cons token' rows =>
      cases hnext
      have hlock : token ∈ (if s.db.unused token' then token' :: deleted else deleted) := by
        simpa [LinkTx.Locks, LinkStage.deleted, LinkStage.claimed] using hlock
      split at hlock
      · rename_i hu
        obtain rfl | hlock := List.mem_cons.mp hlock
        · exact mine_of_unused h (hok.1 token List.mem_cons_self) hu
        · exact hmine token (.inl hlock)
      · exact hmine token (.inl hlock)
  | claiming token' chatId now =>
    dsimp only at hnext
    split at hnext <;> cases hnext
    · rename_i hc
      have hlock : token' = token := by
        simpa [LinkTx.Locks, LinkStage.deleted, LinkStage.claimed] using hlock
      exact hlock ▸ mine_of_claimable hc
    · exact hmine token hlock
  | stealingRows token' chatId now rows stolen =>
    cases rows <;> cases hnext <;> exact hmine token hlock
  | linking token' chatId now stolen =>
    dsimp only at hnext
    split at hnext
    · cases hnext
    · split at hnext <;> cases hnext
      exact hmine token hlock
  | unlinking =>
    dsimp only at hnext
    split at hnext <;> cases hnext <;> exact hmine token hlock
  | unlinkingRow =>
    dsimp only at hnext
    split at hnext <;> cases hnext <;> exact hmine token hlock
  | clock k =>
    cases hnext
    cases k <;> exact hmine token hlock
  | _ =>
    cases hnext
    exact hmine token hlock

theorem StageOk.next (h : s.Inv) {u : UserId} {stage stage' : LinkStage} (hok : s.StageOk u stage)
    (hnext : LinkTx.next s.clock s.db ⟨u, stage⟩ = .ok stage') : s.StageOk u stage' := by
  rw [LinkTx.next] at hnext
  cases stage with
  | clock k =>
    cases hnext
    cases k <;> trivial
  | deleting k =>
    cases hnext
    refine ⟨fun token htoken => ?_, fun t ht hu hfree => ?_⟩
    · obtain ⟨t, ht, rfl⟩ := List.mem_map.mp htoken
      obtain ⟨hmem, hfound⟩ := List.mem_filter.mp ht
      obtain ⟨x, hx, hxt, hxu⟩ := h.issued t hmem
      have hfound : t.userId = u ∧ t.usedAt = none := by simpa using hfound
      exact ⟨x, hx, hxt, hxu.trans hfound.1⟩
    · rw [List.append_nil]
      exact List.mem_map_of_mem (List.mem_filter.mpr ⟨ht, by simp [hu, hfree]⟩)
  | deletingRows k rows deleted =>
    obtain ⟨hrows, hcovers⟩ := hok
    cases rows with
    | nil =>
      cases hnext
      cases k <;> exact hcovers
    | cons token rows =>
      cases hnext
      refine ⟨fun t ht => hrows t (List.mem_cons_of_mem token ht), fun t ht hu hfree => ?_⟩
      have hin := hcovers t ht hu hfree
      rw [List.cons_append] at hin
      obtain rfl | hin := List.mem_cons.mp hin
      · have hunused : s.db.unused t.token = true := by
          rw [LinkDb.unused, Table.find?_of_mem ht]
          simpa using hfree
        rw [if_pos hunused]
        exact List.mem_append_right rows List.mem_cons_self
      · obtain hin | hin := List.mem_append.mp hin
        · exact List.mem_append_left _ hin
        · refine List.mem_append_right rows ?_
          split
          · exact List.mem_cons_of_mem token hin
          · exact hin
  | claiming token chatId now =>
    dsimp only at hnext
    split at hnext <;> cases hnext <;> trivial
  | stealingRows token chatId now rows stolen =>
    cases rows <;> cases hnext <;> trivial
  | linking token chatId now stolen =>
    dsimp only at hnext
    split at hnext
    · cases hnext
    · rename_i hthere
      split at hnext <;> cases hnext
      rename_i hfree
      refine ⟨hthere, fun w hw hchat => ?_⟩
      by_contra hnot
      rw [not_or] at hnot
      exact hfree (List.any_eq_true.mpr ⟨w, hw, by simp [hchat, hnot.1, hnot.2]⟩)
  | unlinking =>
    dsimp only at hnext
    split at hnext <;> cases hnext <;> trivial
  | unlinkingRow =>
    dsimp only at hnext
    split at hnext <;> cases hnext <;> trivial
  | done outcome =>
    cases hnext
    exact hok
  | _ =>
    cases hnext
    trivial

theorem tx?_goOn {ph : LinkPhase} {tx : LinkTx} (hph : ph.tx? = some tx) (stage : LinkStage) :
    (ph.goOn stage).tx? = some { tx with stage := stage } := by
  cases ph <;> cases hph <;> rfl

theorem Inv.statement (h : s.Inv) {ph : LinkPhase} {tx : LinkTx} {stage : LinkStage}
    (hcall : s.calls r = some ph) (htx : ph.tx? = some tx) (hrow : ∀ row ∈ tx.row, ¬ s.Held r row)
    (hnext : tx.next s.clock s.db = .ok stage) : (s.move r (some (ph.goOn stage))).Inv := by
  have hr : s.txOf r = some tx := by
    rw [txOf, hcall]
    exact htx
  obtain ⟨u, old⟩ := tx
  refine h.move fun tx' htx' => ?_
  have htx' : (ph.goOn stage).tx? = some tx' := htx'
  rw [tx?_goOn htx] at htx'
  cases htx'
  refine ⟨(h.stage r _ hr).next h hnext, fun token => mine_next h (h.stage r _ hr)
    (fun token => h.mine r _ token hr) hnext, fun row hlock => ?_⟩
  obtain hlock | hlock := locks_next hnext hlock
  · rintro ⟨q, tx', hne, hq, hlock'⟩
    exact h.apart r q _ tx' row hne.symm hr hq hlock hlock'
  · exact hrow row hlock

/-! ## What a commit writes -/

section Commit

variable {u : UserId} {outcome : LinkOutcome} {t' : Table TelegramLinkToken.token}

/-- A row that stays after a token has been used up, and is unused, was there before. -/
theorem mem_use {t : Table TelegramLinkToken.token} {token : LinkToken} {now : Time}
    {x : TelegramLinkToken} (hx : x ∈ t.modify token (useLinkEdit now)) :
    (∃ y ∈ t, y.token = x.token ∧ y.userId = x.userId ∧ y.token = token ∧ x.usedAt = some now) ∨
      (x ∈ t ∧ x.token ≠ token) := by
  obtain ⟨y, hy, rfl⟩ := Table.mem_modify.mp hx
  split
  · rename_i htoken
    exact .inl ⟨y, hy, rfl, rfl, htoken, rfl⟩
  · rename_i htoken
    exact .inr ⟨hy, htoken⟩

/-- A commit leaves the tokens of the other users as they are. -/
theorem applyTokens_frame {db : LinkDb}
    (hmine : ∀ token, (⟨u, .done outcome⟩ : LinkTx).Locks (.token token) → Mine db u token)
    (happ : LinkTx.applyTokens u outcome db.tokens = some t') {x : TelegramLinkToken}
    (hx : x.userId ≠ u) : x ∈ t' ↔ x ∈ db.tokens := by
  have hother : x ∈ db.tokens → ¬ (⟨u, .done outcome⟩ : LinkTx).Locks (.token x.token) := by
    intro hmem hlock
    obtain ⟨t, ht, htoken, hu, -⟩ := hmine x.token hlock
    rw [Table.eq_of_key_eq ht hmem htoken] at hu
    exact hx hu
  cases outcome with
  | created token expiresAt deleted =>
    rw [Table.mem_insert happ, Table.mem_filter]
    constructor
    · rintro (⟨hmem, -⟩ | rfl)
      · exact hmem
      · exact absurd rfl hx
    · intro hmem
      exact .inl ⟨hmem, decide_eq_true fun hin => hother hmem (.inl hin)⟩
  | linked token chatId now stolen =>
    cases happ
    constructor
    · intro hmem
      obtain ⟨y, hy, -, hu, htoken, -⟩ | ⟨hmem, -⟩ := mem_use hmem
      · obtain ⟨z, hz, hztoken, hzu, -⟩ := hmine token (.inr rfl)
        have hyz := Table.eq_of_key_eq hy hz (htoken.trans hztoken.symm)
        rw [← hu, hyz] at hx
        exact absurd hzu hx
      · exact hmem
    · intro hmem
      refine Table.mem_modify.mpr ⟨x, hmem, if_neg fun htoken => hother hmem (.inr ?_)⟩
      rw [htoken]
      rfl
  | unlinked deleted =>
    cases happ
    rw [Table.mem_filter]
    constructor
    · exact fun h => h.1
    · exact fun hmem => ⟨hmem, decide_eq_true fun hin => hother hmem (.inl hin)⟩
  | failed reason =>
    cases happ
    exact Iff.rfl
  | notLinked =>
    cases happ
    exact Iff.rfl

/-- An unused token after a commit was there before, and the commit neither deleted it nor used it
up; or it is the new one. -/
theorem unused_applyTokens {db : LinkDb}
    (happ : LinkTx.applyTokens u outcome db.tokens = some t') {x : TelegramLinkToken}
    (hx : x ∈ t') (hfree : x.usedAt = none) :
    x ∈ inserted u outcome ∨ (x ∈ db.tokens ∧ x.token ∉ (LinkStage.done outcome).deleted ∧
      (LinkStage.done outcome).claimed ≠ some x.token) := by
  cases outcome with
  | created token expiresAt deleted =>
    obtain hx | rfl := (Table.mem_insert happ).mp hx
    · obtain ⟨hmem, hnot⟩ := Table.mem_filter.mp hx
      exact .inr ⟨hmem, of_decide_eq_true hnot, fun heq => by cases heq⟩
    · exact .inl List.mem_cons_self
  | linked token chatId now stolen =>
    cases happ
    obtain ⟨y, -, -, -, -, hused⟩ | ⟨hmem, hne⟩ := mem_use hx
    · rw [hfree] at hused
      cases hused
    · exact .inr ⟨hmem, List.not_mem_nil, fun heq => hne (Option.some.inj heq).symm⟩
  | unlinked deleted =>
    cases happ
    obtain ⟨hmem, hnot⟩ := Table.mem_filter.mp hx
    exact .inr ⟨hmem, of_decide_eq_true hnot, fun heq => by cases heq⟩
  | failed reason =>
    cases happ
    exact .inr ⟨hx, List.not_mem_nil, fun heq => by cases heq⟩
  | notLinked =>
    cases happ
    exact .inr ⟨hx, List.not_mem_nil, fun heq => by cases heq⟩

/-- Every row after a commit was there before with the same user, or it is the new one. -/
theorem mem_applyTokens {t : Table TelegramLinkToken.token}
    (happ : LinkTx.applyTokens u outcome t = some t') {x : TelegramLinkToken} (hx : x ∈ t') :
    x ∈ inserted u outcome ∨ ∃ y ∈ t, y.token = x.token ∧ y.userId = x.userId ∧
      (x.usedAt = none → y.usedAt = none) := by
  cases outcome with
  | created token expiresAt deleted =>
    obtain hx | rfl := (Table.mem_insert happ).mp hx
    · exact .inr ⟨x, (Table.mem_filter.mp hx).1, rfl, rfl, fun h => h⟩
    · exact .inl List.mem_cons_self
  | linked token chatId now stolen =>
    cases happ
    obtain ⟨y, hy, htoken, hu, -, hused⟩ | ⟨hmem, -⟩ := mem_use hx
    · refine .inr ⟨y, hy, htoken, hu, fun hfree => ?_⟩
      rw [hfree] at hused
      cases hused
    · exact .inr ⟨x, hmem, rfl, rfl, fun h => h⟩
  | unlinked deleted =>
    cases happ
    exact .inr ⟨x, (Table.mem_filter.mp hx).1, rfl, rfl, fun h => h⟩
  | failed reason =>
    cases happ
    exact .inr ⟨x, hx, rfl, rfl, fun h => h⟩
  | notLinked =>
    cases happ
    exact .inr ⟨x, hx, rfl, rfl, fun h => h⟩

/-- A user with a chat after a commit had it before, and it was not stolen, or has been given it. -/
theorem mem_applyUsers {t : Table LinkUser.id} {w : LinkUser}
    (hw : w ∈ LinkTx.applyUsers u outcome t) {chatId : ChatId}
    (hchat : w.telegramChatId = some chatId) :
    (w.id = u ∧ (LinkStage.done outcome).chat = some chatId) ∨
      (w ∈ t ∧ w.id ∉ (LinkStage.done outcome).stolen ∧
        ((LinkStage.done outcome).chat ≠ none → w.id ≠ u)) := by
  cases outcome with
  | linked token given now stolen =>
    obtain ⟨v, hv, rfl⟩ := Table.mem_modify.mp hw
    by_cases hvu : v.id = u
    · rw [if_pos hvu] at hchat ⊢
      exact .inl ⟨hvu, hchat⟩
    · rw [if_neg hvu] at hchat ⊢
      obtain ⟨y, hy, rfl⟩ := Table.mem_updateWhere.mp hv
      split at hchat
      · cases hchat
      · rename_i hstolen
        rw [if_neg hstolen] at hvu ⊢
        exact .inr ⟨hy, fun hin => hstolen (decide_eq_true hin), fun _ => hvu⟩
  | unlinked deleted =>
    obtain ⟨v, hv, rfl⟩ := Table.mem_modify.mp hw
    split at hchat
    · cases hchat
    · rename_i hvu
      rw [if_neg hvu]
      exact .inr ⟨hv, List.not_mem_nil, fun _ => hvu⟩
  | _ => exact .inr ⟨hw, List.not_mem_nil, fun hne => absurd rfl hne⟩

/-- A commit deletes no user. -/
theorem find?_applyUsers {t : Table LinkUser.id} {v : UserId} (hv : t.find? v ≠ none) :
    (LinkTx.applyUsers u outcome t).find? v ≠ none := by
  cases outcome with
  | linked token chatId now stolen =>
    rw [LinkTx.applyUsers, Table.find?_modify, Table.find?_updateWhere, Table.find?_updateWhere]
    split
    · rename_i hvu
      simpa [hvu] using hvu ▸ hv
    · simpa using hv
  | unlinked deleted =>
    rw [LinkTx.applyUsers, Table.find?_modify]
    split
    · rename_i hvu
      simpa [hvu] using hvu ▸ hv
    · exact hv
  | _ => exact hv

end Commit

/-! ## Commits -/

/-- What a transaction knows stays true when the tokens of its locked user, and the users with the
chat that it has given away, stay. -/
theorem StageOk.beside {u : UserId} {stage : LinkStage} (h : s.StageOk u stage)
    (hissued : ∀ x ∈ s.issued, x ∈ s'.issued)
    (htokens : stage.locked = true → ∀ x ∈ s'.db.tokens, x.userId = u → x ∈ s.db.tokens)
    (husers : ∀ v, s.db.users.find? v ≠ none → s'.db.users.find? v ≠ none)
    (hchats : ∀ c, stage.chat = some c → ∀ w ∈ s'.db.users, w.telegramChatId = some c →
      ∃ v ∈ s.db.users, v.id = w.id ∧ v.telegramChatId = some c) : s'.StageOk u stage := by
  have hcovers : stage.locked = true → ∀ l, Covers s.db u l → Covers s'.db u l :=
    fun hl l hc x hx hu hfree => hc x (htokens hl x hx hu) hu hfree
  cases stage with
  | deletingRows k rows deleted =>
    refine ⟨fun token htoken => ?_, hcovers rfl _ h.2⟩
    obtain ⟨x, hx, hxt⟩ := h.1 token htoken
    exact ⟨x, hissued x hx, hxt⟩
  | done outcome =>
    cases outcome with
    | created token expiresAt deleted => exact hcovers rfl _ h
    | unlinked deleted => exact hcovers rfl _ h
    | linked token chatId now stolen =>
      refine ⟨husers u h.1, fun w hw hchat => ?_⟩
      obtain ⟨v, hv, hid, hvchat⟩ := hchats chatId rfl w hw hchat
      rw [← hid]
      exact h.2 v hv hvchat
    | _ => trivial
  | _ => trivial

theorem Inv.commit (h : s.Inv) {ph : LinkPhase} {u : UserId} {outcome : LinkOutcome}
    {t' : Table TelegramLinkToken.token} {answer : Except ApiException LinkAnswer}
    (hcall : s.calls r = some ph) (htx : ph.tx? = some ⟨u, .done outcome⟩)
    (happ : LinkTx.applyTokens u outcome s.db.tokens = some t')
    (hfresh : ∀ x ∈ inserted u outcome, ∀ y ∈ s.issued, y.token ≠ x.token) :
    ({ s with
      db := ⟨LinkTx.applyUsers u outcome s.db.users, t'⟩
      issued := inserted u outcome ++ s.issued }.move r (some (.answered answer))).Inv := by
  have hr : s.txOf r = some ⟨u, .done outcome⟩ := by
    rw [txOf, hcall]
    exact htx
  have hmine := fun token => h.mine r _ token hr
  have hstage := h.stage r _ hr
  have hnew : ∀ x ∈ inserted u outcome, x.userId = u ∧ x.usedAt = none := by
    intro x hx
    cases outcome with
    | created token expiresAt deleted =>
      obtain rfl := List.mem_singleton.mp hx
      exact ⟨rfl, rfl⟩
    | _ => cases hx
  -- another transaction that has locked its user has another user, or nothing is written
  have hbeside : ∀ q tx, q ≠ r → s.txOf q = some tx → tx.stage.locked = true →
      ∀ x, x.userId = tx.userId → (x ∈ t' ↔ x ∈ s.db.tokens) := by
    intro q tx hne hq hlocked x hx
    by_cases hdone : (LinkStage.done outcome).locked = true
    · refine applyTokens_frame hmine happ fun hu => ?_
      exact h.apart r q _ tx (.user u) hne.symm hr hq (.inl ⟨hdone, rfl⟩)
        (.inl ⟨hlocked, hu.symm.trans hx⟩)
    · cases outcome with
      | notLinked =>
        cases happ
        exact Iff.rfl
      | _ => exact absurd rfl hdone
  have htx' : ∀ q tx, ({ s with
      db := ⟨LinkTx.applyUsers u outcome s.db.users, t'⟩
      issued := inserted u outcome ++ s.issued }.move r (some (.answered answer))).txOf q =
        some tx → q ≠ r ∧ s.txOf q = some tx := by
    intro q tx hq
    rw [txOf_move] at hq
    split at hq
    · cases hq
    · rename_i hne
      exact ⟨hne, hq⟩
  refine ⟨fun v hv w hw hv' heq => ?_, fun x hx y hy hxy hx' hy' => ?_, fun x hx => ?_,
    fun x hx y hy hxy => ?_, fun q q' tx tx' row hne hq hq' => ?_, fun q tx token hq hlock => ?_,
    fun q tx hq => ?_⟩
  · obtain ⟨c, hc⟩ := Option.ne_none_iff_exists'.mp hv'
    have hc' : w.telegramChatId = some c := heq.symm.trans hc
    obtain ⟨hvu, hgiven⟩ | ⟨hvold, hvstolen, hvu⟩ := mem_applyUsers hv hc <;>
      obtain ⟨hwu, hgiven'⟩ | ⟨hwold, hwstolen, hwu⟩ := mem_applyUsers hw hc'
    · exact hvu.trans hwu.symm
    · -- nobody else had the chat but those it was stolen from
      cases outcome with
      | linked token chatId now stolen =>
        cases hgiven
        obtain hid | hid := hstage.2 w hwold hc'
        · exact absurd hid (hwu (Option.some_ne_none _))
        · exact absurd hid hwstolen
      | _ => cases hgiven
    · cases outcome with
      | linked token chatId now stolen =>
        cases hgiven'
        obtain hid | hid := hstage.2 v hvold hc
        · exact absurd hid (hvu (Option.some_ne_none _))
        · exact absurd hid hvstolen
      | _ => cases hgiven'
    · exact h.chats v hvold w hwold hv' heq
  · obtain hxnew | ⟨hxold, hxdel, -⟩ := unused_applyTokens happ hx hx' <;>
      obtain hynew | ⟨hyold, hydel, -⟩ := unused_applyTokens happ hy hy'
    · cases outcome with
      | created token expiresAt deleted =>
        rw [List.mem_singleton.mp hxnew, List.mem_singleton.mp hynew]
      | _ => cases hxnew
    · cases outcome with
      | created token expiresAt deleted =>
        have hyu : y.userId = u := hxy.symm.trans (hnew x hxnew).1
        exact absurd (hstage y hyold hyu hy') hydel
      | _ => cases hxnew
    · cases outcome with
      | created token expiresAt deleted =>
        have hxu : x.userId = u := hxy.trans (hnew y hynew).1
        exact absurd (hstage x hxold hxu hx') hxdel
      | _ => cases hynew
    · exact h.single x hxold y hyold hxy hx' hy'
  · obtain hxnew | ⟨y, hy, htoken, hu, -⟩ := mem_applyTokens happ hx
    · exact ⟨x, List.mem_append_left _ hxnew, rfl, rfl⟩
    · obtain ⟨z, hz, hzt, hzu⟩ := h.issued y hy
      exact ⟨z, List.mem_append_right _ hz, hzt.trans htoken, hzu.trans hu⟩
  · obtain hx | hx := List.mem_append.mp hx <;> obtain hy | hy := List.mem_append.mp hy
    · exact (hnew x hx).1.trans (hnew y hy).1.symm
    · exact absurd hxy.symm (hfresh x hx y hy)
    · exact absurd hxy (hfresh y hy x hx)
    · exact h.distinct x hx y hy hxy
  · exact h.apart q q' tx tx' row hne (htx' q tx hq).2 (htx' q' tx' hq').2
  · obtain ⟨hne, hq⟩ := htx' q tx hq
    obtain ⟨t, ht, htoken, hu, hfree⟩ := h.mine q tx token hq hlock
    have hlocked : tx.stage.locked = true := by
      obtain ⟨v, stage⟩ := tx
      cases stage with
      | done outcome => cases outcome <;> simp_all [LinkTx.Locks, LinkStage.deleted,
          LinkStage.claimed, LinkStage.locked]
      | _ => simp_all [LinkTx.Locks, LinkStage.deleted, LinkStage.claimed, LinkStage.locked]
    exact ⟨t, (hbeside q tx hne hq hlocked t hu).mpr ht, htoken, hu, hfree⟩
  · obtain ⟨hne, hq⟩ := htx' q tx hq
    refine (h.stage q tx hq).beside (fun x hx => List.mem_append_right _ hx)
      (fun hlocked x hx hu => (hbeside q tx hne hq hlocked x hu).mp hx)
      (fun v hv => find?_applyUsers hv) fun c hc w hw hchat => ?_
    obtain ⟨-, hgiven⟩ | ⟨hold, -⟩ := mem_applyUsers hw hchat
    · exact absurd hc (h.apart r q _ tx (.chat c) hne.symm hr hq hgiven)
    · exact ⟨w, hold, rfl, hchat⟩

/-! ## Steps -/

theorem Inv.join (h : s.Inv) {u : UserId} {t : Table LinkUser.id}
    (hins : s.db.users.insert ⟨u, none⟩ = some t) :
    ({ s with db := { s.db with users := t } } : Linking).Inv where
  chats v hv w hw hchat heq := by
    obtain hv | rfl := (Table.mem_insert hins).mp hv
    · obtain hw | rfl := (Table.mem_insert hins).mp hw
      · exact h.chats v hv w hw hchat heq
      · exact absurd heq hchat
    · exact absurd rfl hchat
  single := h.single
  issued := h.issued
  distinct := h.distinct
  apart := h.apart
  mine := h.mine
  stage q tx hq := by
    refine (h.stage q tx hq).beside (fun x hx => hx) (fun _ x hx _ => hx) (fun v hv => ?_)
      fun c _ w hw hchat => ?_
    · rw [Table.find?_insert hins]
      split
      · exact Option.some_ne_none _
      · exact hv
    · obtain hw | rfl := (Table.mem_insert hins).mp hw
      · exact ⟨w, hw, rfl, hchat⟩
      · cases hchat

theorem Inv.step {op : LinkOp} (h : s.Inv) (hs : Step s op s') : s'.Inv := by
  cases hs with
  | wait =>
    exact ⟨h.chats, h.single, h.issued, h.distinct, h.apart, h.mine, fun q tx hq =>
      (h.stage q tx hq).beside (fun x hx => hx) (fun _ x hx _ => hx) (fun v hv => hv)
        fun c _ w hw hchat => ⟨w, hw, rfl, hchat⟩⟩
  | join hins => exact h.join hins
  | call _ hbegin =>
    refine h.move_start fun tx htx => ?_
    cases hbegin <;> cases htx
    · exact .inl ⟨_, rfl⟩
    · exact .inr rfl
  | readOwner =>
    refine h.move_start fun tx htx => ?_
    split at htx <;> cases htx
    exact .inl ⟨_, rfl⟩
  | statement hcall htx hrow hnext => exact h.statement hcall htx hrow hnext
  | lose =>
    refine h.move_start fun tx htx => ?_
    rw [Linking.retry] at htx
    split at htx <;> cases htx
    exact .inl ⟨_, rfl⟩
  | commit hcall htx happ hfresh => exact h.commit hcall htx happ hfresh
  | crash => exact h.move_start fun tx htx => by cases htx

theorem Init.inv (h : s.Init) : s.Inv where
  chats := h.chats
  single t ht := by
    rw [Table.mem_def, h.no_tokens] at ht
    cases ht
  issued t ht := by
    rw [Table.mem_def, h.no_tokens] at ht
    cases ht
  distinct x hx := by
    rw [h.issued] at hx
    cases hx
  apart r q tx tx' row _ hr := by
    rw [txOf, h.no_calls] at hr
    cases hr
  mine r tx token hr := by
    rw [txOf, h.no_calls] at hr
    cases hr
  stage r tx hr := by
    rw [txOf, h.no_calls] at hr
    cases hr

theorem reachable_inv (hr : telegramLinks.Reachable s) : s.Inv :=
  hr.invariant (I := Inv) (fun _ hi => Init.inv hi) fun _ _ _ _ h hs => h.step hs

end Linking

end Bookswap
