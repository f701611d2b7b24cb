import Bookswap.Auth.AuthService

/-!
# A reset of the password and the sessions before it

- `Authenticating.EndsOldSessions`: every valid session stems from a login that read the hash after
  the last reset of the user.
- `Authenticating.Timely`: no session is inserted between the reads of a login and a reset that
  miss each other.
- `password_reset_iff`, `password_reset_missed_login`: the runs of timely steps, and a run with a
  login that the reset misses.
-/

namespace Bookswap

open Store (Table)

namespace Authenticating

/-- No valid session stems from a login that read the hash before the last reset of the user. -/
def EndsOldSessions (s : Authenticating) : Prop :=
  ∀ x ∈ s.db.sessions, x.valid s.clock = true → ∀ n ∈ s.seen x.id, s.resetsOf x.userId ≤ n

/-- No login and reset miss each other: a login inserts its session only when no reset of the user
was committed since it read the hash, and a reset commits only when its revocation has found every
session that the user has by now. -/
def Timely (s : Authenticating) : AuthOp → Prop
  | .createSession r _ _ => ∀ a n, s.calls r = some (.creating a n) → s.resetsOf a.id ≤ n
  | .commit r => ∀ tx record known, s.calls r = some (.resetting tx) →
    tx.stage = .revokingRows record known [] →
    ∀ x ∈ s.db.sessions, x.userId = record.userId → x.valid s.clock = true → x.id ∈ known
  | _ => True

/-! ## The invariant -/

/-- What the stage of a reset says of the rows that it has written. -/
def StageOk (s : Authenticating) (tx : ResetTx) : ResetStage → Prop
  | .finding | .claiming _ => tx.claimed = none ∧ tx.used = [] ∧ tx.revoked = []
  | .updating record | .extinguishing record | .extinguishingRows record _ | .revoking record =>
    tx.claimed = some record.id ∧ tx.revoked = []
  | .revokingRows record known rows =>
    tx.claimed = some record.id ∧
    (∀ id ∈ known, s.seen id ≠ none) ∧ (∀ id ∈ rows, id ∈ known) ∧
    (∀ id ∈ tx.revoked, id ∈ known) ∧
    ∀ x ∈ s.db.sessions, x.userId = record.userId → x.id ∈ known → x.revokedAt = none →
      x.id ∈ rows ∨ x.id ∈ tx.revoked

/-- What a login has seen are resets that there were, and a reset has locked unused tokens. -/
def PhaseOk (s : Authenticating) : AuthPhase → Prop
  | .verifying _ a n | .creating a n => n ≤ s.resetsOf a.id
  | .resetting tx => s.StageOk tx tx.stage ∧
    ∀ id, tx.Locks (.token id) → s.db.unused id = true
  | _ => True

structure Inv (s : Authenticating) : Prop where
  seen : ∀ x ∈ s.db.sessions, ∃ n, s.seen x.id = some n ∧ n ≤ s.resetsOf x.userId
  phase : ∀ r ph, s.calls r = some ph → s.PhaseOk ph
  apart : ∀ r tx, s.calls r = some (.resetting tx) →
    ∀ id, tx.Locks (.token id) → ¬ s.Held r (.token id)
  spent : ∀ t ∈ s.resets, s.db.unused t.id = false
  once : (s.resets.map PasswordResetToken.id).Nodup

/-! ## What a step may do to the rows -/

/-- The calls stay where they are; resets and sessions come, sessions end, and no other transaction
uses a token that is locked. -/
structure Grows (s s' : Authenticating) : Prop where
  calls : s'.calls = s.calls
  resets : ∀ u, s.resetsOf u ≤ s'.resetsOf u
  seen : ∀ id n, s.seen id = some n → s'.seen id = some n
  sessions : ∀ x ∈ s'.db.sessions, s.seen x.id = none ∨ ∃ y ∈ s.db.sessions,
    y.id = x.id ∧ y.userId = x.userId ∧ (x.revokedAt = none → y.revokedAt = none)
  tokens : ∀ id, s.Locked (.token id) → s.db.unused id = true → s'.db.unused id = true

variable {s s' : Authenticating} {r : AuthCallId}

theorem StageOk.grows {tx : ResetTx} {stage : ResetStage} (h : s.StageOk tx stage)
    (hg : Grows s s') : s'.StageOk tx stage := by
  cases stage with
  | revokingRows record known rows =>
    obtain ⟨hclaimed, hseen, hrows, hrevoked, hall⟩ := h
    refine ⟨hclaimed, fun id hid hnone => ?_, hrows, hrevoked, fun x hx huser hid hlive => ?_⟩
    · obtain ⟨n, hn⟩ := Option.ne_none_iff_exists'.mp (hseen id hid)
      rw [hg.seen id n hn] at hnone
      cases hnone
    · obtain hfresh | ⟨y, hy, hyid, hyuser, hylive⟩ := hg.sessions x hx
      · -- a session that came later is not among those that the statement found
        exact absurd hfresh (hseen x.id hid)
      · rw [← hyid]
        exact hall y hy (hyuser.trans huser) (hyid ▸ hid) (hylive hlive)
  | _ => exact h

theorem PhaseOk.grows {ph : AuthPhase} (hcall : s.calls r = some ph) (h : s.PhaseOk ph)
    (hg : Grows s s') : s'.PhaseOk ph := by
  cases ph with
  | verifying password a n => exact Nat.le_trans h (hg.resets a.id)
  | creating a n => exact Nat.le_trans h (hg.resets a.id)
  | resetting tx =>
    exact ⟨h.1.grows hg, fun id hid => hg.tokens id ⟨r, tx, hcall, hid⟩ (h.2 id hid)⟩
  | _ => trivial

theorem Inv.grows (h : s.Inv) (hg : Grows s s')
    (hnew : ∀ x ∈ s'.db.sessions, s.seen x.id = none →
      ∃ n, s'.seen x.id = some n ∧ n ≤ s'.resetsOf x.userId)
    (hspent : ∀ t ∈ s'.resets, s'.db.unused t.id = false)
    (honce : (s'.resets.map PasswordResetToken.id).Nodup) : s'.Inv where
  seen x hx := by
    obtain hfresh | ⟨y, hy, hyid, hyuser, -⟩ := hg.sessions x hx
    · exact hnew x hx hfresh
    · obtain ⟨n, hn, hle⟩ := h.seen y hy
      refine ⟨n, hyid ▸ hg.seen y.id n hn, ?_⟩
      rw [← hyuser]
      exact Nat.le_trans hle (hg.resets y.userId)
  phase r ph hcall := by
    rw [hg.calls] at hcall
    exact (h.phase r ph hcall).grows hcall hg
  apart r tx hcall id hid := by
    rw [hg.calls] at hcall
    rintro ⟨q, tx', hne, hq, hlock⟩
    rw [hg.calls] at hq
    exact h.apart r tx hcall id hid ⟨q, tx', hne, hq, hlock⟩
  spent := hspent
  once := honce

/-! ## A call goes on -/

@[simp] theorem move_calls (ph : Option AuthPhase) :
    (s.move r ph).calls = Function.update s.calls r ph := rfl

@[simp] theorem move_db (ph : Option AuthPhase) : (s.move r ph).db = s.db := rfl

@[simp] theorem move_clock (ph : Option AuthPhase) : (s.move r ph).clock = s.clock := rfl

@[simp] theorem move_resets (ph : Option AuthPhase) : (s.move r ph).resets = s.resets := rfl

@[simp] theorem move_seen (ph : Option AuthPhase) : (s.move r ph).seen = s.seen := rfl

@[simp] theorem move_resetsOf (ph : Option AuthPhase) (u : UserId) :
    (s.move r ph).resetsOf u = s.resetsOf u := rfl

theorem PhaseOk.move {ph : AuthPhase} {p : Option AuthPhase} (h : s.PhaseOk ph) :
    (s.move r p).PhaseOk ph := by
  cases ph with
  | resetting tx =>
    refine ⟨?_, h.2⟩
    have hstage := h.1
    cases hst : tx.stage <;> rw [hst] at hstage <;> exact hstage
  | _ => exact h

/-- Where a call goes is right, and what it locks is locked by no other. -/
theorem Inv.move (h : s.Inv) {ph : Option AuthPhase} (hph : ∀ p ∈ ph, s.PhaseOk p)
    (hlock : ∀ tx, ph = some (.resetting tx) → ∀ id, tx.Locks (.token id) →
      ¬ s.Held r (.token id)) : (s.move r ph).Inv where
  seen := h.seen
  phase q p hq := by
    show (s.move r ph).PhaseOk p
    rw [move_calls, Function.update_apply] at hq
    split at hq
    · exact (hph p hq).move
    · exact (h.phase q p hq).move
  apart q tx hq id hid := by
    rintro ⟨q', tx', hne, hq', hid'⟩
    rw [move_calls, Function.update_apply] at hq hq'
    split at hq
    · subst q
      rw [if_neg hne] at hq'
      exact hlock tx hq id hid ⟨q', tx', hne, hq', hid'⟩
    · split at hq'
      · subst q'
        exact hlock tx' hq' id hid' ⟨q, tx, hne.symm, hq, hid⟩
      · exact h.apart q tx hq id hid ⟨q', tx', hne, hq', hid'⟩
  spent := h.spent
  once := h.once

/-- A call that is no reset goes on. -/
theorem Inv.move_plain (h : s.Inv) {ph : Option AuthPhase} (hph : ∀ p ∈ ph, s.PhaseOk p)
    (hplain : ∀ tx, ph ≠ some (.resetting tx)) : (s.move r ph).Inv :=
  h.move hph fun tx htx => absurd htx (hplain tx)

/-! ## Tokens -/

/-- A reset uses the tokens that it has locked up, and no other. -/
theorem unused_apply (tx : ResetTx) (db : AuthDb) (id : ResetTokenId) :
    (tx.apply db).unused id = true ↔ db.unused id = true ∧ ¬ tx.Locks (.token id) := by
  have hrow : (tx.apply db).resetTokens.find? id = (db.resetTokens.find? id).map fun t =>
      if t.id ∈ tx.used then { t with usedAt := some tx.usedAt }
      else if tx.claimed = some t.id then { t with usedAt := some tx.claimedAt } else t := by
    rw [ResetTx.apply, Table.find?_updateWhere, Table.find?_updateWhere, Option.map_map]
    cases db.resetTokens.find? id with
    | none => rfl
    | some t =>
      by_cases hc : tx.claimed = some t.id <;> by_cases hu : t.id ∈ tx.used <;>
        simp [hc, hu, useEdit]
  rw [AuthDb.unused, AuthDb.unused, hrow]
  cases ht : db.resetTokens.find? id with
  | none => simp
  | some t =>
    have hid : t.id = id := Table.key_of_find? ht
    by_cases hc : tx.claimed = some t.id <;> by_cases hu : t.id ∈ tx.used <;>
      simp_all [ResetTx.Locks]

theorem unused_issue {db : AuthDb} {t : PasswordResetToken} {l : Table PasswordResetToken.id}
    (hins : db.resetTokens.insert t = some l) {id : ResetTokenId} (hne : id ≠ t.id) :
    ({ db with resetTokens := l } : AuthDb).unused id = db.unused id := by
  rw [AuthDb.unused, AuthDb.unused, Table.find?_insert hins, if_neg hne]

/-- What a reset has locked after a statement it had locked before, or it is the row of the
statement, unused as yet. -/
theorem locks_next {tx tx' : ResetTx} (hnext : tx.next s.clock s.db = .ok tx')
    {id : ResetTokenId} (hid : tx'.Locks (.token id)) :
    tx.Locks (.token id) ∨ (tx.row = some (.token id) ∧ s.db.unused id = true) := by
  rw [ResetTx.next] at hnext
  cases hst : tx.stage with
  | finding =>
    rw [hst] at hnext
    dsimp only at hnext
    split at hnext
    · cases hnext
    · split at hnext <;> cases hnext
      exact .inl hid
  | claiming record =>
    rw [hst] at hnext
    dsimp only at hnext
    split at hnext <;> cases hnext
    rename_i hunused
    obtain hid | hid := hid
    · cases hid
      exact .inr ⟨by rw [ResetTx.row, hst], hunused⟩
    · exact .inl (.inr hid)
  | extinguishingRows record rows =>
    rw [hst] at hnext
    cases rows with
    | nil =>
      cases hnext
      exact .inl hid
    | cons k rows =>
      cases hnext
      obtain hid | hid := hid
      · exact .inl (.inl hid)
      · dsimp only at hid
        split at hid
        · rename_i hunused
          obtain rfl | hid := List.mem_cons.mp hid
          · exact .inr ⟨by rw [ResetTx.row, hst], hunused⟩
          · exact .inl (.inr hid)
        · exact .inl (.inr hid)
  | revokingRows record known rows =>
    rw [hst] at hnext
    cases rows <;> cases hnext <;> exact .inl hid
  | _ =>
    rw [hst] at hnext
    cases hnext
    exact .inl hid

theorem find?_unrevoked {db : AuthDb} {x : Session} (hx : x ∈ db.sessions)
    (hlive : x.revokedAt = none) : db.unrevoked x.id = true := by
  rw [AuthDb.unrevoked, Table.find?_of_mem hx]
  simpa using hlive

/-- Each statement takes the stage to the next. -/
theorem StageOk.next (h : s.Inv) {tx tx' : ResetTx} (hnext : tx.next s.clock s.db = .ok tx')
    (hstage : s.StageOk tx tx.stage) : s.StageOk tx' tx'.stage := by
  rw [ResetTx.next] at hnext
  cases hst : tx.stage with
  | finding =>
    rw [hst] at hnext hstage
    dsimp only at hnext
    split at hnext
    · cases hnext
    · split at hnext <;> cases hnext
      exact hstage
  | claiming record =>
    rw [hst] at hnext hstage
    dsimp only at hnext
    split at hnext <;> cases hnext
    exact ⟨rfl, hstage.2.2⟩
  | extinguishingRows record rows =>
    rw [hst] at hnext hstage
    cases rows <;> cases hnext <;> exact hstage
  | revoking record =>
    rw [hst] at hnext hstage
    cases hnext
    obtain ⟨hclaimed, hrevoked⟩ := hstage
    refine ⟨hclaimed, fun id hid => ?_, fun id hid => ?_, fun id hid => ?_,
      fun x hx huser _ hlive => .inl ?_⟩
    · obtain ⟨x, hx, rfl⟩ := List.mem_map.mp hid
      obtain ⟨n, hn, -⟩ := h.seen x (List.mem_filter.mp hx).1
      rw [hn]
      exact Option.some_ne_none n
    · obtain ⟨x, hx, rfl⟩ := List.mem_map.mp hid
      exact List.mem_map_of_mem (List.mem_filter.mp hx).1
    · dsimp only at hid
      rw [hrevoked] at hid
      cases hid
    · have hfound : x ∈ s.db.sessions.rows.filter fun x => x.userId = record.userId :=
        List.mem_filter.mpr ⟨hx, by simpa using huser⟩
      exact List.mem_map_of_mem (List.mem_filter.mpr ⟨hfound, by simpa using hlive⟩)
  | revokingRows record known rows =>
    rw [hst] at hnext hstage
    cases rows with
    | nil =>
      cases hnext
      rw [hst]
      exact hstage
    | cons k rows =>
      cases hnext
      obtain ⟨hclaimed, hseen, hrows, hrevoked, hall⟩ := hstage
      refine ⟨hclaimed, hseen, fun id hid => hrows id (List.mem_cons_of_mem k hid),
        fun id hid => ?_, fun x hx huser hid hlive => ?_⟩
      · dsimp only at hid
        split at hid
        · obtain rfl | hid := List.mem_cons.mp hid
          · exact hrows id List.mem_cons_self
          · exact hrevoked id hid
        · exact hrevoked id hid
      · dsimp only
        obtain hrow | hdone := hall x hx huser hid hlive
        · obtain rfl | hrow := List.mem_cons.mp hrow
          · rw [if_pos (find?_unrevoked hx hlive)]
            exact .inr List.mem_cons_self
          · exact .inl hrow
        · refine .inr ?_
          split
          · exact List.mem_cons_of_mem k hdone
          · exact hdone
  | _ =>
    rw [hst] at hnext hstage
    cases hnext
    exact hstage

theorem Inv.statement (h : s.Inv) {tx tx' : ResetTx} (hcall : s.calls r = some (.resetting tx))
    (hrow : ∀ row ∈ tx.row, ¬ s.Held r row) (hnext : tx.next s.clock s.db = .ok tx') :
    (s.move r (some (.resetting tx'))).Inv := by
  obtain ⟨hstage, hunused⟩ := h.phase r _ hcall
  refine h.move (fun p hp => ?_) fun tx'' htx id hid => ?_
  · cases hp
    refine ⟨hstage.next h hnext, fun id hid => ?_⟩
    obtain hid | ⟨-, hfree⟩ := locks_next hnext hid
    · exact hunused id hid
    · exact hfree
  · cases htx
    obtain hid | ⟨hnow, -⟩ := locks_next hnext hid
    · exact h.apart r tx hcall id hid
    · exact hrow _ hnow

/-! ## The rows that each step writes -/

/-- Sessions end or are touched, and nothing else changes. -/
theorem Inv.sessions (h : s.Inv) {t : Table Session.id}
    (ht : ∀ x ∈ t, ∃ y ∈ s.db.sessions, y.id = x.id ∧ y.userId = x.userId ∧
      (x.revokedAt = none → y.revokedAt = none)) :
    ({ s with db := { s.db with sessions := t } } : Authenticating).Inv := by
  refine h.grows ⟨rfl, fun _ => Nat.le_refl _, fun _ _ hn => hn, fun x hx => .inr (ht x hx),
    fun _ _ hu => hu⟩ (fun x hx hfresh => ?_) h.spent h.once
  obtain ⟨y, hy, hyid, -⟩ := ht x hx
  obtain ⟨n, hn, -⟩ := h.seen y hy
  rw [hyid, hfresh] at hn
  cases hn

theorem mem_touch {t : Table Session.id} {k : SessionId} {now : Time} {x : Session}
    (hx : x ∈ t.modify k (touchEdit now)) : ∃ y ∈ t, y.id = x.id ∧ y.userId = x.userId ∧
      y.expiresAt = x.expiresAt ∧ y.revokedAt = x.revokedAt := by
  obtain ⟨y, hy, rfl⟩ := Table.mem_modify.mp hx
  refine ⟨y, hy, ?_⟩
  split <;> exact ⟨rfl, rfl, rfl, rfl⟩

theorem mem_revoke {t : Table Session.id} {p : Session → Bool} {now : Time} {x : Session}
    (hx : x ∈ t.updateWhere p (revokeSessionEdit now)) : ∃ y ∈ t, y.id = x.id ∧ y.userId = x.userId ∧
      y.expiresAt = x.expiresAt ∧ (x.revokedAt = none → y = x ∧ p y = false) := by
  obtain ⟨y, hy, rfl⟩ := Table.mem_updateWhere.mp hx
  refine ⟨y, hy, ?_⟩
  split
  · refine ⟨rfl, rfl, rfl, fun hlive => ?_⟩
    cases hlive
  · rename_i hp
    exact ⟨rfl, rfl, rfl, fun _ => ⟨rfl, Bool.eq_false_iff.mpr hp⟩⟩

theorem mem_sessions_apply {tx : ResetTx} {db : AuthDb} {x : Session}
    (hx : x ∈ (tx.apply db).sessions) : ∃ y ∈ db.sessions, y.id = x.id ∧ y.userId = x.userId ∧
      y.expiresAt = x.expiresAt ∧ (x.revokedAt = none → y = x ∧ x.id ∉ tx.revoked) := by
  obtain ⟨y, hy, hid, huser, hexp, hlive⟩ := mem_revoke hx
  refine ⟨y, hy, hid, huser, hexp, fun hnone => ?_⟩
  obtain ⟨rfl, hp⟩ := hlive hnone
  exact ⟨rfl, by simpa using hp⟩

theorem Inv.createSession (h : s.Inv) {a : Account} {n : Nat} {id : SessionId}
    {tokenHash : TokenHash} {t : Table Session.id} (hcall : s.calls r = some (.creating a n))
    (hins : s.db.sessions.insert (newSession s.clock id tokenHash a.id) = some t)
    (hfresh : s.seen id = none) :
    ({ s with
      db := { s.db with sessions := t }
      seen := Function.update s.seen id (some n) } : Authenticating).Inv := by
  have hle : n ≤ s.resetsOf a.id := h.phase r _ hcall
  refine h.grows ⟨rfl, fun _ => Nat.le_refl _, fun k m hm => ?_, fun x hx => ?_, fun _ _ hu => hu⟩
    (fun x hx hnone => ?_) h.spent h.once
  · have hne : k ≠ id := by
      rintro rfl
      rw [hfresh] at hm
      cases hm
    exact (Function.update_of_ne hne ..).trans hm
  · obtain hx | rfl := (Table.mem_insert hins).mp hx
    · exact .inr ⟨x, hx, rfl, rfl, fun hnone => hnone⟩
    · exact .inl hfresh
  · obtain hx | rfl := (Table.mem_insert hins).mp hx
    · obtain ⟨m, hm, -⟩ := h.seen x hx
      rw [hnone] at hm
      cases hm
    · exact ⟨n, Function.update_self .., hle⟩

theorem Inv.issue (h : s.Inv) {t : PasswordResetToken} {l : Table PasswordResetToken.id}
    (hins : s.db.resetTokens.insert t = some l) (hfresh : ∀ x ∈ s.resets, x.id ≠ t.id) :
    ({ s with db := { s.db with resetTokens := l } } : Authenticating).Inv := by
  refine h.grows ⟨rfl, fun _ => Nat.le_refl _, fun _ _ hn => hn,
    fun x hx => .inr ⟨x, hx, rfl, rfl, id⟩, fun k _ hk => ?_⟩ (fun x hx _ => h.seen x hx)
    (fun x hx => ?_) h.once
  · have hne : k ≠ t.id := by
      rintro rfl
      rw [AuthDb.unused, Table.find?_fresh hins] at hk
      cases hk
    rw [unused_issue hins hne]
    exact hk
  · rw [unused_issue hins (hfresh x hx)]
    exact h.spent x hx

theorem Inv.commit (h : s.Inv) {tx : ResetTx} {record : PasswordResetToken} {known : List SessionId}
    (hcall : s.calls r = some (.resetting tx)) (hst : tx.stage = .revokingRows record known []) :
    ({ s with db := tx.apply s.db, resets := record :: s.resets }.move r
      (some (.answered (.ok .passwordReset)))).Inv := by
  obtain ⟨hstage, hunused⟩ := h.phase r _ hcall
  rw [hst] at hstage
  have hlock : tx.Locks (.token record.id) := .inl hstage.1
  have hover : (s.move r (some (.answered (.ok .passwordReset)))).Inv :=
    h.move_plain (fun p hp => by cases hp; trivial) fun tx htx => by cases htx
  refine hover.grows ⟨rfl, fun u => ?_, fun _ _ hn => hn, fun x hx => .inr ?_, fun id hid hu => ?_⟩
    (fun x hx hnone => ?_) (fun t ht => ?_) ?_
  · show s.resetsOf u ≤ (record :: s.resets).countP _
    rw [List.countP_cons, resetsOf]
    omega
  · obtain ⟨y, hy, hid, huser, -, hlive⟩ := mem_sessions_apply hx
    exact ⟨y, hy, hid, huser, fun hnone => by rw [(hlive hnone).1]; exact hnone⟩
  · -- another transaction has locked the token, so this one has not
    refine (unused_apply tx s.db id).mpr ⟨hu, fun hmine => ?_⟩
    obtain ⟨q, tx', hq, hq'⟩ := hid
    rw [move_calls, Function.update_apply] at hq
    split at hq
    · cases hq
    · rename_i hne
      exact h.apart r tx hcall id hmine ⟨q, tx', hne, hq, hq'⟩
  · obtain ⟨y, hy, hid, -⟩ := mem_sessions_apply hx
    obtain ⟨n, hn, -⟩ := h.seen y hy
    rw [hid, show s.seen x.id = none from hnone] at hn
    cases hn
  · refine Bool.eq_false_iff.mpr fun hu => ?_
    obtain ⟨hu, hfree⟩ := (unused_apply tx s.db t.id).mp hu
    obtain rfl | ht := List.mem_cons.mp ht
    · exact hfree hlock
    · exact Bool.eq_false_iff.mp (h.spent t ht) hu
  · refine List.nodup_cons.mpr ⟨fun hmem => ?_, h.once⟩
    obtain ⟨t, ht, hid⟩ := List.mem_map.mp hmem
    have hspent := h.spent t ht
    rw [hid, hunused record.id hlock] at hspent
    cases hspent

theorem Inv.cleanUp (h : s.Inv)
    (hfree : ∀ t ∈ s.db.resetTokens, t.expiresAt ≤ s.clock → ¬ s.Locked (.token t.id)) :
    ({ s with db := deleteExpired s.clock s.db } : Authenticating).Inv := by
  have hkeep : ∀ id, (deleteExpired s.clock s.db).unused id = true → s.db.unused id = true := by
    intro id hu
    rw [deleteExpired, AuthDb.unused, Table.find?_filter] at hu
    rw [AuthDb.unused]
    cases ht : s.db.resetTokens.find? id with
    | none => simp [ht] at hu
    | some t =>
      rw [ht] at hu
      by_cases hlater : s.clock < t.expiresAt <;> simp [Option.filter, hlater] at hu ⊢
      exact hu
  refine h.grows ⟨rfl, fun _ => Nat.le_refl _, fun _ _ hn => hn,
    fun x hx => .inr ⟨x, (Table.mem_filter.mp hx).1, rfl, rfl, id⟩, fun id hid hu => ?_⟩
    (fun x hx _ => h.seen x (Table.mem_filter.mp hx).1) (fun t ht => ?_) h.once
  · rw [AuthDb.unused] at hu
    rw [deleteExpired, AuthDb.unused, Table.find?_filter]
    cases ht : s.db.resetTokens.find? id with
    | none => simp [ht] at hu
    | some t =>
      rw [ht] at hu
      have hlater : s.clock < t.expiresAt := by
        refine Int.not_le.mp fun hle => hfree t (Table.mem_of_find? ht) hle ?_
        rw [Table.key_of_find? ht]
        exact hid
      rw [Option.filter_some_pos (by simpa using hlater)]
      exact hu
  · refine Bool.eq_false_iff.mpr fun hu => ?_
    exact Bool.eq_false_iff.mp (h.spent t ht) (hkeep t.id hu)

theorem Inv.step {verifies : String → PasswordHash → Bool} {op : AuthOp} (h : s.Inv)
    (hs : Step verifies s op s') : s'.Inv := by
  have hplain : ∀ {s : Authenticating} {r : AuthCallId} {ph : Option AuthPhase}, s.Inv →
      (∀ p ∈ ph, s.PhaseOk p) → (∀ tx, ph ≠ some (.resetting tx)) → (s.move r ph).Inv :=
    fun h hph hno => h.move_plain hph hno
  cases hs with
  | wait _ =>
    exact h.grows ⟨rfl, fun _ => Nat.le_refl _, fun _ _ hn => hn,
      fun x hx => .inr ⟨x, hx, rfl, rfl, fun hnone => hnone⟩, fun _ _ hu => hu⟩
      (fun x hx _ => h.seen x hx) h.spent h.once
  | call _ hbegin =>
    cases hbegin with
    | login => exact hplain h (fun p hp => by cases hp; trivial) fun tx htx => by cases htx
    | check => exact hplain h (fun p hp => by cases hp; trivial) fun tx htx => by cases htx
    | reset tokenHash passwordHash =>
      have hnone : ∀ id, ¬ (ResetTx.start tokenHash passwordHash).Locks (.token id) := by
        simp [ResetTx.Locks, ResetTx.start]
      refine h.move (fun p hp => ?_) fun tx htx id hid => ?_
      · cases hp
        exact ⟨⟨rfl, rfl, rfl⟩, fun id hid => absurd hid (hnone id)⟩
      · cases htx
        exact absurd hid (hnone id)
  | unknown => exact hplain h (fun p hp => by cases hp; trivial) fun tx htx => by cases htx
  | readHash =>
    refine hplain h (fun p hp => ?_) fun tx htx => by cases htx
    cases hp
    exact Nat.le_refl _
  | verify hcall =>
    refine hplain h (fun p hp => ?_) fun tx htx => ?_
    · cases hp
      have hseen := h.phase _ _ hcall
      split
      · exact hseen
      · trivial
    · split at htx <;> cases htx
  | createSession hcall hins hfresh =>
    exact hplain (h.createSession hcall hins hfresh) (fun p hp => by cases hp; trivial)
      fun tx htx => by cases htx
  | check =>
    refine hplain h (fun p hp => ?_) fun tx htx => ?_
    · cases hp
      split <;> trivial
    · split at htx <;> cases htx
  | touch =>
    refine hplain (h.sessions fun x hx => ?_) (fun p hp => by cases hp; trivial)
      fun tx htx => by cases htx
    obtain ⟨y, hy, hid, huser, -, hlive⟩ := mem_touch hx
    exact ⟨y, hy, hid, huser, fun hnone => hlive.trans hnone⟩
  | touchGone => exact hplain h (fun p hp => by cases hp) fun tx htx => by cases htx
  | logout =>
    refine h.sessions fun x hx => ?_
    obtain ⟨y, hy, hid, huser, -, hlive⟩ := mem_revoke hx
    exact ⟨y, hy, hid, huser, fun hnone => by rw [(hlive hnone).1]; exact hnone⟩
  | issue hins hfresh => exact h.issue hins hfresh
  | statement hcall hrow hnext => exact h.statement hcall hrow hnext
  | fail => exact hplain h (fun p hp => by cases hp; trivial) fun tx htx => by cases htx
  | commit hcall hst => exact h.commit hcall hst
  | crash => exact hplain h (fun p hp => by cases hp) fun tx htx => by cases htx
  | cleanUp _ hfree => exact h.cleanUp hfree

theorem Init.inv (h : s.Init) : s.Inv where
  seen x hx := ⟨0, h.seen x hx, Nat.zero_le _⟩
  phase r ph hcall := by
    rw [h.no_calls] at hcall
    cases hcall
  apart r tx hcall := by
    rw [h.no_calls] at hcall
    cases hcall
  spent t ht := by
    rw [h.no_resets] at ht
    cases ht
  once := by
    rw [h.no_resets]
    exact List.nodup_nil

theorem reachable_inv {verifies : String → PasswordHash → Bool}
    (hr : (authenticating verifies).Reachable s) : s.Inv :=
  hr.invariant (I := Inv) (fun _ hi => Init.inv hi) fun _ _ _ _ h hs => h.step hs

/-! ## Old sessions -/

theorem valid_iff {x : Session} {now : Time} :
    x.valid now = true ↔ x.revokedAt = none ∧ now < x.expiresAt := by
  simp [Session.valid]

/-- No reset and no session comes: old sessions stay ended. -/
theorem EndsOldSessions.ending (h : s.EndsOldSessions) (hclock : s.clock ≤ s'.clock)
    (hresets : s'.resets = s.resets) (hseen : s'.seen = s.seen)
    (hsessions : ∀ x ∈ s'.db.sessions, ∃ y ∈ s.db.sessions, y.id = x.id ∧ y.userId = x.userId ∧
      y.expiresAt = x.expiresAt ∧ (x.revokedAt = none → y.revokedAt = none)) :
    s'.EndsOldSessions := by
  intro x hx hvalid n hn
  obtain ⟨hlive, hlater⟩ := valid_iff.mp hvalid
  obtain ⟨y, hy, hid, huser, hexp, hback⟩ := hsessions x hx
  have hyvalid : y.valid s.clock = true := by
    refine valid_iff.mpr ⟨hback hlive, ?_⟩
    rw [hexp]
    exact Int.lt_of_le_of_lt hclock hlater
  rw [resetsOf, hresets, ← huser]
  refine h y hy hyvalid n ?_
  rw [hid, ← hseen]
  exact hn

theorem endsOldSessions_createSession {a : Account} {n : Nat} {id : SessionId}
    {tokenHash : TokenHash} {t : Table Session.id} {ph : Option AuthPhase}
    (h : s.EndsOldSessions)
    (hins : s.db.sessions.insert (newSession s.clock id tokenHash a.id) = some t) :
    ({ s with
      db := { s.db with sessions := t }
      seen := Function.update s.seen id (some n) }.move r ph).EndsOldSessions ↔
      s.resetsOf a.id ≤ n := by
  constructor
  · intro h'
    have hvalid : (newSession s.clock id tokenHash a.id).valid s.clock = true := by
      refine valid_iff.mpr ⟨rfl, ?_⟩
      show s.clock < s.clock + SESSION_TTL_MS
      have hpos : (0 : Int) < SESSION_TTL_MS := by decide
      exact Int.lt_add_of_pos_right s.clock hpos
    exact h' _ ((Table.mem_insert hins).mpr (.inr rfl)) hvalid n (Function.update_self ..)
  · intro hle x hx hvalid m hm
    obtain hx | rfl := (Table.mem_insert hins).mp hx
    · have hne : x.id ≠ id := Table.fresh_of_insert hins x hx
      have hm : s.seen x.id = some m := (Function.update_of_ne hne ..).symm.trans hm
      exact h x hx hvalid m hm
    · cases (Function.update_self ..).symm.trans hm
      exact hle

theorem endsOldSessions_commit {tx : ResetTx} {record : PasswordResetToken}
    {known : List SessionId} {ph : Option AuthPhase} (hi : s.Inv) (h : s.EndsOldSessions)
    (hcall : s.calls r = some (.resetting tx)) (hst : tx.stage = .revokingRows record known []) :
    ({ s with db := tx.apply s.db, resets := record :: s.resets }.move r ph).EndsOldSessions ↔
      ∀ x ∈ s.db.sessions, x.userId = record.userId → x.valid s.clock = true → x.id ∈ known := by
  have hstage := (hi.phase r _ hcall).1
  rw [hst] at hstage
  obtain ⟨-, -, -, hknown, hall⟩ := hstage
  have hcount : ∀ u, List.countP (fun t => decide (t.userId = u)) (record :: s.resets) =
      s.resetsOf u + if record.userId = u then 1 else 0 := by
    intro u
    rw [List.countP_cons, resetsOf]
    simp
  constructor
  · intro h' x hx huser hvalid
    by_contra hnot
    have hkept : x ∈ (tx.apply s.db).sessions := by
      refine Table.mem_updateWhere.mpr ⟨x, hx, if_neg ?_⟩
      simpa using fun hin => hnot (hknown x.id hin)
    obtain ⟨n, hn, hle⟩ := hi.seen x hx
    have hnew := h' x hkept hvalid n hn
    rw [resetsOf, move_resets, hcount, if_pos huser.symm] at hnew
    omega
  · intro hfound x hx hvalid n hn
    obtain ⟨hlive, hlater⟩ := valid_iff.mp hvalid
    obtain ⟨y, hy, -, -, -, hback⟩ := mem_sessions_apply hx
    obtain ⟨rfl, hkept⟩ := hback hlive
    rw [resetsOf, move_resets, hcount]
    split
    · rename_i huser
      obtain hrow | hdone := hall y hy huser.symm (hfound y hy huser.symm hvalid) hlive
      · cases hrow
      · exact absurd hdone hkept
    · exact h y hy hvalid n hn

/-- **A step keeps old sessions ended if and only if it is timely.** -/
theorem endsOldSessions_step {verifies : String → PasswordHash → Bool} {op : AuthOp} (hi : s.Inv)
    (h : s.EndsOldSessions) (hs : Step verifies s op s') :
    s'.EndsOldSessions ↔ s.Timely op := by
  have hsame : ∀ {s' : Authenticating}, s.clock ≤ s'.clock → s'.resets = s.resets →
      s'.seen = s.seen → s'.db.sessions = s.db.sessions → s'.EndsOldSessions :=
    fun hclock hresets hseen hsessions => h.ending hclock hresets hseen fun x hx =>
      ⟨x, hsessions ▸ hx, rfl, rfl, rfl, fun hnone => hnone⟩
  cases hs with
  | wait hle => exact iff_of_true (hsame hle rfl rfl rfl) trivial
  | createSession hcall hins hfresh =>
    refine (endsOldSessions_createSession h hins).trans ⟨fun hle a n hcall' => ?_, fun ht => ?_⟩
    · rw [hcall] at hcall'
      cases hcall'
      exact hle
    · exact ht _ _ hcall
  | commit hcall hst =>
    refine (endsOldSessions_commit hi h hcall hst).trans
      ⟨fun hfound tx record known hcall' hst' => ?_, fun ht => ht _ _ _ hcall hst⟩
    rw [hcall] at hcall'
    cases hcall'
    rw [hst] at hst'
    cases hst'
    exact hfound
  | touch =>
    refine iff_of_true (h.ending (Int.le_refl _) rfl rfl fun x hx => ?_) trivial
    obtain ⟨y, hy, hid, huser, hexp, hlive⟩ := mem_touch hx
    exact ⟨y, hy, hid, huser, hexp, fun hnone => hlive.trans hnone⟩
  | logout =>
    refine iff_of_true (h.ending (Int.le_refl _) rfl rfl fun x hx => ?_) trivial
    obtain ⟨y, hy, hid, huser, hexp, hlive⟩ := mem_revoke hx
    exact ⟨y, hy, hid, huser, hexp, fun hnone => by rw [(hlive hnone).1]; exact hnone⟩
  | cleanUp =>
    refine iff_of_true (h.ending (Int.le_refl _) rfl rfl fun x hx => ?_) trivial
    exact ⟨x, (Table.mem_filter.mp hx).1, rfl, rfl, rfl, fun hnone => hnone⟩
  | _ => exact iff_of_true (hsame (Int.le_refl _) rfl rfl rfl) trivial

/-- Only a reset changes a password. -/
theorem accounts_step {verifies : String → PasswordHash → Bool} {op : AuthOp}
    (hs : Step verifies s op s') :
    s'.db.accounts = s.db.accounts ∨ ∃ record, s'.resets = record :: s.resets := by
  cases hs with
  | commit => exact .inr ⟨_, rfl⟩
  | _ => exact .inl rfl

end Authenticating

/-! ## The claim -/

/-- **A reset ends every old session in a run of timely steps**, whatever else happens between its
statements, and any other step brings a valid session of an old password about. Each token changes
a password at most once in any run. -/
theorem password_reset_iff (verifies : String → PasswordHash → Bool) :
    (∀ s, ((authenticating verifies).restrict fun s op _ => s.Timely op).Reachable s →
      s.EndsOldSessions) ∧
    (∀ s op s', (authenticating verifies).Reachable s → s.EndsOldSessions →
      (authenticating verifies).step s op s' → (s'.EndsOldSessions ↔ s.Timely op)) ∧
    ∀ s, (authenticating verifies).Reachable s →
      (s.resets.map PasswordResetToken.id).Nodup ∧
      ∀ op s', (authenticating verifies).step s op s' → s'.db.accounts = s.db.accounts ∨
        ∃ record, s'.resets = record :: s.resets := by
  have hstep : ∀ s op s', (authenticating verifies).Reachable s → s.EndsOldSessions →
      (authenticating verifies).step s op s' → (s'.EndsOldSessions ↔ s.Timely op) :=
    fun s op s' hr h hs => Authenticating.endsOldSessions_step
      (Authenticating.reachable_inv hr) h hs
  refine ⟨fun s hr => ?_, hstep, fun s hr => ⟨(Authenticating.reachable_inv hr).once,
    fun op s' hs => Authenticating.accounts_step hs⟩⟩
  refine hr.invariant (I := Authenticating.EndsOldSessions) (fun s hi x _ _ n _ => ?_) fun s op s' hr h hs =>
    (hstep s op s' hr.of_restrict h hs.1).mpr hs.2
  rw [Authenticating.resetsOf, hi.no_resets]
  exact Nat.zero_le n

/-! ## A login that the reset misses -/

def exampleVerifies (password : String) (passwordHash : PasswordHash) : Bool :=
  (password, passwordHash) ∈ [("old-password", 1), ("new-password", 2)]

def exampleAccount (passwordHash : PasswordHash) : Account := ⟨5, "reader@books.test", passwordHash⟩

def exampleToken (usedAt : Option Time) : PasswordResetToken := ⟨7, 70, 5, 3600000, usedAt⟩

/-- One user, with the token of a reset. -/
def exampleAuth : Authenticating where
  db := {
    accounts := ⟨[exampleAccount 1], List.nodup_singleton _⟩
    sessions := ⟨[], List.nodup_nil⟩
    resetTokens := ⟨[exampleToken none], List.nodup_singleton _⟩ }
  clock := 0
  calls _ := none
  resets := []
  seen _ := none

/-- Call 1 has verified the old password, and call 2 is the reset. -/
def exampleResetting (tx : ResetTx) : Authenticating :=
  (exampleAuth.move 1 (some (.creating (exampleAccount 1) 0))).move 2 (some (.resetting tx))

theorem exampleResetting_start :
    (authenticating exampleVerifies).Reachable (exampleResetting (.start 70 2)) := by
  have hstart : (authenticating exampleVerifies).Reachable exampleAuth :=
    .start ⟨fun _ => rfl, rfl, fun x hx => by cases hx⟩
  have hlogin : (authenticating exampleVerifies).Reachable _ :=
    hstart.next (Authenticating.Step.call (r := 1) rfl (.login "reader@books.test" "old-password"))
  have hread : (authenticating exampleVerifies).Reachable _ :=
    hlogin.next (Authenticating.Step.readHash (r := 1) rfl rfl)
  have hverify : (authenticating exampleVerifies).Reachable _ :=
    hread.next (Authenticating.Step.verify (r := 1) rfl)
  have hreset : (authenticating exampleVerifies).Reachable _ :=
    hverify.next (Authenticating.Step.call (r := 2) rfl (.reset 70 2))
  simpa [exampleResetting, Authenticating.move, exampleVerifies, exampleAccount,
    Authenticating.resetsOf, exampleAuth] using hreset

theorem exampleResetting_statement {tx tx' : ResetTx}
    (h : (authenticating exampleVerifies).Reachable (exampleResetting tx))
    (hnext : tx.next 0 exampleAuth.db = .ok tx') :
    (authenticating exampleVerifies).Reachable (exampleResetting tx') := by
  have hfree : ∀ row, ¬ (exampleResetting tx).Held 2 row := by
    rintro row ⟨q, tx'', hne, hq, -⟩
    rw [exampleResetting, Authenticating.move_calls, Function.update_of_ne hne,
      Authenticating.move_calls, Function.update_apply] at hq
    split at hq <;> cases hq
  have hstep : Authenticating.Step exampleVerifies (exampleResetting tx) (.statement 2) _ :=
    .statement (r := 2) rfl (fun row _ => hfree row) hnext
  have hmove : (exampleResetting tx).move 2 (some (.resetting tx')) = exampleResetting tx' := by
    simp [exampleResetting, Authenticating.move]
  rw [← hmove]
  exact h.next hstep

/-- **The claim fails**: the reset revokes the sessions that there are, and then the login inserts
the session of the old password. -/
theorem password_reset_missed_login : ∃ (s : Authenticating) (x : Session),
    (authenticating exampleVerifies).Reachable s ∧ s.db.accounts.rows = [exampleAccount 2] ∧
    s.resets = [exampleToken none] ∧ s.db.sessions.rows = [x] ∧ x.userId = 5 ∧
    x.valid s.clock = true ∧ s.seen x.id = some 0 ∧ ¬ s.EndsOldSessions := by
  have hfound := exampleResetting_statement exampleResetting_start rfl
  have hclaimed := exampleResetting_statement hfound rfl
  have hupdated := exampleResetting_statement hclaimed rfl
  have hothers := exampleResetting_statement hupdated rfl
  have hnone := exampleResetting_statement hothers rfl
  have hrevoked := exampleResetting_statement hnone rfl
  have hcommit : (authenticating exampleVerifies).Reachable _ :=
    hrevoked.next (Authenticating.Step.commit (r := 2) rfl rfl)
  have hsession : (authenticating exampleVerifies).Reachable _ :=
    hcommit.next (@Authenticating.Step.createSession exampleVerifies _ 1 (exampleAccount 1) 0 9 90
      ⟨[newSession 0 9 90 5], List.nodup_singleton _⟩ rfl rfl rfl)
  refine ⟨_, newSession 0 9 90 5, hsession, rfl, rfl, rfl, rfl, by decide, rfl, fun hall => ?_⟩
  exact absurd (hall _ List.mem_cons_self (by decide) 0 rfl) (by decide)

end Bookswap
