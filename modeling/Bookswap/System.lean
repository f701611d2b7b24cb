import Bookswap.Lib.Machine
import Bookswap.Library.LibraryCoherence
import Mathlib.Logic.Equiv.List

/-!
# The running system

All transactions of the loan, guest, library and contact services as one machine. Each
committed transaction is one step; which one, with which arguments and which answer, is
the label, and the labels of a run are its history, newest first. What a guest call read
before its transaction (`findByToken` runs outside it) is kept in `lookups` and may be
used at any later step, so every interleaving of such calls is a run.

- `Op`: the labels. Fresh identifiers, tokens, nonces, codes and the clock are arguments.
- `World.Step`, `system`: the machine.
- `reachable_coherent`: **every reachable database is coherent**.
-/

namespace Bookswap

open Store

/-- The database, and what unfinished guest calls have read. -/
structure World where
  db : Db
  lookups : List (Token × TokenLookup)

/-- The committed transactions. -/
inductive Op
  | request (now : Time) (borrowerId : UserId) (req : CreateLoanRequest) (id : LoanId)
  | recordExisting (now : Time) (ownerId : UserId) (req : CreateRecordedLoanRequest) (id : LoanId)
  | apply (now : Time) (actorId : UserId) (loanId : LoanId) (req : UpdateLoanRequest)
  | createGuestLoan (now : Time) (ownerId : UserId) (req : CreateGuestLoanRequest) (id : LoanId)
  | applyGuest (now : Time) (ownerId : UserId) (id : LoanId) (req : UpdateGuestLoanRequest)
  | createRequest (now : Time) (ownerId : UserId) (req : CreateGuestLoanRequest) (id : LoanId)
      (confirmationId : ConfirmationId)
  | applyAction (now : Time) (ownerId : UserId) (id : ConfirmationId)
      (action : GuestConfirmationAction)
  | rotateLink (now : Time) (ownerId : UserId) (id : ConfirmationId) (token : Token)
  /-- The letter with the link of `token` could not be sent. -/
  | withdrawLink (id : ConfirmationId) (token : Token)
  | findByToken (token : Token) (lookup : TokenLookup)
  | requestCode (now : Time) (lookup : TokenLookup) (req : RequestGuestCodeRequest) (code : Code)
      (nonce : Nonce) (reply : Except GuestFailure Unit)
  /-- The letter with the code of `nonce` could not be sent. -/
  | withdrawCode (id : ConfirmationId) (nonce : Nonce)
  /-- `compared` tells whether the guess was compared with a live code at all. -/
  | verifyCode (now : Time) (lookup : TokenLookup) (req : VerifyGuestCodeRequest) (proof : Token)
      (compared : Bool) (reply : Except GuestFailure Unit)
  | answer (now : Time) (lookup : TokenLookup) (req : AnswerGuestResponseRequest)
      (reply : Except GuestFailure Unit)
  | addCopy (now : Time) (userId : UserId) (req : AddCopyRequest) (id : CopyId)
  | updateCopy (userId : UserId) (copyId : CopyId) (req : UpdateCopyRequest)
  | removeCopy (userId : UserId) (copyId : CopyId)
  | archiveCopy (now : Time) (userId : UserId) (copyId : CopyId)
  | restoreCopy (userId : UserId) (copyId : CopyId)
  | createContact (now : Time) (ownerId : UserId) (aliasName : String) (id : ContactId)
  | updateAlias (ownerId : UserId) (id : ContactId) (aliasName : String)
  | deleteContact (ownerId : UserId) (id : ContactId)
  | cleanupContacts (now : Time) (batch : List ContactId)
  | backfillContact (id : ContactId)
  /-- Profiles and friendships change; no user is deleted. -/
  | social (users : Table User.id) (friendships : Table Friendship.pair)

/-- Is the guess compared with a live code? -/
def guessCompared (secrets : GuestConfirmationSecrets) (now : Time) (lookup : TokenLookup)
    (token : Token) (db : Db) : Bool :=
  match lockOwnRow secrets db lookup.id token now with
  | .error _ => false
  | .ok row => row.codeFailedTotal < GUEST_CODE_MAX_FAILED_TOTAL ∧ (row.liveCode now).isSome

namespace World

/-- A transaction commits. -/
def Commits (w : World) (tx : Db → Tx Db) (w' : World) : Prop :=
  tx w.db = .ok w'.db ∧ w'.lookups = w.lookups

/-- A guest call uses what it looked up for its token before. -/
def Calls (w : World) (token : Token) (lookup : TokenLookup) (w' : World) : Prop :=
  (token, lookup) ∈ w.lookups ∧ w'.lookups = w.lookups

/-- The steps. -/
def Step (secrets : GuestConfirmationSecrets) (w : World) (op : Op) (w' : World) : Prop :=
  match op with
  | .request now borrowerId req id => w.Commits (Bookswap.request now borrowerId req id) w'
  | .recordExisting now ownerId req id => w.Commits (createRecorded now ownerId req id) w'
  | .apply now actorId loanId req => w.Commits (runTransition now actorId loanId req) w'
  | .createGuestLoan now ownerId req id =>
    w.Commits (Bookswap.createGuestLoan now ownerId req id) w'
  | .applyGuest now ownerId id req => w.Commits (applyGuestTransition now ownerId id req) w'
  | .createRequest now ownerId req id confirmationId =>
    w.Commits (Bookswap.createRequest now ownerId req id confirmationId) w'
  | .applyAction now ownerId id action => w.Commits (Bookswap.applyAction now ownerId id action) w'
  | .rotateLink now ownerId id token =>
    w.Commits (Bookswap.rotateLink secrets now ownerId id token) w'
  | .withdrawLink id token =>
    w.Commits (fun db => .ok (Bookswap.withdrawLink secrets id token db)) w'
  | .findByToken token lookup =>
    Bookswap.findByToken secrets token w.db = .ok lookup ∧ w'.db = w.db ∧
      w'.lookups = (token, lookup) :: w.lookups
  | .requestCode now lookup req code nonce reply =>
    Bookswap.requestCode secrets now lookup req code nonce w.db = (w'.db, reply) ∧
      w.Calls req.token lookup w'
  | .withdrawCode id nonce => w.Commits (fun db => .ok (Bookswap.withdrawCode id nonce db)) w'
  | .verifyCode now lookup req proof compared reply =>
    Bookswap.verifyCode secrets now lookup req proof w.db = (w'.db, reply) ∧
      compared = guessCompared secrets now lookup req.token w.db ∧ w.Calls req.token lookup w'
  | .answer now lookup req reply =>
    applyAnswer secrets now lookup req w.db = .ok (w'.db, reply) ∧ w.Calls req.token lookup w'
  | .addCopy now userId req id => w.Commits (Bookswap.addCopy now userId req id) w'
  | .updateCopy userId copyId req => w.Commits (Bookswap.updateCopy userId copyId req) w'
  | .removeCopy userId copyId => w.Commits (Bookswap.removeCopy userId copyId) w'
  | .archiveCopy now userId copyId => w.Commits (Bookswap.archiveCopy now userId copyId) w'
  | .restoreCopy userId copyId => w.Commits (Bookswap.restoreCopy userId copyId) w'
  | .createContact now ownerId aliasName id =>
    w.Commits (Bookswap.createContact now ownerId aliasName id) w'
  | .updateAlias ownerId id aliasName => w.Commits (Bookswap.updateAlias ownerId id aliasName) w'
  | .deleteContact ownerId id => w.Commits (Bookswap.deleteContact ownerId id) w'
  | .cleanupContacts now batch =>
    w.Commits (fun db => .ok (Bookswap.cleanupContacts now batch db)) w'
  | .backfillContact id => w.Commits (Bookswap.backfillContact id) w'
  | .social users friendships =>
    (∀ id u, w.db.users.find? id = some u → ∃ u', users.find? id = some u') ∧
      w'.db = { w.db with users := users, friendships := friendships } ∧ w'.lookups = w.lookups

/-- Before any loan: copies at home, with their owners, and nobody's call under way. -/
structure Init (w : World) : Prop where
  no_loans : w.db.loans = .empty
  no_confirmations : w.db.confirmations = .empty
  no_events : w.db.events = []
  no_notifications : w.db.notifications = []
  no_lookups : w.lookups = []
  idle : ∀ c ∈ w.db.copies, c.shape.Idle
  owned : ∀ c ∈ w.db.copies, ∃ u, w.db.users.find? c.ownerId = some u

end World

/-- The machine of the whole service. -/
def system (secrets : GuestConfirmationSecrets) : Machine World Op where
  init := World.Init
  step := World.Step secrets

/-! ## The invariant of the running system -/

/-- The database is coherent, and unfinished calls rely on what is still so. -/
structure World.Coherent (w : World) : Prop where
  db : w.db.Coherent
  lookups : ∀ x ∈ w.lookups, x.2.Valid w.db

/-- Without loans there is nothing to disagree. -/
theorem World.Init.coherent {w : World} (h : w.Init) : w.Coherent := by
  have hnone : ∀ l, l ∉ w.db.loans := by
    rw [h.no_loans]
    exact fun l => Table.not_mem_empty
  have hfree : ∀ r, w.db.occupancy.Free r := by
    intro r k t hk
    obtain ⟨l, hl, -⟩ := hold_eq_some.mp hk
    exact hnone l (Table.mem_of_find? hl)
  refine ⟨⟨fun l hl => absurd hl (hnone l), ⟨?_, ?_, ?_⟩, fun l hl => absurd hl (hnone l),
    fun l hl => absurd hl (hnone l), h.owned, fun l hl => absurd hl (hnone l), ?_, ?_, ?_⟩, ?_⟩
  · exact fun hk _ => absurd hk (hfree _ _ _)
  · exact fun hk => absurd hk (hfree _ _ _)
  · intro r t hs _
    obtain ⟨c, hc, rfl⟩ := shape_eq_some.mp hs
    exact h.idle c (Table.mem_of_find? hc)
  · rw [h.no_events]
    exact fun e he => nomatch he
  · rw [h.no_notifications]
    exact fun n hn => nomatch hn
  · rw [h.no_confirmations]
    exact fun g hg => absurd hg Table.not_mem_empty
  · rw [h.no_lookups]
    exact fun x hx => nomatch hx

/-- **Every step of the system keeps the database coherent and loses no loan.** -/
theorem World.Step.evolves {secrets : GuestConfirmationSecrets} {w w' : World} {op : Op}
    (h : w.Coherent) (hs : w.Step secrets op w') : w.db.Evolves w'.db := by
  cases op with
  | request now borrowerId req id => exact request_evolves h.db hs.1
  | recordExisting now ownerId req id => exact createRecorded_evolves h.db hs.1
  | apply now actorId loanId req => exact runTransition_evolves h.db hs.1
  | createGuestLoan now ownerId req id => exact createGuestLoan_evolves h.db hs.1
  | applyGuest now ownerId id req => exact applyGuestTransition_evolves h.db hs.1
  | createRequest now ownerId req id confirmationId => exact createRequest_evolves h.db hs.1
  | applyAction now ownerId id action => exact applyAction_evolves h.db hs.1
  | rotateLink now ownerId id token => exact rotateLink_evolves h.db hs.1
  | withdrawLink id token =>
    obtain ⟨hok, -⟩ := hs
    exact Except.ok.inj hok ▸ withdrawLink_evolves h.db
  | findByToken token lookup =>
    obtain ⟨-, hdb, -⟩ := hs
    exact hdb ▸ h.db.refl
  | requestCode now lookup req code nonce reply =>
    have hev : w.db.Evolves (Bookswap.requestCode secrets now lookup req code nonce w.db).1 :=
      requestCode_evolves h.db
    rwa [hs.1] at hev
  | withdrawCode id nonce =>
    obtain ⟨hok, -⟩ := hs
    exact Except.ok.inj hok ▸ withdrawCode_evolves h.db
  | verifyCode now lookup req proof compared reply =>
    have hev : w.db.Evolves (Bookswap.verifyCode secrets now lookup req proof w.db).1 :=
      verifyCode_evolves h.db
    rwa [hs.1] at hev
  | answer now lookup req reply =>
    exact applyAnswer_evolves h.db (h.lookups _ hs.2.1) hs.1
  | addCopy now userId req id => exact addCopy_evolves h.db hs.1
  | updateCopy userId copyId req => exact updateCopy_evolves h.db hs.1
  | removeCopy userId copyId => exact removeCopy_evolves h.db hs.1
  | archiveCopy now userId copyId => exact archiveCopy_evolves h.db hs.1
  | restoreCopy userId copyId => exact restoreCopy_evolves h.db hs.1
  | createContact now ownerId aliasName id => exact createContact_evolves h.db hs.1
  | updateAlias ownerId id aliasName => exact updateAlias_evolves h.db hs.1
  | deleteContact ownerId id => exact deleteContact_evolves h.db hs.1
  | cleanupContacts now batch =>
    obtain ⟨hok, -⟩ := hs
    exact Except.ok.inj hok ▸ cleanupContacts_evolves h.db
  | backfillContact id => exact recomputeRetainUntil_evolves h.db hs.1
  | social users friendships =>
    obtain ⟨hkeep, hdb, -⟩ := hs
    rw [hdb]
    exact h.db.quiet ⟨rfl, rfl, rfl, ⟨[], (List.append_nil _).symm, fun _ hn => nomatch hn⟩,
      ⟨noEdit, (map_noEdit _).symm, fun _ => ⟨rfl, rfl, rfl⟩⟩, fun _ k hk => ⟨k, hk⟩, hkeep⟩

/-- A step forgets no lookup, and adds only what it found. -/
theorem World.Step.lookups {secrets : GuestConfirmationSecrets} {w w' : World} {op : Op}
    (hs : w.Step secrets op w') :
    ∀ x ∈ w'.lookups, x ∈ w.lookups ∨
      (Bookswap.findByToken secrets x.1 w.db = .ok x.2 ∧ w'.db = w.db) := by
  intro x hx
  cases op with
  | findByToken token lookup =>
    obtain ⟨hfound, hdb, hl⟩ := hs
    rw [hl] at hx
    rcases List.mem_cons.mp hx with rfl | hx
    · exact Or.inr ⟨hfound, hdb⟩
    · exact Or.inl hx
  | verifyCode now lookup req proof compared reply => exact Or.inl (hs.2.2.2 ▸ hx)
  | requestCode now lookup req code nonce reply => exact Or.inl (hs.2.2 ▸ hx)
  | answer now lookup req reply => exact Or.inl (hs.2.2 ▸ hx)
  | social users friendships => exact Or.inl (hs.2.2 ▸ hx)
  | _ => exact Or.inl (hs.2 ▸ hx)

/-- **Every step keeps the invariant.** -/
theorem World.Coherent.step {secrets : GuestConfirmationSecrets} {w w' : World} {op : Op}
    (h : w.Coherent) (hs : w.Step secrets op w') : w'.Coherent := by
  have hev := hs.evolves h
  refine ⟨hev.coherent, fun x hx => ?_⟩
  rcases hs.lookups x hx with hx | ⟨hfound, hdb⟩
  · exact (h.lookups x hx).extends hev.kept
  · rw [hdb]
    exact findByToken_valid hfound

/-- **Every reachable world is coherent.** -/
theorem reachable_coherent {secrets : GuestConfirmationSecrets} {w : World}
    (h : (system secrets).Reachable w) : w.Coherent := by
  exact h.invariant (I := World.Coherent) (fun _ hi => World.Init.coherent hi)
    fun _ _ _ _ hc hs => hc.step hs

/-! ## A small library -/

def exampleOwner : User := ⟨1, "Оксана", "oksana", none, .friends, true, false, false⟩

def exampleFriend : User := ⟨2, "Тарас", "taras", none, .friends, true, false, false⟩

def exampleCopy : Copy where
  id := 10
  editionId := 100
  ownerId := 1
  currentHolderId := some 1
  heldByContactId := none
  archivedAt := none
  status := .available
  visibility := .friends
  condition := .good
  note := none
  acquiredAt := none
  createdAt := 0

/-- An owner, a friend, a contact and a copy, before any loan. -/
def exampleDb : Db where
  users := ⟨[exampleOwner, exampleFriend], by decide⟩
  friendships := ⟨[⟨1, 2, Nat.one_lt_two, .accepted, 2, none⟩], by decide⟩
  copies := ⟨[exampleCopy], by decide⟩
  loans := .empty
  confirmations := .empty
  contacts := ⟨[⟨7, 1, "сусідка", none, 0, none, none, none⟩], by decide⟩
  events := []
  notifications := []

theorem example_init : World.Init ⟨exampleDb, []⟩ where
  no_loans := rfl
  no_confirmations := rfl
  no_events := rfl
  no_notifications := rfl
  no_lookups := rfl
  idle := fun c hc => by
    rw [List.mem_singleton.mp hc]
    exact ⟨Or.inl rfl, rfl, rfl⟩
  owned := fun c hc => by
    rw [List.mem_singleton.mp hc]
    exact ⟨exampleOwner, rfl⟩

def exampleLend : CreateGuestLoanRequest := ⟨10, 7, 0, none, fun _ hd => nomatch hd⟩

/-- The copy of `exampleDb` waits for the contact's word. -/
def exampleWaiting : Db :=
  { exampleDb with
    copies := exampleDb.copies.modify 10 (contactEdit .reserved 7)
    loans := ⟨[guestLoanRow .pendingConfirmation 0 exampleCopy exampleLend 20], by decide⟩
    confirmations := ⟨[confirmationRow 0 30 20 7], by decide⟩
    events := [⟨20, .guestConfirmationRequested, some 1, 0, none, .empty⟩] }

/-- The input of an HMAC as numbers: no two inputs are the same numbers. -/
def MacInput.numbers : MacInput → (ℕ × List ℕ × List ℕ) ⊕ (ℕ × ℕ × ℕ)
  | .challenge id email nickname =>
    .inl (id, email.toList.map Char.toNat, nickname.toList.map Char.toNat)
  | .code id challengeMac guess => .inr (id, challengeMac, guess)

/-- Functions that hide nothing and do not collide. -/
def exampleSecrets : GuestConfirmationSecrets where
  hashToken := id
  mac input := Encodable.encode input.numbers
  trim := id
  toLowerCase := id

theorem exampleSecrets_injective : exampleSecrets.Injective where
  hashToken := fun _ _ h => h
  mac := by
    intro x y h
    have hnumbers : x.numbers = y.numbers := Encodable.encode_injective h
    have htext : ∀ s t : String, s.toList.map Char.toNat = t.toList.map Char.toNat → s = t :=
      fun s t h => String.toList_inj.mp (List.map_injective_iff.mpr (fun _ _ => Char.toNat_inj.mp) h)
    cases x <;> cases y <;> simp only [MacInput.numbers, Sum.inl.injEq, Sum.inr.injEq,
      Prod.mk.injEq, reduceCtorEq] at hnumbers
    · obtain ⟨rfl, he, hn⟩ := hnumbers
      rw [htext _ _ he, htext _ _ hn]
    · obtain ⟨rfl, rfl, hc⟩ := hnumbers
      rw [Fin.ext hc]

theorem exampleWaiting_reachable (secrets : GuestConfirmationSecrets) :
    (system secrets).Reachable ⟨exampleWaiting, []⟩ := by
  have hstart : (system secrets).Reachable ⟨exampleDb, []⟩ := .start example_init
  have hlent : createRequest 0 1 exampleLend 20 30 exampleDb = .ok exampleWaiting := rfl
  exact hstart.next (i := .createRequest 0 1 exampleLend 20 30) ⟨hlent, rfl⟩

end Bookswap
