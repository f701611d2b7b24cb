import Bookswap.Catalog.CatalogService

/-!
# merge.service.ts: merging duplicate works

One transaction: the rows of the source work move to the target, and the source stays as a pointer
to it. Where a reader has a row on both, one of the two loses before the rows move.

- `assertMergeable`, `reconcileEditionLanguages`: what refuses a merge.
- `pairUpByUser`, `losersOf`: who has a row on both works, and which of the two loses.
- `consolidateWorkAuthors`: the author lists.
- `merge`, `Merged`, `merge_eq_ok`: the operation, and what it leaves.
-/

namespace Bookswap

open Checked

/-- `WORK_MERGE_ERROR_CODES` -/
inductive WorkMergeErrorCode
  | workNotFound | self | sourceAlreadyMerged | targetAlreadyMerged | languageConflict
  deriving DecidableEq, Repr

structure WorkMergeError where
  code : WorkMergeErrorCode
  message : String
  deriving DecidableEq, Repr

abbrev MergeTx (α : Type) := Except WorkMergeError α

structure MergeSummary where
  sourceWorkId : WorkId
  targetWorkId : WorkId
  translationsMoved : Nat
  editionsMoved : Nat
  reviewsMoved : Nat
  reviewsArchived : Nat
  wishlistItemsMoved : Nat
  wishlistDuplicatesRemoved : Nat
  readingStatusesMoved : Nat
  readingStatusDuplicatesRemoved : Nat
  authorLinksMoved : Nat
  authorLinksDuplicatesRemoved : Nat
  incomingMergesRepointed : Nat
  editionLanguagesSet : Nat
  deriving DecidableEq, Repr

/-! ## What refuses a merge -/

/-- `assertMergeable`: both works exist and are canonical. -/
def assertMergeable (db : CatalogDb) (sourceWorkId targetWorkId : WorkId) : MergeTx (Work × Work) :=
  match db.work? sourceWorkId, db.work? targetWorkId with
  | none, _ => throw ⟨.workNotFound, s!"Твору {sourceWorkId} не існує"⟩
  | some _, none => throw ⟨.workNotFound, s!"Твору {targetWorkId} не існує"⟩
  | some source, some target =>
    match source.mergedIntoId, target.mergedIntoId with
    | some canonical, _ =>
      throw ⟨.sourceAlreadyMerged, s!"Вихідний твір уже змержено у {canonical}"⟩
    | none, some canonical => throw ⟨.targetAlreadyMerged,
        s!"Цільовий твір сам змержено у {canonical} — мержити треба туди"⟩
    | none, none => pure (source, target)

/-- The editions of the source that contradict the language of the target. -/
def mergeConflicts (editions : List Edition) (targetOrigLang : Option String) : List EditionId :=
  (editions.filter fun e => planMergeLanguage e targetOrigLang = .conflict).map Edition.id

/-- The editions of the source whose unknown language becomes that of the target. -/
def mergeUpdates (editions : List Edition) (targetOrigLang : Option String) :
    List (EditionId × String) :=
  editions.filterMap fun e => match planMergeLanguage e targetOrigLang with
    | .set lang => some (e.id, lang)
    | .keep | .conflict => none

/-- `reconcileEditionLanguages`, with the number of editions whose language is set. -/
def reconcileEditionLanguages (s : CatalogStore) (sourceWorkId : WorkId) (target : Work) :
    MergeTx (CatalogStore × Nat) := do
  let editions := s.db.editions.filter fun e => e.workId = sourceWorkId
  let conflicts := mergeConflicts editions target.origLang
  let lang := target.origLang.getD "невідома"
  let ids := ", ".intercalate (conflicts.map toString)
  throwIf (conflicts ≠ []) ⟨.languageConflict, "Видання вихідного твору мають відому мову, " ++
    s!"відмінну від мови оригіналу цільового твору ({lang}): {ids}"⟩
  let updates := mergeUpdates editions target.origLang
  return (applyEditionTextUpdates s updates, updates.length)

/-! ## Readers with a row on both works -/

section Pairs

variable {ρ : Type} (user : ρ → UserId) (work : ρ → WorkId)

/-- `pairUpByUser`: the source's row and the target's. A `Map` keeps the last row of a user. -/
def pairUpByUser (rows : List ρ) (sourceWorkId : WorkId) : List (ρ × ρ) :=
  let onSource := rows.filter fun r => work r = sourceWorkId
  let onTarget := rows.filter fun r => work r ≠ sourceWorkId
  (onSource.map user).eraseDups.filterMap fun u => do
    let source ← (onSource.filter fun r => user r = u).getLast?
    let target ← (onTarget.filter fun r => user r = u).getLast?
    return (source, target)

/-- The rows that lose; `wins` says that the source's row wins. -/
def losersOf (id : ρ → Nat) (wins : ρ → ρ → Bool) (rows : List ρ) (sourceWorkId : WorkId) :
    List Nat :=
  (pairUpByUser user work rows sourceWorkId).map fun p =>
    if wins p.1 p.2 then id p.2 else id p.1

end Pairs

section Losers

variable {ρ : Type} {user : ρ → UserId} {work : ρ → WorkId} {id : ρ → Nat} {wins : ρ → ρ → Bool}
  {rows : List ρ} {a b : WorkId}

/-- One row of a reader on a work. -/
def OneEach (user : ρ → UserId) (work : ρ → WorkId) (rows : List ρ) : Prop :=
  ∀ r ∈ rows, ∀ q ∈ rows, user r = user q → work r = work q → r = q

theorem getLast?_of_one {l : List ρ} (h : ∀ r ∈ l, ∀ q ∈ l, r = q) {r : ρ} :
    l.getLast? = some r ↔ r ∈ l := by
  constructor
  · exact List.mem_of_getLast?
  · intro hr
    rw [List.getLast?_eq_some_getLast (List.ne_nil_of_mem hr)]
    exact congrArg some (h _ (List.getLast_mem _) r hr)

/-- The pairs are the rows of one reader on the two works. -/
theorem mem_pairUpByUser (hone : OneEach user work rows)
    (htwo : ∀ r ∈ rows, work r = a ∨ work r = b) (hab : a ≠ b) {p : ρ × ρ} :
    p ∈ pairUpByUser user work rows a ↔ p.1 ∈ rows ∧ p.2 ∈ rows ∧ work p.1 = a ∧ work p.2 = b ∧
      user p.1 = user p.2 := by
  have hsource : ∀ u r, ((rows.filter fun r => work r = a).filter fun r => user r = u).getLast? =
      some r ↔ r ∈ rows ∧ work r = a ∧ user r = u := by
    intro u r
    rw [getLast?_of_one fun r hr q hq => ?_]
    · simp [and_comm (a := user r = u)]
    · simp only [List.mem_filter, decide_eq_true_eq] at hr hq
      exact hone r hr.1.1 q hq.1.1 (hr.2.trans hq.2.symm) (hr.1.2.trans hq.1.2.symm)
  have hwork : ∀ r ∈ rows, work r ≠ a ↔ work r = b := fun r hr =>
    ⟨fun h => (htwo r hr).resolve_left h, fun h h' => hab (h'.symm.trans h)⟩
  have htarget : ∀ u r, ((rows.filter fun r => work r ≠ a).filter fun r => user r = u).getLast? =
      some r ↔ r ∈ rows ∧ work r = b ∧ user r = u := by
    intro u r
    rw [getLast?_of_one fun r hr q hq => ?_]
    · simp only [List.mem_filter, decide_eq_true_eq, and_assoc]
      exact and_congr_right fun hr => and_congr_left fun _ => hwork r hr
    · simp only [List.mem_filter, decide_eq_true_eq] at hr hq
      exact hone r hr.1.1 q hq.1.1 (hr.2.trans hq.2.symm)
        (((hwork r hr.1.1).mp hr.1.2).trans ((hwork q hq.1.1).mp hq.1.2).symm)
  unfold pairUpByUser
  simp only [List.mem_filterMap, Option.bind_eq_bind, Option.bind_eq_some_iff, hsource, htarget,
    Option.pure_def, Option.some.injEq, List.mem_eraseDups, List.mem_map]
  constructor
  · rintro ⟨u, -, source, ⟨hs, hsw, hsu⟩, target, ⟨ht, htw, htu⟩, rfl⟩
    exact ⟨hs, ht, hsw, htw, hsu.trans htu.symm⟩
  · rintro ⟨hs, ht, hsw, htw, huser⟩
    exact ⟨user p.1, ⟨p.1, List.mem_filter.mpr ⟨hs, by simpa using hsw⟩, rfl⟩, p.1,
      ⟨hs, hsw, rfl⟩, p.2, ⟨ht, htw, huser.symm⟩, rfl⟩

/-- **Who loses**: a row with one on the other work that wins. -/
theorem mem_losersOf (hone : OneEach user work rows)
    (htwo : ∀ r ∈ rows, work r = a ∨ work r = b) (hab : a ≠ b)
    (hids : ∀ r ∈ rows, ∀ q ∈ rows, id r = id q → r = q) {r : ρ} (hr : r ∈ rows) :
    id r ∈ losersOf user work id wins rows a ↔ ∃ q ∈ rows, user q = user r ∧
      ((work r = a ∧ work q = b ∧ wins r q = false) ∨
        (work r = b ∧ work q = a ∧ wins q r = true)) := by
  unfold losersOf
  simp only [List.mem_map]
  constructor
  · rintro ⟨⟨source, target⟩, hp, hid⟩
    obtain ⟨hs, ht, hsw, htw, huser⟩ := (mem_pairUpByUser hone htwo hab).mp hp
    dsimp only at hs ht hsw htw huser hid
    cases hwins : wins source target with
    | true =>
      rw [if_pos hwins] at hid
      obtain rfl := hids _ ht _ hr hid
      exact ⟨source, hs, huser, .inr ⟨htw, hsw, hwins⟩⟩
    | false =>
      rw [if_neg (by rw [hwins]; exact Bool.false_ne_true)] at hid
      obtain rfl := hids _ hs _ hr hid
      exact ⟨target, ht, huser.symm, .inl ⟨hsw, htw, hwins⟩⟩
  · rintro ⟨q, hq, huser, ⟨hrw, hqw, hwins⟩ | ⟨hrw, hqw, hwins⟩⟩
    · refine ⟨(r, q), (mem_pairUpByUser hone htwo hab).mpr ⟨hr, hq, hrw, hqw, huser.symm⟩, ?_⟩
      exact if_neg (by rw [hwins]; exact Bool.false_ne_true)
    · refine ⟨(q, r), (mem_pairUpByUser hone htwo hab).mpr ⟨hq, hr, hqw, hrw, huser⟩, ?_⟩
      exact if_pos hwins

end Losers

/-- The rows of either work. -/
def onEither {ρ : Type} (work : ρ → WorkId) (sourceWorkId targetWorkId : WorkId) (rows : List ρ) :
    List ρ :=
  rows.filter fun r => work r = sourceWorkId ∨ work r = targetWorkId

/-- The active reviews that lose: the older one of each reader, on a tie the source's. -/
def losingReviews (s : CatalogStore) (sourceWorkId targetWorkId : WorkId) : List Nat :=
  losersOf Review.userId Review.workId Review.id (fun r q => r.updatedAt > q.updatedAt)
    (onEither Review.workId sourceWorkId targetWorkId
      (s.reviews.filter fun r => r.archivedAt = none)) sourceWorkId

/-- The wishlist items that lose: the later one of each reader, on a tie the source's. -/
def losingWishlistItems (s : CatalogStore) (sourceWorkId targetWorkId : WorkId) : List Nat :=
  losersOf WishlistItem.userId WishlistItem.workId WishlistItem.id
    (fun r q => r.createdAt < q.createdAt)
    (onEither WishlistItem.workId sourceWorkId targetWorkId s.wishlist) sourceWorkId

/-- The reading statuses that lose: the older one of each reader, on a tie the source's. -/
def losingReadingStatuses (s : CatalogStore) (sourceWorkId targetWorkId : WorkId) : List Nat :=
  losersOf WorkReadingStatus.userId WorkReadingStatus.workId WorkReadingStatus.id
    (fun r q => r.updatedAt > q.updatedAt)
    (onEither WorkReadingStatus.workId sourceWorkId targetWorkId s.statuses) sourceWorkId

/-- `archiveLosingReviews` -/
def archiveLosingReviews (s : CatalogStore) (sourceWorkId targetWorkId : WorkId) (now : Time) :
    CatalogStore :=
  { s with reviews := s.reviews.map fun r =>
      if r.id ∈ losingReviews s sourceWorkId targetWorkId then
        { r with archivedAt := some now, archivedByMergeSourceId := some sourceWorkId } else r }

/-- `dropLosingWishlistItems` -/
def dropLosingWishlistItems (s : CatalogStore) (sourceWorkId targetWorkId : WorkId) :
    CatalogStore :=
  { s with wishlist := s.wishlist.filter fun r =>
      r.id ∉ losingWishlistItems s sourceWorkId targetWorkId }

/-- `dropLosingReadingStatuses` -/
def dropLosingReadingStatuses (s : CatalogStore) (sourceWorkId targetWorkId : WorkId) :
    CatalogStore :=
  { s with statuses := s.statuses.filter fun r =>
      r.id ∉ losingReadingStatuses s sourceWorkId targetWorkId }

/-! ## Moving the rows -/

/-- The row of the source now is the target's. -/
def movedFrom (sourceWorkId targetWorkId workId : WorkId) : WorkId :=
  if workId = sourceWorkId then targetWorkId else workId

/-- `updateMany(onSource)` of the five tables; nothing but `workId` changes. -/
def moveRows (s : CatalogStore) (sourceWorkId targetWorkId : WorkId) : CatalogStore :=
  let move := movedFrom sourceWorkId targetWorkId
  { s with
    db := { s.db with
      translations := s.db.translations.map fun t => { t with workId := move t.workId }
      editions := s.db.editions.map fun e => { e with workId := move e.workId } }
    reviews := s.reviews.map fun r => { r with workId := move r.workId }
    wishlist := s.wishlist.map fun r => { r with workId := move r.workId }
    statuses := s.statuses.map fun r => { r with workId := move r.workId } }

/-- `linkKey` -/
def linkKey (l : WorkAuthor) : AuthorId × AuthorRole := (l.authorId, l.role)

/-- The links of the source that the target lacks, in the order of the source. -/
def linksToMove (db : CatalogDb) (sourceWorkId targetWorkId : WorkId) : List WorkAuthor :=
  (db.authorLinksOf sourceWorkId).filter fun l =>
    linkKey l ∉ (db.authorLinksOf targetWorkId).map linkKey

/-- The links as the target's, after its own. -/
def appendedLinks (db : CatalogDb) (sourceWorkId targetWorkId : WorkId) : List WorkAuthor :=
  (linksToMove db sourceWorkId targetWorkId).zipIdx.map fun x =>
    ⟨targetWorkId, x.1.authorId, x.1.role, (db.authorLinksOf targetWorkId).length + x.2⟩

/-- `consolidateWorkAuthors` -/
def consolidateWorkAuthors (db : CatalogDb) (sourceWorkId targetWorkId : WorkId) : CatalogDb :=
  { db with workAuthors := appendedLinks db sourceWorkId targetWorkId ++
      db.workAuthors.filter fun l => l.workId ≠ sourceWorkId }

/-- R4: what was merged into the source, and the source itself, now points to the target. -/
def pointTo (db : CatalogDb) (sourceWorkId targetWorkId : WorkId) : CatalogDb :=
  { db with works := db.works.map fun w =>
      if w.mergedIntoId = some sourceWorkId ∨ w.id = sourceWorkId then
        { w with mergedIntoId := some targetWorkId } else w }

/-! ## merge -/

/-- How many rows are on the work. -/
def countOn {ρ : Type} (work : ρ → WorkId) (workId : WorkId) (rows : List ρ) : Nat :=
  rows.countP fun r => work r = workId

/-- `merge` -/
def merge (s : CatalogStore) (sourceWorkId targetWorkId : WorkId) (now : Time) :
    MergeTx (CatalogStore × MergeSummary) := do
  throwIf (sourceWorkId = targetWorkId) ⟨.self, "Вихідний і цільовий твір збігаються"⟩
  let (_, target) ← assertMergeable s.db sourceWorkId targetWorkId
  -- before the rows move: the language of an edition is still that of the source
  let (s, editionLanguagesSet) ← reconcileEditionLanguages s sourceWorkId target
  -- before the rows move: a reader has one row on a work
  let kept := dropLosingReadingStatuses (dropLosingWishlistItems
    (archiveLosingReviews s sourceWorkId targetWorkId now) sourceWorkId targetWorkId)
    sourceWorkId targetWorkId
  let moved := moveRows kept sourceWorkId targetWorkId
  let consolidated := consolidateWorkAuthors moved.db sourceWorkId targetWorkId
  return ({ moved with db := pointTo consolidated sourceWorkId targetWorkId },
    { sourceWorkId
      targetWorkId
      translationsMoved := countOn Translation.workId sourceWorkId kept.db.translations
      editionsMoved := countOn Edition.workId sourceWorkId kept.db.editions
      reviewsMoved := countOn Review.workId sourceWorkId kept.reviews
      reviewsArchived := (losingReviews s sourceWorkId targetWorkId).length
      wishlistItemsMoved := countOn WishlistItem.workId sourceWorkId kept.wishlist
      wishlistDuplicatesRemoved := (losingWishlistItems s sourceWorkId targetWorkId).length
      readingStatusesMoved := countOn WorkReadingStatus.workId sourceWorkId kept.statuses
      readingStatusDuplicatesRemoved := (losingReadingStatuses s sourceWorkId targetWorkId).length
      authorLinksMoved := (linksToMove s.db sourceWorkId targetWorkId).length
      authorLinksDuplicatesRemoved := (s.db.authorLinksOf sourceWorkId).length -
        (linksToMove s.db sourceWorkId targetWorkId).length
      incomingMergesRepointed :=
        s.db.works.countP fun w => w.mergedIntoId = some sourceWorkId
      editionLanguagesSet })

/-! ## What a merge leaves -/

/-- The updates of languages touch only editions. -/
theorem applyEditionTextUpdates_eq (s : CatalogStore) (updates : List (EditionId × String)) :
    ∃ editions revision, applyEditionTextUpdates s updates =
      { s with db := { s.db with editions }, editionRevision := revision } := by
  induction updates generalizing s with
  | nil => exact ⟨_, _, rfl⟩
  | cons u updates ih =>
    obtain ⟨editions, revision, h⟩ := ih (s.updateEdition u.1 fun e => { e with lang := some u.2 })
    exact ⟨editions, revision, h⟩

theorem assertMergeable_eq_ok {db : CatalogDb} {a b : WorkId} {source target : Work} :
    assertMergeable db a b = .ok (source, target) ↔
      db.work? a = some source ∧ db.work? b = some target ∧ source.mergedIntoId = none ∧
        target.mergedIntoId = none := by
  unfold assertMergeable
  split
  · next hsource =>
    rw [throw_eq_ok, false_iff, hsource]
    exact fun h => nomatch h.1
  · next htarget =>
    rw [throw_eq_ok, false_iff, htarget]
    exact fun h => nomatch h.2.1
  · next source' target' hsource htarget =>
    rw [hsource, htarget]
    split
    · next hs =>
      rw [throw_eq_ok, false_iff]
      rintro ⟨⟨⟩, -, h, -⟩
      rw [hs] at h
      cases h
    · next ht =>
      rw [throw_eq_ok, false_iff]
      rintro ⟨-, ⟨⟩, -, h⟩
      rw [ht] at h
      cases h
    · next hs ht =>
      rw [pure_eq_ok, Prod.mk.injEq]
      constructor
      · rintro ⟨rfl, rfl⟩
        exact ⟨rfl, rfl, hs, ht⟩
      · rintro ⟨⟨⟩, ⟨⟩, -⟩
        exact ⟨rfl, rfl⟩

/-- What a merge finds, and what it leaves. -/
structure Merged (s : CatalogStore) (a b : WorkId) (now : Time) (s' : CatalogStore) : Prop where
  distinct : a ≠ b
  works : ∃ source target, s.db.work? a = some source ∧ s.db.work? b = some target ∧
    source.mergedIntoId = none ∧ target.mergedIntoId = none ∧
    mergeConflicts (s.db.editions.filter fun e => e.workId = a) target.origLang = [] ∧
    s'.db.editions = (applyEditionTextUpdates s (mergeUpdates
      (s.db.editions.filter fun e => e.workId = a) target.origLang)).db.editions.map
        (fun e => { e with workId := movedFrom a b e.workId }) ∧
    s'.editionRevision = (applyEditionTextUpdates s (mergeUpdates
      (s.db.editions.filter fun e => e.workId = a) target.origLang)).editionRevision
  workRows : s'.db.works = (pointTo s.db a b).works
  translations : s'.db.translations =
    s.db.translations.map fun t => { t with workId := movedFrom a b t.workId }
  workAuthors : s'.db.workAuthors = (consolidateWorkAuthors s.db a b).workAuthors
  rest : s'.db.authors = s.db.authors ∧ s'.db.copies = s.db.copies ∧ s'.db.users = s.db.users ∧
    s'.workRevision = s.workRevision ∧ s'.translationRevision = s.translationRevision
  reviews : s'.reviews = (archiveLosingReviews s a b now).reviews.map
    fun r => { r with workId := movedFrom a b r.workId }
  wishlist : s'.wishlist = (dropLosingWishlistItems s a b).wishlist.map
    fun r => { r with workId := movedFrom a b r.workId }
  statuses : s'.statuses = (dropLosingReadingStatuses s a b).statuses.map
    fun r => { r with workId := movedFrom a b r.workId }

theorem merge_eq_ok {s s' : CatalogStore} {a b : WorkId} {now : Time} {summary : MergeSummary}
    (h : merge s a b now = .ok (s', summary)) : Merged s a b now s' := by
  unfold merge at h
  obtain ⟨_, hdistinct, h⟩ := bind_eq_ok.mp h
  obtain ⟨⟨source, target⟩, hmergeable, h⟩ := bind_eq_ok.mp h
  obtain ⟨⟨reconciled, n⟩, hreconciled, h⟩ := bind_eq_ok.mp h
  obtain ⟨_, hconflicts, hreconciled⟩ := bind_eq_ok.mp hreconciled
  cases hreconciled
  cases h
  rw [throwIf_eq_ok] at hdistinct hconflicts
  obtain ⟨hsource, htarget, hs, ht⟩ := assertMergeable_eq_ok.mp hmergeable
  obtain ⟨editions, revision, heq⟩ := applyEditionTextUpdates_eq s
    (mergeUpdates (s.db.editions.filter fun e => e.workId = a) target.origLang)
  refine ⟨hdistinct, ⟨source, target, hsource, htarget, hs, ht, not_not.mp hconflicts, rfl, rfl⟩,
    ?_, ?_, ?_, ?_, ?_, ?_, ?_⟩ <;> rw [heq]
  · rfl
  · rfl
  · rfl
  · exact ⟨rfl, rfl, rfl, rfl, rfl⟩
  · rfl
  · rfl
  · rfl

end Bookswap
