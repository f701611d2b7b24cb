import Bookswap.Import.RowActions
import Bookswap.Lib.Grouping

/-!
# library-import.commit.ts: what a draft would create

Worked out from the draft alone. The rows that are ready are grouped by ISBN; a group shares one
chain or one existing edition, and each of its rows has its own copies.

- `groupByIsbn`, `isCoherent`: the groups, and whether a group asks for one thing.
- `toPlan`, `assessLibraryImportCommit`: the plan, and what keeps the draft from being committed.
- `Assessed`, `assessed_of_no_blockers`: what a draft without blockers has.
- `plannedOf`, `plan_copies`, `plan_chains`: the copies of the plan are those of the ready rows, and
  its chains those of their ISBNs.
-/

namespace Bookswap

open Grouping

/-! ## Groups -/

/-- A ready row with its values. -/
structure ImportMember where
  row : LibraryImportRowRecord
  values : LibraryImportRowValues

structure IsbnGroup where
  isbn13 : String
  members : List ImportMember

def IsbnGroup.rowNumbers (group : IsbnGroup) : List Nat := group.members.map fun m => m.row.rowNumber

def committable (rows : List LibraryImportRowRecord) : List LibraryImportRowRecord :=
  rows.filter fun row => row.status.ready

/-- The rows that have values. -/
def membersOf (rows : List LibraryImportRowRecord) : List ImportMember :=
  rows.filterMap fun row => row.payload.values.map (ImportMember.mk row)

def groupByIsbn (rows : List LibraryImportRowRecord) : List IsbnGroup :=
  (groups (fun m => m.values.isbn13) (membersOf rows)).map fun g => ⟨g.1, g.2⟩

/-- The resolution asks for the same as the other (`canonicalJson` compares the catalogs). -/
def LibraryImportRowResolution.asks (head : LibraryImportRowResolution) :
    LibraryImportRowResolution → Bool
  | .existingEdition editionId _ => match head with
    | .existingEdition first _ => editionId = first
    | .createChain _ _ => false
  | .createChain workId catalog => match head with
    | .existingEdition _ _ => false
    | .createChain first firstCatalog => workId = first && catalog = firstCatalog

def isCoherent (group : IsbnGroup) : Bool :=
  match group.members with
  | [] => true
  | first :: rest => match first.row.payload.resolution with
    | none => false
    | some head => rest.all fun m => m.row.payload.resolution.any head.asks

/-! ## The plan -/

/-- Which edition copies land on: one that exists, or one that the plan creates. -/
inductive PlannedTarget
  | existing (editionId : EditionId)
  | chain (isbn13 : String)
  deriving DecidableEq

structure PlannedCopy where
  rowNumber : Nat
  quantity : Nat
  values : LibraryImportRowValues
  target : PlannedTarget
  deriving DecidableEq

structure PlannedChain where
  isbn13 : String
  rowNumbers : List Nat
  /-- Without a work: create a new one. -/
  workId : Option WorkId
  catalog : LibraryImportResolvedCatalog
  deriving DecidableEq

structure LibraryImportCommitPlan where
  chains : List PlannedChain
  copies : List PlannedCopy
  copyCount : Nat

/-- The resolution of the first row of a group. -/
def IsbnGroup.head (group : IsbnGroup) : Option LibraryImportRowResolution :=
  group.members.head?.bind fun m => m.row.payload.resolution

def IsbnGroup.chain? (group : IsbnGroup) : Option PlannedChain :=
  match group.head with
  | some (.createChain workId catalog) => some ⟨group.isbn13, group.rowNumbers, workId, catalog⟩
  | _ => none

def IsbnGroup.target (group : IsbnGroup) : LibraryImportRowResolution → PlannedTarget
  | .existingEdition editionId _ => .existing editionId
  | .createChain _ _ => .chain group.isbn13

def IsbnGroup.copies (group : IsbnGroup) : List PlannedCopy :=
  match group.head with
  | none => []
  | some head => group.members.map fun m =>
    ⟨m.row.rowNumber, m.values.quantity, m.values, group.target head⟩

def toPlan (groups : List IsbnGroup) : LibraryImportCommitPlan :=
  let copies := (groups.flatMap IsbnGroup.copies).mergeSort fun c d => c.rowNumber ≤ d.rowNumber
  { chains := groups.filterMap IsbnGroup.chain?
    copies
    copyCount := (copies.map PlannedCopy.quantity).sum }

structure LibraryImportCommitAssessment where
  blockers : List LibraryImportNotReady
  plan : LibraryImportCommitPlan

/-- `UNRESOLVED_STATUSES` -/
def LibraryImportRowStatus.unresolved : LibraryImportRowStatus → Bool
  | .needsReview | .invalid => true
  | .readyExistingEdition | .readyCreateChain | .skipped => false

def assessLibraryImportCommit (rows : List LibraryImportRowRecord) : LibraryImportCommitAssessment :=
  let unresolved := (rows.filter fun row => row.status.unresolved).map
    LibraryImportRowRecord.rowNumber
  let groups := groupByIsbn (committable rows)
  let conflicting := (groups.filter fun g => !isCoherent g).flatMap IsbnGroup.rowNumbers
  { blockers :=
      (if unresolved ≠ [] then [.rowsUnresolved unresolved] else []) ++
      (if committable rows = [] then [.nothingToImport] else []) ++
      (if conflicting ≠ [] then
        [.conflictingEditionRows (conflicting.mergeSort (· ≤ ·))] else [])
    plan := toPlan groups }

/-- `exceedsCopyCap` -/
def exceedsCopyCap (copyCount : Nat) : Bool := copyCount > maxCopies

/-! ## What the groups have -/

section Groups

variable {rows : List LibraryImportRowRecord}

theorem mem_committable {row : LibraryImportRowRecord} :
    row ∈ committable rows ↔ row ∈ rows ∧ row.status.ready = true := by
  rw [committable, List.mem_filter]

theorem mem_membersOf {m : ImportMember} :
    m ∈ membersOf rows ↔ m.row ∈ rows ∧ m.row.payload.values = some m.values := by
  obtain ⟨row, values⟩ := m
  simp only [membersOf, List.mem_filterMap, Option.map_eq_some_iff, ImportMember.mk.injEq]
  constructor
  · rintro ⟨row', hrow, v, hv, rfl, rfl⟩
    exact ⟨hrow, hv⟩
  · rintro ⟨hrow, hv⟩
    exact ⟨row, hrow, values, hv, rfl, rfl⟩

/-- A group has the rows of its ISBN. -/
theorem mem_group {g : IsbnGroup} (hg : g ∈ groupByIsbn rows) {m : ImportMember} :
    m ∈ g.members ↔ m.row ∈ rows ∧ m.row.payload.values = some m.values ∧
      m.values.isbn13 = g.isbn13 := by
  obtain ⟨p, hp, rfl⟩ := List.mem_map.mp hg
  have hmembers := (groups_spec (fun m : ImportMember => m.values.isbn13) (membersOf rows)).members p hp
  dsimp only
  rw [hmembers, List.mem_filter, mem_membersOf, decide_eq_true_eq, and_assoc]

theorem isbns_nodup (rows : List LibraryImportRowRecord) :
    ((groupByIsbn rows).map IsbnGroup.isbn13).Nodup := by
  rw [groupByIsbn, List.map_map]
  exact (groups_spec _ (membersOf rows)).keys

theorem members_nonempty {g : IsbnGroup} (hg : g ∈ groupByIsbn rows) : g.members ≠ [] := by
  obtain ⟨p, hp, rfl⟩ := List.mem_map.mp hg
  exact (groups_spec _ (membersOf rows)).nonempty p hp

/-- A row with values has a group. -/
theorem exists_group {row : LibraryImportRowRecord} {values : LibraryImportRowValues}
    (hrow : row ∈ rows) (hvalues : row.payload.values = some values) :
    ∃ g ∈ groupByIsbn rows, g.isbn13 = values.isbn13 := by
  obtain ⟨p, hp, hkey⟩ := (groups_spec (fun m : ImportMember => m.values.isbn13)
    (membersOf rows)).covers ⟨row, values⟩ (mem_membersOf.mpr ⟨hrow, hvalues⟩)
  exact ⟨⟨p.1, p.2⟩, List.mem_map.mpr ⟨p, hp, rfl⟩, hkey⟩

/-- Two groups of one ISBN are one. -/
theorem group_ext {g g' : IsbnGroup} (hg : g ∈ groupByIsbn rows) (hg' : g' ∈ groupByIsbn rows)
    (h : g.isbn13 = g'.isbn13) : g = g' :=
  List.inj_on_of_nodup_map (isbns_nodup rows) hg hg' h

/-- Together the groups have every row with values once. -/
theorem groups_members_perm (rows : List LibraryImportRowRecord) :
    ((groupByIsbn rows).flatMap IsbnGroup.members).Perm (membersOf rows) := by
  rw [groupByIsbn, List.flatMap_map]
  exact groups_perm _ (membersOf rows)

end Groups

/-! ## A draft without blockers -/

/-- What the schema of a row and the check of a write promise about the rows of a draft. -/
structure DraftRows (rows : List LibraryImportRowRecord) : Prop where
  numbers : (rows.map LibraryImportRowRecord.rowNumber).Nodup
  coherent : ∀ row ∈ rows, row.Coherent

/-- The draft can be committed. -/
structure Assessed (rows : List LibraryImportRowRecord) : Prop where
  settled : ∀ row ∈ rows, row.status.ready = true ∨ row.status = .skipped
  some_ready : committable rows ≠ []
  coherent : ∀ g ∈ groupByIsbn (committable rows), isCoherent g = true

theorem assessed_of_no_blockers {rows : List LibraryImportRowRecord}
    (h : (assessLibraryImportCommit rows).blockers = []) : Assessed rows := by
  simp only [assessLibraryImportCommit, List.append_eq_nil_iff] at h
  obtain ⟨⟨hunresolved, hready⟩, hconflicting⟩ := h
  refine ⟨fun row hrow => ?_, fun hnil => by simp [hnil] at hready, fun g hg => ?_⟩
  · have hnone : (rows.filter fun row => row.status.unresolved) = [] := by
      by_contra hne
      simp [hne] at hunresolved
    have hstatus := List.filter_eq_nil_iff.mp hnone row hrow
    cases h : row.status <;> simp [h, LibraryImportRowStatus.unresolved] at hstatus ⊢ <;> rfl
  · by_contra hg'
    have hmem : g ∈ (groupByIsbn (committable rows)).filter fun g => !isCoherent g :=
      List.mem_filter.mpr ⟨hg, by simpa using hg'⟩
    obtain ⟨m, hm⟩ := List.exists_mem_of_ne_nil _ (members_nonempty hg)
    have hne : ((groupByIsbn (committable rows)).filter fun g => !isCoherent g).flatMap
        IsbnGroup.rowNumbers ≠ [] :=
      List.ne_nil_of_mem (List.mem_flatMap.mpr ⟨g, hmem, List.mem_map.mpr ⟨m, hm, rfl⟩⟩)
    rw [if_pos hne] at hconflicting
    cases hconflicting

/-! ## The plan of a draft without blockers -/

/-- What a ready row contributes: its copies, on its own edition or on the chain of its ISBN. -/
def plannedOf (row : LibraryImportRowRecord) : Option PlannedCopy :=
  row.payload.values.bind fun values => row.payload.resolution.map fun resolution =>
    ⟨row.rowNumber, values.quantity, values, match resolution with
      | .existingEdition editionId _ => .existing editionId
      | .createChain _ _ => .chain values.isbn13⟩

section Plan

variable {rows : List LibraryImportRowRecord}

theorem DraftRows.ready (h : DraftRows rows) {row : LibraryImportRowRecord}
    (hrow : row ∈ committable rows) :
    ∃ values resolution, row.payload.values = some values ∧
      row.payload.resolution = some resolution := by
  obtain ⟨hmem, hready⟩ := mem_committable.mp hrow
  have hc := h.coherent row hmem
  obtain ⟨values, hvalues⟩ := Option.ne_none_iff_exists'.mp (hc.ready hready).2
  cases hresolution : row.payload.resolution with
  | some resolution => exact ⟨values, resolution, hvalues, rfl⟩
  | none =>
    have hkind := hc.resolution
    rw [hresolution] at hkind
    cases hstatus : row.status <;> rw [hstatus] at hkind hready
    all_goals first | exact absurd hready Bool.false_ne_true | cases hkind

/-- The members of a coherent group ask for what its first one asks for. -/
theorem asks_of_coherent {g : IsbnGroup} (hg : isCoherent g = true) (hne : g.members ≠ []) :
    ∃ head, g.head = some head ∧
      ∀ m ∈ g.members, ∃ resolution, m.row.payload.resolution = some resolution ∧
        (resolution = head ∨ head.asks resolution = true) := by
  obtain ⟨isbn13, members⟩ := g
  cases members with
  | nil => exact absurd rfl hne
  | cons first rest =>
    unfold isCoherent at hg
    dsimp only at hg
    split at hg
    · cases hg
    · next head hhead =>
      refine ⟨head, hhead, fun m hm => ?_⟩
      rcases List.mem_cons.mp hm with rfl | hm
      · exact ⟨head, hhead, .inl rfl⟩
      · obtain ⟨resolution, hresolution, hasks⟩ :=
          (Option.any_eq_true _ _).mp (List.all_eq_true.mp hg m hm)
        exact ⟨resolution, hresolution, .inr hasks⟩

/-- What is asked for is the same target. -/
theorem target_of_asks {head resolution : LibraryImportRowResolution} (g : IsbnGroup)
    (h : resolution = head ∨ head.asks resolution = true) :
    g.target head = g.target resolution := by
  rcases h with rfl | h
  · rfl
  · cases resolution <;> cases head <;> simp [LibraryImportRowResolution.asks] at h
    · simp only [IsbnGroup.target, h]
    · rfl

/-- The copies of a group are those of its members. -/
theorem copies_of_group {g : IsbnGroup}
    (hg : g ∈ groupByIsbn (committable rows)) (hcoherent : isCoherent g = true) :
    g.copies = g.members.filterMap fun m => plannedOf m.row := by
  obtain ⟨head, hhead, hmembers⟩ := asks_of_coherent hcoherent (members_nonempty hg)
  rw [IsbnGroup.copies, hhead]
  dsimp only
  have hplanned : ∀ m ∈ g.members, plannedOf m.row =
      some ⟨m.row.rowNumber, m.values.quantity, m.values, g.target head⟩ := by
    intro m hm
    obtain ⟨-, hvalues, hisbn⟩ := (mem_group hg).mp hm
    obtain ⟨resolution, hresolution, hasks⟩ := hmembers m hm
    rw [plannedOf, hvalues, hresolution, target_of_asks g hasks]
    cases resolution <;> simp [IsbnGroup.target, hisbn]
  rw [List.filterMap_congr hplanned]
  exact (congrFun List.filterMap_eq_map' g.members).symm

theorem rowNumber_of_planned {row : LibraryImportRowRecord} {copy : PlannedCopy}
    (h : plannedOf row = some copy) : copy.rowNumber = row.rowNumber := by
  obtain ⟨values, -, h⟩ := Option.bind_eq_some_iff.mp h
  obtain ⟨resolution, -, rfl⟩ := Option.map_eq_some_iff.mp h
  rfl

theorem planned_membersOf (rows : List LibraryImportRowRecord) :
    (membersOf rows).filterMap (fun m => plannedOf m.row) = rows.filterMap plannedOf := by
  rw [membersOf, List.filterMap_filterMap]
  refine List.filterMap_congr fun row _ => ?_
  cases hvalues : row.payload.values <;> simp [plannedOf, hvalues]

/-- **The copies of the plan are those of the ready rows, in their order.** -/
theorem plan_copies (hsorted : (rows.map LibraryImportRowRecord.rowNumber).Pairwise (· < ·))
    (ha : Assessed rows) :
    (assessLibraryImportCommit rows).plan.copies = (committable rows).filterMap plannedOf := by
  show (List.flatMap IsbnGroup.copies (groupByIsbn (committable rows))).mergeSort _ = _
  have hgroups : (groupByIsbn (committable rows)).flatMap IsbnGroup.copies =
      ((groupByIsbn (committable rows)).flatMap IsbnGroup.members).filterMap
        fun m => plannedOf m.row := by
    rw [List.filterMap_flatMap]
    exact List.flatMap_congr fun g hg => copies_of_group hg (ha.coherent g hg)
  have hperm : ((groupByIsbn (committable rows)).flatMap IsbnGroup.copies).Perm
      ((committable rows).filterMap plannedOf) := by
    rw [hgroups, ← planned_membersOf]
    exact (groups_members_perm (committable rows)).filterMap _
  have hrows : (committable rows).Pairwise fun r s => r.rowNumber < s.rowNumber :=
    (List.pairwise_map.mp hsorted).sublist List.filter_sublist
  have horder : ((committable rows).filterMap plannedOf).Pairwise
      fun c d => c.rowNumber < d.rowNumber := by
    refine List.pairwise_filterMap.mpr (hrows.imp fun hlt c hc d hd => ?_)
    rw [rowNumber_of_planned hc, rowNumber_of_planned hd]
    exact hlt
  -- two copies of one number are one, so there is only one order
  refine List.Perm.eq_of_pairwise (fun c d hc hd hcd hdc => ?_) (List.pairwise_mergeSort ?_ ?_ _)
    (horder.imp fun hlt => by simpa using Nat.le_of_lt hlt) ((List.mergeSort_perm _ _).trans hperm)
  · have hnumbers : (((committable rows).filterMap plannedOf).map PlannedCopy.rowNumber).Nodup :=
      (List.pairwise_map.mpr horder).imp fun hlt => Nat.ne_of_lt hlt
    refine List.inj_on_of_nodup_map hnumbers
      (((List.mergeSort_perm _ _).trans hperm).subset hc) hd ?_
    simp only [decide_eq_true_eq] at hcd hdc
    omega
  · intro a b c hab hbc
    simp only [decide_eq_true_eq] at *
    omega
  · intro a b
    simp only [Bool.or_eq_true, decide_eq_true_eq]
    omega

/-- The groups have the numbers of the ready rows. -/
theorem groups_rowNumbers (h : DraftRows rows) :
    ((groupByIsbn (committable rows)).flatMap IsbnGroup.rowNumbers).Perm
      ((committable rows).map LibraryImportRowRecord.rowNumber) := by
  have hmembers : (membersOf (committable rows)).map (fun m => m.row.rowNumber) =
      (committable rows).map LibraryImportRowRecord.rowNumber := by
    rw [membersOf, List.map_filterMap, ← List.filterMap_eq_map]
    refine List.filterMap_congr fun row hrow => ?_
    obtain ⟨values, -, hvalues, -⟩ := h.ready hrow
    rw [hvalues]
    rfl
  have hflat : (groupByIsbn (committable rows)).flatMap IsbnGroup.rowNumbers =
      ((groupByIsbn (committable rows)).flatMap IsbnGroup.members).map fun m => m.row.rowNumber := by
    rw [List.map_flatMap]
    rfl
  rw [hflat, ← hmembers]
  exact (groups_members_perm (committable rows)).map _

theorem mem_rowNumbers {g : IsbnGroup} (hg : g ∈ groupByIsbn (committable rows)) {n : Nat} :
    n ∈ g.rowNumbers ↔ ∃ row ∈ committable rows, row.rowNumber = n ∧
      ∃ values, row.payload.values = some values ∧ values.isbn13 = g.isbn13 := by
  constructor
  · intro hn
    obtain ⟨m, hm, rfl⟩ := List.mem_map.mp hn
    obtain ⟨hrow, hvalues, hisbn⟩ := (mem_group hg).mp hm
    exact ⟨m.row, hrow, rfl, m.values, hvalues, hisbn⟩
  · rintro ⟨row, hrow, rfl, values, hvalues, hisbn⟩
    exact List.mem_map.mpr ⟨⟨row, values⟩, (mem_group hg).mpr ⟨hrow, hvalues, hisbn⟩, rfl⟩

/-- **Every ready row is in one group.** -/
theorem exists_unique_group (h : DraftRows rows) {row : LibraryImportRowRecord}
    (hrow : row ∈ committable rows) :
    ∃! g, g ∈ groupByIsbn (committable rows) ∧ row.rowNumber ∈ g.rowNumbers := by
  obtain ⟨values, -, hvalues, -⟩ := h.ready hrow
  obtain ⟨g, hg, hisbn⟩ := exists_group hrow hvalues
  refine ⟨g, ⟨hg, (mem_rowNumbers hg).mpr ⟨row, hrow, rfl, values, hvalues, hisbn.symm⟩⟩, ?_⟩
  rintro g' ⟨hg', hn⟩
  obtain ⟨row', hrow', hnumber, values', hvalues', hisbn'⟩ := (mem_rowNumbers hg').mp hn
  obtain rfl : row' = row := List.inj_on_of_nodup_map h.numbers (mem_committable.mp hrow').1
    (mem_committable.mp hrow).1 hnumber
  rw [hvalues] at hvalues'
  cases hvalues'
  exact group_ext hg' hg (hisbn'.symm.trans hisbn.symm)

/-- A row that is not ready is in none. -/
theorem not_in_group (h : DraftRows rows) {row : LibraryImportRowRecord} (hrow : row ∈ rows)
    (hready : row.status.ready = false) {g : IsbnGroup}
    (hg : g ∈ groupByIsbn (committable rows)) : row.rowNumber ∉ g.rowNumbers := by
  intro hn
  obtain ⟨row', hrow', hnumber, -⟩ := (mem_rowNumbers hg).mp hn
  obtain ⟨hmem, hready'⟩ := mem_committable.mp hrow'
  rw [List.inj_on_of_nodup_map h.numbers hmem hrow hnumber, hready] at hready'
  cases hready'

/-! ### Chains -/

theorem chain?_eq_some {g : IsbnGroup} {chain : PlannedChain} :
    g.chain? = some chain ↔ g.head = some (.createChain chain.workId chain.catalog) ∧
      chain.isbn13 = g.isbn13 ∧ chain.rowNumbers = g.rowNumbers := by
  unfold IsbnGroup.chain?
  constructor
  · intro h
    split at h
    · next workId catalog hhead =>
      cases h
      exact ⟨hhead, rfl, rfl⟩
    · cases h
  · rintro ⟨hhead, hisbn, hrows⟩
    rw [hhead]
    obtain ⟨isbn13, rowNumbers, workId, catalog⟩ := chain
    dsimp only at hisbn hrows ⊢
    rw [hisbn, hrows]

/-- No two chains of the plan have one ISBN. -/
theorem chains_isbns_nodup (rows : List LibraryImportRowRecord) :
    ((assessLibraryImportCommit rows).plan.chains.map PlannedChain.isbn13).Nodup := by
  show (((groupByIsbn (committable rows)).filterMap IsbnGroup.chain?).map _).Nodup
  have hsub : (((groupByIsbn (committable rows)).filterMap IsbnGroup.chain?).map
      PlannedChain.isbn13).Sublist ((groupByIsbn (committable rows)).map IsbnGroup.isbn13) := by
    induction groupByIsbn (committable rows) with
    | nil => exact .slnil
    | cons g gs ih =>
      cases hchain : g.chain? with
      | none =>
        rw [List.filterMap_cons_none hchain, List.map_cons]
        exact ih.cons _
      | some chain =>
        rw [List.filterMap_cons_some hchain, List.map_cons, List.map_cons,
          (chain?_eq_some.mp hchain).2.1]
        exact ih.cons_cons _
  exact hsub.nodup (isbns_nodup _)

/-- What a row asks for is what the group of its ISBN asks for. -/
theorem head_of_row (ha : Assessed rows) {row : LibraryImportRowRecord}
    {values : LibraryImportRowValues} {resolution : LibraryImportRowResolution}
    (hrow : row ∈ committable rows) (hvalues : row.payload.values = some values)
    (hresolution : row.payload.resolution = some resolution) :
    ∃ g ∈ groupByIsbn (committable rows), g.isbn13 = values.isbn13 ∧
      ∃ head, g.head = some head ∧ (resolution = head ∨ head.asks resolution = true) := by
  obtain ⟨g, hg, hisbn⟩ := exists_group hrow hvalues
  obtain ⟨head, hhead, hmembers⟩ := asks_of_coherent (ha.coherent g hg) (members_nonempty hg)
  obtain ⟨resolution', hresolution', hasks⟩ := hmembers ⟨row, values⟩
    ((mem_group hg).mpr ⟨hrow, hvalues, hisbn.symm⟩)
  rw [hresolution] at hresolution'
  cases hresolution'
  exact ⟨g, hg, hisbn, head, hhead, hasks⟩

/-- A chain is what some ready row of its ISBN asks for. -/
theorem row_of_chain {chain : PlannedChain}
    (hchain : chain ∈ (assessLibraryImportCommit rows).plan.chains) :
    ∃ row ∈ committable rows, ∃ values, row.payload.values = some values ∧
      values.isbn13 = chain.isbn13 ∧
      row.payload.resolution = some (.createChain chain.workId chain.catalog) := by
  obtain ⟨g, hg, hchain⟩ := List.mem_filterMap.mp hchain
  obtain ⟨hhead, hisbn, -⟩ := chain?_eq_some.mp hchain
  obtain ⟨m, hm, hresolution⟩ := Option.bind_eq_some_iff.mp hhead
  obtain ⟨hrow, hvalues, hmisbn⟩ := (mem_group hg).mp (List.mem_of_mem_head? hm)
  exact ⟨m.row, hrow, m.values, hvalues, hmisbn.trans hisbn.symm, hresolution⟩

/-- **A ready row that creates a chain has the one of its ISBN in the plan.** -/
theorem chain_of_row (ha : Assessed rows) {row : LibraryImportRowRecord}
    {values : LibraryImportRowValues} {workId : Option WorkId}
    {catalog : LibraryImportResolvedCatalog} (hrow : row ∈ committable rows)
    (hvalues : row.payload.values = some values)
    (hresolution : row.payload.resolution = some (.createChain workId catalog)) :
    ∃ chain ∈ (assessLibraryImportCommit rows).plan.chains, chain.isbn13 = values.isbn13 ∧
      chain.workId = workId ∧ chain.catalog = catalog := by
  obtain ⟨g, hg, hisbn, head, hhead, hasks⟩ := head_of_row ha hrow hvalues hresolution
  have hsame : head = .createChain workId catalog := by
    rcases hasks with rfl | hasks
    · rfl
    · cases head with
      | existingEdition => cases hasks
      | createChain first firstCatalog =>
        simp only [LibraryImportRowResolution.asks, Bool.and_eq_true, decide_eq_true_eq] at hasks
        rw [hasks.1, hasks.2]
  refine ⟨⟨g.isbn13, g.rowNumbers, workId, catalog⟩, ?_, hisbn, rfl, rfl⟩
  exact List.mem_filterMap.mpr ⟨g, hg, chain?_eq_some.mpr ⟨hsame ▸ hhead, rfl, rfl⟩⟩

/-- No chain has the ISBN of a row with an existing edition. -/
theorem no_chain_of_row (ha : Assessed rows) {row : LibraryImportRowRecord}
    {values : LibraryImportRowValues} {editionId : EditionId} {workId : WorkId}
    (hrow : row ∈ committable rows) (hvalues : row.payload.values = some values)
    (hresolution : row.payload.resolution = some (.existingEdition editionId workId))
    {chain : PlannedChain} (hchain : chain ∈ (assessLibraryImportCommit rows).plan.chains) :
    chain.isbn13 ≠ values.isbn13 := by
  intro hisbn
  obtain ⟨row', hrow', values', hvalues', hisbn', hresolution'⟩ := row_of_chain hchain
  obtain ⟨g, hg, hgisbn, head, hhead, hasks⟩ := head_of_row ha hrow hvalues hresolution
  obtain ⟨g', hg', hgisbn', head', hhead', hasks'⟩ := head_of_row ha hrow' hvalues' hresolution'
  obtain rfl : g' = g := group_ext hg' hg
    (hgisbn'.trans (hisbn'.trans (hisbn.trans hgisbn.symm)))
  rw [hhead] at hhead'
  cases hhead'
  have hkind := target_of_asks g' hasks
  rw [target_of_asks g' hasks'] at hkind
  cases hkind

end Plan

end Bookswap
