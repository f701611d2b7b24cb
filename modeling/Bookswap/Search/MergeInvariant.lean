import Bookswap.Lib.Growth
import Bookswap.Lib.Lists
import Bookswap.Search.MergeExternalResults

/-!
# The merged list grows at its end

Within a block, records enrich rows or add them, and only rows that the block itself added may go.
What keeps an enriched row recognizable is that its ISBN never changes: a record without an ISBN
brings none, and a record with one finds only rows that have it (`ResultMerge.Sound`).

- `mergeBlock_grows`: a block leaves every row it found where it was.
- `Gathers`: every record read is in exactly one row.
-/

namespace Bookswap

/-! ## An enriched record -/

/-- What is known stays; what is not may become known. -/
def Fills {α : Type} (a b : Option α) : Prop := ∀ v, a = some v → b = some v

theorem Fills.refl {α : Type} (a : Option α) : Fills a a := fun _ h => h

theorem Fills.trans {α : Type} {a b c : Option α} (h : Fills a b) (h' : Fills b c) : Fills a c :=
  fun v hv => h' v (h v hv)

theorem Fills.orElse {α : Type} (a b : Option α) : Fills a (a <|> b) := by
  rintro v rfl
  rfl

/-- **The same row, richer**: gaps are filled and sources added, nothing is overwritten. -/
structure ExternalSearchResult.Enriches (r r' : ExternalSearchResult) : Prop where
  id : r'.id = r.id
  kind : r'.kind = r.kind
  title : r'.title = r.title
  isbn13 : r'.isbn13 = r.isbn13
  sources : r.sources ⊆ r'.sources
  authors : Fills r.authors r'.authors
  language : Fills r.language r'.language
  publishedYear : Fills r.publishedYear r'.publishedYear
  firstPublishedYear : Fills r.firstPublishedYear r'.firstPublishedYear
  publisher : Fills r.publisher r'.publisher
  pageCount : Fills r.pageCount r'.pageCount
  format : Fills r.format r'.format
  coverUrl : Fills r.coverUrl r'.coverUrl
  description : Fills r.description r'.description
  externalId : Fills r.externalId r'.externalId
  workExternalId : Fills r.workExternalId r'.workExternalId
  localEditionId : Fills r.localEditionId r'.localEditionId

namespace ExternalSearchResult.Enriches

theorem refl (r : ExternalSearchResult) : r.Enriches r := by
  constructor
  case sources => exact List.Subset.refl _
  all_goals first | rfl | exact Fills.refl _

theorem trans (r₁ r₂ r₃ : ExternalSearchResult) (h : r₁.Enriches r₂) (h' : r₂.Enriches r₃) :
    r₁.Enriches r₃ where
  id := h'.id.trans h.id
  kind := h'.kind.trans h.kind
  title := h'.title.trans h.title
  isbn13 := h'.isbn13.trans h.isbn13
  sources := List.Subset.trans h.sources h'.sources
  authors := h.authors.trans h'.authors
  language := h.language.trans h'.language
  publishedYear := h.publishedYear.trans h'.publishedYear
  firstPublishedYear := h.firstPublishedYear.trans h'.firstPublishedYear
  publisher := h.publisher.trans h'.publisher
  pageCount := h.pageCount.trans h'.pageCount
  format := h.format.trans h'.format
  coverUrl := h.coverUrl.trans h'.coverUrl
  description := h.description.trans h'.description
  externalId := h.externalId.trans h'.externalId
  workExternalId := h.workExternalId.trans h'.workExternalId
  localEditionId := h.localEditionId.trans h'.localEditionId

end ExternalSearchResult.Enriches

/-- ResultMerge enriches the base, as long as `extra` brings no ISBN of its own. -/
theorem mergeInto_enriches {base extra : ExternalSearchResult}
    (h : extra.isbn13 ≠ none → base.isbn13 = extra.isbn13) :
    base.Enriches (SearchText.mergeInto base extra) := by
  constructor
  case isbn13 =>
    show (base.isbn13 <|> extra.isbn13) = base.isbn13
    by_cases he : extra.isbn13 = none
    · rw [he]
      cases base.isbn13 <;> rfl
    · rw [h he]
      cases extra.isbn13 <;> rfl
  case sources =>
    intro s hs
    show s ∈ (base.sources ++ extra.sources).eraseDups
    rw [List.mem_eraseDups]
    exact List.mem_append_left _ hs
  all_goals first | rfl | exact Fills.orElse _ _

/-- The records that a row is made from, in the order in which they were merged. -/
inductive MadeFrom : List ExternalSearchResult → ExternalSearchResult → Prop
  | record (r : ExternalSearchResult) : MadeFrom [r] r
  | merge {ps qs : List ExternalSearchResult} {base extra : ExternalSearchResult} :
    MadeFrom ps base → MadeFrom qs extra →
    MadeFrom (ps ++ qs) (SearchText.mergeInto base extra)

/-! ## Group keys -/

variable (text : SearchText)

theorem isbnKey_injective {x y : String} (h : "isbn:" ++ x = "isbn:" ++ y) : x = y :=
  (String.append_right_inj _).mp h

theorem groupKey_of_isbn {r : ExternalSearchResult} {isbn13 : String} (h : r.isbn13 = some isbn13) :
    text.groupKey r = "isbn:" ++ isbn13 := by
  unfold SearchText.groupKey
  rw [h]

/-- Only an ISBN makes an ISBN key. -/
theorem groupKey_ne_isbn {r : ExternalSearchResult} (h : r.isbn13 = none) (isbn13 : String) :
    text.groupKey r ≠ "isbn:" ++ isbn13 := by
  intro hkey
  have hhead := congrArg (fun key => key.toList.head?) hkey
  unfold SearchText.groupKey at hhead
  rw [h] at hhead
  dsimp only at hhead
  split at hhead
  · simp at hhead
  · rw [String.intercalate_cons_of_ne_nil (by simp)] at hhead
    simp at hhead

/-- **Records with one group key have one ISBN**, or none. -/
theorem isbn_of_groupKey_eq {r r' : ExternalSearchResult}
    (h : text.groupKey r = text.groupKey r') : r.isbn13 = r'.isbn13 := by
  cases hr : r.isbn13 with
  | none =>
    cases hr' : r'.isbn13 with
    | none => rfl
    | some y => exact absurd (h.trans (groupKey_of_isbn text hr')) (groupKey_ne_isbn text hr y)
  | some x =>
    rw [groupKey_of_isbn text hr] at h
    cases hr' : r'.isbn13 with
    | none => exact absurd h.symm (groupKey_ne_isbn text hr' x)
    | some y =>
      rw [groupKey_of_isbn text hr'] at h
      rw [isbnKey_injective h]

/-! ## The rows -/

/-- A row with its place kept, and its record enriched. -/
def ResultRow.Grown (row row' : ResultRow) : Prop :=
  row'.slot = row.slot ∧ row.result.Enriches row'.result

theorem ResultRow.Grown.refl (row : ResultRow) : row.Grown row := ⟨rfl, .refl row.result⟩

theorem ResultRow.Grown.trans (a b c : ResultRow) (h : a.Grown b) (h' : b.Grown c) : a.Grown c :=
  ⟨h'.1.trans h.1, h.2.trans _ _ _ h'.2⟩

namespace ResultMerge

variable {text} {m : ResultMerge} {slot : Nat} {extra : ExternalSearchResult}

/-- Every record that was read is in exactly one row. -/
def Gathers (m : ResultMerge) (records : List ExternalSearchResult) : Prop :=
  ∃ parts : Nat → List ExternalSearchResult,
    (∀ row ∈ m.rows, MadeFrom (parts row.slot) row.result) ∧
      ((m.rows.map ResultRow.slot).flatMap parts).Perm records

/-- Every row is a record that was read, enriched. -/
def Based (m : ResultMerge) (records : List ExternalSearchResult) : Prop :=
  ∀ row ∈ m.rows, ∃ r ∈ records, r.Enriches row.result

/-- What holds of the rows and their keys. -/
structure Sound (text : SearchText) (m : ResultMerge) : Prop where
  slots : (m.rows.map ResultRow.slot).Nodup
  bound : ∀ row ∈ m.rows, row.slot < m.next
  filed : ∀ key slot, m.byKey key = some slot → ∃ row ∈ m.rows, row.slot = slot
  /-- A record with an ISBN finds a row with that ISBN. -/
  isbn13 : ∀ row ∈ m.rows, ∀ r, m.byKey (text.groupKey r) = some row.slot → r.isbn13 ≠ none →
    row.result.isbn13 = r.isbn13
  works : ∀ row ∈ m.rows, row.result.kind = .work → row.result.isbn13 = none

/-- Two rows in one slot are one. -/
theorem Sound.row_unique (h : m.Sound text) {row row' : ResultRow} (hrow : row ∈ m.rows)
    (hrow' : row' ∈ m.rows) (hslot : row.slot = row'.slot) : row = row' :=
  List.inj_on_of_nodup_map h.slots hrow hrow' hslot

/-- A row that takes in another record. -/
def taken (slot : Nat) (extra : ExternalSearchResult) (row : ResultRow) : ResultRow :=
  if row.slot = slot then { row with result := SearchText.mergeInto row.result extra } else row

@[simp] theorem taken_slot (row : ResultRow) : (taken slot extra row).slot = row.slot := by
  unfold taken
  split <;> rfl

/-- The rows of the slot have the ISBN that the record brings. -/
def Fits (m : ResultMerge) (slot : Nat) (extra : ExternalSearchResult) : Prop :=
  ∀ row ∈ m.rows, row.slot = slot → extra.isbn13 ≠ none → row.result.isbn13 = extra.isbn13

theorem Fits.grown (h : m.Fits slot extra) {row : ResultRow} (hrow : row ∈ m.rows) :
    row.Grown (taken slot extra row) := by
  unfold taken
  split
  · next hslot => exact ⟨rfl, mergeInto_enriches (h row hrow hslot)⟩
  · exact .refl row

theorem map_slot_absorb :
    (m.absorb slot extra).rows.map ResultRow.slot = m.rows.map ResultRow.slot := by
  show (m.rows.map (taken slot extra)).map ResultRow.slot = _
  rw [List.map_map]
  exact List.map_congr_left fun row _ => taken_slot row

/-- A row after absorbing is a row before, grown. -/
theorem Fits.of_absorb (h : m.Fits slot extra) {row' : ResultRow}
    (hrow : row' ∈ (m.absorb slot extra).rows) : ∃ row ∈ m.rows, row.Grown row' := by
  obtain ⟨row, hmem, rfl⟩ := List.mem_map.mp hrow
  exact ⟨row, hmem, h.grown hmem⟩

theorem Based.absorb {records : List ExternalSearchResult} (h : m.Based records)
    (hfits : m.Fits slot extra) : (m.absorb slot extra).Based records := by
  intro row' hrow
  obtain ⟨row, hmem, -, hgrown⟩ := hfits.of_absorb hrow
  obtain ⟨r, hr, hbase⟩ := h row hmem
  exact ⟨r, hr, hbase.trans _ _ _ hgrown⟩

theorem Based.append {records : List ExternalSearchResult} (h : m.Based records)
    (rs : List ExternalSearchResult) : m.Based (records ++ rs) := by
  intro row hrow
  obtain ⟨r, hr, hbase⟩ := h row hrow
  exact ⟨r, List.mem_append_left _ hr, hbase⟩

theorem Sound.absorb (h : m.Sound text) (hfits : m.Fits slot extra) :
    (m.absorb slot extra).Sound text := by
  constructor
  case slots =>
    rw [map_slot_absorb]
    exact h.slots
  case bound =>
    intro row' hrow
    obtain ⟨row, hmem, hslot, -⟩ := hfits.of_absorb hrow
    rw [hslot]
    exact h.bound row hmem
  case filed =>
    intro key s hkey
    obtain ⟨row, hmem, hslot⟩ := h.filed key s hkey
    exact ⟨taken slot extra row, List.mem_map_of_mem hmem, (taken_slot row).trans hslot⟩
  case isbn13 =>
    intro row' hrow r hkey hr
    obtain ⟨row, hmem, hslot, hgrown⟩ := hfits.of_absorb hrow
    rw [hgrown.isbn13]
    exact h.isbn13 row hmem r (hslot ▸ hkey) hr
  case works =>
    intro row' hrow hkind
    obtain ⟨row, hmem, -, hgrown⟩ := hfits.of_absorb hrow
    rw [hgrown.isbn13]
    exact h.works row hmem (hgrown.kind.symm.trans hkind)

/-- The record goes to the row that takes it in. -/
theorem Sound.gathers_absorb (h : m.Sound text) {records qs : List ExternalSearchResult}
    (hg : ∃ row ∈ m.rows, row.slot = slot) (hq : MadeFrom qs extra) (hgather : m.Gathers records) :
    (m.absorb slot extra).Gathers (records ++ qs) := by
  obtain ⟨parts, hmade, hperm⟩ := hgather
  refine ⟨Function.update parts slot (parts slot ++ qs), fun row' hrow => ?_, ?_⟩
  · obtain ⟨row, hmem, rfl⟩ := List.mem_map.mp hrow
    by_cases hslot : row.slot = slot
    · subst hslot
      rw [if_pos rfl, Function.update_self]
      exact .merge (hmade row hmem) hq
    · rw [if_neg hslot, Function.update_of_ne hslot]
      exact hmade row hmem
  · obtain ⟨row, hmem, rfl⟩ := hg
    rw [map_slot_absorb]
    exact (flatMap_update_perm h.slots (List.mem_map_of_mem hmem) parts qs).trans
      (hperm.append_right qs)

/-! ## One record -/

theorem push_rows (key : String) (r : ExternalSearchResult) :
    (m.push key r).rows = m.rows ++ [⟨m.next, r⟩] := rfl

theorem push_byKey (key key' : String) (r : ExternalSearchResult) :
    (m.push key r).byKey key' = if key' = key then some m.next else m.byKey key' :=
  Function.update_apply ..

/-- A new row at the end. -/
theorem Sound.push (h : m.Sound text) {r : ExternalSearchResult}
    (hwork : r.kind = .work → r.isbn13 = none) (_ : m.byKey (text.groupKey r) = none) :
    (m.push (text.groupKey r) r).Sound text := by
  have hfresh : ∀ row ∈ m.rows, row.slot ≠ m.next := fun row hrow hslot =>
    absurd (h.bound row hrow) (by omega)
  constructor
  case slots =>
    rw [push_rows, List.map_append, List.map_singleton, List.nodup_append]
    refine ⟨h.slots, List.nodup_singleton _, fun a ha b hb hab => ?_⟩
    obtain ⟨row, hrow, rfl⟩ := List.mem_map.mp ha
    exact hfresh row hrow (hab.trans (List.mem_singleton.mp hb))
  case bound =>
    intro row hrow
    rcases List.mem_append.mp hrow with hrow | hrow
    · exact Nat.lt_succ_of_lt (h.bound row hrow)
    · rw [List.mem_singleton.mp hrow]
      exact Nat.lt_succ_self _
  case filed =>
    intro key slot hkey
    rw [push_byKey] at hkey
    split at hkey
    · exact ⟨_, List.mem_append_right _ (List.mem_singleton_self _), Option.some.inj hkey⟩
    · obtain ⟨row, hrow, hslot⟩ := h.filed key slot hkey
      exact ⟨row, List.mem_append_left _ hrow, hslot⟩
  case isbn13 =>
    intro row hrow x hkey hx
    rw [push_byKey] at hkey
    split at hkey
    · next hk =>
      -- the key of the new row
      rcases List.mem_append.mp hrow with hrow | hrow
      · exact absurd (Option.some.inj hkey).symm (hfresh row hrow)
      · rw [List.mem_singleton.mp hrow]
        exact (isbn_of_groupKey_eq text hk).symm
    · rcases List.mem_append.mp hrow with hrow | hrow
      · exact h.isbn13 row hrow x hkey hx
      · -- no key led to the new row
        rw [List.mem_singleton.mp hrow] at hkey
        obtain ⟨row', hrow', hslot⟩ := h.filed _ _ hkey
        exact absurd hslot (hfresh row' hrow')
  case works =>
    intro row hrow hkind
    rcases List.mem_append.mp hrow with hrow | hrow
    · exact h.works row hrow hkind
    · obtain rfl := List.mem_singleton.mp hrow
      exact hwork hkind

theorem Based.push {records : List ExternalSearchResult} (h : m.Based records) (key : String)
    (r : ExternalSearchResult) : (m.push key r).Based (records ++ [r]) := by
  intro row hrow
  rcases List.mem_append.mp hrow with hrow | hrow
  · exact h.append [r] row hrow
  · rw [List.mem_singleton.mp hrow]
    exact ⟨r, List.mem_append_right _ (List.mem_singleton_self r), .refl r⟩

theorem Sound.gathers_push (h : m.Sound text) {records : List ExternalSearchResult}
    (key : String) (r : ExternalSearchResult) (hgather : m.Gathers records) :
    (m.push key r).Gathers (records ++ [r]) := by
  obtain ⟨parts, hmade, hperm⟩ := hgather
  have hfresh : m.next ∉ m.rows.map ResultRow.slot := by
    rintro hmem
    obtain ⟨row, hrow, hslot⟩ := List.mem_map.mp hmem
    have := h.bound row hrow
    omega
  refine ⟨Function.update parts m.next [r], fun row hrow => ?_, ?_⟩
  · rcases List.mem_append.mp hrow with hrow | hrow
    · have hne : row.slot ≠ m.next := fun hslot => hfresh (hslot ▸ List.mem_map_of_mem hrow)
      rw [Function.update_of_ne hne]
      exact hmade row hrow
    · obtain rfl := List.mem_singleton.mp hrow
      rw [Function.update_self]
      exact .record r
  · rw [push_rows, List.map_append, List.map_singleton, List.flatMap_append, List.flatMap_singleton,
      Function.update_self, flatMap_update_of_not_mem hfresh]
    exact hperm.append_right _

/-! ## A work collapses -/

/-- What a row created in this block is: behind the rows the block found, and, while it is a work,
reached by its own key only, which is no ISBN's. -/
structure CreatedHere (text : SearchText) (first : Nat) (m : ResultMerge) (c : Nat × String) :
    Prop where
  late : first ≤ c.1
  known : c.1 < m.next
  work : ∀ row ∈ m.rows, row.slot = c.1 → row.result.kind = .work →
    (∀ key, m.byKey key = some c.1 → key = c.2) ∧ ∀ r, text.groupKey r = c.2 → r.isbn13 = none

/-- The rows that a work may collapse into. -/
theorem mem_printingsOf {work : ExternalSearchResult} {row : ResultRow} :
    row ∈ m.printingsOf text work ↔
      row ∈ m.rows ∧ row.result.kind = .edition ∧ text.sameBook work row.result = true := by
  unfold printingsOf
  rw [List.mem_filter, decide_eq_true_eq]

variable (text) in
/-- **collapse** leaves the list, or moves a work of this block into the one printing. -/
theorem collapse_cases (m : ResultMerge) (c : Nat × String) :
    m.collapse text c = m ∨ ∃ row only, row ∈ m.rows ∧ row.slot = c.1 ∧ row.result.kind = .work ∧
      only ∈ m.rows ∧ only.result.kind = .edition ∧
      m.collapse text c = (m.absorb only.slot row.result).redirect row.slot c.2 only.slot := by
  unfold collapse
  split
  · exact Or.inl rfl
  · next row hrow =>
    split
    · exact Or.inl rfl
    · next hkind =>
      split
      · next only honly =>
        obtain ⟨hmem, hedition, -⟩ := mem_printingsOf.mp (honly ▸ List.mem_singleton_self only)
        have hslot : row.slot = c.1 := by simpa using List.find?_some hrow
        exact Or.inr ⟨row, only, List.mem_of_find?_eq_some hrow, hslot, not_not.mp hkind, hmem,
          hedition, rfl⟩
      · exact Or.inl rfl

section Collapse

variable {first : Nat} {c : Nat × String} {row only : ResultRow}

/-- A work brings no ISBN. -/
theorem Sound.fits_work (h : m.Sound text) (hrow : row ∈ m.rows) (hkind : row.result.kind = .work)
    (slot : Nat) : m.Fits slot row.result :=
  fun _ _ _ hisbn => absurd (h.works row hrow hkind) hisbn

theorem mem_redirect {m : ResultMerge} {slot other : Nat} {key : String} {row : ResultRow} :
    row ∈ (m.redirect slot key other).rows ↔ row ∈ m.rows ∧ row.slot ≠ slot := by
  show row ∈ m.rows.filter _ ↔ _
  rw [List.mem_filter, decide_eq_true_eq]

theorem redirect_byKey (m : ResultMerge) (slot other : Nat) (key key' : String) :
    (m.redirect slot key other).byKey key' = if key' = key then some other else m.byKey key' :=
  Function.update_apply ..

/-- Taking a work out keeps the invariant. -/
theorem Sound.redirect (h : m.Sound text) (hcreated : CreatedHere text first m c)
    (hrow : row ∈ m.rows) (hslot : row.slot = c.1) (hkind : row.result.kind = .work)
    (honly : only ∈ m.rows) (hne : only.slot ≠ row.slot) :
    (m.redirect row.slot c.2 only.slot).Sound text := by
  obtain ⟨hkeys, hisbn⟩ := hcreated.work row hrow hslot hkind
  constructor
  case slots => exact (List.filter_sublist.map ResultRow.slot).nodup h.slots
  case bound => exact fun x hx => h.bound x (mem_redirect.mp hx).1
  case filed =>
    intro key s hkey
    rw [redirect_byKey] at hkey
    split at hkey
    · exact ⟨only, mem_redirect.mpr ⟨honly, hne⟩, Option.some.inj hkey⟩
    · next hother =>
      obtain ⟨x, hx, rfl⟩ := h.filed key s hkey
      refine ⟨x, mem_redirect.mpr ⟨hx, fun hxs => ?_⟩, rfl⟩
      rw [hxs, hslot] at hkey
      exact hother (hkeys key hkey)
  case isbn13 =>
    intro x hx r hkey hr
    rw [redirect_byKey] at hkey
    split at hkey
    · next hk => exact absurd (hisbn r hk) hr
    · exact h.isbn13 x (mem_redirect.mp hx).1 r hkey hr
  case works => exact fun x hx => h.works x (mem_redirect.mp hx).1

/-- The records of the work go to its printing. -/
theorem Sound.gathers_collapse (h : m.Sound text) {records : List ExternalSearchResult}
    (hrow : row ∈ m.rows) (honly : only ∈ m.rows) (hne : only.slot ≠ row.slot) (key : String)
    (hgather : m.Gathers records) :
    ((m.absorb only.slot row.result).redirect row.slot key only.slot).Gathers records := by
  obtain ⟨parts, hmade, hperm⟩ := hgather
  refine ⟨Function.update parts only.slot (parts only.slot ++ parts row.slot), fun x hx => ?_, ?_⟩
  · obtain ⟨y, hy, rfl⟩ := List.mem_map.mp (mem_redirect.mp hx).1
    by_cases hslot : y.slot = only.slot
    · obtain rfl := h.row_unique hy honly hslot
      rw [if_pos rfl, Function.update_self]
      exact .merge (hmade y hy) (hmade row hrow)
    · rw [if_neg hslot, Function.update_of_ne hslot]
      exact hmade y hy
  · have hids : ((m.absorb only.slot row.result).redirect row.slot key only.slot).rows.map
        ResultRow.slot = (m.rows.map ResultRow.slot).filter fun s => s ≠ row.slot := by
      rw [← @map_slot_absorb m only.slot row.result, List.filter_map]
      rfl
    rw [hids]
    have hsub := h.slots.filter fun s => s ≠ row.slot
    have hmem : only.slot ∈ (m.rows.map ResultRow.slot).filter fun s => s ≠ row.slot :=
      List.mem_filter.mpr ⟨List.mem_map_of_mem honly, decide_eq_true hne⟩
    refine (flatMap_update_perm hsub hmem parts _).trans ?_
    exact (flatMap_filter_ne_perm h.slots (List.mem_map_of_mem hrow) parts).symm.trans hperm

end Collapse

/-! ## A block -/

/-- While a block is folded in: what was there when it began (`rows`, up to the slot `first`) is
where it was, and every record read so far is in one row. -/
structure Folding (text : SearchText) (rows : List ResultRow) (first : Nat)
    (records : List ExternalSearchResult) (m : ResultMerge) (created : List (Nat × String)) :
    Prop where
  sound : m.Sound text
  grows : GrowsTo ResultRow.Grown rows m.rows
  created : ∀ c ∈ created, CreatedHere text first m c
  gathers : m.Gathers records
  based : m.Based records
  next : first ≤ m.next

variable {rows : List ResultRow} {first : Nat} {records : List ExternalSearchResult}
  {created : List (Nat × String)}

/-- What was created stays so when a row takes in a record. -/
theorem CreatedHere.absorb {c : Nat × String} (h : CreatedHere text first m c)
    (hfits : m.Fits slot extra) : CreatedHere text first (m.absorb slot extra) c := by
  refine ⟨h.late, h.known, fun row' hrow hslot hkind => ?_⟩
  obtain ⟨row, hmem, hsame, hgrown⟩ := hfits.of_absorb hrow
  exact h.work row hmem (hsame ▸ hslot) (hgrown.kind.symm.trans hkind)

theorem CreatedHere.push {c : Nat × String} (h : CreatedHere text first m c) (key : String)
    (r : ExternalSearchResult) : CreatedHere text first (m.push key r) c := by
  have hknown := h.known
  refine ⟨h.late, Nat.lt_succ_of_lt hknown, fun row hrow hslot hkind => ?_⟩
  rcases List.mem_append.mp hrow with hrow | hrow
  · obtain ⟨hkeys, hisbn⟩ := h.work row hrow hslot hkind
    refine ⟨fun key' hkey => ?_, hisbn⟩
    rw [push_byKey] at hkey
    split at hkey
    · have := Option.some.inj hkey
      omega
    · exact hkeys key' hkey
  · rw [List.mem_singleton.mp hrow] at hslot
    have hslot : m.next = c.1 := hslot
    omega

/-- The new row is created here. -/
theorem Sound.created_push (h : m.Sound text) {r : ExternalSearchResult}
    (hwork : r.kind = .work → r.isbn13 = none) (hfirst : first ≤ m.next) :
    CreatedHere text first (m.push (text.groupKey r) r) (m.next, text.groupKey r) := by
  refine ⟨hfirst, Nat.lt_succ_self _, fun row hrow hslot hkind => ⟨fun key hkey => ?_, ?_⟩⟩
  · rw [push_byKey] at hkey
    split at hkey
    · assumption
    · obtain ⟨x, hx, hxslot⟩ := h.filed key _ hkey
      have hxslot : x.slot = m.next := hxslot
      have := h.bound x hx
      omega
  · intro x hx
    have hrow : row = ⟨m.next, r⟩ := by
      rcases List.mem_append.mp hrow with hrow | hrow
      · have := h.bound row hrow
        have hslot : row.slot = m.next := hslot
        omega
      · exact List.mem_singleton.mp hrow
    subst hrow
    rw [isbn_of_groupKey_eq text hx]
    exact hwork hkind

/-- **One record** enriches its row or becomes one. -/
theorem Folding.mergeEntry (h : Folding text rows first records m created)
    {r : ExternalSearchResult} (hwork : r.kind = .work → r.isbn13 = none) :
    Folding text rows first (records ++ [r]) (ResultMerge.mergeEntry text (m, created) r).1
      (ResultMerge.mergeEntry text (m, created) r).2 := by
  unfold ResultMerge.mergeEntry
  dsimp only
  split
  · next slot hkey =>
    have hfits : m.Fits slot r := fun row hrow hslot =>
      h.sound.isbn13 row hrow r (hslot ▸ hkey)
    refine ⟨h.sound.absorb hfits, ?_, fun c hc => (h.created c hc).absorb hfits, ?_,
      (h.based.append [r]).absorb hfits, h.next⟩
    · exact h.grows.map_right ResultRow.Grown.trans fun row hrow => hfits.grown hrow
    · exact h.sound.gathers_absorb (h.sound.filed _ _ hkey) (.record r) h.gathers
  · next hnew =>
    have hfirst := h.next
    refine ⟨h.sound.push hwork hnew, h.grows.append _, fun c hc => ?_,
      h.sound.gathers_push _ r h.gathers, h.based.push _ r, Nat.le_succ_of_le hfirst⟩
    rcases List.mem_append.mp hc with hc | hc
    · exact (h.created c hc).push _ r
    · rw [List.mem_singleton.mp hc]
      exact h.sound.created_push hwork hfirst

/-- **One work** of the block stays, or moves into its printing. -/
theorem Folding.collapse (h : Folding text rows first records m created)
    (hrows : ∀ row ∈ rows, row.slot < first) {c : Nat × String} (hc : c ∈ created) :
    Folding text rows first records (m.collapse text c) created := by
  rcases collapse_cases text m c with heq | ⟨row, only, hrow, hslot, hkind, honly,
    hedition, heq⟩
  · rw [heq]
    exact h
  · have hcreated := h.created c hc
    have hfits := h.sound.fits_work hrow hkind only.slot
    have hne : only.slot ≠ row.slot := by
      intro hsame
      obtain rfl := h.sound.row_unique honly hrow hsame
      rw [hkind] at hedition
      cases hedition
    have hself : ∀ x : ResultRow, x.slot ≠ only.slot → taken only.slot row.result x = x :=
      fun x hx => if_neg hx
    have hrow' : row ∈ (m.absorb only.slot row.result).rows :=
      List.mem_map.mpr ⟨row, hrow, hself row (Ne.symm hne)⟩
    have honly' : taken only.slot row.result only ∈ (m.absorb only.slot row.result).rows :=
      List.mem_map_of_mem honly
    have hsound := (h.sound.absorb hfits).redirect (hcreated.absorb hfits) hrow' hslot hkind honly'
      (by rwa [taken_slot])
    rw [taken_slot] at hsound
    rw [heq]
    refine ⟨hsound, ?_, fun d hd => ?_, h.sound.gathers_collapse hrow honly hne c.2 h.gathers,
      fun x hx => h.based.absorb hfits x (mem_redirect.mp hx).1, h.next⟩
    · refine (h.grows.map_right ResultRow.Grown.trans fun x hx => hfits.grown hx).filter_right ?_
      -- the rows that the block found are not the work's
      intro x hx y hxy
      have hxslot := hrows x hx
      have hlate := hcreated.late
      exact decide_eq_true (by rw [hxy.1]; omega)
    · have hd := (h.created d hd).absorb hfits
      refine ⟨hd.late, hd.known, fun x hx hxslot hxkind => ?_⟩
      obtain ⟨hkeys, hisbn⟩ := hd.work x (mem_redirect.mp hx).1 hxslot hxkind
      refine ⟨fun key hkey => ?_, hisbn⟩
      rw [redirect_byKey] at hkey
      split at hkey
      · -- the printing is no work
        have hsame : x = taken only.slot row.result only :=
          (h.sound.absorb hfits).row_unique (mem_redirect.mp hx).1 honly'
            (by rw [taken_slot, hxslot, Option.some.inj hkey])
        rw [hsame, (hfits.grown honly).2.kind, hedition] at hxkind
        cases hxkind
      · exact hkeys key hkey

/-! ## All blocks -/

variable {query : String} {ranked : List RankedResult}

/-- Works carry no ISBN. -/
def WorksUnnumbered (ranked : List RankedResult) : Prop :=
  ∀ entry ∈ ranked, entry.result.kind = .work → entry.result.isbn13 = none

theorem Folding.mergeEntries (rs : List ExternalSearchResult) {created : List (Nat × String)}
    (h : Folding text rows first records m created)
    (hwork : ∀ r ∈ rs, r.kind = .work → r.isbn13 = none) :
    Folding text rows first (records ++ rs)
      (rs.foldl (ResultMerge.mergeEntry text) (m, created)).1
      (rs.foldl (ResultMerge.mergeEntry text) (m, created)).2 := by
  induction rs generalizing m created records with
  | nil => rwa [List.append_nil]
  | cons r rs ih =>
    have hstep := h.mergeEntry (hwork r List.mem_cons_self)
    have hrest := ih hstep fun x hx => hwork x (List.mem_cons_of_mem _ hx)
    rw [List.append_assoc, List.singleton_append] at hrest
    exact hrest

theorem Folding.collapses {cs : List (Nat × String)} (h : Folding text rows first records m created)
    (hrows : ∀ row ∈ rows, row.slot < first) (hcs : cs ⊆ created) :
    Folding text rows first records (cs.foldl (ResultMerge.collapse text) m) created := by
  induction cs generalizing m with
  | nil => exact h
  | cons c cs ih =>
    exact ih (h.collapse hrows (hcs List.mem_cons_self)) fun x hx => hcs (List.mem_cons_of_mem _ hx)

/-- What a list of blocks leaves, from rows that are there already. -/
structure Folded (text : SearchText) (rows : List ResultRow) (records : List ExternalSearchResult)
    (m : ResultMerge) : Prop where
  sound : m.Sound text
  grows : GrowsTo ResultRow.Grown rows m.rows
  gathers : m.Gathers records
  based : m.Based records

variable (query) in
/-- **A block** leaves every row it found where it was. -/
theorem Folded.mergeBlock (h : Folded text rows records m) (hwork : WorksUnnumbered ranked)
    (block : Nat) :
    Folded text rows (records ++ (entriesOf text query ranked block).map RankedResult.result)
      (ResultMerge.mergeBlock text query ranked m block) := by
  have hstart : Folding text m.rows m.next records m [] :=
    ⟨h.sound, .refl ResultRow.Grown.refl _, fun c hc => (nomatch hc), h.gathers, h.based, Nat.le_refl _⟩
  have hentries := hstart.mergeEntries
    ((entriesOf text query ranked block).map RankedResult.result) fun r hr hkind => by
      obtain ⟨entry, hentry, rfl⟩ := List.mem_map.mp hr
      have hmem := (List.perm_insertionSort _ _).mem_iff.mp hentry
      exact hwork entry (List.mem_filter.mp hmem).1 hkind
  have hdone := hentries.collapses h.sound.bound (List.Subset.refl _)
  exact ⟨hdone.sound, h.grows.trans ResultRow.Grown.trans hdone.grows, hdone.gathers, hdone.based⟩

variable (query) in
theorem Folded.mergeBlocks (h : Folded text rows records m) (hwork : WorksUnnumbered ranked)
    (blocks : List Nat) :
    Folded text rows
      (records ++ (blocks.flatMap (entriesOf text query ranked)).map RankedResult.result)
      (blocks.foldl (ResultMerge.mergeBlock text query ranked) m) := by
  induction blocks generalizing m records with
  | nil => simpa using h
  | cons block blocks ih =>
    have hstep := ih (h.mergeBlock query hwork block)
    rw [List.append_assoc, ← List.map_append, ← List.flatMap_cons] at hstep
    exact hstep

variable (text) in
theorem Folded.start : Folded text [] [] .start := by
  refine ⟨⟨List.nodup_nil, ?_, ?_, ?_, ?_⟩, .nil [], ⟨fun _ => [], ?_, .nil⟩, ?_⟩
  · exact fun row hrow => nomatch hrow
  · exact fun key slot hkey => nomatch hkey
  · exact fun row hrow => nomatch hrow
  · exact fun row hrow => nomatch hrow
  · exact fun row hrow => nomatch hrow
  · exact fun row hrow => nomatch hrow

/-! ## Reading further -/

theorem mem_blocksOf {block : Nat} :
    block ∈ blocksOf ranked ↔ ∃ entry ∈ ranked, entry.block = block := by
  unfold blocksOf
  rw [(List.perm_insertionSort _ _).mem_iff, List.mem_eraseDups, List.mem_map]

variable (ranked) in
theorem sorted_blocksOf : (blocksOf ranked).Pairwise (· ≤ ·) := List.pairwise_insertionSort _ _

theorem nodup_blocksOf : (blocksOf ranked).Nodup :=
  (List.perm_insertionSort _ _).nodup_iff.mpr (nodup_eraseDups _)

/-- The blocks have every record once. -/
theorem blocks_perm (ranked : List RankedResult) :
    ((blocksOf ranked).flatMap (entriesOf text query ranked)).Perm ranked := by
  have hsorted : ((blocksOf ranked).flatMap (entriesOf text query ranked)).Perm
      ((blocksOf ranked).flatMap fun block => ranked.filter fun entry => entry.block = block) :=
    List.Perm.flatMap_left _ fun block _ => List.perm_insertionSort _ _
  refine hsorted.trans ?_
  refine (flatMap_filter_key_perm RankedResult.block ranked nodup_blocksOf).trans ?_
  rw [List.filter_eq_self.mpr]
  exact fun entry hentry => decide_eq_true (mem_blocksOf.mpr ⟨entry, hentry, rfl⟩)

/-- The first `k + 1` blocks of the records. -/
def upTo (k : Nat) (ranked : List RankedResult) : List RankedResult :=
  ranked.filter fun entry => entry.block ≤ k

theorem blocksOf_upTo (k : Nat) :
    blocksOf (upTo k ranked) = (blocksOf ranked).filter fun block => block ≤ k := by
  refine List.Perm.eq_of_pairwise (fun a b _ _ => Nat.le_antisymm) (sorted_blocksOf _)
    ((sorted_blocksOf ranked).filter _) ?_
  refine (List.perm_ext_iff_of_nodup nodup_blocksOf (nodup_blocksOf.filter _)).mpr fun block => ?_
  rw [List.mem_filter, mem_blocksOf, mem_blocksOf, decide_eq_true_eq]
  unfold upTo
  constructor
  · rintro ⟨entry, hentry, rfl⟩
    obtain ⟨hmem, hle⟩ := List.mem_filter.mp hentry
    exact ⟨⟨entry, hmem, rfl⟩, of_decide_eq_true hle⟩
  · rintro ⟨⟨entry, hmem, rfl⟩, hle⟩
    exact ⟨entry, List.mem_filter.mpr ⟨hmem, decide_eq_true hle⟩, rfl⟩

/-- The records of a block do not depend on later ones. -/
theorem entriesOf_upTo {k block : Nat} (h : block ≤ k) :
    entriesOf text query (upTo k ranked) block = entriesOf text query ranked block := by
  unfold entriesOf upTo
  rw [List.filter_filter]
  congr 1
  refine List.filter_congr fun entry _ => ?_
  by_cases hb : entry.block = block
  · simp [hb, h]
  · simp [hb]

theorem mergeBlock_upTo {k block : Nat} (h : block ≤ k) (m : ResultMerge) :
    mergeBlock text query (upTo k ranked) m block = mergeBlock text query ranked m block := by
  unfold mergeBlock
  rw [entriesOf_upTo h]

end ResultMerge

open ResultMerge

variable {text} {query : String} {ranked : List RankedResult}

variable (text query) in
/-- **The merged list grows at its end** as further blocks are read. -/
theorem mergeResults_grows (hwork : WorksUnnumbered ranked) (k : Nat) :
    GrowsTo ExternalSearchResult.Enriches (mergeResults text query (upTo k ranked))
      (mergeResults text query ranked) := by
  have hfront : (blocksOf (upTo k ranked)).foldl (mergeBlock text query (upTo k ranked)) .start =
      ((blocksOf ranked).filter fun block => block ≤ k).foldl (mergeBlock text query ranked)
        .start := by
    rw [blocksOf_upTo]
    refine List.foldl_ext _ _ _ fun m block hblock => mergeBlock_upTo ?_ m
    exact of_decide_eq_true (List.mem_filter.mp hblock).2
  have hsplit := filter_append_filter_of_pairwise (p := fun block => decide (block ≤ k))
    (fun a b hab hb => decide_eq_true (Nat.le_trans hab (of_decide_eq_true hb)))
    (sorted_blocksOf ranked)
  have hread := (Folded.start text).mergeBlocks query hwork
    ((blocksOf ranked).filter fun block => block ≤ k)
  have hgrown : Folded text _ _ _ :=
    Folded.mergeBlocks query ⟨hread.sound, .refl ResultRow.Grown.refl _, hread.gathers, hread.based⟩
      hwork ((blocksOf ranked).filter fun block => !decide (block ≤ k))
  rw [← List.foldl_append, hsplit] at hgrown
  unfold mergeResults
  rw [hfront]
  exact hgrown.grows.map fun _ _ h => h.2

/-- **Every record is in exactly one row** of the merged list. -/
theorem mergeResults_gathers (hwork : WorksUnnumbered ranked) :
    ∃ parts : List (List ExternalSearchResult),
      List.Forall₂ MadeFrom parts (mergeResults text query ranked) ∧
        parts.flatten.Perm (ranked.map RankedResult.result) := by
  have hread := (Folded.start text).mergeBlocks query hwork (blocksOf ranked)
  obtain ⟨parts, hmade, hperm⟩ := hread.gathers
  refine ⟨((blocksOf ranked).foldl (mergeBlock text query ranked) .start).rows.map
    fun row => parts row.slot, ?_, ?_⟩
  · unfold mergeResults
    rw [List.forall₂_map_left_iff, List.forall₂_map_right_iff, List.forall₂_same]
    exact hmade
  · rw [List.flatMap_map] at hperm
    rw [← List.flatMap_def]
    refine hperm.trans ?_
    rw [List.nil_append]
    exact (blocks_perm ranked).map _

/-- Every row of the merged list is a record that was read, enriched. -/
theorem mergeResults_based (hwork : WorksUnnumbered ranked) {row : ExternalSearchResult}
    (hrow : row ∈ mergeResults text query ranked) :
    ∃ entry ∈ ranked, entry.result.Enriches row := by
  have hread := (Folded.start text).mergeBlocks query hwork (blocksOf ranked)
  obtain ⟨x, hx, rfl⟩ := List.mem_map.mp hrow
  obtain ⟨r, hr, hbase⟩ := hread.based x hx
  rw [List.nil_append, ((blocks_perm ranked).map _).mem_iff] at hr
  obtain ⟨entry, hentry, rfl⟩ := List.mem_map.mp hr
  exact ⟨entry, hentry, hbase⟩

end Bookswap
