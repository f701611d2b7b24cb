import Mathlib.Data.List.Nodup
import Mathlib.Data.List.Perm.Basic
import Bookswap.Lib.Texts
import Bookswap.QuickAdd.ExternalSources

/-!
# What a content hash tells

Two JSON values with one canonical form agree field by field, up to `null`, `{}` and the absent
field (`Alike`). So two requests with one canonical content have one form once every such field is
written out (`settled`).

- `Json.Alike.get`: one canonical form, then one of every field.
- `QuickAddTarget.Like`: what two targets with one canonical form have in common.
- `QuickAddRequest.like_of_canonical`: the same of the whole content.
-/

namespace Bookswap

/-! ## Canonical values -/

namespace Json

/-- A field of an object; nothing where there is none. -/
def get (key : String) : Json → Json
  | obj fields => (fields.lookup key).getD null
  | _ => null

/-- The canonical value, with one form for nothing. -/
def plain (v : Json) : Json := if v.canonical.isAbsent then null else v.canonical

def Alike (v w : Json) : Prop := v.plain = w.plain

theorem Alike.of_canonical {v w : Json} (h : v.canonical = w.canonical) : Alike v w := by
  unfold Alike plain
  rw [h]

/-- With distinct keys, a field is what `lookup` finds. -/
theorem lookup_eq_some_iff {fields : List (String × Json)} (h : (fields.map Prod.fst).Nodup)
    {key : String} {v : Json} : fields.lookup key = some v ↔ (key, v) ∈ fields := by
  induction fields with
  | nil => simp
  | cons field fields ih =>
    obtain ⟨k, w⟩ := field
    obtain ⟨hfresh, hnodup⟩ := List.nodup_cons.mp h
    rw [List.lookup_cons, List.mem_cons]
    by_cases hk : key = k
    · subst hk
      rw [beq_self_eq_true]
      show some w = some v ↔ _
      rw [Option.some.injEq]
      constructor
      · rintro rfl
        exact Or.inl rfl
      · rintro (heq | hmem)
        · cases heq
          rfl
        · exact absurd (List.mem_map_of_mem (f := Prod.fst) hmem) hfresh
    · rw [beq_false_of_ne hk]
      show fields.lookup key = some v ↔ _
      rw [ih hnodup]
      exact ⟨Or.inr, fun hmem => hmem.resolve_left fun heq => hk (congrArg Prod.fst heq)⟩

theorem mem_canonicalFields {fields : List (String × Json)} {key : String} {v : Json} :
    (key, v) ∈ canonicalFields fields ↔
      ∃ w, (key, w) ∈ fields ∧ w.canonical.isAbsent = false ∧ v = w.canonical := by
  induction fields with
  | nil => simp [canonicalFields]
  | cons field fields ih =>
    obtain ⟨k, w⟩ := field
    unfold canonicalFields
    by_cases habsent : w.canonical.isAbsent = true
    · rw [if_pos habsent, ih]
      constructor
      · rintro ⟨x, hx, hrest⟩
        exact ⟨x, List.mem_cons_of_mem _ hx, hrest⟩
      · rintro ⟨x, hx, hpresent, hv⟩
        rcases List.mem_cons.mp hx with heq | hx
        · cases heq
          rw [habsent] at hpresent
          cases hpresent
        · exact ⟨x, hx, hpresent, hv⟩
    · rw [if_neg habsent, List.mem_cons, ih]
      constructor
      · rintro (heq | ⟨x, hx, hrest⟩)
        · cases heq
          exact ⟨w, List.mem_cons_self, by simpa using habsent, rfl⟩
        · exact ⟨x, List.mem_cons_of_mem _ hx, hrest⟩
      · rintro ⟨x, hx, hpresent, rfl⟩
        rcases List.mem_cons.mp hx with heq | hx
        · cases heq
          exact Or.inl rfl
        · exact Or.inr ⟨x, hx, hpresent, rfl⟩

theorem keys_canonicalFields (fields : List (String × Json)) :
    ((canonicalFields fields).map Prod.fst).Sublist (fields.map Prod.fst) := by
  induction fields with
  | nil => exact List.Sublist.refl _
  | cons field fields ih =>
    obtain ⟨k, w⟩ := field
    unfold canonicalFields
    split
    · exact ih.cons k
    · exact ih.cons_cons k

/-- **A field of a canonical object** is the canonical field. -/
theorem plain_get {fields : List (String × Json)} (h : (fields.map Prod.fst).Nodup) (key : String) :
    ((obj fields).get key).plain = (obj fields).plain.get key := by
  let sorted := (canonicalFields fields).mergeSort fun a b => a.1 ≤ b.1
  have hperm : sorted.Perm (canonicalFields fields) := List.mergeSort_perm _ _
  have hnodup : (sorted.map Prod.fst).Nodup :=
    (hperm.map Prod.fst).nodup_iff.mpr (h.sublist (keys_canonicalFields fields))
  have hsorted : (obj fields).plain.get key = (sorted.lookup key).getD null := by
    show (if isAbsent (obj sorted) then null else obj sorted).get key = _
    cases hs : sorted with
    | nil => rfl
    | cons field rest => rfl
  rw [hsorted]
  show ((fields.lookup key).getD null).plain = _
  cases hfind : sorted.lookup key with
  | some v =>
    obtain ⟨w, hw, hpresent, rfl⟩ :=
      mem_canonicalFields.mp (hperm.mem_iff.mp ((lookup_eq_some_iff hnodup).mp hfind))
    rw [(lookup_eq_some_iff h).mpr hw]
    show w.plain = w.canonical
    unfold plain
    rw [hpresent]
    rfl
  | none =>
    cases hfields : fields.lookup key with
    | none => rfl
    | some w =>
      show w.plain = null
      unfold plain
      split
      · rfl
      · next habsent =>
        have hmem := mem_canonicalFields.mpr
          ⟨w, (lookup_eq_some_iff h).mp hfields, by simpa using habsent, rfl⟩
        rw [(lookup_eq_some_iff hnodup).mpr (hperm.mem_iff.mpr hmem)] at hfind
        cases hfind

/-- An object with distinct keys, or nothing. -/
inductive Record : Json → Prop
  | null : Record null
  | obj {fields : List (String × Json)} : (fields.map Prod.fst).Nodup → Record (obj fields)

/-- **One canonical form, then one of every field.** -/
theorem Alike.get {v w : Json} (h : Alike v w) (hv : Record v) (hw : Record w) (key : String) :
    Alike (v.get key) (w.get key) := by
  have hget : ∀ {x : Json}, Record x → (x.get key).plain = x.plain.get key := by
    intro x hx
    cases hx with
    | null => rfl
    | obj hnodup => exact plain_get hnodup key
  unfold Alike at h ⊢
  rw [hget hv, hget hw, h]

/-! ## Leaves -/

/-- A value that is never nothing, and its own canonical form. -/
structure Leaf {α : Type} (toJson : α → Json) : Prop where
  canonical : ∀ a, (toJson a).canonical = toJson a
  present : ∀ a, (toJson a).isAbsent = false
  injective : Function.Injective toJson

theorem leaf_str : Leaf Json.str := ⟨fun _ => rfl, fun _ => rfl, fun _ _ h => by cases h; rfl⟩

theorem leaf_num : Leaf Json.num := ⟨fun _ => rfl, fun _ => rfl, fun _ _ h => by cases h; rfl⟩

theorem leaf_day : Leaf Json.day := ⟨fun _ => rfl, fun _ => rfl, fun _ _ h => by cases h; rfl⟩

theorem leaf_bool : Leaf Json.bool := ⟨fun _ => rfl, fun _ => rfl, fun _ _ h => by cases h; rfl⟩

theorem leaf_text {α : Type} {text : α → String} (h : Function.Injective text) :
    Leaf fun a => Json.str (text a) :=
  ⟨fun _ => rfl, fun _ => rfl, fun _ _ heq => h (Json.str.inj heq)⟩

theorem Leaf.plain {α : Type} {toJson : α → Json} (h : Leaf toJson) (a : α) :
    (toJson a).plain = toJson a := by
  unfold Json.plain
  rw [h.canonical, h.present]
  rfl

/-- A leaf can be read back. -/
theorem Alike.of_leaf {α : Type} {toJson : α → Json} (hleaf : Leaf toJson) {x y : Option α}
    (h : Alike (orNull toJson x) (orNull toJson y)) : x = y := by
  unfold Alike at h
  have hnull : ∀ a, toJson a ≠ .null := by
    intro a hnull
    have hpresent := hleaf.present a
    rw [hnull] at hpresent
    cases hpresent
  cases x with
  | none =>
    cases y with
    | none => rfl
    | some b => exact absurd ((hleaf.plain b).symm.trans h.symm) (hnull b)
  | some a =>
    cases y with
    | none => exact absurd ((hleaf.plain a).symm.trans h) (hnull a)
    | some b =>
      refine congrArg some (hleaf.injective ?_)
      rw [← hleaf.plain a, ← hleaf.plain b]
      exact h

theorem canonicalItems_eq_map (items : List Json) : canonicalItems items = items.map canonical := by
  induction items with
  | nil => rfl
  | cons v items ih =>
    unfold canonicalItems
    rw [ih, List.map_cons]

/-- Lists of one canonical form agree item by item. -/
theorem Alike.of_arr {as bs : Option (List Json)} (h : Alike (orNull arr as) (orNull arr bs)) :
    as.map (List.map canonical) = bs.map (List.map canonical) := by
  have hplain : ∀ x : Option (List Json),
      (orNull arr x).plain = orNull arr (x.map (List.map canonical)) := by
    intro x
    cases x with
    | none => rfl
    | some items =>
      show arr (canonicalItems items) = arr (items.map canonical)
      rw [canonicalItems_eq_map]
  unfold Alike at h
  rw [hplain, hplain] at h
  generalize as.map (List.map canonical) = x at h
  generalize bs.map (List.map canonical) = y at h
  cases x with
  | none => cases y with
    | none => rfl
    | some b => cases h
  | some a => cases y with
    | none => cases h
    | some b =>
      cases h
      rfl

/-! ## Fields -/

/-- One field of two records of one canonical form. -/
theorem Alike.read {α : Type} {toJson : α → Json} (hleaf : Leaf toJson) {v w : Json} {key : String}
    {x y : Option α} (h : Alike v w) (hv : Record v) (hw : Record w)
    (hx : v.get key = orNull toJson x) (hy : w.get key = orNull toJson y) : x = y := by
  have hkey := h.get hv hw key
  rw [hx, hy] at hkey
  exact hkey.of_leaf hleaf

theorem field_lookup {α : Type} (key : String) (toJson : α → Json) (value : Option α) (k : String) :
    (field key toJson value).lookup k = if k = key then value.map toJson else none := by
  unfold field
  cases value with
  | none =>
    show none = if k = key then none else none
    rw [ite_self]
  | some a =>
    show List.lookup k [(key, toJson a)] = _
    by_cases hk : k = key
    · rw [hk, if_pos rfl, List.lookup_cons_self]
      rfl
    · rw [List.lookup_cons, beq_false_of_ne hk, if_neg hk]
      rfl

theorem getD_map {α : Type} (toJson : α → Json) (value : Option α) :
    (value.map toJson).getD null = orNull toJson value := by
  cases value <;> rfl

theorem orNull_some {α : Type} (toJson : α → Json) (a : α) : orNull toJson (some a) = toJson a :=
  rfl

theorem orNull_none {α : Type} (toJson : α → Json) : orNull toJson none = null := rfl

theorem orNull_map {α β : Type} (toJson : β → Json) (f : α → β) (value : Option α) :
    orNull toJson (value.map f) = orNull (fun a => toJson (f a)) value := by
  cases value <;> rfl

theorem orNull_orNull {α : Type} (toJson : α → Json) (value : Option (Option α)) :
    orNull (orNull toJson) value = orNull toJson value.join := by
  cases value <;> rfl

/-- The keys of these fields are among those, in their order. -/
def Keyed (fields : List (String × Json)) (keys : List String) : Prop :=
  (fields.map Prod.fst).Sublist keys

theorem Keyed.field {α : Type} (key : String) (toJson : α → Json) (value : Option α) :
    Keyed (field key toJson value) [key] := by
  cases value with
  | none => exact List.nil_sublist _
  | some a => exact List.Sublist.refl _

theorem Keyed.append {fields fields' : List (String × Json)} {keys keys' : List String}
    (h : Keyed fields keys) (h' : Keyed fields' keys') :
    Keyed (fields ++ fields') (keys ++ keys') := by
  unfold Keyed
  rw [List.map_append]
  exact List.Sublist.append h h'

theorem Keyed.of_eq {fields : List (String × Json)} {keys : List String}
    (h : fields.map Prod.fst = keys) : Keyed fields keys := h ▸ List.Sublist.refl _

theorem Keyed.record {fields : List (String × Json)} {keys : List String} (h : Keyed fields keys)
    (hkeys : keys.Nodup) : Record (obj fields) := .obj (hkeys.sublist h)

theorem Record.orNull {α : Type} {toJson : α → Json} (h : ∀ a, Record (toJson a))
    (value : Option α) : Record (Json.orNull toJson value) := by
  cases value with
  | none => exact .null
  | some a => exact h a

end Json

/-! ## Settled requests -/

open Json

def QuickAddCopy.none : QuickAddCopy := ⟨.none, .none, .none, .none⟩

def QuickAddCopy.settled (c : QuickAddCopy) : QuickAddCopy :=
  { c with note := some c.note.join, acquiredAt := some c.acquiredAt.join }

def QuickAddTranslation.settled (t : QuickAddTranslation) : QuickAddTranslation :=
  { t with year := some t.year.join, notes := some t.notes.join }

def QuickAddEditionDetails.settled (d : QuickAddEditionDetails) : QuickAddEditionDetails where
  textKind := d.textKind
  lang := some d.lang.join
  publisher := some d.publisher.join
  year := some d.year.join
  isbn13 := some d.isbn13.join
  pageCount := some d.pageCount.join
  coverUrl := some d.coverUrl.join
  format := some d.format.join

def QuickAddManualEdition.settled (e : QuickAddManualEdition) : QuickAddManualEdition where
  textKind := e.textKind
  lang := some e.lang.join
  publisher := some e.publisher.join
  year := some e.year.join
  isbn13 := some e.isbn13.join
  pageCount := some e.pageCount.join
  coverUrl := some e.coverUrl.join
  format := some e.format.join

def WorkAuthorInput.settled (a : WorkAuthorInput) : WorkAuthorInput :=
  { a with nameLatin := some a.nameLatin.join }

def NewWork.settled (w : NewWork) : NewWork where
  title := w.title
  firstPubYear := some w.firstPubYear.join
  description := some w.description.join
  origLang := some w.origLang.join
  authors := w.authors.map (List.map WorkAuthorInput.settled)

def QuickAddManualWork.settled : QuickAddManualWork → QuickAddManualWork
  | .existing workId => .existing workId
  | .new work => .new work.settled

def QuickAddManualTarget.settled (t : QuickAddManualTarget) : QuickAddManualTarget :=
  ⟨t.work.settled, t.edition.settled, t.translation.map QuickAddTranslation.settled⟩

/-! ### Reading the fields -/

theorem text_injective_condition : Function.Injective Condition.text := fun a b h => by
  cases a <;> cases b <;> first | rfl | exact absurd h (by decide)

theorem text_injective_visibility : Function.Injective Visibility.text := fun a b h => by
  cases a <;> cases b <;> first | rfl | exact absurd h (by decide)

theorem text_injective_textKind : Function.Injective EditionTextKind.text := fun a b h => by
  cases a <;> cases b <;> first | rfl | exact absurd h (by decide)

theorem text_injective_format : Function.Injective EditionFormat.text := fun a b h => by
  cases a <;> cases b <;> first | rfl | exact absurd h (by decide)

theorem text_injective_role : Function.Injective AuthorRole.text := fun a b h => by
  cases a <;> cases b <;> first | rfl | exact absurd h (by decide)

theorem text_injective_source : Function.Injective ExternalBookSource.text := fun a b h => by
  cases a <;> cases b <;> first | rfl | exact absurd h (by decide)

theorem text_injective_entryMethod : Function.Injective CopyEntryMethod.text := fun a b h => by
  cases a <;> cases b <;> first | rfl | exact absurd h (by decide)

theorem leaf_ofId : Leaf Json.ofId :=
  ⟨fun _ => rfl, fun _ => rfl, fun _ _ h => toString_injective (Json.str.inj h)⟩

theorem QuickAddCopy.record (c : QuickAddCopy) : Record c.toJson :=
  Keyed.record ((((Keyed.field _ _ _).append (.field _ _ _)).append (.field _ _ _)).append
    (.field _ _ _)) (by decide)

theorem QuickAddCopy.toJson_get (c : QuickAddCopy) :
    c.toJson.get "condition" = orNull (.str ·.text) c.condition ∧
    c.toJson.get "note" = orNull .str c.note.join ∧
    c.toJson.get "visibility" = orNull (.str ·.text) c.visibility ∧
    c.toJson.get "acquiredAt" = orNull .day c.acquiredAt.join := by
  simp [QuickAddCopy.toJson, Json.get, List.lookup_append, field_lookup, getD_map, orNull_orNull]

theorem QuickAddCopy.settled_eq {c d : QuickAddCopy} (h : Alike c.toJson d.toJson) :
    c.settled = d.settled := by
  obtain ⟨hcondition, hnote, hvisibility, hacquired⟩ := c.toJson_get
  obtain ⟨hcondition', hnote', hvisibility', hacquired'⟩ := d.toJson_get
  unfold QuickAddCopy.settled
  rw [h.read (leaf_text text_injective_condition) c.record d.record hcondition hcondition',
    h.read leaf_str c.record d.record hnote hnote',
    h.read (leaf_text text_injective_visibility) c.record d.record hvisibility hvisibility',
    h.read leaf_day c.record d.record hacquired hacquired']

theorem QuickAddTranslation.record (t : QuickAddTranslation) : Record t.toJson :=
  have hrequired : Keyed [("translator", str t.translator), ("lang", str t.lang),
      ("sourceLang", str t.sourceLang)] ["translator", "lang", "sourceLang"] := .of_eq rfl
  Keyed.record ((((hrequired.append (.field _ _ _)).append (.field _ _ _)).append
    (.field _ _ _)).append (.field _ _ _)) (by decide)

theorem QuickAddTranslation.toJson_get (t : QuickAddTranslation) :
    t.toJson.get "translator" = orNull .str (some t.translator) ∧
    t.toJson.get "lang" = orNull .str (some t.lang) ∧
    t.toJson.get "sourceLang" = orNull .str (some t.sourceLang) ∧
    t.toJson.get "year" = orNull .num t.year.join ∧
    t.toJson.get "isAbridged" = orNull .bool t.isAbridged ∧
    t.toJson.get "hasNotes" = orNull .bool t.hasNotes ∧
    t.toJson.get "notes" = orNull .str t.notes.join := by
  simp [QuickAddTranslation.toJson, Json.get, List.lookup_append, List.lookup_cons, field_lookup,
    getD_map, orNull_orNull, orNull_some]

theorem QuickAddTranslation.settled_eq {t u : QuickAddTranslation} (h : Alike t.toJson u.toJson) :
    t.settled = u.settled := by
  obtain ⟨htranslator, hlang, hsource, hyear, habridged, hhas, hnotes⟩ := t.toJson_get
  obtain ⟨htranslator', hlang', hsource', hyear', habridged', hhas', hnotes'⟩ := u.toJson_get
  unfold QuickAddTranslation.settled
  rw [Option.some.inj (h.read leaf_str t.record u.record htranslator htranslator'),
    Option.some.inj (h.read leaf_str t.record u.record hlang hlang'),
    Option.some.inj (h.read leaf_str t.record u.record hsource hsource'),
    h.read leaf_num t.record u.record hyear hyear',
    h.read leaf_bool t.record u.record habridged habridged',
    h.read leaf_bool t.record u.record hhas hhas',
    h.read leaf_str t.record u.record hnotes hnotes']

theorem QuickAddEditionDetails.record (e : QuickAddEditionDetails) : Record e.toJson :=
  Keyed.record ((((((((Keyed.field _ _ _).append (.field _ _ _)).append (.field _ _ _)).append
    (.field _ _ _)).append (.field _ _ _)).append (.field _ _ _)).append (.field _ _ _)).append
    (.field _ _ _)) (by decide)

theorem QuickAddEditionDetails.toJson_get (e : QuickAddEditionDetails) :
    e.toJson.get "textKind" = orNull (.str ·.text) e.textKind ∧
    e.toJson.get "lang" = orNull .str e.lang.join ∧
    e.toJson.get "publisher" = orNull .str e.publisher.join ∧
    e.toJson.get "year" = orNull .num e.year.join ∧
    e.toJson.get "isbn13" = orNull .str e.isbn13.join ∧
    e.toJson.get "pageCount" = orNull .num e.pageCount.join ∧
    e.toJson.get "coverUrl" = orNull .str e.coverUrl.join ∧
    e.toJson.get "format" = orNull (.str ·.text) e.format.join := by
  simp [QuickAddEditionDetails.toJson, Json.get, List.lookup_append, field_lookup, getD_map,
    orNull_orNull]

theorem QuickAddEditionDetails.settled_eq {d e : QuickAddEditionDetails}
    (h : Alike d.toJson e.toJson) : d.settled = e.settled := by
  obtain ⟨hkind, hlang, hpublisher, hyear, hisbn, hpages, hcover, hformat⟩ := d.toJson_get
  obtain ⟨hkind', hlang', hpublisher', hyear', hisbn', hpages', hcover', hformat'⟩ := e.toJson_get
  unfold QuickAddEditionDetails.settled
  rw [h.read (leaf_text text_injective_textKind) d.record e.record hkind hkind',
    h.read leaf_str d.record e.record hlang hlang',
    h.read leaf_str d.record e.record hpublisher hpublisher',
    h.read leaf_num d.record e.record hyear hyear',
    h.read leaf_str d.record e.record hisbn hisbn',
    h.read leaf_num d.record e.record hpages hpages',
    h.read leaf_str d.record e.record hcover hcover',
    h.read (leaf_text text_injective_format) d.record e.record hformat hformat']

/-! ### Optional parts -/

/-- An absent part is like an empty one. -/
theorem Json.Alike.getD {α : Type} {toJson : α → Json} {x y : Option α}
    (h : Alike (orNull toJson x) (orNull toJson y)) {empty : α} (hempty : toJson empty = .obj []) :
    Alike (toJson (x.getD empty)) (toJson (y.getD empty)) := by
  have hplain : ∀ x : Option α, (orNull toJson x).plain = (toJson (x.getD empty)).plain := by
    intro x
    cases x with
    | none =>
      show Json.plain .null = (toJson empty).plain
      rw [hempty]
      simp [plain, canonical, canonicalFields, isAbsent]
    | some a => rfl
  unfold Alike at h ⊢
  rw [← hplain, ← hplain, h]

/-- A translation has fields that are always there. -/
theorem QuickAddTranslation.settled_map_eq {x y : Option QuickAddTranslation}
    (h : Alike (orNull QuickAddTranslation.toJson x) (orNull QuickAddTranslation.toJson y)) :
    x.map settled = y.map settled := by
  have hkey := h.get (.orNull record x) (.orNull record y) "translator"
  have hread : ∀ x : Option QuickAddTranslation,
      (orNull toJson x).get "translator" = orNull .str (x.map QuickAddTranslation.translator) := by
    intro x
    cases x with
    | none => rfl
    | some t => exact t.toJson_get.1
  rw [hread, hread] at hkey
  have hnames := hkey.of_leaf leaf_str
  cases x with
  | none => cases y with
    | none => rfl
    | some u => cases hnames
  | some t => cases y with
    | none => cases hnames
    | some u => exact congrArg some (settled_eq h)

/-! ### Works -/

theorem WorkAuthorInput.record (a : WorkAuthorInput) : Record a.toJson := by
  obtain ⟨source, nameLatin, role⟩ := a
  cases source with
  | authorId id =>
    have hrequired : Keyed [("authorId", Json.ofId id)] ["authorId"] := .of_eq rfl
    exact ((hrequired.append (.field _ _ _)).append (.field _ _ _)).record (by decide)
  | name name =>
    have hrequired : Keyed [("name", Json.str name)] ["name"] := .of_eq rfl
    exact ((hrequired.append (.field _ _ _)).append (.field _ _ _)).record (by decide)

/-- The author of a source, by identifier. -/
def WorkAuthorSource.id? : WorkAuthorSource → Option AuthorId
  | .authorId id => some id
  | .name _ => none

/-- The author of a source, by name. -/
def WorkAuthorSource.name? : WorkAuthorSource → Option String
  | .authorId _ => none
  | .name text => some text

theorem WorkAuthorInput.toJson_get (a : WorkAuthorInput) :
    a.toJson.get "authorId" = orNull Json.ofId a.source.id? ∧
    a.toJson.get "name" = orNull .str a.source.name? ∧
    a.toJson.get "nameLatin" = orNull .str a.nameLatin.join ∧
    a.toJson.get "role" = orNull (.str ·.text) a.role := by
  obtain ⟨source, nameLatin, role⟩ := a
  cases source <;>
    simp [WorkAuthorInput.toJson, Json.get, List.lookup_append, List.lookup_cons, field_lookup,
      getD_map, orNull_orNull, orNull_some, orNull_none, WorkAuthorSource.id?,
      WorkAuthorSource.name?]

theorem WorkAuthorInput.settled_eq {a b : WorkAuthorInput} (h : Alike a.toJson b.toJson) :
    a.settled = b.settled := by
  obtain ⟨hid, hname, hlatin, hrole⟩ := a.toJson_get
  obtain ⟨hid', hname', hlatin', hrole'⟩ := b.toJson_get
  have hids := h.read leaf_ofId a.record b.record hid hid'
  have hnames := h.read leaf_str a.record b.record hname hname'
  have hsource : a.source = b.source := by
    cases ha : a.source <;> cases hb : b.source <;> rw [ha, hb] at hids hnames
    · exact congrArg _ (Option.some.inj hids)
    · cases hids
    · cases hids
    · exact congrArg _ (Option.some.inj hnames)
  unfold WorkAuthorInput.settled
  rw [hsource, h.read leaf_str a.record b.record hlatin hlatin',
    h.read (leaf_text text_injective_role) a.record b.record hrole hrole']

/-- Lists that agree item by item. -/
theorem map_eq_map_of {α β γ : Type} {f : α → β} {g : α → γ}
    (hfg : ∀ a b, f a = f b → g a = g b) {as bs : List α} (h : as.map f = bs.map f) :
    as.map g = bs.map g := by
  induction as generalizing bs with
  | nil => rw [List.map_eq_nil_iff.mp h.symm]
  | cons a as ih =>
    obtain ⟨b, bs, rfl, hb, hbs⟩ := List.map_eq_cons_iff.mp h.symm
    rw [List.map_cons, List.map_cons, hfg a b hb.symm, ih hbs.symm]

theorem QuickAddManualWork.record (w : QuickAddManualWork) : Record w.toJson := by
  cases w with
  | existing workId =>
    have hrequired : Keyed [("workId", Json.ofId workId)] ["workId"] := .of_eq rfl
    exact hrequired.record (by decide)
  | new w =>
    have hrequired : Keyed [("title", str w.title)] ["title"] := .of_eq rfl
    exact ((((hrequired.append (.field _ _ _)).append (.field _ _ _)).append
      (.field _ _ _)).append (.field _ _ _)).record (by decide)

/-- The existing work. -/
def QuickAddManualWork.id? : QuickAddManualWork → Option WorkId
  | .existing workId => some workId
  | .new _ => none

theorem QuickAddManualWork.toJson_get_workId (w : QuickAddManualWork) :
    w.toJson.get "workId" = orNull Json.ofId w.id? := by
  cases w <;>
    simp [QuickAddManualWork.toJson, Json.get, List.lookup_append, List.lookup_cons, field_lookup,
      id?, orNull_some, orNull_none]

theorem NewWork.toJson_get (w : NewWork) :
    (QuickAddManualWork.new w).toJson.get "title" = orNull .str (some w.title) ∧
    (QuickAddManualWork.new w).toJson.get "firstPubYear" = orNull .num w.firstPubYear.join ∧
    (QuickAddManualWork.new w).toJson.get "description" = orNull .str w.description.join ∧
    (QuickAddManualWork.new w).toJson.get "origLang" = orNull .str w.origLang.join ∧
    (QuickAddManualWork.new w).toJson.get "authors" =
      orNull .arr (w.authors.map (List.map WorkAuthorInput.toJson)) := by
  simp [QuickAddManualWork.toJson, Json.get, List.lookup_append, List.lookup_cons, field_lookup,
    getD_map, orNull_orNull, orNull_some, orNull_map]

theorem settled_authors {as bs : Option (List WorkAuthorInput)}
    (h : (as.map (List.map WorkAuthorInput.toJson)).map (List.map canonical) =
      (bs.map (List.map WorkAuthorInput.toJson)).map (List.map canonical)) :
    as.map (List.map WorkAuthorInput.settled) = bs.map (List.map WorkAuthorInput.settled) := by
  cases as with
  | none => cases bs with
    | none => rfl
    | some bs => cases h
  | some as => cases bs with
    | none => cases h
    | some bs =>
      have hitems := Option.some.inj h
      rw [List.map_map, List.map_map] at hitems
      exact congrArg some (map_eq_map_of
        (fun a b hab => WorkAuthorInput.settled_eq (.of_canonical hab)) hitems)

theorem QuickAddManualWork.settled_eq {v w : QuickAddManualWork} (h : Alike v.toJson w.toJson) :
    v.settled = w.settled := by
  have hid := h.read leaf_ofId v.record w.record v.toJson_get_workId w.toJson_get_workId
  cases v with
  | existing workId => cases w with
    | existing workId' =>
      have hids : some workId = some workId' := hid
      exact congrArg QuickAddManualWork.existing (Option.some.inj hids)
    | new w => cases hid
  | new v => cases w with
    | existing workId' => cases hid
    | new w =>
      obtain ⟨htitle, hyear, hdescription, hlang, hauthors⟩ := v.toJson_get
      obtain ⟨htitle', hyear', hdescription', hlang', hauthors'⟩ := w.toJson_get
      have hv := (QuickAddManualWork.new v).record
      have hw := (QuickAddManualWork.new w).record
      have hlists := h.get hv hw "authors"
      rw [hauthors, hauthors'] at hlists
      show QuickAddManualWork.new v.settled = .new w.settled
      unfold NewWork.settled
      rw [Option.some.inj (h.read leaf_str hv hw htitle htitle'),
        h.read leaf_num hv hw hyear hyear', h.read leaf_str hv hw hdescription hdescription',
        h.read leaf_str hv hw hlang hlang', settled_authors hlists.of_arr]

theorem QuickAddManualEdition.settled_eq {e f : QuickAddManualEdition}
    (h : Alike e.details.toJson f.details.toJson) : e.settled = f.settled := by
  have hdetails := QuickAddEditionDetails.settled_eq h
  unfold QuickAddEditionDetails.settled at hdetails
  simp only [QuickAddManualEdition.details, QuickAddEditionDetails.mk.injEq,
    Option.some.injEq] at hdetails
  obtain ⟨hkind, hlang, hpublisher, hyear, hisbn, hpages, hcover, hformat⟩ := hdetails
  unfold QuickAddManualEdition.settled
  rw [hkind, hlang, hpublisher, hyear, hisbn, hpages, hcover, hformat]

/-! ### Targets -/

/-- Two targets that name one edition of a source and add the same to it, up to empty details. -/
structure QuickAddExternalEditionTarget.Like (t u : QuickAddExternalEditionTarget) : Prop where
  isbn13 : t.isbn13 = u.isbn13
  reference : t.reference = u.reference
  edition : (t.edition.getD .none).settled = (u.edition.getD .none).settled
  translation : t.translation.map QuickAddTranslation.settled =
    u.translation.map QuickAddTranslation.settled

/-- Two targets that name one work of a source and add the same to it, up to empty details. -/
structure QuickAddExternalWorkTarget.Like (t u : QuickAddExternalWorkTarget) : Prop where
  key : t.key = u.key
  edition : (t.edition.getD .none).settled = (u.edition.getD .none).settled
  translation : t.translation.map QuickAddTranslation.settled =
    u.translation.map QuickAddTranslation.settled

/-- What two targets with one canonical form have in common. -/
inductive QuickAddTarget.Like : QuickAddTarget → QuickAddTarget → Prop
  | existingEdition (editionId : EditionId) : Like (.existingEdition editionId)
      (.existingEdition editionId)
  | externalEdition {t u : QuickAddExternalEditionTarget} : t.Like u →
      Like (.externalEdition t) (.externalEdition u)
  | manual {t u : QuickAddManualTarget} : t.settled = u.settled → Like (.manual t) (.manual u)
  | externalWork {t u : QuickAddExternalWorkTarget} : t.Like u →
      Like (.externalWork t) (.externalWork u)

theorem ExternalReferenceKey.keyed (reference : Option ExternalReferenceKey) :
    Keyed ((reference.map ExternalReferenceKey.fields).getD []) ["source", "externalId"] := by
  cases reference with
  | none => exact List.nil_sublist _
  | some key => exact .of_eq rfl

theorem QuickAddExternalEditionTarget.record (t : QuickAddExternalEditionTarget) :
    Record (QuickAddTarget.externalEdition t).toJson :=
  have hkind : Keyed [("kind", str "EXTERNAL_EDITION")] ["kind"] := .of_eq rfl
  ((((hkind.append (.field _ _ _)).append (ExternalReferenceKey.keyed _)).append
    (.field _ _ _)).append (.field _ _ _)).record (by decide)

theorem QuickAddExternalEditionTarget.toJson_get (t : QuickAddExternalEditionTarget) :
    (QuickAddTarget.externalEdition t).toJson.get "isbn13" = orNull .str t.isbn13 ∧
    (QuickAddTarget.externalEdition t).toJson.get "source" =
      orNull (.str ·.text) (t.reference.map ExternalReferenceKey.source) ∧
    (QuickAddTarget.externalEdition t).toJson.get "externalId" =
      orNull .str (t.reference.map ExternalReferenceKey.externalId) ∧
    (QuickAddTarget.externalEdition t).toJson.get "edition" =
      orNull QuickAddEditionDetails.toJson t.edition ∧
    (QuickAddTarget.externalEdition t).toJson.get "translation" =
      orNull QuickAddTranslation.toJson t.translation := by
  obtain ⟨isbn13, reference, named, edition, translation⟩ := t
  cases reference <;>
    simp [QuickAddTarget.toJson, ExternalReferenceKey.fields, Json.get, List.lookup_append,
      List.lookup_cons, field_lookup, getD_map, orNull_some, orNull_none]

theorem ExternalReferenceKey.eq_of_maps {x y : Option ExternalReferenceKey}
    (hsource : x.map source = y.map source) (hid : x.map externalId = y.map externalId) :
    x = y := by
  cases x with
  | none => cases y with
    | none => rfl
    | some b => cases hsource
  | some a => cases y with
    | none => cases hsource
    | some b =>
      obtain ⟨source, externalId⟩ := a
      obtain ⟨source', externalId'⟩ := b
      cases hsource
      cases hid
      rfl

theorem QuickAddExternalEditionTarget.like_of_alike {t u : QuickAddExternalEditionTarget}
    (h : Alike (QuickAddTarget.externalEdition t).toJson
      (QuickAddTarget.externalEdition u).toJson) : t.Like u := by
  obtain ⟨hisbn, hsource, hid, hedition, htranslation⟩ := t.toJson_get
  obtain ⟨hisbn', hsource', hid', hedition', htranslation'⟩ := u.toJson_get
  have heditions := h.get t.record u.record "edition"
  rw [hedition, hedition'] at heditions
  have htranslations := h.get t.record u.record "translation"
  rw [htranslation, htranslation'] at htranslations
  exact
    { isbn13 := h.read leaf_str t.record u.record hisbn hisbn'
      reference := ExternalReferenceKey.eq_of_maps
        (h.read (leaf_text text_injective_source) t.record u.record hsource hsource')
        (h.read leaf_str t.record u.record hid hid')
      edition := QuickAddEditionDetails.settled_eq (heditions.getD rfl)
      translation := QuickAddTranslation.settled_map_eq htranslations }

theorem QuickAddExternalWorkTarget.record (t : QuickAddExternalWorkTarget) :
    Record (QuickAddTarget.externalWork t).toJson :=
  have hkind : Keyed [("kind", str "EXTERNAL_WORK")] ["kind"] := .of_eq rfl
  have hkey : Keyed t.key.fields ["source", "externalId"] := .of_eq rfl
  (((hkind.append hkey).append (.field _ _ _)).append (.field _ _ _)).record (by decide)

theorem QuickAddExternalWorkTarget.toJson_get (t : QuickAddExternalWorkTarget) :
    (QuickAddTarget.externalWork t).toJson.get "source" =
      orNull (.str ·.text) (some t.key.source) ∧
    (QuickAddTarget.externalWork t).toJson.get "externalId" =
      orNull .str (some t.key.externalId) ∧
    (QuickAddTarget.externalWork t).toJson.get "edition" =
      orNull QuickAddEditionDetails.toJson t.edition ∧
    (QuickAddTarget.externalWork t).toJson.get "translation" =
      orNull QuickAddTranslation.toJson t.translation := by
  simp [QuickAddTarget.toJson, ExternalReferenceKey.fields, Json.get, List.lookup_append,
    List.lookup_cons, field_lookup, getD_map, orNull_some]

theorem QuickAddExternalWorkTarget.like_of_alike {t u : QuickAddExternalWorkTarget}
    (h : Alike (QuickAddTarget.externalWork t).toJson (QuickAddTarget.externalWork u).toJson) :
    t.Like u := by
  obtain ⟨hsource, hid, hedition, htranslation⟩ := t.toJson_get
  obtain ⟨hsource', hid', hedition', htranslation'⟩ := u.toJson_get
  have heditions := h.get t.record u.record "edition"
  rw [hedition, hedition'] at heditions
  have htranslations := h.get t.record u.record "translation"
  rw [htranslation, htranslation'] at htranslations
  exact
    { key := Option.some.inj (@ExternalReferenceKey.eq_of_maps (some t.key) (some u.key)
        (h.read (leaf_text text_injective_source) t.record u.record hsource hsource')
        (h.read leaf_str t.record u.record hid hid'))
      edition := QuickAddEditionDetails.settled_eq (heditions.getD rfl)
      translation := QuickAddTranslation.settled_map_eq htranslations }

theorem QuickAddManualTarget.record (t : QuickAddManualTarget) :
    Record (QuickAddTarget.manual t).toJson :=
  have hrequired : Keyed [("kind", str "MANUAL"), ("work", t.work.toJson),
      ("edition", t.edition.details.toJson)] ["kind", "work", "edition"] := .of_eq rfl
  (hrequired.append (.field _ _ _)).record (by decide)

theorem QuickAddManualTarget.settled_eq {t u : QuickAddManualTarget}
    (h : Alike (QuickAddTarget.manual t).toJson (QuickAddTarget.manual u).toJson) :
    t.settled = u.settled := by
  have hget : ∀ t : QuickAddManualTarget,
      (QuickAddTarget.manual t).toJson.get "work" = t.work.toJson ∧
      (QuickAddTarget.manual t).toJson.get "edition" = t.edition.details.toJson ∧
      (QuickAddTarget.manual t).toJson.get "translation" =
        orNull QuickAddTranslation.toJson t.translation := by
    intro t
    simp [QuickAddTarget.toJson, Json.get, List.lookup_cons, field_lookup, getD_map]
  obtain ⟨hwork, hedition, htranslation⟩ := hget t
  obtain ⟨hwork', hedition', htranslation'⟩ := hget u
  have hworks := h.get t.record u.record "work"
  rw [hwork, hwork'] at hworks
  have heditions := h.get t.record u.record "edition"
  rw [hedition, hedition'] at heditions
  have htranslations := h.get t.record u.record "translation"
  rw [htranslation, htranslation'] at htranslations
  unfold QuickAddManualTarget.settled
  rw [QuickAddManualWork.settled_eq hworks, QuickAddManualEdition.settled_eq heditions,
    QuickAddTranslation.settled_map_eq htranslations]

/-- `kind` -/
def QuickAddTargetKind.text : QuickAddTargetKind → String
  | .existingEdition => "EXISTING_EDITION"
  | .externalEdition => "EXTERNAL_EDITION"
  | .manual => "MANUAL"
  | .externalWork => "EXTERNAL_WORK"

theorem text_injective_kind : Function.Injective QuickAddTargetKind.text := fun a b h => by
  cases a <;> cases b <;> first | rfl | exact absurd h (by decide)

theorem QuickAddTarget.record (t : QuickAddTarget) : Record t.toJson := by
  cases t with
  | existingEdition editionId =>
    have hkeyed : Keyed [("kind", str "EXISTING_EDITION"), ("editionId", .ofId editionId)]
        ["kind", "editionId"] := .of_eq rfl
    exact hkeyed.record (by decide)
  | externalEdition t => exact t.record
  | manual t => exact t.record
  | externalWork t => exact t.record

theorem QuickAddTarget.toJson_get_kind (t : QuickAddTarget) :
    t.toJson.get "kind" = orNull (.str ·.text) (some t.kind) := by
  cases t <;> rfl

/-- **Two targets with one canonical form** do one thing, up to empty details. -/
theorem QuickAddTarget.like_of_alike {t u : QuickAddTarget} (h : Alike t.toJson u.toJson) :
    t.Like u := by
  have hkind := Option.some.inj (h.read (leaf_text text_injective_kind) t.record u.record
    t.toJson_get_kind u.toJson_get_kind)
  cases t <;> cases u <;> cases hkind
  case existingEdition editionId editionId' =>
    have hids : Alike (orNull Json.ofId (some editionId)) (orNull Json.ofId (some editionId')) :=
      h.get (QuickAddTarget.record _) (QuickAddTarget.record _) "editionId"
    cases hids.of_leaf leaf_ofId
    exact .existingEdition editionId
  case externalEdition t u => exact .externalEdition (QuickAddExternalEditionTarget.like_of_alike h)
  case manual t u => exact .manual (QuickAddManualTarget.settled_eq h)
  case externalWork t u => exact .externalWork (QuickAddExternalWorkTarget.like_of_alike h)

/-! ### The content -/

/-- What two requests with one canonical content have in common. -/
structure QuickAddRequest.Like (r s : QuickAddRequest) : Prop where
  copy : (r.copy.getD .none).settled = (s.copy.getD .none).settled
  target : r.target.Like s.target

theorem QuickAddRequest.like_of_canonical {r s : QuickAddRequest}
    (h : r.content.canonical = s.content.canonical) : r.Like s := by
  have hrecord : ∀ r : QuickAddRequest, Record r.content := by
    intro r
    have hmethod : Keyed [("entryMethod", str (r.entryMethod.getD .manual).text)] ["entryMethod"] :=
      .of_eq rfl
    have htarget : Keyed [("target", r.target.toJson)] ["target"] := .of_eq rfl
    exact ((hmethod.append (.field _ _ _)).append htarget).record (by decide)
  have hget : ∀ r : QuickAddRequest, r.content.get "copy" = orNull QuickAddCopy.toJson r.copy ∧
      r.content.get "target" = r.target.toJson := by
    intro r
    simp [QuickAddRequest.content, Json.get, List.lookup_append, List.lookup_cons, field_lookup,
      getD_map]
  have halike := Alike.of_canonical h
  have hcopy := halike.get (hrecord r) (hrecord s) "copy"
  rw [(hget r).1, (hget s).1] at hcopy
  have htarget := halike.get (hrecord r) (hrecord s) "target"
  rw [(hget r).2, (hget s).2] at htarget
  exact ⟨QuickAddCopy.settled_eq (hcopy.getD rfl), QuickAddTarget.like_of_alike htarget⟩

end Bookswap
