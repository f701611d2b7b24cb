import Bookswap.Import.XlsxContainer
import Mathlib.Algebra.Order.BigOperators.Group.List
import Mathlib.Algebra.Order.Group.Nat

/-!
# The gate of an uploaded archive

What the archive says of itself is checked before anything is decompressed; what is decompressed is
counted as it arrives. The bounds on the parts come from the count alone, so they hold whatever the
headers declare.

- `readEntry_ok`: what one read delivers and what it spends.
- `Extracted`: the invariant of the loop over the entries; `Extracted.next` is its step.
- `zip_gate`: what is known of an archive that is let through.
-/

namespace Bookswap

open Store LIBRARY_IMPORT_XLSX_LIMITS

/-- The stream of the entry ends without an error, after these bytes. -/
def ZipFile.Delivers (zipfile : ZipFile) (entry : ZipEntry) (bytes : Bytes) : Prop :=
  ∃ stream, zipfile.openReadStream entry = .ok stream ∧ stream.error = none ∧
    stream.chunks.flatten = bytes

/-- Nothing in the path of the entry is against it: it is a directory, or a part that is kept or
left out, but neither a macro nor an external link. -/
def Harmless (name : String) : Prop :=
  isDirectory name = true ∨ MACRO_PART name = false ∧ EXTERNAL_LINK_PART name = false ∧
    (isKeptPart name = true ∨ isDroppedPart name = true)

/-- What is known of an archive whose content is handed on. -/
structure ZipGate (zipfile : ZipFile) (entries : List ZipEntry) (content : ZipContent) : Prop where
  kept : ∀ name bytes, content.parts.get name = some bytes → isKeptPart name = true ∧
    ∃ entry ∈ entries, entry.fileName = name ∧ zipfile.Delivers entry bytes
  whole : ∀ entry ∈ entries, isKeptPart entry.fileName = true →
    ∃ bytes, content.parts.get entry.fileName = some bytes ∧ zipfile.Delivers entry bytes
  distinct : (content.parts.rows.map Prod.fst).Nodup
  paths : (entries.map ZipEntry.fileName).Nodup
  part_size : ∀ name bytes, content.parts.get name = some bytes →
    bytes.length ≤ maxEntryUncompressedBytes
  total : (content.parts.rows.map fun part => part.2.length).sum ≤ maxUncompressedBytes
  clear : ∀ entry ∈ entries, entry.encrypted = false
  harmless : ∀ entry ∈ entries, Harmless entry.fileName

/-! ## What is checked of an entry -/

theorem checkEntrySize_eq_none {entry : ZipEntry} (h : checkEntrySize entry = none) :
    entry.encrypted = false := by
  unfold checkEntrySize at h
  split at h
  next => cases h
  next hclear => exact Bool.eq_false_iff.mpr hclear

/-- An archive that passes the loop repeats no path and has no encrypted entry. -/
theorem checkEntries_eq_none {entries : List ZipEntry} {seen : List String} {declared : Nat}
    (h : checkEntries entries seen declared = none) :
    (entries.map ZipEntry.fileName).Nodup ∧
      (∀ entry ∈ entries, entry.fileName ∉ seen ∧ entry.encrypted = false) := by
  induction entries generalizing seen declared with
  | nil => exact ⟨List.nodup_nil, fun _ h => (nomatch h)⟩
  | cons entry entries ih =>
    rw [checkEntries] at h
    split at h
    next => cases h
    next hfresh =>
      split at h
      next => cases h
      next hsize =>
        obtain ⟨hnodup, hrest⟩ := ih h
        constructor
        · rw [List.map_cons, List.nodup_cons]
          refine ⟨fun hmem => ?_, hnodup⟩
          obtain ⟨other, hother, hname⟩ := List.mem_map.mp hmem
          exact (hrest other hother).1 (hname ▸ List.mem_cons_self)
        · intro other hother
          rcases List.mem_cons.mp hother with rfl | hother
          · exact ⟨hfresh, checkEntrySize_eq_none hsize⟩
          · obtain ⟨hnot, hclear⟩ := hrest other hother
            exact ⟨fun hmem => hnot (List.mem_cons_of_mem _ hmem), hclear⟩

theorem checkMetadata_eq_none {entries : List ZipEntry} (h : checkMetadata entries = none) :
    (entries.map ZipEntry.fileName).Nodup ∧ ∀ entry ∈ entries, entry.encrypted = false := by
  unfold checkMetadata at h
  split at h
  next => cases h
  next =>
    obtain ⟨hnodup, hentries⟩ := checkEntries_eq_none h
    exact ⟨hnodup, fun entry hentry => (hentries entry hentry).2⟩

/-- The verdict on a path that is not refused. -/
theorem classify_cases {name : String} (h : (classifyName name).error = none) :
    Harmless name ∧ ((classifyName name).keep = true ↔ isDirectory name = false ∧
      isKeptPart name = true) := by
  unfold classifyName at h ⊢
  unfold Harmless
  split at h
  next hdir => simp [hdir]
  next hdir =>
    split at h
    next => cases h
    next hmacro =>
      split at h
      next => cases h
      next hlink =>
        split at h
        next hkept => simp [hdir, hmacro, hlink, hkept]
        next hkept =>
          split at h
          next hdropped => simp [hdir, hmacro, hlink, hkept, hdropped]
          next => cases h

/-- A path with another last character is not that of a directory. -/
theorem not_isDirectory_of_back {back name : String} (h : hasBack back name = true)
    (hlast : back.toList.getLast? ≠ none ∧ back.toList.getLast? ≠ some '/') :
    isDirectory name = false := by
  rw [isDirectory, hasBack, Bool.eq_false_iff, ne_eq, List.isSuffixOf_iff_suffix]
  rintro ⟨front, hslash⟩
  obtain ⟨front', hback⟩ := List.isSuffixOf_iff_suffix.mp h
  have hends := congrArg List.getLast? (hslash.trans hback.symm)
  rw [List.getLast?_append, List.getLast?_append] at hends
  cases hb : back.toList.getLast? with
  | none => exact hlast.1 hb
  | some c =>
    rw [hb] at hends
    exact hlast.2 (hb.trans hends.symm)

/-- No kept part is a directory. -/
theorem not_isDirectory_of_kept {name : String} (h : isKeptPart name = true) :
    isDirectory name = false := by
  have hnumbered : ∀ front back, isNumbered front back name = true → hasBack back name = true := by
    intro front back h
    simp only [isNumbered, Bool.and_eq_true] at h
    exact h.1.1.2
  simp only [isKeptPart, KEPT_PARTS, List.any_cons, List.any_nil, Bool.or_false, Bool.or_eq_true,
    decide_eq_true_eq] at h
  rcases h with rfl | rfl | rfl | rfl | rfl | rfl | h | h | h
  · decide
  · decide
  · decide
  · decide
  · decide
  · decide
  · exact not_isDirectory_of_back (hnumbered _ _ h) (by decide)
  · exact not_isDirectory_of_back (hnumbered _ _ h) (by decide)
  · exact not_isDirectory_of_back (hnumbered _ _ h) (by decide)

/-! ## The count -/

theorem readChunks_ok {chunks : List Bytes} {read bytes : Bytes} {budget budget' : ByteBudget}
    (h : readChunks chunks read budget = .ok (bytes, budget')) (hspent : budget.spent ≤ budget.limit) :
    bytes = read ++ chunks.flatten ∧ budget'.limit = budget.limit ∧
      budget'.spent = budget.spent + chunks.flatten.length ∧ budget'.spent ≤ budget'.limit := by
  induction chunks generalizing read budget with
  | nil =>
    cases h
    exact ⟨(List.append_nil _).symm, rfl, rfl, hspent⟩
  | cons chunk chunks ih =>
    rw [readChunks] at h
    split at h
    next => cases h
    next taken htake =>
      simp only [ByteBudget.take, Prod.mk.injEq, decide_eq_true_eq] at htake
      obtain ⟨hle, rfl⟩ := htake
      obtain ⟨hbytes, hlimit, hcount, hbound⟩ := ih h hle
      rw [List.flatten_cons, List.length_append, hbytes, List.append_assoc]
      refine ⟨rfl, hlimit, ?_, hbound⟩
      rw [hcount, Nat.add_assoc]

/-- **One read**: the bytes that the stream delivers, and their number spent. -/
theorem readEntry_ok {zipfile : ZipFile} {entry : ZipEntry} {bytes : Bytes}
    {budget budget' : ByteBudget} (h : readEntry zipfile entry budget = .ok (bytes, budget'))
    (hspent : budget.spent ≤ budget.limit) :
    zipfile.Delivers entry bytes ∧ budget'.limit = budget.limit ∧
      budget'.spent = budget.spent + bytes.length ∧ budget'.spent ≤ budget'.limit := by
  unfold readEntry at h
  split at h
  next => cases h
  next stream hstream =>
    split at h
    next => cases h
    next result hchunks =>
      split at h
      next => cases h
      next herror =>
        cases h
        obtain ⟨hbytes, hlimit, hcount, hbound⟩ := readChunks_ok hchunks hspent
        rw [List.nil_append] at hbytes
        subst hbytes
        exact ⟨⟨stream, hstream, herror, rfl⟩, hlimit, hcount, hbound⟩

/-! ## The loop over the entries -/

/-- What is known once the entries `done` are behind. -/
structure Extracted (zipfile : ZipFile) (done : List ZipEntry) (budget : ByteBudget)
    (parts : OrderedMap String Bytes) : Prop where
  limit : budget.limit = maxUncompressedBytes
  spent : budget.spent ≤ budget.limit
  total : (parts.rows.map fun part => part.2.length).sum = budget.spent
  harmless : ∀ entry ∈ done, Harmless entry.fileName
  kept : ∀ name bytes, parts.get name = some bytes → isKeptPart name = true ∧
    ∃ entry ∈ done, entry.fileName = name ∧ zipfile.Delivers entry bytes
  whole : ∀ entry ∈ done, isKeptPart entry.fileName = true →
    ∃ bytes, parts.get entry.fileName = some bytes ∧ zipfile.Delivers entry bytes

theorem extracted_nil (zipfile : ZipFile) :
    Extracted zipfile [] ⟨maxUncompressedBytes, 0⟩ Table.empty :=
  { limit := rfl
    spent := Nat.zero_le _
    total := rfl
    harmless := fun _ h => (nomatch h)
    kept := fun _ _ h => (nomatch h)
    whole := fun _ h => (nomatch h) }

section Step

variable {zipfile : ZipFile} {done entries : List ZipEntry} {entry : ZipEntry}
  {budget budget' : ByteBudget} {parts parts' : OrderedMap String Bytes}

/-- **The step**: an entry that is left out. -/
theorem Extracted.skip (h : Extracted zipfile done budget parts)
    (hverdict : (classifyName entry.fileName).error = none)
    (hskip : ¬ (classifyName entry.fileName).keep = true) :
    Extracted zipfile (done ++ [entry]) budget parts := by
  obtain ⟨hharmless, hkeep⟩ := classify_cases hverdict
  exact
    { limit := h.limit
      spent := h.spent
      total := h.total
      harmless := by
        intro other hother
        rcases List.mem_append.mp hother with hother | hother
        · exact h.harmless other hother
        · cases List.mem_singleton.mp hother
          exact hharmless
      kept := by
        intro name bytes hpart
        obtain ⟨hname, other, hother, hrest⟩ := h.kept name bytes hpart
        exact ⟨hname, other, List.mem_append_left _ hother, hrest⟩
      whole := by
        intro other hother hname
        rcases List.mem_append.mp hother with hother | hother
        · exact h.whole other hother hname
        · cases List.mem_singleton.mp hother
          exact absurd (hkeep.mpr ⟨not_isDirectory_of_kept hname, hname⟩) hskip }

/-- **The step**: an entry that is read. -/
theorem Extracted.read (h : Extracted zipfile done budget parts)
    (hverdict : (classifyName entry.fileName).error = none)
    (hkeep : (classifyName entry.fileName).keep = true)
    (hfresh : entry.fileName ∉ done.map ZipEntry.fileName) {bytes : Bytes}
    (hread : readEntry zipfile entry budget = .ok (bytes, budget')) :
    Extracted zipfile (done ++ [entry]) budget' (parts.set entry.fileName bytes) := by
  obtain ⟨hharmless, hiff⟩ := classify_cases hverdict
  obtain ⟨hdelivers, hlimit, hcount, hbound⟩ := readEntry_ok hread h.spent
  have hnone : parts.get entry.fileName = none := by
    cases hpart : parts.get entry.fileName with
    | none => rfl
    | some other =>
      obtain ⟨-, e, he, hname, -⟩ := h.kept _ _ hpart
      exact absurd (hname ▸ List.mem_map_of_mem he) hfresh
  exact
    { limit := hlimit.trans h.limit
      spent := hbound
      total := by
        rw [OrderedMap.rows_set_of_none bytes hnone, List.map_append, List.sum_append, h.total,
          hcount]
        rfl
      harmless := by
        intro other hother
        rcases List.mem_append.mp hother with hother | hother
        · exact h.harmless other hother
        · cases List.mem_singleton.mp hother
          exact hharmless
      kept := by
        intro name content hpart
        rw [OrderedMap.get_set] at hpart
        split at hpart
        next hname =>
          cases hpart
          exact ⟨hname ▸ (hiff.mp hkeep).2, entry, by simp, hname.symm, hdelivers⟩
        next =>
          obtain ⟨hname, other, hother, hrest⟩ := h.kept name content hpart
          exact ⟨hname, other, List.mem_append_left _ hother, hrest⟩
      whole := by
        intro other hother hname
        rw [OrderedMap.get_set]
        rcases List.mem_append.mp hother with hother | hother
        · rw [if_neg fun heq : other.fileName = entry.fileName =>
            hfresh (heq ▸ List.mem_map_of_mem hother)]
          exact h.whole other hother hname
        · cases List.mem_singleton.mp hother
          exact ⟨bytes, if_pos rfl, hdelivers⟩ }

/-- **The whole loop**, when it comes to its end. -/
theorem extractParts_ok (h : Extracted zipfile done budget parts)
    (hnodup : ((done ++ entries).map ZipEntry.fileName).Nodup)
    (hrun : extractParts zipfile entries budget parts = .ok (.ok parts')) :
    ∃ budget', Extracted zipfile (done ++ entries) budget' parts' := by
  induction entries generalizing done budget parts with
  | nil =>
    cases hrun
    rw [List.append_nil]
    exact ⟨budget, h⟩
  | cons entry entries ih =>
    rw [List.append_cons] at hnodup ⊢
    have hfresh : entry.fileName ∉ done.map ZipEntry.fileName := by
      rw [List.append_assoc, List.map_append, List.nodup_append] at hnodup
      exact fun hmem => hnodup.2.2 _ hmem _ (by simp) rfl
    rw [extractParts] at hrun
    split at hrun
    next => cases hrun
    next hverdict =>
      split at hrun
      next hkeep =>
        split at hrun
        next => cases hrun
        next bytes budget₁ hread =>
          exact ih (h.read hverdict hkeep hfresh hread) hnodup hrun
      next hskip => exact ih (h.skip hverdict hskip) hnodup hrun

end Step

theorem OrderedMap.length_le_total {parts : OrderedMap String Bytes} {name : String}
    {bytes : Bytes} (h : parts.get name = some bytes) :
    bytes.length ≤ (parts.rows.map fun part => part.2.length).sum :=
  List.le_sum_of_mem
    (List.mem_map.mpr ⟨(name, bytes), OrderedMap.get_eq_some_iff.mp h, rfl⟩)

/-- What `extract` hands on has passed the gate. -/
theorem zipGate_of_extract {tools : XlsxTools} {zipfile : ZipFile} {entries : List ZipEntry}
    {content : ZipContent} (hmetadata : checkMetadata entries = none)
    (h : extract tools zipfile entries = .ok (.ok content)) : ZipGate zipfile entries content := by
  obtain ⟨hnodup, hclear⟩ := checkMetadata_eq_none hmetadata
  unfold extract at h
  split at h
  next => cases h
  next => cases h
  next parts hparts =>
    obtain ⟨budget, hextracted⟩ := extractParts_ok (extracted_nil zipfile) hnodup hparts
    rw [List.nil_append] at hextracted
    have htotal : (parts.rows.map fun part => part.2.length).sum ≤ maxUncompressedBytes := by
      rw [hextracted.total, ← hextracted.limit]
      exact hextracted.spent
    split at h
    next => cases h
    next =>
      split at h
      next => cases h
      next =>
        split at h
        next => cases h
        next canonical hzip =>
          cases h
          exact
            { kept := hextracted.kept
              whole := hextracted.whole
              distinct := parts.nodup
              paths := hnodup
              part_size := fun _ _ hpart => (OrderedMap.length_le_total hpart).trans htotal
              total := htotal
              clear := hclear
              harmless := hextracted.harmless }

/-- **The gate**: what is handed on was read from entries of the archive, within the budget, and no
entry of the archive speaks against it; everything else is refused. -/
theorem zip_gate (tools : XlsxTools) (input : Bytes) :
    (∃ error, readXlsxContainer tools input = .error error) ∨
    ∃ zipfile entries content, readXlsxContainer tools input = .ok content ∧
      tools.fromBuffer input = .ok zipfile ∧ zipfile.entries = .ok entries ∧
      ZipGate zipfile entries content := by
  generalize hresult : readXlsxContainer tools input = result
  cases result with
  | error error => exact .inl ⟨error, rfl⟩
  | ok content =>
    refine .inr ?_
    unfold readXlsxContainer at hresult
    split at hresult
    next => cases hresult
    next =>
      split at hresult
      next => cases hresult
      next =>
        split at hresult
        next => cases hresult
        next hopen =>
          subst hresult
          unfold openContainer at hopen
          split at hopen
          next => cases hopen
          next zipfile hzip =>
            split at hopen
            next => cases hopen
            next entries hentries =>
              split at hopen
              next => cases hopen
              next hmetadata =>
                refine ⟨zipfile, entries, content, rfl, hzip, hentries, ?_⟩
                exact zipGate_of_extract hmetadata hopen

end Bookswap
