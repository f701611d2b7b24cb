import Bookswap.Import.LibraryImportFile
import Bookswap.Lib.Checked
import Mathlib.Algebra.Order.BigOperators.Group.List
import Mathlib.Algebra.Order.Group.Nat
import Mathlib.Data.List.Dedup

/-!
# What reading a file can throw

The CSV reader never throws: a field is made of the characters of the file, and the file
is not longer than a cell may be. The XLSX reader has no bound on the text of a cell
before the schema of the row, and reads the text of a merged cell without asking whether
its date is valid, so both can be thrown out of it. `Workbook.Readable` says when they are
not.

- `parseLibraryImportCsv_ok`, `readWorkbook_ok_iff`.
- `readColumns_cases`, `readRow_ok_iff`: the loop over the columns of a row.
-/

namespace Bookswap

/-! ## Cells -/

namespace XlsxCell

/-- A formula, or an error value. -/
def refusesFile (cell : XlsxCell) : Bool :=
  cell.type = .formula ∨ cell.type = .error

/-- The cell is read as text whatever its value is. -/
def isPlain (cell : XlsxCell) : Bool :=
  match cell.type with
  | .formula | .error | .number | .date => false
  | _ => true

/-- A cell read as text whose value is an invalid date: a merged one. -/
def isUndatable (cell : XlsxCell) : Bool :=
  cell.isPlain && match cell.value with
    | .date none => true
    | _ => false

/-- A cell with a text that is too long for a row. -/
def isOverlong (cell : XlsxCell) : Bool :=
  cell.isPlain && match cell.value with
    | .string text => maxBytes < utf16Length text
    | .richText runs => maxBytes < utf16Length (String.join runs)
    | .text text => maxBytes < utf16Length text
    | _ => false

/-- The name that the header row has in the cell. -/
def headerText (cell : XlsxCell) : String :=
  match readXlsxCell cell none with
  | .ok (.text text) => text
  | _ => ""

end XlsxCell

theorem utf16Length_ofList_le {cs : List Char} : utf16Length (String.ofList cs) ≤ 2 * cs.length := by
  unfold utf16Length
  rw [String.toList_ofList]
  induction cs with
  | nil => simp
  | cons c cs ih =>
    rw [List.map_cons, List.sum_cons, List.length_cons]
    split <;> omega

theorem short_dateText (time : Int) : utf16Length (dateText time) ≤ maxBytes := by
  have hlen := @utf16Length_ofList_le (((IsoDate.toISOString time).take 10).map Char.ofNat)
  have htake : (((IsoDate.toISOString time).take 10).map Char.ofNat).length ≤ 10 := by
    rw [List.length_map, List.length_take]
    omega
  unfold dateText maxBytes
  omega

theorem short_number (n : CellNumber) : utf16Length n.text ≤ maxBytes := by
  have := n.short
  unfold maxBytes
  omega

theorem readXlsxCell_plain {cell : XlsxCell} (h : cell.isPlain = true) (column : XlsxCellColumn) :
    readXlsxCell cell column = (readText cell.value).map .text := by
  obtain ⟨type, value⟩ := cell
  cases type
  case formula | error | number | date => cases h
  all_goals rfl

/-- What a number or a date leaves in the row is short. -/
theorem short_typed {cell : XlsxCell} {column : XlsxCellColumn}
    (h : cell.type = .number ∨ cell.type = .date) :
    ∃ text, (readXlsxCell cell column = .ok (.text text) ∨
        ∃ reason, readXlsxCell cell column = .ok (.rejected reason) ∧ text = "") ∧
      utf16Length text ≤ maxBytes := by
  obtain ⟨type, value⟩ := cell
  have hempty : utf16Length "" ≤ maxBytes := by decide
  rcases h with rfl | rfl
  · show ∃ text, (Except.ok (readNumber value column) = _ ∨ ∃ reason, Except.ok _ = _ ∧ _) ∧ _
    unfold readNumber
    split
    · rename_i n
      split
      · exact ⟨"", .inr ⟨_, rfl, rfl⟩, hempty⟩
      · split
        · split
          · exact ⟨n.text, .inl rfl, short_number n⟩
          · exact ⟨"", .inr ⟨_, rfl, rfl⟩, hempty⟩
        · exact ⟨n.text, .inl rfl, short_number n⟩
    · exact ⟨"", .inr ⟨_, rfl, rfl⟩, hempty⟩
  · show ∃ text, (Except.ok (readDate value column) = _ ∨ ∃ reason, Except.ok _ = _ ∧ _) ∧ _
    unfold readDate
    split
    · split
      · exact ⟨"", .inr ⟨_, rfl, rfl⟩, hempty⟩
      · split
        · exact ⟨"", .inr ⟨_, rfl, rfl⟩, hempty⟩
        · rename_i time
          split
          · exact ⟨"", .inr ⟨_, rfl, rfl⟩, hempty⟩
          · exact ⟨dateText time, .inl rfl, short_dateText time⟩
    · exact ⟨"", .inr ⟨_, rfl, rfl⟩, hempty⟩

/-- The text of a plain cell, if its date is valid. -/
theorem readText_cases {cell : XlsxCell} (h : cell.isPlain = true) :
    (readText cell.value = .error .range ∧ cell.isUndatable = true) ∨
      ∃ text, readText cell.value = .ok text ∧ cell.isUndatable = false ∧
        (maxBytes < utf16Length text ↔ cell.isOverlong = true) := by
  have hfixed : ∀ text : String, utf16Length text ≤ maxBytes →
      (maxBytes < utf16Length text ↔ false = true) :=
    fun text hle => iff_of_false (Nat.not_lt.mpr hle) Bool.false_ne_true
  unfold XlsxCell.isUndatable XlsxCell.isOverlong
  rw [h, Bool.true_and, Bool.true_and]
  cases cell.value with
  | none => exact .inr ⟨"", rfl, rfl, hfixed _ (by decide)⟩
  | string text => exact .inr ⟨text, rfl, rfl, decide_eq_true_iff.symm⟩
  | boolean value =>
    refine .inr ⟨_, rfl, rfl, hfixed _ ?_⟩
    cases value <;> decide
  | number value => exact .inr ⟨_, rfl, rfl, hfixed _ (short_number value)⟩
  | date time =>
    cases time with
    | none => exact .inl ⟨rfl, rfl⟩
    | some time => exact .inr ⟨_, rfl, rfl, hfixed _ (short_dateText time)⟩
  | richText runs => exact .inr ⟨_, rfl, rfl, decide_eq_true_iff.symm⟩
  | text text => exact .inr ⟨text, rfl, rfl, decide_eq_true_iff.symm⟩
  | other => exact .inr ⟨"", rfl, rfl, hfixed _ (by decide)⟩

/-- The three ways to read a cell: it throws, it refuses the file, or it leaves a text in
the row, which is too long exactly if the text of the cell is. -/
theorem readXlsxCell_cases (cell : XlsxCell) (column : XlsxCellColumn) :
    (readXlsxCell cell column = .error .range ∧ cell.isUndatable = true ∧
      cell.refusesFile = false) ∨
    ((readXlsxCell cell column = .ok .formulaCell ∨ readXlsxCell cell column = .ok .cellError) ∧
      cell.isUndatable = false ∧ cell.refusesFile = true) ∨
    (∃ text, (readXlsxCell cell column = .ok (.text text) ∨
        ∃ reason, readXlsxCell cell column = .ok (.rejected reason) ∧ text = "") ∧
      cell.isUndatable = false ∧ cell.refusesFile = false ∧
      (maxBytes < utf16Length text ↔ cell.isOverlong = true)) := by
  by_cases hplain : cell.isPlain = true
  · have hread := readXlsxCell_plain hplain column
    have hfile : cell.refusesFile = false := by
      obtain ⟨type, value⟩ := cell
      cases type
      case formula | error | number | date => cases hplain
      all_goals rfl
    rcases readText_cases hplain with ⟨herr, hu⟩ | ⟨text, hok, hu, hlong⟩
    · exact .inl ⟨by rw [hread, herr]; rfl, hu, hfile⟩
    · exact .inr (.inr ⟨text, .inl (by rw [hread, hok]; rfl), hu, hfile, hlong⟩)
  · have hu : cell.isUndatable = false := by
      rw [XlsxCell.isUndatable, Bool.eq_false_iff.mpr hplain, Bool.false_and]
    have hlong : ¬cell.isOverlong = true := by
      rw [XlsxCell.isOverlong, Bool.eq_false_iff.mpr hplain, Bool.false_and]
      exact Bool.false_ne_true
    by_cases htyped : cell.type = .number ∨ cell.type = .date
    · obtain ⟨text, hread, hshort⟩ := @short_typed cell column htyped
      refine .inr (.inr ⟨text, hread, hu, ?_, iff_of_false (Nat.not_lt.mpr hshort) hlong⟩)
      rcases htyped with h | h <;> simp [XlsxCell.refusesFile, h]
    · refine .inr (.inl ⟨?_, hu, ?_⟩)
      all_goals
        obtain ⟨type, value⟩ := cell
        cases type
        case formula => first | exact .inl rfl | rfl
        case error => first | exact .inr rfl | rfl
        case number => exact absurd (.inl rfl) htyped
        case date => exact absurd (.inr rfl) htyped
        all_goals exact absurd rfl hplain

/-! ## Rows -/

/-- The positions of the columns, from 1. -/
def columnPositions : List Nat := headerEntries.map Prod.snd

namespace XlsxRow

/-- An undatable cell that no cell before it refuses. -/
def ThrowsDate (row : XlsxRow) (positions : List Nat) : Prop :=
  ∃ p ∈ positions, (row.getCell p).isUndatable = true ∧
    ∀ q ∈ positions, q < p → (row.getCell q).refusesFile = false

def Refuses (row : XlsxRow) (positions : List Nat) : Prop :=
  ∃ p ∈ positions, (row.getCell p).refusesFile = true

instance (row : XlsxRow) (positions : List Nat) : Decidable (row.Refuses positions) :=
  inferInstanceAs (Decidable (∃ p ∈ positions, _))

def Overlong (row : XlsxRow) (positions : List Nat) : Prop :=
  ∃ p ∈ positions, (row.getCell p).isOverlong = true

/-- No cell of the row throws: a cell before it refuses the file, or it is neither undatable
nor too long. -/
def Readable (row : XlsxRow) : Prop :=
  ¬row.ThrowsDate columnPositions ∧ (row.Overlong columnPositions → row.Refuses columnPositions)

variable {row : XlsxRow} {p : Nat} {positions : List Nat}

theorem throwsDate_cons (h : ∀ q ∈ positions, p < q) :
    row.ThrowsDate (p :: positions) ↔ (row.getCell p).isUndatable = true ∨
      (row.getCell p).refusesFile = false ∧ row.ThrowsDate positions := by
  constructor
  · rintro ⟨x, hx, hu, hbefore⟩
    rcases List.mem_cons.mp hx with rfl | hx
    · exact .inl hu
    · exact .inr ⟨hbefore p List.mem_cons_self (h x hx), x, hx, hu,
        fun q hq => hbefore q (List.mem_cons_of_mem _ hq)⟩
  · rintro (hu | ⟨hfile, x, hx, hu, hbefore⟩)
    · refine ⟨p, List.mem_cons_self, hu, fun q hq hlt => ?_⟩
      rcases List.mem_cons.mp hq with rfl | hq
      · omega
      · have := h q hq
        omega
    · refine ⟨x, List.mem_cons_of_mem _ hx, hu, fun q hq hlt => ?_⟩
      rcases List.mem_cons.mp hq with rfl | hq
      · exact hfile
      · exact hbefore q hq hlt

theorem refuses_cons : row.Refuses (p :: positions) ↔
    (row.getCell p).refusesFile = true ∨ row.Refuses positions := by
  unfold Refuses
  rw [List.exists_mem_cons_iff]

end XlsxRow

/-- The loop over the columns throws at an undatable cell, stops at one that refuses the
file, or leaves the text of each cell in its column. -/
theorem readColumns_cases (row : XlsxRow) (sheet : Nat) (entries : List (LibraryImportColumn × Nat))
    (hasc : (entries.map Prod.snd).Pairwise (· < ·)) (hnodup : (entries.map Prod.fst).Nodup)
    (values : LibraryImportColumn → Option String) (rejected : LibraryImportRejectedCells) :
    (∃ thrown, readColumns row sheet entries values rejected = .error thrown ∧
      row.ThrowsDate (entries.map Prod.snd)) ∨
    (∃ failure, readColumns row sheet entries values rejected = .ok (.error failure) ∧
      ¬row.ThrowsDate (entries.map Prod.snd) ∧ row.Refuses (entries.map Prod.snd)) ∨
    ∃ v r, readColumns row sheet entries values rejected = .ok (.ok (v, r)) ∧
      ¬row.ThrowsDate (entries.map Prod.snd) ∧ ¬row.Refuses (entries.map Prod.snd) ∧
      (∀ e ∈ entries, ∃ text, v e.1 = some text ∧
        (maxBytes < utf16Length text ↔ (row.getCell e.2).isOverlong = true)) ∧
      ∀ c, c ∉ entries.map Prod.fst → v c = values c := by
  induction entries generalizing values rejected with
  | nil =>
    refine .inr (.inr ⟨values, rejected, rfl, ?_, ?_, ?_, fun _ _ => rfl⟩)
    · rintro ⟨p, hp, -⟩
      cases hp
    · rintro ⟨p, hp, -⟩
      cases hp
    · intro e he
      cases he
  | cons entry entries ih =>
    obtain ⟨column, position⟩ := entry
    rw [List.map_cons, List.pairwise_cons] at hasc
    rw [List.map_cons, List.nodup_cons] at hnodup
    rw [List.map_cons, List.map_cons, XlsxRow.throwsDate_cons hasc.1, XlsxRow.refuses_cons]
    have hih := ih hasc.2 hnodup.2
    rcases readXlsxCell_cases (row.getCell position) (some column) with
      ⟨herr, hu, hfile⟩ | ⟨hread, hu, hfile⟩ | ⟨text, hread, hu, hfile, hlong⟩
    · exact .inl ⟨.range, by rw [readColumns, herr], .inl hu⟩
    · refine .inr (.inl ?_)
      have hnot : ¬((row.getCell position).isUndatable = true ∨
          (row.getCell position).refusesFile = false ∧
            row.ThrowsDate (entries.map Prod.snd)) := by
        rw [hu, hfile]
        simp
      rcases hread with hread | hread
      · exact ⟨_, by rw [readColumns, hread], hnot, .inl hfile⟩
      · exact ⟨_, by rw [readColumns, hread], hnot, .inl hfile⟩
    · -- the loop goes on with the text of this cell in its column
      obtain ⟨rejected', hnext⟩ : ∃ rejected', readColumns row sheet ((column, position) :: entries)
          values rejected =
            readColumns row sheet entries (Function.update values column (some text)) rejected' := by
        rcases hread with hread | ⟨reason, hread, rfl⟩
        · exact ⟨rejected, by rw [readColumns, hread]⟩
        · exact ⟨Function.update rejected column (some reason), by rw [readColumns, hread]⟩
      rw [hnext, hu, hfile]
      simp only [Bool.false_eq_true, false_or, true_and]
      rcases hih (Function.update values column (some text)) rejected' with
        h | h | ⟨v, r, hok, hdate, href, htexts, hrest⟩
      · exact .inl h
      · exact .inr (.inl h)
      · refine .inr (.inr ⟨v, r, hok, hdate, href, ?_, ?_⟩)
        · intro e he
          rcases List.mem_cons.mp he with rfl | he
          · refine ⟨text, ?_, hlong⟩
            rw [hrest column hnodup.1, Function.update_self]
          · exact htexts e he
        · intro c hc
          rw [List.mem_cons, not_or] at hc
          rw [hrest c hc.2, Function.update_of_ne hc.1]

theorem headerEntries_fst : headerEntries.map Prod.fst = LIBRARY_IMPORT_CSV_HEADER := by decide

/-- The schema of a row throws exactly at a text that is too long. -/
theorem libraryImportCsvCellsSchema_ok {values : LibraryImportColumn → Option String}
    (h : ∀ column ∈ LIBRARY_IMPORT_CSV_HEADER, ∃ text, values column = some text) :
    (∃ cells, libraryImportCsvCellsSchema values = .ok cells) ↔
      ∀ column ∈ LIBRARY_IMPORT_CSV_HEADER, ∀ text, values column = some text →
        utf16Length text ≤ maxBytes := by
  unfold libraryImportCsvCellsSchema
  constructor
  · rintro ⟨cells, hok⟩ column hc text htext
    split at hok
    · rename_i hall
      have := List.all_eq_true.mp hall column hc
      rw [htext] at this
      exact of_decide_eq_true this
    · cases hok
  · intro hshort
    refine ⟨_, if_pos (List.all_eq_true.mpr fun column hc => ?_)⟩
    obtain ⟨text, htext⟩ := h column hc
    rw [htext]
    exact decide_eq_true (hshort column hc text htext)

theorem readRow_cases (row : XlsxRow) (sheet : Nat) :
    (∃ thrown, readRow row sheet = .error thrown ∧ ¬row.Readable) ∨
    (∃ failure, readRow row sheet = .ok (.error failure) ∧ row.Readable ∧
      row.Refuses columnPositions) ∨
    ∃ cells, readRow row sheet = .ok (.ok cells) ∧ row.Readable ∧
      ¬row.Refuses columnPositions := by
  have hnodup : (headerEntries.map Prod.fst).Nodup := by
    rw [headerEntries_fst]
    exact header_nodup
  unfold readRow XlsxRow.Readable
  rcases readColumns_cases row sheet headerEntries (by decide) hnodup (fun _ => none)
      (fun _ => none) with ⟨thrown, hread, hdate⟩ | ⟨failure, hread, hdate, href⟩ |
      ⟨v, r, hread, hdate, href, htexts, -⟩
  · exact .inl ⟨thrown, by rw [hread], fun h => h.1 hdate⟩
  · exact .inr (.inl ⟨failure, by rw [hread], ⟨hdate, fun _ => href⟩, href⟩)
  · have hsome : ∀ column ∈ LIBRARY_IMPORT_CSV_HEADER, ∃ position text,
        (column, position) ∈ headerEntries ∧ v column = some text ∧
          (maxBytes < utf16Length text ↔ (row.getCell position).isOverlong = true) := by
      intro column hc
      rw [← headerEntries_fst] at hc
      obtain ⟨e, he, rfl⟩ := List.mem_map.mp hc
      obtain ⟨text, htext, hlong⟩ := htexts e he
      exact ⟨e.2, text, he, htext, hlong⟩
    have hschema := @libraryImportCsvCellsSchema_ok v fun column hc => by
      obtain ⟨-, text, -, htext, -⟩ := hsome column hc
      exact ⟨text, htext⟩
    rw [hread]
    dsimp only
    by_cases hover : row.Overlong columnPositions
    · -- one of the texts is too long, so the schema throws
      obtain ⟨p, hp, hlong⟩ := hover
      obtain ⟨e, he, rfl⟩ := List.mem_map.mp hp
      obtain ⟨text, htext, hiff⟩ := htexts e he
      have hcol : e.1 ∈ LIBRARY_IMPORT_CSV_HEADER := mem_header e.1
      cases hs : libraryImportCsvCellsSchema v with
      | error thrown => exact .inl ⟨thrown, rfl, fun h => href (h.2 ⟨e.2, hp, hlong⟩)⟩
      | ok cells =>
        have hle := hschema.mp ⟨cells, hs⟩ e.1 hcol text htext
        exact absurd (hiff.mpr hlong) (Nat.not_lt.mpr hle)
    · obtain ⟨cells, hcells⟩ := hschema.mpr fun column hc text htext => by
        obtain ⟨position, text', hmem, htext', hiff⟩ := hsome column hc
        cases htext.symm.trans htext'
        refine Nat.not_lt.mp fun hlt => hover ⟨position, ?_, hiff.mp hlt⟩
        exact List.mem_map_of_mem (f := Prod.snd) hmem
      rw [hcells]
      exact .inr (.inr ⟨_, rfl, ⟨hdate, fun h => absurd h hover⟩, href⟩)

/-- Every row is readable, up to one that refuses the file. -/
def RowsReadable : List XlsxRow → Prop
  | [] => True
  | row :: rest => row.Readable ∧ (¬row.Refuses columnPositions → RowsReadable rest)

theorem readRows_ok_iff (sheet : Nat) (rows : List XlsxRow) (read : SheetRows) :
    (∃ result, readRows sheet rows read = .ok result) ↔ RowsReadable rows := by
  induction rows generalizing read with
  | nil => exact iff_of_true ⟨_, rfl⟩ trivial
  | cons row rest ih =>
    rw [RowsReadable]
    rcases readRow_cases row sheet with ⟨thrown, hread, hnot⟩ | ⟨failure, hread, hok, href⟩ |
      ⟨⟨cells, rejected⟩, hread, hok, href⟩
    · refine iff_of_false ?_ fun h => hnot h.1
      rintro ⟨result, hresult⟩
      rw [readRows, hread] at hresult
      cases hresult
    · exact iff_of_true ⟨_, by rw [readRows, hread]⟩ ⟨hok, fun h => absurd href h⟩
    · rw [readRows, hread]
      dsimp only
      split
      · exact (ih _).trans ⟨fun h => ⟨hok, fun _ => h⟩, fun h => h.2 href⟩
      · exact (ih _).trans ⟨fun h => ⟨hok, fun _ => h⟩, fun h => h.2 href⟩

/-! ## Sheets -/

/-- The loop over the header row. -/
theorem readNames_cases (row : XlsxRow) (sheet : Nat) (positions : List Nat)
    (hasc : positions.Pairwise (· < ·)) (names : List String) :
    (∃ thrown, readNames row sheet positions names = .error thrown ∧ row.ThrowsDate positions) ∨
    (∃ failure, readNames row sheet positions names = .ok (.error failure) ∧
      ¬row.ThrowsDate positions ∧ row.Refuses positions) ∨
    (readNames row sheet positions names =
        .ok (.ok (names ++ positions.map fun p => (row.getCell p).headerText)) ∧
      ¬row.ThrowsDate positions ∧ ¬row.Refuses positions) := by
  induction positions generalizing names with
  | nil =>
    refine .inr (.inr ⟨by rw [readNames, List.map_nil, List.append_nil], ?_, ?_⟩)
    · rintro ⟨p, hp, -⟩
      cases hp
    · rintro ⟨p, hp, -⟩
      cases hp
  | cons position positions ih =>
    rw [List.pairwise_cons] at hasc
    rw [XlsxRow.throwsDate_cons hasc.1, XlsxRow.refuses_cons]
    rcases readXlsxCell_cases (row.getCell position) none with
      ⟨herr, hu, hfile⟩ | ⟨hread, hu, hfile⟩ | ⟨text, hread, hu, hfile, -⟩
    · exact .inl ⟨.range, by rw [readNames, herr], .inl hu⟩
    · refine .inr (.inl ?_)
      have hnot : ¬((row.getCell position).isUndatable = true ∨
          (row.getCell position).refusesFile = false ∧ row.ThrowsDate positions) := by
        rw [hu, hfile]
        simp
      rcases hread with hread | hread
      · exact ⟨_, by rw [readNames, hread], hnot, .inl hfile⟩
      · exact ⟨_, by rw [readNames, hread], hnot, .inl hfile⟩
    · have hnext : readNames row sheet (position :: positions) names =
          readNames row sheet positions (names ++ [(row.getCell position).headerText]) := by
        rcases hread with hread | ⟨reason, hread, rfl⟩
        · rw [readNames, XlsxCell.headerText, hread]
        · rw [readNames, XlsxCell.headerText, hread]
      have happ := List.append_cons names (row.getCell position).headerText
        (positions.map fun p => (row.getCell p).headerText)
      rw [hnext, hu, hfile, List.map_cons, happ]
      simp only [Bool.false_eq_true, false_or, true_and]
      exact ih hasc.2 _

/-- The header row is readable, and so are the data rows when it is the header. -/
def SheetReadable : List XlsxRow → Prop
  | [] => True
  | header :: rest =>
    ¬header.ThrowsDate columnPositions ∧
      (¬header.Refuses columnPositions →
        isLibraryImportHeader (columnPositions.map fun p => (header.getCell p).headerText) = true →
          RowsReadable rest)

theorem readSheet_ok_iff (scan : SheetScan) (sheet : Nat) :
    (∃ result, readSheet scan sheet = .ok result) ↔ SheetReadable scan.rows := by
  unfold readSheet
  cases scan.rows with
  | nil => exact iff_of_true ⟨_, rfl⟩ trivial
  | cons header rest =>
    rw [SheetReadable]
    dsimp only
    rcases readNames_cases header sheet columnPositions (by decide) [] with
      ⟨thrown, hread, hdate⟩ | ⟨failure, hread, hdate, href⟩ | ⟨hread, hdate, href⟩
    · have hheader : readHeader header sheet = .error thrown := by
        rw [readHeader, show headerEntries.map Prod.snd = columnPositions from rfl, hread]
      refine iff_of_false ?_ fun h => h.1 hdate
      rintro ⟨result, hresult⟩
      rw [hheader] at hresult
      cases hresult
    · have hheader : readHeader header sheet = .ok (some failure) := by
        rw [readHeader, show headerEntries.map Prod.snd = columnPositions from rfl, hread]
      exact iff_of_true ⟨_, by rw [hheader]⟩ ⟨hdate, fun h => absurd href h⟩
    · rw [List.nil_append] at hread
      by_cases hnames : isLibraryImportHeader
          (columnPositions.map fun p => (header.getCell p).headerText) = true
      · have hheader : readHeader header sheet = .ok none := by
          rw [readHeader, show headerEntries.map Prod.snd = columnPositions from rfl, hread]
          exact congrArg Except.ok (if_pos hnames)
        rw [hheader]
        exact (readRows_ok_iff sheet rest _).trans
          ⟨fun h => ⟨hdate, fun _ _ => h⟩, fun h => h.2 href hnames⟩
      · have hheader : ∃ failure, readHeader header sheet = .ok (some failure) := by
          rw [readHeader, show headerEntries.map Prod.snd = columnPositions from rfl, hread]
          exact ⟨_, congrArg Except.ok (if_neg hnames)⟩
        obtain ⟨failure, hheader⟩ := hheader
        exact iff_of_true ⟨_, by rw [hheader]⟩ ⟨hdate, fun _ h => absurd h hnames⟩

/-! ## Workbooks -/

/-- The rows with data of the only sheet with data, if it is within the limits. -/
def Workbook.DataRows (workbook : Workbook) (rows : List XlsxRow) : Prop :=
  ∃ sheet : Worksheet,
    workbook.filter (fun sheet => sheet.flatMap XlsxRow.populated ≠ []) = [sheet] ∧
    (sheet.flatMap XlsxRow.populated).length ≤ LIBRARY_IMPORT_XLSX_LIMITS.maxCells ∧
    (∀ column ∈ sheet.flatMap XlsxRow.populated, column ≤ LIBRARY_IMPORT_CSV_HEADER.length) ∧
    rows = sheet.filter fun row => row.populated ≠ []

/-- The sheets with data that `selectSheet` counts. -/
theorem map_withData (workbook : Workbook) :
    (((workbook.map scanSheet).zipIdx 1).filter fun scan => 0 < scan.1.cells).map Prod.fst =
      (workbook.filter fun sheet => sheet.flatMap XlsxRow.populated ≠ []).map scanSheet := by
  have hfst : (((workbook.map scanSheet).zipIdx 1).filter fun scan => 0 < scan.1.cells).map
      Prod.fst = (workbook.map scanSheet).filter fun scan => 0 < scan.cells := by
    conv_rhs => rw [← List.zipIdx_map_fst 1 (workbook.map scanSheet), List.filter_map]
    rfl
  rw [hfst, List.filter_map]
  refine congrArg (List.map scanSheet) (List.filter_congr fun sheet _ => ?_)
  exact decide_eq_decide.mpr List.length_pos_iff

theorem extraColumns_eq_nil (sheet : Worksheet) : (scanSheet sheet).extraColumns = [] ↔
    ∀ column ∈ sheet.flatMap XlsxRow.populated, column ≤ LIBRARY_IMPORT_CSV_HEADER.length := by
  unfold scanSheet
  dsimp only
  rw [← List.length_eq_zero_iff, List.length_insertionSort, List.length_eq_zero_iff,
    List.eq_nil_iff_forall_not_mem]
  constructor
  · intro h column hc
    refine Nat.not_lt.mp fun hlt => h column ?_
    rw [List.mem_dedup, List.mem_filter]
    exact ⟨hc, decide_eq_true hlt⟩
  · intro h column hc
    rw [List.mem_dedup, List.mem_filter] at hc
    exact absurd (of_decide_eq_true hc.2) (Nat.not_lt.mpr (h column hc.1))

theorem selectSheet_rows_iff {workbook : Workbook} {rows : List XlsxRow} :
    (∃ sheet scan, selectSheet workbook = .ok (sheet, scan) ∧ scan.rows = rows) ↔
      workbook.DataRows rows := by
  have hmap := map_withData workbook
  unfold selectSheet Workbook.DataRows
  dsimp only
  generalize ((workbook.map scanSheet).zipIdx 1).filter (fun scan => 0 < scan.1.cells) = found
    at hmap
  generalize workbook.filter (fun sheet => sheet.flatMap XlsxRow.populated ≠ []) = sheets at hmap
  constructor
  · rintro ⟨n, scan, hok, rfl⟩
    match found, hmap, hok with
    | [(scan', n')], hmap, hok =>
      dsimp only at hok
      split at hok
      · cases hok
      · rename_i hcells
        split at hok
        · cases hok
        · rename_i hextra
          cases hok
          obtain ⟨sheet, hsheet, rfl⟩ : ∃ sheet, sheets = [sheet] ∧ scanSheet sheet = scan := by
            match sheets, hmap with
            | [sheet], hmap => exact ⟨sheet, rfl, (List.cons.inj hmap).1.symm⟩
          exact ⟨sheet, hsheet, Nat.not_lt.mp hcells,
            (extraColumns_eq_nil sheet).mp (not_not.mp hextra), rfl⟩
  · rintro ⟨sheet, hsheet, hcells, hextra, rfl⟩
    subst hsheet
    match found, hmap with
    | [(scan, n)], hmap =>
      obtain rfl : scan = scanSheet sheet := (List.cons.inj hmap).1
      refine ⟨n, scanSheet sheet, ?_, rfl⟩
      dsimp only
      rw [if_neg (show ¬LIBRARY_IMPORT_XLSX_LIMITS.maxCells < (scanSheet sheet).cells from
        Nat.not_lt.mpr hcells),
        if_neg (not_not.mpr ((extraColumns_eq_nil sheet).mpr hextra))]

/-- Nothing in the rows that are read throws. -/
def Workbook.Readable (workbook : Workbook) : Prop :=
  ∀ rows, workbook.DataRows rows → SheetReadable rows

variable (env : ImportEnv) (tools : FileTools)

/-- **The XLSX reader throws exactly at what is not readable.** -/
theorem readWorkbook_ok_iff (workbook : Workbook) (input : Bytes) :
    (∃ result, readWorkbook env tools workbook input = .ok result) ↔ workbook.Readable := by
  unfold readWorkbook Workbook.Readable
  cases hselect : selectSheet workbook with
  | error failure =>
    refine iff_of_true ⟨_, rfl⟩ fun rows hrows => ?_
    obtain ⟨sheet, scan, hok, -⟩ := selectSheet_rows_iff.mpr hrows
    cases hselect.symm.trans hok
  | ok selected =>
    obtain ⟨sheet, scan⟩ := selected
    dsimp only
    have hall : (∀ rows, workbook.DataRows rows → SheetReadable rows) ↔
        SheetReadable scan.rows := by
      constructor
      · exact fun h => h scan.rows (selectSheet_rows_iff.mp ⟨sheet, scan, hselect, rfl⟩)
      · intro h rows hrows
        obtain ⟨sheet', scan', hok, rfl⟩ := selectSheet_rows_iff.mpr hrows
        cases hselect.symm.trans hok
        exact h
    rw [hall, ← readSheet_ok_iff scan sheet]
    constructor
    · rintro ⟨result, hresult⟩
      cases hread : readSheet scan sheet with
      | error thrown =>
        rw [hread] at hresult
        cases hresult
      | ok read => exact ⟨read, rfl⟩
    · rintro ⟨read, hread⟩
      rw [hread]
      cases read with
      | error failure => exact ⟨_, rfl⟩
      | ok read => exact ⟨_, rfl⟩

/-! ## CSV -/

/-- What the documentation of `csv-parse` says of it: with these options it returns records
of one length or throws a `CsvError`, and a field is made of characters of the text. -/
structure FileTools.Documented (tools : FileTools) : Prop where
  csvError : ∀ text delimiter, tools.parse text delimiter ≠ .error .foreign
  equallyLong : ∀ text delimiter records, tools.parse text delimiter = .ok records →
    ∀ record ∈ records, ∀ record' ∈ records, record.length = record'.length
  fields : ∀ text delimiter records, tools.parse text delimiter = .ok records →
    ∀ record ∈ records, ∀ field ∈ record, field.toList.Sublist text.toList

theorem utf16Length_le_of_sublist {a b : String} (h : a.toList.Sublist b.toList) :
    utf16Length a ≤ utf16Length b :=
  (h.map _).sum_le_sum fun _ _ => Nat.zero_le _

/-- A text is not longer than its bytes. -/
theorem utf16Length_le_encode (text : List Nat) :
    utf16Length (String.ofList (text.map Char.ofNat)) ≤ (Utf8.encode text).length := by
  unfold utf16Length
  rw [String.toList_ofList]
  induction text with
  | nil => simp
  | cons n text ih =>
    have hpoint : (if (Char.ofNat n).toNat < 0x10000 then 1 else 2) ≤
        (Utf8.encodePoint n).length := by
      unfold Utf8.encodePoint
      by_cases hn : n < 0x10000
      · have hsmall : (Char.ofNat n).toNat < 0x10000 := by
          unfold Char.ofNat
          by_cases hvalid : n.isValidChar
          · rw [dif_pos hvalid]
            exact hn
          · rw [dif_neg hvalid]
            decide
        rw [if_pos hsmall]
        split
        · exact Nat.le_refl _
        · split
          · exact Nat.le_succ _
          · simp
      · rw [if_neg (show ¬n < 0x80 by omega), if_neg (show ¬n < 0x800 by omega), if_neg hn]
        split <;> simp
    rw [Utf8.encode, List.flatMap_cons, List.length_append, List.map_cons, List.map_cons,
      List.sum_cons]
    exact Nat.add_le_add hpoint ih

theorem utf16Length_of_decodeUtf8 {bytes : Bytes} {text : String}
    (h : decodeUtf8 bytes = some text) : utf16Length text ≤ bytes.length := by
  obtain ⟨points, hpoints, rfl⟩ := Option.map_eq_some_iff.mp h
  have hlen := utf16Length_le_encode points
  rwa [Utf8.encode_of_decodeFatal hpoints, List.length_map] at hlen

/-- A record of 22 short fields passes the schema. -/
theorem toCells_ok {record : List String}
    (hlen : record.length = LIBRARY_IMPORT_CSV_HEADER.length)
    (hshort : ∀ field ∈ record, utf16Length field ≤ maxBytes) :
    ∃ cells, toCells record = .ok cells := by
  refine (libraryImportCsvCellsSchema_ok fun column hc => ?_).mpr fun column hc text htext => ?_
  · exact ⟨_, List.getElem?_eq_getElem (hlen ▸ List.idxOf_lt_length_of_mem hc)⟩
  · exact hshort text (List.mem_of_getElem? htext)

/-- **The CSV reader never throws.** -/
theorem parseLibraryImportCsv_ok (hdoc : tools.Documented) (input : Bytes) :
    ∃ result, parseLibraryImportCsv env tools input = .ok result := by
  unfold parseLibraryImportCsv
  by_cases hlarge : maxBytes < input.length
  · exact ⟨_, if_pos hlarge⟩
  rw [if_neg hlarge]
  dsimp only
  cases htext : decodeUtf8 (stripOneBom input) with
  | none => exact ⟨_, rfl⟩
  | some text =>
    dsimp only
    cases hdelimiter : detectDelimiter text with
    | error failure => exact ⟨_, rfl⟩
    | ok delimiter =>
      dsimp only
      cases hparse : tools.parse text delimiter with
      | error failure =>
        cases failure with
        | foreign => exact absurd hparse (hdoc.csvError text delimiter)
        | csvError code lines =>
          rw [readRecords, hparse]
          exact ⟨_, rfl⟩
      | ok records =>
        rw [readRecords, hparse]
        dsimp only
        by_cases hheader : isLibraryImportHeader (records.headD []) = false
        · exact ⟨_, if_pos hheader⟩
        rw [if_neg hheader]
        split
        · exact ⟨_, rfl⟩
        split
        · exact ⟨_, rfl⟩
        -- the records are as long as the header, and their fields not longer than the file
        have hstrip : (stripOneBom input).length ≤ input.length := by
          unfold stripOneBom
          split
          · rw [List.length_drop]
            omega
          · exact Nat.le_refl _
        have hbytes := utf16Length_of_decodeUtf8 htext
        obtain ⟨cells, hcells⟩ : ∃ cells, records.tail.mapM toCells = .ok cells := by
          refine Checked.mapM_ok fun record hrecord => ?_
          cases records with
          | nil => cases hrecord
          | cons header data =>
            have hmem : record ∈ header :: data := List.mem_cons_of_mem _ hrecord
            refine toCells_ok ?_ fun field hfield => ?_
            · rw [hdoc.equallyLong text delimiter _ hparse record hmem header List.mem_cons_self]
              have hnames : header = LIBRARY_IMPORT_CSV_HEADER.map LibraryImportColumn.name :=
                of_decide_eq_true (Bool.not_eq_false _ ▸ hheader)
              rw [hnames, List.length_map]
            · have hle := utf16Length_le_of_sublist
                (hdoc.fields text delimiter _ hparse record hmem field hfield)
              omega
        rw [hcells]
        dsimp only
        split
        · exact ⟨_, rfl⟩
        · exact ⟨_, rfl⟩

/-- **Reading a file**: a CSV file never throws, a workbook exactly when it is not readable. -/
theorem file_reading (hdoc : tools.Documented) :
    (∀ input, ∃ result, parseLibraryImportCsv env tools input = .ok result) ∧
      ∀ workbook input,
        (∃ result, readWorkbook env tools workbook input = .ok result) ↔ workbook.Readable :=
  ⟨parseLibraryImportCsv_ok env tools hdoc, readWorkbook_ok_iff env tools⟩

/-! ## A file that is read, and two that are not -/

/-- An environment, for files that never come to ask it. -/
def bareEnv : ImportEnv where
  isUrl _ := false
  bookswapNorm := id
  similar _ _ := false
  similarity _ _ := 0
  randomUUID _ _ := ""
  sha256 _ := ""

/-- The parser, for a text of two names. -/
def twoNames : FileTools where
  parse text _ :=
    if text = "isbn13,title" then .ok [["isbn13", "title"]]
    else .error (.csvError "CSV_INVALID_CLOSING_QUOTE" none)
  sha256 _ := ""

theorem twoNames_documented : twoNames.Documented := by
  have hok : ∀ text delimiter records, twoNames.parse text delimiter = .ok records →
      text = "isbn13,title" ∧ records = [["isbn13", "title"]] := by
    intro text delimiter records h
    by_cases htext : text = "isbn13,title"
    · have hparse : twoNames.parse text delimiter = .ok [["isbn13", "title"]] := if_pos htext
      exact ⟨htext, (Except.ok.inj (hparse.symm.trans h)).symm⟩
    · have hparse : twoNames.parse text delimiter =
          .error (.csvError "CSV_INVALID_CLOSING_QUOTE" none) := if_neg htext
      cases hparse.symm.trans h
  constructor
  · intro text delimiter h
    by_cases htext : text = "isbn13,title"
    · have hparse : twoNames.parse text delimiter = .ok [["isbn13", "title"]] := if_pos htext
      cases hparse.symm.trans h
    · have hparse : twoNames.parse text delimiter =
          .error (.csvError "CSV_INVALID_CLOSING_QUOTE" none) := if_neg htext
      cases hparse.symm.trans h
  · intro text delimiter records h
    obtain ⟨-, rfl⟩ := hok text delimiter records h
    decide
  · intro text delimiter records h
    obtain ⟨rfl, rfl⟩ := hok text delimiter records h
    decide

/-- A row of the 22 names. -/
def headerRow : XlsxRow where
  number := 1
  cells := headerEntries.map fun entry => (entry.2, ⟨.string, .string entry.1.name⟩)

/-- The header and one row with one cell, under `title`. -/
def sheetWithTitle (cell : XlsxCell) : Workbook := [[headerRow, ⟨2, [(2, cell)]⟩]]

theorem file_reading_twoNames :
    (∃ result, parseLibraryImportCsv bareEnv twoNames
      ("isbn13,title".toList.map fun c => UInt8.ofNat c.toNat) = .ok result) ∧
    ∃ result, readWorkbook bareEnv twoNames [] [] = .ok result := by
  have h := file_reading bareEnv twoNames twoNames_documented
  refine ⟨h.1 _, (h.2 [] []).mpr ?_⟩
  rintro rows ⟨sheet, hsheet, -⟩
  cases hsheet

/-- One character more than a cell of a row may have. -/
def longTitle : XlsxCell := ⟨.string, .string (String.ofList (List.replicate (maxBytes + 1) 'a'))⟩

/-- A long title throws the error of the schema, a merged cell with an invalid date the error
of its ISO text. -/
theorem file_reading_throws :
    (¬∃ result, readWorkbook bareEnv twoNames (sheetWithTitle longTitle) [] = .ok result) ∧
    readWorkbook bareEnv twoNames (sheetWithTitle ⟨.merge, .date none⟩) [] = .error .range := by
  constructor
  · rw [readWorkbook_ok_iff]
    intro hreadable
    have hdata : (sheetWithTitle longTitle).DataRows [headerRow, ⟨2, [(2, longTitle)]⟩] :=
      ⟨_, rfl, by decide, by decide, rfl⟩
    have hrow := ((hreadable _ hdata).2 (by decide) (by decide)).1
    have hlong : longTitle.isOverlong = true := by
      simp only [longTitle, XlsxCell.isOverlong, XlsxCell.isPlain, Bool.true_and,
        decide_eq_true_iff]
      rw [utf16Length, String.toList_ofList, List.map_replicate, List.sum_replicate]
      decide
    obtain ⟨p, hp, hfile⟩ := hrow.2 ⟨2, by decide, hlong⟩
    have hnone : ∀ p ∈ columnPositions,
        (XlsxRow.getCell ⟨2, [(2, longTitle)]⟩ p).refusesFile = false := by decide
    rw [hnone p hp] at hfile
    cases hfile
  · rfl

end Bookswap
