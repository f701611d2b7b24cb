import Bookswap.Domain
import Bookswap.Lib.Base64Url
import Bookswap.Lib.IsoDate
import Bookswap.Lib.JsonStrings

/-!
# The cursor of the reading list

`reading-status/reading-status.cursor.ts`: a position in the order `(updatedAt DESC, id DESC)`
as an opaque text, the base64url of the JSON of `[updatedAtISO, id]`.

- `decodeCursor_encodeCursor`: every position is read back.
- `decodeCursor_eq_ok_iff`: which texts are read, and as what. The decoding of base64 and of
  UTF-8 never fails, and JSON has more than one text for the same pair, so these are more
  texts than the encodings.
-/

namespace Bookswap

open JsonStrings

/-- The id of a row. -/
structure RowId where
  units : List CodeUnit
  nonempty : units ≠ []
  deriving DecidableEq

/-- `ReadingListCursor`: a valid date and an id. -/
structure ReadingListCursor where
  updatedAt : Int
  id : RowId
  valid : IsoDate.Valid updatedAt
  deriving DecidableEq

/-- `Buffer.from(JSON.stringify([updatedAt.toISOString(), id])).toString('base64url')` -/
def encodeCursor (cursor : ReadingListCursor) : String :=
  let iso := (IsoDate.toISOString cursor.updatedAt).map unit
  String.ofList (Base64Url.encode (Utf8.encode (stringifyPair iso cursor.id.units)))

def invalidCursor : Failure := apiError .validationError "Недійсний курсор" 400

/-- `JSON.parse(Buffer.from(raw, 'base64url').toString('utf8'))`, when it is an array of two
strings. -/
def parsedCursor (raw : String) : Option (List CodeUnit × List CodeUnit) :=
  parsePair (Utf8.decode (Base64Url.decode raw.toList))

def decodeCursor (raw : String) : Tx ReadingListCursor :=
  match parsedCursor raw with
  | none => .error invalidCursor
  | some (iso, id) =>
    match IsoDate.parse (iso.map Fin.val) with
    | none => .error invalidCursor
    | some updatedAt =>
      if h : IsoDate.Valid updatedAt ∧ IsoDate.toISOString updatedAt = iso.map Fin.val ∧ id ≠ []
      then .ok ⟨updatedAt, ⟨id, h.2.2⟩, h.1⟩
      else .error invalidCursor

variable {raw : String} {c : ReadingListCursor}

theorem map_val_map_unit {codes : List Nat} (h : ∀ n ∈ codes, n < 0x10000) :
    (codes.map unit).map Fin.val = codes := by
  rw [List.map_map]
  exact (List.map_congr_left fun n hn => Nat.mod_eq_of_lt (h n hn)).trans (List.map_id _)

theorem map_unit_map_val (units : List CodeUnit) : (units.map Fin.val).map unit = units := by
  rw [List.map_map]
  exact (List.map_congr_left fun u _ => Fin.ext (Nat.mod_eq_of_lt u.isLt)).trans (List.map_id _)

/-- The text of a date has plain characters only. -/
theorem iso_units (t : Int) :
    ((IsoDate.toISOString t).map unit).map Fin.val = IsoDate.toISOString t :=
  map_val_map_unit fun n hn => by
    have := IsoDate.toISOString_lt t n hn
    omega

/-- The pair that was written is read. -/
theorem parsedCursor_encodeCursor (c : ReadingListCursor) :
    parsedCursor (encodeCursor c) = some ((IsoDate.toISOString c.updatedAt).map unit, c.id.units) := by
  have hscalar := stringifyPair_scalar ((IsoDate.toISOString c.updatedAt).map unit) c.id.units
  unfold parsedCursor encodeCursor
  dsimp only
  rw [String.toList_ofList, Base64Url.decode_encode (Utf8.encode_lt hscalar),
    Utf8.decode_encode hscalar, parsePair_stringifyPair]

/-- A text is read as a position exactly when it holds the JSON of its date and id. -/
theorem decodeCursor_eq_ok_iff : decodeCursor raw = .ok c ↔
    parsedCursor raw = some ((IsoDate.toISOString c.updatedAt).map unit, c.id.units) := by
  unfold decodeCursor
  constructor
  · intro h
    cases hp : parsedCursor raw with
    | none =>
      rw [hp] at h
      cases h
    | some pair =>
      rw [hp] at h
      dsimp only at h
      cases ht : IsoDate.parse (pair.1.map Fin.val) with
      | none =>
        rw [ht] at h
        cases h
      | some t =>
        rw [ht] at h
        dsimp only at h
        split at h
        · rename_i hgood
          cases h
          rw [hgood.2.1, map_unit_map_val]
        · cases h
  · intro h
    have hparse : IsoDate.parse (((IsoDate.toISOString c.updatedAt).map unit).map Fin.val) =
        some c.updatedAt := by
      rw [iso_units, IsoDate.parse_toISOString c.valid]
    rw [h]
    dsimp only
    rw [hparse]
    dsimp only
    rw [dif_pos ⟨c.valid, (iso_units _).symm, c.id.nonempty⟩]

/-- **Every position is read back.** -/
theorem decodeCursor_encodeCursor (c : ReadingListCursor) :
    decodeCursor (encodeCursor c) = .ok c :=
  decodeCursor_eq_ok_iff.mpr (parsedCursor_encodeCursor c)

end Bookswap
