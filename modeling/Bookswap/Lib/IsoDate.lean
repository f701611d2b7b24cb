import Mathlib.Data.List.Basic
import Mathlib.Tactic.Ring

/-!
# Dates as ISO text

A moment is a number of milliseconds since 1970-01-01T00:00:00.000Z. Its ISO text is in
UTC, with a year of four digits, or of a sign and six digits outside 0 to 9999. Texts are
lists of character codes.

- `parse_toISOString`: reading the text of a moment gives it back.
-/

namespace IsoDate

/-- The largest distance of a valid date from 1970. -/
def maxTime : Int := 8640000000000000

def Valid (t : Int) : Prop := -maxTime ≤ t ∧ t ≤ maxTime

instance (t : Int) : Decidable (Valid t) := inferInstanceAs (Decidable (_ ∧ _))

/-! ### Days of the calendar -/

/-- Year, month and day of a day number. The years start in March, so that a leap day is
the last of its year: 400 years have 146097 days, 100 years 36524, the last of four
hundreds one more, 4 years 1461. -/
def civil (day : Int) : Int × Int × Int :=
  let z := day + 719468
  let centuries := min (z % 146097 / 36524) 3
  let inCentury := z % 146097 - 36524 * centuries
  let years := min (inCentury % 1461 / 365) 3
  let doy := inCentury % 1461 - 365 * years
  let y := z / 146097 * 400 + (centuries * 100 + inCentury / 1461 * 4 + years)
  let mp := (5 * doy + 2) / 153
  let d := doy - (153 * mp + 2) / 5 + 1
  if mp < 10 then (y, mp + 3, d) else (y + 1, mp - 9, d)

/-- The day number of a date. -/
def dayOf (y m d : Int) : Int :=
  let y' := if m ≤ 2 then y - 1 else y
  let yoe := y' % 400
  let mp := if m ≤ 2 then m + 9 else m - 3
  y' / 400 * 146097 + (365 * yoe + yoe / 4 - yoe / 100) + (153 * mp + 2) / 5 + d - 1 - 719468

/-- The parts of a day within its 400 years. -/
theorem parts_of_day {doe : Int} (h₀ : 0 ≤ doe) (h₁ : doe < 146097) :
    ∃ c q r doy : Int, c = min (doe / 36524) 3 ∧ q = (doe - 36524 * c) / 1461 ∧
      r = min ((doe - 36524 * c) % 1461 / 365) 3 ∧
      doy = (doe - 36524 * c) % 1461 - 365 * r ∧
      0 ≤ c ∧ c ≤ 3 ∧ 0 ≤ q ∧ q ≤ 24 ∧ 0 ≤ r ∧ r ≤ 3 ∧ 0 ≤ doy ∧ doy ≤ 365 ∧
      doe = 36524 * c + 1461 * q + 365 * r + doy := by
  obtain ⟨c, hc⟩ : ∃ c, c = min (doe / 36524) 3 := ⟨_, rfl⟩
  have hcb : 0 ≤ c ∧ c ≤ 3 ∧ 0 ≤ doe - 36524 * c ∧ doe - 36524 * c ≤ 36524 := by omega
  obtain ⟨p, hp⟩ : ∃ p, p = doe - 36524 * c := ⟨_, rfl⟩
  obtain ⟨r, hr⟩ : ∃ r, r = min (p % 1461 / 365) 3 := ⟨_, rfl⟩
  refine ⟨c, p / 1461, r, p % 1461 - 365 * r, hc, by rw [hp], by rw [hr, hp], by rw [hp], ?_⟩
  omega

/-- The day of the date of a day is that day. -/
theorem dayOf_civil (day : Int) :
    dayOf (civil day).1 (civil day).2.1 (civil day).2.2 = day := by
  obtain ⟨c, q, r, doy, hc, hq, hr, hdoy, hc₀, hc₃, hq₀, hq₂, hr₀, hr₃, hd₀, hd₁, hsum⟩ :=
    parts_of_day (Int.emod_nonneg (day + 719468) (by decide))
      (Int.emod_lt_of_pos (day + 719468) (by decide))
  have hera := Int.mul_ediv_add_emod (day + 719468) 146097
  unfold civil
  dsimp only
  rw [← hc, ← hq, ← hr, ← hdoy]
  generalize (day + 719468) / 146097 = era at hera ⊢
  generalize (day + 719468) % 146097 = doe at hera hsum
  have hyoe : (era * 400 + (c * 100 + q * 4 + r)) % 400 = c * 100 + q * 4 + r := by omega
  have hyera : (era * 400 + (c * 100 + q * 4 + r)) / 400 = era := by omega
  have hq4 : (c * 100 + q * 4 + r) / 4 = c * 25 + q := by omega
  have hq100 : (c * 100 + q * 4 + r) / 100 = c := by omega
  split
  · rename_i hmp
    unfold dayOf
    dsimp only
    rw [if_neg (by omega), if_neg (by omega), hyoe, hyera, hq4, hq100, Int.add_sub_cancel]
    omega
  · rename_i hmp
    unfold dayOf
    dsimp only
    rw [if_pos (by omega), if_pos (by omega), Int.add_sub_cancel, hyoe, hyera, hq4, hq100,
      Int.sub_add_cancel]
    omega

/-- The parts of a date of four digits a part at most. -/
theorem civil_bounds {day : Int} :
    1 ≤ (civil day).2.1 ∧ (civil day).2.1 ≤ 12 ∧ 1 ≤ (civil day).2.2 ∧ (civil day).2.2 ≤ 31 := by
  obtain ⟨c, q, r, doy, hc, hq, hr, hdoy, hc₀, hc₃, hq₀, hq₂, hr₀, hr₃, hd₀, hd₁, hsum⟩ :=
    parts_of_day (Int.emod_nonneg (day + 719468) (by decide))
      (Int.emod_lt_of_pos (day + 719468) (by decide))
  unfold civil
  dsimp only
  rw [← hc, ← hq, ← hr, ← hdoy]
  split <;> dsimp only <;> omega

theorem year_bounds {day : Int} (h₀ : -100000000 ≤ day) (h₁ : day ≤ 100000000) :
    -999999 ≤ (civil day).1 ∧ (civil day).1 ≤ 999999 := by
  obtain ⟨c, q, r, doy, hc, hq, hr, hdoy, hc₀, hc₃, hq₀, hq₂, hr₀, hr₃, -, -, -⟩ :=
    parts_of_day (Int.emod_nonneg (day + 719468) (by decide))
      (Int.emod_lt_of_pos (day + 719468) (by decide))
  unfold civil
  dsimp only
  rw [← hc, ← hq, ← hr, ← hdoy]
  split <;> dsimp only <;> omega

/-! ### The text -/

/-- The last `width` decimal digits. -/
def digits : Nat → Nat → List Nat
  | 0, _ => []
  | width + 1, n => (48 + n / 10 ^ width % 10) :: digits width n

/-- Read exactly `width` decimal digits. -/
def readDigits : Nat → Nat → List Nat → Option (Nat × List Nat)
  | 0, acc, cs => some (acc, cs)
  | _ + 1, _, [] => none
  | width + 1, acc, c :: cs =>
    if 48 ≤ c ∧ c ≤ 57 then readDigits width (acc * 10 + (c - 48)) cs else none

theorem readDigits_digits (width acc n : Nat) (rest : List Nat) :
    readDigits width acc (digits width n ++ rest) = some (acc * 10 ^ width + n % 10 ^ width, rest) := by
  induction width generalizing acc with
  | zero => simp [readDigits, digits, Nat.mod_one]
  | succ width ih =>
    have hdigit := Nat.mod_lt (n / 10 ^ width) (show 0 < 10 by decide)
    rw [digits, List.cons_append, readDigits, if_pos ⟨by omega, by omega⟩, ih,
      Nat.add_sub_cancel_left, Nat.mod_pow_succ]
    congr 2
    ring

/-- Read one given character. -/
def lit (c : Nat) : List Nat → Option (List Nat)
  | x :: xs => if x = c then some xs else none
  | [] => none

@[simp] theorem lit_cons (c : Nat) (cs : List Nat) : lit c (c :: cs) = some cs := if_pos rfl

/-- The year, of four digits or of a sign and six. -/
def yearText (y : Int) : List Nat :=
  if 0 ≤ y ∧ y ≤ 9999 then digits 4 y.toNat
  else if y < 0 then 45 :: digits 6 y.natAbs
  else 43 :: digits 6 y.natAbs

def readYear : List Nat → Option (Int × List Nat)
  | [] => none
  | c :: cs =>
    if c = 45 then (readDigits 6 0 cs).map fun r => (-r.1, r.2)
    else if c = 43 then (readDigits 6 0 cs).map fun r => (r.1, r.2)
    else (readDigits 4 0 (c :: cs)).map fun r => (r.1, r.2)

theorem readYear_yearText {y : Int} (h₀ : -999999 ≤ y) (h₁ : y ≤ 999999) (rest : List Nat) :
    readYear (yearText y ++ rest) = some (y, rest) := by
  unfold yearText
  split
  · rename_i h
    have hfour := readDigits_digits 4 0 y.toNat rest
    have hfirst := Nat.mod_lt (y.toNat / 10 ^ 3) (show 0 < 10 by decide)
    rw [digits, List.cons_append] at hfour ⊢
    rw [readYear, if_neg (by omega), if_neg (by omega), hfour, Option.map_some]
    congr 2
    have hmod : y.toNat % 10 ^ 4 = y.toNat := Nat.mod_eq_of_lt (by omega)
    rw [hmod]
    omega
  · rename_i h
    have hmod : y.natAbs % 10 ^ 6 = y.natAbs := Nat.mod_eq_of_lt (by omega)
    split
    · rw [List.cons_append, readYear, if_pos rfl, readDigits_digits, hmod, Option.map_some]
      congr 2
      omega
    · rw [List.cons_append, readYear, if_neg (by decide), if_pos rfl, readDigits_digits, hmod,
        Option.map_some]
      congr 2
      omega

/-- `Date.prototype.toISOString` -/
def toISOString (t : Int) : List Nat :=
  let date := civil (t / 86400000)
  let ms := (t % 86400000).toNat
  yearText date.1 ++ 45 :: (digits 2 date.2.1.toNat ++ 45 :: (digits 2 date.2.2.toNat ++
    84 :: (digits 2 (ms / 3600000) ++ 58 :: (digits 2 (ms / 60000 % 60) ++
      58 :: (digits 2 (ms / 1000 % 60) ++ 46 :: (digits 3 (ms % 1000) ++ [90]))))))

/-- The moment a text of this form denotes. A text that is not the ISO text of a moment
denotes none, or one with another text. -/
def parse (cs : List Nat) : Option Int := do
  let (y, cs) ← readYear cs
  let cs ← lit 45 cs
  let (m, cs) ← readDigits 2 0 cs
  let cs ← lit 45 cs
  let (d, cs) ← readDigits 2 0 cs
  let cs ← lit 84 cs
  let (h, cs) ← readDigits 2 0 cs
  let cs ← lit 58 cs
  let (min, cs) ← readDigits 2 0 cs
  let cs ← lit 58 cs
  let (s, cs) ← readDigits 2 0 cs
  let cs ← lit 46 cs
  let (ms, cs) ← readDigits 3 0 cs
  let _ ← lit 90 cs
  return dayOf y m d * 86400000 + (h * 3600000 + min * 60000 + s * 1000 + ms : Nat)

/-- **The text of a moment denotes it.** -/
theorem parse_toISOString {t : Int} (h : Valid t) : parse (toISOString t) = some t := by
  obtain ⟨hm₁, hm₂, hd₁, hd₂⟩ := @civil_bounds (t / 86400000)
  have hvalid : -100000000 ≤ t / 86400000 ∧ t / 86400000 ≤ 100000000 := by
    unfold Valid maxTime at h
    omega
  obtain ⟨hy₁, hy₂⟩ := year_bounds hvalid.1 hvalid.2
  have hday := dayOf_civil (t / 86400000)
  have hms : (t % 86400000).toNat < 86400000 := by omega
  unfold parse toISOString
  simp only [readYear_yearText hy₁ hy₂, readDigits_digits, lit_cons, Option.bind_eq_bind,
    Option.bind_some, Option.pure_def, Nat.zero_mul, Nat.zero_add]
  generalize civil (t / 86400000) = date at *
  have h₁ : ((date.2.1.toNat % 10 ^ 2 : Nat) : Int) = date.2.1 := by omega
  have h₂ : ((date.2.2.toNat % 10 ^ 2 : Nat) : Int) = date.2.2 := by omega
  rw [h₁, h₂, hday]
  generalize hk : (t % 86400000).toNat = ms at *
  have hsum : ms / 3600000 % 10 ^ 2 * 3600000 + ms / 60000 % 60 % 10 ^ 2 * 60000 +
      ms / 1000 % 60 % 10 ^ 2 * 1000 + ms % 1000 % 10 ^ 3 = ms := by
    omega
  rw [hsum]
  congr 1
  omega

/-- Two moments with one text are one. -/
theorem toISOString_injective {t t' : Int} (h : Valid t) (h' : Valid t')
    (heq : toISOString t = toISOString t') : t = t' :=
  Option.some.inj ((parse_toISOString h).symm.trans (heq ▸ parse_toISOString h'))

/-! ### The text is plain -/

theorem digits_lt (width n : Nat) : ∀ c ∈ digits width n, c < 128 := by
  induction width with
  | zero =>
    intro c hc
    cases hc
  | succ width ih =>
    intro c hc
    rw [digits, List.mem_cons] at hc
    rcases hc with rfl | hc
    · omega
    · exact ih c hc

theorem toISOString_lt (t : Int) : ∀ c ∈ toISOString t, c < 128 := by
  have hyear : ∀ y, ∀ c ∈ yearText y, c < 128 := by
    intro y c hc
    unfold yearText at hc
    split at hc
    · exact digits_lt _ _ c hc
    · split at hc
      all_goals
        rw [List.mem_cons] at hc
        rcases hc with rfl | hc
        · decide
        · exact digits_lt _ _ c hc
  intro c hc
  simp only [toISOString, List.mem_append, List.mem_cons, List.not_mem_nil, or_false] at hc
  rcases hc with h | rfl | h | rfl | h | rfl | h | rfl | h | rfl | h | rfl | h | rfl
  · exact hyear _ c h
  all_goals
    first
      | decide
      | exact digits_lt _ _ c h

example : toISOString 1767225599999 = "2025-12-31T23:59:59.999Z".toList.map Char.toNat := by
  decide +kernel

end IsoDate
