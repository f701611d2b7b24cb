import Bookswap.Lib.Utf8

/-!
# Strings in JSON

A string is its list of UTF-16 code units, surrogates on their own included; a JSON text
is a list of code points. `stringifyPair` writes an array of two strings the way
`JSON.stringify` does, which escapes lone surrogates, and `parsePair` reads any JSON text
of such an array: white space around the tokens and all the escapes are accepted. A JSON
text of anything else is not read.

- `parsePair_stringifyPair`: reading gives the strings back.
- `stringifyPair_scalar`: the text has no surrogates.
-/

namespace JsonStrings

open Utf8 (Scalar)

def isHigh (u : Nat) : Prop := 0xD800 ≤ u ∧ u < 0xDC00

def isLow (u : Nat) : Prop := 0xDC00 ≤ u ∧ u < 0xE000

instance (u : Nat) : Decidable (isHigh u) := inferInstanceAs (Decidable (_ ∧ _))

instance (u : Nat) : Decidable (isLow u) := inferInstanceAs (Decidable (_ ∧ _))

/-- A UTF-16 code unit. -/
abbrev CodeUnit := Fin 0x10000

abbrev unit (n : Nat) : CodeUnit := Fin.ofNat 0x10000 n

/-- The code units of a code point. -/
def utf16 (c : Nat) : List CodeUnit :=
  if c < 0x10000 then [unit c]
  else [unit (0xD800 + (c - 0x10000) / 0x400), unit (0xDC00 + (c - 0x10000) % 0x400)]

/-! ### Writing -/

def hexDigit (n : Nat) : Nat := if n < 10 then 48 + n else 87 + n

/-- `\u` and four hexadecimal digits -/
def escape (u : Nat) : List Nat :=
  [92, 117, hexDigit (u / 4096), hexDigit (u / 256 % 16), hexDigit (u / 16 % 16),
    hexDigit (u % 16)]

/-- One code unit that is not part of a surrogate pair. -/
def single (u : Nat) : List Nat :=
  if u = 34 then [92, 34]
  else if u = 92 then [92, 92]
  else if u = 8 then [92, 98]
  else if u = 9 then [92, 116]
  else if u = 10 then [92, 110]
  else if u = 12 then [92, 102]
  else if u = 13 then [92, 114]
  else if u < 32 ∨ isHigh u ∨ isLow u then escape u
  else [u]

/-- The text between the quotes. -/
def quoteBody : List CodeUnit → List Nat
  | [] => []
  | [u] => single u
  | u :: v :: rest =>
    if isHigh u ∧ isLow v then
      (0x10000 + (u - 0xD800) * 0x400 + (v - 0xDC00)) :: quoteBody rest
    else single u ++ quoteBody (v :: rest)

/-- `JSON.stringify([a, b])` -/
def stringifyPair (a b : List CodeUnit) : List Nat :=
  91 :: 34 :: (quoteBody a ++ 34 :: 44 :: 34 :: (quoteBody b ++ [34, 93]))

/-! ### Reading -/

def hexValue (c : Nat) : Option Nat :=
  if 48 ≤ c ∧ c ≤ 57 then some (c - 48)
  else if 97 ≤ c ∧ c ≤ 102 then some (c - 87)
  else if 65 ≤ c ∧ c ≤ 70 then some (c - 55)
  else none

/-- The escapes of one character. -/
def unescape (c : Nat) : Option CodeUnit :=
  if c = 34 ∨ c = 92 ∨ c = 47 then some (unit c)
  else if c = 98 then some 8
  else if c = 116 then some 9
  else if c = 110 then some 10
  else if c = 102 then some 12
  else if c = 114 then some 13
  else none

def hexUnit (a b c d : Nat) : Option CodeUnit :=
  match hexValue a, hexValue b, hexValue c, hexValue d with
  | some a, some b, some c, some d => some (unit (a * 4096 + b * 256 + c * 16 + d))
  | _, _, _, _ => none

/-- Put code units in front of the string read after them. -/
def prepend (us : List CodeUnit) (r : List CodeUnit × List Nat) : List CodeUnit × List Nat :=
  (us ++ r.1, r.2)

/-- A string after its opening quote, and the text after its closing one. -/
def readBody : List Nat → Option (List CodeUnit × List Nat)
  | [] => none
  | c :: cs =>
    if c = 34 then some ([], cs)
    else if c = 92 then
      match cs with
      | [] => none
      | e :: cs =>
        if e = 117 then
          match cs with
          | x₁ :: x₂ :: x₃ :: x₄ :: cs =>
            match hexUnit x₁ x₂ x₃ x₄ with
            | some u => (readBody cs).map (prepend [u])
            | none => none
          | _ => none
        else
          match unescape e with
          | some u => (readBody cs).map (prepend [u])
          | none => none
    else if c < 32 then none
    else (readBody cs).map (prepend (utf16 c))

/-- White space of JSON. -/
def isSpace (c : Nat) : Bool := c == 32 || c == 9 || c == 10 || c == 13

/-- The token `c`, after white space. -/
def token (c : Nat) (cs : List Nat) : Option (List Nat) :=
  match cs.dropWhile isSpace with
  | [] => none
  | x :: xs => if x = c then some xs else none

def readString (cs : List Nat) : Option (List CodeUnit × List Nat) := (token 34 cs).bind readBody

/-- `JSON.parse`, for the texts of arrays of two strings. -/
def parsePair (cs : List Nat) : Option (List CodeUnit × List CodeUnit) := do
  let cs ← token 91 cs
  let (a, cs) ← readString cs
  let cs ← token 44 cs
  let (b, cs) ← readString cs
  let cs ← token 93 cs
  if cs.all isSpace then some (a, b) else none

/-! ### The round trip -/

theorem hexValue_hexDigit {n : Nat} (h : n < 16) : hexValue (hexDigit n) = some n := by
  have hall : ∀ n < 16, hexValue (hexDigit n) = some n := by decide
  exact hall n h

@[simp] theorem readBody_quote (cs : List Nat) : readBody (34 :: cs) = some ([], cs) := by
  rw [readBody.eq_def]
  exact if_pos rfl

theorem readBody_plain {c : Nat} (hq : c ≠ 34) (hb : c ≠ 92) (h : ¬c < 32) (cs : List Nat) :
    readBody (c :: cs) = (readBody cs).map (prepend (utf16 c)) := by
  rw [readBody.eq_def]
  dsimp only
  rw [if_neg hq, if_neg hb, if_neg h]

theorem readBody_short {e : Nat} {v : CodeUnit} (hv : unescape e = some v) (he : e ≠ 117) (cs : List Nat) :
    readBody (92 :: e :: cs) = (readBody cs).map (prepend [v]) := by
  rw [readBody.eq_def]
  dsimp only
  rw [if_neg (by decide), if_pos rfl, if_neg he, hv]

theorem readBody_escape (u : CodeUnit) (cs : List Nat) :
    readBody (escape u ++ cs) = (readBody cs).map (prepend [u]) := by
  obtain ⟨u, h⟩ := u
  have hunit : hexUnit (hexDigit (u / 4096)) (hexDigit (u / 256 % 16)) (hexDigit (u / 16 % 16))
      (hexDigit (u % 16)) = some ⟨u, h⟩ := by
    unfold hexUnit
    rw [hexValue_hexDigit (by omega), hexValue_hexDigit (by omega), hexValue_hexDigit (by omega),
      hexValue_hexDigit (by omega)]
    refine congrArg some (Fin.ext ?_)
    show (u / 4096 * 4096 + u / 256 % 16 * 256 + u / 16 % 16 * 16 + u % 16) % 0x10000 = u
    omega
  show readBody (92 :: 117 :: _ :: _ :: _ :: _ :: cs) = _
  rw [readBody.eq_def]
  dsimp only
  rw [if_neg (by decide), if_pos rfl, if_pos rfl, hunit]

/-- A code unit on its own is read back, however it is written. -/
theorem readBody_single (u : CodeUnit) (cs : List Nat) :
    readBody (single u ++ cs) = (readBody cs).map (prepend [u]) := by
  obtain ⟨u, h⟩ := u
  unfold single
  by_cases h₁ : u = 34
  · subst h₁
    rw [if_pos rfl]
    exact readBody_short (e := 34) rfl (by decide) cs
  rw [if_neg h₁]
  by_cases h₂ : u = 92
  · subst h₂
    rw [if_pos rfl]
    exact readBody_short (e := 92) rfl (by decide) cs
  rw [if_neg h₂]
  by_cases h₃ : u = 8
  · subst h₃
    rw [if_pos rfl]
    exact readBody_short (e := 98) rfl (by decide) cs
  rw [if_neg h₃]
  by_cases h₄ : u = 9
  · subst h₄
    rw [if_pos rfl]
    exact readBody_short (e := 116) rfl (by decide) cs
  rw [if_neg h₄]
  by_cases h₅ : u = 10
  · subst h₅
    rw [if_pos rfl]
    exact readBody_short (e := 110) rfl (by decide) cs
  rw [if_neg h₅]
  by_cases h₆ : u = 12
  · subst h₆
    rw [if_pos rfl]
    exact readBody_short (e := 102) rfl (by decide) cs
  rw [if_neg h₆]
  by_cases h₇ : u = 13
  · subst h₇
    rw [if_pos rfl]
    exact readBody_short (e := 114) rfl (by decide) cs
  rw [if_neg h₇]
  by_cases h₈ : u < 32 ∨ isHigh u ∨ isLow u
  · rw [if_pos h₈]
    exact readBody_escape ⟨u, h⟩ cs
  · have hunit : unit u = ⟨u, h⟩ := Fin.ext (Nat.mod_eq_of_lt h)
    rw [if_neg h₈, List.cons_append, List.nil_append,
      readBody_plain h₁ h₂ fun hlt => h₈ (Or.inl hlt), utf16, if_pos h, hunit]

/-- Reading what was written gives the string and the text after it. -/
theorem readBody_quoteBody (s : List CodeUnit) (rest : List Nat) :
    readBody (quoteBody s ++ 34 :: rest) = some (s, rest) := by
  induction s using quoteBody.induct with
  | case1 => exact readBody_quote rest
  | case2 u =>
    rw [quoteBody, readBody_single, readBody_quote]
    rfl
  | case3 u v s hpair ih =>
    -- a surrogate pair is one code point
    obtain ⟨⟨hu₁, hu₂⟩, hv₁, hv₂⟩ := hpair
    have hback : utf16 (0x10000 + (u.val - 0xD800) * 0x400 + (v.val - 0xDC00)) = [u, v] := by
      have h₁ : unit (0xD800 +
          (0x10000 + (u.val - 0xD800) * 0x400 + (v.val - 0xDC00) - 0x10000) / 0x400) = u := by
        apply Fin.ext
        show _ % 0x10000 = u.val
        omega
      have h₂ : unit (0xDC00 +
          (0x10000 + (u.val - 0xD800) * 0x400 + (v.val - 0xDC00) - 0x10000) % 0x400) = v := by
        apply Fin.ext
        show _ % 0x10000 = v.val
        omega
      rw [utf16, if_neg (by omega), h₁, h₂]
    rw [quoteBody, if_pos ⟨⟨hu₁, hu₂⟩, hv₁, hv₂⟩, List.cons_append,
      readBody_plain (by omega) (by omega) (by omega), ih, hback]
    rfl
  | case4 u v s hpair ih =>
    rw [quoteBody, if_neg hpair, List.append_assoc, readBody_single, ih]
    rfl

/-- **Reading gives the strings back.** -/
theorem parsePair_stringifyPair (a b : List CodeUnit) :
    parsePair (stringifyPair a b) = some (a, b) := by
  have htoken : ∀ c cs, isSpace c = false → token c (c :: cs) = some cs := by
    intro c cs hc
    rw [token, List.dropWhile_cons_of_neg (by rw [hc]; exact Bool.false_ne_true)]
    exact if_pos rfl
  have hread : ∀ s rest, readString (34 :: (quoteBody s ++ 34 :: rest)) = some (s, rest) := by
    intro s rest
    rw [readString, htoken 34 _ rfl]
    exact readBody_quoteBody s rest
  unfold parsePair stringifyPair
  simp only [htoken 91 _ rfl, htoken 44 _ rfl, htoken 93 _ rfl, hread,
    Option.bind_eq_bind, Option.bind_some, List.all_nil, if_true]

/-! ### What is written is well formed -/

theorem single_scalar {u : Nat} (h : u < 0x10000) : ∀ c ∈ single u, Scalar c := by
  have hhex : ∀ n, n < 16 → hexDigit n < 0xD800 := by
    intro n hn
    unfold hexDigit
    split <;> omega
  intro c hc
  by_cases hshort : u ∈ [34, 92, 8, 9, 10, 12, 13]
  · have hall : ∀ u ∈ [34, 92, 8, 9, 10, 12, 13], ∀ c ∈ single u, c < 128 := by decide
    have hlt := hall u hshort c hc
    unfold Scalar
    omega
  · simp only [List.mem_cons, List.not_mem_nil, or_false, not_or] at hshort
    obtain ⟨h₁, h₂, h₃, h₄, h₅, h₆, h₇⟩ := hshort
    rw [single, if_neg h₁, if_neg h₂, if_neg h₃, if_neg h₄, if_neg h₅, if_neg h₆, if_neg h₇] at hc
    split at hc
    · unfold escape at hc
      simp only [List.mem_cons, List.not_mem_nil, or_false] at hc
      have hx₁ := hhex (u / 4096) (by omega)
      have hx₂ := hhex (u / 256 % 16) (by omega)
      have hx₃ := hhex (u / 16 % 16) (by omega)
      have hx₄ := hhex (u % 16) (by omega)
      unfold Scalar
      omega
    · rename_i hplain
      rw [List.mem_singleton] at hc
      unfold isHigh isLow at hplain
      unfold Scalar
      omega

theorem quoteBody_scalar (s : List CodeUnit) : ∀ c ∈ quoteBody s, Scalar c := by
  induction s using quoteBody.induct with
  | case1 =>
    intro c hc
    cases hc
  | case2 u => exact single_scalar u.isLt
  | case3 u v s hpair ih =>
    intro c hc
    rw [quoteBody, if_pos hpair, List.mem_cons] at hc
    rcases hc with hc | hc
    · obtain ⟨⟨hu₁, hu₂⟩, hv₁, hv₂⟩ := hpair
      unfold Scalar
      omega
    · exact ih c hc
  | case4 u v s hpair ih =>
    intro c hc
    rw [quoteBody, if_neg hpair, List.mem_append] at hc
    rcases hc with hc | hc
    · exact single_scalar u.isLt c hc
    · exact ih c hc

theorem stringifyPair_scalar (a b : List CodeUnit) :
    ∀ c ∈ stringifyPair a b, Scalar c := by
  intro c hc
  simp only [stringifyPair, List.mem_cons, List.mem_append, List.not_mem_nil, or_false] at hc
  rcases hc with hc | hc | hc | hc | hc | hc | hc | hc | hc
  · unfold Scalar; omega
  · unfold Scalar; omega
  · exact quoteBody_scalar a c hc
  · unfold Scalar; omega
  · unfold Scalar; omega
  · unfold Scalar; omega
  · exact quoteBody_scalar b c hc
  · unfold Scalar; omega
  · unfold Scalar; omega

end JsonStrings
