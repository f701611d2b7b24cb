import Mathlib.Data.List.Basic
import Mathlib.Data.List.TakeWhile

/-!
# Base64url

The base64url text of a sequence of bytes, without padding, and the lenient decoding:
both alphabets are accepted, the decoding stops at the first `=`, any other character is
skipped, and the bits left over at the end are dropped.

- `decode_encode`: decoding gives the bytes back.
- `encode_not_pad`: the text has no `=`.
-/

namespace Base64Url

/-- The character of six bits. -/
def charOf (n : Nat) : Char :=
  if n < 26 then Char.ofNat (65 + n)
  else if n < 52 then Char.ofNat (97 + (n - 26))
  else if n < 62 then Char.ofNat (48 + (n - 52))
  else if n = 62 then '-'
  else '_'

/-- The six bits of a character of either alphabet. -/
def sextet (c : Char) : Option Nat :=
  if 'A' ≤ c ∧ c ≤ 'Z' then some (c.toNat - 65)
  else if 'a' ≤ c ∧ c ≤ 'z' then some (c.toNat - 97 + 26)
  else if '0' ≤ c ∧ c ≤ '9' then some (c.toNat - 48 + 52)
  else if c = '-' ∨ c = '+' then some 62
  else if c = '_' ∨ c = '/' then some 63
  else none

/-- The groups of six bits of the bytes. -/
def sextets : List Nat → List Nat
  | a :: b :: c :: rest =>
    [a / 4, a % 4 * 16 + b / 16, b % 16 * 4 + c / 64, c % 64] ++ sextets rest
  | [a, b] => [a / 4, a % 4 * 16 + b / 16, b % 16 * 4]
  | [a] => [a / 4, a % 4 * 16]
  | [] => []

/-- The whole bytes of groups of six bits. -/
def bytes : List Nat → List Nat
  | a :: b :: c :: d :: rest =>
    [a * 4 + b / 16, b % 16 * 16 + c / 4, c % 4 * 64 + d] ++ bytes rest
  | [a, b, c] => [a * 4 + b / 16, b % 16 * 16 + c / 4]
  | [a, b] => [a * 4 + b / 16]
  | _ => []

def encode (bs : List Nat) : List Char :=
  (sextets bs).map charOf

def decode (cs : List Char) : List Nat :=
  bytes ((cs.takeWhile (· ≠ '=')).filterMap sextet)

theorem sextet_charOf {n : Nat} (h : n < 64) : sextet (charOf n) = some n := by
  have hall : ∀ n < 64, sextet (charOf n) = some n := by decide
  exact hall n h

theorem charOf_ne_pad {n : Nat} (h : n < 64) : charOf n ≠ '=' := by
  have hall : ∀ n < 64, charOf n ≠ '=' := by decide
  exact hall n h

theorem sextets_lt (bs : List Nat) (h : ∀ b ∈ bs, b < 256) : ∀ n ∈ sextets bs, n < 64 := by
  induction bs using sextets.induct with
  | case1 a b c rest ih =>
    have ha := h a (by simp)
    have hb := h b (by simp)
    have hc := h c (by simp)
    intro n hn
    rw [sextets, List.mem_append] at hn
    rcases hn with hn | hn
    · simp only [List.mem_cons, List.not_mem_nil, or_false] at hn
      omega
    · exact ih (fun x hx => h x (by simp [hx])) n hn
  | case2 a b =>
    have ha := h a (by simp)
    have hb := h b (by simp)
    intro n hn
    simp only [sextets, List.mem_cons, List.not_mem_nil, or_false] at hn
    omega
  | case3 a =>
    have ha := h a (by simp)
    intro n hn
    simp only [sextets, List.mem_cons, List.not_mem_nil, or_false] at hn
    omega
  | case4 =>
    intro n hn
    cases hn

theorem bytes_sextets (bs : List Nat) (h : ∀ b ∈ bs, b < 256) : bytes (sextets bs) = bs := by
  induction bs using sextets.induct with
  | case1 a b c rest ih =>
    have hb := h b (by simp)
    have hc := h c (by simp)
    rw [sextets, List.cons_append, List.cons_append, List.cons_append, List.cons_append,
      List.nil_append, bytes, ih fun x hx => h x (by simp [hx])]
    have h₁ : a / 4 * 4 + (a % 4 * 16 + b / 16) / 16 = a := by omega
    have h₂ : (a % 4 * 16 + b / 16) % 16 * 16 + (b % 16 * 4 + c / 64) / 4 = b := by omega
    have h₃ : (b % 16 * 4 + c / 64) % 4 * 64 + c % 64 = c := by omega
    rw [h₁, h₂, h₃]
    rfl
  | case2 a b =>
    have hb := h b (by simp)
    have h₁ : a / 4 * 4 + (a % 4 * 16 + b / 16) / 16 = a := by omega
    have h₂ : (a % 4 * 16 + b / 16) % 16 * 16 + b % 16 * 4 / 4 = b := by omega
    rw [sextets, bytes, h₁, h₂]
  | case3 a =>
    have h₁ : a / 4 * 4 + a % 4 * 16 / 16 = a := by omega
    rw [sextets, bytes, h₁]
  | case4 => rfl

theorem encode_not_pad {bs : List Nat} (h : ∀ b ∈ bs, b < 256) : '=' ∉ encode bs := by
  intro hpad
  obtain ⟨n, hn, heq⟩ := List.mem_map.mp hpad
  exact charOf_ne_pad (sextets_lt bs h n hn) heq

/-- **Decoding gives the bytes back.** -/
theorem decode_encode {bs : List Nat} (h : ∀ b ∈ bs, b < 256) : decode (encode bs) = bs := by
  have hall : (encode bs).takeWhile (· ≠ '=') = encode bs :=
    List.takeWhile_eq_self_iff.mpr fun c hc =>
      decide_eq_true fun hpad => encode_not_pad h (hpad ▸ hc)
  have hback : (encode bs).filterMap sextet = sextets bs := by
    unfold encode
    rw [List.filterMap_map]
    have hsome : ∀ n ∈ sextets bs, (sextet ∘ charOf) n = some n :=
      fun n hn => sextet_charOf (sextets_lt bs h n hn)
    rw [List.filterMap_congr hsome, List.filterMap_some]
  rw [decode, hall, hback, bytes_sextets bs h]

end Base64Url
