import Mathlib.Data.List.Basic

/-!
# UTF-8

The UTF-8 bytes of a sequence of code points, and the decoder that never fails: a byte
that cannot continue the sequence read so far ends it with the replacement character
U+FFFD, and is then read on its own.

- `decode_encode`: decoding gives the scalar values back.
-/

namespace Utf8

/-- The code points UTF-8 can encode: no surrogates. -/
def Scalar (n : Nat) : Prop := n < 0xD800 ∨ 0xE000 ≤ n ∧ n < 0x110000

/-- The bytes of one code point. -/
def encodePoint (n : Nat) : List Nat :=
  if n < 0x80 then [n]
  else if n < 0x800 then [0xC0 + n / 64, 0x80 + n % 64]
  else if n < 0x10000 then [0xE0 + n / 4096, 0x80 + n / 64 % 64, 0x80 + n % 64]
  else [0xF0 + n / 262144, 0x80 + n / 4096 % 64, 0x80 + n / 64 % 64, 0x80 + n % 64]

def encode (text : List Nat) : List Nat :=
  text.flatMap encodePoint

/-- A sequence that is not finished: how many bytes it needs, the bounds of the next of
them, and the bits read so far. -/
structure Partial where
  needed : Nat
  lower : Nat
  upper : Nat
  bits : Nat

/-- A byte that starts a sequence. -/
def start (b : Nat) : List Nat × Option Partial :=
  if b < 0x80 then ([b], none)
  else if 0xC2 ≤ b ∧ b ≤ 0xDF then ([], some ⟨1, 0x80, 0xBF, b - 0xC0⟩)
  else if 0xE0 ≤ b ∧ b ≤ 0xEF then
    ([], some ⟨2, if b = 0xE0 then 0xA0 else 0x80, if b = 0xED then 0x9F else 0xBF, b - 0xE0⟩)
  else if 0xF0 ≤ b ∧ b ≤ 0xF4 then
    ([], some ⟨3, if b = 0xF0 then 0x90 else 0x80, if b = 0xF4 then 0x8F else 0xBF, b - 0xF0⟩)
  else ([0xFFFD], none)

/-- The code points a byte completes, and the sequence it leaves open. -/
def feed (p : Option Partial) (b : Nat) : List Nat × Option Partial :=
  match p with
  | none => start b
  | some p =>
    if p.lower ≤ b ∧ b ≤ p.upper then
      if p.needed = 1 then ([p.bits * 64 + (b - 0x80)], none)
      else ([], some ⟨p.needed - 1, 0x80, 0xBF, p.bits * 64 + (b - 0x80)⟩)
    else (0xFFFD :: (start b).1, (start b).2)

def decodeFrom : Option Partial → List Nat → List Nat
  | none, [] => []
  | some _, [] => [0xFFFD]
  | p, b :: bs => (feed p b).1 ++ decodeFrom (feed p b).2 bs

def decode (bs : List Nat) : List Nat := decodeFrom none bs

theorem encodePoint_lt {n : Nat} (h : Scalar n) : ∀ b ∈ encodePoint n, b < 256 := by
  unfold Scalar at h
  unfold encodePoint
  intro b hb
  split at hb
  · simp only [List.mem_singleton] at hb
    omega
  · split at hb
    · simp only [List.mem_cons, List.not_mem_nil, or_false] at hb
      omega
    · split at hb
      all_goals
        simp only [List.mem_cons, List.not_mem_nil, or_false] at hb
        omega

theorem encode_lt {text : List Nat} (h : ∀ n ∈ text, Scalar n) : ∀ b ∈ encode text, b < 256 := by
  intro b hb
  obtain ⟨n, hn, hb⟩ := List.mem_flatMap.mp hb
  exact encodePoint_lt (h n hn) b hb

/-- A byte within its bounds carries six bits on. -/
theorem feed_continues {p : Partial} {b : Nat} (hl : p.lower ≤ b) (hu : b ≤ p.upper)
    (hn : p.needed ≠ 1) :
    feed (some p) b = ([], some ⟨p.needed - 1, 0x80, 0xBF, p.bits * 64 + (b - 0x80)⟩) := by
  rw [feed, if_pos ⟨hl, hu⟩, if_neg hn]

/-- The last byte completes the code point. -/
theorem feed_completes {p : Partial} {b : Nat} (hl : p.lower ≤ b) (hu : b ≤ p.upper)
    (hn : p.needed = 1) : feed (some p) b = ([p.bits * 64 + (b - 0x80)], none) := by
  rw [feed, if_pos ⟨hl, hu⟩, if_pos hn]

/-- Decoding one encoded code point reads exactly its bytes. -/
theorem decodeFrom_encodePoint {n : Nat} (h : Scalar n) (bs : List Nat) :
    decodeFrom none (encodePoint n ++ bs) = n :: decodeFrom none bs := by
  unfold Scalar at h
  unfold encodePoint
  split
  · rename_i h₁
    simp [decodeFrom, feed, start, h₁]
  · split
    · rename_i h₁ h₂
      have hstart : start (0xC0 + n / 64) = ([], some ⟨1, 0x80, 0xBF, n / 64⟩) := by
        rw [start, if_neg (by omega), if_pos (by omega), Nat.add_sub_cancel_left]
      rw [List.cons_append, List.cons_append, List.nil_append, decodeFrom, feed, hstart]
      rw [decodeFrom, feed_completes (by dsimp only; omega) (by dsimp only; omega) rfl]
      have : n / 64 * 64 + (0x80 + n % 64 - 0x80) = n := by omega
      exact congrArg (· :: decodeFrom none bs) this
    · split
      · rename_i h₁ h₂ h₃
        have hstart : start (0xE0 + n / 4096) = ([], some ⟨2,
            if 0xE0 + n / 4096 = 0xE0 then 0xA0 else 0x80,
            if 0xE0 + n / 4096 = 0xED then 0x9F else 0xBF, n / 4096⟩) := by
          rw [start, if_neg (by omega), if_neg (by omega), if_pos (by omega),
            Nat.add_sub_cancel_left]
        rw [List.cons_append, List.cons_append, List.cons_append, List.nil_append, decodeFrom,
          feed, hstart]
        rw [decodeFrom, feed_continues (by dsimp only; split <;> omega)
          (by dsimp only; split <;> omega) (by simp)]
        rw [decodeFrom, feed_completes (by dsimp only; omega) (by dsimp only; omega) rfl]
        have : (n / 4096 * 64 + (0x80 + n / 64 % 64 - 0x80)) * 64 + (0x80 + n % 64 - 0x80) = n := by
          omega
        exact congrArg (· :: decodeFrom none bs) this
      · rename_i h₁ h₂ h₃
        have hstart : start (0xF0 + n / 262144) = ([], some ⟨3,
            if 0xF0 + n / 262144 = 0xF0 then 0x90 else 0x80,
            if 0xF0 + n / 262144 = 0xF4 then 0x8F else 0xBF, n / 262144⟩) := by
          rw [start, if_neg (by omega), if_neg (by omega), if_neg (by omega), if_pos (by omega),
            Nat.add_sub_cancel_left]
        rw [List.cons_append, List.cons_append, List.cons_append, List.cons_append,
          List.nil_append, decodeFrom, feed, hstart]
        rw [decodeFrom, feed_continues (by dsimp only; split <;> omega)
          (by dsimp only; split <;> omega) (by simp)]
        rw [decodeFrom, feed_continues (by dsimp only; omega) (by dsimp only; omega) (by simp)]
        rw [decodeFrom, feed_completes (by dsimp only; omega) (by dsimp only; omega) rfl]
        have : ((n / 262144 * 64 + (0x80 + n / 4096 % 64 - 0x80)) * 64 +
            (0x80 + n / 64 % 64 - 0x80)) * 64 + (0x80 + n % 64 - 0x80) = n := by
          omega
        exact congrArg (· :: decodeFrom none bs) this

/-- The decoder that refuses: the text whose bytes these are, if there is one. -/
def decodeFatal (bs : List Nat) : Option (List Nat) :=
  if encode (decode bs) = bs then some (decode bs) else none

theorem encode_of_decodeFatal {bs text : List Nat} (h : decodeFatal bs = some text) :
    encode text = bs := by
  unfold decodeFatal at h
  split at h
  · rename_i heq
    cases h
    exact heq
  · cases h

/-- **Decoding gives the text back.** -/
theorem decode_encode {text : List Nat} (h : ∀ n ∈ text, Scalar n) :
    decode (encode text) = text := by
  unfold decode
  induction text with
  | nil => rfl
  | cons n text ih =>
    rw [encode, List.flatMap_cons, decodeFrom_encodePoint (h n List.mem_cons_self)]
    exact congrArg (n :: ·) (ih fun m hm => h m (List.mem_cons_of_mem _ hm))

end Utf8
