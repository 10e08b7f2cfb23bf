/-
  StackLint.Proofs.Text.Utf8
  ──────────────────────────
  **WHAT IS WRITTEN IS READ.**

  A text can be written exactly when no surrogate stands alone in it, and its
  bytes are read as that text.  The four widths of a character are four cases
  of one argument: the first byte tells the width and the high bits, and each
  byte that continues it adds six more.
-/
import Mathlib
import StackLint.Text.Utf8

namespace StackLint

namespace Utf8

/-! ## §1. Bytes. -/

/-- The low bits of a byte are a remainder. -/
theorem toNat_and_low (b mask : UInt8) (bits : Nat) (h : mask.toNat = 2 ^ bits - 1) :
    (b &&& mask).toNat = b.toNat % 2 ^ bits := by
  rw [UInt8.toNat_and, h, Nat.and_two_pow_sub_one_eq_mod]

theorem toNat_ofNat_of_lt {n : Nat} (h : n < 256) : (UInt8.ofNat n).toNat = n := by
  rw [UInt8.toNat_ofNat']
  exact Nat.mod_eq_of_lt h

/-- The byte that continues a character with six of its bits. -/
def continuation (bits : Nat) : UInt8 :=
  UInt8.ofNat (0x80 + bits % 0x40)

theorem toNat_continuation (bits : Nat) : (continuation bits).toNat = 0x80 + bits % 0x40 :=
  toNat_ofNat_of_lt (by omega)

theorem isContinuation_continuation (bits : Nat) : isContinuation (continuation bits) = true := by
  have byte := toNat_continuation bits
  simp only [isContinuation, Bool.and_eq_true, decide_eq_true_eq, UInt8.le_iff_toNat_le, byte]
  exact ⟨by simp, by show 0x80 + bits % 0x40 ≤ 0xBF; omega⟩

/-- A continuation byte that is allowed adds its six bits. -/
theorem continued_continuation {allowed : UInt8 → Bool} {bits : Nat}
    (h : allowed (continuation bits) = true) (value seen missing : Nat) (rest : List UInt8) :
    continued allowed value seen (missing + 1) (continuation bits :: rest)
      = continued isContinuation (value * 0x40 + bits % 0x40) (seen + 1) missing rest := by
  have low : (continuation bits &&& 0x3F).toNat = bits % 0x40 := by
    rw [toNat_and_low _ 0x3F 6 rfl, toNat_continuation]
    omega
  rw [continued, if_pos h, low]

/-! ## §2. First bytes. -/

section
variable {first : UInt8}

theorem lengthOf_one (h : first.toNat < 0x80) : lengthOf first = some 1 := by
  have small : first < 0x80 := UInt8.lt_iff_toNat_lt.mpr h
  rw [lengthOf, if_pos small]

/-- The width of a character is told by the range of its first byte. -/
theorem lengthOf_two (low : 0xC2 ≤ first.toNat) (high : first.toNat ≤ 0xDF) :
    lengthOf first = some 2 := by
  simp only [lengthOf, UInt8.lt_iff_toNat_lt, UInt8.le_iff_toNat_le, Bool.and_eq_true,
    decide_eq_true_eq, UInt8.reduceToNat]
  rw [if_neg (by omega), if_pos ⟨low, high⟩]

theorem lengthOf_three (low : 0xE0 ≤ first.toNat) (high : first.toNat ≤ 0xEF) :
    lengthOf first = some 3 := by
  simp only [lengthOf, UInt8.lt_iff_toNat_lt, UInt8.le_iff_toNat_le, Bool.and_eq_true,
    decide_eq_true_eq, UInt8.reduceToNat]
  rw [if_neg (by omega), if_neg (by omega), if_pos ⟨low, high⟩]

theorem lengthOf_four (low : 0xF0 ≤ first.toNat) (high : first.toNat ≤ 0xF4) :
    lengthOf first = some 4 := by
  simp only [lengthOf, UInt8.lt_iff_toNat_lt, UInt8.le_iff_toNat_le, Bool.and_eq_true,
    decide_eq_true_eq, UInt8.reduceToNat]
  rw [if_neg (by omega), if_neg (by omega), if_neg (by omega), if_pos ⟨low, high⟩]

/-- The bits of a second byte that rule nothing out. -/
theorem secondAllowed_continuation {bits : Nat}
    (notShort : first.toNat = 0xE0 → 0x20 ≤ bits % 0x40)
    (notSurrogate : first.toNat = 0xED → bits % 0x40 < 0x20)
    (notShortFour : first.toNat = 0xF0 → 0x10 ≤ bits % 0x40)
    (notAbove : first.toNat = 0xF4 → bits % 0x40 < 0x10) :
    secondAllowed first (continuation bits) = true := by
  simp only [secondAllowed, isContinuation_continuation, Bool.true_and, beq_iff_eq,
    UInt8.lt_iff_toNat_lt, UInt8.le_iff_toNat_le, ← UInt8.toNat_inj, toNat_continuation,
    UInt8.reduceToNat]
  split
  · next h => exact decide_eq_true (by have := notShort h; omega)
  · split
    · next h => exact decide_eq_true (by have := notSurrogate h; omega)
    · split
      · next h => exact decide_eq_true (by have := notShortFour h; omega)
      · split
        · next h => exact decide_eq_true (by have := notAbove h; omega)
        · rfl

end

/-! ## §3. Characters. -/

section
variable {n : Nat}

/-- A character of one byte is its number. -/
theorem head_one (h : n < 0x80) (rest : List UInt8) :
    head (UInt8.ofNat n) rest = .point (CodePoint.ofNat n) 1 := by
  have first : (UInt8.ofNat n).toNat = n := toNat_ofNat_of_lt (by omega)
  rw [head, lengthOf_one (by omega)]
  show Head.point (CodePoint.ofNat (UInt8.ofNat n).toNat) 1 = _
  rw [first]

/-- Longer characters: the first byte has the highest bits. -/
theorem head_two (low : 0x80 ≤ n) (high : n < 0x800) (rest : List UInt8) :
    head (UInt8.ofNat (0xC0 + n / 0x40)) (continuation n :: rest)
      = .point (CodePoint.ofNat n) 2 := by
  have first : (UInt8.ofNat (0xC0 + n / 0x40)).toNat = 0xC0 + n / 0x40 :=
    toNat_ofNat_of_lt (by omega)
  generalize UInt8.ofNat (0xC0 + n / 0x40) = lead at first ⊢
  have bits : (lead &&& 0x1F).toNat = n / 0x40 := by
    rw [toNat_and_low _ 0x1F 5 rfl]
    omega
  have allowed : secondAllowed lead (continuation n) = true :=
    secondAllowed_continuation (by omega) (by omega) (by omega) (by omega)
  rw [head, lengthOf_two (by omega) (by omega)]
  show continued (secondAllowed lead) (lead &&& 0x1F).toNat 1 1 _ = _
  rw [bits, continued_continuation allowed, continued]
  congr 2
  omega

theorem head_three (low : 0x800 ≤ n) (high : n < 0x10000) (noSurrogate : n < 0xD800 ∨ 0xE000 ≤ n)
    (rest : List UInt8) :
    head (UInt8.ofNat (0xE0 + n / 0x1000)) (continuation (n / 0x40) :: continuation n :: rest)
      = .point (CodePoint.ofNat n) 3 := by
  have first : (UInt8.ofNat (0xE0 + n / 0x1000)).toNat = 0xE0 + n / 0x1000 :=
    toNat_ofNat_of_lt (by omega)
  generalize UInt8.ofNat (0xE0 + n / 0x1000) = lead at first ⊢
  have bits : (lead &&& 0x0F).toNat = n / 0x1000 := by
    rw [toNat_and_low _ 0x0F 4 rfl]
    omega
  have allowed : secondAllowed lead (continuation (n / 0x40)) = true :=
    secondAllowed_continuation (by omega) (by omega) (by omega) (by omega)
  rw [head, lengthOf_three (by omega) (by omega)]
  show continued (secondAllowed lead) (lead &&& 0x0F).toNat 1 2 _ = _
  rw [bits, continued_continuation allowed,
    continued_continuation (isContinuation_continuation n), continued]
  congr 2
  omega

theorem head_four (low : 0x10000 ≤ n) (high : n < 0x110000) (rest : List UInt8) :
    head (UInt8.ofNat (0xF0 + n / 0x40000))
        (continuation (n / 0x1000) :: continuation (n / 0x40) :: continuation n :: rest)
      = .point (CodePoint.ofNat n) 4 := by
  have first : (UInt8.ofNat (0xF0 + n / 0x40000)).toNat = 0xF0 + n / 0x40000 :=
    toNat_ofNat_of_lt (by omega)
  generalize UInt8.ofNat (0xF0 + n / 0x40000) = lead at first ⊢
  have bits : (lead &&& 0x07).toNat = n / 0x40000 := by
    rw [toNat_and_low _ 0x07 3 rfl]
    omega
  have allowed : secondAllowed lead (continuation (n / 0x1000)) = true :=
    secondAllowed_continuation (by omega) (by omega) (by omega) (by omega)
  rw [head, lengthOf_four (by omega) (by omega)]
  show continued (secondAllowed lead) (lead &&& 0x07).toNat 1 3 _ = _
  rw [bits, continued_continuation allowed,
    continued_continuation (isContinuation_continuation (n / 0x40)),
    continued_continuation (isContinuation_continuation n), continued]
  congr 2
  omega

end

theorem toNat_bounds (c : Char) : c.toNat < 0xD800 ∨ (0xE000 ≤ c.toNat ∧ c.toNat < 0x110000) := by
  have valid := c.valid
  show c.val.toNat < _ ∨ (_ ≤ c.val.toNat ∧ c.val.toNat < _)
  unfold UInt32.isValidChar Nat.isValidChar at valid
  omega

/-- A character is the code point of its number. -/
theorem ofNat_toNat (c : Char) : CodePoint.ofNat c.toNat = .scalar c := by
  have bounds := toNat_bounds c
  rw [CodePoint.ofNat, dif_neg (by omega), Char.ofNat_toNat]

/-- **The bytes of a character are read as that character,** whatever follows
them. -/
theorem head_encodePoint {c : CodePoint} {bytes : List UInt8} (h : encodePoint? c = some bytes)
    (rest : List UInt8) :
    ∃ first more, bytes = first :: more ∧ head first (more ++ rest) = .point c bytes.length := by
  cases c with
  | surrogate index => cases h
  | scalar c =>
      have bounds := toNat_bounds c
      rw [← ofNat_toNat c]
      simp only [encodePoint?, Nat.div_one] at h
      generalize c.toNat = n at h bounds ⊢
      split at h
      · next one =>
          cases h
          exact ⟨_, [], rfl, head_one one rest⟩
      · split at h
        · next two =>
            cases h
            exact ⟨_, [continuation n], rfl, head_two (by omega) two rest⟩
        · split at h
          · next three =>
              cases h
              exact ⟨_, [continuation (n / 0x40), continuation n], rfl,
                head_three (by omega) three (by omega) rest⟩
          · cases h
            exact ⟨_, [continuation (n / 0x1000), continuation (n / 0x40), continuation n], rfl,
              head_four (by omega) (by omega) rest⟩

/-! ## §4. Texts. -/

/-- Bytes that belong to the character before are passed over. -/
theorem decodeFrom_append (skipped rest : List UInt8) :
    decodeFrom skipped.length (skipped ++ rest) = decodeFrom 0 rest := by
  induction skipped with
  | nil => rfl
  | cons b skipped ih => exact ih

/-- A text has bytes exactly when no surrogate stands alone in it. -/
theorem encode?_eq_none_iff (t : Text) : encode? t = none ↔ Text.hasSurrogate t = true := by
  induction t with
  | nil => simp [encode?, Text.hasSurrogate]
  | cons c t ih =>
      cases c with
      | surrogate index => simp [encode?, encodePoint?, Text.hasSurrogate, CodePoint.isSurrogate]
      | scalar c =>
          have some_ : ∃ bytes, encodePoint? (.scalar c) = some bytes := by
            simp only [encodePoint?]
            repeat' split
            all_goals exact ⟨_, rfl⟩
          obtain ⟨bytes, point⟩ := some_
          have tail : Text.hasSurrogate (.scalar c :: t) = Text.hasSurrogate t := rfl
          rw [tail, ← ih, encode?, point]
          cases encode? t <;> simp

/-- **What is written is read:** the bytes of a text decode to that text. -/
theorem decode_encode {t : Text} {bytes : List UInt8} (h : encode? t = some bytes) :
    decode bytes = .ok t := by
  induction t generalizing bytes with
  | nil =>
      cases h
      rfl
  | cons c t ih =>
      rw [encode?] at h
      obtain ⟨point, hpoint, h⟩ := Option.bind_eq_some_iff.mp h
      obtain ⟨tail, htail, h⟩ := Option.bind_eq_some_iff.mp h
      cases h
      obtain ⟨first, more, rfl, read⟩ := head_encodePoint hpoint tail
      rw [decode, List.cons_append, decodeFrom, read]
      show (do let tail ← decodeFrom more.length (more ++ tail); return c :: tail) = _
      rw [decodeFrom_append, ← decode, ih htail]
      rfl

end Utf8

end StackLint
