/-
  StackLint.Proofs.Token.Local
  ────────────────────────────
  **A LEXEME DEPENDS ON LITTLE BEHIND IT.**

  When the scanner comes to the end of a text `b` exactly, it has hardly looked
  at what follows: another text may follow instead, and everything up to there
  is read as before.  The two texts have to begin alike, so that no lexeme goes on
  into the second one that ended in front of the first, and a slash in `b` that
  began no regular expression must not begin one now.

  The conditions are collected in `Scan.Joint` and, with those on slashes, in
  `Scan.Seam`.
-/
import Mathlib.Data.List.TakeWhile
import StackLint.Proofs.Token.Cut

namespace StackLint

namespace Scan

/-! ## §1. Seams. -/

/-- Characters with which a numeral, a punctuator or a comment may go on, and
those that begin a line that names an interpreter. -/
def continuers : Text :=
  ".=><&|?*+-/_neExXbBoO#!"

/-- **Where one text ends and another one begins.**  Of the other text there are
two versions, `c :: x` and `d :: y`; whatever ends in front of the first ends in
front of the second, too, regular expressions apart. -/
structure Joint (c : CodePoint) (x : Text) (d : CodePoint) (y : Text) : Prop where
  /-- A digit gives way to nothing that a name goes on with. -/
  digit : c.isDigit = true → isFlag d = false
  notDigit' : d.isDigit = false
  plain : d ∉ continuers
  flag : isFlag d = true → isFlag c = true
  hex : d.hexValue.isSome = true → c.hexValue.isSome = true

/-- **No braced escape in `b`** that the first text leaves open is closed by the second one. -/
def EscapesStay (b : Text) (c : CodePoint) (x : Text) (d : CodePoint) (y : Text) : Prop :=
  .scalar '\\' ∈ b → .scalar '}' ∈ d :: y → .scalar '}' ∈ c :: x

/-- **No slash in `b` turns into the beginning of a regular expression:** one that is not
closed in the first text is not closed in the second one, also when `b` escapes the first
character behind it. -/
structure StaysOpen (b : Text) (c : CodePoint) (x : Text) (d : CodePoint) (y : Text) : Prop where
  regex : ∀ inClass, regexWidth? inClass (c :: x) = none → regexWidth? inClass (d :: y) = none
  escaped : b.getLast? = some (.scalar '\\') →
    ∀ inClass, regexWidth? inClass x = none → regexWidth? inClass y = none

/-- A joint on one line at which no slash turns into the beginning of a regular expression. -/
structure Seam (c : CodePoint) (x : Text) (d : CodePoint) (y : Text) : Prop
    extends Joint c x d y where
  notNewline : c ≠ .scalar '\n'
  /-- The second text closes no braced escape that the first one leaves open. -/
  brace : .scalar '}' ∈ d :: y → .scalar '}' ∈ c :: x
  /-- A regular expression that is not closed in the first text is not closed in
  the second one, also behind an escaped first character. -/
  regex : ∀ inClass, regexWidth? inClass (c :: x) = none → regexWidth? inClass (d :: y) = none
  regexEscaped : ∀ inClass, regexWidth? inClass x = none → regexWidth? inClass y = none

theorem EscapesStay.tail {b x y : Text} {c d e : CodePoint} (escapes : EscapesStay (e :: b) c x d y) :
    EscapesStay b c x d y :=
  fun inside => escapes (List.mem_cons_of_mem e inside)

theorem EscapesStay.drop {b x y : Text} {c d : CodePoint} (escapes : EscapesStay b c x d y)
    (count : Nat) : EscapesStay (b.drop count) c x d y :=
  fun inside => escapes (List.mem_of_mem_drop inside)

theorem StaysOpen.tail {b x y : Text} {c d e : CodePoint} (stays : StaysOpen (e :: b) c x d y) :
    StaysOpen b c x d y := by
  refine ⟨stays.regex, fun last => stays.escaped ?_⟩
  rw [List.getLast?_cons, last]
  rfl

theorem StaysOpen.drop {b x y : Text} {c d : CodePoint} (stays : StaysOpen b c x d y) (count : Nat) :
    StaysOpen (b.drop count) c x d y := by
  induction count generalizing b with
  | zero => exact stays
  | succ count ih =>
      cases b with
      | nil => exact stays
      | cons e b => exact ih stays.tail

theorem Seam.staysOpen {x y : Text} {c d : CodePoint} (seam : Seam c x d y) (b : Text) :
    StaysOpen b c x d y :=
  ⟨seam.regex, fun _ => seam.regexEscaped⟩

/-! ## §2. Runs. -/

theorem runLength_append (p : CodePoint → Bool) (b x : Text) :
    runLength p (b ++ x) = if b.all p then b.length + runLength p x else runLength p b := by
  unfold runLength
  rw [List.takeWhile_append]
  by_cases all : b.all p = true
  · have whole : b.takeWhile p = b := List.takeWhile_eq_self_iff.mpr (List.all_eq_true.mp all)
    simp [whole, all]
  · have part : (b.takeWhile p).length ≠ b.length := by
      intro same
      have whole : b.takeWhile p = b := (List.takeWhile_prefix p).eq_of_length same
      have stays : (b.takeWhile p).all p = true := List.all_takeWhile
      rw [whole] at stays
      exact all stays
    simp [part, all]

theorem runLength_cons_neg {p : CodePoint → Bool} {c : CodePoint} (h : p c = false) (x : Text) :
    runLength p (c :: x) = 0 := by
  simp [runLength, h]

theorem runLength_cons_pos {p : CodePoint → Bool} {c : CodePoint} (h : p c = true) (x : Text) :
    runLength p (c :: x) = runLength p x + 1 := by
  simp [runLength, h]

variable {b x y : Text} {c d : CodePoint}

/-- A run that ends in `b` ends there whatever follows. -/
theorem runLength_local {p : CodePoint → Bool} (kin : p d = true → p c = true)
    (inside : runLength p (b ++ c :: x) ≤ b.length) :
    runLength p (b ++ d :: y) = runLength p (b ++ c :: x) := by
  rw [runLength_append] at inside ⊢
  rw [runLength_append]
  by_cases all : b.all p = true
  · rw [if_pos all] at inside ⊢
    have stopped : p c = false := by
      rw [Bool.eq_false_iff]
      intro goesOn
      rw [runLength_cons_pos goesOn] at inside
      omega
    have stopped' : p d = false := by
      rw [Bool.eq_false_iff]
      intro goesOn
      rw [kin goesOn] at stopped
      cases stopped
    rw [if_pos all, runLength_cons_neg stopped, runLength_cons_neg stopped']
  · rw [if_neg all, if_neg all]

/-- A line that ends in `b` ends there whatever follows. -/
theorem lineLength_local (inside : runLength (· != (.scalar '\n')) (b ++ c :: x) ≤ b.length)
    (line : c = .scalar '\n' → runLength (· != (.scalar '\n')) (b ++ c :: x) < b.length) :
    runLength (· != (.scalar '\n')) (b ++ d :: y) = runLength (· != (.scalar '\n')) (b ++ c :: x) := by
  by_cases atNewline : c = .scalar '\n'
  · -- The newline stands further in front.
    have strict := line atNewline
    rw [runLength_append] at strict ⊢
    rw [runLength_append]
    by_cases all : b.all (· != (CodePoint.scalar '\n')) = true
    · rw [if_pos all] at strict
      omega
    · rw [if_neg all, if_neg all]
  · exact runLength_local (fun _ => bne_iff_ne.mpr atNewline) inside

/-! ## §3. Names and numerals. -/

theorem isDecimal_of_isDigit (h : c.isDigit = false) : c.isDecimal = false := by
  unfold CodePoint.isDigit at h
  exact (Bool.or_eq_false_iff.mp h).1

namespace Joint

variable (seam : Joint c x d y)

include seam

theorem ne_of_mem {e : CodePoint} (h : e ∈ continuers) : d ≠ e := by
  intro same
  exact seam.plain (same ▸ h)

theorem nameWidth_zero (h : nameWidth (c :: x) = 0) : nameWidth (d :: y) = 0 := by
  simp only [nameWidth] at h ⊢
  split at h
  · omega
  · next noName =>
      rw [if_neg]
      intro isName
      have isFlag_d : isFlag d = true := by
        rcases isName with rfl | ⟨word, _⟩
        · rfl
        · unfold isFlag
          rw [word, Bool.true_or]
      have isFlag_c := seam.flag isFlag_d
      unfold isFlag at isFlag_c
      rw [Bool.or_eq_true, beq_iff_eq] at isFlag_c
      have notDigit : c.isDigit = false := by
        rw [Bool.eq_false_iff]
        intro isDigit
        rw [seam.digit isDigit] at isFlag_d
        cases isFlag_d
      have notDecimal := isDecimal_of_isDigit notDigit
      rcases isFlag_c with word | dollar
      · exact noName (.inr ⟨word, by simp [notDecimal]⟩)
      · exact noName (.inl dollar)

theorem nameWidth_local (inside : nameWidth (b ++ c :: x) ≤ b.length) :
    nameWidth (b ++ d :: y) = nameWidth (b ++ c :: x) := by
  cases b with
  | nil =>
      rw [List.nil_append] at inside ⊢
      have zero : nameWidth (c :: x) = 0 := Nat.le_zero.mp inside
      rw [List.nil_append, zero, seam.nameWidth_zero zero]
  | cons e b =>
      simp only [List.cons_append, nameWidth] at inside ⊢
      split at inside
      · next isName =>
          rw [List.length_cons] at inside
          rw [if_pos isName, if_pos isName,
            runLength_local (c := c) (x := x) seam.flag (by omega)]
      · next noName => rw [if_neg noName, if_neg noName]

end Joint

end Scan

namespace Number

open Scan (Joint continuers runLength_local isDecimal_of_isDigit runLength_cons_neg)

variable {b x y : Text} {c d : CodePoint}

/-- Without anything in front of the seam there is no `n`. -/
theorem suffixWidth_seam (seam : Joint c x d y) : suffixWidth (d :: y) = 0 := by
  have notSuffix : d ≠ .scalar 'n' := seam.ne_of_mem (by decide)
  simp only [suffixWidth, notSuffix, if_false]

theorem suffixWidth_local (seam : Joint c x d y)
    (inside : suffixWidth (b ++ c :: x) ≤ b.length) :
    suffixWidth (b ++ d :: y) = suffixWidth (b ++ c :: x) := by
  cases b with
  | nil =>
      have none : suffixWidth (c :: x) = 0 := Nat.le_zero.mp inside
      rw [List.nil_append, List.nil_append, none, suffixWidth_seam seam]
  | cons e b => rfl

/-- No exponent begins at the seam. -/
theorem exponentWidth_seam (seam : Joint c x d y) : exponentWidth (d :: y) = 0 := by
  have notSmall : d ≠ .scalar 'e' := seam.ne_of_mem (by decide)
  have notLarge : d ≠ .scalar 'E' := seam.ne_of_mem (by decide)
  simp only [exponentWidth, notSmall, notLarge, or_self, if_false]

theorem exponentWidth_local (seam : Joint c x d y)
    (inside : exponentWidth (b ++ c :: x) ≤ b.length) :
    exponentWidth (b ++ d :: y) = exponentWidth (b ++ c :: x) := by
  have notDecimal : d.isDecimal = true → c.isDecimal = true := by
    rw [isDecimal_of_isDigit seam.notDigit']
    exact fun never => nomatch never
  cases b with
  | nil =>
      have none : exponentWidth (c :: x) = 0 := Nat.le_zero.mp inside
      rw [List.nil_append, List.nil_append, none, exponentWidth_seam seam]
  | cons e b =>
      simp only [List.cons_append, exponentWidth] at inside ⊢
      by_cases isMark : e = .scalar 'e' ∨ e = .scalar 'E'
      · rw [if_pos isMark] at inside ⊢
        rw [if_pos isMark]
        cases b with
        | nil =>
            -- Neither a sign nor a digit follows the letter.
            have notPlus : d ≠ .scalar '+' := seam.ne_of_mem (by decide)
            have notMinus : d ≠ .scalar '-' := seam.ne_of_mem (by decide)
            have none : runLength CodePoint.isDecimal (d :: y) = 0 :=
              runLength_cons_neg (isDecimal_of_isDigit seam.notDigit') y
            simp only [List.nil_append, List.length_cons, List.length_nil] at inside
            simp only [List.nil_append, notPlus, notMinus, or_self, if_false, List.drop_zero,
              none, if_true]
            generalize (if c = .scalar '+' ∨ c = .scalar '-' then 1 else 0) = sign at inside ⊢
            split at inside
            · next zero => rw [if_pos zero]
            · omega
        | cons s b =>
            simp only [List.cons_append, List.length_cons] at inside ⊢
            by_cases isSign : s = .scalar '+' ∨ s = .scalar '-'
            · simp only [isSign, if_true, List.drop_succ_cons, List.drop_zero] at inside ⊢
              rw [runLength_local (c := c) (x := x) notDecimal]
              split at inside <;> omega
            · simp only [isSign, if_false, List.drop_zero] at inside ⊢
              rw [← List.cons_append, ← List.cons_append,
                runLength_local (c := c) (x := x) notDecimal]
              rw [← List.cons_append] at inside
              rw [List.length_cons]
              split at inside <;> omega
      · rw [if_neg isMark, if_neg isMark]

/-- Neither digits nor an underscore begin at the seam. -/
theorem isDigitOrUnderscore_seam (seam : Joint c x d y) : isDigitOrUnderscore d = false := by
  have notUnderscore : d ≠ .scalar '_' := seam.ne_of_mem (by decide)
  unfold isDigitOrUnderscore
  rw [isDecimal_of_isDigit seam.notDigit', Bool.false_or, beq_eq_false_iff_ne]
  exact notUnderscore

theorem mantissaWidth?_local (seam : Joint c x d y) {width : Nat}
    (found : mantissaWidth? (b ++ c :: x) = some width) (inside : width ≤ b.length) :
    mantissaWidth? (b ++ d :: y) = some width := by
  have positive := (mantissaWidth?_bounds found).1
  have kin : isDigitOrUnderscore d = true → isDigitOrUnderscore c = true := by
    rw [isDigitOrUnderscore_seam seam]
    exact fun never => nomatch never
  cases b with
  | nil =>
      rw [List.length_nil] at inside
      omega
  | cons e b =>
      rw [List.length_cons] at inside
      simp only [List.cons_append, mantissaWidth?] at found ⊢
      by_cases decimal : e.isDecimal = true
      · rw [if_pos decimal] at found ⊢
        -- The integer part ends in `b`, so what follows it is the same.
        have whole : runLength isDigitOrUnderscore (b ++ c :: x) ≤ b.length := by
          split at found
          · split at found <;> (cases found; omega)
          · cases found
            omega
        rw [runLength_local kin whole]
        rw [List.drop_append_of_le_length whole] at found ⊢
        cases behind : b.drop (runLength isDigitOrUnderscore (b ++ c :: x)) with
        | nil =>
            have notPoint : d ≠ .scalar '.' := seam.ne_of_mem (by decide)
            have all := List.drop_eq_nil_iff.mp behind
            rw [behind] at found
            simp only [List.nil_append, notPoint, if_false] at found ⊢
            split at found
            · cases found
              omega
            · exact found
        | cons point after =>
            have length := congrArg List.length behind
            rw [List.length_drop, List.length_cons] at length
            rw [behind] at found
            simp only [List.cons_append] at found ⊢
            split at found
            · next isPoint =>
                rw [if_pos isPoint, runLength_local (c := c) (x := x) kin]
                · exact found
                · cases found
                  omega
            · next notPoint =>
                rw [if_neg notPoint]
                exact found
      · rw [if_neg decimal] at found ⊢
        split at found
        · next isPoint =>
            rw [if_pos isPoint]
            cases b with
            | nil =>
                -- A digit behind the point would belong to the mantissa.
                simp only [List.nil_append, List.length_nil] at found inside
                split at found
                · cases found
                  omega
                · cases found
            | cons f b =>
                simp only [List.cons_append, List.length_cons] at found inside ⊢
                split at found
                · next isDecimal =>
                    rw [if_pos isDecimal, runLength_local (c := c) (x := x) kin]
                    · exact found
                    · cases found
                      omega
                · cases found
        · cases found

/-- Whatever the base of an integer is, its digits do not go on at the seam. -/
theorem radixDigit?_seam (seam : Joint c x d y) {mark : CodePoint} {isDigit : CodePoint → Bool}
    (found : radixDigit? mark = some isDigit) : isDigit d = true → isDigit c = true := by
  have notDecimal := isDecimal_of_isDigit seam.notDigit'
  have notUnderscore : (d == .scalar '_') = false :=
    beq_eq_false_iff_ne.mpr (seam.ne_of_mem (by decide))
  have notAscii : (0x30 ≤ d.val ∧ d.val ≤ 0x39) → False := by
    intro range
    unfold CodePoint.isDecimal CodePoint.isAsciiDigit at notDecimal
    rw [if_pos (by omega)] at notDecimal
    simp at notDecimal
    omega
  unfold radixDigit? at found
  split at found
  · cases found
    simp only [notUnderscore, Bool.or_false, Bool.or_eq_true]
    exact fun isHex => .inl (seam.hex isHex)
  · split at found
    · cases found
      simp only [notUnderscore, Bool.or_false, Bool.or_eq_true, beq_iff_eq]
      intro isBinary
      rcases isBinary with rfl | rfl
      · exact absurd (by decide) notAscii
      · exact absurd (by decide) notAscii
    · split at found
      · cases found
        simp only [notUnderscore, Bool.or_false, Bool.and_eq_true, decide_eq_true_eq]
        intro isOctal
        exact absurd ⟨isOctal.1, by omega⟩ notAscii
      · cases found

theorem radixDigit?_mark (seam : Joint c x d y) : radixDigit? d = none := by
  have notMark : d ≠ .scalar 'x' ∧ d ≠ .scalar 'X' ∧ d ≠ .scalar 'b' ∧ d ≠ .scalar 'B'
      ∧ d ≠ .scalar 'o' ∧ d ≠ .scalar 'O' := by
    refine ⟨?_, ?_, ?_, ?_, ?_, ?_⟩ <;> exact seam.ne_of_mem (by decide)
  obtain ⟨x, upperX, b, upperB, o, upperO⟩ := notMark
  simp only [radixDigit?, x, upperX, b, upperB, o, upperO, or_self, if_false]

theorem radixWidth?_local (seam : Joint c x d y) (nonempty : b ≠ [])
    (inside : ∀ width, radixWidth? (b ++ c :: x) = some width → width ≤ b.length) :
    radixWidth? (b ++ d :: y) = radixWidth? (b ++ c :: x) := by
  cases b with
  | nil => exact absurd rfl nonempty
  | cons first b =>
      simp only [List.cons_append]
      cases b with
      | nil =>
          -- The mark itself would stand behind the seam.
          have none : radixWidth? (first :: c :: x) = none := by
            cases found : radixWidth? (first :: c :: x) with
            | none => rfl
            | some width =>
                have small := inside width found
                unfold radixWidth? at found
                simp only at found
                split at found
                · obtain ⟨isDigit, _, found⟩ := Option.bind_eq_some_iff.mp found
                  split at found
                  · cases found
                  · cases found
                    rw [List.length_singleton] at small
                    omega
                · cases found
          rw [List.nil_append, List.nil_append, none]
          unfold radixWidth?
          simp only [radixDigit?_mark seam]
          split <;> rfl
      | cons mark b =>
          simp only [List.cons_append, radixWidth?] at inside ⊢
          by_cases zero : first = .scalar '0'
          · simp only [zero, if_true] at inside ⊢
            cases base : radixDigit? mark with
            | none => rfl
            | some isDigit =>
                have kin := radixDigit?_seam seam base
                simp only [base, Option.bind_eq_bind, Option.bind_some, List.length_cons] at inside
                have digits : runLength isDigit (b ++ c :: x) ≤ b.length := by
                  by_cases none : runLength isDigit (b ++ c :: x) = 0
                  · omega
                  · have small := inside _ (if_neg none)
                    omega
                simp only [Option.bind_eq_bind, Option.bind_some, runLength_local kin digits,
                  List.drop_append_of_le_length digits]
                by_cases none : runLength isDigit (b ++ c :: x) = 0
                · rw [if_pos none, if_pos none]
                · have small := inside _ (if_neg none)
                  rw [List.drop_append_of_le_length digits] at small
                  rw [if_neg none, if_neg none, suffixWidth_local seam]
                  rw [List.length_drop]
                  omega
          · simp only [zero, if_false]

theorem decimalWidth?_local (seam : Joint c x d y) {width : Nat}
    (found : decimalWidth? (b ++ c :: x) = some width) (inside : width ≤ b.length) :
    decimalWidth? (b ++ d :: y) = some width := by
  unfold decimalWidth? at found ⊢
  obtain ⟨mantissa, isMantissa, found⟩ := Option.bind_eq_some_iff.mp found
  simp only [Option.pure_def, Option.some.injEq] at found
  have first : mantissa ≤ b.length := by omega
  rw [mantissaWidth?_local seam isMantissa first]
  rw [List.drop_append_of_le_length first] at found
  have second : mantissa + exponentWidth (b.drop mantissa ++ c :: x) ≤ b.length := by omega
  rw [List.drop_append_of_le_length second] at found
  have exponent : exponentWidth (b.drop mantissa ++ d :: y)
      = exponentWidth (b.drop mantissa ++ c :: x) := by
    refine exponentWidth_local seam ?_
    rw [List.length_drop]
    omega
  simp only [Option.bind_eq_bind, Option.bind_some, Option.pure_def, Option.some.injEq]
  rw [List.drop_append_of_le_length first, exponent, List.drop_append_of_le_length second,
    suffixWidth_local (c := c) (x := x) seam]
  · exact found
  · rw [List.length_drop]
    omega

/-- **A numeral that ends in `b` ends there whatever follows.** -/
theorem width?_local (seam : Joint c x d y) {width : Nat}
    (found : width? (b ++ c :: x) = some width) (inside : width ≤ b.length) :
    width? (b ++ d :: y) = some width := by
  have positive := (width?_bounds found).1
  have nonempty : b ≠ [] := by
    intro empty
    rw [empty, List.length_nil] at inside
    omega
  unfold width? at found ⊢
  have radix : radixWidth? (b ++ d :: y) = radixWidth? (b ++ c :: x) := by
    refine radixWidth?_local seam nonempty ?_
    intro other isRadix
    rw [isRadix, Option.some_or] at found
    cases found
    exact inside
  rw [radix]
  rcases Option.or_eq_some_iff.mp found with isRadix | ⟨noRadix, isDecimal⟩
  · rw [isRadix, Option.some_or]
  · rw [noRadix, Option.none_or]
    exact decimalWidth?_local seam isDecimal inside

end Number

/-! ## §4. Punctuators. -/

/-- A list is searched with a stronger test. -/
theorem find?_of_imp {α : Type} {p q : α → Bool} {l : List α} {a : α}
    (imp : ∀ e ∈ l, q e = true → p e = true) (found : l.find? p = some a) (holds : q a = true) :
    l.find? q = some a := by
  obtain ⟨_, before, after, whole, none⟩ := List.find?_eq_some_iff_append.mp found
  refine List.find?_eq_some_iff_append.mpr ⟨holds, before, after, whole, ?_⟩
  intro e isBefore
  have fails := none e isBefore
  rw [Bool.not_eq_true'] at fails ⊢
  rw [Bool.eq_false_iff] at fails ⊢
  exact fun passes => fails (imp e (whole ▸ List.mem_append_left _ isBefore) passes)

/-- A punctuator goes on with a character that is known to continue things. -/
theorem Punct.mem_continuers (p : Punct) : ∀ e ∈ p.text.tail, e ∈ Scan.continuers := by
  cases p <;> decide

namespace Scan

variable {b x y : Text} {c d e : CodePoint}

/-- A punctuator reaches no further than the seam. -/
theorem Joint.prefix_of_punct (seam : Joint c x d y) (nonempty : b ≠ []) {p : Punct}
    (stands : p.text <+: b ++ d :: y) : p.text <+: b := by
  have isPrefix : b <+: b ++ d :: y := List.prefix_append _ _
  by_cases short : p.text.length ≤ b.length
  · exact List.prefix_of_prefix_length_le stands isPrefix short
  · -- Otherwise the first character behind the seam belongs to it.
    have beyond : b ++ [d] <+: b ++ d :: y := ⟨y, by simp⟩
    have longer : b ++ [d] <+: p.text := by
      refine List.prefix_of_prefix_length_le beyond stands ?_
      rw [List.length_append, List.length_singleton]
      omega
    obtain ⟨rest, whole⟩ := longer
    have inTail : d ∈ p.text.tail := by
      rw [← whole]
      cases b with
      | nil => exact absurd rfl nonempty
      | cons first b => simp
    exact absurd (p.mem_continuers d inTail) seam.plain

/-- The point and the digit that keep a question mark apart. -/
def beforeDigit (rest : Text) : Bool :=
  match rest.drop 1 with
  | d :: _ => d.isDigit
  | [] => false

theorem beforeDigit_local (seam : Joint c x d y) (nonempty : b ≠ [])
    (apart : b.length = 1 → c.isDigit = false) :
    beforeDigit (b ++ d :: y) = beforeDigit (b ++ c :: x) := by
  cases b with
  | nil => exact absurd rfl nonempty
  | cons first b =>
      cases b with
      | nil =>
          show d.isDigit = c.isDigit
          rw [apart rfl, seam.notDigit']
      | cons second b => rfl

/-- The test that picks a punctuator at the head of a text. -/
def standsAt (e : CodePoint) (rest : Text) (entry : Text × Punct) : Bool :=
  entry.1.isPrefixOf (e :: rest) && !(entry.2 == .optionalDot && beforeDigit rest)

theorem punctuator_eq (braces : List OpenBrace) (e : CodePoint) (rest : Text) :
    punctuator braces e rest
      = match Punct.table.find? (standsAt e rest) with
        | some (spelling, p) => ⟨.punct p, spelling.length - 1, braceAfter p braces⟩
        | none => ⟨.stray e, 0, braces⟩ :=
  rfl

theorem mem_table {entry : Text × Punct} (h : entry ∈ Punct.table) : entry.1 = entry.2.text := by
  obtain ⟨p, _, rfl⟩ := List.mem_map.mp h
  rfl

/-- A mark that begins nothing but punctuators is read as one, unless it closes a
substitution. -/
theorem lexeme_sign {mark : CodePoint} {rest : Text} (other : mark ∉ ("\"'\x60#/" : Text))
    (noName : isFlag mark = false) (noNumber : startsNumber mark rest = false)
    {braces : List OpenBrace} (inCode : ¬ (mark = .scalar '}' ∧ braces.head? = some .substitution))
    (previous : Option Lexeme) :
    lexeme braces previous mark rest = .ok (punctuator braces mark rest) := by
  have ne {e : CodePoint} (listed : e ∈ ("\"'\x60#/" : Text)) : mark ≠ e := by
    rintro rfl
    exact other listed
  have noWidth : nameWidth (mark :: rest) = 0 := by
    rw [nameWidth, if_neg]
    rintro (rfl | ⟨isWord, _⟩)
    · cases noName
    · unfold isFlag at noName
      rw [isWord, Bool.true_or] at noName
      cases noName
  unfold lexeme nameOrPunctuator
  rw [if_neg (ne (by decide)), if_neg (ne (by decide)), if_neg (ne (by decide)), noNumber,
    if_neg Bool.false_ne_true, if_neg fun h => ne (by decide) h.1,
    if_neg fun h => ne (by decide) h.1, if_neg inCode, noWidth]

/-- A character that begins nothing else begins a punctuator. -/
theorem lexeme_mark {mark : CodePoint} {rest : Text} (other : mark ∉ ("\"'\x60#/\x7d" : Text))
    (noName : isFlag mark = false) (noNumber : startsNumber mark rest = false)
    (braces : List OpenBrace) (previous : Option Lexeme) :
    lexeme braces previous mark rest = .ok (punctuator braces mark rest) := by
  have fewer : ∀ e ∈ ("\"'\x60#/" : Text), e ∈ ("\"'\x60#/\x7d" : Text) := by decide
  refine lexeme_sign (fun listed => other (fewer mark listed)) noName noNumber ?_ previous
  rintro ⟨rfl, _⟩
  exact other (by decide)

/-- No question mark and point are kept apart by a digit at the seam. -/
def Apart (e : CodePoint) (b : Text) (c : CodePoint) : Prop :=
  e = .scalar '?' → b = [.scalar '.'] → c.isDigit = false

/-- What stands in front of the seam and is no longer than that, stands there
whatever follows. -/
theorem standsAt_local (seam : Joint c x d y) (apart : Apart e b c) {entry : Text × Punct}
    (listed : entry ∈ Punct.table) :
    standsAt e (b ++ d :: y) entry = true
      ↔ standsAt e (b ++ c :: x) entry = true ∧ entry.1.length ≤ b.length + 1 := by
  unfold standsAt
  rw [mem_table listed]
  simp only [Bool.and_eq_true, List.isPrefixOf_iff_prefix, Bool.not_eq_true', Bool.and_eq_false_iff]
  rw [← List.cons_append, ← List.cons_append]
  -- The digit behind a point matters only where there is room for the point.
  have digit : entry.2.text <+: e :: b →
      ((entry.2 == .optionalDot) = false ∨ beforeDigit (b ++ d :: y) = false
        ↔ (entry.2 == .optionalDot) = false ∨ beforeDigit (b ++ c :: x) = false) := by
    intro isPrefix
    by_cases isDot : entry.2 = .optionalDot
    · have begins : [CodePoint.scalar '?', .scalar '.'] <+: e :: b := by
        rw [isDot] at isPrefix
        exact isPrefix
      obtain ⟨question, point⟩ := List.cons_prefix_cons.mp begins
      obtain ⟨b', rfl⟩ := point
      have single (one : ([CodePoint.scalar '.'] ++ b').length = 1) : c.isDigit = false := by
        apply apart question.symm
        rw [List.length_append, List.length_singleton] at one
        rw [List.length_eq_zero_iff.mp (by omega : b'.length = 0), List.append_nil]
      rw [beforeDigit_local seam (by simp) single]
    · have notDot : (entry.2 == .optionalDot) = false := beq_eq_false_iff_ne.mpr isDot
      simp only [notDot, true_or]
  constructor
  · intro ⟨stands, allowed⟩
    have isPrefix := seam.prefix_of_punct (List.cons_ne_nil e b) stands
    have length := isPrefix.length_le
    exact ⟨⟨isPrefix.trans (List.prefix_append _ _), (digit isPrefix).mp allowed⟩, length⟩
  · intro ⟨⟨stands, allowed⟩, short⟩
    have isPrefix : entry.2.text <+: e :: b :=
      List.prefix_of_prefix_length_le stands (List.prefix_append _ _) short
    exact ⟨isPrefix.trans (List.prefix_append _ _), (digit isPrefix).mpr allowed⟩

/-- **A punctuator that ends in front of the seam ends there whatever follows.** -/
theorem punctuator_local (seam : Joint c x d y) (apart : Apart e b c) (braces : List OpenBrace)
    (inside : (punctuator braces e (b ++ c :: x)).extra ≤ b.length) :
    punctuator braces e (b ++ d :: y) = punctuator braces e (b ++ c :: x) := by
  rw [punctuator_eq] at inside ⊢
  rw [punctuator_eq]
  cases found : Punct.table.find? (standsAt e (b ++ c :: x)) with
  | none =>
      have none' : Punct.table.find? (standsAt e (b ++ d :: y)) = none := by
        rw [List.find?_eq_none] at found ⊢
        intro entry listed stands
        exact found entry listed ((standsAt_local seam apart listed).mp stands).1
      rw [none']
  | some entry =>
      obtain ⟨spelling, p⟩ := entry
      rw [found] at inside
      have listed := List.mem_of_find?_eq_some found
      have stands := List.find?_some found
      have short : spelling.length ≤ b.length + 1 := by
        simp only at inside
        omega
      have found' : Punct.table.find? (standsAt e (b ++ d :: y)) = some (spelling, p) := by
        refine find?_of_imp ?_ found ((standsAt_local seam apart listed).mpr ⟨stands, short⟩)
        intro entry listed stands
        exact ((standsAt_local seam apart listed).mp stands).1
      rw [found']

theorem nameOrPunctuator_local (seam : Joint c x d y) (apart : Apart e b c)
    (braces : List OpenBrace)
    (inside : (nameOrPunctuator braces e (b ++ c :: x)).extra ≤ b.length) :
    nameOrPunctuator braces e (b ++ d :: y) = nameOrPunctuator braces e (b ++ c :: x) := by
  unfold nameOrPunctuator at inside ⊢
  cases width : nameWidth (e :: (b ++ c :: x)) with
  | zero =>
      have zero : nameWidth (e :: (b ++ d :: y)) = 0 := by
        rw [← List.cons_append, seam.nameWidth_local (b := e :: b), List.cons_append, width]
        rw [List.cons_append, width]
        exact Nat.zero_le _
      rw [width] at inside
      simp only [zero]
      exact punctuator_local seam apart braces inside
  | succ width' =>
      rw [width] at inside
      simp only at inside
      have same : nameWidth (e :: (b ++ d :: y)) = width' + 1 := by
        rw [← List.cons_append, seam.nameWidth_local (b := e :: b), List.cons_append, width]
        rw [List.cons_append, width, List.length_cons]
        omega
      simp only [same]
      rw [← List.cons_append, ← List.cons_append,
        List.take_append_of_le_length (by rw [List.length_cons]; omega),
        List.take_append_of_le_length (by rw [List.length_cons]; omega)]

end Scan

end StackLint
