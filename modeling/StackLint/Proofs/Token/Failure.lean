/-
  StackLint.Proofs.Token.Failure
  ──────────────────────────────
  **WHICH TEXTS CANNOT BE CUT INTO TOKENS.**

  There are two reasons why the scanner fails.  A character that shows a digit
  but is no decimal digit, such as a superscript two, may stand where a number
  would begin.  And a braced escape in a string or a template may denote a
  number that does not fit in 32 bits.  In any other place, a comment say, the
  same characters do no harm, so both reasons are about the places that the
  scanner reaches.
-/
import StackLint.Proofs.Except
import StackLint.Proofs.Token.Walk

namespace StackLint

/-! ## §1. Numbers. -/

/-- A character that shows a digit but is no decimal digit. -/
def CodePoint.isDigitForm (c : CodePoint) : Bool :=
  c.isDigit && !c.isDecimal

namespace Number

/-- Numbers begin with a decimal digit, or with a point and one. -/
theorem mantissaWidth?_isSome (c : CodePoint) (rest : Text) :
    (mantissaWidth? (c :: rest)).isSome = true
      ↔ c.isDecimal = true ∨ (c = '.' ∧ ∃ d after, rest = d :: after ∧ d.isDecimal = true) := by
  unfold mantissaWidth?
  by_cases decimal : c.isDecimal = true
  · simp only [decimal, if_true, true_or, iff_true]
    split
    · split <;> rfl
    · rfl
  · simp only [decimal, Bool.false_eq_true, if_false, false_or]
    by_cases point : c = '.'
    · simp only [point, if_true, true_and]
      cases rest with
      | nil =>
          simp only [Option.isSome_none, Bool.false_eq_true, List.nil_eq, reduceCtorEq, false_and,
            exists_const]
      | cons d after =>
          by_cases digit : d.isDecimal = true
          · simp only [digit, if_true, Option.isSome_some, true_iff]
            exact ⟨d, after, rfl, digit⟩
          · simp only [digit, Bool.false_eq_true, if_false, Option.isSome_none, false_iff]
            rintro ⟨_, _, same, isDecimal⟩
            cases same
            exact digit isDecimal
    · simp only [point, if_false, Option.isSome_none, Bool.false_eq_true, false_and]

/-- A base mark stands behind a zero. -/
theorem isDecimal_of_radixWidth? {c : CodePoint} {rest : Text}
    (h : (radixWidth? (c :: rest)).isSome = true) : c.isDecimal = true := by
  cases rest with
  | nil => cases h
  | cons mark rest =>
      unfold radixWidth? at h
      by_cases zero : c = '0'
      · rw [zero]
        decide
      · simp only [zero, if_false] at h
        cases h

theorem width?_isSome (c : CodePoint) (rest : Text) :
    (width? (c :: rest)).isSome = (mantissaWidth? (c :: rest)).isSome := by
  have decimal : (decimalWidth? (c :: rest)).isSome = (mantissaWidth? (c :: rest)).isSome := by
    unfold decimalWidth?
    cases mantissaWidth? (c :: rest) <;> rfl
  unfold width?
  rw [Option.isSome_or, decimal]
  by_cases radix : (radixWidth? (c :: rest)).isSome = true
  · rw [(mantissaWidth?_isSome c rest).mpr (.inl (isDecimal_of_radixWidth? radix)), radix]
    rfl
  · rw [Bool.not_eq_true] at radix
    rw [radix, Bool.false_or]

end Number

/-- A digit form stands where a number would begin, at the head of `c :: rest`
or behind a point there. -/
def Scan.BeginsWithDigitForm (c : CodePoint) (rest : Text) : Prop :=
  c.isDigitForm = true ∨ (c = '.' ∧ ∃ d after, rest = d :: after ∧ d.isDigitForm = true)

/-- The start of a number is one, or begins with a digit form. -/
theorem Scan.width?_isSome_of_startsNumber {c : CodePoint} {rest : Text}
    (starts : startsNumber c rest = true) :
    (Number.width? (c :: rest)).isSome = true ↔ ¬ BeginsWithDigitForm c rest := by
  have point : (CodePoint.scalar '.').isDigitForm = false := by decide
  have pointDecimal : (CodePoint.scalar '.').isDecimal = false := by decide
  have pointDigit : (CodePoint.scalar '.').isDigit = false := by decide
  rw [Number.width?_isSome, Number.mantissaWidth?_isSome]
  unfold BeginsWithDigitForm
  unfold startsNumber at starts
  by_cases hc : c = '.'
  · subst hc
    rw [pointDigit] at starts
    simp only [point, pointDecimal, Bool.false_eq_true, false_or, true_and]
    cases rest with
    | nil => cases starts
    | cons d after =>
        have digit : d.isDigit = true := by
          simp only [beq_self_eq_true, Bool.true_and, Bool.false_or] at starts
          exact starts
        constructor
        · rintro ⟨_, _, same, isDecimal⟩ ⟨_, _, same', isForm⟩
          cases same
          cases same'
          simp only [CodePoint.isDigitForm, isDecimal, Bool.not_true, Bool.and_false,
            Bool.false_eq_true] at isForm
        · intro noForm
          refine ⟨d, after, rfl, ?_⟩
          by_cases isDecimal : d.isDecimal = true
          · exact isDecimal
          · exact absurd ⟨d, after, rfl, by
              simp only [CodePoint.isDigitForm, digit, isDecimal, Bool.not_false,
                Bool.and_self]⟩ noForm
  · have digit : c.isDigit = true := by
      simp only [Bool.or_eq_true, Bool.and_eq_true, beq_iff_eq, hc, false_and, or_false] at starts
      exact starts
    simp only [hc, false_and, or_false, CodePoint.isDigitForm, digit, Bool.true_and,
      Bool.not_eq_true', Bool.not_eq_false]

/-- What begins with a digit form begins as numbers do. -/
theorem Scan.BeginsWithDigitForm.startsNumber {c : CodePoint} {rest : Text}
    (h : BeginsWithDigitForm c rest) : Scan.startsNumber c rest = true := by
  unfold Scan.startsNumber
  rcases h with first | ⟨rfl, d, after, rfl, second⟩
  · simp only [CodePoint.isDigitForm, Bool.and_eq_true] at first
    rw [first.1, Bool.true_or]
  · simp only [CodePoint.isDigitForm, Bool.and_eq_true] at second
    simp only [second.1, beq_self_eq_true, Bool.and_self, Bool.or_true]

/-! ## §2. Escapes. -/

namespace Escape

/-- A braced escape whose number does not fit in 32 bits; the text begins
behind its backslash. -/
def Overflows (t : Text) : Prop :=
  ∃ (numeral after : Text) (n : Int), t = .scalar 'u' :: .scalar '{' :: (numeral ++ .scalar '}' :: after)
    ∧ .scalar '}' ∉ numeral ∧ numeral.hexInteger? = some n ∧ (n < -0x80000000 ∨ 0x7FFFFFFF < n)

/-- A numeral denotes something unless its number is too large. -/
theorem braced_isOk (numeral : Text) :
    (braced numeral).isOk = true
      ↔ ∀ n, numeral.hexInteger? = some n → ¬ (n < -0x80000000 ∨ 0x7FFFFFFF < n) := by
  unfold braced
  cases numeral.hexInteger? with
  | none =>
      simp only [reduceCtorEq, false_implies, implies_true, iff_true]
      rfl
  | some n =>
      simp only [Option.some.injEq, forall_eq']
      by_cases tooLarge : n < -0x80000000 ∨ 0x7FFFFFFF < n
      · simp only [tooLarge, if_true, not_true, iff_false, Bool.not_eq_true]
        rfl
      · simp only [tooLarge, if_false, not_false_iff, iff_true]
        split <;> rfl

/-- A text is cut uniquely at its first closing brace. -/
theorem takeWhile_brace (numeral after : Text) (h : CodePoint.scalar '}' ∉ numeral) :
    (numeral ++ CodePoint.scalar '}' :: after).takeWhile (· != (CodePoint.scalar '}'))
      = numeral := by
  rw [List.takeWhile_append_of_pos]
  · simp only [List.takeWhile_cons, bne_self_eq_false, Bool.false_eq_true, if_false,
      List.append_nil]
  · intro c hc
    rw [bne_iff_ne]
    rintro rfl
    exact h hc

/-- A text with a closing brace, cut at the first one. -/
theorem exists_brace {t : Text} (h : CodePoint.scalar '}' ∈ t) :
    ∃ after, t = t.takeWhile (· != (CodePoint.scalar '}')) ++ CodePoint.scalar '}' :: after := by
  induction t with
  | nil => cases h
  | cons c rest ih =>
      by_cases brace : c = CodePoint.scalar '}'
      · refine ⟨rest, ?_⟩
        simp only [brace, List.takeWhile_cons, bne_self_eq_false, Bool.false_eq_true, if_false,
          List.nil_append]
      · obtain ⟨after, cut⟩ := ih ((List.mem_cons.mp h).resolve_left (fun h => brace h.symm))
        refine ⟨after, ?_⟩
        rw [List.takeWhile_cons, if_pos (bne_iff_ne.mpr brace), List.cons_append, ← cut]

/-- A braced escape denotes what its numeral does. -/
theorem decode_braced_isOk (numeral after : Text) (noBrace : CodePoint.scalar '}' ∉ numeral) :
    (decode (.scalar 'u' :: .scalar '{' :: (numeral ++ .scalar '}' :: after))).isOk
      = (braced numeral).isOk := by
  unfold decode
  simp only [show simple? (CodePoint.scalar 'u') = none by decide]
  rw [if_neg (by simp), if_neg (by simp), if_neg (by simp), if_pos trivial, if_pos (by simp)]
  simp only [List.drop_succ_cons, List.drop_zero, takeWhile_brace numeral after noBrace]
  cases braced numeral <;> rfl

/-- Only braced escapes can fail. -/
theorem decode_isOk_of_not_braced (c : CodePoint) (rest : Text)
    (h : ¬ (c = .scalar 'u' ∧ rest.head? = some (.scalar '{') ∧ rest.contains (.scalar '}'))) :
    (decode (c :: rest)).isOk = true := by
  unfold decode
  simp only
  split
  · rfl
  · split
    · rfl
    · split
      · rfl
      · split
        · split <;> rfl
        · split
          · next letter =>
              rw [if_neg (fun opens => h ⟨letter, opens⟩)]
              split <;> rfl
          · rfl

/-- **Escapes are decoded unless their number is too large.** -/
theorem decode_isOk_iff (t : Text) : (decode t).isOk = true ↔ ¬ Overflows t := by
  constructor
  · rintro decoded ⟨numeral, after, n, rfl, noBrace, number, tooLarge⟩
    rw [decode_braced_isOk numeral after noBrace] at decoded
    exact (braced_isOk numeral).mp decoded n number tooLarge
  · intro fits
    cases t with
    | nil => rfl
    | cons c rest =>
        by_cases opens : c = .scalar 'u' ∧ rest.head? = some (.scalar '{')
            ∧ rest.contains (.scalar '}')
        · -- The numeral goes up to the first closing brace.
          obtain ⟨rfl, brace, closed⟩ := opens
          obtain ⟨tail, rfl⟩ : ∃ tail, rest = CodePoint.scalar '{' :: tail := by
            cases rest with
            | nil => cases brace
            | cons d tail => exact ⟨tail, by rw [Option.some.inj brace]⟩
          have closes : CodePoint.scalar '}' ∈ tail := by
            simpa using closed
          obtain ⟨after, cut⟩ := exists_brace closes
          have noBrace : CodePoint.scalar '}' ∉ tail.takeWhile (· != (CodePoint.scalar '}')) := by
            intro inside
            have stops := List.all_eq_true.mp List.all_takeWhile _ inside
            simp at stops
          rw [cut, decode_braced_isOk _ after noBrace, braced_isOk]
          intro n number tooLarge
          exact fits ⟨_, after, n, by rw [← cut], noBrace, number, tooLarge⟩
        · exact decode_isOk_of_not_braced c rest opens

end Escape

/-! ## §3. Literals. -/

namespace Scan

/-- In the text of a literal, which stops where `ends` says, there is an
escape whose number is too large. -/
inductive LiteralOverflows (ends : CodePoint → Text → Prop) : Text → Prop where
  /-- The escape comes first. -/
  | here {rest : Text} : Escape.Overflows rest → LiteralOverflows ends (.scalar '\\' :: rest)
  /-- It comes behind another escape. -/
  | escape {rest : Text} {decoded : Decoded} : Escape.decode rest = .ok decoded →
      LiteralOverflows ends (rest.drop decoded.width) →
      LiteralOverflows ends (.scalar '\\' :: rest)
  /-- It comes behind another character. -/
  | plain {c : CodePoint} {rest : Text} : c ≠ .scalar '\\' → ¬ ends c rest →
      LiteralOverflows ends rest → LiteralOverflows ends (c :: rest)

theorem LiteralOverflows.backslash_iff {ends : CodePoint → Text → Prop} {rest : Text} :
    LiteralOverflows ends (.scalar '\\' :: rest)
      ↔ Escape.Overflows rest
        ∨ ∃ decoded, Escape.decode rest = .ok decoded
            ∧ LiteralOverflows ends (rest.drop decoded.width) := by
  constructor
  · intro overflows
    cases overflows with
    | here tooLarge => exact .inl tooLarge
    | escape found later => exact .inr ⟨_, found, later⟩
    | plain noBackslash => exact absurd rfl noBackslash
  · rintro (tooLarge | ⟨decoded, found, later⟩)
    · exact .here tooLarge
    · exact .escape found later

theorem LiteralOverflows.plain_iff {ends : CodePoint → Text → Prop} {c : CodePoint} {rest : Text}
    (noBackslash : c ≠ .scalar '\\') :
    LiteralOverflows ends (c :: rest) ↔ ¬ ends c rest ∧ LiteralOverflows ends rest := by
  constructor
  · intro overflows
    cases overflows with
    | here => exact absurd rfl noBackslash
    | escape => exact absurd rfl noBackslash
    | plain _ goesOn later => exact ⟨goesOn, later⟩
  · rintro ⟨goesOn, later⟩
    exact .plain noBackslash goesOn later

/-- A reader of literals that goes on behind every escape it can decode, and
behind every other character that does not end the literal. -/
structure ReadsLiteral (ends : CodePoint → Text → Prop) (readable : Text → Prop) : Prop where
  nil : readable []
  escape : ∀ rest, readable (.scalar '\\' :: rest)
    ↔ ∃ decoded, Escape.decode rest = .ok decoded ∧ readable (rest.drop decoded.width)
  stop : ∀ c rest, c ≠ .scalar '\\' → ends c rest → readable (c :: rest)
  plain : ∀ c rest, c ≠ .scalar '\\' → ¬ ends c rest → (readable (c :: rest) ↔ readable rest)

/-- **Literals are read unless an escape overflows.** -/
theorem ReadsLiteral.iff {ends : CodePoint → Text → Prop} {readable : Text → Prop}
    (reads : ReadsLiteral ends readable) (t : Text) :
    readable t ↔ ¬ LiteralOverflows ends t := by
  induction h : t.length using Nat.strongRecOn generalizing t with
  | ind n ih =>
      cases t with
      | nil =>
          refine iff_of_true reads.nil ?_
          intro overflows
          cases overflows
      | cons c rest =>
          rw [List.length_cons] at h
          by_cases backslash : c = .scalar '\\'
          · -- An escape overflows itself, or the literal is read on behind it.
            rw [backslash, reads.escape, LiteralOverflows.backslash_iff]
            cases found : Escape.decode rest with
            | error failure =>
                have tooLarge : Escape.Overflows rest := by
                  refine Classical.byContradiction fun small => ?_
                  have isOk := (Escape.decode_isOk_iff rest).mpr small
                  rw [found] at isOk
                  cases isOk
                simp only [tooLarge, reduceCtorEq, false_and, exists_false, true_or, not_true]
            | ok decoded =>
                have small : ¬ Escape.Overflows rest := by
                  refine (Escape.decode_isOk_iff rest).mp ?_
                  rw [found]
                  rfl
                have later := ih (rest.drop decoded.width).length
                  (by rw [List.length_drop]; omega) _ rfl
                simp only [Except.ok.injEq, exists_eq_left', small, false_or, later]
          · rw [LiteralOverflows.plain_iff backslash]
            by_cases ended : ends c rest
            · refine iff_of_true (reads.stop c rest backslash ended) ?_
              rintro ⟨goesOn, _⟩
              exact goesOn ended
            · rw [reads.plain c rest backslash ended, ih rest.length (by omega) _ rfl]
              simp only [ended, not_false_iff, true_and]

/-! ## §4. Strings and templates. -/

/-- A string ends at its quote and before a newline. -/
def stringEnds (quote c : CodePoint) (_ : Text) : Prop :=
  c = quote ∨ c = .scalar '\n'

/-- A piece of a template ends at a backtick and at a substitution. -/
def templateEnds (c : CodePoint) (rest : Text) : Prop :=
  c = .scalar '\x60' ∨ (c = .scalar '$' ∧ rest.head? = some (.scalar '{'))

/-- Code points of an escape are passed over. -/
theorem stringBody_skip_isOk (quote : CodePoint) (skip : Nat) (t : Text) :
    (stringBody quote skip t).isOk = (stringBody quote 0 (t.drop skip)).isOk := by
  induction t generalizing skip with
  | nil =>
      rw [List.drop_nil]
      cases skip <;> rfl
  | cons c rest ih =>
      cases skip with
      | zero => rfl
      | succ skip => rw [List.drop_succ_cons, ← ih skip, stringBody, isOk_bind_pure]

theorem templateBody_skip_isOk (skip : Nat) (t : Text) :
    (templateBody skip t).isOk = (templateBody 0 (t.drop skip)).isOk := by
  induction t generalizing skip with
  | nil =>
      rw [List.drop_nil]
      cases skip <;> rfl
  | cons c rest ih =>
      cases skip with
      | zero => rfl
      | succ skip => rw [List.drop_succ_cons, ← ih skip, templateBody, isOk_bind_pure]

/-- Strings are literals that end as strings do. -/
theorem readsLiteral_string (quote : CodePoint) :
    ReadsLiteral (stringEnds quote) fun t => (stringBody quote 0 t).isOk = true where
  nil := rfl
  escape := by
    intro rest
    rw [stringBody, if_pos rfl, isOk_bind]
    refine exists_congr fun decoded => and_congr_right fun _ => ?_
    rw [isOk_bind_pure, stringBody_skip_isOk]
  stop := by
    intro c rest noBackslash ended
    rw [stringBody, if_neg noBackslash]
    rcases ended with atQuote | atNewline
    · rw [if_pos atQuote]
      rfl
    · rw [if_pos atNewline]
      split <;> rfl
  plain := by
    intro c rest noBackslash goesOn
    rw [stringBody, if_neg noBackslash, if_neg (fun h => goesOn (.inl h)),
      if_neg (fun h => goesOn (.inr h)), isOk_bind_pure]

/-- Templates are literals that end as templates do. -/
theorem readsLiteral_template :
    ReadsLiteral templateEnds fun t => (templateBody 0 t).isOk = true where
  nil := rfl
  escape := by
    intro rest
    rw [templateBody, if_pos rfl, isOk_bind]
    refine exists_congr fun decoded => and_congr_right fun _ => ?_
    rw [isOk_bind_pure, templateBody_skip_isOk]
  stop := by
    intro c rest noBackslash ended
    rw [templateBody, if_neg noBackslash]
    rcases ended with atBacktick | atSubstitution
    · rw [if_pos atBacktick]
      rfl
    · rw [if_pos atSubstitution]
      split <;> rfl
  plain := by
    intro c rest noBackslash goesOn
    rw [templateBody, if_neg noBackslash, if_neg (fun h => goesOn (.inl h)),
      if_neg (fun h => goesOn (.inr h)), isOk_bind_pure]

/-! ## §5. Lexemes. -/

/-- No lexeme can be read at the head of `c :: rest`. -/
inductive Malformed (braces : List OpenBrace) (c : CodePoint) (rest : Text) : Prop where
  /-- A digit form begins no number. -/
  | number (h : BeginsWithDigitForm c rest)
  /-- A string has an escape that is too large. -/
  | string (quote : Quote) (opens : c = .scalar quote.mark)
      (overflows : LiteralOverflows (stringEnds c) rest)
  /-- A template, opened or continued, has one. -/
  | template (opens : c = .scalar '\x60'
        ∨ (c = .scalar '}' ∧ braces.head? = some .substitution))
      (overflows : LiteralOverflows templateEnds rest)

theorem stringLiteral_isOk (quote : Quote) (braces : List OpenBrace) (rest : Text) :
    (stringLiteral quote braces rest).isOk = true
      ↔ ¬ LiteralOverflows (stringEnds quote.mark) rest := by
  rw [stringLiteral, isOk_bind_pure]
  exact (readsLiteral_string quote.mark).iff rest

theorem templatePart_isOk (opening : Bool) (braces : List OpenBrace) (rest : Text) :
    (templatePart opening braces rest).isOk = true ↔ ¬ LiteralOverflows templateEnds rest := by
  rw [templatePart, isOk_bind_pure]
  exact readsLiteral_template.iff rest

/-- Neither a quote nor a backtick nor a brace shows a digit. -/
theorem not_beginsWithDigitForm {c : CodePoint} {rest : Text}
    (h : c = .scalar '"' ∨ c = .scalar '\'' ∨ c = .scalar '\x60' ∨ c = .scalar '}') :
    ¬ BeginsWithDigitForm c rest := by
  have noForm : c.isDigitForm = false ∧ c ≠ .scalar '.' := by
    rcases h with rfl | rfl | rfl | rfl <;> decide
  rintro (isForm | ⟨isPoint, _⟩)
  · rw [noForm.1] at isForm
    cases isForm
  · exact noForm.2 isPoint

/-- A quote is only read wrongly if its string has an escape that is too
large. -/
theorem malformed_iff_string (quote : Quote) {braces : List OpenBrace} {rest : Text} :
    Malformed braces (.scalar quote.mark) rest
      ↔ LiteralOverflows (stringEnds (.scalar quote.mark)) rest := by
  constructor
  · intro malformed
    cases malformed with
    | number h =>
        cases quote with
        | single => exact absurd h (not_beginsWithDigitForm (.inr (.inl rfl)))
        | double => exact absurd h (not_beginsWithDigitForm (.inl rfl))
    | string _ _ overflows => exact overflows
    | template opens _ => cases quote <;> simp [Quote.mark] at opens
  · exact .string quote rfl

/-- The same for what begins the text of a template. -/
theorem malformed_iff_template {braces : List OpenBrace} {c : CodePoint} {rest : Text}
    (opens : c = .scalar '\x60' ∨ (c = .scalar '}' ∧ braces.head? = some .substitution)) :
    Malformed braces c rest ↔ LiteralOverflows templateEnds rest := by
  constructor
  · intro malformed
    cases malformed with
    | number h =>
        refine absurd h (not_beginsWithDigitForm ?_)
        exact .inr (.inr (opens.imp id And.left))
    | string quote isQuote _ =>
        rcases opens with rfl | ⟨rfl, _⟩
        · cases quote <;> cases isQuote
        · cases quote <;> cases isQuote
    | template _ overflows => exact overflows
  · exact .template opens

/-- A character that is no quote, no backtick and no closing brace of a
substitution is only read wrongly if it begins with a digit form. -/
theorem malformed_iff_number {braces : List OpenBrace} {c : CodePoint} {rest : Text}
    (noQuote : ∀ quote : Quote, c ≠ .scalar quote.mark) (noBacktick : c ≠ .scalar '\x60')
    (noBrace : ¬ (c = .scalar '}' ∧ braces.head? = some .substitution)) :
    Malformed braces c rest ↔ BeginsWithDigitForm c rest := by
  constructor
  · intro malformed
    cases malformed with
    | number h => exact h
    | string quote opens _ => exact absurd opens (noQuote quote)
    | template opens _ => exact (opens.elim noBacktick noBrace).elim
  · exact .number

/-- **Lexemes are read unless they are malformed.** -/
theorem lexeme_isOk_iff (braces : List OpenBrace) (previous : Option Lexeme) (c : CodePoint)
    (rest : Text) :
    (lexeme braces previous c rest).isOk = true ↔ ¬ Malformed braces c rest := by
  unfold lexeme
  by_cases double : c = .scalar '"'
  · subst double
    rw [if_pos rfl, stringLiteral_isOk]
    exact not_congr (malformed_iff_string .double).symm
  rw [if_neg double]
  by_cases single : c = .scalar '\''
  · subst single
    rw [if_pos rfl, stringLiteral_isOk]
    exact not_congr (malformed_iff_string .single).symm
  rw [if_neg single]
  by_cases backtick : c = .scalar '\x60'
  · rw [if_pos backtick, templatePart_isOk]
    exact not_congr (malformed_iff_template (.inl backtick)).symm
  rw [if_neg backtick]
  have noQuote : ∀ quote : Quote, c ≠ .scalar quote.mark := by
    intro quote
    cases quote with
    | single => exact single
    | double => exact double
  by_cases starts : startsNumber c rest = true
  · rw [if_pos starts]
    have noBrace : ¬ (c = .scalar '}' ∧ braces.head? = some .substitution) := by
      rintro ⟨rfl, _⟩
      simp [startsNumber, show (CodePoint.scalar '}').isDigit = false by decide] at starts
    rw [malformed_iff_number noQuote backtick noBrace,
      ← width?_isSome_of_startsNumber starts]
    cases Number.width? (c :: rest) <;> exact Iff.rfl
  rw [if_neg starts]
  have noForm : ¬ BeginsWithDigitForm c rest := fun h => starts h.startsNumber
  by_cases continues : c = .scalar '}' ∧ braces.head? = some .substitution
  · have isTemplate : Malformed braces c rest ↔ LiteralOverflows templateEnds rest :=
      malformed_iff_template (.inr continues)
    obtain ⟨rfl, substitution⟩ := continues
    rw [if_neg (by simp), if_neg (by simp), if_pos ⟨rfl, substitution⟩, templatePart_isOk]
    exact not_congr isTemplate.symm
  -- What is left are names, punctuators, regular expressions and stray characters.
  rw [malformed_iff_number noQuote backtick continues, if_neg continues]
  refine iff_of_true ?_ noForm
  split
  · split <;> rfl
  · split
    · split <;> rfl
    · rfl

/-! ## §6. Texts. -/

/-- The scanner comes to a place of the text where it cannot go on. -/
def Stumbles (t : Text) : Prop :=
  ∃ memory c rest, Reaches .start (t.drop (hashbangWidth t)) memory (c :: rest)
    ∧ trivia? c rest = none ∧ Malformed memory.braces c rest

/-- **Texts are cut into tokens unless the scanner stumbles.** -/
theorem tokenize_isOk_iff (t : Text) : (tokenize t).isOk = true ↔ ¬ Stumbles t := by
  unfold tokenize Stumbles
  rw [tokensFrom_skip, tokensFrom_isOk_iff]
  simp only [lexeme_isOk_iff]
  constructor
  · rintro all ⟨memory, c, rest, reached, notTrivial, malformed⟩
    exact all memory c rest reached notTrivial malformed
  · intro none memory c rest reached notTrivial malformed
    exact none ⟨memory, c, rest, reached, notTrivial, malformed⟩

end Scan

end StackLint
