/-
  StackLint.Proofs.Token.Ending
  ─────────────────────────────
  **HOW TOKENS END.**

  No token ends with a backslash, unless it is a stray one or a literal that is not
  closed.  So what follows a token is never escaped by it.
-/
import StackLint.Proofs.Token.Exchange

namespace StackLint

/-- The text does not end with a backslash. -/
def Text.EndsPlainly (t : Text) : Prop :=
  t.getLast? ≠ some (.scalar '\\')

namespace Text.EndsPlainly

variable {t : Text} {c : CodePoint}

theorem of_getLast? (last : t.getLast? = some c) (other : c ≠ .scalar '\\') : t.EndsPlainly := by
  intro never
  rw [last] at never
  exact other (Option.some.inj never)

theorem of_not_mem (none : .scalar '\\' ∉ t) : t.EndsPlainly :=
  fun last => none (List.mem_of_getLast? last)

/-- More in front. -/
theorem append (h : t.EndsPlainly) (nonempty : t ≠ []) (front : Text) : (front ++ t).EndsPlainly := by
  unfold Text.EndsPlainly
  rw [List.getLast?_append_of_ne_nil _ nonempty]
  exact h

end Text.EndsPlainly

/-! ## §1. Characters of a numeral. -/

namespace Scan

/-- A run without backslashes. -/
theorem not_mem_take_runLength {p : CodePoint → Bool} (other : p (.scalar '\\') = false) (t : Text) :
    CodePoint.scalar '\\' ∉ t.take (runLength p t) := by
  unfold runLength
  rw [← List.prefix_iff_eq_take.mp (List.takeWhile_prefix p)]
  intro inside
  have passes := List.all_eq_true.mp List.all_takeWhile _ inside
  rw [other] at passes
  cases passes

theorem not_mem_take_add {t : Text} {m n : Nat} (first : CodePoint.scalar '\\' ∉ t.take m)
    (second : CodePoint.scalar '\\' ∉ (t.drop m).take n) : CodePoint.scalar '\\' ∉ t.take (m + n) := by
  rw [List.take_add, List.mem_append, not_or]
  exact ⟨first, second⟩

theorem not_mem_take_cons {t : Text} {c : CodePoint} {n : Nat} (first : c ≠ .scalar '\\')
    (others : CodePoint.scalar '\\' ∉ t.take n) : CodePoint.scalar '\\' ∉ (c :: t).take (1 + n) := by
  rw [Nat.add_comm, List.take_succ_cons, List.mem_cons, not_or]
  exact ⟨first.symm, others⟩

end Scan

namespace Number

open Scan

theorem not_mem_suffix (t : Text) : CodePoint.scalar '\\' ∉ t.take (suffixWidth t) := by
  cases t with
  | nil => exact List.not_mem_nil
  | cons c rest =>
      simp only [suffixWidth]
      split
      · next isSuffix =>
          exact not_mem_take_cons (n := 0) (by rw [isSuffix]; decide) List.not_mem_nil
      · exact List.not_mem_nil

theorem not_mem_exponent (t : Text) : CodePoint.scalar '\\' ∉ t.take (exponentWidth t) := by
  have digits (t : Text) : CodePoint.scalar '\\' ∉ t.take (runLength CodePoint.isDecimal t) :=
    not_mem_take_runLength (by decide) t
  cases t with
  | nil => exact List.not_mem_nil
  | cons e rest =>
      by_cases isMark : e = .scalar 'e' ∨ e = .scalar 'E'
      · have mark : e ≠ .scalar '\\' := by
          rcases isMark with rfl | rfl <;> decide
        cases rest with
        | nil =>
            simp only [exponentWidth, if_pos isMark]
            exact List.not_mem_nil
        | cons c rest =>
            have sign : CodePoint.scalar '\\' ∉ (c :: rest).take
                (if c = .scalar '+' ∨ c = .scalar '-' then 1 else 0) := by
              split
              · next isSign =>
                  refine not_mem_take_cons (n := 0) ?_ List.not_mem_nil
                  rcases isSign with rfl | rfl <;> decide
              · exact List.not_mem_nil
            simp only [exponentWidth, if_pos isMark]
            by_cases none : runLength CodePoint.isDecimal ((c :: rest).drop
                (if c = .scalar '+' ∨ c = .scalar '-' then 1 else 0)) = 0
            · rw [if_pos none]
              exact List.not_mem_nil
            · rw [if_neg none, Nat.add_assoc]
              exact not_mem_take_cons mark (not_mem_take_add sign (digits _))
      · simp only [exponentWidth, if_neg isMark]
        exact List.not_mem_nil

theorem not_mem_mantissa {t : Text} {width : Nat} (found : mantissaWidth? t = some width) :
    CodePoint.scalar '\\' ∉ t.take width := by
  have noDigit {c : CodePoint} (decimal : c.isDecimal = true) : c ≠ .scalar '\\' := by
    rintro rfl
    exact absurd decimal (by decide)
  have digits (t : Text) : CodePoint.scalar '\\' ∉ t.take (runLength isDigitOrUnderscore t) :=
    not_mem_take_runLength (by decide) t
  cases t with
  | nil => cases found
  | cons c rest =>
      simp only [mantissaWidth?] at found
      split at found
      · next decimal =>
          have whole := not_mem_take_cons (noDigit decimal) (digits rest)
          split at found
          · next point after behind =>
              split at found
              · next isPoint =>
                  cases found
                  rw [Nat.add_assoc]
                  refine not_mem_take_add whole ?_
                  rw [Nat.add_comm 1 (runLength _ rest), List.drop_succ_cons, behind, isPoint]
                  exact not_mem_take_cons (by decide) (digits after)
              · cases found
                exact whole
          · cases found
            exact whole
      · split at found
        · next isPoint =>
            split at found
            · next d after =>
                split at found
                · next decimal =>
                    cases found
                    rw [show 2 + runLength isDigitOrUnderscore after
                      = 1 + (1 + runLength isDigitOrUnderscore after) by omega, isPoint]
                    exact not_mem_take_cons (by decide)
                      (not_mem_take_cons (noDigit decimal) (digits after))
                · cases found
            · cases found
        · cases found

theorem not_mem_radix {t : Text} {width : Nat} (found : radixWidth? t = some width) :
    CodePoint.scalar '\\' ∉ t.take width := by
  unfold radixWidth? at found
  split at found
  · next first mark rest =>
      split at found
      · next isZero =>
          obtain ⟨isDigit, isMark, found⟩ := Option.bind_eq_some_iff.mp found
          simp only at found
          -- The mark is a letter, and so are the digits that are no decimals.
          have known : mark ≠ .scalar '\\' ∧ isDigit (.scalar '\\') = false := by
            unfold radixDigit? at isMark
            split at isMark
            · next letter =>
                cases isMark
                exact ⟨by rcases letter with rfl | rfl <;> decide, by decide⟩
            · split at isMark
              · next letter =>
                  cases isMark
                  exact ⟨by rcases letter with rfl | rfl <;> decide, by decide⟩
              · split at isMark
                · next letter =>
                    cases isMark
                    exact ⟨by rcases letter with rfl | rfl <;> decide, by decide⟩
                · cases isMark
          split at found
          · cases found
          · cases found
            rw [show 2 + runLength isDigit rest + suffixWidth (rest.drop (runLength isDigit rest))
              = 1 + (1 + (runLength isDigit rest
                + suffixWidth (rest.drop (runLength isDigit rest)))) by omega, isZero]
            refine not_mem_take_cons (by decide) (not_mem_take_cons known.1 ?_)
            exact not_mem_take_add (not_mem_take_runLength known.2 rest) (not_mem_suffix _)
      · cases found
  · cases found

/-- **A numeral has no backslash.** -/
theorem not_mem_of_width? {t : Text} {width : Nat} (found : width? t = some width) :
    CodePoint.scalar '\\' ∉ t.take width := by
  unfold width? at found
  rcases Option.or_eq_some_iff.mp found with radix | ⟨_, decimal⟩
  · exact not_mem_radix radix
  · unfold decimalWidth? at decimal
    obtain ⟨mantissa, isMantissa, same⟩ := Option.bind_eq_some_iff.mp decimal
    cases same
    exact not_mem_take_add (not_mem_take_add (not_mem_mantissa isMantissa) (not_mem_exponent _))
      (not_mem_suffix _)

end Number

/-! ## §2. Literals. -/

namespace Scan

variable {c : CodePoint} {rest : Text}

theorem getLast?_cons_of_getLast? {t : Text} {d : CodePoint} (last : t.getLast? = some d)
    (c : CodePoint) : (c :: t).getLast? = some d := by
  rw [List.getLast?_cons, last]
  rfl

/-- A string that is closed ends with its quote. -/
theorem getLast?_string {quote : CodePoint} {skip : Nat} {t : Text} {body : Decoded}
    (read : stringBody quote skip t = .ok body) (closes : stringCloses quote skip t = true) :
    (t.take body.width).getLast? = some quote := by
  induction t generalizing skip body with
  | nil => cases skip <;> cases closes
  | cons c rest ih =>
      have later {skip : Nat} {inner : Decoded} (found : stringBody quote skip rest = .ok inner)
          (closes : stringCloses quote skip rest = true) :
          ((c :: rest).take (inner.width + 1)).getLast? = some quote := by
        rw [List.take_succ_cons]
        exact getLast?_cons_of_getLast? (ih found closes) c
      cases skip with
      | succ skip =>
          rw [stringBody] at read
          rw [stringCloses] at closes
          obtain ⟨inner, found, same⟩ := bind_eq_ok.mp read
          cases same
          exact later found closes
      | zero =>
          rw [stringBody] at read
          rw [stringCloses] at closes
          by_cases backslash : c = .scalar '\\'
          · rw [if_pos backslash] at read closes
            obtain ⟨escape, decoded, read⟩ := bind_eq_ok.mp read
            obtain ⟨inner, found, same⟩ := bind_eq_ok.mp read
            cases same
            rw [decoded] at closes
            exact later found closes
          rw [if_neg backslash] at read closes
          by_cases atQuote : c = quote
          · rw [if_pos atQuote] at read
            cases read
            rw [atQuote]
            rfl
          rw [if_neg atQuote] at read closes
          by_cases atNewline : c = .scalar '\n'
          · rw [if_pos atNewline] at closes
            cases closes
          rw [if_neg atNewline] at read closes
          obtain ⟨inner, found, same⟩ := bind_eq_ok.mp read
          cases same
          exact later found closes

/-- Template text that is closed ends with a backtick, or with the brace of a substitution. -/
theorem getLast?_template {skip : Nat} {t : Text} {body : TemplateText}
    (read : templateBody skip t = .ok body) (closes : templateCloses skip t = true) :
    (t.take body.width).getLast? = some (.scalar '\x60')
      ∨ (t.take body.width).getLast? = some (.scalar '{') := by
  induction t generalizing skip body with
  | nil => cases skip <;> cases closes
  | cons c rest ih =>
      have later {skip : Nat} {inner : TemplateText} (found : templateBody skip rest = .ok inner)
          (closes : templateCloses skip rest = true) :
          ((c :: rest).take (inner.width + 1)).getLast? = some (.scalar '\x60')
            ∨ ((c :: rest).take (inner.width + 1)).getLast? = some (.scalar '{') := by
        rw [List.take_succ_cons]
        exact (ih found closes).imp (getLast?_cons_of_getLast? · c) (getLast?_cons_of_getLast? · c)
      cases skip with
      | succ skip =>
          rw [templateBody] at read
          rw [templateCloses] at closes
          obtain ⟨inner, found, same⟩ := bind_eq_ok.mp read
          cases same
          exact later found closes
      | zero =>
          rw [templateBody] at read
          rw [templateCloses] at closes
          by_cases backslash : c = .scalar '\\'
          · rw [if_pos backslash] at read closes
            obtain ⟨escape, decoded, read⟩ := bind_eq_ok.mp read
            obtain ⟨inner, found, same⟩ := bind_eq_ok.mp read
            cases same
            rw [decoded] at closes
            exact later found closes
          rw [if_neg backslash] at read closes
          by_cases atBacktick : c = .scalar '\x60'
          · rw [if_pos atBacktick] at read
            cases read
            rw [atBacktick]
            exact .inl rfl
          rw [if_neg atBacktick] at read closes
          by_cases opens : c = .scalar '$' ∧ rest.head? = some (.scalar '{')
          · rw [if_pos opens] at read
            cases read
            right
            cases rest with
            | nil => cases opens.2
            | cons d rest =>
                rw [Option.some.inj opens.2]
                rfl
          rw [if_neg opens] at read closes
          obtain ⟨inner, found, same⟩ := bind_eq_ok.mp read
          cases same
          exact later found closes

/-- A regular expression ends with a slash or with a flag. -/
theorem endsPlainly_regex {inClass : Bool} {t : Text} {width : Nat}
    (found : regexWidth? inClass t = some width) : Text.EndsPlainly (t.take width) := by
  induction hn : t.length using Nat.strongRecOn generalizing t inClass width with
  | ind n ih =>
      subst hn
      have later (front : Text) {after : Text} {inClass : Bool} (positive : 0 < front.length)
          (whole : t = front ++ after)
          (found : (regexWidth? inClass after).map (· + front.length) = some width) :
          Text.EndsPlainly (t.take width) := by
        obtain ⟨w, isWidth, rfl⟩ := Option.map_eq_some_iff.mp found
        have plain := ih after.length (by rw [whole, List.length_append]; omega) isWidth rfl
        have nonempty : after.take w ≠ [] := by
          have positive := regexWidth?_pos isWidth
          have bound := regexWidth?_le isWidth
          rw [← List.length_pos_iff, List.length_take]
          omega
        rw [whole, Nat.add_comm, List.take_length_add_append]
        exact plain.append nonempty front
      rw [regexWidth?.eq_def] at found
      split at found
      · cases found
      · next c rest =>
          split at found
          · split at found
            · cases found
            · next d after => exact later [c, d] Nat.two_pos rfl found
          split at found
          · cases found
          split at found
          · exact later [c] Nat.one_pos rfl found
          split at found
          · exact later [c] Nat.one_pos rfl found
          split at found
          · next closes =>
              cases found
              rw [closes.1]
              exact .of_not_mem (not_mem_take_cons (by decide) (not_mem_take_runLength (by decide) rest))
          · exact later [c] Nat.one_pos rfl found

/-! ## §3. Lexemes. -/

variable {braces : List OpenBrace} {previous : Option Lexeme} {found : Found}

/-- A name has no backslash. -/
theorem not_mem_name {t : Text} {width : Nat} (isWidth : nameWidth t = width + 1) :
    CodePoint.scalar '\\' ∉ t.take (width + 1) := by
  cases t with
  | nil => exact List.not_mem_nil
  | cons c rest =>
      simp only [nameWidth] at isWidth
      split at isWidth
      · next begins =>
          have first : c ≠ .scalar '\\' := by
            rintro rfl
            exact absurd begins (by decide)
          rw [← isWidth]
          exact not_mem_take_cons first (not_mem_take_runLength (by decide) rest)
      · cases isWidth

theorem endsPlainly_punctuator (notStray : ∀ d, (punctuator braces c rest).lexeme ≠ .stray d) :
    Text.EndsPlainly (c :: rest.take (punctuator braces c rest).extra) := by
  have fits := punctuator_fits braces c rest
  unfold punctuator at fits notStray ⊢
  simp only at fits notStray ⊢
  split
  · next spelling p isFound =>
      rw [isFound] at fits
      have spells : c :: rest.take (spelling.length - 1) = p.text := fits.spells.2 rfl
      simp only
      rw [spells]
      refine .of_not_mem ?_
      cases p <;> decide
  · next none =>
      rw [none] at notStray
      exact absurd rfl (notStray c)

/-- **A lexeme ends with no backslash,** unless it is a stray character or a literal that is
not closed. -/
theorem endsPlainly_of_lexeme (read : lexeme braces previous c rest = .ok found)
    (notStray : ∀ d, found.lexeme ≠ .stray d) {stop : Nat} {newline : Bool}
    (closed : Token.isClosed (c :: rest) ⟨found.lexeme, 0, stop, newline⟩ = true) :
    Text.EndsPlainly (c :: rest.take found.extra) := by
  have ofString {quote : Quote} (read : stringLiteral quote braces rest = .ok found) :
      Text.EndsPlainly (c :: rest.take found.extra) := by
    obtain ⟨body, isBody, same⟩ := bind_eq_ok.mp read
    cases same
    refine .of_getLast? (getLast?_cons_of_getLast? (getLast?_string isBody closed) c) ?_
    cases quote <;> decide
  have ofTemplate {opening : Bool} {braces : List OpenBrace}
      (read : templatePart opening braces rest = .ok found) :
      Text.EndsPlainly (c :: rest.take found.extra) := by
    obtain ⟨body, isBody, same⟩ := bind_eq_ok.mp read
    cases same
    have closes : templateCloses 0 rest = true := by
      cases opening <;> cases opens : body.opensSubstitution <;> rw [opens] at closed <;> exact closed
    rcases getLast?_template isBody closes with last | last
    · exact .of_getLast? (getLast?_cons_of_getLast? last c) (by decide)
    · exact .of_getLast? (getLast?_cons_of_getLast? last c) (by decide)
  have ofPunctuator (isFound : punctuator braces c rest = found) :
      Text.EndsPlainly (c :: rest.take found.extra) := by
    subst isFound
    exact endsPlainly_punctuator notStray
  unfold lexeme at read
  split at read
  · exact ofString read
  split at read
  · exact ofString read
  split at read
  · exact ofTemplate read
  split at read
  · split at read
    · next width isWidth =>
        cases read
        have positive := (Number.width?_bounds isWidth).1
        have none := Number.not_mem_of_width? isWidth
        rw [← Nat.sub_add_cancel positive, List.take_succ_cons] at none
        exact .of_not_mem none
    · cases read
  split at read
  · next isHash =>
      split at read
      · cases read
        exact absurd rfl (notStray c)
      · next width isWidth =>
          cases read
          refine .of_not_mem fun inside => ?_
          rcases List.mem_cons.mp inside with same | inside
          · rw [isHash.1] at same
            exact absurd same (by decide)
          · exact not_mem_name isWidth inside
  split at read
  · next isSlash =>
      split at read
      · next width isWidth =>
          cases read
          have positive := regexWidth?_pos isWidth
          have bound := regexWidth?_le isWidth
          refine (endsPlainly_regex isWidth).append ?_ [c]
          rw [← List.length_pos_iff, List.length_take]
          omega
      · exact ofPunctuator (Except.ok.inj read)
  split at read
  · exact ofTemplate read
  · have isFound := Except.ok.inj read
    unfold nameOrPunctuator at isFound
    split at isFound
    · exact ofPunctuator isFound
    · next width isWidth =>
        subst isFound
        have none := not_mem_name isWidth
        rw [List.take_succ_cons] at none
        exact .of_not_mem none

/-- **The text up to a token ends with no backslash.** -/
theorem Way.endsPlainly {text b : Text} {before after : List Token} {t : Token} {memory : Memory}
    (way : Way text before t after memory b c rest found) (notStray : t.isStray = false)
    (closed : t.isClosed text = true) : Text.EndsPlainly (b ++ c :: rest.take found.extra) := by
  have isClosed : Token.isClosed (c :: rest) ⟨found.lexeme, 0, t.stop, t.newlineBefore⟩ = true := by
    have left : text.drop (t.start + 1) = rest := by
      rw [← List.drop_drop, way.left]
      rfl
    unfold Token.isClosed at closed ⊢
    rw [left, way.lexeme] at closed
    exact closed
  refine (endsPlainly_of_lexeme way.read ?_ isClosed).append (List.cons_ne_nil _ _) b
  intro d same
  unfold Token.isStray at notStray
  rw [way.lexeme, same] at notStray
  cases notStray

end Scan

end StackLint
