/-
  StackLint.Proofs.Token.Cut
  ──────────────────────────
  **TOKENS AND GAPS ARE THE WHOLE TEXT.**

  The tokens of a text, with the blanks and comments between them, are the text
  again: no code point is lost or read twice.  `Cut` says so for the text from
  an offset on, and it also says what a gap is made of, which tokens spell their
  lexeme, and where a newline was skipped.
-/
import StackLint.Proofs.Except
import StackLint.Proofs.Token.Walk

namespace StackLint

namespace Scan

/-! ## §1. Gaps. -/

/-- The rest of a block comment, up to its first closing delimiter. -/
inductive ClosedComment : Text → Prop where
  | close : ClosedComment [.scalar '*', .scalar '/']
  | char {c : CodePoint} {body : Text} :
      ¬ (c = .scalar '*' ∧ body.head? = some (.scalar '/')) → ClosedComment body →
      ClosedComment (c :: body)

/-- The rest of a block comment that is never closed. -/
inductive OpenComment : Text → Prop where
  | nil : OpenComment []
  | char {c : CodePoint} {body : Text} :
      ¬ (c = .scalar '*' ∧ body.head? = some (.scalar '/')) → OpenComment body →
      OpenComment (c :: body)

/-- **What stands between tokens:** blanks, newlines and comments.  The `last`
gap, the one at the end of the text, may end inside a comment. -/
inductive Gap (last : Bool) : Text → Prop where
  | nil : Gap last []
  | blank {c : CodePoint} {rest : Text} : c = .scalar '\n' ∨ isBlank c = true → Gap last rest →
      Gap last (c :: rest)
  | line {body rest : Text} : .scalar '\n' ∉ body → Gap last rest →
      Gap last (.scalar '/' :: .scalar '/' :: (body ++ .scalar '\n' :: rest))
  | block {body rest : Text} : ClosedComment body → Gap last rest →
      Gap last (.scalar '/' :: .scalar '*' :: (body ++ rest))
  | openLine {body : Text} : last = true → .scalar '\n' ∉ body →
      Gap last (.scalar '/' :: .scalar '/' :: body)
  | openBlock {body : Text} : last = true → OpenComment body →
      Gap last (.scalar '/' :: .scalar '*' :: body)

/-- A piece of text that can stand in front of any gap. -/
def LeadsGap (piece : Text) : Prop :=
  ∀ last rest, Gap last rest → Gap last (piece ++ rest)

/-- A block comment is closed, or it takes all that is left. -/
theorem blockComment_spec (t : Text) :
    (blockComment t).2 = (t.take (blockComment t).1).contains (.scalar '\n')
      ∧ ((∃ body rest, t = body ++ rest ∧ ClosedComment body ∧ (blockComment t).1 = body.length)
        ∨ (OpenComment t ∧ (blockComment t).1 = t.length)) := by
  induction t with
  | nil => exact ⟨rfl, .inr ⟨.nil, rfl⟩⟩
  | cons c rest ih =>
      unfold blockComment
      by_cases closes : c = .scalar '*' ∧ rest.head? = some (.scalar '/')
      · rw [if_pos closes]
        obtain ⟨rfl, head⟩ := closes
        obtain ⟨tail, rfl⟩ : ∃ tail, rest = CodePoint.scalar '/' :: tail := by
          cases rest with
          | nil => cases head
          | cons d tail => exact ⟨tail, by rw [Option.some.inj head]⟩
        exact ⟨rfl, .inl ⟨_, tail, rfl, .close, rfl⟩⟩
      · rw [if_neg closes]
        obtain ⟨newline, split⟩ := ih
        refine ⟨?_, ?_⟩
        · show ((blockComment rest).2 || c == .scalar '\n') = _
          rw [newline, List.take_succ_cons, List.contains_cons, Bool.or_comm]
          congr 1
          rw [Bool.eq_iff_iff, beq_iff_eq, beq_iff_eq]
          exact eq_comm
        · rcases split with ⟨body, tail, rfl, closed, width⟩ | ⟨neverClosed, width⟩
          · refine .inl ⟨c :: body, tail, rfl, .char ?_ closed, ?_⟩
            · intro closesHere
              refine closes ⟨closesHere.1, ?_⟩
              cases closed <;> exact closesHere.2
            · show (blockComment (body ++ tail)).1 + 1 = _
              rw [width, List.length_cons]
          · refine .inr ⟨.char closes neverClosed, ?_⟩
            show (blockComment rest).1 + 1 = _
            rw [width, List.length_cons]

/-! ## §2. Cuts. -/

end Scan

/-- The lexeme keeps what it was read from as it is. -/
def Lexeme.isVerbatim : Lexeme → Bool
  | .word _ | .number _ | .regex _ | .punct _ | .stray _ => true
  | _ => false

/-- A lexeme can be written so. -/
def Lexeme.Spells (l : Lexeme) (spelling : Text) : Prop :=
  l ≠ .endOfText ∧ (l.isVerbatim = true → spelling = l.value)

namespace Scan

/-- **The tokens cut a text that begins at `offset`:** gaps and spellings take
turns, the last token is the end of the text, and no other one is empty.  A
newline may be `pending` from before the text. -/
inductive Cut : (pending : Bool) → (offset : Nat) → Text → List Token → Prop where
  | last {pending : Bool} {offset : Nat} {gap : Text} {final : Token} :
      Gap true gap →
      final.lexeme = .endOfText →
      final.start = offset + gap.length →
      final.stop = final.start →
      final.newlineBefore = (pending || gap.contains (.scalar '\n')) →
      Cut pending offset gap [final]
  | token {pending : Bool} {offset : Nat} {gap spelling rest : Text} {t : Token}
      {tokens : List Token} :
      Gap false gap →
      spelling ≠ [] →
      t.lexeme.Spells spelling →
      t.start = offset + gap.length →
      t.stop = t.start + spelling.length →
      t.newlineBefore = (pending || gap.contains (.scalar '\n')) →
      Cut false t.stop rest tokens →
      Cut pending offset (gap ++ (spelling ++ rest)) (t :: tokens)

/-- A piece in front makes the first gap longer. -/
theorem Cut.lead {pending : Bool} {offset : Nat} {piece t : Text} {tokens : List Token}
    (leads : LeadsGap piece)
    (cut : Cut (pending || piece.contains (.scalar '\n')) (offset + piece.length) t tokens) :
    Cut pending offset (piece ++ t) tokens := by
  cases cut with
  | last gap isEnd start stop newline =>
      refine .last (leads _ _ gap) isEnd ?_ stop ?_
      · rw [start, List.length_append, Nat.add_assoc]
      · rw [newline, List.contains_append, Bool.or_assoc]
  | token gap nonempty spells start stop newline rest =>
      rw [← List.append_assoc]
      refine .token (leads _ _ gap) nonempty spells ?_ stop ?_ rest
      · rw [start, List.length_append, Nat.add_assoc]
      · rw [newline, List.contains_append, Bool.or_assoc]

theorem leadsGap_blank {c : CodePoint} (h : c = .scalar '\n' ∨ isBlank c = true) :
    LeadsGap [c] := by
  intro last rest gap
  exact .blank h gap

theorem leadsGap_line {body : Text} (h : .scalar '\n' ∉ body) :
    LeadsGap (.scalar '/' :: .scalar '/' :: (body ++ [.scalar '\n'])) := by
  intro last rest gap
  show Gap last (.scalar '/' :: .scalar '/' :: ((body ++ [.scalar '\n']) ++ rest))
  rw [List.append_assoc]
  exact .line h gap

theorem leadsGap_block {body : Text} (h : ClosedComment body) :
    LeadsGap (.scalar '/' :: .scalar '*' :: body) := by
  intro last rest gap
  exact .block h gap

/-! ## §3. Spellings. -/

theorem runLength_le (p : CodePoint → Bool) (t : Text) : runLength p t ≤ t.length := by
  unfold runLength
  exact (List.takeWhile_sublist p).length_le

/-- The text of a string lies in the text that is left. -/
theorem stringBody_width_le {quote : CodePoint} {skip : Nat} {t : Text} {body : Decoded}
    (h : stringBody quote skip t = .ok body) : body.width ≤ t.length := by
  induction t generalizing skip body with
  | nil =>
      cases skip <;>
        (cases h
         exact Nat.le_refl 0)
  | cons c rest ih =>
      rw [List.length_cons]
      cases skip with
      | succ skip =>
          rw [stringBody] at h
          obtain ⟨inner, found, same⟩ := bind_eq_ok.mp h
          cases same
          exact Nat.succ_le_succ (ih found)
      | zero =>
          rw [stringBody] at h
          split at h
          · obtain ⟨escape, _, h⟩ := bind_eq_ok.mp h
            obtain ⟨inner, found, same⟩ := bind_eq_ok.mp h
            cases same
            exact Nat.succ_le_succ (ih found)
          · split at h
            · cases h
              exact Nat.succ_le_succ (Nat.zero_le _)
            · split at h
              · cases h
                exact Nat.zero_le _
              · obtain ⟨inner, found, same⟩ := bind_eq_ok.mp h
                cases same
                exact Nat.succ_le_succ (ih found)

/-- The text of a template lies in the text that is left. -/
theorem templateBody_width_le {skip : Nat} {t : Text} {body : TemplateText}
    (h : templateBody skip t = .ok body) : body.width ≤ t.length := by
  induction t generalizing skip body with
  | nil =>
      cases skip <;>
        (cases h
         exact Nat.le_refl 0)
  | cons c rest ih =>
      rw [List.length_cons]
      cases skip with
      | succ skip =>
          rw [templateBody] at h
          obtain ⟨inner, found, same⟩ := bind_eq_ok.mp h
          cases same
          exact Nat.succ_le_succ (ih found)
      | zero =>
          rw [templateBody] at h
          split at h
          · obtain ⟨escape, _, h⟩ := bind_eq_ok.mp h
            obtain ⟨inner, found, same⟩ := bind_eq_ok.mp h
            cases same
            exact Nat.succ_le_succ (ih found)
          · split at h
            · cases h
              exact Nat.succ_le_succ (Nat.zero_le _)
            · split at h
              · next opens =>
                  -- the brace of the substitution is there
                  cases h
                  cases rest with
                  | nil => cases opens.2
                  | cons d after => exact Nat.succ_le_succ (Nat.succ_le_succ (Nat.zero_le _))
              · obtain ⟨inner, found, same⟩ := bind_eq_ok.mp h
                cases same
                exact Nat.succ_le_succ (ih found)

/-- A regular expression lies in the text that is left. -/
theorem regexWidth?_le {inClass : Bool} {t : Text} {width : Nat}
    (h : regexWidth? inClass t = some width) : width ≤ t.length := by
  induction hn : t.length using Nat.strongRecOn generalizing t inClass width with
  | ind n ih =>
      cases t with
      | nil => cases h
      | cons c rest =>
          rw [List.length_cons] at hn
          have inner : ∀ inClass width, (regexWidth? inClass rest).map (· + 1) = some width →
              width ≤ n := by
            intro inClass width h
            obtain ⟨w, found, rfl⟩ := Option.map_eq_some_iff.mp h
            have bound := ih rest.length (by omega) found rfl
            omega
          rw [regexWidth?.eq_def] at h
          simp only at h
          split at h
          · split at h
            · cases h
            · next d after =>
                obtain ⟨w, found, rfl⟩ := Option.map_eq_some_iff.mp h
                rw [List.length_cons] at hn
                have bound := ih after.length (by omega) found rfl
                omega
          · split at h
            · cases h
            · split at h
              · exact inner _ _ h
              · split at h
                · exact inner _ _ h
                · split at h
                  · cases h
                    have flags := runLength_le isFlag rest
                    omega
                  · exact inner _ _ h

theorem nameWidth_le (t : Text) : nameWidth t ≤ t.length := by
  cases t with
  | nil => exact Nat.le_refl 0
  | cons c rest =>
      have run := runLength_le isFlag rest
      simp only [nameWidth, List.length_cons]
      split <;> omega

end Scan

namespace Number

open Scan (runLength_le)

theorem suffixWidth_le (t : Text) : suffixWidth t ≤ t.length := by
  cases t with
  | nil => exact Nat.le_refl 0
  | cons c rest =>
      simp only [suffixWidth, List.length_cons]
      split <;> omega

theorem exponentWidth_le (t : Text) : exponentWidth t ≤ t.length := by
  cases t with
  | nil => exact Nat.le_refl 0
  | cons e rest =>
      cases rest with
      | nil =>
          have digits := runLength_le CodePoint.isDecimal []
          simp only [exponentWidth, List.drop_nil, List.length_cons, List.length_nil] at *
          split <;> (try split) <;> omega
      | cons c after =>
          have unsigned := runLength_le CodePoint.isDecimal (c :: after)
          have signed := runLength_le CodePoint.isDecimal after
          simp only [exponentWidth, List.length_cons] at *
          by_cases sign : c = .scalar '+' ∨ c = .scalar '-'
          · simp only [sign, if_true, List.drop_succ_cons, List.drop_zero]
            split <;> (try split) <;> omega
          · simp only [sign, if_false, List.drop_zero]
            split <;> (try split) <;> omega

/-- The integer part and the fraction are there, and they are not empty. -/
theorem mantissaWidth?_bounds {t : Text} {width : Nat} (h : mantissaWidth? t = some width) :
    0 < width ∧ width ≤ t.length := by
  cases t with
  | nil => cases h
  | cons c rest =>
      simp only [mantissaWidth?] at h
      rw [List.length_cons]
      have whole := runLength_le isDigitOrUnderscore rest
      split at h
      · split at h
        · next point after behind =>
            have behindWhole := congrArg List.length behind
            rw [List.length_drop, List.length_cons] at behindWhole
            have fraction := runLength_le isDigitOrUnderscore after
            split at h <;> (cases h; omega)
        · cases h
          omega
      · split at h
        · split at h
          · next d after =>
              have fraction := runLength_le isDigitOrUnderscore after
              rw [List.length_cons]
              split at h
              · cases h
                omega
              · cases h
          · cases h
        · cases h

theorem radixWidth?_bounds {t : Text} {width : Nat} (h : radixWidth? t = some width) :
    0 < width ∧ width ≤ t.length := by
  unfold radixWidth? at h
  split at h
  · next first mark rest =>
      split at h
      · obtain ⟨isDigit, _, h⟩ := Option.bind_eq_some_iff.mp h
        simp only at h
        have digits := runLength_le isDigit rest
        have suffix := suffixWidth_le (rest.drop (runLength isDigit rest))
        rw [List.length_drop] at suffix
        rw [List.length_cons, List.length_cons]
        split at h
        · cases h
        · cases h
          omega
      · cases h
  · cases h

/-- **A numeral lies in the text, and it is not empty.** -/
theorem width?_bounds {t : Text} {width : Nat} (h : width? t = some width) :
    0 < width ∧ width ≤ t.length := by
  unfold width? at h
  rcases Option.or_eq_some_iff.mp h with radix | ⟨_, decimal⟩
  · exact radixWidth?_bounds radix
  · unfold decimalWidth? at decimal
    obtain ⟨mantissa, found, same⟩ := Option.bind_eq_some_iff.mp decimal
    obtain ⟨positive, fits⟩ := mantissaWidth?_bounds found
    have exponent := exponentWidth_le (t.drop mantissa)
    have suffix := suffixWidth_le (t.drop (mantissa + exponentWidth (t.drop mantissa)))
    rw [List.length_drop] at exponent suffix
    cases same
    omega

end Number

theorem Punct.text_ne_nil (p : Punct) : p.text ≠ [] := by
  cases p <;> decide

/-- The punctuator that is found stands there. -/
theorem Punct.longest?_spec {allowed : Punct → Bool} {t spelling : Text} {p : Punct}
    (h : Punct.longest? allowed t = some (spelling, p)) :
    spelling = p.text ∧ ∃ rest, t = p.text ++ rest := by
  unfold Punct.longest? at h
  have listed := List.mem_of_find?_eq_some h
  have fits := List.find?_some h
  unfold Punct.table at listed
  obtain ⟨q, _, same⟩ := List.mem_map.mp listed
  cases same
  rw [Bool.and_eq_true, List.isPrefixOf_iff_prefix] at fits
  obtain ⟨rest, whole⟩ := fits.1
  exact ⟨rfl, rest, whole.symm⟩

namespace Scan

/-- A lexeme that is found at `c :: rest` lies in the text and is spelled as it
says. -/
structure Found.Fits (found : Found) (c : CodePoint) (rest : Text) : Prop where
  extra_le : found.extra ≤ rest.length
  spells : found.lexeme.Spells (c :: rest.take found.extra)

theorem punctuator_fits (braces : List OpenBrace) (c : CodePoint) (rest : Text) :
    (punctuator braces c rest).Fits c rest := by
  unfold punctuator
  simp only
  split
  · next spelling p found =>
      obtain ⟨rfl, after, whole⟩ := Punct.longest?_spec found
      have length := congrArg List.length whole
      rw [List.length_append, List.length_cons] at length
      have positive := List.length_pos_iff.mpr p.text_ne_nil
      refine ⟨?_, Lexeme.noConfusion, ?_⟩
      · show p.text.length - 1 ≤ rest.length
        omega
      · intro _
        show c :: rest.take (p.text.length - 1) = p.text
        rw [← List.take_succ_cons, Nat.sub_add_cancel positive, whole, List.take_left]
  · exact ⟨Nat.zero_le _, Lexeme.noConfusion, fun _ => rfl⟩

theorem nameOrPunctuator_fits (braces : List OpenBrace) (c : CodePoint) (rest : Text) :
    (nameOrPunctuator braces c rest).Fits c rest := by
  unfold nameOrPunctuator
  split
  · exact punctuator_fits braces c rest
  · next width found =>
      have bound := nameWidth_le (c :: rest)
      rw [found, List.length_cons] at bound
      refine ⟨?_, Lexeme.noConfusion, fun _ => rfl⟩
      show width ≤ rest.length
      omega

theorem stringLiteral_fits {quote : Quote} {braces : List OpenBrace} {c : CodePoint} {rest : Text}
    {found : Found} (h : stringLiteral quote braces rest = .ok found) : found.Fits c rest := by
  obtain ⟨body, read, same⟩ := bind_eq_ok.mp h
  cases same
  exact ⟨stringBody_width_le read, Lexeme.noConfusion, fun verbatim => nomatch verbatim⟩

theorem templatePart_fits {opening : Bool} {braces : List OpenBrace} {c : CodePoint} {rest : Text}
    {found : Found} (h : templatePart opening braces rest = .ok found) : found.Fits c rest := by
  obtain ⟨body, read, same⟩ := bind_eq_ok.mp h
  cases same
  refine ⟨templateBody_width_le read, ?_, ?_⟩ <;>
    cases opening <;> cases body.opensSubstitution <;> intro verbatim <;> cases verbatim

/-- **What the scanner finds fits the text.** -/
theorem lexeme_fits {braces : List OpenBrace} {previous : Option Lexeme} {c : CodePoint}
    {rest : Text} {found : Found} (h : lexeme braces previous c rest = .ok found) :
    found.Fits c rest := by
  unfold lexeme at h
  split at h
  · exact stringLiteral_fits h
  split at h
  · exact stringLiteral_fits h
  split at h
  · exact templatePart_fits h
  split at h
  · split at h
    · next width read =>
        cases h
        obtain ⟨positive, bound⟩ := Number.width?_bounds read
        rw [List.length_cons] at bound
        refine ⟨by show width - 1 ≤ _; omega, Lexeme.noConfusion, fun _ => ?_⟩
        show c :: rest.take (width - 1) = (c :: rest).take width
        rw [← List.take_succ_cons, Nat.sub_add_cancel positive]
    · cases h
  split at h
  · split at h
    · cases h
      exact ⟨Nat.zero_le _, Lexeme.noConfusion, fun _ => rfl⟩
    · next width read =>
        cases h
        have bound := nameWidth_le rest
        rw [read] at bound
        exact ⟨bound, Lexeme.noConfusion, fun _ => rfl⟩
  split at h
  · split at h
    · next width read =>
        cases h
        exact ⟨regexWidth?_le read, Lexeme.noConfusion, fun _ => rfl⟩
    · cases h
      exact punctuator_fits braces c rest
  split at h
  · exact templatePart_fits h
  · cases h
    exact nameOrPunctuator_fits braces c rest

/-! ## §4. What is skipped. -/

/-- **What the scanner skips at the head of a text:** so many code points, and
the newline that it remembers. -/
inductive Skipped (t : Text) (width : Nat) (newline : Bool) : Prop where
  /-- A blank, a newline or a closed comment. -/
  | piece (piece after : Text) (whole : t = piece ++ after) (leads : LeadsGap piece)
      (isWidth : width = piece.length) (isNewline : newline = piece.contains (.scalar '\n'))
  /-- A line comment, without the newline behind it. -/
  | line (body after : Text)
      (whole : t = .scalar '/' :: .scalar '/' :: (body ++ .scalar '\n' :: after))
      (oneLine : .scalar '\n' ∉ body) (isWidth : width = body.length + 2)
      (isNewline : newline = false)
  /-- A comment that takes all that is left. -/
  | all (gap : Gap true t) (isWidth : width = t.length)
      (isNewline : newline = t.contains (.scalar '\n'))

theorem Skipped.width_le {t : Text} {width : Nat} {newline : Bool}
    (h : Skipped t width newline) : width ≤ t.length := by
  cases h with
  | piece piece after whole _ isWidth _ =>
      rw [whole, isWidth, List.length_append]
      exact Nat.le_add_right _ _
  | line body after whole _ isWidth _ =>
      rw [whole, isWidth]
      simp only [List.length_cons, List.length_append]
      omega
  | all _ isWidth _ => exact Nat.le_of_eq isWidth

theorem contains_newline_cons {c : CodePoint} (h : c ≠ .scalar '\n') (t : Text) :
    List.contains (c :: t) (.scalar '\n') = t.contains (.scalar '\n') := by
  rw [List.contains_cons, beq_eq_false_iff_ne.mpr (Ne.symm h), Bool.false_or]

theorem skipped_newline (rest : Text) : Skipped (.scalar '\n' :: rest) 1 true :=
  .piece [.scalar '\n'] rest rfl (leadsGap_blank (.inl rfl)) rfl rfl

theorem skipped_blank {c : CodePoint} (notNewline : c ≠ .scalar '\n') (blank : isBlank c = true)
    (rest : Text) : Skipped (c :: rest) 1 false := by
  refine .piece [c] rest rfl (leadsGap_blank (.inr blank)) rfl ?_
  rw [contains_newline_cons notNewline]
  rfl

/-- A line comment goes up to a newline or to the end of the text. -/
theorem skipped_line (rest : Text) :
    Skipped (.scalar '/' :: .scalar '/' :: rest) (runLength (· != (.scalar '\n')) rest + 2)
      false := by
  have cut := List.takeWhile_append_dropWhile (p := (· != (CodePoint.scalar '\n'))) (l := rest)
  have oneLine : CodePoint.scalar '\n' ∉ rest.takeWhile (· != (.scalar '\n')) := by
    intro inside
    have stops := List.all_eq_true.mp List.all_takeWhile _ inside
    rw [bne_self_eq_false] at stops
    cases stops
  unfold runLength
  cases behind : rest.dropWhile (· != (CodePoint.scalar '\n')) with
  | nil =>
      rw [behind, List.append_nil] at cut
      rw [cut] at oneLine ⊢
      refine .all (.openLine rfl oneLine) rfl ?_
      rw [contains_newline_cons (by decide), contains_newline_cons (by decide)]
      simpa using oneLine
  | cons e tail =>
      have isNewline : e = .scalar '\n' := by
        have first := List.head?_dropWhile_not (· != (CodePoint.scalar '\n')) rest
        rw [behind] at first
        simpa using first
      rw [behind, isNewline] at cut
      exact .line _ tail (by rw [cut]) oneLine rfl rfl

theorem skipped_block (rest : Text) :
    Skipped (.scalar '/' :: .scalar '*' :: rest) ((blockComment rest).1 + 2)
      (blockComment rest).2 := by
  obtain ⟨newline, ⟨body, tail, whole, closed, width⟩ | ⟨neverClosed, width⟩⟩ :=
    blockComment_spec rest
  · refine .piece (.scalar '/' :: .scalar '*' :: body) tail ?_ (leadsGap_block closed) ?_ ?_
    · rw [whole, List.cons_append, List.cons_append]
    · rw [width, List.length_cons, List.length_cons]
    · rw [contains_newline_cons (by decide), contains_newline_cons (by decide), newline, width,
        whole, List.take_left]
  · refine .all (.openBlock rfl neverClosed) ?_ ?_
    · rw [width, List.length_cons, List.length_cons]
    · rw [contains_newline_cons (by decide), contains_newline_cons (by decide), newline, width,
        List.take_length]

/-- **What is skipped between tokens is a gap, or begins one.** -/
theorem skipped_of_trivia? {c : CodePoint} {rest : Text} {extra : Nat} {newline : Bool}
    (h : trivia? c rest = some (extra, newline)) : Skipped (c :: rest) (extra + 1) newline := by
  unfold trivia? at h
  by_cases atNewline : c = .scalar '\n'
  · rw [if_pos atNewline] at h
    cases h
    subst atNewline
    exact skipped_newline rest
  rw [if_neg atNewline] at h
  by_cases blank : isBlank c = true
  · rw [if_pos blank] at h
    cases h
    exact skipped_blank atNewline blank rest
  rw [if_neg blank] at h
  by_cases slash : c = .scalar '/'
  · subst slash
    rw [if_pos rfl] at h
    cases rest with
    | nil => cases h
    | cons d after =>
        simp only at h
        split at h
        · next isLine =>
            subst isLine
            cases h
            rw [Nat.add_comm 1]
            exact skipped_line after
        · split at h
          · next isBlock =>
              subst isBlock
              cases h
              rw [Nat.add_comm 1]
              exact skipped_block after
          · cases h
  · rw [if_neg slash] at h
    cases h

/-! ## §5. The whole text. -/

/-- What is skipped joins the gap in front of the first token.  A line comment
joins it only together with its newline, so the text behind the newline has to
be cut as well. -/
theorem Cut.skip {pending newline : Bool} {offset width : Nat} {t : Text} {tokens : List Token}
    (skipped : Skipped t width newline)
    (cut : Cut (pending || newline) (offset + width) (t.drop width) tokens)
    (behind : ∀ after, t.drop width = .scalar '\n' :: after →
      Cut true (offset + width + 1) after tokens) :
    Cut pending offset t tokens := by
  cases skipped with
  | piece piece after whole leads isWidth isNewline =>
      rw [whole, isWidth, List.drop_left, isNewline] at cut
      rw [whole]
      exact cut.lead leads
  | line body after whole oneLine isWidth isNewline =>
      have split : t = (.scalar '/' :: .scalar '/' :: (body ++ [.scalar '\n'])) ++ after := by
        rw [whole, List.cons_append, List.cons_append, List.append_assoc]
        rfl
      have dropped : t.drop width = .scalar '\n' :: after := by
        rw [whole, isWidth, List.drop_succ_cons, List.drop_succ_cons, List.drop_left]
      have pieceNewline : List.contains
          (CodePoint.scalar '/' :: .scalar '/' :: (body ++ [CodePoint.scalar '\n']))
          (.scalar '\n') = true := by
        simp
      have pieceLength : (CodePoint.scalar '/' :: .scalar '/' :: (body ++ [.scalar '\n'])).length
          = width + 1 := by
        rw [isWidth, List.length_cons, List.length_cons, List.length_append]
        rfl
      rw [split]
      refine .lead (leadsGap_line oneLine) ?_
      rw [pieceNewline, Bool.or_true, pieceLength]
      exact behind after dropped
  | all gap isWidth isNewline =>
      rw [isWidth, List.drop_length] at cut
      generalize nothing : ([] : Text) = rest at cut
      cases cut with
      | last _ isEnd start stop newline' =>
          subst nothing
          refine .last gap isEnd start stop ?_
          rw [newline', isNewline, List.contains_nil, Bool.or_false]
      | token _ nonempty =>
          have parts := List.append_eq_nil_iff.mp nothing.symm
          exact absurd (List.append_eq_nil_iff.mp parts.2).1 nonempty

/-- A lexeme is spelled behind an empty gap. -/
theorem Cut.lexeme {memory : Memory} {offset : Nat} {c : CodePoint} {rest : Text} {found : Found}
    {tokens : List Token} (fits : found.Fits c rest)
    (cut : Cut false (offset + 1 + found.extra) (rest.drop found.extra) tokens) :
    Cut memory.newline offset (c :: rest)
      (⟨found.lexeme, offset, offset + found.extra + 1, memory.newline⟩ :: tokens) := by
  have whole : c :: rest = [] ++ ((c :: rest.take found.extra) ++ rest.drop found.extra) := by
    rw [List.nil_append, List.cons_append, List.take_append_drop]
  rw [whole]
  refine .token .nil (List.cons_ne_nil _ _) fits.spells rfl ?_ (Bool.or_false _).symm ?_
  · show offset + found.extra + 1 = offset + (c :: rest.take found.extra).length
    rw [List.length_cons, List.length_take, Nat.min_eq_left fits.extra_le, Nat.add_assoc]
  · show Cut false (offset + found.extra + 1) _ _
    rw [Nat.add_right_comm]
    exact cut

/-- **The main loop cuts what is left of the text,** also behind a newline that
it skips. -/
theorem cut_of_tokensFrom {memory : Memory} {offset : Nat} {t : Text} {tokens : List Token}
    (h : tokensFrom memory 0 offset t = .ok tokens) :
    Cut memory.newline offset t tokens
      ∧ ∀ after, t = .scalar '\n' :: after → Cut true (offset + 1) after tokens := by
  induction memory, offset, t using walk_induct generalizing tokens with
  | nil memory offset =>
      rw [tokensFrom_nil] at h
      cases h
      exact ⟨.last .nil rfl rfl rfl (Bool.or_false _).symm, nofun⟩
  | trivia memory offset c rest extra newline trivial ih =>
      rw [tokensFrom_trivia trivial] at h
      obtain ⟨cut, behind⟩ := ih h
      have skipped := skipped_of_trivia? trivial
      have le := skipped.width_le
      have place : offset + 1 + extra = offset + (extra + 1) := by omega
      rw [List.length_cons] at le
      rw [Nat.min_eq_left (Nat.le_of_succ_le_succ le), place] at cut behind
      refine ⟨.skip skipped cut behind, ?_⟩
      rintro after ⟨⟩
      -- At a newline it is the newline that was skipped.
      cases trivial
      simp only [Bool.or_true, List.drop_zero] at cut
      exact cut
  | failure memory offset c rest failure trivial read =>
      rw [tokensFrom_failure trivial read] at h
      cases h
  | lexeme memory offset c rest found trivial read ih =>
      have fits := lexeme_fits read
      rw [tokensFrom_lexeme trivial read] at h
      rw [Nat.min_eq_left fits.extra_le] at h ih
      cases later : tokensFrom found.memory 0 (offset + 1 + found.extra) (rest.drop found.extra) with
      | error failure =>
          rw [later] at h
          cases h
      | ok others =>
          rw [later] at h
          cases h
          refine ⟨.lexeme fits (ih later).1, ?_⟩
          rintro after ⟨⟩
          cases trivial

theorem hashbangWidth_le (t : Text) : hashbangWidth t ≤ t.length := by
  unfold hashbangWidth
  split
  · next c d rest =>
      have run := runLength_le (· != (.scalar '\n')) rest
      rw [List.length_cons, List.length_cons]
      split <;> omega
  · exact Nat.zero_le _

/-- **The tokens of a text cut it,** from behind the line that names an
interpreter. -/
theorem cut_of_tokenize {t : Text} {tokens : List Token} (h : tokenize t = .ok tokens) :
    Cut false (hashbangWidth t) (t.drop (hashbangWidth t)) tokens := by
  unfold tokenize at h
  rw [tokensFrom_skip, Nat.min_eq_left (hashbangWidth_le t), Nat.zero_add] at h
  exact (cut_of_tokensFrom h).1

end Scan

end StackLint
