/-
  StackLint.Proofs.Print.Behind
  ─────────────────────────────
  **WHAT STANDS BEHIND A PRINTED EXPRESSION.**

  Some lexemes go on with the operand in front of them, others end the whole expression.
  What comes later can still turn an expression in parentheses into the parameters of an
  arrow function: `( b ) : p =>` begins one, for the reader takes the name behind the colon
  for a return type.  Nothing else that is printed can be taken for one.
-/
import StackLint.Proofs.Print.Consumes
import StackLint.Proofs.Print.Phrase

namespace StackLint

/-! ## §1. Ends. -/

namespace Lexeme

/-- The punctuators that go on with the operand in front of them. -/
def continuations : List Punct :=
  [.dot, .optionalDot, .openBracket, .openParen, .bang, .lt, .increment, .decrement]

/-- The lexeme does not go on with the operand in front of it. -/
def endsOperand : Lexeme → Bool
  | .word _ => true
  | .punct p => !continuations.contains p
  | .templateTail _ => true
  | _ => false

/-- The lexeme ends every expression without commas in front of it. -/
def endsExpression : Lexeme → Bool
  | .punct p =>
      [Punct.comma, .closeParen, .closeBracket, .closeBrace, .colon, .semicolon].contains p
  | .templateTail _ => true
  | _ => false

theorem endsOperand_of_endsExpression {l : Lexeme} (ends : l.endsExpression = true) :
    l.endsOperand = true := by
  cases l with
  | punct p => cases p <;> first | rfl | cases ends
  | templateTail => rfl
  | _ => cases ends

theorem word_ne_punct (name : Text) (p : Punct) : Lexeme.word name ≠ .punct p := by
  intro same
  cases same

theorem ne_question_of_endsExpression {l : Lexeme} (ends : l.endsExpression = true) :
    l ≠ .punct .question := by
  rintro rfl
  cases ends

theorem ne_of_endsOperand {l : Lexeme} {p : Punct} (ends : l.endsOperand = true)
    (goesOn : p ∈ continuations) : l ≠ .punct p := by
  rintro rfl
  rw [endsOperand, List.contains_iff_mem.mpr goesOn] at ends
  cases ends

theorem ne_punct_of_begins {l : Lexeme} {p : Punct} (begins : l.begins = true)
    (other : (Lexeme.punct p).begins = false) : l ≠ .punct p := by
  rintro rfl
  rw [other] at begins
  cases begins

/-- What closes a group begins no operand. -/
theorem ne_of_begins {l : Lexeme} {closer : Punct} (begins : l.begins = true)
    (closes : closer.closesGroup = true) : l ≠ .punct closer := by
  refine ne_punct_of_begins begins ?_
  cases closer <;> first | rfl | cases closes

theorem endsExpression_of_closesGroup {closer : Punct} (closes : closer.closesGroup = true) :
    (Lexeme.punct closer).endsExpression = true := by
  cases closer <;> first | rfl | cases closes

theorem ne_of_closesGroup {closer p : Punct} (closes : closer.closesGroup = true)
    (other : p.closesGroup = false) : Lexeme.punct closer ≠ .punct p := by
  intro same
  injection same with same
  rw [same, other] at closes
  cases closes

end Lexeme

/-- Where an operand begins, the text does not end. -/
theorem Token.isEnd_eq_false {l : Lexeme} {start stop : Nat} {newline : Bool}
    (begins : l.begins = true) : Token.isEnd ⟨l, start, stop, newline⟩ = false := by
  refine beq_eq_false_iff_ne.mpr ?_
  rintro rfl
  cases begins

theorem Phrase.firstOf_begins {ls : List Lexeme} (phrase : Phrase ls) (rest : List Lexeme) :
    (firstOf (ls ++ rest)).begins = true := by
  obtain ⟨l, others, rfl, begins⟩ := phrase.begins
  exact begins

/-! ## §2. Rows of tokens. -/

/-- The tokens show the given lexemes, and no line ends in front of an arrow. -/
structure InRow (ls : List Lexeme) (tokens : List Token) : Prop where
  lexemes : tokens.map Token.lexeme = ls
  arrows : ∀ t ∈ tokens, t.lexeme = .punct .arrow → t.newlineBefore = false

theorem ParserState.Sees.inRow {total depth : Nat} {ls : List Lexeme} {s : ParserState}
    (sees : s.Sees total depth ls) : InRow ls s.ahead :=
  ⟨sees.ahead, sees.arrows⟩

namespace InRow

variable {l : Lexeme} {ls ls' : List Lexeme} {tokens : List Token}

theorem of_cons (row : InRow (l :: ls) tokens) :
    ∃ t rest, tokens = t :: rest ∧ t.Shows l ∧ InRow ls rest := by
  obtain ⟨lexemes, arrows⟩ := row
  obtain ⟨t, rest, rfl, isFirst, others⟩ := List.map_eq_cons_iff.mp lexemes
  obtain ⟨first, later⟩ := List.forall_mem_cons.mp arrows
  exact ⟨t, rest, rfl, ⟨isFirst, fun isArrow => first (isFirst.trans isArrow)⟩, others, later⟩

theorem of_append (row : InRow (ls ++ ls') tokens) :
    ∃ front back, tokens = front ++ back ∧ InRow ls front ∧ InRow ls' back := by
  obtain ⟨lexemes, arrows⟩ := row
  obtain ⟨front, back, rfl, isFront, isBack⟩ := List.map_eq_append_iff.mp lexemes
  obtain ⟨arrowsFront, arrowsBack⟩ := List.forall_mem_append.mp arrows
  exact ⟨front, back, rfl, ⟨isFront, arrowsFront⟩, isBack, arrowsBack⟩

/-- The first token, if there is one. -/
theorem first {t : Token} {rest : List Token} (row : InRow ls (t :: rest)) :
    t.lexeme = firstOf ls := by
  rw [← row.lexemes]
  rfl

end InRow

/-! ## §3. Scans over contained tokens. -/

namespace Lookahead

open StackLint.Parser (groupWidth groupWidth_le)

/-- Every group that begins among the tokens ends among them, and nothing else makes a scan
over a type go on. -/
structure Held (tokens : List Token) : Prop where
  groups : ∀ t rest, t :: rest <:+ tokens → t.opensGroup = true →
    ∀ more, groupWidth 0 (t :: (rest ++ more)) ≤ rest.length + 1
  harmless : ∀ t ∈ tokens, t.lexeme.isHarmless = true

theorem not_opensGroup_of_closesGroup {t : Token} (closes : t.closesGroup = true) :
    t.opensGroup = false := by
  obtain ⟨p, isPunct, closes⟩ := exists_punct_of_closesGroup closes
  unfold Token.opensGroup
  rw [isPunct]
  cases p <;> first | rfl | cases closes

/-- A group among balanced tokens has the same width whatever stands behind them. -/
theorem IsBalanced.groupWidth_append {tokens : List Token} (balanced : IsBalanced tokens) {t : Token}
    {rest : List Token} (inside : t :: rest <:+ tokens) (opens : t.opensGroup = true)
    (more : List Token) : groupWidth 0 (t :: (rest ++ more)) = groupWidth 0 (t :: rest) := by
  induction balanced generalizing t rest more with
  | nil => cases List.suffix_nil.mp inside
  | flat isFlat _ ih =>
      rcases List.suffix_cons_iff.mp inside with same | later
      · cases same
        rw [isFlat.1] at opens
        cases opens
      · exact ih later opens more
  | @group opener closer inner later opens' within closes _ ihInside ihBehind =>
      rcases List.suffix_cons_iff.mp inside with same | ⟨front, split⟩
      · cases same
        rw [List.append_assoc, List.cons_append, groupWidth_group opens' within closes,
          groupWidth_group opens' within closes]
      have notCloser : t ≠ closer := by
        rintro rfl
        rw [not_opensGroup_of_closesGroup closes] at opens
        cases opens
      -- The group begins in front of the closing bracket, or else behind it.
      rcases List.append_eq_append_iff.mp split with ⟨between, isInner, isBack⟩ | ⟨between, _, isBack⟩
      · cases between with
        | nil =>
            cases isBack
            exact absurd rfl notCloser
        | cons u between =>
            cases isBack
            have inside' : t :: between <:+ inner := ⟨front, isInner.symm⟩
            show groupWidth 0 (t :: (between ++ closer :: later ++ more))
              = groupWidth 0 (t :: (between ++ closer :: later))
            rw [List.append_assoc, ihInside inside' opens, ihInside inside' opens]
      · cases between with
        | nil =>
            cases isBack
            exact absurd rfl notCloser
        | cons u between =>
            cases isBack
            exact ihBehind ⟨between, rfl⟩ opens more

theorem Held.of_balanced {tokens : List Token} (balanced : IsBalanced tokens)
    (harmless : ∀ t ∈ tokens, t.lexeme.isHarmless = true) : Held tokens where
  groups t rest inside opens more := by
    rw [balanced.groupWidth_append inside opens more]
    exact groupWidth_le 0 _
  harmless := harmless

theorem Held.tail {t : Token} {rest : List Token} (held : Held (t :: rest)) : Held rest where
  groups u later inside := held.groups u later (inside.trans (List.suffix_cons t rest))
  harmless u inside := held.harmless u (List.mem_cons_of_mem _ inside)

/-- What is dropped from the tokens leaves one of them at the head, or the one that ends the
expression. -/
theorem head_mem_of_drop {tokens beyond later : List Token} {e t : Token} {n : Nat}
    (short : n ≤ tokens.length) (isDropped : (tokens ++ e :: beyond).drop n = t :: later) :
    t ∈ tokens ++ [e] := by
  rw [List.drop_append_of_le_length short] at isDropped
  cases left : tokens.drop n with
  | nil =>
      rw [left] at isDropped
      cases isDropped
      exact List.mem_append_right _ (List.mem_singleton_self _)
  | cons u others =>
      rw [left] at isDropped
      cases isDropped
      exact List.mem_append_left _ (List.mem_of_mem_drop (left ▸ List.mem_cons_self ..))

section

variable {e : Token} (ends : e.lexeme.endsExpression = true) (beyond : List Token)

include ends

theorem exists_of_ends : (∃ value, e.lexeme = .templateTail value) ∨ ∃ p : Punct, e.lexeme = .punct p
    ∧ p ∈ [Punct.comma, .closeParen, .closeBracket, .closeBrace, .colon, .semicolon] := by
  unfold Lexeme.endsExpression at ends
  split at ends
  · next p isPunct => exact .inr ⟨p, isPunct, List.contains_iff_mem.mp ends⟩
  · next value isTail => exact .inl ⟨value, isTail⟩
  · cases ends

/-- A scan over a type stops at the lexeme. -/
theorem typeWidth_ends (operand : Bool) : typeWidth operand 0 0 (e :: beyond) = 0 := by
  obtain ⟨lexeme, start, stop, newlineBefore⟩ := e
  obtain ⟨value, isTail⟩ | ⟨p, isPunct, listed⟩ := exists_of_ends ends
  · cases isTail
    cases operand <;> rfl
  cases isPunct
  simp only [List.mem_cons, List.not_mem_nil, or_false] at listed
  rcases listed with rfl | rfl | rfl | rfl | rfl | rfl <;> cases operand <;> rfl

theorem is_of_ends {p : Punct}
    (other : p ∉ [Punct.comma, .closeParen, .closeBracket, .closeBrace, .colon, .semicolon]) :
    e.is p = false := by
  refine beq_eq_false_iff_ne.mpr fun same => other ?_
  obtain ⟨value, isTail⟩ | ⟨q, isPunct, listed⟩ := exists_of_ends ends
  · cases isTail.symm.trans same
  · cases isPunct.symm.trans same
    exact listed

/-- Neither a held token nor the one that ends the expression is an arrow or an angle
bracket. -/
theorem Held.is_eq_false {tokens : List Token} (held : Held tokens) {p : Punct}
    (other : p = .lt ∨ p = .arrow) {t : Token} (inside : t ∈ tokens ++ [e]) : t.is p = false := by
  rcases List.mem_append.mp inside with among | isEnd
  · refine beq_eq_false_iff_ne.mpr fun same => ?_
    have harmless := held.harmless t among
    rw [same] at harmless
    rcases other with rfl | rfl <;> cases harmless
  · obtain rfl := List.mem_singleton.mp isEnd
    rcases other with rfl | rfl <;> exact is_of_ends ends (by decide)

theorem dottedWidth_le_of_ends (tokens : List Token) :
    dottedWidth (tokens ++ e :: beyond) ≤ tokens.length := by
  have notDot : e.is .dot = false := is_of_ends ends (by decide)
  have notWord : e.isWord = false := by
    obtain ⟨value, isTail⟩ | ⟨p, isPunct, _⟩ := exists_of_ends ends
    · rw [Token.isWord, isTail]
    · rw [Token.isWord, isPunct]
  induction tokens using dottedWidth.induct with
  | case1 dot name rest isName ih =>
      rw [List.cons_append, List.cons_append, dottedWidth, if_pos isName]
      exact Nat.add_le_add_right ih 2
  | case2 dot name rest noName =>
      rw [List.cons_append, List.cons_append, dottedWidth, if_neg noName]
      exact Nat.zero_le _
  | case3 tokens short =>
      cases tokens with
      | nil => cases beyond <;> simp [dottedWidth, notDot]
      | cons dot later =>
          cases later with
          | nil => simp [dottedWidth, notWord]
          | cons name rest => exact absurd rfl (short dot name rest)

/-- A name of a type ends in front of the lexeme. -/
theorem Held.namedTypeWidth_le {first : Token} {rest : List Token} (held : Held (first :: rest)) :
    namedTypeWidth first (rest ++ e :: beyond) ≤ rest.length := by
  have notImport : first.isTheWord "import" = false := by
    refine beq_eq_false_iff_ne.mpr fun same => ?_
    have harmless := held.harmless first (List.mem_cons_self ..)
    rw [same] at harmless
    cases harmless
  have dotted := dottedWidth_le_of_ends ends beyond rest
  unfold namedTypeWidth
  extract_lets imported dots named
  have noImport : imported = 0 := by
    unfold imported
    rw [notImport]
    split <;> rfl
  have short : named ≤ rest.length := by
    unfold named dots
    rw [noImport, List.drop_zero, Nat.zero_add]
    exact dotted
  split
  · next t behind isBehind =>
      have notLess := held.tail.is_eq_false ends (.inl rfl) (head_mem_of_drop short isBehind)
      rw [notLess, if_neg Bool.false_ne_true]
      exact short
  · exact short

/-- **A scan over a type stays in front of the lexeme.** -/
theorem Held.typeWidth_le {tokens : List Token} (held : Held tokens) (operand : Bool) {skip : Nat}
    (short : skip ≤ tokens.length) :
    typeWidth operand 0 skip (tokens ++ e :: beyond) ≤ tokens.length := by
  induction tokens generalizing operand skip with
  | nil =>
      rw [Nat.le_zero.mp short, List.nil_append, typeWidth_ends ends]
      exact Nat.zero_le _
  | cons t rest ih =>
      have goesOn (operand : Bool) {skip : Nat} (short : skip ≤ rest.length) :
          typeWidth operand 0 skip (rest ++ e :: beyond) + 1 ≤ rest.length + 1 :=
        Nat.succ_le_succ (ih held.tail operand short)
      rw [List.cons_append, List.length_cons]
      cases skip with
      | succ skip =>
          rw [List.length_cons] at short
          cases operand <;> exact goesOn _ (Nat.le_of_succ_le_succ short)
      | zero =>
          have group (opens : t.opensGroup = true) :
              groupWidth 0 (t :: (rest ++ e :: beyond)) - 1 ≤ rest.length :=
            Nat.sub_le_of_le_add (held.groups t rest (List.suffix_refl _) opens _)
          have harmless := held.harmless t (List.mem_cons_self ..)
          cases operand with
          | true =>
              rw [typeWidth]
              split
              · exact goesOn true (Nat.zero_le _)
              split
              · exact goesOn true (Nat.zero_le _)
              split
              · next isParen =>
                  have inside := group (Token.opensGroup_of_is isParen rfl)
                  dsimp only
                  split
                  · next arrow later isDropped =>
                      have notArrow := held.tail.is_eq_false ends (.inr rfl)
                        (head_mem_of_drop inside isDropped)
                      rw [notArrow, if_neg Bool.false_ne_true]
                      exact goesOn false inside
                  · exact goesOn false inside
              split
              · next isLess =>
                  rw [held.is_eq_false ends (.inl rfl) (List.mem_cons_self ..)] at isLess
                  cases isLess
              split
              · next opens =>
                  exact goesOn false (group (Token.opensGroup_of_isOneOf opens (by decide)))
              split
              · exact goesOn false (held.namedTypeWidth_le ends beyond)
              · exact goesOn false (Nat.zero_le _)
              · exact goesOn false (Nat.zero_le _)
              · exact goesOn false (Nat.zero_le _)
              · next isHead =>
                  rw [isHead] at harmless
                  cases harmless
              · exact Nat.zero_le _
          | false =>
              have notWord (word : String) (listed : Text.ofString word ∈ (["extends", "is"] : List Text)) :
                  t.isTheWord word = false := by
                refine beq_eq_false_iff_ne.mpr fun same => ?_
                have listed' := List.contains_iff_mem.mpr (List.mem_cons_of_mem (Text.ofString "import") listed)
                rw [same, Lexeme.isHarmless, listed'] at harmless
                cases harmless
              rw [typeWidth, notWord "extends" (by decide), notWord "is" (by decide)]
              split
              · next opens =>
                  exact goesOn false (group (Token.opensGroup_of_is (Bool.and_eq_true_iff.mp opens).1 rfl))
              split
              · exact goesOn true (Nat.zero_le _)
              exact Nat.zero_le _

end

end Lookahead

/-! ## §4. Arrow functions. -/

/-- The lexemes make no parameters of a group that stands in front of them. -/
def Frees (ls : List Lexeme) : Prop :=
  ∀ tokens, InRow ls tokens → ∀ group : List Token,
    Parser.groupWidth 0 (group ++ tokens) = group.length →
    Lookahead.arrowAfterParameters (group ++ tokens) = false

/-- No arrow function begins with the lexemes. -/
def NoArrow (ls : List Lexeme) : Prop :=
  ∀ tokens, InRow ls tokens → Lookahead.arrowAhead tokens = false

section

variable {l : Lexeme} {ls inner rest : List Lexeme}

/-- Neither an arrow comes next nor a return type. -/
theorem Frees.of_first (noArrow : firstOf ls ≠ .punct .arrow) (noColon : firstOf ls ≠ .punct .colon) :
    Frees ls := by
  intro tokens row group width
  unfold Lookahead.arrowAfterParameters
  rw [width, List.drop_left]
  cases tokens with
  | nil => rfl
  | cons t later =>
      rw [← row.first] at noArrow noColon
      dsimp only
      rw [Token.is, beq_eq_false_iff_ne.mpr noArrow, if_neg Bool.false_ne_true, Token.is,
        beq_eq_false_iff_ne.mpr noColon, if_neg Bool.false_ne_true]

/-- **What looks like a return type** has no arrow behind it. -/
theorem Frees.of_contained (contained : Contained ls) (ends : (firstOf rest).endsExpression = true) :
    Frees (.punct .colon :: (ls ++ rest)) := by
  intro tokens row group width
  obtain ⟨colon, others, rfl, isColon, behind⟩ := row.of_cons
  obtain ⟨front, back, rfl, isFront, isBack⟩ := behind.of_append
  have held : Lookahead.Held front := by
    refine .of_balanced (contained.balanced front isFront.lexemes) fun t inside => ?_
    refine contained.harmless _ ?_
    rw [← isFront.lexemes]
    exact List.mem_map_of_mem inside
  cases back with
  | nil =>
      rw [← isBack.lexemes] at ends
      cases ends
  | cons e beyond =>
      rw [← isBack.first] at ends
      have notArrow : colon.is .arrow = false := by
        rw [isColon.eq]
        rfl
      have isColon' : colon.is .colon = true := by
        rw [isColon.eq]
        exact Token.is_self
      unfold Lookahead.arrowAfterParameters
      rw [width, List.drop_left]
      dsimp only
      rw [notArrow, if_neg Bool.false_ne_true, if_pos isColon']
      have short := held.typeWidth_le ends beyond true (Nat.zero_le _)
      split
      · next arrow later isDropped =>
          rw [held.is_eq_false ends (.inr rfl) (Lookahead.head_mem_of_drop short isDropped),
            Bool.and_false]
      · rfl

theorem arrowAhead_of_not_async {t : Token} (other : t.isTheWord "async" = false)
    (later : List Token) :
    Lookahead.arrowAhead (t :: later) = Lookahead.plainArrowAhead (t :: later) := by
  cases later with
  | nil => rfl
  | cons u later =>
      rw [Lookahead.arrowAhead, other, Bool.false_and, Bool.false_and, if_neg Bool.false_ne_true]

theorem NoArrow.of_word {name : Text} (other : name ≠ "async") (noArrow : firstOf ls ≠ .punct .arrow) :
    NoArrow (.word name :: ls) := by
  intro tokens row
  obtain ⟨t, later, rfl, isWord, behind⟩ := row.of_cons
  have notAsync : t.isTheWord "async" = false := by
    rw [isWord.eq]
    refine beq_eq_false_iff_ne.mpr fun same => other ?_
    injection same
  have isWord' : t.isWord = true := by
    rw [isWord.eq]
    rfl
  rw [arrowAhead_of_not_async notAsync]
  unfold Lookahead.plainArrowAhead
  dsimp only
  rw [if_pos isWord']
  split
  · rw [← behind.first] at noArrow
    rw [Token.is, beq_eq_false_iff_ne.mpr noArrow, Bool.false_and]
  · rfl

theorem NoArrow.of_other (noWord : ∀ name, l ≠ .word name) (noParen : l ≠ .punct .openParen)
    (noAngle : l ≠ .punct .lt) : NoArrow (l :: ls) := by
  intro tokens row
  obtain ⟨t, later, rfl, isFirst, _⟩ := row.of_cons
  have notAsync : t.isTheWord "async" = false := by
    rw [isFirst.eq]
    exact beq_eq_false_iff_ne.mpr (noWord _)
  have notWord : t.isWord = false := by
    rw [isFirst.eq]
    cases l with
    | word name => exact absurd rfl (noWord name)
    | _ => rfl
  have notAngle : t.is .lt = false := by
    rw [isFirst.eq]
    exact Token.is_eq_false noAngle
  have notParen : t.is .openParen = false := by
    rw [isFirst.eq]
    exact Token.is_eq_false noParen
  rw [arrowAhead_of_not_async notAsync]
  unfold Lookahead.plainArrowAhead
  dsimp only
  rw [notWord, notAngle, notParen, if_neg Bool.false_ne_true, if_neg Bool.false_ne_true,
    Bool.false_and]

theorem NoArrow.of_punct {p : Punct} (noParen : p ≠ .openParen) (noAngle : p ≠ .lt) :
    NoArrow (.punct p :: ls) := by
  refine .of_other (fun name same => ?_) (fun same => noParen (Lexeme.punct.inj same))
    (fun same => noAngle (Lexeme.punct.inj same))
  cases same

/-- Whether a group makes the parameters of an arrow function. -/
theorem arrowAhead_group (contained : Contained inner) {tokens : List Token}
    (row : InRow (.punct .openParen :: (inner ++ .punct .closeParen :: rest)) tokens) :
    ∃ group later, tokens = group ++ later ∧ InRow rest later
      ∧ Parser.groupWidth 0 (group ++ later) = group.length
      ∧ Lookahead.arrowAhead tokens = Lookahead.arrowAfterParameters tokens := by
  obtain ⟨opener, others, rfl, isOpener, behind⟩ := row.of_cons
  obtain ⟨inside, back, rfl, isInside, isBack⟩ := behind.of_append
  obtain ⟨closer, later, rfl, isCloser, isLater⟩ := isBack.of_cons
  have opens : opener.opensGroup = true := by
    rw [isOpener.eq]
    rfl
  have closes : closer.closesGroup = true := by
    rw [isCloser.eq]
    rfl
  have balanced := contained.balanced inside isInside.lexemes
  refine ⟨opener :: (inside ++ [closer]), later, ?_, isLater, ?_, ?_⟩
  · rw [List.cons_append, List.append_assoc]
    rfl
  · rw [List.cons_append, List.append_assoc]
    show Parser.groupWidth 0 (opener :: (inside ++ closer :: later)) = _
    rw [Lookahead.groupWidth_group opens balanced closes, List.length_cons, List.length_append]
    rfl
  · rw [isOpener.eq]
    exact arrowAhead_of_not_async rfl _

/-- An expression in parentheses that nothing makes parameters of. -/
theorem NoArrow.of_group (contained : Contained inner) (frees : Frees rest) :
    NoArrow (.punct .openParen :: (inner ++ .punct .closeParen :: rest)) := by
  intro tokens row
  obtain ⟨group, later, rfl, isLater, width, same⟩ := arrowAhead_group contained row
  rw [same]
  exact frees later isLater group width

/-- A lexeme that ends an expression makes no parameters, unless it is a colon. -/
theorem Frees.of_ends (ends : (firstOf ls).endsExpression = true)
    (noColon : firstOf ls ≠ .punct .colon) : Frees ls := by
  refine .of_first (fun isArrow => ?_) noColon
  rw [isArrow] at ends
  cases ends

end

/-! ## §5. Printed expressions. -/

/-- Whether the expression is another one in parentheses. -/
def Node.isParenthesized (n : Node σ) : Bool :=
  match n.form with
  | .parenthesized _ => true
  | _ => false

theorem lexemes_parenthesized (inner : Shape) (rest : List Lexeme) :
    (Node.mk () (.parenthesized inner) : Shape).lexemes ++ rest
      = .punct .openParen :: (inner.lexemes ++ .punct .closeParen :: rest) := by
  rw [Node.lexemes_mk]
  show .punct .openParen :: (inner.lexemes ++ [] ++ [.punct .closeParen] ++ rest) = _
  rw [List.append_nil, List.append_assoc]
  rfl

/-- The form of an expression whose last value is in parentheses. -/
def Form.endsInParens : Form Bool → Bool
  | .parenthesized _ => true
  | .conditional _ _ alternate => alternate
  | .assignment _ _ value => value
  | .propertyAssignment _ value => value
  | _ => false

/-- Whether the last value of an expression is in parentheses: all of it, its second branch or
what it assigns. -/
def Node.endsInParens (n : Node σ) : Bool :=
  n.fold fun _ form => form.endsInParens

@[simp] theorem Node.endsInParens_mk (info : σ) (form : Form (Node σ)) :
    (mk info form).endsInParens = (form.map endsInParens).endsInParens :=
  fold_mk _ info form

theorem Node.endsInParens_of_isParenthesized {n : Node σ} (parens : n.isParenthesized = true) :
    n.endsInParens = true := by
  obtain ⟨info, form⟩ := n
  unfold isParenthesized at parens
  split at parens
  · next inner isParens =>
      change form = _ at isParens
      rw [endsInParens_mk, isParens]
      rfl
  · cases parens

/-- **No arrow function begins with a printed expression,** unless it is one in parentheses
and what stands behind makes parameters of it. -/
theorem Printable.noArrow {e : Shape} (printable : Printable e) {rest : List Lexeme}
    (noArrow : firstOf rest ≠ .punct .arrow) (frees : e.isParenthesized = true → Frees rest) :
    NoArrow (e.lexemes ++ rest) := by
  -- The first operand of an expression decides, and what stands behind it goes on with it.
  induction printable generalizing rest with
  | identifier plain =>
      rw [Node.lexemes_mk]
      exact .of_word (plain.plain "async" (by decide)) noArrow
  | string | number =>
      rw [Node.lexemes_mk]
      exact .of_other nofun nofun nofun
  | property _ _ _ object =>
      simp only [Node.lexemes_mk, Form.map, Form.lexemes, List.append_assoc]
      exact object (firstOf_ne_punct (by decide)) fun _ =>
        .of_first (firstOf_ne_punct (by decide)) (firstOf_ne_punct (by decide))
  | element _ _ _ object _ =>
      simp only [Node.lexemes_mk, Form.map, Form.lexemes, List.append_assoc]
      exact object (firstOf_ne_punct (by decide)) fun _ =>
        .of_first (firstOf_ne_punct (by decide)) (firstOf_ne_punct (by decide))
  | call _ _ _ callee _ =>
      simp only [Node.lexemes_mk, Form.map, Form.lexemes, List.append_assoc]
      exact callee (firstOf_ne_punct (by decide)) fun _ =>
        .of_first (firstOf_ne_punct (by decide)) (firstOf_ne_punct (by decide))
  | construction ofCallee =>
      simp only [Node.lexemes_mk, Form.map, Form.lexemes]
      refine .of_word (by decide) fun isArrow => ?_
      rw [List.append_eq, List.append_assoc] at isArrow
      exact Lexeme.ne_punct_of_begins (ofCallee.phrase.firstOf_begins _) (by decide) isArrow
  | array | object =>
      rw [Node.lexemes_mk]
      exact .of_punct (by decide) (by decide)
  | parenthesized ofInner =>
      rw [lexemes_parenthesized]
      exact .of_group ofInner.phrase.contained (frees rfl)
  | @unary op _ isPrefix ofOperand =>
      have second := Lexeme.ne_punct_of_begins (p := .arrow) (ofOperand.phrase.firstOf_begins rest) rfl
      rw [Node.lexemes_mk]
      cases op with
      | typeOf | void | delete => exact .of_word (by decide) second
      | await | yield => exact absurd isPrefix (by decide)
      | _ => exact .of_punct (by decide) (by decide)
  | @binary op _ _ _ _ _ _ _ _ left =>
      have others : op.lexeme ≠ .punct .arrow ∧ op.lexeme ≠ .punct .colon := by
        cases op <;> decide
      simp only [Node.lexemes_mk, Form.map, Form.lexemes, List.append_assoc]
      exact left others.1 fun _ => .of_first others.1 others.2
  | conditional _ _ _ _ test =>
      simp only [Node.lexemes_mk, Form.map, Form.lexemes, List.append_assoc]
      exact test (firstOf_ne_punct (by decide)) fun _ =>
        .of_first (firstOf_ne_punct (by decide)) (firstOf_ne_punct (by decide))
  | @assignment op _ _ _ _ _ target =>
      have others : Lexeme.punct op.punct ≠ .punct .arrow ∧ Lexeme.punct op.punct ≠ .punct .colon := by
        cases op <;> decide
      simp only [Node.lexemes_mk, Form.map, Form.lexemes, List.append_assoc]
      exact target others.1 fun _ => .of_first others.1 others.2

/-- No arrow function begins with an expression in front of what ends it. -/
theorem Printable.noArrow_of_ends {e : Shape} (printable : Printable e) {rest : List Lexeme}
    (ends : (firstOf rest).endsExpression = true)
    (frees : e.endsInParens = true → Frees rest) : NoArrow (e.lexemes ++ rest) := by
  refine printable.noArrow ?_ fun parens => frees (Node.endsInParens_of_isParenthesized parens)
  intro isArrow
  rw [isArrow] at ends
  cases ends

end StackLint
