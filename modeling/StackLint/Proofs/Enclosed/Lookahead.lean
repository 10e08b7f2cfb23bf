/-
  StackLint.Proofs.Enclosed.Lookahead
  ───────────────────────────────────
  **WHAT IS SEEN AHEAD IN FRONT OF THE REST OF A TEMPLATE.**

  Some tokens are `Enclosed` when every bracket group, every template and every
  list of type arguments that begins among them is decided among them.  Behind
  such tokens, where the rest of a template begins, all looking ahead ends: it
  sees no more than if there were nothing there.
-/
import StackLint.Parse.Lookahead

namespace StackLint

/-! ## §1. The rest of a template. -/

namespace Token

variable {t : Token}

/-- The token opens a bracket group. -/
def opensGroup (t : Token) : Bool :=
  match t.lexeme with
  | .punct p => p.opensGroup
  | _ => false

/-- The token opens a template that has substitutions. -/
def opensSubstitution (t : Token) : Bool :=
  match t.lexeme with
  | .templateHead _ => true
  | _ => false

theorem opensGroup_of_is {p : Punct} (isPunct : t.is p = true) (opens : p.opensGroup = true) :
    t.opensGroup = true := by
  unfold opensGroup
  rw [beq_iff_eq.mp isPunct]
  exact opens

theorem opensGroup_of_isOneOf {ps : List Punct} (found : t.isOneOf ps = true)
    (all : ∀ p ∈ ps, p.opensGroup = true) : t.opensGroup = true := by
  unfold isOneOf at found
  split at found
  · next p isPunct =>
      have isListed : p ∈ ps := List.contains_iff_mem.mp found
      unfold opensGroup
      rw [isPunct]
      exact all p isListed
  · cases found

/-- What the token at which a template goes on says. -/
theorem lexeme_of_continues (continues : t.continuesTemplate = true) :
    ∃ value, t.lexeme = .templateMiddle value ∨ t.lexeme = .templateTail value := by
  unfold continuesTemplate at continues
  split at continues
  · next value isMiddle => exact ⟨value, .inl isMiddle⟩
  · next value isTail => exact ⟨value, .inr isTail⟩
  · cases continues

/-- A token that shows something else does not continue a template. -/
theorem not_continues {p : Token → Bool} (shows : p t = true)
    (other : ∀ u : Token, u.continuesTemplate = true → p u = false) :
    t.continuesTemplate = false := by
  refine Bool.eq_false_iff.mpr fun continues => ?_
  rw [other t continues] at shows
  cases shows

section

variable (continues : t.continuesTemplate = true)

include continues

theorem is_of_continues (p : Punct) : t.is p = false := by
  obtain ⟨value, isMiddle | isTail⟩ := lexeme_of_continues continues
  · exact beq_eq_false_iff_ne.mpr (isMiddle ▸ nofun)
  · exact beq_eq_false_iff_ne.mpr (isTail ▸ nofun)

theorem isTheWord_of_continues (w : Text) : t.isTheWord w = false := by
  obtain ⟨value, isMiddle | isTail⟩ := lexeme_of_continues continues
  · exact beq_eq_false_iff_ne.mpr (isMiddle ▸ nofun)
  · exact beq_eq_false_iff_ne.mpr (isTail ▸ nofun)

theorem isEnd_of_continues : t.isEnd = false := by
  obtain ⟨value, isMiddle | isTail⟩ := lexeme_of_continues continues
  · exact beq_eq_false_iff_ne.mpr (isMiddle ▸ nofun)
  · exact beq_eq_false_iff_ne.mpr (isTail ▸ nofun)

theorem isOneOf_of_continues (ps : List Punct) : t.isOneOf ps = false := by
  obtain ⟨value, found⟩ := lexeme_of_continues continues
  unfold isOneOf
  rcases found with isMiddle | isTail
  · rw [isMiddle]
  · rw [isTail]

theorem isWord_of_continues : t.isWord = false := by
  obtain ⟨value, found⟩ := lexeme_of_continues continues
  unfold isWord
  rcases found with isMiddle | isTail
  · rw [isMiddle]
  · rw [isTail]

theorem isWordIn_of_continues (words : List Text) : t.isWordIn words = false := by
  obtain ⟨value, found⟩ := lexeme_of_continues continues
  unfold isWordIn
  rcases found with isMiddle | isTail
  · rw [isMiddle]
  · rw [isTail]

theorem isString_of_continues : t.isString = false := by
  obtain ⟨value, found⟩ := lexeme_of_continues continues
  unfold isString
  rcases found with isMiddle | isTail
  · rw [isMiddle]
  · rw [isTail]

theorem isNumber_of_continues : t.isNumber = false := by
  obtain ⟨value, found⟩ := lexeme_of_continues continues
  unfold isNumber
  rcases found with isMiddle | isTail
  · rw [isMiddle]
  · rw [isTail]

theorem opensTemplate_of_continues : t.opensTemplate = false := by
  obtain ⟨value, found⟩ := lexeme_of_continues continues
  unfold opensTemplate
  rcases found with isMiddle | isTail
  · rw [isMiddle]
  · rw [isTail]

end

end Token

/-! ## §2. Enclosed tokens. -/

/-- **Every group among these tokens is decided among them:** how many tokens
belong to it does not depend on what stands behind. -/
structure Enclosed (tokens : List Token) : Prop where
  groups : ∀ t rest, t :: rest <:+ tokens → t.opensGroup = true →
    ∀ more, Parser.groupWidth 0 (t :: (rest ++ more)) = Parser.groupWidth 0 (t :: rest)
  angles : ∀ t rest, t :: rest <:+ tokens → t.is .lt = true →
    ∀ more, Lookahead.angleWidth? 0 0 (t :: (rest ++ more)) = Lookahead.angleWidth? 0 0 (t :: rest)
  templates : ∀ t rest, t :: rest <:+ tokens → t.opensSubstitution = true →
    ∀ more, Lookahead.templateWidth (rest ++ more) = Lookahead.templateWidth rest

theorem Enclosed.suffix {tokens later : List Token} (enclosed : Enclosed tokens)
    (isLater : later <:+ tokens) : Enclosed later where
  groups t rest inside := enclosed.groups t rest (inside.trans isLater)
  angles t rest inside := enclosed.angles t rest (inside.trans isLater)
  templates t rest inside := enclosed.templates t rest (inside.trans isLater)

theorem Enclosed.tail {t : Token} {rest : List Token} (enclosed : Enclosed (t :: rest)) :
    Enclosed rest :=
  enclosed.suffix (List.suffix_cons t rest)

theorem Enclosed.drop {tokens : List Token} (enclosed : Enclosed tokens) (count : Nat) :
    Enclosed (tokens.drop count) :=
  enclosed.suffix (List.drop_suffix count tokens)

/-! ## §3. How far one sees. -/

theorem Parser.groupWidth_le (depth : Nat) (tokens : List Token) :
    Parser.groupWidth depth tokens ≤ tokens.length := by
  induction tokens generalizing depth with
  | nil => exact Nat.le_refl 0
  | cons t rest ih =>
      have goesOn (deeper : Nat) : groupWidth deeper rest + 1 ≤ rest.length + 1 :=
        Nat.succ_le_succ (ih deeper)
      rw [Parser.groupWidth, List.length_cons]
      split
      · next p _ =>
          split
          · exact goesOn (depth + 1)
          split
          · split
            · exact Nat.succ_le_succ (Nat.zero_le _)
            · exact goesOn (depth - 1)
          · exact goesOn depth
      · exact goesOn depth

namespace Lookahead

theorem angleWidth?_le {depth skip : Nat} {tokens : List Token} {width : Nat}
    (found : angleWidth? depth skip tokens = some width) : width ≤ tokens.length := by
  induction tokens generalizing depth skip width with
  | nil => cases skip <;> cases found
  | cons t rest ih =>
      rw [List.length_cons]
      have goesOn {deeper further : Nat}
          (found : (angleWidth? deeper further rest).map (· + 1) = some width) :
          width ≤ rest.length + 1 := by
        obtain ⟨inner, isInner, rfl⟩ := Option.map_eq_some_iff.mp found
        exact Nat.succ_le_succ (ih isInner)
      cases skip with
      | succ skip => exact goesOn found
      | zero =>
          rw [angleWidth?] at found
          split at found
          · split at found
            · exact goesOn found
            split at found
            · split at found
              · cases found
                exact Nat.succ_le_succ (Nat.zero_le _)
              · exact goesOn found
            split at found
            · exact goesOn found
            split at found
            · cases found
            · exact goesOn found
          · exact goesOn found

theorem dottedWidth_le (tokens : List Token) : dottedWidth tokens ≤ tokens.length := by
  induction tokens using dottedWidth.induct with
  | case1 dot name rest isName ih =>
      rw [dottedWidth, if_pos isName]
      exact Nat.add_le_add_right ih 2
  | case2 dot name rest notName =>
      rw [dottedWidth, if_neg notName]
      exact Nat.zero_le _
  | case3 tokens short =>
      rw [dottedWidth]
      · exact Nat.zero_le _
      · exact short

theorem templateWidth_le (tokens : List Token) : templateWidth tokens ≤ tokens.length := by
  induction tokens with
  | nil => exact Nat.le_refl 0
  | cons t rest ih =>
      rw [templateWidth, List.length_cons]
      split
      · exact Nat.succ_le_succ (Nat.zero_le _)
      · exact Nat.succ_le_succ ih

/-- The dots of a name come to their end in front of the tokens. -/
theorem named_le {imported : Nat} {tokens : List Token} (short : imported ≤ tokens.length) :
    imported + dottedWidth (tokens.drop imported) ≤ tokens.length := by
  have dotted := dottedWidth_le (tokens.drop imported)
  rw [List.length_drop] at dotted
  omega

theorem namedTypeWidth_le (first : Token) (rest : List Token) :
    namedTypeWidth first rest ≤ rest.length := by
  cases rest with
  | nil => exact Nat.le_refl 0
  | cons t rest =>
      unfold namedTypeWidth
      dsimp only
      have short : (if (first.isTheWord "import" && t.is .openParen) = true
          then Parser.groupWidth 0 (t :: rest) else 0) ≤ (t :: rest).length := by
        split
        · exact Parser.groupWidth_le 0 _
        · exact Nat.zero_le _
      have inside := named_le short
      revert inside
      generalize (if (first.isTheWord "import" && t.is .openParen) = true
        then Parser.groupWidth 0 (t :: rest) else 0) = imported
      generalize imported + dottedWidth ((t :: rest).drop imported) = named
      intro inside
      split
      · next u behind isBehind =>
          split
          · cases found : angleWidth? 0 0 (u :: behind) with
            | none => exact inside
            | some width =>
                have inner := angleWidth?_le found
                rw [← isBehind, List.length_drop] at inner
                rw [Option.getD_some]
                omega
          · exact inside
      · exact inside

theorem typeWidth_le (operand : Bool) (pending skip : Nat) (tokens : List Token) :
    typeWidth operand pending skip tokens ≤ tokens.length := by
  fun_induction typeWidth operand pending skip tokens <;>
    simp only [List.length_nil, List.length_cons, Nat.le_refl, Nat.zero_le,
      Nat.add_le_add_iff_right, *]

/-! ## §4. In front of the rest of a template. -/

section

variable {e : Token} (continues : e.continuesTemplate = true) (beyond : List Token)

include continues

theorem typeOperandAhead_edge (tokens : List Token) :
    typeOperandAhead (tokens ++ e :: beyond) = typeOperandAhead tokens := by
  cases tokens with
  | cons t rest => rfl
  | nil =>
      simp only [List.nil_append, typeOperandAhead, Token.isWord_of_continues continues,
        Token.isString_of_continues continues, Token.isNumber_of_continues continues,
        Token.isOneOf_of_continues continues, Bool.or_self]

theorem dottedWidth_edge (tokens : List Token) :
    dottedWidth (tokens ++ e :: beyond) = dottedWidth tokens := by
  have notDot := Token.is_of_continues continues .dot
  have notWord := Token.isWord_of_continues continues
  induction tokens using dottedWidth.induct with
  | case1 dot name rest isName ih =>
      rw [List.cons_append, List.cons_append, dottedWidth, dottedWidth, if_pos isName,
        if_pos isName, ih]
  | case2 dot name rest noName =>
      rw [List.cons_append, List.cons_append, dottedWidth, dottedWidth, if_neg noName,
        if_neg noName]
  | case3 tokens short =>
      match tokens with
      | [] => cases beyond <;> simp [dottedWidth, notDot]
      | [t] => simp [dottedWidth, notWord]
      | dot :: name :: rest => exact absurd rfl (short dot name rest)

theorem namedTypeWidth_edge {tokens : List Token} (enclosed : Enclosed tokens) (first : Token) :
    namedTypeWidth first (tokens ++ e :: beyond) = namedTypeWidth first tokens := by
  cases tokens with
  | nil =>
      have dotted := dottedWidth_edge continues beyond []
      rw [List.nil_append] at dotted
      have notLess := Token.is_of_continues continues .lt
      have notParen := Token.is_of_continues continues .openParen
      simp [namedTypeWidth, notParen, dotted, notLess, dottedWidth]
  | cons t rest =>
      have group : t.is .openParen = true → Parser.groupWidth 0 (t :: (rest ++ e :: beyond))
          = Parser.groupWidth 0 (t :: rest) := fun isParen =>
        enclosed.groups t rest (List.suffix_refl _) (Token.opensGroup_of_is isParen rfl) _
      have same : (if (first.isTheWord "import" && t.is .openParen) = true
            then Parser.groupWidth 0 (t :: (rest ++ e :: beyond)) else 0)
          = if (first.isTheWord "import" && t.is .openParen) = true
            then Parser.groupWidth 0 (t :: rest) else 0 := by
        split
        · next isImport => exact group (Bool.and_eq_true_iff.mp isImport).2
        · rfl
      have short : (if (first.isTheWord "import" && t.is .openParen) = true
          then Parser.groupWidth 0 (t :: rest) else 0) ≤ (t :: rest).length := by
        split
        · exact Parser.groupWidth_le 0 _
        · exact Nat.zero_le _
      rw [List.cons_append]
      unfold namedTypeWidth
      dsimp only
      rw [same]
      have inside := named_le short
      revert short inside
      generalize (if (first.isTheWord "import" && t.is .openParen) = true
        then Parser.groupWidth 0 (t :: rest) else 0) = imported
      intro short inside
      rw [← List.cons_append, List.drop_append_of_le_length short, dottedWidth_edge continues]
      revert inside
      generalize imported + dottedWidth ((t :: rest).drop imported) = named
      intro inside
      rw [List.drop_append_of_le_length inside]
      have later := enclosed.drop named
      generalize (t :: rest).drop named = left at later ⊢
      cases left with
      | nil =>
          have notLess := Token.is_of_continues continues .lt
          simp [notLess]
      | cons u behind =>
          rw [List.cons_append]
          dsimp only
          split
          · next isLess => rw [later.angles u behind (List.suffix_refl _) isLess]
          · rfl

/-- **A type ends in front of the rest of a template** where it would end if there were
nothing there. -/
theorem typeWidth_edge (operand : Bool) (pending : Nat) {skip : Nat} {tokens : List Token}
    (enclosed : Enclosed tokens) (short : skip ≤ tokens.length) :
    typeWidth operand pending skip (tokens ++ e :: beyond) = typeWidth operand pending skip tokens := by
  induction tokens generalizing operand pending skip with
  | nil =>
      obtain rfl : skip = 0 := Nat.le_zero.mp short
      have isOneOf := Token.isOneOf_of_continues continues
      have isWordIn := Token.isWordIn_of_continues continues
      have isTheWord := Token.isTheWord_of_continues continues
      have isPunct := Token.is_of_continues continues
      cases operand with
      | true =>
          obtain ⟨value, isMiddle | isTail⟩ := Token.lexeme_of_continues continues
          · simp [typeWidth, isOneOf, isWordIn, isPunct, isMiddle]
          · simp [typeWidth, isOneOf, isWordIn, isPunct, isTail]
      | false => simp [typeWidth, isOneOf, isPunct, isTheWord]
  | cons t rest ih =>
      rw [List.cons_append]
      cases skip with
      | succ skip =>
          rw [typeWidth, typeWidth, ih _ _ enclosed.tail (Nat.le_of_succ_le_succ short)]
      | zero =>
          have next (operand : Bool) (pending : Nat) :=
            ih operand pending enclosed.tail (Nat.zero_le _)
          have groups : t.opensGroup = true → _ :=
            fun opens => enclosed.groups t rest (List.suffix_refl _) opens (e :: beyond)
          have groupLe := Parser.groupWidth_le 0 (t :: rest)
          rw [List.length_cons] at groupLe
          have behindGroup (pending : Nat) :=
            @ih false pending (Parser.groupWidth 0 (t :: rest) - 1) enclosed.tail (by omega)
          cases operand with
          | false =>
              rw [typeWidth, typeWidth]
              refine ite_congr rfl (fun isBracket => ?_) fun _ => ?_
              · have opens := Token.opensGroup_of_is (Bool.and_eq_true_iff.mp isBracket).1 rfl
                rw [groups opens, behindGroup]
              simp only [next]
          | true =>
              rw [typeWidth, typeWidth]
              refine ite_congr rfl (fun _ => by rw [next]) fun _ => ?_
              rw [typeOperandAhead_edge continues]
              refine ite_congr rfl (fun _ => by rw [next]) fun _ => ?_
              refine ite_congr rfl (fun isParen => ?_) fun _ => ?_
              · have opens := Token.opensGroup_of_is isParen rfl
                rw [groups opens]
                dsimp only
                rw [List.drop_append_of_le_length (by omega)]
                cases isBehind : rest.drop (Parser.groupWidth 0 (t :: rest) - 1) with
                | nil =>
                    simp only [List.nil_append, Token.is_of_continues continues,
                      Bool.false_eq_true, if_false, behindGroup]
                | cons arrow behind =>
                    have length := congrArg List.length isBehind
                    rw [List.length_drop, List.length_cons] at length
                    rw [List.cons_append]
                    dsimp only
                    rw [ih true pending enclosed.tail (by omega), behindGroup]
              refine ite_congr rfl (fun isLess => ?_) fun _ => ?_
              · rw [enclosed.angles t rest (List.suffix_refl _) isLess]
                cases found : angleWidth? 0 0 (t :: rest) with
                | none => rfl
                | some width =>
                    have inner := angleWidth?_le found
                    rw [List.length_cons] at inner
                    dsimp only
                    rw [ih _ _ enclosed.tail (by omega)]
              refine ite_congr rfl (fun isBracket => ?_) fun _ => ?_
              · rw [groups (Token.opensGroup_of_isOneOf isBracket (by decide)), behindGroup]
              have named := namedTypeWidth_edge continues beyond enclosed.tail t
              have templates : t.opensSubstitution = true → _ :=
                fun opens => enclosed.templates t rest (List.suffix_refl _) opens (e :: beyond)
              unfold Token.opensSubstitution at templates
              cases isLexeme : t.lexeme with
              | word name =>
                  dsimp only
                  rw [named, ih _ _ enclosed.tail (namedTypeWidth_le t rest)]
              | templateHead value =>
                  dsimp only
                  rw [isLexeme] at templates
                  rw [templates rfl, ih _ _ enclosed.tail (templateWidth_le rest)]
              | _ => simp only [next]

/-- Whether an arrow follows a parameter list is seen in front of the rest of a template. -/
theorem arrowAfterParameters_edge {t : Token} {rest : List Token} (enclosed : Enclosed (t :: rest))
    (opens : t.opensGroup = true) :
    arrowAfterParameters (t :: (rest ++ e :: beyond)) = arrowAfterParameters (t :: rest) := by
  have notArrow := Token.is_of_continues continues .arrow
  have notColon := Token.is_of_continues continues .colon
  unfold arrowAfterParameters
  rw [enclosed.groups t rest (List.suffix_refl _) opens, ← List.cons_append,
    List.drop_append_of_le_length (Parser.groupWidth_le 0 _)]
  have later := enclosed.drop (Parser.groupWidth 0 (t :: rest))
  generalize (t :: rest).drop (Parser.groupWidth 0 (t :: rest)) = left at later ⊢
  cases left with
  | nil => simp [notArrow, notColon]
  | cons u behind =>
      rw [List.cons_append]
      dsimp only
      refine ite_congr rfl (fun _ => rfl) fun _ => ite_congr rfl (fun _ => ?_) fun _ => rfl
      rw [typeWidth_edge continues beyond true 0 later.tail (Nat.zero_le _),
        List.drop_append_of_le_length (typeWidth_le true 0 0 behind)]
      cases behind.drop (typeWidth true 0 0 behind) with
      | nil => simp [notArrow]
      | cons arrow _ => rfl

theorem plainArrowAhead_edge {tokens : List Token} (enclosed : Enclosed tokens) :
    plainArrowAhead (tokens ++ e :: beyond) = plainArrowAhead tokens := by
  have notArrow := Token.is_of_continues continues .arrow
  have notParen := Token.is_of_continues continues .openParen
  have notLess := Token.is_of_continues continues .lt
  have notWord := Token.isWord_of_continues continues
  cases tokens with
  | nil => simp [plainArrowAhead, notWord, notLess, notParen]
  | cons t rest =>
      rw [List.cons_append]
      unfold plainArrowAhead
      refine ite_congr rfl (fun _ => ?_) fun _ => ite_congr rfl (fun isLess => ?_) fun _ => ?_
      · cases rest with
        | nil => simp [notArrow]
        | cons arrow behind => rfl
      · rw [enclosed.angles t rest (List.suffix_refl _) isLess]
        cases found : angleWidth? 0 0 (t :: rest) with
        | none => rfl
        | some width =>
            have short := angleWidth?_le found
            rw [List.length_cons] at short
            dsimp only
            rw [List.drop_append_of_le_length (by omega)]
            have later := enclosed.tail.drop (width - 1)
            generalize rest.drop (width - 1) = left at later ⊢
            cases left with
            | nil => simp [notParen]
            | cons paren behind =>
                rw [List.cons_append]
                dsimp only
                cases isParen : paren.is .openParen with
                | false => rfl
                | true =>
                    rw [arrowAfterParameters_edge continues beyond later
                      (Token.opensGroup_of_is isParen rfl)]
      · cases isParen : t.is .openParen with
        | false => rfl
        | true =>
            rw [arrowAfterParameters_edge continues beyond enclosed
              (Token.opensGroup_of_is isParen rfl)]

/-- **Whether an arrow function comes next** is seen in front of the rest of a template. -/
theorem arrowAhead_edge {tokens : List Token} (enclosed : Enclosed tokens) :
    arrowAhead (tokens ++ e :: beyond) = arrowAhead tokens := by
  have notWord := Token.isWord_of_continues continues
  have isOneOf := Token.isOneOf_of_continues continues
  have notAsync := Token.isTheWord_of_continues continues "async"
  have whole := plainArrowAhead_edge continues beyond enclosed
  match tokens with
  | [] =>
      cases beyond with
      | nil => exact whole
      | cons u _ =>
          rw [List.nil_append] at whole ⊢
          rw [arrowAhead, notAsync]
          exact whole
  | [t] =>
      rw [List.cons_append, List.nil_append] at whole ⊢
      rw [arrowAhead, notWord, isOneOf, Bool.or_self, Bool.and_false]
      exact whole
  | t :: next :: rest =>
      have inner := plainArrowAhead_edge continues beyond enclosed.tail
      rw [List.cons_append, List.cons_append] at whole
      rw [List.cons_append] at inner
      rw [List.cons_append, List.cons_append, arrowAhead, arrowAhead, inner, whole]

end

end Lookahead

end StackLint
