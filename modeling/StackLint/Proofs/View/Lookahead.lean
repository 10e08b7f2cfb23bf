/-
  StackLint.Proofs.View.Lookahead
  ───────────────────────────────
  **LOOKING AHEAD FROM AFAR.**

  How many of the tokens ahead belong to a construct depends on what they are
  for, so it does not change under a view.  The inductions here are those of the
  functions: over the tokens ahead, for every number of open brackets.
-/
import StackLint.Proofs.View.Parser

namespace StackLint

namespace Lookahead

variable (v : View)

/-! ## §1. Types. -/

theorem angleWidth?_map (depth skip : Nat) (tokens : List Token) :
    angleWidth? depth skip (tokens.map (Token.view v)) = angleWidth? depth skip tokens := by
  induction tokens generalizing depth skip with
  | nil => cases skip <;> rfl
  | cons t rest ih =>
      cases skip with
      | succ skip => rw [List.map_cons, angleWidth?, angleWidth?, ih]
      | zero =>
          have group := Parser.groupWidth_map v 0 (t :: rest)
          rw [List.map_cons] at group ⊢
          rw [angleWidth?, angleWidth?, Token.view_lexeme, group]
          cases t.lexeme <;> simp only [Lexeme.view, ih]

theorem typeOperandAhead_map (tokens : List Token) :
    typeOperandAhead (tokens.map (Token.view v)) = typeOperandAhead tokens := by
  cases tokens with
  | nil => rfl
  | cons t rest => simp [typeOperandAhead]

theorem dottedWidth_map (tokens : List Token) :
    dottedWidth (tokens.map (Token.view v)) = dottedWidth tokens := by
  induction tokens using dottedWidth.induct with
  | case1 dot name rest isName ih => simp [dottedWidth, ih]
  | case2 dot name rest notName => simp [dottedWidth, notName]
  | case3 tokens short =>
      match tokens with
      | [] => rfl
      | [_] => rfl
      | dot :: name :: rest => exact absurd rfl (short dot name rest)

theorem namedTypeWidth_map (first : Token) (rest : List Token) :
    namedTypeWidth (first.view v) (rest.map (Token.view v)) = namedTypeWidth first rest := by
  have word : (first.view v).isTheWord "import" = first.isTheWord "import" :=
    first.view_isTheWord v (by decide)
  cases rest with
  | nil => rfl
  | cons t rest =>
      have group := Parser.groupWidth_map v 0 (t :: rest)
      rw [List.map_cons] at group ⊢
      unfold namedTypeWidth
      simp only [word, Token.view_is, group]
      rw [← List.map_cons]
      generalize (if (first.isTheWord "import" && t.is .openParen) = true
        then Parser.groupWidth 0 (t :: rest) else 0) = imported
      simp only [← List.map_drop, dottedWidth_map]
      generalize imported + dottedWidth ((t :: rest).drop imported) = named
      cases (t :: rest).drop named with
      | nil => rfl
      | cons t behind =>
          have angles := angleWidth?_map v 0 0 (t :: behind)
          rw [List.map_cons] at angles ⊢
          simp only [Token.view_is, angles]

theorem templateWidth_map (tokens : List Token) :
    templateWidth (tokens.map (Token.view v)) = templateWidth tokens := by
  induction tokens with
  | nil => rfl
  | cons t rest ih =>
      rw [List.map_cons, templateWidth, templateWidth, Token.view_lexeme]
      cases t.lexeme <;> simp only [Lexeme.view, ih]

theorem view_isTypeOperator (t : Token) :
    (t.view v).isWordIn typeOperatorWords = t.isWordIn typeOperatorWords :=
  t.view_isWordIn v (reserved_of_words _
    ["keyof", "typeof", "unique", "readonly", "infer", "asserts", "new", "abstract"]
    rfl (by decide))

theorem typeWidth_map (operand : Bool) (pending skip : Nat) (tokens : List Token) :
    typeWidth operand pending skip (tokens.map (Token.view v))
      = typeWidth operand pending skip tokens := by
  induction tokens generalizing operand pending skip with
  | nil => cases skip <;> rfl
  | cons t rest ih =>
      cases skip with
      | succ skip => rw [List.map_cons, typeWidth, typeWidth, ih]
      | zero =>
          have group := Parser.groupWidth_map v 0 (t :: rest)
          have angles := angleWidth?_map v 0 0 (t :: rest)
          rw [List.map_cons] at group angles ⊢
          cases operand with
          | true =>
              rw [typeWidth, typeWidth]
              simp only [Token.view_isOneOf, view_isTypeOperator, typeOperandAhead_map,
                Token.view_is, group, angles, ih, namedTypeWidth_map, templateWidth_map,
                Token.view_lexeme, ← List.map_drop]
              cases rest.drop (Parser.groupWidth 0 (t :: rest) - 1) <;> cases t.lexeme <;>
                simp only [List.map_cons, List.map_nil, Token.view_is, Lexeme.view]
          | false =>
              have condition := t.view_isTheWord v (w := "extends") (by decide)
              have predicate := t.view_isTheWord v (w := "is") (by decide)
              rw [typeWidth, typeWidth]
              simp only [Token.view_isOneOf, Token.view_is, Token.view_newlineBefore,
                condition, predicate,
                group, ih]

/-! ## §2. Arrow functions. -/

theorem arrowAfterParameters_map (tokens : List Token) :
    arrowAfterParameters (tokens.map (Token.view v)) = arrowAfterParameters tokens := by
  unfold arrowAfterParameters
  rw [Parser.groupWidth_map, ← List.map_drop]
  cases tokens.drop (Parser.groupWidth 0 tokens) with
  | nil => rfl
  | cons t rest =>
      simp only [List.map_cons, Token.view_is, typeWidth_map, ← List.map_drop]
      cases rest.drop (typeWidth true 0 0 rest) <;>
        simp only [List.map_cons, List.map_nil, Token.view_is]

theorem plainArrowAhead_map (tokens : List Token) :
    plainArrowAhead (tokens.map (Token.view v)) = plainArrowAhead tokens := by
  cases tokens with
  | nil => rfl
  | cons t rest =>
      have angles := angleWidth?_map v 0 0 (t :: rest)
      have parameters := arrowAfterParameters_map v (t :: rest)
      rw [List.map_cons] at angles parameters ⊢
      unfold plainArrowAhead
      simp only [Token.view_isWord, Token.view_is, angles, parameters]
      cases angleWidth? 0 0 (t :: rest) with
      | none =>
          cases rest <;> simp only [List.map_cons, List.map_nil, Token.view_is,
            Token.view_newlineBefore]
      | some width =>
          simp only [← List.map_drop, arrowAfterParameters_map]
          cases rest.drop (width - 1) <;> cases rest <;>
            simp only [List.map_cons, List.map_nil, Token.view_is, Token.view_newlineBefore]

theorem arrowAhead_map (tokens : List Token) :
    arrowAhead (tokens.map (Token.view v)) = arrowAhead tokens := by
  match tokens with
  | [] => rfl
  | [t] => exact plainArrowAhead_map v [t]
  | t :: next :: rest =>
      have word := t.view_isTheWord v (w := "async") (by decide)
      have inner := plainArrowAhead_map v (next :: rest)
      have whole := plainArrowAhead_map v (t :: next :: rest)
      simp only [List.map_cons] at inner whole ⊢
      simp only [arrowAhead, word, inner, whole, Token.view_newlineBefore, Token.view_isWord,
        Token.view_isOneOf]

end Lookahead

/-! ## §3. Passing over types. -/

namespace Parser

variable {v : View}

theorem skipAngles_commutes : Commutes v id skipAngles skipAngles := by
  refine Commutes.get.bind fun s => ?_
  rw [s.view_ahead, Lookahead.angleWidth?_map]
  cases Lookahead.angleWidth? 0 0 s.ahead with
  | none => exact .pure rfl
  | some width => exact (skip_commutes width).bind fun _ => .pure rfl

theorem skipTypeParameters_commutes : Commutes v id skipTypeParameters skipTypeParameters := by
  refine current_commutes.bind fun t => ?_
  exact .ite (by rw [Token.view_is]) skipAngles_commutes.discard (.pure rfl)

theorem skipType_commutes : Commutes v id skipType skipType := by
  refine Commutes.get.bind fun s => ?_
  rw [s.view_ahead, Lookahead.typeWidth_map]
  exact .ite_then Iff.rfl (complain_commutes .expectedType) (skip_commutes _)

theorem skipAnnotation_commutes : Commutes v id skipAnnotation skipAnnotation :=
  (accept_commutes .colon).bind fun _ => .ite Iff.rfl skipType_commutes (.pure rfl)

theorem skipHeading_commutes (stops : List Punct) :
    Commutes v id (skipHeading stops) (skipHeading stops) := by
  refine .iterate (f := id) rfl fun _ => ?_
  refine current_commutes.bind fun t => ?_
  refine .ite ?_ (.pure rfl) ?_
  · rw [Token.view_isEnd, Token.view_isOneOf]
  refine .ite ?_ ?_ ((skip_commutes 1).bind fun _ => .pure rfl)
  · rw [Token.view_is]
  refine skipAngles_commutes.bind fun found => ?_
  exact .ite Iff.rfl (.pure rfl) ((skip_commutes 1).bind fun _ => .pure rfl)

end Parser

end StackLint
