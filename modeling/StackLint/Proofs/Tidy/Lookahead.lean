/-
  StackLint.Proofs.Tidy.Lookahead
  ───────────────────────────────
  **WHAT IS PASSED OVER ENDS TIDILY.**

  In bracket groups and in types every token is passed over, also a character that
  begins no token.  But such a character is never the last one: a group ends with a
  bracket and a type with one of the tokens that it is made of, unless they take all
  tokens that are left.
-/
import StackLint.Proofs.Parse.Reads

namespace StackLint

/-- **The first `count` tokens end tidily:** there are none of them, or they are all, or the last
one of them is no stray character. -/
def EndsTidily (count : Nat) (tokens : List Token) : Prop :=
  count = 0 ∨ tokens.length ≤ count ∨ ∃ t, tokens[count - 1]? = some t ∧ t.isStray = false

/-! ## §1. Tokens that are no strays. -/

namespace Token

variable {t : Token}

theorem isStray_of_lexeme {l : Lexeme} (same : t.lexeme = l) (notStray : ∀ c, l ≠ .stray c) :
    t.isStray = false := by
  unfold isStray
  split
  · next c isStray => exact absurd (same.symm.trans isStray) (notStray c)
  · rfl

theorem isStray_of_isOneOf {ps : List Punct} (h : t.isOneOf ps = true) : t.isStray = false := by
  unfold isOneOf at h
  unfold isStray
  split
  · next c same =>
      rw [same] at h
      cases h
  · rfl

theorem isStray_of_is {p : Punct} (h : t.is p = true) : t.isStray = false := by
  unfold is at h
  exact isStray_of_lexeme (beq_iff_eq.mp h) fun _ => Lexeme.noConfusion

theorem isStray_of_isWord (h : t.isWord = true) : t.isStray = false := by
  unfold isWord at h
  unfold isStray
  split
  · next c same =>
      rw [same] at h
      cases h
  · rfl

theorem isStray_of_isTheWord {word : Text} (h : t.isTheWord word = true) : t.isStray = false := by
  unfold isTheWord at h
  exact isStray_of_lexeme (beq_iff_eq.mp h) fun _ => Lexeme.noConfusion

theorem isStray_of_isWordIn {words : List Text} (h : t.isWordIn words = true) :
    t.isStray = false := by
  unfold isWordIn at h
  unfold isStray
  split
  · next c same =>
      rw [same] at h
      cases h
  · rfl

end Token

/-! ## §2. Counting. -/

namespace EndsTidily

variable {count more : Nat} {t : Token} {tokens rest : List Token}

theorem zero (tokens : List Token) : EndsTidily 0 tokens :=
  .inl rfl

theorem all (whole : tokens.length ≤ count) : EndsTidily count tokens :=
  .inr (.inl whole)

theorem one (notStray : t.isStray = false) : EndsTidily 1 (t :: rest) :=
  .inr (.inr ⟨t, rfl, notStray⟩)

/-- One token more in front. -/
theorem cons (h : EndsTidily count rest) (first : count = 0 → t.isStray = false ∨ rest = []) :
    EndsTidily (count + 1) (t :: rest) := by
  rcases h with rfl | whole | ⟨last, isLast, notStray⟩
  · rcases first rfl with notStray | rfl
    · exact .one notStray
    · exact .all (Nat.le_refl 1)
  · exact .all (Nat.succ_le_succ whole)
  · cases count with
    | zero =>
        rcases first rfl with notStray | rfl
        · exact .one notStray
        · exact .all (Nat.le_refl 1)
    | succ count => exact .inr (.inr ⟨last, isLast, notStray⟩)

/-- One token less. -/
theorem tail (h : EndsTidily (count + 1) (t :: rest)) : EndsTidily count rest := by
  rcases h with never | whole | ⟨last, isLast, notStray⟩
  · cases never
  · exact .all (Nat.le_of_succ_le_succ whole)
  · cases count with
    | zero => exact .zero rest
    | succ count => exact .inr (.inr ⟨last, isLast, notStray⟩)

/-- The first token, where it is the only one. -/
theorem first (h : EndsTidily 1 (t :: rest)) : t.isStray = false ∨ rest = [] := by
  rcases h with never | whole | ⟨last, isLast, notStray⟩
  · cases never
  · exact .inr (List.length_eq_zero_iff.mp (by
      rw [List.length_cons] at whole
      omega))
  · cases isLast
    exact .inl notStray

/-- Some tokens behind others. -/
theorem add (h : EndsTidily count tokens) (h' : EndsTidily more (tokens.drop count)) :
    EndsTidily (count + more) tokens := by
  rcases h' with rfl | whole | ⟨last, isLast, notStray⟩
  · exact h
  · rw [List.length_drop] at whole
    exact .all (by omega)
  · cases more with
    | zero => exact h
    | succ more =>
        rw [List.getElem?_drop] at isLast
        exact .inr (.inr ⟨last, isLast, notStray⟩)

end EndsTidily

/-! ## §3. Groups. -/

namespace Parser

/-- A bracket group has a token. -/
theorem groupWidth_pos {depth : Nat} {tokens : List Token} (nonempty : tokens ≠ []) :
    0 < groupWidth depth tokens := by
  fun_cases groupWidth depth tokens with
  | case1 => exact absurd rfl nonempty
  | case3 => exact Nat.one_pos
  | _ => exact Nat.succ_pos _

/-- **A bracket group ends tidily.** -/
theorem groupWidth_endsTidily (depth : Nat) (tokens : List Token) :
    EndsTidily (groupWidth depth tokens) tokens := by
  induction tokens generalizing depth with
  | nil => exact .zero []
  | cons t rest ih =>
      have later (depth : Nat) : EndsTidily (groupWidth depth rest + 1) (t :: rest) := by
        refine .cons (ih depth) fun none => .inr ?_
        cases rest with
        | nil => rfl
        | cons t' rest => exact absurd none (Nat.ne_of_gt (groupWidth_pos (List.cons_ne_nil t' rest)))
      rw [groupWidth.eq_def]
      simp only
      split
      · next p isPunct =>
          split
          · exact later _
          · split
            · split
              · exact .one (Token.isStray_of_lexeme isPunct fun _ => Lexeme.noConfusion)
              · exact later _
            · exact later _
      · exact later _

end Parser

namespace Lookahead

/-- **A group in angle brackets ends tidily.** -/
theorem angleWidth?_endsTidily {depth skip width : Nat} {tokens : List Token}
    (found : angleWidth? depth skip tokens = some width) : EndsTidily width tokens := by
  induction tokens generalizing depth skip width with
  | nil =>
      unfold angleWidth? at found
      cases found
  | cons t rest ih =>
      have later {depth skip : Nat}
          (found : (angleWidth? depth skip rest).map (· + 1) = some width) :
          EndsTidily width (t :: rest) := by
        obtain ⟨others, isOthers, rfl⟩ := Option.map_eq_some_iff.mp found
        have positive := (Parser.angleWidth?_pos isOthers).1
        exact .cons (ih isOthers) fun none => absurd none (Nat.ne_of_gt positive)
      rw [angleWidth?.eq_def] at found
      cases skip with
      | succ skip => exact later found
      | zero =>
          simp only at found
          split at found
          · next p isPunct =>
              split at found
              · exact later found
              · split at found
                · split at found
                  · cases found
                    exact .one (Token.isStray_of_lexeme isPunct fun _ => Lexeme.noConfusion)
                  · exact later found
                · split at found
                  · exact later found
                  · split at found
                    · cases found
                    · exact later found
          · exact later found

/-! ## §4. Types. -/

theorem dottedWidth_endsTidily (tokens : List Token) : EndsTidily (dottedWidth tokens) tokens := by
  induction tokens using dottedWidth.induct with
  | case1 dot name rest isDotted ih =>
      rw [dottedWidth, if_pos isDotted]
      rw [Bool.and_eq_true] at isDotted
      refine .cons (.cons ih fun _ => .inl ?_) fun none => nomatch none
      exact Token.isStray_of_isWord isDotted.2
  | case2 dot name rest notDotted =>
      rw [dottedWidth, if_neg notDotted]
      exact .zero _
  | case3 tokens short =>
      have none : dottedWidth tokens = 0 := by
        unfold dottedWidth
        split
        · exact absurd rfl (short _ _ _)
        · rfl
      rw [none]
      exact .zero _

theorem namedTypeWidth_endsTidily (first : Token) (rest : List Token) :
    EndsTidily (namedTypeWidth first rest) rest := by
  unfold namedTypeWidth
  extract_lets imported dotted named
  have isImported : EndsTidily imported rest := by
    unfold imported
    split
    · split
      · exact Parser.groupWidth_endsTidily 0 _
      · exact .zero _
    · exact .zero _
  have isNamed : EndsTidily named rest := isImported.add (dottedWidth_endsTidily _)
  split
  · next t behind isBehind =>
      split
      · refine isNamed.add ?_
        rw [isBehind]
        cases found : angleWidth? 0 0 (t :: behind) with
        | none => exact .zero _
        | some width => exact angleWidth?_endsTidily found
      · exact isNamed
  · exact isNamed

theorem templateWidth_endsTidily (tokens : List Token) :
    EndsTidily (templateWidth tokens) tokens := by
  induction tokens with
  | nil => exact .zero []
  | cons t rest ih =>
      rw [templateWidth]
      split
      · next value isTail => exact .one (Token.isStray_of_lexeme isTail fun _ => Lexeme.noConfusion)
      · refine .cons ih fun none => .inr ?_
        cases rest with
        | nil => rfl
        | cons t' rest =>
            rw [templateWidth] at none
            split at none <;> cases none

/-- Tokens that belong to a type are counted. -/
theorem typeWidth_pos (operand : Bool) (pending skip : Nat) (t : Token) (rest : List Token) :
    0 < typeWidth operand pending (skip + 1) (t :: rest) := by
  cases operand <;> (rw [typeWidth]; exact Nat.succ_pos _)

/-- **A type ends tidily.** -/
theorem typeWidth_endsTidily {operand : Bool} {pending skip : Nat} {tokens : List Token}
    (skipped : EndsTidily skip tokens) :
    EndsTidily (typeWidth operand pending skip tokens) tokens := by
  induction tokens generalizing operand pending skip with
  | nil =>
      have none : typeWidth operand pending skip [] = 0 := by
        cases operand <;> cases skip <;> rfl
      rw [none]
      exact .zero []
  | cons t rest ih =>
      -- One token that is no stray, or several that end tidily.
      have here {operand : Bool} {pending : Nat} (notStray : t.isStray = false) :
          EndsTidily (typeWidth operand pending 0 rest + 1) (t :: rest) :=
        .cons (ih (.zero rest)) fun _ => .inl notStray
      have later {operand : Bool} {pending skip : Nat} (skipped : EndsTidily (skip + 1) (t :: rest)) :
          EndsTidily (typeWidth operand pending skip rest + 1) (t :: rest) := by
        refine .cons (ih skipped.tail) fun none => ?_
        cases skip with
        | zero => exact skipped.first
        | succ skip =>
            cases rest with
            | nil => exact .inr rfl
            | cons t' rest => exact absurd none (Nat.ne_of_gt (typeWidth_pos operand pending skip t' rest))
      have group : EndsTidily (Parser.groupWidth 0 (t :: rest) - 1 + 1) (t :: rest) := by
        rw [Nat.sub_add_cancel (Parser.groupWidth_pos (List.cons_ne_nil t rest))]
        exact Parser.groupWidth_endsTidily 0 _
      cases skip with
      | succ skip =>
          have same : typeWidth operand pending (skip + 1) (t :: rest)
              = typeWidth operand pending skip rest + 1 := by
            cases operand <;> rfl
          rw [same]
          exact later skipped
      | zero =>
          cases operand with
          | true =>
              rw [typeWidth]
              split
              · next isOperator => exact here (Token.isStray_of_isOneOf isOperator)
              split
              · next isOperator =>
                  rw [Bool.and_eq_true] at isOperator
                  exact here (Token.isStray_of_isWordIn isOperator.1)
              split
              · next isParen =>
                  simp only
                  split
                  · next arrow behind isBehind =>
                      split
                      · next isArrow =>
                          -- The parameters and the arrow of a function type.
                          have atArrow : rest[Parser.groupWidth 0 (t :: rest) - 1]? = some arrow := by
                            rw [← List.head?_drop, isBehind]
                            rfl
                          have notStray := Token.isStray_of_is isArrow
                          exact later (.inr (.inr ⟨arrow, by
                            have positive : 0 < Parser.groupWidth 0 (t :: rest) :=
                              Parser.groupWidth_pos (List.cons_ne_nil t rest)
                            rw [Nat.add_sub_cancel, ← Nat.sub_add_cancel positive]
                            exact atArrow, notStray⟩))
                      · exact later group
                  · exact later group
              split
              · next isAngle =>
                  split
                  · next width found =>
                      have positive := (Parser.angleWidth?_pos found).1
                      refine later ?_
                      rw [Nat.sub_add_cancel positive]
                      exact angleWidth?_endsTidily found
                  · exact .zero _
              split
              · exact later group
              split
              · next name isWord =>
                  have notStray := Token.isStray_of_lexeme isWord fun _ => Lexeme.noConfusion
                  exact later (.cons (namedTypeWidth_endsTidily t rest) fun _ => .inl notStray)
              · next isString => exact here (Token.isStray_of_lexeme isString fun _ => Lexeme.noConfusion)
              · next isNumber => exact here (Token.isStray_of_lexeme isNumber fun _ => Lexeme.noConfusion)
              · next isTemplate =>
                  exact here (Token.isStray_of_lexeme isTemplate fun _ => Lexeme.noConfusion)
              · next isHead =>
                  have notStray := Token.isStray_of_lexeme isHead fun _ => Lexeme.noConfusion
                  exact later (.cons (templateWidth_endsTidily rest) fun _ => .inl notStray)
              · exact .zero _
          | false =>
              rw [typeWidth]
              split
              · exact later group
              split
              · next isOperator => exact here (Token.isStray_of_isOneOf isOperator)
              split
              · next isWord =>
                  rw [Bool.and_eq_true] at isWord
                  exact here (Token.isStray_of_isTheWord isWord.1)
              split
              · next isWord =>
                  rw [Bool.and_eq_true] at isWord
                  exact here (Token.isStray_of_isTheWord isWord.1)
              split
              · next isPunct =>
                  rw [Bool.and_eq_true] at isPunct
                  exact here (Token.isStray_of_is isPunct.2)
              split
              · next isPunct =>
                  rw [Bool.and_eq_true] at isPunct
                  exact here (Token.isStray_of_is isPunct.2)
              · exact .zero _

end Lookahead

end StackLint
