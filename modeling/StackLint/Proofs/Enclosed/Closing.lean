/-
  StackLint.Proofs.Enclosed.Closing
  ─────────────────────────────────
  **GROUPS THAT ARE CLOSED.**

  Whether tokens are enclosed can be computed: every bracket group that opens among
  them has to close among them, and so has every template, and every list of type
  arguments has to end or to break off there.  Looking ahead goes through the tokens in
  the same way, and stops before it comes to their end.
-/
import StackLint.Proofs.Enclosed.Lookahead

namespace StackLint

namespace Token

/-- The token ends a template. -/
def endsTemplate (t : Token) : Bool :=
  match t.lexeme with
  | .templateTail _ => true
  | _ => false

end Token

/-- The bracket group that is open to this depth is closed among these tokens. -/
def groupCloses : (depth : Nat) → List Token → Bool
  | _, [] => false
  | depth, t :: rest =>
      match t.lexeme with
      | .punct p =>
          if p.opensGroup then groupCloses (depth + 1) rest
          else if p.closesGroup then if depth ≤ 1 then true else groupCloses (depth - 1) rest
          else groupCloses depth rest
      | _ => groupCloses depth rest

/-- Among these tokens it turns out whether they are type arguments. -/
def anglesSettle : (depth skip : Nat) → List Token → Bool
  | _, _, [] => false
  | depth, skip + 1, _ :: rest => anglesSettle depth skip rest
  | depth, 0, t :: rest =>
      match t.lexeme with
      | .punct p =>
          if p = .lt then anglesSettle (depth + 1) 0 rest
          else if Lookahead.closedAngles p ≠ 0 then
            if depth ≤ Lookahead.closedAngles p then true
            else anglesSettle (depth - Lookahead.closedAngles p) 0 rest
          else if p.opensGroup then
            groupCloses 0 (t :: rest)
              && anglesSettle depth (Parser.groupWidth 0 (t :: rest) - 1) rest
          else if p.closesGroup || Lookahead.excludedFromTypeArguments.contains p then true
          else anglesSettle depth 0 rest
      | _ => anglesSettle depth 0 rest

/-- What opens among these tokens is closed among them. -/
def closesAll : List Token → Bool
  | [] => true
  | t :: rest =>
      (!t.opensGroup || groupCloses 0 (t :: rest))
        && (!t.is .lt || anglesSettle 0 0 (t :: rest))
        && (!t.opensSubstitution || rest.any Token.endsTemplate)
        && closesAll rest

section

variable {depth skip : Nat} {tokens : List Token}

/-- **A group that closes** has the same width whatever stands behind. -/
theorem groupWidth_append (closes : groupCloses depth tokens = true) (more : List Token) :
    Parser.groupWidth depth (tokens ++ more) = Parser.groupWidth depth tokens := by
  induction tokens generalizing depth with
  | nil => cases closes
  | cons t rest ih =>
      rw [List.cons_append]
      unfold groupCloses at closes
      unfold Parser.groupWidth
      split
      · next p isPunct =>
          rw [isPunct] at closes
          simp only at closes
          -- One case for each way in which the depth changes.
          by_cases opens : p.opensGroup
          · rw [if_pos opens] at closes
            rw [if_pos opens, if_pos opens, ih closes]
          rw [if_neg opens] at closes
          rw [if_neg opens, if_neg opens]
          by_cases ends : p.closesGroup
          · rw [if_pos ends] at closes
            rw [if_pos ends, if_pos ends]
            by_cases last : depth ≤ 1
            · rw [if_pos last, if_pos last]
            · rw [if_neg last] at closes
              rw [if_neg last, if_neg last, ih closes]
          · rw [if_neg ends] at closes
            rw [if_neg ends, if_neg ends, ih closes]
      · next other =>
          have closes : groupCloses depth rest = true := by
            split at closes
            · next p isPunct => exact absurd isPunct (other p)
            · exact closes
          rw [ih closes]

/-- **Where it turns out what an angle bracket means,** it means the same whatever stands
behind. -/
theorem angleWidth?_append (settles : anglesSettle depth skip tokens = true) (more : List Token) :
    Lookahead.angleWidth? depth skip (tokens ++ more) = Lookahead.angleWidth? depth skip tokens := by
  induction tokens generalizing depth skip with
  | nil => cases skip <;> cases settles
  | cons t rest ih =>
      rw [List.cons_append]
      cases skip with
      | succ skip =>
          rw [Lookahead.angleWidth?, Lookahead.angleWidth?, ih settles]
      | zero =>
          unfold anglesSettle at settles
          unfold Lookahead.angleWidth?
          split
          · next p isPunct =>
              rw [isPunct] at settles
              simp only at settles
              by_cases opens : p = .lt
              · rw [if_pos opens] at settles
                rw [if_pos opens, if_pos opens, ih settles]
              rw [if_neg opens] at settles
              rw [if_neg opens, if_neg opens]
              by_cases closes : Lookahead.closedAngles p ≠ 0
              · rw [if_pos closes] at settles
                rw [if_pos closes, if_pos closes]
                by_cases last : depth ≤ Lookahead.closedAngles p
                · rw [if_pos last, if_pos last]
                · rw [if_neg last] at settles
                  rw [if_neg last, if_neg last, ih settles]
              rw [if_neg closes] at settles
              rw [if_neg closes, if_neg closes]
              by_cases group : p.opensGroup
              · rw [if_pos group] at settles
                obtain ⟨inside, settles⟩ := Bool.and_eq_true_iff.mp settles
                rw [if_pos group, if_pos group, ← List.cons_append, groupWidth_append inside,
                  ih settles]
              rw [if_neg group] at settles
              rw [if_neg group, if_neg group]
              by_cases breaks :
                  p.closesGroup || Lookahead.excludedFromTypeArguments.contains p
              · rw [if_pos breaks, if_pos breaks]
              · rw [if_neg breaks] at settles
                rw [if_neg breaks, if_neg breaks, ih settles]
          · next other =>
              have settles : anglesSettle depth 0 rest = true := by
                split at settles
                · next p isPunct => exact absurd isPunct (other p)
                · exact settles
              rw [ih settles]

/-- A template that ends has the same width whatever stands behind. -/
theorem templateWidth_append (ends : tokens.any Token.endsTemplate = true) (more : List Token) :
    Lookahead.templateWidth (tokens ++ more) = Lookahead.templateWidth tokens := by
  induction tokens with
  | nil => cases ends
  | cons t rest ih =>
      rw [List.cons_append]
      unfold Lookahead.templateWidth
      rw [List.any_cons, Bool.or_eq_true] at ends
      split
      · rfl
      · next other =>
          rcases ends with here | later
          · unfold Token.endsTemplate at here
            split at here
            · next value isTail => exact absurd isTail (other value)
            · cases here
          · rw [ih later]

end

/-- **Tokens that close what they open are enclosed.** -/
theorem Enclosed.of_closesAll {tokens : List Token} (closes : closesAll tokens = true) :
    Enclosed tokens := by
  have later {t : Token} {rest : List Token} (inside : t :: rest <:+ tokens) :
      (!t.opensGroup || groupCloses 0 (t :: rest)) = true
        ∧ (!t.is .lt || anglesSettle 0 0 (t :: rest)) = true
        ∧ (!t.opensSubstitution || rest.any Token.endsTemplate) = true := by
    obtain ⟨front, rfl⟩ := inside
    induction front with
    | nil =>
        rw [List.nil_append, closesAll] at closes
        simp only [Bool.and_eq_true] at closes
        exact ⟨closes.1.1.1, closes.1.1.2, closes.1.2⟩
    | cons first front ih =>
        rw [List.cons_append, closesAll] at closes
        exact ih (Bool.and_eq_true_iff.mp closes).2
  refine ⟨?_, ?_, ?_⟩
  · intro t rest inside opens more
    have closes := (later inside).1
    rw [opens, Bool.not_true, Bool.false_or] at closes
    exact groupWidth_append closes more
  · intro t rest inside isLess more
    have settles := (later inside).2.1
    rw [isLess, Bool.not_true, Bool.false_or] at settles
    exact angleWidth?_append settles more
  · intro t rest inside opens more
    have ends := (later inside).2.2
    rw [opens, Bool.not_true, Bool.false_or] at ends
    exact templateWidth_append ends more

end StackLint
