/-
  StackLint.Proofs.Parse.Opening
  ──────────────────────────────
  **IN FRONT OF THE FIRST TOKEN.**

  Whether a newline stands in front of the first token of a text does not matter,
  and no node reaches back in front of it.  Two states are alike when they differ
  in these two respects alone.  From such states a parser either takes the token,
  and then does the same in both, or it leaves both states as they are.
-/
import StackLint.Proofs.Parse.Reads
import StackLint.Proofs.Termination.Skip
import StackLint.Proofs.View.Program

namespace StackLint

/-! ## §1. States. -/

/-- The token with another word on whether a newline stands in front of it. -/
def Token.behind (newline : Bool) (t : Token) : Token :=
  { t with newlineBefore := newline }

/-- The states differ in whether a newline stands in front of the next token, and
in where the last token read ends. -/
structure ParserState.Alike (s s' : ParserState) : Prop where
  ahead : ∃ t rest newline, s.ahead = t :: rest ∧ s'.ahead = t.behind newline :: rest
  same : s' = { s with ahead := s'.ahead, lastStop := s'.lastStop }

namespace ParserState.Alike

variable {s s' : ParserState}

theorem current (alike : s.Alike s') : ∃ newline, s'.current = s.current.behind newline := by
  obtain ⟨t, rest, newline, ahead, ahead'⟩ := alike.ahead
  refine ⟨newline, ?_⟩
  unfold ParserState.current
  rw [ahead, ahead']
  rfl

theorem peek (alike : s.Alike s') (count : Nat) : s'.peek (count + 1) = s.peek (count + 1) := by
  obtain ⟨t, rest, newline, ahead, ahead'⟩ := alike.ahead
  have final : s'.final = s.final := by rw [alike.same]
  unfold ParserState.peek
  rw [ahead, ahead', final]
  rfl

/-- Behind the next token there is no difference. -/
theorem skip (alike : s.Alike s') (count : Nat) : s'.skip (count + 1) = s.skip (count + 1) := by
  obtain ⟨t, rest, newline, ahead, ahead'⟩ := alike.ahead
  rw [alike.same]
  unfold ParserState.skip
  dsimp only
  rw [ahead, ahead', List.take_succ_cons, List.take_succ_cons, List.drop_succ_cons,
    List.drop_succ_cons, List.length_cons, List.length_cons]
  congr 1
  cases rest.take count with
  | nil => rfl
  | cons next more =>
      rw [List.getLast?_cons_cons, List.getLast?_cons_cons]
      rfl

theorem position (alike : s.Alike s') : s'.position = s.position := by
  rw [alike.same]

theorem rounds (alike : s.Alike s') : s'.total - s'.position = s.total - s.position := by
  rw [alike.same]

theorem depth (alike : s.Alike s') : s'.depth = s.depth := by
  rw [alike.same]

theorem noIn (alike : s.Alike s') : s'.noIn = s.noIn := by
  rw [alike.same]

/-- One level deeper the states are alike as well. -/
theorem deeper (alike : s.Alike s') (depth : Nat) :
    Alike { s with depth := depth } { s' with depth := depth } where
  ahead := alike.ahead
  same := by
    obtain ⟨_, same⟩ := alike
    rw [same]

end ParserState.Alike

namespace Parser

open ParserState (Alike)

variable {α β γ : Type} {s s' : ParserState} {P Q : α → Prop} {g : Grammar}

/-! ## §2. Agreeing. -/

/-- The parser does the same from both states, or it ends with a value that
satisfies `P` and leaves both states as they are. -/
def Agrees (s s' : ParserState) (p : Parser α) (P : α → Prop) : Prop :=
  p.run s' = p.run s ∨ ∃ a, P a ∧ p.run s = .ok a s ∧ p.run s' = .ok a s'

/-- The parser does the same from both states. -/
abbrev Merges (s s' : ParserState) (p : Parser α) : Prop :=
  Agrees s s' p fun _ => False

theorem Merges.same {p : Parser α} (h : Merges s s' p) : p.run s' = p.run s :=
  h.resolve_right fun ⟨_, never, _⟩ => never

theorem Agrees.mono {p : Parser α} (h : Agrees s s' p P) (weaker : ∀ a, P a → Q a) :
    Agrees s s' p Q :=
  h.imp id fun ⟨a, holds, stays⟩ => ⟨a, weaker a holds, stays⟩

theorem Merges.agrees {p : Parser α} (h : Merges s s' p) : Agrees s s' p P :=
  h.mono fun _ never => never.elim

theorem Agrees.stays {p : Parser α} {a : α} (h : P a) (stays : ∀ s, p.run s = .ok a s) :
    Agrees s s' p P :=
  .inr ⟨a, h, stays s, stays s'⟩

theorem Agrees.pure {a : α} (h : P a) : Agrees s s' (pure a) P :=
  .stays h fun _ => rfl

/-- **One parser after another.** -/
theorem Agrees.bind {p : Parser α} {k : α → Parser β} {R : β → Prop} (first : Agrees s s' p P)
    (next : ∀ a, P a → Agrees s s' (k a) R) : Agrees s s' (p >>= k) R := by
  rcases first with merges | ⟨a, holds, run, run'⟩
  · left
    rw [EStateM.run_bind, EStateM.run_bind, merges]
  · rcases next a holds with merges | ⟨b, holds, run₂, run₂'⟩
    · left
      rw [EStateM.run_bind, EStateM.run_bind, run, run']
      exact merges
    · refine .inr ⟨b, holds, ?_, ?_⟩
      · rw [EStateM.run_bind, run]
        exact run₂
      · rw [EStateM.run_bind, run']
        exact run₂'

theorem Merges.bind {p : Parser α} {k : α → Parser β} (first : Merges s s' p) :
    Merges s s' (p >>= k) :=
  Agrees.bind first fun _ never => never.elim

theorem Agrees.discard {p : Parser α} (h : Agrees s s' p P) :
    Agrees s s' (discard p) fun _ => ∃ a, P a := by
  show Agrees s s' ((fun _ => ()) <$> p) _
  rw [← bind_pure_comp]
  exact h.bind fun a holds => .pure ⟨a, holds⟩

theorem Agrees.ite {c : Prop} [Decidable c] {p q : Parser α} (yes : c → Agrees s s' p P)
    (no : ¬ c → Agrees s s' q P) : Agrees s s' (if c then p else q) P := by
  split
  · next h => exact yes h
  · next h => exact no h

/-! ## §3. The next token. -/

section

variable {R : β → Prop}

theorem Agrees.bind_get {k : ParserState → Parser β} (same : k s' = k s)
    (next : Agrees s s' (k s) R) : Agrees s s' (get >>= k) R := by
  rcases next with merges | ⟨b, holds, run, run'⟩
  · left
    show (k s').run s' = _
    rw [same]
    exact merges
  · refine .inr ⟨b, holds, run, ?_⟩
    show (k s').run s' = _
    rw [same]
    exact run'

/-- What does not look for the newline takes the token of either state. -/
theorem Agrees.bind_current (alike : s.Alike s') {k : Token → Parser β}
    (same : ∀ t newline, k (Token.behind newline t) = k t)
    (next : Agrees s s' (k s.current) R) : Agrees s s' (current >>= k) R := by
  obtain ⟨newline, isCurrent⟩ := alike.current
  refine .bind_get ?_ next
  show k s'.current = k s.current
  rw [isCurrent, same]

theorem Agrees.bind_peek (alike : s.Alike s') {count : Nat} {k : Token → Parser β}
    (next : Agrees s s' (k (s.peek (count + 1))) R) :
    Agrees s s' (peek (count + 1) >>= k) R := by
  refine .bind_get ?_ next
  show k (s'.peek (count + 1)) = _
  rw [alike.peek]

theorem Agrees.bind_position (alike : s.Alike s') {k : Nat → Parser β}
    (next : Agrees s s' (k s.position) R) : Agrees s s' (position >>= k) R := by
  refine .bind_get ?_ next
  show k s'.position = _
  rw [alike.position]

/-- **A token that is read makes the states equal.** -/
theorem skip_merges (alike : s.Alike s') (count : Nat) : Merges s s' (skip (count + 1)) := by
  left
  show EStateM.Result.ok () (s'.skip (count + 1)) = .ok () (s.skip (count + 1))
  rw [alike.skip]

theorem Merges.bind_advance (alike : s.Alike s') {k : Token → Parser β}
    (same : ∀ t newline, k (Token.behind newline t) = k t) : Merges s s' (advance >>= k) := by
  obtain ⟨newline, isCurrent⟩ := alike.current
  left
  show (k s'.current).run (s'.skip 1) = (k s.current).run (s.skip 1)
  rw [isCurrent, same, alike.skip]

end

theorem acceptOneOf_agrees (alike : s.Alike s') (ps : List Punct) :
    Agrees s s' (acceptOneOf ps) fun found => found = false ∧ s.current.isOneOf ps = false := by
  refine .bind_current alike (fun _ _ => rfl) ?_
  cases found : s.current.isOneOf ps with
  | true => exact (skip_merges alike 0).bind.agrees
  | false => exact .pure ⟨rfl, rfl⟩

/-- A punctuator that comes next is read. -/
theorem acceptOneOf_merges (alike : s.Alike s') {ps : List Punct}
    (isNext : s.current.isOneOf ps = true) : Merges s s' (acceptOneOf ps) := by
  refine (acceptOneOf_agrees alike ps).mono fun found stays => ?_
  rw [isNext] at stays
  exact Bool.noConfusion stays.2

theorem acceptWord_agrees (alike : s.Alike s') (word : Text) :
    Agrees s s' (acceptWord word) fun found => found = false := by
  refine .bind_current alike (fun _ _ => rfl) ?_
  cases s.current.isTheWord word with
  | true => exact (skip_merges alike 0).bind.agrees
  | false => exact .pure rfl

theorem expect_merges (alike : s.Alike s') {p : Punct} (isNext : s.current.isOneOf [p] = true) :
    Merges s s' (expect p) :=
  (acceptOneOf_merges alike isNext).bind

theorem skipAngles_agrees (alike : s.Alike s') :
    Agrees s s' skipAngles fun found =>
      found = false ∧ Lookahead.angleWidth? 0 0 s.ahead = none := by
  obtain ⟨t, rest, newline, ahead, ahead'⟩ := alike.ahead
  have same : Lookahead.angleWidth? 0 0 s'.ahead = Lookahead.angleWidth? 0 0 s.ahead := by
    rw [ahead, ahead']
    rfl
  refine .bind_get (by rw [same]) ?_
  cases width : Lookahead.angleWidth? 0 0 s.ahead with
  | none => exact .pure ⟨rfl, rfl⟩
  | some count =>
      obtain ⟨more, rfl⟩ := Nat.exists_eq_add_of_le' (angleWidth?_pos width).1
      exact (skip_merges alike more).bind.agrees

/-- **A loop agrees when its first round takes the token, or ends the loop.** -/
theorem Agrees.iterate (alike : s.Alike s') {body : α → Parser (Round α β)} {a : α}
    {R : β → Prop} (round : Agrees s s' (body a) fun r => ∃ b, R b ∧ r = .finish b) :
    Agrees s s' (iterate body a) R := by
  refine .bind_get ?_ ?_
  · show iterateFor body (s'.total - s'.position + 1) a = _
    rw [alike.rounds]
  rw [iterateFor]
  refine .bind_position alike ?_
  refine round.bind fun r stays => ?_
  obtain ⟨b, holds, rfl⟩ := stays
  exact .pure holds

theorem nested_agrees (alike : s.Alike s') {parse : Parser Tree} {P : Tree → Prop}
    (shallow : s.depth < maxNesting)
    (inner : Agrees { s with depth := s.depth + 1 } { s' with depth := s'.depth + 1 } parse P) :
    Agrees s s' (nested parse) P := by
  have run (s : ParserState) (shallow : s.depth < maxNesting) : (nested parse).run s
      = (parse >>= fun tree => do
          modify fun s => { s with depth := s.depth - 1 }
          return tree).run { s with depth := s.depth + 1 } := by
    show (if s.depth ≥ maxNesting then skipTooDeep else _ : Parser Tree).run s = _
    rw [if_neg (Nat.not_le.mpr shallow)]
    rfl
  have shallow' : s'.depth < maxNesting := by
    rw [alike.depth]
    exact shallow
  rcases inner with merges | ⟨tree, holds, stays, stays'⟩
  · left
    rw [run s shallow, run s' shallow', EStateM.run_bind, EStateM.run_bind, merges]
  · refine .inr ⟨tree, holds, ?_, ?_⟩
    · rw [run s shallow, EStateM.run_bind, stays]
      rfl
    · rw [run s' shallow', EStateM.run_bind, stays']
      rfl

/-! ## §4. What ends an operand. -/

/-- The punctuators that end a construct. -/
def closers : List Punct :=
  [.closeParen, .closeBracket, .closeBrace, .semicolon, .comma]

/-- Nothing continues an operand in front of this token. -/
def endsOperand (t : Token) : Bool :=
  match t.lexeme with
  | .endOfText | .templateMiddle _ | .templateTail _ | .stray _ => true
  | .punct p => closers.contains p
  | _ => false

section

variable {t : Token}

/-- The token is a closer, or no punctuator and no word. -/
theorem lexeme_of_endsOperand (ends : endsOperand t = true) :
    (∃ p ∈ closers, t.lexeme = .punct p)
      ∨ (∀ p, t.lexeme ≠ .punct p) ∧ (∀ name, t.lexeme ≠ .word name) ∧ t.opensTemplate = false := by
  obtain ⟨lexeme, start, stop, newline⟩ := t
  cases lexeme with
  | punct p => exact .inl ⟨p, List.contains_iff_mem.mp ends, rfl⟩
  | endOfText | templateMiddle | templateTail | stray => exact .inr ⟨nofun, nofun, rfl⟩
  | word | number | string | template | templateHead | regex => cases ends

theorem isOneOf_of_endsOperand (ends : endsOperand t = true) {ps : List Punct}
    (others : ∀ p ∈ closers, p ∉ ps) : t.isOneOf ps = false := by
  unfold Token.isOneOf
  rcases lexeme_of_endsOperand ends with ⟨p, isCloser, lexeme⟩ | ⟨noPunct, _⟩
  · rw [lexeme]
    exact Bool.eq_false_iff.mpr fun inside => others p isCloser (List.contains_iff_mem.mp inside)
  · split
    · next p lexeme => exact absurd lexeme (noPunct p)
    · rfl

theorem is_of_endsOperand (ends : endsOperand t = true) {p : Punct} (other : p ∉ closers) :
    t.is p = false := by
  refine beq_eq_false_iff_ne.mpr fun isPunct => ?_
  rcases lexeme_of_endsOperand ends with ⟨q, isCloser, lexeme⟩ | ⟨noPunct, _⟩
  · cases isPunct.symm.trans lexeme
    exact other isCloser
  · exact noPunct p isPunct

theorem opensTemplate_of_endsOperand (ends : endsOperand t = true) : t.opensTemplate = false := by
  rcases lexeme_of_endsOperand ends with ⟨p, _, lexeme⟩ | ⟨_, _, no⟩
  · unfold Token.opensTemplate
    rw [lexeme]
  · exact no

theorem connective?_of_endsOperand (ends : endsOperand t = true) (noIn : Bool) :
    connective? noIn t = none := by
  have noOperator : ∀ p ∈ closers, BinaryOp.ofPunct? p = none := by decide
  unfold connective?
  rcases lexeme_of_endsOperand ends with ⟨p, isCloser, lexeme⟩ | ⟨noPunct, noWord, _⟩
  · rw [lexeme]
    exact congrArg (Option.map _) (noOperator p isCloser)
  · split
    · next p lexeme => exact absurd lexeme (noPunct p)
    · next name lexeme => exact absurd lexeme (noWord name)
    · rfl

theorem assignOperator?_of_endsOperand (ends : endsOperand t = true) :
    assignOperator? t = none := by
  have noOperator : ∀ p ∈ closers, AssignOp.ofPunct? p = none := by decide
  unfold assignOperator?
  rcases lexeme_of_endsOperand ends with ⟨p, isCloser, lexeme⟩ | ⟨noPunct, _⟩
  · rw [lexeme]
    exact noOperator p isCloser
  · split
    · next p lexeme => exact absurd lexeme (noPunct p)
    · rfl

/-- A punctuator whose text ends a construct. -/
theorem endsOperand_of_closes {p : Punct} (lexeme : t.lexeme = .punct p)
    (closes : (t.isEnd || t.continuesTemplate || closerTexts.contains t.lexeme.value) = true) :
    endsOperand t = true := by
  have isCloser (p : Punct) : closerTexts.contains p.text = true → closers.contains p = true := by
    cases p <;> decide
  unfold Token.isEnd Token.continuesTemplate at closes
  unfold endsOperand
  rw [lexeme] at closes ⊢
  exact isCloser p closes

end

/-- A loop that its first round ends leaves the state as it is. -/
theorem iterate_stays {body : α → Parser (Round α β)} {a : α} {b : β}
    (round : (body a).run s = .ok (.finish b) s) : (iterate body a).run s = .ok b s := by
  show (iterateFor body (s.total - s.position + 1) a).run s = _
  rw [iterateFor]
  show (body a >>= _).run s = _
  rw [EStateM.run_bind, round]
  rfl

/-- No chain goes on there. -/
theorem chain_stays (ends : endsOperand s.current = true) (g : Grammar) (allowCalls : Bool)
    (operand : Tree) : (chain g allowCalls operand).run s = .ok operand s := by
  refine iterate_stays ?_
  rw [EStateM.run_bind]
  show EStateM.run (if s.current.is .dot then _ else _) s = _
  simp only [is_of_endsOperand ends (p := .dot) (by decide),
    is_of_endsOperand ends (p := .optionalDot) (by decide),
    is_of_endsOperand ends (p := .openBracket) (by decide),
    is_of_endsOperand ends (p := .openParen) (by decide),
    is_of_endsOperand ends (p := .bang) (by decide),
    is_of_endsOperand ends (p := .lt) (by decide), opensTemplate_of_endsOperand ends,
    Bool.false_and, Bool.false_eq_true, if_false]
  rfl

/-- No connective comes next there. -/
theorem binaryRest_stays (ends : endsOperand s.current = true) (g : Grammar) (minimum : Nat)
    (left : Tree) : (binaryRest g minimum left).run s = .ok left s := by
  refine iterate_stays ?_
  rw [EStateM.run_bind, EStateM.run_get]
  dsimp only
  rw [connective?_of_endsOperand ends]
  rfl

/-! ## §5. Expressions. -/

theorem function_merges (alike : s.Alike s') (g : Grammar) (declaration : Bool) :
    Merges s s' (function g declaration) := by
  refine .bind_current alike (fun _ _ => rfl) ?_
  refine (acceptWord_agrees alike _).bind fun _ _ => ?_
  exact (skip_merges alike 0).bind

theorem classNode_merges (alike : s.Alike s') (g : Grammar) : Merges s s' (classNode g) := by
  refine .bind_current alike (fun _ _ => rfl) ?_
  refine (acceptWord_agrees alike _).discard.bind fun _ _ => ?_
  exact (skip_merges alike 0).bind

theorem skipDecorators_merges (alike : s.Alike s') (isNext : s.current.isOneOf [.atSign] = true)
    (g : Grammar) : Merges s s' (skipDecorators g) :=
  .iterate alike (acceptOneOf_merges alike isNext).bind.agrees

theorem wordOperand_merges (alike : s.Alike s') (g : Grammar) (t : Token) (name : Text) :
    Merges s s' (wordOperand g t name) := by
  refine .bind_peek alike ?_
  refine .ite (fun _ => function_merges alike g false) fun _ => ?_
  refine .ite (fun _ => classNode_merges alike g) fun _ => ?_
  refine .ite (fun _ => Merges.bind_advance alike fun _ _ => rfl) fun _ => ?_
  exact (skip_merges alike 0).bind

/-- What begins no operand is passed over, or ends one. -/
theorem noOperand_agrees (alike : s.Alike s') {t : Token}
    (ends : (t.isEnd || t.continuesTemplate || closerTexts.contains t.lexeme.value) = true →
      endsOperand s.current = true) :
    Agrees s s' (noOperand t) fun _ => endsOperand s.current = true :=
  .ite (fun closes => .pure (ends closes)) fun _ => (skip_merges alike 0).bind.agrees

theorem primary_agrees (alike : s.Alike s') (g : Grammar) :
    Agrees s s' (primary g) fun _ => endsOperand s.current = true := by
  refine .bind_current alike (fun _ _ => rfl) ?_
  generalize isCurrent : s.current = t
  have read {k : Token → Parser Tree} (same : ∀ t newline, k (Token.behind newline t) = k t) :
      Agrees s s' (advance >>= k) fun _ => endsOperand t = true :=
    (Merges.bind_advance alike same).agrees
  have none := noOperand_agrees (t := t) alike
  rw [isCurrent] at none
  obtain ⟨lexeme, start, stop, newline⟩ := t
  cases lexeme with
  | word name => exact (wordOperand_merges alike g _ name).agrees
  | number raw => exact read fun _ _ => rfl
  | string quote value => exact read fun _ _ => rfl
  | template value => exact read fun _ _ => rfl
  | templateHead value => exact read fun _ _ => rfl
  | templateMiddle value => exact none fun _ => rfl
  | templateTail value => exact none fun _ => rfl
  | regex raw => exact (skip_merges alike 0).bind.agrees
  | stray c => exact none fun _ => rfl
  | endOfText => exact none fun _ => rfl
  | punct p =>
      cases p with
      | openParen => exact read fun _ _ => rfl
      | openBracket => exact read fun _ _ => rfl
      | openBrace => exact read fun _ _ => rfl
      | atSign => exact (skipDecorators_merges alike (by rw [isCurrent]; rfl) g).bind.agrees
      | _ => exact none (endsOperand_of_closes rfl)

/-- What leaves every state alone that does not continue an operand. -/
theorem Agrees.rests (alike : s.Alike s') (ends : endsOperand s.current = true) {p : Parser α}
    {a : α} (rests : ∀ {s : ParserState}, endsOperand s.current = true → p.run s = .ok a s) :
    Agrees s s' p fun _ => endsOperand s.current = true := by
  obtain ⟨newline, isCurrent⟩ := alike.current
  refine .inr ⟨a, ends, rests ends, rests ?_⟩
  rw [isCurrent]
  exact ends

theorem stepped_agrees (alike : s.Alike s') (g : Grammar) :
    Agrees s s' (stepped g) fun _ => endsOperand s.current = true := by
  refine (primary_agrees alike g).bind fun operand ends => ?_
  refine (Agrees.rests alike ends fun ends => chain_stays ends g true operand).bind fun expr _ => ?_
  refine Agrees.rests (a := expr) alike ends fun {s} ends => ?_
  show EStateM.run (if s.current.isOneOf [.increment, .decrement] && !s.current.newlineBefore
    then _ else _) s = _
  rw [isOneOf_of_endsOperand ends (by decide), Bool.false_and, if_neg Bool.false_ne_true]
  rfl

theorem unaryBody_agrees (alike : s.Alike s') (g : Grammar) :
    Agrees s s' (unaryBody g) fun _ => endsOperand s.current = true := by
  refine .bind_current alike (fun _ _ => rfl) ?_
  refine .bind_peek alike ?_
  cases unaryOperator? s.current (s.peek 1) with
  | some op => exact (skip_merges alike 0).bind.agrees
  | none =>
      refine .ite (fun _ => ?_) fun _ => stepped_agrees alike g
      refine (skipAngles_agrees alike).bind fun found stays => ?_
      rw [stays.1]
      exact stepped_agrees alike g

theorem unary_agrees (alike : s.Alike s') (shallow : s.depth < maxNesting) (g : Grammar) :
    Agrees s s' (unary g) fun _ => endsOperand s.current = true :=
  nested_agrees alike shallow (unaryBody_agrees (by rw [alike.depth]; exact alike.deeper _) g)

theorem binary_agrees (alike : s.Alike s') (shallow : s.depth < maxNesting) (g : Grammar)
    (minimum : Nat) : Agrees s s' (binary g minimum) fun _ => endsOperand s.current = true := by
  refine (unary_agrees alike shallow g).bind fun left ends => ?_
  exact .rests alike ends fun ends => binaryRest_stays ends g minimum left

theorem conditional_agrees (alike : s.Alike s') (shallow : s.depth < maxNesting) (g : Grammar) :
    Agrees s s' (conditional g) fun _ => endsOperand s.current = true := by
  refine (binary_agrees alike shallow g 0).bind fun test ends => ?_
  refine (acceptOneOf_agrees alike _).bind fun found stays => ?_
  rw [stays.1]
  exact .pure ends

/-- What the head of an arrow function looks like. -/
theorem head_of_plainArrowAhead {t : Token} {rest : List Token}
    (arrow : Lookahead.plainArrowAhead (t :: rest) = true) (noWord : t.isWord = false) :
    t.is .openParen = true ∨ t.is .lt = true ∧ Lookahead.angleWidth? 0 0 (t :: rest) ≠ none := by
  unfold Lookahead.plainArrowAhead at arrow
  dsimp only at arrow
  rw [noWord, if_neg Bool.false_ne_true] at arrow
  split at arrow
  · next isAngle =>
      refine .inr ⟨isAngle, fun none => ?_⟩
      rw [none] at arrow
      cases arrow
  · exact .inl (Bool.and_eq_true_iff.mp arrow).1

theorem arrowParameters_merges (alike : s.Alike s') (g : Grammar)
    (arrow : Lookahead.plainArrowAhead s.ahead = true) : Merges s s' (arrowParameters g) := by
  obtain ⟨t, rest, _, ahead, _⟩ := alike.ahead
  have isCurrent : s.current = t := by
    unfold ParserState.current
    rw [ahead]
    rfl
  rw [ahead] at arrow
  refine .bind_current alike (fun _ _ => rfl) ?_
  rw [isCurrent]
  refine .ite (fun _ => ?_) fun noWord => ?_
  · exact (Merges.bind_advance alike fun _ _ => rfl).bind
  -- Type parameters come first, or the parenthesis.
  have typeParameters : Agrees s s' skipTypeParameters fun _ => s.current.is .lt = false := by
    refine .bind_current alike (fun _ _ => rfl) ?_
    cases isAngle : s.current.is .lt with
    | false => exact .pure rfl
    | true =>
        refine (skipAngles_agrees alike).discard.mono fun _ stays => ?_
        obtain ⟨_, _, none⟩ := stays
        rcases head_of_plainArrowAhead arrow (Bool.not_eq_true _ ▸ noWord) with isParen | ⟨_, some⟩
        · rw [isCurrent, Token.is, beq_iff_eq.mp isParen] at isAngle
          cases isAngle
        · exact absurd (ahead ▸ none) some
  refine typeParameters.bind fun _ noAngle => ?_
  refine Merges.bind (.bind_current alike (fun _ _ => rfl) (expect_merges alike ?_).bind)
  rw [isCurrent] at noAngle ⊢
  rcases head_of_plainArrowAhead arrow (Bool.not_eq_true _ ▸ noWord) with isParen | ⟨isAngle, _⟩
  · unfold Token.isOneOf
    rw [beq_iff_eq.mp isParen]
    rfl
  · rw [noAngle] at isAngle
    cases isAngle

theorem arrowAhead_behind (newline : Bool) (t : Token) (rest : List Token) :
    Lookahead.arrowAhead (t.behind newline :: rest) = Lookahead.arrowAhead (t :: rest) := by
  have group : groupWidth 0 (t.behind newline :: rest) = groupWidth 0 (t :: rest) := rfl
  have angles : Lookahead.angleWidth? 0 0 (t.behind newline :: rest)
      = Lookahead.angleWidth? 0 0 (t :: rest) := rfl
  have width : 0 < groupWidth 0 (t :: rest) := groupWidth_pos (List.cons_ne_nil t rest)
  have parameters : Lookahead.arrowAfterParameters (t.behind newline :: rest)
      = Lookahead.arrowAfterParameters (t :: rest) := by
    unfold Lookahead.arrowAfterParameters
    rw [group]
    obtain ⟨more, isWidth⟩ := Nat.exists_eq_add_of_le' width
    rw [isWidth, List.drop_succ_cons, List.drop_succ_cons]
  have plain : Lookahead.plainArrowAhead (t.behind newline :: rest)
      = Lookahead.plainArrowAhead (t :: rest) := by
    unfold Lookahead.plainArrowAhead
    dsimp only
    rw [angles, parameters]
    rfl
  cases rest with
  | nil => exact plain
  | cons next rest =>
      unfold Lookahead.arrowAhead
      dsimp only
      rw [plain]
      rfl

/-- Without its word in front, an arrow function is a plain one. -/
theorem plainArrowAhead_of_arrowAhead (arrow : Lookahead.arrowAhead s.ahead = true)
    (plain : (s.current.isTheWord "async" && !(s.peek 1).is .arrow) = false) :
    Lookahead.plainArrowAhead s.ahead = true := by
  unfold Lookahead.arrowAhead at arrow
  split at arrow
  · next t next rest ahead =>
      rw [ahead]
      have isCurrent : s.current = t := by
        unfold ParserState.current
        rw [ahead]
        rfl
      have isNext : s.peek 1 = next := by
        unfold ParserState.peek
        rw [ahead]
        rfl
      rw [isCurrent, isNext] at plain
      split at arrow
      · next isAsync =>
          -- A name or a bracket comes next, which is no arrow.
          rw [Bool.and_eq_true, Bool.and_eq_true] at isAsync
          rw [isAsync.1.1, Bool.true_and, Bool.not_eq_false'] at plain
          have begins := isAsync.2
          unfold Token.isWord Token.isOneOf at begins
          rw [beq_iff_eq.mp plain] at begins
          cases begins
      · exact arrow
  · exact arrow

theorem arrowFunction_merges (alike : s.Alike s') (g : Grammar)
    (arrow : Lookahead.arrowAhead s.ahead = true) : Merges s s' (arrowFunction g) := by
  refine .bind_current alike (fun _ _ => rfl) ?_
  refine .bind_current alike (fun _ _ => rfl) ?_
  refine .bind_peek alike ?_
  cases isAsync : s.current.isTheWord "async" && !(s.peek 1).is .arrow with
  | true => exact (skip_merges alike 0).bind
  | false =>
      have plain := plainArrowAhead_of_arrowAhead arrow isAsync
      exact (arrowParameters_merges alike g plain).bind

theorem assignment_agrees (alike : s.Alike s') (shallow : s.depth + 1 < maxNesting) (g : Grammar) :
    Agrees s s' (assignment g) fun _ => endsOperand s.current = true := by
  refine nested_agrees alike (Nat.lt_of_succ_lt shallow) ?_
  rw [alike.depth]
  have alike := alike.deeper (s.depth + 1)
  have same : Lookahead.arrowAhead s'.ahead = Lookahead.arrowAhead s.ahead := by
    obtain ⟨t, rest, newline, ahead, ahead'⟩ := alike.ahead
    rw [ahead, ahead', arrowAhead_behind]
  refine .bind_get (by rw [same]) ?_
  refine .ite (fun arrow => (arrowFunction_merges alike g arrow).agrees) fun _ => ?_
  refine (conditional_agrees alike shallow g).bind fun target ends => ?_
  refine .rests (a := target) alike ends fun {s} ends => ?_
  unfold current
  rw [EStateM.run_bind, EStateM.run_bind, EStateM.run_get]
  dsimp only
  rw [EStateM.run_pure]
  dsimp only
  rw [assignOperator?_of_endsOperand ends]
  rfl

/-- What is asked of the first expression without commas. -/
def AssignmentAgrees (s s' : ParserState) (g : Grammar) : Prop :=
  Agrees s s' g.assignment fun _ => endsOperand s.current = true

theorem expression_agrees (alike : s.Alike s') (first : AssignmentAgrees s s' g) :
    Agrees s s' (expression g) fun _ => endsOperand s.current = true := by
  refine first.bind fun left ends => .iterate alike ?_
  refine (acceptOneOf_agrees alike _).bind fun found stays => ?_
  rw [stays.1]
  exact .pure ⟨left, ends, rfl⟩

/-! ## §6. Statements. -/

theorem expressionStatement_agrees (alike : s.Alike s') (first : AssignmentAgrees s s' g) :
    Agrees s s' (expressionStatement g) fun _ => True := by
  refine .bind_position alike ?_
  refine (expression_agrees alike first).bind fun expr _ => ?_
  refine .bind_position alike ?_
  rw [if_pos rfl]
  exact .pure trivial

theorem typeDeclaration_merges (alike : s.Alike s') (keyword : TypeKeyword) (start : Nat) :
    Merges s s' (typeDeclaration g keyword start) :=
  (skip_merges alike 0).bind

theorem variableStatement_merges (alike : s.Alike s') (keyword : BindingKeyword)
    (inLoopHead : Bool) : Merges s s' (variableStatement g keyword inLoopHead) :=
  .bind_advance alike fun _ _ => rfl

/-- Every keyword that announces a statement is read first. -/
theorem keywordStatements_merge (alike : s.Alike s') :
    ∀ entry ∈ keywordStatements g, Merges s s' entry.2 := by
  intro entry inside
  unfold keywordStatements at inside
  simp only [List.mem_cons, List.not_mem_nil, or_false] at inside
  rcases inside with rfl | rfl | rfl | rfl | rfl | rfl | rfl | rfl | rfl | rfl | rfl | rfl <;>
    exact .bind_advance alike fun _ _ => rfl

theorem otherStatement_agrees (alike : s.Alike s') (first : AssignmentAgrees s s' g)
    (t next : Token) (name : Text) :
    Agrees s s' (otherStatement g t next name) fun _ => True := by
  refine .ite (fun _ => expressionStatement_agrees alike first) fun _ => ?_
  cases found : (keywordStatements g).lookup name with
  | some parse =>
      obtain ⟨front, back, split, _⟩ := List.lookup_eq_some_iff.mp found
      refine (keywordStatements_merge (g := g) alike (name, parse) ?_).agrees
      rw [split]
      exact List.mem_append_right _ (List.mem_cons_self ..)
  | none =>
      refine .ite (fun _ => (skip_merges alike 1).bind.agrees) fun _ => ?_
      exact expressionStatement_agrees alike first

theorem typeKeyword?_alike (alike : s.Alike s') : typeKeyword? s' = typeKeyword? s := by
  obtain ⟨newline, isCurrent⟩ := alike.current
  unfold typeKeyword?
  rw [isCurrent, alike.peek, alike.peek]
  rfl

theorem wordStatement_agrees (alike : s.Alike s') (first : AssignmentAgrees s s' g) (t : Token)
    (name : Text) : Agrees s s' (wordStatement g t name) fun _ => True := by
  refine .bind_peek alike ?_
  cases bindingKeyword? t (s.peek 1) with
  | some keyword =>
      refine .ite (fun _ => (skip_merges alike 0).bind.agrees) fun _ => ?_
      exact (variableStatement_merges alike keyword false).agrees
  | none =>
      refine .ite (fun _ => (function_merges alike g true).agrees) fun _ => ?_
      refine .ite (fun _ => (classNode_merges alike g).agrees) fun _ => ?_
      refine .bind_get (by rw [typeKeyword?_alike alike]) ?_
      cases typeKeyword? s with
      | some keyword => exact (typeDeclaration_merges alike keyword t.start).agrees
      | none => exact otherStatement_agrees alike first t (s.peek 1) name

theorem statementBody_agrees (alike : s.Alike s') (first : AssignmentAgrees s s' g) :
    Agrees s s' (statementBody g) fun _ => True := by
  refine .bind_current alike (fun _ _ => rfl) ?_
  generalize isCurrent : s.current = t
  have isNext (p : Punct) (lexeme : t.lexeme = .punct p) : s.current.isOneOf [p] = true := by
    rw [isCurrent]
    unfold Token.isOneOf
    rw [lexeme]
    exact List.contains_iff_mem.mpr (List.mem_singleton_self p)
  have other := expressionStatement_agrees alike first
  obtain ⟨lexeme, start, stop, newline⟩ := t
  cases lexeme with
  | word name => exact wordStatement_agrees alike first _ name
  | punct p =>
      cases p with
      | openBrace =>
          refine .bind_current alike (fun _ _ => rfl) ?_
          exact (expect_merges alike (isNext .openBrace rfl)).bind.agrees
      | semicolon => exact (skip_merges alike 0).bind.agrees
      | atSign => exact (skipDecorators_merges alike (isNext .atSign rfl) g).bind.agrees
      | _ => exact other
  | _ => exact other

/-- **Statements agree**, where two more calls may be nested. -/
theorem statements_agree (alike : s.Alike s') (shallow : s.depth + 2 < maxNesting) (g : Grammar)
    (closer : Option Punct) (stopWords : List Text) :
    Agrees s s' (statements g.around.around closer stopWords) fun _ => True := by
  refine .iterate alike ?_
  refine .bind_current alike (fun _ _ => rfl) ?_
  refine .ite (fun _ => .pure ⟨_, trivial, rfl⟩) fun _ => ?_
  refine .bind_position alike ?_
  have statement : Agrees s s' g.around.around.statement fun _ => True := by
    refine nested_agrees alike (Nat.lt_of_add_right_lt shallow) ?_
    rw [alike.depth]
    exact statementBody_agrees (alike.deeper _)
      (assignment_agrees (alike.deeper _) (by show s.depth + 1 + 1 < _; omega) g)
  refine statement.bind fun statement _ => ?_
  refine .bind_position alike ?_
  rw [if_pos rfl]
  exact (Merges.bind_advance alike fun _ _ => rfl).agrees

end Parser

/-! ## §7. Programs. -/

open ParserState (Alike) in
/-- **The program does not depend on what stands in front of its first token.** -/
theorem Program.ofRun_eq_of_alike {s s' : ParserState} (alike : s.Alike s')
    (shallow : s.depth + 2 < Parser.maxNesting) (span : Span) :
    ofRun span ((Parser.statements (.ofBudget parseBudget) none []).run s')
      = ofRun span ((Parser.statements (.ofBudget parseBudget) none []).run s) := by
  have budget : Grammar.ofBudget parseBudget = (Grammar.ofBudget (parseBudget - 2)).around.around := rfl
  rw [budget]
  rcases Parser.statements_agree alike shallow (.ofBudget (parseBudget - 2)) none [] with
    merges | ⟨statements, _, stays, stays'⟩
  · exact congrArg (ofRun span) merges
  · have complaints : s'.complaints = s.complaints := by rw [alike.same]
    rw [stays, stays']
    unfold ofRun
    dsimp only
    rw [complaints]

end StackLint
