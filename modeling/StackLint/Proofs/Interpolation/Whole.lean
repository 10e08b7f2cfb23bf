/-
  StackLint.Proofs.Interpolation.Whole
  ────────────────────────────────────
  **PROGRAMS THAT ARE ONE INTERPOLATED TEMPLATE.**

  A text that begins with the tag and a template is parsed as a single tagged template
  if the template reaches to the end of the text, and only then.  All parsers between
  statements and operands hand on what the template is; a parser that adds something
  to it makes another kind of node.
-/
import StackLint.Proofs.Interpolation.Rest
import StackLint.Proofs.Parse.Opening
import StackLint.Proofs.Print.Assigned
import StackLint.Proofs.Token.Standing

namespace StackLint

open PulumiOutput (interpolateTag)
open Scan (tagToken)

namespace Token

variable {t : Token}

theorem is_of_opens (opens : t.opensTemplate = true) (p : Punct) : t.is p = false := by
  obtain ⟨value, isTemplate | isHead⟩ := lexeme_of_opens opens
  · exact beq_eq_false_iff_ne.mpr (isTemplate ▸ nofun)
  · exact beq_eq_false_iff_ne.mpr (isHead ▸ nofun)

theorem isWord_of_opens (opens : t.opensTemplate = true) : t.isWord = false := by
  unfold isWord
  obtain ⟨value, isTemplate | isHead⟩ := lexeme_of_opens opens
  · rw [isTemplate]
  · rw [isHead]

end Token

namespace Parser

variable {α β : Type} {g : Grammar} {s s₁ s₂ : ParserState} {head expr template : Tree}

/-! ## §1. The tag and its template. -/

/-- The node of the tag. -/
def tagTree : Tree :=
  leaf tagToken (.identifier interpolateTag)

/-- The node of a template behind its tag. -/
def tagged (template : Tree) : Tree :=
  .mk ⟨0, template.info.stop⟩ (.taggedTemplate tagTree template)

/-- The tag comes next, and a template behind it. -/
structure AtTag (s : ParserState) : Prop where
  current : s.current = tagToken
  opens : (s.peek 1).opensTemplate = true
  arrow : Lookahead.arrowAhead s.ahead = false

theorem atTag_of_ahead {part : Token} {rest : List Token} (ahead : s.ahead = tagToken :: part :: rest)
    (opens : part.opensTemplate = true) : AtTag s := by
  refine ⟨?_, ?_, ?_⟩
  · unfold ParserState.current
    rw [ahead]
    rfl
  · unfold ParserState.peek
    rw [ahead]
    exact opens
  · have noArrow := Token.is_of_opens opens .arrow
    rw [ahead]
    rw [Lookahead.arrowAhead, show tagToken.isTheWord "async" = false by decide, Bool.false_and,
      Bool.false_and, if_neg Bool.false_ne_true]
    show (part.is .arrow && !part.newlineBefore) = false
    rw [noArrow, Bool.false_and]

theorem primary_run (isTag : s.current = tagToken) :
    (primary g).run s = .ok tagTree (s.skip 1) := by
  unfold primary
  rw [run_current, isTag]
  show (wordOperand g tagToken interpolateTag).run s = _
  unfold wordOperand
  rw [run_peek]
  rfl

/-! ## §2. Outer nodes. -/

/-- The node is no name, no statement of an expression, and no template with a name for
its tag. -/
def isOuter (n : Tree) : Bool :=
  match n.form with
  | .identifier _ | .expressionStatement _ => false
  | .taggedTemplate tag _ => tag.identifierName?.isNone
  | _ => true

/-- The node is closed in front of the rest. -/
theorem Ensures.bind_close {start : Nat} {form : Form Tree} {k : Tree → Parser β}
    {Q : β → ParserState → Prop} (next : Ensures (k (.mk ⟨start, s.lastStop⟩ form)) s Q) :
    Ensures (Parser.close start form >>= k) s Q :=
  .look rfl next

/-- It is known how the first parser ends. -/
theorem Ensures.bind_run {p : Parser α} {a : α} (run : p.run s = .ok a s₁) {k : α → Parser β}
    {Q : β → ParserState → Prop} (next : Ensures (k a) s₁ Q) : Ensures (p >>= k) s Q := by
  intro b s₂ run'
  rw [run_bind run] at run'
  exact next b s₂ run'

theorem optionalLink_outer (g : Grammar) (expr : Tree) (s : ParserState) :
    Ensures (optionalLink g expr) s fun tree _ => isOuter tree = true := by
  refine .behind fun _ s => .bind_current (.ite (fun _ => .behind fun _ s => .close rfl) fun _ => ?_)
  refine .behind fun _ s => .ite (fun _ => ?_) fun _ => .behind fun _ s => .close rfl
  exact .behind fun _ s => .behind fun _ s => .close rfl

/-- **The rounds of a chain:** one that reads a template, one that ends, and all others,
which make an outer node or leave the expression as it is. -/
theorem exists_chainRound (g : Grammar) : ∃ body : Tree → Parser (Round Tree Tree),
    chain g true = iterate body
      ∧ (∀ s expr, s.current.opensTemplate = true → (body expr).run s
          = (Parser.template g >>= fun template => Pure.pure (Round.again
              (.mk ⟨expr.info.start, template.info.stop⟩ (.taggedTemplate expr template)))).run s)
      ∧ (∀ s expr, endsOperand s.current = true → (body expr).run s = .ok (.finish expr) s)
      ∧ ∀ s expr, expr.identifierName? = none →
          Ensures (body expr) s fun r s' => r.Keeps (fun e _ => e = expr ∨ isOuter e = true)
            (fun e _ => e = expr) s' := by
  refine ⟨_, rfl, ?_, ?_, ?_⟩
  · intro s expr opens
    rw [run_current]
    simp only [Token.is_of_opens opens, opens, Bool.false_and, Bool.and_self, Bool.false_eq_true,
      if_false, if_true]
  · intro s expr ends
    rw [run_current]
    simp only [is_of_endsOperand ends (p := .dot) (by decide),
      is_of_endsOperand ends (p := .optionalDot) (by decide),
      is_of_endsOperand ends (p := .openBracket) (by decide),
      is_of_endsOperand ends (p := .openParen) (by decide),
      is_of_endsOperand ends (p := .bang) (by decide),
      is_of_endsOperand ends (p := .lt) (by decide), opensTemplate_of_endsOperand ends,
      Bool.false_and, Bool.false_eq_true, if_false]
    rfl
  · intro s expr noName
    have closed {start : Nat} {form : Form Tree} (outer : ∀ span, isOuter (.mk span form) = true)
        (s : ParserState) : Ensures (close start form >>= fun tree => Pure.pure (Round.again tree)) s
          fun r s' => r.Keeps (fun e _ => e = expr ∨ isOuter e = true) (fun e _ => e = expr) s' :=
      .bind_close (.pure (.inr (outer _)))
    refine .bind_current (.ite (fun _ => ?_) fun _ => .ite (fun _ => ?_) fun _ =>
      .ite (fun _ => ?_) fun _ => .ite (fun _ => ?_) fun _ => .ite (fun _ => ?_) fun _ =>
      .ite (fun _ => ?_) fun _ => .ite (fun _ => ?_) fun _ => .pure rfl)
    · exact .behind fun _ s => .behind fun _ s => closed (fun _ => rfl) s
    · exact (optionalLink_outer g expr s).bind fun tree s outer => .pure (.inr outer)
    · exact .behind fun _ s => .behind fun _ s => .behind fun _ s => closed (fun _ => rfl) s
    · exact .behind fun _ s => closed (fun _ => rfl) s
    · refine .behind fun template s => .pure (.inr ?_)
      show expr.identifierName?.isNone = true
      rw [noName]
      rfl
    · exact .behind fun _ s => .pure (.inr rfl)
    · refine .bind_get ?_
      split
      · exact .pure rfl
      · exact .bind_peek (.ite (fun _ => .behind fun _ s => .pure (.inl rfl)) fun _ => .pure rfl)

/-! ## §3. A template up to the end of the text. -/

/-- **A chain of one template.** -/
theorem chain_run (opens : s.current.opensTemplate = true)
    (run : (Parser.template g).run s = .ok template s₁) (ends : endsOperand s₁.current = true)
    (moves : s.position < s₁.position) (inside : s₁.position ≤ s.total) :
    (chain g true expr).run s
      = .ok (.mk ⟨expr.info.start, template.info.stop⟩ (.taggedTemplate expr template)) s₁ := by
  obtain ⟨body, isLoop, again, finish, _⟩ := exists_chainRound g
  rw [isLoop]
  exact (Loops.again ((again s expr opens).trans (run_bind run _)) moves
    (.finish (finish s₁ _ ends) (Nat.le_refl _))).iterate inside

/-- Behind the tag a template is read, up to the end of the text. -/
structure ReadsWhole (g : Grammar) (s : ParserState) (template : Tree) (s₁ : ParserState) :
    Prop where
  atTag : AtTag s
  run : (Parser.template g).run (s.skip 1) = .ok template s₁
  isEnd : s₁.current.isEnd = true
  moves : (s.skip 1).position < s₁.position
  inside : s₁.position ≤ s.total

theorem endsOperand_of_isEnd {t : Token} (isEnd : t.isEnd = true) : endsOperand t = true := by
  unfold endsOperand
  rw [beq_iff_eq.mp isEnd]

theorem peek_opens (atTag : AtTag s) : (s.skip 1).current.opensTemplate = true := by
  have opens := atTag.opens
  unfold ParserState.current ParserState.peek ParserState.skip at *
  rw [List.head?_drop]
  exact opens

theorem stepped_run (reads : ReadsWhole g s template s₁) :
    (stepped g).run s = .ok (tagged template) s₁ := by
  have ends := endsOperand_of_isEnd reads.isEnd
  have links : (chain g true tagTree).run (s.skip 1) = .ok (tagged template) s₁ :=
    chain_run (peek_opens reads.atTag) reads.run ends reads.moves reads.inside
  unfold stepped
  rw [run_bind (primary_run reads.atTag.current), run_bind links, run_current,
    isOneOf_of_endsOperand ends (by decide), Bool.false_and, if_neg Bool.false_ne_true]
  rfl

/-- The tag is no operator. -/
theorem unaryBody_run (isTag : s.current = tagToken) : (unaryBody g).run s = (stepped g).run s := by
  have none : unaryOperator? tagToken (s.peek 1) = none := by
    show (if mayBeOperand (s.peek 1) then UnaryOp.words.lookup interpolateTag else none) = none
    split <;> rfl
  unfold unaryBody
  rw [run_current, run_peek, isTag, none]
  rfl

/-- Nothing is accepted at the end of the text. -/
theorem accept_run (isEnd : s.current.isEnd = true) (p : Punct) : (accept p).run s = .ok false s :=
  accept_no (by rw [beq_iff_eq.mp isEnd]; nofun)

theorem conditional_run (shallow : s.depth < maxNesting)
    (reads : ReadsWhole g (s.atDepth (s.depth + 1)) template s₁) :
    (conditional g).run s = .ok (tagged template) (s₁.atDepth (s₁.depth - 1)) := by
  have ends : endsOperand (s₁.atDepth (s₁.depth - 1)).current = true :=
    endsOperand_of_isEnd reads.isEnd
  have inner : (unaryBody g).run (s.atDepth (s.depth + 1)) = .ok (tagged template) s₁ := by
    rw [unaryBody_run reads.atTag.current]
    exact stepped_run reads
  have operators : (binary g 0).run s = .ok (tagged template) (s₁.atDepth (s₁.depth - 1)) := by
    unfold binary unary
    rw [run_bind (nested_run shallow inner), binaryRest_stays ends]
  unfold conditional
  have isEnd : (s₁.atDepth (s₁.depth - 1)).current.isEnd = true := reads.isEnd
  rw [run_bind operators, run_bind (accept_run isEnd _)]
  rfl

theorem assignment_run (shallow : s.depth + 1 < maxNesting)
    (reads : ReadsWhole g (s.atDepth (s.depth + 1 + 1)) template s₁) :
    (assignment g).run s = .ok (tagged template) (s₁.atDepth (s₁.depth - 1 - 1)) := by
  have ends : endsOperand (s₁.atDepth (s₁.depth - 1)).current = true :=
    endsOperand_of_isEnd reads.isEnd
  have target : (conditional g).run (s.atDepth (s.depth + 1))
      = .ok (tagged template) (s₁.atDepth (s₁.depth - 1)) :=
    conditional_run shallow reads
  have body : (assignmentBody g).run (s.atDepth (s.depth + 1))
      = .ok (tagged template) (s₁.atDepth (s₁.depth - 1)) := by
    unfold assignmentBody
    show (if Lookahead.arrowAhead s.ahead then _ else _ : Parser Tree).run _ = _
    rw [show Lookahead.arrowAhead s.ahead = false from reads.atTag.arrow, if_neg Bool.false_ne_true,
      run_bind target, run_current, assignOperator?_of_endsOperand ends]
    rfl
  exact nested_run (Nat.lt_of_succ_lt shallow) body

theorem expression_run (shallow : s.depth + 1 < maxNesting)
    (reads : ReadsWhole g (s.atDepth (s.depth + 1 + 1)) template s₁) :
    (expression g.around).run s = .ok (tagged template) (s₁.atDepth (s₁.depth - 1 - 1)) := by
  have first : g.around.assignment.run s = .ok (tagged template) (s₁.atDepth (s₁.depth - 1 - 1)) :=
    assignment_run shallow reads
  unfold expression
  rw [run_bind first]
  refine iterate_stays ?_
  rw [run_bind (accept_run (show (s₁.atDepth (s₁.depth - 1 - 1)).current.isEnd = true from reads.isEnd) _)]
  rfl

theorem typeKeyword?_of_atTag (atTag : AtTag s) : typeKeyword? s = none := by
  have noWord := Token.isWord_of_opens atTag.opens
  unfold typeKeyword?
  rw [atTag.current]
  simp only [noWord]
  split <;> rfl

/-- A statement that begins with the tag is an expression. -/
theorem statementBody_atTag (atTag : AtTag s) :
    (statementBody g).run s = (expressionStatement g).run s := by
  have noColon := Token.is_of_opens atTag.opens .colon
  unfold statementBody
  rw [run_current, atTag.current]
  show (wordStatement g tagToken interpolateTag).run s = _
  unfold wordStatement
  rw [run_peek]
  show ((MonadState.get : Parser ParserState) >>= _).run s = _
  rw [run_look (show (MonadState.get : Parser ParserState).run s = .ok s s from rfl),
    typeKeyword?_of_atTag atTag]
  show (if (s.peek 1).is .colon then _ else expressionStatement g).run s = _
  rw [noColon, if_neg Bool.false_ne_true]

theorem AtTag.atDepth (atTag : AtTag s) (depth : Nat) : AtTag (s.atDepth depth) :=
  ⟨atTag.current, atTag.opens, atTag.arrow⟩

/-- The node of the statement. -/
def statementOf (template : Tree) (stop : Nat) : Tree :=
  .mk ⟨0, stop⟩ (.expressionStatement (tagged template))

theorem expressionStatement_run (shallow : s.depth + 1 < maxNesting)
    (reads : ReadsWhole g (s.atDepth (s.depth + 1 + 1)) template s₁) :
    (expressionStatement g.around).run s
      = .ok (statementOf template s₁.lastStop) (s₁.atDepth (s₁.depth - 1 - 1)) := by
  have moves : s₁.position ≠ s.position := by
    have moves := reads.moves
    rw [ParserState.skip_position] at moves
    have same : (s.atDepth (s.depth + 1 + 1)).position = s.position := rfl
    omega
  have isEnd : (s₁.atDepth (s₁.depth - 1 - 1)).current.isEnd = true := reads.isEnd
  unfold expressionStatement
  rw [run_look (show position.run s = .ok s.position s from rfl), run_bind (expression_run shallow reads),
    run_look (show position.run _ = .ok s₁.position (s₁.atDepth (s₁.depth - 1 - 1)) from rfl), if_neg moves]
  rw [run_bind (discard_run (accept_run isEnd _))]
  rfl

theorem statement_run (shallow : s.depth + 2 < maxNesting)
    (reads : ReadsWhole g (s.atDepth (s.depth + 1 + 1 + 1)) template s₁) :
    (statement g.around).run s
      = .ok (statementOf template s₁.lastStop) (s₁.atDepth (s₁.depth - 1 - 1 - 1)) := by
  have whole : (expressionStatement g.around).run (s.atDepth (s.depth + 1))
      = .ok (statementOf template s₁.lastStop) (s₁.atDepth (s₁.depth - 1 - 1)) :=
    expressionStatement_run shallow reads
  have atTag : AtTag (s.atDepth (s.depth + 1)) := reads.atTag.atDepth (s.depth + 1)
  exact nested_run (Nat.lt_of_add_right_lt shallow) ((statementBody_atTag atTag).trans whole)

/-- **A program that is one template.** -/
theorem statements_run (shallow : s.depth + 2 < maxNesting)
    (reads : ReadsWhole g (s.atDepth (s.depth + 1 + 1 + 1)) template s₁) :
    (statements g.around.around none []).run s
      = .ok [statementOf template s₁.lastStop] (s₁.atDepth (s₁.depth - 1 - 1 - 1)) := by
  have moves : s.position < s₁.position := by
    have moves := reads.moves
    rw [ParserState.skip_position] at moves
    exact Nat.lt_of_le_of_lt (Nat.le_add_right _ _) moves
  have isTag : s.current = tagToken := reads.atTag.current
  have isEnd : (s₁.atDepth (s₁.depth - 1 - 1 - 1)).current.isEnd = true := reads.isEnd
  have statement : g.around.around.statement.run s
      = .ok (statementOf template s₁.lastStop) (s₁.atDepth (s₁.depth - 1 - 1 - 1)) :=
    statement_run shallow reads
  unfold statements
  refine (Loops.again (?_ : EStateM.run _ s = .ok (Round.again [statementOf template s₁.lastStop])
    (s₁.atDepth (s₁.depth - 1 - 1 - 1))) moves (.finish ?_ (Nat.le_refl _))).iterate reads.inside
  · have more : ¬(tagToken.isEnd || Option.any tagToken.is none || tagToken.isWordIn []) = true := by
      decide
    rw [run_current, isTag, if_neg more, run_look (show position.run s = .ok s.position s from rfl),
      run_bind statement, run_look (show position.run (s₁.atDepth (s₁.depth - 1 - 1 - 1))
        = .ok s₁.position (s₁.atDepth (s₁.depth - 1 - 1 - 1)) from rfl),
      if_neg (Nat.ne_of_gt moves)]
    rfl
  · rw [run_current, isEnd]
    rfl

/-! ## §4. Trees that are the template. -/

/-- The tree is the tagged template that is read from the state `s₂` on, or an outer node. -/
def HandsOn (g : Grammar) (s₂ : ParserState) (tree : Tree) : Prop :=
  isOuter tree = true
    ∨ ∃ template s₁, (Parser.template g).run s₂ = .ok template s₁ ∧ tree = tagged template

theorem HandsOn.noName {tree : Tree} (handsOn : HandsOn g s₂ tree) :
    tree.identifierName? = none := by
  rcases handsOn with outer | ⟨template, s₁, _, rfl⟩
  · obtain ⟨span, form⟩ := tree
    cases form with
    | identifier name => cases outer
    | _ => rfl
  · rfl

theorem chain_handsOn (opens : s₂.current.opensTemplate = true) :
    Ensures (chain g true tagTree) s₂ fun tree _ => HandsOn g s₂ tree := by
  obtain ⟨body, isLoop, again, _, others⟩ := exists_chainRound g
  rw [isLoop]
  refine .iterate (I := fun expr s => expr = tagTree ∧ s = s₂ ∨ HandsOn g s₂ expr) (.inl ⟨rfl, rfl⟩)
    fun expr s kept => ?_
  rcases kept with ⟨rfl, rfl⟩ | handsOn
  · intro r s₁ run
    rw [again s tagTree opens] at run
    cases read : (Parser.template g).run s with
    | error reason s' =>
        rw [EStateM.run_bind, read] at run
        cases run
    | ok template s' =>
        rw [run_bind read] at run
        cases run
        exact .inr (.inr ⟨template, s₁, read, rfl⟩)
  · refine (others s expr handsOn.noName).mono fun r s₁ kept => ?_
    cases r with
    | again e =>
        rcases kept with rfl | outer
        · exact .inr handsOn
        · exact .inr (.inl outer)
    | finish e =>
        obtain rfl : e = expr := kept
        exact handsOn

theorem stepped_handsOn (atTag : AtTag s) :
    Ensures (stepped g) s fun tree _ => HandsOn g (s.skip 1) tree := by
  refine .bind_run (primary_run atTag.current) ?_
  refine (chain_handsOn (peek_opens atTag)).bind fun expr s₁ handsOn => .bind_current ?_
  exact .ite (fun _ => .behind fun _ _ => .pure (.inl rfl)) fun _ => .pure handsOn

theorem nested_handsOn {parse : Parser Tree} {P : Tree → Prop} (shallow : s.depth < maxNesting)
    (inner : Ensures parse (s.atDepth (s.depth + 1)) fun tree _ => P tree) :
    Ensures (nested parse) s fun tree _ => P tree := by
  refine .bind_get ?_
  rw [if_neg (Nat.not_le.mpr shallow)]
  refine Ensures.bind (P := fun _ s₁ => s₁ = s.atDepth (s.depth + 1)) (.modify rfl) ?_
  rintro _ _ rfl
  exact inner.bind fun tree s₁ holds => .behind fun _ _ => .pure holds

theorem unary_handsOn (shallow : s.depth < maxNesting) (atTag : AtTag s) :
    Ensures (unary g) s fun tree _ => HandsOn g ((s.atDepth (s.depth + 1)).skip 1) tree := by
  have atTag' : AtTag (s.atDepth (s.depth + 1)) := atTag.atDepth _
  refine nested_handsOn shallow fun tree s₁ run => ?_
  rw [unaryBody_run atTag'.current] at run
  exact stepped_handsOn atTag' tree s₁ run

theorem binaryRest_handsOn {left : Tree} (minimum : Nat) (handsOn : HandsOn g s₂ left) :
    Ensures (binaryRest g minimum left) s fun tree _ => HandsOn g s₂ tree := by
  refine .iterate (I := fun left _ => HandsOn g s₂ left) handsOn fun left s handsOn => .bind_get ?_
  split
  · exact .pure handsOn
  · refine .ite (fun _ => .pure handsOn) fun _ => .behind fun _ s => ?_
    split
    · exact .behind fun _ s => .bind_close (.pure (.inl rfl))
    · exact .behind fun _ s => .bind_close (.pure (.inl rfl))

theorem conditional_handsOn (shallow : s.depth < maxNesting) (atTag : AtTag s) :
    Ensures (conditional g) s fun tree _ => HandsOn g ((s.atDepth (s.depth + 1)).skip 1) tree := by
  have operators : Ensures (binary g 0) s fun tree _ =>
      HandsOn g ((s.atDepth (s.depth + 1)).skip 1) tree :=
    (unary_handsOn shallow atTag).bind fun _ _ handsOn => binaryRest_handsOn 0 handsOn
  refine operators.bind fun test s₁ handsOn => .behind fun found s => ?_
  refine .ite (fun _ => ?_) fun _ => .pure handsOn
  exact .behind fun _ s => .behind fun _ s => .behind fun _ s => .close (.inl rfl)

theorem assignment_handsOn (shallow : s.depth + 1 < maxNesting) (atTag : AtTag s) :
    Ensures (assignment g) s fun tree _ =>
      HandsOn g ((s.atDepth (s.depth + 1 + 1)).skip 1) tree := by
  have atTag' : AtTag (s.atDepth (s.depth + 1)) := atTag.atDepth _
  refine nested_handsOn (Nat.lt_of_succ_lt shallow) (.bind_get ?_)
  rw [if_neg (Bool.not_eq_true _ ▸ atTag'.arrow)]
  refine (conditional_handsOn shallow atTag').bind fun target s₁ handsOn => .bind_current ?_
  split
  · exact .behind fun _ s => .behind fun _ s => .close (.inl rfl)
  · exact .pure handsOn

theorem expression_handsOn (shallow : s.depth + 1 < maxNesting) (atTag : AtTag s) :
    Ensures (expression g.around) s fun tree _ =>
      HandsOn g ((s.atDepth (s.depth + 1 + 1)).skip 1) tree := by
  have first : Ensures g.around.assignment s _ := assignment_handsOn shallow atTag
  refine first.bind fun first s₁ handsOn => ?_
  refine .iterate (I := fun left _ => HandsOn g ((s.atDepth (s.depth + 1 + 1)).skip 1) left) handsOn
    fun left s handsOn => .behind fun found s => .ite (fun _ => ?_) fun _ => .pure handsOn
  exact .behind fun _ s => .bind_close (.pure (.inl rfl))

/-- If the statement is an expression, the expression is the template or an outer node. -/
def StatementHandsOn (g : Grammar) (s₂ : ParserState) (statement : Tree) : Prop :=
  ∀ expr, statement.form = .expressionStatement expr → HandsOn g s₂ expr

theorem HandsOn.noStatement {tree expr : Tree} (handsOn : HandsOn g s₂ tree) :
    tree.form ≠ .expressionStatement expr := by
  rcases handsOn with outer | ⟨template, s₁, _, rfl⟩
  · obtain ⟨span, form⟩ := tree
    rintro rfl
    cases outer
  · exact nofun

theorem expressionStatement_handsOn (shallow : s.depth + 1 < maxNesting) (atTag : AtTag s) :
    Ensures (expressionStatement g.around) s fun tree _ =>
      StatementHandsOn g ((s.atDepth (s.depth + 1 + 1)).skip 1) tree := by
  refine .bind_position ((expression_handsOn shallow atTag).bind fun expr s₁ handsOn => ?_)
  refine .bind_position (.ite (fun _ => .pure ?_) fun _ => .behind fun _ s => .close ?_)
  · exact fun _ isStatement => absurd isStatement handsOn.noStatement
  · rintro _ ⟨⟩
    exact handsOn

theorem statement_handsOn (shallow : s.depth + 2 < maxNesting) (atTag : AtTag s) :
    Ensures (statement g.around) s fun tree _ =>
      StatementHandsOn g ((s.atDepth (s.depth + 1 + 1 + 1)).skip 1) tree := by
  have atTag' : AtTag (s.atDepth (s.depth + 1)) := atTag.atDepth _
  refine nested_handsOn (Nat.lt_of_add_right_lt shallow) fun tree s₁ run => ?_
  rw [statementBody_atTag atTag'] at run
  exact expressionStatement_handsOn shallow atTag' tree s₁ run

/-- **A program of one statement** that is an expression is the template, or it has an outer
node for its expression. -/
theorem statements_handsOn (shallow : s.depth + 2 < maxNesting) (atTag : AtTag s) :
    Ensures (statements g.around.around none []) s fun trees _ => ∀ tree, trees = [tree] →
      StatementHandsOn g ((s.atDepth (s.depth + 1 + 1 + 1)).skip 1) tree := by
  -- The first statement stays the first one, whatever comes behind it.
  refine .iterate (I := fun read s' => read = [] ∧ s' = s ∨ ∃ others first,
    read = others ++ [first]
      ∧ StatementHandsOn g ((s.atDepth (s.depth + 1 + 1 + 1)).skip 1) first) (.inl ⟨rfl, rfl⟩) ?_
  rintro read s' kept
  have stray (t : Token) (c : Complaint) : StatementHandsOn g
      ((s.atDepth (s.depth + 1 + 1 + 1)).skip 1) (leaf t (.errorNode c)) := nofun
  refine .bind_current (.ite (fun _ => .pure ?_) fun _ => .bind_position ?_)
  · intro tree isOnly
    rcases kept with ⟨rfl, _⟩ | ⟨others, first, rfl, holds⟩
    · cases isOnly
    · rw [List.reverse_append, List.reverse_singleton, List.singleton_append, List.cons.injEq] at isOnly
      exact isOnly.1 ▸ holds
  · have statement : Ensures g.around.around.statement s' fun tree _ => ∃ others first,
        tree :: read = others ++ [first]
          ∧ StatementHandsOn g ((s.atDepth (s.depth + 1 + 1 + 1)).skip 1) first := by
      rcases kept with ⟨rfl, rfl⟩ | ⟨others, first, rfl, holds⟩
      · exact (statement_handsOn shallow atTag).mono fun tree _ holds => ⟨[], tree, rfl, holds⟩
      · exact (Ensures.any _ _).mono fun tree _ _ => ⟨tree :: others, first, rfl, holds⟩
    refine statement.bind fun tree s₁ found => .bind_position (.ite (fun _ => ?_) fun _ => ?_)
    · refine .bind_advance (.behind fun _ s₂ => .pure (.inr ?_))
      rcases kept with ⟨rfl, _⟩ | ⟨others, first, rfl, holds⟩
      · exact ⟨[], _, rfl, stray _ _⟩
      · exact ⟨_ :: others, first, rfl, holds⟩
    · exact .pure (.inr found)

/-! ## §5. Texts. -/

/-- The budget of nested calls that is left in a template that is a statement. -/
def templateBudget : Nat := parseBudget - 2

/-- The state in front of the template of a text that begins with the tag. -/
def behindTag (L : Layout) : ParserState :=
  ((ParserState.start L.tokens L.final).atDepth 3).skip 1

/-- The text begins with the tag and a template. -/
structure Begins (L : Layout) (part : Token) (rest : List Token) : Prop where
  tokens : L.tokens = tagToken :: part :: rest
  opens : part.opensTemplate = true

/-- The template behind the tag is read up to the end of the text, without complaints. -/
structure IsWhole (L : Layout) (template : Tree) (s₁ : ParserState) : Prop where
  run : (Parser.template (.ofBudget templateBudget)).run (behindTag L) = .ok template s₁
  ahead : s₁.ahead = []
  stop : s₁.lastStop = L.text.length
  silent : s₁.complaints = []

theorem behindTag_on (L : Layout) : (behindTag L).On L := by
  have on : ((ParserState.start L.tokens L.final).atDepth 3).On L :=
    ⟨rfl, rfl, Nat.zero_le _, rfl, rfl⟩
  exact on.skip 1

/-- Up to the end of the text nothing is left. -/
theorem ahead_of_lastStop {L : Layout} (on : s.On L) (stop : s.lastStop = L.text.length) :
    s.ahead = [] := by
  have inside := on.inside
  have atEnd : ¬ s.position < L.size := by
    intro more
    have last := on.lastStop
    have spec := L.token_spec more
    omega
  rw [on.ahead]
  exact List.drop_eq_nil_of_le (by unfold Layout.size at atEnd; omega)

section

variable {L : Layout} {part : Token} {rest : List Token} (begins : Begins L part rest)

include begins

theorem Begins.atTag : AtTag (ParserState.start L.tokens L.final) :=
  atTag_of_ahead begins.tokens begins.opens

theorem Begins.position : (behindTag L).position = 1 := by
  show 0 + (L.tokens.take 1).length = 1
  rw [begins.tokens]
  rfl

/-- What is known of the template behind the tag. -/
theorem Begins.template_spec : Ensures (Parser.template (.ofBudget templateBudget)) (behindTag L)
    fun tree s' => Taken L (behindTag L) s' tree ∧ tree.info.stop = s'.lastStop := by
  refine Parser.template_spec (Grammar.ofBudget_sound L _) (behindTag_on L) ?_
  show ((L.tokens.drop 1).head?.getD L.final).opensTemplate = true
  rw [begins.tokens]
  exact begins.opens

theorem Begins.readsWhole {template : Tree}
    (run : (Parser.template (.ofBudget templateBudget)).run (behindTag L) = .ok template s₁)
    (ahead : s₁.ahead = []) :
    ReadsWhole (.ofBudget templateBudget) ((ParserState.start L.tokens L.final).atDepth 3)
      template s₁ := by
  obtain ⟨taken, _⟩ := begins.template_spec _ _ run
  have on := taken.laid.reads.on
  refine ⟨begins.atTag.atDepth 3, run, ?_, taken.moved, on.inside⟩
  unfold ParserState.current
  rw [ahead]
  show s₁.final.isEnd = true
  rw [on.final]
  exact beq_iff_eq.mpr L.final_spec.1

theorem Begins.statements_run {template : Tree}
    (run : (Parser.template (.ofBudget templateBudget)).run (behindTag L) = .ok template s₁)
    (ahead : s₁.ahead = []) :
    (statements (.ofBudget parseBudget) none []).run (.start L.tokens L.final)
      = .ok [statementOf template s₁.lastStop] (s₁.atDepth (s₁.depth - 1 - 1 - 1)) := by
  have shallow : (ParserState.start L.tokens L.final).depth + 2 < maxNesting :=
    (by decide : 0 + 2 < maxNesting)
  exact Parser.statements_run shallow (begins.readsWhole run ahead)

/-- **A text that is read as a whole** says what its template says. -/
theorem Begins.ofText?_of_isWhole {span : Span} {value : Text} {spans : List Tree}
    (whole : IsWhole L (.mk span (.templateLiteral value spans)) s₁) :
    Content.ofText? L.text = some (.ofTemplate L.text value spans) := by
  obtain ⟨_, stop⟩ := begins.template_spec _ _ whole.run
  have toEnd : span.stop = L.text.length := stop.trans whole.stop
  unfold Content.ofText?
  rw [parse_layout, parseTokens_eq_ofRun, begins.statements_run whole.run whole.ahead]
  show Content.ofProgram? L.text ⟨.mk _ (.program [statementOf _ _]), s₁.complaints.reverse⟩ = _
  rw [whole.silent]
  show (if interpolateTag = interpolateTag ∧ (⟨0, span.stop⟩ : Span) = ⟨0, L.text.length⟩ then _
    else none) = _
  rw [if_pos ⟨rfl, congrArg (Span.mk 0) toEnd⟩]

/-- **A text that says something** is read as a whole. -/
theorem Begins.exists_isWhole {content : Content}
    (isContent : Content.ofText? L.text = some content) : ∃ span value spans s₁,
      IsWhole L (.mk span (.templateLiteral value spans)) s₁
        ∧ content = .ofTemplate L.text value spans := by
  unfold Content.ofText? at isContent
  rw [parse_layout, parseTokens_eq_ofRun] at isContent
  obtain ⟨whole, outer, tag, span, value, spans, isProgram, isContent⟩ :=
    Content.ofProgram?_eq_some isContent
  cases run : (statements (.ofBudget parseBudget) none []).run (.start L.tokens L.final) with
  | error reason s =>
      rw [run] at isProgram
      exact absurd (congrArg Program.complaints isProgram) (by simp [Program.ofRun])
  | ok trees s =>
      rw [run] at isProgram
      have isTree := congrArg Program.tree isProgram
      have silent := congrArg Program.complaints isProgram
      have shallow : (ParserState.start L.tokens L.final).depth + 2 < maxNesting :=
        (by decide : 0 + 2 < maxNesting)
      injection isTree with _ isForm
      injection isForm with isTrees
      -- A template with a name for its tag is no outer node.
      have handsOn := statements_handsOn (g := .ofBudget templateBudget) shallow begins.atTag _ _ run _
        isTrees _ rfl
      rcases handsOn with never | ⟨template, s₁, read, isTagged⟩
      · cases never
      injection isTagged with isSpan isTagged
      injection isTagged with _ isTemplate
      subst isTemplate
      obtain ⟨taken, stop⟩ := begins.template_spec _ _ read
      have toEnd : s₁.lastStop = L.text.length := stop.symm.trans (congrArg Span.stop isSpan).symm
      have ahead := ahead_of_lastStop taken.laid.reads.on toEnd
      have run' := begins.statements_run read ahead
      rw [run] at run'
      cases run'
      exact ⟨span, value, spans, s₁, ⟨read, ahead, toEnd, List.reverse_eq_nil_iff.mp silent⟩, isContent⟩

end

end Parser

end StackLint
