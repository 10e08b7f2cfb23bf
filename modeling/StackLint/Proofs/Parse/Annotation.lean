/-
  StackLint.Proofs.Parse.Annotation
  ─────────────────────────────────
  **TYPES ARE PASSED OVER.**

  The value of a declaration is read as if there was no type in front of the equals sign.
  The type is cut into tokens of its own, whatever its spacing, and so is the equals sign
  behind it; one thing can go wrong: a bracket that closes type arguments and stands right in
  front of the equals sign is read together with it, as another operator.

  What stands behind the equals sign must not go on with it either.  In the text without the
  type there is a blank between them, so nothing can go wrong there; but then the value would
  begin with a punctuator that begins no operand, and the parser would complain of it.
-/
import StackLint.Proofs.Parse.Program
import StackLint.Proofs.Parse.TypeText
import StackLint.Proofs.View.Further
import StackLint.Proofs.View.Program

namespace StackLint

/-- How many constructs are open says nothing about the place on the layout. -/
theorem ParserState.On.atDepth {L : Layout} {s : ParserState} (on : s.On L) (depth : Nat) :
    (s.atDepth depth).On L :=
  ⟨on.ahead, on.final, on.inside, on.total, on.lastStop⟩

namespace Parser

variable {α γ : Type} {lead : Nat} {s s' : ParserState}

/-! ## §1. Tokens that begin no operand. -/

/-- The punctuators that begin with a character that goes on with an equals sign. -/
def goingOnAssign : List Punct :=
  Punct.all.filter fun p => p.text.head?.any (Punct.goingOn .assign).contains

/-- They begin no operand. -/
theorem of_goingOnAssign {p : Punct} (goesOn : p ∈ goingOnAssign) :
    UnaryOp.ofPunct? p = none ∧ p ≠ .lt ∧ closerTexts.contains p.text = false
      ∧ p ∉ [Punct.openParen, .openBracket, .openBrace, .atSign] := by
  have listed : ∀ p ∈ goingOnAssign, UnaryOp.ofPunct? p = none ∧ p ≠ .lt
      ∧ closerTexts.contains p.text = false
      ∧ p ∉ [Punct.openParen, .openBracket, .openBrace, .atSign] := by
    decide +kernel
  exact listed p goesOn

/-- **Reading is not silent:** wherever the parser ends, there are complaints. -/
def Objects (L : Layout) (p : Parser α) (s : ParserState) : Prop :=
  Ensures p s fun _ s' => s'.On L ∧ s'.complaints ≠ []

section

variable {L : Layout} {g : Grammar} {t : Token} {p : Punct}

/-- Complaints are not taken back. -/
theorem Objects.bind {p : Parser α} {k : α → Parser γ} (objects : Objects L p s)
    (passes : ∀ a, Passes L (k a)) : Objects L (p >>= k) s := by
  refine Ensures.bind objects fun a s₁ heard => ?_
  refine (passes a s₁ heard.1).mono fun _ s₂ reads => ⟨reads.on, fun silent => ?_⟩
  exact heard.2 (reads.silent silent)

/-- Only the run matters. -/
theorem Objects.of_run {p q : Parser α} {s' : ParserState} (same : p.run s = q.run s')
    (objects : Objects L q s') : Objects L p s := by
  intro a s₁ run
  exact objects a s₁ (same ▸ run)

/-- One level deeper. -/
theorem Objects.nested {parse : Parser Tree} (shallow : s.depth < maxNesting)
    (objects : Objects L parse (s.atDepth (s.depth + 1))) : Objects L (nested parse) s := by
  refine .of_run (nested_shallow shallow) (Ensures.bind objects fun tree s₁ heard => ?_)
  refine Ensures.bind (P := fun _ s₂ => s₂ = s₁.atDepth (s₁.depth - 1)) (.modify rfl) ?_
  rintro _ _ rfl
  exact .pure ⟨heard.1.atDepth _, heard.2⟩

/-- The first round of a loop. -/
theorem Objects.iterate {body : α → Parser (Round α γ)} {a : α} (first : Objects L (body a) s)
    (later : ∀ a, Passes L (body a)) : Objects L (iterate body a) s := by
  refine Ensures.iterate (I := fun a' s' => (a' = a ∧ s' = s) ∨ (s'.On L ∧ s'.complaints ≠ []))
    (.inl ⟨rfl, rfl⟩) ?_
  rintro a' s₁ (⟨rfl, rfl⟩ | ⟨on, heard⟩)
  · refine Ensures.mono first fun r s₂ heard => ?_
    cases r with
    | again a' => exact .inr heard
    | finish b => exact heard
  · refine (later a' s₁ on).mono fun r s₂ reads => ?_
    have heard : s₂.On L ∧ s₂.complaints ≠ [] :=
      ⟨reads.on, fun silent => heard (reads.silent silent)⟩
    cases r with
    | again a' => exact .inr heard
    | finish b => exact heard

theorem is_of_lexeme {q : Punct} (isPunct : t.lexeme = .punct p) (other : p ≠ q) :
    t.is q = false := by
  unfold Token.is
  rw [isPunct]
  exact beq_false_of_ne fun same => other (Lexeme.punct.inj same)

/-- They begin no arrow function either. -/
theorem arrowAhead_of_goingOnAssign (goesOn : p ∈ goingOnAssign)
    (isPunct : s.current.lexeme = .punct p) : Lookahead.arrowAhead s.ahead = false := by
  obtain ⟨_, notLess, _, noBracket⟩ := of_goingOnAssign goesOn
  have notOpener : p ≠ .openParen := by
    rintro rfl
    exact noBracket List.mem_cons_self
  cases ahead : s.ahead with
  | nil => rfl
  | cons t rest =>
      have isPunct : t.lexeme = .punct p := current_of_ahead ahead ▸ isPunct
      have notWord : t.isWord = false := by
        unfold Token.isWord
        rw [isPunct]
      have notAsync : t.isTheWord "async" = false := by
        unfold Token.isTheWord
        rw [isPunct]
        rfl
      have plain : Lookahead.plainArrowAhead (t :: rest) = false := by
        rw [Lookahead.plainArrowAhead.eq_def]
        dsimp only
        rw [notWord, is_of_lexeme isPunct notLess, is_of_lexeme isPunct notOpener]
        rfl
      cases rest with
      | nil => exact plain
      | cons next rest =>
          rw [Lookahead.arrowAhead, notAsync]
          exact plain

variable (on : s.On L) (isPunct : s.current.lexeme = .punct p) (goesOn : p ∈ goingOnAssign)

include on isPunct goesOn

theorem noOperand_objects : Objects L (noOperand s.current) s := by
  obtain ⟨_, _, noCloser, _⟩ := of_goingOnAssign goesOn
  have begins : (s.current.isEnd || s.current.continuesTemplate
      || closerTexts.contains s.current.lexeme.value) = false := by
    unfold Token.isEnd Token.continuesTemplate
    rw [isPunct]
    exact noCloser
  unfold noOperand
  rw [begins, if_neg Bool.false_ne_true, on.start_current]
  refine .bind_skip ?_
  refine (complainAt_spec (on.skip 1) _ _).bind fun _ s₁ complained => .pure ?_
  refine ⟨complained.reads.on, fun silent => ?_⟩
  obtain ⟨_, inside⟩ := complained.heard
  rw [silent] at inside
  cases inside

theorem primary_objects : Objects L (primary g) s := by
  obtain ⟨_, _, _, noBracket⟩ := of_goingOnAssign goesOn
  refine .bind_current ?_
  have objects := noOperand_objects on isPunct goesOn
  rw [isPunct]
  cases p <;> first | exact objects | exact absurd (by decide) noBracket

theorem stepped_objects (tidy : g.Tidies L) : Objects L (stepped g) s := by
  refine (primary_objects on isPunct goesOn).bind fun operand => ?_
  refine (chain_tidies tidy _ _).passes.bind fun expr => ?_
  exact .look (fun _ => rfl) fun _ => .ite ((skip_passes 1).bind fun _ => .pure _) (.pure _)

theorem unaryBody_objects (tidy : g.Tidies L) : Objects L (unaryBody g) s := by
  obtain ⟨noOperator, notLess, _, _⟩ := of_goingOnAssign goesOn
  refine .bind_current (.bind_peek ?_)
  have none : unaryOperator? s.current (s.peek 1) = none := by
    unfold unaryOperator?
    rw [isPunct]
    exact noOperator
  rw [none, is_of_lexeme isPunct notLess]
  exact stepped_objects on isPunct goesOn tidy

theorem binary_objects (tidy : g.Tidies L) (shallow : s.depth < maxNesting) (minimum : Nat) :
    Objects L (binary g minimum) s := by
  have deeper := unaryBody_objects (on.atDepth (s.depth + 1)) isPunct goesOn tidy
  exact (Objects.nested shallow deeper).bind fun left => (binaryRest_tidies tidy minimum left).passes

theorem conditional_objects (tidy : g.Tidies L) (shallow : s.depth < maxNesting) :
    Objects L (conditional g) s := by
  refine (binary_objects on isPunct goesOn tidy shallow 0).bind fun test => ?_
  refine (accept_passes _).bind fun _ => .ite ?_ (.pure _)
  refine (allowingIn_tidies tidy.assignment).passes.bind fun _ => ?_
  refine (expect_passes _).discard.bind fun _ => tidy.assignment.passes.bind fun _ => ?_
  exact (close_tidies _ _).passes

/-- **No expression begins with such a token.** -/
theorem assignment_objects (tidy : g.Tidies L) (shallow : s.depth + 1 < maxNesting) :
    Objects L (assignment g) s := by
  have deeper := on.atDepth (s.depth + 1)
  have noArrow : Lookahead.arrowAhead (s.atDepth (s.depth + 1)).ahead = false :=
    arrowAhead_of_goingOnAssign goesOn isPunct
  refine .nested (Nat.lt_of_succ_lt shallow) (.bind_get ?_)
  rw [noArrow, if_neg Bool.false_ne_true]
  refine (conditional_objects deeper isPunct goesOn tidy shallow).bind fun target => ?_
  refine .look (fun _ => rfl) fun t => ?_
  split
  · exact (skip_passes 1).bind fun _ => tidy.assignment.passes.bind fun _ =>
      (close_tidies _ _).passes
  · exact .pure _

end

/-! ## §2. Declarations. -/

/-- In front of an equals sign the tokens are passed over as an annotation. -/
def IsTyping (tokens : List Token) : Prop :=
  ∀ (s : ParserState) (rest : List Token) (assign : Token), s.ahead = tokens ++ assign :: rest →
    assign.lexeme = .punct .assign →
    (do discard (accept .bang); skipAnnotation : Parser Unit).run s = .ok () (s.skip tokens.length)

theorem isTyping_nil : IsTyping [] := by
  intro s rest assign ahead isAssign
  have isNext : s.current.lexeme = .punct .assign := current_of_ahead ahead ▸ isAssign
  have noBang : (accept .bang).run s = .ok false s := accept_no (by rw [isNext]; nofun)
  have noColon : (accept .colon).run s = .ok false s := accept_no (by rw [isNext]; nofun)
  unfold skipAnnotation
  rw [run_bind (discard_run noBang), run_bind noColon]
  rfl

theorem isTyping_type {colon : Token} {type : List Token} {ls : List Lexeme}
    (isColon : colon.lexeme = .punct .colon) (passed : Lookahead.ArePassed ls) (some : ls ≠ [])
    (cut : type.map Token.lexeme = ls) : IsTyping (colon :: type) := by
  intro s rest assign ahead isAssign
  have isNext : s.current.lexeme = .punct .colon := current_of_ahead ahead ▸ isColon
  have noBang : (accept .bang).run s = .ok false s := accept_no (by rw [isNext]; nofun)
  have width := passed type rest assign cut isAssign
  have behind : (s.skip 1).ahead = type ++ assign :: rest := by
    show s.ahead.drop 1 = _
    rw [ahead]
    rfl
  have isType : skipType.run (s.skip 1) = .ok () ((s.skip 1).skip type.length) := by
    have reads : type.length ≠ 0 := by
      rw [← List.length_map (f := Token.lexeme), cut, Ne, List.length_eq_zero_iff]
      exact some
    rw [← behind] at width
    show (if Lookahead.typeWidth true 0 0 (s.skip 1).ahead = 0 then _ else _ : Parser Unit).run
      (s.skip 1) = _
    rw [width, if_neg reads]
    rfl
  unfold skipAnnotation
  rw [run_bind (discard_run noBang), run_bind (accept_yes isNext)]
  show skipType.run (s.skip 1) = _
  rw [isType, ParserState.skip_skip, List.length_cons, Nat.add_comm]

/-- The tokens name what is declared, with the annotation, in front of its value. -/
structure Names (typing value tokens : List Token) : Prop where
  isTyping : IsTyping typing
  split : ∃ name assign : Token, name.lexeme = .word "x" ∧ assign.lexeme = .punct .assign
    ∧ tokens = name :: (typing ++ assign :: value)

/-- **The tokens of a declaration** with the annotation, in front of its value. -/
structure Declares (typing value tokens : List Token) : Prop where
  keyword : ∃ word rest, word.lexeme = .word "const" ∧ tokens = word :: rest
  names : Names typing value (tokens.drop 1)

section

variable {g : Grammar} {typing typing' value value' : List Token}

theorem Declares.length_eq {tokens : List Token} (declares : Declares typing value tokens) :
    tokens.length = typing.length + 3 + value.length := by
  obtain ⟨⟨word, rest, _, rfl⟩, _, name, assign, _, _, isRest⟩ := declares
  obtain rfl : rest = name :: (typing ++ assign :: value) := isRest
  simp only [List.length_cons, List.length_append]
  omega

/-- Behind the equals sign there is the value. -/
theorem Declares.drop_eq {tokens : List Token} (declares : Declares typing value tokens) :
    tokens.drop (typing.length + 3) = value := by
  obtain ⟨⟨word, rest, _, rfl⟩, _, name, assign, _, _, isRest⟩ := declares
  obtain rfl : rest = name :: (typing ++ assign :: value) := isRest
  have split : word :: name :: (typing ++ assign :: value)
      = (word :: name :: (typing ++ [assign])) ++ value := by simp
  rw [split]
  exact List.drop_left' (by simp)

theorem Declares.current (declares : Declares typing value s.ahead) :
    s.current.lexeme = .word "const" := by
  obtain ⟨⟨word, rest, isWord, ahead⟩, _⟩ := declares
  rw [current_of_ahead ahead, isWord]

theorem Declares.more (declares : Declares typing value s.ahead) : s.current.isEnd = false := by
  rw [Token.isEnd, declares.current]
  rfl

/-- What is left to read of a declarator behind its equals sign. -/
def declaratorRest (g : Grammar) (start : Nat) (name : Tree) : Parser Tree := do
  let init ← g.assignment
  close start (.variableDeclarator name (some init))

/-- A declarator up to its equals sign. -/
theorem Names.run (names : Names typing value s.ahead) (g : Grammar) :
    (variableDeclarator g).run s = (declaratorRest g s.current.start
      (leaf s.current (.identifier "x"))).run (s.skip (typing.length + 2)) := by
  obtain ⟨isTyping, x, assign, isName, isAssign, ahead⟩ := names
  rw [current_of_ahead ahead]
  have isTarget : (bindingTarget g).run s = .ok (leaf x (.identifier "x")) (s.skip 1) := by
    obtain ⟨_, start, stop, newline⟩ := x
    obtain rfl := isName
    obtain ⟨_, final, position, total, lastStop, complaints, noIn, depth⟩ := s
    obtain rfl := ahead
    rfl
  have behind : (s.skip 1).ahead = typing ++ assign :: value := by
    show s.ahead.drop 1 = _
    rw [ahead]
    rfl
  have annotated := isTyping (s.skip 1) value assign behind isAssign
  rw [ParserState.skip_skip] at annotated
  have isNext : (s.skip (1 + typing.length)).current.lexeme = .punct .assign := by
    have ahead : (s.skip (1 + typing.length)).ahead = assign :: value := by
      rw [← ParserState.skip_skip]
      show (s.skip 1).ahead.drop typing.length = _
      rw [behind, List.drop_left]
    rw [current_of_ahead ahead, isAssign]
  unfold variableDeclarator
  rw [run_bind isTarget, ← bind_assoc, run_bind annotated]
  unfold initializer
  rw [bind_assoc, run_bind (accept_yes isNext), ParserState.skip_skip,
    show 1 + typing.length + 1 = typing.length + 2 by omega, if_pos rfl, bind_assoc]
  rfl

/-- Only the keyword and the word behind it matter for what the statement is. -/
theorem Declares.run (declares : Declares typing value s.ahead) :
    (statementBody g).run s = (variableStatement g .const false).run s := by
  obtain ⟨⟨word, rest, isWord, ahead⟩, _, name, assign, isName, _, isRest⟩ := declares
  rw [ahead] at isRest
  obtain rfl : rest = name :: (typing ++ assign :: value) := isRest
  obtain ⟨_, start, stop, newline⟩ := word
  obtain rfl := isWord
  obtain ⟨_, start', stop', newline'⟩ := name
  obtain rfl := isName
  obtain ⟨_, final, position, total, lastStop, complaints, noIn, depth⟩ := s
  obtain rfl := ahead
  rfl

theorem skip_keyword (s : ParserState) (width : Nat) :
    (s.skip 1).skip (width + 2) = s.skip (width + 3) := by
  rw [ParserState.skip_skip, Nat.add_comm 1]

/-! ## §3. Declarations with and without a type. -/

theorem declaratorRest_commutes {v : View} (commutes : g.Commutes v) (start : Nat) (name : Tree) :
    Commutes v (Node.view v) (declaratorRest g start name)
      (declaratorRest g (v.offset start) (name.view v)) :=
  commutes.assignment.bind fun _ => close_commutes rfl

section

variable (commutes : ∀ v, g.Commutes v)

include commutes

theorem Names.repeats (names : Names typing value s.ahead)
    (names' : Names typing' value' s'.ahead)
    (further : (s.skip (typing.length + 2)).Further lead (s'.skip (typing'.length + 2))) :
    Repeats lead (Round.map (List.map (Node.view .placeless)) (List.map (Node.view .placeless)))
      (declaratorsRound g []) (declaratorsRound g []) s s' := by
  have first : Repeats lead (Node.view .placeless) (variableDeclarator g) (variableDeclarator g)
      s s' :=
    .of_runs (names.run g) (names'.run g) (.of_commutes (declaratorRest_commutes (commutes _) _ _)
      (declaratorRest_commutes (commutes _) _ _) further)
  refine first.bind fun declarator declarator' s₁ s₁' same further => ?_
  refine .of_commutes (nextDeclarator_commutes _) ?_ further
  have same : declarator'.view .placeless = declarator.view (.behind lead) := same
  rw [List.map_singleton, ← same]
  exact nextDeclarator_commutes [declarator']

/-- **A declaration is read as it is with another annotation.** -/
theorem Declares.repeats (declares : Declares typing value s.ahead)
    (declares' : Declares typing' value' s'.ahead) (position : s'.position = s.position)
    (further : (s.skip (typing.length + 3)).Further lead (s'.skip (typing'.length + 3))) :
    Repeats lead (Node.view .placeless) (statementBody g) (statementBody g) s s' := by
  have place : (s'.skip 1).position = (s.skip 1).position := by
    have some := declares.length_eq
    have some' := declares'.length_eq
    rw [ParserState.skip_position, ParserState.skip_position]
    omega
  have total : (s'.skip 1).total = (s.skip 1).total + lead := further.total
  refine .of_runs (declares.run.trans (run_bind rfl _)) (declares'.run.trans (run_bind rfl _)) ?_
  refine .bind (f := List.map (Node.view .placeless)) ?_ fun read read' s₁ s₁' same further => ?_
  · refine .iterate ?_ (declaratorsRound_commutes (commutes _))
      (declaratorsRound_commutes (commutes _)) (place.trans_le (Nat.le_add_right _ _)) ?_
    · refine Names.repeats commutes declares.names declares'.names ?_
      rw [skip_keyword, skip_keyword]
      exact further
    · show (s.skip 1).total + (s'.skip 1).position ≤ (s'.skip 1).total + (s.skip 1).position
      omega
  · refine .of_commutes (variableStatementEnd_commutes _ _ _ read) ?_ further
    have same : read'.map (Node.view .placeless) = read.map (Node.view (.behind lead)) := same
    rw [← same]
    exact variableStatementEnd_commutes _ _ _ read'

end

theorem declaratorsRound_passes {L : Layout} (sound : g.Sound L) (read : List Tree) :
    Passes L (declaratorsRound g read) :=
  (variableDeclarator_lays sound).passes.bind fun _ => (accept_passes _).bind fun _ =>
    .ite (.pure _) (.pure _)

theorem statementsRound_passes {L : Layout} (tidy : g.Tidies L) (read : List Tree) :
    Passes L (statementsRound g none [] read) :=
  .look (fun _ => rfl) fun _ => .ite (.pure _) <|
    .look (fun _ => rfl) fun _ => tidy.statement.bind fun statement =>
      statementEnd_passes _ statement read

section

variable {L : Layout} {p : Punct} (sound : g.Sound L) (on : s.On L)

include sound on

/-- A declaration takes tokens. -/
theorem Declares.moves (declares : Declares typing value s.ahead) :
    Ensures (statementBody g) s fun _ s₁ => s.position < s₁.position := by
  have more : s.position < L.size := by
    refine lt_size_of_lexeme on ?_
    rw [declares.current]
    nofun
  intro tree s₁ run
  rw [declares.run] at run
  exact (variableStatement_takes sound .const false s on more tree s₁ run).moved

/-- A value that begins with such a token is complained of. -/
theorem Declares.objects (declares : Declares typing value s.ahead)
    (isPunct : (s.skip (typing.length + 3)).current.lexeme = .punct p)
    (goesOn : p ∈ goingOnAssign) (shallow : s.depth + 1 < maxNesting) :
    Objects L (statementBody g.around) s := by
  refine .of_run (declares.run.trans (run_bind rfl _)) (Objects.bind ?_ fun read => ?_)
  · refine .iterate (Objects.bind ?_ fun declarator => ?_) (declaratorsRound_passes sound.around)
    · refine .of_run (Names.run (s := s.skip 1) declares.names g.around) ?_
      rw [skip_keyword]
      exact (assignment_objects (on.skip _) isPunct goesOn sound.tidy shallow).bind fun _ =>
        (close_tidies _ _).passes
    · exact (accept_passes _).bind fun _ => .ite (.pure _) (.pure _)
  · exact .ite (close_tidies _ _).passes
      ((accept_passes _).discard.bind fun _ => (close_tidies _ _).passes)

/-- The statements behind it do not matter. -/
theorem Declares.statements_object (declares : Declares typing value s.ahead)
    (isPunct : (s.skip (typing.length + 3)).current.lexeme = .punct p)
    (goesOn : p ∈ goingOnAssign) (shallow : s.depth + 2 < maxNesting) :
    Objects L (statements g.around.around none []) s := by
  rw [statements_eq]
  refine .iterate (.of_run (statementsRound_goesOn declares.more []) ?_)
    (statementsRound_passes sound.around.around.tidy)
  refine Objects.bind (.nested (Nat.lt_of_add_right_lt shallow) ?_) fun statement =>
    statementEnd_passes _ statement []
  exact Declares.objects (s := s.atDepth (s.depth + 1)) sound (on.atDepth _) declares isPunct goesOn
    shallow

end

end

/-! ## §4. Programs. -/

/-- **A silent program** has read all statements. -/
theorem exists_run_of_silent {length : Nat} {tokens : List Token} {final : Token}
    (silent : (parseTokens length tokens final).complaints = []) :
    ∃ trees s, (statements (.ofBudget parseBudget) none []).run (.start tokens final)
        = .ok trees s
      ∧ s.complaints = []
      ∧ (parseTokens length tokens final).tree = .mk ⟨0, length⟩ (.program trees) := by
  unfold parseTokens parseTokensWithin at silent ⊢
  dsimp only at silent ⊢
  cases run : (statements (.ofBudget parseBudget) none []).run (.start tokens final) with
  | error reason s =>
      rw [run] at silent
      exact absurd silent (List.append_ne_nil_of_right_ne_nil _ (List.cons_ne_nil _ _))
  | ok trees s =>
      rw [run] at silent
      exact ⟨trees, s, rfl, List.reverse_eq_nil_iff.mp silent, rfl⟩

theorem parseTokens_of_run {length : Nat} {tokens : List Token} {final : Token}
    {trees : List Tree} {s : ParserState}
    (run : (statements (.ofBudget parseBudget) none []).run (.start tokens final) = .ok trees s) :
    parseTokens length tokens final
      = ⟨.mk ⟨0, length⟩ (.program trees), s.complaints.reverse⟩ := by
  unfold parseTokens parseTokensWithin
  dsimp only
  rw [run]

section

variable {L : Layout} {typing value : List Token} {k length : Nat}
  (declares : Declares [] value L.tokens)
  (silent : (parseTokens length L.tokens L.final).complaints = [])

include declares silent

/-- Behind the equals sign of a silent declaration there is nothing that goes on with it. -/
theorem not_goingOnAssign_of_silent {t : Token} {p : Punct} {later : List Token}
    (isNext : value = t :: later) (isPunct : t.lexeme = .punct p) : p ∉ goingOnAssign := by
  intro goesOn
  obtain ⟨trees, s, run, silent, _⟩ := exists_run_of_silent silent
  have isCurrent : ((ParserState.start L.tokens L.final).skip 3).current.lexeme = .punct p := by
    have ahead : ((ParserState.start L.tokens L.final).skip 3).ahead = t :: later :=
      declares.drop_eq.trans isNext
    rw [current_of_ahead ahead, isPunct]
  have objects := Declares.statements_object (s := .start L.tokens L.final)
    (Grammar.ofBudget_sound L (parseBudget - 2)) (.start L) declares isCurrent goesOn
    (show 0 + 2 < maxNesting by decide)
  exact (objects trees s run).2 silent

/-- **The same value with an annotation** in front of its equals sign. -/
theorem parseTokens_declares {tokens' : List Token}
    (declares' : Declares typing (value.map (Token.shift k)) tokens') (length' : Nat) :
    (parseTokens length' tokens' (L.final.shift k)).complaints = []
      ∧ (parseTokens length' tokens' (L.final.shift k)).tree.view .placeless
        = (parseTokens length L.tokens L.final).tree.view .placeless := by
  obtain ⟨trees, s, run, silent, isTree⟩ := exists_run_of_silent silent
  have commutes (budget : Nat) (v : View) : (Grammar.ofBudget budget).Commutes v :=
    Grammar.ofBudget_commutes v budget
  have total : tokens'.length = L.tokens.length + typing.length := by
    rw [declares.length_eq, declares'.length_eq, List.length_map]
    simp only [List.length_nil]
    omega
  have further : (((ParserState.start L.tokens L.final).atDepth 1).skip 3).Further typing.length
      (((ParserState.start tokens' (L.final.shift k)).atDepth 1).skip (typing.length + 3)) := by
    refine .of_tokens declares.drop_eq declares'.drop_eq rfl rfl ?_ total rfl rfl rfl rfl
    have some := declares.length_eq
    have some' := declares'.length_eq
    rw [ParserState.skip_position, ParserState.skip_position]
    show 0 + min (typing.length + 3) tokens'.length = 0 + min 3 L.tokens.length + typing.length
    simp only [List.length_nil] at some
    omega
  have repeats : Repeats typing.length (List.map (Node.view .placeless))
      (statements (.ofBudget parseBudget) none []) (statements (.ofBudget parseBudget) none [])
      (.start L.tokens L.final) (.start tokens' (L.final.shift k)) := by
    refine .statements (commutes _) ?_ ?_ (Declares.more declares) (Declares.more declares') rfl total
    · exact .nested (Nat.zero_lt_succ _) (Nat.zero_lt_succ _)
        (Declares.repeats (commutes (parseBudget - 1)) declares declares' rfl further)
    · exact nested_moves (Nat.zero_lt_succ _)
        (Declares.moves (Grammar.ofBudget_sound L (parseBudget - 1)) ((ParserState.On.start L).atDepth 1) declares)
  obtain ⟨trees', s', run', same, further⟩ := repeats trees s run
  rw [isTree, parseTokens_of_run run']
  refine ⟨List.reverse_eq_nil_iff.mpr (further.silent silent), ?_⟩
  rw [Node.view_mk, Node.view_mk]
  exact congrArg (fun trees => Node.mk (Span.mk 0 0) (.program trees)) same

end

end Parser

/-! ## §5. Texts. -/

namespace Scan

variable {front rest : Text} {ls : List Lexeme} {offset : Nat}

/-- What is remembered behind an equals sign. -/
def Memory.behindAssign : Memory :=
  ⟨[], some (.punct .assign), false⟩

/-- **A text is cut at an equals sign** on its own, behind which there may be anything that does
not go on with it. -/
theorem tokenize_assign (cuts : CutsInto front ls (Punct.text .assign ++ rest))
    (stops : Punct.Stops .assign rest)
    (noInterpreter : hashbangWidth (front ++ (Punct.text .assign ++ rest)) = 0) :
    ∃ (tokens : List Token) (assign : Token), tokens.map Token.lexeme = ls
      ∧ assign.lexeme = .punct .assign
      ∧ tokenize (front ++ (Punct.text .assign ++ rest))
        = (tokensFrom .behindAssign 0 (front.length + 1) rest).map (tokens ++ assign :: ·) := by
  obtain ⟨tokens, previous, newline, same, cut⟩ := cuts .start 0
  obtain ⟨c, t, spelled, trivial, read⟩ := lexeme_punct (p := .assign) (by decide) stops
  have sign := tokensFrom_piece trivial read ⟨[], previous, newline⟩ (0 + front.length)
  have width : (c :: t).length = 1 := congrArg List.length spelled.symm
  rw [width, ← spelled, Nat.zero_add] at sign
  refine ⟨tokens, ⟨.punct .assign, front.length, front.length + t.length + 1, newline⟩, same, rfl, ?_⟩
  unfold tokenize
  rw [noInterpreter, cut, Nat.zero_add]
  change (tokensFrom ⟨[], previous, newline⟩ 0 front.length (Punct.text .assign ++ rest)).map _ = _
  rw [sign]
  change _ = (tokensFrom ⟨[], some (.punct .assign), false⟩ 0 (front.length + 1) rest).map _
  cases tokensFrom ⟨[], some (.punct .assign), false⟩ 0 (front.length + 1) rest <;> rfl

/-- The punctuator that such a character begins. -/
theorem punctuator_of_goingOn {c : CodePoint} (goesOn : c ∈ Punct.goingOn .assign)
    (braces : List OpenBrace) (rest : Text) :
    ∃ p ∈ Parser.goingOnAssign, (punctuator braces c rest).lexeme = .punct p := by
  have alone : ∀ c ∈ Punct.goingOn .assign, ∃ p ∈ Punct.all, p.text = [c] ∧ p ≠ .optionalDot := by
    decide +kernel
  obtain ⟨q, listed, single, notOptional⟩ := alone c goesOn
  have stands : standsAt c rest (q.text, q) = true := by
    unfold standsAt
    rw [beq_false_of_ne notOptional, single, Bool.false_and, Bool.not_false, Bool.and_true,
      List.isPrefixOf_cons_cons, beq_self_eq_true]
    rfl
  rw [punctuator_eq]
  cases found : Punct.table.find? (standsAt c rest) with
  | none => exact absurd stands (List.find?_eq_none.mp found _ (List.mem_map_of_mem listed))
  | some entry =>
      obtain ⟨spelling, p⟩ := entry
      obtain rfl : spelling = p.text := mem_table (List.mem_of_find?_eq_some found)
      refine ⟨p, List.mem_filter.mpr ⟨p.mem_all, ?_⟩, rfl⟩
      have begins : standsAt c rest (p.text, p) = true := List.find?_some found
      have begins : p.text <+: c :: rest :=
        List.isPrefixOf_iff_prefix.mp (Bool.and_eq_true_iff.mp begins).1
      obtain ⟨d, t, spelled⟩ := List.exists_cons_of_ne_nil p.text_ne_nil
      rw [spelled] at begins ⊢
      obtain rfl : d = c := (List.cons_prefix_cons.mp begins).1
      exact List.contains_iff_mem.mpr goesOn

/-- **What goes on with an equals sign** is a punctuator that does. -/
theorem exists_goingOnAssign {memory : Memory} {tokens : List Token} {c : CodePoint}
    (goesOn : c ∈ Punct.goingOn .assign) (cut : tokensFrom memory 0 offset (c :: rest) = .ok tokens) :
    ∃ t later p, tokens = t :: later ∧ t.lexeme = .punct p ∧ p ∈ Parser.goingOnAssign := by
  have characters : ∀ c ∈ Punct.goingOn .assign, c ∈ markCharacters := by
    decide +kernel
  obtain ⟨trivial, read⟩ := lexeme_of_markCharacters (characters c goesOn) rest
  obtain ⟨p, listed, isPunct⟩ := punctuator_of_goingOn goesOn memory.braces rest
  rw [tokensFrom_lexeme trivial (read _ _)] at cut
  obtain ⟨later, _, rfl⟩ := map_eq_ok.mp cut
  exact ⟨_, later, p, rfl, isPunct, listed⟩

end Scan

/-- A declaration without a type. -/
def untypedText (value : Text) : Text :=
  "const x = " ++ value ++ ";"

/-- The same declaration with a type, in front of whose equals sign nothing else stands. -/
def typedText (type value : Text) : Text :=
  "const x: " ++ type ++ "=" ++ value ++ ";"

open Scan

theorem gap_blank : Gap false " " :=
  .blank (.inr (by decide)) .nil

/-- Up to the name that is declared. -/
theorem cutsInto_declared {behind rest : Text} {ls : List Lexeme} (cuts : CutsInto behind ls rest)
    (ends : EndsName (behind ++ rest)) :
    CutsInto ("const x" ++ behind) (.word "const" :: .word "x" :: ls) rest := by
  have isConst : IsName "const" := ⟨.scalar 'c', "onst", rfl, .inr (by decide), by decide⟩
  have isX : IsName "x" := ⟨.scalar 'x', [], rfl, .inr (by decide), rfl⟩
  have word : CutsInto "const" [.word "const"] ((" " ++ ("x" ++ behind)) ++ rest) := by
    refine cutsInto_name isConst ?_
    rintro _ ⟨⟩
    decide
  have gap : CutsInto " " [] (("x" ++ behind) ++ rest) := cutsInto_gap gap_blank
  exact word.append (gap.append ((cutsInto_name isX ends).append cuts))

/-- **Without a type** the value is cut behind the equals sign and a blank. -/
theorem tokenize_untypedText (value : Text) :
    ∃ front, (∀ later, Parser.Declares [] later (front ++ later))
      ∧ tokenize (untypedText value)
        = (tokensFrom .behindAssign 0 10 (value ++ ";")).map (front ++ ·) := by
  have cuts : CutsInto "const x " [.word "const", .word "x"]
      (Punct.text .assign ++ (" " ++ (value ++ ";"))) := by
    refine cutsInto_declared (cutsInto_gap gap_blank) ?_
    rintro _ ⟨⟩
    decide
  have stops : Punct.Stops .assign (" " ++ (value ++ ";")) := by
    rintro _ ⟨⟩
    decide
  obtain ⟨tokens, assign, same, isAssign, cut⟩ := tokenize_assign cuts stops rfl
  obtain ⟨word, _, rfl, isWord, same⟩ := List.map_eq_cons_iff.mp same
  obtain ⟨name, rfl, isName⟩ := List.map_eq_singleton_iff.mp same
  refine ⟨[word, name, assign], fun later => ?_, ?_⟩
  · exact ⟨⟨word, _, isWord, rfl⟩, Parser.isTyping_nil, name, assign, isName, isAssign, rfl⟩
  have blank := passesOver_gap gap_blank .behindAssign 9 (value ++ ";")
  have whole : untypedText value = "const x " ++ (Punct.text .assign ++ (" " ++ (value ++ ";"))) := by
    unfold untypedText
    rw [List.append_assoc]
    rfl
  rw [whole, cut]
  exact congrArg _ blank

/-- **With a type** the value is cut right behind the equals sign. -/
theorem tokenize_typedText {type : Text} (isWritten : Lookahead.IsWritten .type type)
    (ends : type.getLast? ≠ some (.scalar '>')) {value : Text}
    (stops : Punct.Stops .assign (value ++ ";")) :
    ∃ front typing, (∀ later, Parser.Declares typing later (front ++ later))
      ∧ tokenize (typedText type value)
        = (tokensFrom .behindAssign 0 (10 + type.length) (value ++ ";")).map (front ++ ·) := by
  obtain ⟨ls, some, passed, cutsType⟩ := isWritten.exists_lexemes ends
  have behind : EndsName (Punct.text .assign ++ (value ++ ";")) := by
    rintro _ ⟨⟩
    decide
  have colon : CutsInto (Punct.text .colon) [.punct .colon]
      (" " ++ type ++ (Punct.text .assign ++ (value ++ ";"))) := by
    refine cutsInto_mark (by decide) ?_
    rintro _ ⟨⟩
    decide
  have annotated := colon.append ((cutsInto_gap gap_blank).append (cutsType _ behind))
  have cuts := cutsInto_declared annotated (by rintro _ ⟨⟩; decide)
  obtain ⟨tokens, assign, same, isAssign, cut⟩ := tokenize_assign cuts stops rfl
  obtain ⟨word, _, rfl, isWord, same⟩ := List.map_eq_cons_iff.mp same
  obtain ⟨name, _, rfl, isName, same⟩ := List.map_eq_cons_iff.mp same
  obtain ⟨colon, tokens, rfl, isColon, same⟩ := List.map_eq_cons_iff.mp same
  refine ⟨word :: name :: colon :: (tokens ++ [assign]), colon :: tokens, fun later => ?_, ?_⟩
  · refine ⟨⟨word, _, isWord, rfl⟩, Parser.isTyping_type isColon passed some same, name, assign,
      isName, isAssign, ?_⟩
    show name :: colon :: ((tokens ++ [assign]) ++ later) = _
    rw [List.append_assoc]
    rfl
  have whole : typedText type value = "const x" ++ (Punct.text .colon ++ (" " ++ type))
      ++ (Punct.text .assign ++ (value ++ ";")) := by
    unfold typedText
    simp only [List.append_assoc]
    rfl
  have width : ("const x" ++ (Punct.text .colon ++ (" " ++ type)) : Text).length + 1
      = 10 + type.length := by
    simp only [List.length_append]
    show 7 + (1 + (1 + type.length)) + 1 = _
    omega
  rw [whole, cut, width]
  congr 1
  funext later
  show _ = word :: name :: colon :: ((tokens ++ [assign]) ++ later)
  rw [List.append_assoc]
  rfl

variable {type value : Text} {program : Program}

/-- **A type in front of the equals sign is passed over,** whatever its spacing, unless a
bracket that closes type arguments stands right in front of the sign.

The text records no complaint, and its tree is that of the text without the type, except for the
places in the text: so the name is declared with the same value. -/
theorem parse_typedText (isWritten : Lookahead.IsWritten .type type)
    (ends : type.getLast? ≠ some (.scalar '>')) (parsed : parse (untypedText value) = .ok program)
    (silent : program.complaints = []) :
    ∃ program', parse (typedText type value) = .ok program' ∧ program'.complaints = []
      ∧ program'.tree.view .placeless = program.tree.view .placeless := by
  obtain ⟨L, isText, rfl⟩ := exists_layout_of_parse parsed
  obtain ⟨front, declares, cut⟩ := tokenize_untypedText value
  have scanned := L.scanned
  rw [isText, cut] at scanned
  obtain ⟨later, cutValue, same⟩ := map_eq_ok.mp scanned
  -- The last of the tokens is the end of the text.
  obtain ⟨inner, tokens, rfl⟩ : ∃ inner, L.tokens = front ++ inner ∧ later = inner ++ [L.final] := by
    have split := List.dropLast_concat_getLast (cut_of_tokensFrom cutValue).1.ne_nil
    rw [← split, ← List.append_assoc] at same
    obtain ⟨tokens, isFinal⟩ := List.append_inj' same rfl
    exact ⟨_, tokens.symm, by rw [← isFinal, split]⟩
  have declared : Parser.Declares [] inner L.tokens := tokens ▸ declares inner
  have stops : Punct.Stops .assign (value ++ ";") := by
    intro c isHead goesOn
    obtain ⟨rest, isRest⟩ := List.head?_eq_some_iff.mp isHead
    rw [isRest] at cutValue
    obtain ⟨t, later, p, isNext, isPunct, goesOn⟩ := exists_goingOnAssign goesOn cutValue
    cases inner with
    | nil =>
        have isEnd := L.final_spec.1
        rw [(List.cons.inj isNext).1, isPunct] at isEnd
        cases isEnd
    | cons u inner =>
        obtain rfl : u = t := (List.cons.inj isNext).1
        exact Parser.not_goingOnAssign_of_silent declared silent rfl isPunct goesOn
  obtain ⟨front', typing, declares', cut'⟩ := tokenize_typedText isWritten ends stops
  rw [tokensFrom_shift, cutValue] at cut'
  have scanned' : tokenize (typedText type value)
      = .ok (front' ++ inner.map (Token.shift type.length) ++ [L.final.shift type.length]) := by
    rw [cut', List.append_assoc]
    simp only [Except.map, List.map_append, List.map_cons, List.map_nil]
  exact ⟨_, parse_layout ⟨_, _, _, scanned'⟩,
    Parser.parseTokens_declares declared silent (declares' _) _⟩

/-- A letter is the name of a type. -/
theorem isTypeName_letter {c : Char} (isLetter : c ∈ ['A', 'B', 'C', 'D']) :
    Text.IsTypeName [.scalar c] := by
  -- A test of the list alone, so that it is not all characters that are tried.
  have plain : (['A', 'B', 'C', 'D'].all fun c => (CodePoint.scalar c).isWordCharacter
      && !(CodePoint.scalar c).isDigit
      && !(Text.ofString "import" :: Lookahead.typeOperatorWords).contains [.scalar c]) = true := by
    decide +kernel
  have isPlain := List.all_eq_true.mp plain c isLetter
  simp only [Bool.and_eq_true, Bool.not_eq_true'] at isPlain
  obtain ⟨⟨isWord, noDigit⟩, notOperator⟩ := isPlain
  exact ⟨⟨.scalar c, [], rfl, .inr ⟨isWord, noDigit⟩, rfl⟩, notOperator⟩

/-- A letter with one type argument that is a letter. -/
theorem isWritten_letters {c d : Char} (isLetter : c ∈ ['A', 'B', 'C', 'D'])
    (isLetter' : d ∈ ['A', 'B', 'C', 'D']) :
    Lookahead.IsWritten .type [.scalar c, .scalar '<', .scalar d, .scalar '>'] :=
  .named (.applied (isTypeName_letter isLetter) Gap.nil
    (.last Gap.nil (.named (.plain (isTypeName_letter isLetter')) Gap.nil))) Gap.nil

/-- Two lists of arguments end at once, in front of a blank. -/
theorem parse_typedText_nested :
    ∃ program program', parse (untypedText "1") = .ok program
      ∧ parse (typedText "A<B, C<D>> " "1") = .ok program' ∧ program'.complaints = []
      ∧ program'.tree.view .placeless = program.tree.view .placeless := by
  have isWritten : Lookahead.IsWritten .type "A<B, C<D>> " :=
    .named (.applied (isTypeName_letter (by decide)) Gap.nil
      (.more Gap.nil (.named (.plain (isTypeName_letter (by decide))) Gap.nil)
        (.last gap_blank (isWritten_letters (by decide) (by decide))))) gap_blank
  have evaluated : (parse (untypedText "1")).toOption.any (fun program => program.complaints = [])
      = true := by
    decide +kernel
  obtain ⟨program, parsed, silent⟩ := exists_ok_of_any evaluated
  have silent : program.complaints = [] := of_decide_eq_true silent
  obtain ⟨program', parsed', same⟩ := parse_typedText isWritten (by decide) parsed silent
  exact ⟨program, program', parsed, parsed', same⟩

/-- **A bracket right in front of the equals sign** is taken for part of another operator. -/
theorem not_parse_typedText :
    ¬ ∀ (type value : Text) (program : Program), Lookahead.IsWritten .type type →
        parse (untypedText value) = .ok program → program.complaints = [] →
        ∃ program', parse (typedText type value) = .ok program' ∧ program'.complaints = []
          ∧ program'.tree.view .placeless = program.tree.view .placeless := by
  intro all
  have isWritten : Lookahead.IsWritten .type "A<B>" := isWritten_letters (by decide) (by decide)
  have evaluated : (parse (untypedText "1")).toOption.any (fun program => program.complaints = [])
      = true := by
    decide +kernel
  obtain ⟨program, parsed, silent⟩ := exists_ok_of_any evaluated
  obtain ⟨program', parsed', silent', _⟩ := all "A<B>" "1" program isWritten parsed
    (of_decide_eq_true silent)
  have complains : (parse (typedText "A<B>" "1")).toOption.any (fun program =>
      program.complaints = [(10, .unexpectedToken "<")]) = true := by
    decide +kernel
  obtain ⟨_, same, complaints⟩ := exists_ok_of_any complains
  rw [parsed'] at same
  cases same
  rw [silent'] at complaints
  cases of_decide_eq_true complaints

end StackLint
