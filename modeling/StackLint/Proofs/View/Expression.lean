/-
  StackLint.Proofs.View.Expression
  ────────────────────────────────
  **EXPRESSIONS FROM AFAR.**

  Which link comes next in a chain is told by punctuators alone.  A parameter list
  is a list of trees with a span of its own, and both are viewed.  The one place
  where a parser looks at a tree that it has read is the key of an object member,
  and what kind of tree it is does not change under a view.  Operators are
  punctuators or words that a view keeps, so every operator is the same one when it
  is seen from afar.
-/
import StackLint.Parse.Expression
import StackLint.Proofs.View.Grammar

namespace StackLint

namespace Parser

variable {v : View} {g : Grammar}

/-! ## §1. Templates. -/

theorem endSubstitution_commutes : Commutes v id endSubstitution endSubstitution := by
  refine current_commutes.bind fun t => .ite ?_ (.pure rfl) ?_
  · rw [Token.view_continuesTemplate]
  refine (complain_commutes .unterminatedSubstitution).bind fun _ => ?_
  exact skipWhile_commutes fun t _ => by rw [Token.view_continuesTemplate]

theorem templateSpans_commutes (sound : g.Commutes v) :
    Commutes v (List.map (Node.view v)) (templateSpans g) (templateSpans g) := by
  refine .iterate (f := List.map (Node.view v)) rfl fun spans => ?_
  refine (expression_commutes sound).bind fun expr => ?_
  refine endSubstitution_commutes.bind fun _ => ?_
  refine current_commutes.bind fun t => .ite ?_ ?_ ?_
  · rw [Token.view_isEnd]
  · -- The text ends inside the substitution.
    refine lastStop_commutes.bind fun stop => ?_
    rw [Node.view_info]
    refine .pure ?_
    simp [Round.map, Form.map, Form.relabel, Span.view, v.name_eq_nil_iff.mpr]
  refine advance_commutes.bind fun part => ?_
  have span : Node.mk ⟨(expr.view v).info.start, (part.view v).stop⟩
      (Form.templateSpan (expr.view v) (part.view v).lexeme.value)
      = Node.view v (.mk ⟨expr.info.start, part.stop⟩
        (.templateSpan expr part.lexeme.value)) := by
    rw [Node.view_mk, Node.view_info, Token.view_lexeme, Lexeme.view_value]
    rfl
  rw [span, ← List.map_cons, Token.view_lexeme]
  generalize Node.mk ⟨expr.info.start, part.stop⟩ _ :: spans = spans
  cases part.lexeme with
  | templateTail value => exact .finish spans
  | _ => exact .pure rfl

theorem template_commutes (sound : g.Commutes v) :
    Commutes v (Node.view v) (template g) (template g) := by
  refine advance_commutes.bind fun first => ?_
  have whole : Commutes v (Node.view v)
      (pure (leaf first (.templateLiteral first.lexeme.value [])))
      (pure (leaf (first.view v) (.templateLiteral (first.view v).lexeme.value []))) := by
    rw [Token.view_lexeme, Lexeme.view_value]
    exact leaf_commutes rfl
  obtain ⟨lexeme, start, stop, newlineBefore⟩ := first
  cases lexeme with
  | templateHead head =>
      exact (templateSpans_commutes sound).bind fun spans => close_commutes rfl
  | _ => exact whole

/-! ## §2. Chains. -/

theorem optionalLink_commutes (sound : g.Commutes v) (expr : Tree) :
    Commutes v (Node.view v) (optionalLink g expr) (optionalLink g (expr.view v)) := by
  unfold optionalLink
  rw [Node.view_info]
  refine (skip_commutes 1).bind fun _ => ?_
  refine current_commutes.bind fun t => .ite ?_ ?_ ?_
  · rw [Token.view_is]
  · exact (arguments_commutes sound).bind fun _ => close_commutes rfl
  refine (accept_commutes _).bind fun found => .ite Iff.rfl ?_ ?_
  · refine (expression_commutes sound).bind fun index => ?_
    exact (expect_commutes _).discard.bind fun _ => close_commutes rfl
  · exact propertyName_commutes.bind fun _ => close_commutes rfl

theorem chain_commutes (sound : g.Commutes v) (allowCalls : Bool) (operand : Tree) :
    Commutes v (Node.view v) (chain g allowCalls operand)
      (chain g allowCalls (operand.view v)) := by
  refine .iterate (f := Node.view v) rfl fun expr => ?_
  rw [Node.view_info]
  refine current_commutes.bind fun t => ?_
  simp only [Token.view_is, Token.view_opensTemplate, Token.view_newlineBefore]
  refine .ite Iff.rfl ?_ (.ite Iff.rfl ?_ (.ite Iff.rfl ?_ (.ite Iff.rfl ?_ (.ite Iff.rfl ?_
    (.ite Iff.rfl ?_ (.ite Iff.rfl ?_ (.pure rfl)))))))
  · refine (skip_commutes 1).bind fun _ => propertyName_commutes.bind fun name => ?_
    exact (close_commutes rfl).bind fun _ => .pure rfl
  · exact (optionalLink_commutes sound expr).bind fun _ => .pure rfl
  · refine (skip_commutes 1).bind fun _ => (expression_commutes sound).bind fun index => ?_
    refine (expect_commutes _).discard.bind fun _ => ?_
    exact (close_commutes rfl).bind fun _ => .pure rfl
  · refine (arguments_commutes sound).bind fun arguments => ?_
    exact (close_commutes rfl).bind fun _ => .pure rfl
  · refine (template_commutes sound).bind fun template => ?_
    rw [Node.view_info]
    exact .again (Node.mk_eq_view v rfl rfl)
  · exact (skip_commutes 1).bind fun _ => .again (Node.mk_eq_view v rfl rfl)
  · -- Type arguments.
    refine Commutes.get.bind fun s => ?_
    rw [s.view_ahead, Lookahead.angleWidth?_map]
    cases Lookahead.angleWidth? 0 0 s.ahead with
    | none => exact .pure rfl
    | some width =>
        refine (peek_commutes width).bind fun behind => .ite ?_ ?_ (.pure rfl)
        · rw [Token.view_is, Token.view_opensTemplate]
        · exact (skip_commutes width).bind fun _ => .pure rfl

/-! ## §3. Decorators. -/

theorem skipDecorators_commutes (sound : g.Commutes v) :
    Commutes v id (skipDecorators g) (skipDecorators g) := by
  refine .iterate (f := id) rfl fun _ => ?_
  refine (accept_commutes _).bind fun found => .ite Iff.rfl ?_ (.pure rfl)
  refine sound.primary.bind fun operand => ?_
  exact (chain_commutes sound true operand).discard.bind fun _ => .pure rfl

/-! ## §4. Parameters. -/

theorem view_beginsBinding (v : View) (t : Token) :
    beginsBinding (t.view v) = beginsBinding t := by
  simp [beginsBinding]

theorem parameter_commutes (sound : g.Commutes v) :
    Commutes v (Node.view v) (parameter g) (parameter g) := by
  have kept := reserved_of_words parameterModifiers
    ["public", "private", "protected", "readonly", "override"] rfl (by decide)
  refine (skipDecorators_commutes sound).bind fun _ => ?_
  refine (skipWhile_commutes fun t next => ?_).bind fun _ => ?_
  · rw [t.view_isWordIn v kept, view_beginsBinding]
  refine current_commutes.bind fun t => ?_
  refine (accept_commutes _).bind fun rest => ?_
  refine sound.bindingTarget.bind fun target => ?_
  refine (accept_commutes _).discard.bind fun _ => ?_
  refine skipAnnotation_commutes.bind fun _ => ?_
  exact (initializer_commutes sound).bind fun default => close_commutes rfl

/-- What a parameter list looks like. -/
def viewParameters (v : View) (params : List Tree × Span) : List Tree × Span :=
  (params.1.map (Node.view v), params.2.view v)

theorem parameters_commutes (sound : g.Commutes v) :
    Commutes v (viewParameters v) (parameters g) (parameters g) := by
  refine current_commutes.bind fun t => ?_
  refine (expect_commutes _).bind fun found => .ite Iff.rfl ?_ (.pure rfl)
  refine Commutes.bind (f := List.map (Node.view v)) ?_ fun params => ?_
  · refine .iterate (f := List.map (Node.view v)) rfl fun params => ?_
    refine current_commutes.bind fun t => .ite ?_ (.finish params) ?_
    · rw [Token.view_isEnd, Token.view_is]
    refine (parameter_commutes sound).bind fun param => ?_
    refine (accept_commutes _).bind fun more => .ite Iff.rfl (.again rfl) ?_
    exact .finish (param :: params)
  · refine (expect_commutes _).discard.bind fun _ => ?_
    exact lastStop_commutes.bind fun _ => .pure rfl

/-! ## §5. Functions. -/

theorem optionalName_commutes :
    Commutes v (Option.map (Node.view v)) optionalName optionalName := by
  refine current_commutes.bind fun t => .ite ?_ ?_ (.pure rfl)
  · rw [Token.view_isWord]
  · exact identifier_commutes.bind fun _ => .pure rfl

theorem function_commutes (sound : g.Commutes v) (declaration : Bool) :
    Commutes v (Node.view v) (function g declaration) (function g declaration) := by
  refine current_commutes.bind fun t => ?_
  refine (acceptWord_commutes (by decide)).bind fun isAsync => ?_
  refine (skip_commutes 1).bind fun _ => ?_
  refine (accept_commutes _).discard.bind fun _ => ?_
  refine optionalName_commutes.bind fun name => ?_
  refine skipTypeParameters_commutes.bind fun _ => ?_
  refine (parameters_commutes sound).bind fun params => ?_
  refine skipAnnotation_commutes.bind fun _ => ?_
  refine (optionalBlock_commutes sound).bind fun body => ?_
  have whole : Commutes v (Node.view v)
      (close t.start
        (if declaration then .functionDeclaration name params.1 body ⟨some params.2, isAsync⟩
          else .functionExpression name params.1 body ⟨some params.2, isAsync⟩))
      (close (v.offset t.start)
        (if declaration then
          .functionDeclaration (name.map (Node.view v)) (viewParameters v params).1
            (body.map (Node.view v)) ⟨some (viewParameters v params).2, isAsync⟩
        else
          .functionExpression (name.map (Node.view v)) (viewParameters v params).1
            (body.map (Node.view v)) ⟨some (viewParameters v params).2, isAsync⟩)) := by
    refine close_commutes ?_
    cases declaration <;> rfl
  refine .ite ?_ ((accept_commutes _).discard.bind fun _ => whole) whole
  rw [Option.isNone_map]

/-- What the parameters of an arrow function look like. -/
def viewArrowParameters (v : View) (params : List Tree × Option Span) : List Tree × Option Span :=
  (params.1.map (Node.view v), params.2.map (Span.view v))

theorem arrowParameters_commutes (sound : g.Commutes v) :
    Commutes v (viewArrowParameters v) (arrowParameters g) (arrowParameters g) := by
  refine current_commutes.bind fun t => .ite ?_ ?_ ?_
  · rw [Token.view_isWord]
  · refine identifier_commutes.bind fun name => .pure ?_
    rw [Node.view_info]
    show _ = ([Node.view v _], _)
    rw [Node.view_mk]
    rfl
  · refine skipTypeParameters_commutes.bind fun _ => ?_
    refine (parameters_commutes sound).bind fun params => ?_
    exact skipAnnotation_commutes.bind fun _ => .pure rfl

theorem arrowBody_commutes (sound : g.Commutes v) :
    Commutes v (Node.view v) (arrowBody g) (arrowBody g) := by
  refine current_commutes.bind fun t => .ite ?_ (block_commutes sound) sound.assignment
  rw [Token.view_is]

theorem arrowFunction_commutes (sound : g.Commutes v) :
    Commutes v (Node.view v) (arrowFunction g) (arrowFunction g) := by
  refine current_commutes.bind fun t => ?_
  refine current_commutes.bind fun _ => ?_
  refine (peek_commutes 1).bind fun next => ?_
  rw [Token.view_is, Token.view_isTheWord v _ (by decide)]
  have whole (isAsync : Bool) : Commutes v (Node.view v)
      (do
        let read ← arrowParameters g
        discard (expect .arrow)
        let body ← arrowBody g
        close t.start (.arrowFunction read.1 body ⟨read.2, isAsync⟩))
      (do
        let read ← arrowParameters g
        discard (expect .arrow)
        let body ← arrowBody g
        close (v.offset t.start) (.arrowFunction read.1 body ⟨read.2, isAsync⟩)) := by
    refine (arrowParameters_commutes sound).bind fun params => ?_
    refine (expect_commutes _).discard.bind fun _ => ?_
    exact (arrowBody_commutes sound).bind fun body => close_commutes rfl
  exact .ite Iff.rfl ((skip_commutes 1).bind fun _ => whole _) (whole _)

theorem methodRest_commutes (sound : g.Commutes v) (start : Nat) (key : Tree) (accessor : Accessor)
    (isAsync : Bool) :
    Commutes v (Node.view v) (methodRest g start key accessor isAsync)
      (methodRest g (v.offset start) (key.view v) accessor isAsync) := by
  refine skipTypeParameters_commutes.bind fun _ => ?_
  refine (parameters_commutes sound).bind fun params => ?_
  refine skipAnnotation_commutes.bind fun _ => ?_
  exact (optionalBlock_commutes sound).bind fun body => close_commutes rfl

/-! ## §6. Arrays. -/

theorem arrayLiteral_commutes (sound : g.Commutes v) :
    Commutes v (Node.view v) (arrayLiteral g) (arrayLiteral g) := by
  refine advance_commutes.bind fun t => ?_
  refine Commutes.bind (f := List.map (Option.map (Node.view v))) ?_ fun elements => ?_
  · refine .iterate (f := List.map (Option.map (Node.view v))) rfl fun elements => ?_
    refine current_commutes.bind fun t => .ite ?_ (.finish elements) ?_
    · rw [Token.view_isEnd, Token.view_is]
    refine (accept_commutes _).bind fun isHole => .ite Iff.rfl (.again rfl) ?_
    refine position_commutes.bind fun before => ?_
    refine (element_commutes sound).bind fun item => ?_
    refine position_commutes.bind fun after => .ite position_eq_iff (.finish elements) ?_
    refine (accept_commutes _).bind fun separated => .ite Iff.rfl (.again rfl) ?_
    refine current_commutes.bind fun t => .ite ?_ (.again rfl) ?_
    · rw [Token.view_is]
    · exact (complain_commutes _).bind fun _ => .again rfl
  · exact (expect_commutes _).discard.bind fun _ => close_commutes rfl

/-! ## §7. Objects. -/

theorem objectMemberRest_commutes (sound : g.Commutes v) (start : Nat) (key : Tree)
    (isAsync : Bool) (accessor : Accessor) :
    Commutes v (Node.view v) (objectMemberRest g start key isAsync accessor)
      (objectMemberRest g (v.offset start) (key.view v) isAsync accessor) := by
  refine (accept_commutes _).discard.bind fun _ => ?_
  refine current_commutes.bind fun t => .ite ?_ ?_ ?_
  · rw [Token.view_isOneOf]
  · exact methodRest_commutes sound start key accessor isAsync
  refine (accept_commutes _).bind fun found => .ite Iff.rfl ?_ ?_
  · exact sound.assignment.bind fun value => close_commutes rfl
  have other : Commutes v (Node.view v)
      (do
        complain .expectedColon
        close start (.errorNode .expectedColon))
      (do
        complain .expectedColon
        close (v.offset start) (.errorNode .expectedColon)) :=
    (complain_commutes .expectedColon).bind fun _ => close_commutes rfl
  obtain ⟨span, form⟩ := key
  rw [Node.view_mk]
  cases form with
  | identifier name =>
      refine (initializer_commutes sound).bind fun default => close_commutes ?_
      show Form.shorthandProperty _ _ = .shorthandProperty (Node.view v _) _
      rw [Node.view_mk]
  | _ => exact other

theorem objectMember_commutes (sound : g.Commutes v) :
    Commutes v (Node.view v) (objectMember g) (objectMember g) := by
  refine current_commutes.bind fun t => ?_
  refine (accept_commutes _).bind fun found => .ite Iff.rfl ?_ ?_
  · exact sound.assignment.bind fun argument => close_commutes rfl
  refine memberModifiers_commutes.bind fun modifiers => ?_
  refine (propertyKey_commutes sound).bind fun key => ?_
  cases key with
  | some key => exact objectMemberRest_commutes sound t.start key _ _
  | none => exact (complain_commutes .expectedPropertyName).bind fun _ => close_commutes rfl

theorem objectLiteral_commutes (sound : g.Commutes v) :
    Commutes v (Node.view v) (objectLiteral g) (objectLiteral g) := by
  refine advance_commutes.bind fun t => ?_
  refine (listOf_commutes _ (objectMember_commutes sound)).bind fun properties => ?_
  exact (expect_commutes _).discard.bind fun _ => close_commutes rfl

theorem bindingTarget_commutes (sound : g.Commutes v) :
    Commutes v (Node.view v) (bindingTarget g) (bindingTarget g) := by
  refine current_commutes.bind fun t => ?_
  simp only [Token.view_is, Token.view_isWord]
  refine .ite Iff.rfl (objectLiteral_commutes sound) ?_
  refine .ite Iff.rfl (arrayLiteral_commutes sound) ?_
  refine .ite Iff.rfl identifier_commutes ?_
  exact (complain_commutes .expectedBindingName).bind fun _ =>
    missing_commutes t .expectedBindingName

/-! ## §8. Classes. -/

theorem classMemberRest_commutes (sound : g.Commutes v) (start : Nat) (key : Tree)
    (isAsync : Bool) (accessor : Accessor) :
    Commutes v (Node.view v) (classMemberRest g start key isAsync accessor)
      (classMemberRest g (v.offset start) (key.view v) isAsync accessor) := by
  refine (acceptOneOf_commutes _).discard.bind fun _ => ?_
  refine current_commutes.bind fun t => .ite ?_ ?_ ?_
  · rw [Token.view_isOneOf]
  · exact methodRest_commutes sound start key accessor isAsync
  refine skipAnnotation_commutes.bind fun _ => ?_
  refine (initializer_commutes sound).bind fun value => ?_
  exact (accept_commutes _).discard.bind fun _ => close_commutes rfl

theorem classMember_commutes (sound : g.Commutes v) :
    Commutes v (Option.map (Node.view v)) (classMember g) (classMember g) := by
  have kept := reserved_of_words memberModifierWords
    ["public", "private", "protected", "static", "readonly", "abstract", "override", "declare",
     "accessor"] rfl (by decide)
  refine (accept_commutes _).bind fun found => .ite Iff.rfl (.pure rfl) ?_
  refine (skipDecorators_commutes sound).bind fun _ => ?_
  refine current_commutes.bind fun first => ?_
  refine current_commutes.bind fun t => (peek_commutes 1).bind fun next => .ite ?_ ?_ ?_
  · rw [t.view_isTheWord v (by decide), Token.view_is]
  · -- A static block.
    refine (skip_commutes 1).bind fun _ => ?_
    exact (block_commutes sound).bind fun _ => .pure rfl
  refine (skipWhile_commutes fun t next => ?_).bind fun _ => ?_
  · rw [t.view_isWordIn v kept, view_beginsPropertyKey]
  refine current_commutes.bind fun t => (peek_commutes 1).bind fun next => ?_
  refine (peek_commutes 2).bind fun behind => .ite ?_ ?_ ?_
  · rw [Token.view_is, Token.view_isWord, Token.view_is]
  · -- An index signature.
    refine skipGroup_commutes.bind fun _ => skipAnnotation_commutes.bind fun _ => ?_
    exact (accept_commutes _).discard.bind fun _ => .pure rfl
  refine memberModifiers_commutes.bind fun modifiers => ?_
  refine (propertyKey_commutes sound).bind fun key => ?_
  cases key with
  | some key => exact (classMemberRest_commutes sound first.start key _ _).bind fun _ => .pure rfl
  | none => exact .pure rfl

theorem classMembers_commutes (sound : g.Commutes v) :
    Commutes v (List.map (Node.view v)) (classMembers g) (classMembers g) := by
  refine .iterate (f := List.map (Node.view v)) rfl fun members => ?_
  refine current_commutes.bind fun t => .ite ?_ (.finish members) ?_
  · rw [Token.view_isEnd, Token.view_is]
  refine position_commutes.bind fun before => ?_
  refine (classMember_commutes sound).bind fun member => ?_
  refine position_commutes.bind fun after => .ite position_eq_iff ?_ (.again ?_)
  · refine advance_commutes.bind fun t => ?_
    rw [Token.view_lexeme, Lexeme.view_value]
    exact (complainAt_commutes t.start (.unexpectedToken t.lexeme.value)).bind fun _ => .again rfl
  · cases member <;> rfl

theorem className_commutes : Commutes v (Option.map (Node.view v)) className className := by
  refine current_commutes.bind fun t => .ite ?_ ?_ (.pure rfl)
  · have kept := reserved_of_words ["extends", "implements"] ["extends", "implements"] rfl (by decide)
    rw [Token.view_isWord, t.view_isWordIn v kept]
  · exact identifier_commutes.bind fun _ => .pure rfl

theorem heritage_commutes (sound : g.Commutes v) :
    Commutes v (Option.map (Node.view v)) (heritage g) (heritage g) := by
  refine (acceptWord_commutes (by decide)).bind fun found => .ite Iff.rfl ?_ (.pure rfl)
  refine sound.primary.bind fun operand => ?_
  refine (chain_commutes sound true operand).bind fun base => ?_
  exact skipTypeParameters_commutes.bind fun _ => .pure rfl

theorem classNode_commutes (sound : g.Commutes v) :
    Commutes v (Node.view v) (classNode g) (classNode g) := by
  refine current_commutes.bind fun t => ?_
  refine (acceptWord_commutes (by decide)).discard.bind fun _ => ?_
  refine (skip_commutes 1).bind fun _ => ?_
  refine className_commutes.bind fun name => ?_
  refine skipTypeParameters_commutes.bind fun _ => ?_
  refine (heritage_commutes sound).bind fun base => ?_
  refine (acceptWord_commutes (by decide)).bind fun implements => ?_
  refine .ite_then Iff.rfl (skipHeading_commutes _) ?_
  refine (expect_commutes _).bind fun found => .ite Iff.rfl ?_ (close_commutes rfl)
  refine (classMembers_commutes sound).bind fun members => ?_
  exact (expect_commutes _).discard.bind fun _ => close_commutes rfl

/-! ## §9. Operands. -/

theorem newOperand_commutes (sound : g.Commutes v) :
    Commutes v (Node.view v) (newOperand g) (newOperand g) := by
  refine current_commutes.bind fun t => .ite ?_ sound.newExpression sound.primary
  rw [t.view_isTheWord v (by decide)]

theorem optionalArguments_commutes (sound : g.Commutes v) :
    Commutes v (Option.map (List.map (Node.view v))) (optionalArguments g)
      (optionalArguments g) := by
  refine current_commutes.bind fun t => .ite ?_ ?_ (.pure rfl)
  · rw [Token.view_is]
  · exact (arguments_commutes sound).bind fun _ => .pure rfl

theorem newExpression_commutes (sound : g.Commutes v) :
    Commutes v (Node.view v) (newExpression g) (newExpression g) := by
  refine advance_commutes.bind fun t => current_commutes.bind fun next => .ite ?_ ?_ ?_
  · rw [Token.view_is]
  · refine leaf_commutes ?_
    show _ = Form.identifier (v.name (Text.ofString "new"))
    rw [v.keeps (.word (by decide))]
  refine (newOperand_commutes sound).bind fun operand => ?_
  refine (chain_commutes sound false operand).bind fun callee => ?_
  exact (optionalArguments_commutes sound).bind fun arguments => close_commutes rfl

theorem parenthesized_commutes (sound : g.Commutes v) :
    Commutes v (Node.view v) (parenthesized g) (parenthesized g) := by
  refine advance_commutes.bind fun t => ?_
  refine (allowingIn_commutes (expression_commutes sound)).bind fun inner => ?_
  exact (expect_commutes _).discard.bind fun _ => close_commutes rfl

theorem lookup_valueKeyword (v : View) (name : Text) :
    ValueKeyword.words.lookup (v.name name) = ValueKeyword.words.lookup name := by
  have kept := reserved_of_words (ValueKeyword.words.map Prod.fst)
    ["true", "false", "null", "this", "super"] rfl (by decide)
  exact v.lookup_name fun entry inside => kept _ (List.mem_map_of_mem inside)

theorem wordOperand_commutes (sound : g.Commutes v) (t : Token) (name : Text) :
    Commutes v (Node.view v) (wordOperand g t name) (wordOperand g (t.view v) (v.name name)) := by
  refine (peek_commutes 1).bind fun next => ?_
  rw [t.view_isTheWord v (by decide), t.view_isTheWord v (by decide),
    t.view_isTheWord v (by decide), t.view_isTheWord v (by decide),
    next.view_isTheWord v (by decide), lookup_valueKeyword]
  refine .ite Iff.rfl (function_commutes sound false) ?_
  refine .ite Iff.rfl (classNode_commutes sound) ?_
  refine .ite Iff.rfl (newExpression_commutes sound) ?_
  refine (skip_commutes 1).bind fun _ => ?_
  cases ValueKeyword.words.lookup name with
  | some keyword => exact leaf_commutes rfl
  | none => exact leaf_commutes rfl

theorem noOperand_commutes (t : Token) :
    Commutes v (Node.view v) (noOperand t) (noOperand (t.view v)) := by
  unfold noOperand
  rw [Token.view_isEnd, Token.view_continuesTemplate, Token.view_lexeme, Lexeme.view_value,
    contains_closerTexts]
  refine .ite Iff.rfl (missing_commutes t .expectedExpression) ?_
  refine (skip_commutes 1).bind fun _ => ?_
  refine (complainAt_commutes t.start (.unexpectedToken t.lexeme.value)).bind fun _ => ?_
  exact leaf_commutes rfl

theorem primary_commutes (sound : g.Commutes v) :
    Commutes v (Node.view v) (primary g) (primary g) := by
  refine current_commutes.bind fun t => ?_
  have decorated : Commutes v (Node.view v) (do skipDecorators g; g.primary)
      (do skipDecorators g; g.primary) :=
    (skipDecorators_commutes sound).bind fun _ => sound.primary
  have nothing := noOperand_commutes (v := v) t
  obtain ⟨lexeme, start, stop, newlineBefore⟩ := t
  cases lexeme with
  | word name => exact wordOperand_commutes sound _ name
  | number raw => exact numericLiteral_commutes
  | string quote value => exact stringLiteral_commutes quote value
  | template value => exact template_commutes sound
  | templateHead value => exact template_commutes sound
  | regex raw => exact (skip_commutes 1).bind fun _ => leaf_commutes rfl
  | punct p =>
      cases p with
      | openParen => exact parenthesized_commutes sound
      | openBracket => exact arrayLiteral_commutes sound
      | openBrace => exact objectLiteral_commutes sound
      | atSign => exact decorated
      | _ => exact nothing
  | _ => exact nothing

/-! ## §10. Unary operators. -/

theorem view_unaryOperator? (v : View) (t next : Token) :
    unaryOperator? (t.view v) (next.view v) = unaryOperator? t next := by
  have kept := reserved_of_words (UnaryOp.words.map Prod.fst)
    ["typeof", "void", "delete", "await", "yield"] rfl (by decide)
  have operand : mayBeOperand (next.view v) = mayBeOperand next := by simp [mayBeOperand]
  unfold unaryOperator?
  rw [Token.view_lexeme, operand]
  cases t.lexeme with
  | word name =>
      show (if mayBeOperand next then UnaryOp.words.lookup (v.name name) else none) = _
      rw [v.lookup_name fun entry inside => kept _ (List.mem_map_of_mem inside)]
  | _ => rfl

theorem stepped_commutes (sound : g.Commutes v) :
    Commutes v (Node.view v) (stepped g) (stepped g) := by
  refine (primary_commutes sound).bind fun operand => ?_
  refine (chain_commutes sound true operand).bind fun expr => ?_
  refine current_commutes.bind fun t => .ite ?_ ?_ (.pure rfl)
  · rw [Token.view_isOneOf, Token.view_newlineBefore]
  refine (skip_commutes 1).bind fun _ => ?_
  rw [Node.view_info, Token.view_is]
  exact .pure (Node.mk_eq_view v rfl rfl)

theorem unaryBody_commutes (sound : g.Commutes v) :
    Commutes v (Node.view v) (unaryBody g) (unaryBody g) := by
  refine current_commutes.bind fun t => (peek_commutes 1).bind fun next => ?_
  rw [view_unaryOperator?]
  cases unaryOperator? t next with
  | some op =>
      refine (skip_commutes 1).bind fun _ => ?_
      exact sound.unary.bind fun operand => close_commutes rfl
  | none =>
      refine .ite ?_ ?_ (stepped_commutes sound)
      · rw [Token.view_is]
      refine skipAngles_commutes.bind fun found => .ite Iff.rfl ?_ (stepped_commutes sound)
      exact sound.unary.bind fun operand => close_commutes rfl

theorem unary_commutes (sound : g.Commutes v) : Commutes v (Node.view v) (unary g) (unary g) :=
  nested_commutes (unaryBody_commutes sound)

/-! ## §11. Binary operators. -/

theorem view_connective? (v : View) (noIn : Bool) (t : Token) :
    connective? noIn (t.view v) = connective? noIn t := by
  unfold connective?
  rw [t.view_isTheWord v (by decide), t.view_isTheWord v (by decide),
    t.view_isTheWord v (by decide), t.view_isTheWord v (by decide), Token.view_lexeme]
  cases t.lexeme <;> rfl

theorem binaryRest_commutes (sound : g.Commutes v) (minimum : Nat) (left : Tree) :
    Commutes v (Node.view v) (binaryRest g minimum left) (binaryRest g minimum (left.view v)) := by
  refine .iterate (f := Node.view v) rfl fun left => ?_
  refine Commutes.get.bind fun s => ?_
  rw [s.view_noIn, s.view_current, view_connective?, Node.view_info]
  cases connective? s.noIn s.current with
  | none => exact .pure rfl
  | some connective =>
      refine .ite Iff.rfl (.pure rfl) ?_
      refine (skip_commutes 1).bind fun _ => ?_
      cases connective with
      | assertion assertion =>
          refine skipType_commutes.bind fun _ => ?_
          exact (close_commutes rfl).bind fun _ => .again rfl
      | binary op =>
          refine (sound.binary _).bind fun right => ?_
          exact (close_commutes rfl).bind fun _ => .again rfl

theorem binary_commutes (sound : g.Commutes v) (minimum : Nat) :
    Commutes v (Node.view v) (binary g minimum) (binary g minimum) :=
  (unary_commutes sound).bind fun left => binaryRest_commutes sound minimum left

/-! ## §12. Conditionals and assignments. -/

theorem conditional_commutes (sound : g.Commutes v) :
    Commutes v (Node.view v) (conditional g) (conditional g) := by
  refine (binary_commutes sound 0).bind fun test => ?_
  refine (accept_commutes _).bind fun found => .ite Iff.rfl ?_ (.pure rfl)
  refine (allowingIn_commutes sound.assignment).bind fun consequent => ?_
  refine (expect_commutes _).discard.bind fun _ => ?_
  refine sound.assignment.bind fun alternate => ?_
  rw [Node.view_info]
  exact close_commutes rfl

theorem view_assignOperator? (v : View) (t : Token) :
    assignOperator? (t.view v) = assignOperator? t := by
  unfold assignOperator?
  rw [Token.view_lexeme]
  cases t.lexeme <;> rfl

theorem assignmentBody_commutes (sound : g.Commutes v) :
    Commutes v (Node.view v) (assignmentBody g) (assignmentBody g) := by
  refine Commutes.get.bind fun s => .ite ?_ (arrowFunction_commutes sound) ?_
  · rw [s.view_ahead, Lookahead.arrowAhead_map]
  refine (conditional_commutes sound).bind fun target => ?_
  refine current_commutes.bind fun t => ?_
  rw [view_assignOperator?]
  cases assignOperator? t with
  | none => exact .pure rfl
  | some op =>
      refine (skip_commutes 1).bind fun _ => sound.assignment.bind fun value => ?_
      rw [Node.view_info]
      exact close_commutes rfl

theorem assignment_commutes (sound : g.Commutes v) :
    Commutes v (Node.view v) (assignment g) (assignment g) :=
  nested_commutes (assignmentBody_commutes sound)

end Parser

end StackLint
