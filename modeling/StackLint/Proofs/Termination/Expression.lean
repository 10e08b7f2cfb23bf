/-
  StackLint.Proofs.Termination.Expression
  ───────────────────────────────────────
  **WHEN EXPRESSIONS END.**

  Every link of a chain and every substitution of a template takes a token, and
  so does every decorator.  A function has its keyword, and an arrow function has
  its parameters, in front of all parts that lie deeper.  The loops over elements
  and members end because a part that takes no token is the last one, or because
  the token that begins no part is passed over.  Every operator is a token in front
  of its right operand.
-/
import StackLint.Proofs.Parse.Expression
import StackLint.Proofs.Termination.Grammar

namespace StackLint

namespace Parser

variable {L : Layout} {may : Halt → Prop} {q : Nat} {g : Grammar} {s : ParserState}

/-! ## §1. Templates. -/

theorem endSubstitution_ends : Ends L may q endSubstitution :=
  .look (fun _ => rfl) fun _ =>
    .ite (.pure _) ((complain_ends _).bind fun _ => skipWhile_ends _)

theorem templateSpans_ends (ends : g.Ends L may q) : Ends L may q (templateSpans g) := by
  refine .iterate (fun spans => ?_) _
  refine .bind (expression_ends ends.assignment) fun expr => ?_
  refine .bind endSubstitution_ends fun _ => ?_
  intro s running
  refine .bind_current ?_
  refine .ite (fun _ => ?_) fun goesOn => ?_
  · -- The text ends inside the substitution.
    exact Turns.look (fun _ => rfl) (fun _ => .finish _) s running
  have more := running.on.lt_size (Bool.eq_false_iff.mpr goesOn)
  refine Turns.of_moves (advance_moves.bind fun part => ?_) running more
  split
  · exact .pure _
  · exact .pure _

theorem template_moves (ends : g.Ends L may (q + 1)) : Moves L may q (template g) := by
  refine advance_moves.bind fun first => ?_
  split
  · exact (templateSpans_ends ends).bind fun _ => close_ends _ _
  · exact .pure _

/-! ## §2. Chains. -/

theorem optionalLink_moves (ends : g.Ends L may (q + 1)) (expr : Tree) :
    Moves L may q (optionalLink g expr) := by
  refine (skip_moves Nat.one_pos).bind fun _ => ?_
  intro s running
  refine .bind_current ?_
  refine .ite (fun isCall => ?_) fun _ => ?_
  · refine (arguments_goes (ends.later (Nat.le_succ _)) running isCall).bind ?_
    intro arguments s₁ reads _
    exact close_ends _ _ s₁ (running.reads reads)
  · refine Ends.accept_then ?_ (propertyName_ends.bind fun _ => close_ends _ _) s running
    refine (expression_ends (ends.later (Nat.le_succ _)).assignment).bind fun _ => ?_
    exact (expect_ends _).discard.bind fun _ => close_ends _ _

/-- **A chain ends,** as every link of it takes a token. -/
theorem chain_ends (ends : g.Ends L may (q + 1)) (allowCalls : Bool) (operand : Tree) :
    Ends L may q (chain g allowCalls operand) := by
  refine .iterate (fun expr => ?_) _
  intro s running
  refine .bind_current ?_
  refine .ite (fun isDot => ?_) fun _ => .ite (fun isLink => ?_) fun _ =>
    .ite (fun isBracket => ?_) fun _ => .ite (fun isCall => ?_) fun _ =>
    .ite (fun isTagged => ?_) fun _ => .ite (fun isBang => ?_) fun _ =>
    .ite (fun isAngle => ?_) fun _ => Turns.finish _ s running
  · -- A property behind a point.
    refine Turns.of_moves ((skip_moves Nat.one_pos).bind fun _ => ?_) running
      (lt_size_of_is running.on isDot)
    exact propertyName_ends.bind fun _ => (close_ends _ _).bind fun _ => .pure _
  · -- A link that may be absent.
    rw [Bool.and_eq_true] at isLink
    exact Turns.of_moves ((optionalLink_moves ends expr).bind fun _ => .pure _) running
      (lt_size_of_is running.on isLink.1)
  · -- An element in brackets.
    refine Turns.of_moves ((skip_moves Nat.one_pos).bind fun _ => ?_) running
      (lt_size_of_is running.on isBracket)
    refine (expression_ends ends.assignment).bind fun _ => (expect_ends _).discard.bind fun _ => ?_
    exact (close_ends _ _).bind fun _ => .pure _
  · -- A call.
    rw [Bool.and_eq_true] at isCall
    refine (arguments_goes ends running isCall.1).bind fun arguments s₁ reads moved => ?_
    exact Turns.of_ends ((close_ends _ _).bind fun _ => .pure _) (running.reads reads) moved
  · -- A template with a tag.
    rw [Bool.and_eq_true] at isTagged
    exact Turns.of_moves ((template_moves ends).bind fun _ => .pure _) running
      (lt_size_of_opensTemplate running.on isTagged.1)
  · -- An exclamation mark.
    rw [Bool.and_eq_true] at isBang
    exact Turns.of_moves ((skip_moves Nat.one_pos).bind fun _ => .pure _) running
      (lt_size_of_is running.on isBang.1)
  · -- Type arguments.
    refine .bind_get ?_
    split
    · exact Turns.finish _ s running
    · next width found =>
        refine .bind_peek ?_
        refine .ite (fun _ => ?_) fun _ => Turns.finish _ s running
        have moves : Moves L may q (skip width) := skip_moves (angleWidth?_pos found).1
        exact Turns.of_moves (moves.bind fun _ => .pure _) running
          (lt_size_of_is running.on isAngle)

/-! ## §3. Decorators. -/

theorem skipDecorators_ends (ends : g.Ends L may (q + 1)) : Ends L may q (skipDecorators g) := by
  refine .iterate (fun _ => ?_) _
  refine .accept_then ?_ (.finish _)
  exact ends.primary.bind fun _ =>
    (chain_ends (ends.later (Nat.le_succ _)) true _).discard.bind fun _ => .pure _

/-- In front of an at sign, decorators take a token. -/
theorem skipDecorators_goes (ends : g.Ends L may (q + 1)) (running : s.Running L q)
    (decorated : s.current.is .atSign = true) :
    Goes L may (skipDecorators g) s fun _ s' => s.position < s'.position := by
  -- Either no round is over yet, or one was that took a token.
  refine .iterate (I := fun _ s' => s' = s ∨ s.position < s'.position) running (.inl rfl) ?_
  intro _ s₁ running₁ sofar
  have le : s.position ≤ s₁.position := by
    rcases sofar with rfl | moved
    · exact Nat.le_refl _
    · exact Nat.le_of_lt moved
  refine (accept_goes running₁.on .atSign).bind ?_
  rintro found s₂ reads ⟨_, yes, no⟩
  refine .ite (fun isFound => ?_) fun notFound => ?_
  · obtain ⟨one, _⟩ := yes isFound
    have running₂ := running₁.moved reads (by omega)
    refine (Ends.behind (s := s₁) ?_ running₂ (by omega)).mono fun r s₃ _ moved => ?_
    · exact ends.primary.bind fun _ =>
        (chain_ends (ends.later (Nat.le_succ _)) true _).discard.bind fun _ => .pure _
    have further : s.position < s₃.position := Nat.lt_of_le_of_lt le moved
    cases r with
    | again => exact ⟨.inr further, fun _ _ => moved⟩
    | finish => exact ⟨further, fun _ never => nomatch never⟩
  · obtain ⟨rfl, notAt⟩ := no (Bool.eq_false_iff.mpr notFound)
    refine .pure reads.on ⟨?_, fun _ never => nomatch never⟩
    rcases sofar with rfl | moved
    · rw [← running.on.current, decorated] at notAt
      cases notAt
    · exact moved

/-! ## §4. Parameters. -/

theorem parameter_ends (ends : g.Ends L may q) : Ends L may q (parameter g) := by
  have later := ends.later (Nat.le_succ q)
  refine (skipDecorators_ends later).bind fun _ => (skipWhile_ends _).bind fun _ => ?_
  refine .look (fun _ => rfl) fun _ => (accept_ends _).bind fun _ => ends.bindingTarget.bind fun _ => ?_
  refine (accept_ends _).discard.bind fun _ => skipAnnotation_ends.bind fun _ => ?_
  exact (initializer_ends later).bind fun _ => close_ends _ _

/-- In front of a parenthesis, a parameter list takes a token. -/
theorem parameters_goes (ends : g.Ends L may (q + 1)) (running : s.Running L q) :
    Goes L may (parameters g) s fun _ s' =>
      s.current.is .openParen = true → s.position < s'.position := by
  refine .bind_current ?_
  refine (expect_goes running.on .openParen).bind ?_
  rintro found s₁ reads ⟨_, yes, no⟩
  refine .ite (fun isFound => ?_) fun notFound => ?_
  · obtain ⟨one, _⟩ := yes isFound
    have moved : s.position < s₁.position := by omega
    refine (Ends.behind ?_ (running.moved reads moved) moved).mono fun _ _ _ moved _ => moved
    refine .bind (.iterate (fun params => ?_) _) fun params => (expect_ends _).discard.bind fun _ => ?_
    · refine .look (fun _ => rfl) fun _ => .ite (.finish _) ?_
      exact .bind (parameter_ends ends) fun _ => .accept_then (.pure _) (.finish _)
    · exact .look (fun _ => rfl) fun _ => .pure _
  · obtain ⟨_, fails, _⟩ := no (Bool.eq_false_iff.mpr notFound)
    refine .pure reads.on fun opens => ?_
    rw [running.on.current, fails] at opens
    cases opens

theorem parameters_ends (ends : g.Ends L may (q + 1)) : Ends L may q (parameters g) :=
  fun _ running => (parameters_goes ends running).mono fun _ _ _ _ => trivial

/-! ## §5. Functions. -/

theorem optionalName_ends : Ends L may q optionalName :=
  .look (fun _ => rfl) fun _ => .ite (identifier_ends.bind fun _ => .pure _) (.pure _)

theorem function_moves (ends : g.Ends L may (q + 1)) (declaration : Bool) :
    Moves L may q (function g declaration) := by
  refine .look (fun _ => rfl) fun start => .acceptWord_skip fun isAsync => ?_
  have later := ends.later (Nat.le_succ _)
  refine (accept_ends _).discard.bind fun _ => optionalName_ends.bind fun _ => ?_
  refine skipTypeParameters_ends.bind fun _ => (parameters_ends later).bind fun _ => ?_
  refine skipAnnotation_ends.bind fun _ => (optionalBlock_ends later).bind fun body => ?_
  exact .ite ((accept_ends _).discard.bind fun _ => close_ends _ _) (close_ends _ _)

/-- The parameters of an arrow function that was seen ahead take a token. -/
theorem arrowParameters_goes (ends : g.Ends L may (q + 1)) (running : s.Running L q) :
    Goes L may (arrowParameters g) s fun _ s' =>
      Lookahead.arrowAhead s.ahead = true → s.position < s'.position := by
  have on := running.on
  refine .bind_current ?_
  refine .ite (fun isWord => ?_) fun notWord => ?_
  · refine (Moves.bind identifier_moves fun _ => .pure _) s running (lt_size_of_isWord on isWord)
      |>.mono fun _ _ _ moved _ => moved
  -- Type parameters take a token when the lookahead saw their end.
  have angles : Goes L may skipTypeParameters s fun _ s' =>
      (s.current.is .lt = true → (Lookahead.angleWidth? 0 0 s.ahead).isSome = true →
        s.position < s'.position) ∧ (s.current.is .lt = false → s' = s) := by
    refine .bind_current (.ite (fun isLt => ?_) fun notLt => ?_)
    · refine (skipAngles_goes running).discard ?_
      rintro found s₁ ⟨isFound, moved, _⟩
      refine ⟨fun _ isAngle => moved (isFound.trans isAngle), fun notLt => ?_⟩
      rw [isLt] at notLt
      cases notLt
    · exact .pure on ⟨fun isLt => absurd isLt notLt, fun _ => rfl⟩
  refine angles.bind ?_
  rintro _ s₁ reads ⟨angles, same⟩
  refine (parameters_goes ends (running.reads reads)).bind fun _ s₂ reads₂ moved => ?_
  refine (skipAnnotation_ends s₂ ((running.reads reads).reads reads₂)).bind ?_
  rintro _ s₃ reads₃ -
  refine .pure reads₃.on fun ahead => ?_
  have le := reads₂.le
  have le₃ := reads₃.le
  -- The function begins with type parameters or with a parenthesis: either is a token.
  rcases begins_of_arrowAhead ahead (Bool.eq_false_iff.mpr notWord) with
    ⟨isLt, isAngle⟩ | ⟨notLt, opens⟩
  · have moved := angles isLt isAngle
    omega
  · obtain rfl := same notLt
    have moved := moved opens
    omega

theorem arrowBody_ends (ends : g.Ends L may q) : Ends L may q (arrowBody g) :=
  .look (fun _ => rfl) fun _ => .ite (block_ends (ends.later (Nat.le_succ _))) ends.assignment

/-- An arrow function that was seen ahead. -/
theorem arrowFunction_goes (ends : g.Ends L may (q + 1)) (running : s.Running L q)
    (ahead : Lookahead.arrowAhead s.ahead = true) :
    Goes L may (arrowFunction g) s fun _ _ => True := by
  refine .bind_current (.bind_current (.bind_peek ?_))
  -- Behind the parameters a token was read.
  have behind : ∀ {read : List Tree × Option Span} {isAsync : Bool}, Ends L may (q + 1) (do
      discard (expect .arrow)
      let body ← arrowBody g
      close s.current.start (.arrowFunction read.1 body ⟨read.2, isAsync⟩)) :=
    (expect_ends _).discard.bind fun _ => (arrowBody_ends ends).bind fun _ => close_ends _ _
  refine .ite (fun isAsync => ?_) fun _ => ?_
  · rw [Bool.and_eq_true] at isAsync
    have more := running.on.lt_size (isEnd_of_isTheWord isAsync.1)
    refine (skip_moves Nat.one_pos s running more).bind fun _ s₁ reads moved => ?_
    have running₁ := running.moved reads moved
    refine (arrowParameters_goes (ends.later (Nat.le_succ _)) running₁).bind fun _ s₂ reads₂ _ => ?_
    exact behind s₂ (running₁.reads reads₂)
  · refine (arrowParameters_goes ends running).bind fun _ s₁ reads moved => ?_
    exact behind s₁ (running.moved reads (moved ahead))

theorem methodRest_ends (ends : g.Ends L may (q + 1)) (start : Nat) (key : Tree)
    (accessor : Accessor) (isAsync : Bool) :
    Ends L may q (methodRest g start key accessor isAsync) :=
  skipTypeParameters_ends.bind fun _ => (parameters_ends ends).bind fun _ =>
    skipAnnotation_ends.bind fun _ => (optionalBlock_ends ends).bind fun _ => close_ends _ _

/-! ## §6. Arrays. -/

theorem arrayLiteral_moves (ends : g.Ends L may (q + 1)) : Moves L may q (arrayLiteral g) := by
  refine advance_moves.bind fun first => .bind (.iterate (fun elements => ?_) _) fun elements =>
    (expect_ends _).discard.bind fun _ => close_ends _ _
  refine .look (fun _ => rfl) fun _ => .ite (.finish _) (.accept_then (.pure _) ?_)
  intro s running
  refine .bind_position ?_
  refine (element_ends ends.assignment s running).bind fun item s₁ reads _ => ?_
  refine .bind_position ?_
  -- An element that takes no token is the last one.
  refine .ite (fun _ => .pure reads.on fun _ never => nomatch never) fun goesOn => ?_
  have le := reads.le
  refine Turns.of_ends ((accept_ends _).bind fun _ => .ite (.pure _) ?_) (running.reads reads)
    (by omega)
  exact .look (fun _ => rfl) fun _ => .ite (.pure _) ((complain_ends _).bind fun _ => .pure _)

/-! ## §7. Objects. -/

theorem objectMemberRest_ends (ends : g.Ends L may (q + 1)) (start : Nat) (key : Tree)
    (isAsync : Bool) (accessor : Accessor) :
    Ends L may q (objectMemberRest g start key isAsync accessor) := by
  refine (accept_ends _).discard.bind fun _ => .look (fun _ => rfl) fun _ => ?_
  refine .ite (methodRest_ends ends _ _ _ _) (.accept_then ?_ ?_)
  · exact ends.assignment.bind fun _ => close_ends _ _
  · split
    · exact (initializer_ends ends).bind fun _ => close_ends _ _
    · exact (complain_ends _).bind fun _ => close_ends _ _

theorem objectMember_ends (ends : g.Ends L may (q + 1)) : Ends L may q (objectMember g) := by
  refine .look (fun _ => rfl) fun _ => .accept_then ?_ ?_
  · exact ends.assignment.bind fun _ => close_ends _ _
  · refine memberModifiers_ends.bind fun _ => (propertyKey_ends ends).bind fun key => ?_
    cases key with
    | some key => exact objectMemberRest_ends ends _ _ _ _
    | none => exact (complain_ends _).bind fun _ => close_ends _ _

theorem objectLiteral_moves (ends : g.Ends L may (q + 1)) : Moves L may q (objectLiteral g) :=
  advance_moves.bind fun _ =>
    (listOf_ends _ (objectMember_ends (ends.later (Nat.le_succ _)))).bind fun _ =>
      (expect_ends _).discard.bind fun _ => close_ends _ _

theorem bindingTarget_ends (ends : g.Ends L may (q + 1)) : Ends L may q (bindingTarget g) := by
  intro s running
  refine .bind_current ?_
  refine .ite (fun isBrace => ?_) fun _ => .ite (fun isBracket => ?_) fun _ => ?_
  · exact (objectLiteral_moves ends).goes running (lt_size_of_is running.on isBrace)
  · exact (arrayLiteral_moves ends).goes running (lt_size_of_is running.on isBracket)
  · exact Ends.ite identifier_ends ((complain_ends _).bind fun _ => .pure _) s running

/-! ## §8. Classes. -/

theorem classMemberRest_ends (ends : g.Ends L may (q + 1)) (start : Nat) (key : Tree)
    (isAsync : Bool) (accessor : Accessor) :
    Ends L may q (classMemberRest g start key isAsync accessor) :=
  (acceptOneOf_ends _).discard.bind fun _ => .look (fun _ => rfl) fun _ =>
    .ite (methodRest_ends ends _ _ _ _) (skipAnnotation_ends.bind fun _ =>
      (initializer_ends ends).bind fun _ => (accept_ends _).discard.bind fun _ => close_ends _ _)

theorem classMember_ends (ends : g.Ends L may (q + 1)) : Ends L may q (classMember g) := by
  refine .accept_then (.pure _) ?_
  refine (skipDecorators_ends ends).bind fun _ => .look (fun _ => rfl) fun _ => ?_
  refine .look (fun _ => rfl) fun _ => .look (fun _ => rfl) fun _ => .ite ?_ ?_
  · exact (skip_ends 1).bind fun _ => (block_ends ends).bind fun _ => .pure _
  refine (skipWhile_ends _).bind fun _ => .look (fun _ => rfl) fun _ => ?_
  refine .look (fun _ => rfl) fun _ => .look (fun _ => rfl) fun _ => .ite ?_ ?_
  · -- An index signature.
    exact skipGroup_ends.bind fun _ => skipAnnotation_ends.bind fun _ =>
      (accept_ends _).discard.bind fun _ => .pure _
  refine memberModifiers_ends.bind fun _ => (propertyKey_ends ends).bind fun key => ?_
  cases key with
  | some key => exact (classMemberRest_ends ends _ _ _ _).bind fun _ => .pure _
  | none => exact .pure _

theorem classMembers_ends (ends : g.Ends L may (q + 1)) : Ends L may q (classMembers g) := by
  refine .iterate (fun members => ?_) _
  intro s running
  refine .bind_current ?_
  refine .ite (fun _ => Turns.finish _ s running) fun goesOn => ?_
  have more := more_of_not_end running.on goesOn
  refine .bind_position ?_
  refine (classMember_ends ends s running).bind fun member s₁ reads _ => ?_
  have running₁ := running.reads reads
  refine .bind_position ?_
  refine .ite (fun same => ?_) fun moved => ?_
  · -- The token itself is read, as no member begins here.
    refine (advance_goes running₁ (by omega)).bind ?_
    rintro t s₂ reads₂ ⟨start, moved⟩
    rw [start]
    refine Turns.of_ends ((complainAt_ends _ _).bind fun _ => .pure _) (running₁.reads reads₂) ?_
    omega
  · refine .pure reads.on fun _ _ => ?_
    have le := reads.le
    omega

theorem className_ends : Ends L may q className :=
  .look (fun _ => rfl) fun _ => .ite (identifier_ends.bind fun _ => .pure _) (.pure _)

theorem heritage_ends (ends : g.Ends L may (q + 1)) : Ends L may q (heritage g) := by
  refine .acceptWord_then (ends.primary.bind fun _ => ?_) (.pure _)
  exact (chain_ends (ends.later (Nat.le_succ _)) _ _).bind fun _ =>
    skipTypeParameters_ends.bind fun _ => .pure _

theorem classNode_moves (ends : g.Ends L may (q + 1)) : Moves L may q (classNode g) := by
  have later := ends.later (Nat.le_succ _)
  refine .look (fun _ => rfl) fun _ => .discard_acceptWord_skip ?_
  refine className_ends.bind fun _ => skipTypeParameters_ends.bind fun _ => ?_
  have body : ∀ name heritage start, Ends L may (q + 1) (do
      if ← expect .openBrace then
        let members ← classMembers g
        discard (expect .closeBrace)
        close start (.classNode name heritage members)
      else close start (.classNode name heritage [])) := fun _ _ _ =>
    (expect_ends _).bind fun _ => .ite ((classMembers_ends later).bind fun _ =>
      (expect_ends _).discard.bind fun _ => close_ends _ _) (close_ends _ _)
  refine (heritage_ends later).bind fun _ => (acceptWord_ends _).bind fun _ => ?_
  exact .ite ((skipHeading_ends _).bind fun _ => body _ _ _) (body _ _ _)

/-! ## §9. Operands. -/

theorem newOperand_ends (ends : g.Ends L may q) : Ends L may q (newOperand g) := by
  intro s running
  refine .bind_current ?_
  refine .ite (fun isNew => ?_) fun _ => ends.primary s running
  exact ends.newExpression s running (running.on.lt_size (isEnd_of_isTheWord isNew))

theorem optionalArguments_ends (ends : g.Ends L may (q + 1)) :
    Ends L may q (optionalArguments g) := by
  intro s running
  refine .bind_current ?_
  refine .ite (fun opens => ?_) fun _ => .pure running.on trivial
  exact (arguments_goes ends running opens).bind fun _ _ reads _ => .pure reads.on trivial

theorem newExpression_moves (ends : g.Ends L may (q + 1)) : Moves L may q (newExpression g) := by
  have later := ends.later (Nat.le_succ _)
  refine advance_moves.bind fun _ => .look (fun _ => rfl) fun _ => .ite (.pure _) ?_
  exact (newOperand_ends ends).bind fun _ => (chain_ends later _ _).bind fun _ =>
    (optionalArguments_ends later).bind fun _ => close_ends _ _

theorem parenthesized_moves (ends : g.Ends L may (q + 1)) : Moves L may q (parenthesized g) :=
  advance_moves.bind fun _ => (allowingIn_ends (expression_ends ends.assignment)).bind fun _ =>
    (expect_ends _).discard.bind fun _ => close_ends _ _

theorem wordOperand_moves (ends : g.Ends L may (q + 1)) (t : Token) (name : Text) :
    Moves L may q (wordOperand g t name) := by
  refine .look (fun _ => rfl) fun _ => .ite (function_moves ends _) (.ite (classNode_moves ends)
    (.ite (newExpression_moves ends) ?_))
  refine (skip_moves Nat.one_pos).bind fun _ => ?_
  split
  · exact .pure _
  · exact .pure _

theorem noOperand_goes (running : s.Running L q) :
    Goes L may (noOperand s.current) s fun _ _ => True := by
  refine Ends.ite (.pure _) ?_ s running
  refine (skip_ends 1).bind fun _ => ?_
  rw [running.on.start_current]
  exact (complainAt_ends _ _).bind fun _ => .pure _

theorem primary_ends (ends : g.Ends L may (q + 1)) : Ends L may q (primary g) := by
  intro s running
  have ofMoves : ∀ {p : Parser Tree}, Moves L may q p → s.current.lexeme ≠ .endOfText →
      Goes L may p s fun _ _ => True :=
    fun moves more => moves.goes running (lt_size_of_lexeme running.on more)
  refine .bind_current ?_
  split
  · next name same => exact ofMoves (wordOperand_moves ends _ _) (by rw [same]; nofun)
  · exact numericLiteral_ends s running
  · exact stringLiteral_ends _ _ s running
  · next same => exact ofMoves (template_moves ends) (by rw [same]; nofun)
  · next same => exact ofMoves (template_moves ends) (by rw [same]; nofun)
  · exact Ends.bind (skip_ends 1) (fun _ => .pure _) s running
  · next same => exact ofMoves (parenthesized_moves ends) (by rw [same]; nofun)
  · next same => exact ofMoves (arrayLiteral_moves ends) (by rw [same]; nofun)
  · next same => exact ofMoves (objectLiteral_moves ends) (by rw [same]; nofun)
  · next same =>
      have decorated : s.current.is .atSign = true := by
        unfold Token.is
        rw [same]
        rfl
      refine (skipDecorators_goes ends running decorated).bind fun _ s₁ reads moved => ?_
      exact ends.primary s₁ (running.moved reads moved)
  · exact noOperand_goes running

/-! ## §10. Unary operators. -/

theorem stepped_ends (ends : g.Ends L may (q + 1)) : Ends L may q (stepped g) :=
  (primary_ends ends).bind fun _ => (chain_ends ends _ _).bind fun _ => .look (fun _ => rfl) fun _ =>
    .ite ((skip_ends 1).bind fun _ => .pure _) (.pure _)

theorem unaryBody_ends (ends : g.Ends L may (q + 1)) : Ends L may q (unaryBody g) := by
  intro s running
  refine .bind_current (.bind_peek ?_)
  split
  · next op isOperator =>
      refine Moves.goes ((skip_moves Nat.one_pos).bind fun _ => ?_) running
        (lt_size_of_lexeme running.on (lexeme_of_unaryOperator? isOperator))
      exact ends.unary.bind fun _ => close_ends _ _
  · refine .ite (fun _ => ?_) fun _ => stepped_ends ends s running
    refine (skipAngles_goes running).bind ?_
    rintro found s₁ reads ⟨_, moved, _⟩
    refine .ite (fun isFound => ?_) fun _ => stepped_ends ends s₁ (running.reads reads)
    refine Ends.bind ends.unary (fun _ => close_ends _ _) s₁ ?_
    exact running.moved reads (moved isFound)

theorem unary_ends (ends : g.Ends L may (q + 1)) : Ends L may q (unary g) :=
  nested_ends (unaryBody_ends ends)

/-! ## §11. Binary operators. -/

theorem binaryRest_ends (ends : g.Ends L may (q + 1)) (minimum : Nat) (left : Tree) :
    Ends L may q (binaryRest g minimum left) := by
  refine .iterate (fun left => ?_) _
  intro s running
  refine .bind_get ?_
  split
  · exact Turns.finish _ s running
  · next connective isConnective =>
      refine .ite (fun _ => Turns.finish _ s running) fun _ => ?_
      refine Turns.of_moves ((skip_moves Nat.one_pos).bind fun _ => ?_) running
        (lt_size_of_lexeme running.on (lexeme_of_connective? isConnective))
      cases connective with
      | assertion => exact skipType_ends.bind fun _ => (close_ends _ _).bind fun _ => .pure _
      | binary op => exact (ends.binary _).bind fun _ => (close_ends _ _).bind fun _ => .pure _

theorem binary_ends (ends : g.Ends L may (q + 1)) (minimum : Nat) :
    Ends L may q (binary g minimum) :=
  (unary_ends ends).bind fun _ => binaryRest_ends ends minimum _

/-! ## §12. Conditionals and assignments. -/

theorem conditional_ends (ends : g.Ends L may (q + 1)) : Ends L may q (conditional g) := by
  refine (binary_ends ends 0).bind fun _ => .accept_then ?_ (.pure _)
  exact (allowingIn_ends ends.assignment).bind fun _ => (expect_ends _).discard.bind fun _ =>
    ends.assignment.bind fun _ => close_ends _ _

theorem assignmentBody_ends (ends : g.Ends L may (q + 1)) : Ends L may q (assignmentBody g) := by
  intro s running
  refine .bind_get ?_
  refine .ite (arrowFunction_goes ends running) fun _ => ?_
  refine (conditional_ends ends s running).bind fun target s₁ reads _ => ?_
  have running₁ := running.reads reads
  refine .bind_current ?_
  split
  · next op isOperator =>
      refine Moves.goes ((skip_moves Nat.one_pos).bind fun _ => ?_) running₁
        (lt_size_of_lexeme running₁.on (lexeme_of_assignOperator? isOperator))
      exact ends.assignment.bind fun _ => close_ends _ _
  · exact .pure reads.on trivial

theorem assignment_ends (ends : g.Ends L may (q + 1)) : Ends L may q (assignment g) :=
  nested_ends (assignmentBody_ends ends)

end Parser

end StackLint
