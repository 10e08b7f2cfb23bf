/-
  StackLint.Proofs.Enclosed.Expression
  ────────────────────────────────────
  **EXPRESSIONS IN FRONT OF A FORK.**

  Modifiers and index signatures are told by tokens further ahead, but only while
  the tokens before them are those of an operand.  The rest of a template is no
  operand, no operator and no bracket, so at a fork an expression ends both ways.
-/
import StackLint.Parse.Expression
import StackLint.Proofs.Enclosed.Grammar

namespace StackLint

namespace Parser

variable {F : Fork} {g : Grammar} {forked : Bool} {s s' : ParserState}

/-! ## §1. Parameters. -/

theorem beginsBinding_alike {t t' : Token} (alike : F.Alike t t') :
    beginsBinding t' = beginsBinding t := by
  unfold beginsBinding
  rw [alike.isWord, alike.isOneOf]

/-- Modifiers are passed over while they stand in front of what they modify. -/
theorem skipModifiers_tracks (words : List Text) {begins : Token → Bool}
    (same : ∀ t t', F.Alike t t' → begins t' = begins t) :
    Tracks F (skipWhile fun t next => t.isWordIn words && begins next)
      (skipWhile fun t next => t.isWordIn words && begins next) := by
  refine skipWhile_tracks fun t next t' next' alike => ?_
  cases alike with
  | same t alike => rw [same _ _ alike]
  | edges =>
      rw [Token.isWordIn_of_continues F.continues, Token.isWordIn_of_continues F.continues',
        Bool.false_and, Bool.false_and]

theorem parameter_tracks (sound : g.Tracks F) : Tracks F (parameter g) (parameter g) := by
  refine (skipDecorators_tracks sound).bind fun _ => ?_
  refine (skipModifiers_tracks _ fun _ _ => beginsBinding_alike).bind fun _ => ?_
  refine .bind_current fun t t' alike => ?_
  rw [alike.start]
  refine (Tracks.accept _).bind fun rest => sound.bindingTarget.bind fun target => ?_
  refine (Tracks.accept _).discard.bind fun _ => skipAnnotation_tracks.bind fun _ => ?_
  exact (initializer_tracks sound).bind fun default => .close _ _

theorem parameters_tracks (sound : g.Tracks F) : Tracks F (parameters g) (parameters g) := by
  refine .bind_current fun t t' alike => ?_
  rw [alike.start]
  refine (Tracks.expect _).bind fun found => .ite Iff.rfl (fun _ => ?_) fun _ => .pure _
  refine Tracks.bind (.iterate (fun params => ?_) []) fun params => ?_
  · refine .bind_current fun t t' alike => ?_
    rw [alike.isEnd, alike.is]
    refine .ite Iff.rfl (fun _ => .pure _) fun _ => (parameter_tracks sound).bind fun param => ?_
    refine (Tracks.accept _).bind fun more => ?_
    exact .ite Iff.rfl (fun _ => .pure _) fun _ => .pure _
  · refine (Tracks.expect _).discard.bind fun _ => ?_
    intro forked s s' near
    refine .look ParserState.lastStop (fun _ => rfl) (fun _ => rfl) ?_
    rw [near.lastStop]
    exact .pure near _

/-! ## §2. Functions. -/

theorem optionalName_tracks : Tracks F optionalName optionalName := by
  refine .bind_current fun t t' alike => ?_
  rw [alike.isWord]
  refine .ite Iff.rfl (fun _ => ?_) fun _ => .pure _
  exact identifier_tracks.bind fun _ => .pure _

theorem function_tracks (sound : g.Tracks F) (declaration : Bool) :
    Tracks F (function g declaration) (function g declaration) := by
  refine .bind_current fun t t' alike => ?_
  rw [alike.start]
  refine (Tracks.acceptWord _).bind fun isAsync => (Tracks.skip 1).bind fun _ => ?_
  refine (Tracks.accept _).discard.bind fun _ => optionalName_tracks.bind fun name => ?_
  refine skipTypeParameters_tracks.bind fun _ => (parameters_tracks sound).bind fun params => ?_
  refine skipAnnotation_tracks.bind fun _ => (optionalBlock_tracks sound).bind fun body => ?_
  exact .ite_then Iff.rfl (fun _ => (Tracks.accept _).discard) (.close _ _)

theorem arrowParameters_tracks (sound : g.Tracks F) :
    Tracks F (arrowParameters g) (arrowParameters g) := by
  refine .bind_current fun t t' alike => ?_
  rw [alike.isWord]
  refine .ite Iff.rfl (fun _ => ?_) fun _ => ?_
  · exact identifier_tracks.bind fun name => .pure _
  · refine skipTypeParameters_tracks.bind fun _ => (parameters_tracks sound).bind fun params => ?_
    exact skipAnnotation_tracks.bind fun _ => .pure _

theorem arrowBody_tracks (sound : g.Tracks F) : Tracks F (arrowBody g) (arrowBody g) := by
  refine .bind_current fun t t' alike => ?_
  rw [alike.is]
  exact .ite Iff.rfl (fun _ => block_tracks sound) fun _ => sound.assignment

theorem arrowFunction_tracks (sound : g.Tracks F) :
    Tracks F (arrowFunction g) (arrowFunction g) := by
  refine .bind_current fun t t' alike => ?_
  rw [alike.start]
  refine .bind_currentNext fun u next u' next' alike => ?_
  have asynchronous : (u'.isTheWord "async" && !next'.is .arrow)
      = (u.isTheWord "async" && !next.is .arrow) := by
    cases alike with
    | same u alike => rw [alike.is]
    | edges =>
        rw [Token.isTheWord_of_continues F.continues, Token.isTheWord_of_continues F.continues',
          Bool.false_and, Bool.false_and]
  dsimp only
  rw [asynchronous]
  refine .ite_then Iff.rfl (fun _ => .skip 1) ?_
  refine (arrowParameters_tracks sound).bind fun params => ?_
  refine (Tracks.expect _).discard.bind fun _ => ?_
  exact (arrowBody_tracks sound).bind fun body => .close _ _

theorem methodRest_tracks (sound : g.Tracks F) (start : Nat) (key : Tree) (accessor : Accessor)
    (isAsync : Bool) :
    Tracks F (methodRest g start key accessor isAsync) (methodRest g start key accessor isAsync) := by
  refine skipTypeParameters_tracks.bind fun _ => (parameters_tracks sound).bind fun params => ?_
  refine skipAnnotation_tracks.bind fun _ => ?_
  exact (optionalBlock_tracks sound).bind fun body => .close _ _

/-! ## §3. Arrays and objects. -/

theorem arrayLiteral_tracks (sound : g.Tracks F) : Tracks F (arrayLiteral g) (arrayLiteral g) := by
  refine .bind_advance fun t => ?_
  refine Tracks.bind (.iterate (fun elements => ?_) []) fun elements => ?_
  · refine .bind_current fun t t' alike => ?_
    rw [alike.isEnd, alike.is]
    refine .ite Iff.rfl (fun _ => .pure _) fun _ => (Tracks.accept _).bind fun isHole => ?_
    refine .ite Iff.rfl (fun _ => .pure _) fun _ => .bind_position fun before => ?_
    refine (element_tracks sound).bind fun item => .bind_position fun after => ?_
    exact .ite Iff.rfl (fun _ => .pure _) fun _ => separated_tracks
  · exact (Tracks.expect _).discard.bind fun _ => .close _ _

theorem objectMemberRest_tracks (sound : g.Tracks F) (start : Nat) (key : Tree) (isAsync : Bool)
    (accessor : Accessor) :
    Tracks F (objectMemberRest g start key isAsync accessor)
      (objectMemberRest g start key isAsync accessor) := by
  refine (Tracks.accept _).discard.bind fun _ => .bind_current fun t t' alike => ?_
  rw [alike.isOneOf]
  refine .ite Iff.rfl (fun _ => methodRest_tracks sound start key accessor isAsync) fun _ => ?_
  refine (Tracks.accept _).bind fun found => .ite Iff.rfl (fun _ => ?_) fun _ => ?_
  · exact sound.assignment.bind fun value => .close _ _
  cases key.form with
  | identifier name => exact (initializer_tracks sound).bind fun default => .close _ _
  | _ => exact Tracks.complain.bind fun _ => .close _ _

theorem objectMember_tracks (sound : g.Tracks F) : Tracks F (objectMember g) (objectMember g) := by
  refine .bind_current fun t t' alike => ?_
  rw [alike.start]
  refine (Tracks.accept _).bind fun found => .ite Iff.rfl (fun _ => ?_) fun _ => ?_
  · exact sound.assignment.bind fun argument => .close _ _
  refine memberModifiers_tracks.bind fun modifiers => (propertyKey_tracks sound).bind fun key => ?_
  cases key with
  | some key => exact objectMemberRest_tracks sound t.start key _ _
  | none => exact Tracks.complain.bind fun _ => .close _ _

theorem objectLiteral_tracks (sound : g.Tracks F) :
    Tracks F (objectLiteral g) (objectLiteral g) := by
  refine .bind_advance fun t => (listOf_tracks _ (objectMember_tracks sound)).bind fun _ => ?_
  exact (Tracks.expect _).discard.bind fun _ => .close _ _

theorem bindingTarget_tracks (sound : g.Tracks F) :
    Tracks F (bindingTarget g) (bindingTarget g) := by
  refine .bind_current fun t t' alike => ?_
  rw [alike.is, alike.is, alike.isWord]
  refine .ite Iff.rfl (fun _ => objectLiteral_tracks sound) fun _ => ?_
  refine .ite Iff.rfl (fun _ => arrayLiteral_tracks sound) fun _ => ?_
  refine .ite Iff.rfl (fun _ => identifier_tracks) fun _ => Tracks.complain.bind fun _ => ?_
  unfold missing
  rw [alike.start]
  exact .pure _

/-! ## §4. Classes. -/

theorem classMemberRest_tracks (sound : g.Tracks F) (start : Nat) (key : Tree) (isAsync : Bool)
    (accessor : Accessor) :
    Tracks F (classMemberRest g start key isAsync accessor)
      (classMemberRest g start key isAsync accessor) := by
  refine (Tracks.acceptOneOf _).discard.bind fun _ => .bind_current fun t t' alike => ?_
  rw [alike.isOneOf]
  refine .ite Iff.rfl (fun _ => methodRest_tracks sound start key accessor isAsync) fun _ => ?_
  refine skipAnnotation_tracks.bind fun _ => (initializer_tracks sound).bind fun value => ?_
  exact (Tracks.accept _).discard.bind fun _ => .close _ _

/-- An index signature is told by three tokens. -/
theorem indexSignature_near {forked : Bool} {s s' : ParserState} (near : F.Near forked s s') :
    (s'.current.is .openBracket && (s'.peek 1).isWord && (s'.peek 2).is .colon)
      = (s.current.is .openBracket && (s.peek 1).isWord && (s.peek 2).is .colon) := by
  rw [near.current.is]
  cases isBracket : s.current.is .openBracket with
  | false => rw [Bool.false_and, Bool.false_and, Bool.false_and, Bool.false_and]
  | true =>
      have first := Token.not_continues (p := fun t => t.is .openBracket) isBracket
        fun _ continues => Token.is_of_continues continues .openBracket
      rw [(near.peek_one first).isWord]
      cases isWord : (s.peek 1).isWord with
      | false => rw [Bool.and_false, Bool.false_and, Bool.false_and]
      | true =>
          have second := Token.not_continues isWord fun _ => Token.isWord_of_continues
          rw [(near.peek_two first second).is]

theorem classMember_tracks (sound : g.Tracks F) : Tracks F (classMember g) (classMember g) := by
  refine (Tracks.accept _).bind fun found => .ite Iff.rfl (fun _ => .pure _) fun _ => ?_
  refine (skipDecorators_tracks sound).bind fun _ => .bind_current fun first first' alike => ?_
  rw [alike.start]
  refine .bind_currentNext fun t next t' next' alike => ?_
  have isStatic : (t'.isTheWord "static" && next'.is .openBrace)
      = (t.isTheWord "static" && next.is .openBrace) := by
    cases alike with
    | same t alike => rw [alike.is]
    | edges =>
        rw [Token.isTheWord_of_continues F.continues, Token.isTheWord_of_continues F.continues',
          Bool.false_and, Bool.false_and]
  rw [isStatic]
  refine .ite Iff.rfl (fun _ => ?_) fun _ => ?_
  · refine (Tracks.skip 1).bind fun _ => ?_
    exact (block_tracks sound).bind fun _ => .pure _
  refine (skipModifiers_tracks _ fun _ _ => beginsPropertyKey_alike).bind fun _ => ?_
  intro forked s s' near
  refine .bind_current (.bind_peek (.bind_peek ?_))
  rw [indexSignature_near near]
  refine .ite Iff.rfl (fun isSignature => ?_) fun _ => ?_
  · have isBracket := (Bool.and_eq_true_iff.mp (Bool.and_eq_true_iff.mp isSignature).1).1
    refine (skipGroup_tracks near (Token.opensGroup_of_is isBracket rfl)).bind fun _ => ?_
    refine skipAnnotation_tracks.bind fun _ => ?_
    exact (Tracks.accept _).discard.bind fun _ => .pure _
  refine memberModifiers_tracks.bind (fun modifiers => ?_) _ s s' near
  refine (propertyKey_tracks sound).bind fun key => ?_
  cases key with
  | some key => exact (classMemberRest_tracks sound first.start key _ _).bind fun _ => .pure _
  | none => exact .pure _

theorem classMembers_tracks (sound : g.Tracks F) :
    Tracks F (classMembers g) (classMembers g) := by
  refine .iterate (fun members => ?_) []
  refine .bind_current fun t t' alike => ?_
  rw [alike.isEnd, alike.is]
  refine .ite Iff.rfl (fun _ => .pure _) fun _ => .bind_position fun before => ?_
  refine (classMember_tracks sound).bind fun member => .bind_position fun after => ?_
  refine .ite Iff.rfl (fun _ => ?_) fun _ => .pure _
  exact .bind_advance fun t => Tracks.complainAt.bind fun _ => .pure _

theorem className_tracks : Tracks F className className := by
  refine .bind_current fun t t' alike => ?_
  rw [alike.isWord, alike.isWordIn]
  refine .ite Iff.rfl (fun _ => ?_) fun _ => .pure _
  exact identifier_tracks.bind fun _ => .pure _

theorem heritage_tracks (sound : g.Tracks F) : Tracks F (heritage g) (heritage g) := by
  refine (Tracks.acceptWord _).bind fun found => .ite Iff.rfl (fun _ => ?_) fun _ => .pure _
  refine sound.primary.bind fun operand => (chain_tracks sound true operand).bind fun base => ?_
  exact skipTypeParameters_tracks.bind fun _ => .pure _

theorem classNode_tracks (sound : g.Tracks F) : Tracks F (classNode g) (classNode g) := by
  refine .bind_current fun t t' alike => ?_
  rw [alike.start]
  refine (Tracks.acceptWord _).discard.bind fun _ => (Tracks.skip 1).bind fun _ => ?_
  refine className_tracks.bind fun name => skipTypeParameters_tracks.bind fun _ => ?_
  refine (heritage_tracks sound).bind fun base => (Tracks.acceptWord _).bind fun implements => ?_
  refine .ite_then Iff.rfl (fun _ => skipHeading_tracks _) ?_
  refine (Tracks.expect _).bind fun found => .ite Iff.rfl (fun _ => ?_) fun _ => .close _ _
  refine (classMembers_tracks sound).bind fun members => ?_
  exact (Tracks.expect _).discard.bind fun _ => .close _ _

/-! ## §5. Operands. -/

theorem newOperand_tracks (sound : g.Tracks F) : Tracks F (newOperand g) (newOperand g) := by
  refine .bind_current fun t t' alike => ?_
  rw [alike.isTheWord]
  exact .ite Iff.rfl (fun _ => sound.newExpression) fun _ => sound.primary

theorem optionalArguments_tracks (sound : g.Tracks F) :
    Tracks F (optionalArguments g) (optionalArguments g) := by
  refine .bind_current fun t t' alike => ?_
  rw [alike.is]
  refine .ite Iff.rfl (fun _ => ?_) fun _ => .pure _
  exact (arguments_tracks sound).bind fun _ => .pure _

theorem newExpression_tracks (sound : g.Tracks F) :
    Tracks F (newExpression g) (newExpression g) := by
  refine .bind_advance fun t => .bind_current fun next next' alike => ?_
  rw [alike.is]
  refine .ite Iff.rfl (fun _ => .pure _) fun _ => (newOperand_tracks sound).bind fun operand => ?_
  refine (chain_tracks sound false operand).bind fun callee => ?_
  exact (optionalArguments_tracks sound).bind fun arguments => .close _ _

theorem parenthesized_tracks (sound : g.Tracks F) :
    Tracks F (parenthesized g) (parenthesized g) := by
  refine .bind_advance fun t => (Tracks.allowingIn (expression_tracks sound)).bind fun inner => ?_
  exact (Tracks.expect _).discard.bind fun _ => .close _ _

/-- The token that begins the operand stands in front of the fork, so the one behind it is
seen. -/
theorem wordOperand_tracks (sound : g.Tracks F) (near : F.Near forked s s')
    (before : s.current.continuesTemplate = false) (t : Token) (name : Text) :
    TracksAt F forked s s' (wordOperand g t name) (wordOperand g t name) := by
  refine .bind_peek ?_
  rw [(near.peek_one before).isTheWord]
  refine .ite Iff.rfl (fun _ => function_tracks sound false _ s s' near) fun _ => ?_
  refine .ite Iff.rfl (fun _ => classNode_tracks sound _ s s' near) fun _ => ?_
  refine .ite Iff.rfl (fun _ => newExpression_tracks sound _ s s' near) fun _ => ?_
  refine Tracks.bind (.skip 1) (fun _ => ?_) _ s s' near
  cases ValueKeyword.words.lookup name with
  | some keyword => exact .pure _
  | none => exact .pure _

theorem noOperand_tracks {t t' : Token} (alike : F.Alike t t') :
    Tracks F (noOperand t) (noOperand t') := by
  unfold noOperand
  cases alike with
  | same =>
      refine .ite Iff.rfl (fun _ => .pure _) fun _ => (Tracks.skip 1).bind fun _ => ?_
      exact Tracks.complainAt.bind fun _ => .pure _
  | edges =>
      rw [F.continues, F.continues', Bool.or_true, Bool.or_true, Bool.true_or, Bool.true_or,
        if_pos rfl, if_pos rfl]
      unfold missing
      rw [F.start]
      exact .pure _

theorem primary_tracks (sound : g.Tracks F) : Tracks F (primary g) (primary g) := by
  intro forked s s' near
  refine .bind_current ?_
  have alike := near.current
  have word := wordOperand_tracks sound near
  generalize s.current = t at alike word ⊢
  generalize s'.current = t' at alike ⊢
  have nothing := noOperand_tracks alike
  cases alike with
  | same =>
      have decorated : Tracks F (do skipDecorators g; g.primary) (do skipDecorators g; g.primary) :=
        (skipDecorators_tracks sound).bind fun _ => sound.primary
      obtain ⟨lexeme, start, stop, newlineBefore⟩ := t
      cases lexeme with
      | word name => exact word rfl _ name
      | number raw => exact numericLiteral_tracks _ s s' near
      | string quote value => exact stringLiteral_tracks quote value _ s s' near
      | template value => exact template_tracks sound _ s s' near
      | templateHead value => exact template_tracks sound _ s s' near
      | regex raw => exact Tracks.bind (.skip 1) (fun _ => .pure _) _ s s' near
      | punct p =>
          cases p with
          | openParen => exact parenthesized_tracks sound _ s s' near
          | openBracket => exact arrayLiteral_tracks sound _ s s' near
          | openBrace => exact objectLiteral_tracks sound _ s s' near
          | atSign => exact decorated _ s s' near
          | _ => exact nothing _ s s' near
      | _ => exact nothing _ s s' near
  | edges =>
      obtain ⟨value, found⟩ := Token.lexeme_of_continues F.continues
      obtain ⟨value', found'⟩ := Token.lexeme_of_continues F.continues'
      rcases found with is | is <;> rcases found' with is' | is' <;> rw [is, is'] <;>
        exact nothing _ s s' near

/-! ## §6. Unary operators. -/

theorem unaryOperator?_alike {t next t' next' : Token} (alike : F.AlikeNext t next t' next') :
    unaryOperator? t' next' = unaryOperator? t next := by
  unfold unaryOperator?
  cases alike with
  | same t alike =>
      have operand : mayBeOperand next' = mayBeOperand next := by
        unfold mayBeOperand
        rw [alike.isEnd, alike.isOneOf]
      rw [operand]
  | edges =>
      obtain ⟨value, found⟩ := Token.lexeme_of_continues F.continues
      obtain ⟨value', found'⟩ := Token.lexeme_of_continues F.continues'
      rcases found with is | is <;> rcases found' with is' | is' <;> rw [is, is']

theorem stepped_tracks (sound : g.Tracks F) : Tracks F (stepped g) (stepped g) := by
  refine (primary_tracks sound).bind fun operand => ?_
  refine (chain_tracks sound true operand).bind fun expr => .bind_current fun t t' alike => ?_
  rw [alike.isOneOf, alike.newlineBefore]
  refine .ite Iff.rfl (fun isStep => ?_) fun _ => .pure _
  have same := alike.eq_of (Bool.and_eq_true_iff.mp isStep).1
    fun _ continues => Token.isOneOf_of_continues continues _
  rw [same]
  exact (Tracks.skip 1).bind fun _ => .pure _

theorem unaryBody_tracks (sound : g.Tracks F) : Tracks F (unaryBody g) (unaryBody g) := by
  intro forked s s' near
  refine .bind_current (.bind_peek ?_)
  rw [unaryOperator?_alike near.currentNext, near.current.start]
  cases unaryOperator? s.current (s.peek 1) with
  | some op =>
      refine Tracks.bind (.skip 1) (fun _ => ?_) _ s s' near
      exact sound.unary.bind fun operand => .close _ _
  | none =>
      dsimp only
      rw [near.current.is]
      refine .ite Iff.rfl (fun isLess => ?_) fun _ => stepped_tracks sound _ s s' near
      refine (skipAngles_tracks near isLess).bind fun found => ?_
      refine .ite Iff.rfl (fun _ => ?_) fun _ => stepped_tracks sound
      exact sound.unary.bind fun operand => .close _ _

theorem unary_tracks (sound : g.Tracks F) : Tracks F (unary g) (unary g) :=
  .nested (unaryBody_tracks sound)

/-! ## §7. Binary operators. -/

theorem connective?_alike (noIn : Bool) {t t' : Token} (alike : F.Alike t t') :
    connective? noIn t' = connective? noIn t := by
  cases alike with
  | same => rfl
  | edges =>
      unfold connective?
      obtain ⟨value, found⟩ := Token.lexeme_of_continues F.continues
      obtain ⟨value', found'⟩ := Token.lexeme_of_continues F.continues'
      rcases found with is | is <;> rcases found' with is' | is' <;> rw [is, is']

theorem binaryRest_tracks (sound : g.Tracks F) (minimum : Nat) (left : Tree) :
    Tracks F (binaryRest g minimum left) (binaryRest g minimum left) := by
  refine .iterate (fun left => ?_) left
  intro forked s s' near
  refine .bind_get ?_
  rw [near.noIn, connective?_alike _ near.current]
  cases connective? s.noIn s.current with
  | none => exact .pure near _
  | some connective =>
      refine .ite Iff.rfl (fun _ => .pure near _) fun _ => ?_
      refine Tracks.bind (.skip 1) (fun _ => ?_) _ s s' near
      cases connective with
      | assertion assertion =>
          refine skipType_tracks.bind fun _ => ?_
          exact (Tracks.close _ _).bind fun _ => .pure _
      | binary op =>
          refine (sound.binary _).bind fun right => ?_
          exact (Tracks.close _ _).bind fun _ => .pure _

theorem binary_tracks (sound : g.Tracks F) (minimum : Nat) :
    Tracks F (binary g minimum) (binary g minimum) :=
  (unary_tracks sound).bind fun left => binaryRest_tracks sound minimum left

/-! ## §8. Conditionals and assignments. -/

theorem conditional_tracks (sound : g.Tracks F) : Tracks F (conditional g) (conditional g) := by
  refine (binary_tracks sound 0).bind fun test => (Tracks.accept _).bind fun found => ?_
  refine .ite Iff.rfl (fun _ => ?_) fun _ => .pure _
  refine (Tracks.allowingIn sound.assignment).bind fun consequent => ?_
  refine (Tracks.expect _).discard.bind fun _ => ?_
  exact sound.assignment.bind fun alternate => .close _ _

theorem assignOperator?_alike {t t' : Token} (alike : F.Alike t t') :
    assignOperator? t' = assignOperator? t := by
  cases alike with
  | same => rfl
  | edges =>
      unfold assignOperator?
      obtain ⟨value, found⟩ := Token.lexeme_of_continues F.continues
      obtain ⟨value', found'⟩ := Token.lexeme_of_continues F.continues'
      rcases found with is | is <;> rcases found' with is' | is' <;> rw [is, is']

theorem assignmentBody_tracks (sound : g.Tracks F) :
    Tracks F (assignmentBody g) (assignmentBody g) := by
  intro forked s s' near
  refine .bind_get ?_
  rw [near.arrowAhead]
  refine .ite Iff.rfl (fun _ => arrowFunction_tracks sound _ s s' near) fun _ => ?_
  refine (conditional_tracks sound).bind (fun target => ?_) _ s s' near
  refine .bind_current fun t t' alike => ?_
  rw [assignOperator?_alike alike]
  cases assignOperator? t with
  | none => exact .pure _
  | some op =>
      refine (Tracks.skip 1).bind fun _ => sound.assignment.bind fun value => ?_
      exact .close _ _

theorem assignment_tracks (sound : g.Tracks F) : Tracks F (assignment g) (assignment g) :=
  .nested (assignmentBody_tracks sound)

end Parser

end StackLint
