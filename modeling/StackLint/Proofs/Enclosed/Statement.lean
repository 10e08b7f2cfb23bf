/-
  StackLint.Proofs.Enclosed.Statement
  ───────────────────────────────────
  **STATEMENTS AND WHOLE GRAMMARS IN FRONT OF A FORK.**

  Functions have bodies, so statements stand in front of a fork, too.  With them the
  knot is tied: the grammar of every budget is sound.
-/
import StackLint.Parse.Program
import StackLint.Proofs.Enclosed.Expression

namespace StackLint

namespace Parser

variable {F : Fork} {g : Grammar} {forked : Bool} {s s' : ParserState}

/-! ## §1. Variables and expressions. -/

theorem variableDeclarator_tracks (sound : g.Tracks F) :
    Tracks F (variableDeclarator g) (variableDeclarator g) := by
  refine (bindingTarget_tracks sound).bind fun target => (Tracks.accept _).discard.bind fun _ => ?_
  refine skipAnnotation_tracks.bind fun _ => (initializer_tracks sound).bind fun init => ?_
  exact .close _ _

theorem variableStatement_tracks (sound : g.Tracks F) (keyword : BindingKeyword)
    (inLoopHead : Bool) :
    Tracks F (variableStatement g keyword inLoopHead) (variableStatement g keyword inLoopHead) := by
  refine .bind_advance fun t => Tracks.bind (.iterate (fun read => ?_) []) fun declarations => ?_
  · refine (variableDeclarator_tracks sound).bind fun declarator => ?_
    refine (Tracks.accept _).bind fun more => ?_
    exact .ite Iff.rfl (fun _ => .pure _) fun _ => .pure _
  · refine .ite Iff.rfl (fun _ => .close _ _) fun _ => ?_
    exact (Tracks.accept _).discard.bind fun _ => .close _ _

theorem expressionStatement_tracks (sound : g.Tracks F) :
    Tracks F (expressionStatement g) (expressionStatement g) := by
  refine .bind_position fun before => (expression_tracks sound).bind fun expr => ?_
  refine .bind_position fun after => .ite Iff.rfl (fun _ => .pure _) fun _ => ?_
  exact (Tracks.accept _).discard.bind fun _ => .close _ _

/-! ## §2. Types. -/

theorem skipBraces_tracks : Tracks F skipBraces skipBraces := by
  intro forked s s' near
  refine .bind_current ?_
  rw [near.current.is]
  refine .ite Iff.rfl (fun isBrace => ?_) fun _ => .pure near _
  exact skipGroup_tracks near (Token.opensGroup_of_is isBrace rfl)

theorem typeBody_tracks (sound : g.Tracks F) (keyword : TypeKeyword) :
    Tracks F (typeBody g keyword) (typeBody g keyword) := by
  cases keyword with
  | declare =>
      refine (Tracks.acceptWord _).bind fun found => ?_
      exact .ite Iff.rfl (fun _ => skipBraces_tracks) fun _ => sound.statement.discard
  | type =>
      refine (Tracks.skip 1).bind fun _ => skipTypeParameters_tracks.bind fun _ => ?_
      exact (Tracks.expect _).discard.bind fun _ => skipType_tracks
  | _ => exact (skipHeading_tracks _).bind fun _ => skipBraces_tracks

theorem typeDeclaration_tracks (sound : g.Tracks F) (keyword : TypeKeyword) (start : Nat) :
    Tracks F (typeDeclaration g keyword start) (typeDeclaration g keyword start) := by
  refine (Tracks.skip 1).bind fun _ => (typeBody_tracks sound keyword).bind fun _ => ?_
  exact (Tracks.accept _).discard.bind fun _ => .close _ _

/-- The rest of a template begins no declaration. -/
theorem typeKeyword?_of_continues (continues : s.current.continuesTemplate = true) :
    typeKeyword? s = none := by
  have no := Token.isTheWord_of_continues continues
  unfold typeKeyword?
  simp only [no, Bool.false_eq_true, if_false, ite_self]

theorem typeKeyword?_near (near : F.Near forked s s') : typeKeyword? s' = typeKeyword? s := by
  have alike := near.current
  cases before : s.current.continuesTemplate with
  | true =>
      have before' := before
      rw [← alike.continuesTemplate] at before'
      rw [typeKeyword?_of_continues before, typeKeyword?_of_continues before']
  | false =>
      have next := near.peek_one before
      have named : (if (s'.peek 1).isWord && (s'.peek 2).isOneOf [.assign, .lt] then
            some TypeKeyword.type else none)
          = if (s.peek 1).isWord && (s.peek 2).isOneOf [.assign, .lt] then some .type
            else none := by
        rw [next.isWord]
        cases isWord : (s.peek 1).isWord with
        | false => rw [Bool.false_and, Bool.false_and]
        | true =>
            have second := Token.not_continues isWord fun _ => Token.isWord_of_continues
            rw [(near.peek_two before second).isOneOf]
      unfold typeKeyword?
      simp only [alike.isTheWord, next.newlineBefore, next.isWord, next.isString] at named ⊢
      rw [named]

/-! ## §3. Control flow. -/

theorem controlExpression_tracks (sound : g.Tracks F) :
    Tracks F (controlExpression g) (controlExpression g) := by
  refine (Tracks.expect _).discard.bind fun _ => (expression_tracks sound).bind fun expr => ?_
  exact (Tracks.expect _).discard.bind fun _ => .pure _

/-- What a word announces is there or not. -/
theorem wordClause_tracks {w : Text} {p : Parser Tree} (clause : Tracks F p p) :
    Tracks F (do if ← acceptWord w then return some (← p) else return none)
      (do if ← acceptWord w then return some (← p) else return none) := by
  refine (Tracks.acceptWord _).bind fun found => .ite Iff.rfl (fun _ => ?_) fun _ => .pure _
  exact clause.bind fun _ => .pure _

theorem ifStatement_tracks (sound : g.Tracks F) : Tracks F (ifStatement g) (ifStatement g) := by
  refine .bind_advance fun t => (controlExpression_tracks sound).bind fun test => ?_
  refine sound.statement.bind fun consequent => ?_
  exact (wordClause_tracks sound.statement).bind fun alternate => .close _ _

theorem loopBinding?_alike {t next t' next' : Token} (alike : F.AlikeNext t next t' next') :
    loopBinding? t' next' = loopBinding? t next := by
  unfold loopBinding?
  cases alike with
  | same t alike => rw [alike.isWord]
  | edges =>
      have no := Token.isTheWord_of_continues F.continues
      have no' := Token.isTheWord_of_continues F.continues'
      rw [no, no, no, no', no', no', Bool.false_and, Bool.false_and]

theorem forStart_tracks (sound : g.Tracks F) : Tracks F (forStart g) (forStart g) := by
  intro forked s s' near
  refine .bind_current (.bind_peek ?_)
  rw [loopBinding?_alike near.currentNext]
  cases loopBinding? s.current (s.peek 1) with
  | some keyword =>
      exact (variableStatement_tracks sound keyword true).bind (fun _ => .pure _) _ s s' near
  | none =>
      dsimp only
      rw [near.current.is]
      refine .ite Iff.rfl (fun _ => .pure near _) fun _ => ?_
      exact Tracks.withNoIn (f := fun expr => [expr]) (expression_tracks sound) near fun _ => rfl

theorem expressionBefore_tracks (sound : g.Tracks F) (stop : Punct) :
    Tracks F (expressionBefore g stop) (expressionBefore g stop) := by
  refine .bind_current fun t t' alike => ?_
  rw [alike.is]
  refine .ite Iff.rfl (fun _ => .pure _) fun _ => ?_
  exact (expression_tracks sound).bind fun _ => .pure _

theorem forRest_tracks (sound : g.Tracks F) : Tracks F (forRest g) (forRest g) := by
  refine .bind_current fun t t' alike => ?_
  rw [alike.isWordIn]
  refine .ite Iff.rfl (fun _ => ?_) fun _ => ?_
  · exact (Tracks.skip 1).bind fun _ => (expression_tracks sound).bind fun _ => .pure _
  refine (Tracks.expect _).discard.bind fun _ => (expressionBefore_tracks sound _).bind fun test => ?_
  refine (Tracks.expect _).discard.bind fun _ => ?_
  exact (expressionBefore_tracks sound _).bind fun step => .pure _

theorem forStatement_tracks (sound : g.Tracks F) : Tracks F (forStatement g) (forStatement g) := by
  refine .bind_advance fun t => (Tracks.acceptWord _).discard.bind fun _ => ?_
  refine (Tracks.expect _).discard.bind fun _ => (forStart_tracks sound).bind fun first => ?_
  refine (forRest_tracks sound).bind fun rest => (Tracks.expect _).discard.bind fun _ => ?_
  exact sound.statement.bind fun body => .close _ _

theorem whileStatement_tracks (sound : g.Tracks F) :
    Tracks F (whileStatement g) (whileStatement g) := by
  refine .bind_advance fun t => (controlExpression_tracks sound).bind fun test => ?_
  exact sound.statement.bind fun body => .close _ _

theorem doTest_tracks (sound : g.Tracks F) : Tracks F (doTest g) (doTest g) := by
  refine (Tracks.acceptWord _).bind fun found => .ite Iff.rfl (fun _ => ?_) fun _ => .pure _
  exact (controlExpression_tracks sound).bind fun _ => .pure _

theorem doStatement_tracks (sound : g.Tracks F) : Tracks F (doStatement g) (doStatement g) := by
  refine .bind_advance fun t => sound.statement.bind fun body => (doTest_tracks sound).bind fun _ => ?_
  exact (Tracks.accept _).discard.bind fun _ => .close _ _

theorem optionalArgument_tracks (sound : g.Tracks F) :
    Tracks F (optionalArgument g) (optionalArgument g) := by
  refine .bind_current fun t t' alike => ?_
  rw [alike.newlineBefore, alike.isEnd, alike.isOneOf]
  refine .ite Iff.rfl (fun _ => .pure _) fun _ => ?_
  exact (expression_tracks sound).bind fun _ => .pure _

theorem returnStatement_tracks (sound : g.Tracks F) :
    Tracks F (returnStatement g) (returnStatement g) := by
  refine .bind_advance fun t => (optionalArgument_tracks sound).bind fun argument => ?_
  exact (Tracks.accept _).discard.bind fun _ => .close _ _

theorem throwStatement_tracks (sound : g.Tracks F) :
    Tracks F (throwStatement g) (throwStatement g) := by
  refine .bind_advance fun t => (optionalArgument_tracks sound).bind fun argument => ?_
  exact (Tracks.accept _).discard.bind fun _ => .close _ _

theorem catchBinding_tracks (sound : g.Tracks F) : Tracks F (catchBinding g) (catchBinding g) := by
  refine (Tracks.accept _).bind fun found => .ite Iff.rfl (fun _ => ?_) fun _ => .pure _
  refine (bindingTarget_tracks sound).bind fun param => skipAnnotation_tracks.bind fun _ => ?_
  exact (Tracks.expect _).discard.bind fun _ => .pure _

theorem catchClause_tracks (sound : g.Tracks F) : Tracks F (catchClause g) (catchClause g) := by
  refine (Tracks.acceptWord _).bind fun found => .ite Iff.rfl (fun _ => ?_) fun _ => .pure _
  refine (catchBinding_tracks sound).bind fun param => ?_
  exact (block_tracks sound).bind fun _ => .pure _

theorem tryStatement_tracks (sound : g.Tracks F) : Tracks F (tryStatement g) (tryStatement g) := by
  refine .bind_advance fun t => (block_tracks sound).bind fun guarded => ?_
  refine (catchClause_tracks sound).bind fun clause => ?_
  exact (wordClause_tracks (block_tracks sound)).bind fun finalizer => .close _ _

theorem switchCase_tracks (sound : g.Tracks F) (start : Nat) (test : Option Tree) :
    Tracks F (switchCase g start test) (switchCase g start test) := by
  refine (Tracks.expect _).discard.bind fun _ => ?_
  exact (statements_tracks sound _ _).bind fun body => .close _ _

theorem switchCases_tracks (sound : g.Tracks F) : Tracks F (switchCases g) (switchCases g) := by
  refine .iterate (fun cases => ?_) []
  refine .bind_current fun t t' alike => ?_
  rw [alike.isEnd, alike.is, alike.start]
  refine .ite Iff.rfl (fun _ => .pure _) fun _ => (Tracks.acceptWord _).bind fun isCase => ?_
  refine .ite Iff.rfl (fun _ => ?_) fun _ => (Tracks.acceptWord _).bind fun isDefault => ?_
  · refine (expression_tracks sound).bind fun test => ?_
    exact (switchCase_tracks sound _ _).bind fun _ => .pure _
  refine .ite Iff.rfl (fun _ => ?_) fun _ => (Tracks.skip 1).bind fun _ => ?_
  · exact (switchCase_tracks sound _ _).bind fun _ => .pure _
  · exact Tracks.complainAt.bind fun _ => .pure _

theorem switchStatement_tracks (sound : g.Tracks F) :
    Tracks F (switchStatement g) (switchStatement g) := by
  refine .bind_advance fun t => (controlExpression_tracks sound).bind fun discriminant => ?_
  refine (Tracks.expect _).bind fun found => .ite Iff.rfl (fun _ => ?_) fun _ => .close _ _
  refine (switchCases_tracks sound).bind fun cases => ?_
  exact (Tracks.expect _).discard.bind fun _ => .close _ _

theorem optionalLabel_tracks : Tracks F optionalLabel optionalLabel := by
  refine .bind_current fun t t' alike => ?_
  rw [alike.isWord, alike.newlineBefore]
  refine .ite Iff.rfl (fun isLabel => ?_) fun _ => .pure _
  have same := alike.eq_of (Bool.and_eq_true_iff.mp isLabel).1 fun _ => Token.isWord_of_continues
  rw [same]
  exact (Tracks.skip 1).bind fun _ => .pure _

theorem jumpStatement_tracks (keyword : JumpKeyword) :
    Tracks F (jumpStatement keyword) (jumpStatement keyword) := by
  refine .bind_advance fun t => optionalLabel_tracks.bind fun label => ?_
  exact (Tracks.accept _).discard.bind fun _ => .close _ _

/-! ## §4. Imports and exports. -/

/-- What an import clause does at a token that does not end it. -/
def passClause (t : Token) : Parser (Round Unit (Option Tree)) :=
  if t.is .openBrace then do
    skipGroup
    return .again ()
  else if t.isOneOf [.semicolon, .closeParen, .closeBrace] then return .finish none
  else do
    skip 1
    return .again ()

theorem importClause_tracks : Tracks F importClause importClause := by
  refine .iterate (fun _ => ?_) ()
  intro forked s s' near
  refine .bind_current ?_
  have alike := near.current
  have pass : TracksAt F forked s s' (passClause s.current) (passClause s'.current) := by
    refine .ite (by rw [alike.is]) (fun isBrace => ?_) fun _ => ?_
    · exact (skipGroup_tracks near (Token.opensGroup_of_is isBrace rfl)).bind fun _ => .pure _
    refine .ite (by rw [alike.isOneOf]) (fun _ => .pure near _) fun _ => ?_
    exact Tracks.bind (.skip 1) (fun _ => .pure _) _ s s' near
  generalize s.current = t at alike pass ⊢
  generalize s'.current = t' at alike pass ⊢
  cases alike with
  | same =>
      obtain ⟨lexeme, start, stop, newlineBefore⟩ := t
      cases lexeme with
      | endOfText => exact .pure near _
      | string quote value =>
          exact Tracks.bind (stringLiteral_tracks quote value) (fun _ => .pure _) _ s s' near
      | _ => exact pass
  | edges =>
      obtain ⟨value, found⟩ := Token.lexeme_of_continues F.continues
      obtain ⟨value', found'⟩ := Token.lexeme_of_continues F.continues'
      rcases found with is | is <;> rcases found' with is' | is' <;> rw [is, is'] <;>
        exact pass

theorem importAttributes_tracks : Tracks F importAttributes importAttributes := by
  intro forked s s' near
  refine .bind_current (.bind_peek ?_)
  refine .ite ?_ (fun attributes => ?_) fun _ => .pure near ()
  · cases isWord : s.current.isWordIn ["with", "assert"] with
    | false => rw [near.current.isWordIn, isWord, Bool.false_and, Bool.false_and]
    | true =>
        have before := Token.not_continues isWord fun _ h => Token.isWordIn_of_continues h _
        rw [near.current.isWordIn, isWord, (near.peek_one before).is]
  have isBrace : (s.skip 1).current.is .openBrace = true := by
    rw [ParserState.current, ParserState.skip, List.head?_drop]
    exact (Bool.and_eq_true_iff.mp attributes).2
  refine .bind_skip near fun forked s₁' later => ?_
  exact skipGroup_tracks later (Token.opensGroup_of_is isBrace rfl)

theorem importDeclaration_tracks : Tracks F importDeclaration importDeclaration := by
  refine .bind_advance fun t => importClause_tracks.bind fun source => ?_
  refine importAttributes_tracks.bind fun _ => ?_
  exact (Tracks.accept _).discard.bind fun _ => .close _ _

theorem defaultDeclarationAhead_alike {t next t' next' : Token}
    (alike : F.AlikeNext t next t' next') :
    defaultDeclarationAhead t' next' = defaultDeclarationAhead t next := by
  unfold defaultDeclarationAhead
  cases alike with
  | same t alike => rw [alike.isTheWord]
  | edges =>
      rw [Token.isWordIn_of_continues F.continues, Token.isWordIn_of_continues F.continues',
        Token.isTheWord_of_continues F.continues, Token.isTheWord_of_continues F.continues',
        Bool.false_and, Bool.false_and]

theorem exportedNames_tracks : Tracks F exportedNames exportedNames := by
  intro forked s s' near
  refine .bind_current ?_
  rw [near.current.is]
  refine .ite Iff.rfl (fun isBrace => ?_) fun _ => ?_
  · exact skipGroup_tracks near (Token.opensGroup_of_is isBrace rfl)
  refine Tracks.bind (.skip 1) (fun _ => (Tracks.acceptWord _).bind fun found => ?_) _ s s' near
  exact .ite Iff.rfl (fun _ => .skip 1) fun _ => .pure _

theorem exportSource_tracks : Tracks F exportSource exportSource := by
  refine (Tracks.acceptWord _).bind fun found => .ite Iff.rfl (fun _ => ?_) fun _ => .pure _
  refine .bind_current fun t t' alike => ?_
  rw [alike.isString]
  exact .ite Iff.rfl (fun _ => .skip 1) fun _ => .pure _

theorem exportClause_tracks : Tracks F exportClause exportClause := by
  refine (Tracks.acceptWord _).discard.bind fun _ => exportedNames_tracks.bind fun _ => ?_
  exact exportSource_tracks.bind fun _ => (Tracks.accept _).discard

theorem defaultExport_tracks (sound : g.Tracks F) :
    Tracks F (defaultExport g) (defaultExport g) := by
  refine .bind_currentNext fun t next t' next' alike => ?_
  rw [defaultDeclarationAhead_alike alike]
  refine .ite Iff.rfl (fun _ => sound.statement) fun _ => sound.assignment.bind fun expr => ?_
  exact (Tracks.accept _).discard.bind fun _ => .pure _

theorem exportDeclaration_tracks (sound : g.Tracks F) :
    Tracks F (exportDeclaration g) (exportDeclaration g) := by
  refine .bind_advance fun t => (Tracks.acceptWord _).bind fun isDefault => ?_
  refine .ite Iff.rfl (fun _ => ?_) fun _ => ?_
  · exact (defaultExport_tracks sound).bind fun _ => .close _ _
  refine .bind_current fun first first' alikeFirst => ?_
  refine .bind_currentNext fun second next second' next' alike => ?_
  have isType : (second'.isTheWord "type" && next'.is .openBrace)
      = (second.isTheWord "type" && next.is .openBrace) := by
    cases alike with
    | same second alike => rw [alike.is]
    | edges =>
        rw [Token.isTheWord_of_continues F.continues, Token.isTheWord_of_continues F.continues',
          Bool.false_and, Bool.false_and]
  rw [isType, alikeFirst.isOneOf]
  refine .ite Iff.rfl (fun _ => ?_) fun _ => (Tracks.accept _).bind fun assigned => ?_
  · exact exportClause_tracks.bind fun _ => .close _ _
  refine .ite Iff.rfl (fun _ => ?_) fun _ => sound.statement.bind fun _ => .close _ _
  refine (expression_tracks sound).bind fun expr => ?_
  exact (Tracks.accept _).discard.bind fun _ => .close _ _

/-! ## §5. Statements of all kinds. -/

/-- The parsers that a keyword announces. -/
theorem keywordStatements_track (sound : g.Tracks F) :
    ∀ entry ∈ keywordStatements g, Tracks F entry.2 entry.2 := by
  intro entry inside
  unfold keywordStatements at inside
  simp only [List.mem_cons, List.not_mem_nil, or_false] at inside
  rcases inside with rfl | rfl | rfl | rfl | rfl | rfl | rfl | rfl | rfl | rfl | rfl | rfl
  · exact ifStatement_tracks sound
  · exact forStatement_tracks sound
  · exact whileStatement_tracks sound
  · exact doStatement_tracks sound
  · exact returnStatement_tracks sound
  · exact throwStatement_tracks sound
  · exact tryStatement_tracks sound
  · exact switchStatement_tracks sound
  · exact jumpStatement_tracks _
  · exact jumpStatement_tracks _
  · exact importDeclaration_tracks
  · exact exportDeclaration_tracks sound

theorem otherStatement_tracks (sound : g.Tracks F) (t : Token) (name : Text) {next next' : Token}
    (alike : F.Alike next next') :
    Tracks F (otherStatement g t next name) (otherStatement g t next' name) := by
  unfold otherStatement
  rw [alike.isOneOf, alike.is]
  refine .ite Iff.rfl (fun _ => expressionStatement_tracks sound) fun _ => ?_
  cases found : (keywordStatements g).lookup name with
  | some parse =>
      obtain ⟨front, back, split, _⟩ := List.lookup_eq_some_iff.mp found
      refine keywordStatements_track sound (name, parse) ?_
      rw [split]
      exact List.mem_append_right _ (List.mem_cons_self ..)
  | none =>
      refine .ite Iff.rfl (fun _ => ?_) fun _ => expressionStatement_tracks sound
      exact (Tracks.skip 2).bind fun _ => sound.statement

theorem wordStatement_tracks (sound : g.Tracks F) (near : F.Near forked s s')
    (before : s.current.continuesTemplate = false) (t : Token) (name : Text) :
    TracksAt F forked s s' (wordStatement g t name) (wordStatement g t name) := by
  have next := near.peek_one before
  have binding : bindingKeyword? t (s'.peek 1) = bindingKeyword? t (s.peek 1) := by
    unfold bindingKeyword?
    rw [next.isWord, next.isOneOf]
  refine .bind_peek ?_
  rw [binding]
  cases bindingKeyword? t (s.peek 1) with
  | some keyword =>
      refine .ite (by rw [next.isTheWord]) (fun _ => ?_) fun _ => ?_
      · exact Tracks.bind (.skip 1) (fun _ => typeDeclaration_tracks sound _ _) _ s s' near
      · exact variableStatement_tracks sound keyword false _ s s' near
  | none =>
      refine .ite ?_ (fun _ => function_tracks sound true _ s s' near) fun _ => ?_
      · rw [next.isTheWord, next.newlineBefore]
      refine .ite (by rw [next.isTheWord]) (fun _ => classNode_tracks sound _ s s' near) fun _ => ?_
      refine .bind_get ?_
      rw [typeKeyword?_near near]
      cases typeKeyword? s with
      | some keyword => exact typeDeclaration_tracks sound keyword _ _ s s' near
      | none => exact otherStatement_tracks sound t name next _ s s' near

theorem statementBody_tracks (sound : g.Tracks F) :
    Tracks F (statementBody g) (statementBody g) := by
  intro forked s s' near
  refine .bind_current ?_
  have alike := near.current
  have word := wordStatement_tracks sound near
  generalize s.current = t at alike word ⊢
  generalize s'.current = t' at alike ⊢
  have expression := expressionStatement_tracks sound _ s s' near
  cases alike with
  | same =>
      have decorated : Tracks F (do skipDecorators g; g.statement)
          (do skipDecorators g; g.statement) :=
        (skipDecorators_tracks sound).bind fun _ => sound.statement
      obtain ⟨lexeme, start, stop, newlineBefore⟩ := t
      cases lexeme with
      | word name => exact word rfl _ name
      | punct p =>
          cases p with
          | openBrace => exact block_tracks sound _ s s' near
          | semicolon => exact Tracks.bind (.skip 1) (fun _ => .pure _) _ s s' near
          | atSign => exact decorated _ s s' near
          | _ => exact expression
      | _ => exact expression
  | edges =>
      obtain ⟨value, found⟩ := Token.lexeme_of_continues F.continues
      obtain ⟨value', found'⟩ := Token.lexeme_of_continues F.continues'
      rcases found with is | is <;> rcases found' with is' | is' <;> rw [is, is'] <;>
        exact expression

theorem statement_tracks (sound : g.Tracks F) : Tracks F (statement g) (statement g) :=
  .nested (statementBody_tracks sound)

end Parser

/-! ## §6. The knot. -/

namespace Grammar

variable {g : Grammar}

theorem spent_tracks (F : Fork) : spent.Tracks F where
  statement := .throw .budgetSpent .budgetSpent
  assignment := .throw .budgetSpent .budgetSpent
  unary := .throw .budgetSpent .budgetSpent
  binary := fun _ => .throw .budgetSpent .budgetSpent
  primary := .throw .budgetSpent .budgetSpent
  newExpression := .throw .budgetSpent .budgetSpent
  bindingTarget := .throw .budgetSpent .budgetSpent

theorem Tracks.around {F : Fork} (sound : g.Tracks F) : g.around.Tracks F where
  statement := Parser.statement_tracks sound
  assignment := Parser.assignment_tracks sound
  unary := Parser.unary_tracks sound
  binary := Parser.binary_tracks sound
  primary := Parser.primary_tracks sound
  newExpression := Parser.newExpression_tracks sound
  bindingTarget := Parser.bindingTarget_tracks sound

/-- **No parser of any budget sees behind a fork.** -/
theorem ofBudget_tracks (F : Fork) (budget : Nat) : (ofBudget budget).Tracks F := by
  induction budget with
  | zero => exact spent_tracks F
  | succ budget ih => exact ih.around

end Grammar

end StackLint
