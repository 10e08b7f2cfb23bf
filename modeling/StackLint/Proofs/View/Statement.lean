/-
  StackLint.Proofs.View.Statement
  ───────────────────────────────
  **STATEMENTS FROM AFAR.**

  Which statement begins at a token is told by words that a view keeps.
-/
import StackLint.Proofs.View.Expression

namespace StackLint

namespace Parser

variable {v : View} {g : Grammar}

/-! ## §1. Variables and expressions. -/

theorem variableDeclarator_commutes (sound : g.Commutes v) :
    Commutes v (Node.view v) (variableDeclarator g) (variableDeclarator g) := by
  refine (bindingTarget_commutes sound).bind fun target => ?_
  refine (accept_commutes _).discard.bind fun _ => skipAnnotation_commutes.bind fun _ => ?_
  refine (initializer_commutes sound).bind fun init => ?_
  rw [Node.view_info]
  exact close_commutes rfl

/-- One round of the loop over the declarators of a statement. -/
def declaratorsRound (g : Grammar) (read : List Tree) : Parser (Round (List Tree) (List Tree)) := do
  let read := (← variableDeclarator g) :: read
  if ← accept .comma then return .again read else return .finish read.reverse

/-- Behind a declarator there may be another one. -/
theorem nextDeclarator_commutes (read : List Tree) :
    Commutes v (Round.map (List.map (Node.view v)) (List.map (Node.view v)))
      (do if ← accept .comma then return .again read else return .finish read.reverse)
      (do
        if ← accept .comma then return .again (read.map (Node.view v))
        else return .finish (read.map (Node.view v)).reverse) :=
  (accept_commutes _).bind fun _ => .ite Iff.rfl (.again rfl) (.finish read)

theorem declaratorsRound_commutes (sound : g.Commutes v) (read : List Tree) :
    Commutes v (Round.map (List.map (Node.view v)) (List.map (Node.view v)))
      (declaratorsRound g read) (declaratorsRound g (read.map (Node.view v))) :=
  (variableDeclarator_commutes sound).bind fun declarator =>
    nextDeclarator_commutes (declarator :: read)

/-- The rest of a variable statement behind its declarators. -/
theorem variableStatementEnd_commutes (keyword : BindingKeyword) (inLoopHead : Bool) (start : Nat)
    (declarations : List Tree) : Commutes v (Node.view v)
      (do
        unless inLoopHead do discard (accept .semicolon)
        close start (.variableStatement keyword declarations))
      (do
        unless inLoopHead do discard (accept .semicolon)
        close (v.offset start) (.variableStatement keyword (declarations.map (Node.view v)))) :=
  .ite Iff.rfl (close_commutes rfl) ((accept_commutes _).discard.bind fun _ => close_commutes rfl)

theorem variableStatement_commutes (sound : g.Commutes v) (keyword : BindingKeyword)
    (inLoopHead : Bool) :
    Commutes v (Node.view v) (variableStatement g keyword inLoopHead)
      (variableStatement g keyword inLoopHead) := by
  refine advance_commutes.bind fun t => ?_
  refine Commutes.bind (f := List.map (Node.view v))
    (.iterate rfl (declaratorsRound_commutes sound)) fun declarations => ?_
  exact variableStatementEnd_commutes keyword inLoopHead t.start declarations

theorem expressionStatement_commutes (sound : g.Commutes v) :
    Commutes v (Node.view v) (expressionStatement g) (expressionStatement g) := by
  refine position_commutes.bind fun before => ?_
  refine (expression_commutes sound).bind fun expr => ?_
  refine position_commutes.bind fun after => .ite position_eq_iff (.pure rfl) ?_
  refine (accept_commutes _).discard.bind fun _ => ?_
  rw [Node.view_info]
  exact close_commutes rfl

/-! ## §2. Types. -/

theorem skipBraces_commutes : Commutes v id skipBraces skipBraces := by
  refine current_commutes.bind fun t => .ite ?_ skipGroup_commutes (.pure rfl)
  rw [Token.view_is]

theorem typeBody_commutes (sound : g.Commutes v) (keyword : TypeKeyword) :
    Commutes v id (typeBody g keyword) (typeBody g keyword) := by
  have heading : Commutes v id (do skipHeading [.openBrace, .semicolon]; skipBraces)
      (do skipHeading [.openBrace, .semicolon]; skipBraces) :=
    (skipHeading_commutes _).bind fun _ => skipBraces_commutes
  cases keyword with
  | declare =>
      refine (acceptWord_commutes (by decide)).bind fun found => ?_
      exact .ite Iff.rfl skipBraces_commutes sound.statement.discard
  | type =>
      refine (skip_commutes 1).bind fun _ => skipTypeParameters_commutes.bind fun _ => ?_
      exact (expect_commutes _).discard.bind fun _ => skipType_commutes
  | _ => exact heading

theorem typeDeclaration_commutes (sound : g.Commutes v) (keyword : TypeKeyword) (start : Nat) :
    Commutes v (Node.view v) (typeDeclaration g keyword start)
      (typeDeclaration g keyword (v.offset start)) := by
  refine (skip_commutes 1).bind fun _ => (typeBody_commutes sound keyword).bind fun _ => ?_
  exact (accept_commutes _).discard.bind fun _ => close_commutes rfl

theorem view_typeKeyword? (v : View) (s : ParserState) :
    typeKeyword? (s.view v) = typeKeyword? s := by
  have word (w : String) (listed : w ∈ reservedWords) := s.current.view_isTheWord v listed
  unfold typeKeyword?
  simp only [s.view_current, s.view_peek, Token.view_newlineBefore, Token.view_isWord,
    Token.view_isString, Token.view_isOneOf]
  rw [word "type" (by decide), word "namespace" (by decide), word "module" (by decide),
    word "interface" (by decide), word "enum" (by decide), word "declare" (by decide)]

/-! ## §3. Control flow. -/

theorem controlExpression_commutes (sound : g.Commutes v) :
    Commutes v (Node.view v) (controlExpression g) (controlExpression g) := by
  refine (expect_commutes _).discard.bind fun _ => ?_
  refine (expression_commutes sound).bind fun expr => ?_
  exact (expect_commutes _).discard.bind fun _ => .pure rfl

/-- What a word announces is there or not. -/
theorem wordClause_commutes {w : String} {p : Parser Tree} (listed : w ∈ reservedWords)
    (clause : Commutes v (Node.view v) p p) :
    Commutes v (Option.map (Node.view v))
      (do if ← acceptWord w then return some (← p) else return none)
      (do if ← acceptWord w then return some (← p) else return none) := by
  refine (acceptWord_commutes listed).bind fun found => .ite Iff.rfl ?_ (.pure rfl)
  exact clause.bind fun _ => .pure rfl

theorem elseBranch_commutes (sound : g.Commutes v) :
    Commutes v (Option.map (Node.view v)) (elseBranch g) (elseBranch g) :=
  wordClause_commutes (by decide) sound.statement

theorem ifStatement_commutes (sound : g.Commutes v) :
    Commutes v (Node.view v) (ifStatement g) (ifStatement g) := by
  refine advance_commutes.bind fun t => (controlExpression_commutes sound).bind fun test => ?_
  refine sound.statement.bind fun consequent => ?_
  exact (elseBranch_commutes sound).bind fun alternate => close_commutes rfl

theorem view_loopBinding? (v : View) (t next : Token) :
    loopBinding? (t.view v) (next.view v) = loopBinding? t next := by
  have word (w : String) (listed : w ∈ reservedWords) := t.view_isTheWord v listed
  unfold loopBinding?
  rw [Token.view_isWord, word "var" (by decide), word "const" (by decide), word "let" (by decide)]

theorem forStart_commutes (sound : g.Commutes v) :
    Commutes v (List.map (Node.view v)) (forStart g) (forStart g) := by
  refine current_commutes.bind fun t => (peek_commutes 1).bind fun next => ?_
  rw [view_loopBinding?]
  cases loopBinding? t next with
  | some keyword => exact (variableStatement_commutes sound keyword true).bind fun _ => .pure rfl
  | none =>
      refine .ite ?_ (.pure rfl) ?_
      · rw [Token.view_is]
      refine .bind (.modify fun _ => rfl) fun _ => ?_
      refine (expression_commutes sound).bind fun expr => ?_
      exact .bind (.modify fun _ => rfl) fun _ => .pure rfl

theorem expressionBefore_commutes (sound : g.Commutes v) (stop : Punct) :
    Commutes v (List.map (Node.view v)) (expressionBefore g stop) (expressionBefore g stop) := by
  refine current_commutes.bind fun t => .ite ?_ (.pure rfl) ?_
  · rw [Token.view_is]
  · exact (expression_commutes sound).bind fun _ => .pure rfl

theorem forRest_commutes (sound : g.Commutes v) :
    Commutes v (List.map (Node.view v)) (forRest g) (forRest g) := by
  refine current_commutes.bind fun t => .ite ?_ ?_ ?_
  · rw [t.view_isWordIn v (reserved_of_words ["of", "in"] ["of", "in"] rfl (by decide))]
  · refine (skip_commutes 1).bind fun _ => ?_
    exact (expression_commutes sound).bind fun _ => .pure rfl
  refine (expect_commutes _).discard.bind fun _ => ?_
  refine (expressionBefore_commutes sound _).bind fun test => ?_
  refine (expect_commutes _).discard.bind fun _ => ?_
  exact (expressionBefore_commutes sound _).bind fun step => .pure List.map_append.symm

theorem forStatement_commutes (sound : g.Commutes v) :
    Commutes v (Node.view v) (forStatement g) (forStatement g) := by
  refine advance_commutes.bind fun t => ?_
  refine (acceptWord_commutes (by decide)).discard.bind fun _ => ?_
  refine (expect_commutes _).discard.bind fun _ => ?_
  refine (forStart_commutes sound).bind fun first => ?_
  refine (forRest_commutes sound).bind fun rest => ?_
  refine (expect_commutes _).discard.bind fun _ => ?_
  refine sound.statement.bind fun body => ?_
  rw [← List.map_append]
  exact close_commutes rfl

theorem whileStatement_commutes (sound : g.Commutes v) :
    Commutes v (Node.view v) (whileStatement g) (whileStatement g) := by
  refine advance_commutes.bind fun t => (controlExpression_commutes sound).bind fun test => ?_
  exact sound.statement.bind fun body => close_commutes rfl

theorem doTest_commutes (sound : g.Commutes v) :
    Commutes v (List.map (Node.view v)) (doTest g) (doTest g) := by
  refine (acceptWord_commutes (by decide)).bind fun found => .ite Iff.rfl ?_ (.pure rfl)
  exact (controlExpression_commutes sound).bind fun _ => .pure rfl

theorem doStatement_commutes (sound : g.Commutes v) :
    Commutes v (Node.view v) (doStatement g) (doStatement g) := by
  refine advance_commutes.bind fun t => sound.statement.bind fun body => ?_
  refine (doTest_commutes sound).bind fun head => ?_
  exact (accept_commutes _).discard.bind fun _ => close_commutes rfl

theorem optionalArgument_commutes (sound : g.Commutes v) :
    Commutes v (Option.map (Node.view v)) (optionalArgument g) (optionalArgument g) := by
  refine current_commutes.bind fun t => .ite ?_ (.pure rfl) ?_
  · rw [Token.view_newlineBefore, Token.view_isEnd, Token.view_isOneOf]
  · exact (expression_commutes sound).bind fun _ => .pure rfl

theorem returnStatement_commutes (sound : g.Commutes v) :
    Commutes v (Node.view v) (returnStatement g) (returnStatement g) := by
  refine advance_commutes.bind fun t => (optionalArgument_commutes sound).bind fun argument => ?_
  exact (accept_commutes _).discard.bind fun _ => close_commutes rfl

theorem throwStatement_commutes (sound : g.Commutes v) :
    Commutes v (Node.view v) (throwStatement g) (throwStatement g) := by
  refine advance_commutes.bind fun t => (optionalArgument_commutes sound).bind fun argument => ?_
  exact (accept_commutes _).discard.bind fun _ => close_commutes rfl

theorem catchBinding_commutes (sound : g.Commutes v) :
    Commutes v (Option.map (Node.view v)) (catchBinding g) (catchBinding g) := by
  refine (accept_commutes _).bind fun found => .ite Iff.rfl ?_ (.pure rfl)
  refine (bindingTarget_commutes sound).bind fun param => skipAnnotation_commutes.bind fun _ => ?_
  exact (expect_commutes _).discard.bind fun _ => .pure rfl

/-- What a `catch` clause looks like. -/
def viewClause (v : View) (clause : Option Tree × Option Tree) : Option Tree × Option Tree :=
  (clause.1.map (Node.view v), clause.2.map (Node.view v))

theorem catchClause_commutes (sound : g.Commutes v) :
    Commutes v (viewClause v) (catchClause g) (catchClause g) := by
  refine (acceptWord_commutes (by decide)).bind fun found => .ite Iff.rfl ?_ (.pure rfl)
  refine (catchBinding_commutes sound).bind fun param => ?_
  exact (block_commutes sound).bind fun _ => .pure rfl

theorem finallyClause_commutes (sound : g.Commutes v) :
    Commutes v (Option.map (Node.view v)) (finallyClause g) (finallyClause g) :=
  wordClause_commutes (by decide) (block_commutes sound)

theorem tryStatement_commutes (sound : g.Commutes v) :
    Commutes v (Node.view v) (tryStatement g) (tryStatement g) := by
  refine advance_commutes.bind fun t => (block_commutes sound).bind fun guarded => ?_
  refine (catchClause_commutes sound).bind fun clause => ?_
  exact (finallyClause_commutes sound).bind fun finalizer => close_commutes rfl

theorem switchCase_commutes (sound : g.Commutes v) (start : Nat) (test : Option Tree) :
    Commutes v (Node.view v) (switchCase g start test)
      (switchCase g (v.offset start) (test.map (Node.view v))) := by
  refine (expect_commutes _).discard.bind fun _ => ?_
  have kept := reserved_of_words _ ["case", "default"] rfl (by decide)
  exact (statements_commutes sound _ kept).bind fun body => close_commutes rfl

theorem switchCases_commutes (sound : g.Commutes v) :
    Commutes v (List.map (Node.view v)) (switchCases g) (switchCases g) := by
  refine .iterate (f := List.map (Node.view v)) rfl fun cases => ?_
  refine current_commutes.bind fun t => .ite ?_ (.finish cases) ?_
  · rw [Token.view_isEnd, Token.view_is]
  refine (acceptWord_commutes (by decide)).bind fun isCase => .ite Iff.rfl ?_ ?_
  · refine (expression_commutes sound).bind fun test => ?_
    exact (switchCase_commutes sound t.start (some test)).bind fun _ => .again rfl
  refine (acceptWord_commutes (by decide)).bind fun isDefault => .ite Iff.rfl ?_ ?_
  · exact (switchCase_commutes sound t.start none).bind fun _ => .again rfl
  refine (skip_commutes 1).bind fun _ => ?_
  rw [Token.view_lexeme, Lexeme.view_value]
  exact (complainAt_commutes t.start (.unexpectedToken t.lexeme.value)).bind fun _ => .again rfl

theorem switchStatement_commutes (sound : g.Commutes v) :
    Commutes v (Node.view v) (switchStatement g) (switchStatement g) := by
  refine advance_commutes.bind fun t => ?_
  refine (controlExpression_commutes sound).bind fun discriminant => ?_
  refine (expect_commutes _).bind fun found => .ite Iff.rfl ?_ (close_commutes rfl)
  refine (switchCases_commutes sound).bind fun cases => ?_
  exact (expect_commutes _).discard.bind fun _ => close_commutes rfl

theorem optionalLabel_commutes :
    Commutes v (Option.map v.name) optionalLabel optionalLabel := by
  refine current_commutes.bind fun t => .ite ?_ ?_ (.pure rfl)
  · rw [Token.view_isWord, Token.view_newlineBefore]
  · rw [Token.view_lexeme, Lexeme.view_value]
    exact (skip_commutes 1).bind fun _ => .pure rfl

theorem jumpStatement_commutes (keyword : JumpKeyword) :
    Commutes v (Node.view v) (jumpStatement keyword) (jumpStatement keyword) := by
  refine advance_commutes.bind fun t => optionalLabel_commutes.bind fun label => ?_
  exact (accept_commutes _).discard.bind fun _ => close_commutes rfl

/-! ## §4. Imports and exports. -/

theorem importClause_commutes :
    Commutes v (Option.map (Node.view v)) importClause importClause := by
  refine .iterate (f := id) rfl fun _ => ?_
  refine current_commutes.bind fun t => ?_
  have other : Commutes v (Round.map id (Option.map (Node.view v)))
      (if t.is .openBrace then do
        skipGroup
        return Round.again ()
      else if t.isOneOf [.semicolon, .closeParen, .closeBrace] then return .finish none
      else do
        skip 1
        return .again ())
      (if (t.view v).is .openBrace then do
        skipGroup
        return Round.again ()
      else if (t.view v).isOneOf [.semicolon, .closeParen, .closeBrace] then return .finish none
      else do
        skip 1
        return .again ()) := by
    rw [Token.view_is, Token.view_isOneOf]
    refine .ite Iff.rfl (skipGroup_commutes.bind fun _ => .again rfl) ?_
    exact .ite Iff.rfl (.pure rfl) ((skip_commutes 1).bind fun _ => .again rfl)
  obtain ⟨lexeme, start, stop, newlineBefore⟩ := t
  cases lexeme with
  | endOfText => exact .pure rfl
  | string quote value => exact (stringLiteral_commutes quote value).bind fun _ => .pure rfl
  | _ => exact other

theorem importAttributes_commutes : Commutes v id importAttributes importAttributes := by
  refine current_commutes.bind fun t => (peek_commutes 1).bind fun next => .ite ?_ ?_ (.pure rfl)
  · have kept := reserved_of_words ["with", "assert"] ["with", "assert"] rfl (by decide)
    rw [t.view_isWordIn v kept, Token.view_is]
  · exact (skip_commutes 1).bind fun _ => skipGroup_commutes

theorem importDeclaration_commutes :
    Commutes v (Node.view v) importDeclaration importDeclaration := by
  refine advance_commutes.bind fun t => importClause_commutes.bind fun source => ?_
  refine importAttributes_commutes.bind fun _ => ?_
  exact (accept_commutes _).discard.bind fun _ => close_commutes rfl

theorem view_defaultDeclarationAhead (v : View) (t next : Token) :
    defaultDeclarationAhead (t.view v) (next.view v) = defaultDeclarationAhead t next := by
  have kept := reserved_of_words ["function", "class", "abstract"] ["function", "class", "abstract"]
    rfl (by decide)
  unfold defaultDeclarationAhead
  rw [t.view_isWordIn v kept, t.view_isTheWord v (by decide), next.view_isTheWord v (by decide)]

theorem exportedNames_commutes : Commutes v id exportedNames exportedNames := by
  refine current_commutes.bind fun t => .ite ?_ skipGroup_commutes ?_
  · rw [Token.view_is]
  refine (skip_commutes 1).bind fun _ => (acceptWord_commutes (by decide)).bind fun found => ?_
  exact .ite Iff.rfl (skip_commutes 1) (.pure rfl)

theorem exportSource_commutes : Commutes v id exportSource exportSource := by
  refine (acceptWord_commutes (by decide)).bind fun found => .ite Iff.rfl ?_ (.pure rfl)
  refine current_commutes.bind fun t => .ite ?_ (skip_commutes 1) (.pure rfl)
  rw [Token.view_isString]

theorem exportClause_commutes : Commutes v id exportClause exportClause := by
  refine (acceptWord_commutes (by decide)).discard.bind fun _ => ?_
  refine exportedNames_commutes.bind fun _ => exportSource_commutes.bind fun _ => ?_
  exact (accept_commutes _).discard

theorem defaultExport_commutes (sound : g.Commutes v) :
    Commutes v (Node.view v) (defaultExport g) (defaultExport g) := by
  refine current_commutes.bind fun t => (peek_commutes 1).bind fun next => ?_
  rw [view_defaultDeclarationAhead]
  refine .ite Iff.rfl sound.statement ?_
  refine sound.assignment.bind fun expr => ?_
  exact (accept_commutes _).discard.bind fun _ => .pure rfl

theorem exportDeclaration_commutes (sound : g.Commutes v) :
    Commutes v (Node.view v) (exportDeclaration g) (exportDeclaration g) := by
  refine advance_commutes.bind fun t => ?_
  refine (acceptWord_commutes (by decide)).bind fun isDefault => .ite Iff.rfl ?_ ?_
  · exact (defaultExport_commutes sound).bind fun _ => close_commutes rfl
  refine current_commutes.bind fun first => current_commutes.bind fun second => ?_
  refine (peek_commutes 1).bind fun next => .ite ?_ ?_ ?_
  · rw [Token.view_isOneOf, second.view_isTheWord v (by decide), Token.view_is]
  · exact exportClause_commutes.bind fun _ => close_commutes rfl
  refine (accept_commutes _).bind fun assigned => .ite Iff.rfl ?_ ?_
  · refine (expression_commutes sound).bind fun expr => ?_
    exact (accept_commutes _).discard.bind fun _ => close_commutes rfl
  · exact sound.statement.bind fun _ => close_commutes rfl

/-! ## §5. Statements of all kinds. -/

theorem view_bindingKeyword? (v : View) (t next : Token) :
    bindingKeyword? (t.view v) (next.view v) = bindingKeyword? t next := by
  have word (w : String) (listed : w ∈ reservedWords) := t.view_isTheWord v listed
  unfold bindingKeyword?
  rw [Token.view_isWord, Token.view_isOneOf, word "var" (by decide), word "const" (by decide),
    word "let" (by decide)]

/-- Every keyword is kept. -/
theorem reserved_of_keywordStatements (g : Grammar) :
    ∀ entry ∈ keywordStatements g, Reserved entry.1 := by
  have kept := reserved_of_words ((keywordStatements g).map Prod.fst)
    ["if", "for", "while", "do", "return", "throw", "try", "switch", "break", "continue", "import",
     "export"] rfl (by decide)
  exact fun entry inside => kept _ (List.mem_map_of_mem inside)

/-- The parsers that a keyword announces. -/
theorem keywordStatements_commute (sound : g.Commutes v) :
    ∀ entry ∈ keywordStatements g, Commutes v (Node.view v) entry.2 entry.2 := by
  intro entry inside
  unfold keywordStatements at inside
  simp only [List.mem_cons, List.not_mem_nil, or_false] at inside
  rcases inside with rfl | rfl | rfl | rfl | rfl | rfl | rfl | rfl | rfl | rfl | rfl | rfl
  · exact ifStatement_commutes sound
  · exact forStatement_commutes sound
  · exact whileStatement_commutes sound
  · exact doStatement_commutes sound
  · exact returnStatement_commutes sound
  · exact throwStatement_commutes sound
  · exact tryStatement_commutes sound
  · exact switchStatement_commutes sound
  · exact jumpStatement_commutes _
  · exact jumpStatement_commutes _
  · exact importDeclaration_commutes
  · exact exportDeclaration_commutes sound

theorem otherStatement_commutes (sound : g.Commutes v) (t next : Token) (name : Text) :
    Commutes v (Node.view v) (otherStatement g t next name)
      (otherStatement g (t.view v) (next.view v) (v.name name)) := by
  have same := v.lookup_name (t := name) (reserved_of_keywordStatements g)
  unfold otherStatement
  rw [t.view_isTheWord v (by decide), Token.view_isOneOf, Token.view_is, same]
  refine .ite Iff.rfl (expressionStatement_commutes sound) ?_
  cases found : (keywordStatements g).lookup name with
  | some parse =>
      obtain ⟨front, back, split, _⟩ := List.lookup_eq_some_iff.mp found
      refine keywordStatements_commute sound (name, parse) ?_
      rw [split]
      exact List.mem_append_right _ (List.mem_cons_self ..)
  | none =>
      refine .ite Iff.rfl ?_ (expressionStatement_commutes sound)
      exact (skip_commutes 2).bind fun _ => sound.statement

theorem wordStatement_commutes (sound : g.Commutes v) (t : Token) (name : Text) :
    Commutes v (Node.view v) (wordStatement g t name)
      (wordStatement g (t.view v) (v.name name)) := by
  refine (peek_commutes 1).bind fun next => ?_
  rw [view_bindingKeyword?]
  cases bindingKeyword? t next with
  | some keyword =>
      refine .ite ?_ ?_ (variableStatement_commutes sound keyword false)
      · rw [next.view_isTheWord v (by decide)]
      · exact (skip_commutes 1).bind fun _ => typeDeclaration_commutes sound .enum t.start
  | none =>
      have word (w : String) (listed : w ∈ reservedWords) := t.view_isTheWord v listed
      have nextWord (w : String) (listed : w ∈ reservedWords) := next.view_isTheWord v listed
      refine .ite ?_ (function_commutes sound true) (.ite ?_ (classNode_commutes sound) ?_)
      · rw [word "function" (by decide), word "async" (by decide), nextWord "function" (by decide),
          Token.view_newlineBefore]
      · rw [word "class" (by decide), word "abstract" (by decide), nextWord "class" (by decide)]
      refine Commutes.get.bind fun s => ?_
      rw [view_typeKeyword?]
      cases typeKeyword? s with
      | some keyword => exact typeDeclaration_commutes sound keyword t.start
      | none => exact otherStatement_commutes sound t next name

theorem statementBody_commutes (sound : g.Commutes v) :
    Commutes v (Node.view v) (statementBody g) (statementBody g) := by
  refine current_commutes.bind fun t => ?_
  have decorated : Commutes v (Node.view v) (do skipDecorators g; g.statement)
      (do skipDecorators g; g.statement) :=
    (skipDecorators_commutes sound).bind fun _ => sound.statement
  have empty : Commutes v (Node.view v) (do skip 1; return leaf t .emptyStatement)
      (do skip 1; return leaf (t.view v) .emptyStatement) :=
    (skip_commutes 1).bind fun _ => leaf_commutes rfl
  obtain ⟨lexeme, start, stop, newlineBefore⟩ := t
  cases lexeme with
  | word name => exact wordStatement_commutes sound _ name
  | punct p =>
      cases p with
      | openBrace => exact block_commutes sound
      | semicolon => exact empty
      | atSign => exact decorated
      | _ => exact expressionStatement_commutes sound
  | _ => exact expressionStatement_commutes sound

theorem statement_commutes (sound : g.Commutes v) :
    Commutes v (Node.view v) (statement g) (statement g) :=
  nested_commutes (statementBody_commutes sound)

end Parser

end StackLint
