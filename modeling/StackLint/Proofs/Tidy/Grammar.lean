/-
  StackLint.Proofs.Tidy.Grammar
  ─────────────────────────────
  **EXPRESSIONS END TIDILY.**

  The parsers of expressions are taken with a grammar whose parsers for deeper parts
  end tidily.  Those that demand a bracket in the end settle everything, whatever is
  read in front of it: so of the statements in a block only has to be known that they
  read on.
-/
import StackLint.Parse.Program
import StackLint.Proofs.Tidy.Parser

namespace StackLint

/-- Reading ends tidily where it begins with a token that is no stray character. -/
def Parser.TidiesOn (L : Layout) (p : Parser α) : Prop :=
  ∀ s, s.On L → s.current.isStray = false → Parser.Ensures p s fun _ s' => Tidy L s s'

/-- **A grammar whose expressions end tidily.** -/
structure Grammar.Tidies (g : Grammar) (L : Layout) : Prop where
  statement : Parser.Passes L g.statement
  assignment : Parser.Tidies L g.assignment
  unary : Parser.Tidies L g.unary
  binary : ∀ minimum, Parser.Tidies L (g.binary minimum)
  primary : Parser.Tidies L g.primary
  newExpression : Parser.TidiesOn L g.newExpression
  bindingTarget : Parser.Tidies L g.bindingTarget

namespace Parser

variable {L : Layout} {g : Grammar} {s s₀ : ParserState} {α β : Type}

/-! ## §1. Tokens that are known. -/

theorem advance_passes : Passes L advance :=
  .look (fun _ => rfl) fun _ => (skip_passes 1).bind fun _ => .pure _

/-- Behind a token that is there and is no stray character. -/
theorem isTidy_skip_one (on : s.On L) (more : s.position < L.size)
    (notStray : s.current.isStray = false) : (s.skip 1).IsTidy L := by
  have moved := position_skip_one on more
  exact (Tidy.skip_one on notStray).ends.resolve_left (by omega)

/-- What follows a token that is no stray character. -/
theorem Tidies.bind_skip {rest : Unit → Parser α} (on : s.On L)
    (notStray : s.current.isStray = false) (tidies : ∀ u, Tidies L (rest u)) :
    Ensures (skip 1 >>= rest) s fun _ s' => Tidy L s s' :=
  .bind_skip ((tidies ()).after (.skip_one on notStray))

/-- A leaf of such a token. -/
theorem leaf_tidies (form : Token → Form Tree) :
    TidiesOn L (do let t ← advance; return leaf t (form t)) :=
  fun _ on notStray => .bind_advance (.pure (.skip_one on notStray))

theorem identifier_tidies : TidiesOn L identifier :=
  leaf_tidies fun t => .identifier t.lexeme.value

theorem isStray_of_unaryOperator? {t next : Token} {op : UnaryOp}
    (found : unaryOperator? t next = some op) : t.isStray = false := by
  unfold unaryOperator? at found
  split at found
  · next same => exact Token.isStray_of_lexeme same fun _ => Lexeme.noConfusion
  · next same => exact Token.isStray_of_lexeme same fun _ => Lexeme.noConfusion
  · cases found

theorem isStray_of_connective? {noIn : Bool} {t : Token} {c : Connective}
    (found : connective? noIn t = some c) : t.isStray = false := by
  unfold connective? at found
  split at found
  · next same => exact Token.isStray_of_lexeme same fun _ => Lexeme.noConfusion
  · next same => exact Token.isStray_of_lexeme same fun _ => Lexeme.noConfusion
  · cases found

theorem isStray_of_assignOperator? {t : Token} {op : AssignOp}
    (found : assignOperator? t = some op) : t.isStray = false := by
  unfold assignOperator? at found
  split at found
  · next same => exact Token.isStray_of_lexeme same fun _ => Lexeme.noConfusion
  · cases found

theorem isStray_of_opensTemplate {t : Token} (opens : t.opensTemplate = true) :
    t.isStray = false := by
  unfold Token.opensTemplate at opens
  split at opens
  · next same => exact Token.isStray_of_lexeme same fun _ => Lexeme.noConfusion
  · next same => exact Token.isStray_of_lexeme same fun _ => Lexeme.noConfusion
  · cases opens

/-! ## §2. Names, lists and blocks. -/

theorem propertyName_tidies : Tidies L propertyName := by
  intro s on
  refine .bind_current ?_
  refine .ite (fun isWord => identifier_tidies s on (Token.isStray_of_isWord isWord)) fun _ => ?_
  exact ((complain_settles _).tidies.bind fun _ => .pure _) s on

theorem propertyKey_tidies (tidy : g.Tidies L) : Tidies L (propertyKey g) := by
  intro s on
  -- A key that is one token.
  have single : ∀ {p : Parser Tree} {l : Lexeme}, TidiesOn L p → s.current.lexeme = l →
      (∀ c, l ≠ .stray c) → Ensures (do return some (← p)) s fun _ s' => Tidy L s s' := by
    intro p l tidies same notStray
    exact (tidies s on (Token.isStray_of_lexeme same notStray)).bind fun _ _ read => .pure read
  refine .bind_current ?_
  split
  · next same => exact single identifier_tidies same fun _ => Lexeme.noConfusion
  · next quote value same =>
      exact single (leaf_tidies fun _ => .stringLiteral value quote) same fun _ =>
        Lexeme.noConfusion
  · next same =>
      exact single (leaf_tidies fun t => .numericLiteral t.lexeme.value) same fun _ =>
        Lexeme.noConfusion
  · refine ((accept_tidies _).bind fun _ => .ite (fun _ => ?_) fun _ => .pure _) s on
    exact tidy.assignment.bind fun _ => (expect_settles _).discard.tidies.bind fun _ =>
      (close_tidies _ _).bind fun _ => .pure _

/-- A modifier is a word. -/
theorem memberModifiers_tidies : Tidies L memberModifiers := by
  intro s on
  have star : ∀ found : Bool × Accessor, Tidies L (do discard (accept .star); return found) :=
    fun _ => (accept_tidies _).discard.bind fun _ => .pure _
  refine .bind_current (.bind_peek ?_)
  refine .ite (fun modifies => ?_) fun _ => star _ s on
  refine Tidies.bind_skip on ?_ fun _ => star _
  refine Decidable.byContradiction fun stray => modifies ?_
  have notWord : ∀ word : Text, ¬ s.current.isTheWord word = true :=
    fun word is => stray (Token.isStray_of_isTheWord is)
  rw [if_neg (notWord _), if_neg (notWord _), if_neg (notWord _), ite_self]

theorem listOf_tidies (closer : Punct) {item : Parser Tree} (tidies : Tidies L item) :
    Tidies L (listOf closer item) := by
  refine .iterate fun items => .look (fun _ => rfl) fun _ => .ite (fun _ => .pure _) fun _ => ?_
  refine .look (fun _ => rfl) fun _ => tidies.bind fun node => .look (fun _ => rfl) fun _ => ?_
  refine .ite (fun _ => .pure _) fun _ => (accept_tidies _).bind fun _ => ?_
  refine .ite (fun _ => .pure _) fun _ => .look (fun _ => rfl) fun _ => ?_
  exact .ite (fun _ => .pure _) fun _ => (complain_settles _).tidies.bind fun _ => .pure _

theorem element_tidies (tidy : g.Tidies L) : Tidies L (element g) := by
  refine .look (fun _ => rfl) fun _ => (accept_tidies _).bind fun _ => ?_
  exact .ite (fun _ => tidy.assignment.bind fun _ => close_tidies _ _) fun _ => tidy.assignment

theorem arguments_tidies (tidy : g.Tidies L) : Tidies L (arguments g) :=
  (expect_settles _).discard.tidies.bind fun _ =>
    (listOf_tidies _ (element_tidies tidy)).bind fun _ =>
      (expect_settles _).discard.tidies.bind fun _ => .pure _

theorem expression_tidies (tidy : g.Tidies L) : Tidies L (expression g) := by
  refine tidy.assignment.bind fun _ => .iterate fun _ => (accept_tidies _).bind fun _ => ?_
  refine .ite (fun _ => tidy.assignment.bind fun _ => ?_) fun _ => .pure _
  exact (close_tidies _ _).bind fun _ => .pure _

/-- Where no statement begins the next token is passed over with a complaint. -/
theorem statementEnd_passes (before : Nat) (statement : Tree) (read : List Tree) :
    Passes L (do
      if (← position) = before then
        let t ← advance
        let complaint := Complaint.unexpectedToken t.lexeme.value
        complainAt t.start complaint
        return .again (leaf t (.errorNode complaint) :: read)
      return .again (statement :: read) : Parser (Round (List Tree) (List Tree))) := by
  refine .look (fun _ => rfl) fun _ => .ite (fun s on => ?_) (.pure _)
  refine .bind_advance ?_
  rw [on.start_current]
  refine (complainAt_spec (on.skip 1) _ _).bind fun _ s₁ complained => .pure ?_
  exact (Reads.skip on 1).trans complained.reads

theorem statements_passes (tidy : g.Tidies L) (closer : Option Punct) (stopWords : List Text) :
    Passes L (statements g closer stopWords) :=
  .iterate fun read => .look (fun _ => rfl) fun _ => .ite (.pure _) <|
    .look (fun _ => rfl) fun _ => tidy.statement.bind fun statement =>
      statementEnd_passes _ statement read

theorem block_settles (tidy : g.Tidies L) : Settles L (block g) := by
  refine .look (fun _ => rfl) fun start => ?_
  refine Settles.bind (expect_settles _) fun _ => .ite (fun _ => ?_) fun _ => .pure _
  refine Settles.tidies (Passes.bind_settles (statements_passes tidy _ _) fun _ => ?_)
  exact Settles.bind (expect_settles _).discard fun _ => close_tidies _ _

theorem optionalBlock_tidies (tidy : g.Tidies L) : Tidies L (optionalBlock g) :=
  .look (fun _ => rfl) fun _ =>
    .ite (fun _ => (block_settles tidy).tidies.bind fun _ => .pure _) fun _ => .pure _

theorem initializer_tidies (tidy : g.Tidies L) : Tidies L (initializer g) :=
  (accept_tidies _).bind fun _ =>
    .ite (fun _ => tidy.assignment.bind fun _ => .pure _) fun _ => .pure _

/-! ## §3. Templates and chains. -/

theorem endSubstitution_passes : Passes L endSubstitution :=
  .look (fun _ => rfl) fun _ =>
    .ite (.pure _) ((complain_passes _).bind fun _ => skipWhile_passes _)

/-- The spans of a template end with its tail, or with the text. -/
theorem templateSpans_settles (tidy : g.Tidies L) : Settles L (templateSpans g) := by
  intro s on
  refine .iterate (I := fun _ s' => Reads L s s') (.refl on) fun spans s₁ reads => ?_
  refine ((expression_tidies tidy).passes s₁ reads.on).bind fun expr s₂ reads₂ => ?_
  refine (endSubstitution_passes s₂ reads₂.on).bind fun _ s₃ reads₃ => ?_
  have before := (reads.trans reads₂).trans reads₃
  refine .bind_current ?_
  refine .ite (fun isEnd => ?_) fun more => ?_
  · exact .bind_lastStop (.pure ⟨before, .of_isEnd before.on isEnd⟩)
  · have behind := before.trans (.skip before.on 1)
    have inside := before.on.lt_size (Bool.eq_false_iff.mpr more)
    refine .bind_advance ?_
    split
    · next same =>
        refine .pure ⟨behind, isTidy_skip_one before.on inside ?_⟩
        exact Token.isStray_of_lexeme same fun _ => Lexeme.noConfusion
    · exact .pure behind

theorem template_tidies (tidy : g.Tidies L) : TidiesOn L (template g) := by
  intro s on notStray
  refine .bind_advance ?_
  have first := Tidy.skip_one on notStray
  split
  · exact ((templateSpans_settles tidy).tidies.bind fun _ => close_tidies _ _).after first
  · exact .pure first

theorem optionalLink_tidies (tidy : g.Tidies L) (expr : Tree) (on : s.On L)
    (notStray : s.current.isStray = false) :
    Ensures (optionalLink g expr) s fun _ s' => Tidy L s s' := by
  refine Tidies.bind_skip on notStray fun _ => .look (fun _ => rfl) fun _ => ?_
  refine .ite (fun _ => (arguments_tidies tidy).bind fun _ => close_tidies _ _) fun _ => ?_
  refine (accept_tidies _).bind fun _ => .ite (fun _ => ?_) fun _ => ?_
  · exact (expression_tidies tidy).bind fun _ => (expect_settles _).discard.tidies.bind fun _ =>
      close_tidies _ _
  · exact propertyName_tidies.bind fun _ => close_tidies _ _

/-- **The chain behind an operand:** every link ends tidily. -/
theorem chain_tidies (tidy : g.Tidies L) (allowCalls : Bool) (operand : Tree) :
    Tidies L (chain g allowCalls operand) := by
  refine .iterate fun expr s on => .bind_current ?_
  refine .ite (fun isDot => ?_) fun _ => .ite (fun isLink => ?_) fun _ =>
    .ite (fun isBracket => ?_) fun _ => .ite (fun _ => ?_) fun _ => .ite (fun isTagged => ?_) fun _ =>
    .ite (fun isBang => ?_) fun _ => .ite (fun _ => ?_) fun _ => .pure (.refl on)
  · refine Tidies.bind_skip on (Token.isStray_of_is isDot) fun _ => propertyName_tidies.bind ?_
    exact fun _ => (close_tidies _ _).bind fun _ => .pure _
  · rw [Bool.and_eq_true] at isLink
    refine (optionalLink_tidies tidy expr on (Token.isStray_of_is isLink.1)).bind ?_
    exact fun _ _ read => .pure read
  · refine Tidies.bind_skip on (Token.isStray_of_is isBracket) fun _ => ?_
    exact (expression_tidies tidy).bind fun _ => (expect_settles _).discard.tidies.bind fun _ =>
      (close_tidies _ _).bind fun _ => .pure _
  · exact ((arguments_tidies tidy).bind fun _ => (close_tidies _ _).bind fun _ => .pure _) s on
  · rw [Bool.and_eq_true] at isTagged
    refine (template_tidies tidy s on (isStray_of_opensTemplate isTagged.1)).bind ?_
    exact fun _ _ read => .pure read
  · rw [Bool.and_eq_true] at isBang
    exact Tidies.bind_skip on (Token.isStray_of_is isBang.1) fun _ => .pure _
  · -- Type arguments end with an angle.
    refine .bind_get ?_
    split
    · exact .pure (.refl on)
    · next width found =>
        refine .bind_peek (.ite (fun _ => ?_) fun _ => .pure (.refl on))
        exact .bind_skip (.pure (.skip on (Lookahead.angleWidth?_endsTidily found)))

theorem skipDecorators_tidies (tidy : g.Tidies L) : Tidies L (skipDecorators g) := by
  refine .iterate fun _ => (accept_tidies _).bind fun _ => .ite (fun _ => ?_) fun _ => .pure _
  exact tidy.primary.bind fun _ => (chain_tidies tidy _ _).discard.bind fun _ => .pure _

/-! ## §4. Functions. -/

theorem parameter_passes (tidy : g.Tidies L) : Passes L (parameter g) := by
  refine (skipDecorators_tidies tidy).passes.bind fun _ => (skipWhile_passes _).bind fun _ => ?_
  refine .look (fun _ => rfl) fun _ => (accept_passes _).bind fun _ => ?_
  refine tidy.bindingTarget.passes.bind fun _ => (accept_passes _).discard.bind fun _ => ?_
  refine skipAnnotation_passes.bind fun _ => (initializer_tidies tidy).passes.bind fun _ => ?_
  exact (close_tidies _ _).passes

/-- Parameters end with their parenthesis. -/
theorem parameters_settles (tidy : g.Tidies L) : Settles L (parameters g) := by
  refine .look (fun _ => rfl) fun _ => Settles.bind (expect_settles _) fun _ => ?_
  refine .ite (fun _ => Settles.tidies ?_) fun _ => .pure _
  refine Passes.bind_settles (Passes.iterate fun _ => .look (fun _ => rfl) fun _ => ?_) fun _ =>
    Settles.bind (expect_settles _).discard fun _ => .look (fun _ => rfl) fun _ => .pure _
  refine .ite (.pure _) ((parameter_passes tidy).bind fun _ => (accept_passes _).bind fun _ => ?_)
  exact .ite (.pure _) (.pure _)

theorem optionalName_tidies : Tidies L optionalName := by
  intro s on
  refine .bind_current (.ite (fun isWord => ?_) fun _ => .pure (.refl on))
  exact (identifier_tidies s on (Token.isStray_of_isWord isWord)).bind fun _ _ read => .pure read

theorem function_settles (tidy : g.Tidies L) (declaration : Bool) :
    Settles L (function g declaration) := by
  refine .look (fun _ => rfl) fun _ => (acceptWord_passes _).bind_settles fun _ => ?_
  refine (skip_passes 1).bind_settles fun _ => (accept_passes _).discard.bind_settles fun _ => ?_
  refine optionalName_tidies.passes.bind_settles fun _ =>
    skipTypeParameters_passes.bind_settles fun _ => ?_
  refine Settles.bind (parameters_settles tidy) fun _ => skipAnnotation_tidies.bind fun _ => ?_
  refine (optionalBlock_tidies tidy).bind fun _ => .ite (fun _ => ?_) fun _ => close_tidies _ _
  exact (accept_tidies _).discard.bind fun _ => close_tidies _ _

theorem arrowParameters_passes (tidy : g.Tidies L) : Passes L (arrowParameters g) := by
  refine .look (fun _ => rfl) fun _ => .ite ?_ ?_
  · exact (advance_passes.bind fun _ => .pure _ : Passes L identifier).bind fun _ => .pure _
  · exact skipTypeParameters_passes.bind fun _ => (parameters_settles tidy).tidies.passes.bind
      fun _ => skipAnnotation_passes.bind fun _ => .pure _

/-- Behind the arrow comes a block or an expression. -/
theorem arrowFunction_settles (tidy : g.Tidies L) : Settles L (arrowFunction g) := by
  have body : Tidies L (arrowBody g) := .look (fun _ => rfl) fun _ =>
    .ite (fun _ => (block_settles tidy).tidies) fun _ => tidy.assignment
  -- The parameters, the arrow and the body follow with and without `async`.
  have rest {build : Tree → Parser Tree} (closes : ∀ n, Tidies L (build n)) :
      Settles L (do discard (expect .arrow); build (← arrowBody g)) :=
    Settles.bind (expect_settles _).discard fun _ => body.bind closes
  refine .look (fun _ => rfl) fun _ => .look (fun _ => rfl) fun _ => .look (fun _ => rfl) fun _ => ?_
  intro s on
  refine .ite (fun _ => (skip_passes 1).bind_settles (fun _ => ?_) s on) fun _ => ?_
  · exact (arrowParameters_passes tidy).bind_settles fun _ => rest fun _ => close_tidies _ _
  · exact (arrowParameters_passes tidy).bind_settles (fun _ => rest fun _ => close_tidies _ _) s on

theorem methodRest_settles (tidy : g.Tidies L) (start : Nat) (key : Tree) (accessor : Accessor)
    (isAsync : Bool) : Settles L (methodRest g start key accessor isAsync) := by
  refine skipTypeParameters_passes.bind_settles fun _ => Settles.bind (parameters_settles tidy)
    fun _ => ?_
  exact skipAnnotation_tidies.bind fun _ => (optionalBlock_tidies tidy).bind fun _ =>
    close_tidies _ _

/-! ## §5. Arrays, objects and classes. -/

theorem arrayLiteral_settles (tidy : g.Tidies L) : Settles L (arrayLiteral g) := by
  refine advance_passes.bind_settles fun _ => Passes.bind_settles (Passes.iterate fun _ => ?_)
    fun _ => Settles.bind (expect_settles _).discard fun _ => close_tidies _ _
  refine .look (fun _ => rfl) fun _ => .ite (.pure _) ?_
  refine (accept_passes _).bind fun _ => .ite (.pure _) (.look (fun _ => rfl) fun _ => ?_)
  refine (element_tidies tidy).passes.bind fun _ => .look (fun _ => rfl) fun _ => ?_
  refine .ite (.pure _) ((accept_passes _).bind fun _ => .ite (.pure _) ?_)
  refine .look (fun _ => rfl) fun _ => .ite (.pure _) ?_
  exact (complain_passes _).bind fun _ => .pure _

theorem objectMemberRest_tidies (tidy : g.Tidies L) (start : Nat) (key : Tree) (isAsync : Bool)
    (accessor : Accessor) : Tidies L (objectMemberRest g start key isAsync accessor) := by
  refine (accept_tidies _).discard.bind fun _ => .look (fun _ => rfl) fun _ => ?_
  refine .ite (fun _ => (methodRest_settles tidy _ _ _ _).tidies) fun _ => ?_
  refine (accept_tidies _).bind fun _ => .ite (fun _ => ?_) fun _ => ?_
  · exact tidy.assignment.bind fun _ => close_tidies _ _
  · split
    · exact (initializer_tidies tidy).bind fun _ => close_tidies _ _
    · exact (complain_settles _).tidies.bind fun _ => close_tidies _ _

/-- **A member of an object ends tidily.** -/
theorem objectMember_tidies (tidy : g.Tidies L) : Tidies L (objectMember g) := by
  refine .look (fun _ => rfl) fun _ => (accept_tidies _).bind fun _ => ?_
  refine .ite (fun _ => tidy.assignment.bind fun _ => close_tidies _ _) fun _ => ?_
  refine memberModifiers_tidies.bind fun _ => (propertyKey_tidies tidy).bind fun key => ?_
  cases key with
  | some key => exact objectMemberRest_tidies tidy _ _ _ _
  | none => exact (complain_settles _).tidies.bind fun _ => close_tidies _ _

theorem objectLiteral_settles (tidy : g.Tidies L) : Settles L (objectLiteral g) :=
  advance_passes.bind_settles fun _ =>
    (listOf_tidies _ (objectMember_tidies tidy)).passes.bind_settles fun _ =>
      Settles.bind (expect_settles _).discard fun _ => close_tidies _ _

theorem bindingTarget_tidies (tidy : g.Tidies L) : Tidies L (bindingTarget g) := by
  intro s on
  refine .bind_current (.ite (fun _ => (objectLiteral_settles tidy).tidies s on) fun _ => ?_)
  refine .ite (fun _ => (arrayLiteral_settles tidy).tidies s on) fun _ => ?_
  refine .ite (fun isWord => identifier_tidies s on (Token.isStray_of_isWord isWord)) fun _ => ?_
  exact ((complain_settles _).tidies.bind fun _ => .pure _) s on

theorem classMember_passes (tidy : g.Tidies L) : Passes L (classMember g) := by
  refine (accept_passes _).bind fun _ => .ite (.pure _) ?_
  refine (skipDecorators_tidies tidy).passes.bind fun _ => .look (fun _ => rfl) fun _ => ?_
  refine .look (fun _ => rfl) fun _ => .look (fun _ => rfl) fun _ => .ite ?_ ?_
  · -- A static block.
    exact (skip_passes 1).bind fun _ => (block_settles tidy).tidies.passes.bind fun _ => .pure _
  refine (skipWhile_passes _).bind fun _ => .look (fun _ => rfl) fun _ => ?_
  refine .look (fun _ => rfl) fun _ => .look (fun _ => rfl) fun _ => .ite ?_ ?_
  · -- An index signature.
    exact skipGroup_passes.bind fun _ => skipAnnotation_passes.bind fun _ =>
      (accept_passes _).discard.bind fun _ => .pure _
  refine memberModifiers_tidies.passes.bind fun _ => (propertyKey_tidies tidy).passes.bind fun key => ?_
  cases key with
  | none => exact .pure _
  | some key =>
      refine Passes.bind ?_ fun _ => .pure _
      refine (acceptOneOf_passes _).discard.bind fun _ => .look (fun _ => rfl) fun _ => ?_
      refine .ite (methodRest_settles tidy _ _ _ _).tidies.passes ?_
      refine skipAnnotation_passes.bind fun _ => (initializer_tidies tidy).passes.bind fun _ => ?_
      exact (accept_passes _).discard.bind fun _ => (close_tidies _ _).passes

theorem classMembers_passes (tidy : g.Tidies L) : Passes L (classMembers g) := by
  refine .iterate fun members => .look (fun _ => rfl) fun _ => .ite (.pure _) ?_
  refine .look (fun _ => rfl) fun _ => (classMember_passes tidy).bind fun member =>
    .look (fun _ => rfl) fun _ => .ite ?_ (.pure _)
  intro s on
  refine .bind_advance ?_
  rw [on.start_current]
  refine (complainAt_spec (on.skip 1) _ _).bind fun _ s₁ complained => .pure ?_
  exact (Reads.skip on 1).trans complained.reads

theorem className_passes : Passes L className :=
  .look (fun _ => rfl) fun _ => .ite
    ((advance_passes.bind fun _ => .pure _ : Passes L identifier).bind fun _ => .pure _) (.pure _)

theorem heritage_passes (tidy : g.Tidies L) : Passes L (heritage g) :=
  (acceptWord_passes _).bind fun _ => .ite (tidy.primary.passes.bind fun _ =>
    (chain_tidies tidy _ _).passes.bind fun _ => skipTypeParameters_passes.bind fun _ => .pure _)
    (.pure _)

/-- A class ends with its brace. -/
theorem classNode_settles (tidy : g.Tidies L) : Settles L (classNode g) := by
  have body : ∀ start name heritage, Settles L (do
      if ← expect .openBrace then
        let members ← classMembers g
        discard (expect .closeBrace)
        close start (.classNode name heritage members)
      else close start (.classNode name heritage [])) := fun _ _ _ => by
    refine Settles.bind (expect_settles _) fun _ => .ite (fun _ => ?_) fun _ => close_tidies _ _
    exact ((classMembers_passes tidy).bind_settles fun _ =>
      Settles.bind (expect_settles _).discard fun _ => close_tidies _ _).tidies
  refine .look (fun _ => rfl) fun _ => (acceptWord_passes _).discard.bind_settles fun _ => ?_
  refine (skip_passes 1).bind_settles fun _ => className_passes.bind_settles fun _ => ?_
  refine skipTypeParameters_passes.bind_settles fun _ =>
    (heritage_passes tidy).bind_settles fun _ => ?_
  refine (acceptWord_passes _).bind_settles fun _ s on => ?_
  exact .ite (fun _ => (skipHeading_passes _).bind_settles (fun _ => body _ _ _) s on)
    fun _ => body _ _ _ s on

/-! ## §6. Expressions. -/

theorem newExpression_tidies (tidy : g.Tidies L) : TidiesOn L (newExpression g) := by
  have operand : Tidies L (newOperand g) := fun s on => .bind_current <|
    .ite (fun isNew => tidy.newExpression s on (Token.isStray_of_isTheWord isNew)) fun _ =>
      tidy.primary s on
  intro s on notStray
  have first := Tidy.skip_one on notStray
  refine .bind_advance (.bind_current (.ite (fun _ => .pure first) fun _ => ?_))
  refine Tidies.after ?_ first
  refine operand.bind fun _ => (chain_tidies tidy _ _).bind fun _ => ?_
  refine Tidies.bind (.look (fun _ => rfl) fun _ => ?_) fun _ => close_tidies _ _
  exact .ite (fun _ => (arguments_tidies tidy).bind fun _ => .pure _) fun _ => .pure _

theorem parenthesized_settles (tidy : g.Tidies L) : Settles L (parenthesized g) :=
  advance_passes.bind_settles fun _ =>
    (allowingIn_tidies (expression_tidies tidy)).passes.bind_settles fun _ =>
      Settles.bind (expect_settles _).discard fun _ => close_tidies _ _

theorem wordOperand_tidies (tidy : g.Tidies L) (on : s.On L) {name : Text}
    (same : s.current.lexeme = .word name) :
    Ensures (wordOperand g s.current name) s fun _ s' => Tidy L s s' := by
  have notStray := Token.isStray_of_lexeme same fun _ => Lexeme.noConfusion
  refine .bind_peek (.ite (fun _ => (function_settles tidy _).tidies s on) fun _ => ?_)
  refine .ite (fun _ => (classNode_settles tidy).tidies s on) fun _ => ?_
  refine .ite (fun _ => newExpression_tidies tidy s on notStray) fun _ => .bind_skip ?_
  split <;> exact .pure (.skip_one on notStray)

/-- A character that begins no token is never taken for an operand without a complaint. -/
theorem noOperand_tidies (on : s.On L) :
    Ensures (noOperand s.current) s fun _ s' => Tidy L s s' := by
  refine .ite (fun _ => .pure (.refl on)) fun _ => .bind_skip ?_
  refine (complainAt_settled on rfl _ 1).bind fun _ _ settled => .pure ?_
  exact ⟨settled.1, .inr settled.2⟩

theorem primary_tidies (tidy : g.Tidies L) : Tidies L (primary g) := by
  intro s on
  refine .bind_current ?_
  split
  · next same => exact wordOperand_tidies tidy on same
  · next same =>
      exact leaf_tidies (fun t => .numericLiteral t.lexeme.value) s on
        (Token.isStray_of_lexeme same fun _ => Lexeme.noConfusion)
  · next quote value same =>
      exact leaf_tidies (fun _ => .stringLiteral value quote) s on
        (Token.isStray_of_lexeme same fun _ => Lexeme.noConfusion)
  · next same =>
      exact template_tidies tidy s on (Token.isStray_of_lexeme same fun _ => Lexeme.noConfusion)
  · next same =>
      exact template_tidies tidy s on (Token.isStray_of_lexeme same fun _ => Lexeme.noConfusion)
  · next same =>
      exact Tidies.bind_skip on (Token.isStray_of_lexeme same fun _ => Lexeme.noConfusion) fun _ =>
        .pure _
  · exact (parenthesized_settles tidy).tidies s on
  · exact (arrayLiteral_settles tidy).tidies s on
  · exact (objectLiteral_settles tidy).tidies s on
  · exact ((skipDecorators_tidies tidy).bind fun _ => tidy.primary) s on
  · exact noOperand_tidies on

theorem stepped_tidies (tidy : g.Tidies L) : Tidies L (stepped g) := by
  refine (primary_tidies tidy).bind fun _ => (chain_tidies tidy _ _).bind fun _ s on => ?_
  refine .bind_current (.ite (fun isStep => ?_) fun _ => .pure (.refl on))
  rw [Bool.and_eq_true] at isStep
  exact Tidies.bind_skip on (Token.isStray_of_isOneOf isStep.1) fun _ => .pure _

theorem unaryBody_tidies (tidy : g.Tidies L) : Tidies L (unaryBody g) := by
  intro s on
  refine .bind_current (.bind_peek ?_)
  split
  · next found =>
      exact Tidies.bind_skip on (isStray_of_unaryOperator? found) fun _ =>
        tidy.unary.bind fun _ => close_tidies _ _
  · refine .ite (fun _ => ?_) fun _ => stepped_tidies tidy s on
    refine (skipAngles_tidies.bind fun _ => .ite (fun _ => ?_) fun _ => stepped_tidies tidy) s on
    exact tidy.unary.bind fun _ => close_tidies _ _

theorem unary_tidies (tidy : g.Tidies L) : Tidies L (unary g) :=
  nested_tidies (unaryBody_tidies tidy)

theorem binaryRest_tidies (tidy : g.Tidies L) (minimum : Nat) (left : Tree) :
    Tidies L (binaryRest g minimum left) := by
  refine .iterate fun _ s on => .bind_get ?_
  split
  · exact .pure (.refl on)
  · next connective found =>
      refine .ite (fun _ => .pure (.refl on)) fun _ => ?_
      refine Tidies.bind_skip on (isStray_of_connective? found) fun _ => ?_
      cases connective with
      | assertion assertion =>
          exact skipType_tidies.bind fun _ => (close_tidies _ _).bind fun _ => .pure _
      | binary op =>
          exact (tidy.binary _).bind fun _ => (close_tidies _ _).bind fun _ => .pure _

theorem binary_tidies (tidy : g.Tidies L) (minimum : Nat) : Tidies L (binary g minimum) :=
  (unary_tidies tidy).bind fun _ => binaryRest_tidies tidy minimum _

theorem conditional_tidies (tidy : g.Tidies L) : Tidies L (conditional g) := by
  refine (binary_tidies tidy 0).bind fun _ => (accept_tidies _).bind fun _ => ?_
  refine .ite (fun _ => ?_) fun _ => .pure _
  refine (allowingIn_tidies tidy.assignment).bind fun _ => ?_
  exact (expect_settles _).discard.tidies.bind fun _ => tidy.assignment.bind fun _ =>
    close_tidies _ _

/-- **An expression without commas ends tidily.** -/
theorem assignment_tidies (tidy : g.Tidies L) : Tidies L (assignment g) := by
  refine nested_tidies (.look (fun _ => rfl) fun _ => ?_)
  refine .ite (fun _ => (arrowFunction_settles tidy).tidies) fun _ => ?_
  refine (conditional_tidies tidy).bind fun _ s on => .bind_current ?_
  split
  · next found =>
      exact Tidies.bind_skip on (isStray_of_assignOperator? found) fun _ =>
        tidy.assignment.bind fun _ => close_tidies _ _
  · exact .pure (.refl on)

end Parser

/-! ## §7. The knot. -/

namespace Grammar

variable {L : Layout} {g : Grammar}

theorem spent_tidies (L : Layout) : spent.Tidies L where
  statement := fun _ _ => .throw
  assignment := fun _ _ => .throw
  unary := fun _ _ => .throw
  binary := fun _ _ _ => .throw
  primary := fun _ _ => .throw
  newExpression := fun _ _ _ => .throw
  bindingTarget := fun _ _ => .throw

/-- One more level of nested calls; what a statement reads is the matter of the caller. -/
theorem Tidies.around (tidy : g.Tidies L) (statement : Parser.Passes L (Parser.statement g)) :
    g.around.Tidies L where
  statement := statement
  assignment := Parser.assignment_tidies tidy
  unary := Parser.unary_tidies tidy
  binary := Parser.binary_tidies tidy
  primary := Parser.primary_tidies tidy
  newExpression := Parser.newExpression_tidies tidy
  bindingTarget := Parser.bindingTarget_tidies tidy

end Grammar

end StackLint
