/-
  StackLint.Proofs.Parse.Extent
  ─────────────────────────────
  **EXPRESSIONS FILL THEIR TOKENS.**

  An expression begins with the first token that is read for it, and unless it is empty it
  ends with the last one.  Decorators leave no trace in the tree, so what they decorate
  begins behind them.
-/
import StackLint.Proofs.Parse.Expression

namespace StackLint

namespace Parser

variable {L : Layout} {g : Grammar} {s s₀ s₁ : ParserState}

/-! ## §1. Trees that fill their tokens. -/

/-- The tree begins with the token that comes next at `s`, and unless it is empty it ends with
the last one that was read in front of `s'`. -/
structure Fills (s : ParserState) (tree : Tree) (s' : ParserState) : Prop where
  start : tree.info.start = s.current.start
  stop : tree.info.start < tree.info.stop → tree.info.stop = s'.lastStop

/-- What the parser reads fills its tokens, unless a decorator comes first. -/
def FillsTokens (L : Layout) (p : Parser Tree) : Prop :=
  ∀ s, s.On L → s.current.is .atSign = false → Ensures p s (Fills s)

/-- A node of one token. -/
theorem Fills.leaf (on : s.On L) (more : s.position < L.size) (form : Form Tree) :
    Fills s (leaf s.current form) (s.skip 1) :=
  ⟨rfl, fun _ => stop_current on more⟩

/-- What is missing is empty. -/
theorem Fills.missing (c : Complaint) : Fills s (missing s.current c) s₁ :=
  ⟨rfl, fun never => absurd never (Nat.lt_irrefl _)⟩

/-- A node that is closed at the end. -/
theorem Ensures.close_fills {form : Form Tree} :
    Ensures (Parser.close s.current.start form) s₁ (Fills s) :=
  .close ⟨rfl, fun _ => rfl⟩

/-- A node that begins where its first part does. -/
theorem Fills.close_extended {first : Tree} (fills : Fills s first s₀) {form : Form Tree} :
    Ensures (Parser.close first.info.start form) s₁ (Fills s) :=
  .close ⟨fills.start, fun _ => rfl⟩

theorem skipTooDeep_fills (s : ParserState) : Ensures skipTooDeep s (Fills s) := by
  refine .bind_current (.bind_position ?_)
  refine .behind fun _ s₁ => .behind fun _ s₂ => .bind_position ?_
  exact .ite (fun _ => .pure (.missing _)) fun _ => .close_fills

theorem nested_fills {parse : Parser Tree} (fills : FillsTokens L parse) :
    FillsTokens L (nested parse) := by
  intro s on plain
  refine .bind_get (.ite (fun _ => skipTooDeep_fills s) fun _ => ?_)
  -- The depth says nothing about the tokens.
  have deeper : ParserState.On { s with depth := s.depth + 1 } L :=
    ⟨on.ahead, on.final, on.inside, on.total, on.lastStop⟩
  refine .bind (P := fun _ s' => s' = { s with depth := s.depth + 1 }) (.modify rfl) ?_
  rintro _ _ rfl
  refine (fills _ deeper plain).bind fun tree s₁ filled => ?_
  refine .bind (P := fun _ s' => s' = { s₁ with depth := s₁.depth - 1 }) (.modify rfl) ?_
  rintro _ _ rfl
  exact .pure ⟨filled.start, filled.stop⟩

/-! ## §2. Operands. -/

theorem template_fills (on : s.On L) (more : s.position < L.size) :
    Ensures (template g) s (Fills s) := by
  refine .bind_advance ?_
  split
  · exact .behind fun _ _ => .close_fills
  · exact .pure (.leaf on more _)

theorem function_fills (g : Grammar) (declaration : Bool) (s : ParserState) :
    Ensures (function g declaration) s (Fills s) := by
  refine .bind_current (.behind fun _ _ => .behind fun _ _ => .behind fun _ _ => ?_)
  refine .behind fun _ _ => .behind fun _ _ => .behind fun _ _ => .behind fun _ _ => ?_
  refine .behind fun _ _ => .ite (fun _ => ?_) fun _ => .close_fills
  exact .behind fun _ _ => .close_fills

theorem classNode_fills (g : Grammar) (s : ParserState) : Ensures (classNode g) s (Fills s) := by
  have braces {name : Option Tree} {heritage : Option Tree} (s₁ : ParserState) :
      Ensures (do
        if ← expect .openBrace then
          let members ← classMembers g
          discard (expect .closeBrace)
          Parser.close s.current.start (.classNode name heritage members)
        else Parser.close s.current.start (.classNode name heritage [])) s₁ (Fills s) := by
    refine .behind fun _ _ => .ite (fun _ => ?_) fun _ => .close_fills
    exact .behind fun _ _ => .behind fun _ _ => .close_fills
  refine .bind_current (.behind fun _ _ => .behind fun _ _ => .behind fun _ _ => ?_)
  refine .behind fun _ _ => .behind fun _ _ => .behind fun _ _ => .ite (fun _ => ?_) fun _ => ?_
  · exact .behind fun _ _ => braces _
  · exact braces _

theorem arrowFunction_fills (g : Grammar) (s : ParserState) :
    Ensures (arrowFunction g) s (Fills s) := by
  refine .bind_current (.bind_current (.bind_peek (.ite (fun _ => ?_) fun _ => ?_)))
  · exact .behind fun _ _ => .behind fun _ _ => .behind fun _ _ => .behind fun _ _ => .close_fills
  · exact .behind fun _ _ => .behind fun _ _ => .behind fun _ _ => .close_fills

theorem newExpression_fills (on : s.On L) (more : s.position < L.size) :
    Ensures (newExpression g) s (Fills s) := by
  refine .bind_advance (.bind_current (.ite (fun _ => .pure (.leaf on more _)) fun _ => ?_))
  exact .behind fun _ _ => .behind fun _ _ => .behind fun _ _ => .close_fills

theorem wordOperand_fills (on : s.On L) (more : s.position < L.size) (name : Text) :
    Ensures (wordOperand g s.current name) s (Fills s) := by
  refine .bind_peek (.ite (fun _ => function_fills g false s) fun _ => ?_)
  refine .ite (fun _ => classNode_fills g s) fun _ => .ite (fun _ => newExpression_fills on more) ?_
  intro _
  refine .bind_skip ?_
  split
  · exact .pure (.leaf on more _)
  · exact .pure (.leaf on more _)

theorem noOperand_fills (on : s.On L) : Ensures (noOperand s.current) s (Fills s) := by
  refine .ite (fun _ => .pure (.missing _)) fun more => ?_
  rw [Bool.or_eq_true, Bool.or_eq_true, not_or, not_or] at more
  have inside := on.lt_size (Bool.eq_false_iff.mpr more.1.1)
  have same := stop_current on inside
  refine .bind_skip (.bind (P := fun _ s' => s'.lastStop = (s.skip 1).lastStop) (.modify rfl) ?_)
  exact fun _ s' stays => .pure ⟨rfl, fun _ => same.trans stays.symm⟩

theorem primary_fills (g : Grammar) : FillsTokens L (primary g) := by
  intro s on plain
  refine .bind_current ?_
  split
  · next name isWord =>
      exact wordOperand_fills on (lt_size_of_lexeme on (by rw [isWord]; nofun)) name
  · next raw isNumber =>
      exact .bind_advance (.pure (.leaf on (lt_size_of_lexeme on (by rw [isNumber]; nofun)) _))
  · next quote value isString =>
      exact .bind_advance (.pure (.leaf on (lt_size_of_lexeme on (by rw [isString]; nofun)) _))
  · next isTemplate => exact template_fills on (lt_size_of_lexeme on (by rw [isTemplate]; nofun))
  · next isHead => exact template_fills on (lt_size_of_lexeme on (by rw [isHead]; nofun))
  · next raw isRegex =>
      exact .bind_skip (.pure (.leaf on (lt_size_of_lexeme on (by rw [isRegex]; nofun)) _))
  · exact .bind_advance (.behind fun _ _ => .behind fun _ _ => .close_fills)
  · exact .bind_advance (.behind fun _ _ => .behind fun _ _ => .close_fills)
  · exact .bind_advance (.behind fun _ _ => .behind fun _ _ => .close_fills)
  · next isAt =>
      unfold Token.is at plain
      rw [isAt] at plain
      cases plain
  · exact noOperand_fills on

/-! ## §3. Chains. -/

/-- What is known between the links of a chain.  The node lags behind the tokens that were read
if the next one has to go on with it. -/
structure Linked (L : Layout) (s : ParserState) (expr : Tree) (s' : ParserState) : Prop where
  on : s'.On L
  start : expr.info.start = s.current.start
  fills : s'.current.is .openParen = false → s'.current.opensTemplate = false → Fills s expr s'

theorem Linked.of_fills {expr : Tree} (on : s₁.On L) (fills : Fills s expr s₁) :
    Linked L s expr s₁ :=
  ⟨on, fills.start, fun _ _ => fills⟩

/-- A link that is closed at the end. -/
theorem Linked.close {expr : Tree} {form : Form Tree} (linked : Linked L s expr s₀)
    (on : s₁.On L) : Ensures (Parser.close expr.info.start form) s₁ (Linked L s) :=
  .close (.of_fills on ⟨linked.start, fun _ => rfl⟩)

theorem optionalLink_linked (sound : g.Sound L) {expr : Tree} (linked : Linked L s expr s₀) :
    Ensures (optionalLink g expr) s₀ (Linked L s) := by
  have on := linked.on.skip 1
  refine .bind_skip (.bind_current (.ite (fun opens => ?_) fun _ => ?_))
  · exact (arguments_spec sound on opens).bind fun _ _ h => linked.close h.laid.reads.on
  refine (accept_passes _ _ on).bind fun _ s₁ reads => .ite (fun _ => ?_) fun _ => ?_
  · refine (expression_builds sound s₁ reads.on).bind fun _ s₂ built => ?_
    exact ((expect_passes _).discard s₂ built.laid.reads.on).bind fun _ _ reads =>
      linked.close reads.on
  · exact (propertyName_builds s₁ reads.on).bind fun _ _ built => linked.close built.laid.reads.on

/-- **A chain fills its tokens** if its operand does.  Behind type arguments there is always
one more link. -/
theorem chain_fills (sound : g.Sound L) {operand : Tree} (fills : Fills s operand s₀)
    (on : s₀.On L) : Ensures (chain g true operand) s₀ (Fills s) := by
  refine .iterate (I := Linked L s) (.of_fills on fills) fun expr s₁ linked => ?_
  have on := linked.on
  have again {p : Parser Tree} {s₂ : ParserState} (link : Ensures p s₂ (Linked L s)) :
      Ensures (do return Round.again (← p) : Parser (Round Tree Tree)) s₂
        fun r s' => r.Keeps (Linked L s) (Fills s) s' :=
    link.bind fun _ _ linked => .pure linked
  refine .bind_current ?_
  refine .ite (fun _ => ?_) fun _ => .ite (fun _ => ?_) fun _ => .ite (fun _ => ?_) fun _ =>
    .ite (fun isCall => ?_) fun noCall => .ite (fun isTagged => ?_) fun noTag =>
    .ite (fun isBang => ?_) fun _ => ?_
  · refine .bind_skip ?_
    exact (propertyName_builds _ (on.skip 1)).bind fun _ _ built =>
      again (linked.close built.laid.reads.on)
  · exact again (optionalLink_linked sound linked)
  · refine .bind_skip ?_
    refine (expression_builds sound _ (on.skip 1)).bind fun _ s₂ built => ?_
    exact ((expect_passes _).discard s₂ built.laid.reads.on).bind fun _ _ reads =>
      again (linked.close reads.on)
  · exact (arguments_spec sound on (Bool.and_eq_true_iff.mp isCall).1).bind fun _ _ h =>
      again (linked.close h.laid.reads.on)
  · have opens := (Bool.and_eq_true_iff.mp isTagged).1
    refine (template_spec sound on opens).bind fun template s₂ h => .pure ?_
    exact .of_fills h.1.laid.reads.on ⟨linked.start, fun _ => h.2⟩
  · have more := lt_size_of_is on (Bool.and_eq_true_iff.mp isBang).1
    exact .bind_skip (.pure (.of_fills (on.skip 1) ⟨linked.start, fun _ => stop_current on more⟩))
  · -- Where no link comes next, the node does not lag behind.
    rw [Bool.and_true, Bool.not_eq_true] at noCall noTag
    have fills := linked.fills noCall noTag
    refine .ite (fun _ => .bind_get ?_) fun _ => .pure fills
    split
    · exact .pure fills
    · next width _ =>
        refine .bind_peek (.ite (fun goesOn => .bind_skip (.pure ?_)) fun _ => .pure fills)
        have isNext : (s₁.skip width).current = s₁.peek width := by
          unfold ParserState.current ParserState.peek ParserState.skip
          rw [List.head?_drop]
        refine ⟨on.skip width, linked.start, fun noParen noTemplate => ?_⟩
        rw [isNext] at noParen noTemplate
        rw [noParen, noTemplate] at goesOn
        cases goesOn

theorem stepped_fills (sound : g.Sound L) : FillsTokens L (stepped g) := by
  intro s on plain
  have operand := (primary_builds sound s on).and (primary_fills g s on plain)
  refine operand.bind fun operand s₁ ⟨built, fills⟩ => ?_
  have links := (chain_spec sound true built).and (chain_fills sound fills built.laid.reads.on)
  refine links.bind fun expr s₂ ⟨built, fills⟩ => ?_
  have on₂ := built.laid.reads.on
  refine .bind_current (.ite (fun isStep => ?_) fun _ => .pure fills)
  have more := on₂.lt_size (isEnd_of_isOneOf (Bool.and_eq_true_iff.mp isStep).1)
  exact .bind_skip (.pure ⟨fills.start, fun _ => stop_current on₂ more⟩)

/-! ## §4. Operators. -/

/-- Where no group in angles comes next, nothing is read. -/
theorem skipAngles_stays (s : ParserState) :
    Ensures skipAngles s fun found s' => found = false → s' = s := by
  refine .bind_get ?_
  split
  · exact .bind_skip (.pure fun never => nomatch never)
  · exact .pure fun _ => rfl

theorem unaryBody_fills (sound : g.Sound L) : FillsTokens L (unaryBody g) := by
  intro s on plain
  refine .bind_current (.bind_peek ?_)
  split
  · exact .bind_skip (.behind fun _ _ => .close_fills)
  refine .ite (fun _ => ?_) fun _ => stepped_fills sound s on plain
  refine (skipAngles_stays s).bind fun found s₁ stays => .ite (fun _ => ?_) fun notFound => ?_
  · exact .behind fun _ _ => .close_fills
  · rw [stays (Bool.eq_false_iff.mpr notFound)]
    exact stepped_fills sound s on plain

theorem unary_fills (sound : g.Sound L) : FillsTokens L (unary g) :=
  nested_fills (unaryBody_fills sound)

/-- Every operator is followed by an operand, with which the node is closed. -/
theorem binaryRest_fills (g : Grammar) (minimum : Nat) {left : Tree} (fills : Fills s left s₀) :
    Ensures (binaryRest g minimum left) s₀ (Fills s) := by
  refine .iterate (I := Fills s) fills fun left s₁ fills => .bind_get ?_
  split
  · exact .pure fills
  · next connective _ =>
      refine .ite (fun _ => .pure fills) fun _ => .bind_skip ?_
      cases connective with
      | assertion =>
          exact .behind fun _ _ => fills.close_extended.bind fun _ _ closed => .pure closed
      | binary =>
          exact .behind fun _ _ => fills.close_extended.bind fun _ _ closed => .pure closed

theorem binary_fills (sound : g.Sound L) (minimum : Nat) : FillsTokens L (binary g minimum) :=
  fun s on plain => (unary_fills sound s on plain).bind fun _ _ fills =>
    binaryRest_fills g minimum fills

theorem conditional_fills (sound : g.Sound L) : FillsTokens L (conditional g) := by
  intro s on plain
  have test := (binary_builds sound 0 s on).and (binary_fills sound 0 s on plain)
  refine test.bind fun test s₁ ⟨built, fills⟩ => ?_
  refine (accept_spec built.laid.reads.on .question).bind fun found s₂ accepts => ?_
  refine .ite (fun _ => ?_) fun notFound => ?_
  · exact .behind fun _ _ => .behind fun _ _ => .behind fun _ _ => fills.close_extended
  · rw [(accepts.no (Bool.eq_false_iff.mpr notFound)).1]
    exact .pure fills

theorem assignmentBody_fills (sound : g.Sound L) : FillsTokens L (assignmentBody g) := by
  intro s on plain
  refine .bind_get (.ite (fun _ => arrowFunction_fills g s) fun _ => ?_)
  refine (conditional_fills sound s on plain).bind fun target s₁ fills => .bind_current ?_
  split
  · exact .bind_skip (.behind fun _ _ => fills.close_extended)
  · exact .pure fills

/-- **An expression without commas fills its tokens.** -/
theorem assignment_fills (sound : g.Sound L) : FillsTokens L (assignment g) :=
  nested_fills (assignmentBody_fills sound)

/-- **An expression fills its tokens.** -/
theorem expression_fills (sound : g.Sound L) (assignment : FillsTokens L g.assignment) :
    FillsTokens L (expression g) := by
  intro s on plain
  have first := (sound.assignment s on).and (assignment s on plain)
  refine first.bind fun first s₁ ⟨built, fills⟩ => ?_
  refine .iterate (I := fun left s' => s'.On L ∧ Fills s left s') ⟨built.laid.reads.on, fills⟩ ?_
  rintro left s₂ ⟨on, fills⟩
  refine (accept_spec on .comma).bind fun found s₃ accepts => .ite (fun _ => ?_) fun notFound => ?_
  · refine (sound.assignment s₃ accepts.reads.on).bind fun right s₄ built => ?_
    exact .bind (P := fun tree s' => s'.On L ∧ Fills s tree s')
      (.close ⟨built.laid.reads.on, fills.start, fun _ => rfl⟩) fun _ _ closed => .pure closed
  · rw [(accepts.no (Bool.eq_false_iff.mpr notFound)).1]
    exact .pure fills

end Parser

end StackLint
