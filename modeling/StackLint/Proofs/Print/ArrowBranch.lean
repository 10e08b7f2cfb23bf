/-
  StackLint.Proofs.Print.ArrowBranch
  ──────────────────────────────────
  **AN ARROW FUNCTION AS A BRANCH.**

  In `a ? b : p => c` the second branch is an arrow function.  It is read as one unless the
  first branch ends with a value in parentheses: then the name behind the colon is taken for
  the return type of an arrow function with these parentheses for its parameters.
-/
import StackLint.Proofs.Parse.Ensures
import StackLint.Proofs.Print.Exhausts

namespace StackLint

/-! ## §1. Arrow functions. -/

/-- The arrow function of a single parameter without parentheses. -/
def Shape.arrow (parameter : Text) (body : Shape) : Shape :=
  .mk () (.arrowFunction [.mk () (.parameter (.mk () (.identifier parameter)) none false)] body
    ⟨none, false⟩)

theorem IsPlainName.notAsync {p : Text} (plain : IsPlainName p) (start stop : Nat)
    (newline : Bool) : Token.isTheWord ⟨.word p, start, stop, newline⟩ "async" = false := by
  refine beq_eq_false_iff_ne.mpr fun same => ?_
  injection same with same
  exact plain.plain "async" (by decide) same

namespace Parser

variable {total depth : Nat} {g : Grammar} {p : Text} {ls rest : List Lexeme}

/-- A word in front of an arrow begins an arrow function. -/
theorem arrowAhead_word (plain : IsPlainName p) {tokens : List Token}
    (row : InRow (.word p :: .punct .arrow :: ls) tokens) : Lookahead.arrowAhead tokens = true := by
  obtain ⟨t, later, rfl, isWord, behind⟩ := row.of_cons
  obtain ⟨arrow, later, rfl, isArrow, _⟩ := behind.of_cons
  rw [isWord.eq, isArrow.eq_arrow, arrowAhead_of_not_async (plain.notAsync _ _ _)]
  rfl

/-- A lone name is the only parameter. -/
theorem Consumes.arrowParameters :
    Consumes total depth (.word p :: .punct .arrow :: ls) (arrowParameters g) (.punct .arrow :: ls)
      fun read => read.2 = none ∧ read.1.map Node.shape
        = [.mk () (.parameter (.mk () (.identifier p)) none false)] := by
  refine .bind_current fun start stop newline => ?_
  rw [firstOf_cons, if_pos (show Token.isWord ⟨.word p, start, stop, newline⟩ = true from rfl)]
  refine Consumes.identifier.bind fun name same => .pure ⟨rfl, ?_⟩
  rw [List.map_singleton, Node.shape_mk, Form.map, same]
  rfl

/-- An arrow function of a lone name. -/
theorem Consumes.arrowFunction {body : Shape} (plain : IsPlainName p)
    (ofBody : Consumes total depth ls (arrowBody g) rest (·.shape = body)) :
    Consumes total depth (.word p :: .punct .arrow :: ls) (arrowFunction g) rest
      (·.shape = .arrow p body) := by
  refine .bind_current fun _ _ _ => .bind_current fun _ _ _ => .bind_peek fun _ _ _ => ?_
  rw [firstOf_cons, plain.notAsync, Bool.false_and, if_neg Bool.false_ne_true]
  refine Consumes.arrowParameters.bind fun ⟨params, span⟩ ⟨isNone, same⟩ => .bind_expect ?_
  obtain rfl : span = none := isNone
  refine ofBody.bind fun tree same' => .close fun _ => ?_
  rw [Node.shape_mk, Form.map, same', same]
  rfl

end Parser

/-! ## §2. What cannot be read. -/

namespace Parser

/-- Where the lexemes come next, whatever the parser ends with satisfies `P`. -/
def Yields {α : Type} (total depth : Nat) (before : List Lexeme) (p : Parser α) (P : α → Prop) : Prop :=
  ∀ s, s.Sees total depth before → Ensures p s fun a _ => P a

namespace Yields

variable {α β : Type} {total depth : Nat} {before between : List Lexeme} {P : α → Prop} {Q : β → Prop}

/-- What is yielded behind something that was read. -/
theorem behind {p : Parser α} {k : α → Parser β} (first : Consumes total depth before p between P)
    (next : ∀ a, P a → Yields total depth between (k a) Q) :
    Yields total depth before (p >>= k) Q := by
  intro s sees
  obtain ⟨a, s', run, sees', holds⟩ := first s sees
  refine Ensures.bind (P := fun b s₁ => b = a ∧ s₁ = s') (fun b s₁ run' => ?_) ?_
  · rw [run] at run'
    cases run'
    exact ⟨rfl, rfl⟩
  · rintro _ _ ⟨rfl, rfl⟩
    exact next _ holds _ sees'

/-- What is yielded stays, whatever comes behind it. -/
theorem bind {p : Parser α} {k : α → Parser β} (first : Yields total depth before p P)
    (next : ∀ a, P a → ∀ s, Ensures (k a) s fun b _ => Q b) :
    Yields total depth before (p >>= k) Q :=
  fun s sees => (first s sees).bind fun a s' holds => next a holds s'

theorem nested {parse : Parser Tree} {P : Tree → Prop} (shallow : depth < maxNesting)
    (inner : Yields total (depth + 1) before parse P) :
    Yields total depth before (Parser.nested parse) P := by
  intro s sees
  have atDepth := sees.depth
  refine .bind_get (.ite (fun deep => absurd deep (by omega)) fun _ => ?_)
  refine .bind (P := fun _ s₁ => s₁.Sees total (depth + 1) before) (.modify ?_) fun _ s₁ sees₁ => ?_
  · exact { sees with depth := by rw [atDepth] }
  · refine (inner s₁ sees₁).bind fun tree s₂ holds => ?_
    exact Ensures.behind fun _ _ => .pure holds

theorem allowingIn {p : Parser α} (inner : Yields total depth before p P) :
    Yields total depth before (Parser.allowingIn p) P := by
  intro s sees
  refine .bind_get ?_
  refine .bind (P := fun _ s₁ => s₁.Sees total depth before) (.modify ?_) fun _ s₁ sees₁ => ?_
  · exact { sees with noIn := rfl }
  · refine (inner s₁ sees₁).bind fun a s₂ holds => ?_
    exact Ensures.behind fun _ _ => .pure holds

variable {g : Grammar} {e test consequent alternate : Shape}

/-! ## §3. Conditionals and assignments. -/

/-- The first branch is not read as what it should be. -/
theorem conditional_first {branches : List Lexeme}
    (ofTest : Consumes total depth before (binary g 0) (.punct .question :: branches)
      (·.shape = test))
    (wrong : Yields total depth branches g.assignment (·.shape ≠ consequent)) :
    Yields total depth before (Parser.conditional g)
      (·.shape ≠ .mk () (.conditional test consequent alternate)) := by
  refine .behind ofTest fun tree _ => ?_
  refine .behind (Consumes.acceptOneOf_yes (List.mem_singleton_self _)) ?_
  rintro _ rfl
  refine .bind wrong.allowingIn fun tree' other s => ?_
  refine Ensures.behind fun _ _ => Ensures.behind fun tree'' _ => .close ?_
  intro same
  rw [Node.shape_mk, Form.map] at same
  injection same with _ same
  injection same with _ same
  exact other same

/-- The second branch is not read as what it should be. -/
theorem conditional_second {branches second : List Lexeme}
    (ofTest : Consumes total depth before (binary g 0) (.punct .question :: branches)
      (·.shape = test))
    (ofConsequent : Consumes total depth branches g.assignment (.punct .colon :: second)
      (·.shape = consequent))
    (wrong : Yields total depth second g.assignment (·.shape ≠ alternate)) :
    Yields total depth before (Parser.conditional g)
      (·.shape ≠ .mk () (.conditional test consequent alternate)) := by
  refine .behind ofTest fun tree _ => ?_
  refine .behind (Consumes.acceptOneOf_yes (List.mem_singleton_self _)) ?_
  rintro _ rfl
  refine .behind ofConsequent.allowingIn fun tree' _ => .behind Consumes.expect.discard fun _ _ => ?_
  refine .bind wrong fun tree'' other s => .close ?_
  intro same
  rw [Node.shape_mk, Form.map] at same
  injection same with _ same
  injection same with _ _ same
  exact other same

/-- Neither is an expression read that is no assignment. -/
theorem assignment_of_conditional (shallow : depth < maxNesting) (noArrow : NoArrow before)
    (noAssignment : ∀ op target value, e ≠ .mk () (.assignment op target value))
    (wrong : Yields total (depth + 1) before (Parser.conditional g) (·.shape ≠ e)) :
    Yields total depth before (Parser.assignment g) (·.shape ≠ e) := by
  refine .nested shallow fun s sees => .bind_get ?_
  rw [noArrow _ sees.inRow, if_neg Bool.false_ne_true]
  refine (wrong s sees).bind fun tree s' other => .bind_current ?_
  split
  · refine Ensures.behind fun _ _ => Ensures.behind fun value _ => .close ?_
    rw [Node.shape_mk, Form.map]
    exact (noAssignment _ _ _).symm
  · exact .pure other

/-- The value of an assignment is not read as what it should be. -/
theorem assignment {op : AssignOp} {target value : Shape} (shallow : depth < maxNesting)
    (noArrow : NoArrow before)
    (ofTarget : Consumes total (depth + 1) before (Parser.conditional g)
      (.punct op.punct :: between) (·.shape = target))
    (wrong : Yields total (depth + 1) between g.assignment (·.shape ≠ value)) :
    Yields total depth before (Parser.assignment g) fun tree =>
      ∃ other, tree.shape = .mk () (.assignment op target other) ∧ other ≠ value := by
  refine .nested shallow fun s sees => .bind_get ?_
  rw [noArrow _ sees.inRow, if_neg Bool.false_ne_true]
  refine behind ofTarget (fun tree same s₁ sees₁ => ?_) s sees
  refine .bind_current ?_
  rw [sees₁.current.eq, firstOf_cons, assignOperator?_punct]
  refine behind .skip (fun _ _ s₂ sees₂ => ?_) s₁ sees₁
  refine (wrong s₂ sees₂).bind fun tree' s₃ other => .close ?_
  refine ⟨_, ?_, other⟩
  rw [Node.shape_mk, Form.map, same]

end Yields

end Parser

/-! ## §4. Parentheses that are taken for parameters. -/

section

variable {p : Text} {inner ls : List Lexeme}

theorem IsPlainName.isTypeName {start stop : Nat} {newline : Bool} (plain : IsPlainName p) :
    Lookahead.IsTypeName ⟨.word p, start, stop, newline⟩ := by
  have listed : ∀ t ∈ (Text.ofString "import" :: Lookahead.typeOperatorWords),
      ∃ w ∈ reservedWords, t = Text.ofString w := by
    decide
  refine ⟨rfl, Bool.eq_false_iff.mpr fun found => ?_⟩
  obtain ⟨w, isReserved, same⟩ := listed p (List.contains_iff_mem.mp found)
  exact plain.plain w isReserved same

/-- **A group in front of a name with an arrow** makes the parameters of an arrow function. -/
theorem arrowAhead_captured (contained : Contained inner) (plain : IsPlainName p) {tokens : List Token}
    (row : InRow (.punct .openParen :: (inner ++ .punct .closeParen :: .punct .colon :: .word p ::
      .punct .arrow :: ls)) tokens) : Lookahead.arrowAhead tokens = true := by
  obtain ⟨group, later, rfl, isLater, width, same⟩ := arrowAhead_group contained row
  obtain ⟨colon, later, rfl, isColon, behind⟩ := isLater.of_cons
  obtain ⟨name, later, rfl, isName, behind⟩ := behind.of_cons
  obtain ⟨arrow, later, rfl, isArrow, _⟩ := behind.of_cons
  have oneName : Lookahead.typeWidth true 0 0 (name :: arrow :: later) = 1 := by
    have noDot : ∀ t ∈ (arrow :: later).head?, t.lexeme ≠ .punct .dot := by
      rintro _ ⟨⟩
      rw [isArrow.lexeme]
      nofun
    rw [isName.eq, Lookahead.typeWidth_name plain.isTypeName]
    rw [show arrow :: later = [] ++ arrow :: later from rfl,
      Lookahead.namedTypeWidth_path plain.isTypeName .nil noDot, isArrow.eq_arrow]
    rfl
  rw [same]
  unfold Lookahead.arrowAfterParameters
  rw [width, List.drop_left, isColon.eq]
  dsimp only
  rw [oneName, isArrow.eq_arrow]
  rfl

end

namespace Parser

variable {total depth budget : Nat} {g : Grammar} {p : Text} {ls : List Lexeme}

theorem Ensures.arrowFunction {s : ParserState} :
    Ensures (arrowFunction g) s fun tree _ =>
      ∃ params body info, tree.shape = .mk () (.arrowFunction params body info) := by
  refine .bind_current (.bind_current (.bind_peek ?_))
  refine .ite_then (P := fun _ => True) (fun _ => Ensures.any _ _) (fun _ => True.intro)
    fun s _ => Ensures.behind fun parameters _ => ?_
  obtain ⟨params, span⟩ := parameters
  refine Ensures.behind fun _ _ => Ensures.behind fun body _ => .close ?_
  exact ⟨params.map Node.shape, body.shape, _, by rw [Node.shape_mk, Form.map]⟩

/-- **An expression that ends with a value in parentheses** is not read in front of a name with
an arrow. -/
theorem Yields.captured {e : Shape} (printable : Printable e) (parens : e.endsInParens = true)
    (plain : IsPlainName p) (fits : Fits (depth + 1) budget e) :
    Yields total depth (e.lexemes ++ .punct .colon :: .word p :: .punct .arrow :: ls)
      (Parser.assignment (.ofBudget budget)) (·.shape ≠ e) := by
  -- The value in parentheses is the last one, so the parts in front of it are read.
  induction printable generalizing depth budget with
  | parenthesized ofInner =>
      have shallow : depth < maxNesting := by
        have levels := fits.levels
        omega
      rw [lexemes_parenthesized]
      refine .nested shallow fun s sees => .bind_get ?_
      rw [arrowAhead_captured ofInner.phrase.contained plain sees.inRow, if_pos rfl]
      refine Ensures.arrowFunction.mono ?_
      rintro tree _ ⟨params, body, info, same⟩ same'
      rw [same] at same'
      injection same' with _ same'
      cases same'
  | @conditional test consequent alternate ofTest tight ofConsequent ofAlternate _ _ ih =>
      have noArrow : NoArrow (_ ++ .punct .colon :: .word p :: .punct .arrow :: ls) :=
        (Printable.conditional ofTest tight ofConsequent ofAlternate).noArrow
          (firstOf_ne_punct (by decide)) fun isParens => absurd isParens Bool.false_ne_true
      rw [Node.endsInParens_mk] at parens
      obtain ⟨calls, levels⟩ := fits
      simp only [Node.calls, Node.callsFrom_mk, Form.map, Form.calls] at calls
      simp only [Node.levels_mk, Form.map, Form.levels] at levels
      simp only [Node.lexemes_mk, Form.map, Form.lexemes, List.append_assoc, List.cons_append]
        at noArrow ⊢
      obtain ⟨fewer, rfl, covered⟩ := exists_fewer (Nat.le_trans (Nat.le_max_right _ _) calls)
      have noAssignment (op : AssignOp) (target value : Shape) :
          (.mk () (.conditional test consequent alternate) : Shape)
            ≠ .mk () (.assignment op target value) := by
        intro same
        injection same with _ same
        cases same
      refine .assignment_of_conditional (by omega) noArrow noAssignment (.conditional_second
        ((Legible.of_printable ofTest).asTerm.test tight ⟨?_, ?_⟩)
        ((Legible.of_printable ofConsequent).asValue.branch ?_ ?_ ofAlternate.phrase.contained rfl)
        (ih parens ⟨?_, ?_⟩))
      all_goals first | rw [Node.calls]; omega | omega
  | @assignment op target value ofTarget isTarget ofValue _ ih =>
      have assigns : Printable (.mk () (.assignment op target value)) :=
        .assignment ofTarget isTarget ofValue
      have noArrow : NoArrow (_ ++ .punct .colon :: .word p :: .punct .arrow :: ls) :=
        assigns.noArrow (firstOf_ne_punct (by decide)) fun isParens =>
          absurd isParens Bool.false_ne_true
      rw [Node.endsInParens_mk] at parens
      obtain ⟨calls, levels⟩ := fits
      simp only [Node.calls, Node.callsFrom_mk, Form.map, Form.calls] at calls
      simp only [Node.levels_mk, Form.map, Form.levels] at levels
      simp only [Node.lexemes_mk, Form.map, Form.lexemes, List.append_assoc, List.cons_append]
        at noArrow ⊢
      obtain ⟨fewer, rfl, covered⟩ := exists_fewer (Nat.le_trans (Nat.le_max_right _ _) calls)
      have wrong : Yields total depth _ (Parser.assignment (.ofBudget (fewer + 1))) _ :=
        .assignment (by omega) noArrow
          ((Legible.of_printable ofTarget).asTerm.target isTarget
            ⟨by rw [Node.calls]; omega, by omega⟩)
          (ih parens ⟨by rw [Node.calls]; omega, by omega⟩)
      refine fun s sees => (wrong s sees).mono ?_
      rintro tree _ ⟨other, same, different⟩ same'
      rw [same] at same'
      injection same' with _ same'
      injection same' with _ _ same'
      exact different same'
  | _ =>
      rw [Node.endsInParens_mk] at parens
      cases parens

end Parser

/-! ## §5. Bodies in braces. -/

namespace Parser

variable {total depth : Nat} {g : Grammar} {p : Text} {ls : List Lexeme} {P : Tree → Prop}

/-- What is yielded for the body of an arrow function. -/
theorem Yields.arrowFunction (plain : IsPlainName p) (ofBody : Yields total depth ls (arrowBody g) P) :
    Yields total depth (.word p :: .punct .arrow :: ls) (Parser.arrowFunction g) fun tree =>
      ∃ params body info, tree.shape = .mk () (.arrowFunction params body.shape info) ∧ P body := by
  intro s sees
  refine .bind_current (.bind_current (.bind_peek ?_))
  rw [sees.current.eq, firstOf_cons, plain.notAsync, Bool.false_and, if_neg Bool.false_ne_true]
  refine behind Consumes.arrowParameters (fun ⟨params, span⟩ _ => ?_) s sees
  refine .behind Consumes.expect.discard fun _ _ => .bind ofBody fun body holds s => .close ?_
  refine ⟨params.map Node.shape, body, ⟨span, false⟩, ?_, holds⟩
  rw [Node.shape_mk]
  rfl

/-- A body that begins with a brace is a block. -/
theorem Yields.block :
    Yields total depth (.punct .openBrace :: ls) (arrowBody g) fun tree =>
      ∃ statements, tree.shape = .mk () (.block statements) := by
  intro s sees
  refine .bind_current ?_
  rw [sees.current.eq, firstOf_cons, if_pos Token.is_self]
  refine .bind_current (Ensures.behind fun _ _ => .ite (fun _ => ?_) fun _ => .pure ?_)
  · refine Ensures.behind fun statements _ => Ensures.behind fun _ _ => .close ?_
    exact ⟨statements.map Node.shape, Node.shape_mk _ _⟩
  · exact ⟨[], Node.shape_mk _ _⟩

/-- **An expression that begins with a brace** is not read as the body of an arrow function. -/
theorem Yields.braces {c : Shape} (printable : Printable c) (plain : IsPlainName p)
    (shallow : depth < maxNesting) :
    Yields total depth (.word p :: .punct .arrow :: .punct .openBrace :: ls) (Parser.assignment g)
      (·.shape ≠ .arrow p c) := by
  refine .nested shallow fun s sees => .bind_get ?_
  rw [arrowAhead_word plain sees.inRow, if_pos rfl]
  refine (arrowFunction plain .block s sees).mono ?_
  rintro tree _ ⟨params, body, info, same, statements, isBlock⟩ same'
  rw [same] at same'
  injection same' with _ same'
  injection same' with _ same'
  rw [isBlock] at same'
  rw [← same'] at printable
  cases printable

/-! ## §6. The statement. -/

variable {value : Shape}

theorem Yields.expression {before : List Lexeme} (first : Yields total depth before g.assignment P)
    (commas : ∀ span left right, P (.mk span (.binary .comma left right))) :
    Yields total depth before (Parser.expression g) P := by
  refine .bind first fun tree holds s => .iterate (I := fun tree _ => P tree) holds ?_
  intro left s holds
  refine Ensures.behind fun found s' => .ite (fun _ => ?_) fun _ => .pure holds
  refine Ensures.behind fun right _ => ?_
  exact .bind (P := fun tree _ => P tree) (.close (commas _ _ _)) fun tree _ holds => .pure holds

/-- The statement of an assignment whose value is not read as what it should be. -/
theorem Yields.statement
    (wrong : Yields total 1 (.word (Text.ofString "x") :: .punct .assign :: ls) g.assignment fun tree =>
      ∃ other, tree.shape = .mk () (.assignment .assign (.mk () (.identifier "x")) other)
        ∧ other ≠ value) :
    Yields total 0 (.word (Text.ofString "x") :: .punct .assign :: ls) (Parser.statement g)
      (·.shape ≠ .mk () (.expressionStatement value.assigned)) := by
  -- What is read is neither the assignment nor a statement, should it be taken for one.
  have expr : Yields total 1 (.word (Text.ofString "x") :: .punct .assign :: ls) (Parser.expression g)
      fun tree => tree.shape ≠ value.assigned
        ∧ tree.shape ≠ .mk () (.expressionStatement value.assigned) := by
    refine .expression (fun s sees => (wrong s sees).mono ?_) fun span left right => ?_
    · rintro tree _ ⟨other, same, different⟩
      rw [same]
      refine ⟨fun same' => different ?_, nofun⟩
      injection same' with _ same'
      injection same'
    · rw [Node.shape_mk]
      exact ⟨nofun, nofun⟩
  refine .nested (by decide) fun s sees => ?_
  unfold Ensures
  rw [statementBody_run sees]
  have whole : Ensures (expressionStatement g) s fun tree _ =>
      tree.shape ≠ .mk () (.expressionStatement value.assigned) := by
    refine .bind_position ((expr s sees).bind fun tree s' ⟨different, noStatement⟩ => ?_)
    refine .bind_position (.ite (fun _ => .pure noStatement) fun _ => ?_)
    refine Ensures.behind fun _ _ => .close ?_
    rw [Node.shape_mk, Form.map]
    intro same
    injection same with _ same
    injection same with same
    exact different same
  exact whole

/-- The first statement of a program stays what it is. -/
theorem Yields.statements {l : Lexeme} {e : Shape} (goesOn : l ≠ .endOfText)
    (wrong : Yields total 0 (l :: ls) g.statement (·.shape ≠ .mk () (.expressionStatement e))) :
    Yields total 0 (l :: ls) (Parser.statements g none []) fun trees =>
      trees.map Node.shape ≠ [.mk () (.expressionStatement e)] := by
  -- The statements read so far are in the reverse order: the first one is the last.
  intro s sees
  refine .iterate (I := fun read s => (read = [] ∧ s.Sees total 0 (l :: ls))
    ∨ ∃ later first, read = later ++ [first]
      ∧ Node.shape first ≠ .mk () (.expressionStatement e)) (.inl ⟨rfl, sees⟩) ?_
  rintro read s (⟨rfl, sees⟩ | ⟨later, first, rfl, different⟩)
  · refine .bind_current ?_
    rw [sees.current.eq, firstOf_cons]
    generalize s.current.start = start, s.current.stop = stop, s.current.newlineBefore = newline
    have notEnd : Token.isEnd ⟨l, start, stop, newline⟩ = false := beq_eq_false_iff_ne.mpr goesOn
    have noStop : Token.isWordIn ⟨l, start, stop, newline⟩ [] = false := by
      cases l <;> rfl
    rw [notEnd, noStop]
    refine .bind_position ((wrong s sees).bind fun tree s' different => .bind_position ?_)
    refine .ite (fun _ => ?_) fun _ => .pure (.inr ⟨[], tree, rfl, different⟩)
    refine Ensures.behind fun t _ => Ensures.behind fun _ _ => .pure (.inr ?_)
    exact ⟨[], _, rfl, by rw [leaf, Node.shape_mk]; nofun⟩
  · refine .bind_current (.ite (fun _ => .pure ?_) fun _ => .bind_position ?_)
    · show List.map Node.shape (later ++ [first]).reverse ≠ _
      rw [List.reverse_append]
      intro same
      injection same with same
      exact different same
    · refine Ensures.behind fun tree _ => .bind_position (.ite (fun _ => ?_) fun _ => ?_)
      · refine Ensures.behind fun t _ => Ensures.behind fun _ _ => .pure (.inr ?_)
        exact ⟨_ :: later, first, rfl, different⟩
      · exact .pure (.inr ⟨tree :: later, first, rfl, different⟩)

end Parser

/-! ## §7. The text. -/

/-- The conditional expression whose second branch is an arrow function. -/
def Shape.arrowBranch (test consequent : Shape) (parameter : Text) (body : Shape) : Shape :=
  .mk () (.conditional test consequent (Shape.arrow parameter body))

/-- The lexemes of `a ? b : p => c ;`. -/
def branchLexemes (a b : Shape) (p : Text) (c : Shape) : List Lexeme :=
  a.lexemes ++ .punct .question :: (b.lexemes ++ .punct .colon ::
    (.word p :: .punct .arrow :: (c.lexemes ++ [.punct .semicolon])))

/-- The text `x = a ? b : p => c ;`. -/
def branchText (a b : Shape) (p : Text) (c : Shape) : Text :=
  Text.ofString "x = " ++ Text.spaced a.lexemes ++ Text.ofString " ? " ++ Text.spaced b.lexemes
    ++ Text.ofString " : " ++ p ++ Text.ofString " => " ++ Text.spaced c.lexemes
    ++ Text.ofString " ;"

/-- A blank stands behind what is written for the first lexeme. -/
theorem Text.spaced_cons {ls : List Lexeme} (l : Lexeme) (nonempty : ls ≠ []) :
    Text.spaced (l :: ls) = l.written ++ .scalar ' ' :: Text.spaced ls := by
  have single : Text.spaced [l] = l.written := by
    show List.intercalate (Text.ofString " ") [l.written] = _
    rw [List.intercalate_singleton]
  rw [← single]
  exact Text.spaced_append (List.cons_ne_nil l []) nonempty

section

variable {a b c : Shape} {p : Text}

theorem spaced_branch (ofTest : Printable a) (ofConsequent : Printable b) (ofBody : Printable c) :
    Text.spaced (.word (Text.ofString "x") :: .punct .assign :: branchLexemes a b p c)
      = branchText a b p c := by
  have spacedEnd : Text.spaced [.punct .semicolon] = Text.ofString ";" := rfl
  unfold branchLexemes branchText
  rw [Text.spaced_cons _ (List.cons_ne_nil _ _), Text.spaced_cons _ (by simp),
    Text.spaced_append ofTest.phrase.ne_nil (List.cons_ne_nil _ _), Text.spaced_cons _ (by simp),
    Text.spaced_append ofConsequent.phrase.ne_nil (List.cons_ne_nil _ _),
    Text.spaced_cons _ (List.cons_ne_nil _ _), Text.spaced_cons _ (List.cons_ne_nil _ _),
    Text.spaced_cons _ (by simp), Text.spaced_append ofBody.phrase.ne_nil (List.cons_ne_nil _ _),
    spacedEnd]
  simp only [List.append_assoc]
  rfl

/-- The lexemes of the statement are read as they are written. -/
theorem isChain_branch (ofTest : Printable a) (ofConsequent : Printable b) (ofBody : Printable c) :
    (.word (Text.ofString "x") :: .punct .assign :: branchLexemes a b p c).IsChain Lexeme.Precedes := by
  -- A slash stands neither at the head of an expression nor between the expressions.
  have cons {l m : Lexeme} {ls : List Lexeme} (noSlash : m.isSlash = false)
      (behind : (m :: ls).IsChain Lexeme.Precedes) : (l :: m :: ls).IsChain Lexeme.Precedes := by
    refine .cons_cons (fun isSlash => ?_) behind
    rw [noSlash] at isSlash
    cases isSlash
  have append {l : Lexeme} {e : Shape} {ls : List Lexeme} {m : Lexeme} (ofExpression : Printable e)
      (noSlash : m.isSlash = false) (behind : (m :: ls).IsChain Lexeme.Precedes) :
      (l :: (e.lexemes ++ m :: ls)).IsChain Lexeme.Precedes := by
    have phrase := ofExpression.phrase
    have whole : (e.lexemes ++ m :: ls).IsChain Lexeme.Precedes := by
      refine List.isChain_append.mpr ⟨phrase.chain, behind, ?_⟩
      rintro l' isLast _ ⟨⟩
      exact phrase.precedes m l' isLast
    obtain ⟨first, others, isFirst, begins⟩ := phrase.begins
    rw [isFirst] at whole ⊢
    exact cons (Lexeme.isSlash_of_begins begins) whole
  have body := append (l := .punct .arrow) ofBody (m := .punct .semicolon) rfl (List.isChain_singleton _)
  have second := cons (l := .punct .colon) (m := .word p) rfl (cons rfl body)
  have first := append (l := .punct .question) ofConsequent rfl second
  exact cons rfl (append ofTest rfl first)

/-- **The statement comes next** where the tokens of its text are parsed. -/
theorem parse_branch (budget : Nat) (ofTest : Printable a) (ofConsequent : Printable b) (ofBody : Printable c)
    (plain : IsPlainName p) :
    ∃ tokens final length total,
      parseWithin budget (branchText a b p c) = .ok (parseTokensWithin budget length tokens final)
        ∧ (ParserState.start tokens final).Sees total 0
            (.word (Text.ofString "x") :: .punct .assign :: branchLexemes a b p c) := by
  have isText := spaced_branch (p := p) ofTest ofConsequent ofBody
  have written : ∀ l ∈ Lexeme.word (Text.ofString "x") :: .punct .assign :: branchLexemes a b p c,
      l.IsWritten := by
    have punct := Lexeme.isWritten_punct
    simp only [branchLexemes, List.forall_mem_cons, List.forall_mem_append]
    exact ⟨isPlainName_x.isWritten, punct _, ofTest.phrase.written, punct _,
      ofConsequent.phrase.written, punct _, plain.isWritten, punct _, ofBody.phrase.written, punct _,
      List.forall_mem_nil _⟩
  have noSlash : ∀ l ∈ (Lexeme.word (Text.ofString "x") :: .punct .assign ::
      branchLexemes a b p c).head?, l.isSlash = false := by
    rintro _ ⟨⟩
    rfl
  have noInterpreter : Scan.hashbangWidth (Text.spaced (.word (Text.ofString "x") :: .punct .assign ::
      branchLexemes a b p c)) = 0 := by
    rw [isText]
    rfl
  obtain ⟨tokens, final, parsed, sees⟩ := parse_spaced budget written
    (isChain_branch ofTest ofConsequent ofBody) noSlash noInterpreter
  rw [isText] at parsed
  exact ⟨tokens, final, _, _, parsed, sees⟩

end

/-! ## §8. Reading the text. -/

/-- There is room for the text below the nesting limit and on a stack of the given size. -/
structure BranchFits (budget : Nat) (a b c : Shape) : Prop where
  levels : max a.levels (max (b.levels + 1) (c.levels + 2)) + 3 ≤ Parser.maxNesting
  calls : max a.calls (max (b.calls + 1) (c.calls + 2)) + 3 ≤ budget

namespace Parser

variable {total left : Nat} {a b c : Shape} {p : Text}

/-- The parts of the text that are read in any case: the test, in front of the branches. -/
theorem Consumes.branchTest {branches : List Lexeme} (fits : BranchFits (left + 4) a b c)
    (ofTest : Printable a) (tight : 1 ≤ a.strength) :
    Consumes total 3 (a.lexemes ++ .punct .question :: branches)
      (binary (.ofBudget (left + 1)) 0) (.punct .question :: branches) (·.shape = a) := by
  obtain ⟨levels, calls⟩ := fits
  exact (Legible.of_printable ofTest).asTerm.test tight ⟨by omega, by omega⟩

/-- The first branch is read if it does not end in parentheses. -/
theorem Consumes.branchFirst {rest : List Lexeme} (fits : BranchFits (left + 4) a b c)
    (ofConsequent : Printable b) (noParens : b.endsInParens = false) :
    Consumes total 3 (b.lexemes ++ .punct .colon :: rest)
      (Grammar.ofBudget (left + 1)).assignment (.punct .colon :: rest) (·.shape = b) := by
  obtain ⟨levels, calls⟩ := fits
  refine (Legible.of_printable ofConsequent).asValue.deeper ?_ ?_ _ rfl fun parens => ?_
  · omega
  · omega
  · rw [noParens] at parens
    cases parens

/-- The arrow function is read if its body does not begin with a brace. -/
theorem Consumes.branchSecond (fits : BranchFits (left + 4) a b c) (ofBody : Printable c)
    (plain : IsPlainName p) (noBrace : c.lexemes.head? ≠ some (.punct .openBrace)) :
    Consumes total 3 (.word p :: .punct .arrow :: (c.lexemes ++ [.punct .semicolon]))
      (Grammar.ofBudget (left + 1)).assignment [.punct .semicolon] (·.shape = .arrow p c) := by
  obtain ⟨levels, calls⟩ := fits
  have body : Consumes total 4 (c.lexemes ++ [.punct .semicolon])
      (Grammar.ofBudget left).assignment [.punct .semicolon] (·.shape = c) :=
    (Legible.of_printable ofBody).asValue.deeper (by omega) (by omega) _ rfl
      fun _ => .of_ends rfl (by decide)
  refine .nested (by decide) (.bind_get fun s sees => ?_)
  rw [arrowAhead_word plain sees.inRow, if_pos rfl]
  refine .arrowFunction plain (.bind_current fun start stop newline => ?_)
  obtain ⟨l, rest, isFirst, _⟩ := ofBody.phrase.begins
  have other : firstOf (c.lexemes ++ [.punct .semicolon]) ≠ .punct .openBrace := by
    rw [isFirst] at noBrace ⊢
    exact fun same => noBrace (congrArg some same)
  rw [Token.is_eq_false other, if_neg Bool.false_ne_true]
  exact body

theorem noArrow_branch (ofTest : Printable a) (rest : List Lexeme) :
    NoArrow (a.lexemes ++ .punct .question :: rest) :=
  ofTest.noArrow nofun fun _ => .of_first nofun nofun

/-- The value is read back. -/
theorem Consumes.branch (fits : BranchFits (left + 4) a b c) (ofTest : Printable a)
    (tight : 1 ≤ a.strength) (ofConsequent : Printable b) (noParens : b.endsInParens = false) (ofBody : Printable c)
    (noBrace : c.lexemes.head? ≠ some (.punct .openBrace)) (plain : IsPlainName p) :
    Consumes total 2 (branchLexemes a b p c) (Grammar.ofBudget (left + 2)).assignment
      [.punct .semicolon] (·.shape = .arrowBranch a b p c) :=
  .assignment_of_conditional (by decide) (noArrow_branch ofTest _)
    (.conditional (.branchTest fits ofTest tight) (.branchFirst fits ofConsequent noParens)
      (.branchSecond fits ofBody plain noBrace)) rfl

/-- The value is not read back where a branch is taken for something else. -/
theorem Yields.branch (fits : BranchFits (left + 4) a b c) (ofTest : Printable a)
    (tight : 1 ≤ a.strength) (ofConsequent : Printable b) (ofBody : Printable c) (plain : IsPlainName p)
    (wrong : b.endsInParens = true ∨ c.lexemes.head? = some (.punct .openBrace)) :
    Yields total 2 (branchLexemes a b p c) (Grammar.ofBudget (left + 2)).assignment
      (·.shape ≠ .arrowBranch a b p c) := by
  obtain ⟨levels, calls⟩ := id fits
  refine .assignment_of_conditional (by decide) (noArrow_branch ofTest _) nofun ?_
  cases parens : b.endsInParens with
  | true =>
      refine .conditional_first (.branchTest fits ofTest tight) ?_
      have room : Fits 4 left b := ⟨by omega, by omega⟩
      exact .captured ofConsequent parens plain room
  | false =>
      have brace := wrong.resolve_left (by rw [parens]; exact Bool.false_ne_true)
      refine .conditional_second (.branchTest fits ofTest tight)
        (.branchFirst fits ofConsequent parens) ?_
      obtain ⟨l, rest, isFirst, _⟩ := ofBody.phrase.begins
      rw [isFirst] at brace ⊢
      cases brace
      exact .braces (g := .ofBudget left) ofBody plain (by decide)

end Parser

namespace Parser

variable {total left : Nat} {a b c : Shape} {p : Text} {ls : List Lexeme}

/-- The name the value is assigned to. -/
theorem Consumes.nameOfAssignment :
    Consumes total 2 (.word (Text.ofString "x") :: .punct .assign :: ls)
      (Parser.conditional (.ofBudget (left + 2))) (.punct .assign :: ls)
      (·.shape = .mk () (.identifier "x")) := by
  have name : Printable (.mk () (.identifier "x")) := .identifier isPlainName_x
  have room : Fits 2 (left + 2) (.mk () (.identifier "x")) := ⟨Nat.zero_le _, by decide⟩
  show Consumes total 2 (Node.lexemes (.mk () (.identifier "x")) ++ .punct AssignOp.assign.punct :: ls)
    _ (.punct AssignOp.assign.punct :: ls) _
  exact AsTerm.target rfl (Legible.of_printable name).asTerm room

/-- The program is read back where its value is. -/
theorem Consumes.assignedValue {e : Shape}
    (reads : Consumes total 2 ls (Grammar.ofBudget (left + 2)).assignment [.punct .semicolon]
      (·.shape = e)) :
    Consumes total 0 (.word (Text.ofString "x") :: .punct .assign :: ls)
      (Parser.statements (.ofBudget (left + 4)) none []) []
      fun trees => trees.map Node.shape = [.mk () (.expressionStatement e.assigned)] :=
  .statements_of_assignment (g := .ofBudget (left + 3))
    (.assignment (by decide) (.of_word (by decide) nofun) .nameOfAssignment reads)

/-- The program is not read back where its value is not. -/
theorem Yields.assignedValue {e : Shape}
    (wrong : Yields total 2 ls (Grammar.ofBudget (left + 2)).assignment (·.shape ≠ e)) :
    Yields total 0 (.word (Text.ofString "x") :: .punct .assign :: ls)
      (Parser.statements (.ofBudget (left + 4)) none [])
      fun trees => trees.map Node.shape ≠ [.mk () (.expressionStatement e.assigned)] :=
  .statements nofun (.statement
    (.assignment (by decide) (.of_word (by decide) nofun) .nameOfAssignment wrong))

end Parser

/-- **An arrow function as the second branch.**  The text `x = a ? b : p => c ;` is parsed without
complaints, and as what it says, if and only if the first branch does not end with a value in
parentheses and the body does not begin with a brace: on every stack that has room for it. -/
theorem parse_arrowBranch {a b c : Shape} {p : Text} {budget : Nat} (ofTest : Printable a) (tight : 1 ≤ a.strength)
    (ofConsequent : Printable b) (ofBody : Printable c) (plain : IsPlainName p)
    (fits : BranchFits budget a b c) :
    ∃ program, parseWithin budget (branchText a b p c) = .ok program
      ∧ ((program.complaints = []
          ∧ program.tree.shape = Shape.program (Shape.assigned (.arrowBranch a b p c)))
        ↔ b.endsInParens = false ∧ c.lexemes.head? ≠ some (.punct .openBrace)) := by
  obtain ⟨left, rfl⟩ : ∃ left, budget = left + 4 := ⟨budget - 4, by have := fits.calls; omega⟩
  obtain ⟨tokens, final, length, total, parsed, sees⟩ :=
    parse_branch (left + 4) ofTest ofConsequent ofBody plain
  refine ⟨_, parsed, ?_⟩
  rw [parseTokensWithin_eq_ofRun]
  constructor
  · rintro ⟨_, asWritten⟩
    by_contra captured
    have wrong : b.endsInParens = true ∨ c.lexemes.head? = some (.punct .openBrace) := by
      rw [not_and_or, ne_eq, not_not, Bool.not_eq_false] at captured
      exact captured
    have yields := Parser.Yields.assignedValue
      (.branch fits ofTest tight ofConsequent ofBody plain wrong) _ sees
    cases run : (Parser.statements (.ofBudget (left + 4)) none []).run (.start tokens final) with
    | error reason s =>
        rw [run] at asWritten
        change (Node.mk _ (.program [])).shape = _ at asWritten
        rw [Node.shape_mk] at asWritten
        injection asWritten with _ same
        injection same with same
        cases same
    | ok trees s =>
        rw [run] at asWritten
        change (Node.mk _ (.program trees)).shape = _ at asWritten
        rw [Node.shape_mk] at asWritten
        injection asWritten with _ same
        injection same with same
        exact yields trees s run same
  · rintro ⟨noParens, noBrace⟩
    obtain ⟨trees, s, run, sees', same⟩ := Parser.Consumes.assignedValue
      (.branch fits ofTest tight ofConsequent noParens ofBody noBrace plain) _ sees
    rw [run]
    refine ⟨?_, ?_⟩
    · show s.complaints.reverse = []
      rw [sees'.complaints, List.reverse_nil]
    · show (Node.mk _ (.program trees)).shape = _
      rw [Node.shape_mk, Form.map, same]
      rfl

/-- The text `x = a ? x : a => a ;` is read as what it says. -/
theorem parse_arrowBranch_names :
    let a : Shape := .mk () (.identifier "a")
    let x : Shape := .mk () (.identifier "x")
    Printable a ∧ 1 ≤ a.strength ∧ Printable x ∧ IsPlainName (Text.ofString "a") ∧ BranchFits 10 a x a
      ∧ ∃ program, parseWithin 10 (Text.ofString "x = a ? x : a => a ;") = .ok program
        ∧ program.complaints = []
        ∧ program.tree.shape
          = Shape.program (Shape.assigned (.arrowBranch a x (Text.ofString "a") a)) := by
  intro a x
  have ofTest : Printable a := .identifier isPlainName_a
  have ofConsequent : Printable x := .identifier isPlainName_x
  have tight : 1 ≤ a.strength := by decide
  have fits : BranchFits 10 a x a := ⟨by decide, by decide⟩
  refine ⟨ofTest, tight, ofConsequent, isPlainName_a, fits, ?_⟩
  obtain ⟨program, parsed, asWritten⟩ :=
    parse_arrowBranch ofTest tight ofConsequent ofTest isPlainName_a fits
  exact ⟨program, parsed, asWritten.mpr ⟨rfl, by decide⟩⟩

/-- In the text `x = a ? ( x ) : a => a ;` the parentheses are taken for parameters. -/
theorem not_parse_arrowBranch :
    ¬ ∀ (a b c : Shape) (p : Text), Printable a → 1 ≤ a.strength → Printable b →
        b.isParenthesized = true → Printable c → IsPlainName p →
        ∃ program, parse (branchText a b p c) = .ok program ∧ program.complaints = []
          ∧ program.tree.shape = Shape.program (Shape.assigned (.arrowBranch a b p c)) := by
  intro all
  have evaluated : (parse (Text.ofString "x = a ? ( x ) : a => a ;")).toOption.any
      (fun program => program.complaints ≠ []) = true := by
    decide +kernel
  obtain ⟨program, parsed, complains⟩ := exists_ok_of_any evaluated
  obtain ⟨program', parsed', silent, _⟩ := all (.mk () (.identifier "a"))
    (.mk () (.parenthesized (.mk () (.identifier "x")))) (.mk () (.identifier "a"))
    (Text.ofString "a") (.identifier isPlainName_a) (by decide)
    (.parenthesized (.identifier isPlainName_x)) rfl (.identifier isPlainName_a) isPlainName_a
  change parse (Text.ofString "x = a ? ( x ) : a => a ;") = .ok program' at parsed'
  rw [parsed] at parsed'
  cases parsed'
  exact of_decide_eq_true complains silent

end StackLint
