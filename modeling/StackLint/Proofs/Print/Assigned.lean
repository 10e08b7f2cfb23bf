/-
  StackLint.Proofs.Print.Assigned
  ───────────────────────────────
  **A PRINTED EXPRESSION IN A PROGRAM.**

  The program assigns a printed expression to the name `x`.  Its text is cut into the
  lexemes that were printed, and the name in front of the equals sign makes an
  expression of the statement.
-/
import StackLint.Proofs.Parse.Rounds
import StackLint.Proofs.Print.Legible
import StackLint.Proofs.Print.Spaced
import StackLint.Proofs.View.Program

namespace StackLint

/-! ## §1. The statement. -/

/-- The expression that assigns a value to `x`. -/
def Shape.assigned (value : Shape) : Shape :=
  .mk () (.assignment .assign (.mk () (.identifier "x")) value)

/-- The program of a single expression. -/
def Shape.program (e : Shape) : Shape :=
  .mk () (.program [.mk () (.expressionStatement e)])

theorem isPlainName_x : IsPlainName (Text.ofString "x") where
  name := .of_flags (by decide) (by decide) (by decide)
  plain := by decide

theorem Printable.assigned {value : Shape} (printable : Printable value) :
    Printable value.assigned :=
  .assignment (.identifier isPlainName_x) rfl printable

namespace Parser

variable {total depth : Nat} {g : Grammar} {ls rest : List Lexeme} {s : ParserState}

/-- A name in front of an equals sign begins an expression. -/
theorem statementBody_run
    (sees : s.Sees total depth (.word (Text.ofString "x") :: .punct .assign :: ls)) :
    (statementBody g).run s = (expressionStatement g).run s := by
  have first := sees.current.eq
  have second := (sees.peek 1).eq
  rw [firstOf_cons] at first
  generalize s.current.start = start, s.current.stop = stop, s.current.newlineBefore = newline
    at first
  generalize (s.peek 1).start = start', (s.peek 1).stop = stop',
    (s.peek 1).newlineBefore = newline' at second
  have noType : typeKeyword? s = none := by
    unfold typeKeyword?
    rw [first, second]
    cases newline' <;> rfl
  unfold statementBody
  rw [run_look (show current.run s = .ok s.current s from rfl), first]
  show (wordStatement g _ _).run s = _
  unfold wordStatement
  rw [run_look (show (peek 1).run s = .ok (s.peek 1) s from rfl), second]
  show ((MonadState.get : Parser ParserState) >>= _).run s = _
  rw [run_look (show (MonadState.get : Parser ParserState).run s = .ok s s from rfl), noType]
  rfl

end Parser

/-! ## §2. The program. -/

/-- A blank stands between what is written for lexemes on the left and on the right. -/
theorem Text.spaced_append {ls ls' : List Lexeme} (nonempty : ls ≠ []) (nonempty' : ls' ≠ []) :
    Text.spaced (ls ++ ls') = Text.spaced ls ++ .scalar ' ' :: Text.spaced ls' := by
  obtain ⟨m, rest, rfl⟩ := List.exists_cons_of_ne_nil nonempty'
  induction ls with
  | nil => exact absurd rfl nonempty
  | cons l ls ih =>
      cases ls with
      | nil =>
          show List.intercalate (Text.ofString " ") (l.written :: m.written :: _) = _
          rw [List.intercalate_cons_cons, List.append_assoc]
          show _ = List.intercalate (Text.ofString " ") [l.written] ++ _
          rw [List.intercalate_singleton]
          rfl
      | cons k ls =>
          have behind := ih (List.cons_ne_nil _ _)
          show List.intercalate (Text.ofString " ") (l.written :: k.written :: _) = _
          rw [List.intercalate_cons_cons]
          show _ ++ Text.spaced (k :: ls ++ m :: rest) = _
          rw [behind]
          show _ = List.intercalate (Text.ofString " ") (l.written :: k.written :: _) ++ _
          rw [List.intercalate_cons_cons]
          simp only [List.append_assoc]
          rfl

theorem lexemes_assigned (value : Shape) : value.assigned.lexemes
    = [.word (Text.ofString "x"), .punct .assign] ++ value.lexemes := by
  rw [Shape.assigned, Node.lexemes_mk, Form.map, Form.lexemes, Node.lexemes_mk]
  rfl

theorem lexemes_statement (value : Shape) : value.assigned.lexemes ++ [.punct .semicolon]
    = .word (Text.ofString "x") :: .punct .assign :: (value.lexemes ++ [.punct .semicolon]) := by
  rw [lexemes_assigned]
  rfl

/-- What is written for the statement that assigns a value to `x`. -/
theorem spaced_assigned {value : Shape} (nonempty : value.lexemes ≠ []) :
    Text.spaced (value.assigned.lexemes ++ [.punct .semicolon])
      = Text.ofString "x = " ++ Text.spaced value.lexemes ++ Text.ofString " ;" := by
  rw [lexemes_assigned, Text.spaced_append (by simp) (List.cons_ne_nil _ _),
    Text.spaced_append (List.cons_ne_nil _ _) nonempty]
  rfl

/-- Lexemes come next where the tokens that say them are parsed. -/
theorem parse_tokens (budget : Nat) {text : Text} {tokens : List Token} {final : Token}
    {ls : List Lexeme} (scanned : tokenize text = .ok (tokens ++ [final]))
    (same : tokens.map Token.lexeme = ls) (isEnd : final.lexeme = .endOfText)
    (arrows : ∀ t ∈ tokens, t.lexeme = .punct .arrow → t.newlineBefore = false) :
    parseWithin budget text = .ok (parseTokensWithin budget text.length tokens final)
      ∧ (ParserState.start tokens final).Sees ls.length 0 ls := by
  refine ⟨?_, ?_⟩
  · unfold parseWithin
    rw [scanned]
    show Except.ok (parseTokensWithin budget _ (tokens ++ [final]).dropLast
      ((tokens ++ [final]).getLast?.getD _)) = _
    rw [List.dropLast_concat, List.getLast?_concat, Option.getD_some]
  · have length : tokens.length = ls.length := by rw [← same, List.length_map]
    exact ⟨same, arrows, isEnd, length, Nat.zero_add _, rfl, rfl, rfl⟩

/-- Written lexemes come next where the tokens of their text are parsed. -/
theorem parse_spaced (budget : Nat) {ls : List Lexeme} (written : ∀ l ∈ ls, l.IsWritten)
    (chain : ls.IsChain Lexeme.Precedes) (noSlash : ∀ l ∈ ls.head?, l.isSlash = false)
    (noInterpreter : Scan.hashbangWidth (Text.spaced ls) = 0) :
    ∃ tokens final,
      parseWithin budget (Text.spaced ls)
          = .ok (parseTokensWithin budget (Text.spaced ls).length tokens final)
        ∧ (ParserState.start tokens final).Sees ls.length 0 ls := by
  have divides : ∀ l ∈ ls.head?, l.isSlash = true → Scan.regexAllowed none = false := by
    intro l isHead isSlash
    rw [noSlash l isHead] at isSlash
    cases isSlash
  obtain ⟨all, scanned, same, sameLine⟩ :=
    @Scan.tokensFrom_spaced ls written chain .start (List.forall_mem_nil _) rfl divides 0
  obtain ⟨tokens, ending, rfl, isText, isEnding⟩ := List.map_eq_append_iff.mp same
  obtain ⟨final, rfl, isFinal⟩ := List.map_eq_singleton_iff.mp isEnding
  have whole : tokenize (Text.spaced ls) = .ok (tokens ++ [final]) := by
    unfold tokenize
    rw [noInterpreter, scanned]
  exact ⟨tokens, final, parse_tokens budget whole isText isFinal
    fun t inside _ => sameLine t (List.mem_append_left _ inside)⟩

/-- **The statement comes next** where the tokens of its text are parsed. -/
theorem parse_assigned (budget : Nat) {value : Shape} (printable : Printable value) :
    ∃ tokens final length total,
      parseWithin budget (Text.ofString "x = " ++ Text.spaced value.lexemes ++ Text.ofString " ;")
          = .ok (parseTokensWithin budget length tokens final)
        ∧ (ParserState.start tokens final).Sees total 0
            (value.assigned.lexemes ++ [.punct .semicolon]) := by
  have phrase := printable.assigned.phrase
  have isText := spaced_assigned printable.phrase.ne_nil
  have written : ∀ l ∈ value.assigned.lexemes ++ [.punct .semicolon], l.IsWritten :=
    List.forall_mem_append.mpr
      ⟨phrase.written, List.forall_mem_singleton.mpr (Lexeme.isWritten_punct _)⟩
  have chain : (value.assigned.lexemes ++ [Lexeme.punct .semicolon]).IsChain Lexeme.Precedes :=
    List.isChain_append.mpr ⟨phrase.chain, List.isChain_singleton _,
      fun l isLast m _ => phrase.precedes m l isLast⟩
  have noSlash : ∀ l ∈ (value.assigned.lexemes ++ [Lexeme.punct .semicolon]).head?,
      l.isSlash = false := by
    rw [lexemes_statement]
    rintro _ ⟨⟩
    rfl
  have noInterpreter : Scan.hashbangWidth
      (Text.spaced (value.assigned.lexemes ++ [Lexeme.punct .semicolon])) = 0 := by
    rw [isText]
    rfl
  obtain ⟨tokens, final, parsed, sees⟩ := parse_spaced budget written chain noSlash noInterpreter
  rw [isText] at parsed
  exact ⟨tokens, final, _, _, parsed, sees⟩

namespace Parser

variable {total budget : Nat} {g : Grammar} {ls : List Lexeme} {e value : Shape}

/-- The statement of an assignment to `x` that is read back. -/
theorem Consumes.statement_of_assignment
    (reads : Consumes total 1 (.word (Text.ofString "x") :: .punct .assign :: ls) g.assignment
      [.punct .semicolon] (·.shape = e)) :
    Consumes total 0 (.word (Text.ofString "x") :: .punct .assign :: ls) (statement g) []
      (·.shape = .mk () (.expressionStatement e)) := by
  have whole : Consumes total 1 (.word (Text.ofString "x") :: .punct .assign :: ls)
      (expressionStatement g) [] (·.shape = .mk () (.expressionStatement e)) := by
    refine .bind_position fun n atStart => ?_
    refine (Consumes.expression reads (by decide)).bind fun tree same => ?_
    refine .bind_position fun n' atEnd => ?_
    rw [List.length_cons, List.length_cons] at atStart
    rw [List.length_singleton] at atEnd
    rw [if_neg (by omega)]
    refine .bind_discard_accept (.close fun span => ?_)
    rw [Node.shape_mk, Form.map, same]
  refine .nested (by decide) fun s sees => ?_
  rw [statementBody_run sees]
  exact whole s sees

/-- The program of an assignment to `x` that is read back. -/
theorem Consumes.statements_of_assignment
    (reads : Consumes total 1 (.word (Text.ofString "x") :: .punct .assign :: ls) g.assignment
      [.punct .semicolon] (·.shape = e)) :
    Consumes total 0 (.word (Text.ofString "x") :: .punct .assign :: ls)
      (statements g.around none []) []
      fun trees => trees.map Node.shape = [.mk () (.expressionStatement e)] := by
  have length : ([] : List Lexeme).length
      < (Lexeme.word (Text.ofString "x") :: .punct .assign :: ls).length := Nat.succ_pos _
  refine .again length (.bind_current fun start stop newline => .bind_position fun n atStart => ?_)
  refine (statement_of_assignment reads).bind fun tree same => .bind_position fun n' atEnd => ?_
  have moved : n' ≠ n := by
    rw [List.length_nil] at atEnd
    rw [List.length_cons] at atStart
    omega
  rw [if_neg moved]
  refine .pure ⟨_, rfl, .finish (.bind_current fun start stop newline => ?_)⟩
  exact .pure ⟨_, rfl, congrArg (fun shape => [shape]) same⟩

/-- The statements of the program are read back. -/
theorem Consumes.statements (printable : Printable value) (fits : Fits 2 budget value.assigned) :
    Consumes total 0 (value.assigned.lexemes ++ [.punct .semicolon])
      (statements (.ofBudget (budget + 2)) none []) []
      fun trees => trees.map Node.shape = [.mk () (.expressionStatement value.assigned)] := by
  have reads : ReadsBack total 1 (Grammar.ofBudget (budget + 1)).assignment value.assigned :=
    (Legible.of_printable printable.assigned).asValue total 1 budget fits
  have value := reads [.punct .semicolon] rfl fun _ => .of_ends rfl (by decide)
  rw [lexemes_statement] at value ⊢
  exact .statements_of_assignment value

end Parser

/-! ## §3. Reading back. -/

/-- **The statement is read back** from every text whose tokens are its lexemes, on every stack
that has room for the nested calls. -/
theorem Printable.reads_back {value : Shape} {budget length total : Nat} {text : Text}
    {tokens : List Token} {final : Token} (printable : Printable value)
    (shallow : value.levels + 3 ≤ Parser.maxNesting) (room : value.calls + 3 ≤ budget)
    (parsed : parseWithin budget text = .ok (parseTokensWithin budget length tokens final))
    (sees : (ParserState.start tokens final).Sees total 0
      (value.assigned.lexemes ++ [.punct .semicolon])) :
    ∃ p, parseWithin budget text = .ok p ∧ p.complaints = []
      ∧ p.tree.shape = .program value.assigned := by
  obtain ⟨left, rfl⟩ : ∃ left, budget = left + 2 := ⟨budget - 2, by omega⟩
  have fits : Parser.Fits 2 left value.assigned := by
    constructor
    · simp only [Shape.assigned, Node.calls, Node.callsFrom_mk, Form.map, Form.calls]
      show max 0 (value.calls + 1) ≤ left
      omega
    · simp only [Shape.assigned, Node.levels_mk, Form.map, Form.levels]
      omega
  obtain ⟨trees, s, run, sees', same⟩ := Parser.Consumes.statements printable fits _ sees
  refine ⟨_, parsed, ?_⟩
  rw [parseTokensWithin_eq_ofRun, run]
  refine ⟨?_, ?_⟩
  · show s.complaints.reverse = []
    rw [sees'.complaints, List.reverse_nil]
  · show (Node.mk _ (.program trees)).shape = _
    rw [Node.shape_mk, Form.map, same]
    rfl

end StackLint
