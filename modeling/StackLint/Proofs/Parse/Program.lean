/-
  StackLint.Proofs.Parse.Program
  ──────────────────────────────
  **PROGRAMS LAY TREES.**

  The grammar of every budget is sound, so all nodes of a parsed text have a
  place on its layout, whether or not the text is well formed.

  An error node stands where a text makes no sense, and says why.  The parser has
  complained of the same, with one exception: an operand may be missing in silence,
  in front of a token that ends what is around it.
-/
import StackLint.Parse.Program
import StackLint.Proofs.Except
import StackLint.Proofs.Parse.Extent
import StackLint.Proofs.Parse.Statement

namespace StackLint

/-! ## §1. The knot. -/

namespace Grammar

variable {L : Layout} {g : Grammar}

theorem spent_sound (L : Layout) : spent.Sound L where
  statement := fun _ _ => .throw
  assignment := fun _ _ => .throw
  unary := fun _ _ => .throw
  binary := fun _ _ _ => .throw
  primary := fun _ _ => .throw
  newExpression := fun _ _ _ => .throw
  bindingTarget := fun _ _ => .throw
  tidy := spent_tidies L
  begins := fun _ _ => .throw

theorem Sound.around (sound : g.Sound L) : g.around.Sound L where
  statement := Parser.statement_lays sound
  assignment := Parser.assignment_builds sound
  unary := Parser.unary_builds sound
  binary := Parser.binary_builds sound
  primary := Parser.primary_builds sound
  newExpression := Parser.newExpression_takes sound
  bindingTarget := Parser.bindingTarget_builds sound
  tidy := sound.tidy.around (Parser.statement_lays sound).passes
  begins s on a s' run plain := (Parser.assignment_fills sound s on plain a s' run).start

/-- **The grammar of every budget lays trees.** -/
theorem ofBudget_sound (L : Layout) (budget : Nat) : (ofBudget budget).Sound L := by
  induction budget with
  | zero => exact spent_sound L
  | succ budget ih => exact ih.around

end Grammar

/-! ## §2. Programs. -/

/-- The statements of a program have their places on the layout. -/
theorem parseTokens_placed (L : Layout) :
    ∃ statements, (parseTokens L.text.length L.tokens L.final).tree
        = .mk ⟨0, L.text.length⟩ (.program statements)
      ∧ InOrder (Placed L (Heard (parseTokens L.text.length L.tokens L.final).complaints)) 0 L.size
          statements := by
  have sound := Grammar.ofBudget_sound L parseBudget
  have lays := Parser.statements_lays sound none [] _ (ParserState.On.start L)
  unfold parseTokens parseTokensWithin
  simp only
  split
  · next statements s run =>
      -- The complaints of the program are those of the parser the other way round.
      obtain ⟨reads, places⟩ := lays statements s run
      refine ⟨statements, rfl, ?_⟩
      have heard : ∀ c, Heard s.complaints c → Heard s.complaints.reverse c := by
        rintro c ⟨offset, inside⟩
        exact ⟨offset, List.mem_reverse.mpr inside⟩
      exact (places.louder heard).widen Placed.widen (Nat.le_refl _) reads.on.inside
  · exact ⟨[], rfl, .nil (Nat.zero_le _)⟩

/-- All nodes of a program have a place, the program itself apart. -/
theorem parseTokens_preorder (L : Layout) :
    ∀ node ∈ (parseTokens L.text.length L.tokens L.final).tree.preorder,
      node = (parseTokens L.text.length L.tokens L.final).tree
        ∨ ∃ lo hi, Placed L (Heard (parseTokens L.text.length L.tokens L.final).complaints) lo hi
            node := by
  obtain ⟨statements, isTree, places⟩ := parseTokens_placed L
  intro node inside
  rw [isTree] at inside ⊢
  rcases Node.mem_preorder_mk.mp inside with rfl | ⟨statement, isStatement, inside⟩
  · exact .inl rfl
  · obtain ⟨_, _, placed⟩ := places.of_mem isStatement
    exact .inr (placed.of_mem_preorder inside)

theorem parse_layout (L : Layout) :
    parse L.text = .ok (parseTokens L.text.length L.tokens L.final) := by
  unfold parse parseWithin
  rw [L.scanned]
  show Except.ok (parseTokens _ (L.tokens ++ [L.final]).dropLast
    ((L.tokens ++ [L.final]).getLast?.getD _)) = _
  rw [List.dropLast_concat, List.getLast?_concat, Option.getD_some]

/-- A text that can be parsed has a layout. -/
theorem exists_layout_of_parse {text : Text} {program : Program} (h : parse text = .ok program) :
    ∃ L : Layout, L.text = text ∧ program = parseTokens L.text.length L.tokens L.final := by
  unfold parse parseWithin at h
  obtain ⟨tokens, cut, isProgram⟩ := bind_eq_ok.mp h
  obtain ⟨L, rfl, rfl⟩ := Layout.exists_of_tokenize cut
  rw [List.dropLast_concat, List.getLast?_concat] at isProgram
  cases isProgram
  exact ⟨L, rfl, rfl⟩

/-- **Every node of a parsed text has a place**, the whole program apart. -/
theorem parse_placed {text : Text} {program : Program} (h : parse text = .ok program) :
    ∃ L : Layout, L.text = text
      ∧ (∃ statements, program.tree = .mk ⟨0, text.length⟩ (.program statements))
      ∧ ∀ node ∈ program.tree.preorder,
          node = program.tree ∨ ∃ lo hi, Placed L (Heard program.complaints) lo hi node := by
  obtain ⟨L, rfl, rfl⟩ := exists_layout_of_parse h
  obtain ⟨statements, isTree, _⟩ := parseTokens_placed L
  exact ⟨L, rfl, ⟨statements, isTree⟩, parseTokens_preorder L⟩

/-! ## §3. Error nodes. -/

/-- The node stands where an operand is missing: it has no width, and what follows
it ends the construct around it. -/
structure Layout.LacksOperand (L : Layout) (n : Tree) : Prop where
  form : n.form = .errorNode .expectedExpression
  place : ∃ i, i ≤ L.size ∧ n.info = ⟨L.startAt i, L.startAt i⟩ ∧ (L.token i).endsOperand = true

/-- An error node is complained of, or an operand is missing. -/
theorem Placed.reported {L : Layout} {heard : Complaint → Prop} {lo hi : Nat} {tree : Tree}
    {c : Complaint} (h : Placed L heard lo hi tree) (isError : tree.form = .errorNode c) :
    heard c ∨ L.LacksOperand tree := by
  cases h with
  | @mk _ i j _ span form _ _ fits _ details =>
      obtain rfl : form = .errorNode c := isError
      rcases details with ⟨rfl, rfl, ends⟩ | heard
      · refine .inr ⟨rfl, j, fits.inside, ?_, ends⟩
        cases fits with
        | full never => exact absurd never (Nat.lt_irrefl _)
        | error => rfl
        | inverted never => cases never
      · exact .inl heard

/-- **Error nodes are complained of, except where an operand is missing.**

In a parsed text the complaint of every error node is also a complaint of the whole
program, unless the node is an empty one in front of a token that ends what is
around it. -/
theorem parse_reported {text : Text} {program : Program} (h : parse text = .ok program) :
    ∃ L : Layout, L.text = text ∧ ∀ n ∈ program.tree.preorder, ∀ c, n.form = .errorNode c →
      (∃ offset, (offset, c) ∈ program.complaints) ∨ L.LacksOperand n := by
  obtain ⟨L, same, ⟨statements, isTree⟩, placed⟩ := parse_placed h
  refine ⟨L, same, ?_⟩
  intro n inside c isError
  rcases placed n inside with rfl | ⟨_, _, place⟩
  · rw [isTree] at isError
    cases isError
  · exact place.reported isError

/-- A brace that closes nothing. -/
def strayBrace : Text :=
  "x = 1; \x7d"

/-- The error node in its place says what the complaint does. -/
theorem parse_reported_strayBrace :
    ∃ program, parse strayBrace = .ok program
      ∧ program.complaints = [(7, .unexpectedToken "\x7d")]
      ∧ ∃ n ∈ program.tree.preorder, n.info = ⟨7, 8⟩
        ∧ n.form = .errorNode (.unexpectedToken "\x7d") := by
  have evaluated : (parse strayBrace).toOption.any (fun program =>
      program.complaints = [(7, .unexpectedToken "\x7d")] && program.tree.preorder.any fun n =>
        n.info = ⟨7, 8⟩ && n.form.kind = "ErrorNode") = true := by
    decide +kernel
  obtain ⟨program, parsed, found⟩ := exists_ok_of_any evaluated
  simp only [Bool.and_eq_true, List.any_eq_true, decide_eq_true_eq] at found
  obtain ⟨complaints, n, inside, place, isError⟩ := found
  obtain ⟨c, isError⟩ := Form.kind_eq_errorNode.mp isError
  obtain ⟨L, _, reported⟩ := parse_reported parsed
  refine ⟨program, parsed, complaints, n, inside, place, ?_⟩
  rcases reported n inside c isError with ⟨offset, heard⟩ | ⟨_, i, _, empty, _⟩
  · rw [complaints] at heard
    have same : c = .unexpectedToken "\x7d" :=
      congrArg Prod.snd (List.mem_singleton.mp heard)
    rw [isError, same]
  · -- Where an operand is missing the node has no width.
    rw [place] at empty
    have width := (congrArg Span.start empty).trans (congrArg Span.stop empty).symm
    cases width

/-- A value is missing in front of a semicolon. -/
def missingValue : Text :=
  "x = ;"

/-- Nobody complains of a value that is missing. -/
theorem not_parse_reported :
    ¬ ∀ (text : Text) (program : Program), parse text = .ok program →
        (∃ n ∈ program.tree.preorder, ∃ c, n.form = .errorNode c) → program.complaints ≠ [] := by
  intro all
  have evaluated : (parse missingValue).toOption.any (fun program =>
      program.complaints = [] && program.tree.preorder.any fun n => n.form.kind = "ErrorNode")
        = true := by
    decide +kernel
  obtain ⟨program, parsed, found⟩ := exists_ok_of_any evaluated
  simp only [Bool.and_eq_true, List.any_eq_true, decide_eq_true_eq] at found
  obtain ⟨silent, n, inside, isError⟩ := found
  exact all missingValue program parsed ⟨n, inside, Form.kind_eq_errorNode.mp isError⟩ silent

end StackLint
