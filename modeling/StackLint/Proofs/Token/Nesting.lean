/-
  StackLint.Proofs.Token.Nesting
  ──────────────────────────────
  **TEMPLATE TOKENS ARE WELL NESTED.**

  The scanner remembers the open braces, and reads a closing one as the end of a
  substitution or as a bracket according to what is on top.  Here the same stack is read
  off the tokens alone, by a reader that gives up where a token does not fit what it finds
  on top.  It never gives up on the tokens of a text, and at every place its stack is the
  scanner's own.

  A slash that begins no regular expression is read as a punctuator without a look at the
  braces.  That is harmless: such a punctuator begins with the slash, so it is no brace.
-/
import StackLint.Proofs.Token.Cut
import StackLint.Proofs.Token.Walk

namespace StackLint

namespace Scan

/-! ## §1. Reading the stack off the tokens. -/

/-- The marks on the stack behind a lexeme, nothing where the lexeme does not fit the mark
on top: the piece of a template that ends a substitution pops the mark of one, a closing
brace pops the mark of a brace or finds the stack empty. -/
def nest? (stack : List OpenBrace) : Lexeme → Option (List OpenBrace)
  | .templateHead _ => some (.substitution :: stack)
  | .templateMiddle _ =>
      match stack with
      | .substitution :: below => some (.substitution :: below)
      | _ => none
  | .templateTail _ =>
      match stack with
      | .substitution :: below => some below
      | _ => none
  | .punct .openBrace => some (.plain :: stack)
  | .punct .closeBrace =>
      match stack with
      | [] => some []
      | .plain :: below => some below
      | .substitution :: _ => none
  | _ => some stack

/-- From left to right, every token fits the stack that the ones in front of it left. -/
def WellNested (tokens : List Token) : Prop :=
  ((tokens.map Token.lexeme).foldlM nest? []).isSome = true

variable {braces : List OpenBrace} {previous : Option Lexeme} {e : CodePoint} {rest : Text}
  {found : Found}

/-! ## §2. One lexeme. -/

/-- A punctuator is not a closing brace where a substitution has to be closed, if the
text does not begin with one there. -/
theorem nest?_punctuator (notClosing : ¬(e = '}' ∧ braces.head? = some .substitution)) :
    nest? braces (punctuator braces e rest).lexeme = some (punctuator braces e rest).braces := by
  unfold punctuator
  simp only
  split
  · next spelling p isLongest =>
      show nest? braces (.punct p) = some (braceAfter p braces)
      cases p with
      | closeBrace =>
          obtain ⟨_, after, whole⟩ := Punct.longest?_spec isLongest
          have isBrace : e = '}' := (List.cons.inj whole).1
          -- Of the three stacks only the one with a substitution on top is refused.
          cases braces with
          | nil => rfl
          | cons mark below =>
              cases mark with
              | plain => rfl
              | substitution => exact absurd ⟨isBrace, rfl⟩ notClosing
      | _ => rfl
  · rfl

/-- The piece of a template that ends a substitution finds its mark on top. -/
theorem nest?_templatePart {opening : Bool} {below : List OpenBrace}
    (isStack : braces = if opening then below else .substitution :: below)
    (read : templatePart opening below rest = .ok found) :
    nest? braces found.lexeme = some found.braces := by
  obtain ⟨body, _, same⟩ := bind_eq_ok.mp read
  cases same
  subst isStack
  cases opening <;> cases opens : body.opensSubstitution <;> simp [nest?]

/-- **A lexeme fits the open braces**, and those that are open behind it are what is left
of the stack. -/
theorem nest?_of_lexeme (read : lexeme braces previous e rest = .ok found) :
    nest? braces found.lexeme = some found.braces := by
  have ofString {quote : Quote} (read : stringLiteral quote braces rest = .ok found) :
      nest? braces found.lexeme = some found.braces := by
    obtain ⟨body, _, same⟩ := bind_eq_ok.mp read
    cases same
    rfl
  unfold lexeme at read
  split at read
  · exact ofString read
  split at read
  · exact ofString read
  split at read
  · exact @nest?_templatePart braces rest found true braces rfl read
  split at read
  · split at read <;> cases read
    rfl
  split at read
  · split at read <;> (cases read; rfl)
  split at read
  · next isSlash =>
      split at read
      · cases read
        rfl
      -- The slash was tried before the braces, but no brace begins with one.
      · rw [← Except.ok.inj read]
        apply nest?_punctuator
        intro isBrace
        rw [isSlash.1] at isBrace
        exact absurd isBrace.1 (by decide)
  split at read
  · next closing =>
      have isStack : braces = .substitution :: braces.tail := by
        cases braces with
        | nil => cases closing.2
        | cons mark below => rw [Option.some.inj closing.2, List.tail_cons]
      exact @nest?_templatePart braces rest found false braces.tail isStack read
  · next notClosing =>
      rw [← Except.ok.inj read]
      unfold nameOrPunctuator
      split
      · exact nest?_punctuator notClosing
      · rfl

/-! ## §3. All tokens. -/

/-- From any place on, the tokens fit the braces that are open there. -/
theorem nest?_tokensFrom {memory : Memory} {offset : Nat} {t : Text} {tokens : List Token}
    (run : tokensFrom memory 0 offset t = .ok tokens) :
    ((tokens.map Token.lexeme).foldlM nest? memory.braces).isSome = true := by
  induction memory, offset, t using walk_induct generalizing tokens with
  | nil memory offset =>
      rw [tokensFrom_nil] at run
      cases run
      rfl
  | trivia memory offset c rest extra newline trivial ih =>
      rw [tokensFrom_trivia trivial] at run
      exact ih run
  | failure memory offset c rest failure trivial read =>
      rw [tokensFrom_failure trivial read] at run
      cases run
  | lexeme memory offset c rest found trivial read ih =>
      rw [tokensFrom_lexeme trivial read] at run
      obtain ⟨later, goesOn, rfl⟩ := map_eq_ok.mp run
      -- The stack behind the lexeme is the scanner's own, with which the hypothesis goes on.
      simp only [List.map_cons, List.foldlM_cons, nest?_of_lexeme read]
      exact ih goesOn

end Scan

/-- **Template tokens are well nested:** reading the tokens of any text with a stack, every
token that ends a substitution finds the mark of one on top, and every closing brace finds
the mark of a brace or an empty stack. -/
theorem tokenize_wellNested {text : Text} {tokens : List Token} (run : tokenize text = .ok tokens) :
    Scan.WellNested tokens := by
  unfold tokenize at run
  rw [Scan.tokensFrom_skip] at run
  exact Scan.nest?_tokensFrom run

/-- A brace that closes nothing, and a template with an object in its substitution. -/
theorem tokenize_wellNested_object :
    ∃ tokens, tokenize "\x7d\x60a$\x7b \x7b b: 1 \x7d \x7dc\x60" = .ok tokens
      ∧ Scan.WellNested tokens := by
  obtain ⟨tokens, run⟩ := (exists_ok_iff (tokenize "\x7d\x60a$\x7b \x7b b: 1 \x7d \x7dc\x60")).mpr
    (by decide +kernel)
  exact ⟨tokens, run, tokenize_wellNested run⟩

end StackLint
