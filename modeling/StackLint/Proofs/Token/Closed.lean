/-
  StackLint.Proofs.Token.Closed
  ─────────────────────────────
  **CLOSED LITERALS.**

  A string that is not closed ends with its line, and a template that is not closed
  reaches to the end of the text.  Here closed literals are told from these, and the
  braces that are open behind a lexeme are read off it.
-/
import StackLint.Proofs.Except
import StackLint.Token.Scan

namespace StackLint

/-! ## §1. Literals. -/

namespace Scan

/-- The rest of a string literal after its opening quote comes to the closing one.  `skip`
code points belong to an escape that was already decoded. -/
def stringCloses (quote : CodePoint) : (skip : Nat) → Text → Bool
  | _, [] => false
  | skip + 1, _ :: rest => stringCloses quote skip rest
  | 0, c :: rest =>
      if c = '\\' then
        match Escape.decode rest with
        | .ok escape => stringCloses quote escape.width rest
        | .error _ => false
      else if c = quote then true
      else if c = '\n' then false
      else stringCloses quote 0 rest

/-- Template text comes to a backtick or to the opening of a substitution. -/
def templateCloses : (skip : Nat) → Text → Bool
  | _, [] => false
  | skip + 1, _ :: rest => templateCloses skip rest
  | 0, c :: rest =>
      if c = '\\' then
        match Escape.decode rest with
        | .ok escape => templateCloses escape.width rest
        | .error _ => false
      else if c = '\x60' then true
      else if c = '$' ∧ rest.head? = some (.scalar '{') then true
      else templateCloses 0 rest

end Scan

/-- The token of the text is no string and no piece of a template that goes on where its
delimiter should be. -/
def Token.isClosed (text : Text) (t : Token) : Bool :=
  match t.lexeme with
  | .string quote _ => Scan.stringCloses quote.mark 0 (text.drop (t.start + 1))
  | .template _ | .templateHead _ | .templateMiddle _ | .templateTail _ =>
      Scan.templateCloses 0 (text.drop (t.start + 1))
  | _ => true

namespace Scan

variable {braces : List OpenBrace} {previous : Option Lexeme} {e : CodePoint} {rest : Text}
  {found : Found}

/-! ## §2. Braces. -/

/-- The braces that are open behind a lexeme. -/
def bracesAfter (braces : List OpenBrace) : Lexeme → List OpenBrace
  | .punct p => braceAfter p braces
  | .templateHead _ => .substitution :: braces
  | .templateMiddle _ => .substitution :: braces.tail
  | .templateTail _ => braces.tail
  | _ => braces

theorem bracesAfter_punctuator (rest : Text) :
    (punctuator braces e rest).braces = bracesAfter braces (punctuator braces e rest).lexeme := by
  unfold punctuator
  simp only
  split <;> rfl

theorem bracesAfter_templatePart {opening : Bool}
    (read : templatePart opening (if opening then braces else braces.tail) rest = .ok found) :
    found.braces = bracesAfter braces found.lexeme := by
  obtain ⟨body, _, same⟩ := bind_eq_ok.mp read
  cases same
  cases opening <;> cases body.opensSubstitution <;> rfl

/-- **What a lexeme opens and closes** can be seen from it. -/
theorem braces_of_lexeme (read : lexeme braces previous e rest = .ok found) :
    found.braces = bracesAfter braces found.lexeme := by
  have ofString {quote : Quote} (read : stringLiteral quote braces rest = .ok found) :
      found.braces = bracesAfter braces found.lexeme := by
    obtain ⟨body, _, same⟩ := bind_eq_ok.mp read
    cases same
    rfl
  unfold lexeme at read
  split at read
  · exact ofString read
  split at read
  · exact ofString read
  split at read
  · exact @bracesAfter_templatePart braces rest found true read
  split at read
  · split at read <;> cases read
    rfl
  split at read
  · split at read <;> (cases read; rfl)
  split at read
  · split at read
    · cases read
      rfl
    · rw [← Except.ok.inj read]
      exact bracesAfter_punctuator rest
  split at read
  · exact @bracesAfter_templatePart braces rest found false read
  · rw [← Except.ok.inj read]
    unfold nameOrPunctuator
    split
    · exact bracesAfter_punctuator rest
    · rfl

end Scan

/-- All literals of a text are closed: every string and every piece of a template comes to
its delimiter, and at the end no substitution is open. -/
def Text.closesLiterals (t : Text) : Bool :=
  match tokenize t with
  | .error _ => false
  | .ok tokens =>
      tokens.all (Token.isClosed t)
        && !((tokens.map Token.lexeme).foldl Scan.bracesAfter []).contains .substitution

end StackLint
