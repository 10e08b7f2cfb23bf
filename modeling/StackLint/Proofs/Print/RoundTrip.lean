/-
  StackLint.Proofs.Print.RoundTrip
  ────────────────────────────────
  **PARSING UNDOES PRINTING.**

  A printed expression that is assigned to a name is parsed without complaints, and
  the tree is the one that was printed.
-/
import StackLint.Proofs.Print.Exhausts

namespace StackLint

/-- **Parsing undoes printing.**  A printed expression below the nesting limit, assigned to a
name, is parsed without complaints, and the tree is the one that was printed, on every stack
that has room for the nested calls that it takes to read the expression. -/
theorem parse_printed {e : Shape} {budget : Nat} (printable : Printable e)
    (shallow : e.levels + 3 ≤ Parser.maxNesting) (room : e.calls + 3 ≤ budget) :
    ∃ p, parseWithin budget
          (Text.ofString "x = " ++ Text.spaced e.lexemes ++ Text.ofString " ;") = .ok p
      ∧ p.complaints = [] ∧ p.tree.shape = .program e.assigned := by
  obtain ⟨tokens, final, length, total, parsed, sees⟩ := parse_assigned budget printable
  exact printable.reads_back shallow room parsed sees

/-- The expression `f ( a . b , - 1 ** 2 ) [ i ] / new T ( "s" )`. -/
def quotient : Shape :=
  let name (s : String) : Shape := .mk () (.identifier (Text.ofString s))
  let number (s : String) : Shape := .mk () (.numericLiteral (Text.ofString s))
  let member : Shape := .mk () (.propertyAccess (name "a") (name "b") false)
  let power : Shape := .mk () (.binary .pow (.mk () (.unary .minus (number "1") true)) (number "2"))
  let call : Shape := .mk () (.call (name "f") [member, power] false)
  let text : Shape := .mk () (.stringLiteral (Text.ofString "s") .double)
  .mk () (.binary .div (.mk () (.elementAccess call (name "i") false))
    (.mk () (.newExpression (name "T") (some [text]))))

example : Text.spaced quotient.lexemes
    = Text.ofString "f ( a . b , - 1 ** 2 ) [ i ] / new T ( \"s\" )" := by decide +kernel

theorem printable_quotient : Printable quotient := by
  have letter {c : CodePoint} (start : c.isWordCharacter = true) (noDigit : c.isDigit = false)
      (plain : ∀ w ∈ reservedWords, [c] ≠ Text.ofString w) : IsPlainName [c] :=
    ⟨.of_flags start noDigit rfl, plain⟩
  have a : IsPlainName (Text.ofString "a") := letter (by decide) (by decide) (by decide)
  have b : IsPlainName (Text.ofString "b") := letter (by decide) (by decide) (by decide)
  have f : IsPlainName (Text.ofString "f") := letter (by decide) (by decide) (by decide)
  have i : IsPlainName (Text.ofString "i") := letter (by decide) (by decide) (by decide)
  have T : IsPlainName (Text.ofString "T") := letter (by decide) (by decide) (by decide)
  have one : IsInteger (Text.ofString "1") := ⟨by decide, by decide⟩
  have two : IsInteger (Text.ofString "2") := ⟨by decide, by decide⟩
  have member := Printable.property (.identifier a) (by decide) b
  have minus := Printable.unary (show UnaryOp.minus ∈ prefixOperators by decide) (.number one)
    (by decide)
  have power := Printable.binary (show BinaryOp.pow ≠ .lt by decide) (by decide) minus (by decide)
    (.number two) (by decide)
  have arguments := List.forall_mem_cons.mpr ⟨member, List.forall_mem_singleton.mpr power⟩
  have call := Printable.call (.identifier f) (by decide) arguments
  have text : Printable (.mk () (.stringLiteral (Text.ofString "s") .double)) :=
    .string (by decide)
  have construction :=
    Printable.construction (.identifier T) (by decide) (List.forall_mem_singleton.mpr text)
  exact .binary (by decide) (by decide) (.element call (by decide) (.identifier i)) (by decide)
    construction (by decide)

/-- Parsing undoes the printing of a division of two chains, with a budget of ten calls. -/
theorem parse_printed_quotient :
    Printable quotient ∧ quotient.levels + 3 ≤ Parser.maxNesting ∧ quotient.calls + 3 ≤ 10
      ∧ ∃ p, parseWithin 10
              (Text.ofString "x = " ++ Text.spaced quotient.lexemes ++ Text.ofString " ;") = .ok p
          ∧ p.complaints = [] ∧ p.tree.shape = .program quotient.assigned := by
  have shallow : quotient.levels + 3 ≤ Parser.maxNesting := by decide
  have room : quotient.calls + 3 ≤ 10 := by decide
  exact ⟨printable_quotient, shallow, room, parse_printed printable_quotient shallow room⟩

/-- **The room cannot be left out.**  A chain of five thousand powers is printed as it should
be and has a single level of nesting, but its program is lost. -/
theorem powers_not_read_back :
    Printable (powers 5000) ∧ (powers 5000).levels + 3 ≤ Parser.maxNesting
      ∧ ¬ ∃ p, parse (Text.ofString "x = " ++ Text.spaced (powers 5000).lexemes
              ++ Text.ofString " ;") = .ok p
          ∧ p.complaints = [] ∧ p.tree.shape = .program (powers 5000).assigned := by
  refine ⟨printable_powers 5000, ?_, ?_⟩
  · rw [levels_powers]
    decide
  · rintro ⟨p, parsed, none, _⟩
    obtain ⟨p', parsed', some, _⟩ := parse_powers (show parseBudget - 3 < 5000 by decide)
    change parse _ = _ at parsed'
    rw [parsed] at parsed'
    cases parsed'
    exact some none

end StackLint
