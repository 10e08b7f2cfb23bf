/-
  StackLint.Proofs.Print.Spaced
  ─────────────────────────────
  **LEXEMES ARE READ AS THEY ARE WRITTEN.**

  Lexemes that are written with a blank between neighbours are cut at the blanks
  again, whatever stands next to each other, as long as no slash begins a regular
  expression.
-/
import StackLint.Proofs.Print.Phrase
import StackLint.Proofs.Token.Walk
import StackLint.Proofs.View.Renaming

namespace StackLint

/-! ## §1. Writing. -/

/-- How a lexeme is written. -/
def Lexeme.written : Lexeme → Text
  | .string quote value => quote.surround value
  | l => l.value

/-- The lexemes with a blank between neighbours. -/
def Text.spaced (ls : List Lexeme) : Text :=
  Text.join " " (ls.map Lexeme.written)

/-- What follows a lexeme: nothing, or a blank. -/
def Text.Breaks (tail : Text) : Prop :=
  tail = [] ∨ ∃ more, tail = .scalar ' ' :: more

theorem Text.Breaks.ends {tail : Text} (breaks : tail.Breaks) {p : CodePoint → Bool}
    (notBlank : p (.scalar ' ') = false) : ∀ c ∈ tail.head?, p c = false := by
  rcases breaks with rfl | ⟨more, rfl⟩
  · intro c isHead
    cases isHead
  · rintro _ ⟨⟩
    exact notBlank

/-! ## §2. Numbers. -/

namespace Number

variable {raw tail : Text}

theorem runLength_break {p : CodePoint → Bool} {t : Text} (all : ∀ c ∈ t, p c = true)
    (breaks : tail.Breaks) (notBlank : p (.scalar ' ') = false) :
    runLength p (t ++ tail) = t.length := by
  have stops : tail.takeWhile p = [] := by
    rcases breaks with rfl | ⟨more, rfl⟩
    · rfl
    · rw [List.takeWhile_cons_of_neg (by rw [notBlank]; exact Bool.false_ne_true)]
  unfold runLength
  rw [List.takeWhile_append_of_pos all, stops, List.append_nil]

/-- **An integer is read to its end.** -/
theorem width?_integer (integer : IsInteger raw) (breaks : tail.Breaks) :
    width? (raw ++ tail) = some raw.length := by
  obtain ⟨nonempty, digits⟩ := integer
  obtain ⟨c, rest, rfl⟩ := List.exists_cons_of_ne_nil nonempty
  have isDecimal : ∀ c ∈ Text.ofString "0123456789", c.isDecimal = true := by decide
  have noMark : ∀ c ∈ Text.ofString "0123456789", radixDigit? c = none := by decide
  have first := digits c (List.mem_cons_self ..)
  have others : ∀ d ∈ rest, isDigitOrUnderscore d = true := by
    intro d inside
    unfold isDigitOrUnderscore
    rw [isDecimal d (digits d (List.mem_cons_of_mem _ inside)), Bool.true_or]
  -- A radix is marked by a letter behind the first digit; here at most a digit or a blank follows.
  have noRadix : radixWidth? (c :: rest ++ tail) = none := by
    cases rest with
    | nil =>
        rcases breaks with rfl | ⟨more, rfl⟩
        · rfl
        · unfold radixWidth?
          dsimp only [List.cons_append, List.nil_append]
          split
          · rfl
          · rfl
    | cons d rest =>
        have mark := noMark d (digits d (List.mem_cons_of_mem _ (List.mem_cons_self ..)))
        unfold radixWidth?
        dsimp only [List.cons_append]
        rw [mark]
        split
        · rfl
        · rfl
  have mantissa : mantissaWidth? (c :: (rest ++ tail)) = some (1 + rest.length) := by
    unfold mantissaWidth?
    dsimp only
    rw [if_pos (isDecimal c first), runLength_break others breaks (by decide), List.drop_left]
    rcases breaks with rfl | ⟨more, rfl⟩
    · rfl
    · rfl
  have left : (c :: (rest ++ tail)).drop (1 + rest.length) = tail := by
    rw [Nat.add_comm, List.drop_succ_cons, List.drop_left]
  have noExponent : exponentWidth tail = 0 := by
    rcases breaks with rfl | ⟨more, rfl⟩ <;> rfl
  have noSuffix : suffixWidth tail = 0 := by
    rcases breaks with rfl | ⟨more, rfl⟩ <;> rfl
  unfold width?
  rw [noRadix, Option.none_or, List.cons_append]
  unfold decimalWidth?
  rw [mantissa]
  show some (1 + rest.length + exponentWidth ((c :: (rest ++ tail)).drop (1 + rest.length))
    + suffixWidth ((c :: (rest ++ tail)).drop (1 + rest.length + exponentWidth _))) = _
  rw [left, noExponent, Nat.add_zero, left, noSuffix, Nat.add_zero, List.length_cons, Nat.add_comm]

end Number

/-! ## §3. Single lexemes. -/

namespace Scan

variable {braces : List OpenBrace} {previous : Option Lexeme} {tail : Text}

/-- No substitution is open. -/
def IsPlainNesting (braces : List OpenBrace) : Prop :=
  ∀ b ∈ braces, b = .plain

/-- The braces that are open behind a lexeme. -/
def bracesBehind (l : Lexeme) (braces : List OpenBrace) : List OpenBrace :=
  match l with
  | .punct p => braceAfter p braces
  | _ => braces

theorem IsPlainNesting.behind (plain : IsPlainNesting braces) (l : Lexeme) :
    IsPlainNesting (bracesBehind l braces) := by
  cases l with
  | punct p =>
      cases p with
      | openBrace => exact List.forall_mem_cons.mpr ⟨rfl, plain⟩
      | closeBrace => exact fun b inside => plain b (List.mem_of_mem_tail inside)
      | _ => exact plain
  | _ => exact plain

/-- The lexeme is read in front of the rest of the text. -/
def Stands (braces : List OpenBrace) (previous : Option Lexeme) (l : Lexeme) (tail : Text) : Prop :=
  ∃ c t, l.written = c :: t ∧ trivia? c (t ++ tail) = none
    ∧ lexeme braces previous c (t ++ tail) = .ok ⟨l, t.length, bracesBehind l braces⟩

theorem stands_word {name : Text} (isName : StackLint.IsName name) (breaks : tail.Breaks) :
    Stands braces previous (.word name) tail := by
  obtain ⟨c, t, rfl, start, goesOn⟩ := isName
  refine ⟨c, t, rfl, trivia?_of_isFlag (isFlag_of_start start) _, ?_⟩
  exact lexeme_name ⟨start, goesOn, breaks.ends (by decide)⟩

theorem stands_string {quote : Quote} {value : Text} (plain : Plain quote value) :
    Stands braces previous (.string quote value) tail := by
  refine ⟨.scalar quote.mark, value ++ [.scalar quote.mark], rfl, ?_, ?_⟩
  · cases quote <;> rfl
  · rw [List.append_assoc]
    exact (lexeme_quoted plain).trans (by rw [List.length_append]; rfl)

theorem stands_number {raw : Text} (integer : IsInteger raw) (breaks : tail.Breaks) :
    Stands braces previous (.number raw) tail := by
  obtain ⟨c, t, rfl⟩ := List.exists_cons_of_ne_nil integer.1
  have width := Number.width?_integer integer breaks
  have isDigit : c ∈ Text.ofString "0123456789" := integer.2 c (List.mem_cons_self ..)
  have trivial : ∀ c ∈ Text.ofString "0123456789", isFlag c = true := by decide
  have begins : ∀ c ∈ Text.ofString "0123456789", c ≠ .scalar '"' ∧ c ≠ .scalar '\''
      ∧ c ≠ .scalar '\x60' ∧ c.isDigit = true := by decide
  obtain ⟨notDouble, notSingle, notTemplate, isDigit'⟩ := begins c isDigit
  refine ⟨c, t, rfl, trivia?_of_isFlag (trivial c isDigit) _, ?_⟩
  have starts : startsNumber c (t ++ tail) = true := by
    unfold startsNumber
    rw [isDigit', Bool.true_or]
  unfold lexeme
  rw [if_neg notDouble, if_neg notSingle, if_neg notTemplate, if_pos starts]
  rw [List.cons_append] at width
  rw [width]
  dsimp only
  rw [← List.cons_append, List.take_left]
  rfl

theorem stands_punct {p : Punct} (plain : IsPlainNesting braces)
    (divides : (Lexeme.punct p).isSlash = true → regexAllowed previous = false)
    (breaks : tail.Breaks) : Stands braces previous (.punct p) tail := by
  -- A closing brace goes on with a template only where a substitution is open.
  have noSubstitution : braces.head? ≠ some .substitution := by
    intro isHead
    cases plain _ (List.mem_of_head? isHead)
  obtain ⟨c, t, spelled⟩ := List.exists_cons_of_ne_nil p.text_ne_nil
  have trivial : trivia? c (t ++ tail) = none := by
    rcases breaks with rfl | ⟨more, rfl⟩ <;> cases p <;> cases spelled <;> rfl
  have noNumber : startsNumber c (t ++ tail) = false := by
    rcases breaks with rfl | ⟨more, rfl⟩ <;> cases p <;> cases spelled <;> rfl
  have read : punctuator braces c (t ++ tail) = ⟨.punct p, t.length, braceAfter p braces⟩ := by
    rcases breaks with rfl | ⟨more, rfl⟩ <;> cases p <;> cases spelled <;> rfl
  have noName : nameWidth (c :: (t ++ tail)) = 0 := by
    cases p <;> cases spelled <;> rfl
  have noQuote : c ≠ .scalar '"' ∧ c ≠ .scalar '\'' ∧ c ≠ .scalar '\x60' ∧ c ≠ .scalar '#' := by
    cases p <;> cases spelled <;> decide
  have noRegex : ¬ (c = .scalar '/' ∧ regexAllowed previous = true) := by
    rintro ⟨rfl, allowed⟩
    have isSlash : (Lexeme.punct p).isSlash = true := by
      cases p <;> first | rfl | cases spelled
    rw [divides isSlash] at allowed
    cases allowed
  refine ⟨c, t, spelled, trivial, ?_⟩
  unfold lexeme
  rw [if_neg noQuote.1, if_neg noQuote.2.1, if_neg noQuote.2.2.1, noNumber,
    if_neg Bool.false_ne_true, if_neg fun h => noQuote.2.2.2 h.1, if_neg noRegex,
    if_neg fun h => noSubstitution h.2]
  unfold nameOrPunctuator
  rw [noName]
  exact congrArg Except.ok read

/-- **A lexeme is read as it is written.** -/
theorem stands {l : Lexeme} (written : l.IsWritten) (plain : IsPlainNesting braces)
    (divides : l.isSlash = true → regexAllowed previous = false) (breaks : tail.Breaks) :
    Stands braces previous l tail := by
  cases l with
  | word name => exact stands_word written breaks
  | number raw => exact stands_number written breaks
  | string quote value => exact stands_string written
  | punct p => exact stands_punct plain divides breaks
  | _ => cases written

/-! ## §4. All lexemes. -/

/-- A lexeme in front of others. -/
theorem spaced_cons (l : Lexeme) (ls : List Lexeme) :
    ∃ tail, Text.spaced (l :: ls) = l.written ++ tail ∧ tail.Breaks
      ∧ ∀ (memory : Memory) (offset : Nat), memory.newline = false → ∃ offset',
          tokensFrom memory 0 offset tail = tokensFrom memory 0 offset' (Text.spaced ls) := by
  cases ls with
  | nil =>
      refine ⟨[], ?_, .inl rfl, fun memory offset _ => ⟨offset, rfl⟩⟩
      show List.intercalate (Text.ofString " ") [l.written] = _
      rw [List.intercalate_singleton, List.append_nil]
  | cons m ls =>
      refine ⟨.scalar ' ' :: Text.spaced (m :: ls), ?_, .inr ⟨_, rfl⟩, ?_⟩
      · show List.intercalate (Text.ofString " ") (l.written :: m.written :: _) = _
        rw [List.intercalate_cons_cons, List.append_assoc]
        rfl
      · intro memory offset sameLine
        have isBlank : trivia? (.scalar ' ') (Text.spaced (m :: ls)) = some (0, false) := rfl
        have kept : { memory with newline := memory.newline || false } = memory := by
          rw [sameLine, Bool.or_false, ← sameLine]
        refine ⟨offset + 1 + min 0 (Text.spaced (m :: ls)).length, ?_⟩
        rw [tokensFrom_trivia isBlank, List.drop_zero, kept]

/-- **Lexemes with blanks between them are read back.** -/
theorem tokensFrom_spaced {ls : List Lexeme} (written : ∀ l ∈ ls, l.IsWritten)
    (chain : ls.IsChain Lexeme.Precedes) {memory : Memory} (plain : IsPlainNesting memory.braces)
    (sameLine : memory.newline = false)
    (divides : ∀ l ∈ ls.head?, l.isSlash = true → regexAllowed memory.previous = false)
    (offset : Nat) :
    ∃ tokens, tokensFrom memory 0 offset (Text.spaced ls) = .ok tokens
      ∧ tokens.map Token.lexeme = ls ++ [.endOfText]
      ∧ ∀ t ∈ tokens, t.newlineBefore = false := by
  induction ls generalizing memory offset with
  | nil =>
      refine ⟨_, tokensFrom_nil memory offset, rfl, ?_⟩
      exact List.forall_mem_singleton.mpr sameLine
  | cons l ls ih =>
      obtain ⟨tail, isText, breaks, onward⟩ := spaced_cons l ls
      obtain ⟨c, t, spelled, trivial, read⟩ := stands (written l (List.mem_cons_self ..)) plain
        (divides l rfl) breaks
      obtain ⟨first, chain⟩ := List.isChain_cons.mp chain
      have left : (t ++ tail).drop t.length = tail := List.drop_left
      let behind : Memory := ⟨bracesBehind l memory.braces, some l, false⟩
      have plainBehind : IsPlainNesting behind.braces := plain.behind l
      obtain ⟨offset', goesOn⟩ :=
        onward behind (offset + 1 + min t.length (t ++ tail).length) rfl
      obtain ⟨tokens, scanned, same, sameLines⟩ :=
        ih (fun m inside => written m (List.mem_cons_of_mem _ inside)) chain plainBehind rfl first
          offset'
      refine ⟨⟨l, offset, offset + t.length + 1, memory.newline⟩ :: tokens, ?_, ?_, ?_⟩
      · rw [isText, spelled, List.cons_append, tokensFrom_lexeme trivial read]
        dsimp only
        rw [left]
        show (tokensFrom behind 0 _ tail).map _ = _
        rw [goesOn, scanned]
        rfl
      · rw [List.map_cons, same]
        rfl
      · exact List.forall_mem_cons.mpr ⟨sameLine, sameLines⟩

end Scan

end StackLint
