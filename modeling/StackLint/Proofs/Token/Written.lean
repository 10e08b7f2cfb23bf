/-
  StackLint.Proofs.Token.Written
  ──────────────────────────────
  **NAMES AND STRINGS AS THEY ARE WRITTEN.**

  A name, or a text between quotes that needs no escape, is read as one lexeme
  wherever it stands.
-/
import StackLint.Proofs.Except
import StackLint.Token.Scan

namespace StackLint

/-- The two quotes are different characters. -/
theorem Quote.eq_of_mark {quote quote' : Quote}
    (same : CodePoint.scalar quote.mark = .scalar quote'.mark) : quote = quote' := by
  cases quote <;> cases quote' <;> first | rfl | exact absurd same (by decide)

namespace Scan

variable {braces : List OpenBrace} {previous : Option Lexeme} {rest : Text} {c : CodePoint}

/-! ## §1. Strings. -/

/-- The text needs no escape between these quotes. -/
def Plain (quote : Quote) (t : Text) : Prop :=
  ∀ c ∈ t, c ≠ .scalar '\\' ∧ c ≠ .scalar quote.mark ∧ c ≠ .scalar '\n'

instance (quote : Quote) (t : Text) : Decidable (Plain quote t) := by
  unfold Plain
  infer_instance

/-- A string goes on behind such a text. -/
theorem stringBody_append {quote : Quote} {t : Text} (plain : Plain quote t) (rest : Text) :
    stringBody quote.mark 0 (t ++ rest)
      = (stringBody quote.mark 0 rest).map fun body => ⟨t ++ body.value, t.length + body.width⟩ := by
  induction t with
  | nil =>
      rw [List.nil_append]
      cases stringBody quote.mark 0 rest with
      | error failure => rfl
      | ok body =>
          simp only [Except.map, List.nil_append, List.length_nil, Nat.zero_add]
  | cons c t ih =>
      obtain ⟨notBackslash, notQuote, notNewline⟩ := plain c (List.mem_cons_self ..)
      rw [List.cons_append, stringBody, if_neg notBackslash, if_neg notQuote, if_neg notNewline,
        ih fun e inside => plain e (List.mem_cons_of_mem _ inside)]
      cases stringBody quote.mark 0 rest with
      | error failure => rfl
      | ok body =>
          show Except.ok _ = Except.ok _
          rw [List.length_cons, Nat.add_right_comm]
          rfl

theorem stringBody_plain {quote : Quote} {t : Text} (plain : Plain quote t) (rest : Text) :
    stringBody quote.mark 0 (t ++ .scalar quote.mark :: rest) = .ok ⟨t, t.length + 1⟩ := by
  have notBackslash : CodePoint.scalar quote.mark ≠ .scalar '\\' := by
    cases quote <;> decide
  have closed : stringBody quote.mark 0 (.scalar quote.mark :: rest) = .ok ⟨[], 1⟩ := by
    rw [stringBody, if_neg notBackslash, if_pos rfl]
  rw [stringBody_append plain, closed]
  simp only [Except.map, List.append_nil]

/-- A string without width has no text. -/
theorem stringBody_value_eq_nil {quote : CodePoint} {t : Text} {body : Decoded}
    (read : stringBody quote 0 t = .ok body) (none : body.width = 0) : body.value = [] := by
  have positive {c : Except ScanFailure Decoded} {f : Decoded → Text}
      (h : (do let body ← c; return (⟨f body, body.width + 1⟩ : Decoded)) = .ok body) : False := by
    obtain ⟨inner, _, same⟩ := bind_eq_ok.mp h
    cases same
    cases none
  cases t with
  | nil =>
      cases read
      rfl
  | cons c t =>
      rw [stringBody] at read
      split at read
      · obtain ⟨escape, _, read⟩ := bind_eq_ok.mp read
        exact (positive read).elim
      split at read
      · cases read
        rfl
      split at read
      · cases read
        rfl
      · exact (positive read).elim

/-- A text in quotes is a string. -/
theorem lexeme_quoted {quote : Quote} {t : Text} (plain : Plain quote t) :
    lexeme braces previous (.scalar quote.mark) (t ++ .scalar quote.mark :: rest)
      = .ok ⟨.string quote t, t.length + 1, braces⟩ := by
  cases quote with
  | double =>
      show (stringLiteral .double braces _) = _
      unfold stringLiteral
      rw [stringBody_plain plain]
      rfl
  | single =>
      show (stringLiteral .single braces _) = _
      unfold stringLiteral
      rw [stringBody_plain plain]
      rfl

/-- A quote in front of a text that is not closed behind it. -/
theorem lexeme_unclosed {quote : Quote} {t : Text} {found : Found} (plain : Plain quote t)
    (read : lexeme braces previous (.scalar quote.mark) (t ++ rest) = .ok found)
    (short : found.extra ≤ t.length) : found = ⟨.string quote t, t.length, braces⟩ := by
  have isString : stringLiteral quote braces (t ++ rest) = .ok found := by
    cases quote <;> exact read
  unfold stringLiteral at isString
  rw [stringBody_append plain] at isString
  obtain ⟨body, isBody, same⟩ := bind_eq_ok.mp isString
  cases left : stringBody quote.mark 0 rest with
  | error failure =>
      rw [left] at isBody
      cases isBody
  | ok inner =>
      rw [left] at isBody
      cases isBody
      cases same
      have none : inner.width = 0 := Nat.le_zero.mp (Nat.le_of_add_le_add_left short)
      simp only [stringBody_value_eq_nil left none, none, List.append_nil, Nat.add_zero]

/-- **A string is what stands between its quotes.** -/
theorem stringBody_of_lexeme {found : Found} {quote : Quote} {value : Text}
    (read : lexeme braces previous c rest = .ok found) (isString : found.lexeme = .string quote value) :
    c = .scalar quote.mark ∧ ∃ width, stringBody quote.mark 0 rest = .ok ⟨value, width⟩ := by
  have ofString {quote' : Quote} (read : stringLiteral quote' braces rest = .ok found) :
      quote' = quote ∧ ∃ width, stringBody quote'.mark 0 rest = .ok ⟨value, width⟩ := by
    obtain ⟨body, isBody, same⟩ := bind_eq_ok.mp read
    cases same
    cases isString
    exact ⟨rfl, body.width, isBody⟩
  have ofTemplate {opening : Bool} {braces' : List OpenBrace}
      (read : templatePart opening braces' rest = .ok found) : False := by
    obtain ⟨body, _, same⟩ := bind_eq_ok.mp read
    cases same
    cases opening <;> cases opens : body.opensSubstitution <;> rw [opens] at isString <;>
      cases isString
  have ofPunctuator (isFound : punctuator braces c rest = found) : False := by
    unfold punctuator at isFound
    simp only at isFound
    split at isFound <;> (subst isFound; cases isString)
  unfold lexeme at read
  split at read
  · next isQuote =>
      obtain ⟨rfl, body⟩ := ofString read
      exact ⟨isQuote, body⟩
  split at read
  · next isQuote =>
      obtain ⟨rfl, body⟩ := ofString read
      exact ⟨isQuote, body⟩
  -- No other lexeme is a string.
  split at read
  · exact absurd read fun read => ofTemplate read
  split at read
  · split at read <;> cases read
    cases isString
  split at read
  · split at read <;> (cases read; cases isString)
  split at read
  · split at read
    · cases read
      cases isString
    · exact absurd (Except.ok.inj read) fun isFound => ofPunctuator isFound
  split at read
  · exact absurd read fun read => ofTemplate read
  · have isFound := Except.ok.inj read
    unfold nameOrPunctuator at isFound
    split at isFound
    · exact absurd isFound fun isFound => ofPunctuator isFound
    · subst isFound
      cases isString

/-! ## §2. Names. -/

/-- The name begins with `c`, goes on with `t`, and is not continued by `rest`. -/
structure IsName (c : CodePoint) (t rest : Text) : Prop where
  start : c = .scalar '$' ∨ (c.isWordCharacter = true ∧ c.isDigit = false)
  goesOn : t.all isFlag = true
  ends : ∀ d ∈ rest.head?, isFlag d = false

theorem isFlag_of_start (start : c = .scalar '$' ∨ (c.isWordCharacter = true ∧ c.isDigit = false)) :
    isFlag c = true := by
  unfold isFlag
  rcases start with dollar | ⟨word, _⟩
  · rw [dollar]
    rfl
  · rw [word, Bool.true_or]

/-- The characters of a name are no other characters. -/
theorem ne_of_all_isFlag {t : Text} (flags : t.all isFlag = true) {e : CodePoint} (inside : e ∈ t)
    {f : CodePoint} (notFlag : isFlag f = false) : e ≠ f := by
  rintro rfl
  rw [List.all_eq_true.mp flags e inside] at notFlag
  cases notFlag

/-- What a name goes on with is neither a blank nor a comment. -/
theorem trivia?_of_isFlag {c : CodePoint} (isFlag : isFlag c = true) (rest : Text) :
    trivia? c rest = none := by
  have flags : [c].all Scan.isFlag = true := by
    rw [List.all_cons, isFlag]
    rfl
  have ne {d : CodePoint} (notFlag : Scan.isFlag d = false) : c ≠ d :=
    ne_of_all_isFlag flags (List.mem_singleton_self c) notFlag
  have notBlank : isBlank c = false := by
    have differs {d : CodePoint} (notFlag : Scan.isFlag d = false) : (c == d) = false :=
      beq_false_of_ne (ne notFlag)
    unfold isBlank
    rw [differs (by decide), differs (by decide), differs (by decide), differs (by decide),
      differs (by decide), differs (by decide +kernel), differs (by decide +kernel)]
    rfl
  unfold trivia?
  rw [if_neg (ne (by decide)), notBlank, if_neg Bool.false_ne_true, if_neg (ne (by decide))]

theorem nameWidth_of_isName {t : Text} (isName : IsName c t rest) :
    nameWidth (c :: (t ++ rest)) = t.length + 1 := by
  have begins : c = .scalar '$' ∨ (c.isWordCharacter = true ∧ (!c.isDecimal) = true) := by
    rcases isName.start with dollar | ⟨word, noDigit⟩
    · exact .inl dollar
    · right
      unfold CodePoint.isDigit at noDigit
      rw [(Bool.or_eq_false_iff.mp noDigit).1]
      exact ⟨word, rfl⟩
  have stops : rest.takeWhile isFlag = [] := by
    cases rest with
    | nil => rfl
    | cons d rest => rw [List.takeWhile_cons_of_neg (by rw [isName.ends d rfl]; nofun)]
  have run : runLength isFlag (t ++ rest) = t.length := by
    unfold runLength
    rw [List.takeWhile_append_of_pos (List.all_eq_true.mp isName.goesOn), stops, List.append_nil]
  rw [nameWidth, if_pos begins, run, Nat.add_comm]

/-- **A name is a word.** -/
theorem lexeme_name {t : Text} (isName : IsName c t rest) :
    lexeme braces previous c (t ++ rest) = .ok ⟨.word (c :: t), t.length, braces⟩ := by
  have ne_of_mark {mark : Char} (notDollar : mark ≠ '$')
      (noWord : (CodePoint.scalar mark).isWordCharacter = false) : c ≠ .scalar mark := by
    intro same
    rcases isName.start with dollar | ⟨word, _⟩
    · rw [same] at dollar
      exact notDollar (CodePoint.scalar.inj dollar)
    · rw [same, noWord] at word
      cases word
  have noNumber : startsNumber c (t ++ rest) = false := by
    have noPoint : (c == .scalar '.') = false := beq_false_of_ne (ne_of_mark (by decide) (by decide))
    have noDigit : c.isDigit = false := by
      rcases isName.start with dollar | ⟨_, noDigit⟩
      · rw [dollar]
        decide
      · exact noDigit
    unfold startsNumber
    rw [noPoint, noDigit, Bool.false_and, Bool.or_false]
  have notHash : ¬ (c = .scalar '#' ∧ t ++ rest ≠ []) := fun h => ne_of_mark (by decide) (by decide) h.1
  have notSlash : ¬ (c = .scalar '/' ∧ regexAllowed previous = true) :=
    fun h => ne_of_mark (by decide) (by decide) h.1
  have notBrace : ¬ (c = .scalar '}' ∧ braces.head? = some .substitution) :=
    fun h => ne_of_mark (by decide) (by decide) h.1
  unfold lexeme
  rw [if_neg (ne_of_mark (by decide) (by decide)), if_neg (ne_of_mark (by decide) (by decide)),
    if_neg (ne_of_mark (by decide) (by decide)), noNumber, if_neg Bool.false_ne_true, if_neg notHash,
    if_neg notSlash, if_neg notBrace]
  unfold nameOrPunctuator
  rw [nameWidth_of_isName isName]
  simp

/-- A name is read as far as it goes. -/
theorem ends_of_lexeme {t : Text} {found : Found}
    (read : lexeme braces previous c (t ++ rest) = .ok found)
    (start : c = .scalar '$' ∨ (c.isWordCharacter = true ∧ c.isDigit = false))
    (goesOn : t.all isFlag = true) (short : found.extra ≤ t.length) :
    ∀ d ∈ rest.head?, isFlag d = false := by
  -- Of what is left, all flags at its head belong to the name.
  have whole : IsName c (t ++ rest.takeWhile isFlag) (rest.dropWhile isFlag) := by
    refine ⟨start, ?_, ?_⟩
    · rw [List.all_append, goesOn, List.all_takeWhile]
      rfl
    · intro d isHead
      have stops := List.head?_dropWhile_not isFlag rest
      rw [Option.mem_def.mp isHead] at stops
      exact stops
  have isFound : lexeme braces previous c (t ++ rest.takeWhile isFlag ++ rest.dropWhile isFlag)
      = .ok _ := lexeme_name whole
  rw [List.append_assoc, List.takeWhile_append_dropWhile, read] at isFound
  have extra : found.extra = (t ++ rest.takeWhile isFlag).length :=
    congrArg Found.extra (Except.ok.inj isFound)
  rw [List.length_append] at extra
  have none : rest.takeWhile isFlag = [] := List.length_eq_zero_iff.mp (by omega)
  intro d isHead
  cases rest with
  | nil => cases isHead
  | cons e rest =>
      cases isHead
      cases goes : isFlag d with
      | false => rfl
      | true =>
          rw [List.takeWhile_cons_of_pos goes] at none
          cases none

end Scan

end StackLint
