/-
  StackLint.Proofs.Token.Blank
  ────────────────────────────
  **A BLANK BETWEEN TOKENS.**

  A blank that is put in front of a token changes no token: those in front of it stay,
  the others move by one.

  What could go wrong is a slash that began no regular expression, because the line ended
  first: the scanner has looked beyond the place, and what it saw there is one longer now.
  The blank ends no expression, but it could take the place of a character that a backslash
  escapes.  So it has to be shown that no backslash stands in front of the place.  Stray
  characters are excluded for that reason alone.
-/
import StackLint.Proofs.Token.Ending
import StackLint.Proofs.Token.Gap

namespace StackLint

namespace Scan

/-! ## §1. Gaps end with no backslash. -/

theorem ClosedComment.endsPlainly {body : Text} (closed : ClosedComment body) :
    body.EndsPlainly := by
  induction closed with
  | close => exact .of_getLast? rfl (by decide)
  | @char c body _ closed ih => exact ih.append closed.ne_nil [c]

/-- What stands between two tokens ends with no backslash. -/
theorem Gap.endsPlainly {gap : Text} (isGap : Gap false gap) : gap.EndsPlainly := by
  -- Each piece of the gap decides only where the gap ends with it.
  have behind {front rest : Text} (plain : front.EndsPlainly) (nonempty : front ≠ [])
      (ih : rest.EndsPlainly) : (front ++ rest).EndsPlainly := by
    by_cases none : rest = []
    · rw [none, List.append_nil]
      exact plain
    · exact ih.append none front
  induction isGap with
  | nil => exact .of_not_mem List.not_mem_nil
  | @blank c rest isBlank _ ih =>
      have plain : c ≠ .scalar '\\' := by
        rintro rfl
        exact absurd isBlank (by decide)
      have single : Text.EndsPlainly [c] := .of_getLast? rfl plain
      exact behind single (List.cons_ne_nil _ _) ih
  | @line body rest _ _ ih =>
      have last : (CodePoint.scalar '/' :: .scalar '/' :: (body ++ [.scalar '\n'])).getLast?
          = some (.scalar '\n') := by
        rw [← List.cons_append, ← List.cons_append, List.getLast?_concat]
      have plain := behind (.of_getLast? last (by decide)) (List.cons_ne_nil _ _) ih
      simpa using plain
  | @block body rest closed _ ih =>
      have plain := behind (closed.endsPlainly.append closed.ne_nil [.scalar '/', .scalar '*'])
        (by simp) ih
      simpa using plain
  | openLine never => cases never
  | openBlock never => cases never

/-! ## §2. Literals that are not closed. -/

/-- A string that is not closed ends with its line or with the text. -/
theorem stringBody_open {quote : CodePoint} {skip : Nat} {t : Text} {body : Decoded}
    (read : stringBody quote skip t = .ok body) (opens : stringCloses quote skip t = false) :
    ∀ c x, t.drop body.width = c :: x → c = .scalar '\n' := by
  induction t generalizing skip body with
  | nil =>
      intro c x behind
      rw [List.drop_nil] at behind
      cases behind
  | cons e rest ih =>
      have later {skip : Nat} {inner : Decoded} (found : stringBody quote skip rest = .ok inner)
          (opens : stringCloses quote skip rest = false) :
          ∀ c x, (e :: rest).drop (inner.width + 1) = c :: x → c = .scalar '\n' := by
        rw [List.drop_succ_cons]
        exact ih found opens
      cases skip with
      | succ skip =>
          rw [stringBody] at read
          rw [stringCloses] at opens
          obtain ⟨inner, found, same⟩ := bind_eq_ok.mp read
          cases same
          exact later found opens
      | zero =>
          rw [stringBody] at read
          rw [stringCloses] at opens
          by_cases backslash : e = .scalar '\\'
          · rw [if_pos backslash] at read opens
            obtain ⟨escape, decoded, read⟩ := bind_eq_ok.mp read
            obtain ⟨inner, found, same⟩ := bind_eq_ok.mp read
            cases same
            rw [decoded] at opens
            exact later found opens
          rw [if_neg backslash] at read opens
          by_cases atQuote : e = quote
          · rw [if_pos atQuote] at opens
            cases opens
          rw [if_neg atQuote] at read opens
          by_cases atNewline : e = .scalar '\n'
          · rw [if_pos atNewline] at read
            cases read
            intro c x behind
            rw [← (List.cons.inj behind).1]
            exact atNewline
          rw [if_neg atNewline] at read opens
          obtain ⟨inner, found, same⟩ := bind_eq_ok.mp read
          cases same
          exact later found opens

/-- A template that is not closed ends with the text. -/
theorem templateBody_open {skip : Nat} {t : Text} {body : TemplateText}
    (read : templateBody skip t = .ok body) (opens : templateCloses skip t = false) :
    t.drop body.width = [] := by
  induction t generalizing skip body with
  | nil => exact List.drop_nil
  | cons e rest ih =>
      have later {skip : Nat} {inner : TemplateText} (found : templateBody skip rest = .ok inner)
          (opens : templateCloses skip rest = false) : (e :: rest).drop (inner.width + 1) = [] := by
        rw [List.drop_succ_cons]
        exact ih found opens
      cases skip with
      | succ skip =>
          rw [templateBody] at read
          rw [templateCloses] at opens
          obtain ⟨inner, found, same⟩ := bind_eq_ok.mp read
          cases same
          exact later found opens
      | zero =>
          rw [templateBody] at read
          rw [templateCloses] at opens
          by_cases backslash : e = .scalar '\\'
          · rw [if_pos backslash] at read opens
            obtain ⟨escape, decoded, read⟩ := bind_eq_ok.mp read
            obtain ⟨inner, found, same⟩ := bind_eq_ok.mp read
            cases same
            rw [decoded] at opens
            exact later found opens
          rw [if_neg backslash] at read opens
          by_cases atBacktick : e = .scalar '\x60'
          · rw [if_pos atBacktick] at opens
            cases opens
          rw [if_neg atBacktick] at read opens
          by_cases substitutes : e = .scalar '$' ∧ rest.head? = some (.scalar '{')
          · rw [if_pos substitutes] at opens
            cases opens
          rw [if_neg substitutes] at read opens
          obtain ⟨inner, found, same⟩ := bind_eq_ok.mp read
          cases same
          exact later found opens

variable {b x rest : Text} {c e : CodePoint} {braces : List OpenBrace} {previous : Option Lexeme}
  {found : Found} {memory memory' : Memory} {offset offset' : Nat} {tokens : List Token}

/-- **A lexeme in front of a token is closed:** what follows it is no newline and not the
end of the text. -/
theorem isClosed_of_lexeme (read : lexeme braces previous e rest = .ok found)
    (behind : rest.drop found.extra = c :: x) (notNewline : c ≠ .scalar '\n') (stop : Nat)
    (newline : Bool) : Token.isClosed (e :: rest) ⟨found.lexeme, 0, stop, newline⟩ = true := by
  have ofString {quote : Quote} (read : stringLiteral quote braces rest = .ok found) :
      Token.isClosed (e :: rest) ⟨found.lexeme, 0, stop, newline⟩ = true := by
    obtain ⟨body, isBody, same⟩ := bind_eq_ok.mp read
    cases same
    show stringCloses quote.mark 0 rest = true
    rw [← Bool.not_eq_false]
    intro opens
    exact notNewline (stringBody_open isBody opens c x behind)
  have ofTemplate {opening : Bool} {braces : List OpenBrace}
      (read : templatePart opening braces rest = .ok found) :
      Token.isClosed (e :: rest) ⟨found.lexeme, 0, stop, newline⟩ = true := by
    obtain ⟨body, isBody, same⟩ := bind_eq_ok.mp read
    cases same
    have closes : templateCloses 0 rest = true := by
      rw [← Bool.not_eq_false]
      intro opens
      rw [templateBody_open isBody opens] at behind
      cases behind
    cases opening <;> cases opens : body.opensSubstitution <;> exact closes
  -- Only strings and templates can be left open.
  have ofPunctuator (isFound : punctuator braces e rest = found) :
      Token.isClosed (e :: rest) ⟨found.lexeme, 0, stop, newline⟩ = true := by
    subst isFound
    unfold punctuator
    simp only
    split <;> rfl
  unfold lexeme at read
  split at read
  · exact ofString read
  split at read
  · exact ofString read
  split at read
  · exact ofTemplate read
  split at read
  · split at read <;> cases read
    rfl
  split at read
  · split at read <;> (cases read; rfl)
  split at read
  · split at read
    · cases read
      rfl
    · exact ofPunctuator (Except.ok.inj read)
  split at read
  · exact ofTemplate read
  · have isFound := Except.ok.inj read
    unfold nameOrPunctuator at isFound
    split at isFound
    · exact ofPunctuator isFound
    · subst isFound
      rfl

/-! ## §3. What stands in front of a token. -/

/-- What is skipped up to a token ends with no backslash. -/
theorem endsPlainly_of_trivia? {extra : Nat} {newline : Bool}
    (skipped : trivia? c (b ++ e :: rest) = some (extra, newline)) (all : extra = b.length)
    (notNewline : e ≠ .scalar '\n') : Text.EndsPlainly (c :: b) := by
  have whole : c :: (b ++ e :: rest) = (c :: b) ++ e :: rest := rfl
  have skipped := skipped_of_trivia? skipped
  rw [all, whole] at skipped
  cases skipped with
  | piece piece after isWhole leads isWidth _ =>
      have same : c :: b = piece := (List.append_inj isWhole (by rw [← isWidth]; rfl)).1
      have gap := leads false [] .nil
      rw [List.append_nil, ← same] at gap
      exact gap.endsPlainly
  | line body after isWhole _ isWidth _ =>
      -- A comment on a line ends in front of a newline.
      have length : (c :: b).length
          = (CodePoint.scalar '/' :: .scalar '/' :: body).length := by
        rw [List.length_cons, isWidth, List.length_cons, List.length_cons]
      have split := List.append_inj
        (isWhole : (c :: b) ++ e :: rest
          = (CodePoint.scalar '/' :: .scalar '/' :: body) ++ .scalar '\n' :: after) length
      exact absurd (List.cons.inj split.2).1 notNewline
  | all _ isWidth _ =>
      -- A comment that reached the end of the text would have taken the token with it.
      rw [List.length_append, List.length_cons, List.length_cons] at isWidth
      omega

/-- **The text in front of a token ends with no backslash,** if no stray character stands
there. -/
theorem Comes.endsPlainly
    (comes : Comes memory offset (b ++ e :: rest) tokens memory' offset' (e :: rest))
    (notTrivial : trivia? e rest = none) (noStray : ∀ t ∈ tokens, t.isStray = false) :
    b.EndsPlainly := by
  have notNewline : e ≠ .scalar '\n' := by
    rintro rfl
    cases notTrivial
  generalize whole : b ++ e :: rest = t at comes
  generalize last : e :: rest = t' at comes
  -- Of the last step the end is known, and behind it nothing is left.
  have join {f : CodePoint} {b : Text} {extra : Nat}
      (ending : extra = b.length → Text.EndsPlainly (f :: b)) (inside : extra ≤ b.length)
      (ih : Text.EndsPlainly (b.drop extra)) : Text.EndsPlainly (f :: b) := by
    by_cases none : b.drop extra = []
    · exact ending (Nat.le_antisymm inside (List.drop_eq_nil_iff.mp none))
    · have split : f :: b = (f :: b.take extra) ++ b.drop extra := by
        rw [List.cons_append, List.take_append_drop]
      rw [split]
      exact ih.append none _
  induction comes generalizing b with
  | here =>
      have length := congrArg List.length (whole.trans last.symm)
      rw [List.length_append] at length
      rw [List.length_eq_zero_iff.mp (by omega : b.length = 0)]
      exact .of_not_mem List.not_mem_nil
  | @trivia memory _ offset offset' _ tokens f text extra newline skipped later ih =>
      rw [← last] at later
      obtain ⟨b, rfl, rfl, inside⟩ := later.split whole.symm
      apply join (fun all => endsPlainly_of_trivia? skipped all notNewline) inside
      exact ih noStray (List.drop_append_of_le_length inside).symm last
  | @lexeme memory _ offset offset' _ tokens f text found _ read later ih =>
      rw [← last] at later
      obtain ⟨b, rfl, rfl, inside⟩ := later.split whole.symm
      have dropped : (b ++ e :: rest).drop found.extra = b.drop found.extra ++ e :: rest :=
        List.drop_append_of_le_length inside
      apply join ?_ inside
      · exact ih (fun t isLater => noStray t (List.mem_cons_of_mem _ isLater)) dropped.symm last
      · intro all
        rw [all, List.drop_length] at dropped
        have closed := isClosed_of_lexeme read (all ▸ dropped) notNewline 0 false
        have ends := endsPlainly_of_lexeme read (fun d same => ?_) closed
        · rw [all, List.take_left] at ends
          exact ends
        · have isStray := noStray _ List.mem_cons_self
          unfold Token.isStray at isStray
          rw [same] at isStray
          cases isStray

/-! ## §4. The blank. -/

/-- No lexeme goes on with a blank. -/
theorem joint_blank (c : CodePoint) (x : Text) : Joint c x (.scalar ' ') (c :: x) where
  digit _ := by decide
  notDigit' := by decide
  plain := by decide
  flag isFlag := absurd isFlag (by decide)
  hex isHex := absurd isHex (by decide)

/-- A blank closes no braced escape. -/
theorem escapesStay_blank (b : Text) (c : CodePoint) (x : Text) :
    EscapesStay b c x (.scalar ' ') (c :: x) := by
  intro _ inside
  rcases List.mem_cons.mp inside with same | inside
  · exact absurd same (by decide)
  · exact inside

/-- A blank ends no regular expression, and none escapes it. -/
theorem staysOpen_blank (plain : b.EndsPlainly) (c : CodePoint) (x : Text) :
    StaysOpen b c x (.scalar ' ') (c :: x) where
  regex inClass none := by
    have notSlash : ¬ (CodePoint.scalar ' ' = .scalar '/' ∧ (!inClass) = true) :=
      fun both => absurd both.1 (by decide)
    rw [regexWidth?.eq_def]
    simp only
    rw [if_neg (by decide), if_neg (by decide), if_neg (by decide), if_neg (by decide),
      if_neg notSlash, none]
    rfl
  escaped last := absurd last plain

end Scan

/-- **A blank in front of a token moves the tokens from there on,** and changes none.  No
stray character may stand in front of it. -/
theorem tokenize_blank {text : Text} {before after : List Token} {t : Token}
    (run : tokenize text = .ok (before ++ t :: after)) (notEnd : t.lexeme ≠ .endOfText)
    (noStray : ∀ u ∈ before, u.isStray = false) :
    tokenize (text.take t.start ++ .scalar ' ' :: text.drop t.start)
      = .ok (before ++ (t :: after).map (Token.shift 1)) := by
  obtain ⟨memory, b, e, rest, found, way⟩ := Scan.exists_way run notEnd
  -- This is what the scans that looked beyond the place need of it.
  have plain : b.EndsPlainly := way.comes.endsPlainly way.notTrivial noStray
  have notNewline : e ≠ .scalar '\n' := by
    intro atNewline
    have notTrivial := way.notTrivial
    rw [atNewline] at notTrivial
    cases notTrivial
  have later := way.arrival.later
  rw [way.left] at later
  have skipped : Scan.trivia? (.scalar ' ') (e :: rest) = some (0, false) := rfl
  rw [way.left, way.arrival.exchange way.left (Scan.joint_blank e rest)
    (Scan.escapesStay_blank b e rest) (Scan.staysOpen_blank plain e rest) fun atNewline => absurd atNewline notNewline,
    Scan.tokensFrom_trivia skipped, Nat.zero_min, Nat.add_zero, List.drop_zero, Bool.or_false,
    Scan.tokensFrom_shift, later]
  rfl

/-- In front of a numeral: its point does not belong to the question mark. -/
theorem tokenize_blank_fraction :
    ∃ before after, tokenize "a?.5:b"
        = .ok (before ++ ⟨.number ".5", 2, 4, false⟩ :: after)
      ∧ (∀ u ∈ before, u.isStray = false)
      ∧ tokenize "a? .5:b"
        = .ok (before ++ ⟨.number ".5", 3, 5, false⟩ :: after.map (Token.shift 1)) := by
  let before : List Token := [⟨.word "a", 0, 1, false⟩, ⟨.punct .question, 1, 2, false⟩]
  let after : List Token :=
    [⟨.punct .colon, 4, 5, false⟩, ⟨.word "b", 5, 6, false⟩, ⟨.endOfText, 6, 6, false⟩]
  have run : tokenize "a?.5:b" = .ok (before ++ ⟨.number ".5", 2, 4, false⟩ :: after) :=
    eq_ok_of_toOption (by decide +kernel)
  have noStray : ∀ u ∈ before, u.isStray = false := by decide
  exact ⟨before, after, run, noStray, tokenize_blank run nofun noStray⟩

end StackLint
