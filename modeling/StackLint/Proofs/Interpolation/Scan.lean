/-
  StackLint.Proofs.Interpolation.Scan
  ───────────────────────────────────
  **THE TOKENS OF AN INTERPOLATED TEMPLATE.**

  An interpolated template begins with its tag and template text.  Tokens in front of
  the brace that closes its last substitution stay as they are when the template text
  behind that brace changes, and move along when they stand further down.
-/
import StackLint.Proofs.Interpolation.Text
import StackLint.Proofs.Token.Exchange
import StackLint.Proofs.Token.Written

namespace StackLint

open PulumiOutput (interpolateTag)

namespace Scan

variable {braces : List OpenBrace} {previous : Option Lexeme} {e : CodePoint} {rest : Text}
  {found : Found}

/-! ## §1. Braces. -/

/-- A punctuator or a stray character is no template text. -/
theorem punctuator_ne_templateTail (rest value : Text) :
    (punctuator braces e rest).lexeme ≠ .templateTail value := by
  unfold punctuator
  simp only
  split <;> exact Lexeme.noConfusion

/-- **Only a brace that closes a substitution** leads to the end of a template. -/
theorem templatePart_of_templateTail {value : Text}
    (read : lexeme braces previous e rest = .ok found)
    (isTail : found.lexeme = .templateTail value) :
    e = .scalar '}' ∧ braces.head? = some .substitution
      ∧ templatePart false braces.tail rest = .ok found := by
  have ofString {quote : Quote} (read : stringLiteral quote braces rest = .ok found) : False := by
    obtain ⟨body, _, same⟩ := bind_eq_ok.mp read
    cases same
    cases isTail
  have ofPunctuator (read : punctuator braces e rest = found) : False := by
    rw [← read] at isTail
    exact punctuator_ne_templateTail rest value isTail
  unfold lexeme at read
  split at read
  · exact (ofString read).elim
  split at read
  · exact (ofString read).elim
  split at read
  · obtain ⟨body, _, same⟩ := bind_eq_ok.mp read
    cases same
    cases opens : body.opensSubstitution <;> rw [opens] at isTail <;> cases isTail
  split at read
  · split at read <;> cases read
    cases isTail
  split at read
  · split at read <;> (cases read; cases isTail)
  split at read
  · split at read
    · cases read
      cases isTail
    · exact (ofPunctuator (Except.ok.inj read)).elim
  split at read
  · next closes => exact ⟨closes.1, closes.2, read⟩
  · have isFound := Except.ok.inj read
    unfold nameOrPunctuator at isFound
    split at isFound
    · exact (ofPunctuator isFound).elim
    · rw [← isFound] at isTail
      cases isTail

/-- The braces that are open behind some tokens. -/
theorem Comes.braces_eq {memory memory' : Memory} {offset offset' : Nat} {t t' : Text}
    {tokens : List Token} (comes : Comes memory offset t tokens memory' offset' t') :
    memory'.braces = (tokens.map Token.lexeme).foldl bracesAfter memory.braces := by
  induction comes with
  | here => rfl
  | trivia _ _ ih => exact ih
  | lexeme _ read _ ih =>
      rw [ih, List.map_cons, List.foldl_cons]
      show List.foldl bracesAfter _ _ = _
      rw [Found.memory, braces_of_lexeme read]

/-! ## §2. The opening. -/

/-- The tokens of a template from its text `z` on, in which no substitution is open; the
first of them begins at `start`. -/
def templateTokens (opening newline : Bool) (start : Nat) (z : Text) :
    Except ScanFailure (List Token) := do
  let found ← templatePart opening [] z
  let tokens ← tokensFrom found.memory 0 (start + 1 + found.extra) (z.drop found.extra)
  return ⟨found.lexeme, start, start + 1 + found.extra, newline⟩ :: tokens

/-- A character that leads to template text. -/
theorem tokensFrom_templatePart {memory : Memory} {opening : Bool}
    (notTrivial : trivia? e rest = none)
    (same : lexeme memory.braces memory.previous e rest = templatePart opening [] rest)
    (start : Nat) :
    tokensFrom memory 0 start (e :: rest) = templateTokens opening memory.newline start rest := by
  unfold templateTokens
  cases read : templatePart opening [] rest with
  | error failure => exact tokensFrom_failure notTrivial (same.trans read)
  | ok found =>
      have fits := (templatePart_fits (c := e) read).extra_le
      have stop : start + found.extra + 1 = start + 1 + found.extra := Nat.add_right_comm _ _ _
      rw [tokensFrom_lexeme notTrivial (same.trans read), Nat.min_eq_left fits, stop]
      show _ = (tokensFrom found.memory 0 (start + 1 + found.extra) (rest.drop found.extra) >>= _)
      cases tokensFrom found.memory 0 (start + 1 + found.extra) (rest.drop found.extra) <;> rfl

/-- The token of the tag at the front of a text. -/
def tagToken : Token :=
  ⟨.word interpolateTag, 0, 12, false⟩

theorem lexeme_tag (z : Text) :
    lexeme [] none (.scalar '$') (interpolateTag.tail ++ .scalar '\x60' :: z)
      = .ok ⟨.word interpolateTag, 11, []⟩ := by
  refine lexeme_name ⟨.inl rfl, by decide, ?_⟩
  intro d isHead
  cases isHead
  decide

/-- **The tokens of an interpolated template** are its tag and those of a template. -/
theorem tokenize_interpolation (z : Text) :
    tokenize (interpolateTag ++ .scalar '\x60' :: z)
      = (templateTokens true false 12 z).map (tagToken :: ·) := by
  have noHashbang : hashbangWidth (interpolateTag ++ .scalar '\x60' :: z) = 0 := rfl
  have length : min 11 (interpolateTag.tail ++ CodePoint.scalar '\x60' :: z).length = 11 := by
    rw [List.length_append, show interpolateTag.tail.length = 11 from rfl]
    omega
  unfold tokenize
  rw [noHashbang]
  show tokensFrom .start 0 0 (.scalar '$' :: (interpolateTag.tail ++ .scalar '\x60' :: z)) = _
  rw [tokensFrom_lexeme rfl (lexeme_tag z)]
  show Except.map _ (tokensFrom ⟨[], some (.word interpolateTag), false⟩ 0
    (0 + 1 + min 11 (interpolateTag.tail ++ CodePoint.scalar '\x60' :: z).length)
    (.scalar '\x60' :: z)) = _
  exact (congrArg _ (length ▸ tokensFrom_templatePart rfl (show lexeme [] _ _ z = templatePart true [] z from rfl) _))

/-! ## §3. Parts with substitutions. -/

/-- The memory behind template text that opens the one substitution. -/
def Memory.substituting : Memory :=
  ⟨[.substitution], some (.templateHead []), false⟩

/-- Of the memory behind such a text only the braces matter. -/
theorem tokensFrom_substituting {l : Lexeme} (opens : regexAllowed (some l) = true) (offset : Nat)
    (t : Text) :
    tokensFrom ⟨[.substitution], some l, false⟩ 0 offset t
      = tokensFrom .substituting 0 offset t :=
  tokensFrom_congr (show regexAllowed (some l) = regexAllowed (some (.templateHead [])) from opens)
    offset t

/-- **A part of a template with substitutions.**  The text `front` opens the first of them,
behind text that says `value`, and comes to the end of the last one; the tokens `inner` lie
in and between them.  Behind the brace stands the text `last`, which says `literal`.  What
is read up to there does not depend on what follows the part. -/
structure Splice (part : Text) (inner : List Token) (tail : Token) (value : Text) (width : Nat)
    (front last literal : Text) : Prop where
  whole : part = front ++ .scalar '}' :: last
  short : width ≤ front.length
  start : tail.start = 13 + front.length
  read : templateBody 0 (last ++ [.scalar '\x60']) = .ok ⟨⟨literal, last.length + 1⟩, false⟩
  body : ∀ z, templateBody 0 (part ++ z) = .ok ⟨⟨value, width⟩, true⟩
  tokens : ∀ k z, tokensFrom .substituting 0 (13 + width + k) ((part ++ z).drop width)
    = (templateTokens false tail.newlineBefore (tail.start + k) (last ++ z)).map
        (inner.map (Token.shift k) ++ ·)

section

variable {part value literal : Text} {head tail final : Token} {inner : List Token}

/-- At a closing brace no name, numeral or comment goes on. -/
theorem joint_closeBrace (x y : Text) : Joint (.scalar '}') x (.scalar '}') y where
  digit _ := rfl
  notDigit' := by decide
  plain := by decide
  flag := id
  hex := id

/-- A text in front of a backtick and the same text, cut at a closing brace. -/
theorem exists_last {rest : Text} (whole : part ++ [.scalar '\x60'] = value ++ .scalar '}' :: rest) :
    ∃ last, rest = last ++ [.scalar '\x60'] ∧ part = value ++ .scalar '}' :: last := by
  rcases List.eq_nil_or_concat rest with rfl | ⟨last, c, rfl⟩
  · have last := (List.append_inj' whole rfl).2
    exact absurd last (by decide)
  · rw [List.concat_eq_append, ← List.cons_append, ← List.append_assoc] at whole
    obtain ⟨isPart, isLast⟩ := List.append_inj' whole rfl
    rw [List.concat_eq_append, ← isLast]
    exact ⟨last, rfl, isPart⟩

/-- What template text says that opens a substitution. -/
theorem body_of_templateHead {found : Found} {rest : Text}
    (read : templatePart true [] rest = .ok found) (opens : found.lexeme = .templateHead value) :
    templateBody 0 rest = .ok ⟨⟨value, found.extra⟩, true⟩
      ∧ found.memory = ⟨[.substitution], some (.templateHead value), false⟩ := by
  obtain ⟨⟨⟨value', width⟩, opensSubstitution⟩, isBody, same⟩ := bind_eq_ok.mp read
  cases same
  cases opensSubstitution <;> cases opens
  exact ⟨isBody, rfl⟩

/-- What template text says that ends a template. -/
theorem body_of_templateTail {found : Found} {rest : Text}
    (read : templatePart false [] rest = .ok found) (closes : found.lexeme = .templateTail literal) :
    templateBody 0 rest = .ok ⟨⟨literal, found.extra⟩, false⟩ := by
  obtain ⟨⟨⟨value', width⟩, opensSubstitution⟩, isBody, same⟩ := bind_eq_ok.mp read
  cases same
  cases opensSubstitution <;> cases closes
  exact isBody

/-- **A part whose tokens are known is spliced** into every longer template. -/
theorem exists_splice
    (run : templateTokens true false 12 (part ++ [.scalar '\x60'])
      = .ok (head :: (inner ++ [tail, final])))
    (opens : head.lexeme = .templateHead value) (closes : tail.lexeme = .templateTail literal)
    (stop : tail.stop = 13 + part.length + 1)
    (balanced : (inner.map Token.lexeme).foldl bracesAfter [.substitution] = [.substitution])
    (calm : Calm (some head.lexeme) inner) :
    ∃ width front last, Splice part inner tail value width front last literal
      ∧ head = ⟨.templateHead value, 12, 13 + width, false⟩ := by
  obtain ⟨found, read, run⟩ := bind_eq_ok.mp run
  obtain ⟨tokens, later, same⟩ := bind_eq_ok.mp run
  obtain ⟨isHead, rfl⟩ := List.cons.inj (Except.ok.inj same)
  have opens' : found.lexeme = .templateHead value := by
    rw [← isHead] at opens
    exact opens
  obtain ⟨isBody, memory⟩ := body_of_templateHead read opens'
  rw [memory] at later
  have notEnd : tail.lexeme ≠ .endOfText := by
    rw [closes]
    exact Lexeme.noConfusion
  obtain ⟨memory', e, rest, found', comes, notTrivial, read', isToken, _⟩ :=
    exists_comes later notEnd
  have isTail : found'.lexeme = .templateTail literal := by
    rw [isToken] at closes
    exact closes
  have braces := comes.braces_eq.trans balanced
  obtain ⟨rfl, _, read'⟩ := templatePart_of_templateTail read' isTail
  rw [braces] at read'
  have isLiteral := body_of_templateTail read' isTail
  obtain ⟨b, between, place⟩ := comes.exists_append
  -- The text up to the brace.
  have whole := List.take_append_drop found.extra (part ++ [CodePoint.scalar '\x60'])
  have length := congrArg List.length between
  rw [between, ← List.append_assoc] at whole
  obtain ⟨last, rfl, isPart⟩ := exists_last whole.symm
  simp only [List.length_drop, List.length_append, List.length_cons, List.length_nil] at length
  have taken : ((part ++ [CodePoint.scalar '\x60']).take found.extra).length = found.extra := by
    rw [List.length_take, List.length_append, List.length_singleton]
    omega
  generalize (part ++ [CodePoint.scalar '\x60']).take found.extra = opening at isPart taken
  have extra : found'.extra = last.length + 1 := by
    have isStop : tail.stop = tail.start + found'.extra + 1 := congrArg Token.stop isToken
    rw [stop, isPart] at isStop
    simp only [List.length_append, List.length_cons] at isStop
    omega
  have dropped (z : Text) : (part ++ z).drop found.extra = b ++ .scalar '}' :: (last ++ z) := by
    rw [isPart, List.append_assoc, List.append_assoc, List.drop_left' taken]
    rfl
  have calm' : Calm (some (.templateHead value)) inner := opens ▸ calm
  refine ⟨found.extra, opening ++ b, last, ⟨isPart, ?_, ?_, ?_, ?_, ?_⟩, ?_⟩
  · rw [List.length_append]
    omega
  · rw [place, List.length_append]
    omega
  · rw [isLiteral, extra]
  · intro z
    rw [isPart, List.append_assoc, List.cons_append]
    rw [isPart, List.append_assoc, List.cons_append] at isBody
    refine templateBody_local (fun _ _ => List.mem_cons_self) isBody ?_
    rw [List.length_append]
    exact Nat.le_add_right_of_le (Nat.le_of_eq taken.symm)
  · intro k z
    rw [between] at comes
    have goes := (comes.exchange [] (joint_closeBrace _ (last ++ z))
      (fun _ _ => List.mem_cons_self) (.inl calm') fun atNewline => absurd atNewline (by decide)).tokensFrom_eq
    have goesOn : tokensFrom memory' 0 (tail.start + k) (.scalar '}' :: (last ++ z))
        = templateTokens false tail.newlineBefore (tail.start + k) (last ++ z) := by
      rw [show tail.newlineBefore = memory'.newline from congrArg Token.newlineBefore isToken]
      refine tokensFrom_templatePart rfl ?_ _
      rw [braces]
      rfl
    rw [dropped, ← tokensFrom_substituting (l := .templateHead value) rfl, tokensFrom_shift, goes,
      ← goesOn, tokensFrom_shift]
    cases tokensFrom memory' 0 tail.start (.scalar '}' :: (last ++ z)) with
    | error failure => rfl
    | ok tokens => exact congrArg Except.ok List.map_append
  · rw [← isHead, opens']

end

end Scan

end StackLint
