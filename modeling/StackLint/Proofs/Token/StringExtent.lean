/-
  StackLint.Proofs.Token.StringExtent
  ───────────────────────────────────
  **HOW FAR A STRING REACHES.**

  A string literal is meant to end on its line: a newline in it is escaped, and so is a
  quote of its kind in front of its end.  Of all escapes only a braced one can break this,
  because everything up to the next closing brace is its numeral, quotes and newlines
  included.  A literal keeps to its line exactly if the numerals of its braced escapes do.

  The text of a literal is a sequence of pieces, a plain character or an escape each.  No
  piece leaves a backslash behind that would escape the next one, so what is escaped in a
  piece can be seen from it alone.
-/
import StackLint.Proofs.Token.Exchange
import StackLint.Proofs.Token.Written

namespace StackLint

/-! ## §1. Escaped characters. -/

namespace Text

/-- The text escapes the character behind it: it ends with an odd number of backslashes. -/
def Escapes (front : Text) : Prop :=
  runLength (· == (.scalar '\\')) front.reverse % 2 = 1

instance (front : Text) : Decidable front.Escapes :=
  inferInstanceAs (Decidable (_ = _))

/-- A newline behind the text continues the line: there is a backslash directly before it, or
a backslash and a carriage return. -/
def Continues (front : Text) : Prop :=
  [.scalar '\\'] <:+ front ∨ [.scalar '\\', .scalar '\r'] <:+ front

/-- **The rest of a string literal, behind its opening quote, ends on its line:** every
newline in it stands behind a backslash, or behind one and a carriage return, and every quote
of its kind is escaped or the last character. -/
structure KeepsToLine (quote : CodePoint) (t : Text) : Prop where
  newline : ∀ front rest, t = front ++ .scalar '\n' :: rest → Continues front
  quote : ∀ front rest, t = front ++ quote :: rest → Escapes front ∨ rest = []

variable {front t : Text} {c : CodePoint}

theorem not_escapes_nil : ¬ Escapes [] := by
  decide

theorem not_continues_nil : ¬ Continues [] := by
  rintro (⟨f, same⟩ | ⟨f, same⟩) <;> cases f <;> cases same

theorem not_escapes_concat (plain : c ≠ .scalar '\\') : ¬ Escapes (front ++ [c]) := by
  unfold Escapes
  have stops : (c == .scalar '\\') = false := beq_false_of_ne plain
  rw [List.reverse_append, List.reverse_singleton, List.singleton_append,
    Scan.runLength_cons_neg (p := (· == CodePoint.scalar '\\')) stops]
  decide

theorem not_escapes_of_not_mem (none : .scalar '\\' ∉ t) : ¬ Escapes t := by
  rcases List.eq_nil_or_concat t with rfl | ⟨front, c, rfl⟩
  · exact not_escapes_nil
  · rw [List.concat_eq_append] at none ⊢
    apply not_escapes_concat
    rintro rfl
    exact none (List.mem_append_right _ List.mem_cons_self)

/-- **Behind a text that escapes nothing** a text escapes what it does by itself. -/
theorem escapes_append (settled : ¬ Escapes front) : Escapes (front ++ t) ↔ Escapes t := by
  unfold Escapes at settled ⊢
  have alone := Scan.runLength_append (· == (CodePoint.scalar '\\')) t.reverse []
  rw [List.append_nil] at alone
  rw [List.reverse_append, Scan.runLength_append, alone]
  split
  · -- Nothing but backslashes: their numbers add up.
    show (_ + _) % 2 = 1 ↔ (_ + 0) % 2 = 1
    omega
  · exact Iff.rfl

theorem Continues.append (continues : Continues t) : Continues (front ++ t) :=
  continues.imp (·.trans (List.suffix_append front t)) (·.trans (List.suffix_append front t))

/-- A suffix without the character begins behind it. -/
theorem suffix_of_not_mem {s : Text} (suffix : s <:+ front ++ c :: t) (other : c ∉ s) :
    s <:+ t := by
  have behind : c :: t <:+ front ++ c :: t := List.suffix_append front (c :: t)
  by_cases short : s.length ≤ t.length
  · exact List.suffix_of_suffix_length_le suffix ((List.suffix_cons c t).trans behind) short
  · have covers : c :: t <:+ s :=
      List.suffix_of_suffix_length_le behind suffix (by rw [List.length_cons]; omega)
    exact absurd (covers.subset List.mem_cons_self) other

/-- What continues a line does so by what stands behind a plain character. -/
theorem Continues.of_append (continues : Continues (front ++ c :: t)) (plain : c ≠ .scalar '\\')
    (other : c ≠ .scalar '\r') : Continues t :=
  continues.imp
    (fun suffix => suffix_of_not_mem suffix (by simp [plain]))
    (fun suffix => suffix_of_not_mem suffix (by simp [plain, other]))

/-! ## §2. Pieces. -/

variable {quote : CodePoint} {piece rest : Text}

theorem KeepsToLine.of_not_mem (noNewline : .scalar '\n' ∉ t) (noQuote : quote ∉ t) :
    KeepsToLine quote t where
  newline front rest same := by
    rw [same] at noNewline
    exact absurd (List.mem_append_right _ List.mem_cons_self) noNewline
  quote front rest same := by
    rw [same] at noQuote
    exact absurd (List.mem_append_right _ List.mem_cons_self) noQuote

/-- **A piece of a literal that goes on behind it:** it keeps to the line, escapes nothing
that follows, and ends with no quote that would close the literal. -/
structure IsPiece (quote : CodePoint) (piece : Text) : Prop where
  keeps : KeepsToLine quote piece
  settled : ¬ Escapes piece
  goesOn : ∀ f, piece = f ++ [quote] → Escapes f

/-- **A piece in front.** -/
theorem IsPiece.append (isPiece : IsPiece quote piece) (keeps : KeepsToLine quote rest) :
    KeepsToLine quote (piece ++ rest) where
  newline front back same := by
    rcases List.append_eq_append_iff.mp same with ⟨f, rfl, isRest⟩ | ⟨f, isPiece', isBack⟩
    · exact (keeps.newline f back isRest).append
    · cases f with
      | nil =>
          -- No newline comes first in what follows.
          exact absurd (keeps.newline [] back isBack.symm) not_continues_nil
      | cons c f =>
          rw [List.cons_append, List.cons.injEq] at isBack
          rw [← isBack.1] at isPiece'
          exact isPiece.keeps.newline front f isPiece'
  quote front back same := by
    rcases List.append_eq_append_iff.mp same with ⟨f, rfl, isRest⟩ | ⟨f, isPiece', isBack⟩
    · exact (keeps.quote f back isRest).imp_left (escapes_append isPiece.settled).mpr
    · cases f with
      | nil =>
          rcases keeps.quote [] back isBack.symm with escapes | last
          · exact absurd escapes not_escapes_nil
          · exact .inr last
      | cons c f =>
          rw [List.cons_append, List.cons.injEq] at isBack
          rw [← isBack.1] at isPiece'
          rcases isPiece.keeps.quote front f isPiece' with escapes | last
          · exact .inl escapes
          · rw [last] at isPiece'
            exact .inl (isPiece.goesOn front isPiece')

/-- What keeps to the line as a whole does so behind a character that escapes nothing. -/
theorem KeepsToLine.of_append {behind : Text} (plain : c ≠ .scalar '\\') (other : c ≠ .scalar '\r')
    (whole : KeepsToLine quote (front ++ [c] ++ (t ++ behind))) :
    KeepsToLine quote t where
  newline f rest same := by
    have found := whole.newline (front ++ c :: f) (rest ++ behind) (by rw [same]; simp)
    exact found.of_append plain other
  quote f rest same := by
    have found := whole.quote (front ++ [c] ++ f) (rest ++ behind) (by rw [same]; simp)
    rcases found with escapes | last
    · exact .inl ((escapes_append (not_escapes_concat plain)).mp escapes)
    · exact .inr (List.append_eq_nil_iff.mp last).1

/-- A plain character. -/
theorem isPiece_plain (notBackslash : c ≠ .scalar '\\') (notQuote : c ≠ quote)
    (notNewline : c ≠ .scalar '\n') : IsPiece quote [c] where
  keeps := .of_not_mem (fun inside => notNewline (List.mem_singleton.mp inside).symm)
    (fun inside => notQuote (List.mem_singleton.mp inside).symm)
  settled := @not_escapes_concat [] c notBackslash
  goesOn f same := by
    have last : [c] = [quote] :=
      (List.append_inj' (show [] ++ [c] = f ++ [quote] from same) rfl).2
    exact absurd (List.cons.inj last).1 notQuote

/-- Of an escape with digits only the character behind the backslash can be special. -/
theorem eq_of_escape {digits : Text} {mark : CodePoint} (other : mark ≠ .scalar '\\')
    (none : mark ∉ digits) (same : .scalar '\\' :: c :: digits = front ++ mark :: rest) :
    front = [.scalar '\\'] := by
  cases front with
  | nil => exact absurd (List.cons.inj same).1.symm other
  | cons e front =>
      obtain ⟨rfl, behind⟩ := List.cons.inj same
      cases front with
      | nil => rfl
      | cons e front =>
          have isDigits : digits = front ++ mark :: rest := (List.cons.inj behind).2
          rw [isDigits] at none
          exact absurd (List.mem_append_right _ List.mem_cons_self) none

theorem escapes_of_escape {digits : Text} {mark : CodePoint} (other : mark ≠ .scalar '\\')
    (none : mark ∉ digits) (same : .scalar '\\' :: c :: digits = front ++ mark :: rest) :
    Escapes front := by
  rw [eq_of_escape other none same]
  decide

/-- An escaped character, and digits behind it. -/
theorem isPiece_escape {digits : Text} (notBackslash : quote ≠ .scalar '\\')
    (noBackslash : .scalar '\\' ∉ digits) (noQuote : quote ∉ digits)
    (noNewline : .scalar '\n' ∉ digits) : IsPiece quote (.scalar '\\' :: c :: digits) where
  keeps :=
    ⟨fun _ _ same => .inl (eq_of_escape (by decide) noNewline same ▸ List.suffix_rfl),
      fun _ _ same => .inl (escapes_of_escape notBackslash noQuote same)⟩
  settled := by
    have pair : ¬ Escapes [.scalar '\\', c] := by
      by_cases backslash : c = .scalar '\\'
      · rw [backslash]
        decide
      · exact @not_escapes_concat [.scalar '\\'] c backslash
    intro escapes
    have behind : Escapes digits := (escapes_append pair).mp escapes
    exact not_escapes_of_not_mem noBackslash behind
  goesOn _ same := escapes_of_escape notBackslash noQuote same

/-- A newline that is escaped behind a carriage return. -/
theorem isPiece_line (other : quote ∉ ("\\\r\n" : Text)) :
    IsPiece quote [.scalar '\\', .scalar '\r', .scalar '\n'] where
  keeps := by
    constructor
    · intro front rest same
      cases front with
      | nil => exact absurd (List.cons.inj same).1 (by decide)
      | cons a front =>
          obtain ⟨isMark, behind⟩ := List.cons.inj same
          cases front with
          | nil => exact absurd (List.cons.inj behind).1 (by decide)
          | cons b front =>
              obtain ⟨isReturn, behind⟩ := List.cons.inj behind
              cases front with
              | nil =>
                  subst isMark isReturn
                  exact .inr List.suffix_rfl
              | cons c front => exact absurd (List.cons.inj behind).2 (by simp)
    · intro front rest same
      apply absurd _ other
      show quote ∈ [CodePoint.scalar '\\', .scalar '\r', .scalar '\n']
      rw [same]
      exact List.mem_append_right _ List.mem_cons_self
  settled := by decide
  goesOn f same := by
    apply absurd _ other
    show quote ∈ [CodePoint.scalar '\\', .scalar '\r', .scalar '\n']
    rw [same]
    exact List.mem_append_right _ List.mem_cons_self

end Text

/-! ## §3. The text of an escape. -/

namespace Escape

open Scan

/-- What stands behind the backslash of an escape. -/
inductive IsWritten : Text → Prop where
  /-- A character, and the digits that belong to it. -/
  | char {c : CodePoint} {digits : Text} (hex : ∀ f ∈ digits, f.hexValue.isSome = true) :
      IsWritten (c :: digits)
  /-- A line that goes on. -/
  | line : IsWritten [.scalar '\r', .scalar '\n']
  | braced {numeral : Text} (noBrace : .scalar '}' ∉ numeral) :
      IsWritten (.scalar 'u' :: .scalar '{' :: (numeral ++ [.scalar '}']))

variable {rest : Text} {e : CodePoint}

theorem isWritten_single (c : CodePoint) (rest : Text) : IsWritten ((c :: rest).take 1) :=
  @IsWritten.char c [] fun _ never => nomatch never

/-- As many digits as the letter wants, or none. -/
theorem isWritten_ofDigits (letter : CodePoint) (count : Nat) (rest : Text) :
    IsWritten ((letter :: rest).take (ofDigits letter count rest).width) := by
  unfold ofDigits
  cases digits : hexDigits? count rest with
  | none => exact isWritten_single letter rest
  | some n =>
      apply IsWritten.char
      intro f inside
      rw [Option.isSome_iff_ne_none]
      intro noDigit
      rw [hexDigits?_eq_none inside noDigit] at digits
      cases digits

/-- **What a decoded escape was written as.** -/
theorem isWritten_of_decode {escape : Decoded} (read : decode (e :: rest) = .ok escape) :
    IsWritten ((e :: rest).take escape.width) := by
  rw [decode_cons] at read
  split at read
  · cases read
    exact isWritten_single e rest
  split at read
  · next isLine =>
      cases read
      obtain ⟨rfl, isHead⟩ := isLine
      cases rest with
      | nil => cases isHead
      | cons d rest =>
          rw [Option.some.inj isHead]
          exact .line
  split at read
  · cases read
    exact isWritten_single e rest
  split at read
  · cases read
    exact isWritten_ofDigits e 2 rest
  split at read
  · next isLetter =>
      split at read
      · next braces =>
          obtain ⟨value, _, same⟩ := bind_eq_ok.mp read
          cases same
          obtain ⟨isHead, closed⟩ := braces
          cases rest with
          | nil => cases isHead
          | cons d rest =>
              cases isHead
              have inside : CodePoint.scalar '}' ∈ rest := by
                rw [List.contains_iff_mem, List.mem_cons] at closed
                exact closed.resolve_left (by decide)
              obtain ⟨after, cut⟩ := exists_brace inside
              -- The numeral reaches to the first closing brace, wherever that is.
              have noBrace : CodePoint.scalar '}'
                  ∉ rest.takeWhile (· != (CodePoint.scalar '}')) := by
                intro inside
                have stops := List.all_eq_true.mp List.all_takeWhile _ inside
                simp at stops
              rw [List.drop_succ_cons, List.drop_zero, isLetter]
              generalize rest.takeWhile (· != (CodePoint.scalar '}')) = numeral at cut noBrace ⊢
              have taken : rest.take (numeral.length + 1) = numeral ++ [.scalar '}'] := by
                rw [cut, List.take_length_add_append]
                rfl
              rw [List.take_succ_cons, List.take_succ_cons, taken]
              exact .braced noBrace
      · cases read
        exact isWritten_ofDigits e 4 rest
  · cases read
    exact isWritten_single e rest

end Escape

/-! ## §4. The text of a string. -/

namespace Text

/-- **The braced escapes of the text keep to the line:** so does everything from the opening
brace of one up to the next closing brace. -/
def BracesKeep (quote : CodePoint) (t : Text) : Prop :=
  ∀ front numeral behind,
    t = front ++ .scalar '\\' :: .scalar 'u' :: .scalar '{' :: (numeral ++ .scalar '}' :: behind) →
    ¬ Escapes front → .scalar '}' ∉ numeral → KeepsToLine quote (numeral ++ [.scalar '}'])

variable {quote : Quote} {piece rest : Text}

/-- The braced escapes behind a piece are braced escapes of the whole. -/
theorem BracesKeep.behind {quote : CodePoint} (braces : BracesKeep quote (piece ++ rest))
    (settled : ¬ Escapes piece) : BracesKeep quote rest := by
  intro front numeral behind same unescaped noBrace
  apply braces (piece ++ front) numeral behind _ _ noBrace
  · rw [same, List.append_assoc]
  · rw [escapes_append settled]
    exact unescaped

/-- An escape is a piece, if it keeps to the line where it is braced. -/
theorem isPiece_of_isWritten {written : Text} (isWritten : Escape.IsWritten written)
    (braces : BracesKeep quote.mark (.scalar '\\' :: written ++ rest)) :
    IsPiece quote.mark (.scalar '\\' :: written) := by
  have notBackslash : CodePoint.scalar quote.mark ≠ .scalar '\\' := by cases quote <;> decide
  cases isWritten with
  | @char c digits hex =>
      have noHex {mark : CodePoint} (other : mark.hexValue = none) : mark ∉ digits := by
        intro inside
        have isHex := hex mark inside
        rw [other] at isHex
        cases isHex
      exact isPiece_escape notBackslash (noHex (by decide)) (noHex (by cases quote <;> decide))
        (noHex (by decide))
  | line =>
      exact isPiece_line (by cases quote <;> decide)
  | @braced numeral noBrace =>
      have keeps := braces [] numeral rest (by simp) not_escapes_nil noBrace
      have opening : IsPiece quote.mark [.scalar '\\', .scalar 'u', .scalar '{'] :=
        isPiece_escape notBackslash (by decide) (by cases quote <;> decide) (by decide)
      have whole : CodePoint.scalar '\\' :: .scalar 'u' :: .scalar '{' :: (numeral ++ [.scalar '}'])
          = ([.scalar '\\', .scalar 'u', .scalar '{'] ++ numeral) ++ [.scalar '}'] := by
        simp
      refine ⟨opening.append keeps, ?_, ?_⟩
      · rw [whole]
        exact not_escapes_concat (by decide)
      · intro f same
        rw [whole] at same
        have last := (List.append_inj' same rfl).2
        exact absurd (List.cons.inj last).1 (by cases quote <;> decide)

/-- Where the whole keeps to the line, its braced escapes do. -/
theorem KeepsToLine.bracesKeep {quote : CodePoint} {t : Text} (keeps : KeepsToLine quote t) :
    BracesKeep quote t := by
  intro front numeral behind same _ _
  have whole : t = (front ++ [.scalar '\\', .scalar 'u']) ++ [.scalar '{']
      ++ ((numeral ++ [.scalar '}']) ++ behind) := by
    rw [same]
    simp
  rw [whole] at keeps
  exact keeps.of_append (by decide) (by decide)

end Text

namespace Scan

/-- An escape that was decoded is passed over, and the string is read on behind it. -/
theorem stringBody_skip {quote : CodePoint} {skip : Nat} {t : Text} {body : Decoded}
    (read : stringBody quote skip t = .ok body) :
    ∃ inner, stringBody quote 0 (t.drop skip) = .ok inner
      ∧ t.take body.width = t.take skip ++ (t.drop skip).take inner.width := by
  induction t generalizing skip body with
  | nil =>
      cases skip <;> cases read <;> exact ⟨⟨[], 0⟩, rfl, rfl⟩
  | cons c rest ih =>
      cases skip with
      | zero => exact ⟨body, read, rfl⟩
      | succ skip =>
          rw [stringBody] at read
          obtain ⟨inner, found, same⟩ := bind_eq_ok.mp read
          cases same
          obtain ⟨later, goesOn, taken⟩ := ih found
          refine ⟨later, goesOn, ?_⟩
          rw [List.take_succ_cons, taken]
          rfl

open Text in
/-- **A string keeps to its line if its braced escapes do.**  The induction is on what is left
of the literal, a piece at a time. -/
theorem keepsToLine_of_stringBody {quote : Quote} {t : Text} {body : Decoded}
    (read : stringBody quote.mark 0 t = .ok body)
    (braces : BracesKeep quote.mark (t.take body.width)) :
    KeepsToLine quote.mark (t.take body.width) := by
  have notNewline : CodePoint.scalar quote.mark ≠ .scalar '\n' := by cases quote <;> decide
  have notBackslash : CodePoint.scalar quote.mark ≠ .scalar '\\' := by cases quote <;> decide
  have nothing : KeepsToLine quote.mark [] := .of_not_mem List.not_mem_nil List.not_mem_nil
  induction hn : t.length using Nat.strongRecOn generalizing t body with
  | ind n ih =>
      subst hn
      -- The pieces differ; what is left behind each of them is shorter.
      have later {piece rest : Text} {inner : Decoded} (isPiece : IsPiece quote.mark piece)
          (shorter : rest.length < t.length) (found : stringBody quote.mark 0 rest = .ok inner)
          (braces : BracesKeep quote.mark (piece ++ rest.take inner.width)) :
          KeepsToLine quote.mark (piece ++ rest.take inner.width) :=
        isPiece.append (ih rest.length shorter found (braces.behind isPiece.settled) rfl)
      cases t with
      | nil =>
          cases read
          exact nothing
      | cons c rest =>
          rw [stringBody] at read
          by_cases backslash : c = .scalar '\\'
          · rw [if_pos backslash] at read
            obtain ⟨escape, decoded, read⟩ := bind_eq_ok.mp read
            obtain ⟨passed, found, same⟩ := bind_eq_ok.mp read
            cases same
            obtain ⟨inner, found, taken⟩ := stringBody_skip found
            have whole : (c :: rest).take (passed.width + 1)
                = .scalar '\\' :: rest.take escape.width
                  ++ (rest.drop escape.width).take inner.width := by
              rw [List.take_succ_cons, taken, backslash]
              rfl
            rw [whole] at braces ⊢
            cases rest with
            | nil =>
                -- The text ends with the backslash.
                rw [List.take_nil, List.drop_nil, List.take_nil]
                apply KeepsToLine.of_not_mem
                · decide
                · cases quote <;> decide
            | cons e rest =>
                have isPiece := isPiece_of_isWritten (Escape.isWritten_of_decode decoded) braces
                apply later isPiece _ found braces
                simp only [List.length_drop, List.length_cons]
                omega
          rw [if_neg backslash] at read
          by_cases atQuote : c = quote.mark
          · rw [if_pos atQuote] at read
            cases read
            rw [atQuote]
            -- The quote that closes the literal comes last.
            constructor
            · intro front rest same
              cases front with
              | nil => exact absurd (List.cons.inj same).1 notNewline
              | cons d front => exact absurd (List.cons.inj same).2 (by simp)
            · intro front rest same
              cases front with
              | nil => exact .inr (List.cons.inj same).2.symm
              | cons d front => exact absurd (List.cons.inj same).2 (by simp)
          rw [if_neg atQuote] at read
          by_cases atNewline : c = .scalar '\n'
          · rw [if_pos atNewline] at read
            cases read
            exact nothing
          rw [if_neg atNewline] at read
          obtain ⟨inner, found, same⟩ := bind_eq_ok.mp read
          cases same
          exact later (isPiece_plain backslash atQuote atNewline) (Nat.lt_succ_self _) found braces

end Scan

/-! ## §5. String tokens. -/

open Scan in
/-- **A string token keeps to its line exactly if the numerals of its braced escapes do.** -/
theorem string_keepsToLine_iff {text : Text} {tokens : List Token}
    (run : tokenize text = .ok tokens) {t : Token} (inside : t ∈ tokens) {quote : Quote}
    {value : Text} (isString : t.lexeme = .string quote value) :
    ∃ body : Text, text.slice t.start t.stop = .scalar quote.mark :: body
      ∧ (body.KeepsToLine quote.mark ↔ body.BracesKeep quote.mark) := by
  obtain ⟨before, after, rfl⟩ := List.append_of_mem inside
  have notEnd : t.lexeme ≠ .endOfText := by
    rw [isString]
    nofun
  obtain ⟨memory, b, e, rest, found, way⟩ := exists_way run notEnd
  have read := way.read
  obtain ⟨rfl, _⟩ := stringBody_of_lexeme read (way.lexeme ▸ isString)
  -- The mark at the front decides which literal is read, whatever came before.
  have isLiteral : Scan.lexeme memory.braces memory.previous quote.mark rest
      = stringLiteral quote memory.braces rest := by
    cases quote <;> rfl
  rw [isLiteral] at read
  obtain ⟨body, isBody, same⟩ := bind_eq_ok.mp read
  cases same
  refine ⟨rest.take body.width, ?_, fun keeps => keeps.bracesKeep,
    fun braces => keepsToLine_of_stringBody isBody braces⟩
  have width : t.stop - t.start = body.width + 1 := by
    have stop := way.stop
    simp only at stop
    omega
  unfold Text.slice
  rw [way.left, width, List.take_succ_cons]

/-- A quote that is escaped, and a braced escape with a numeral. -/
theorem string_keepsToLine_escaped :
    ∃ tokens, ∃ t ∈ tokens, ∃ value, ∃ body : Text,
      tokenize "\"a\\\"\\u\x7b41\x7d\"" = .ok tokens
      ∧ t.lexeme = .string .double value
      ∧ Text.slice "\"a\\\"\\u\x7b41\x7d\"" t.start t.stop = .scalar '"' :: body
      ∧ (body.KeepsToLine (.scalar '"') ↔ body.BracesKeep (.scalar '"')) := by
  have run : tokenize "\"a\\\"\\u\x7b41\x7d\""
      = .ok [⟨.string .double "a\"A", 0, 11, false⟩, ⟨.endOfText, 11, 11, false⟩] :=
    eq_ok_of_toOption (by decide +kernel)
  obtain ⟨body, cut, iff⟩ := string_keepsToLine_iff run List.mem_cons_self rfl
  exact ⟨_, _, List.mem_cons_self, "a\"A", body, run, rfl, cut, iff⟩

/-- **Not every string token keeps to the line:** a quote in the braces of an escape belongs to
its numeral, and the literal goes on behind it. -/
theorem not_string_keepsToLine :
    ¬ ∀ (text : Text) (tokens : List Token), tokenize text = .ok tokens →
      ∀ t ∈ tokens, ∀ quote value, t.lexeme = .string quote value →
        ∀ body : Text, text.slice t.start t.stop = .scalar quote.mark :: body →
          body.KeepsToLine quote.mark := by
  intro keeps
  have run : tokenize "\"\\u\x7b\"\x7d"
      = .ok [⟨.string .double [], 0, 6, false⟩, ⟨.endOfText, 6, 6, false⟩] :=
    eq_ok_of_toOption (by decide +kernel)
  have whole := keeps _ _ run _ List.mem_cons_self _ _ rfl "\\u\x7b\"\x7d" rfl
  rcases whole.quote "\\u\x7b" "\x7d" rfl with escaped | last
  · revert escaped
    decide
  · cases last

end StackLint
