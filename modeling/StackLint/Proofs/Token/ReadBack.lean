/-
  StackLint.Proofs.Token.ReadBack
  ───────────────────────────────
  **NAMES THAT ARE READ BACK.**

  A text that is a single name or string says a value.  A text between quotes says
  itself only if it needs no escape: every escape is longer than what it denotes.  A
  bare name says itself only if the scanner takes all of it for one name.
-/
import StackLint.Proofs.Token.Resume
import StackLint.Proofs.Token.Written
import StackLint.Text.Identifier

namespace StackLint

/-- **The text is one name or one string,** and says this value. -/
def Text.ReadsAs (code value : Text) : Prop :=
  ∃ token final, tokenize code = .ok [token, final] ∧ final.lexeme = .endOfText
    ∧ (token.lexeme = .word value ∨ ∃ quote, token.lexeme = .string quote value)

/-! ## §1. Escapes. -/

namespace Escape

variable {e : CodePoint} {t rest : Text} {escape : Decoded}

/-- An escape denotes at most one character. -/
theorem length_decode (read : decode t = .ok escape) : escape.value.length ≤ 1 := by
  have ofDigits (letter : CodePoint) (count : Nat) (t : Text) :
      (ofDigits letter count t).value.length ≤ 1 := by
    unfold ofDigits
    split <;> exact Nat.le_refl 1
  cases t with
  | nil =>
      cases read
      exact Nat.zero_le 1
  | cons e rest =>
      rw [decode_cons] at read
      split at read
      · cases read
        exact Nat.le_refl 1
      split at read
      · cases read
        exact Nat.zero_le 1
      split at read
      · cases read
        exact Nat.zero_le 1
      split at read
      · cases read
        exact ofDigits e 2 rest
      split at read
      · split at read
        · obtain ⟨value, isValue, same⟩ := bind_eq_ok.mp read
          cases same
          unfold braced at isValue
          split at isValue
          · cases isValue
            exact Nat.zero_le 1
          split at isValue
          · cases isValue
          split at isValue
          · cases isValue
            exact Nat.zero_le 1
          · next n _ _ _ =>
              cases isValue
              cases CodePoint.ofNat? n.toNat <;> simp
        · cases read
          exact ofDigits e 4 rest
      · cases read
        exact Nat.le_refl 1

/-- No letter stands for a backslash. -/
theorem simple?_ne_backslash (e : CodePoint) : simple? e ≠ some '\\' := by
  unfold simple?
  repeat' split
  all_goals decide

/-- **An escape that denotes a backslash** and takes one character is a backslash. -/
theorem eq_backslash_of_decode (read : decode (e :: rest) = .ok ⟨[.scalar '\\'], 1⟩) :
    e = .scalar '\\' := by
  have notDigits {letter : CodePoint} (other : letter ≠ .scalar '\\') (count : Nat) (positive : 0 < count)
      (t : Text) : ofDigits letter count t ≠ ⟨[.scalar '\\'], 1⟩ := by
    unfold ofDigits
    split
    · intro same
      have width : count + 1 = 1 := congrArg Decoded.width same
      omega
    · intro same
      exact other (List.cons.inj (congrArg Decoded.value same)).1
  rw [decode_cons] at read
  split at read
  · next c isSimple =>
      cases read
      exact absurd isSimple (simple?_ne_backslash e)
  split at read
  · cases read
  split at read
  · cases read
  split at read
  · next isLetter => exact absurd (Except.ok.inj read) (notDigits (by rw [isLetter]; decide) 2 (by omega) _)
  split at read
  · next isLetter =>
      split at read
      · obtain ⟨value, _, same⟩ := bind_eq_ok.mp read
        have width := congrArg Decoded.width (Except.ok.inj same)
        simp only at width
        omega
      · exact absurd (Except.ok.inj read) (notDigits (by rw [isLetter]; decide) 4 (by omega) _)
  · cases read
    rfl

end Escape

/-! ## §2. Strings. -/

namespace Scan

variable {quote : Quote} {t : Text} {body : Decoded}

/-- **A string has no more characters than its text,** and as many only if it is the text. -/
theorem length_stringBody {mark : CodePoint} {skip : Nat} (read : stringBody mark skip t = .ok body) :
    body.value.length ≤ t.length - skip
      ∧ (body.value.length = t.length - skip → body.value = t.drop skip) := by
  induction t generalizing skip body with
  | nil =>
      cases skip <;> (cases read; exact ⟨Nat.zero_le _, fun _ => by simp⟩)
  | cons c rest ih =>
      cases skip with
      | succ skip =>
          rw [stringBody] at read
          obtain ⟨body', inner, same⟩ := bind_eq_ok.mp read
          cases same
          have later := ih inner
          rw [List.length_cons, Nat.add_sub_add_right, List.drop_succ_cons]
          exact later
      | zero =>
          have short (few : body.value.length ≤ rest.length) :
              body.value.length ≤ (c :: rest).length - 0
                ∧ (body.value.length = (c :: rest).length - 0 → body.value = (c :: rest).drop 0) := by
            rw [List.length_cons]
            exact ⟨by omega, fun same => by omega⟩
          rw [stringBody] at read
          split at read
          · -- An escape is longer than what it denotes.
            obtain ⟨escape, decoded, read⟩ := bind_eq_ok.mp read
            obtain ⟨body', inner, same⟩ := bind_eq_ok.mp read
            cases same
            refine short ?_
            have one := Escape.length_decode decoded
            have few := (ih inner).1
            rw [List.length_append]
            cases rest with
            | nil =>
                cases decoded
                exact (Nat.zero_add _).symm ▸ few
            | cons e rest =>
                have positive := Escape.decode_width_pos decoded
                rw [List.length_cons] at few ⊢
                omega
          split at read
          · cases read
            exact short (Nat.zero_le _)
          split at read
          · cases read
            exact short (Nat.zero_le _)
          · obtain ⟨body', inner, same⟩ := bind_eq_ok.mp read
            cases same
            obtain ⟨few, whole⟩ := ih inner
            rw [Nat.sub_zero] at few whole
            rw [List.length_cons, List.length_cons]
            refine ⟨Nat.succ_le_succ few, fun same => ?_⟩
            rw [whole (Nat.succ.inj same)]
            rfl

/-- Where a first character comes last, there is no other one. -/
theorem eq_of_cons_eq_concat {α : Type} {x y : α} {l : List α} (same : x :: l = l ++ [y]) : x = y := by
  induction l generalizing x with
  | nil => exact (List.cons.inj same).1
  | cons a l ih =>
      obtain ⟨rfl, later⟩ := List.cons.inj same
      exact ih later

theorem mark_ne_backslash (quote : Quote) : CodePoint.scalar quote.mark ≠ .scalar '\\' := by
  cases quote <;> decide

/-- An escape and what follows it do not denote what they are written with. -/
theorem escape_ne {escape : Decoded} (decoded : Escape.decode (t ++ [.scalar quote.mark]) = .ok escape)
    (inner : stringBody quote.mark escape.width (t ++ [.scalar quote.mark]) = .ok body) :
    escape.value ++ body.value ≠ .scalar '\\' :: t := by
  intro same
  have one := Escape.length_decode decoded
  obtain ⟨few, whole⟩ := length_stringBody inner
  obtain ⟨value, width⟩ := escape
  simp only at same one few whole inner
  rw [List.length_append, List.length_singleton] at few whole
  have positive : 0 < width := by
    cases t with
    | nil => exact Escape.decode_width_pos decoded
    | cons a t => exact Escape.decode_width_pos decoded
  cases value with
  | nil =>
      -- What follows would be too long.
      have length := congrArg List.length same
      rw [List.nil_append, List.length_cons] at length
      omega
  | cons d others =>
      have none : others = [] := List.length_eq_zero_iff.mp (by
        rw [List.length_cons] at one
        omega)
      rw [none, List.cons_append, List.nil_append, List.cons.injEq] at same
      obtain ⟨rfl, isBody⟩ := same
      rw [none] at decoded
      cases t with
      | nil =>
          have isMark : Escape.decode [.scalar quote.mark] = .ok ⟨[.scalar quote.mark], 1⟩ := by
            cases quote <;> rfl
          rw [List.nil_append, isMark] at decoded
          exact mark_ne_backslash quote (List.cons.inj (congrArg Decoded.value (Except.ok.inj decoded))).1
      | cons a t =>
          rw [isBody, List.length_cons] at few whole
          obtain rfl : width = 1 := by omega
          have isWhole : a :: t = t ++ [.scalar quote.mark] := whole (by omega)
          have isMark := eq_of_cons_eq_concat isWhole
          exact mark_ne_backslash quote (isMark ▸ Escape.eq_backslash_of_decode decoded)

/-- **A text that is read back from between quotes** needs no escape. -/
theorem plain_of_stringBody {width : Nat}
    (read : stringBody quote.mark 0 (t ++ [.scalar quote.mark]) = .ok ⟨t, width⟩) : Plain quote t := by
  induction t generalizing width with
  | nil => exact fun c inside => absurd inside List.not_mem_nil
  | cons c t ih =>
      rw [List.cons_append, stringBody] at read
      split at read
      · next isBackslash =>
          obtain ⟨escape, decoded, read⟩ := bind_eq_ok.mp read
          obtain ⟨body, inner, same⟩ := bind_eq_ok.mp read
          have isValue : escape.value ++ body.value = c :: t :=
            congrArg Decoded.value (Except.ok.inj same)
          exact absurd isValue (isBackslash ▸ escape_ne decoded inner)
      split at read
      · next isQuote =>
          cases congrArg Decoded.value (Except.ok.inj read)
      split at read
      · cases congrArg Decoded.value (Except.ok.inj read)
      · next notBackslash notQuote notNewline =>
          obtain ⟨body, inner, same⟩ := bind_eq_ok.mp read
          obtain ⟨value, width'⟩ := body
          have isValue : value = t := (List.cons.inj (congrArg Decoded.value (Except.ok.inj same))).2
          rw [isValue] at inner
          intro d inside
          rcases List.mem_cons.mp inside with rfl | inside
          · exact ⟨notBackslash, notQuote, notNewline⟩
          · exact ih inner d inside

/-! ## §3. One lexeme. -/

variable {c : CodePoint} {rest value : Text}

/-- Neither a comment nor a line that names an interpreter begins with the character. -/
structure Leads (c : CodePoint) (rest : Text) : Prop where
  notHash : c ≠ .scalar '#'
  notTrivial : trivia? c rest = none

theorem Leads.tokenize_eq (leads : Leads c rest) :
    tokenize (c :: rest) = tokensFrom .start 0 0 (c :: rest) := by
  have noInterpreter : hashbangWidth (c :: rest) = 0 := by
    cases rest with
    | nil => rfl
    | cons d rest => simp only [hashbangWidth, leads.notHash, false_and, if_false]
  unfold tokenize
  rw [noInterpreter]

/-- The lexeme says the value. -/
def Denotes (l : Lexeme) (value : Text) : Prop :=
  l = .word value ∨ ∃ quote, l = .string quote value

theorem Leads.exists_lexeme (leads : Leads c rest) (reads : Text.ReadsAs (c :: rest) value) :
    ∃ found, lexeme [] none c rest = .ok found ∧ Denotes found.lexeme value := by
  obtain ⟨token, final, run, _, denotes⟩ := reads
  rw [leads.tokenize_eq] at run
  cases read : lexeme [] none c rest with
  | error failure =>
      rw [tokensFrom_failure leads.notTrivial read] at run
      cases run
  | ok found =>
      rw [tokensFrom_lexeme leads.notTrivial read] at run
      cases later : tokensFrom found.memory 0 (0 + 1 + min found.extra rest.length)
          (rest.drop found.extra) with
      | error failure =>
          rw [later] at run
          cases run
      | ok tokens =>
          rw [later] at run
          cases Except.ok.inj run
          exact ⟨found, rfl, denotes⟩

theorem Leads.readsAs (leads : Leads c rest) {found : Found}
    (read : lexeme [] none c rest = .ok found) (whole : found.extra = rest.length)
    (denotes : Denotes found.lexeme value) : Text.ReadsAs (c :: rest) value := by
  have run : tokenize (c :: rest) = .ok [⟨found.lexeme, 0, 0 + rest.length + 1, false⟩,
      ⟨.endOfText, 0 + 1 + min rest.length rest.length, 0 + 1 + min rest.length rest.length, false⟩] := by
    rw [leads.tokenize_eq, tokensFrom_lexeme leads.notTrivial read, whole, List.drop_length,
      tokensFrom_nil]
    rfl
  exact ⟨_, _, run, rfl, denotes⟩

/-- **A text between quotes says itself** if and only if it needs no escape. -/
theorem readsAs_surround_iff (quote : Quote) (t : Text) :
    Text.ReadsAs (quote.surround t) t ↔ Plain quote t := by
  have isString (rest : Text) :
      lexeme [] none (.scalar quote.mark) rest = stringLiteral quote [] rest := by
    cases quote <;> rfl
  have leads (rest : Text) : Leads (.scalar quote.mark) rest := by
    cases quote <;> exact ⟨by decide, rfl⟩
  constructor
  · intro reads
    obtain ⟨found, read, denotes⟩ := (leads _).exists_lexeme reads
    rw [isString] at read
    obtain ⟨⟨value, width⟩, body, same⟩ := bind_eq_ok.mp read
    cases same
    rcases denotes with never | ⟨quote', same⟩
    · cases never
    · cases same
      exact plain_of_stringBody body
  · intro plain
    have read : lexeme [] none (.scalar quote.mark) (t ++ [.scalar quote.mark])
        = .ok ⟨.string quote t, t.length + 1, []⟩ := lexeme_quoted plain
    have whole : t.length + 1 = (t ++ [CodePoint.scalar quote.mark]).length := by
      rw [List.length_append, List.length_singleton]
    exact (leads _).readsAs read whole (.inr ⟨quote, rfl⟩)

/-! ## §4. Names. -/

/-- The scanner takes the whole text for one name. -/
def isWord : Text → Bool
  | [] => false
  | c :: rest => (c == .scalar '$' || (c.isWordCharacter && !c.isDigit)) && rest.all isFlag

theorem isName_of_isWord (word : isWord (c :: rest) = true) : IsName c rest [] := by
  unfold isWord at word
  simp only [Bool.and_eq_true, Bool.or_eq_true, beq_iff_eq, Bool.not_eq_true'] at word
  exact ⟨word.1, word.2, fun d never => nomatch never⟩

/-- What begins an identifier is no mark between names. -/
theorem opensIdentifier_ne {mark : Char} (opens : c.opensIdentifier = true)
    (other : (CodePoint.scalar mark).opensIdentifier = false) : c ≠ .scalar mark := by
  rintro rfl
  rw [opens] at other
  cases other

theorem leads_of_opensIdentifier (opens : c.opensIdentifier = true) : Leads c rest := by
  refine ⟨opensIdentifier_ne opens (by decide), ?_⟩
  have ne {mark : Char} (other : (CodePoint.scalar mark).opensIdentifier = false) :=
    opensIdentifier_ne opens other
  have noBlank : isBlank c = false := by
    unfold isBlank
    simp only [Bool.or_eq_false_iff]
    refine ⟨⟨⟨⟨⟨⟨?_, ?_⟩, ?_⟩, ?_⟩, ?_⟩, ?_⟩, ?_⟩ <;> exact beq_false_of_ne (ne (by decide +kernel))
  unfold trivia?
  rw [if_neg (ne (by decide)), noBlank, if_neg Bool.false_ne_true, if_neg (ne (by decide))]

/-- A name at the head of a text is the whole text only if it is one name. -/
theorem isWord_of_nameOrPunctuator
    (denotes : Denotes (nameOrPunctuator [] c rest).lexeme (c :: rest))
    (noDigit : c.isDigit = false) : isWord (c :: rest) = true := by
  unfold nameOrPunctuator at denotes
  split at denotes
  · -- Punctuators and strays say no name.
    unfold punctuator at denotes
    simp only at denotes
    split at denotes <;> rcases denotes with never | ⟨quote, never⟩ <;> cases never
  · next width isWidth =>
      rcases denotes with same | ⟨quote, never⟩
      · have taken : (c :: rest).take (width + 1) = c :: rest := Lexeme.word.inj same
        have long := congrArg List.length taken
        rw [List.length_take, List.length_cons] at long
        rw [nameWidth] at isWidth
        split at isWidth
        · next begins =>
            have flags : rest.takeWhile isFlag = rest := by
              refine (List.takeWhile_prefix isFlag).eq_of_length_le ?_
              show rest.length ≤ runLength isFlag rest
              omega
            show ((c == .scalar '$' || (c.isWordCharacter && !c.isDigit)) && rest.all isFlag) = true
            rw [noDigit, Bool.and_eq_true, Bool.or_eq_true, List.all_eq_true]
            refine ⟨begins.imp beq_iff_eq.mpr fun word => ?_, List.takeWhile_eq_self_iff.mp flags⟩
            rw [word.1]
            rfl
        · cases isWidth
      · cases never

/-- **An identifier says itself** if and only if the scanner takes it for one name. -/
theorem readsAs_iff_isWord {name : Text} (isIdentifier : name.isIdentifier = true) :
    Text.ReadsAs name name ↔ isWord name = true := by
  cases name with
  | nil => cases isIdentifier
  | cons c rest =>
      have opens : c.opensIdentifier = true := (Bool.and_eq_true_iff.mp isIdentifier).1
      have leads : Leads c rest := leads_of_opensIdentifier opens
      constructor
      · intro reads
        obtain ⟨found, read, denotes⟩ := leads.exists_lexeme reads
        have ne {mark : Char} (other : (CodePoint.scalar mark).opensIdentifier = false) :=
          opensIdentifier_ne opens other
        unfold lexeme at read
        rw [if_neg (ne (by decide)), if_neg (ne (by decide)), if_neg (ne (by decide))] at read
        split at read
        · -- A number says no name.
          split at read
          · cases read
            rcases denotes with never | ⟨quote, never⟩ <;> cases never
          · cases read
        · next noNumber =>
            rw [if_neg fun h => leads.notHash h.1, if_neg fun h => ne (by decide) h.1,
              if_neg fun h => ne (by decide) h.1] at read
            cases read
            refine isWord_of_nameOrPunctuator denotes ?_
            unfold startsNumber at noNumber
            exact (Bool.or_eq_false_iff.mp (Bool.eq_false_iff.mpr noNumber)).1
      · intro word
        have read : lexeme [] none c (rest ++ []) = .ok ⟨.word (c :: rest), rest.length, []⟩ :=
          lexeme_name (isName_of_isWord word)
        rw [List.append_nil] at read
        exact leads.readsAs read rfl (.inl rfl)

end Scan

end StackLint
