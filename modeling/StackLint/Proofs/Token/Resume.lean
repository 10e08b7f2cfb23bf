/-
  StackLint.Proofs.Token.Resume
  ─────────────────────────────
  **THE SCANNER COMES TO A SEAM AS BEFORE.**

  Literals, regular expressions and comments that end in front of a seam end
  there whatever follows it.  So all tokens in front of it stay as they are when
  the text behind it is exchanged.
-/
import StackLint.Proofs.Token.Closed
import StackLint.Proofs.Token.Failure
import StackLint.Proofs.Token.Local

namespace StackLint

namespace Lexeme

/-- The lexeme begins with a slash. -/
def isSlash (l : Lexeme) : Bool :=
  l == .punct .slash || l == .punct .divAssign

/-- Behind the first lexeme the second one does not begin a regular expression. -/
def Precedes (l m : Lexeme) : Prop :=
  m.isSlash = true → Scan.regexAllowed (some l) = false

instance (l m : Lexeme) : Decidable (Precedes l m) :=
  inferInstanceAs (Decidable (_ → _))

end Lexeme

/-! ## §1. Escapes. -/

namespace Escape

open Scan (Joint)

variable {b x y : Text} {c d : CodePoint}

/-- Hexadecimal digits that are not all there. -/
theorem hexDigits?_eq_none {count : Nat} {t : Text} {f : CodePoint} (inside : f ∈ t.take count)
    (noDigit : f.hexValue = none) : hexDigits? count t = none := by
  have fails : ∀ (digits : Text) (value : Nat), f ∈ digits →
      digits.foldlM (fun value c => c.hexValue.map (16 * value + ·)) value = none := by
    intro digits
    induction digits with
    | nil =>
        intro _ never
        cases never
    | cons e rest ih =>
        intro value inside
        rw [List.foldlM_cons]
        cases digit : e.hexValue with
        | none => rfl
        | some n =>
            show rest.foldlM _ _ = none
            rcases List.mem_cons.mp inside with same | inside
            · rw [← same, noDigit] at digit
              cases digit
            · exact ih _ inside
  unfold hexDigits?
  simp only [fails _ _ inside, ite_self]

/-- Digits are the same if there is room for them, or if something else stops
them. -/
theorem hexDigits?_append {count : Nat} (x y : Text)
    (stopped : count ≤ b.length ∨ ∃ f ∈ b, f.hexValue = none) :
    hexDigits? count (b ++ y) = hexDigits? count (b ++ x) := by
  by_cases room : count ≤ b.length
  · unfold hexDigits?
    rw [List.take_append_of_le_length room, List.take_append_of_le_length room]
  · obtain ⟨f, inside, noDigit⟩ := stopped.resolve_left room
    have taken : ∀ z : Text, f ∈ (b ++ z).take count := by
      intro z
      rw [List.take_append, List.take_of_length_le (by omega)]
      exact List.mem_append_left _ inside
    rw [hexDigits?_eq_none (taken y) noDigit, hexDigits?_eq_none (taken x) noDigit]

/-- What an escape with so many digits denotes; without them it denotes the
letter itself. -/
def ofDigits (letter : CodePoint) (count : Nat) (t : Text) : Decoded :=
  match hexDigits? count t with
  | some n => ⟨[CodePoint.ofNat n], count + 1⟩
  | none => ⟨[letter], 1⟩

theorem ofDigits_width_pos (letter : CodePoint) (count : Nat) (t : Text) :
    0 < (ofDigits letter count t).width := by
  unfold ofDigits
  split <;> exact Nat.succ_pos _

/-- What a braced escape denotes; `t` begins with its opening brace. -/
def ofBraces (t : Text) : Except ScanFailure Decoded := do
  let numeral := (t.drop 1).takeWhile (· != (.scalar '}'))
  let value ← braced numeral
  return ⟨value, numeral.length + 3⟩

/-- An escape, read case by case. -/
theorem decode_cons (e : CodePoint) (rest : Text) :
    decode (e :: rest)
      = match simple? e with
        | some c => .ok ⟨[c], 1⟩
        | none =>
            if e = '\r' ∧ rest.head? = some (.scalar '\n') then .ok ⟨[], 2⟩
            else if e = '\n' then .ok ⟨[], 1⟩
            else if e = 'x' then .ok (ofDigits e 2 rest)
            else if e = 'u' then
              if rest.head? = some (.scalar '{') ∧ rest.contains (.scalar '}') then ofBraces rest
              else .ok (ofDigits e 4 rest)
            else .ok ⟨[e], 1⟩ := by
  simp only [decode, ofDigits, ofBraces]
  cases hexDigits? 2 rest <;> cases hexDigits? 4 rest <;> rfl

/-- An escape takes a character. -/
theorem decode_width_pos {e : CodePoint} {rest : Text} {escape : Decoded}
    (read : decode (e :: rest) = .ok escape) : 0 < escape.width := by
  rw [decode_cons] at read
  split at read
  · cases read
    exact Nat.succ_pos _
  split at read
  · cases read
    exact Nat.succ_pos _
  split at read
  · cases read
    exact Nat.succ_pos _
  split at read
  · cases read
    exact ofDigits_width_pos e 2 rest
  split at read
  · split at read
    · obtain ⟨value, _, same⟩ := bind_eq_ok.mp read
      cases same
      exact Nat.succ_pos _
    · cases read
      exact ofDigits_width_pos e 4 rest
  · cases read
    exact Nat.succ_pos _

/-- Digits that something else stops, or that all stand in front of the seam. -/
theorem ofDigits_local {letter : CodePoint} {count : Nat} (x y : Text)
    (closed : ∃ f ∈ (letter :: b).drop (ofDigits letter count (b ++ x)).width,
      f.hexValue = none) :
    ofDigits letter count (b ++ y) = ofDigits letter count (b ++ x) := by
  have stopped : count ≤ b.length ∨ ∃ f ∈ b, f.hexValue = none := by
    obtain ⟨f, inside, noDigit⟩ := closed
    unfold ofDigits at inside
    cases digits : hexDigits? count (b ++ x) with
    | some n =>
        rw [digits] at inside
        have room := List.length_pos_of_mem inside
        simp only [List.length_drop, List.length_cons] at room
        exact .inl (by omega)
    | none =>
        rw [digits] at inside
        exact .inr ⟨f, inside, noDigit⟩
  unfold ofDigits
  rw [hexDigits?_append x y stopped]

/-- The closing brace of an escape that ends in front of the seam. -/
theorem takeWhile_of_ofBraces {escape : Decoded} (read : ofBraces (b ++ x) = .ok escape)
    (short : escape.width ≤ b.length) :
    ((b ++ x).drop 1).takeWhile (· != (CodePoint.scalar '}'))
      = (b.drop 1).takeWhile (· != (CodePoint.scalar '}'))
      ∧ ((b.drop 1).takeWhile (· != (CodePoint.scalar '}'))).length ≠ (b.drop 1).length := by
  obtain ⟨value, _, same⟩ := bind_eq_ok.mp read
  cases same
  simp only at short
  rw [List.drop_append_of_le_length (by omega), List.takeWhile_append] at short ⊢
  split at short
  · next all =>
      rw [List.length_append, List.length_drop] at short
      omega
  · next part =>
      rw [if_neg part]
      exact ⟨rfl, part⟩

theorem mem_of_ofBraces {escape : Decoded} (read : ofBraces (b ++ x) = .ok escape)
    (short : escape.width ≤ b.length) : CodePoint.scalar '}' ∈ b := by
  obtain ⟨_, part⟩ := takeWhile_of_ofBraces read short
  refine Classical.byContradiction fun noBrace => part ?_
  rw [List.takeWhile_eq_self_iff.mpr]
  intro e inside
  rw [bne_iff_ne]
  intro same
  exact noBrace (same ▸ List.mem_of_mem_drop inside)

theorem ofBraces_local {escape : Decoded} (read : ofBraces (b ++ x) = .ok escape)
    (short : escape.width ≤ b.length) : ofBraces (b ++ y) = .ok escape := by
  obtain ⟨whole, part⟩ := takeWhile_of_ofBraces read short
  have some : 1 ≤ b.length := by
    obtain ⟨value, _, same⟩ := bind_eq_ok.mp read
    cases same
    simp only at short
    omega
  unfold ofBraces at read ⊢
  rw [whole] at read
  rw [List.drop_append_of_le_length some, List.takeWhile_append, if_neg part]
  exact read

/-- **An escape that ends in front of the seam,** where something that is no
digit follows it, is decoded as before. -/
theorem decode_local (brace : .scalar '}' ∈ d :: y → .scalar '}' ∈ c :: x) {escape : Decoded}
    (read : decode (b ++ c :: x) = .ok escape)
    (closed : ∃ f ∈ b.drop escape.width, f.hexValue = none) :
    decode (b ++ d :: y) = .ok escape := by
  have short : escape.width < b.length := by
    obtain ⟨f, inside, _⟩ := closed
    have some := List.length_pos_of_mem inside
    rw [List.length_drop] at some
    omega
  cases b with
  | nil => exact absurd short (Nat.not_lt_zero _)
  | cons e b =>
      have positive := decode_width_pos read
      rw [List.length_cons] at short
      have head (z : Text) : (b ++ z).head? = b.head? := by
        cases b with
        | nil =>
            rw [List.length_nil] at short
            omega
        | cons f b => rfl
      rw [List.cons_append, decode_cons] at read ⊢
      cases isSimple : simple? e with
      | some _ =>
          rw [isSimple] at read
          exact read
      | none =>
          rw [isSimple] at read
          simp only [head] at read ⊢
          split at read
          · next ends => rw [if_pos ends]; exact read
          next ends =>
          rw [if_neg ends]
          split at read
          · next atNewline => rw [if_pos atNewline]; exact read
          next atNewline =>
          rw [if_neg atNewline]
          split at read
          · next two =>
              rw [if_pos two]
              cases read
              rw [ofDigits_local _ _ closed]
          next two =>
          rw [if_neg two]
          split at read
          · next four =>
              rw [if_pos four]
              split at read
              · next braces =>
                  rw [ofBraces_local read (by omega), if_pos]
                  refine ⟨braces.1, ?_⟩
                  have closing := mem_of_ofBraces read (by omega)
                  simp [closing]
              · next noBraces =>
                  rw [if_neg]
                  · cases read
                    rw [ofDigits_local _ _ closed]
                  · intro opens
                    refine noBraces ⟨opens.1, ?_⟩
                    have inside := opens.2
                    rw [List.contains_iff_mem, List.mem_append] at inside ⊢
                    exact inside.imp id brace
          · next other =>
              rw [if_neg other]
              exact read

end Escape

namespace Scan

variable {b x y : Text} {c d e : CodePoint}

/-! ## §2. Strings and templates. -/

/-- A string that ends in front of the seam is closed there, or its line ends.  A newline at
the seam must not be what ends it. -/
theorem stringBody_closes {quote : CodePoint} {skip : Nat} {body : Decoded}
    (read : stringBody quote skip (b ++ c :: x) = .ok body) (inside : body.width ≤ b.length)
    (line : c = .scalar '\n' →
      body.width < b.length ∨ stringCloses quote skip (b ++ c :: x) = true) :
    ∃ f ∈ b.drop skip, f = quote ∨ f = .scalar '\n' := by
  induction b generalizing skip body with
  | nil =>
      -- At the seam itself a string goes on.
      rw [List.nil_append] at read line
      rw [List.length_nil] at inside line
      cases skip with
      | succ skip =>
          rw [stringBody] at read
          obtain ⟨inner, _, same⟩ := bind_eq_ok.mp read
          cases same
          exact absurd inside (Nat.not_succ_le_zero _)
      | zero =>
          rw [stringBody] at read
          split at read
          · obtain ⟨escape, _, read⟩ := bind_eq_ok.mp read
            obtain ⟨inner, _, same⟩ := bind_eq_ok.mp read
            cases same
            exact absurd inside (Nat.not_succ_le_zero _)
          · next noBackslash =>
              split at read
              · cases read
                exact absurd inside (Nat.not_succ_le_zero _)
              · next noQuote =>
                  split at read
                  · next atNewline =>
                      have closes := (line atNewline).resolve_left (Nat.not_lt_zero _)
                      rw [stringCloses, if_neg noBackslash, if_neg noQuote, if_pos atNewline] at closes
                      cases closes
                  · obtain ⟨inner, _, same⟩ := bind_eq_ok.mp read
                    cases same
                    exact absurd inside (Nat.not_succ_le_zero _)
  | cons e b ih =>
      rw [List.cons_append] at read line
      rw [List.length_cons] at inside line
      cases skip with
      | succ skip =>
          rw [stringBody] at read
          obtain ⟨inner, found, same⟩ := bind_eq_ok.mp read
          cases same
          rw [stringCloses] at line
          exact ih found (Nat.le_of_succ_le_succ inside)
            fun atNewline => (line atNewline).imp_left Nat.lt_of_succ_lt_succ
      | zero =>
          rw [stringBody] at read
          rw [stringCloses] at line
          split at read
          · next backslash =>
              obtain ⟨escape, decoded, read⟩ := bind_eq_ok.mp read
              obtain ⟨inner, found, same⟩ := bind_eq_ok.mp read
              cases same
              rw [if_pos backslash, decoded] at line
              obtain ⟨f, later, closes⟩ := ih found (Nat.le_of_succ_le_succ inside)
                fun atNewline => (line atNewline).imp_left Nat.lt_of_succ_lt_succ
              exact ⟨f, List.mem_cons_of_mem e (List.mem_of_mem_drop later), closes⟩
          · next noBackslash =>
              split at read
              · next atQuote => exact ⟨e, List.mem_cons_self, .inl atQuote⟩
              · next noQuote =>
                  split at read
                  · next atNewline => exact ⟨e, List.mem_cons_self, .inr atNewline⟩
                  · next noNewline =>
                      obtain ⟨inner, found, same⟩ := bind_eq_ok.mp read
                      cases same
                      rw [if_neg noBackslash, if_neg noQuote, if_neg noNewline] at line
                      obtain ⟨f, later, closes⟩ := ih found (Nat.le_of_succ_le_succ inside)
                        fun atNewline => (line atNewline).imp_left Nat.lt_of_succ_lt_succ
                      exact ⟨f, List.mem_cons_of_mem e later, closes⟩

/-- **A string that ends in front of the seam is read as before.** -/
theorem stringBody_local (escapes : EscapesStay b c x d y) {quote : Quote} {skip : Nat}
    {body : Decoded}
    (read : stringBody quote.mark skip (b ++ c :: x) = .ok body)
    (inside : body.width ≤ b.length)
    (line : c = .scalar '\n' →
      body.width < b.length ∨ stringCloses quote.mark skip (b ++ c :: x) = true) :
    stringBody quote.mark skip (b ++ d :: y) = .ok body := by
  induction b generalizing skip body with
  | nil =>
      obtain ⟨f, never, _⟩ := stringBody_closes read inside line
      rw [List.drop_nil] at never
      cases never
  | cons e b ih =>
      rw [List.cons_append] at read line ⊢
      rw [List.length_cons] at inside line
      cases skip with
      | succ skip =>
          rw [stringBody] at read ⊢
          obtain ⟨inner, found, same⟩ := bind_eq_ok.mp read
          cases same
          rw [stringCloses] at line
          rw [ih escapes.tail found (Nat.le_of_succ_le_succ inside)
            fun atNewline => (line atNewline).imp_left Nat.lt_of_succ_lt_succ]
          rfl
      | zero =>
          rw [stringBody] at read ⊢
          rw [stringCloses] at line
          split at read
          · next backslash =>
              obtain ⟨escape, decoded, read⟩ := bind_eq_ok.mp read
              obtain ⟨inner, found, same⟩ := bind_eq_ok.mp read
              cases same
              rw [if_pos backslash, decoded] at line
              have shorter := Nat.le_of_succ_le_succ inside
              have line' (atNewline : c = .scalar '\n') : inner.width < b.length
                  ∨ stringCloses quote.mark escape.width (b ++ c :: x) = true :=
                (line atNewline).imp_left Nat.lt_of_succ_lt_succ
              -- What closes the string is no digit, so it stops the escape.
              have closed : ∃ f ∈ b.drop escape.width, f.hexValue = none := by
                obtain ⟨f, later, closes⟩ := stringBody_closes found shorter line'
                refine ⟨f, later, ?_⟩
                rcases closes with rfl | rfl
                · cases quote <;> decide
                · decide
              rw [if_pos backslash,
                Escape.decode_local (escapes (backslash ▸ List.mem_cons_self)) decoded closed]
              show (stringBody quote.mark escape.width (b ++ d :: y) >>= fun body => pure _) = _
              rw [ih escapes.tail found shorter line']
              rfl
          · next noBackslash =>
              rw [if_neg noBackslash]
              split at read
              · next atQuote =>
                  rw [if_pos atQuote]
                  exact read
              · next noQuote =>
                  rw [if_neg noQuote]
                  split at read
                  · next atNewline =>
                      rw [if_pos atNewline]
                      exact read
                  · next noNewline =>
                      obtain ⟨inner, found, same⟩ := bind_eq_ok.mp read
                      cases same
                      rw [if_neg noBackslash, if_neg noQuote, if_neg noNewline] at line
                      rw [if_neg noNewline, ih escapes.tail found (Nat.le_of_succ_le_succ inside)
                        fun atNewline => (line atNewline).imp_left Nat.lt_of_succ_lt_succ]
                      rfl

/-- Template text that ends in front of the seam ends with a backtick there, or
with the dollar sign of a substitution. -/
theorem templateBody_closes {skip : Nat} {body : TemplateText}
    (read : templateBody skip (b ++ c :: x) = .ok body) (inside : body.width ≤ b.length) :
    ∃ f ∈ b.drop skip, f = .scalar '\x60' ∨ f = .scalar '$' := by
  induction b generalizing skip body with
  | nil =>
      rw [List.nil_append] at read
      rw [List.length_nil] at inside
      cases skip with
      | succ skip =>
          rw [templateBody] at read
          obtain ⟨inner, _, same⟩ := bind_eq_ok.mp read
          cases same
          exact absurd inside (Nat.not_succ_le_zero _)
      | zero =>
          rw [templateBody] at read
          split at read
          · obtain ⟨escape, _, read⟩ := bind_eq_ok.mp read
            obtain ⟨inner, _, same⟩ := bind_eq_ok.mp read
            cases same
            exact absurd inside (Nat.not_succ_le_zero _)
          · split at read
            · cases read
              exact absurd inside (Nat.not_succ_le_zero _)
            · split at read
              · cases read
                exact absurd inside (Nat.not_succ_le_zero _)
              · obtain ⟨inner, _, same⟩ := bind_eq_ok.mp read
                cases same
                exact absurd inside (Nat.not_succ_le_zero _)
  | cons e b ih =>
      rw [List.cons_append] at read
      rw [List.length_cons] at inside
      cases skip with
      | succ skip =>
          rw [templateBody] at read
          obtain ⟨inner, found, same⟩ := bind_eq_ok.mp read
          cases same
          exact ih found (Nat.le_of_succ_le_succ inside)
      | zero =>
          rw [templateBody] at read
          split at read
          · obtain ⟨escape, _, read⟩ := bind_eq_ok.mp read
            obtain ⟨inner, found, same⟩ := bind_eq_ok.mp read
            cases same
            obtain ⟨f, later, closes⟩ := ih found (Nat.le_of_succ_le_succ inside)
            exact ⟨f, List.mem_cons_of_mem e (List.mem_of_mem_drop later), closes⟩
          · split at read
            · next atBacktick => exact ⟨e, List.mem_cons_self, .inl atBacktick⟩
            · split at read
              · next opens => exact ⟨e, List.mem_cons_self, .inr opens.1⟩
              · obtain ⟨inner, found, same⟩ := bind_eq_ok.mp read
                cases same
                obtain ⟨f, later, closes⟩ := ih found (Nat.le_of_succ_le_succ inside)
                exact ⟨f, List.mem_cons_of_mem e later, closes⟩

/-- **Template text that ends in front of the seam is read as before.** -/
theorem templateBody_local (escapes : EscapesStay b c x d y) {skip : Nat} {body : TemplateText}
    (read : templateBody skip (b ++ c :: x) = .ok body) (inside : body.width ≤ b.length) :
    templateBody skip (b ++ d :: y) = .ok body := by
  induction b generalizing skip body with
  | nil =>
      obtain ⟨f, never, _⟩ := templateBody_closes read inside
      rw [List.drop_nil] at never
      cases never
  | cons e b ih =>
      rw [List.cons_append] at read ⊢
      rw [List.length_cons] at inside
      cases skip with
      | succ skip =>
          rw [templateBody] at read ⊢
          obtain ⟨inner, found, same⟩ := bind_eq_ok.mp read
          cases same
          rw [ih escapes.tail found (Nat.le_of_succ_le_succ inside)]
          rfl
      | zero =>
          rw [templateBody] at read ⊢
          split at read
          · next backslash =>
              obtain ⟨escape, decoded, read⟩ := bind_eq_ok.mp read
              obtain ⟨inner, found, same⟩ := bind_eq_ok.mp read
              cases same
              have shorter := Nat.le_of_succ_le_succ inside
              have closed : ∃ f ∈ b.drop escape.width, f.hexValue = none := by
                obtain ⟨f, later, closes⟩ := templateBody_closes found shorter
                refine ⟨f, later, ?_⟩
                rcases closes with rfl | rfl <;> decide
              rw [if_pos backslash,
                Escape.decode_local (escapes (backslash ▸ List.mem_cons_self)) decoded closed]
              show (templateBody escape.width (b ++ d :: y) >>= fun body => pure _) = _
              rw [ih escapes.tail found shorter]
              rfl
          · next noBackslash =>
              rw [if_neg noBackslash]
              split at read
              · next atBacktick =>
                  rw [if_pos atBacktick]
                  exact read
              · next noBacktick =>
                  rw [if_neg noBacktick]
                  -- Whether a brace follows the dollar sign is seen in front of the seam.
                  have head (f : CodePoint) (z : Text) (some : b ≠ []) :
                      (b ++ f :: z).head? = b.head? := by
                    cases b with
                    | nil => exact absurd rfl some
                    | cons g b => rfl
                  split at read
                  · next opens =>
                      cases read
                      have some : b ≠ [] := by
                        intro empty
                        rw [empty, List.length_nil] at inside
                        exact absurd inside (by decide)
                      rw [head c x some] at opens
                      rw [head d y some, if_pos opens]
                  · next goesOn =>
                      obtain ⟨inner, found, same⟩ := bind_eq_ok.mp read
                      cases same
                      have shorter := Nat.le_of_succ_le_succ inside
                      have some : b ≠ [] := by
                        intro empty
                        obtain ⟨f, never, _⟩ := templateBody_closes found shorter
                        rw [empty] at never
                        cases never
                      rw [head c x some] at goesOn
                      rw [head d y some, if_neg goesOn, ih escapes.tail found shorter]
                      rfl

/-! ## §3. Regular expressions. -/

theorem regexWidth?_pos {inClass : Bool} {t : Text} {width : Nat}
    (found : regexWidth? inClass t = some width) : 0 < width := by
  rw [regexWidth?.eq_def] at found
  have more {inClass : Bool} {t : Text} {k : Nat}
      (found : (regexWidth? inClass t).map (· + (k + 1)) = some width) : 0 < width := by
    obtain ⟨w, _, rfl⟩ := Option.map_eq_some_iff.mp found
    omega
  split at found
  · cases found
  split at found
  · split at found
    · cases found
    · exact more found
  split at found
  · cases found
  split at found
  · exact more found
  split at found
  · exact more found
  split at found
  · cases found
    omega
  · exact more found

/-- **A regular expression that ends in front of the seam is read as before,**
and one that is not closed stays so at a seam. -/
theorem regexWidth?_local (joint : Joint c x d y) {inClass : Bool}
    (closed : (regexWidth? inClass (b ++ c :: x)).isSome = true ∨ StaysOpen b c x d y)
    (inside : ∀ width, regexWidth? inClass (b ++ c :: x) = some width → width ≤ b.length) :
    regexWidth? inClass (b ++ d :: y) = regexWidth? inClass (b ++ c :: x) := by
  induction hn : b.length using Nat.strongRecOn generalizing b inClass with
  | ind n ih =>
      subst hn
      cases b with
      | nil =>
          rw [List.nil_append, List.nil_append]
          cases found : regexWidth? inClass (c :: x) with
          | none =>
              rw [List.nil_append, found] at closed
              exact (closed.resolve_left Bool.false_ne_true).regex inClass found
          | some width =>
              have small := inside width found
              have positive := regexWidth?_pos found
              rw [List.length_nil] at small
              omega
      | cons e b =>
          -- Behind a character that is read, the rest is read as before.
          have later (inClass : Bool) (b' : Text) (k : Nat) (shorter : b'.length + k = b.length + 1)
              (positive : 0 < k)
              (closed : ((regexWidth? inClass (b' ++ c :: x)).map (· + k)).isSome = true
                ∨ StaysOpen b' c x d y)
              (inside : ∀ width, (regexWidth? inClass (b' ++ c :: x)).map (· + k) = some width →
                width ≤ b.length + 1) :
              (regexWidth? inClass (b' ++ d :: y)).map (· + k)
                = (regexWidth? inClass (b' ++ c :: x)).map (· + k) := by
            rw [Option.isSome_map] at closed
            refine congrArg _ (ih b'.length (by rw [List.length_cons]; omega) closed ?_ rfl)
            intro width found
            have small := inside (width + k) (by rw [found]; rfl)
            omega
          simp only [List.cons_append, List.length_cons] at closed inside ⊢
          rw [regexWidth?.eq_def] at closed inside ⊢
          rw [regexWidth?.eq_def inClass (e :: (b ++ c :: x))]
          simp only at closed inside ⊢
          by_cases backslash : e = .scalar '\\'
          · simp only [if_pos backslash] at closed inside ⊢
            cases b with
            | nil =>
                simp only [List.nil_append, List.length_nil] at closed inside ⊢
                cases found : regexWidth? inClass x with
                | none =>
                    rw [found] at closed
                    have stays := closed.resolve_left Bool.false_ne_true
                    rw [stays.escaped (by rw [backslash]; rfl) inClass found]
                | some width =>
                    have small := inside (width + 2) (by rw [found]; rfl)
                    omega
            | cons f b =>
                exact later inClass b 2 (by rw [List.length_cons]) (by omega)
                  (closed.imp_right fun stays => stays.tail.tail) inside
          simp only [if_neg backslash] at closed inside ⊢
          by_cases atNewline : e = .scalar '\n'
          · rw [if_pos atNewline, if_pos atNewline]
          simp only [if_neg atNewline] at closed inside ⊢
          by_cases opens : e = .scalar '['
          · simp only [if_pos opens] at closed inside ⊢
            exact later true b 1 rfl (by omega) (closed.imp_right StaysOpen.tail) inside
          simp only [if_neg opens] at closed inside ⊢
          by_cases closes : e = .scalar ']'
          · simp only [if_pos closes] at closed inside ⊢
            exact later false b 1 rfl (by omega) (closed.imp_right StaysOpen.tail) inside
          simp only [if_neg closes] at closed inside ⊢
          by_cases ends : e = .scalar '/' ∧ (!inClass) = true
          · simp only [if_pos ends] at inside ⊢
            have small := inside _ rfl
            rw [runLength_local (c := c) (x := x) joint.flag (by omega)]
          · simp only [if_neg ends] at closed inside ⊢
            exact later inClass b 1 rfl (by omega) (closed.imp_right StaysOpen.tail) inside

/-! ## §4. Blanks and comments. -/

/-- A block comment that ends in front of the seam is closed there. -/
theorem blockComment_local (inside : (blockComment (b ++ c :: x)).1 ≤ b.length) :
    blockComment (b ++ d :: y) = blockComment (b ++ c :: x) := by
  induction b with
  | nil =>
      have impossible : 0 < (blockComment (c :: x)).1 := by
        unfold blockComment
        split
        · exact Nat.succ_pos _
        · exact Nat.succ_pos _
      rw [List.nil_append, List.length_nil] at inside
      omega
  | cons e b ih =>
      simp only [List.cons_append, blockComment, List.length_cons] at inside ⊢
      cases b with
      | nil =>
          -- One character is no closing delimiter.
          have impossible : 0 < (blockComment (c :: x)).1 := by
            unfold blockComment
            split
            · exact Nat.succ_pos _
            · exact Nat.succ_pos _
          simp only [List.nil_append, List.length_nil] at inside
          split at inside
          · exact absurd inside (by decide)
          · simp only at inside
            omega
      | cons f b =>
          by_cases closes : e = .scalar '*' ∧ f = .scalar '/'
          · have closes' (z : Text) :
                e = .scalar '*' ∧ (f :: b ++ z).head? = some (.scalar '/') :=
              ⟨closes.1, congrArg some closes.2⟩
            rw [if_pos (closes' _), if_pos (closes' _)]
          · have goesOn (z : Text) :
                ¬ (e = .scalar '*' ∧ (f :: b ++ z).head? = some (.scalar '/')) :=
              fun h => closes ⟨h.1, Option.some.inj h.2⟩
            rw [if_neg (goesOn _)] at inside
            rw [if_neg (goesOn _), if_neg (goesOn _), ih (Nat.le_of_succ_le_succ inside)]

/-- **What is skipped in front of the seam is skipped whatever follows.**  A newline at the
seam must not be what ends a comment. -/
theorem trivia?_local (seam : Joint c x d y)
    (inside : ∀ extra newline, trivia? e (b ++ c :: x) = some (extra, newline) →
      extra ≤ b.length ∧ (c = .scalar '\n' → extra < b.length)) :
    trivia? e (b ++ d :: y) = trivia? e (b ++ c :: x) := by
  unfold trivia? at inside ⊢
  by_cases atNewline : e = .scalar '\n'
  · rw [if_pos atNewline, if_pos atNewline]
  simp only [if_neg atNewline] at inside ⊢
  by_cases blank : isBlank e = true
  · rw [if_pos blank, if_pos blank]
  simp only [if_neg blank] at inside ⊢
  by_cases slash : e = .scalar '/'
  · simp only [if_pos slash] at inside ⊢
    cases b with
    | nil =>
        have notSlash : d ≠ .scalar '/' := seam.ne_of_mem (by decide)
        have notStar : d ≠ .scalar '*' := seam.ne_of_mem (by decide)
        simp only [List.nil_append, List.length_nil, notSlash, notStar, if_false] at inside ⊢
        split at inside
        · have small := (inside _ _ rfl).1
          omega
        · next noLine =>
            rw [if_neg noLine]
            split at inside
            · have small := (inside _ _ rfl).1
              omega
            · next noBlock => rw [if_neg noBlock]
    | cons f b =>
        simp only [List.cons_append, List.length_cons] at inside ⊢
        split at inside
        · next line =>
            obtain ⟨small, strict⟩ := inside _ _ rfl
            rw [if_pos line, if_pos line, lineLength_local (c := c) (x := x) (by omega)]
            intro atNewline
            have inside := strict atNewline
            omega
        · next noLine =>
            rw [if_neg noLine, if_neg noLine]
            split at inside
            · next block =>
                have small := (inside _ _ rfl).1
                rw [if_pos block, if_pos block,
                  blockComment_local (c := c) (x := x) (by omega)]
            · next noBlock => rw [if_neg noBlock, if_neg noBlock]
  · simp only [if_neg slash]

/-! ## §5. Lexemes. -/

theorem stringLiteral_local (escapes : EscapesStay b c x d y) {quote : Quote}
    {braces : List OpenBrace} {found : Found} (read : stringLiteral quote braces (b ++ c :: x) = .ok found)
    (inside : found.extra ≤ b.length)
    (line : c = .scalar '\n' →
      found.extra < b.length ∨ stringCloses quote.mark 0 (b ++ c :: x) = true) :
    stringLiteral quote braces (b ++ d :: y) = .ok found := by
  unfold stringLiteral at read ⊢
  obtain ⟨body, isBody, same⟩ := bind_eq_ok.mp read
  cases same
  rw [stringBody_local escapes isBody inside line]
  rfl

theorem templatePart_local (escapes : EscapesStay b c x d y) {opening : Bool}
    {braces : List OpenBrace} {found : Found} (read : templatePart opening braces (b ++ c :: x) = .ok found)
    (inside : found.extra ≤ b.length) : templatePart opening braces (b ++ d :: y) = .ok found := by
  unfold templatePart at read ⊢
  obtain ⟨body, isBody, same⟩ := bind_eq_ok.mp read
  cases same
  rw [templateBody_local escapes isBody inside]
  rfl

/-- Where no number starts, none does whatever follows. -/
theorem startsNumber_local (seam : Joint c x d y)
    (notNumber : startsNumber e (b ++ c :: x) = false) :
    startsNumber e (b ++ d :: y) = false := by
  unfold startsNumber at notNumber ⊢
  cases b with
  | nil =>
      rw [Bool.or_eq_false_iff] at notNumber
      simp only [List.nil_append, notNumber.1, seam.notDigit', Bool.and_false, Bool.or_false]
  | cons f b => exact notNumber

/-- A numeral stands where a number starts. -/
theorem startsNumber_of_width? {rest : Text} {width : Nat}
    (found : Number.width? (e :: rest) = some width) : startsNumber e rest = true := by
  have isDigit {f : CodePoint} (decimal : f.isDecimal = true) : f.isDigit = true := by
    unfold CodePoint.isDigit
    rw [decimal, Bool.true_or]
  have isSome : (Number.width? (e :: rest)).isSome = true := by
    rw [found]
    rfl
  rw [Number.width?_isSome, Number.mantissaWidth?_isSome] at isSome
  unfold startsNumber
  rcases isSome with decimal | ⟨isPoint, d, after, behind, decimal⟩
  · rw [isDigit decimal, Bool.true_or]
  · rw [isPoint, behind]
    simp only [beq_self_eq_true, isDigit decimal, Bool.and_self, Bool.or_true]

/-- A slash that begins no regular expression is an operator. -/
theorem isSlash_punctuator (braces : List OpenBrace) (slash : e = .scalar '/') (rest : Text) :
    (punctuator braces e rest).lexeme.isSlash = true := by
  have spelled : ∀ entry ∈ Punct.table, entry.1.head? = some (.scalar '/') →
      (Lexeme.punct entry.2).isSlash = true := by decide
  have operator : (Punct.slash.text, Punct.slash) ∈ Punct.table := by decide
  rw [punctuator_eq]
  cases found : Punct.table.find? (standsAt e rest) with
  | none =>
      have fails := List.find?_eq_none.mp found _ operator
      rw [slash] at fails
      exact absurd rfl fails
  | some entry =>
      have stands := List.find?_some found
      unfold standsAt at stands
      have begins := List.isPrefixOf_iff_prefix.mp (Bool.and_eq_true_iff.mp stands).1
      have listed := List.mem_of_find?_eq_some found
      refine spelled entry listed ?_
      cases isText : entry.1 with
      | nil =>
          have nonempty := mem_table listed
          rw [isText] at nonempty
          exact absurd nonempty.symm (Punct.text_ne_nil _)
      | cons f others =>
          rw [isText] at begins
          rw [List.head?_cons, (List.cons_prefix_cons.mp begins).1, slash]

/-- **A lexeme that ends in front of the seam is read as before,** unless it is a slash
that begins a regular expression because of what stands behind the seam, or a string that
only a newline at the seam ends. -/
theorem lexeme_local (joint : Joint c x d y) (escapes : EscapesStay b c x d y)
    (apart : Apart e b c) {braces : List OpenBrace} {previous : Option Lexeme} {found : Found}
    (calm : (regexAllowed previous = true → found.lexeme.isSlash = false) ∨ StaysOpen b c x d y)
    (read : lexeme braces previous e (b ++ c :: x) = .ok found) (inside : found.extra ≤ b.length)
    (line : c = .scalar '\n' → found.extra < b.length ∨ ∀ quote value,
      found.lexeme = .string quote value → stringCloses quote.mark 0 (b ++ c :: x) = true) :
    lexeme braces previous e (b ++ d :: y) = .ok found := by
  have nonempty (f : CodePoint) (z : Text) : b ++ f :: z ≠ [] := by simp
  have ofString {quote : Quote} (read : stringLiteral quote braces (b ++ c :: x) = .ok found) :
      stringLiteral quote braces (b ++ d :: y) = .ok found := by
    obtain ⟨body, _, same⟩ := bind_eq_ok.mp read
    refine stringLiteral_local escapes read inside fun atNewline => (line atNewline).imp_right ?_
    exact fun closes => closes quote body.value (by cases same; rfl)
  unfold lexeme at read ⊢
  by_cases double : e = .scalar '"'
  · rw [if_pos double] at read ⊢
    exact ofString read
  rw [if_neg double] at read ⊢
  by_cases single : e = .scalar '\''
  · rw [if_pos single] at read ⊢
    exact ofString read
  rw [if_neg single] at read ⊢
  by_cases backtick : e = .scalar '\x60'
  · rw [if_pos backtick] at read ⊢
    exact templatePart_local escapes read inside
  rw [if_neg backtick] at read ⊢
  by_cases starts : startsNumber e (b ++ c :: x) = true
  · rw [if_pos starts] at read
    split at read
    · next width isWidth =>
        cases read
        have short : width ≤ (e :: b).length := by
          rw [List.length_cons]
          simp only at inside
          omega
        have same := Number.width?_local (b := e :: b) joint isWidth short
        have starts' : startsNumber e (b ++ d :: y) = true := startsNumber_of_width? same
        rw [if_pos starts', ← List.cons_append, same, ← List.cons_append]
        simp only [List.take_append_of_le_length short]
    · cases read
  have notStarts := startsNumber_local joint (Bool.eq_false_iff.mpr starts)
  rw [if_neg starts] at read
  rw [notStarts, if_neg Bool.false_ne_true]
  by_cases hash : e = .scalar '#'
  · rw [if_pos ⟨hash, nonempty c x⟩] at read
    rw [if_pos ⟨hash, nonempty d y⟩]
    have short : nameWidth (b ++ c :: x) ≤ b.length := by
      split at read
      · next zero => omega
      · next width isWidth =>
          cases read
          simp only at inside
          omega
    rw [joint.nameWidth_local short]
    split at read
    · exact read
    · next width isWidth =>
        rw [List.take_append_of_le_length (by omega)] at read ⊢
        exact read
  rw [if_neg (fun h => hash h.1)] at read ⊢
  by_cases regex : e = .scalar '/' ∧ regexAllowed previous = true
  · rw [if_pos regex] at read ⊢
    have short : ∀ width, regexWidth? false (b ++ c :: x) = some width → width ≤ b.length := by
      intro width isWidth
      rw [isWidth] at read
      cases read
      exact inside
    have closed : (regexWidth? false (b ++ c :: x)).isSome = true ∨ StaysOpen b c x d y := by
      refine calm.imp_left fun calm => ?_
      cases isWidth : regexWidth? false (b ++ c :: x) with
      | some width => rfl
      | none =>
          rw [isWidth] at read
          have isSlash := isSlash_punctuator braces regex.1 (b ++ c :: x)
          rw [Except.ok.inj read, calm regex.2] at isSlash
          cases isSlash
    rw [regexWidth?_local joint closed short]
    cases isWidth : regexWidth? false (b ++ c :: x) with
    | some width =>
        rw [isWidth] at read
        have room := short width isWidth
        simp only [List.take_append_of_le_length room] at read ⊢
        exact read
    | none =>
        rw [isWidth] at read
        simp only [Except.ok.injEq] at read ⊢
        subst read
        exact punctuator_local joint apart braces inside
  rw [if_neg regex] at read ⊢
  by_cases continues : e = .scalar '}' ∧ braces.head? = some .substitution
  · rw [if_pos continues] at read ⊢
    exact templatePart_local escapes read inside
  · rw [if_neg continues] at read ⊢
    simp only [Except.ok.injEq] at read ⊢
    subst read
    exact nameOrPunctuator_local joint apart braces inside

end Scan

end StackLint
