/-
  StackLint.Proofs.Token.Exchange
  ───────────────────────────────
  **EXCHANGING A TOKEN.**

  When a token is replaced by another one that closes no brace and opens none,
  the tokens in front of it stay where they are and those behind it only move:
  the scanner comes to the place as before and goes on as before.
-/
import Mathlib.Data.List.Chain
import StackLint.Proofs.Token.Layout
import StackLint.Proofs.Token.Resume

namespace StackLint

/-- The lexeme is a name or a string. -/
def Lexeme.isNaming : Lexeme → Bool
  | .word _ | .string _ _ => true
  | _ => false

namespace Scan

variable {b x y t t' : Text} {c d e : CodePoint} {memory memory' : Memory} {offset offset' : Nat}
  {tokens : List Token}

/-! ## §1. The way to a place. -/

/-- The main loop comes from one place to another, and these tokens lie between
them. -/
inductive Comes : Memory → Nat → Text → List Token → Memory → Nat → Text → Prop where
  | here {memory : Memory} {offset : Nat} {t : Text} : Comes memory offset t [] memory offset t
  | trivia {memory memory' : Memory} {offset offset' : Nat} {t' : Text} {tokens : List Token}
      {c : CodePoint} {rest : Text} {extra : Nat} {newline : Bool} :
      trivia? c rest = some (extra, newline) →
      Comes { memory with newline := memory.newline || newline }
        (offset + 1 + min extra rest.length) (rest.drop extra) tokens memory' offset' t' →
      Comes memory offset (c :: rest) tokens memory' offset' t'
  | lexeme {memory memory' : Memory} {offset offset' : Nat} {t' : Text} {tokens : List Token}
      {c : CodePoint} {rest : Text} {found : Found} :
      trivia? c rest = none →
      Scan.lexeme memory.braces memory.previous c rest = .ok found →
      Comes found.memory (offset + 1 + min found.extra rest.length) (rest.drop found.extra) tokens
        memory' offset' t' →
      Comes memory offset (c :: rest)
        (⟨found.lexeme, offset, offset + found.extra + 1, memory.newline⟩ :: tokens)
        memory' offset' t'

/-- What is read from the one place are the tokens between them, and what is read
from the other. -/
theorem Comes.tokensFrom_eq (comes : Comes memory offset t tokens memory' offset' t') :
    tokensFrom memory 0 offset t = (tokensFrom memory' 0 offset' t').map (tokens ++ ·) := by
  induction comes with
  | here =>
      show _ = (tokensFrom _ 0 _ _).map id
      rw [Except.map_id]
      rfl
  | trivia skipped _ ih => rw [tokensFrom_trivia skipped, ih]
  | lexeme notTrivial read _ ih =>
      rw [tokensFrom_lexeme notTrivial read, ih]
      cases tokensFrom _ 0 _ _ <;> rfl

/-- What is dropped in a step lies between the two places. -/
theorem exists_append_step {rest : Text} {extra : Nat}
    (later : ∃ b, rest.drop extra = b ++ t' ∧ offset' = offset + 1 + min extra rest.length + b.length) :
    ∃ b, c :: rest = b ++ t' ∧ offset' = offset + b.length := by
  obtain ⟨b, whole, place⟩ := later
  refine ⟨c :: (rest.take extra ++ b), ?_, ?_⟩
  · rw [List.cons_append, List.append_assoc, ← whole, List.take_append_drop]
  · rw [place, List.length_cons, List.length_append, List.length_take]
    omega

/-- The other place lies behind the first. -/
theorem Comes.exists_append (comes : Comes memory offset t tokens memory' offset' t') :
    ∃ b, t = b ++ t' ∧ offset' = offset + b.length := by
  induction comes with
  | here => exact ⟨[], rfl, rfl⟩
  | trivia _ _ ih => exact exists_append_step ih
  | lexeme _ _ _ ih => exact exists_append_step ih

/-- A step from in front of a seam does not lead beyond it. -/
theorem Comes.split {rest : Text} {extra : Nat} (whole : e :: rest = b ++ c :: x)
    (later : Comes memory offset (rest.drop extra) tokens memory' offset' (c :: x)) :
    ∃ b', b = e :: b' ∧ rest = b' ++ c :: x ∧ extra ≤ b'.length := by
  obtain ⟨between, dropped, _⟩ := later.exists_append
  have length := congrArg List.length dropped
  have length' := congrArg List.length whole
  simp only [List.length_drop, List.length_append, List.length_cons] at length length'
  cases b with
  | nil =>
      rw [List.length_nil] at length'
      omega
  | cons f b =>
      rw [List.cons_append, List.cons.injEq] at whole
      rw [List.length_cons] at length'
      exact ⟨b, by rw [whole.1], whole.2, by omega⟩

/-- **The way to the token at the front of what is left.** -/
theorem exists_comes {before after : List Token} {token : Token}
    (run : tokensFrom memory 0 offset t = .ok (before ++ token :: after))
    (notEnd : token.lexeme ≠ .endOfText) :
    ∃ memory' e rest found, Comes memory offset t before memory' token.start (e :: rest)
      ∧ trivia? e rest = none
      ∧ lexeme memory'.braces memory'.previous e rest = .ok found
      ∧ token = ⟨found.lexeme, token.start, token.start + found.extra + 1, memory'.newline⟩
      ∧ tokensFrom found.memory 0 (token.start + 1 + min found.extra rest.length)
          (rest.drop found.extra) = .ok after := by
  induction memory, offset, t using walk_induct generalizing before with
  | nil memory offset =>
      rw [tokensFrom_nil] at run
      cases before with
      | nil =>
          cases run
          exact absurd rfl notEnd
      | cons first before => cases before <;> cases run
  | trivia memory offset c rest extra newline trivial ih =>
      rw [tokensFrom_trivia trivial] at run
      obtain ⟨memory', e, rest', found, comes, others⟩ := ih run
      exact ⟨memory', e, rest', found, .trivia trivial comes, others⟩
  | failure memory offset c rest failure trivial read =>
      rw [tokensFrom_failure trivial read] at run
      cases run
  | lexeme memory offset c rest found trivial read ih =>
      rw [tokensFrom_lexeme trivial read] at run
      cases later : tokensFrom found.memory 0 (offset + 1 + min found.extra rest.length)
          (rest.drop found.extra) with
      | error failure =>
          rw [later] at run
          cases run
      | ok others =>
          rw [later] at run
          cases before with
          | nil =>
              cases run
              exact ⟨memory, c, rest, found, .here, trivial, read, rfl, later⟩
          | cons first before =>
              simp only [Except.map, List.cons_append, Except.ok.injEq, List.cons.injEq] at run
              obtain ⟨isFirst, isRest⟩ := run
              rw [isRest] at later
              obtain ⟨memory', e, rest', found', comes, others⟩ := ih later
              subst isFirst
              exact ⟨memory', e, rest', found', .lexeme trivial read comes, others⟩

/-- From a place the loop comes back to it only by staying there. -/
theorem Comes.eq_nil (comes : Comes memory offset t tokens memory' offset' t) : tokens = [] := by
  have shorter {rest t' : Text} {extra : Nat} {memory memory' : Memory} {offset offset' : Nat}
      {tokens : List Token}
      (later : Comes memory offset (rest.drop extra) tokens memory' offset' t') :
      t'.length ≤ rest.length := by
    obtain ⟨between, dropped, _⟩ := later.exists_append
    have length := congrArg List.length dropped
    rw [List.length_drop, List.length_append] at length
    omega
  cases comes with
  | here => rfl
  | trivia _ later => exact absurd (shorter later) (Nat.not_succ_le_self _)
  | lexeme _ _ later => exact absurd (shorter later) (Nat.not_succ_le_self _)

/-- A numeral that begins with a point has a digit behind it. -/
theorem two_le_width?_of_point {rest : Text} {width : Nat}
    (found : Number.width? (.scalar '.' :: rest) = some width) : 2 ≤ width := by
  unfold Number.width? at found
  rcases Option.or_eq_some_iff.mp found with radix | ⟨_, decimal⟩
  · have isDecimal := Number.isDecimal_of_radixWidth? (by rw [radix]; rfl)
    exact absurd isDecimal (by decide)
  · unfold Number.decimalWidth? at decimal
    obtain ⟨mantissa, isMantissa, same⟩ := Option.bind_eq_some_iff.mp decimal
    cases same
    have notDecimal : ¬ (CodePoint.scalar '.').isDecimal = true := by decide
    simp only [Number.mantissaWidth?] at isMantissa
    rw [if_neg notDecimal, if_pos trivial] at isMantissa
    split at isMantissa
    · split at isMantissa
      · cases isMantissa
        omega
      · cases isMantissa
    · cases isMantissa

/-- A question mark in front of a point and a digit is a token of its own. -/
theorem lexeme_question (isDigit : c.isDigit = true) (braces : List OpenBrace)
    (previous : Option Lexeme) :
    lexeme braces previous (.scalar '?') (.scalar '.' :: c :: x) = .ok ⟨.punct .question, 0, braces⟩ := by
  have stands : standsAt (.scalar '?') (.scalar '.' :: c :: x)
      = fun entry => entry.1.isPrefixOf (.scalar '?' :: .scalar '.' :: c :: x)
          && !(entry.2 == .optionalDot && true) := by
    unfold standsAt
    rw [show beforeDigit (.scalar '.' :: c :: x) = true from isDigit]
  rw [lexeme_mark (by decide) (by decide) rfl, punctuator_eq, stands]
  rfl

/-- At a point in front of a digit no token ends behind the point. -/
theorem Comes.apart {found : Found} {braces : List OpenBrace}
    {previous : Option Lexeme} (read : Scan.lexeme braces previous e (b ++ c :: x) = .ok found)
    (later : Comes found.memory offset ((b ++ c :: x).drop found.extra) tokens memory' offset'
      (c :: x)) : Apart e b c := by
  rintro rfl rfl
  rw [Bool.eq_false_iff]
  intro isDigit
  rw [List.singleton_append, lexeme_question isDigit] at read
  cases read
  -- The point begins a numeral, and that takes the digit as well.
  have starts : startsNumber (.scalar '.') (c :: x) = true := by
    unfold startsNumber
    simp only [isDigit, beq_self_eq_true, Bool.and_self, Bool.or_true]
  have later : Comes _ offset (.scalar '.' :: c :: x) tokens memory' offset' (c :: x) := later
  generalize atPoint : CodePoint.scalar '.' :: c :: x = t at later
  generalize behind : c :: x = t' at later
  cases later with
  | here =>
      have length := congrArg List.length (behind.trans atPoint.symm)
      simp only [List.length_cons] at length
      omega
  | trivia skipped _ =>
      cases atPoint
      cases skipped
  | lexeme _ read later =>
      cases atPoint
      rw [← behind] at later
      obtain ⟨b, isPoint, _, inside⟩ := later.split (b := [.scalar '.']) rfl
      cases isPoint
      unfold Scan.lexeme at read
      rw [if_neg (by decide), if_neg (by decide), if_neg (by decide), if_pos starts] at read
      split at read
      · next width isWidth =>
          cases read
          have two := two_le_width?_of_point isWidth
          simp only [List.length_nil] at inside
          omega
      · cases read

/-- No slash on the way turns into the beginning of a regular expression. -/
def Calm (previous : Option Lexeme) (tokens : List Token) : Prop :=
  ∃ l, previous = some l ∧ (l :: tokens.map Token.lexeme).IsChain Lexeme.Precedes

/-- The last of these tokens of the text ends at the place, and it is closed. -/
def EndsClosed (text : Text) (tokens : List Token) (place : Nat) : Prop :=
  ∃ token, tokens.getLast? = some token ∧ token.stop = place ∧ token.isClosed text = true

theorem endsClosed_singleton {text : Text} {token : Token} {place : Nat} :
    EndsClosed text [token] place ↔ token.stop = place ∧ token.isClosed text = true := by
  simp only [EndsClosed, List.getLast?_singleton, Option.some.injEq, exists_eq_left']

theorem endsClosed_cons_cons {text : Text} {first second : Token} {place : Nat} :
    EndsClosed text (first :: second :: tokens) place ↔ EndsClosed text (second :: tokens) place := by
  simp only [EndsClosed, List.getLast?_cons_cons]

/-- **The way to a joint is the same whatever follows it.**  In front of a newline it has to
lead over a token that is closed. -/
theorem Comes.exchange (text : Text) (joint : Joint c x d y) (escapes : EscapesStay b c x d y)
    (calm : Calm memory.previous tokens ∨ StaysOpen b c x d y)
    (line : c = .scalar '\n' →
      b = [] ∨ text.drop offset = b ++ c :: x ∧ EndsClosed text tokens offset')
    (comes : Comes memory offset (b ++ c :: x) tokens memory' offset' (c :: x)) :
    Comes memory offset (b ++ d :: y) tokens memory' offset' (d :: y) := by
  generalize whole : b ++ c :: x = t at comes
  generalize last : c :: x = t' at comes
  induction comes generalizing b with
  | here =>
      have empty : b = [] := by
        have length := congrArg List.length whole
        have length' := congrArg List.length last
        rw [List.length_append] at length
        exact List.length_eq_zero_iff.mp (by omega)
      rw [empty]
      exact .here
  | @trivia memory _ offset offset' _ tokens e rest extra newline skipped later ih =>
      rw [← last] at later
      obtain ⟨b, rfl, rfl, inside⟩ := later.split whole.symm
      have place : min extra (b ++ c :: x).length = extra := by
        rw [List.length_append]
        omega
      have dropped : (b ++ c :: x).drop extra = b.drop extra ++ c :: x :=
        List.drop_append_of_le_length inside
      have ends (atNewline : c = .scalar '\n') :
          text.drop offset = e :: b ++ c :: x ∧ EndsClosed text tokens offset' :=
        (line atNewline).resolve_left (List.cons_ne_nil _ _)
      -- Behind blanks and comments a token is still to come.
      have strict (atNewline : c = .scalar '\n') : extra < b.length := by
        obtain ⟨_, token, isLast, _⟩ := ends atNewline
        refine Nat.lt_of_le_of_ne inside fun same => ?_
        rw [dropped, same, List.drop_length] at later
        rw [later.eq_nil] at isLast
        cases isLast
      have skipped' : trivia? e (b ++ d :: y) = some (extra, newline) := by
        rw [trivia?_local joint, skipped]
        intro other _ isOther
        rw [skipped] at isOther
        cases isOther
        exact ⟨inside, strict⟩
      rw [List.cons_append]
      refine .trivia skipped' ?_
      have next := ih (b := b.drop extra) (escapes.tail.drop extra)
        (calm.imp_right fun stays => stays.tail.drop extra)
        (fun atNewline => .inr ⟨by
          rw [place, Nat.add_assoc, Nat.add_comm 1, ← List.drop_drop, (ends atNewline).1, ← dropped]
          rfl, (ends atNewline).2⟩) dropped.symm last
      rw [List.drop_append_of_le_length inside]
      rw [place] at next
      rw [Nat.min_eq_left (by rw [List.length_append]; omega)]
      exact next
  | @lexeme memory _ offset offset' _ tokens e rest found notTrivial read later ih =>
      rw [← last] at later
      obtain ⟨b, rfl, rfl, inside⟩ := later.split whole.symm
      have place : min found.extra (b ++ c :: x).length = found.extra := by
        rw [List.length_append]
        omega
      have dropped : (b ++ c :: x).drop found.extra = b.drop found.extra ++ c :: x :=
        List.drop_append_of_le_length inside
      have notTrivial' : trivia? e (b ++ d :: y) = none := by
        rw [trivia?_local joint, notTrivial]
        intro other _ isOther
        rw [notTrivial] at isOther
        cases isOther
      have apart : Apart e b c := later.apart read
      have calmHere : (regexAllowed memory.previous = true → found.lexeme.isSlash = false)
          ∨ StaysOpen b c x d y := by
        refine calm.imp (fun ⟨l, isLast, chain⟩ allowed => Bool.eq_false_iff.mpr fun isSlash => ?_)
          StaysOpen.tail
        have divides := (List.isChain_cons_cons.mp chain).1 isSlash
        rw [← isLast, allowed] at divides
        cases divides
      have calmLater : Calm found.memory.previous tokens ∨ StaysOpen (b.drop found.extra) c x d y :=
        calm.imp (fun ⟨_, _, chain⟩ => ⟨found.lexeme, rfl, (List.isChain_cons_cons.mp chain).2⟩)
          fun stays => stays.tail.drop found.extra
      have ends (atNewline : c = .scalar '\n') : text.drop offset = e :: b ++ c :: x
          ∧ EndsClosed text (⟨found.lexeme, offset, offset + found.extra + 1, memory.newline⟩ :: tokens)
            offset' :=
        (line atNewline).resolve_left (List.cons_ne_nil _ _)
      -- Where the lexeme comes to the seam it is the last one, and closed.
      have lineHere (atNewline : c = .scalar '\n') : found.extra < b.length
          ∨ ∀ quote value, found.lexeme = .string quote value →
            stringCloses quote.mark 0 (b ++ c :: x) = true := by
        refine (Nat.lt_or_eq_of_le inside).imp_right fun same quote value isString => ?_
        obtain ⟨left, endsClosed⟩ := ends atNewline
        rw [dropped, same, List.drop_length] at later
        rw [later.eq_nil, endsClosed_singleton] at endsClosed
        have closed := endsClosed.2
        unfold Token.isClosed at closed
        simp only [isString] at closed
        rw [← closed, ← List.drop_drop, left]
        rfl
      have lineLater (atNewline : c = .scalar '\n') : b.drop found.extra = []
          ∨ text.drop (offset + 1 + min found.extra (b ++ c :: x).length)
              = b.drop found.extra ++ c :: x ∧ EndsClosed text tokens offset' := by
        obtain ⟨left, endsClosed⟩ := ends atNewline
        cases tokens with
        | nil =>
            -- The lexeme was the last one, so this is the place.
            have stop := (endsClosed_singleton.mp endsClosed).1
            obtain ⟨between, isBetween, isPlace⟩ := later.exists_append
            rw [place] at isPlace
            simp only at stop
            have none : between = [] := List.length_eq_zero_iff.mp (by omega)
            rw [none, dropped] at isBetween
            exact .inl (List.append_left_eq_self.mp isBetween)
        | cons first tokens =>
            refine .inr ⟨?_, endsClosed_cons_cons.mp endsClosed⟩
            rw [place, Nat.add_assoc, Nat.add_comm 1, ← List.drop_drop, left, ← dropped]
            rfl
      rw [List.cons_append]
      refine .lexeme notTrivial' (lexeme_local joint escapes.tail apart calmHere read inside lineHere) ?_
      have next := ih (b := b.drop found.extra) (escapes.tail.drop found.extra) calmLater lineLater
        dropped.symm last
      rw [List.drop_append_of_le_length inside]
      rw [place] at next
      rw [Nat.min_eq_left (by rw [List.length_append]; omega)]
      exact next

/-! ## §2. Behind the exchanged token. -/

/-- Names and strings leave the open braces as they are. -/
theorem braces_of_isNaming {braces : List OpenBrace} {previous : Option Lexeme} {rest : Text}
    {found : Found} (read : lexeme braces previous e rest = .ok found)
    (naming : found.lexeme.isNaming = true) : found.braces = braces := by
  have ofString {quote : Quote} (read : stringLiteral quote braces rest = .ok found) :
      found.braces = braces := by
    obtain ⟨body, _, same⟩ := bind_eq_ok.mp read
    cases same
    rfl
  have ofTemplate {opening : Bool} {braces' : List OpenBrace}
      (read : templatePart opening braces' rest = .ok found) : found.braces = braces := by
    obtain ⟨body, _, same⟩ := bind_eq_ok.mp read
    cases same
    cases opening <;> cases opens : body.opensSubstitution <;> rw [opens] at naming <;> cases naming
  have ofPunctuator (isFound : punctuator braces e rest = found) : found.braces = braces := by
    unfold punctuator at isFound
    simp only at isFound
    split at isFound
    · subst isFound
      cases naming
    · subst isFound
      rfl
  unfold lexeme at read
  split at read
  · exact ofString read
  split at read
  · exact ofString read
  split at read
  · exact ofTemplate read
  split at read
  · split at read <;> cases read
    rfl
  split at read
  · split at read <;> (cases read; rfl)
  split at read
  · split at read
    · cases read
      rfl
    · exact ofPunctuator (Except.ok.inj read)
  split at read
  · exact ofTemplate read
  · have isFound := Except.ok.inj read
    unfold nameOrPunctuator at isFound
    split at isFound
    · exact ofPunctuator isFound
    · subst isFound
      rfl

/-- The lexeme before matters only to a slash. -/
theorem lexeme_congr {braces : List OpenBrace} {previous previous' : Option Lexeme}
    (same : regexAllowed previous' = regexAllowed previous) (rest : Text) :
    lexeme braces previous' c rest = lexeme braces previous c rest := by
  unfold lexeme
  rw [same]

theorem tokensFrom_congr {braces : List OpenBrace} {previous previous' : Option Lexeme}
    {newline : Bool} (same : regexAllowed previous' = regexAllowed previous) (offset : Nat)
    (t : Text) :
    tokensFrom ⟨braces, previous', newline⟩ 0 offset t
      = tokensFrom ⟨braces, previous, newline⟩ 0 offset t := by
  generalize start : (⟨braces, previous, newline⟩ : Memory) = memory
  induction memory, offset, t using walk_induct generalizing newline with
  | nil memory offset =>
      subst start
      rw [tokensFrom_nil, tokensFrom_nil]
  | trivia memory offset c rest extra newline' trivial ih =>
      subst start
      rw [tokensFrom_trivia trivial, tokensFrom_trivia trivial]
      exact ih rfl
  | failure memory offset c rest failure trivial read =>
      subst start
      rw [tokensFrom_failure trivial read]
      exact tokensFrom_failure trivial ((lexeme_congr same rest).trans read)
  | lexeme memory offset c rest found trivial read _ =>
      subst start
      rw [tokensFrom_lexeme trivial read,
        tokensFrom_lexeme trivial ((lexeme_congr same rest).trans read)]

end Scan

/-- The token, moved along by a distance. -/
def Token.shift (distance : Nat) (t : Token) : Token :=
  { t with start := t.start + distance, stop := t.stop + distance }

/-- The token of a text whose part from `stop` on has been moved to `stop'`. -/
def Token.moved (stop stop' : Nat) (t : Token) : Token :=
  { t with start := t.start + stop' - stop, stop := t.stop + stop' - stop }

theorem Token.moved_shift (stop stop' : Nat) (t : Token) :
    (t.shift stop).moved stop stop' = t.shift stop' := by
  have start : t.start + stop + stop' - stop = t.start + stop' := by omega
  have stop : t.stop + stop + stop' - stop = t.stop + stop' := by omega
  unfold Token.moved Token.shift
  simp only [start, stop]

namespace Scan

/-- **Tokens move with their text.** -/
theorem tokensFrom_shift (memory : Memory) (offset distance : Nat) (t : Text) :
    tokensFrom memory 0 (offset + distance) t
      = (tokensFrom memory 0 offset t).map (List.map (Token.shift distance)) := by
  induction memory, offset, t using walk_induct with
  | nil memory offset =>
      rw [tokensFrom_nil, tokensFrom_nil]
      rfl
  | trivia memory offset c rest extra newline trivial ih =>
      rw [tokensFrom_trivia trivial, tokensFrom_trivia trivial, ← ih]
      congr 1
      omega
  | failure memory offset c rest failure trivial read =>
      rw [tokensFrom_failure trivial read, tokensFrom_failure trivial read]
      rfl
  | lexeme memory offset c rest found trivial read ih =>
      have place : offset + distance + 1 + min found.extra rest.length
          = offset + 1 + min found.extra rest.length + distance := by omega
      have stop : offset + distance + found.extra + 1 = offset + found.extra + 1 + distance := by
        omega
      rw [tokensFrom_lexeme trivial read, tokensFrom_lexeme trivial read, place, ih, stop]
      cases tokensFrom found.memory 0 (offset + 1 + min found.extra rest.length)
        (rest.drop found.extra) <;> rfl

theorem tokensFrom_moved {memory : Memory} {stop : Nat} (stop' : Nat)
    (run : tokensFrom memory 0 stop t = .ok tokens) :
    tokensFrom memory 0 stop' t = .ok (tokens.map (Token.moved stop stop')) := by
  have fromZero (place : Nat) := tokensFrom_shift memory 0 place t
  simp only [Nat.zero_add] at fromZero
  rw [fromZero] at run ⊢
  cases base : tokensFrom memory 0 0 t with
  | error failure =>
      rw [base] at run
      cases run
  | ok others =>
      rw [base] at run
      cases run
      show Except.ok _ = Except.ok _
      rw [List.map_map]
      congr 2
      exact funext fun t => (Token.moved_shift stop stop' t).symm

/-! ## §3. The line that names an interpreter. -/

/-- It ends in front of the seam, or there is none. -/
theorem hashbangWidth_local (seam : Joint c x d y)
    (inside : hashbangWidth (b ++ c :: x) ≤ b.length)
    (line : c = .scalar '\n' → hashbangWidth (b ++ c :: x) < b.length) :
    hashbangWidth (b ++ d :: y) = hashbangWidth (b ++ c :: x) := by
  have notHash : d ≠ .scalar '#' := seam.ne_of_mem (by decide)
  have notBang : d ≠ .scalar '!' := seam.ne_of_mem (by decide)
  cases b with
  | nil =>
      have none : hashbangWidth (c :: x) = 0 := Nat.le_zero.mp inside
      have none' : hashbangWidth (d :: y) = 0 := by
        cases y with
        | nil => rfl
        | cons f y => simp only [hashbangWidth, notHash, false_and, if_false]
      rw [List.nil_append, List.nil_append, none, none']
  | cons e b =>
      cases b with
      | nil =>
          simp only [List.cons_append, List.nil_append, hashbangWidth, notBang, and_false,
            if_false, List.length_singleton] at inside ⊢
          split at inside
          · omega
          · next noLine => rw [if_neg noLine]
      | cons f b =>
          simp only [List.cons_append, hashbangWidth, List.length_cons] at inside line ⊢
          split at inside
          · next isLine =>
              rw [if_pos isLine] at line
              rw [if_pos isLine, if_pos isLine, lineLength_local (c := c) (x := x) (by omega)]
              intro atNewline
              have inside := line atNewline
              omega
          · next noLine => rw [if_neg noLine, if_neg noLine]

end Scan

/-! ## §4. Texts. -/

namespace Scan

/-- **How the main loop comes to a token of a text:** with this memory to the
character `e`, where it finds the lexeme of the token. -/
structure Way (text : Text) (before : List Token) (t : Token) (after : List Token)
    (memory : Memory) (b : Text) (e : CodePoint) (rest : Text) (found : Found) : Prop where
  whole : text.drop (hashbangWidth text) = b ++ e :: rest
  front : text.take t.start = text.take (hashbangWidth text) ++ b
  left : text.drop t.start = e :: rest
  comes : Comes .start (hashbangWidth text) (b ++ e :: rest) before memory t.start (e :: rest)
  notTrivial : trivia? e rest = none
  read : Scan.lexeme memory.braces memory.previous e rest = .ok found
  lexeme : t.lexeme = found.lexeme
  newline : t.newlineBefore = memory.newline
  stop : t.stop = t.start + 1 + found.extra
  behind : text.drop t.stop = rest.drop found.extra
  later : tokensFrom found.memory 0 t.stop (text.drop t.stop) = .ok after

/-- **There is a way to every token** but the end of the text. -/
theorem exists_way {text : Text} {before after : List Token} {t : Token}
    (run : tokenize text = .ok (before ++ t :: after)) (notEnd : t.lexeme ≠ .endOfText) :
    ∃ memory b e rest found, Way text before t after memory b e rest found := by
  have width : hashbangWidth text ≤ text.length := hashbangWidth_le text
  unfold tokenize at run
  rw [tokensFrom_skip, Nat.min_eq_left width, Nat.zero_add] at run
  obtain ⟨memory, e, rest, found, comes, notTrivial, read, isToken, later⟩ :=
    exists_comes run notEnd
  obtain ⟨b, whole, place⟩ := comes.exists_append
  have length : (text.take (hashbangWidth text) ++ b).length = t.start := by
    rw [List.length_append, List.length_take, Nat.min_eq_left width, place]
  have split := List.take_append_drop (hashbangWidth text) text
  rw [whole, ← List.append_assoc] at split
  have front := congrArg (List.take t.start) split
  have left := congrArg (List.drop t.start) split
  rw [List.take_left' length] at front
  rw [List.drop_left' length] at left
  have fits := lexeme_fits read
  have stop : t.stop = t.start + 1 + found.extra := by
    rw [isToken]
    simp only
    omega
  have behind : text.drop t.stop = rest.drop found.extra := by
    rw [stop, Nat.add_assoc, ← List.drop_drop, ← left, Nat.add_comm 1, List.drop_succ_cons]
  rw [Nat.min_eq_left fits.extra_le, ← stop, ← behind] at later
  rw [whole] at comes
  exact ⟨memory, b, e, rest, found,
    ⟨whole, front.symm, left.symm, comes, notTrivial, read, by rw [isToken], by rw [isToken], stop,
      behind, later⟩⟩

end Scan

/-- The scanner comes to every token of a layout. -/
theorem Layout.exists_way (L : Layout) {i : Nat} (inside : i < L.size) :
    ∃ memory b e rest found, Scan.Way L.text (L.tokens.take i) (L.token i)
      (L.tokens.drop (i + 1) ++ [L.final]) memory b e rest found :=
  Scan.exists_way (L.scanned_split inside) (L.token_spec inside).1

namespace Scan

/-! ## §5. Places. -/

/-- **How the main loop comes to a place of a text:** with this memory, between these
tokens; `b` is the text in front of the place, the line that names an interpreter apart. -/
structure Arrival (text : Text) (before after : List Token) (memory : Memory) (b : Text)
    (place : Nat) : Prop where
  front : text.take place = text.take (hashbangWidth text) ++ b
  comes : Comes .start (hashbangWidth text) (b ++ text.drop place) before memory place
    (text.drop place)
  later : tokensFrom memory 0 place (text.drop place) = .ok after

/-- One way after the other. -/
theorem Comes.trans {memory'' : Memory} {offset'' : Nat} {t'' : Text} {tokens' : List Token}
    (comes : Comes memory offset t tokens memory' offset' t')
    (comes' : Comes memory' offset' t' tokens' memory'' offset'' t'') :
    Comes memory offset t (tokens ++ tokens') memory'' offset'' t'' := by
  induction comes with
  | here => exact comes'
  | trivia skipped _ ih => exact .trivia skipped (ih comes')
  | lexeme notTrivial read _ ih => exact .lexeme notTrivial read (ih comes')

namespace Way

variable {text : Text} {before after : List Token} {token : Token} {rest : Text} {found : Found}

theorem isToken (way : Way text before token after memory b e rest found) :
    token = ⟨found.lexeme, token.start, token.start + found.extra + 1, memory.newline⟩ := by
  obtain ⟨lexeme, start, stop, newline⟩ := token
  have isStop := way.stop
  simp only at isStop
  rw [← way.lexeme, ← way.newline, isStop, Nat.add_right_comm]

/-- The place in front of a token. -/
theorem arrival (way : Way text before token after memory b e rest found) :
    Arrival text before (token :: after) memory b token.start := by
  have fits := (lexeme_fits way.read).extra_le
  refine ⟨way.front, way.left ▸ way.comes, ?_⟩
  rw [way.left, tokensFrom_lexeme way.notTrivial way.read, Nat.min_eq_left fits, ← way.behind,
    ← way.stop, way.later, way.isToken]
  rfl

/-- The place behind a token. -/
theorem arrival_behind (way : Way text before token after memory b e rest found) :
    Arrival text (before ++ [token]) after found.memory (b ++ e :: rest.take found.extra)
      token.stop := by
  have fits := (lexeme_fits way.read).extra_le
  have split := List.take_append_drop found.extra rest
  have taken : text.take token.stop = text.take token.start ++ e :: rest.take found.extra := by
    rw [way.stop, Nat.add_assoc, List.take_add, way.left, Nat.add_comm 1, List.take_succ_cons]
  refine ⟨?_, ?_, way.later⟩
  · rw [taken, way.front, List.append_assoc]
  · rw [way.behind, List.append_assoc, List.cons_append, split]
    refine way.comes.trans ?_
    have step : Comes memory token.start (e :: rest) [_] found.memory
        (token.start + 1 + min found.extra rest.length) (rest.drop found.extra) :=
      .lexeme way.notTrivial way.read .here
    rw [Nat.min_eq_left fits, ← way.stop, ← way.isToken] at step
    exact step

end Way

/-- **The tokens in front of a place stay** when what follows it is exchanged.  In front of a
newline they have to be closed. -/
theorem Arrival.exchange {text : Text} {before after : List Token} {place : Nat}
    (arrival : Arrival text before after memory b place) (left : text.drop place = c :: x)
    (joint : Joint c x d y) (escapes : EscapesStay b c x d y) (stays : StaysOpen b c x d y)
    (line : c = .scalar '\n' → b ≠ [] ∧ EndsClosed text before place) :
    tokenize (text.take place ++ d :: y)
      = (tokensFrom memory 0 place (d :: y)).map (before ++ ·) := by
  have width : hashbangWidth text ≤ text.length := hashbangWidth_le text
  have taken : (text.take (hashbangWidth text)).length = hashbangWidth text := by
    rw [List.length_take, Nat.min_eq_left width]
  have same := List.take_append_drop place text
  rw [left] at same
  have length : (text.take place).length = hashbangWidth text + b.length := by
    rw [arrival.front, List.length_append, taken]
  have hashbang : hashbangWidth (text.take place ++ d :: y) = hashbangWidth text := by
    rw [hashbangWidth_local joint (by rw [same]; omega), same]
    intro atNewline
    have nonempty := List.length_pos_iff.mpr (line atNewline).1
    rw [same]
    omega
  have start : (text.take place ++ d :: y).drop (hashbangWidth text) = b ++ d :: y := by
    rw [arrival.front, List.append_assoc, List.drop_left' taken]
  have start' : text.drop (hashbangWidth text) = b ++ c :: x := by
    rw [arrival.front, List.append_assoc] at same
    have whole : (text.take (hashbangWidth text) ++ (b ++ c :: x)).drop (hashbangWidth text)
        = b ++ c :: x := List.drop_left' taken
    rw [same] at whole
    exact whole
  have inside : hashbangWidth text ≤ (text.take place ++ d :: y).length := by
    rw [← hashbang]
    exact hashbangWidth_le _
  have comes := arrival.comes
  rw [left] at comes
  unfold tokenize
  rw [hashbang, tokensFrom_skip, start, Nat.zero_add, Nat.min_eq_left inside]
  exact (comes.exchange text joint escapes (.inr stays) fun atNewline =>
    .inr ⟨start', (line atNewline).2⟩).tokensFrom_eq

/-- The tokens in front of a seam stay. -/
theorem Way.exchange {text : Text} {before after : List Token} {t : Token} {memory : Memory}
    {found : Found} (way : Way text before t after memory b c x found) (seam : Seam c x d y) :
    tokenize (text.take t.start ++ d :: y)
      = (tokensFrom memory 0 t.start (d :: y)).map (before ++ ·) :=
  way.arrival.exchange way.left seam.toJoint (fun _ => seam.brace) (seam.staysOpen b)
    fun atNewline => absurd atNewline seam.notNewline

end Scan

/-! ## §6. Exchanged tokens. -/

open Scan in
/-- **Exchanging a name or a string.**  The token `t` is replaced by a text that
is read as one token wherever it stands; the tokens in front of it stay, and those
behind it move. -/
theorem tokenize_exchange {text : Text} {before after : List Token} {t : Token}
    {lexeme' : Lexeme} {c d : CodePoint} {x y : Text}
    (run : tokenize text = .ok (before ++ t :: after)) (naming : t.lexeme.isNaming = true)
    (left : text.drop t.start = c :: x) (seam : Seam c x d (y ++ text.drop t.stop))
    (notTrivial : trivia? d (y ++ text.drop t.stop) = none)
    (read : ∀ braces previous,
      Scan.lexeme braces previous d (y ++ text.drop t.stop) = .ok ⟨lexeme', y.length, braces⟩)
    (same : regexAllowed (some lexeme') = regexAllowed (some t.lexeme)) :
    tokenize (text.take t.start ++ d :: y ++ text.drop t.stop)
      = .ok (before ++ ⟨lexeme', t.start, t.start + y.length + 1, t.newlineBefore⟩
          :: after.map (Token.moved t.stop (t.start + 1 + y.length))) := by
  have notEnd : t.lexeme ≠ .endOfText := by
    intro isEnd
    rw [isEnd] at naming
    cases naming
  obtain ⟨memory, b, e, rest, found, way⟩ := exists_way run notEnd
  have first := way.left
  rw [left, List.cons.injEq] at first
  obtain ⟨rfl, rfl⟩ := first
  -- Behind the token the loop remembers the same braces, and a lexeme that says the same of slashes.
  have memory_eq : found.memory = ⟨memory.braces, some t.lexeme, false⟩ := by
    unfold Found.memory
    rw [braces_of_isNaming way.read (way.lexeme ▸ naming), way.lexeme]
  have later := way.later
  rw [memory_eq] at later
  have goesOn := tokensFrom_moved (t.start + 1 + y.length) later
  rw [← tokensFrom_congr same] at goesOn
  have length : min y.length (y ++ text.drop t.stop).length = y.length := by
    rw [List.length_append]
    omega
  rw [List.append_assoc, List.cons_append, way.exchange seam,
    tokensFrom_lexeme notTrivial (read _ _)]
  show Except.map _ (Except.map _ (tokensFrom ⟨memory.braces, some lexeme', false⟩ 0
    (t.start + 1 + min y.length (y ++ text.drop t.stop).length)
    ((y ++ text.drop t.stop).drop y.length))) = _
  rw [length, List.drop_left, goesOn, way.newline]
  rfl

end StackLint
