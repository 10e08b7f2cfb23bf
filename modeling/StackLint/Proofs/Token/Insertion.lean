/-
  StackLint.Proofs.Token.Insertion
  ────────────────────────────────
  **INSERTING CODE.**

  Code that closes what it opens is read as the same tokens wherever it stands.  Where
  it is inserted in front of a closing bracket, the tokens in front of it stay and those
  behind it move: of what the scanner remembers only the open braces matter to a bracket.
-/
import StackLint.Proofs.Token.Ending
import StackLint.Proofs.Token.Seam
import StackLint.Proofs.Token.Written

namespace StackLint

/-- What a token says and where it stands. -/
def Token.placed (t : Token) : Lexeme × Nat × Nat :=
  (t.lexeme, t.start, t.stop)

/-- These are the tokens, moved along by a distance.  Whether a newline stands in front of
them is left open. -/
def Token.MovedBy (distance : Nat) (tokens tokens' : List Token) : Prop :=
  tokens'.map Token.placed = tokens.map fun t => (t.shift distance).placed

namespace Token.MovedBy

variable {tokens tokens' others others' : List Token} {distance distance' : Nat}

theorem append (h : MovedBy distance tokens tokens') (h' : MovedBy distance others others') :
    MovedBy distance (tokens ++ others) (tokens' ++ others') := by
  unfold MovedBy
  rw [List.map_append, List.map_append, h, h']

/-- One token. -/
theorem singleton (l : Lexeme) {start stop start' stop' : Nat} (newline newline' : Bool)
    (starts : start' = start + distance) (stops : stop' = stop + distance) :
    MovedBy distance [⟨l, start, stop, newline⟩] [⟨l, start', stop', newline'⟩] := by
  rw [starts, stops]
  rfl

/-- Tokens that were moved already. -/
theorem of_shift (h : MovedBy (distance + distance') tokens tokens') :
    MovedBy distance (tokens.map (Token.shift distance')) tokens' := by
  unfold MovedBy at h ⊢
  rw [h, List.map_map]
  refine List.map_congr_left fun t _ => ?_
  unfold Token.placed Token.shift
  simp only [Function.comp_apply, Nat.add_assoc, Nat.add_comm distance]

theorem map_lexeme (h : MovedBy distance tokens tokens') :
    tokens'.map Token.lexeme = tokens.map Token.lexeme := by
  have same := congrArg (List.map Prod.fst) h
  rw [List.map_map, List.map_map] at same
  exact same

/-- Every moved token stands for one of the tokens. -/
theorem exists_mem (h : MovedBy distance tokens tokens') {t : Token} (inside : t ∈ tokens') :
    ∃ u ∈ tokens, t.placed = (u.shift distance).placed := by
  have listed := List.mem_map_of_mem (f := Token.placed) inside
  rw [h] at listed
  obtain ⟨u, isToken, same⟩ := List.mem_map.mp listed
  exact ⟨u, isToken, same.symm⟩

end Token.MovedBy

namespace Scan

variable {w w' : Text} {code code' : List Token} {c d : CodePoint} {t x y z : Text}

/-! ## §1. Code that is read anywhere. -/

/-- **Wherever the text stands, it is read as these tokens;** where it may end with a name,
no name goes on behind it.  It leaves the open braces as they are. -/
def Scans (names : Bool) (w : Text) (code : List Token) : Prop :=
  ∀ (memory : Memory) (offset : Nat) (z : Text),
    (names = true → ∀ e ∈ z.head?, isFlag e = false) →
    ∃ memory' tokens, Comes memory offset (w ++ z) tokens memory' (offset + w.length) z
      ∧ memory'.braces = memory.braces ∧ Token.MovedBy offset code tokens

/-- A lexeme as a step of the way. -/
theorem comes_lexeme {l : Lexeme} {memory : Memory} {braces : List OpenBrace} (offset : Nat)
    (notTrivial : trivia? c (t ++ z) = none)
    (read : lexeme memory.braces memory.previous c (t ++ z) = .ok ⟨l, t.length, braces⟩) :
    Comes memory offset (c :: t ++ z) [⟨l, offset, offset + t.length + 1, memory.newline⟩]
      ⟨braces, some l, false⟩ (offset + (c :: t).length) z := by
  have inside : min t.length (t ++ z).length = t.length := by
    rw [List.length_append]
    omega
  have step : Comes memory offset (c :: (t ++ z)) [_] ⟨braces, some l, false⟩
      (offset + 1 + min t.length (t ++ z).length) ((t ++ z).drop t.length) :=
    .lexeme notTrivial read .here
  rw [List.drop_left, inside, Nat.add_right_comm offset 1] at step
  exact step

variable {names names' : Bool}

/-- One lexeme, whatever was read before. -/
theorem scans_lexeme {l : Lexeme} (notTrivial : ∀ rest, trivia? c rest = none)
    (read : ∀ braces previous z, (names = true → ∀ e ∈ z.head?, isFlag e = false) →
      lexeme braces previous c (t ++ z) = .ok ⟨l, t.length, braces⟩) :
    Scans names (c :: t) [⟨l, 0, t.length + 1, false⟩] := by
  intro memory offset z ends
  exact ⟨_, _, comes_lexeme offset (notTrivial _) (read _ _ z ends), rfl,
    .singleton _ _ _ (by omega) (by omega)⟩

theorem scans_name (notTrivial : ∀ rest, trivia? c rest = none)
    (start : c = .scalar '$' ∨ (c.isWordCharacter = true ∧ c.isDigit = false))
    (goesOn : t.all isFlag = true) :
    Scans true (c :: t) [⟨.word (c :: t), 0, t.length + 1, false⟩] :=
  scans_lexeme notTrivial fun _ _ _ ends => lexeme_name ⟨start, goesOn, ends rfl⟩

theorem scans_string {quote : Quote} {value : Text} (plain : Plain quote value) :
    Scans false (quote.surround value) [⟨.string quote value, 0, value.length + 2, false⟩] := by
  have length : (value ++ [CodePoint.scalar quote.mark]).length = value.length + 1 := by
    rw [List.length_append, List.length_singleton]
  have scans : Scans false (.scalar quote.mark :: (value ++ [.scalar quote.mark]))
      [⟨.string quote value, 0, (value ++ [CodePoint.scalar quote.mark]).length + 1, false⟩] := by
    refine scans_lexeme (fun rest => by cases quote <;> rfl) fun braces previous z _ => ?_
    rw [List.append_assoc, length]
    exact lexeme_quoted plain
  rw [length] at scans
  exact scans

theorem scans_nil : Scans false [] [] :=
  fun memory _ _ _ => ⟨memory, [], .here, rfl, rfl⟩

/-- Blanks with which a line is indented, or that keep apart, and newlines. -/
def IsBlank (w : Text) : Prop :=
  ∀ c ∈ w, c = .scalar '\n' ∨ isBlank c = true

instance : DecidablePred IsBlank := fun w =>
  inferInstanceAs (Decidable (∀ c ∈ w, c = .scalar '\n' ∨ isBlank c = true))

theorem IsBlank.append {w w' : Text} (blank : IsBlank w) (blank' : IsBlank w') : IsBlank (w ++ w') :=
  List.forall_mem_append.mpr ⟨blank, blank'⟩

theorem IsBlank.plain {w : Text} (blank : IsBlank w) : ∀ e ∈ w, e ∉ ("/[]\\" : Text) := by
  intro e inside
  have blank := blank e inside
  unfold isBlank at blank
  simp only [Bool.or_eq_true, beq_iff_eq] at blank
  rcases blank with rfl | (((((rfl | rfl) | rfl) | rfl) | rfl) | rfl) | rfl <;> decide

/-- Blanks have no tokens. -/
theorem scans_blank {w : Text} (blank : IsBlank w) : Scans false w [] := by
  induction w with
  | nil => exact scans_nil
  | cons c w ih =>
      intro memory offset z ends
      obtain ⟨memory', tokens, comes, braces, moved⟩ :=
        ih (fun e inside => blank e (List.mem_cons_of_mem c inside))
          { memory with newline := memory.newline || (c == .scalar '\n') } (offset + 1) z ends
      refine ⟨memory', tokens, ?_, braces, moved⟩
      refine .trivia (trivia?_blank (blank c List.mem_cons_self) _) ?_
      rw [List.drop_zero, Nat.zero_min, List.length_cons, Nat.add_comm w.length, ← Nat.add_assoc]
      exact comes

/-- **One piece of code behind another.** -/
theorem Scans.append (scans : Scans names w code) (scans' : Scans names' w' code')
    (apart : names = true → ∃ e ∈ w'.head?, isFlag e = false) :
    Scans names' (w ++ w') (code ++ code'.map (Token.shift w.length)) := by
  intro memory offset z ends
  have between (goesOn : names = true) : ∀ e ∈ (w' ++ z).head?, isFlag e = false := by
    obtain ⟨e, isHead, ends⟩ := apart goesOn
    rw [List.head?_append, Option.mem_def.mp isHead]
    rintro _ ⟨⟩
    exact ends
  obtain ⟨memory₁, tokens, comes, braces, moved⟩ := scans memory offset (w' ++ z) between
  obtain ⟨memory₂, tokens', comes', braces', moved'⟩ := scans' memory₁ (offset + w.length) z ends
  refine ⟨memory₂, tokens ++ tokens', ?_, braces'.trans braces, moved.append moved'.of_shift⟩
  rw [List.append_assoc, List.length_append, ← Nat.add_assoc]
  exact comes.trans comes'

/-! ## §2. Punctuators. -/

/-- A punctuator that leaves the open braces as they are. -/
theorem scans_mark {mark : CodePoint} {p : Punct} (notTrivial : ∀ rest, trivia? mark rest = none)
    (other : mark ∉ ("\"'\x60#/\x7d" : Text)) (noName : isFlag mark = false)
    (noNumber : ∀ rest, startsNumber mark rest = false)
    (single : ∀ braces rest, punctuator braces mark rest = ⟨.punct p, 0, braces⟩) :
    Scans false [mark] [⟨.punct p, 0, 1, false⟩] :=
  scans_lexeme notTrivial fun braces previous z _ => by
    rw [List.nil_append, lexeme_mark other noName (noNumber z), single]
    rfl

theorem scans_comma : Scans false ("," : Text) [⟨.punct .comma, 0, 1, false⟩] :=
  scans_mark (fun _ => rfl) (by decide) (by decide) (fun _ => rfl) fun _ _ => rfl

/-- A point and the name of a member. -/
theorem Scans.member (scans : Scans true (c :: t) code) (noDigit : c.isDigit = false)
    (single : ∀ braces rest, punctuator braces (.scalar '.') (c :: rest)
      = ⟨.punct .dot, 0, braces⟩) :
    Scans true (.scalar '.' :: c :: t) (⟨.punct .dot, 0, 1, false⟩ :: code.map (Token.shift 1)) := by
  intro memory offset z ends
  obtain ⟨memory', tokens, comes, braces, moved⟩ :=
    scans ⟨memory.braces, some (.punct .dot), false⟩ (offset + 1) z ends
  have noNumber : startsNumber (.scalar '.') (c :: t ++ z) = false := by
    rw [List.cons_append]
    show (_ || (_ && c.isDigit)) = false
    rw [noDigit, Bool.and_false]
    rfl
  have point : Comes memory offset (.scalar '.' :: (c :: t ++ z)) _ _ (offset + 1) (c :: t ++ z) :=
    comes_lexeme (t := []) offset rfl
      ((lexeme_mark (by decide) (by decide) noNumber memory.braces memory.previous).trans
        (congrArg Except.ok (single memory.braces (t ++ z))))
  have whole := point.trans comes
  rw [Nat.add_right_comm offset 1] at whole
  exact ⟨_, _, whole, braces,
    (Token.MovedBy.singleton _ false _ (Nat.zero_add _).symm (Nat.add_comm _ _)).append
      moved.of_shift⟩

/-- The brace that closes a plain one. -/
theorem lexeme_closeBrace (braces : List OpenBrace) (previous : Option Lexeme) (rest : Text) :
    lexeme (.plain :: braces) previous (.scalar '}') rest
      = .ok ⟨.punct .closeBrace, 0, braces⟩ := by
  have noWidth : nameWidth (.scalar '}' :: rest) = 0 := by
    rw [nameWidth, if_neg]
    decide
  have brace : punctuator (.plain :: braces) (.scalar '}') rest
      = ⟨.punct .closeBrace, 0, braces⟩ := rfl
  unfold lexeme nameOrPunctuator
  rw [noWidth, brace]
  rfl

/-- **Code between braces.** -/
theorem Scans.inBraces (scans : Scans names w code) :
    Scans false (.scalar '{' :: (w ++ [.scalar '}']))
      (⟨.punct .openBrace, 0, 1, false⟩ :: (code.map (Token.shift 1)
        ++ [⟨.punct .closeBrace, w.length + 1, w.length + 2, false⟩])) := by
  intro memory offset z _
  obtain ⟨memory', tokens, comes, braces, moved⟩ := scans
    ⟨.plain :: memory.braces, some (.punct .openBrace), false⟩ (offset + 1) (.scalar '}' :: z)
    fun _ e isHead => by
      cases isHead
      rfl
  have opens : Comes memory offset (.scalar '{' :: (w ++ .scalar '}' :: z)) _ _ (offset + 1)
      (w ++ .scalar '}' :: z) :=
    comes_lexeme (t := []) offset rfl
      ((lexeme_mark (by decide) (by decide) rfl memory.braces memory.previous).trans rfl)
  have closes : Comes memory' (offset + 1 + w.length) (.scalar '}' :: z) _ _
      (offset + 1 + w.length + 1) z :=
    comes_lexeme (t := []) _ rfl
      (by rw [braces]; exact lexeme_closeBrace memory.braces memory'.previous z)
  have whole := opens.trans (comes.trans closes)
  have opener : Token.MovedBy offset [_] [_] := .singleton (.punct .openBrace) false memory.newline
    (show offset = 0 + offset by omega) (show offset + 0 + 1 = 1 + offset by omega)
  have closer : Token.MovedBy offset [_] [_] := .singleton (.punct .closeBrace) false memory'.newline
    (show offset + 1 + w.length = w.length + 1 + offset by omega)
    (show offset + 1 + w.length + 0 + 1 = w.length + 2 + offset by omega)
  have place : offset + 1 + w.length + 1 = offset + (w.length + 1 + 1) := by omega
  rw [place] at whole
  rw [List.cons_append, List.append_assoc, List.length_cons, List.length_append,
    List.length_singleton]
  exact ⟨_, _, whole, rfl, opener.append (moved.of_shift.append closer)⟩

/-- Behind what is no name a name may not go on either. -/
theorem Scans.weaken (scans : Scans names w code) : Scans true w code :=
  fun memory offset z ends => scans memory offset z fun _ => ends rfl

/-! ## §3. In front of a closing bracket. -/

/-- The lexeme before matters only to a slash. -/
theorem lexeme_previous (notSlash : c ≠ .scalar '/') (braces : List OpenBrace)
    (previous previous' : Option Lexeme) (rest : Text) :
    lexeme braces previous' c rest = lexeme braces previous c rest := by
  unfold lexeme
  simp only [notSlash, false_and, if_false]

/-- **What is read from a closing bracket on depends only on the open braces.** -/
theorem tokensFrom_forgets {memory memory' : Memory} {offset : Nat} {after : List Token}
    (notTrivial : trivia? c x = none) (notSlash : c ≠ .scalar '/')
    (same : memory'.braces = memory.braces) (distance : Nat)
    (run : tokensFrom memory 0 offset (c :: x) = .ok after) :
    ∃ after', tokensFrom memory' 0 (offset + distance) (c :: x) = .ok after'
      ∧ Token.MovedBy distance after after' := by
  rw [tokensFrom_shift]
  cases read : lexeme memory.braces memory.previous c x with
  | error failure =>
      rw [tokensFrom_failure notTrivial read] at run
      cases run
  | ok found =>
      have read' : lexeme memory'.braces memory'.previous c x = .ok found := by
        rw [same, ← read]
        exact lexeme_previous notSlash memory.braces memory.previous memory'.previous x
      rw [tokensFrom_lexeme notTrivial read] at run
      rw [tokensFrom_lexeme notTrivial read']
      cases later : tokensFrom found.memory 0 (offset + 1 + min found.extra x.length)
          (x.drop found.extra) with
      | error failure =>
          rw [later] at run
          cases run
      | ok others =>
          rw [later] at run
          cases run
          refine ⟨_, rfl, ?_⟩
          unfold Token.MovedBy Token.placed Token.shift
          simp only [List.map_cons, List.map_map]
          rfl

/-- In front of it there may be blanks and comments. -/
theorem tokensFrom_gap_forgets {gap : Text} {memory memory' : Memory} {offset : Nat}
    {after : List Token} (isGap : Gap false gap) (notTrivial : trivia? c x = none)
    (notSlash : c ≠ .scalar '/') (same : memory'.braces = memory.braces) (distance : Nat)
    (run : tokensFrom memory 0 offset (gap ++ c :: x) = .ok after) :
    ∃ after', tokensFrom memory' 0 (offset + distance) (gap ++ c :: x) = .ok after'
      ∧ Token.MovedBy distance after after' := by
  rw [passesOver_gap isGap] at run ⊢
  rw [Nat.add_right_comm]
  have behind : (memory'.behind gap).braces = (memory.behind gap).braces := same
  exact tokensFrom_forgets notTrivial notSlash behind distance run

/-- **Code that can be inserted.**  It is read anywhere, begins with nothing that a token in
front of it could go on with, and has nothing that a regular expression could end with. -/
structure Insertable (w : Text) (code : List Token) : Prop where
  scans : Scans true w code
  begins : ∃ d ∈ w.head?, d ∈ (" \n,\x7b" : Text)
  plain : ∀ e ∈ w, e ∉ ("/[]\\" : Text)

/-- **Read by itself,** the code has the same tokens. -/
theorem Insertable.tokenize_eq (insertable : Insertable w code) :
    ∃ code' final, tokenize w = .ok (code' ++ [final]) ∧ final.lexeme = .endOfText
      ∧ Token.MovedBy 0 code code' := by
  obtain ⟨memory, tokens, comes, _, moved⟩ :=
    insertable.scans .start 0 [] fun _ e never => nomatch never
  have noHashbang : hashbangWidth w = 0 := by
    obtain ⟨d, isHead, begins⟩ := insertable.begins
    have notHash : ∀ e ∈ (" \n,\x7b" : Text), e ≠ .scalar '#' := by decide
    unfold hashbangWidth
    split
    · cases isHead
      rw [if_neg fun h => notHash d begins h.1]
    · rfl
  have run := comes.tokensFrom_eq
  rw [List.append_nil, tokensFrom_nil] at run
  have whole : tokenize w
      = .ok (tokens ++ [⟨.endOfText, 0 + w.length, 0 + w.length, memory.newline⟩]) := by
    unfold tokenize
    rw [noHashbang, run]
    rfl
  exact ⟨tokens, _, whole, rfl, moved⟩

/-- What closes no regular expression keeps none from going on. -/
theorem regexWidth?_plain (plain : ∀ e ∈ w, e ∉ ("/[]\\" : Text)) {inClass : Bool}
    (goesOn : regexWidth? inClass z = none) : regexWidth? inClass (w ++ z) = none := by
  induction w with
  | nil => exact goesOn
  | cons e w ih =>
      have ne {f : CodePoint} (listed : f ∈ ("/[]\\" : Text)) : e ≠ f := by
        rintro rfl
        exact plain e List.mem_cons_self listed
      have later := ih fun f inside => plain f (List.mem_cons_of_mem e inside)
      rw [List.cons_append, regexWidth?.eq_def]
      simp only
      rw [if_neg (ne (by decide))]
      by_cases atNewline : e = .scalar '\n'
      · rw [if_pos atNewline]
      · rw [if_neg atNewline, if_neg (ne (by decide)), if_neg (ne (by decide)),
          if_neg fun h => ne (by decide) h.1, later]
        rfl

/-- Characters with which blanks, comments and closing brackets begin. -/
def borders : Text :=
  "\n \t\r\x0c\x0b\ufeff\u00a0/)\x7d"

/-- What begins with a gap and a closing bracket. -/
theorem mem_borders {gap rest : Text} {bracket : CodePoint} (isGap : Gap false gap)
    (listed : bracket ∈ borders) (whole : gap ++ bracket :: rest = c :: x) : c ∈ borders := by
  have wider : ∀ g ∈ gapMarks, g ∈ borders := by decide
  cases gap with
  | nil =>
      cases whole
      exact listed
  | cons g gap =>
      cases whole
      exact wider c (isGap.mem_marks c rfl)

/-- No bracket of an expression ends a regular expression or escapes what follows. -/
theorem Insertable.staysOpen (insertable : Insertable (d :: y) code) {b : Text}
    (apart : b.EndsPlainly ∨ c ∉ ("/[]\\" : Text)) :
    StaysOpen b c x d (y ++ c :: x) := by
  refine ⟨fun inClass goesOn => regexWidth?_plain insertable.plain goesOn, fun last inClass goesOn => ?_⟩
  have others : ∀ e ∈ y, e ∉ ("/[]\\" : Text) :=
    fun e inside => insertable.plain e (List.mem_cons_of_mem d inside)
  refine regexWidth?_plain others (regexWidth?_plain (w := [c]) ?_ goesOn)
  intro e isMark
  rw [List.mem_singleton.mp isMark]
  exact apart.resolve_left fun plain => plain last

/-- **Code may follow that begins with a blank, a comma or a brace.** -/
theorem joint_of_begins (begins : d ∈ (" \n,\x7b\x7d" : Text)) : Joint c x d y := by
  have facts : ∀ e ∈ (" \n,\x7b\x7d" : Text),
      e.isDigit = false ∧ e ∉ continuers ∧ isFlag e = false ∧ e.hexValue = none := by decide
  obtain ⟨notDigit', plain, noFlag, noHex⟩ := facts d begins
  exact {
    digit := fun _ => noFlag
    notDigit', plain
    flag := fun isFlag => by rw [noFlag] at isFlag; cases isFlag
    hex := fun isHex => by rw [noHex] at isHex; cases isHex }

theorem Insertable.joint (insertable : Insertable (d :: y) code) : Joint c x d (y ++ c :: x) := by
  obtain ⟨_, isHead, begins⟩ := insertable.begins
  cases isHead
  have wider : ∀ e ∈ (" \n,\x7b" : Text), e ∈ (" \n,\x7b\x7d" : Text) := by decide
  exact joint_of_begins (wider d begins)

/-- **Inserting code in front of a closing bracket.**  The tokens in front of the place stay,
those of the code come between, and those behind it move. -/
theorem Arrival.insert {text b gap rest : Text} {before after : List Token} {memory : Memory}
    {place : Nat} {bracket : CodePoint} (arrival : Arrival text before after memory b place)
    (left : text.drop place = gap ++ bracket :: rest) (isGap : Gap false gap)
    (listed : bracket ∈ (")\x7d" : Text)) (brace : CodePoint.scalar '}' ∈ text.drop place)
    (apart : b.EndsPlainly ∨ gap = [])
    (line : gap ≠ [] → b ≠ [] ∧ EndsClosed text before place) (insertable : Insertable w code) :
    ∃ code' after', tokenize (text.take place ++ w ++ text.drop place)
        = .ok (before ++ code' ++ after')
      ∧ Token.MovedBy place code code' ∧ Token.MovedBy w.length after after' := by
  have facts : ∀ e ∈ (")\x7d" : Text), e ∈ borders
      ∧ e ≠ .scalar '/' ∧ e ≠ .scalar '\n' ∧ e ∉ ("/[]\\" : Text) := by decide
  obtain ⟨isBorder, notSlash, notNewline, plain⟩ := facts bracket listed
  have notTrivial : trivia? bracket rest = none := by
    rcases List.mem_cons.mp listed with rfl | listed
    · rfl
    · rw [List.mem_singleton.mp listed]
      rfl
  obtain ⟨d, isHead, _⟩ := insertable.begins
  obtain ⟨y, rfl⟩ : ∃ y, w = d :: y := by
    cases w with
    | nil => cases isHead
    | cons e y => cases isHead; exact ⟨y, rfl⟩
  obtain ⟨c, x, whole⟩ : ∃ c x, gap ++ bracket :: rest = c :: x := by
    cases gap with
    | nil => exact ⟨_, _, rfl⟩
    | cons e gap => exact ⟨_, _, rfl⟩
  have isFirst : gap = [] → c = bracket := by
    rintro rfl
    cases whole
    rfl
  rw [whole] at left
  -- The code is read behind the tokens that stay, and what was there is read behind the code.
  have border := mem_borders isGap isBorder whole
  have joint := insertable.joint (c := c) (x := x)
  have stays : StaysOpen b c x d (y ++ c :: x) :=
    insertable.staysOpen (apart.imp_right fun none => isFirst none ▸ plain)
  have run := arrival.exchange left joint (fun _ _ => left ▸ brace) stays fun atNewline =>
    line fun none => notNewline ((isFirst none).symm.trans atNewline)
  have ends : true = true → ∀ e ∈ (c :: x).head?, isFlag e = false := by
    have noFlag : ∀ e ∈ borders, isFlag e = false := by decide +kernel
    rintro _ _ ⟨⟩
    exact noFlag c border
  obtain ⟨memory', code', comes, braces, moved⟩ := insertable.scans memory place (c :: x) ends
  have later := arrival.later
  rw [left, ← whole] at later
  obtain ⟨after', later', moved'⟩ :=
    tokensFrom_gap_forgets isGap notTrivial notSlash braces (d :: y).length later
  refine ⟨code', after', ?_, moved, moved'⟩
  rw [whole] at later'
  rw [left, List.append_assoc, List.cons_append, run, ← List.cons_append, comes.tokensFrom_eq,
    later']
  show Except.ok _ = Except.ok _
  rw [List.append_assoc]

end Scan

/-! ## §4. Places of a layout. -/

namespace Layout

open Scan

variable {L : Layout} {w : Text} {code : List Token}

/-- Where all literals are closed, so is every token. -/
theorem isClosed_token (closed : L.text.closesLiterals = true) {i : Nat} (inside : i < L.size) :
    (L.token i).isClosed L.text = true := by
  unfold Text.closesLiterals at closed
  rw [L.scanned_split inside] at closed
  have all := (Bool.and_eq_true_iff.mp closed).1
  exact List.all_eq_true.mp all _ (by simp)

/-- The text from the token `i` on. -/
theorem drop_startAt {i : Nat} {p : Punct} {c : CodePoint} (h : (L.token i).is p = true)
    (single : p.text = [c]) : ∃ rest, L.text.drop (L.startAt i) = c :: rest := by
  obtain ⟨inside, isFirst⟩ := List.getElem?_eq_some_iff.mp (getElem?_of_is h single)
  rw [List.drop_eq_getElem_cons inside, isFirst]
  exact ⟨_, rfl⟩

/-- The text behind the token `i`, up to a brace and from it on. -/
theorem drop_stopBefore {i : Nat} (brace : (L.token (i + 1)).is .closeBrace = true) :
    ∃ gap rest, L.text.drop (L.stopBefore (i + 1)) = gap ++ .scalar '}' :: rest
      ∧ Gap false gap := by
  obtain ⟨rest, atBrace⟩ := drop_startAt (c := .scalar '}') brace rfl
  have before := L.stopBefore_le_startAt (i + 1)
  refine ⟨_, rest, ?_, gap_slice (Nat.succ_pos i) (lt_size_of_is brace)⟩
  unfold Text.slice
  rw [← atBrace, ← Nat.add_sub_cancel' before, ← List.drop_drop, Nat.add_sub_cancel_left,
    List.take_append_drop]

/-- **Inserting behind a token,** in front of a brace. -/
theorem insert_behind {i : Nat} (closed : L.text.closesLiterals = true)
    (notStray : (L.token i).isStray = false) (brace : (L.token (i + 1)).is .closeBrace = true)
    (insertable : Insertable w code) :
    ∃ code' after', tokenize (L.text.take (L.stopBefore (i + 1)) ++ w
          ++ L.text.drop (L.stopBefore (i + 1)))
        = .ok (L.tokens.take (i + 1) ++ code' ++ after')
      ∧ Token.MovedBy (L.stopBefore (i + 1)) code code'
      ∧ Token.MovedBy w.length (L.tokens.drop (i + 1) ++ [L.final]) after' := by
  have inside : i < L.size := Nat.lt_of_succ_lt (lt_size_of_is brace)
  have isClosed := isClosed_token closed inside
  obtain ⟨memory, b, e, rest, found, way⟩ := L.exists_way inside
  obtain ⟨gap, behind, left, isGap⟩ := drop_stopBefore brace
  have before : L.tokens.take (i + 1) = L.tokens.take i ++ [L.token i] := by
    rw [L.token_of_lt inside]
    exact List.take_succ_eq_append_getElem inside
  rw [before]
  refine way.arrival_behind.insert left isGap (by decide) ?_
    (.inl (way.endsPlainly notStray isClosed)) (fun _ => ⟨by simp, L.token i, by simp, rfl, isClosed⟩)
    insertable
  rw [show L.text.drop (L.token i).stop = _ from left]
  simp

/-- **Inserting in front of a parenthesis** that a brace follows somewhere. -/
theorem insert_front {k m : Nat} (paren : (L.token k).is .closeParen = true) (later : k < m)
    (brace : (L.token m).is .closeBrace = true) (insertable : Insertable w code) :
    ∃ code' after', tokenize (L.text.take (L.startAt k) ++ w ++ L.text.drop (L.startAt k))
        = .ok (L.tokens.take k ++ code' ++ after')
      ∧ Token.MovedBy (L.startAt k) code code'
      ∧ Token.MovedBy w.length (L.tokens.drop k ++ [L.final]) after' := by
  have inside := lt_size_of_is paren
  obtain ⟨memory, b, e, rest, found, way⟩ := L.exists_way inside
  obtain ⟨behind, atParen⟩ := drop_startAt (c := .scalar ')') paren rfl
  have left : L.text.drop (L.startAt k) = [] ++ .scalar ')' :: behind := atParen
  obtain ⟨behind', left'⟩ := drop_startAt (c := .scalar '}') brace rfl
  rw [L.drop_eq_cons inside]
  refine way.arrival.insert left .nil (by decide) ?_ (.inr rfl)
    (fun never => absurd rfl never) insertable
  have place := Nat.add_sub_cancel' (L.startAt_mono (Nat.le_of_lt later))
  rw [← place, ← List.drop_drop] at left'
  exact List.mem_of_mem_drop (left' ▸ List.mem_cons_self)

end Layout

end StackLint
