/-
  StackLint.Proofs.View.Renaming
  ──────────────────────────────
  **RENAMING IN THE TEXT.**

  When a name, or a string, is replaced by another one that means no more to the
  parser, the text is cut and parsed as before: its tokens and its program look
  the same in a view that does not tell the two names apart, and does not see
  where anything stands.
-/
import StackLint.Proofs.Except
import StackLint.Proofs.Token.Exchange
import StackLint.Proofs.Token.Written
import StackLint.Proofs.View.Program

namespace StackLint

/-! ## §1. The seam behind a renamed token. -/

namespace Scan

variable {c d : CodePoint} {x y z : Text}

/-- Characters that mean something in a regular expression, or close a brace. -/
def delimiters : Text :=
  "\\\n[]/\x7d"

/-- The first text may be replaced by the second one in front of any third:
a slash in front of them is read as before, and no lexeme in front of them goes
on into the second one that did not go on into the first one. -/
structure Replaceable (c : CodePoint) (x : Text) (d : CodePoint) (y : Text) : Prop where
  notNewline : c ≠ .scalar '\n'
  notDigit : c.isDigit = false
  notDigit' : d.isDigit = false
  plain : d ∉ continuers
  flag : isFlag d = true → isFlag c = true
  hex : d.hexValue.isSome = true → c.hexValue.isSome = true
  neutral : ∀ e ∈ c :: x, e ∉ delimiters
  neutral' : ∀ e ∈ d :: y, e ∉ delimiters
  notBlank : isBlank d = false

/-- A regular expression goes on behind characters that mean nothing in it. -/
theorem regexWidth?_neutral (inClass : Bool) {t : Text} (neutral : ∀ e ∈ t, e ∉ delimiters)
    (z : Text) : regexWidth? inClass (t ++ z) = (regexWidth? inClass z).map (· + t.length) := by
  induction t with
  | nil => simp
  | cons e t ih =>
      have notDelimiter := neutral e (List.mem_cons_self ..)
      have ne_of_mem {f : CodePoint} (isDelimiter : f ∈ delimiters) : e ≠ f := by
        rintro rfl
        exact notDelimiter isDelimiter
      have notSlash : ¬ (e = .scalar '/' ∧ (!inClass) = true) :=
        fun both => ne_of_mem (by decide) both.1
      rw [List.cons_append, regexWidth?.eq_def]
      simp only
      rw [if_neg (ne_of_mem (by decide)), if_neg (ne_of_mem (by decide)),
        if_neg (ne_of_mem (by decide)), if_neg (ne_of_mem (by decide)), if_neg notSlash,
        ih fun f inside => neutral f (List.mem_cons_of_mem _ inside), Option.map_map]
      rfl

theorem Replaceable.seam (replaceable : Replaceable c x d y) (z : Text) :
    Seam c (x ++ z) d (y ++ z) where
  notNewline := replaceable.notNewline
  digit isDigit := by
    rw [replaceable.notDigit] at isDigit
    cases isDigit
  notDigit' := replaceable.notDigit'
  plain := replaceable.plain
  flag := replaceable.flag
  hex := replaceable.hex
  regex inClass none := by
    rw [← List.cons_append, regexWidth?_neutral inClass replaceable.neutral,
      Option.map_eq_none_iff] at none
    rw [← List.cons_append, regexWidth?_neutral inClass replaceable.neutral', none]
    rfl
  regexEscaped inClass none := by
    rw [regexWidth?_neutral inClass (List.forall_mem_cons.mp replaceable.neutral).2,
      Option.map_eq_none_iff] at none
    rw [regexWidth?_neutral inClass (List.forall_mem_cons.mp replaceable.neutral').2, none]
    rfl
  brace inside := by
    rw [← List.cons_append, List.mem_append] at inside ⊢
    rcases inside with inside | inside
    · exact absurd (by decide) (replaceable.neutral' _ inside)
    · exact .inr inside

/-- No blank and no comment begins with the second text. -/
theorem Replaceable.trivia?_eq_none (replaceable : Replaceable c x d y) (z : Text) :
    trivia? d (y ++ z) = none := by
  have notDelimiter := replaceable.neutral' d (List.mem_cons_self ..)
  have ne_of_mem {e : CodePoint} (isDelimiter : e ∈ delimiters) : d ≠ e := by
    rintro rfl
    exact notDelimiter isDelimiter
  unfold trivia?
  rw [if_neg (ne_of_mem (by decide)), replaceable.notBlank, if_neg Bool.false_ne_true,
    if_neg (ne_of_mem (by decide))]

end Scan

/-! ## §2. Views that tell two names no longer apart. -/

namespace View

/-- The view does not see where anything stands. -/
def Flat (v : View) : Prop :=
  ∀ m n, v.offset m = v.offset n

theorem view_moved {v : View} (flat : v.Flat) (stop stop' : Nat) (t : Token) :
    (t.moved stop stop').view v = t.view v := by
  unfold Token.view Token.moved
  simp only [flat (t.start + stop' - stop) t.start, flat (t.stop + stop' - stop) t.stop]

/-- The view that takes one name for another one, and does not see where anything
stands. -/
def merge {a b : Text} (free : ¬ Reserved a) (free' : ¬ Reserved b) : View where
  offset := fun _ => 0
  name := fun t => if t = a then b else t
  lead := 0
  keeps := by
    intro t kept
    rw [if_neg]
    rintro rfl
    exact free kept
  apart := by
    intro t kept
    split at kept
    · exact absurd kept free'
    · exact kept

/-- It does not tell the two names apart. -/
theorem name_merge {a b : Text} (free : ¬ Reserved a) (free' : ¬ Reserved b) :
    (merge free free').name b = (merge free free').name a := by
  show (if b = a then b else b) = if a = a then b else a
  rw [if_pos rfl, ite_self]

theorem flat_merge {a b : Text} (free : ¬ Reserved a) (free' : ¬ Reserved b) :
    (merge free free').Flat :=
  fun _ _ => rfl

end View

/-! ## §3. Tokens and programs that look the same. -/

open Scan in
/-- **A renamed token makes no difference.** -/
theorem exists_tokenize_renamed {v : View} (flat : v.Flat) {text : Text} {before after : List Token}
    {t : Token} {c d : CodePoint} {x y : Text} {lexeme' : Lexeme}
    (run : tokenize text = .ok (before ++ t :: after)) (naming : t.lexeme.isNaming = true)
    (left : text.drop t.start = c :: (x ++ text.drop t.stop)) (replaceable : Replaceable c x d y)
    (notTrivial : trivia? d (y ++ text.drop t.stop) = none)
    (read : ∀ braces previous,
      Scan.lexeme braces previous d (y ++ text.drop t.stop) = .ok ⟨lexeme', y.length, braces⟩)
    (same : regexAllowed (some lexeme') = regexAllowed (some t.lexeme))
    (alike : lexeme'.view v = t.lexeme.view v) :
    ∃ tokens', tokenize (text.take t.start ++ d :: y ++ text.drop t.stop) = .ok tokens'
      ∧ tokens'.map (Token.view v) = (before ++ t :: after).map (Token.view v) := by
  refine ⟨_, tokenize_exchange run naming left (replaceable.seam _) notTrivial read same, ?_⟩
  have moved : (after.map (Token.moved t.stop (t.start + 1 + y.length))).map (Token.view v)
      = after.map (Token.view v) := by
    rw [List.map_map]
    exact List.map_congr_left fun u _ => View.view_moved flat _ _ u
  have renamed : Token.view v ⟨lexeme', t.start, t.start + y.length + 1, t.newlineBefore⟩
      = t.view v := by
    unfold Token.view
    rw [alike, flat (t.start + y.length + 1) t.stop]
  rw [List.map_append, List.map_append, List.map_cons, List.map_cons, moved, renamed]

/-- **Texts whose tokens look the same are parsed alike.** -/
theorem exists_parse_view_eq {v v' : View} {text text' : Text} {tokens tokens' : List Token}
    {program : Program} (run : tokenize text = .ok tokens) (run' : tokenize text' = .ok tokens')
    (same : tokens'.map (Token.view v') = tokens.map (Token.view v))
    (origin : v'.offset 0 = v.offset 0) (sameLength : v'.offset text'.length = v.offset text.length)
    (lead : v'.lead = v.lead) (parsed : parse text = .ok program) :
    ∃ program', parse text' = .ok program' ∧ program'.view v' = program.view v := by
  obtain ⟨L, rfl, rfl⟩ := Layout.exists_of_tokenize run
  obtain ⟨L', rfl, rfl⟩ := Layout.exists_of_tokenize run'
  unfold parse parseWithin at parsed ⊢
  rw [run] at parsed
  rw [run']
  simp only [bind, Except.bind, pure, Except.pure, List.dropLast_concat, List.getLast?_concat,
    Option.getD_some, Except.ok.injEq] at parsed ⊢
  rw [List.map_append, List.map_append] at same
  have ends := List.append_inj' same rfl
  refine ⟨_, rfl, ?_⟩
  rw [← parsed]
  exact parseTokens_view_eq ends.1 (List.cons.inj ends.2).1 origin sameLength lead

/-- The token `i` where the text goes on with what is always read as the same lexeme. -/
theorem Layout.token_of_reads {L : Layout} {i : Nat} (inside : i < L.size) {c : CodePoint}
    {x z : Text} {l : Lexeme} (left : L.text.drop (L.startAt i) = c :: (x ++ z))
    (reads : ∀ braces previous, Scan.lexeme braces previous c (x ++ z) = .ok ⟨l, x.length, braces⟩) :
    (L.token i).lexeme = l ∧ L.stopBefore (i + 1) = L.startAt i + (c :: x).length := by
  obtain ⟨memory, b, e, rest, found, way⟩ := L.exists_way inside
  have first := way.left
  rw [show (L.token i).start = L.startAt i from rfl, left, List.cons.injEq] at first
  obtain ⟨rfl, rfl⟩ := first
  obtain rfl := Except.ok.inj ((reads _ _).symm.trans way.read)
  refine ⟨way.lexeme, ?_⟩
  have stop : L.stopBefore (i + 1) = L.startAt i + 1 + x.length := way.stop
  rw [stop, List.length_cons]
  omega

/-- A token that begins with a quote and ends with the name behind it has no closing quote. -/
theorem Layout.token_of_unclosed {L : Layout} {i : Nat} (inside : i < L.size) {quote : Quote}
    {x z : Text} (plain : Scan.Plain quote x)
    (left : L.text.drop (L.startAt i) = .scalar quote.mark :: (x ++ z))
    (short : L.stopBefore (i + 1) ≤ L.startAt i + (x.length + 1)) :
    (L.token i).lexeme = .string quote x
      ∧ L.stopBefore (i + 1) = L.startAt i + (x.length + 1) := by
  obtain ⟨memory, b, e, rest, found, way⟩ := L.exists_way inside
  have first := way.left
  rw [show (L.token i).start = L.startAt i from rfl, left, List.cons.injEq] at first
  obtain ⟨rfl, rfl⟩ := first
  have stop : L.stopBefore (i + 1) = L.startAt i + 1 + found.extra := way.stop
  have isFound := Scan.lexeme_unclosed plain way.read (by omega)
  have isLexeme := way.lexeme
  rw [isFound] at isLexeme stop
  refine ⟨isLexeme, ?_⟩
  rw [stop, Nat.add_assoc, Nat.add_comm 1]

/-- **Renaming the token `i` of a layout.**  The text goes on with `c :: x` there, which
is read as the lexeme `l` wherever it stands in front of `z`. -/
theorem Layout.exists_parse_renamed {v : View} (flat : v.Flat) {L : Layout} {i : Nat}
    (inside : i < L.size) {c d : CodePoint} {x y z : Text} {l l' : Lexeme} {program : Program}
    (left : L.text.drop (L.startAt i) = c :: (x ++ z))
    (reads : ∀ braces previous, Scan.lexeme braces previous c (x ++ z) = .ok ⟨l, x.length, braces⟩)
    (reads' : ∀ braces previous,
      Scan.lexeme braces previous d (y ++ z) = .ok ⟨l', y.length, braces⟩)
    (replaceable : Scan.Replaceable c x d y) (naming : l.isNaming = true)
    (same : Scan.regexAllowed (some l') = Scan.regexAllowed (some l)) (alike : l'.view v = l.view v)
    (parsed : parse L.text = .ok program) :
    ∃ program', parse (L.text.take (L.startAt i) ++ d :: y ++ z) = .ok program'
      ∧ program'.view v = program.view v := by
  obtain ⟨isLexeme, stop⟩ := Layout.token_of_reads inside left reads
  have behind : L.text.drop (L.token i).stop = z := by
    have isStop : (L.token i).stop = L.startAt i + (c :: x).length := stop
    rw [isStop, ← List.drop_drop, left, ← List.cons_append, List.drop_left]
  obtain ⟨tokens', run', looks⟩ := exists_tokenize_renamed flat (L.scanned_split inside)
    (isLexeme ▸ naming) (by rw [behind]; exact left) replaceable
    (by rw [behind]; exact replaceable.trivia?_eq_none z) (by rw [behind]; exact reads')
    (by rw [isLexeme]; exact same) (by rw [isLexeme]; exact alike)
  rw [behind] at run'
  exact exists_parse_view_eq (L.scanned_split inside) run' looks rfl (flat _ _) rfl parsed

/-- Programs that look the same have as many complaints. -/
theorem Program.length_complaints_of_view_eq {v v' : View} {p p' : Program}
    (same : p'.view v' = p.view v) : p'.complaints.length = p.complaints.length := by
  have complaints := congrArg (fun q => q.complaints.length) same
  simp only [Program.view, List.length_map] at complaints
  exact complaints

/-! ## §4. Names that mean nothing to the parser. -/

namespace Scan

/-- The name `c :: x` means nothing to the parser. -/
structure IsFreeName (c : CodePoint) (x : Text) : Prop where
  start : c = .scalar '$' ∨ (c.isWordCharacter = true ∧ c.isDigit = false)
  goesOn : x.all isFlag = true
  free : ¬ Reserved (c :: x)

/-- The name `c :: x` can be given the other name `d :: y` wherever it stands. -/
structure Renameable (c : CodePoint) (x : Text) (d : CodePoint) (y : Text) : Prop where
  old : IsFreeName c x
  new : IsFreeName d y
  plain : d ∉ continuers
  hex : d.hexValue.isSome = true → c.hexValue.isSome = true

variable {c d : CodePoint} {x y : Text}

theorem neutral_of_all_isFlag {t : Text} (flags : t.all isFlag = true) :
    ∀ e ∈ t, e ∉ delimiters := by
  intro e inside isDelimiter
  exact ne_of_all_isFlag flags inside
    ((by decide : ∀ f ∈ delimiters, isFlag f = false) e isDelimiter) rfl

theorem plain_of_all_isFlag {t : Text} (flags : t.all isFlag = true) (quote : Quote) :
    Plain quote t := by
  intro e inside
  refine ⟨ne_of_all_isFlag flags inside (by decide), ne_of_all_isFlag flags inside ?_,
    ne_of_all_isFlag flags inside (by decide)⟩
  cases quote <;> decide

/-- A closing quote means nothing in a regular expression. -/
theorem neutral_append_mark (quote : Quote) {t : Text} (flags : t.all isFlag = true) :
    ∀ e ∈ t ++ [.scalar quote.mark], e ∉ delimiters := by
  intro e inside
  rcases List.mem_append.mp inside with inside | isMark
  · exact neutral_of_all_isFlag flags e inside
  · rw [List.mem_singleton.mp isMark]
    cases quote <;> decide

/-- Behind a quote. -/
theorem replaceable_mark (quote : Quote) {t u : Text} (neutral : ∀ e ∈ t, e ∉ delimiters)
    (neutral' : ∀ e ∈ u, e ∉ delimiters) :
    Replaceable (.scalar quote.mark) t (.scalar quote.mark) u := by
  have mark : CodePoint.scalar quote.mark ∉ delimiters := by cases quote <;> decide
  refine ⟨?_, ?_, ?_, ?_, id, id, List.forall_mem_cons.mpr ⟨mark, neutral⟩,
    List.forall_mem_cons.mpr ⟨mark, neutral'⟩, ?_⟩ <;> cases quote <;> decide

/-- A name in quotes is a string wherever it stands. -/
theorem lexeme_surrounded {t z : Text} (flags : t.all isFlag = true) (quote : Quote)
    (braces : List OpenBrace) (previous : Option Lexeme) :
    lexeme braces previous (.scalar quote.mark) (t ++ [CodePoint.scalar quote.mark] ++ z)
      = .ok ⟨.string quote t, (t ++ [CodePoint.scalar quote.mark]).length, braces⟩ := by
  rw [List.append_assoc, List.length_append]
  exact lexeme_quoted (plain_of_all_isFlag flags quote)

/-- A punctuator is no name. -/
theorem all_isFlag_punct (p : Punct) : p.text.all isFlag = false := by
  cases p <;> decide

/-- A name of several characters is free if it is no word that means something. -/
theorem IsFreeName.of_spelling {s : String} (spelled : Text.ofString s = c :: x)
    (start : c = .scalar '$' ∨ (c.isWordCharacter = true ∧ c.isDigit = false))
    (goesOn : x.all isFlag = true) (long : x ≠ []) (noWord : s ∉ reservedWords)
    (noKind : s ∉ kindNames) : IsFreeName c x := by
  refine ⟨start, goesOn, ?_⟩
  intro kept
  generalize whole : c :: x = t at kept spelled
  cases kept with
  | short h =>
      rw [← whole, List.length_cons] at h
      exact long (List.length_eq_zero_iff.mp (by omega))
  | word listed =>
      rw [Text.ofString_injective spelled] at noWord
      exact noWord listed
  | punct p =>
      have flags := all_isFlag_punct p
      rw [← whole, List.all_cons, isFlag_of_start start, goesOn] at flags
      cases flags
  | kind listed =>
      rw [Text.ofString_injective spelled] at noKind
      exact noKind listed

namespace IsFreeName

variable (name : IsFreeName c x)

include name

theorem flags : (c :: x).all isFlag = true := by
  rw [List.all_cons, isFlag_of_start name.start, name.goesOn]
  rfl

theorem isDigit_eq_false : c.isDigit = false := by
  rcases name.start with dollar | ⟨_, noDigit⟩
  · rw [dollar]
    decide
  · exact noDigit

/-- A slash behind the name divides. -/
theorem regexAllowed_eq_false : regexAllowed (some (.word (c :: x))) = false := by
  have kept := reserved_of_words operandWords
    ["return", "typeof", "instanceof", "in", "of", "new", "delete", "void", "throw", "case", "do",
     "else", "yield", "await"] rfl (by decide)
  rw [Bool.eq_false_iff]
  intro allowed
  exact name.free (kept _ (List.contains_iff_mem.mp allowed))

end IsFreeName

namespace Renameable

variable (renameable : Renameable c x d y)

include renameable

theorem replaceable : Replaceable c x d y where
  notNewline := ne_of_all_isFlag renameable.old.flags (List.mem_cons_self ..) (by decide)
  notDigit := renameable.old.isDigit_eq_false
  notDigit' := renameable.new.isDigit_eq_false
  plain := renameable.plain
  flag _ := isFlag_of_start renameable.old.start
  hex := renameable.hex
  neutral := neutral_of_all_isFlag renameable.old.flags
  neutral' := neutral_of_all_isFlag renameable.new.flags
  notBlank := by
    have ne {f : CodePoint} (notFlag : isFlag f = false) : (d == f) = false :=
      beq_false_of_ne (ne_of_all_isFlag renameable.new.flags (List.mem_cons_self ..) notFlag)
    unfold isBlank
    rw [ne (by decide), ne (by decide), ne (by decide), ne (by decide), ne (by decide),
      ne (by decide +kernel), ne (by decide +kernel)]
    rfl

/-- In quotes, the first characters are the same. -/
theorem replaceable_quoted (quote : Quote) :
    Replaceable (.scalar quote.mark) (c :: x ++ [.scalar quote.mark]) (.scalar quote.mark)
      (d :: y ++ [.scalar quote.mark]) :=
  replaceable_mark quote (neutral_append_mark quote renameable.old.flags)
    (neutral_append_mark quote renameable.new.flags)

/-- The closing quote may have been missing. -/
theorem replaceable_unclosed (quote : Quote) :
    Replaceable (.scalar quote.mark) (c :: x) (.scalar quote.mark)
      (d :: y ++ [.scalar quote.mark]) :=
  replaceable_mark quote (neutral_of_all_isFlag renameable.old.flags)
    (neutral_append_mark quote renameable.new.flags)

end Renameable

end Scan

namespace Layout

variable {L : Layout} {i : Nat} {c d : CodePoint} {x y z : Text} {program : Program}

/-- A token that is no longer than a name ends with it. -/
theorem ends_of_short {z : Text} (name : Scan.IsFreeName c x) (inside : i < L.size)
    (left : L.text.drop (L.startAt i) = c :: x ++ z)
    (short : L.stopBefore (i + 1) ≤ L.startAt i + (c :: x).length) :
    ∀ e ∈ z.head?, Scan.isFlag e = false := by
  obtain ⟨memory, b, e, rest, found, way⟩ := L.exists_way inside
  have first := way.left
  rw [show (L.token i).start = L.startAt i from rfl, left, List.cons_append, List.cons.injEq] at first
  obtain ⟨rfl, rfl⟩ := first
  refine Scan.ends_of_lexeme way.read name.start name.goesOn ?_
  have stop : L.stopBefore (i + 1) = L.startAt i + 1 + found.extra := way.stop
  rw [List.length_cons] at short
  omega

/-- **A name that is renamed** makes no further complaint. -/
theorem exists_parse_renamedName (renameable : Scan.Renameable c x d y) (inside : i < L.size)
    (left : L.text.drop (L.startAt i) = c :: x ++ z) (ends : ∀ e ∈ z.head?, Scan.isFlag e = false)
    (parsed : parse L.text = .ok program) :
    ∃ program', parse (L.text.take (L.startAt i) ++ d :: y ++ z) = .ok program'
      ∧ program'.complaints.length = program.complaints.length := by
  have alike : (Lexeme.word (d :: y)).view (.merge renameable.old.free renameable.new.free)
      = (Lexeme.word (c :: x)).view (.merge renameable.old.free renameable.new.free) :=
    congrArg Lexeme.word (View.name_merge renameable.old.free renameable.new.free)
  obtain ⟨program', parsed', same⟩ := exists_parse_renamed
    (View.flat_merge renameable.old.free renameable.new.free) inside left
    (fun _ _ => Scan.lexeme_name ⟨renameable.old.start, renameable.old.goesOn, ends⟩)
    (fun _ _ => Scan.lexeme_name ⟨renameable.new.start, renameable.new.goesOn, ends⟩)
    renameable.replaceable rfl
    (renameable.new.regexAllowed_eq_false.trans renameable.old.regexAllowed_eq_false.symm) alike
    parsed
  exact ⟨program', parsed', Program.length_complaints_of_view_eq same⟩

/-- **A string that is renamed** makes no further complaint. -/
theorem exists_parse_renamedString (renameable : Scan.Renameable c x d y) (inside : i < L.size)
    {quote : Quote} (left : L.text.drop (L.startAt i) = quote.surround (c :: x) ++ z)
    (parsed : parse L.text = .ok program) :
    ∃ program', parse (L.text.take (L.startAt i) ++ quote.surround (d :: y) ++ z) = .ok program'
      ∧ program'.complaints.length = program.complaints.length := by
  have alike : (Lexeme.string quote (d :: y)).view (.merge renameable.old.free renameable.new.free)
      = (Lexeme.string quote (c :: x)).view (.merge renameable.old.free renameable.new.free) :=
    congrArg (Lexeme.string quote) (View.name_merge renameable.old.free renameable.new.free)
  obtain ⟨program', parsed', same⟩ := exists_parse_renamed
    (View.flat_merge renameable.old.free renameable.new.free) inside left
    (Scan.lexeme_surrounded renameable.old.flags quote)
    (Scan.lexeme_surrounded renameable.new.flags quote) (renameable.replaceable_quoted quote) rfl rfl
    alike parsed
  exact ⟨program', parsed', Program.length_complaints_of_view_eq same⟩

end Layout

end StackLint
