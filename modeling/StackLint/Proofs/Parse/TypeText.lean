/-
  StackLint.Proofs.Parse.TypeText
  ───────────────────────────────
  **TYPES AS THEY ARE WRITTEN.**

  A type that is made of names and type arguments may have gaps between any two of its
  tokens.  Where several lists of arguments end at once, their closing brackets are cut
  into as few tokens as possible, whatever lists they belong to; so a type is cut into the
  tokens of its `body`, which opens some lists more than it closes, and the tokens of a run
  of brackets that closes them.
-/
import StackLint.Proofs.Parse.TypeExtent
import StackLint.Proofs.Print.Spaced
import StackLint.Proofs.Token.Gap
import StackLint.Proofs.Token.Local

namespace StackLint

/-! ## §1. Pieces of text. -/

namespace Punct

/-- The characters that go on with a punctuator to a longer one. -/
def goingOn (p : Punct) : List CodePoint :=
  all.filterMap fun q => if p.text.isPrefixOf q.text then q.text[p.text.length]? else none

/-- A punctuator stands in the table in front of those it begins with. -/
theorem pairwise_table : table.Pairwise fun entry entry' => entry.1.isPrefixOf entry'.1 = false := by
  decide +kernel

theorem mem_all (p : Punct) : p ∈ all := by
  cases p <;> decide

theorem mem_goingOn {p q : Punct} {d : CodePoint} {more : Text}
    (longer : p.text ++ d :: more = q.text) : d ∈ p.goingOn := by
  refine List.mem_filterMap.mpr ⟨q, q.mem_all, ?_⟩
  rw [← longer, if_pos (List.isPrefixOf_iff_prefix.mpr (List.prefix_append _ _)),
    List.getElem?_append_right (Nat.le_refl _), Nat.sub_self]
  rfl

/-- Nothing goes on with the punctuator. -/
def Stops (p : Punct) (rest : Text) : Prop :=
  ∀ d ∈ rest.head?, d ∉ p.goingOn

end Punct

namespace Scan

variable {rest : Text}

/-- **The longest punctuator is found.** -/
theorem punctuator_of_stops {p : Punct} (notOptional : p ≠ .optionalDot) {c : CodePoint} {t : Text}
    (spelled : p.text = c :: t) (stops : p.Stops rest)
    (braces : List OpenBrace) :
    punctuator braces c (t ++ rest) = ⟨.punct p, t.length, braceAfter p braces⟩ := by
  have listed : (p.text, p) ∈ Punct.table := List.mem_map_of_mem p.mem_all
  have stands : standsAt c (t ++ rest) (p.text, p) = true := by
    have noDot : (p == Punct.optionalDot) = false := beq_false_of_ne notOptional
    unfold standsAt
    rw [noDot, Bool.false_and, Bool.not_false, Bool.and_true, List.isPrefixOf_iff_prefix, spelled,
      ← List.cons_append]
    exact List.prefix_append _ _
  rw [punctuator_eq]
  cases found : Punct.table.find? (standsAt c (t ++ rest)) with
  | none => exact absurd stands (List.find?_eq_none.mp found _ listed)
  | some entry =>
      obtain ⟨spelling, q⟩ := entry
      obtain ⟨isFirst, front, back, split, fails⟩ := List.find?_eq_some_iff_append.mp found
      obtain rfl : spelling = q.text := mem_table (List.mem_of_find?_eq_some found)
      have begins : q.text <+: p.text ++ rest := by
        rw [spelled, List.cons_append, ← List.isPrefixOf_iff_prefix]
        exact (Bool.and_eq_true_iff.mp isFirst).1
      -- What is found is no longer than the punctuator, as the text does not go on with it.
      have shorter : q.text <+: p.text := by
        rcases List.prefix_or_prefix_of_prefix begins (List.prefix_append _ _) with short | ⟨more, long⟩
        · exact short
        · cases more with
          | nil => exact ⟨[], by rw [← long, List.append_nil, List.append_nil]⟩
          | cons d more =>
              rw [← long, List.prefix_append_right_inj] at begins
              obtain ⟨others, isRest⟩ := begins
              exact absurd (Punct.mem_goingOn long) (stops d (by rw [← isRest]; rfl))
      have same : q = p := by
        rw [split, List.mem_append, List.mem_cons] at listed
        rcases listed with inFront | isEntry | behind
        · have fails := fails _ inFront
          rw [stands] at fails
          cases fails
        · exact (congrArg Prod.snd isEntry).symm
        · have pairwise := Punct.pairwise_table
          rw [split, List.pairwise_append, List.pairwise_cons] at pairwise
          have apart := pairwise.2.1.1 _ behind
          rw [List.isPrefixOf_iff_prefix.mpr shorter] at apart
          cases apart
      subst same
      show (⟨.punct q, q.text.length - 1, braceAfter q braces⟩ : Found) = _
      rw [spelled]
      rfl

/-- **In front of `rest` the piece is cut into these lexemes,** whatever stands before it. -/
def CutsInto (piece : Text) (ls : List Lexeme) (rest : Text) : Prop :=
  ∀ (memory : Memory) (offset : Nat), ∃ (tokens : List Token) (previous : Option Lexeme)
    (newline : Bool), tokens.map Token.lexeme = ls
      ∧ tokensFrom memory 0 offset (piece ++ rest)
        = (tokensFrom ⟨memory.braces, previous, newline⟩ 0 (offset + piece.length) rest).map
            (tokens ++ ·)

theorem CutsInto.append {piece piece' : Text} {ls ls' : List Lexeme}
    (first : CutsInto piece ls (piece' ++ rest)) (second : CutsInto piece' ls' rest) :
    CutsInto (piece ++ piece') (ls ++ ls') rest := by
  intro memory offset
  obtain ⟨tokens, previous, newline, same, cut⟩ := first memory offset
  obtain ⟨tokens', previous', newline', same', cut'⟩ :=
    second ⟨memory.braces, previous, newline⟩ (offset + piece.length)
  refine ⟨tokens ++ tokens', previous', newline', ?_, ?_⟩
  · rw [List.map_append, same, same']
  · rw [List.append_assoc, cut, cut', List.length_append, Nat.add_assoc]
    cases tokensFrom ⟨memory.braces, previous', newline'⟩ 0
      (offset + (piece.length + piece'.length)) rest with
    | error failure => rfl
    | ok later => exact congrArg Except.ok (List.append_assoc _ _ _).symm

theorem cutsInto_nil : CutsInto [] [] rest := by
  intro memory offset
  refine ⟨[], memory.previous, memory.newline, rfl, ?_⟩
  show tokensFrom memory 0 offset rest = _
  rw [List.length_nil, Nat.add_zero]
  cases tokensFrom memory 0 offset rest <;> rfl

/-- A gap has no lexemes. -/
theorem cutsInto_gap {gap : Text} (isGap : Gap false gap) : CutsInto gap [] rest := by
  intro memory offset
  refine ⟨[], memory.previous, (memory.behind gap).newline, rfl, ?_⟩
  rw [passesOver_gap isGap]
  show tokensFrom (memory.behind gap) 0 _ rest
    = (tokensFrom (memory.behind gap) 0 _ rest).map ([] ++ ·)
  cases tokensFrom (memory.behind gap) 0 (offset + gap.length) rest <;> rfl

/-- A lexeme that takes the whole piece. -/
theorem tokensFrom_piece {l : Lexeme} {c : CodePoint} {t : Text}
    (trivial : trivia? c (t ++ rest) = none)
    (read : ∀ braces previous, lexeme braces previous c (t ++ rest) = .ok ⟨l, t.length, braces⟩)
    (memory : Memory) (offset : Nat) :
    tokensFrom memory 0 offset (c :: t ++ rest)
      = (tokensFrom ⟨memory.braces, some l, false⟩ 0 (offset + (c :: t).length) rest).map
          (⟨l, offset, offset + t.length + 1, memory.newline⟩ :: ·) := by
  have stop : offset + 1 + min t.length (t ++ rest).length = offset + (c :: t).length := by
    rw [List.length_append, List.length_cons]
    omega
  rw [List.cons_append, tokensFrom_lexeme trivial (read _ _)]
  dsimp only
  rw [List.drop_left, stop]
  rfl

theorem cutsInto_lexeme {l : Lexeme} {c : CodePoint} {t : Text}
    (trivial : trivia? c (t ++ rest) = none)
    (read : ∀ braces previous, lexeme braces previous c (t ++ rest) = .ok ⟨l, t.length, braces⟩) :
    CutsInto (c :: t) [l] rest :=
  fun memory offset => ⟨[_], some l, false, rfl, tokensFrom_piece trivial read memory offset⟩

/-- Nothing goes on with a name. -/
def EndsName (rest : Text) : Prop :=
  ∀ c ∈ rest.head?, isFlag c = false

theorem cutsInto_name {name : Text} (isName : StackLint.IsName name) (ends : EndsName rest) :
    CutsInto name [.word name] rest := by
  obtain ⟨c, t, rfl, start, goesOn⟩ := isName
  exact cutsInto_lexeme (trivia?_of_isFlag (isFlag_of_start start) _) fun _ _ =>
    lexeme_name ⟨start, goesOn, ends⟩

/-- Punctuators that begin with a character of no other use. -/
def marks : List Punct :=
  [.lt, .gt, .shr, .ushr, .comma, .colon, .assign]

/-- The characters that they begin with. -/
def markCharacters : Text :=
  "<>,:="

/-- Such a character begins a punctuator. -/
theorem lexeme_of_markCharacters {c : CodePoint} (isMark : c ∈ markCharacters) (rest : Text) :
    trivia? c rest = none
      ∧ ∀ braces previous, lexeme braces previous c rest = .ok (punctuator braces c rest) := by
  have plain : ∀ c ∈ markCharacters,
      c ∉ ("\"'\x60#/\x7d" : Text) ∧ c.isDigit = false ∧ c ≠ .scalar '.' ∧ c ≠ .scalar '\n'
        ∧ isBlank c = false ∧ isFlag c = false := by
    decide
  obtain ⟨notOther, notDigit, notPoint, notNewline, notBlank, notFlag⟩ := plain c isMark
  have notSlash : c ≠ .scalar '/' := by
    rintro rfl
    exact notOther (by decide)
  have noNumber : startsNumber c rest = false := by
    unfold startsNumber
    rw [notDigit, beq_false_of_ne notPoint, Bool.false_and, Bool.false_or]
  refine ⟨?_, lexeme_mark notOther notFlag noNumber⟩
  unfold trivia?
  rw [if_neg notNewline, notBlank, if_neg Bool.false_ne_true, if_neg notSlash]

/-- How they are read. -/
theorem lexeme_punct {p : Punct} (isMark : p ∈ marks) (stops : p.Stops rest) :
    ∃ c t, p.text = c :: t ∧ trivia? c (t ++ rest) = none ∧ ∀ braces previous,
      lexeme braces previous c (t ++ rest) = .ok ⟨.punct p, t.length, braces⟩ := by
  have notOptional : p ≠ .optionalDot := by
    rintro rfl
    exact absurd isMark (by decide)
  have noBrace (braces : List OpenBrace) : braceAfter p braces = braces := by
    cases p <;> first | rfl | exact absurd isMark (by decide)
  obtain ⟨c, t, spelled⟩ := List.exists_cons_of_ne_nil p.text_ne_nil
  have isFirst : c ∈ markCharacters := by
    cases p <;> first | exact absurd isMark (by decide) | (cases spelled; decide)
  obtain ⟨trivial, read⟩ := lexeme_of_markCharacters isFirst (t ++ rest)
  refine ⟨c, t, spelled, trivial, fun braces previous => ?_⟩
  rw [read, punctuator_of_stops notOptional spelled stops, noBrace]

theorem cutsInto_mark {p : Punct} (isMark : p ∈ marks) (stops : p.Stops rest) :
    CutsInto p.text [.punct p] rest := by
  obtain ⟨c, t, spelled, trivial, read⟩ := lexeme_punct isMark stops
  rw [spelled]
  exact cutsInto_lexeme trivial read

end Scan

/-! ## §2. Closing brackets. -/

/-- A run of closing brackets. -/
def closing (count : Nat) : Text :=
  List.replicate count (.scalar '>')

/-- The punctuators that a run of closing brackets is cut into. -/
def closers : Nat → List Lexeme
  | 0 => []
  | 1 => [.punct .gt]
  | 2 => [.punct .shr]
  | count + 3 => .punct .ushr :: closers count

/-- Nothing goes on with a run of closing brackets. -/
def EndsClosing (rest : Text) : Prop :=
  ∀ c ∈ rest.head?, c ≠ .scalar '>' ∧ c ≠ .scalar '='

theorem EndsClosing.stops {p : Punct} (isRun : p ∈ [Punct.gt, .shr, .ushr]) {rest : Text}
    (ends : EndsClosing rest) : p.Stops rest := by
  have listed : ∀ p ∈ [Punct.gt, .shr, .ushr], ∀ d ∈ p.goingOn, d = .scalar '>' ∨ d = .scalar '=' := by
    decide +kernel
  intro d isHead goesOn
  obtain ⟨noBracket, noAssign⟩ := ends d isHead
  exact (listed p isRun d goesOn).elim noBracket noAssign

namespace Scan

variable {rest : Text}

/-- **A run of closing brackets** is cut into punctuators from the front. -/
theorem cutsInto_closing {count : Nat} (ends : EndsClosing rest) :
    CutsInto (closing count) (closers count) rest := by
  induction count using closers.induct with
  | case1 => exact cutsInto_nil
  | case2 => exact cutsInto_mark (p := .gt) (by decide) (ends.stops (by decide))
  | case3 => exact cutsInto_mark (p := .shr) (by decide) (ends.stops (by decide))
  | case4 count ih =>
      -- Three brackets go on with an equals sign only.
      have first : CutsInto (Punct.text .ushr) [.punct .ushr] (closing count ++ rest) := by
        refine cutsInto_mark (by decide) ?_
        cases count with
        | zero => exact ends.stops (by decide)
        | succ count =>
            rintro _ ⟨⟩
            decide
      exact first.append ih

end Scan

namespace Lookahead

/-- **A run of closing brackets closes as many lists.** -/
theorem leads_closers {count depth : Nat} {tokens : List Token}
    (cut : tokens.map Token.lexeme = closers count) (isOpen : depth + count ≠ 0) :
    Leads (depth + count) depth tokens := by
  induction count using closers.induct generalizing tokens with
  | case1 =>
      rw [List.map_eq_nil_iff.mp cut]
      exact .nil isOpen
  | case2 =>
      obtain ⟨t, rfl, isPunct⟩ := List.map_eq_singleton_iff.mp cut
      exact .closing isPunct (show closedAngles .gt = 0 + 1 from rfl) (Nat.zero_le _)
  | case3 =>
      obtain ⟨t, rfl, isPunct⟩ := List.map_eq_singleton_iff.mp cut
      exact .closing isPunct (show closedAngles .shr = 1 + 1 from rfl) (Nat.le_add_left _ _)
  | case4 count ih =>
      obtain ⟨t, later, rfl, isPunct, cut⟩ := List.map_eq_cons_iff.mp cut
      have first : Leads (depth + (count + 3)) (depth + count) [t] :=
        .closing isPunct (show closedAngles .ushr = 2 + 1 from rfl) (Nat.le_add_left _ _)
      by_cases all : depth + count = 0
      · obtain ⟨rfl, rfl⟩ := Nat.add_eq_zero_iff.mp all
        rw [List.map_eq_nil_iff.mp cut]
        exact first
      · exact .cons all first (ih cut all)

end Lookahead

/-! ## §3. The grammar. -/

/-- The text is a name that is no operator in front of a type. -/
def Text.IsTypeName (t : Text) : Prop :=
  IsName t ∧ (Text.ofString "import" :: Lookahead.typeOperatorWords).contains t = false

namespace Lookahead

open Scan (Gap CutsInto EndsName isFlag cutsInto_gap cutsInto_name cutsInto_mark cutsInto_closing)

/-- **Types that are made of names and type arguments,** with gaps in front of their tokens, and
behind a whole type.  Type arguments reach from behind the opening bracket to the closing one. -/
inductive IsWritten : Phrase → Text → Prop
  | plain {name : Text} (isName : name.IsTypeName) : IsWritten .name name
  | applied {name gap arguments : Text} (isName : name.IsTypeName) (isGap : Gap false gap)
      (applies : IsWritten .arguments arguments) :
      IsWritten .name (name ++ (gap ++ .scalar '<' :: arguments))
  | named {name gap : Text} (isName : IsWritten .name name) (isGap : Gap false gap) :
      IsWritten .type (name ++ gap)
  | last {gap argument : Text} (isGap : Gap false gap) (isType : IsWritten .type argument) :
      IsWritten .arguments (gap ++ (argument ++ [.scalar '>']))
  | more {gap argument arguments : Text} (isGap : Gap false gap) (isType : IsWritten .type argument)
      (behind : IsWritten .arguments arguments) :
      IsWritten .arguments (gap ++ (argument ++ .scalar ',' :: arguments))

/-- The characters that a gap begins with. -/
theorem head_gap {gap : Text} (isGap : Gap false gap) :
    ∀ c ∈ gap.head?, isFlag c = false ∧ c ≠ .scalar '<' ∧ c ≠ .scalar '>' ∧ c ≠ .scalar '=' := by
  cases isGap with
  | nil => nofun
  | blank isBlank _ =>
      rintro c ⟨⟩
      rcases isBlank with rfl | isBlank
      · decide
      · unfold Scan.isBlank at isBlank
        simp only [Bool.or_eq_true, beq_iff_eq] at isBlank
        rcases isBlank with (((((rfl | rfl) | rfl) | rfl) | rfl) | rfl) | rfl <;> decide +kernel
  | line | block =>
      rintro c ⟨⟩
      decide
  | openLine never => cases never
  | openBlock never => cases never

theorem endsName_gap {gap rest : Text} (isGap : Gap false gap) (ends : EndsName rest) :
    EndsName (gap ++ rest) := by
  cases gap with
  | nil => exact ends
  | cons c gap =>
      rintro _ ⟨⟩
      exact (head_gap isGap c rfl).1

theorem endsName_closing {count : Nat} {rest : Text} (ends : EndsName rest) :
    EndsName (closing count ++ rest) := by
  cases count with
  | zero => exact ends
  | succ count =>
      rintro _ ⟨⟩
      decide

/-! ## §4. Cutting a type. -/

/-- No text of a phrase begins with a character that goes on with an opening bracket. -/
def BeginsPhrase (text : Text) : Prop :=
  ∃ c rest, text = c :: rest ∧ c ≠ .scalar '<' ∧ c ≠ .scalar '='

theorem beginsPhrase_name {name : Text} (isName : IsName name) (rest : Text) :
    BeginsPhrase (name ++ rest) := by
  obtain ⟨c, t, rfl, start, _⟩ := isName
  have ne {d : CodePoint} (notFlag : isFlag d = false) : c ≠ d := by
    rintro rfl
    rw [Scan.isFlag_of_start start] at notFlag
    cases notFlag
  exact ⟨c, t ++ rest, rfl, ne (by decide), ne (by decide)⟩

theorem beginsPhrase_gap {gap text : Text} (isGap : Gap false gap) (begins : BeginsPhrase text) :
    BeginsPhrase (gap ++ text) := by
  cases gap with
  | nil => exact begins
  | cons c gap =>
      obtain ⟨_, notLess, _, notAssign⟩ := head_gap isGap c rfl
      exact ⟨c, gap ++ text, rfl, notLess, notAssign⟩

theorem BeginsPhrase.append {text : Text} (begins : BeginsPhrase text) (rest : Text) :
    BeginsPhrase (text ++ rest) := by
  obtain ⟨c, others, rfl, notLess, notAssign⟩ := begins
  exact ⟨c, others ++ rest, rfl, notLess, notAssign⟩

/-- **How a phrase is cut:** the lexemes of its body open some lists of arguments more than they
close, which the run of brackets behind the body closes. -/
structure IsCut (phrase : Phrase) (body : Text) (owed : Nat) (ls : List Lexeme) : Prop where
  begins : BeginsPhrase body
  owes : phrase.opened ≤ owed
  cuts : ∀ rest, EndsName rest → CutsInto body ls rest
  leads : ∀ (tokens : List Token) (depth : Nat), tokens.map Token.lexeme = ls →
    depth + phrase.opened ≠ 0 → Leads (depth + phrase.opened) (depth + owed) tokens

theorem IsCut.name {name : Text} (isName : name.IsTypeName) : IsCut .name name 0 [.word name] where
  begins := List.append_nil name ▸ beginsPhrase_name isName.1 []
  owes := Nat.le_refl 0
  cuts rest ends := cutsInto_name isName.1 ends
  leads tokens depth cut isOpen := by
    obtain ⟨t, rfl, isWord⟩ := List.map_eq_singleton_iff.mp cut
    refine .one isOpen fun p isPunct => ?_
    rw [isWord] at isPunct
    cases isPunct

section

variable {name gap body body' : Text} {owed owed' : Nat} {ls ls' : List Lexeme}

/-- A name with its arguments. -/
theorem IsCut.applied (isName : name.IsTypeName) (isGap : Gap false gap)
    (applies : IsCut .arguments body owed ls) :
    IsCut .name (name ++ (gap ++ .scalar '<' :: body)) owed (.word name :: .punct .lt :: ls) where
  begins := beginsPhrase_name isName.1 _
  owes := Nat.zero_le _
  cuts rest ends := by
    have opener : CutsInto (Punct.text .lt) [.punct .lt] (body ++ rest) := by
      obtain ⟨c, others, rfl, notLess, notAssign⟩ := applies.begins
      have listed : ∀ d ∈ Punct.goingOn .lt, d = .scalar '<' ∨ d = .scalar '=' := by decide +kernel
      refine cutsInto_mark (by decide) ?_
      rintro _ ⟨⟩ goesOn
      exact (listed c goesOn).elim notLess notAssign
    have behind := (cutsInto_gap isGap).append (opener.append (applies.cuts rest ends))
    refine (cutsInto_name isName.1 ?_).append behind
    rw [List.append_assoc]
    refine endsName_gap isGap ?_
    rintro _ ⟨⟩
    decide
  leads tokens depth cut isOpen := by
    obtain ⟨t, _, rfl, isWord, cut⟩ := List.map_eq_cons_iff.mp cut
    obtain ⟨opener, later, rfl, isOpener, cut⟩ := List.map_eq_cons_iff.mp cut
    refine .cons isOpen (.one isOpen fun p isPunct => ?_) ?_
    · rw [isWord] at isPunct
      cases isPunct
    · exact .cons (Nat.succ_ne_zero _) (.opening isOpener depth)
        (applies.leads later depth cut (Nat.succ_ne_zero _))

/-- A gap behind a name settles what it owes. -/
theorem IsCut.settled (isCut : IsCut .name body owed ls) (isGap : Gap false gap) (some : gap ≠ []) :
    IsCut .type (body ++ (closing owed ++ gap)) 0 (ls ++ closers owed) where
  begins := isCut.begins.append _
  owes := Nat.le_refl 0
  cuts rest ends := by
    have run : CutsInto (closing owed) (closers owed) (gap ++ rest) := by
      refine cutsInto_closing ?_
      obtain ⟨c, others, rfl⟩ := List.exists_cons_of_ne_nil some
      rintro _ ⟨⟩
      exact (head_gap isGap c rfl).2.2
    have behind := run.append (cutsInto_gap isGap)
    rw [List.append_nil] at behind
    refine (isCut.cuts _ ?_).append behind
    rw [List.append_assoc]
    exact endsName_closing (endsName_gap isGap ends)
  leads tokens depth cut isOpen := by
    obtain ⟨first, run, rfl, cutFirst, cutRun⟩ := List.map_eq_append_iff.mp cut
    have isOpen' : depth + owed ≠ 0 := by
      change depth ≠ 0 at isOpen
      omega
    exact .append isOpen' (isCut.leads first depth cutFirst isOpen) (leads_closers cutRun isOpen')

/-- The last argument, with the bracket behind it. -/
theorem IsCut.last (isGap : Gap false gap) (isCut : IsCut .type body owed ls) :
    IsCut .arguments (gap ++ body) (owed + 1) ls where
  begins := beginsPhrase_gap isGap isCut.begins
  owes := Nat.succ_le_succ (Nat.zero_le _)
  cuts rest ends := (cutsInto_gap isGap).append (isCut.cuts rest ends)
  leads tokens depth cut isOpen := by
    rw [show depth + (owed + 1) = depth + 1 + owed by omega]
    exact isCut.leads tokens (depth + 1) cut (Nat.succ_ne_zero _)

/-- An argument in front of others. -/
theorem IsCut.more (isGap : Gap false gap) (isCut : IsCut .type body owed ls)
    (behind : IsCut .arguments body' owed' ls') :
    IsCut .arguments (gap ++ (body ++ (closing owed ++ .scalar ',' :: body'))) owed'
      (ls ++ (closers owed ++ .punct .comma :: ls')) where
  begins := beginsPhrase_gap isGap (isCut.begins.append _)
  owes := behind.owes
  cuts rest ends := by
    have comma : CutsInto (Punct.text .comma) [.punct .comma] (body' ++ rest) := by
      have none : Punct.goingOn .comma = [] := by decide +kernel
      refine cutsInto_mark (by decide) fun d _ goesOn => ?_
      rw [none] at goesOn
      cases goesOn
    have run : CutsInto (closing owed) (closers owed) (.scalar ',' :: body' ++ rest) := by
      refine cutsInto_closing ?_
      rintro _ ⟨⟩
      decide
    have later := run.append (comma.append (behind.cuts rest ends))
    refine (cutsInto_gap isGap).append ((isCut.cuts _ ?_).append later)
    rw [List.append_assoc]
    refine endsName_closing ?_
    rintro _ ⟨⟩
    decide
  leads tokens depth cut isOpen := by
    obtain ⟨first, _, rfl, cutFirst, cut⟩ := List.map_eq_append_iff.mp cut
    obtain ⟨run, _, rfl, cutRun, cut⟩ := List.map_eq_append_iff.mp cut
    obtain ⟨comma, later, rfl, isComma, cutLater⟩ := List.map_eq_cons_iff.mp cut
    have isOpen' : depth + 1 + owed ≠ 0 := by omega
    refine .append isOpen' (isCut.leads first (depth + 1) cutFirst (Nat.succ_ne_zero _)) ?_
    refine .append (Nat.succ_ne_zero _) (leads_closers cutRun isOpen') ?_
    refine .cons (Nat.succ_ne_zero _) (.one (Nat.succ_ne_zero _) ?_) (behind.leads later depth cutLater isOpen)
    exact passed_of_lexeme isComma (by decide)

end

/-- **Every phrase is cut.** -/
theorem IsWritten.exists_isCut {phrase : Phrase} {text : Text} (isWritten : IsWritten phrase text) :
    ∃ body owed ls, text = body ++ closing owed ∧ IsCut phrase body owed ls := by
  induction isWritten with
  | plain isName => exact ⟨_, 0, _, (List.append_nil _).symm, .name isName⟩
  | applied isName isGap _ ih =>
      obtain ⟨body, owed, ls, rfl, isCut⟩ := ih
      exact ⟨_, owed, _, by simp, .applied isName isGap isCut⟩
  | @named name gap _ isGap ih =>
      obtain ⟨body, owed, ls, rfl, isCut⟩ := ih
      cases gap with
      | nil =>
          exact ⟨body, owed, ls, List.append_nil _, ⟨isCut.begins, isCut.owes, isCut.cuts, isCut.leads⟩⟩
      | cons c gap => exact ⟨_, 0, _, by simp [closing], .settled isCut isGap (List.cons_ne_nil _ _)⟩
  | last isGap _ ih =>
      obtain ⟨body, owed, ls, rfl, isCut⟩ := ih
      refine ⟨_, owed + 1, _, ?_, .last isGap isCut⟩
      have run : closing (owed + 1) = closing owed ++ [.scalar '>'] := List.replicate_succ'
      rw [run]
      simp
  | more isGap _ _ ih ih' =>
      obtain ⟨body, owed, ls, rfl, isCut⟩ := ih
      obtain ⟨body', owed', ls', rfl, isCut'⟩ := ih'
      exact ⟨_, owed', _, by simp, .more isGap isCut isCut'⟩

/-! ## §5. In front of an equals sign. -/

/-- The lexemes are passed over as a type in front of an equals sign. -/
def ArePassed (ls : List Lexeme) : Prop :=
  ∀ (tokens rest : List Token) (assign : Token), tokens.map Token.lexeme = ls →
    assign.lexeme = .punct .assign → typeWidth true 0 0 (tokens ++ assign :: rest) = tokens.length

theorem isTypeName_of_lexeme {name : Text} (isName : name.IsTypeName) {t : Token}
    (isWord : t.lexeme = .word name) : IsTypeName t := by
  unfold IsTypeName Token.isWord Token.isWordIn
  rw [isWord]
  exact ⟨rfl, isName.2⟩

theorem arePassed_name {name : Text} (isName : name.IsTypeName) : ArePassed [.word name] := by
  intro tokens rest assign cut isAssign
  obtain ⟨t, rfl, isWord⟩ := List.map_eq_singleton_iff.mp cut
  refine typeWidth_exact (.named (.plain (isTypeName_of_lexeme isName isWord) .nil)) ?_
  rintro _ ⟨⟩
  rw [Token.isOneOf, isAssign]
  rfl

theorem arePassed_applied {name body : Text} {owed : Nat} {ls : List Lexeme} (isName : name.IsTypeName)
    (applies : IsCut .arguments body owed ls) :
    ArePassed (.word name :: .punct .lt :: ls ++ closers owed) := by
  intro tokens rest assign cut isAssign
  obtain ⟨first, run, rfl, cut, cutRun⟩ := List.map_eq_append_iff.mp cut
  obtain ⟨t, _, rfl, isWord, cut⟩ := List.map_eq_cons_iff.mp cut
  obtain ⟨opener, inner, rfl, isOpener, cut⟩ := List.map_eq_cons_iff.mp cut
  have owes : 0 + owed ≠ 0 := by
    have owes : 1 ≤ owed := applies.owes
    omega
  have leads : Leads 1 0 (inner ++ run) :=
    .append owes (applies.leads inner 0 cut (Nat.succ_ne_zero _)) (leads_closers cutRun owes)
  have isName' := isTypeName_of_lexeme isName isWord
  show typeWidth true 0 0 (t :: (opener :: (inner ++ run) ++ assign :: rest)) = _
  rw [typeWidth_name isName', ← List.nil_append (opener :: (inner ++ run)),
    namedTypeWidth_applied isName' .nil isOpener leads, typeWidth_skip,
    typeWidth_stop isAssign (by decide), Nat.zero_add]
  rfl

/-- A list of arguments ends with a closing bracket. -/
theorem IsWritten.getLast?_arguments {text : Text} (isWritten : IsWritten .arguments text) :
    text.getLast? = some (.scalar '>') := by
  obtain ⟨body, owed, ls, rfl, isCut⟩ := isWritten.exists_isCut
  obtain ⟨fewer, rfl⟩ := Nat.exists_eq_add_of_le' (show 1 ≤ owed from isCut.owes)
  have run : closing (fewer + 1) = closing fewer ++ [.scalar '>'] := List.replicate_succ'
  rw [run, ← List.append_assoc, List.getLast?_concat]

/-- **A type that does not end with a closing bracket** is cut into lexemes that are passed over
as a type in front of an equals sign. -/
theorem IsWritten.exists_lexemes {text : Text} (isWritten : IsWritten .type text)
    (ends : text.getLast? ≠ some (.scalar '>')) :
    ∃ ls, ls ≠ [] ∧ ArePassed ls ∧ ∀ rest, EndsName rest → CutsInto text ls rest := by
  cases isWritten with
  | @named name gap isNamed isGap =>
  cases isNamed with
  | plain isName =>
      refine ⟨_, List.cons_ne_nil _ _, arePassed_name isName, fun rest endsName => ?_⟩
      exact (cutsInto_name isName.1 (endsName_gap isGap endsName)).append (cutsInto_gap isGap)
  | @applied name inFront arguments isName isGap' applies =>
      have some : gap ≠ [] := by
        rintro rfl
        refine ends ?_
        rw [List.append_nil, List.getLast?_append, List.getLast?_append, List.getLast?_cons,
          applies.getLast?_arguments]
        rfl
      obtain ⟨body, owed, ls, rfl, isCut⟩ := applies.exists_isCut
      refine ⟨_, List.cons_ne_nil _ _, arePassed_applied isName isCut, fun rest endsName => ?_⟩
      have cuts := ((isCut.applied isName isGap').settled isGap some).cuts rest endsName
      simp only [List.append_assoc, List.cons_append] at cuts ⊢
      exact cuts

end Lookahead

end StackLint
