/-
  StackLint.Proofs.Print.Phrase
  ─────────────────────────────
  **WHAT PRINTED EXPRESSIONS LOOK LIKE.**

  The lexemes of an expression are a `Phrase`: they begin with a lexeme that begins
  an operand, they close the brackets that they open, and a slash stands among them
  only where an operand has ended, so none is taken for a regular expression.
-/
import Mathlib.Data.List.Chain
import Mathlib.Data.List.ReduceOption
import StackLint.Proofs.Parse.TypeExtent
import StackLint.Proofs.Print.Shape
import StackLint.Proofs.Token.Nesting
import StackLint.Proofs.Token.Resume

namespace StackLint

/-! ## §1. Lexemes. -/

namespace Lexeme

/-- The lexeme can begin an expression. -/
def begins : Lexeme → Bool
  | .word _ | .number _ | .string _ _ => true
  | .punct p => [Punct.openParen, .openBracket, .openBrace, .bang, .tilde, .plus, .minus].contains p
  | _ => false

/-- The lexeme can begin an operand that no operator stands in front of. -/
def beginsOperand : Lexeme → Bool
  | .word name => (UnaryOp.words.lookup name).isNone
  | .number _ | .string _ _ => true
  | .punct p => p.opensGroup
  | _ => false

/-- The lexeme is read back as it is written. -/
def IsWritten : Lexeme → Prop
  | .word name => IsName name
  | .number raw => IsInteger raw
  | .string quote value => Scan.Plain quote value
  | .punct _ => True
  | _ => False

theorem isWritten_punct (p : Punct) : (Lexeme.punct p).IsWritten :=
  trivial

/-- Neither an angle bracket nor an arrow, nor a word that makes more than a name of a
type. -/
def isHarmless : Lexeme → Bool
  | .word name => !(["import", "extends", "is"] : List Text).contains name
  | .number _ | .string _ _ => true
  | .punct p => p != .lt && p != .arrow
  | _ => false

/-- The lexeme is no bracket of any kind, and harmless. -/
def isInert : Lexeme → Bool
  | .punct p => (Lexeme.punct p).isHarmless && !p.opensGroup && !p.closesGroup
  | l => l.isHarmless

theorem isHarmless_of_isInert {l : Lexeme} (inert : l.isInert = true) : l.isHarmless = true := by
  cases l with
  | punct p =>
      unfold isInert at inert
      simp only [Bool.and_eq_true] at inert
      exact inert.1.1
  | _ => exact inert

theorem isFlat_of_isInert {t : Token} (inert : t.lexeme.isInert = true) : t.isFlat := by
  unfold Token.isFlat Token.opensGroup Token.closesGroup
  cases isLexeme : t.lexeme with
  | punct p =>
      rw [isLexeme, isInert] at inert
      simp only [Bool.and_eq_true, Bool.not_eq_true'] at inert
      exact ⟨inert.1.2, inert.2⟩
  | _ => exact ⟨rfl, rfl⟩

/-- The lexeme leaves the open braces as they are. -/
theorem nest?_of_isInert {l : Lexeme} (inert : l.isInert = true) (stack : List Scan.OpenBrace) :
    Scan.nest? stack l = some stack := by
  cases l with
  | punct p => cases p <;> first | rfl | cases inert
  | word | number | string => rfl
  | _ => cases inert

theorem isSlash_of_begins {l : Lexeme} (begins : l.begins = true) : l.isSlash = false := by
  cases l with
  | punct p => cases p <;> first | rfl | cases begins
  | word | number | string => rfl
  | _ => cases begins

end Lexeme

theorem IsPlainName.isWritten {name : Text} (plain : IsPlainName name) :
    (Lexeme.word name).IsWritten :=
  plain.name

/-- A slash behind a plain name divides. -/
theorem IsPlainName.regexAllowed_eq_false {name : Text} (plain : IsPlainName name) :
    Scan.regexAllowed (some (.word name)) = false := by
  refine Bool.eq_false_iff.mpr fun allowed => ?_
  have listed : ∀ t ∈ Scan.operandWords, ∃ w ∈ reservedWords, t = Text.ofString w := by
    decide
  obtain ⟨w, isReserved, same⟩ := listed name (List.contains_iff_mem.mp allowed)
  exact plain.plain w isReserved same

/-- A plain name is none of the words that mean something. -/
theorem IsPlainName.lookup_eq_none {name : Text} (plain : IsPlainName name) {α : Type}
    {words : List (Text × α)}
    (listed : ∀ entry ∈ words, ∃ w ∈ reservedWords, entry.1 = Text.ofString w) :
    words.lookup name = none := by
  refine List.lookup_eq_none_iff.mpr fun entry inside => ?_
  obtain ⟨w, isReserved, same⟩ := listed entry inside
  refine bne_iff_ne.mpr ?_
  rw [same]
  exact plain.plain w isReserved

theorem IsPlainName.isInert {name : Text} (plain : IsPlainName name) :
    (Lexeme.word name).isInert = true := by
  show (!(["import", "extends", "is"] : List Text).contains name) = true
  rw [Bool.not_eq_true', Bool.eq_false_iff]
  intro listed
  have reserved : ∀ t ∈ (["import", "extends", "is"] : List Text),
      ∃ w ∈ reservedWords, t = Text.ofString w := by
    decide
  obtain ⟨w, isReserved, same⟩ := reserved name (List.contains_iff_mem.mp listed)
  exact plain.plain w isReserved same

/-- A word of the language is a name. -/
theorem IsName.of_flags {c : CodePoint} {rest : Text} (start : c.isWordCharacter = true)
    (noDigit : c.isDigit = false) (goesOn : rest.all Scan.isFlag = true) : IsName (c :: rest) :=
  ⟨c, rest, rfl, .inr ⟨start, noDigit⟩, goesOn⟩

theorem BinaryOp.lexeme_isWritten {op : BinaryOp} (notComma : op ≠ .comma) :
    op.lexeme.IsWritten := by
  cases op with
  | instanceOf | membership => exact .of_flags (by decide) (by decide) (by decide)
  | comma => exact absurd rfl notComma
  | _ => exact Lexeme.isWritten_punct _

theorem UnaryOp.lexeme_isWritten {op : UnaryOp} (isPrefix : op ∈ prefixOperators) :
    op.lexeme.IsWritten := by
  cases op with
  | typeOf | void | delete => exact .of_flags (by decide) (by decide) (by decide)
  | not | bitNot | plus | minus => exact Lexeme.isWritten_punct _
  | increment | decrement | await | yield => exact absurd isPrefix (by decide)

theorem BinaryOp.lexeme_isInert {op : BinaryOp} (notLess : op ≠ .lt) : op.lexeme.isInert = true := by
  cases op with
  | lt => exact absurd rfl notLess
  | _ => rfl

theorem UnaryOp.lexeme_isInert (op : UnaryOp) : op.lexeme.isInert = true := by
  cases op <;> rfl

theorem AssignOp.lexeme_isInert (op : AssignOp) : (Lexeme.punct op.punct).isInert = true := by
  cases op <;> rfl

theorem UnaryOp.lexeme_begins {op : UnaryOp} (isPrefix : op ∈ prefixOperators) :
    op.lexeme.begins = true := by
  cases op with
  | increment | decrement | await | yield => exact absurd isPrefix (by decide)
  | _ => rfl

/-! ## §2. Brackets. -/

/-- The brackets among the lexemes are balanced, and all else is harmless. -/
structure Contained (ls : List Lexeme) : Prop where
  balanced : ∀ tokens : List Token, tokens.map Token.lexeme = ls → Lookahead.IsBalanced tokens
  /-- The same braces are open behind the lexemes as in front of them. -/
  nests : ∀ stack, ls.foldlM Scan.nest? stack = some stack
  harmless : ∀ l ∈ ls, l.isHarmless = true

namespace Contained

variable {l : Lexeme} {ls ls' : List Lexeme}

theorem nil : Contained [] where
  balanced := by
    intro tokens isNil
    rw [List.map_eq_nil_iff.mp isNil]
    exact .nil
  nests _ := rfl
  harmless := List.forall_mem_nil _

theorem cons (inert : l.isInert = true) (contained : Contained ls) : Contained (l :: ls) where
  balanced := by
    intro tokens same
    obtain ⟨t, later, rfl, isFirst, others⟩ := List.map_eq_cons_iff.mp same
    rw [← isFirst] at inert
    exact .flat (Lexeme.isFlat_of_isInert inert) (contained.balanced later others)
  nests := by
    intro stack
    rw [List.foldlM_cons, Lexeme.nest?_of_isInert inert]
    exact contained.nests stack
  harmless := List.forall_mem_cons.mpr ⟨Lexeme.isHarmless_of_isInert inert, contained.harmless⟩

theorem append (left : Contained ls) (right : Contained ls') : Contained (ls ++ ls') where
  balanced := by
    intro tokens same
    obtain ⟨front, back, rfl, isFront, isBack⟩ := List.map_eq_append_iff.mp same
    exact (left.balanced front isFront).append (right.balanced back isBack)
  nests := by
    intro stack
    rw [List.foldlM_append, left.nests]
    exact right.nests stack
  harmless := List.forall_mem_append.mpr ⟨left.harmless, right.harmless⟩

/-- A group. -/
theorem enclosed {opening closing : Punct} (opens : opening.opensGroup = true)
    (closes : closing.closesGroup = true) (pair : opening = .openBrace ↔ closing = .closeBrace)
    (inner : Contained ls) : Contained (.punct opening :: (ls ++ [.punct closing])) where
  balanced := by
    intro tokens same
    obtain ⟨opener, others, rfl, isOpener, isRest⟩ := List.map_eq_cons_iff.mp same
    obtain ⟨inside, back, rfl, isInside, isBack⟩ := List.map_eq_append_iff.mp isRest
    obtain ⟨closer, rfl, isCloser⟩ := List.map_eq_singleton_iff.mp isBack
    refine .whole (Lookahead.opensGroup_of_lexeme isOpener opens) (inner.balanced inside isInside) ?_
    unfold Token.closesGroup
    rw [isCloser]
    exact closes
  nests := by
    intro stack
    obtain ⟨within, opened, closed⟩ : ∃ within, Scan.nest? stack (.punct opening) = some within
        ∧ Scan.nest? within (.punct closing) = some stack := by
      by_cases isBrace : opening = .openBrace
      · rw [isBrace, pair.mp isBrace]
        exact ⟨.plain :: stack, rfl, rfl⟩
      · have other : closing ≠ .closeBrace := fun same => isBrace (pair.mpr same)
        refine ⟨stack, ?_, ?_⟩
        · cases opening <;> first | exact absurd rfl isBrace | rfl | cases opens
        · cases closing <;> first | exact absurd rfl other | rfl | cases closes
    rw [List.foldlM_cons, opened]
    show (ls ++ [Lexeme.punct closing]).foldlM Scan.nest? within = some stack
    rw [List.foldlM_append, inner.nests]
    show [Lexeme.punct closing].foldlM Scan.nest? within = some stack
    rw [List.foldlM_cons, closed]
    rfl
  harmless := by
    refine List.forall_mem_cons.mpr ⟨?_, List.forall_mem_append.mpr ⟨inner.harmless, ?_⟩⟩
    · cases opening <;> first | rfl | cases opens
    · refine List.forall_mem_singleton.mpr ?_
      cases closing <;> first | rfl | cases closes

end Contained

/-! ## §3. Phrases. -/

/-- The lexemes begin and end as an expression does, their brackets are balanced, and there
is no regular expression among them. -/
structure Phrase (ls : List Lexeme) : Prop where
  begins : ∃ l rest, ls = l :: rest ∧ l.begins = true
  ends : ∀ l ∈ ls.getLast?, Scan.regexAllowed (some l) = false
  written : ∀ l ∈ ls, l.IsWritten
  chain : ls.IsChain Lexeme.Precedes
  contained : Contained ls

namespace Phrase

variable {l : Lexeme} {ls ls' : List Lexeme} {parts : List (List Lexeme)}

theorem ne_nil (phrase : Phrase ls) : ls ≠ [] := by
  obtain ⟨l, rest, rfl, _⟩ := phrase.begins
  exact List.cons_ne_nil _ _

/-- No slash stands at the head of a phrase. -/
theorem head_isSlash (phrase : Phrase ls) : ∀ l ∈ ls.head?, l.isSlash = false := by
  obtain ⟨l, rest, rfl, begins⟩ := phrase.begins
  rintro _ ⟨⟩
  exact Lexeme.isSlash_of_begins begins

theorem single (begins : l.begins = true) (ends : Scan.regexAllowed (some l) = false)
    (written : l.IsWritten) (inert : l.isInert = true) : Phrase [l] where
  begins := ⟨l, [], rfl, begins⟩
  ends := by
    rintro _ ⟨⟩
    exact ends
  written := List.forall_mem_singleton.mpr written
  chain := List.isChain_singleton l
  contained := .cons inert .nil

/-- A slash may stand behind a phrase. -/
theorem precedes (phrase : Phrase ls) (m : Lexeme) : ∀ l ∈ ls.getLast?, l.Precedes m :=
  fun l isLast _ => phrase.ends l isLast

/-- No slash stands behind any lexeme at the head of a phrase. -/
theorem precedes_head (phrase : Phrase ls) (l : Lexeme) : ∀ m ∈ ls.head?, l.Precedes m := by
  intro m isHead isSlash
  rw [phrase.head_isSlash m isHead] at isSlash
  cases isSlash

/-- An operator in front of a phrase. -/
theorem cons (begins : l.begins = true) (written : l.IsWritten) (inert : l.isInert = true)
    (phrase : Phrase ls) : Phrase (l :: ls) where
  begins := ⟨l, ls, rfl, begins⟩
  ends := by
    obtain ⟨m, rest, rfl, _⟩ := phrase.begins
    rw [List.getLast?_cons_cons]
    exact phrase.ends
  written := List.forall_mem_cons.mpr ⟨written, phrase.written⟩
  chain := List.isChain_cons.mpr ⟨phrase.precedes_head l, phrase.chain⟩
  contained := .cons inert phrase.contained

/-- Phrases one behind the other. -/
theorem append (left : Phrase ls) (right : Phrase ls') : Phrase (ls ++ ls') where
  begins := by
    obtain ⟨l, rest, rfl, begins⟩ := left.begins
    exact ⟨l, rest ++ ls', rfl, begins⟩
  ends := by
    rw [List.getLast?_append_of_ne_nil _ right.ne_nil]
    exact right.ends
  written := List.forall_mem_append.mpr ⟨left.written, right.written⟩
  chain := List.isChain_append.mpr
    ⟨left.chain, right.chain, fun l _ m isHead => right.precedes_head l m isHead⟩
  contained := left.contained.append right.contained

/-- An operator between phrases. -/
theorem between (left : Phrase ls) (written : l.IsWritten) (inert : l.isInert = true)
    (right : Phrase ls') : Phrase (ls ++ l :: ls') where
  begins := by
    obtain ⟨m, rest, rfl, begins⟩ := left.begins
    exact ⟨m, rest ++ l :: ls', rfl, begins⟩
  ends := by
    obtain ⟨m, rest, rfl, _⟩ := right.begins
    rw [List.getLast?_append_of_ne_nil _ (List.cons_ne_nil _ _), List.getLast?_cons_cons]
    exact right.ends
  written := List.forall_mem_append.mpr
    ⟨left.written, List.forall_mem_cons.mpr ⟨written, right.written⟩⟩
  chain := by
    refine List.isChain_append.mpr ⟨left.chain, ?_, ?_⟩
    · exact List.isChain_cons.mpr ⟨right.precedes_head l, right.chain⟩
    · rintro m isLast _ ⟨⟩
      exact left.precedes l m isLast
  contained := left.contained.append (.cons inert right.contained)

/-- What stands in brackets: a phrase, or nothing. -/
theorem enclosed {opening closing : Punct} (opens : opening.opensGroup = true)
    (closes : closing.closesGroup = true) (pair : opening = .openBrace ↔ closing = .closeBrace)
    (inner : ls ≠ [] → Phrase ls) : Phrase (.punct opening :: (ls ++ [.punct closing])) where
  begins := by
    refine ⟨_, _, rfl, ?_⟩
    cases opening <;> first | rfl | cases opens
  ends := by
    rw [← List.cons_append, List.getLast?_concat]
    rintro _ ⟨⟩
    show (!closing.closesGroup && _ && _) = false
    rw [closes]
    rfl
  written := by
    refine List.forall_mem_cons.mpr ⟨?_, List.forall_mem_append.mpr ⟨?_, ?_⟩⟩
    · exact Lexeme.isWritten_punct opening
    · intro l inside
      exact (inner (List.ne_nil_of_mem inside)).written l inside
    · exact List.forall_mem_singleton.mpr (Lexeme.isWritten_punct closing)
  chain := by
    have noSlash : (Lexeme.punct closing).isSlash = false := by
      cases closing <;> first | rfl | cases closes
    have closed (l : Lexeme) : l.Precedes (.punct closing) := by
      intro isSlash
      rw [noSlash] at isSlash
      cases isSlash
    cases ls with
    | nil => exact List.isChain_pair.mpr (closed _)
    | cons m rest =>
        have phrase := inner (List.cons_ne_nil _ _)
        refine List.isChain_cons.mpr ⟨phrase.precedes_head _, List.isChain_append.mpr ?_⟩
        refine ⟨phrase.chain, List.isChain_singleton _, ?_⟩
        rintro l _ _ ⟨⟩
        exact closed l
  contained := by
    refine .enclosed opens closes pair ?_
    cases ls with
    | nil => exact .nil
    | cons m rest => exact (inner (List.cons_ne_nil _ _)).contained

/-- Phrases with commas between them are a phrase, unless there are none. -/
theorem commas (each : ∀ ls ∈ parts, Phrase ls) (nonempty : parts ≠ []) :
    Phrase (StackLint.commas parts) := by
  induction parts with
  | nil => exact absurd rfl nonempty
  | cons ls parts ih =>
      have first := each ls (List.mem_cons_self ..)
      cases parts with
      | nil =>
          show Phrase (List.intercalate _ [ls])
          rw [List.intercalate_singleton]
          exact first
      | cons ls' parts =>
          have others := ih (fun ls inside => each ls (List.mem_cons_of_mem _ inside))
            (List.cons_ne_nil _ _)
          show Phrase (List.intercalate _ (ls :: ls' :: parts))
          rw [List.intercalate_cons_cons, List.append_assoc]
          exact first.between (Lexeme.isWritten_punct _) rfl others

/-- A list in brackets. -/
theorem bracketed {opening closing : Punct} (opens : opening.opensGroup = true)
    (closes : closing.closesGroup = true) (pair : opening = .openBrace ↔ closing = .closeBrace)
    (each : ∀ ls ∈ parts, Phrase ls) : Phrase (StackLint.bracketed opening closing parts) := by
  refine enclosed opens closes pair fun nonempty => commas each ?_
  rintro rfl
  exact nonempty rfl

end Phrase

/-! ## §4. Expressions. -/

/-- The values of elements without holes. -/
theorem reduceOption_map_some {α β : Type} (f : α → β) (elements : List α) :
    ((elements.map some).map (Option.map f)).reduceOption = elements.map f := by
  induction elements with
  | nil => rfl
  | cons e elements ih =>
      rw [List.map_cons, List.map_cons, Option.map_some, List.reduceOption_cons_of_some, ih]
      rfl

theorem IsPlainName.phrase {name : Text} (plain : IsPlainName name) : Phrase [.word name] :=
  .single rfl plain.regexAllowed_eq_false plain.isWritten plain.isInert

/-- The member of an object is a phrase. -/
theorem Phrase.member {name : Text} {value : Shape} (plain : IsPlainName name)
    (phrase : Phrase value.lexemes) : Phrase (Shape.member name value).lexemes := by
  simp only [Shape.member, Node.lexemes_mk, Form.map, Form.lexemes]
  exact plain.phrase.between (Lexeme.isWritten_punct _) rfl phrase

/-- **A printed expression is a phrase.** -/
theorem Printable.phrase {e : Shape} (printable : Printable e) : Phrase e.lexemes := by
  have members {es : List Shape} (each : ∀ e ∈ es, Phrase e.lexemes) :
      ∀ ls ∈ es.map Node.lexemes, Phrase ls := by
    intro ls inside
    obtain ⟨e, isMember, rfl⟩ := List.mem_map.mp inside
    exact each e isMember
  induction printable with
  | identifier plain =>
      simp only [Node.lexemes_mk, Form.map, Form.lexemes]
      exact plain.phrase
  | string plain =>
      simp only [Node.lexemes_mk, Form.map, Form.lexemes]
      exact .single rfl rfl plain rfl
  | number digits =>
      simp only [Node.lexemes_mk, Form.map, Form.lexemes]
      exact .single rfl rfl digits rfl
  | property _ _ plain object =>
      simp only [Node.lexemes_mk, Form.map, Form.lexemes]
      exact object.between (Lexeme.isWritten_punct _) rfl plain.phrase
  | element _ _ _ object index =>
      simp only [Node.lexemes_mk, Form.map, Form.lexemes]
      exact object.append (.bracketed rfl rfl (by decide) (List.forall_mem_singleton.mpr index))
  | call _ _ _ callee each =>
      simp only [Node.lexemes_mk, Form.map, Form.lexemes]
      exact callee.append (.bracketed rfl rfl (by decide) (members each))
  | construction _ _ _ callee each =>
      simp only [Node.lexemes_mk, Form.map, Form.lexemes]
      refine .cons rfl ?_ rfl (callee.append (.bracketed rfl rfl (by decide) (members each)))
      exact .of_flags (by decide) (by decide) (by decide)
  | array _ each =>
      simp only [Node.lexemes_mk, Form.map, Form.lexemes, reduceOption_map_some]
      exact .bracketed rfl rfl (by decide) (members each)
  | object plain _ each =>
      simp only [Node.lexemes_mk, Form.map, Form.lexemes]
      refine .bracketed rfl rfl (by decide) (members fun e inside => ?_)
      obtain ⟨m, isMember, rfl⟩ := List.mem_map.mp inside
      exact .member (plain m isMember) (each m isMember)
  | parenthesized _ inner =>
      simp only [Node.lexemes_mk, Form.map, Form.lexemes]
      exact .bracketed rfl rfl (by decide) (List.forall_mem_singleton.mpr inner)
  | unary isPrefix _ _ operand =>
      simp only [Node.lexemes_mk, Form.map, Form.lexemes]
      exact .cons (UnaryOp.lexeme_begins isPrefix) (UnaryOp.lexeme_isWritten isPrefix)
        (UnaryOp.lexeme_isInert _) operand
  | binary notLess notComma _ _ _ _ left right =>
      simp only [Node.lexemes_mk, Form.map, Form.lexemes]
      exact left.between (BinaryOp.lexeme_isWritten notComma) (BinaryOp.lexeme_isInert notLess) right
  | conditional _ _ _ _ test consequent alternate =>
      simp only [Node.lexemes_mk, Form.map, Form.lexemes]
      exact test.between (Lexeme.isWritten_punct _) rfl
        (consequent.between (Lexeme.isWritten_punct _) rfl alternate)
  | assignment _ _ _ target value =>
      simp only [Node.lexemes_mk, Form.map, Form.lexemes]
      exact target.between (Lexeme.isWritten_punct _) (AssignOp.lexeme_isInert _) value

/-- What can be the object of an access begins with no operator. -/
theorem Printable.beginsOperand {e : Shape} (printable : Printable e) (strong : 14 ≤ e.strength) :
    ∃ l rest, e.lexemes = l :: rest ∧ l.beginsOperand = true := by
  induction printable with
  | identifier plain =>
      rw [Node.lexemes_mk]
      refine ⟨_, _, rfl, ?_⟩
      show (UnaryOp.words.lookup _).isNone = true
      rw [plain.lookup_eq_none (by decide)]
      rfl
  | string | number | construction | array | object | parenthesized =>
      rw [Node.lexemes_mk]
      exact ⟨_, _, rfl, rfl⟩
  | property _ tight _ object | element _ tight _ object _ | call _ tight _ object _ =>
      obtain ⟨l, rest, isFirst, begins⟩ := object tight
      simp only [Node.lexemes_mk, Form.map, Form.lexemes]
      rw [isFirst]
      exact ⟨l, _, rfl, begins⟩
  | @binary op =>
      have weak : op.precedence < 14 := by cases op <;> decide
      exact absurd strong (Nat.not_le_of_lt weak)
  | unary => exact absurd (show 14 ≤ 13 from strong) (by decide)
  | conditional | assignment => exact absurd (show 14 ≤ 0 from strong) (by decide)

end StackLint
