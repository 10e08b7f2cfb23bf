/-
  StackLint.Proofs.Parse.TypeExtent
  ─────────────────────────────────
  **WHERE A TYPE ENDS.**

  Types are passed over in one loop that knows two states, with a type wanted and behind
  one, and two scans that pass over bracket groups and over type arguments.  For a grammar
  of types, the loop stops exactly behind the type.

  The angle brackets need the most care.  The last token of a type may close lists of type
  arguments around it as well, as the second half of `>>` does in `Map<K, Set<V>>`.  So the
  grammar counts how many closings a phrase has beyond its own lists: it *owes* them, and
  the list around it takes one.
-/
import StackLint.Proofs.Enclosed.Lookahead
import StackLint.Proofs.Parse.Reads

namespace StackLint

/-- The token closes a bracket group. -/
def Token.closesGroup (t : Token) : Bool :=
  match t.lexeme with
  | .punct p => p.closesGroup
  | _ => false

/-- The token is no bracket. -/
def Token.isFlat (t : Token) : Prop :=
  t.opensGroup = false ∧ t.closesGroup = false

namespace Lookahead

open StackLint.Parser (groupWidth isWord_of_isWordIn)

/-! ## §1. Balanced brackets. -/

/-- Every bracket among the tokens is closed among them.  Which bracket closes which makes
no difference. -/
inductive IsBalanced : List Token → Prop
  | nil : IsBalanced []
  | flat {t : Token} {later : List Token} (isFlat : t.isFlat) (behind : IsBalanced later) :
      IsBalanced (t :: later)
  | group {opener closer : Token} {inner later : List Token} (opens : opener.opensGroup = true)
      (inside : IsBalanced inner) (closes : closer.closesGroup = true)
      (behind : IsBalanced later) : IsBalanced (opener :: (inner ++ closer :: later))

namespace IsBalanced

variable {tokens tokens' : List Token} {opener closer t : Token}

theorem append (first : IsBalanced tokens) (second : IsBalanced tokens') :
    IsBalanced (tokens ++ tokens') := by
  induction first with
  | nil => exact second
  | flat isFlat _ ih => exact .flat isFlat ih
  | group opens inside closes _ _ ih =>
      rw [List.cons_append, List.append_assoc]
      exact .group opens inside closes ih

theorem one (isFlat : t.isFlat) : IsBalanced [t] :=
  .flat isFlat .nil

/-- A single group. -/
theorem whole (opens : opener.opensGroup = true) (inside : IsBalanced tokens)
    (closes : closer.closesGroup = true) : IsBalanced (opener :: (tokens ++ [closer])) :=
  .group opens inside closes .nil

end IsBalanced

theorem exists_punct_of_opensGroup {t : Token} (opens : t.opensGroup = true) :
    ∃ p : Punct, t.lexeme = .punct p ∧ p.opensGroup = true := by
  unfold Token.opensGroup at opens
  split at opens
  · next p isPunct => exact ⟨p, isPunct, opens⟩
  · cases opens

theorem exists_punct_of_closesGroup {t : Token} (closes : t.closesGroup = true) :
    ∃ p : Punct, t.lexeme = .punct p ∧ p.closesGroup = true := by
  unfold Token.closesGroup at closes
  split at closes
  · next p isPunct => exact ⟨p, isPunct, closes⟩
  · cases closes

theorem groupWidth_opener {t : Token} (opens : t.opensGroup = true) (depth : Nat)
    (rest : List Token) : groupWidth depth (t :: rest) = groupWidth (depth + 1) rest + 1 := by
  obtain ⟨p, isPunct, opens⟩ := exists_punct_of_opensGroup opens
  rw [groupWidth, isPunct]
  dsimp only
  rw [if_pos opens]

theorem groupWidth_closer {t : Token} (closes : t.closesGroup = true) (depth : Nat)
    (rest : List Token) : groupWidth depth (t :: rest)
      = if depth ≤ 1 then 1 else groupWidth (depth - 1) rest + 1 := by
  obtain ⟨p, isPunct, closes⟩ := exists_punct_of_closesGroup closes
  have noOpener : p.opensGroup = false := by cases p <;> first | rfl | cases closes
  rw [groupWidth, isPunct]
  dsimp only
  rw [noOpener, if_neg Bool.false_ne_true, if_pos closes]

theorem groupWidth_flat {t : Token} (isFlat : t.isFlat) (depth : Nat) (rest : List Token) :
    groupWidth depth (t :: rest) = groupWidth depth rest + 1 := by
  obtain ⟨noOpener, noCloser⟩ := isFlat
  unfold Token.opensGroup at noOpener
  unfold Token.closesGroup at noCloser
  rw [groupWidth]
  split
  · next p isPunct =>
      rw [isPunct] at noOpener noCloser
      rw [if_neg (Bool.eq_false_iff.mp noOpener), if_neg (Bool.eq_false_iff.mp noCloser)]
  · rfl

/-- Inside a group, balanced tokens are passed over. -/
theorem groupWidth_balanced {tokens : List Token} (balanced : IsBalanced tokens) (depth : Nat)
    (rest : List Token) :
    groupWidth (depth + 1) (tokens ++ rest) = groupWidth (depth + 1) rest + tokens.length := by
  induction balanced generalizing depth rest with
  | nil => rfl
  | flat isFlat _ ih =>
      rw [List.cons_append, groupWidth_flat isFlat, ih, List.length_cons, Nat.add_assoc]
  | @group opener closer inner later opens _ closes _ ihInside ihBehind =>
      rw [List.cons_append, List.append_assoc, List.cons_append, groupWidth_opener opens, ihInside,
        groupWidth_closer closes, if_neg (by omega), Nat.add_sub_cancel, ihBehind]
      simp only [List.length_cons, List.length_append]
      omega

/-- **A group reaches to the bracket that closes it.** -/
theorem groupWidth_group {opener closer : Token} {inner : List Token}
    (opens : opener.opensGroup = true) (inside : IsBalanced inner)
    (closes : closer.closesGroup = true) (rest : List Token) :
    groupWidth 0 (opener :: (inner ++ closer :: rest)) = inner.length + 2 := by
  rw [groupWidth_opener opens, groupWidth_balanced inside, groupWidth_closer closes,
    if_pos (Nat.le_refl 1)]
  omega

/-! ## §2. Types. -/

/-- Words that can stand in front of a name to make another type of it. -/
def nameOperators : List Text :=
  ["keyof", "readonly", "typeof"]

/-- The token is the first word of the name of a type. -/
def IsTypeName (t : Token) : Prop :=
  t.isWord = true ∧ t.isWordIn ("import" :: typeOperatorWords) = false

/-- Dots with words behind them. -/
inductive IsPath : List Token → Prop
  | nil : IsPath []
  | cons {dot name : Token} {path : List Token} (isDot : dot.lexeme = .punct .dot)
      (isWord : name.isWord = true) (later : IsPath path) : IsPath (dot :: name :: path)

/-- What a phrase of the grammar is. -/
inductive Phrase where
  /-- A dotted name, with or without type arguments. -/
  | name
  | type
  /-- Type arguments from behind the opening bracket to the closing one. -/
  | arguments
  deriving DecidableEq

/-- **The grammar of types.**  The last token of the phrase closes `owed` lists of type
arguments more than begin in it. -/
inductive Derives : (phrase : Phrase) → (owed : Nat) → List Token → Prop
  | plain {first : Token} {path : List Token} (isName : IsTypeName first) (isPath : IsPath path) :
      Derives .name 0 (first :: path)
  | applied {owed : Nat} {first opener : Token} {path arguments : List Token}
      (isName : IsTypeName first) (isPath : IsPath path) (opens : opener.lexeme = .punct .lt)
      (applies : Derives .arguments owed arguments) :
      Derives .name owed (first :: (path ++ opener :: arguments))
  /-- The last argument, with a token that closes the list and `owed` ones around it. -/
  | last {owed : Nat} {closer : Token} {p : Punct} {argument : List Token}
      (isType : Derives .type 0 argument) (isPunct : closer.lexeme = .punct p)
      (closes : closedAngles p = owed + 1) : Derives .arguments owed (argument ++ [closer])
  /-- The last argument, whose own last token closes the list too. -/
  | fused {owed : Nat} {argument : List Token} (isType : Derives .type (owed + 1) argument) :
      Derives .arguments owed argument
  | more {owed : Nat} {comma : Token} {argument arguments : List Token}
      (isType : Derives .type 0 argument) (isComma : comma.lexeme = .punct .comma)
      (behind : Derives .arguments owed arguments) :
      Derives .arguments owed (argument ++ comma :: arguments)
  | named {owed : Nat} {tokens : List Token} (isName : Derives .name owed tokens) :
      Derives .type owed tokens
  | literal {t : Token} (isLiteral : t.isString = true ∨ t.isNumber = true) : Derives .type 0 [t]
  | group {opener closer : Token} {inner : List Token}
      (opens : opener.lexeme = .punct .openBracket ∨ opener.lexeme = .punct .openBrace)
      (inside : IsBalanced inner) (closes : closer.closesGroup = true) :
      Derives .type 0 (opener :: (inner ++ [closer]))
  | parenthesized {opener closer : Token} {inner : List Token}
      (opens : opener.lexeme = .punct .openParen) (inside : Derives .type 0 inner)
      (closes : closer.closesGroup = true) : Derives .type 0 (opener :: (inner ++ [closer]))
  | function {owed : Nat} {opener closer arrow : Token} {parameters result : List Token}
      (opens : opener.lexeme = .punct .openParen) (inside : IsBalanced parameters)
      (closes : closer.closesGroup = true) (isArrow : arrow.lexeme = .punct .arrow)
      (isType : Derives .type owed result) :
      Derives .type owed (opener :: (parameters ++ closer :: arrow :: result))
  | operator {owed : Nat} {t : Token} {operand : List Token}
      (isOperator : t.isWordIn nameOperators = true) (isName : Derives .name owed operand) :
      Derives .type owed (t :: operand)
  | array {opener closer : Token} {element : List Token} (isType : Derives .type 0 element)
      (opens : opener.lexeme = .punct .openBracket) (sameLine : opener.newlineBefore = false)
      (closes : closer.closesGroup = true) : Derives .type 0 (element ++ [opener, closer])
  | indexed {opener closer : Token} {object index : List Token} (isType : Derives .type 0 object)
      (opens : opener.lexeme = .punct .openBracket) (sameLine : opener.newlineBefore = false)
      (inside : Derives .type 0 index) (closes : closer.closesGroup = true) :
      Derives .type 0 (object ++ opener :: (index ++ [closer]))
  | joined {owed : Nat} {join : Token} {left right : List Token} (ofLeft : Derives .type 0 left)
      (joins : join.lexeme = .punct .bar ∨ join.lexeme = .punct .ampersand)
      (ofRight : Derives .type owed right) : Derives .type owed (left ++ join :: right)

/-- The tokens are those of a type. -/
def IsType (tokens : List Token) : Prop :=
  Derives .type 0 tokens

section Tokens

variable {t : Token} {p : Punct}

theorem opensGroup_of_lexeme (same : t.lexeme = .punct p) (opens : p.opensGroup = true) :
    t.opensGroup = true := by
  unfold Token.opensGroup
  rw [same]
  exact opens

theorem opensGroup_of_either {q : Punct} (same : t.lexeme = .punct p ∨ t.lexeme = .punct q)
    (opens : p.opensGroup = true) (opens' : q.opensGroup = true) : t.opensGroup = true := by
  rcases same with same | same
  · exact opensGroup_of_lexeme same opens
  · exact opensGroup_of_lexeme same opens'

theorem isFlat_of_lexeme (same : t.lexeme = .punct p) (noOpener : p.opensGroup = false)
    (noCloser : p.closesGroup = false) : t.isFlat := by
  unfold Token.isFlat Token.opensGroup Token.closesGroup
  rw [same]
  exact ⟨noOpener, noCloser⟩

theorem isFlat_of_isWord (isWord : t.isWord = true) : t.isFlat := by
  unfold Token.isWord at isWord
  unfold Token.isFlat Token.opensGroup Token.closesGroup
  split at isWord
  · next name same =>
      rw [same]
      exact ⟨rfl, rfl⟩
  · cases isWord

theorem isFlat_of_isLiteral (isLiteral : t.isString = true ∨ t.isNumber = true) : t.isFlat := by
  unfold Token.isString Token.isNumber at isLiteral
  unfold Token.isFlat Token.opensGroup Token.closesGroup
  cases same : t.lexeme with
  | punct p =>
      rw [same] at isLiteral
      exact absurd isLiteral (by simp)
  | _ => exact ⟨rfl, rfl⟩

end Tokens

theorem IsPath.isBalanced {path : List Token} (isPath : IsPath path) : IsBalanced path := by
  induction isPath with
  | nil => exact .nil
  | cons isDot isWord _ ih =>
      exact .flat (isFlat_of_lexeme isDot rfl rfl) (.flat (isFlat_of_isWord isWord) ih)

/-- **The brackets of a type are balanced.** -/
theorem Derives.isBalanced {phrase : Phrase} {owed : Nat} {tokens : List Token}
    (derives : Derives phrase owed tokens) : IsBalanced tokens := by
  induction derives with
  | plain isName isPath => exact .flat (isFlat_of_isWord isName.1) isPath.isBalanced
  | applied isName isPath opens _ ih =>
      refine .flat (isFlat_of_isWord isName.1) (isPath.isBalanced.append ?_)
      exact .flat (isFlat_of_lexeme opens rfl rfl) ih
  | @last owed closer p argument _ isPunct closes ih =>
      refine ih.append (.one ?_)
      cases p <;> first | exact isFlat_of_lexeme isPunct rfl rfl | cases closes
  | fused _ ih => exact ih
  | more _ isComma _ ih ih' => exact ih.append (.flat (isFlat_of_lexeme isComma rfl rfl) ih')
  | named _ ih => exact ih
  | literal isLiteral => exact .one (isFlat_of_isLiteral isLiteral)
  | group opens inside closes => exact .whole (opensGroup_of_either opens rfl rfl) inside closes
  | parenthesized opens _ closes ih => exact .whole (opensGroup_of_lexeme opens rfl) ih closes
  | function opens inside closes isArrow _ ih =>
      refine .group (opensGroup_of_lexeme opens rfl) inside closes ?_
      exact .flat (isFlat_of_lexeme isArrow rfl rfl) ih
  | operator isOperator _ ih => exact .flat (isFlat_of_isWord (isWord_of_isWordIn isOperator)) ih
  | array _ opens _ closes ih =>
      exact ih.append (.whole (opensGroup_of_lexeme opens rfl) .nil closes)
  | indexed _ opens _ _ closes ih ih' =>
      exact ih.append (.whole (opensGroup_of_lexeme opens rfl) ih' closes)
  | joined _ joins _ ih ih' =>
      refine ih.append (.flat ?_ ih')
      rcases joins with isBar | isAmpersand
      · exact isFlat_of_lexeme isBar rfl rfl
      · exact isFlat_of_lexeme isAmpersand rfl rfl

/-! ## §3. Type arguments. -/

/-- What a scan that still has to close `depth` angle brackets finds behind the token that
closed the last ones. -/
def behindAngles (depth : Nat) (rest : List Token) : Option Nat :=
  if depth = 0 then some 0 else angleWidth? depth 0 rest

/-- Tokens that a scan for angle brackets passes over one by one. -/
def passedInAngles : List Punct :=
  [.dot, .comma, .arrow, .bar, .ampersand]

theorem passed_of_lexeme {t : Token} {p : Punct} (same : t.lexeme = .punct p)
    (listed : p ∈ passedInAngles) (q : Punct) (same' : t.lexeme = .punct q) : q ∈ passedInAngles := by
  cases same.symm.trans same'
  exact listed

theorem passed_of_isWord {t : Token} (isWord : t.isWord = true) (p : Punct)
    (same : t.lexeme = .punct p) : p ∈ passedInAngles := by
  rw [Token.isWord, same] at isWord
  cases isWord

theorem passed_of_isLiteral {t : Token} (isLiteral : t.isString = true ∨ t.isNumber = true)
    (p : Punct) (same : t.lexeme = .punct p) : p ∈ passedInAngles := by
  rw [Token.isString, Token.isNumber, same] at isLiteral
  exact absurd isLiteral (by simp)

theorem of_passedInAngles {p : Punct} (listed : p ∈ passedInAngles) :
    p ≠ .lt ∧ closedAngles p = 0 ∧ p.opensGroup = false
      ∧ (p.closesGroup || excludedFromTypeArguments.contains p) = false := by
  revert p
  decide

theorem angleWidth?_one {t : Token} (passed : ∀ p, t.lexeme = .punct p → p ∈ passedInAngles)
    (depth : Nat) (rest : List Token) :
    angleWidth? depth 0 (t :: rest) = (angleWidth? depth 0 rest).map (· + 1) := by
  rw [angleWidth?]
  split
  · next p isPunct =>
      obtain ⟨notOpener, closesNone, noGroup, noStop⟩ := of_passedInAngles (passed p isPunct)
      rw [if_neg notOpener, if_neg (not_not_intro closesNone), noGroup, noStop,
        if_neg Bool.false_ne_true, if_neg Bool.false_ne_true]
  · rfl

theorem angleWidth?_skip (tokens rest : List Token) (depth : Nat) :
    angleWidth? depth tokens.length (tokens ++ rest)
      = (angleWidth? depth 0 rest).map (· + tokens.length) := by
  induction tokens with
  | nil => exact Option.map_id'.symm
  | cons t tokens ih =>
      rw [List.cons_append, List.length_cons, angleWidth?, ih, Option.map_map]
      rfl

theorem angleWidth?_opener {t : Token} (opens : t.lexeme = .punct .lt) (depth : Nat)
    (rest : List Token) :
    angleWidth? depth 0 (t :: rest) = (angleWidth? (depth + 1) 0 rest).map (· + 1) := by
  rw [angleWidth?, opens]
  rfl

/-- A token that closes the list of arguments and `owed` lists around it. -/
theorem angleWidth?_closer {t : Token} {p : Punct} {owed depth : Nat}
    (isPunct : t.lexeme = .punct p) (closes : closedAngles p = owed + 1) (enough : owed ≤ depth)
    (rest : List Token) : angleWidth? (depth + 1) 0 (t :: rest)
      = (behindAngles (depth - owed) rest).map (· + 1) := by
  have notOpener : p ≠ .lt := by
    rintro rfl
    cases closes
  rw [angleWidth?, isPunct]
  dsimp only
  rw [if_neg notOpener, if_pos (by omega), closes, behindAngles]
  by_cases all : depth = owed
  · rw [if_pos (by omega), if_pos (by omega)]
    rfl
  · rw [if_neg (by omega), if_neg (by omega), Nat.add_sub_add_right]

/-- A bracket group is passed over as a whole. -/
theorem angleWidth?_group {opener closer : Token} {inner : List Token}
    (opens : opener.opensGroup = true) (inside : IsBalanced inner)
    (closes : closer.closesGroup = true) (depth : Nat) (rest : List Token) :
    angleWidth? depth 0 (opener :: (inner ++ closer :: rest))
      = (angleWidth? depth 0 rest).map (· + (inner.length + 2)) := by
  have width := groupWidth_group opens inside closes rest
  have skipped := angleWidth?_skip (inner ++ [closer]) rest depth
  obtain ⟨p, isPunct, opens⟩ := exists_punct_of_opensGroup opens
  have notOpener : p ≠ .lt := by
    rintro rfl
    cases opens
  have closesNone : closedAngles p = 0 := by cases p <;> first | rfl | cases opens
  rw [angleWidth?, isPunct]
  dsimp only
  rw [if_neg notOpener, if_neg (not_not_intro closesNone), if_pos opens, width]
  rw [List.append_assoc, List.length_append] at skipped
  show (angleWidth? depth (inner.length + 1) (inner ++ ([closer] ++ rest))).map _ = _
  rw [show inner.length + 1 = inner.length + [closer].length from rfl, skipped, Option.map_map]
  rfl

/-- With `before` angle brackets open, the scan passes over the tokens, behind which `after`
of them are open.  It ends where none is. -/
def Leads (before after : Nat) (tokens : List Token) : Prop :=
  ∀ rest, angleWidth? before 0 (tokens ++ rest)
    = (behindAngles after rest).map (· + tokens.length)

namespace Leads

variable {a b c depth : Nat} {t opener closer : Token} {tokens tokens' inner : List Token}

theorem nil (isOpen : depth ≠ 0) : Leads depth depth [] := by
  intro rest
  rw [behindAngles, if_neg isOpen]
  exact Option.map_id'.symm

theorem append (isOpen : b ≠ 0) (first : Leads a b tokens) (second : Leads b c tokens') :
    Leads a c (tokens ++ tokens') := by
  intro rest
  rw [List.append_assoc, first, behindAngles, if_neg isOpen, second, Option.map_map,
    List.length_append]
  refine congrArg (fun f => Option.map f (behindAngles c rest)) (funext fun width => ?_)
  show width + tokens'.length + tokens.length = _
  omega

theorem cons (isOpen : b ≠ 0) (first : Leads a b [t]) (second : Leads b c tokens) :
    Leads a c (t :: tokens) :=
  append isOpen first second

theorem one (isOpen : depth ≠ 0) (passed : ∀ p, t.lexeme = .punct p → p ∈ passedInAngles) :
    Leads depth depth [t] := by
  intro rest
  rw [behindAngles, if_neg isOpen]
  exact angleWidth?_one passed depth rest

theorem opening (opens : t.lexeme = .punct .lt) (depth : Nat) : Leads depth (depth + 1) [t] :=
  angleWidth?_opener opens depth

theorem closing {p : Punct} {owed : Nat} (isPunct : t.lexeme = .punct p)
    (closes : closedAngles p = owed + 1) (enough : owed ≤ depth) :
    Leads (depth + 1) (depth - owed) [t] :=
  angleWidth?_closer isPunct closes enough

theorem group (opens : opener.opensGroup = true) (inside : IsBalanced inner)
    (closes : closer.closesGroup = true) (behind : Leads depth c tokens) :
    Leads depth c (opener :: (inner ++ closer :: tokens)) := by
  intro rest
  rw [List.cons_append, List.append_assoc, List.cons_append,
    angleWidth?_group opens inside closes, behind, Option.map_map]
  refine congrArg (fun f => Option.map f (behindAngles c rest)) (funext fun width => ?_)
  show width + tokens.length + (inner.length + 2) = _
  rw [List.length_cons, List.length_append, List.length_cons]
  omega

theorem path (isOpen : depth ≠ 0) (isPath : IsPath tokens) : Leads depth depth tokens := by
  induction isPath with
  | nil => exact .nil isOpen
  | cons isDot isWord _ ih =>
      refine .cons isOpen (.one isOpen (passed_of_lexeme isDot (by decide))) ?_
      exact .cons isOpen (.one isOpen (passed_of_isWord isWord)) ih

end Leads

/-- How many angle brackets have been opened just in front of the phrase. -/
def Phrase.opened : Phrase → Nat
  | .arguments => 1
  | _ => 0

/-- **The scan closes what a phrase owes,** and nothing else. -/
theorem Derives.leads {phrase : Phrase} {owed : Nat} {tokens : List Token}
    (derives : Derives phrase owed tokens) {depth : Nat} (enough : owed ≤ depth)
    (isOpen : depth + phrase.opened ≠ 0) :
    Leads (depth + phrase.opened) (depth - owed) tokens := by
  -- What a phrase owes is closed by its last token, so all parts but the last one owe nothing.
  induction derives generalizing depth with
  | plain isName isPath =>
      exact .cons isOpen (.one isOpen (passed_of_isWord isName.1)) (.path isOpen isPath)
  | applied isName isPath opens _ ih =>
      refine .cons isOpen (.one isOpen (passed_of_isWord isName.1)) ?_
      refine .append isOpen (.path isOpen isPath) ?_
      exact .cons (Nat.succ_ne_zero _) (.opening opens depth) (ih enough (Nat.succ_ne_zero _))
  | last _ isPunct closes ih =>
      exact .append isOpen (ih (Nat.zero_le _) isOpen) (.closing isPunct closes enough)
  | @fused owed argument _ ih =>
      -- The argument closes its own list too: it owes one more, and one more is open.
      rw [← Nat.add_sub_add_right depth 1 owed]
      exact ih (Nat.succ_le_succ enough) isOpen
  | more _ isComma _ ih ih' =>
      refine .append isOpen (ih (Nat.zero_le _) isOpen) ?_
      exact .cons isOpen (.one isOpen (passed_of_lexeme isComma (by decide))) (ih' enough isOpen)
  | named _ ih => exact ih enough isOpen
  | literal isLiteral => exact .one isOpen (passed_of_isLiteral isLiteral)
  | group opens inside closes =>
      exact .group (opensGroup_of_either opens rfl rfl) inside closes (.nil isOpen)
  | parenthesized opens inside closes _ =>
      exact .group (opensGroup_of_lexeme opens rfl) inside.isBalanced closes (.nil isOpen)
  | function opens inside closes isArrow _ ih =>
      refine .group (opensGroup_of_lexeme opens rfl) inside closes ?_
      exact .cons isOpen (.one isOpen (passed_of_lexeme isArrow (by decide))) (ih enough isOpen)
  | operator isOperator _ ih =>
      have passed := passed_of_isWord (isWord_of_isWordIn isOperator)
      exact .cons isOpen (.one isOpen passed) (ih enough isOpen)
  | array _ opens _ closes ih =>
      refine .append isOpen (ih (Nat.zero_le _) isOpen) ?_
      exact .group (opensGroup_of_lexeme opens rfl) .nil closes (.nil isOpen)
  | indexed _ opens _ inside closes ih _ =>
      refine .append isOpen (ih (Nat.zero_le _) isOpen) ?_
      exact .group (opensGroup_of_lexeme opens rfl) inside.isBalanced closes (.nil isOpen)
  | joined _ joins _ ih ih' =>
      refine .append isOpen (ih (Nat.zero_le _) isOpen) (.cons isOpen (.one isOpen ?_) (ih' enough isOpen))
      rcases joins with isBar | isAmpersand
      · exact passed_of_lexeme isBar (by decide)
      · exact passed_of_lexeme isAmpersand (by decide)

/-! ## §4. The loop. -/

/-- Punctuators that go on with a name, or make parameters of what is in parentheses. -/
def continuing : List Punct :=
  [.dot, .lt, .arrow]

/-- What comes next does not belong to the operand in front of it. -/
def IsSeparate (rest : List Token) : Prop :=
  ∀ t ∈ rest.head?, ∀ p ∈ continuing, t.lexeme ≠ .punct p

theorem isSeparate_cons {t : Token} {p : Punct} (same : t.lexeme = .punct p)
    (other : p ∉ continuing) (rest : List Token) : IsSeparate (t :: rest) := by
  rintro _ ⟨⟩ q listed same'
  cases same.symm.trans same'
  exact other listed

theorem typeWidth_skip (operand : Bool) (pending : Nat) (tokens rest : List Token) :
    typeWidth operand pending tokens.length (tokens ++ rest)
      = typeWidth operand pending 0 rest + tokens.length := by
  induction tokens with
  | nil => rfl
  | cons t tokens ih =>
      rw [List.cons_append, List.length_cons]
      cases operand <;> rw [typeWidth, ih, Nat.add_assoc]

section Names

variable {first opener : Token} {path rest arguments : List Token}

theorem dottedWidth_path (isPath : IsPath path)
    (noDot : ∀ t ∈ rest.head?, t.lexeme ≠ .punct .dot) : dottedWidth (path ++ rest) = path.length := by
  induction isPath with
  | nil =>
      rw [List.nil_append]
      unfold dottedWidth
      split
      · next dot name rest =>
          have other : dot.is .dot = false := beq_eq_false_iff_ne.mpr (noDot dot rfl)
          rw [other, Bool.false_and, if_neg Bool.false_ne_true]
          rfl
      · rfl
  | @cons dot name path isDot isWord _ ih =>
      have isDot' : dot.is .dot = true := beq_iff_eq.mpr isDot
      rw [List.cons_append, List.cons_append, dottedWidth, isDot', isWord, Bool.and_self, if_pos rfl, ih]
      rfl

theorem isTheWord_import (isName : IsTypeName first) : first.isTheWord "import" = false := by
  refine beq_eq_false_iff_ne.mpr fun same => ?_
  have other := isName.2
  rw [Token.isWordIn, same] at other
  cases other

theorem namedTypeWidth_path (isName : IsTypeName first) (isPath : IsPath path)
    (noDot : ∀ t ∈ rest.head?, t.lexeme ≠ .punct .dot) :
    namedTypeWidth first (path ++ rest) = path.length
      + if (rest.head?.any (·.is .lt)) then (angleWidth? 0 0 rest).getD 0 else 0 := by
  unfold namedTypeWidth
  extract_lets imported dotted named
  have noImport : imported = 0 := by
    unfold imported
    rw [isTheWord_import isName]
    split <;> rfl
  have length : named = path.length := by
    unfold named dotted
    rw [noImport, List.drop_zero, dottedWidth_path isPath noDot, Nat.zero_add]
  rw [length, List.drop_left]
  cases rest with
  | nil => rfl
  | cons t rest =>
      show (if t.is .lt = true then _ else _) = _ + if t.is .lt = true then _ else _
      split <;> rfl

/-- The name of a type, up to what does not belong to it. -/
theorem namedTypeWidth_plain (isName : IsTypeName first) (isPath : IsPath path)
    (separate : IsSeparate rest) : namedTypeWidth first (path ++ rest) = path.length := by
  have noAngle : ¬(rest.head?.any (·.is .lt)) = true := by
    cases rest with
    | nil => exact Bool.false_ne_true
    | cons t rest =>
        exact fun isLess => separate t rfl .lt (by decide) (beq_iff_eq.mp isLess)
  rw [namedTypeWidth_path isName isPath fun t isFirst => separate t isFirst .dot (by decide),
    if_neg noAngle]
  rfl

/-- The name of a type with its arguments. -/
theorem namedTypeWidth_applied (isName : IsTypeName first) (isPath : IsPath path)
    (opens : opener.lexeme = .punct .lt) (leads : Leads 1 0 arguments) :
    namedTypeWidth first (path ++ opener :: arguments ++ rest)
      = (path ++ opener :: arguments).length := by
  have noDot : ∀ t ∈ (opener :: (arguments ++ rest)).head?, t.lexeme ≠ .punct .dot := by
    rintro _ ⟨⟩ isDot
    cases opens.symm.trans isDot
  have width : angleWidth? 0 0 (opener :: (arguments ++ rest)) = some (arguments.length + 1) := by
    have inside : angleWidth? 1 0 (arguments ++ rest) = some (0 + arguments.length) := leads rest
    rw [angleWidth?_opener opens, inside, Nat.zero_add]
    rfl
  have isLess : opener.is .lt = true := beq_iff_eq.mpr opens
  rw [List.append_assoc, List.cons_append, namedTypeWidth_path isName isPath noDot]
  show path.length + (if opener.is .lt = true then _ else _) = _
  rw [if_pos isLess, width, List.length_append]
  rfl

theorem typeWidth_name (isName : IsTypeName first) (rest : List Token) :
    typeWidth true 0 0 (first :: rest)
      = typeWidth false 0 (namedTypeWidth first rest) rest + 1 := by
  obtain ⟨isWord, other⟩ := isName
  obtain ⟨lexeme, start, stop, newlineBefore⟩ := first
  cases lexeme with
  | word name =>
      have noOperator : typeOperatorWords.contains name = false := by
        change (_ || typeOperatorWords.contains name) = false at other
        exact (Bool.or_eq_false_iff.mp other).2
      have noOperator' :
          Token.isWordIn ⟨.word name, start, stop, newlineBefore⟩ typeOperatorWords = false :=
        noOperator
      rw [typeWidth, noOperator']
      rfl
  | _ => cases isWord

end Names

section Operands

variable {opener closer arrow t : Token} {inner rest : List Token}

theorem typeWidth_skip_group (opens : opener.opensGroup = true) (inside : IsBalanced inner)
    (closes : closer.closesGroup = true) (operand : Bool) (rest : List Token) :
    typeWidth operand 0 (groupWidth 0 (opener :: (inner ++ closer :: rest)) - 1)
        (inner ++ closer :: rest) + 1
      = typeWidth operand 0 0 rest + (inner.length + 2) := by
  have skipped := typeWidth_skip operand 0 (inner ++ [closer]) rest
  rw [List.append_assoc, List.length_append] at skipped
  change typeWidth operand 0 (inner.length + 1) (inner ++ closer :: rest) = _ at skipped
  rw [groupWidth_group opens inside closes]
  show typeWidth operand 0 (inner.length + 1) _ + 1 = _
  rw [skipped, Nat.add_assoc]
  rfl

theorem typeWidth_literal (isLiteral : t.isString = true ∨ t.isNumber = true) (rest : List Token) :
    typeWidth true 0 0 (t :: rest) = typeWidth false 0 0 rest + 1 := by
  obtain ⟨lexeme, start, stop, newlineBefore⟩ := t
  cases lexeme with
  | string | number => rfl
  | _ => exact absurd isLiteral (by simp [Token.isString, Token.isNumber])

/-- A group where a type is wanted. -/
theorem typeWidth_group
    (opens : opener.lexeme = .punct .openBracket ∨ opener.lexeme = .punct .openBrace)
    (inside : IsBalanced inner) (closes : closer.closesGroup = true) (rest : List Token) :
    typeWidth true 0 0 (opener :: (inner ++ closer :: rest))
      = typeWidth false 0 0 rest + (inner.length + 2) := by
  rw [← typeWidth_skip_group (opensGroup_of_either opens rfl rfl) inside closes]
  obtain ⟨lexeme, start, stop, newlineBefore⟩ := opener
  rcases opens with same | same
  · cases same
    rfl
  · cases same
    rfl

/-- Parentheses make parameters if an arrow follows. -/
theorem typeWidth_parens (opens : opener.lexeme = .punct .openParen) (tokens : List Token) :
    typeWidth true 0 0 (opener :: tokens)
      = if ((tokens.drop (groupWidth 0 (opener :: tokens) - 1)).head?.any (·.is .arrow)) then
          typeWidth true 0 (groupWidth 0 (opener :: tokens)) tokens + 1
        else typeWidth false 0 (groupWidth 0 (opener :: tokens) - 1) tokens + 1 := by
  have noOperator : opener.isOneOf [.bar, .ampersand, .minus] = false := by
    rw [Token.isOneOf, opens]
    rfl
  have noWord : opener.isWordIn typeOperatorWords = false := by rw [Token.isWordIn, opens]
  have isParen : opener.is .openParen = true := beq_iff_eq.mpr opens
  rw [typeWidth, noOperator, noWord, Bool.false_and, if_neg Bool.false_ne_true,
    if_neg Bool.false_ne_true, if_pos isParen]
  dsimp only
  cases tokens.drop (groupWidth 0 (opener :: tokens) - 1) with
  | nil => rfl
  | cons arrow later => rfl

theorem drop_group (opens : opener.opensGroup = true) (inside : IsBalanced inner)
    (closes : closer.closesGroup = true) (rest : List Token) :
    (inner ++ closer :: rest).drop (groupWidth 0 (opener :: (inner ++ closer :: rest)) - 1)
      = rest := by
  have whole : (inner ++ [closer]).length = inner.length + 1 := List.length_append
  rw [groupWidth_group opens inside closes, List.append_cons]
  exact List.drop_left' whole

/-- Parentheses without an arrow behind them. -/
theorem typeWidth_parenthesized (opens : opener.lexeme = .punct .openParen)
    (inside : IsBalanced inner) (closes : closer.closesGroup = true) (separate : IsSeparate rest) :
    typeWidth true 0 0 (opener :: (inner ++ closer :: rest))
      = typeWidth false 0 0 rest + (inner.length + 2) := by
  have opens' : opener.opensGroup = true := opensGroup_of_lexeme opens rfl
  have noArrow : ¬(rest.head?.any (·.is .arrow)) = true := by
    cases rest with
    | nil => exact Bool.false_ne_true
    | cons t rest =>
        exact fun isArrow => separate t rfl .arrow (by decide) (beq_iff_eq.mp isArrow)
  rw [typeWidth_parens opens, drop_group opens' inside closes, if_neg noArrow,
    typeWidth_skip_group opens' inside closes]

/-- Parameters with an arrow behind them. -/
theorem typeWidth_parameters (opens : opener.lexeme = .punct .openParen)
    (inside : IsBalanced inner) (closes : closer.closesGroup = true)
    (isArrow : arrow.lexeme = .punct .arrow) (rest : List Token) :
    typeWidth true 0 0 (opener :: (inner ++ closer :: arrow :: rest))
      = typeWidth true 0 0 rest + (inner.length + 3) := by
  have opens' : opener.opensGroup = true := opensGroup_of_lexeme opens rfl
  have isArrow' : ((arrow :: rest).head?.any (·.is .arrow)) = true := beq_iff_eq.mpr isArrow
  have skipped := typeWidth_skip true 0 (inner ++ [closer, arrow]) rest
  rw [List.append_assoc, List.length_append] at skipped
  change typeWidth true 0 (inner.length + 2) (inner ++ closer :: arrow :: rest) = _ at skipped
  rw [typeWidth_parens opens, drop_group opens' inside closes, if_pos isArrow',
    groupWidth_group opens' inside closes, skipped, Nat.add_assoc]
  rfl

theorem typeWidth_operator (isOperator : t.isWordIn nameOperators = true) {first : Token}
    (isWord : first.isWord = true) (rest : List Token) :
    typeWidth true 0 0 (t :: first :: rest) = typeWidth true 0 0 (first :: rest) + 1 := by
  have isOperator' : t.isWordIn typeOperatorWords = true := by
    unfold Token.isWordIn at isOperator ⊢
    split at isOperator
    · have listed : ∀ w ∈ nameOperators, w ∈ typeOperatorWords := by decide
      exact List.contains_iff_mem.mpr (listed _ (List.contains_iff_mem.mp isOperator))
    · cases isOperator
  have noJoin : t.isOneOf [.bar, .ampersand, .minus] = false := by
    unfold Token.isWordIn at isOperator
    unfold Token.isOneOf
    split at isOperator
    · next name same => rw [same]
    · cases isOperator
  have operand : typeOperandAhead (first :: rest) = true := by
    rw [typeOperandAhead, isWord]
    rfl
  rw [typeWidth, noJoin, if_neg Bool.false_ne_true, isOperator', operand, Bool.and_self, if_pos rfl]

/-- A group in brackets behind a type. -/
theorem typeWidth_postfix (opens : opener.lexeme = .punct .openBracket)
    (sameLine : opener.newlineBefore = false) (inside : IsBalanced inner)
    (closes : closer.closesGroup = true) (rest : List Token) :
    typeWidth false 0 0 (opener :: (inner ++ closer :: rest))
      = typeWidth false 0 0 rest + (inner.length + 2) := by
  rw [← typeWidth_skip_group (opensGroup_of_lexeme opens rfl) inside closes]
  obtain ⟨lexeme, start, stop, newlineBefore⟩ := opener
  cases opens
  cases sameLine
  rfl

theorem typeWidth_join (joins : t.lexeme = .punct .bar ∨ t.lexeme = .punct .ampersand)
    (rest : List Token) : typeWidth false 0 0 (t :: rest) = typeWidth true 0 0 rest + 1 := by
  obtain ⟨lexeme, start, stop, newlineBefore⟩ := t
  rcases joins with same | same
  · cases same
    rfl
  · cases same
    rfl

end Operands

/-- The word that a name begins with. -/
theorem Derives.exists_word {owed : Nat} {tokens : List Token}
    (derives : Derives .name owed tokens) :
    ∃ first later, tokens = first :: later ∧ first.isWord = true := by
  cases derives with
  | plain isName => exact ⟨_, _, rfl, isName.1⟩
  | applied isName => exact ⟨_, _, rfl, isName.1⟩

/-- **The loop passes over a type,** and goes on behind it. -/
theorem Derives.typeWidth {phrase : Phrase} {owed : Nat} {tokens rest : List Token}
    (derives : Derives phrase owed tokens) (isWhole : phrase ≠ .arguments) (settled : owed = 0)
    (separate : IsSeparate rest) : Lookahead.typeWidth true 0 0 (tokens ++ rest)
      = Lookahead.typeWidth false 0 0 rest + tokens.length := by
  -- Type arguments have a scan of their own, so here nothing is owed.  What stands behind a part
  -- of a type is either what stands behind the type, or a token that goes on with it.
  induction derives generalizing rest with
  | plain isName isPath =>
      rw [List.cons_append, typeWidth_name isName, namedTypeWidth_plain isName isPath separate,
        typeWidth_skip]
      rfl
  | applied isName isPath opens applies _ =>
      subst settled
      have leads : Leads 1 0 _ := applies.leads (Nat.le_refl 0) (Nat.succ_ne_zero _)
      rw [List.cons_append, typeWidth_name isName, namedTypeWidth_applied isName isPath opens leads,
        typeWidth_skip]
      rfl
  | last | fused | more => exact absurd rfl isWhole
  | named _ ih => exact ih nofun settled separate
  | literal isLiteral => exact typeWidth_literal isLiteral rest
  | @group opener closer inner opens inside closes =>
      have whole := typeWidth_group opens inside closes rest
      rw [List.append_cons] at whole
      rw [List.cons_append, whole, List.length_cons, List.length_append]
      rfl
  | @parenthesized opener closer inner opens inside closes _ =>
      have whole := typeWidth_parenthesized opens inside.isBalanced closes separate
      rw [List.append_cons] at whole
      rw [List.cons_append, whole, List.length_cons, List.length_append]
      rfl
  | @function owed opener closer arrow parameters result opens inside closes isArrow _ ih =>
      have head := typeWidth_parameters opens inside closes isArrow (result ++ rest)
      rw [List.cons_append, List.append_assoc, List.cons_append, List.cons_append, head,
        ih nofun settled separate]
      simp only [List.length_cons, List.length_append]
      omega
  | @operator owed t operand isOperator isName ih =>
      have behind := ih nofun settled separate
      obtain ⟨first, later, rfl, isWord⟩ := isName.exists_word
      rw [List.cons_append] at behind
      rw [List.cons_append, List.cons_append, typeWidth_operator isOperator isWord, behind]
      rfl
  | @array opener closer element _ opens sameLine closes ih =>
      have behind := ih nofun rfl (isSeparate_cons opens (by decide) (closer :: rest))
      have brackets : Lookahead.typeWidth false 0 0 (opener :: closer :: rest) = _ + 2 :=
        typeWidth_postfix opens sameLine .nil closes rest
      rw [List.append_assoc]
      show Lookahead.typeWidth true 0 0 (element ++ opener :: closer :: rest) = _
      rw [behind, brackets, List.length_append, Nat.add_assoc, Nat.add_comm 2]
      rfl
  | @indexed opener closer object index _ opens sameLine inside closes ih _ =>
      have behind := ih nofun rfl (isSeparate_cons opens (by decide) (index ++ closer :: rest))
      have brackets := typeWidth_postfix opens sameLine inside.isBalanced closes rest
      have whole : object ++ opener :: (index ++ [closer]) ++ rest
          = object ++ opener :: (index ++ closer :: rest) := by
        rw [List.append_assoc, List.cons_append, List.append_assoc]
        rfl
      rw [whole, behind, brackets]
      simp only [List.length_cons, List.length_append, List.length_nil]
      omega
  | @joined owed join left right _ joins _ ih ih' =>
      have separate' : IsSeparate (join :: (right ++ rest)) := by
        rcases joins with isBar | isAmpersand
        · exact isSeparate_cons isBar (by decide) _
        · exact isSeparate_cons isAmpersand (by decide) _
      rw [List.append_assoc, List.cons_append, ih nofun rfl separate', typeWidth_join joins,
        ih' nofun settled separate, List.length_append, List.length_cons]
      omega

/-! ## §5. Exactly the type. -/

/-- Tokens that stand behind a type. -/
def behindTypes : List Punct :=
  [.assign, .comma, .closeParen, .semicolon, .closeBrace]

theorem not_continuing : ∀ p ∈ behindTypes, p ∉ continuing := by
  decide

theorem isSeparate_nil : IsSeparate [] := by
  intro t isFirst
  cases isFirst

/-- These tokens stop the loop behind an operand. -/
theorem typeWidth_stop {t : Token} {p : Punct} (same : t.lexeme = .punct p) (listed : p ∈ behindTypes)
    (rest : List Token) : typeWidth false 0 0 (t :: rest) = 0 := by
  obtain ⟨lexeme, start, stop, newlineBefore⟩ := t
  cases same
  unfold behindTypes at listed
  simp only [List.mem_cons, List.not_mem_nil, or_false] at listed
  rcases listed with rfl | rfl | rfl | rfl | rfl <;> rfl

/-- **The loop stops exactly behind a type,** in front of one of these tokens or at the end of
the text. -/
theorem typeWidth_exact {tokens rest : List Token} (isType : IsType tokens)
    (ends : ∀ t ∈ rest.head?, t.isOneOf behindTypes = true) :
    typeWidth true 0 0 (tokens ++ rest) = tokens.length := by
  cases rest with
  | nil =>
      rw [isType.typeWidth nofun rfl isSeparate_nil]
      exact Nat.zero_add _
  | cons t rest =>
      have isStop := ends t rfl
      unfold Token.isOneOf at isStop
      split at isStop
      · next p same =>
          have listed : p ∈ behindTypes := List.contains_iff_mem.mp isStop
          rw [isType.typeWidth nofun rfl (isSeparate_cons same (not_continuing p listed) rest),
            typeWidth_stop same listed, Nat.zero_add]
      · cases isStop

/-- The tokens of `Map<string, Array<Array<number>>>`, whose last token closes three lists of
arguments. -/
def nestedArrays : List Token :=
  [⟨.word "Map", 0, 3, false⟩, ⟨.punct .lt, 3, 4, false⟩, ⟨.word "string", 4, 10, false⟩,
   ⟨.punct .comma, 10, 11, false⟩, ⟨.word "Array", 12, 17, false⟩, ⟨.punct .lt, 17, 18, false⟩,
   ⟨.word "Array", 18, 23, false⟩, ⟨.punct .lt, 23, 24, false⟩, ⟨.word "number", 24, 30, false⟩,
   ⟨.punct .ushr, 30, 33, false⟩]

theorem isType_nestedArrays : IsType nestedArrays := by
  -- From the inside out, each list of arguments owes one closing less than the one inside of it.
  have isName (name : Text) (start stop : Nat)
      (other : (Text.ofString "import" :: typeOperatorWords).contains name = false) :
      IsTypeName ⟨.word name, start, stop, false⟩ := ⟨rfl, other⟩
  have number : Derives .type 0 [⟨.word "number", 24, 30, false⟩] :=
    .named (.plain (isName _ _ _ (by decide)) .nil)
  have string : Derives .type 0 [⟨.word "string", 4, 10, false⟩] :=
    .named (.plain (isName _ _ _ (by decide)) .nil)
  have inner : Derives .arguments 2 [_, ⟨.punct .ushr, 30, 33, false⟩] := .last number rfl rfl
  have middle : Derives .arguments 1 _ :=
    .fused (.named (.applied (isName "Array" 18 23 (by decide)) .nil
      (show Token.lexeme ⟨.punct .lt, 23, 24, false⟩ = _ from rfl) inner))
  have outer : Derives .arguments 0 _ :=
    .fused (.named (.applied (isName "Array" 12 17 (by decide)) .nil
      (show Token.lexeme ⟨.punct .lt, 17, 18, false⟩ = _ from rfl) middle))
  have both : Derives .arguments 0 _ :=
    .more string (show Token.lexeme ⟨.punct .comma, 10, 11, false⟩ = _ from rfl) outer
  exact .named (.applied (isName "Map" 0 3 (by decide)) .nil
    (show Token.lexeme ⟨.punct .lt, 3, 4, false⟩ = _ from rfl) both)

theorem typeWidth_exact_nestedArrays :
    IsType nestedArrays
      ∧ typeWidth true 0 0 (nestedArrays ++ [⟨.punct .assign, 34, 35, false⟩]) = 10 := by
  refine ⟨isType_nestedArrays, typeWidth_exact isType_nestedArrays ?_⟩
  rintro t ⟨⟩
  rfl

end Lookahead

end StackLint
