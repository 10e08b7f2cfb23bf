/-
  StackLint.Parse.State
  ─────────────────────
  **THE STATE OF THE PARSER.**

  A parser reads tokens from left to right and records complaints; it never
  goes back and never fails on what it reads.  Its one way to stop early is to
  spend its budget of nested calls, which only a text with thousands of nested
  right operands does.

  Loops run in rounds.  A round either goes on with a new value or finishes.
  One that goes on has to take a token, or the loop would stall; so there are at
  most as many rounds as tokens are left, and one more.
-/
import StackLint.Tree.Node

namespace StackLint

/-- A syntax tree with the spans of its nodes. -/
abbrev Tree := Node Span

/-! ## §1. State. -/

/-- What a parser knows between two tokens. -/
structure ParserState where
  /-- The tokens still to be read, without the end of the text. -/
  ahead : List Token
  /-- The end of the text. -/
  final : Token
  /-- How many tokens have been read. -/
  position : Nat
  /-- How many tokens the text has, read or not. -/
  total : Nat
  /-- Where the last token read ends. -/
  lastStop : Nat
  /-- The complaints so far with their offsets, the newest one first. -/
  complaints : List (Nat × Complaint)
  /-- The word `in` is no operator here. -/
  noIn : Bool
  /-- How many nested constructs are open. -/
  depth : Nat

namespace ParserState

/-- The state before the first of the given tokens. -/
def start (tokens : List Token) (final : Token) : ParserState where
  ahead := tokens
  final := final
  position := 0
  total := tokens.length
  lastStop := 0
  complaints := []
  noIn := false
  depth := 0

/-- The token `count` places after the next one. -/
def peek (s : ParserState) (count : Nat) : Token :=
  (s.ahead[count]?).getD s.final

/-- The next token. -/
def current (s : ParserState) : Token :=
  s.ahead.head?.getD s.final

/-- The state after reading `count` tokens, or all there are. -/
def skip (s : ParserState) (count : Nat) : ParserState :=
  let read := s.ahead.take count
  { s with
    ahead := s.ahead.drop count
    position := s.position + read.length
    lastStop := (read.getLast?.map Token.stop).getD s.lastStop }

end ParserState

/-! ## §2. Parsers. -/

/-- Why a parser stops early. -/
inductive Halt where
  /-- The budget of nested calls is spent. -/
  | budgetSpent
  /-- A round of a loop went on without taking a token. -/
  | stalled
  deriving DecidableEq, Repr

/-- An action that reads tokens. -/
abbrev Parser := EStateM Halt ParserState

namespace Parser

/-- The next token, which stays unread. -/
def current : Parser Token := do
  return (← get).current

/-- The token `count` places after the next one. -/
def peek (count : Nat) : Parser Token := do
  return (← get).peek count

/-- How many tokens have been read. -/
def position : Parser Nat := do
  return (← get).position

/-- Where the last token read ends. -/
def lastStop : Parser Nat := do
  return (← get).lastStop

/-- Reads `count` tokens. -/
def skip (count : Nat) : Parser Unit :=
  modify (·.skip count)

/-- Reads the next token; the end of the text is never passed. -/
def advance : Parser Token := do
  let t ← current
  skip 1
  return t

/-- Records a complaint about an offset. -/
def complainAt (offset : Nat) (c : Complaint) : Parser Unit :=
  modify fun s => { s with complaints := (offset, c) :: s.complaints }

/-- Records a complaint about the next token. -/
def complain (c : Complaint) : Parser Unit := do
  complainAt (← current).start c

/-- Reads the next token if it is one of the given punctuators, and says
whether it was. -/
def acceptOneOf (ps : List Punct) : Parser Bool := do
  let found := (← current).isOneOf ps
  if found then skip 1
  return found

/-- Reads the next token if it is the given punctuator, and says whether it
was. -/
def accept (p : Punct) : Parser Bool :=
  acceptOneOf [p]

/-- Reads the next token if it is the given word, and says whether it was. -/
def acceptWord (word : Text) : Parser Bool := do
  let found := (← current).isTheWord word
  if found then skip 1
  return found

/-- What a message shows of a token: its value, or its kind when there is no
value to show. -/
def shown (t : Token) : Text :=
  if t.lexeme.value = [] then t.lexeme.kindName else t.lexeme.value

/-- Reads the given punctuator, or complains that it is missing. -/
def expect (p : Punct) : Parser Bool := do
  let found ← accept p
  unless found do complain (.expected p (shown (← current)))
  return found

/-! ## §3. Nodes. -/

/-- The node of a single token. -/
def leaf (t : Token) (form : Form Tree) : Tree :=
  .mk ⟨t.start, t.stop⟩ form

/-- The node from offset `start` to the last token read. -/
def close (start : Nat) (form : Form Tree) : Parser Tree := do
  return .mk ⟨start, ← lastStop⟩ form

/-- A node of no width for what is missing before `t`. -/
def missing (t : Token) (c : Complaint) : Tree :=
  .mk ⟨t.start, t.start⟩ (.errorNode c)

/-! ## §4. Loops. -/

/-- How a round of a loop ends. -/
inductive Round (α β : Type) where
  | again (a : α)
  | finish (b : β)

/-- Runs at most `rounds` rounds, from the value `a` on. -/
def iterateFor (body : α → Parser (Round α β)) : (rounds : Nat) → α → Parser β
  | 0, _ => throw .stalled
  | rounds + 1, a => do
      let before ← position
      match ← body a with
      | .again a =>
          if (← position) ≤ before then throw .stalled else iterateFor body rounds a
      | .finish b => return b

/-- Runs rounds until one finishes. -/
def iterate (body : α → Parser (Round α β)) (a : α) : Parser β := do
  let s ← get
  iterateFor body (s.total - s.position + 1) a

/-- Reads tokens while the next one and the one behind it satisfy `p`. -/
def skipWhile (p : Token → Token → Bool) : Parser Unit :=
  iterate (fun _ => do
    let s ← get
    if s.current.isEnd || !p s.current (s.peek 1) then return .finish ()
    skip 1
    return .again ()) ()

/-! ## §5. Nesting. -/

/-- How many nested constructs may be open at once. -/
def maxNesting : Nat := 100

/-- The texts of the tokens that end a construct. -/
def closerTexts : List Text :=
  [Punct.closeParen, .closeBracket, .closeBrace, .semicolon, .comma].map Punct.text

/-- How many tokens the bracket group at the head of a list has.  A group that
is never closed takes all tokens. -/
def groupWidth : (depth : Nat) → List Token → Nat
  | _, [] => 0
  | depth, t :: rest =>
      match t.lexeme with
      | .punct p =>
          if p.opensGroup then groupWidth (depth + 1) rest + 1
          else if p.closesGroup then
            if depth ≤ 1 then 1 else groupWidth (depth - 1) rest + 1
          else groupWidth depth rest + 1
      | _ => groupWidth depth rest + 1

/-- Reads the bracket group that the next token opens. -/
def skipGroup : Parser Unit := do
  skip (groupWidth 0 (← get).ahead)

/-- Reads the next token, or the group it opens, unless it ends a construct. -/
def skipItem (t : Token) : Parser Unit :=
  if t.isOneOf [.openParen, .openBracket, .openBrace] then skipGroup
  else if t.isEnd || closerTexts.contains t.lexeme.value then pure ()
  else skip 1

/-- Passes over what comes next because it is nested too deep. -/
def skipTooDeep : Parser Tree := do
  let t ← current
  let before ← position
  complainAt t.start .nestingTooDeep
  skipItem t
  if (← position) = before then return missing t .nestingTooDeep
  close t.start (.errorNode .nestingTooDeep)

/-- Runs a parser one level deeper, if there is a level left. -/
def nested (parse : Parser Tree) : Parser Tree := do
  if (← get).depth ≥ maxNesting then skipTooDeep
  else
    modify fun s => { s with depth := s.depth + 1 }
    let tree ← parse
    modify fun s => { s with depth := s.depth - 1 }
    return tree

/-- Runs a parser where the word `in` is an operator. -/
def allowingIn (parse : Parser α) : Parser α := do
  let saved := (← get).noIn
  modify fun s => { s with noIn := false }
  let a ← parse
  modify fun s => { s with noIn := saved }
  return a

end Parser

end StackLint
