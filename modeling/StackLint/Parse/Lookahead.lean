/-
  StackLint.Parse.Lookahead
  ─────────────────────────
  **LOOKING AHEAD.**

  Types are never parsed, only passed over, and an arrow function is told from
  a parenthesized expression by what follows its parameters.  The functions
  here look at the tokens ahead and say how many of them belong to a construct;
  they read nothing.
-/
import StackLint.Parse.State

namespace StackLint

namespace Lookahead

/-! ## §1. Type arguments. -/

/-- How many angle brackets a punctuator closes. -/
def closedAngles : Punct → Nat
  | .gt => 1
  | .shr => 2
  | .ushr => 3
  | _ => 0

/-- Operators that no type argument contains. -/
def excludedFromTypeArguments : List Punct :=
  [.semicolon, .logicalAnd, .logicalOr, .coalesce, .eqLoose, .eqStrict, .neLoose, .neStrict,
   .plus, .star, .slash, .percent, .question, .colon]

/-- How many tokens the group in angle brackets at the head of a list has, if
it is one.  `depth` angles are open, and `skip` tokens belong to a bracket
group inside. -/
def angleWidth? : (depth skip : Nat) → List Token → Option Nat
  | _, _, [] => none
  | depth, skip + 1, _ :: rest => (angleWidth? depth skip rest).map (· + 1)
  | depth, 0, t :: rest =>
      match t.lexeme with
      | .punct p =>
          if p = .lt then (angleWidth? (depth + 1) 0 rest).map (· + 1)
          else if closedAngles p ≠ 0 then
            if depth ≤ closedAngles p then some 1
            else (angleWidth? (depth - closedAngles p) 0 rest).map (· + 1)
          else if p.opensGroup then
            (angleWidth? depth (Parser.groupWidth 0 (t :: rest) - 1) rest).map (· + 1)
          else if p.closesGroup || excludedFromTypeArguments.contains p then none
          else (angleWidth? depth 0 rest).map (· + 1)
      | _ => (angleWidth? depth 0 rest).map (· + 1)

/-! ## §2. Types. -/

/-- Words that stand in front of a type. -/
def typeOperatorWords : List Text :=
  ["keyof", "typeof", "unique", "readonly", "infer", "asserts", "new", "abstract"]

/-- Whether a type operand begins at the head of a list. -/
def typeOperandAhead : List Token → Bool
  | [] => false
  | t :: _ =>
      t.isWord || t.isString || t.isNumber || t.isOneOf [.openParen, .openBracket, .openBrace]

/-- How many tokens the further names of a dotted name take. -/
def dottedWidth : List Token → Nat
  | dot :: name :: rest =>
      if dot.is .dot && name.isWord then dottedWidth rest + 2 else 0
  | _ => 0

/-- How many tokens of a named type follow its first word. -/
def namedTypeWidth (first : Token) (rest : List Token) : Nat :=
  let imported :=
    match rest with
    | t :: _ =>
        if first.isTheWord "import" && t.is .openParen then Parser.groupWidth 0 rest else 0
    | [] => 0
  let dotted := dottedWidth (rest.drop imported)
  let named := imported + dotted
  match rest.drop named with
  | t :: behind =>
      if t.is .lt then named + (angleWidth? 0 0 (t :: behind)).getD 0 else named
  | [] => named

/-- How many tokens follow the head of a template type. -/
def templateWidth : List Token → Nat
  | [] => 0
  | t :: rest =>
      match t.lexeme with
      | .templateTail _ => 1
      | _ => templateWidth rest + 1

/-- How many tokens the type at the head of a list has.  `operand` says that an
operand is expected, `pending` counts the conditions whose branches are still
to come, and `skip` tokens were already seen to belong to the type. -/
def typeWidth : (operand : Bool) → (pending skip : Nat) → List Token → Nat
  | _, _, _, [] => 0
  | operand, pending, skip + 1, _ :: rest => typeWidth operand pending skip rest + 1
  | true, pending, 0, t :: rest =>
      if t.isOneOf [.bar, .ampersand, .minus] then typeWidth true pending 0 rest + 1
      else if t.isWordIn typeOperatorWords && typeOperandAhead rest then
        typeWidth true pending 0 rest + 1
      else if t.is .openParen then
        let group := Parser.groupWidth 0 (t :: rest)
        match rest.drop (group - 1) with
        | arrow :: _ =>
            if arrow.is .arrow then typeWidth true pending group rest + 1
            else typeWidth false pending (group - 1) rest + 1
        | [] => typeWidth false pending (group - 1) rest + 1
      else if t.is .lt then
        match angleWidth? 0 0 (t :: rest) with
        | some width => typeWidth true pending (width - 1) rest + 1
        | none => 0
      else if t.isOneOf [.openBracket, .openBrace] then
        typeWidth false pending (Parser.groupWidth 0 (t :: rest) - 1) rest + 1
      else
        match t.lexeme with
        | .word _ => typeWidth false pending (namedTypeWidth t rest) rest + 1
        | .string _ _ | .number _ | .template _ => typeWidth false pending 0 rest + 1
        | .templateHead _ => typeWidth false pending (templateWidth rest) rest + 1
        | _ => 0
  | false, pending, 0, t :: rest =>
      if t.is .openBracket && !t.newlineBefore then
        typeWidth false pending (Parser.groupWidth 0 (t :: rest) - 1) rest + 1
      else if t.isOneOf [.bar, .ampersand] then typeWidth true pending 0 rest + 1
      else if t.isTheWord "extends" && !t.newlineBefore then
        typeWidth true (pending + 1) 0 rest + 1
      else if t.isTheWord "is" && !t.newlineBefore then typeWidth true pending 0 rest + 1
      else if pending ≠ 0 && t.is .question then typeWidth true pending 0 rest + 1
      else if pending ≠ 0 && t.is .colon then typeWidth true (pending - 1) 0 rest + 1
      else 0

/-! ## §3. Arrow functions. -/

/-- Whether the arrow of an arrow function follows the parameter list at the
head of a list, possibly behind a return type. -/
def arrowAfterParameters (tokens : List Token) : Bool :=
  match tokens.drop (Parser.groupWidth 0 tokens) with
  | [] => false
  | t :: rest =>
      if t.is .arrow then true
      else if t.is .colon then
        let width := typeWidth true 0 0 rest
        match rest.drop width with
        | arrow :: _ => width ≠ 0 && arrow.is .arrow
        | [] => false
      else false

/-- Whether an arrow function without `async` begins at the head of a list. -/
def plainArrowAhead : List Token → Bool
  | [] => false
  | t :: rest =>
      if t.isWord then
        match rest with
        | arrow :: _ => arrow.is .arrow && !arrow.newlineBefore
        | [] => false
      else if t.is .lt then
        match angleWidth? 0 0 (t :: rest) with
        | none => false
        | some width =>
            let behind := rest.drop (width - 1)
            match behind with
            | paren :: _ => paren.is .openParen && arrowAfterParameters behind
            | [] => false
      else t.is .openParen && arrowAfterParameters (t :: rest)

/-- Whether an arrow function begins at the head of a list. -/
def arrowAhead : List Token → Bool
  | t :: next :: rest =>
      if t.isTheWord "async" && !next.newlineBefore
          && (next.isWord || next.isOneOf [.openParen, .lt]) then
        plainArrowAhead (next :: rest)
      else plainArrowAhead (t :: next :: rest)
  | tokens => plainArrowAhead tokens

end Lookahead

namespace Parser

/-! ## §4. Passing over types. -/

/-- Reads the group in angle brackets that comes next, if there is one. -/
def skipAngles : Parser Bool := do
  match Lookahead.angleWidth? 0 0 (← get).ahead with
  | some width =>
      skip width
      return true
  | none => return false

/-- Reads a list of type parameters, if one comes next. -/
def skipTypeParameters : Parser Unit := do
  if (← current).is .lt then discard skipAngles

/-- Reads a type. -/
def skipType : Parser Unit := do
  let width := Lookahead.typeWidth true 0 0 (← get).ahead
  if width = 0 then complain .expectedType
  skip width

/-- Reads a type annotation behind its colon, if one comes next. -/
def skipAnnotation : Parser Unit := do
  if ← accept .colon then skipType

/-- Reads tokens up to an opening brace or another stop; groups in angle
brackets are read as a whole. -/
def skipHeading (stops : List Punct) : Parser Unit :=
  iterate (fun _ => do
    let t ← current
    if t.isEnd || t.isOneOf stops then return .finish ()
    if t.is .lt then
      unless ← skipAngles do skip 1
    else skip 1
    return .again ()) ()

end Parser

end StackLint
