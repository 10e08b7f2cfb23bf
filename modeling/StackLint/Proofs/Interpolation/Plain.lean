/-
  StackLint.Proofs.Interpolation.Plain
  ────────────────────────────────────
  **OPERANDS THAT ARE WRITTEN PLAINLY.**

  An operand that is printed as it is written stands alone: the substitution that it
  becomes is scanned as its lexemes, and these are read as one expression that fills them,
  up to the brace behind them.
-/
import StackLint.Proofs.Interpolation.Joined
import StackLint.Proofs.Parse.Extent
import StackLint.Proofs.Parse.Nested
import StackLint.Proofs.Print.Spelled
import StackLint.Proofs.Rule.Basic

namespace StackLint

open Lookahead (IsBalanced exists_punct_of_opensGroup exists_punct_of_closesGroup
  not_opensGroup_of_closesGroup)

/-! ## §1. Balanced tokens. -/

section

variable {t : Token} {tokens rest : List Token} {depth : Nat}

theorem groupCloses_opener (opens : t.opensGroup = true) :
    groupCloses depth (t :: rest) = groupCloses (depth + 1) rest := by
  obtain ⟨p, isPunct, opens⟩ := exists_punct_of_opensGroup opens
  rw [groupCloses, isPunct]
  dsimp only
  rw [if_pos opens]

theorem groupCloses_closer (closes : t.closesGroup = true) :
    groupCloses depth (t :: rest) = if depth ≤ 1 then true else groupCloses (depth - 1) rest := by
  obtain ⟨p, isPunct, closes⟩ := exists_punct_of_closesGroup closes
  have notOpening : p.opensGroup = false := by
    cases p <;> first | rfl | cases closes
  rw [groupCloses, isPunct]
  dsimp only
  rw [notOpening, if_neg Bool.false_ne_true, if_pos closes]

theorem groupCloses_flat (isFlat : t.isFlat) :
    groupCloses depth (t :: rest) = groupCloses depth rest := by
  obtain ⟨notOpening, notClosing⟩ := isFlat
  unfold Token.opensGroup at notOpening
  unfold Token.closesGroup at notClosing
  rw [groupCloses]
  cases isLexeme : t.lexeme with
  | punct p =>
      rw [isLexeme] at notOpening notClosing
      dsimp only at notOpening notClosing ⊢
      rw [notOpening, notClosing, if_neg Bool.false_ne_true, if_neg Bool.false_ne_true]
  | _ => rfl

/-- Inside a group, balanced tokens are passed over. -/
theorem groupCloses_balanced (balanced : IsBalanced tokens) (depth : Nat) (rest : List Token) :
    groupCloses (depth + 1) (tokens ++ rest) = groupCloses (depth + 1) rest := by
  induction balanced generalizing depth rest with
  | nil => rfl
  | flat isFlat _ ih => rw [List.cons_append, groupCloses_flat isFlat, ih]
  | group opens _ closes _ ihInside ihBehind =>
      rw [List.cons_append, List.append_assoc, List.cons_append, groupCloses_opener opens, ihInside,
        groupCloses_closer closes, if_neg (by omega), Nat.add_sub_cancel, ihBehind]

/-- What is harmless opens neither type arguments nor a template. -/
theorem closesAll_cons (harmless : t.lexeme.isHarmless = true) :
    closesAll (t :: rest) = ((!t.opensGroup || groupCloses 0 (t :: rest)) && closesAll rest) := by
  have notLess : t.is .lt = false := by
    refine beq_eq_false_iff_ne.mpr fun isLess => ?_
    rw [isLess] at harmless
    cases harmless
  have noTemplate : t.opensSubstitution = false := by
    unfold Token.opensSubstitution
    split
    · next isHead =>
        rw [isHead] at harmless
        cases harmless
    · rfl
  rw [closesAll, notLess, noTemplate, Bool.not_false, Bool.true_or, Bool.true_or, Bool.and_true,
    Bool.and_true]

/-- **Balanced tokens close what they open,** in front of others that do so. -/
theorem closesAll_append (balanced : IsBalanced tokens)
    (harmless : ∀ t ∈ tokens, t.lexeme.isHarmless = true) (closes : closesAll rest = true) :
    closesAll (tokens ++ rest) = true := by
  induction balanced generalizing rest with
  | nil => exact closes
  | flat isFlat _ ih =>
      obtain ⟨first, others⟩ := List.forall_mem_cons.mp harmless
      rw [List.cons_append, closesAll_cons first, isFlat.1, ih others closes]
      rfl
  | @group opener closer inner later opens inside isCloser _ ihInside ihBehind =>
      obtain ⟨first, others⟩ := List.forall_mem_cons.mp harmless
      obtain ⟨within, behind⟩ := List.forall_mem_append.mp others
      obtain ⟨last, behind⟩ := List.forall_mem_cons.mp behind
      have closesLater : closesAll (closer :: (later ++ rest)) = true := by
        rw [closesAll_cons last, not_opensGroup_of_closesGroup isCloser, ihBehind behind closes]
        rfl
      have closesHere : groupCloses 0 (opener :: (inner ++ closer :: (later ++ rest))) = true := by
        rw [groupCloses_opener opens, groupCloses_balanced inside, groupCloses_closer isCloser]
        rfl
      rw [List.cons_append, List.append_assoc, List.cons_append, closesAll_cons first, closesHere,
        ihInside within closesLater, Bool.or_true, Bool.and_true]

end

/-- Contained lexemes close what they open. -/
theorem Contained.closesAll {tokens : List Token}
    (contained : Contained (tokens.map Token.lexeme)) : StackLint.closesAll tokens = true := by
  have closes : StackLint.closesAll (tokens ++ []) = true :=
    closesAll_append (contained.balanced tokens rfl)
      (fun t inside => contained.harmless _ (List.mem_map_of_mem inside)) rfl
  rwa [List.append_nil] at closes

namespace Scan

variable {ls : List Lexeme} {stack within behind : List OpenBrace}

/-- A lexeme that fits the open braces leaves the same ones open. -/
theorem bracesAfter_of_nest? {l : Lexeme} (fits : nest? stack l = some within) :
    bracesAfter stack l = within := by
  cases l with
  | punct p =>
      cases p with
      | closeBrace =>
          cases stack with
          | nil => exact Option.some.inj fits
          | cons mark below =>
              cases mark with
              | plain => exact Option.some.inj fits
              | substitution => cases fits
      | _ => exact Option.some.inj fits
  | templateMiddle | templateTail =>
      cases stack with
      | nil => cases fits
      | cons mark below =>
          cases mark with
          | plain => cases fits
          | substitution => exact Option.some.inj fits
  | _ => exact Option.some.inj fits

/-- Lexemes that fit the open braces leave the same ones open. -/
theorem foldl_bracesAfter (fits : ls.foldlM nest? stack = some behind) :
    ls.foldl bracesAfter stack = behind := by
  induction ls generalizing stack with
  | nil => exact Option.some.inj fits
  | cons l ls ih =>
      rw [List.foldlM_cons] at fits
      obtain ⟨within, first, others⟩ := Option.bind_eq_some_iff.mp fits
      rw [List.foldl_cons, bracesAfter_of_nest? first]
      exact ih others

end Scan

namespace Parser

open PulumiOutput (interpolated)
open Scan (tagToken templateTokens Covers)

variable {L P : Layout} {i j : Nat} {ls : List Lexeme} {b : Text} {tokens : List Token}
  {tail : Token}

/-! ## §2. The tokens of a substitution. -/

/-- The part of a template that is the substitution of some code. -/
def substitution (b : Text) : Text :=
  "$\x7b" ++ b ++ "\x7d"

theorem substitution_append (b : Text) : substitution b ++ [.scalar '\x60']
    = .scalar '$' :: .scalar '{' :: (b ++ [.scalar '}', .scalar '\x60']) := by
  unfold substitution
  rw [List.append_assoc, List.append_assoc]
  rfl

/-- **The tokens of a substitution** are those of its code, between two empty texts. -/
structure Substituted (L : Layout) (b : Text) (tokens : List Token) (tail : Token) : Prop where
  scanned : Scanned (substitution b) L ⟨.templateHead [], 2, [.substitution]⟩ (tokens ++ [tail])
  covers : Covers tokens 15 (15 + b.length)
  isTail : tail.lexeme = .templateTail []
  isLast : tail.stop = tail.start + 2
  stop : tail.stop = (interpolated (substitution b)).length

/-- **Portable code is scanned in a substitution** as its lexemes. -/
theorem exists_substituted (portable : P.Portable i j ls)
    (code : P.text.slice (P.startAt i) (P.stopBefore j) = b) :
    ∃ L tokens tail, Substituted L b tokens tail ∧ tokens.map Token.lexeme = ls := by
  have contained := portable.phrase.contained
  let opened : Scan.Memory := ⟨[.substitution], some (.templateHead []), false⟩
  have nests : Scan.Nests opened.braces ls := .of_contained contained _
  obtain ⟨memory, tokens, comes, lexemes, covers⟩ :=
    portable.exists_comes nests 15 (d := .scalar '}') (y := [.scalar '\x60']) (by decide)
  rw [code] at comes covers
  -- Behind the code the substitution is still open.
  have braces : memory.braces = [.substitution] := by
    have fits := comes.nests
    rw [lexemes, contained.nests] at fits
    exact (Option.some.inj fits).symm
  have closes : Scan.tokensFrom memory 0 (15 + b.length) [.scalar '}', .scalar '\x60']
      = templateTokens false memory.newline (15 + b.length) [.scalar '\x60'] := by
    refine Scan.tokensFrom_templatePart rfl ?_ _
    rw [braces]
    rfl
  have ending : templateTokens false memory.newline (15 + b.length) [.scalar '\x60']
      = .ok [⟨.templateTail [], 15 + b.length, 15 + b.length + 1 + 1, memory.newline⟩,
          ⟨.endOfText, 15 + b.length + 1 + 1, 15 + b.length + 1 + 1, false⟩] := by
    have isEmpty : Scan.templatePart false [] [.scalar '\x60'] = .ok ⟨.templateTail [], 1, []⟩ := rfl
    have none := Scan.tokensFrom_nil ⟨[], some (.templateTail []), false⟩ (15 + b.length + 1 + 1)
    unfold templateTokens
    rw [isEmpty]
    exact congrArg (· >>= fun tokens => pure (_ :: tokens)) none
  have read : Scan.templatePart true [] (substitution b ++ [.scalar '\x60'])
      = .ok ⟨.templateHead [], 2, [.substitution]⟩ := by
    rw [substitution_append]
    rfl
  have behind : Scan.tokensFrom (⟨.templateHead [], 2, [.substitution]⟩ : Scan.Found).memory 0
      (13 + 2) ((substitution b ++ [CodePoint.scalar '\x60']).drop 2)
      = .ok (tokens ++ [⟨.templateTail [], 15 + b.length, 15 + b.length + 1 + 1, memory.newline⟩]
          ++ [⟨.endOfText, 15 + b.length + 1 + 1, 15 + b.length + 1 + 1, false⟩]) := by
    rw [substitution_append, List.append_assoc]
    refine (comes.tokensFrom_eq).trans ?_
    rw [closes, ending]
    rfl
  obtain ⟨L, scanned⟩ := exists_scanned_of_run read behind
  refine ⟨L, tokens, _, ⟨scanned, covers, rfl, rfl, ?_⟩, lexemes⟩
  rw [length_interpolated]
  have length := congrArg List.length (substitution_append b)
  simp only [List.length_append, List.length_cons, List.length_nil] at length
  show 15 + b.length + 1 + 1 = _
  omega

/-! ## §3. The expression of a substitution. -/

/-- What is printed has tokens. -/
theorem isSolid_of_printable {n : Tree} (printable : Printable n.shape) :
    n.form.isSolid = true := by
  obtain ⟨span, form⟩ := n
  rw [Node.shape_mk] at printable
  cases form with
  | identifier name =>
      cases printable with
      | identifier plain =>
          obtain ⟨c, rest, rfl, _⟩ := plain.name
          rfl
  | _ => first | rfl | cases printable

/-- The last token that was read is the one in front of those that are left. -/
theorem lastStop_of_ahead {s : ParserState} {front left : List Token} {last : Token} (on : s.On L)
    (whole : L.tokens = front ++ last :: left) (ahead : s.ahead = left) :
    s.lastStop = last.stop := by
  have inside := on.inside
  have length := congrArg List.length on.ahead
  rw [ahead, List.length_drop] at length
  unfold Layout.size at inside
  rw [whole, List.length_append, List.length_cons] at length inside
  have place : s.position = front.length + 1 := by omega
  rw [on.lastStop, place]
  show (L.token front.length).stop = _
  unfold Layout.token
  rw [whole, List.getElem?_append_right (Nat.le_refl _), Nat.sub_self]
  rfl

namespace Substituted

variable (substituted : Substituted L b tokens tail)

include substituted

/-- The lexemes come next behind the text that opens the substitution. -/
theorem sees (contained : Contained (tokens.map Token.lexeme)) :
    ((behindTag L).skip 1).Sees L.size 3 (tokens.map Token.lexeme ++ [.templateTail []]) := by
  have inTemplate := substituted.scanned.inTemplate
  have on := inTemplate.on
  have all : (tokens ++ [tail]).map Token.lexeme = tokens.map Token.lexeme ++ [.templateTail []] := by
    rw [List.map_append, List.map_singleton, substituted.isTail]
  refine ⟨?_, ?_, ?_, on.total, ?_, inTemplate.silent, inTemplate.noIn, inTemplate.depth⟩
  · rw [inTemplate.ahead, all]
  · intro t inside isArrow
    rw [inTemplate.ahead] at inside
    rcases List.mem_append.mp inside with among | isLast
    · have harmless := contained.harmless _ (List.mem_map_of_mem among)
      rw [isArrow] at harmless
      cases harmless
    · rw [List.mem_singleton.mp isLast, substituted.isTail] at isArrow
      cases isArrow
  · rw [on.final]
    exact L.final_spec.1
  · have left := congrArg List.length on.ahead
    have inside := on.inside
    rw [inTemplate.ahead, List.length_drop] at left
    rw [← all, List.length_map]
    unfold Layout.size at inside ⊢
    omega

/-- The substitution begins with the first token of its code. -/
theorem current_start : ((behindTag L).skip 1).current.start = 15 := by
  obtain ⟨first, isFirst, start⟩ := Option.map_eq_some_iff.mp substituted.covers.start
  unfold ParserState.current
  rw [substituted.scanned.inTemplate.ahead, List.head?_append, isFirst]
  exact start

theorem tokens_eq : L.tokens
    = tagToken :: ⟨.templateHead [], 12, 13 + 2, false⟩ :: (tokens ++ [tail]) :=
  substituted.scanned.tokens

/-- Only the last token is left where one lexeme is. -/
theorem ahead_of_sees {s : ParserState} {l : Lexeme} {total depth : Nat} (on : s.On L)
    (sees : s.Sees total depth [l]) : s.ahead = [tail] := by
  obtain ⟨u, isOnly, _⟩ := List.map_eq_singleton_iff.mp sees.ahead
  have suffix : [u] <:+ L.tokens := isOnly ▸ on.ahead ▸ List.drop_suffix _ _
  obtain ⟨front, split⟩ := suffix
  rw [substituted.tokens_eq, ← List.cons_append, ← List.cons_append] at split
  rw [isOnly, (List.append_inj' split rfl).2]

/-- Where only the last token is left, the code has been read. -/
theorem lastStop {s : ParserState} (on : s.On L) (ahead : s.ahead = [tail]) :
    s.lastStop = 15 + b.length := by
  obtain ⟨last, isLast, stop⟩ := Option.map_eq_some_iff.mp substituted.covers.stop
  obtain ⟨front, isFront⟩ := List.getLast?_eq_some_iff.mp isLast
  have whole : L.tokens
      = (tagToken :: ⟨.templateHead [], 12, 13 + 2, false⟩ :: front) ++ last :: [tail] := by
    rw [substituted.tokens_eq, isFront, List.append_assoc]
    rfl
  rw [lastStop_of_ahead on whole ahead, stop]

/-- **The expression is read** up to the end of the substitution, and it is the code. -/
theorem expression_run {e : Shape} (printable : Printable e)
    (lexemes : tokens.map Token.lexeme = e.lexemes)
    (shallow : e.levels + 4 ≤ maxNesting) (room : e.calls + 1 ≤ templateBudget) :
    ∃ expr s₁, (expression (.ofBudget templateBudget)).run ((behindTag L).skip 1) = .ok expr s₁
      ∧ Reads L ((behindTag L).skip 1) s₁ ∧ s₁.ahead = [tail] ∧ s₁.complaints = []
      ∧ expr.info = ⟨15, 15 + b.length⟩ := by
  obtain ⟨left, isBudget⟩ : ∃ left, templateBudget = left + 1 := ⟨templateBudget - 1, by omega⟩
  have reads : ReadsBack L.size 3 (assignment (.ofBudget left)) e :=
    (Legible.of_printable printable).asValue L.size 3 left ⟨by omega, by omega⟩
  have sees := substituted.sees (lexemes ▸ printable.phrase.contained)
  rw [lexemes] at sees
  have on := substituted.scanned.inTemplate.on
  have consumes : Consumes L.size 3 (e.lexemes ++ [.templateTail []])
      (expression (.ofBudget (left + 1))) [.templateTail []] (·.shape = e) :=
    ReadsBack.expression reads rfl nofun nofun
  rw [isBudget]
  obtain ⟨expr, s₁, run, sees₁, same⟩ := consumes _ sees
  have sound := Grammar.ofBudget_sound L (left + 1)
  have built := expression_builds sound _ on expr s₁ run
  have reads₁ := built.laid.reads
  have ahead := substituted.ahead_of_sees reads₁.on sees₁
  refine ⟨expr, s₁, run, reads₁, ahead, sees₁.complaints, ?_⟩
  -- No decorator begins an expression that is printed.
  have plain : ((behindTag L).skip 1).current.is .atSign = false := by
    have begins := printable.phrase.firstOf_begins [.templateTail []]
    rw [← sees.current.lexeme] at begins
    exact beq_eq_false_iff_ne.mpr (Lexeme.ne_punct_of_begins begins rfl)
  have fills := expression_fills sound (assignment_fills (Grammar.ofBudget_sound L left)) _ on plain
    _ _ run
  have wide : expr.info.start < expr.info.stop := by
    cases built.laid.places with
    | cons placed _ => exact placed.wide (isSolid_of_printable (same ▸ printable))
  exact congrArg₂ Span.mk (fills.start.trans substituted.current_start)
    ((fills.stop wide).trans (substituted.lastStop reads₁.on ahead))

/-- **The substitution is the whole template,** and says its code. -/
theorem ofText? {e : Shape} (printable : Printable e)
    (lexemes : tokens.map Token.lexeme = e.lexemes)
    (shallow : e.levels + 4 ≤ maxNesting) (room : e.calls + 1 ≤ templateBudget) :
    Content.ofText? (interpolated (substitution b)) = some ⟨[], [(b, [])]⟩ := by
  obtain ⟨expr, s₁, run, reads, ahead, silent, info⟩ :=
    substituted.expression_run printable lexemes shallow room
  have isCurrent : s₁.current = tail := by
    unfold ParserState.current
    rw [ahead]
    rfl
  have continues : s₁.current.continuesTemplate = true := by
    rw [isCurrent]
    unfold Token.continuesTemplate
    rw [substituted.isTail]
  have round : (spanRound (.ofBudget templateBudget) []).run ((behindTag L).skip 1) = _ :=
    spanRound_run run continues
  rw [isCurrent, roundBehind_tail substituted.isTail] at round
  have spans : (templateSpans (.ofBudget templateBudget)).run ((behindTag L).skip 1)
      = .ok [spanOf expr tail] (s₁.skip 1) := by
    rw [templateSpans_eq]
    have behind := reads.on.skip 1
    have le : ((behindTag L).skip 1).position ≤ (s₁.skip 1).position := by
      rw [ParserState.skip_position (s := s₁)]
      exact Nat.le_trans reads.le (Nat.le_add_right _ _)
    exact (Loops.finish round le).iterate (substituted.scanned.inTemplate.on.total ▸ behind.inside)
  have opens : (behindTag L).current.lexeme = .templateHead [] := by
    rw [substituted.scanned.current]
  have template := (template_run opens).trans (run_bind spans _)
  have isEnd : (s₁.skip 1).ahead = [] := by
    show s₁.ahead.drop 1 = []
    rw [ahead]
    rfl
  have stop : (s₁.skip 1).lastStop = L.text.length := by
    show ((s₁.ahead.take 1).getLast?.map Token.stop).getD s₁.lastStop = _
    rw [ahead, substituted.scanned.text]
    exact substituted.stop
  have whole := substituted.scanned.begins.ofText?_of_isWhole ⟨template, isEnd, stop, silent⟩
  have isCode : (interpolated (substitution b)).slice 15 (15 + b.length) = b := by
    unfold Text.slice
    rw [Nat.add_sub_cancel_left, show 15 = 13 + 2 from rfl, ← List.drop_drop, drop_interpolated,
      substitution_append]
    exact List.take_left
  rw [← substituted.scanned.text, whole, Content.ofTemplate,
    List.filterMap_cons_some (piece?_spanOf _ _ _), info, substituted.scanned.text, isCode,
    substituted.isTail]
  rfl

/-- **The substitution closes what it opens.** -/
theorem isClosedPart (phrase : Phrase (tokens.map Token.lexeme)) :
    PulumiOutput.isClosedPart (substitution b) = true := by
  have parts := substituted.scanned.partTokens
  have inner : PulumiOutput.innerTokens (substitution b) = tokens := by
    unfold PulumiOutput.innerTokens
    rw [parts, List.tail_cons, List.dropLast_concat]
  unfold PulumiOutput.isClosedPart
  rw [inner, parts, ← List.cons_append, List.dropLast_concat, List.map_cons,
    phrase.contained.closesAll, Scan.foldl_bracesAfter (phrase.contained.nests _)]
  exact decide_eq_true (List.isChain_cons.mpr ⟨phrase.precedes_head _, phrase.chain⟩)

/-- Behind the brace nothing is left. -/
theorem lastText : PulumiOutput.lastText (substitution b) = [] := by
  unfold PulumiOutput.lastText
  rw [substituted.scanned.partTokens, ← List.cons_append, List.getLast?_concat]
  refine Text.slice_self _ ?_
  rw [substituted.isLast]
  omega

end Substituted

end Parser

open StackLint.Parser (substitution exists_substituted)

namespace PulumiOutput

/-! ## §4. Operands. -/

/-- **An operand that is written plainly.**  It is no string, it can be printed, and its tokens
are the printed ones.  There is room for it in a template, and something stands behind it that
no braced escape is left open to. -/
structure IsPlain (s : Source) (operand : Tree) : Prop where
  noString : ∀ value quote, operand.unwrap.form ≠ .stringLiteral value quote
  printable : Printable operand.shape
  printed : s.lexemesOf operand = operand.shape.lexemes
  shallow : operand.shape.levels + 4 ≤ Parser.maxNesting
  room : operand.shape.calls + 1 ≤ Parser.templateBudget
  more : operand.info.stop < s.text.length
  escapes : CodePoint.scalar '\\' ∈ s.textOf operand →
    CodePoint.scalar '}' ∈ s.text.drop operand.info.stop

variable {s : Source} {L : Layout} {operand : Tree}

/-- Nothing that is printed is a template. -/
theorem unwrap_ne_template {n : Tree} (printable : Printable n.shape) (head : Text)
    (spans : List Tree) : n.unwrap.form ≠ .templateLiteral head spans := by
  induction n using Node.unwrap.induct with
  | case1 info inner ih =>
      rw [Node.shape_mk] at printable
      cases printable with
      | parenthesized ofInner => exact ih ofInner
  | case2 info inner assertion ih =>
      rw [Node.shape_mk] at printable
      cases printable
  | case3 n notParen notAssertion =>
      rw [Node.unwrap_of_not_wrapper notParen notAssertion]
      obtain ⟨info, form⟩ := n
      rintro rfl
      rw [Node.shape_mk] at printable
      cases printable

/-- **A plain operand becomes a substitution** of its own. -/
theorem IsPlain.templatePart (plain : IsPlain s operand) :
    templatePart s operand = substitution (s.textOf operand)
      ∧ Content.ofOperand s operand = ⟨[], [(s.textOf operand, [])]⟩ := by
  unfold PulumiOutput.templatePart Content.ofOperand
  cases form : operand.unwrap.form with
  | stringLiteral value quote => exact absurd form (plain.noString value quote)
  | templateLiteral head spans => exact absurd form (unwrap_ne_template plain.printable head spans)
  | _ =>
      simp only [form]
      exact ⟨rfl, trivial⟩

theorem IsPlain.portable (on : s.On L) (closed : s.text.closesLiterals = true)
    (inside : operand ∈ s.tree.preorder) (plain : IsPlain s operand) :
    ∃ i j, L.Portable i j operand.shape.lexemes
      ∧ L.text.slice (L.startAt i) (L.stopBefore j) = s.textOf operand := by
  have solid := Parser.isSolid_of_printable plain.printable
  obtain ⟨heard, lo, hi, placed⟩ := on.placed_of_strict inside (Form.isSolid_iff.mp solid).1
  obtain ⟨i, j, less, before, upTo, range⟩ := placed.exists_range solid
  have isText : L.text.slice (L.startAt i) (L.stopBefore j) = s.textOf operand := by
    unfold Source.textOf
    rw [range, on.text]
  have stop : operand.info.stop = L.stopBefore j := congrArg Span.stop range
  refine ⟨i, j, ⟨less, upTo, plain.printable.phrase, ?_, ?_, ?_, ?_⟩, isText⟩
  · rw [← Source.lexemesOf_eq on.text (Nat.le_of_lt less) upTo range]
    exact plain.printed
  · exact Layout.isClosed_token (on.text ▸ closed) (by omega)
  · have more := plain.more
    rw [← on.text, stop] at more
    exact fun none => absurd more (Nat.not_lt.mpr (List.drop_eq_nil_iff.mp none))
  · rw [isText, ← stop, on.text]
    exact plain.escapes

/-- **A plain operand stands alone,** and takes nothing from what comes behind it. -/
theorem IsPlain.keepsApart (on : s.On L) (closed : s.text.closesLiterals = true)
    (inside : operand ∈ s.tree.preorder) (plain : IsPlain s operand) (rest : Text) :
    keepsOperandApart s operand rest = true := by
  obtain ⟨i, j, portable, code⟩ := plain.portable on closed inside
  obtain ⟨L', tokens, tail, substituted, lexemes⟩ := exists_substituted portable code
  obtain ⟨isPart, isContent⟩ := plain.templatePart
  have phrase : Phrase (tokens.map Token.lexeme) := lexemes ▸ plain.printable.phrase
  have alone : standsAlone s operand = true := by
    unfold standsAlone
    rw [isPart, isContent, substituted.isClosedPart phrase, Bool.and_true]
    exact decide_eq_true (substituted.ofText? plain.printable lexemes plain.shallow plain.room)
  unfold keepsOperandApart
  split
  · next value quote isString => exact absurd isString (plain.noString value quote)
  · rw [alone, isPart, substituted.lastText]
    rfl

end PulumiOutput

end StackLint
