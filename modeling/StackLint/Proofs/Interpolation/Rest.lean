/-
  StackLint.Proofs.Interpolation.Rest
  ───────────────────────────────────
  **WHAT AN INTERPOLATED TEMPLATE SAYS.**

  An interpolated template says texts and substitutions, one behind the other.  The
  operands of a chain of additions say such contents, too: a string says its text, a
  template says what is in it, and everything else is a substitution of its own.

  `Rest T o c` says that from the offset `o` on, which lies in template text, the text
  `T` says the content `c` up to its end.  Such a rest is built from the end: a text in
  front of it that has no substitutions says what it says alone, and so does a part that
  has substitutions.
-/
import StackLint.Proofs.Interpolation.Scan
import StackLint.Proofs.Interpolation.Spans
import StackLint.Proofs.Token.Seam
import StackLint.Proofs.View.Shift
import StackLint.Rule.PulumiOutput

namespace StackLint

/-- What a template says: the text in front of its substitutions, and each substitution,
as it is written, with the text behind it. -/
structure Content where
  head : Text
  pieces : List (Text × Text)
  deriving DecidableEq, Repr

namespace Content

/-! ## §1. One behind the other. -/

/-- A content behind a text with substitutions; texts that meet become one. -/
def behind (content : Content) (head : Text) : List (Text × Text) → Content
  | [] => ⟨head ++ content.head, content.pieces⟩
  | (substitution, literal) :: pieces =>
      ⟨head, (substitution, (content.behind literal pieces).head)
        :: (content.behind literal pieces).pieces⟩

instance : Append Content where
  append first content := content.behind first.head first.pieces

/-- Contents one behind the other. -/
def concat (contents : List Content) : Content :=
  contents.foldr (· ++ ·) ⟨[], []⟩

variable {content : Content} {head : Text}

theorem behind_concat (pieces : List (Text × Text)) (substitution literal : Text) :
    (⟨head, pieces ++ [(substitution, literal)]⟩ : Content) ++ content
      = ⟨head, pieces ++ (substitution, literal ++ content.head) :: content.pieces⟩ := by
  show content.behind head _ = _
  induction pieces generalizing head with
  | nil => rfl
  | cons piece pieces ih => rw [List.cons_append, behind, ih, List.cons_append]

/-! ## §2. Trees. -/

/-- The substitution of a template span with the text behind it. -/
def piece? (t : Text) (span : Tree) : Option (Text × Text) :=
  match span.form with
  | .templateSpan expr literal => some (t.slice expr.info.start expr.info.stop, literal)
  | _ => none

/-- What a template literal of a text says. -/
def ofTemplate (t : Text) (head : Text) (spans : List Tree) : Content :=
  ⟨head, spans.filterMap (piece? t)⟩

/-- What an operand says. -/
def ofOperand (s : Source) (operand : Tree) : Content :=
  match operand.unwrap.form with
  | .stringLiteral value _ => ⟨value, []⟩
  | .templateLiteral head spans => ofTemplate s.text head spans
  | _ => ⟨[], [(s.textOf operand, [])]⟩

/-- What a program says that is one interpolated template from the beginning of its text to
the end, without complaints. -/
def ofProgram? (t : Text) (program : Program) : Option Content :=
  match program with
  | ⟨.mk _ (.program [.mk _ (.expressionStatement (.mk span (.taggedTemplate
      (.mk _ (.identifier tag)) (.mk _ (.templateLiteral head spans)))))]), []⟩ =>
      if tag = PulumiOutput.interpolateTag ∧ span = ⟨0, t.length⟩ then
        some (ofTemplate t head spans)
      else none
  | _ => none

theorem ofProgram?_eq_some {t : Text} {program : Program}
    (isContent : ofProgram? t program = some content) :
    ∃ whole outer tag span head spans,
      program = ⟨.mk whole (.program [.mk outer (.expressionStatement (.mk ⟨0, t.length⟩
        (.taggedTemplate (.mk tag (.identifier PulumiOutput.interpolateTag))
          (.mk span (.templateLiteral head spans)))))]), []⟩
        ∧ content = ofTemplate t head spans := by
  unfold ofProgram? at isContent
  split at isContent
  · split at isContent
    · next isTag =>
        cases isContent
        obtain ⟨rfl, rfl⟩ := isTag
        exact ⟨_, _, _, _, _, _, rfl, rfl⟩
    · cases isContent
  · cases isContent

/-- **What a text says** that is parsed as one interpolated template. -/
def ofText? (t : Text) : Option Content :=
  (parse t).toOption.bind (ofProgram? t)

end Content

/-! ## §3. Slices of two texts. -/

/-- What stands in a part that two texts have in common. -/
theorem Text.slice_along {t t' part rest rest' : Text} {place distance : Nat}
    (whole : t.drop place = part ++ rest) (whole' : t'.drop (place + distance) = part ++ rest')
    {start stop : Nat} (behind : place ≤ start) (inside : stop ≤ place + part.length) :
    t'.slice (start + distance) (stop + distance) = t.slice start stop := by
  rcases Nat.le_total stop start with none | some
  · rw [Text.slice_self _ none, Text.slice_self _ (by omega)]
  obtain ⟨skip, rfl⟩ := Nat.exists_eq_add_of_le behind
  have short : skip ≤ part.length := by omega
  have left : t.drop (place + skip) = part.drop skip ++ rest := by
    rw [← List.drop_drop, whole, List.drop_append_of_le_length short]
  have left' : t'.drop (place + skip + distance) = part.drop skip ++ rest' := by
    rw [Nat.add_right_comm, ← List.drop_drop, whole', List.drop_append_of_le_length short]
  have fits : stop - (place + skip) ≤ (part.drop skip).length := by
    rw [List.length_drop]
    omega
  unfold Text.slice
  rw [left, left', Nat.add_sub_add_right, List.take_append_of_le_length fits,
    List.take_append_of_le_length fits]

open Scan (TemplateText templateBody templateTokens tokensFrom)

/-! ## §4. Moved tokens. -/

theorem Token.view_along (k lead : Nat) : Token.view (.along k lead) = Token.shift k := by
  funext t
  obtain ⟨lexeme, start, stop, newline⟩ := t
  cases lexeme <;> rfl

section

variable (v : View)

theorem Token.view_opensGroup (t : Token) : (t.view v).opensGroup = t.opensGroup := by
  unfold opensGroup
  rw [view_lexeme]
  cases t.lexeme <;> rfl

theorem Token.view_opensSubstitution (t : Token) :
    (t.view v).opensSubstitution = t.opensSubstitution := by
  unfold opensSubstitution
  rw [view_lexeme]
  cases t.lexeme <;> rfl

variable {v}

/-- What sees no difference under a view sees none between tokens that look the same. -/
theorem eq_of_view_eq {α : Type} {f : List Token → α}
    (sees : ∀ tokens, f (tokens.map (Token.view v)) = f tokens) {tokens tokens' : List Token}
    (same : tokens'.map (Token.view v) = tokens.map (Token.view v)) : f tokens' = f tokens := by
  rw [← sees, same, sees]

/-- **Tokens that look like enclosed ones** are enclosed. -/
theorem Enclosed.of_view_eq {tokens tokens' : List Token}
    (same : tokens'.map (Token.view v) = tokens.map (Token.view v)) (enclosed : Enclosed tokens) :
    Enclosed tokens' := by
  have counterpart {t' : Token} {rest' : List Token} (inside : t' :: rest' <:+ tokens') :
      ∃ t rest, t :: rest <:+ tokens ∧ t'.view v = t.view v
        ∧ rest'.map (Token.view v) = rest.map (Token.view v) := by
    obtain ⟨front, rfl⟩ := inside
    rw [List.map_append, eq_comm, List.map_eq_append_iff] at same
    obtain ⟨front', back, rfl, _, isBack⟩ := same
    rw [List.map_cons, List.map_eq_cons_iff] at isBack
    obtain ⟨t, rest, rfl, isToken, isRest⟩ := isBack
    exact ⟨t, rest, List.suffix_append _ _, isToken.symm, isRest.symm⟩
  have looks {t t' : Token} {rest rest' : List Token} (isToken : t'.view v = t.view v)
      (isRest : rest'.map (Token.view v) = rest.map (Token.view v)) :
      (t' :: rest').map (Token.view v) = (t :: rest).map (Token.view v) := by
    rw [List.map_cons, List.map_cons, isToken, isRest]
  have longer {rest rest' : List Token} (isRest : rest'.map (Token.view v) = rest.map (Token.view v))
      (more : List Token) : (rest' ++ more).map (Token.view v) = (rest ++ more).map (Token.view v) := by
    rw [List.map_append, List.map_append, isRest]
  refine ⟨?_, ?_, ?_⟩
  · intro t' rest' inside opens more
    obtain ⟨t, rest, inside, isToken, isRest⟩ := counterpart inside
    rw [← Token.view_opensGroup v, isToken, Token.view_opensGroup] at opens
    have sees := Parser.groupWidth_map v 0
    rw [eq_of_view_eq sees (looks isToken (longer isRest more)),
      eq_of_view_eq sees (looks isToken isRest)]
    exact enclosed.groups t rest inside opens more
  · intro t' rest' inside isLess more
    obtain ⟨t, rest, inside, isToken, isRest⟩ := counterpart inside
    rw [← Token.view_is v, isToken, Token.view_is] at isLess
    have sees := Lookahead.angleWidth?_map v 0 0
    rw [eq_of_view_eq sees (looks isToken (longer isRest more)),
      eq_of_view_eq sees (looks isToken isRest)]
    exact enclosed.angles t rest inside isLess more
  · intro t' rest' inside opens more
    obtain ⟨t, rest, inside, isToken, isRest⟩ := counterpart inside
    rw [← Token.view_opensSubstitution v, isToken, Token.view_opensSubstitution] at opens
    have sees := Lookahead.templateWidth_map v
    rw [eq_of_view_eq sees (longer isRest more), eq_of_view_eq sees isRest]
    exact enclosed.templates t rest inside opens more

end

theorem Enclosed.shift {tokens : List Token} (enclosed : Enclosed tokens) (k : Nat) :
    Enclosed (tokens.map (Token.shift k)) := by
  refine enclosed.of_view_eq (v := .placeless) ?_
  rw [List.map_map]
  rfl

/-! ## §5. Rests. -/

namespace Parser

/-- The parser stands in an interpolated template that has been silent so far, between the
tag and its end: these tokens are ahead, and the last token read ends at `stop`. -/
structure InTemplate (L : Layout) (depth : Nat) (tokens : List Token) (stop : Nat)
    (s : ParserState) : Prop where
  on : s.On L
  ahead : s.ahead = tokens
  lastStop : s.lastStop = stop
  begun : 2 ≤ s.position
  silent : s.complaints = []
  noIn : s.noIn = false
  depth : s.depth = depth

/-- **Substitutions up to the end of the text:** from these tokens on, the rounds of a
template read these pieces, and nothing is left. -/
def ReadsPieces (budget depth : Nat) (T : Text) (stop : Nat) (tokens : List Token)
    (pieces : List (Text × Text)) : Prop :=
  ∀ (L : Layout) (s : ParserState), L.text = T → InTemplate L depth tokens stop s →
    ∀ read : List Tree, ∃ spans s₁,
      Loops (spanRound (.ofBudget budget)) s read (read.reverse ++ spans) s₁
        ∧ spans.filterMap (Content.piece? T) = pieces ∧ InTemplate L depth [] T.length s₁

/-- **What a text says from some offset on** that lies in a template, up to its end. -/
inductive Rest (budget depth : Nat) (T : Text) (o : Nat) : Content → Prop
  | ends {value : Text} (body : templateBody 0 (T.drop o) = .ok ⟨⟨value, T.length - o⟩, false⟩) :
      Rest budget depth T o ⟨value, []⟩
  | opens {value : Text} {width : Nat} {tokens : List Token} {final : Token}
      {pieces : List (Text × Text)} (body : templateBody 0 (T.drop o) = .ok ⟨⟨value, width⟩, true⟩)
      (cut : tokensFrom .substituting 0 (o + width) (T.drop (o + width)) = .ok (tokens ++ [final]))
      (reads : ReadsPieces budget depth T (o + width) tokens pieces) :
      Rest budget depth T o ⟨value, pieces⟩

variable {budget depth : Nat} {T part z value : Text} {o : Nat} {content : Content}

/-- A backtick ends the template. -/
theorem rest_backtick (left : T.drop o = [.scalar '\x60']) : Rest budget depth T o ⟨[], []⟩ := by
  have width : T.length - o = 1 := by
    rw [← List.length_drop, left]
    rfl
  refine .ends ?_
  rw [left, width]
  rfl

/-- Behind a part of the text. -/
theorem drop_part (left : T.drop o = part ++ z) : T.drop (o + part.length) = z := by
  rw [← List.drop_drop, left, List.drop_left]

/-- **A text without substitutions** in front of a rest. -/
theorem rest_text (left : T.drop o = part ++ z)
    (read : templateBody 0 (part ++ z)
      = (templateBody 0 z).map (TemplateText.behind part value))
    (rest : Rest budget depth T (o + part.length) content) :
    Rest budget depth T o (⟨value, []⟩ ++ content) := by
  have behind : T.drop (o + part.length) = z := drop_part left
  cases rest with
  | @ends literal body =>
      have width : T.length - o = part.length + (T.length - (o + part.length)) := by
        rw [← List.length_drop, ← List.length_drop, left, behind, List.length_append]
      refine .ends ?_
      rw [behind] at body
      rw [left, read, body, width]
      rfl
  | @opens literal width tokens final pieces body cut reads =>
      rw [behind] at body
      rw [Nat.add_assoc] at cut reads
      refine .opens ?_ cut reads
      rw [left, read, body]
      rfl

/-! ## §6. The token behind the last substitution of a part. -/

/-- **Template text in front of a rest:** the token `edge` says `literal` and what the rest
begins with.  Behind it the rest goes on. -/
structure Edge (budget depth : Nat) (T literal : Text) (content : Content) (start : Nat)
    (newline : Bool) (edge : Token) (beyond : List Token) : Prop where
  continues : edge.continuesTemplate = true
  value : edge.lexeme.value = literal ++ content.head
  start : edge.start = start
  newline : edge.newlineBefore = newline
  goesOn : ∀ (L : Layout) (s : ParserState), L.text = T → InTemplate L depth beyond edge.stop s →
    ∀ read : List Tree, ∃ spans s₁,
      (roundBehind edge read).Ends (spanRound (.ofBudget budget)) s (read.reverse ++ spans) s₁
        ∧ spans.filterMap (Content.piece? T) = content.pieces ∧ InTemplate L depth [] T.length s₁

theorem exists_edge {last literal : Text} {start : Nat} (newline : Bool)
    (left : T.drop (start + 1) = last ++ z) (inside : start < T.length)
    (read : templateBody 0 (last ++ z)
      = (templateBody 0 z).map (TemplateText.behind last literal))
    (rest : Rest budget depth T (start + 1 + last.length) content) :
    ∃ edge beyond final, templateTokens false newline start (last ++ z)
        = .ok (edge :: (beyond ++ [final]))
      ∧ Edge budget depth T literal content start newline edge beyond := by
  have length := congrArg List.length left
  rw [List.length_drop, List.length_append] at length
  cases rest with
  | @ends value body =>
      have width : T.length - (start + 1 + last.length) = z.length := by omega
      have stop : start + 1 + (last.length + z.length) = T.length := by omega
      rw [drop_part left, width] at body
      rw [body] at read
      refine ⟨⟨.templateTail (literal ++ value), start, start + 1 + (last.length + z.length), newline⟩,
        [], ⟨.endOfText, start + 1 + (last.length + z.length), start + 1 + (last.length + z.length),
          false⟩, ?_, ⟨rfl, rfl, rfl, rfl, ?_⟩⟩
      · unfold templateTokens Scan.templatePart
        rw [read]
        show (tokensFrom ⟨[], some _, false⟩ 0 (start + 1 + (last.length + z.length))
          ((last ++ z).drop (last.length + z.length)) >>= _) = _
        rw [← List.length_append, List.drop_length, Scan.tokensFrom_nil, List.length_append]
        rfl
      · intro L s _ inTemplate read
        exact ⟨[], s, ⟨(List.append_nil _).symm, rfl⟩, rfl, stop ▸ inTemplate⟩
  | @opens value width tokens final pieces body cut reads =>
      have behind : (last ++ z).drop (last.length + width)
          = T.drop (start + 1 + last.length + width) := by
        rw [← List.drop_drop, ← List.drop_drop, drop_part left, List.drop_left]
      rw [drop_part left] at body
      rw [body] at read
      rw [Nat.add_assoc (start + 1)] at cut reads behind
      refine ⟨⟨.templateMiddle (literal ++ value), start, start + 1 + (last.length + width), newline⟩,
        tokens, final, ?_, ⟨rfl, rfl, rfl, rfl, reads⟩⟩
      unfold templateTokens Scan.templatePart
      rw [read]
      show (tokensFrom ⟨[.substitution], some _, false⟩ 0 (start + 1 + (last.length + width))
        ((last ++ z).drop (last.length + width)) >>= _) = _
      rw [Scan.tokensFrom_substituting rfl, behind, cut]
      rfl

/-! ## §7. A part with substitutions. -/

/-- Behind one of the last tokens of a layout. -/
theorem on_skip_of_suffix {L : Layout} {s : ParserState} {t : Token} {rest : List Token}
    (ahead : s.ahead = t :: rest) (suffix : t :: rest <:+ L.tokens) (final : s.final = L.final)
    (total : s.total = L.size) (whole : s.position + s.ahead.length = L.size) :
    (s.skip 1).On L := by
  obtain ⟨front, isTokens⟩ := suffix
  have size : L.size = front.length + (rest.length + 1) := by
    unfold Layout.size
    rw [← isTokens, List.length_append, List.length_cons]
  have place : s.position = front.length := by
    rw [ahead, List.length_cons] at whole
    omega
  have position : (s.skip 1).position = front.length + 1 := by
    rw [ParserState.skip_position, ahead, place, List.length_cons, Nat.min_eq_left (by omega)]
  refine ⟨?_, final, by omega, total, ?_⟩
  · show s.ahead.drop 1 = _
    rw [ahead, position, ← isTokens, ← List.drop_drop, List.drop_left]
  · show ((s.ahead.take 1).getLast?.map Token.stop).getD s.lastStop = _
    have isToken : L.token front.length = t := by
      unfold Layout.token
      rw [← isTokens, List.getElem?_append_right (Nat.le_refl _), Nat.sub_self]
      rfl
    rw [ahead, position, Layout.stopBefore, isToken]
    rfl

/-- A substitution of a part is written as it is where the part stands alone. -/
theorem piece?_view {A y : Text} {k lead lo hi : Nat} {span : Tree} (within : SpanWithin lo hi span)
    (behind : 13 ≤ lo) (before : hi ≤ 13 + part.length) (alone : A.drop 13 = part ++ y)
    (left : T.drop (13 + k) = part ++ z) :
    Content.piece? T (span.view (.along k lead)) = Content.piece? A span := by
  obtain ⟨expr, literal, form, start, stop⟩ := within
  have viewed : (span.view (.along k lead)).form
      = ((span.form.map (Node.view (.along k lead))).relabel (.along k lead)) := by
    cases span
    rw [Node.view_mk]
    rfl
  unfold Content.piece?
  rw [viewed, form]
  show some (T.slice (expr.view (.along k lead)).info.start (expr.view (.along k lead)).info.stop,
    literal) = some (A.slice expr.info.start expr.info.stop, literal)
  rw [Node.view_info]
  have same : T.slice (expr.info.start + k) (expr.info.stop + k)
      = A.slice expr.info.start expr.info.stop :=
    Text.slice_along alone left (by omega) (by omega)
  exact congrArg (fun slice => some (slice, literal)) same

theorem piece?_spanOf (t : Text) (expr : Tree) (part : Token) :
    Content.piece? t (spanOf expr part)
      = some (t.slice expr.info.start expr.info.stop, part.lexeme.value) :=
  rfl

/-- **A part that stands alone:** the rounds of a template read all its substitutions, up to
the token behind the last of them, without complaints. -/
structure Alone (budget depth : Nat) (part : Text) (inner : List Token) (tail : Token) (stop : Nat)
    (L : Layout) (s s₁ : ParserState) (spans : List Tree) : Prop where
  left : L.text.drop 13 = part ++ [.scalar '\x60']
  inTemplate : InTemplate L depth (inner ++ [tail]) stop s
  position : s.position = 2
  run : (templateSpans (.ofBudget budget)).run s = .ok spans s₁
  whole : s₁.ahead = []
  silent : s₁.complaints = []

section

variable {inner beyond : List Token} {tail edge : Token} {stop k : Nat} {L : Layout}
  {s s₁ : ParserState} {spans : List Tree} {literal : Text}

theorem continues_of_tail (isTail : tail.lexeme = .templateTail literal) :
    tail.continuesTemplate = true := by
  unfold Token.continuesTemplate
  rw [isTail]

/-- The rest of the longer template comes in the place of the backtick. -/
def Edge.fork (isEdge : Edge budget depth T literal content (tail.start + k) tail.newlineBefore edge beyond)
    (isTail : tail.lexeme = .templateTail literal) (L : Layout) (lead : Nat) : Fork where
  edge := tail.view (.along k lead)
  beyond := []
  edge' := edge
  beyond' := beyond
  final' := L.final
  total := L.size
  continues := (Token.view_continuesTemplate _ tail).trans (continues_of_tail isTail)
  continues' := isEdge.continues
  start := isEdge.start
  newline := isEdge.newline

variable (isEdge : Edge budget depth T literal content (tail.start + k) tail.newlineBefore edge beyond)
  (isTail : tail.lexeme = .templateTail literal)
  (alone : Alone budget depth part inner tail stop L s s₁ spans)

include isEdge isTail alone

theorem Alone.detour (lead : Nat) (L' : Layout) :
    Detour L (.along k lead) (isEdge.fork isTail L' lead) tail := by
  refine ⟨?_, ⟨literal, isTail⟩, rfl, rfl⟩
  refine List.IsSuffix.trans ?_ (List.drop_suffix s.position L.tokens)
  rw [← alone.inTemplate.on.ahead, alone.inTemplate.ahead]
  exact List.suffix_append _ _

/-- The part alone and the part in front of the rest meet the fork. -/
theorem Alone.meets (enclosed : Enclosed inner) {L' : Layout} {s' : ParserState}
    (inTemplate' : InTemplate L' depth (inner.map (Token.shift k) ++ edge :: beyond) (stop + k) s')
    {lead : Nat} (isLead : s'.position = 2 + lead) :
    (isEdge.fork isTail L' lead).Meets (inner.map (Token.shift k)) (s.view (.along k lead)) s' := by
  have on' := inTemplate'.on
  have inside' := on'.inside
  have left := congrArg List.length on'.ahead
  rw [List.length_drop] at left
  refine ⟨?_, inTemplate'.ahead, enclosed.shift k, ?_, ?_, ?_, ?_, ?_, on'.final, on'.total, ?_⟩
  · show s.ahead.map (Token.view (.along k lead)) = _ ++ [tail.view (.along k lead)]
    rw [alone.inTemplate.ahead, List.map_append, Token.view_along]
    rfl
  · rw [isLead, ← alone.position]
    rfl
  · show s'.lastStop = s.lastStop + k
    rw [inTemplate'.lastStop, alone.inTemplate.lastStop]
  · show s'.complaints = s.complaints.map _
    rw [inTemplate'.silent, alone.inTemplate.silent]
    rfl
  · exact inTemplate'.noIn.trans alone.inTemplate.noIn.symm
  · exact inTemplate'.depth.trans alone.inTemplate.depth.symm
  · show s'.position + s'.ahead.length = L'.size
    unfold Layout.size at inside' ⊢
    omega

/-- **A part with substitutions is read** in front of a rest as it is read alone. -/
theorem readsPieces_splice (enclosed : Enclosed inner) (left : T.drop (13 + k) = part ++ z)
    (behind : 13 ≤ stop) (before : tail.start ≤ 13 + part.length) (value : Text) :
    ReadsPieces budget depth T (stop + k) (inner.map (Token.shift k) ++ edge :: beyond)
      (Content.ofTemplate L.text value spans ++ content).pieces := by
  intro L' s' isText inTemplate' read
  obtain ⟨lead, isLead⟩ := Nat.exists_eq_add_of_le inTemplate'.begun
  have on := alone.inTemplate.on
  have on' := inTemplate'.on
  have run := alone.run
  rw [templateSpans_eq] at run
  obtain ⟨others, expr, s₂, s₂', rejoined⟩ := exists_rejoined (alone.detour isEdge isTail lead L')
    (Grammar.ofBudget_sound L budget) (Grammar.ofBudget_commutes _ budget)
    (Grammar.ofBudget_tracks _ budget) run alone.silent alone.whole on alone.inTemplate.noIn
    (.meets (alone.meets isEdge isTail enclosed inTemplate' isLead))
  have meets := rejoined.meets
  -- Behind the edge the parser stands in the template again.
  have inTemplate : InTemplate L' depth beyond edge.stop (s₂'.skip 1) := by
    have ahead : s₂'.ahead = edge :: beyond := meets.ahead'
    refine ⟨?_, ?_, ?_, ?_, ?_, ?_, ?_⟩
    · refine on_skip_of_suffix ahead ?_ meets.final meets.total meets.whole
      refine List.IsSuffix.trans ?_ (List.drop_suffix s'.position L'.tokens)
      rw [← on'.ahead, inTemplate'.ahead]
      exact List.suffix_append _ _
    · show s₂'.ahead.drop 1 = beyond
      rw [ahead]
      rfl
    · show ((s₂'.ahead.take 1).getLast?.map Token.stop).getD s₂'.lastStop = edge.stop
      rw [ahead]
      rfl
    · have place : s₂'.position = s₂.position + lead := meets.position
      have le := rejoined.reads.le
      have first := alone.position
      rw [ParserState.skip_position]
      omega
    · refine meets.complaints.trans ?_
      show s₂.complaints.map _ = []
      rw [rejoined.silent]
      rfl
    · exact meets.noIn.trans rejoined.noIn
    · exact meets.depth.trans (rejoined.reads.depth.trans alone.inTemplate.depth)
  obtain ⟨later, s₃, ends, pieces, atEnd⟩ := isEdge.goesOn L' _ isText inTemplate
    (spanOf (expr.view (.along k lead)) edge
      :: ((others.map (Node.view (.along k lead))).reverse ++ read))
  refine ⟨others.map (Node.view (.along k lead))
    ++ spanOf (expr.view (.along k lead)) edge :: later, s₃, ?_, ?_, atEnd⟩
  · refine rejoined.goesOn read _ s₃ ?_
    rw [List.reverse_cons, List.reverse_append, List.reverse_reverse, List.append_assoc,
      List.append_assoc] at ends
    exact ends
  -- The substitutions are written as they are in the part alone.
  have begins : 13 ≤ L.startAt s.position := by
    have last := on.lastStop
    rw [alone.inTemplate.lastStop] at last
    exact Nat.le_trans (last ▸ behind) (L.stopBefore_le_startAt _)
  have kept (span : Tree) (isSpan : span ∈ others ++ [spanOf expr tail]) :
      Content.piece? T (span.view (.along k lead)) = Content.piece? L.text span :=
    piece?_view (rejoined.within span isSpan) begins before alone.left left
  have same := kept _ (List.mem_append_right _ (List.mem_singleton_self _))
  rw [view_spanOf, piece?_spanOf, piece?_spanOf] at same
  have slices := (Prod.mk.inj (Option.some.inj same)).1
  have spans_eq : spans = others ++ [spanOf expr tail] := rejoined.spans_eq
  unfold Content.ofTemplate
  rw [spans_eq, List.filterMap_append, List.filterMap_append, List.filterMap_map,
    List.filterMap_cons_some (piece?_spanOf _ _ _), List.filterMap_cons_some (piece?_spanOf _ _ _),
    List.filterMap_nil, Content.behind_concat, pieces, isEdge.value, slices, isTail]
  congr 1
  exact List.filterMap_congr fun span isSpan => kept span (List.mem_append_left _ isSpan)

end

/-- There is a last substitution. -/
theorem templateSpans_last (g : Grammar) (s : ParserState) (t : Text) :
    Ensures (templateSpans g) s fun spans _ =>
      ∃ others last piece, spans = others ++ [last] ∧ Content.piece? t last = some piece := by
  rw [templateSpans_eq]
  refine .iterate (I := fun _ _ => True) trivial fun spans s _ => ?_
  refine Ensures.bind (P := fun _ _ => True) (fun _ _ _ => trivial) fun expr s _ => ?_
  refine Ensures.bind (P := fun _ _ => True) (fun _ _ _ => trivial) fun _ s _ => ?_
  refine .bind_current (.ite (fun _ => .bind_lastStop (.pure ?_)) fun _ => .bind_advance (.pure ?_))
  · exact ⟨spans.reverse, _, _, List.reverse_cons, rfl⟩
  · unfold roundBehind
    split
    · exact ⟨spans.reverse, _, _, List.reverse_cons, rfl⟩
    · trivial

open Scan (Splice) in
/-- **A part with substitutions** in front of a rest says what it says alone. -/
theorem rest_splice {inner : List Token} {tail : Token} {front last literal : Text} {width k : Nat}
    {L : Layout} {s s₁ : ParserState} {spans : List Tree}
    (splice : Splice part inner tail value width front last literal)
    (isTail : tail.lexeme = .templateTail literal)
    (alone : Alone budget depth part inner tail (13 + width) L s s₁ spans)
    (enclosed : Enclosed inner) (left : T.drop (13 + k) = part ++ z)
    (apart : Scan.keepsApart z 0 last = true)
    (rest : Rest budget depth T (13 + k + part.length) content) :
    Rest budget depth T (13 + k) (Content.ofTemplate L.text value spans ++ content) := by
  have start := splice.start
  have length := congrArg List.length splice.whole
  have longer := congrArg List.length left
  rw [List.length_append, List.length_cons] at length
  rw [List.length_drop, List.length_append] at longer
  have place : 13 + k + part.length = tail.start + k + 1 + last.length := by omega
  have behind : T.drop (tail.start + k + 1) = last ++ z := by
    have isPlace : tail.start + k + 1 = 13 + k + (front ++ [CodePoint.scalar '}']).length := by
      rw [List.length_append, List.length_singleton]
      omega
    rw [isPlace]
    refine drop_part ?_
    rw [left, splice.whole, List.append_assoc, List.append_assoc]
    rfl
  rw [place] at rest
  obtain ⟨edge, beyond, final, cut, isEdge⟩ := exists_edge tail.newlineBefore behind (by omega)
    (Scan.templateBody_append splice.read apart) rest
  have tokens := splice.tokens k z
  rw [cut] at tokens
  have reads := readsPieces_splice isEdge isTail alone enclosed left (Nat.le_add_right 13 width)
    (by omega) value
  -- The first text stays in front of the first substitution.
  obtain ⟨others, span, ⟨substitution, text⟩, spans_eq, isPiece⟩ :=
    templateSpans_last _ _ L.text spans s₁ alone.run
  have whole : Content.ofTemplate L.text value spans ++ content
      = ⟨value, (Content.ofTemplate L.text value spans ++ content).pieces⟩ := by
    unfold Content.ofTemplate
    rw [spans_eq, List.filterMap_append, List.filterMap_cons_some isPiece, List.filterMap_nil,
      Content.behind_concat]
  rw [whole]
  have stop : 13 + width + k = 13 + k + width := Nat.add_right_comm _ _ _
  rw [stop] at tokens reads
  have isCut : tokensFrom .substituting 0 (13 + k + width) (T.drop (13 + k + width))
      = .ok ((inner.map (Token.shift k) ++ edge :: beyond) ++ [final]) := by
    rw [← List.drop_drop, left, tokens, List.append_assoc]
    rfl
  exact .opens (left ▸ splice.body z) isCut reads

end Parser

end StackLint
