/-
  StackLint.Proofs.Interpolation.Joined
  ─────────────────────────────────────
  **THE OPERANDS IN ONE TEMPLATE.**

  A chain of additions is replaced by an interpolated template, in which each operand has
  become a part.  If every part is read by itself as what its operand says, and no part
  takes from what comes behind it, then the template says what the operands say, one
  behind the other.  The parts are put together from the end.
-/
import StackLint.Proofs.Enclosed.Closing
import StackLint.Proofs.Interpolation.Whole

namespace StackLint

open Scan (tagToken keepsApart templateTokens templateBody)

namespace PulumiOutput

/-! ## §1. Parts. -/

/-- The part of a template by itself, as an interpolated template. -/
def interpolated (part : Text) : Text :=
  interpolateTag ++ "\x60" ++ part ++ "\x60"

/-- The tokens of the part by itself, from its first text on. -/
def partTokens (part : Text) : List Token :=
  match tokenize (interpolated part) with
  | .ok tokens => tokens.dropLast.tail
  | .error _ => []

/-- The tokens of the substitutions of a part, and of the texts between them. -/
def innerTokens (part : Text) : List Token :=
  (partTokens part).tail.dropLast

/-- What is written behind the last substitution of a part. -/
def lastText (part : Text) : Text :=
  match (partTokens part).getLast? with
  | some last => (interpolated part).slice (last.start + 1) (last.stop - 1)
  | none => []

/-- **The substitutions of a part close what they open,** and no slash in them could be the
beginning of a regular expression. -/
def isClosedPart (part : Text) : Bool :=
  closesAll (innerTokens part)
    && (innerTokens part |>.map Token.lexeme).foldl Scan.bracesAfter [.substitution] == [.substitution]
    && decide (((partTokens part).dropLast.map Token.lexeme).IsChain Lexeme.Precedes)

/-- The part that the operand becomes is read by itself as what the operand says. -/
def standsAlone (s : Source) (operand : Tree) : Bool :=
  decide (Content.ofText? (interpolated (templatePart s operand)) = some (.ofOperand s operand))
    && isClosedPart (templatePart s operand)

/-- **The operand takes nothing from the text `rest` behind its part.**  A string does so only
where its last character is a dollar sign and a brace follows. -/
def keepsOperandApart (s : Source) (operand : Tree) (rest : Text) : Bool :=
  match operand.unwrap.form with
  | .stringLiteral value _ =>
      !(value.getLast? == some (.scalar '$') && rest.head? == some (.scalar '{'))
  | _ => standsAlone s operand && keepsApart rest 0 (lastText (templatePart s operand))

/-- **The operands can be put one behind the other** in a template. -/
def joins (s : Source) : List Tree → Bool
  | [] => true
  | operand :: others =>
      keepsOperandApart s operand (others.flatMap (templatePart s) ++ "\x60") && joins s others

end PulumiOutput

open PulumiOutput

namespace Parser

variable {g : Grammar} {s s₁ : ParserState} {L : Layout} {spans : List Tree} {tree : Tree}
  {part z : Text} {content : Content}

/-! ## §2. Templates. -/

/-- **The last token of a template** that is read without complaints up to the end of the text. -/
theorem exists_tail (sound : g.Sound L) (on : s.On L)
    (run : (templateSpans g).run s = .ok spans s₁) (silent : s₁.complaints = [])
    (whole : s₁.ahead = []) :
    ∃ inner tail literal, s.ahead = inner ++ [tail] ∧ tail.lexeme = .templateTail literal
      ∧ s₁.lastStop = tail.stop := by
  have ends : Ensures (templateSpans g) s fun _ s₁ => s₁.complaints = [] →
      ∃ s₀ literal, Reads L s s₀ ∧ s₀.current.lexeme = .templateTail literal ∧ s₁ = s₀.skip 1 := by
    rw [templateSpans_eq]
    refine .iterate (I := fun _ s' => Reads L s s') (.refl on) fun read s' reads => ?_
    intro r s₂ isRound
    have later := spanRound_reads sound reads.on _ _ isRound
    cases r with
    | again => exact reads.trans later
    | finish =>
        intro silent
        have done := spanRound_done sound reads.on isRound silent
        generalize round : (Round.finish _ : Round (List Tree) (List Tree)) = r at done
        cases done with
        | @mk expr s₀ _ built continues =>
            -- The rounds end only behind the end of the template.
            unfold roundBehind at round
            split at round
            · next literal isTail =>
                exact ⟨s₀, literal, reads.trans built.laid.reads, isTail, rfl⟩
            · cases round
  obtain ⟨s₀, literal, reads, isTail, rfl⟩ := ends _ _ run silent
  have inside : s₀.position < L.size := by
    refine reads.on.lt_size (Bool.eq_false_iff.mpr fun isEnd => ?_)
    have isEnd : s₀.current.lexeme = .endOfText := beq_iff_eq.mp isEnd
    rw [isTail] at isEnd
    cases isEnd
  have isCurrent := reads.on.current
  have one : s₀.ahead = [L.token s₀.position] := by
    have ahead := reads.on.ahead
    rw [L.drop_eq_cons inside] at ahead
    have whole : s₀.ahead.drop 1 = [] := whole
    rw [ahead, List.drop_succ_cons, List.drop_zero] at whole
    rw [ahead, whole]
  obtain ⟨more, further⟩ := Nat.exists_eq_add_of_le reads.le
  refine ⟨s.ahead.take more, L.token s₀.position, literal, ?_, isCurrent ▸ isTail, ?_⟩
  · rw [← one, reads.on.ahead, further, ← List.drop_drop, ← on.ahead, List.take_append_drop]
  · show ((s₀.ahead.take 1).getLast?.map Token.stop).getD s₀.lastStop = _
    rw [one]
    rfl

/-- A template with substitutions, from its head on. -/
theorem template_run {value : Text} (opens : s.current.lexeme = .templateHead value) :
    (template g).run s = (templateSpans g >>= fun spans =>
      close s.current.start (.templateLiteral value spans)).run (s.skip 1) := by
  have advanced : (advance : Parser Token).run s = .ok s.current (s.skip 1) := rfl
  unfold template
  rw [run_bind advanced]
  simp only [opens]

/-- A template without substitutions. -/
theorem template_run_text {value : Text} (isTemplate : s.current.lexeme = .template value) :
    (template g).run s = .ok (leaf s.current (.templateLiteral value [])) (s.skip 1) := by
  have advanced : (advance : Parser Token).run s = .ok s.current (s.skip 1) := rfl
  unfold template
  rw [run_bind advanced]
  simp only [isTemplate]
  rfl

/-! ## §3. The text of a part. -/

theorem interpolated_eq (part : Text) :
    interpolated part = interpolateTag ++ .scalar '\x60' :: (part ++ [.scalar '\x60']) := by
  unfold interpolated
  rw [List.append_assoc, List.append_assoc]
  rfl

theorem drop_interpolated (part : Text) :
    (interpolated part).drop 13 = part ++ [.scalar '\x60'] := by
  rw [interpolated_eq]
  rfl

theorem length_interpolated (part : Text) : (interpolated part).length = 13 + part.length + 1 := by
  have length := congrArg List.length (drop_interpolated part)
  rw [List.length_drop, List.length_append, List.length_singleton] at length
  omega

/-- What is written in a part from some place on. -/
theorem slice_interpolated {front last : Text} (whole : part = front ++ last) :
    (interpolated part).slice (13 + front.length) (13 + part.length) = last := by
  unfold Text.slice
  rw [← List.drop_drop, drop_interpolated, whole, List.append_assoc, List.drop_left,
    List.length_append, Nat.add_sub_add_left, Nat.add_sub_cancel_left, List.take_left]

/-- What the opening text of a template is. -/
theorem templatePart_opens {found : Scan.Found} (read : Scan.templatePart true [] z = .ok found) :
    ∃ value, found.lexeme = .template value
        ∧ templateBody 0 z = .ok ⟨⟨value, found.extra⟩, false⟩
      ∨ found.lexeme = .templateHead value
        ∧ templateBody 0 z = .ok ⟨⟨value, found.extra⟩, true⟩ := by
  obtain ⟨⟨⟨value, width⟩, opens⟩, isBody, same⟩ := bind_eq_ok.mp read
  cases same
  cases opens with
  | false => exact ⟨value, .inl ⟨rfl, isBody⟩⟩
  | true => exact ⟨value, .inr ⟨rfl, isBody⟩⟩

/-- The first token of a template. -/
theorem exists_opening {tokens : List Token} (run : templateTokens true false 12 z = .ok tokens) :
    ∃ found later, Scan.templatePart true [] z = .ok found
      ∧ tokens = ⟨found.lexeme, 12, 13 + found.extra, false⟩ :: later
      ∧ Scan.tokensFrom found.memory 0 (13 + found.extra) (z.drop found.extra) = .ok later := by
  obtain ⟨found, read, run⟩ := bind_eq_ok.mp run
  obtain ⟨later, behind, same⟩ := bind_eq_ok.mp run
  cases same
  exact ⟨found, later, read, rfl, behind⟩

/-- **The tokens of an interpolated part:** the tag, template text that opens, and others. -/
structure Scanned (part : Text) (L : Layout) (found : Scan.Found) (later : List Token) : Prop where
  text : L.text = interpolated part
  tokens : L.tokens = tagToken :: ⟨found.lexeme, 12, 13 + found.extra, false⟩ :: later
  read : Scan.templatePart true [] (part ++ [.scalar '\x60']) = .ok found
  run : templateTokens true false 12 (part ++ [.scalar '\x60'])
    = .ok (⟨found.lexeme, 12, 13 + found.extra, false⟩ :: (later ++ [L.final]))

theorem exists_scanned {tokens : List Token} (run : tokenize (interpolated part) = .ok tokens) :
    ∃ L found later, Scanned part L found later := by
  obtain ⟨L, same, isTokens⟩ := Layout.exists_of_tokenize run
  rw [interpolated_eq, Scan.tokenize_interpolation] at run
  cases scanned : templateTokens true false 12 (part ++ [.scalar '\x60']) with
  | error failure =>
      rw [scanned] at run
      cases run
  | ok others =>
      rw [scanned] at run
      obtain ⟨found, behind, read, rfl, _⟩ := exists_opening scanned
      have whole : tagToken :: _ :: behind = L.tokens ++ [L.final] := isTokens ▸ Except.ok.inj run
      have isEnd := L.final_spec.1
      -- The end of the text is neither the tag nor the opening text.
      cases inner : L.tokens with
      | nil =>
          rw [inner, List.nil_append] at whole
          cases (List.cons.inj whole).2
      | cons tag tokens =>
          cases tokens with
          | nil =>
              rw [inner, List.cons_append, List.nil_append, List.cons.injEq, List.cons.injEq] at whole
              rw [← whole.2.1] at isEnd
              obtain ⟨value, ⟨opens, _⟩ | ⟨opens, _⟩⟩ := templatePart_opens read
              · cases opens.symm.trans isEnd
              · cases opens.symm.trans isEnd
          | cons head later =>
              rw [inner, List.cons_append, List.cons_append, List.cons.injEq, List.cons.injEq] at whole
              obtain ⟨rfl, rfl, rfl⟩ := whole
              exact ⟨L, found, later, same, inner, read, scanned⟩

section

variable {found : Scan.Found} {later : List Token}

theorem Scanned.begins (scanned : Scanned part L found later) :
    Begins L ⟨found.lexeme, 12, 13 + found.extra, false⟩ later := by
  refine ⟨scanned.tokens, ?_⟩
  unfold Token.opensTemplate
  obtain ⟨value, ⟨opens, _⟩ | ⟨opens, _⟩⟩ := templatePart_opens scanned.read
  · rw [opens]
  · rw [opens]

theorem Scanned.partTokens (scanned : Scanned part L found later) :
    PulumiOutput.partTokens part = ⟨found.lexeme, 12, 13 + found.extra, false⟩ :: later := by
  unfold PulumiOutput.partTokens
  rw [← scanned.text, L.scanned]
  show (L.tokens ++ [L.final]).dropLast.tail = _
  rw [List.dropLast_concat, scanned.tokens]
  rfl

/-- The state behind the tag. -/
theorem Scanned.ahead (scanned : Scanned part L found later) :
    (behindTag L).ahead = ⟨found.lexeme, 12, 13 + found.extra, false⟩ :: later := by
  show L.tokens.drop 1 = _
  rw [scanned.tokens]
  rfl

theorem Scanned.current (scanned : Scanned part L found later) :
    (behindTag L).current = ⟨found.lexeme, 12, 13 + found.extra, false⟩ := by
  unfold ParserState.current
  rw [scanned.ahead]
  rfl

/-- The state behind the opening text. -/
theorem Scanned.inTemplate (scanned : Scanned part L found later) :
    InTemplate L 3 later (13 + found.extra) ((behindTag L).skip 1) where
  on := (behindTag_on L).skip 1
  ahead := by
    show (behindTag L).ahead.drop 1 = _
    rw [scanned.ahead]
    rfl
  lastStop := by
    show (((behindTag L).ahead.take 1).getLast?.map Token.stop).getD (behindTag L).lastStop = _
    rw [scanned.ahead]
    rfl
  begun := by
    rw [ParserState.skip_position, scanned.begins.position, scanned.ahead]
    exact Nat.le_add_left _ _
  silent := rfl
  noIn := rfl
  depth := rfl

/-! ## §4. A part in front of a rest. -/

variable {T : Text} {k : Nat} {template : Tree} {value : Text}

/-- A part without substitutions is one text. -/
theorem Scanned.rest_text (scanned : Scanned part L found later)
    (isText : found.lexeme = .template value)
    (body : templateBody 0 (part ++ [.scalar '\x60']) = .ok ⟨⟨value, found.extra⟩, false⟩)
    (whole : IsWhole L template s₁) (left : T.drop (13 + k) = part ++ z)
    (apart : keepsApart z 0 (lastText part) = true)
    (rest : Rest templateBudget 3 T (13 + k + part.length) content) :
    template.form = .templateLiteral value []
      ∧ Rest templateBudget 3 T (13 + k) (⟨value, []⟩ ++ content) := by
  have opens : (behindTag L).current.lexeme = .template value := by
    rw [scanned.current]
    exact isText
  have run := whole.run
  rw [template_run_text opens] at run
  cases run
  have none : later = [] := scanned.inTemplate.ahead.symm.trans whole.ahead
  have extra : found.extra = part.length + 1 := by
    have stop := scanned.inTemplate.lastStop.symm.trans whole.stop
    rw [scanned.text, length_interpolated] at stop
    omega
  have isLast : lastText part = part := by
    unfold lastText
    rw [scanned.partTokens, none, List.getLast?_singleton, extra]
    exact slice_interpolated (show part = [] ++ part from rfl)
  rw [isLast] at apart
  rw [extra] at body
  exact ⟨rfl, Parser.rest_text left (Scan.templateBody_append body apart) rest⟩

/-- A part with substitutions is put in front of the rest. -/
theorem Scanned.rest_splice (scanned : Scanned part L found later)
    (opens : found.lexeme = .templateHead value)
    (whole : IsWhole L template s₁) (closed : isClosedPart part = true)
    (left : T.drop (13 + k) = part ++ z) (apart : keepsApart z 0 (lastText part) = true)
    (rest : Rest templateBudget 3 T (13 + k + part.length) content) :
    ∃ spans, template.form = .templateLiteral value spans
      ∧ Rest templateBudget 3 T (13 + k) (Content.ofTemplate L.text value spans ++ content) := by
  have inTemplate := scanned.inTemplate
  have run := whole.run
  have opens' : (behindTag L).current.lexeme = .templateHead value := by
    rw [scanned.current]
    exact opens
  rw [template_run opens'] at run
  cases read : (templateSpans (.ofBudget templateBudget)).run ((behindTag L).skip 1) with
  | error reason s' =>
      rw [EStateM.run_bind, read] at run
      cases run
  | ok spans s' =>
      rw [run_bind read] at run
      cases run
      obtain ⟨inner, tail, literal, isLater, isTail, stop⟩ := exists_tail
        (Grammar.ofBudget_sound L _) inTemplate.on read whole.silent whole.ahead
      rw [inTemplate.ahead] at isLater
      -- What has been computed of the part is about these tokens.
      have isParts := scanned.partTokens
      rw [isLater] at isParts
      unfold isClosedPart innerTokens at closed
      rw [isParts, List.tail_cons, List.dropLast_concat, ← List.cons_append, List.dropLast_concat,
        List.map_cons] at closed
      obtain ⟨closed, calm⟩ := Bool.and_eq_true_iff.mp closed
      obtain ⟨closes, balanced⟩ := Bool.and_eq_true_iff.mp closed
      have isStop : tail.stop = 13 + part.length + 1 := by
        rw [← stop, whole.stop, scanned.text, length_interpolated]
      have scan := scanned.run
      rw [isLater, List.append_assoc] at scan
      obtain ⟨width, front, last, splice, isHead⟩ := Scan.exists_splice scan opens isTail isStop
        (beq_iff_eq.mp balanced) ⟨_, rfl, of_decide_eq_true calm⟩
      have extra : 13 + found.extra = 13 + width := congrArg Token.stop isHead
      have isLast : lastText part = last := by
        unfold lastText
        rw [isParts, ← List.cons_append, List.getLast?_concat]
        simp only
        have place : tail.start + 1 = 13 + (front ++ [CodePoint.scalar '}']).length := by
          rw [splice.start, List.length_append, List.length_singleton, Nat.add_assoc]
        rw [isStop, place, Nat.add_sub_cancel]
        refine slice_interpolated ?_
        rw [splice.whole, List.append_assoc]
        rfl
      rw [isLast] at apart
      rw [isLater, extra] at inTemplate
      have alone : Alone templateBudget 3 part inner tail (13 + width) L ((behindTag L).skip 1) s₁
          spans := by
        refine ⟨?_, inTemplate, ?_, read, whole.ahead, whole.silent⟩
        · rw [scanned.text, drop_interpolated]
        · rw [ParserState.skip_position, scanned.begins.position, scanned.ahead]
          exact congrArg (1 + ·) (Nat.min_eq_left (Nat.le_add_left _ _))
      exact ⟨spans, rfl,
        Parser.rest_splice splice isTail alone (.of_closesAll closes) left apart rest⟩

end

/-- **A part that stands alone** stands in front of the rest of a longer template. -/
theorem rest_part {T : Text} {k : Nat} {said : Content}
    (reads : Content.ofText? (interpolated part) = some said) (closed : isClosedPart part = true)
    (left : T.drop (13 + k) = part ++ z) (apart : keepsApart z 0 (lastText part) = true)
    (rest : Rest templateBudget 3 T (13 + k + part.length) content) :
    Rest templateBudget 3 T (13 + k) (said ++ content) := by
  cases run : tokenize (interpolated part) with
  | error failure =>
      unfold Content.ofText? parse parseWithin at reads
      rw [run] at reads
      cases reads
  | ok tokens =>
      obtain ⟨L, found, later, scanned⟩ := exists_scanned run
      rw [← scanned.text] at reads
      obtain ⟨span, value, spans, s₁, whole, rfl⟩ := scanned.begins.exists_isWhole reads
      obtain ⟨value', ⟨isText, body⟩ | ⟨opens, _⟩⟩ := templatePart_opens scanned.read
      · obtain ⟨form, rest⟩ := scanned.rest_text isText body whole left apart rest
        cases form
        exact rest
      · obtain ⟨spans', form, rest⟩ := scanned.rest_splice opens whole closed left apart rest
        cases form
        exact rest

/-! ## §5. The whole template. -/

/-- The tokens of an interpolated part that has been read up to the end. -/
theorem exists_scanned_of_run {found : Scan.Found} {later : List Token} {final : Token}
    (read : Scan.templatePart true [] (part ++ [.scalar '\x60']) = .ok found)
    (behind : Scan.tokensFrom found.memory 0 (13 + found.extra)
      ((part ++ [CodePoint.scalar '\x60']).drop found.extra) = .ok (later ++ [final])) :
    ∃ L, Scanned part L found later := by
  have run : templateTokens true false 12 (part ++ [.scalar '\x60'])
      = .ok (⟨found.lexeme, 12, 13 + found.extra, false⟩ :: (later ++ [final])) := by
    unfold templateTokens
    rw [read]
    show (Scan.tokensFrom found.memory 0 (13 + found.extra) _ >>= _) = _
    rw [behind]
    rfl
  have tokens : tokenize (interpolated part)
      = .ok (tagToken :: ⟨found.lexeme, 12, 13 + found.extra, false⟩ :: (later ++ [final])) := by
    rw [interpolated_eq, Scan.tokenize_interpolation, run]
    rfl
  obtain ⟨L, found', later', scanned⟩ := exists_scanned tokens
  have same := read.symm.trans scanned.read
  obtain rfl := Except.ok.inj same
  have both := List.append_inj' (List.cons.inj (Except.ok.inj (run.symm.trans scanned.run))).2 rfl
  exact ⟨L, both.1 ▸ scanned⟩

/-- **What a text says from its first part on** is what it says. -/
theorem ofText?_of_rest (rest : Rest templateBudget 3 (interpolated part) 13 content) :
    Content.ofText? (interpolated part) = some content := by
  have isLength : (interpolated part).length - 13 = (part ++ [CodePoint.scalar '\x60']).length := by
    rw [← drop_interpolated, List.length_drop]
  cases rest with
  | @ends value body =>
      rw [drop_interpolated, isLength] at body
      generalize width : (part ++ [CodePoint.scalar '\x60']).length = n at body
      have read : Scan.templatePart true [] (part ++ [.scalar '\x60'])
          = .ok ⟨.template value, n, []⟩ := by
        unfold Scan.templatePart
        rw [body]
        rfl
      -- Nothing is left behind the backtick.
      have behind : Scan.tokensFrom (⟨.template value, n, []⟩ : Scan.Found).memory 0 (13 + n)
          ((part ++ [CodePoint.scalar '\x60']).drop n)
          = .ok ([] ++ [⟨.endOfText, 13 + n, 13 + n, false⟩]) := by
        rw [← width, List.drop_length]
        exact Scan.tokensFrom_nil _ _
      obtain ⟨L, scanned⟩ := exists_scanned_of_run read behind
      have isTemplate : (behindTag L).current.lexeme = .template value := by
        rw [scanned.current]
      have length := length_interpolated part
      rw [List.length_append, List.length_singleton] at width
      have stop : ((behindTag L).skip 1).lastStop = L.text.length := by
        rw [scanned.inTemplate.lastStop, scanned.text, length]
        show 13 + n = _
        omega
      have whole := scanned.begins.ofText?_of_isWhole
        ⟨template_run_text isTemplate, scanned.inTemplate.ahead, stop, rfl⟩
      rw [← scanned.text]
      exact whole
  | @opens value width tokens final pieces body cut reads =>
      rw [drop_interpolated] at body
      have read : Scan.templatePart true [] (part ++ [.scalar '\x60'])
          = .ok ⟨.templateHead value, width, [.substitution]⟩ := by
        unfold Scan.templatePart
        rw [body]
        rfl
      have behind : Scan.tokensFrom
          (⟨.templateHead value, width, [.substitution]⟩ : Scan.Found).memory 0 (13 + width)
          ((part ++ [CodePoint.scalar '\x60']).drop width) = .ok (tokens ++ [final]) := by
        rw [← List.drop_drop, drop_interpolated] at cut
        rw [← cut]
        exact Scan.tokensFrom_substituting (show Scan.regexAllowed (some (.templateHead value)) = true from rfl) _ _
      obtain ⟨L, scanned⟩ := exists_scanned_of_run read behind
      have opens : (behindTag L).current.lexeme = .templateHead value := by
        rw [scanned.current]
      obtain ⟨spans, s₁, loops, isPieces, atEnd⟩ := reads L _ scanned.text scanned.inTemplate []
      have run : (templateSpans (.ofBudget templateBudget)).run ((behindTag L).skip 1)
          = .ok spans s₁ := by
        rw [templateSpans_eq]
        exact loops.iterate (scanned.inTemplate.on.total ▸ atEnd.on.inside)
      have isTemplate := (template_run opens).trans (run_bind run _)
      have whole := scanned.begins.ofText?_of_isWhole
        ⟨isTemplate, atEnd.ahead, scanned.text ▸ atEnd.lastStop, atEnd.silent⟩
      rw [← scanned.text, whole, scanned.text, Content.ofTemplate, isPieces]

/-- **Operands one behind the other** say what they say. -/
theorem rest_operands {s : Source} {T : Text} {k : Nat} {operands : List Tree}
    (isJoined : joins s operands = true)
    (left : T.drop (13 + k) = operands.flatMap (templatePart s) ++ [.scalar '\x60']) :
    Rest templateBudget 3 T (13 + k) (.concat (operands.map (Content.ofOperand s))) := by
  induction operands generalizing k with
  | nil => exact rest_backtick left
  | cons operand others ih =>
      obtain ⟨apart, isJoined⟩ := Bool.and_eq_true_iff.mp isJoined
      rw [List.flatMap_cons, List.append_assoc] at left
      have behind := drop_part left
      rw [Nat.add_assoc] at behind
      have rest := ih isJoined behind
      rw [← Nat.add_assoc] at rest
      show Rest _ _ T _ (Content.ofOperand s operand ++ .concat (others.map (Content.ofOperand s)))
      unfold keepsOperandApart at apart
      split at apart
      · next value quote isString =>
          have isPart : templatePart s operand = escapeTemplate value := by
            unfold templatePart
            simp only [isString]
          have isContent : Content.ofOperand s operand = ⟨value, []⟩ := by
            unfold Content.ofOperand
            simp only [isString]
          rw [isPart] at left rest
          rw [isContent]
          refine rest_text left (templateBody_escapeTemplate ?_) rest
          rintro ⟨dollar, brace⟩
          rw [Bool.not_eq_true', Bool.and_eq_false_iff] at apart
          rcases apart with other | other
          · exact beq_eq_false_iff_ne.mp other dollar
          · exact beq_eq_false_iff_ne.mp other brace
      · obtain ⟨alone, apart⟩ := Bool.and_eq_true_iff.mp apart
        obtain ⟨reads, closed⟩ := Bool.and_eq_true_iff.mp alone
        exact rest_part (of_decide_eq_true reads) closed left apart rest

end Parser

/-- **Operands that can be put one behind the other** are said by one template. -/
theorem Content.ofText?_interpolation {s : Source} {operands : List Tree}
    (isJoined : joins s operands = true) :
    ofText? (interpolation s operands) = some (.concat (operands.map (ofOperand s))) :=
  Parser.ofText?_of_rest (Parser.rest_operands (k := 0) isJoined (Parser.drop_interpolated _))

end StackLint
