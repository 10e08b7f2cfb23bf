/-
  StackLint.Proofs.Enclosed.Grammar
  ─────────────────────────────────
  **NAMES, LISTS AND CHAINS IN FRONT OF A FORK.**

  The tokens in front of a fork are enclosed, so what looks ahead over them sees the
  same both ways, and as many tokens are passed over.  A grammar is sound if each of
  its parsers does the same in front of a fork whichever way the tokens go on behind
  it.
-/
import StackLint.Parse.Access
import StackLint.Proofs.Enclosed.Parser

namespace StackLint

/-! ## §1. What is seen. -/

namespace Fork.Near

variable {F : Fork} {forked : Bool} {s s' : ParserState} (near : F.Near forked s s')

include near

theorem groupWidth (opens : s.current.opensGroup = true) :
    Parser.groupWidth 0 s'.ahead = Parser.groupWidth 0 s.ahead := by
  cases near with
  | same => rfl
  | @meets front _ _ meets =>
      unfold ParserState.current at opens
      rw [meets.ahead] at opens
      rw [meets.ahead, meets.ahead']
      cases front with
      | nil =>
          obtain ⟨value, found⟩ := Token.lexeme_of_continues F.continues
          change F.edge.opensGroup = true at opens
          unfold Token.opensGroup at opens
          rcases found with isMiddle | isTail
          · rw [isMiddle] at opens
            cases opens
          · rw [isTail] at opens
            cases opens
      | cons t rest =>
          have enclosed := meets.enclosed.groups t rest (List.suffix_refl _) opens
          rw [List.cons_append, List.cons_append, enclosed, enclosed]

theorem angleWidth? (isLess : s.current.is .lt = true) :
    Lookahead.angleWidth? 0 0 s'.ahead = Lookahead.angleWidth? 0 0 s.ahead := by
  cases near with
  | same => rfl
  | @meets front _ _ meets =>
      unfold ParserState.current at isLess
      rw [meets.ahead] at isLess
      rw [meets.ahead, meets.ahead']
      cases front with
      | nil =>
          change F.edge.is .lt = true at isLess
          rw [Token.is_of_continues F.continues] at isLess
          cases isLess
      | cons t rest =>
          have enclosed := meets.enclosed.angles t rest (List.suffix_refl _) isLess
          rw [List.cons_append, List.cons_append, enclosed, enclosed]

/-- What stands behind type arguments is seen both ways. -/
theorem peek_angles (isLess : s.current.is .lt = true) {width : Nat}
    (found : Lookahead.angleWidth? 0 0 s.ahead = some width) :
    F.Alike (s.peek width) (s'.peek width) := by
  cases near with
  | same => exact .same _
  | @meets front _ _ meets =>
      unfold ParserState.current at isLess
      rw [meets.ahead] at isLess found
      unfold ParserState.peek
      rw [meets.ahead, meets.ahead']
      cases front with
      | nil =>
          change F.edge.is .lt = true at isLess
          rw [Token.is_of_continues F.continues] at isLess
          cases isLess
      | cons t rest =>
          rw [List.cons_append, meets.enclosed.angles t rest (List.suffix_refl _) isLess] at found
          have inside := Lookahead.angleWidth?_le found
          rcases Nat.lt_or_eq_of_le inside with before | rfl
          · rw [List.getElem?_append_left before, List.getElem?_append_left before]
            cases isToken : (t :: rest)[width]? with
            | some u => exact .same u
            | none => exact absurd before (Nat.not_lt.mpr (List.getElem?_eq_none_iff.mp isToken))
          · rw [List.getElem?_append_right (Nat.le_refl _),
              List.getElem?_append_right (Nat.le_refl _), Nat.sub_self]
            exact .edges

theorem typeWidth :
    Lookahead.typeWidth true 0 0 s'.ahead = Lookahead.typeWidth true 0 0 s.ahead := by
  cases near with
  | same => rfl
  | meets meets =>
      rw [meets.ahead, meets.ahead',
        Lookahead.typeWidth_edge F.continues _ true 0 meets.enclosed (Nat.zero_le _),
        Lookahead.typeWidth_edge F.continues' _ true 0 meets.enclosed (Nat.zero_le _)]

theorem arrowAhead : Lookahead.arrowAhead s'.ahead = Lookahead.arrowAhead s.ahead := by
  cases near with
  | same => rfl
  | meets meets =>
      rw [meets.ahead, meets.ahead', Lookahead.arrowAhead_edge F.continues _ meets.enclosed,
        Lookahead.arrowAhead_edge F.continues' _ meets.enclosed]

end Fork.Near

/-! ## §2. Passing over. -/

namespace Parser

variable {F : Fork} {forked : Bool} {s s' : ParserState}

theorem skipGroup_tracks (near : F.Near forked s s') (opens : s.current.opensGroup = true) :
    TracksAt F forked s s' skipGroup skipGroup := by
  refine .bind_get ?_
  rw [near.groupWidth opens]
  exact Tracks.skip _ _ s s' near

/-- Something is done where a token has been read. -/
theorem TracksAt.bind_skip {α : Type} {count : Nat} {k k' : Unit → Parser α}
    (near : F.Near forked s s')
    (next : ∀ forked s₁', F.Near forked (s.skip count) s₁' →
      TracksAt F forked (s.skip count) s₁' (k ()) (k' ())) :
    TracksAt F forked s s' (skip count >>= k) (skip count >>= k') := by
  intro a s₂ run inside
  have later := (next _ _ (.same _) a s₂ run inside).1
  obtain ⟨_, s₂', run', near₂⟩ := next _ _ (near.skip later.inside) a s₂ run inside
  exact ⟨(Fork.Leads.skip later.inside).trans later, s₂', run', near₂⟩

theorem skipAngles_tracks (near : F.Near forked s s') (isLess : s.current.is .lt = true) :
    TracksAt F forked s s' skipAngles skipAngles := by
  refine .bind_get ?_
  rw [near.angleWidth? isLess]
  cases Lookahead.angleWidth? 0 0 s.ahead with
  | none => exact .pure near false
  | some width => exact Tracks.bind (.skip width) (fun _ => .pure true) _ s s' near

theorem skipTypeParameters_tracks : Tracks F skipTypeParameters skipTypeParameters := by
  intro forked s s' near
  refine .bind_current (.ite (by rw [near.current.is]) (fun isLess => ?_) fun _ => ?_)
  · exact (skipAngles_tracks near isLess).discard
  · exact .pure near ()

theorem skipType_tracks : Tracks F skipType skipType := by
  intro forked s s' near
  refine .bind_get ?_
  rw [near.typeWidth]
  exact Tracks.ite_then Iff.rfl (fun _ => .complain) (.skip _) _ s s' near

theorem skipAnnotation_tracks : Tracks F skipAnnotation skipAnnotation :=
  (Tracks.accept .colon).bind fun _ => .ite Iff.rfl (fun _ => skipType_tracks) fun _ => .pure ()

theorem skipHeading_tracks (stops : List Punct) :
    Tracks F (skipHeading stops) (skipHeading stops) := by
  refine .iterate (fun _ => ?_) ()
  have next : Tracks F (do skip 1; return (.again () : Round Unit Unit))
      (do skip 1; return (.again () : Round Unit Unit)) :=
    (Tracks.skip 1).bind fun _ => .pure _
  intro forked s s' near
  have alike := near.current
  refine .bind_current (.ite ?_ (fun _ => .pure near _) fun _ => ?_)
  · rw [alike.isEnd, alike.isOneOf]
  refine .ite (by rw [alike.is]) (fun isLess => ?_) fun _ => next _ s s' near
  refine (skipAngles_tracks near isLess).bind fun found => ?_
  exact .ite Iff.rfl (fun _ => .pure _) fun _ => next

theorem skipWhile_tracks {p : Token → Token → Bool}
    (same : ∀ t n t' n', F.AlikeNext t n t' n' → p t' n' = p t n) :
    Tracks F (skipWhile p) (skipWhile p) := by
  refine .iterate (fun _ => ?_) ()
  intro forked s s' near
  refine .bind_get (.ite ?_ (fun _ => .pure near _) fun _ => ?_)
  · rw [near.current.isEnd, same _ _ _ _ near.currentNext]
  · exact Tracks.bind (.skip 1) (fun _ => .pure _) _ s s' near

end Parser

/-- The parsers of a grammar do not see behind the fork. -/
structure Grammar.Tracks (F : Fork) (g : Grammar) : Prop where
  statement : Parser.Tracks F g.statement g.statement
  assignment : Parser.Tracks F g.assignment g.assignment
  unary : Parser.Tracks F g.unary g.unary
  binary : ∀ minimum, Parser.Tracks F (g.binary minimum) (g.binary minimum)
  primary : Parser.Tracks F g.primary g.primary
  newExpression : Parser.Tracks F g.newExpression g.newExpression
  bindingTarget : Parser.Tracks F g.bindingTarget g.bindingTarget

namespace Parser

variable {F : Fork} {g : Grammar}

/-! ## §3. Names and literals. -/

theorem identifier_tracks : Tracks F identifier identifier :=
  .bind_advance fun _ => .pure _

theorem stringLiteral_tracks (quote : Quote) (value : Text) :
    Tracks F (stringLiteral quote value) (stringLiteral quote value) :=
  .bind_advance fun _ => .pure _

theorem numericLiteral_tracks : Tracks F numericLiteral numericLiteral :=
  .bind_advance fun _ => .pure _

theorem propertyName_tracks : Tracks F propertyName propertyName := by
  refine .bind_current fun t t' alike => ?_
  rw [alike.isWord, alike.start]
  exact .ite Iff.rfl (fun _ => identifier_tracks) fun _ => Tracks.complain.bind fun _ => .pure _

theorem propertyKey_tracks (sound : g.Tracks F) : Tracks F (propertyKey g) (propertyKey g) := by
  refine .bind_current fun t t' alike => ?_
  have computed (start : Nat) : Tracks F
      (do
        if ← accept .openBracket then
          let expression ← g.assignment
          discard (expect .closeBracket)
          return some (← close start (.computedPropertyName expression))
        else return none)
      (do
        if ← accept .openBracket then
          let expression ← g.assignment
          discard (expect .closeBracket)
          return some (← close start (.computedPropertyName expression))
        else return none) := by
    refine (Tracks.accept _).bind fun found => .ite Iff.rfl (fun _ => ?_) fun _ => .pure none
    refine sound.assignment.bind fun expression => (Tracks.expect _).discard.bind fun _ => ?_
    exact (Tracks.close _ _).bind fun _ => .pure _
  cases alike with
  | same =>
      obtain ⟨lexeme, start, stop, newlineBefore⟩ := t
      cases lexeme with
      | word name => exact identifier_tracks.bind fun _ => .pure _
      | string quote value => exact (stringLiteral_tracks quote value).bind fun _ => .pure _
      | number raw => exact numericLiteral_tracks.bind fun _ => .pure _
      | _ => exact computed start
  | edges =>
      rw [F.start]
      obtain ⟨value, found⟩ := Token.lexeme_of_continues F.continues
      obtain ⟨value', found'⟩ := Token.lexeme_of_continues F.continues'
      rcases found with is | is <;> rcases found' with is' | is' <;> rw [is, is'] <;>
        exact computed F.edge.start

theorem beginsPropertyKey_alike {t t' : Token} (alike : F.Alike t t') :
    beginsPropertyKey t' = beginsPropertyKey t := by
  unfold beginsPropertyKey
  rw [alike.isWord, alike.isString, alike.isNumber, alike.isOneOf]

theorem memberModifiers_tracks : Tracks F memberModifiers memberModifiers := by
  refine .bind_currentNext fun t next t' next' alike => ?_
  have rest (found : Bool × Accessor) : Tracks F
      (do
        if found ≠ (false, .method) then skip 1
        discard (accept .star)
        return found)
      (do
        if found ≠ (false, .method) then skip 1
        discard (accept .star)
        return found) :=
    .ite_then Iff.rfl (fun _ => .skip 1) ((Tracks.accept _).discard.bind fun _ => .pure _)
  cases alike with
  | same t alike =>
      rw [beginsPropertyKey_alike alike]
      exact rest _
  | edges =>
      have no := Token.isTheWord_of_continues F.continues
      have no' := Token.isTheWord_of_continues F.continues'
      simp only [no, no', Bool.false_eq_true, if_false, ite_self]
      exact rest _

/-! ## §4. Lists. -/

/-- The end of a round that has read an item: a separator, unless the list ends. -/
theorem separated_tracks {closer : Punct} {next : Round α β} :
    Tracks F
      (do
        unless ← accept .comma do
          unless (← current).is closer do complain (.expectedSeparator closer)
        return next)
      (do
        unless ← accept .comma do
          unless (← current).is closer do complain (.expectedSeparator closer)
        return next) := by
  refine (Tracks.accept .comma).bind fun found => .ite Iff.rfl (fun _ => .pure _) fun _ => ?_
  refine .bind_current fun t t' alike => ?_
  rw [alike.is]
  exact .ite Iff.rfl (fun _ => .pure _) fun _ => Tracks.complain.bind fun _ => .pure _

theorem listOf_tracks (closer : Punct) {item : Parser Tree} (each : Tracks F item item) :
    Tracks F (listOf closer item) (listOf closer item) := by
  refine .iterate (fun items => ?_) []
  refine .bind_current fun t t' alike => ?_
  rw [alike.isEnd, alike.is]
  refine .ite Iff.rfl (fun _ => .pure _) fun _ => .bind_position fun before => ?_
  refine each.bind fun node => .bind_position fun after => ?_
  exact .ite Iff.rfl (fun _ => .pure _) fun _ => separated_tracks

theorem element_tracks (sound : g.Tracks F) : Tracks F (element g) (element g) := by
  refine .bind_current fun t t' alike => ?_
  rw [alike.start]
  refine (Tracks.accept _).bind fun found => .ite Iff.rfl (fun _ => ?_) fun _ => sound.assignment
  exact sound.assignment.bind fun _ => .close _ _

theorem arguments_tracks (sound : g.Tracks F) : Tracks F (arguments g) (arguments g) := by
  refine (Tracks.expect _).discard.bind fun _ => ?_
  refine (listOf_tracks _ (element_tracks sound)).bind fun items => ?_
  exact (Tracks.expect _).discard.bind fun _ => .pure _

/-! ## §5. Expressions with commas. -/

theorem expression_tracks (sound : g.Tracks F) : Tracks F (expression g) (expression g) := by
  refine sound.assignment.bind fun first => .iterate (fun left => ?_) first
  refine (Tracks.accept _).bind fun found => .ite Iff.rfl (fun _ => ?_) fun _ => .pure _
  exact sound.assignment.bind fun right => (Tracks.close _ _).bind fun _ => .pure _

/-! ## §6. Blocks. -/

theorem statements_tracks (sound : g.Tracks F) (closer : Option Punct) (stopWords : List Text) :
    Tracks F (statements g closer stopWords) (statements g closer stopWords) := by
  refine .iterate (fun read => ?_) []
  refine .bind_current fun t t' alike => ?_
  have closes : t'.is = t.is := funext fun p => alike.is p
  rw [alike.isEnd, alike.isWordIn, closes]
  refine .ite Iff.rfl (fun _ => .pure _) fun _ => .bind_position fun before => ?_
  refine sound.statement.bind fun statement => .bind_position fun after => ?_
  refine .ite Iff.rfl (fun _ => ?_) fun _ => .pure _
  exact .bind_advance fun t => Tracks.complainAt.bind fun _ => .pure _

theorem block_tracks (sound : g.Tracks F) : Tracks F (block g) (block g) := by
  refine .bind_current fun t t' alike => ?_
  rw [alike.start]
  refine (Tracks.expect _).bind fun found => .ite Iff.rfl (fun _ => ?_) fun _ => .pure _
  refine (statements_tracks sound _ _).bind fun read => ?_
  exact (Tracks.expect _).discard.bind fun _ => .close _ _

theorem optionalBlock_tracks (sound : g.Tracks F) : Tracks F (optionalBlock g) (optionalBlock g) := by
  refine .bind_current fun t t' alike => ?_
  rw [alike.is]
  refine .ite Iff.rfl (fun _ => ?_) fun _ => .pure _
  exact (block_tracks sound).bind fun _ => .pure _

theorem initializer_tracks (sound : g.Tracks F) : Tracks F (initializer g) (initializer g) := by
  refine (Tracks.accept _).bind fun found => .ite Iff.rfl (fun _ => ?_) fun _ => .pure _
  exact sound.assignment.bind fun _ => .pure _

/-! ## §7. Templates and chains. -/

theorem endSubstitution_tracks : Tracks F endSubstitution endSubstitution := by
  refine .bind_current fun t t' alike => ?_
  rw [alike.continuesTemplate]
  refine .ite Iff.rfl (fun _ => .pure _) fun _ => Tracks.complain.bind fun _ => ?_
  refine skipWhile_tracks fun t next t' next' alike => ?_
  cases alike with
  | same => rfl
  | edges => rw [F.continues, F.continues']

theorem templateSpans_tracks (sound : g.Tracks F) :
    Tracks F (templateSpans g) (templateSpans g) := by
  refine .iterate (fun spans => ?_) []
  refine (expression_tracks sound).bind fun expr => endSubstitution_tracks.bind fun _ => ?_
  refine .bind_current fun t t' alike => ?_
  rw [alike.isEnd]
  refine .ite Iff.rfl (fun _ => ?_) fun _ => .bind_advance fun part => ?_
  · intro forked s s' near
    refine .look ParserState.lastStop (fun _ => rfl) (fun _ => rfl) ?_
    rw [near.lastStop]
    exact .pure near _
  · dsimp only
    cases part.lexeme with
    | templateTail value => exact .pure _
    | _ => exact .pure _

theorem template_tracks (sound : g.Tracks F) : Tracks F (template g) (template g) := by
  refine .bind_advance fun first => ?_
  cases first.lexeme with
  | templateHead head => exact (templateSpans_tracks sound).bind fun spans => .close _ _
  | _ => exact .pure _

theorem optionalLink_tracks (sound : g.Tracks F) (expr : Tree) :
    Tracks F (optionalLink g expr) (optionalLink g expr) := by
  refine (Tracks.skip 1).bind fun _ => .bind_current fun t t' alike => ?_
  rw [alike.is]
  refine .ite Iff.rfl (fun _ => ?_) fun _ => ?_
  · exact (arguments_tracks sound).bind fun _ => .close _ _
  refine (Tracks.accept _).bind fun found => .ite Iff.rfl (fun _ => ?_) fun _ => ?_
  · refine (expression_tracks sound).bind fun index => ?_
    exact (Tracks.expect _).discard.bind fun _ => .close _ _
  · exact propertyName_tracks.bind fun _ => .close _ _

theorem chain_tracks (sound : g.Tracks F) (allowCalls : Bool) (operand : Tree) :
    Tracks F (chain g allowCalls operand) (chain g allowCalls operand) := by
  refine .iterate (fun expr => ?_) operand
  intro forked s s' near
  have alike := near.current
  refine .bind_current ?_
  dsimp only
  rw [alike.is, alike.is, alike.is, alike.is, alike.is, alike.is, alike.opensTemplate,
    alike.newlineBefore]
  refine .ite Iff.rfl (fun _ => ?_) fun _ => .ite Iff.rfl (fun _ => ?_) fun _ =>
    .ite Iff.rfl (fun _ => ?_) fun _ => .ite Iff.rfl (fun _ => ?_) fun _ =>
    .ite Iff.rfl (fun _ => ?_) fun _ => .ite Iff.rfl (fun isBang => ?_) fun _ =>
    .ite Iff.rfl (fun isLess => ?_) fun _ => .pure near _
  · refine Tracks.bind (.skip 1) (fun _ => propertyName_tracks.bind fun name => ?_) _ s s' near
    exact (Tracks.close _ _).bind fun _ => .pure _
  · exact (optionalLink_tracks sound expr).bind (fun _ => .pure _) _ s s' near
  · refine Tracks.bind (.skip 1) (fun _ => (expression_tracks sound).bind fun index => ?_) _ s s' near
    refine (Tracks.expect _).discard.bind fun _ => ?_
    exact (Tracks.close _ _).bind fun _ => .pure _
  · refine (arguments_tracks sound).bind (fun arguments => ?_) _ s s' near
    exact (Tracks.close _ _).bind fun _ => .pure _
  · exact (template_tracks sound).bind (fun template => .pure _) _ s s' near
  · have same := alike.eq_of (p := fun t => t.is .bang) (Bool.and_eq_true_iff.mp isBang).1
      fun _ continues => Token.is_of_continues continues .bang
    rw [same]
    exact Tracks.bind (.skip 1) (fun _ => .pure _) _ s s' near
  · -- Type arguments count only in front of arguments or a template.
    refine .bind_get ?_
    rw [near.angleWidth? isLess]
    cases found : Lookahead.angleWidth? 0 0 s.ahead with
    | none => exact .pure near _
    | some width =>
        have behind := near.peek_angles isLess found
        refine .bind_peek ?_
        rw [behind.is, behind.opensTemplate]
        refine .ite Iff.rfl (fun _ => ?_) fun _ => .pure near _
        exact Tracks.bind (.skip width) (fun _ => .pure _) _ s s' near

/-! ## §8. Decorators. -/

theorem skipDecorators_tracks (sound : g.Tracks F) : Tracks F (skipDecorators g) (skipDecorators g) := by
  refine .iterate (fun _ => ?_) ()
  refine (Tracks.accept _).bind fun found => .ite Iff.rfl (fun _ => ?_) fun _ => .pure _
  refine sound.primary.bind fun operand => ?_
  exact (chain_tracks sound true operand).discard.bind fun _ => .pure _

end Parser

end StackLint
