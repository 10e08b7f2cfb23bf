/-
  StackLint.Proofs.Interpolation.Spans
  ────────────────────────────────────
  **SUBSTITUTIONS, ROUND BY ROUND.**

  The substitutions of a template are read in rounds, and each round reads one
  expression and the template text behind it.  When the text behind the last
  substitution changes, the rounds up to there stay as they are; so they do when
  all of them stand further down in a longer text.
-/
import StackLint.Proofs.Enclosed.Statement
import StackLint.Proofs.Parse.Program
import StackLint.Proofs.View.Program

namespace StackLint

namespace Parser

variable {g : Grammar} {expr : Tree} {spans : List Tree} {s s₁ s₂ : ParserState}

/-! ## §1. One round. -/

/-- A substitution with the template text behind it. -/
def spanOf (expr : Tree) (part : Token) : Tree :=
  .mk ⟨expr.info.start, part.stop⟩ (.templateSpan expr part.lexeme.value)

/-- Behind the end of the template there are no more rounds. -/
def roundBehind (part : Token) (spans : List Tree) : Round (List Tree) (List Tree) :=
  match part.lexeme with
  | .templateTail _ => .finish spans.reverse
  | _ => .again spans

/-- Reads one substitution and the template text behind it. -/
def spanRound (g : Grammar) (spans : List Tree) : Parser (Round (List Tree) (List Tree)) := do
  let expr ← expression g
  endSubstitution
  if (← current).isEnd then
    return .finish (.mk ⟨expr.info.start, ← lastStop⟩ (.templateSpan expr []) :: spans).reverse
  let part ← advance
  return roundBehind part (spanOf expr part :: spans)

theorem templateSpans_eq (g : Grammar) : templateSpans g = iterate (spanRound g) [] := by
  refine congrArg (iterate · []) (funext fun spans => ?_)
  refine congrArg (expression g >>= ·) (funext fun expr => ?_)
  refine congrArg (endSubstitution >>= ·) (funext fun _ => ?_)
  refine congrArg (current >>= ·) (funext fun t => ?_)
  refine ite_congr rfl (fun _ => rfl) fun _ => ?_
  refine congrArg (advance >>= ·) (funext fun part => ?_)
  obtain ⟨lexeme, start, stop, newline⟩ := part
  cases lexeme <;> rfl

/-- A round, where template text follows the expression. -/
theorem spanRound_run (run : (expression g).run s = .ok expr s₁)
    (continues : s₁.current.continuesTemplate = true) :
    (spanRound g spans).run s
      = .ok (roundBehind s₁.current (spanOf expr s₁.current :: spans)) (s₁.skip 1) := by
  have ends : endSubstitution.run s₁ = .ok () s₁ := by
    show (if s₁.current.continuesTemplate then Pure.pure () else _ : Parser Unit).run s₁ = _
    rw [if_pos continues]
    rfl
  unfold spanRound
  rw [EStateM.run_bind, run]
  show (endSubstitution >>= _).run s₁ = _
  rw [EStateM.run_bind, ends]
  show (if s₁.current.isEnd then _ else _ : Parser _).run s₁ = _
  rw [Token.isEnd_of_continues continues, if_neg Bool.false_ne_true]
  rfl

/-! ## §2. Rounds without complaints. -/

variable {L : Layout}

/-- Who has not complained behind a run has not complained before. -/
theorem silent_of_reads (reads : Reads L s s₁) (silent : s₁.complaints = []) :
    s.complaints = [] := by
  obtain ⟨new, after, _⟩ := reads.complains
  rw [silent] at after
  exact (List.append_eq_nil_iff.mp after.symm).2

/-- Where no template text follows a substitution, there is a complaint. -/
theorem endSubstitution_complains (on : s.On L)
    (stops : s.current.continuesTemplate = false) :
    Ensures endSubstitution s fun _ s' => s'.complaints ≠ [] := by
  refine .bind_current ?_
  rw [stops]
  refine (complain_spec on _).bind fun _ s₁ complained => ?_
  refine (skipWhile_passes _ s₁ complained.reads.on).mono fun _ s₂ reads silent => ?_
  obtain ⟨offset, heard⟩ := complained.heard
  rw [silent_of_reads reads silent] at heard
  cases heard

/-- What a round has done that has not complained: it has read an expression and the
template text behind it. -/
inductive RoundDone (L : Layout) (g : Grammar) (spans : List Tree) (s : ParserState) :
    Round (List Tree) (List Tree) → ParserState → Prop
  | mk {expr : Tree} {s₁ : ParserState} (run : (expression g).run s = .ok expr s₁)
      (built : Built L s s₁ expr) (continues : s₁.current.continuesTemplate = true) :
      RoundDone L g spans s (roundBehind s₁.current (spanOf expr s₁.current :: spans)) (s₁.skip 1)

theorem spanRound_done (sound : g.Sound L) (on : s.On L) {r : Round (List Tree) (List Tree)}
    (run : (spanRound g spans).run s = .ok r s₂) (silent : s₂.complaints = []) :
    RoundDone L g spans s r s₂ := by
  cases isExpr : (expression g).run s with
  | error reason s₁ =>
      unfold spanRound at run
      rw [EStateM.run_bind, isExpr] at run
      cases run
  | ok expr s₁ =>
      have built := expression_builds sound s on expr s₁ isExpr
      cases continues : s₁.current.continuesTemplate with
      | true =>
          rw [spanRound_run isExpr continues] at run
          cases run
          exact .mk isExpr built continues
      | false =>
          have complains : Ensures (spanRound g spans) s fun _ s' => s'.complaints ≠ [] := by
            refine Ensures.bind (P := fun _ s' => s' = s₁) ?_ ?_
            · intro expr' s' run'
              rw [isExpr] at run'
              cases run'
              rfl
            rintro expr' _ rfl
            refine (endSubstitution_complains built.laid.reads.on continues).bind
              fun _ s' complained => ?_
            refine .bind_current (.ite (fun _ => ?_) fun _ => ?_)
            · exact .bind_lastStop (.pure complained)
            · exact .bind_advance (.pure complained)
          exact absurd silent (complains r s₂ run)

/-- Rounds read forward. -/
theorem spanRound_reads (sound : g.Sound L) (on : s.On L) :
    Ensures (spanRound g spans) s fun _ s' => Reads L s s' := by
  refine (expression_builds sound s on).bind fun expr s₁ built => ?_
  have first := built.laid.reads
  refine (endSubstitution_passes s₁ first.on).bind fun _ s₂ reads => ?_
  refine .bind_current (.ite (fun _ => ?_) fun _ => ?_)
  · exact .bind_lastStop (.pure (first.trans reads))
  · exact .bind_advance (.pure ((first.trans reads).trans (.skip reads.on 1)))

theorem spanRounds_read (sound : g.Sound L) (on : s.On L) (rounds : Nat) :
    Ensures (iterateFor (spanRound g) rounds spans) s fun _ s' => Reads L s s' := by
  refine .iterateFor (I := fun _ s' => Reads L s s') (fun spans s₁ reads => ?_) rounds (.refl on)
  refine (spanRound_reads sound reads.on).mono fun r s₂ later => ?_
  cases r with
  | again | finish => exact reads.trans later

/-! ## §3. Where the text changes. -/

/-- The round leads to the value `b`, be it by further rounds. -/
def Round.Ends {α β : Type} (body : α → Parser (Round α β)) (s : ParserState) (b : β)
    (s₁ : ParserState) : Round α β → Prop
  | .again a => Loops body s a b s₁
  | .finish c => c = b ∧ s = s₁

/-- A round and what comes of it. -/
theorem loops_of_round {α β : Type} {body : α → Parser (Round α β)} {a : α} {b : β}
    {r : Round α β} (run : (body a).run s = .ok r s₁) (moves : s.position < s₁.position)
    (ends : r.Ends body s₁ b s₂) : Loops body s a b s₂ := by
  cases r with
  | again a' => exact .again run moves ends
  | finish c =>
      obtain ⟨rfl, rfl⟩ := ends
      exact .finish run (Nat.le_of_lt moves)

/-- The expression of a substitution lies between two offsets. -/
def SpanWithin (start stop : Nat) (span : Tree) : Prop :=
  ∃ expr literal, span.form = .templateSpan expr literal ∧ start ≤ expr.info.start
    ∧ expr.info.stop ≤ stop

/-- A tree lies between the tokens around it. -/
theorem within_of_placed {heard : Complaint → Prop} {lo hi : Nat} {tree : Tree}
    (placed : Placed L heard lo hi tree) :
    L.startAt lo ≤ tree.info.start ∧ tree.info.stop ≤ L.startAt hi := by
  cases placed with
  | @mk _ i j _ span form behind before fits _ _ =>
      refine ⟨?_, ?_⟩
      · rw [Node.info, fits.start_eq]
        exact L.startAt_mono behind
      · refine Nat.le_trans ?_ (L.startAt_mono before)
        cases fits with
        | full | inverted => exact L.stopBefore_le_startAt _
        | error | name | block => exact Nat.le_refl _

theorem spanOf_within (built : Built L s s₁ expr) (part : Token) {hi : Nat}
    (before : s₁.position ≤ hi) :
    SpanWithin (L.startAt s.position) (L.startAt hi) (spanOf expr part) := by
  cases built.laid.places with
  | cons first others =>
      have within := within_of_placed first
      cases others with
      | nil le =>
          refine ⟨expr, part.lexeme.value, rfl, within.1, Nat.le_trans within.2 ?_⟩
          exact L.startAt_mono (Nat.le_trans le before)

theorem view_spanOf (v : View) (expr : Tree) (part : Token) :
    Node.view v (spanOf expr part) = spanOf (expr.view v) (part.view v) := by
  unfold spanOf
  rw [Node.view_mk, Node.view_info, Token.view_lexeme, Lexeme.view_value]
  rfl

/-- The tokens of a layout are seen in front of a fork; the last one of them ends a
template. -/
structure Detour (L : Layout) (v : View) (F : Fork) (tail : Token) : Prop where
  last : [tail] <:+ L.tokens
  isTail : ∃ value, tail.lexeme = .templateTail value
  edge : F.edge = tail.view v
  beyond : F.beyond = []

/-- **Up to the last substitution nothing changes.**  The rounds from `s` on have read
substitutions, behind the last of which stands `tail`; those from `s'` on read the same,
and then what stands behind the fork. -/
structure Rejoined (L : Layout) (v : View) (F : Fork) (tail : Token) (g : Grammar)
    (s s' : ParserState) (read spans before : List Tree) (expr : Tree)
    (s₁ s₁' : ParserState) : Prop where
  spans_eq : spans = read.reverse ++ before ++ [spanOf expr tail]
  within : ∀ span ∈ before ++ [spanOf expr tail],
    SpanWithin (L.startAt s.position) tail.start span
  reads : Reads L s s₁
  ahead : s₁.ahead = [tail]
  silent : s₁.complaints = []
  noIn : s₁.noIn = false
  meets : F.Meets [] (s₁.view v) s₁'
  goesOn : ∀ read' b s₂',
    (roundBehind F.edge' (spanOf (expr.view v) F.edge'
      :: ((before.map (Node.view v)).reverse ++ read'))).Ends (spanRound g) (s₁'.skip 1) b s₂' →
    Loops (spanRound g) s' read' b s₂'

section

variable {F : Fork} {v : View} {tail : Token} {s' s₁' : ParserState} {read : List Tree}

namespace Detour

variable (detour : Detour L v F tail)

include detour

theorem token_last : L.token (L.size - 1) = tail ∧ 0 < L.size := by
  obtain ⟨front, whole⟩ := detour.last
  have size : L.size = front.length + 1 := by
    unfold Layout.size
    rw [← whole, List.length_append, List.length_singleton]
  refine ⟨?_, by omega⟩
  unfold Layout.token
  rw [size, Nat.add_sub_cancel, ← whole, List.getElem?_append_right (Nat.le_refl _), Nat.sub_self]
  rfl

/-- In front of the end of the text the last token is still to come. -/
theorem suffix_ahead (on : s.On L) (inside : s.position < L.size) : [tail] <:+ s.ahead := by
  obtain ⟨front, whole⟩ := detour.last
  have short : s.position ≤ front.length := by
    unfold Layout.size at inside
    rw [← whole, List.length_append, List.length_singleton] at inside
    omega
  rw [on.ahead, ← whole, List.drop_append_of_le_length short]
  exact List.suffix_append _ _

/-- **An expression in front of the fork** is read from both states. -/
theorem expression_run (sees : g.Commutes v) (tracks : g.Tracks F)
    (run : (expression g).run s = .ok expr s₁) (on : s₁.On L) (inside : s₁.position < L.size)
    (silent : s₁.complaints = []) (operator : s.noIn = false) (near : F.Near true (s.view v) s') :
    s₁.noIn = false ∧ ∃ front s₁', (expression g).run s' = .ok (expr.view v) s₁'
      ∧ F.Meets front (s₁.view v) s₁' := by
  have seen : (expression g).run (s.view v) = .ok (expr.view v) (s₁.view v) := by
    rw [expression_commutes sees, run]
    rfl
  have ahead : F.edge :: F.beyond <:+ (s₁.view v).ahead := by
    rw [detour.edge, detour.beyond]
    exact (detour.suffix_ahead on inside).map (Token.view v)
  have complaints : (s₁.view v).complaints = [] := by
    show s₁.complaints.map _ = []
    rw [silent]
    rfl
  obtain ⟨leads, s₁', run', near₁⟩ :=
    expression_tracks tracks true _ _ near _ _ seen ⟨ahead, complaints⟩
  cases near₁ with
  | meets meets => exact ⟨leads.noIn operator, _, s₁', run', meets⟩

end Detour

/-- Behind an expression and the template text behind it more tokens have been read. -/
theorem position_lt_skip (near : F.Near true (s.view v) s') {front : List Token}
    (meets : F.Meets front (s₁.view v) s₁') (le : s.position ≤ s₁.position) :
    s'.position < (s₁'.skip 1).position := by
  have before : s'.position = s.position + v.lead := near.position
  have behind : s₁'.position = s₁.position + v.lead := meets.position
  have more : 0 < s₁'.ahead.length := by
    rw [meets.ahead', List.length_append, List.length_cons]
    omega
  rw [ParserState.skip_position]
  omega

theorem roundBehind_tail {t : Token} {value : Text} (isTail : t.lexeme = .templateTail value)
    (spans : List Tree) : roundBehind t spans = .finish spans.reverse := by
  unfold roundBehind
  rw [isTail]

/-- The template goes on behind the token whatever is read so far. -/
theorem roundBehind_again {t : Token} {spans spans' : List Tree}
    (again : roundBehind t spans = .again spans') (v : View) (others : List Tree) :
    spans' = spans ∧ roundBehind (t.view v) others = .again others := by
  unfold roundBehind at again ⊢
  rw [Token.view_lexeme]
  cases lexeme : t.lexeme with
  | templateTail value =>
      rw [lexeme] at again
      cases again
  | _ =>
      rw [lexeme] at again
      cases again
      exact ⟨rfl, rfl⟩

/-- The last round: behind its expression comes the fork. -/
theorem Rejoined.last (detour : Detour L v F tail) (run' : (expression g).run s' = .ok (expr.view v) s₁')
    (built : Built L s s₁ expr) (inside : s₁.position < L.size) (silent : s₁.complaints = [])
    (noIn : s₁.noIn = false) (near : F.Near true (s.view v) s') (meets : F.Meets [] (s₁.view v) s₁')
    (isRound : roundBehind s₁.current (spanOf expr s₁.current :: read) = .finish spans) :
    Rejoined L v F tail g s s' read spans [] expr s₁ s₁' := by
  have reads := built.laid.reads
  obtain ⟨value, isTail⟩ := detour.isTail
  obtain ⟨isLast, some⟩ := detour.token_last
  -- Only the last token is left in front of the end of the text.
  have one : s₁.ahead = [tail] := by
    obtain ⟨front, whole⟩ := detour.suffix_ahead reads.on inside
    have length := congrArg List.length meets.ahead
    rw [ParserState.view_ahead, List.length_map, ← whole, detour.beyond, List.length_append] at length
    have empty : front = [] := List.length_eq_zero_iff.mp (Nat.add_right_cancel length)
    rw [← whole, empty]
    rfl
  have isCurrent : s₁.current = tail := by
    unfold ParserState.current
    rw [one]
    rfl
  have isCurrent' : s₁'.current = F.edge' := by
    unfold ParserState.current
    rw [meets.ahead']
    rfl
  rw [isCurrent, roundBehind_tail isTail] at isRound
  have spans_eq : spans = (spanOf expr tail :: read).reverse := by
    cases isRound
    rfl
  refine ⟨?_, ?_, reads, one, silent, noIn, meets, ?_⟩
  · rw [spans_eq, List.reverse_cons, List.append_nil]
  · intro span isSpan
    rw [List.nil_append, List.mem_singleton] at isSpan
    subst isSpan
    have within := spanOf_within built tail (Nat.le_pred_of_lt inside)
    unfold Layout.startAt at within ⊢
    rw [Nat.pred_eq_sub_one, isLast] at within
    exact within
  · intro read' b s₂' ends
    refine loops_of_round (spanRound_run run' ?_) (position_lt_skip near meets reads.le) ?_
    · rw [isCurrent']
      exact F.continues'
    · rw [isCurrent']
      exact ends

/-- A round in front of others: behind its expression comes template text, and behind that
the next substitution. -/
theorem Rejoined.step (detour : Detour L v F tail)
    (run' : (expression g).run s' = .ok (expr.view v) s₁') (built : Built L s s₁ expr)
    (inside : s₁.position < L.size) (near : F.Near true (s.view v) s') {t : Token} {front : List Token}
    (meets : F.Meets (t :: front) (s₁.view v) s₁')
    {spans₁ : List Tree}
    (isRound : roundBehind s₁.current (spanOf expr s₁.current :: read) = .again spans₁)
    (continues : s₁.current.continuesTemplate = true) {before : List Tree} {last : Tree}
    {s₂ s₂' : ParserState}
    (later : Rejoined L v F tail g (s₁.skip 1) (s₁'.skip 1) spans₁ spans before last s₂ s₂') :
    Rejoined L v F tail g s s' read spans (spanOf expr s₁.current :: before) last s₂ s₂' := by
  have reads := built.laid.reads
  obtain ⟨isLast, some⟩ := detour.token_last
  have skips : Reads L s (s₁.skip 1) := reads.trans (.skip reads.on 1)
  have isCurrent' : s₁'.current = s₁.current.view v := by
    rw [← ParserState.view_current]
    unfold ParserState.current
    rw [meets.ahead, meets.ahead']
    rfl
  obtain ⟨rfl, _⟩ := roundBehind_again isRound v []
  refine ⟨?_, ?_, skips.trans later.reads, later.ahead, later.silent, later.noIn, later.meets, ?_⟩
  · rw [later.spans_eq, List.reverse_cons, List.append_assoc read.reverse, List.singleton_append]
  · intro span isSpan
    rw [List.cons_append] at isSpan
    rcases List.mem_cons.mp isSpan with rfl | isSpan
    · have within := spanOf_within built s₁.current (Nat.le_pred_of_lt inside)
      unfold Layout.startAt at within ⊢
      rw [Nat.pred_eq_sub_one, isLast] at within
      exact within
    · obtain ⟨e, literal, form, start, stop⟩ := later.within span isSpan
      exact ⟨e, literal, form, Nat.le_trans (L.startAt_mono skips.le) start, stop⟩
  · intro read' b s₃' ends
    have again := (roundBehind_again isRound v (spanOf (expr.view v) s₁'.current :: read')).2
    refine loops_of_round (spanRound_run run' ?_) (position_lt_skip near meets reads.le) ?_
    · rw [isCurrent', Token.view_continuesTemplate]
      exact continues
    rw [isCurrent'] at again ⊢
    rw [again]
    refine later.goesOn _ b s₃' ?_
    rw [List.map_cons, view_spanOf, List.reverse_cons, List.append_assoc] at ends
    exact ends

/-- **Rounds are done again up to the fork.** -/
theorem exists_rejoined (detour : Detour L v F tail) (sound : g.Sound L) (sees : g.Commutes v)
    (tracks : g.Tracks F) {rounds : Nat}
    (run : (iterateFor (spanRound g) rounds read).run s = .ok spans s₂) (silent : s₂.complaints = [])
    (whole : s₂.ahead = []) (on : s.On L) (operator : s.noIn = false)
    (near : F.Near true (s.view v) s') :
    ∃ before expr s₁ s₁', Rejoined L v F tail g s s' read spans before expr s₁ s₁' := by
  -- By induction on the rounds, with what is read so far and both states general.
  induction rounds generalizing read s s' with
  | zero => cases run
  | succ rounds ih =>
      cases firstRound_of_iterateFor run with
      | finish isRound =>
          have done := spanRound_done sound on isRound silent
          generalize round : (Round.finish spans : Round (List Tree) (List Tree)) = r at done
          cases done with
          | @mk expr s₁ isExpr built continues =>
              have inside : s₁.position < L.size :=
                built.laid.reads.on.lt_size (Token.isEnd_of_continues continues)
              obtain ⟨noIn, front, s₁', run', meets⟩ := detour.expression_run sees tracks isExpr
                built.laid.reads.on inside silent operator near
              cases front with
              | nil =>
                  exact ⟨[], expr, s₁, s₁',
                    .last detour run' built inside silent noIn near meets round.symm⟩
              | cons t front =>
                  -- The loop would have ended in front of the fork.
                  have length := congrArg List.length meets.ahead
                  rw [ParserState.view_ahead, List.length_map, List.length_append, List.length_cons,
                    List.length_cons] at length
                  have left : (s₁.skip 1).ahead.length = s₁.ahead.length - 1 := List.length_drop
                  rw [whole, List.length_nil] at left
                  omega
      | again read₁ s₀ isRound moves later =>
          have reads := spanRound_reads sound on _ _ isRound
          have silent₀ := silent_of_reads (spanRounds_read sound reads.on rounds _ _ later) silent
          have done := spanRound_done sound on isRound silent₀
          generalize round : (Round.again read₁ : Round (List Tree) (List Tree)) = r at done
          cases done with
          | @mk expr s₁ isExpr built continues =>
              have inside : s₁.position < L.size :=
                built.laid.reads.on.lt_size (Token.isEnd_of_continues continues)
              obtain ⟨noIn, front, s₁', run', meets⟩ := detour.expression_run sees tracks isExpr
                built.laid.reads.on inside silent₀ operator near
              cases front with
              | nil =>
                  -- Behind the end of the template there are no more rounds.
                  obtain ⟨value, isTail⟩ := detour.isTail
                  have isCurrent : s₁.current.view v = tail.view v := by
                    rw [← ParserState.view_current, ← detour.edge]
                    unfold ParserState.current
                    rw [meets.ahead]
                    rfl
                  have again := (roundBehind_again round.symm v []).2
                  rw [isCurrent, roundBehind_tail (congrArg (Lexeme.view v) isTail)] at again
                  cases again
              | cons t front =>
                  have near₁ : F.Near true ((s₁.skip 1).view v) (s₁'.skip 1) := by
                    rw [← ParserState.view_skip]
                    exact .meets (Fork.Near.meets_skip meets (Nat.succ_le_succ (Nat.zero_le _)))
                  obtain ⟨before, last, s₃, s₃', rejoined⟩ := ih later reads.on noIn near₁
                  exact ⟨_, last, s₃, s₃',
                    .step detour run' built inside near meets round.symm continues rejoined⟩

end

end Parser

end StackLint
