/-
  StackLint.Proofs.Parse.Expression
  ─────────────────────────────────
  **EXPRESSIONS LAY TREES.**

  No expression is the wrong way round: what is missing has an empty span, and
  every operator takes a token between its operands.
-/
import StackLint.Parse.Expression
import StackLint.Proofs.Parse.Literal

namespace StackLint

namespace Parser

variable {L : Layout} {g : Grammar} {s s₀ : ParserState}

/-! ## §1. Changing the mode. -/

theorem allowingIn_builds {parse : Parser Tree} (builds : Builds L parse) :
    Builds L (allowingIn parse) := by
  intro s on
  refine .bind_get ?_
  refine (modify_noIn_passes false s on).bind ?_
  intro _ s₁ reads₁
  refine (builds s₁ reads₁.on).bind ?_
  intro tree s₂ built
  refine (modify_noIn_passes s.noIn s₂ built.laid.reads.on).bind ?_
  intro _ s₃ reads₃
  exact .pure ((built.behind reads₁).pass reads₃)

theorem skipTooDeep_builds : Builds L skipTooDeep := by
  intro s on
  refine .bind_current (.bind_position ?_)
  rw [on.start_current]
  refine (complainAt_spec on _ _).bind ?_
  rintro _ s₁ ⟨reads₁, stays, heard⟩
  refine (skipItem_passes _ s₁ reads₁.on).bind ?_
  intro _ s₂ reads₂
  have heard := reads₂.complains.louder _ heard
  have reads := reads₁.trans reads₂
  refine .bind_position ?_
  refine .ite ?_ ?_
  · -- The text has ended, or a bracket closes what is around.
    intro same
    rw [on.current, ← same]
    exact .pure ((Built.missing reads.on heard).behind reads)
  · intro moved
    have le := reads.le
    have node : Taken L s s₂ (.mk ⟨L.startAt s.position, s₂.lastStop⟩
        (.errorNode .nestingTooDeep)) := .opened (.nothing reads) (by omega) (.inr heard)
    exact .close node.toBuilt

/-- One level deeper the same is laid. -/
theorem nested_spec {parse : Parser Tree} {P : Tree → Prop}
    (each : ∀ s, s.On L → Ensures parse s fun tree s' => Laid L s s' [tree] ∧ P tree)
    (ofUpright : ∀ tree : Tree, tree.info.IsUpright → P tree) (on : s.On L) :
    Ensures (nested parse) s fun tree s' => Laid L s s' [tree] ∧ P tree := by
  refine .bind_get ?_
  refine .ite ?_ ?_
  · intro _
    exact (skipTooDeep_builds s on).mono fun tree _ built => ⟨built.laid, ofUpright tree built.isUpright⟩
  · intro _
    -- The depth says nothing about the place on the layout.
    have deeper : ParserState.On { s with depth := s.depth + 1 } L :=
      ⟨on.ahead, on.final, on.inside, on.total, on.lastStop⟩
    refine .bind (P := fun _ s' => s' = { s with depth := s.depth + 1 }) (.modify rfl) ?_
    rintro _ _ rfl
    refine (each _ deeper).bind ?_
    rintro tree s₁ ⟨⟨⟨on₁, le, depth, complains⟩, places⟩, holds⟩
    refine .bind (P := fun _ s' => s' = { s₁ with depth := s₁.depth - 1 }) (.modify rfl) ?_
    rintro _ _ rfl
    refine .pure ⟨⟨⟨?_, le, ?_, complains⟩, places⟩, holds⟩
    · exact ⟨on₁.ahead, on₁.final, on₁.inside, on₁.total, on₁.lastStop⟩
    · show s₁.depth - 1 = s.depth
      rw [depth]
      exact Nat.add_sub_cancel ..

theorem nested_builds {parse : Parser Tree} (builds : Builds L parse) :
    Builds L (nested parse) := by
  intro s on
  refine Ensures.mono (nested_spec (P := fun tree => tree.info.IsUpright) ?_ (fun _ h => h) on) ?_
  · intro s on
    exact (builds s on).mono fun _ _ built => ⟨built.laid, built.isUpright⟩
  · rintro tree s' ⟨laid, isUpright⟩
    exact ⟨laid, isUpright⟩

theorem nested_lays {parse : Parser Tree} (lays : Lays L parse ([·])) :
    Lays L (nested parse) ([·]) := by
  intro s on
  refine Ensures.mono (nested_spec (P := fun _ => True) ?_ (fun _ _ => trivial) on) ?_
  · intro s on
    exact (lays s on).mono fun _ _ laid => ⟨laid, trivial⟩
  · rintro tree s' ⟨laid, _⟩
    exact laid

/-! ## §2. Operands. -/

theorem newOperand_builds (sound : g.Sound L) : Builds L (newOperand g) := by
  intro s on
  refine .bind_current ?_
  refine .ite ?_ fun _ => sound.primary s on
  intro isNew
  have more := on.lt_size (isEnd_of_isTheWord isNew)
  exact (sound.newExpression s on more).mono fun _ _ h => h.toBuilt

theorem optionalArguments_lays (sound : g.Sound L) :
    Lays L (optionalArguments g) (·.getD []) := by
  intro s on
  refine .bind_current ?_
  refine .ite ?_ fun _ => .pure (.nothing (.refl on))
  intro opens
  refine (arguments_spec sound on opens).bind ?_
  intro arguments s₁ laysArguments
  exact .pure laysArguments.laid

theorem newExpression_takes (sound : g.Sound L) : Takes L (newExpression g) := by
  intro s on more
  have begun := Begun.start on more
  refine .bind_advance (.bind_current ?_)
  refine .ite (fun _ => .pure (.leaf on more rfl (.inr (.inl rfl)))) fun _ => ?_
  refine (newOperand_builds sound _ begun.reads.on).bind ?_
  intro operand s₁ built
  refine (chain_spec sound false built).bind ?_
  intro callee s₂ built
  refine (begun.append built.laid).bind_lay (optionalArguments_lays sound) ?_
  intro arguments s₃ laid
  rw [on.start_current]
  exact laid.close trivial

theorem parenthesized_spec (sound : g.Sound L) (on : s.On L)
    (opens : s.current.is .openParen = true) :
    Ensures (parenthesized g) s fun tree s' => Taken L s s' tree := by
  refine .bind_advance ?_
  rw [on.start_current]
  refine (Begun.start on (lt_size_of_is on opens)).bind_lay
    (allowingIn_builds (expression_builds sound)).lays ?_
  intro inner s₁ laid
  refine laid.bind_pass (expect_passes _).discard ?_
  intro _ s₂ laid
  rw [on.current] at opens
  exact laid.close opens

theorem wordOperand_spec (sound : g.Sound L) (on : s.On L) {name : Text}
    (same : s.current.lexeme = .word name) :
    Ensures (wordOperand g s.current name) s fun tree s' => Taken L s s' tree := by
  have more := lt_size_of_lexeme on (by rw [same]; nofun)
  refine .bind_peek ?_
  refine .ite (fun _ => function_takes sound false s on more) fun _ => ?_
  refine .ite (fun _ => classNode_takes sound s on more) fun _ => ?_
  refine .ite (fun _ => newExpression_takes sound s on more) fun _ => ?_
  refine .bind_skip ?_
  split
  · exact .pure (.leaf on more rfl trivial)
  · rw [on.current] at same
    exact .pure (.leaf on more rfl (.inr (.inr same)))

theorem noOperand_spec (on : s.On L) :
    Ensures (noOperand s.current) s fun tree s' => Built L s s' tree := by
  refine .ite ?_ ?_
  · intro ends
    rw [on.current] at ends ⊢
    exact .pure (.placeholder on (.error _ on.inside) rfl (.inl ⟨rfl, rfl, ends⟩))
  · intro more
    rw [Bool.or_eq_true, Bool.or_eq_true, not_or, not_or] at more
    have inside := on.lt_size (Bool.eq_false_iff.mpr more.1.1)
    -- The token is taken for the operand, so that the parser goes on.
    refine .bind_skip ?_
    rw [on.start_current]
    refine (complainAt_spec (on.skip 1) _ _).bind ?_
    intro _ s₁ complained
    exact .pure (Taken.stray on inside complained).toBuilt

theorem primary_builds (sound : g.Sound L) : Builds L (primary g) := by
  intro s on
  have ofTakes : ∀ {p : Parser Tree}, Takes L p → s.current.lexeme ≠ .endOfText →
      Ensures p s fun tree s' => Built L s s' tree := by
    intro p takes more
    exact (takes s on (lt_size_of_lexeme on more)).mono fun _ _ h => h.toBuilt
  refine .bind_current ?_
  split
  · next name same =>
      exact (wordOperand_spec sound on same).mono fun _ _ h => h.toBuilt
  · next raw same => exact (numericLiteral_spec on same).mono fun _ _ h => h.toBuilt
  · next quote value same => exact (stringLiteral_spec on same).mono fun _ _ h => h.toBuilt
  · next same =>
      refine (template_spec sound on ?_).mono fun _ _ h => h.1.toBuilt
      unfold Token.opensTemplate
      rw [same]
  · next same =>
      refine (template_spec sound on ?_).mono fun _ _ h => h.1.toBuilt
      unfold Token.opensTemplate
      rw [same]
  · next raw same =>
      have more := lt_size_of_lexeme on (by rw [same]; nofun)
      have taken : Taken L s (s.skip 1) (leaf s.current (.regexLiteral raw)) :=
        .leaf on more rfl trivial
      exact .bind_skip (.pure taken.toBuilt)
  · next same =>
      refine (parenthesized_spec sound on ?_).mono fun _ _ h => h.toBuilt
      unfold Token.is
      rw [same]
      rfl
  · next same =>
      refine (arrayLiteral_spec sound on ?_).mono fun _ _ h => h.toBuilt
      unfold Token.is
      rw [same]
      rfl
  · next same => exact ofTakes (objectLiteral_takes sound) (by rw [same]; nofun)
  · -- Decorators leave no trace.
    refine (skipDecorators_passes sound s on).bind ?_
    intro _ s₁ reads
    exact (sound.primary s₁ reads.on).mono fun _ _ built => built.behind reads
  · exact noOperand_spec on

/-! ## §3. Unary operators. -/

theorem stepped_builds (sound : g.Sound L) : Builds L (stepped g) := by
  intro s on
  refine (primary_builds sound s on).bind ?_
  intro operand s₁ built
  refine (chain_spec sound true built).bind ?_
  intro expr s₂ built
  have on₂ := built.laid.reads.on
  refine .bind_current ?_
  refine .ite ?_ fun _ => .pure built
  intro isStep
  rw [Bool.and_eq_true] at isStep
  have more := on₂.lt_size (isEnd_of_isOneOf isStep.1)
  have moved := position_skip_one on₂ more
  let op : UnaryOp := if s₂.current.is .increment then .increment else .decrement
  have node : Taken L s (s₂.skip 1) (.mk ⟨expr.info.start, (s₂.skip 1).lastStop⟩
      (.unary op expr false)) :=
    .extended built.laid (.nothing (.skip on₂ 1)) (by omega) rfl fun _ _ => trivial
  refine .bind_skip ?_
  rw [stop_current on₂ more]
  exact .pure node.toBuilt

theorem lexeme_of_unaryOperator? {t next : Token} {op : UnaryOp}
    (h : unaryOperator? t next = some op) : t.lexeme ≠ .endOfText := by
  intro isEnd
  unfold unaryOperator? at h
  rw [isEnd] at h
  cases h

theorem unaryBody_builds (sound : g.Sound L) : Builds L (unaryBody g) := by
  intro s on
  refine .bind_current (.bind_peek ?_)
  rw [on.start_current]
  split
  · next op same =>
      have begun := Begun.start on (lt_size_of_lexeme on (lexeme_of_unaryOperator? same))
      refine .bind_skip ?_
      refine begun.bind_lay sound.unary.lays ?_
      intro operand s₁ laid
      exact .mono (laid.close trivial) fun _ _ h => h.toBuilt
  · -- A type in angles may stand in front of an operand.
    refine .ite ?_ fun _ => stepped_builds sound s on
    intro isAngle
    rw [on.current] at isAngle
    refine (skipAngles_spec on).bind ?_
    rintro found s₁ ⟨reads, _, moved⟩
    refine .ite ?_ ?_
    · intro isFound
      refine (Begun.of_reads reads (moved isFound)).bind_lay sound.unary.lays ?_
      intro operand s₂ laid
      exact .mono (laid.close (.inl isAngle)) fun _ _ h => h.toBuilt
    · intro _
      exact (stepped_builds sound s₁ reads.on).mono fun _ _ built => built.behind reads

theorem unary_builds (sound : g.Sound L) : Builds L (unary g) :=
  nested_builds (unaryBody_builds sound)

/-! ## §4. Binary operators. -/

theorem lexeme_of_connective? {noIn : Bool} {t : Token} {c : Connective}
    (h : connective? noIn t = some c) : t.lexeme ≠ .endOfText := by
  intro isEnd
  unfold connective? at h
  rw [isEnd] at h
  cases h

theorem binaryRest_spec {left : Tree} (sound : g.Sound L) (minimum : Nat)
    (built : Built L s₀ s left) :
    Ensures (binaryRest g minimum left) s fun tree s' => Built L s₀ s' tree := by
  refine .iterate (I := fun left s' => Built L s₀ s' left) built ?_
  intro left s₁ built
  have on := built.laid.reads.on
  refine .bind_get ?_
  split
  · exact .pure built
  · next connective same =>
      have begun := Begun.start on (lt_size_of_lexeme on (lexeme_of_connective? same))
      refine .ite (fun _ => .pure built) fun _ => ?_
      refine .bind_skip ?_
      cases connective with
      | assertion assertion =>
          refine begun.bind_pass skipType_passes ?_
          intro _ s₂ rest
          refine .bind (rest.close_extended built.laid rfl fun _ start => .inr start) ?_
          intro node s₃ taken
          exact .pure taken.toBuilt
      | binary op =>
          refine begun.bind_lay (sound.binary _).lays ?_
          intro right s₂ rest
          refine .bind (rest.close_extended built.laid rfl fun _ _ => trivial) ?_
          intro node s₃ taken
          exact .pure taken.toBuilt

theorem binary_builds (sound : g.Sound L) (minimum : Nat) : Builds L (binary g minimum) := by
  intro s on
  refine (unary_builds sound s on).bind ?_
  intro left s₁ built
  exact binaryRest_spec sound minimum built

/-! ## §5. Conditionals and assignments. -/

theorem conditional_builds (sound : g.Sound L) : Builds L (conditional g) := by
  intro s on
  refine (binary_builds sound 0 s on).bind ?_
  intro test s₁ built
  refine (accept_spec built.laid.reads.on .question).bind ?_
  rintro found s₂ ⟨reads, yes, _⟩
  refine .ite ?_ fun _ => .pure (built.pass reads)
  intro isFound
  obtain ⟨moved, _⟩ := yes isFound
  have begun := Begun.of_reads reads (by omega)
  refine begun.bind_lay (allowingIn_builds sound.assignment).lays ?_
  intro consequent s₃ rest
  refine rest.bind_pass (expect_passes _).discard ?_
  intro _ s₄ rest
  refine rest.bind_lay sound.assignment.lays ?_
  intro alternate s₅ rest
  exact .mono (rest.close_extended built.laid rfl fun _ _ => trivial) fun _ _ h => h.toBuilt

theorem lexeme_of_assignOperator? {t : Token} {op : AssignOp}
    (h : assignOperator? t = some op) : t.lexeme ≠ .endOfText := by
  intro isEnd
  unfold assignOperator? at h
  rw [isEnd] at h
  cases h

theorem assignmentBody_builds (sound : g.Sound L) : Builds L (assignmentBody g) := by
  intro s on
  refine .bind_get ?_
  refine .ite ?_ fun _ => ?_
  · intro ahead
    exact (arrowFunction_spec sound on ahead).mono fun _ _ h => h.toBuilt
  refine (conditional_builds sound s on).bind ?_
  intro target s₁ built
  have on₁ := built.laid.reads.on
  refine .bind_current ?_
  split
  · next op same =>
      have begun := Begun.start on₁ (lt_size_of_lexeme on₁ (lexeme_of_assignOperator? same))
      refine .bind_skip ?_
      refine begun.bind_lay sound.assignment.lays ?_
      intro value s₂ rest
      exact .mono (rest.close_extended built.laid rfl fun _ _ => trivial) fun _ _ h => h.toBuilt
  · exact .pure built

theorem assignment_builds (sound : g.Sound L) : Builds L (assignment g) :=
  nested_builds (assignmentBody_builds sound)

end Parser

end StackLint
