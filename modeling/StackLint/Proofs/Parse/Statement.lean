/-
  StackLint.Proofs.Parse.Statement
  ────────────────────────────────
  **STATEMENTS LAY TREES.**

  A statement may be the wrong way round: an expression statement begins where
  its expression does, and a declarator where its name should be.
-/
import StackLint.Parse.Statement
import StackLint.Proofs.Parse.Expression

namespace StackLint

namespace Parser

variable {L : Layout} {g : Grammar} {s s₀ : ParserState}

/-! ## §1. Variables and expressions. -/

theorem variableDeclarator_lays (sound : g.Sound L) : Lays L (variableDeclarator g) ([·]) := by
  intro s on
  refine ((bindingTarget_builds sound s on).and (bindingTarget_single g s)).bind ?_
  rintro target s₁ ⟨built, single⟩
  have notBang : Punct.bang ≠ .assign := nofun
  have notColon : Punct.colon ≠ .assign := nofun
  refine (accept_stays built.laid.reads.on notBang).bind ?_
  rintro _ s₂ ⟨reads₂, stays₂⟩
  refine (skipAnnotation_stays reads₂.on notColon).bind ?_
  rintro _ s₃ ⟨reads₃, stays₃⟩
  have before := reads₂.trans reads₃
  refine ((initializer_lays sound s₃ before.on).and (initializer_begins sound before.on)).bind ?_
  rintro init s₄ ⟨laid, begins⟩
  refine .close (.loose_extended built.laid (laid.behind before) rfl rfl fun i start => ?_)
  intro value named isInit isAssign plain
  obtain ⟨rfl, isWord, isStart⟩ := single named
  have more := lt_size_of_isWord on isWord
  have inside := L.lt_size_of_is isAssign
  rw [isStart, on.start_current] at start
  obtain rfl := L.eq_of_startAt_eq more (by omega) start
  have place := position_skip_one on more
  -- Neither a sign of certainty nor an annotation comes between the name and its value.
  rw [place] at stays₂
  obtain rfl := stays₂ isAssign
  rw [place] at stays₃
  obtain rfl := stays₃ isAssign
  rw [place] at begins
  exact begins value isInit plain

theorem variableStatement_takes (sound : g.Sound L) (keyword : BindingKeyword)
    (inLoopHead : Bool) : Takes L (variableStatement g keyword inLoopHead) := by
  intro s on more
  refine .bind_advance ?_
  rw [on.start_current]
  refine (Begun.start on more).bind_lay (?_ : Lays L _ id) ?_
  · intro s on
    refine .iterate (I := fun read s' => Laid L s s' read.reverse) (.nothing (.refl on)) ?_
    intro read s₁ laid
    refine (variableDeclarator_lays sound s₁ laid.reads.on).bind ?_
    intro declarator s₂ next
    refine (accept_passes _ s₂ next.reads.on).bind ?_
    intro found s₃ reads₃
    have all := (laid.snoc next).pass reads₃
    exact .ite (fun _ => .pure all) fun _ => .pure all
  intro declarations s₁ laid
  -- In the head of a loop the semicolon belongs to the loop.
  refine .ite_else (P := fun s' => Begun L _ s' _) (fun _ => laid) ?_ ?_
  · intro _
    exact .mono ((accept_passes _).discard s₁ laid.reads.on) fun _ _ reads => laid.pass reads
  · intro s₂ laid
    exact laid.close trivial

theorem expressionStatement_lays (sound : g.Sound L) : Lays L (expressionStatement g) ([·]) := by
  intro s on
  refine .bind_position ?_
  refine (expression_builds sound s on).bind ?_
  intro expr s₁ built
  refine .bind_position ?_
  -- An expression without a token is its own statement.
  refine .ite (fun _ => .pure built.laid) fun _ => ?_
  refine (Laid.nothing (.refl built.laid.reads.on)).bind_pass (accept_passes _).discard ?_
  intro _ s₂ laid
  exact .close (.loose_extended built.laid laid rfl rfl fun _ _ => trivial)

/-! ## §2. Types. -/

theorem skipBraces_passes : Passes L skipBraces :=
  .look (fun _ => rfl) fun _ => .ite skipGroup_passes (.pure _)

theorem typeBody_passes (sound : g.Sound L) (keyword : TypeKeyword) :
    Passes L (typeBody g keyword) := by
  have heading : Passes L (do skipHeading [.openBrace, .semicolon]; skipBraces) :=
    (skipHeading_passes _).bind fun _ => skipBraces_passes
  cases keyword with
  | declare =>
      exact (acceptWord_passes _).bind fun _ => .ite skipBraces_passes sound.statement.passes.discard
  | type =>
      exact (skip_passes 1).bind fun _ => skipTypeParameters_passes.bind fun _ =>
        (expect_passes _).discard.bind fun _ => skipType_passes
  | _ => exact heading

/-- A declaration of a type, from the token on that it begins with. -/
theorem typeDeclaration_spec (sound : g.Sound L) (keyword : TypeKeyword) (reads : Reads L s₀ s)
    (moved : s₀.position < (s.skip 1).position) :
    Ensures (typeDeclaration g keyword (L.startAt s₀.position)) s fun tree s' =>
      Taken L s₀ s' tree := by
  have inside := reads.trans (.skip reads.on 1)
  refine .bind_skip ?_
  refine (Begun.of_reads inside moved).bind_pass (typeBody_passes sound keyword) ?_
  intro _ s₁ laid
  refine laid.bind_pass (accept_passes _).discard ?_
  intro _ s₂ laid
  exact laid.close trivial

/-! ## §3. Control flow. -/

theorem controlExpression_builds (sound : g.Sound L) : Builds L (controlExpression g) := by
  intro s on
  refine ((expect_passes _).discard s on).bind ?_
  intro _ s₁ reads₁
  refine (expression_builds sound s₁ reads₁.on).bind ?_
  intro expr s₂ built
  refine ((expect_passes _).discard s₂ built.laid.reads.on).bind ?_
  intro _ s₃ reads₃
  exact .pure ((built.behind reads₁).pass reads₃)

/-- What a word announces is there or not. -/
theorem wordClause_lays {p : Parser Tree} (word : Text) (lays : Lays L p ([·])) :
    Lays L (do if ← acceptWord word then return some (← p) else return none) Option.toList := by
  intro s on
  refine (acceptWord_passes _ s on).bind ?_
  intro found s₁ reads
  refine .ite ?_ fun _ => .pure (.nothing reads)
  intro _
  refine (lays s₁ reads.on).bind ?_
  intro tree s₂ laid
  exact .pure (laid.behind reads)

theorem elseBranch_lays (sound : g.Sound L) : Lays L (elseBranch g) Option.toList :=
  wordClause_lays "else" sound.statement

theorem ifStatement_takes (sound : g.Sound L) : Takes L (ifStatement g) := by
  intro s on more
  refine .bind_advance ?_
  rw [on.start_current]
  refine (Begun.start on more).bind_lay (controlExpression_builds sound).lays ?_
  intro test s₁ laid
  refine laid.bind_lay sound.statement ?_
  intro consequent s₂ laid
  refine laid.bind_lay (elseBranch_lays sound) ?_
  intro alternate s₃ laid
  exact laid.close trivial

/-! ## §4. Loops. -/

theorem forStart_lays (sound : g.Sound L) : Lays L (forStart g) id := by
  intro s on
  refine .bind_current (.bind_peek ?_)
  split
  · next keyword same =>
      have more : s.position < L.size := by
        refine lt_size_of_lexeme on fun isEnd => ?_
        unfold loopBinding? Token.isTheWord at same
        rw [isEnd] at same
        cases same
      refine (variableStatement_takes sound keyword true s on more).bind ?_
      intro statement s₁ taken
      exact .pure taken.laid
  · refine .ite (fun _ => .pure (.nothing (.refl on))) fun _ => ?_
    refine (Laid.nothing (.refl on)).bind_pass (modify_noIn_passes true) ?_
    intro _ s₁ laid
    refine laid.bind_lay (expression_builds sound).lays ?_
    intro expr s₂ laid
    refine laid.bind_pass (modify_noIn_passes false) ?_
    intro _ s₃ laid
    exact .pure laid

theorem expressionBefore_lays (sound : g.Sound L) (stop : Punct) :
    Lays L (expressionBefore g stop) id := by
  intro s on
  refine .bind_current ?_
  refine .ite (fun _ => .pure (.nothing (.refl on))) fun _ => ?_
  refine (expression_builds sound s on).bind ?_
  intro expr s₁ built
  exact .pure built.laid

theorem forRest_lays (sound : g.Sound L) : Lays L (forRest g) id := by
  intro s on
  have start := Laid.nothing (.refl on)
  refine .bind_current ?_
  refine .ite ?_ fun _ => ?_
  · -- A loop over the elements or the keys of a value.
    intro _
    refine start.bind_pass (skip_passes 1) ?_
    intro _ s₁ laid
    refine laid.bind_lay (expression_builds sound).lays ?_
    intro expr s₂ laid
    exact .pure laid
  · -- A loop with a test and a step, either of which may be absent.
    refine start.bind_pass (expect_passes _).discard ?_
    intro _ s₁ laid
    refine laid.bind_lay (expressionBefore_lays sound .semicolon) ?_
    intro test s₂ laid
    refine laid.bind_pass (expect_passes _).discard ?_
    intro _ s₃ laid
    refine laid.bind_lay (expressionBefore_lays sound .closeParen) ?_
    intro step s₄ laid
    exact .pure laid

theorem forStatement_takes (sound : g.Sound L) : Takes L (forStatement g) := by
  intro s on more
  refine .bind_advance ?_
  rw [on.start_current]
  refine (Begun.start on more).bind_pass (acceptWord_passes _).discard ?_
  intro _ s₁ laid
  refine laid.bind_pass (expect_passes _).discard ?_
  intro _ s₂ laid
  refine laid.bind_lay (forStart_lays sound) ?_
  intro first s₃ laid
  refine laid.bind_lay (forRest_lays sound) ?_
  intro rest s₄ laid
  refine laid.bind_pass (expect_passes _).discard ?_
  intro _ s₅ laid
  refine laid.bind_lay sound.statement ?_
  intro body s₆ laid
  exact laid.close trivial

theorem whileStatement_takes (sound : g.Sound L) : Takes L (whileStatement g) := by
  intro s on more
  refine .bind_advance ?_
  rw [on.start_current]
  refine (Begun.start on more).bind_lay (controlExpression_builds sound).lays ?_
  intro test s₁ laid
  refine laid.bind_lay sound.statement ?_
  intro body s₂ laid
  exact laid.close trivial

theorem doTest_lays (sound : g.Sound L) : Lays L (doTest g) id := by
  intro s on
  refine (acceptWord_passes _ s on).bind ?_
  intro found s₁ reads
  refine .ite ?_ fun _ => .pure (.nothing reads)
  intro _
  refine (controlExpression_builds sound s₁ reads.on).bind ?_
  intro test s₂ built
  exact .pure (built.behind reads).laid

/-- In a `do` loop the body stands in front of the test. -/
theorem doStatement_takes (sound : g.Sound L) : Takes L (doStatement g) := by
  intro s on more
  refine .bind_advance ?_
  rw [on.start_current]
  refine (Begun.start on more).bind_lay sound.statement ?_
  intro body s₁ laid
  refine laid.bind_lay (doTest_lays sound) ?_
  intro head s₂ laid
  refine laid.bind_pass (accept_passes _).discard ?_
  intro _ s₃ laid
  exact laid.close trivial

/-! ## §5. Jumps, exceptions and switches. -/

theorem optionalArgument_lays (sound : g.Sound L) : Lays L (optionalArgument g) Option.toList := by
  intro s on
  refine .bind_current ?_
  refine .ite (fun _ => .pure (.nothing (.refl on))) fun _ => ?_
  refine (expression_builds sound s on).bind ?_
  intro expr s₁ built
  exact .pure built.laid

/-- A keyword with an argument behind it. -/
theorem argumentStatement_takes {form : Option Tree → Form Tree} (sound : g.Sound L)
    (parts : ∀ argument, (form argument).written = argument.toList)
    (details : ∀ argument heard i j, (form argument).Details L heard i j) :
    Takes L (do
      let start := (← advance).start
      let argument ← optionalArgument g
      discard (accept .semicolon)
      close start (form argument)) := by
  intro s on more
  refine .bind_advance ?_
  rw [on.start_current]
  refine (Begun.start on more).bind_lay (optionalArgument_lays sound) ?_
  intro argument s₁ laid
  refine laid.bind_pass (accept_passes _).discard ?_
  intro _ s₂ laid
  rw [List.nil_append, ← parts] at laid
  exact laid.close (details argument _ _ _)

theorem returnStatement_takes (sound : g.Sound L) : Takes L (returnStatement g) :=
  argumentStatement_takes sound (fun _ => rfl) fun _ _ _ _ => trivial

theorem throwStatement_takes (sound : g.Sound L) : Takes L (throwStatement g) :=
  argumentStatement_takes sound (fun _ => rfl) fun _ _ _ _ => trivial

theorem catchBinding_lays (sound : g.Sound L) : Lays L (catchBinding g) Option.toList := by
  intro s on
  refine (accept_passes _ s on).bind ?_
  intro found s₁ reads
  refine .ite ?_ fun _ => .pure (.nothing reads)
  intro _
  refine (bindingTarget_builds sound s₁ reads.on).bind ?_
  intro param s₂ built
  refine (built.behind reads).laid.bind_pass skipAnnotation_passes ?_
  intro _ s₃ laid
  refine laid.bind_pass (expect_passes _).discard ?_
  intro _ s₄ laid
  exact .pure laid

theorem catchClause_lays (sound : g.Sound L) :
    Lays L (catchClause g) fun clause => clause.1.toList ++ clause.2.toList := by
  intro s on
  refine (acceptWord_passes _ s on).bind ?_
  intro found s₁ reads
  refine .ite ?_ fun _ => .pure (.nothing reads)
  intro _
  refine (catchBinding_lays sound s₁ reads.on).bind ?_
  intro param s₂ laid
  refine (laid.behind reads).bind_lay (block_builds sound).lays ?_
  intro handler s₃ laid
  exact .pure laid

theorem finallyClause_lays (sound : g.Sound L) : Lays L (finallyClause g) Option.toList :=
  wordClause_lays "finally" (block_builds sound).lays

theorem tryStatement_takes (sound : g.Sound L) : Takes L (tryStatement g) := by
  intro s on more
  refine .bind_advance ?_
  rw [on.start_current]
  refine (Begun.start on more).bind_lay (block_builds sound).lays ?_
  intro guarded s₁ laid
  refine laid.bind_lay (catchClause_lays sound) ?_
  rintro ⟨param, handler⟩ s₂ laid
  refine laid.bind_lay (finallyClause_lays sound) ?_
  intro finalizer s₃ laid
  refine Begun.close ?_ trivial
  show Begun L _ s₃ ([guarded] ++ param.toList ++ handler.toList ++ finalizer.toList)
  rw [List.append_assoc [guarded]]
  exact laid

/-- A case of a switch, from the keyword on that it begins with. -/
theorem switchCase_spec (test : Option Tree) (sound : g.Sound L)
    (begun : Begun L s₀ s test.toList) :
    Ensures (switchCase g (L.startAt s₀.position) test) s fun tree s' => Taken L s₀ s' tree := by
  refine begun.bind_pass (expect_passes _).discard ?_
  intro _ s₁ begun
  refine begun.bind_lay (statements_lays sound _ _) ?_
  intro body s₂ begun
  exact begun.close trivial

theorem switchCases_lays (sound : g.Sound L) : Lays L (switchCases g) id := by
  intro s on
  refine .iterate (I := fun cases s' => Laid L s s' cases.reverse) (.nothing (.refl on)) ?_
  intro cases s₁ laid
  have on₁ := laid.reads.on
  refine .bind_current ?_
  rw [on₁.start_current]
  refine .ite (fun _ => .pure laid) fun _ => ?_
  refine (acceptWord_spec on₁ _).bind ?_
  rintro isCase s₂ ⟨reads₂, yes, _⟩
  refine .ite ?_ fun _ => ?_
  · intro isFound
    obtain ⟨moved, _⟩ := yes isFound
    refine (Begun.of_reads reads₂ (by omega)).bind_lay (expression_builds sound).lays ?_
    intro test s₃ begun
    refine (switchCase_spec (some test) sound begun).bind ?_
    intro node s₄ taken
    exact .pure (laid.snoc taken.laid)
  refine (acceptWord_spec reads₂.on _).bind ?_
  rintro isDefault s₃ ⟨reads₃, yes, _⟩
  have reads := reads₂.trans reads₃
  refine .ite ?_ fun _ => ?_
  · intro isFound
    obtain ⟨moved, _⟩ := yes isFound
    have le := reads₂.le
    have begun := Begun.of_reads reads (by omega)
    refine (switchCase_spec none sound begun).bind ?_
    intro node s₄ taken
    exact .pure (laid.snoc taken.laid)
  · -- A token that begins no case is passed over.
    have skipped := reads.trans (.skip reads.on 1)
    refine .bind_skip ?_
    refine (complainAt_spec skipped.on _ _).bind ?_
    rintro _ s₄ ⟨reads₄, _, _⟩
    exact .pure (laid.pass (skipped.trans reads₄))

theorem switchStatement_takes (sound : g.Sound L) : Takes L (switchStatement g) := by
  intro s on more
  refine .bind_advance ?_
  rw [on.start_current]
  refine (Begun.start on more).bind_lay (controlExpression_builds sound).lays ?_
  intro discriminant s₁ laid
  refine laid.bind_pass (expect_passes _) ?_
  intro opened s₂ laid
  refine .ite ?_ fun _ => laid.close trivial
  intro _
  refine laid.bind_lay (switchCases_lays sound) ?_
  intro cases s₃ laid
  refine laid.bind_pass (expect_passes _).discard ?_
  intro _ s₄ laid
  exact laid.close trivial

theorem optionalLabel_passes : Passes L optionalLabel :=
  .look (fun _ => rfl) fun _ => .ite ((skip_passes 1).bind fun _ => .pure _) (.pure _)

theorem jumpStatement_takes (keyword : JumpKeyword) : Takes L (jumpStatement keyword) := by
  intro s on more
  refine .bind_advance ?_
  rw [on.start_current]
  refine (Begun.start on more).bind_pass optionalLabel_passes ?_
  intro label s₁ laid
  refine laid.bind_pass (accept_passes _).discard ?_
  intro _ s₂ laid
  exact laid.close trivial

/-! ## §6. Imports and exports. -/

theorem importClause_lays : Lays L importClause Option.toList := by
  intro s on
  refine .iterate (I := fun _ s' => Reads L s s') (.refl on) ?_
  intro _ s₁ reads
  have on₁ := reads.on
  refine .bind_current ?_
  split
  · exact .pure (.nothing reads)
  · -- The clause ends with the name of the module.
    next quote value same =>
      refine (stringLiteral_spec on₁ same).bind ?_
      intro source s₂ taken
      exact .pure (taken.behind reads).laid
  · refine .ite ?_ fun _ => .ite (fun _ => .pure (.nothing reads)) fun _ => ?_
    · intro _
      refine (skipGroup_passes s₁ on₁).bind ?_
      intro _ s₂ reads₂
      exact .pure (reads.trans reads₂)
    · refine .bind_skip (.pure ?_)
      exact reads.trans (.skip on₁ 1)

theorem importAttributes_passes : Passes L importAttributes :=
  .look (fun _ => rfl) fun _ => .look (fun _ => rfl) fun _ =>
    .ite ((skip_passes 1).bind fun _ => skipGroup_passes) (.pure _)

theorem importDeclaration_takes : Takes L importDeclaration := by
  intro s on more
  refine .bind_advance ?_
  rw [on.start_current]
  refine (Begun.start on more).bind_lay importClause_lays ?_
  intro source s₁ laid
  refine laid.bind_pass importAttributes_passes ?_
  intro _ s₂ laid
  refine laid.bind_pass (accept_passes _).discard ?_
  intro _ s₃ laid
  exact laid.close trivial

theorem exportedNames_passes : Passes L exportedNames :=
  .look (fun _ => rfl) fun _ => .ite skipGroup_passes
    ((skip_passes 1).bind fun _ => (acceptWord_passes _).bind fun _ => .ite (skip_passes 1) (.pure _))

theorem exportSource_passes : Passes L exportSource :=
  (acceptWord_passes _).bind fun _ =>
    .ite (.look (fun _ => rfl) fun _ => .ite (skip_passes 1) (.pure _)) (.pure _)

theorem exportClause_passes : Passes L exportClause :=
  (acceptWord_passes _).discard.bind fun _ => exportedNames_passes.bind fun _ =>
    exportSource_passes.bind fun _ => (accept_passes _).discard

theorem defaultExport_lays (sound : g.Sound L) : Lays L (defaultExport g) ([·]) := by
  intro s on
  refine .bind_current (.bind_peek ?_)
  refine .ite (fun _ => sound.statement s on) fun _ => ?_
  refine (sound.assignment s on).bind ?_
  intro expr s₁ built
  refine ((accept_passes _).discard s₁ built.laid.reads.on).bind ?_
  intro _ s₂ reads
  exact .pure (built.pass reads).laid

theorem exportDeclaration_takes (sound : g.Sound L) : Takes L (exportDeclaration g) := by
  intro s on more
  refine .bind_advance ?_
  rw [on.start_current]
  refine (Begun.start on more).bind_pass (acceptWord_passes _) ?_
  intro isDefault s₁ laid
  refine .ite ?_ fun _ => ?_
  · intro _
    refine laid.bind_lay (defaultExport_lays sound) ?_
    intro declaration s₂ laid
    exact laid.close trivial
  refine .bind_current (.bind_current (.bind_peek ?_))
  refine .ite ?_ fun _ => ?_
  · -- Names that are exported, perhaps from another module.
    intro _
    refine laid.bind_pass exportClause_passes ?_
    intro _ s₂ laid
    exact laid.close trivial
  refine laid.bind_pass (accept_passes _) ?_
  intro isAssigned s₂ laid
  refine .ite ?_ fun _ => ?_
  · -- An assigned export.
    intro _
    refine laid.bind_lay (expression_builds sound).lays ?_
    intro expr s₃ laid
    refine laid.bind_pass (accept_passes _).discard ?_
    intro _ s₄ laid
    exact laid.close trivial
  · -- A declaration that is exported where it stands.
    refine laid.bind_lay sound.statement ?_
    intro declaration s₃ laid
    exact laid.close trivial

/-! ## §7. Statements of all kinds. -/

theorem keywordStatements_take (sound : g.Sound L) :
    ∀ entry ∈ keywordStatements g, Takes L entry.2 := by
  intro entry inside
  unfold keywordStatements at inside
  simp only [List.mem_cons, List.not_mem_nil, or_false] at inside
  rcases inside with rfl | rfl | rfl | rfl | rfl | rfl | rfl | rfl | rfl | rfl | rfl | rfl
  · exact ifStatement_takes sound
  · exact forStatement_takes sound
  · exact whileStatement_takes sound
  · exact doStatement_takes sound
  · exact returnStatement_takes sound
  · exact throwStatement_takes sound
  · exact tryStatement_takes sound
  · exact switchStatement_takes sound
  · exact jumpStatement_takes .breakWord
  · exact jumpStatement_takes .continueWord
  · exact importDeclaration_takes
  · exact exportDeclaration_takes sound

theorem takes_of_keyword {name : Text} {parse : Parser Tree} (sound : g.Sound L)
    (found : (keywordStatements g).lookup name = some parse) : Takes L parse := by
  obtain ⟨front, back, split, _⟩ := List.lookup_eq_some_iff.mp found
  refine keywordStatements_take sound (name, parse) ?_
  rw [split]
  exact List.mem_append_right _ (List.mem_cons_self ..)

theorem otherStatement_spec (sound : g.Sound L) (on : s.On L) (more : s.position < L.size)
    (next : Token) (name : Text) :
    Ensures (otherStatement g s.current next name) s fun tree s' => Laid L s s' [tree] := by
  refine .ite (fun _ => expressionStatement_lays sound s on) fun _ => ?_
  split
  · next parse found =>
      exact (takes_of_keyword sound found s on more).mono fun _ _ taken => taken.laid
  · refine .ite ?_ fun _ => expressionStatement_lays sound s on
    intro _
    -- The label of a statement leaves no trace.
    have reads := Reads.skip on 2
    refine .bind_skip ?_
    exact (sound.statement _ reads.on).mono fun _ _ laid => laid.behind reads

theorem wordStatement_spec (sound : g.Sound L) (on : s.On L) (more : s.position < L.size)
    (name : Text) :
    Ensures (wordStatement g s.current name) s fun tree s' => Laid L s s' [tree] := by
  have moved := position_skip_one on more
  refine .bind_peek ?_
  split
  · next keyword _ =>
      refine .ite ?_ fun _ => ?_
      · -- The word `enum` behind `const`.
        intro _
        have reads := Reads.skip on 1
        have further := reads.on.position_skip 1
        have inside := reads.on.inside
        rw [on.start_current]
        refine .bind_skip ?_
        exact (typeDeclaration_spec sound .enum reads (by omega)).mono fun _ _ taken => taken.laid
      · exact (variableStatement_takes sound keyword false s on more).mono fun _ _ h => h.laid
  · refine .ite ?_ fun _ => .ite ?_ fun _ => ?_
    · intro _
      exact (function_takes sound true s on more).mono fun _ _ h => h.laid
    · intro _
      exact (classNode_takes sound s on more).mono fun _ _ h => h.laid
    refine .bind_get ?_
    split
    · next keyword _ =>
        rw [on.start_current]
        exact (typeDeclaration_spec sound keyword (.refl on) (by omega)).mono fun _ _ h => h.laid
    · exact otherStatement_spec sound on more _ name

theorem statementBody_lays (sound : g.Sound L) : Lays L (statementBody g) ([·]) := by
  intro s on
  refine .bind_current ?_
  split
  · exact (block_builds sound s on).mono fun _ _ built => built.laid
  · next same =>
      have more := lt_size_of_lexeme on (by rw [same]; nofun)
      have taken : Taken L s (s.skip 1) (leaf s.current .emptyStatement) :=
        .leaf on more rfl trivial
      exact .bind_skip (.pure taken.laid)
  · -- Decorators leave no trace.
    refine (skipDecorators_passes sound s on).bind ?_
    intro _ s₁ reads
    exact (sound.statement s₁ reads.on).mono fun _ _ laid => laid.behind reads
  · next name same =>
      exact wordStatement_spec sound on (lt_size_of_lexeme on (by rw [same]; nofun)) name
  · exact expressionStatement_lays sound s on

theorem statement_lays (sound : g.Sound L) : Lays L (statement g) ([·]) :=
  nested_lays (statementBody_lays sound)

end Parser

end StackLint
