/-
  StackLint.Proofs.Parse.Access
  ─────────────────────────────
  **TEMPLATES AND CHAINS LAY TREES.**

  A substitution that is never closed may end before it begins, so the part of
  a template is a loose form.  Every link of a chain takes a token, so a chain
  that has a link is no placeholder.
-/
import StackLint.Parse.Access
import StackLint.Proofs.Parse.Grammar

namespace StackLint

namespace Parser

variable {L : Layout} {g : Grammar} {s s₀ : ParserState}

/-! ## §1. Templates. -/

theorem templateSpans_lays (sound : g.Sound L) : Lays L (templateSpans g) id := by
  intro s on
  refine .iterate (I := fun spans s' => Laid L s s' spans.reverse) (.nothing (.refl on)) ?_
  intro spans s₁ laid
  refine (expression_builds sound s₁ laid.reads.on).bind ?_
  intro expr s₂ built
  refine (endSubstitution_passes s₂ built.laid.reads.on).bind ?_
  intro _ s₃ reads
  refine .bind_current ?_
  refine .ite ?_ ?_
  · -- The text ends inside the substitution.
    intro _
    refine .bind_lastStop (.pure ?_)
    exact laid.snoc (.loose_extended built.laid (.nothing reads) rfl rfl fun _ _ => trivial)
  · intro more
    have on₃ := reads.on
    have inside := on₃.lt_size (Bool.eq_false_iff.mpr more)
    have moved := position_skip_one on₃ inside
    have whole := built.laid.pass reads
    refine .bind_advance ?_
    rw [stop_current on₃ inside]
    have span : Taken L s₁ (s₃.skip 1) (.mk ⟨expr.info.start, (s₃.skip 1).lastStop⟩
        (.templateSpan expr s₃.current.lexeme.value)) :=
      .extended whole (.nothing (.skip on₃ 1)) (by omega) rfl fun _ _ => trivial
    split
    · exact .pure (laid.snoc span.laid)
    · exact .pure (laid.snoc span.laid)

/-- A template takes tokens, and ends with the last one of them. -/
theorem template_spec (sound : g.Sound L) (on : s.On L) (opens : s.current.opensTemplate = true) :
    Ensures (template g) s fun tree s' => Taken L s s' tree ∧ tree.info.stop = s'.lastStop := by
  have more := lt_size_of_opensTemplate on opens
  have moved := position_skip_one on more
  have reads := Reads.skip on 1
  rw [on.current] at opens
  refine .bind_advance ?_
  split
  · next head _ =>
      refine (Laid.nothing (.refl reads.on)).bind_lay (templateSpans_lays sound) ?_
      intro spans s₁ laid
      rw [on.start_current]
      have le := laid.reads.le
      exact .close ⟨.opened (laid.behind reads) (by omega) opens, rfl⟩
  · exact .pure ⟨.leaf on more rfl opens, stop_current on more⟩

/-! ## §2. Chains. -/

theorem optionalLink_spec {expr : Tree} (sound : g.Sound L) (built : Built L s₀ s expr)
    (more : s.position < L.size) :
    Ensures (optionalLink g expr) s fun tree s' => Taken L s₀ s' tree := by
  have begun := Begun.start built.laid.reads.on more
  refine .bind_skip ?_
  refine .bind_current ?_
  refine .ite ?_ ?_
  · intro opens
    refine (arguments_spec sound begun.reads.on opens).bind ?_
    rintro arguments s₁ ⟨laid, _, none⟩
    exact (begun.append laid).close_extended built.laid rfl fun _ _ => none
  · intro _
    refine begun.bind_pass (accept_passes _) ?_
    intro found s₁ rest
    refine .ite ?_ ?_
    · intro _
      refine rest.bind_lay (expression_builds sound).lays ?_
      intro index s₂ rest
      refine rest.bind_pass (expect_passes _).discard ?_
      intro _ s₃ rest
      exact rest.close_extended built.laid rfl fun _ _ => trivial
    · intro _
      refine rest.bind_lay propertyName_builds.lays ?_
      intro name s₂ rest
      exact rest.close_extended built.laid rfl fun _ start => start

/-- **The chain behind an operand.** -/
theorem chain_spec {operand : Tree} (sound : g.Sound L) (allowCalls : Bool)
    (built : Built L s₀ s operand) :
    Ensures (chain g allowCalls operand) s fun tree s' => Built L s₀ s' tree := by
  refine .iterate (I := fun expr s' => Built L s₀ s' expr) built ?_
  intro expr s₁ built
  have on := built.laid.reads.on
  have reads := Reads.skip on 1
  -- A link that was taken is the operand of the next one.
  have again : ∀ {p : Parser Tree} {s₂}, (Ensures p s₂ fun tree s' => Taken L s₀ s' tree) →
      Ensures (do return Round.again (← p) : Parser (Round Tree Tree)) s₂ fun r s' =>
        r.Keeps (fun expr s' => Built L s₀ s' expr) (fun tree s' => Built L s₀ s' tree) s' := by
    intro p s₂ h
    exact h.bind fun _ _ taken => .pure taken.toBuilt
  refine .bind_current ?_
  refine .ite ?_ fun _ => .ite ?_ fun _ => .ite ?_ fun _ => .ite ?_ fun _ => .ite ?_ fun _ =>
    .ite ?_ fun _ => .ite ?_ fun _ => .pure built
  · -- A property behind a point.
    intro isDot
    refine .bind_skip ?_
    refine (Begun.start on (lt_size_of_is on isDot)).bind_lay propertyName_builds.lays ?_
    intro name s₂ rest
    exact again (rest.close_extended built.laid rfl fun _ start => start)
  · -- A link that may be absent.
    intro isLink
    rw [Bool.and_eq_true] at isLink
    exact again (optionalLink_spec sound built (lt_size_of_is on isLink.1))
  · -- An element in brackets.
    intro isBracket
    refine .bind_skip ?_
    refine (Begun.start on (lt_size_of_is on isBracket)).bind_lay (expression_builds sound).lays ?_
    intro index s₂ rest
    refine rest.bind_pass (expect_passes _).discard ?_
    intro _ s₃ rest
    exact again (rest.close_extended built.laid rfl fun _ _ => trivial)
  · -- A call.
    intro isCall
    rw [Bool.and_eq_true] at isCall
    refine (arguments_spec sound on isCall.1).bind ?_
    rintro arguments s₂ ⟨laid, moved, none⟩
    exact again (.close (.extended built.laid laid moved rfl fun _ _ => none))
  · -- A template with a tag.
    intro isTagged
    rw [Bool.and_eq_true] at isTagged
    refine (template_spec sound on isTagged.1).bind ?_
    rintro template s₂ ⟨taken, stop⟩
    have node : Taken L s₀ s₂ (.mk ⟨expr.info.start, s₂.lastStop⟩ (.taggedTemplate expr template)) :=
      .extended built.laid taken.laid taken.moved rfl fun _ start => start
    rw [stop]
    exact .pure node.toBuilt
  · -- An exclamation mark.
    intro isBang
    rw [Bool.and_eq_true] at isBang
    have more := lt_size_of_is on isBang.1
    have moved := position_skip_one on more
    have node : Taken L s₀ (s₁.skip 1) (.mk ⟨expr.info.start, (s₁.skip 1).lastStop⟩
        (.typeAssertion expr .nonNull)) :=
      .extended built.laid (.nothing reads) (by omega) rfl fun _ start => .inr start
    refine .bind_skip ?_
    rw [stop_current on more]
    exact .pure node.toBuilt
  · -- Type arguments leave no trace.
    intro _
    refine .bind_get ?_
    split
    · exact .pure built
    · next width _ =>
        refine .bind_peek ?_
        refine .ite (fun _ => ?_) fun _ => .pure built
        refine .bind_skip (.pure ?_)
        exact built.pass (.skip on width)

/-! ## §3. Decorators. -/

theorem skipDecorators_passes (sound : g.Sound L) : Passes L (skipDecorators g) := by
  intro s on
  refine .iterate (I := fun _ s' => Reads L s s') (.refl on) ?_
  intro _ s₁ reads
  refine (accept_spec reads.on .atSign).bind ?_
  rintro found s₂ ⟨reads₂, _, _⟩
  refine .ite ?_ fun _ => .pure (reads.trans reads₂)
  intro _
  refine (sound.primary s₂ reads₂.on).bind ?_
  intro operand s₃ built
  refine .bind (P := fun _ s' => Reads L s₂ s')
    ((chain_spec sound true built).discard fun _ _ built => built.laid.reads) ?_
  intro _ s₄ reads₄
  exact .pure ((reads.trans reads₂).trans reads₄)

end Parser

end StackLint
