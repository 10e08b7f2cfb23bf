/-
  StackLint.Proofs.Parse.Literal
  ──────────────────────────────
  **ARRAYS, OBJECTS AND CLASSES LAY TREES.**

  Every member of an object ends with the last token that was read, so that only
  a comma and the closing brace can stand behind the last one.
-/
import StackLint.Parse.Literal
import StackLint.Proofs.Parse.Function

namespace StackLint

namespace Parser

variable {L : Layout} {g : Grammar} {s s₀ : ParserState}

/-! ## §1. Arrays. -/

theorem arrayLiteral_spec (sound : g.Sound L) (on : s.On L)
    (isBracket : s.current.is .openBracket = true) :
    Ensures (arrayLiteral g) s fun tree s' => Taken L s s' tree := by
  have more := lt_size_of_is on isBracket
  rw [on.current] at isBracket
  refine .bind_advance ?_
  rw [on.start_current]
  refine (Begun.start on more).bind_lay (?_ : Lays L _ (List.filterMap id)) ?_
  · intro s on
    refine .iterate (I := fun elements s' => Laid L s s' (elements.reverse.filterMap id))
      (.nothing (.refl on)) ?_
    intro elements s₁ laid
    refine .bind_current ?_
    refine .ite (fun _ => .pure laid) fun _ => ?_
    refine (accept_passes _ s₁ laid.reads.on).bind ?_
    intro isHole s₂ reads₂
    have laid₂ := laid.pass reads₂
    refine .ite ?_ ?_
    · -- A hole.
      intro _
      exact .pure (laid₂.snoc_optional (.nothing (.refl laid₂.reads.on)))
    · intro _
      refine .bind_position ?_
      refine (element_builds sound s₂ laid₂.reads.on).bind ?_
      intro item s₃ built
      refine .bind_position ?_
      refine .ite (fun _ => .pure (laid₂.pass built.laid.reads)) fun _ => ?_
      have all : Laid L s s₃ ((some item :: elements).reverse.filterMap id) :=
        laid₂.snoc_optional built.laid
      refine (accept_passes _ s₃ all.reads.on).bind ?_
      intro separated s₄ reads₄
      have all₄ := all.pass reads₄
      refine .ite (fun _ => .pure all₄) fun _ => ?_
      refine .bind_current ?_
      refine .ite (fun _ => .pure all₄) fun _ => ?_
      refine (complain_passes _ s₄ all₄.reads.on).bind ?_
      intro _ s₅ reads₅
      exact .pure (all₄.pass reads₅)
  · intro elements s₁ laid
    refine laid.bind_pass (expect_passes _).discard ?_
    intro _ s₂ laid
    exact laid.close isBracket

/-! ## §2. Objects. -/

/-- A member ends with the last token that was read. -/
structure LaysMember (L : Layout) (s : ParserState) (member : Tree) (s' : ParserState) :
    Prop where
  laid : Laid L s s' [member]
  stop : member.info.stop = L.stopBefore s'.position

theorem LaysMember.close {form : Form Tree} (begun : Begun L s₀ s form.written)
    (details : form.Details L (Heard s.complaints) s₀.position s.position) :
    Ensures (close (L.startAt s₀.position) form) s (LaysMember L s₀) :=
  .close ⟨(Taken.opened begun.toLaid begun.moved details).laid, begun.reads.on.lastStop⟩

theorem objectMemberRest_spec {key : Tree} (sound : g.Sound L) (begun : Begun L s₀ s [key])
    (first : key.info.start = L.startAt s₀.position ∨ (L.token s₀.position).isModifier = true)
    (single : key.keyName?.isSome = true → key.info.start = L.startAt s₀.position →
      s.position = s₀.position + 1)
    (near : Approaches L s₀.position s.position) (isAsync : Bool) (accessor : Accessor) :
    Ensures (objectMemberRest g (L.startAt s₀.position) key isAsync accessor) s
      (LaysMember L s₀) := by
  have other : Punct.question ≠ .colon := nofun
  have marks := near.accept (q := .question) begun.reads.on ⟨nofun, nofun⟩
  refine ((accept_stays begun.reads.on other).and marks).bind ?_
  rintro _ s₁ ⟨⟨reads₁, stays⟩, near⟩
  have begun := begun.pass reads₁
  refine .bind_current ?_
  refine .ite ?_ fun _ => ?_
  · -- A method.
    intro _
    refine (methodRest_spec sound begun near accessor isAsync).mono ?_
    rintro tree s₂ ⟨taken, stop⟩
    exact ⟨taken.laid, stop.trans taken.laid.reads.on.lastStop⟩
  refine (accept_spec begun.reads.on .colon).bind ?_
  rintro found s₂ ⟨reads₂, yes, _⟩
  have begun := begun.pass reads₂
  refine .ite ?_ fun _ => ?_
  · -- A key with a value.
    intro isFound
    have on := begun.reads.on
    refine ((sound.assignment s₂ on).and (sound.begins s₂ on)).bind ?_
    rintro value s₃ ⟨built, begins⟩
    refine LaysMember.close (begun.append built.laid) ⟨built.isUpright, first, ?_⟩
    intro named start isColon plain
    have place := single named start
    rw [place] at stays
    obtain rfl := stays isColon
    rw [on.start_current, on.current, (yes isFound).1, place] at begins
    exact begins plain
  split
  · -- A name that is key and value at once.
    refine begun.bind_lay (initializer_lays sound) ?_
    intro default s₃ begun
    exact LaysMember.close begun trivial
  · -- A key without a value is given up, but its tokens are read.
    refine (complain_spec begun.reads.on _).bind ?_
    rintro _ s₃ ⟨reads, _, heard⟩
    have begun := begun.pass reads
    exact LaysMember.close (.of_reads begun.reads begun.moved) (.inr heard)

theorem objectMember_spec (sound : g.Sound L) (on : s.On L) :
    Ensures (objectMember g) s (LaysMember L s) := by
  refine .bind_current ?_
  rw [on.start_current]
  refine (accept_spec on .ellipsis).bind ?_
  rintro found s₁ ⟨reads, yes, no⟩
  refine .ite ?_ ?_
  · intro isFound
    obtain ⟨moved, _⟩ := yes isFound
    refine (Begun.of_reads reads (by omega)).bind_lay sound.assignment.lays ?_
    intro argument s₂ begun
    exact LaysMember.close begun trivial
  · intro notFound
    obtain ⟨rfl, _⟩ := no (Bool.eq_false_iff.mpr notFound)
    refine ((memberModifiers_spec reads.on).and
      ((Approaches.here L s₁.position).memberModifiers reads.on)).bind ?_
    rintro ⟨isAsync, accessor⟩ s₂ ⟨⟨reads₂, modifiers⟩, near⟩
    have before := reads.trans reads₂
    refine ((propertyKey_spec sound before.on).and (propertyKey_reads g before.on)).bind ?_
    rintro key s₃ ⟨laysKey, readsKey⟩
    have le := before.le
    have laid := laysKey.laid.behind before
    cases key with
    | some key =>
        have moved := laysKey.moved rfl
        have single (named : key.keyName?.isSome = true)
            (start : key.info.start = L.startAt s₁.position) : s₃.position = s₁.position + 1 := by
          have inside := laysKey.laid.reads.on.inside
          have behind := reads₂.le
          rw [laysKey.start key rfl] at start
          have same := L.eq_of_startAt_eq (by omega) (by omega) start
          rw [readsKey.single key rfl named, position_skip_one before.on (by omega), same]
        have first : key.info.start = L.startAt s₁.position
            ∨ (L.token s₁.position).isModifier = true := by
          rcases modifiers with same | isModifier
          · left
            rw [laysKey.start key rfl, same]
          · exact .inr isModifier
        exact objectMemberRest_spec sound ⟨laid, by omega⟩ first single
          (near.key before.on laysKey readsKey rfl) isAsync accessor
    | none =>
        -- The one member that can be closed where it begins.
        refine (complain_spec laid.reads.on _).bind ?_
        rintro _ s₄ ⟨reads₄, _, heard⟩
        have laid₄ := laid.pass reads₄
        exact .close ⟨.loose_opened laid₄ rfl (.inr heard), laid₄.reads.on.lastStop⟩

theorem objectLiteral_takes (sound : g.Sound L) : Takes L (objectLiteral g) := by
  intro s on more
  have begun := Begun.start on more
  refine .bind_advance ?_
  rw [on.start_current]
  -- Of every member it is known where it ends, and that it ends tidily.
  let R : ParserState → Tree → Prop := fun s member =>
    member.info.stop = L.stopBefore s.position ∧ s.IsTidy L
  have each : ∀ s, s.On L → Ensures (objectMember g) s fun member s' =>
      Laid L s s' [member] ∧ (s'.position ≠ s.position → R s' member) := by
    intro s on
    refine ((objectMember_spec sound on).and (objectMember_tidies sound.tidy s on)).mono ?_
    rintro member s' ⟨lays, tidy⟩
    exact ⟨lays.laid, fun moved => ⟨lays.stop, tidy.ends.resolve_left moved⟩⟩
  refine .bind (listOf_spec .closeBrace each begun.reads.on) ?_
  rintro members s₁ ⟨laid, _, last⟩
  refine .bind (P := fun _ s' => ∃ found, Expects L s₁ .closeBrace found s')
    ((expect_spec laid.reads.on _).discard fun found _ h => ⟨found, h⟩) ?_
  rintro _ s₂ ⟨found, expects⟩
  refine Begun.close ((begun.append laid).pass expects.reads) ?_
  intro member isLast
  obtain ⟨s₀, behind, ⟨stop, tidy⟩, reads, comma⟩ := last member isLast
  refine ⟨s₀.position, s₁.position, by omega, stop, comma, expects.atMost, fun silent => ?_⟩
  -- Without complaints the brace is there, so the member is not the last thing in the text.
  have quiet : s₂.complaints = [] := List.eq_nil_iff_forall_not_mem.mpr fun c inside =>
    silent c.2 ⟨c.1, inside⟩
  have le := reads.le
  cases found with
  | false =>
      obtain ⟨_, _, c, heard⟩ := expects.no rfl
      exact absurd heard (silent c)
  | true =>
      obtain ⟨moved, inside, _⟩ := expects.yes rfl
      refine ⟨by omega, tidy ((reads.trans expects.reads).silent quiet) (by omega)⟩

theorem bindingTarget_builds (sound : g.Sound L) : Builds L (bindingTarget g) := by
  intro s on
  refine .bind_current ?_
  refine .ite ?_ fun _ => .ite ?_ fun _ => .ite ?_ fun _ => ?_
  · intro isBrace
    exact (objectLiteral_takes sound s on (lt_size_of_is on isBrace)).mono fun _ _ h => h.toBuilt
  · intro isBracket
    exact (arrayLiteral_spec sound on isBracket).mono fun _ _ h => h.toBuilt
  · intro isWord
    exact (identifier_spec on isWord).mono fun _ _ h => h.toBuilt
  · refine (complain_spec on _).bind ?_
    rintro _ s₁ ⟨reads, stays, heard⟩
    rw [on.current, ← stays]
    exact .pure ((Built.missing reads.on heard).behind reads)

/-- A name that is bound is one token. -/
theorem bindingTarget_single (g : Grammar) (s : ParserState) :
    Ensures (bindingTarget g) s fun tree s' => tree.identifierName?.isSome = true →
      s' = s.skip 1 ∧ s.current.isWord = true ∧ tree.info.start = s.current.start := by
  refine .bind_current (.ite (fun _ => ?_) fun _ => .ite (fun _ => ?_) fun _ => .ite ?_ fun _ => ?_)
  · exact .behind fun _ _ => .behind fun _ _ => .behind fun _ _ => .close nofun
  · exact .behind fun _ _ => .behind fun _ _ => .behind fun _ _ => .close nofun
  · exact fun isWord => .bind_advance (.pure fun _ => ⟨rfl, isWord, rfl⟩)
  · exact .behind fun _ _ => .pure nofun

/-! ## §3. Classes. -/

theorem classMemberRest_spec {key : Tree} (sound : g.Sound L) (begun : Begun L s₀ s [key])
    (near : Approaches L s₀.position s.position) (isAsync : Bool) (accessor : Accessor) :
    Ensures (classMemberRest g (L.startAt s₀.position) key isAsync accessor) s
      fun tree s' => Taken L s₀ s' tree := by
  refine .bind (P := fun _ s' => ∃ found, Accepts L s (·.isOneOf [.question, .bang]) found s')
    ((acceptOneOf_spec begun.reads.on _).discard fun found _ h => ⟨found, h⟩) ?_
  rintro _ s₁ ⟨found, accepts⟩
  have begun := begun.pass accepts.reads
  have near := near.accepts accepts fun t isMark =>
    ⟨not_is_of_isOneOf isMark (by decide), not_is_of_isOneOf isMark (by decide)⟩
  refine .bind_current ?_
  refine .ite ?_ fun _ => ?_
  · intro _
    exact (methodRest_spec sound begun near accessor isAsync).mono fun _ _ h => h.1
  · refine begun.bind_pass skipAnnotation_passes ?_
    intro _ s₂ begun
    refine begun.bind_lay (initializer_lays sound) ?_
    intro value s₃ begun
    refine begun.bind_pass (accept_passes _).discard ?_
    intro _ s₄ begun
    exact begun.close trivial

theorem classMember_lays (sound : g.Sound L) : Lays L (classMember g) Option.toList := by
  intro s on
  refine (accept_passes _ s on).bind ?_
  intro found s₁ reads₁
  refine .ite (fun _ => .pure (.nothing reads₁)) fun _ => ?_
  refine (skipDecorators_passes sound s₁ reads₁.on).bind ?_
  intro _ s₂ reads₂
  have before := reads₁.trans reads₂
  refine .bind_current ?_
  rw [before.on.start_current]
  refine .bind_current (.bind_peek ?_)
  refine .ite ?_ fun _ => ?_
  · -- A static block.
    intro _
    refine .bind_skip ?_
    have inside := before.trans (.skip before.on 1)
    refine (block_builds sound _ inside.on).bind ?_
    intro node s₃ built
    exact .pure (built.behind inside).laid
  have words := (Approaches.here L s₂.position).skipWhile before.on
    (p := fun t next => t.isWordIn memberModifierWords && beginsPropertyKey next)
    fun t _ isModifier => isWord_of_isWordIn (Bool.and_eq_true_iff.mp isModifier).1
  refine ((skipWhile_passes _ s₂ before.on).and words).bind ?_
  rintro _ s₃ ⟨reads₃, near⟩
  refine .bind_current (.bind_peek (.bind_peek ?_))
  refine .ite ?_ fun _ => ?_
  · -- An index signature.
    intro _
    refine (skipGroup_passes s₃ reads₃.on).bind ?_
    intro _ s₄ reads₄
    refine (skipAnnotation_passes s₄ reads₄.on).bind ?_
    intro _ s₅ reads₅
    refine ((accept_passes _).discard s₅ reads₅.on).bind ?_
    intro _ s₆ reads₆
    exact .pure (.nothing (before.trans (reads₃.trans (reads₄.trans (reads₅.trans reads₆)))))
  refine ((memberModifiers_passes s₃ reads₃.on).and (near.memberModifiers reads₃.on)).bind ?_
  rintro ⟨isAsync, accessor⟩ s₄ ⟨reads₄, near⟩
  have modifiers := reads₃.trans reads₄
  refine ((propertyKey_spec sound modifiers.on).and (propertyKey_reads g modifiers.on)).bind ?_
  rintro key s₅ ⟨laysKey, readsKey⟩
  have le := modifiers.le
  have laid := laysKey.laid.behind modifiers
  cases key with
  | some key =>
      have moved := laysKey.moved rfl
      have near := near.key modifiers.on laysKey readsKey rfl
      refine (classMemberRest_spec sound ⟨laid, by omega⟩ near isAsync accessor).bind ?_
      intro member s₆ taken
      exact .pure (taken.behind before).laid
  | none => exact .pure (.nothing (before.trans laid.reads))

theorem classMembers_lays (sound : g.Sound L) : Lays L (classMembers g) id := by
  intro s on
  refine .iterate (I := fun members s' => Laid L s s' members.reverse) (.nothing (.refl on)) ?_
  intro members s₁ laid
  refine .bind_current ?_
  refine .ite (fun _ => .pure laid) fun _ => ?_
  refine .bind_position ?_
  refine (classMember_lays sound s₁ laid.reads.on).bind ?_
  intro member s₂ next
  refine .bind_position ?_
  refine .ite ?_ ?_
  · -- No member begins here: the token itself is passed over.
    intro _
    refine .bind_advance ?_
    have reads := next.reads.trans (.skip next.reads.on 1)
    rw [next.reads.on.start_current]
    refine (complainAt_spec reads.on _ _).bind ?_
    rintro _ s₃ ⟨reads₃, _, _⟩
    exact .pure (laid.pass (reads.trans reads₃))
  · intro _
    refine .pure ?_
    cases member with
    | none => exact laid.pass next.reads
    | some member => exact laid.snoc next

theorem className_lays : Lays L className Option.toList := by
  intro s on
  refine .bind_current ?_
  refine .ite ?_ fun _ => .pure (.nothing (.refl on))
  intro isName
  rw [Bool.and_eq_true] at isName
  refine (identifier_spec on isName.1).bind ?_
  intro name s₁ taken
  exact .pure taken.laid

theorem heritage_lays (sound : g.Sound L) : Lays L (heritage g) Option.toList := by
  intro s on
  refine (acceptWord_passes _ s on).bind ?_
  intro found s₁ reads
  refine .ite ?_ fun _ => .pure (.nothing reads)
  intro _
  refine (sound.primary s₁ reads.on).bind ?_
  intro operand s₂ built
  refine (chain_spec sound true built).bind ?_
  intro base s₃ built
  refine (built.behind reads).laid.bind_pass skipTypeParameters_passes ?_
  intro _ s₄ laid
  exact .pure laid

/-- A class, declared or as an expression. -/
theorem classNode_takes (sound : g.Sound L) : Takes L (classNode g) := by
  intro s on more
  refine .bind_current ?_
  rw [on.start_current]
  refine .bind (P := fun _ s' => ∃ found, Accepts L s (·.isTheWord "abstract") found s')
    ((acceptWord_spec on _).discard fun found _ h => ⟨found, h⟩) ?_
  rintro _ s₁ ⟨found, accepts⟩
  have moved := accepts.lt_position_skip more
  have reads := accepts.reads.trans (.skip accepts.reads.on 1)
  refine .bind_skip ?_
  refine (Begun.of_reads reads moved).bind_lay className_lays ?_
  intro name s₂ laid
  refine laid.bind_pass skipTypeParameters_passes ?_
  intro _ s₃ laid
  refine laid.bind_lay (heritage_lays sound) ?_
  intro base s₄ laid
  refine laid.bind_pass (acceptWord_passes _) ?_
  intro implements s₅ laid
  refine .ite_then (P := fun s' => Begun L _ s' _) ?_ (fun _ => laid) ?_
  · intro _
    exact .mono (skipHeading_passes _ s₅ laid.reads.on) fun _ _ reads => laid.pass reads
  intro s₆ laid
  refine laid.bind_pass (expect_passes _) ?_
  intro opened s₇ laid
  refine .ite ?_ ?_
  · intro _
    refine laid.bind_lay (classMembers_lays sound) ?_
    intro members s₈ laid
    refine laid.bind_pass (expect_passes _).discard ?_
    intro _ s₉ laid
    exact laid.close trivial
  · intro _
    refine Begun.close ?_ trivial
    show Begun L _ s₇ (name.toList ++ base.toList ++ [])
    rw [List.append_nil]
    exact laid

end Parser

end StackLint
