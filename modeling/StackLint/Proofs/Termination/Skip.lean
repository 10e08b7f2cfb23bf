/-
  StackLint.Proofs.Termination.Skip
  ─────────────────────────────────
  **PASSING OVER TOKENS ENDS.**

  What looks ahead counts tokens and then reads as many; what passes over tokens
  one by one reads one in each round.  A construct is nested only while a level is
  left, and passed over otherwise.
-/
import StackLint.Proofs.Termination.Ends
import StackLint.Proofs.Tidy.Lookahead

namespace StackLint

namespace Parser

variable {L : Layout} {may : Halt → Prop} {q : Nat} {α : Type} {s : ParserState}

/-! ## §1. Groups and types. -/

/-- Behind a test for the end of the text a token is left. -/
theorem more_of_not_end {rest : Bool} (on : s.On L) (goesOn : ¬ (s.current.isEnd || rest) = true) :
    s.position < L.size := by
  refine on.lt_size ?_
  rw [Bool.or_eq_true, not_or] at goesOn
  exact Bool.eq_false_iff.mpr goesOn.1

/-- A round that passes over one token. -/
theorem skipOne_moves : Moves L may q (do skip 1; return (.again () : Round Unit Unit)) :=
  (skip_moves Nat.one_pos).bind fun _ => .pure _

theorem skipWhile_ends (p : Token → Token → Bool) : Ends L may q (skipWhile p) := by
  refine .iterate (fun _ => ?_) _
  intro s running
  refine .bind_get ?_
  refine .ite (fun _ => Turns.finish _ s running) fun goesOn => ?_
  exact Turns.of_moves skipOne_moves running (more_of_not_end running.on goesOn)

theorem skipGroup_ends : Ends L may q skipGroup :=
  .look (fun _ => rfl) fun _ => skip_ends _

theorem skipGroup_moves : Moves L may q skipGroup := by
  intro s running more
  have nonempty : s.ahead ≠ [] := by
    rw [running.on.ahead, L.drop_eq_cons more]
    exact List.cons_ne_nil _ _
  refine .bind_get ?_
  exact skip_moves (groupWidth_pos nonempty) s running more

/-- A group in angle brackets is read, or nothing is. -/
theorem skipAngles_goes (running : s.Running L q) :
    Goes L may skipAngles s fun found s' =>
      found = (Lookahead.angleWidth? 0 0 s.ahead).isSome
        ∧ (found = true → s.position < s'.position) ∧ (found = false → s' = s) := by
  refine .bind_get ?_
  split
  · next width found =>
      refine .of_run rfl (.skip running.on width) ⟨?_, fun _ => ?_, fun never => nomatch never⟩
      · rw [found]
        rfl
      · exact position_skip_angles found
  · next none =>
      refine .pure running.on ⟨?_, (fun never => nomatch never), fun _ => rfl⟩
      rw [none]
      rfl

theorem skipAngles_ends : Ends L may q skipAngles :=
  fun _ running => (skipAngles_goes running).mono fun _ _ _ _ => trivial

theorem skipTypeParameters_ends : Ends L may q skipTypeParameters :=
  .look (fun _ => rfl) fun _ => .ite skipAngles_ends.discard (.pure _)

theorem skipType_ends : Ends L may q skipType :=
  .look (fun _ => rfl) fun _ =>
    .ite ((complain_ends _).bind fun _ => skip_ends _) (skip_ends _)

theorem skipAnnotation_ends : Ends L may q skipAnnotation :=
  (accept_ends .colon).bind fun _ => .ite skipType_ends (.pure _)

theorem skipHeading_ends (stops : List Punct) : Ends L may q (skipHeading stops) := by
  refine .iterate (fun _ => ?_) _
  intro s running
  refine .bind_current ?_
  refine .ite (fun _ => Turns.finish _ s running) fun goesOn => ?_
  have more := more_of_not_end running.on goesOn
  refine .ite (fun _ => ?_) fun _ => Turns.of_moves skipOne_moves running more
  -- An angle that opens no group is passed over like any other token.
  refine (skipAngles_goes running).bind ?_
  rintro found s₁ reads ⟨_, yes, no⟩
  refine .ite (fun isFound => .pure reads.on fun _ _ => yes isFound) fun notFound => ?_
  obtain rfl := no (Bool.eq_false_iff.mpr notFound)
  exact Turns.of_moves skipOne_moves running more

/-! ## §2. Nesting. -/

theorem modify_noIn_ends (noIn : Bool) :
    Ends L may q (modify fun s => { s with noIn := noIn }) :=
  .of_passes (fun _ => ⟨_, _, rfl⟩) (modify_noIn_passes noIn)

theorem complainAt_ends (i : Nat) (c : Complaint) : Ends L may q (complainAt (L.startAt i) c) := by
  intro s running
  refine .of_ensures (fun _ => ⟨_, _, rfl⟩) ?_
  exact (complainAt_spec running.on i c).mono fun _ _ h => ⟨h.reads, trivial⟩

theorem skipItem_ends (t : Token) : Ends L may q (skipItem t) :=
  .ite skipGroup_ends (.ite (.pure _) (skip_ends 1))

theorem skipTooDeep_ends : Ends L may q skipTooDeep := by
  intro s running
  refine .bind_current (.bind_position ?_)
  rw [running.on.start_current]
  refine Ends.bind (complainAt_ends _ _) (fun _ => ?_) s running
  refine (skipItem_ends _).bind fun _ => .look (fun _ => rfl) fun _ => ?_
  exact .ite (.pure _) (close_ends _ _)

/-- **One level deeper** a parser is run only while a level is left, and the level
is given back. -/
theorem nested_ends {parse : Parser Tree} (ends : Ends L may q parse) :
    Ends L may q (nested parse) := by
  intro s running
  refine .bind_get ?_
  refine .ite (fun _ => skipTooDeep_ends s running) fun isLeft => ?_
  -- The depth says nothing about the place on the layout.
  have on := running.on
  have deeper : ParserState.Running { s with depth := s.depth + 1 } L q :=
    ⟨⟨on.ahead, on.final, on.inside, on.total, on.lastStop⟩, running.reached,
      Nat.succ_le_of_lt (Nat.lt_of_not_le isLeft)⟩
  have goes := ends _ deeper
  unfold Goes at goes
  cases run : parse.run { s with depth := s.depth + 1 } with
  | ok tree s₁ =>
      rw [run] at goes
      obtain ⟨⟨on₁, le, depth, complains⟩, _⟩ := goes
      refine Goes.of_run (?_ : _ = EStateM.Result.ok tree { s₁ with depth := s₁.depth - 1 }) ?_ trivial
      · show (parse >>= _).run _ = _
        rw [EStateM.run_bind, run]
        rfl
      · refine ⟨⟨on₁.ahead, on₁.final, on₁.inside, on₁.total, on₁.lastStop⟩, le, ?_, complains⟩
        show s₁.depth - 1 = s.depth
        rw [depth]
        exact Nat.add_sub_cancel ..
  | error reason s₁ =>
      rw [run] at goes
      obtain ⟨admitted, on₁, le, shallow, complains⟩ := goes
      unfold Goes
      have stops : (do
          modify fun s : ParserState => { s with depth := s.depth + 1 }
          let tree ← parse
          modify fun s : ParserState => { s with depth := s.depth - 1 }
          return tree : Parser Tree).run s = .error reason s₁ := by
        show (parse >>= _).run _ = _
        rw [EStateM.run_bind, run]
      rw [stops]
      exact ⟨admitted, on₁, le, shallow, complains⟩

theorem allowingIn_ends {parse : Parser α} (ends : Ends L may q parse) :
    Ends L may q (allowingIn parse) :=
  .look (fun _ => rfl) fun _ =>
    (modify_noIn_ends false).bind fun _ => ends.bind fun _ =>
      (modify_noIn_ends _).bind fun _ => .pure _

end Parser

end StackLint
