/-
  StackLint.Proofs.Parse.Reads
  ────────────────────────────
  **READING A LAYOUT.**

  A parser on a layout has read some of its tokens.  `Reads L s s'` says what
  every parser does between the states `s` and `s'`: it goes forward, leaves
  the nesting as it was, and only adds complaints about places where a token
  begins.
-/
import StackLint.Parse.Lookahead
import StackLint.Proofs.Parse.Ensures
import StackLint.Proofs.Token.Layout

namespace StackLint

/-! ## §1. States on a layout. -/

/-- The state of a parser that has read the first tokens of a layout. -/
structure ParserState.On (s : ParserState) (L : Layout) : Prop where
  ahead : s.ahead = L.tokens.drop s.position
  final : s.final = L.final
  inside : s.position ≤ L.size
  total : s.total = L.size
  lastStop : s.lastStop = L.stopBefore s.position

/-- The later complaints are about places where tokens begin. -/
def Complains (L : Layout) (before after : List (Nat × Complaint)) : Prop :=
  ∃ new, after = new ++ before ∧ ∀ complaint ∈ new, ∃ i, complaint.1 = L.startAt i

/-- The complaint was made about some place. -/
def Heard (complaints : List (Nat × Complaint)) (c : Complaint) : Prop :=
  ∃ offset, (offset, c) ∈ complaints

/-- **What parsers do to their state.** -/
structure Reads (L : Layout) (s s' : ParserState) : Prop where
  on : s'.On L
  le : s.position ≤ s'.position
  depth : s'.depth = s.depth
  complains : Complains L s.complaints s'.complaints

namespace ParserState

variable {L : Layout} {s : ParserState}

theorem On.start (L : Layout) : (ParserState.start L.tokens L.final).On L where
  ahead := rfl
  final := rfl
  inside := Nat.zero_le _
  total := rfl
  lastStop := rfl

theorem On.current (on : s.On L) : s.current = L.token s.position := by
  unfold ParserState.current Layout.token
  rw [on.ahead, on.final, List.head?_drop]

theorem On.peek (on : s.On L) (count : Nat) : s.peek count = L.token (s.position + count) := by
  unfold ParserState.peek Layout.token
  rw [on.ahead, on.final, List.getElem?_drop]

theorem On.start_current (on : s.On L) : s.current.start = L.startAt s.position := by
  rw [on.current]
  rfl

/-- A token that is not the end of the text can be read. -/
theorem On.lt_size (on : s.On L) (more : s.current.isEnd = false) : s.position < L.size := by
  rw [on.current] at more
  refine Nat.lt_of_not_le fun h => ?_
  rw [(L.isEnd_iff s.position).mpr h] at more
  cases more

/-- How far reading `count` tokens leads. -/
theorem skip_position (s : ParserState) (count : Nat) :
    (s.skip count).position = s.position + min count s.ahead.length := by
  unfold ParserState.skip
  show s.position + (s.ahead.take count).length = _
  rw [List.length_take]

theorem On.position_skip (on : s.On L) (count : Nat) :
    (s.skip count).position = min (s.position + count) L.size := by
  have inside := on.inside
  have left : s.ahead.length = L.size - s.position := by
    rw [on.ahead, List.length_drop]
    rfl
  rw [skip_position, left]
  omega

/-- Reading tokens of a layout. -/
theorem On.skip (on : s.On L) (count : Nat) : (s.skip count).On L := by
  have inside := on.inside
  have position := on.position_skip count
  have left : s.ahead.length = L.size - s.position := by
    rw [on.ahead, List.length_drop]
    rfl
  refine ⟨?_, on.final, ?_, on.total, ?_⟩
  · show s.ahead.drop count = L.tokens.drop (s.skip count).position
    rw [on.ahead, List.drop_drop, position]
    -- At most as many tokens are read as there are.
    by_cases enough : s.position + count ≤ L.size
    · rw [Nat.min_eq_left enough]
    · rw [Nat.min_eq_right (by omega), List.drop_eq_nil_of_le (by unfold Layout.size at *; omega)]
      exact (List.drop_eq_nil_of_le (Nat.le_refl _)).symm
  · rw [position]
    exact Nat.min_le_right _ _
  · show ((s.ahead.take count).getLast?.map Token.stop).getD s.lastStop = _
    rw [position, List.getLast?_eq_getElem?, List.length_take, left]
    -- If a token is read, the last one of them stands before the new position.
    by_cases none : min count (L.size - s.position) = 0
    · have stays : min (s.position + count) L.size = s.position := by omega
      have empty : s.ahead.take count = [] := by
        rw [← List.length_eq_zero_iff, List.length_take, left]
        exact none
      rw [empty, stays]
      exact on.lastStop
    · obtain ⟨m, hm⟩ : ∃ m, min count (L.size - s.position) = m + 1 :=
        ⟨min count (L.size - s.position) - 1, by omega⟩
      have goes : min (s.position + count) L.size = s.position + m + 1 := by omega
      rw [hm, goes, Nat.add_sub_cancel, List.getElem?_take_of_lt (by omega), on.ahead,
        List.getElem?_drop]
      have inRange : s.position + m < L.tokens.length := by unfold Layout.size at *; omega
      rw [List.getElem?_eq_getElem inRange]
      show _ = (L.token (s.position + m)).stop
      rw [L.token_of_lt inRange]
      rfl

end ParserState

namespace Complains

variable {L : Layout}

theorem refl (complaints : List (Nat × Complaint)) : Complains L complaints complaints :=
  ⟨[], rfl, fun _ h => nomatch h⟩

theorem trans {first second third : List (Nat × Complaint)} (h : Complains L first second)
    (h' : Complains L second third) : Complains L first third := by
  obtain ⟨new, rfl, places⟩ := h
  obtain ⟨newer, rfl, places'⟩ := h'
  refine ⟨newer ++ new, (List.append_assoc _ _ _).symm, ?_⟩
  intro complaint inside
  rcases List.mem_append.mp inside with h | h
  · exact places' complaint h
  · exact places complaint h

/-- What was complained of is not forgotten. -/
theorem louder {before after : List (Nat × Complaint)} (h : Complains L before after)
    (c : Complaint) (heard : Heard before c) : Heard after c := by
  obtain ⟨new, rfl, _⟩ := h
  obtain ⟨offset, inside⟩ := heard
  exact ⟨offset, List.mem_append_right _ inside⟩

theorem one (i : Nat) (c : Complaint) (complaints : List (Nat × Complaint)) :
    Complains L complaints ((L.startAt i, c) :: complaints) := by
  refine ⟨[(L.startAt i, c)], rfl, ?_⟩
  intro complaint inside
  rw [List.mem_singleton] at inside
  exact ⟨i, by rw [inside]⟩

end Complains

namespace Reads

variable {L : Layout} {s s' s'' : ParserState}

theorem refl (on : s.On L) : Reads L s s :=
  ⟨on, Nat.le_refl _, rfl, .refl _⟩

theorem trans (h : Reads L s s') (h' : Reads L s' s'') : Reads L s s'' :=
  ⟨h'.on, Nat.le_trans h.le h'.le, h'.depth.trans h.depth, h.complains.trans h'.complains⟩

theorem skip (on : s.On L) (count : Nat) : Reads L s (s.skip count) := by
  have inside := on.inside
  refine ⟨on.skip count, ?_, rfl, .refl _⟩
  rw [on.position_skip]
  omega

end Reads

/-! ## §2. Reading tokens. -/

namespace Parser

variable {α β : Type} {L : Layout} {s : ParserState}

theorem Ensures.bind_skip {count : Nat} {f : Unit → Parser β} {Q : β → ParserState → Prop}
    (h : Ensures (f ()) (s.skip count) Q) : Ensures (skip count >>= f) s Q := by
  refine Ensures.bind (P := fun _ s' => s' = s.skip count) (.modify rfl) ?_
  rintro _ _ rfl
  exact h

theorem Ensures.bind_advance {f : Token → Parser β} {Q : β → ParserState → Prop}
    (h : Ensures (f s.current) (s.skip 1) Q) : Ensures (advance >>= f) s Q := by
  refine Ensures.bind (P := fun t s' => t = s.current ∧ s' = s.skip 1) ?_ ?_
  · refine .bind_current ?_
    refine .bind_skip ?_
    exact .pure ⟨rfl, rfl⟩
  · rintro _ _ ⟨rfl, rfl⟩
    exact h

/-- Before the end of the text one token is read. -/
theorem position_skip_one (on : s.On L) (more : s.position < L.size) :
    (s.skip 1).position = s.position + 1 := by
  rw [on.position_skip]
  omega

/-- A complaint is recorded, and nothing is read. -/
structure Complained (L : Layout) (c : Complaint) (s s' : ParserState) : Prop where
  reads : Reads L s s'
  stays : s'.position = s.position
  heard : Heard s'.complaints c

/-- The token that is read ends where reading has come to. -/
theorem stop_current (on : s.On L) (more : s.position < L.size) :
    s.current.stop = (s.skip 1).lastStop := by
  rw [(on.skip 1).lastStop, position_skip_one on more, on.current]
  rfl

theorem complainAt_spec (on : s.On L) (i : Nat) (c : Complaint) :
    Ensures (complainAt (L.startAt i) c) s fun _ s' => Complained L c s s' := by
  refine .modify ⟨⟨?_, Nat.le_refl _, rfl, .one i c _⟩, rfl, ⟨_, List.mem_cons_self ..⟩⟩
  exact ⟨on.ahead, on.final, on.inside, on.total, on.lastStop⟩

theorem complain_spec (on : s.On L) (c : Complaint) :
    Ensures (complain c) s fun _ s' => Complained L c s s' := by
  refine .bind_current ?_
  rw [on.start_current]
  exact complainAt_spec on _ c

/-- A punctuator is read, or nothing is. -/
structure Accepts (L : Layout) (s : ParserState) (test : Token → Bool) (found : Bool)
    (s' : ParserState) : Prop where
  reads : Reads L s s'
  yes : found = true → s'.position = s.position + 1 ∧ s.position < L.size
    ∧ test (L.token s.position) = true
  no : found = false → s' = s ∧ test (L.token s.position) = false

/-- Reading the next token if it passes a test that the end of the text does
not pass. -/
theorem accepts_spec (on : s.On L) (test : Token → Bool)
    (notEnd : ∀ t : Token, test t = true → t.isEnd = false) :
    Ensures (do
      let found := test (← current)
      if found then skip 1
      return found) s (Accepts L s test) := by
  refine .bind_current ?_
  refine .ite ?_ ?_
  · intro passes
    have more := on.lt_size (notEnd _ passes)
    refine .bind_skip (.pure ⟨.skip on 1, ?_, ?_⟩)
    · intro _
      refine ⟨position_skip_one on more, more, ?_⟩
      rw [← on.current]
      exact passes
    · intro fails
      rw [passes] at fails
      cases fails
  · intro fails
    refine .pure ⟨.refl on, ?_, ?_⟩
    · intro passes
      exact absurd passes fails
    · intro _
      refine ⟨rfl, ?_⟩
      rw [← on.current, ← Bool.not_eq_true]
      exact fails

theorem isEnd_of_isOneOf {t : Token} {ps : List Punct} (h : t.isOneOf ps = true) :
    t.isEnd = false := by
  unfold Token.isOneOf at h
  unfold Token.isEnd
  cases same : t.lexeme <;> rw [same] at h <;> first | rfl | cases h

theorem isWord_of_isTheWord {t : Token} {word : Text} (h : t.isTheWord word = true) :
    t.isWord = true := by
  unfold Token.isTheWord at h
  unfold Token.isWord
  rw [beq_iff_eq.mp h]

theorem isWord_of_isWordIn {t : Token} {words : List Text} (h : t.isWordIn words = true) :
    t.isWord = true := by
  unfold Token.isWordIn at h
  unfold Token.isWord
  split at h
  · next name same => rfl
  · cases h

theorem not_is_of_isWord {t : Token} (h : t.isWord = true) (p : Punct) : t.is p = false := by
  unfold Token.isWord at h
  unfold Token.is
  split at h
  · next name same =>
      rw [same]
      rfl
  · cases h

theorem not_is_of_isOneOf {t : Token} {ps : List Punct} (h : t.isOneOf ps = true) {p : Punct}
    (other : p ∉ ps) : t.is p = false := by
  unfold Token.isOneOf at h
  unfold Token.is
  split at h
  · next q same =>
      rw [same]
      exact beq_false_of_ne fun isPunct => other (Lexeme.punct.inj isPunct ▸ List.contains_iff_mem.mp h)
  · cases h

theorem not_is_of_is {t : Token} {p q : Punct} (h : t.is p = true) (other : p ≠ q) :
    t.is q = false := by
  unfold Token.is at h ⊢
  rw [beq_iff_eq.mp h]
  exact beq_false_of_ne fun same => other (Lexeme.punct.inj same)

theorem isEnd_of_isTheWord {t : Token} {word : Text} (h : t.isTheWord word = true) :
    t.isEnd = false := by
  unfold Token.isTheWord at h
  unfold Token.isEnd
  rw [beq_iff_eq.mp h]
  rfl

theorem isEnd_of_is {t : Token} {p : Punct} (h : t.is p = true) : t.isEnd = false := by
  unfold Token.is at h
  unfold Token.isEnd
  rw [beq_iff_eq.mp h]
  rfl

theorem lt_size_of_lexeme (on : s.On L) (h : s.current.lexeme ≠ .endOfText) :
    s.position < L.size := by
  refine on.lt_size ?_
  unfold Token.isEnd
  exact beq_false_of_ne h

theorem lt_size_of_isWord (on : s.On L) (h : s.current.isWord = true) : s.position < L.size := by
  refine lt_size_of_lexeme on fun same => ?_
  unfold Token.isWord at h
  rw [same] at h
  cases h

theorem lt_size_of_is (on : s.On L) {p : Punct} (h : s.current.is p = true) :
    s.position < L.size :=
  on.lt_size (isEnd_of_is h)

theorem lt_size_of_opensTemplate (on : s.On L) (h : s.current.opensTemplate = true) :
    s.position < L.size := by
  refine lt_size_of_lexeme on fun same => ?_
  unfold Token.opensTemplate at h
  rw [same] at h
  cases h

theorem isOneOf_singleton (t : Token) (p : Punct) : t.isOneOf [p] = t.is p := by
  unfold Token.isOneOf Token.is
  cases t.lexeme with
  | punct q =>
      rw [Bool.eq_iff_iff, List.contains_iff_mem, List.mem_singleton, beq_iff_eq, Lexeme.punct.injEq]
  | _ => rfl

theorem acceptOneOf_spec (on : s.On L) (ps : List Punct) :
    Ensures (acceptOneOf ps) s (Accepts L s (·.isOneOf ps)) :=
  accepts_spec on _ fun _ h => isEnd_of_isOneOf h

theorem accept_spec (on : s.On L) (p : Punct) :
    Ensures (accept p) s (Accepts L s (·.is p)) := by
  have spec := acceptOneOf_spec on [p]
  simp only [isOneOf_singleton] at spec
  exact spec

theorem acceptWord_spec (on : s.On L) (word : Text) :
    Ensures (acceptWord word) s (Accepts L s (·.isTheWord word)) :=
  accepts_spec on _ fun _ h => isEnd_of_isTheWord h

/-- Another punctuator is left unread. -/
theorem accept_stays (on : s.On L) {p q : Punct} (other : p ≠ q) :
    Ensures (discard (accept p)) s fun _ s' =>
      Reads L s s' ∧ ((L.token s.position).is q = true → s' = s) := by
  refine (accept_spec on p).discard ?_
  rintro found s' ⟨reads, yes, no⟩
  refine ⟨reads, fun isOther => ?_⟩
  cases found with
  | false => exact (no rfl).1
  | true =>
      rw [not_is_of_is (yes rfl).2.2 other] at isOther
      cases isOther

/-- A punctuator is read, or a complaint says that it is missing. -/
structure Expects (L : Layout) (s : ParserState) (p : Punct) (found : Bool)
    (s' : ParserState) : Prop where
  reads : Reads L s s'
  yes : found = true → s'.position = s.position + 1 ∧ s.position < L.size
    ∧ (L.token s.position).is p = true
  no : found = false → s'.position = s.position ∧ (L.token s.position).is p = false
    ∧ ∃ c, Heard s'.complaints c

theorem expect_spec (on : s.On L) (p : Punct) : Ensures (expect p) s (Expects L s p) := by
  refine (accept_spec on p).bind ?_
  rintro found s₁ ⟨reads, yes, no⟩
  cases found with
  | true =>
      refine .pure ⟨reads, yes, ?_⟩
      intro never
      cases never
  | false =>
      obtain ⟨rfl, fails⟩ := no rfl
      refine .bind_current ?_
      refine (complain_spec on _).bind ?_
      rintro _ s₂ ⟨reads₂, stays, heard⟩
      refine .pure ⟨reads₂, ?_, fun _ => ⟨stays, fails, _, heard⟩⟩
      intro never
      cases never

/-- Reading one token more leads on, whether or not the test passed. -/
theorem Accepts.lt_position {test : Token → Bool} {found : Bool} {s' : ParserState}
    (accepts : Accepts L s test found s') (isFound : found = true) : s.position < s'.position := by
  rw [(accepts.yes isFound).1]
  exact Nat.lt_succ_self _

theorem Expects.lt_position {p : Punct} {found : Bool} {s' : ParserState}
    (expects : Expects L s p found s') (isFound : found = true) : s.position < s'.position := by
  rw [(expects.yes isFound).1]
  exact Nat.lt_succ_self _

theorem Accepts.lt_position_skip {test : Token → Bool} {found : Bool} {s' : ParserState}
    (accepts : Accepts L s test found s') (more : s.position < L.size) :
    s.position < (s'.skip 1).position := by
  rw [accepts.reads.on.position_skip]
  cases found with
  | true =>
      -- The accepted token alone leads on, even if no other one is left.
      obtain ⟨moved, inside, _⟩ := accepts.yes rfl
      omega
  | false =>
      obtain ⟨rfl, _⟩ := accepts.no rfl
      omega

/-! ## §3. Passing over tokens. -/

/-- The parser reads tokens and makes nothing of them. -/
def Passes (L : Layout) (p : Parser α) : Prop :=
  ∀ s, s.On L → Ensures p s fun _ s' => Reads L s s'

theorem Passes.discard {p : Parser α} (passes : Passes L p) : Passes L (discard p) :=
  fun s on => (passes s on).discard fun _ _ reads => reads

theorem Passes.pure (a : α) : Passes L (pure a) :=
  fun _ on => .pure (.refl on)

theorem Passes.ite {c : Prop} [Decidable c] {p q : Parser α} (yes : Passes L p)
    (no : Passes L q) : Passes L (if c then p else q) :=
  fun s on => .ite (fun _ => yes s on) fun _ => no s on

theorem Passes.bind {p : Parser α} {f : α → Parser β} (first : Passes L p)
    (next : ∀ a, Passes L (f a)) : Passes L (p >>= f) := by
  intro s on
  refine (first s on).bind ?_
  intro a s₁ reads
  exact (next a s₁ reads.on).mono fun _ _ h => reads.trans h

/-- A look at the state reads nothing. -/
theorem Passes.look {p : Parser α} {f : α → Parser β} {look : ParserState → α}
    (same : ∀ s, p.run s = .ok (look s) s) (next : ∀ a, Passes L (f a)) : Passes L (p >>= f) :=
  fun s on => .look (same s) (next _ s on)

theorem expect_passes (c : Punct) : Passes L (expect c) :=
  fun _ on => (expect_spec on c).mono fun _ _ h => h.reads

theorem acceptOneOf_passes (cs : List Punct) : Passes L (acceptOneOf cs) :=
  fun _ on => (acceptOneOf_spec on cs).mono fun _ _ h => h.reads

theorem accept_passes (c : Punct) : Passes L (accept c) :=
  acceptOneOf_passes [c]

theorem acceptWord_passes (word : Text) : Passes L (acceptWord word) :=
  fun _ on => (acceptWord_spec on word).mono fun _ _ h => h.reads

theorem complain_passes (c : Complaint) : Passes L (complain c) :=
  fun _ on => (complain_spec on c).mono fun _ _ h => h.reads

theorem skip_passes (count : Nat) : Passes L (skip count) :=
  fun _ on => .modify (.skip on count)

theorem skipWhile_passes (p : Token → Token → Bool) : Passes L (skipWhile p) := by
  intro s on
  refine .iterate (I := fun _ s' => Reads L s s') (.refl on) ?_
  intro _ s₁ reads
  refine .bind_get ?_
  refine .ite ?_ ?_
  · intro _
    exact .pure reads
  · intro _
    refine .bind_skip (.pure ?_)
    exact reads.trans (.skip reads.on 1)

theorem skipGroup_passes : Passes L skipGroup :=
  .look (fun _ => rfl) fun _ => skip_passes _

theorem skipItem_passes (t : Token) : Passes L (skipItem t) :=
  .ite skipGroup_passes (.ite (.pure _) (skip_passes 1))

/-- A group in angle brackets has a token. -/
theorem angleWidth?_pos {depth skip : Nat} {tokens : List Token} {width : Nat}
    (h : Lookahead.angleWidth? depth skip tokens = some width) : 0 < width ∧ tokens ≠ [] := by
  cases tokens with
  | nil =>
      unfold Lookahead.angleWidth? at h
      cases h
  | cons t rest =>
      refine ⟨?_, List.cons_ne_nil _ _⟩
      -- Whatever the first token is, the rest of the group is counted behind it.
      have later : ∀ depth skip,
          (Lookahead.angleWidth? depth skip rest).map (· + 1) = some width → 0 < width := by
        intro depth skip h
        obtain ⟨w, _, rfl⟩ := Option.map_eq_some_iff.mp h
        exact Nat.succ_pos w
      rw [Lookahead.angleWidth?.eq_def] at h
      cases skip with
      | succ skip => exact later _ _ h
      | zero =>
          simp only at h
          split at h
          · split at h
            · exact later _ _ h
            · split at h
              · split at h
                · cases h
                  exact Nat.one_pos
                · exact later _ _ h
              · split at h
                · exact later _ _ h
                · split at h
                  · cases h
                  · exact later _ _ h
          · exact later _ _ h

/-- Reading a group in angle brackets leads to a later token. -/
theorem position_skip_angles {width : Nat}
    (found : Lookahead.angleWidth? 0 0 s.ahead = some width) :
    s.position < (s.skip width).position := by
  obtain ⟨positive, nonempty⟩ := angleWidth?_pos found
  have left := List.length_pos_iff.mpr nonempty
  rw [ParserState.skip_position]
  omega

theorem skipAngles_spec (on : s.On L) :
    Ensures skipAngles s fun found s' =>
      Reads L s s' ∧ found = (Lookahead.angleWidth? 0 0 s.ahead).isSome
        ∧ (found = true → s.position < s'.position) := by
  refine .bind_get ?_
  split
  · next width found =>
      refine .bind_skip (.pure ⟨.skip on width, ?_, fun _ => ?_⟩)
      · rw [found]
        rfl
      · exact position_skip_angles found
  · next none =>
      refine .pure ⟨.refl on, ?_, fun never => nomatch never⟩
      rw [none]
      rfl

theorem skipAngles_passes : Passes L skipAngles :=
  fun _ on => (skipAngles_spec on).mono fun _ _ h => h.1

theorem skipTypeParameters_passes : Passes L skipTypeParameters :=
  .look (fun _ => rfl) fun _ => .ite skipAngles_passes.discard (.pure _)

theorem skipType_passes : Passes L skipType := by
  refine .look (fun _ => rfl) fun _ => .ite ?_ (skip_passes _)
  exact (complain_passes _).bind fun _ => skip_passes _

theorem skipAnnotation_passes : Passes L skipAnnotation :=
  (accept_passes .colon).bind fun _ => .ite skipType_passes (.pure _)

/-- Where no colon comes next, there is no annotation. -/
theorem skipAnnotation_stays (on : s.On L) {q : Punct} (other : .colon ≠ q) :
    Ensures skipAnnotation s fun _ s' => Reads L s s' ∧ ((L.token s.position).is q = true → s' = s) := by
  refine (accept_spec on .colon).bind fun found s₁ accepts => .ite (fun isFound => ?_) fun notFound => ?_
  · refine (skipType_passes s₁ accepts.reads.on).mono fun _ s₂ reads => ?_
    refine ⟨accepts.reads.trans reads, fun isOther => ?_⟩
    rw [not_is_of_is (accepts.yes isFound).2.2 other] at isOther
    cases isOther
  · exact .pure ⟨accepts.reads, fun _ => (accepts.no (Bool.eq_false_iff.mpr notFound)).1⟩

theorem skipHeading_passes (stops : List Punct) : Passes L (skipHeading stops) := by
  intro s on
  refine .iterate (I := fun _ s' => Reads L s s') (.refl on) ?_
  intro _ s₁ reads
  refine .bind_current ?_
  refine .ite (fun _ => .pure reads) fun _ => ?_
  refine .ite ?_ ?_
  · -- An angle that opens no group is passed over like any other token.
    intro _
    refine (skipAngles_passes s₁ reads.on).bind ?_
    intro found s₂ reads₂
    refine .ite ?_ ?_
    · intro _
      exact .pure (reads.trans reads₂)
    · intro _
      refine .bind_skip (.pure ?_)
      exact (reads.trans reads₂).trans (.skip reads₂.on 1)
  · intro _
    refine .bind_skip (.pure ?_)
    exact reads.trans (.skip reads.on 1)

/-- Where `in` is no operator does not matter to what is read. -/
theorem modify_noIn_passes (noIn : Bool) :
    Passes L (modify fun s => { s with noIn := noIn }) := by
  intro s on
  refine .modify ⟨?_, Nat.le_refl _, rfl, .refl _⟩
  exact ⟨on.ahead, on.final, on.inside, on.total, on.lastStop⟩

end Parser

end StackLint
