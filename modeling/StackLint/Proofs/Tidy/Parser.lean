/-
  StackLint.Proofs.Tidy.Parser
  ────────────────────────────
  **READING ENDS TIDILY.**

  A parser that does not complain ends behind a token that is no stray character,
  unless it reads nothing, or all tokens.  `Tidies` says so of a parser, and `Settles`
  says so even where nothing is read, because a certain token is demanded.
-/
import StackLint.Parse.Grammar
import StackLint.Proofs.Tidy.Lookahead

namespace StackLint

/-- Without complaints, and if there are tokens left, the token in front of the state is no stray
character. -/
def ParserState.IsTidy (s : ParserState) (L : Layout) : Prop :=
  s.complaints = [] → s.position < L.size → (L.token (s.position - 1)).isStray = false

/-- **Between the two states reading ends tidily,** or nothing is read. -/
structure Tidy (L : Layout) (s s' : ParserState) : Prop where
  reads : Reads L s s'
  ends : s'.position = s.position ∨ s'.IsTidy L

/-! ## §1. States. -/

section States

variable {L : Layout} {s s' s'' : ParserState}

/-- Who does not complain in the end has not complained before. -/
theorem Reads.silent (reads : Reads L s s') (silent : s'.complaints = []) : s.complaints = [] := by
  obtain ⟨new, same, _⟩ := reads.complains
  rw [silent] at same
  exact (List.append_eq_nil_iff.mp same.symm).2

namespace ParserState.IsTidy

/-- Where nothing more is read, the state stays tidy. -/
theorem stays (tidy : s.IsTidy L) (reads : Reads L s s') (same : s'.position = s.position) :
    s'.IsTidy L := by
  intro silent more
  rw [same] at more ⊢
  exact tidy (reads.silent silent) more

theorem of_heard {c : Complaint} (heard : Heard s.complaints c) : s.IsTidy L := by
  intro silent
  obtain ⟨offset, inside⟩ := heard
  rw [silent] at inside
  cases inside

/-- At the end of the text there is nothing to say. -/
theorem of_isEnd (on : s.On L) (isEnd : s.current.isEnd = true) : s.IsTidy L := by
  intro _ more
  rw [on.current, L.isEnd_iff] at isEnd
  exact absurd more (Nat.not_lt.mpr isEnd)

end ParserState.IsTidy

namespace Tidy

theorem refl (on : s.On L) : Tidy L s s :=
  ⟨.refl on, .inl rfl⟩

theorem trans (tidy : Tidy L s s') (tidy' : Tidy L s' s'') : Tidy L s s'' := by
  refine ⟨tidy.reads.trans tidy'.reads, ?_⟩
  rcases tidy'.ends with same | isTidy
  · rcases tidy.ends with same' | isTidy
    · exact .inl (same.trans same')
    · exact .inr (isTidy.stays tidy'.reads same)
  · exact .inr isTidy

/-- Behind a tidy state. -/
theorem isTidy (tidy : Tidy L s s') (isTidy : s.IsTidy L) : s'.IsTidy L :=
  tidy.ends.elim (isTidy.stays tidy.reads) id

/-- **Tokens that end tidily.** -/
theorem skip (on : s.On L) {count : Nat} (endsTidily : EndsTidily count s.ahead) :
    Tidy L s (s.skip count) := by
  refine ⟨.skip on count, ?_⟩
  have position := on.position_skip count
  have inside := on.inside
  have left : s.ahead.length = L.size - s.position := by
    rw [on.ahead, List.length_drop]
    rfl
  cases count with
  | zero =>
      left
      omega
  | succ count =>
      right
      intro _ more
      rcases endsTidily with never | whole | ⟨t, isLast, notStray⟩
      · cases never
      · omega
      · have last : (s.skip (count + 1)).position - 1 = s.position + count := by omega
        rw [Nat.add_sub_cancel, on.ahead, List.getElem?_drop] at isLast
        rw [last]
        unfold Layout.token
        rw [isLast]
        exact notStray

/-- One token that is no stray character. -/
theorem skip_one (on : s.On L) (notStray : s.current.isStray = false) : Tidy L s (s.skip 1) := by
  refine .skip on ?_
  unfold ParserState.current at notStray
  cases ahead : s.ahead with
  | nil => exact .all (Nat.zero_le 1)
  | cons t rest =>
      rw [ahead] at notStray
      exact .one notStray

end Tidy

end States

/-! ## §2. Parsers. -/

namespace Parser

variable {L : Layout} {α β : Type} {s s₀ : ParserState}

/-- **Reading ends tidily.** -/
def Tidies (L : Layout) (p : Parser α) : Prop :=
  ∀ s, s.On L → Ensures p s fun _ s' => Tidy L s s'

/-- Reading ends tidily, also where nothing is read. -/
def Settles (L : Layout) (p : Parser α) : Prop :=
  ∀ s, s.On L → Ensures p s fun _ s' => Reads L s s' ∧ s'.IsTidy L

theorem Settles.tidies {p : Parser α} (settles : Settles L p) : Tidies L p :=
  fun s on => (settles s on).mono fun _ _ h => ⟨h.1, .inr h.2⟩

theorem Settles.discard {p : Parser α} (settles : Settles L p) : Settles L (discard p) :=
  fun s on => (settles s on).discard fun _ _ h => h

/-- A look at the state reads nothing. -/
theorem Settles.look {p : Parser α} {f : α → Parser β} {look : ParserState → α}
    (same : ∀ s, p.run s = .ok (look s) s) (next : ∀ a, Settles L (f a)) : Settles L (p >>= f) :=
  fun s on => .look (same s) (next _ s on)

/-- What is demanded in the end settles the whole. -/
theorem Passes.bind_settles {p : Parser α} {f : α → Parser β} (passes : Passes L p)
    (settles : ∀ a, Settles L (f a)) : Settles L (p >>= f) := by
  intro s on
  refine (passes s on).bind fun a s₁ reads => ?_
  exact (settles a s₁ reads.on).mono fun _ _ h => ⟨reads.trans h.1, h.2⟩

theorem Passes.iterate {body : α → Parser (Round α β)} {a : α} (round : ∀ a, Passes L (body a)) :
    Passes L (iterate body a) := by
  intro s on
  refine .iterate (I := fun _ s' => Reads L s s') (.refl on) fun a s₁ reads => ?_
  refine (round a s₁ reads.on).mono fun r s₂ later => ?_
  cases r <;> exact reads.trans later

namespace Tidies

theorem passes {p : Parser α} (tidies : Tidies L p) : Passes L p :=
  fun s on => (tidies s on).mono fun _ _ tidy => tidy.reads

/-- Behind a tidy state the rest is tidy, too. -/
theorem after {p : Parser α} (tidies : Tidies L p) (tidy : Tidy L s₀ s) :
    Ensures p s fun _ s' => Tidy L s₀ s' :=
  (tidies s tidy.reads.on).mono fun _ _ later => tidy.trans later

theorem pure (a : α) : Tidies L (pure a) :=
  fun _ on => .pure (.refl on)

theorem discard {p : Parser α} (tidies : Tidies L p) : Tidies L (discard p) :=
  fun s on => (tidies s on).discard fun _ _ tidy => tidy

theorem ite {c : Prop} [Decidable c] {p q : Parser α} (yes : c → Tidies L p)
    (no : ¬ c → Tidies L q) : Tidies L (if c then p else q) :=
  fun s on => .ite (fun h => yes h s on) fun h => no h s on

theorem bind {p : Parser α} {f : α → Parser β} (first : Tidies L p)
    (next : ∀ a, Tidies L (f a)) : Tidies L (p >>= f) := by
  intro s on
  exact (first s on).bind fun a s₁ tidy => (next a).after tidy

/-- A look at the state reads nothing. -/
theorem look {p : Parser α} {f : α → Parser β} {look : ParserState → α}
    (same : ∀ s, p.run s = .ok (look s) s) (next : ∀ a, Tidies L (f a)) : Tidies L (p >>= f) :=
  fun s on => .look (same s) (next _ s on)

theorem iterate {body : α → Parser (Round α β)} {a : α} (round : ∀ a, Tidies L (body a)) :
    Tidies L (iterate body a) := by
  intro s on
  refine .iterate (I := fun _ s' => Tidy L s s') (.refl on) fun a s₁ tidy => ?_
  refine ((round a).after tidy).mono fun r s₂ later => ?_
  cases r <;> exact later

end Tidies

/-- Behind what is demanded everything is settled. -/
theorem Settles.bind {p : Parser α} {f : α → Parser β} (first : Settles L p)
    (next : ∀ a, Tidies L (f a)) : Settles L (p >>= f) := by
  intro s on
  refine (first s on).bind fun a s₁ settled => ?_
  refine (next a s₁ settled.1.on).mono fun _ _ tidy => ?_
  exact ⟨settled.1.trans tidy.reads, tidy.isTidy settled.2⟩

theorem close_tidies (start : Nat) (form : Form Tree) : Tidies L (close start form) :=
  .look (fun _ => rfl) fun _ => .pure _

/-! ## §3. Tokens. -/

theorem acceptOneOf_tidies (ps : List Punct) : Tidies L (acceptOneOf ps) := by
  intro s on
  refine .bind_current ?_
  refine .ite (fun isFound => ?_) fun _ => .pure (.refl on)
  exact .bind_skip (.pure (.skip_one on (Token.isStray_of_isOneOf isFound)))

theorem accept_tidies (p : Punct) : Tidies L (accept p) :=
  acceptOneOf_tidies [p]

/-- **Who complains has settled everything.** -/
theorem complain_settles (c : Complaint) : Settles L (complain c) :=
  fun _ on => (complain_spec on c).mono fun _ _ h => ⟨h.reads, .of_heard h.heard⟩

/-- The same behind tokens that were passed over. -/
theorem complainAt_settled (on : s.On L) {start : Nat} (same : start = s.current.start)
    (c : Complaint) (count : Nat) : Ensures (complainAt start c) (s.skip count) fun _ s' =>
      Reads L s s' ∧ s'.IsTidy L := by
  rw [same, on.start_current]
  refine (complainAt_spec (on.skip count) _ c).mono fun _ _ h => ?_
  exact ⟨(Reads.skip on count).trans h.reads, .of_heard h.heard⟩

/-- **A punctuator that is demanded** is read, or complained of. -/
theorem expect_settles (p : Punct) : Settles L (expect p) := by
  intro s on
  refine (expect_spec on p).mono fun found s' expects => ⟨expects.reads, ?_⟩
  cases found with
  | true =>
      obtain ⟨moved, _, isFound⟩ := expects.yes rfl
      intro _ _
      rw [moved, Nat.add_sub_cancel]
      exact Token.isStray_of_is isFound
  | false =>
      obtain ⟨_, _, c, heard⟩ := expects.no rfl
      exact .of_heard heard

theorem skipAngles_tidies : Tidies L skipAngles := by
  intro s on
  refine .bind_get ?_
  split
  · next width found =>
      exact .bind_skip (.pure (.skip on (Lookahead.angleWidth?_endsTidily found)))
  · exact .pure (.refl on)

theorem skipType_tidies : Tidies L skipType := by
  intro s on
  have endsTidily : EndsTidily (Lookahead.typeWidth true 0 0 s.ahead) s.ahead :=
    Lookahead.typeWidth_endsTidily (.zero s.ahead)
  refine .bind_get ?_
  refine .ite (fun none => ?_) fun _ => .modify (.skip on endsTidily)
  -- Without a type nothing is read but the complaint.
  rw [none]
  exact ((complain_settles _).tidies.bind fun _ s₁ on₁ => .modify (.skip on₁ (.zero _))) s on

theorem skipAnnotation_tidies : Tidies L skipAnnotation :=
  (accept_tidies .colon).bind fun _ => .ite (fun _ => skipType_tidies) fun _ => .pure _

/-! ## §4. Modes. -/

theorem modify_noIn_tidies (noIn : Bool) : Tidies L (modify fun s => { s with noIn := noIn }) := by
  intro s on
  have on' : ParserState.On { s with noIn := noIn } L :=
    ⟨on.ahead, on.final, on.inside, on.total, on.lastStop⟩
  exact .modify ⟨⟨on', Nat.le_refl _, rfl, .refl _⟩, .inl rfl⟩

theorem allowingIn_tidies {p : Parser α} (tidies : Tidies L p) : Tidies L (allowingIn p) :=
  .look (fun _ => rfl) fun _ => (modify_noIn_tidies _).bind fun _ => tidies.bind fun _ =>
    (modify_noIn_tidies _).bind fun _ => .pure _

/-- What is nested too deep is complained of. -/
theorem skipTooDeep_settles : Settles L skipTooDeep := by
  intro s on
  refine .bind_current (.bind_position ?_)
  rw [on.start_current]
  refine (complainAt_spec on _ _).bind ?_
  rintro _ s₁ ⟨reads₁, _, heard⟩
  refine (skipItem_passes _ s₁ reads₁.on).bind fun _ s₂ reads₂ => ?_
  have settled : Reads L s s₂ ∧ s₂.IsTidy L :=
    ⟨reads₁.trans reads₂, .of_heard (reads₂.complains.louder _ heard)⟩
  exact .bind_position (.ite (fun _ => .pure settled) fun _ => .close settled)

theorem nested_tidies {parse : Parser Tree} (tidies : Tidies L parse) : Tidies L (nested parse) := by
  intro s on
  refine .bind_get ?_
  refine .ite (fun _ => skipTooDeep_settles.tidies s on) fun _ => ?_
  -- The depth says nothing about the place on the layout.
  have deeper : ParserState.On { s with depth := s.depth + 1 } L :=
    ⟨on.ahead, on.final, on.inside, on.total, on.lastStop⟩
  refine .bind (P := fun _ s' => s' = { s with depth := s.depth + 1 }) (.modify rfl) ?_
  rintro _ _ rfl
  refine (tidies _ deeper).bind ?_
  rintro tree s₁ ⟨⟨on₁, le, depth, complains⟩, ends⟩
  refine .bind (P := fun _ s' => s' = { s₁ with depth := s₁.depth - 1 }) (.modify rfl) ?_
  rintro _ _ rfl
  refine .pure ⟨⟨⟨on₁.ahead, on₁.final, on₁.inside, on₁.total, on₁.lastStop⟩, le, ?_, complains⟩, ends⟩
  show s₁.depth - 1 = s.depth
  rw [depth]
  exact Nat.add_sub_cancel ..

end Parser

end StackLint
