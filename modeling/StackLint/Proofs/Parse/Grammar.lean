/-
  StackLint.Proofs.Parse.Grammar
  ──────────────────────────────
  **WHAT A GRAMMAR HAS TO ENSURE.**

  A grammar is sound on a layout when its seven parsers lay one tree each.  The
  parsers here and in the modules behind this one are taken with a sound
  grammar; that the grammar of every budget is sound follows in
  `Proofs.Parse.Program`.
-/
import StackLint.Proofs.Parse.Laid
import StackLint.Proofs.Tidy.Grammar

namespace StackLint

/-- **A grammar that lays trees.**  Statements may be the wrong way round, as
only expressions are ever replaced; expressions end tidily. -/
structure Grammar.Sound (g : Grammar) (L : Layout) : Prop where
  statement : Parser.Lays L g.statement ([·])
  assignment : Parser.Builds L g.assignment
  unary : Parser.Builds L g.unary
  binary : ∀ minimum, Parser.Builds L (g.binary minimum)
  primary : Parser.Builds L g.primary
  newExpression : Parser.Takes L g.newExpression
  bindingTarget : Parser.Builds L g.bindingTarget
  tidy : g.Tidies L
  /-- A decorator leaves no trace, but all else that is assigned begins with its first token. -/
  begins : ∀ s, s.On L → Parser.Ensures g.assignment s fun tree _ =>
    s.current.is .atSign = false → tree.info.start = s.current.start

namespace Parser

variable {L : Layout} {g : Grammar} {s : ParserState}

/-! ## §1. Names and literals. -/

/-- A tree that begins with the next token. -/
structure TakesHere (L : Layout) (s : ParserState) (tree : Tree) (s' : ParserState) : Prop
    extends Taken L s s' tree where
  start : tree.info.start = L.startAt s.position

/-- A leaf begins with its token. -/
theorem TakesHere.leaf {form : Form Tree} (on : s.On L) (more : s.position < L.size)
    (parts : form.written = [])
    (details : form.Details L (Heard (s.skip 1).complaints) s.position (s.skip 1).position) :
    TakesHere L s (Parser.leaf s.current form) (s.skip 1) :=
  ⟨.leaf on more parts details, on.start_current⟩

/-- A word says its name. -/
theorem lexeme_of_isWord (on : s.On L) (isWord : s.current.isWord = true) :
    (L.token s.position).lexeme = .word s.current.lexeme.value := by
  rw [← on.current]
  unfold Token.isWord at isWord
  split at isWord
  · next name same =>
      rw [same]
      rfl
  · cases isWord

theorem identifier_spec (on : s.On L) (isWord : s.current.isWord = true) :
    Ensures identifier s (TakesHere L s) := by
  refine .bind_advance (.pure ?_)
  exact .leaf on (lt_size_of_isWord on isWord) rfl (.inr (.inr (lexeme_of_isWord on isWord)))

theorem stringLiteral_spec (on : s.On L) {quote : Quote} {value : Text}
    (same : s.current.lexeme = .string quote value) :
    Ensures (stringLiteral quote value) s (TakesHere L s) := by
  refine .bind_advance (.pure ?_)
  refine .leaf on (lt_size_of_lexeme on (by rw [same]; nofun)) rfl ?_
  rw [on.current] at same
  exact same

theorem numericLiteral_spec (on : s.On L) {raw : Text} (same : s.current.lexeme = .number raw) :
    Ensures numericLiteral s (TakesHere L s) := by
  refine .bind_advance (.pure ?_)
  refine .leaf on (lt_size_of_lexeme on (by rw [same]; nofun)) rfl ?_
  show (L.token s.position).lexeme = .number s.current.lexeme.value
  rw [← on.current, same]
  rfl

theorem propertyName_builds : Builds L propertyName := by
  intro s on
  refine .bind_current ?_
  refine .ite ?_ ?_
  · intro isWord
    exact (identifier_spec on isWord).mono fun _ _ h => h.toBuilt
  · intro _
    refine (complain_spec on _).bind ?_
    rintro _ s₁ ⟨reads, stays, heard⟩
    -- The name without letters is allowed, as there was a complaint.
    rw [on.start_current, ← stays]
    exact .pure (.behind (.placeholder reads.on (.name heard reads.on.inside) rfl (.inl rfl)) reads)

/-- The key of a property takes tokens, from the next one on. -/
structure LaysKey (L : Layout) (s : ParserState) (key : Option Tree) (s' : ParserState) :
    Prop where
  laid : Laid L s s' key.toList
  moved : key.isSome = true → s.position < s'.position
  start : ∀ tree ∈ key, tree.info.start = L.startAt s.position

/-- A key that is there. -/
theorem LaysKey.bind_some {s₀ : ParserState} {p : Parser Tree}
    (h : Ensures p s (TakesHere L s₀)) : Ensures (do return some (← p)) s (LaysKey L s₀) := by
  refine h.bind ?_
  intro key s' taken
  refine .pure ⟨taken.laid, fun _ => taken.moved, ?_⟩
  intro tree isKey
  cases isKey
  exact taken.start

theorem propertyKey_spec (sound : g.Sound L) (on : s.On L) :
    Ensures (propertyKey g) s (LaysKey L s) := by
  refine .bind_current ?_
  split
  · next name same =>
      refine .bind_some (identifier_spec on ?_)
      unfold Token.isWord
      rw [same]
  · next quote value same => exact .bind_some (stringLiteral_spec on same)
  · next raw same => exact .bind_some (numericLiteral_spec on same)
  · -- A computed key is an expression in brackets.
    refine (accept_spec on .openBracket).bind ?_
    rintro found s₁ ⟨reads, yes, no⟩
    refine .ite ?_ ?_
    · intro isFound
      obtain ⟨moved, _⟩ := yes isFound
      refine (Begun.of_reads reads (by omega)).bind_lay sound.assignment.lays ?_
      intro expression s₂ laid
      refine laid.bind_pass (expect_passes _).discard ?_
      intro _ s₃ laid
      rw [on.start_current]
      exact .bind_some (.close ⟨.opened laid.toLaid laid.moved trivial, rfl⟩)
    · intro _
      exact .pure ⟨.nothing reads, (fun never => nomatch never), fun _ never => nomatch never⟩

/-- How a key is read: a name of one token, or an expression in brackets. -/
structure ReadsKey (s : ParserState) (key : Option Tree) (s' : ParserState) : Prop where
  single : ∀ tree ∈ key, tree.keyName?.isSome = true → s' = s.skip 1
  word : key.isSome = true → s.current.isWord = true → s' = s.skip 1
  noParen : key.isSome = true → s.current.is .openParen = false ∧ s.current.is .closeParen = false

theorem propertyKey_reads (g : Grammar) (on : s.On L) : Ensures (propertyKey g) s (ReadsKey s) := by
  have leaf {p : Parser Tree} (reads : Ensures p s fun _ s' => s' = s.skip 1)
      (noParen : s.current.is .openParen = false ∧ s.current.is .closeParen = false) :
      Ensures (do return some (← p)) s (ReadsKey s) :=
    reads.bind fun _ _ same => .pure ⟨fun _ _ _ => same, fun _ _ => same, fun _ => noParen⟩
  refine .bind_current ?_
  split
  · next name same => exact leaf (.bind_advance (.pure rfl)) (by unfold Token.is; rw [same]; exact ⟨rfl, rfl⟩)
  · next quote value same =>
      exact leaf (.bind_advance (.pure rfl)) (by unfold Token.is; rw [same]; exact ⟨rfl, rfl⟩)
  · next raw same => exact leaf (.bind_advance (.pure rfl)) (by unfold Token.is; rw [same]; exact ⟨rfl, rfl⟩)
  · refine (accept_spec on .openBracket).bind fun found s₁ accepts => .ite (fun isFound => ?_) fun _ => ?_
    · have isBracket := (accepts.yes isFound).2.2
      rw [← on.current] at isBracket
      refine .behind fun expression s₂ => .behind fun _ s₃ => ?_
      refine .bind (P := fun tree _ => tree.keyName? = none) (.close rfl) fun tree s₄ unnamed => .pure ?_
      refine ⟨fun _ same named => ?_, fun _ isWord => ?_, fun _ => ⟨?_, ?_⟩⟩
      · rw [← Option.some.inj same, unnamed] at named
        cases named
      · rw [not_is_of_isWord isWord] at isBracket
        cases isBracket
      · exact not_is_of_is isBracket nofun
      · exact not_is_of_is isBracket nofun
    · exact .pure ⟨nofun, nofun, nofun⟩

/-- Only a modifier is read in front of a key. -/
theorem memberModifiers_spec (on : s.On L) :
    Ensures memberModifiers s fun _ s' => Reads L s s'
      ∧ (s'.position = s.position ∨ (L.token s.position).isModifier = true) := by
  refine .bind_current ?_
  refine .bind_peek ?_
  refine .ite ?_ ?_
  · intro modifies
    have isModifier : (L.token s.position).isModifier = true := by
      rw [← on.current]
      refine Decidable.byContradiction fun none => modifies ?_
      unfold Token.isModifier at none
      simp only [Bool.or_eq_true, not_or] at none
      obtain ⟨⟨⟨notGet, notSet⟩, notAsync⟩, _⟩ := none
      rw [if_neg notGet, if_neg notSet, if_neg notAsync, ite_self]
    refine .bind_skip ?_
    refine ((accept_passes .star).discard _ (on.skip 1)).bind ?_
    intro _ s₁ reads
    exact .pure ⟨(Reads.skip on 1).trans reads, .inr isModifier⟩
  · intro _
    refine .bind (P := fun _ s' => ∃ found, Accepts L s (·.is .star) found s')
      ((accept_spec on .star).discard fun found _ h => ⟨found, h⟩) ?_
    rintro _ s₁ ⟨found, accepts⟩
    refine .pure ⟨accepts.reads, ?_⟩
    cases found with
    | true =>
        obtain ⟨_, _, isStar⟩ := accepts.yes rfl
        right
        unfold Token.isModifier
        rw [isStar, Bool.or_true]
    | false =>
        left
        rw [(accepts.no rfl).1]

theorem memberModifiers_passes : Passes L memberModifiers :=
  fun _ on => (memberModifiers_spec on).mono fun _ _ h => h.1

/-! ## §2. Lists. -/

/-- What is known behind a list of items, when `R` holds of every item that takes a token
and of the state behind it. -/
structure LaysItems (L : Layout) (s : ParserState) (R : ParserState → Tree → Prop)
    (items : List Tree) (s' : ParserState) : Prop where
  laid : Laid L s s' items
  none : items = [] → s'.position = s.position
  /-- At most a comma stands behind the last item. -/
  last : ∀ item, items.getLast? = some item → ∃ s₁, s.position < s₁.position ∧ R s₁ item
    ∧ Reads L s₁ s' ∧ L.AtMost .comma s₁.position s'.position

/-- **A list of items.** -/
theorem listOf_spec {R : ParserState → Tree → Prop} {item : Parser Tree} (closer : Punct)
    (each : ∀ s, s.On L → Ensures item s fun tree s' =>
      Laid L s s' [tree] ∧ (s'.position ≠ s.position → R s' tree))
    (on : s.On L) : Ensures (listOf closer item) s (LaysItems L s R) := by
  refine .iterate (I := fun items s' => LaysItems L s R items.reverse s') ?_ ?_
  · exact ⟨.nothing (.refl on), fun _ => rfl, fun _ never => nomatch never⟩
  intro items s₁ laysItems
  refine .bind_current ?_
  refine .ite (fun _ => .pure laysItems) fun _ => ?_
  refine .bind_position ?_
  refine (each s₁ laysItems.laid.reads.on).bind ?_
  rintro node s₂ ⟨laid, holds⟩
  refine .bind_position ?_
  refine .ite ?_ ?_
  · -- The item took no token, so the list ends where it did.
    intro same
    refine .pure ⟨laysItems.laid.pass laid.reads, ?_, ?_⟩
    · rw [same]
      exact laysItems.none
    · intro last isLast
      obtain ⟨s₀, behind, holds, reads, place⟩ := laysItems.last last isLast
      rw [same]
      exact ⟨s₀, behind, holds, reads.trans laid.reads, place⟩
  · intro moved
    have le := laid.reads.le
    have before := laysItems.laid.reads.le
    have all := laysItems.laid.snoc laid
    -- Behind the item a comma is read, or nothing.
    have goesOn : ∀ s₃, Reads L s₂ s₃ → L.AtMost .comma s₂.position s₃.position →
        LaysItems L s R (node :: items).reverse s₃ := by
      intro s₃ reads place
      refine ⟨all.pass reads, ?_, ?_⟩
      · intro never
        exact absurd (List.reverse_eq_nil_iff.mp never) (List.cons_ne_nil _ _)
      intro last isLast
      rw [List.getLast?_reverse, List.head?_cons, Option.some.injEq] at isLast
      subst isLast
      exact ⟨s₂, by omega, holds moved, reads, place⟩
    refine (accept_spec laid.reads.on .comma).bind ?_
    rintro found s₃ ⟨reads, yes, no⟩
    refine .ite ?_ ?_
    · intro isFound
      obtain ⟨one, _, isComma⟩ := yes isFound
      exact .pure (goesOn s₃ reads (.inr ⟨one, isComma⟩))
    · intro notFound
      obtain ⟨rfl, _⟩ := no (Bool.eq_false_iff.mpr notFound)
      refine .bind_current ?_
      refine .ite (fun _ => .pure (goesOn _ reads (.inl rfl))) fun _ => ?_
      refine (complain_spec reads.on _).bind ?_
      rintro _ s₄ ⟨reads₄, stays, _⟩
      exact .pure (goesOn s₄ reads₄ (.inl stays))

theorem element_builds (sound : g.Sound L) : Builds L (element g) := by
  intro s on
  refine .bind_current ?_
  refine (accept_spec on .ellipsis).bind ?_
  rintro found s₁ ⟨reads, yes, no⟩
  refine .ite ?_ ?_
  · intro isFound
    obtain ⟨moved, _⟩ := yes isFound
    refine (Begun.of_reads reads (by omega)).bind_lay sound.assignment.lays ?_
    intro argument s₂ laid
    rw [on.start_current]
    exact .mono (laid.close trivial) fun _ _ h => h.toBuilt
  · intro notFound
    obtain ⟨rfl, _⟩ := no (Bool.eq_false_iff.mpr notFound)
    exact sound.assignment s₁ on

/-- What is known behind arguments, where a parenthesis opens their list. -/
structure LaysArguments (L : Layout) (s : ParserState) (arguments : List Tree)
    (s' : ParserState) : Prop where
  laid : Laid L s s' arguments
  moved : s.position < s'.position
  /-- Without arguments a parenthesis is the last token. -/
  none : arguments = [] → ∃ k, s'.position = k + 1
    ∧ ((L.token k).is .openParen = true ∨ (L.token k).is .closeParen = true)

theorem arguments_spec (sound : g.Sound L) (on : s.On L)
    (opens : s.current.is .openParen = true) :
    Ensures (arguments g) s (LaysArguments L s) := by
  rw [on.current] at opens
  -- The parenthesis that opens the list is there.
  refine .bind (P := fun _ s' => Reads L s s' ∧ s'.position = s.position + 1) ?_ ?_
  · refine (expect_spec on _).discard ?_
    rintro found s₁ ⟨reads, yes, no⟩
    cases found with
    | true => exact ⟨reads, (yes rfl).1⟩
    | false =>
        rw [(no rfl).2.1] at opens
        cases opens
  rintro _ s₁ ⟨reads, moved⟩
  refine .bind (listOf_spec (R := fun _ _ => True) .closeParen (fun s on =>
    (element_builds sound s on).mono fun _ _ built => ⟨built.laid, fun _ => trivial⟩) reads.on) ?_
  rintro items s₂ ⟨laid, none, _⟩
  have le := laid.reads.le
  refine .bind (P := fun _ s' => Reads L s₂ s' ∧ L.AtMost .closeParen s₂.position s'.position)
    ((expect_spec laid.reads.on _).discard fun _ _ h => ⟨h.reads, h.atMost⟩) ?_
  rintro _ s₃ ⟨reads₃, closes⟩
  have le₃ := reads₃.le
  refine .pure ⟨(laid.pass reads₃).behind reads, by omega, ?_⟩
  -- Of an empty list the last token is the one that closes it, or else opens it.
  intro empty
  have same := none empty
  rcases closes with stays | ⟨one, isClosed⟩
  · exact ⟨s.position, by omega, .inl opens⟩
  · exact ⟨s₂.position, one, .inr isClosed⟩

/-! ## §3. Expressions with commas. -/

theorem expression_builds (sound : g.Sound L) : Builds L (expression g) := by
  intro s on
  refine (sound.assignment s on).bind ?_
  intro first s₁ built
  refine .iterate (I := fun left s' => Built L s s' left) built ?_
  intro left s₂ left_built
  refine (accept_spec left_built.laid.reads.on .comma).bind ?_
  rintro found s₃ ⟨reads, yes, _⟩
  refine .ite ?_ ?_
  · intro isFound
    obtain ⟨moved, _⟩ := yes isFound
    refine (Begun.of_reads reads (by omega)).bind_lay sound.assignment.lays ?_
    intro right s₄ rest
    refine .bind (rest.close_extended left_built.laid rfl fun _ _ => trivial) ?_
    intro node s₅ taken
    exact .pure taken.toBuilt
  · intro _
    exact .pure (left_built.pass reads)

/-! ## §4. Blocks. -/

theorem statements_lays (sound : g.Sound L) (closer : Option Punct) (stopWords : List Text) :
    Lays L (statements g closer stopWords) id := by
  intro s on
  refine .iterate (I := fun read s' => Laid L s s' read.reverse) (.nothing (.refl on)) ?_
  intro read s₁ laid
  refine .bind_current ?_
  refine .ite (fun _ => .pure laid) fun more => ?_
  refine .bind_position ?_
  refine (sound.statement s₁ laid.reads.on).bind ?_
  intro statement s₂ next
  refine .bind_position ?_
  refine .ite ?_ ?_
  · -- No statement begins here: the token itself is passed over.
    intro same
    have on₁ := laid.reads.on
    have on₂ := next.reads.on
    have more : s₂.position < L.size := by
      rw [same]
      refine on₁.lt_size ?_
      rw [Bool.or_eq_true, Bool.or_eq_true, not_or, not_or] at more
      exact Bool.eq_false_iff.mpr more.1.1
    refine .bind_advance ?_
    rw [on₂.start_current]
    refine (complainAt_spec (on₂.skip 1) _ _).bind ?_
    intro _ s₃ complained
    exact .pure (laid.snoc ((Taken.stray on₂ more complained).behind next.reads).laid)
  · intro _
    exact .pure (laid.snoc next)

theorem block_builds (sound : g.Sound L) : Builds L (block g) := by
  intro s on
  refine .bind_current ?_
  refine (expect_spec on .openBrace).bind ?_
  rintro found s₁ ⟨reads, yes, no⟩
  rw [on.start_current]
  refine .ite ?_ ?_
  · intro isFound
    obtain ⟨moved, _⟩ := yes isFound
    refine (Begun.of_reads reads (by omega)).bind_lay (statements_lays sound _ _) ?_
    intro statements s₂ laid
    refine laid.bind_pass (expect_passes _).discard ?_
    intro _ s₃ laid
    exact .mono (laid.close trivial) fun _ _ h => h.toBuilt
  · intro notFound
    -- A block that is missing has no statements and no tokens.
    obtain ⟨stays, _, _, heard⟩ := no (Bool.eq_false_iff.mpr notFound)
    rw [← stays]
    exact .pure (.behind (.placeholder reads.on (.block heard reads.on.inside) rfl trivial) reads)

theorem optionalBlock_lays (sound : g.Sound L) : Lays L (optionalBlock g) Option.toList := by
  intro s on
  refine .bind_current ?_
  refine .ite ?_ ?_
  · intro _
    refine (block_builds sound s on).bind ?_
    intro node s₁ built
    exact .pure built.laid
  · intro _
    exact .pure (.nothing (.refl on))

/-- A value stands behind the sign that assigns it. -/
theorem initializer_begins (sound : g.Sound L) (on : s.On L) :
    Ensures (initializer g) s fun init _ => ∀ value, init = some value →
      (L.token (s.position + 1)).is .atSign = false →
        value.info.start = L.startAt (s.position + 1) := by
  refine (accept_spec on .assign).bind ?_
  rintro found s₁ ⟨reads, yes, _⟩
  refine .ite ?_ fun _ => .pure nofun
  intro isFound
  obtain ⟨place, _⟩ := yes isFound
  refine (sound.begins s₁ reads.on).bind ?_
  intro value s₂ begins
  refine .pure ?_
  rintro _ ⟨⟩ plain
  rw [reads.on.start_current, reads.on.current, place] at begins
  exact begins plain

theorem initializer_lays (sound : g.Sound L) : Lays L (initializer g) Option.toList := by
  intro s on
  refine (accept_spec on .assign).bind ?_
  rintro found s₁ ⟨reads, _, _⟩
  refine .ite ?_ ?_
  · intro _
    refine (sound.assignment s₁ reads.on).bind ?_
    intro value s₂ built
    exact .pure (built.behind reads).laid
  · intro _
    exact .pure (.nothing reads)

end Parser

end StackLint
