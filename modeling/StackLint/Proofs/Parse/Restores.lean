/-
  StackLint.Proofs.Parse.Restores
  ───────────────────────────────
  **THE MODE OF THE PARSER.**

  A parser counts the constructs that are open, and remembers where the word `in` is no
  operator.  What it opens it closes again, and behind a bracket or a branch `in` is what it
  was in front of it.  There is one exception: behind the head of a `for` loop `in` is an
  operator, even if it was none in front of the loop.

  `Restored s s'` compares two states, and `Restores p` says that every run of `p` leaves the
  mode as it was.  One rule for each way to build a parser carries this from the parts of a
  construct to the whole.
-/
import StackLint.Proofs.Termination.Program

namespace StackLint

/-! ## §1. States. -/

namespace ParserState

/-- The second state lies behind the first one, with as many constructs open, and `in` is
no operator only if it was none before. -/
structure Follows (s s' : ParserState) : Prop where
  ahead : s'.ahead <:+ s.ahead
  final : s'.final = s.final
  depth : s'.depth = s.depth
  noIn : s'.noIn = true → s.noIn = true

/-- Between the two states a `for` was read. -/
def LoopBetween (s s' : ParserState) : Prop :=
  ∃ read, s.ahead = read ++ s'.ahead ∧ ∃ t ∈ read, t.isTheWord "for" = true

/-- **The second state has the mode of the first one,** unless a loop was read on the way. -/
structure Restored (s s' : ParserState) : Prop where
  follows : s.Follows s'
  noIn : s'.noIn = s.noIn ∨ s.LoopBetween s'

variable {s s' s'' : ParserState}

theorem Follows.refl (s : ParserState) : s.Follows s :=
  ⟨List.suffix_refl _, rfl, rfl, id⟩

theorem Follows.trans (first : s.Follows s') (second : s'.Follows s'') : s.Follows s'' where
  ahead := second.ahead.trans first.ahead
  final := second.final.trans first.final
  depth := second.depth.trans first.depth
  noIn := first.noIn ∘ second.noIn

/-- A loop is still behind the parser when it has gone on. -/
theorem LoopBetween.goesOn (loop : s.LoopBetween s') (follows : s'.Follows s'') :
    s.LoopBetween s'' := by
  obtain ⟨more, split⟩ := follows.ahead
  obtain ⟨read, split', t, inside, isFor⟩ := loop
  refine ⟨read ++ more, ?_, t, List.mem_append_left _ inside, isFor⟩
  rw [split', ← split, List.append_assoc]

theorem LoopBetween.since (loop : s'.LoopBetween s'') (follows : s.Follows s') :
    s.LoopBetween s'' := by
  obtain ⟨more, split⟩ := follows.ahead
  obtain ⟨read, split', t, inside, isFor⟩ := loop
  refine ⟨more ++ read, ?_, t, List.mem_append_right _ inside, isFor⟩
  rw [← split, split', List.append_assoc]

namespace Restored

theorem refl (s : ParserState) : s.Restored s :=
  ⟨.refl s, .inl rfl⟩

theorem trans (first : s.Restored s') (second : s'.Restored s'') : s.Restored s'' := by
  refine ⟨first.follows.trans second.follows, ?_⟩
  rcases second.noIn with same | loop
  · rcases first.noIn with same' | loop
    · exact .inl (same.trans same')
    · exact .inr (loop.goesOn second.follows)
  · exact .inr (loop.since first.follows)

theorem skip (s : ParserState) (count : Nat) : s.Restored (s.skip count) :=
  ⟨⟨List.drop_suffix count s.ahead, rfl, rfl, id⟩, .inl rfl⟩

end Restored

end ParserState

namespace Parser

variable {α β : Type} {s : ParserState}

/-! ## §2. Rules. -/

/-- **Whenever the parser ends normally, the mode is as it was.** -/
def Restores (p : Parser α) : Prop :=
  ∀ s, s.final.isEnd = true → Ensures p s fun _ s' => s.Restored s'

namespace Restores

theorem pure (a : α) : Restores (pure a) :=
  fun s _ => .pure (.refl s)

theorem throw (reason : Halt) : Restores (throw reason : Parser α) :=
  fun _ _ => .throw

theorem bind {p : Parser α} {f : α → Parser β} (first : Restores p)
    (next : ∀ a, Restores (f a)) : Restores (p >>= f) := by
  intro s ended
  refine (first s ended).bind fun a s₁ restored => ?_
  rw [← restored.follows.final] at ended
  exact (next a s₁ ended).mono fun _ _ => restored.trans

theorem map {p : Parser α} (restores : Restores p) (f : α → β) : Restores (f <$> p) := by
  rw [← bind_pure_comp]
  exact restores.bind fun a => .pure (f a)

theorem discard {p : Parser α} (restores : Restores p) : Restores (discard p) :=
  restores.map _

theorem ite {c : Prop} [Decidable c] {p p' : Parser α} (yes : Restores p) (no : Restores p') :
    Restores (if c then p else p') :=
  fun s ended => .ite (fun _ => yes s ended) fun _ => no s ended

/-- A look at the state leaves it as it is. -/
theorem look {p : Parser α} {f : α → Parser β} {look : ParserState → α}
    (same : ∀ s, p.run s = .ok (look s) s) (next : ∀ a, Restores (f a)) : Restores (p >>= f) :=
  fun s ended => .look (same s) (next _ s ended)

/-- **A loop restores what each of its rounds restores.** -/
theorem iterate {body : α → Parser (Round α β)} (round : ∀ a, Restores (body a)) (a : α) :
    Restores (iterate body a) := by
  intro s ended
  refine .iterate (I := fun _ s' => s.Restored s') (.refl s) fun a s₁ restored => ?_
  rw [← restored.follows.final] at ended
  refine (round a s₁ ended).mono fun r s₂ more => ?_
  cases r <;> exact restored.trans more

end Restores

/-! ## §3. Reading tokens. -/

theorem skip_restores (count : Nat) : Restores (skip count) :=
  fun s _ => .modify (.skip s count)

theorem advance_restores : Restores advance :=
  .look (fun _ => rfl) fun _ => (skip_restores 1).bind fun _ => .pure _

theorem complainAt_restores (offset : Nat) (c : Complaint) : Restores (complainAt offset c) :=
  fun _ _ => .modify ⟨⟨List.suffix_refl _, rfl, rfl, id⟩, .inl rfl⟩

theorem complain_restores (c : Complaint) : Restores (complain c) :=
  .look (fun _ => rfl) fun _ => complainAt_restores _ c

theorem acceptOneOf_restores (ps : List Punct) : Restores (acceptOneOf ps) :=
  .look (fun _ => rfl) fun _ => .ite ((skip_restores 1).bind fun _ => .pure _) (.pure _)

theorem accept_restores (p : Punct) : Restores (accept p) :=
  acceptOneOf_restores [p]

theorem acceptWord_restores (word : Text) : Restores (acceptWord word) :=
  .look (fun _ => rfl) fun _ => .ite ((skip_restores 1).bind fun _ => .pure _) (.pure _)

theorem expect_restores (p : Punct) : Restores (expect p) :=
  (accept_restores p).bind fun _ => .ite (.pure _)
    (.look (fun _ => rfl) fun _ => (complain_restores _).bind fun _ => .pure _)

theorem close_restores (start : Nat) (form : Form Tree) : Restores (close start form) :=
  .look (fun _ => rfl) fun _ => .pure _

theorem skipWhile_restores (p : Token → Token → Bool) : Restores (skipWhile p) :=
  .iterate (fun _ => .look (fun _ => rfl) fun _ =>
    .ite (.pure _) ((skip_restores 1).bind fun _ => .pure _)) ()

theorem skipGroup_restores : Restores skipGroup :=
  .look (fun _ => rfl) fun _ => skip_restores _

theorem skipItem_restores (t : Token) : Restores (skipItem t) :=
  .ite skipGroup_restores (.ite (.pure _) (skip_restores 1))

theorem skipTooDeep_restores : Restores skipTooDeep :=
  .look (fun _ => rfl) fun _ => .look (fun _ => rfl) fun _ =>
    (complainAt_restores _ _).bind fun _ => (skipItem_restores _).bind fun _ =>
      .look (fun _ => rfl) fun _ => .ite (.pure _) (close_restores _ _)

theorem skipAngles_restores : Restores skipAngles := by
  refine .look (fun _ => rfl) fun _ => ?_
  split
  · exact (skip_restores _).bind fun _ => .pure _
  · exact .pure _

theorem skipTypeParameters_restores : Restores skipTypeParameters :=
  .look (fun _ => rfl) fun _ => .ite skipAngles_restores.discard (.pure _)

theorem skipType_restores : Restores skipType :=
  .look (fun _ => rfl) fun _ =>
    .ite ((complain_restores _).bind fun _ => skip_restores _) (skip_restores _)

theorem skipAnnotation_restores : Restores skipAnnotation :=
  (accept_restores .colon).bind fun _ => .ite skipType_restores (.pure _)

theorem skipHeading_restores (stops : List Punct) : Restores (skipHeading stops) := by
  have one : Restores (do skip 1; return (.again () : Round Unit Unit)) :=
    (skip_restores 1).bind fun _ => .pure _
  refine .iterate (fun _ => .look (fun _ => rfl) fun _ => .ite (.pure _) (.ite ?_ one)) ()
  exact skipAngles_restores.bind fun _ => .ite (.pure _) one

/-! ## §4. Changing the mode. -/

/-- **One level deeper** the level is given back. -/
theorem nested_restores {parse : Parser Tree} (restores : Restores parse) :
    Restores (nested parse) := by
  intro s ended
  refine .bind_get (.ite (fun _ => skipTooDeep_restores s ended) fun _ => ?_)
  refine .bind (P := fun _ s₁ => s₁ = { s with depth := s.depth + 1 }) (.modify rfl) ?_
  rintro _ _ rfl
  refine (restores { s with depth := s.depth + 1 } ended).bind
    fun tree s₂ ⟨⟨ahead, final, depth, never⟩, noIn⟩ => ?_
  refine .bind (P := fun _ s₃ => s.Restored s₃) (.modify ⟨⟨ahead, final, ?_, never⟩, noIn⟩) ?_
  · show s₂.depth - 1 = s.depth
    rw [depth]
    exact Nat.add_sub_cancel ..
  · exact fun _ s₃ restored => .pure restored

/-- **Where `in` is an operator for a while** it is afterwards what it was before. -/
theorem allowingIn_restores {parse : Parser α} (restores : Restores parse) :
    Restores (allowingIn parse) := by
  intro s ended
  refine .bind_get ?_
  refine .bind (P := fun _ s₁ => s₁ = { s with noIn := false }) (.modify rfl) ?_
  rintro _ _ rfl
  refine (restores { s with noIn := false } ended).bind
    fun a s₂ ⟨⟨ahead, final, depth, _⟩, _⟩ => ?_
  refine .bind (P := fun _ s₃ => s.Restored s₃) (.modify ⟨⟨ahead, final, depth, id⟩, .inl rfl⟩) ?_
  exact fun _ s₃ restored => .pure restored

end Parser

/-! ## §5. Names, lists and blocks. -/

/-- All parsers of the grammar leave the mode as it was. -/
structure Grammar.Restores (g : Grammar) : Prop where
  statement : Parser.Restores g.statement
  assignment : Parser.Restores g.assignment
  unary : Parser.Restores g.unary
  binary : ∀ minimum, Parser.Restores (g.binary minimum)
  primary : Parser.Restores g.primary
  newExpression : Parser.Restores g.newExpression
  bindingTarget : Parser.Restores g.bindingTarget

namespace Parser

variable {g : Grammar} {s : ParserState}

theorem identifier_restores : Restores identifier :=
  advance_restores.bind fun _ => .pure _

theorem stringLiteral_restores (quote : Quote) (value : Text) :
    Restores (stringLiteral quote value) :=
  advance_restores.bind fun _ => .pure _

theorem numericLiteral_restores : Restores numericLiteral :=
  advance_restores.bind fun _ => .pure _

theorem propertyName_restores : Restores propertyName :=
  .look (fun _ => rfl) fun _ =>
    .ite identifier_restores ((complain_restores _).bind fun _ => .pure _)

theorem propertyKey_restores (sound : g.Restores) : Restores (propertyKey g) := by
  refine .look (fun _ => rfl) fun t => ?_
  split
  · exact identifier_restores.bind fun _ => .pure _
  · exact (stringLiteral_restores _ _).bind fun _ => .pure _
  · exact numericLiteral_restores.bind fun _ => .pure _
  · refine (accept_restores _).bind fun _ => .ite (sound.assignment.bind fun _ => ?_) (.pure _)
    exact (expect_restores _).discard.bind fun _ => (close_restores _ _).bind fun _ => .pure _

theorem memberModifiers_restores : Restores memberModifiers :=
  .look (fun _ => rfl) fun _ => .look (fun _ => rfl) fun _ =>
    .ite ((skip_restores 1).bind fun _ => (accept_restores _).discard.bind fun _ => .pure _)
      ((accept_restores _).discard.bind fun _ => .pure _)

theorem listOf_restores {item : Parser Tree} (closer : Punct) (restores : Restores item) :
    Restores (listOf closer item) := by
  refine .iterate (fun items => .look (fun _ => rfl) fun _ => .ite (.pure _) ?_) _
  refine .look (fun _ => rfl) fun _ => restores.bind fun _ => .look (fun _ => rfl) fun _ => ?_
  refine .ite (.pure _) ((accept_restores _).bind fun _ => .ite (.pure _) ?_)
  exact .look (fun _ => rfl) fun _ => .ite (.pure _) ((complain_restores _).bind fun _ => .pure _)

theorem element_restores (sound : g.Restores) : Restores (element g) :=
  .look (fun _ => rfl) fun _ => (accept_restores _).bind fun _ =>
    .ite (sound.assignment.bind fun _ => close_restores _ _) sound.assignment

theorem arguments_restores (sound : g.Restores) : Restores (arguments g) :=
  (expect_restores _).discard.bind fun _ =>
    (listOf_restores _ (element_restores sound)).bind fun _ =>
      (expect_restores _).discard.bind fun _ => .pure _

theorem expression_restores (sound : g.Restores) : Restores (expression g) := by
  refine sound.assignment.bind fun first => .iterate (fun left => ?_) _
  refine (accept_restores _).bind fun _ => .ite (sound.assignment.bind fun _ => ?_) (.pure _)
  exact (close_restores _ _).bind fun _ => .pure _

theorem statements_restores (sound : g.Restores) (closer : Option Punct) (stopWords : List Text) :
    Restores (statements g closer stopWords) := by
  refine .iterate (fun read => .look (fun _ => rfl) fun _ => .ite (.pure _) ?_) _
  refine .look (fun _ => rfl) fun _ => sound.statement.bind fun _ => .look (fun _ => rfl) fun _ => ?_
  refine .ite (advance_restores.bind fun _ => ?_) (.pure _)
  exact (complainAt_restores _ _).bind fun _ => .pure _

theorem block_restores (sound : g.Restores) : Restores (block g) :=
  .look (fun _ => rfl) fun _ => (expect_restores _).bind fun _ =>
    .ite ((statements_restores sound _ _).bind fun _ =>
      (expect_restores _).discard.bind fun _ => close_restores _ _) (.pure _)

theorem optionalBlock_restores (sound : g.Restores) : Restores (optionalBlock g) :=
  .look (fun _ => rfl) fun _ => .ite ((block_restores sound).bind fun _ => .pure _) (.pure _)

theorem initializer_restores (sound : g.Restores) : Restores (initializer g) :=
  (accept_restores _).bind fun _ => .ite (sound.assignment.bind fun _ => .pure _) (.pure _)

/-! ## §6. Templates and chains. -/

theorem endSubstitution_restores : Restores endSubstitution :=
  .look (fun _ => rfl) fun _ =>
    .ite (.pure _) ((complain_restores _).bind fun _ => skipWhile_restores _)

theorem templateSpans_restores (sound : g.Restores) : Restores (templateSpans g) := by
  refine .iterate (fun spans => (expression_restores sound).bind fun _ => ?_) _
  refine endSubstitution_restores.bind fun _ => .look (fun _ => rfl) fun _ => .ite ?_ ?_
  · exact .look (fun _ => rfl) fun _ => .pure _
  refine advance_restores.bind fun part => ?_
  split
  · exact .pure _
  · exact .pure _

theorem template_restores (sound : g.Restores) : Restores (template g) := by
  refine advance_restores.bind fun first => ?_
  split
  · exact (templateSpans_restores sound).bind fun _ => close_restores _ _
  · exact .pure _

theorem optionalLink_restores (sound : g.Restores) (expr : Tree) :
    Restores (optionalLink g expr) := by
  refine (skip_restores 1).bind fun _ => .look (fun _ => rfl) fun _ => .ite ?_ ?_
  · exact (arguments_restores sound).bind fun _ => close_restores _ _
  refine (accept_restores _).bind fun _ => .ite ?_ ?_
  · exact (expression_restores sound).bind fun _ => (expect_restores _).discard.bind fun _ =>
      close_restores _ _
  · exact propertyName_restores.bind fun _ => close_restores _ _

theorem chain_restores (sound : g.Restores) (allowCalls : Bool) (operand : Tree) :
    Restores (chain g allowCalls operand) := by
  refine .iterate (fun expr => .look (fun _ => rfl) fun t => ?_) _
  -- The links in the order in which they are told apart.
  refine .ite ?_ (.ite ?_ (.ite ?_ (.ite ?_ (.ite ?_ (.ite ?_ (.ite ?_ (.pure _)))))))
  · exact (skip_restores 1).bind fun _ => propertyName_restores.bind fun _ =>
      (close_restores _ _).bind fun _ => .pure _
  · exact (optionalLink_restores sound expr).bind fun _ => .pure _
  · exact (skip_restores 1).bind fun _ => (expression_restores sound).bind fun _ =>
      (expect_restores _).discard.bind fun _ => (close_restores _ _).bind fun _ => .pure _
  · exact (arguments_restores sound).bind fun _ => (close_restores _ _).bind fun _ => .pure _
  · exact (template_restores sound).bind fun _ => .pure _
  · exact (skip_restores 1).bind fun _ => .pure _
  · refine .look (fun _ => rfl) fun s => ?_
    split
    · exact .pure _
    · refine .look (fun _ => rfl) fun _ => ?_
      exact .ite ((skip_restores _).bind fun _ => .pure _) (.pure _)

theorem skipDecorators_restores (sound : g.Restores) : Restores (skipDecorators g) := by
  refine .iterate (fun _ => (accept_restores _).bind fun _ => .ite ?_ (.pure _)) _
  exact sound.primary.bind fun _ => (chain_restores sound true _).discard.bind fun _ => .pure _

/-! ## §7. Functions. -/

theorem parameter_restores (sound : g.Restores) : Restores (parameter g) := by
  refine (skipDecorators_restores sound).bind fun _ => (skipWhile_restores _).bind fun _ => ?_
  refine .look (fun _ => rfl) fun _ => (accept_restores _).bind fun _ => ?_
  refine sound.bindingTarget.bind fun _ => (accept_restores _).discard.bind fun _ => ?_
  exact skipAnnotation_restores.bind fun _ => (initializer_restores sound).bind fun _ =>
    close_restores _ _

theorem parameters_restores (sound : g.Restores) : Restores (parameters g) := by
  refine .look (fun _ => rfl) fun _ => (expect_restores _).bind fun _ => .ite ?_ (.pure _)
  refine .bind (.iterate (fun params => ?_) _) fun _ => ?_
  · refine .look (fun _ => rfl) fun _ => .ite (.pure _) ((parameter_restores sound).bind fun _ => ?_)
    exact (accept_restores _).bind fun _ => .ite (.pure _) (.pure _)
  · exact (expect_restores _).discard.bind fun _ => .look (fun _ => rfl) fun _ => .pure _

theorem optionalName_restores : Restores optionalName :=
  .look (fun _ => rfl) fun _ => .ite (identifier_restores.bind fun _ => .pure _) (.pure _)

theorem function_restores (sound : g.Restores) (declaration : Bool) :
    Restores (function g declaration) := by
  refine .look (fun _ => rfl) fun _ => (acceptWord_restores _).bind fun _ => ?_
  refine (skip_restores 1).bind fun _ => (accept_restores _).discard.bind fun _ => ?_
  refine optionalName_restores.bind fun _ => skipTypeParameters_restores.bind fun _ => ?_
  refine (parameters_restores sound).bind fun _ => skipAnnotation_restores.bind fun _ => ?_
  refine (optionalBlock_restores sound).bind fun _ => ?_
  exact .ite ((accept_restores _).discard.bind fun _ => close_restores _ _) (close_restores _ _)

theorem arrowParameters_restores (sound : g.Restores) : Restores (arrowParameters g) :=
  .look (fun _ => rfl) fun _ => .ite (identifier_restores.bind fun _ => .pure _)
    (skipTypeParameters_restores.bind fun _ => (parameters_restores sound).bind fun _ =>
      skipAnnotation_restores.bind fun _ => .pure _)

theorem arrowBody_restores (sound : g.Restores) : Restores (arrowBody g) :=
  .look (fun _ => rfl) fun _ => .ite (block_restores sound) sound.assignment

theorem arrowFunction_restores (sound : g.Restores) : Restores (arrowFunction g) := by
  refine .look (fun _ => rfl) fun _ => .look (fun _ => rfl) fun _ => .look (fun _ => rfl) fun _ => ?_
  refine .ite ((skip_restores 1).bind fun _ => ?_) ?_
  all_goals
    exact (arrowParameters_restores sound).bind fun _ => (expect_restores _).discard.bind fun _ =>
      (arrowBody_restores sound).bind fun _ => close_restores _ _

theorem methodRest_restores (sound : g.Restores) (start : Nat) (key : Tree) (accessor : Accessor)
    (isAsync : Bool) : Restores (methodRest g start key accessor isAsync) :=
  skipTypeParameters_restores.bind fun _ => (parameters_restores sound).bind fun _ =>
    skipAnnotation_restores.bind fun _ => (optionalBlock_restores sound).bind fun _ =>
      close_restores _ _

/-! ## §8. Arrays, objects and classes. -/

theorem arrayLiteral_restores (sound : g.Restores) : Restores (arrayLiteral g) := by
  refine advance_restores.bind fun _ => .bind (.iterate (fun elements => ?_) _) fun _ =>
    (expect_restores _).discard.bind fun _ => close_restores _ _
  refine .look (fun _ => rfl) fun _ => .ite (.pure _) ?_
  refine (accept_restores _).bind fun _ => .ite (.pure _) (.look (fun _ => rfl) fun _ => ?_)
  refine (element_restores sound).bind fun _ => .look (fun _ => rfl) fun _ => .ite (.pure _) ?_
  refine (accept_restores _).bind fun _ => .ite (.pure _) (.look (fun _ => rfl) fun _ => ?_)
  exact .ite (.pure _) ((complain_restores _).bind fun _ => .pure _)

theorem objectMemberRest_restores (sound : g.Restores) (start : Nat) (key : Tree) (isAsync : Bool)
    (accessor : Accessor) : Restores (objectMemberRest g start key isAsync accessor) := by
  refine (accept_restores _).discard.bind fun _ => .look (fun _ => rfl) fun _ => ?_
  refine .ite (methodRest_restores sound _ _ _ _) ((accept_restores _).bind fun _ => .ite ?_ ?_)
  · exact sound.assignment.bind fun _ => close_restores _ _
  · split
    · exact (initializer_restores sound).bind fun _ => close_restores _ _
    · exact (complain_restores _).bind fun _ => close_restores _ _

theorem objectMember_restores (sound : g.Restores) : Restores (objectMember g) := by
  refine .look (fun _ => rfl) fun _ => (accept_restores _).bind fun _ => .ite ?_ ?_
  · exact sound.assignment.bind fun _ => close_restores _ _
  · refine memberModifiers_restores.bind fun _ => (propertyKey_restores sound).bind fun key => ?_
    cases key with
    | some key => exact objectMemberRest_restores sound _ _ _ _
    | none => exact (complain_restores _).bind fun _ => close_restores _ _

theorem objectLiteral_restores (sound : g.Restores) : Restores (objectLiteral g) :=
  advance_restores.bind fun _ => (listOf_restores _ (objectMember_restores sound)).bind fun _ =>
    (expect_restores _).discard.bind fun _ => close_restores _ _

theorem bindingTarget_restores (sound : g.Restores) : Restores (bindingTarget g) :=
  .look (fun _ => rfl) fun _ => .ite (objectLiteral_restores sound)
    (.ite (arrayLiteral_restores sound)
      (.ite identifier_restores ((complain_restores _).bind fun _ => .pure _)))

theorem classMemberRest_restores (sound : g.Restores) (start : Nat) (key : Tree) (isAsync : Bool)
    (accessor : Accessor) : Restores (classMemberRest g start key isAsync accessor) :=
  (acceptOneOf_restores _).discard.bind fun _ => .look (fun _ => rfl) fun _ =>
    .ite (methodRest_restores sound _ _ _ _) (skipAnnotation_restores.bind fun _ =>
      (initializer_restores sound).bind fun _ => (accept_restores _).discard.bind fun _ =>
        close_restores _ _)

theorem classMember_restores (sound : g.Restores) : Restores (classMember g) := by
  refine (accept_restores _).bind fun _ => .ite (.pure _) ?_
  refine (skipDecorators_restores sound).bind fun _ => .look (fun _ => rfl) fun _ => ?_
  refine .look (fun _ => rfl) fun _ => .look (fun _ => rfl) fun _ => .ite ?_ ?_
  · exact (skip_restores 1).bind fun _ => (block_restores sound).bind fun _ => .pure _
  refine (skipWhile_restores _).bind fun _ => .look (fun _ => rfl) fun _ => ?_
  refine .look (fun _ => rfl) fun _ => .look (fun _ => rfl) fun _ => .ite ?_ ?_
  · -- An index signature.
    exact skipGroup_restores.bind fun _ => skipAnnotation_restores.bind fun _ =>
      (accept_restores _).discard.bind fun _ => .pure _
  refine memberModifiers_restores.bind fun _ => (propertyKey_restores sound).bind fun key => ?_
  cases key with
  | some key => exact (classMemberRest_restores sound _ _ _ _).bind fun _ => .pure _
  | none => exact .pure _

theorem classMembers_restores (sound : g.Restores) : Restores (classMembers g) := by
  refine .iterate (fun members => .look (fun _ => rfl) fun _ => .ite (.pure _) ?_) _
  refine .look (fun _ => rfl) fun _ => (classMember_restores sound).bind fun _ => ?_
  refine .look (fun _ => rfl) fun _ => .ite (advance_restores.bind fun _ => ?_) (.pure _)
  exact (complainAt_restores _ _).bind fun _ => .pure _

theorem className_restores : Restores className :=
  .look (fun _ => rfl) fun _ => .ite (identifier_restores.bind fun _ => .pure _) (.pure _)

theorem heritage_restores (sound : g.Restores) : Restores (heritage g) :=
  (acceptWord_restores _).bind fun _ => .ite (sound.primary.bind fun _ =>
    (chain_restores sound _ _).bind fun _ => skipTypeParameters_restores.bind fun _ => .pure _)
      (.pure _)

theorem classNode_restores (sound : g.Restores) : Restores (classNode g) := by
  refine .look (fun _ => rfl) fun _ => (acceptWord_restores _).discard.bind fun _ => ?_
  refine (skip_restores 1).bind fun _ => className_restores.bind fun _ => ?_
  refine skipTypeParameters_restores.bind fun _ => (heritage_restores sound).bind fun _ => ?_
  have body : ∀ name heritage start, Restores (do
      if ← expect .openBrace then
        let members ← classMembers g
        discard (expect .closeBrace)
        close start (.classNode name heritage members)
      else close start (.classNode name heritage [])) := fun _ _ _ =>
    (expect_restores _).bind fun _ => .ite ((classMembers_restores sound).bind fun _ =>
      (expect_restores _).discard.bind fun _ => close_restores _ _) (close_restores _ _)
  refine (acceptWord_restores _).bind fun _ => ?_
  exact .ite ((skipHeading_restores _).bind fun _ => body _ _ _) (body _ _ _)

/-! ## §9. Expressions. -/

theorem newOperand_restores (sound : g.Restores) : Restores (newOperand g) :=
  .look (fun _ => rfl) fun _ => .ite sound.newExpression sound.primary

theorem optionalArguments_restores (sound : g.Restores) : Restores (optionalArguments g) :=
  .look (fun _ => rfl) fun _ => .ite ((arguments_restores sound).bind fun _ => .pure _) (.pure _)

theorem newExpression_restores (sound : g.Restores) : Restores (newExpression g) := by
  refine advance_restores.bind fun _ => .look (fun _ => rfl) fun _ => .ite (.pure _) ?_
  exact (newOperand_restores sound).bind fun _ => (chain_restores sound _ _).bind fun _ =>
    (optionalArguments_restores sound).bind fun _ => close_restores _ _

theorem parenthesized_restores (sound : g.Restores) : Restores (parenthesized g) :=
  advance_restores.bind fun _ => (allowingIn_restores (expression_restores sound)).bind fun _ =>
    (expect_restores _).discard.bind fun _ => close_restores _ _

theorem wordOperand_restores (sound : g.Restores) (t : Token) (name : Text) :
    Restores (wordOperand g t name) := by
  refine .look (fun _ => rfl) fun _ => .ite (function_restores sound _) ?_
  refine .ite (classNode_restores sound) (.ite (newExpression_restores sound) ?_)
  refine (skip_restores 1).bind fun _ => ?_
  split
  · exact .pure _
  · exact .pure _

theorem noOperand_restores (t : Token) : Restores (noOperand t) :=
  .ite (.pure _) ((skip_restores 1).bind fun _ => (complainAt_restores _ _).bind fun _ => .pure _)

theorem primary_restores (sound : g.Restores) : Restores (primary g) := by
  refine .look (fun _ => rfl) fun t => ?_
  split
  · exact wordOperand_restores sound _ _
  · exact numericLiteral_restores
  · exact stringLiteral_restores _ _
  · exact template_restores sound
  · exact template_restores sound
  · exact (skip_restores 1).bind fun _ => .pure _
  · exact parenthesized_restores sound
  · exact arrayLiteral_restores sound
  · exact objectLiteral_restores sound
  · exact (skipDecorators_restores sound).bind fun _ => sound.primary
  · exact noOperand_restores _

theorem stepped_restores (sound : g.Restores) : Restores (stepped g) :=
  (primary_restores sound).bind fun _ => (chain_restores sound _ _).bind fun _ =>
    .look (fun _ => rfl) fun _ => .ite ((skip_restores 1).bind fun _ => .pure _) (.pure _)

theorem unaryBody_restores (sound : g.Restores) : Restores (unaryBody g) := by
  refine .look (fun _ => rfl) fun _ => .look (fun _ => rfl) fun _ => ?_
  split
  · exact (skip_restores 1).bind fun _ => sound.unary.bind fun _ => close_restores _ _
  · refine .ite (skipAngles_restores.bind fun _ => .ite ?_ ?_) (stepped_restores sound)
    · exact sound.unary.bind fun _ => close_restores _ _
    · exact stepped_restores sound

theorem unary_restores (sound : g.Restores) : Restores (unary g) :=
  nested_restores (unaryBody_restores sound)

theorem binary_restores (sound : g.Restores) (minimum : Nat) : Restores (binary g minimum) := by
  refine (unary_restores sound).bind fun left => .iterate (fun left => ?_) _
  refine .look (fun _ => rfl) fun s => ?_
  split
  · exact .pure _
  · next connective _ =>
      refine .ite (.pure _) ((skip_restores 1).bind fun _ => ?_)
      cases connective with
      | assertion assertion =>
          exact skipType_restores.bind fun _ => (close_restores _ _).bind fun _ => .pure _
      | binary op => exact (sound.binary _).bind fun _ => (close_restores _ _).bind fun _ => .pure _

theorem conditional_restores (sound : g.Restores) : Restores (conditional g) := by
  refine (binary_restores sound 0).bind fun _ => (accept_restores _).bind fun _ =>
    .ite ?_ (.pure _)
  exact (allowingIn_restores sound.assignment).bind fun _ => (expect_restores _).discard.bind fun _ =>
    sound.assignment.bind fun _ => close_restores _ _

theorem assignmentBody_restores (sound : g.Restores) : Restores (assignmentBody g) := by
  refine .look (fun _ => rfl) fun _ => .ite (arrowFunction_restores sound) ?_
  refine (conditional_restores sound).bind fun _ => .look (fun _ => rfl) fun _ => ?_
  split
  · exact (skip_restores 1).bind fun _ => sound.assignment.bind fun _ => close_restores _ _
  · exact .pure _

theorem assignment_restores (sound : g.Restores) : Restores (assignment g) :=
  nested_restores (assignmentBody_restores sound)

/-! ## §10. Loops. -/

theorem variableDeclarator_restores (sound : g.Restores) : Restores (variableDeclarator g) :=
  (bindingTarget_restores sound).bind fun _ => (accept_restores _).discard.bind fun _ =>
    skipAnnotation_restores.bind fun _ => (initializer_restores sound).bind fun _ =>
      close_restores _ _

theorem variableStatement_restores (sound : g.Restores) (keyword : BindingKeyword)
    (inLoopHead : Bool) : Restores (variableStatement g keyword inLoopHead) := by
  refine advance_restores.bind fun _ => .bind (.iterate (fun read => ?_) _) fun _ => ?_
  · exact (variableDeclarator_restores sound).bind fun _ => (accept_restores _).bind fun _ =>
      .ite (.pure _) (.pure _)
  · exact .ite (close_restores _ _)
      ((accept_restores _).discard.bind fun _ => close_restores _ _)

/-- **The first part of the head of a loop** may make `in` an operator that was none. -/
theorem forStart_follows (sound : g.Restores) (ended : s.final.isEnd = true) :
    Ensures (forStart g) s fun _ s' => s.Follows s' := by
  refine .bind_current (.bind_peek ?_)
  split
  · refine (variableStatement_restores sound _ true s ended).bind fun _ _ restored => ?_
    exact .pure restored.follows
  · refine .ite (fun _ => .pure (.refl s)) fun _ => ?_
    refine .bind (P := fun _ s₁ => s₁ = { s with noIn := true }) (.modify rfl) ?_
    rintro _ _ rfl
    refine (expression_restores sound { s with noIn := true } ended).bind
      fun _ s₂ ⟨⟨ahead, final, depth, _⟩, _⟩ => ?_
    refine .bind (P := fun _ s₃ => s.Follows s₃) (.modify ⟨ahead, final, depth, nofun⟩) ?_
    exact fun _ _ follows => .pure follows

theorem expressionBefore_restores (sound : g.Restores) (stop : Punct) :
    Restores (expressionBefore g stop) :=
  .look (fun _ => rfl) fun _ =>
    .ite (.pure _) ((expression_restores sound).bind fun _ => .pure _)

theorem forRest_restores (sound : g.Restores) : Restores (forRest g) := by
  refine .look (fun _ => rfl) fun _ => .ite ?_ ?_
  · exact (skip_restores 1).bind fun _ => (expression_restores sound).bind fun _ => .pure _
  · exact (expect_restores _).discard.bind fun _ => (expressionBefore_restores sound _).bind fun _ =>
      (expect_restores _).discard.bind fun _ => (expressionBefore_restores sound _).bind fun _ =>
        .pure _

/-- Where a `for` comes next, reading it leads behind a loop. -/
theorem loopBetween_skip (ended : s.final.isEnd = true)
    (keyword : s.current.isTheWord "for" = true) : s.LoopBetween (s.skip 1) := by
  unfold ParserState.current at keyword
  cases split : s.ahead with
  | nil =>
      rw [split] at keyword
      have keyword : s.final.isTheWord "for" = true := keyword
      rw [isEnd_of_isTheWord keyword] at ended
      cases ended
  | cons t rest =>
      rw [split] at keyword
      refine ⟨[t], ?_, t, List.mem_singleton_self t, keyword⟩
      show s.ahead = [t] ++ s.ahead.drop 1
      rw [split]
      rfl

/-- **A `for` loop** closes what it opens, and is itself a loop on the way. -/
theorem forStatement_restores (sound : g.Restores) (ended : s.final.isEnd = true)
    (keyword : s.current.isTheWord "for" = true) :
    Ensures (forStatement g) s fun _ s' => s.Restored s' := by
  have loop := loopBetween_skip ended keyword
  have rest : ∀ start first, Restores (do
      let rest ← forRest g
      discard (expect .closeParen)
      let body ← g.statement
      close start (.loopStatement .forWord (first ++ rest) body)) := fun _ _ =>
    (forRest_restores sound).bind fun _ => (expect_restores _).discard.bind fun _ =>
      sound.statement.bind fun _ => close_restores _ _
  refine .bind_advance ?_
  have same₀ : (s.skip 1).final.isEnd = true := ended
  refine ((acceptWord_restores _).discard _ same₀).bind fun _ s₁ restored₁ => ?_
  have same₁ : s₁.final.isEnd = true := restored₁.follows.final ▸ same₀
  refine ((expect_restores _).discard _ same₁).bind fun _ s₂ restored₂ => ?_
  have same₂ : s₂.final.isEnd = true := restored₂.follows.final ▸ same₁
  refine (forStart_follows sound same₂).bind fun first s₃ follows => ?_
  have same₃ : s₃.final.isEnd = true := follows.final ▸ same₂
  refine (rest _ first s₃ same₃).mono fun _ s₄ restored₄ => ?_
  have all := ((restored₁.trans restored₂).follows.trans follows).trans restored₄.follows
  exact ⟨(ParserState.Restored.skip s 1).follows.trans all, .inr (loop.goesOn all)⟩

/-! ## §11. Other statements. -/

theorem expressionStatement_restores (sound : g.Restores) : Restores (expressionStatement g) :=
  .look (fun _ => rfl) fun _ => (expression_restores sound).bind fun _ =>
    .look (fun _ => rfl) fun _ => .ite (.pure _)
      ((accept_restores _).discard.bind fun _ => close_restores _ _)

theorem skipBraces_restores : Restores skipBraces :=
  .look (fun _ => rfl) fun _ => .ite skipGroup_restores (.pure _)

theorem typeBody_restores (sound : g.Restores) (keyword : TypeKeyword) :
    Restores (typeBody g keyword) := by
  have others : Restores (do skipHeading [.openBrace, .semicolon]; skipBraces) :=
    (skipHeading_restores _).bind fun _ => skipBraces_restores
  cases keyword with
  | declare =>
      exact (acceptWord_restores _).bind fun _ => .ite skipBraces_restores sound.statement.discard
  | type =>
      exact (skip_restores 1).bind fun _ => skipTypeParameters_restores.bind fun _ =>
        (expect_restores _).discard.bind fun _ => skipType_restores
  | _ => exact others

theorem typeDeclaration_restores (sound : g.Restores) (keyword : TypeKeyword) (start : Nat) :
    Restores (typeDeclaration g keyword start) :=
  (skip_restores 1).bind fun _ => (typeBody_restores sound _).bind fun _ =>
    (accept_restores _).discard.bind fun _ => close_restores _ _

theorem controlExpression_restores (sound : g.Restores) : Restores (controlExpression g) :=
  (expect_restores _).discard.bind fun _ => (expression_restores sound).bind fun _ =>
    (expect_restores _).discard.bind fun _ => .pure _

theorem elseBranch_restores (sound : g.Restores) : Restores (elseBranch g) :=
  (acceptWord_restores _).bind fun _ => .ite (sound.statement.bind fun _ => .pure _) (.pure _)

theorem ifStatement_restores (sound : g.Restores) : Restores (ifStatement g) :=
  advance_restores.bind fun _ => (controlExpression_restores sound).bind fun _ =>
    sound.statement.bind fun _ => (elseBranch_restores sound).bind fun _ => close_restores _ _

theorem whileStatement_restores (sound : g.Restores) : Restores (whileStatement g) :=
  advance_restores.bind fun _ => (controlExpression_restores sound).bind fun _ =>
    sound.statement.bind fun _ => close_restores _ _

theorem doTest_restores (sound : g.Restores) : Restores (doTest g) :=
  (acceptWord_restores _).bind fun _ =>
    .ite ((controlExpression_restores sound).bind fun _ => .pure _) (.pure _)

theorem doStatement_restores (sound : g.Restores) : Restores (doStatement g) :=
  advance_restores.bind fun _ => sound.statement.bind fun _ => (doTest_restores sound).bind fun _ =>
    (accept_restores _).discard.bind fun _ => close_restores _ _

theorem optionalArgument_restores (sound : g.Restores) : Restores (optionalArgument g) :=
  .look (fun _ => rfl) fun _ =>
    .ite (.pure _) ((expression_restores sound).bind fun _ => .pure _)

theorem returnStatement_restores (sound : g.Restores) : Restores (returnStatement g) :=
  advance_restores.bind fun _ => (optionalArgument_restores sound).bind fun _ =>
    (accept_restores _).discard.bind fun _ => close_restores _ _

theorem throwStatement_restores (sound : g.Restores) : Restores (throwStatement g) :=
  advance_restores.bind fun _ => (optionalArgument_restores sound).bind fun _ =>
    (accept_restores _).discard.bind fun _ => close_restores _ _

theorem catchBinding_restores (sound : g.Restores) : Restores (catchBinding g) :=
  (accept_restores _).bind fun _ => .ite ((bindingTarget_restores sound).bind fun _ =>
    skipAnnotation_restores.bind fun _ => (expect_restores _).discard.bind fun _ => .pure _) (.pure _)

theorem catchClause_restores (sound : g.Restores) : Restores (catchClause g) :=
  (acceptWord_restores _).bind fun _ => .ite ((catchBinding_restores sound).bind fun _ =>
    (block_restores sound).bind fun _ => .pure _) (.pure _)

theorem finallyClause_restores (sound : g.Restores) : Restores (finallyClause g) :=
  (acceptWord_restores _).bind fun _ =>
    .ite ((block_restores sound).bind fun _ => .pure _) (.pure _)

theorem tryStatement_restores (sound : g.Restores) : Restores (tryStatement g) :=
  advance_restores.bind fun _ => (block_restores sound).bind fun _ =>
    (catchClause_restores sound).bind fun _ => (finallyClause_restores sound).bind fun _ =>
      close_restores _ _

theorem switchCase_restores (sound : g.Restores) (start : Nat) (test : Option Tree) :
    Restores (switchCase g start test) :=
  (expect_restores _).discard.bind fun _ => (statements_restores sound _ _).bind fun _ =>
    close_restores _ _

theorem switchCases_restores (sound : g.Restores) : Restores (switchCases g) := by
  refine .iterate (fun cases => .look (fun _ => rfl) fun _ => .ite (.pure _) ?_) _
  refine (acceptWord_restores _).bind fun _ => .ite ?_ ?_
  · exact (expression_restores sound).bind fun _ => (switchCase_restores sound _ _).bind fun _ =>
      .pure _
  refine (acceptWord_restores _).bind fun _ => .ite ?_ ?_
  · exact (switchCase_restores sound _ _).bind fun _ => .pure _
  · exact (skip_restores 1).bind fun _ => (complainAt_restores _ _).bind fun _ => .pure _

theorem switchStatement_restores (sound : g.Restores) : Restores (switchStatement g) := by
  refine advance_restores.bind fun _ => (controlExpression_restores sound).bind fun _ => ?_
  refine (expect_restores _).bind fun _ => .ite ?_ (close_restores _ _)
  exact (switchCases_restores sound).bind fun _ => (expect_restores _).discard.bind fun _ =>
    close_restores _ _

theorem optionalLabel_restores : Restores optionalLabel :=
  .look (fun _ => rfl) fun _ => .ite ((skip_restores 1).bind fun _ => .pure _) (.pure _)

theorem jumpStatement_restores (keyword : JumpKeyword) : Restores (jumpStatement keyword) :=
  advance_restores.bind fun _ => optionalLabel_restores.bind fun _ =>
    (accept_restores _).discard.bind fun _ => close_restores _ _

theorem importClause_restores : Restores importClause := by
  refine .iterate (fun _ => .look (fun _ => rfl) fun t => ?_) _
  split
  · exact .pure _
  · exact (stringLiteral_restores _ _).bind fun _ => .pure _
  · refine .ite ?_ (.ite (.pure _) ?_)
    · exact skipGroup_restores.bind fun _ => .pure _
    · exact (skip_restores 1).bind fun _ => .pure _

theorem importAttributes_restores : Restores importAttributes :=
  .look (fun _ => rfl) fun _ => .look (fun _ => rfl) fun _ =>
    .ite ((skip_restores 1).bind fun _ => skipGroup_restores) (.pure _)

theorem importDeclaration_restores : Restores importDeclaration :=
  advance_restores.bind fun _ => importClause_restores.bind fun _ =>
    importAttributes_restores.bind fun _ => (accept_restores _).discard.bind fun _ =>
      close_restores _ _

theorem exportedNames_restores : Restores exportedNames :=
  .look (fun _ => rfl) fun _ => .ite skipGroup_restores ((skip_restores 1).bind fun _ =>
    (acceptWord_restores _).bind fun _ => .ite (skip_restores 1) (.pure _))

theorem exportSource_restores : Restores exportSource :=
  (acceptWord_restores _).bind fun _ =>
    .ite (.look (fun _ => rfl) fun _ => .ite (skip_restores 1) (.pure _)) (.pure _)

theorem exportClause_restores : Restores exportClause :=
  (acceptWord_restores _).discard.bind fun _ => exportedNames_restores.bind fun _ =>
    exportSource_restores.bind fun _ => (accept_restores _).discard

theorem defaultExport_restores (sound : g.Restores) : Restores (defaultExport g) :=
  .look (fun _ => rfl) fun _ => .look (fun _ => rfl) fun _ => .ite sound.statement
    (sound.assignment.bind fun _ => (accept_restores _).discard.bind fun _ => .pure _)

theorem exportDeclaration_restores (sound : g.Restores) : Restores (exportDeclaration g) := by
  refine advance_restores.bind fun _ => (acceptWord_restores _).bind fun _ => .ite ?_ ?_
  · exact (defaultExport_restores sound).bind fun _ => close_restores _ _
  refine .look (fun _ => rfl) fun _ => .look (fun _ => rfl) fun _ => .look (fun _ => rfl) fun _ => ?_
  refine .ite (exportClause_restores.bind fun _ => close_restores _ _) ?_
  refine (accept_restores _).bind fun _ => .ite ?_
    (sound.statement.bind fun _ => close_restores _ _)
  exact (expression_restores sound).bind fun _ => (accept_restores _).discard.bind fun _ =>
    close_restores _ _

/-! ## §12. Statements of all kinds. -/

/-- A statement that its keyword announces restores the mode where it is called, in front of
the keyword. -/
theorem keywordStatements_restore (sound : g.Restores) (ended : s.final.isEnd = true) :
    ∀ entry ∈ keywordStatements g, s.current.lexeme = .word entry.1 →
      Ensures entry.2 s fun _ s' => s.Restored s' := by
  intro entry inside keyword
  unfold keywordStatements at inside
  simp only [List.mem_cons, List.not_mem_nil, or_false] at inside
  rcases inside with rfl | rfl | rfl | rfl | rfl | rfl | rfl | rfl | rfl | rfl | rfl | rfl
  · exact ifStatement_restores sound s ended
  · refine forStatement_restores sound ended ?_
    unfold Token.isTheWord
    rw [keyword]
    exact beq_self_eq_true _
  · exact whileStatement_restores sound s ended
  · exact doStatement_restores sound s ended
  · exact returnStatement_restores sound s ended
  · exact throwStatement_restores sound s ended
  · exact tryStatement_restores sound s ended
  · exact switchStatement_restores sound s ended
  · exact jumpStatement_restores .breakWord s ended
  · exact jumpStatement_restores .continueWord s ended
  · exact importDeclaration_restores s ended
  · exact exportDeclaration_restores sound s ended

theorem otherStatement_restores (sound : g.Restores) (ended : s.final.isEnd = true) {name : Text}
    (keyword : s.current.lexeme = .word name) (t next : Token) :
    Ensures (otherStatement g t next name) s fun _ s' => s.Restored s' := by
  have expression := expressionStatement_restores sound s ended
  refine .ite (fun _ => expression) fun _ => ?_
  split
  · next parse found =>
      obtain ⟨front, back, split, _⟩ := List.lookup_eq_some_iff.mp found
      refine keywordStatements_restore sound ended (name, parse) ?_ keyword
      rw [split]
      exact List.mem_append_right _ (List.mem_cons_self ..)
  · refine .ite (fun _ => ?_) fun _ => expression
    exact ((skip_restores 2).bind fun _ => sound.statement) s ended

theorem wordStatement_restores (sound : g.Restores) (ended : s.final.isEnd = true) {name : Text}
    (keyword : s.current.lexeme = .word name) (t : Token) :
    Ensures (wordStatement g t name) s fun _ s' => s.Restored s' := by
  refine .bind_peek ?_
  split
  · refine .ite (fun _ => ?_) fun _ => variableStatement_restores sound _ _ s ended
    exact ((skip_restores 1).bind fun _ => typeDeclaration_restores sound _ _) s ended
  · refine .ite (fun _ => function_restores sound _ s ended) fun _ => ?_
    refine .ite (fun _ => classNode_restores sound s ended) fun _ => .bind_get ?_
    split
    · exact typeDeclaration_restores sound _ _ s ended
    · exact otherStatement_restores sound ended keyword t _

theorem statementBody_restores (sound : g.Restores) : Restores (statementBody g) := by
  intro s ended
  refine .bind_current ?_
  split
  · exact block_restores sound s ended
  · exact ((skip_restores 1).bind fun _ => .pure _) s ended
  · exact ((skipDecorators_restores sound).bind fun _ => sound.statement) s ended
  · next name keyword => exact wordStatement_restores sound ended keyword _
  · exact expressionStatement_restores sound s ended

theorem statement_restores (sound : g.Restores) : Restores (statement g) :=
  nested_restores (statementBody_restores sound)

end Parser

/-! ## §13. The knot. -/

namespace Grammar

variable {g : Grammar}

theorem spent_restores : spent.Restores where
  statement := .throw _
  assignment := .throw _
  unary := .throw _
  binary := fun _ => .throw _
  primary := .throw _
  newExpression := .throw _
  bindingTarget := .throw _

theorem Restores.around (sound : g.Restores) : g.around.Restores where
  statement := Parser.statement_restores sound
  assignment := Parser.assignment_restores sound
  unary := Parser.unary_restores sound
  binary := Parser.binary_restores sound
  primary := Parser.primary_restores sound
  newExpression := Parser.newExpression_restores sound
  bindingTarget := Parser.bindingTarget_restores sound

theorem ofBudget_restores (budget : Nat) : (ofBudget budget).Restores := by
  induction budget with
  | zero => exact spent_restores
  | succ budget ih => exact ih.around

end Grammar

/-! ## §14. Calls. -/

/-- **The calls of the grammar's parsers in a state.**  A `for` loop is read only where its
keyword stands, all others may be called anywhere. -/
inductive Grammar.Calls (g : Grammar) (s : ParserState) : {α : Type} → Parser α → Prop
  | construct (c : Construct) : Calls g s (g.parser c)
  | statements (closer : Option Punct) (stopWords : List Text) :
      Calls g s (Parser.statements g closer stopWords)
  | statementBody : Calls g s (Parser.statementBody g)
  | block : Calls g s (Parser.block g)
  | expressionStatement : Calls g s (Parser.expressionStatement g)
  | variableStatement (keyword : BindingKeyword) (inLoopHead : Bool) :
      Calls g s (Parser.variableStatement g keyword inLoopHead)
  | ifStatement : Calls g s (Parser.ifStatement g)
  | forStatement (keyword : s.current.isTheWord "for" = true) : Calls g s (Parser.forStatement g)
  | whileStatement : Calls g s (Parser.whileStatement g)
  | doStatement : Calls g s (Parser.doStatement g)
  | optionalArgument : Calls g s (Parser.optionalArgument g)
  | returnStatement : Calls g s (Parser.returnStatement g)
  | throwStatement : Calls g s (Parser.throwStatement g)
  | tryStatement : Calls g s (Parser.tryStatement g)
  | switchStatement : Calls g s (Parser.switchStatement g)
  | jumpStatement (keyword : JumpKeyword) : Calls g s (Parser.jumpStatement keyword)
  | importDeclaration : Calls g s Parser.importDeclaration
  | exportDeclaration : Calls g s (Parser.exportDeclaration g)
  | typeDeclaration (keyword : TypeKeyword) (start : Nat) :
      Calls g s (Parser.typeDeclaration g keyword start)
  | function (declaration : Bool) : Calls g s (Parser.function g declaration)
  | parameters : Calls g s (Parser.parameters g)
  | parameter : Calls g s (Parser.parameter g)
  | arrowFunction : Calls g s (Parser.arrowFunction g)
  | methodRest (start : Nat) (key : Tree) (accessor : Accessor) (isAsync : Bool) :
      Calls g s (Parser.methodRest g start key accessor isAsync)
  | classNode : Calls g s (Parser.classNode g)
  | classMember : Calls g s (Parser.classMember g)
  | memberModifiers : Calls g s Parser.memberModifiers
  | decorators : Calls g s (Parser.skipDecorators g)
  | expression : Calls g s (Parser.expression g)
  | assignmentBody : Calls g s (Parser.assignmentBody g)
  | conditional : Calls g s (Parser.conditional g)
  | unaryBody : Calls g s (Parser.unaryBody g)
  | stepped : Calls g s (Parser.stepped g)
  | chain (allowCalls : Bool) (operand : Tree) : Calls g s (Parser.chain g allowCalls operand)
  | arguments : Calls g s (Parser.arguments g)
  | element : Calls g s (Parser.element g)
  | elements (closer : Punct) : Calls g s (Parser.listOf closer (Parser.element g))
  | members (closer : Punct) : Calls g s (Parser.listOf closer (Parser.objectMember g))
  | template : Calls g s (Parser.template g)
  | arrayLiteral : Calls g s (Parser.arrayLiteral g)
  | objectLiteral : Calls g s (Parser.objectLiteral g)
  | objectMember : Calls g s (Parser.objectMember g)
  | propertyKey : Calls g s (Parser.propertyKey g)
  | propertyName : Calls g s Parser.propertyName
  | identifier : Calls g s Parser.identifier
  | stringLiteral (quote : Quote) (value : Text) : Calls g s (Parser.stringLiteral quote value)
  | typeParameters : Calls g s Parser.skipTypeParameters
  | type : Calls g s Parser.skipType

namespace Parser

variable {g : Grammar} {s : ParserState} {α : Type} {p : Parser α}

theorem parser_restores (sound : g.Restores) (c : Construct) : Restores (g.parser c) := by
  cases c with
  | statement => exact sound.statement
  | assignment => exact sound.assignment
  | unary => exact sound.unary
  | binary minimum => exact sound.binary minimum
  | primary => exact sound.primary
  | newExpression => exact sound.newExpression
  | bindingTarget => exact sound.bindingTarget

/-- **Every call restores the mode.** -/
theorem call_restores (sound : g.Restores) (ended : s.final.isEnd = true) (call : g.Calls s p) :
    Ensures p s fun _ s' => s.Restored s' := by
  cases call with
  | construct c => exact parser_restores sound c s ended
  | statements closer stopWords => exact statements_restores sound closer stopWords s ended
  | statementBody => exact statementBody_restores sound s ended
  | block => exact block_restores sound s ended
  | expressionStatement => exact expressionStatement_restores sound s ended
  | variableStatement keyword inLoopHead =>
      exact variableStatement_restores sound keyword inLoopHead s ended
  | ifStatement => exact ifStatement_restores sound s ended
  | forStatement keyword => exact forStatement_restores sound ended keyword
  | whileStatement => exact whileStatement_restores sound s ended
  | doStatement => exact doStatement_restores sound s ended
  | optionalArgument => exact optionalArgument_restores sound s ended
  | returnStatement => exact returnStatement_restores sound s ended
  | throwStatement => exact throwStatement_restores sound s ended
  | tryStatement => exact tryStatement_restores sound s ended
  | switchStatement => exact switchStatement_restores sound s ended
  | jumpStatement keyword => exact jumpStatement_restores keyword s ended
  | importDeclaration => exact importDeclaration_restores s ended
  | exportDeclaration => exact exportDeclaration_restores sound s ended
  | typeDeclaration keyword start => exact typeDeclaration_restores sound keyword start s ended
  | function declaration => exact function_restores sound declaration s ended
  | parameters => exact parameters_restores sound s ended
  | parameter => exact parameter_restores sound s ended
  | arrowFunction => exact arrowFunction_restores sound s ended
  | methodRest start key accessor isAsync =>
      exact methodRest_restores sound start key accessor isAsync s ended
  | classNode => exact classNode_restores sound s ended
  | classMember => exact classMember_restores sound s ended
  | memberModifiers => exact memberModifiers_restores s ended
  | decorators => exact skipDecorators_restores sound s ended
  | expression => exact expression_restores sound s ended
  | assignmentBody => exact assignmentBody_restores sound s ended
  | conditional => exact conditional_restores sound s ended
  | unaryBody => exact unaryBody_restores sound s ended
  | stepped => exact stepped_restores sound s ended
  | chain allowCalls operand => exact chain_restores sound allowCalls operand s ended
  | arguments => exact arguments_restores sound s ended
  | element => exact element_restores sound s ended
  | elements closer => exact listOf_restores closer (element_restores sound) s ended
  | members closer => exact listOf_restores closer (objectMember_restores sound) s ended
  | template => exact template_restores sound s ended
  | arrayLiteral => exact arrayLiteral_restores sound s ended
  | objectLiteral => exact objectLiteral_restores sound s ended
  | objectMember => exact objectMember_restores sound s ended
  | propertyKey => exact propertyKey_restores sound s ended
  | propertyName => exact propertyName_restores s ended
  | identifier => exact identifier_restores s ended
  | stringLiteral quote value => exact stringLiteral_restores quote value s ended
  | typeParameters => exact skipTypeParameters_restores s ended
  | type => exact skipType_restores s ended

/-- **A call that returns leaves as many constructs open as it found,** and `in` is what it
was.  Only a call that reads a `for` may make `in` an operator where it was none. -/
theorem mode_restored {budget : Nat} {s' : ParserState} {a : α} (ended : s.final.isEnd = true)
    (call : (Grammar.ofBudget budget).Calls s p) (returns : p.run s = .ok a s') :
    s'.depth = s.depth
      ∧ (s'.noIn = s.noIn ∨ s.noIn = true ∧ s'.noIn = false ∧ s.LoopBetween s') := by
  have restored : s.Restored s' :=
    call_restores (Grammar.ofBudget_restores budget) ended call a s' returns
  refine ⟨restored.follows.depth, ?_⟩
  rcases restored.noIn with same | loop
  · exact .inl same
  cases before : s.noIn with
  | false =>
      cases behind : s'.noIn with
      | false => exact .inl rfl
      | true => rw [restored.follows.noIn behind] at before; cases before
  | true =>
      cases behind : s'.noIn with
      | false => exact .inr ⟨rfl, rfl, loop⟩
      | true => exact .inl rfl

/-- What a text that begins with a `for` loop has behind the opening bracket, in the mode in
which the head of the loop is read. -/
def loopHead (t : Text) : ParserState :=
  let tokens := ((tokenize t).toOption.getD []).dropLast
  let final : Token := ⟨.endOfText, t.length, t.length, false⟩
  { (ParserState.start tokens final).skip 2 with depth := 1, noIn := true }

/-- How many constructs are open behind an expression, and whether `in` is no operator there. -/
def modeBehindExpression (s : ParserState) : Option (Nat × Bool) :=
  match (expression (.ofBudget parseBudget)).run s with
  | .ok _ s' => some (s'.depth, s'.noIn)
  | .error .. => none

theorem modeBehindExpression_eq_some {depth : Nat} {noIn : Bool}
    (found : modeBehindExpression s = some (depth, noIn)) :
    ∃ a s', (expression (.ofBudget parseBudget)).run s = .ok a s' ∧ s'.depth = depth
      ∧ s'.noIn = noIn := by
  unfold modeBehindExpression at found
  split at found
  · next a s' run =>
      cases found
      exact ⟨a, s', run, rfl, rfl⟩
  · cases found

/-- The branches of the head are conditional: in the first one `in` is an operator. -/
def branchedHead : Text :=
  "for (x = a ? b in c : d; e; f) ;"

/-- Behind the branches `in` is again no operator, and one construct is open. -/
theorem mode_restored_branches :
    ∃ a s', (expression (.ofBudget parseBudget)).run (loopHead branchedHead) = .ok a s'
      ∧ s'.depth = 1 ∧ s'.noIn = true := by
  have evaluated : modeBehindExpression (loopHead branchedHead) = some (1, true) := by
    decide +kernel
  obtain ⟨a, s', returns, _, off⟩ := modeBehindExpression_eq_some evaluated
  obtain ⟨depth, same | ⟨_, on, _⟩⟩ := mode_restored rfl .expression returns
  · exact ⟨a, s', returns, depth, same⟩
  · rw [off] at on
    cases on

/-- The head of a loop holds a function, and the body of the function a loop. -/
def loopInHead : Text :=
  "for (x = function () \x7b for (a; b; c) ; \x7d in o) ;"

/-- Behind the function `in` is an operator, so that the head is not the one of a loop over the
keys of `o`. -/
theorem not_mode_restored :
    ¬ ∀ (budget : Nat) (s s' : ParserState) (α : Type) (p : Parser α) (a : α),
        s.final.isEnd = true → (Grammar.ofBudget budget).Calls s p → p.run s = .ok a s' →
        s'.noIn = s.noIn ∧ s'.depth = s.depth := by
  intro all
  have evaluated : modeBehindExpression (loopHead loopInHead) = some (1, false) := by
    decide +kernel
  obtain ⟨a, s', returns, _, on⟩ := modeBehindExpression_eq_some evaluated
  have off : s'.noIn = true := (all _ _ s' _ _ a rfl .expression returns).1
  rw [off] at on
  cases on

end Parser

end StackLint
