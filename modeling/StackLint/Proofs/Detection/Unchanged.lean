/-
  StackLint.Proofs.Detection.Unchanged
  ────────────────────────────────────
  **SPELLINGS THAT CHANGE NO REPORT.**

  A value may be written in parentheses or under a type assertion: the value of a
  property, the initial value of a variable, an argument, an element of an array.
  Every rule looks through them, downwards where it reads the value and upwards
  where it asks what a function is bound to, and reports the same violations with
  the same fixes.

  A shorthand member `k` stands for `k: k`, but a rule that looks for a property
  sees the second one only.  Everywhere else the two spellings are one: whatever
  rules report does not change when a member that they do not look for is spelled
  out.
-/
import StackLint.Proofs.Except
import StackLint.Proofs.Rule.Alike

namespace StackLint

namespace Node

/-! ## §1. Wrapped values. -/

/-- **The second node is the first one with a value wrapped.** -/
inductive WrapsValue : Tree → Tree → Prop
  | property {e e' : Tree} (info : Span) (key : Tree) (wraps : Wraps e e') :
      WrapsValue (.mk info (.propertyAssignment key e)) (.mk info (.propertyAssignment key e'))
  | binding {e e' : Tree} (info : Span) (target : Tree) (wraps : Wraps e e') :
      WrapsValue (.mk info (.variableDeclarator target (some e)))
        (.mk info (.variableDeclarator target (some e')))
  | argument {e e' : Tree} (info : Span) (callee : Tree) (before after : List Tree)
      (optional : Bool) (wraps : Wraps e e') :
      WrapsValue (.mk info (.call callee (before ++ e :: after) optional))
        (.mk info (.call callee (before ++ e' :: after) optional))
  | newArgument {e e' : Tree} (info : Span) (callee : Tree) (before after : List Tree)
      (wraps : Wraps e e') :
      WrapsValue (.mk info (.newExpression callee (some (before ++ e :: after))))
        (.mk info (.newExpression callee (some (before ++ e' :: after))))
  | element {e e' : Tree} (info : Span) (before after : List (Option Tree))
      (wraps : Wraps e e') :
      WrapsValue (.mk info (.arrayLiteral (before ++ some e :: after)))
        (.mk info (.arrayLiteral (before ++ some e' :: after)))

/-! ## §2. They say the same. -/

variable {k : Text} {E : Tree → Prop}

/-- Nodes of one form with parts that say the same. -/
theorem Alike.ofParts {info : Span} {form form' : Form Tree} (parts : Form (Tree × Tree))
    (left : parts.map Prod.fst = form) (right : parts.map Prod.snd = form')
    (others : ∀ p ∈ parts.otherParts, Alike k E false p.1 p.2)
    (values : ∀ p ∈ parts.valueParts, Alike k E true p.1 p.2) :
    Alike k E false (.mk info form) (.mk info form') := by
  subst left
  subst right
  exact .node info parts others values

/-- A list in which one member is replaced, as pairs. -/
def pairsAround {α : Type} (before : List α) (a a' : α) (after : List α) : List (α × α) :=
  before.map (fun b => (b, b)) ++ (a, a') :: after.map fun b => (b, b)

theorem map_fst_pairsAround {α : Type} (before : List α) (a a' : α) (after : List α) :
    (pairsAround before a a' after).map Prod.fst = before ++ a :: after := by
  simp [pairsAround, Function.comp_def]

theorem map_snd_pairsAround {α : Type} (before : List α) (a a' : α) (after : List α) :
    (pairsAround before a a' after).map Prod.snd = before ++ a' :: after := by
  simp [pairsAround, Function.comp_def]

theorem alike_pairsAround {e e' : Tree} (same : Alike k E true e e') {before after : List Tree} :
    ∀ p ∈ pairsAround before e e' after, Alike k E true p.1 p.2 := by
  intro p inside
  unfold pairsAround at inside
  rcases List.mem_append.mp inside with inside | inside
  · obtain ⟨c, _, rfl⟩ := List.mem_map.mp inside
    exact .refl c
  · rcases List.mem_cons.mp inside with rfl | inside
    · exact same
    · obtain ⟨c, _, rfl⟩ := List.mem_map.mp inside
      exact .refl c

/-- A node with a wrapped value says the same. -/
theorem WrapsValue.alike {o o' : Tree} (wraps : WrapsValue o o') : Alike k E false o o' := by
  have lone {e e' : Tree} (wraps : Wraps e e') : ∀ p ∈ [(e, e')], Alike k E true p.1 p.2 := by
    intro p inside
    cases List.mem_singleton.mp inside
    exact .wrapped (.refl e) wraps
  have unchanged (c : Tree) : ∀ p ∈ [(c, c)], Alike k E false p.1 p.2 := by
    intro p inside
    cases List.mem_singleton.mp inside
    exact .refl c
  cases wraps with
  | @property e e' info key wraps =>
      exact .node info (.propertyAssignment (key, key) (e, e')) (unchanged key) (lone wraps)
  | @binding e e' info target wraps =>
      exact .node info (.variableDeclarator (target, target) (some (e, e'))) (unchanged target)
        (lone wraps)
  | @argument e e' info callee before after optional wraps =>
      refine .ofParts (.call (callee, callee) (pairsAround before e e' after) optional) ?_ ?_
        (unchanged callee) (alike_pairsAround (.wrapped (.refl e) wraps))
      · simp only [Form.map, map_fst_pairsAround]
      · simp only [Form.map, map_snd_pairsAround]
  | @newArgument e e' info callee before after wraps =>
      refine .ofParts (.newExpression (callee, callee) (some (pairsAround before e e' after))) ?_ ?_
        (unchanged callee) (alike_pairsAround (.wrapped (.refl e) wraps))
      · simp only [Form.map, Option.map_some, map_fst_pairsAround]
      · simp only [Form.map, Option.map_some, map_snd_pairsAround]
  | @element e e' info before after wraps =>
      refine .ofParts (.arrayLiteral (before.map (Option.map fun c => (c, c))
        ++ some (e, e') :: after.map (Option.map fun c => (c, c)))) ?_ ?_ (fun _ inside => absurd inside List.not_mem_nil) ?_
      · simp [Form.map, Function.comp_def]
      · simp [Form.map, Function.comp_def]
      · intro p inside
        obtain ⟨element, inside, rfl⟩ := List.mem_filterMap.mp inside
        rcases List.mem_append.mp inside with inside | inside
        · obtain ⟨c, _, same⟩ := List.mem_map.mp inside
          obtain ⟨n, rfl, rfl⟩ := Option.map_eq_some_iff.mp same
          exact .refl n
        · rcases List.mem_cons.mp inside with same | inside
          · cases same
            exact .wrapped (.refl e) wraps
          · obtain ⟨c, _, same⟩ := List.mem_map.mp inside
            obtain ⟨n, rfl, rfl⟩ := Option.map_eq_some_iff.mp same
            exact .refl n

end Node

/-! ## §3. The reports on wrapped values. -/

/-- **Parentheses and type assertions change no report.**  For every source and
every value of a property or a variable, argument or element in its tree: with the
value wrapped, under the same span, each of the rules reports the same violations
with the same fixes, or fails in the same way. -/
theorem Rule.detect_wrapped {r : Rule} (isBuiltIn : r ∈ builtIn) (s : Source) {o o' t' : Tree}
    (wraps : Node.WrapsValue o o') (replaced : Node.Replaces o o' s.tree t') :
    r.detect { s with tree := t' } = r.detect s := by
  have same : Node.Alike [] (fun _ => False) false s.tree t' := replaced.alike wraps.alike
  exact Rule.detect_alike isBuiltIn ⟨rfl, rfl⟩ same fun _ may => may.elim

/-- The variable `stage` with the value `"dev"`, which is written `value`. -/
def stageBinding (value : Tree) : Tree :=
  .mk ⟨6, 19⟩ (.variableDeclarator (.mk ⟨6, 11⟩ (.identifier "stage")) (some value))

/-- A source with this variable only. -/
def hardcodedStage (value : Tree) : Source where
  path := ⟨.here, []⟩
  text := "const stage = \"dev\""
  tree := .mk ⟨0, 19⟩ (.program [.mk ⟨0, 19⟩ (.variableStatement .const [stageBinding value])])
  complaints := []

/-- A constant stage is reported through a type assertion. -/
theorem Rule.detect_wrapped_hardcodedStage :
    let dev : Tree := .mk ⟨14, 19⟩ (.stringLiteral "dev" .double)
    let wrapped : Tree := .mk ⟨14, 19⟩ (.typeAssertion dev .asType)
    (stageVariable.detect (hardcodedStage dev)).map (·.map Violation.code) = .ok ["SST-VAL-003"]
      ∧ stageVariable.detect (hardcodedStage wrapped)
        = stageVariable.detect (hardcodedStage dev) := by
  intro dev wrapped
  have wraps : Node.WrapsValue (stageBinding dev) (stageBinding wrapped) :=
    .binding _ _ (.assertion dev .asType)
  have atBinding : Node.Replaces (stageBinding dev) (stageBinding wrapped) _ _ := .here
  have inStatement := atBinding.around ⟨0, 19⟩ (.variableStatement .const [none])
  have inProgram := inStatement.around ⟨0, 19⟩ (.program [none])
  have reported := Rule.detect_wrapped (List.mem_cons_self ..) (hardcodedStage dev) wraps inProgram
  exact ⟨by decide +kernel, reported⟩

/-! ## §4. Shorthand members. -/

/-- **Spelling out a shorthand member changes no report of a rule that does not
look for it.**  The rule reports the same violations with the same fixes, or fails
in the same way. -/
theorem Rule.detect_expanded {r : Rule} (isBuiltIn : r ∈ builtIn) (s : Source) {k : Text}
    {o o' t' : Tree} (expands : Node.Expands k o o') (replaced : Node.Replaces o o' s.tree t')
    (unsought : ¬ Sought s.tree k r o) : r.detect { s with tree := t' } = r.detect s := by
  have same : Node.Alike k (· = o) false s.tree t' := replaced.alike (.expanded rfl expands)
  refine Rule.detect_alike isBuiltIn ⟨rfl, rfl⟩ same ?_
  rintro _ rfl
  exact unsought

/-! ## §5. A website. -/

/-- The domain `{ name: "x", dns }`, with its second member in any spelling. -/
def domainObject (member : Tree) : Tree :=
  .mk ⟨34, 52⟩ (.objectLiteral [
    .mk ⟨36, 45⟩ (.propertyAssignment (.mk ⟨36, 40⟩ (.identifier "name"))
      (.mk ⟨42, 45⟩ (.stringLiteral "x" .double))),
    member])

/-- What is called to make a website. -/
def websiteType : Tree :=
  .mk ⟨4, 18⟩ (.propertyAccess
    (.mk ⟨4, 11⟩ (.propertyAccess (.mk ⟨4, 7⟩ (.identifier "sst"))
      (.mk ⟨8, 11⟩ (.identifier "aws")) false))
    (.mk ⟨12, 18⟩ (.identifier "Nextjs")) false)

/-- The source of a website whose domain has a shorthand member of three letters. -/
def website (k : Text) (domain : Tree) : Source where
  path := ⟨.here, []⟩
  text := "new sst.aws.Nextjs(\"W\", \x7b domain: \x7b name: \"x\", " ++ k ++ " \x7d \x7d);"
  tree := .mk ⟨0, 56⟩ (.program [.mk ⟨0, 56⟩ (.expressionStatement (.mk ⟨0, 55⟩
    (.newExpression websiteType (some [.mk ⟨19, 22⟩ (.stringLiteral "W" .double),
      .mk ⟨24, 54⟩ (.objectLiteral [.mk ⟨26, 52⟩
        (.propertyAssignment (.mk ⟨26, 32⟩ (.identifier "domain")) domain)])]))))])
  complaints := []

theorem replaces_website (k : Text) (d d' : Tree) :
    Node.Replaces d d' (website k d).tree (website k d').tree := by
  have domain : Node.Replaces d d' d d' := .here
  have inProperty := domain.around ⟨26, 52⟩
    (.propertyAssignment (some (.mk ⟨26, 32⟩ (.identifier "domain"))) none)
  have inObject := inProperty.around ⟨24, 54⟩ (.objectLiteral [none])
  have inCall := inObject.around ⟨0, 55⟩
    (.newExpression (some websiteType) (some [some (.mk ⟨19, 22⟩ (.stringLiteral "W" .double)), none]))
  have inStatement := inCall.around ⟨0, 56⟩ (.expressionStatement none)
  exact inStatement.around ⟨0, 56⟩ (.program [none])

/-- The domain with its second member for short, and in full. -/
theorem expands_domainObject {k : Text} (other : k ≠ "name") :
    Node.Expands k (domainObject (Node.shorthand ⟨47, 50⟩ ⟨47, 50⟩ k))
      (domainObject (Node.spelledOut ⟨47, 50⟩ ⟨47, 50⟩ k)) := by
  refine .member ⟨34, 52⟩ ⟨47, 50⟩ ⟨47, 50⟩ [_] [] fun p inside isName => ?_
  cases List.mem_singleton.mp inside
  exact other (Option.some.inj isName).symm

/-- The members that are looked for in domains and their providers. -/
theorem Sought.of_domainConfig {t o : Tree} {k : Text} (sought : Sought t k .domainConfig o) :
    k = "name" ∨ k = "dns" ∨ k = "override" := by
  have other {r : Rule} (same : r = .domainConfig) (different : r.id ≠ Rule.domainConfig.id) :
      False := different (congrArg Rule.id same)
  generalize rule : Rule.domainConfig = r at sought
  cases sought with
  | domain isResource found isDomain member => exact member.elim .inl fun isDns => .inr (.inl isDns)
  | provider isResource found isDomain provided isCall member => exact .inr (.inr member)
  | setting => exact (other rule.symm (by decide)).elim
  | reserved => exact (other rule.symm (by decide)).elim
  | link => exact (other rule.symm (by decide)).elim
  | field => exact (other rule.symm (by decide)).elim

/-- No rule asks for the member `www` of a domain.  That its DNS provider is missing
is reported in either spelling. -/
theorem Rule.detect_expanded_website :
    let short := website "www" (domainObject (Node.shorthand ⟨47, 50⟩ ⟨47, 50⟩ "www"))
    let full := website "www" (domainObject (Node.spelledOut ⟨47, 50⟩ ⟨47, 50⟩ "www"))
    (domainConfig.detect short).map (·.map Violation.code) = .ok ["SST-VAL-012"]
      ∧ domainConfig.detect full = domainConfig.detect short := by
  intro short full
  have unsought {t o : Tree} : ¬ Sought t "www" domainConfig o := by
    intro sought
    have names := sought.of_domainConfig
    revert names
    decide
  have isBuiltIn : domainConfig ∈ builtIn := List.mem_cons_of_mem _ (List.mem_cons_self ..)
  exact ⟨by decide +kernel, Rule.detect_expanded isBuiltIn short
    (expands_domainObject (by decide)) (replaces_website "www" _ _) unsought⟩

/-- **A shorthand provider is not seen.**  The domain `{ name: "x", dns }` is reported as one
without a provider; when it is spelled out, the same domain is not. -/
theorem Rule.not_detect_expanded :
    ¬ ∀ r ∈ builtIn, ∀ (s : Source) (k : Text) (o o' t' : Tree), Node.Expands k o o' →
        Node.Replaces o o' s.tree t' → ∀ reports reports', r.detect s = .ok reports →
        r.detect { s with tree := t' } = .ok reports' →
        (reports'.map Violation.code).Perm (reports.map Violation.code) := by
  intro all
  let short := website "dns" (domainObject (Node.shorthand ⟨47, 50⟩ ⟨47, 50⟩ "dns"))
  let full := website "dns" (domainObject (Node.spelledOut ⟨47, 50⟩ ⟨47, 50⟩ "dns"))
  have evaluated : (Rule.domainConfig.detect short).toOption.any (fun reports =>
      (Rule.domainConfig.detect full).toOption.any fun reports' =>
        reports.length = 1 && reports'.length = 0) = true := by
    decide +kernel
  obtain ⟨reports, reported, evaluated⟩ := exists_ok_of_any evaluated
  obtain ⟨reports', reported', evaluated⟩ := exists_ok_of_any evaluated
  simp only [Bool.and_eq_true, decide_eq_true_eq] at evaluated
  have isBuiltIn : domainConfig ∈ builtIn := List.mem_cons_of_mem _ (List.mem_cons_self ..)
  have same := (all domainConfig isBuiltIn short "dns" _ _ _ (expands_domainObject (by decide))
    (replaces_website "dns" _ _) reports reports' reported reported').length_eq
  rw [List.length_map, List.length_map] at same
  omega

end StackLint
