/-
  StackLint.Proofs.Rule.Found
  ───────────────────────────
  **WHAT IS BEHIND A VIOLATION.**

  Every violation has a code of the rule that found it, and it stands where a
  node begins.  For violations whose fix is made in the place of that node, or of
  its key, it is said which node this is and what the fix puts there.  A fix that is
  safe to apply unseen is proposed for what it is meant to settle.
-/
import Mathlib.Data.List.Nodup
import Mathlib.Data.List.Pairwise
import StackLint.Detector
import StackLint.Proofs.Except
import StackLint.Proofs.Tree.Preorder

namespace StackLint

/-! ## §1. Violations and fixes. -/

/-- The violation with the given code and fix stands where the node begins. -/
structure Violation.StandsAt (v : Violation) (s : Source) (n : Tree) (code : Text)
    (fix : Option Fix) : Prop where
  code_eq : v.code = code
  fix_eq : v.fix = fix
  line : v.line = (s.position n.info.start).line
  column : v.column = (s.position n.info.start).column

/-- The severity does not matter to where a violation stands. -/
theorem Violation.StandsAt.withSeverity {v v' : Violation} {s : Source} {n : Tree} {code : Text}
    {fix : Option Fix} (stands : v'.StandsAt s n code fix)
    (same : v = { v' with severity := v.severity }) : v.StandsAt s n code fix := by
  rw [same]
  exact ⟨stands.code_eq, stands.fix_eq, stands.line, stands.column⟩

/-- The fix puts the new code in the place of the node. -/
structure Fix.Replaces (f : Fix) (n : Tree) (newCode : Text) : Prop where
  start : f.start = n.info.start
  stop : f.stop = n.info.stop
  newCode_eq : f.newCode = newCode

namespace Source

variable {s : Source} {n : Tree}

theorem standsAt_of_violation {code resource property message : Text} {severity : Severity}
    {fix : Option Fix} {v : Violation}
    (h : s.violation code n resource property message severity fix = .ok v) :
    v.StandsAt s n code fix := by
  unfold Source.violation at h
  split at h
  · cases h
  · cases h
    exact ⟨rfl, rfl, rfl, rfl⟩

theorem eq_of_fix {start stop : Nat} {newCode description : Text} {confidence : Confidence}
    {f : Fix} (h : s.fix start stop newCode confidence description = .ok f) :
    f.start = start ∧ f.stop = stop ∧ f.newCode = newCode := by
  unfold Source.fix Fix.make at h
  split at h
  · next f' made =>
      cases h
      split at made
      · cases made
        exact ⟨Int.toNat_natCast _, Int.toNat_natCast _, rfl⟩
      · cases made
  · cases h

theorem replaces_of_replace {newCode description : Text} {confidence : Confidence} {f : Fix}
    (h : s.replace n newCode confidence description = .ok f) : f.Replaces n newCode := by
  obtain ⟨start, stop, newCode_eq⟩ := eq_of_fix h
  exact ⟨start, stop, newCode_eq⟩

end Source

/-- Two branches that go on in the same way. -/
theorem exists_of_ite_bind {α β : Type} {c : Prop} [Decidable c] {first second : Check α}
    {next : α → Check β} {b : β} (h : (if c then first >>= next else second >>= next) = .ok b) :
    ∃ a, (if c then first else second) = .ok a ∧ next a = .ok b := by
  by_cases yes : c
  · rw [if_pos yes] at h ⊢
    exact bind_eq_ok.mp h
  · rw [if_neg yes] at h ⊢
    exact bind_eq_ok.mp h

/-- What comes of one check after the other. -/
theorem exists_of_mem_mapM {α β : Type} {check : α → Check β} {as : List α} {bs : List β}
    (h : as.mapM check = .ok bs) {b : β} (inside : b ∈ bs) : ∃ a ∈ as, check a = .ok b := by
  induction as generalizing bs with
  | nil =>
      cases h
      exact absurd inside List.not_mem_nil
  | cons a as ih =>
      rw [List.mapM_cons] at h
      obtain ⟨b', first, h⟩ := bind_eq_ok.mp h
      obtain ⟨bs', others, h⟩ := bind_eq_ok.mp h
      cases h
      rcases List.mem_cons.mp inside with rfl | inside
      · exact ⟨a, List.mem_cons_self .., first⟩
      · obtain ⟨a', isInput, isOk⟩ := ih others inside
        exact ⟨a', List.mem_cons_of_mem _ isInput, isOk⟩

/-- A violation among the reports of several checks. -/
theorem exists_of_reported {α : Type} {check : α → Check (Option Violation)} {as : List α}
    {found : List Violation} (h : (do return (← as.mapM check).filterMap id) = .ok found)
    {v : Violation} (inside : v ∈ found) : ∃ a ∈ as, check a = .ok (some v) := by
  obtain ⟨reports, isOk, h⟩ := bind_eq_ok.mp h
  cases h
  obtain ⟨report, isReport, isSome⟩ := List.mem_filterMap.mp inside
  obtain rfl : report = some v := isSome
  exact exists_of_mem_mapM isOk isReport

theorem exists_of_reportedAll {α : Type} {check : α → Check (List Violation)} {as : List α}
    {found : List Violation} (h : (do return (← as.mapM check).flatten) = .ok found)
    {v : Violation} (inside : v ∈ found) : ∃ a ∈ as, ∃ reports, check a = .ok reports ∧ v ∈ reports := by
  obtain ⟨all, isOk, h⟩ := bind_eq_ok.mp h
  cases h
  obtain ⟨reports, isReports, inside⟩ := List.mem_flatten.mp inside
  obtain ⟨a, isInput, isOk⟩ := exists_of_mem_mapM isOk isReports
  exact ⟨a, isInput, reports, isOk, inside⟩

/-! ## §2. Stages. -/

namespace StageVariable

variable {s : Source} {v : Violation}

/-- The violation is about an access to `input.stage`, which its fix replaces. -/
inductive InputStage (s : Source) (v : Violation) : Prop where
  | mk {n object name : Tree} {optional : Bool} {f : Fix} (inside : n ∈ s.tree.preorder)
      (form : n.form = .propertyAccess object name optional)
      (isStage : name.identifierName? = some "stage")
      (isInput : object.unwrap.identifierName? = some "input")
      (stands : v.StandsAt s n "SST-VAL-001" (some f)) (replaces : f.Replaces n stageSource)

theorem inputStage_of_checkInputStage {visit : Visit Span} {object name : Tree} {optional : Bool}
    (inside : visit.node ∈ s.tree.preorder)
    (form : visit.node.form = .propertyAccess object name optional)
    (h : checkInputStage s visit object name = .ok (some v)) : InputStage s v := by
  unfold checkInputStage at h
  by_cases isStage : name.identifierName? = some "stage"
  · by_cases isInput : object.unwrap.identifierName? = some "input"
    · rw [if_neg (not_not_intro isStage), if_neg (not_not_intro isInput)] at h
      simp only at h
      split at h
      · cases h
      · obtain ⟨f, made, h⟩ := bind_eq_ok.mp h
        obtain ⟨v', made', h⟩ := bind_eq_ok.mp h
        cases h
        exact ⟨inside, form, isStage, isInput, Source.standsAt_of_violation made',
          Source.replaces_of_replace made⟩
    · rw [if_neg (not_not_intro isStage), if_pos isInput] at h
      cases h
  · rw [if_pos isStage] at h
    cases h

/-- The violation is about parameters that a function never receives, which its fix takes
away. -/
inductive RunSignature (s : Source) (v : Violation) : Prop where
  | mk {n : Tree} {params : List Tree} {info : FunctionInfo} {span : Span} {f : Fix}
      (inside : n ∈ s.tree.preorder) (isFunction : n.function? = some (params, info))
      (nonempty : params ≠ []) (isSpan : parametersSpan params info = some span)
      (stands : v.StandsAt s n "SST-VAL-002" (some f)) (start : f.start = span.start)
      (newCode_eq : f.newCode = "()")

theorem runSignature_of_checkRunSignature {visit : Visit Span} {params : List Tree}
    {info : FunctionInfo} (inside : visit.node ∈ s.tree.preorder)
    (isFunction : visit.node.function? = some (params, info))
    (h : checkRunSignature s visit params info = .ok (some v)) : RunSignature s v := by
  unfold checkRunSignature at h
  split at h
  · cases h
  next nonempty =>
  split at h
  · cases h
  split at h
  · cases h
  · next span isSpan =>
      obtain ⟨f, made, h⟩ := bind_eq_ok.mp h
      obtain ⟨v', made', h⟩ := bind_eq_ok.mp h
      cases h
      obtain ⟨start, _, newCode_eq⟩ := Source.eq_of_fix made
      exact ⟨inside, isFunction, fun empty => nonempty (empty ▸ rfl), isSpan,
        Source.standsAt_of_violation made', start, newCode_eq⟩

/-- The violation is about a variable with a constant stage, which its fix replaces. -/
inductive HardcodedStage (s : Source) (v : Violation) : Prop where
  | mk {n target value : Tree} {stage : Text} {f : Fix} (inside : n ∈ s.tree.preorder)
      (form : n.form = .variableDeclarator target (some value))
      (isStage : target.identifierName? = some "stage")
      (isStatic : value.staticString? = some stage)
      (stands : v.StandsAt s n "SST-VAL-003" (some f)) (replaces : f.Replaces value stageSource)

theorem hardcodedStage_of_checkHardcodedStage {node target value : Tree}
    (inside : node ∈ s.tree.preorder) (form : node.form = .variableDeclarator target (some value))
    (h : checkHardcodedStage s node target value = .ok (some v)) : HardcodedStage s v := by
  unfold checkHardcodedStage at h
  by_cases isStage : target.identifierName? = some "stage"
  · rw [if_neg (not_not_intro isStage)] at h
    split at h
    · cases h
    · next stage isStatic =>
        split at h
        · obtain ⟨f, made, h⟩ := bind_eq_ok.mp h
          obtain ⟨v', made', h⟩ := bind_eq_ok.mp h
          cases h
          exact ⟨inside, form, isStage, isStatic, Source.standsAt_of_violation made',
            Source.replaces_of_replace made⟩
        · cases h
  · rw [if_pos isStage] at h
    cases h

theorem found {found : List Violation} (h : detect s = .ok found) (inside : v ∈ found) :
    InputStage s v ∨ RunSignature s v ∨ HardcodedStage s v := by
  obtain ⟨visit, isVisit, h⟩ := exists_of_reported h inside
  have inTree := Node.node_mem_preorder isVisit
  unfold check at h
  split at h
  · next object name optional form => exact .inl (inputStage_of_checkInputStage inTree form h)
  · next target value form =>
      exact .inr (.inr (hardcodedStage_of_checkHardcodedStage inTree form h))
  · split at h
    · next params info isFunction =>
        exact .inr (.inl (runSignature_of_checkRunSignature inTree isFunction h))
    · cases h

end StageVariable

/-! ## §3. CORS settings. -/

namespace CorsConfig

variable {s : Source} {v : Violation}

/-- No misspelling shares its code with another one. -/
theorem eq_of_code_eq {m m' : Misspelling} (known : m ∈ misspellings) (known' : m' ∈ misspellings)
    (same : m'.code = m.code) : m' = m := by
  unfold misspellings at known known'
  simp only [List.mem_cons, List.not_mem_nil, or_false] at known known'
  rcases known with rfl | rfl | rfl <;> rcases known' with rfl | rfl | rfl <;>
    first | exact absurd same (by decide) | rfl

/-- The violation is about a misspelled key, which its fix replaces. -/
inductive MisspelledKey (s : Source) (v : Violation) : Prop where
  | mk {m : Misspelling} {p : Node.Property Span} {f : Fix} (known : m ∈ misspellings)
      (isProperty : Node.IsPropertyOf p s.tree) (isWrong : p.key.keyName? = some m.wrong)
      (stands : v.StandsAt s p.node m.code (some f))
      (replaces : f.Replaces p.key (renamedKey p.key m.correct))

theorem misspelledKey_of_checkProperty {label : Text} {p : Node.Property Span}
    (isProperty : Node.IsPropertyOf p s.tree) (h : checkProperty s label p = .ok (some v)) :
    MisspelledKey s v := by
  unfold checkProperty at h
  split at h
  · cases h
  · next m found =>
      have isWrong := List.find?_some found
      obtain ⟨f, made, h⟩ := bind_eq_ok.mp h
      obtain ⟨v', made', h⟩ := bind_eq_ok.mp h
      cases h
      exact ⟨List.mem_of_find?_eq_some found, isProperty, of_decide_eq_true isWrong,
        Source.standsAt_of_violation made', Source.replaces_of_replace made⟩

/-- The violation is about settings that are a list, which its fix replaces if there is one. -/
inductive CorsList (s : Source) (v : Violation) : Prop where
  | mk {p : Node.Property Span} {elements : List (Option Tree)} {fix : Option Fix}
      (isProperty : Node.IsPropertyOf p s.tree) (isCors : p.key.keyName? = some "cors")
      (form : p.value.unwrap.form = .arrayLiteral elements)
      (stands : v.StandsAt s p.node "SST-VAL-024" fix)
      (replaces : ∀ f ∈ fix, f.start = p.value.unwrap.info.start)

theorem start_of_arrayFix? {array : Tree} {elements : List (Option Tree)} {fix : Option Fix}
    (h : arrayFix? s array elements = .ok fix) : ∀ f ∈ fix, f.start = array.info.start := by
  unfold arrayFix? at h
  split at h
  · split at h
    · obtain ⟨f, made, h⟩ := bind_eq_ok.mp h
      cases h
      rintro _ ⟨⟩
      exact (Source.replaces_of_replace made).start
    · cases h
      exact fun _ never => nomatch never
  · cases h
    exact fun _ never => nomatch never

theorem found {found : List Violation} (h : detect s = .ok found) (inside : v ∈ found) :
    MisspelledKey s v ∨ CorsList s v := by
  obtain ⟨r, isResource, reports, h, inside⟩ := exists_of_reportedAll h inside
  unfold checkResource at h
  split at h
  · cases h
    exact absurd inside List.not_mem_nil
  · next cors found =>
      have isProperty := Resource.isPropertyOf_of_findProperty? isResource found
      simp only at h
      split at h
      · next elements form =>
          obtain ⟨fix, offered, h⟩ := bind_eq_ok.mp h
          obtain ⟨v', made, h⟩ := bind_eq_ok.mp h
          cases h
          rw [List.mem_singleton.mp inside]
          exact .inr ⟨isProperty, Resource.keyName?_of_findProperty? found, form,
            Source.standsAt_of_violation made, start_of_arrayFix? offered⟩
      · next members form =>
          obtain ⟨p, isMember, h⟩ := exists_of_reported h inside
          have below := Node.isPropertyOf_of_mem form isMember
          exact .inl (misspelledKey_of_checkProperty (below.trans isProperty.unwrap_value) h)
      · cases h
        exact absurd inside List.not_mem_nil

end CorsConfig

/-! ## §4. Deferred values. -/

namespace PulumiOutput

variable {s : Source} {v : Violation}

/-- The violation is about an interpolation of a lone value, which its fix
replaces by the value. -/
inductive LoneInterpolation (s : Source) (v : Violation) : Prop where
  | mk {n tag template inner : Tree} {f : Fix} (inside : n ∈ s.tree.preorder)
      (form : n.form = .taggedTemplate tag template)
      (isTag : tag.unwrap.identifierName? = some interpolateTag)
      (lone : loneSubstitution? template = some inner)
      (stands : v.StandsAt s n "SST-VAL-031" (some f)) (replaces : f.Replaces n (s.textOf inner))

theorem loneInterpolation_of_checkInterpolation {n tag template : Tree}
    (inside : n ∈ s.tree.preorder) (form : n.form = .taggedTemplate tag template)
    (h : checkInterpolation s n tag template = .ok (some v)) : LoneInterpolation s v := by
  unfold checkInterpolation at h
  by_cases isTag : tag.unwrap.identifierName? = some interpolateTag
  · rw [if_neg (not_not_intro isTag)] at h
    split at h
    · cases h
    · next inner lone =>
        obtain ⟨f, made, h⟩ := bind_eq_ok.mp h
        obtain ⟨v', made', h⟩ := bind_eq_ok.mp h
        cases h
        exact ⟨inside, form, isTag, lone, Source.standsAt_of_violation made',
          Source.replaces_of_replace made⟩
  · rw [if_pos isTag] at h
    cases h

theorem code_of_checkAddition {visit : Visit Span} (h : checkAddition s visit = .ok (some v)) :
    v.code = "SST-VAL-032" := by
  unfold checkAddition at h
  split at h
  · cases h
  simp only at h
  split at h
  · split at h
    · cases h
    · obtain ⟨f, _, h⟩ := bind_eq_ok.mp h
      obtain ⟨v', made, h⟩ := bind_eq_ok.mp h
      cases h
      exact (Source.standsAt_of_violation made).code_eq
  · cases h

theorem found {found : List Violation} (h : detect s = .ok found) (inside : v ∈ found) :
    LoneInterpolation s v ∨ v.code = "SST-VAL-032" := by
  obtain ⟨visit, isVisit, h⟩ := exists_of_reported h inside
  unfold check at h
  split at h
  · next tag template form =>
      exact .inl (loneInterpolation_of_checkInterpolation (Node.node_mem_preorder isVisit) form h)
  · exact .inr (code_of_checkAddition h)
  · cases h

end PulumiOutput

/-! ## §5. The other rules. -/

namespace DomainConfig

variable {s : Source} {v : Violation}

theorem code_of_checkGuard {test : Tree} {label : Text}
    (h : checkGuard s test label = .ok (some v)) : v.code = "SST-VAL-011" := by
  unfold checkGuard at h
  split at h
  · split at h
    · split at h
      · cases h
      · obtain ⟨f, _, h⟩ := bind_eq_ok.mp h
        obtain ⟨v', made, h⟩ := bind_eq_ok.mp h
        cases h
        exact (Source.standsAt_of_violation made).code_eq
    · cases h
  · cases h

theorem code_of_checkDns {label : Text} {domain : Tree}
    (h : checkDns s label domain = .ok (some v)) :
    v.code = "SST-VAL-012" ∨ v.code = "SST-VAL-012a" := by
  unfold checkDns at h
  split at h
  · split at h
    · obtain ⟨f, _, h⟩ := bind_eq_ok.mp h
      obtain ⟨v', made, h⟩ := bind_eq_ok.mp h
      cases h
      exact .inl (Source.standsAt_of_violation made).code_eq
    · simp only at h
      split at h
      · cases h
      · obtain ⟨fix, _, h⟩ := bind_eq_ok.mp h
        obtain ⟨v', made, h⟩ := bind_eq_ok.mp h
        cases h
        exact .inr (Source.standsAt_of_violation made).code_eq
  · cases h

theorem found {found : List Violation} (h : detect s = .ok found) (inside : v ∈ found) :
    v.code ∈ Rule.domainConfig.codes := by
  have ofDns {label : Text} {domain : Tree} (h : checkDns s label domain = .ok (some v)) :
      v.code ∈ Rule.domainConfig.codes := by
    rcases code_of_checkDns h with same | same <;> rw [same] <;> decide
  obtain ⟨r, _, reports, h, inside⟩ := exists_of_reportedAll h inside
  unfold checkResource at h
  split at h
  · cases h
    exact absurd inside List.not_mem_nil
  · simp only at h
    split at h
    · obtain ⟨guard, isGuard, h⟩ := bind_eq_ok.mp h
      obtain ⟨branches, isOk, h⟩ := bind_eq_ok.mp h
      cases h
      obtain ⟨report, isReport, isSome⟩ := List.mem_filterMap.mp inside
      obtain rfl : report = some v := isSome
      rcases List.mem_cons.mp isReport with rfl | isReport
      · rw [code_of_checkGuard isGuard]
        decide
      · obtain ⟨_, _, h⟩ := exists_of_mem_mapM isOk isReport
        exact ofDns h
    · obtain ⟨report, isOk, h⟩ := bind_eq_ok.mp h
      cases h
      obtain rfl := Option.mem_toList.mp inside
      exact ofDns isOk

end DomainConfig

namespace EnvVariable

variable {s : Source} {v : Violation}

theorem code_of_checkNamed {label name : Text} {p : Node.Property Span}
    (h : checkNamed s label p name = .ok (some v)) : v.code ∈ Rule.envVariable.codes := by
  have ofViolation {code message : Text} {fix : Option Fix}
      (known : code ∈ Rule.envVariable.codes)
      (h : some <$> s.violation code p.node label ("environment." ++ name) message .error fix
        = .ok (some v)) : v.code ∈ Rule.envVariable.codes := by
    cases made : s.violation code p.node label ("environment." ++ name) message .error fix with
    | error failure =>
        rw [made] at h
        cases h
    | ok v' =>
        rw [made] at h
        cases h
        rw [(Source.standsAt_of_violation made).code_eq]
        exact known
  unfold checkNamed at h
  simp only at h
  split at h
  · exact ofViolation (by decide) h
  split at h
  · obtain ⟨fix, _, h⟩ := bind_eq_ok.mp h
    exact ofViolation (by decide) h
  split at h
  · obtain ⟨fix, _, h⟩ := bind_eq_ok.mp h
    exact ofViolation (by decide) h
  · cases h

theorem found {found : List Violation} (h : detect s = .ok found) (inside : v ∈ found) :
    v.code ∈ Rule.envVariable.codes := by
  obtain ⟨r, _, reports, h, inside⟩ := exists_of_reportedAll h inside
  unfold checkFunction at h
  split at h
  · cases h
    exact absurd inside List.not_mem_nil
  · obtain ⟨p, _, h⟩ := exists_of_reported h inside
    unfold checkProperty at h
    split at h
    · cases h
    · cases h
    · exact code_of_checkNamed h

end EnvVariable

namespace ResourceDependency

variable {s : Source} {v : Violation}

theorem code_of_checkLink {b target : Binding} {reports : List Violation}
    (h : checkLink s b target = .ok reports) (inside : v ∈ reports) :
    v.code ∈ Rule.resourceDependency.codes := by
  have ofViolation {code message : Text} {c : Prop} [Decidable c] {reports : List Violation}
      (known : code ∈ Rule.resourceDependency.codes)
      (h : (if c then
          List.singleton <$> s.violation code b.node b.name "link" message .error none
        else pure []) = .ok reports) (inside : v ∈ reports) :
      v.code ∈ Rule.resourceDependency.codes := by
    split at h
    · cases made : s.violation code b.node b.name "link" message .error none with
      | error failure =>
          rw [made] at h
          cases h
      | ok v' =>
          rw [made] at h
          cases h
          rw [List.mem_singleton.mp inside, (Source.standsAt_of_violation made).code_eq]
          exact known
    · cases h
      exact absurd inside List.not_mem_nil
  unfold checkLink at h
  obtain ⟨circular, isCircular, h⟩ := exists_of_ite_bind h
  obtain ⟨early, isEarly, h⟩ := exists_of_ite_bind h
  cases h
  rcases List.mem_append.mp inside with inside | inside
  · exact ofViolation (by decide) isCircular inside
  · exact ofViolation (by decide) isEarly inside

theorem found {found : List Violation} (h : detect s = .ok found) (inside : v ∈ found) :
    v.code ∈ Rule.resourceDependency.codes := by
  obtain ⟨b, _, reports, h, inside⟩ := exists_of_reportedAll h inside
  obtain ⟨target, _, reports, h, inside⟩ := exists_of_reportedAll h inside
  exact code_of_checkLink h inside

end ResourceDependency

namespace DynamoIndexing

variable {s : Source} {v : Violation}

theorem found {found : List Violation} (h : detect s = .ok found) (inside : v ∈ found) :
    v.code = "SST-VAL-061" := by
  obtain ⟨r, _, h⟩ := exists_of_reported h inside
  unfold checkTable at h
  split at h
  · cases h
  split at h
  · cases h
  · unfold checkFields at h
    simp only at h
    split at h
    · cases h
    · obtain ⟨fix, _, h⟩ := bind_eq_ok.mp h
      obtain ⟨v', made, h⟩ := bind_eq_ok.mp h
      cases h
      exact (Source.standsAt_of_violation made).code_eq

end DynamoIndexing

/-! ## §6. All built-in rules. -/

/-- **Every rule reports codes of its own.** -/
theorem Rule.code_mem_codes {r : Rule} (isBuiltIn : r ∈ builtIn) {s : Source}
    {found : List Violation} (h : r.detect s = .ok found) {v : Violation} (inside : v ∈ found) :
    v.code ∈ r.codes := by
  unfold builtIn at isBuiltIn
  simp only [List.mem_cons, List.not_mem_nil, or_false] at isBuiltIn
  rcases isBuiltIn with rfl | rfl | rfl | rfl | rfl | rfl | rfl
  · rcases StageVariable.found h inside with ⟨_, _, _, _, stands, _⟩ | ⟨_, _, _, _, stands, _, _⟩
      | ⟨_, _, _, _, stands, _⟩ <;> rw [stands.code_eq] <;> decide
  · exact DomainConfig.found h inside
  · rcases CorsConfig.found h inside with ⟨known, _, _, stands, _⟩ | ⟨_, _, _, stands, _⟩
    · rw [stands.code_eq]
      unfold CorsConfig.misspellings at known
      simp only [List.mem_cons, List.not_mem_nil, or_false] at known
      rcases known with rfl | rfl | rfl <;> decide
    · rw [stands.code_eq]
      decide
  · exact EnvVariable.found h inside
  · rcases PulumiOutput.found h inside with ⟨_, _, _, _, stands, _⟩ | same
    · rw [stands.code_eq]
      decide
    · rw [same]
      decide
  · exact ResourceDependency.found h inside
  · rw [DynamoIndexing.found h inside]
    decide

theorem Rule.codes_nodup : (builtIn.flatMap Rule.codes).Nodup := by
  have written : builtIn.flatMap Rule.codes
      = ["SST-VAL-001", "SST-VAL-002", "SST-VAL-003", "SST-VAL-011", "SST-VAL-012", "SST-VAL-012a",
         "SST-VAL-021", "SST-VAL-022", "SST-VAL-023", "SST-VAL-024", "SST-VAL-041", "SST-VAL-042",
         "SST-VAL-043", "SST-VAL-031", "SST-VAL-032", "SST-VAL-051", "SST-VAL-052",
         "SST-VAL-061"].map Text.ofString := rfl
  rw [written]
  exact List.Nodup.map (fun _ _ => Text.ofString_injective) (by decide)

/-- **No two rules share a code.** -/
theorem Rule.eq_of_mem_codes {r r' : Rule} (isBuiltIn : r ∈ builtIn) (isBuiltIn' : r' ∈ builtIn)
    {code : Text} (h : code ∈ r.codes) (h' : code ∈ r'.codes) : r = r' := by
  by_contra differ
  have apart := (List.nodup_flatMap.mp codes_nodup).2
  have symm : Std.Symm (Function.onFun List.Disjoint Rule.codes) :=
    ⟨fun _ _ disjoint _ mem mem' => disjoint mem' mem⟩
  exact apart.forall isBuiltIn isBuiltIn' differ h h'

/-- What is reported of a run was found by its rule, but for the severity. -/
theorem RuleRun.exists_found {settings : Settings} {run : RuleRun} {v : Violation}
    (inside : v ∈ run.reported settings) :
    ∃ found, run.outcome = .found found ∧ ∃ v' ∈ found, v = { v' with severity := v.severity } := by
  unfold reported at inside
  split at inside
  · next found isFound =>
      refine ⟨found, isFound, ?_⟩
      simp only at inside
      split at inside
      · exact ⟨v, (List.mem_filter.mp inside).1, rfl⟩
      · obtain ⟨v', isHeard, rfl⟩ := List.mem_map.mp inside
        exact ⟨v', (List.mem_filter.mp isHeard).1, rfl⟩
  · exact absurd inside List.not_mem_nil

namespace Detector

variable {settings : Settings} {s : Source} {detection : Detection} {v : Violation}

/-- **A violation of a detection was found by the rule that has its code.** -/
theorem exists_found {r : Rule} (isBuiltIn : r ∈ Rule.builtIn) (code : v.code ∈ r.codes)
    (h : (builtIn settings).detect s = .ok detection) (inside : v ∈ detection.violations) :
    ∃ found, r.detect s = .ok found ∧ ∃ v' ∈ found, v = { v' with severity := v.severity } := by
  unfold detect at h
  simp only at h
  split at h
  · cases h
  · cases h
    obtain ⟨run, isRun, inside⟩ := List.mem_flatMap.mp inside
    obtain ⟨r', isRule, rfl⟩ := List.mem_map.mp isRun
    obtain ⟨found, outcome, v', inside, same⟩ := RuleRun.exists_found inside
    have isOk : r'.detect s = .ok found := by
      unfold Detector.run at outcome
      simp only at outcome
      split at outcome
      · split at outcome
        · next isOk =>
            cases outcome
            exact isOk
        · cases outcome
      · cases outcome
    have code' := Rule.code_mem_codes isRule isOk inside
    rw [same] at code
    obtain rfl := Rule.eq_of_mem_codes isRule isBuiltIn code' code
    exact ⟨found, isOk, v', inside, same⟩

/-- A violation with a code of the stages. -/
theorem stage_of_code (h : (builtIn settings).detect s = .ok detection)
    (inside : v ∈ detection.violations) (isCode : v.code ∈ Rule.stageVariable.codes) :
    (v.code = "SST-VAL-001" ∧ StageVariable.InputStage s v)
      ∨ (v.code = "SST-VAL-002" ∧ StageVariable.RunSignature s v)
      ∨ (v.code = "SST-VAL-003" ∧ StageVariable.HardcodedStage s v) := by
  obtain ⟨found, isOk, v', inside, same⟩ := exists_found (by simp [Rule.builtIn]) isCode h inside
  rcases StageVariable.found isOk inside with
    ⟨inside, form, isStage, isInput, stands, replaces⟩
    | ⟨inside, isFunction, nonempty, isSpan, stands, start, newCode_eq⟩
    | ⟨inside, form, isStage, isStatic, stands, replaces⟩
  · have stands := stands.withSeverity same
    exact .inl ⟨stands.code_eq, inside, form, isStage, isInput, stands, replaces⟩
  · have stands := stands.withSeverity same
    exact .inr (.inl ⟨stands.code_eq, inside, isFunction, nonempty, isSpan, stands, start, newCode_eq⟩)
  · have stands := stands.withSeverity same
    exact .inr (.inr ⟨stands.code_eq, inside, form, isStage, isStatic, stands, replaces⟩)

theorem inputStage_of_code (h : (builtIn settings).detect s = .ok detection)
    (inside : v ∈ detection.violations) (code : v.code = "SST-VAL-001") :
    StageVariable.InputStage s v := by
  rcases stage_of_code h inside (code ▸ by decide) with ⟨_, found⟩ | ⟨other, _⟩ | ⟨other, _⟩
  · exact found
  · exact absurd (code.symm.trans other) (by decide)
  · exact absurd (code.symm.trans other) (by decide)

theorem runSignature_of_code (h : (builtIn settings).detect s = .ok detection)
    (inside : v ∈ detection.violations) (code : v.code = "SST-VAL-002") :
    StageVariable.RunSignature s v := by
  rcases stage_of_code h inside (code ▸ by decide) with ⟨other, _⟩ | ⟨_, found⟩ | ⟨other, _⟩
  · exact absurd (code.symm.trans other) (by decide)
  · exact found
  · exact absurd (code.symm.trans other) (by decide)

theorem hardcodedStage_of_code (h : (builtIn settings).detect s = .ok detection)
    (inside : v ∈ detection.violations) (code : v.code = "SST-VAL-003") :
    StageVariable.HardcodedStage s v := by
  rcases stage_of_code h inside (code ▸ by decide) with ⟨other, _⟩ | ⟨other, _⟩ | ⟨_, found⟩
  · exact absurd (code.symm.trans other) (by decide)
  · exact absurd (code.symm.trans other) (by decide)
  · exact found

/-- A violation with a code of the CORS settings. -/
theorem cors_of_code (h : (builtIn settings).detect s = .ok detection)
    (inside : v ∈ detection.violations) (isCode : v.code ∈ Rule.corsConfig.codes) :
    (v.code ∈ CorsConfig.misspellings.map CorsConfig.Misspelling.code
        ∧ CorsConfig.MisspelledKey s v)
      ∨ (v.code = "SST-VAL-024" ∧ CorsConfig.CorsList s v) := by
  obtain ⟨found, isOk, v', inside, same⟩ := exists_found (by simp [Rule.builtIn]) isCode h inside
  rcases CorsConfig.found isOk inside with
    ⟨known, isProperty, isWrong, stands, replaces⟩ | ⟨isProperty, isCors, form, stands, replaces⟩
  · have stands := stands.withSeverity same
    have isCode : v.code ∈ CorsConfig.misspellings.map CorsConfig.Misspelling.code := by
      rw [stands.code_eq]
      exact List.mem_map_of_mem known
    exact .inl ⟨isCode, known, isProperty, isWrong, stands, replaces⟩
  · have stands := stands.withSeverity same
    exact .inr ⟨stands.code_eq, isProperty, isCors, form, stands, replaces⟩

theorem misspelledKey_of_code (h : (builtIn settings).detect s = .ok detection)
    (inside : v ∈ detection.violations)
    (code : v.code ∈ CorsConfig.misspellings.map CorsConfig.Misspelling.code) :
    CorsConfig.MisspelledKey s v := by
  have isCode : v.code ∈ Rule.corsConfig.codes :=
    (by decide : ∀ c ∈ CorsConfig.misspellings.map CorsConfig.Misspelling.code,
      c ∈ Rule.corsConfig.codes) _ code
  rcases cors_of_code h inside isCode with ⟨_, found⟩ | ⟨other, _⟩
  · exact found
  · rw [other] at code
    exact absurd code (by decide)

theorem corsList_of_code (h : (builtIn settings).detect s = .ok detection)
    (inside : v ∈ detection.violations) (code : v.code = "SST-VAL-024") :
    CorsConfig.CorsList s v := by
  rcases cors_of_code h inside (code ▸ by decide) with ⟨other, _⟩ | ⟨_, found⟩
  · rw [code] at other
    exact absurd other (by decide)
  · exact found

theorem loneInterpolation_of_code (h : (builtIn settings).detect s = .ok detection)
    (inside : v ∈ detection.violations) (code : v.code = "SST-VAL-031") :
    PulumiOutput.LoneInterpolation s v := by
  have isCode : v.code ∈ Rule.pulumiOutput.codes := by
    rw [code]
    decide
  obtain ⟨found, isOk, v', inside, same⟩ := exists_found (by simp [Rule.builtIn]) isCode h inside
  rcases PulumiOutput.found isOk inside with
    ⟨inside, form, isTag, lone, stands, replaces⟩ | other
  · exact ⟨inside, form, isTag, lone, stands.withSeverity same, replaces⟩
  · rw [same, other] at code
    exact absurd code (by decide)

end Detector

/-! ## §7. Proposals. -/

/-- Under the standard settings the built-in rules report the violation on the
source, with a fix that is safe to apply unseen. -/
structure Source.Proposes (s : Source) (v : Violation) (fix : Fix) : Prop where
  reported : ∃ detection, (Detector.builtIn .standard).detect s = .ok detection
    ∧ v ∈ detection.violations
  carried : v.fix = some fix
  safe : fix.confidence = .high

/-- The built-in rules report a violation with the code at the place. -/
def Source.Finds (s : Source) (code : Text) (line column : Int) : Prop :=
  ∃ detection, (Detector.builtIn .standard).detect s = .ok detection
    ∧ ∃ v ∈ detection.violations, v.code = code ∧ v.line = line ∧ v.column = column

/-- Proposals and findings are computed. -/
theorem Source.exists_proposes_of_any {s : Source} {p : Violation → Fix → Bool}
    (h : ((Detector.builtIn .standard).detect s).toOption.any (fun detection =>
      detection.violations.any fun v => v.fix.any fun fix => fix.confidence = .high && p v fix)
        = true) :
    ∃ v fix, s.Proposes v fix ∧ p v fix = true := by
  obtain ⟨detection, detected, h⟩ := exists_ok_of_any h
  obtain ⟨v, inside, h⟩ := List.any_eq_true.mp h
  cases carried : v.fix with
  | none =>
      rw [carried] at h
      cases h
  | some fix =>
      rw [carried] at h
      obtain ⟨safe, holds⟩ := Bool.and_eq_true_iff.mp h
      exact ⟨v, fix, ⟨⟨detection, detected, inside⟩, carried, of_decide_eq_true safe⟩, holds⟩

theorem Source.finds_of_any {s : Source} {code : Text} {line column : Int}
    (h : ((Detector.builtIn .standard).detect s).toOption.any (fun detection =>
      detection.violations.any fun v => v.code = code && v.line = line && v.column = column)
        = true) :
    s.Finds code line column := by
  obtain ⟨detection, detected, h⟩ := exists_ok_of_any h
  obtain ⟨v, inside, h⟩ := List.any_eq_true.mp h
  simp only [Bool.and_eq_true, decide_eq_true_eq] at h
  exact ⟨detection, detected, v, inside, h.1.1, h.1.2, h.2⟩

end StackLint
