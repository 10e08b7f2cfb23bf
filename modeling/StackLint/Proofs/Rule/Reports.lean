/-
  StackLint.Proofs.Rule.Reports
  ─────────────────────────────
  **NO RULE FAILS.**

  Rule by rule, the checks return violations that lie in the text.  Most of them
  replace nodes that are no loose form, or keys that have a name.  The rule on
  domains also inserts: a member behind the last one of an object, and an argument
  in front of the closing parenthesis of a call.
-/
import StackLint.Proofs.Rule.Basic
import StackLint.Rule.CorsConfig
import StackLint.Rule.DomainConfig
import StackLint.Rule.DynamoIndexing
import StackLint.Rule.EnvVariable
import StackLint.Rule.PulumiOutput
import StackLint.Rule.ResourceDependency
import StackLint.Rule.StageVariable

namespace StackLint

/-! ## §1. Stages. -/

namespace StageVariable

variable {s : Source} {L : Layout} {visit : Visit Span}

/-! ### What is replaced. -/

/-- A constant text is written as a literal, in parentheses or not. -/
theorem isSolid_of_staticString? {n : Tree} {value : Text} (h : n.staticString? = some value) :
    n.form.isSolid = true := by
  cases n with
  | mk info form =>
      unfold Node.staticString? at h
      rw [Node.unwrap.eq_def] at h
      cases form <;> first | rfl | cases h

/-- What the kinds of functions have in common. -/
theorem parameters_of_function? {n : Tree} {params : List Tree} {info : FunctionInfo}
    (isFunction : n.function? = some (params, info)) :
    n.form.isLoose = false ∧ n.form.isPlaceholder = false
      ∧ (∀ heard i j, n.form.Details L heard i j →
        ParametersFit L params info.paramsSpan ∧ L.Lists i params)
      ∧ ∀ param ∈ params, param ∈ n.children := by
  unfold Node.function? at isFunction
  unfold Node.children
  split at isFunction
  · next name params' body info' form =>
      cases isFunction
      rw [form]
      refine ⟨rfl, rfl, fun _ _ _ details => details, ?_⟩
      intro param isParam
      exact List.mem_append_left _ (List.mem_append_right _ isParam)
  · next name params' body info' form =>
      cases isFunction
      rw [form]
      refine ⟨rfl, rfl, fun _ _ _ details => details, ?_⟩
      intro param isParam
      exact List.mem_append_left _ (List.mem_append_right _ isParam)
  · next params' body info' form =>
      cases isFunction
      rw [form]
      refine ⟨rfl, rfl, fun _ _ _ details => details, ?_⟩
      intro param isParam
      exact List.mem_append_left _ isParam
  · next key params' body accessor info' form =>
      cases isFunction
      rw [form]
      refine ⟨rfl, rfl, fun _ _ _ details => details, ?_⟩
      intro param isParam
      exact List.mem_append_left _ (List.mem_append_right _ isParam)
  · cases isFunction

/-- The parameters of a function can be replaced. -/
theorem site_parametersSpan (on : s.On L) {n : Tree} {params : List Tree} {info : FunctionInfo}
    {span : Span} (inside : n ∈ s.tree.preorder) (isFunction : n.function? = some (params, info))
    (isSpan : parametersSpan params info = some span) (nonempty : params ≠ []) :
    L.Site span.start span.stop ∧ span.start < span.stop := by
  obtain ⟨strict, noPlaceholder, fit, children⟩ := parameters_of_function? (L := L) isFunction
  obtain ⟨heard, lo, hi, placed⟩ := on.placed_of_strict inside strict
  obtain ⟨i, j, _, _, _, details⟩ := placed.details noPlaceholder
  have fit := (fit heard i j details).1
  unfold parametersSpan at isSpan
  cases written : info.paramsSpan with
  | some span =>
      rw [written] at isSpan fit
      cases isSpan
      exact fit nonempty
  | none =>
      -- Without parentheses the only parameter is replaced.
      rw [written] at isSpan fit
      obtain ⟨param, rfl, wide⟩ := fit
      cases isSpan
      obtain ⟨_, _, place⟩ := placed.of_mem_children (children param (List.mem_singleton_self _))
      exact ⟨place.site wide, wide⟩

/-! ### The checks. -/

theorem checkInputStage_reports (on : s.On L) {object name : Tree} {optional : Bool}
    (inside : visit.node ∈ s.tree.preorder)
    (form : visit.node.form = .propertyAccess object name optional) :
    Reports L (checkInputStage s visit object name) := by
  refine .ite (fun _ => Reports.nothing L) fun _ => ?_
  refine .ite (fun _ => Reports.nothing L) fun _ => ?_
  refine .ite (fun _ => Reports.nothing L) fun _ => ?_
  refine Reports.fixed on (Catalog.find?_isSome 1 rfl) ?_
  exact on.replace_yields (on.site inside (by rw [form]; rfl)) _ _ _

theorem checkRunSignature_reports (on : s.On L) {params : List Tree} {info : FunctionInfo}
    (inside : visit.node ∈ s.tree.preorder)
    (isFunction : visit.node.function? = some (params, info)) :
    Reports L (checkRunSignature s visit params info) := by
  refine .ite (fun _ => Reports.nothing L) fun nonempty => ?_
  refine .ite (fun _ => Reports.nothing L) fun _ => ?_
  rw [List.isEmpty_iff] at nonempty
  split
  · exact Reports.nothing L
  · next span isSpan =>
      refine Reports.fixed on (Catalog.find?_isSome 2 rfl) ?_
      exact on.fix_yields (site_parametersSpan on inside isFunction isSpan nonempty).1 _ _ _

theorem checkHardcodedStage_reports (on : s.On L) {node target value : Tree}
    (inside : value ∈ s.tree.preorder) : Reports L (checkHardcodedStage s node target value) := by
  refine .ite (fun _ => Reports.nothing L) fun _ => ?_
  split
  · exact Reports.nothing L
  · next stage isStatic =>
      refine .ite (fun _ => ?_) fun _ => Reports.nothing L
      refine Reports.fixed on (Catalog.find?_isSome 3 rfl) ?_
      exact on.replace_yields (on.site inside (isSolid_of_staticString? isStatic)) _ _ _

theorem check_reports (on : s.On L) (inside : visit.node ∈ s.tree.preorder) :
    Reports L (check s visit) := by
  unfold check
  split
  · next object name optional form => exact checkInputStage_reports on inside form
  · next target value form =>
      refine checkHardcodedStage_reports on (Node.mem_preorder_trans ?_ inside)
      refine Node.mem_preorder_of_mem_children ?_
      unfold Node.children
      rw [form]
      exact List.mem_cons_of_mem _ (List.mem_cons_self ..)
  · split
    · next params info isFunction => exact checkRunSignature_reports on inside isFunction
    · exact Reports.nothing L

/-- **The rule reports violations that lie in the text.** -/
theorem detect_reports (on : s.On L) : ReportsAll L (detect s) :=
  Reports.mapM fun _ isVisit => check_reports on (Node.node_mem_preorder isVisit)

end StageVariable

/-! ## §2. Domains. -/

namespace DomainConfig

variable {s : Source} {L : Layout}

/-! ### Insertions. -/

/-- The text up to a closing brace can be searched for a comma, and it is found if there is
one. -/
theorem commaEnd?_yields (on : s.On L) {k m j : Nat} (behind : 0 < k)
    (comma : L.AtMost .comma k m) (brace : L.AtMost .closeBrace m j) :
    Yields (commaEnd? s (L.stopBefore k) (L.stopBefore j - 1)) fun place =>
      (∀ p ∈ place, (L.token k).is .comma = true ∧ m = k + 1 ∧ p = L.stopBefore (k + 1))
        ∧ (place = none → m < j → m = k) := by
  obtain ⟨tokens, run, found, notFound⟩ := L.tokenize_seam behind comma brace
  unfold commaEnd?
  rw [← on.text, run]
  refine .pure ⟨?_, fun none => notFound (Option.map_eq_none_iff.mp none)⟩
  intro p isPlace
  obtain ⟨t, isFound, rfl⟩ := Option.map_eq_some_iff.mp isPlace
  exact found t isFound

/-- **Members can be inserted** behind the last one, or behind the comma that
follows it. -/
theorem insertMember_yields (on : s.On L) {object : Tree} {members : List Tree}
    (inside : object ∈ s.tree.preorder) (isObject : object.form = .objectLiteral members)
    (snippet : Text) (confidence : Confidence) (description : Text) :
    Yields (insertMember s object members snippet confidence description) (Fix.Fits L) := by
  obtain ⟨heard, lo, hi, placed⟩ := on.placed_of_strict inside (by rw [isObject]; rfl)
  obtain ⟨_, j, _, stop, within, details⟩ := placed.details (by rw [isObject]; rfl)
  rw [isObject] at details
  unfold insertMember
  split
  · exact on.replace_yields (on.site inside (by rw [isObject]; rfl)) _ _ _
  · next last isLast =>
      obtain ⟨k, m, behind, lastStop, comma, brace, _⟩ := details last isLast
      have before : k ≤ L.size := Nat.le_trans (Nat.le_trans comma.le brace.le) within
      dsimp only
      rw [stop, lastStop]
      refine (commaEnd?_yields on behind comma brace).bind ?_
      intro place found
      split
      · -- The comma is the token `k`, and the member goes behind it.
        next place =>
          obtain ⟨isComma, _, rfl⟩ := found.1 place rfl
          exact on.fix_yields (.behind (Nat.succ_pos k) (Layout.lt_size_of_is isComma)) _ _ _
      · exact on.fix_yields (.behind behind before) _ _ _

theorem form_of_callArguments? {n : Tree} {arguments : List Tree}
    (h : callArguments? n = some arguments) :
    ∃ callee optional, n.form = .call callee arguments optional := by
  unfold callArguments? at h
  split at h
  · next callee arguments' optional form =>
      cases h
      exact ⟨callee, optional, form⟩
  · cases h

/-- The expression of an argument is a node of the tree. -/
theorem unwrap_mem_of_argument {call argument : Tree} {others : List Tree}
    (inside : call ∈ s.tree.preorder) (isCall : callArguments? call = some (argument :: others)) :
    argument.unwrap ∈ s.tree.preorder := by
  obtain ⟨callee, optional, form⟩ := form_of_callArguments? isCall
  refine Node.unwrap_mem_of_mem (Node.mem_preorder_trans ?_ inside)
  refine Node.mem_preorder_of_mem_children ?_
  unfold Node.children
  rw [form]
  exact List.mem_cons_of_mem _ (List.mem_cons_self ..)

/-- The expressions of a conditional are nodes of the tree. -/
theorem unwrap_mem_of_conditional {domain test consequent alternate n : Tree}
    (inside : domain ∈ s.tree.preorder) (form : domain.form = .conditional test consequent alternate)
    (isPart : n ∈ [test, consequent, alternate]) : n.unwrap ∈ s.tree.preorder := by
  refine Node.unwrap_mem_of_mem (Node.mem_preorder_trans ?_ inside)
  refine Node.mem_preorder_of_mem_children ?_
  unfold Node.children
  rw [form]
  exact isPart

/-- So are both of its branches. -/
theorem mem_of_branch {domain test consequent alternate branch : Tree}
    (inside : domain ∈ s.tree.preorder) (form : domain.form = .conditional test consequent alternate)
    (isBranch : branch ∈ [consequent.unwrap, alternate.unwrap]) : branch ∈ s.tree.preorder := by
  rcases List.mem_cons.mp isBranch with rfl | isBranch
  · exact unwrap_mem_of_conditional inside form (by simp)
  · rw [List.mem_singleton.mp isBranch]
    exact unwrap_mem_of_conditional inside form (by simp)

/-- A call without arguments ends with a parenthesis. -/
theorem closing_of_call (on : s.On L) {provider : Tree} (inside : provider ∈ s.tree.preorder)
    (isCall : callArguments? provider = some []) :
    ∃ k c, k < L.size ∧ provider.info.stop - 1 = L.startAt k
      ∧ L.text[L.startAt k]? = some c := by
  obtain ⟨callee, optional, form⟩ := form_of_callArguments? isCall
  obtain ⟨heard, lo, hi, placed⟩ := on.placed_of_strict inside (by rw [form]; rfl)
  obtain ⟨_, j, _, stop, within, details⟩ := placed.details (by rw [form]; rfl)
  rw [form] at details
  obtain ⟨k, rfl, isParen⟩ := details rfl
  rw [stop]
  rcases isParen with isParen | isParen
  · refine ⟨k, .scalar '(', within, ?_, Layout.getElem?_of_is isParen rfl⟩
    rw [(Layout.slice_of_is (c := .scalar '(') isParen rfl).1, Nat.add_sub_cancel]
  · refine ⟨k, .scalar ')', within, ?_, Layout.getElem?_of_is isParen rfl⟩
    rw [(Layout.slice_of_is (c := .scalar ')') isParen rfl).1, Nat.add_sub_cancel]

/-- What does not allow an override has a text. -/
theorem wide_of_not_allows (on : s.On L) {value : Tree} (inside : value ∈ s.tree.preorder)
    (refused : allows s value = false) : value.info.start < value.info.stop := by
  unfold allows at refused
  split at refused
  · next keyword form =>
      obtain ⟨_, _, _, placed⟩ := on.placed_of_strict inside (by rw [form]; rfl)
      exact placed.wide (by rw [form]; rfl)
  · rw [Bool.not_eq_false'] at refused
    refine Text.lt_of_slice (t := s.text) fun empty => ?_
    unfold Source.textOf at refused
    rw [empty] at refused
    cases refused

/-- The override of a provider that refuses one has a text. -/
theorem wide_override (on : s.On L) {provider argument : Tree} {others members : List Tree}
    {override : Node.Property Span} (refuses : hasOverride s provider = false)
    (isCall : callArguments? provider = some (argument :: others))
    (isObject : argument.unwrap.objectMembers? = some members)
    (found : argument.unwrap.findProperty? "override" = some override)
    (inside : override.value.unwrap ∈ s.tree.preorder) :
    override.value.unwrap.info.start < override.value.unwrap.info.stop := by
  have found : argument.findProperty? "override" = some override := by
    unfold Node.findProperty? at found ⊢
    rwa [Node.unwrap_unwrap] at found
  have object : argument.unwrap.isObject = true := by
    unfold Node.isObject
    rw [isObject]
    rfl
  refine wide_of_not_allows on inside ?_
  unfold hasOverride at refuses
  simp only [isCall, object, found, Bool.true_and] at refuses
  exact refuses

/-! ### The checks. -/

theorem checkGuard_reports (on : s.On L) {test : Tree} (inside : test ∈ s.tree.preorder)
    (label : Text) : Reports L (checkGuard s test label) := by
  unfold checkGuard
  split
  · next op left right form =>
      refine .ite (fun _ => ?_) fun _ => Reports.nothing L
      split
      · exact Reports.nothing L
      · refine Reports.fixed on (Catalog.find?_isSome 4 rfl) ?_
        exact on.replace_yields (on.site inside (by rw [form]; rfl)) _ _ _
  · exact Reports.nothing L

theorem overrideFix?_offers (on : s.On L) {provider : Tree}
    (inside : provider ∈ s.tree.preorder) (refuses : hasOverride s provider = false) :
    Offers L (overrideFix? s provider) := by
  unfold overrideFix?
  split
  · exact Offers.nothing L
  · next isCall =>
      obtain ⟨k, c, within, place, isParen⟩ := closing_of_call on inside isCall
      have read : Yields (s.charAt (L.startAt k)) fun _ => True := by
        unfold Source.charAt
        rw [← on.text, isParen]
        exact .pure trivial
      dsimp only
      rw [place]
      refine read.bind fun c _ => ?_
      refine .ite (fun _ => ?_) fun _ => Offers.nothing L
      exact Offers.one (on.fix_yields (.front within) _ _ _)
  · next argument others isCall =>
      dsimp only
      have inside : argument.unwrap ∈ s.tree.preorder := unwrap_mem_of_argument inside isCall
      split
      · exact Offers.nothing L
      · next members isObject =>
          split
          · next override found =>
              have isProperty := (Node.isPropertyOf_of_findProperty? found).trans inside
              have wide := wide_override on refuses isCall isObject found isProperty.unwrap_value
              exact Offers.one (on.replace_yields (on.site_value isProperty wide) _ _ _)
          · have isObject := Node.objectMembers?_eq_some.mp isObject
            exact Offers.one (insertMember_yields on inside isObject _ _ _)

theorem checkDns_reports (on : s.On L) (label : Text) {domain : Tree}
    (inside : domain ∈ s.tree.preorder) : Reports L (checkDns s label domain) := by
  unfold checkDns
  split
  · next members name isObject _ =>
      split
      · have isObject := Node.objectMembers?_eq_some.mp isObject
        refine Reports.fixed on (Catalog.find?_isSome 5 rfl) ?_
        exact insertMember_yields on inside isObject _ _ _
      · next dns found =>
          have isProperty := (Node.isPropertyOf_of_findProperty? found).trans inside
          refine .ite (fun _ => Reports.nothing L) fun refuses => ?_
          refine Reports.offered on (Catalog.find?_isSome 6 rfl) ?_
          exact overrideFix?_offers on isProperty.unwrap_value (Bool.eq_false_iff.mpr refuses)
  · exact Reports.nothing L

/-- A conditional domain is checked in its guard and in both branches. -/
theorem checkConditional_reports (on : s.On L) (label : Text) {domain test consequent alternate : Tree}
    (inside : domain ∈ s.tree.preorder) (form : domain.form = .conditional test consequent alternate) :
    ReportsAll L (do
      let guard ← checkGuard s test.unwrap label
      let branches ← [consequent.unwrap, alternate.unwrap].mapM (checkDns s label)
      return (guard :: branches).filterMap id) := by
  refine (checkGuard_reports on (unwrap_mem_of_conditional inside form (List.mem_cons_self ..))
    label).bind ?_
  intro guard fits
  refine (Yields.mapM fun _ isBranch =>
    checkDns_reports on label (mem_of_branch inside form isBranch)).bind ?_
  intro reports fits'
  -- What is reported comes from the guard or from a branch.
  refine .pure ?_
  intro v inside
  obtain ⟨report, isReport, isSome⟩ := List.mem_filterMap.mp inside
  rcases List.mem_cons.mp isReport with rfl | isReport
  · exact fits v isSome
  · exact fits' report isReport v isSome

theorem checkResource_reports (on : s.On L) {r : Resource Span} (isResource : r ∈ s.tree.resources) :
    ReportsAll L (checkResource s r) := by
  unfold checkResource
  split
  · exact ReportsAll.nothing L
  · next property found =>
      have inside := (Resource.isPropertyOf_of_findProperty? isResource found).unwrap_value
      dsimp only
      split
      · next test consequent alternate form =>
          exact checkConditional_reports on r.label inside form
      · refine (checkDns_reports on r.label inside).bind ?_
        intro report fits
        refine .pure ?_
        intro v isSome
        exact fits v (Option.mem_toList.mp isSome)

/-- **The rule reports violations that lie in the text.** -/
theorem detect_reports (on : s.On L) : ReportsAll L (detect s) :=
  ReportsAll.mapM fun _ isResource =>
    checkResource_reports on (Resource.mem_resources_of_mem_resourcesOf isResource)

end DomainConfig

/-! ## §3. Settings of cross-origin access. -/

namespace CorsConfig

variable {s : Source} {L : Layout}

/-- No misspelling is empty. -/
theorem wrong_ne_nil {m : Misspelling} (h : m ∈ misspellings) : m.wrong ≠ [] := by
  have all : ∀ m ∈ misspellings, m.wrong ≠ [] := by decide
  exact all m h

/-- Every misspelling has a code with an entry in the catalog. -/
theorem find?_code_isSome {m : Misspelling} (h : m ∈ misspellings) :
    (Catalog.find? m.code).isSome = true := by
  unfold misspellings at h
  rcases List.mem_cons.mp h with rfl | h
  · exact Catalog.find?_isSome 7 rfl
  rcases List.mem_cons.mp h with rfl | h
  · exact Catalog.find?_isSome 8 rfl
  rcases List.mem_cons.mp h with rfl | h
  · exact Catalog.find?_isSome 9 rfl
  · exact absurd h List.not_mem_nil

theorem checkProperty_reports (on : s.On L) {label : Text} {property : Node.Property Span}
    (isProperty : Node.IsPropertyOf property s.tree) :
    Reports L (checkProperty s label property) := by
  unfold checkProperty
  split
  · exact Reports.nothing L
  · next m found =>
      have named := List.find?_some found
      have known := List.mem_of_find?_eq_some found
      refine Reports.fixed on (find?_code_isSome known) ?_
      refine on.replace_yields (on.site isProperty.key ?_) _ _ _
      exact Source.isSolid_of_keyName? (of_decide_eq_true named) (wrong_ne_nil known)

theorem arrayFix?_offers (on : s.On L) {array : Tree} {elements : List (Option Tree)}
    (inside : array ∈ s.tree.preorder) (form : array.form = .arrayLiteral elements) :
    Offers L (arrayFix? s array elements) := by
  unfold arrayFix?
  split
  · refine .ite (fun _ => ?_) fun _ => Offers.nothing L
    exact Offers.one (on.replace_yields (on.site inside (by rw [form]; rfl)) _ _ _)
  · exact Offers.nothing L

theorem checkResource_reports (on : s.On L) {r : Resource Span} (isResource : r ∈ s.tree.resources) :
    ReportsAll L (checkResource s r) := by
  unfold checkResource
  split
  · exact ReportsAll.nothing L
  · next cors found =>
      have isProperty := Resource.isPropertyOf_of_findProperty? isResource found
      have inside := isProperty.unwrap_value
      dsimp only
      split
      · next elements form =>
          refine (arrayFix?_offers on inside form).bind ?_
          intro fix fits
          refine (on.violation_yields (Catalog.find?_isSome 10 rfl) _ _ _ _ _ fits).bind ?_
          intro v fits
          refine .pure ?_
          intro v' isOne
          rw [List.mem_singleton.mp isOne]
          exact fits
      · next members form =>
          refine Reports.mapM fun property isMember => checkProperty_reports on ?_
          exact (Node.isPropertyOf_of_mem form isMember).trans inside
      · exact ReportsAll.nothing L

/-- **The rule reports violations that lie in the text.** -/
theorem detect_reports (on : s.On L) : ReportsAll L (detect s) :=
  ReportsAll.mapM fun _ isResource => checkResource_reports on isResource

end CorsConfig

/-! ## §4. Deferred values. -/

namespace PulumiOutput

variable {s : Source} {L : Layout}

theorem checkInterpolation_reports (on : s.On L) {node tag template : Tree}
    (site : L.Site node.info.start node.info.stop) :
    Reports L (checkInterpolation s node tag template) := by
  refine .ite (fun _ => Reports.nothing L) fun _ => ?_
  split
  · exact Reports.nothing L
  · exact Reports.fixed on (Catalog.find?_isSome 11 rfl) (on.replace_yields site _ _ _)

theorem checkAddition_reports (on : s.On L) {visit : Visit Span}
    (site : L.Site visit.node.info.start visit.node.info.stop) :
    Reports L (checkAddition s visit) := by
  refine .ite (fun _ => Reports.nothing L) fun _ => ?_
  refine .ite (fun _ => ?_) fun _ => Reports.nothing L
  refine .ite (fun _ => Reports.nothing L) fun _ => ?_
  exact Reports.fixed on (Catalog.find?_isSome 12 rfl) (on.replace_yields site _ _ _)

theorem check_reports (on : s.On L) {visit : Visit Span} (inside : visit.node ∈ s.tree.preorder) :
    Reports L (check s visit) := by
  unfold check
  split
  · next tag template form =>
      exact checkInterpolation_reports on (on.site inside (by rw [form]; rfl))
  · next left right form => exact checkAddition_reports on (on.site inside (by rw [form]; rfl))
  · exact Reports.nothing L

/-- **The rule reports violations that lie in the text.** -/
theorem detect_reports (on : s.On L) : ReportsAll L (detect s) :=
  Reports.mapM fun _ isVisit => check_reports on (Node.node_mem_preorder isVisit)

end PulumiOutput

/-! ## §5. Environment variables. -/

namespace EnvVariable

variable {s : Source} {L : Layout}

theorem rename?_offers (on : s.On L) {key : Tree} (site : L.Site key.info.start key.info.stop)
    (name description : Text) : Offers L (rename? s key name description) := by
  refine .ite (fun _ => Offers.nothing L) fun _ => ?_
  exact Offers.one (on.replace_yields site _ _ _)

theorem checkNamed_reports (on : s.On L) {property : Node.Property Span}
    (site : L.Site property.key.info.start property.key.info.stop) (label name : Text) :
    Reports L (checkNamed s label property name) := by
  have violation {code : Text} (known : (Catalog.find? code).isSome = true) (message : Text)
      {fix : Option Fix} (fits : ∀ f ∈ fix, f.Fits L) :
      Reports L (some <$> s.violation code property.node label ("environment." ++ name) message
        .error fix) := by
    refine .map ((on.violation_yields known _ _ _ _ _ fits).mono ?_)
    rintro v fits _ ⟨⟩
    exact fits
  refine .ite (fun _ => ?_) fun _ => .ite (fun _ => ?_) fun _ => .ite (fun _ => ?_) fun _ => ?_
  · exact violation (Catalog.find?_isSome 13 rfl) _ nofun
  · refine (rename?_offers on site _ _).bind ?_
    intro fix fits
    exact violation (Catalog.find?_isSome 14 rfl) _ fits
  · refine (rename?_offers on site _ _).bind ?_
    intro fix fits
    exact violation (Catalog.find?_isSome 15 rfl) _ fits
  · exact Reports.nothing L

theorem checkProperty_reports (on : s.On L) {label : Text} {property : Node.Property Span}
    (isProperty : Node.IsPropertyOf property s.tree) :
    Reports L (checkProperty s label property) := by
  unfold checkProperty
  split
  · exact Reports.nothing L
  · exact Reports.nothing L
  · next name written named =>
      have solid := Source.isSolid_of_keyName? named written
      exact checkNamed_reports on (on.site isProperty.key solid) _ _

theorem checkFunction_reports (on : s.On L) {r : Resource Span} (isResource : r ∈ s.tree.resources) :
    ReportsAll L (checkFunction s r) := by
  unfold checkFunction
  split
  · exact ReportsAll.nothing L
  · next members isObject =>
      obtain ⟨environment, found, isObject⟩ := Option.bind_eq_some_iff.mp isObject
      have isProperty := Resource.isPropertyOf_of_findProperty? isResource found
      refine Reports.mapM fun property isMember => checkProperty_reports on ?_
      have isMember :=
        Node.isPropertyOf_of_mem (Node.objectMembers?_eq_some.mp isObject) isMember
      exact isMember.trans isProperty.unwrap_value

/-- **The rule reports violations that lie in the text.** -/
theorem detect_reports (on : s.On L) : ReportsAll L (detect s) :=
  ReportsAll.mapM fun _ isFunction =>
    checkFunction_reports on (Resource.mem_resources_of_mem_resourcesOf isFunction)

end EnvVariable

/-! ## §6. Links. -/

namespace ResourceDependency

variable {s : Source} {L : Layout}

theorem checkLink_reports (on : s.On L) (b target : Binding) :
    ReportsAll L (checkLink s b target) := by
  have violation {code : Text} (known : (Catalog.find? code).isSome = true) (message : Text) :
      ReportsAll L
        (List.singleton <$> s.violation code b.node b.name "link" message .error none) := by
    have noFix : ∀ f ∈ (none : Option Fix), f.Fits L := fun _ never => nomatch never
    refine .map ((on.violation_yields known _ _ _ _ _ noFix).mono ?_)
    intro v fits v' isOne
    rw [List.mem_singleton.mp isOne]
    exact fits
  unfold checkLink
  refine .ite_bind (fun _ => violation (Catalog.find?_isSome 16 rfl) _)
    (fun _ => ReportsAll.nothing L) ?_
  intro circular fits
  refine .ite_bind (fun _ => violation (Catalog.find?_isSome 17 rfl) _)
    (fun _ => ReportsAll.nothing L) ?_
  intro early fits'
  refine .pure ?_
  intro v inside
  exact (List.mem_append.mp inside).elim (fits v) (fits' v)

theorem checkBinding_reports (on : s.On L) (all : List Binding) (b : Binding) :
    ReportsAll L (checkBinding s all b) :=
  ReportsAll.mapM fun target _ => checkLink_reports on b target

/-- **The rule reports violations that lie in the text.** -/
theorem detect_reports (on : s.On L) : ReportsAll L (detect s) :=
  ReportsAll.mapM fun b _ => checkBinding_reports on _ b

end ResourceDependency

/-! ## §7. Fields of tables. -/

namespace DynamoIndexing

variable {s : Source} {L : Layout}

theorem checkFields_reports (on : s.On L) (r : Resource Span) {fields : Tree}
    (site : L.Site fields.info.start fields.info.stop) (declared : List (Text × Tree)) :
    Reports L (checkFields s r fields declared) := by
  refine .ite (fun _ => Reports.nothing L) fun _ => ?_
  refine Reports.offered on (Catalog.find?_isSome 18 rfl) ?_
  refine .ite (fun _ => Offers.nothing L) fun _ => ?_
  exact Offers.one (on.replace_yields site _ _ _)

theorem checkTable_reports (on : s.On L) {r : Resource Span} (isResource : r ∈ s.tree.resources) :
    Reports L (checkTable s r) := by
  unfold checkTable
  split
  · exact Reports.nothing L
  · next property found =>
      split
      · exact Reports.nothing L
      · have isProperty := Resource.isPropertyOf_of_findProperty? isResource found
        refine checkFields_reports on r (on.site isProperty.node ?_) _
        rw [isProperty.form]
        rfl

/-- **The rule reports violations that lie in the text.** -/
theorem detect_reports (on : s.On L) : ReportsAll L (detect s) :=
  Reports.mapM fun _ isTable =>
    checkTable_reports on (Resource.mem_resources_of_mem_resourcesOf isTable)

end DynamoIndexing

end StackLint
