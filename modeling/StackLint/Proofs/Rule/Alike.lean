/-
  StackLint.Proofs.Rule.Alike
  ───────────────────────────
  **THE RULES REPORT THE SAME ON TREES THAT SAY THE SAME.**

  One section for each rule, with one lemma for each of its checks.  Wherever a
  rule reads a value it takes the wrappers off first, and whatever it says about a
  value it says about its span; so the reports are equal, fixes and failures
  included, as long as no member that the rule looks for is spelled out.
-/
import StackLint.Proofs.Rule.Sought

namespace StackLint

open Node (Alike Around VisitAlike Finds)

variable {s s' : Source} {k : Text} {E : Tree → Prop}

/-! ## §1. Stages. -/

namespace StageVariable

variable {visit visit' : Visit Span}

theorem parametersSpan_info {params params' : List Tree} {info : FunctionInfo}
    (same : params'.map Node.info = params.map Node.info) :
    parametersSpan params' info = parametersSpan params info := by
  have first := congrArg List.head? same
  have last := congrArg List.getLast? same
  rw [List.head?_map, List.head?_map] at first
  rw [List.getLast?_map, List.getLast?_map] at last
  unfold parametersSpan
  cases info.paramsSpan with
  | some span => rfl
  | none =>
      generalize params.head? = a at first ⊢
      generalize params'.head? = a' at first ⊢
      generalize params.getLast? = b at last ⊢
      generalize params'.getLast? = b' at last ⊢
      cases a <;> cases a' <;> cases b <;> cases b' <;> simp_all

theorem checkRunSignature_alike (texts : s.SameText s')
    (same : VisitAlike k E visit visit') {params params' : List Tree}
    {info : FunctionInfo} (spans : params'.map Node.info = params.map Node.info) :
    checkRunSignature s' visit' params' info = checkRunSignature s visit params info := by
  have empty : params'.isEmpty = params.isEmpty := by
    have length := congrArg List.length spans
    rw [List.length_map, List.length_map] at length
    cases params <;> cases params' <;> simp_all
  unfold checkRunSignature
  rw [empty, same.node.functionName? same.around, parametersSpan_info spans]
  simp only [texts.violation same.node.info, texts.fix, texts.path]

theorem checkInputStage_alike (texts : s.SameText s')
    (same : VisitAlike k E visit visit') {object object' name name' : Tree}
    (objects : Alike k E false object object') (names : Alike k E false name name') :
    checkInputStage s' visit' object' name' = checkInputStage s visit object name := by
  unfold checkInputStage
  rw [names.identifierName?, objects.unwrap.identifierName?, same.around.enclosingFunction?]
  simp only [texts.violation same.node.info, texts.replace same.node.info, texts.path]

theorem checkHardcodedStage_alike (texts : s.SameText s') {node node' target target' value value' : Tree}
    (nodes : Alike k E false node node') (targets : Alike k E false target target')
    (values : Alike k E true value value') :
    checkHardcodedStage s' node' target' value' = checkHardcodedStage s node target value := by
  unfold checkHardcodedStage
  rw [targets.identifierName?, values.staticString?]
  simp only [texts.violation nodes.info, texts.replace values.info, texts.path]

/-- The signatures of the same function. -/
theorem checkRunSignature_same (texts : s.SameText s') (same : VisitAlike k E visit visit')
    {params params' : List Tree} {info info' : FunctionInfo}
    (functions : some (params'.map Node.info, info') = some (params.map Node.info, info)) :
    checkRunSignature s' visit' params' info' = checkRunSignature s visit params info := by
  obtain ⟨spans, rfl⟩ := Prod.mk.inj (Option.some.inj functions)
  exact checkRunSignature_alike texts same spans

theorem check_alike (texts : s.SameText s')
    (same : VisitAlike k E visit visit') : check s' visit' = check s visit := by
  have functions := same.node.function?
  have nodes := same.node
  have signature := @checkRunSignature_same s s' k E visit visit' texts same
  obtain ⟨node, ancestors⟩ := visit
  obtain ⟨node', ancestors'⟩ := visit'
  dsimp only at functions nodes signature
  unfold check
  cases nodes with
  | node info parts others values =>
      cases parts with
      | propertyAccess object name optional =>
          exact checkInputStage_alike texts same (others object (List.mem_cons_self ..))
            (others name (List.mem_cons_of_mem _ (List.mem_cons_self ..)))
      | variableDeclarator target init =>
          cases init with
          | none => rfl
          | some value =>
              exact checkHardcodedStage_alike texts same.node (others target (List.mem_cons_self ..))
                (values value (List.mem_cons_self ..))
      | functionDeclaration name params body info => exact signature functions
      | functionExpression name params body info => exact signature functions
      | arrowFunction params body info => exact signature functions
      | methodDeclaration key params body accessor info => exact signature functions
      | _ => rfl
  | expanded may expands =>
      cases expands
      rfl

/-- **The rule reports the same.** -/
theorem detect_alike (texts : s.SameText s') (same : Alike k E false s.tree s'.tree) :
    detect s' = detect s := by
  refine checkVisits_alike same check (fun s visit isQuiet => ?_)
    fun _ _ same => check_alike texts same
  obtain ⟨⟨info, form⟩, ancestors⟩ := visit
  cases form with
  | parenthesized inner => rfl
  | typeAssertion inner a => rfl
  | identifier name => rfl
  | propertyAssignment key value => rfl
  | shorthandProperty name default => rfl
  | _ => cases isQuiet

end StageVariable

/-! ## §2. Custom domains. -/

namespace DomainConfig

theorem commaEnd?_text (texts : s.SameText s') (start stop : Nat) :
    commaEnd? s' start stop = commaEnd? s start stop := by
  unfold commaEnd?
  rw [texts.text]

theorem insertMember_info (texts : s.SameText s') {object object' : Tree} {members members' : List Tree}
    (objects : object'.info = object.info)
    (spans : members'.map Node.info = members.map Node.info) {snippet : Text}
    {confidence : Confidence} {description : Text} :
    insertMember s' object' members' snippet confidence description
      = insertMember s object members snippet confidence description := by
  have last := congrArg List.getLast? spans
  rw [List.getLast?_map, List.getLast?_map] at last
  unfold insertMember
  generalize members.getLast? = m at last ⊢
  generalize members'.getLast? = m' at last ⊢
  rcases m with _ | m <;> rcases m' with _ | m'
  · exact texts.replace objects
  · cases last
  · cases last
  · simp only [Option.map_some, Option.some.injEq] at last
    simp only [texts.textOf objects, texts.lineIndent, texts.fix, commaEnd?_text texts, last, objects]

theorem guardedSubject?_alike {left left' right right' : Tree}
    (lefts : Alike k E false left left') (rights : Alike k E false right right') :
    Option.Rel (Alike k E false) (guardedSubject? left right) (guardedSubject? left' right') := by
  unfold guardedSubject?
  rw [lefts.staticString?, rights.staticString?]
  split
  · exact .some lefts
  · split
    · exact .some rights
    · exact .none

theorem checkGuard_alike (texts : s.SameText s')
    {test test' : Tree} (same : Alike k E false test test') (label : Text) :
    checkGuard s' test' label = checkGuard s test label := by
  cases same with
  | node info parts others values =>
      cases parts with
      | binary op left right =>
          have subject := guardedSubject?_alike (others left (List.mem_cons_self ..))
            (others right (List.mem_cons_of_mem _ (List.mem_cons_self ..)))
          unfold checkGuard
          dsimp only [Node.form, Form.map]
          generalize guardedSubject? left.1 right.1 = m at subject ⊢
          generalize guardedSubject? left.2 right.2 = m' at subject ⊢
          cases subject with
          | none => rfl
          | some same =>
              have spans : (Node.mk info (.binary op left.2 right.2)).info
                  = (Node.mk info (.binary op left.1 right.1)).info := rfl
              simp only [texts.textOf same.info, texts.replace spans, texts.violation spans]
      | _ => rfl
  | expanded may expands =>
      cases expands
      rfl

theorem callArguments?_alike {n n' : Tree} (same : Alike k E false n n') :
    Option.Rel (List.Forall₂ (Alike k E true)) (callArguments? n) (callArguments? n') := by
  cases same with
  | node info parts others values =>
      cases parts with
      | call callee arguments optional => exact .some (Node.forall₂_map_fst_snd values)
      | _ => exact .none
  | expanded may expands =>
      cases expands
      exact .none

theorem allows_alike (texts : s.SameText s')
    {value value' : Tree} (same : Alike k E false value value') :
    allows s' value' = allows s value := by
  unfold allows
  rw [texts.textOf same.info]
  cases same with
  | node info parts others values => cases parts <;> rfl
  | expanded may expands =>
      cases expands
      rfl

/-- The permission to override records is not spelled out in the provider. -/
def Permits (k : Text) (E : Tree → Prop) (provider : Tree) : Prop :=
  ∀ argument others, callArguments? provider = some (argument :: others) →
    E argument.unwrap → k ≠ "override"

theorem hasOverride_alike (texts : s.SameText s') {provider provider' : Tree}
    (same : Alike k E false provider provider') (permits : Permits k E provider) :
    hasOverride s' provider' = hasOverride s provider := by
  have arguments := callArguments?_alike same
  unfold hasOverride
  unfold Permits at permits
  generalize callArguments? provider = as at arguments permits ⊢
  generalize callArguments? provider' = as' at arguments ⊢
  cases arguments with
  | none => rfl
  | some arguments =>
      cases arguments with
      | nil => rfl
      | @cons argument argument' others _ first _ =>
          have finds := first.findProperty? "override"
          dsimp only
          rw [first.unwrap.isObject]
          generalize argument.findProperty? "override" = found at finds ⊢
          generalize argument'.findProperty? "override" = found' at finds ⊢
          cases finds with
          | neither => rfl
          | both same => simp only [allows_alike texts same.value.unwrap]
          | own does isName value => exact absurd isName.symm (permits argument others rfl does)

theorem overrideFix?_alike (texts : s.SameText s') {provider provider' : Tree}
    (same : Alike k E false provider provider') (permits : Permits k E provider) :
    overrideFix? s' provider' = overrideFix? s provider := by
  have arguments := callArguments?_alike same
  have spans := same.info
  unfold overrideFix?
  unfold Permits at permits
  generalize callArguments? provider = as at arguments permits ⊢
  generalize callArguments? provider' = as' at arguments ⊢
  cases arguments with
  | none => rfl
  | some arguments =>
      cases arguments with
      | nil => simp only [spans, texts.charAt, texts.fix]
      | @cons argument argument' others _ first _ =>
          have finds := first.unwrap.findProperty? "override"
          have members := first.unwrap.objectMembers?_info
          rw [Node.unwrap_unwrap] at finds
          dsimp only
          generalize argument.unwrap.objectMembers? = ms at members ⊢
          generalize argument'.unwrap.objectMembers? = ms' at members ⊢
          rcases ms with _ | ms <;> rcases ms' with _ | ms'
          · rfl
          · cases members
          · cases members
          · simp only [Option.map_some, Option.some.injEq] at members
            generalize argument.unwrap.findProperty? "override" = found at finds ⊢
            generalize argument'.unwrap.findProperty? "override" = found' at finds ⊢
            cases finds with
            | neither => simp only [insertMember_info texts first.unwrap.info members]
            | both same => simp only [texts.replace same.value.info]
            | own does isName value => exact absurd isName.symm (permits argument others rfl does)

/-- Neither name nor provider of the domain is spelled out, nor the permission in
its provider. -/
structure Settled (k : Text) (E : Tree → Prop) (domain : Tree) : Prop where
  named : E domain.unwrap → k ≠ "name" ∧ k ≠ "dns"
  permits : ∀ dns, domain.findProperty? "dns" = some dns → Permits k E dns.value.unwrap

theorem checkDns_alike (texts : s.SameText s')
    {domain domain' : Tree} (same : Alike k E false domain domain')
    (settled : Settled k E domain) (label : Text) :
    checkDns s' label domain' = checkDns s label domain := by
  have members := same.objectMembers?_info
  have names := same.findProperty? "name"
  have providers := same.findProperty? "dns"
  obtain ⟨named, permits⟩ := settled
  have spans := same.info
  unfold checkDns
  generalize domain.objectMembers? = ms at members ⊢
  generalize domain'.objectMembers? = ms' at members ⊢
  generalize domain.findProperty? "name" = name at names ⊢
  generalize domain'.findProperty? "name" = name' at names ⊢
  generalize domain.findProperty? "dns" = dns at providers permits ⊢
  generalize domain'.findProperty? "dns" = dns' at providers ⊢
  rcases ms with _ | ms <;> rcases ms' with _ | ms'
  · rfl
  · cases members
  · cases members
  · simp only [Option.map_some, Option.some.injEq] at members
    cases names with
    | neither => rfl
    | own does isName value => exact absurd isName.symm (named does).1
    | both names =>
        cases providers with
        | own does isName value => exact absurd isName.symm (named does).2
        | neither =>
            simp only [insertMember_info texts spans members, texts.violation names.span]
        | both providers =>
            have bare := providers.value.unwrap
            simp only [hasOverride_alike texts bare (permits _ rfl),
              overrideFix?_alike texts bare (permits _ rfl), texts.violation providers.span]

theorem checkResource_alike (texts : s.SameText s') {r r' : Resource Span} (same : r.Alike k E r')
    (settled : ∀ p, r.findProperty? "domain" = some p →
      ∀ d ∈ domains p.value.unwrap, Settled k E d) :
    checkResource s' r' = checkResource s r := by
  have finds := same.findProperty? "domain"
  unfold checkResource
  generalize r.findProperty? "domain" = found at finds settled ⊢
  generalize r'.findProperty? "domain" = found' at finds ⊢
  cases finds with
  | neither => rfl
  | @own p does isName value =>
      -- A name is no domain that could be checked.
      obtain ⟨node, key, info, form⟩ := p
      cases value
      rfl
  | @both p p' same' =>
      have domain := same'.value.unwrap
      have settled := settled p rfl
      have plain := fun settled => checkDns_alike texts domain settled r.label
      rw [same.label]
      dsimp only
      generalize p.value.unwrap = d at domain settled plain ⊢
      generalize p'.value.unwrap = d' at domain plain ⊢
      cases domain with
      | node info parts others values =>
          cases parts with
          | conditional test consequent alternate =>
              have guard := checkGuard_alike texts (others test (List.mem_cons_self ..)).unwrap
                r.label
              have first := checkDns_alike texts
                (others consequent (List.mem_cons_of_mem _ (List.mem_cons_self ..))).unwrap
                (settled _ (List.mem_cons_self ..)) r.label
              have second := checkDns_alike texts
                (others alternate (List.mem_cons_of_mem _ (List.mem_cons_of_mem _
                  (List.mem_cons_self ..)))).unwrap
                (settled _ (List.mem_cons_of_mem _ (List.mem_cons_self ..))) r.label
              dsimp only [Node.form, Form.map]
              simp only [guard, List.mapM_cons, List.mapM_nil, first, second]
          | _ =>
              refine congrArg (fun c => c >>= fun report => pure report.toList) (plain ?_)
              exact settled _ (List.mem_cons_self ..)
      | expanded may expands =>
          cases expands
          refine congrArg (fun c => c >>= fun report => pure report.toList) (plain ?_)
          exact settled _ (List.mem_cons_self ..)

/-- **The rule reports the same,** if nothing that it looks for is spelled out. -/
theorem detect_alike (texts : s.SameText s') (same : Alike k E false s.tree s'.tree)
    (unsought : ∀ o, E o → ¬ Sought s.tree k .domainConfig o) : detect s' = detect s := by
  unfold detect
  rw [mapM_congr_forall₂ (same.resourcesOf resourceTypes) fun r isResource r' same => ?_]
  refine checkResource_alike texts same fun p found d isDomain => ⟨fun may => ⟨?_, ?_⟩, ?_⟩
  · exact fun isName => unsought _ may (.domain isResource found isDomain (.inl isName))
  · exact fun isName => unsought _ may (.domain isResource found isDomain (.inr isName))
  · intro dns provided argument others isCall may isName
    exact unsought _ may (.provider isResource found isDomain provided isCall isName)

end DomainConfig

/-! ## §3. CORS settings. -/

namespace CorsConfig

theorem renamedKey_alike {key key' : Tree} (same : Alike k E false key key') (name : Text) :
    renamedKey key' name = renamedKey key name := by
  cases same with
  | node info parts others values => cases parts <;> rfl
  | expanded may expands =>
      cases expands
      rfl

theorem checkProperty_alike (texts : s.SameText s')
    {p p' : Node.Property Span} (same : p.Alike k E p') (label : Text) :
    checkProperty s' label p' = checkProperty s label p := by
  unfold checkProperty
  rw [same.key.keyName?]
  simp only [renamedKey_alike same.key, texts.replace same.key.info,
    texts.violation same.span]

/-- Only misspellings are reported. -/
theorem checkProperty_other {p : Node.Property Span} {label : Text}
    (isName : p.key.keyName? = some k) (right : ∀ m ∈ misspellings, k ≠ m.wrong) :
    checkProperty s label p = pure none := by
  have unknown : misspellings.find? (fun m => p.key.keyName? = some m.wrong) = none := by
    rw [List.find?_eq_none]
    intro m isMisspelling
    rw [decide_eq_true_eq, isName, Option.some.injEq]
    exact right m isMisspelling
  unfold checkProperty
  rw [unknown]

theorem arrayFix?_alike (texts : s.SameText s') {array array' : Tree} (arrays : array'.info = array.info)
    {elements : List (Option (Tree × Tree))}
    (same : ∀ p ∈ elements.filterMap id, Alike k E true p.1 p.2) :
    arrayFix? s' array' (elements.map (Option.map Prod.snd))
      = arrayFix? s array (elements.map (Option.map Prod.fst)) := by
  unfold arrayFix?
  match elements with
  | [] | [none] | none :: _ :: _ | some _ :: _ :: _ => rfl
  | [some element] =>
      have same : Alike k E true element.1 element.2 := same element (List.mem_cons_self ..)
      simp only [List.map_cons, List.map_nil, Option.map_some, same.unwrap.isObject,
        texts.textOf same.info, texts.replace arrays]

theorem checkResource_alike (texts : s.SameText s') {r r' : Resource Span} (same : r.Alike k E r')
    (right : ∀ p, r.findProperty? "cors" = some p → E p.value.unwrap →
      ∀ m ∈ misspellings, k ≠ m.wrong) :
    checkResource s' r' = checkResource s r := by
  have finds := same.findProperty? "cors"
  unfold checkResource
  generalize r.findProperty? "cors" = found at finds right ⊢
  generalize r'.findProperty? "cors" = found' at finds ⊢
  cases finds with
  | neither => rfl
  | @own p does isName value =>
      obtain ⟨node, key, info, form⟩ := p
      cases value
      rfl
  | @both p p' property =>
      have bare := property.value.unwrap
      have right := right p rfl
      rw [same.label]
      dsimp only
      have each := fun (p p' : Node.Property Span) (same : p.Alike k E p') =>
        checkProperty_alike texts same r.label
      generalize p.value.unwrap = value at bare right ⊢
      generalize p'.value.unwrap = value' at bare ⊢
      have object := bare
      have silent may p (isName : p.key.keyName? = some k) :
          checkProperty s' r.label p = pure none := checkProperty_other isName (right may)
      cases bare with
      | node info parts others values =>
          cases parts with
          | arrayLiteral elements =>
              have spans : (Node.mk info (.arrayLiteral (elements.map (Option.map Prod.snd)))).info
                  = (Node.mk info (.arrayLiteral (elements.map (Option.map Prod.fst)))).info := rfl
              have fix := arrayFix?_alike texts spans values
              dsimp only [Node.form, Form.map]
              simp only [fix, texts.violation property.span]
          | objectLiteral members => exact checkProperties_alike object rfl rfl each silent
          | _ => rfl
      | expanded may expands =>
          obtain ⟨members, members', _, _, _, isObject, isObject', _⟩ := expands.spelledOut
          rw [Node.objectMembers?_eq_some.mp isObject, Node.objectMembers?_eq_some.mp isObject']
          exact checkProperties_alike object isObject isObject' each silent

/-- **The rule reports the same,** if nothing that it looks for is spelled out. -/
theorem detect_alike (texts : s.SameText s') (same : Alike k E false s.tree s'.tree)
    (unsought : ∀ o, E o → ¬ Sought s.tree k .corsConfig o) : detect s' = detect s := by
  unfold detect
  rw [mapM_congr_forall₂ same.resources fun r isResource r' same => ?_]
  refine checkResource_alike texts same fun p found may m isMisspelling isName => ?_
  exact unsought _ may (.setting isResource found ⟨m, isMisspelling, isName⟩)

end CorsConfig

/-! ## §4. Environment variables. -/

namespace EnvVariable

theorem renamedKey_alike {key key' : Tree} (same : Alike k E false key key') (name : Text) :
    renamedKey key' name = renamedKey key name := by
  cases same with
  | node info parts others values => cases parts <;> rfl
  | expanded may expands =>
      cases expands
      rfl

theorem checkProperty_alike (texts : s.SameText s')
    {p p' : Node.Property Span} (same : p.Alike k E p') (label : Text) :
    checkProperty s' label p' = checkProperty s label p := by
  unfold checkProperty checkNamed rename?
  rw [same.key.keyName?]
  simp only [renamedKey_alike same.key, texts.replace same.key.info,
    texts.violation same.span]

/-- Only reserved names are reported. -/
theorem checkProperty_other {p : Node.Property Span} {label : Text}
    (isName : p.key.keyName? = some k) (free : ¬ IsReserved k) :
    checkProperty s label p = pure none := by
  unfold IsReserved at free
  simp only [not_or] at free
  obtain ⟨unlisted, noUnderscore, noRuntime⟩ := free
  unfold checkProperty
  rw [isName]
  cases k with
  | nil => rfl
  | cons c others =>
      unfold checkNamed
      dsimp only
      rw [if_neg unlisted, if_neg noUnderscore, if_neg noRuntime]

theorem checkFunction_alike (texts : s.SameText s') {r r' : Resource Span} (same : r.Alike k E r')
    (free : ∀ p, r.findProperty? "environment" = some p → E p.value.unwrap → ¬ IsReserved k) :
    checkFunction s' r' = checkFunction s r := by
  have finds := same.findProperty? "environment"
  unfold checkFunction
  generalize r.findProperty? "environment" = found at finds free ⊢
  generalize r'.findProperty? "environment" = found' at finds ⊢
  cases finds with
  | neither => rfl
  | @own p does isName value =>
      obtain ⟨node, key, info, form⟩ := p
      cases value
      rfl
  | @both p p' property =>
      have bare := property.value.unwrap
      have spans := bare.objectMembers?_info
      rw [same.label]
      cases isObject : p.value.unwrap.objectMembers? with
      | none =>
          rw [isObject, Option.map_none, Option.map_eq_none_iff] at spans
          simp only [Option.bind_some, isObject, spans]
      | some members =>
          rw [isObject, Option.map_some, Option.map_eq_some_iff] at spans
          obtain ⟨members', isObject', _⟩ := spans
          simp only [Option.bind_some, isObject, isObject']
          exact checkProperties_alike bare isObject isObject'
            (fun p p' same => checkProperty_alike texts same r.label)
            fun may p isName => checkProperty_other isName (free _ rfl may)

/-- **The rule reports the same,** if nothing that it looks for is spelled out. -/
theorem detect_alike (texts : s.SameText s') (same : Alike k E false s.tree s'.tree)
    (unsought : ∀ o, E o → ¬ Sought s.tree k .envVariable o) : detect s' = detect s := by
  unfold detect
  rw [mapM_congr_forall₂ (same.resourcesOf _) fun r isResource r' same => ?_]
  refine checkFunction_alike texts same fun p found may reserved => ?_
  exact unsought _ may (.reserved isResource found reserved)

end EnvVariable

/-! ## §5. Deferred values. -/

namespace PulumiOutput

theorem lastProperty?_alike {isValue : Bool} {n n' : Tree} (same : Alike k E isValue n n') :
    lastProperty? n' = lastProperty? n := by
  have bare := same.unwrap
  unfold lastProperty?
  generalize n.unwrap = m at bare ⊢
  generalize n'.unwrap = m' at bare ⊢
  cases bare with
  | node info parts others values =>
      cases parts with
      | propertyAccess object name optional =>
          exact (others name (List.mem_cons_of_mem _ (List.mem_cons_self ..))).identifierName?
      | _ => rfl
  | expanded may expands =>
      cases expands
      rfl

theorem loneSubstitution?_alike {template template' : Tree}
    (same : Alike k E false template template') :
    Option.Rel (Alike k E false) (loneSubstitution? template) (loneSubstitution? template') := by
  cases same with
  | expanded may expands =>
      cases expands
      exact .none
  | node info parts others values =>
      cases parts with
      | templateLiteral head spans =>
          match head, spans with
          | [], [span] =>
              have same := others span (List.mem_cons_self ..)
              obtain ⟨span, span'⟩ := span
              cases same with
              | expanded may expands =>
                  cases expands
                  exact .none
              | node info parts inside values =>
                  cases parts with
                  | templateSpan expression literal =>
                      cases literal with
                      | nil => exact .some (inside expression (List.mem_cons_self ..))
                      | cons c rest => exact .none
                  | _ => exact .none
          | [], [] => exact .none
          | [], _ :: _ :: _ => exact .none
          | _ :: _, spans => exact .none
      | _ => exact .none

theorem checkInterpolation_alike (texts : s.SameText s') {node node' tag tag' template template' : Tree}
    (nodes : Alike k E false node node') (tags : Alike k E false tag tag')
    (templates : Alike k E false template template') :
    checkInterpolation s' node' tag' template' = checkInterpolation s node tag template := by
  have lone := loneSubstitution?_alike templates
  unfold checkInterpolation
  rw [tags.unwrap.identifierName?]
  generalize loneSubstitution? template = inner at lone ⊢
  generalize loneSubstitution? template' = inner' at lone ⊢
  cases lone with
  | none => rfl
  | some inner =>
      simp only [texts.textOf inner.info, texts.replace nodes.info, texts.violation nodes.info,
        texts.path]

theorem operands_alike {isValue : Bool} {n n' : Tree} (same : Alike k E isValue n n')
    (plain : isValue = false) :
    List.Forall₂ (Alike k E false) (operands n) (operands n') := by
  induction same with
  | node info parts others values ih _ =>
      cases parts with
      | binary op left right =>
          cases op with
          | add =>
              exact List.rel_append (ih left (List.mem_cons_self ..) rfl)
                (ih right (List.mem_cons_of_mem _ (List.mem_cons_self ..)) rfl)
          | _ => exact .cons (.node info _ others values) .nil
      | _ => exact .cons (.node info _ others values) .nil
  | expanded may expands =>
      have same : Alike k E false _ _ := .expanded may expands
      cases expands
      exact .cons same .nil
  | wrapped => cases plain

theorem isAddition_alike {n n' : Tree} (same : Alike k E false n n') :
    isAddition n' = isAddition n := by
  cases same with
  | node info parts others values =>
      cases parts with
      | binary op left right => cases op <;> rfl
      | _ => rfl
  | expanded may expands =>
      cases expands
      rfl

theorem isInterpolateTag_alike {tag tag' : Tree} (same : Alike k E false tag tag') :
    isInterpolateTag tag' = isInterpolateTag tag := by
  have bare := same.unwrap
  unfold isInterpolateTag
  rw [bare.memberPath?]
  generalize tag.unwrap = m at bare ⊢
  generalize tag'.unwrap = m' at bare ⊢
  cases bare with
  | node info parts others values => cases parts <;> rfl
  | expanded may expands =>
      cases expands
      rfl

theorem resolves_alike {n n' : Tree} (same : Alike k E false n n') : resolves n' = resolves n := by
  cases same with
  | node info parts others values =>
      cases parts with
      | taggedTemplate tag template => exact isInterpolateTag_alike (others tag (List.mem_cons_self ..))
      | call callee arguments optional =>
          have last := lastProperty?_alike (others callee (List.mem_cons_self ..))
          show (lastProperty? callee.2 == _) = _
          rw [last]
          rfl
      | _ => rfl
  | expanded may expands =>
      cases expands
      rfl

theorem templatePart_alike (texts : s.SameText s')
    {operand operand' : Tree} (same : Alike k E false operand operand') :
    templatePart s' operand' = templatePart s operand := by
  have bare := same.unwrap
  unfold templatePart
  rw [texts.textOf same.info, texts.text]
  generalize operand.unwrap = m at bare ⊢
  generalize operand'.unwrap = m' at bare ⊢
  cases bare with
  | node info parts others values => cases parts <;> rfl
  | expanded may expands =>
      cases expands
      rfl

theorem interpolation_alike (texts : s.SameText s')
    {as as' : List Tree} (same : List.Forall₂ (Alike k E false) as as') :
    interpolation s' as' = interpolation s as := by
  unfold interpolation
  congr 2
  induction same with
  | nil => rfl
  | cons first _ ih => rw [List.flatMap_cons, List.flatMap_cons, templatePart_alike texts first, ih]

/-- No wrapper around a value keeps it from being the outermost addition. -/
theorem outermost_alike {around around' : List Tree} (places : Around k E around around') :
    around'.head?.any isAddition = around.head?.any isAddition := by
  cases places with
  | nil => rfl
  | cons same others => exact isAddition_alike same
  | @wrapper w _ around' isWrapper place others =>
      obtain ⟨n, isNext, takesValues⟩ := place
      have noAddition : isAddition n = false := by
        obtain ⟨info, form⟩ := n
        cases form with
        | binary op left right => exact absurd rfl takesValues
        | _ => rfl
      rw [Option.mem_def.mp isNext, Option.any_some, noAddition]
      obtain ⟨info, form⟩ := w
      cases form with
      | parenthesized inner => rfl
      | typeAssertion inner a => rfl
      | _ => cases isWrapper

theorem any_resolves {around around' : List Tree} (places : Around k E around around') :
    around'.any resolves = around.any resolves := by
  induction places with
  | nil => rfl
  | cons same others ih => rw [List.any_cons, List.any_cons, resolves_alike same, ih]
  | @wrapper w around around' isWrapper place others ih =>
      rw [List.any_cons, ih]
      obtain ⟨info, form⟩ := w
      cases form with
      | parenthesized inner => rfl
      | typeAssertion inner a => rfl
      | _ => cases isWrapper

theorem any_outputProperties {as as' : List Tree} (same : List.Forall₂ (Alike k E false) as as') :
    (as'.any fun n => (lastProperty? n).any outputProperties.contains)
      = as.any fun n => (lastProperty? n).any outputProperties.contains := by
  induction same with
  | nil => rfl
  | cons first _ ih => rw [List.any_cons, List.any_cons, lastProperty?_alike first, ih]

theorem checkAddition_alike (texts : s.SameText s')
    {visit visit' : Visit Span} (same : VisitAlike k E visit visit') :
    checkAddition s' visit' = checkAddition s visit := by
  have parts := operands_alike same.node rfl
  unfold checkAddition
  dsimp only
  rw [outermost_alike same.around, any_resolves same.around, flatten_eq_operands,
    flatten_eq_operands, any_outputProperties parts, interpolation_alike texts parts]
  simp only [texts.replace same.node.info, texts.violation same.node.info, texts.path]

theorem check_alike (texts : s.SameText s')
    {visit visit' : Visit Span} (same : VisitAlike k E visit visit') :
    check s' visit' = check s visit := by
  have addition := checkAddition_alike texts same
  have nodes := same.node
  obtain ⟨node, ancestors⟩ := visit
  obtain ⟨node', ancestors'⟩ := visit'
  dsimp only at nodes
  unfold check
  cases nodes with
  | node info parts others values =>
      cases parts with
      | taggedTemplate tag template =>
          exact checkInterpolation_alike texts (.node info (.taggedTemplate tag template) others values)
            (others tag (List.mem_cons_self ..))
            (others template (List.mem_cons_of_mem _ (List.mem_cons_self ..)))
      | binary op left right =>
          cases op with
          | add => exact addition
          | _ => rfl
      | _ => rfl
  | expanded may expands =>
      cases expands
      rfl

/-- **The rule reports the same.** -/
theorem detect_alike (texts : s.SameText s') (same : Alike k E false s.tree s'.tree) :
    detect s' = detect s := by
  refine checkVisits_alike same check (fun s visit isQuiet => ?_)
    fun _ _ same => check_alike texts same
  obtain ⟨⟨info, form⟩, ancestors⟩ := visit
  cases form with
  | binary op left right => cases isQuiet
  | taggedTemplate tag template => cases isQuiet
  | _ => rfl

end PulumiOutput

/-! ## §6. Links between resources. -/

namespace ResourceDependency

theorem linkedNames_alike {value value' : Tree} (same : Alike k E false value value') :
    linkedNames value' = linkedNames value := by
  have lone : ([some value'].filterMap fun element =>
        (element.bind Node.rootIdentifier?).bind Node.identifierName?)
      = [some value].filterMap fun element =>
        (element.bind Node.rootIdentifier?).bind Node.identifierName? := by
    simp only [List.filterMap_cons, Option.bind_some, same.rootIdentifier?]
  cases same with
  | node info parts others values =>
      cases parts with
      | arrayLiteral elements =>
          show ((elements.map (Option.map Prod.snd)).filterMap _)
            = ((elements.map (Option.map Prod.fst)).filterMap _)
          rw [List.filterMap_map, List.filterMap_map]
          refine List.filterMap_congr fun element isElement => ?_
          cases element with
          | none => rfl
          | some p =>
              exact (values p (List.mem_filterMap.mpr ⟨some p, isElement, rfl⟩)).rootIdentifier?
      | _ => exact lone
  | expanded may expands =>
      cases expands
      exact lone

/-- The links of the resource are not spelled out. -/
def Linked (k : Text) (E : Tree → Prop) (r : Resource Span) : Prop :=
  ∀ config, r.config = some config → E config.unwrap → k ≠ "link"

theorem links_alike {r r' : Resource Span} (same : r.Alike k E r') (linked : Linked k E r)
    (name : Text) : links name r' = links name r := by
  have finds := same.findProperty? "link"
  unfold links
  generalize r.findProperty? "link" = found at finds ⊢
  generalize r'.findProperty? "link" = found' at finds ⊢
  cases finds with
  | neither => rfl
  | both same => simp only [linkedNames_alike same.value.unwrap]
  | own does isName value =>
      obtain ⟨config, isConfig, may⟩ := does
      exact absurd isName.symm (linked config isConfig may)

/-- The two bindings are the same, and stand in the same place. -/
structure Binding.Alike (b b' : Binding) : Prop where
  name : b'.name = b.name
  line : b'.line = b.line
  span : b'.node.info = b.node.info
  links : b'.links = b.links

theorem binding?_alike (texts : s.SameText s') {n n' : Tree} (same : Alike k E false n n')
    (linked : ∀ target value r, n.form = .variableDeclarator target (some value) →
      Resource.ofNode? value.unwrap = some r → Linked k E r) :
    Option.Rel Binding.Alike (binding? s n) (binding? s' n') := by
  cases same with
  | expanded may expands =>
      cases expands
      exact .none
  | node info parts others values =>
      cases parts with
      | variableDeclarator target init =>
          cases init with
          | none => exact .none
          | some value =>
              have named := (others target (List.mem_cons_self ..)).identifierName?
              have made := Resource.ofNode?_alike
                (values value (List.mem_cons_self ..)).unwrap
              have linked := linked target.1 value.1
              unfold binding?
              dsimp only [Node.form, Form.map, Option.map]
              rw [named]
              generalize Resource.ofNode? value.1.unwrap = r at made linked ⊢
              generalize Resource.ofNode? value.2.unwrap = r' at made ⊢
              cases target.1.identifierName? with
              | none => exact .none
              | some name =>
                  cases made with
                  | none => exact .none
                  | some same =>
                      exact .some ⟨rfl, texts.lineOf rfl, rfl, links_alike same (linked _ rfl rfl) name⟩
      | _ => exact .none

theorem find?_alike {all all' : List Binding} (same : List.Forall₂ Binding.Alike all all')
    (name : Text) :
    Option.Rel Binding.Alike (all.find? (·.name = name)) (all'.find? (·.name = name)) := by
  induction same with
  | nil => exact .none
  | @cons b b' all all' first _ ih =>
      rw [List.find?_cons, List.find?_cons, first.name]
      cases decide (b.name = name) with
      | true => exact .some first
      | false => exact ih

/-- The first bindings of their names. -/
theorem foldl_alike {bs bs' kept kept' : List Binding} (same : List.Forall₂ Binding.Alike bs bs')
    (sameKept : List.Forall₂ Binding.Alike kept kept') :
    List.Forall₂ Binding.Alike
      (bs.foldl (fun kept b => if kept.any (·.name = b.name) then kept else kept ++ [b]) kept)
      (bs'.foldl (fun kept b => if kept.any (·.name = b.name) then kept else kept ++ [b]) kept') := by
  induction same generalizing kept kept' with
  | nil => exact sameKept
  | @cons b b' bs bs' first _ ih =>
      have known : kept'.any (·.name = b'.name) = kept.any (·.name = b.name) := by
        rw [first.name]
        clear ih
        induction sameKept with
        | nil => rfl
        | cons first _ ih => rw [List.any_cons, List.any_cons, first.name, ih]
      rw [List.foldl_cons, List.foldl_cons, known]
      refine ih ?_
      split
      · exact sameKept
      · exact List.rel_append sameKept (.cons first .nil)

theorem bindings_alike (texts : s.SameText s') (same : Alike k E false s.tree s'.tree)
    (unsought : ∀ o, E o → ¬ Sought s.tree k .resourceDependency o) :
    List.Forall₂ Binding.Alike (bindings s) (bindings s') := by
  have quiet (s : Source) (n : Tree) (isQuiet : n.isQuiet = true) : binding? s n = none := by
    obtain ⟨info, form⟩ := n
    cases form with
    | variableDeclarator target init => cases isQuiet
    | _ => rfl
  refine foldl_alike ?_ .nil
  rw [Node.walk_eq_preorder, Node.walk_eq_preorder, Node.filterMap_preorder (quiet s),
    Node.filterMap_preorder (quiet s')]
  have inTree : ∀ visit ∈ s.tree.loudWithin [], visit.node ∈ s.tree.preorder :=
    fun visit isVisit => Node.node_mem_preorder (List.mem_filter.mp isVisit).1
  refine List.rel_filterMap ?_ ((List.forall₂_and_left _ _).mpr ⟨inTree, same.visits⟩)
  rintro visit visit' ⟨inside, same⟩
  refine binding?_alike texts same.node fun target value r form isResource config isConfig may isLink => ?_
  exact unsought _ may (.link inside form isResource isConfig isLink)

theorem checkLink_alike (texts : s.SameText s') {b b' target target' : Binding} (same : b.Alike b')
    (sameTarget : target.Alike target') : checkLink s' b' target' = checkLink s b target := by
  unfold checkLink
  simp only [same.name, same.line, sameTarget.name, sameTarget.line, sameTarget.links,
    texts.violation same.span]

theorem checkBinding_alike (texts : s.SameText s')
    {all all' : List Binding} (sameAll : List.Forall₂ Binding.Alike all all')
    {b b' : Binding} (same : b.Alike b') :
    checkBinding s' all' b' = checkBinding s all b := by
  have targets : List.Forall₂ Binding.Alike
      (b.links.filterMap fun name => all.find? (·.name = name))
      (b.links.filterMap fun name => all'.find? (·.name = name)) := by
    refine List.rel_filterMap (R := Eq) ?_ (List.forall₂_same.mpr fun _ _ => rfl)
    rintro name _ rfl
    exact find?_alike sameAll name
  unfold checkBinding
  rw [same.links]
  dsimp only
  rw [mapM_congr_forall₂ targets fun _ _ _ sameTarget => checkLink_alike texts same sameTarget]

/-- **The rule reports the same,** if nothing that it looks for is spelled out. -/
theorem detect_alike (texts : s.SameText s') (same : Alike k E false s.tree s'.tree)
    (unsought : ∀ o, E o → ¬ Sought s.tree k .resourceDependency o) : detect s' = detect s := by
  have all := bindings_alike texts same unsought
  unfold detect
  dsimp only
  rw [mapM_congr_forall₂ all fun b _ b' same => checkBinding_alike texts all same]

end ResourceDependency

/-! ## §7. Fields of tables. -/

namespace DynamoIndexing

/-- A name is no constant text. -/
theorem staticString?_name {n : Tree} (isName : n.form = .identifier k) : n.staticString? = none := by
  obtain ⟨info, form⟩ := n
  cases isName
  rfl

theorem value_alike {isValue : Bool} {n n' : Tree} (same : Alike k E isValue n n') (name : Text) :
    (n'.findProperty? name).bind (·.value.staticString?)
      = (n.findProperty? name).bind (·.value.staticString?) := by
  have finds := same.findProperty? name
  generalize n.findProperty? name = found at finds ⊢
  generalize n'.findProperty? name = found' at finds ⊢
  cases finds with
  | neither => rfl
  | both same => exact same.value.staticString?
  | own does isName value => exact staticString?_name value

theorem indexKeys_alike {isValue : Bool} {index index' : Tree}
    (same : Alike k E isValue index index') : indexKeys index' = indexKeys index := by
  unfold indexKeys
  exact List.filterMap_congr fun key _ => value_alike same _

theorem indexKeys_name {n : Tree} (isName : n.form = .identifier k) : indexKeys n = [] := by
  obtain ⟨info, form⟩ := n
  cases isName
  rfl

theorem flatMap_indexKeys_alike {ps ps' : List (Node.Property Span)}
    (same : List.Forall₂ (Node.Property.Alike k E) ps ps') :
    ps'.flatMap (fun p => indexKeys p.value) = ps.flatMap fun p => indexKeys p.value := by
  induction same with
  | nil => rfl
  | cons first _ ih => rw [List.flatMap_cons, List.flatMap_cons, indexKeys_alike first.value, ih]

theorem collectionKeys_alike {isValue : Bool} {collection collection' : Tree}
    (same : Alike k E isValue collection collection') :
    collectionKeys collection' = collectionKeys collection := by
  have bare := same.unwrap
  unfold collectionKeys
  generalize collection.unwrap = n at bare ⊢
  generalize collection'.unwrap = n' at bare ⊢
  cases bare with
  | node info parts others values =>
      cases parts with
      | objectLiteral members =>
          exact flatMap_indexKeys_alike (Alike.properties (Node.forall₂_map_fst_snd others))
      | arrayLiteral elements =>
          have present (f : Tree × Tree → Tree) :
              (elements.map (Option.map f)).filterMap id = (elements.filterMap id).map f := by
            rw [List.filterMap_map, List.map_filterMap]
            rfl
          show ((elements.map _).filterMap id).flatMap _ = ((elements.map _).filterMap id).flatMap _
          rw [present, present, List.flatMap_map, List.flatMap_map]
          exact List.flatMap_congr fun p isElement => indexKeys_alike (values p isElement)
      | _ => rfl
  | expanded may expands =>
      obtain ⟨members, members', before, after, p, isObject, isObject', spelled⟩ :=
        expands.spelledOut
      rw [Node.objectMembers?_eq_some.mp isObject, Node.objectMembers?_eq_some.mp isObject']
      dsimp only
      rw [spelled.properties, spelled.properties', List.flatMap_append, List.flatMap_append,
        List.flatMap_cons, indexKeys_name spelled.value, List.nil_append]

theorem expiryAttribute?_alike {isValue : Bool} {ttl ttl' : Tree}
    (same : Alike k E isValue ttl ttl') : expiryAttribute? ttl' = expiryAttribute? ttl := by
  unfold expiryAttribute?
  rw [same.staticString?, value_alike same]

theorem indexedFields_alike {r r' : Resource Span} (same : r.Alike k E r') :
    indexedFields r' = indexedFields r := by
  have keysIn (name : Text) (keys : Tree → List Text)
      (kept : ∀ n n', Alike k E true n n' → keys n' = keys n)
      (none : ∀ n : Tree, n.form = .identifier k → keys n = []) :
      ((r'.findProperty? name).map fun p => keys p.value).getD []
        = ((r.findProperty? name).map fun p => keys p.value).getD [] := by
    have finds := same.findProperty? name
    generalize r.findProperty? name = found at finds ⊢
    generalize r'.findProperty? name = found' at finds ⊢
    cases finds with
    | neither => rfl
    | both same => exact kept _ _ same.value
    | own does isName value => exact none _ value
  unfold indexedFields
  dsimp only
  rw [keysIn _ indexKeys (fun _ _ => indexKeys_alike) fun _ => indexKeys_name,
    keysIn "globalIndexes" collectionKeys (fun _ _ => collectionKeys_alike) ?_,
    keysIn "localIndexes" collectionKeys (fun _ _ => collectionKeys_alike) ?_]
  · refine congrArg _ (keysIn "ttl" (fun ttl => (expiryAttribute? ttl).toList) ?_ ?_)
    · exact fun n n' same => by rw [expiryAttribute?_alike same]
    · rintro ⟨info, form⟩ isName
      cases isName
      rfl
  · rintro ⟨info, form⟩ isName
    cases isName
    rfl
  · rintro ⟨info, form⟩ isName
    cases isName
    rfl

/-- The same fields, in the same places. -/
def SameField (field field' : Text × Tree) : Prop :=
  field'.1 = field.1 ∧ field'.2.info = field.2.info

theorem declaredFields_alike {members members' : List Tree}
    (same : List.Forall₂ (Alike k E false) members members') :
    List.Forall₂ SameField (declaredFields members) (declaredFields members') := by
  refine List.rel_filterMap (fun p p' same => ?_) (Alike.properties same)
  rw [same.key.keyName?]
  cases p.key.keyName? with
  | none => exact .none
  | some name => exact .some ⟨rfl, same.span⟩

theorem checkFields_alike (texts : s.SameText s')
    {r r' : Resource Span} (same : r.Alike k E r') {fields fields' : Tree}
    (sameSpan : fields'.info = fields.info) {declared declared' : List (Text × Tree)}
    (sameFields : List.Forall₂ SameField declared declared') :
    checkFields s' r' fields' declared' = checkFields s r fields declared := by
  have names : declared'.map Prod.fst = declared.map Prod.fst := by
    induction sameFields with
    | nil => rfl
    | cons first _ ih => rw [List.map_cons, List.map_cons, first.1, ih]
  have kept (indexed : List Text) : (declared'.filter fun field => indexed.contains field.1).map
        (fun field => s'.textOf field.2)
      = (declared.filter fun field => indexed.contains field.1).map fun field =>
        s.textOf field.2 := by
    clear names
    induction sameFields with
    | nil => rfl
    | @cons field field' _ _ first _ ih =>
        rw [List.filter_cons, List.filter_cons, first.1]
        split
        · rw [List.map_cons, List.map_cons, texts.textOf first.2, ih]
        · exact ih
  unfold checkFields removalFix?
  dsimp only
  rw [indexedFields_alike same, names, kept, same.label]
  simp only [texts.textOf sameSpan, texts.replace sameSpan,
    texts.violation sameSpan, texts.lineIndent, sameSpan]

theorem checkTable_alike (texts : s.SameText s') {r r' : Resource Span} (same : r.Alike k E r')
    (declares : ∀ p, r.findProperty? "fields" = some p → ¬ E p.value.unwrap) :
    checkTable s' r' = checkTable s r := by
  have finds := same.findProperty? "fields"
  unfold checkTable
  generalize r.findProperty? "fields" = found at finds declares ⊢
  generalize r'.findProperty? "fields" = found' at finds ⊢
  cases finds with
  | neither => rfl
  | @own p does isName value =>
      obtain ⟨node, key, info, form⟩ := p
      cases value
      rfl
  | @both p p' property =>
      rcases property.value.unwrap.objectMembers? with members | ⟨may, _⟩
      · dsimp only
        generalize p.value.unwrap.objectMembers? = ms at members ⊢
        generalize p'.value.unwrap.objectMembers? = ms' at members ⊢
        cases members with
        | none => rfl
        | some members =>
            exact checkFields_alike texts same property.span (declaredFields_alike members)
      · exact absurd may (declares p rfl)

/-- **The rule reports the same,** if nothing that it looks for is spelled out. -/
theorem detect_alike (texts : s.SameText s') (same : Alike k E false s.tree s'.tree)
    (unsought : ∀ o, E o → ¬ Sought s.tree k .dynamoIndexing o) : detect s' = detect s := by
  unfold detect
  rw [mapM_congr_forall₂ (same.resourcesOf _) fun r isResource r' same => ?_]
  exact checkTable_alike texts same fun p found may => unsought _ may (.field isResource found)

end DynamoIndexing

/-! ## §8. All rules. -/

/-- **Every built-in rule reports the same on trees that say the same,** if no
member that this rule looks for is spelled out. -/
theorem Rule.detect_alike {r : Rule} (isBuiltIn : r ∈ builtIn) (texts : s.SameText s')
    (same : Alike k E false s.tree s'.tree) (unsought : ∀ o, E o → ¬ Sought s.tree k r o) :
    r.detect s' = r.detect s := by
  unfold builtIn at isBuiltIn
  simp only [List.mem_cons, List.not_mem_nil, or_false] at isBuiltIn
  rcases isBuiltIn with rfl | rfl | rfl | rfl | rfl | rfl | rfl
  · exact StageVariable.detect_alike texts same
  · exact DomainConfig.detect_alike texts same unsought
  · exact CorsConfig.detect_alike texts same unsought
  · exact EnvVariable.detect_alike texts same unsought
  · exact PulumiOutput.detect_alike texts same
  · exact ResourceDependency.detect_alike texts same unsought
  · exact DynamoIndexing.detect_alike texts same unsought

end StackLint
