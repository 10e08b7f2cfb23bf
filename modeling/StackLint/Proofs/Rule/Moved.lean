/-
  StackLint.Proofs.Rule.Moved
  ───────────────────────────
  **THE RULES REPORT THE SAME FURTHER DOWN.**

  One section for each rule.  A check compares names and forms, which move with
  the tree, and takes pieces of the text, which are found again.
-/
import StackLint.Proofs.Rule.Below
import StackLint.Proofs.Rule.Reports

namespace StackLint

open Node (MovedVisit SameForm)

variable {k : Nat} {s s' : Source}

/-! ## §1. Stages. -/

namespace StageVariable

variable {visit visit' : Visit Span}

theorem checkInputStage_moved (below : s.Below k s') (moved : MovedVisit k visit visit')
    (object name : Tree) :
    ReportsMoved k (checkInputStage s visit object name)
      (checkInputStage s' visit' (object.shift k) (name.shift k)) := by
  unfold checkInputStage
  rw [name.identifierName?_shift, object.unwrap_shift, object.unwrap.identifierName?_shift,
    Node.enclosingFunction?_shift moved.ancestors, below.path, moved.node]
  refine .ite (fun _ => .nothing) fun _ => ?_
  refine .ite (fun _ => .nothing) fun _ => ?_
  refine .ite (fun _ => .nothing) fun _ => ?_
  exact below.fixed _ (by decide) (below.replace _ _ _ _)

theorem parametersSpan_shift (params : List Tree) (info : FunctionInfo) :
    parametersSpan (params.map (Node.shift k)) (info.view (.shift k))
      = (parametersSpan params info).map (Span.view (.shift k)) := by
  obtain ⟨span, isAsync⟩ := info
  unfold parametersSpan FunctionInfo.view
  rw [List.head?_map, List.getLast?_map]
  cases span with
  | some span => rfl
  | none =>
      cases params.head? with
      | none => rfl
      | some first =>
          cases params.getLast? with
          | none => rfl
          | some last =>
              simp only [Option.map_some, Option.map_none, first.shift_info, last.shift_info]
              rfl

theorem checkRunSignature_moved (below : s.Below k s') (moved : MovedVisit k visit visit')
    (params : List Tree) (info : FunctionInfo) :
    ReportsMoved k (checkRunSignature s visit params info)
      (checkRunSignature s' visit' (params.map (Node.shift k)) (info.view (.shift k))) := by
  have sameNode : SameForm k visit.node visit'.node := by
    rw [moved.node]
    exact visit.node.sameForm_shift
  unfold checkRunSignature
  rw [List.isEmpty_map, Node.functionName?_shift sameNode moved.ancestors, parametersSpan_shift,
    below.path, moved.node]
  refine .ite (fun _ => .nothing) fun _ => ?_
  refine .ite (fun _ => .nothing) fun _ => ?_
  cases parametersSpan params info with
  | none => exact .nothing
  | some span => exact below.fixed _ (by decide) (below.fix _ _ _ _ _)

theorem checkHardcodedStage_moved (below : s.Below k s') (node target value : Tree) :
    ReportsMoved k (checkHardcodedStage s node target value)
      (checkHardcodedStage s' (node.shift k) (target.shift k) (value.shift k)) := by
  unfold checkHardcodedStage
  rw [target.identifierName?_shift, value.staticString?_shift, below.path]
  refine .ite (fun _ => .nothing) fun _ => ?_
  cases value.staticString? with
  | none => exact .nothing
  | some stage =>
      refine .ite (fun _ => ?_) fun _ => .nothing
      exact below.fixed _ (by decide) (below.replace _ _ _ _)

theorem check_moved (below : s.Below k s') (moved : MovedVisit k visit visit') :
    ReportsMoved k (check s visit) (check s' visit') := by
  unfold check
  rw [moved.node, visit.node.function?_shift, visit.node.shift_form]
  cases isFunction : visit.node.function? with
  | none =>
      cases visit.node.form with
      | propertyAccess object name optional => exact checkInputStage_moved below moved object name
      | variableDeclarator target value =>
          cases value with
          | none => exact .nothing
          | some value => exact checkHardcodedStage_moved below visit.node target value
      | _ => exact .nothing
  | some f =>
      have function := checkRunSignature_moved below moved f.1 f.2
      cases visit.node.form with
      | propertyAccess object name optional => exact checkInputStage_moved below moved object name
      | variableDeclarator target value =>
          cases value with
          | none => exact function
          | some value => exact checkHardcodedStage_moved below visit.node target value
      | _ => exact function

/-- **The rule reports the same further down.** -/
theorem detect_moved (below : s.Below k s') : ReportsAllMoved k (detect s) (detect s') :=
  below.visits (fun _ _ _ => rfl) fun _ _ moved => check_moved below moved

end StageVariable

/-! ## §2. Custom domains. -/

namespace DomainConfig

variable {L : Layout}

theorem commaEnd?_moved (below : s.Below k s') (start stop : Nat) :
    Follows (Option.Rel fun place place' => place' = place + k) (commaEnd? s start stop)
      (commaEnd? s' (start + k) (stop + k)) := by
  unfold commaEnd?
  rw [below.slice]
  cases tokenize (s.text.slice start stop) with
  | error failure => rintro _ ⟨⟩
  | ok tokens =>
      rintro _ ⟨⟩
      refine ⟨_, rfl, ?_⟩
      cases tokens.find? (·.is .comma) with
      | none => exact .none
      | some comma =>
          refine .some ?_
          show start + k + comma.start + 1 = start + comma.start + 1 + k
          omega

theorem insertMember_moved (below : s.Below k s') (object : Tree) (members : List Tree)
    (solid : 0 < object.info.stop) (snippet : Text) (confidence : Confidence)
    (description : Text) :
    Follows (Fix.Moved k) (insertMember s object members snippet confidence description)
      (insertMember s' (object.shift k) (members.map (Node.shift k)) snippet confidence
        description) := by
  unfold insertMember
  rw [List.getLast?_map]
  cases members.getLast? with
  | none => exact below.replace _ _ _ _
  | some last =>
      have stop : object.info.stop + k - 1 = object.info.stop - 1 + k := by omega
      simp only [Option.map_some]
      rw [below.textOf, last.shift_info, object.shift_info, below.lineIndent]
      dsimp only
      rw [stop]
      refine (commaEnd?_moved below _ _).bind fun place place' moved => ?_
      cases moved with
      | none => exact below.fix _ _ _ _ _
      | some isMoved =>
          rw [isMoved]
          exact below.fix _ _ _ _ _

theorem guardedSubject?_shift (left right : Tree) :
    guardedSubject? (left.shift k) (right.shift k)
      = (guardedSubject? left right).map (Node.shift k) := by
  unfold guardedSubject?
  rw [left.staticString?_shift, right.staticString?_shift]
  split
  · rfl
  · split <;> rfl

theorem checkGuard_moved (below : s.Below k s') (test : Tree) (label : Text) :
    ReportsMoved k (checkGuard s test label) (checkGuard s' (test.shift k) label) := by
  unfold checkGuard
  rw [test.shift_form]
  cases test.form with
  | binary op left right =>
      refine .ite (fun _ => ?_) fun _ => .nothing
      rw [guardedSubject?_shift]
      cases guardedSubject? left right with
      | none => exact .nothing
      | some subject =>
          refine below.fixed _ (by decide) ?_
          rw [below.textOf]
          exact below.replace _ _ _ _
  | _ => exact .nothing

theorem callArguments?_shift (n : Tree) :
    callArguments? (n.shift k) = (callArguments? n).map (List.map (Node.shift k)) := by
  unfold callArguments?
  rw [n.shift_form]
  cases n.form <;> rfl

theorem allows_shift (below : s.Below k s') (value : Tree) :
    allows s' (value.shift k) = allows s value := by
  unfold allows
  rw [below.textOf, value.shift_form]
  cases value.form <;> rfl

theorem hasOverride_shift (below : s.Below k s') (provider : Tree) :
    hasOverride s' (provider.shift k) = hasOverride s provider := by
  unfold hasOverride
  rw [callArguments?_shift]
  cases callArguments? provider with
  | none => rfl
  | some arguments =>
      cases arguments with
      | nil => rfl
      | cons argument others =>
          simp only [Option.map_some, List.map_cons, Node.unwrap_shift, Node.isObject_shift,
            Node.findProperty?_shift]
          cases argument.findProperty? "override" with
          | none => rfl
          | some override =>
              simp only [Option.map_some, Node.Property.shift, Node.unwrap_shift,
                allows_shift below]

/-- A node that has a token does not end where the text begins. -/
theorem stop_pos (on : s.On L) {n : Tree} (inside : n ∈ s.tree.preorder)
    (solid : n.form.isSolid = true) : 0 < n.info.stop := by
  obtain ⟨_, _, _, placed⟩ := on.placed_of_strict inside (Form.isSolid_iff.mp solid).1
  exact Nat.zero_lt_of_lt (placed.wide solid)

theorem overrideFix?_moved (below : s.Below k s') (on : s.On L) {provider : Tree}
    (inside : provider ∈ s.tree.preorder) :
    OffersMoved k (overrideFix? s provider) (overrideFix? s' (provider.shift k)) := by
  unfold overrideFix?
  rw [callArguments?_shift]
  cases isCall : callArguments? provider with
  | none => exact .nothing
  | some arguments =>
      obtain ⟨callee, optional, form⟩ := form_of_callArguments? isCall
      cases arguments with
      | nil =>
          have ends := stop_pos on inside (by rw [form]; rfl)
          have closing : provider.info.stop + k - 1 = provider.info.stop - 1 + k := by omega
          simp only [Option.map_some, List.map_nil, provider.shift_info, closing]
          refine (below.charAt _).bind fun c _ same => ?_
          rw [← same]
          refine .ite (fun _ => ?_) fun _ => .nothing
          exact (below.fix _ _ _ _ _).bind fun _ _ moved => .pure (.some moved)
      | cons argument others =>
          simp only [Option.map_some, List.map_cons, Node.unwrap_shift, Node.objectMembers?_shift,
            Node.findProperty?_shift]
          cases isObject : argument.unwrap.objectMembers? with
          | none => exact .nothing
          | some members =>
              simp only [Option.map_some]
              cases argument.unwrap.findProperty? "override" with
              | some override =>
                  exact (below.replace _ _ _ _).bind fun _ _ moved => .pure (.some moved)
              | none =>
                  have isArgument : argument ∈ provider.children :=
                    Node.mem_children_of_form form (List.mem_cons_of_mem _ (List.mem_cons_self ..))
                  have inside : argument.unwrap ∈ s.tree.preorder := Node.unwrap_mem_of_mem
                    (Node.mem_preorder_trans (Node.mem_preorder_of_mem_children isArgument) inside)
                  have solid := stop_pos on inside
                    (by rw [Node.objectMembers?_eq_some.mp isObject]; rfl)
                  exact (insertMember_moved below _ members solid _ _ _).bind
                    fun _ _ moved => .pure (.some moved)

theorem checkDns_moved (below : s.Below k s') (on : s.On L) (label : Text) {domain : Tree}
    (inside : domain ∈ s.tree.preorder) :
    ReportsMoved k (checkDns s label domain) (checkDns s' label (domain.shift k)) := by
  unfold checkDns
  rw [Node.objectMembers?_shift, Node.findProperty?_shift, Node.findProperty?_shift]
  cases isObject : domain.objectMembers? with
  | none => exact .nothing
  | some members =>
      cases domain.findProperty? "name" with
      | none => exact .nothing
      | some name =>
          simp only [Option.map_some]
          cases found : domain.findProperty? "dns" with
          | none =>
              have solid := stop_pos on inside
                (by rw [Node.objectMembers?_eq_some.mp isObject]; rfl)
              exact below.fixed _ (by decide) (insertMember_moved below _ members solid _ _ _)
          | some dns =>
              have isProperty := (Node.isPropertyOf_of_findProperty? found).trans inside
              simp only [Option.map_some, Node.Property.shift, Node.unwrap_shift,
                hasOverride_shift below]
              refine .ite (fun _ => .nothing) fun _ => ?_
              refine (overrideFix?_moved below on isProperty.unwrap_value).bind fun _ _ moved => ?_
              exact below.report _ (by decide) moved

theorem checkConditional_moved (below : s.Below k s') (on : s.On L) (label : Text)
    {domain test consequent alternate : Tree} (inside : domain ∈ s.tree.preorder)
    (form : domain.form = .conditional test consequent alternate) :
    ReportsAllMoved k
      (do
        let guard ← checkGuard s test.unwrap label
        let branches ← [consequent.unwrap, alternate.unwrap].mapM (checkDns s label)
        return (guard :: branches).filterMap id)
      (do
        let guard ← checkGuard s' (test.shift k).unwrap label
        let branches ←
          [(consequent.shift k).unwrap, (alternate.shift k).unwrap].mapM (checkDns s' label)
        return (guard :: branches).filterMap id) := by
  have branch {n : Tree} (isBranch : n ∈ [consequent, alternate]) :
      ReportsMoved k (checkDns s label n.unwrap) (checkDns s' label (n.shift k).unwrap) := by
    rw [n.unwrap_shift]
    refine checkDns_moved below on label (Node.unwrap_mem_of_mem ?_)
    have isChild := Node.mem_children_of_form form (List.mem_cons_of_mem _ isBranch)
    exact Node.mem_preorder_trans (Node.mem_preorder_of_mem_children isChild) inside
  rw [test.unwrap_shift]
  refine (checkGuard_moved below test.unwrap label).bind fun guard guard' first => ?_
  refine Follows.bind (R := List.Forall₂ (Option.Rel (Violation.Moved k))) ?_
    fun branches branches' others => .pure (forall₂_filterMap_id (.cons first others))
  refine Follows.mapM (R := fun n n' =>
    ReportsMoved k (checkDns s label n) (checkDns s' label n')) ?_ fun _ _ _ reports => reports
  refine .cons (branch (List.mem_cons_self ..)) (.cons (branch ?_) .nil)
  exact List.mem_cons_of_mem _ (List.mem_cons_self ..)

theorem checkResource_moved (below : s.Below k s') (on : s.On L) {r : Resource Span}
    (isResource : r ∈ s.tree.resources) :
    ReportsAllMoved k (checkResource s r) (checkResource s' (r.shift k)) := by
  unfold checkResource
  rw [r.findProperty?_shift]
  cases found : r.findProperty? "domain" with
  | none => exact .nil
  | some property =>
      have inside := (Resource.isPropertyOf_of_findProperty? isResource found).unwrap_value
      have plain : ReportsAllMoved k
          (do return (← checkDns s r.label property.value.unwrap).toList)
          (do return (← checkDns s' r.label (property.value.unwrap.shift k)).toList) := by
        refine (checkDns_moved below on r.label inside).bind fun report report' moved => .pure ?_
        cases moved with
        | none => exact .nil
        | some moved => exact .cons moved .nil
      simp only [Option.map_some, Node.Property.shift, Node.unwrap_shift]
      rw [Node.shift_form]
      cases form : property.value.unwrap.form with
      | conditional test consequent alternate =>
          exact checkConditional_moved below on r.label inside form
      | _ => exact plain

/-- **The rule reports the same further down.** -/
theorem detect_moved (below : s.Below k s') (on : s.On L) :
    ReportsAllMoved k (detect s) (detect s') :=
  below.resourcesOf fun _ isResource =>
    checkResource_moved below on (Resource.mem_resources_of_mem_resourcesOf isResource)

end DomainConfig

/-! ## §3. CORS settings. -/

namespace CorsConfig

theorem renamedKey_shift (key : Tree) (name : Text) :
    renamedKey (key.shift k) name = renamedKey key name := by
  unfold renamedKey
  rw [key.shift_form]
  cases key.form <;> rfl

theorem checkProperty_moved (below : s.Below k s') (label : Text)
    (property : Node.Property Span) :
    ReportsMoved k (checkProperty s label property)
      (checkProperty s' label (property.shift k)) := by
  have quotesNoLine : ∀ m ∈ misspellings, m.code ≠ "SST-VAL-052" := by decide
  unfold checkProperty Node.Property.shift
  simp only [Node.keyName?_shift, renamedKey_shift]
  cases found : misspellings.find? fun m => property.key.keyName? = some m.wrong with
  | none => exact .nothing
  | some m =>
      exact below.fixed _ (quotesNoLine m (List.mem_of_find?_eq_some found))
        (below.replace _ _ _ _)

theorem arrayFix?_moved (below : s.Below k s') (array : Tree) (elements : List (Option Tree)) :
    OffersMoved k (arrayFix? s array elements)
      (arrayFix? s' (array.shift k) (elements.map (Option.map (Node.shift k)))) := by
  unfold arrayFix?
  match elements with
  | [] | [none] | none :: _ :: _ | some _ :: _ :: _ => exact .nothing
  | [some element] =>
      simp only [List.map_cons, List.map_nil, Option.map_some, Node.unwrap_shift,
        Node.isObject_shift, below.textOf]
      refine .ite (fun _ => ?_) fun _ => .nothing
      exact (below.replace _ _ _ _).bind fun _ _ moved => .pure (.some moved)

theorem checkResource_moved (below : s.Below k s') (r : Resource Span) :
    ReportsAllMoved k (checkResource s r) (checkResource s' (r.shift k)) := by
  unfold checkResource
  rw [r.findProperty?_shift]
  cases r.findProperty? "cors" with
  | none => exact .nil
  | some cors =>
      simp only [Option.map_some, Node.Property.shift, Node.unwrap_shift]
      rw [Node.shift_form]
      cases cors.value.unwrap.form with
      | arrayLiteral elements =>
          refine (arrayFix?_moved below cors.value.unwrap elements).bind fun _ _ moved => ?_
          refine (below.violation cors.node ?_ moved).bind fun _ _ moved => .pure (.cons moved .nil)
          rfl
      | objectLiteral members =>
          show ReportsAllMoved k _ (do
            return (← (Node.properties (members.map (Node.shift k))).mapM
              (checkProperty s' r.label)).filterMap id)
          rw [Node.properties_shift]
          refine ReportsMoved.mapM (Source.Below.forall₂_map _ _) fun p _ p' isMoved => ?_
          rw [isMoved]
          exact checkProperty_moved below r.label p
      | _ => exact .nil

/-- **The rule reports the same further down.** -/
theorem detect_moved (below : s.Below k s') : ReportsAllMoved k (detect s) (detect s') := by
  unfold detect
  rw [below.tree.resources]
  refine ReportsAllMoved.mapM (Source.Below.forall₂_map _ _) fun r _ r' isMoved => ?_
  rw [isMoved]
  exact checkResource_moved below r

end CorsConfig

/-! ## §4. Environment variables. -/

namespace EnvVariable

theorem renamedKey_shift (key : Tree) (name : Text) :
    renamedKey (key.shift k) name = renamedKey key name := by
  unfold renamedKey
  rw [key.shift_form]
  cases key.form <;> rfl

theorem rename?_moved (below : s.Below k s') (key : Tree) (name description : Text) :
    OffersMoved k (rename? s key name description) (rename? s' (key.shift k) name description) := by
  unfold rename?
  rw [renamedKey_shift]
  refine .ite (fun _ => .nothing) fun _ => ?_
  exact (below.replace _ _ _ _).bind fun _ _ moved => .pure (.some moved)

theorem checkNamed_moved (below : s.Below k s') (label : Text) (property : Node.Property Span)
    (name : Text) :
    ReportsMoved k (checkNamed s label property name)
      (checkNamed s' label (property.shift k) name) := by
  have reported {code message : Text} {fix fix' : Option Fix} (quotesNoLine : code ≠ "SST-VAL-052")
      (moved : Option.Rel (Fix.Moved k) fix fix') :
      ReportsMoved k
        (some <$> s.violation code property.node label ("environment." ++ name) message .error fix)
        (some <$> s'.violation code (property.node.shift k) label ("environment." ++ name) message
          .error fix') := by
    rw [← bind_pure_comp, ← bind_pure_comp]
    exact below.report property.node quotesNoLine moved
  unfold checkNamed Node.Property.shift
  refine .ite (fun _ => reported (by decide) .none) fun _ => ?_
  refine .ite (fun _ => ?_) fun _ => ?_
  · exact (rename?_moved below _ _ _).bind fun _ _ moved => reported (by decide) moved
  refine .ite (fun _ => ?_) fun _ => .nothing
  exact (rename?_moved below _ _ _).bind fun _ _ moved => reported (by decide) moved

theorem checkProperty_moved (below : s.Below k s') (label : Text)
    (property : Node.Property Span) :
    ReportsMoved k (checkProperty s label property)
      (checkProperty s' label (property.shift k)) := by
  unfold checkProperty
  rw [show (property.shift k).key.keyName? = property.key.keyName? from property.key.keyName?_shift]
  split
  · exact .nothing
  · exact .nothing
  · exact checkNamed_moved below label property _

theorem checkFunction_moved (below : s.Below k s') (r : Resource Span) :
    ReportsAllMoved k (checkFunction s r) (checkFunction s' (r.shift k)) := by
  have members : ((r.shift k).findProperty? "environment").bind (·.value.unwrap.objectMembers?)
      = ((r.findProperty? "environment").bind (·.value.unwrap.objectMembers?)).map
          (List.map (Node.shift k)) := by
    rw [r.findProperty?_shift]
    cases r.findProperty? "environment" with
    | none => rfl
    | some property =>
        simp only [Option.map_some, Option.bind_some, Node.Property.shift, Node.unwrap_shift,
          Node.objectMembers?_shift]
  unfold checkFunction
  rw [members]
  cases (r.findProperty? "environment").bind (·.value.unwrap.objectMembers?) with
  | none => exact .nil
  | some members =>
      simp only [Option.map_some, Node.properties_shift]
      refine ReportsMoved.mapM (Source.Below.forall₂_map _ _) fun p _ p' isMoved => ?_
      rw [isMoved]
      exact checkProperty_moved below r.label p

/-- **The rule reports the same further down.** -/
theorem detect_moved (below : s.Below k s') : ReportsAllMoved k (detect s) (detect s') :=
  below.resourcesOf fun r _ => checkFunction_moved below r

end EnvVariable

/-! ## §5. Deferred values. -/

namespace PulumiOutput

theorem lastProperty?_shift (n : Tree) : lastProperty? (n.shift k) = lastProperty? n := by
  unfold lastProperty?
  rw [n.unwrap_shift, Node.shift_form]
  cases n.unwrap.form with
  | propertyAccess object name optional => exact name.identifierName?_shift
  | _ => rfl

theorem loneSubstitution?_shift (template : Tree) :
    loneSubstitution? (template.shift k) = (loneSubstitution? template).map (Node.shift k) := by
  unfold loneSubstitution?
  rw [template.shift_form]
  cases template.form with
  | templateLiteral head spans =>
      rcases head with _ | ⟨_, _⟩
      · rcases spans with _ | ⟨span, _ | ⟨_, _⟩⟩
        · rfl
        · have noHead : (View.shift k).name [] = [] := rfl
          dsimp only [Form.map, Form.relabel]
          rw [noHead, List.map_cons, List.map_nil]
          dsimp only
          rw [span.shift_form]
          cases span.form with
          | templateSpan e literal => cases literal <;> rfl
          | _ => rfl
        · rfl
      · rfl
  | _ => rfl

theorem checkInterpolation_moved (below : s.Below k s') (node tag template : Tree) :
    ReportsMoved k (checkInterpolation s node tag template)
      (checkInterpolation s' (node.shift k) (tag.shift k) (template.shift k)) := by
  unfold checkInterpolation
  rw [tag.unwrap_shift, Node.identifierName?_shift, loneSubstitution?_shift, below.path]
  refine .ite (fun _ => .nothing) fun _ => ?_
  cases loneSubstitution? template with
  | none => exact .nothing
  | some inner =>
      simp only [Option.map_some, below.textOf]
      exact below.fixed _ (by decide) (below.replace _ _ _ _)

theorem operands_shift (n : Tree) : operands (n.shift k) = (operands n).map (Node.shift k) := by
  induction n using operands.induct with
  | case1 info left right ihLeft ihRight =>
      rw [Node.shift, Node.view_mk]
      show operands (left.shift k) ++ operands (right.shift k) = _
      rw [ihLeft, ihRight, operands, List.map_append]
  | case2 n notAddition =>
      rw [operands_of_not_addition notAddition, List.map_singleton]
      obtain ⟨info, form⟩ := n
      rw [Node.shift, Node.view_mk]
      cases form with
      | binary op left right =>
          cases op with
          | add => exact absurd rfl (notAddition info left right)
          | _ => rfl
      | _ => rfl

theorem isAddition_shift (n : Tree) : isAddition (n.shift k) = isAddition n := by
  unfold isAddition
  rw [n.shift_form]
  cases n.form with
  | binary op left right => cases op <;> rfl
  | _ => rfl

theorem isInterpolateTag_shift (tag : Tree) :
    isInterpolateTag (tag.shift k) = isInterpolateTag tag := by
  unfold isInterpolateTag
  rw [tag.unwrap_shift, Node.shift_form, Node.memberPath?_shift]
  cases tag.unwrap.form <;> rfl

theorem resolves_shift (n : Tree) : resolves (n.shift k) = resolves n := by
  unfold resolves
  rw [n.shift_form]
  cases n.form with
  | taggedTemplate tag template => exact isInterpolateTag_shift tag
  | call callee arguments optional =>
      show (lastProperty? (callee.shift k) == _) = _
      rw [lastProperty?_shift]
  | _ => rfl

/-- What is asked of the form of a node is the same for all around two places. -/
theorem any_sameForm {p : Tree → Bool} (onForm : ∀ n n' : Tree, n.form = n'.form → p n = p n')
    (kept : ∀ n, p (n.shift k) = p n) {around around' : List Tree}
    (same : List.Forall₂ (SameForm k) around around') : around'.any p = around.any p := by
  induction same with
  | nil => rfl
  | @cons n n' around around' isSame _ ih =>
      rw [List.any_cons, List.any_cons, onForm n' (n.shift k) isSame, kept, ih]

theorem head?_isAddition {around around' : List Tree}
    (same : List.Forall₂ (SameForm k) around around') :
    around'.head?.any isAddition = around.head?.any isAddition := by
  cases same with
  | nil => rfl
  | @cons n n' around around' isSame _ =>
      show isAddition n' = isAddition n
      rw [← isAddition_shift (k := k) n]
      unfold isAddition
      rw [isSame]

theorem templatePart_shift (below : s.Below k s') (operand : Tree) :
    templatePart s' (operand.shift k) = templatePart s operand := by
  have inside : s'.text.slice (operand.unwrap.info.start + k + 1) (operand.unwrap.info.stop + k - 1)
      = s.text.slice (operand.unwrap.info.start + 1) (operand.unwrap.info.stop - 1) := by
    rw [← below.slice]
    -- At the start of the text both pieces are empty.
    unfold Text.slice
    congr 1
    · omega
    · congr 1
      omega
  unfold templatePart
  rw [operand.unwrap_shift]
  dsimp only
  rw [Node.shift_form, Node.shift_info, below.textOf, inside]
  cases operand.unwrap.form <;> rfl

theorem interpolation_shift (below : s.Below k s') (operands : List Tree) :
    interpolation s' (operands.map (Node.shift k)) = interpolation s operands := by
  unfold interpolation
  rw [List.flatMap_map]
  congr 2
  exact List.flatMap_congr fun operand _ => templatePart_shift below operand

theorem checkAddition_moved (below : s.Below k s') {visit visit' : Visit Span}
    (moved : MovedVisit k visit visit') :
    ReportsMoved k (checkAddition s visit) (checkAddition s' visit') := by
  have outermost := head?_isAddition moved.ancestors
  have resolved : visit'.ancestors.any resolves = visit.ancestors.any resolves := by
    refine any_sameForm (fun n n' same => ?_) resolves_shift moved.ancestors
    unfold resolves
    rw [same]
  have outputs : ((operands (visit.node.shift k)).any fun n =>
        (lastProperty? n).any outputProperties.contains)
      = (operands visit.node).any fun n => (lastProperty? n).any outputProperties.contains := by
    rw [operands_shift, List.any_map]
    congr 1
    funext n
    show (lastProperty? (n.shift k)).any _ = _
    rw [lastProperty?_shift]
  unfold checkAddition
  rw [moved.node, outermost, resolved, below.path]
  dsimp only
  rw [flatten_eq_operands, flatten_eq_operands, outputs, operands_shift, interpolation_shift below]
  refine .ite (fun _ => .nothing) fun _ => ?_
  refine .ite (fun _ => ?_) fun _ => .nothing
  refine .ite (fun _ => .nothing) fun _ => ?_
  exact below.fixed _ (by decide) (below.replace _ _ _ _)

theorem check_moved (below : s.Below k s') {visit visit' : Visit Span}
    (moved : MovedVisit k visit visit') : ReportsMoved k (check s visit) (check s' visit') := by
  have addition := checkAddition_moved below moved
  unfold check
  rw [moved.node, visit.node.shift_form]
  cases visit.node.form with
  | taggedTemplate tag template => exact checkInterpolation_moved below visit.node tag template
  | binary op left right =>
      cases op with
      | add => exact addition
      | _ => exact .nothing
  | _ => exact .nothing

/-- **The rule reports the same further down.** -/
theorem detect_moved (below : s.Below k s') : ReportsAllMoved k (detect s) (detect s') :=
  below.visits (fun _ _ _ => rfl) fun _ _ moved => check_moved below moved

end PulumiOutput

/-! ## §6. Links between resources. -/

namespace ResourceDependency

/-- The binding, one line further down. -/
def Binding.shift (k : Nat) (b : Binding) : Binding :=
  { b with line := b.line + 1, node := b.node.shift k }

theorem linkedNames_shift (value : Tree) : linkedNames (value.shift k) = linkedNames value := by
  have same (candidates : List (Option Tree)) :
      (candidates.map (Option.map (Node.shift k))).filterMap (fun element =>
          (element.bind Node.rootIdentifier?).bind Node.identifierName?)
        = candidates.filterMap fun element =>
          (element.bind Node.rootIdentifier?).bind Node.identifierName? := by
    rw [List.filterMap_map]
    congr 1
    funext element
    cases element with
    | none => rfl
    | some n =>
        show ((n.shift k).rootIdentifier?).bind _ = n.rootIdentifier?.bind _
        rw [n.rootIdentifier?_shift]
        cases n.rootIdentifier? with
        | none => rfl
        | some root => exact root.identifierName?_shift
  unfold linkedNames
  rw [value.shift_form]
  cases value.form with
  | arrayLiteral elements => exact same elements
  | _ => exact same [some value]

theorem links_shift (name : Text) (r : Resource Span) : links name (r.shift k) = links name r := by
  unfold links
  rw [r.findProperty?_shift]
  cases r.findProperty? "link" with
  | none => rfl
  | some link =>
      simp only [Option.map_some, Node.Property.shift, Node.unwrap_shift, linkedNames_shift]

theorem binding?_shift (below : s.Below k s') (node : Tree) :
    binding? s' (node.shift k) = (binding? s node).map (Binding.shift k) := by
  unfold binding?
  rw [node.shift_form]
  cases node.form with
  | variableDeclarator target value =>
      cases value with
      | none => rfl
      | some value =>
          show ((target.shift k).identifierName?.bind fun name =>
              (Resource.ofNode? (value.shift k).unwrap).bind fun resource =>
                some (Binding.mk name (s'.lineOf (node.shift k)) (node.shift k)
                  (links name resource))) = _
          rw [target.identifierName?_shift, value.unwrap_shift, Resource.ofNode?_shift,
            below.lineOf]
          show _ = Option.map (Binding.shift k) (target.identifierName?.bind fun name =>
            (Resource.ofNode? value.unwrap).bind fun resource =>
              some ⟨name, s.lineOf node, node, links name resource⟩)
          cases target.identifierName? with
          | none => rfl
          | some name =>
              cases Resource.ofNode? value.unwrap with
              | none => rfl
              | some r =>
                  show some (Binding.mk _ _ _ (links name (r.shift k))) = _
                  rw [links_shift]
                  rfl
  | _ => rfl

theorem bindings_shift (below : s.Below k s') :
    bindings s' = (bindings s).map (Binding.shift k) := by
  obtain ⟨nodes, isPreorder, isPreorder'⟩ := below.tree.preorder
  obtain ⟨span, span', statements, isTree, isTree'⟩ := below.tree
  have root : binding? s s.tree = none := by
    rw [isTree]
    rfl
  have root' : binding? s' s'.tree = none := by
    rw [isTree']
    rfl
  have found : (nodes.map (Node.shift k)).filterMap (binding? s')
      = (nodes.filterMap (binding? s)).map (Binding.shift k) := by
    rw [List.filterMap_map, List.map_filterMap]
    congr 1
    exact funext (binding?_shift below)
  unfold bindings
  rw [Node.walk_eq_preorder, Node.walk_eq_preorder, isPreorder, isPreorder', List.filterMap_cons_none root, List.filterMap_cons_none root',
    found, List.foldl_map, ← List.map_nil (f := Binding.shift k)]
  refine List.foldl_hom (List.map (Binding.shift k)) fun kept b => ?_
  have known : (kept.map (Binding.shift k)).any (fun other => other.name = b.name)
      = kept.any fun other => other.name = b.name := by
    rw [List.any_map]
    rfl
  show (if (kept.map (Binding.shift k)).any (fun other => other.name = b.name) then _ else _) = _
  rw [known]
  split
  · rfl
  · rw [List.map_append]
    rfl

theorem checkLink_moved (below : s.Below k s') (b target : Binding) :
    ReportsAllMoved k (checkLink s b target) (checkLink s' (b.shift k) (target.shift k)) := by
  have reported {code message message' : Text} (moved : MovedMessage code message message') :
      ReportsAllMoved k
        (List.singleton <$> s.violation code b.node b.name "link" message .error none)
        (List.singleton <$> s'.violation code (b.node.shift k) b.name "link" message' .error
          none) := by
    rw [← bind_pure_comp, ← bind_pure_comp]
    exact (below.violation b.node moved .none).bind fun _ _ moved => .pure (.cons moved .nil)
  have later : ((target.shift k).line > (b.shift k).line) = (target.line > b.line) :=
    propext Nat.add_lt_add_iff_right
  unfold checkLink
  simp only [later]
  refine .ite_bind (reported rfl) .nil fun circular circular' first => ?_
  refine .ite_bind (reported ⟨target.name, target.line, rfl, rfl⟩) .nil
    fun early early' second => ?_
  exact .pure (List.rel_append first second)

theorem checkBinding_moved (below : s.Below k s') (all : List Binding) (b : Binding) :
    ReportsAllMoved k (checkBinding s all b)
      (checkBinding s' (all.map (Binding.shift k)) (b.shift k)) := by
  have targets : (b.shift k).links.filterMap
        (fun name => (all.map (Binding.shift k)).find? fun other => other.name = name)
      = (b.links.filterMap fun name => all.find? fun other => other.name = name).map
          (Binding.shift k) := by
    rw [List.map_filterMap]
    congr 1
    funext name
    rw [List.find?_map]
    rfl
  unfold checkBinding
  dsimp only
  rw [targets]
  refine ReportsAllMoved.mapM (Source.Below.forall₂_map _ _) fun target _ target' isMoved => ?_
  rw [isMoved]
  exact checkLink_moved below b target

/-- **The rule reports the same further down.** -/
theorem detect_moved (below : s.Below k s') : ReportsAllMoved k (detect s) (detect s') := by
  unfold detect
  dsimp only
  rw [bindings_shift below]
  refine ReportsAllMoved.mapM (Source.Below.forall₂_map _ _) fun b _ b' isMoved => ?_
  rw [isMoved]
  exact checkBinding_moved below _ b

end ResourceDependency

/-! ## §7. Fields of tables. -/

namespace DynamoIndexing

/-- The constant text of a property is found again. -/
theorem value_shift (n : Tree) (name : Text) :
    ((n.shift k).findProperty? name).bind (·.value.staticString?)
      = (n.findProperty? name).bind (·.value.staticString?) := by
  rw [n.findProperty?_shift]
  cases n.findProperty? name with
  | none => rfl
  | some p => exact p.value.staticString?_shift

theorem indexKeys_shift (index : Tree) : indexKeys (index.shift k) = indexKeys index := by
  unfold indexKeys
  congr 1
  exact funext fun key => value_shift index _

theorem collectionKeys_shift (collection : Tree) :
    collectionKeys (collection.shift k) = collectionKeys collection := by
  unfold collectionKeys
  rw [collection.unwrap_shift, Node.shift_form]
  cases collection.unwrap.form with
  | objectLiteral members =>
      show (Node.properties (members.map (Node.shift k))).flatMap (fun p => indexKeys p.value) = _
      rw [Node.properties_shift, List.flatMap_map]
      exact List.flatMap_congr fun p _ => indexKeys_shift p.value
  | arrayLiteral elements =>
      have present : (elements.map (Option.map (Node.shift k))).filterMap id
          = (elements.filterMap id).map (Node.shift k) := by
        rw [List.filterMap_map, List.map_filterMap]
        rfl
      show ((elements.map (Option.map (Node.shift k))).filterMap id).flatMap indexKeys = _
      rw [present, List.flatMap_map]
      exact List.flatMap_congr fun n _ => indexKeys_shift n
  | _ => rfl

theorem expiryAttribute?_shift (ttl : Tree) :
    expiryAttribute? (ttl.shift k) = expiryAttribute? ttl := by
  unfold expiryAttribute?
  rw [ttl.staticString?_shift, value_shift]

theorem indexedFields_shift (r : Resource Span) : indexedFields (r.shift k) = indexedFields r := by
  have keysIn (name : Text) (keys : Tree → List Text) (kept : ∀ n, keys (n.shift k) = keys n) :
      (((r.shift k).findProperty? name).map fun p => keys p.value).getD []
        = ((r.findProperty? name).map fun p => keys p.value).getD [] := by
    rw [r.findProperty?_shift]
    cases r.findProperty? name with
    | none => rfl
    | some p => exact kept p.value
  have expiry (ttl : Tree) : (expiryAttribute? (ttl.shift k)).toList
      = (expiryAttribute? ttl).toList := by
    rw [expiryAttribute?_shift]
  unfold indexedFields
  dsimp only
  rw [keysIn _ _ indexKeys_shift, keysIn _ _ collectionKeys_shift, keysIn _ _ collectionKeys_shift]
  exact congrArg _ (keysIn "ttl" (fun ttl => (expiryAttribute? ttl).toList) expiry)

/-- A declared field, moved. -/
theorem declaredFields_shift (members : List Tree) :
    declaredFields (members.map (Node.shift k))
      = (declaredFields members).map fun field => (field.1, field.2.shift k) := by
  unfold declaredFields
  rw [Node.properties_shift, List.filterMap_map, List.map_filterMap]
  congr 1
  funext p
  show (p.key.shift k).keyName?.map _ = _
  rw [p.key.keyName?_shift]
  cases p.key.keyName? <;> rfl

theorem removalFix?_moved (below : s.Below k s') (fields : Tree) (kept : List Text)
    (unused : Text) :
    OffersMoved k (removalFix? s fields kept unused)
      (removalFix? s' (fields.shift k) kept unused) := by
  unfold removalFix?
  rw [below.textOf, fields.shift_info, below.lineIndent]
  refine .ite (fun _ => .nothing) fun _ => ?_
  exact (below.replace _ _ _ _).bind fun _ _ moved => .pure (.some moved)

theorem checkFields_moved (below : s.Below k s') (r : Resource Span) (fields : Tree)
    (declared : List (Text × Tree)) :
    ReportsMoved k (checkFields s r fields declared)
      (checkFields s' (r.shift k) (fields.shift k)
        (declared.map fun field => (field.1, field.2.shift k))) := by
  have names : (declared.map fun field => (field.1, field.2.shift k)).map Prod.fst
      = declared.map Prod.fst := by
    rw [List.map_map]
    rfl
  have kept : ((declared.map fun field => (field.1, field.2.shift k)).filter fun field =>
        (indexedFields r).contains field.1).map (fun field => s'.textOf field.2)
      = (declared.filter fun field => (indexedFields r).contains field.1).map fun field =>
          s.textOf field.2 := by
    rw [List.filter_map, List.map_map]
    exact List.map_congr_left fun field _ => below.textOf field.2
  unfold checkFields
  dsimp only
  rw [indexedFields_shift, names, kept]
  refine .ite (fun _ => .nothing) fun _ => ?_
  refine (removalFix?_moved below fields _ _).bind fun _ _ moved => ?_
  exact below.report fields (by decide) moved

theorem checkTable_moved (below : s.Below k s') (r : Resource Span) :
    ReportsMoved k (checkTable s r) (checkTable s' (r.shift k)) := by
  unfold checkTable
  rw [r.findProperty?_shift]
  cases r.findProperty? "fields" with
  | none => exact .nothing
  | some property =>
      simp only [Option.map_some, Node.Property.shift, Node.unwrap_shift,
        Node.objectMembers?_shift]
      cases property.value.unwrap.objectMembers? with
      | none => exact .nothing
      | some members =>
          simp only [Option.map_some, declaredFields_shift]
          exact checkFields_moved below r property.node (declaredFields members)

/-- **The rule reports the same further down.** -/
theorem detect_moved (below : s.Below k s') : ReportsAllMoved k (detect s) (detect s') := by
  unfold detect
  rw [below.tree.resourcesOf]
  refine ReportsMoved.mapM (Source.Below.forall₂_map _ _) fun r _ r' isMoved => ?_
  rw [isMoved]
  exact checkTable_moved below r

end DynamoIndexing

/-! ## §8. All rules. -/

/-- **Every built-in rule reports the same further down.** -/
theorem Rule.detect_moved {r : Rule} (isBuiltIn : r ∈ builtIn) {L : Layout} (below : s.Below k s')
    (on : s.On L) : ReportsAllMoved k (r.detect s) (r.detect s') := by
  unfold builtIn at isBuiltIn
  simp only [List.mem_cons, List.not_mem_nil, or_false] at isBuiltIn
  rcases isBuiltIn with rfl | rfl | rfl | rfl | rfl | rfl | rfl
  · exact StageVariable.detect_moved below
  · exact DomainConfig.detect_moved below on
  · exact CorsConfig.detect_moved below
  · exact EnvVariable.detect_moved below
  · exact PulumiOutput.detect_moved below
  · exact ResourceDependency.detect_moved below
  · exact DynamoIndexing.detect_moved below

end StackLint
