/-
  StackLint.Proofs.Rule.Addition
  ──────────────────────────────
  **REPORTED ADDITIONS.**

  Whether an addition is reported depends on its operands and on the nodes around it.
  A node lies in one child of each node around it, so that what is known of all nodes
  around an addition can be said of the places where it lies in them.
-/
import Mathlib.Data.List.Chain
import StackLint.Proofs.Rule.Found
import StackLint.Proofs.Rule.Reports

namespace StackLint

/-! ## §1. Places around a node. -/

namespace Visit

/-- The nodes around the visited one, each with the child of it in which that one lies. -/
def places (visit : Visit Span) : List (Tree × Tree) :=
  (visit.node :: visit.ancestors).zip visit.ancestors

/-- The visited node lies in some node, in a `child` that has such a place in that node. -/
def LiesIn (visit : Visit Span) (place : (child parent : Tree) → Prop) : Prop :=
  ∃ pair ∈ visit.places, place pair.1 pair.2

end Visit

namespace Node

variable {σ : Type} {n t : Node σ} {around : List (Node σ)}

/-- Each node is a child of the next one. -/
def Linked (nodes : List (Node σ)) : Prop :=
  nodes.IsChain fun child parent => child ∈ parent.children

/-- **The nodes around a visited node** contain it, and each other. -/
theorem linked_of_mem_visitsWithin {visit : Visit σ} (isVisit : visit ∈ t.visitsWithin around)
    (linked : Linked (t :: around)) : Linked (visit.node :: visit.ancestors) := by
  induction t using induct generalizing around with
  | h info form ih =>
      rw [visitsWithin_eq] at isVisit
      rcases List.mem_cons.mp isVisit with rfl | below
      · exact linked
      · obtain ⟨child, isChild, inside⟩ := List.mem_flatMap.mp below
        exact ih child isChild inside (.cons_cons isChild linked)

theorem linked_of_mem_visits {visit : Visit σ} (isVisit : visit ∈ t.visits) :
    Linked (visit.node :: visit.ancestors) :=
  linked_of_mem_visitsWithin isVisit (.singleton t)

/-- The first node is one of the nodes of each. -/
theorem Linked.mem_preorder (linked : Linked (n :: around)) {m : Node σ} (inside : m ∈ n :: around) :
    n ∈ m.preorder := by
  induction around generalizing n with
  | nil =>
      obtain rfl := List.mem_singleton.mp inside
      exact mem_preorder_self m
  | cons parent around ih =>
      rcases List.mem_cons.mp inside with rfl | outside
      · exact mem_preorder_self m
      · have isChild := (List.isChain_cons_cons.mp linked).1
        have later := ih (List.isChain_cons_cons.mp linked).2 outside
        exact mem_preorder_trans (mem_preorder_of_mem_children isChild) later

/-- Every node around is the parent of the one before it. -/
theorem exists_child {parent : Node σ} (inside : parent ∈ around) :
    ∃ child, (child, parent) ∈ (n :: around).zip around := by
  induction around generalizing n with
  | nil => cases inside
  | cons first around ih =>
      rcases List.mem_cons.mp inside with rfl | outside
      · exact ⟨n, List.mem_cons_self ..⟩
      · obtain ⟨child, pair⟩ := ih (n := first) outside
        exact ⟨child, List.mem_cons_of_mem _ pair⟩

theorem Linked.mem_children (linked : Linked (n :: around)) {child parent : Node σ}
    (pair : (child, parent) ∈ (n :: around).zip around) : child ∈ parent.children := by
  induction around generalizing n with
  | nil => cases pair
  | cons first around ih =>
      rcases List.mem_cons.mp pair with same | later
      · cases same
        exact (List.isChain_cons_cons.mp linked).1
      · exact ih (List.isChain_cons_cons.mp linked).2 later

end Node

namespace PulumiOutput

/-! ## §2. Tags. -/

/-- An addition among the nodes of a tree is below its parentheses and assertions. -/
theorem addition_of_unwrap {tag n : Tree} (inside : n ∈ tag.preorder) (adds : isAddition n = true) :
    n ∈ tag.unwrap.preorder := by
  induction tag using Node.unwrap.induct with
  | case1 info inner ih =>
      rcases Node.mem_preorder_mk.mp inside with rfl | ⟨child, isChild, below⟩
      · cases adds
      · obtain rfl := List.mem_singleton.mp isChild
        exact ih below
  | case2 info inner assertion ih =>
      rcases Node.mem_preorder_mk.mp inside with rfl | ⟨child, isChild, below⟩
      · cases adds
      · obtain rfl := List.mem_singleton.mp isChild
        exact ih below
  | case3 tag notParen notAssertion =>
      have same : tag.unwrap = tag := by
        rw [Node.unwrap.eq_def]
        split
        · next info inner => exact absurd rfl (notParen info inner)
        · next info inner assertion => exact absurd rfl (notAssertion info inner assertion)
        · rfl
      rw [same]
      exact inside

theorem form_of_identifierName? {n : Tree} {name : Text} (named : n.identifierName? = some name) :
    n.form = .identifier name := by
  unfold Node.identifierName? at named
  split at named
  · next name' form =>
      cases named
      exact form
  · cases named

/-- Nothing is added in an identifier. -/
theorem not_isAddition_of_identifier {t n : Tree} {name : Text} (form : t.form = .identifier name)
    (inside : n ∈ t.preorder) : isAddition n = false := by
  obtain ⟨info, _⟩ := t
  subst form
  rcases Node.mem_preorder_mk.mp inside with rfl | ⟨child, isChild, _⟩
  · rfl
  · cases isChild

theorem not_isAddition_of_memberPath {t n : Tree} {path : List Text}
    (isPath : t.memberPathReversed? = some path) (inside : n ∈ t.preorder) : isAddition n = false := by
  induction t using Node.memberPathReversed?.induct generalizing path with
  | case1 info name => exact not_isAddition_of_identifier rfl inside
  | case2 info object name optional ih =>
      rw [Node.memberPathReversed?] at isPath
      obtain ⟨last, isLast, isPath⟩ := Option.bind_eq_some_iff.mp isPath
      obtain ⟨others, isOthers, _⟩ := Option.bind_eq_some_iff.mp isPath
      rcases Node.mem_preorder_mk.mp inside with rfl | ⟨child, isChild, below⟩
      · rfl
      · rcases List.mem_pair.mp isChild with rfl | rfl
        · exact ih isOthers below
        · exact not_isAddition_of_identifier (form_of_identifierName? isLast) below
  | case3 t notName notAccess =>
      have none : t.memberPathReversed? = none := by
        rw [Node.memberPathReversed?.eq_def]
        split
        · next info name => exact absurd rfl (notName info name)
        · next info object name optional => exact absurd rfl (notAccess info object name optional)
        · rfl
      rw [none] at isPath
      cases isPath

/-- **Nothing is added in the tag** of an interpolated template. -/
theorem not_isAddition_of_tag {tag n : Tree} (isTag : isInterpolateTag tag = true)
    (inside : n ∈ tag.preorder) : isAddition n = false := by
  refine Bool.eq_false_iff.mpr fun adds => ?_
  have inside := addition_of_unwrap inside adds
  have none : isAddition n = false := by
    unfold isInterpolateTag at isTag
    split at isTag
    · next name form => exact not_isAddition_of_identifier form inside
    · obtain ⟨path, isPath, _⟩ := Option.map_eq_some_iff.mp (beq_iff_eq.mp isTag)
      exact not_isAddition_of_memberPath isPath inside
  rw [none] at adds
  cases adds

/-! ## §3. Where values are resolved. -/

/-- The template of an interpolated template, in it. -/
def IsTemplate (child parent : Tree) : Prop :=
  ∃ tag, parent.form = .taggedTemplate tag child ∧ isInterpolateTag tag = true

/-- The callee is a member named `apply`. -/
def isApply (callee : Tree) : Bool :=
  lastProperty? callee == some (.ofString "apply")

/-- An argument of `apply`, in the call. -/
def IsArgument (child parent : Tree) : Prop :=
  ∃ callee arguments optional, parent.form = .call callee arguments optional
    ∧ isApply callee = true ∧ child ∈ arguments

/-- The callee, in a call of `apply`. -/
def IsCallee (child parent : Tree) : Prop :=
  ∃ arguments optional, parent.form = .call child arguments optional ∧ isApply child = true

/-- **Where values are resolved around an addition,** it lies in the template of an
interpolated template, or in an argument of `apply`, or in the callee. -/
theorem any_resolves_iff {visit : Visit Span} (linked : Node.Linked (visit.node :: visit.ancestors))
    (adds : isAddition visit.node = true) :
    visit.ancestors.any resolves = true
      ↔ visit.LiesIn IsTemplate ∨ visit.LiesIn IsArgument ∨ visit.LiesIn IsCallee := by
  rw [List.any_eq_true]
  constructor
  · rintro ⟨parent, around, isResolving⟩
    obtain ⟨child, pair⟩ := Node.exists_child (n := visit.node) around
    have isChild : child ∈ parent.children := linked.mem_children pair
    have within : visit.node ∈ child.preorder := linked.mem_preorder (List.of_mem_zip pair).1
    unfold resolves at isResolving
    split at isResolving
    · next tag template form =>
        unfold Node.children at isChild
        rw [form] at isChild
        rcases List.mem_pair.mp isChild with rfl | rfl
        · -- The tag is a chain of names.
          rw [not_isAddition_of_tag isResolving within] at adds
          cases adds
        · exact .inl ⟨_, pair, tag, form, isResolving⟩
    · next callee arguments optional form =>
        unfold Node.children at isChild
        rw [form] at isChild
        rcases List.mem_cons.mp isChild with rfl | isArgument
        · exact .inr (.inr ⟨_, pair, arguments, optional, form, isResolving⟩)
        · exact .inr (.inl ⟨_, pair, callee, arguments, optional, form, isResolving, isArgument⟩)
    · cases isResolving
  · rintro (⟨pair, isPair, tag, form, isTag⟩ | ⟨pair, isPair, callee, arguments, optional, form, applies, _⟩
      | ⟨pair, isPair, arguments, optional, form, applies⟩)
    -- In each case the parent resolves values.
    · refine ⟨pair.2, (List.of_mem_zip isPair).2, ?_⟩
      unfold resolves
      rw [form]
      exact isTag
    · refine ⟨pair.2, (List.of_mem_zip isPair).2, ?_⟩
      unfold resolves
      rw [form]
      exact applies
    · refine ⟨pair.2, (List.of_mem_zip isPair).2, ?_⟩
      unfold resolves
      rw [form]
      exact applies

/-! ## §4. Reports. -/

/-- The operands hold a deferred value. -/
def HasOutput (n : Tree) : Prop :=
  ∃ operand ∈ operands n, ∃ name ∈ outputProperties, lastProperty? operand = some name

/-- **The addition is the outermost one of a chain** that has a deferred value for an operand. -/
structure JoinsOutput (visit : Visit Span) : Prop where
  adds : isAddition visit.node = true
  outermost : visit.ancestors.head?.any isAddition = false
  output : HasOutput visit.node

/-- The violation is about the addition, which its fix replaces by an interpolated template. -/
structure IsAbout (s : Source) (n : Tree) (v : Violation) : Prop where
  stands : v.StandsAt s n "SST-VAL-032" v.fix
  replaces : ∃ f, v.fix = some f ∧ f.Replaces n (interpolation s (operands n))

variable {s : Source}

theorem hasOutput_iff (n : Tree) :
    (operands n).any (fun operand => (lastProperty? operand).any outputProperties.contains) = true
      ↔ HasOutput n := by
  rw [List.any_eq_true]
  refine exists_congr fun operand => and_congr_right fun _ => ?_
  cases lastProperty? operand with
  | none =>
      constructor
      · intro never
        cases never
      · rintro ⟨name, _, never⟩
        cases never
  | some name =>
      rw [Option.any_some, List.contains_iff_mem]
      constructor
      · intro listed
        exact ⟨name, listed, rfl⟩
      · rintro ⟨name', listed, same⟩
        cases same
        exact listed

/-- What the check has seen that reports an addition, and what it says of it. -/
theorem checkAddition_some {visit : Visit Span} {v : Violation}
    (h : checkAddition s visit = .ok (some v)) :
    visit.ancestors.head?.any isAddition = false ∧ HasOutput visit.node
      ∧ visit.ancestors.any resolves = false ∧ IsAbout s visit.node v := by
  unfold checkAddition at h
  split at h
  · cases h
  next outermost =>
  simp only [flatten_eq_operands] at h
  split at h
  · next isOutput =>
      split at h
      · cases h
      next unresolved =>
        obtain ⟨f, made, h⟩ := bind_eq_ok.mp h
        obtain ⟨v', made', h⟩ := bind_eq_ok.mp h
        cases h
        have stands := Source.standsAt_of_violation made'
        refine ⟨Bool.eq_false_iff.mpr outermost, (hasOutput_iff _).mp isOutput,
          Bool.eq_false_iff.mpr unresolved, ?_, f, stands.fix_eq, Source.replaces_of_replace made⟩
        rw [stands.fix_eq]
        exact stands
  · cases h

/-- The check that reports nothing has seen that something is missing. -/
theorem checkAddition_none {visit : Visit Span} (h : checkAddition s visit = .ok none)
    (outermost : visit.ancestors.head?.any isAddition = false) (isOutput : HasOutput visit.node) :
    visit.ancestors.any resolves = true := by
  unfold checkAddition at h
  rw [if_neg (Bool.eq_false_iff.mp outermost)] at h
  simp only [flatten_eq_operands] at h
  rw [if_pos ((hasOutput_iff _).mpr isOutput)] at h
  by_contra unresolved
  rw [if_neg unresolved] at h
  obtain ⟨f, _, h⟩ := bind_eq_ok.mp h
  obtain ⟨v, _, h⟩ := bind_eq_ok.mp h
  cases h

/-- **The addition is reported:** nothing around it resolves values. -/
def IsReported (visit : Visit Span) : Prop :=
  JoinsOutput visit ∧ ¬ visit.LiesIn IsTemplate ∧ ¬ visit.LiesIn IsArgument
    ∧ ¬ visit.LiesIn IsCallee

theorem isReported_iff {visit : Visit Span} (linked : Node.Linked (visit.node :: visit.ancestors)) :
    IsReported visit ↔ JoinsOutput visit ∧ visit.ancestors.any resolves = false := by
  refine and_congr_right fun joins => ?_
  rw [← Bool.not_eq_true, any_resolves_iff linked joins.adds, not_or, not_or]

/-- **What comes of the check at a visited node:** a violation about it if the node is an
addition that is reported, and otherwise none with this code. -/
theorem check_reported {visit : Visit Span} (isVisit : visit ∈ s.tree.visits)
    {r : Option Violation} (h : check s visit = .ok r) :
    (IsReported visit → ∃ v, r = some v ∧ IsAbout s visit.node v)
      ∧ (¬ IsReported visit → ∀ v, r = some v → v.code ≠ "SST-VAL-032") := by
  have isReported := isReported_iff (Node.linked_of_mem_visits isVisit)
  unfold check at h
  split at h
  · next tag template form =>
      constructor
      · intro reported
        have adds := reported.1.adds
        unfold isAddition at adds
        rw [form] at adds
        cases adds
      · rintro _ v rfl code
        obtain ⟨_, _, _, _, stands, _⟩ :=
          loneInterpolation_of_checkInterpolation (Node.node_mem_preorder isVisit) form h
        rw [stands.code_eq] at code
        exact absurd code (by decide)
  · next left right form =>
      have adds : isAddition visit.node = true := by
        unfold isAddition
        rw [form]
      cases r with
      | none =>
          refine ⟨fun reported => ?_, fun _ v never => nomatch never⟩
          obtain ⟨joins, unresolved⟩ := isReported.mp reported
          rw [checkAddition_none h joins.outermost joins.output] at unresolved
          cases unresolved
      | some v =>
          obtain ⟨outermost, output, unresolved, isAbout⟩ := checkAddition_some h
          refine ⟨fun _ => ⟨v, rfl, isAbout⟩, fun notReported => ?_⟩
          exact absurd (isReported.mpr ⟨⟨adds, outermost, output⟩, unresolved⟩) notReported
  · next notTemplate notAddition =>
      cases h
      refine ⟨fun reported => ?_, fun _ v never => nomatch never⟩
      have adds := reported.1.adds
      unfold isAddition at adds
      split at adds
      · next left right form => exact absurd form (notAddition left right)
      · cases adds

/-- A violation with this code is about an addition. -/
theorem exists_isAbout {found : List Violation} {v : Violation} (h : detect s = .ok found)
    (inside : v ∈ found) (code : v.code = "SST-VAL-032") :
    ∃ n ∈ s.tree.preorder, isAddition n = true ∧ IsAbout s n v := by
  obtain ⟨visit, isVisit, checked⟩ := exists_of_reported h inside
  obtain ⟨_, silent⟩ := check_reported isVisit checked
  by_cases reported : IsReported visit
  · obtain ⟨v', same, isAbout⟩ := (check_reported isVisit checked).1 reported
    cases same
    exact ⟨visit.node, Node.node_mem_preorder isVisit, reported.1.adds, isAbout⟩
  · exact absurd code (silent reported v rfl)

/-! ## §5. All reports. -/

section

open scoped Classical

/-- **The reports of a check, one for each input that has the property,** in order. -/
theorem forall₂_filter_of_mapM {α : Type} {check : α → Check (Option Violation)} {P : α → Prop}
    {R : α → Violation → Prop} {isCode : Violation → Bool} {as : List α}
    {reports : List (Option Violation)} (h : as.mapM check = .ok reports)
    (each : ∀ a ∈ as, ∀ r, check a = .ok r → (P a → ∃ v, r = some v ∧ isCode v = true ∧ R a v)
      ∧ (¬ P a → ∀ v, r = some v → isCode v = false)) :
    List.Forall₂ R (as.filter (P ·)) ((reports.filterMap id).filter isCode) := by
  induction as generalizing reports with
  | nil =>
      cases h
      exact .nil
  | cons a as ih =>
      rw [List.mapM_cons] at h
      obtain ⟨r, first, h⟩ := bind_eq_ok.mp h
      obtain ⟨others, later, h⟩ := bind_eq_ok.mp h
      cases h
      have rest := ih later fun a' isInput => each a' (List.mem_cons_of_mem _ isInput)
      obtain ⟨reported, silent⟩ := each a (List.mem_cons_self ..) r first
      by_cases holds : P a
      · obtain ⟨v, rfl, code, related⟩ := reported holds
        have kept : (a :: as).filter (P ·) = a :: as.filter (P ·) :=
          List.filter_cons_of_pos (decide_eq_true holds)
        have isReport : (some v :: others).filterMap id = v :: others.filterMap id := rfl
        rw [kept, isReport, List.filter_cons_of_pos code]
        exact .cons related rest
      · have dropped : (a :: as).filter (P ·) = as.filter (P ·) :=
          List.filter_cons_of_neg fun yes => holds (of_decide_eq_true yes)
        rw [dropped]
        cases r with
        | none => exact rest
        | some v =>
            have isReport : (some v :: others).filterMap id = v :: others.filterMap id := rfl
            rw [isReport, List.filter_cons_of_neg (Bool.eq_false_iff.mp (silent holds v rfl))]
            exact rest

/-- **Exactly the additions that are reported have a violation,** in their order. -/
theorem detect_additions {found : List Violation} (h : detect s = .ok found) :
    List.Forall₂ (fun visit v => IsAbout s visit.node v) (s.tree.visits.filter (IsReported ·))
      (found.filter (·.code == "SST-VAL-032")) := by
  obtain ⟨reports, isOk, same⟩ := bind_eq_ok.mp h
  cases same
  refine forall₂_filter_of_mapM isOk fun visit isVisit r checked => ?_
  obtain ⟨reported, silent⟩ := check_reported isVisit checked
  constructor
  · intro holds
    obtain ⟨v, isReport, isAbout⟩ := reported holds
    exact ⟨v, isReport, beq_iff_eq.mpr isAbout.stands.code_eq, isAbout⟩
  · intro fails v isReport
    exact beq_eq_false_iff_ne.mpr (silent fails v isReport)

end

end PulumiOutput

end StackLint
