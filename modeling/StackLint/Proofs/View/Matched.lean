/-
  StackLint.Proofs.View.Matched
  ─────────────────────────────
  **WHAT RULES READ OFF A TREE, SEEN FROM AFAR.**

  Rules look at trees through a few functions: what is inside of parentheses, what a
  name or a key says, which properties an object has, and which resources are made.
  They commute with every view, up to the names that they compare: a view must `tell`
  such a name from all others.
-/
import Mathlib.Data.List.Basic
import StackLint.Match.Resource
import StackLint.Proofs.Tree.Preorder
import StackLint.Proofs.View.Basic

namespace StackLint

/-- Nothing else looks like the text, and it looks like itself. -/
def View.Tells (v : View) (w : Text) : Prop :=
  ∀ t, v.name t = w ↔ t = w

theorem View.Tells.self {v : View} {w : Text} (tells : v.Tells w) : v.name w = w :=
  (tells w).mpr rfl

/-- A list of such texts. -/
theorem View.contains_name_of_tells {v : View} {words : List Text} (tells : ∀ w ∈ words, v.Tells w)
    (t : Text) : words.contains (v.name t) = words.contains t := by
  rw [Bool.eq_iff_iff, List.contains_iff_mem, List.contains_iff_mem]
  constructor
  · intro inside
    rwa [(tells _ inside t).mp rfl]
  · intro inside
    rwa [(tells _ inside).self]

namespace Node

variable (v : View) (n : Tree)

/-! ## §1. Expressions. -/

theorem form_view : (n.view v).form = (n.form.map (view v)).relabel v := by
  cases n
  rw [view_mk]
  rfl

@[simp] theorem unwrap_view : (n.view v).unwrap = n.unwrap.view v := by
  induction n using unwrap.induct with
  | case1 info inner ih =>
      rw [view_mk]
      exact ih
  | case2 info inner assertion ih =>
      rw [view_mk]
      exact ih
  | case3 n notParen notAssertion =>
      obtain ⟨info, form⟩ := n
      rw [view_mk]
      cases form with
      | parenthesized inner => exact absurd rfl (notParen info inner)
      | typeAssertion inner assertion => exact absurd rfl (notAssertion info inner assertion)
      | _ => exact (view_mk _ info _).symm

@[simp] theorem identifierName?_view :
    (n.view v).identifierName? = n.identifierName?.map v.name := by
  unfold identifierName?
  rw [form_view]
  cases n.form <;> rfl

@[simp] theorem keyName?_view : (n.view v).keyName? = n.keyName?.map v.name := by
  unfold keyName?
  rw [form_view]
  cases n.form <;> rfl

@[simp] theorem staticString?_view : (n.view v).staticString? = n.staticString?.map v.name := by
  unfold staticString?
  rw [unwrap_view, form_view]
  cases n.unwrap.form with
  | templateLiteral head spans => cases spans <;> rfl
  | _ => rfl

@[simp] theorem objectMembers?_view :
    (n.view v).objectMembers? = n.objectMembers?.map (List.map (view v)) := by
  unfold objectMembers?
  rw [form_view]
  cases n.form <;> rfl

@[simp] theorem isObject_view : (n.view v).isObject = n.isObject := by
  unfold isObject
  rw [objectMembers?_view, Option.isSome_map]

theorem memberPathReversed?_view :
    (n.view v).memberPathReversed? = n.memberPathReversed?.map (List.map v.name) := by
  induction n using memberPathReversed?.induct with
  | case1 info name =>
      rw [view_mk]
      rfl
  | case2 info object name optional ih =>
      rw [view_mk]
      show (do
        let last ← (name.view v).identifierName?
        let others ← (object.view v).memberPathReversed?
        return last :: others) = _
      rw [identifierName?_view, ih]
      show _ = Option.map _ (name.identifierName?.bind fun last =>
        object.memberPathReversed?.bind fun others => some (last :: others))
      cases name.identifierName? with
      | none => rfl
      | some last => cases object.memberPathReversed? <;> rfl
  | case3 n notName notAccess =>
      obtain ⟨info, form⟩ := n
      rw [view_mk]
      cases form with
      | identifier name => exact absurd rfl (notName info name)
      | propertyAccess object name optional =>
          exact absurd rfl (notAccess info object name optional)
      | _ => rfl

@[simp] theorem memberPath?_view :
    (n.view v).memberPath? = n.memberPath?.map (List.map v.name) := by
  unfold memberPath?
  rw [memberPathReversed?_view, Option.map_map, Option.map_map]
  congr 1
  exact funext fun names => List.map_reverse.symm

/-! ## §2. Properties. -/

/-- What a property looks like. -/
def Property.view (p : Property Span) : Property Span :=
  ⟨p.node.view v, p.key.view v, p.value.view v⟩

theorem property?_view : (n.view v).property? = n.property?.map (Property.view v) := by
  unfold property?
  rw [form_view]
  cases n.form <;> rfl

theorem properties_view (members : List Tree) :
    properties (members.map (view v)) = (properties members).map (Property.view v) := by
  unfold properties
  rw [List.filterMap_map, List.map_filterMap]
  congr 1
  exact funext (property?_view v)

variable {v} {name : Text}

theorem findProperty?_view (tells : v.Tells name) :
    (n.view v).findProperty? name = (n.findProperty? name).map (Property.view v) := by
  unfold findProperty?
  rw [unwrap_view, objectMembers?_view]
  cases n.unwrap.objectMembers? with
  | none => rfl
  | some members =>
      show List.find? _ (properties (members.map (view v)))
        = (List.find? _ (properties members)).map _
      rw [properties_view, List.find?_map]
      congr 2
      funext p
      show decide ((p.key.view v).keyName? = some name) = decide (p.key.keyName? = some name)
      rw [keyName?_view]
      refine decide_eq_decide.mpr ?_
      cases p.key.keyName? with
      | none => exact Iff.rfl
      | some t =>
          rw [Option.map_some, Option.some.injEq, Option.some.injEq]
          exact tells t

end Node

/-! ## §3. Resources. -/

namespace Resource

variable (v : View)

/-- What a resource looks like. -/
def view (r : Resource Span) : Resource Span where
  space := v.name r.space
  provider := v.name r.provider
  typeName := v.name r.typeName
  name := v.name r.name
  config := r.config.map (Node.view v)
  node := r.node.view v

variable {v}

theorem nameOf_view (tells : v.Tells unknownName) (arguments : List Tree) :
    nameOf (arguments.map (Node.view v)) = v.name (nameOf arguments) := by
  have same : (arguments.map (Node.view v)).head?.bind Node.staticString?
      = (arguments.head?.bind Node.staticString?).map v.name := by
    cases arguments with
    | nil => rfl
    | cons first rest => exact first.staticString?_view v
  unfold nameOf
  rw [same]
  cases arguments.head?.bind Node.staticString? with
  | none => exact tells.self.symm
  | some name =>
      cases name with
      | nil =>
          rw [Option.map_some, v.name_eq_nil_iff.mpr rfl]
          exact tells.self.symm
      | cons c rest =>
          have some : v.name (c :: rest) ≠ [] := mt v.name_eq_nil_iff.mp (List.cons_ne_nil _ _)
          rw [Option.map_some]
          split
          · next isNil => exact absurd (Option.some.inj isNil) some
          · next isNone => cases isNone
          · next name _ same =>
              rw [← Option.some.inj same]

theorem config_view (arguments : List Tree) :
    ((arguments.map (Node.view v))[1]?.map Node.unwrap).filter Node.isObject
      = ((arguments[1]?.map Node.unwrap).filter Node.isObject).map (Node.view v) := by
  rw [List.getElem?_map]
  cases arguments[1]? with
  | none => rfl
  | some n =>
      show Option.filter Node.isObject (some (n.view v).unwrap) = _
      rw [Node.unwrap_view]
      show _ = (Option.filter Node.isObject (some n.unwrap)).map _
      unfold Option.filter
      dsimp only
      rw [Node.isObject_view]
      cases n.unwrap.isObject <;> rfl

theorem ofNode?_view (tells : v.Tells unknownName) (tellsAll : ∀ w ∈ providers, v.Tells w)
    (n : Tree) : ofNode? (n.view v) = (ofNode? n).map (view v) := by
  obtain ⟨info, form⟩ := n
  cases form with
  | newExpression callee arguments =>
      have given : (arguments.map (List.map (Node.view v))).getD []
          = (arguments.getD []).map (Node.view v) := by
        cases arguments <;> rfl
      unfold ofNode?
      rw [Node.form_view]
      simp only [Node.form, Form.map, Form.relabel, Node.memberPath?_view, given,
        nameOf_view tells, config_view]
      cases callee.memberPath? with
      | none => rfl
      | some names =>
          rcases names with _ | ⟨space, _ | ⟨provider, _ | ⟨typeName, _ | ⟨_, _⟩⟩⟩⟩
          · rfl
          · rfl
          · rfl
          · show (if providers.contains (v.name provider) then _ else none)
              = Option.map _ (if providers.contains provider then _ else none)
            rw [View.contains_name_of_tells tellsAll]
            split <;> rfl
          · rfl
  | _ =>
      rw [Node.view_mk]
      rfl

theorem findProperty?_view {name : Text} (tells : v.Tells name) (r : Resource Span) :
    (r.view v).findProperty? name = (r.findProperty? name).map (Node.Property.view v) := by
  unfold findProperty? view
  cases r.config with
  | none => rfl
  | some config => exact config.findProperty?_view tells

end Resource

/-! ## §4. All nodes. -/

namespace Node

variable (v : View)

theorem children_view (n : Tree) : (n.view v).children = n.children.map (view v) := by
  unfold children
  rw [form_view, ← Form.children_map]
  cases n.form.map (view v) <;> rfl

theorem preorder_view (n : Tree) : (n.view v).preorder = n.preorder.map (view v) := by
  induction n using induct with
  | h info form ih =>
      rw [preorder_eq, preorder_eq (mk info form), children_view, List.flatMap_map, List.map_cons,
        List.map_flatMap]
      exact congrArg _ (List.flatMap_congr ih)

/-- **The same resources are made.** -/
theorem resources_view {v : View} (tells : v.Tells Resource.unknownName)
    (tellsAll : ∀ w ∈ Resource.providers, v.Tells w) (tree : Tree) :
    (tree.view v).resources = tree.resources.map (Resource.view v) := by
  rw [Resource.resources_eq_filterMap, Resource.resources_eq_filterMap, preorder_view, List.filterMap_map, List.map_filterMap]
  congr 1
  exact funext (Resource.ofNode?_view tells tellsAll)

end Node

end StackLint
