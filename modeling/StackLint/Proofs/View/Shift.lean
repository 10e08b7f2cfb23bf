/-
  StackLint.Proofs.View.Shift
  ───────────────────────────
  **TREES FURTHER DOWN IN A TEXT.**

  `Node.shift k` moves all spans of a tree by `k`.  What rules read off a tree
  moves along: the shape of a node is kept, and the nodes that are found in it
  are found again, moved.  The nodes around a place count by their forms alone,
  so the root, which spans the whole text, may have any span.
-/
import Mathlib.Data.List.Basic
import Mathlib.Data.List.Forall2
import StackLint.Match.Function
import StackLint.Proofs.View.Matched

namespace StackLint

/-! ## §1. Moving nodes. -/

/-- Everything seems to stand further to the right. -/
def View.shift (k : Nat) : View where
  offset n := n + k
  name := id
  lead := 0
  keeps _ := rfl
  apart := id

/-- Everything seems to stand further to the right, behind more tokens. -/
def View.along (k lead : Nat) : View :=
  { View.shift k with lead := lead }

/-- Everything seems to stand at the same place. -/
def View.placeless : View :=
  { View.shift 0 with offset := fun _ => 0 }

theorem View.tells_shift (k : Nat) (w : Text) : (shift k).Tells w :=
  fun _ => Iff.rfl

namespace Node

/-- The tree with all spans moved by `k`. -/
abbrev shift (k : Nat) : Tree → Tree :=
  view (.shift k)

variable {k : Nat} (n : Tree)

@[simp] theorem shift_info : (n.shift k).info = ⟨n.info.start + k, n.info.stop + k⟩ :=
  view_info _ n

theorem shift_form : (n.shift k).form = (n.form.map (shift k)).relabel (.shift k) :=
  form_view _ n

/-! ## §2. Expressions. -/

@[simp] theorem unwrap_shift : (n.shift k).unwrap = n.unwrap.shift k :=
  unwrap_view _ n

/-- The forms of two nodes are the same, but for the places of their parts. -/
def SameForm (k : Nat) (n n' : Tree) : Prop :=
  n'.form = (n.shift k).form

theorem sameForm_shift : SameForm k n (n.shift k) := rfl

@[simp] theorem isWrapper_shift : (n.shift k).isWrapper = n.isWrapper := by
  unfold isWrapper
  rw [shift_form]
  cases n.form <;> rfl

@[simp] theorem identifierName?_shift : (n.shift k).identifierName? = n.identifierName? :=
  (identifierName?_view _ n).trans Option.map_id'

@[simp] theorem keyName?_shift : (n.shift k).keyName? = n.keyName? :=
  (keyName?_view _ n).trans Option.map_id'

@[simp] theorem staticString?_shift : (n.shift k).staticString? = n.staticString? :=
  (staticString?_view _ n).trans Option.map_id'

@[simp] theorem objectMembers?_shift :
    (n.shift k).objectMembers? = n.objectMembers?.map (List.map (shift k)) :=
  objectMembers?_view _ n

@[simp] theorem isObject_shift : (n.shift k).isObject = n.isObject :=
  isObject_view _ n

@[simp] theorem memberPath?_shift : (n.shift k).memberPath? = n.memberPath? := by
  refine (memberPath?_view _ n).trans ?_
  show n.memberPath?.map (List.map id) = _
  rw [List.map_id_fun, Option.map_id_fun]
  rfl

@[simp] theorem rootIdentifier?_shift :
    (n.shift k).rootIdentifier? = n.rootIdentifier?.map (shift k) := by
  induction n using rootIdentifier?.induct with
  | case1 info inner ih =>
      rw [shift, view_mk]
      exact ih
  | case2 info inner assertion ih =>
      rw [shift, view_mk]
      exact ih
  | case3 info object name optional ih =>
      rw [shift, view_mk]
      exact ih
  | case4 info name =>
      rw [shift, view_mk]
      exact congrArg some (view_mk _ info (.identifier name)).symm
  | case5 n notParen notAssertion notAccess notName =>
      obtain ⟨info, form⟩ := n
      rw [shift, view_mk]
      cases form with
      | parenthesized inner => exact absurd rfl (notParen info inner)
      | typeAssertion inner assertion => exact absurd rfl (notAssertion info inner assertion)
      | propertyAccess object name optional =>
          exact absurd rfl (notAccess info object name optional)
      | identifier name => exact absurd rfl (notName info name)
      | _ => rfl

/-! ## §3. Properties and resources. -/

/-- The property, moved. -/
def Property.shift (k : Nat) (p : Property Span) : Property Span :=
  ⟨p.node.shift k, p.key.shift k, p.value.shift k⟩

theorem properties_shift (members : List Tree) :
    properties (members.map (shift k)) = (properties members).map (Property.shift k) :=
  properties_view _ members

@[simp] theorem findProperty?_shift (name : Text) :
    (n.shift k).findProperty? name = (n.findProperty? name).map (Property.shift k) :=
  n.findProperty?_view (View.tells_shift k name)

end Node

namespace Resource

/-- The resource, moved. -/
def shift (k : Nat) (r : Resource Span) : Resource Span :=
  { r with config := r.config.map (Node.shift k), node := r.node.shift k }

variable {k : Nat}

theorem ofNode?_shift (n : Tree) : ofNode? (n.shift k) = (ofNode? n).map (shift k) :=
  ofNode?_view (View.tells_shift k _) (fun w _ => View.tells_shift k w) n

@[simp] theorem findProperty?_shift (r : Resource Span) (name : Text) :
    (r.shift k).findProperty? name = (r.findProperty? name).map (Node.Property.shift k) :=
  r.findProperty?_view (View.tells_shift k name)

end Resource

namespace Node

variable {k : Nat}

/-! ## §4. All nodes. -/

theorem children_shift (n : Tree) : (n.shift k).children = n.children.map (shift k) :=
  children_view _ n

theorem preorder_shift (n : Tree) : (n.shift k).preorder = n.preorder.map (shift k) :=
  preorder_view _ n

/-- The visit of a moved node, in a place of the same form. -/
structure MovedVisit (k : Nat) (visit visit' : Visit Span) : Prop where
  node : visit'.node = visit.node.shift k
  ancestors : List.Forall₂ (SameForm k) visit.ancestors visit'.ancestors

theorem visitsWithin_shift (n : Tree) {around around' : List Tree}
    (same : List.Forall₂ (SameForm k) around around') :
    List.Forall₂ (MovedVisit k) (n.visitsWithin around) ((n.shift k).visitsWithin around') := by
  induction n using induct generalizing around around' with
  | h info form ih =>
      rw [visitsWithin_eq, visitsWithin_eq, children_shift, List.flatMap_map]
      refine .cons ⟨rfl, same⟩ (forall₂_flatMap fun child isChild => ?_)
      exact ih child isChild (.cons rfl same)

/-! ## §5. Functions. -/

theorem function?_shift (n : Tree) :
    (n.shift k).function?
      = n.function?.map fun f => (f.1.map (shift k), f.2.view (.shift k)) := by
  unfold function?
  rw [shift_form]
  cases n.form <;> rfl

variable {n n' : Tree} {around around' : List Tree}

theorem SameForm.isWrapper (same : SameForm k n n') : n'.isWrapper = n.isWrapper := by
  rw [← n.isWrapper_shift (k := k)]
  unfold Node.isWrapper
  rw [same]

/-- The name of a binding around a place. -/
theorem boundName?_shift (same : List.Forall₂ (SameForm k) around around') :
    boundName? around' = boundName? around := by
  induction same with
  | nil => rfl
  | @cons n n' around around' isSame others ih =>
      unfold boundName? at ih ⊢
      rw [List.dropWhile_cons, List.dropWhile_cons, isSame.isWrapper]
      cases n.isWrapper with
      | true => exact ih
      | false =>
        simp only [Bool.false_eq_true, if_false, List.head?_cons, Option.map_some]
        rw [isSame, shift_form]
        cases n.form with
        | variableDeclarator target init => exact target.identifierName?_shift
        | propertyAssignment key value => exact key.keyName?_shift
        | _ => rfl

theorem functionName?_shift (isSame : SameForm k n n')
    (same : List.Forall₂ (SameForm k) around around') :
    n'.functionName? around' = n.functionName? around := by
  unfold functionName?
  rw [isSame, shift_form, boundName?_shift same]
  cases n.form with
  | methodDeclaration key params body accessor info => exact key.keyName?_shift
  | functionDeclaration name params body info =>
      cases name with
      | none => rfl
      | some name => exact name.identifierName?_shift
  | functionExpression name params body info =>
      cases name with
      | none => rfl
      | some name => exact name.identifierName?_shift
  | _ => rfl

/-- **The same function lies around the place.** -/
theorem enclosingFunction?_shift (same : List.Forall₂ (SameForm k) around around') :
    (enclosingFunction? around').map Prod.fst = (enclosingFunction? around).map Prod.fst := by
  induction same with
  | nil => rfl
  | @cons n n' around around' isSame others ih =>
      unfold enclosingFunction?
      rw [functionName?_shift isSame others]
      cases n.functionName? around with
      | none => exact ih
      | some name => rfl

/-! ## §6. Whole trees. -/

/-- The trees are programs with the same statements, those of the second one further down. -/
def MovedProgram (k : Nat) (tree tree' : Tree) : Prop :=
  ∃ span span' statements, tree = .mk span (.program statements)
    ∧ tree' = .mk span' (.program (statements.map (shift k)))

variable {tree tree' : Tree}

/-- The nodes below the root are moved. -/
theorem MovedProgram.preorder (moved : MovedProgram k tree tree') :
    ∃ nodes, tree.preorder = tree :: nodes ∧ tree'.preorder = tree' :: nodes.map (shift k) := by
  obtain ⟨span, span', statements, rfl, rfl⟩ := moved
  refine ⟨statements.flatMap Node.preorder, preorder_mk span _, ?_⟩
  rw [preorder_mk, List.map_flatMap]
  show _ :: (statements.map (shift k)).flatMap _ = _
  rw [List.flatMap_map]
  exact congrArg _ (List.flatMap_congr fun n _ => n.preorder_shift)

/-- The visits below the root are visits of moved nodes. -/
theorem MovedProgram.visits (moved : MovedProgram k tree tree') :
    ∃ below below', tree.visits = ⟨tree, []⟩ :: below ∧ tree'.visits = ⟨tree', []⟩ :: below'
      ∧ List.Forall₂ (MovedVisit k) below below' := by
  obtain ⟨span, span', statements, rfl, rfl⟩ := moved
  refine ⟨_, _, visitsWithin_eq _ _, visitsWithin_eq _ _, ?_⟩
  show List.Forall₂ _ (statements.flatMap _) ((statements.map (shift k)).flatMap _)
  rw [List.flatMap_map]
  refine forall₂_flatMap fun n _ => n.visitsWithin_shift (.cons ?_ .nil)
  show Form.program _ = _
  rw [shift_form]
  rfl

theorem MovedProgram.resources (moved : MovedProgram k tree tree') :
    tree'.resources = tree.resources.map (Resource.shift k) := by
  obtain ⟨nodes, isPreorder, isPreorder'⟩ := moved.preorder
  obtain ⟨span, span', statements, rfl, rfl⟩ := moved
  rw [Resource.resources_eq_filterMap, Resource.resources_eq_filterMap, isPreorder, isPreorder',
    List.filterMap_cons_none rfl, List.filterMap_cons_none rfl, List.filterMap_map,
    List.map_filterMap]
  congr 1
  exact funext Resource.ofNode?_shift

theorem MovedProgram.resourcesOf (moved : MovedProgram k tree tree') (types : List Text) :
    tree'.resourcesOf types = (tree.resourcesOf types).map (Resource.shift k) := by
  unfold Node.resourcesOf
  rw [moved.resources, List.filter_map]
  rfl

end Node

end StackLint
