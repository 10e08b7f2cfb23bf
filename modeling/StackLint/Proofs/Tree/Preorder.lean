/-
  StackLint.Proofs.Tree.Preorder
  ──────────────────────────────
  **THE NODES OF A TREE.**

  The nodes of a tree are the members of its preorder.  Everything that rules
  find in a tree is one of its nodes: the nodes they visit, expressions without
  their parentheses, properties with their keys and values, and resources.
-/
import Mathlib.Data.List.Forall2
import StackLint.Match.Resource

namespace StackLint

namespace Node

variable {σ : Type} {n m t : Node σ}

/-! ## §1. Preorder. -/

theorem preorder_eq (n : Node σ) : n.preorder = n :: n.children.flatMap preorder := by
  obtain ⟨info, form⟩ := n
  exact preorder_mk info form

/-- **What a stack of nodes gives:** the preorders of its nodes, one behind the other. -/
theorem walkFrom_eq (stack : List (Node σ)) : walkFrom stack = stack.flatMap preorder := by
  induction stack using walkFrom.induct with
  | case1 => rw [walkFrom, List.flatMap_nil]
  | case2 info form stack ih =>
      rw [walkFrom, ih, pushAll_reverse, List.flatMap_append, List.flatMap_cons, preorder_mk,
        List.cons_append]

/-- The stack gives the nodes in preorder. -/
theorem walk_eq_preorder (n : Node σ) : n.walk = n.preorder := by
  rw [walk, walkFrom_eq, List.flatMap_singleton]

theorem mem_preorder_self (t : Node σ) : t ∈ t.preorder := by
  cases t with
  | mk info form =>
      rw [preorder_mk]
      exact List.mem_cons_self ..

/-- A node of a tree is the whole tree or a node of a child. -/
theorem mem_preorder_mk {info : σ} {form : Form (Node σ)} :
    n ∈ (mk info form).preorder ↔ n = mk info form ∨ ∃ c ∈ form.children, n ∈ c.preorder := by
  rw [preorder_mk, List.mem_cons, List.mem_flatMap]

theorem mem_preorder_child (h : m ∈ t.children) (h' : n ∈ m.preorder) : n ∈ t.preorder := by
  cases t with
  | mk info form => exact mem_preorder_mk.mpr (.inr ⟨m, h, h'⟩)

theorem mem_preorder_of_mem_children (h : n ∈ t.children) : n ∈ t.preorder :=
  mem_preorder_child h (mem_preorder_self n)

/-- The children of a node are the parts of its form. -/
theorem mem_children_of_form {form : Form (Node σ)} (isForm : t.form = form)
    (isPart : n ∈ form.children) : n ∈ t.children := by
  rw [children, isForm]
  exact isPart

/-- The nodes of a node are nodes of the tree. -/
theorem mem_preorder_trans (h : n ∈ m.preorder) (h' : m ∈ t.preorder) : n ∈ t.preorder := by
  induction t using induct with
  | h info form ih =>
      rcases mem_preorder_mk.mp h' with rfl | ⟨c, isChild, inside⟩
      · exact h
      · exact mem_preorder_mk.mpr (.inr ⟨c, isChild, ih c isChild inside⟩)

theorem visitsWithin_eq (n : Node σ) (around : List (Node σ)) :
    n.visitsWithin around
      = ⟨n, around⟩ :: n.children.flatMap (·.visitsWithin (n :: around)) := by
  obtain ⟨info, form⟩ := n
  unfold visitsWithin
  rw [rollup_mk, List.flatMap_map]
  rfl

theorem forall₂_flatMap {α β γ : Type} {R : β → γ → Prop} {as : List α} {f : α → List β}
    {g : α → List γ} (each : ∀ a ∈ as, List.Forall₂ R (f a) (g a)) :
    List.Forall₂ R (as.flatMap f) (as.flatMap g) := by
  unfold List.flatMap
  refine List.rel_flatten ?_
  rw [List.forall₂_map_left_iff, List.forall₂_map_right_iff]
  exact List.forall₂_same.mpr each

/-- The nodes that are visited are those of the tree. -/
theorem node_mem_preorder {visit : Visit σ} {ancestors : List (Node σ)}
    (h : visit ∈ t.visitsWithin ancestors) : visit.node ∈ t.preorder := by
  induction t using induct generalizing ancestors with
  | h info form ih =>
      unfold visitsWithin at h ih
      rw [rollup_mk] at h
      rcases List.mem_cons.mp h with rfl | below
      · exact mem_preorder_self _
      · obtain ⟨visitsIn, isImage, inside⟩ := List.mem_flatMap.mp below
        obtain ⟨c, isChild, rfl⟩ := List.mem_map.mp isImage
        exact mem_preorder_mk.mpr (.inr ⟨c, isChild, ih c isChild inside⟩)

/-! ## §2. What rules find. -/

/-- The expression without its parentheses is one of its nodes. -/
theorem unwrap_mem_preorder (n : Node σ) : n.unwrap ∈ n.preorder := by
  induction n using induct with
  | h info form ih =>
      rw [unwrap.eq_def]
      split
      · next inner same =>
          cases same
          have isChild : inner ∈ (Form.parenthesized inner).children := List.mem_cons_self ..
          exact mem_preorder_mk.mpr (.inr ⟨inner, isChild, ih inner isChild⟩)
      · next inner a same =>
          cases same
          have isChild : inner ∈ (Form.typeAssertion inner a).children := List.mem_cons_self ..
          exact mem_preorder_mk.mpr (.inr ⟨inner, isChild, ih inner isChild⟩)
      · exact mem_preorder_self _

theorem unwrap_of_not_wrapper (notParen : ∀ info inner, n = mk info (.parenthesized inner) → False)
    (notAssertion : ∀ info inner a, n = mk info (.typeAssertion inner a) → False) :
    n.unwrap = n := by
  rw [unwrap.eq_def]
  split
  · next info inner => exact absurd rfl (notParen info inner)
  · next info inner a => exact absurd rfl (notAssertion info inner a)
  · rfl

/-- There is nothing left to take off. -/
theorem unwrap_unwrap (n : Node σ) : n.unwrap.unwrap = n.unwrap := by
  induction n using unwrap.induct with
  | case1 info inner ih => exact ih
  | case2 info inner a ih => exact ih
  | case3 n notParen notAssertion =>
      have same := unwrap_of_not_wrapper notParen notAssertion
      rw [same, same]

theorem unwrap_mem_of_mem (h : n ∈ t.preorder) : n.unwrap ∈ t.preorder :=
  mem_preorder_trans (unwrap_mem_preorder n) h

/-- A property among some nodes is one of them, and its parts are its
children. -/
theorem mem_properties {members : List (Node σ)} {p : Property σ} (h : p ∈ properties members) :
    p.node ∈ members ∧ p.node.form = .propertyAssignment p.key p.value := by
  unfold properties at h
  obtain ⟨member, inside, isProperty⟩ := List.mem_filterMap.mp h
  unfold property? at isProperty
  split at isProperty
  · next key value same =>
      cases isProperty
      exact ⟨inside, same⟩
  · cases isProperty

/-- A property of an object. -/
structure IsPropertyOf (p : Property σ) (n : Node σ) : Prop where
  node : p.node ∈ n.preorder
  form : p.node.form = .propertyAssignment p.key p.value

theorem IsPropertyOf.key {p : Property σ} (h : IsPropertyOf p n) : p.key ∈ n.preorder :=
  mem_preorder_trans
    (mem_preorder_of_mem_children (mem_children_of_form h.form (List.mem_cons_self ..))) h.node

theorem IsPropertyOf.value_mem_children {p : Property σ} (h : IsPropertyOf p n) :
    p.value ∈ p.node.children :=
  mem_children_of_form h.form (List.mem_cons_of_mem _ (List.mem_cons_self ..))

theorem IsPropertyOf.value {p : Property σ} (h : IsPropertyOf p n) : p.value ∈ n.preorder :=
  mem_preorder_trans (mem_preorder_of_mem_children h.value_mem_children) h.node

theorem IsPropertyOf.unwrap_value {p : Property σ} (h : IsPropertyOf p n) :
    p.value.unwrap ∈ n.preorder :=
  unwrap_mem_of_mem h.value

theorem IsPropertyOf.trans {p : Property σ} (h : IsPropertyOf p n) (h' : n ∈ t.preorder) :
    IsPropertyOf p t :=
  ⟨mem_preorder_trans h.node h', h.form⟩

theorem objectMembers?_eq_some {members : List (Node σ)} :
    n.objectMembers? = some members ↔ n.form = .objectLiteral members := by
  unfold objectMembers?
  split
  · next found same => rw [same, Option.some.injEq, Form.objectLiteral.injEq]
  · next other =>
      refine iff_of_false nofun fun same => ?_
      exact other members same

theorem isPropertyOf_of_mem {members : List (Node σ)} {p : Property σ}
    (isObject : n.form = .objectLiteral members) (h : p ∈ properties members) :
    IsPropertyOf p n := by
  obtain ⟨inside, form⟩ := mem_properties h
  exact ⟨mem_preorder_of_mem_children (mem_children_of_form isObject inside), form⟩

theorem isPropertyOf_of_findProperty? {p : Property σ} {name : Text}
    (h : n.findProperty? name = some p) : IsPropertyOf p n := by
  unfold findProperty? at h
  obtain ⟨members, isObject, found⟩ := Option.bind_eq_some_iff.mp h
  have isObject := objectMembers?_eq_some.mp isObject
  exact (isPropertyOf_of_mem isObject (List.mem_of_find?_eq_some found)).trans
    (unwrap_mem_preorder n)

end Node

/-! ## §3. Resources. -/

namespace Resource

variable {σ : Type} {n t : Node σ} {r : Resource σ}

/-- The configuration of a resource is one of the arguments. -/
theorem exists_argument {config : Node σ} (h : ofNode? n = some r)
    (isConfig : r.config = some config) : ∃ argument ∈ n.children, config = argument.unwrap := by
  unfold ofNode? at h
  split at h
  · next callee arguments form =>
      split at h
      · split at h
        · cases h
          obtain ⟨isSecond, _⟩ := Option.filter_eq_some_iff.mp isConfig
          obtain ⟨argument, found, rfl⟩ := Option.map_eq_some_iff.mp isSecond
          have isPart := List.mem_append_right [callee] (List.mem_of_getElem? found)
          exact ⟨argument, Node.mem_children_of_form form isPart, rfl⟩
        · cases h
      · cases h
  · cases h

theorem config_mem_preorder {config : Node σ} (h : ofNode? n = some r)
    (isConfig : r.config = some config) : config ∈ n.preorder := by
  obtain ⟨argument, isChild, rfl⟩ := exists_argument h isConfig
  exact Node.mem_preorder_child isChild (Node.unwrap_mem_preorder argument)

/-- The resources of a tree stand in its preorder. -/
theorem resources_eq_filterMap (t : Node σ) : t.resources = t.preorder.filterMap ofNode? := by
  rw [Node.resources, Node.walk_eq_preorder]

/-- A property that is found in the configuration of a resource. -/
theorem isPropertyOf_of_findProperty? {p : Node.Property σ} {name : Text}
    (isResource : r ∈ t.resources) (h : r.findProperty? name = some p) :
    Node.IsPropertyOf p t := by
  unfold findProperty? at h
  obtain ⟨config, isConfig, found⟩ := Option.bind_eq_some_iff.mp h
  rw [resources_eq_filterMap] at isResource
  obtain ⟨n, inside, isNode⟩ := List.mem_filterMap.mp isResource
  have inTree := Node.mem_preorder_trans (config_mem_preorder isNode isConfig) inside
  exact (Node.isPropertyOf_of_findProperty? found).trans inTree

/-- The property that is found has the name. -/
theorem keyName?_of_findProperty? {p : Node.Property σ} {name : Text}
    (h : r.findProperty? name = some p) : p.key.keyName? = some name := by
  obtain ⟨config, _, found⟩ := Option.bind_eq_some_iff.mp h
  obtain ⟨members, _, found⟩ := Option.bind_eq_some_iff.mp found
  have named := List.find?_some found
  exact of_decide_eq_true named

theorem mem_resources_of_mem_resourcesOf {types : List Text} (h : r ∈ t.resourcesOf types) :
    r ∈ t.resources :=
  (List.mem_filter.mp h).1

end Resource

end StackLint
