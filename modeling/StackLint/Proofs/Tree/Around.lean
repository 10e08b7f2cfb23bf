/-
  StackLint.Proofs.Tree.Around
  ────────────────────────────
  **WHAT LIES AROUND A NODE OF ALIKE TREES.**

  Alike trees do not have the same nodes: the second one has more wrappers and
  more names.  A visit of such a quiet node tells a rule nothing.  All other nodes
  are visited in the same order, and the nodes around them are alike but for
  wrappers, which functions do not see when they look for their names.
-/
import StackLint.Proofs.Tree.Alike

namespace StackLint

namespace Node

variable {k : Text} {E : Tree → Prop} {isValue : Bool} {n n' t t' : Tree}
  {around around' : List Tree}

/-! ## §1. Quiet nodes. -/

/-- The node is a wrapper, a name, or a member of an object. -/
def isQuiet (n : Tree) : Bool :=
  match n.form with
  | .parenthesized _ | .typeAssertion _ _ | .identifier _ | .propertyAssignment _ _
  | .shorthandProperty _ _ => true
  | _ => false

theorem Alike.isQuiet (same : Alike k E false n n') : n'.isQuiet = n.isQuiet := by
  cases same with
  | node info parts others values => cases parts <;> rfl
  | expanded may expands =>
      cases expands
      rfl

/-- The visits that count. -/
def loudWithin (n : Tree) (around : List Tree) : List (Visit Span) :=
  (n.visitsWithin around).filter fun visit => !visit.node.isQuiet

theorem loudWithin_eq (n : Tree) (around : List Tree) :
    n.loudWithin around = (if n.isQuiet then [] else [⟨n, around⟩])
      ++ n.children.flatMap (·.loudWithin (n :: around)) := by
  unfold loudWithin
  rw [visitsWithin_eq, List.filter_cons, List.filter_flatMap]
  cases n.isQuiet <;> rfl

/-! ## §2. Surroundings. -/

/-- Values stand in the node. -/
def takesValues (n : Tree) : Prop :=
  n.form.valueParts ≠ []

/-- **What lies around two places**, the nearest node first: alike nodes, and in
the second place more wrappers around a value. -/
inductive Around (k : Text) (E : Tree → Prop) : List Tree → List Tree → Prop
  | nil : Around k E [] []
  | cons {n n' : Tree} {around around' : List Tree} (same : Alike k E false n n')
      (others : Around k E around around') : Around k E (n :: around) (n' :: around')
  | wrapper {w : Tree} {around around' : List Tree} (isWrapper : w.isWrapper = true)
      (place : ∃ n ∈ around.head?, n.takesValues) (others : Around k E around around') :
      Around k E around (w :: around')

/-- The visits of two nodes that say the same. -/
structure VisitAlike (k : Text) (E : Tree → Prop) (visit visit' : Visit Span) : Prop where
  node : Alike k E false visit.node visit'.node
  around : Around k E visit.ancestors visit'.ancestors

theorem valueParts_map {α β : Type} (f : α → β) (form : Form α) :
    (form.map f).valueParts = form.valueParts.map f := by
  cases form with
  | newExpression callee arguments => cases arguments <;> rfl
  | variableDeclarator target init => cases init <;> rfl
  | arrayLiteral elements =>
      simp only [Form.map, Form.valueParts, List.filterMap_map, List.map_filterMap]
      rfl
  | _ => rfl

/-- The same node in alike places. -/
theorem loudWithin_around (n : Tree) (places : Around k E around around') :
    List.Forall₂ (VisitAlike k E) (n.loudWithin around) (n.loudWithin around') := by
  induction n using induct generalizing around around' with
  | h info form ih =>
      rw [loudWithin_eq, loudWithin_eq]
      refine List.rel_append ?_ (forall₂_flatMap fun c isChild => ?_)
      · split
        · exact .nil
        · exact .cons ⟨.refl _, places⟩ .nil
      · exact ih c isChild (.cons (.refl _) places)

/-- The members of an object of which one is spelled out. -/
theorem Expands.loudWithin {o o' : Tree} (expands : Expands k o o') (may : E o)
    (places : Around k E around around') :
    List.Forall₂ (VisitAlike k E) (o.loudWithin around) (o'.loudWithin around') := by
  have here : Alike k E false o o' := .expanded may expands
  rw [loudWithin_eq, loudWithin_eq, here.isQuiet]
  refine List.rel_append ?_ ?_
  · split
    · exact .nil
    · exact .cons ⟨here, places⟩ .nil
  · have inside (members : List Tree) : List.Forall₂ (VisitAlike k E)
        (members.flatMap (·.loudWithin (o :: around)))
        (members.flatMap (·.loudWithin (o' :: around'))) :=
      forall₂_flatMap fun c _ => c.loudWithin_around (.cons here places)
    cases expands with
    | member info memberInfo nameInfo before after fresh =>
        show List.Forall₂ _ ((before ++ _ :: after).flatMap _) ((before ++ _ :: after).flatMap _)
        rw [List.flatMap_append, List.flatMap_append, List.flatMap_cons, List.flatMap_cons]
        -- Neither the member nor the names in it are loud.
        refine List.rel_append (inside before) ?_
        rw [loudWithin_eq, loudWithin_eq]
        exact inside after

theorem Wraps.isWrapper {e w : Tree} (wraps : Wraps e w) : w.isWrapper = true := by
  cases wraps <;> rfl

/-- A wrapper has nothing to say itself. -/
theorem Wraps.loudWithin {e w : Tree} (wraps : Wraps e w) (around : List Tree) :
    w.loudWithin around = e.loudWithin (w :: around) := by
  rw [loudWithin_eq]
  cases wraps <;> exact List.append_nil _

/-- **The loud visits of alike nodes.** -/
theorem Alike.loudWithin (same : Alike k E isValue n n') (places : Around k E around around')
    (place : isValue = true → ∃ m ∈ around.head?, m.takesValues) :
    List.Forall₂ (VisitAlike k E) (n.loudWithin around) (n'.loudWithin around') := by
  induction same generalizing around around' with
  | node info parts others values ihOthers ihValues =>
      have here : Alike k E false _ _ := .node info parts others values
      have children (f : Tree × Tree → Tree) :
          children (.mk info (parts.map f)) = parts.children.map f := parts.children_map f
      rw [loudWithin_eq, loudWithin_eq, here.isQuiet, children, children, List.flatMap_map,
        List.flatMap_map]
      refine List.rel_append ?_ (forall₂_flatMap fun p isPart => ?_)
      · split
        · exact .nil
        · exact .cons ⟨here, places⟩ .nil
      · rw [← Form.otherParts_append_valueParts] at isPart
        rcases List.mem_append.mp isPart with isOther | isValue
        · exact ihOthers p isOther (.cons here places) nofun
        · refine ihValues p isValue (.cons here places) fun _ => ⟨_, rfl, ?_⟩
          show (parts.map Prod.fst).valueParts ≠ []
          rw [valueParts_map]
          exact List.ne_nil_of_mem (List.mem_map_of_mem isValue)
  | expanded may expands => exact expands.loudWithin may places
  | wrapped inner wraps ih =>
      rw [wraps.loudWithin]
      exact ih (.wrapper wraps.isWrapper (place rfl) places) place

/-! ## §3. Whole trees. -/

/-- Whatever is found at loud nodes is found in both trees. -/
theorem Alike.visits (same : Alike k E false t t') :
    List.Forall₂ (VisitAlike k E) (t.loudWithin []) (t'.loudWithin []) :=
  same.loudWithin .nil nofun

theorem map_node_visitsWithin (n : Tree) (around : List Tree) :
    (n.visitsWithin around).map Visit.node = n.preorder := by
  induction n using induct generalizing around with
  | h info form ih =>
      rw [visitsWithin_eq, preorder_eq, List.map_cons, List.map_flatMap]
      exact congrArg _ (List.flatMap_congr fun c isChild => ih c isChild _)

/-- What is found at the nodes of a tree is found at its loud visits. -/
theorem filterMap_preorder {β : Type} {f : Tree → Option β}
    (quiet : ∀ n : Tree, n.isQuiet = true → f n = none) (t : Tree) :
    t.preorder.filterMap f = (t.loudWithin []).filterMap fun visit => f visit.node := by
  rw [← map_node_visitsWithin t [], List.filterMap_map]
  unfold Node.loudWithin
  rw [List.filterMap_filter]
  refine List.filterMap_congr fun visit _ => ?_
  cases isQuiet : visit.node.isQuiet with
  | true => exact quiet _ isQuiet
  | false => rfl

theorem Alike.resources (same : Alike k E false t t') :
    List.Forall₂ (Resource.Alike k E) t.resources t'.resources := by
  have quiet (n : Tree) (isQuiet : n.isQuiet = true) : Resource.ofNode? n = none := by
    obtain ⟨info, form⟩ := n
    cases form with
    | newExpression callee arguments => cases isQuiet
    | _ => rfl
  rw [Resource.resources_eq_filterMap, Resource.resources_eq_filterMap, filterMap_preorder quiet,
    filterMap_preorder quiet]
  exact List.rel_filterMap (fun _ _ same => Resource.ofNode?_alike same.node) same.visits

theorem Alike.resourcesOf (same : Alike k E false t t') (types : List Text) :
    List.Forall₂ (Resource.Alike k E) (t.resourcesOf types) (t'.resourcesOf types) := by
  unfold Node.resourcesOf
  refine List.rel_filter (fun r r' same => ?_) same.resources
  show _ ↔ types.contains r'.typeName = true
  rw [same.typeName]

/-! ## §4. Functions. -/

/-- The next node around that is no wrapper. -/
theorem Around.dropWhile (places : Around k E around around') :
    Option.Rel (Alike k E false) (around.dropWhile isWrapper).head?
      (around'.dropWhile isWrapper).head? := by
  induction places with
  | nil => exact .none
  | @cons n n' around around' same others ih =>
      rw [List.dropWhile_cons, List.dropWhile_cons, same.isWrapper]
      cases n.isWrapper with
      | true => exact ih
      | false => exact .some same
  | wrapper isWrapper place others ih =>
      rw [List.dropWhile_cons_of_pos isWrapper]
      exact ih

/-- The name of a binding around a place. -/
theorem Around.boundName? (places : Around k E around around') :
    Node.boundName? around' = Node.boundName? around := by
  have next := places.dropWhile
  unfold Node.boundName?
  generalize (around.dropWhile Node.isWrapper).head? = m at next ⊢
  generalize (around'.dropWhile Node.isWrapper).head? = m' at next ⊢
  cases next with
  | none => rfl
  | some same =>
      cases same with
      | node info parts others values =>
          cases parts with
          | variableDeclarator target init =>
              exact (others target (List.mem_cons_self ..)).identifierName?
          | propertyAssignment key value => exact (others key (List.mem_cons_self ..)).keyName?
          | _ => rfl
      | expanded may expands =>
          cases expands
          rfl

theorem Alike.functionName? (same : Alike k E false n n') (places : Around k E around around') :
    n'.functionName? around' = n.functionName? around := by
  cases same with
  | node info parts others values =>
      unfold Node.functionName?
      cases parts with
      | methodDeclaration key params body accessor info =>
          exact (others key (List.mem_cons_self ..)).keyName?
      | functionDeclaration name params body info =>
          cases name with
          | none => rfl
          | some name => exact (others name (List.mem_cons_self ..)).identifierName?
      | functionExpression name params body info =>
          cases name with
          | none => exact places.boundName?
          | some name => exact (others name (List.mem_cons_self ..)).identifierName?
      | arrowFunction params body info => exact places.boundName?
      | _ => rfl
  | expanded may expands =>
      cases expands
      rfl

/-- The name of the function around a place. -/
theorem Around.enclosingFunction? (places : Around k E around around') :
    (Node.enclosingFunction? around').map Prod.fst
      = (Node.enclosingFunction? around).map Prod.fst := by
  induction places with
  | nil => rfl
  | @cons n n' around around' same others ih =>
      unfold Node.enclosingFunction?
      rw [same.functionName? others]
      cases n.functionName? around with
      | none => exact ih
      | some name => rfl
  | @wrapper w around around' isWrapper place others ih =>
      have nameless : w.functionName? around' = none := by
        obtain ⟨info, form⟩ := w
        cases form with
        | parenthesized inner => rfl
        | typeAssertion inner a => rfl
        | _ => cases isWrapper
      rw [Node.enclosingFunction?, nameless]
      exact ih

/-- What functions have besides their names. -/
theorem Alike.function? (same : Alike k E false n n') :
    n'.function?.map (fun f => (f.1.map Node.info, f.2))
      = n.function?.map fun f => (f.1.map Node.info, f.2) := by
  have spans {parts : List (Tree × Tree)} (each : ∀ p ∈ parts, Alike k E false p.1 p.2) :
      (parts.map Prod.snd).map Node.info = (parts.map Prod.fst).map Node.info := by
    rw [List.map_map, List.map_map]
    exact List.map_congr_left fun p isPart => (each p isPart).info
  cases same with
  | node info parts others values =>
      cases parts with
      | functionDeclaration name params body info =>
          refine congrArg (fun infos => some (infos, info)) (spans fun p isParam => others p ?_)
          exact List.mem_append_left _ (List.mem_append_right _ isParam)
      | functionExpression name params body info =>
          refine congrArg (fun infos => some (infos, info)) (spans fun p isParam => others p ?_)
          exact List.mem_append_left _ (List.mem_append_right _ isParam)
      | arrowFunction params body info =>
          refine congrArg (fun infos => some (infos, info)) (spans fun p isParam => others p ?_)
          exact List.mem_append_left _ isParam
      | methodDeclaration key params body accessor info =>
          refine congrArg (fun infos => some (infos, info)) (spans fun p isParam => others p ?_)
          exact List.mem_append_left _ (List.mem_append_right _ isParam)
      | _ => rfl
  | expanded may expands =>
      cases expands
      rfl

end Node

end StackLint
