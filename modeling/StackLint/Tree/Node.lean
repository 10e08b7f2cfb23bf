/-
  StackLint.Tree.Node
  ───────────────────
  **SYNTAX TREES.**

  A node is a form of nodes with an annotation; the parser annotates with
  spans.  `Node.fold` is the one structural recursion over trees.  All other
  traversals are folds: `rollup` combines the results of the children,
  `preorder` lists a node before its descendants, and `visits` gives every node
  together with the nodes around it.  Only `walk`, which also lists the nodes, keeps
  a stack of those that are still to come.

  Main law: `Node.rollup_mk`, the recursion equation of `rollup`.
-/
import StackLint.Tree.Form

namespace StackLint

/-! ## §1. Nodes. -/

/-- A syntax tree with annotations of type `σ`. -/
inductive Node (σ : Type) where
  | mk (info : σ) (form : Form (Node σ))

namespace Node

/-- The annotation of the root. -/
def info : Node σ → σ
  | .mk info _ => info

/-- The construct at the root. -/
def form : Node σ → Form (Node σ)
  | .mk _ form => form

/-- The child nodes in order. -/
def children (n : Node σ) : List (Node σ) :=
  n.form.children

/-- The name of the construct at the root. -/
def kind (n : Node σ) : String :=
  n.form.kind

/-! ## §2. Folds. -/

mutual

/-- Computes a value from the bottom up: the value of a node from its
annotation and its form with the values of the children in their places. -/
def fold (f : σ → Form β → β) : Node σ → β
  | .mk info form => f info (foldForm f form)

/-- The form with the values of its parts in their places. -/
def foldForm (f : σ → Form β → β) : Form (Node σ) → Form β
  | .program ss => .program (foldList f ss)
  | .block ss => .block (foldList f ss)
  | .emptyStatement => .emptyStatement
  | .expressionStatement e => .expressionStatement (e.fold f)
  | .variableStatement k ds => .variableStatement k (foldList f ds)
  | .variableDeclarator t i => .variableDeclarator (t.fold f) (foldOption f i)
  | .parameter t d r => .parameter (t.fold f) (foldOption f d) r
  | .functionDeclaration n ps b i => .functionDeclaration (foldOption f n) (foldList f ps) (foldOption f b) i
  | .functionExpression n ps b i => .functionExpression (foldOption f n) (foldList f ps) (foldOption f b) i
  | .arrowFunction ps b i => .arrowFunction (foldList f ps) (b.fold f) i
  | .methodDeclaration k ps b a i => .methodDeclaration (k.fold f) (foldList f ps) (foldOption f b) a i
  | .propertyDeclaration k v => .propertyDeclaration (k.fold f) (foldOption f v)
  | .classNode n h ms => .classNode (foldOption f n) (foldOption f h) (foldList f ms)
  | .typeDeclaration k => .typeDeclaration k
  | .importDeclaration s => .importDeclaration (foldOption f s)
  | .exportDeclaration d q => .exportDeclaration (foldOption f d) q
  | .returnStatement a => .returnStatement (foldOption f a)
  | .throwStatement a => .throwStatement (foldOption f a)
  | .ifStatement t c a => .ifStatement (t.fold f) (c.fold f) (foldOption f a)
  | .loopStatement k h b => .loopStatement k (foldList f h) (b.fold f)
  | .tryStatement b p h z => .tryStatement (b.fold f) (foldOption f p) (foldOption f h) (foldOption f z)
  | .switchCase t ss => .switchCase (foldOption f t) (foldList f ss)
  | .switchStatement d cs => .switchStatement (d.fold f) (foldList f cs)
  | .jumpStatement k l => .jumpStatement k l
  | .identifier n => .identifier n
  | .stringLiteral v q => .stringLiteral v q
  | .numericLiteral r => .numericLiteral r
  | .keywordLiteral v => .keywordLiteral v
  | .regexLiteral r => .regexLiteral r
  | .templateSpan e l => .templateSpan (e.fold f) l
  | .templateLiteral h ss => .templateLiteral h (foldList f ss)
  | .taggedTemplate g t => .taggedTemplate (g.fold f) (t.fold f)
  | .spreadElement a => .spreadElement (a.fold f)
  | .arrayLiteral es => .arrayLiteral (foldHoles f es)
  | .computedPropertyName e => .computedPropertyName (e.fold f)
  | .propertyAssignment k v => .propertyAssignment (k.fold f) (v.fold f)
  | .shorthandProperty n d => .shorthandProperty (n.fold f) (foldOption f d)
  | .spreadAssignment a => .spreadAssignment (a.fold f)
  | .objectLiteral ps => .objectLiteral (foldList f ps)
  | .propertyAccess o n q => .propertyAccess (o.fold f) (n.fold f) q
  | .elementAccess o i q => .elementAccess (o.fold f) (i.fold f) q
  | .call c as q => .call (c.fold f) (foldList f as) q
  | .newExpression c as => .newExpression (c.fold f) (foldArguments f as)
  | .unary op e l => .unary op (e.fold f) l
  | .binary op l r => .binary op (l.fold f) (r.fold f)
  | .assignment op t v => .assignment op (t.fold f) (v.fold f)
  | .conditional t c a => .conditional (t.fold f) (c.fold f) (a.fold f)
  | .parenthesized e => .parenthesized (e.fold f)
  | .typeAssertion e a => .typeAssertion (e.fold f) a
  | .errorNode c => .errorNode c

/-- The value of a part that may be missing. -/
def foldOption (f : σ → Form β → β) : Option (Node σ) → Option β
  | none => none
  | some n => some (n.fold f)

/-- The values of parts in a row. -/
def foldList (f : σ → Form β → β) : List (Node σ) → List β
  | [] => []
  | n :: ns => n.fold f :: foldList f ns

/-- The values of parts in a row with holes. -/
def foldHoles (f : σ → Form β → β) : List (Option (Node σ)) → List (Option β)
  | [] => []
  | n :: ns => foldOption f n :: foldHoles f ns

/-- The values of arguments, if there is an argument list. -/
def foldArguments (f : σ → Form β → β) : Option (List (Node σ)) → Option (List β)
  | none => none
  | some ns => some (foldList f ns)

end

theorem foldOption_eq_map (f : σ → Form β → β) (n : Option (Node σ)) :
    foldOption f n = n.map (fold f) := by
  cases n <;> simp [foldOption]

theorem foldList_eq_map (f : σ → Form β → β) (ns : List (Node σ)) :
    foldList f ns = ns.map (fold f) := by
  induction ns with
  | nil => simp [foldList]
  | cons n ns ih => simp [foldList, ih]

theorem foldHoles_eq_map (f : σ → Form β → β) (ns : List (Option (Node σ))) :
    foldHoles f ns = ns.map (·.map (fold f)) := by
  induction ns with
  | nil => simp [foldHoles]
  | cons n ns ih => simp [foldHoles, foldOption_eq_map, ih]

theorem foldArguments_eq_map (f : σ → Form β → β) (ns : Option (List (Node σ))) :
    foldArguments f ns = ns.map (·.map (fold f)) := by
  cases ns <;> simp [foldArguments, foldList_eq_map]

theorem foldForm_eq_map (f : σ → Form β → β) (form : Form (Node σ)) :
    foldForm f form = form.map (fold f) := by
  cases form <;>
    simp [foldForm, Form.map, foldOption_eq_map, foldList_eq_map, foldHoles_eq_map,
      foldArguments_eq_map]

/-- The recursion equation of `fold`. -/
theorem fold_mk (f : σ → Form β → β) (info : σ) (form : Form (Node σ)) :
    (mk info form).fold f = f info (form.map (fold f)) := by
  rw [fold, foldForm_eq_map]

/-- A child is smaller than the form that it is part of. -/
theorem sizeOf_lt_of_mem_children {form : Form (Node σ)} {c : Node σ}
    (h : c ∈ form.children) : sizeOf c < sizeOf form := by
  have inList : ∀ {xs : List (Node σ)}, c ∈ xs → sizeOf c < sizeOf xs := List.sizeOf_lt_of_mem
  have inOption : ∀ {o : Option (Node σ)}, o = some c → sizeOf c < sizeOf o := by
    rintro _ rfl
    simp
  have inHoles : ∀ {xs : List (Option (Node σ))}, some c ∈ xs → sizeOf c < sizeOf xs := by
    intro xs hx
    have := List.sizeOf_lt_of_mem hx
    simp at this
    omega
  cases form with
  | newExpression callee arguments =>
      cases arguments <;> simp [Form.children] at h <;> simp <;> grind
  | _ => simp [Form.children] at h <;> simp <;> grind

/-- Induction on trees: what holds of a node when it holds of all its children
holds of every node. -/
theorem induct {P : Node σ → Prop}
    (h : ∀ info form, (∀ c ∈ form.children, P c) → P (mk info form)) : ∀ n, P n
  | mk info form => h info form fun c hc =>
      have := sizeOf_lt_of_mem_children hc
      induct h c
termination_by n => sizeOf n
decreasing_by
  simp
  omega

/-- Replaces every annotation by its image. -/
def mapInfo (f : σ → τ) (n : Node σ) : Node τ :=
  n.fold fun info form => .mk (f info) form

/-- One step of `rollup`: the node itself beside its value. -/
def rollupStep (f : Node σ → List β → β) (info : σ) (form : Form (Node σ × β)) : Node σ × β :=
  let node := mk info (form.map Prod.fst)
  (node, f node (form.children.map Prod.snd))

/-- Computes a value from the bottom up: the value of a node from the node and
the values of its children in order. -/
def rollup (f : Node σ → List β → β) (n : Node σ) : β :=
  (n.fold (rollupStep f)).2

theorem fst_fold_rollupStep (f : Node σ → List β → β) (n : Node σ) :
    (n.fold (rollupStep f)).1 = n := by
  induction n using induct with
  | h info form ih =>
      rw [fold_mk, rollupStep, Form.map_map]
      exact congrArg _ ((Form.map_congr (g := id) ih).trans form.map_id)

/-- The recursion equation of `rollup`. -/
theorem rollup_mk (f : Node σ → List β → β) (info : σ) (form : Form (Node σ)) :
    (mk info form).rollup f = f (mk info form) (form.children.map (rollup f)) := by
  have h := fst_fold_rollupStep f (mk info form)
  rw [fold_mk] at h
  rw [rollup, fold_mk]
  rw [rollupStep] at h ⊢
  rw [show mk info ((form.map (fold (rollupStep f))).map Prod.fst) = mk info form from h,
    Form.children_map, List.map_map]
  rfl

/-! ## §3. Traversals. -/

/-- The node and all its descendants, each before its own descendants. -/
def preorder (n : Node σ) : List (Node σ) :=
  n.rollup fun node below => node :: below.flatten

/-- The recursion equation of `preorder`. -/
theorem preorder_mk (info : σ) (form : Form (Node σ)) :
    (mk info form).preorder = mk info form :: form.children.flatMap preorder := by
  unfold preorder
  rw [rollup_mk, List.flatMap_def]

/-- The stack after some nodes were laid on it one by one, the last one on top. -/
def pushAll (stack nodes : List (Node σ)) : List (Node σ) :=
  nodes.foldl (fun stack n => n :: stack) stack

theorem pushAll_reverse (stack nodes : List (Node σ)) :
    pushAll stack nodes.reverse = nodes ++ stack := by
  rw [pushAll, List.foldl_flip_cons_eq_append', List.reverse_reverse]

/-- Takes the nodes from a stack until it is empty.  The children of each node are laid on
the stack, the first one on top. -/
def walkFrom : (stack : List (Node σ)) → List (Node σ)
  | [] => []
  | mk info form :: stack => mk info form :: walkFrom (pushAll stack form.children.reverse)
-- Every step takes one away from the nodes that are still to come.
termination_by stack => (stack.flatMap preorder).length
decreasing_by
  rw [pushAll_reverse, List.flatMap_append, List.flatMap_cons, preorder_mk, List.cons_append,
    List.length_cons]
  exact Nat.lt_succ_self _

/-- The node and all its descendants, in the order in which the stack gives them. -/
def walk (n : Node σ) : List (Node σ) :=
  walkFrom [n]

end Node

/-- A node of a tree and the nodes around it, the nearest one first. -/
structure Visit (σ : Type) where
  node : Node σ
  ancestors : List (Node σ)

namespace Node

/-- The node and all its descendants in preorder, each with the nodes around
it, where `ancestors` are the ones around the first. -/
def visitsWithin (n : Node σ) : (ancestors : List (Node σ)) → List (Visit σ) :=
  n.rollup fun node below ancestors =>
    ⟨node, ancestors⟩ :: below.flatMap fun visitsIn => visitsIn (node :: ancestors)

/-- The nodes of a whole tree in preorder, each with the nodes around it. -/
def visits (n : Node σ) : List (Visit σ) :=
  n.visitsWithin []

end Node

end StackLint
