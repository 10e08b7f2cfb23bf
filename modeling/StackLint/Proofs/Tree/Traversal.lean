/-
  StackLint.Proofs.Tree.Traversal
  ───────────────────────────────
  **TRAVERSALS WITH A STACK.**

  Two traversals keep a stack of nodes that are still to come: the walk through a tree
  and the search for the operands of a chain of additions.  They agree with the recursive
  ones, `preorder` and `operands`.  Nodes that look alike may stand in several places of a
  tree, so places are told apart by their paths: the walk comes to every path once, and to
  the paths in lexicographic order.
-/
import StackLint.Proofs.Tree.Around
import StackLint.Rule.PulumiOutput

namespace StackLint

namespace Node

variable {σ : Type} {n : Node σ}

/-! ## §1. Paths. -/

/-- The node that a path leads to: at each step to the child with this number. -/
def descend? (n : Node σ) : (path : List Nat) → Option (Node σ)
  | [] => some n
  | i :: path => n.children[i]?.bind fun c => c.descend? path

/-- The paths to a node and its descendants, each before the paths that go on from it. -/
def paths (n : Node σ) : List (List Nat) :=
  n.rollup fun _ below => [] :: (below.mapIdx fun i paths => paths.map (i :: ·)).flatten

/-- The recursion equation of `paths`. -/
theorem paths_eq (n : Node σ) :
    n.paths = [] :: (n.children.mapIdx fun i c => c.paths.map (i :: ·)).flatten := by
  obtain ⟨info, form⟩ := n
  unfold paths
  rw [rollup_mk]
  refine congrArg ([] :: List.flatten ·) (List.ext_getElem ?_ fun i _ _ => ?_)
  · rw [List.length_mapIdx, List.length_mapIdx, List.length_map]
    rfl
  · rw [List.getElem_mapIdx, List.getElem_mapIdx, List.getElem_map]
    rfl

theorem descend?_cons {i : Nat} (inside : i < n.children.length) (path : List Nat) :
    n.descend? (i :: path) = n.children[i].descend? path := by
  rw [descend?, List.getElem?_eq_getElem inside, Option.bind_some]

/-- **The paths of a tree** are those that lead to a node. -/
theorem mem_paths_iff {path : List Nat} : path ∈ n.paths ↔ (n.descend? path).isSome = true := by
  induction path generalizing n with
  | nil =>
      rw [paths_eq]
      exact iff_of_true (List.mem_cons_self ..) rfl
  | cons i path ih =>
      rw [paths_eq, List.mem_cons, List.mem_flatten]
      constructor
      · rintro (never | ⟨below, isBelow, inside⟩)
        · cases never
        · obtain ⟨j, isChild, rfl⟩ := List.mem_mapIdx.mp isBelow
          obtain ⟨path', inside, same⟩ := List.mem_map.mp inside
          cases same
          rw [descend?_cons isChild]
          exact ih.mp inside
      · intro leads
        by_cases isChild : i < n.children.length
        · rw [descend?_cons isChild] at leads
          exact .inr ⟨_, List.mem_mapIdx.mpr ⟨i, isChild, rfl⟩, List.mem_map_of_mem (ih.mpr leads)⟩
        · rw [descend?, List.getElem?_eq_none (Nat.le_of_not_lt isChild)] at leads
          cases leads

/-- **The paths stand in lexicographic order,** so that none stands there twice. -/
theorem pairwise_paths (n : Node σ) : n.paths.Pairwise (List.Lex (· < ·)) := by
  induction n using induct with
  | h info form ih =>
      rw [paths_eq, List.pairwise_cons, List.pairwise_flatten, List.pairwise_iff_getElem]
      refine ⟨fun path inside => ?_, fun below isBelow => ?_, fun i j hi hj before => ?_⟩
      · obtain ⟨below, isBelow, inside⟩ := List.mem_flatten.mp inside
        obtain ⟨i, isChild, rfl⟩ := List.mem_mapIdx.mp isBelow
        obtain ⟨path, _, rfl⟩ := List.mem_map.mp inside
        exact .nil
      · obtain ⟨i, isChild, rfl⟩ := List.mem_mapIdx.mp isBelow
        exact List.pairwise_map.mpr ((ih _ (List.getElem_mem isChild)).imp .cons)
      · rw [List.getElem_mapIdx, List.getElem_mapIdx]
        intro path inside path' inside'
        obtain ⟨rest, _, rfl⟩ := List.mem_map.mp inside
        obtain ⟨rest', _, rfl⟩ := List.mem_map.mp inside'
        exact .rel before

/-- The paths lead to the nodes in preorder. -/
theorem map_descend?_paths (n : Node σ) : n.paths.map n.descend? = n.preorder.map some := by
  induction n using induct with
  | h info form ih =>
      rw [paths_eq, preorder_eq, List.map_cons, List.map_cons, List.map_flatten, List.map_flatMap,
        List.flatMap_def]
      refine congrArg (_ :: List.flatten ·) (List.ext_getElem ?_ fun i _ inside => ?_)
      · rw [List.length_map, List.length_mapIdx, List.length_map]
      · have isChild : i < (mk info form).children.length := by
          rw [List.length_map] at inside
          exact inside
        rw [List.getElem_map, List.getElem_mapIdx, List.getElem_map, List.map_map,
          ← ih _ (List.getElem_mem isChild)]
        exact List.map_congr_left fun path _ => descend?_cons isChild path

/-! ## §2. Leaves. -/

/-- The nodes of a tree that have no children, in the order of the walk. -/
def leaves (n : Node σ) : List (Node σ) :=
  n.walk.filter fun m => m.children.isEmpty

/-- The leaves of a node that is none are those of its children. -/
theorem leaves_eq (isInner : n.children ≠ []) : n.leaves = n.children.flatMap leaves := by
  have noLeaf : n.children.isEmpty = false := List.isEmpty_eq_false_iff.mpr isInner
  unfold leaves
  rw [walk_eq_preorder, preorder_eq, List.filter_cons, noLeaf, List.filter_flatMap]
  exact List.flatMap_congr fun c _ => by rw [walk_eq_preorder]

end Node

/-! ## §3. Operands. -/

namespace PulumiOutput

/-- No operand of a chain is an addition itself. -/
theorem not_isAddition_of_mem_operands {n operand : Tree} (inside : operand ∈ operands n) :
    isAddition operand = false := by
  induction n using operands.induct with
  | case1 info left right ihLeft ihRight =>
      rw [operands] at inside
      exact (List.mem_append.mp inside).elim ihLeft ihRight
  | case2 n notAddition =>
      rw [operands_of_not_addition notAddition, List.mem_singleton] at inside
      obtain ⟨info, form⟩ := n
      rw [inside]
      unfold isAddition
      split
      · next left right isSum => exact absurd (congrArg (Node.mk info) isSum) (notAddition info left right)
      · rfl

/-- The operands of a chain lie in it. -/
theorem mem_preorder_of_mem_operands {n operand : Tree} (inside : operand ∈ operands n) :
    operand ∈ n.preorder := by
  induction n using operands.induct with
  | case1 info left right ihLeft ihRight =>
      rw [operands] at inside
      rcases List.mem_append.mp inside with ofLeft | ofRight
      · exact Node.mem_preorder_child (List.mem_cons_self ..) (ihLeft ofLeft)
      · exact Node.mem_preorder_child (List.mem_cons_of_mem _ (List.mem_cons_self ..)) (ihRight ofRight)
  | case2 n notAddition =>
      rw [operands_of_not_addition notAddition, List.mem_singleton] at inside
      rw [inside]
      exact n.mem_preorder_self

/-- **The leaves of the operands** are those of the chain. -/
theorem flatMap_leaves_operands (n : Tree) : (operands n).flatMap Node.leaves = n.leaves := by
  induction n using operands.induct with
  | case1 info left right ihLeft ihRight =>
      have isInner : (Node.mk info (.binary .add left right)).children ≠ [] := List.cons_ne_nil _ _
      have children : (Node.mk info (.binary .add left right)).children = [left, right] := rfl
      rw [operands, List.flatMap_append, ihLeft, ihRight, Node.leaves_eq isInner, children,
        List.flatMap_cons, List.flatMap_singleton]
  | case2 n notAddition => rw [operands_of_not_addition notAddition, List.flatMap_singleton]

/-- **The traversals with a stack agree with the recursive ones.**  The walk from a node is its
preorder: it comes to every place below the node once, in lexicographic order, and the rules visit
the nodes in this order.  The operands found are those of the recursion on additions, and their
leaves one behind the other are the leaves of the chain. -/
theorem traversals_agree (n : Tree) :
    n.walk = n.preorder
      ∧ (∃ paths : List (List Nat), paths.Pairwise (List.Lex (· < ·))
          ∧ (∀ path, path ∈ paths ↔ (n.descend? path).isSome = true)
          ∧ n.walk.map some = paths.map n.descend?)
      ∧ n.visits.map Visit.node = n.walk
      ∧ flatten n = operands n
      ∧ (∀ operand ∈ flatten n, isAddition operand = false)
      ∧ (flatten n).flatMap Node.leaves = n.leaves := by
  rw [n.walk_eq_preorder, flatten_eq_operands]
  refine ⟨rfl, ⟨n.paths, n.pairwise_paths, fun path => Node.mem_paths_iff, ?_⟩, ?_, rfl, ?_, ?_⟩
  · exact n.map_descend?_paths.symm
  · exact n.map_node_visitsWithin []
  · exact fun operand inside => not_isAddition_of_mem_operands inside
  · exact flatMap_leaves_operands n

end PulumiOutput

end StackLint
