/-
  StackLint.Proofs.Parse.SourceOrder
  ──────────────────────────────────
  **NODES IN THE ORDER OF THE TEXT.**

  The children of a node come in the order of the text, and so do all nodes of a tree,
  even where the text makes no sense.  The one exception is a loop that is tested behind
  its body: its test is a child in front of the body, although it is written behind it.
-/
import StackLint.Proofs.Parse.Nested

namespace StackLint

/-! ## §1. Forms. -/

namespace Form

/-- A loop with its test behind its body: `do … while (…)`. -/
def isTestedLast : Form α → Bool
  | .loopStatement .doWord (_ :: _) _ => true
  | _ => false

theorem isTestedLast_iff {form : Form α} :
    form.isTestedLast = true ↔ ∃ test others body,
      form = .loopStatement .doWord (test :: others) body := by
  constructor
  · intro isLoop
    unfold isTestedLast at isLoop
    split at isLoop
    · next test others body => exact ⟨test, others, body, rfl⟩
    · cases isLoop
  · rintro ⟨test, others, body, rfl⟩
    rfl

/-- All other constructs have their parts in the order of the text. -/
theorem written_eq_children (form : Form α) (notLast : form.isTestedLast = false) :
    form.written = form.children := by
  unfold written
  split
  · next head body =>
      cases head with
      | nil => rfl
      | cons test others => cases notLast
  · rfl

end Form

/-! ## §2. Nodes. -/

namespace Node

/-- The node begins no later than the other one. -/
def StartsBefore (n m : Tree) : Prop :=
  n.info.start ≤ m.info.start

instance : DecidableRel StartsBefore :=
  fun n m => inferInstanceAs (Decidable (n.info.start ≤ m.info.start))

theorem children_sublist_preorder (n : Node σ) : n.children.Sublist n.preorder := by
  rw [preorder_eq]
  refine .cons n ?_
  induction n.children with
  | nil => exact .slnil
  | cons part others ih =>
      rw [List.flatMap_cons, preorder_eq, List.cons_append]
      exact .cons_cons part (ih.trans (List.sublist_append_right _ _))

/-- The nodes of a part come in the tree as they come in the part. -/
theorem preorder_sublist {n t : Node σ} (inside : n ∈ t.preorder) :
    n.preorder.Sublist t.preorder := by
  induction t using induct with
  | h info form ih =>
      rcases mem_preorder_mk.mp inside with rfl | ⟨part, isPart, inside⟩
      · exact .refl _
      · rw [preorder_mk]
        refine .cons _ ((ih part isPart inside).trans ?_)
        rw [List.flatMap_def]
        exact List.sublist_flatten_of_mem (List.mem_map_of_mem isPart)

end Node

/-! ## §3. Rows of trees. -/

variable {L : Layout} {heard : Complaint → Prop} {lo hi : Nat} {tree : Tree} {trees : List Tree}

/-- The nodes of a tree begin between the tokens that the tree stands between. -/
theorem Placed.start_of_mem_preorder (h : Placed L heard lo hi tree) {node : Tree}
    (inside : node ∈ tree.preorder) :
    L.startAt lo ≤ node.info.start ∧ node.info.start ≤ L.startAt hi := by
  obtain ⟨lo', hi', lower, upper, place⟩ := h.of_mem_preorder_within inside
  obtain ⟨i, behind, before, start, _⟩ := place.begins
  rw [start]
  exact ⟨L.startAt_mono (Nat.le_trans lower behind), L.startAt_mono (Nat.le_trans before upper)⟩

namespace InOrder

/-- **Trees in a row begin one behind the other,** whatever is missing in them. -/
theorem startsBefore (h : InOrder (Placed L heard) lo hi trees) :
    trees.Pairwise Node.StartsBefore := by
  refine h.pairwise Placed.le fun a _ b _ lo mid mid' hi first le second => ?_
  exact Nat.le_trans (first.start_of_mem_preorder a.mem_preorder_self).2
    (Nat.le_trans (L.startAt_mono le) (second.start_of_mem_preorder b.mem_preorder_self).1)

/-- The nodes of trees in a row come in the order of the text when those of each tree do. -/
theorem preorder_startsBefore (h : InOrder (Placed L heard) lo hi trees)
    (each : ∀ tree ∈ trees, tree.preorder.Pairwise Node.StartsBefore) :
    (trees.flatMap Node.preorder).Pairwise Node.StartsBefore := by
  refine List.pairwise_flatMap.mpr ⟨each, ?_⟩
  refine h.pairwise Placed.le fun a _ b _ lo mid mid' hi first le second n inside m inside' => ?_
  exact Nat.le_trans (first.start_of_mem_preorder inside).2
    (Nat.le_trans (L.startAt_mono le) (second.start_of_mem_preorder inside').1)

end InOrder

/-! ## §4. Trees. -/

namespace Placed

/-- The children of a node come in the order of the text, unless it is a loop that is tested
behind its body. -/
theorem children_startsBefore (h : Placed L heard lo hi tree)
    (notLast : tree.form.isTestedLast = false) : tree.children.Pairwise Node.StartsBefore := by
  cases h with
  | @mk _ _ _ _ _ form _ _ _ parts _ =>
      rw [form.written_eq_children notLast] at parts
      exact parts.startsBefore

/-- **All nodes of a tree come in the order of the text** when it has no loop that is tested
behind its body. -/
theorem preorder_startsBefore (h : Placed L heard lo hi tree)
    (noneLast : ∀ n ∈ tree.preorder, n.form.isTestedLast = false) :
    tree.preorder.Pairwise Node.StartsBefore := by
  induction tree using Node.induct generalizing lo hi with
  | h span form ih =>
      have starts : ∀ part ∈ form.children, ∀ n ∈ part.preorder,
          (Node.mk span form).StartsBefore n := by
        intro part isPart n inside
        obtain ⟨i, _, _, start, place⟩ := h.begins
        show (Node.mk span form).info.start ≤ n.info.start
        rw [start]
        exact (place.start_of_mem_preorder
          (Node.mem_preorder_mk.mpr (.inr ⟨part, isPart, inside⟩))).1
      cases h with
      | mk _ _ _ parts _ =>
          rw [form.written_eq_children (noneLast _ (Node.mem_preorder_self _))] at parts
          rw [Node.preorder_mk]
          refine .cons ?_ (parts.preorder_startsBefore fun part isPart => ?_)
          · intro n below
            obtain ⟨part, isPart, inside⟩ := List.mem_flatMap.mp below
            exact starts part isPart n inside
          · obtain ⟨_, _, place⟩ := parts.of_mem isPart
            exact ih part isPart place fun n inside =>
              noneLast n (Node.mem_preorder_mk.mpr (.inr ⟨part, isPart, inside⟩))

/-- No tree stands behind the last token. -/
theorem narrow (h : Placed L heard lo hi tree) : Placed L heard lo (min hi L.size) tree := by
  cases h with
  | mk behind before fits parts details =>
      exact .mk behind (Nat.le_min.mpr ⟨before, fits.inside⟩) fits parts details

/-- Where nothing is missing, every node has a width. -/
theorem start_lt_stop (h : Placed L heard lo hi tree) (silent : ∀ c, ¬ heard c)
    (noError : ∀ n ∈ tree.preorder, ∀ c, n.form ≠ .errorNode c) :
    tree.info.start < tree.info.stop := by
  obtain ⟨i, j, _, upper, wide, same, _⟩ := h.narrow.full silent noError
  rw [same]
  exact L.startAt_lt_stopBefore wide (Nat.le_min.mp upper).2

/-- **A test behind a body that is there comes out of order.** -/
theorem not_startsBefore (h : Placed L heard lo hi tree) (silent : ∀ c, ¬ heard c)
    (noError : ∀ n ∈ tree.preorder, ∀ c, n.form ≠ .errorNode c)
    (isLast : tree.form.isTestedLast = true) : ¬ tree.children.Pairwise Node.StartsBefore := by
  obtain ⟨test, others, body, isLoop⟩ := Form.isTestedLast_iff.mp isLast
  have children : tree.children = test :: (others ++ [body]) := congrArg Form.children isLoop
  have written : tree.form.written = body :: test :: others := congrArg Form.written isLoop
  have bodyLast : body ∈ others ++ [body] := List.mem_append_right _ (List.mem_singleton_self body)
  have isPart : ∀ part ∈ tree.form.written, part ∈ tree.children :=
    fun part => (tree.form.mem_written part).mp
  obtain ⟨_, _, _, _, _, _, parts⟩ := h.full silent noError
  have apart := parts.precede silent fun part inside n below =>
    noError n (Node.mem_preorder_child (isPart part inside) below)
  have isBody : body ∈ tree.form.written := written ▸ List.mem_cons_self ..
  obtain ⟨_, _, place⟩ := parts.of_mem isBody
  have wide := place.start_lt_stop silent fun n below =>
    noError n (Node.mem_preorder_child (isPart body isBody) below)
  rw [written, List.pairwise_cons] at apart
  have before : body.info.stop ≤ test.info.start := apart.1 test (List.mem_cons_self ..)
  intro ordered
  rw [children, List.pairwise_cons] at ordered
  have late : test.info.start ≤ body.info.start := ordered.1 body bodyLast
  omega

end Placed

/-! ## §5. Programs. -/

/-- **The nodes of a parsed text come in its order, but for tests behind a body.**

* The children of every node come in the order of the text, unless it is a loop that is
  tested behind its body.
* Without such a loop all nodes of the tree come in the order of the text.
* In a text that makes sense such a loop has its children out of order, and so has the
  whole tree its nodes. -/
theorem parse_inSourceOrder {text : Text} {program : Program} (h : parse text = .ok program) :
    (∀ n ∈ program.tree.preorder, n.form.isTestedLast = false →
        n.children.Pairwise Node.StartsBefore)
      ∧ ((∀ n ∈ program.tree.preorder, n.form.isTestedLast = false) →
        program.tree.preorder.Pairwise Node.StartsBefore)
      ∧ (program.complaints = [] → (∀ n ∈ program.tree.preorder, ∀ c, n.form ≠ .errorNode c) →
        ∀ n ∈ program.tree.preorder, n.form.isTestedLast = true →
          ¬ n.children.Pairwise Node.StartsBefore
            ∧ ¬ program.tree.preorder.Pairwise Node.StartsBefore) := by
  obtain ⟨L, rfl, rfl⟩ := exists_layout_of_parse h
  obtain ⟨statements, isTree, places⟩ := parseTokens_placed L
  have placed := parseTokens_preorder L
  refine ⟨?_, ?_, ?_⟩
  · intro n inside notLast
    rcases placed n inside with rfl | ⟨_, _, place⟩
    · rw [isTree]
      exact places.startsBefore
    · exact place.children_startsBefore notLast
  · intro noneLast
    rw [isTree] at noneLast ⊢
    rw [Node.preorder_mk]
    refine .cons (fun n _ => Nat.zero_le n.info.start) ?_
    refine places.preorder_startsBefore fun statement isStatement => ?_
    obtain ⟨_, _, place⟩ := places.of_mem isStatement
    exact place.preorder_startsBefore fun n inside =>
      noneLast n (Node.mem_preorder_mk.mpr (.inr ⟨statement, isStatement, inside⟩))
  · intro noComplaint noError n inside isLast
    have outOfOrder : ¬ n.children.Pairwise Node.StartsBefore := by
      rcases placed n inside with rfl | ⟨_, _, place⟩
      · rw [isTree] at isLast
        cases isLast
      · refine place.not_startsBefore ?_ ?_ isLast
        · rintro c ⟨offset, heard⟩
          rw [noComplaint] at heard
          exact absurd heard List.not_mem_nil
        · exact fun m below => noError m (Node.mem_preorder_trans below inside)
    refine ⟨outOfOrder, fun ordered => outOfOrder (ordered.sublist ?_)⟩
    exact n.children_sublist_preorder.trans (Node.preorder_sublist inside)

/-- A loop with its test in front of the body, and one with its test behind it. -/
def bothLoops : Text :=
  "while (a) b; do c; while (d);"

/-- The first loop has its children in order, the second one has not. -/
theorem parse_inSourceOrder_bothLoops :
    ∃ program, parse bothLoops = .ok program
      ∧ (∃ n ∈ program.tree.preorder, n.kind = "LoopStatement" ∧ n.info = ⟨0, 12⟩
        ∧ n.children.Pairwise Node.StartsBefore)
      ∧ (∃ n ∈ program.tree.preorder, n.kind = "LoopStatement" ∧ n.info = ⟨13, 29⟩
        ∧ ¬ n.children.Pairwise Node.StartsBefore)
      ∧ ¬ program.tree.preorder.Pairwise Node.StartsBefore := by
  have evaluated : (parse bothLoops).toOption.any (fun program =>
      program.complaints = [] && program.tree.preorder.all (fun n => n.kind ≠ "ErrorNode")
        && program.tree.preorder.any (fun n => n.kind = "LoopStatement" && n.info = ⟨0, 12⟩
          && !n.form.isTestedLast)
        && program.tree.preorder.any (fun n => n.kind = "LoopStatement" && n.info = ⟨13, 29⟩
          && n.form.isTestedLast)) = true := by
    decide +kernel
  obtain ⟨program, parsed, found⟩ := exists_ok_of_any evaluated
  simp only [Bool.and_eq_true, Bool.not_eq_true', List.all_eq_true, List.any_eq_true,
    decide_eq_true_eq] at found
  obtain ⟨⟨⟨silent, noErrors⟩, n, isNode, ⟨isLoop, place⟩, first⟩, m, isNode', ⟨isLoop', place'⟩,
    last⟩ := found
  obtain ⟨ordered, _, exception⟩ := parse_inSourceOrder parsed
  have noError : ∀ n ∈ program.tree.preorder, ∀ c, n.form ≠ .errorNode c := fun n inside c isError =>
    noErrors n inside (Form.kind_eq_errorNode.mpr ⟨c, isError⟩)
  obtain ⟨outOfOrder, wholeTree⟩ := exception silent noError m isNode' last
  exact ⟨program, parsed, ⟨n, isNode, isLoop, place, ordered n isNode first⟩,
    ⟨m, isNode', isLoop', place', outOfOrder⟩, wholeTree⟩

/-- A loop that is tested behind its body. -/
def testedLast : Text :=
  "do x; while (y);"

/-- Its nodes do not come in the order of the text. -/
theorem not_parse_inSourceOrder :
    ¬ ∀ (text : Text) (program : Program), parse text = .ok program → program.complaints = [] →
        (∀ n ∈ program.tree.preorder, ∀ c, n.form ≠ .errorNode c) →
        (∀ n ∈ program.tree.preorder, n.children.Pairwise Node.StartsBefore)
          ∧ program.tree.preorder.Pairwise Node.StartsBefore := by
  intro all
  have evaluated : (parse testedLast).toOption.any (fun program =>
      program.complaints = [] && program.tree.preorder.all (fun n => n.kind ≠ "ErrorNode")
        && !decide (program.tree.preorder.Pairwise Node.StartsBefore)) = true := by
    decide +kernel
  obtain ⟨program, parsed, found⟩ := exists_ok_of_any evaluated
  simp only [Bool.and_eq_true, Bool.not_eq_true', List.all_eq_true, decide_eq_true_eq,
    decide_eq_false_iff_not] at found
  obtain ⟨⟨silent, noErrors⟩, outOfOrder⟩ := found
  refine outOfOrder (all testedLast program parsed silent ?_).2
  exact fun n inside c isError => noErrors n inside (Form.kind_eq_errorNode.mpr ⟨c, isError⟩)

end StackLint
