/-
  StackLint.Proofs.Parse.Nested
  ─────────────────────────────
  **SPANS ARE NESTED.**

  All nodes and all complaints lie in the text, and no child begins before its
  parent.  In a tree that was parsed without a complaint, and in which nothing is
  missing, every node has tokens: then the children of a node lie inside of it, one
  behind the other.
-/
import StackLint.Proofs.Parse.Program
import StackLint.Proofs.Termination.Program

namespace StackLint

/-! ## §1. Rows of trees. -/

namespace InOrder

variable {P : Nat → Nat → Tree → Prop} {lo hi : Nat} {trees : List Tree}

theorem le (h : InOrder P lo hi trees) (within : ∀ {lo hi tree}, P lo hi tree → lo ≤ hi) :
    lo ≤ hi := by
  induction h with
  | nil h => exact h
  | cons first _ ih => exact Nat.le_trans (within first) ih

/-- Where one of the trees stands. -/
theorem of_mem_within (h : InOrder P lo hi trees) (within : ∀ {lo hi tree}, P lo hi tree → lo ≤ hi)
    {tree : Tree} (inside : tree ∈ trees) : ∃ lo' hi', lo ≤ lo' ∧ hi' ≤ hi ∧ P lo' hi' tree := by
  induction h with
  | nil => exact absurd inside List.not_mem_nil
  | cons first others ih =>
      rcases List.mem_cons.mp inside with rfl | inside
      · exact ⟨_, _, Nat.le_refl _, others.le within, first⟩
      · obtain ⟨lo', hi', lower, upper, place⟩ := ih inside
        exact ⟨lo', hi', Nat.le_trans (within first) lower, upper, place⟩

/-- Of two of the trees the later one stands behind the other one. -/
theorem pairwise {R : Tree → Tree → Prop} (h : InOrder P lo hi trees)
    (within : ∀ {lo hi tree}, P lo hi tree → lo ≤ hi)
    (apart : ∀ a ∈ trees, ∀ b ∈ trees, ∀ lo mid mid' hi, P lo mid a → mid ≤ mid' → P mid' hi b →
      R a b) : trees.Pairwise R := by
  induction h with
  | nil => exact .nil
  | @cons lo mid hi tree trees first others ih =>
      refine .cons ?_ (ih fun a isIn b isIn' =>
        apart a (List.mem_cons_of_mem _ isIn) b (List.mem_cons_of_mem _ isIn'))
      intro b inside
      obtain ⟨lo', hi', lower, _, place⟩ := others.of_mem_within within inside
      exact apart tree (List.mem_cons_self ..) b (List.mem_cons_of_mem _ inside) lo mid lo' hi' first
        lower place

/-- If the last tree stands in front of a token, all of them do. -/
theorem before {token : Nat} {last : Tree} (h : InOrder P lo hi trees)
    (isLast : trees.getLast? = some last) (ends : ∀ lo hi, P lo hi last → P lo token last) :
    InOrder P lo token trees := by
  induction h with
  | nil => cases isLast
  | @cons lo mid hi tree trees first others ih =>
      cases trees with
      | nil =>
          cases isLast
          exact .cons (ends _ _ first) (.nil (Nat.le_refl _))
      | cons next trees =>
          rw [List.getLast?_cons_cons] at isLast
          exact .cons first (ih isLast)

end InOrder

/-- In the order of the text the parts are the children again. -/
theorem Form.written_perm (form : Form α) : form.written.Perm form.children := by
  unfold Form.written
  split
  · next head body => exact (List.perm_append_singleton body head).symm
  · exact .refl _

/-- A construct that can be closed where it begins has a part. -/
theorem Form.exists_part {form : Form Tree} (loose : form.isLoose = true) :
    (∃ statements, form = .program statements) ∨ (∃ c, form = .errorNode c)
      ∨ ∃ part others, form.written = part :: others := by
  cases form with
  | program statements => exact .inl ⟨statements, rfl⟩
  | errorNode c => exact .inr (.inl ⟨c, rfl⟩)
  | expressionStatement | variableDeclarator | parameter | templateSpan =>
      exact .inr (.inr ⟨_, _, rfl⟩)
  | _ => cases loose

/-! ## §2. Trees without a gap. -/

namespace Placed

variable {L : Layout} {heard : Complaint → Prop} {lo hi : Nat} {tree : Tree}

theorem le (h : Placed L heard lo hi tree) : lo ≤ hi := by
  cases h with
  | mk behind before fits _ _ => exact Nat.le_trans behind (Nat.le_trans fits.le before)

/-- A tree that ends in front of a token has its tokens there. -/
theorem before {m : Nat} (h : Placed L heard lo hi tree) (inside : m < L.size)
    (stop : tree.info.stop ≤ L.startAt m) : Placed L heard lo m tree := by
  cases h with
  | @mk _ i j _ span form behind before fits parts details =>
      refine .mk behind (Nat.le_of_not_lt fun beyond => ?_) fits parts details
      cases fits with
      | full | inverted =>
          have first : L.startAt m < L.stopBefore (m + 1) := (L.token_spec inside).2.2.1
          exact Nat.not_lt.mpr stop (Nat.lt_of_lt_of_le first (L.stopBefore_mono beyond))
      | error | name | block => exact Nat.not_lt.mpr stop (L.startAt_lt_startAt beyond inside)

/-- The tokens of a construct that has some. -/
theorem exists_range (h : Placed L heard lo hi tree) (solid : tree.form.isSolid = true) :
    ∃ i j, i < j ∧ j ≤ hi ∧ j ≤ L.size ∧ tree.info = ⟨L.startAt i, L.stopBefore j⟩ := by
  have wide := h.wide solid
  cases h with
  | @mk _ i j _ _ _ _ before fits _ _ =>
      cases fits with
      | full less inside => exact ⟨i, j, less, before, inside, rfl⟩
      | inverted => exact absurd wide (Nat.not_lt.mpr (L.stopBefore_le_startAt i))
      | error | name | block => exact absurd wide (Nat.lt_irrefl _)

/-- The nodes of a tree stand between its tokens. -/
theorem of_mem_preorder_within (h : Placed L heard lo hi tree) {node : Tree}
    (inside : node ∈ tree.preorder) :
    ∃ lo' hi', lo ≤ lo' ∧ hi' ≤ hi ∧ Placed L heard lo' hi' node := by
  induction tree using Node.induct generalizing lo hi with
  | h span form ih =>
      rcases Node.mem_preorder_mk.mp inside with rfl | ⟨part, isPart, inside⟩
      · exact ⟨lo, hi, Nat.le_refl _, Nat.le_refl _, h⟩
      · cases h with
        | mk behind before _ parts _ =>
            obtain ⟨lo₁, hi₁, lower, upper, place⟩ :=
              parts.of_mem_within le ((form.mem_written part).mpr isPart)
            obtain ⟨lo₂, hi₂, lower', upper', place'⟩ := ih part isPart place inside
            exact ⟨lo₂, hi₂, Nat.le_trans behind (Nat.le_trans lower lower'),
              Nat.le_trans upper' (Nat.le_trans upper before), place'⟩

/-- What is known of a node that is no placeholder, and of its parts. -/
theorem parts_and_details (h : Placed L heard lo hi tree)
    (strict : tree.form.isPlaceholder = false) :
    ∃ i j, j ≤ hi ∧ tree.info.stop = L.stopBefore j
      ∧ InOrder (Placed L heard) i j tree.form.written ∧ tree.form.Details L heard i j := by
  cases h with
  | @mk _ i j _ _ _ _ before fits parts details =>
      exact ⟨i, j, before, fits.stop_eq strict, parts, details⟩

/-- No child begins before its parent. -/
theorem start_le_of_mem_children (h : Placed L heard lo hi tree) {part : Tree}
    (isPart : part ∈ tree.children) : tree.info.start ≤ part.info.start := by
  cases h with
  | @mk _ i j _ span form _ _ fits parts _ =>
      obtain ⟨_, _, lower, _, place⟩ :=
        parts.of_mem_within le ((form.mem_written part).mpr isPart)
      obtain ⟨k, behind, _, start, _⟩ := place.begins
      rw [start]
      show span.start ≤ _
      rw [fits.start_eq]
      exact L.startAt_mono (Nat.le_trans lower behind)

/-- **Where nothing is missing and nothing was complained of, every node has
tokens.** -/
theorem full (h : Placed L heard lo hi tree) (silent : ∀ c, ¬ heard c)
    (noError : ∀ n ∈ tree.preorder, ∀ c, n.form ≠ .errorNode c) :
    ∃ i j, lo ≤ i ∧ j ≤ hi ∧ i < j ∧ tree.info = ⟨L.startAt i, L.stopBefore j⟩
      ∧ InOrder (Placed L heard) i j tree.form.written := by
  induction tree using Node.induct generalizing lo hi with
  | h span form ih =>
      cases h with
      | @mk _ i j _ _ _ behind before fits parts details =>
          cases fits with
          | full before' _ => exact ⟨i, j, behind, before, before', rfl, parts⟩
          | error c => exact absurd rfl (noError _ (Node.mem_preorder_self _) c)
          | name h | block h => exact absurd h (silent _)
          | inverted loose =>
              -- Its first part would have a token where it has none.
              rcases form.exists_part loose with ⟨_, rfl⟩ | ⟨c, rfl⟩ | ⟨part, others, written⟩
              · exact details.elim
              · exact absurd rfl (noError _ (Node.mem_preorder_self _) c)
              · have isPart : part ∈ form.children := by
                  rw [← form.mem_written, written]
                  exact List.mem_cons_self ..
                rw [written] at parts
                cases parts with
                | cons first rest =>
                    obtain ⟨i', j', lower, upper, wide, _⟩ := ih part isPart first fun n inside =>
                      noError n (Node.mem_preorder_mk.mpr (.inr ⟨part, isPart, inside⟩))
                    have le := rest.le Placed.le
                    omega

end Placed

/-! ## §3. Programs. -/

/-- The parts of a node lie inside of it, and apart from one another. -/
structure Node.IsNested (n : Tree) : Prop where
  upright : n.info.start ≤ n.info.stop
  inside : ∀ part ∈ n.children, n.info.start ≤ part.info.start ∧ part.info.stop ≤ n.info.stop
  apart : n.children.Pairwise fun a b => a.info.stop ≤ b.info.start ∨ b.info.stop ≤ a.info.start

/-- Trees in a row, each of which has tokens: every one ends in front of the next one. -/
theorem InOrder.precede {L : Layout} {heard : Complaint → Prop} {lo hi : Nat} {trees : List Tree}
    (h : InOrder (Placed L heard) lo hi trees) (silent : ∀ c, ¬ heard c)
    (noError : ∀ tree ∈ trees, ∀ n ∈ tree.preorder, ∀ c, n.form ≠ .errorNode c) :
    trees.Pairwise fun a b => a.info.stop ≤ b.info.start := by
  refine h.pairwise Placed.le ?_
  intro a isIn b isIn' lo mid mid' hi first le second
  obtain ⟨_, j, _, upper, _, same, _⟩ := first.full silent (noError a isIn)
  obtain ⟨i, _, lower, _, _, same', _⟩ := second.full silent (noError b isIn')
  rw [same, same']
  exact Nat.le_trans (L.stopBefore_mono (Nat.le_trans upper (Nat.le_trans le lower)))
    (L.stopBefore_le_startAt i)

theorem InOrder.apart {L : Layout} {heard : Complaint → Prop} {lo hi : Nat} {trees : List Tree}
    (h : InOrder (Placed L heard) lo hi trees) (silent : ∀ c, ¬ heard c)
    (noError : ∀ tree ∈ trees, ∀ n ∈ tree.preorder, ∀ c, n.form ≠ .errorNode c) :
    trees.Pairwise fun a b => a.info.stop ≤ b.info.start ∨ b.info.stop ≤ a.info.start :=
  (h.precede silent noError).imp .inl

/-- **The parts of a tree are nested** where nothing is missing. -/
theorem Placed.isNested {L : Layout} {heard : Complaint → Prop} {lo hi : Nat} {tree : Tree}
    (h : Placed L heard lo hi tree) (silent : ∀ c, ¬ heard c)
    (noError : ∀ n ∈ tree.preorder, ∀ c, n.form ≠ .errorNode c) : tree.IsNested := by
  obtain ⟨i, j, _, _, wide, same, parts⟩ := h.full silent noError
  have below : ∀ part ∈ tree.form.written, ∀ n ∈ part.preorder, ∀ c, n.form ≠ .errorNode c :=
    fun part isPart n inside =>
      noError n (Node.mem_preorder_child ((tree.form.mem_written part).mp isPart) inside)
  refine ⟨?_, ?_, ?_⟩
  · rw [same]
    exact L.startAt_le_stopBefore wide
  · intro part isPart
    have isPart := (tree.form.mem_written part).mpr isPart
    obtain ⟨lo', hi', lower, upper, place⟩ := parts.of_mem_within Placed.le isPart
    obtain ⟨i', j', lower', upper', _, same', _⟩ := place.full silent (below part isPart)
    rw [same, same']
    exact ⟨L.startAt_mono (Nat.le_trans lower lower'),
      L.stopBefore_mono (Nat.le_trans upper' upper)⟩
  · have apart := parts.apart silent below
    exact (tree.form.written_perm.pairwise_iff fun h => h.symm).mp apart

/-- All complaints are about places in the text. -/
theorem parseTokens_complaints (L : Layout) :
    ∀ c ∈ (parseTokens L.text.length L.tokens L.final).complaints, c.1 ≤ L.text.length := by
  have goes := Layout.program_goes (Grammar.ofBudget_ends L parseBudget).statement
  unfold Parser.Goes at goes
  have places : ∀ {s : ParserState}, Complains L [] s.complaints →
      ∀ c ∈ s.complaints, c.1 ≤ L.text.length := by
    rintro s ⟨new, same, places⟩ c inside
    rw [same, List.append_nil] at inside
    obtain ⟨i, place⟩ := places c inside
    rw [place]
    exact L.startAt_le i
  unfold parseTokens parseTokensWithin
  simp only
  split
  · next run =>
      rw [run] at goes
      intro c inside
      exact places goes.1.complains c (List.mem_reverse.mp inside)
  · next s run =>
      rw [run] at goes
      intro c inside
      rcases List.mem_append.mp inside with inside | inside
      · exact places goes.2.complains c (List.mem_reverse.mp inside)
      · rw [List.mem_singleton.mp inside]
        show s.current.start ≤ _
        rw [goes.2.on.start_current]
        exact L.startAt_le _

/-- **All that is parsed lies in the text, and spans are nested.**

The tree spans the whole text.  Every node and every complaint lies in it, and no
child begins before its parent.  Where nothing was complained of and no node stands
for something missing, the children of every node lie inside of it and apart from one
another. -/
theorem parse_nested {text : Text} {program : Program} (h : parse text = .ok program) :
    (∃ statements, program.tree = .mk ⟨0, text.length⟩ (.program statements))
      ∧ (∀ c ∈ program.complaints, c.1 ≤ text.length)
      ∧ (∀ n ∈ program.tree.preorder, n.info.start ≤ text.length ∧ n.info.stop ≤ text.length
        ∧ ∀ part ∈ n.children, n.info.start ≤ part.info.start)
      ∧ (program.complaints = [] → (∀ n ∈ program.tree.preorder, ∀ c, n.form ≠ .errorNode c) →
        ∀ n ∈ program.tree.preorder, n.IsNested) := by
  obtain ⟨L, rfl, rfl⟩ := exists_layout_of_parse h
  obtain ⟨statements, isTree, places⟩ := parseTokens_placed L
  refine ⟨⟨statements, isTree⟩, parseTokens_complaints L, ?_, ?_⟩
  · intro n inside
    rcases parseTokens_preorder L n inside with rfl | ⟨_, _, place⟩
    · rw [isTree]
      exact ⟨Nat.zero_le _, Nat.le_refl _, fun _ _ => Nat.zero_le _⟩
    · exact ⟨place.start_le, place.stop_le, fun _ isPart => place.start_le_of_mem_children isPart⟩
  · intro noComplaint noError n inside
    have silent : ∀ c, ¬ Heard (parseTokens L.text.length L.tokens L.final).complaints c := by
      rintro c ⟨offset, heard⟩
      rw [noComplaint] at heard
      exact absurd heard List.not_mem_nil
    rcases parseTokens_preorder L n inside with rfl | ⟨_, _, place⟩
    · rw [isTree] at noError ⊢
      refine ⟨Nat.zero_le _, ?_, ?_⟩
      · intro statement isStatement
        obtain ⟨_, _, place⟩ := places.of_mem isStatement
        exact ⟨Nat.zero_le _, place.stop_le⟩
      · exact places.apart silent fun statement isStatement m below =>
          noError m (Node.mem_preorder_mk.mpr (.inr ⟨statement, isStatement, below⟩))
    · exact place.isNested silent fun m below => noError m (Node.mem_preorder_trans below inside)

/-- A call in which nothing is missing. -/
def plainCall : Text :=
  "f(a, b);"

/-- Its name and its arguments stand in it, one behind the other. -/
theorem parse_nested_plainCall :
    ∃ program, parse plainCall = .ok program ∧ program.tree.preorder.length = 6
      ∧ ∀ n ∈ program.tree.preorder, n.IsNested := by
  have evaluated : (parse plainCall).toOption.any (fun program =>
      program.complaints = [] && (program.tree.preorder.all (fun n => n.kind ≠ "ErrorNode")
        && program.tree.preorder.length = 6)) = true := by
    decide +kernel
  obtain ⟨program, parsed, found⟩ := exists_ok_of_any evaluated
  simp only [Bool.and_eq_true, List.all_eq_true, decide_eq_true_eq] at found
  obtain ⟨wellFormed, noErrors, size⟩ := found
  obtain ⟨_, _, _, nested⟩ := parse_nested parsed
  refine ⟨program, parsed, size, nested wellFormed ?_⟩
  intro n inside c isError
  exact noErrors n inside (Form.kind_eq_errorNode.mpr ⟨c, isError⟩)

end StackLint
