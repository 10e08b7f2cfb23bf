/-
  StackLint.Proofs.Parse.Laid
  ───────────────────────────
  **LAYING TREES.**

  Between two of its states a parser lays trees, one behind the other.  A node
  is laid when its parts are; it must have a token of its own or of its parts,
  unless its form is loose.
-/
import StackLint.Proofs.Parse.Placed
import StackLint.Proofs.Parse.Reads

namespace StackLint

/-- **Between the states `s` and `s'` the trees were laid.** -/
structure Laid (L : Layout) (s s' : ParserState) (trees : List Tree) : Prop where
  reads : Reads L s s'
  places : InOrder (Placed L (Heard s'.complaints)) s.position s'.position trees

/-- A node that begins at the state `s` has these parts so far, and at least one
token. -/
structure Begun (L : Layout) (s s' : ParserState) (parts : List Tree) : Prop
    extends Laid L s s' parts where
  moved : s.position < s'.position

/-- Between the states `s` and `s'` a tree was laid whose span is not the wrong
way round. -/
structure Built (L : Layout) (s s' : ParserState) (tree : Tree) : Prop where
  laid : Laid L s s' [tree]
  isUpright : tree.info.IsUpright

/-- Such a tree was laid from at least one token. -/
structure Taken (L : Layout) (s s' : ParserState) (tree : Tree) : Prop extends Built L s s' tree where
  moved : s.position < s'.position

/-! ## §1. Rows of trees. -/

variable {L : Layout} {s s₀ s₁ s₂ s' s'' : ParserState} {tree : Tree} {trees others : List Tree}

namespace Laid

theorem nothing (reads : Reads L s s') : Laid L s s' [] :=
  ⟨reads, .nil reads.le⟩

/-- What has been laid stays there. -/
theorem pass (laid : Laid L s s' trees) (reads : Reads L s' s'') : Laid L s s'' trees := by
  refine ⟨laid.reads.trans reads, ?_⟩
  have louder := laid.places.louder reads.complains.louder
  exact louder.widen Placed.widen (Nat.le_refl _) reads.le

theorem append (laid : Laid L s s' trees) (later : Laid L s' s'' others) :
    Laid L s s'' (trees ++ others) := by
  refine ⟨laid.reads.trans later.reads, ?_⟩
  have louder := laid.places.louder later.reads.complains.louder
  exact louder.append later.places Placed.widen

theorem behind (laid : Laid L s' s'' trees) (reads : Reads L s s') : Laid L s s'' trees :=
  (nothing reads).append laid

/-- One more tree in front of those that are listed last one first. -/
theorem snoc (laid : Laid L s s' trees.reverse) (later : Laid L s' s'' [tree]) :
    Laid L s s'' (tree :: trees).reverse := by
  rw [List.reverse_cons]
  exact laid.append later

/-- The same for a list with holes. -/
theorem snoc_optional {element : Option Tree} {elements : List (Option Tree)}
    (laid : Laid L s s' (elements.reverse.filterMap id)) (later : Laid L s' s'' element.toList) :
    Laid L s s'' ((element :: elements).reverse.filterMap id) := by
  rw [List.reverse_cons, List.filterMap_append]
  cases element with
  | none => exact laid.append later
  | some tree => exact laid.append later

/-- A row of trees begins where its first tree does: at a token `i`, at or behind the
place where reading began. -/
theorem begins (first : Laid L s₀ s [tree]) (laid : Laid L s s' others) :
    ∃ i, s₀.position ≤ i ∧ i ≤ s.position ∧ tree.info.start = L.startAt i
      ∧ InOrder (Placed L (Heard s'.complaints)) i s'.position (tree :: others) := by
  cases first.places with
  | cons place nothing =>
      cases nothing with
      | nil le =>
          obtain ⟨i, lower, upper, start, place⟩ := place.begins
          refine ⟨i, lower, Nat.le_trans upper le, start, ?_⟩
          refine .cons (place.louder laid.reads.complains.louder) ?_
          exact laid.places.widen Placed.widen le (Nat.le_refl _)

end Laid

/-! ## §2. Nodes. -/

namespace Taken

variable {form : Form Tree}

/-- **A node around its parts**, from the token `i` on. -/
theorem node {i : Nat} (reads : Reads L s s') (behind : s.position ≤ i) (moved : i < s'.position)
    (parts : InOrder (Placed L (Heard s'.complaints)) i s'.position form.written)
    (details : form.Details L (Heard s'.complaints) i s'.position) :
    Taken L s s' (.mk ⟨L.startAt i, s'.lastStop⟩ form) := by
  rw [reads.on.lastStop]
  have fits : (⟨L.startAt i, L.stopBefore s'.position⟩ : Span).Fits L (Heard s'.complaints) i
      s'.position form := .full moved reads.on.inside
  have place := Placed.mk behind (Nat.le_refl _) fits parts details
  refine ⟨⟨⟨reads, .cons place (.nil (Nat.le_refl _))⟩, ?_⟩, Nat.lt_of_le_of_lt behind moved⟩
  exact L.startAt_le_stopBefore moved

/-- A node that begins where reading began. -/
theorem opened (laid : Laid L s s' form.written) (moved : s.position < s'.position)
    (details : form.Details L (Heard s'.complaints) s.position s'.position) :
    Taken L s s' (.mk ⟨L.startAt s.position, s'.lastStop⟩ form) :=
  .node laid.reads (Nat.le_refl _) moved laid.places details

/-- A node that begins where its first part does. -/
theorem extended (first : Laid L s₀ s [tree]) (laid : Laid L s s' others)
    (moved : s.position < s'.position) (parts : form.written = tree :: others)
    (details : ∀ i, tree.info.start = L.startAt i → form.Details L (Heard s'.complaints) i s'.position) :
    Taken L s₀ s' (.mk ⟨tree.info.start, s'.lastStop⟩ form) := by
  obtain ⟨i, lower, upper, start, places⟩ := first.begins laid
  have details := details i start
  rw [start]
  refine .node (first.reads.trans laid.reads) lower (Nat.lt_of_le_of_lt upper moved) ?_ details
  rw [parts]
  exact places

/-- A node of one token. -/
theorem leaf (on : s.On L) (more : s.position < L.size) (parts : form.written = [])
    (details : form.Details L (Heard (s.skip 1).complaints) s.position (s.skip 1).position) :
    Taken L s (s.skip 1) (Parser.leaf s.current form) := by
  have reads := Reads.skip on 1
  have moved := Parser.position_skip_one on more
  unfold Parser.leaf
  rw [Parser.stop_current on more, on.start_current]
  refine .node reads (Nat.le_refl _) (by omega) ?_ details
  rw [parts]
  exact .nil reads.le

/-- A token that is read, and then complained of. -/
theorem stray {c : Complaint} (on : s.On L) (more : s.position < L.size)
    (complained : Parser.Complained L c (s.skip 1) s') :
    Taken L s s' (Parser.leaf s.current (.errorNode c)) := by
  have reads := (Reads.skip on 1).trans complained.reads
  have stays := complained.stays
  have moved := Parser.position_skip_one on more
  have stop : (s.skip 1).lastStop = s'.lastStop := by
    rw [(on.skip 1).lastStop, reads.on.lastStop, stays]
  unfold Parser.leaf
  rw [Parser.stop_current on more, on.start_current, stop]
  exact .node reads (Nat.le_refl _) (by omega) (.nil reads.le) (.inr complained.heard)

theorem behind (taken : Taken L s' s'' tree) (reads : Reads L s s') : Taken L s s'' tree :=
  ⟨⟨taken.laid.behind reads, taken.isUpright⟩, Nat.lt_of_le_of_lt reads.le taken.moved⟩

end Taken

namespace Built

variable {form : Form Tree}

/-- What stands for something that is missing. -/
theorem placeholder (on : s.On L)
    (fits : (⟨L.startAt s.position, L.startAt s.position⟩ : Span).Fits L (Heard s.complaints)
      s.position s.position form)
    (parts : form.written = []) (details : form.Details L (Heard s.complaints) s.position s.position) :
    Built L s s (.mk ⟨L.startAt s.position, L.startAt s.position⟩ form) := by
  have row : InOrder (Placed L (Heard s.complaints)) s.position s.position form.written := by
    rw [parts]
    exact .nil (Nat.le_refl _)
  refine ⟨⟨.refl on, ?_⟩, Nat.le_refl _⟩
  exact .cons (.mk (Nat.le_refl _) (Nat.le_refl _) fits row details) (.nil (Nat.le_refl _))

theorem missing {c : Complaint} (on : s.On L) (heard : Heard s.complaints c) :
    Built L s s (Parser.missing (L.token s.position) c) :=
  .placeholder on (.error c on.inside) rfl (.inr heard)

theorem pass (built : Built L s s' tree) (reads : Reads L s' s'') : Built L s s'' tree :=
  ⟨built.laid.pass reads, built.isUpright⟩

theorem behind (built : Built L s' s'' tree) (reads : Reads L s s') : Built L s s'' tree :=
  ⟨built.laid.behind reads, built.isUpright⟩

end Built

/-- A loose node, with or without a token. -/
theorem Laid.loose {i : Nat} {form : Form Tree} (loose : form.isLoose = true)
    (reads : Reads L s s') (behind : s.position ≤ i) (before : i ≤ s'.position)
    (parts : InOrder (Placed L (Heard s'.complaints)) i s'.position form.written)
    (details : form.Details L (Heard s'.complaints) i s'.position) :
    Laid L s s' [.mk ⟨L.startAt i, s'.lastStop⟩ form] := by
  by_cases moved : i < s'.position
  · exact (Taken.node reads behind moved parts details).laid
  · -- No token was read: the span ends with the token in front of it.
    have same : i = s'.position := by omega
    subst same
    rw [reads.on.lastStop]
    have fits : (⟨L.startAt s'.position, L.stopBefore s'.position⟩ : Span).Fits L
        (Heard s'.complaints) s'.position s'.position form := .inverted loose reads.on.inside
    exact ⟨reads, .cons (.mk behind (Nat.le_refl _) fits parts details) (.nil (Nat.le_refl _))⟩

/-- A loose node that begins where reading began. -/
theorem Laid.loose_opened {form : Form Tree} (laid : Laid L s s' form.written)
    (loose : form.isLoose = true) (details : form.Details L (Heard s'.complaints) s.position s'.position) :
    Laid L s s' [.mk ⟨L.startAt s.position, s'.lastStop⟩ form] :=
  .loose loose laid.reads (Nat.le_refl _) laid.reads.le laid.places details

/-- A loose node that begins where its first part does. -/
theorem Laid.loose_extended {form : Form Tree} (first : Laid L s₀ s [tree])
    (laid : Laid L s s' others) (loose : form.isLoose = true)
    (parts : form.written = tree :: others)
    (details : ∀ i, tree.info.start = L.startAt i → form.Details L (Heard s'.complaints) i s'.position) :
    Laid L s₀ s' [.mk ⟨tree.info.start, s'.lastStop⟩ form] := by
  obtain ⟨i, lower, upper, start, places⟩ := first.begins laid
  have details := details i start
  rw [start]
  refine .loose loose (first.reads.trans laid.reads) lower (Nat.le_trans upper laid.reads.le) ?_
    details
  rw [parts]
  exact places

/-! ## §3. Parsers. -/

namespace Parser

/-- The parser lays the trees that are parts of its value. -/
def Lays {α : Type} (L : Layout) (p : Parser α) (parts : α → List Tree) : Prop :=
  ∀ s, s.On L → Ensures p s fun a s' => Laid L s s' (parts a)

/-- The parser lays a tree whose span is not the wrong way round. -/
def Builds (L : Layout) (p : Parser Tree) : Prop :=
  ∀ s, s.On L → Ensures p s fun tree s' => Built L s s' tree

theorem Builds.lays {p : Parser Tree} (builds : Builds L p) : Lays L p ([·]) :=
  fun s on => (builds s on).mono fun _ _ built => built.laid

/-- At a token the parser takes a tree. -/
def Takes (L : Layout) (p : Parser Tree) : Prop :=
  ∀ s, s.On L → s.position < L.size → Ensures p s fun tree s' => Taken L s s' tree

/-- Where a punctuator was expected there is at most that one. -/
theorem Expects.atMost {p : Punct} {found : Bool} (h : Expects L s p found s') :
    L.AtMost p s.position s'.position := by
  cases found with
  | true =>
      obtain ⟨one, _, isPunct⟩ := h.yes rfl
      exact .inr ⟨one, isPunct⟩
  | false => exact .inl (h.no rfl).1

theorem Lays.passes {α : Type} {p : Parser α} {parts : α → List Tree} (lays : Lays L p parts) :
    Passes L p :=
  fun s on => (lays s on).mono fun _ _ laid => laid.reads

end Parser

section Sequences

open StackLint.Parser

variable {α β : Type} {p : Parser α} {f : α → Parser β} {Q : β → ParserState → Prop}
  {form : Form Tree}

/-- After what has been laid, tokens are passed over. -/
theorem Laid.bind_pass (laid : Laid L s₀ s trees) (passes : Passes L p)
    (next : ∀ a s', Laid L s₀ s' trees → Ensures (f a) s' Q) : Ensures (p >>= f) s Q :=
  (passes s laid.reads.on).bind fun a s' reads => next a s' (laid.pass reads)

/-- After what has been laid, more is laid. -/
theorem Laid.bind_lay {parts : α → List Tree} (laid : Laid L s₀ s trees) (lays : Lays L p parts)
    (next : ∀ a s', Laid L s₀ s' (trees ++ parts a) → Ensures (f a) s' Q) :
    Ensures (p >>= f) s Q :=
  (lays s laid.reads.on).bind fun a s' later => next a s' (laid.append later)

namespace Begun

/-- A node begins with the token that is read. -/
theorem start (on : s.On L) (more : s.position < L.size) : Begun L s (s.skip 1) [] := by
  have moved := position_skip_one on more
  exact ⟨.nothing (.skip on 1), by omega⟩

theorem of_reads (reads : Reads L s s') (moved : s.position < s'.position) : Begun L s s' [] :=
  ⟨.nothing reads, moved⟩

theorem pass (begun : Begun L s s' trees) (reads : Reads L s' s'') : Begun L s s'' trees :=
  ⟨begun.toLaid.pass reads, Nat.lt_of_lt_of_le begun.moved reads.le⟩

theorem append (begun : Begun L s s' trees) (later : Laid L s' s'' others) :
    Begun L s s'' (trees ++ others) :=
  ⟨begun.toLaid.append later, Nat.lt_of_lt_of_le begun.moved later.reads.le⟩

theorem bind_pass (begun : Begun L s₀ s trees) (passes : Passes L p)
    (next : ∀ a s', Begun L s₀ s' trees → Ensures (f a) s' Q) : Ensures (p >>= f) s Q :=
  (passes s begun.reads.on).bind fun a s' reads => next a s' (begun.pass reads)

theorem bind_lay {parts : α → List Tree} (begun : Begun L s₀ s trees) (lays : Lays L p parts)
    (next : ∀ a s', Begun L s₀ s' (trees ++ parts a) → Ensures (f a) s' Q) :
    Ensures (p >>= f) s Q :=
  (lays s begun.reads.on).bind fun a s' later => next a s' (begun.append later)

/-- **A node is closed** that began with a token of its own. -/
theorem close (begun : Begun L s₀ s form.written)
    (details : form.Details L (Heard s.complaints) s₀.position s.position) :
    Ensures (close (L.startAt s₀.position) form) s fun node s' => Taken L s₀ s' node :=
  .close (.opened begun.toLaid begun.moved details)

/-- A node is closed that begins where its first part does.  The token of its
own stands behind that part. -/
theorem close_extended (begun : Begun L s₁ s others) (first : Laid L s₀ s₁ [tree])
    (parts : form.written = tree :: others)
    (details : ∀ i, tree.info.start = L.startAt i → form.Details L (Heard s.complaints) i s.position) :
    Ensures (Parser.close tree.info.start form) s fun node s' => Taken L s₀ s' node :=
  .close (.extended first begun.toLaid begun.moved parts details)

end Begun

end Sequences

end StackLint
