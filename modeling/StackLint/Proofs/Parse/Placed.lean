/-
  StackLint.Proofs.Parse.Placed
  ─────────────────────────────
  **TREES ON A LAYOUT.**

  Every node of a parsed tree has a range of tokens, from `i` up to `j`, and its
  children stand one behind the other inside of it.  A node without tokens is a
  placeholder, or its construct was given up before it began: the span of such a
  node may be the wrong way round, which only the loose forms allow.

  `heard` says of which complaints there were; names and blocks without tokens
  exist only when there was one.
-/
import StackLint.Parse.State
import StackLint.Proofs.Token.Seam
import StackLint.Proofs.Tree.Preorder

namespace StackLint

/-! ## §1. Forms. -/

namespace Form

/-- The constructs that can be closed where they begin, and the program, which
spans the whole text. -/
def isLoose : Form α → Bool
  | .program _ | .expressionStatement _ | .variableDeclarator _ _ | .parameter _ _ _ | .templateSpan _ _
  | .errorNode .expectedPropertyName => true
  | _ => false

/-- The constructs that can stand for something missing. -/
def isPlaceholder : Form α → Bool
  | .identifier [] | .block [] | .errorNode _ => true
  | _ => false

/-- All other constructs have a token. -/
def isSolid (form : Form α) : Bool :=
  !form.isLoose && !form.isPlaceholder

theorem isSolid_iff {form : Form α} :
    form.isSolid = true ↔ form.isLoose = false ∧ form.isPlaceholder = false := by
  unfold isSolid
  rw [Bool.and_eq_true, Bool.not_eq_true', Bool.not_eq_true']

/-- The parts in the order of the text. -/
def written : Form α → List α
  | .loopStatement .doWord head body => body :: head
  | form => form.children

theorem mem_written (form : Form α) (a : α) : a ∈ form.written ↔ a ∈ form.children := by
  unfold written
  split
  · next head body =>
      show a ∈ body :: head ↔ a ∈ head ++ [body]
      rw [List.mem_cons, List.mem_append, List.mem_singleton, or_comm]
  · exact Iff.rfl

theorem kind_eq_errorNode {form : Form α} : form.kind = "ErrorNode" ↔ ∃ c, form = .errorNode c := by
  constructor
  · intro isKind
    cases form with
    | errorNode c => exact ⟨c, rfl⟩
    | _ => simp only [kind, String.reduceEq] at isKind
  · rintro ⟨c, rfl⟩
    rfl

end Form

/-- The span ends no earlier than it begins. -/
def Span.IsUpright (span : Span) : Prop :=
  span.start ≤ span.stop

/-! ## §2. Ranges of tokens. -/

/-- The span that a node of the given form has, with the tokens from `i` up to
`j`. -/
inductive Span.Fits (L : Layout) (heard : Complaint → Prop) :
    Nat → Nat → Form Tree → Span → Prop where
  | full {i j : Nat} {form : Form Tree} (h : i < j) (inside : j ≤ L.size) :
      Fits L heard i j form ⟨L.startAt i, L.stopBefore j⟩
  | error {i : Nat} (c : Complaint) (inside : i ≤ L.size) :
      Fits L heard i i (.errorNode c) ⟨L.startAt i, L.startAt i⟩
  | name {i : Nat} {c : Complaint} (h : heard c) (inside : i ≤ L.size) :
      Fits L heard i i (.identifier []) ⟨L.startAt i, L.startAt i⟩
  | block {i : Nat} {c : Complaint} (h : heard c) (inside : i ≤ L.size) :
      Fits L heard i i (.block []) ⟨L.startAt i, L.startAt i⟩
  | inverted {i : Nat} {form : Form Tree} (h : form.isLoose = true) (inside : i ≤ L.size) :
      Fits L heard i i form ⟨L.startAt i, L.stopBefore i⟩

namespace Span

variable {L : Layout} {heard heard' : Complaint → Prop} {i j : Nat} {form : Form Tree} {span : Span}

theorem Fits.start_eq (h : span.Fits L heard i j form) : span.start = L.startAt i := by
  cases h <;> rfl

theorem Fits.le (h : span.Fits L heard i j form) : i ≤ j := by
  cases h with
  | full h _ => exact Nat.le_of_lt h
  | _ => exact Nat.le_refl _

theorem Fits.inside (h : span.Fits L heard i j form) : j ≤ L.size := by
  cases h with
  | full _ inside | error _ inside | name _ inside | block _ inside | inverted _ inside =>
      exact inside

/-- A span that has a width can be replaced. -/
theorem Fits.site (h : span.Fits L heard i j form) (wide : span.start < span.stop) :
    L.Site span.start span.stop := by
  cases h with
  | full h inside => exact .tokens h inside
  | error | name | block => exact absurd wide (Nat.lt_irrefl _)
  | inverted => exact absurd wide (Nat.not_lt.mpr (L.stopBefore_le_startAt i))

/-- A construct that has a token has a width. -/
theorem Fits.wide (h : span.Fits L heard i j form) (solid : form.isSolid = true) :
    span.start < span.stop := by
  obtain ⟨strict, noPlaceholder⟩ := Form.isSolid_iff.mp solid
  cases h with
  | full h inside => exact L.startAt_lt_stopBefore h inside
  | error | name | block => cases noPlaceholder
  | inverted loose =>
      rw [strict] at loose
      cases loose

/-- Where a node ends that is no placeholder. -/
theorem Fits.stop_eq (h : span.Fits L heard i j form) (strict : form.isPlaceholder = false) :
    span.stop = L.stopBefore j := by
  cases h with
  | full | inverted => rfl
  | error | name | block => cases strict

theorem Fits.stop_le (h : span.Fits L heard i j form) : span.stop ≤ L.text.length := by
  cases h with
  | full | inverted => exact L.stopBefore_le _
  | error | name | block => exact L.startAt_le _

theorem Fits.louder (h : span.Fits L heard i j form) (louder : ∀ c, heard c → heard' c) :
    span.Fits L heard' i j form := by
  cases h with
  | full h inside => exact .full h inside
  | error c inside => exact .error c inside
  | name h inside => exact .name (louder _ h) inside
  | block h inside => exact .block (louder _ h) inside
  | inverted h inside => exact .inverted h inside

end Span

/-! ## §3. Parts that rules look at. -/

/-- The span of the parameters of a function can be replaced, if there are any.
Without one there is a single parameter. -/
def ParametersFit (L : Layout) (params : List Tree) : Option Span → Prop
  | some span => params ≠ [] → L.Site span.start span.stop ∧ span.start < span.stop
  | none => ∃ param, params = [param] ∧ param.info.start < param.info.stop

/-- From the token `i` on there are words, and then an empty list of parameters at `k`. -/
structure Layout.EmptyList (L : Layout) (i k : Nat) : Prop where
  le : i ≤ k
  words : ∀ l, i ≤ l → l < k → (L.token l).isWord = true
  opens : (L.token k).is .openParen = true
  closes : (L.token (k + 1)).is .closeParen = true

/-- A function from the token `i` on can have these parameters: none, if its list is empty. -/
def Layout.Lists (L : Layout) (i : Nat) (params : List Tree) : Prop :=
  ∀ k, L.EmptyList i k → params = []

/-- The tree stands behind the token `i` and a mark, unless a decorator comes first. -/
def Layout.StandsBehind (L : Layout) (mark : Punct) (i : Nat) (tree : Tree) : Prop :=
  (L.token (i + 1)).is mark = true → (L.token (i + 2)).is .atSign = false →
    tree.info.start = L.startAt (i + 2)

/-- The token can stand in front of the key of a member. -/
def Token.isModifier (t : Token) : Bool :=
  t.isTheWord "get" || t.isTheWord "set" || t.isTheWord "async" || t.is .star

/-- In front of the token an operand can be missing without a complaint. -/
def Token.endsOperand (t : Token) : Bool :=
  t.isEnd || t.continuesTemplate || Parser.closerTexts.contains t.lexeme.value

/-- What else is known of a form with the tokens from `i` up to `j`. -/
def Form.Details (L : Layout) (heard : Complaint → Prop) (i j : Nat) : Form Tree → Prop
  -- A program is no part of anything.
  | .program _ => False
  -- An operand may be missing in silence, and nothing else.
  | .errorNode c => (c = .expectedExpression ∧ j = i ∧ (L.token i).endsOperand = true) ∨ heard c
  | .functionDeclaration _ params _ info => ParametersFit L params info.paramsSpan ∧ L.Lists i params
  | .functionExpression _ params _ info => ParametersFit L params info.paramsSpan ∧ L.Lists i params
  | .arrowFunction params _ info => ParametersFit L params info.paramsSpan ∧ L.Lists i params
  | .methodDeclaration _ params _ _ info =>
      ParametersFit L params info.paramsSpan ∧ L.Lists i params
  | .propertyAssignment key value =>
      value.info.IsUpright ∧ (key.info.start = L.startAt i ∨ (L.token i).isModifier = true)
        ∧ (key.keyName?.isSome = true → key.info.start = L.startAt i → L.StandsBehind .colon i value)
  | .variableDeclarator target init =>
      ∀ value, target.identifierName?.isSome = true → init = some value →
        L.StandsBehind .assign i value
  | .objectLiteral members =>
      -- Behind the last member there is at most a comma and the closing brace.  Without
      -- complaints the brace is there, and no stray character ends the member.
      ∀ last, members.getLast? = some last →
        ∃ k m, 0 < k ∧ last.info.stop = L.stopBefore k ∧ L.AtMost .comma k m
          ∧ L.AtMost .closeBrace m j
          ∧ ((∀ c, ¬ heard c) → m < j ∧ (L.token (k - 1)).isStray = false)
  | .call _ arguments _ =>
      -- Without arguments only a parenthesis can be the last token.
      arguments = [] → ∃ k, j = k + 1
        ∧ ((L.token k).is .openParen = true ∨ (L.token k).is .closeParen = true)
  -- Literals and names say what their token says.
  | .identifier name => name = [] ∨ name = "new" ∨ (L.token i).lexeme = .word name
  | .numericLiteral raw => (L.token i).lexeme = .number raw
  | .stringLiteral value quote => (L.token i).lexeme = .string quote value
  | .templateLiteral _ _ => (L.token i).opensTemplate = true
  -- Others begin where their first part does, or with a bracket.
  | .arrayLiteral _ => (L.token i).is .openBracket = true
  | .parenthesized _ => (L.token i).is .openParen = true
  | .typeAssertion inner _ => (L.token i).is .lt = true ∨ inner.info.start = L.startAt i
  | .propertyAccess object _ _ => object.info.start = L.startAt i
  | .taggedTemplate tag _ => tag.info.start = L.startAt i
  | _ => True

theorem Form.Details.louder {L : Layout} {heard heard' : Complaint → Prop} {i j : Nat}
    {form : Form Tree} (details : form.Details L heard i j) (louder : ∀ c, heard c → heard' c) :
    form.Details L heard' i j := by
  cases form with
  | errorNode c => exact Or.imp_right (louder c) details
  | objectLiteral members =>
      intro last isLast
      obtain ⟨k, m, behind, stop, comma, brace, silent⟩ := details last isLast
      refine ⟨k, m, behind, stop, comma, brace, fun none => silent fun c h => none c (louder c h)⟩
  | _ => exact details

/-! ## §4. Trees. -/

/-- Between the tokens `lo` and `hi` the trees stand one behind the other. -/
inductive InOrder (P : Nat → Nat → Tree → Prop) : Nat → Nat → List Tree → Prop where
  | nil {lo hi : Nat} (h : lo ≤ hi) : InOrder P lo hi []
  | cons {lo mid hi : Nat} {tree : Tree} {trees : List Tree} (first : P lo mid tree)
      (others : InOrder P mid hi trees) : InOrder P lo hi (tree :: trees)

/-- **A tree between the tokens `lo` and `hi`.** -/
inductive Placed (L : Layout) (heard : Complaint → Prop) : Nat → Nat → Tree → Prop where
  | mk {lo i j hi : Nat} {span : Span} {form : Form Tree} (behind : lo ≤ i) (before : j ≤ hi)
      (fits : span.Fits L heard i j form) (parts : InOrder (Placed L heard) i j form.written)
      (details : form.Details L heard i j) : Placed L heard lo hi (.mk span form)

namespace InOrder

variable {P Q : Nat → Nat → Tree → Prop} {lo lo' mid hi hi' : Nat} {trees others : List Tree}

theorem imp (h : InOrder P lo hi trees)
    (imp : ∀ tree ∈ trees, ∀ lo hi, P lo hi tree → Q lo hi tree) : InOrder Q lo hi trees := by
  induction h with
  | nil h => exact .nil h
  | cons first _ ih =>
      refine .cons (imp _ (List.mem_cons_self ..) _ _ first) ?_
      exact ih fun tree inside => imp tree (List.mem_cons_of_mem _ inside)

theorem widen (h : InOrder P lo hi trees)
    (widen : ∀ {lo lo' hi hi' tree}, P lo hi tree → lo' ≤ lo → hi ≤ hi' → P lo' hi' tree)
    (lower : lo' ≤ lo) (upper : hi ≤ hi') : InOrder P lo' hi' trees := by
  induction h generalizing lo' with
  | nil h => exact .nil (Nat.le_trans lower (Nat.le_trans h upper))
  | cons first _ ih => exact .cons (widen first lower (Nat.le_refl _)) (ih (Nat.le_refl _) upper)

theorem append (h : InOrder P lo mid trees) (h' : InOrder P mid hi others)
    (widen : ∀ {lo lo' hi hi' tree}, P lo hi tree → lo' ≤ lo → hi ≤ hi' → P lo' hi' tree) :
    InOrder P lo hi (trees ++ others) := by
  induction h with
  | nil h => exact h'.widen widen h (Nat.le_refl _)
  | cons first _ ih => exact .cons first (ih h')

/-- Every one of the trees has a place. -/
theorem of_mem (h : InOrder P lo hi trees) {tree : Tree} (inside : tree ∈ trees) :
    ∃ lo hi, P lo hi tree := by
  induction h with
  | nil => exact absurd inside List.not_mem_nil
  | cons first _ ih =>
      rcases List.mem_cons.mp inside with rfl | inside
      · exact ⟨_, _, first⟩
      · exact ih inside

end InOrder

namespace Placed

variable {L : Layout} {heard heard' : Complaint → Prop} {lo lo' hi hi' : Nat} {tree : Tree}

theorem widen (h : Placed L heard lo hi tree) (lower : lo' ≤ lo) (upper : hi ≤ hi') :
    Placed L heard lo' hi' tree := by
  cases h with
  | mk behind before fits parts details =>
      exact .mk (Nat.le_trans lower behind) (Nat.le_trans before upper) fits parts details

/-- Further complaints change nothing. -/
theorem louder (h : Placed L heard lo hi tree) (louder : ∀ c, heard c → heard' c) :
    Placed L heard' lo hi tree := by
  induction tree using Node.induct generalizing lo hi with
  | h span form ih =>
      cases h with
      | mk behind before fits parts details =>
          refine .mk behind before (fits.louder louder) (parts.imp ?_) (details.louder louder)
          intro part inside lo hi placed
          exact ih part ((form.mem_written part).mp inside) placed

/-- Where a placed tree begins. -/
theorem begins (h : Placed L heard lo hi tree) :
    ∃ i, lo ≤ i ∧ i ≤ hi ∧ tree.info.start = L.startAt i ∧ Placed L heard i hi tree := by
  cases h with
  | @mk _ i _ _ _ _ behind before fits parts details =>
      refine ⟨i, behind, Nat.le_trans fits.le before, fits.start_eq, ?_⟩
      exact .mk (Nat.le_refl i) before fits parts details

theorem site (h : Placed L heard lo hi tree) (wide : tree.info.start < tree.info.stop) :
    L.Site tree.info.start tree.info.stop := by
  cases h with
  | mk _ _ fits _ _ => exact fits.site wide

theorem wide (h : Placed L heard lo hi tree) (solid : tree.form.isSolid = true) :
    tree.info.start < tree.info.stop := by
  cases h with
  | mk _ _ fits _ _ => exact fits.wide solid

/-- A placed tree lies in the text. -/
theorem start_le (h : Placed L heard lo hi tree) : tree.info.start ≤ L.text.length := by
  cases h with
  | @mk _ i _ _ _ _ _ _ fits _ _ =>
      rw [Node.info, fits.start_eq]
      exact L.startAt_le i

theorem stop_le (h : Placed L heard lo hi tree) : tree.info.stop ≤ L.text.length := by
  cases h with
  | mk _ _ fits _ _ => exact fits.stop_le

/-- What is known of the form of a node that is no placeholder. -/
theorem details (h : Placed L heard lo hi tree) (strict : tree.form.isPlaceholder = false) :
    ∃ i j, tree.info.start = L.startAt i ∧ tree.info.stop = L.stopBefore j ∧ j ≤ L.size
      ∧ tree.form.Details L heard i j := by
  cases h with
  | @mk _ i j _ _ _ _ _ fits _ details =>
      exact ⟨i, j, fits.start_eq, fits.stop_eq strict, fits.inside, details⟩

/-- The children of a placed node have a place. -/
theorem of_mem_children (h : Placed L heard lo hi tree) {part : Tree}
    (isPart : part ∈ tree.children) : ∃ lo hi, Placed L heard lo hi part := by
  cases h with
  | @mk _ _ _ _ _ form _ _ _ parts _ => exact parts.of_mem ((form.mem_written part).mpr isPart)

/-- **All nodes of a placed tree have a place.** -/
theorem of_mem_preorder (h : Placed L heard lo hi tree) {node : Tree}
    (inside : node ∈ tree.preorder) : ∃ lo hi, Placed L heard lo hi node := by
  induction tree using Node.induct generalizing lo hi with
  | h span form ih =>
      rcases Node.mem_preorder_mk.mp inside with rfl | ⟨part, isPart, inside⟩
      · exact ⟨lo, hi, h⟩
      · obtain ⟨_, _, placed⟩ := h.of_mem_children isPart
        exact ih part isPart placed inside

end Placed

/-- Further complaints change nothing in a row of trees. -/
theorem InOrder.louder {L : Layout} {heard heard' : Complaint → Prop} {lo hi : Nat}
    {trees : List Tree} (h : InOrder (Placed L heard) lo hi trees)
    (louder : ∀ c, heard c → heard' c) : InOrder (Placed L heard') lo hi trees :=
  h.imp fun _ _ _ _ placed => placed.louder louder

end StackLint
