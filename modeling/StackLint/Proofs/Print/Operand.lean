/-
  StackLint.Proofs.Print.Operand
  ──────────────────────────────
  **READING LISTS AND CHAINS BACK.**

  The parts of an operand are read back one after another: the items of a list in
  their brackets, the links of a chain behind its head.  What stands behind a chain
  is left to the reader of the chain, so a link never needs to know whether it is
  the last one.
-/
import StackLint.Proofs.Print.Behind

namespace StackLint

namespace Parser

variable {total depth : Nat} {g : Grammar} {rest after : List Lexeme}

/-! ## §1. Expressions. -/

/-- The parser reads the expression where something that ends it stands behind it, and makes
no parameters of it. -/
def ReadsBack (total depth : Nat) (p : Parser Tree) (e : Shape) : Prop :=
  ∀ rest, (firstOf rest).endsExpression = true → (e.endsInParens = true → Frees rest) →
    Consumes total depth (e.lexemes ++ rest) p rest (·.shape = e)

/-- An expression that no comma stands behind. -/
theorem Consumes.expression {before : List Lexeme} {P : Tree → Prop}
    (reads : Consumes total depth before g.assignment rest P)
    (noComma : firstOf rest ≠ .punct .comma) :
    Consumes total depth before (expression g) rest P := by
  refine reads.bind fun tree holds => .finish ?_
  refine .bind_accept_other noComma (.pure ?_)
  exact ⟨tree, rfl, holds⟩

/-- An expression that neither a comma nor a colon stands behind. -/
theorem ReadsBack.expression {e : Shape} (reads : ReadsBack total depth g.assignment e)
    (ends : (firstOf rest).endsExpression = true) (noComma : firstOf rest ≠ .punct .comma)
    (noColon : firstOf rest ≠ .punct .colon) :
    Consumes total depth (e.lexemes ++ rest) (expression g) rest (·.shape = e) :=
  .expression (reads rest ends fun _ => .of_ends ends noColon) noComma

/-- An expression at the end of a group. -/
theorem ReadsBack.enclosed {e : Shape} {closer : Punct}
    (reads : ReadsBack total depth g.assignment e) (closes : closer.closesGroup = true) :
    Consumes total depth (e.lexemes ++ .punct closer :: rest) (Parser.expression g)
      (.punct closer :: rest) (·.shape = e) :=
  reads.expression (Lexeme.endsExpression_of_closesGroup closes)
    (Lexeme.ne_of_closesGroup closes rfl) (Lexeme.ne_of_closesGroup closes rfl)

/-! ## §2. Lists. -/

/-- What stands behind an item of a list, if `next` stands in front of the next item or
at the end of the list. -/
structure Behind (closer : Punct) (next behind : List Lexeme) : Prop where
  isSeparated : behind = .punct .comma :: next
    ∨ behind = next ∧ ∃ rest, next = .punct closer :: rest
  closes : closer.closesGroup = true

namespace Behind

variable {closer : Punct} {next behind : List Lexeme}

theorem ends (isBehind : Behind closer next behind) :
    (firstOf behind).endsExpression = true := by
  rcases isBehind.isSeparated with rfl | ⟨rfl, rest, rfl⟩
  · rfl
  · exact Lexeme.endsExpression_of_closesGroup isBehind.closes

theorem frees (isBehind : Behind closer next behind) : Frees behind := by
  refine .of_ends isBehind.ends ?_
  rcases isBehind.isSeparated with rfl | ⟨rfl, rest, rfl⟩
  · nofun
  · exact Lexeme.ne_of_closesGroup isBehind.closes rfl

theorem length_le (isBehind : Behind closer next behind) : next.length ≤ behind.length := by
  rcases isBehind.isSeparated with rfl | ⟨rfl, _⟩
  · exact Nat.le_succ _
  · exact Nat.le_refl _

/-- **One item** in a loop over a list: it takes lexemes, and behind it the loop goes on
in the same way, whether a comma comes next or the end of the list. -/
theorem item {α : Type} {P : α → Prop} {item : Parser Tree} {e : Shape}
    {early proceed : Tree → Parser α} {other : Tree → Token → Parser α}
    (isBehind : Behind closer next behind) (reads : ReadsBack total depth item e)
    (phrase : Phrase e.lexemes)
    (goesOn : ∀ tree, tree.shape = e → Consumes total depth next (proceed tree) after P) :
    Consumes total depth (e.lexemes ++ behind)
      (position >>= fun before => item >>= fun tree => position >>= fun now =>
        if now = before then early tree
        else accept .comma >>= fun found =>
          if found = true then proceed tree
          else current >>= fun t => if t.is closer = true then proceed tree else other tree t)
      after P := by
  refine .bind_position fun n atItem => ?_
  refine (reads behind isBehind.ends fun _ => isBehind.frees).bind fun tree same => ?_
  refine .bind_position fun n' atBehind => ?_
  have nonempty : 0 < e.lexemes.length := List.length_pos_of_ne_nil phrase.ne_nil
  rw [List.length_append] at atItem
  rw [if_neg (by omega)]
  rcases isBehind.isSeparated with rfl | ⟨rfl, rest, rfl⟩
  · exact .bind_accept (goesOn tree same)
  · refine .bind_accept_other (Lexeme.ne_of_closesGroup isBehind.closes rfl) ?_
    refine .bind_current fun start stop newline => ?_
    rw [firstOf_cons, if_pos Token.is_self]
    exact goesOn tree same

end Behind

/-- The items that are left of a list, and what stands behind the list. -/
def listAhead (closer : Punct) (rest : List Lexeme) (left : List Shape) : List Lexeme :=
  commas (left.map Node.lexemes) ++ .punct closer :: rest

/-- The first item of a list and what stands behind it. -/
theorem listAhead_cons {closer : Punct} (closes : closer.closesGroup = true)
    (rest : List Lexeme) (e : Shape) (left : List Shape) :
    ∃ behind, listAhead closer rest (e :: left) = e.lexemes ++ behind
      ∧ Behind closer (listAhead closer rest left) behind := by
  cases left with
  | nil =>
      refine ⟨.punct closer :: rest, ?_, .inr ⟨rfl, rest, rfl⟩, closes⟩
      show List.intercalate _ [e.lexemes] ++ _ = _
      rw [List.intercalate_singleton]
  | cons e' left =>
      refine ⟨_, ?_, .inl rfl, closes⟩
      show List.intercalate _ (e.lexemes :: e'.lexemes :: left.map Node.lexemes) ++ _ = _
      rw [List.intercalate_cons_cons, List.append_assoc, List.append_assoc]
      rfl

/-- **A loop over the items of a list,** with one round for every item. -/
theorem Consumes.items {α β : Type} {body : α → Parser (Round α β)} {closer : Punct}
    {es : List Shape} {a : α} {I : List Shape → α → Prop} {Q : β → Prop}
    (closes : closer.closesGroup = true) (phrases : ∀ e ∈ es, Phrase e.lexemes)
    (round : ∀ e left a behind, e ∈ es → I (e :: left) a →
      Behind closer (listAhead closer rest left) behind →
      Consumes total depth (e.lexemes ++ behind) (body a) (listAhead closer rest left) fun r =>
        ∃ a', r = .again a' ∧ I left a')
    (last : ∀ a, I [] a → Consumes total depth (.punct closer :: rest) (body a)
      (.punct closer :: rest) fun r => ∃ b, r = .finish b ∧ Q b)
    (start : I es a) :
    Consumes total depth (listAhead closer rest es) (iterate body a) (.punct closer :: rest) Q := by
  refine .forEach (listAhead closer rest) (I := fun left a => left ⊆ es ∧ I left a) ?_
    (fun a holds => last a holds.2) ⟨List.Subset.refl _, start⟩
  rintro e left a ⟨inside, holds⟩
  have isItem := inside (List.mem_cons_self ..)
  have nonempty := List.length_pos_of_ne_nil (phrases e isItem).ne_nil
  obtain ⟨behind, isAhead, isBehind⟩ := listAhead_cons closes rest e left
  have shorter := isBehind.length_le
  rw [isAhead]
  refine ⟨by rw [List.length_append]; omega, (round e left a behind isItem holds isBehind).mono ?_⟩
  rintro _ ⟨a', rfl, holds'⟩
  exact ⟨a', rfl, List.Subset.trans (List.subset_cons_self _ _) inside, holds'⟩

/-- **The items of a list,** with commas between them. -/
theorem Consumes.listOf {closer : Punct} {item : Parser Tree} {es : List Shape}
    (closes : closer.closesGroup = true) (phrases : ∀ e ∈ es, Phrase e.lexemes)
    (each : ∀ e ∈ es, ReadsBack total depth item e) :
    Consumes total depth (listAhead closer rest es) (listOf closer item) (.punct closer :: rest)
      fun trees => trees.map Node.shape = es := by
  refine .items closes phrases (I := fun left trees => trees.reverse.map Node.shape ++ left = es)
    ?_ ?_ rfl
  · intro e left trees behind isItem invariant isBehind
    have begins := (phrases e isItem).firstOf_begins behind
    refine .bind_current fun start stop newline => ?_
    rw [Token.isEnd_eq_false begins, Token.is_eq_false (Lexeme.ne_of_begins begins closes)]
    refine isBehind.item (each e isItem) (phrases e isItem) fun tree same => .pure ⟨_, rfl, ?_⟩
    rw [List.reverse_cons, List.map_append, List.append_assoc, List.map_singleton, same]
    exact invariant
  · intro trees invariant
    refine .bind_current fun start stop newline => ?_
    rw [firstOf_cons, Token.is_self, Bool.or_true, if_pos rfl]
    refine .pure ⟨_, rfl, ?_⟩
    rw [← invariant, List.append_nil]

/-- An element or an argument without dots in front of it. -/
theorem ReadsBack.element {e : Shape} (reads : ReadsBack total depth g.assignment e)
    (phrase : Phrase e.lexemes) : ReadsBack total depth (element g) e := by
  intro rest ends frees
  have begins := phrase.firstOf_begins rest
  refine .bind_current fun start stop newline => .bind_accept_other ?_ (reads rest ends frees)
  intro same
  rw [same] at begins
  cases begins

/-- The expressions that can be the items of a list. -/
structure Items (total depth : Nat) (g : Grammar) (es : List Shape) : Prop where
  phrases : ∀ e ∈ es, Phrase e.lexemes
  reads : ∀ e ∈ es, ReadsBack total depth g.assignment e

/-- **The arguments of a call** in their parentheses. -/
theorem Items.arguments {es : List Shape} (items : Items total depth g es) :
    Consumes total depth (bracketed .openParen .closeParen (es.map Node.lexemes) ++ rest)
      (arguments g) rest fun trees => trees.map Node.shape = es := by
  have elements : ∀ e ∈ es, ReadsBack total depth (element g) e :=
    fun e inside => (items.reads e inside).element (items.phrases e inside)
  show Consumes _ _ (_ :: (_ ++ [_] ++ rest)) _ _ _
  rw [List.append_assoc]
  refine .bind_expect ?_
  refine (Consumes.listOf rfl items.phrases elements).bind fun trees same => ?_
  exact .bind_expect (.pure same)

/-- **An array** in its brackets. -/
theorem Items.array {es : List Shape} (items : Items total depth g es) :
    Consumes total depth (bracketed .openBracket .closeBracket (es.map Node.lexemes) ++ rest)
      (arrayLiteral g) rest (·.shape = .mk () (.arrayLiteral (es.map some))) := by
  show Consumes _ _ (_ :: (_ ++ [_] ++ rest)) _ _ _
  rw [List.append_assoc]
  refine .bind_advance fun start stop newline => ?_
  -- The values of the loop are the elements so far, the last one first.
  refine (Consumes.items rfl items.phrases
    (I := fun left (trees : List (Option Tree)) =>
      trees.reverse.map (Option.map Node.shape) ++ left.map some = es.map some)
    (Q := fun trees => trees.map (Option.map Node.shape) = es.map some) ?_ ?_ rfl).bind ?_
  · intro e left trees behind isItem invariant isBehind
    have phrase := items.phrases e isItem
    have begins := phrase.firstOf_begins behind
    refine .bind_current fun start stop newline => ?_
    rw [Token.isEnd_eq_false begins, Token.is_eq_false (Lexeme.ne_of_begins begins rfl)]
    refine .bind_accept_other ?_ ?_
    · intro same
      rw [same] at begins
      cases begins
    · refine isBehind.item ((items.reads e isItem).element phrase) phrase fun tree same => ?_
      refine .pure ⟨_, rfl, ?_⟩
      rw [List.reverse_cons, List.map_append, List.append_assoc, List.map_singleton,
        Option.map_some, same]
      exact invariant
  · intro trees invariant
    refine .bind_current fun start stop newline => ?_
    rw [firstOf_cons, Token.is_self, Bool.or_true, if_pos rfl]
    refine .pure ⟨_, rfl, ?_⟩
    rw [← invariant, List.map_nil, List.append_nil]
  · refine fun trees same => .bind_expect (.close fun span => ?_)
    rw [Node.shape_mk, Form.map, same]

/-- A word in front of a colon is no modifier. -/
theorem Consumes.memberModifiers {name : Text} :
    Consumes total depth (.word name :: .punct .colon :: rest) memberModifiers
      (.word name :: .punct .colon :: rest) (· = (false, .method)) := by
  refine .bind_current fun _ _ _ => .bind_peek fun _ _ _ => ?_
  exact .bind_discard_accept_other (Lexeme.word_ne_punct _ _) (.pure rfl)

theorem Consumes.identifier {name : Text} :
    Consumes total depth (.word name :: rest) identifier rest
      (·.shape = .mk () (.identifier name)) :=
  .bind_advance fun _ _ _ => .pure (Node.shape_mk _ _)

theorem Consumes.propertyName {name : Text} :
    Consumes total depth (.word name :: rest) propertyName rest
      (·.shape = .mk () (.identifier name)) :=
  .bind_current fun _ _ _ => .identifier

theorem Consumes.propertyKey {name : Text} :
    Consumes total depth (.word name :: rest) (propertyKey g) rest
      fun key => ∃ tree, key = some tree ∧ tree.shape = .mk () (.identifier name) :=
  .bind_current fun _ _ _ => Consumes.identifier.bind fun tree same => .pure ⟨tree, rfl, same⟩

/-- The member of an object, read back from its name on. -/
theorem ReadsBack.member {name : Text} {value : Shape}
    (reads : ReadsBack total depth g.assignment value) :
    ReadsBack total depth (objectMember g) (Shape.member name value) := by
  intro rest ends frees
  rw [Shape.member, Node.endsInParens_mk] at frees
  rw [Shape.member, Node.lexemes_mk]
  show Consumes total depth (.word name :: .punct .colon :: (value.lexemes ++ rest)) _ _ _
  refine .bind_current fun start stop newline => ?_
  refine .bind_accept_other (Lexeme.word_ne_punct _ _) ?_
  refine Consumes.memberModifiers.bind ?_
  rintro _ rfl
  refine Consumes.propertyKey.bind ?_
  rintro _ ⟨key, rfl, sameKey⟩
  have noQuestion : Lexeme.punct .colon ≠ .punct .question := by decide
  refine .bind_discard_accept_other noQuestion (.bind_current fun _ _ _ => .bind_accept ?_)
  refine (reads rest ends frees).bind fun tree same => .close fun span => ?_
  rw [Node.shape_mk, Form.map, sameKey, same]

/-- **An object** in its braces. -/
theorem Consumes.object {members : List (Text × Shape)}
    (phrases : ∀ m ∈ members, Phrase (Shape.member m.1 m.2).lexemes)
    (each : ∀ m ∈ members, ReadsBack total depth g.assignment m.2) :
    Consumes total depth
      (bracketed .openBrace .closeBrace
        ((members.map fun m => Shape.member m.1 m.2).map Node.lexemes) ++ rest)
      (objectLiteral g) rest
      (·.shape = .mk () (.objectLiteral (members.map fun m => Shape.member m.1 m.2))) := by
  show Consumes _ _ (_ :: (_ ++ [_] ++ rest)) _ _ _
  rw [List.append_assoc]
  refine .bind_advance fun start stop newline => ?_
  refine (Consumes.listOf rfl ?_ ?_).bind fun trees same => .bind_expect (.close fun span => ?_)
  · exact List.forall_mem_map.mpr phrases
  · exact List.forall_mem_map.mpr fun m inside => (each m inside).member
  · rw [Node.shape_mk, Form.map, same]

/-! ## §3. Chains. -/

/-- **The expression is read as the first part of a chain.**  Whatever the chain does
behind a tree of the expression, it does behind the expression itself. -/
def Chained (total depth : Nat) (g : Grammar) (calls : Bool) (head : Parser Tree) (e : Shape) :
    Prop :=
  ∀ rest after (Q : Tree → Prop),
    (∀ tree, tree.shape = e → Consumes total depth rest (chain g calls tree) after Q) →
    Consumes total depth (e.lexemes ++ rest) (head >>= chain g calls) after Q

/-- A chain ends in front of a lexeme that does not go on with it. -/
theorem Consumes.chain_ends {calls : Bool} {tree : Tree}
    (ends : (firstOf rest).endsOperand = true
      ∨ calls = false ∧ firstOf rest = .punct .openParen) :
    Consumes total depth rest (chain g calls tree) rest (· = tree) := by
  refine .finish (.bind_current fun start stop newline => ?_)
  generalize firstOf rest = l at ends
  -- Every link begins with a template or with a punctuator that goes on with the operand.
  have other (p : Punct) (goesOn : p ∈ Lexeme.continuations) (noCall : p ≠ .openParen) :
      l ≠ .punct p := by
    rintro rfl
    rcases ends with ends | ⟨_, isCall⟩
    · exact Lexeme.ne_of_endsOperand ends goesOn rfl
    · injection isCall with same
      exact noCall same
  have noTemplate : Token.opensTemplate ⟨l, start, stop, newline⟩ = false := by
    rcases ends with ends | ⟨_, rfl⟩
    · cases l with
      | template | templateHead => cases ends
      | _ => rfl
    · rfl
  have noCall : ¬(l = .punct .openParen ∧ calls = true) := by
    rintro ⟨rfl, rfl⟩
    rcases ends with ends | ⟨⟨⟩, _⟩
    exact Lexeme.ne_of_endsOperand ends (by decide) rfl
  simp only [Token.is, Bool.and_eq_true, beq_iff_eq, noTemplate, noCall, Bool.false_eq_true,
    other .dot (by decide) (by decide), other .optionalDot (by decide) (by decide),
    other .openBracket (by decide) (by decide), other .bang (by decide) (by decide),
    other .lt (by decide) (by decide), false_and, ↓reduceIte]
  exact .pure ⟨tree, rfl, rfl⟩

namespace Chained

variable {calls : Bool} {head : Parser Tree}

/-- A head that takes the whole expression. -/
theorem of_consumes {e : Shape}
    (whole : ∀ rest, Consumes total depth (e.lexemes ++ rest) head rest (·.shape = e)) :
    Chained total depth g calls head e :=
  fun rest _ _ next => (whole rest).bind next

/-- A whole chain. -/
theorem whole {e : Shape} (chained : Chained total depth g calls head e)
    (ends : (firstOf rest).endsOperand = true
      ∨ calls = false ∧ firstOf rest = .punct .openParen) :
    Consumes total depth (e.lexemes ++ rest) (head >>= chain g calls) rest (·.shape = e) := by
  refine chained rest rest _ fun tree same => (Consumes.chain_ends ends).mono ?_
  rintro _ rfl
  exact same

/-- **One link more.**  The body of the loop is written out in the parser only, so the
caller shows the round to be one of it. -/
theorem link {object e : Shape} (link : List Lexeme) (nonempty : link ≠ [])
    (isLinked : e.lexemes = object.lexemes ++ link)
    (ofObject : Chained total depth g calls head object)
    (round : ∀ rest tree, tree.shape = object → ∃ body : Tree → Parser (Round Tree Tree),
      chain g calls = iterate body ∧
      Consumes total depth (link ++ rest) (body tree) rest fun r =>
        ∃ tree', r = .again tree' ∧ tree'.shape = e) :
    Chained total depth g calls head e := by
  intro rest after Q next
  rw [isLinked, List.append_assoc]
  refine ofObject _ _ _ fun tree same => ?_
  obtain ⟨body, isLoop, first⟩ := round rest tree same
  have shorter : rest.length < (link ++ rest).length := by
    rw [List.length_append]
    exact Nat.lt_add_of_pos_left (List.length_pos_of_ne_nil nonempty)
  rw [isLoop]
  refine .again shorter (first.mono ?_)
  rintro _ ⟨tree', rfl, same'⟩
  refine ⟨tree', rfl, ?_⟩
  rw [← isLoop]
  exact next tree' same'

/-- The access to a property. -/
theorem property {object : Shape} {name : Text}
    (ofObject : Chained total depth g calls head object) :
    Chained total depth g calls head
      (.mk () (.propertyAccess object (.mk () (.identifier name)) false)) := by
  refine .link [.punct .dot, .word name] (List.cons_ne_nil _ _) ?_ ofObject
    fun rest tree same => ⟨_, rfl, .bind_current fun start stop newline => ?_⟩
  · simp only [Node.lexemes_mk, Form.map, Form.lexemes]
  · rw [List.cons_append, firstOf_cons, if_pos Token.is_self]
    refine .bind_skip (Consumes.propertyName.bind fun key sameKey => ?_)
    refine .bind_close fun span => .pure ⟨_, rfl, ?_⟩
    rw [Node.shape_mk, Form.map, same, sameKey]

/-- The access to an element. -/
theorem element {object index : Shape} (ofObject : Chained total depth g calls head object)
    (reads : ReadsBack total depth g.assignment index) :
    Chained total depth g calls head (.mk () (.elementAccess object index false)) := by
  refine .link (bracketed .openBracket .closeBracket [index.lexemes]) (List.cons_ne_nil _ _) ?_
    ofObject fun rest tree same => ⟨_, rfl, .bind_current fun start stop newline => ?_⟩
  · simp only [Node.lexemes_mk, Form.map, Form.lexemes]
  · show Consumes _ _ (_ :: (index.lexemes ++ [] ++ [_] ++ rest)) _ _ _
    rw [List.append_nil, List.append_assoc,
      show firstOf (bracketed _ _ _ ++ rest) = .punct .openBracket from rfl]
    simp only [Token.is, Bool.and_eq_true, beq_iff_eq, Lexeme.punct.injEq, reduceCtorEq, false_and,
      ↓reduceIte]
    refine .bind_skip ((reads.enclosed rfl).bind fun place samePlace => ?_)
    refine .bind_expect (.bind_close fun span => .pure ⟨_, rfl, ?_⟩)
    rw [Node.shape_mk, Form.map, same, samePlace]

/-- A call. -/
theorem call {callee : Shape} {es : List Shape}
    (ofCallee : Chained total depth g true head callee) (items : Items total depth g es) :
    Chained total depth g true head (.mk () (.call callee es false)) := by
  refine .link (bracketed .openParen .closeParen (es.map Node.lexemes)) (List.cons_ne_nil _ _) ?_
    ofCallee fun rest tree same => ⟨_, rfl, .bind_current fun start stop newline => ?_⟩
  · simp only [Node.lexemes_mk, Form.map, Form.lexemes]
  · rw [show firstOf (bracketed _ _ _ ++ rest) = .punct .openParen from rfl]
    simp only [Token.is, Bool.and_eq_true, beq_iff_eq, Lexeme.punct.injEq, reduceCtorEq, false_and,
      and_self, ↓reduceIte]
    refine items.arguments.bind fun trees sameItems => ?_
    refine .bind_close fun span => .pure ⟨_, rfl, ?_⟩
    rw [Node.shape_mk, Form.map, same, sameItems]

end Chained

/-! ## §4. Heads. -/

/-- An expression in parentheses. -/
theorem ReadsBack.parenthesized {inner : Shape} (reads : ReadsBack total depth g.assignment inner) :
    Consumes total depth ((Node.mk () (.parenthesized inner)).lexemes ++ rest) (parenthesized g)
      rest (·.shape = .mk () (.parenthesized inner)) := by
  rw [lexemes_parenthesized]
  refine .bind_advance fun start stop newline => ?_
  refine (reads.enclosed rfl).allowingIn.bind fun tree same => ?_
  refine .bind_expect (.close fun span => ?_)
  rw [Node.shape_mk, Form.map, same]

/-- The arguments behind a constructor. -/
theorem Items.optionalArguments {es : List Shape} (items : Items total depth g es) :
    Consumes total depth (bracketed .openParen .closeParen (es.map Node.lexemes) ++ rest)
      (optionalArguments g) rest fun arguments => arguments.map (·.map Node.shape) = some es := by
  refine .bind_current fun start stop newline => ?_
  rw [show firstOf (bracketed _ _ _ ++ rest) = .punct .openParen from rfl, if_pos Token.is_self]
  exact items.arguments.bind fun trees same => .pure (congrArg some same)

/-- A constructor call with its arguments. -/
theorem Consumes.newExpression {callee : Shape} {es : List Shape}
    (ofCallee : Chained total depth g false (newOperand g) callee)
    (begins : ∃ l rest, callee.lexemes = l :: rest ∧ l.beginsOperand = true)
    (items : Items total depth g es) :
    Consumes total depth ((Node.mk () (.newExpression callee (some es))).lexemes ++ rest)
      (newExpression g) rest (·.shape = .mk () (.newExpression callee (some es))) := by
  simp only [Node.lexemes_mk, Form.map, Form.lexemes, Option.map_some, Option.getD_some,
    List.cons_append, List.append_assoc]
  refine .bind_advance fun start stop newline => .bind_current fun _ _ _ => ?_
  obtain ⟨l, others, isFirst, begins⟩ := begins
  have noDot (rest : List Lexeme) : firstOf (callee.lexemes ++ rest) ≠ .punct .dot := by
    rw [isFirst]
    rintro ⟨⟩
    cases begins
  rw [Token.is_eq_false (noDot _), if_neg Bool.false_ne_true, ← bind_assoc]
  refine (ofCallee.whole (.inr ⟨rfl, rfl⟩)).bind fun tree same => ?_
  refine items.optionalArguments.bind fun arguments sameArguments => .close fun span => ?_
  rw [Node.shape_mk, Form.map, same, sameArguments]

/-- **What a word stands for,** unless it means something special. -/
theorem Consumes.name {name : Text} (plain : IsPlainName name) :
    Consumes total depth ((Node.mk () (.identifier name)).lexemes ++ rest) (primary g) rest
      (·.shape = .mk () (.identifier name)) := by
  have other (start stop : Nat) (newline : Bool) {w : String} (isReserved : w ∈ reservedWords) :
      Token.isTheWord ⟨.word name, start, stop, newline⟩ (Text.ofString w) = false := by
    refine beq_eq_false_iff_ne.mpr fun same => ?_
    injection same with same
    exact plain.plain w isReserved same
  have noValue : ValueKeyword.words.lookup name = none := plain.lookup_eq_none (by decide)
  rw [Node.lexemes_mk]
  refine .bind_current fun start stop newline => ?_
  show Consumes total depth (.word name :: rest)
    (wordOperand g ⟨.word name, start, stop, newline⟩ name) _ _
  refine .bind_peek fun _ _ _ => ?_
  rw [other start stop newline (show "function" ∈ reservedWords by decide),
    other start stop newline (show "async" ∈ reservedWords by decide),
    other start stop newline (show "class" ∈ reservedWords by decide),
    other start stop newline (show "new" ∈ reservedWords by decide), noValue]
  exact .bind_skip (.pure (Node.shape_mk _ _))

/-- A constructor call in the place of an operand. -/
theorem Consumes.construction {P : Tree → Prop}
    (reads : Consumes total depth (.word "new" :: rest) (Parser.newExpression g) after P) :
    Consumes total depth (.word "new" :: rest) (primary g) after P := by
  refine .bind_current fun start stop newline => ?_
  show Consumes _ _ _ (wordOperand g _ _) _ _
  exact .bind_peek fun _ _ _ => reads

/-- An operand behind `new` that does not begin with the same word. -/
theorem Consumes.newOperand {before : List Lexeme} {P : Tree → Prop}
    (other : firstOf before ≠ .word "new") (reads : Consumes total depth before g.primary after P) :
    Consumes total depth before (newOperand g) after P := by
  refine .bind_current fun start stop newline => ?_
  rw [Token.isTheWord, beq_eq_false_iff_ne.mpr other]
  exact reads

/-- A constructor call behind `new`. -/
theorem Consumes.newOperand_new {P : Tree → Prop}
    (reads : Consumes total depth (.word "new" :: rest) g.newExpression after P) :
    Consumes total depth (.word "new" :: rest) (Parser.newOperand g) after P :=
  .bind_current fun _ _ _ => reads

end Parser

end StackLint
