/-
  StackLint.Proofs.Parse.Lead
  ───────────────────────────
  **HOW NODES BEGIN IN THE TEXT.**

  A name in the tree can be read off the text: where an expression begins that
  is a name inside of parentheses and type assertions, the text goes on with that
  name, or with a bracket.
-/
import StackLint.Match.Expression
import StackLint.Proofs.Parse.Placed
import StackLint.Proofs.Token.Standing

namespace StackLint

/-! ## §1. Names inside of brackets. -/

/-- At the offset the text goes on with a bracket, or else with the name. -/
inductive Text.LeadsTo (t : Text) (offset : Nat) (name : Text) : Prop where
  | paren (h : Punct.openParen.text <+: t.drop offset)
  | angle (h : Punct.lt.text <+: t.drop offset)
  | name (h : name <+: t.drop offset)

instance (t : Text) (offset : Nat) (name : Text) : Decidable (t.LeadsTo offset name) :=
  decidable_of_iff (Punct.openParen.text <+: t.drop offset ∨ Punct.lt.text <+: t.drop offset
      ∨ name <+: t.drop offset) <| by
    constructor
    · rintro (h | h | h)
      · exact .paren h
      · exact .angle h
      · exact .name h
    · rintro (h | h | h)
      · exact .inl h
      · exact .inr (.inl h)
      · exact .inr (.inr h)

namespace Placed

variable {L : Layout} {heard : Complaint → Prop} {lo hi : Nat} {n : Tree} {name : Text}

/-- A name that a token has. -/
theorem name_begins (placed : Placed L heard lo hi n) (named : n.identifierName? = some name)
    (written : name ≠ [] ∧ name ≠ "new") : name <+: L.text.drop n.info.start := by
  have form : n.form = .identifier name := by
    unfold Node.identifierName? at named
    split at named
    · next name' form =>
        cases named
        exact form
    · cases named
  have strict : n.form.isPlaceholder = false := by
    rw [form]
    cases name with
    | nil => exact absurd rfl written.1
    | cons c rest => rfl
  obtain ⟨i, j, start, _, _, details⟩ := placed.details strict
  rw [form] at details
  rw [start]
  rcases details with isEmpty | isNew | isWord
  · exact absurd isEmpty written.1
  · exact absurd isNew written.2
  · exact L.word_begins isWord

/-- **Where a node in brackets begins,** given how it begins without them. -/
theorem leadsTo_of {t : Text} (placed : Placed L heard lo hi n)
    (bare : ∀ {lo hi}, Placed L heard lo hi n.unwrap → t <+: L.text.drop n.unwrap.info.start) :
    L.text.LeadsTo n.info.start t := by
  induction n using Node.unwrap.induct generalizing lo hi with
  | case1 span inner ih =>
      obtain ⟨i, j, start, _, _, isParen⟩ := placed.details rfl
      rw [start]
      exact .paren (L.punct_begins isParen)
  | case2 span inner kind ih =>
      obtain ⟨i, j, start, _, _, details⟩ := placed.details rfl
      obtain ⟨_, _, part⟩ := placed.of_mem_children (List.mem_cons_self ..)
      rcases details with isAngle | begins
      · rw [start]
        exact .angle (L.punct_begins isAngle)
      · -- The assertion stands behind its operand.
        rw [Node.unwrap] at bare
        rw [start, ← begins]
        exact ih part bare
  | case3 n notParen notAssertion =>
      have same : n.unwrap = n := by
        rw [Node.unwrap.eq_def]
        split
        · next span inner => exact absurd rfl (notParen span inner)
        · next span inner kind => exact absurd rfl (notAssertion span inner kind)
        · rfl
      rw [same] at bare
      exact .name (bare placed)

/-- **Where a name in brackets begins.** -/
theorem leadsTo (placed : Placed L heard lo hi n) (named : n.unwrap.identifierName? = some name)
    (written : name ≠ [] ∧ name ≠ "new") : L.text.LeadsTo n.info.start name :=
  placed.leadsTo_of fun place => place.name_begins named written

/-- **Where a list in brackets begins.** -/
theorem leadsTo_bracket {elements : List (Option Tree)} (placed : Placed L heard lo hi n)
    (form : n.unwrap.form = .arrayLiteral elements) : L.text.LeadsTo n.info.start "[" := by
  refine placed.leadsTo_of fun place => ?_
  obtain ⟨i, j, start, _, _, details⟩ := place.details (by rw [form]; rfl)
  rw [form] at details
  rw [start]
  exact L.punct_begins details

/-- **Where a constant text in brackets begins.** -/
theorem leadsTo_mark {value : Text} (placed : Placed L heard lo hi n)
    (isStatic : n.staticString? = some value) :
    ∃ mark ∈ Text.ofString "\"'\x60", L.text.LeadsTo n.info.start [mark] := by
  unfold Node.staticString? at isStatic
  split at isStatic
  · next value' quote form =>
      refine ⟨.scalar quote.mark, by cases quote <;> decide, placed.leadsTo_of fun place => ?_⟩
      obtain ⟨i, j, start, _, _, details⟩ := place.details (by rw [form]; rfl)
      rw [form] at details
      obtain ⟨rest, _, begins, _⟩ := L.string_stands details
      rw [start, begins]
      exact List.prefix_append [_] rest
  · next head form =>
      refine ⟨.scalar '\x60', by decide, placed.leadsTo_of fun place => ?_⟩
      obtain ⟨i, j, start, _, _, details⟩ := place.details (by rw [form]; rfl)
      rw [form] at details
      rw [start]
      exact L.template_begins details
  · cases isStatic

end Placed

/-! ## §2. Keys of properties. -/

/-- At the offset the text goes on with the name, bare or in quotes. -/
inductive Text.KeyAt (t : Text) (offset : Nat) (name : Text) : Prop where
  | bare (h : name <+: t.drop offset)
  | quoted {quote : Quote} {rest : Text} {width : Nat} (h : t.drop offset = .scalar quote.mark :: rest)
      (body : Scan.stringBody quote.mark 0 rest = .ok ⟨name, width⟩)

/-- What can stand in front of the key of a property. -/
def modifierTexts : List Text :=
  ["get", "set", "async", "*"]

namespace Placed

variable {L : Layout} {heard : Complaint → Prop} {lo hi : Nat} {n : Tree} {name : Text}

/-- **Where a key begins.** -/
theorem keyAt (placed : Placed L heard lo hi n) (named : n.keyName? = some name)
    (written : name ≠ [] ∧ name ≠ "new") : L.text.KeyAt n.info.start name := by
  unfold Node.keyName? at named
  split at named
  · next name' form =>
      cases named
      refine .bare (placed.name_begins ?_ written)
      unfold Node.identifierName?
      rw [form]
  · next value quote form =>
      cases named
      obtain ⟨i, j, start, _, _, details⟩ := placed.details (by rw [form]; rfl)
      rw [form] at details
      obtain ⟨rest, width, begins, body⟩ := L.string_stands details
      rw [start]
      exact .quoted begins body
  · next raw form =>
      cases named
      obtain ⟨i, j, start, _, _, details⟩ := placed.details (by rw [form]; rfl)
      rw [form] at details
      have stands := L.value_begins (i := i) (by rw [details]; rfl)
      rw [details] at stands
      rw [start]
      exact .bare stands
  · cases named

/-- The text of a modifier stands in the text. -/
theorem modifier_begins {L : Layout} {i : Nat} (h : (L.token i).isModifier = true) :
    ∃ modifier ∈ modifierTexts, modifier <+: L.text.drop (L.startAt i) := by
  unfold Token.isModifier at h
  rw [Bool.or_eq_true, Bool.or_eq_true, Bool.or_eq_true] at h
  rcases h with ((isGet | isSet) | isAsync) | isStar
  · exact ⟨"get", by decide, L.word_begins (beq_iff_eq.mp isGet)⟩
  · exact ⟨"set", by decide, L.word_begins (beq_iff_eq.mp isSet)⟩
  · exact ⟨"async", by decide, L.word_begins (beq_iff_eq.mp isAsync)⟩
  · exact ⟨"*", by decide, L.punct_begins isStar⟩

/-- **A property begins with its key, or with a modifier.** -/
theorem key_start {key value : Tree} (placed : Placed L heard lo hi n)
    (form : n.form = .propertyAssignment key value) :
    key.info.start = n.info.start
      ∨ ∃ modifier ∈ modifierTexts, modifier <+: L.text.drop n.info.start := by
  obtain ⟨i, j, start, _, _, details⟩ := placed.details (by rw [form]; rfl)
  rw [form] at details
  rw [start]
  exact details.2.1.imp id modifier_begins

end Placed

/-- **What stands behind a key and its sign** begins where the new text does, unless that is a
decorator. -/
theorem Layout.start_behind_key {L L' : Layout} {i i' k : Nat} {name y : Text} {p : Punct}
    {d : CodePoint} {value : Tree} (isName : Scan.isWord name = true)
    (leads : L.Leads i k [.word name, .punct p])
    (sign : p = .colon ∨ p = .assign ∧ d ∉ ("=>" : Text)) (inside : k < L.size)
    (start : L'.startAt i' = L.startAt i)
    (left : L'.text.drop (L.startAt i) = L.text.slice (L.startAt i) (L.startAt k) ++ d :: y)
    (solid : Scan.trivia? d y = none) (noDecorator : d ≠ .scalar '@') :
    (L'.token i').lexeme = .word name
      ∧ (L'.StandsBehind p i' value → value.info.start = L.startAt k) := by
  obtain ⟨isKey, isSign, atValue⟩ := key_stays isName leads sign inside start left solid
  refine ⟨isKey, fun behind => ?_⟩
  have place := leads.eq_add
  have begins := drop_of_left (by omega) left
  rw [← atValue] at begins
  rw [behind isSign, atValue]
  refine Bool.eq_false_iff.mpr fun isAt => noDecorator ?_
  have isPrefix := L'.punct_begins isAt
  rw [begins] at isPrefix
  exact (List.cons_prefix_cons.mp isPrefix).1.symm

end StackLint
