/-
  StackLint.Proofs.Detection.Settled
  ──────────────────────────────────
  **FIXES THAT SETTLE THEIR PLACE.**

  A fix that is made in the very place of its violation puts a text there that is
  not read as what was wrong.  The same is true of a fix that is made behind a name
  and its sign, or behind words: these stay what they are.  What stands behind the fix
  may be read in another way than before, but that does not bring the violation back
  to the place.
-/
import StackLint.Proofs.Parse.Lead
import StackLint.Proofs.Rule.Found
import StackLint.Proofs.Rule.Reports

namespace StackLint

/-! ## §1. Places. -/

theorem Source.position_eq {s : Source} {offset : Nat} (le : offset ≤ s.text.length) :
    s.position offset = Position.ofOffset s.text.lineStarts offset := by
  unfold Source.position Source.clamp clampOffset
  rw [s.lineStarts_eq, Int.toNat_natCast, Nat.min_eq_left le]

/-- Two texts that are one and the same up to a place have what stands there at the same
offset. -/
theorem Source.eq_of_same_place {s s' : Source} {offset offset' : Nat}
    (le : offset ≤ s.text.length) (le' : offset' ≤ s'.text.length)
    (common : s.text.take offset = s'.text.take offset)
    (line : (s.position offset).line = (s'.position offset').line)
    (column : (s.position offset).column = (s'.position offset').column) : offset = offset' := by
  refine Position.ofOffset_inj le le' common ?_
  rw [← Source.position_eq le, ← Source.position_eq le']
  generalize s.position offset = p at line column ⊢
  generalize s'.position offset' = p' at line column ⊢
  cases p
  cases p'
  simp only at line column
  rw [line, column]

/-- A part of the program begins in the text. -/
theorem Source.On.start_le {s : Source} {L : Layout} (on : s.On L) {n : Tree}
    (inside : n ∈ s.tree.preorder) (isPart : ∀ statements, n.form ≠ .program statements) :
    n.info.start ≤ s.text.length := by
  obtain ⟨_, _, _, _, placed⟩ := on.place_of_part inside isPart
  rw [← on.text]
  exact placed.start_le

namespace Fix

theorem take_apply (f : Fix) {t : Text} (inside : f.start ≤ t.length) :
    (f.apply t).take f.start = t.take f.start := by
  unfold apply
  rw [List.append_assoc]
  exact List.take_left' (by rw [List.length_take, Nat.min_eq_left inside])

/-- In front of a place in front of the fix both texts are the same. -/
theorem take_apply_of_le (f : Fix) {t : Text} (inside : f.start ≤ t.length) {place : Nat}
    (le : place ≤ f.start) : (f.apply t).take place = t.take place := by
  have same := congrArg (List.take place) (f.take_apply inside)
  rw [List.take_take, List.take_take, Nat.min_eq_left le] at same
  exact same

/-- From such a place on the fixed text goes on as before, and then with the new code. -/
theorem drop_apply_of_le (f : Fix) {t : Text} (inside : f.start ≤ t.length) {place : Nat}
    (le : place ≤ f.start) :
    (f.apply t).drop place = t.slice place f.start ++ (f.newCode ++ t.drop f.stop) := by
  unfold apply Text.slice
  rw [List.append_assoc, List.drop_append_of_le_length, List.drop_take]
  rw [List.length_take, Nat.min_eq_left inside]
  exact le

/-- Behind its start the fixed text goes on with the new code. -/
theorem drop_apply (f : Fix) {t : Text} (inside : f.start ≤ t.length) :
    (f.apply t).drop f.start = f.newCode ++ t.drop f.stop := by
  rw [f.drop_apply_of_le inside (Nat.le_refl _), t.slice_self (Nat.le_refl _), List.nil_append]

end Fix

/-! ## §2. What stands in the place of a violation. -/

theorem head_eq_of_cons_prefix_cons {c d : CodePoint} {t u : Text} (h : c :: t <+: d :: u) : c = d :=
  (List.cons_prefix_cons.mp h).1

/-- What leads to a text begins with a bracket or as the text does. -/
theorem Text.LeadsTo.head {t name x : Text} {offset : Nat} {c d : CodePoint}
    (leads : t.LeadsTo offset (c :: name)) (left : t.drop offset = d :: x) :
    d = .scalar '(' ∨ d = .scalar '<' ∨ d = c := by
  cases leads with
  | paren h =>
      rw [left] at h
      exact .inl (head_eq_of_cons_prefix_cons h).symm
  | angle h =>
      rw [left] at h
      exact .inr (.inl (head_eq_of_cons_prefix_cons h).symm)
  | name h =>
      rw [left] at h
      exact .inr (.inr (head_eq_of_cons_prefix_cons h).symm)

/-- A text that begins with one of two texts that differ does not begin with the
other. -/
theorem not_prefix_append {t u : Text} (apart : ¬ t <+: u ∧ ¬ u <+: t) (rest : Text) :
    ¬ t <+: u ++ rest := by
  intro h
  rcases List.prefix_or_prefix_of_prefix h (List.prefix_append u rest) with first | second
  · exact apart.1 first
  · exact apart.2 second

section

variable {s fixed : Source} {L L' : Layout} {v w : Violation} {f : Fix} {n n' : Tree}
  {code code' : Text} {fix' : Option Fix}

/-- In front of the fix nothing moves. -/
theorem Violation.StandsAt.start_eq (on : s.On L) (on' : fixed.On L')
    (applied : fixed.text = f.apply s.text) (inside : n ∈ s.tree.preorder)
    (inside' : n' ∈ fixed.tree.preorder) (isPart : ∀ statements, n.form ≠ .program statements)
    (isPart' : ∀ statements, n'.form ≠ .program statements)
    (stands : v.StandsAt s n code (some f)) (stands' : w.StandsAt fixed n' code' fix')
    (le : n.info.start ≤ f.start) (within : f.start ≤ s.text.length) (line : w.line = v.line)
    (column : w.column = v.column) : n'.info.start = n.info.start := by
  refine (Source.eq_of_same_place (on.start_le inside isPart) (on'.start_le inside' isPart')
    ?_ ?_ ?_).symm
  · rw [applied, f.take_apply_of_le within le]
  · rw [stands.line, stands'.line] at line
    exact (Int.ofNat.inj line).symm
  · rw [stands.column, stands'.column] at column
    exact (Int.ofNat.inj column).symm

/-- **In the place of the violation stands the new code.** -/
theorem Violation.StandsAt.drop_eq (on : s.On L) (on' : fixed.On L')
    (applied : fixed.text = f.apply s.text) (inside : n ∈ s.tree.preorder)
    (inside' : n' ∈ fixed.tree.preorder) (strict : n.form.isLoose = false)
    (strict' : n'.form.isLoose = false) (stands : v.StandsAt s n code (some f))
    (stands' : w.StandsAt fixed n' code' fix') (start : f.start = n.info.start) (line : w.line = v.line) (column : w.column = v.column) :
    fixed.text.drop n'.info.start = f.newCode ++ s.text.drop f.stop := by
  have isPart := Source.ne_program_of_strict strict
  have within := on.start_le inside isPart
  rw [← start] at within
  rw [stands.start_eq on on' applied inside inside' isPart (Source.ne_program_of_strict strict')
    stands' (Nat.le_of_eq start.symm) within line column, ← start, applied, f.drop_apply within]

/-- A node begins with the name of its first part, or with a bracket. -/
theorem Source.On.leadsTo (on : s.On L) {first : Tree} {name : Text}
    (inside : n ∈ s.tree.preorder) (strict : n.form.isLoose = false)
    (noPlaceholder : n.form.isPlaceholder = false) (isPart : first ∈ n.children)
    (begins : ∀ heard i j, n.form.Details L heard i j → first.info.start = L.startAt i)
    (named : first.unwrap.identifierName? = some name) (written : name ≠ [] ∧ name ≠ "new") :
    s.text.LeadsTo n.info.start name := by
  obtain ⟨_, _, _, placed⟩ := on.placed_of_strict inside strict
  obtain ⟨i, j, start, _, _, details⟩ := placed.details noPlaceholder
  obtain ⟨_, _, part⟩ := placed.of_mem_children isPart
  have leads := part.leadsTo named written
  rw [begins _ i j details, ← start, on.text] at leads
  exact leads

/-- **The fix is made behind tokens with these lexemes,** the first of which stands in the
place of the violation. -/
def Fix.Follows (s : Source) (v : Violation) (fix : Fix) (lead : List Lexeme) : Prop :=
  ∃ place ≤ fix.start, v.line = (s.position place).line ∧ v.column = (s.position place).column
    ∧ s.text.lexemesBetween place fix.start = .ok lead

/-- From the node to what is replaced there are these tokens. -/
theorem Violation.StandsAt.leads (on : s.On L) (inside : n ∈ s.tree.preorder)
    (isPart : ∀ statements, n.form ≠ .program statements) (stands : v.StandsAt s n code (some f))
    {stop : Nat} (site : L.Site f.start stop) (wide : f.start < stop) {lead : List Lexeme}
    (follows : f.Follows s v lead) :
    ∃ i k, k < L.size ∧ n.info.start = L.startAt i ∧ f.start = L.startAt k ∧ i ≤ k
      ∧ L.Leads i k lead := by
  obtain ⟨place, le, line, column, between⟩ := follows
  obtain ⟨k, inSize, isToken⟩ := site.exists_startAt wide
  obtain ⟨_, _, _, _, placed⟩ := on.place_of_part inside isPart
  obtain ⟨i, _, _, start, _⟩ := placed.begins
  have within := L.startAt_le k
  rw [← isToken, on.text] at within
  rw [stands.line] at line
  rw [stands.column] at column
  have isPlace : n.info.start = place :=
    Source.eq_of_same_place (on.start_le inside isPart) (Nat.le_trans le within) rfl
      (Int.ofNat.inj line) (Int.ofNat.inj column)
  rw [← isPlace, start, isToken] at le between
  have before : i ≤ k := by
    refine Nat.le_of_not_lt fun later => ?_
    exact absurd (L.startAt_lt_startAt later inSize) (Nat.not_lt.mpr le)
  rw [← on.text] at between
  exact ⟨i, k, inSize, start, isToken, before,
    Layout.leads_of_between before (Nat.le_of_lt inSize) between⟩

/-- **Behind the place of the violation stand the same tokens,** and then the new code. -/
theorem Violation.StandsAt.exists_leads (on : s.On L) (on' : fixed.On L')
    (applied : fixed.text = f.apply s.text) (inside : n ∈ s.tree.preorder)
    (inside' : n' ∈ fixed.tree.preorder) (isPart : ∀ statements, n.form ≠ .program statements)
    (isPart' : ∀ statements, n'.form ≠ .program statements)
    (stands : v.StandsAt s n code (some f)) (stands' : w.StandsAt fixed n' code' fix')
    {stop : Nat} (site : L.Site f.start stop) (wide : f.start < stop) {lead : List Lexeme}
    (follows : f.Follows s v lead) (line : w.line = v.line) (column : w.column = v.column) :
    ∃ i k, k < L.size ∧ L.Leads i k lead ∧ n'.info.start = L.startAt i
      ∧ L'.text.drop (L.startAt i)
        = L.text.slice (L.startAt i) (L.startAt k) ++ (f.newCode ++ s.text.drop f.stop) := by
  obtain ⟨i, k, inSize, start, isToken, before, leads⟩ :=
    stands.leads on inside isPart site wide follows
  have le : n.info.start ≤ f.start := by
    rw [start, isToken]
    exact L.startAt_mono before
  have within := L.startAt_le k
  rw [← isToken, on.text] at within
  have start' := stands.start_eq on on' applied inside inside' isPart isPart' stands' le within
    line column
  have left := f.drop_apply_of_le within le
  rw [← applied, ← on'.text, isToken, ← on.text] at left
  rw [start] at left start'
  rw [← on.text]
  exact ⟨i, k, inSize, leads, start', left⟩

namespace StageVariable

/-- **`$app.stage` is no access to `input.stage`.** -/
theorem InputStage.settled (before : InputStage s v) (on : s.On L) (on' : fixed.On L')
    (applied : fixed.text = f.apply s.text) (carried : v.fix = some f)
    (line : w.line = v.line) (column : w.column = v.column) : ¬ InputStage fixed w := by
  intro after
  obtain ⟨inside, form, _, _, stands, replaces⟩ := before
  obtain ⟨inside', form', _, isInput, stands', _⟩ := after
  rw [stands.fix_eq] at carried
  obtain rfl := Option.some.inj carried
  have begins := stands.drop_eq on on' applied inside inside' (by rw [form]; rfl)
    (by rw [form']; rfl) stands' replaces.start line column
  have leads := on'.leadsTo inside' (by rw [form']; rfl) (by rw [form']; rfl)
    (Node.mem_children_of_form form' (List.mem_cons_self ..))
    (by rw [form']; exact fun _ _ _ details => details) isInput (by decide)
  rw [replaces.newCode_eq] at begins
  cases leads with
  | paren h | angle h | name h =>
      rw [begins] at h
      exact absurd (head_eq_of_cons_prefix_cons h) (by decide)

/-- **Behind words an empty list has no parameters.** -/
theorem RunSignature.settled (before : RunSignature s v) (on : s.On L) (on' : fixed.On L')
    (applied : fixed.text = f.apply s.text) (carried : v.fix = some f) {names : List Text}
    (areNames : ∀ name ∈ names, Scan.isWord name = true)
    (follows : f.Follows s v (names.map Lexeme.word)) (line : w.line = v.line)
    (column : w.column = v.column) : ¬ RunSignature fixed w := by
  intro after
  obtain ⟨inside, isFunction, nonempty, isSpan, stands, isStart, newCode⟩ := before
  obtain ⟨inside', isFunction', nonempty', _, stands', _, _⟩ := after
  rw [stands.fix_eq] at carried
  obtain rfl := Option.some.inj carried
  obtain ⟨strict, _⟩ := parameters_of_function? (L := L) isFunction
  obtain ⟨strict', noPlaceholder, fit, _⟩ := parameters_of_function? (L := L') isFunction'
  obtain ⟨site, wide⟩ := site_parametersSpan on inside isFunction isSpan nonempty
  rw [← isStart] at site wide
  obtain ⟨i, k, inSize, leads, start, left⟩ := stands.exists_leads on on' applied inside inside'
    (Source.ne_program_of_strict strict) (Source.ne_program_of_strict strict') stands' site wide
    follows line column
  obtain ⟨_, _, _, placed⟩ := on'.placed_of_strict inside' strict'
  obtain ⟨i', j', start', _, _, details⟩ := placed.details noPlaceholder
  rw [newCode] at left
  obtain ⟨words, atList⟩ := Layout.names_stay areNames leads inSize (start'.symm.trans start) left
    rfl rfl
  have behind := Layout.drop_of_left (by rw [leads.eq_add]; omega) left
  obtain ⟨opens, closes⟩ := L'.parens_of_drop (atList ▸ behind)
  exact nonempty' ((fit _ i' j' details).2 _ ⟨Nat.le_add_right i' _, words, opens, closes⟩)

/-- **Behind a name and a sign `$app.stage` is no constant.** -/
theorem HardcodedStage.settled (before : HardcodedStage s v) (on : s.On L) (on' : fixed.On L')
    (applied : fixed.text = f.apply s.text) (carried : v.fix = some f)
    (follows : f.Follows s v [.word "stage", .punct .assign]) (line : w.line = v.line)
    (column : w.column = v.column) : ¬ HardcodedStage fixed w := by
  intro after
  obtain @⟨n, target, value, _, _, inside, form, _, isStatic, stands, replaces⟩ := before
  obtain @⟨n', target', value', _, _, inside', form', isStage', isStatic', stands', _⟩ := after
  rw [stands.fix_eq] at carried
  obtain rfl := Option.some.inj carried
  have isPart (statements : List Tree) : n.form ≠ .program statements :=
    fun isProgram => nomatch form.symm.trans isProgram
  have isPart' (statements : List Tree) : n'.form ≠ .program statements :=
    fun isProgram => nomatch form'.symm.trans isProgram
  -- The value that is replaced has a token.
  obtain ⟨_, _, _, _, placed⟩ := on.place_of_part inside isPart
  have isValue : value ∈ [target, value] := List.mem_cons_of_mem _ (List.mem_singleton_self _)
  obtain ⟨_, _, placedValue⟩ := placed.of_mem_children (Node.mem_children_of_form form isValue)
  have wide := placedValue.wide (isSolid_of_staticString? isStatic)
  have site := placedValue.site wide
  rw [← replaces.start] at site wide
  obtain ⟨i, k, inSize, leads, start, left⟩ := stands.exists_leads on on' applied inside inside'
    isPart isPart' stands' site wide follows line column
  rw [replaces.newCode_eq] at left
  -- Where a declaration begins in the same place, its value stands behind the sign.
  obtain ⟨_, _, _, _, placed'⟩ := on'.place_of_part inside' isPart'
  obtain ⟨i', _, start', _, _, details⟩ := placed'.details (by rw [form']; rfl)
  rw [form'] at details
  obtain ⟨_, atValue⟩ :
      (L'.token i').lexeme = .word "stage"
        ∧ (L'.StandsBehind .assign i' value' → value'.info.start = L.startAt k) :=
    Layout.start_behind_key (by decide) leads (.inr ⟨rfl, by decide⟩) inSize
      (start'.symm.trans start) left rfl (by decide)
  have valueStart := atValue (details value' (isStage' ▸ rfl) rfl)
  have isValue' : value' ∈ [target', value'] := List.mem_cons_of_mem _ (List.mem_singleton_self _)
  obtain ⟨_, _, placedValue'⟩ := placed'.of_mem_children (Node.mem_children_of_form form' isValue')
  obtain ⟨mark, isMark, leadsTo⟩ := placedValue'.leadsTo_mark isStatic'
  rw [valueStart] at leadsTo
  rcases leadsTo.head (Layout.drop_of_left (by rw [leads.eq_add]; omega) left) with
    never | never | never
  · exact absurd never (by decide)
  · exact absurd never (by decide)
  · have noMark : ∀ e ∈ Text.ofString "\"'\x60", CodePoint.scalar '$' ≠ e := by decide
    exact absurd never (noMark mark isMark)

end StageVariable

namespace PulumiOutput

/-- **A value that does not begin like an interpolation is none.** -/
theorem LoneInterpolation.settled (before : LoneInterpolation s v) (on : s.On L)
    (on' : fixed.On L') (applied : fixed.text = f.apply s.text) (carried : v.fix = some f)
    (freed : ¬ (f.newCode ++ s.text.drop f.stop).LeadsTo 0 interpolateTag)
    (line : w.line = v.line) (column : w.column = v.column) : ¬ LoneInterpolation fixed w := by
  intro after
  obtain ⟨inside, form, _, _, stands, replaces⟩ := before
  obtain ⟨inside', form', isTag, _, stands', _⟩ := after
  rw [stands.fix_eq] at carried
  obtain rfl := Option.some.inj carried
  have begins := stands.drop_eq on on' applied inside inside' (by rw [form]; rfl)
    (by rw [form']; rfl) stands' replaces.start line column
  have leads := on'.leadsTo inside' (by rw [form']; rfl) (by rw [form']; rfl)
    (Node.mem_children_of_form form' (List.mem_cons_self ..))
    (by rw [form']; exact fun _ _ _ details => details) isTag (by decide)
  refine freed ?_
  cases leads with
  | paren h => exact .paren (begins ▸ h)
  | angle h => exact .angle (begins ▸ h)
  | name h => exact .name (begins ▸ h)

end PulumiOutput

namespace CorsConfig

/-- A key is renamed bare or in quotes. -/
theorem renamedKey_eq (key : Tree) (name : Text) :
    renamedKey key name = name ∨ ∃ quote : Quote, renamedKey key name = quote.surround name := by
  unfold renamedKey
  split
  · next value quote form => exact .inr ⟨quote, rfl⟩
  · exact .inl rfl

/-- What is known of a misspelling: neither itself nor a modifier begins like the
correct name, and this name needs no escape. -/
structure Misspelling.Sound (m : Misspelling) : Prop where
  written : m.wrong ≠ [] ∧ m.wrong ≠ "new"
  differs : m.wrong ≠ m.correct
  bare : ∀ t ∈ m.wrong :: modifierTexts, ¬ t <+: m.correct ∧ ¬ m.correct <+: t
  quoted : ∀ t ∈ m.wrong :: modifierTexts, ∀ quote : Quote,
    ¬ t <+: quote.surround m.correct ∧ ¬ quote.surround m.correct <+: t
  noQuote : ∀ quote : Quote,
    ¬ [.scalar quote.mark] <+: m.correct ∧ ¬ m.correct <+: [.scalar quote.mark]
  plain : ∀ quote, Scan.Plain quote m.correct

/-- There are two quotes. -/
instance {P : Quote → Prop} [DecidablePred P] : Decidable (∀ quote, P quote) :=
  decidable_of_iff (P .single ∧ P .double)
    ⟨fun both quote => match quote with
      | .single => both.1
      | .double => both.2, fun all => ⟨all _, all _⟩⟩

theorem misspelling_sound {m : Misspelling} (known : m ∈ misspellings) : m.Sound := by
  unfold misspellings at known
  simp only [List.mem_cons, List.not_mem_nil, or_false] at known
  rcases known with rfl | rfl | rfl
  · exact ⟨by decide, by decide, by decide, by decide, by decide, by decide⟩
  · exact ⟨by decide, by decide, by decide, by decide, by decide, by decide⟩
  · exact ⟨by decide, by decide, by decide, by decide, by decide, by decide⟩

/-- What begins with a renamed key begins neither with the misspelling nor with a
modifier. -/
theorem Misspelling.Sound.not_begins {m : Misspelling} (sound : m.Sound) (key : Tree) {t : Text}
    (listed : t ∈ m.wrong :: modifierTexts) (rest : Text) :
    ¬ t <+: renamedKey key m.correct ++ rest := by
  rcases renamedKey_eq key m.correct with same | ⟨quote, same⟩
  · rw [same]
    exact not_prefix_append (sound.bare t listed) rest
  · rw [same]
    exact not_prefix_append (sound.quoted t listed quote) rest

/-- A renamed key is not the misspelled one. -/
theorem Misspelling.Sound.not_keyAt {m : Misspelling} (sound : m.Sound) (key : Tree) {t rest : Text}
    {offset : Nat} (begins : t.drop offset = renamedKey key m.correct ++ rest) :
    ¬ t.KeyAt offset m.wrong := by
  intro isKey
  cases isKey with
  | bare h =>
      rw [begins] at h
      exact sound.not_begins key (List.mem_cons_self ..) rest h
  | @quoted quote' rest' width h body =>
      rcases renamedKey_eq key m.correct with same | ⟨quote, same⟩
      · -- A bare name begins with no quote.
        rw [same, h] at begins
        have first : [CodePoint.scalar quote'.mark] <+: m.correct ++ rest := by
          rw [← begins]
          exact List.prefix_append [_] rest'
        exact not_prefix_append (sound.noQuote quote') rest first
      · -- Between the quotes stands the correct name.
        rw [same, h] at begins
        unfold Quote.surround at begins
        rw [List.cons_append, List.cons_append, List.append_assoc, List.singleton_append,
          List.cons.injEq] at begins
        obtain ⟨mark, isRest⟩ := begins
        obtain rfl := Quote.eq_of_mark mark
        rw [isRest, Scan.stringBody_plain (sound.plain quote')] at body
        exact sound.differs (Decoded.mk.inj (Except.ok.inj body)).1.symm

/-- **A renamed key is not misspelled.** -/
theorem MisspelledKey.settled (before : MisspelledKey s v) (on : s.On L) (on' : fixed.On L')
    (applied : fixed.text = f.apply s.text) (carried : v.fix = some f)
    (follows : f.Follows s v []) (code : w.code = v.code) (line : w.line = v.line)
    (column : w.column = v.column) : ¬ MisspelledKey fixed w := by
  intro after
  obtain @⟨m, p, f₀, known, isProperty, isWrong, stands, replaces⟩ := before
  obtain @⟨m', p', f', known', isProperty', isWrong', stands', _⟩ := after
  rw [stands.fix_eq] at carried
  obtain rfl := Option.some.inj carried
  rw [stands.code_eq, stands'.code_eq] at code
  obtain rfl := eq_of_code_eq known known' code
  have sound := misspelling_sound known
  have strict : p.node.form.isLoose = false := by
    rw [isProperty.form]
    rfl
  have strict' : p'.node.form.isLoose = false := by
    rw [isProperty'.form]
    rfl
  -- The key stands where its property does, so that the new name comes to that place.
  obtain ⟨_, _, _, placedKey⟩ := on.placed_of_strict isProperty.key (Source.isLoose_of_keyName? isWrong)
  have wide := placedKey.wide (Source.isSolid_of_keyName? isWrong sound.written.1)
  have site := placedKey.site wide
  rw [← replaces.start] at site wide
  obtain ⟨_, _, _, isPlace, isToken, _, leads⟩ := stands.leads on isProperty.node
    (Source.ne_program_of_strict strict) site wide follows
  cases leads
  have start : f₀.start = p.node.info.start := isToken.trans isPlace.symm
  have begins := stands.drop_eq on on' applied isProperty.node isProperty'.node strict strict'
    stands' start line column
  rw [replaces.newCode_eq] at begins
  obtain ⟨_, _, _, placed⟩ := on'.placed_of_strict isProperty'.node strict'
  rcases placed.key_start isProperty'.form with same | ⟨modifier, listed, h⟩
  · obtain ⟨_, _, _, placedKey⟩ := on'.placed_of_strict isProperty'.key
      (Source.isLoose_of_keyName? isWrong')
    have isKey := placedKey.keyAt isWrong' sound.written
    rw [same, on'.text] at isKey
    exact sound.not_keyAt p.key begins isKey
  · rw [on'.text, begins] at h
    exact sound.not_begins p.key (List.mem_cons_of_mem _ listed) _ h

/-- **Behind a key and a colon an object is no list.** -/
theorem CorsList.settled (before : CorsList s v) (on : s.On L) (on' : fixed.On L')
    (applied : fixed.text = f.apply s.text) (carried : v.fix = some f)
    (opened : Punct.openBrace.text <+: f.newCode)
    (follows : f.Follows s v [.word "cors", .punct .colon]) (line : w.line = v.line)
    (column : w.column = v.column) : ¬ CorsList fixed w := by
  intro after
  obtain @⟨p, _, _, isProperty, _, form, stands, replaces⟩ := before
  obtain @⟨p', _, _, isProperty', isCors', form', stands', _⟩ := after
  rw [stands.fix_eq] at carried
  obtain rfl := carried
  have isPart (statements : List Tree) : p.node.form ≠ .program statements :=
    fun isProgram => nomatch isProperty.form.symm.trans isProgram
  have isPart' (statements : List Tree) : p'.node.form ≠ .program statements :=
    fun isProgram => nomatch isProperty'.form.symm.trans isProgram
  -- The list that is replaced has a token.
  obtain ⟨_, _, _, placedValue⟩ := on.placed_of_strict isProperty.unwrap_value (by rw [form]; rfl)
  have wide := placedValue.wide (by rw [form]; rfl)
  have site := placedValue.site wide
  rw [← replaces f rfl] at site wide
  obtain ⟨i, k, inSize, leads, start, left⟩ := stands.exists_leads on on' applied isProperty.node
    isProperty'.node isPart isPart' stands' site wide follows line column
  obtain ⟨rest, opened⟩ := opened
  rw [← opened] at left
  -- Where a property begins in the same place, its value stands behind the colon.
  obtain ⟨_, _, _, _, placed'⟩ := on'.place_of_part isProperty'.node isPart'
  obtain ⟨i', _, start', _, _, details⟩ := placed'.details (by rw [isProperty'.form]; rfl)
  rw [isProperty'.form] at details
  obtain ⟨isKey, atValue⟩ :
      (L'.token i').lexeme = .word "cors"
        ∧ (L'.StandsBehind .colon i' p'.value → p'.value.info.start = L.startAt k) :=
    Layout.start_behind_key (by decide) leads (.inl rfl) inSize (start'.symm.trans start) left rfl
      (by decide)
  have keyStart := details.2.1.resolve_right <| by
    unfold Token.isModifier Token.isTheWord Token.is
    rw [isKey]
    decide
  have valueStart := atValue (details.2.2 (isCors' ▸ rfl) keyStart)
  obtain ⟨_, _, placedValue'⟩ := placed'.of_mem_children isProperty'.value_mem_children
  have leadsTo := placedValue'.leadsTo_bracket form'
  rw [valueStart] at leadsTo
  rcases leadsTo.head (Layout.drop_of_left (by rw [leads.eq_add]; omega) left) with
    never | never | never <;> exact absurd never (by decide)

end CorsConfig

end

/-! ## §3. Fixes in their place. -/

/-- The codes whose fixes are made where the violation stands. -/
def inPlaceCodes : List Text :=
  ["SST-VAL-001", "SST-VAL-021", "SST-VAL-022", "SST-VAL-023", "SST-VAL-031"]

/-- What stands between a violation with the code and the place of its fix: nothing, the words
in front of a list of parameters, or a name and the sign in front of its value. -/
inductive LeadIn : Text → List Lexeme → Prop where
  | inPlace {code : Text} (listed : code ∈ inPlaceCodes) : LeadIn code []
  | words {names : List Text} (areNames : ∀ name ∈ names, Scan.isWord name = true) :
      LeadIn "SST-VAL-002" (names.map Lexeme.word)
  | stage : LeadIn "SST-VAL-003" [.word "stage", .punct .assign]
  | cors : LeadIn "SST-VAL-024" [.word "cors", .punct .colon]

/-- **A fix in its place settles it.**  When a fix is made where its violation stands, or behind
what leads from there to it, and neither leaves another interpolation in the place of an
interpolation nor anything but an object in the place of a list, then detection on the fixed text
finds nothing with the code in the place of the violation. -/
theorem Fix.settles {path : Path} {text : Text} {s fixed : Source} {v : Violation} {fix : Fix}
    {lead : List Lexeme} (read : Source.ofText path text = .ok s) (proposed : s.Proposes v fix)
    (leadIn : LeadIn v.code lead) (follows : fix.Follows s v lead)
    (freed : v.code = "SST-VAL-031" →
      ¬ (fix.newCode ++ text.drop fix.stop).LeadsTo 0 PulumiOutput.interpolateTag)
    (opened : v.code = "SST-VAL-024" → Punct.openBrace.text <+: fix.newCode)
    (readAgain : Source.ofText path (fix.apply text) = .ok fixed) :
    ¬ fixed.Finds v.code v.line v.column := by
  rintro ⟨again, detectedAgain, w, found, code, line, column⟩
  obtain ⟨detection, detected, reported⟩ := proposed.reported
  obtain ⟨L, on, rfl⟩ := Source.exists_layout read
  obtain ⟨L', on', applied⟩ := Source.exists_layout readAgain
  generalize same : v.code = c at leadIn
  cases leadIn with
  | words areNames =>
      have before := Detector.runSignature_of_code detected reported same
      have after := Detector.runSignature_of_code detectedAgain found (code.trans same)
      exact before.settled on on' applied proposed.carried areNames follows line column after
  | stage =>
      have before := Detector.hardcodedStage_of_code detected reported same
      have after := Detector.hardcodedStage_of_code detectedAgain found (code.trans same)
      exact before.settled on on' applied proposed.carried follows line column after
  | cors =>
      have before := Detector.corsList_of_code detected reported same
      have after := Detector.corsList_of_code detectedAgain found (code.trans same)
      exact before.settled on on' applied proposed.carried (opened same) follows line column after
  | inPlace listed =>
      subst same
      have codes : v.code = "SST-VAL-001" ∨ v.code = "SST-VAL-031"
          ∨ v.code ∈ CorsConfig.misspellings.map CorsConfig.Misspelling.code := by
        unfold inPlaceCodes at listed
        simp only [List.mem_cons, List.not_mem_nil, or_false] at listed
        rcases listed with isStage | isKey | isKey | isKey | isInterpolation
        · exact .inl isStage
        · exact .inr (.inr (by rw [isKey]; decide))
        · exact .inr (.inr (by rw [isKey]; decide))
        · exact .inr (.inr (by rw [isKey]; decide))
        · exact .inr (.inl isInterpolation)
      rcases codes with isStage | isInterpolation | isKey
      · have before := Detector.inputStage_of_code detected reported isStage
        have after := Detector.inputStage_of_code detectedAgain found (code.trans isStage)
        exact before.settled on on' applied proposed.carried line column after
      · have before := Detector.loneInterpolation_of_code detected reported isInterpolation
        have after := Detector.loneInterpolation_of_code detectedAgain found
          (code.trans isInterpolation)
        exact before.settled on on' applied proposed.carried (freed isInterpolation) line column
          after
      · have before := Detector.misspelledKey_of_code detected reported isKey
        have after := Detector.misspelledKey_of_code detectedAgain found (code ▸ isKey)
        exact before.settled on on' applied proposed.carried follows code line column after

/-- Parameters of `run`, a constant stage, CORS settings in a list and a lone interpolation. -/
def unsettled : Text :=
  "const a = \x7b async run(input) \x7b const stage = \"dev\"; new sst.aws.Bucket("
    ++ "$interpolate\x60$\x7bb.id\x7d\x60, \x7b cors: [\x7b a: 1 \x7d] \x7d); \x7d \x7d;"

/-- The codes that are found there, where they are found, and what leads to their fixes. -/
def unsettledPlaces : List (Text × Nat × List Lexeme) :=
  [("SST-VAL-002", 12, [.word "async", .word "run"]),
   ("SST-VAL-003", 37, [.word "stage", .punct .assign]),
   ("SST-VAL-024", 96, [.word "cors", .punct .colon]),
   ("SST-VAL-031", 71, [])]

/-- Every one of the four fixes settles its place. -/
theorem Fix.settles_each :
    ∃ s, Source.ofText ⟨.here, []⟩ unsettled = .ok s ∧ ∀ c ∈ unsettledPlaces,
      ∃ v fix fixed, s.Proposes v fix ∧ v.code = c.1
        ∧ Source.ofText ⟨.here, []⟩ (fix.apply unsettled) = .ok fixed
        ∧ ¬ fixed.Finds v.code v.line v.column := by
  have leadIn : ∀ c ∈ unsettledPlaces, LeadIn c.1 c.2.2 := by
    unfold unsettledPlaces
    simp only [List.mem_cons, List.not_mem_nil, or_false]
    rintro c (rfl | rfl | rfl | rfl)
    · have areNames : ∀ name ∈ (["async", "run"] : List Text), Scan.isWord name = true := by decide
      exact .words areNames
    · exact .stage
    · exact .cors
    · exact .inPlace (by decide)
  have evaluated : (Source.ofText ⟨.here, []⟩ unsettled).toOption.any (fun s =>
      unsettledPlaces.all fun c =>
        ((Detector.builtIn .standard).detect s).toOption.any fun detection =>
          detection.violations.any fun v => v.fix.any fun fix => fix.confidence = .high
            && (v.code = c.1 && (c.2.1 ≤ fix.start && v.line = (s.position c.2.1).line
              && v.column = (s.position c.2.1).column
              && s.text.lexemesBetween c.2.1 fix.start = .ok c.2.2)
              && (v.code = "SST-VAL-031" →
                ¬ Text.LeadsTo (fix.newCode ++ unsettled.drop fix.stop) 0 PulumiOutput.interpolateTag)
              && (v.code = "SST-VAL-024" → Punct.openBrace.text <+: fix.newCode)
              && (Source.ofText ⟨.here, []⟩ (fix.apply unsettled)).toOption.isSome)) = true := by
    decide +kernel
  obtain ⟨s, read, found⟩ := exists_ok_of_any evaluated
  refine ⟨s, read, fun c isCase => ?_⟩
  obtain ⟨v, fix, proposed, found⟩ := Source.exists_proposes_of_any (List.all_eq_true.mp found c isCase)
  simp only [Bool.and_eq_true, decide_eq_true_eq] at found
  obtain ⟨⟨⟨⟨code, ⟨⟨le, line⟩, column⟩, between⟩, freed⟩, opened⟩, fixes⟩ := found
  cases readAgain : Source.ofText ⟨.here, []⟩ (fix.apply unsettled) with
  | error failure =>
      rw [readAgain] at fixes
      cases fixes
  | ok fixed =>
      exact ⟨v, fix, fixed, proposed, code, readAgain,
        Fix.settles read proposed (code ▸ leadIn c isCase) ⟨c.2.1, le, line, column, between⟩ freed
          opened readAgain⟩

/-- An interpolation inside of an interpolation. -/
def nestedInterpolation : Text :=
  "$interpolate\x60$\x7b$interpolate\x60$\x7bx\x7d\x60\x7d\x60"

/-- What was wrapped twice is still wrapped when one wrapper is gone. -/
theorem Fix.not_settles_nested :
    ¬ ∀ (path : Path) (text : Text) (s fixed : Source) (v : Violation) (fix : Fix),
        Source.ofText path text = .ok s → s.complaints = [] → s.Proposes v fix →
        Source.ofText path (fix.apply text) = .ok fixed → ¬ fixed.Finds v.code v.line v.column := by
  intro all
  have evaluated : (Source.ofText ⟨.here, []⟩ nestedInterpolation).toOption.any (fun s =>
      s.complaints = [] && ((Detector.builtIn .standard).detect s).toOption.any fun detection =>
        detection.violations.any fun v => v.fix.any fun fix => fix.confidence = .high
          && (Source.ofText ⟨.here, []⟩ (fix.apply nestedInterpolation)).toOption.any fun fixed =>
            ((Detector.builtIn .standard).detect fixed).toOption.any fun again =>
              again.violations.any fun w =>
                w.code = v.code && w.line = v.line && w.column = v.column) = true := by
    decide +kernel
  obtain ⟨s, read, found⟩ := exists_ok_of_any evaluated
  obtain ⟨wellFormed, found⟩ := Bool.and_eq_true_iff.mp found
  obtain ⟨v, fix, proposed, found⟩ := Source.exists_proposes_of_any found
  obtain ⟨fixed, readAgain, found⟩ := exists_ok_of_any found
  exact all ⟨.here, []⟩ nestedInterpolation s fixed v fix read (of_decide_eq_true wellFormed)
    proposed readAgain (Source.finds_of_any found)

end StackLint
