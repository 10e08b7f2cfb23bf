/-
  StackLint.Proofs.Detection.Respelled
  ────────────────────────────────────
  **RENAMING ALL MISSPELLED KEYS.**

  The fixes of all misspelled keys are made together.  Each of them changes the name
  of one token, so the fixed text has the same tokens in other places, and the parser
  makes of it a tree of the same shape.  The rule finds the same settings there, all
  of them with correct names.
-/
import StackLint.Proofs.Detection.Settled
import StackLint.Proofs.Detection.WellFormed
import StackLint.Proofs.Rule.CorsKeys
import StackLint.Proofs.Token.Respelled
import StackLint.Proofs.View.Matched

namespace StackLint

namespace CorsConfig

/-! ## §1. Correct names. -/

/-- The correct name for a misspelled one; other names stay. -/
def corrected (name : Text) : Text :=
  match misspellings.find? fun m => m.wrong = name with
  | some m => m.correct
  | none => name

theorem corrected_wrong {m : Misspelling} (known : m ∈ misspellings) :
    corrected m.wrong = m.correct := by
  have all : ∀ m ∈ misspellings, corrected m.wrong = m.correct := by decide
  exact all m known

/-- A name that is no misspelling stays. -/
theorem corrected_of_forall_ne {name : Text} (correct : ∀ m ∈ misspellings, name ≠ m.wrong) :
    corrected name = name := by
  have none : (misspellings.find? fun m => m.wrong = name) = none := by
    refine List.find?_eq_none.mpr fun m known isName => ?_
    exact correct m known (of_decide_eq_true isName).symm
  unfold corrected
  rw [none]

theorem correct_ne_wrong {m m' : Misspelling} (known : m ∈ misspellings)
    (known' : m' ∈ misspellings) : m.correct ≠ m'.wrong := by
  have all : ∀ m ∈ misspellings, ∀ m' ∈ misspellings, m.correct ≠ m'.wrong := by decide
  exact all m known m' known'

/-- No correct name is misspelled. -/
theorem corrected_ne_wrong (name : Text) {m : Misspelling} (known : m ∈ misspellings) :
    corrected name ≠ m.wrong := by
  by_cases wrong : ∃ m' ∈ misspellings, name = m'.wrong
  · obtain ⟨m', known', rfl⟩ := wrong
    rw [corrected_wrong known']
    exact correct_ne_wrong known' known
  · have correct : ∀ m ∈ misspellings, name ≠ m.wrong := fun m known same => wrong ⟨m, known, same⟩
    rw [corrected_of_forall_ne correct]
    exact correct m known

theorem corrected_corrected (name : Text) : corrected (corrected name) = corrected name :=
  corrected_of_forall_ne fun _ known => corrected_ne_wrong name known

/-- Of a text that is neither a misspelling nor its correction no other one is the correction. -/
theorem corrected_eq_iff {w : Text} (free : ∀ m ∈ misspellings, w ≠ m.wrong ∧ w ≠ m.correct)
    (name : Text) : corrected name = w ↔ name = w := by
  by_cases wrong : ∃ m ∈ misspellings, name = m.wrong
  · obtain ⟨m, known, rfl⟩ := wrong
    rw [corrected_wrong known]
    exact iff_of_false (free m known).2.symm (free m known).1.symm
  · rw [corrected_of_forall_ne fun m known same => wrong ⟨m, known, same⟩]

/-- Neither the misspellings nor their corrections mean anything to the parser. -/
theorem not_reserved {m : Misspelling} (known : m ∈ misspellings) :
    ¬ Reserved m.wrong ∧ ¬ Reserved m.correct := by
  obtain ⟨x, y, wrong, correct, renameable⟩ := exists_renameable known
  rw [wrong, correct]
  exact ⟨renameable.old.free, renameable.new.free⟩

end CorsConfig

open CorsConfig

/-- **The view in which all names are correct,** and offsets are where they come to. -/
def View.respelling (offset : Nat → Nat) : View where
  offset := offset
  name := corrected
  lead := 0
  keeps kept := corrected_of_forall_ne fun _ known same => (not_reserved known).1 (same ▸ kept)
  apart {name} kept := by
    by_cases wrong : ∃ m ∈ misspellings, name = m.wrong
    · obtain ⟨m, known, rfl⟩ := wrong
      rw [corrected_wrong known] at kept
      exact absurd kept (not_reserved known).2
    · rwa [corrected_of_forall_ne fun m known same => wrong ⟨m, known, same⟩] at kept

/-- It tells apart what is neither misspelled nor a correction. -/
theorem View.tells_respelling (offset : Nat → Nat) {w : Text}
    (free : ∀ m ∈ misspellings, w ≠ m.wrong ∧ w ≠ m.correct) : (respelling offset).Tells w :=
  corrected_eq_iff free

/-! ## §2. Settings from afar. -/

namespace CorsConfig

theorem free_providers {w : Text} (listed : w ∈ Resource.providers) :
    ∀ m ∈ misspellings, w ≠ m.wrong ∧ w ≠ m.correct := by
  have all : ∀ w ∈ Resource.providers, ∀ m ∈ misspellings, w ≠ m.wrong ∧ w ≠ m.correct := by decide
  exact all w listed

variable {v : View} (tells : v.Tells "cors")

include tells

theorem settingsOf_view (r : Resource Span) :
    settingsOf (r.view v) = (settingsOf r).map (Node.Property.view v) := by
  unfold settingsOf
  rw [Resource.findProperty?_view tells]
  cases r.findProperty? "cors" with
  | none => rfl
  | some cors =>
      have same : (cors.view v).value.unwrap.objectMembers?
          = cors.value.unwrap.objectMembers?.map (List.map (Node.view v)) := by
        show (cors.value.view v).unwrap.objectMembers? = _
        rw [Node.unwrap_view, Node.objectMembers?_view]
      rw [Option.map_some, Option.bind_some, Option.bind_some, same]
      cases cors.value.unwrap.objectMembers? with
      | none => rfl
      | some members => exact Node.properties_view v members

theorem listsSettings_view (r : Resource Span) : listsSettings (r.view v) = listsSettings r := by
  unfold listsSettings
  rw [Resource.findProperty?_view tells]
  cases r.findProperty? "cors" with
  | none => rfl
  | some cors =>
      have same : (cors.view v).value.unwrap.form
          = (cors.value.unwrap.form.map (Node.view v)).relabel v := by
        show (cors.value.view v).unwrap.form = _
        rw [Node.unwrap_view, Node.form_view]
      rw [Option.map_some, Option.any_some, Option.any_some, same]
      cases cors.value.unwrap.form <;> rfl

variable (tellsUnknown : v.Tells Resource.unknownName)
  (tellsAll : ∀ w ∈ Resource.providers, v.Tells w)

include tellsUnknown tellsAll

/-- **The same settings.** -/
theorem settings_view (tree : Tree) :
    settings (tree.view v) = (settings tree).map (Node.Property.view v) := by
  unfold settings
  rw [Node.resources_view tellsUnknown tellsAll, List.flatMap_map, List.map_flatMap]
  exact List.flatMap_congr fun r _ => settingsOf_view tells r

theorem countP_listsSettings_view (tree : Tree) :
    (tree.view v).resources.countP listsSettings = tree.resources.countP listsSettings := by
  rw [Node.resources_view tellsUnknown tellsAll, List.countP_map]
  exact List.countP_congr fun r _ => by
    rw [Function.comp_apply, listsSettings_view tells]

omit tells tellsUnknown tellsAll

/-- What the rule looks for is neither misspelled nor a correction. -/
theorem settings_respelling (offset : Nat → Nat) (tree : Tree) :
    settings (tree.view (.respelling offset))
      = (settings tree).map (Node.Property.view (.respelling offset)) :=
  settings_view (View.tells_respelling offset (by decide)) (View.tells_respelling offset (by decide))
    (fun _ listed => View.tells_respelling offset (free_providers listed)) tree

theorem countP_respelling (offset : Nat → Nat) (tree : Tree) :
    (tree.view (.respelling offset)).resources.countP listsSettings
      = tree.resources.countP listsSettings :=
  countP_listsSettings_view (View.tells_respelling offset (by decide))
    (View.tells_respelling offset (by decide))
    (fun _ listed => View.tells_respelling offset (free_providers listed)) tree

end CorsConfig

/-! ## §3. The tokens of misspelled keys. -/

namespace CorsConfig

/-- **The key is written bare, or in quotes without an escape.**  At the end of a line the
closing quote may be missing. -/
inductive WrittenPlainly (s : Source) (key : Tree) (name : Text) : Prop where
  | bare (written : s.textOf key = name)
  | quoted (quote : Quote) (written : s.textOf key = quote.surround name)
  | unclosed (quote : Quote) (written : s.textOf key = .scalar quote.mark :: name)

instance (s : Source) (key : Tree) (name : Text) : Decidable (WrittenPlainly s key name) :=
  decidable_of_iff (s.textOf key = name
      ∨ (s.textOf key = Quote.single.surround name ∨ s.textOf key = Quote.double.surround name)
      ∨ s.textOf key = .scalar Quote.single.mark :: name
      ∨ s.textOf key = .scalar Quote.double.mark :: name) <| by
    constructor
    · rintro (bare | (single | double) | single | double)
      · exact .bare bare
      · exact .quoted .single single
      · exact .quoted .double double
      · exact .unclosed .single single
      · exact .unclosed .double double
    · rintro (bare | ⟨quote, quoted⟩ | ⟨quote, unclosed⟩)
      · exact .inl bare
      · cases quote
        · exact .inr (.inl (.inl quoted))
        · exact .inr (.inl (.inr quoted))
      · cases quote
        · exact .inr (.inr (.inl unclosed))
        · exact .inr (.inr (.inr unclosed))

section

variable {L : Layout} {i : Nat} {f : Fix} {c : CodePoint} {x y : Text}
  (renameable : Scan.Renameable c x c y) (spelled : corrected (c :: x) = c :: y)
  (start : f.start = L.startAt i)

include renameable spelled start

/-- A bare name is a word. -/
theorem respells_bare (inside : i < L.size) (stop_le : f.stop ≤ L.text.length)
    (short : L.stopBefore (i + 1) ≤ f.stop)
    (left : L.text.drop f.start = c :: x ++ L.text.drop f.stop) (newCode : f.newCode = c :: y) :
    f.Respells corrected L.text (L.token i) ∧ (L.token i).lexeme.value = c :: x := by
  have width := Text.stop_eq_of_drop f.start_le_stop stop_le left
  -- The token is no longer than the name, so the name goes no further.
  have ends : ∀ e ∈ (L.text.drop f.stop).head?, Scan.isFlag e = false := by
    refine L.ends_of_short renameable.old inside (start ▸ left) ?_
    rw [← start, ← width]
    exact short
  obtain ⟨isLexeme, isStop⟩ := Layout.token_of_reads inside (start ▸ left) fun _ _ =>
    Scan.lexeme_name ⟨renameable.old.start, renameable.old.goesOn, ends⟩
  refine ⟨.mk start (width.trans (start ▸ isStop.symm)) ?_ left newCode renameable.replaceable ?_ ?_,
    ?_⟩
  · rw [isLexeme]
    rfl
  · intro z sameHead braces previous
    rw [isLexeme, Lexeme.respell, spelled]
    refine Scan.lexeme_name ⟨renameable.new.start, renameable.new.goesOn, ?_⟩
    rw [sameHead]
    exact ends
  · rw [isLexeme, Lexeme.respell, spelled, renameable.new.regexAllowed_eq_false,
      renameable.old.regexAllowed_eq_false]
  · rw [isLexeme]
    rfl

/-- A quoted name is a string. -/
theorem respells_quoted {quote : Quote} {old : Text}
    (left : L.text.drop f.start = .scalar quote.mark :: (old ++ L.text.drop f.stop))
    (newCode : f.newCode = quote.surround (c :: y))
    (replaceable : Scan.Replaceable (.scalar quote.mark) old (.scalar quote.mark)
      (c :: y ++ [.scalar quote.mark]))
    (isLexeme : (L.token i).lexeme = .string quote (c :: x)) (isStop : L.stopBefore (i + 1) = f.stop) :
    f.Respells corrected L.text (L.token i) ∧ (L.token i).lexeme.value = c :: x := by
  refine ⟨.mk start isStop.symm ?_ left newCode replaceable ?_ ?_, ?_⟩
  · rw [isLexeme]
    rfl
  · intro z _ braces previous
    rw [isLexeme, Lexeme.respell, spelled]
    exact Scan.lexeme_surrounded renameable.new.flags quote braces previous
  · rw [isLexeme]
    rfl
  · rw [isLexeme]
    rfl

end

variable {s : Source} {L : Layout} {p : Node.Property Span} {m : Misspelling} {f : Fix}

/-- **The fix of a misspelled key gives its token the correct name.** -/
theorem exists_respells (on : s.On L) (isProperty : Node.IsPropertyOf p s.tree)
    (known : m ∈ misspellings) (isWrong : p.key.keyName? = some m.wrong)
    (replaces : f.Replaces p.key (renamedKey p.key m.correct))
    (written : WrittenPlainly s p.key m.wrong) :
    ∃ i, i < L.size ∧ f.Respells corrected L.text (L.token i)
      ∧ (L.token i).lexeme.value = m.wrong := by
  obtain ⟨x, y, wrong, correct, renameable⟩ := exists_renameable known
  have spelled := corrected_wrong known
  have named := (misspelling_sound known).written
  have strict := Source.isLoose_of_keyName? isWrong
  obtain ⟨_, _, _, placed⟩ := on.placed_of_strict isProperty.key strict
  obtain ⟨i, inside, start, short, _⟩ := on.exists_token isProperty.key strict
    (Source.isPlaceholder_of_keyName? isWrong named.1)
    (placed.wide (Source.isSolid_of_keyName? isWrong named.1))
  have renamed := renamedKey_spec placed isWrong named m.correct
  have stop_le := placed.stop_le
  have left {old : Text} (written : s.textOf p.key = old) :
      L.text.drop f.start = old ++ L.text.drop f.stop := by
    refine Text.drop_eq_of_slice f.start_le_stop (Eq.trans ?_ written)
    rw [replaces.start, replaces.stop, on.text]
    rfl
  rw [← replaces.newCode_eq, ← replaces.start] at renamed
  rw [← replaces.start] at start
  rw [← replaces.stop] at short stop_le
  rw [wrong, correct] at spelled renamed
  rw [wrong] at written ⊢
  have notQuote (quote : Quote) : CodePoint.scalar 'a' ≠ .scalar quote.mark := by
    cases quote <;> decide
  -- The new name stands in the quotes of the old one.
  have newCode_quoted {quote : Quote} {rest : Text}
      (begins : L.text.drop f.start = .scalar quote.mark :: rest) :
      f.newCode = quote.surround (.scalar 'a' :: y) := by
    rcases renamed with ⟨begins', _⟩ | ⟨quote', rest', begins', newCode⟩
    · rw [begins] at begins'
      exact absurd (List.cons_prefix_cons.mp begins').1 (notQuote quote)
    · rw [begins] at begins'
      rw [newCode, Quote.eq_of_mark (List.cons.inj begins').1]
  refine ⟨i, inside, ?_⟩
  rcases written with old | ⟨quote, old⟩ | ⟨quote, old⟩
  · have left := left old
    refine respells_bare renameable spelled start inside stop_le short left ?_
    rcases renamed with ⟨_, newCode⟩ | ⟨quote, rest, begins, _⟩
    · exact newCode
    · rw [left] at begins
      exact absurd (List.cons.inj begins).1 (notQuote quote)
  · have left := left old
    have width := Text.stop_eq_of_drop f.start_le_stop stop_le left
    obtain ⟨isLexeme, isStop⟩ := Layout.token_of_reads inside (start ▸ left)
      (Scan.lexeme_surrounded renameable.old.flags quote)
    refine respells_quoted renameable spelled start left (newCode_quoted left)
      (renameable.replaceable_quoted quote) isLexeme ?_
    rw [isStop, width, start]
    rfl
  · have left := left old
    have width := Text.stop_eq_of_drop f.start_le_stop stop_le left
    rw [List.length_cons, start] at width
    obtain ⟨isLexeme, isStop⟩ := Layout.token_of_unclosed inside
      (Scan.plain_of_all_isFlag renameable.old.flags quote) (start ▸ left) (width ▸ short)
    refine respells_quoted renameable spelled start left (newCode_quoted left)
      (renameable.replaceable_unclosed quote) isLexeme ?_
    rw [isStop, width]

/-- The token of a key has its name. -/
theorem exists_keyToken (on : s.On L) {key : Tree} (inside : key ∈ s.tree.preorder) {name : Text}
    (named : key.keyName? = some name) (free : ¬ Reserved name) :
    ∃ i, i < L.size ∧ key.info.start = L.startAt i ∧ (L.token i).lexeme.value = name := by
  have nonempty : name ≠ [] := fun isNil => free (isNil ▸ .short (Nat.zero_le 1))
  have notNew : name ≠ "new" := fun isNew => free (isNew ▸ .word (by decide))
  have strict := Source.isLoose_of_keyName? named
  obtain ⟨_, _, _, placed⟩ := on.placed_of_strict inside strict
  obtain ⟨i, inside, start, _, _, _, details⟩ := on.exists_token inside strict
    (Source.isPlaceholder_of_keyName? named nonempty)
    (placed.wide (Source.isSolid_of_keyName? named nonempty))
  refine ⟨i, inside, start, ?_⟩
  unfold Node.keyName? at named
  split at named
  · next form =>
      cases named
      rw [form] at details
      rcases details with isNil | isNew | isWord
      · exact absurd isNil nonempty
      · exact absurd isNew notNew
      · rw [isWord]
        rfl
  · next form =>
      cases named
      rw [form] at details
      rw [show (L.token i).lexeme = _ from details]
      rfl
  · next form =>
      cases named
      rw [form] at details
      rw [show (L.token i).lexeme = _ from details]
      rfl
  · cases named

end CorsConfig

/-! ## §4. The fixed text. -/

theorem Lexeme.value_respell {spell : Text → Text} {l : Lexeme} (naming : l.isNaming = true) :
    (l.respell spell).value = spell l.value := by
  cases l <;> first | rfl | cases naming

/-- In the view in which all names are correct, tokens only move. -/
theorem Token.view_respelled (fixes : List Fix) (t : Token) :
    (t.respelled corrected fixes).view (.respelling id)
      = t.view (.respelling (Fix.shifted fixes)) := by
  have same (offset : Nat → Nat) (l : Lexeme) :
      (l.respell corrected).view (.respelling offset) = l.view (.respelling offset) := by
    cases l with
    | word name => exact congrArg Lexeme.word (corrected_corrected name)
    | string quote value => exact congrArg (Lexeme.string quote) (corrected_corrected value)
    | _ => rfl
  have other (l : Lexeme) :
      l.view (.respelling id) = l.view (.respelling (Fix.shifted fixes)) := by
    cases l <;> rfl
  unfold Token.respelled Token.view
  simp only [Token.mk.injEq, and_true]
  refine ⟨?_, rfl, rfl⟩
  split
  · rw [same, other]
  · exact other _

namespace CorsConfig

variable {s fixed : Source} {L L' : Layout} {fixes : List Fix}

/-- What is known of the fixes of all misspelled keys. -/
structure RenameAll (s : Source) (L : Layout) (fixes : List Fix) : Prop where
  respell : ∀ f ∈ fixes, ∃ i, i < L.size ∧ f.Respells corrected L.text (L.token i)
    ∧ ∃ m ∈ misspellings, (L.token i).lexeme.value = m.wrong
  differ : fixes.Pairwise fun f g => f.start ≠ g.start
  cover : ∀ p ∈ settings s.tree, isMisspelled p = true → ∃ f ∈ fixes, f.start = p.key.info.start

/-- A setting of the fixed text was there before, with the same name but for its spelling. -/
theorem exists_setting
    (shape : fixed.tree.view (.respelling id) = s.tree.view (.respelling (Fix.shifted fixes)))
    {p' : Node.Property Span} (isSetting' : p' ∈ settings fixed.tree) :
    ∃ p ∈ settings s.tree, Fix.shifted fixes p.key.info.start = p'.key.info.start
      ∧ p.key.keyName?.map corrected = p'.key.keyName?.map corrected := by
  have same : (settings fixed.tree).map (Node.Property.view (.respelling id))
      = (settings s.tree).map (Node.Property.view (.respelling (Fix.shifted fixes))) := by
    rw [← settings_respelling, ← settings_respelling, shape]
  have seen : p'.view (.respelling id)
      ∈ (settings s.tree).map (Node.Property.view (.respelling (Fix.shifted fixes))) :=
    same ▸ List.mem_map_of_mem isSetting'
  obtain ⟨p, isSetting, looks⟩ := List.mem_map.mp seen
  have looksKey : p.key.view (.respelling (Fix.shifted fixes)) = p'.key.view (.respelling id) :=
    congrArg Node.Property.key looks
  have starts := congrArg (fun n : Tree => n.info.start) looksKey
  have names := congrArg Node.keyName? looksKey
  rw [Node.view_info, Node.view_info] at starts
  rw [Node.keyName?_view, Node.keyName?_view] at names
  exact ⟨p, isSetting, starts, names⟩

/-- What has the correct name for a key looks like no word of the language. -/
theorem not_reserved_of_corrected {m : Misspelling} (known : m ∈ misspellings) {name : Text}
    (isCorrect : corrected name = m.correct) : ¬ Reserved name := by
  intro kept
  have stays : corrected name = name := (View.respelling id).keeps kept
  rw [← stays, isCorrect] at kept
  exact (not_reserved known).2 kept

/-- **No token that was fixed is misspelled,** nor is one that was not misspelled before. -/
theorem RenameAll.value_ne_wrong (all : RenameAll s L fixes) {i : Nat} (inside : i < L.size)
    {m : Misspelling} (known : m ∈ misspellings)
    (covered : (L.token i).lexeme.value = m.wrong → ∃ f ∈ fixes, f.start = L.startAt i) :
    ((L.token i).respelled corrected fixes).lexeme.value ≠ m.wrong := by
  intro wrong
  unfold Token.respelled at wrong
  by_cases isFixed : ∃ f ∈ fixes, f.start = (L.token i).start
  · obtain ⟨f, isFix, place⟩ := isFixed
    obtain ⟨k, inside', ⟨first, _, naming⟩, _⟩ := all.respell f isFix
    obtain rfl := L.eq_of_startAt_eq inside' inside (first.symm.trans place)
    rw [if_pos ⟨f, isFix, place⟩, Lexeme.value_respell naming] at wrong
    exact corrected_ne_wrong _ known wrong
  · rw [if_neg isFixed] at wrong
    exact isFixed (covered wrong)

/-- **No key is misspelled any more.** -/
theorem RenameAll.settled (all : RenameAll s L fixes) (on : s.On L) (on' : fixed.On L')
    (tokens : L'.tokens = L.tokens.map (Token.respelled corrected fixes))
    (shape : fixed.tree.view (.respelling id) = s.tree.view (.respelling (Fix.shifted fixes))) :
    (settings fixed.tree).filter isMisspelled = [] := by
  have size : L'.size = L.size := by
    unfold Layout.size
    rw [tokens, List.length_map]
  have respelled {k : Nat} (inside : k < L.size) :
      L'.token k = (L.token k).respelled corrected fixes := by
    unfold Layout.token
    rw [tokens, List.getElem?_map, List.getElem?_eq_getElem inside]
    rfl
  refine List.filter_eq_nil_iff.mpr fun p' isSetting' wrong => ?_
  obtain ⟨m, known, isWrong⟩ := isMisspelled_iff.mp wrong
  obtain ⟨p, isSetting, sameStart, sameName⟩ := exists_setting shape isSetting'
  rw [isWrong, Option.map_some, corrected_wrong known] at sameName
  obtain ⟨name, named, isCorrect⟩ := Option.map_eq_some_iff.mp sameName
  obtain ⟨i, inside, start, value⟩ := exists_keyToken on
    (isPropertyOf_of_mem_settings isSetting).key named (not_reserved_of_corrected known isCorrect)
  obtain ⟨i', inside', start', value'⟩ := exists_keyToken on'
    (isPropertyOf_of_mem_settings isSetting').key isWrong (not_reserved known).1
  -- Both keys are the same token.
  obtain rfl : i = i' := by
    refine L'.eq_of_startAt_eq (size ▸ inside) inside' ?_
    rw [← start', ← sameStart, start]
    exact congrArg Token.start (respelled inside)
  rw [respelled inside] at value'
  refine all.value_ne_wrong inside known (fun wasWrong => ?_) value'
  rw [wasWrong] at value
  have wasMisspelled := isMisspelled_iff.mpr ⟨m, known, named.trans (congrArg some value.symm)⟩
  obtain ⟨f, isFix, place⟩ := all.cover p isSetting wasMisspelled
  exact ⟨f, isFix, place.trans start⟩

/-! ## §5. All fixes of the rule. -/

/-- The fixes of the violations that rename keys. -/
def renamingFixes (found : List Violation) : List Fix :=
  (found.filter renames).filterMap Violation.fix

/-- The fix renames this key. -/
inductive RenamesKey (p : Node.Property Span) (f : Fix) : Prop where
  | mk {m : Misspelling} (known : m ∈ misspellings) (isWrong : p.key.keyName? = some m.wrong)
      (replaces : f.Replaces p.key (renamedKey p.key m.correct))

theorem fixes_of_flags {ps : List (Node.Property Span)} {vs : List Violation}
    (flags : List.Forall₂ Flags ps vs) : List.Forall₂ RenamesKey ps (vs.filterMap Violation.fix) := by
  induction flags with
  | nil => exact .nil
  | cons first _ ih =>
      obtain ⟨known, isWrong, _, carried, replaces⟩ := first
      rw [List.filterMap_cons_some carried]
      exact .cons ⟨known, isWrong, replaces⟩ ih

/-- The fixes begin where the keys do. -/
theorem starts_of_related {ps : List (Node.Property Span)} {fixes : List Fix}
    (related : List.Forall₂ RenamesKey ps fixes) :
    fixes.map Fix.start = ps.map fun p => p.key.info.start := by
  induction related with
  | nil => rfl
  | cons first _ ih =>
      obtain ⟨_, _, replaces⟩ := first
      rw [List.map_cons, List.map_cons, ih, replaces.start]

theorem exists_of_forall₂ {α β : Type} {R : α → β → Prop} {as : List α} {bs : List β}
    (related : List.Forall₂ R as bs) {a : α} (inside : a ∈ as) : ∃ b ∈ bs, R a b := by
  induction related with
  | nil => exact absurd inside List.not_mem_nil
  | cons first _ ih =>
      rcases List.mem_cons.mp inside with rfl | inside
      · exact ⟨_, List.mem_cons_self .., first⟩
      · obtain ⟨b, isOther, related⟩ := ih inside
        exact ⟨b, List.mem_cons_of_mem _ isOther, related⟩

/-- The fixes of the rule rename all misspelled keys, each of them once. -/
theorem renameAll {path : Path} {text : Text} {found : List Violation}
    (read : Source.ofText path text = .ok s) (on : s.On L)
    (written : ∀ p ∈ settings s.tree, ∀ m ∈ misspellings, p.key.keyName? = some m.wrong →
      WrittenPlainly s p.key m.wrong)
    (detected : detect s = .ok found) : RenameAll s L (renamingFixes found) := by
  have related := fixes_of_flags (detect_flags detected).1
  refine ⟨fun f isFix => ?_, ?_, fun p isSetting wrong => ?_⟩
  · obtain ⟨p, isKey, @⟨m, known, isWrong, replaces⟩⟩ := exists_of_forall₂ related.flip isFix
    have isSetting := (List.mem_filter.mp isKey).1
    obtain ⟨i, inside, respells, value⟩ := exists_respells on (isPropertyOf_of_mem_settings isSetting)
      known isWrong replaces (written p isSetting m known isWrong)
    exact ⟨i, inside, respells, m, known, value⟩
  · have starts := starts_of_related related
    have apart := misspelled_apart read
    rw [← List.pairwise_map, ← starts, List.pairwise_map] at apart
    exact apart
  · obtain ⟨f, isFix, @⟨m, known, isWrong, replaces⟩⟩ :=
      exists_of_forall₂ related (List.mem_filter.mpr ⟨isSetting, wrong⟩)
    exact ⟨f, isFix, replaces.start⟩

/-- **The fixed text:** its tokens are those of the text, moved, in which the tokens of the fixes
have correct names; and its tree has the same shape. -/
structure Respelled (s fixed : Source) (fixes : List Fix) : Prop where
  tokens : ∃ tokens, tokenize s.text = .ok tokens
    ∧ tokenize fixed.text = .ok (tokens.map (Token.respelled corrected fixes))
    ∧ ∀ f ∈ fixes, ∃ t ∈ tokens, f.start = t.start ∧ f.stop = t.stop ∧ t.lexeme.isNaming = true
      ∧ ∃ m ∈ misspellings, t.lexeme.value = m.wrong
  shape : fixed.tree.view (.respelling id) = s.tree.view (.respelling (Fix.shifted fixes))

/-- Each of the fixes is about a token. -/
theorem RenameAll.exists_token (all : RenameAll s L fixes) {f : Fix} (isFix : f ∈ fixes) :
    ∃ t ∈ L.tokens ++ [L.final], f.Respells corrected L.text t
      ∧ ∃ m ∈ misspellings, t.lexeme.value = m.wrong := by
  obtain ⟨i, inside, respells, wrong⟩ := all.respell f isFix
  refine ⟨L.token i, List.mem_append_left _ ?_, respells, wrong⟩
  rw [L.token_of_lt inside]
  exact List.get_mem _ _

/-- The tokens of the fixed text. -/
theorem RenameAll.tokenize_eq (all : RenameAll s L fixes) :
    tokenize (Fix.applyAll fixes L.text)
      = .ok ((L.tokens ++ [L.final]).map (Token.respelled corrected fixes)) :=
  tokenize_applyAll L.scanned (fun _ isFix => (all.exists_token isFix).imp fun _ h => ⟨h.1, h.2.1⟩)
    all.differ

/-- The end of the text comes to the end of the fixed text. -/
theorem RenameAll.shifted_length (all : RenameAll s L fixes) :
    (Fix.applyAll fixes L.text).length = Fix.shifted fixes L.text.length := by
  obtain ⟨L', sameText, same⟩ := Layout.exists_of_tokenize all.tokenize_eq
  rw [List.map_append] at same
  -- The final token stands at the end of each text.
  have final : L.final.respelled corrected fixes = L'.final :=
    (List.cons.inj (List.append_inj' same rfl).2).1
  rw [← sameText, ← L'.final_spec.2.1, ← final, ← L.final_spec.2.1]
  rfl

/-- **The fixed text is read,** and it looks like the text. -/
theorem RenameAll.exists_fixed {path : Path} (all : RenameAll s L fixes)
    (read : Source.ofText path L.text = .ok s) :
    ∃ fixed, Source.ofText path (Fix.applyAll fixes L.text) = .ok fixed
      ∧ Respelled s fixed fixes := by
  obtain ⟨program, parsed, isSource⟩ := bind_eq_ok.mp read
  have origin : (0 : Nat) = Fix.shifted fixes 0 := by
    refine (Fix.shifted_of_lt fun f isFix => ?_).symm
    obtain ⟨t, isToken, respells, _⟩ := all.exists_token isFix
    exact Nat.zero_lt_of_lt (respells.inside L.scanned isToken).1
  -- With all names correct the tokens of both texts look the same, so the parser cannot tell them.
  have looks : ((L.tokens ++ [L.final]).map (Token.respelled corrected fixes)).map
      (Token.view (.respelling id))
      = (L.tokens ++ [L.final]).map (Token.view (.respelling (Fix.shifted fixes))) := by
    rw [List.map_map]
    exact List.map_congr_left fun t _ => t.view_respelled fixes
  obtain ⟨program', parsed', shape⟩ := exists_parse_view_eq L.scanned all.tokenize_eq looks origin
    all.shifted_length rfl parsed
  cases isSource
  refine ⟨_, bind_eq_ok.mpr ⟨program', parsed', rfl⟩, ⟨_, L.scanned, all.tokenize_eq, ?_⟩, ?_⟩
  · intro f isFix
    obtain ⟨t, isToken, respells, wrong⟩ := all.exists_token isFix
    obtain ⟨start, stop, naming⟩ := respells
    exact ⟨t, isToken, start, stop, naming, wrong⟩
  · exact congrArg Program.tree shape

/-- The settings of as many resources are arrays. -/
theorem Respelled.countP_eq (respelled : Respelled s fixed fixes) :
    fixed.tree.resources.countP listsSettings = s.tree.resources.countP listsSettings := by
  rw [← countP_respelling id, respelled.shape, countP_respelling]

end CorsConfig

open CorsConfig in
/-- **All misspelled keys are renamed at once.**  If they are written bare or in quotes without
an escape, the fixes of the rule make of the text one with the same tokens and a tree of the same
shape, in which no key is misspelled, and as many settings are arrays. -/
theorem Rule.corsKeys_renamed {path : Path} {text : Text} {s : Source}
    (read : Source.ofText path text = .ok s)
    (written : ∀ p ∈ settings s.tree, ∀ m ∈ misspellings, p.key.keyName? = some m.wrong →
      WrittenPlainly s p.key m.wrong) :
    ∃ found fixed again, corsConfig.detect s = .ok found
      ∧ Source.ofText path (Fix.applyAll (renamingFixes found) text) = .ok fixed
      ∧ Respelled s fixed (renamingFixes found)
      ∧ corsConfig.detect fixed = .ok again
      ∧ (∀ v ∈ again, v.code ∉ renamingCodes)
      ∧ again.countP isAboutArray = found.countP isAboutArray := by
  obtain ⟨L, on, rfl⟩ := Source.exists_layout read
  obtain ⟨found, detected, _⟩ := CorsConfig.detect_reports on
  have all := renameAll read on written detected
  rw [← on.text] at read ⊢
  obtain ⟨fixed, readAgain, respelled⟩ := all.exists_fixed read
  obtain ⟨L', on', isFixedText⟩ := Source.exists_layout readAgain
  obtain ⟨again, detectedAgain, _⟩ := CorsConfig.detect_reports on'
  obtain ⟨flags, arrays⟩ := detect_flags detectedAgain
  have sameTokens : L'.tokens = L.tokens.map (Token.respelled corrected (renamingFixes found)) := by
    have run := L'.scanned
    rw [on'.text, isFixedText, all.tokenize_eq, List.map_append] at run
    exact (List.append_inj' (Except.ok.inj run) rfl).1.symm
  refine ⟨found, fixed, again, detected, readAgain, respelled, detectedAgain, ?_, ?_⟩
  · intro v inside code
    have settled := all.settled on on' sameTokens respelled.shape
    rw [settled, List.forall₂_nil_left_iff] at flags
    have kept := List.filter_eq_nil_iff.mp flags v inside
    exact kept (List.contains_iff_mem.mpr code)
  · rw [arrays, respelled.countP_eq]
    exact (detect_flags detected).2.symm

/-- A bucket with two misspelled keys, one of them in quotes. -/
def misspelledBucket : Text :=
  "new sst.aws.Bucket(\"B\", \x7b cors: \x7b allowedOrigins: 1, \"allowedMethods\": 2 \x7d \x7d)"

open CorsConfig in
/-- Both of them are renamed, and then none is misspelled. -/
theorem Rule.corsKeys_renamed_bucket :
    ∃ s found fixed again, Source.ofText ⟨.here, []⟩ misspelledBucket = .ok s
      ∧ corsConfig.detect s = .ok found
      ∧ (renamingFixes found).map Fix.newCode = ["allowOrigins", "\"allowMethods\""]
      ∧ Source.ofText ⟨.here, []⟩ (Fix.applyAll (renamingFixes found) misspelledBucket) = .ok fixed
      ∧ corsConfig.detect fixed = .ok again ∧ ∀ v ∈ again, v.code ∉ renamingCodes := by
  have evaluated : (Source.ofText ⟨.here, []⟩ misspelledBucket).toOption.any (fun s =>
      (settings s.tree).all (fun p => misspellings.all fun m =>
        p.key.keyName? ≠ some m.wrong || WrittenPlainly s p.key m.wrong)
      && (CorsConfig.detect s).toOption.any fun found => (renamingFixes found).map Fix.newCode
        = [Text.ofString "allowOrigins", Text.ofString "\"allowMethods\""]) = true := by
    decide +kernel
  obtain ⟨s, read, evaluated⟩ := exists_ok_of_any evaluated
  obtain ⟨written, evaluated⟩ := Bool.and_eq_true_iff.mp evaluated
  obtain ⟨found, isOk, newCodes⟩ := exists_ok_of_any evaluated
  obtain ⟨found', fixed, again, detected, readAgain, _, detectedAgain, settled, _⟩ :=
    Rule.corsKeys_renamed read fun p isSetting m known isWrong => by
      have shown := List.all_eq_true.mp (List.all_eq_true.mp written p isSetting) m known
      simpa [isWrong] using shown
  obtain rfl : found' = found := Except.ok.inj (detected.symm.trans isOk)
  exact ⟨s, found', fixed, again, read, detected, of_decide_eq_true newCodes, readAgain,
    detectedAgain, settled⟩

end StackLint
