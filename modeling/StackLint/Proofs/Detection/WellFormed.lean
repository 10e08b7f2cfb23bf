/-
  StackLint.Proofs.Detection.WellFormed
  ─────────────────────────────────────
  **FIXES THAT KEEP A TEXT WELL FORMED.**

  A fix that gives a name or a key another name leaves the text as well formed as
  it was: to the parser the two names mean the same.  A fix that takes brackets
  away gives no such guarantee.
-/
import StackLint.Proofs.Parse.Lead
import StackLint.Proofs.Rule.Basic
import StackLint.Proofs.Rule.Found
import StackLint.Proofs.View.Renaming

namespace StackLint

/-! ## §1. Names that mean nothing to the parser. -/

/-- The name `input` may become `$app`. -/
theorem renameable_input :
    Scan.Renameable 'i' (Text.ofString "nput") '$' (Text.ofString "app") where
  old := .of_spelling (s := "input") rfl (.inr (by decide)) (by decide) (by decide) (by decide)
    (by decide)
  new := .of_spelling (s := "$app") rfl (.inl rfl) (by decide) (by decide) (by decide) (by decide)
  plain := by decide
  hex := by decide

/-- A misspelled name may become the correct one, which begins with the same
letter. -/
theorem CorsConfig.exists_renameable {m : Misspelling} (known : m ∈ misspellings) :
    ∃ x y, m.wrong = .scalar 'a' :: x ∧ m.correct = .scalar 'a' :: y
      ∧ Scan.Renameable 'a' x 'a' y := by
  have letter : CodePoint.scalar 'a' = .scalar '$'
      ∨ ((CodePoint.scalar 'a').isWordCharacter = true ∧ (CodePoint.scalar 'a').isDigit = false) :=
    .inr (by decide)
  have plain : CodePoint.scalar 'a' ∉ Scan.continuers := by decide
  unfold misspellings at known
  simp only [List.mem_cons, List.not_mem_nil, or_false] at known
  rcases known with rfl | rfl | rfl
  · refine ⟨_, _, rfl, rfl, ?_, ?_, plain, id⟩
    · exact .of_spelling (s := "allowedOrigins") rfl letter (by decide) (by decide) (by decide)
        (by decide)
    · exact .of_spelling (s := "allowOrigins") rfl letter (by decide) (by decide) (by decide)
        (by decide)
  · refine ⟨_, _, rfl, rfl, ?_, ?_, plain, id⟩
    · exact .of_spelling (s := "allowedMethods") rfl letter (by decide) (by decide) (by decide)
        (by decide)
    · exact .of_spelling (s := "allowMethods") rfl letter (by decide) (by decide) (by decide)
        (by decide)
  · refine ⟨_, _, rfl, rfl, ?_, ?_, plain, id⟩
    · exact .of_spelling (s := "allowedHeaders") rfl letter (by decide) (by decide) (by decide)
        (by decide)
    · exact .of_spelling (s := "allowHeaders") rfl letter (by decide) (by decide) (by decide)
        (by decide)

/-! ## §2. Places. -/

/-- A node with a text begins with a token, which is no longer than the node. -/
theorem Source.On.exists_token {s : Source} {L : Layout} (on : s.On L) {n : Tree}
    (inside : n ∈ s.tree.preorder) (strict : n.form.isLoose = false)
    (noPlaceholder : n.form.isPlaceholder = false) (nonempty : n.info.start < n.info.stop) :
    ∃ i, i < L.size ∧ n.info.start = L.startAt i ∧ L.stopBefore (i + 1) ≤ n.info.stop
      ∧ ∃ heard j, n.form.Details L heard i j := by
  obtain ⟨_, _, _, placed⟩ := on.placed_of_strict inside strict
  obtain ⟨i, j, start, stop, _, details⟩ := placed.details noPlaceholder
  rw [start, stop] at nonempty
  have before : i < j := by
    refine Nat.lt_of_not_le fun h => ?_
    have one := L.stopBefore_mono h
    have two := L.stopBefore_le_startAt i
    omega
  refine ⟨i, ?_, start, ?_, _, j, details⟩
  · refine Nat.lt_of_not_le fun h => ?_
    have one := L.startAt_of_le h
    have two := L.stopBefore_le j
    omega
  · rw [stop]
    exact L.stopBefore_mono before

/-- The text of a source that was read is parsed into its tree. -/
theorem Source.parse_of_ofText {path : Path} {text : Text} {s : Source}
    (read : ofText path text = .ok s) :
    ∃ program, parse text = .ok program ∧ s.complaints = program.complaints := by
  unfold ofText at read
  obtain ⟨program, parsed, isSource⟩ := bind_eq_ok.mp read
  cases isSource
  exact ⟨program, parsed, rfl⟩

theorem Source.exists_ofText (path : Path) {text : Text} {program : Program}
    (parsed : parse text = .ok program) :
    ∃ s, ofText path text = .ok s ∧ s.complaints = program.complaints := by
  unfold ofText
  rw [parsed]
  exact ⟨_, rfl, rfl⟩

/-! ## §3. Fixes that rename. -/

/-- **The fix renames what is written without detours:** an access to
`input.stage`, or a misspelled key, bare or in quotes. -/
inductive Fix.Renames (text : Text) (v : Violation) (f : Fix) : Prop where
  | stage (code : v.code = "SST-VAL-001") (old : text.slice f.start f.stop = "input.stage")
  | key {m : CorsConfig.Misspelling} (known : m ∈ CorsConfig.misspellings) (code : v.code = m.code)
      (old : text.slice f.start f.stop = m.wrong
        ∨ ∃ quote : Quote, text.slice f.start f.stop = quote.surround m.wrong)

section

variable {s : Source} {L : Layout} {v : Violation} {f : Fix} {program : Program}

/-- Another stage makes no further complaint. -/
theorem StageVariable.InputStage.exists_parse (found : InputStage s v) (on : s.On L)
    (carried : v.fix = some f) (old : L.text.slice f.start f.stop = "input.stage")
    (parsed : parse L.text = .ok program) :
    ∃ program', parse (f.apply L.text) = .ok program'
      ∧ program'.complaints.length = program.complaints.length := by
  obtain @⟨n, object, name, optional, f', inside, form, _, _, stands, replaces⟩ := found
  rw [stands.fix_eq] at carried
  obtain rfl := Option.some.inj carried
  have nonempty := Text.lt_of_slice (old.trans_ne (by decide))
  rw [replaces.start, replaces.stop] at nonempty
  obtain ⟨i, isToken, start, _⟩ := on.exists_token inside (by rw [form]; rfl) (by rw [form]; rfl)
    nonempty
  have left := Text.drop_eq_of_slice f'.start_le_stop old
  rw [replaces.start, start] at left
  -- The text behind the name stays, so the fix only renames it.
  obtain ⟨program', parsed', same⟩ := L.exists_parse_renamedName renameable_input isToken
    (z := Text.ofString ".stage" ++ L.text.drop f'.stop) left (by rintro _ ⟨⟩; rfl) parsed
  refine ⟨program', ?_, same⟩
  rw [← parsed', ← start, ← replaces.start]
  unfold Fix.apply
  rw [replaces.newCode_eq, List.append_assoc, List.append_assoc]
  rfl

namespace CorsConfig

/-- A key is renamed bare, or in the quotes in which it stands. -/
theorem renamedKey_spec {heard : Complaint → Prop} {lo hi : Nat} {key : Tree} {name : Text}
    (placed : Placed L heard lo hi key) (named : key.keyName? = some name)
    (written : name ≠ [] ∧ name ≠ "new") (newName : Text) :
    (name <+: L.text.drop key.info.start ∧ renamedKey key newName = newName)
      ∨ ∃ (quote : Quote) (rest : Text), L.text.drop key.info.start = .scalar quote.mark :: rest
        ∧ renamedKey key newName = quote.surround newName := by
  unfold Node.keyName? at named
  split at named
  · next form =>
      cases named
      refine .inl ⟨placed.name_begins ?_ written, ?_⟩
      · unfold Node.identifierName?
        rw [form]
      · unfold renamedKey
        rw [form]
  · next quote form =>
      obtain ⟨i, j, start, _, _, details⟩ := placed.details (by rw [form]; rfl)
      rw [form] at details
      obtain ⟨rest, _, begins, _⟩ := L.string_stands details
      refine .inr ⟨quote, rest, ?_, ?_⟩
      · rw [start]
        exact begins
      · unfold renamedKey
        rw [form]
  · next form =>
      cases named
      obtain ⟨i, j, start, _, _, details⟩ := placed.details (by rw [form]; rfl)
      rw [form] at details
      refine .inl ⟨?_, ?_⟩
      · have stands := L.value_begins (i := i) (by rw [details]; rfl)
        rw [details] at stands
        rw [start]
        exact stands
      · unfold renamedKey
        rw [form]
  · cases named

/-- A key is renamed as it is written. -/
theorem MisspelledKey.exists_parse (found : MisspelledKey s v) (on : s.On L)
    (carried : v.fix = some f) {m : Misspelling} (known : m ∈ misspellings) (code : v.code = m.code)
    (old : L.text.slice f.start f.stop = m.wrong
      ∨ ∃ quote : Quote, L.text.slice f.start f.stop = quote.surround m.wrong)
    (parsed : parse L.text = .ok program) :
    ∃ program', parse (f.apply L.text) = .ok program'
      ∧ program'.complaints.length = program.complaints.length := by
  obtain @⟨m', p, f', known', isProperty, isWrong, stands, replaces⟩ := found
  rw [stands.fix_eq] at carried
  obtain rfl := Option.some.inj carried
  rw [stands.code_eq] at code
  obtain rfl := eq_of_code_eq known known' code
  obtain ⟨x, y, wrong, correct, renameable⟩ := exists_renameable known
  have written : m'.wrong ≠ [] ∧ m'.wrong ≠ "new" := by
    rw [wrong]
    exact ⟨List.cons_ne_nil _ _, fun same => absurd (List.cons.inj same).1 (by decide)⟩
  have nonempty : f'.start < f'.stop := by
    rcases old with old | ⟨quote, old⟩
    · exact Text.lt_of_slice (old.trans_ne written.1)
    · exact Text.lt_of_slice (old.trans_ne (List.cons_ne_nil _ _))
  rw [replaces.start, replaces.stop] at nonempty
  have strict := Source.isLoose_of_keyName? isWrong
  have inside := isProperty.key
  obtain ⟨i, isToken, start, short, _⟩ := on.exists_token inside strict
    (Source.isPlaceholder_of_keyName? isWrong written.1) nonempty
  obtain ⟨_, _, _, placed⟩ := on.placed_of_strict inside strict
  have renamed := renamedKey_spec placed isWrong written m'.correct
  have stop_le := placed.stop_le
  rw [← replaces.newCode_eq, ← replaces.start] at renamed
  rw [← replaces.start] at start
  rw [← replaces.stop] at short stop_le
  have notQuote (quote : Quote) : CodePoint.scalar 'a' ≠ .scalar quote.mark := by
    cases quote <;> decide
  rcases old with old | ⟨quote, old⟩
  · -- The name is bare, so the token is no longer than it.
    have left := Text.drop_eq_of_slice f'.start_le_stop old
    have length := L.text.length_slice f'.start_le_stop stop_le
    rw [old, wrong] at length
    rw [wrong] at left
    rcases renamed with ⟨_, newCode⟩ | ⟨quote, rest, begins, _⟩
    · rw [start] at left length
      have ends := L.ends_of_short renameable.old isToken left (by omega)
      obtain ⟨program', parsed', same⟩ := L.exists_parse_renamedName renameable isToken left ends
        parsed
      refine ⟨program', ?_, same⟩
      unfold Fix.apply
      rw [newCode, correct, start]
      exact parsed'
    · rw [left] at begins
      exact absurd (List.cons.inj begins).1 (notQuote quote)
  · have left := Text.drop_eq_of_slice f'.start_le_stop old
    rw [wrong] at left
    rcases renamed with ⟨begins, _⟩ | ⟨quote', rest, begins, newCode⟩
    · rw [left, wrong] at begins
      exact absurd (List.cons_prefix_cons.mp begins).1 (notQuote quote)
    · -- The quotes that stand around the key stay.
      rw [left] at begins
      obtain rfl := Quote.eq_of_mark (List.cons.inj begins).1
      rw [start] at left
      obtain ⟨program', parsed', same⟩ := L.exists_parse_renamedString renameable isToken left parsed
      refine ⟨program', ?_, same⟩
      unfold Fix.apply
      rw [newCode, correct, start]
      exact parsed'

end CorsConfig

end

/-! ## §4. Well-formed texts. -/

/-- **Renaming keeps a text well formed.**  When such a fix is made, the fixed text is
read, and as well formed as it was. -/
theorem Fix.keeps_wellFormed {path : Path} {text : Text} {s : Source} {v : Violation} {fix : Fix}
    (read : Source.ofText path text = .ok s) (wellFormed : s.complaints = [])
    (proposed : s.Proposes v fix) (renames : fix.Renames text v) :
    ∃ fixed, Source.ofText path (fix.apply text) = .ok fixed ∧ fixed.complaints = [] := by
  obtain ⟨detection, detected, reported⟩ := proposed.reported
  obtain ⟨L, on, rfl⟩ := Source.exists_layout read
  obtain ⟨program, parsed, complaints⟩ := Source.parse_of_ofText read
  rw [← on.text] at parsed renames ⊢
  have again : ∃ program', parse (fix.apply L.text) = .ok program'
      ∧ program'.complaints.length = program.complaints.length := by
    cases renames with
    | stage code old =>
        have found := Detector.inputStage_of_code detected reported code
        exact found.exists_parse on proposed.carried old parsed
    | key known code old =>
        have listed : v.code ∈ CorsConfig.misspellings.map CorsConfig.Misspelling.code := by
          rw [code]
          exact List.mem_map_of_mem known
        have found := Detector.misspelledKey_of_code detected reported listed
        exact found.exists_parse on proposed.carried known code old parsed
  obtain ⟨program', parsed', same⟩ := again
  obtain ⟨fixed, readAgain, complaints'⟩ := Source.exists_ofText path parsed'
  refine ⟨fixed, readAgain, ?_⟩
  rw [complaints', ← List.length_eq_zero_iff, same, ← complaints, wellFormed]
  rfl

/-- A stage that is not asked of the application. -/
def inputStage : Text :=
  "const stage = input.stage;"

/-- With another name in its place the text is still well formed. -/
theorem Fix.keeps_wellFormed_stage :
    ∃ s fixed v fix, Source.ofText ⟨.here, []⟩ inputStage = .ok s ∧ s.complaints = []
      ∧ s.Proposes v fix ∧ fix.Renames inputStage v
      ∧ fix.apply inputStage = Text.ofString "const stage = $app.stage;"
      ∧ Source.ofText ⟨.here, []⟩ (fix.apply inputStage) = .ok fixed ∧ fixed.complaints = [] := by
  have evaluated : (Source.ofText ⟨.here, []⟩ inputStage).toOption.any (fun s =>
      s.complaints = [] && ((Detector.builtIn .standard).detect s).toOption.any fun detection =>
        detection.violations.any fun v => v.fix.any fun fix => fix.confidence = .high
          && (v.code = "SST-VAL-001"
            && inputStage.slice fix.start fix.stop = Text.ofString "input.stage"
            && fix.apply inputStage = Text.ofString "const stage = $app.stage;")) = true := by
    decide +kernel
  obtain ⟨s, read, found⟩ := exists_ok_of_any evaluated
  obtain ⟨wellFormed, found⟩ := Bool.and_eq_true_iff.mp found
  obtain ⟨v, fix, proposed, found⟩ := Source.exists_proposes_of_any found
  simp only [Bool.and_eq_true, decide_eq_true_eq] at found wellFormed
  obtain ⟨⟨code, old⟩, applied⟩ := found
  have renames : fix.Renames inputStage v := .stage code old
  obtain ⟨fixed, readAgain, stays⟩ := Fix.keeps_wellFormed read wellFormed proposed renames
  exact ⟨s, fixed, v, fix, read, wellFormed, proposed, renames, applied, readAgain, stays⟩

/-- An interpolation of an object in the place of the body of an arrow function. -/
def objectInterpolation : Text :=
  "const f = () => $interpolate\x60$\x7b\x7b a: 1, b: 2 \x7d\x7d\x60;"

/-- Without its wrapper an object is read as a block. -/
theorem Fix.not_wellFormed_object :
    ¬ ∀ (path : Path) (text : Text) (s fixed : Source) (v : Violation) (fix : Fix),
        Source.ofText path text = .ok s → s.complaints = [] →
        (∀ n ∈ s.tree.preorder, ∀ c, n.form ≠ .errorNode c) → s.Proposes v fix →
        Source.ofText path (fix.apply text) = .ok fixed → fixed.complaints = [] := by
  intro all
  have evaluated : (Source.ofText ⟨.here, []⟩ objectInterpolation).toOption.any (fun s =>
      s.complaints = [] && (s.tree.preorder.all (fun n => n.kind != "ErrorNode")
        && ((Detector.builtIn .standard).detect s).toOption.any fun detection =>
          detection.violations.any fun v => v.fix.any fun fix => fix.confidence = .high
            && (Source.ofText ⟨.here, []⟩ (fix.apply objectInterpolation)).toOption.any fun fixed =>
              fixed.complaints ≠ [])) = true := by
    decide +kernel
  obtain ⟨s, read, found⟩ := exists_ok_of_any evaluated
  obtain ⟨wellFormed, found⟩ := Bool.and_eq_true_iff.mp found
  obtain ⟨noErrors, found⟩ := Bool.and_eq_true_iff.mp found
  obtain ⟨v, fix, proposed, found⟩ := Source.exists_proposes_of_any found
  obtain ⟨fixed, readAgain, complains⟩ := exists_ok_of_any found
  refine of_decide_eq_true complains (all ⟨.here, []⟩ objectInterpolation s fixed v fix read
    (of_decide_eq_true wellFormed) ?_ proposed readAgain)
  intro n inside c isError
  have kind := List.all_eq_true.mp noErrors n inside
  unfold Node.kind at kind
  rw [isError] at kind
  cases kind

end StackLint
