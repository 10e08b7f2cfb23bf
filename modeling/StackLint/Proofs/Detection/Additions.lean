/-
  StackLint.Proofs.Detection.Additions
  ────────────────────────────────────
  **ADDITIONS OF DEFERRED VALUES.**

  Additions are reported by what they join and by where they lie, and the fix of each
  says in one template what its operands say.
-/
import StackLint.Proofs.Detection.Sound
import StackLint.Proofs.Interpolation.Plain
import StackLint.Proofs.Rule.Addition
import StackLint.Proofs.Tree.Traversal

namespace StackLint

open PulumiOutput

/-! ## §1. Which additions are reported. -/

open scoped Classical in
/-- **The additions that are reported** are the outermost ones with a deferred value for an
operand that lie neither in the template of an interpolated template nor in an argument or
the callee of `apply`.  Each has a violation, in the order of the text. -/
theorem Rule.additions_reported {path : Path} {text : Text} {s : Source}
    (read : Source.ofText path text = .ok s) :
    ∃ found, pulumiOutput.detect s = .ok found
      ∧ List.Forall₂ (fun visit v => IsAbout s visit.node v) (s.tree.visits.filter (IsReported ·))
        (found.filter (·.code == "SST-VAL-032")) := by
  obtain ⟨L, on, _⟩ := Source.exists_layout read
  obtain ⟨found, isOk, _⟩ := PulumiOutput.detect_reports on
  exact ⟨found, isOk, detect_additions isOk⟩

/-- An addition, one in an argument of `apply`, and one in a template. -/
def threeAdditions : Text :=
  "const u = \"a\" + b.url; b.id.apply((x) => \"c\" + d.url); $interpolate\x60$\x7b\"e\" + f.id\x7d\x60;"

open scoped Classical in
/-- Only the first one of them is reported. -/
theorem Rule.additions_reported_first :
    ∃ (s : Source) (found : List Violation), Source.ofText ⟨.here, []⟩ threeAdditions = .ok s
      ∧ pulumiOutput.detect s = .ok found
      ∧ (found.filter (·.code == Text.ofString "SST-VAL-032")).map (fun v => (v.line, v.column)) = [(1, 11)]
      ∧ List.Forall₂ (fun visit v => IsAbout s visit.node v) (s.tree.visits.filter (IsReported ·))
        (found.filter (·.code == "SST-VAL-032")) := by
  have evaluated : (Source.ofText ⟨.here, []⟩ threeAdditions).toOption.any (fun s =>
      (pulumiOutput.detect s).toOption.any fun found : List Violation =>
        decide ((found.filter (·.code == Text.ofString "SST-VAL-032")).map (fun v => (v.line, v.column))
          = [(1, 11)])) = true := by
    decide +kernel
  obtain ⟨s, read, evaluated⟩ := exists_ok_of_any evaluated
  obtain ⟨found, isOk, same⟩ := exists_ok_of_any evaluated
  obtain ⟨found', isOk', related⟩ := Rule.additions_reported read
  obtain rfl : found' = found := Except.ok.inj (isOk'.symm.trans isOk)
  exact ⟨s, found', read, isOk, of_decide_eq_true same, related⟩

/-- An addition that `apply` is called on. -/
def calleeAddition : Text :=
  "(bucket.arn + \"x\").apply(f)"

/-- No place around the addition is a template or an argument, as the spans of the arguments
tell. -/
def liesOutside (visit : Visit Span) : Bool :=
  visit.places.all fun (child, parent) =>
    match parent.form with
    | .taggedTemplate _ _ => false
    | .call _ arguments _ => arguments.all fun argument => argument.info != child.info
    | _ => true

theorem not_liesIn_of_liesOutside {visit : Visit Span} (outside : liesOutside visit = true) :
    ¬ visit.LiesIn IsTemplate ∧ ¬ visit.LiesIn IsArgument := by
  unfold liesOutside at outside
  rw [List.all_eq_true] at outside
  constructor
  · rintro ⟨pair, isPair, tag, form, _⟩
    have never := outside pair isPair
    simp only [form] at never
    cases never
  · rintro ⟨pair, isPair, callee, arguments, optional, form, _, isArgument⟩
    have others := outside pair isPair
    simp only [form, List.all_eq_true] at others
    exact bne_iff_ne.mp (others pair.1 isArgument) rfl

/-- **An addition in the callee of `apply` is not reported,** although it lies in no argument. -/
theorem Rule.not_additions_reported :
    ¬ ∀ (path : Path) (text : Text) (s : Source) (found : List Violation),
        Source.ofText path text = .ok s → pulumiOutput.detect s = .ok found →
        ∀ visit ∈ s.tree.visits, JoinsOutput visit → ¬ visit.LiesIn IsTemplate →
          ¬ visit.LiesIn IsArgument → ∃ v ∈ found, IsAbout s visit.node v := by
  intro all
  have evaluated : (Source.ofText ⟨.here, []⟩ calleeAddition).toOption.any (fun s =>
      (pulumiOutput.detect s).toOption.any fun found => found.isEmpty
        && s.tree.visits.any fun visit => isAddition visit.node
          && !visit.ancestors.head?.any isAddition
          && (operands visit.node).any (fun n => (lastProperty? n).any outputProperties.contains)
          && liesOutside visit) = true := by
    decide +kernel
  obtain ⟨s, read, evaluated⟩ := exists_ok_of_any evaluated
  obtain ⟨found, isOk, evaluated⟩ := exists_ok_of_any evaluated
  obtain ⟨nothing, evaluated⟩ := Bool.and_eq_true_iff.mp evaluated
  obtain ⟨visit, isVisit, evaluated⟩ := List.any_eq_true.mp evaluated
  simp only [Bool.and_eq_true, Bool.not_eq_true'] at evaluated
  obtain ⟨⟨⟨adds, outermost⟩, output⟩, outside⟩ := evaluated
  obtain ⟨template, argument⟩ := not_liesIn_of_liesOutside outside
  obtain ⟨v, isFound, _⟩ := all _ _ s found read isOk visit isVisit
    ⟨adds, outermost, (hasOutput_iff _).mp output⟩ template argument
  rw [List.isEmpty_iff.mp nothing] at isFound
  cases isFound

/-! ## §2. What their fixes say. -/

/-- **The fix of an addition says what the operands say,** one behind the other, if they can be
joined.  An operand that is written plainly can be joined with whatever comes behind it. -/
theorem Rule.additions_interpolated {path : Path} {text : Text} {s : Source}
    (read : Source.ofText path text = .ok s) :
    ∃ found, pulumiOutput.detect s = .ok found ∧ ∀ v ∈ found, v.code = "SST-VAL-032" →
      ∃ n ∈ s.tree.preorder, isAddition n = true ∧ ∃ f, v.fix = some f
        ∧ f.Replaces n (interpolation s (operands n))
        ∧ (joins s (operands n) = true → Content.ofText? f.newCode
          = some (.concat ((operands n).map (Content.ofOperand s))))
        ∧ (s.text.closesLiterals = true → ∀ operand ∈ operands n, IsPlain s operand →
          ∀ rest, keepsOperandApart s operand rest = true) := by
  obtain ⟨L, on, _⟩ := Source.exists_layout read
  obtain ⟨found, isOk, _⟩ := PulumiOutput.detect_reports on
  refine ⟨found, isOk, fun v isFound code => ?_⟩
  obtain ⟨n, inside, adds, isAbout⟩ := exists_isAbout isOk isFound code
  obtain ⟨f, isFix, replaces⟩ := isAbout.replaces
  refine ⟨n, inside, adds, f, isFix, replaces, ?_, ?_⟩
  · intro isJoined
    rw [replaces.newCode_eq]
    exact Content.ofText?_interpolation isJoined
  · intro closed operand isOperand plain rest
    have below := Node.mem_preorder_trans (mem_preorder_of_mem_operands isOperand) inside
    exact plain.keepsApart on closed below rest

/-- The names of an object and of its property. -/
def propertyNames? (n : Tree) : Option (Text × Text) :=
  match n.form with
  | .propertyAccess object property false =>
      match object.form, property.form with
      | .identifier owner, .identifier name => some (owner, name)
      | _, _ => none
  | _ => none

/-- A property of a variable is written plainly if its tokens are three. -/
theorem isPlain_of_propertyNames? {s : Source} {n : Tree} {owner name : Text}
    (names : propertyNames? n = some (owner, name)) (plainOwner : IsPlainName owner)
    (plainName : IsPlainName name)
    (printed : s.lexemesOf n = [.word owner, .punct .dot, .word name])
    (more : n.info.stop < s.text.length) (noEscape : CodePoint.scalar '\\' ∉ s.textOf n) :
    IsPlain s n := by
  unfold propertyNames? at names
  split at names
  · next object property isAccess =>
      split at names
      · next isOwner isName =>
          cases names
          obtain ⟨info, form⟩ := n
          obtain ⟨infoOwner, formOwner⟩ := object
          obtain ⟨infoName, formName⟩ := property
          cases isAccess
          cases isOwner
          cases isName
          have shape : (Node.mk info (.propertyAccess (.mk infoOwner (.identifier owner))
              (.mk infoName (.identifier name)) false)).shape
              = .mk () (.propertyAccess (.mk () (.identifier owner)) (.mk () (.identifier name))
                false) := by
            simp only [Node.shape_mk, Form.map]
          refine ⟨?_, ?_, ?_, ?_, ?_, more, fun escape => absurd escape noEscape⟩
          · intro value quote isText
            cases isText
          · rw [shape]
            exact .property (.identifier plainOwner) (Nat.le_refl 14) plainName
          · rw [shape]
            exact printed
          · rw [shape]
            exact (by decide : 1 + 4 ≤ Parser.maxNesting)
          · rw [shape]
            exact (by decide : 0 + 1 ≤ Parser.templateBudget)
      · cases names
  · cases names

/-- A string, a deferred value and a template. -/
def joinedAddition : Text :=
  "const u = \"https://\" + api.url + \x60/v$\x7bn\x7d\x60;"

/-- The texts of the string and of the template surround the values, and the one in the middle
is written plainly. -/
theorem Rule.additions_interpolated_joined :
    ∃ (s : Source) (found : List Violation) (v : Violation) (f : Fix),
      Source.ofText ⟨.here, []⟩ joinedAddition = .ok s ∧ pulumiOutput.detect s = .ok found
        ∧ v ∈ found ∧ v.fix = some f
        ∧ Content.ofText? f.newCode = some ⟨"https://", [("api.url", "/v"), ("n", "")]⟩
        ∧ ∃ operand, IsPlain s operand ∧ s.textOf operand = "api.url"
          ∧ ∀ rest, keepsOperandApart s operand rest = true := by
  have evaluated : (Source.ofText ⟨.here, []⟩ joinedAddition).toOption.any (fun s =>
      s.text.closesLiterals && (pulumiOutput.detect s).toOption.any fun found =>
        found.any fun v => v.fix.any fun f => v.code = "SST-VAL-032" && s.tree.preorder.all fun n =>
          !(isAddition n && n.info = ⟨f.start, f.stop⟩) || (joins s (operands n)
            && (Content.concat ((operands n).map (Content.ofOperand s))
              = ⟨"https://", [("api.url", "/v"), ("n", "")]⟩
            && (operands n).any fun operand => propertyNames? operand = some (Text.ofString "api", Text.ofString "url")
              && (s.lexemesOf operand = [.word "api", .punct .dot, .word "url"]
              && (operand.info.stop < s.text.length && s.textOf operand = "api.url"))))) = true := by
    decide +kernel
  obtain ⟨s, read, evaluated⟩ := exists_ok_of_any evaluated
  obtain ⟨closed, evaluated⟩ := Bool.and_eq_true_iff.mp evaluated
  obtain ⟨found, isOk, evaluated⟩ := exists_ok_of_any evaluated
  obtain ⟨v, isFound, shown⟩ := List.any_eq_true.mp evaluated
  obtain ⟨found', isOk', interpolated⟩ := Rule.additions_interpolated read
  obtain rfl : found' = found := Except.ok.inj (isOk'.symm.trans isOk)
  cases isFix : v.fix with
  | none =>
      rw [isFix] at shown
      cases shown
  | some f =>
      rw [isFix, Option.any_some, Bool.and_eq_true, decide_eq_true_eq, List.all_eq_true] at shown
      obtain ⟨code, each⟩ := shown
      obtain ⟨n, inside, adds, f', same, replaces, isContent, apart⟩ := interpolated v isFound code
      obtain rfl : f' = f := Option.some.inj (same.symm.trans isFix)
      have isSpan : n.info = ⟨f'.start, f'.stop⟩ := by
        rw [replaces.start, replaces.stop]
      have shown := each n inside
      rw [adds, decide_eq_true isSpan, Bool.and_self, Bool.not_true, Bool.false_or] at shown
      simp only [Bool.and_eq_true, decide_eq_true_eq, List.any_eq_true] at shown
      obtain ⟨isJoined, content, operand, isOperand, names, printed, more, code⟩ := shown
      have plain : IsPlain s operand := by
        refine isPlain_of_propertyNames? names ?_ ?_ printed more ?_
        · exact ⟨.of_flags (by decide) (by decide) (by decide), by decide⟩
        · exact ⟨.of_flags (by decide) (by decide) (by decide), by decide⟩
        · rw [code]
          decide
      refine ⟨s, found', v, f', read, isOk, isFound, isFix, ?_, operand, plain, code,
        apart closed operand isOperand plain⟩
      rw [isContent isJoined, content]

/-- A dollar sign and a brace in two strings. -/
def splitAddition : Text :=
  "x = \"$\" + \"\x7bx\x7d\" + a.arn"

/-- **A dollar sign and a brace that come together** open a substitution that no operand has. -/
theorem Rule.not_additions_interpolated :
    ¬ ∀ (path : Path) (text : Text) (s : Source) (found : List Violation),
        Source.ofText path text = .ok s → text.closesLiterals = true →
        pulumiOutput.detect s = .ok found → ∀ v ∈ found, ∀ f, v.fix = some f →
        v.code = "SST-VAL-032" → ∃ n ∈ s.tree.preorder, isAddition n = true
          ∧ n.info = ⟨f.start, f.stop⟩ ∧ Content.ofText? f.newCode
            = some (.concat ((operands n).map (Content.ofOperand s))) := by
  intro all
  have closed : splitAddition.closesLiterals = true := by decide +kernel
  have evaluated : (Source.ofText ⟨.here, []⟩ splitAddition).toOption.any (fun s =>
      (pulumiOutput.detect s).toOption.any fun found => found.any fun v => v.fix.any fun f =>
        v.code = "SST-VAL-032" && s.tree.preorder.all fun n =>
          !(isAddition n && n.info = ⟨f.start, f.stop⟩) || Content.ofText? f.newCode
            ≠ some (.concat ((operands n).map (Content.ofOperand s)))) = true := by
    decide +kernel
  obtain ⟨s, read, evaluated⟩ := exists_ok_of_any evaluated
  obtain ⟨found, isOk, evaluated⟩ := exists_ok_of_any evaluated
  obtain ⟨v, isFound, shown⟩ := List.any_eq_true.mp evaluated
  cases isFix : v.fix with
  | none =>
      rw [isFix] at shown
      cases shown
  | some f =>
      rw [isFix, Option.any_some, Bool.and_eq_true, decide_eq_true_eq, List.all_eq_true] at shown
      obtain ⟨code, each⟩ := shown
      obtain ⟨n, inside, adds, isSpan, isContent⟩ := all _ _ s found read closed isOk v isFound f isFix code
      have differs := each n inside
      rw [adds, decide_eq_true isSpan, Bool.and_self, Bool.not_true, Bool.false_or,
        decide_eq_true_eq] at differs
      exact differs isContent

end StackLint
