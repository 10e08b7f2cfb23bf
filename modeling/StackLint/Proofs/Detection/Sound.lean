/-
  StackLint.Proofs.Detection.Sound
  ────────────────────────────────
  **THE BUILT-IN RULES ARE SOUND.**

  Whatever the parser made of a text, no built-in rule fails on it.  What the
  rules report lies in the text, and a dry run of the fixes never ends with an
  error.

  Whatever the tokens of a text are, the parser makes a tree of them, so a text is
  checked if and only if it can be cut into tokens.
-/
import Mathlib
import StackLint.Proofs.Fixing.Outcome
import StackLint.Proofs.Rule.Reports
import StackLint.Proofs.Token.Failure

namespace StackLint

/-! ## §1. Violations of a text. -/

/-- **The violation belongs to the text:** it stands on one of its lines, and a
fix replaces a range of it and expects the code that is there. -/
structure Violation.LiesIn (text : Text) (v : Violation) : Prop where
  line_pos : 1 ≤ v.line
  line_le : v.line ≤ text.lines.length
  column_pos : 1 ≤ v.column
  start_le_stop : ∀ f ∈ v.fix, f.start ≤ f.stop
  stop_le : ∀ f ∈ v.fix, f.stop ≤ text.length
  oldCode : ∀ f ∈ v.fix, f.oldCode = text.slice f.start f.stop

theorem Violation.Fits.liesIn {L : Layout} {v : Violation} (fits : v.Fits L) :
    v.LiesIn L.text where
  line_pos := fits.line_pos
  line_le := fits.line_le
  column_pos := fits.column_pos
  start_le_stop f isFix := (fits.fix f isFix).site.le
  stop_le f isFix := (fits.fix f isFix).site.stop_le
  oldCode f isFix := (fits.fix f isFix).oldCode

/-- Its fix matches the text. -/
theorem Violation.LiesIn.mismatch? {text : Text} {v : Violation} (lies : v.LiesIn text) {f : Fix}
    (isFix : f ∈ v.fix) : f.mismatch? text = none := by
  have inside := lies.stop_le f isFix
  unfold Fix.mismatch?
  rw [if_neg (Nat.not_lt.mpr inside), if_neg (not_not.mpr (lies.oldCode f isFix).symm)]

/-! ## §2. Rules. -/

/-- **No built-in rule fails.** -/
theorem Rule.detect_reports {r : Rule} (isBuiltIn : r ∈ builtIn) {s : Source} {L : Layout}
    (on : s.On L) : ReportsAll L (r.detect s) := by
  unfold builtIn at isBuiltIn
  rcases List.mem_cons.mp isBuiltIn with rfl | isBuiltIn
  · exact StageVariable.detect_reports on
  rcases List.mem_cons.mp isBuiltIn with rfl | isBuiltIn
  · exact DomainConfig.detect_reports on
  rcases List.mem_cons.mp isBuiltIn with rfl | isBuiltIn
  · exact CorsConfig.detect_reports on
  rcases List.mem_cons.mp isBuiltIn with rfl | isBuiltIn
  · exact EnvVariable.detect_reports on
  rcases List.mem_cons.mp isBuiltIn with rfl | isBuiltIn
  · exact PulumiOutput.detect_reports on
  rcases List.mem_cons.mp isBuiltIn with rfl | isBuiltIn
  · exact ResourceDependency.detect_reports on
  rcases List.mem_cons.mp isBuiltIn with rfl | isBuiltIn
  · exact DynamoIndexing.detect_reports on
  · exact absurd isBuiltIn List.not_mem_nil

theorem Rule.detect_liesIn {r : Rule} (isBuiltIn : r ∈ builtIn) {path : Path} {text : Text}
    {source : Source} (read : Source.ofText path text = .ok source) :
    ∃ found, r.detect source = .ok found ∧ ∀ v ∈ found, v.LiesIn text := by
  obtain ⟨L, on, same⟩ := Source.exists_layout read
  obtain ⟨found, isOk, fits⟩ := Rule.detect_reports isBuiltIn on
  refine ⟨found, isOk, ?_⟩
  intro v inside
  have lies := (fits v inside).liesIn
  rw [on.text, same] at lies
  exact lies

/-! ## §3. Detectors. -/

/-- What is reported of a run was found by its rule, but for the severity. -/
theorem RuleRun.reported_liesIn {settings : Settings} {run : RuleRun} {text : Text}
    {found : List Violation} (isFound : run.outcome = .found found)
    (lie : ∀ v ∈ found, v.LiesIn text) {v : Violation} (inside : v ∈ run.reported settings) :
    v.LiesIn text := by
  unfold reported at inside
  rw [isFound] at inside
  dsimp only at inside
  split at inside
  · exact lie v (List.mem_filter.mp inside).1
  · -- A severity that is set for the rule changes nothing else.
    obtain ⟨v', isHeard, rfl⟩ := List.mem_map.mp inside
    have lies := lie v' (List.mem_filter.mp isHeard).1
    exact ⟨lies.line_pos, lies.line_le, lies.column_pos, lies.start_le_stop, lies.stop_le,
      lies.oldCode⟩

namespace Detector

/-- A run of a rule that does not fail. -/
theorem run_outcome {d : Detector} {s : Source} {r : Rule} {found : List Violation}
    (isOk : r.detect s = .ok found) :
    (d.run s r).outcome = .found found ∨ (d.run s r).outcome = .skipped := by
  unfold run
  rw [isOk]
  dsimp only
  split
  · exact .inl rfl
  · exact .inr rfl

/-- Without failures a detection returns its result. -/
theorem detect_of_noFailure {d : Detector} {s : Source}
    (noFailure : ∀ r ∈ d.rules, (d.run s r).failure? = none) :
    d.detect s = .ok (d.result (d.rules.map (d.run s)))
      ∧ (d.result (d.rules.map (d.run s))).failures = [] := by
  have none_of_mem : ∀ run ∈ d.rules.map (d.run s), run.failure? = none := by
    intro run inside
    obtain ⟨r, isRule, rfl⟩ := List.mem_map.mp inside
    exact noFailure r isRule
  constructor
  · have notFatal : d.fatal? (d.rules.map (d.run s)) = none := by
      unfold fatal?
      split
      · rfl
      · exact List.findSome?_eq_none_iff.mpr none_of_mem
    unfold detect
    simp only [notFatal]
  · unfold result
    refine List.filterMap_eq_nil_iff.mpr ?_
    intro run inside
    rw [none_of_mem run inside]
    rfl

end Detector

/-! ## §4. Fixing. -/

/-- A dry run over violations of the text of a source has no error. -/
theorem dryRun_failure_of_liesIn {s : Source} {violations : List Violation}
    (lie : ∀ v ∈ violations, v.LiesIn s.text) (options : FixOptions) (answers : Option Answers) :
    (dryRun options answers s violations).failure = none := by
  refine dryRun_failure_eq_none.mpr ?_
  intro o isSelected
  obtain ⟨found, carried⟩ := FixOffer.mem_ofViolations.mp (List.mem_filter.mp isSelected).1
  exact (lie o.violation (List.mem_of_getElem? found)).mismatch? carried

/-- A session that previews fixes by given answers returns the dry run, and leaves the files
as they are. -/
theorem Session.fixBy_of_noError {options : FixOptions} {answers : Option Answers} {s : Source}
    {violations : List Violation}
    (noError : (dryRun { options with apply := false } answers s violations).failure = none)
    (w : Workspace) :
    ∃ w', outcome (fixBy { options with apply := false } answers s violations) w
        = (.ok (dryRun { options with apply := false } answers s violations), w')
      ∧ w'.files = w.files := by
  unfold fixBy
  simp only [noError, outcome_bind, outcome_logAll]
  split
  · next impossible => cases impossible
  · exact ⟨_, outcome_pure _ _, rfl⟩

/-- A preview of what was found in a text has no error, unless somebody who is asked does not
answer. -/
theorem Session.preview_of_liesIn {path : Path} {text : Text} {s : Source}
    {violations : List Violation} (read : Source.ofText path text = .ok s)
    (lie : ∀ v ∈ violations, v.LiesIn text) (options : FixOptions) (confirm : Option Confirm)
    (w : Workspace) :
    answersFor? { options with apply := false } confirm (FixOffer.ofViolations violations) = none
        ∧ outcome (preview options confirm s violations) w = (.error .unanswered, w)
      ∨ ∃ result w', outcome (preview options confirm s violations) w = (.ok result, w')
        ∧ result.failure = none ∧ w'.files = w.files := by
  -- The source holds the very text that the violations belong to.
  obtain ⟨_, _, same⟩ := Source.exists_layout read
  unfold preview
  rw [outcome_fix]
  cases answersFor? { options with apply := false } confirm (FixOffer.ofViolations violations) with
  | none => exact .inl ⟨rfl, rfl⟩
  | some answers =>
      have noError := dryRun_failure_of_liesIn (same.symm ▸ lie) { options with apply := false }
        answers
      obtain ⟨w', done, files⟩ := fixBy_of_noError noError w
      exact .inr ⟨_, w', done, noError, files⟩

/-! ## §5. Soundness. -/

/-- **The built-in rules are sound.**  On every text that the parser returns a
tree for, and under all settings, no rule fails and every violation belongs to
the text; and a dry run of the fixes has no error, whatever the options and the
workspace are and whoever is asked, as long as there are answers. -/
theorem Detector.detect_sound (settings : Settings) (path : Path) (text : Text) (source : Source)
    (read : Source.ofText path text = .ok source) :
    (∀ r ∈ Rule.builtIn, ∃ found, r.detect source = .ok found ∧ ∀ v ∈ found, v.LiesIn text)
      ∧ ∃ detection, (builtIn settings).detect source = .ok detection ∧ detection.failures = []
        ∧ (∀ v ∈ detection.violations, v.LiesIn text)
        ∧ (∀ (options : FixOptions) (confirm : Option Confirm) (w : Workspace),
            answersFor? { options with apply := false } confirm
                (FixOffer.ofViolations detection.violations) = none
              ∧ Session.outcome (Session.preview options confirm source detection.violations) w
                = (.error .unanswered, w)
            ∨ ∃ result w', Session.outcome
                (Session.preview options confirm source detection.violations) w = (.ok result, w')
              ∧ result.failure = none ∧ w'.files = w.files)
        ∧ ∀ (options : FixOptions) (mayApply : Option (Violation → Bool)) (w : Workspace),
            ∃ result w', Session.outcome (Session.preview options
                (mayApply.map Confirm.ofFunction) source detection.violations) w = (.ok result, w')
              ∧ result.failure = none ∧ w'.files = w.files := by
  have each (r : Rule) (isBuiltIn : r ∈ Rule.builtIn) :=
    Rule.detect_liesIn isBuiltIn read
  have noFailure : ∀ r ∈ (builtIn settings).rules,
      ((builtIn settings).run source r).failure? = none := by
    intro r isRule
    obtain ⟨found, isOk, _⟩ := each r isRule
    unfold RuleRun.failure?
    rcases run_outcome (d := builtIn settings) isOk with isFound | isSkipped
    · rw [isFound]
    · rw [isSkipped]
  obtain ⟨isOk, failures⟩ := detect_of_noFailure noFailure
  have lie : ∀ v ∈ ((builtIn settings).result
      ((builtIn settings).rules.map ((builtIn settings).run source))).violations,
        v.LiesIn text := by
    intro v inside
    obtain ⟨run, isRun, inside⟩ := List.mem_flatMap.mp inside
    obtain ⟨r, isRule, rfl⟩ := List.mem_map.mp isRun
    obtain ⟨found, isOk, lie⟩ := each r isRule
    rcases run_outcome (d := builtIn settings) isOk with isFound | isSkipped
    · exact RuleRun.reported_liesIn isFound lie inside
    · unfold RuleRun.reported at inside
      rw [isSkipped] at inside
      exact absurd inside List.not_mem_nil
  have previewed (options : FixOptions) (confirm : Option Confirm) (w : Workspace) :=
    Session.preview_of_liesIn read lie options confirm w
  refine ⟨each, _, isOk, failures, lie, previewed, ?_⟩
  intro options mayApply w
  obtain ⟨answers, asked⟩ := exists_answersFor?_ofFunction { options with apply := false } mayApply
    (FixOffer.ofViolations ((builtIn settings).result
      ((builtIn settings).rules.map ((builtIn settings).run source))).violations)
  rcases previewed options (mayApply.map Confirm.ofFunction) w with ⟨unanswered, _⟩ | returned
  · rw [unanswered] at asked
    cases asked
  · exact returned

/-- A resource whose domain ends with the text, in the middle of an object. -/
def unclosed : Text :=
  "new sst.aws.Remix(\"web\", \x7b domain: \x7b name: \"a.b\""

/-- The member that is missing is inserted where the text ends. -/
theorem Detector.detect_sound_unclosed :
    ∃ source detection, Source.ofText ⟨.here, []⟩ unclosed = .ok source
      ∧ (builtIn .standard).detect source = .ok detection ∧ detection.failures = []
      ∧ detection.violations.map (fun v => (v.line, v.column, v.fix.map Fix.start))
          = [(1, 38, some unclosed.length)]
      ∧ ∀ v ∈ detection.violations, v.LiesIn unclosed := by
  have evaluated : (Source.ofText ⟨.here, []⟩ unclosed).toOption.bind (fun source =>
      ((builtIn .standard).detect source).toOption.map fun detection =>
        detection.violations.map fun v => (v.line, v.column, v.fix.map Fix.start))
      = some [(1, 38, some unclosed.length)] := by decide +kernel
  cases read : Source.ofText ⟨.here, []⟩ unclosed with
  | error failure =>
      rw [read] at evaluated
      cases evaluated
  | ok source =>
      obtain ⟨_, detection, isOk, failures, lie, _, _⟩ :=
        Detector.detect_sound .standard ⟨.here, []⟩ unclosed source read
      rw [read] at evaluated
      simp only [Except.toOption, Option.bind_some, isOk, Option.map_some, Option.some.injEq]
        at evaluated
      exact ⟨source, detection, rfl, isOk, failures, evaluated, lie⟩

/-! ## §6. Behind the scanner. -/

/-- Parsing fails only when scanning does. -/
theorem parse_isOk (text : Text) : (parse text).isOk = (tokenize text).isOk := by
  unfold parse parseWithin
  rw [isOk_bind_pure]

theorem Source.ofText_isOk (path : Path) (text : Text) :
    (Source.ofText path text).isOk = (tokenize text).isOk := by
  unfold Source.ofText
  rw [isOk_bind_pure, parse_isOk]

/-- A detection that goes on after failures does not fail. -/
theorem Detector.detect_of_continueOnError {d : Detector} (h : d.settings.continueOnError = true)
    (s : Source) : d.detect s = .ok (d.result (d.rules.map (d.run s))) := by
  unfold Detector.detect Detector.fatal?
  simp only [h, if_true]

/-! ## §7. Checking a text. -/

/-- **A text is cut into tokens, parsed and checked if and only if the scanner
does not stumble over it,** that is, it comes neither to a digit form in the
place of a number nor to a literal with an escape that is too large. -/
theorem Detector.checks_iff_not_stumbles (path : Path) (text : Text) :
    ((∃ tokens, tokenize text = .ok tokens) ∧ (∃ program, parse text = .ok program)
        ∧ ∃ source detection, Source.ofText path text = .ok source
            ∧ (Detector.builtIn .standard).detect source = .ok detection)
      ↔ ¬ Scan.Stumbles text := by
  rw [exists_ok_iff, exists_ok_iff, parse_isOk, ← Scan.tokenize_isOk_iff]
  constructor
  · rintro ⟨isOk, _, _⟩
    exact isOk
  · intro isOk
    obtain ⟨source, read⟩ : ∃ source, Source.ofText path text = .ok source := by
      rw [exists_ok_iff, Source.ofText_isOk]
      exact isOk
    exact ⟨isOk, isOk, source, _, read, detect_of_continueOnError rfl source⟩

/-- The scanner fails at a superscript two in the place of a number, and at an
escape that is too large. -/
theorem Detector.not_checks_superscript :
    tokenize "x = ²" = .error .malformedNumber
      ∧ tokenize (Text.ofString "'\\u\x7b80000000\x7d'") = .error .escapeOutOfRange
      ∧ ¬ ∀ (path : Path) (text : Text),
          (∃ tokens, tokenize text = .ok tokens) ∧ (∃ program, parse text = .ok program)
            ∧ ∃ source detection, Source.ofText path text = .ok source
                ∧ (Detector.builtIn .standard).detect source = .ok detection := by
  have fails : tokenize "x = ²" = .error .malformedNumber := by cbv
  refine ⟨fails, by cbv, ?_⟩
  intro all
  obtain ⟨⟨tokens, isOk⟩, _⟩ := all ⟨.here, []⟩ "x = ²"
  rw [fails] at isOk
  cases isOk

end StackLint
