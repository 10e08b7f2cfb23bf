/-
  StackLint.Proofs.Workspace.Escape
  ─────────────────────────────────
  **WHAT ESCAPES FROM FIXING.**

  Fixing a source returns a result, with an error where something goes wrong.
  What remains are the failures that are no errors of files: the path, the
  bytes of the file, or the text to be written cannot be dealt with at all.
  Here they are found one by one, and there are no others.
-/
import StackLint.Proofs.Workspace.Safety

namespace StackLint

/-! ## §1. Replacing. -/

/-- Replacing a text in vain: a temporary file is made and removed again, as
the text has a surrogate that stands alone. -/
structure FileStore.Unwritable (store : FileStore) (p : Path) (text : Text) : Prop where
  surrogate : text.hasSurrogate = true
  removed : ∃ temporary made cleaned, store.temporaryBeside p = .ok (temporary, made)
    ∧ made.discard temporary = .ok cleaned

/-- **What escapes from writing a text to the file of a source.** -/
inductive Source.WriteEscapes (s : Source) (store : FileStore) (text : Text) : Prop where
  /-- The path has a NUL. -/
  | nulInPath (nul : s.path.hasNul = true)
  /-- The bytes of the file are not UTF-8. -/
  | notText (failure : Utf8Failure) (noNul : s.path.hasNul = false)
      (read : store.readText s.path = .error (.encoding failure))
  /-- The file holds the text of the source, and the new text cannot be
  encoded. -/
  | notWritable (noNul : s.path.hasNul = false) (read : store.readText s.path = .ok s.text)
      (unwritable : store.Unwritable s.path text)

/-- With a path that can be opened, it is what is read that decides. -/
theorem Source.WriteEscapes.read {s : Source} {store : FileStore} {text : Text}
    (escapes : s.WriteEscapes store text) (noNul : s.path.hasNul = false) :
    (∃ failure, store.readText s.path = .error (.encoding failure))
      ∨ (store.readText s.path = .ok s.text ∧ store.Unwritable s.path text) := by
  cases escapes with
  | nulInPath nul =>
      rw [noNul] at nul
      cases nul
  | notText failure _ read => exact .inl ⟨failure, read⟩
  | notWritable _ read unwritable => exact .inr ⟨read, unwritable⟩

namespace Session

theorem outcome_replaceText_escapes (p : Path) (text : Text) (w : Workspace) :
    (∃ failure, (outcome (replaceText p text) w).1 = .error failure)
      ↔ w.files.Unwritable p text := by
  unfold replaceText
  simp only [outcome_bind, outcome_files]
  cases made : w.files.temporaryBeside p with
  | error failure =>
      refine iff_of_false ?_ ?_
      · intro ⟨_, escaped⟩
        cases escaped
      · intro ⟨_, _, _, _, isMade, _⟩
        rw [made] at isMade
        cases isMade
  | ok result =>
      obtain ⟨temporary, files⟩ := result
      simp only [outcome_bind, outcome_setFiles]
      cases encoded : Utf8.encode? text with
      | none =>
          have surrogate := (Utf8.encode?_eq_none_iff text).mp encoded
          simp only [outcome_bind, outcome_discard]
          cases removed : files.discard temporary with
          | error failure =>
              refine iff_of_false ?_ ?_
              · intro ⟨_, escaped⟩
                cases escaped
              · intro ⟨_, _, _, _, isMade, isRemoved⟩
                rw [made] at isMade
                cases isMade
                rw [removed] at isRemoved
                cases isRemoved
          | ok cleaned =>
              exact iff_of_true ⟨_, rfl⟩ ⟨surrogate, temporary, files, cleaned, made, removed⟩
      | some bytes =>
          refine iff_of_false ?_ ?_
          · intro ⟨_, escaped⟩
            cases filled : files.fillAndMove temporary p bytes with
            | mk after moved =>
                simp only [filled, outcome_bind, outcome_setFiles] at escaped
                cases moved with
                | ok _ => cases escaped
                | error failure =>
                    simp only [outcome_bind, outcome_discard] at escaped
                    split at escaped
                    · cases escaped
                    · next ended =>
                        split at ended <;> cases ended
          · intro ⟨surrogate, _⟩
            rw [(Utf8.encode?_eq_none_iff text).mpr surrogate] at encoded
            cases encoded

/-! ## §2. Overwriting. -/

theorem outcome_overwrite_escapes (s : Source) (text : Text) (w : Workspace) :
    (∃ failure, (outcome (overwrite s text) w).1 = .error failure)
      ↔ s.WriteEscapes w.files text := by
  unfold overwrite
  rw [outcome_bind, outcome_readText]
  cases nul : s.path.hasNul with
  | true => exact iff_of_true ⟨_, rfl⟩ (.nulInPath nul)
  | false =>
      simp only [Bool.false_eq_true, if_false]
      cases read : w.files.readText s.path with
      | error failure =>
          cases failure with
          | encoding failure => exact iff_of_true ⟨_, rfl⟩ (.notText failure nul read)
          | file error =>
              refine iff_of_false ?_ ?_
              · intro ⟨_, escaped⟩
                cases escaped
              · intro escapes
                have known := escapes.read nul
                simp [read] at known
          | system error =>
              refine iff_of_false ?_ ?_
              · intro ⟨_, escaped⟩
                cases escaped
              · intro escapes
                have known := escapes.read nul
                simp [read] at known
      | ok found =>
          by_cases same : found = s.text
          · subst same
            have replacing := outcome_replaceText_escapes s.path text w
            have asWell : s.WriteEscapes w.files text ↔ w.files.Unwritable s.path text := by
              constructor
              · intro escapes
                have known := escapes.read nul
                simpa [read] using known
              · exact .notWritable nul read
            rw [asWell, ← replacing]
            simp only [ne_eq, not_true_eq_false, if_false, outcome_bind]
            split
            · next ended =>
                rw [ended]
                refine iff_of_false ?_ ?_
                · intro ⟨_, escaped⟩
                  cases escaped
                · intro ⟨_, escaped⟩
                  cases escaped
            · next failure _ ended =>
                rw [ended]
                exact iff_of_true ⟨failure, rfl⟩ ⟨failure, rfl⟩
          · refine iff_of_false ?_ ?_
            · simp only [ne_eq, same, not_false_eq_true, if_true]
              intro ⟨_, escaped⟩
              cases escaped
            · intro escapes
              have known := escapes.read nul
              simp [read, same] at known

/-! ## §3. Fixing. -/

theorem fixBy_returns_iff (options : FixOptions) (answers : Option Answers) (s : Source)
    (violations : List Violation) (w : Workspace) :
    (∃ r, (outcome (fixBy options answers s violations) w).1 = .ok r)
      ↔ ¬ ∃ text, options.apply = true
          ∧ (dryRun options answers s violations).fixedText = some text
          ∧ s.WriteEscapes w.files text := by
  unfold fixBy
  cases failed : (dryRun options answers s violations).failure with
  | some failure =>
      obtain ⟨skipped, isUnfixed⟩ := dryRun_of_failure options answers s violations failed
      refine iff_of_true ?_ ?_
      · rw [isUnfixed]
        exact ⟨_, rfl⟩
      · intro ⟨text, _, isFixed, _⟩
        rw [isUnfixed] at isFixed
        cases isFixed
  | none =>
      simp only [failed, outcome_bind, outcome_logAll]
      split
      · next new isFixed isApply =>
          have writing := outcome_overwrite_escapes s new ⟨w.files, w.journal
            ++ (dryRun options answers s violations).skipped.map .fixSkipped⟩
          have asWell : (∃ text, options.apply = true
                ∧ (dryRun options answers s violations).fixedText = some text
                ∧ s.WriteEscapes w.files text) ↔ s.WriteEscapes w.files new := by
            simp [isFixed, isApply]
          rw [asWell, ← writing, outcome_bind]
          split
          · next answer w' ended =>
              refine iff_of_true ?_ ?_
              · cases answer with
                | ok _ => exact ⟨_, rfl⟩
                | error failure => exact ⟨_, rfl⟩
              · intro ⟨_, escaped⟩
                rw [ended] at escaped
                cases escaped
          · next failure w' ended =>
              refine iff_of_false ?_ ?_
              · intro ⟨_, isOk⟩
                cases isOk
              · intro none_
                exact none_ ⟨failure, by rw [ended]⟩
      · next notBoth =>
          refine iff_of_true ⟨_, rfl⟩ ?_
          intro ⟨text, isApply, isFixed, _⟩
          exact notBoth text isFixed isApply

/-- **Exactly this escapes from fixing a source:** it ends with a result, be it
one with an error, unless somebody who is asked does not answer, or there is a text to be
written, by the answers, whose writing escapes. -/
theorem fix_returns_iff (options : FixOptions) (confirm : Option Confirm) (s : Source)
    (violations : List Violation) (w : Workspace) :
    (∃ r, (outcome (fix options confirm s violations) w).1 = .ok r)
      ↔ ∃ answers, answersFor? options confirm (FixOffer.ofViolations violations) = some answers
          ∧ ¬ ∃ text, options.apply = true
            ∧ (dryRun options answers s violations).fixedText = some text
            ∧ s.WriteEscapes w.files text := by
  rw [outcome_fix]
  cases answersFor? options confirm (FixOffer.ofViolations violations) with
  | none =>
      refine iff_of_false ?_ ?_
      · intro ⟨_, isOk⟩
        cases isOk
      · intro ⟨_, isSome, _⟩
        cases isSome
  | some answers =>
      simp only [Option.some.injEq, exists_eq_left']
      exact fixBy_returns_iff options answers s violations w

/-- A file `f` in the working directory, and nothing else. -/
def oneFile (bytes : List UInt8) : Workspace where
  files := (FileStore.empty []).set ["f"] (.file bytes)
  journal := []

/-- Fixing what is detected in a text ends so when the file holds the given
bytes. -/
def EndsWith (text : Text) (options : FixOptions) (bytes : List UInt8)
    (failure : SessionFailure) : Prop :=
  ∃ s detection, Source.ofText ⟨.here, ["f"]⟩ text = .ok s
    ∧ (Detector.builtIn .standard).detect s = .ok detection
    ∧ (outcome (fix options none s detection.violations) (oneFile bytes)).1 = .error failure

/-- Bytes that are no text, and a text that cannot be written: the first half of
a pair, which the source has as an escape, stands alone in it. -/
theorem not_fix_returns :
    EndsWith "input.stage" ⟨true, .high, false⟩ [0xFF] (.notText .invalidStart)
      ∧ (∃ bytes, Utf8.encode? "'\\ud83d'+b.arn" = some bytes
          ∧ EndsWith "'\\ud83d'+b.arn" ⟨true, .medium, false⟩ bytes .notWritable)
      ∧ ¬ ∀ (text : Text) (s : Source) (detection : Detection) (options : FixOptions)
          (w : Workspace), Source.ofText ⟨.here, ["f"]⟩ text = .ok s →
            (Detector.builtIn .standard).detect s = .ok detection → options.apply = true →
            ∃ r, (outcome (fix options none s detection.violations) w).1 = .ok r := by
  have notText : EndsWith "input.stage" ⟨true, .high, false⟩ [0xFF] (.notText .invalidStart) := by
    refine ⟨_, _, rfl, rfl, by decide +kernel⟩
  refine ⟨notText, ⟨_, rfl, _, _, rfl, rfl, by decide +kernel⟩, ?_⟩
  intro all
  obtain ⟨s, detection, read, isOk, escaped⟩ := notText
  obtain ⟨r, returned⟩ := all "input.stage" s detection ⟨true, .high, false⟩ (oneFile [0xFF])
    read isOk rfl
  rw [escaped] at returned
  cases returned

end Session

end StackLint
