/-
  StackLint.Proofs.Workspace.Safety
  ─────────────────────────────────
  **FIXING IS SAFE FOR THE FILES.**

  Over a whole run, in which files are also changed from outside at any time,
  a call of the fixer changes a file only when its result says so, and then the
  file held the text of the source and holds the fixed text.  One call is safe
  whatever the files are; the run is by induction on its steps.
-/
import StackLint.Proofs.Fixing.Outcome
import StackLint.Proofs.Workspace.Writing

namespace StackLint

/-! ## §1. Safe ends. -/

/-- **How a call of the fixer may end.**  `mayWrite` is whether it is no dry
run, and `text?` the text that its fixes are meant for, unless the call reads
that from the file. -/
structure SafeEnd (mayWrite : Bool) (path : Path) (text? : Option Text)
    (before : FileStore) (result : Except SessionFailure FixResult) (after : FileStore) :
    Prop where
  /-- Where the result says so, the file held the text that the fixes are meant
  for, and holds that text with the applied fixes substituted. -/
  written : ∀ r, result = .ok r → r.written = true →
    mayWrite = true ∧ r.failure = none ∧ r.applied ≠ [] ∧ r.fixCount = r.applied.length
      ∧ ∃ old new, (∀ text, text? = some text → old = text)
          ∧ r.fixedText = some new ∧ new = Fix.substitution (r.applied.map FixOffer.fix) old
          ∧ before.Rewritten after path old new
  /-- Every other end, a failure that escapes among them, leaves the files. -/
  untouched : (∀ r, result = .ok r → r.written = false) → before.Untouched after path
  /-- A result with a failure offers nothing. -/
  unfixed : ∀ r, result = .ok r → r.failure ≠ none →
    r.written = false ∧ r.fixCount = 0 ∧ r.fixedText = none ∧ r.applied = []

namespace SafeEnd
variable {mayWrite : Bool} {path : Path} {text? : Option Text} {files : FileStore}

/-- A failure that escapes is safe when nothing is touched. -/
theorem escaped {after : FileStore} {failure : SessionFailure}
    (untouched : files.Untouched after path) :
    SafeEnd mayWrite path text? files (.error failure) after where
  written := fun _ isOk => nomatch isOk
  untouched := fun _ => untouched
  unfixed := fun _ isOk => nomatch isOk

/-- A result without fixes is safe when nothing is touched. -/
theorem stopped {after : FileStore} {skipped : List SkippedFix} {failure : Option FixFailure}
    (untouched : files.Untouched after path) :
    SafeEnd mayWrite path text? files (.ok (.unfixed skipped failure)) after where
  written := by
    intro r isOk written
    cases isOk
    cases written
  untouched := fun _ => untouched
  unfixed := by
    intro r isOk _
    cases isOk
    exact ⟨rfl, rfl, rfl, rfl⟩

/-- A dry run is safe. -/
theorem previewed {r : FixResult} (notWritten : r.written = false) (noFailure : r.failure = none) :
    SafeEnd mayWrite path text? files (.ok r) files where
  written := by
    intro _ isOk written
    cases isOk
    rw [notWritten] at written
    cases written
  untouched := fun _ => .refl _ _
  unfixed := by
    intro _ isOk failed
    cases isOk
    exact absurd noFailure failed

/-- A dry run whose text is written to the file is safe when the file is
rewritten from the text that the run is about. -/
theorem overwritten {after : FileStore} {r : FixResult} {violations : List Violation}
    {old new : Text} (allowed : mayWrite = true) (noFailure : r.failure = none)
    (fixed : r.fixedText = some new) (settled : r.Settles violations old)
    (rewritten : files.Rewritten after path old new) :
    SafeEnd mayWrite path (some old) files (.ok { r with written := true }) after where
  written := by
    intro _ isOk _
    cases isOk
    have substituted := settled.substituted
    rw [fixed] at substituted
    by_cases none_ : r.applied = []
    · rw [if_pos none_] at substituted
      cases substituted
    · rw [if_neg none_, Option.some.injEq] at substituted
      refine ⟨allowed, noFailure, none_, settled.counted, old, new, ?_, fixed, substituted,
        rewritten⟩
      intro text same
      cases same
      rfl
  untouched := by
    intro notWritten
    cases notWritten _ rfl
  unfixed := by
    intro _ isOk failed
    cases isOk
    exact absurd noFailure failed

/-- What is safe for a known text is safe for whichever text the file holds. -/
theorem forget {after : FileStore} {result : Except SessionFailure FixResult}
    (safe : SafeEnd mayWrite path text? files result after) :
    SafeEnd mayWrite path none files result after where
  written := by
    intro r isOk written
    obtain ⟨allowed, noFailure, some_, counted, old, new, known, fixed⟩ :=
      safe.written r isOk written
    refine ⟨allowed, noFailure, some_, counted, old, new, ?_, fixed⟩
    intro text isSome
    cases isSome
  untouched := safe.untouched
  unfixed := safe.unfixed

end SafeEnd

/-! ## §2. Dry runs. -/

section
variable (options : FixOptions) (answers : Option Answers) (s : Source)
  (violations : List Violation)

theorem dryRun_of_failure {failure : FixFailure}
    (failed : (dryRun options answers s violations).failure = some failure) :
    ∃ skipped, dryRun options answers s violations = .unfixed skipped (some failure) := by
  unfold dryRun at failed ⊢
  simp only at failed ⊢
  split at failed
  · cases failed
    exact ⟨_, rfl⟩
  · unfold FixResult.ofAccepted at failed
    split at failed <;> cases failed

theorem dryRun_written : (dryRun options answers s violations).written = false := by
  unfold dryRun
  simp only
  split
  · rfl
  · unfold FixResult.ofAccepted
    split <;> rfl

end

/-! ## §3. Calls. -/

namespace Session

/-- Fixing a source by answers is safe, whatever the answers are. -/
theorem fixBy_safe {options : FixOptions} {answers : Option Answers} {s : Source}
    {violations : List Violation} {w w' : Workspace} {result : Except SessionFailure FixResult}
    (done : outcome (fixBy options answers s violations) w = (result, w')) :
    SafeEnd options.apply s.path (some s.text) w.files result w'.files := by
  have notWritten := dryRun_written options answers s violations
  unfold fixBy at done
  cases failed : (dryRun options answers s violations).failure with
  | some failure =>
      obtain ⟨skipped, isUnfixed⟩ := dryRun_of_failure options answers s violations failed
      rw [isUnfixed] at done
      cases done
      exact .stopped (.refl _ _)
  | none =>
      simp only [failed, outcome_bind, outcome_logAll] at done
      split at done
      · next new isFixed isApply =>
          rw [outcome_bind] at done
          split at done
          · next answer w'' ended =>
              rcases overwrite_spec ended with ⟨same, rewritten⟩ | ⟨stopped, untouched⟩
              · cases same
                cases done
                have safe := SafeEnd.overwritten isApply failed isFixed (dryRun_settles failed)
                  rewritten
                rw [failed] at safe
                exact safe
              · cases answer with
                | ok _ => exact absurd rfl stopped
                | error failure =>
                    cases done
                    exact .stopped untouched
          · next failure w'' ended =>
              rcases overwrite_spec ended with ⟨same, _⟩ | ⟨_, untouched⟩
              · cases same
              · cases done
                exact .escaped untouched
      · cases done
        exact .previewed notWritten failed

/-- **Fixing a source is safe,** whatever the source, the violations, the
options and the files are, and whoever is asked. -/
theorem fix_safe {options : FixOptions} {confirm : Option Confirm} {s : Source}
    {violations : List Violation} {w w' : Workspace} {result : Except SessionFailure FixResult}
    (done : outcome (fix options confirm s violations) w = (result, w')) :
    SafeEnd options.apply s.path (some s.text) w.files result w'.files := by
  rw [outcome_fix] at done
  split at done
  · cases done
    exact .escaped (.refl _ _)
  · exact fixBy_safe done

/-- Reading a source leaves the files, and the source is what is in them. -/
theorem readSource_spec {p : Path} {w w' : Workspace}
    {result : Except SessionFailure (Except ReadFailure Source)}
    (done : outcome (readSource p) w = (result, w')) :
    w'.files = w.files ∧ ∀ s, result = .ok (.ok s) → s.path = p := by
  unfold readSource at done
  rw [outcome_bind, outcome_readText] at done
  by_cases nul : p.hasNul = true
  · rw [if_pos nul] at done
    cases done
    exact ⟨rfl, fun _ isOk => nomatch isOk⟩
  · rw [if_neg nul] at done
    simp only at done
    cases isRead : w.files.readText p with
    | error failure =>
        rw [isRead] at done
        cases done
        exact ⟨rfl, fun _ isOk => nomatch isOk⟩
    | ok text =>
        simp only [isRead, outcome_bind, sourceOfText] at done
        cases made : Source.ofText p text with
        | error failure =>
            rw [made] at done
            cases done
            exact ⟨rfl, fun _ isOk => nomatch isOk⟩
        | ok source =>
            simp only [made] at done
            have path : source.path = p := by
              obtain ⟨program, _, isSource⟩ := bind_eq_ok.mp made
              cases isSource
              rfl
            have known : ∀ s, Except.ok (Except.ok source)
                = (.ok (.ok s) : Except SessionFailure (Except ReadFailure Source)) →
                s.path = p := by
              intro s isOk
              cases isOk
              exact path
            by_cases silent : source.complaints.isEmpty = true
            · rw [if_pos silent] at done
              cases done
              exact ⟨rfl, known⟩
            · rw [if_neg silent] at done
              cases done
              exact ⟨rfl, known⟩

/-- Fixing a file is safe: the text that the fixes are meant for is read from
it. -/
theorem fixFile_safe {options : FixOptions} {confirm : Option Confirm} {asked : Text}
    {violations : List Violation} {w w' : Workspace} {result : Except SessionFailure FixResult}
    (done : outcome (fixFile options confirm asked violations) w = (result, w')) :
    SafeEnd options.apply (Path.ofText asked) none w.files result w'.files := by
  unfold fixFile at done
  simp only [outcome_bind] at done
  split at done
  · next answer w'' ended =>
      obtain ⟨files, path⟩ := readSource_spec ended
      cases answer with
      | error failure =>
          cases done
          have untouched : w.files.Untouched w''.files (Path.ofText asked) := files ▸ .refl _ _
          exact .stopped untouched
      | ok source =>
          have safe := fix_safe done
          rw [files, path source rfl] at safe
          exact safe.forget
  · next failure w'' ended =>
      obtain ⟨files, _⟩ := readSource_spec ended
      cases done
      exact .escaped (files ▸ .refl _ _)

/-- A preview is safe: it may not write. -/
theorem preview_safe {options : FixOptions} {confirm : Option Confirm} {s : Source}
    {violations : List Violation} {w w' : Workspace} {result : Except SessionFailure FixResult}
    (done : outcome (preview options confirm s violations) w = (result, w')) :
    SafeEnd false s.path (some s.text) w.files result w'.files :=
  fix_safe done

end Session

/-! ## §4. Runs. -/

/-- A call of the fixer. -/
inductive FixCall where
  | fix (options : FixOptions) (confirm : Option Confirm) (source : Source)
      (violations : List Violation)
  | preview (options : FixOptions) (confirm : Option Confirm) (source : Source)
      (violations : List Violation)
  | fixFile (options : FixOptions) (confirm : Option Confirm) (asked : Text)
      (violations : List Violation)

namespace FixCall

/-- What the call does. -/
def session : FixCall → Session FixResult
  | .fix options confirm source violations => Session.fix options confirm source violations
  | .preview options confirm source violations =>
      Session.preview options confirm source violations
  | .fixFile options confirm asked violations =>
      Session.fixFile options confirm asked violations

/-- Whether the call is no dry run. -/
def mayWrite : FixCall → Bool
  | .fix options _ _ _ => options.apply
  | .preview _ _ _ _ => false
  | .fixFile options _ _ _ => options.apply

/-- The file of the call. -/
def path : FixCall → Path
  | .fix _ _ source _ => source.path
  | .preview _ _ source _ => source.path
  | .fixFile _ _ asked _ => Path.ofText asked

/-- The text that the fixes are meant for, unless it is read from the file. -/
def text? : FixCall → Option Text
  | .fix _ _ source _ => some source.text
  | .preview _ _ source _ => some source.text
  | .fixFile _ _ _ _ => none

/-- **Every call is safe.** -/
theorem safe (call : FixCall) (w : Workspace) :
    SafeEnd call.mayWrite call.path call.text? w.files (Session.outcome call.session w).1
      (Session.outcome call.session w).2.files := by
  cases call with
  | fix options confirm source violations => exact Session.fix_safe rfl
  | preview options confirm source violations => exact Session.preview_safe rfl
  | fixFile options confirm asked violations => exact Session.fixFile_safe rfl

end FixCall

/-- A step of a run. -/
inductive RunStep where
  /-- Something else changes the files, in any way. -/
  | outside (files : FileStore)
  | call (call : FixCall)

/-- A call in a run: the files before it, how it ended, and the files after
it. -/
structure RunEvent where
  call : FixCall
  before : FileStore
  result : Except SessionFailure FixResult
  after : FileStore

/-- The calls of a run, each on the workspace that the steps before it left. -/
def runEvents : Workspace → List RunStep → List RunEvent
  | _, [] => []
  | w, .outside files :: steps => runEvents { w with files := files } steps
  | w, .call call :: steps =>
      let ended := Session.outcome call.session w
      ⟨call, w.files, ended.1, ended.2.files⟩ :: runEvents ended.2 steps

/-- **Runs are safe for the files.**  Whatever happens to the files between
calls, and whichever calls there are, each of them ends safely. -/
theorem runEvents_safe (steps : List RunStep) (w : Workspace) :
    ∀ e ∈ runEvents w steps,
      SafeEnd e.call.mayWrite e.call.path e.call.text? e.before e.result e.after := by
  induction steps generalizing w with
  | nil =>
      intro e inside
      cases inside
  | cons step steps ih =>
      cases step with
      | outside files => exact ih { w with files := files }
      | call call =>
          intro e inside
          rcases List.mem_cons.mp inside with rfl | later
          · exact call.safe w
          · exact ih (Session.outcome call.session w).2 e later

/-- Two calls in a row with what was found in `abcd`: the first one writes, and
the second one finds another text than it is meant for. -/
theorem runEvents_safe_twice :
    let place : Location := ["f"]
    let source : Source := { abcd with path := ⟨.here, place⟩ }
    let call := FixCall.fix ⟨true, .low, false⟩ none source
      [crossOut 1 3 .medium (by decide), crossOut 0 0 .low (by decide)]
    let files := (FileStore.empty []).set place (.file [0x61, 0x62, 0x63, 0x64])
    let events := runEvents ⟨files, []⟩ [.call call, .call call]
    events.map (fun e => (e.result.toOption.map FixResult.written, e.after.entry? place))
        = [(some true, some (.file [0x78, 0x61, 0x78, 0x64])),
          (some false, some (.file [0x78, 0x61, 0x78, 0x64]))]
      ∧ ∀ e ∈ events,
          SafeEnd e.call.mayWrite e.call.path e.call.text? e.before e.result e.after := by
  refine ⟨by cbv, ?_⟩
  intro e inside
  exact runEvents_safe _ _ e inside

end StackLint
