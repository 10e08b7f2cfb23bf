/-
  StackLint.Proofs.Workspace.Session
  ──────────────────────────────────
  **HOW SESSIONS GO.**

  A session takes a workspace and leaves one, whether it ends normally or
  fails.  The equations of `Session.outcome` run a session step by step.
-/
import StackLint.Workspace.Fix

namespace StackLint

namespace Session

/-! ## §1. Outcomes. -/

/-- How a session on a workspace ends, and the workspace it leaves. -/
def outcome {α : Type} (m : Session α) (w : Workspace) : Except SessionFailure α × Workspace :=
  m.run.run w

@[simp] theorem outcome_pure {α : Type} (a : α) (w : Workspace) :
    outcome (pure a) w = (.ok a, w) := rfl

@[simp] theorem outcome_throw {α : Type} (e : SessionFailure) (w : Workspace) :
    outcome (throw e : Session α) w = (.error e, w) := rfl

/-- A session goes on where its first part ends, unless that fails. -/
theorem outcome_bind {α β : Type} (m : Session α) (f : α → Session β) (w : Workspace) :
    outcome (m >>= f) w = match outcome m w with
      | (.ok a, w') => outcome (f a) w'
      | (.error e, w') => (.error e, w') := by
  unfold outcome ExceptT.run StateT.run
  simp only [bind, ExceptT.bind, ExceptT.mk, StateT.bind]
  cases m w with
  | mk result w' =>
      cases result with
      | ok a => rfl
      | error e => rfl

@[simp] theorem outcome_log (e : LogEvent) (w : Workspace) :
    outcome (log e) w = (.ok (), { w with journal := w.journal ++ [e] }) := rfl

@[simp] theorem outcome_logAll (es : List LogEvent) (w : Workspace) :
    outcome (logAll es) w = (.ok (), { w with journal := w.journal ++ es }) := rfl

/-! ## §2. Fixing. -/

/-- A session of fixing ends early when somebody who is asked does not answer, and goes on by
the answers otherwise. -/
theorem outcome_fix (options : FixOptions) (confirm : Option Confirm) (s : Source)
    (violations : List Violation) (w : Workspace) :
    outcome (fix options confirm s violations) w
      = match answersFor? options confirm (FixOffer.ofViolations violations) with
        | none => (.error .unanswered, w)
        | some answers => outcome (fixBy options answers s violations) w := by
  unfold fix
  cases answersFor? options confirm (FixOffer.ofViolations violations) <;> rfl

theorem fixBy_ok {options : FixOptions} {answers : Option Answers} {s : Source}
    {violations : List Violation} {w w' : Workspace} {r : FixResult}
    (done : outcome (fixBy options answers s violations) w = (.ok r, w'))
    (noError : r.failure = none) :
    (dryRun options answers s violations).failure = none
      ∧ ∃ written, r = { dryRun options answers s violations with written := written } := by
  unfold fixBy at done
  cases failed : (dryRun options answers s violations).failure with
  | some failure =>
      simp only [failed, outcome_bind, outcome_log, outcome_pure, Prod.mk.injEq,
        Except.ok.injEq] at done
      rw [← done.1, failed] at noError
      cases noError
  | none =>
      refine ⟨rfl, ?_⟩
      simp only [failed, outcome_bind, outcome_logAll] at done
      split at done
      · rw [outcome_bind] at done
        split at done
        · next result _ _ =>
            cases result with
            | error failure =>
                simp only [outcome_bind, outcome_log, outcome_pure, Prod.mk.injEq,
                  Except.ok.injEq] at done
                rw [← done.1] at noError
                cases noError
            | ok _ =>
                simp only [outcome_bind, outcome_log, outcome_pure, Prod.mk.injEq,
                  Except.ok.injEq] at done
                refine ⟨true, ?_⟩
                rw [← done.1]
                simp only [failed]
        · simp only [Prod.mk.injEq, reduceCtorEq, false_and] at done
      · simp only [outcome_pure, Prod.mk.injEq, Except.ok.injEq] at done
        refine ⟨(dryRun options answers s violations).written, ?_⟩
        rw [← done.1]

/-- **What a session of fixing returns without an error** is what the dry run
finds by the answers that were given; only whether the file was written is not known. -/
theorem fix_ok {options : FixOptions} {confirm : Option Confirm} {s : Source}
    {violations : List Violation} {w w' : Workspace} {r : FixResult}
    (done : outcome (fix options confirm s violations) w = (.ok r, w'))
    (noError : r.failure = none) :
    ∃ answers, answersFor? options confirm (FixOffer.ofViolations violations) = some answers
      ∧ (dryRun options answers s violations).failure = none
      ∧ ∃ written, r = { dryRun options answers s violations with written := written } := by
  rw [outcome_fix] at done
  split at done
  · cases done
  · next answers asked => exact ⟨answers, asked, fixBy_ok done noError⟩

end Session

end StackLint
