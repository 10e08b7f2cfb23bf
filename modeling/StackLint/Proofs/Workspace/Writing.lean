/-
  StackLint.Proofs.Workspace.Writing
  ──────────────────────────────────
  **WHAT WRITING DOES TO THE FILES.**

  A file is either replaced as a whole, and then it held the text that the new
  one was made from, or nothing that was there is changed, whether the failure
  is reported or escapes.
-/
import StackLint.Proofs.Files.Store
import StackLint.Proofs.Text.Utf8
import StackLint.Proofs.Workspace.Session

namespace StackLint

/-! ## §1. Files before and after. -/

namespace FileStore

/-- What a path leads to, and all else that was there, is as before. -/
def Untouched (before after : FileStore) (p : Path) : Prop :=
  ∀ l, before.entry? l ≠ none ∨ before.locate p = .ok l → after.entry? l = before.entry? l

/-- The file that a path leads to held one text and holds another one; all
else is as before. -/
def Rewritten (before after : FileStore) (p : Path) (old new : Text) : Prop :=
  ∃ target oldBytes newBytes, before.locate p = .ok target
    ∧ before.entry? target = some (.file oldBytes) ∧ Utf8.decode oldBytes = .ok old
    ∧ Utf8.encode? new = some newBytes ∧ Utf8.decode newBytes = .ok new
    ∧ before.Replaced after target newBytes

theorem Untouched.refl (store : FileStore) (p : Path) : store.Untouched store p :=
  fun _ _ => rfl

/-- A text is read from a file that decodes to it. -/
theorem readText_eq_ok {store : FileStore} {p : Path} {text : Text}
    (h : store.readText p = .ok text) :
    ∃ target bytes, store.locate p = .ok target ∧ store.entry? target = some (.file bytes)
      ∧ Utf8.decode bytes = .ok text := by
  unfold readText at h
  split at h
  · cases h
  · next bytes isRead =>
      obtain ⟨entry, found, isRead⟩ := bind_eq_ok.mp isRead
      obtain ⟨target, located, found⟩ := bind_eq_ok.mp found
      cases entry with
      | folder => cases isRead
      | file content =>
          cases isRead
          refine ⟨target, bytes, located, ?_⟩
          cases there : store.entry? target with
          | none => simp [there, throw, throwThe, MonadExceptOf.throw] at found
          | some entry =>
              simp only [there] at found
              cases found
              refine ⟨rfl, ?_⟩
              split at h
              · cases h
              · split at h
                · cases h
                · next decoded =>
                    cases h
                    exact decoded

end FileStore

/-! ## §2. Outcomes. -/

namespace Session

@[simp] theorem outcome_files (w : Workspace) : outcome files w = (.ok w.files, w) := rfl

@[simp] theorem outcome_setFiles (files : FileStore) (w : Workspace) :
    outcome (setFiles files) w = (.ok (), { w with files := files }) := rfl

theorem outcome_readText (p : Path) (w : Workspace) :
    outcome (readText p) w
      = (if p.hasNul then .error .nulInPath else .ok (w.files.readText p), w) := by
  unfold readText
  by_cases nul : p.hasNul = true
  · rw [if_pos nul, if_pos nul]
    rfl
  · rw [if_neg nul, if_neg nul]
    rfl

/-- What becomes of a session that discards a temporary file. -/
theorem outcome_discard (temporary : Location) (w : Workspace) :
    outcome (discard temporary) w = match w.files.discard temporary with
      | .error failure => (.ok (some failure), w)
      | .ok files => (.ok none, { w with files := files }) := by
  unfold discard
  simp only [outcome_bind, outcome_files]
  cases w.files.discard temporary with
  | error failure => rfl
  | ok files => rfl

/-! ## §3. Replacing. -/

section
variable {w w' : Workspace} {p : Path} {target : Location}

/-- With a temporary file discarded, or left over, all that was there before is
as it was. -/
theorem untouched_of_discard {before : FileStore} {temporary : Location} {bytes : List UInt8}
    {result : Except SessionFailure (Option ReplaceFailure)}
    (located : before.locate p = .ok target) (there : before.entry? target ≠ none)
    (beside : before.Beside w.files temporary bytes)
    (done : outcome (discard temporary) w = (result, w')) : before.Untouched w'.files p := by
  intro l known
  have isThere : before.entry? l ≠ none := by
    rcases known with isThere | leads
    · exact isThere
    · rw [located] at leads
      cases leads
      exact there
  rw [outcome_discard] at done
  split at done
  · cases done
    exact beside.others l (beside.ne_temporary isThere)
  · next files discarded =>
      cases done
      exact FileStore.discard_eq beside discarded l

/-- The temporary file is filled and moved, or it is still there. -/
theorem fillAndMove_spec {before store after : FileStore} {temporary : Location}
    {old bytes : List UInt8} {moved : Except ReplaceFailure Unit}
    (located : before.locate p = .ok target) (there : before.entry? target ≠ none)
    (beside : before.Beside store temporary old)
    (done : store.fillAndMove temporary p bytes = (after, moved)) :
    match moved with
    | .ok () => before.Replaced after target bytes
    | .error _ => ∃ held, before.Beside after temporary held := by
  unfold FileStore.fillAndMove at done
  split at done
  · cases done
    exact ⟨old, beside⟩
  · next filled isFilled =>
      have besideFilled := FileStore.fill_beside beside isFilled
      split at done
      · cases done
        exact ⟨bytes, besideFilled⟩
      · next isMoved =>
          cases done
          exact FileStore.moveTo_replaced besideFilled located there isMoved

/-- Replacing a text succeeds, and then only the file is changed; or it does
not, and then nothing is. -/
theorem replaceText_spec {text : Text}
    {result : Except SessionFailure (Except ReplaceFailure Unit)}
    (located : w.files.locate p = .ok target) (there : w.files.entry? target ≠ none)
    (done : outcome (replaceText p text) w = (result, w')) :
    (result = .ok (.ok ()) ∧ ∃ bytes, Utf8.encode? text = some bytes
        ∧ w.files.Replaced w'.files target bytes)
      ∨ (result ≠ .ok (.ok ()) ∧ w.files.Untouched w'.files p) := by
  unfold replaceText at done
  simp only [outcome_bind, outcome_files] at done
  split at done
  · cases done
    exact .inr ⟨by simp, .refl _ _⟩
  · next temporary made isMade =>
      have beside := FileStore.temporaryBeside_beside isMade
      simp only [outcome_bind, outcome_setFiles] at done
      split at done
      · -- the text cannot be written
        simp only [outcome_bind] at done
        split at done
        · next discarded w'' ended =>
            have untouched := untouched_of_discard located there beside ended
            cases discarded with
            | some failure =>
                cases done
                exact .inr ⟨by simp, untouched⟩
            | none =>
                cases done
                exact .inr ⟨by simp, untouched⟩
        · next failure w'' ended =>
            have untouched := untouched_of_discard located there beside ended
            cases done
            exact .inr ⟨by simp, untouched⟩
      · next bytes encoded =>
          cases filled : made.fillAndMove temporary p bytes with
          | mk after moved =>
              have spec := fillAndMove_spec located there beside filled
              simp only [filled, outcome_bind, outcome_setFiles] at done
              cases moved with
              | ok _ =>
                  cases done
                  exact .inl ⟨rfl, bytes, encoded, spec⟩
              | error failure =>
                  obtain ⟨held, still⟩ := spec
                  simp only [outcome_bind] at done
                  split at done
                  · next ended =>
                      cases done
                      exact .inr ⟨by simp, untouched_of_discard located there still ended⟩
                  · next ended =>
                      cases done
                      exact .inr ⟨by simp, untouched_of_discard located there still ended⟩

/-- **A file is overwritten only when it holds the text of the source.**  It is
then replaced as a whole; otherwise nothing that was there is touched. -/
theorem overwrite_spec {s : Source} {text : Text}
    {result : Except SessionFailure (Except FixFailure Unit)}
    (done : outcome (overwrite s text) w = (result, w')) :
    (result = .ok (.ok ()) ∧ w.files.Rewritten w'.files s.path s.text text)
      ∨ (result ≠ .ok (.ok ()) ∧ w.files.Untouched w'.files s.path) := by
  unfold overwrite at done
  rw [outcome_bind, outcome_readText] at done
  by_cases nul : s.path.hasNul = true
  · rw [if_pos nul] at done
    cases done
    exact .inr ⟨by simp, .refl _ _⟩
  · rw [if_neg nul] at done
    simp only at done
    split at done
    · cases done
      exact .inr ⟨by simp, .refl _ _⟩
    · cases done
      exact .inr ⟨by simp, .refl _ _⟩
    · cases done
      exact .inr ⟨by simp, .refl _ _⟩
    · next found isRead =>
        split at done
        · cases done
          exact .inr ⟨by simp, .refl _ _⟩
        · next same =>
            obtain ⟨target, bytes, located, there, decoded⟩ := FileStore.readText_eq_ok isRead
            rw [outcome_bind] at done
            cases ended : outcome (replaceText s.path text) w with
            | mk replaced w'' =>
                have spec := replaceText_spec located (by simp [there]) ended
                rw [ended] at done
                rcases spec with ⟨rfl, newBytes, encoded, changed⟩ | ⟨failed, untouched⟩
                · cases done
                  refine .inl ⟨rfl, target, bytes, newBytes, located, there, ?_, encoded,
                    Utf8.decode_encode encoded, changed⟩
                  rw [decoded, Decidable.not_not.mp same]
                · cases replaced with
                  | error failure =>
                      cases done
                      exact .inr ⟨by simp, untouched⟩
                  | ok answer =>
                      cases answer with
                      | ok _ => exact absurd rfl failed
                      | error failure =>
                          cases done
                          exact .inr ⟨nofun, untouched⟩

end

end Session

end StackLint
