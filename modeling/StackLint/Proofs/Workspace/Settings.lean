/-
  StackLint.Proofs.Workspace.Settings
  ───────────────────────────────────
  **WHAT ESCAPES FROM LOADING SETTINGS.**

  A settings file is read as valid settings or else gives the standard ones.  Three
  failures are neither: the bytes of the file are no text at all, or the text has
  an integer that is too long for a number, or it opens more brackets than there is
  room for on the stack.  Here it is shown that these escape, and nothing else, for
  every way to tell valid settings from invalid ones and all room on the stack.
-/
import StackLint.Proofs.Json.Reading
import StackLint.Proofs.Workspace.Writing
import StackLint.Workspace.Check

namespace StackLint

/-! ## §1. Bytes. -/

/-- A row of one byte that is a character is a row of the character. -/
theorem Utf8.decode_replicate {byte : UInt8} {c : CodePoint}
    (alone : ∀ rest, decode (byte :: rest) = (do let tail ← decode rest; return c :: tail))
    (n : Nat) : decode (List.replicate n byte) = .ok (List.replicate n c) := by
  induction n with
  | zero => rfl
  | succ n ih =>
      rw [List.replicate_succ, List.replicate_succ, alone, ih]
      rfl

namespace Settings

/-- What the bytes of a file say as settings: they are the text of a JSON value,
and the value is valid. -/
def Said (validate : Json → Option Settings) (bytes : List UInt8) (s : Settings) : Prop :=
  ∃ t v, Utf8.decode bytes = .ok t ∧ Json.Denotes t v ∧ validate v = some s

/-- **What escapes from reading settings in the bytes of a file,** where there is room for so
many arrays and objects in one another. -/
inductive Escapes (room : Nat) (bytes : List UInt8) : SessionFailure → Prop where
  /-- The bytes are not UTF-8. -/
  | notText {failure : Utf8Failure} (noText : Utf8.decode bytes = .error failure) :
      Escapes room bytes (.notText failure)
  /-- In the text an integer is met that is too long. -/
  | integerTooLong {t : Text} {digits : Nat} (isText : Utf8.decode bytes = .ok t)
      (met : Json.read room t = .error (.integerTooLong digits)) :
      Escapes room bytes (.integerTooLong digits)
  /-- In the text an array or an object is met for which there is no room. -/
  | nestedTooDeep {t : Text} (isText : Utf8.decode bytes = .ok t)
      (met : Json.read room t = .error .nestedTooDeep) : Escapes room bytes .nestedTooDeep

/-- What the bytes of a file are read as. -/
def ofBytes (validate : Json → Option Settings) (room : Nat) (bytes : List UInt8) :
    Except SessionFailure Settings :=
  match Utf8.decode bytes with
  | .error failure => .error (.notText failure)
  | .ok t =>
      match ofText? validate room t with
      | .error (.integerTooLong digits) => .error (.integerTooLong digits)
      | .error .nestedTooDeep => .error .nestedTooDeep
      | .error .malformed | .ok none => .ok .standard
      | .ok (some s) => .ok s

section
variable {validate : Json → Option Settings} {room : Nat} {bytes : List UInt8}

/-- Text that is not read as JSON is not read as settings for the same reason. -/
theorem met_of_ofText? {t : Text} {failure : JsonFailure}
    (failed : ofText? validate room t = .error failure) : Json.read room t = .error failure := by
  unfold ofText? at failed
  split at failed
  · cases failed
  · next reason _ isFailure =>
      cases failed
      exact isFailure
  · cases failed

/-- What escapes is what reading the bytes ends with. -/
theorem ofBytes_eq_error_iff (failure : SessionFailure) :
    ofBytes validate room bytes = .error failure ↔ Escapes room bytes failure := by
  constructor
  · intro failed
    unfold ofBytes at failed
    split at failed
    · next noText =>
        cases failed
        exact .notText noText
    · next t isText =>
        split at failed
        · next digits met =>
            cases failed
            exact .integerTooLong isText (met_of_ofText? met)
        · next met =>
            cases failed
            exact .nestedTooDeep isText (met_of_ofText? met)
        · cases failed
        · cases failed
        · cases failed
  · rintro (noText | ⟨isText, met⟩ | ⟨isText, met⟩)
    · simp only [ofBytes, noText]
    · simp only [ofBytes, isText, ofText?, met]
    · simp only [ofBytes, isText, ofText?, met]

/-- What the bytes say is read, unless it is nested too deep. -/
theorem ofBytes_of_said {s : Settings} (said : Said validate bytes s)
    (shallow : ¬ Escapes room bytes .nestedTooDeep) : ofBytes validate room bytes = .ok s := by
  obtain ⟨t, v, isText, denotes, isValid⟩ := said
  have isRead := (Json.read_eq_ok_iff room t v).mpr
    ⟨denotes, fun met => shallow (.nestedTooDeep isText met)⟩
  simp only [ofBytes, isText, ofText?, isRead, isValid]

/-- Settings that the bytes do not say are the standard ones. -/
theorem ofBytes_eq_ok {s : Settings} (isOk : ofBytes validate room bytes = .ok s) :
    Said validate bytes s ∨ s = .standard := by
  unfold ofBytes at isOk
  split at isOk
  · cases isOk
  · next t isText =>
      split at isOk
      · cases isOk
      · cases isOk
      · cases isOk
        exact .inr rfl
      · cases isOk
        exact .inr rfl
      · next found isFound =>
          cases isOk
          left
          unfold ofText? at isFound
          split at isFound
          · cases isFound
          · cases isFound
          · next v isRead =>
              injection isFound with isValid
              exact ⟨t, v, isText, ((Json.read_eq_ok_iff room t v).mp isRead).1, isValid⟩

end

end Settings

/-! ## §2. Files. -/

/-- A path with a file at its end can be opened. -/
theorem FileStore.hasNul_of_read {store : FileStore} {p : Path} {bytes : List UInt8}
    (there : store.read p = .ok bytes) : p.hasNul = false := by
  obtain ⟨entry, found, _⟩ := bind_eq_ok.mp there
  obtain ⟨target, located, _⟩ := bind_eq_ok.mp found
  obtain ⟨here, begins, _⟩ := bind_eq_ok.mp located
  unfold origin at begins
  split at begins
  · cases begins
  · next noNul => simpa using noNul

theorem FileStore.exists?_of_read {store : FileStore} {p : Path} {bytes : List UInt8}
    (there : store.read p = .ok bytes) : store.exists? p = .ok true := by
  obtain ⟨entry, found, _⟩ := bind_eq_ok.mp there
  simp only [FileStore.exists?, found]

namespace Session

/-- With a settings file at its place, its bytes decide, unless the system refuses to
give them. -/
theorem outcome_settingsBy {validate : Json → Option Settings} {room : Nat}
    {folder : Option Path} {w : Workspace} {bytes : List UInt8}
    (there : w.files.read (settingsPath (folder.getD w.files.homePath)) = .ok bytes) :
    (outcome (settingsBy validate room folder) w).2.files = w.files
      ∧ (outcome (settingsBy validate room folder) w).1
        = if (w.files.readFault? (settingsPath (folder.getD w.files.homePath))).isSome
          then .ok .standard else Settings.ofBytes validate room bytes := by
  have noNul := FileStore.hasNul_of_read there
  have exists_ := FileStore.exists?_of_read there
  unfold settingsBy Session.exists?
  simp only [outcome_bind, outcome_files, exists_, outcome_pure, outcome_readText, noNul,
    Bool.false_eq_true, if_false, if_true]
  generalize settingsPath (folder.getD w.files.homePath) = path at there
  simp only [FileStore.readText, there]
  cases w.files.readFault? path with
  | some error => exact ⟨rfl, rfl⟩
  | none =>
      simp only [Settings.ofBytes, Option.isSome_none, Bool.false_eq_true, if_false]
      cases Utf8.decode bytes with
      | error failure => exact ⟨rfl, rfl⟩
      | ok t =>
          simp only
          cases Settings.ofText? validate room t with
          | error failure =>
              cases failure with
              | malformed => exact ⟨rfl, rfl⟩
              | integerTooLong digits => exact ⟨rfl, rfl⟩
              | nestedTooDeep => exact ⟨rfl, rfl⟩
          | ok found =>
              cases found with
              | none => exact ⟨rfl, rfl⟩
              | some settings => exact ⟨rfl, rfl⟩

end Session

/-- **How loading settings from the bytes of a file ends,** where `refused` is what
the system says if it does not give them. -/
structure Settings.Loaded (validate : Json → Option Settings) (room : Nat)
    (refused : Option SystemError) (bytes : List UInt8)
    (result : Except SessionFailure Settings) : Prop where
  /-- Exactly if nothing escapes, there are settings. -/
  returns : (∃ s, result = .ok s) ↔ ¬ ∃ failure, refused = none ∧ Escapes room bytes failure
  /-- It is this that escapes. -/
  escaped : ∀ failure, result = .error failure ↔ refused = none ∧ Escapes room bytes failure
  /-- An integer that is too long has more digits in a row than are allowed. -/
  tooLong : ∀ digits, result = .error (.integerTooLong digits) →
    ∃ t, Utf8.decode bytes = .ok t ∧ JsonReader.HasLongInteger digits t
  /-- A text that is nested too deep opens more brackets than there is room for. -/
  tooDeep : result = .error .nestedTooDeep →
    ∃ t, Utf8.decode bytes = .ok t ∧ room < JsonReader.openings t
  /-- What the bytes say is what there is, unless it is nested too deep. -/
  said : refused = none → ∀ s, Said validate bytes s →
    result = .ok s ∨ result = .error .nestedTooDeep
  /-- Where they say nothing, or are not given, there are the standard settings. -/
  unsaid : (refused ≠ none ∨ ∀ s, ¬ Said validate bytes s) → ∀ s, result = .ok s → s = .standard

namespace Session

/-- **Loading settings returns for all bytes but those that escape.**  With a
settings file at its place, whatever its bytes are, what they say is loaded, and
the standard settings where they say nothing. -/
theorem settings_loaded (validate : Json → Option Settings) (room : Nat) {folder : Option Path}
    {w : Workspace} {bytes : List UInt8}
    (there : w.files.read (settingsPath (folder.getD w.files.homePath)) = .ok bytes) :
    (outcome (settingsBy validate room folder) w).2.files = w.files
      ∧ Settings.Loaded validate room
          (w.files.readFault? (settingsPath (folder.getD w.files.homePath))) bytes
          (outcome (settingsBy validate room folder) w).1 := by
  obtain ⟨files, ends⟩ := @outcome_settingsBy validate room _ _ _ there
  refine ⟨files, ?_⟩
  rw [ends]
  cases w.files.readFault? (settingsPath (folder.getD w.files.homePath)) with
  | some error =>
      have noEscape (failure : SessionFailure) :
          ¬ (some error = none ∧ Settings.Escapes room bytes failure) :=
        fun escaped => nomatch escaped.1
      constructor
      case returns => exact iff_of_true ⟨_, rfl⟩ fun ⟨failure, escaped⟩ => noEscape failure escaped
      case escaped => exact fun failure => iff_of_false nofun (noEscape failure)
      case tooLong => nofun
      case tooDeep => nofun
      case said => nofun
      case unsaid =>
        rintro _ s ⟨⟩
        rfl
  | none =>
      simp only [Option.isSome_none, Bool.false_eq_true, if_false]
      have escaped (failure : SessionFailure) :
          Settings.ofBytes validate room bytes = .error failure
            ↔ none = (none : Option SystemError) ∧ Settings.Escapes room bytes failure := by
        rw [Settings.ofBytes_eq_error_iff, eq_self_iff_true, true_and]
      constructor
      case returns =>
        cases ended : Settings.ofBytes validate room bytes with
        | error failure =>
            exact iff_of_false nofun (not_not_intro ⟨failure, (escaped failure).mp ended⟩)
        | ok s =>
            refine iff_of_true ⟨s, rfl⟩ ?_
            rintro ⟨failure, escapes⟩
            exact nomatch ended.symm.trans ((escaped failure).mpr escapes)
      case escaped => exact escaped
      case tooLong =>
        intro digits failed
        rcases (escaped _).mp failed with ⟨_, _ | ⟨isText, met⟩⟩
        exact ⟨_, isText, Json.blames_of_read met⟩
      case tooDeep =>
        intro failed
        rcases (escaped _).mp failed with ⟨_, _ | _ | ⟨isText, met⟩⟩
        exact ⟨_, isText, Json.blames_of_read met⟩
      case said =>
        intro _ s said
        by_cases deep : Settings.Escapes room bytes .nestedTooDeep
        · exact .inr ((escaped _).mpr ⟨rfl, deep⟩)
        · exact .inl (Settings.ofBytes_of_said said deep)
      case unsaid =>
        intro nothing s isOk
        rcases Settings.ofBytes_eq_ok isOk with said | standard
        · rcases nothing with isRefused | noSaid
          · exact absurd rfl isRefused
          · exact absurd said (noSaid s)
        · exact standard

/-- A settings file in the working directory, and nothing else. -/
def settingsFile (bytes : List UInt8) : Workspace where
  files := ((FileStore.empty []).set [".deploy-kit"] .folder).set
    [".deploy-kit", "patterns.json"] (.file bytes)
  journal := []

/-- The bytes of `[]` are JSON, but no settings. -/
theorem settings_loaded_array :
    (settingsFile [0x5B, 0x5D]).files.read (settingsPath (settingsFile [0x5B, 0x5D]).files.homePath)
        = .ok [0x5B, 0x5D]
      ∧ (outcome (settings none) (settingsFile [0x5B, 0x5D])).1 = .ok .standard
      ∧ (outcome (settings none) (settingsFile [0x5B, 0x5D])).2.files
        = (settingsFile [0x5B, 0x5D]).files
      ∧ Settings.Loaded (fun value => (Settings.read value).toOption) Json.usualRoom none
          [0x5B, 0x5D] (outcome (settings none) (settingsFile [0x5B, 0x5D])).1 := by
  have there : (settingsFile [0x5B, 0x5D]).files.read
      (settingsPath (settingsFile [0x5B, 0x5D]).files.homePath) = .ok [0x5B, 0x5D] := rfl
  obtain ⟨files, loaded⟩ :=
    @settings_loaded (fun value => (Settings.read value).toOption) Json.usualRoom none _ _ there
  exact ⟨there, rfl, files, loaded⟩

/-- **Loading settings does not always return:** the failure of bytes that are no
text escapes, also from a whole check, and so do that of an integer with too many
digits and that of a bracket more than there is room for. -/
theorem not_settings_loads :
    (outcome (settings none) (settingsFile [0xFF])).1 = .error (.notText .invalidStart)
      ∧ (outcome (detectAndReport ⟨.here, ["f"]⟩ none) (settingsFile [0xFF])).1.isOk = false
      ∧ (∀ room, Settings.Escapes room (List.replicate 4301 0x31) (.integerTooLong 4301))
      ∧ (∀ room, Settings.Escapes room (List.replicate (room + 1) 0x5B) .nestedTooDeep)
      ∧ ¬ ∀ (folder : Option Path) (w : Workspace) (bytes : List UInt8),
          w.files.read (settingsPath (folder.getD w.files.homePath)) = .ok bytes →
            w.files.faults = [] → ∃ s, (outcome (settings folder) w).1 = .ok s := by
  have escapes : (outcome (settings none) (settingsFile [0xFF])).1
      = .error (.notText .invalidStart) := rfl
  refine ⟨escapes, by decide +kernel, fun room => ?_, fun room => ?_, ?_⟩
  · exact .integerTooLong (Utf8.decode_replicate (c := .scalar '1') (fun _ => rfl) 4301)
      (Json.read_digits (by decide))
  · exact .nestedTooDeep (Utf8.decode_replicate (c := .scalar '[') (fun _ => rfl) (room + 1))
      (Json.read_brackets room)
  · intro all
    obtain ⟨s, isOk⟩ := all none (settingsFile [0xFF]) [0xFF] rfl rfl
    exact nomatch escapes.symm.trans isOk

end Session

end StackLint
