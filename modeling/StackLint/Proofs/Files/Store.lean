/-
  StackLint.Proofs.Files.Store
  ────────────────────────────
  **WHAT REPLACING A FILE CHANGES.**

  A temporary file is made where nothing was.  Until it takes the place of a
  file, all else is as before; afterwards all but that file is.
-/
import StackLint.Files.Replace
import StackLint.Proofs.Except

namespace StackLint

namespace FileStore

/-! ## §1. Entries. -/

@[simp] theorem entry?_top (store : FileStore) : store.entry? [] = some .folder := by
  simp [ entry?]

/-- Where something else than a folder is, or nothing, is not the root. -/
theorem ne_nil_of_entry? {store : FileStore} {l : Location} {entry : Option FileEntry}
    (h : store.entry? l = entry) (other : entry ≠ some .folder) : l ≠ [] := by
  intro top
  exact other (h ▸ top ▸ store.entry?_top)

theorem entry?_remove (store : FileStore) (l other : Location) :
    entry? (store.remove l) other
      = if other = l ∧ other ≠ [] then none else store.entry? other := by
  by_cases top : other = []
  · simp [top]
  · by_cases same : other = l
    · subst same
      simp [ entry?, remove, top, List.find?_filter]
    · simp only [ entry?, remove, top, same, if_false, false_and, List.find?_filter]
      congr 2
      funext pair
      by_cases here : pair.1 = other
      · simp [here, same]
      · simp [here]

theorem entry?_set (store : FileStore) {l : Location} (h : l ≠ []) (entry : FileEntry)
    (other : Location) :
    entry? (store.set l entry) other = if other = l then some entry else store.entry? other := by
  have removed := store.entry?_remove l other
  by_cases same : other = l
  · subst same
    simp only [ entry?, h, if_false, ne_eq, not_false_eq_true, and_self, if_true,
      Option.map_eq_none_iff] at removed
    simp [ entry?, set, h, removed]
  · rw [if_neg (fun both => same both.1)] at removed
    rw [if_neg same, ← removed]
    have last : ¬ l = other := fun equal => same equal.symm
    simp [ entry?, set, List.find?_append, last]

/-! ## §2. Temporary files. -/

/-- A store has, beside all that was there before, a temporary file. -/
structure Beside (before after : FileStore) (temporary : Location) (bytes : List UInt8) :
    Prop where
  home : after.home = before.home
  fresh : before.entry? temporary = none
  made : after.entry? temporary = some (.file bytes)
  others : ∀ l, l ≠ temporary → after.entry? l = before.entry? l

namespace Beside
variable {before after : FileStore} {temporary : Location} {bytes : List UInt8}

theorem ne_nil (beside : Beside before after temporary bytes) : temporary ≠ [] :=
  ne_nil_of_entry? beside.fresh (by simp)

theorem ne_temporary (beside : Beside before after temporary bytes) {l : Location}
    (there : before.entry? l ≠ none) : l ≠ temporary := by
  intro same
  exact there (same ▸ beside.fresh)

/-- The names on a way that led somewhere before still lead there. -/
theorem step (beside : Beside before after temporary bytes) {here next : Location} {name : Text}
    (leads : before.step here name = .ok next) : after.step here name = .ok next := by
  unfold FileStore.step at leads ⊢
  cases entry : before.entry? here with
  | none => simp [entry] at leads
  | some found => rwa [beside.others here (beside.ne_temporary (by simp [entry])), entry,
      ← entry]

theorem locate (beside : Beside before after temporary bytes) {p : Path} {l : Location}
    (leads : before.locate p = .ok l) : after.locate p = .ok l := by
  have sameOrigin : after.origin p = before.origin p := by
    unfold origin
    rw [beside.home]
  have way : ∀ (names : List Text) (here : Location),
      names.foldlM before.step here = .ok l → names.foldlM after.step here = .ok l := by
    intro names
    induction names with
    | nil => intro here h; exact h
    | cons name names ih =>
        intro here h
        rw [List.foldlM_cons] at h ⊢
        obtain ⟨next, first, others⟩ := bind_eq_ok.mp h
        exact bind_eq_ok.mpr ⟨next, beside.step first, ih next others⟩
  obtain ⟨here, begins, leads⟩ := bind_eq_ok.mp leads
  exact bind_eq_ok.mpr ⟨here, sameOrigin ▸ begins, way p.parts here leads⟩

end Beside

theorem create_beside {store made : FileStore} {p : Path} {l : Location}
    (h : store.create p = .ok (l, made)) : store.Beside made l [] := by
  obtain ⟨place, located, h⟩ := bind_eq_ok.mp h
  cases entry : store.entry? place with
  | some found => simp [entry, throw, throwThe, MonadExceptOf.throw] at h
  | none =>
      simp only [entry] at h
      obtain ⟨_, _, h⟩ := bind_eq_ok.mp h
      cases h
      have notTop : l ≠ [] := ne_nil_of_entry? entry (by simp)
      constructor
      case home => rfl
      case fresh => exact entry
      case made => rw [entry?_set store notTop, if_pos rfl]
      case others =>
        intro other different
        rw [entry?_set store notTop, if_neg different]

/-- Whichever tag is taken, the temporary file is made where nothing was. -/
theorem createTemporary_beside {store made : FileStore} {target temporary : Location}
    {tags : List Text} (h : store.createTemporary target tags = .ok (temporary, made)) :
    store.Beside made temporary [] := by
  induction tags with
  | nil => cases h
  | cons tag tags ih =>
      unfold createTemporary at h
      split at h
      · next result created =>
          cases h
          exact create_beside created
      · split at h
        · exact ih h
        · cases h

theorem temporaryBeside_beside {store made : FileStore} {p : Path} {temporary : Location}
    (h : store.temporaryBeside p = .ok (temporary, made)) : store.Beside made temporary [] := by
  obtain ⟨target, located, h⟩ := bind_eq_ok.mp h
  exact createTemporary_beside h

theorem fill_beside {before store filled : FileStore} {temporary : Location}
    {old bytes : List UInt8} (beside : before.Beside store temporary old)
    (h : store.fill temporary bytes = .ok filled) : before.Beside filled temporary bytes := by
  obtain ⟨_, _, h⟩ := bind_eq_ok.mp h
  cases h
  constructor
  case home => exact beside.home
  case fresh => exact beside.fresh
  case made => rw [entry?_set store beside.ne_nil, if_pos rfl]
  case others =>
    intro other different
    rw [entry?_set store beside.ne_nil, if_neg different]
    exact beside.others other different

/-- Without its temporary file a store is as it was before. -/
theorem discard_eq {before store after : FileStore} {temporary : Location} {bytes : List UInt8}
    (beside : before.Beside store temporary bytes)
    (h : store.discard temporary = .ok after) (l : Location) :
    after.entry? l = before.entry? l := by
  unfold discard at h
  simp only [beside.made] at h
  obtain ⟨_, _, h⟩ := bind_eq_ok.mp h
  cases h
  rw [entry?_remove]
  by_cases here : l = temporary
  · rw [if_pos ⟨here, here ▸ beside.ne_nil⟩, here, beside.fresh]
  · rw [if_neg (fun both => here both.1), beside.others l here]

/-! ## §3. Moving. -/

/-- A store is as before but for the file at one location, which has new
bytes. -/
structure Replaced (before after : FileStore) (target : Location) (bytes : List UInt8) :
    Prop where
  replaced : after.entry? target = some (.file bytes)
  others : ∀ l, l ≠ target → after.entry? l = before.entry? l

/-- The temporary file moves to where the path leads, and nothing else
changes. -/
theorem moveTo_replaced {before store after : FileStore} {p : Path} {temporary target : Location}
    {bytes : List UInt8} (beside : before.Beside store temporary bytes)
    (located : before.locate p = .ok target) (there : before.entry? target ≠ none)
    (h : store.moveTo temporary p = .ok after) : before.Replaced after target bytes := by
  have elsewhere := beside.ne_temporary there
  unfold moveTo at h
  simp only [beside.locate located] at h
  obtain ⟨_, same, h⟩ := bind_eq_ok.mp h
  cases same
  obtain ⟨_, _, h⟩ := bind_eq_ok.mp h
  obtain ⟨_, _, h⟩ := bind_eq_ok.mp h
  obtain ⟨_, _, h⟩ := bind_eq_ok.mp h
  simp only [beside.made, beside.others target elsewhere] at h
  cases found : before.entry? target with
  | none => exact absurd found there
  | some entry =>
      cases entry with
      | folder => simp [found, throw, throwThe, MonadExceptOf.throw] at h
      | file old =>
          simp only [found] at h
          cases h
          have notTop : target ≠ [] := ne_nil_of_entry? found (by simp)
          constructor
          case replaced => rw [entry?_set _ notTop, if_pos rfl]
          case others =>
            intro l different
            rw [entry?_set _ notTop, if_neg different, entry?_remove]
            by_cases here : l = temporary
            · rw [if_pos ⟨here, here ▸ beside.ne_nil⟩, here, beside.fresh]
            · rw [if_neg (fun both => here both.1), beside.others l here]

end FileStore

end StackLint
