/-
  StackLint.Proofs.Rule.Basic
  ───────────────────────────
  **WHAT RULES REPORT.**

  A check that is given a parsed source yields a value: it never fails, and the
  fixes that it makes replace sites of the layout.  Here are the rules for the
  ways to build a check, and what the nodes of a source promise to it.
-/
import StackLint.Proofs.Parse.Program
import StackLint.Proofs.Text.Position
import StackLint.Rule.Basic

namespace StackLint

/-! ## §1. Checks that do not fail. -/

/-- The check does not fail, and its value satisfies `P`. -/
def Yields {α : Type} (c : Check α) (P : α → Prop) : Prop :=
  ∃ a, c = .ok a ∧ P a

namespace Yields

variable {α β : Type} {P : α → Prop} {Q : β → Prop}

theorem pure {a : α} (h : P a) : Yields (pure a) P :=
  ⟨a, rfl, h⟩

theorem mono {c : Check α} {P' : α → Prop} (h : Yields c P) (weaker : ∀ a, P a → P' a) :
    Yields c P' := by
  obtain ⟨a, isOk, holds⟩ := h
  exact ⟨a, isOk, weaker a holds⟩

theorem bind {c : Check α} {f : α → Check β} (h : Yields c P)
    (next : ∀ a, P a → Yields (f a) Q) : Yields (c >>= f) Q := by
  obtain ⟨a, rfl, holds⟩ := h
  exact next a holds

theorem map {c : Check α} {f : α → β} (h : Yields c fun a => Q (f a)) : Yields (f <$> c) Q := by
  obtain ⟨a, rfl, holds⟩ := h
  exact ⟨f a, rfl, holds⟩

theorem ite {b : Prop} [Decidable b] {c d : Check α} (yes : b → Yields c P)
    (no : ¬ b → Yields d P) : Yields (if b then c else d) P := by
  split
  · next h => exact yes h
  · next h => exact no h

/-- Two branches that go on in the same way. -/
theorem ite_bind {b : Prop} [Decidable b] {c d : Check α} {f : α → Check β}
    (yes : b → Yields c P) (no : ¬ b → Yields d P) (next : ∀ a, P a → Yields (f a) Q) :
    Yields (if b then c >>= f else d >>= f) Q :=
  .ite (fun h => (yes h).bind next) fun h => (no h).bind next

/-- **One check after the other.** -/
theorem mapM {f : α → Check β} {as : List α} (each : ∀ a ∈ as, Yields (f a) Q) :
    Yields (as.mapM f) fun bs => ∀ b ∈ bs, Q b := by
  induction as with
  | nil => exact .pure fun _ never => absurd never List.not_mem_nil
  | cons a as ih =>
      rw [List.mapM_cons]
      refine (each a (List.mem_cons_self ..)).bind ?_
      intro b holds
      refine (ih fun a inside => each a (List.mem_cons_of_mem _ inside)).bind ?_
      intro bs others
      refine .pure ?_
      intro b' inside
      rcases List.mem_cons.mp inside with rfl | inside
      · exact holds
      · exact others b' inside

end Yields

/-! ## §2. Sources. -/

/-- **A source that was parsed**, on the layout of its text.  Nothing is heard where nothing
was complained of. -/
structure Source.On (s : Source) (L : Layout) : Prop where
  text : L.text = s.text
  program : ∃ statements, s.tree.form = .program statements
  placed : ∀ n ∈ s.tree.preorder, n = s.tree
    ∨ ∃ heard lo hi, (s.complaints = [] → ∀ c, ¬ heard c) ∧ Placed L heard lo hi n

namespace Source

variable {s : Source} {L : Layout} {n : Tree}

theorem exists_layout {path : Path} {text : Text} (h : ofText path text = .ok s) :
    ∃ L, s.On L ∧ s.text = text := by
  unfold ofText at h
  obtain ⟨program, parsed, isSource⟩ := bind_eq_ok.mp h
  obtain ⟨L, same, ⟨statements, isTree⟩, placed⟩ := parse_placed parsed
  cases isSource
  refine ⟨L, ⟨same, ⟨statements, isTree ▸ rfl⟩, fun n inside => ?_⟩, rfl⟩
  refine (placed n inside).imp id fun ⟨lo, hi, h⟩ => ⟨_, lo, hi, ?_, h⟩
  rintro noComplaint c ⟨offset, heard⟩
  rw [show program.complaints = [] from noComplaint] at heard
  exact absurd heard List.not_mem_nil

/-- Every node but the program has a place, and nothing is heard there where nothing was
complained of. -/
theorem On.place_of_part (on : s.On L) (inside : n ∈ s.tree.preorder)
    (isPart : ∀ statements, n.form ≠ .program statements) :
    ∃ heard lo hi, (s.complaints = [] → ∀ c, ¬ heard c) ∧ Placed L heard lo hi n := by
  rcases on.placed n inside with rfl | placed
  · obtain ⟨statements, form⟩ := on.program
    exact absurd form (isPart statements)
  · exact placed

theorem ne_program_of_strict (strict : n.form.isLoose = false) (statements : List Tree) :
    n.form ≠ .program statements := by
  intro form
  rw [form] at strict
  cases strict

theorem On.place_of_strict (on : s.On L) (inside : n ∈ s.tree.preorder)
    (strict : n.form.isLoose = false) :
    ∃ heard lo hi, (s.complaints = [] → ∀ c, ¬ heard c) ∧ Placed L heard lo hi n :=
  on.place_of_part inside (ne_program_of_strict strict)

theorem On.placed_of_strict (on : s.On L) (inside : n ∈ s.tree.preorder)
    (strict : n.form.isLoose = false) : ∃ heard lo hi, Placed L heard lo hi n := by
  obtain ⟨heard, lo, hi, _, placed⟩ := on.place_of_strict inside strict
  exact ⟨heard, lo, hi, placed⟩

/-- **A node that has a token can be replaced.** -/
theorem On.site (on : s.On L) (inside : n ∈ s.tree.preorder)
    (solid : n.form.isSolid = true) : L.Site n.info.start n.info.stop := by
  obtain ⟨heard, lo, hi, placed⟩ := on.placed_of_strict inside (Form.isSolid_iff.mp solid).1
  exact placed.site (placed.wide solid)

/-- A key that has a name is a name, a text or a number. -/
theorem isLoose_of_keyName? {name : Text} (h : n.keyName? = some name) :
    n.form.isLoose = false := by
  unfold Node.keyName? at h
  split at h
  · next form => rw [form]; rfl
  · next form => rw [form]; rfl
  · next form => rw [form]; rfl
  · cases h

/-- A key with a name stands for something. -/
theorem isPlaceholder_of_keyName? {name : Text} (h : n.keyName? = some name)
    (written : name ≠ []) : n.form.isPlaceholder = false := by
  unfold Node.keyName? at h
  split at h
  · next form =>
      cases h
      rw [form]
      cases name with
      | nil => exact absurd rfl written
      | cons c rest => rfl
  · next form =>
      rw [form]
      rfl
  · next form =>
      rw [form]
      rfl
  · cases h

theorem isSolid_of_keyName? {name : Text} (h : n.keyName? = some name) (written : name ≠ []) :
    n.form.isSolid = true :=
  Form.isSolid_iff.mpr ⟨isLoose_of_keyName? h, isPlaceholder_of_keyName? h written⟩

/-- The value of a property has a text if its expression has one, and a place. -/
theorem On.place_of_value (on : s.On L) {p : Node.Property Span} (h : Node.IsPropertyOf p s.tree)
    (wide : p.value.unwrap.info.start < p.value.unwrap.info.stop) :
    p.value.info.start < p.value.info.stop ∧ ∃ heard lo hi, Placed L heard lo hi p.value := by
  have strict : p.node.form.isLoose = false := by
    rw [h.form]
    rfl
  obtain ⟨heard, lo, hi, placed⟩ := on.placed_of_strict h.node strict
  obtain ⟨lo, hi, value⟩ := placed.of_mem_children h.value_mem_children
  refine ⟨?_, heard, lo, hi, value⟩
  -- Brackets and assertions around the value only add to it.
  rw [Node.unwrap.eq_def] at wide
  split at wide
  · next same => exact value.wide (by rw [same]; rfl)
  · next same => exact value.wide (by rw [same]; rfl)
  · exact wide

/-- The value of a property can be replaced, whatever its form, if it has a text. -/
theorem On.site_value (on : s.On L) {p : Node.Property Span} (h : Node.IsPropertyOf p s.tree)
    (wide : p.value.unwrap.info.start < p.value.unwrap.info.stop) :
    L.Site p.value.info.start p.value.info.stop := by
  obtain ⟨wide, heard, lo, hi, value⟩ := on.place_of_value h wide
  exact value.site wide

end Source

/-! ## §3. Fixes and violations. -/

/-- **The fix replaces a site of the layout**, and expects the code that stands
there. -/
structure Fix.Fits (L : Layout) (f : Fix) : Prop where
  site : L.Site f.start f.stop
  oldCode : f.oldCode = L.text.slice f.start f.stop

/-- **The violation lies in the text**, and so does its fix. -/
structure Violation.Fits (L : Layout) (v : Violation) : Prop where
  line_pos : 1 ≤ v.line
  line_le : v.line ≤ L.text.lines.length
  column_pos : 1 ≤ v.column
  fix : ∀ f ∈ v.fix, f.Fits L

/-- A code with an entry in the catalog. -/
theorem Catalog.find?_isSome {code : Text} (place : Nat)
    (h : entries[place]?.map CatalogEntry.code = some code) : (find? code).isSome = true := by
  obtain ⟨entry, found, rfl⟩ := Option.map_eq_some_iff.mp h
  unfold find?
  rw [List.find?_isSome]
  exact ⟨entry, List.mem_of_getElem? found, decide_eq_true rfl⟩

namespace Source

variable {s : Source} {L : Layout} {n : Tree}

theorem On.fix_yields (on : s.On L) {start stop : Nat} (site : L.Site start stop)
    (newCode : Text) (confidence : Confidence) (description : Text) :
    Yields (s.fix start stop newCode confidence description) (Fix.Fits L) := by
  have le := site.le
  have inRange : (0 : Int) ≤ start ∧ (start : Int) ≤ stop := by omega
  unfold Source.fix Fix.make
  rw [dif_pos inRange]
  refine ⟨_, rfl, site, ?_⟩
  show s.text.slice start stop = L.text.slice start stop
  rw [on.text]

theorem On.replace_yields (on : s.On L) (site : L.Site n.info.start n.info.stop)
    (newCode : Text) (confidence : Confidence) (description : Text) :
    Yields (s.replace n newCode confidence description) (Fix.Fits L) :=
  on.fix_yields site newCode confidence description

theorem On.violation_yields (on : s.On L) {code : Text}
    (known : (Catalog.find? code).isSome = true) (n : Tree) (resource property message : Text)
    (severity : Severity) {fix : Option Fix} (fits : ∀ f ∈ fix, f.Fits L) :
    Yields (s.violation code n resource property message severity fix) (Violation.Fits L) := by
  unfold Source.violation
  -- The offset is brought into the text before its line is looked up.
  obtain ⟨entry, found⟩ := Option.isSome_iff_exists.mp known
  rw [found]
  unfold Source.position
  rw [s.lineStarts_eq, ← on.text]
  refine ⟨_, rfl, ?_, ?_, ?_, fits⟩
  · exact Int.ofNat_le.mpr (Position.ofOffset_line_pos _ _)
  · exact Int.ofNat_le.mpr (Position.ofOffset_line_le _ _)
  · exact Int.ofNat_le.mpr (Position.ofOffset_column_pos _ _)

end Source

/-! ## §4. Reports. -/

/-- The check reports at most one violation, and it lies in the text. -/
def Reports (L : Layout) (c : Check (Option Violation)) : Prop :=
  Yields c fun found => ∀ v ∈ found, v.Fits L

/-- The check reports violations that lie in the text. -/
def ReportsAll (L : Layout) (c : Check (List Violation)) : Prop :=
  Yields c fun found => ∀ v ∈ found, v.Fits L

/-- The check makes at most one fix, and it replaces a site. -/
def Offers (L : Layout) (c : Check (Option Fix)) : Prop :=
  Yields c fun fix => ∀ f ∈ fix, f.Fits L

theorem Offers.nothing (L : Layout) : Offers L (pure none) :=
  .pure fun _ never => nomatch never

theorem Offers.one {L : Layout} {c : Check Fix} (h : Yields c (Fix.Fits L)) :
    Offers L (do return some (← c)) := by
  refine h.bind ?_
  intro fix fits
  refine .pure ?_
  rintro _ ⟨⟩
  exact fits

theorem Reports.nothing (L : Layout) : Reports L (pure none) :=
  .pure fun _ never => nomatch never

theorem ReportsAll.nothing (L : Layout) : ReportsAll L (pure []) :=
  .pure fun _ never => absurd never List.not_mem_nil

section

variable {s : Source} {L : Layout} {code : Text} {n : Tree} {resource property message : Text}
  {severity : Severity}

/-- A violation with or without a fix. -/
theorem Reports.violation (on : s.On L) (known : (Catalog.find? code).isSome = true)
    {fix : Option Fix} (fits : ∀ f ∈ fix, f.Fits L) :
    Reports L (do return some (← s.violation code n resource property message severity fix)) := by
  refine (on.violation_yields known n resource property message severity fits).bind ?_
  intro v fits
  refine .pure ?_
  rintro _ ⟨⟩
  exact fits

/-- A violation with a fix. -/
theorem Reports.fixed (on : s.On L) (known : (Catalog.find? code).isSome = true) {c : Check Fix}
    (h : Yields c (Fix.Fits L)) :
    Reports L (do
      let fix ← c
      return some (← s.violation code n resource property message severity (some fix))) := by
  refine h.bind ?_
  intro fix fits
  refine Reports.violation on known ?_
  rintro _ ⟨⟩
  exact fits

/-- A violation with the fix that a check offers. -/
theorem Reports.offered (on : s.On L) (known : (Catalog.find? code).isSome = true)
    {c : Check (Option Fix)} (h : Offers L c) :
    Reports L (do
      let fix ← c
      return some (← s.violation code n resource property message severity fix)) := by
  refine h.bind ?_
  intro fix fits
  exact Reports.violation on known fits

/-- The reports of several checks in a row. -/
theorem Reports.mapM {α : Type} {check : α → Check (Option Violation)} {as : List α}
    (each : ∀ a ∈ as, Reports L (check a)) :
    ReportsAll L (do return (← as.mapM check).filterMap id) := by
  refine (Yields.mapM each).bind ?_
  intro found fits
  refine .pure ?_
  intro v inside
  obtain ⟨report, isReport, isSome⟩ := List.mem_filterMap.mp inside
  exact fits report isReport v isSome

theorem ReportsAll.mapM {α : Type} {check : α → Check (List Violation)} {as : List α}
    (each : ∀ a ∈ as, ReportsAll L (check a)) :
    ReportsAll L (do return (← as.mapM check).flatten) := by
  refine (Yields.mapM each).bind ?_
  intro found fits
  refine .pure ?_
  intro v inside
  obtain ⟨reports, isReports, inside⟩ := List.mem_flatten.mp inside
  exact fits reports isReports v inside

end

end StackLint
