/-
  StackLint.Proofs.Detection.Renamed
  ──────────────────────────────────
  **VARIABLES THAT ARE RENAMED.**

  A new name replaces the key of a variable: between the quotes of the old key, or bare
  where it is an identifier.  It is not escaped, so a name from a quoted key may not come
  back as it was meant; a name from a bare key needs no escape, but what is an identifier
  is not always one name to the scanner.
-/
import StackLint.Proofs.Parse.Lead
import StackLint.Proofs.Rule.Found
import StackLint.Proofs.Rule.Reports
import StackLint.Proofs.Token.ReadBack

namespace StackLint

/-! ## §1. Upper case. -/

namespace CodePoint

/-- The characters that a text between quotes cannot hold as they are. -/
def isEscaped (c : CodePoint) : Bool :=
  c == .scalar '\\' || c == .scalar '"' || c == .scalar '\n'

theorem val_ofNat (n : Nat) : (ofNat n).val = n ∨ (ofNat n).val = 0 := by
  unfold ofNat
  split
  · next inside =>
      left
      show 0xD800 + (n - 0xD800) = n
      omega
  · show (Char.ofNat n).toNat = n ∨ (Char.ofNat n).toNat = 0
    by_cases valid : n.isValidChar
    · rw [Char.ofNat, dif_pos valid]
      exact .inl rfl
    · rw [Char.ofNat, dif_neg valid]
      exact .inr rfl

theorem isEscaped_ofNat {n : Nat} (large : 0x41 ≤ n) (other : n ≠ 0x5C) :
    (ofNat n).isEscaped = false := by
  have ne {c : Char} (small : c.toNat < 0x41 ∨ c.toNat = 0x5C) (positive : 0 < c.toNat) :
      ofNat n ≠ .scalar c := by
    intro same
    have isVal : (ofNat n).val = c.toNat := congrArg val same
    rcases val_ofNat n with h | h <;> omega
  unfold isEscaped
  rw [Bool.or_eq_false_iff, Bool.or_eq_false_iff, beq_eq_false_iff_ne, beq_eq_false_iff_ne,
    beq_eq_false_iff_ne]
  exact ⟨⟨ne (by decide) (by decide), ne (by decide) (by decide)⟩, ne (by decide) (by decide)⟩

/-- **In upper case nothing comes up that must be escaped.** -/
theorem isEscaped_of_mem_toUpper {c d : CodePoint} (unescaped : c.isEscaped = false)
    (inside : d ∈ c.toUpper) : d.isEscaped = false := by
  have expansions : ∀ entry ∈ upperCaseExpansions, ∀ n ∈ entry.2, 0x41 ≤ n ∧ n ≠ 0x5C := by
    decide +kernel
  have runs : ∀ run ∈ upperCaseRuns, 0x5D ≤ run.first + run.offset
      ∨ (0x41 ≤ run.first + run.offset ∧ run.last + run.offset < 0x5C) := by
    decide +kernel
  unfold toUpper at inside
  split at inside
  · rw [List.mem_singleton] at inside
    subst inside
    split
    · next isLower =>
        rw [Bool.and_eq_true, decide_eq_true_eq, decide_eq_true_eq] at isLower
        exact isEscaped_ofNat (by omega) (by omega)
    · exact unescaped
  split at inside
  · next expansion found =>
      obtain ⟨n, isPart, rfl⟩ := List.mem_map.mp inside
      obtain ⟨_, _, split, _⟩ := List.lookup_eq_some_iff.mp found
      have entry : (c.val, expansion) ∈ upperCaseExpansions := by
        rw [split]
        exact List.mem_append_right _ (List.mem_cons_self ..)
      obtain ⟨large, other⟩ := expansions _ entry n isPart
      exact isEscaped_ofNat large other
  split at inside
  · next run found =>
      rw [List.mem_singleton] at inside
      subst inside
      have holds := List.find?_some found
      unfold CaseRun.contains at holds
      rw [Bool.and_eq_true, Bool.and_eq_true, decide_eq_true_eq, decide_eq_true_eq] at holds
      have bounds := runs run (List.mem_of_find?_eq_some found)
      exact isEscaped_ofNat (by omega) (by omega)
  · rw [List.mem_singleton] at inside
    subst inside
    exact unescaped

end CodePoint

namespace Scan

/-! ## §2. Bare keys. -/

theorem isEscaped_of_isFlag {c : CodePoint} (flag : isFlag c = true) : c.isEscaped = false := by
  have ne {mark : Char} (other : isFlag (.scalar mark) = false) : c ≠ .scalar mark := by
    rintro rfl
    rw [flag] at other
    cases other
  unfold CodePoint.isEscaped
  rw [Bool.or_eq_false_iff, Bool.or_eq_false_iff, beq_eq_false_iff_ne, beq_eq_false_iff_ne,
    beq_eq_false_iff_ne]
  exact ⟨⟨ne (by decide +kernel), ne (by decide +kernel)⟩, ne (by decide +kernel)⟩

/-- What a name is made of. -/
theorem isEscaped_of_take_nameWidth {t : Text} {d : CodePoint} (inside : d ∈ t.take (nameWidth t)) :
    d.isEscaped = false := by
  cases t with
  | nil =>
      rw [List.take_nil] at inside
      cases inside
  | cons c rest =>
      rw [nameWidth] at inside
      split at inside
      · next begins =>
          rw [Nat.add_comm, List.take_succ_cons] at inside
          refine isEscaped_of_isFlag ?_
          rcases List.mem_cons.mp inside with rfl | inside
          · unfold isFlag
            rw [Bool.or_eq_true, beq_iff_eq]
            exact begins.symm.imp And.left id
          · have prefixes := List.takeWhile_prefix (l := rest) isFlag
            have same : rest.take (runLength isFlag rest) = rest.takeWhile isFlag :=
              (List.prefix_iff_eq_take.mp prefixes).symm
            rw [same] at inside
            exact List.mem_takeWhile_imp inside
      · cases inside

variable {braces : List OpenBrace} {previous : Option Lexeme} {c : CodePoint} {rest : Text} {found : Found}

/-- A name holds nothing that must be escaped, and a number begins like one. -/
def IsBare (rest : Text) : Lexeme → Prop
  | .word name => ∀ d ∈ name, d.isEscaped = false
  | .number raw => ∀ d, raw.head? = some d → startsNumber d rest = true
  | _ => True

theorem isBare_punctuator : IsBare rest (punctuator braces c rest).lexeme := by
  unfold punctuator
  simp only
  split <;> exact True.intro

theorem isBare_of_templatePart {opening : Bool} (read : templatePart opening braces rest = .ok found) :
    IsBare rest found.lexeme := by
  obtain ⟨body, _, same⟩ := bind_eq_ok.mp read
  cases same
  simp only
  split <;> exact True.intro

theorem isBare_of_stringLiteral {quote : Quote} (read : stringLiteral quote braces rest = .ok found) :
    IsBare rest found.lexeme := by
  obtain ⟨body, _, same⟩ := bind_eq_ok.mp read
  cases same
  exact True.intro

/-- **What the scanner takes for a name or a number.** -/
theorem isBare_of_lexeme (read : lexeme braces previous c rest = .ok found) :
    IsBare rest found.lexeme := by
  unfold lexeme at read
  split at read
  · exact isBare_of_stringLiteral read
  split at read
  · exact isBare_of_stringLiteral read
  split at read
  · exact isBare_of_templatePart read
  split at read
  · next isNumber =>
      split at read
      · next width isWidth =>
          cases read
          intro d first
          cases width with
          | zero => cases first
          | succ width =>
              cases first
              exact isNumber
      · cases read
  split at read
  · next isHash =>
      split at read
      · cases read
        exact True.intro
      · next width isWidth =>
          cases read
          intro d inside
          rcases List.mem_cons.mp inside with rfl | inside
          · rw [isHash.1]
            decide
          · rw [← Nat.succ_eq_add_one, ← isWidth] at inside
            exact isEscaped_of_take_nameWidth inside
  split at read
  · split at read
    · cases read
      exact True.intro
    · cases read
      exact isBare_punctuator
  split at read
  · exact isBare_of_templatePart read
  · cases read
    unfold nameOrPunctuator
    split
    · exact isBare_punctuator
    · next width isWidth =>
        intro d inside
        rw [← Nat.succ_eq_add_one, ← isWidth] at inside
        exact isEscaped_of_take_nameWidth inside

end Scan

namespace EnvVariable

open Scan

variable {s : Source} {L : Layout} {v : Violation}

/-- The beginnings of names that the runtime keeps for itself. -/
inductive StartsReserved (name : Text) : Prop where
  | underscore (first : name.head? = some (.scalar '_'))
  | runtime (starts : runtimeStart <+: name)

/-- No digit and no point begins such a name. -/
theorem StartsReserved.startsNumber {name rest : Text} (reserved : StartsReserved name) {d : CodePoint}
    (first : name.head? = some d) : Scan.startsNumber d rest = false := by
  have ofLetter {c : Char} (isFirst : some (CodePoint.scalar c) = some d)
      (noDigit : (CodePoint.scalar c).isDigit = false) (noPoint : c ≠ '.') :
      Scan.startsNumber d rest = false := by
    obtain rfl := Option.some.inj isFirst
    unfold Scan.startsNumber
    rw [noDigit, beq_eq_false_iff_ne.mpr (fun same => noPoint (CodePoint.scalar.inj same))]
    rfl
  cases reserved with
  | underscore isFirst => exact ofLetter (isFirst.symm.trans first) (by decide +kernel) (by decide)
  | runtime starts =>
      obtain ⟨rest, rfl⟩ := starts
      exact ofLetter first (by decide +kernel) (by decide)

/-- The key is no text in quotes. -/
def IsBareKey (key : Tree) : Prop :=
  ∀ value quote, key.form ≠ .stringLiteral value quote

/-- **A bare key that is reserved needs no escape.** -/
theorem unescaped_of_key (on : s.On L) {key : Tree} (inside : key ∈ s.tree.preorder) {name : Text}
    (named : key.keyName? = some name) (reserved : StartsReserved name) (bare : IsBareKey key) :
    ∀ d ∈ name, d.isEscaped = false := by
  have written : name ≠ [] := by
    rintro rfl
    cases reserved with
    | underscore first => cases first
    | runtime starts => exact absurd (List.prefix_nil.mp starts) (by decide)
  have strict := Source.isLoose_of_keyName? named
  have noPlaceholder := Source.isPlaceholder_of_keyName? named written
  obtain ⟨_, _, _, placed⟩ := on.placed_of_strict inside strict
  obtain ⟨i, j, _, _, _, details⟩ := placed.details noPlaceholder
  have ofLexeme {l : Lexeme} (isLexeme : (L.token i).lexeme = l) (notEnd : l ≠ .endOfText) :
      ∃ rest, IsBare rest l := by
    have inRange : i < L.size := Layout.lt_size_of_lexeme (isLexeme ▸ notEnd)
    obtain ⟨memory, b, e, rest, found, way⟩ := L.exists_way inRange
    exact ⟨rest, isLexeme ▸ way.lexeme ▸ isBare_of_lexeme way.read⟩
  unfold Node.keyName? at named
  split at named
  · next isName form =>
      cases named
      rw [form] at details
      rcases details with rfl | rfl | isWord
      · exact absurd rfl written
      · decide
      · obtain ⟨rest, isBare⟩ := ofLexeme isWord (by rintro ⟨⟩)
        exact isBare
  · next value quote form => exact absurd form (bare value quote)
  · next raw form =>
      cases named
      rw [form] at details
      obtain ⟨rest, isBare⟩ := ofLexeme details (by rintro ⟨⟩)
      cases name with
      | nil => exact absurd rfl written
      | cons d others =>
          have number := isBare d rfl
          rw [reserved.startsNumber rfl] at number
          cases number
  · cases named

/-- **The new name of a variable,** as the code of the violation has it. -/
inductive Intends (code name : Text) : Text → Prop where
  | stripped (isCode : code = "SST-VAL-042") (first : name.head? = some (.scalar '_')) :
      Intends code name (Text.toUpper (name.dropWhile (· == .scalar '_')))
  | replaced (isCode : code = "SST-VAL-043") (starts : runtimeStart <+: name) :
      Intends code name (replacementStart ++ name.drop runtimeStart.length)

theorem Intends.startsReserved {code name newName : Text} (intends : Intends code name newName) :
    StartsReserved name := by
  cases intends with
  | stripped _ first => exact .underscore first
  | replaced _ starts => exact .runtime starts

/-- In the new name nothing comes up that must be escaped. -/
theorem Intends.unescaped {code name newName : Text} (intends : Intends code name newName)
    (unescaped : ∀ d ∈ name, d.isEscaped = false) : ∀ d ∈ newName, d.isEscaped = false := by
  intro d inside
  cases intends with
  | stripped =>
      obtain ⟨c, isOld, inside⟩ := List.mem_flatMap.mp inside
      exact CodePoint.isEscaped_of_mem_toUpper (unescaped c ((List.dropWhile_sublist _).mem isOld)) inside
  | replaced =>
      rcases List.mem_append.mp inside with isNew | isOld
      · exact (by decide : ∀ d ∈ replacementStart, d.isEscaped = false) d isNew
      · exact unescaped d (List.mem_of_mem_drop isOld)

/-! ## §3. The new key. -/

/-- **The key comes back as the name:** the name needs no escape between the quotes of the old
key, or in place of a bare one is either no identifier or one name to the scanner. -/
def KeepsName (key : Tree) (name : Text) : Prop :=
  match key.form with
  | .stringLiteral _ quote => Plain quote name
  | _ => name.isIdentifier = true → isWord name = true

theorem renamedKey_of_bare {key : Tree} (bare : IsBareKey key) (name : Text) :
    renamedKey key name = if name.isIdentifier then name else Quote.double.surround name := by
  unfold renamedKey
  split
  · next value quote form => exact absurd form (bare value quote)
  · rfl

theorem keepsName_of_bare {key : Tree} (bare : IsBareKey key) (name : Text) :
    KeepsName key name ↔ (name.isIdentifier = true → isWord name = true) := by
  unfold KeepsName
  split
  · next value quote form => exact absurd form (bare value quote)
  · exact Iff.rfl

theorem readsAs_renamedKey_iff (on : s.On L) {key : Tree} (inside : key ∈ s.tree.preorder)
    {code name newName : Text} (named : key.keyName? = some name) (intends : Intends code name newName) :
    (renamedKey key newName).ReadsAs newName ↔ KeepsName key newName := by
  by_cases quoted : ∃ value quote, key.form = .stringLiteral value quote
  · obtain ⟨value, quote, form⟩ := quoted
    unfold renamedKey KeepsName
    rw [form]
    exact readsAs_surround_iff quote newName
  · have bare : IsBareKey key := fun value quote form => quoted ⟨value, quote, form⟩
    rw [renamedKey_of_bare bare, keepsName_of_bare bare]
    by_cases isIdentifier : newName.isIdentifier = true
    · rw [if_pos isIdentifier, readsAs_iff_isWord isIdentifier]
      exact (imp_iff_right isIdentifier).symm
    · have unescaped := unescaped_of_key on inside named intends.startsReserved bare
      have plain : Plain .double newName := by
        intro d isPart
        have h := intends.unescaped unescaped d isPart
        unfold CodePoint.isEscaped at h
        rw [Bool.or_eq_false_iff, Bool.or_eq_false_iff, beq_eq_false_iff_ne, beq_eq_false_iff_ne,
          beq_eq_false_iff_ne] at h
        exact ⟨h.1.1, h.1.2, h.2⟩
      rw [if_neg isIdentifier]
      exact iff_of_true ((readsAs_surround_iff .double newName).mpr plain)
        fun never => absurd never isIdentifier

/-- The violation is about the property, a variable with this name, and its fix writes the new
name in the place of the key. -/
structure Renames (p : Node.Property Span) (v : Violation) (f : Fix) (name newName : Text) : Prop where
  named : p.key.keyName? = some name
  intends : Intends v.code name newName
  replaces : f.Replaces p.key (renamedKey p.key newName)

theorem renames_of_checkProperty {label : Text} {p : Node.Property Span} {f : Fix}
    (h : checkProperty s label p = .ok (some v)) (carried : v.fix = some f) :
    ∃ name newName, Renames p v f name newName := by
  have ofViolation {code message name : Text} {fix : Option Fix}
      (h : some <$> s.violation code p.node label ("environment." ++ name) message .error fix
        = .ok (some v)) : v.code = code ∧ v.fix = fix := by
    cases made : s.violation code p.node label ("environment." ++ name) message .error fix with
    | error failure =>
        rw [made] at h
        cases h
    | ok v' =>
        rw [made] at h
        cases h
        have stands := Source.standsAt_of_violation made
        exact ⟨stands.code_eq, stands.fix_eq⟩
  have ofRename {newName description : Text} {fix : Option Fix}
      (renamed : rename? s p.key newName description = .ok fix) (isFix : v.fix = fix) :
      f.Replaces p.key (renamedKey p.key newName) := by
    rw [carried] at isFix
    subst isFix
    unfold rename? at renamed
    split at renamed
    · cases renamed
    · obtain ⟨f', replaced, same⟩ := bind_eq_ok.mp renamed
      cases same
      exact Source.replaces_of_replace replaced
  unfold checkProperty at h
  split at h
  · cases h
  · cases h
  · next name named _ =>
      unfold checkNamed at h
      simp only at h
      split at h
      · -- Names that the runtime sets have no fix.
        obtain ⟨_, none⟩ := ofViolation h
        rw [carried] at none
        cases none
      split at h
      · next first =>
          obtain ⟨fix, renamed, h⟩ := bind_eq_ok.mp h
          obtain ⟨isCode, isFix⟩ := ofViolation h
          exact ⟨name, _, ‹_›, .stripped isCode first, ofRename renamed isFix⟩
      split at h
      · next starts =>
          obtain ⟨fix, renamed, h⟩ := bind_eq_ok.mp h
          obtain ⟨isCode, isFix⟩ := ofViolation h
          exact ⟨name, _, ‹_›, .replaced isCode (List.isPrefixOf_iff_prefix.mp starts),
            ofRename renamed isFix⟩
      · cases h

/-- A violation is about a variable in the environment of a function. -/
theorem exists_variable {found : List Violation} (h : detect s = .ok found) (inside : v ∈ found) :
    ∃ r ∈ s.tree.resourcesOf ["Function"], ∃ environment members,
      r.findProperty? "environment" = some environment
        ∧ environment.value.unwrap.objectMembers? = some members
        ∧ ∃ p ∈ Node.properties members, checkProperty s r.label p = .ok (some v) := by
  obtain ⟨r, isFunction, reports, h, inside⟩ := exists_of_reportedAll h inside
  refine ⟨r, isFunction, ?_⟩
  unfold checkFunction at h
  split at h
  · cases h
    exact absurd inside List.not_mem_nil
  · next members isObject =>
      obtain ⟨environment, isEnvironment, isObject⟩ := Option.bind_eq_some_iff.mp isObject
      exact ⟨environment, members, isEnvironment, isObject, exists_of_reported h inside⟩

end EnvVariable

open EnvVariable

/-- **Where a variable is renamed,** the fix writes the intended name in the place of its key; it
is read back as this name if and only if the key keeps it. -/
theorem Rule.variables_read_back {path : Path} {text : Text} {s : Source}
    (read : Source.ofText path text = .ok s) :
    ∃ found, envVariable.detect s = .ok found ∧ ∀ v ∈ found, ∀ f, v.fix = some f →
      ∃ r ∈ s.tree.resourcesOf ["Function"], ∃ environment members,
        r.findProperty? "environment" = some environment
          ∧ environment.value.unwrap.objectMembers? = some members
          ∧ ∃ p ∈ Node.properties members, ∃ name newName, Renames p v f name newName
            ∧ (f.newCode.ReadsAs newName ↔ KeepsName p.key newName) := by
  obtain ⟨L, on, _⟩ := Source.exists_layout read
  obtain ⟨found, isOk, _⟩ := EnvVariable.detect_reports on
  refine ⟨found, isOk, fun v isFound f carried => ?_⟩
  obtain ⟨r, isFunction, environment, members, isEnvironment, isObject, p, isMember, h⟩ :=
    exists_variable isOk isFound
  obtain ⟨name, newName, renames⟩ := renames_of_checkProperty h carried
  have isProperty : Node.IsPropertyOf p s.tree :=
    (Node.isPropertyOf_of_mem (Node.objectMembers?_eq_some.mp isObject) isMember).trans
      (Resource.isPropertyOf_of_findProperty? (Resource.mem_resources_of_mem_resourcesOf isFunction)
        isEnvironment).unwrap_value
  refine ⟨r, isFunction, environment, members, isEnvironment, isObject, p, isMember, name, newName,
    renames, ?_⟩
  rw [renames.replaces.newCode_eq]
  exact readsAs_renamedKey_iff on isProperty.key renames.named renames.intends

/-- A function with a variable that begins with an underscore. -/
def underscoredVariable : Text :=
  "new sst.aws.Function(\"F\", \x7b environment: \x7b _a: \"1\" \x7d \x7d)"

/-- A bare name is read back. -/
theorem Rule.variables_read_back_underscored :
    ∃ (s : Source) (found : List Violation) (v : Violation) (f : Fix),
      Source.ofText ⟨.here, []⟩ underscoredVariable = .ok s ∧ envVariable.detect s = .ok found
        ∧ v ∈ found ∧ v.fix = some f ∧ f.newCode = "A" ∧ f.newCode.ReadsAs "A" := by
  have evaluated : (Source.ofText ⟨.here, []⟩ underscoredVariable).toOption.any (fun s =>
      (envVariable.detect s).toOption.any fun found => found.any fun v => v.fix.isSome
        && (s.tree.resourcesOf ["Function"]).all fun r => (r.findProperty? "environment").all fun e =>
          e.value.unwrap.objectMembers?.all fun members => (Node.properties members).all fun p =>
            p.key.identifierName? = some "_a") = true := by
    decide +kernel
  obtain ⟨s, read, evaluated⟩ := exists_ok_of_any evaluated
  obtain ⟨found, isOk, evaluated⟩ := exists_ok_of_any evaluated
  obtain ⟨v, isFound, shown⟩ := List.any_eq_true.mp evaluated
  obtain ⟨found', isOk', renamed⟩ := Rule.variables_read_back read
  obtain rfl : found' = found := Except.ok.inj (isOk'.symm.trans isOk)
  obtain ⟨some, each⟩ := Bool.and_eq_true_iff.mp shown
  obtain ⟨f, carried⟩ := Option.isSome_iff_exists.mp some
  obtain ⟨r, isFunction, e, members, isEnvironment, isObject, p, isMember, name, newName, renames,
    readBack⟩ := renamed v isFound f carried
  have isKey := List.all_eq_true.mp each r isFunction
  rw [isEnvironment, Option.all_some, isObject, Option.all_some, List.all_eq_true] at isKey
  have form : p.key.form = .identifier "_a" := by
    have named := of_decide_eq_true (isKey p isMember)
    unfold Node.identifierName? at named
    split at named
    · next name form =>
        cases named
        exact form
    · cases named
  have bare : IsBareKey p.key := fun value quote never => nomatch form.symm.trans never
  have isName : name = "_a" := by
    have named := renames.named
    unfold Node.keyName? at named
    rw [form] at named
    exact (Option.some.inj named).symm
  have isNewName : newName = "A" := by
    have intends := isName ▸ renames.intends
    cases intends with
    | stripped => decide +kernel
    | replaced _ starts => exact absurd starts (by decide)
  rw [isNewName, keepsName_of_bare bare] at readBack
  have isNewCode := renames.replaces.newCode_eq
  rw [isNewName, renamedKey_of_bare bare, if_pos (by decide +kernel)] at isNewCode
  exact ⟨s, found', v, f, read, isOk, isFound, carried, isNewCode,
    readBack.mpr fun _ => by decide +kernel⟩

/-- A function with a variable whose name has a quote. -/
def quotedVariable : Text :=
  "new sst.aws.Function(\"F\", \x7b environment: \x7b '_a\\'b': \"1\" \x7d \x7d)"

/-- **A new name with a quote is not read back.** -/
theorem Rule.not_variables_read_back :
    ¬ ∀ (path : Path) (text : Text) (s : Source) (found : List Violation),
        Source.ofText path text = .ok s → envVariable.detect s = .ok found →
        ∀ v ∈ found, ∀ f, v.fix = some f → ∃ r ∈ s.tree.resourcesOf ["Function"],
          ∃ environment members, r.findProperty? "environment" = some environment
            ∧ environment.value.unwrap.objectMembers? = some members
            ∧ ∃ p ∈ Node.properties members, ∃ name newName, p.key.keyName? = some name
              ∧ Intends v.code name newName ∧ f.newCode.ReadsAs newName := by
  intro all
  have evaluated : (Source.ofText ⟨.here, []⟩ quotedVariable).toOption.any (fun s =>
      (envVariable.detect s).toOption.any fun found => found.any fun v => v.fix.any fun f =>
        (tokenize f.newCode).toOption.all fun tokens => tokens.length ≠ 2) = true := by
    decide +kernel
  obtain ⟨s, read, evaluated⟩ := exists_ok_of_any evaluated
  obtain ⟨found, isOk, evaluated⟩ := exists_ok_of_any evaluated
  obtain ⟨v, isFound, shown⟩ := List.any_eq_true.mp evaluated
  cases carried : v.fix with
  | none =>
      rw [carried] at shown
      cases shown
  | some f =>
      obtain ⟨_, _, _, _, _, _, _, _, _, newName, _, _, token, final, run, _⟩ :=
        all _ _ s found read isOk v isFound f carried
      rw [carried, Option.any_some, run] at shown
      have few : [token, final].length ≠ 2 := of_decide_eq_true shown
      exact absurd rfl few

end StackLint
