/-
  StackLint.Proofs.Detection.Fields
  ─────────────────────────────────
  **FIELDS THAT ARE REMOVED.**

  The fix for unused fields writes the `fields` of a table again.  What it writes are the
  members that it knows as fields, without those that are reported; a member that is no
  property, or has a computed name, is known as none.

  The new code is read back: parsed as the property of an object it has the members that are
  left, if these are written as they would be printed.  Their code is the same in both
  texts, but other lexemes stand in front of it and behind it.
-/
import StackLint.Proofs.Print.Spelled
import StackLint.Proofs.Rule.Inserted

namespace StackLint

open Scan (IsBlank)

/-! ## §1. Members as they are written. -/

/-- A property with a plain name, whose value can be printed. -/
def Shape.IsPlainMember (member : Shape) : Prop :=
  ∃ name value, IsPlainName name ∧ Printable value ∧ member = Shape.member name value

/-- **A member that is written plainly:** a property with a plain name, whose value can be
printed, and its tokens are the printed ones. -/
structure Source.WritesPlainly (s : Source) (member : Tree) : Prop where
  property : member.shape.IsPlainMember
  printed : s.lexemesOf member = member.shape.lexemes

namespace Source

variable {s : Source} {L : Layout} {object member n : Tree} {members : List Tree}

/-- **A member of an object** has tokens, and the brace of the object comes behind them. -/
theorem exists_between (on : s.On L) (silent : s.complaints = []) (inside : object ∈ s.tree.preorder)
    (form : object.form = .objectLiteral members) (isMember : member ∈ members)
    (solid : member.form.isSolid = true) :
    ∃ i j, i < j ∧ j ≤ L.size ∧ member.info = ⟨L.startAt i, L.stopBefore j⟩
      ∧ CodePoint.scalar '}' ∈ L.text.drop (L.stopBefore j) := by
  obtain ⟨heard, lo, hi, quiet, placed⟩ := on.place_of_strict inside (by rw [form]; rfl)
  obtain ⟨_, _, _, _, parts, details⟩ := placed.parts_and_details (by rw [form]; rfl)
  rw [form] at parts details
  have isLast := List.getLast?_eq_some_getLast (List.ne_nil_of_mem isMember)
  generalize members.getLast _ = last at isLast
  obtain ⟨k, m, _, stop, comma, brace, noisy⟩ := details _ isLast
  obtain ⟨rfl, isBrace⟩ := brace.resolve_left (Nat.ne_of_gt (noisy (quiet silent)).1)
  have braceInside := Layout.lt_size_of_is isBrace
  -- The last member ends in front of the brace, and so do the others.
  have ends : last.info.stop ≤ L.startAt m := by
    rw [stop]
    exact Nat.le_trans (L.stopBefore_mono comma.le) (L.stopBefore_le_startAt m)
  have row : InOrder (Placed L heard) _ m members :=
    InOrder.before parts isLast fun _ _ place => place.before braceInside ends
  obtain ⟨_, _, _, upper, place⟩ := row.of_mem_within Placed.le isMember
  obtain ⟨i, j, less, before, upTo, range⟩ := place.exists_range solid
  refine ⟨i, j, less, upTo, range, ?_⟩
  obtain ⟨rest, left⟩ := L.drop_startAt (c := .scalar '}') isBrace rfl
  have gap : L.stopBefore j ≤ L.startAt m :=
    Nat.le_trans (L.stopBefore_mono (Nat.le_trans before upper)) (L.stopBefore_le_startAt m)
  rw [← Nat.add_sub_cancel' gap, ← List.drop_drop] at left
  exact List.mem_of_mem_drop (left ▸ List.mem_cons_self)

/-- **The code of a member** that is written plainly spells its lexemes elsewhere, too. -/
theorem WritesPlainly.isMember (on : s.On L) (silent : s.complaints = [])
    (closed : s.text.closesLiterals = true) (inside : object ∈ s.tree.preorder)
    (form : object.form = .objectLiteral members) (isMember : member ∈ members)
    (plain : s.WritesPlainly member) : Scan.IsMember (s.textOf member) member.shape.lexemes := by
  intro d y begins
  obtain ⟨name, value, isName, printable, shape⟩ := plain.property
  have solid : member.form.isSolid = true := by
    cases member with
    | mk span form =>
        rw [Node.shape_mk] at shape
        cases form <;> first | rfl | cases shape
  obtain ⟨i, j, less, upTo, range, brace⟩ := exists_between on silent inside form isMember solid
  have phrase : Phrase member.shape.lexemes := by
    rw [shape]
    exact .member isName printable.phrase
  have same : (L.between i j).map Token.lexeme = member.shape.lexemes := by
    rw [← lexemesOf_eq on.text (Nat.le_of_lt less) upTo range]
    exact plain.printed
  unfold textOf
  rw [range, ← on.text]
  have portable : L.Portable i j member.shape.lexemes := by
    refine ⟨less, upTo, phrase, same, ?_, List.ne_nil_of_mem brace, fun _ => brace⟩
    exact Layout.isClosed_token (on.text ▸ closed) (by omega)
  have wider : ∀ e ∈ (" \n,\x7b" : Text), e ∈ (" \n,\x7b\x7d" : Text) := by decide
  exact portable.spells (wider d begins)

end Source

namespace DynamoIndexing

variable {L : Layout} {s : Source} {v : Violation} {r : Resource Span} {members : List Tree} {unused : List Text}

/-! ## §2. Members. -/

/-- The name of a member that is a property, unless it is computed. -/
def memberName? (member : Tree) : Option Text :=
  match member.form with
  | .propertyAssignment key _ => key.keyName?
  | _ => none

/-- The member is a property that is reported. -/
def isRemoved (unused : List Text) (member : Tree) : Bool :=
  (memberName? member).any unused.contains

/-- The member is a property that is not reported. -/
def isKept (unused : List Text) (member : Tree) : Bool :=
  (memberName? member).any fun name => !unused.contains name

/-- The fields that are declared but not indexed. -/
def unusedFields (r : Resource Span) (members : List Tree) : List Text :=
  (members.filterMap memberName?).filter fun name => !(indexedFields r).contains name

/-- The names as they are written in a message. -/
def listed (unused : List Text) : Text :=
  Text.join ", " (unused.map fun name => "\"" ++ name ++ "\"")

theorem declaredFields_eq (members : List Tree) :
    declaredFields members
      = members.filterMap fun member => (memberName? member).map fun name => (name, member) := by
  unfold declaredFields Node.properties
  rw [List.filterMap_filterMap]
  refine List.filterMap_congr fun member _ => ?_
  unfold Node.property? memberName?
  cases member.form <;> rfl

theorem map_fst_declaredFields (members : List Tree) :
    (declaredFields members).map Prod.fst = members.filterMap memberName? := by
  rw [declaredFields_eq, List.map_filterMap]
  refine List.filterMap_congr fun member _ => ?_
  cases memberName? member <;> rfl

/-- **The members that are kept** are those with an indexed name. -/
theorem filter_declaredFields (r : Resource Span) (members : List Tree) :
    ((declaredFields members).filter fun field => (indexedFields r).contains field.1).map Prod.snd
      = members.filter (isKept (unusedFields r members)) := by
  rw [declaredFields_eq]
  -- A name of a member is unused if and only if it is not indexed.
  have isUnused {member : Tree} {name : Text} (inside : member ∈ members)
      (named : memberName? member = some name) :
      (unusedFields r members).contains name = !(indexedFields r).contains name := by
    rw [Bool.eq_iff_iff, List.contains_iff_mem]
    unfold unusedFields
    rw [List.mem_filter]
    exact and_iff_right (List.mem_filterMap.mpr ⟨member, inside, named⟩)
  generalize unusedFields r members = unused at isUnused
  induction members with
  | nil => rfl
  | cons member members ih =>
      have rest := ih fun inside => isUnused (List.mem_cons_of_mem _ inside)
      cases named : memberName? member with
      | none =>
          have dropped : isKept unused member = false := by
            unfold isKept
            rw [named]
            rfl
          rw [List.filterMap_cons_none (by rw [named]; rfl), rest, List.filter_cons_of_neg (by simp [dropped])]
      | some name =>
          have same := isUnused (List.mem_cons_self ..) named
          have kept : isKept unused member = (indexedFields r).contains name := by
            unfold isKept
            rw [named, Option.any_some, same, Bool.not_not]
          rw [List.filterMap_cons_some (by rw [named]; rfl), List.filter_cons, List.filter_cons, kept]
          split
          · rw [List.map_cons, rest]
          · exact rest

/-- If every member is a field, the others are those that are reported. -/
theorem filter_isKept (named : ∀ member ∈ members, (memberName? member).isSome) :
    members.filter (isKept unused) = members.filter fun member => !isRemoved unused member := by
  refine List.filter_congr fun member inside => ?_
  unfold isKept isRemoved
  obtain ⟨name, isName⟩ := Option.isSome_iff_exists.mp (named member inside)
  rw [isName, Option.any_some, Option.any_some]

/-! ## §3. The check. -/

/-- **The fix of a violation** writes the fields that are kept, as they were written. -/
structure Removes (s : Source) (r : Resource Span) (p : Node.Property Span) (members : List Tree)
    (v : Violation) : Prop where
  isFields : r.findProperty? "fields" = some p
  isObject : p.value.unwrap.objectMembers? = some members
  stands : v.StandsAt s p.node "SST-VAL-061" v.fix
  message : v.message = "Fields defined but not indexed: [" ++ listed (unusedFields r members)
    ++ "]. All fields in \"fields\" property must be used in an index. "
    ++ "Remove unused fields or add indexes for them."
  fix : ∀ f, v.fix = some f → f.description = "Remove unused fields: " ++ listed (unusedFields r members)
    ∧ f.Replaces p.node (renderFields (s.textOf p.node)
      ((members.filter (isKept (unusedFields r members))).map s.textOf)
      (s.lineIndent p.node.info.start))

theorem message_of_violation {n : Tree} {code resource property message : Text}
    {severity : Severity} {fix : Option Fix}
    (h : s.violation code n resource property message severity fix = .ok v) : v.message = message := by
  unfold Source.violation at h
  split at h
  · cases h
  · cases h
    rfl

theorem description_of_replace {n : Tree} {newCode description : Text} {confidence : Confidence}
    {f : Fix} (h : s.replace n newCode confidence description = .ok f) :
    f.description = description := by
  unfold Source.replace Source.fix Fix.make at h
  split at h
  · next f' made =>
      cases h
      split at made
      · cases made
        rfl
      · cases made
  · cases h

theorem removes_of_checkFields {p : Node.Property Span} (isFields : r.findProperty? "fields" = some p)
    (isObject : p.value.unwrap.objectMembers? = some members)
    (h : checkFields s r p.node (declaredFields members) = .ok (some v)) :
    Removes s r p members v := by
  unfold checkFields at h
  rw [map_fst_declaredFields] at h
  simp only at h
  split at h
  · cases h
  obtain ⟨fix, removal, h⟩ := bind_eq_ok.mp h
  obtain ⟨v', made, h⟩ := bind_eq_ok.mp h
  cases h
  have stands := Source.standsAt_of_violation made
  refine ⟨isFields, isObject, ?_, message_of_violation made, ?_⟩
  · rw [stands.fix_eq]
    exact stands
  · intro f isFix
    rw [stands.fix_eq] at isFix
    subst isFix
    unfold removalFix? at removal
    split at removal
    · cases removal
    · obtain ⟨f', replaced, same⟩ := bind_eq_ok.mp removal
      cases same
      have replaces := Source.replaces_of_replace replaced
      have kept : ((declaredFields members).filter fun field => (indexedFields r).contains field.1).map
            (fun field => s.textOf field.2)
          = (members.filter (isKept (unusedFields r members))).map s.textOf := by
        rw [← filter_declaredFields, List.map_map]
        rfl
      rw [kept] at replaces
      exact ⟨description_of_replace replaced, replaces⟩

theorem exists_removes {found : List Violation} (h : detect s = .ok found) (inside : v ∈ found) :
    ∃ r ∈ s.tree.resourcesOf ["Dynamo"], ∃ p members, Removes s r p members v := by
  obtain ⟨r, isTable, h⟩ := exists_of_reported h inside
  refine ⟨r, isTable, ?_⟩
  unfold checkTable at h
  split at h
  · cases h
  · next p isFields =>
      split at h
      · cases h
      · next members isObject => exact ⟨p, members, removes_of_checkFields isFields isObject h⟩

/-! ## §4. The new code. -/

/-- The object whose only property are the `fields` with these members. -/
def fieldsShape (members : List Shape) : Shape :=
  .mk () (.objectLiteral [Shape.member "fields" (.mk () (.objectLiteral members))])

/-- **The code is read as the `fields` with these members:** as the only property of an object
that is assigned to a name, it is parsed without complaints, and so is the tree, where the
stack has room for it. -/
def ReadsAsFields (newCode : Text) (members : List Shape) : Prop :=
  ∀ budget, (fieldsShape members).levels + 3 ≤ Parser.maxNesting →
    (fieldsShape members).calls + 3 ≤ budget →
    ∃ p, parseWithin budget ("x = " ++ ("\x7b " ++ newCode ++ " \x7d") ++ " ;") = .ok p
      ∧ p.complaints = [] ∧ p.tree.shape = .program (fieldsShape members).assigned


variable {parts : List (Text × List Lexeme)} {indent z : Text} {shapes : List Shape}

/-- **The new code spells** the members that it writes. -/
theorem spells_renderFields (isIndent : IsBlank indent)
    (each : ∀ part ∈ parts, Scan.IsMember part.1 part.2) (written : Text) :
    Scan.Spells (renderFields written (parts.map Prod.fst) indent)
      (.word "fields" :: .punct .colon :: bracketed .openBrace .closeBrace (parts.map Prod.snd)) z := by
  have isName : IsName ("fields" : Text) := .of_flags (by decide) (by decide) (by decide)
  have newline : IsBlank "\n" := by decide
  have space : IsBlank " " := by decide
  have wider : IsBlank (indent ++ "  ") := isIndent.append (by decide)
  unfold renderFields
  split
  · have lead : IsBlank ("\n" ++ (indent ++ "  ")) := newline.append wider
    have trail : IsBlank ("\n" ++ indent) := newline.append isIndent
    have members := Scan.IsMember.join lead each (.scalar '\n') (indent ++ .scalar '}' :: z) (by decide)
    have whole := Scan.Spells.property isName (Scan.Spells.inBraces lead trail members)
    simp only [List.append_assoc] at whole ⊢
    exact whole
  · have members := Scan.IsMember.join space each (.scalar ' ') (.scalar '}' :: z) (by decide)
    have whole := Scan.Spells.property isName (Scan.Spells.inBraces space space members)
    simp only [List.append_assoc] at whole ⊢
    exact whole

/-- An object with members that can be printed. -/
theorem printable_object (each : ∀ m ∈ shapes, m.IsPlainMember) :
    Printable (.mk () (.objectLiteral shapes)) := by
  obtain ⟨pairs, rfl, plain, values⟩ : ∃ pairs : List (Text × Shape),
      shapes = pairs.map (fun m => Shape.member m.1 m.2) ∧ (∀ m ∈ pairs, IsPlainName m.1)
        ∧ ∀ m ∈ pairs, Printable m.2 := by
    induction shapes with
    | nil => exact ⟨[], rfl, List.forall_mem_nil _, List.forall_mem_nil _⟩
    | cons shape shapes ih =>
        obtain ⟨⟨name, value, isName, printable, rfl⟩, others⟩ := List.forall_mem_cons.mp each
        obtain ⟨pairs, rfl, plain, values⟩ := ih others
        exact ⟨(name, value) :: pairs, rfl, List.forall_mem_cons.mpr ⟨isName, plain⟩,
          List.forall_mem_cons.mpr ⟨printable, values⟩⟩
  exact .object plain values

theorem printable_fieldsShape (each : ∀ m ∈ shapes, m.IsPlainMember) :
    Printable (fieldsShape shapes) := by
  refine printable_object (List.forall_mem_singleton.mpr ⟨_, _, ?_, printable_object each, rfl⟩)
  exact ⟨.of_flags (by decide) (by decide) (by decide), by decide⟩

theorem lexemes_fieldsShape (shapes : List Shape) : (fieldsShape shapes).lexemes
    = .punct .openBrace :: ((.word "fields" :: .punct .colon
        :: bracketed .openBrace .closeBrace (shapes.map Node.lexemes)) ++ [.punct .closeBrace]) := by
  simp only [fieldsShape, Shape.member, Node.lexemes_mk, Form.map, Form.lexemes, List.map_cons,
    List.map_nil, bracketed, commas, List.intercalate_singleton]
  rfl

/-- **Members that are written plainly are read back** from the code that writes them. -/
theorem readsAsFields_renderFields (on : s.On L) (silent : s.complaints = [])
    (closed : s.text.closesLiterals = true) {object : Tree} (inside : object ∈ s.tree.preorder)
    (form : object.form = .objectLiteral members) {kept : List Tree} (isKept : ∀ m ∈ kept, m ∈ members)
    (plain : ∀ m ∈ kept, s.WritesPlainly m) (written : Text) (isIndent : IsBlank indent) :
    ReadsAsFields (renderFields written (kept.map s.textOf) indent) (kept.map Node.shape) := by
  intro budget shallow room
  have printable : Printable (fieldsShape (kept.map Node.shape)) := by
    refine printable_fieldsShape fun shape isShape => ?_
    obtain ⟨m, isMember, rfl⟩ := List.mem_map.mp isShape
    exact (plain m isMember).property
  refine parse_spelled printable shallow room ?_
  have each : ∀ part ∈ kept.map fun m => (s.textOf m, m.shape.lexemes),
      Scan.IsMember part.1 part.2 := by
    intro part isPart
    obtain ⟨m, isMember, rfl⟩ := List.mem_map.mp isPart
    exact (plain m isMember).isMember on silent closed inside form (isKept m isMember)
  have code := spells_renderFields (z := " \x7d ;") isIndent each written
  have space : IsBlank " " := by decide
  rw [List.map_map, List.map_map] at code
  rw [lexemes_fieldsShape, List.map_map]
  have whole := Scan.Spells.inBraces (z := " ;") space space code
  simp only [List.append_assoc] at whole ⊢
  exact whole

end DynamoIndexing

open DynamoIndexing

/-! ## §5. What is left. -/

/-- **The fix for unused fields** puts in the place of the `fields` the members that are named
properties and not reported, in their order and as they were written; if all members are named
properties, these are all members but the reported ones.  What is written plainly is read back
from the new code. -/
theorem Rule.fields_removed {path : Path} {text : Text} {s : Source}
    (read : Source.ofText path text = .ok s) :
    ∃ found, dynamoIndexing.detect s = .ok found ∧ ∀ v ∈ found, ∃ r ∈ s.tree.resourcesOf ["Dynamo"],
      ∃ p members, Removes s r p members v
        ∧ ((∀ member ∈ members, (memberName? member).isSome) → ∀ f, v.fix = some f →
          f.newCode = renderFields (s.textOf p.node)
            ((members.filter fun member => !isRemoved (unusedFields r members) member).map s.textOf)
            (s.lineIndent p.node.info.start)
          ∧ (s.complaints = [] → s.text.closesLiterals = true →
            (∀ member ∈ members, isRemoved (unusedFields r members) member = false →
              s.WritesPlainly member) →
            ReadsAsFields f.newCode ((members.filter fun member =>
              !isRemoved (unusedFields r members) member).map Node.shape))) := by
  obtain ⟨L, on, _⟩ := Source.exists_layout read
  obtain ⟨found, isOk, _⟩ := DynamoIndexing.detect_reports on
  refine ⟨found, isOk, fun v isFound => ?_⟩
  obtain ⟨r, isTable, p, members, removes⟩ := exists_removes isOk isFound
  refine ⟨r, isTable, p, members, removes, fun named f isFix => ?_⟩
  have newCode := (removes.fix f isFix).2.newCode_eq
  rw [filter_isKept named] at newCode
  refine ⟨newCode, fun silent closed plain => ?_⟩
  rw [newCode]
  have inside := (Resource.isPropertyOf_of_findProperty?
    (Resource.mem_resources_of_mem_resourcesOf isTable) removes.isFields).unwrap_value
  refine readsAsFields_renderFields on silent closed inside
    (Node.objectMembers?_eq_some.mp removes.isObject) (fun m isLeft => (List.mem_filter.mp isLeft).1)
    (fun m isLeft => ?_) _ (DomainConfig.isBlank_lineIndent s _)
  obtain ⟨isMember, notRemoved⟩ := List.mem_filter.mp isLeft
  rw [Bool.not_eq_true'] at notRemoved
  exact plain m isMember notRemoved

/-- A table with a field that no index uses. -/
def unusedField : Text :=
  "new sst.aws.Dynamo(\"T\", \x7b fields: \x7b id: \"string\", x: \"string\" \x7d, "
    ++ "primaryIndex: \x7b hashKey: \"id\" \x7d \x7d)"

/-- The name and the value of a property whose value is a text in double quotes. -/
def textMember? (member : Tree) : Option (Text × Text) :=
  match member.form with
  | .propertyAssignment key value =>
      match key.form, value.form with
      | .identifier name, .stringLiteral text .double => some (name, text)
      | _, _ => none
  | _ => none

theorem shape_of_textMember? {member : Tree} {name text : Text}
    (h : textMember? member = some (name, text)) :
    member.shape = Shape.member name (.mk () (.stringLiteral text .double)) := by
  unfold textMember? at h
  split at h
  · next key value isProperty =>
      split at h
      · next isName isText =>
          cases h
          cases member
          cases key
          cases value
          cases isProperty
          cases isName
          cases isText
          simp only [Node.shape_mk, Form.map]
          rfl
      · cases h
  · cases h

/-- The other field is left, and it is read back. -/
theorem Rule.fields_removed_unused :
    ∃ (s : Source) (found : List Violation) (v : Violation) (f : Fix),
      Source.ofText ⟨.here, []⟩ unusedField = .ok s ∧ dynamoIndexing.detect s = .ok found
        ∧ v ∈ found ∧ v.fix = some f ∧ f.newCode = "fields: \x7b id: \"string\" \x7d"
        ∧ ∃ p, parseWithin 10 "x = \x7b fields: \x7b id: \"string\" \x7d \x7d ;" = .ok p
          ∧ p.complaints = [] ∧ p.tree.shape = .program (fieldsShape
            [Shape.member "id" (.mk () (.stringLiteral "string" .double))]).assigned := by
  let others (r : Resource Span) (members : List Tree) : List Tree :=
    members.filter fun member => !isRemoved (unusedFields r members) member
  have evaluated : (Source.ofText ⟨.here, []⟩ unusedField).toOption.any (fun s =>
      (s.complaints = [] && s.text.closesLiterals) &&
      (dynamoIndexing.detect s).toOption.any fun found => found.any fun v => v.fix.isSome
        && (s.tree.resourcesOf ["Dynamo"]).all fun r => (r.findProperty? "fields").all fun p =>
          p.value.unwrap.objectMembers?.all fun members =>
            members.all (fun member => (memberName? member).isSome)
            && (renderFields (s.textOf p.node) ((others r members).map s.textOf)
                (s.lineIndent p.node.info.start) = "fields: \x7b id: \"string\" \x7d"
              && ((others r members).map textMember? = [some (Text.ofString "id", Text.ofString "string")]
                && (others r members).map s.lexemesOf
                  = [[.word "id", .punct .colon, .string .double "string"]]))) = true := by
    decide +kernel
  obtain ⟨s, read, evaluated⟩ := exists_ok_of_any evaluated
  obtain ⟨clean, evaluated⟩ := Bool.and_eq_true_iff.mp evaluated
  obtain ⟨silent, closed⟩ := Bool.and_eq_true_iff.mp clean
  obtain ⟨found, isOk, evaluated⟩ := exists_ok_of_any evaluated
  obtain ⟨v, isFound, shown⟩ := List.any_eq_true.mp evaluated
  obtain ⟨found', isOk', removed⟩ := Rule.fields_removed read
  obtain rfl : found' = found := Except.ok.inj (isOk'.symm.trans isOk)
  obtain ⟨r, isTable, p, members, removes, isNewCode⟩ := removed v isFound
  rw [Bool.and_eq_true, List.all_eq_true] at shown
  obtain ⟨some, each⟩ := shown
  obtain ⟨f, isFix⟩ := Option.isSome_iff_exists.mp some
  have table := each r isTable
  rw [removes.isFields, Option.all_some, removes.isObject, Option.all_some] at table
  simp only [Bool.and_eq_true, List.all_eq_true, decide_eq_true_eq] at table
  obtain ⟨named, rendered, texts, lexemes⟩ := table
  obtain ⟨newCode, readBack⟩ := isNewCode named f isFix
  obtain ⟨m, isOnly, isText⟩ := List.map_eq_singleton_iff.mp texts
  change _ → _ → _ → ReadsAsFields _ ((others r members).map Node.shape) at readBack
  rw [isOnly, List.map_singleton, List.singleton_inj] at lexemes
  rw [isOnly, List.map_singleton, shape_of_textMember? isText] at readBack
  -- The only member that is left is written plainly.
  have plain : s.WritesPlainly m := by
    refine ⟨⟨_, _, ⟨?_, ?_⟩, .string ?_, shape_of_textMember? isText⟩, ?_⟩
    · exact .of_flags (by decide) (by decide) (by decide)
    · decide
    · decide
    · rw [lexemes, shape_of_textMember? isText]
      rfl
  have each : ∀ member ∈ members, isRemoved (unusedFields r members) member = false →
      s.WritesPlainly member := by
    intro member isMember notRemoved
    have isLeft : member ∈ others r members :=
      List.mem_filter.mpr ⟨isMember, by rw [notRemoved]; rfl⟩
    rw [isOnly, List.mem_singleton] at isLeft
    rw [isLeft]
    exact plain
  have code : f.newCode = "fields: \x7b id: \"string\" \x7d" := newCode.trans rendered
  have read' := readBack (of_decide_eq_true silent) closed each 10 (by decide) (by decide)
  rw [code] at read'
  exact ⟨s, found', v, f, read, isOk, isFound, isFix, code, read'⟩

/-- The texts of the members of the `fields` that a piece of code writes. -/
def membersWritten? (newCode : Text) : Option (List Text) :=
  (Source.ofText ⟨.here, []⟩ ("(\x7b" ++ newCode ++ "\x7d)")).toOption.bind fun s =>
    s.tree.preorder.findSome? fun n =>
      match n.form with
      | .propertyAssignment key value =>
          if key.keyName? = some "fields" then value.unwrap.objectMembers?.map (·.map s.textOf) else none
      | _ => none

/-- A table with an indexed field that is written for short. -/
def shortField : Text :=
  "new sst.aws.Dynamo(\"T\", \x7b fields: \x7b id, sk: \"string\", x: \"string\" \x7d, "
    ++ "primaryIndex: \x7b hashKey: \"id\", rangeKey: \"sk\" \x7d \x7d)"

/-- **A field that is written for short is removed as well,** although it is indexed and not
reported. -/
theorem Rule.not_fields_removed :
    ¬ ∀ (path : Path) (text : Text) (s : Source) (found : List Violation),
        Source.ofText path text = .ok s → s.complaints = [] → dynamoIndexing.detect s = .ok found →
        ∀ v ∈ found, ∀ f, v.fix = some f → ∃ r ∈ s.tree.resourcesOf ["Dynamo"], ∃ p members,
          r.findProperty? "fields" = some p ∧ p.value.unwrap.objectMembers? = some members
            ∧ membersWritten? f.newCode = some
              ((members.filter fun member => !isRemoved (unusedFields r members) member).map s.textOf) := by
  intro all
  have evaluated : (Source.ofText ⟨.here, []⟩ shortField).toOption.any (fun s =>
      s.complaints = [] && (dynamoIndexing.detect s).toOption.any fun found => found.any fun v =>
        v.fix.any fun f => (s.tree.resourcesOf ["Dynamo"]).all fun r =>
          (r.findProperty? "fields").all fun p => p.value.unwrap.objectMembers?.all fun members =>
            membersWritten? f.newCode ≠ some
              ((members.filter fun member => !isRemoved (unusedFields r members) member).map s.textOf))
      = true := by
    decide +kernel
  obtain ⟨s, read, evaluated⟩ := exists_ok_of_any evaluated
  obtain ⟨wellFormed, evaluated⟩ := Bool.and_eq_true_iff.mp evaluated
  obtain ⟨found, isOk, evaluated⟩ := exists_ok_of_any evaluated
  obtain ⟨v, isFound, shown⟩ := List.any_eq_true.mp evaluated
  cases isFix : v.fix with
  | none =>
      rw [isFix] at shown
      cases shown
  | some f =>
      rw [isFix, Option.any_some, List.all_eq_true] at shown
      obtain ⟨r, isTable, p, members, isFields, isObject, isWritten⟩ :=
        all _ _ s found read (of_decide_eq_true wellFormed) isOk v isFound f isFix
      have differs := shown r isTable
      rw [isFields, Option.all_some, isObject, Option.all_some, decide_eq_true_eq] at differs
      exact differs isWritten

end StackLint
