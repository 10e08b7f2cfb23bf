/-
  StackLint.Proofs.Detection.Links
  ────────────────────────────────
  **WHAT IS SAID ABOUT LINKS.**

  The rule on links looks at one link after the other.  What it reports adds up to a
  verdict on the graph of all links: every link with a fault is reported once and no
  other link is.  Since a link that is reported as early leads down the text, such
  links never close a cycle, and a cycle that leaves its line has at least one of them.
-/
import Mathlib.Data.List.Chain
import Mathlib.Logic.Relation
import StackLint.Proofs.Rule.Basic
import StackLint.Proofs.Rule.Found
import StackLint.Rule.ResourceDependency

namespace StackLint

namespace ResourceDependency

/-! ## §1. Bindings. -/

/-- All bindings of resources in a source, in preorder. -/
def declared (s : Source) : List Binding :=
  s.tree.preorder.filterMap (binding? s)

/-- A binding is kept unless its name is taken. -/
def keep (kept : List Binding) (b : Binding) : List Binding :=
  if kept.any (·.name = b.name) then kept else kept ++ [b]

variable {s : Source} {a b c target : Binding} {bs kept : List Binding} {v : Violation}

/-- The bindings are declared, and kept one after the other. -/
theorem bindings_eq (s : Source) : bindings s = (declared s).foldl keep [] := by
  unfold bindings declared
  rw [Node.walk_eq_preorder]
  rfl

theorem any_name_iff {name : Text} :
    kept.any (·.name = name) = true ↔ name ∈ kept.map Binding.name := by
  simp only [List.any_eq_true, decide_eq_true_eq, List.mem_map]

/-- What is kept in the end was kept before, or is the first binding of a new name. -/
theorem mem_foldl_keep :
    b ∈ bs.foldl keep kept
      ↔ b ∈ kept ∨ b.name ∉ kept.map Binding.name ∧ bs.find? (·.name = b.name) = some b := by
  induction bs generalizing kept with
  | nil => simp
  | cons first bs ih =>
      rw [List.foldl_cons, ih]
      -- A binding of a name that is taken is dropped; one of a new name is added behind the others.
      by_cases taken : first.name ∈ kept.map Binding.name
      · have same : keep kept first = kept := if_pos (any_name_iff.mpr taken)
        rw [same]
        by_cases isName : first.name = b.name
        · have known : b.name ∈ kept.map Binding.name := isName ▸ taken
          simp [known]
        · rw [List.find?_cons_of_neg (by simp [isName])]
      · have longer : keep kept first = kept ++ [first] :=
          if_neg (mt any_name_iff.mp taken)
        rw [longer, List.map_append, List.mem_append, List.mem_append, List.map_singleton,
          List.mem_singleton, List.mem_singleton]
        by_cases isName : first.name = b.name
        · rw [List.find?_cons_of_pos (by simp [isName]), Option.some.injEq]
          have free : b.name ∉ kept.map Binding.name := isName ▸ taken
          constructor
          · rintro ((before | isFirst) | ⟨new, _⟩)
            · exact .inl before
            · exact .inr ⟨free, isFirst.symm⟩
            · exact absurd (.inr isName.symm) new
          · rintro (before | ⟨_, isFirst⟩)
            · exact .inl (.inl before)
            · exact .inl (.inr isFirst.symm)
        · have other : b ≠ first := fun same => isName (congrArg Binding.name same).symm
          rw [List.find?_cons_of_neg (by simp [isName])]
          simp only [other, or_false, Ne.symm isName]

/-- **Of several bindings of one name the first one counts.** -/
theorem mem_bindings_iff : b ∈ bindings s ↔ (declared s).find? (·.name = b.name) = some b := by
  rw [bindings_eq, mem_foldl_keep]
  simp

/-- A name has one binding. -/
theorem eq_of_name (inside : a ∈ bindings s) (inside' : b ∈ bindings s) (same : a.name = b.name) :
    a = b := by
  have first := mem_bindings_iff.mp inside
  rw [same, mem_bindings_iff.mp inside'] at first
  exact (Option.some.inj first).symm

theorem nodup_foldl_keep (bs : List Binding) (distinct : (kept.map Binding.name).Nodup) :
    ((bs.foldl keep kept).map Binding.name).Nodup := by
  induction bs generalizing kept with
  | nil => exact distinct
  | cons first bs ih =>
      rw [List.foldl_cons]
      refine ih ?_
      unfold keep
      split
      · exact distinct
      · next free =>
          rw [List.map_append, List.nodup_append]
          refine ⟨distinct, List.nodup_singleton _, ?_⟩
          rintro name before _ isName rfl
          rw [List.map_singleton, List.mem_singleton] at isName
          exact free (any_name_iff.mpr (isName ▸ before))

theorem nodup_names (s : Source) : ((bindings s).map Binding.name).Nodup := by
  rw [bindings_eq]
  exact nodup_foldl_keep (declared s) List.nodup_nil

/-- The binding of a name. -/
theorem find?_name {name : Text} :
    (bindings s).find? (·.name = name) = some b ↔ b ∈ bindings s ∧ b.name = name := by
  constructor
  · intro found
    exact ⟨List.mem_of_find?_eq_some found, by simpa using List.find?_some found⟩
  · rintro ⟨inside, rfl⟩
    cases found : (bindings s).find? (·.name = b.name) with
    | none => simpa using List.find?_eq_none.mp found b inside
    | some b' =>
        have isName : b'.name = b.name := by simpa using List.find?_some found
        rw [eq_of_name (List.mem_of_find?_eq_some found) inside isName]

theorem nodup_eraseDups (names : List Text) : names.eraseDups.Nodup := by
  cases names with
  | nil => exact List.nodup_nil
  | cons name names =>
      rw [List.eraseDups_cons, List.nodup_cons]
      constructor
      · rw [List.mem_eraseDups]
        simp
      · exact nodup_eraseDups _
termination_by names.length
decreasing_by
  exact Nat.lt_succ_of_le (List.length_filter_le _ _)

/-! ## §2. Linked names. -/

/-- An expression that is a name under accesses to properties, parentheses and type
assertions. -/
inductive BasedOn (name : Text) : Tree → Prop where
  | name (place : Span) : BasedOn name (.mk place (.identifier name))
  | access {object : Tree} (place : Span) (key : Tree) (optional : Bool)
      (base : BasedOn name object) : BasedOn name (.mk place (.propertyAccess object key optional))
  | parenthesized {inner : Tree} (place : Span) (base : BasedOn name inner) :
      BasedOn name (.mk place (.parenthesized inner))
  | assertion {inner : Tree} (place : Span) (kind : Assertion) (base : BasedOn name inner) :
      BasedOn name (.mk place (.typeAssertion inner kind))

/-- A value that the property `link` of a resource holds: one of its list, or the property's
value itself. -/
inductive HoldsLink (r : Resource Span) (value : Tree) : Prop where
  | listed {link : Node.Property Span} {elements : List (Option Tree)}
      (found : r.findProperty? "link" = some link)
      (isList : link.value.unwrap.form = .arrayLiteral elements) (inside : some value ∈ elements)
  | lone {link : Node.Property Span} (found : r.findProperty? "link" = some link)
      (noList : ∀ elements, link.value.unwrap.form ≠ .arrayLiteral elements)
      (isValue : value = link.value.unwrap)

theorem basedOn_iff {name : Text} {n : Tree} :
    BasedOn name n ↔ n.rootIdentifier?.bind Node.identifierName? = some name := by
  constructor
  · intro base
    induction base with
    | name span => simp [Node.rootIdentifier?, Node.identifierName?, Node.form]
    | access span key optional base ih => simpa [Node.rootIdentifier?] using ih
    | parenthesized span base ih => simpa [Node.rootIdentifier?] using ih
    | assertion span kind base ih => simpa [Node.rootIdentifier?] using ih
  · intro isName
    fun_induction Node.rootIdentifier? n with
    | case1 span inner ih => exact .parenthesized span (ih isName)
    | case2 span inner kind ih => exact .assertion span kind (ih isName)
    | case3 span object key optional ih => exact .access span key optional (ih isName)
    | case4 span name' =>
        obtain rfl : name' = name := Option.some.inj isName
        exact .name span
    | case5 => cases isName

/-- The linked names are the bases of the values that the property holds. -/
theorem mem_linkedNames {r : Resource Span} {link : Node.Property Span} {name : Text}
    (found : r.findProperty? "link" = some link) :
    name ∈ linkedNames link.value.unwrap ↔ ∃ value, HoldsLink r value ∧ BasedOn name value := by
  have isLink {link' : Node.Property Span} (found' : r.findProperty? "link" = some link') :
      link' = link := Option.some.inj (found'.symm.trans found)
  unfold linkedNames
  simp only [List.mem_filterMap]
  constructor
  · rintro ⟨element, inside, isName⟩
    obtain ⟨base, isBase, named⟩ := Option.bind_eq_some_iff.mp isName
    obtain ⟨value, rfl, isRoot⟩ := Option.bind_eq_some_iff.mp isBase
    have based : BasedOn name value := basedOn_iff.mpr (by rw [isRoot]; exact named)
    split at inside
    · next elements isList => exact ⟨value, .listed found isList inside, based⟩
    · next noList =>
        have same : value = link.value.unwrap := Option.some.inj (List.mem_singleton.mp inside)
        exact ⟨value, .lone found noList same, based⟩
  · rintro ⟨value, holds, based⟩
    refine ⟨some value, ?_, basedOn_iff.mp based⟩
    cases holds with
    | listed found' isList inside =>
        rw [← isLink found', isList]
        exact inside
    | lone found' noList isValue =>
        obtain rfl := isLink found'
        split
        · next elements isList => exact absurd isList (noList elements)
        · rw [isValue]
          exact List.mem_singleton_self _

/-- **The links of a resource** are the names of other resources at the base of the values
that its property `link` holds. -/
theorem mem_links {name other : Text} {r : Resource Span} :
    other ∈ links name r ↔ other ≠ name ∧ ∃ value, HoldsLink r value ∧ BasedOn other value := by
  unfold links
  cases found : r.findProperty? "link" with
  | none =>
      refine ⟨fun inside => absurd inside List.not_mem_nil, ?_⟩
      rintro ⟨_, value, holds, _⟩
      cases holds with
      | listed found' => rw [found] at found'; cases found'
      | lone found' => rw [found] at found'; cases found'
  | some link =>
      simp only [List.mem_eraseDups, List.mem_filter, decide_eq_true_eq, mem_linkedNames found]
      exact and_comm

theorem nodup_links (name : Text) (r : Resource Span) : (links name r).Nodup := by
  unfold links
  split
  · exact List.nodup_nil
  · exact nodup_eraseDups _

/-- A node that binds a name to a resource. -/
def Binds (node : Tree) (name : Text) (r : Resource Span) : Prop :=
  ∃ span place value, node = .mk span (.variableDeclarator (.mk place (.identifier name)) (some value))
    ∧ Resource.ofNode? value.unwrap = some r

/-- A binding of a source as the text has it. -/
structure Binding.Describes (b : Binding) (s : Source) (r : Resource Span) : Prop where
  binds : Binds b.node b.name r
  line : b.line = s.lineOf b.node
  /-- No name is linked twice. -/
  nodup : b.links.Nodup
  links : ∀ name, name ∈ b.links ↔ name ≠ b.name ∧ ∃ value, HoldsLink r value ∧ BasedOn name value

theorem exists_identifier {n : Tree} {name : Text} (isName : n.identifierName? = some name) :
    ∃ place, n = .mk place (.identifier name) := by
  obtain ⟨place, form⟩ := n
  cases form with
  | identifier name' =>
      obtain rfl : name' = name := Option.some.inj isName
      exact ⟨place, rfl⟩
  | _ => cases isName

theorem describes_of_binding? {node : Tree} (made : binding? s node = some b) :
    ∃ r, b.Describes s r := by
  unfold binding? at made
  split at made
  · next target value isDeclarator =>
      simp only [bind, Option.bind_eq_some_iff, pure, Option.some.injEq] at made
      obtain ⟨name, isName, r, isResource, rfl⟩ := made
      refine ⟨r, ⟨?_, rfl, nodup_links name r, fun _ => mem_links⟩⟩
      obtain ⟨span, form⟩ := node
      obtain ⟨place, rfl⟩ := exists_identifier isName
      obtain rfl : form = _ := isDeclarator
      exact ⟨span, place, value, rfl, isResource⟩
  · cases made

theorem describes_of_declared (inside : b ∈ declared s) : ∃ r, b.Describes s r := by
  obtain ⟨node, _, made⟩ := List.mem_filterMap.mp inside
  exact describes_of_binding? made

theorem binding?_of_binds {node : Tree} {name : Text} {r : Resource Span} (s : Source)
    (binds : Binds node name r) :
    binding? s node = some ⟨name, s.lineOf node, node, links name r⟩ := by
  obtain ⟨span, place, value, rfl, isResource⟩ := binds
  unfold binding?
  simp only [Node.form, Node.identifierName?, isResource]
  rfl

/-- A name that is bound to a resource has a binding. -/
theorem exists_binding {node : Tree} {name : Text} {r : Resource Span}
    (inside : node ∈ s.tree.preorder) (binds : Binds node name r) :
    ∃ b ∈ bindings s, b.name = name := by
  have isMade := List.mem_filterMap.mpr ⟨node, inside, binding?_of_binds s binds⟩
  cases found : (declared s).find? (·.name = name) with
  | none => simpa using List.find?_eq_none.mp found _ isMade
  | some first =>
      have isName : first.name = name := by simpa using List.find?_some found
      refine ⟨first, mem_bindings_iff.mpr ?_, isName⟩
      rw [isName]
      exact found

theorem declared_of_bindings (inside : b ∈ bindings s) : b ∈ declared s :=
  List.mem_of_find?_eq_some (mem_bindings_iff.mp inside)

/-! ## §3. Verdicts on a link. -/

/-- What can be wrong with a link. -/
inductive Verdict where
  /-- The linked resource links back. -/
  | circular
  /-- The linked resource is declared on a later line. -/
  | early
  deriving DecidableEq

namespace Verdict

/-- The code under which a verdict is reported. -/
def code : Verdict → Text
  | circular => "SST-VAL-051"
  | early => "SST-VAL-052"

/-- The message about the link from `a` to `b`. -/
def message (a b : Binding) : Verdict → Text
  | circular => "Circular dependency detected: " ++ a.name ++ " ↔ " ++ b.name
  | early => "Using resource \"" ++ b.name ++ "\" before it is declared (line "
      ++ Text.ofNat b.line ++ ")"

/-- The verdict is true of a link from `a` to `b`. -/
def Applies (a b : Binding) : Verdict → Prop
  | circular => a.name ∈ b.links
  | early => a.line < b.line

instance (a b : Binding) (verdict : Verdict) : Decidable (verdict.Applies a b) :=
  match verdict with
  | circular => inferInstanceAs (Decidable (a.name ∈ b.links))
  | early => inferInstanceAs (Decidable (a.line < b.line))

/-- The violation says this of `a`, for `b`. -/
def isSaid (verdict : Verdict) (a b : Binding) (v : Violation) : Bool :=
  v.code = verdict.code && v.resource = a.name && v.message = verdict.message a b

theorem isSaid_iff {verdict : Verdict} :
    verdict.isSaid a b v = true
      ↔ v.code = verdict.code ∧ v.resource = a.name ∧ v.message = verdict.message a b := by
  unfold isSaid
  simp only [Bool.and_eq_true, decide_eq_true_eq, and_assoc]

theorem eq_of_code {verdict verdict' : Verdict} (same : verdict.code = verdict'.code) :
    verdict = verdict' := by
  cases verdict <;> cases verdict' <;> first | rfl | exact absurd same (by decide)

end Verdict

/-- No numeral has a blank. -/
theorem not_blank_of_mem_ofNat {n : Nat} {e : CodePoint} (inside : e ∈ Text.ofNat n) :
    e ≠ .scalar ' ' := by
  obtain ⟨digit, isDigit, rfl⟩ := List.mem_map.mp inside
  have digits : (toString n).toList = Nat.toDigits 10 n := String.toList_ofList
  rw [digits] at isDigit
  rintro ⟨⟩
  exact absurd (Nat.isDigit_of_mem_toDigits (by decide) (by decide) isDigit) (by decide)

/-- What stands in front of a blank and a word without blanks can be read off the whole. -/
theorem eq_of_append_blank {x x' y y' : Text} (noBlank : ∀ e ∈ y, e ≠ .scalar ' ')
    (noBlank' : ∀ e ∈ y', e ≠ .scalar ' ')
    (same : x ++ .scalar ' ' :: y = x' ++ .scalar ' ' :: y') : x = x' := by
  have lastWord {x y : Text} (noBlank : ∀ e ∈ y, e ≠ .scalar ' ') :
      (x ++ .scalar ' ' :: y).reverse.dropWhile (· != .scalar ' ')
        = .scalar ' ' :: x.reverse := by
    rw [List.reverse_append, List.reverse_cons, List.append_assoc,
      List.dropWhile_append_of_pos (fun e inside => by
        simpa using noBlank e (List.mem_reverse.mp inside))]
    rfl
  have ends := lastWord (x := x) noBlank
  rw [same, lastWord noBlank'] at ends
  exact List.reverse_injective (List.cons.inj ends).2.symm

/-- **A message names the other resource.** -/
theorem Verdict.name_of_message (verdict : Verdict) {a b c : Binding}
    (same : verdict.message a b = verdict.message a c) : b.name = c.name := by
  cases verdict with
  | circular => exact List.append_cancel_left same
  | early =>
      -- The message ends with the line, not with the name.  No numeral has a blank in it, so what
      -- is in front of the last blank is the same in both messages.
      have word (n : Nat) : ∀ e ∈ Text.ofNat n ++ Text.ofString ")", e ≠ .scalar ' ' := by
        intro e inside
        rcases List.mem_append.mp inside with inside | inside
        · exact not_blank_of_mem_ofNat inside
        · rw [List.mem_singleton.mp inside]
          decide
      have split (b : Binding) : Verdict.early.message a b
          = (Text.ofString "Using resource \"" ++ b.name
              ++ Text.ofString "\" before it is declared (line")
            ++ .scalar ' ' :: (Text.ofNat b.line ++ Text.ofString ")") := by
        have blank : Text.ofString "\" before it is declared (line "
            = Text.ofString "\" before it is declared (line" ++ [.scalar ' '] := by decide +kernel
        change Text.ofString "Using resource \"" ++ b.name
            ++ Text.ofString "\" before it is declared (line " ++ Text.ofNat b.line
            ++ Text.ofString ")" = _
        rw [blank]
        simp only [List.append_assoc, List.cons_append, List.nil_append]
      rw [split, split] at same
      have front := eq_of_append_blank (word _) (word _) same
      exact List.append_cancel_left (List.append_cancel_right front)

/-- Of the resource that links, the message has no more than the name. -/
theorem Verdict.message_congr (verdict : Verdict) {a a' : Binding} (same : a.name = a'.name)
    (b : Binding) : verdict.message a b = verdict.message a' b := by
  cases verdict with
  | circular => rw [message, message, same]
  | early => rfl

/-- A violation with a known code is made, and says what it is told. -/
theorem exists_violation (s : Source) (a : Binding) (code message : Text)
    (known : (Catalog.find? code).isSome = true) :
    ∃ v, s.violation code a.node a.name "link" message .error none = .ok v
      ∧ v.StandsAt s a.node code none ∧ v.resource = a.name ∧ v.message = message := by
  obtain ⟨entry, found⟩ := Option.isSome_iff_exists.mp known
  unfold Source.violation
  rw [found]
  exact ⟨_, rfl, ⟨rfl, rfl, rfl, rfl⟩, rfl, rfl⟩

/-- The verdict, if it is true of a link, as a list of at most one report. -/
def Verdict.reports (verdict : Verdict) (a b : Binding) (v : Violation) : List Violation :=
  if verdict.Applies a b then [v] else []

theorem Verdict.mem_reports {verdict : Verdict} {a b : Binding} {v w : Violation} :
    v ∈ verdict.reports a b w ↔ v = w ∧ verdict.Applies a b := by
  unfold reports
  split <;> simp_all

/-- **One link.** Each verdict that is true of it is reported. -/
theorem exists_checkLink (s : Source) (a b : Binding) :
    ∃ circular early : Violation,
      (circular.StandsAt s a.node Verdict.circular.code none
          ∧ Verdict.circular.isSaid a b circular = true)
        ∧ (early.StandsAt s a.node Verdict.early.code none ∧ Verdict.early.isSaid a b early = true)
        ∧ checkLink s a b
            = .ok (Verdict.circular.reports a b circular ++ Verdict.early.reports a b early) := by
  obtain ⟨circular, made, stands, resource, message⟩ := exists_violation s a
    "SST-VAL-051" (Verdict.circular.message a b) (by decide)
  obtain ⟨early, made', stands', resource', message'⟩ := exists_violation s a
    "SST-VAL-052" (Verdict.early.message a b) (by decide)
  refine ⟨circular, early, ⟨stands, Verdict.isSaid_iff.mpr ⟨stands.code_eq, resource, message⟩⟩,
    ⟨stands', Verdict.isSaid_iff.mpr ⟨stands'.code_eq, resource', message'⟩⟩, ?_⟩
  dsimp only [Verdict.message] at made made'
  unfold checkLink
  rw [made, made']
  unfold Verdict.reports Verdict.Applies
  by_cases back : a.name ∈ b.links <;> by_cases later : a.line < b.line <;>
    simp [back, later] <;> rfl

/-! ## §4. Counting reports. -/

/-- What several checks report adds up. -/
theorem countP_mapM {α : Type} {check : α → Check (List Violation)} {as : List α}
    {reports : List (List Violation)} (h : as.mapM check = .ok reports) {p : Violation → Bool}
    {q : α → Bool} (each : ∀ a ∈ as, ∀ found, check a = .ok found →
      found.countP p = if q a then 1 else 0) :
    reports.flatten.countP p = as.countP q := by
  induction as generalizing reports with
  | nil =>
      cases h
      rfl
  | cons a as ih =>
      rw [List.mapM_cons] at h
      obtain ⟨found, first, h⟩ := bind_eq_ok.mp h
      obtain ⟨others, rest, h⟩ := bind_eq_ok.mp h
      cases h
      rw [List.flatten_cons, List.countP_append, each a (List.mem_cons_self ..) found first,
        ih rest fun a inside => each a (List.mem_cons_of_mem _ inside), List.countP_cons,
        Nat.add_comm]

/-- The one element of a list with a given name is counted once. -/
theorem countP_name {all : List Binding} (distinct : (all.map Binding.name).Nodup)
    (inside : a ∈ all) (holds : Bool) :
    all.countP (fun b => b.name = a.name && holds) = if holds then 1 else 0 := by
  -- Names are different, so the name counts its binding.
  cases holds with
  | false => simp
  | true =>
      have once := distinct.count (a := a.name)
      rw [if_pos (List.mem_map_of_mem inside), List.count, List.countP_map] at once
      simpa [Function.comp_def, beq_eq_decide] using once

/-- What is said of one link is said of another one if verdict, resource and target are the
same. -/
theorem Verdict.isSaid_iff_same {verdict verdict' : Verdict}
    (isTarget : target.name = c.name → target = c) (said : verdict'.isSaid b target v = true) :
    verdict.isSaid a c v = true
      ↔ verdict' = verdict ∧ b.name = a.name ∧ target.name = c.name := by
  obtain ⟨code, resource, message⟩ := isSaid_iff.mp said
  rw [isSaid_iff, code, resource, message]
  constructor
  · rintro ⟨isCode, isName, isMessage⟩
    obtain rfl := eq_of_code isCode
    have sameMessage := isMessage.trans (message_congr verdict' isName.symm c)
    exact ⟨rfl, isName, name_of_message verdict' sameMessage⟩
  · rintro ⟨rfl, isName, isTargetName⟩
    obtain rfl := isTarget isTargetName
    exact ⟨rfl, isName, message_congr verdict' isName target⟩

theorem Verdict.countP_reports {verdict verdict' : Verdict}
    (isTarget : target.name = c.name → target = c) (said : verdict'.isSaid b target v = true) :
    (verdict'.reports b target v).countP (verdict.isSaid a c)
      = if verdict' = verdict ∧ b.name = a.name ∧ target.name = c.name ∧ verdict'.Applies b target
        then 1 else 0 := by
  unfold reports
  by_cases applies : verdict'.Applies b target
  · rw [if_pos applies, List.countP_singleton]
    simp only [isSaid_iff_same isTarget said, applies, and_true]
  · rw [if_neg applies]
    simp [applies]

/-- **The reports on one link** say of `a` what is true of its link to `c`, once. -/
theorem countP_checkLink {verdict : Verdict} {found : List Violation}
    (isTarget : target.name = c.name → target = c) (h : checkLink s b target = .ok found) :
    found.countP (verdict.isSaid a c)
      = if b.name = a.name && (target.name = c.name && verdict.Applies b c) then 1 else 0 := by
  obtain ⟨circular, early, ⟨_, circularSaid⟩, ⟨_, earlySaid⟩, isOk⟩ := exists_checkLink s b target
  rw [isOk] at h
  cases h
  rw [List.countP_append, Verdict.countP_reports isTarget circularSaid,
    Verdict.countP_reports isTarget earlySaid]
  by_cases isTargetName : target.name = c.name
  · obtain rfl := isTarget isTargetName
    cases verdict <;> simp
  · simp [isTargetName]

/-- The targets of a binding's links. -/
def targets (s : Source) (b : Binding) : List Binding :=
  b.links.filterMap fun name => (bindings s).find? (·.name = name)

theorem mem_targets : c ∈ targets s b ↔ c ∈ bindings s ∧ c.name ∈ b.links := by
  unfold targets
  simp only [List.mem_filterMap, find?_name]
  constructor
  · rintro ⟨name, linked, inside, rfl⟩
    exact ⟨inside, linked⟩
  · rintro ⟨inside, linked⟩
    exact ⟨c.name, linked, inside, rfl⟩

/-- No target is linked twice. -/
theorem nodup_targets (inside : b ∈ bindings s) : ((targets s b).map Binding.name).Nodup := by
  obtain ⟨_, described⟩ := describes_of_declared (declared_of_bindings inside)
  have distinct := described.nodup
  unfold targets
  rw [List.map_filterMap]
  refine distinct.filterMap fun name name' name'' isName isName' => ?_
  obtain ⟨target, found, named⟩ := Option.map_eq_some_iff.mp isName
  obtain ⟨target', found', named'⟩ := Option.map_eq_some_iff.mp isName'
  rw [← (find?_name.mp found).2, ← (find?_name.mp found').2, named, named']

/-- The reports on one binding. -/
theorem countP_checkBinding {verdict : Verdict} {found : List Violation} (inside : b ∈ bindings s)
    (isTarget : c ∈ bindings s) (h : checkBinding s (bindings s) b = .ok found) :
    found.countP (verdict.isSaid a c)
      = if b.name = a.name && (c.name ∈ b.links && verdict.Applies b c) then 1 else 0 := by
  unfold checkBinding at h
  obtain ⟨reports, isOk, h⟩ := bind_eq_ok.mp h
  cases h
  rw [countP_mapM isOk fun target isLinked found made =>
    countP_checkLink (eq_of_name (mem_targets.mp isLinked).1 isTarget) made]
  by_cases linked : c.name ∈ b.links
  · have once := countP_name (nodup_targets inside) (mem_targets.mpr ⟨isTarget, linked⟩)
      (b.name = a.name && verdict.Applies b c)
    simp only [linked, decide_true, Bool.true_and]
    rw [← once]
    refine List.countP_congr fun target _ => ?_
    simp only [Bool.and_eq_true]
    tauto
  · have none (target : Binding) (isLinked : target ∈ targets s b) : target.name ≠ c.name :=
      fun same => linked (same ▸ (mem_targets.mp isLinked).2)
    simp only [linked, decide_false, Bool.false_and, Bool.and_false, Bool.false_eq_true, if_false]
    rw [List.countP_eq_zero]
    intro target isLinked
    simp [none target isLinked]

/-- **The reports on all bindings.** -/
theorem countP_detect (verdict : Verdict) {found : List Violation} (inside : a ∈ bindings s)
    (isTarget : b ∈ bindings s) (h : detect s = .ok found) :
    found.countP (verdict.isSaid a b)
      = if b.name ∈ a.links ∧ verdict.Applies a b then 1 else 0 := by
  unfold detect at h
  obtain ⟨reports, isOk, h⟩ := bind_eq_ok.mp h
  cases h
  have each (a' : Binding) (inside' : a' ∈ bindings s) (found : List Violation)
      (made : checkBinding s (bindings s) a' = .ok found) :
      found.countP (verdict.isSaid a b)
        = if a'.name = a.name && (b.name ∈ a.links && verdict.Applies a b) then 1 else 0 := by
    rw [countP_checkBinding inside' isTarget made]
    by_cases isName : a'.name = a.name
    · rw [eq_of_name inside' inside isName]
    · simp [isName]
  rw [countP_mapM isOk each, countP_name (nodup_names s) inside]
  simp

/-! ## §5. Verdicts on all links. -/

/-- The resource `a` links the resource `b`. -/
def LinksTo (s : Source) (a b : Binding) : Prop :=
  a ∈ bindings s ∧ b ∈ bindings s ∧ b.name ∈ a.links

/-- It is reported that `a` links `b` before `b` is declared. -/
def ReportedEarly (s : Source) (found : List Violation) (a b : Binding) : Prop :=
  a ∈ bindings s ∧ b ∈ bindings s ∧ ∃ v ∈ found, Verdict.early.isSaid a b v = true

variable {found : List Violation}

theorem reportedEarly_iff (h : detect s = .ok found) :
    ReportedEarly s found a b ↔ LinksTo s a b ∧ a.line < b.line := by
  unfold ReportedEarly LinksTo
  by_cases kept : a ∈ bindings s ∧ b ∈ bindings s
  · have count := countP_detect .early kept.1 kept.2 h
    have isSome : (∃ v ∈ found, Verdict.early.isSaid a b v = true)
        ↔ b.name ∈ a.links ∧ a.line < b.line := by
      rw [← List.countP_pos_iff, count]
      show _ ↔ b.name ∈ a.links ∧ Verdict.early.Applies a b
      split <;> simp_all
    rw [isSome]
    tauto
  · tauto

/-- **Early links close no cycle,** since each leads down the text. -/
theorem line_lt_of_transGen (h : detect s = .ok found)
    (path : Relation.TransGen (ReportedEarly s found) a b) : a.line < b.line := by
  -- The line is a rank: it grows with each report, so it grows along a path of them.
  induction path with
  | single step => exact ((reportedEarly_iff h).mp step).2
  | tail _ step ih => exact ih.trans ((reportedEarly_iff h).mp step).2

/-- Along links of which none is early the text is never descended. -/
theorem le_of_chain {first : Binding} {rest : List Binding}
    (climbs : (first :: rest).IsChain fun a b => b.line ≤ a.line) :
    ∀ b ∈ rest, b.line ≤ first.line := by
  have trans : Trans (fun a b : Binding => b.line ≤ a.line) (fun a b : Binding => b.line ≤ a.line)
      (fun a b : Binding => b.line ≤ a.line) := ⟨fun up up' => up'.trans up⟩
  exact (List.pairwise_cons.mp (List.isChain_iff_pairwise.mp climbs)).1

/-- **A cycle of links that leaves its line has an early one.** -/
theorem exists_early_of_cycle (h : detect s = .ok found) {first : Binding} {rest : List Binding}
    (cycle : (first :: rest ++ [first]).IsChain (LinksTo s))
    (leaves : ∃ b ∈ rest, b.line ≠ first.line) :
    ∃ a b, [a, b] <:+: first :: rest ++ [first] ∧ ReportedEarly s found a b := by
  by_contra none
  obtain ⟨b, inside, other⟩ := leaves
  -- Without an early link the lines only go up, from the first binding back to itself.
  have climbs : (first :: rest ++ [first]).IsChain fun a b => b.line ≤ a.line := by
    rw [List.isChain_iff_forall_rel_of_append_cons_cons] at cycle ⊢
    intro a b front back whole
    refine Nat.le_of_not_lt fun down => none ⟨a, b, ⟨front, back, ?_⟩, ?_⟩
    · rw [whole, List.append_assoc]
      rfl
    · exact (reportedEarly_iff h).mpr ⟨cycle whole, down⟩
  have up : b.line ≤ first.line :=
    le_of_chain climbs b (List.mem_append_left _ inside)
  have back : first.line ≤ b.line := by
    obtain ⟨front, behind, rfl⟩ := List.append_of_mem inside
    rw [List.cons_append, List.append_assoc, List.cons_append, ← List.cons_append] at climbs
    exact le_of_chain (List.isChain_append.mp climbs).2.1 first
      (List.mem_append_right _ (List.mem_singleton_self _))
  exact other (Nat.le_antisymm up back)

/-- Every report says something true of a link, and stands at the binding that links. -/
theorem said_of_detect (h : detect s = .ok found) (inside : v ∈ found) :
    ∃ (verdict : Verdict) (a b : Binding), LinksTo s a b ∧ verdict.Applies a b
      ∧ verdict.isSaid a b v = true ∧ v.StandsAt s a.node verdict.code none := by
  obtain ⟨a, isKept, reports, made, inside⟩ := exists_of_reportedAll h inside
  obtain ⟨b, isTarget, reports, made, inside⟩ := exists_of_reportedAll made inside
  obtain ⟨isKept', linked⟩ := mem_targets.mp isTarget
  obtain ⟨circular, early, ⟨stands, said⟩, ⟨stands', said'⟩, isOk⟩ := exists_checkLink s a b
  rw [isOk] at made
  cases made
  rcases List.mem_append.mp inside with inside | inside
  · obtain ⟨rfl, applies⟩ := Verdict.mem_reports.mp inside
    exact ⟨.circular, a, b, ⟨isKept, isKept', linked⟩, applies, said, stands⟩
  · obtain ⟨rfl, applies⟩ := Verdict.mem_reports.mp inside
    exact ⟨.early, a, b, ⟨isKept, isKept', linked⟩, applies, said', stands'⟩

theorem exists_detect (s : Source) : ∃ found, detect s = .ok found := by
  have link (a b : Binding) : Yields (checkLink s a b) fun _ => True := by
    obtain ⟨_, _, _, _, isOk⟩ := exists_checkLink s a b
    exact ⟨_, isOk, trivial⟩
  have binding (a : Binding) : Yields (checkBinding s (bindings s) a) fun _ => True :=
    (Yields.mapM fun b _ => link a b).bind fun _ _ => .pure trivial
  obtain ⟨found, isOk, _⟩ : Yields (detect s) fun _ => True :=
    (Yields.mapM fun a _ => binding a).bind fun _ _ => .pure trivial
  exact ⟨found, isOk⟩

/-- **What the rule on links says of a source.** -/
structure Judges (s : Source) (found : List Violation) : Prop where
  /-- A resource counts if its binding is the first one of its name. -/
  first : ∀ b, b ∈ bindings s ↔ (declared s).find? (·.name = b.name) = some b
  /-- Each name that is bound to a resource counts. -/
  named : ∀ node ∈ s.tree.preorder, ∀ name r, Binds node name r → ∃ b ∈ bindings s, b.name = name
  /-- The line and the links of a resource are those of the node that binds it. -/
  described : ∀ b ∈ bindings s, ∃ r, b.Describes s r
  /-- Resources that link each other are reported once. -/
  circular : ∀ a ∈ bindings s, ∀ b ∈ bindings s,
    found.countP (Verdict.circular.isSaid a b)
      = if b.name ∈ a.links ∧ a.name ∈ b.links then 1 else 0
  /-- A link to a resource further down is reported once. -/
  early : ∀ a ∈ bindings s, ∀ b ∈ bindings s,
    found.countP (Verdict.early.isSaid a b) = if b.name ∈ a.links ∧ a.line < b.line then 1 else 0
  /-- All reports are of these two kinds, and stand at the resource that links. -/
  nothingElse : ∀ v ∈ found, ∃ verdict : Verdict, ∃ a ∈ bindings s, ∃ b ∈ bindings s,
    verdict.isSaid a b v = true ∧ v.StandsAt s a.node verdict.code none
  symmetric : ∀ a ∈ bindings s, ∀ b ∈ bindings s,
    found.countP (Verdict.circular.isSaid a b) = found.countP (Verdict.circular.isSaid b a)
  acyclic : ∀ a, ¬ Relation.TransGen (ReportedEarly s found) a a
  /-- A cycle of links, from `first` back to `first`, that is not all on one line. -/
  cycles : ∀ first rest, (first :: rest ++ [first]).IsChain (LinksTo s) →
    (∃ b ∈ rest, b.line ≠ first.line) →
    ∃ a b, [a, b] <:+: first :: rest ++ [first] ∧ ReportedEarly s found a b

end ResourceDependency

open ResourceDependency in
/-- **Verdicts on links are exact.** On every source the rule on links runs, and what it
reports are the mutual links and the links to later lines, each of them once. -/
theorem Rule.links_judged (s : Source) :
    ∃ found, resourceDependency.detect s = .ok found ∧ Judges s found := by
  obtain ⟨found, h⟩ := exists_detect s
  have circular (a : Binding) (inside : a ∈ bindings s) (b : Binding) (inside' : b ∈ bindings s) :
      found.countP (Verdict.circular.isSaid a b)
        = if b.name ∈ a.links ∧ a.name ∈ b.links then 1 else 0 :=
    countP_detect .circular inside inside' h
  refine ⟨found, h, fun b => mem_bindings_iff, ?_, ?_, circular, ?_, ?_, ?_, ?_, ?_⟩
  · intro node inside name r binds
    exact exists_binding inside binds
  · intro b inside
    exact describes_of_declared (declared_of_bindings inside)
  · intro a inside b inside'
    exact countP_detect .early inside inside' h
  · intro v inside
    obtain ⟨verdict, a, b, linked, _, said, stands⟩ := said_of_detect h inside
    exact ⟨verdict, a, linked.1, b, linked.2.1, said, stands⟩
  · intro a inside b inside'
    rw [circular a inside b inside', circular b inside' a inside]
    simp only [and_comm]
  · intro a path
    exact Nat.lt_irrefl _ (line_lt_of_transGen h path)
  · intro first rest cycle leaves
    exact exists_early_of_cycle h cycle leaves

/-- Three resources that link each other in a ring, on two lines. -/
def ringOfLinks : Text :=
  Text.ofString "const a = new sst.aws.Function(\"A\", \x7b link: [b, a, b] \x7d);\n"
    ++ Text.ofString "const b = new sst.aws.Bucket(\"B\", \x7b link: c \x7d), "
    ++ Text.ofString "c = new sst.aws.Queue(\"C\", \x7b link: [a.arn] \x7d);"

open ResourceDependency in
/-- No two of them link each other, and of the links of the ring one leads down. -/
theorem Rule.links_judged_ring :
    ∃ s found, Source.ofText ⟨.here, []⟩ ringOfLinks = .ok s
      ∧ resourceDependency.detect s = .ok found
      ∧ (bindings s).map (fun b => (b.name, b.line, b.links))
        = [(Text.ofString "a", 1, [Text.ofString "b"]), (Text.ofString "b", 2, [Text.ofString "c"]),
          (Text.ofString "c", 2, [Text.ofString "a"])]
      ∧ found.map (fun v => (v.code, v.line, v.column)) = [(Text.ofString "SST-VAL-052", 1, 7)]
      ∧ Judges s found := by
  have reported : (Source.ofText ⟨.here, []⟩ ringOfLinks).toOption.any (fun s =>
      (bindings s).map (fun b => (b.name, b.line, b.links))
          == [(Text.ofString "a", 1, [Text.ofString "b"]), (Text.ofString "b", 2, [Text.ofString "c"]),
            (Text.ofString "c", 2, [Text.ofString "a"])]
        && (resourceDependency.detect s).toOption.any fun found =>
          found.map (fun v => (v.code, v.line, v.column))
            == [(Text.ofString "SST-VAL-052", 1, 7)]) = true := by
    decide +kernel
  obtain ⟨s, isSource, holds⟩ := exists_ok_of_any reported
  rw [Bool.and_eq_true, beq_iff_eq] at holds
  obtain ⟨found, isOk, judged⟩ := Rule.links_judged s
  obtain ⟨found', isOk', places⟩ := exists_ok_of_any holds.2
  obtain rfl : found' = found := Except.ok.inj (isOk'.symm.trans isOk)
  exact ⟨s, found', isSource, isOk, holds.1, beq_iff_eq.mp places, judged⟩

end StackLint
