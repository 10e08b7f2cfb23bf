/-
  StackLint.Proofs.Rule.CorsKeys
  ──────────────────────────────
  **ONE FIX FOR EACH MISSPELLED KEY.**

  The rule on cross-origin settings reports every misspelled key of every resource
  once, and in the order of the resources.  Two such keys never stand in one place:
  between a constructor call and the keys of its settings there is no other
  constructor call, so the keys of different settings are different nodes, and
  different nodes with a name begin with different tokens.
-/
import Mathlib.Data.List.Perm.Subperm
import StackLint.Proofs.Parse.Nested
import StackLint.Proofs.Rule.Found
import StackLint.Proofs.Rule.Reports

namespace StackLint

namespace CorsConfig

/-! ## §1. Settings. -/

/-- The settings of a resource, if they are an object. -/
def settingsOf (r : Resource Span) : List (Node.Property Span) :=
  match (r.findProperty? "cors").bind fun cors => cors.value.unwrap.objectMembers? with
  | some members => Node.properties members
  | none => []

/-- The settings of a resource are an array. -/
def listsSettings (r : Resource Span) : Bool :=
  (r.findProperty? "cors").any fun cors =>
    match cors.value.unwrap.form with
    | .arrayLiteral _ => true
    | _ => false

/-- The settings of all resources of a tree. -/
def settings (tree : Tree) : List (Node.Property Span) :=
  tree.resources.flatMap settingsOf

theorem isPropertyOf_of_mem_settings {tree : Tree} {p : Node.Property Span}
    (isSetting : p ∈ settings tree) : Node.IsPropertyOf p tree := by
  obtain ⟨r, isResource, isSetting⟩ := List.mem_flatMap.mp isSetting
  unfold settingsOf at isSetting
  split at isSetting
  · next members isObject =>
      obtain ⟨cors, found, isObject⟩ := Option.bind_eq_some_iff.mp isObject
      exact (Node.isPropertyOf_of_mem (Node.objectMembers?_eq_some.mp isObject) isSetting).trans
        (Resource.isPropertyOf_of_findProperty? isResource found).unwrap_value
  · exact absurd isSetting List.not_mem_nil

/-- The key of the property is one of the misspellings. -/
def isMisspelled (p : Node.Property Span) : Bool :=
  misspellings.any fun m => p.key.keyName? = some m.wrong

theorem isMisspelled_iff {p : Node.Property Span} :
    isMisspelled p = true ↔ ∃ m ∈ misspellings, p.key.keyName? = some m.wrong := by
  unfold isMisspelled
  simp only [List.any_eq_true, decide_eq_true_eq]

/-- The codes of the violations whose fixes rename keys. -/
def renamingCodes : List Text :=
  ["SST-VAL-021", "SST-VAL-022", "SST-VAL-023"]

theorem code_mem_renamingCodes {m : Misspelling} (known : m ∈ misspellings) :
    m.code ∈ renamingCodes := by
  have all : ∀ m ∈ misspellings, m.code ∈ renamingCodes := by decide
  exact all m known

/-- The violation is about a misspelled key. -/
def renames (v : Violation) : Bool :=
  renamingCodes.contains v.code

/-- The violation is about settings that are an array. -/
def isAboutArray (v : Violation) : Bool :=
  v.code = "SST-VAL-024"

/-- No violation is about both. -/
theorem renames_eq_false {v : Violation} (isArray : v.code = "SST-VAL-024") :
    renames v = false := by
  unfold renames
  rw [isArray]
  decide

/-! ## §2. What the rule finds. -/

variable {s : Source} {v : Violation} {p : Node.Property Span}

/-- **The violation is about this key,** and its fix renames it. -/
inductive Flags (p : Node.Property Span) (v : Violation) : Prop where
  | mk {m : Misspelling} {f : Fix} (known : m ∈ misspellings)
      (isWrong : p.key.keyName? = some m.wrong) (code : v.code = m.code) (carried : v.fix = some f)
      (replaces : f.Replaces p.key (renamedKey p.key m.correct))

theorem Flags.renames (flags : Flags p v) : renames v = true := by
  obtain ⟨known, _, code⟩ := flags
  unfold CorsConfig.renames
  rw [code]
  exact List.contains_iff_mem.mpr (code_mem_renamingCodes known)

/-- A property is reported if it is misspelled, and otherwise it is not. -/
theorem checkProperty_flags {label : Text} {report : Option Violation}
    (h : checkProperty s label p = .ok report) :
    List.Forall₂ Flags ([p].filter isMisspelled) report.toList := by
  unfold checkProperty at h
  split at h
  · next none =>
      cases h
      have correct : isMisspelled p = false := by
        rw [Bool.eq_false_iff]
        intro wrong
        obtain ⟨m, known, isWrong⟩ := isMisspelled_iff.mp wrong
        exact absurd (decide_eq_true isWrong) (List.find?_eq_none.mp none m known)
      rw [List.filter_cons, if_neg (by rw [correct]; exact Bool.false_ne_true)]
      exact .nil
  · next m found =>
      have isWrong := List.find?_some found
      have known := List.mem_of_find?_eq_some found
      obtain ⟨f, made, h⟩ := bind_eq_ok.mp h
      obtain ⟨v, made', h⟩ := bind_eq_ok.mp h
      cases h
      have stands := Source.standsAt_of_violation made'
      have isWrong : p.key.keyName? = some m.wrong := of_decide_eq_true isWrong
      rw [List.filter_cons, if_pos (isMisspelled_iff.mpr ⟨m, known, isWrong⟩)]
      exact .cons ⟨known, isWrong, stands.code_eq, stands.fix_eq, Source.replaces_of_replace made⟩
        .nil

theorem properties_flags {label : Text} {ps : List (Node.Property Span)}
    {reports : List (Option Violation)} (h : ps.mapM (checkProperty s label) = .ok reports) :
    List.Forall₂ Flags (ps.filter isMisspelled) (reports.filterMap id) := by
  induction ps generalizing reports with
  | nil =>
      cases h
      exact .nil
  | cons p ps ih =>
      rw [List.mapM_cons] at h
      obtain ⟨report, isOk, h⟩ := bind_eq_ok.mp h
      obtain ⟨others, areOk, h⟩ := bind_eq_ok.mp h
      cases h
      have both : List.Forall₂ Flags ([p].filter isMisspelled ++ ps.filter isMisspelled)
          (report.toList ++ others.filterMap id) :=
        List.rel_append (checkProperty_flags isOk) (ih areOk)
      rw [← List.filter_append] at both
      cases report <;> exact both

/-- All of these violations rename. -/
theorem renames_of_flags {ps : List (Node.Property Span)} {found : List Violation}
    (flags : List.Forall₂ Flags ps found) : ∀ v ∈ found, renames v = true := by
  induction flags with
  | nil => exact List.forall_mem_nil _
  | cons first _ ih => exact List.forall_mem_cons.mpr ⟨first.renames, ih⟩

/-- **What the rule finds at one resource.** -/
theorem checkResource_flags {r : Resource Span} {found : List Violation}
    (h : checkResource s r = .ok found) :
    List.Forall₂ Flags ((settingsOf r).filter isMisspelled) (found.filter renames)
      ∧ found.countP isAboutArray = (listsSettings r).toNat := by
  unfold checkResource at h
  unfold settingsOf listsSettings
  split at h
  · next none =>
      cases h
      rw [none]
      exact ⟨.nil, rfl⟩
  · next cors found =>
      rw [found]
      simp only [Option.bind_some, Option.any_some]
      simp only at h
      unfold Node.objectMembers?
      split at h
      · next elements form =>
          obtain ⟨fix, _, h⟩ := bind_eq_ok.mp h
          obtain ⟨v, made, h⟩ := bind_eq_ok.mp h
          cases h
          have isArray := (Source.standsAt_of_violation made).code_eq
          have counted : isAboutArray v = true := decide_eq_true isArray
          rw [form, List.filter_cons, renames_eq_false isArray, if_neg Bool.false_ne_true,
            List.countP_singleton, counted]
          exact ⟨.nil, rfl⟩
      · next members form =>
          obtain ⟨reports, areOk, h⟩ := bind_eq_ok.mp h
          cases h
          have flags := properties_flags areOk
          have all := renames_of_flags flags
          rw [form, List.filter_eq_self.mpr all, List.countP_eq_zero.mpr]
          · exact ⟨flags, rfl⟩
          · intro v inside isArray
            have renamed := all v inside
            rw [renames_eq_false (of_decide_eq_true isArray)] at renamed
            cases renamed
      · next notArray notObject =>
          cases h
          refine ⟨?_, ?_⟩
          · split
            · next members isObject =>
                split at isObject
                · next form => exact absurd form (notObject _)
                · cases isObject
            · exact .nil
          · split
            · next form => exact absurd form (notArray _)
            · rfl

theorem resources_flags {rs : List (Resource Span)} {reports : List (List Violation)}
    (h : rs.mapM (checkResource s) = .ok reports) :
    List.Forall₂ Flags ((rs.flatMap settingsOf).filter isMisspelled)
        (reports.flatten.filter renames)
      ∧ reports.flatten.countP isAboutArray = rs.countP listsSettings := by
  induction rs generalizing reports with
  | nil =>
      cases h
      exact ⟨.nil, rfl⟩
  | cons r rs ih =>
      rw [List.mapM_cons] at h
      obtain ⟨report, isOk, h⟩ := bind_eq_ok.mp h
      obtain ⟨others, areOk, h⟩ := bind_eq_ok.mp h
      cases h
      obtain ⟨flags, arrays⟩ := checkResource_flags isOk
      obtain ⟨flags', arrays'⟩ := ih areOk
      rw [List.flatMap_cons, List.flatten_cons, List.filter_append, List.filter_append,
        List.countP_append, List.countP_cons, arrays, arrays', Nat.add_comm]
      refine ⟨List.rel_append flags flags', ?_⟩
      cases listsSettings r <;> rfl

/-- **What the rule finds:** each misspelled key once and in order, and the settings that are
arrays. -/
theorem detect_flags {found : List Violation} (h : detect s = .ok found) :
    List.Forall₂ Flags ((settings s.tree).filter isMisspelled) (found.filter renames)
      ∧ found.countP isAboutArray = s.tree.resources.countP listsSettings := by
  obtain ⟨reports, areOk, h⟩ := bind_eq_ok.mp h
  cases h
  exact resources_flags areOk

end CorsConfig

/-! ## §3. Nodes around constructor calls. -/

namespace Node

/-- The node is a constructor call. -/
def isNew (n : Tree) : Bool :=
  match n.form with
  | .newExpression _ _ => true
  | _ => false

/-- The nodes of a tree that are not inside of a constructor call of the tree. -/
def outer (n : Tree) : List Tree :=
  n.rollup fun node below => node :: if node.isNew then [] else below.flatten

theorem outer_eq (n : Tree) :
    n.outer = n :: if n.isNew then [] else n.children.flatMap outer := by
  obtain ⟨info, form⟩ := n
  unfold outer
  rw [rollup_mk]
  rfl

variable {n m : Tree}

theorem outer_of_not_isNew (other : n.isNew = false) :
    n.outer = n :: n.children.flatMap outer := by
  rw [outer_eq, other, if_neg Bool.false_ne_true]

theorem sublist_flatMap_of_mem {α β : Type} {f : α → List β} {as : List α} {a : α} (h : a ∈ as) :
    (f a).Sublist (as.flatMap f) := by
  rw [List.flatMap_def]
  exact List.sublist_flatten_of_mem (List.mem_map_of_mem h)

theorem singleton_sublist_outer (n : Tree) : [n].Sublist n.outer := by
  rw [outer_eq]
  exact (List.nil_sublist _).cons_cons n

/-- Around a part of another node there is no constructor call. -/
theorem outer_sublist_of_mem (other : n.isNew = false) (isPart : m ∈ n.children) :
    m.outer.Sublist n.outer := by
  rw [outer_of_not_isNew other]
  exact (sublist_flatMap_of_mem isPart).cons n

/-- Nor is there one in parentheses or assertions. -/
theorem outer_unwrap_sublist (n : Tree) : n.unwrap.outer.Sublist n.outer := by
  induction n using unwrap.induct with
  | case1 info inner ih =>
      refine ih.trans (outer_sublist_of_mem rfl ?_)
      exact List.mem_cons_self ..
  | case2 info inner assertion ih =>
      refine ih.trans (outer_sublist_of_mem rfl ?_)
      exact List.mem_cons_self ..
  | case3 n notParen notAssertion =>
      rw [unwrap_of_not_wrapper notParen notAssertion]

/-- The keys of an object are different nodes of it. -/
theorem keys_sublist_outer (members : List Tree) :
    ((properties members).map Property.key).Sublist (members.flatMap outer) := by
  induction members with
  | nil => exact List.Sublist.refl _
  | cons member members ih =>
      unfold properties at ih ⊢
      rw [List.filterMap_cons, List.flatMap_cons]
      unfold property?
      split
      · exact ih.trans (List.sublist_append_right _ _)
      · next p isProperty =>
          split at isProperty
          · next key value form =>
              cases isProperty
              have isPart : key ∈ member.children := by
                unfold children
                rw [form]
                exact List.mem_cons_self ..
              have other : member.isNew = false := by
                unfold isNew
                rw [form]
              rw [List.map_cons]
              exact ((singleton_sublist_outer key).trans
                (outer_sublist_of_mem other isPart)).append ih
          · cases isProperty

/-- All members of an object are around. -/
theorem members_sublist_outer {members : List Tree} (form : n.form = .objectLiteral members) :
    (members.flatMap outer).Sublist n.outer := by
  have other : n.isNew = false := by
    unfold isNew
    rw [form]
  rw [outer_of_not_isNew other]
  unfold children
  rw [form]
  exact List.sublist_cons_self _ _

/-- The value of a property that is found is around. -/
theorem value_sublist_outer {name : Text} {p : Property Span} (h : n.findProperty? name = some p) :
    p.value.unwrap.outer.Sublist n.outer := by
  unfold findProperty? at h
  obtain ⟨members, isObject, found⟩ := Option.bind_eq_some_iff.mp h
  obtain ⟨isMember, form⟩ := mem_properties (List.mem_of_find?_eq_some found)
  have isPart : p.value ∈ p.node.children := by
    unfold children
    rw [form]
    exact List.mem_cons_of_mem _ (List.mem_cons_self ..)
  have other : p.node.isNew = false := by
    unfold isNew
    rw [form]
  calc p.value.unwrap.outer.Sublist p.value.outer := outer_unwrap_sublist _
    List.Sublist _ p.node.outer := outer_sublist_of_mem other isPart
    List.Sublist _ (members.flatMap outer) := sublist_flatMap_of_mem isMember
    List.Sublist _ n.unwrap.outer := members_sublist_outer (objectMembers?_eq_some.mp isObject)
    List.Sublist _ n.outer := outer_unwrap_sublist n

end Node

/-! ## §4. Keys of different settings. -/

namespace CorsConfig

variable {n : Tree} {r : Resource Span}

theorem isNew_of_ofNode? (h : Resource.ofNode? n = some r) : n.isNew = true := by
  unfold Resource.ofNode? at h
  unfold Node.isNew
  split at h
  · next form => rw [form]
  · cases h

/-- **The keys of the settings of a resource** stand in no constructor call inside of it. -/
theorem settingsOf_sublist (h : Resource.ofNode? n = some r) :
    ((settingsOf r).map Node.Property.key).Sublist (n.children.flatMap Node.outer) := by
  unfold settingsOf
  split
  · next members isObject =>
      obtain ⟨cors, found, isObject⟩ := Option.bind_eq_some_iff.mp isObject
      obtain ⟨config, isConfig, found⟩ := Option.bind_eq_some_iff.mp found
      refine (Node.keys_sublist_outer members).trans ?_
      refine (Node.members_sublist_outer (Node.objectMembers?_eq_some.mp isObject)).trans ?_
      refine (Node.value_sublist_outer found).trans ?_
      obtain ⟨argument, isPart, rfl⟩ := Resource.exists_argument h isConfig
      exact (Node.outer_unwrap_sublist argument).trans (Node.sublist_flatMap_of_mem isPart)
  · exact List.nil_sublist _

/-- The settings of a tree are those of its root and those of its parts. -/
theorem settings_eq (n : Tree) :
    settings n = (Resource.ofNode? n).toList.flatMap settingsOf ++ n.children.flatMap settings := by
  have below : (n.children.flatMap Node.preorder).filterMap Resource.ofNode?
      = n.children.flatMap Node.resources := by
    rw [List.filterMap_flatMap]
    exact List.flatMap_congr fun c _ => (Resource.resources_eq_filterMap c).symm
  unfold settings
  rw [← List.flatMap_assoc, ← below, ← List.flatMap_append]
  congr 1
  rw [Resource.resources_eq_filterMap, Node.preorder_eq, List.filterMap_cons]
  cases Resource.ofNode? n <;> rfl

/-- The keys of the settings of the root stand around its parts. -/
theorem own_sublist (n : Tree) :
    (((Resource.ofNode? n).toList.flatMap settingsOf).map Node.Property.key
        ++ if n.isNew then [] else n.children.flatMap Node.outer).Sublist
      (n.children.flatMap Node.outer) := by
  cases isResource : Resource.ofNode? n with
  | none =>
      show (if n.isNew then [] else n.children.flatMap Node.outer).Sublist _
      split
      · exact List.nil_sublist _
      · exact List.Sublist.refl _
  | some r =>
      rw [isNew_of_ofNode? isResource, if_pos rfl, List.append_nil, Option.toList_some,
        List.flatMap_singleton]
      exact settingsOf_sublist isResource

theorem subperm_flatMap {α β : Type} {as : List α} {f g : α → List β}
    (each : ∀ a ∈ as, (f a).Subperm (g a)) : (as.flatMap f).Subperm (as.flatMap g) := by
  induction as with
  | nil => exact List.Subperm.refl _
  | cons a as ih =>
      rw [List.flatMap_cons, List.flatMap_cons]
      refine (each a (List.mem_cons_self ..)).append (ih fun b inside => ?_)
      exact each b (List.mem_cons_of_mem _ inside)

/-- The keys of all settings, with the nodes outside of constructor calls, are different nodes. -/
theorem outer_append_keys_subperm (n : Tree) :
    (n.outer ++ (settings n).map Node.Property.key).Subperm n.preorder := by
  -- The keys of the root's own settings are outer nodes of its parts.  So the outer nodes are
  -- carried along: where a part is in a constructor call they make room for these keys.
  induction n using Node.induct with
  | h info form ih =>
      generalize whole : Node.mk info form = n at *
      have parts : n.children = form.children := by
        rw [← whole]
        rfl
      have below : (n.children.flatMap fun c => c.outer ++ (settings c).map Node.Property.key).Subperm
          (n.children.flatMap Node.preorder) := subperm_flatMap (parts ▸ ih)
      have later : (n.children.flatMap settings).map Node.Property.key
          = n.children.flatMap fun c => (settings c).map Node.Property.key := List.map_flatMap
      rw [Node.outer_eq, Node.preorder_eq, settings_eq, List.map_append, List.cons_append,
        List.subperm_cons, later, ← List.append_assoc]
      have own := List.perm_append_comm.subperm.trans (own_sublist n).subperm
      refine (own.append (List.Subperm.refl _)).trans ?_
      exact (List.flatMap_append_perm _ _ _).subperm.trans below

/-- **The keys of all settings are different nodes of the tree.** -/
theorem keys_subperm (tree : Tree) :
    ((settings tree).map Node.Property.key).Subperm tree.preorder :=
  (List.sublist_append_right _ _).subperm.trans (outer_append_keys_subperm tree)

end CorsConfig

/-! ## §5. Nodes with a name. -/

namespace Node

/-- A node with a name has no parts. -/
theorem children_of_keyName? {n : Tree} {name : Text} (named : n.keyName? = some name) :
    n.children = [] := by
  unfold keyName? at named
  unfold children
  split at named
  · next form => rw [form]; rfl
  · next form => rw [form]; rfl
  · next form => rw [form]; rfl
  · cases named

/-- If both nodes have a name, they begin in different places. -/
def NamedApart (m n : Tree) : Prop :=
  ∀ name name', m.keyName? = some name → n.keyName? = some name' → name ≠ [] → name' ≠ [] →
    m.info.start ≠ n.info.start

theorem NamedApart.symm {m n : Tree} (apart : NamedApart m n) : NamedApart n m :=
  fun name name' named named' written written' =>
    (apart name' name named' named written' written).symm

end Node

namespace Placed

variable {L : Layout} {heard : Complaint → Prop} {lo mid mid' hi : Nat} {tree tree' : Tree}

/-- A node with a name begins with a token. -/
theorem exists_named (h : Placed L heard lo hi tree) {name : Text}
    (named : tree.keyName? = some name) (written : name ≠ []) :
    ∃ i, lo ≤ i ∧ i < hi ∧ i < L.size ∧ tree.info.start = L.startAt i := by
  have wide := h.wide (Source.isSolid_of_keyName? named written)
  cases h with
  | @mk _ i j _ _ _ behind before fits _ _ =>
      cases fits with
      | full less inside =>
          exact ⟨i, behind, Nat.lt_of_lt_of_le less before, Nat.lt_of_lt_of_le less inside, rfl⟩
      | error | name | block => exact absurd wide (Nat.lt_irrefl _)
      | inverted => exact absurd wide (Nat.not_lt.mpr (L.stopBefore_le_startAt i))

/-- Nodes that follow one another. -/
theorem namedApart (first : Placed L heard lo mid tree) (le : mid ≤ mid')
    (second : Placed L heard mid' hi tree') : Node.NamedApart tree tree' := by
  intro name name' named named' written written'
  obtain ⟨i, _, upper, inside, start⟩ := first.exists_named named written
  obtain ⟨i', lower, _, _, start'⟩ := second.exists_named named' written'
  rw [start, start']
  exact Nat.ne_of_lt (L.startAt_lt_startAt (by omega) inside)

end Placed

/-- **Trees in a row:** different nodes with a name begin in different places. -/
theorem InOrder.namedApart {L : Layout} {heard : Complaint → Prop} {lo hi : Nat} {trees : List Tree}
    (h : InOrder (Placed L heard) lo hi trees)
    (each : ∀ tree ∈ trees, tree.preorder.Pairwise Node.NamedApart) :
    (trees.flatMap Node.preorder).Pairwise Node.NamedApart := by
  refine List.pairwise_flatMap.mpr ⟨each, h.pairwise Placed.le ?_⟩
  intro a _ b _ lo mid mid' hi first le second m inside n inside'
  obtain ⟨_, _, _, upper, place⟩ := first.of_mem_preorder_within inside
  obtain ⟨_, _, lower, _, place'⟩ := second.of_mem_preorder_within inside'
  exact place.namedApart (Nat.le_trans upper (Nat.le_trans le lower)) place'

theorem Placed.pairwise_namedApart {L : Layout} {heard : Complaint → Prop} {lo hi : Nat} {tree : Tree}
    (h : Placed L heard lo hi tree) : tree.preorder.Pairwise Node.NamedApart := by
  induction tree using Node.induct generalizing lo hi with
  | h span form ih =>
      rw [Node.preorder_mk]
      refine .cons ?_ ?_
      · intro n below name name' named
        have none := Node.children_of_keyName? named
        rw [show form.children = [] from none] at below
        exact absurd below List.not_mem_nil
      · cases h with
        | mk _ _ _ parts _ =>
            have each : ∀ part ∈ form.written, part.preorder.Pairwise Node.NamedApart := by
              intro part isPart
              obtain ⟨_, _, _, _, place⟩ := parts.of_mem_within Placed.le isPart
              exact ih part ((form.mem_written part).mp isPart) place
            have same := form.written_perm.flatMap_right Node.preorder
            exact (same.pairwise_iff Node.NamedApart.symm).mp (parts.namedApart each)

/-- **In a parsed text different nodes with a name begin in different places.** -/
theorem Source.pairwise_namedApart {path : Path} {text : Text} {s : Source}
    (read : ofText path text = .ok s) : s.tree.preorder.Pairwise Node.NamedApart := by
  obtain ⟨program, parsed, isSource⟩ := bind_eq_ok.mp read
  obtain ⟨L, _, isProgram⟩ := exists_layout_of_parse parsed
  obtain ⟨statements, isTree, places⟩ := parseTokens_placed L
  cases isSource
  show program.tree.preorder.Pairwise _
  rw [isProgram, isTree, Node.preorder_mk]
  refine .cons (fun _ _ _ _ named => nomatch named) (places.namedApart fun statement isStatement => ?_)
  obtain ⟨_, _, _, _, place⟩ := places.of_mem_within Placed.le isStatement
  exact place.pairwise_namedApart

namespace CorsConfig

/-- **Different misspelled keys stand in different places.** -/
theorem misspelled_apart {path : Path} {text : Text} {s : Source}
    (read : Source.ofText path text = .ok s) :
    ((settings s.tree).filter isMisspelled).Pairwise fun p q =>
      p.key.info.start ≠ q.key.info.start := by
  obtain ⟨keys, same, listed⟩ := keys_subperm s.tree
  have apart := (Source.pairwise_namedApart read).sublist listed
  rw [same.pairwise_iff Node.NamedApart.symm, List.pairwise_map] at apart
  refine (apart.filter _).imp_of_mem fun {p q} inside inside' apart => ?_
  obtain ⟨m, known, named⟩ := isMisspelled_iff.mp (List.mem_filter.mp inside).2
  obtain ⟨m', known', named'⟩ := isMisspelled_iff.mp (List.mem_filter.mp inside').2
  exact apart _ _ named named' (wrong_ne_nil known) (wrong_ne_nil known')

end CorsConfig

end StackLint
