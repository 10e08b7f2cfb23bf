/-
  StackLint.Proofs.Tree.Alike
  ───────────────────────────
  **TREES THAT SAY THE SAME.**

  A tree can say the same in other words: a value may stand in parentheses or
  under a type assertion, and a shorthand member `k` of an object may be spelled
  out as `k: k`.  `Node.Alike` is the congruence of such changes, any number of
  them at once.  What can be read off an expression survives them, but for one
  thing: an object has a property `k` only where its member is spelled out.
-/
import Mathlib.Data.List.Forall2
import StackLint.Match.Function
import StackLint.Match.Resource
import StackLint.Parse.State
import StackLint.Proofs.Tree.Preorder

namespace StackLint

/-! ## §1. Parts. -/

namespace Form

variable {α : Type}

/-- The parts in the place of a value: of a property, of a variable, of an
argument, of an element. -/
def valueParts : Form α → List α
  | .propertyAssignment _ v => [v]
  | .variableDeclarator _ i => i.toList
  | .call _ as _ => as
  | .newExpression _ as => as.getD []
  | .arrayLiteral es => es.filterMap id
  | _ => []

/-- The other parts. -/
def otherParts : Form α → List α
  | .propertyAssignment k _ => [k]
  | .variableDeclarator t _ => [t]
  | .call c _ _ => [c]
  | .newExpression c _ => [c]
  | .arrayLiteral _ => []
  | form => form.children

theorem otherParts_append_valueParts (form : Form α) :
    form.otherParts ++ form.valueParts = form.children := by
  cases form <;> simp [otherParts, valueParts, children]

/-- Every part paired with itself. -/
theorem map_diagonal {form : Form α} {f : α × α → α} (h : ∀ c, f (c, c) = c) :
    (form.map fun c => (c, c)).map f = form := by
  rw [map_map]
  exact (map_congr fun c _ => h c).trans form.map_id

end Form

namespace Node

/-! ## §2. Changes. -/

/-- **The second tree is the first one with `o` replaced by `o'`** in some
places, none at all included. -/
inductive Replaces {σ : Type} (o o' : Node σ) : Node σ → Node σ → Prop
  | here : Replaces o o' o o'
  | inside (info : σ) (parts : Form (Node σ × Node σ))
      (each : ∀ p ∈ parts.children, Replaces o o' p.1 p.2) :
      Replaces o o' (.mk info (parts.map Prod.fst)) (.mk info (parts.map Prod.snd))

theorem Replaces.refl {σ : Type} {o o' : Node σ} (n : Node σ) : Replaces o o' n n := by
  induction n using induct with
  | h info form ih =>
      have step : Replaces o o' _ _ := .inside info (form.map fun c => (c, c)) fun p inside => by
        rw [Form.children_map] at inside
        obtain ⟨c, isChild, rfl⟩ := List.mem_map.mp inside
        exact ih c isChild
      rwa [Form.map_diagonal fun _ => rfl, Form.map_diagonal fun _ => rfl] at step

/-- What is replaced in a node is replaced in every node around it.  The form of
the node around has a hole in its place. -/
theorem Replaces.around {σ : Type} {o o' n n' : Node σ} (info : σ) (form : Form (Option (Node σ)))
    (replaced : Replaces o o' n n') :
    Replaces o o' (.mk info (form.map (·.getD n))) (.mk info (form.map (·.getD n'))) := by
  have step : Replaces o o' _ _ :=
    .inside info (form.map fun c => (c.getD n, c.getD n')) fun p inside => by
      rw [Form.children_map] at inside
      obtain ⟨c, _, rfl⟩ := List.mem_map.mp inside
      cases c with
      | none => exact replaced
      | some m => exact .refl m
  rwa [Form.map_map, Form.map_map] at step

/-- The second expression is the first one in parentheses or under a type
assertion, with the same span. -/
inductive Wraps : Tree → Tree → Prop
  | parentheses (e : Tree) : Wraps e (.mk e.info (.parenthesized e))
  | assertion (e : Tree) (a : Assertion) : Wraps e (.mk e.info (.typeAssertion e a))

/-- A member of an object that is a name for short. -/
def shorthand (info nameInfo : Span) (k : Text) : Tree :=
  .mk info (.shorthandProperty (.mk nameInfo (.identifier k)) none)

/-- The same member in full. -/
def spelledOut (info nameInfo : Span) (k : Text) : Tree :=
  .mk info (.propertyAssignment (.mk nameInfo (.identifier k)) (.mk nameInfo (.identifier k)))

/-- **The second object is the first one with a shorthand member `k` spelled
out.**  No other property of the object has this name. -/
inductive Expands (k : Text) : Tree → Tree → Prop
  | member (info memberInfo nameInfo : Span) (before after : List Tree)
      (fresh : ∀ p ∈ properties (before ++ after), p.key.keyName? ≠ some k) :
      Expands k (.mk info (.objectLiteral (before ++ shorthand memberInfo nameInfo k :: after)))
        (.mk info (.objectLiteral (before ++ spelledOut memberInfo nameInfo k :: after)))

/-- **The second tree says the same as the first one.**  Values may be wrapped,
and the objects in `E` may have a shorthand member `k` spelled out; the tree is
a value itself if `isValue` holds. -/
inductive Alike (k : Text) (E : Tree → Prop) : (isValue : Bool) → Tree → Tree → Prop
  | node {isValue : Bool} (info : Span) (parts : Form (Tree × Tree))
      (others : ∀ p ∈ parts.otherParts, Alike k E false p.1 p.2)
      (values : ∀ p ∈ parts.valueParts, Alike k E true p.1 p.2) :
      Alike k E isValue (.mk info (parts.map Prod.fst)) (.mk info (parts.map Prod.snd))
  | expanded {isValue : Bool} {o o' : Tree} (may : E o) (expands : Expands k o o') :
      Alike k E isValue o o'
  | wrapped {n n' w : Tree} (inner : Alike k E true n n') (wraps : Wraps n' w) :
      Alike k E true n w

variable {k : Text} {E : Tree → Prop}

namespace Alike

variable {isValue : Bool} {n n' : Tree}

theorem toValue (same : Alike k E false n n') : Alike k E isValue n n' := by
  cases same with
  | node info parts others values => exact .node info parts others values
  | expanded may expands => exact .expanded may expands

theorem refl (n : Tree) : Alike k E isValue n n := by
  induction n using induct generalizing isValue with
  | h info form ih =>
      have each : ∀ p ∈ (form.map fun c => (c, c)).children,
          ∀ isValue, Alike k E isValue p.1 p.2 := by
        intro p inside isValue
        rw [Form.children_map] at inside
        obtain ⟨c, isChild, rfl⟩ := List.mem_map.mp inside
        exact ih c isChild
      rw [← Form.otherParts_append_valueParts] at each
      have step : Alike k E isValue _ _ := .node info (form.map fun c => (c, c))
        (fun p inside => each p (List.mem_append_left _ inside) false)
        fun p inside => each p (List.mem_append_right _ inside) true
      rwa [Form.map_diagonal fun _ => rfl, Form.map_diagonal fun _ => rfl] at step

theorem info (same : Alike k E isValue n n') : n'.info = n.info := by
  induction same with
  | node => rfl
  | expanded may expands =>
      cases expands
      rfl
  | wrapped inner wraps ih =>
      rw [← ih]
      cases wraps <;> rfl

/-- Wrappers come off. -/
theorem unwrap (same : Alike k E isValue n n') : Alike k E false n.unwrap n'.unwrap := by
  induction same with
  | node info parts others values ih _ =>
      cases parts with
      | parenthesized p => exact ih p (List.mem_cons_self ..)
      | typeAssertion p a => exact ih p (List.mem_cons_self ..)
      | _ => exact .node info _ others values
  | expanded may expands =>
      have object := expands
      cases object
      exact .expanded may expands
  | wrapped inner wraps ih => cases wraps <;> exact ih

/-! ## §3. Expressions. -/

theorem isWrapper (same : Alike k E false n n') : n'.isWrapper = n.isWrapper := by
  cases same with
  | node info parts others values => cases parts <;> rfl
  | expanded may expands =>
      cases expands
      rfl

theorem identifierName? (same : Alike k E false n n') :
    n'.identifierName? = n.identifierName? := by
  cases same with
  | node info parts others values => cases parts <;> rfl
  | expanded may expands =>
      cases expands
      rfl

theorem keyName? (same : Alike k E false n n') : n'.keyName? = n.keyName? := by
  cases same with
  | node info parts others values => cases parts <;> rfl
  | expanded may expands =>
      cases expands
      rfl

theorem isObject (same : Alike k E false n n') : n'.isObject = n.isObject := by
  cases same with
  | node info parts others values => cases parts <;> rfl
  | expanded may expands =>
      cases expands
      rfl

theorem staticString? (same : Alike k E isValue n n') : n'.staticString? = n.staticString? := by
  have bare := same.unwrap
  unfold Node.staticString?
  generalize n.unwrap = m at bare ⊢
  generalize n'.unwrap = m' at bare ⊢
  cases bare with
  | node info parts others values =>
      cases parts with
      | templateLiteral head spans => cases spans <;> rfl
      | _ => rfl
  | expanded may expands =>
      cases expands
      rfl

/-- A chain of plain names has no place for a wrapper. -/
theorem memberPathReversed? (same : Alike k E isValue n n') (plain : isValue = false) :
    n'.memberPathReversed? = n.memberPathReversed? := by
  induction same with
  | node info parts others values ih _ =>
      cases parts with
      | propertyAccess object name optional =>
          have first : object.2.memberPathReversed? = object.1.memberPathReversed? :=
            ih object (List.mem_cons_self ..) rfl
          have last : Alike k E false name.1 name.2 :=
            others name (List.mem_cons_of_mem _ (List.mem_cons_self ..))
          show (do
            let last ← name.2.identifierName?
            let others ← object.2.memberPathReversed?
            return last :: others) = _
          rw [first, last.identifierName?]
          rfl
      | _ => rfl
  | expanded may expands =>
      cases expands
      rfl
  | wrapped => cases plain

theorem memberPath? (same : Alike k E false n n') : n'.memberPath? = n.memberPath? := by
  unfold Node.memberPath?
  rw [same.memberPathReversed? rfl]

/-- The name at the base of a chain of property accesses. -/
theorem rootIdentifier? (same : Alike k E isValue n n') :
    n'.rootIdentifier?.bind Node.identifierName? = n.rootIdentifier?.bind Node.identifierName? := by
  induction same with
  | node info parts others values ih _ =>
      cases parts with
      | parenthesized p => exact ih p (List.mem_cons_self ..)
      | typeAssertion p a => exact ih p (List.mem_cons_self ..)
      | propertyAccess object name optional => exact ih object (List.mem_cons_self ..)
      | _ => rfl
  | expanded may expands =>
      cases expands
      rfl
  | wrapped inner wraps ih => cases wraps <;> exact ih

end Alike

/-- Where a node is replaced by one that says the same, the tree says the same. -/
theorem Replaces.alike {o o' t t' : Tree} (same : Alike k E false o o')
    (replaced : Replaces o o' t t') : Alike k E false t t' := by
  induction replaced with
  | here => exact same
  | inside info parts each ih =>
      rw [← Form.otherParts_append_valueParts] at ih
      exact .node info parts (fun p isOther => ih p (List.mem_append_left _ isOther))
        fun p isValue => (ih p (List.mem_append_right _ isValue)).toValue

/-! ## §4. Properties. -/

/-- The two properties have the same key, and their values say the same. -/
structure Property.Alike (k : Text) (E : Tree → Prop) (p p' : Property Span) : Prop where
  span : p'.node.info = p.node.info
  key : Node.Alike k E false p.key p'.key
  value : Node.Alike k E true p.value p'.value

theorem Property.Alike.refl {k : Text} {E : Tree → Prop} (p : Property Span) : p.Alike k E p :=
  ⟨rfl, .refl _, .refl _⟩

/-- **What a search for a name finds in two objects**: the same in both of them, or
the member that only the second one, if it may be, has spelled out. -/
inductive Finds (k : Text) (E : Tree → Prop) (name : Text) (may : Prop) :
    Option (Property Span) → Option (Property Span) → Prop
  | neither : Finds k E name may none none
  | both {p p' : Property Span} (same : p.Alike k E p') : Finds k E name may (some p) (some p')
  | own {p : Property Span} (does : may) (isName : name = k) (value : p.value.form = .identifier k) :
      Finds k E name may none (some p)

theorem Finds.imp {k : Text} {E : Tree → Prop} {name : Text} {may may' : Prop}
    {found found' : Option (Property Span)} (finds : Finds k E name may found found')
    (h : may → may') : Finds k E name may' found found' := by
  cases finds with
  | neither => exact .neither
  | both same => exact .both same
  | own does isName value => exact .own (h does) isName value

theorem forall₂_map_fst_snd {α : Type} {R : α → α → Prop} {parts : List (α × α)}
    (each : ∀ p ∈ parts, R p.1 p.2) :
    List.Forall₂ R (parts.map Prod.fst) (parts.map Prod.snd) := by
  rw [List.forall₂_map_left_iff, List.forall₂_map_right_iff]
  exact List.forall₂_same.mpr each

/-- What an object has besides its member that is spelled out. -/
structure SpelledOut (k : Text) (members members' : List Tree) (before after : List (Property Span))
    (p : Property Span) : Prop where
  properties : properties members = before ++ after
  properties' : Node.properties members' = before ++ p :: after
  key : p.key.keyName? = some k
  value : p.value.form = .identifier k
  fresh : ∀ q ∈ before ++ after, q.key.keyName? ≠ some k

theorem Expands.spelledOut {k : Text} {o o' : Tree} (expands : Expands k o o') :
    ∃ members members' before after p, o.objectMembers? = some members
      ∧ o'.objectMembers? = some members' ∧ SpelledOut k members members' before after p := by
  cases expands with
  | member info memberInfo nameInfo before after fresh =>
      refine ⟨_, _, properties before, properties after,
        ⟨Node.spelledOut memberInfo nameInfo k, .mk nameInfo (.identifier k),
          .mk nameInfo (.identifier k)⟩, rfl, rfl, ?_, ?_, rfl, rfl, ?_⟩
      · unfold properties
        rw [List.filterMap_append, List.filterMap_cons_none rfl]
      · unfold properties
        rw [List.filterMap_append]
        rfl
      · unfold properties at fresh ⊢
        rwa [List.filterMap_append] at fresh

/-- The first property with a name. -/
theorem SpelledOut.find? {k name : Text} {E : Tree → Prop} {members members' : List Tree}
    {before after : List (Property Span)} {p : Property Span}
    (spelled : SpelledOut k members members' before after p) :
    Finds k E name True ((Node.properties members).find? fun q => q.key.keyName? = some name)
      ((Node.properties members').find? fun q => q.key.keyName? = some name) := by
  rw [spelled.properties, spelled.properties', List.find?_append, List.find?_append]
  by_cases isName : name = k
  · subst isName
    have missing : ∀ qs ⊆ before ++ after,
        qs.find? (fun q => q.key.keyName? = some name) = none := by
      intro qs inside
      rw [List.find?_eq_none]
      intro q isOther
      rw [decide_eq_true_eq]
      exact spelled.fresh q (inside isOther)
    rw [missing before (List.subset_append_left ..), missing after (List.subset_append_right ..),
      List.find?_cons_of_pos (by simp [spelled.key])]
    exact .own trivial rfl spelled.value
  · have skipped : (p :: after).find? (fun q => q.key.keyName? = some name)
        = after.find? fun q => q.key.keyName? = some name := by
      refine List.find?_cons_of_neg ?_
      rw [decide_eq_true_eq, spelled.key, Option.some.injEq]
      exact fun same => isName same.symm
    rw [skipped]
    cases (before.find? _).or (after.find? _) with
    | none => exact .neither
    | some q => exact .both (.refl q)

namespace Alike

variable {k : Text} {E : Tree → Prop} {isValue : Bool} {n n' : Tree}

theorem property? (same : Alike k E false n n') :
    Option.Rel (Property.Alike k E) n.property? n'.property? := by
  cases same with
  | node info parts others values =>
      cases parts with
      | propertyAssignment key value =>
          exact .some ⟨rfl, others key (List.mem_cons_self ..), values value (List.mem_cons_self ..)⟩
      | _ => exact .none
  | expanded may expands =>
      cases expands
      exact .none

theorem properties {members members' : List Tree}
    (same : List.Forall₂ (Alike k E false) members members') :
    List.Forall₂ (Property.Alike k E) (Node.properties members) (Node.properties members') :=
  List.rel_filterMap (fun _ _ same => same.property?) same

/-- The members of an object. -/
theorem objectMembers? (same : Alike k E false n n') :
    Option.Rel (List.Forall₂ (Alike k E false)) n.objectMembers? n'.objectMembers?
      ∨ (E n ∧ Expands k n n') := by
  cases same with
  | node info parts others values =>
      left
      cases parts with
      | objectLiteral members => exact .some (forall₂_map_fst_snd others)
      | _ => exact .none
  | expanded may expands => exact .inr ⟨may, expands⟩

/-- The members stand where they stood. -/
theorem objectMembers?_info (same : Alike k E false n n') :
    n'.objectMembers?.map (List.map Node.info) = n.objectMembers?.map (List.map Node.info) := by
  rcases same.objectMembers? with same | ⟨_, expands⟩
  · generalize n.objectMembers? = members at same ⊢
    generalize n'.objectMembers? = members' at same ⊢
    cases same with
    | none => rfl
    | some same =>
        refine congrArg some ?_
        induction same with
        | nil => rfl
        | cons first _ ih => rw [List.map_cons, List.map_cons, first.info, ih]
  · cases expands
    show some (List.map _ (_ ++ _ :: _)) = some (List.map _ (_ ++ _ :: _))
    rw [List.map_append, List.map_append]
    rfl

/-- The first property with a name among alike ones. -/
theorem find? {name : Text} {may : Prop} {ps ps' : List (Property Span)}
    (same : List.Forall₂ (Property.Alike k E) ps ps') :
    Finds k E name may (ps.find? fun p => p.key.keyName? = some name)
      (ps'.find? fun p => p.key.keyName? = some name) := by
  induction same with
  | nil => exact .neither
  | @cons p p' ps ps' first _ ih =>
      rw [List.find?_cons, List.find?_cons, first.key.keyName?]
      cases decide (p.key.keyName? = some name) with
      | true => exact .both first
      | false => exact ih

/-- **A search in an object.** -/
theorem findProperty? (same : Alike k E isValue n n') (name : Text) :
    Finds k E name (E n.unwrap) (n.findProperty? name) (n'.findProperty? name) := by
  have bare := same.unwrap
  unfold Node.findProperty?
  rcases bare.objectMembers? with same | ⟨may, expands⟩
  · generalize n.unwrap.objectMembers? = members at same ⊢
    generalize n'.unwrap.objectMembers? = members' at same ⊢
    cases same with
    | none => exact .neither
    | some same => exact find? (properties same)
  · obtain ⟨members, members', before, after, p, isObject, isObject', spelled⟩ :=
      expands.spelledOut
    rw [isObject, isObject']
    exact spelled.find?.imp fun _ => may

end Alike

end Node

/-! ## §5. Resources. -/

namespace Resource

/-- The two resources are the same, and their configurations say the same. -/
structure Alike (k : Text) (E : Tree → Prop) (r r' : Resource Span) : Prop where
  space : r'.space = r.space
  provider : r'.provider = r.provider
  typeName : r'.typeName = r.typeName
  name : r'.name = r.name
  config : Option.Rel (Node.Alike k E false) r.config r'.config

variable {k : Text} {E : Tree → Prop}

theorem Alike.label {r r' : Resource Span} (same : r.Alike k E r') : r'.label = r.label := by
  unfold Resource.label
  rw [same.typeName, same.name]

theorem Alike.findProperty? {r r' : Resource Span} (same : r.Alike k E r') (name : Text) :
    Node.Finds k E name (∃ config, r.config = some config ∧ E config.unwrap)
      (r.findProperty? name) (r'.findProperty? name) := by
  have config := same.config
  unfold Resource.findProperty?
  generalize r.config = c at config ⊢
  generalize r'.config = c' at config ⊢
  cases config with
  | none => exact .neither
  | some same => exact (same.findProperty? name).imp fun may => ⟨_, rfl, may⟩

theorem nameOf_alike {arguments : List (Tree × Tree)}
    (same : ∀ p ∈ arguments, Node.Alike k E true p.1 p.2) :
    nameOf (arguments.map Prod.snd) = nameOf (arguments.map Prod.fst) := by
  unfold nameOf
  cases arguments with
  | nil => rfl
  | cons first rest =>
      have text := (same first (List.mem_cons_self ..)).staticString?
      simp only [List.map_cons, List.head?_cons, Option.bind_some, text]

theorem config_alike {arguments : List (Tree × Tree)}
    (same : ∀ p ∈ arguments, Node.Alike k E true p.1 p.2) :
    Option.Rel (Node.Alike k E false)
      (((arguments.map Prod.fst)[1]?.map Node.unwrap).filter Node.isObject)
      (((arguments.map Prod.snd)[1]?.map Node.unwrap).filter Node.isObject) := by
  rw [List.getElem?_map, List.getElem?_map]
  cases given : arguments[1]? with
  | none => exact .none
  | some p =>
      have bare := (same p (List.mem_of_getElem? given)).unwrap
      show Option.Rel _ (Option.filter _ (some p.1.unwrap)) (Option.filter _ (some p.2.unwrap))
      rw [Option.filter_some, Option.filter_some, bare.isObject]
      split
      · exact .some bare
      · exact .none

/-- **Alike constructor calls make the same resource.** -/
theorem ofNode?_alike {n n' : Tree} (same : Node.Alike k E false n n') :
    Option.Rel (Alike k E) (ofNode? n) (ofNode? n') := by
  cases same with
  | node info parts others values =>
      cases parts with
      | newExpression callee arguments =>
          have path := (others callee (List.mem_cons_self ..)).memberPath?
          have given {f : Tree × Tree → Tree} :
              (arguments.map (List.map f)).getD [] = (arguments.getD []).map f := by
            cases arguments <;> rfl
          unfold ofNode?
          simp only [Node.form, Form.map, path, given]
          cases callee.1.memberPath? with
          | none => exact .none
          | some names =>
              rcases names with _ | ⟨space, _ | ⟨provider, _ | ⟨typeName, _ | ⟨_, _⟩⟩⟩⟩
              · exact .none
              · exact .none
              · exact .none
              · dsimp only
                split
                · exact .some ⟨rfl, rfl, rfl, nameOf_alike values, config_alike values⟩
                · exact .none
              · exact .none
      | _ => exact .none
  | expanded may expands =>
      cases expands
      exact .none

end Resource

end StackLint
