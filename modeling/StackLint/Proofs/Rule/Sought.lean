/-
  StackLint.Proofs.Rule.Sought
  ────────────────────────────
  **WHAT RULES LOOK FOR IN A TREE.**

  A check reads names and forms of nodes, their spans, and pieces of the text.  On
  alike trees over one text it finds the same, but for one thing: where a rule looks
  for a member of an object, only the second tree may have it spelled out.
  `Sought` lists the members that rules look for.
-/
import StackLint.Proofs.Tree.Around
import StackLint.Rule.Registry

namespace StackLint

open Node (Alike Around VisitAlike Finds)

/-! ## §1. Members that are sought. -/

/-- The values that may describe a domain: both branches of a conditional, else
the value itself. -/
def DomainConfig.domains (value : Tree) : List Tree :=
  match value.form with
  | .conditional _ consequent alternate => [consequent.unwrap, alternate.unwrap]
  | _ => [value]

/-- The runtime keeps the name for itself. -/
def EnvVariable.IsReserved (name : Text) : Prop :=
  reservedNames.contains name = true ∨ name.head? = some (.scalar '_')
    ∨ runtimeStart.isPrefixOf name = true

/-- **The rule looks for the member `k` of the object.** -/
inductive Sought (t : Tree) (k : Text) : Rule → Tree → Prop
  /-- The name and the DNS provider of a domain. -/
  | domain {r : Resource Span} {p : Node.Property Span} {d : Tree}
      (isResource : r ∈ t.resourcesOf DomainConfig.resourceTypes)
      (found : r.findProperty? "domain" = some p)
      (isDomain : d ∈ DomainConfig.domains p.value.unwrap)
      (member : k = "name" ∨ k = "dns") : Sought t k .domainConfig d.unwrap
  /-- The permission of a DNS provider to override records. -/
  | provider {r : Resource Span} {p q : Node.Property Span} {d a : Tree} {others : List Tree}
      (isResource : r ∈ t.resourcesOf DomainConfig.resourceTypes)
      (found : r.findProperty? "domain" = some p)
      (isDomain : d ∈ DomainConfig.domains p.value.unwrap)
      (provided : d.findProperty? "dns" = some q)
      (isCall : DomainConfig.callArguments? q.value.unwrap = some (a :: others))
      (member : k = "override") : Sought t k .domainConfig a.unwrap
  /-- A misspelled CORS setting. -/
  | setting {r : Resource Span} {p : Node.Property Span} (isResource : r ∈ t.resources)
      (found : r.findProperty? "cors" = some p)
      (member : ∃ m ∈ CorsConfig.misspellings, k = m.wrong) : Sought t k .corsConfig p.value.unwrap
  /-- A reserved environment variable. -/
  | reserved {r : Resource Span} {p : Node.Property Span}
      (isResource : r ∈ t.resourcesOf ["Function"])
      (found : r.findProperty? "environment" = some p)
      (member : EnvVariable.IsReserved k) : Sought t k .envVariable p.value.unwrap
  /-- The links of a resource that is bound to a variable. -/
  | link {n target value config : Tree} {r : Resource Span} (inside : n ∈ t.preorder)
      (form : n.form = .variableDeclarator target (some value))
      (isResource : Resource.ofNode? value.unwrap = some r) (isConfig : r.config = some config)
      (member : k = "link") : Sought t k .resourceDependency config.unwrap
  /-- Any field of a table. -/
  | field {r : Resource Span} {p : Node.Property Span} (isResource : r ∈ t.resourcesOf ["Dynamo"])
      (found : r.findProperty? "fields" = some p) : Sought t k .dynamoIndexing p.value.unwrap

/-! ## §2. Checks on the same spans. -/

/-- The sources are the same but for their trees. -/
structure Source.SameText (s s' : Source) : Prop where
  path : s'.path = s.path
  text : s'.text = s.text

namespace Source.SameText

variable {s s' : Source} {n n' : Tree}

theorem lineStarts (texts : SameText s s') : s'.lineStarts = s.lineStarts := by
  rw [s'.lineStarts_eq, s.lineStarts_eq, texts.text]

theorem position (texts : SameText s s') (offset : Int) : s'.position offset = s.position offset := by
  unfold Source.position Source.clamp
  rw [texts.lineStarts, texts.text]

theorem lineIndent (texts : SameText s s') (offset : Int) :
    s'.lineIndent offset = s.lineIndent offset := by
  unfold Source.lineIndent Source.clamp
  rw [texts.lineStarts, texts.text]

theorem charAt (texts : SameText s s') (offset : Nat) : s'.charAt offset = s.charAt offset := by
  unfold Source.charAt
  rw [texts.text]

theorem fix (texts : SameText s s') {start stop : Nat} {newCode : Text} {confidence : Confidence}
    {description : Text} :
    s'.fix start stop newCode confidence description
      = s.fix start stop newCode confidence description := by
  unfold Source.fix
  rw [texts.text]

theorem textOf (texts : SameText s s') (same : n'.info = n.info) : s'.textOf n' = s.textOf n := by
  unfold Source.textOf
  rw [same, texts.text]

theorem lineOf (texts : SameText s s') (same : n'.info = n.info) : s'.lineOf n' = s.lineOf n := by
  unfold Source.lineOf
  rw [same, texts.position]

theorem replace (texts : SameText s s') (same : n'.info = n.info) {newCode : Text}
    {confidence : Confidence} {description : Text} :
    s'.replace n' newCode confidence description = s.replace n newCode confidence description := by
  unfold Source.replace
  rw [same, texts.fix]

theorem violation (texts : SameText s s') (same : n'.info = n.info)
    {code resource property message : Text} {severity : Severity} {fix : Option Fix} :
    s'.violation code n' resource property message severity fix
      = s.violation code n resource property message severity fix := by
  unfold Source.violation
  rw [same, texts.position]

end Source.SameText

section
variable {n n' : Tree}

theorem mapM_congr_forall₂ {α α' β : Type} {R : α → α' → Prop} {as : List α} {as' : List α'}
    {f : α → Check β} {f' : α' → Check β} (same : List.Forall₂ R as as')
    (each : ∀ a ∈ as, ∀ a', R a a' → f' a' = f a) : as'.mapM f' = as.mapM f := by
  induction same with
  | nil => rfl
  | @cons a a' as as' related _ ih =>
      rw [List.mapM_cons, List.mapM_cons, each a (List.mem_cons_self ..) a' related,
        ih fun b inside => each b (List.mem_cons_of_mem _ inside)]

/-- What is checked in vain can be left out. -/
theorem mapM_filter {α : Type} {f : α → Check (Option Violation)} {p : α → Bool}
    (silent : ∀ a, p a = false → f a = pure none) (as : List α) :
    (do return (← (as.filter p).mapM f).filterMap id)
      = (do return (← as.mapM f).filterMap id : Check (List Violation)) := by
  induction as with
  | nil => rfl
  | cons a as ih =>
      rw [List.filter_cons]
      cases kept : p a with
      | true =>
          simp only [if_true, List.mapM_cons, bind_assoc, pure_bind] at ih ⊢
          refine bind_congr fun report => ?_
          cases report with
          | none => exact ih
          | some v =>
              have later := congrArg (fun c => (v :: ·) <$> c) ih
              simp only [map_bind, map_pure] at later
              exact later
      | false =>
          rw [List.mapM_cons, silent a kept, pure_bind]
          simp only [Bool.false_eq_true, if_false, bind_assoc, pure_bind]
          exact ih

/-- A rule that checks all nodes. -/
theorem checkVisits_alike {k : Text} {E : Tree → Prop} {t t' : Tree}
    (same : Alike k E false t t') (check : Source → Visit Span → Check (Option Violation))
    (silent : ∀ s visit, visit.node.isQuiet = true → check s visit = pure none) {s s' : Source}
    (each : ∀ visit visit', VisitAlike k E visit visit' → check s' visit' = check s visit) :
    (do return (← t'.visits.mapM (check s')).filterMap id)
      = (do return (← t.visits.mapM (check s)).filterMap id : Check (List Violation)) := by
  have loud (s : Source) (t : Tree) :
      (do return (← (t.loudWithin []).mapM (check s)).filterMap id)
        = (do return (← t.visits.mapM (check s)).filterMap id : Check (List Violation)) := by
    refine mapM_filter (fun visit isQuiet => silent s visit ?_) t.visits
    simpa only [Bool.not_eq_false'] using isQuiet
  rw [← loud, ← loud, mapM_congr_forall₂ same.visits fun visit _ visit' same => each _ _ same]

/-- A check of all properties of an object, which has nothing to say about one
that is spelled out. -/
theorem checkProperties_alike {k : Text} {E : Tree → Prop} (same : Alike k E false n n')
    {members members' : List Tree} (isObject : n.objectMembers? = some members)
    (isObject' : n'.objectMembers? = some members')
    {check check' : Node.Property Span → Check (Option Violation)}
    (each : ∀ p p', p.Alike k E p' → check' p' = check p)
    (silent : E n → ∀ p, p.key.keyName? = some k → check' p = pure none) :
    (do return (← (Node.properties members').mapM check').filterMap id)
      = (do return (← (Node.properties members).mapM check).filterMap id
          : Check (List Violation)) := by
  rcases same.objectMembers? with same | ⟨may, expands⟩
  · rw [isObject, isObject'] at same
    cases same with
    | some same => rw [mapM_congr_forall₂ (Alike.properties same) fun p _ p' same => each p p' same]
  · obtain ⟨_, _, before, after, p, isObject₁, isObject₁', spelled⟩ := expands.spelledOut
    cases isObject.symm.trans isObject₁
    cases isObject'.symm.trans isObject₁'
    have same : check' = check := funext fun p => each p p (.refl p)
    rw [spelled.properties, spelled.properties']
    simp only [List.mapM_append, List.mapM_cons, silent may p spelled.key, bind_assoc, pure_bind,
      List.filterMap_append]
    rw [same]
    rfl

end

end StackLint
