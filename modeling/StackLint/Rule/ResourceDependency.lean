/-
  StackLint.Rule.ResourceDependency
  ─────────────────────────────────
  **LINKS BETWEEN RESOURCES.**

  Resources that are bound to variables refer to each other by their `link`
  property.  Reported are pairs that link each other, and links to a resource
  that is declared on a later line.
-/
import StackLint.Match.Resource
import StackLint.Rule.Basic

namespace StackLint

namespace ResourceDependency

/-! ## §1. Bindings. -/

/-- A resource that is bound to a variable. -/
structure Binding where
  name : Text
  line : Nat
  node : Tree
  /-- The names that the resource links, without its own and without
  repetitions. -/
  links : List Text

/-- The names at the base of the linked values, in order. -/
def linkedNames (value : Tree) : List Text :=
  let candidates : List (Option Tree) :=
    match value.form with
    | .arrayLiteral elements => elements
    | _ => [some value]
  candidates.filterMap fun element =>
    (element.bind Node.rootIdentifier?).bind Node.identifierName?

/-- The names that the resource bound to `name` links. -/
def links (name : Text) (r : Resource Span) : List Text :=
  match r.findProperty? "link" with
  | none => []
  | some link => ((linkedNames link.value.unwrap).filter (· ≠ name)).eraseDups

/-- The binding that a node makes. -/
def binding? (s : Source) (node : Tree) : Option Binding :=
  match node.form with
  | .variableDeclarator target (some value) => do
      let name ← target.identifierName?
      let resource ← Resource.ofNode? value.unwrap
      return { name, node, line := s.lineOf node, links := links name resource }
  | _ => none

/-- The bindings of a source.  Of several bindings of one name the first one
counts. -/
def bindings (s : Source) : List Binding :=
  (s.tree.walk.filterMap (binding? s)).foldl
    (fun kept b => if kept.any (·.name = b.name) then kept else kept ++ [b]) []

/-! ## §2. The check. -/

/-- Checks the link from one binding to another. -/
def checkLink (s : Source) (b target : Binding) : Check (List Violation) := do
  let circular ←
    if target.links.contains b.name then
      List.singleton <$> s.violation "SST-VAL-051" b.node b.name "link"
        ("Circular dependency detected: " ++ b.name ++ " ↔ " ++ target.name) .error none
    else pure []
  let early ←
    if target.line > b.line then
      List.singleton <$> s.violation "SST-VAL-052" b.node b.name "link"
        ("Using resource \"" ++ target.name ++ "\" before it is declared (line "
          ++ Text.ofNat target.line ++ ")") .error none
    else pure []
  return circular ++ early

/-- Checks the links of one binding to the others. -/
def checkBinding (s : Source) (all : List Binding) (b : Binding) : Check (List Violation) := do
  let targets := b.links.filterMap fun name => all.find? (·.name = name)
  return (← targets.mapM (checkLink s b)).flatten

/-- Checks a whole source. -/
def detect (s : Source) : Check (List Violation) := do
  let all := bindings s
  return (← all.mapM (checkBinding s all)).flatten

end ResourceDependency

/-- Circular links and links to later resources. -/
def Rule.resourceDependency : Rule where
  id := "resource-dependency"
  name := "Resource Dependency Pattern Detection"
  category := .resourceDependency
  codes := ["SST-VAL-051", "SST-VAL-052"]
  description :=
    Rule.defaultDescription "resource-dependency" "Resource Dependency Pattern Detection"
  enabledByDefault := true
  className := "ResourceDependencyRule"
  detect := ResourceDependency.detect

end StackLint
