/-
  StackLint.Match.Resource
  ────────────────────────
  **RESOURCES.**

  A resource of the infrastructure is recognized by the shape of its
  constructor call `new space.provider.Type("Name", { … })`, never by what its
  names refer to.
-/
import StackLint.Match.Expression

namespace StackLint

/-- A constructor call that makes a resource. -/
structure Resource (σ : Type) where
  space : Text
  provider : Text
  typeName : Text
  /-- The first argument when it is a text, else a stand-in. -/
  name : Text
  /-- The second argument when it is an object literal. -/
  config : Option (Node σ)
  node : Node σ

namespace Resource

/-- The providers whose constructors make resources. -/
def providers : List Text :=
  ["aws", "cloudflare", "vercel"]

/-- The name of a resource that does not say its name. -/
def unknownName : Text :=
  "Unknown"

/-- The name that the first argument of a constructor gives. -/
def nameOf (arguments : List (Node σ)) : Text :=
  match arguments.head?.bind Node.staticString? with
  | some [] | none => unknownName
  | some name => name

/-- The resource that an expression makes. -/
def ofNode? (n : Node σ) : Option (Resource σ) :=
  match n.form with
  | .newExpression callee arguments =>
      match callee.memberPath? with
      | some [space, provider, typeName] =>
          if providers.contains provider then
            let arguments := arguments.getD []
            some {
              space, provider, typeName
              name := nameOf arguments
              config := (arguments[1]?.map Node.unwrap).filter Node.isObject
              node := n }
          else none
      | _ => none
  | _ => none

/-- How messages call a resource. -/
def label (r : Resource σ) : Text :=
  r.typeName ++ "(\"" ++ r.name ++ "\")"

/-- The first property of the resource's configuration with the given name. -/
def findProperty? (r : Resource σ) (name : Text) : Option (Node.Property σ) :=
  r.config.bind (·.findProperty? name)

end Resource

/-- The resources made in a tree, in preorder. -/
def Node.resources (tree : Node σ) : List (Resource σ) :=
  tree.walk.filterMap Resource.ofNode?

/-- The resources of the given types made in a tree, in preorder. -/
def Node.resourcesOf (tree : Node σ) (types : List Text) : List (Resource σ) :=
  tree.resources.filter fun r => types.contains r.typeName

end StackLint
