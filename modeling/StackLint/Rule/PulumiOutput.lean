/-
  StackLint.Rule.PulumiOutput
  ───────────────────────────
  **DEFERRED VALUES.**

  Properties of resources are known only after the deployment.  Such a value
  needs no interpolation when it stands alone, and cannot be joined to strings
  by `+`: an interpolated template has to do that.
-/
import StackLint.Match.Expression
import StackLint.Rule.Basic

namespace StackLint

namespace PulumiOutput

/-- The tag of interpolated templates. -/
def interpolateTag : Text := "$interpolate"

/-- The other tag of interpolated templates, as a chain of names. -/
def interpolatePath : List Text := ["pulumi", "interpolate"]

/-- Names of properties that usually hold a deferred value. -/
def outputProperties : List Text :=
  ["arn", "name", "id", "url", "domain", "endpoint"]

/-- The name of the last property of a chain, through parentheses and type
assertions. -/
def lastProperty? (n : Tree) : Option Text :=
  match n.unwrap.form with
  | .propertyAccess _ name _ => name.identifierName?
  | _ => none

/-! ## §1. Lone values in a template. -/

/-- The only part of a template without text, if that is a substitution. -/
def loneSubstitution? (template : Tree) : Option Tree :=
  match template.form with
  | .templateLiteral [] [span] =>
      match span.form with
      | .templateSpan expression [] => some expression
      | _ => none
  | _ => none

/-- Checks a tagged template. -/
def checkInterpolation (s : Source) (node tag template : Tree) : Check (Option Violation) := do
  if tag.unwrap.identifierName? ≠ some interpolateTag then return none
  match loneSubstitution? template with
  | none => return none
  | some inner =>
      let fix ← s.replace node (s.textOf inner) .high "Remove $interpolate wrapper"
      return some (← s.violation "SST-VAL-031" node s.path.name interpolateTag
        "Unnecessary $interpolate wrapper - Pulumi Output can be used directly" .warning fix)

/-! ## §2. Concatenations. -/

/-- The operands of a chain of additions, from left to right. -/
def operands : Tree → List Tree
  | .mk _ (.binary .add left right) => operands left ++ operands right
  | n => [n]

/-- A node that adds nothing is its only operand. -/
theorem operands_of_not_addition {n : Tree}
    (notAddition : ∀ info left right, n = .mk info (.binary .add left right) → False) :
    operands n = [n] :=
  operands.eq_2 n notAddition

/-- Takes the nodes from a stack until it is empty.  Of an addition both operands are laid
on the stack, the left one on top; every other node is an operand, behind those `found`
before. -/
def flattenFrom (found : List Tree) : (stack : List Tree) → List Tree
  | [] => found
  | .mk _ (.binary .add left right) :: stack => flattenFrom found (Node.pushAll stack [right, left])
  | n :: stack => flattenFrom (found ++ [n]) stack
termination_by stack => (stack.flatMap Node.preorder).length
decreasing_by
  · show ((left :: right :: stack).flatMap Node.preorder).length < _
    rw [List.flatMap_cons, List.flatMap_cons, List.flatMap_cons, Node.preorder_mk]
    simp only [Form.children, List.flatMap_cons, List.flatMap_nil, List.length_append,
      List.length_cons, List.length_nil]
    omega
  · obtain ⟨info, form⟩ := n
    rw [List.flatMap_cons, Node.preorder_mk, List.length_append, List.length_cons]
    omega

/-- The operands of a chain of additions, in the order in which the stack gives them. -/
def flatten (n : Tree) : List Tree :=
  flattenFrom [] [n]

/-- What a stack of nodes gives: their operands, one behind the other. -/
theorem flattenFrom_eq (found stack : List Tree) :
    flattenFrom found stack = found ++ stack.flatMap operands := by
  induction found, stack using flattenFrom.induct with
  | case1 found => rw [flattenFrom, List.flatMap_nil, List.append_nil]
  | case2 found info left right stack ih =>
      have laid : Node.pushAll stack [right, left] = left :: right :: stack := rfl
      rw [flattenFrom, ih, laid, List.flatMap_cons, List.flatMap_cons, List.flatMap_cons, operands,
        List.append_assoc]
  | case3 found n stack notAddition ih =>
      rw [flattenFrom.eq_3 found n stack notAddition, ih, List.flatMap_cons,
        operands_of_not_addition notAddition, List.append_assoc]

/-- The stack gives the operands from left to right. -/
theorem flatten_eq_operands (n : Tree) : flatten n = operands n := by
  rw [flatten, flattenFrom_eq, List.flatMap_singleton, List.nil_append]

/-- The node adds two values. -/
def isAddition (n : Tree) : Bool :=
  match n.form with
  | .binary .add _ _ => true
  | _ => false

/-- The tag belongs to an interpolated template. -/
def isInterpolateTag (tag : Tree) : Bool :=
  match tag.unwrap.form with
  | .identifier name => name == interpolateTag
  | _ => tag.unwrap.memberPath? == some interpolatePath

/-- Deferred values are resolved inside this node. -/
def resolves (n : Tree) : Bool :=
  match n.form with
  | .taggedTemplate tag _ => isInterpolateTag tag
  | .call callee _ _ => lastProperty? callee == some (.ofString "apply")
  | _ => false

/-- A text as it has to be written inside a template. -/
def escapeTemplate (value : Text) : Text :=
  ((value.replaceAll "\\" "\\\\").replaceAll "\x60" "\\\x60").replaceAll "$\x7b" "\\$\x7b"

/-- The part of an interpolated template that an operand becomes. -/
def templatePart (s : Source) (operand : Tree) : Text :=
  let inner := operand.unwrap
  match inner.form with
  | .stringLiteral value _ => escapeTemplate value
  | .templateLiteral _ _ => s.text.slice (inner.info.start + 1) (inner.info.stop - 1)
  | _ => "$\x7b" ++ s.textOf operand ++ "\x7d"

/-- The interpolated template that joins the operands. -/
def interpolation (s : Source) (operands : List Tree) : Text :=
  interpolateTag ++ "\x60" ++ operands.flatMap (templatePart s) ++ "\x60"

/-- Checks an addition.  Only the outermost one of a chain is reported. -/
def checkAddition (s : Source) (visit : Visit Span) : Check (Option Violation) := do
  if visit.ancestors.head?.any isAddition then return none
  let parts := flatten visit.node
  unless parts.any fun n => (lastProperty? n).any outputProperties.contains do return none
  if visit.ancestors.any resolves then return none
  let fix ← s.replace visit.node (interpolation s parts) .medium
    "Wrap string concatenation in $interpolate"
  return some (← s.violation "SST-VAL-032" visit.node s.path.name "string-concatenation"
    "Pulumi Output cannot be used in string concatenation - use $interpolate or .apply()"
    .error fix)

/-! ## §3. The rule. -/

/-- Checks one node in its place. -/
def check (s : Source) (visit : Visit Span) : Check (Option Violation) :=
  match visit.node.form with
  | .taggedTemplate tag template => checkInterpolation s visit.node tag template
  | .binary .add _ _ => checkAddition s visit
  | _ => return none

/-- Checks a whole source. -/
def detect (s : Source) : Check (List Violation) := do
  return (← s.tree.visits.mapM (check s)).filterMap id

end PulumiOutput

/-- Deferred values in templates and concatenations. -/
def Rule.pulumiOutput : Rule where
  id := "pulumi-output"
  name := "Pulumi Output Pattern Detection"
  category := .pulumiOutput
  codes := ["SST-VAL-031", "SST-VAL-032"]
  description := Rule.defaultDescription "pulumi-output" "Pulumi Output Pattern Detection"
  enabledByDefault := true
  className := "PulumiOutputRule"
  detect := PulumiOutput.detect

end StackLint
