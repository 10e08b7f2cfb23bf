/-
  StackLint.Rule.DomainConfig
  ───────────────────────────
  **CUSTOM DOMAINS.**

  A custom domain has to name its DNS provider, and the provider has to be
  allowed to override records, or the deployment fails where another
  distribution already serves the domain.  A stage guard of the form
  `stage !== "dev"` serves the domain from stages that nobody meant.
-/
import StackLint.Match.Resource
import StackLint.Rule.Basic

namespace StackLint

namespace DomainConfig

/-- The types of resources that take a domain. -/
def resourceTypes : List Text :=
  ["Nextjs", "StaticSite", "Remix", "Astro", "Router", "ApiGatewayV2"]

/-- The stages that a guard excludes. -/
def devStages : List Text :=
  ["dev", "development"]

/-- A DNS provider to start from. -/
def providerSnippet : Text :=
  "dns: sst.aws.dns(\x7b zone: \"YOUR_ZONE_ID\", override: true \x7d)"

/-- The permission to override records. -/
def overrideSnippet : Text :=
  "override: true"

/-- An object with one member. -/
def inBraces (snippet : Text) : Text :=
  "\x7b " ++ snippet ++ " \x7d"

/-! ## §1. Inserting a member. -/

/-- Where the first comma behind offset `start` and before `stop` ends, if
there is one.  Commas in comments do not count. -/
def commaEnd? (s : Source) (start stop : Nat) : Check (Option Nat) :=
  match tokenize (s.text.slice start stop) with
  | .error failure => .error (.scan failure)
  | .ok tokens => .ok ((tokens.find? (·.is .comma)).map fun comma => start + comma.start + 1)

/-- A fix that makes `snippet` the last member of an object.  It is an
insertion, so it touches no other fix, and it keeps the layout and a trailing
comma. -/
def insertMember (s : Source) (object : Tree) (members : List Tree) (snippet : Text)
    (confidence : Confidence) (description : Text) : Check Fix := do
  match members.getLast? with
  | none => s.replace object (inBraces snippet) confidence description
  | some last =>
      let multiline := (s.textOf object).contains (.scalar '\n')
      let indent := s.lineIndent last.info.start
      match ← commaEnd? s last.info.stop (object.info.stop - 1) with
      | some place =>
          let newCode : Text :=
            if multiline then "\n" ++ indent ++ snippet ++ "," else " " ++ snippet
          s.fix place place newCode confidence description
      | none =>
          let place := last.info.stop
          let newCode : Text :=
            if multiline then ",\n" ++ indent ++ snippet else ", " ++ snippet
          s.fix place place newCode confidence description

/-! ## §2. Stage guards. -/

/-- The side of a comparison that holds the stage, when the other side is a
development stage. -/
def guardedSubject? (left right : Tree) : Option Tree :=
  if right.staticString?.any devStages.contains then some left
  else if left.staticString?.any devStages.contains then some right
  else none

/-- What is wrong with a negated guard. -/
def negatedStageMessage : Text :=
  "Using stage !== \"dev\" breaks for other non-production stages (staging, preview, test)"

/-- Checks the test of a conditional domain. -/
def checkGuard (s : Source) (test : Tree) (label : Text) : Check (Option Violation) := do
  match test.form with
  | .binary op left right =>
      unless op = .neStrict || op = .neLoose do return none
      match guardedSubject? left right with
      | none => return none
      | some subject =>
          let fix ← s.replace test (s.textOf subject ++ " === \"production\"") .medium
            "Use explicit stage === \"production\" check instead of negative comparison"
          return some (← s.violation "SST-VAL-011" test label "domain"
            negatedStageMessage .error fix)
  | _ => return none

/-! ## §3. DNS providers. -/

/-- A call: its arguments. -/
def callArguments? (n : Tree) : Option (List Tree) :=
  match n.form with
  | .call _ arguments _ => some arguments
  | _ => none

/-- Whether a value allows to override records.  A literal does so when it is
`true`, and any other value unless it speaks of `false`. -/
def allows (s : Source) (value : Tree) : Bool :=
  match value.form with
  | .keywordLiteral keyword => keyword == .true
  | _ => !Text.hasInfix "false" (s.textOf value)

/-- Whether a provider may override records.  Only the arguments of calls are
looked at. -/
def hasOverride (s : Source) (provider : Tree) : Bool :=
  match callArguments? provider with
  | none => true
  | some [] => false
  | some (argument :: _) =>
      argument.unwrap.isObject &&
        match argument.findProperty? "override" with
        | none => false
        | some override => allows s override.value.unwrap

/-- What the fix of a provider does. -/
def overrideDescription : Text :=
  "Add override: true to dns configuration to allow updating existing distributions"

/-- A fix that allows a provider to override records, where it is clear how. -/
def overrideFix? (s : Source) (provider : Tree) : Check (Option Fix) := do
  match callArguments? provider with
  | none => return none
  | some [] =>
      let closing := provider.info.stop - 1
      if (← s.charAt closing) = .scalar ')' then
        return some (← s.fix closing closing (inBraces overrideSnippet) .high overrideDescription)
      else return none
  | some (argument :: _) =>
      let config := argument.unwrap
      match config.objectMembers? with
      | none => return none
      | some members =>
          match config.findProperty? "override" with
          | some override =>
              return some (← s.replace override.value "true" .high overrideDescription)
          | none =>
              return some
                (← insertMember s config members overrideSnippet .high overrideDescription)

/-- What is wrong with a provider that may not override records. -/
def missingOverrideMessage : Text :=
  "dns configuration missing override parameter (required for updating existing "
    ++ "CloudFront distributions)"

/-- Checks the DNS settings of a domain. -/
def checkDns (s : Source) (label : Text) (domain : Tree) : Check (Option Violation) := do
  match domain.objectMembers?, domain.findProperty? "name" with
  | some members, some name =>
      match domain.findProperty? "dns" with
      | none =>
          let fix ← insertMember s domain members providerSnippet .medium
            "Add explicit DNS provider with override: true for existing distributions"
          return some (← s.violation "SST-VAL-012" name.node label "domain.dns"
            "domain.name requires explicit dns configuration to prevent CloudFront CNAME conflicts"
            .error fix)
      | some dns =>
          let provider := dns.value.unwrap
          if hasOverride s provider then return none
          let fix ← overrideFix? s provider
          return some (← s.violation "SST-VAL-012a" dns.node label "domain.dns"
            missingOverrideMessage .error fix)
  | _, _ => return none

/-! ## §4. The rule. -/

/-- Checks the domain of a resource, in both branches if it is conditional. -/
def checkResource (s : Source) (r : Resource Span) : Check (List Violation) := do
  match r.findProperty? "domain" with
  | none => return []
  | some property =>
      let domain := property.value.unwrap
      match domain.form with
      | .conditional test consequent alternate =>
          let guard ← checkGuard s test.unwrap r.label
          let branches ← [consequent.unwrap, alternate.unwrap].mapM (checkDns s r.label)
          return (guard :: branches).filterMap id
      | _ => return (← checkDns s r.label domain).toList

/-- Checks a whole source. -/
def detect (s : Source) : Check (List Violation) := do
  return (← (s.tree.resourcesOf resourceTypes).mapM (checkResource s)).flatten

end DomainConfig

/-- Stage guards and DNS settings of custom domains. -/
def Rule.domainConfig : Rule where
  id := "domain-config"
  name := "Domain Configuration Pattern Detection"
  category := .domainConfig
  codes := ["SST-VAL-011", "SST-VAL-012", "SST-VAL-012a"]
  description := "Detects incorrect domain configuration patterns"
  enabledByDefault := true
  className := "DomainConfigRule"
  detect := DomainConfig.detect

end StackLint
