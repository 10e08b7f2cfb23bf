/-
  StackLint.Violation.Catalog
  ───────────────────────────
  **THE CATALOG OF VIOLATIONS.**

  Reference documentation for every violation code: what it means, why it
  happens, and an example before and after.  The codes are distinct, and the
  entries stand in the order of their codes.
-/
import StackLint.Violation.Basic

namespace StackLint

/-! ## §1. Entries. -/

/-- A text of several lines. -/
def Text.ofLines (lines : List String) : Text :=
  Text.join "\n" (lines.map Text.ofString)

/-- What there is to know about a violation code. -/
structure CatalogEntry where
  code : Text
  title : Text
  description : Text
  category : Category
  rootCause : Text
  badExample : Text
  goodExample : Text
  relatedCodes : List Text
  docsUrl : Option Text
  /-- The section of this tool's own documentation. -/
  ownDocsUrl : Option Text
  deriving DecidableEq, Repr

namespace Catalog

/-! ## §2. Documentation pages. -/

/-- The page on the configuration file. -/
def configDocs : Text :=
  "https://sst.dev/docs/reference/config"

/-- The page on custom domains. -/
def domainDocs : Text :=
  "https://sst.dev/docs/component/aws/nextjs#domain"

/-- The page on CORS settings. -/
def corsDocs : Text :=
  "https://sst.dev/docs/component/aws/bucket#cors"

/-- The page on linking resources. -/
def linkableDocs : Text :=
  "https://sst.dev/docs/reference/linkable"

/-- The page on the variables of the runtime. -/
def lambdaDocs : Text :=
  "https://docs.aws.amazon.com/lambda/latest/dg/configuration-envvars.html"
    ++ "#configuration-envvars-runtime"

/-! ## §3. The entries. -/

/-- The configuration file is missing. -/
def configFileNotFound : CatalogEntry where
  code := "SST-VAL-000"
  title := "Config File Not Found"
  description :=
    "sst.config.ts could not be found or read, so no other pattern checks were run."
  category := .configFile
  rootCause :=
    "The detector was pointed at a project root without an sst.config.ts, or the file is "
      ++ "unreadable (permissions, encoding)."
  badExample := Text.ofLines [
    "my-app/",
    "  package.json",
    "  # no sst.config.ts"]
  goodExample := Text.ofLines [
    "my-app/",
    "  package.json",
    "  sst.config.ts  // ✅ CORRECT - config at project root"]
  relatedCodes := []
  docsUrl := some configDocs
  ownDocsUrl := some ("#config-file" : Text)

/-- The stage is read from a parameter that is not there. -/
def wrongStageVariable : CatalogEntry where
  code := "SST-VAL-001"
  title := "Wrong Stage Variable - Using input.stage in run() Function"
  description :=
    "Using input?.stage or input.stage in the run() function causes silent failures because "
      ++ "run() does not receive input parameter. Note: input?.stage is VALID in app() function."
  category := .stageVariable
  rootCause :=
    "SST v3 API: app(input) receives input parameter (input?.stage is valid), but run() does "
      ++ "not receive parameters (must use $app.stage instead)."
  badExample := Text.ofLines [
    "// ❌ WRONG - input is undefined in run()",
    "async run() \x7b",
    "  const stage = input?.stage || \"dev\";",
    "  // This silently fails - stage is always \"dev\"",
    "\x7d"]
  goodExample := Text.ofLines [
    "// ✅ CORRECT - input?.stage in app(), $app.stage in run()",
    "app(input) \x7b",
    "  return \x7b",
    "    removal: input?.stage === \"production\" ? \"retain\" : \"remove\"  // ✅ Valid",
    "  \x7d;",
    "\x7d,",
    "async run() \x7b",
    "  const stage = $app.stage;  // ✅ Valid - use global $app",
    "\x7d"]
  relatedCodes := ["SST-VAL-002", "SST-VAL-003"]
  docsUrl := some configDocs
  ownDocsUrl := some ("#stage-variable-patterns" : Text)

/-- The entry function has parameters. -/
def runWithParameters : CatalogEntry where
  code := "SST-VAL-002"
  title := "Incorrect Function Signature - run() Should Not Accept Parameters"
  description :=
    "The run() function in sst.config.ts should not accept any parameters in SST v3."
  category := .functionSignature
  rootCause :=
    "SST v3 removed input parameter from run() function. Stage and other config come from "
      ++ "globals."
  badExample := Text.ofLines [
    "export default $config(\x7b",
    "  async run(input: any) \x7b  // ❌ WRONG - no parameters",
    "    // ...",
    "  \x7d",
    "\x7d)"]
  goodExample := Text.ofLines [
    "export default $config(\x7b",
    "  async run() \x7b  // ✅ CORRECT - no parameters",
    "    const stage = $app.stage;",
    "    const region = $app.providers.aws.region;",
    "  \x7d",
    "\x7d)"]
  relatedCodes := ["SST-VAL-001"]
  docsUrl := some configDocs
  ownDocsUrl := some ("#function-signature-patterns" : Text)

/-- The stage is a constant. -/
def hardcodedStage : CatalogEntry where
  code := "SST-VAL-003"
  title := "Hardcoded Stage Value - Should Use $app.stage"
  description :=
    "Hardcoding stage values like \"dev\", \"staging\", \"production\" prevents proper "
      ++ "multi-stage deployments."
  category := .stageVariable
  rootCause :=
    "Hardcoded stages break when deploying to different environments with --stage flag."
  badExample := Text.ofLines [
    "const stage = \"dev\";  // ❌ WRONG - hardcoded",
    "const domain = stage === \"production\" ? \"example.com\" : undefined;"]
  goodExample := Text.ofLines [
    "const stage = $app.stage;  // ✅ CORRECT - dynamic",
    "const domain = stage === \"production\" ? \"example.com\" :",
    "               stage === \"staging\" ? \"staging.example.com\" : undefined;"]
  relatedCodes := ["SST-VAL-001", "SST-VAL-011"]
  docsUrl := some configDocs
  ownDocsUrl := some ("#stage-variable-patterns" : Text)

/-- A domain is guarded by a negated stage. -/
def negatedStage : CatalogEntry where
  code := "SST-VAL-011"
  title := "Incorrect Domain Conditional - Using !== Instead of Explicit Checks"
  description :=
    "Using stage !== \"dev\" for domain config breaks for other non-production stages like "
      ++ "staging, preview, etc."
  category := .domainConfig
  rootCause :=
    "Negative conditionals fail to account for multiple non-production stages."
  badExample := Text.ofLines [
    "domain: stage !== \"dev\" ? \x7b  // ❌ WRONG",
    "  name: \"example.com\",",
    "  redirects: [\"www.example.com\"]",
    "\x7d : undefined",
    "// This breaks for \"staging\", \"preview\", \"test\", etc."]
  goodExample := Text.ofLines [
    "// ✅ CORRECT - explicit stage checks",
    "domain: stage === \"production\" ? \x7b",
    "  name: \"example.com\",",
    "  redirects: [\"www.example.com\"]",
    "\x7d : stage === \"staging\" ? \x7b",
    "  name: \"staging.example.com\"",
    "\x7d : undefined"]
  relatedCodes := ["SST-VAL-003", "SST-VAL-012"]
  docsUrl := some domainDocs
  ownDocsUrl := some ("#domain-configuration-patterns" : Text)

/-- A domain has no DNS provider. -/
def missingDns : CatalogEntry where
  code := "SST-VAL-012"
  title := "Missing DNS Configuration - Required for Custom Domains"
  description :=
    "Custom domains MUST have explicit dns configuration to prevent CloudFront CNAME conflicts "
      ++ "and deployment failures."
  category := .domainConfig
  rootCause :=
    "SST requires explicit DNS provider configuration when using custom domains. Without it, "
      ++ "CloudFront CNAME conflicts cause deployment to fail with CNAMEAlreadyExists error."
  badExample := Text.ofLines [
    "domain: \x7b",
    "  name: \"example.com\",  // ❌ Missing dns property - WILL FAIL",
    "  redirects: [\"www.example.com\"]",
    "\x7d"]
  goodExample := Text.ofLines [
    "domain: \x7b",
    "  name: \"example.com\",",
    "  redirects: [\"www.example.com\"],",
    "  dns: sst.aws.dns(\x7b           // ✅ CORRECT - explicit DNS with override",
    "    zone: \"Z1234567890ABC\",",
    "    override: true              // Required for existing distributions",
    "  \x7d)",
    "\x7d"]
  relatedCodes := ["SST-VAL-011", "SST-VAL-012a"]
  docsUrl := some domainDocs
  ownDocsUrl := some ("#domain-configuration-patterns" : Text)

/-- A DNS provider may not override records. -/
def missingOverride : CatalogEntry where
  code := "SST-VAL-012a"
  title := "Missing dns.override Parameter - Required for Existing CloudFront Distributions"
  description :=
    "When updating existing CloudFront distributions, dns.override: true is REQUIRED or "
      ++ "deployment will fail with CNAMEAlreadyExists error, which typically forces a manual "
      ++ "distribution deletion and production downtime."
  category := .domainConfig
  rootCause :=
    "SST cannot update DNS for existing CloudFront distributions without explicit override: "
      ++ "true. This is a common cause of production deployment failures."
  badExample := Text.ofLines [
    "domain: \x7b",
    "  name: \"example.com\",",
    "  dns: sst.aws.dns(\x7b",
    "    zone: \"Z1234567890ABC\"  // ❌ Missing override - WILL FAIL if distribution exists",
    "  \x7d)",
    "\x7d"]
  goodExample := Text.ofLines [
    "domain: \x7b",
    "  name: \"example.com\",",
    "  dns: sst.aws.dns(\x7b",
    "    zone: \"Z1234567890ABC\",",
    "    override: true           // ✅ CORRECT - can update existing distribution",
    "  \x7d)",
    "\x7d"]
  relatedCodes := ["SST-VAL-012"]
  docsUrl := some domainDocs
  ownDocsUrl := some ("#domain-configuration-patterns" : Text)

/-- The property for origins is misspelled. -/
def allowedOrigins : CatalogEntry where
  code := "SST-VAL-021"
  title := "CORS Property Name Typo - allowedOrigins vs allowOrigins"
  description :=
    "Using allowedOrigins instead of allowOrigins causes CORS errors."
  category := .corsConfig
  rootCause :=
    "SST uses allowOrigins (no \"ed\"), not allowedOrigins. Inconsistent naming with AWS SDK."
  badExample := Text.ofLines [
    "cors: \x7b",
    "  allowHeaders: [\"*\"],",
    "  allowedOrigins: [\"*\"],  // ❌ WRONG - should be allowOrigins",
    "  allowMethods: [\"GET\", \"POST\"]",
    "\x7d"]
  goodExample := Text.ofLines [
    "cors: \x7b",
    "  allowHeaders: [\"*\"],",
    "  allowOrigins: [\"*\"],  // ✅ CORRECT",
    "  allowMethods: [\"GET\", \"POST\"]",
    "\x7d"]
  relatedCodes := ["SST-VAL-022", "SST-VAL-023"]
  docsUrl := some corsDocs
  ownDocsUrl := some ("#cors-configuration-patterns" : Text)

/-- The property for methods is misspelled. -/
def allowedMethods : CatalogEntry where
  code := "SST-VAL-022"
  title := "CORS Property Name Typo - allowedMethods vs allowMethods"
  description :=
    "Using allowedMethods instead of allowMethods causes CORS errors."
  category := .corsConfig
  rootCause :=
    "SST uses allowMethods (no \"ed\"), not allowedMethods."
  badExample := Text.ofLines [
    "cors: \x7b",
    "  allowedMethods: [\"GET\", \"POST\"]  // ❌ WRONG",
    "\x7d"]
  goodExample := Text.ofLines [
    "cors: \x7b",
    "  allowMethods: [\"GET\", \"POST\"]  // ✅ CORRECT",
    "\x7d"]
  relatedCodes := ["SST-VAL-021", "SST-VAL-023"]
  docsUrl := some corsDocs
  ownDocsUrl := some ("#cors-configuration-patterns" : Text)

/-- The property for headers is misspelled. -/
def allowedHeaders : CatalogEntry where
  code := "SST-VAL-023"
  title := "CORS Property Name Typo - allowedHeaders vs allowHeaders"
  description :=
    "Using allowedHeaders instead of allowHeaders causes CORS errors."
  category := .corsConfig
  rootCause :=
    "SST uses allowHeaders (no \"ed\"), not allowedHeaders."
  badExample := Text.ofLines [
    "cors: \x7b",
    "  allowedHeaders: [\"*\"]  // ❌ WRONG",
    "\x7d"]
  goodExample := Text.ofLines [
    "cors: \x7b",
    "  allowHeaders: [\"*\"]  // ✅ CORRECT",
    "\x7d"]
  relatedCodes := ["SST-VAL-021", "SST-VAL-022"]
  docsUrl := some corsDocs
  ownDocsUrl := some ("#cors-configuration-patterns" : Text)

/-- The CORS settings are an array. -/
def corsArray : CatalogEntry where
  code := "SST-VAL-024"
  title := "CORS Configured as Array - Should Be Object"
  description :=
    "CORS should be an object with properties, not an array."
  category := .corsConfig
  rootCause :=
    "SST v3 changed CORS from array to object configuration."
  badExample := Text.ofLines [
    "cors: [\x7b  // ❌ WRONG - array",
    "  allowOrigins: [\"*\"],",
    "  allowHeaders: [\"*\"]",
    "\x7d]"]
  goodExample := Text.ofLines [
    "cors: \x7b  // ✅ CORRECT - object",
    "  allowOrigins: [\"*\"],",
    "  allowHeaders: [\"*\"]",
    "\x7d"]
  relatedCodes := ["SST-VAL-021"]
  docsUrl := some corsDocs
  ownDocsUrl := some ("#cors-configuration-patterns" : Text)

/-- A lone output is interpolated. -/
def needlessInterpolation : CatalogEntry where
  code := "SST-VAL-031"
  title := "Unnecessary $interpolate Wrapper - Direct Output Usage"
  description :=
    "Using $interpolate for simple Pulumi Output values is unnecessary and adds complexity."
  category := .pulumiOutput
  rootCause :=
    "SST v3 automatically handles Pulumi Outputs in most contexts. $interpolate only needed for "
      ++ "string templates."
  badExample := 
    "link: [$interpolate`$\x7bbucket.arn\x7d`]  // ❌ WRONG - unnecessary wrapper"
  goodExample := Text.ofLines [
    "link: [bucket.arn]  // ✅ CORRECT - direct usage",
    "// Use $interpolate only for actual templates:",
    "link: [`$\x7bbucket.arn\x7d/*`]  // ✅ Also correct for templates"]
  relatedCodes := ["SST-VAL-032"]
  docsUrl := some linkableDocs
  ownDocsUrl := some ("#pulumi-output-patterns" : Text)

/-- An output is joined to a string. -/
def outputConcatenation : CatalogEntry where
  code := "SST-VAL-032"
  title := "Pulumi Output in String Context - Need $interpolate or .apply()"
  description :=
    "Pulumi Outputs cannot be used directly in string concatenation or comparisons."
  category := .pulumiOutput
  rootCause :=
    "Pulumi Outputs are async values that require special handling in string contexts."
  badExample := Text.ofLines [
    "const url = \"https://\" + domain.name;  // ❌ WRONG - Output in string concat",
    "if (bucket.arn === \"some-value\") \x7b \x7d  // ❌ WRONG - Output in comparison"]
  goodExample := Text.ofLines [
    "const url = $interpolate`https://$\x7bdomain.name\x7d`;  // ✅ CORRECT",
    "bucket.arn.apply(arn => \x7b  // ✅ CORRECT - use .apply()",
    "  if (arn === \"some-value\") \x7b \x7d",
    "\x7d);"]
  relatedCodes := ["SST-VAL-031"]
  docsUrl := some ("https://www.pulumi.com/docs/concepts/inputs-outputs/" : Text)
  ownDocsUrl := some ("#pulumi-output-patterns" : Text)

/-- A variable belongs to the runtime. -/
def reservedVariable : CatalogEntry where
  code := "SST-VAL-041"
  title := "Reserved Lambda Environment Variable - AWS_ACCESS_KEY_ID"
  description :=
    "AWS_ACCESS_KEY_ID is a reserved Lambda environment variable and cannot be set manually."
  category := .environmentVariable
  rootCause :=
    "Lambda runtime sets AWS credentials automatically. Manual override is forbidden and causes "
      ++ "deployment errors."
  badExample := Text.ofLines [
    "environment: \x7b",
    "  AWS_ACCESS_KEY_ID: \"...\",  // ❌ FORBIDDEN",
    "  AWS_SECRET_ACCESS_KEY: \"...\"  // ❌ FORBIDDEN",
    "\x7d"]
  goodExample := Text.ofLines [
    "environment: \x7b",
    "  BUCKET_NAME: bucket.name,  // ✅ CORRECT - custom variable",
    "  // AWS credentials are automatically provided by Lambda",
    "\x7d"]
  relatedCodes := ["SST-VAL-042", "SST-VAL-043"]
  docsUrl := some lambdaDocs
  ownDocsUrl := some ("#environment-variable-patterns" : Text)

/-- A variable begins with an underscore. -/
def underscoreVariable : CatalogEntry where
  code := "SST-VAL-042"
  title := "Reserved Lambda Environment Variable - _HANDLER"
  description :=
    "Variables starting with _ are reserved by Lambda runtime."
  category := .environmentVariable
  rootCause :=
    "Lambda reserves all variables starting with underscore for internal runtime use."
  badExample := Text.ofLines [
    "environment: \x7b",
    "  _HANDLER: \"index.handler\",  // ❌ FORBIDDEN",
    "  _X_AMZN_TRACE_ID: \"...\"  // ❌ FORBIDDEN",
    "\x7d"]
  goodExample := Text.ofLines [
    "environment: \x7b",
    "  HANDLER_NAME: \"index.handler\",  // ✅ CORRECT - no underscore prefix",
    "\x7d"]
  relatedCodes := ["SST-VAL-041"]
  docsUrl := some lambdaDocs
  ownDocsUrl := some ("#environment-variable-patterns" : Text)

/-- A variable has the prefix of the runtime. -/
def lambdaVariable : CatalogEntry where
  code := "SST-VAL-043"
  title := "Reserved Lambda Environment Variable - LAMBDA_*"
  description :=
    "Variables starting with LAMBDA_ are reserved by Lambda runtime."
  category := .environmentVariable
  rootCause :=
    "Lambda reserves LAMBDA_ prefix for runtime configuration."
  badExample := Text.ofLines [
    "environment: \x7b",
    "  LAMBDA_TASK_ROOT: \"/var/task\",  // ❌ FORBIDDEN",
    "\x7d"]
  goodExample := Text.ofLines [
    "environment: \x7b",
    "  APP_TASK_ROOT: \"/var/task\",  // ✅ CORRECT - different prefix",
    "\x7d"]
  relatedCodes := ["SST-VAL-041", "SST-VAL-042"]
  docsUrl := some lambdaDocs
  ownDocsUrl := some ("#environment-variable-patterns" : Text)

/-- Resources link each other. -/
def circularDependency : CatalogEntry where
  code := "SST-VAL-051"
  title := "Circular Resource Dependency Detected"
  description :=
    "Two or more resources depend on each other creating a circular dependency."
  category := .resourceDependency
  rootCause :=
    "Circular dependencies prevent proper resource ordering during deployment."
  badExample := Text.ofLines [
    "const fnA = new sst.aws.Function(\"A\", \x7b",
    "  link: [fnB]  // ❌ WRONG - A depends on B",
    "\x7d);",
    "const fnB = new sst.aws.Function(\"B\", \x7b",
    "  link: [fnA]  // ❌ WRONG - B depends on A (circular!)",
    "\x7d);"]
  goodExample := Text.ofLines [
    "// ✅ CORRECT - proper hierarchy",
    "const fnA = new sst.aws.Function(\"A\", \x7b",
    "  link: [bucket]  // A depends on bucket",
    "\x7d);",
    "const fnB = new sst.aws.Function(\"B\", \x7b",
    "  link: [fnA, bucket]  // B depends on A and bucket (no cycle)",
    "\x7d);"]
  relatedCodes := ["SST-VAL-052"]
  docsUrl := some linkableDocs
  ownDocsUrl := some ("#resource-dependency-patterns" : Text)

/-- A resource is linked before it is declared. -/
def useBeforeDeclaration : CatalogEntry where
  code := "SST-VAL-052"
  title := "Using Resource Before Declaration"
  description :=
    "Referencing a resource before it is declared can cause undefined errors."
  category := .resourceDependency
  rootCause :=
    "JavaScript execution order - resources must be declared before use."
  badExample := Text.ofLines [
    "const api = new sst.aws.ApiGatewayV2(\"Api\", \x7b",
    "  link: [myFunction]  // ❌ WRONG - myFunction not declared yet",
    "\x7d);",
    "const myFunction = new sst.aws.Function(\"MyFn\", \x7b ... \x7d);"]
  goodExample := Text.ofLines [
    "// ✅ CORRECT - declare before use",
    "const myFunction = new sst.aws.Function(\"MyFn\", \x7b ... \x7d);",
    "const api = new sst.aws.ApiGatewayV2(\"Api\", \x7b",
    "  link: [myFunction]",
    "\x7d);"]
  relatedCodes := ["SST-VAL-051"]
  docsUrl := some linkableDocs
  ownDocsUrl := some ("#resource-dependency-patterns" : Text)

/-- Fields of a table are in no index. -/
def unindexedFields : CatalogEntry where
  code := "SST-VAL-061"
  title := "DynamoDB Fields Not Indexed - Unused Attributes"
  description :=
    "All fields defined in the \"fields\" property must be used in at least one index "
      ++ "(primaryIndex, globalIndexes, or localIndexes). AWS SDK throws \"all attributes must be "
      ++ "indexed\" error when fields are defined but never indexed."
  category := .dynamodbSchema
  rootCause :=
    "DynamoDB tables require all explicitly declared fields to be indexed somewhere. Fields can "
      ++ "still be stored without declaring them in \"fields\" - only declare fields you will index."
  badExample := Text.ofLines [
    "const table = new sst.aws.Dynamo(\"MyTable\", \x7b",
    "  fields: \x7b",
    "    id: \"string\",",
    "    createdAt: \"number\",     // ❌ WRONG - defined but not indexed",
    "    lastReadAt: \"number\"     // ❌ WRONG - defined but not indexed",
    "  \x7d,",
    "  primaryIndex: \x7b hashKey: \"id\" \x7d",
    "\x7d);"]
  goodExample := Text.ofLines [
    "// Option 1: Remove unused fields (they can still be stored)",
    "const table = new sst.aws.Dynamo(\"MyTable\", \x7b",
    "  fields: \x7b",
    "    id: \"string\"",
    "  \x7d,",
    "  primaryIndex: \x7b hashKey: \"id\" \x7d",
    "\x7d);",
    "",
    "// Option 2: Add indexes for the fields",
    "const table = new sst.aws.Dynamo(\"MyTable\", \x7b",
    "  fields: \x7b",
    "    id: \"string\",",
    "    createdAt: \"number\",",
    "    lastReadAt: \"number\"",
    "  \x7d,",
    "  primaryIndex: \x7b hashKey: \"id\" \x7d,",
    "  globalIndexes: \x7b",
    "    createdAtIndex: \x7b hashKey: \"createdAt\" \x7d,",
    "    lastReadIndex: \x7b hashKey: \"lastReadAt\" \x7d",
    "  \x7d",
    "\x7d);"]
  relatedCodes := []
  docsUrl := some ("https://sst.dev/docs/component/aws/dynamo" : Text)
  ownDocsUrl := some ("#dynamodb-schema-patterns" : Text)

/-- All entries, in the order of their codes. -/
def entries : List CatalogEntry :=
  [configFileNotFound, wrongStageVariable, runWithParameters, hardcodedStage, negatedStage,
   missingDns, missingOverride, allowedOrigins, allowedMethods, allowedHeaders, corsArray,
   needlessInterpolation, outputConcatenation, reservedVariable, underscoreVariable,
   lambdaVariable, circularDependency, useBeforeDeclaration, unindexedFields]

/-! ## §4. Look-up. -/

/-- The entry of a code. -/
def find? (code : Text) : Option CatalogEntry :=
  entries.find? fun entry => entry.code = code

/-- The entries of a category, in the order of their codes. -/
def ofCategory (category : Category) : List CatalogEntry :=
  entries.filter fun entry => entry.category = category

end Catalog

/-! ## §5. Rendering. -/

/-- The line above and below a heading. -/
def CatalogEntry.ruler : Text :=
  List.replicate 80 '='

/-- An entry as a page of text. -/
def CatalogEntry.render (entry : CatalogEntry) : Text :=
  let related : List Text :=
    if entry.relatedCodes.isEmpty then []
    else ["RELATED ERRORS: " ++ Text.join ", " entry.relatedCodes, ""]
  let docs : List Text :=
    match entry.docsUrl with
    | none | some [] => []
    | some url => ["SST DOCS: " ++ url]
  let ownDocs : List Text :=
    match entry.ownDocsUrl with
    | none | some [] => []
    | some url => ["DEPLOY-KIT DOCS: " ++ url]
  let lines : List Text :=
    [[], ruler, "ERROR CODE: " ++ entry.code, "TITLE: " ++ entry.title, ruler, [],
     "DESCRIPTION:", entry.description, [],
     "ROOT CAUSE:", entry.rootCause, [],
     "❌ INCORRECT CODE:", entry.badExample, [],
     "✅ CORRECT CODE:", entry.goodExample, []]
  Text.join "\n" (lines ++ related ++ docs ++ ownDocs) ++ "\n"

end StackLint
