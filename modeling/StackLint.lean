import StackLint.Text.Identifier
import StackLint.Text.UpperCase
import StackLint.Text.Position
import StackLint.Text.Utf8
import StackLint.Token.Scan
import StackLint.Json.Reader
import StackLint.Tree.Outline
import StackLint.Parse.Program
import StackLint.Match.Resource
import StackLint.Match.Function
import StackLint.Violation.Catalog
import StackLint.Rule.StageVariable
import StackLint.Rule.DomainConfig
import StackLint.Rule.CorsConfig
import StackLint.Rule.EnvVariable
import StackLint.Rule.PulumiOutput
import StackLint.Rule.ResourceDependency
import StackLint.Rule.DynamoIndexing
import StackLint.Settings.Reader
import StackLint.Detector
import StackLint.Fixing.Diff
import StackLint.Fixing.Run
import StackLint.Report.Fixes
import StackLint.Workspace.Fix
import StackLint.Proofs.Fixing.Substitution
import StackLint.Proofs.Fixing.Selection
import StackLint.Proofs.Workspace.Session
import StackLint.Proofs.Fixing.Threshold
import StackLint.Proofs.Detection.Sound
import StackLint.Proofs.Workspace.Escape
import StackLint.Proofs.Detection.Settled
import StackLint.Proofs.Detection.WellFormed
import StackLint.Proofs.Termination.Program
import StackLint.Proofs.Detection.Aligned
import StackLint.Proofs.Parse.Program
import StackLint.Proofs.Parse.SourceOrder
import StackLint.Proofs.Token.Lossless
import StackLint.Proofs.Token.Nesting
import StackLint.Proofs.Token.Blank
import StackLint.Proofs.Token.Standing
import StackLint.Proofs.Token.StringExtent
import StackLint.Proofs.Detection.Combined
import StackLint.Proofs.Detection.Translated
import StackLint.Proofs.Print.ArrowBranch
import StackLint.Proofs.Print.Assigned
import StackLint.Proofs.Print.Exhausts
import StackLint.Proofs.Print.RoundTrip
import StackLint.Proofs.Detection.Unchanged
import StackLint.Proofs.Enclosed.Expression
import StackLint.Proofs.Enclosed.Statement
import StackLint.Proofs.Interpolation.Rest
import StackLint.Proofs.Interpolation.Whole
import StackLint.Proofs.Enclosed.Closing
import StackLint.Proofs.Interpolation.Joined
import StackLint.Proofs.Rule.Addition
import StackLint.Proofs.Rule.Inserted
import StackLint.Proofs.Detection.Additions
import StackLint.Proofs.Detection.Fields
import StackLint.Proofs.Detection.Renamed
import StackLint.Proofs.Detection.Links
import StackLint.Proofs.Parse.Climbing
import StackLint.Proofs.Parse.TypeExtent
import StackLint.Proofs.Parse.Annotation
import StackLint.Proofs.Parse.Brackets
import StackLint.Proofs.Parse.Restores
import StackLint.Proofs.Detection.Respelled
import StackLint.Proofs.Fixing.Diff
import StackLint.Proofs.Workspace.Settings
import StackLint.Proofs.Tree.Traversal
