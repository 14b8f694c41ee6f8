import RpcSchema.Binary64.Basic
import RpcSchema.Binary64.Decimal
import RpcSchema.Cli.Arguments
import RpcSchema.Cli.Command
import RpcSchema.Cli.Config
import RpcSchema.Cli.Host
import RpcSchema.Cli.Load
import RpcSchema.Codegen.Backend
import RpcSchema.Codegen.Config
import RpcSchema.Codegen.Error
import RpcSchema.Codegen.Naming
import RpcSchema.Codegen.Options
import RpcSchema.Codegen.Outline
import RpcSchema.Codegen.Registry
import RpcSchema.Codegen.TypeScript.Client
import RpcSchema.Codegen.TypeScript.Declaration
import RpcSchema.Codegen.TypeScript.DocComment
import RpcSchema.Codegen.TypeScript.Expression
import RpcSchema.Definition.Basic
import RpcSchema.Definition.Check
import RpcSchema.Document.Error
import RpcSchema.Document.Format
import RpcSchema.Document.FromJson
import RpcSchema.Document.FromText
import RpcSchema.Entries
import RpcSchema.Files.Error
import RpcSchema.Files.Location
import RpcSchema.Files.System
import RpcSchema.Json.Basic
import RpcSchema.Json.Pointer
import RpcSchema.Json.Reader
import RpcSchema.Json.Syntax
import RpcSchema.Json.Writer
import RpcSchema.Main
import RpcSchema.Path
import RpcSchema.Procedure.Basic
import RpcSchema.Procedure.Tree
import RpcSchema.Proofs.Binary64
import RpcSchema.Proofs.Cache.History
import RpcSchema.Proofs.Cache.Key
import RpcSchema.Proofs.Calendar
import RpcSchema.Proofs.Cli.Delivery
import RpcSchema.Proofs.Cli.Generate
import RpcSchema.Proofs.Codegen.Building
import RpcSchema.Proofs.Codegen.Classes
import RpcSchema.Proofs.Codegen.Client
import RpcSchema.Proofs.Codegen.ClientNames
import RpcSchema.Proofs.Codegen.Declarations
import RpcSchema.Proofs.Codegen.DeclaredOnce
import RpcSchema.Proofs.Codegen.DocComment
import RpcSchema.Proofs.Codegen.Located
import RpcSchema.Proofs.Codegen.Occurrences
import RpcSchema.Proofs.Codegen.Passes
import RpcSchema.Proofs.Codegen.Prefixes
import RpcSchema.Proofs.Codegen.Registering
import RpcSchema.Proofs.Codegen.SchemaPaths
import RpcSchema.Proofs.Codegen.StrictNames
import RpcSchema.Proofs.Codegen.Succeeding
import RpcSchema.Proofs.Codegen.TypeStructure
import RpcSchema.Proofs.Codegen.TypeSyntax
import RpcSchema.Proofs.Codegen.UsedTypes
import RpcSchema.Proofs.Definition.Checked
import RpcSchema.Proofs.Definition.Faults
import RpcSchema.Proofs.Definition.ListsOnce
import RpcSchema.Proofs.Definition.RoundTrip
import RpcSchema.Proofs.Digits
import RpcSchema.Proofs.Document
import RpcSchema.Proofs.Effect
import RpcSchema.Proofs.Entries
import RpcSchema.Proofs.Files.Growth
import RpcSchema.Proofs.Json.Compact
import RpcSchema.Proofs.Json.Induction
import RpcSchema.Proofs.Json.Pointer
import RpcSchema.Proofs.Json.Quotes
import RpcSchema.Proofs.Json.Rearranged
import RpcSchema.Proofs.Outcome
import RpcSchema.Proofs.Path
import RpcSchema.Proofs.Procedure.Adding
import RpcSchema.Proofs.Procedure.DefaultPath
import RpcSchema.Proofs.Procedure.Finding
import RpcSchema.Proofs.Procedure.Flatten
import RpcSchema.Proofs.Procedure.Leaves
import RpcSchema.Proofs.Procedure.Levels
import RpcSchema.Proofs.Procedure.Rebuilding
import RpcSchema.Proofs.Procedure.Tree
import RpcSchema.Proofs.Program.Accepting
import RpcSchema.Proofs.Program.Agreement
import RpcSchema.Proofs.Program.Arranging
import RpcSchema.Proofs.Program.Asking
import RpcSchema.Proofs.Program.Budget
import RpcSchema.Proofs.Program.Coincide
import RpcSchema.Proofs.Program.Collecting
import RpcSchema.Proofs.Program.Collector
import RpcSchema.Proofs.Program.Compiling
import RpcSchema.Proofs.Program.Congruence
import RpcSchema.Proofs.Program.Converting
import RpcSchema.Proofs.Program.Decoding
import RpcSchema.Proofs.Program.Defaults
import RpcSchema.Proofs.Program.Discovery
import RpcSchema.Proofs.Program.Encoding
import RpcSchema.Proofs.Program.Ending
import RpcSchema.Proofs.Program.ErrorPlaces
import RpcSchema.Proofs.Program.Furnished
import RpcSchema.Proofs.Program.Image
import RpcSchema.Proofs.Program.Induction
import RpcSchema.Proofs.Program.Inlining
import RpcSchema.Proofs.Program.Instants
import RpcSchema.Proofs.Program.KeyOrder
import RpcSchema.Proofs.Program.LenientAgreement
import RpcSchema.Proofs.Program.LenientErrors
import RpcSchema.Proofs.Program.LenientOutput
import RpcSchema.Proofs.Program.LenientParts
import RpcSchema.Proofs.Program.LenientWalk
import RpcSchema.Proofs.Program.Lowering
import RpcSchema.Proofs.Program.Malformed
import RpcSchema.Proofs.Program.Matching
import RpcSchema.Proofs.Program.Mentions
import RpcSchema.Proofs.Program.Normal
import RpcSchema.Proofs.Program.Pieces
import RpcSchema.Proofs.Program.Places
import RpcSchema.Proofs.Program.Positions
import RpcSchema.Proofs.Program.Reachable
import RpcSchema.Proofs.Program.Regular
import RpcSchema.Proofs.Program.RoundTrip
import RpcSchema.Proofs.Program.Sections
import RpcSchema.Proofs.Program.Swapping
import RpcSchema.Proofs.Program.Table
import RpcSchema.Proofs.Program.Termination
import RpcSchema.Proofs.Program.Undeclared
import RpcSchema.Proofs.Program.Walks
import RpcSchema.Proofs.Report
import RpcSchema.Proofs.Scalar
import RpcSchema.Proofs.ScalarRoundTrip
import RpcSchema.Proofs.Schema.Closed
import RpcSchema.Proofs.Schema.Failing
import RpcSchema.Proofs.Schema.Faults
import RpcSchema.Proofs.Schema.Fingerprint
import RpcSchema.Proofs.Schema.Induction
import RpcSchema.Proofs.Schema.Nodes
import RpcSchema.Proofs.Schema.Rules
import RpcSchema.Proofs.Schema.Taken
import RpcSchema.Proofs.Schema.Targets
import RpcSchema.Proofs.Schema.WireFormat
import RpcSchema.Proofs.Text.Case
import RpcSchema.Proofs.Text.Words
import RpcSchema.Proofs.Timestamp
import RpcSchema.Schema.Basic
import RpcSchema.Schema.Error
import RpcSchema.Schema.Keywords
import RpcSchema.Schema.ScalarKind
import RpcSchema.Schema.Wire
import RpcSchema.Text.Blank
import RpcSchema.Text.Case
import RpcSchema.Text.Case.Table
import RpcSchema.Text.Cluster
import RpcSchema.Text.Cluster.Table
import RpcSchema.Text.CodeRanges
import RpcSchema.Text.Numeral
import RpcSchema.Text.Quoted
import RpcSchema.Text.Quoted.Table
import RpcSchema.Text.Scan
import RpcSchema.Text.Split
import RpcSchema.Text.Words
import RpcSchema.Timestamp.Basic
import RpcSchema.Timestamp.Reader
import RpcSchema.Timestamp.Writer
import RpcSchema.Toml.Reader
import RpcSchema.Toml.Scalar
import RpcSchema.Toml.Value
import RpcSchema.Validator.Basic
import RpcSchema.Validator.Cache
import RpcSchema.Validator.Decode
import RpcSchema.Validator.Encode
import RpcSchema.Validator.Guard
import RpcSchema.Validator.Lenient
import RpcSchema.Validator.Lowering
import RpcSchema.Validator.Program
import RpcSchema.Validator.Report
import RpcSchema.Validator.Scalar
import RpcSchema.Validator.ValueError
import RpcSchema.Value
