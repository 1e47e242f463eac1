import Setters.Expr.JsonReader
import Setters.Main
import Setters.Schema.JsonWriter
import Setters.Proofs.Declarations
import Setters.Proofs.Expansion
import Setters.Proofs.Expr.SortByName
import Setters.Proofs.Text.ByteOrder
import Setters.Proofs.Validation
import Setters.Proofs.Compilation.Agreement
import Setters.Proofs.Compilation.WellFormed
import Setters.Proofs.Compilation.Listing
import Setters.Proofs.Schema.Assembly
import Setters.Proofs.Json.Reading
import Setters.Proofs.Schema.Decoding
import Setters.Proofs.Json.Reordering
import Setters.Proofs.Schema.Reordering
import Setters.Proofs.Compilation.Order
import Setters.Proofs.Building.Call
import Setters.Proofs.Json.Printed
import Setters.Proofs.Json.Accepted
import Setters.Proofs.Json.Layout
import Setters.Proofs.Json.Limits
import Setters.Proofs.Json.Truncation
import Setters.Proofs.Schema.Records
import Setters.Proofs.Schema.Grammar
import Setters.Proofs.Schema.Judging
import Setters.Proofs.Schema.Acceptance
import Setters.Proofs.Schema.AsField
import Setters.Proofs.Schema.Limits
import Setters.Proofs.TargetPath
import Setters.Proofs.TargetPath.Reading
import Setters.Proofs.TargetPath.Composition
import Setters.Proofs.Schema.RoundTrip
import Setters.Proofs.Json.Plain
import Setters.Proofs.Expr.Decoding
import Setters.Proofs.Expr.RoundTrip
import Setters.Proofs.Expr.ForeignMembers
import Setters.Proofs.Compilation.Navigation
import Setters.Proofs.Compilation.Documentation
import Setters.Proofs.Compilation.Shape
import Setters.Proofs.Compilation.Size
import Setters.Proofs.FilePath
import Setters.Proofs.FileTree
import Setters.Proofs.CommandLine.Compiling
import Setters.Proofs.CommandLine.Naming
import Setters.Proofs.CommandLine.Rendering
import Setters.Proofs.CommandLine.Validating
import Setters.Proofs.Document.Loaders
import Setters.Proofs.Document.Whole
