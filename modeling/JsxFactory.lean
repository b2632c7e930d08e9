import JsxFactory.CommandLine.Arguments
import JsxFactory.CommandLine.Directory
import JsxFactory.CommandLine.Outcome
import JsxFactory.CommandLine.Prepared
import JsxFactory.CommandLine.Run
import JsxFactory.Desugar
import JsxFactory.Desugar.Error
import JsxFactory.Diagnostic
import JsxFactory.Estree.Error
import JsxFactory.Estree.Reader
import JsxFactory.Estree.Writer
import JsxFactory.Json
import JsxFactory.Json.Parser
import JsxFactory.Json.Printer
import JsxFactory.Main
import JsxFactory.Node
import JsxFactory.Number
import JsxFactory.Number.Double
import JsxFactory.Number.Shortest
import JsxFactory.Options
import JsxFactory.Options.Error
import JsxFactory.Options.Reader
import JsxFactory.Program
import JsxFactory.Program.Lowering
import JsxFactory.Program.Reader
import JsxFactory.Proofs.Building
import JsxFactory.Proofs.Calls
import JsxFactory.Proofs.Canonical
import JsxFactory.Proofs.Counting
import JsxFactory.Proofs.Course
import JsxFactory.Proofs.Depth
import JsxFactory.Proofs.Desugaring
import JsxFactory.Proofs.Drafts
import JsxFactory.Proofs.Edges
import JsxFactory.Proofs.Elements
import JsxFactory.Proofs.Entering
import JsxFactory.Proofs.Evolving
import JsxFactory.Proofs.Folding
import JsxFactory.Proofs.Footprint
import JsxFactory.Proofs.Framing
import JsxFactory.Proofs.Grammar
import JsxFactory.Proofs.Invocations
import JsxFactory.Proofs.Logging
import JsxFactory.Proofs.Lowering
import JsxFactory.Proofs.Outcome
import JsxFactory.Proofs.Ownership
import JsxFactory.Proofs.Parentheses
import JsxFactory.Proofs.Plain
import JsxFactory.Proofs.Preorder
import JsxFactory.Proofs.Printing
import JsxFactory.Proofs.Pruning
import JsxFactory.Proofs.Reading
import JsxFactory.Proofs.References
import JsxFactory.Proofs.Renewing
import JsxFactory.Proofs.Reports
import JsxFactory.Proofs.Rereading
import JsxFactory.Proofs.Rerunning
import JsxFactory.Proofs.Respelling
import JsxFactory.Proofs.Retracing
import JsxFactory.Proofs.Routes
import JsxFactory.Proofs.SafeEntering
import JsxFactory.Proofs.SafeWalking
import JsxFactory.Proofs.Shapes
import JsxFactory.Proofs.Sources
import JsxFactory.Proofs.Storing
import JsxFactory.Proofs.Subterms
import JsxFactory.Proofs.Trimming
import JsxFactory.Proofs.Verdicts
import JsxFactory.Proofs.Walking
import JsxFactory.Proofs.Watching
import JsxFactory.Proofs.WellOwned
import JsxFactory.Script.Form
import JsxFactory.Script.Rule
import JsxFactory.Script.Session
import JsxFactory.Script.Step
import JsxFactory.Term
import JsxFactory.Text.Capital
import JsxFactory.Text.Entity
import JsxFactory.Text.Entity.Names
import JsxFactory.Text.Hidden
import JsxFactory.Text.Quoted
import JsxFactory.Text.Whitespace
import JsxFactory.Tree
import JsxFactory.Tree.Lowering
import JsxFactory.Tree.Reader
import JsxFactory.Tree.Term
import JsxFactory.Walk
