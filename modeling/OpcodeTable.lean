import OpcodeTable.Main
import OpcodeTable.Settings.Value
import OpcodeTable.Proofs.Text.Printable
import OpcodeTable.Proofs.Decimal.Shortest
import OpcodeTable.Proofs.Yaml.Document
import OpcodeTable.Proofs.Text.Lines
import OpcodeTable.Proofs.Line
import OpcodeTable.Proofs.Source
import OpcodeTable.Proofs.Definition.Progress
import OpcodeTable.Proofs.Definition.Change
import OpcodeTable.Proofs.Definition.Consistency
import OpcodeTable.Proofs.Definition.Parse
import OpcodeTable.Proofs.Definition.Report
import OpcodeTable.Proofs.Output.Literal
import OpcodeTable.Proofs.Output.Reader
import OpcodeTable.Proofs.Output.Readback
import OpcodeTable.Proofs.Output.Lossless
import OpcodeTable.Proofs.Output.Table
import OpcodeTable.Proofs.Source.Append
import OpcodeTable.Proofs.Definition.Append
import OpcodeTable.Proofs.Text.Removal
import OpcodeTable.Proofs.Source.Removal
import OpcodeTable.Proofs.Definition.Removal
import OpcodeTable.Proofs.Source.Statements
import OpcodeTable.Proofs.Output.Statements
import OpcodeTable.Proofs.Files
import OpcodeTable.Proofs.Run.Stage
import OpcodeTable.Proofs.Run.Sources
import OpcodeTable.Proofs.Run.Outcome
import OpcodeTable.Proofs.Text.Words
import OpcodeTable.Proofs.Text.Contents
import OpcodeTable.Proofs.Source.Modes
import OpcodeTable.Proofs.Definition.Modes
import OpcodeTable.Proofs.Output.Comments
import OpcodeTable.Proofs.Definition.Lookup
import OpcodeTable.Proofs.Definition.Terminators
import OpcodeTable.Proofs.Run.Diagnostics
import OpcodeTable.Proofs.Run.Observers
import OpcodeTable.Proofs.Line.Grammar
import OpcodeTable.Proofs.Output.Columns
import OpcodeTable.Proofs.Output.Escape
import OpcodeTable.Proofs.Definition.Size
import OpcodeTable.Proofs.Output.Capacity
import OpcodeTable.Proofs.Text.Numeral
import OpcodeTable.Proofs.Output.Listing
import OpcodeTable.Proofs.Output.Listing.Columns
import OpcodeTable.Proofs.Output.Returns
import OpcodeTable.Proofs.Output.Names
