import NetDesc.Tree.Token
import NetDesc.Decimal.Layout
import NetDesc.Decimal.Numeral
import NetDesc.Text.Line
import NetDesc.Text.Shown
import NetDesc.Tree.Reader
import NetDesc.Tree.Printer
import NetDesc.Tree.Shared
import NetDesc.Json.Basic
import NetDesc.Tree.Description
import NetDesc.Record.Schema
import NetDesc.Record.Basic
import NetDesc.Record.Tree
import NetDesc.Json.Writer
import NetDesc.Json.Reader
import NetDesc.Layer.Kind
import NetDesc.Layer.Tree
import NetDesc.Layer.Stream
import NetDesc.Settings
import NetDesc.Binding
import NetDesc.Network.Layers
import NetDesc.Network.Training
import NetDesc.Network.Heading
import NetDesc.Network.Running
import NetDesc.Network.Rebinding
import NetDesc.Network.Sources
import NetDesc.Network.Lookup
import NetDesc.Solver
import NetDesc.Project
import NetDesc.Yaml.Meaning
import NetDesc.Yaml.Writer
import NetDesc.File
import NetDesc.CommandLine.Run
import NetDesc.Main
import NetDesc.Proofs.Layer.Stream
import NetDesc.Proofs.Tree.RoundTrip
import NetDesc.Proofs.Network.Training
import NetDesc.Proofs.Network.Idempotence
import NetDesc.Proofs.Network.Running
import NetDesc.Proofs.Project
import NetDesc.Proofs.Layer.Tree
import NetDesc.Proofs.Network.Sources
import NetDesc.Proofs.Network.SourceNames
import NetDesc.Proofs.Network.Apart
import NetDesc.Proofs.Network.Whole
import NetDesc.Proofs.Project.Sources
import NetDesc.Proofs.Tree.Descent
import NetDesc.Proofs.Layer.Legal
import NetDesc.Proofs.Layer.Normal
import NetDesc.Proofs.Layer.Truncation
import NetDesc.Proofs.Network.LegacyKey
import NetDesc.Proofs.Network.Rules
import NetDesc.Proofs.Network.RoundTrip
import NetDesc.Proofs.Network.Limits
import NetDesc.Proofs.Network.Completed
import NetDesc.Proofs.Network.Phases
import NetDesc.Proofs.Network.Named
import NetDesc.Proofs.Network.Lookup
import NetDesc.Proofs.Network.Batches
import NetDesc.Proofs.Network.DataBlock
import NetDesc.Proofs.Network.Edited
import NetDesc.Proofs.Tree.Concatenation
import NetDesc.Proofs.Layer.Rearrangement
import NetDesc.Proofs.Solver
import NetDesc.Proofs.Layer.Refusal
import NetDesc.Proofs.Record.WholeNumbers
import NetDesc.Proofs.Stream.Primitive
