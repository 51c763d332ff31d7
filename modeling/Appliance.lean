import Appliance.Json.Reader
import Appliance.Main
import Appliance.Proofs.Entries.Distinct
import Appliance.Proofs.Entries.Values
import Appliance.Proofs.Words
import Appliance.Proofs.Ports
import Appliance.Proofs.Interface
import Appliance.Proofs.Document.Settled
import Appliance.Proofs.Interface.Overlay
import Appliance.Proofs.Parameters
import Appliance.Proofs.Document.Reapplied
import Appliance.Proofs.Document.ClosedPorts
import Appliance.Proofs.Document.Content
import Appliance.Proofs.Toml.Number
import Appliance.Proofs.Toml.Quoted
import Appliance.Proofs.Toml.Value
import Appliance.Proofs.Toml.Line
import Appliance.Proofs.Toml.Assembly
import Appliance.Proofs.Toml.Printer
import Appliance.Proofs.Schema.Codec
import Appliance.Proofs.Schema.Record
import Appliance.Proofs.Document.Schema
import Appliance.Proofs.Document.Text
import Appliance.Proofs.Toml.Range
import Appliance.Proofs.Document.Neutral
import Appliance.Proofs.Document.Doubled
import Appliance.Proofs.Files.Host
import Appliance.Proofs.Layers
import Appliance.Proofs.Files.Path
import Appliance.Proofs.Files.Tree
import Appliance.Proofs.Files.Walk
import Appliance.Proofs.Files.Folder
import Appliance.Proofs.Files.Making
import Appliance.Proofs.Repository.KeyRing
import Appliance.Proofs.Repository.KeyStore
import Appliance.Proofs.Repository.Serving
import Appliance.Proofs.Document.Precedence
import Appliance.Proofs.Document.Writable
import Appliance.Proofs.Files.Written
import Appliance.Proofs.Stored
import Appliance.Proofs.Command
import Appliance.Proofs.Json.Quoted
import Appliance.Proofs.Json.Value
import Appliance.Proofs.Json.Printer
import Appliance.Proofs.Schema.Json
import Appliance.Proofs.Document.Json
import Appliance.Proofs.Decimal.Rounding
import Appliance.Proofs.Decimal.Shortest
import Appliance.Proofs.Json.Integer
import Appliance.Proofs.Document.Canonical
import Appliance.Proofs.Interface.Turns
import Appliance.Proofs.Document.Dating
import Appliance.Proofs.Files.Siblings
import Appliance.Proofs.Repository.Failures
import Appliance.Proofs.Entries.Position
import Appliance.Proofs.Document.Added
import Appliance.Proofs.Document.Interfaces
import Appliance.Proofs.Entries.Nearest
import Appliance.Proofs.Text.Spans
import Appliance.Proofs.Size.Grammar
import Appliance.Proofs.Size.Units
import Appliance.Proofs.Repository.Pushes
import Appliance.Proofs.Records
import Appliance.Proofs.Document.Grouping
import Appliance.Proofs.Words.Spacing
import Appliance.Proofs.Repository.Target
import Appliance.Proofs.Schema.Gap
import Appliance.Proofs.Document.PackageDate
