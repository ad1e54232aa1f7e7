import BundleLedger.Bundle.Save
import BundleLedger.CommandLine.Command
import BundleLedger.CommandLine.Grammar
import BundleLedger.CommandLine.Invocation
import BundleLedger.CommandLine.Run
import BundleLedger.Decimal.Double
import BundleLedger.Decimal.Notation
import BundleLedger.Decimal.Shortest
import BundleLedger.Discovery.Pattern
import BundleLedger.Discovery.Search
import BundleLedger.Disk.Basic
import BundleLedger.Disk.Component
import BundleLedger.Disk.Operations
import BundleLedger.Engine.Command
import BundleLedger.Engine.Program
import BundleLedger.Engine.Table
import BundleLedger.Entries
import BundleLedger.Event
import BundleLedger.Failure
import BundleLedger.FilePath
import BundleLedger.Graph
import BundleLedger.Json.Decoder
import BundleLedger.Json.Escape
import BundleLedger.Json.Printer
import BundleLedger.Json.Tree
import BundleLedger.Json.Value
import BundleLedger.LoaderConfig.Basic
import BundleLedger.LoaderConfig.Location
import BundleLedger.LoaderConfig.Merge
import BundleLedger.LoaderConfig.Render
import BundleLedger.LoaderConfig.Source
import BundleLedger.Main
import BundleLedger.Manifest
import BundleLedger.ModuleName
import BundleLedger.Options.Assignments
import BundleLedger.Options.Basic
import BundleLedger.Options.File
import BundleLedger.Options.Quoted
import BundleLedger.Ownership
import BundleLedger.Proofs.Bundle.AllOrNothing
import BundleLedger.Proofs.Bundle.Places
import BundleLedger.Proofs.Bundle.RelativeSources
import BundleLedger.Proofs.Bundle.RelocatedSources
import BundleLedger.Proofs.Bundle.Saving
import BundleLedger.Proofs.CommandLine.SavedConfiguration
import BundleLedger.Proofs.ComponentClimb
import BundleLedger.Proofs.ComponentSelection
import BundleLedger.Proofs.Concurrency.Actions
import BundleLedger.Proofs.Concurrency.BulkRuns
import BundleLedger.Proofs.Concurrency.ComponentOutputs
import BundleLedger.Proofs.Concurrency.Coverage
import BundleLedger.Proofs.Concurrency.Disjointness
import BundleLedger.Proofs.Concurrency.EventLog
import BundleLedger.Proofs.Concurrency.Isolation
import BundleLedger.Proofs.Concurrency.LockOrder
import BundleLedger.Proofs.Concurrency.Machine
import BundleLedger.Proofs.Concurrency.Outputs
import BundleLedger.Proofs.Concurrency.Repetition
import BundleLedger.Proofs.Concurrency.Retention
import BundleLedger.Proofs.Containment
import BundleLedger.Proofs.Decimal.Integers
import BundleLedger.Proofs.Decimal.Marks
import BundleLedger.Proofs.Discovery.DeepSearch
import BundleLedger.Proofs.Discovery.Descent
import BundleLedger.Proofs.Discovery.EntryFiles
import BundleLedger.Proofs.Discovery.PlainPattern
import BundleLedger.Proofs.Discovery.SearchRoot
import BundleLedger.Proofs.Disk.Frame
import BundleLedger.Proofs.Disk.ReadBack
import BundleLedger.Proofs.EngineContract
import BundleLedger.Proofs.FilePath.Leading
import BundleLedger.Proofs.FilePath.PrefixBetween
import BundleLedger.Proofs.Json.Acceptance
import BundleLedger.Proofs.Json.DistinctKeys
import BundleLedger.Proofs.Json.Equality
import BundleLedger.Proofs.Json.Integers
import BundleLedger.Proofs.Json.ReadBack
import BundleLedger.Proofs.Json.Records
import BundleLedger.Proofs.KeyedAnswers
import BundleLedger.Proofs.Ledger
import BundleLedger.Proofs.LoaderFile.CallSequence
import BundleLedger.Proofs.LoaderFile.Collections
import BundleLedger.Proofs.LoaderFile.ConfigCall
import BundleLedger.Proofs.LoaderFile.DistinctKeys
import BundleLedger.Proofs.LoaderFile.Editing
import BundleLedger.Proofs.LoaderFile.Layout
import BundleLedger.Proofs.LoaderFile.Lines
import BundleLedger.Proofs.LoaderFile.Literals
import BundleLedger.Proofs.LoaderFile.RoundTrip
import BundleLedger.Proofs.LoaderFile.Unquoting
import BundleLedger.Proofs.LoaderFile.Values
import BundleLedger.Proofs.Location.Agreement
import BundleLedger.Proofs.Location.AliasChoice
import BundleLedger.Proofs.Location.EngineConfig
import BundleLedger.Proofs.NearestComponent
import BundleLedger.Proofs.OrderedEntries
import BundleLedger.Proofs.PackageLocations
import BundleLedger.Proofs.PackageSelection
import BundleLedger.Proofs.PlainPath
import BundleLedger.Proofs.Script.Operands
import BundleLedger.Proofs.Script.Reading
import BundleLedger.Proofs.Script.Tokens
import BundleLedger.Proofs.SelectedNames
import BundleLedger.Proofs.Session.Commits
import BundleLedger.Proofs.Session.GroupGraph
import BundleLedger.Proofs.Session.GroupsOfOne
import BundleLedger.Proofs.Text.Classes
import BundleLedger.Proofs.Text.Sorting
import BundleLedger.Proofs.WrittenForms
import BundleLedger.Script.Binding
import BundleLedger.Script.Class
import BundleLedger.Script.Collection
import BundleLedger.Script.Cursor
import BundleLedger.Script.Expr
import BundleLedger.Script.Expression
import BundleLedger.Script.Literal
import BundleLedger.Script.Program
import BundleLedger.Script.Statement
import BundleLedger.Script.Token
import BundleLedger.Selection
import BundleLedger.Session.Basic
import BundleLedger.Session.Operations
import BundleLedger.Session.Pipeline
import BundleLedger.Shell.Builtin
import BundleLedger.Shell.Machine
import BundleLedger.Shell.Pattern
import BundleLedger.Shell.Run
import BundleLedger.Shell.Syntax
import BundleLedger.Shell.Word
import BundleLedger.Text.Class.Alphanumeric
import BundleLedger.Text.Class.Identifier
import BundleLedger.Text.Class.Word
import BundleLedger.Text.Ranges
import BundleLedger.Text.Search
import BundleLedger.Text.Utf8
