import DebugMap.ClassName
import DebugMap.Config.Basic
import DebugMap.Config.Error
import DebugMap.Config.Load
import DebugMap.Dialogue
import DebugMap.Error
import DebugMap.Files.Tree
import DebugMap.Index.Basic
import DebugMap.Index.Postings
import DebugMap.Log
import DebugMap.Manager
import DebugMap.Number.Binary64
import DebugMap.Number.Shortest
import DebugMap.Position
import DebugMap.Proofs.ClassName.Descriptor
import DebugMap.Proofs.ClassName.Grammar
import DebugMap.Proofs.ClassName.Idempotence
import DebugMap.Proofs.Index.Entries
import DebugMap.Proofs.Index.Records
import DebugMap.Proofs.Index.Scan
import DebugMap.Proofs.Index.Updates
import DebugMap.Proofs.Index.Upkeep
import DebugMap.Proofs.Manager.Deferred
import DebugMap.Proofs.Manager.Rejection
import DebugMap.Proofs.Manager.Snapshot
import DebugMap.Proofs.Manager.Working
import DebugMap.Proofs.Position.Element
import DebugMap.Proofs.Position.Gutter
import DebugMap.Proofs.Query.Agreement
import DebugMap.Proofs.Query.Ambiguity
import DebugMap.Proofs.Query.Candidates
import DebugMap.Proofs.Query.Order
import DebugMap.Proofs.Query.Reading
import DebugMap.Proofs.Query.Result
import DebugMap.Proofs.Query.RoundTrip
import DebugMap.Proofs.Query.Scan
import DebugMap.Proofs.Query.ShownLine
import DebugMap.Proofs.Smali.Layout
import DebugMap.Proofs.Smali.Lookup
import DebugMap.Proofs.Smali.WellFormed
import DebugMap.Proofs.Smali.Writer
import DebugMap.Proofs.Store.Edits
import DebugMap.Proofs.Store.Lookup
import DebugMap.Proofs.Text.Lines
import DebugMap.Proofs.Text.Splitting
import DebugMap.Proofs.Watch.Alone
import DebugMap.Proofs.Watch.Arming
import DebugMap.Proofs.Watch.Batch
import DebugMap.Proofs.Watch.Causes
import DebugMap.Proofs.Watch.Custody
import DebugMap.Proofs.Watch.Delivery
import DebugMap.Proofs.Watch.Detach
import DebugMap.Proofs.Watch.Invariant
import DebugMap.Proofs.Watch.Ledger
import DebugMap.Proofs.Watch.OneShot
import DebugMap.Proofs.Watch.Origin
import DebugMap.Proofs.Watch.Overtaking
import DebugMap.Proofs.Watch.Refusal
import DebugMap.Proofs.Watch.Registration
import DebugMap.Proofs.Watch.Session
import DebugMap.Proofs.Watch.Slots
import DebugMap.Proofs.Watch.Steps
import DebugMap.Proofs.Watch.Waiting
import DebugMap.Query.Basic
import DebugMap.Query.Locations
import DebugMap.Query.SourcePosition
import DebugMap.Query.Target
import DebugMap.Runtime
import DebugMap.Simulation
import DebugMap.Smali.Basic
import DebugMap.Smali.Listing
import DebugMap.Smali.Writer
import DebugMap.Store
import DebugMap.Text.Blank
import DebugMap.Text.Hidden
import DebugMap.Text.Lines
import DebugMap.Text.Quoted
import DebugMap.Text.Range
import DebugMap.Text.Segments
import DebugMap.Toml.DateTime
import DebugMap.Toml.Document
import DebugMap.Toml.Number
import DebugMap.Toml.Reader
import DebugMap.Toml.Text
import DebugMap.Toml.Value
import DebugMap.Watch.Basic
import DebugMap.Watch.Machine
import DebugMap.Watch.Run
