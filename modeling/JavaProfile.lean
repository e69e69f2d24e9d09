import JavaProfile.Architecture.Decision
import JavaProfile.Architecture.Module
import JavaProfile.Architecture.Score
import JavaProfile.Architecture.Style
import JavaProfile.Command.Line
import JavaProfile.Command.Run
import JavaProfile.Command.Usage
import JavaProfile.Confidence.Basic
import JavaProfile.Confidence.Level
import JavaProfile.Confidence.Measured
import JavaProfile.Convention.Entity
import JavaProfile.Convention.Handling
import JavaProfile.Convention.Kind
import JavaProfile.Convention.Library
import JavaProfile.Convention.Naming
import JavaProfile.Convention.Testing
import JavaProfile.Digest.Sha256
import JavaProfile.Json.Display
import JavaProfile.Json.Letter
import JavaProfile.Json.Plain
import JavaProfile.Json.Reader
import JavaProfile.Json.Refusal
import JavaProfile.Json.Value
import JavaProfile.Json.Writer
import JavaProfile.Labelled
import JavaProfile.Main
import JavaProfile.Number.Basic
import JavaProfile.Number.Binary64
import JavaProfile.Number.Decimal
import JavaProfile.Number.Format
import JavaProfile.Number.Power
import JavaProfile.Number.Rounding
import JavaProfile.Number.Shortest
import JavaProfile.Package.Base
import JavaProfile.Package.Name
import JavaProfile.Profile.Basic
import JavaProfile.Profile.Document
import JavaProfile.Profile.Field
import JavaProfile.Profile.Layout
import JavaProfile.Profile.Lock
import JavaProfile.Profile.Summary
import JavaProfile.Project.Basic
import JavaProfile.Project.Detect
import JavaProfile.Proofs.Architecture.Counted
import JavaProfile.Proofs.Architecture.Decision
import JavaProfile.Proofs.Architecture.Evidence
import JavaProfile.Proofs.Architecture.Exact
import JavaProfile.Proofs.Architecture.Module
import JavaProfile.Proofs.Architecture.Planned
import JavaProfile.Proofs.Architecture.Ranked
import JavaProfile.Proofs.Command.Lock
import JavaProfile.Proofs.Command.Reply
import JavaProfile.Proofs.Convention.Entity
import JavaProfile.Proofs.Greatest
import JavaProfile.Proofs.Json.Accepted
import JavaProfile.Proofs.Json.Letter
import JavaProfile.Proofs.Json.Plain
import JavaProfile.Proofs.Json.Reader
import JavaProfile.Proofs.Number.Arithmetic
import JavaProfile.Proofs.Number.Count
import JavaProfile.Proofs.Number.Nearest
import JavaProfile.Proofs.Number.Numeral
import JavaProfile.Proofs.Number.Order
import JavaProfile.Proofs.Number.Shortest
import JavaProfile.Proofs.Package.Base
import JavaProfile.Proofs.Package.Name
import JavaProfile.Proofs.Profile.Bond
import JavaProfile.Proofs.Profile.Carry
import JavaProfile.Proofs.Profile.Document
import JavaProfile.Proofs.Profile.Field
import JavaProfile.Proofs.Profile.Lock
import JavaProfile.Proofs.Profile.Placed
import JavaProfile.Proofs.Profile.Plan
import JavaProfile.Proofs.Profile.Unlock
import JavaProfile.Proofs.Project.Beside
import JavaProfile.Proofs.Project.Contents
import JavaProfile.Proofs.Project.Injective
import JavaProfile.Proofs.Project.Listing
import JavaProfile.Proofs.Project.OnDisk
import JavaProfile.Proofs.Project.Presented
import JavaProfile.Proofs.Project.Reached
import JavaProfile.Proofs.Project.Reordered
import JavaProfile.Proofs.Project.SetsApart
import JavaProfile.Proofs.Project.Sources
import JavaProfile.Proofs.Run.Again
import JavaProfile.Proofs.Run.Coherent
import JavaProfile.Proofs.Run.Current
import JavaProfile.Proofs.Run.HalfSave
import JavaProfile.Proofs.Run.Interleaving
import JavaProfile.Proofs.Run.Lifetime
import JavaProfile.Proofs.Run.Loaded
import JavaProfile.Proofs.Run.Lock
import JavaProfile.Proofs.Run.Noticed
import JavaProfile.Proofs.Run.Plain
import JavaProfile.Proofs.Run.Relock
import JavaProfile.Proofs.Run.Testing
import JavaProfile.Proofs.Run.Unlock
import JavaProfile.Proofs.Run.Use
import JavaProfile.Proofs.Run.Visit
import JavaProfile.Proofs.Schema.Codec
import JavaProfile.Proofs.Schema.Refusal
import JavaProfile.Proofs.Source.Body
import JavaProfile.Proofs.Source.Brace
import JavaProfile.Proofs.Source.Brackets
import JavaProfile.Proofs.Source.Clause
import JavaProfile.Proofs.Source.Dropped
import JavaProfile.Proofs.Source.Header
import JavaProfile.Proofs.Source.Reading
import JavaProfile.Proofs.Source.Statements
import JavaProfile.Proofs.Source.TypeList
import JavaProfile.Proofs.Store.Digest
import JavaProfile.Proofs.Store.Failure
import JavaProfile.Proofs.Store.Keep
import JavaProfile.Proofs.Store.Linked
import JavaProfile.Proofs.Store.Load
import JavaProfile.Proofs.Store.Moment
import JavaProfile.Proofs.Store.Plain
import JavaProfile.Proofs.Store.Root
import JavaProfile.Proofs.Store.Save
import JavaProfile.Proofs.Store.Use
import JavaProfile.Proofs.Store.Valid
import JavaProfile.Proofs.Store.Whole
import JavaProfile.Proofs.Text.Split
import JavaProfile.Proofs.Text.Utf8
import JavaProfile.Proofs.Time.Hours
import JavaProfile.Proofs.Time.Timestamp
import JavaProfile.Proofs.Tool.Scores
import JavaProfile.Proofs.Tool.Timing
import JavaProfile.Proofs.Tree.Answering
import JavaProfile.Proofs.Tree.Apart
import JavaProfile.Proofs.Tree.Calls
import JavaProfile.Proofs.Tree.CallsOnDisk
import JavaProfile.Proofs.Tree.Disk
import JavaProfile.Proofs.Tree.Effects
import JavaProfile.Proofs.Tree.Folder
import JavaProfile.Proofs.Tree.FolderInMemory
import JavaProfile.Proofs.Tree.FolderOnDisk
import JavaProfile.Proofs.Tree.Keys
import JavaProfile.Proofs.Tree.Lawful
import JavaProfile.Proofs.Tree.Names
import JavaProfile.Proofs.Tree.Order
import JavaProfile.Proofs.Tree.Overwriting
import JavaProfile.Proofs.Tree.Recorded
import JavaProfile.Proofs.Tree.Walking
import JavaProfile.Proofs.Work.Run
import JavaProfile.Schema.Codec
import JavaProfile.Schema.Issue
import JavaProfile.Schema.Numeral
import JavaProfile.Schema.Scalar
import JavaProfile.Settings
import JavaProfile.Source.Brackets
import JavaProfile.Source.Category
import JavaProfile.Source.Classify
import JavaProfile.Source.Document
import JavaProfile.Source.File
import JavaProfile.Source.Header
import JavaProfile.Source.Marker
import JavaProfile.Source.Scan
import JavaProfile.Source.Statement
import JavaProfile.Source.TypeList
import JavaProfile.Store.Basic
import JavaProfile.Store.Checksum
import JavaProfile.Store.Info
import JavaProfile.Store.Save
import JavaProfile.Text.Blank
import JavaProfile.Text.ControlSequence
import JavaProfile.Text.Digit
import JavaProfile.Text.Line
import JavaProfile.Text.Lower
import JavaProfile.Text.Printable
import JavaProfile.Text.Quoted
import JavaProfile.Text.Range
import JavaProfile.Text.Search
import JavaProfile.Text.Similar
import JavaProfile.Text.Split
import JavaProfile.Text.Utf8
import JavaProfile.Text.Word
import JavaProfile.Time.Date
import JavaProfile.Time.Duration
import JavaProfile.Time.Reading
import JavaProfile.Time.Timestamp
import JavaProfile.Tool.Definition
import JavaProfile.Tool.Dispatch
import JavaProfile.Tool.Timing
import JavaProfile.Tree.Basic
import JavaProfile.Tree.Change
import JavaProfile.Tree.Disk
import JavaProfile.Tree.Disk.Edit
import JavaProfile.Tree.Disk.Place
import JavaProfile.Tree.Disk.RealPath
import JavaProfile.Tree.Disk.Walk
import JavaProfile.Tree.Guarded
import JavaProfile.Tree.Memory
import JavaProfile.Tree.Path
import JavaProfile.Work.Failure
import JavaProfile.Work.Log
import JavaProfile.Work.Outcome
import JavaProfile.Work.Session
