import TypeLineage.Archive
import TypeLineage.Archive.Checksum
import TypeLineage.Archive.Deflate
import TypeLineage.Archive.Directory
import TypeLineage.Archive.EntryName
import TypeLineage.Archive.Number
import TypeLineage.Classpath
import TypeLineage.Classpath.Reader
import TypeLineage.Classpath.Resolution
import TypeLineage.Classpath.Root
import TypeLineage.CommandLine.Help
import TypeLineage.CommandLine.Parse
import TypeLineage.CommandLine.Program
import TypeLineage.CommandLine.Spec
import TypeLineage.CommandLine.Usage
import TypeLineage.Digest.Sha256
import TypeLineage.Engine.Readers
import TypeLineage.Engine.Run
import TypeLineage.Engine.Search
import TypeLineage.Engine.State
import TypeLineage.Engine.Walk
import TypeLineage.Fact
import TypeLineage.Fact.Cache
import TypeLineage.Fact.Table
import TypeLineage.Files.Disk
import TypeLineage.Files.Glob
import TypeLineage.Files.Ignore
import TypeLineage.Files.Path
import TypeLineage.Files.SourceJars
import TypeLineage.Java.Header
import TypeLineage.Java.Item
import TypeLineage.Java.Token
import TypeLineage.Java.Unit
import TypeLineage.Json.Double
import TypeLineage.Json.Fault
import TypeLineage.Json.Reader
import TypeLineage.Json.Shortest
import TypeLineage.Json.Tagged
import TypeLineage.Json.Value
import TypeLineage.Json.Writer
import TypeLineage.Log
import TypeLineage.Main
import TypeLineage.Proofs.Classpath.Batch
import TypeLineage.Proofs.Classpath.Confinement
import TypeLineage.Proofs.Classpath.FirstRoot
import TypeLineage.Proofs.Classpath.History
import TypeLineage.Proofs.Classpath.Indifference
import TypeLineage.Proofs.Classpath.Listing
import TypeLineage.Proofs.Classpath.Members
import TypeLineage.Proofs.Classpath.Names
import TypeLineage.Proofs.Classpath.Packing
import TypeLineage.Proofs.Classpath.Padding
import TypeLineage.Proofs.Classpath.Precedence
import TypeLineage.Proofs.Classpath.Probes
import TypeLineage.Proofs.Classpath.Sealed
import TypeLineage.Proofs.Classpath.Siblings
import TypeLineage.Proofs.Classpath.Spellings
import TypeLineage.Proofs.Classpath.Still
import TypeLineage.Proofs.Classpath.View
import TypeLineage.Proofs.CommandLine.Outcome
import TypeLineage.Proofs.CommandLine.Repository
import TypeLineage.Proofs.CommandLine.Sources
import TypeLineage.Proofs.Engine.Account
import TypeLineage.Proofs.Engine.Answers
import TypeLineage.Proofs.Engine.Apart
import TypeLineage.Proofs.Engine.Calm
import TypeLineage.Proofs.Engine.Cleanup
import TypeLineage.Proofs.Engine.Counters
import TypeLineage.Proofs.Engine.Coupling
import TypeLineage.Proofs.Engine.Economy
import TypeLineage.Proofs.Engine.Entries
import TypeLineage.Proofs.Engine.Epoch
import TypeLineage.Proofs.Engine.Handling
import TypeLineage.Proofs.Engine.Hearsay
import TypeLineage.Proofs.Engine.Image
import TypeLineage.Proofs.Engine.Index
import TypeLineage.Proofs.Engine.Isolation
import TypeLineage.Proofs.Engine.Lifecycle
import TypeLineage.Proofs.Engine.Looks
import TypeLineage.Proofs.Engine.Lookups
import TypeLineage.Proofs.Engine.Memory
import TypeLineage.Proofs.Engine.Numbering
import TypeLineage.Proofs.Engine.Reading
import TypeLineage.Proofs.Engine.Served
import TypeLineage.Proofs.Engine.Stability
import TypeLineage.Proofs.Engine.Statistics
import TypeLineage.Proofs.Engine.Steps
import TypeLineage.Proofs.Engine.Telling
import TypeLineage.Proofs.Engine.TwoPasses
import TypeLineage.Proofs.Engine.View
import TypeLineage.Proofs.Fact.History
import TypeLineage.Proofs.Files.Below
import TypeLineage.Proofs.Files.Edits
import TypeLineage.Proofs.Files.Entries
import TypeLineage.Proofs.Files.Follow
import TypeLineage.Proofs.Files.Order
import TypeLineage.Proofs.Files.Rules
import TypeLineage.Proofs.Files.SourceJars
import TypeLineage.Proofs.Files.SourcePath
import TypeLineage.Proofs.Files.Spelling
import TypeLineage.Proofs.Files.Way
import TypeLineage.Proofs.Hierarchy
import TypeLineage.Proofs.Java.Brackets
import TypeLineage.Proofs.Java.Drafts
import TypeLineage.Proofs.Java.Layout
import TypeLineage.Proofs.Java.Relaid
import TypeLineage.Proofs.Java.Written
import TypeLineage.Proofs.Json.Objects
import TypeLineage.Proofs.Json.Reading
import TypeLineage.Proofs.Json.Spelling
import TypeLineage.Proofs.Json.Written
import TypeLineage.Proofs.Query.Batches
import TypeLineage.Proofs.Query.Lines
import TypeLineage.Proofs.Query.Spelling
import TypeLineage.Proofs.Query.TextReport
import TypeLineage.Proofs.Text.ByteOrder
import TypeLineage.Proofs.Text.Bytes
import TypeLineage.Proofs.Text.Lines
import TypeLineage.Proofs.Text.Pieces
import TypeLineage.Proofs.TypeName
import TypeLineage.Proofs.Walk.Completeness
import TypeLineage.Proofs.Walk.Course
import TypeLineage.Proofs.Walk.Endless
import TypeLineage.Proofs.Walk.Mirror
import TypeLineage.Proofs.Walk.Recorded
import TypeLineage.Proofs.Walk.Simulation
import TypeLineage.Proofs.Walk.Soundness
import TypeLineage.Proofs.Walk.Termination
import TypeLineage.Query
import TypeLineage.Query.Decode
import TypeLineage.Query.Report
import TypeLineage.Text.Blank
import TypeLineage.Text.Capital
import TypeLineage.Text.Hidden
import TypeLineage.Text.Lines
import TypeLineage.Text.Quoted
import TypeLineage.Text.Split
import TypeLineage.TypeName
