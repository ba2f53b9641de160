import ShaderShrink.Archive
import ShaderShrink.Arena.Basic
import ShaderShrink.Arena.Edit
import ShaderShrink.Arena.Layout
import ShaderShrink.Arena.Lower
import ShaderShrink.Arena.Node
import ShaderShrink.Arena.Raise
import ShaderShrink.Arena.Snippet
import ShaderShrink.Change.Basic
import ShaderShrink.Change.Search
import ShaderShrink.CommandLine.Arguments
import ShaderShrink.CommandLine.Run
import ShaderShrink.Digest.Sha256
import ShaderShrink.Disk.Basic
import ShaderShrink.Disk.FileTree
import ShaderShrink.Disk.Path
import ShaderShrink.Event
import ShaderShrink.Job.Basic
import ShaderShrink.Job.Result
import ShaderShrink.Job.Scope
import ShaderShrink.JobQueue
import ShaderShrink.Json.Basic
import ShaderShrink.Json.Decode
import ShaderShrink.Json.Draft
import ShaderShrink.Json.Number
import ShaderShrink.Json.Printer
import ShaderShrink.Json.Reader
import ShaderShrink.Main
import ShaderShrink.Pipeline.Pairs
import ShaderShrink.Pipeline.Pool
import ShaderShrink.Pipeline.Report
import ShaderShrink.Pipeline.Settings
import ShaderShrink.Pipeline.Work
import ShaderShrink.Program.Basic
import ShaderShrink.Program.Coding
import ShaderShrink.Program.Render
import ShaderShrink.Proofs.Archive.Filing
import ShaderShrink.Proofs.Archive.Journal
import ShaderShrink.Proofs.Archive.Names
import ShaderShrink.Proofs.Arena.Acyclic
import ShaderShrink.Proofs.Arena.Attachment
import ShaderShrink.Proofs.Arena.Calls
import ShaderShrink.Proofs.Arena.Compact
import ShaderShrink.Proofs.Arena.Descent
import ShaderShrink.Proofs.Arena.Edit
import ShaderShrink.Proofs.Arena.Graft
import ShaderShrink.Proofs.Arena.Indexed
import ShaderShrink.Proofs.Arena.Layout
import ShaderShrink.Proofs.Arena.Linked
import ShaderShrink.Proofs.Arena.Lookup
import ShaderShrink.Proofs.Arena.Lower
import ShaderShrink.Proofs.Arena.Order
import ShaderShrink.Proofs.Arena.Padding
import ShaderShrink.Proofs.Arena.Prune
import ShaderShrink.Proofs.Arena.Reading
import ShaderShrink.Proofs.Arena.Renumbering
import ShaderShrink.Proofs.Arena.Rooted
import ShaderShrink.Proofs.Arena.Splice
import ShaderShrink.Proofs.Arena.WellFormed
import ShaderShrink.Proofs.Change.Breadth
import ShaderShrink.Proofs.Change.Count
import ShaderShrink.Proofs.Change.Found
import ShaderShrink.Proofs.Change.Irreducible
import ShaderShrink.Proofs.Change.Lead
import ShaderShrink.Proofs.Change.Local
import ShaderShrink.Proofs.Change.Refused
import ShaderShrink.Proofs.Change.Renumbering
import ShaderShrink.Proofs.Change.Scoped
import ShaderShrink.Proofs.Change.Shrink
import ShaderShrink.Proofs.Change.Stale
import ShaderShrink.Proofs.Change.Steps
import ShaderShrink.Proofs.Change.Suits
import ShaderShrink.Proofs.Change.Undo
import ShaderShrink.Proofs.Disk.Changes
import ShaderShrink.Proofs.Disk.FileTree
import ShaderShrink.Proofs.Disk.Journal
import ShaderShrink.Proofs.Disk.Names
import ShaderShrink.Proofs.Disk.Path
import ShaderShrink.Proofs.Disk.Performed
import ShaderShrink.Proofs.Disk.Texts
import ShaderShrink.Proofs.Except
import ShaderShrink.Proofs.Job.Coding
import ShaderShrink.Proofs.Job.Hoisting
import ShaderShrink.Proofs.Job.Scope
import ShaderShrink.Proofs.Job.Scoping
import ShaderShrink.Proofs.Job.Tokens
import ShaderShrink.Proofs.Json.Coding
import ShaderShrink.Proofs.Json.Compact
import ShaderShrink.Proofs.Json.Decoding
import ShaderShrink.Proofs.Json.Reading
import ShaderShrink.Proofs.Json.Scalar
import ShaderShrink.Proofs.Json.Written
import ShaderShrink.Proofs.Pipeline.Balance
import ShaderShrink.Proofs.Pipeline.Coding
import ShaderShrink.Proofs.Pipeline.Filing
import ShaderShrink.Proofs.Pipeline.Findings
import ShaderShrink.Proofs.Pipeline.Journal
import ShaderShrink.Proofs.Pipeline.Notes
import ShaderShrink.Proofs.Pipeline.Pairs
import ShaderShrink.Proofs.Pipeline.Plain
import ShaderShrink.Proofs.Pipeline.Queue
import ShaderShrink.Proofs.Pipeline.Reproduction
import ShaderShrink.Proofs.Pipeline.Schedule
import ShaderShrink.Proofs.Pipeline.Settings
import ShaderShrink.Proofs.Pipeline.Triage
import ShaderShrink.Proofs.Pipeline.Wakeups
import ShaderShrink.Proofs.Program.Braces
import ShaderShrink.Proofs.Program.Branches
import ShaderShrink.Proofs.Program.Coding
import ShaderShrink.Proofs.Program.Digest
import ShaderShrink.Proofs.Program.Fits
import ShaderShrink.Proofs.Program.Grouping
import ShaderShrink.Proofs.Program.Lines
import ShaderShrink.Proofs.Program.Nesting
import ShaderShrink.Proofs.Program.Outline
import ShaderShrink.Proofs.Program.Phrase
import ShaderShrink.Proofs.Program.Place
import ShaderShrink.Proofs.Program.Spelling
import ShaderShrink.Proofs.Reduction.Accounts
import ShaderShrink.Proofs.Reduction.Attempt
import ShaderShrink.Proofs.Reduction.Bounds
import ShaderShrink.Proofs.Reduction.Budget
import ShaderShrink.Proofs.Reduction.Course
import ShaderShrink.Proofs.Reduction.Digests
import ShaderShrink.Proofs.Reduction.Driver
import ShaderShrink.Proofs.Reduction.Fixpoint
import ShaderShrink.Proofs.Reduction.Greedy
import ShaderShrink.Proofs.Reduction.Halt
import ShaderShrink.Proofs.Reduction.Keeps
import ShaderShrink.Proofs.Reduction.Legible
import ShaderShrink.Proofs.Reduction.Parts
import ShaderShrink.Proofs.Reduction.Refines
import ShaderShrink.Proofs.Reduction.Reproduction
import ShaderShrink.Proofs.Reduction.Search
import ShaderShrink.Proofs.Reduction.Shells
import ShaderShrink.Proofs.Reduction.Skeleton
import ShaderShrink.Proofs.Reduction.Soundness
import ShaderShrink.Proofs.Reduction.Transcript
import ShaderShrink.Proofs.Text.Decimal
import ShaderShrink.Proofs.Text.Lines
import ShaderShrink.Proofs.Text.Sorted
import ShaderShrink.Proofs.Text.Tally
import ShaderShrink.Proofs.Text.Tokens
import ShaderShrink.Reduction.Report
import ShaderShrink.Reduction.Run
import ShaderShrink.Sample
import ShaderShrink.Service
import ShaderShrink.Text.Blank
import ShaderShrink.Text.Decimal
import ShaderShrink.Text.Lines
import ShaderShrink.Text.Search
import ShaderShrink.Text.Stamp
import ShaderShrink.Text.WordSet
import ShaderShrink.Verdict
