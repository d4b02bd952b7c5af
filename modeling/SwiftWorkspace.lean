import SwiftWorkspace.Base64
import SwiftWorkspace.CommandLine.Command
import SwiftWorkspace.CommandLine.Form
import SwiftWorkspace.CommandLine.LogFile
import SwiftWorkspace.CommandLine.Run
import SwiftWorkspace.CommandLine.Words
import SwiftWorkspace.Decimal.Reading
import SwiftWorkspace.Decimal.Shortest
import SwiftWorkspace.Disk.Basic
import SwiftWorkspace.Edit.Append
import SwiftWorkspace.Edit.Delete
import SwiftWorkspace.Edit.Message
import SwiftWorkspace.Edit.Package
import SwiftWorkspace.Edit.Splice
import SwiftWorkspace.Edit.Target
import SwiftWorkspace.Glob
import SwiftWorkspace.Graph.Build
import SwiftWorkspace.Graph.Edge
import SwiftWorkspace.Graph.Pool
import SwiftWorkspace.Graph.Source
import SwiftWorkspace.Graph.Tool
import SwiftWorkspace.Json.Basic
import SwiftWorkspace.Json.Octets
import SwiftWorkspace.Json.Reading
import SwiftWorkspace.Log
import SwiftWorkspace.Lookup.Basic
import SwiftWorkspace.Lookup.Query
import SwiftWorkspace.Lookup.Reading
import SwiftWorkspace.Main
import SwiftWorkspace.Manifest.Basic
import SwiftWorkspace.Manifest.Declaration
import SwiftWorkspace.Manifest.File
import SwiftWorkspace.Manifest.Layout
import SwiftWorkspace.Manifest.Query
import SwiftWorkspace.Manifest.Reading
import SwiftWorkspace.Outcome
import SwiftWorkspace.Path
import SwiftWorkspace.Path.Given
import SwiftWorkspace.Project.Basic
import SwiftWorkspace.Project.Discovery
import SwiftWorkspace.Project.Index
import SwiftWorkspace.Proofs.Abreast
import SwiftWorkspace.Proofs.Appending
import SwiftWorkspace.Proofs.ArgumentOrder
import SwiftWorkspace.Proofs.Batches
import SwiftWorkspace.Proofs.BestEffort
import SwiftWorkspace.Proofs.Blanking
import SwiftWorkspace.Proofs.Boundaries
import SwiftWorkspace.Proofs.BracketWords
import SwiftWorkspace.Proofs.Brackets
import SwiftWorkspace.Proofs.Calls
import SwiftWorkspace.Proofs.CanonicalNames
import SwiftWorkspace.Proofs.Changes
import SwiftWorkspace.Proofs.Comments
import SwiftWorkspace.Proofs.Cuts
import SwiftWorkspace.Proofs.Dangling
import SwiftWorkspace.Proofs.Declarations
import SwiftWorkspace.Proofs.Deletion
import SwiftWorkspace.Proofs.Depths
import SwiftWorkspace.Proofs.Descriptions
import SwiftWorkspace.Proofs.Discovered
import SwiftWorkspace.Proofs.Enclosure
import SwiftWorkspace.Proofs.Encodings
import SwiftWorkspace.Proofs.Exchange
import SwiftWorkspace.Proofs.Faithful
import SwiftWorkspace.Proofs.Findings
import SwiftWorkspace.Proofs.Frames
import SwiftWorkspace.Proofs.Gaps
import SwiftWorkspace.Proofs.GivenPaths
import SwiftWorkspace.Proofs.Graphs
import SwiftWorkspace.Proofs.Growth
import SwiftWorkspace.Proofs.Histories
import SwiftWorkspace.Proofs.Hits
import SwiftWorkspace.Proofs.Independence
import SwiftWorkspace.Proofs.Inference
import SwiftWorkspace.Proofs.Inlays
import SwiftWorkspace.Proofs.Insertion
import SwiftWorkspace.Proofs.Isolation
import SwiftWorkspace.Proofs.Joined
import SwiftWorkspace.Proofs.Labels
import SwiftWorkspace.Proofs.Lexing
import SwiftWorkspace.Proofs.LineEnds
import SwiftWorkspace.Proofs.Lines
import SwiftWorkspace.Proofs.Loading
import SwiftWorkspace.Proofs.LocalEdges
import SwiftWorkspace.Proofs.LocalRemoval
import SwiftWorkspace.Proofs.Locality
import SwiftWorkspace.Proofs.Locate
import SwiftWorkspace.Proofs.Lookups
import SwiftWorkspace.Proofs.Loops
import SwiftWorkspace.Proofs.Marking
import SwiftWorkspace.Proofs.Milder
import SwiftWorkspace.Proofs.Minimality
import SwiftWorkspace.Proofs.Occurrences
import SwiftWorkspace.Proofs.OneLine
import SwiftWorkspace.Proofs.Orderly
import SwiftWorkspace.Proofs.Outline
import SwiftWorkspace.Proofs.Overlaps
import SwiftWorkspace.Proofs.Parts
import SwiftWorkspace.Proofs.Plain
import SwiftWorkspace.Proofs.Pools
import SwiftWorkspace.Proofs.Precedence
import SwiftWorkspace.Proofs.Preservation
import SwiftWorkspace.Proofs.Pruning
import SwiftWorkspace.Proofs.Qualifiers
import SwiftWorkspace.Proofs.Queries
import SwiftWorkspace.Proofs.Quoting
import SwiftWorkspace.Proofs.Readings
import SwiftWorkspace.Proofs.Redirects
import SwiftWorkspace.Proofs.References
import SwiftWorkspace.Proofs.Remainders
import SwiftWorkspace.Proofs.Removal
import SwiftWorkspace.Proofs.Requirements
import SwiftWorkspace.Proofs.Resolution
import SwiftWorkspace.Proofs.Restoring
import SwiftWorkspace.Proofs.Roots
import SwiftWorkspace.Proofs.Rows
import SwiftWorkspace.Proofs.Seams
import SwiftWorkspace.Proofs.Search
import SwiftWorkspace.Proofs.Separators
import SwiftWorkspace.Proofs.Settled
import SwiftWorkspace.Proofs.Severing
import SwiftWorkspace.Proofs.Shapes
import SwiftWorkspace.Proofs.Slots
import SwiftWorkspace.Proofs.Spellings
import SwiftWorkspace.Proofs.StableNames
import SwiftWorkspace.Proofs.StableRoots
import SwiftWorkspace.Proofs.Structure
import SwiftWorkspace.Proofs.Submissions
import SwiftWorkspace.Proofs.Targets
import SwiftWorkspace.Proofs.Turns
import SwiftWorkspace.Proofs.Twins
import SwiftWorkspace.Proofs.Undoing
import SwiftWorkspace.Proofs.Unions
import SwiftWorkspace.Proofs.Walks
import SwiftWorkspace.Proofs.Ways
import SwiftWorkspace.Proofs.WrittenCalls
import SwiftWorkspace.Reference
import SwiftWorkspace.RelativePath
import SwiftWorkspace.Report
import SwiftWorkspace.Requirement
import SwiftWorkspace.Service
import SwiftWorkspace.Service.Route
import SwiftWorkspace.Settings.Basic
import SwiftWorkspace.Settings.Document
import SwiftWorkspace.Settings.Reading
import SwiftWorkspace.Source.Access
import SwiftWorkspace.Source.Argument
import SwiftWorkspace.Source.Basic
import SwiftWorkspace.Source.Bracket
import SwiftWorkspace.Source.Element
import SwiftWorkspace.Source.Kind
import SwiftWorkspace.Source.Label
import SwiftWorkspace.Source.Line
import SwiftWorkspace.Source.Literal
import SwiftWorkspace.Task.Basic
import SwiftWorkspace.Task.Node
import SwiftWorkspace.Task.Options
import SwiftWorkspace.Text.Basic
import SwiftWorkspace.Text.Blank
import SwiftWorkspace.Text.CaseRun
import SwiftWorkspace.Text.Cased
import SwiftWorkspace.Text.CodePoint
import SwiftWorkspace.Text.Digit
import SwiftWorkspace.Text.Fold
import SwiftWorkspace.Text.Lower
import SwiftWorkspace.Text.Printable
import SwiftWorkspace.Text.Ranges
import SwiftWorkspace.Text.ShellWords
import SwiftWorkspace.Text.Utf8
import SwiftWorkspace.Text.Word
import SwiftWorkspace.Workspace.Basic
import SwiftWorkspace.Workspace.Change
import SwiftWorkspace.Workspace.Error
import SwiftWorkspace.Workspace.Overview
import SwiftWorkspace.Workspace.Request
import SwiftWorkspace.Workspace.Traffic
import SwiftWorkspace.Yaml.Cursor
import SwiftWorkspace.Yaml.Document
import SwiftWorkspace.Yaml.Flaw
import SwiftWorkspace.Yaml.Node
import SwiftWorkspace.Yaml.Property
import SwiftWorkspace.Yaml.Reader
import SwiftWorkspace.Yaml.Scalar
import SwiftWorkspace.Yaml.ScalarText
import SwiftWorkspace.Yaml.Tag
import SwiftWorkspace.Yaml.Time
import SwiftWorkspace.Yaml.Token
import SwiftWorkspace.Yaml.Tokens
import SwiftWorkspace.Yaml.Value
