import StructUnfold.Catalog.Basic
import StructUnfold.Catalog.Resolve
import StructUnfold.Catalog.Search
import StructUnfold.Catalog.Table
import StructUnfold.CommandLine.Arguments
import StructUnfold.CommandLine.Help
import StructUnfold.CommandLine.Listing
import StructUnfold.CommandLine.Run
import StructUnfold.Disk.Basic
import StructUnfold.Disk.Change
import StructUnfold.Document.Basic
import StructUnfold.Document.Store
import StructUnfold.Domain.Ascii
import StructUnfold.Domain.Direction
import StructUnfold.Domain.Images
import StructUnfold.Domain.Joiner
import StructUnfold.Domain.Mapping
import StructUnfold.Domain.Punycode
import StructUnfold.Expansion.Basic
import StructUnfold.Expansion.Declaration
import StructUnfold.Expansion.Run
import StructUnfold.Expansion.Tree
import StructUnfold.Json.Basic
import StructUnfold.Json.Parser
import StructUnfold.Json.Printer
import StructUnfold.Main
import StructUnfold.Output.Results
import StructUnfold.Path
import StructUnfold.Problem
import StructUnfold.Progress
import StructUnfold.Proofs.Catalog.Chain
import StructUnfold.Proofs.CommandLine.Listing
import StructUnfold.Proofs.Comment.Extraction
import StructUnfold.Proofs.Comment.Lexing
import StructUnfold.Proofs.Comment.Scan
import StructUnfold.Proofs.Document.Synchronization
import StructUnfold.Proofs.Document.Word
import StructUnfold.Proofs.Expansion.Ceilings
import StructUnfold.Proofs.Expansion.Exits
import StructUnfold.Proofs.Expansion.InPlace
import StructUnfold.Proofs.Expansion.Labelling
import StructUnfold.Proofs.Expansion.Members
import StructUnfold.Proofs.Expansion.Pieces
import StructUnfold.Proofs.Expansion.Reachability
import StructUnfold.Proofs.Expansion.Reading
import StructUnfold.Proofs.Expansion.SameCode
import StructUnfold.Proofs.Expansion.Stale
import StructUnfold.Proofs.Expansion.Starred
import StructUnfold.Proofs.Expansion.Termination
import StructUnfold.Proofs.Expansion.Transparency
import StructUnfold.Proofs.Expansion.WholeWord
import StructUnfold.Proofs.LineEnding.Expansion
import StructUnfold.Proofs.Outline.Bracketed
import StructUnfold.Proofs.Outline.Scan
import StructUnfold.Proofs.Scan.Idempotence
import StructUnfold.Proofs.Scan.Incremental
import StructUnfold.Proofs.Schema.Expansion
import StructUnfold.Proofs.Server.Agreement
import StructUnfold.Proofs.Server.Configuration
import StructUnfold.Proofs.Server.Progress
import StructUnfold.Proofs.Server.Symbols
import StructUnfold.Proofs.Workspace.Roots
import StructUnfold.Scan.Basic
import StructUnfold.Scan.Finding
import StructUnfold.Server.Commands
import StructUnfold.Server.Dispatch
import StructUnfold.Server.Envelope
import StructUnfold.Server.Form.Abilities
import StructUnfold.Server.Form.Basic
import StructUnfold.Server.Form.Content
import StructUnfold.Server.Form.Parameters
import StructUnfold.Server.Indexing
import StructUnfold.Server.Message
import StructUnfold.Server.Notification
import StructUnfold.Server.Reply
import StructUnfold.Server.Request
import StructUnfold.Server.Session
import StructUnfold.Server.Symbols
import StructUnfold.Server.Value
import StructUnfold.Settings.Basic
import StructUnfold.Settings.File
import StructUnfold.Settings.Layer
import StructUnfold.Settings.Patch
import StructUnfold.Source.Block
import StructUnfold.Source.Comment
import StructUnfold.Source.Declarator
import StructUnfold.Source.Header
import StructUnfold.Sources
import StructUnfold.Text.Alphabetic
import StructUnfold.Text.CaseClasses
import StructUnfold.Text.Composition
import StructUnfold.Text.Line
import StructUnfold.Text.Lowercase
import StructUnfold.Text.Marks
import StructUnfold.Text.Numeric
import StructUnfold.Text.Offset
import StructUnfold.Text.Ranges
import StructUnfold.Text.Search
import StructUnfold.Text.Space
import StructUnfold.Text.Utf8
import StructUnfold.Text.WordChar
import StructUnfold.Toml.Document
import StructUnfold.Toml.Lexeme
import StructUnfold.Toml.Scalar
import StructUnfold.Toml.Tree
import StructUnfold.Uri.Address
import StructUnfold.Uri.Authority
import StructUnfold.Uri.Basic
import StructUnfold.Uri.Parser
import StructUnfold.Uri.Percent
import StructUnfold.Uri.Scheme
import StructUnfold.Uri.Segments
import StructUnfold.Workspace.Build
import StructUnfold.Workspace.Discovery
