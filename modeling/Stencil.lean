import Stencil.Cache
import Stencil.Calendar
import Stencil.Calendar.Timestamp
import Stencil.Command
import Stencil.Command.Arguments
import Stencil.Command.Display
import Stencil.Command.Run
import Stencil.Console
import Stencil.Console.Layout
import Stencil.Console.Markup
import Stencil.Console.Pictures
import Stencil.Console.Shortcode
import Stencil.Console.Wrap
import Stencil.Context
import Stencil.Context.Definition
import Stencil.Context.Fingerprint
import Stencil.Declarations
import Stencil.Declarations.Read
import Stencil.Digest.Sha256
import Stencil.Document
import Stencil.Engine
import Stencil.Engine.Store
import Stencil.Expansion
import Stencil.Failure
import Stencil.Function
import Stencil.Function.BuiltIn
import Stencil.Function.Library
import Stencil.Graph
import Stencil.Graph.Cycle
import Stencil.Graph.Order
import Stencil.Graph.Reach
import Stencil.Graph.Search
import Stencil.Logging
import Stencil.Main
import Stencil.Marker
import Stencil.Number
import Stencil.Number.Binary64
import Stencil.Number.Numeral
import Stencil.Number.Shortest
import Stencil.Proofs.Cache.Entries
import Stencil.Proofs.Cache.Holding
import Stencil.Proofs.Cache.Indexes
import Stencil.Proofs.Cache.Recency
import Stencil.Proofs.Context.Blame
import Stencil.Proofs.Context.Complete
import Stencil.Proofs.Context.Fingerprint
import Stencil.Proofs.Context.Meaning
import Stencil.Proofs.Context.Plain
import Stencil.Proofs.Context.Reference
import Stencil.Proofs.Context.Secret
import Stencil.Proofs.Context.Separation
import Stencil.Proofs.Context.Views
import Stencil.Proofs.Declarations
import Stencil.Proofs.Declarations.Faults
import Stencil.Proofs.Declarations.Scopes
import Stencil.Proofs.Engine.Ahead
import Stencil.Proofs.Engine.Call
import Stencil.Proofs.Engine.Capture
import Stencil.Proofs.Engine.Circularity
import Stencil.Proofs.Engine.Concat
import Stencil.Proofs.Engine.Depth
import Stencil.Proofs.Engine.Disclosure
import Stencil.Proofs.Engine.Errors
import Stencil.Proofs.Engine.Lookups
import Stencil.Proofs.Engine.Observation
import Stencil.Proofs.Engine.Outcome
import Stencil.Proofs.Engine.Preview
import Stencil.Proofs.Engine.Relevance
import Stencil.Proofs.Engine.Secrecy
import Stencil.Proofs.Engine.Semantics
import Stencil.Proofs.Engine.Sequence
import Stencil.Proofs.Engine.Shared
import Stencil.Proofs.Engine.Transparency
import Stencil.Proofs.Engine.TreeErrors
import Stencil.Proofs.Engine.Verdict
import Stencil.Proofs.Engine.WellFormed
import Stencil.Proofs.Expansion.Account
import Stencil.Proofs.Expansion.Capture
import Stencil.Proofs.Expansion.Chain
import Stencil.Proofs.Expansion.Events
import Stencil.Proofs.Expansion.Library
import Stencil.Proofs.Expansion.Lookups
import Stencil.Proofs.Expansion.Moves
import Stencil.Proofs.Expansion.Naming
import Stencil.Proofs.Expansion.Origin
import Stencil.Proofs.Expansion.Steps
import Stencil.Proofs.Expansion.Telltale
import Stencil.Proofs.Expansion.Uniform
import Stencil.Proofs.Function.Binding
import Stencil.Proofs.Function.Library
import Stencil.Proofs.Graph.Cycle
import Stencil.Proofs.Graph.Edge
import Stencil.Proofs.Graph.Exact
import Stencil.Proofs.Graph.Level
import Stencil.Proofs.Graph.Reach
import Stencil.Proofs.Graph.Search
import Stencil.Proofs.Graph.Shortest
import Stencil.Proofs.Lists
import Stencil.Proofs.Marker
import Stencil.Proofs.Marker.Surroundings
import Stencil.Proofs.Number.Clock
import Stencil.Proofs.Number.Order
import Stencil.Proofs.Number.Rounding
import Stencil.Proofs.Reading
import Stencil.Proofs.Secret.Masking
import Stencil.Proofs.Settings.Environment
import Stencil.Proofs.Settings.Section
import Stencil.Proofs.Template.Accepts
import Stencil.Proofs.Template.Arguments
import Stencil.Proofs.Template.Concat
import Stencil.Proofs.Template.Cut
import Stencil.Proofs.Template.Flat
import Stencil.Proofs.Template.Grammar
import Stencil.Proofs.Template.Layout
import Stencil.Proofs.Template.Literals
import Stencil.Proofs.Template.Memo
import Stencil.Proofs.Template.Overlong
import Stencil.Proofs.Template.Parts
import Stencil.Proofs.Template.Recovery
import Stencil.Proofs.Template.Tiling
import Stencil.Proofs.Text.Quoted
import Stencil.Proofs.Trace.Disclosure
import Stencil.Proofs.Trace.Recording
import Stencil.Proofs.Trace.Texts
import Stencil.Proofs.Tree.Entries
import Stencil.Proofs.Tree.Lines
import Stencil.Proofs.Value.Keys
import Stencil.Refusal
import Stencil.Request
import Stencil.Secret
import Stencil.Settings
import Stencil.Settings.Environment
import Stencil.Settings.Section
import Stencil.Sources
import Stencil.Template
import Stencil.Template.Literal
import Stencil.Template.Memo
import Stencil.Template.Scan
import Stencil.Text.Basic
import Stencil.Text.Bytes
import Stencil.Text.Columns
import Stencil.Text.LetterCase
import Stencil.Text.Printable
import Stencil.Text.Quoted
import Stencil.Trace
import Stencil.Trace.Recorder
import Stencil.Trace.Report
import Stencil.Tree
import Stencil.Tree.Walk
import Stencil.Url
import Stencil.Url.Address
import Stencil.Url.Query
import Stencil.Value
import Stencil.Value.Keys
import Stencil.Variable
import Stencil.Yaml
import Stencil.Yaml.Compose
import Stencil.Yaml.Cursor
import Stencil.Yaml.Fault
import Stencil.Yaml.Implied
import Stencil.Yaml.Node
import Stencil.Yaml.Scalar
import Stencil.Yaml.Token
