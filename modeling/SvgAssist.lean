import SvgAssist.Command.Cursor
import SvgAssist.Command.Describe
import SvgAssist.Command.Flag
import SvgAssist.Command.Invocation
import SvgAssist.Command.Listen
import SvgAssist.Command.Listing
import SvgAssist.Command.Run
import SvgAssist.Command.Settings
import SvgAssist.Command.Value
import SvgAssist.Completion.Candidate
import SvgAssist.Completion.Complete
import SvgAssist.Completion.Hover
import SvgAssist.Completion.Offer
import SvgAssist.Config.Dotenv
import SvgAssist.Config.File
import SvgAssist.Config.FromJson
import SvgAssist.Config.FromYaml
import SvgAssist.Config.Hcl
import SvgAssist.Config.Hcl.Braces
import SvgAssist.Config.Hcl.Item
import SvgAssist.Config.Hcl.Token
import SvgAssist.Config.Ini
import SvgAssist.Config.Properties
import SvgAssist.Config.Setting
import SvgAssist.Config.Toml
import SvgAssist.Config.Toml.Scalar
import SvgAssist.Config.Toml.Table
import SvgAssist.Diagnostic.Basic
import SvgAssist.Diagnostic.Sink
import SvgAssist.Diagnostic.Snippet
import SvgAssist.Grammar.Basic
import SvgAssist.Grammar.Catalog
import SvgAssist.Grammar.Document
import SvgAssist.Grammar.FromJson
import SvgAssist.Grammar.FromYaml
import SvgAssist.Grammar.Load
import SvgAssist.Grammar.Standard
import SvgAssist.Grammar.Standard.Attributes
import SvgAssist.Grammar.Standard.Build
import SvgAssist.Grammar.Standard.Elements
import SvgAssist.Grammar.ToJson
import SvgAssist.Json.Basic
import SvgAssist.Json.Error
import SvgAssist.Json.Field
import SvgAssist.Json.Reader
import SvgAssist.Json.Shape
import SvgAssist.Json.Token
import SvgAssist.Json.Writer
import SvgAssist.Main
import SvgAssist.Markup.Context
import SvgAssist.Markup.Enclosing
import SvgAssist.Markup.Event
import SvgAssist.Markup.Name
import SvgAssist.Markup.Outline
import SvgAssist.Number.Double
import SvgAssist.Number.Whole
import SvgAssist.Path
import SvgAssist.Position
import SvgAssist.Proofs.Command.SourcePlace
import SvgAssist.Proofs.Command.SyntaxError
import SvgAssist.Proofs.Completion.Accept
import SvgAssist.Proofs.Completion.AcceptAttribute
import SvgAssist.Proofs.Completion.AcceptElement
import SvgAssist.Proofs.Completion.AcceptRoot
import SvgAssist.Proofs.Completion.Candidates
import SvgAssist.Proofs.Completion.Declared
import SvgAssist.Proofs.Completion.Hover
import SvgAssist.Proofs.Completion.HoveredName
import SvgAssist.Proofs.Completion.LineEnd
import SvgAssist.Proofs.Completion.RootElement
import SvgAssist.Proofs.Completion.TagOpen
import SvgAssist.Proofs.Diagnostic.Sink
import SvgAssist.Proofs.Diagnostic.Snippet
import SvgAssist.Proofs.Diagnostic.Stream
import SvgAssist.Proofs.FrontEnds
import SvgAssist.Proofs.Grammar.Catalog
import SvgAssist.Proofs.Grammar.Formats
import SvgAssist.Proofs.Grammar.FromJson
import SvgAssist.Proofs.Grammar.FromYaml
import SvgAssist.Proofs.Grammar.Registry
import SvgAssist.Proofs.Grammar.Repair
import SvgAssist.Proofs.Grammar.Reread
import SvgAssist.Proofs.Grammar.StatedLine
import SvgAssist.Proofs.Grammar.Written
import SvgAssist.Proofs.Interruption
import SvgAssist.Proofs.Json.Roundtrip
import SvgAssist.Proofs.Json.Strings
import SvgAssist.Proofs.Machine.Cursor
import SvgAssist.Proofs.Machine.Enclosing
import SvgAssist.Proofs.Machine.Lines
import SvgAssist.Proofs.Machine.Names
import SvgAssist.Proofs.Machine.Scan
import SvgAssist.Proofs.Markup.Context
import SvgAssist.Proofs.Markup.Document
import SvgAssist.Proofs.Markup.Edges
import SvgAssist.Proofs.Markup.Enclosing
import SvgAssist.Proofs.Markup.Events
import SvgAssist.Proofs.Markup.Laminar
import SvgAssist.Proofs.Markup.NameAt
import SvgAssist.Proofs.Markup.Nesting
import SvgAssist.Proofs.Markup.Piece
import SvgAssist.Proofs.Markup.Quotes
import SvgAssist.Proofs.Markup.Recovery
import SvgAssist.Proofs.Markup.Soundness
import SvgAssist.Proofs.Markup.StartTag
import SvgAssist.Proofs.Markup.Stop
import SvgAssist.Proofs.Markup.Tagless
import SvgAssist.Proofs.Markup.Value
import SvgAssist.Proofs.Scratchpad
import SvgAssist.Proofs.Server.Address
import SvgAssist.Proofs.Server.Columns
import SvgAssist.Proofs.Server.Folds
import SvgAssist.Proofs.Server.Nesting
import SvgAssist.Proofs.Server.Order
import SvgAssist.Proofs.Server.Places
import SvgAssist.Proofs.Server.Ranges
import SvgAssist.Proofs.Server.Symbols
import SvgAssist.Proofs.Server.Sync
import SvgAssist.Proofs.Text.Chars
import SvgAssist.Proofs.Text.Columns
import SvgAssist.Proofs.Text.Encoding
import SvgAssist.Proofs.Text.Ends
import SvgAssist.Proofs.Text.Index
import SvgAssist.Proofs.Text.Lines
import SvgAssist.Proofs.Text.Positions
import SvgAssist.Proofs.Text.Search
import SvgAssist.Proofs.Text.Slices
import SvgAssist.Proofs.Text.Window
import SvgAssist.Scratchpad
import SvgAssist.Server.Capabilities
import SvgAssist.Server.Channel
import SvgAssist.Server.Encode
import SvgAssist.Server.Item
import SvgAssist.Server.Position
import SvgAssist.Server.Request
import SvgAssist.Server.Session
import SvgAssist.Server.Store
import SvgAssist.Server.Symbol
import SvgAssist.Text.Base64
import SvgAssist.Text.Basic
import SvgAssist.Text.Blank
import SvgAssist.Text.Char
import SvgAssist.Text.Printable
import SvgAssist.Text.Quoted
import SvgAssist.Text.Table
import SvgAssist.Text.Units
import SvgAssist.Text.Width
import SvgAssist.Text.Wrap
import SvgAssist.Timestamp
import SvgAssist.Yaml.Cursor
import SvgAssist.Yaml.Fold
import SvgAssist.Yaml.Node
import SvgAssist.Yaml.Problem
import SvgAssist.Yaml.Read
import SvgAssist.Yaml.Resolve
import SvgAssist.Yaml.Scalar
import SvgAssist.Yaml.Source
import SvgAssist.Yaml.Stream
import SvgAssist.Yaml.Tag
import SvgAssist.Yaml.Timestamp
import SvgAssist.Yaml.Token
import SvgAssist.Yaml.Usage
