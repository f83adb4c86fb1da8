import DocumentLayout.Block.Container
import DocumentLayout.Block.Leaf
import DocumentLayout.Block.Marker
import DocumentLayout.Block.Node
import DocumentLayout.Block.Parser
import DocumentLayout.Block.Tokenizer
import DocumentLayout.CommandLine.Arguments
import DocumentLayout.CommandLine.Files
import DocumentLayout.CommandLine.Run
import DocumentLayout.Config
import DocumentLayout.Error
import DocumentLayout.FrontMatter.Basic
import DocumentLayout.FrontMatter.Fence
import DocumentLayout.FrontMatter.Language
import DocumentLayout.FrontMatter.Writer
import DocumentLayout.Injection
import DocumentLayout.Json.Basic
import DocumentLayout.Json.Number
import DocumentLayout.Json.Reader
import DocumentLayout.Layouts
import DocumentLayout.Main
import DocumentLayout.Markdown.Block
import DocumentLayout.Markdown.Block.Reader
import DocumentLayout.Markdown.Block.Start
import DocumentLayout.Markdown.CharacterName
import DocumentLayout.Markdown.CharacterReference
import DocumentLayout.Markdown.Html
import DocumentLayout.Markdown.Inline
import DocumentLayout.Markdown.Inline.Address
import DocumentLayout.Markdown.Inline.Emphasis
import DocumentLayout.Markdown.Inline.Reader
import DocumentLayout.Markdown.Link
import DocumentLayout.Markdown.Rest
import DocumentLayout.Markdown.Table
import DocumentLayout.Markdown.Tag
import DocumentLayout.Metadata.Export
import DocumentLayout.Metadata.Json
import DocumentLayout.Metadata.Value
import DocumentLayout.Number.Binary64
import DocumentLayout.Number.Decimal
import DocumentLayout.Number.Power
import DocumentLayout.Preprocessor
import DocumentLayout.Proofs.Block.Attempts
import DocumentLayout.Proofs.Block.Claims
import DocumentLayout.Proofs.Block.Code
import DocumentLayout.Proofs.Block.Columns
import DocumentLayout.Proofs.Block.Conservation
import DocumentLayout.Proofs.Block.Contents
import DocumentLayout.Proofs.Block.Cutting
import DocumentLayout.Proofs.Block.Descendants
import DocumentLayout.Proofs.Block.Idle
import DocumentLayout.Proofs.Block.Interruption
import DocumentLayout.Proofs.Block.Keywords
import DocumentLayout.Proofs.Block.Laziness
import DocumentLayout.Proofs.Block.Levels
import DocumentLayout.Proofs.Block.Locating
import DocumentLayout.Proofs.Block.Loop
import DocumentLayout.Proofs.Block.Marks
import DocumentLayout.Proofs.Block.Nesting
import DocumentLayout.Proofs.Block.Opaque
import DocumentLayout.Proofs.Block.Openings
import DocumentLayout.Proofs.Block.Order
import DocumentLayout.Proofs.Block.Origins
import DocumentLayout.Proofs.Block.Outline
import DocumentLayout.Proofs.Block.Pieces
import DocumentLayout.Proofs.Block.Positions
import DocumentLayout.Proofs.Block.Registry
import DocumentLayout.Proofs.Block.Resumption
import DocumentLayout.Proofs.Block.Search
import DocumentLayout.Proofs.Block.Tiling
import DocumentLayout.Proofs.Block.Walk
import DocumentLayout.Proofs.Block.Wrapping
import DocumentLayout.Proofs.CommandLine.Arguments
import DocumentLayout.Proofs.CommandLine.Scan
import DocumentLayout.Proofs.FrontMatter.Breaks
import DocumentLayout.Proofs.FrontMatter.Delimiters
import DocumentLayout.Proofs.FrontMatter.Extraction
import DocumentLayout.Proofs.FrontMatter.RoundTrip
import DocumentLayout.Proofs.FrontMatter.Splitting
import DocumentLayout.Proofs.Injection
import DocumentLayout.Proofs.Metadata.Json
import DocumentLayout.Proofs.Prose.BlankLines
import DocumentLayout.Proofs.Prose.FrontMatter
import DocumentLayout.Proofs.Prose.Interleaving
import DocumentLayout.Proofs.Prose.Removal
import DocumentLayout.Proofs.Specifiers
import DocumentLayout.Proofs.Statement.Candidates
import DocumentLayout.Proofs.Statement.Continuation
import DocumentLayout.Proofs.Statement.Declarations
import DocumentLayout.Proofs.Statement.Layout
import DocumentLayout.Proofs.Statement.Lexemes
import DocumentLayout.Proofs.Statement.Relexing
import DocumentLayout.Proofs.Statement.Runs
import DocumentLayout.Proofs.Statement.Spelling
import DocumentLayout.Proofs.Statement.Splitting
import DocumentLayout.Proofs.Statement.Standalone
import DocumentLayout.Proofs.Text.Breaks
import DocumentLayout.Proofs.Text.Cuts
import DocumentLayout.Proofs.Text.Lines
import DocumentLayout.Proofs.Text.Names
import DocumentLayout.Proofs.Traversal
import DocumentLayout.Proofs.Yaml.Blank
import DocumentLayout.Prose
import DocumentLayout.Statement.Basic
import DocumentLayout.Statement.Grammar
import DocumentLayout.Statement.Token
import DocumentLayout.Text.Basic
import DocumentLayout.Text.Blank
import DocumentLayout.Text.Case
import DocumentLayout.Text.Hex
import DocumentLayout.Text.Line
import DocumentLayout.Text.Named
import DocumentLayout.Text.Printable
import DocumentLayout.Text.Punctuation
import DocumentLayout.Text.Quoted
import DocumentLayout.Toml.Basic
import DocumentLayout.Toml.Datetime
import DocumentLayout.Toml.Reader
import DocumentLayout.Toml.Scalar
import DocumentLayout.Yaml.Document
import DocumentLayout.Yaml.Event
import DocumentLayout.Yaml.Input
import DocumentLayout.Yaml.Plain
import DocumentLayout.Yaml.Quoting
import DocumentLayout.Yaml.Token
import DocumentLayout.Yaml.Token.Lexer
import DocumentLayout.Yaml.Token.Scalar
import DocumentLayout.Yaml.Token.Tag
import DocumentLayout.Yaml.Writer
