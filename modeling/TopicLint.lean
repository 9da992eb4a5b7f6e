import TopicLint.Text.Ranges
import TopicLint.Text.Blank
import TopicLint.Text.Search
import TopicLint.Text.Lowercase
import TopicLint.Severity
import TopicLint.Markup
import TopicLint.Rule.Quoted
import TopicLint.Rule.Token
import TopicLint.Rule.Reader
import TopicLint.Rule.Compile
import TopicLint.Document.Forest
import TopicLint.Document.Basic
import TopicLint.Document.Node
import TopicLint.Rule.Evaluate
import TopicLint.Report.Paint
import TopicLint.Xml.Char
import TopicLint.Xml.Scan
import TopicLint.Xml.Piece
import TopicLint.Xml.Prolog
import TopicLint.Xml.Reference
import TopicLint.Xml.Build
import TopicLint.Report.Diagnostic
import TopicLint.Document.Shown
import TopicLint.Text.Order
import TopicLint.Text.Decimal
import TopicLint.Files.Path
import TopicLint.Json.Basic
import TopicLint.Report.Basic
import TopicLint.Report.Summary
import TopicLint.Report.Listing
import TopicLint.Report.Export
import TopicLint.Rule.Book
import TopicLint.Json.Read
import TopicLint.Config.Exclusion
import TopicLint.Config.Settings
import TopicLint.Config.JsonSettings
import TopicLint.Config.Basic
import TopicLint.Lint
import TopicLint.Text.Places
import TopicLint.Files.Disk
import TopicLint.Files.Wildcard
import TopicLint.Files.Search
import TopicLint.Yaml.Token
import TopicLint.Yaml.Read
import TopicLint.Config.YamlSettings
import TopicLint.Config.File
import TopicLint.Rule.Directory
import TopicLint.Project
import TopicLint.Command.Options
import TopicLint.Command.Run
import TopicLint.Main
import TopicLint.Proofs.Document.Axes
import TopicLint.Proofs.Document.Selection
import TopicLint.Proofs.Rule.Grammar
import TopicLint.Proofs.Rule.Lexeme
import TopicLint.Proofs.Rule.Plain
import TopicLint.Proofs.Rule.Recognition
import TopicLint.Proofs.Rule.Section
import TopicLint.Proofs.Rule.Derivation
import TopicLint.Proofs.Document.Arena
import TopicLint.Proofs.Rule.Place
import TopicLint.Proofs.Rule.Cursor
import TopicLint.Proofs.Rule.Tokenization
import TopicLint.Proofs.Rule.Spelling
import TopicLint.Proofs.Rule.Written
import TopicLint.Proofs.Rule.Restated
import TopicLint.Proofs.Rule.Settled
import TopicLint.Proofs.Rule.Locality
import TopicLint.Proofs.Rule.Book
import TopicLint.Proofs.Lint.Findings
import TopicLint.Proofs.Report.Sort
import TopicLint.Proofs.Lint.Schedule
import TopicLint.Proofs.Lint.Strictness
import TopicLint.Proofs.Files.Path
import TopicLint.Proofs.Files.Search
import TopicLint.Proofs.Rule.Reach
import TopicLint.Proofs.Rule.Directory
import TopicLint.Proofs.Command.Rules
import TopicLint.Proofs.Lint.Isolation
import TopicLint.Proofs.Rule.Index
import TopicLint.Proofs.Rule.Separation
import TopicLint.Proofs.Rule.Message
import TopicLint.Proofs.Rule.Reading
import TopicLint.Proofs.Document.Checked
import TopicLint.Proofs.Document.Safety
import TopicLint.Proofs.Markup.Source
import TopicLint.Proofs.Markup.Canonical
import TopicLint.Proofs.Text.Blank
import TopicLint.Proofs.Document.Nearest
import TopicLint.Proofs.Rule.Outlook
import TopicLint.Proofs.Document.Characters
import TopicLint.Proofs.Document.Inheritance
import TopicLint.Proofs.Files.Disk
import TopicLint.Proofs.Project
import TopicLint.Proofs.Text.Order
import TopicLint.Proofs.Report.Merge
import TopicLint.Proofs.Rule.Position
import TopicLint.Proofs.Config.Search
import TopicLint.Proofs.Files.Wildcard
import TopicLint.Proofs.Files.Listing
import TopicLint.Proofs.Listing
import TopicLint.Proofs.Rule.Quotation
import TopicLint.Proofs.Rule.Encoding
import TopicLint.Proofs.Document.Name
import TopicLint.Proofs.Xml.Named
import TopicLint.Proofs.Document.Naming
import TopicLint.Proofs.Text.Words
import TopicLint.Proofs.Report.Context
import TopicLint.Proofs.Report.Grouping
