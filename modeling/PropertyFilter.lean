import PropertyFilter.Calendar
import PropertyFilter.Command
import PropertyFilter.Command.Arguments
import PropertyFilter.Command.Context
import PropertyFilter.Command.Display
import PropertyFilter.Command.Running
import PropertyFilter.Command.Session
import PropertyFilter.DateTime
import PropertyFilter.Dialect
import PropertyFilter.Dialect.Graph
import PropertyFilter.Dialect.Ldap
import PropertyFilter.Dialect.Query
import PropertyFilter.Dialect.Scim
import PropertyFilter.Disk
import PropertyFilter.Disk.Saving
import PropertyFilter.Entries
import PropertyFilter.Expression.Fault
import PropertyFilter.Expression.Operator
import PropertyFilter.Expression.Reading
import PropertyFilter.Filter
import PropertyFilter.Filter.Canonical
import PropertyFilter.Filter.Checked
import PropertyFilter.Filter.Matching
import PropertyFilter.Filter.Normalize
import PropertyFilter.Filter.Stored
import PropertyFilter.FilterError
import PropertyFilter.Json
import PropertyFilter.Json.Reading
import PropertyFilter.Json.Tag
import PropertyFilter.Json.Writing
import PropertyFilter.Lexeme
import PropertyFilter.Lexeme.Scan
import PropertyFilter.Main
import PropertyFilter.Number.Binary64
import PropertyFilter.Number.Numeral
import PropertyFilter.Number.Shortest
import PropertyFilter.Number.Wide
import PropertyFilter.Path
import PropertyFilter.Proofs.Calendar
import PropertyFilter.Proofs.DateTime
import PropertyFilter.Proofs.DateTime.Reading
import PropertyFilter.Proofs.Dialect.Expressible
import PropertyFilter.Proofs.Dialect.Graph
import PropertyFilter.Proofs.Dialect.Graph.Literals
import PropertyFilter.Proofs.Dialect.Ldap
import PropertyFilter.Proofs.Dialect.Ldap.Bounds
import PropertyFilter.Proofs.Dialect.Ldap.Reading
import PropertyFilter.Proofs.Dialect.Ldap.Ticks
import PropertyFilter.Proofs.Dialect.Scim
import PropertyFilter.Proofs.Dialect.Scim.Meaning
import PropertyFilter.Proofs.Disk.Saving
import PropertyFilter.Proofs.Expression.Connectives
import PropertyFilter.Proofs.Expression.Faults
import PropertyFilter.Proofs.Expression.Grammar
import PropertyFilter.Proofs.Expression.Operands
import PropertyFilter.Proofs.Expression.Parsing
import PropertyFilter.Proofs.Filter.Answers
import PropertyFilter.Proofs.Filter.Checked
import PropertyFilter.Proofs.Filter.Choices
import PropertyFilter.Proofs.Filter.Construction
import PropertyFilter.Proofs.Filter.Layout
import PropertyFilter.Proofs.Filter.Nesting
import PropertyFilter.Proofs.Filter.NormalForm
import PropertyFilter.Proofs.Filter.Polarity
import PropertyFilter.Proofs.Filter.Reparsing
import PropertyFilter.Proofs.Filter.RoundTrip
import PropertyFilter.Proofs.Filter.Stored
import PropertyFilter.Proofs.Lexeme.Faults
import PropertyFilter.Proofs.Lexeme.Literals
import PropertyFilter.Proofs.Lexeme.Plain
import PropertyFilter.Proofs.Lexeme.Quoted
import PropertyFilter.Proofs.Lexeme.Standing
import PropertyFilter.Proofs.Number.Monotone
import PropertyFilter.Proofs.Number.Places
import PropertyFilter.Proofs.Number.RoundTrip
import PropertyFilter.Proofs.Number.Rounding
import PropertyFilter.Proofs.Settings.Assignments
import PropertyFilter.Proofs.Settings.Commands
import PropertyFilter.Proofs.Settings.File
import PropertyFilter.Proofs.Text.Letters
import PropertyFilter.Proofs.Text.Places
import PropertyFilter.Proofs.Text.Reading
import PropertyFilter.Proofs.Token.Lexes
import PropertyFilter.Proofs.Token.Literals
import PropertyFilter.Proofs.Token.Slices
import PropertyFilter.Proofs.Toml.Quoted
import PropertyFilter.Proofs.Toml.Reading
import PropertyFilter.Proofs.Toml.Tables
import PropertyFilter.Proofs.Uuid
import PropertyFilter.Proofs.Value.Order
import PropertyFilter.Proofs.Value.Same
import PropertyFilter.Proofs.Value.Stored
import PropertyFilter.Record
import PropertyFilter.Settings
import PropertyFilter.Settings.File
import PropertyFilter.Text.Alphanumeric
import PropertyFilter.Text.Blank
import PropertyFilter.Text.CodeRange
import PropertyFilter.Text.Hexadecimal
import PropertyFilter.Text.Position
import PropertyFilter.Text.Printable
import PropertyFilter.Text.Reader
import PropertyFilter.Text.Shown
import PropertyFilter.Text.Similarity
import PropertyFilter.Token
import PropertyFilter.Toml
import PropertyFilter.Toml.Quoted
import PropertyFilter.Toml.Reading
import PropertyFilter.Uuid
import PropertyFilter.Value
import PropertyFilter.Value.Literal
import PropertyFilter.Value.Stored
import PropertyFilter.Proofs.Lexeme.Letters
import PropertyFilter.Proofs.Token.Letters
import PropertyFilter.Proofs.Expression.Letters
import PropertyFilter.Proofs.Record
import PropertyFilter.Proofs.Record.Letters
import PropertyFilter.Proofs.DateTime.Strict
import PropertyFilter.Proofs.Record.Order
import PropertyFilter.Proofs.Uuid.Letters
import PropertyFilter.Proofs.Record.Texts
import PropertyFilter.Proofs.Value.Kinds
import PropertyFilter.Proofs.Filter.Height
import PropertyFilter.Proofs.Dialect.Ldap.Chains
import PropertyFilter.Proofs.Dialect.Ldap.Parentheses
import PropertyFilter.Proofs.Dialect.Ldap.Items
import PropertyFilter.Proofs.Expression.Walking
import PropertyFilter.Proofs.Expression.Measures
import PropertyFilter.Proofs.Expression.Counters
import PropertyFilter.Proofs.Command.Session
import PropertyFilter.Proofs.Command.Rendering
