import DirectoryLookup.Aliases
import DirectoryLookup.Arguments
import DirectoryLookup.ClientError
import DirectoryLookup.Entries
import DirectoryLookup.Entry
import DirectoryLookup.Expression.Basic
import DirectoryLookup.Expression.Json
import DirectoryLookup.Failure
import DirectoryLookup.Field
import DirectoryLookup.Files
import DirectoryLookup.Filter.Basic
import DirectoryLookup.Filter.Escape
import DirectoryLookup.Ini.Document
import DirectoryLookup.Json.Node
import DirectoryLookup.Json.Reader
import DirectoryLookup.Json.Text
import DirectoryLookup.Json5.Document
import DirectoryLookup.Json5.Token
import DirectoryLookup.Ldap
import DirectoryLookup.Main
import DirectoryLookup.Number.Digits
import DirectoryLookup.Number.Double
import DirectoryLookup.Number.Shortest
import DirectoryLookup.Person.Basic
import DirectoryLookup.Person.OfEntry
import DirectoryLookup.Program
import DirectoryLookup.Proofs.Aliases.Reading
import DirectoryLookup.Proofs.Expression.Continuation
import DirectoryLookup.Proofs.Expression.Replacement
import DirectoryLookup.Proofs.Expression.RoundTrip
import DirectoryLookup.Proofs.Expression.Spelling
import DirectoryLookup.Proofs.Expression.Writing
import DirectoryLookup.Proofs.Filter.Context
import DirectoryLookup.Proofs.Filter.Encoding
import DirectoryLookup.Proofs.Filter.Expansion
import DirectoryLookup.Proofs.Filter.Grammar
import DirectoryLookup.Proofs.Filter.Modes
import DirectoryLookup.Proofs.Filter.Shorthand
import DirectoryLookup.Proofs.Json.Escapes
import DirectoryLookup.Proofs.Json.Grammar
import DirectoryLookup.Proofs.Json.Printing
import DirectoryLookup.Proofs.Ldap.Order
import DirectoryLookup.Proofs.Number.Digits
import DirectoryLookup.Proofs.Number.Reading
import DirectoryLookup.Proofs.Number.Rounding
import DirectoryLookup.Proofs.Number.Shortest
import DirectoryLookup.Proofs.Person.Fields
import DirectoryLookup.Proofs.Program.Escaping
import DirectoryLookup.Proofs.Registry.Overrides
import DirectoryLookup.Proofs.Registry.Ownership
import DirectoryLookup.Proofs.Registry.Redeclaration
import DirectoryLookup.Proofs.Report.Lines
import DirectoryLookup.Proofs.Report.Objects
import DirectoryLookup.Proofs.Search.Calls
import DirectoryLookup.Proofs.Search.Interleaving
import DirectoryLookup.Proofs.Search.NamesToShow
import DirectoryLookup.Proofs.Search.Release
import DirectoryLookup.Proofs.Search.Results
import DirectoryLookup.Proofs.Search.Run
import DirectoryLookup.Proofs.Search.Selection
import DirectoryLookup.Proofs.Settings.Keys
import DirectoryLookup.Proofs.Settings.Layers
import DirectoryLookup.Proofs.Settings.Loading
import DirectoryLookup.Proofs.Settings.Names
import DirectoryLookup.Proofs.Settings.OneVariable
import DirectoryLookup.Proofs.Settings.Order
import DirectoryLookup.Proofs.Settings.SchemaVariable
import DirectoryLookup.Proofs.Settings.Values
import DirectoryLookup.Proofs.Term.Compilation
import DirectoryLookup.Proofs.Term.Grammar
import DirectoryLookup.Proofs.Term.Reading
import DirectoryLookup.Proofs.Text.Trim
import DirectoryLookup.Proofs.Text.Utf8
import DirectoryLookup.Registry
import DirectoryLookup.Report
import DirectoryLookup.Ron.Document
import DirectoryLookup.Ron.Token
import DirectoryLookup.Search.Request
import DirectoryLookup.Search.Searcher
import DirectoryLookup.Search.Service
import DirectoryLookup.Search.Session
import DirectoryLookup.Search.Together
import DirectoryLookup.Settings.Basic
import DirectoryLookup.Settings.Environment
import DirectoryLookup.Settings.Load
import DirectoryLookup.Settings.OfJson
import DirectoryLookup.Settings.OfYaml
import DirectoryLookup.Settings.Path
import DirectoryLookup.Settings.Raw
import DirectoryLookup.Term
import DirectoryLookup.Text.Blank
import DirectoryLookup.Text.ByteOrder
import DirectoryLookup.Text.CaseFold
import DirectoryLookup.Text.CodePoint
import DirectoryLookup.Text.Comment
import DirectoryLookup.Text.Pieces
import DirectoryLookup.Text.Printable
import DirectoryLookup.Text.Quoted
import DirectoryLookup.Toml.Document
import DirectoryLookup.Toml.Scalar
import DirectoryLookup.Toml.Token
import DirectoryLookup.Yaml.Node
import DirectoryLookup.Yaml.Place
import DirectoryLookup.Yaml.Scalar
import DirectoryLookup.Yaml.Tag
import DirectoryLookup.Yaml.Token
