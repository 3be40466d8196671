import KnowledgeSearch.CommandLine.Arguments
import KnowledgeSearch.CommandLine.Command
import KnowledgeSearch.CommandLine.Help
import KnowledgeSearch.CommandLine.Run
import KnowledgeSearch.Config.Basic
import KnowledgeSearch.Config.Document
import KnowledgeSearch.Config.Validation
import KnowledgeSearch.Embedding
import KnowledgeSearch.Filter.Document
import KnowledgeSearch.Filter.Field
import KnowledgeSearch.Filter.Predicate
import KnowledgeSearch.Hash.Blake3
import KnowledgeSearch.Json.Basic
import KnowledgeSearch.Json.Literal
import KnowledgeSearch.Json.Parser
import KnowledgeSearch.Json.Printer
import KnowledgeSearch.Json.Record
import KnowledgeSearch.Json.RecordList
import KnowledgeSearch.Json.Report
import KnowledgeSearch.Keyed
import KnowledgeSearch.Main
import KnowledgeSearch.Numeric.Binary
import KnowledgeSearch.Numeric.Decimal
import KnowledgeSearch.Proofs.Config.Checks
import KnowledgeSearch.Proofs.Config.Names
import KnowledgeSearch.Proofs.Embedding.Forms
import KnowledgeSearch.Proofs.Embedding.Json
import KnowledgeSearch.Proofs.Embedding.Text
import KnowledgeSearch.Proofs.Filter.Document
import KnowledgeSearch.Proofs.Filter.Grammar
import KnowledgeSearch.Proofs.Filter.Offence
import KnowledgeSearch.Proofs.Filter.Predicate
import KnowledgeSearch.Proofs.Filter.Question
import KnowledgeSearch.Proofs.Json.Literal
import KnowledgeSearch.Proofs.Json.Place
import KnowledgeSearch.Proofs.Json.WrittenDecimal
import KnowledgeSearch.Proofs.Keyed
import KnowledgeSearch.Proofs.Numeric.Bound
import KnowledgeSearch.Proofs.Numeric.Closest
import KnowledgeSearch.Proofs.Numeric.Error
import KnowledgeSearch.Proofs.Numeric.Grid
import KnowledgeSearch.Proofs.Numeric.Integer
import KnowledgeSearch.Proofs.Numeric.Middle
import KnowledgeSearch.Proofs.Numeric.Narrowing
import KnowledgeSearch.Proofs.Numeric.Order
import KnowledgeSearch.Proofs.Numeric.Ordinal
import KnowledgeSearch.Proofs.Numeric.RoundTrip
import KnowledgeSearch.Proofs.Numeric.Shortest
import KnowledgeSearch.Proofs.Search.Accepted
import KnowledgeSearch.Proofs.Search.AppliedIndex
import KnowledgeSearch.Proofs.Search.Binding
import KnowledgeSearch.Proofs.Search.Calibration
import KnowledgeSearch.Proofs.Search.CarriedText
import KnowledgeSearch.Proofs.Search.Columns
import KnowledgeSearch.Proofs.Search.Defaults
import KnowledgeSearch.Proofs.Search.Defect
import KnowledgeSearch.Proofs.Search.Disclosure
import KnowledgeSearch.Proofs.Search.Dominance
import KnowledgeSearch.Proofs.Search.Eviction
import KnowledgeSearch.Proofs.Search.FailFast
import KnowledgeSearch.Proofs.Search.Failure
import KnowledgeSearch.Proofs.Search.FloatFilter
import KnowledgeSearch.Proofs.Search.GraphIndex
import KnowledgeSearch.Proofs.Search.IntegerFilter
import KnowledgeSearch.Proofs.Search.Interleaving
import KnowledgeSearch.Proofs.Search.Limits
import KnowledgeSearch.Proofs.Search.Memo
import KnowledgeSearch.Proofs.Search.Noninterference
import KnowledgeSearch.Proofs.Search.OperationRun
import KnowledgeSearch.Proofs.Search.Parts
import KnowledgeSearch.Proofs.Search.Program
import KnowledgeSearch.Proofs.Search.Provenance
import KnowledgeSearch.Proofs.Search.RankScale
import KnowledgeSearch.Proofs.Search.Ranking
import KnowledgeSearch.Proofs.Search.RecommendedIndex
import KnowledgeSearch.Proofs.Search.Restriction
import KnowledgeSearch.Proofs.Search.Run
import KnowledgeSearch.Proofs.Search.ScoreRange
import KnowledgeSearch.Proofs.Search.Selection
import KnowledgeSearch.Proofs.Search.Staleness
import KnowledgeSearch.Proofs.Search.Statement
import KnowledgeSearch.Proofs.Search.Transparency
import KnowledgeSearch.Proofs.Search.Validation
import KnowledgeSearch.Proofs.Search.Weights
import KnowledgeSearch.Proofs.Sql.Agreement
import KnowledgeSearch.Proofs.Sql.Comparison
import KnowledgeSearch.Proofs.Sql.Condition
import KnowledgeSearch.Proofs.Sql.JsonPath
import KnowledgeSearch.Proofs.Sql.Like
import KnowledgeSearch.Proofs.Sql.Meaning
import KnowledgeSearch.Proofs.Sql.Membership
import KnowledgeSearch.Proofs.Sql.Placeholder
import KnowledgeSearch.Proofs.Sql.Reading
import KnowledgeSearch.Proofs.Sql.Spelling
import KnowledgeSearch.Proofs.Sql.TextRank
import KnowledgeSearch.Proofs.Sql.Token
import KnowledgeSearch.Proofs.Sql.Word
import KnowledgeSearch.Proofs.Sql.Writing
import KnowledgeSearch.Proofs.Steps
import KnowledgeSearch.Proofs.Storage.KeyValue
import KnowledgeSearch.Proofs.Storage.OpeningError
import KnowledgeSearch.Proofs.Storage.Password
import KnowledgeSearch.Proofs.Storage.RenderedDocument
import KnowledgeSearch.Proofs.Storage.Scan
import KnowledgeSearch.Proofs.Storage.Secret
import KnowledgeSearch.Proofs.Storage.Settled
import KnowledgeSearch.Proofs.Text.Class
import KnowledgeSearch.Search.BareTables
import KnowledgeSearch.Search.Cache
import KnowledgeSearch.Search.Calibration
import KnowledgeSearch.Search.Catalog
import KnowledgeSearch.Search.Coercion
import KnowledgeSearch.Search.Error
import KnowledgeSearch.Search.Hybrid
import KnowledgeSearch.Search.Index
import KnowledgeSearch.Search.Indexing
import KnowledgeSearch.Search.Program
import KnowledgeSearch.Search.Request
import KnowledgeSearch.Search.Scoring
import KnowledgeSearch.Search.Service
import KnowledgeSearch.Search.Statement
import KnowledgeSearch.Search.Vector
import KnowledgeSearch.Sql.Cell
import KnowledgeSearch.Sql.Condition
import KnowledgeSearch.Sql.Dialect
import KnowledgeSearch.Sql.Evaluation
import KnowledgeSearch.Sql.Fragment
import KnowledgeSearch.Sql.Keyword
import KnowledgeSearch.Sql.Like
import KnowledgeSearch.Sql.Statement
import KnowledgeSearch.Sql.Truth
import KnowledgeSearch.Sql.Writing
import KnowledgeSearch.Storage.DataSource
import KnowledgeSearch.Storage.Error
import KnowledgeSearch.Storage.FileLocation
import KnowledgeSearch.Storage.FileSource
import KnowledgeSearch.Storage.Host
import KnowledgeSearch.Storage.KeyValue
import KnowledgeSearch.Storage.Redact
import KnowledgeSearch.Storage.ServerSource
import KnowledgeSearch.Storage.Url
import KnowledgeSearch.Text.Blank
import KnowledgeSearch.Text.CaseTable
import KnowledgeSearch.Text.Identifier
import KnowledgeSearch.Text.Lower
import KnowledgeSearch.Text.Percent
import KnowledgeSearch.Text.Quoted
import KnowledgeSearch.Text.ShownTable
import KnowledgeSearch.Text.Utf8
import KnowledgeSearch.Text.Word
import KnowledgeSearch.Text.WordTable
import KnowledgeSearch.Toml.Document
import KnowledgeSearch.Toml.FromJson
import KnowledgeSearch.Toml.Printer
import KnowledgeSearch.Toml.Scalar
import KnowledgeSearch.Toml.Value
