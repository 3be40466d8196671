/-
  KnowledgeSearch/Config/Basic.lean
  =================================
  **Configurations.**

  What an installation can set: where its data is stored, how searches are limited,
  weighted and cached, which vector index is preferred, and the catalog of tables.
  Counts are fixed-width words, as wide as the documents that set them allow.
-/
import KnowledgeSearch.Sql.Dialect

namespace KnowledgeSearch

/-! ### Storage -/

structure StorageSettings where
  dialect : Dialect
  /-- The name of the data source. -/
  dsn : String
  maxConnections : UInt32
  acquireTimeoutMs : UInt64
  /-- The deadline of a statement whose caller sets none. -/
  statementTimeoutMs : Option UInt64
  /-- A library with vector distance functions to load into the database. -/
  vectorExtension : Option String
deriving DecidableEq

/-! ### Search -/

/-- How text and vector scores are weighed against each other. -/
structure HybridSettings where
  textWeight : Single
  vectorWeight : Single
  textSearchConfig : String
  calibrationK : UInt32
  calibrationGrid : List Single
deriving DecidableEq

namespace HybridSettings

def defaultTextSearchConfig : String := "simple"

def defaultCalibrationK : UInt32 := 10

/-- The text weights 0, 0.1, …, 1. -/
def defaultCalibrationGrid : List Single :=
  (List.range 11).map fun step => Binary.ofNat step / Binary.ofNat 10

end HybridSettings

/-- Whether and how long results are kept. -/
structure CacheSettings where
  enabled : Bool
  ttlSecs : UInt64
  maxEntries : UInt64
deriving DecidableEq

namespace CacheSettings

def default : CacheSettings := ⟨false, 300, 1024⟩

end CacheSettings

structure SearchSettings where
  maxLimit : UInt32
  maxCandidates : UInt32
  hybrid : HybridSettings
  cache : CacheSettings
deriving DecidableEq

namespace SearchSettings

def defaultMaxCandidates : UInt32 := 5000

end SearchSettings

/-! ### Indexes -/

/-- Which kind of vector index is wanted. -/
inductive IndexPreference where
  | auto
  | ivf
  | hnsw
deriving DecidableEq, Repr

def IndexPreference.name : IndexPreference → String
  | .auto => "auto"
  | .ivf => "ivf"
  | .hnsw => "hnsw"

structure IndexSettings where
  kind : IndexPreference
  metric : Metric
  hnswM : UInt32
  hnswEfConstruction : UInt32
  /-- The number of embedded rows from which on `auto` prefers a graph index. -/
  hnswMinRows : UInt64
deriving DecidableEq

namespace IndexSettings

def default : IndexSettings := ⟨.auto, .cosine, 16, 64, 1000000⟩

end IndexSettings

/-! ### Tables -/

/-- The type of a column that filters may use. -/
inductive FilterKind where
  | integer
  | float
  | text
  | boolean
  /-- A JSON column: dotted paths and JSON operators are allowed. -/
  | json
deriving DecidableEq, Repr

def FilterKind.name : FilterKind → String
  | .integer => "integer"
  | .float => "float"
  | .text => "text"
  | .boolean => "boolean"
  | .json => "json"

structure Table where
  name : String
  primaryKey : String
  columns : List String
  embeddingColumn : String
  embeddingDim : UInt32
  textFields : List String
  /-- The columns that filters may use. -/
  filters : Keyed FilterKind
deriving DecidableEq

namespace Table

/-- The type of a column, if filters may use it. -/
def filterKind? (table : Table) (column : String) : Option FilterKind :=
  table.filters.get? column

end Table

/-! ### The whole -/

/-- A configuration. -/
structure Config where
  logLevel : String
  storage : StorageSettings
  search : SearchSettings
  index : IndexSettings
  tables : List Table
deriving DecidableEq

namespace Config

def table? (config : Config) (name : String) : Option Table :=
  config.tables.find? fun table => table.name = name

end Config

end KnowledgeSearch
