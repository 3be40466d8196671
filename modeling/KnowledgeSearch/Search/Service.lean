/-
  KnowledgeSearch/Search/Service.lean
  ===================================
  **The search service.**

  What all operations of the service share: the catalog, limits, weights, filters, how
  a request is named in errors, and how a row of a result is read.  A service itself
  does not change; what changes is its `ServiceState`, which operations reach through
  their programs.
-/
import KnowledgeSearch.Search.Catalog
import KnowledgeSearch.Search.Program
import KnowledgeSearch.Search.Request

namespace KnowledgeSearch

/-- A configuration, and the dialect of the database that is searched. -/
structure Service where
  config : Config
  dialect : Dialect

/-- The empty cache that is configured, unless it is switched off. -/
def Cache.ofSettings? {α : Type} (settings : CacheSettings) : Option (Cache α) :=
  if settings.enabled then some (.ofSeconds settings.ttlSecs settings.maxEntries) else none

/-- The state of a service that nothing was asked of yet. -/
def ServiceState.initial (config : Config) : Except SearchFault ServiceState := do
  let hybrid := config.search.hybrid
  let weights ← HybridWeights.normalized hybrid.textWeight hybrid.vectorWeight
  pure { cache := Cache.ofSettings? config.search.cache, weights }

namespace Service

/-! ### Requests -/

def catalog (s : Service) : Catalog := .ofTables s.config.tables

/-- A wanted number of results, within the configured limit. -/
def checkLimit (s : Service) (limit : Option Int64) : Except SearchFault UInt32 :=
  let max := s.config.search.maxLimit
  match limit with
  | none => .error .limitMissing
  | some n =>
    if n.toInt ≤ 0 then .error .limitNotPositive
    else if (max.toNat : Int) < n.toInt then .error (.limitTooLarge max)
    else .ok (UInt32.ofNat n.toInt.toNat)

def readFilter (table : Table) (filter : Option Json) : Except SearchFault (Option Predicate) :=
  match filter with
  | none => .ok none
  | some filter => Predicate.ofFilter (some table) filter

def readEmbedding (table : Table) (value : Json) : Except SearchFault Embedding :=
  match (Embedding.ofJson value).bind fun e => e.ensureDim table.embeddingDim.toNat with
  | .ok e => .ok e
  | .error e => .error (.embedding e)

/-- The distance between the rows of a table and an embedding. -/
def distance (s : Service) (table : Table) (embedding : Embedding) : Except SearchFault Fragment :=
  let metric := s.config.index.metric
  match s.dialect.distance? metric table.embeddingColumn (.bind (.vector embedding)) with
  | some distance => .ok distance
  | none => .error (.metricUnsupported metric s.dialect)

/-- The condition of a filter, for a table if one is named. -/
def compile (s : Service) (filter : Json) (table : Option String) : Except SearchFault Query :=
  s.catalog.compile s.dialect table filter

/-! ### Descriptions -/

/-- The longest part of a filter that a description shows. -/
def maxFilterChars : Nat := 160

/-- A filter in a description, cut short if it is long. -/
def describeFilter : Option Json → String
  | none => "none"
  | some .null => "none"
  | some filter =>
    let text := filter.toChars
    if text.length ≤ maxFilterChars then String.ofList text
    else String.ofList (text.take maxFilterChars) ++ "..."

/-- How a request is named in errors. -/
def describe (table : String) (limit : Option Int64) (filter : Option Json) : String :=
  let limit := match limit with
    | some n => toString n.toInt
    | none => "unset"
  table ++ " (limit " ++ limit ++ ", filter " ++ describeFilter filter ++ ")"

/-! ### Rows -/

def takeNumber (row : Row) (column : String) : Option Single × Row :=
  (((Keyed.get? row column).bind Json.toNumber?).map fun n => n.toDouble.toSingle,
    Keyed.erase row column)

def rowKey (table : Table) (row : Row) : Json := (Keyed.get? row table.primaryKey).getD .null

/-! ### Weights -/

/-- The weights of a request, given the default weights. -/
def combineWeights (defaults : HybridWeights) (text vector : Option Single) :
    Except SearchFault HybridWeights :=
  match text, vector with
  | none, none => .ok defaults
  | text, vector => HybridWeights.normalized (text.getD defaults.text) (vector.getD defaults.vector)

def resolveWeights (text vector : Option Single) : Search HybridWeights := do
  let defaults ← Search.defaultWeights
  Search.ofExcept (combineWeights defaults text vector)

end Service

end KnowledgeSearch
