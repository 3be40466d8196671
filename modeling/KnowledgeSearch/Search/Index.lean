/-
  KnowledgeSearch/Search/Index.lean
  =================================
  **Vector indexes.**

  Which index suits a table of a given size, what it is called and how it is created.
  A list index divides the rows into lists, about the square root of their number,
  and a query looks into some of them; a graph index is configured.  A recommendation
  carries the statements that would create the index for a reader; they are rendered
  anew from the catalog when the index is created.
-/
import KnowledgeSearch.Config.Basic
import KnowledgeSearch.Json.Record
import KnowledgeSearch.Json.Report

namespace KnowledgeSearch

/-! ### Kinds -/

/-- The kinds of vector indexes: lists or a graph. -/
inductive IndexKind where
  | ivf
  | hnsw
deriving DecidableEq, Repr

namespace IndexKind

def name : IndexKind → String
  | .ivf => "ivf"
  | .hnsw => "hnsw"

/-- The database's word for the kind. -/
def accessMethod : IndexKind → String
  | .ivf => "ivfflat"
  | .hnsw => "hnsw"

/-- The kind for a table with the given number of rows. -/
def choose (preference : IndexPreference) (rows : Nat) (hnswMinRows : UInt64) : IndexKind :=
  match preference with
  | .ivf => .ivf
  | .hnsw => .hnsw
  | .auto => if hnswMinRows.toNat ≤ rows then .hnsw else .ivf

end IndexKind

/-! ### Sizes -/

namespace IndexSize

/-- The nearest count to a number, as far as words go. -/
def nearestCount (x : Double) : UInt32 :=
  UInt32.ofNat (min ((x.roundAway?.getD 0).toNat) (UInt32.size - 1))

/-- The number of lists for the given number of rows. -/
def lists (rows : Nat) : UInt32 :=
  let rows : Double := Binary.ofNat rows
  if rows.lt (Binary.ofNat 1000) then max (nearestCount (rows / Binary.ofNat 2).sqrt) 4
  else if rows.le (Binary.ofNat 10000) then max (nearestCount rows.sqrt) 10
  else nearestCount (rows.sqrt * (Binary.ofNat 3 / Binary.ofNat 2))

/-- The number of lists that a query looks into. -/
def searchLists (lists : UInt32) : UInt32 :=
  max (nearestCount (Binary.ofNat lists.toNat : Double).sqrt) 1

end IndexSize

/-! ### Parameters -/

inductive IndexParameters where
  /-- `searchLists` is a setting of queries and not part of the index. -/
  | ivf (lists : UInt32) (searchLists : UInt32)
  | hnsw (m : UInt32) (efConstruction : UInt32)
deriving DecidableEq, Repr

namespace IndexParameters

def kind : IndexParameters → IndexKind
  | .ivf _ _ => .ivf
  | .hnsw _ _ => .hnsw

/-- The parameters as the statement that creates the index has them. -/
def clause : IndexParameters → String
  | .ivf lists _ => s!"lists = {lists}"
  | .hnsw m efConstruction => s!"m = {m}, ef_construction = {efConstruction}"

/-- The settings for queries that the index serves. -/
def querySettings : IndexParameters → List String
  | .ivf _ searchLists => [s!"SET ivfflat.probes = {searchLists}"]
  | .hnsw _ _ => []

/-- The parameters for a kind of index over the given number of rows. -/
def choose (settings : IndexSettings) (rows : Nat) : IndexKind → IndexParameters
  | .ivf => .ivf (IndexSize.lists rows) (IndexSize.searchLists (IndexSize.lists rows))
  | .hnsw => .hnsw settings.hnswM settings.hnswEfConstruction

def toReport (parameters : IndexParameters) : Report :=
  .record <| ("kind", .text parameters.kind.name) ::
    match parameters with
    | .ivf lists searchLists =>
      [("lists", .natural lists.toNat), ("search_lists", .natural searchLists.toNat)]
    | .hnsw m efConstruction =>
      [("m", .natural m.toNat), ("ef_construction", .natural efConstruction.toNat)]

def ofFields? (kind : String) (fields : Json) : Option IndexParameters :=
  match kind with
  | "ivf" => do
    let record ← fields.toRecord? ["lists", "search_lists"]
    let lists ← Members.required? record Json.toUInt32? "lists"
    let searchLists ← Members.required? record Json.toUInt32? "search_lists"
    some (.ivf lists searchLists)
  | "hnsw" => do
    let record ← fields.toRecord? ["m", "ef_construction"]
    let m ← Members.required? record Json.toUInt32? "m"
    let efConstruction ← Members.required? record Json.toUInt32? "ef_construction"
    some (.hnsw m efConstruction)
  | _ => none

def ofJson? : Json → Option IndexParameters
  | .object members => do
    let kind ← Members.required? members Json.toString? "kind"
    ofFields? kind (.object members)
  | .array (.string kind :: fields) => ofFields? kind (.array fields)
  | _ => none

end IndexParameters

/-! ### Indexes -/

def Metric.operatorClass : Metric → String
  | .cosine => "vector_cosine_ops"
  | .l2 => "vector_l2_ops"
  | .innerProduct => "vector_ip_ops"

/-- An index on the embedding column of a table. -/
structure VectorIndex where
  name : String
  table : String
  column : String
  metric : Metric
  parameters : IndexParameters
deriving DecidableEq, Repr

namespace VectorIndex

def nameOf (table column : String) (kind : IndexKind) : String :=
  table ++ "_" ++ column ++ "_" ++ kind.accessMethod ++ "_idx"

def dropText (name : String) : String := "DROP INDEX IF EXISTS " ++ name

def createText (index : VectorIndex) : String :=
  "CREATE INDEX " ++ index.name ++ " ON " ++ index.table ++ " USING " ++
    index.parameters.kind.accessMethod ++ " (" ++ index.column ++ " " ++
    index.metric.operatorClass ++ ") WITH (" ++ index.parameters.clause ++ ")"

/-- The statements that put an index in the place of an earlier one of its name. -/
def statements (index : VectorIndex) : List String := [dropText index.name, index.createText]

end VectorIndex

/-! ### Recommendations -/

structure IndexRecommendation where
  table : String
  column : String
  kind : IndexKind
  indexName : String
  metric : Metric
  parameters : IndexParameters
  estimatedRows : UInt64
  statements : List String
  querySettings : List String
deriving DecidableEq, Repr

namespace IndexRecommendation

/-- The proposal for a table with the given number of embedded rows. -/
def make (settings : IndexSettings) (table : Table) (preference : IndexPreference)
    (rows : UInt64) : IndexRecommendation :=
  let kind := IndexKind.choose preference rows.toNat settings.hnswMinRows
  let parameters := IndexParameters.choose settings rows.toNat kind
  let indexName := VectorIndex.nameOf table.name table.embeddingColumn kind
  let index : VectorIndex :=
    ⟨indexName, table.name, table.embeddingColumn, settings.metric, parameters⟩
  { table := table.name
    column := table.embeddingColumn
    kind
    indexName
    metric := settings.metric
    parameters
    estimatedRows := rows
    statements := index.statements
    querySettings := parameters.querySettings }

def toReport (r : IndexRecommendation) : Report :=
  .record [("table", .text r.table), ("column", .text r.column), ("index_kind", .text r.kind.name),
    ("index_name", .text r.indexName), ("metric", .text r.metric.name),
    ("parameters", r.parameters.toReport),
    ("estimated_row_count", .natural r.estimatedRows.toNat),
    ("statements", .texts r.statements), ("query_settings", .texts r.querySettings)]

def fields : List String :=
  ["table", "column", "index_kind", "index_name", "metric", "parameters", "estimated_row_count",
    "statements", "query_settings"]

/-- Reads a recommendation back; only the query settings may be missing. -/
def ofJson? (value : Json) : Option IndexRecommendation := do
  let record ← value.toRecord? fields
  let table ← Members.required? record Json.toString? "table"
  let column ← Members.required? record Json.toString? "column"
  let kind ← Members.required? record (Json.toChoice? IndexKind.name [.ivf, .hnsw]) "index_kind"
  let indexName ← Members.required? record Json.toString? "index_name"
  let metric ←
    Members.required? record (Json.toChoice? Metric.name [.cosine, .l2, .innerProduct]) "metric"
  let parameters ← Members.required? record IndexParameters.ofJson? "parameters"
  let estimatedRows ← Members.required? record Json.toUInt64? "estimated_row_count"
  let statements ← Members.required? record (Json.toListOf? Json.toString?) "statements"
  let querySettings ←
    Members.withDefault? record (Json.toListOf? Json.toString?) [] "query_settings"
  some { table, column, kind, indexName, metric, parameters, estimatedRows, statements,
         querySettings }

end IndexRecommendation

/-- How the creation of an index ended. -/
inductive IndexOutcome where
  | applied (indexName : String)
  | failed (reason : String)
deriving DecidableEq, Repr

def IndexOutcome.toReport : IndexOutcome → Report
  | .applied indexName => .record [("status", .text "applied"), ("index_name", .text indexName)]
  | .failed reason => .record [("status", .text "failed"), ("reason", .text reason)]

end KnowledgeSearch
