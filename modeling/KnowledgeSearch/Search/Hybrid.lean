/-
  KnowledgeSearch/Search/Hybrid.lean
  ==================================
  **Hybrid search.**

  A hybrid search ranks rows by a weighed sum of text rank and similarity.  The
  database gives the candidates, in the order of their primary keys, and
  `Candidate.rank` scores them.  Several tables can be searched with one request, one
  after another and each for itself.
-/
import KnowledgeSearch.Search.Service

namespace KnowledgeSearch.Service

variable (s : Service)

/-! ### Checking -/

/-- A hybrid search whose table, texts, embedding and filter are in order. -/
structure PreparedHybrid where
  table : Table
  /-- The query text, without blanks around it. -/
  query : String
  embedding : Option Embedding
  textFields : List String
  filter : Option Predicate

def readOptionalEmbedding (table : Table) : Option Json → Except SearchFault (Option Embedding)
  | none => .ok none
  | some .null => .ok none
  | some value => (readEmbedding table value).map some

/-- The text fields to search: all of the table's, or some of them. -/
def chooseTextFields (table : Table) (wanted : Option (List String)) :
    Except SearchFault (List String) :=
  match wanted with
  | none => .ok table.textFields
  | some fields =>
    match fields.find? fun field => !table.textFields.contains field with
    | some field => .error (.textFieldUnknown field table.name)
    | none => .ok fields

def prepareHybrid (tableName query : String) (embedding : Option Json)
    (textFields : Option (List String)) (filter : Option Json) :
    Except SearchFault PreparedHybrid := do
  let table ← s.catalog.table tableName
  let query := Text.trim query
  let embedding ← readOptionalEmbedding table embedding
  let textFields ← chooseTextFields table textFields
  if embedding.isNone && (query.isEmpty || textFields.isEmpty) then throw .nothingToSearch
  else
    let filter ← readFilter table filter
    pure { table, query, embedding, textFields, filter }

/-! ### Candidates -/

namespace PreparedHybrid

def candidate (table : Table) (row : Row) : Candidate :=
  let (textRank, row) := takeNumber row "text_rank"
  let (distance, row) := takeNumber row "distance"
  { key := rowKey table row
    row
    textRank := textRank.getD .zero
    distance }

/-- What decides the result of a hybrid search. -/
def payload (p : PreparedHybrid) (filter : Option Json) (weights : HybridWeights)
    (limit : UInt32) : Json :=
  .ofMembers [("kind", .string "hybrid"), ("table", .string p.table.name),
    ("query", .string p.query), ("embedding", (p.embedding.map Embedding.toJson).getD .null),
    ("fields", .array (p.textFields.map Json.string)), ("filter", filter.getD .null),
    ("weights", .array [.ofSingle weights.text, .ofSingle weights.vector]),
    ("limit", .ofNat limit.toNat)]

end PreparedHybrid

def candidates (p : PreparedHybrid) : Except SearchFault TableStatement := do
  let distance ← p.embedding.mapM (s.distance p.table)
  pure <| .candidates
    { table := p.table
      query := p.query
      textFields := p.textFields
      textSearchConfig := s.config.search.hybrid.textSearchConfig
      distance
      filter := p.filter
      cap := s.config.search.maxCandidates }

/-- Finds candidates, in the order of their primary keys. -/
def fetchCandidates (p : PreparedHybrid) : Search (List Candidate) := do
  let statement ← Search.ofExcept (s.candidates p)
  let rows ← Search.rows statement .rows
  pure (rows.map (PreparedHybrid.candidate p.table))

/-! ### Searching -/

/-- The rows that match a text, an embedding or both best. -/
def hybridSearch (r : HybridSearchRequest) : Search (List SearchResult) :=
  Search.within ("Hybrid search on " ++ describe r.table r.limit r.filter) do
    let limit ← Search.ofExcept (s.checkLimit r.limit)
    let weights ← resolveWeights r.textWeight r.vectorWeight
    let p ← Search.ofExcept (s.prepareHybrid r.table r.query r.embedding r.textFields r.filter)
    let key := CacheKey.ofPayload (p.payload r.filter weights limit)
    match ← Search.lookup key with
    | some results => pure results
    | none =>
      let candidates ← s.fetchCandidates p
      let results := Candidate.rank p.table.name weights limit.toNat candidates
      Search.store key p.table.name results
      pure results

/-- Searches one table after another; a table's later results replace its earlier
    ones. -/
def searchTables (r : HybridSearchRequest) :
    List String → Keyed (List SearchResult) → Search (Keyed (List SearchResult))
  | [], found => pure found
  | table :: tables, found => do
    let results ← s.hybridSearch { r with table }
    searchTables r tables (Keyed.insert table results found)

/-- Searches several tables with one request, whose own table is left aside. -/
def multiTableSearch (tables : List String) (r : HybridSearchRequest) :
    Search (Keyed (List SearchResult)) :=
  if tables.isEmpty then Search.ofExcept (.error .noTables) else s.searchTables r tables []

end KnowledgeSearch.Service
