/-
  KnowledgeSearch/Search/Vector.lean
  ==================================
  **Vector search, and writing embeddings.**

  A vector search finds the rows nearest to an embedding.  The request is checked
  first, then the cache is asked, and only then the database.  Writing embeddings
  checks all of them, writes them in one transaction, and removes from the cache what
  was read from the table.
-/
import KnowledgeSearch.Search.Service

namespace KnowledgeSearch.Service

variable (s : Service)

/-! ### Searching -/

/-- A vector search whose table, limit and embedding are in order. -/
structure PreparedVector where
  table : Table
  limit : UInt32
  embedding : Embedding

def prepareVector (r : VectorSearchRequest) : Except SearchFault PreparedVector := do
  let table ← s.catalog.table r.table
  let limit ← s.checkLimit r.limit
  let embedding ← readEmbedding table r.embedding
  pure { table, limit, embedding }

namespace PreparedVector

/-- What decides the result of a vector search. -/
def payload (p : PreparedVector) (filter : Option Json) : Json :=
  .ofMembers [("kind", .string "vector"), ("table", .string p.table.name),
    ("embedding", p.embedding.toJson), ("filter", filter.getD .null),
    ("limit", .ofNat p.limit.toNat)]

def result (table : Table) (row : Row) : SearchResult :=
  let (distance, row) := takeNumber row "distance"
  { table := table.name
    key := rowKey table row
    row
    distance
    similarity := match distance with
      | some distance => Binary.one - distance
      | none => .zero
    textScore := none
    hybridScore := none }

end PreparedVector

def nearest (p : PreparedVector) (filter : Option Json) : Except SearchFault TableStatement := do
  let filter ← readFilter p.table filter
  let distance ← s.distance p.table p.embedding
  pure (.nearest { table := p.table, distance, filter, limit := p.limit })

/-- The rows nearest to an embedding, ties in the order of the primary key. -/
def vectorSearch (r : VectorSearchRequest) : Search (List SearchResult) :=
  Search.within ("Vector search on " ++ describe r.table r.limit r.filter) do
    let p ← Search.ofExcept (s.prepareVector r)
    let key := CacheKey.ofPayload (p.payload r.filter)
    match ← Search.lookup key with
    | some results => pure results
    | none =>
      let statement ← Search.ofExcept (s.nearest p r.filter)
      let rows ← Search.rows statement .rows
      let results := rows.map (PreparedVector.result p.table)
      Search.store key p.table.name results
      pure results

/-! ### Writing -/

def storeItem (table : Table) (item : EmbeddingItem) : Except SearchFault TableStatement := do
  let embedding ← readEmbedding table item.embedding
  match RowKey.ofJson? item.key with
  | some key => pure (.storeEmbedding table key embedding)
  | none => throw .badKey

/-- The statements that write items, the first of them having the given position. -/
def storeItems (table : Table) :
    Nat → List EmbeddingItem → Except SearchError (List TableStatement)
  | _, [] => .ok []
  | position, item :: items =>
    match storeItem table item with
    | .error fault => .error (SearchError.inContext fault s!"item {position}")
    | .ok statement => do
      let statements ← storeItems table (position + 1) items
      pure (statement :: statements)

/-- Writes embeddings, all or none; gives the number of rows that took one. -/
def storeEmbeddings (tableName : String) (items : List EmbeddingItem) : Search Nat :=
  Search.within s!"Storing {items.length} embeddings in {tableName}" do
    let table ← Search.ofExcept (s.catalog.table tableName)
    let statements ← ExceptT.mk (.done (storeItems table 0 items))
    if statements.isEmpty then pure 0
    else
      let affected ← Search.batch statements
      Search.invalidate table.name
      pure affected

end KnowledgeSearch.Service
