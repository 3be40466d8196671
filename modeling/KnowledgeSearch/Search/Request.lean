/-
  KnowledgeSearch/Search/Request.lean
  ===================================
  **Requests.**

  What callers ask of the search service.  A request is a record; its fields are
  checked here for their types only, and for everything else by the operation that
  they are meant for.  A filter that is present and null is kept apart from a missing
  one, since only the latter is no filter; read from JSON, both are missing.
-/
import KnowledgeSearch.Json.Record

namespace KnowledgeSearch

/-- Asks for the rows nearest to an embedding. -/
structure VectorSearchRequest where
  table : String
  embedding : Json
  filter : Option Json
  limit : Option Int64

/-- Asks for the rows that match a text, an embedding or both best. -/
structure HybridSearchRequest where
  table : String
  query : String
  embedding : Option Json
  /-- The text fields to search, if not all of the table's. -/
  textFields : Option (List String)
  filter : Option Json
  textWeight : Option Single
  vectorWeight : Option Single
  limit : Option Int64

structure EmbeddingItem where
  key : Json
  embedding : Json

/-- A query of which the relevant keys are known. -/
structure CalibrationSample where
  query : String
  embedding : Option Json
  relevantIds : List String

namespace VectorSearchRequest

def ofJson? (value : Json) : Option VectorSearchRequest := do
  let record ← value.toRecord? ["table", "embedding", "filter", "limit"]
  let table ← Members.required? record Json.toString? "table"
  let embedding ← Members.required? record some "embedding"
  let filter ← Members.optional? record some "filter"
  let limit ← Members.optional? record Json.toInt64? "limit"
  some { table, embedding, filter, limit }

end VectorSearchRequest

namespace HybridSearchRequest

def fields : List String :=
  ["table", "query", "embedding", "text_fields", "filter", "text_weight", "vector_weight",
    "limit"]

def ofJson? (value : Json) : Option HybridSearchRequest := do
  let record ← value.toRecord? fields
  let table ← Members.required? record Json.toString? "table"
  let query ← Members.withDefault? record Json.toString? "" "query"
  let embedding ← Members.optional? record some "embedding"
  let textFields ← Members.optional? record (Json.toListOf? Json.toString?) "text_fields"
  let filter ← Members.optional? record some "filter"
  let textWeight ← Members.optional? record Json.toSingle? "text_weight"
  let vectorWeight ← Members.optional? record Json.toSingle? "vector_weight"
  let limit ← Members.optional? record Json.toInt64? "limit"
  some { table, query, embedding, textFields, filter, textWeight, vectorWeight, limit }

end HybridSearchRequest

namespace EmbeddingItem

def fields : List String := ["key", "embedding"]

def ofJson? (value : Json) : Option EmbeddingItem := do
  let record ← value.toRecord? fields
  let key ← Members.required? record some "key"
  let embedding ← Members.required? record some "embedding"
  some { key, embedding }

end EmbeddingItem

namespace CalibrationSample

def fields : List String := ["query", "embedding", "relevant_ids"]

def ofJson? (value : Json) : Option CalibrationSample := do
  let record ← value.toRecord? fields
  let query ← Members.required? record Json.toString? "query"
  let embedding ← Members.optional? record some "embedding"
  let relevantIds ← Members.required? record (Json.toListOf? Json.toString?) "relevant_ids"
  some { query, embedding, relevantIds }

end CalibrationSample

end KnowledgeSearch
