/-
  KnowledgeSearch/Search/Indexing.lean
  ====================================
  **Recommending and creating indexes.**

  A recommendation counts the embedded rows of a table.  Creating a recommended index
  trusts nothing of the recommendation but its choices: the table, the column and the
  name must be those of the catalog, and the statements are rendered anew.  A failure
  is an outcome and not an error.
-/
import KnowledgeSearch.Search.Service

namespace KnowledgeSearch.Service

variable (s : Service)

/-! ### Recommending -/

/-- The count that the rows of a counting statement tell; 0 if they tell none. -/
def countOfRows (rows : List Row) : UInt64 :=
  match rows with
  | [] => 0
  | row :: _ => ((Keyed.get? row "n").bind Json.toUInt64?).getD 0

/-- The number of rows of a table that have an embedding. -/
def countEmbedded (table : Table) : Search UInt64 := do
  let rows ← Search.rows (.countEmbedded table) .first
  pure (countOfRows rows)

/-- The index that suits a table, of a wanted kind or else of the configured one. -/
def recommendIndex (tableName : String) (preference : Option IndexPreference) :
    Search IndexRecommendation := do
  let settings := s.config.index
  let table ← Search.ofExcept (s.catalog.table tableName)
  let rows ← Search.within ("Counting embedded rows in " ++ table.name) (countEmbedded table)
  pure (.make settings table (preference.getD settings.kind) rows)

/-! ### Creating -/

/-- The index that a recommendation stands for, if it agrees with the catalog. -/
def checkRecommendation (r : IndexRecommendation) : Except SearchFault VectorIndex := do
  if !s.dialect.supportsIndex then throw (.indexesUnsupported s.dialect)
  else
    let table ← s.catalog.table r.table
    if r.column ≠ table.embeddingColumn then
      throw (.notEmbeddingColumn r.column table.name)
    else
      let name := VectorIndex.nameOf table.name table.embeddingColumn r.kind
      if r.indexName ≠ name then throw (.wrongIndexName name)
      else pure ⟨name, table.name, table.embeddingColumn, r.metric, r.parameters⟩

/-- Puts the recommended index in the place of an earlier one, in one transaction. -/
def createIndex (r : IndexRecommendation) : Search Unit := do
  let index ← Search.ofExcept (s.checkRecommendation r)
  let _ ← Search.batch [.dropIndex index.name, .createIndex index]
  pure ()

/-- Creates a recommended index and tells how that ended. -/
def applyIndex (r : IndexRecommendation) : Program IndexOutcome :=
  (s.createIndex r).run.bind fun outcome => .done <|
    match outcome with
    | .ok () => .applied r.indexName
    | .error e => .failed e.report

end KnowledgeSearch.Service
