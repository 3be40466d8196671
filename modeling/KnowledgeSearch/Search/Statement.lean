/-
  KnowledgeSearch/Search/Statement.lean
  =====================================
  **The statements of the search service.**

  The service sends six kinds of statements.  Each is kept as what it asks for and is
  written out by `TableStatement.toFragment`; values are bound, so only names from the
  catalog, which are plain identifiers, become part of a text.

  A search for the nearest rows orders them by distance.  A search for candidates
  computes a text rank and a distance for every row that the filter lets through and
  keeps the best rows of each side, so that neither side loses its strongest rows to
  the other.
-/
import KnowledgeSearch.Config.Basic
import KnowledgeSearch.Search.Index
import KnowledgeSearch.Sql.Condition

namespace KnowledgeSearch

/-! ### Keys -/

inductive RowKey where
  | int (value : Int64)
  | text (value : String)
deriving DecidableEq

namespace RowKey

def toParameter : RowKey → Parameter
  | .int n => .int n
  | .text s => .text s

/-- A key as callers give it: an integer or a string. -/
def ofJson? : Json → Option RowKey
  | .number n => n.toInt64?.map int
  | .string s => some (.text s)
  | _ => none

end RowKey

/-! ### Searches -/

structure NearestRows where
  table : Table
  /-- The distance of a row, with the embedding bound in it. -/
  distance : Fragment
  filter : Option Predicate
  limit : UInt32

structure CandidateRows where
  table : Table
  /-- The text to search for, without blanks around it. -/
  query : String
  textFields : List String
  textSearchConfig : String
  /-- The distance of a row, unless there is no embedding to compare with. -/
  distance : Option Fragment
  filter : Option Predicate
  /-- The number of rows to keep on each side. -/
  cap : UInt32

def Table.columnList (table : Table) : String := String.intercalate ", " table.columns

namespace NearestRows

/-- The condition of the filter, after the condition that there is an embedding. -/
def furtherCondition (d : Dialect) (rows : NearestRows) : Fragment :=
  match Predicate.condition? d rows.filter with
  | some condition => .text " AND " :: condition.parens
  | none => []

def toFragment (d : Dialect) (rows : NearestRows) : Fragment :=
  .text ("SELECT " ++ rows.table.columnList ++ ", ") :: rows.distance ++
    [.text (" AS distance FROM " ++ rows.table.name ++ " WHERE " ++ rows.table.embeddingColumn ++
      " IS NOT NULL")] ++
    rows.furtherCondition d ++
    [.text (" ORDER BY distance ASC, " ++ rows.table.primaryKey ++ " ASC LIMIT "),
      .bind (.int (Int64.ofNat rows.limit.toNat))]

end NearestRows

namespace CandidateRows

/-- The text rank of a row: the greatest over the text fields. -/
def rank? (d : Dialect) (rows : CandidateRows) : Option Fragment :=
  if rows.query.isEmpty || rows.textFields.isEmpty then none
  else
    some <| d.greatest <| rows.textFields.map fun field =>
      d.textRank field (.bind (d.textQuery rows.query)) rows.textSearchConfig

/-- The distance of a row.  Where a function measures it, rows without an embedding
    are kept from the function. -/
def guardedDistance? (d : Dialect) (rows : CandidateRows) : Option Fragment :=
  rows.distance.map fun distance =>
    match d with
    | .postgres => distance
    | .lite =>
      .text ("CASE WHEN " ++ rows.table.embeddingColumn ++ " IS NULL THEN NULL ELSE ") ::
        (distance ++ [.text " END"])

def whereClause (d : Dialect) (rows : CandidateRows) : Fragment :=
  match Predicate.condition? d rows.filter with
  | some condition => .text " WHERE " :: condition.parens
  | none => []

/-- The keys of the best rows of one side. -/
def side (rows : CandidateRows) (condition order part : String) : Fragment :=
  let key := rows.table.primaryKey
  [.text ("SELECT " ++ key ++ " FROM (SELECT " ++ key ++ " FROM scored WHERE " ++ condition ++
      " ORDER BY " ++ order ++ ", " ++ key ++ " ASC LIMIT "),
    .bind (.int (Int64.ofNat rows.cap.toNat)),
    .text (") AS " ++ part)]

def sides (d : Dialect) (rows : CandidateRows) : List Fragment :=
  (if (rows.guardedDistance? d).isSome then
    [rows.side "distance IS NOT NULL" "distance ASC" "by_vector"] else []) ++
  (if (rows.rank? d).isSome then [rows.side "text_rank > 0" "text_rank DESC" "by_text"] else [])

def toFragment (d : Dialect) (rows : CandidateRows) : Fragment :=
  let key := rows.table.primaryKey
  .text ("WITH scored AS (SELECT " ++ rows.table.columnList ++ ", ") ::
    (rows.rank? d).getD [.text "0.0"] ++ .text " AS text_rank, " ::
    (rows.guardedDistance? d).getD [.text "NULL"] ++
    .text (" AS distance FROM " ++ rows.table.name) ::
    rows.whereClause d ++
    .text (") SELECT * FROM scored WHERE " ++ key ++ " IN (") ::
    Fragment.join " UNION " (rows.sides d) ++ [.text (") ORDER BY " ++ key ++ " ASC")]

end CandidateRows

/-! ### Statements -/

/-- A statement of the search service. -/
inductive TableStatement where
  | nearest (rows : NearestRows)
  | candidates (rows : CandidateRows)
  /-- Counts the rows with an embedding, as `n`. -/
  | countEmbedded (table : Table)
  | storeEmbedding (table : Table) (key : RowKey) (embedding : Embedding)
  | dropIndex (name : String)
  | createIndex (index : VectorIndex)

namespace TableStatement

def toFragment (d : Dialect) : TableStatement → Fragment
  | .nearest rows => rows.toFragment d
  | .candidates rows => rows.toFragment d
  | .countEmbedded table =>
    [.text ("SELECT COUNT(*) AS n FROM " ++ table.name ++ " WHERE " ++ table.embeddingColumn ++
      " IS NOT NULL")]
  | .storeEmbedding table key embedding =>
    [.text ("UPDATE " ++ table.name ++ " SET " ++ table.embeddingColumn ++ " = "),
      .bind (.vector embedding), .text (" WHERE " ++ table.primaryKey ++ " = "),
      .bind key.toParameter]
  | .dropIndex name => [.text (VectorIndex.dropText name)]
  | .createIndex index => [.text index.createText]

/-- The text of a statement and its parameters. -/
def toQuery (d : Dialect) (statement : TableStatement) : Query :=
  (statement.toFragment d).toQuery d

end TableStatement

end KnowledgeSearch
