/-
  KnowledgeSearch/Sql/Dialect.lean
  ================================
  **Expressions of the two dialects.**

  How each dialect reaches into a JSON column, matches text without case, measures
  the distance of two vectors and ranks text.  Every function takes the expressions
  that it combines and gives the combined expression; operands are fragments, so
  that a bound value stays bound.
-/
import KnowledgeSearch.Sql.Fragment
import KnowledgeSearch.Text.Lower

namespace KnowledgeSearch

/-- How the distance of two embeddings is measured. -/
inductive Metric where
  | cosine
  | l2
  | innerProduct
deriving DecidableEq, Repr

def Metric.name : Metric → String
  | .cosine => "cosine"
  | .l2 => "l2"
  | .innerProduct => "inner_product"

namespace Dialect

/-! ### JSON columns -/

/-- The steps into a JSON column, each behind its arrow; the last step gives text
    if asked to. -/
def arrows (asText : Bool) : List String → String
  | [] => ""
  | [key] => (if asText then "->>" else "->") ++ "'" ++ key ++ "'"
  | key :: rest => "->" ++ "'" ++ key ++ "'" ++ arrows asText rest

/-- The value at a path inside a JSON column, as text or as JSON. -/
def jsonExtract (d : Dialect) (column : String) (path : List String) (asText : Bool) : String :=
  match d with
  | .lite =>
    let value := "json_extract(" ++ column ++ ", '$." ++ String.intercalate "." path ++ "')"
    if asText then "CAST(" ++ value ++ " AS TEXT)" else value
  | .postgres => column ++ arrows asText path

/-- The condition that a path exists in a JSON column, be it with a JSON null. -/
def jsonKeyPresent (d : Dialect) (column : String) (path : List String) : String :=
  match d with
  | .lite => "json_type(" ++ column ++ ", '$." ++ String.intercalate "." path ++ "') IS NOT NULL"
  | .postgres => d.jsonExtract column path false ++ " IS NOT NULL"

def numeric (d : Dialect) (expression : String) : String :=
  match d with
  | .lite => "CAST(" ++ expression ++ " AS REAL)"
  | .postgres => "(" ++ expression ++ ")::double precision"

/-! ### Text -/

/-- The condition that an expression matches a pattern without case. -/
def ilike (d : Dialect) (expression : String) (pattern : Fragment) : Fragment :=
  match d with
  | .lite => .text ("LOWER(" ++ expression ++ ") LIKE LOWER(") :: (pattern ++ [.text ")"])
  | .postgres => .text (expression ++ " ILIKE ") :: pattern

/-- The condition that a text field matches the bound query. -/
def textMatch (d : Dialect) (field : String) (query : Fragment) (config : String) : Fragment :=
  match d with
  | .lite =>
    .text ("LOWER(COALESCE(" ++ field ++ ", '')) LIKE ") :: (query ++ [.text " ESCAPE '\\'"])
  | .postgres =>
    .text ("to_tsvector('" ++ config ++ "', COALESCE(" ++ field ++
        "::text, '')) @@ plainto_tsquery('" ++ config ++ "', ") ::
      (query ++ [.text ")"])

/-- The rank of a text field against the bound query: 1 or 0 where there is only
    substring search. -/
def textRank (d : Dialect) (field : String) (query : Fragment) (config : String) : Fragment :=
  match d with
  | .lite =>
    .text "CASE WHEN " :: (d.textMatch field query config ++ [.text " THEN 1.0 ELSE 0.0 END"])
  | .postgres =>
    .text ("ts_rank(to_tsvector('" ++ config ++ "', COALESCE(" ++ field ++
        "::text, '')), plainto_tsquery('" ++ config ++ "', ") ::
      (query ++ [.text "))"])

/-- Guards the characters that a pattern would not take literally. -/
def escapeLike (text : String) : String :=
  String.ofList <| text.toList.flatMap fun c =>
    if c = '%' ∨ c = '_' ∨ c = '\\' then ['\\', c] else [c]

/-- The parameter that a query text is bound as: a pattern for a substring, or the
    text itself where the database parses it. -/
def textQuery (d : Dialect) (query : String) : Parameter :=
  match d with
  | .lite => .text ("%" ++ escapeLike (Text.lower query) ++ "%")
  | .postgres => .text query

/-! ### Vectors and rows -/

/-- The distance between a column and a bound vector, where the dialect has the
    metric. -/
def distance? (d : Dialect) (metric : Metric) (column : String) (vector : Fragment) :
    Option Fragment :=
  let operator := fun (sign : String) =>
    some (.text ("(" ++ column ++ " " ++ sign ++ " ") :: (vector ++ [.text ")"]))
  let call := fun (function : String) =>
    some (.text (function ++ "(" ++ column ++ ", ") :: (vector ++ [.text ")"]))
  match d, metric with
  | .postgres, .cosine => operator "<=>"
  | .postgres, .l2 => operator "<->"
  | .postgres, .innerProduct => operator "<#>"
  | .lite, .cosine => call "vec_distance_cosine"
  | .lite, .l2 => call "vec_distance_l2"
  | .lite, .innerProduct => none

/-- The largest of several expressions in a row. -/
def greatest (d : Dialect) : List Fragment → Fragment
  | [] => [.text "0.0"]
  | [single] => single
  | several =>
    let name := match d with
      | .lite => "MAX("
      | .postgres => "GREATEST("
    .text name :: (Fragment.join ", " several ++ [.text ")"])

end Dialect

end KnowledgeSearch
