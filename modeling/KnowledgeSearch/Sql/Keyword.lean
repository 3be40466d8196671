/-
  KnowledgeSearch/Sql/Keyword.lean
  ================================
  **Words with a meaning of their own.**

  Some words that could be names cannot stand for a column in a statement of the `lite`
  dialect, since the language uses them itself.  The case of letters does not count.
-/
namespace KnowledgeSearch.Keyword

/-- The words that are no column's name in an expression. -/
def reserved : List String :=
  ["add", "all", "alter", "and", "as", "autoincrement", "between", "case", "cast", "check",
    "collate", "commit", "constraint", "create", "default", "deferrable", "delete", "distinct",
    "drop", "else", "escape", "except", "exists", "foreign", "from", "group", "having", "in",
    "index", "insert", "intersect", "into", "is", "isnull", "join", "limit", "not", "nothing",
    "notnull", "on", "or", "order", "primary", "raise", "references", "returning", "select",
    "set", "table", "then", "to", "transaction", "union", "unique", "update", "using", "values",
    "when", "where"]

def isReserved (word : String) : Bool := reserved.contains word.toLower

def isTruthValue (word : String) : Bool := ["true", "false"].contains word.toLower

end KnowledgeSearch.Keyword
