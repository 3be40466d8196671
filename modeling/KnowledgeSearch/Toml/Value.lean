/-
  KnowledgeSearch/Toml/Value.lean
  ===============================
  **Values of a configuration document.**

  Integers are kept exactly; dates and times are kept as they
  are written, since no setting is one.
-/
import KnowledgeSearch.Numeric.Decimal

namespace KnowledgeSearch

inductive Toml where
  | string (value : String)
  | integer (value : Int)
  | float (value : Double)
  | boolean (value : Bool)
  | datetime (written : String)
  | array (items : List Toml)
  | table (entries : List (String × Toml))

end KnowledgeSearch
