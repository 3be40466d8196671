/-
  KnowledgeSearch/Filter/Field.lean
  =================================
  **Fields of a filter.**

  A field is a column, or a place inside the JSON value of a column, written with
  dots: `data.address.city`.  Every part is a plain identifier; the type says so,
  because fields are the only texts of a filter that enter a statement.
-/
import KnowledgeSearch.Text.Identifier

namespace KnowledgeSearch

/-- A column, optionally followed by a path into its JSON value. -/
structure FieldPath where
  column : String
  path : List String
  plain : Text.isIdentifier column = true ∧ path.all Text.isIdentifier = true
deriving DecidableEq

namespace FieldPath

def ofString? (raw : String) : Option FieldPath :=
  match (Text.splitAt '.' raw.toList).map String.ofList with
  | [] => none
  | column :: path =>
    if plain : Text.isIdentifier column = true ∧ path.all Text.isIdentifier = true then
      some ⟨column, path, plain⟩
    else none

/-- Whether the field lies inside a JSON value. -/
def isJsonPath (field : FieldPath) : Bool := !field.path.isEmpty

end FieldPath

end KnowledgeSearch
