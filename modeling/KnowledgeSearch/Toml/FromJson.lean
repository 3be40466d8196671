/-
  KnowledgeSearch/Toml/FromJson.lean
  ==================================
  **Configuration documents from JSON.**

  Settings that come as JSON keep their names, values and types: integers stay integers
  and other numbers stay floats.  A configuration document has no null; an entry or an
  item that is null is left out.
-/
import KnowledgeSearch.Json.Basic
import KnowledgeSearch.Toml.Printer

namespace KnowledgeSearch.Toml

mutual

/-- A JSON value as a value of a configuration document. -/
def ofJson? : Json → Option Toml
  | .null => none
  | .bool b => some (.boolean b)
  | .number (.int n _) => some (.integer n)
  | .number (.float x _) => some (.float x)
  | .string s => some (.string s)
  | .array items => some (.array (itemsOfJson items))
  | .object members => some (.table (entriesOfJson members))

def itemsOfJson : List Json → List Toml
  | [] => []
  | item :: items => (ofJson? item).toList ++ itemsOfJson items

/-- The members of an object. -/
def entriesOfJson : List (String × Json) → List (String × Toml)
  | [] => []
  | (key, value) :: members =>
    ((ofJson? value).map fun v => (key, v)).toList ++ entriesOfJson members

end

def documentOfJson? : Json → Option String
  | .object members => some (render (entriesOfJson members))
  | _ => none

end KnowledgeSearch.Toml
