/-
  KnowledgeSearch/Sql/Fragment.lean
  =================================
  **Statement text with its bound values.**

  Values never become part of a statement's text; they are bound to placeholders.
  A `Fragment` is a piece of statement text in which the places of bound values are
  still the values themselves.  Rendering it for a dialect, from a given ordinal on,
  writes one placeholder for each of them, so text and parameters agree by
  construction.
-/
import KnowledgeSearch.Embedding
import KnowledgeSearch.Filter.Predicate

namespace KnowledgeSearch

/-! ### Parameters -/

/-- A value that is bound to a statement. -/
inductive Parameter where
  | null
  | bool (value : Bool)
  | int (value : Int64)
  | float (value : Double)
  | text (value : String)
  | json (value : Json)
  | vector (value : Embedding)

namespace Parameter

def ofScalar : Scalar → Parameter
  | .null => .null
  | .bool b => .bool b
  | .int n => .int n
  | .float x => .float x
  | .text s => .text s

def toJson : Parameter → Json
  | .null => .null
  | .bool b => .bool b
  | .int n => .ofInt n.toInt
  | .float x => .ofDouble x
  | .text s => .string s
  | .json v => v
  | .vector e => e.toJson

end Parameter

/-! ### Dialects -/

/-- The SQL dialect a statement is written in.  `lite` has positional placeholders
    and no containment operators for JSON; `postgres` numbers its placeholders. -/
inductive Dialect where
  | lite
  | postgres
deriving DecidableEq, Repr

namespace Dialect

def name : Dialect → String
  | .lite => "lite"
  | .postgres => "postgres"

/-- The placeholder of the parameter with the given ordinal, counted from 1, with
    the cast that its type needs. -/
def placeholder (d : Dialect) (ordinal : Nat) (value : Parameter) : String :=
  match d with
  | .lite => "?"
  | .postgres =>
    let place := "$" ++ toString ordinal
    match value with
    | .json _ => place ++ "::jsonb"
    | .vector _ => place ++ "::text::vector"
    | _ => place

def supports : Dialect → Operator → Bool
  | .postgres, _ => true
  | .lite, operator => !operator.isJson

/-- Whether a dialect has approximate nearest-neighbour indexes. -/
def supportsIndex : Dialect → Bool
  | .postgres => true
  | .lite => false

end Dialect

/-! ### Fragments -/

/-- A piece of statement text, or the place of a bound value. -/
inductive Piece where
  | text (text : String)
  | bind (value : Parameter)

/-- Statement text with its bound values in place. -/
abbrev Fragment := List Piece

namespace Fragment

instance : Coe String Fragment := ⟨fun text => [.text text]⟩

/-- The values that a fragment binds, in order. -/
def params : Fragment → List Parameter
  | [] => []
  | .text _ :: rest => params rest
  | .bind value :: rest => value :: params rest

/-- The text of a fragment whose first placeholder has the given ordinal. -/
def render (d : Dialect) : Nat → Fragment → String
  | _, [] => ""
  | ordinal, .text text :: rest => text ++ render d ordinal rest
  | ordinal, .bind value :: rest => d.placeholder ordinal value ++ render d (ordinal + 1) rest

def bind (value : Parameter) : Fragment := [.bind value]

def parens (inner : Fragment) : Fragment := .text "(" :: (inner ++ [.text ")"])

/-- Fragments with a text between them. -/
def join (separator : String) : List Fragment → Fragment
  | [] => []
  | [single] => single
  | first :: rest => first ++ .text separator :: join separator rest

theorem params_append (a b : Fragment) : params (a ++ b) = params a ++ params b := by
  induction a with
  | nil => rfl
  | cons piece rest ih => cases piece <;> simp [params, ih]

end Fragment

/-! ### Queries -/

/-- A statement and its parameters in the order of their placeholders. -/
structure Query where
  sql : String
  params : List Parameter

/-- A fragment as a statement of its own. -/
def Fragment.toQuery (d : Dialect) (fragment : Fragment) : Query :=
  ⟨fragment.render d 1, fragment.params⟩

/-- The report of a query, its parameters as plain JSON. -/
def Query.toJson (query : Query) : Json :=
  .ofMembers [("sql", .string query.sql), ("params", .array (query.params.map Parameter.toJson))]

end KnowledgeSearch
