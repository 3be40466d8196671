/-
  KnowledgeSearch/Filter/Predicate.lean
  =====================================
  **Predicates.**

  The closed form of a filter.  A leaf tests one field; groups and negations
  combine predicates.  The operators of filter documents are in one-to-one
  correspondence with the tests that a leaf can make, and `Test.operator` says
  which one stands for which.
-/
import KnowledgeSearch.Filter.Field
import KnowledgeSearch.Json.Basic

namespace KnowledgeSearch

/-! ### Operators -/

inductive Operator where
  | eq
  | ne
  | gt
  | gte
  | lt
  | lte
  | like
  | ilike
  | isIn
  | notIn
  | isPresent
  | contains
  | containedBy
  | pathExists
deriving DecidableEq, Repr

namespace Operator

/-- The key that writes an operator in a filter document. -/
def key : Operator → String
  | .eq => "$eq"
  | .ne => "$ne"
  | .gt => "$gt"
  | .gte => "$gte"
  | .lt => "$lt"
  | .lte => "$lte"
  | .like => "$like"
  | .ilike => "$ilike"
  | .isIn => "$in"
  | .notIn => "$nin"
  | .isPresent => "$exists"
  | .contains => "$jsonb_contains"
  | .containedBy => "$jsonb_contained_by"
  | .pathExists => "$jsonb_path_exists"

def all : List Operator :=
  [.eq, .ne, .gt, .gte, .lt, .lte, .like, .ilike, .isIn, .notIn, .isPresent, .contains,
    .containedBy, .pathExists]

def ofKey? (text : String) : Option Operator := all.find? fun operator => operator.key = text

theorem ofKey?_key (operator : Operator) : ofKey? operator.key = some operator := by
  cases operator <;> decide

/-- Whether an operator looks into JSON values in a way that not every database
    offers. -/
def isJson : Operator → Bool
  | .contains | .containedBy | .pathExists => true
  | _ => false

end Operator

/-! ### Values -/

/-- A value that a field is compared with. -/
inductive Scalar where
  | null
  | bool (value : Bool)
  | int (value : Int64)
  | float (value : Double)
  | text (value : String)
deriving DecidableEq

namespace Scalar

def isNull : Scalar → Bool
  | .null => true
  | _ => false

def isNumeric : Scalar → Bool
  | .int _ | .float _ => true
  | _ => false

/-- The text that a value extracted from a JSON column is compared with. -/
def toText? : Scalar → Option String
  | .null => none
  | .bool true => some "true"
  | .bool false => some "false"
  | .int n => some (toString n.toInt)
  | .float x => some (plainStyle.format x)
  | .text s => some s

end Scalar

/-! ### Tests and predicates -/

/-- The comparisons of a field with one value. -/
inductive Comparison where
  | eq
  | ne
  | gt
  | gte
  | lt
  | lte
  | like
  | ilike
deriving DecidableEq, Repr

namespace Comparison

def operator : Comparison → Operator
  | .eq => .eq
  | .ne => .ne
  | .gt => .gt
  | .gte => .gte
  | .lt => .lt
  | .lte => .lte
  | .like => .like
  | .ilike => .ilike

/-- Whether the comparison asks for an order. -/
def isRange : Comparison → Bool
  | .gt | .gte | .lt | .lte => true
  | _ => false

def isPattern : Comparison → Bool
  | .like | .ilike => true
  | _ => false

end Comparison

/-- What a leaf asks of its field. -/
inductive Test where
  | compare (comparison : Comparison) (value : Scalar)
  | membership (negated : Bool) (values : List Scalar)
  | presence (expected : Bool)
  | contains (value : Json)
  | containedBy (value : Json)
  | pathExists (path : String)

def Test.operator : Test → Operator
  | .compare comparison _ => comparison.operator
  | .membership false _ => .isIn
  | .membership true _ => .notIn
  | .presence _ => .isPresent
  | .contains _ => .contains
  | .containedBy _ => .containedBy
  | .pathExists _ => .pathExists

/-- A test of one field. -/
structure Leaf where
  field : FieldPath
  test : Test

/-- A predicate over the rows of a table. -/
inductive Predicate where
  | leaf (leaf : Leaf)
  | all (children : List Predicate)
  | any (children : List Predicate)
  | not (child : Predicate)

end KnowledgeSearch
