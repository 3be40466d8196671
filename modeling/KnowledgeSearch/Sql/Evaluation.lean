/-
  KnowledgeSearch/Sql/Evaluation.lean
  ===================================
  **What conditions mean.**

  A condition of the `lite` dialect, read as a question about one row.  A `Scope` says
  what each field stands for; the answer is a `Truth`, combined in the same way as the
  written conditions are.  Comparisons go by kind first and are unknown if a value is
  missing; whether a value is missing is always known.
-/
import KnowledgeSearch.Sql.Cell
import KnowledgeSearch.Sql.Condition
import KnowledgeSearch.Sql.Like
import KnowledgeSearch.Sql.Truth

namespace KnowledgeSearch

/-! ### Operands -/

/-- What a field stands for in a row. -/
structure Operand where
  cell : Cell
  /-- Whether a text that it is compared with is taken as the number it writes. -/
  numeric : Bool
deriving DecidableEq

namespace Operand

def isMissing (operand : Operand) : Bool := operand.cell = .null

/-- A value as the operand is compared with it. -/
def fit (operand : Operand) (cell : Cell) : Cell := if operand.numeric then cell.toNumber else cell

/-- Whether the operand and a value stand in a certain order. -/
def compareTruth (operand : Operand) (admits : Ordering → Bool) (cell : Cell) : Truth :=
  match operand.cell.compare? (operand.fit cell) with
  | some order => .ofBool (admits order)
  | none => .unknown

def matchTruth (operand : Operand) (pattern : Cell) : Truth :=
  match operand.cell.toText?, pattern.toText? with
  | some text, some pattern => .ofBool (Like.holds none pattern text)
  | _, _ => .unknown

/-- Whether the operand is one of some values. -/
def memberTruth (operand : Operand) (cells : List Cell) : Truth :=
  .any (cells.map (operand.compareTruth (· == .eq)))

end Operand

/-! ### Leaves -/

/-- Whether a comparison holds between values in an order. -/
def Comparison.admits (comparison : Comparison) (order : Ordering) : Bool :=
  match comparison with
  | .eq => order == .eq
  | .ne => order != .eq
  | .gt => order == .gt
  | .gte => order != .lt
  | .lt => order == .lt
  | .lte => order != .gt
  | .like | .ilike => false

namespace FieldPath

/-- The stored form of the value that the field is compared with. -/
def compared (field : FieldPath) (value : Scalar) : Cell := .ofParameter (field.parameter value)

def comparisonTruth (field : FieldPath) (operand : Operand) (comparison : Comparison)
    (value : Scalar) : Truth :=
  if value.isNull then .ofBool (operand.isMissing != (comparison == .ne))
  else if comparison.isPattern then operand.matchTruth (field.compared value)
  else operand.compareTruth comparison.admits (field.compared value)

/-- The answer of a membership, null being looked for on its own. -/
def membershipTruth (field : FieldPath) (operand : Operand) (negated : Bool)
    (values : List Scalar) : Outcome Truth :=
  let present := values.filter fun value => !value.isNull
  let listed := operand.memberTruth (present.map field.compared)
  let truth :=
    if !values.any Scalar.isNull then listed
    else if present.isEmpty then .ofBool operand.isMissing
    else listed.or (.ofBool operand.isMissing)
  if values.isEmpty then if negated then .always else .condition .no
  else .condition (if negated then truth.negate else truth)

end FieldPath

def Test.truth (field : FieldPath) (operand : Operand) (test : Test) : Outcome Truth :=
  if !Dialect.lite.supports test.operator then .ignored
  else
    match test with
    | .compare comparison value => .condition (field.comparisonTruth operand comparison value)
    | .membership negated values => field.membershipTruth operand negated values
    | .presence expected => .condition (.ofBool (operand.isMissing != expected))
    | .contains _ | .containedBy _ | .pathExists _ => .ignored

/-! ### Predicates -/

def Truth.connectives : Connectives Truth where
  never := .no
  negate := negate
  all := all
  any := any

/-- What each field stands for in a row. -/
abbrev Scope := FieldPath → Operand

namespace Predicate

def truth (scope : Scope) (predicate : Predicate) : Outcome Truth :=
  predicate.combine Truth.connectives fun l => l.test.truth l.field (scope l.field)

/-- Whether the condition of a predicate lets a row through; without one every row
    passes. -/
def admits (scope : Scope) (predicate : Predicate) : Bool :=
  match (predicate.truth scope).condition? with
  | some truth => truth = .yes
  | none => true

end Predicate

end KnowledgeSearch
