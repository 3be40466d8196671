/-
  KnowledgeSearch/Sql/Condition.lean
  ==================================
  **From predicates to conditions.**

  A predicate is written as a condition of a dialect.  A leaf whose operator the
  dialect does not have is ignored, and so are negations and groups left with
  nothing; a leaf that every row satisfies (not being in an empty list) writes
  nothing either, but it is remembered, since it decides an alternative and its
  negation excludes every row.  `Outcome` keeps the three cases apart.
-/
import KnowledgeSearch.Sql.Dialect

namespace KnowledgeSearch

/-! ### Outcomes -/

/-- What a predicate comes to in a dialect. -/
inductive Outcome (α : Type) where
  /-- Nothing: the dialect cannot express it. -/
  | ignored
  /-- Nothing: every row satisfies it. -/
  | always
  /-- A condition. -/
  | condition (condition : α)

/-- How conditions are combined. -/
structure Connectives (α : Type) where
  /-- The condition that no row satisfies. -/
  never : α
  negate : α → α
  all : List α → α
  /-- Any of some conditions, at least one. -/
  any : List α → α

namespace Outcome

variable {α : Type} (c : Connectives α)

def condition? : Outcome α → Option α
  | .condition inner => some inner
  | _ => none

def isAlways : Outcome α → Bool
  | .always => true
  | _ => false

def negate : Outcome α → Outcome α
  | .ignored => .ignored
  | .always => .condition c.never
  | .condition inner => .condition (c.negate inner)

/-- All of some outcomes; of none, no row satisfies it. -/
def conjoin (outcomes : List (Outcome α)) : Outcome α :=
  if outcomes.isEmpty then .condition c.never
  else
    match outcomes.filterMap condition? with
    | [] => if outcomes.any isAlways then .always else .ignored
    | conditions => .condition (c.all conditions)

/-- Any of some outcomes; of none, no row satisfies it. -/
def disjoin (outcomes : List (Outcome α)) : Outcome α :=
  if outcomes.isEmpty then .condition c.never
  else if outcomes.any isAlways then .always
  else
    match outcomes.filterMap condition? with
    | [] => .ignored
    | conditions => .condition (c.any conditions)

end Outcome

namespace Predicate

variable {α : Type} (c : Connectives α) (leafOutcome : Leaf → Outcome α)

mutual

/-- What a predicate comes to, given what its leaves come to. -/
def combine : Predicate → Outcome α
  | .leaf l => leafOutcome l
  | .all children => .conjoin c (combineEach children)
  | .any children => .disjoin c (combineEach children)
  | .not child => .negate c (combine child)

/-- What each of some predicates comes to. -/
def combineEach : List Predicate → List (Outcome α)
  | [] => []
  | child :: children => combine child :: combineEach children

end

end Predicate

/-! ### Written conditions -/

namespace Fragment

/-- The condition that no row satisfies. -/
def never : Fragment := [.text "1 = 0"]

/-- The condition that every row satisfies. -/
def trivial : Fragment := [.text "1 = 1"]

/-- How written conditions are combined: each stands in brackets. -/
def connectives : Connectives Fragment where
  never := never
  negate condition := .text "NOT (" :: (condition ++ [.text ")"])
  all conditions := join " AND " (conditions.map parens)
  any conditions := join " OR " (conditions.map parens)

end Fragment

/-! ### Leaves -/

def Comparison.sign : Comparison → String
  | .eq => "="
  | .ne => "<>"
  | .gt => ">"
  | .gte => ">="
  | .lt => "<"
  | .lte => "<="
  | .like => "LIKE"
  | .ilike => "ILIKE"

namespace FieldPath

/-- The field as an operand of comparisons: values inside JSON as text. -/
def operand (field : FieldPath) (d : Dialect) : String :=
  if field.isJsonPath then d.jsonExtract field.column field.path true else field.column

def jsonOperand (field : FieldPath) (d : Dialect) : String :=
  if field.isJsonPath then d.jsonExtract field.column field.path false else field.column

/-- The parameter that a value is compared as: a text where the field is read as
    text. -/
def parameter (field : FieldPath) (value : Scalar) : Parameter :=
  if field.isJsonPath && !value.isNull then
    match value.toText? with
    | some text => .text text
    | none => .null
  else .ofScalar value

/-- A comparison with one value.  Comparing with null asks for its presence; an
    order of numbers inside JSON is an order of numbers, not of texts. -/
def comparisonCondition (field : FieldPath) (d : Dialect) (comparison : Comparison)
    (value : Scalar) : Fragment :=
  let operand := field.operand d
  if value.isNull then
    [.text (operand ++ if comparison = .ne then " IS NOT NULL" else " IS NULL")]
  else if comparison = .ilike then d.ilike operand (.bind (field.parameter value))
  else if comparison.isRange && field.isJsonPath && value.isNumeric then
    [.text (d.numeric operand ++ " " ++ comparison.sign ++ " "), .bind (.ofScalar value)]
  else [.text (operand ++ " " ++ comparison.sign ++ " "), .bind (field.parameter value)]

/-- Membership in a list, null being looked for on its own. -/
def membershipOutcome (field : FieldPath) (d : Dialect) (negated : Bool)
    (values : List Scalar) : Outcome Fragment :=
  let operand := field.operand d
  let present := values.filter fun value => !value.isNull
  let listed : Fragment :=
    .text (operand ++ if negated then " NOT IN (" else " IN (") ::
      (Fragment.join ", " (present.map fun value => .bind (field.parameter value)) ++
        [.text ")"])
  let nullTest : Fragment := [.text (operand ++ if negated then " IS NOT NULL" else " IS NULL")]
  if values.isEmpty then if negated then .always else .condition Fragment.never
  else if !values.any Scalar.isNull then .condition listed
  else if present.isEmpty then .condition nullTest
  else
    .condition <| Fragment.parens <|
      listed ++ .text (if negated then " AND " else " OR ") :: nullTest

/-- The presence of a column's value, or of a path in a JSON column. -/
def presenceCondition (field : FieldPath) (d : Dialect) (expected : Bool) : Fragment :=
  if field.isJsonPath then
    let condition := d.jsonKeyPresent field.column field.path
    if expected then [.text condition] else [.text ("NOT (" ++ condition ++ ")")]
  else [.text (field.column ++ if expected then " IS NOT NULL" else " IS NULL")]

end FieldPath

def Test.outcome (field : FieldPath) (d : Dialect) (test : Test) : Outcome Fragment :=
  if !d.supports test.operator then .ignored
  else
    match test with
    | .compare op value => .condition (field.comparisonCondition d op value)
    | .membership negated values => field.membershipOutcome d negated values
    | .presence expected => .condition (field.presenceCondition d expected)
    | .contains value => .condition [.text (field.jsonOperand d ++ " @> "), .bind (.json value)]
    | .containedBy value =>
      .condition [.text (field.jsonOperand d ++ " <@ "), .bind (.json value)]
    | .pathExists path =>
      .condition [.text ("jsonb_path_exists(" ++ field.jsonOperand d ++ ", "), .bind (.text path),
        .text "::jsonpath)"]

/-! ### Predicates -/

namespace Predicate

/-- What a predicate comes to in a dialect. -/
def outcome (d : Dialect) (predicate : Predicate) : Outcome Fragment :=
  predicate.combine Fragment.connectives fun l => l.test.outcome l.field d

/-- What each of some predicates comes to. -/
def outcomes (d : Dialect) (predicates : List Predicate) : List (Outcome Fragment) :=
  combineEach Fragment.connectives (fun l => l.test.outcome l.field d) predicates

/-- The condition that an optional predicate comes to, if it comes to one. -/
def condition? (d : Dialect) (predicate : Option Predicate) : Option Fragment :=
  predicate.bind fun p => (p.outcome d).condition?

/-- A condition that can always follow `WHERE`. -/
def compile (d : Dialect) (predicate : Option Predicate) : Query :=
  ((condition? d predicate).getD Fragment.trivial).toQuery d

end Predicate

end KnowledgeSearch
