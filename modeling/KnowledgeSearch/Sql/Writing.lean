/-
  KnowledgeSearch/Sql/Writing.lean
  ================================
  **Writing a predicate in place.**

  `Statement.pushPredicate` first finds out what a predicate comes to and appends
  that.  The writer below does it in one pass over the statement itself: separators,
  brackets and bound values are written before it is known whether the node that they
  belong to comes to a condition, and where it does not the statement is cut back to
  the mark that was set before them.
-/
import KnowledgeSearch.Sql.Statement

namespace KnowledgeSearch

/-- A place in a statement under construction, to which it can be cut back. -/
structure Mark where
  /-- The number of characters written before it. -/
  written : Nat
  /-- The number of values bound before it. -/
  bound : Nat

namespace Statement

def mark (s : Statement) : Mark := ⟨s.sql.toList.length, s.params.length⟩

/-- Cuts a statement back to a mark. -/
def reset (s : Statement) (m : Mark) : Statement :=
  { s with
    sql := String.ofList (s.sql.toList.take m.written)
    params := s.params.take m.bound }

/-! ### Leaves -/

/-- What is reported of an outcome, and the statement with its condition appended. -/
def after (s : Statement) : Outcome Fragment → Outcome Unit × Statement
  | .ignored => (.ignored, s)
  | .always => (.always, s)
  | .condition fragment => (.condition (), s.append fragment)

/-- The values of a list, with commas between them. -/
def writeListed (field : FieldPath) : List Scalar → Statement → Statement
  | [], s => s
  | [value], s => s.pushParam (field.parameter value)
  | value :: rest, s => writeListed field rest ((s.pushParam (field.parameter value)).push ", ")

/-- Membership in a list.  Brackets are needed where null is looked for next to other
    values. -/
def writeMembership (s : Statement) (field : FieldPath) (negated : Bool) (values : List Scalar) :
    Outcome Unit × Statement :=
  let operand := field.operand s.dialect
  let present := values.filter fun value => !value.isNull
  let hasNull := values.any Scalar.isNull
  let wrap := hasNull && !present.isEmpty
  if values.isEmpty then
    if negated then (.always, s) else (.condition (), s.push "1 = 0")
  else
    let opened := if wrap then s.push "(" else s
    let listed :=
      if present.isEmpty then opened
      else
        (writeListed field present
          ((opened.push operand).push (if negated then " NOT IN (" else " IN ("))).push ")"
    let tested :=
      if hasNull then
        ((if wrap then listed.push (if negated then " AND " else " OR ") else listed).push
          operand).push (if negated then " IS NOT NULL" else " IS NULL")
      else listed
    (.condition (), if wrap then tested.push ")" else tested)

def writeLeaf (s : Statement) (l : Leaf) : Outcome Unit × Statement :=
  match l.test with
  | .membership negated values =>
    if !s.dialect.supports l.test.operator then (.ignored, s)
    else s.writeMembership l.field negated values
  | test => s.after (test.outcome l.field s.dialect)

/-! ### Predicates -/

/-- The text between the conditions of a group. -/
def separator (any : Bool) : String := if any then " OR " else " AND "

mutual

/-- Writes a predicate and reports what it came to. -/
def write : Predicate → Statement → Outcome Unit × Statement
  | .leaf l, s => s.writeLeaf l
  | .all children, s =>
    if children.isEmpty then (.condition (), s.push "1 = 0")
    else writeGroup false s.mark children 0 false s
  | .any children, s =>
    if children.isEmpty then (.condition (), s.push "1 = 0")
    else writeGroup true s.mark children 0 false s
  | .not child, s =>
    match write child (s.push "NOT (") with
    | (.condition _, t) => (.condition (), t.push ")")
    | (.always, t) => (.condition (), (t.reset s.mark).push "1 = 0")
    | (.ignored, t) => (.ignored, t.reset s.mark)

/-- Writes the children that a group has left, given where the group began, how many of
    its conditions are written and whether a child was satisfied by every row.  Such a
    child decides an alternative (`any`) and is left out of a conjunction. -/
def writeGroup (any : Bool) (start : Mark) :
    List Predicate → Nat → Bool → Statement → Outcome Unit × Statement
  | [], written, always, s =>
    (if 0 < written then .condition () else if always then .always else .ignored, s)
  | child :: children, written, always, s =>
    let separated := if 0 < written then s.push (separator any) else s
    match write child (separated.push "(") with
    | (.condition _, t) => writeGroup any start children (written + 1) always (t.push ")")
    | (.always, t) =>
      if any then (.always, t.reset start)
      else writeGroup any start children written true (t.reset s.mark)
    | (.ignored, t) => writeGroup any start children written always (t.reset s.mark)

end

/-- Writes a predicate; reports whether it came to a condition. -/
def writePredicate (s : Statement) (predicate : Predicate) : Bool × Statement :=
  match write predicate s with
  | (outcome, t) => (outcome.condition?.isSome, t)

/-- Writes a text and an optional predicate in brackets, if that comes to a condition. -/
def writeCondition (s : Statement) (before : String) : Option Predicate → Bool × Statement
  | none => (false, s)
  | some predicate =>
    match write predicate ((s.push before).push "(") with
    | (.condition _, t) => (true, t.push ")")
    | (_, t) => (false, t.reset s.mark)

end Statement

end KnowledgeSearch
