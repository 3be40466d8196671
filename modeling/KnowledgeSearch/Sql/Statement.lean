/-
  KnowledgeSearch/Sql/Statement.lean
  ==================================
  **Statements under construction.**

  A statement grows by texts and bound values; placeholders stay numbered in order
  across everything written into it.  Writing a predicate that comes to no condition
  leaves the statement as it was.
-/
import KnowledgeSearch.Sql.Condition

namespace KnowledgeSearch

/-- A statement under construction. -/
structure Statement where
  dialect : Dialect
  sql : String
  params : List Parameter

namespace Statement

def empty (d : Dialect) : Statement := ⟨d, "", []⟩

def push (s : Statement) (text : String) : Statement := { s with sql := s.sql ++ text }

/-- Registers a value without writing anything, and gives its placeholder. -/
def bind (s : Statement) (value : Parameter) : String × Statement :=
  (s.dialect.placeholder (s.params.length + 1) value, { s with params := s.params ++ [value] })

def append (s : Statement) (fragment : Fragment) : Statement :=
  { s with
    sql := s.sql ++ fragment.render s.dialect (s.params.length + 1)
    params := s.params ++ fragment.params }

def pushParam (s : Statement) (value : Parameter) : Statement := s.append (.bind value)

/-- Appends the condition of a predicate; reports whether there was one. -/
def pushPredicate (s : Statement) (predicate : Predicate) : Bool × Statement :=
  match (predicate.outcome s.dialect).condition? with
  | some fragment => (true, s.append fragment)
  | none => (false, s)

/-- Appends a text and the condition of an optional predicate in brackets; reports
    whether there was one. -/
def pushCondition (s : Statement) (before : String) (predicate : Option Predicate) :
    Bool × Statement :=
  match Predicate.condition? s.dialect predicate with
  | some fragment => (true, (s.push before).append fragment.parens)
  | none => (false, s)

/-- The statement built so far. -/
def toQuery (s : Statement) : Query := ⟨s.sql, s.params⟩

end Statement

end KnowledgeSearch
