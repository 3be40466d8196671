/-
  KnowledgeSearch/Sql/Truth.lean
  ==============================
  **Three-valued truth.**

  A condition holds for a row, does not hold, or is unknown because a value is missing.
  Conjunction is the lesser and disjunction the greater of two truths, unknown being
  between the others; negation turns the order round.
-/
namespace KnowledgeSearch

/-- The answer of a condition for a row. -/
inductive Truth where
  | no
  | unknown
  | yes
deriving DecidableEq, Repr

namespace Truth

def ofBool (holds : Bool) : Truth := if holds then yes else no

def negate : Truth → Truth
  | no => yes
  | unknown => unknown
  | yes => no

/-- Both of two conditions. -/
def and : Truth → Truth → Truth
  | yes, b => b
  | no, _ => no
  | unknown, no => no
  | unknown, _ => unknown

/-- One of two conditions or both. -/
def or : Truth → Truth → Truth
  | no, b => b
  | yes, _ => yes
  | unknown, yes => yes
  | unknown, _ => unknown

/-- All of some conditions. -/
def all (truths : List Truth) : Truth := truths.foldr and yes

/-- Any of some conditions. -/
def any (truths : List Truth) : Truth := truths.foldr or no

theorem negate_and (a b : Truth) : (a.and b).negate = a.negate.or b.negate := by
  cases a <;> cases b <;> rfl

theorem negate_or (a b : Truth) : (a.or b).negate = a.negate.and b.negate := by
  cases a <;> cases b <;> rfl

/-- The negation of a conjunction is the disjunction of the negations. -/
theorem negate_all (truths : List Truth) : (all truths).negate = any (truths.map negate) := by
  induction truths with
  | nil => rfl
  | cons t truths ih =>
    show (t.and (all truths)).negate = t.negate.or (any (truths.map negate))
    rw [negate_and, ih]

end Truth

end KnowledgeSearch
