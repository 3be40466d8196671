/-
  KnowledgeSearch/Search/Coercion.lean
  ====================================
  **Values as the type of a column.**

  Callers write numbers as texts and integers as floats.  A value is taken as the
  type of its column where it plainly stands for a value of that type, and refused
  otherwise; null belongs to every type.
-/
import KnowledgeSearch.Config.Basic
import KnowledgeSearch.Text.Blank

namespace KnowledgeSearch.FilterKind

/-- A float that is an integer, as a 64-bit integer.  The bound `2 ^ 63` itself is
    taken as the largest of them. -/
def integerOfFloat? (x : Double) : Option Int64 :=
  if x.isInteger then
    match x.truncate? with
    | some n =>
      if -0x8000000000000000 ≤ n ∧ n ≤ 0x8000000000000000 then
        some (Int64.ofInt (min n 0x7FFFFFFFFFFFFFFF))
      else none
    | none => none
  else none

def toInteger? : Scalar → Option Scalar
  | .int n => some (.int n)
  | .float x => (integerOfFloat? x).map Scalar.int
  | .text s => (int64OfString? (Text.trim s)).map fun n => .int (Int64.ofInt n)
  | _ => none

def toFloat? : Scalar → Option Scalar
  | .int n => some (.float (Binary.ofInt n.toInt))
  | .float x => some (.float x)
  | .text s =>
    match Binary.ofString? .binary64 (Text.trim s) with
    | some x => if x.isFinite then some (.float x) else none
    | none => none
  | _ => none

def toBoolean? : Scalar → Option Scalar
  | .bool b => some (.bool b)
  | .int n => if n = 0 then some (.bool false) else if n = 1 then some (.bool true) else none
  | .text s =>
    let word := (Text.trim s).map Char.toLower
    if word = "true" then some (.bool true)
    else if word = "false" then some (.bool false)
    else none
  | _ => none

/-- A value as the type of a column. -/
def coerce? (kind : FilterKind) (value : Scalar) : Option Scalar :=
  if value.isNull then some value
  else
    match kind with
    | .json => some value
    | .integer => toInteger? value
    | .float => toFloat? value
    | .text => value.toText?.map Scalar.text
    | .boolean => toBoolean? value

end KnowledgeSearch.FilterKind
