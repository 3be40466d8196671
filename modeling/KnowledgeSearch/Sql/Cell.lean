/-
  KnowledgeSearch/Sql/Cell.lean
  =============================
  **Stored values.**

  Values are stored as the database stores them: booleans as numbers, JSON and vectors
  as their text.  Stored values are ordered by kind first, numbers before texts before
  bytes; a missing value has no place in the order.
-/
import KnowledgeSearch.Json.Printer
import KnowledgeSearch.Sql.Fragment

namespace KnowledgeSearch

/-- A stored value. -/
inductive Cell where
  | null
  | integer (value : Int64)
  | real (value : Double)
  | text (value : String)
  /-- Bytes; reading them gives null. -/
  | blob
deriving DecidableEq

namespace Cell

/-- How a parameter is stored. -/
def ofParameter : Parameter → Cell
  | .null => .null
  | .bool b => .integer (if b then 1 else 0)
  | .int n => .integer n
  | .float x => if x.isNaN then .null else .real x
  | .text s => .text s
  | .json v => .text v.compact
  | .vector e => .text e.toText

/-- A value cast to bytes. -/
def toBlob : Cell → Cell
  | .null => .null
  | _ => .blob

/-- The JSON value that a stored value is read as. -/
def toJson : Cell → Json
  | .null | .blob => .null
  | .integer n => .ofInt n.toInt
  | .real x => .ofDouble x
  | .text s => .string s

/-! ### Texts and numbers -/

/-- Numbers where a text is wanted: a real number keeps a fraction digit. -/
def realStyle : NumberStyle where
  tie := .toEven
  positional exponent := -5 ≤ exponent && exponent < 15
  keepsFraction := true
  nanText := ""
  infinityText := "Inf"

/-- The text that a value is matched as. -/
def toText? : Cell → Option String
  | .null | .blob => none
  | .integer n => some (toString n.toInt)
  | .real x => some (realStyle.format x)
  | .text s => some s

def isNumberBlank (c : Char) : Bool := c = ' ' || (9 ≤ c.toNat && c.toNat ≤ 13)

/-- A text that writes a number, as that number; any other value as it is. -/
def toNumber : Cell → Cell
  | .text s =>
    let trimmed := ((s.toList.dropWhile isNumberBlank).reverse.dropWhile isNumberBlank).reverse
    let (negative, unsigned) := match trimmed with
      | '-' :: rest => (true, rest)
      | '+' :: rest => (false, rest)
      | rest => (false, rest)
    match (Decimal.integerOfChars? trimmed).filter fitsInt64, Decimal.ofChars? unsigned with
    | some n, _ => .integer (Int64.ofInt n)
    | none, some d => .real (Binary.ofDecimal negative d.digits d.exponent)
    | none, none => .text s
  | cell => cell

/-! ### Order -/

/-- The order of two values, unless one is missing. -/
def compare? : Cell → Cell → Option Ordering
  | .null, _ | _, .null => none
  | .integer a, .integer b => some (compare a.toInt b.toInt)
  | .integer a, .real b => Binary.compare? (Binary.ofInt a.toInt) b
  | .real a, .integer b => Binary.compare? a (Binary.ofInt b.toInt)
  | .real a, .real b => Binary.compare? a b
  | .integer _, _ | .real _, _ => some .lt
  | _, .integer _ | _, .real _ => some .gt
  | .text a, .text b => some (compare a b)
  | .text _, .blob => some .lt
  | .blob, .text _ => some .gt
  | .blob, .blob => some .eq

end Cell

end KnowledgeSearch
