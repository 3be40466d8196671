/-
  KnowledgeSearch/Json/Literal.lean
  =================================
  **Numbers from their literals.**

  A literal without fraction and exponent that fits 64 bits is an integer, and every
  other literal is a double precision number.  `-0` is the negative zero.

  A double is found in two steps, each of which rounds.  The digits, as far as they
  fit a 64-bit word, are taken as one double, and it is multiplied or divided by a
  power of ten, which is a double too.  Up to 2 ^ 53 and 10 ^ 22 both are exact and
  the result is the nearest double; a longer literal may miss it by one place.  A
  literal too large for a double is no number.
-/
import KnowledgeSearch.Json.Basic

namespace KnowledgeSearch.Number

/-! ### Significands -/

/-- Appends digits to a number as long as it fits a word; gives the number and the
    digits that are left. -/
def appendDigits (significand : Nat) : List Char → Nat × List Char
  | [] => (significand, [])
  | c :: rest =>
    let longer := significand * 10 + Decimal.digitsValue [c]
    if longer < UInt64.size then appendDigits longer rest else (significand, c :: rest)

/-- The digits of a literal as far as they fit a word, and the power of ten that
    belongs to them. -/
def significand (whole fraction : List Char) : Nat × Int :=
  let (front, leftWhole) := appendDigits 0 whole
  let (digits, leftFraction) := appendDigits front fraction
  (digits, (leftWhole.length : Int) - (fraction.length - leftFraction.length : Nat))

/-! ### Powers of ten -/

/-- The largest power of ten that is a double. -/
def maxPower : Nat := 308

def powerOfTen (exponent : Nat) : Double := Binary.ofDecimal false 1 exponent

/-- Divides by a power of ten, in steps where the power is not a double itself. -/
def divideByPower (x : Double) (exponent : Nat) : Double :=
  if exponent ≤ maxPower then x / powerOfTen exponent
  else if x.isZero then x
  else divideByPower (x / powerOfTen maxPower) (exponent - maxPower)
termination_by exponent
decreasing_by
  unfold maxPower at *
  omega

/-- A number times a power of ten, unless that is too large. -/
def scale? (x : Double) (exponent : Int) : Option Double :=
  match exponent with
  | .ofNat e =>
    if x.isZero then some x
    else if e ≤ maxPower then
      let y := x * powerOfTen e
      if y.isFinite then some y else none
    else none
  | .negSucc e => some (divideByPower x (e + 1))

/-! ### Literals -/

def double? (negative : Bool) (whole fraction : List Char) (exponent : Int) : Option Number :=
  let (digits, shift) := significand whole fraction
  match scale? (Binary.ofNat digits) (shift + exponent) with
  | none => none
  | some x =>
    let x := if negative then -x else x
    if h : x.isFinite = true then some (.float x h) else none

/-- The number of a literal with the given digits before the point and, if there is a
    fraction or an exponent, with these. -/
def ofLiteral? (negative : Bool) (whole : List Char) (more : Option (List Char × Int)) :
    Option Number :=
  match more with
  | some (fraction, exponent) => double? negative whole fraction exponent
  | none =>
    let n := Decimal.digitsValue whole
    let value : Int := if negative then -(n : Int) else n
    if h : -0x8000000000000000 ≤ value ∧ value < 0x10000000000000000 then
      if negative ∧ n = 0 then double? negative whole [] 0 else some (.int value h)
    else double? negative whole [] 0

end KnowledgeSearch.Number
