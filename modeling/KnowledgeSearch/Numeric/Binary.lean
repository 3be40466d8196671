/-
  KnowledgeSearch/Numeric/Binary.lean
  ===================================
  **Binary floating-point numbers as an ordered grid.**

  Scores and embedding components are single precision, filter values are
  double precision.  Both are instances of one construction, so that every
  operation is an exact computation on natural numbers followed by one rounding.

  A non-negative value of a format is named by its *ordinal*: the position of
  the value among all non-negative values, which is also its bit pattern
  without the sign.  `Format.units` gives the value itself, counted in copies of
  the least positive value `2 ^ -scale`; it is strictly increasing in the
  ordinal, so comparing values is comparing ordinals.  The grid does not stop at
  the largest finite value: rounding is done on the unbounded grid and then cut
  at the ordinal of infinity, which is exactly how overflow is defined.
-/
namespace KnowledgeSearch

/-! ### Formats -/

/-- The shape of a binary interchange format: how many bits hold the fraction
    and how many the exponent. -/
structure Format where
  fractionBits : Nat
  exponentBits : Nat
deriving DecidableEq, Repr

namespace Format

/-- Single precision. -/
def binary32 : Format := ⟨23, 8⟩

/-- Double precision. -/
def binary64 : Format := ⟨52, 11⟩

variable (F : Format)

/-- The ordinal of infinity, one past the largest finite value. -/
def infinity : Nat := (Nat.pow 2 F.exponentBits - 1) * Nat.pow 2 F.fractionBits

/-- The least positive value is `2 ^ -scale`. -/
def scale : Nat := Nat.pow 2 (F.exponentBits - 1) + F.fractionBits - 2

/-- The value at an ordinal, in copies of the least positive value. -/
def units (ordinal : Nat) : Nat :=
  let exponent := ordinal >>> F.fractionBits
  let fraction := ordinal % Nat.pow 2 F.fractionBits
  if exponent = 0 then fraction else (Nat.pow 2 F.fractionBits + fraction) <<< (exponent - 1)

/-- The largest ordinal whose value is at most `amount` units. -/
def ordinalBelow (amount : Nat) : Nat :=
  let shift := amount.log2 - F.fractionBits
  shift * Nat.pow 2 F.fractionBits + (amount >>> shift)

/-- Rounds to nearest, ties to the even ordinal.  The exact value is given by its
    integer part and by a comparison of its double with an integer. -/
def nearestBy (integerPart : Nat) (compareDouble : Nat → Ordering) : Nat :=
  let low := F.ordinalBelow integerPart
  match compareDouble (F.units low + F.units (low + 1)) with
  | .lt => low
  | .gt => low + 1
  | .eq => if low % 2 = 0 then low else low + 1

/-- Rounds the quotient `num / den` of units. -/
def nearest (num den : Nat) : Nat :=
  F.nearestBy (num / den) fun middle => compare (2 * num) (middle * den)

end Format

/-! ### Values -/

/-- A value of a format: not a number, or a sign and an ordinal. -/
inductive Binary (F : Format) where
  | nan
  | signed (negative : Bool) (ordinal : Fin (F.infinity + 1))
deriving DecidableEq

abbrev Single := Binary .binary32

abbrev Double := Binary .binary64

namespace Binary

variable {F : Format}

instance : Inhabited (Binary F) := ⟨.signed false ⟨0, Nat.succ_pos _⟩⟩

/-- The value with the given sign at an ordinal of the unbounded grid. -/
def ofOrdinal (negative : Bool) (ordinal : Nat) : Binary F :=
  .signed negative ⟨min ordinal F.infinity, by omega⟩

def zero : Binary F := ofOrdinal false 0

def infinity : Binary F := ofOrdinal false F.infinity

def isNaN : Binary F → Bool
  | .nan => true
  | .signed .. => false

def isInfinite : Binary F → Bool
  | .nan => false
  | .signed _ k => k.val == F.infinity

def isFinite : Binary F → Bool
  | .nan => false
  | .signed _ k => k.val != F.infinity

def isZero : Binary F → Bool
  | .nan => false
  | .signed _ k => k.val == 0

def neg : Binary F → Binary F
  | .nan => .nan
  | .signed s k => .signed (!s) k

instance : Neg (Binary F) := ⟨neg⟩

/-- The signed number of units of a value, with infinity continuing the grid. -/
def signedUnits : Binary F → Int
  | .nan => 0
  | .signed s k => if s then -(F.units k : Int) else F.units k

/-- The bit pattern: the sign bit above the ordinal.  Every nan is written as the
    quiet one. -/
def bits : Binary F → Nat
  | .nan => F.infinity + Nat.pow 2 (F.fractionBits - 1)
  | .signed s k => (if s then Nat.pow 2 (F.fractionBits + F.exponentBits) else 0) + k

/-! ### Order -/

/-- The position of a number on the line; both zeros stand at 0. -/
def rank? : Binary F → Option Int
  | .nan => none
  | .signed s k => some (if s then -(k.val : Int) else k.val)

/-- The comparison of two numbers; nothing compares with a nan. -/
def compare? (x y : Binary F) : Option Ordering :=
  match x.rank?, y.rank? with
  | some a, some b => some (compare a b)
  | _, _ => none

def lt (x y : Binary F) : Bool := x.compare? y == some .lt

def le (x y : Binary F) : Bool := x.compare? y == some .lt || x.compare? y == some .eq

/-- Numeric equality: the zeros are equal and a nan equals nothing. -/
def equal (x y : Binary F) : Bool := x.compare? y == some .eq

/-- The larger number; a nan gives way to the other operand. -/
def maximum (x y : Binary F) : Binary F :=
  if x.isNaN then y else if y.isNaN then x else if x.lt y then y else x

/-- The smaller number; a nan gives way to the other operand. -/
def minimum (x y : Binary F) : Binary F :=
  if x.isNaN then y else if y.isNaN then x else if y.lt x then y else x

/-- Brings a number into an interval; a nan stays a nan. -/
def clamp (x low high : Binary F) : Binary F :=
  if x.lt low then low else if high.lt x then high else x

/-! ### Arithmetic

Each operation is exact on units and rounds once. -/

/-- Rounds a signed quotient of units. -/
def round (negative : Bool) (num den : Nat) : Binary F :=
  ofOrdinal negative (F.nearest num den)

/-- A sum of opposite numbers is the positive zero; only two negative zeros give
    the negative one. -/
def add : Binary F → Binary F → Binary F
  | .signed s a, .signed t b =>
    if a = F.infinity then
      if b = F.infinity ∧ s ≠ t then .nan else .signed s a
    else if b = F.infinity then .signed t b
    else
      let total := signedUnits (.signed s a) + signedUnits (.signed t b)
      if total = 0 then ofOrdinal (s && t) 0 else round (total < 0) total.natAbs 1
  | _, _ => .nan

def sub (x y : Binary F) : Binary F := x.add (-y)

def mul : Binary F → Binary F → Binary F
  | .signed s a, .signed t b =>
    if a = F.infinity ∨ b = F.infinity then
      if a.val = 0 ∨ b.val = 0 then .nan else ofOrdinal (s != t) F.infinity
    else round (s != t) (F.units a * F.units b) (Nat.pow 2 F.scale)
  | _, _ => .nan

def div : Binary F → Binary F → Binary F
  | .signed s a, .signed t b =>
    if a = F.infinity then
      if b = F.infinity then .nan else ofOrdinal (s != t) F.infinity
    else if b = F.infinity then ofOrdinal (s != t) 0
    else if b.val = 0 then
      if a.val = 0 then .nan else ofOrdinal (s != t) F.infinity
    else round (s != t) (F.units a <<< F.scale) (F.units b)
  | _, _ => .nan

instance : Add (Binary F) := ⟨add⟩
instance : Sub (Binary F) := ⟨sub⟩
instance : Mul (Binary F) := ⟨mul⟩
instance : Div (Binary F) := ⟨div⟩

/-- The integer square root, by halving the interval `[low, high)` that holds it. -/
def squareRootBetween (n : Nat) : Nat → Nat → Nat → Nat
  | 0, low, _ => low
  | steps + 1, low, high =>
    if high ≤ low + 1 then low
    else
      let middle := (low + high) / 2
      if middle * middle ≤ n then squareRootBetween n steps middle high
      else squareRootBetween n steps low middle

/-- The largest integer whose square is at most `n`. -/
def integerSquareRoot (n : Nat) : Nat :=
  let bound := Nat.pow 2 (n.log2 / 2 + 1)
  squareRootBetween n (n.log2 / 2 + 2) 0 bound

/-- The square root; of the negative numbers only zero has one. -/
def sqrt : Binary F → Binary F
  | .nan => .nan
  | .signed s k =>
    if k.val = 0 then .signed s k
    else if s then .nan
    else if k = F.infinity then .signed s k
    else
      let square := F.units k <<< F.scale
      ofOrdinal false <|
        F.nearestBy (integerSquareRoot square) fun middle => compare (4 * square) (middle * middle)

/-! ### Conversions -/

/-- The nearest value to an integer. -/
def ofInt (n : Int) : Binary F := round (n < 0) (n.natAbs <<< F.scale) 1

def ofNat (n : Nat) : Binary F := ofInt n

def one : Binary F := ofInt 1

def half : Binary F := ofInt 1 / ofInt 2

/-- The nearest value to `± digits * 10 ^ exponent`.  Exponents far outside the
    range of the format are settled without computing the power. -/
def ofDecimal (negative : Bool) (digits : Nat) (exponent : Int) : Binary F :=
  let magnitude := exponent + (Nat.toDigits 10 digits).length
  if digits = 0 then ofOrdinal negative 0
  else if Nat.pow 2 (F.exponentBits - 1) < magnitude then ofOrdinal negative F.infinity
  else if magnitude < -(F.scale : Int) then ofOrdinal negative 0
  else
    round negative ((digits * Nat.pow 10 exponent.toNat) <<< F.scale) (Nat.pow 10 (-exponent).toNat)

/-- The nearest value of another format. -/
def convert (G : Format) : Binary F → Binary G
  | .nan => .nan
  | .signed s k =>
    if k = F.infinity then ofOrdinal s G.infinity
    else round s (F.units k <<< G.scale) (Nat.pow 2 F.scale)

/-- The nearest single precision value. -/
def toSingle (x : Double) : Single := x.convert .binary32

/-- The same value in double precision. -/
def toDouble (x : Single) : Double := x.convert .binary64

/-- The integer part, toward zero, of a finite number. -/
def truncate? : Binary F → Option Int
  | .nan => none
  | .signed s k =>
    if k = F.infinity then none
    else
      let whole : Int := F.units k >>> F.scale
      some (if s then -whole else whole)

/-- The nearest integer to a finite number, halves going away from zero. -/
def roundAway? : Binary F → Option Int
  | .nan => none
  | .signed s k =>
    if k = F.infinity then none
    else
      let whole : Int := (2 * F.units k + Nat.pow 2 F.scale) >>> (F.scale + 1)
      some (if s then -whole else whole)

/-- Whether a finite number is an integer. -/
def isInteger : Binary F → Bool
  | .nan => false
  | .signed _ k => k != F.infinity && F.units k % Nat.pow 2 F.scale == 0

end Binary

end KnowledgeSearch
