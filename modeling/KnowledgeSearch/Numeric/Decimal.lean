/-
  KnowledgeSearch/Numeric/Decimal.lean
  ====================================
  **Decimal text of binary numbers.**

  A number is printed with the fewest decimal digits that read back as the same
  number; among equally short candidates the nearest one is taken.  What differs
  between the texts in use is only the layout of those digits (where exponents
  start, whether a whole number keeps a fraction digit) and which way an exact
  tie between two candidates goes: that is a `NumberStyle`.  Two styles are in
  use, `jsonStyle` for JSON documents and `plainStyle` for everything else.

  Reading accepts an optional sign, digits with an optional point and an optional
  exponent, or one of the words for infinity and nan, and rounds once to the
  format that is wanted.
-/
import KnowledgeSearch.Numeric.Binary

namespace KnowledgeSearch

/-- The number `digits * 10 ^ exponent`. -/
structure Decimal where
  digits : Nat
  exponent : Int
deriving DecidableEq, Repr

/-! ### Shortest digits -/

/-- Which of two equally near decimals is taken. -/
inductive TieRule where
  | toEven
  | upward
deriving DecidableEq, Repr

namespace Decimal

/-- Moves trailing zeros of the digits into the exponent. -/
def trimZeros : Nat → Decimal → Decimal
  | 0, d => d
  | steps + 1, d =>
    if d.digits ≠ 0 ∧ d.digits % 10 = 0 then trimZeros steps ⟨d.digits / 10, d.exponent + 1⟩
    else d

/-- The two grid points around `value / scale` at one decimal exponent, in
    exact comparison with the interval `(low, high) / (2 * scale)` of numbers that
    round to the value; its ends belong to it when `closed` is set. -/
def candidate? (tie : TieRule) (low value high scale : Nat) (closed : Bool) (exponent : Int) :
    Option Decimal :=
  -- a grid point `d` stands for `d * unit / part`, to be compared with units of `1 / scale`
  let unit := Nat.pow 10 exponent.toNat * scale
  let part := Nat.pow 10 (-exponent).toNat
  let inside := fun (d : Nat) =>
    let point := 2 * d * unit
    if closed then low * part ≤ point ∧ point ≤ high * part
    else low * part < point ∧ point < high * part
  let below := value * part / unit
  let above := below + 1
  let nearBelow := compare (2 * value * part) ((below + above) * unit)
  let preferBelow : Bool := match nearBelow with
    | .lt => true
    | .gt => false
    | .eq => tie == .toEven && below % 2 == 0
  match decide (below ≠ 0 ∧ inside below), decide (inside above) with
  | true, true => some ⟨if preferBelow then below else above, exponent⟩
  | true, false => some ⟨below, exponent⟩
  | false, true => some ⟨above, exponent⟩
  | false, false => none

/-- Searches the decimal grids from a coarse one downward.  The grid
    `10 ^ -scaleLog` holds the value itself, so `steps` need not reach below it. -/
def search (tie : TieRule) (low value high scale : Nat) (closed : Bool) :
    Nat → Int → Decimal
  | 0, exponent =>
    ⟨value * Nat.pow 10 (-exponent).toNat / (Nat.pow 10 exponent.toNat * scale), exponent⟩
  | steps + 1, exponent =>
    match candidate? tie low value high scale closed exponent with
    | some d => d
    | none => search tie low value high scale closed steps (exponent - 1)

end Decimal

/-- The fewest digits that read back as the value at a finite positive ordinal. -/
def Format.shortest (F : Format) (tie : TieRule) (ordinal : Nat) : Decimal :=
  let value := F.units ordinal
  let magnitude : Int := (value.log2 : Int) - F.scale + 1
  let start := Int.fdiv (magnitude * 30103) 100000 + 1
  let found := Decimal.search tie (F.units (ordinal - 1) + value) value
    (value + F.units (ordinal + 1)) (Nat.pow 2 F.scale) (ordinal % 2 = 0)
    (start + F.scale).toNat start
  found.trimZeros (found.digits.log2 + 1)

/-! ### Layout -/

/-- How the digits of a number are laid out. -/
structure NumberStyle where
  /-- The way an exact tie between two shortest candidates goes. -/
  tie : TieRule
  /-- Whether the number whose first digit has this exponent of ten is written
      without an exponent. -/
  positional : Int → Bool
  /-- Whether a whole number written positionally ends in `.0`. -/
  keepsFraction : Bool
  nanText : String
  infinityText : String

/-- Numbers of a JSON document: at least one fraction digit; an exponent below
    `10 ^ -5` and from `10 ^ 16` on.  A document holds no other numbers; their
    place is taken by `null`. -/
def jsonStyle : NumberStyle where
  tie := .toEven
  positional exponent := -5 ≤ exponent && exponent < 16
  keepsFraction := true
  nanText := "null"
  infinityText := "null"

/-- Numbers of messages and texts: never an exponent, no fraction digit without
    need. -/
def plainStyle : NumberStyle where
  tie := .upward
  positional _ := true
  keepsFraction := false
  nanText := "NaN"
  infinityText := "inf"

namespace NumberStyle

def layPositional (style : NumberStyle) (digits : List Char) (exponent : Int) : List Char :=
  if 0 ≤ exponent then
    digits ++ List.replicate exponent.toNat '0' ++
      (if style.keepsFraction then ['.', '0'] else [])
  else
    let places := (-exponent).toNat
    if digits.length ≤ places then
      ['0', '.'] ++ List.replicate (places - digits.length) '0' ++ digits
    else
      digits.take (digits.length - places) ++ ['.'] ++ digits.drop (digits.length - places)

/-- Layout with one digit before the point and a signed exponent. -/
def layScientific (digits : List Char) (first : Int) : List Char :=
  let mantissa := match digits with
    | d :: e :: rest => d :: '.' :: e :: rest
    | short => short
  mantissa ++ ['e', if first < 0 then '-' else '+'] ++ Nat.toDigits 10 first.natAbs

def lay (style : NumberStyle) (d : Decimal) : List Char :=
  let digits := Nat.toDigits 10 d.digits
  let first := d.exponent + digits.length - 1
  if style.positional first then style.layPositional digits d.exponent
  else layScientific digits first

def format {F : Format} (style : NumberStyle) : Binary F → String
  | .nan => style.nanText
  | .signed negative k =>
    let sign := if negative then ['-'] else []
    if k = F.infinity then String.ofList sign ++ style.infinityText
    else if k.val = 0 then String.ofList (sign ++ style.lay ⟨0, 0⟩)
    else String.ofList (sign ++ style.lay (F.shortest style.tie k))

end NumberStyle

/-! ### Reading -/

namespace Decimal

def digitsValue (digits : List Char) : Nat :=
  digits.foldl (fun n c => 10 * n + (c.toNat - '0'.toNat)) 0

/-- Splits a text into its leading decimal digits and the rest. -/
def takeDigits (text : List Char) : List Char × List Char :=
  (text.takeWhile Char.isDigit, text.dropWhile Char.isDigit)

/-- Reads an integer: an optional sign and at least one digit. -/
def integerOfChars? (text : List Char) : Option Int :=
  let (negative, digits) := match text with
    | '+' :: rest => (false, rest)
    | '-' :: rest => (true, rest)
    | rest => (false, rest)
  if digits.isEmpty || !digits.all Char.isDigit then none
  else some (if negative then -(digitsValue digits : Int) else digitsValue digits)

/-- Reads digits with an optional point, at least one digit in all, and an
    optional exponent. -/
def ofChars? (text : List Char) : Option Decimal :=
  let (whole, rest) := takeDigits text
  let (fraction, rest) := match rest with
    | '.' :: more => takeDigits more
    | other => ([], other)
  if whole.isEmpty && fraction.isEmpty then none
  else
    let exponent? := match rest with
      | [] => some 0
      | c :: more => if c = 'e' ∨ c = 'E' then integerOfChars? more else none
    exponent?.map fun exponent => ⟨digitsValue (whole ++ fraction), exponent - fraction.length⟩

end Decimal

namespace Binary

/-- Reads an unsigned number or a word for infinity or nan, in any case. -/
def ofUnsignedChars? (F : Format) (negative : Bool) (text : List Char) : Option (Binary F) :=
  let word := String.ofList (text.map Char.toLower)
  if word = "inf" ∨ word = "infinity" then some (ofOrdinal negative F.infinity)
  else if word = "nan" then some .nan
  else (Decimal.ofChars? text).map fun d => ofDecimal negative d.digits d.exponent

/-- Reads a number with an optional sign; no blanks are allowed. -/
def ofChars? (F : Format) : List Char → Option (Binary F)
  | '+' :: text => ofUnsignedChars? F false text
  | '-' :: text => ofUnsignedChars? F true text
  | text => ofUnsignedChars? F false text

def ofString? (F : Format) (text : String) : Option (Binary F) := ofChars? F text.toList

end Binary

/-! ### Integers -/

/-- Whether an integer has 64 bits, sign included. -/
def fitsInt64 (n : Int) : Bool := -0x8000000000000000 ≤ n && n < 0x8000000000000000

/-- Reads a 64-bit integer. -/
def int64OfString? (text : String) : Option Int :=
  (Decimal.integerOfChars? text.toList).filter fitsInt64

end KnowledgeSearch
