/-
  KnowledgeSearch/Toml/Scalar.lean
  ================================
  **Scalars of a configuration document.**

  Strings come in four forms: basic ones with escapes and literal ones without, each
  on one line or between tripled quotes over several.  Everything else is a run of
  characters that is then told apart: booleans, integers (decimal, or hexadecimal,
  octal and binary with their marks), floats, dates and times.  Underscores may
  stand between digits; decimal numbers have no leading zero.

  Readers take the remaining characters and give back what they leave.  A line ends
  in a newline, with or without a carriage return in front of it; strings over
  several lines keep their line ends as they are written.
-/
import KnowledgeSearch.Json.Parser
import KnowledgeSearch.Text.Identifier
import KnowledgeSearch.Toml.Value

namespace KnowledgeSearch.Toml

/-- Whether a character is a control character that may not stand in a text. -/
def isControl (c : Char) : Bool := (c.toNat < 32 && c != '\t') || c.toNat == 127

/-- Blanks within a line. -/
def isSpace (c : Char) : Bool := c == ' ' || c == '\t'

def isLineEnd (c : Char) : Bool := c == '\n' || c == '\r'

def skipLineEnd? : List Char → Option (List Char)
  | '\n' :: rest => some rest
  | '\r' :: '\n' :: rest => some rest
  | _ => none

/-! ### Strings -/

/-- The character of a code point, if there is one. -/
def charOfCode? (n : Nat) : Option Char :=
  if n < 0xD800 ∨ (0xE000 ≤ n ∧ n < 0x110000) then some (Char.ofNat n) else none

def readHexEscape? (digits : Nat) (text : List Char) : Option (Char × List Char) := do
  let values ← (text.take digits).mapM Json.hexDigit?
  if values.length < digits then none
  else
    let c ← charOfCode? (values.foldl (fun n d => 16 * n + d) 0)
    some (c, text.drop digits)

def readEscape? : List Char → Option (Char × List Char)
  | 'b' :: rest => some (Char.ofNat 8, rest)
  | 't' :: rest => some ('\t', rest)
  | 'n' :: rest => some ('\n', rest)
  | 'f' :: rest => some (Char.ofNat 12, rest)
  | 'r' :: rest => some ('\r', rest)
  | 'e' :: rest => some (Char.ofNat 27, rest)
  | '"' :: rest => some ('"', rest)
  | '\\' :: rest => some ('\\', rest)
  | 'x' :: rest => readHexEscape? 2 rest
  | 'u' :: rest => readHexEscape? 4 rest
  | 'U' :: rest => readHexEscape? 8 rest
  | _ => none

/-- Reads a basic string on one line, after its opening quote. -/
def readBasic? : Nat → List Char → List Char → Option (String × List Char)
  | 0, _, _ => none
  | fuel + 1, done, text =>
    match text with
    | '"' :: rest => some (String.ofList done.reverse, rest)
    | '\\' :: rest => do
      let (c, rest) ← readEscape? rest
      readBasic? fuel (c :: done) rest
    | c :: rest => if isControl c then none else readBasic? fuel (c :: done) rest
    | [] => none

/-- Reads a literal string on one line, after its opening quote. -/
def readLiteral? (done : List Char) : List Char → Option (String × List Char)
  | '\'' :: rest => some (String.ofList done.reverse, rest)
  | c :: rest => if isControl c then none else readLiteral? (c :: done) rest
  | [] => none

/-- The end of a string between tripled quotes: up to two quotes of the content may
    stand right before the closing ones. -/
def closeTripled? (quote : Char) (done : List Char) (text : List Char) :
    Option (String × List Char) :=
  let run := min 5 (text.takeWhile (· = quote)).length
  if run < 3 then none
  else some (String.ofList (List.replicate (run - 3) quote ++ done).reverse, text.drop run)

def readLongBasic? : Nat → List Char → List Char → Option (String × List Char)
  | 0, _, _ => none
  | fuel + 1, done, text =>
    match closeTripled? '"' done text with
    | some found => some found
    | none =>
      match text with
      | '\\' :: rest =>
        match skipLineEnd? (rest.dropWhile isSpace) with
        | some more =>
          readLongBasic? fuel done (more.dropWhile fun c => isSpace c || isLineEnd c)
        | none => do
          let (c, rest) ← readEscape? rest
          readLongBasic? fuel (c :: done) rest
      | c :: rest =>
        if isControl c && !isLineEnd c then none else readLongBasic? fuel (c :: done) rest
      | [] => none

def readLongLiteral? : Nat → List Char → List Char → Option (String × List Char)
  | 0, _, _ => none
  | fuel + 1, done, text =>
    match closeTripled? '\'' done text with
    | some found => some found
    | none =>
      match text with
      | c :: rest =>
        if isControl c && !isLineEnd c then none else readLongLiteral? fuel (c :: done) rest
      | [] => none

/-- A line end right after the opening quotes does not belong to the string. -/
def dropFirstLineEnd (text : List Char) : List Char := (skipLineEnd? text).getD text

/-- Reads a string of any form from its opening quote on. -/
def readString? (text : List Char) : Option (String × List Char) :=
  let fuel := text.length + 1
  match text with
  | '"' :: '"' :: '"' :: rest => readLongBasic? fuel [] (dropFirstLineEnd rest)
  | '"' :: rest => readBasic? fuel [] rest
  | '\'' :: '\'' :: '\'' :: rest => readLongLiteral? fuel [] (dropFirstLineEnd rest)
  | '\'' :: rest => readLiteral? [] rest
  | _ => none

/-! ### Numbers -/

/-- An integer, which must fit into 128 bits, signed or unsigned. -/
def integer? (n : Int) : Option Toml :=
  if -0x80000000000000000000000000000000 ≤ n ∧ n < 0x100000000000000000000000000000000 then
    some (.integer n)
  else none

/-- The digits of a number without the underscores between them. -/
def plainDigits? (isDigit : Char → Bool) (text : List Char) : Option (List Char) :=
  let groups := Text.splitAt '_' text
  if groups.all fun group => !group.isEmpty && group.all isDigit then some groups.flatten
  else none

/-- The digits of a decimal number, without a leading zero. -/
def decimalDigits? (text : List Char) : Option (List Char) :=
  (plainDigits? Char.isDigit text).filter fun digits =>
    digits.length == 1 || digits.head? != some '0'

def splitSign : List Char → Bool × List Char
  | '-' :: rest => (true, rest)
  | '+' :: rest => (false, rest)
  | rest => (false, rest)

/-- An integer in another base than ten, after its mark. -/
def based? (base : Nat) (digits : List Char) : Option Toml := do
  let isDigit := fun (c : Char) => match Json.hexDigit? c with
    | some d => decide (d < base)
    | none => false
  let plain ← plainDigits? isDigit digits
  let values ← plain.mapM Json.hexDigit?
  integer? (values.foldl (fun (n : Nat) d => base * n + d) 0 : Nat)

/-- A float: an integer part with a fraction, an exponent or both. -/
def float? (negative : Bool) (text : List Char) : Option Toml := do
  let isMark := fun (c : Char) => c = 'e' || c = 'E'
  let mantissa := text.takeWhile fun c => !isMark c
  let exponentText := text.dropWhile fun c => !isMark c
  let whole ← decimalDigits? (mantissa.takeWhile (· ≠ '.'))
  let fraction ← match mantissa.dropWhile (· ≠ '.') with
    | [] => some []
    | _ :: rest => plainDigits? Char.isDigit rest
  let exponent ← match exponentText with
    | [] => some (0 : Int)
    | _ :: rest =>
      let (minus, digits) := splitSign rest
      (plainDigits? Char.isDigit digits).map fun plain =>
        let size : Int := Decimal.digitsValue plain
        if minus then -size else size
  let value : Double :=
    Binary.ofDecimal negative (Decimal.digitsValue (whole ++ fraction))
      (exponent - fraction.length)
  if value.isFinite then some (.float value) else none

def number? (text : List Char) : Option Toml :=
  let (negative, unsigned) := splitSign text
  if unsigned = ['i', 'n', 'f'] then
    some (.float (Binary.ofOrdinal negative Format.binary64.infinity))
  else if unsigned = ['n', 'a', 'n'] then some (.float .nan)
  else
    match text with
    | '0' :: 'x' :: digits => based? 16 digits
    | '0' :: 'o' :: digits => based? 8 digits
    | '0' :: 'b' :: digits => based? 2 digits
    | _ =>
      if unsigned.any fun c => c = '.' || c = 'e' || c = 'E' then float? negative unsigned
      else
        (decimalDigits? unsigned).bind fun digits =>
          let size : Int := Decimal.digitsValue digits
          integer? (if negative then -size else size)

/-! ### Dates and times -/

/-- Reads a number of a fixed count of digits within bounds. -/
def readField? (count low high : Nat) (text : List Char) : Option (Nat × List Char) :=
  let digits := text.take count
  let n := Decimal.digitsValue digits
  if digits.length = count ∧ digits.all Char.isDigit ∧ low ≤ n ∧ n ≤ high then
    some (n, text.drop count)
  else none

def readMark? (mark : Char) : List Char → Option (List Char)
  | c :: rest => if c = mark then some rest else none
  | [] => none

def daysIn (year month : Nat) : Nat :=
  if month = 2 then
    if year % 4 = 0 ∧ (year % 100 ≠ 0 ∨ year % 400 = 0) then 29 else 28
  else if month = 4 ∨ month = 6 ∨ month = 9 ∨ month = 11 then 30
  else 31

/-- Reads a date and leaves the rest. -/
def readDate? (text : List Char) : Option (List Char) := do
  let (year, rest) ← readField? 4 0 9999 text
  let (month, rest) ← readField? 2 1 12 (← readMark? '-' rest)
  let (_, rest) ← readField? 2 1 (daysIn year month) (← readMark? '-' rest)
  some rest

/-- Reads a time of day, its seconds and their fraction being optional. -/
def readTime? (text : List Char) : Option (List Char) := do
  let (_, rest) ← readField? 2 0 23 text
  let (_, rest) ← readField? 2 0 59 (← readMark? ':' rest)
  match rest with
  | ':' :: rest =>
    let (_, rest) ← readField? 2 0 60 rest
    match rest with
    | '.' :: fraction =>
      if (fraction.takeWhile Char.isDigit).isEmpty then none
      else some (fraction.dropWhile Char.isDigit)
    | _ => some rest
  | _ => some rest

/-- Whether a text is nothing or an offset from universal time. -/
def isOffset (text : List Char) : Bool :=
  match text with
  | [] => true
  | [c] => c = 'Z' || c = 'z'
  | sign :: rest =>
    (sign = '+' || sign = '-') &&
      (do
        let (_, rest) ← readField? 2 0 23 rest
        let (_, rest) ← readField? 2 0 59 (← readMark? ':' rest)
        some rest) == some []

/-- Whether a text is a date, a time or both. -/
def isDatetime (text : List Char) : Bool :=
  match readDate? text with
  | some [] => true
  | some (mark :: rest) =>
    (mark = 'T' || mark = 't' || mark = ' ') && ((readTime? rest).map isOffset).getD false
  | none => readTime? text == some []

/-! ### Scalars without quotes -/

/-- Whether a character can stand in a scalar without quotes. -/
def isScalarPart (c : Char) : Bool :=
  c.isAlphanum || c == '_' || c == '+' || c == '-' || c == '.' || c == ':'

/-- The value that an unquoted run of characters denotes. -/
def scalar? (text : List Char) : Option Toml :=
  if text = "true".toList then some (.boolean true)
  else if text = "false".toList then some (.boolean false)
  else if isDatetime text then some (.datetime (String.ofList text))
  else number? text

/-- Reads an unquoted scalar; a date may be followed by a blank and a time. -/
def readScalar? (text : List Char) : Option (Toml × List Char) :=
  let run := text.takeWhile isScalarPart
  let rest := text.dropWhile isScalarPart
  let time := match rest with
    | ' ' :: more => more.takeWhile isScalarPart
    | _ => []
  if readDate? run = some [] ∧ (time.head?.map Char.isDigit) = some true then
    (scalar? (run ++ ' ' :: time)).map fun value => (value, rest.drop (time.length + 1))
  else (scalar? run).map fun value => (value, rest)

end KnowledgeSearch.Toml
