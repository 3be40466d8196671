/-
  KnowledgeSearch/Json/Parser.lean
  ================================
  **Reading JSON text.**

  The grammar is that of JSON itself.  Arrays and objects may be nested to a depth
  of 127.  What number a literal is, `Number.ofLiteral?` says.  Of several members of
  one key the last counts.  Escapes must denote characters, so a surrogate has to
  come with its partner.

  Every reader takes the remaining characters and gives back what it leaves; the
  fuel of the recursive ones is the number of characters, of which each call takes
  at least one.
-/
import KnowledgeSearch.Json.Literal

namespace KnowledgeSearch.Json

/-- Blank characters between tokens. -/
def isBlank (c : Char) : Bool := c = ' ' || c = '\n' || c = '\t' || c = '\r'

def skipBlanks (text : List Char) : List Char := text.dropWhile isBlank

/-! ### Numbers -/

/-- Reads the exponent of a number, after its letter. -/
def readExponent? (text : List Char) : Option (Int × List Char) :=
  let (negative, digitsText) := match text with
    | '+' :: rest => (false, rest)
    | '-' :: rest => (true, rest)
    | rest => (false, rest)
  let (digits, rest) := Decimal.takeDigits digitsText
  if digits.isEmpty then none
  else
    let size : Int := Decimal.digitsValue digits
    some (if negative then -size else size, rest)

/-- The parts of a number without its sign: the digits before the point and, if there is
    a fraction or an exponent, these. -/
abbrev NumberParts := List Char × Option (List Char × Int)

/-- Reads the parts of a number from its first digit on. -/
def readParts? (text : List Char) : Option (NumberParts × List Char) := do
  let (whole, rest) := Decimal.takeDigits text
  if whole.isEmpty || (whole.length > 1 && whole.head? == some '0') then none
  else
    let (fraction?, rest) ← match rest with
      | '.' :: more =>
        let (fraction, rest) := Decimal.takeDigits more
        if fraction.isEmpty then none else some (some fraction, rest)
      | other => some (none, other)
    let (exponent?, rest) ← match rest with
      | c :: more =>
        if c = 'e' ∨ c = 'E' then (readExponent? more).map fun (e, rest) => (some e, rest)
        else some (none, rest)
      | [] => some (none, [])
    let more := match fraction?, exponent? with
      | none, none => none
      | fraction?, exponent? => some (fraction?.getD [], exponent?.getD 0)
    some ((whole, more), rest)

def readUnsigned? (negative : Bool) (text : List Char) : Option (Number × List Char) := do
  let ((whole, more), rest) ← readParts? text
  (Number.ofLiteral? negative whole more).map fun n => (n, rest)

def readNumber? : List Char → Option (Number × List Char)
  | '-' :: text => readUnsigned? true text
  | text => readUnsigned? false text

/-! ### Strings -/

def hexDigit? (c : Char) : Option Nat :=
  if '0' ≤ c ∧ c ≤ '9' then some (c.toNat - '0'.toNat)
  else if 'a' ≤ c ∧ c ≤ 'f' then some (c.toNat - 'a'.toNat + 10)
  else if 'A' ≤ c ∧ c ≤ 'F' then some (c.toNat - 'A'.toNat + 10)
  else none

/-- The value of four hexadecimal digits. -/
def hexQuad? (a b c d : Char) : Option Nat := do
  some (4096 * (← hexDigit? a) + 256 * (← hexDigit? b) + 16 * (← hexDigit? c) +
    (← hexDigit? d))

def surrogatePair? (high low : Nat) : Option Char :=
  if 0xD800 ≤ high ∧ high < 0xDC00 ∧ 0xDC00 ≤ low ∧ low < 0xE000 then
    some (Char.ofNat (0x10000 + (high - 0xD800) * 0x400 + (low - 0xDC00)))
  else none

/-- The character that a letter after a backslash denotes. -/
def letterEscape? (c : Char) : Option Char :=
  if c = '"' ∨ c = '\\' ∨ c = '/' then some c
  else if c = 'b' then some (Char.ofNat 8)
  else if c = 'f' then some (Char.ofNat 12)
  else if c = 'n' then some '\n'
  else if c = 'r' then some '\r'
  else if c = 't' then some '\t'
  else none

/-- Reads the characters of a string up to its closing quotation mark; `done` holds
    the characters so far, last first. -/
def readString? (done : List Char) : List Char → Option (String × List Char)
  | [] => none
  | '"' :: rest => some (String.ofList done.reverse, rest)
  | '\\' :: 'u' :: a :: b :: c :: d :: rest =>
    match hexQuad? a b c d with
    | none => none
    | some n =>
      if n < 0xD800 ∨ 0xE000 ≤ n then readString? (Char.ofNat n :: done) rest
      else
        match rest with
        | '\\' :: 'u' :: a' :: b' :: c' :: d' :: rest' =>
          match (hexQuad? a' b' c' d').bind (surrogatePair? n) with
          | none => none
          | some character => readString? (character :: done) rest'
        | _ => none
  | '\\' :: c :: rest =>
    match letterEscape? c with
    | none => none
    | some character => readString? (character :: done) rest
  | c :: rest => if c.toNat < 32 ∨ c = '\\' then none else readString? (c :: done) rest

/-! ### Values -/

mutual

/-- Reads a value; `depth` is the number of containers that may still be opened. -/
def readValue? : Nat → Nat → List Char → Option (Json × List Char)
  | 0, _, _ => none
  | fuel + 1, depth, text =>
    match skipBlanks text with
    | 'n' :: 'u' :: 'l' :: 'l' :: rest => some (.null, rest)
    | 't' :: 'r' :: 'u' :: 'e' :: rest => some (.bool true, rest)
    | 'f' :: 'a' :: 'l' :: 's' :: 'e' :: rest => some (.bool false, rest)
    | '"' :: rest => (readString? [] rest).map fun (text, rest) => (.string text, rest)
    | '[' :: rest =>
      match depth with
      | 0 => none
      | depth + 1 =>
        match skipBlanks rest with
        | ']' :: rest => some (.array [], rest)
        | rest => readItems? fuel depth [] rest
    | '{' :: rest =>
      match depth with
      | 0 => none
      | depth + 1 =>
        match skipBlanks rest with
        | '}' :: rest => some (.object [], rest)
        | rest => readMembers? fuel depth [] rest
    | rest => (readNumber? rest).map fun (n, rest) => (.number n, rest)

/-- Reads the items of an array, from an item on; `done` holds the items so far,
    last first. -/
def readItems? : Nat → Nat → List Json → List Char → Option (Json × List Char)
  | 0, _, _, _ => none
  | fuel + 1, depth, done, text =>
    match readValue? fuel depth text with
    | none => none
    | some (item, rest) =>
      match skipBlanks rest with
      | ']' :: rest => some (.array (item :: done).reverse, rest)
      | ',' :: rest => readItems? fuel depth (item :: done) rest
      | _ => none

/-- Reads the members of an object, from a key on; `done` holds the members so
    far, last first. -/
def readMembers? :
    Nat → Nat → List (String × Json) → List Char → Option (Json × List Char)
  | 0, _, _, _ => none
  | fuel + 1, depth, done, text =>
    match skipBlanks text with
    | '"' :: rest =>
      match readString? [] rest with
      | none => none
      | some (key, rest) =>
        match skipBlanks rest with
        | ':' :: rest =>
          match readValue? fuel depth rest with
          | none => none
          | some (value, rest) =>
            match skipBlanks rest with
            | '}' :: rest => some (ofMembers ((key, value) :: done).reverse, rest)
            | ',' :: rest => readMembers? fuel depth ((key, value) :: done) rest
            | _ => none
        | _ => none
    | _ => none

end

def maxNesting : Nat := 127

/-- Reads a text that is one value, with blanks around it. -/
def ofChars? (text : List Char) : Option Json :=
  match readValue? (2 * text.length + 1) maxNesting text with
  | some (value, rest) => if (skipBlanks rest).isEmpty then some value else none
  | none => none

/-- Reads a text that is one value, with blanks around it. -/
def ofString? (text : String) : Option Json := ofChars? text.toList

end KnowledgeSearch.Json
