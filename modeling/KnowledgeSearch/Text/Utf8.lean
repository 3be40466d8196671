/-
  KnowledgeSearch/Text/Utf8.lean
  ==============================
  **Texts as bytes.**

  A character takes one to four bytes, of which the first tells how many follow.  The
  bounds on the byte after the first exclude long forms, surrogates and numbers beyond
  the last character, so the bytes of a character can be told from others as soon as
  they differ.  `decode` stops where bytes are no character; `decodeLossy` puts one
  replacement character in the place of such bytes and goes on.
-/
namespace KnowledgeSearch.Utf8

/-! ### Single characters -/

/-- The bounds of the bytes that follow a first byte; none if no character begins
    with it. -/
def followers? (first : UInt8) : Option (List (UInt8 × UInt8)) :=
  let any : UInt8 × UInt8 := (0x80, 0xBF)
  if first < 0x80 then some []
  else if first < 0xC2 then none
  else if first < 0xE0 then some [any]
  else if first = 0xE0 then some [(0xA0, 0xBF), any]
  else if first = 0xED then some [(0x80, 0x9F), any]
  else if first < 0xF0 then some [any, any]
  else if first = 0xF0 then some [(0x90, 0xBF), any, any]
  else if first < 0xF4 then some [any, any, any]
  else if first = 0xF4 then some [(0x80, 0x8F), any, any]
  else none

/-- The part of a number that the first byte of a character holds. -/
def firstValue (first : UInt8) : Nat :=
  if first < 0x80 then first.toNat
  else if first < 0xE0 then first.toNat % 32
  else if first < 0xF0 then first.toNat % 16
  else first.toNat % 8

inductive Lead where
  /-- A character and what follows it. -/
  | character (c : Char) (rest : List UInt8)
  /-- So many bytes that are no character. -/
  | fault (length : Nat)
  /-- A character that the end cuts short. -/
  | incomplete

/-- Reads the bytes that follow a first one; `value` is what has been read of the
    number, and `length` the count of bytes. -/
def readFollowers (value length : Nat) : List (UInt8 × UInt8) → List UInt8 → Lead
  | [], rest => .character (Char.ofNat value) rest
  | _ :: _, [] => .incomplete
  | (low, high) :: bounds, byte :: rest =>
    if low ≤ byte ∧ byte ≤ high then
      readFollowers (64 * value + byte.toNat % 64) (length + 1) bounds rest
    else .fault length

/-- Reads what begins with a byte. -/
def lead (first : UInt8) (rest : List UInt8) : Lead :=
  match followers? first with
  | some bounds => readFollowers (firstValue first) 1 bounds rest
  | none => .fault 1

/-! ### Texts -/

/-- Where bytes stop being a text. -/
structure Fault where
  index : Nat
  /-- The number of bytes that are no character; none if the end cuts one short. -/
  length : Option Nat
deriving DecidableEq, Repr

def Fault.message (fault : Fault) : String :=
  let index := fault.index
  match fault.length with
  | some length => s!"invalid utf-8 sequence of {length} bytes from index {index}"
  | none => s!"incomplete utf-8 byte sequence from index {index}"

/-- Reads bytes as characters; `done` holds the characters so far, last first, and
    `index` counts the bytes before the ones to read. -/
def decodeFrom : Nat → Nat → List Char → List UInt8 → Except Fault (List Char)
  | 0, _, done, _ => .ok done.reverse
  | _, _, done, [] => .ok done.reverse
  | fuel + 1, index, done, byte :: rest =>
    match lead byte rest with
    | .character c more =>
      decodeFrom fuel (index + c.utf8Size) (c :: done) more
    | .fault length => .error ⟨index, some length⟩
    | .incomplete => .error ⟨index, none⟩

def decode (bytes : List UInt8) : Except Fault String :=
  (decodeFrom bytes.length 0 [] bytes).map String.ofList

/-- The character that stands for bytes that are none. -/
def replacement : Char := '\ufffd'

/-- Reads bytes as characters, with replacements. -/
def decodeLossyFrom : Nat → List Char → List UInt8 → List Char
  | 0, done, _ => done.reverse
  | _, done, [] => done.reverse
  | fuel + 1, done, byte :: rest =>
    match lead byte rest with
    | .character c more => decodeLossyFrom fuel (c :: done) more
    | .fault length => decodeLossyFrom fuel (replacement :: done) (rest.drop (length - 1))
    | .incomplete => (replacement :: done).reverse

def decodeLossy (bytes : List UInt8) : String :=
  String.ofList (decodeLossyFrom bytes.length [] bytes)

/-- The bytes of a character. -/
def encodeChar (c : Char) : List UInt8 := c.toString.toUTF8.toList

/-- The bytes of some characters. -/
def encode (text : List Char) : List UInt8 := text.flatMap encodeChar

end KnowledgeSearch.Utf8
