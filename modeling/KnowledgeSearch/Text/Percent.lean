/-
  KnowledgeSearch/Text/Percent.lean
  =================================
  **Percent encoding.**

  In a name or a URL a percent sign and two hexadecimal digits stand for one byte; a
  percent sign before anything else stands for itself.  The parameters behind a
  question mark are pairs of a key and a value, in which a plus sign stands for a
  space.
-/
import KnowledgeSearch.Json.Parser
import KnowledgeSearch.Text.Identifier
import KnowledgeSearch.Text.Utf8

namespace KnowledgeSearch.Percent

def bytes : List Char → List UInt8
  | '%' :: a :: b :: rest =>
    match Json.hexDigit? a, Json.hexDigit? b with
    | some high, some low => UInt8.ofNat (16 * high + low) :: bytes rest
    | _, _ => Utf8.encodeChar '%' ++ bytes (a :: b :: rest)
  | c :: rest => Utf8.encodeChar c ++ bytes rest
  | [] => []

def decode (text : List Char) : Except Utf8.Fault String := Utf8.decode (bytes text)

/-- A key or a value of a parameter. -/
def decodeParameter (text : List Char) : String :=
  Utf8.decodeLossy (bytes (text.map fun c => if c = '+' then ' ' else c))

def parameters (text : List Char) : List (String × String) :=
  ((Text.splitAt '&' text).filter fun part => !part.isEmpty).map fun part =>
    (decodeParameter (part.takeWhile (· ≠ '=')),
      decodeParameter ((part.dropWhile (· ≠ '=')).drop 1))

end KnowledgeSearch.Percent
