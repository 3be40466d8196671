/-
  KnowledgeSearch/Json/Printer.lean
  =================================
  **Compact JSON text.**

  No blanks, members in key order.  In strings a quotation mark, a backslash and
  the control characters below `0x20` are escaped, the common ones by a letter and
  the others by four lower-case hexadecimal digits; every other character stands
  for itself.
-/
import KnowledgeSearch.Json.Basic

namespace KnowledgeSearch.Json

/-- Four hexadecimal digits. -/
def hexQuad (n : Nat) : List Char :=
  [n / 4096, n / 256, n / 16, n].map fun d => Nat.digitChar (d % 16)

/-- A character as it stands in a string. -/
def escape (c : Char) : List Char :=
  if c = '"' then ['\\', '"']
  else if c = '\\' then ['\\', '\\']
  else if c = '\n' then ['\\', 'n']
  else if c = '\r' then ['\\', 'r']
  else if c = '\t' then ['\\', 't']
  else if c.toNat = 8 then ['\\', 'b']
  else if c.toNat = 12 then ['\\', 'f']
  else if c.toNat < 32 then '\\' :: 'u' :: hexQuad c.toNat
  else [c]

/-- A string between quotation marks. -/
def quote (text : String) : List Char :=
  '"' :: (text.toList.flatMap escape ++ ['"'])

end KnowledgeSearch.Json

namespace KnowledgeSearch

def Number.toChars : Number → List Char
  | .int n _ => (toString n).toList
  | .float x _ => (jsonStyle.format x).toList

namespace Json

mutual

/-- The compact text of a value. -/
def toChars : Json → List Char
  | .null => "null".toList
  | .bool true => "true".toList
  | .bool false => "false".toList
  | .number n => n.toChars
  | .string text => quote text
  | .array [] => "[]".toList
  | .array (item :: items) => '[' :: (item.toChars ++ itemsToChars items)
  | .object [] => "\x7b\x7d".toList
  | .object ((key, value) :: members) =>
    '{' :: (quote key ++ ':' :: (value.toChars ++ membersToChars members))

/-- The rest of an array after its first item. -/
def itemsToChars : List Json → List Char
  | [] => [']']
  | item :: items => ',' :: (item.toChars ++ itemsToChars items)

/-- The rest of an object after its first member. -/
def membersToChars : List (String × Json) → List Char
  | [] => ['}']
  | (key, value) :: members =>
    ',' :: (quote key ++ ':' :: (value.toChars ++ membersToChars members))

end

def compact (value : Json) : String := String.ofList value.toChars

end Json

end KnowledgeSearch
