/-
  KnowledgeSearch/Text/Quoted.lean
  ================================
  **Texts quoted in messages.**

  A path or a value that a message quotes stands between quotation marks, with
  quotation marks and backslashes escaped.  So is every character that would not be
  seen, or not by itself: controls, blanks other than the space, marks that join the
  character before them, and code points that stand for no character.
-/
import KnowledgeSearch.Text.ShownTable

namespace KnowledgeSearch.Text

/-- Whether a character has a shape of its own, or is the space. -/
def isShown (c : Char) : Bool :=
  let n := c.toNat
  if n < 128 then 32 ≤ n && n < 127
  else shownRanges.any fun (first, last) => first ≤ n && n ≤ last

/-- A character as it stands between quotation marks. -/
def escapeQuoted (c : Char) : List Char :=
  if c = '"' then ['\\', '"']
  else if c = '\\' then ['\\', '\\']
  else if c = '\n' then ['\\', 'n']
  else if c = '\r' then ['\\', 'r']
  else if c = '\t' then ['\\', 't']
  else if c.toNat = 0 then ['\\', '0']
  else if isShown c then [c]
  else ['\\', 'u', '\x7b'] ++ Nat.toDigits 16 c.toNat ++ ['\x7d']

/-- A text between quotation marks. -/
def quoted (text : String) : String :=
  String.ofList ('"' :: (text.toList.flatMap escapeQuoted ++ ['"']))

end KnowledgeSearch.Text
