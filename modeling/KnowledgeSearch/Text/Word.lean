/-
  KnowledgeSearch/Text/Word.lean
  ==============================
  **Words and letters without case.**

  Where a secret is looked for in a message, a keyword has to begin at a word
  boundary and letters are compared without case.  Two characters beyond ASCII
  count as forms of ASCII letters there: the long s and the Kelvin sign.
-/
import KnowledgeSearch.Text.WordTable

namespace KnowledgeSearch.Text

/-- Whether a character belongs to a word. -/
def isWord (c : Char) : Bool :=
  if c.toNat < 128 then c.isAlphanum || c = '_'
  else wordRanges.any fun (first, last) => first ≤ c.toNat && c.toNat ≤ last

/-- The ASCII letter that a character stands for without case, or itself. -/
def foldChar (c : Char) : Char :=
  if c = '\u017f' then 's' else if c = '\u212a' then 'k' else c.toLower

end KnowledgeSearch.Text
