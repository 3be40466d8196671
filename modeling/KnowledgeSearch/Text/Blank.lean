/-
  KnowledgeSearch/Text/Blank.lean
  ===============================
  **White space.**

  The characters that trimming removes and that count as blank in messages: the
  Unicode property `White_Space`, which is more than the six blanks of ASCII.
-/
namespace KnowledgeSearch.Text

/-- Whether a character is white space. -/
def isBlank (c : Char) : Bool :=
  let n := c.toNat
  (9 ≤ n && n ≤ 13) || n == 0x20 || n == 0x85 || n == 0xA0 || n == 0x1680 ||
    (0x2000 ≤ n && n ≤ 0x200A) || n == 0x2028 || n == 0x2029 || n == 0x202F ||
    n == 0x205F || n == 0x3000

/-- Removes white space at both ends. -/
def trimChars (text : List Char) : List Char :=
  ((text.dropWhile isBlank).reverse.dropWhile isBlank).reverse

/-- Removes white space at both ends. -/
def trim (text : String) : String := String.ofList (trimChars text.toList)

/-- Whether a text is empty or white space only. -/
def isBlankText (text : String) : Bool := text.toList.all isBlank

/-- Every blank of the core library is white space. -/
theorem isBlank_of_isWhitespace {c : Char} (h : c.isWhitespace = true) : isBlank c = true := by
  simp only [Char.isWhitespace, Bool.or_eq_true, decide_eq_true_eq] at h
  rcases h with ((rfl | rfl) | rfl) | rfl <;> rfl

end KnowledgeSearch.Text
