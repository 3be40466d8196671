/-
  KnowledgeSearch/Text/Identifier.lean
  ====================================
  **Plain identifiers, and splitting at a character.**

  Names of tables, columns and keys of JSON paths go into statements as they are,
  so they are restricted to plain identifiers: an ASCII letter or an underscore,
  then ASCII letters, digits and underscores.
-/
namespace KnowledgeSearch.Text

/-- Whether a character may begin an identifier. -/
def isIdentifierStart (c : Char) : Bool := c.isAlpha || c = '_'

/-- Whether a character may stand inside an identifier. -/
def isIdentifierPart (c : Char) : Bool := c.isAlphanum || c = '_'

def isIdentifier (text : String) : Bool :=
  match text.toList with
  | [] => false
  | c :: rest => isIdentifierStart c && rest.all isIdentifierPart

/-- The parts of a text between the occurrences of a separator; there is always at
    least one part. -/
def splitAt (separator : Char) : List Char → List (List Char)
  | [] => [[]]
  | c :: rest =>
    if c = separator then [] :: splitAt separator rest
    else
      match splitAt separator rest with
      | part :: parts => (c :: part) :: parts
      | [] => [[c]]

theorem splitAt_ne_nil (separator : Char) (text : List Char) : splitAt separator text ≠ [] := by
  cases text with
  | nil => simp [splitAt]
  | cons c rest =>
    simp only [splitAt]
    split
    · simp
    · split <;> simp

/-- Putting the separator back between the parts restores the text. -/
theorem intercalate_splitAt (separator : Char) (text : List Char) :
    List.intercalate [separator] (splitAt separator text) = text := by
  induction text with
  | nil => rfl
  | cons c rest ih =>
    simp only [splitAt]
    split
    · next h =>
      subst h
      cases hs : splitAt c rest with
      | nil => exact absurd hs (splitAt_ne_nil _ _)
      | cons part parts =>
        rw [hs] at ih
        simpa [List.intercalate] using ih
    · cases hs : splitAt separator rest with
      | nil => exact absurd hs (splitAt_ne_nil _ _)
      | cons part parts =>
        rw [hs] at ih
        subst ih
        cases parts <;> simp [List.intercalate]

end KnowledgeSearch.Text
