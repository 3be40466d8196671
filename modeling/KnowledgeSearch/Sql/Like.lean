/-
  KnowledgeSearch/Sql/Like.lean
  =============================
  **Patterns of texts.**

  In a pattern a percent sign stands for any text and an underscore for any character.
  An escape character, where one is given, makes the character after it stand for
  itself; a pattern that ends in one matches nothing.  ASCII letters match without
  their case.
-/
namespace KnowledgeSearch.Like

/-- A part of a pattern. -/
inductive Item where
  | literal (c : Char)
  | anyCharacter
  | anyText
deriving DecidableEq, Repr

/-- Puts a part in front; of two parts for any text one is enough. -/
def Item.cons (item : Item) (items : List Item) : List Item :=
  if item = .anyText ∧ items.head? = some .anyText then items else item :: items

/-- The parts of a pattern, unless an escape character ends it. -/
def items? (escape : Option Char) : List Char → Option (List Item)
  | [] => some []
  | c :: rest =>
    if escape = some c then
      match rest with
      | [] => none
      | escaped :: rest => (items? escape rest).map (.literal escaped :: ·)
    else
      let item : Item := if c = '%' then .anyText else if c = '_' then .anyCharacter else .literal c
      (items? escape rest).map item.cons

/-- Whether two characters are the same apart from the case of an ASCII letter. -/
def sameLetter (a b : Char) : Bool := a.toLower == b.toLower

/-- What is left of a text after each of its beginnings. -/
def suffixes : List Char → List (List Char)
  | [] => [[]]
  | c :: rest => (c :: rest) :: suffixes rest

/-- Whether a text matches some parts of a pattern. -/
def admits : List Item → List Char → Bool
  | [], text => text.isEmpty
  | .anyText :: items, text => (suffixes text).any (admits items)
  | .anyCharacter :: items, text =>
    match text with
    | [] => false
    | _ :: rest => admits items rest
  | .literal c :: items, text =>
    match text with
    | [] => false
    | d :: rest => sameLetter c d && admits items rest

/-- A text as the database reads it, up to a null character. -/
def readable (text : String) : List Char := text.toList.takeWhile fun c => c.toNat ≠ 0

def holds (escape : Option Char) (pattern text : String) : Bool :=
  match items? escape (readable pattern) with
  | some items => admits items (readable text)
  | none => false

end KnowledgeSearch.Like
