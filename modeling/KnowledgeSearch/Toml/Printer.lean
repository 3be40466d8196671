/-
  KnowledgeSearch/Toml/Printer.lean
  =================================
  **Writing configuration documents.**

  A table is written as a section: a header with its whole path, its settings, and
  then the sections of the tables in it.  A list that holds tables and nothing else has
  one section for each of them.  All other values stand behind their keys, in one line;
  a table among the items of a mixed list is written in braces.
-/
import KnowledgeSearch.Json.Printer
import KnowledgeSearch.Toml.Document

namespace KnowledgeSearch

/-- Numbers of a configuration document: a whole number keeps a fraction digit, so that
    it is not read back as an integer. -/
def documentStyle : NumberStyle where
  tie := .toEven
  positional exponent := -5 ≤ exponent && exponent < 16
  keepsFraction := true
  nanText := "nan"
  infinityText := "inf"

namespace Toml

/-! ### Keys and strings -/

/-- A character of a string.  Controls are written by their numbers. -/
def writeChar (c : Char) : List Char :=
  if c = '"' ∨ c = '\\' then ['\\', c]
  else if c.toNat < 32 ∨ c.toNat = 127 then ['\\', 'u'] ++ Json.hexQuad c.toNat
  else [c]

def writeString (text : String) : String :=
  String.ofList ('"' :: (text.toList.flatMap writeChar ++ ['"']))

/-- A part of a key, in quotation marks if it needs them. -/
def writeKeyPart (part : String) : String :=
  if !part.isEmpty && part.toList.all isKeyPart then part else writeString part

def writeKey (path : List String) : String := String.intercalate "." (path.map writeKeyPart)

/-! ### Values in a line -/

mutual

/-- A value as it stands behind a key. -/
def writeValue : Toml → String
  | .string s => writeString s
  | .integer n => toString n
  | .float x => documentStyle.format x
  | .boolean b => if b then "true" else "false"
  | .datetime written => written
  | .array items => "[" ++ String.intercalate ", " (writeItems items) ++ "]"
  | .table entries => "\x7b" ++ String.intercalate ", " (writeEntries entries) ++ "\x7d"

def writeItems : List Toml → List String
  | [] => []
  | item :: items => writeValue item :: writeItems items

/-- The entries of a table in braces. -/
def writeEntries : List (String × Toml) → List String
  | [] => []
  | (key, value) :: entries =>
    (writeKeyPart key ++ " = " ++ writeValue value) :: writeEntries entries

end

/-! ### Sections -/

def isTable : Toml → Bool
  | .table _ => true
  | _ => false

/-- Whether a value is written as sections of its own. -/
def hasSections : Toml → Bool
  | .table _ => true
  | .array items => !items.isEmpty && items.all isTable
  | _ => false

/-- The settings of a table that stand in lines. -/
def writeSettings (entries : List (String × Toml)) : String :=
  let settings := entries.filter fun (_, value) => !value.hasSections
  String.join ((writeEntries settings).map fun line => line ++ "\n")

mutual

/-- The sections of the tables among some entries; `path` leads to the entries. -/
def writeSections (path : List String) : List (String × Toml) → String
  | [] => ""
  | (key, .table inner) :: entries =>
    "[" ++ writeKey (path ++ [key]) ++ "]\n" ++ writeSettings inner ++
      writeSections (path ++ [key]) inner ++ writeSections path entries
  | (key, .array items) :: entries =>
    (if hasSections (.array items) then writeTables (path ++ [key]) items else "") ++
      writeSections path entries
  | _ :: entries => writeSections path entries

def writeTables (path : List String) : List Toml → String
  | [] => ""
  | .table inner :: items =>
    "[[" ++ writeKey path ++ "]]\n" ++ writeSettings inner ++ writeSections path inner ++
      writeTables path items
  | _ :: items => writeTables path items

end

def render (entries : List (String × Toml)) : String :=
  writeSettings entries ++ writeSections [] entries

end Toml

end KnowledgeSearch
