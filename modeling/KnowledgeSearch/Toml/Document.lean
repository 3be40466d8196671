/-
  KnowledgeSearch/Toml/Document.lean
  ==================================
  **Reading configuration documents.**

  A document is a list of lines: settings `key = value`, headers that open a table
  or a further table of a list, blank lines and comments.  Keys may be dotted; a
  dotted key opens tables on its way.  No key may be given twice, and a table is
  opened by one header or by dotted keys, never by both.  While a document is read,
  each table therefore remembers how it came to be.  Keys have at most 80 parts, and
  values nest at most 80 deep.
-/
import KnowledgeSearch.Toml.Scalar

namespace KnowledgeSearch.Toml

/-! ### Tables under construction -/

/-- An entry of a table under construction.  A table is `implied` while only longer
    headers or dotted keys have mentioned it, and `dotted` if keys did. -/
inductive Node where
  | value (value : Toml)
  | table (implied : Bool) (dotted : Bool) (entries : List (String × Node))
  | tables (items : List (List (String × Node)))

/-- The entries of a table under construction. -/
abbrev Entries := List (String × Node)

namespace Node

mutual

def finish : Node → Toml
  | .value v => v
  | .table _ _ entries => .table (finishEntries entries)
  | .tables items => .array (finishTables items)

def finishEntries : List (String × Node) → List (String × Toml)
  | [] => []
  | (key, node) :: rest => (key, node.finish) :: finishEntries rest

def finishTables : List (List (String × Node)) → List Toml
  | [] => []
  | entries :: rest => .table (finishEntries entries) :: finishTables rest

end

end Node

namespace Entries

/-- Replaces the entry of a key, or adds it at the end. -/
def put (key : String) (node : Node) : Entries → Entries
  | [] => [(key, node)]
  | (k, n) :: rest => if k = key then (key, node) :: rest else (k, n) :: put key node rest

/-- Goes down a path, opening tables on the way, and changes the table at its end.
    The change is told whether that table has only been implied so far.  A path of
    dotted keys does not enter a table that a header has opened, and the table at its
    end counts as made by keys; of a list of tables the last is entered. -/
def change (dotted : Bool) (change : Bool → Entries → Option Entries) :
    List String → Bool → Entries → Option Entries
  | [], implied, entries => change implied entries
  | key :: path, _, entries =>
    match entries.lookup key with
    | none =>
      (Entries.change dotted change path true []).map fun inner =>
        entries.put key (.table true dotted inner)
    | some (.value _) => none
    | some (.table implied byKeys inner) =>
      if dotted && !implied then none
      else
        (Entries.change dotted change path implied inner).map fun inner =>
          entries.put key (.table implied (byKeys || (dotted && path.isEmpty)) inner)
    | some (.tables items) =>
      match items.getLast? with
      | none => none
      | some last =>
        (Entries.change dotted change path false last).map fun last =>
          entries.put key (.tables (items.dropLast ++ [last]))

/-- Adds a setting below a table.  Dotted keys add to implied tables only. -/
def set? (path : List String) (key : String) (value : Toml) (entries : Entries) :
    Option Entries :=
  change true
    (fun implied entries =>
      if !path.isEmpty && !implied then none
      else if (entries.lookup key).isSome then none
      else some (entries.put key (.value value)))
    path false entries

def openTable? (path : List String) (key : String) (entries : Entries) : Option Entries :=
  change false
    (fun _ entries => match entries.lookup key with
      | none => some (entries.put key (.table false false []))
      | some (.table true false inner) => some (entries.put key (.table false false inner))
      | some _ => none)
    path false entries

/-- Opens a further table of a list by a header. -/
def openItem? (path : List String) (key : String) (entries : Entries) : Option Entries :=
  change false
    (fun _ entries => match entries.lookup key with
      | none => some (entries.put key (.tables [[]]))
      | some (.tables items) => some (entries.put key (.tables (items ++ [[]])))
      | some _ => none)
    path false entries

/-- Adds a setting to the table that a header has opened. -/
def setUnder? (header path : List String) (key : String) (value : Toml) (entries : Entries) :
    Option Entries :=
  change false (fun _ inner => Entries.set? path key value inner) header false entries

end Entries

/-! ### Keys and blanks -/

/-- Whether a character can stand in a key without quotes. -/
def isKeyPart (c : Char) : Bool := c.isAlphanum || c == '_' || c == '-'

def skipSpaces (text : List Char) : List Char := text.dropWhile isSpace

/-- Skips a comment up to the end of its line, if one begins here. -/
def skipComment? : List Char → Option (List Char)
  | '#' :: text =>
    if (text.takeWhile fun c => !isLineEnd c).any isControl then none
    else some (text.dropWhile fun c => !isLineEnd c)
  | text => some text

def skipLines? : Nat → List Char → Option (List Char)
  | 0, _ => none
  | fuel + 1, text => do
    let rest ← skipComment? (skipSpaces text)
    match skipLineEnd? rest with
    | some rest => skipLines? fuel rest
    | none => some rest

/-- How many parts a key may have, and how deep lists and tables in braces may be
    nested. -/
def nestingLimit : Nat := 80

def readKeyPart? (text : List Char) : Option (String × List Char) :=
  match text with
  | '"' :: rest => readBasic? (text.length + 1) [] rest
  | '\'' :: rest => readLiteral? [] rest
  | _ =>
    let part := text.takeWhile isKeyPart
    if part.isEmpty then none else some (String.ofList part, text.dropWhile isKeyPart)

/-- Reads a dotted key: the path before its last part, and that part. -/
def readKey? : Nat → List String → List Char → Option (List String × String × List Char)
  | 0, _, _ => none
  | fuel + 1, path, text => do
    let (part, rest) ← readKeyPart? (skipSpaces text)
    match skipSpaces rest with
    | '.' :: rest =>
      if path.length + 1 < nestingLimit then readKey? fuel (path ++ [part]) rest else none
    | rest => some (path, part, rest)

/-- Skips the sign between a key and its value, with blanks, comments and line ends
    around it. -/
def skipAssignment? (text : List Char) : Option (List Char) := do
  match ← skipLines? (text.length + 1) text with
  | '=' :: rest => skipLines? (rest.length + 1) rest
  | _ => none

/-! ### Values -/

mutual

/-- Reads a value; `levels` more may be opened. -/
def readValue? (levels : Nat) : Nat → List Char → Option (Toml × List Char)
  | 0, _ => none
  | fuel + 1, text =>
    match text, levels with
    | '[' :: rest, level + 1 => readItems? level fuel [] rest
    | '{' :: rest, level + 1 => readEntries? level fuel [] rest
    | '[' :: _, 0 | '{' :: _, 0 => none
    | c :: _, _ =>
      if c = '"' ∨ c = '\'' then (readString? text).map fun (s, rest) => (.string s, rest)
      else readScalar? text
    | [], _ => none

/-- Reads the items of a list, from the place of an item on. -/
def readItems? (levels : Nat) : Nat → List Toml → List Char → Option (Toml × List Char)
  | 0, _, _ => none
  | fuel + 1, done, text =>
    match skipLines? (text.length + 1) text with
    | none => none
    | some (']' :: rest) => some (.array done.reverse, rest)
    | some text =>
      match readValue? levels fuel text with
      | none => none
      | some (item, rest) =>
        match skipLines? (rest.length + 1) rest with
        | some (']' :: rest) => some (.array (item :: done).reverse, rest)
        | some (',' :: rest) => readItems? levels fuel (item :: done) rest
        | _ => none

/-- Reads the entries of a table in braces, from the place of an entry on. -/
def readEntries? (levels : Nat) : Nat → Entries → List Char → Option (Toml × List Char)
  | 0, _, _ => none
  | fuel + 1, done, text =>
    match skipLines? (text.length + 1) text with
    | none => none
    | some ('}' :: rest) => some (.table (Node.finishEntries done), rest)
    | some text =>
      match readKey? (text.length + 1) [] text with
      | none => none
      | some (path, key, rest) =>
        match (skipAssignment? rest).bind (readValue? levels fuel) with
        | none => none
        | some (value, rest) =>
          match Entries.set? path key value done, skipLines? (rest.length + 1) rest with
          | some done, some ('}' :: rest) => some (.table (Node.finishEntries done), rest)
          | some done, some (',' :: rest) => readEntries? levels fuel done rest
          | _, _ => none

end

/-! ### Documents -/

/-- Whether a line ends here, a comment aside. -/
def lineEnd? (text : List Char) : Option (List Char) := do
  match ← skipComment? (skipSpaces text) with
  | [] => some []
  | rest => skipLineEnd? rest

/-- Reads the lines of a document; `header` is the table that is open and `entries`
    what has been read. -/
def readLines? : Nat → List String → Entries → List Char → Option Entries
  | 0, _, _, _ => none
  | fuel + 1, header, entries, text => do
    match ← skipLines? (text.length + 1) text with
    | [] => some entries
    | '[' :: '[' :: rest =>
      match ← readKey? (rest.length + 1) [] rest with
      | (path, key, ']' :: ']' :: rest) =>
        readLines? fuel (path ++ [key]) (← entries.openItem? path key) (← lineEnd? rest)
      | _ => none
    | '[' :: rest =>
      match ← readKey? (rest.length + 1) [] rest with
      | (path, key, ']' :: rest) =>
        readLines? fuel (path ++ [key]) (← entries.openTable? path key) (← lineEnd? rest)
      | _ => none
    | rest =>
      match ← readKey? (rest.length + 1) [] rest with
      | (path, key, '=' :: rest) =>
        let (value, rest) ← readValue? nestingLimit (2 * rest.length + 2) (skipSpaces rest)
        readLines? fuel header (← entries.setUnder? header path key value) (← lineEnd? rest)
      | _ => none

/-- Whether every carriage return stands before a newline. -/
def hasWholeLineEnds : List Char → Bool
  | [] => true
  | '\r' :: '\n' :: rest => hasWholeLineEnds rest
  | c :: rest => c != '\r' && hasWholeLineEnds rest

/-- Reads a document, with or without a byte order mark in front. -/
def ofString? (document : String) : Option Toml := do
  let text := match document.toList with
    | '\ufeff' :: rest => rest
    | text => text
  if hasWholeLineEnds text then
    let entries ← readLines? (text.length + 1) [] [] text
    some (.table (Node.finishEntries entries))
  else none

end KnowledgeSearch.Toml
