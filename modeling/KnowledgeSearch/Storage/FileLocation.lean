/-
  KnowledgeSearch/Storage/FileLocation.lean
  =========================================
  **Places of files.**

  A path names a place by the names on the way to it, from the root or from the current
  directory.  Empty names and `.` lead nowhere, and `..` takes the last step back, so
  different paths may name one place.
-/
import KnowledgeSearch.Text.Identifier

namespace KnowledgeSearch

/-- A place in a tree of directories. -/
structure FileLocation where
  /-- Whether the way begins at the root and not at the current directory. -/
  absolute : Bool
  names : List String
deriving DecidableEq, Repr

namespace FileLocation

def step (place : FileLocation) (name : String) : FileLocation :=
  let onward := { place with names := place.names ++ [name] }
  if name = "" ∨ name = "." then place
  else if name ≠ ".." then onward
  else
    match place.names.getLast? with
    | some last => if last = ".." then onward else { place with names := place.names.dropLast }
    | none => if place.absolute then place else onward

/-- Where the way of a path begins. -/
def start (path : String) : FileLocation := ⟨path.startsWith "/", []⟩

def steps (path : String) : List String := (Text.splitAt '/' path.toList).map String.ofList

def ofString (path : String) : FileLocation := (steps path).foldl step (start path)

/-- The place that a path leads to, if every step of it begins in a directory. -/
def follow? (directoryExists : FileLocation → Bool) (path : String) : Option FileLocation :=
  (steps path).foldlM
    (fun place name => if directoryExists place then some (place.step name) else none)
    (start path)

def isInside (place directory : FileLocation) : Bool :=
  place.absolute = directory.absolute && place ≠ directory &&
    directory.names.isPrefixOf place.names

def parent (place : FileLocation) : FileLocation := { place with names := place.names.dropLast }

def root : FileLocation := ⟨true, []⟩

/-- Whether the place is the current directory or one around it. -/
def isAround (place : FileLocation) : Bool := !place.absolute && place.names.all (· = "..")

/-- The longest name that a directory holds, in bytes. -/
def maxNameBytes : Nat := 255

/-- Whether every name on the way can be one. -/
def hasShortNames (place : FileLocation) : Bool :=
  place.names.all fun name => name.utf8ByteSize ≤ maxNameBytes

end FileLocation

end KnowledgeSearch
