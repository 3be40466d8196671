/-
  KnowledgeSearch/Filter/Document.lean
  ====================================
  **Reading filter documents.**

  A filter is written as a JSON object.  Its members all have to hold: `$and` and
  `$or` hold lists of filters, `$not` one filter, and every other key that does not
  begin with a dollar sign names a field, whose value is a scalar (equality), a
  list (membership) or an object of operators.  Unknown keys with a dollar sign,
  unknown operators and objects left with nothing are ignored; a document left with
  nothing gives no predicate.

  Members are read in the order of their keys and the first fault is reported,
  together with the steps that lead to it.  Objects in filter position, scalar and
  list fields and known operators are nodes: their number and the depth at which
  they stand are limited, and so are the length of lists and the size of strings.
-/
import KnowledgeSearch.Filter.Predicate

namespace KnowledgeSearch

/-! ### Faults -/

/-- A step from a JSON value to a part of it. -/
inductive Step where
  | member (key : String)
  | index (position : Nat)
deriving DecidableEq, Repr

/-- The place that steps from the root of a document lead to. -/
def Step.render (steps : List Step) : String :=
  steps.foldl
    (fun text step => match step with
      | .member key => text ++ "." ++ key
      | .index position => text ++ "[" ++ toString position ++ "]")
    "$"

namespace Filter

def maxDepth : Nat := 8

def maxNodes : Nat := 128

def maxListItems : Nat := 512

def maxStringBytes : Nat := 4096

end Filter

/-- What can be wrong at a place of a filter document. -/
inductive Violation where
  | tooManyNodes (nodes : Nat)
  | tooDeep (depth : Nat)
  | notAnObject
  | notAnArray (key : String)
  | invalidField (raw : String)
  | notAScalar
  | notAString
  | stringTooLong
  | listTooLong (items : Nat)
  | rangeWithNull
  | presenceNotBoolean
  | missingJson (key : String)
deriving DecidableEq, Repr

def Violation.message : Violation → String
  | .tooManyNodes nodes => s!"predicate exceeds node limit ({nodes}/{Filter.maxNodes})."
  | .tooDeep depth => s!"predicate exceeds depth limit ({depth}/{Filter.maxDepth})."
  | .notAnObject => "predicate must be an object."
  | .notAnArray key => s!"{key} requires an array."
  | .invalidField raw => s!"field '{raw}' must be dot-separated plain identifiers."
  | .notAScalar => "scalar value expected."
  | .notAString => "string value expected."
  | .stringTooLong => s!"string value exceeds maximum bytes ({Filter.maxStringBytes})."
  | .listTooLong items => s!"list exceeds maximum size ({items}/{Filter.maxListItems})."
  | .rangeWithNull => "range operators require a non-null value."
  | .presenceNotBoolean => "$exists requires a boolean."
  | .missingJson key => s!"{key} requires a JSON value."

def Violation.report (violation : Violation) (place : String) : String :=
  s!"Invalid predicate at {place}: {violation.message}"

structure FilterError where
  path : List Step
  violation : Violation
deriving DecidableEq, Repr

namespace FilterError

def place (error : FilterError) : String := Step.render error.path

def message (error : FilterError) : String := error.violation.report error.place

end FilterError

/-! ### Operands -/

namespace Filter

/-- A text small enough to be bound. -/
def readString (path : List Step) : Json → Except FilterError String
  | .string text =>
    if maxStringBytes < text.utf8ByteSize then throw ⟨path, .stringTooLong⟩ else pure text
  | _ => throw ⟨path, .notAString⟩

def readScalar (path : List Step) : Json → Except FilterError Scalar
  | .null => pure .null
  | .bool b => pure (.bool b)
  | .number n => pure <| match n.toInt64? with
    | some i => .int i
    | none => .float n.toDouble
  | .string text => .text <$> readString path (.string text)
  | .array _ | .object _ => throw ⟨path, .notAScalar⟩

def readScalars (path : List Step) : Nat → List Json → Except FilterError (List Scalar)
  | _, [] => pure []
  | position, item :: items => do
    let value ← readScalar (path ++ [.index position]) item
    let values ← readScalars path (position + 1) items
    pure (value :: values)

def readList (path : List Step) (items : List Json) : Except FilterError (List Scalar) :=
  if maxListItems < items.length then throw ⟨path, .listTooLong items.length⟩
  else readScalars path 0 items

def readTest (path : List Step) (operator : Operator) (raw : Json) : Except FilterError Test :=
  let compare := fun comparison => Test.compare comparison <$> readScalar path raw
  let range := fun comparison => do
    let value ← readScalar path raw
    if value.isNull then throw ⟨path, .rangeWithNull⟩ else pure (Test.compare comparison value)
  let pattern := fun comparison =>
    (fun text => Test.compare comparison (.text text)) <$> readString path raw
  let membership := fun negated => match raw with
    | .array items => Test.membership negated <$> readList path items
    | _ => throw ⟨path, .notAnArray operator.key⟩
  let json := fun (test : Json → Test) =>
    if raw.isNull then throw ⟨path, .missingJson operator.key⟩ else pure (test raw)
  match operator with
  | .eq => compare .eq
  | .ne => compare .ne
  | .gt => range .gt
  | .gte => range .gte
  | .lt => range .lt
  | .lte => range .lte
  | .like => pattern .like
  | .ilike => pattern .ilike
  | .isIn => membership false
  | .notIn => membership true
  | .isPresent => match raw with
    | .bool expected => pure (.presence expected)
    | _ => throw ⟨path, .presenceNotBoolean⟩
  | .contains => json .contains
  | .containedBy => json .containedBy
  | .pathExists => Test.pathExists <$> readString path raw

/-! ### Documents -/

/-- Reading with a running count of the nodes seen so far. -/
abbrev Reading (α : Type) := StateT Nat (Except FilterError) α

/-- Counts a node. -/
def visit (path : List Step) (depth : Nat) : Reading Unit := do
  let nodes := (← get) + 1
  set nodes
  if maxNodes < nodes then throw ⟨path, .tooManyNodes nodes⟩
  if maxDepth < depth then throw ⟨path, .tooDeep depth⟩

/-- Reads the operators of a field, leaving out unknown ones. -/
def readOperators (field : FieldPath) (path : List Step) (depth : Nat) :
    List (String × Json) → Reading (List Predicate)
  | [] => pure []
  | (key, raw) :: rest =>
    match Operator.ofKey? key with
    | none => readOperators field path depth rest
    | some operator => do
      let here := path ++ [.member key]
      visit here depth
      let test ← readTest here operator raw
      let others ← readOperators field path depth rest
      pure (.leaf ⟨field, test⟩ :: others)

def readField (name : String) (path : List Step) (depth : Nat) (raw : Json) :
    Reading (List Predicate) :=
  match FieldPath.ofString? name with
  | none => throw ⟨path, .invalidField name⟩
  | some field =>
    match raw with
    | .object operators => readOperators field path (depth + 1) operators
    | .array items => do
      visit path (depth + 1)
      let values ← readList path items
      pure [.leaf ⟨field, .membership false values⟩]
    | scalar => do
      visit path (depth + 1)
      let value ← readScalar path scalar
      pure [.leaf ⟨field, .compare .eq value⟩]

/-- The conjunction of what the members of an object ask for. -/
def conjunction : List Predicate → Option Predicate
  | [] => none
  | [single] => some single
  | several => some (.all several)

/-- Whether a key is left to a later version of the document format. -/
def isReserved (key : String) : Bool := key.toList.head? == some '$'

mutual

def readFilter (path : List Step) (depth : Nat) : Json → Reading (Option Predicate)
  | .object members => do
    visit path depth
    let clauses ← readMembers path depth members
    pure (conjunction clauses)
  | _ => do
    visit path depth
    throw ⟨path, .notAnObject⟩

def readMembers (path : List Step) (depth : Nat) :
    List (String × Json) → Reading (List Predicate)
  | [] => pure []
  | (key, raw) :: rest => do
    let here := path ++ [.member key]
    let clauses ←
      if key = "$and" ∨ key = "$or" then
        let group := if key = "$and" then Predicate.all else Predicate.any
        match raw with
        | .array [] => pure [group []]
        | .array (item :: items) => do
          let children ← readItems here 0 (depth + 1) (item :: items)
          pure (if children.isEmpty then [] else [group children])
        | _ => throw ⟨here, .notAnArray key⟩
      else if key = "$not" then do
        let child ← readFilter here (depth + 1) raw
        pure (child.map Predicate.not).toList
      else if isReserved key then pure []
      else readField key here depth raw
    let others ← readMembers path depth rest
    pure (clauses ++ others)

/-- Reads the filters of a list from a position on, leaving out those that ask for
    nothing. -/
def readItems (path : List Step) (position : Nat) (depth : Nat) :
    List Json → Reading (List Predicate)
  | [] => pure []
  | item :: items => do
    let child ← readFilter (path ++ [.index position]) depth item
    let others ← readItems path (position + 1) depth items
    pure (child.toList ++ others)

end

end Filter

/-- Reads a filter document; nothing if it places no constraint. -/
def Predicate.ofJson (document : Json) : Except FilterError (Option Predicate) :=
  (Filter.readFilter [] 1 document).run' 0

end KnowledgeSearch
