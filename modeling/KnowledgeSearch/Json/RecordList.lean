/-
  KnowledgeSearch/Json/RecordList.lean
  ====================================
  **Lists of records in a text.**

  A text that holds a list of records is read for their fields only.  No field may be
  given twice.  What stands under a key that the records do not have is skipped: it has
  to have the form of a value, but its numbers may be of any size, its escapes need not
  denote characters, and it may be nested to any depth.  A record that is written as an
  array is read as it stands.
-/
import KnowledgeSearch.Json.Parser

namespace KnowledgeSearch.Json

/-! ### Skipping values -/

/-- Skips a string up to its closing quotation mark. -/
def skipString? : List Char → Option (List Char)
  | [] => none
  | '"' :: rest => some rest
  | '\\' :: 'u' :: a :: b :: c :: d :: rest =>
    if (hexQuad? a b c d).isSome then skipString? rest else none
  | '\\' :: c :: rest => if (letterEscape? c).isSome then skipString? rest else none
  | c :: rest => if c.toNat < 32 ∨ c = '\\' then none else skipString? rest

def skipNumber? : List Char → Option (List Char)
  | '-' :: text => (readParts? text).map Prod.snd
  | text => (readParts? text).map Prod.snd

/-- A container that is open while a value in it is skipped. -/
inductive Container where
  | array
  | object
deriving DecidableEq, Repr

mutual

/-- Skips a value and the rest of the containers that are open around it, the innermost
    first.  Every step but the last takes a character, of which the fuel is the number. -/
def skipValue? : Nat → List Container → List Char → Option (List Char)
  | 0, _, _ => none
  | fuel + 1, around, text =>
    match skipBlanks text with
    | 'n' :: 'u' :: 'l' :: 'l' :: rest => skipAround? fuel around rest
    | 't' :: 'r' :: 'u' :: 'e' :: rest => skipAround? fuel around rest
    | 'f' :: 'a' :: 'l' :: 's' :: 'e' :: rest => skipAround? fuel around rest
    | '"' :: rest =>
      match skipString? rest with
      | some rest => skipAround? fuel around rest
      | none => none
    | '[' :: rest =>
      match skipBlanks rest with
      | ']' :: rest => skipAround? fuel around rest
      | rest => skipValue? fuel (.array :: around) rest
    | '{' :: rest =>
      match skipBlanks rest with
      | '}' :: rest => skipAround? fuel around rest
      | rest => skipMember? fuel (.object :: around) rest
    | rest =>
      match skipNumber? rest with
      | some rest => skipAround? fuel around rest
      | none => none

/-- Skips a member of the innermost open container, and the rest. -/
def skipMember? : Nat → List Container → List Char → Option (List Char)
  | 0, _, _ => none
  | fuel + 1, around, text =>
    match skipBlanks text with
    | '"' :: rest =>
      match (skipString? rest).map skipBlanks with
      | some (':' :: rest) => skipValue? fuel around rest
      | _ => none
    | _ => none

/-- Skips the rest of the open containers behind a value. -/
def skipAround? : Nat → List Container → List Char → Option (List Char)
  | _, [], text => some text
  | 0, _ :: _, _ => none
  | fuel + 1, container :: around, text =>
    match container, skipBlanks text with
    | .array, ',' :: rest => skipValue? fuel (.array :: around) rest
    | .object, ',' :: rest => skipMember? fuel (.object :: around) rest
    | .array, ']' :: rest => skipAround? fuel around rest
    | .object, '}' :: rest => skipAround? fuel around rest
    | _, _ => none

end

/-! ### Records -/

/-- Reads the members of a record from a key on; `done` holds the fields so far. -/
def readFields? (fields : List String) :
    Nat → List (String × Json) → List Char → Option (Json × List Char)
  | 0, _, _ => none
  | fuel + 1, done, text =>
    match skipBlanks text with
    | '"' :: rest => do
      let (key, rest) ← readString? [] rest
      let rest ← match skipBlanks rest with
        | ':' :: rest => some rest
        | _ => none
      let steps := 2 * rest.length + 1
      let (done, rest) ←
        if !fields.contains key then (skipValue? steps [] rest).map fun rest => (done, rest)
        else if done.any fun (other, _) => other = key then none
        else
          (readValue? steps (maxNesting - 2) rest).map fun (value, rest) =>
            ((key, value) :: done, rest)
      match skipBlanks rest with
      | '}' :: rest => some (ofMembers done, rest)
      | ',' :: rest => readFields? fields fuel done rest
      | _ => none
    | _ => none

def readRecord? (fields : List String) (text : List Char) : Option (Json × List Char) :=
  match skipBlanks text with
  | '{' :: rest =>
    match skipBlanks rest with
    | '}' :: rest => some (.object [], rest)
    | rest => readFields? fields (rest.length + 1) [] rest
  | '[' :: rest => readValue? (2 * rest.length + 3) (maxNesting - 1) ('[' :: rest)
  | _ => none

/-- Reads records from the first of them on; `done` holds the records so far, last
    first. -/
def readRecords? (fields : List String) :
    Nat → List Json → List Char → Option (List Json × List Char)
  | 0, _, _ => none
  | fuel + 1, done, text => do
    let (record, rest) ← readRecord? fields text
    match skipBlanks rest with
    | ']' :: rest => some ((record :: done).reverse, rest)
    | ',' :: rest => readRecords? fields fuel (record :: done) rest
    | _ => none

/-- The records that a text lists, as objects of their fields or as arrays. -/
def recordsOfString? (fields : List String) (text : String) : Option (List Json) := do
  let (records, rest) ← match skipBlanks text.toList with
    | '[' :: rest =>
      match skipBlanks rest with
      | ']' :: rest => some ([], rest)
      | rest => readRecords? fields (rest.length + 1) [] rest
    | _ => none
  if (skipBlanks rest).isEmpty then some records else none

end KnowledgeSearch.Json
