/-
  KnowledgeSearch/Json/Report.lean
  ================================
  **Reports.**

  What the library tells its callers is a report: JSON whose records keep the order
  in which their fields are declared and whose single precision numbers are not
  widened.  As a value, `Report.toJson`, a report is ordinary JSON; as a text,
  `Report.pretty`, it is laid out over lines with two spaces for each level, and a
  single precision number has its own fewest digits.
-/
import KnowledgeSearch.Json.Printer

namespace KnowledgeSearch

/-- JSON with records in declared order and single precision numbers. -/
inductive Report where
  /-- A JSON value; only null, booleans, numbers and strings are put here. -/
  | atom (value : Json)
  | single (value : Single)
  | list (items : List Report)
  | record (fields : List (String × Report))

namespace Report

/-! ### Building -/

def text (value : String) : Report := .atom (.string value)

def natural (value : Nat) : Report := .atom (.ofNat value)

def texts (values : List String) : Report := .list (values.map text)

mutual

def ofJson : Json → Report
  | .array items => .list (ofItems items)
  | .object members => .record (ofMembers members)
  | value => .atom value

def ofItems : List Json → List Report
  | [] => []
  | item :: items => ofJson item :: ofItems items

def ofMembers : List (String × Json) → List (String × Report)
  | [] => []
  | (key, value) :: members => (key, ofJson value) :: ofMembers members

end

/-- The report of a number that may be missing. -/
def ofSingle? : Option Single → Report
  | some x => .single x
  | none => .atom .null

/-! ### As a value -/

mutual

/-- The report as a JSON value; a number that JSON does not have becomes null. -/
def toJson : Report → Json
  | .atom value => value
  | .single x => .ofSingle x
  | .list items => .array (itemsToJson items)
  | .record fields => .ofMembers (fieldsToJson fields)

def itemsToJson : List Report → List Json
  | [] => []
  | item :: items => item.toJson :: itemsToJson items

def fieldsToJson : List (String × Report) → List (String × Json)
  | [] => []
  | (key, value) :: fields => (key, value.toJson) :: fieldsToJson fields

end

/-! ### As a text -/

/-- A line break and the indentation of a level. -/
def newline (level : Nat) : List Char := '\n' :: List.replicate (2 * level) ' '

mutual

def toChars (level : Nat) : Report → List Char
  | .atom value => value.toChars
  | .single x => if x.isFinite then (jsonStyle.format x).toList else "null".toList
  | .list [] => "[]".toList
  | .list (item :: items) =>
    '[' :: (newline (level + 1) ++ item.toChars (level + 1) ++ itemsToChars level items)
  | .record [] => "\x7b\x7d".toList
  | .record ((key, value) :: fields) =>
    '{' :: (newline (level + 1) ++ Json.quote key ++ ':' :: ' ' ::
      (value.toChars (level + 1) ++ fieldsToChars level fields))

/-- The rest of a list after its first item. -/
def itemsToChars (level : Nat) : List Report → List Char
  | [] => newline level ++ [']']
  | item :: items =>
    ',' :: (newline (level + 1) ++ item.toChars (level + 1) ++ itemsToChars level items)

/-- The rest of a record after its first field. -/
def fieldsToChars (level : Nat) : List (String × Report) → List Char
  | [] => newline level ++ ['}']
  | (key, value) :: fields =>
    ',' :: (newline (level + 1) ++ Json.quote key ++ ':' :: ' ' ::
      (value.toChars (level + 1) ++ fieldsToChars level fields))

end

/-- The text of a report, laid out over lines. -/
def pretty (report : Report) : String := String.ofList (report.toChars 0)

end Report

end KnowledgeSearch
