/-
  KnowledgeSearch/Json/Record.lean
  ================================
  **Records in JSON.**

  A record is an object with the record's fields as members; members that it does not
  know are left alone.  It may also be an array of the fields in their order, from
  which the last ones may be missing if they can be missing at all, and which holds
  nothing beyond them.
-/
import KnowledgeSearch.Json.Basic

namespace KnowledgeSearch

def Number.toSingle : Number → Single
  | .int n _ => Binary.ofInt n
  | .float x _ => x.toSingle

namespace Json

/-! ### Plain fields -/

def toCount? (bound : Nat) (value : Json) : Option Nat :=
  match value.toNumber?.bind Number.toNat? with
  | some n => if n < bound then some n else none
  | none => none

def toUInt32? (value : Json) : Option UInt32 := (value.toCount? UInt32.size).map UInt32.ofNat

def toUInt64? (value : Json) : Option UInt64 := (value.toCount? UInt64.size).map UInt64.ofNat

def toInt64? (value : Json) : Option Int64 := value.toNumber?.bind Number.toInt64?

def toSingle? (value : Json) : Option Single := value.toNumber?.map Number.toSingle

def toListOf? {α : Type} (item? : Json → Option α) : Json → Option (List α)
  | .array items => items.mapM item?
  | _ => none

/-- One of several names, alone or as the only key of an object with nothing under
    it. -/
def toName? : Json → Option String
  | .string text => some text
  | .object [(key, .null)] => some key
  | _ => none

def toChoice? {α : Type} (name : α → String) (choices : List α) (value : Json) : Option α :=
  value.toName?.bind fun text => choices.find? fun choice => name choice = text

/-! ### Records -/

def toRecord? (fields : List String) : Json → Option Members
  | .object members => some members
  | .array items => if items.length ≤ fields.length then some (fields.zip items) else none
  | _ => none

end Json

namespace Members

variable {α : Type}

/-- A field that must be there. -/
def required? (members : Members) (read? : Json → Option α) (key : String) : Option α :=
  (Keyed.get? members key).bind read?

def withDefault? (members : Members) (read? : Json → Option α) (default : α) (key : String) :
    Option α :=
  match Keyed.get? members key with
  | none => some default
  | some value => read? value

/-- A field that may be missing or null. -/
def optional? (members : Members) (read? : Json → Option α) (key : String) :
    Option (Option α) :=
  match Keyed.get? members key with
  | none => some none
  | some .null => some none
  | some value => (read? value).map some

end Members

end KnowledgeSearch
