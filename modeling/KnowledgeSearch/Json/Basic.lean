/-
  KnowledgeSearch/Json/Basic.lean
  ===============================
  **JSON values.**

  Filters, requests, rows and reports are JSON values.  A number is either an
  integer of at most 64 bits or a finite double precision number, and the two are
  told apart (`1` and `1.0` are different values).  The members of an object are
  kept in the order of their keys, each key once; `Json.ofMembers` brings any list
  of members into that form.
-/
import KnowledgeSearch.Keyed
import KnowledgeSearch.Numeric.Decimal

namespace KnowledgeSearch

/-! ### Numbers -/

inductive Number where
  | int (value : Int) (fits : -0x8000000000000000 ≤ value ∧ value < 0x10000000000000000)
  | float (value : Double) (finite : value.isFinite = true)
deriving DecidableEq

namespace Number

/-- The number as a signed 64-bit integer, if it is an integer in that range. -/
def toInt64? : Number → Option Int64
  | .int n _ => if n < 0x8000000000000000 then some (Int64.ofInt n) else none
  | .float .. => none

/-- The number as a natural number, if it is an integer that is not negative. -/
def toNat? : Number → Option Nat
  | .int n _ => if 0 ≤ n then some n.toNat else none
  | .float .. => none

def toDouble : Number → Double
  | .int n _ => Binary.ofInt n
  | .float x _ => x

end Number

/-! ### Values -/

inductive Json where
  | null
  | bool (value : Bool)
  | number (value : Number)
  | string (value : String)
  | array (items : List Json)
  | object (members : List (String × Json))

abbrev Members := Keyed Json

namespace Json

instance : Inhabited Json := ⟨.null⟩

def ofMembers (members : List (String × Json)) : Json := .object (Keyed.ofList members)

/-- An integer; beyond 64 bits it is taken as the nearest double. -/
def ofInt (n : Int) : Json :=
  if h : -0x8000000000000000 ≤ n ∧ n < 0x10000000000000000 then .number (.int n h)
  else
    let x : Double := Binary.ofInt n
    if h : x.isFinite = true then .number (.float x h) else .null

def ofNat (n : Nat) : Json := ofInt n

/-- A double; numbers that JSON does not have become `null`. -/
def ofDouble (x : Double) : Json :=
  if h : x.isFinite = true then .number (.float x h) else .null

/-- A single precision number, with its value unchanged. -/
def ofSingle (x : Single) : Json := ofDouble x.toDouble

/-- The value of a member, if this is an object that has it. -/
def member? (key : String) : Json → Option Json
  | .object members => Keyed.get? members key
  | _ => none

/-- As `member?`, with an explicit null counted as absent. -/
def present? (key : String) (value : Json) : Option Json :=
  match value.member? key with
  | some .null => none
  | other => other

def toString? : Json → Option String
  | .string text => some text
  | _ => none

def toList? : Json → Option (List Json)
  | .array items => some items
  | _ => none

def toNumber? : Json → Option Number
  | .number n => some n
  | _ => none

def toBool? : Json → Option Bool
  | .bool b => some b
  | _ => none

def isNull : Json → Bool
  | .null => true
  | _ => false

end Json

end KnowledgeSearch
