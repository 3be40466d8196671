/-
  KnowledgeSearch/Storage/Host.lean
  =================================
  **Hosts of a URL.**

  A host is a name or an address.  An address of six parts and more stands in brackets.
  Where a URL has one of the common schemes, a name must be one of the domain system, and
  a name whose last part is a number is an address of four parts, of which the last ones
  may be written together and each in base 8, 10 or 16.  Other URLs leave names as they
  are, as long as no character in them could end the host.
-/
import KnowledgeSearch.Numeric.Decimal
import KnowledgeSearch.Text.Percent

namespace KnowledgeSearch

inductive UrlFault where
  | relative
  | emptyHost
  | portNumber
  | fourPartAddress
  | longAddress
  | internationalName
  | nameCharacter
deriving DecidableEq, Repr

def UrlFault.message : UrlFault → String
  | .relative => "relative URL without a base"
  | .emptyHost => "empty host"
  | .portNumber => "invalid port number"
  | .fourPartAddress => "invalid IPv4 address"
  | .longAddress => "invalid IPv6 address"
  | .internationalName => "invalid international domain name"
  | .nameCharacter => "invalid domain character"

namespace Host

/-! ### Addresses -/

/-- Whether a text is a number below 256 without needless zeros. -/
def isByte (text : List Char) : Bool :=
  !text.isEmpty && text.length ≤ 3 && text.all Char.isDigit && Decimal.digitsValue text < 256 &&
    (text.length = 1 || text.head? != some '0')

/-- Whether a text is an address of four parts in its usual form. -/
def isFourPart (text : List Char) : Bool :=
  let parts := Text.splitAt '.' text
  parts.length = 4 && parts.all isByte

/-- Whether a text is a group of an address of eight groups. -/
def isGroup (text : List Char) : Bool :=
  !text.isEmpty && text.length ≤ 4 && text.all fun c => (Json.hexDigit? c).isSome

/-- The number of groups that some parts stand for; an address of four parts at the end
    stands for two. -/
def groupCount? : List (List Char) → Option Nat
  | [] => some 0
  | [last] => if isGroup last then some 1 else if isFourPart last then some 2 else none
  | part :: parts => if isGroup part then (groupCount? parts).map (· + 1) else none

/-- The groups of a text, none if it is empty. -/
def groups (text : List Char) : List (List Char) :=
  if text.isEmpty then [] else Text.splitAt ':' text

/-- Splits a text at the first pair of colons. -/
def splitAtGap : List Char → Option (List Char × List Char)
  | ':' :: ':' :: rest => some ([], rest)
  | c :: rest => (splitAtGap rest).map fun (before, after) => (c :: before, after)
  | [] => none

/-- Whether a text is an address of eight groups.  A pair of colons stands for the groups
    that are missing, of which there is at least one. -/
def isEightGroup (text : List Char) : Bool :=
  match splitAtGap text with
  | none => groupCount? (groups text) = some 8
  | some (before, after) =>
    match (groups before).all isGroup, groupCount? (groups after) with
    | true, some count => (groups before).length + count ≤ 7
    | _, _ => false

def isAddress (text : List Char) : Bool := isFourPart text || isEightGroup text

/-! ### Addresses among names -/

/-- The number that a part of a name stands for, in base 16 or 8 if it is marked so; none
    if it is no number. -/
def partNumber? (text : List Char) : Option Nat :=
  let digits := fun (base : Nat) (text : List Char) =>
    (text.mapM fun c => (Json.hexDigit? c).filter (· < base)).map fun values =>
      values.foldl (fun n d => base * n + d) 0
  match text with
  | [] => none
  | '0' :: 'x' :: rest | '0' :: 'X' :: rest => digits 16 rest
  | '0' :: c :: rest => digits 8 (c :: rest)
  | text => digits 10 text

/-- The parts of a name, without an empty last one. -/
def nameParts (name : List Char) : List (List Char) :=
  let parts := Text.splitAt '.' name
  if parts.getLast? = some [] then parts.dropLast else parts

/-- Whether a name ends in a number, so that it has to be an address. -/
def endsInNumber (name : List Char) : Bool :=
  match (nameParts name).getLast? with
  | none => false
  | some last => (!last.isEmpty && last.all Char.isDigit) || (partNumber? last).isSome

/-- Whether a name is an address; its last part may stand for several. -/
def isNumericName (name : List Char) : Bool :=
  let parts := nameParts name
  match parts.mapM partNumber? with
  | none => false
  | some numbers =>
    match numbers.getLast? with
    | none => false
    | some last =>
      parts.length ≤ 4 && numbers.dropLast.all (· < 256) &&
        last < Nat.pow 256 (5 - parts.length)

/-! ### Names -/

/-- Whether a character could end a host, or is blank. -/
def isForbidden (c : Char) : Bool :=
  c.toNat = 0 || ['\t', '\n', '\r', ' ', '#', '/', ':', '<', '>', '?', '@', '[', '\\', ']',
    '^', '|'].contains c

/-- Whether a character cannot stand in a name of the domain system. -/
def isForbiddenInDomain (c : Char) : Bool :=
  c.toNat ≤ 32 || c.toNat = 127 || c = '%' || isForbidden c

/-- What is wrong with an address in brackets. -/
def bracketFault? (text : List Char) : Option UrlFault :=
  if text.getLast? = some ']' && isEightGroup (text.drop 1).dropLast then none
  else some .longAddress

/-- What is wrong with a host of a URL without a common scheme. -/
def plainFault? (text : List Char) : Option UrlFault :=
  if text.head? = some '[' then bracketFault? text
  else if text.any isForbidden then some .nameCharacter
  else none

/-- What is wrong with a host of a URL with a common scheme. -/
def domainFault? (text : List Char) : Option UrlFault :=
  if text.head? = some '[' then bracketFault? text
  else
    match Percent.decode text with
    | .error _ => some .internationalName
    | .ok name =>
      let name := name.toList
      if name.any isForbiddenInDomain then some .internationalName
      else if name.isEmpty then some .emptyHost
      else if endsInNumber name && !isNumericName name then some .fourPartAddress
      else none

end Host

end KnowledgeSearch
