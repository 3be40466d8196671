/-
  KnowledgeSearch/Storage/Url.lean
  ================================
  **URLs of servers.**

  `Url.ofString` takes a URL apart.  Blanks around it and line breaks and tabs anywhere
  do not count.  What follows the scheme is an authority (a user, a host and a number), a
  path and parameters; a fragment at the end is left out.  The parts stay as they are
  written, with what they encode by percent signs.

  The common schemes of the web, and that of files, have rules of their own: they need no
  two slashes before the authority, take a backslash for a slash, and check the host.
-/
import KnowledgeSearch.Storage.Host

namespace KnowledgeSearch

structure Url where
  host : List Char
  username : List Char
  password : List Char
  portNumber : Option Nat
  path : List Char
  parameters : List (String × String)
deriving DecidableEq

namespace Url

/-! ### Schemes -/

inductive SchemeKind where
  | web
  | file
  | plain
deriving DecidableEq, Repr

/-- The rules of a scheme, which is written in any case. -/
def SchemeKind.ofScheme (scheme : List Char) : SchemeKind :=
  let name := String.ofList (scheme.map Char.toLower)
  if ["http", "https", "ws", "wss", "ftp"].contains name then .web
  else if name = "file" then .file
  else .plain

namespace SchemeKind

/-- Whether a character separates parts of a path. -/
def isSlash (kind : SchemeKind) (c : Char) : Bool := c = '/' || (kind != .plain && c = '\\')

def endsAuthority (kind : SchemeKind) (c : Char) : Bool :=
  kind.isSlash c || c = '?' || c = '#'

end SchemeKind

/-! ### Paths and parameters -/

/-- Whether a character begins what follows a path. -/
def endsPath (c : Char) : Bool := c = '?' || c = '#'

/-- A step of a path in which dots are not encoded. -/
def plainDots : List Char → List Char
  | '%' :: '2' :: c :: rest =>
    if c = 'e' ∨ c = 'E' then '.' :: plainDots rest else '%' :: '2' :: plainDots (c :: rest)
  | c :: rest => c :: plainDots rest
  | [] => []

/-- Follows the steps of a path, some of which lead nowhere or back; `done` holds the steps
    so far, last first. -/
def followSteps (done : List (List Char)) : List (List Char) → List (List Char)
  | [] => done.reverse
  | step :: steps =>
    let dots := plainDots step
    let last : List (List Char) := if steps.isEmpty then [[]] else []
    if dots = ['.'] then followSteps (last ++ done) steps
    else if dots = ['.', '.'] then followSteps (last ++ done.drop 1) steps
    else followSteps (step :: done) steps

/-- The path at the beginning of a text, without its first slash. -/
def readPath (kind : SchemeKind) (text : List Char) : List Char :=
  let path := (text.takeWhile fun c => !endsPath c).map fun c => if kind.isSlash c then '/' else c
  let path := if path.head? = some '/' then path.drop 1 else path
  List.intercalate ['/'] (followSteps [] (Text.splitAt '/' path))

def readParameters (text : List Char) : List (String × String) :=
  match text.dropWhile fun c => !endsPath c with
  | '?' :: rest => Percent.parameters (rest.takeWhile (· ≠ '#'))
  | _ => []

def withPath (kind : SchemeKind) (url : Url) (text : List Char) : Url :=
  { url with path := readPath kind text, parameters := readParameters text }

def empty : Url := ⟨[], [], [], none, [], []⟩

/-! ### Authorities -/

/-- Splits off a user with a password, which ends at the last `@` of the authority. -/
def readUser (kind : SchemeKind) (text : List Char) :
    Except UrlFault (List Char × List Char × List Char) :=
  let authority := text.takeWhile fun c => !kind.endsAuthority c
  let upToSign := (authority.reverse.dropWhile (· ≠ '@')).reverse
  let rest := text.drop upToSign.length
  let user := upToSign.dropLast
  if upToSign.length = 1 && (rest.head?.map kind.endsAuthority).getD false then
    .error .emptyHost
  else .ok (user.takeWhile (· ≠ ':'), (user.dropWhile (· ≠ ':')).drop 1, rest)

/-- Splits off a host, which ends at a colon outside brackets or with the authority. -/
def splitHost (kind : SchemeKind) (inBrackets : Bool) : List Char → List Char × List Char
  | [] => ([], [])
  | c :: rest =>
    if (c = ':' && !inBrackets) || kind.endsAuthority c then ([], c :: rest)
    else
      let (host, rest) := splitHost kind (c = '[' || (inBrackets && c ≠ ']')) rest
      (c :: host, rest)

/-- What is wrong with a host, given whether a user stands before it and what follows. -/
def hostFault? (kind : SchemeKind) (hasUser : Bool) (host rest : List Char) :
    Option UrlFault :=
  if kind = .web && host.isEmpty then some .emptyHost
  else
    match if kind = .web then Host.domainFault? host else Host.plainFault? host with
    | some fault => some fault
    | none =>
      if host.isEmpty && (hasUser || rest.head? = some ':') then some .emptyHost else none

/-- Reads the number behind a host, if there is one. -/
def readPortNumber : List Char → Except UrlFault (Option Nat × List Char)
  | ':' :: rest =>
    let (digits, rest) := Decimal.takeDigits rest
    let endsWell := match rest with
      | [] => true
      | c :: _ => c = '/' || c = '\\' || endsPath c
    let number := Decimal.digitsValue digits
    if endsWell && number < 65536 then
      .ok (if digits.isEmpty then none else some number, rest)
    else .error .portNumber
  | rest => .ok (none, rest)

def ofAuthority (kind : SchemeKind) (text : List Char) : Except UrlFault Url := do
  let (username, password, rest) ← readUser kind text
  let (host, rest) := splitHost kind false rest
  let hasUser := !username.isEmpty || !password.isEmpty
  match hostFault? kind hasUser host rest with
  | some fault => throw fault
  | none =>
    let (portNumber, rest) ← readPortNumber rest
    pure (withPath kind { empty with host, username, password, portNumber } rest)

/-- Whether a text is the letter of a drive with its mark. -/
def isDrive : List Char → Bool
  | [letter, mark] => letter.isAlpha && (mark = ':' || mark = '|')
  | _ => false

/-- Reads a URL of a file from the host on. -/
def ofFileHost (text : List Char) : Except UrlFault Url :=
  let host := text.takeWhile fun c => !SchemeKind.file.endsAuthority c
  let rest := text.drop host.length
  if isDrive host then .ok (withPath .file empty text)
  else if host.isEmpty then .ok (withPath .file empty rest)
  else
    match Host.domainFault? host with
    | some fault => .error fault
    | none => .ok (withPath .file { empty with host } rest)

/-! ### URLs -/

def ofRest (kind : SchemeKind) (text : List Char) : Except UrlFault Url :=
  match kind with
  | .web => ofAuthority .web (text.dropWhile SchemeKind.web.isSlash)
  | .file =>
    match text with
    | a :: b :: rest =>
      if SchemeKind.file.isSlash a && SchemeKind.file.isSlash b then ofFileHost rest
      else .ok (withPath .file empty text)
    | _ => .ok (withPath .file empty text)
  | .plain =>
    match text with
    | '/' :: '/' :: rest => ofAuthority .plain rest
    | '/' :: _ => .ok (withPath .plain empty text)
    | _ =>
      .ok { empty with
        path := text.takeWhile fun c => !endsPath c
        parameters := readParameters text }

def ofString (text : String) : Except UrlFault Url :=
  let isEdge := fun (c : Char) => decide (c.toNat ≤ 32)
  let text := ((text.toList.dropWhile isEdge).reverse.dropWhile isEdge).reverse
  let text := text.filter fun c => c != '\t' && c != '\n' && c != '\r'
  let isSchemePart := fun (c : Char) => c.isAlphanum || c = '+' || c = '-' || c = '.'
  match (text.head?.map Char.isAlpha).getD false, text.dropWhile isSchemePart with
  | true, ':' :: rest => ofRest (.ofScheme (text.takeWhile isSchemePart)) rest
  | _, _ => .error .relative

end Url

end KnowledgeSearch
