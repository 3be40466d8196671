/-
  KnowledgeSearch/Storage/ServerSource.lean
  =========================================
  **Databases on servers.**

  A data source of the `postgres` dialect is named by a URL.  Its user, its path and a
  host that names a socket have to stand for texts, and some of its parameters for values
  of certain kinds; parameters that nobody knows are left aside.  `ServerSource.ofDsn`
  tells the first thing that is wrong, or how the server is reached.
-/
import KnowledgeSearch.Storage.Error
import KnowledgeSearch.Storage.Url
import KnowledgeSearch.Text.Quoted

namespace KnowledgeSearch.ServerSource

/-! ### Values of parameters -/

/-- What keeps digits from being a count below a bound; `count` is what has been read. -/
def digitsFault? (bound count : Nat) : List Char → Option String
  | [] => none
  | c :: rest =>
    if !c.isDigit then some "invalid digit found in string"
    else
      let count := 10 * count + Decimal.digitsValue [c]
      if bound ≤ count then some "number too large to fit in target type"
      else digitsFault? bound count rest

/-- What keeps a text from being a count below a bound. -/
def countFault? (bound : Nat) (text : String) : Option String :=
  match text.toList with
  | [] => some "cannot parse integer from empty string"
  | '+' :: c :: rest => digitsFault? bound 0 (c :: rest)
  | digits => digitsFault? bound 0 digits

/-- The ways to secure a connection. -/
def securityModes : List String :=
  ["disable", "allow", "prefer", "require", "verify-ca", "verify-full"]

def parameterFault? (key value : String) : Option String :=
  match key with
  | "sslmode" | "ssl-mode" =>
    if securityModes.contains value.toLower then none
    else
      some <| (OpenCause.configuration
        ("unknown value " ++ Text.quoted value ++ " for `ssl_mode`")).message
  | "statement-cache-capacity" => countFault? UInt64.size value
  | "port" => countFault? UInt16.size value
  | "hostaddr" =>
    if Host.isAddress value.toList then none else some "invalid IP address syntax"
  | _ => none

/-! ### URLs -/

/-- What keeps a part of a URL from standing for a text. -/
def textFault? (part : List Char) : Option String :=
  match Percent.decode part with
  | .ok _ => none
  | .error fault => some fault.message

def isSocket (host : List Char) : Bool := (Percent.bytes host).head? = some 0x2F

def urlFault? (url : Url) : Option String :=
  let socket := if isSocket url.host then url.host else []
  let database := url.path.dropWhile (· = '/')
  ([socket, url.username, url.password, database].findSome? textFault?) <|>
    url.parameters.findSome? fun (key, value) => parameterFault? key value

/-! ### Sockets -/

/-- The number that servers listen on if nobody says otherwise. -/
def usualPortNumber : Nat := 5432

/-- The number that a server listens on; parameters come after the URL, the last one
    counting. -/
def portNumber (url : Url) : Nat :=
  let ofParameters := url.parameters.filterMap fun (key, value) =>
    if key = "port" then some (Decimal.digitsValue (value.toList.filter Char.isDigit)) else none
  (ofParameters.getLast? <|> url.portNumber).getD usualPortNumber

/-- The directory of the socket that reaches a server, if one is named. -/
def socketDirectory? (url : Url) : Option String :=
  let ofHost := if isSocket url.host then (Percent.decode url.host).toOption else none
  let ofParameters := url.parameters.filterMap fun (key, value) =>
    if key = "host" ∧ value.startsWith "/" then some value else none
  ofParameters.getLast? <|> ofHost

/-! ### Servers -/

inductive Route where
  | socket (path : String)
  | network
deriving DecidableEq, Repr

def Route.ofUrl (url : Url) : Route :=
  match socketDirectory? url with
  | some directory => .socket (directory ++ "/.s.PGSQL." ++ toString (portNumber url))
  | none => .network

/-- The way to the server that a text names, or why it names none. -/
def ofDsn (dsn : String) : Except String Route :=
  match Url.ofString dsn with
  | .error fault => .error fault.message
  | .ok url =>
    match urlFault? url with
    | some cause => .error cause
    | none => .ok (.ofUrl url)

/-- The bytes that the path of a socket must stay below. -/
def maxSocketBytes : Nat := 108

/-- Why a server that does not answer cannot be reached.  A network is waited for. -/
def Route.fault : Route → OpenCause
  | .network => .timedOut
  | .socket path =>
    if path.toList.any fun c => c.toNat = 0 then
      .communication "paths must not contain interior null bytes"
    else if path.utf8ByteSize ≥ maxSocketBytes then
      .communication "path must be shorter than SUN_LEN"
    else .communication "No such file or directory (os error 2)"

end KnowledgeSearch.ServerSource
