/-
  KnowledgeSearch/Storage/FileSource.lean
  =======================================
  **Databases in files.**

  The name of a data source of the `lite` dialect is a file name with an optional scheme
  in front and parameters behind; `FileSource.ofDsn` reads it.  Parameters may ask for
  less than reading, writing and creating, for a database in memory, for one that nobody
  changes, or for another way to reach files.

  The database takes a file name that begins with `file:` as a name with options of its
  own, unless one of the last two was asked for; `FileTarget.ofSource` applies both
  rules.  Opening then fails if something on the way is not there, which the caller
  tells.
-/
import KnowledgeSearch.Storage.Error
import KnowledgeSearch.Storage.FileLocation
import KnowledgeSearch.Text.Percent
import KnowledgeSearch.Text.Quoted

namespace KnowledgeSearch

/-! ### Names -/

/-- A file that holds a database, or none. -/
structure FileSource where
  file : String
  inMemory : Bool
  readOnly : Bool
  /-- Whether the file may be taken to change never. -/
  immutable : Bool
  /-- The way to reach files, if one is named. -/
  fileSystem : Option String
deriving DecidableEq, Repr

namespace FileSource

/-- Removes a scheme as often as it stands in front. -/
def dropScheme (scheme : List Char) : Nat → List Char → List Char
  | 0, text => text
  | fuel + 1, text =>
    if scheme.isPrefixOf text then dropScheme scheme fuel (text.drop scheme.length) else text

/-- Takes one parameter into account, or says why it cannot. -/
def set (source : FileSource) (key value : String) : Except String FileSource :=
  let unknownValue := .error ("unknown value " ++ Text.quoted value ++ " for `" ++ key ++ "`")
  match key with
  | "mode" =>
    match value with
    | "ro" => .ok { source with readOnly := true }
    | "rw" | "rwc" => .ok source
    | "memory" => .ok { source with inMemory := true }
    | _ => unknownValue
  | "cache" => if value = "private" ∨ value = "shared" then .ok source else unknownValue
  | "immutable" =>
    match value with
    | "true" | "1" => .ok { source with immutable := true }
    | "false" | "0" => .ok { source with immutable := false }
    | _ => unknownValue
  | "vfs" => .ok { source with fileSystem := some value }
  | _ => .error ("unknown query parameter `" ++ key ++ "` while parsing connection URL")

/-- Takes parameters into account in order. -/
def setAll (source : FileSource) : List (String × String) → Except String FileSource
  | [] => .ok source
  | (key, value) :: rest =>
    match source.set key value with
    | .error cause => .error cause
    | .ok source => source.setAll rest

/-- Reads the name of a file source, or says why it is none. -/
def ofDsn (dsn : String) : Except String FileSource :=
  let text := dsn.toList
  let text := dropScheme "sqlite://".toList text.length text
  let text := dropScheme "sqlite:".toList text.length text
  let name := text.takeWhile (· ≠ '?')
  let parameters := Percent.parameters ((text.dropWhile (· ≠ '?')).drop 1)
  if name = ":memory:".toList then setAll ⟨"", true, false, false, none⟩ parameters
  else
    match Percent.decode name with
    | .error fault => .error fault.message
    | .ok file => setAll ⟨file, false, false, false, none⟩ parameters

end FileSource

/-! ### Targets -/

/-- How far a file may be used. -/
inductive FileUse where
  | nothing
  | reading
  | writing
  | creating
deriving DecidableEq, Repr

namespace FileUse

/-- A later use includes the earlier ones. -/
def rank : FileUse → Nat
  | .nothing => 0
  | .reading => 1
  | .writing => 2
  | .creating => 3

end FileUse

/-- What a database is to be opened from. -/
structure FileTarget where
  path : String
  use : FileUse
  inMemory : Bool
  immutable : Bool
  fileSystem : Option String
deriving DecidableEq, Repr

namespace FileTarget

/-- An option of a name that begins with `file:`. -/
def set (target : FileTarget) (key value : String) : Except String FileTarget :=
  let allow := fun (use : FileUse) (inMemory : Bool) =>
    if use.rank ≤ target.use.rank ∨ target.inMemory then .ok { target with use, inMemory }
    else .error ("(code: 3) access mode not allowed: " ++ value)
  match key with
  | "vfs" => .ok { target with fileSystem := some value }
  | "cache" =>
    if value = "shared" ∨ value = "private" then .ok target
    else .error ("(code: 1) no such cache mode: " ++ value)
  | "mode" =>
    match value with
    | "ro" => allow .reading false
    | "rw" => allow .writing false
    | "rwc" => allow .creating false
    | "memory" => allow .nothing true
    | _ => .error ("(code: 1) no such access mode: " ++ value)
  | _ => .ok target

/-- Applies options in order. -/
def setAll (target : FileTarget) : List (String × String) → Except String FileTarget
  | [] => .ok target
  | (key, value) :: rest =>
    match target.set key value with
    | .error cause => .error cause
    | .ok target => target.setAll rest

def upToNull (text : List Char) : List Char := text.takeWhile fun c => c.toNat ≠ 0

/-- A part of a name with options: it ends at a null byte. -/
def optionPart (text : List Char) : String :=
  Utf8.decodeLossy ((Percent.bytes text).takeWhile (· ≠ 0))

/-- The options behind a name, those without a key left aside. -/
def options (text : List Char) : List (String × String) :=
  ((Text.splitAt '&' text).map fun part =>
    (optionPart (part.takeWhile (· ≠ '=')), optionPart ((part.dropWhile (· ≠ '=')).drop 1))).filter
      fun (key, _) => key ≠ ""

/-- Whether the value of an option says yes.  A number says so unless it is 0. -/
def saysYes (value : String) : Bool :=
  let digits := value.toList.takeWhile Char.isDigit
  if digits.isEmpty then ["on", "yes", "true"].contains value.toLower
  else digits.any (· ≠ '0')

/-- Applies what stands behind `file:` in a name. -/
def ofOptions (target : FileTarget) (text : List Char) : Except String FileTarget :=
  let (authority, text) := match text with
    | '/' :: '/' :: rest => (rest.takeWhile (· ≠ '/'), rest.dropWhile (· ≠ '/'))
    | _ => ([], text)
  if !authority.isEmpty && authority ≠ "localhost".toList then
    .error ("(code: 1) invalid uri authority: " ++ String.ofList authority)
  else
    let text := text.takeWhile (· ≠ '#')
    let options := options ((text.dropWhile (· ≠ '?')).drop 1)
    setAll
      { target with
        path := optionPart (text.takeWhile (· ≠ '?'))
        immutable := ((options.lookup "immutable").map saysYes).getD false }
      options

/-- What a source stands for, or why it cannot be opened.  A file that is to be reached
    in a certain way or never to be changed goes by its plain name. -/
def ofSource (source : FileSource) : Except OpenCause FileTarget :=
  let text := source.file.toList
  let target : FileTarget :=
    ⟨String.ofList (upToNull text), if source.readOnly then .reading else .creating,
      source.inMemory, source.immutable,
      source.fileSystem.map fun name => String.ofList (upToNull name.toList)⟩
  if source.immutable || source.fileSystem.isSome then .ok target
  else if upToNull text ≠ text then
    .error (.communication "filename passed to SQLite must not contain nul bytes")
  else
    match text with
    | 'f' :: 'i' :: 'l' :: 'e' :: ':' :: rest => (target.ofOptions rest).mapError .database
    | _ => .ok target

/-- Whether the database is kept in no file. -/
def isTransient (target : FileTarget) : Bool :=
  target.inMemory || target.path = "" || target.path = ":memory:" ||
    target.fileSystem = some "memdb"

/-- Whether the database refuses changes. -/
def isReadOnly (target : FileTarget) : Bool := target.use = .reading || target.immutable

/-- The ways to reach files that a database knows by name. -/
def fileSystems : List String :=
  ["unix", "unix-dotfile", "unix-excl", "unix-none", "memdb"]

def fault? (directoryExists fileExists : FileLocation → Bool) (target : FileTarget) :
    Option OpenCause :=
  let missing := some (.database "(code: 14) unable to open database file")
  let place := FileLocation.ofString target.path
  match target.fileSystem.filter fun name => !fileSystems.contains name with
  | some name => some (.database s!"(code: 1) no such vfs: {name}")
  | none =>
    if target.isTransient then none
    else if place = .root || !place.hasShortNames then missing
    else if directoryExists place then
      if target.use = .reading then some (.database "(code: 266) disk I/O error") else missing
    else if fileExists place then none
    else if target.use = .creating && directoryExists place.parent then none
    else missing

end FileTarget

end KnowledgeSearch
