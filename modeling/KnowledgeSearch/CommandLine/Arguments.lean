/-
  KnowledgeSearch/CommandLine/Arguments.lean
  ==========================================
  **Reading arguments.**

  An option is written `--name value` or `--name=value`, and one with a letter also
  `-n value`, `-nvalue` or `-n=value`; a value on its own may not look like an option.
  Arguments are read from left to right.  An option waits for its value, and what it
  makes of the value is found out when the next option is reached or the arguments
  end; so of two faults the one further left is reported, except that an argument
  which is no option and no value is reported at once.
-/
namespace KnowledgeSearch.CommandLine

/-! ### Faults -/

inductive HelpTopic where
  | program
  | command (name : String)
  /-- Help itself. -/
  | help
deriving DecidableEq, Repr

/-- Why arguments do not name a command, including the wishes for help and for the
    version. -/
inductive ArgumentFault where
  | displayHelp (topic : HelpTopic)
  | displayVersion
  | nothingGiven
  | missingSubcommand
  | invalidSubcommand
  | missingRequiredArgument
  | unknownArgument
  /-- An option that takes one value is given twice. -/
  | argumentConflict
  /-- A value that does not parse. -/
  | valueValidation
  /-- A value that is missing or not one of those that are allowed. -/
  | invalidValue
  /-- A value for an option that takes none. -/
  | tooManyValues
deriving DecidableEq, Repr

namespace ArgumentFault

def name : ArgumentFault → String
  | .displayHelp _ => "DisplayHelp"
  | .displayVersion => "DisplayVersion"
  | .nothingGiven => "DisplayHelpOnMissingArgumentOrSubcommand"
  | .missingSubcommand => "MissingSubcommand"
  | .invalidSubcommand => "InvalidSubcommand"
  | .missingRequiredArgument => "MissingRequiredArgument"
  | .unknownArgument => "UnknownArgument"
  | .argumentConflict => "ArgumentConflict"
  | .valueValidation => "ValueValidation"
  | .invalidValue => "InvalidValue"
  | .tooManyValues => "TooManyValues"

end ArgumentFault

/-! ### Tokens -/

inductive Token where
  /-- Two dashes: no option follows. -/
  | escape
  | long (name : String) (value : Option String)
  | short (letter : Char) (rest : List Char)
  | word (text : String)
deriving DecidableEq, Repr

namespace Token

/-- The two sides of the first equals sign. -/
def splitEquals : List Char → List Char × Option (List Char)
  | [] => ([], none)
  | '=' :: rest => ([], some rest)
  | c :: rest =>
    let (before, after) := splitEquals rest
    (c :: before, after)

def ofString (text : String) : Token :=
  match text.toList with
  | ['-', '-'] => .escape
  | '-' :: '-' :: rest =>
    let (name, value) := splitEquals rest
    .long (String.ofList name) (value.map String.ofList)
  | '-' :: letter :: rest => .short letter rest
  | _ => .word text

/-- The value that directly follows the letter of an option. -/
def attached? : List Char → Option String
  | [] => none
  | '=' :: rest => some (String.ofList rest)
  | rest => some (String.ofList rest)

end Token

/-! ### Options -/

/-- What an option makes of its value: a change of what was read so far. -/
abbrev Setter (δ : Type) := String → δ → Except ArgumentFault δ

/-- The options of a command, which is read into a draft. -/
structure OptionTable (δ : Type) where
  long? : String → Option (Setter δ)
  short? : Char → Option (Setter δ)
  topic : HelpTopic
  /-- Whether the version can be asked for. -/
  hasVersion : Bool

/-- An option whose effect is still to come. -/
inductive Pending (δ : Type) where
  | none
  | waiting (set : Setter δ)
  | filled (set : Setter δ) (value : String)

/-- Lets a pending option take effect. -/
def Pending.resolve {δ : Type} (draft : δ) : Pending δ → Except ArgumentFault δ
  | .none => .ok draft
  | .waiting _ => .error .invalidValue
  | .filled set value => set value draft

/-- What was read so far. -/
structure Progress (δ : Type) where
  draft : δ
  pending : Pending δ

namespace Progress

variable {δ : Type}

/-- What was read, all options having taken effect. -/
def finish (p : Progress δ) : Except ArgumentFault δ := p.pending.resolve p.draft

/-- Reaches an option whose value, if it is attached, is given. -/
def option (p : Progress δ) (set : Setter δ) (value : Option String) :
    Except ArgumentFault (Progress δ) := do
  let draft ← p.finish
  match value with
  | some value => do
    let draft ← set value draft
    pure ⟨draft, .none⟩
  | none => pure ⟨draft, .waiting set⟩

/-- Reaches an option that only asks to be told something. -/
def wish (p : Progress δ) (fault : ArgumentFault) : Except ArgumentFault (Progress δ) := do
  let _ ← p.finish
  throw fault

def long (table : OptionTable δ) (p : Progress δ) (name : String) (value : Option String) :
    Except ArgumentFault (Progress δ) :=
  let fault? : Option ArgumentFault :=
    if name = "help" then some (.displayHelp table.topic)
    else if name = "version" ∧ table.hasVersion then some .displayVersion
    else none
  match fault?, table.long? name with
  | some fault, _ => if value.isSome then .error .tooManyValues else p.wish fault
  | none, some set => p.option set value
  | none, none => .error .unknownArgument

def short (table : OptionTable δ) (p : Progress δ) (letter : Char) (rest : List Char) :
    Except ArgumentFault (Progress δ) :=
  if letter = 'h' then p.wish (.displayHelp table.topic)
  else if letter = 'V' ∧ table.hasVersion then p.wish .displayVersion
  else
    match table.short? letter with
    | some set => p.option set (Token.attached? rest)
    | none => .error .unknownArgument

/-- Reaches a word; a word that no option waits for is given back. -/
def word (p : Progress δ) (text : String) : Option (Progress δ) :=
  match p.pending with
  | .waiting set => some { p with pending := .filled set text }
  | _ => none

end Progress

/-! ### Reading -/

/-- Where the options of a command end. -/
inductive Stop where
  | finished
  /-- Before a word that is not a value; whether it follows two dashes. -/
  | word (text : String) (escaped : Bool) (rest : List String)
deriving DecidableEq, Repr

/-- Reads options until the arguments end or a word is reached. -/
def readOptions {δ : Type} (table : OptionTable δ) :
    Progress δ → List String → Except ArgumentFault (Progress δ × Stop)
  | p, [] => .ok (p, .finished)
  | p, text :: rest =>
    match Token.ofString text with
    | .escape =>
      match rest with
      | [] => .ok (p, .finished)
      | text :: rest => .ok (p, .word text true rest)
    | .long name value => do
      let p ← p.long table name value
      readOptions table p rest
    | .short letter more => do
      let p ← p.short table letter more
      readOptions table p rest
    | .word text =>
      match p.word text with
      | some p => readOptions table p rest
      | none => .ok (p, .word text false rest)

/-- Reads the arguments of a command that takes options only. -/
def readAll {δ : Type} (table : OptionTable δ) (start : δ) (arguments : List String) :
    Except ArgumentFault δ := do
  match ← readOptions table ⟨start, .none⟩ arguments with
  | (p, .finished) => p.finish
  | (_, .word _ _ _) => throw .unknownArgument

/-! ### Values -/

def single {δ α : Type} (read : String → Except ArgumentFault α) (get : δ → Option α)
    (put : δ → α → δ) : Setter δ := fun text draft =>
  if (get draft).isSome then .error .argumentConflict
  else (read text).map (put draft)

def repeated {δ α : Type} (read : String → Except ArgumentFault (List α))
    (get : δ → List α) (put : δ → List α → δ) : Setter δ := fun text draft =>
  (read text).map fun values => put draft (get draft ++ values)

def readText (text : String) : Except ArgumentFault String := .ok text

/-- The name of a file, which cannot be empty. -/
def readPath (text : String) : Except ArgumentFault String :=
  if text.isEmpty then .error .invalidValue else .ok text

/-- A value that a reader accepts. -/
def readWith {α : Type} (read? : String → Option α) (text : String) : Except ArgumentFault α :=
  match read? text with
  | some value => .ok value
  | none => .error .valueValidation

/-- A draft's value that must have been given. -/
def required {α : Type} (value : Option α) : Except ArgumentFault α :=
  match value with
  | some value => .ok value
  | none => .error .missingRequiredArgument

end KnowledgeSearch.CommandLine
