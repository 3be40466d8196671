/-
  KnowledgeSearch/CommandLine/Help.lean
  =====================================
  **Help.**

  A help page says what something is for, how it is called, and what its parts are.
  The pages of the commands are written from the same table of options that reads the
  arguments, so that no page can name an option that is not there.
-/
import KnowledgeSearch.CommandLine.Command

namespace KnowledgeSearch.CommandLine

/-! ### Pages -/

/-- Something that can be written on the command line, with what it is for. -/
structure HelpEntry where
  label : String
  text : String
deriving DecidableEq, Repr

/-- What is said about one topic. -/
structure HelpPage where
  /-- What it is for; nothing if that goes without saying. -/
  about : String
  usage : String
  parts : List (String × List HelpEntry)
deriving DecidableEq, Repr

/-- The entries of a list, one a line, their texts beginning in one column that is two
    places right of the longest label. -/
def HelpEntry.renderAll (entries : List HelpEntry) : String :=
  let width := entries.foldl (fun width e => max width e.label.length) 0
  "\n".intercalate <| entries.map fun e =>
    "  " ++ e.label.pushn ' ' (width + 2 - e.label.length) ++ e.text

/-- A page as it is printed, an empty line between its paragraphs. -/
def HelpPage.render (page : HelpPage) : String :=
  let opening := if page.about.isEmpty then [] else [page.about]
  let parts := page.parts.map fun (heading, entries) =>
    heading ++ ":\n" ++ HelpEntry.renderAll entries
  "\n\n".intercalate (opening ++ ["Usage: " ++ page.usage] ++ parts) ++ "\n"

/-! ### Commands -/

/-- An option as it is written, a placeholder for its value. -/
def CommandOption.pattern (o : CommandOption) : String :=
  "--" ++ o.name ++ " <" ++ o.placeholder ++ ">"

/-- How an option is listed: the room on its left is for a letter. -/
def CommandOption.entry (o : CommandOption) : HelpEntry := ⟨"    " ++ o.pattern, o.about⟩

def helpEntry : HelpEntry := ⟨"-h, --help", "Print help"⟩

/-- How the program is called up to the name of a command. -/
def programCall : String := "kb-admin --config <FILE>"

/-- The call of a command: the options that it needs are spelled out, the others are
    summed up. -/
def CommandSpec.call (spec : CommandSpec) : String :=
  let needed := spec.options.filter CommandOption.isRequired
  let others := if needed.length = spec.options.length then [] else ["[OPTIONS]"]
  " ".intercalate ([programCall, spec.name] ++ others ++ needed.map CommandOption.pattern)

def CommandSpec.page (spec : CommandSpec) : HelpPage where
  about := spec.about
  usage := spec.call
  parts := [("Options", spec.options.map CommandOption.entry ++ [helpEntry])]

/-! ### The program -/

/-- What the command does that explains the others. -/
def helpCommandAbout : String := "Print this message or the help of the given subcommand(s)"

/-- The page of the program, which lists the commands. -/
def programPage : HelpPage where
  about := "Subcommands that need a storage connection"
  usage := programCall ++ " <COMMAND>"
  parts :=
    [("Commands", commands.map (fun spec => ⟨spec.name, spec.about⟩) ++
      [⟨"help", helpCommandAbout⟩]),
     ("Options", [⟨"-c, --config <FILE>", ""⟩, helpEntry, ⟨"-V, --version", "Print version"⟩])]

def helpCommandPage : HelpPage where
  about := helpCommandAbout
  usage := programCall ++ " help [COMMAND]..."
  parts := [("Arguments", [⟨"[COMMAND]...", "Print help for the subcommand(s)"⟩])]

def HelpTopic.page : HelpTopic → HelpPage
  | .program => programPage
  | .command name => ((command? name).map CommandSpec.page).getD programPage
  | .help => helpCommandPage

end KnowledgeSearch.CommandLine
