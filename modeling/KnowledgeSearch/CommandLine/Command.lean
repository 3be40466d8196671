/-
  KnowledgeSearch/CommandLine/Command.lean
  ========================================
  **The commands.**

  A command line names a configuration file and one command with its options.  The
  options before the command's name are the program's own, those after it are the
  command's.
-/
import KnowledgeSearch.CommandLine.Arguments
import KnowledgeSearch.Config.Basic
import KnowledgeSearch.Json.Parser
import KnowledgeSearch.Text.Identifier

namespace KnowledgeSearch.CommandLine

/-! ### Commands -/

/-- What the program can be told to do. -/
inductive Command where
  /-- Print the condition of a filter. -/
  | compile (filter : Json) (table : Option String)
  | vectorSearch (table : String) (embedding : Json) (filter : Option Json) (limit : Int64)
  /-- Several tables are searched each for itself. -/
  | hybridSearch (tables : List String) (query : String) (embedding : Option Json)
    (textFields : List String) (filter : Option Json) (textWeight vectorWeight : Option Single)
    (limit : Int64)
  | storeEmbeddings (table : String) (items : String)
  | recommendIndex (table : String) (kind : Option IndexPreference)
  | applyIndex (table : String) (kind : Option IndexPreference)
  /-- Calibrate the weights against the samples of a file. -/
  | calibrate (table : String) (samples : String) (grid : List Single) (k : Option UInt32)

def Command.name : Command → String
  | .compile .. => "compile"
  | .vectorSearch .. => "vector-search"
  | .hybridSearch .. => "hybrid-search"
  | .storeEmbeddings .. => "store-embeddings"
  | .recommendIndex .. => "recommend-index"
  | .applyIndex .. => "apply-index"
  | .calibrate .. => "calibrate"

structure Invocation where
  config : String
  command : Command

/-! ### Values -/

def readJson : String → Except ArgumentFault Json := readWith Json.ofString?

def readInt64 : String → Except ArgumentFault Int64 :=
  readWith fun text => (int64OfString? text).map Int64.ofInt

def readUInt32 : String → Except ArgumentFault UInt32 :=
  readWith fun text =>
    match int64OfString? text with
    | some n => if 0 ≤ n ∧ n < UInt32.size then some (UInt32.ofNat n.toNat) else none
    | none => none

def readSingle : String → Except ArgumentFault Single := readWith (Binary.ofString? .binary32)

/-- Numbers between commas. -/
def readSingles (text : String) : Except ArgumentFault (List Single) :=
  (Text.splitAt ',' text.toList).mapM fun part => readSingle (String.ofList part)

def readTexts (text : String) : Except ArgumentFault (List String) := .ok [text]

def readPreference (text : String) : Except ArgumentFault IndexPreference :=
  match [IndexPreference.auto, .ivf, .hnsw].find? fun preference => preference.name = text with
  | some preference => .ok preference
  | none => .error .invalidValue

/-! ### Options -/

/-- The options of all commands, before it is known which of them are there. -/
structure Draft where
  table : Option String := none
  tables : List String := []
  query : Option String := none
  embedding : Option Json := none
  textFields : List String := []
  filter : Option Json := none
  textWeight : Option Single := none
  vectorWeight : Option Single := none
  limit : Option Int64 := none
  items : Option String := none
  kind : Option IndexPreference := none
  samples : Option String := none
  grid : List Single := []
  k : Option UInt32 := none

namespace Draft

def tableOption : Setter Draft := single readText table fun d v => { d with table := some v }

def tablesOption : Setter Draft := repeated readTexts tables fun d v => { d with tables := v }

def queryOption : Setter Draft := single readText query fun d v => { d with query := some v }

def embeddingOption : Setter Draft :=
  single readJson embedding fun d v => { d with embedding := some v }

def textFieldOption : Setter Draft :=
  repeated readTexts textFields fun d v => { d with textFields := v }

def filterOption : Setter Draft := single readJson filter fun d v => { d with filter := some v }

def textWeightOption : Setter Draft :=
  single readSingle textWeight fun d v => { d with textWeight := some v }

def vectorWeightOption : Setter Draft :=
  single readSingle vectorWeight fun d v => { d with vectorWeight := some v }

def limitOption : Setter Draft := single readInt64 limit fun d v => { d with limit := some v }

def itemsOption : Setter Draft := single readPath items fun d v => { d with items := some v }

def kindOption : Setter Draft := single readPreference kind fun d v => { d with kind := some v }

def samplesOption : Setter Draft :=
  single readPath samples fun d v => { d with samples := some v }

def gridOption : Setter Draft := repeated readSingles grid fun d v => { d with grid := v }

def kOption : Setter Draft := single readUInt32 k fun d v => { d with k := some v }

end Draft

structure CommandOption where
  name : String
  /-- What stands for the value where the option is explained. -/
  placeholder : String
  about : String := ""
  isRequired : Bool := false
  set : Setter Draft

/-- The options of a command, and how its draft becomes the command. -/
structure CommandSpec where
  name : String
  about : String := ""
  options : List CommandOption
  build : Draft → Except ArgumentFault Command

/-! ### All commands -/

open Draft in
def compileSpec : CommandSpec where
  name := "compile"
  about := "Print the SQL condition and parameters for a filter document"
  options :=
    [{ name := "filter", placeholder := "JSON", isRequired := true, set := filterOption },
     { name := "table", placeholder := "TABLE", set := tableOption
       about := "Restrict the filter to this table's whitelist first" }]
  build := fun d => do pure (.compile (← required d.filter) d.table)

open Draft in
def vectorSearchSpec : CommandSpec where
  name := "vector-search"
  options :=
    [{ name := "table", placeholder := "TABLE", isRequired := true, set := tableOption },
     { name := "embedding", placeholder := "JSON", isRequired := true, set := embeddingOption },
     { name := "filter", placeholder := "JSON", set := filterOption },
     { name := "limit", placeholder := "N", isRequired := true, set := limitOption }]
  build := fun d => do
    pure (.vectorSearch (← required d.table) (← required d.embedding) d.filter
      (← required d.limit))

open Draft in
def hybridSearchSpec : CommandSpec where
  name := "hybrid-search"
  about := "Hybrid search. Repeating `--table` searches each table separately"
  options :=
    [{ name := "table", placeholder := "TABLE", isRequired := true, set := tablesOption },
     { name := "query", placeholder := "QUERY", set := queryOption
       about := "[default: \"\"]" },
     { name := "embedding", placeholder := "JSON", set := embeddingOption },
     { name := "text-field", placeholder := "COLUMN", set := textFieldOption },
     { name := "filter", placeholder := "JSON", set := filterOption },
     { name := "text-weight", placeholder := "TEXT_WEIGHT", set := textWeightOption },
     { name := "vector-weight", placeholder := "VECTOR_WEIGHT", set := vectorWeightOption },
     { name := "limit", placeholder := "N", isRequired := true, set := limitOption }]
  build := fun d => do
    if d.tables.isEmpty then throw .missingRequiredArgument
    else
      pure (.hybridSearch d.tables (d.query.getD "") d.embedding d.textFields d.filter
        d.textWeight d.vectorWeight (← required d.limit))

open Draft in
def storeEmbeddingsSpec : CommandSpec where
  name := "store-embeddings"
  about :=
    "Write embeddings from a JSON array of `\x7b \"key\", \"embedding\" \x7d` objects"
  options :=
    [{ name := "table", placeholder := "TABLE", isRequired := true, set := tableOption },
     { name := "items", placeholder := "FILE", isRequired := true, set := itemsOption }]
  build := fun d => do pure (.storeEmbeddings (← required d.table) (← required d.items))

open Draft in
/-- The options of the commands that deal with the index of a table. -/
def indexOptions : List CommandOption :=
  [{ name := "table", placeholder := "TABLE", isRequired := true, set := tableOption },
   { name := "kind", placeholder := "KIND", set := kindOption
     about := "[possible values: auto, ivf, hnsw]" }]

def recommendIndexSpec : CommandSpec where
  name := "recommend-index"
  options := indexOptions
  build := fun d => do pure (.recommendIndex (← required d.table) d.kind)

def applyIndexSpec : CommandSpec where
  name := "apply-index"
  about := "Recompute the recommendation for a table and create the index"
  options := indexOptions
  build := fun d => do pure (.applyIndex (← required d.table) d.kind)

open Draft in
/-- Finds the weights of a search. -/
def calibrateSpec : CommandSpec where
  name := "calibrate"
  about := "Grid-search hybrid weights against labelled samples"
  options :=
    [{ name := "table", placeholder := "TABLE", isRequired := true, set := tableOption },
     { name := "samples", placeholder := "FILE", isRequired := true, set := samplesOption },
     { name := "grid", placeholder := "WEIGHTS", set := gridOption },
     { name := "k", placeholder := "K", set := kOption }]
  build := fun d => do
    pure (.calibrate (← required d.table) (← required d.samples) d.grid d.k)

def commands : List CommandSpec :=
  [compileSpec, vectorSearchSpec, hybridSearchSpec, storeEmbeddingsSpec, recommendIndexSpec,
    applyIndexSpec, calibrateSpec]

def command? (name : String) : Option CommandSpec := commands.find? fun c => c.name = name

def CommandSpec.read (spec : CommandSpec) (arguments : List String) :
    Except ArgumentFault Command := do
  let table : OptionTable Draft :=
    { long? := fun name => (spec.options.find? fun o => o.name = name).map CommandOption.set
      short? := fun _ => none
      topic := .command spec.name
      hasVersion := false }
  spec.build (← readAll table {} arguments)

/-! ### The program -/

/-- The program's own options: the configuration file. -/
def programOptions : OptionTable (Option String) :=
  let config := single readPath id fun _ path => some path
  { long? := fun name => if name = "config" then some config else none
    short? := fun letter => if letter = 'c' then some config else none
    topic := .program
    hasVersion := true }

/-- The words that ask for help on a command, or on help itself. -/
def readHelp : List String → ArgumentFault
  | [] => .displayHelp .program
  | [name] =>
    if name = "help" then .displayHelp .help
    else if (command? name).isSome then .displayHelp (.command name)
    else .invalidSubcommand
  | _ => .invalidSubcommand

def readArguments (arguments : List String) : Except ArgumentFault Invocation := do
  match ← readOptions programOptions ⟨none, .none⟩ arguments with
  | (p, .finished) =>
    match ← p.finish with
    | none => throw .nothingGiven
    | some _ => throw .missingSubcommand
  | (_, .word name true _) =>
    if name = "help" ∨ (command? name).isSome then throw .unknownArgument
    else throw .invalidSubcommand
  | (p, .word name false rest) =>
    if name = "help" then throw (readHelp rest)
    else
      match command? name with
      | none => throw .invalidSubcommand
      | some spec => do
        let command ← spec.read rest
        let config ← required (← p.finish)
        pure { config, command }

end KnowledgeSearch.CommandLine
