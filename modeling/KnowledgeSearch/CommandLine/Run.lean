/-
  KnowledgeSearch/CommandLine/Run.lean
  ====================================
  **Running a command.**

  A run reads the configuration, opens the storage unless the command needs none, and
  prints one report.  Files and databases are looked up in a `World`, so that a run is
  a function; its outcome is a status and what it prints.
-/
import KnowledgeSearch.CommandLine.Help
import KnowledgeSearch.Config.Validation
import KnowledgeSearch.Json.RecordList
import KnowledgeSearch.Search.BareTables
import KnowledgeSearch.Search.Calibration
import KnowledgeSearch.Search.Indexing
import KnowledgeSearch.Search.Vector
import KnowledgeSearch.Storage.DataSource

namespace KnowledgeSearch.CommandLine

/-! ### The surroundings -/

/-- What a run finds around it. -/
structure World where
  /-- The contents of a file, if it can be read. -/
  file : String → Option String
  directoryExists : FileLocation → Bool
  fileExists : FileLocation → Bool
  tables : FileLocation → List BareTable
  /-- Whether a library for the database can be loaded. -/
  hasExtension : String → Bool

structure Result where
  status : UInt32
  /-- What is printed. -/
  output : String
  /-- What is reported as an error. -/
  message : String
deriving DecidableEq, Repr

inductive RunError where
  | config (error : ConfigError)
  | storage (error : StorageError)
  | search (error : SearchError)
  | unreadableFile (path : String)
  | malformedFile (path : String)

def RunError.message : RunError → String
  | .config error => error.message
  | .storage error => error.report
  | .search error => error.report
  | .unreadableFile path => "Failed to read " ++ path ++ "."
  | .malformedFile path => "Failed to parse " ++ path ++ "."

/-! ### Storage -/

/-- The configuration in a file. -/
def World.config (world : World) (path : String) : Except ConfigError Config :=
  Config.load path (world.file path)

/-- The database that a data source stands for.  No server answers, and what is kept in
    no file is empty. -/
def World.database (world : World) : DataSource.Target → BareDatabase
  | .server => .empty
  | .file target =>
    if target.isTransient then .empty
    else ⟨world.tables (.ofString target.path), target.isReadOnly⟩

def World.open (world : World) (settings : StorageSettings) : Except RunError BareDatabase :=
  let around : DataSource.Surroundings := ⟨world.directoryExists, world.fileExists, false⟩
  match DataSource.openSource around settings.dialect settings.dsn with
  | .error e => .error (.storage e)
  | .ok target =>
    match settings.vectorExtension.filter fun name => !world.hasExtension name with
    | some name =>
      .error (.storage (.ofOpening settings.dsn (.database ("(code: 1) " ++ name))))
    | none => .ok (world.database target)

def World.records {α : Type} (world : World) (path : String) (fields : List String)
    (read? : Json → Option α) : Except RunError (List α) :=
  match world.file path with
  | none => .error (.unreadableFile path)
  | some text =>
    match (Json.recordsOfString? fields text).bind fun records => records.mapM read? with
    | some records => .ok records
    | none => .error (.malformedFile path)

/-! ### Reports -/

def reportResults (results : List SearchResult) : Report :=
  .list (results.map SearchResult.toReport)

def reportQuery (query : Query) : Report :=
  .record [("sql", .text query.sql),
    ("params", .list (query.params.map fun value => .ofJson value.toJson))]

/-! ### Commands -/

/-- What a command asks of the service, `none` for a command that needs no storage. -/
def Command.search? (world : World) (s : Service) : Command →
    Option (Except RunError (Search Report))
  | .compile _ _ => none
  | .vectorSearch table embedding filter limit =>
    some (.ok (reportResults <$> s.vectorSearch { table, embedding, filter, limit := some limit }))
  | .hybridSearch tables query embedding textFields filter textWeight vectorWeight limit =>
    let request : HybridSearchRequest :=
      { table := tables.head?.getD ""
        query
        embedding
        textFields := if textFields.isEmpty then none else some textFields
        filter
        textWeight
        vectorWeight
        limit := some limit }
    if tables.length = 1 then some (.ok (reportResults <$> s.hybridSearch request))
    else
      some <| .ok <| (fun found => .record (found.map fun (table, results) =>
        (table, reportResults results))) <$> s.multiTableSearch tables request
  | .storeEmbeddings table items =>
    some <| (world.records items EmbeddingItem.fields EmbeddingItem.ofJson?).map fun items =>
      (fun (stored : Nat) =>
        Report.record [("stored", .natural stored), ("table", .text table)]) <$>
          s.storeEmbeddings table items
  | .recommendIndex table kind =>
    some (.ok (IndexRecommendation.toReport <$> s.recommendIndex table kind))
  | .applyIndex table kind =>
    some <| .ok do
      let recommendation ← s.recommendIndex table kind
      let outcome ← ExceptT.lift (s.applyIndex recommendation)
      pure outcome.toReport
  | .calibrate table samples grid k =>
    let records := world.records samples CalibrationSample.fields CalibrationSample.ofJson?
    some <| records.map fun samples =>
      CalibrationReport.toReport <$>
        s.calibrate table samples (if grid.isEmpty then none else some grid) k

/-- Carries an operation out on a database. -/
def perform (config : Config) (db : BareDatabase) (search : Search Report) :
    Except RunError Report :=
  match ServiceState.initial config with
  | .error fault => .error (.search fault)
  | .ok service =>
    let machine : Machine BareDatabase :=
      { backend := BareDatabase.backend, database := db, service, clock := id, readings := 0 }
    match (search.run.run machine).1 with
    | .ok report => .ok report
    | .error e => .error (.search e)

def Invocation.report (world : World) (invocation : Invocation) : Except RunError Report :=
  match world.config invocation.config with
  | .error e => .error (.config e)
  | .ok config =>
    let service : Service := ⟨config, config.storage.dialect⟩
    match invocation.command with
    | .compile filter table =>
      match service.compile filter table with
      | .ok query => .ok (reportQuery query)
      | .error fault => .error (.search fault)
    | command =>
      match world.open config.storage with
      | .error e => .error e
      | .ok db =>
        match command.search? world service with
        | none => .ok (.list [])
        | some (.error e) => .error e
        | some (.ok search) => perform config db search

def Invocation.files (invocation : Invocation) : List String :=
  match invocation.command with
  | .storeEmbeddings _ items => [invocation.config, items]
  | .calibrate _ samples _ _ => [invocation.config, samples]
  | _ => [invocation.config]

/-- A world of some files, in which there is no database yet. -/
def World.ofFiles (files : List (String × String)) : World where
  file := fun path => files.lookup path
  directoryExists := FileLocation.isAround
  fileExists := fun place => files.any fun (path, _) => .ofString path = place
  tables := fun _ => []
  hasExtension := fun _ => false

def Invocation.run (world : World) (invocation : Invocation) : Result :=
  match invocation.report world with
  | .ok report => ⟨0, report.pretty ++ "\n", ""⟩
  | .error e => ⟨1, "", "Error: " ++ e.message ++ "\n"⟩

/-! ### The program -/

/-- The name and the version of the program. -/
def versionText : String := "kb-admin 0.1.0\n"

/-- How a run ends whose arguments name no command to run. -/
def ArgumentFault.result : ArgumentFault → Result
  | .displayHelp topic => ⟨0, topic.page.render, ""⟩
  | .displayVersion => ⟨0, versionText, ""⟩
  | .nothingGiven => ⟨2, "", HelpTopic.program.page.render⟩
  | fault => ⟨2, "", "error: " ++ fault.name ++ "\n"⟩

def run (world : World) (arguments : List String) : Result :=
  match readArguments arguments with
  | .ok invocation => invocation.run world
  | .error fault => fault.result

end KnowledgeSearch.CommandLine
