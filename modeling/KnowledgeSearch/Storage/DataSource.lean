/-
  KnowledgeSearch/Storage/DataSource.lean
  =======================================
  **Opening a data source.**

  A data source is named by a text: a file name for the `lite` dialect, a URL for
  `postgres`.  It is opened if the name describes a source and if that source is there,
  which the caller tells.  The name may hold a password, so messages that quote it are
  masked.
-/
import KnowledgeSearch.Config.Basic
import KnowledgeSearch.Storage.FileSource
import KnowledgeSearch.Storage.ServerSource

namespace KnowledgeSearch.DataSource

/-- What can be reached. -/
structure Surroundings where
  directoryExists : FileLocation → Bool
  fileExists : FileLocation → Bool
  serverAnswers : Bool

inductive Target where
  | file (target : FileTarget)
  | server

/-- The file that holds a database, if it can be opened. -/
def openFile (around : Surroundings) (dsn : String) : Except StorageError FileTarget :=
  match FileSource.ofDsn dsn with
  | .error cause =>
    let message := (OpenCause.configuration cause).message
    .error (.config s!"storage.dsn is not a valid SQLite DSN: {message}.")
  | .ok source =>
    match FileTarget.ofSource source with
    | .error cause => .error (.ofOpening dsn cause)
    | .ok target =>
      match target.fault? around.directoryExists around.fileExists with
      | some cause => .error (.ofOpening dsn cause)
      | none => .ok target

def openServer (around : Surroundings) (dsn : String) : Except StorageError Unit :=
  match ServerSource.ofDsn dsn with
  | .error cause => .error (.ofOpening dsn (.configuration cause))
  | .ok route => if around.serverAnswers then .ok () else .error (.ofOpening dsn route.fault)

def openSource (around : Surroundings) (dialect : Dialect) (dsn : String) :
    Except StorageError Target :=
  match dialect with
  | .lite => (openFile around dsn).map .file
  | .postgres => (openServer around dsn).map fun _ => .server

end KnowledgeSearch.DataSource
