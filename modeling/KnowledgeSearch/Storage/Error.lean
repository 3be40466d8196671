/-
  KnowledgeSearch/Storage/Error.lean
  ==================================
  **Errors of storage, and what statements give back.**
-/
import KnowledgeSearch.Storage.Redact

namespace KnowledgeSearch

/-! ### Errors -/

/-- Why storage did not do what it was asked for. -/
inductive StorageError where
  | connectionUnavailable (message : String)
  | queryExecution (message : String) (sql : String) (params : List String)
  | invalidArgument (message : String)
  | config (message : String)
deriving DecidableEq, Repr

namespace StorageError

def kind : StorageError → String
  | .connectionUnavailable _ => "ConnectionUnavailable"
  | .queryExecution .. => "QueryExecution"
  | .invalidArgument _ => "InvalidArgument"
  | .config _ => "Config"

/-- The wording of the cause. -/
def message : StorageError → String
  | .connectionUnavailable message => message
  | .queryExecution message _ _ => message
  | .invalidArgument message => message
  | .config message => message

def report (error : StorageError) : String :=
  match error with
  | .connectionUnavailable message => "Connection unavailable: " ++ message
  | .queryExecution message _ _ => "Query execution failed: " ++ message
  | .invalidArgument message => "Invalid argument: " ++ message
  | .config message => "Invalid storage configuration: " ++ message

/-- Whether the same request may succeed later. -/
def isRetryable : StorageError → Bool
  | .connectionUnavailable _ => true
  | _ => false

/-- The error of a statement, given the cause that the database tells. -/
def ofStatement (query : Query) (cause : String) : StorageError :=
  .queryExecution (Redact.scrub cause) (Redact.scrub query.sql)
    (query.params.map Redact.renderParameter)

def ofAcquire (cause : String) : StorageError :=
  .connectionUnavailable (Redact.scrub ("Failed to acquire a connection: " ++ cause ++ "."))

end StorageError

/-! ### Opening -/

inductive OpenCause where
  /-- The name does not describe a source. -/
  | configuration (cause : String)
  /-- The source cannot be asked for. -/
  | communication (cause : String)
  /-- The source cannot be opened. -/
  | database (cause : String)
  | timedOut
deriving DecidableEq, Repr

def OpenCause.message : OpenCause → String
  | .configuration cause => "error with configuration: " ++ cause
  | .communication cause => "error communicating with database: " ++ cause
  | .database cause => "error returned from database: " ++ cause
  | .timedOut => "pool timed out while waiting for an open connection"

/-- The error of a source that was not opened.  Its name may hold a password. -/
def StorageError.ofOpening (dsn : String) (cause : OpenCause) : StorageError :=
  let message := cause.message
  let report := Redact.scrub s!"Failed to open pool for {dsn}: {message}."
  match cause with
  | .configuration _ => .config report
  | _ => .connectionUnavailable report

/-! ### Results -/

/-- How much of a result is wanted. -/
inductive FetchMode where
  | rows
  | first
  /-- Only the number of affected rows. -/
  | affected
deriving DecidableEq, Repr

def FetchMode.name : FetchMode → String
  | .rows => "rows"
  | .first => "first"
  | .affected => "affected"

/-- A row, keyed by column names. -/
abbrev Row := Members

/-- The result of a statement. -/
inductive QueryOutput where
  | rows (rows : List Row)
  | affected (count : Nat)

namespace QueryOutput

def toRows : QueryOutput → List Row
  | .rows found => found
  | .affected _ => []

/-- The number of rows that a result has or tells. -/
def count : QueryOutput → Nat
  | .rows found => found.length
  | .affected n => n

end QueryOutput

end KnowledgeSearch
