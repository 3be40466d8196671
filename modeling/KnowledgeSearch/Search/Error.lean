/-
  KnowledgeSearch/Search/Error.lean
  =================================
  **Errors of searches.**

  A search fails because of a value that is no embedding, a filter that is no
  filter, a request that breaks a rule, or storage.  `SearchFault` tells these causes
  apart; a `SearchError` adds the contexts in which the cause came up, which only
  lengthen its wording.  What a caller can react to, the `SearchErrorKind`, the failed
  statement and whether a retry makes sense, depends on the cause alone.
-/
import KnowledgeSearch.Filter.Document
import KnowledgeSearch.Sql.Dialect
import KnowledgeSearch.Storage.Error

namespace KnowledgeSearch

/-! ### Kinds -/

/-- The kinds of errors that callers tell apart. -/
inductive SearchErrorKind where
  | invalidEmbeddingFormat
  | invalidArgument
  | connectionUnavailable
  | queryExecution
deriving DecidableEq, Repr

namespace SearchErrorKind

def name : SearchErrorKind → String
  | .invalidEmbeddingFormat => "InvalidEmbeddingFormat"
  | .invalidArgument => "InvalidArgument"
  | .connectionUnavailable => "ConnectionUnavailable"
  | .queryExecution => "QueryExecution"

/-- The words that open every report of a kind. -/
def heading : SearchErrorKind → String
  | .invalidEmbeddingFormat => "Invalid embedding format"
  | .invalidArgument => "Invalid argument"
  | .connectionUnavailable => "Connection unavailable"
  | .queryExecution => "Query execution failed"

end SearchErrorKind

/-! ### Causes -/

inductive WeightName where
  | text
  | vector
deriving DecidableEq, Repr

def WeightName.key : WeightName → String
  | .text => "text_weight"
  | .vector => "vector_weight"

inductive SearchFault where
  | embedding (error : EmbeddingError)
  | filter (error : FilterError)
  | storage (error : StorageError)
  | unknownTable (name : String)
  | limitMissing
  | limitNotPositive
  | limitTooLarge (max : UInt32)
  | weightNotFinite (weight : WeightName)
  | weightNegative (weight : WeightName)
  | metricUnsupported (metric : Metric) (dialect : Dialect)
  | textFieldUnknown (field : String) (table : String)
  | nothingToSearch
  | noTables
  | badKey
  | noSamples
  | emptyGrid
  | gridValueOutside (weight : Single)
  | cutoffOutside (max : UInt32)
  | indexesUnsupported (dialect : Dialect)
  | notEmbeddingColumn (column : String) (table : String)
  | wrongIndexName (expected : String)

namespace SearchFault

def kind : SearchFault → SearchErrorKind
  | .embedding _ => .invalidEmbeddingFormat
  | .storage (.connectionUnavailable _) => .connectionUnavailable
  | .storage (.queryExecution ..) => .queryExecution
  | _ => .invalidArgument

/-- The wording of the cause. -/
def message : SearchFault → String
  | .embedding error => error.message
  | .filter error => error.message
  | .storage error => error.message
  | .unknownTable name => s!"Unknown table '{name}'."
  | .limitMissing => "limit is required."
  | .limitNotPositive => "limit must be greater than zero."
  | .limitTooLarge max => s!"limit must be at most {max}."
  | .weightNotFinite weight => weight.key ++ " must be a finite number."
  | .weightNegative weight => weight.key ++ " must be zero or greater."
  | .metricUnsupported metric dialect =>
    "Metric " ++ metric.name ++ " is not supported by the " ++ dialect.name ++ " dialect."
  | .textFieldUnknown field table => s!"Text field '{field}' is not searchable on {table}."
  | .nothingToSearch =>
    "Either query text over at least one text field or an embedding is required."
  | .noTables => "At least one table is required."
  | .badKey => "key must be an integer or string."
  | .noSamples => "Calibration requires at least one sample."
  | .emptyGrid => "Calibration grid must not be empty."
  | .gridValueOutside weight =>
    "Calibration grid value " ++ plainStyle.format weight ++ " must be within [0, 1]."
  | .cutoffOutside max => s!"k must be between 1 and {max}."
  | .indexesUnsupported dialect =>
    "The " ++ dialect.name ++ " dialect has no ANN index support."
  | .notEmbeddingColumn column table =>
    s!"Column '{column}' is not the embedding column of {table}."
  | .wrongIndexName expected => s!"Index name must be '{expected}'."

/-- The statement that failed and its rendered parameters. -/
def statement? : SearchFault → Option (String × List String)
  | .storage (.queryExecution _ sql params) => some (sql, params)
  | _ => none

end SearchFault

/-! ### Errors -/

/-- A cause and the contexts around it, the outermost first. -/
structure SearchError where
  contexts : List String
  fault : SearchFault

namespace SearchError

instance : Coe SearchFault SearchError := ⟨fun fault => ⟨[], fault⟩⟩

/-- Puts one more context around an error. -/
def inContext (error : SearchError) (context : String) : SearchError :=
  { error with contexts := context :: error.contexts }

def kind (error : SearchError) : SearchErrorKind := error.fault.kind

/-- The wording of an error: its contexts and then its cause. -/
def message (error : SearchError) : String :=
  error.contexts.foldr (fun context rest => context ++ ": " ++ rest) error.fault.message

def report (error : SearchError) : String := error.kind.heading ++ ": " ++ error.message

/-- Whether the same request may succeed later. -/
def isRetryable (error : SearchError) : Bool := error.kind = .connectionUnavailable

end SearchError

/-- Puts a context around the error of an outcome. -/
def inContext {α : Type} (context : String) : Except SearchError α → Except SearchError α
  | .ok a => .ok a
  | .error e => .error (e.inContext context)

end KnowledgeSearch
