/-
  KnowledgeSearch/Config/Validation.lean
  ======================================
  **Accepted configurations.**

  A configuration is tidied (blank settings count as unset, text fields are listed
  once) and then checked.  Checks are made in a fixed order and the first that fails
  is reported.  What the rest of the library relies on follows from them: names that
  enter statements are plain identifiers, weights are finite and not negative, limits
  are positive and the dialect has the metric.
-/
import KnowledgeSearch.Config.Document
import KnowledgeSearch.Text.Blank
import KnowledgeSearch.Text.Quoted
import KnowledgeSearch.Toml.Document

namespace KnowledgeSearch

/-! ### Faults -/

/-- What can be wrong with a table. -/
inductive TableFault where
  | noColumns
  | columnName (column : String)
  | primaryKeyNotListed
  | embeddingListed
  | noDimension
  | textFieldNotListed (field : String)
deriving DecidableEq, Repr

/-- What can be wrong with a configuration. -/
inductive ConfigFault where
  | blankDsn
  | noConnections
  | noAcquireTimeout
  | noStatementTimeout
  | noLimit
  | tooFewCandidates
  | weightNotFinite (label : String)
  | weightNegative (label : String)
  | textSearchConfig
  | noCalibrationK
  | emptyGrid
  | gridOutOfRange
  | noCacheEntries
  | hnswM
  | hnswEfConstruction
  | metricWithoutDialect
  | tableName (name : String)
  | table (name : String) (fault : TableFault)
  | duplicateTable (name : String)
deriving DecidableEq, Repr

namespace ConfigFault

def message : ConfigFault → String
  | .blankDsn => "storage.dsn must be non-empty."
  | .noConnections => "storage.pool_max_conns must be greater than zero."
  | .noAcquireTimeout => "storage.acquire_timeout_ms must be greater than zero."
  | .noStatementTimeout => "storage.statement_timeout_ms must be greater than zero when set."
  | .noLimit => "search.max_limit must be greater than zero."
  | .tooFewCandidates => "search.max_candidates must be at least search.max_limit."
  | .weightNotFinite label => s!"{label} must be a finite number."
  | .weightNegative label => s!"{label} must be zero or greater."
  | .textSearchConfig => "search.hybrid.text_search_config must be a plain identifier."
  | .noCalibrationK => "search.hybrid.calibration_k must be greater than zero."
  | .emptyGrid => "search.hybrid.calibration_grid must be non-empty."
  | .gridOutOfRange => "search.hybrid.calibration_grid values must be in the range 0.0-1.0."
  | .noCacheEntries => "search.cache.max_entries must be greater than zero when enabled."
  | .hnswM => "index.hnsw_m must be at least 2."
  | .hnswEfConstruction => "index.hnsw_ef_construction must be at least twice index.hnsw_m."
  | .metricWithoutDialect =>
    "index.metric inner_product is not available for the lite dialect."
  | .tableName name => s!"tables.name '{name}' must be a plain identifier."
  | .table name .noColumns => s!"tables.{name}.columns must be non-empty."
  | .table name (.columnName column) =>
    s!"tables.{name} column '{column}' must be a plain identifier."
  | .table name .primaryKeyNotListed => s!"tables.{name}.primary_key must be listed in columns."
  | .table name .embeddingListed =>
    s!"tables.{name}.embedding_column must not be listed in columns."
  | .table name .noDimension => s!"tables.{name}.embedding_dim must be greater than zero."
  | .table name (.textFieldNotListed field) =>
    s!"tables.{name}.text_fields entry '{field}' must be listed in columns."
  | .duplicateTable name => s!"tables.{name} is defined more than once."

end ConfigFault

/-- Why there is no configuration. -/
inductive ConfigError where
  /-- The document cannot be read from where it is stored. -/
  | unreadable (path : String)
  /-- The document is not one of settings. -/
  | malformed (path : Option String)
  /-- The settings do not pass the checks. -/
  | invalid (fault : ConfigFault)
deriving DecidableEq, Repr

namespace ConfigError

def message : ConfigError → String
  | .unreadable path => "Cannot read kb config " ++ Text.quoted path ++ "."
  | .malformed none => "Invalid TOML in kb config."
  | .malformed (some path) => "Invalid TOML in kb config " ++ Text.quoted path ++ "."
  | .invalid fault => fault.message

end ConfigError

/-! ### Checks -/

/-- Stops with a fault unless a check holds. -/
def checkThat (holds : Bool) (fault : ConfigFault) : Except ConfigFault Unit :=
  if holds then .ok () else .error fault

/-- Twice a count, cut at the largest one. -/
def doubleCapped (n : UInt32) : UInt32 :=
  if n.toNat * 2 < UInt32.size then n * 2 else UInt32.ofNat (UInt32.size - 1)

namespace Table

/-- The names of a table that enter statements, in the order in which they are
    checked. -/
def names (table : Table) : List String :=
  table.columns ++ table.textFields ++ table.filters.keys ++
    [table.primaryKey, table.embeddingColumn]

def check (table : Table) : Except ConfigFault Unit := do
  let fault := ConfigFault.table table.name
  checkThat (Text.isIdentifier table.name) (.tableName table.name)
  checkThat (!table.columns.isEmpty) (fault .noColumns)
  match table.names.find? fun column => !Text.isIdentifier column with
  | some column => throw (fault (.columnName column))
  | none => pure ()
  checkThat (table.columns.contains table.primaryKey) (fault .primaryKeyNotListed)
  checkThat (!table.columns.contains table.embeddingColumn) (fault .embeddingListed)
  checkThat (table.embeddingDim != 0) (fault .noDimension)
  match table.textFields.find? fun field => !table.columns.contains field with
  | some field => throw (fault (.textFieldNotListed field))
  | none => pure ()

end Table

namespace Config

/-- Checks tables in order; `seen` holds the names of the tables before them. -/
def checkTables (seen : List String) : List Table → Except ConfigFault Unit
  | [] => pure ()
  | table :: tables => do
    table.check
    checkThat (!seen.contains table.name) (.duplicateTable table.name)
    checkTables (table.name :: seen) tables

def checkWeight (label : String) (weight : Single) : Except ConfigFault Unit := do
  checkThat weight.isFinite (.weightNotFinite label)
  checkThat (!weight.lt .zero) (.weightNegative label)

/-- Whether a weight lies between 0 and 1. -/
def inUnit (weight : Single) : Bool := Binary.zero.le weight && weight.le (Binary.ofNat 1)

def check (config : Config) : Except ConfigFault Unit := do
  let storage := config.storage
  let search := config.search
  let hybrid := search.hybrid
  let index := config.index
  checkThat (!Text.isBlankText storage.dsn) .blankDsn
  checkThat (storage.maxConnections != 0) .noConnections
  checkThat (storage.acquireTimeoutMs != 0) .noAcquireTimeout
  checkThat (storage.statementTimeoutMs != some 0) .noStatementTimeout
  checkThat (search.maxLimit != 0) .noLimit
  checkThat (search.maxLimit ≤ search.maxCandidates) .tooFewCandidates
  checkWeight "search.hybrid.text_weight" hybrid.textWeight
  checkWeight "search.hybrid.vector_weight" hybrid.vectorWeight
  checkThat (Text.isIdentifier hybrid.textSearchConfig) .textSearchConfig
  checkThat (hybrid.calibrationK != 0) .noCalibrationK
  checkThat (!hybrid.calibrationGrid.isEmpty) .emptyGrid
  checkThat (hybrid.calibrationGrid.all inUnit) .gridOutOfRange
  checkThat (!(search.cache.enabled && search.cache.maxEntries == 0)) .noCacheEntries
  checkThat (2 ≤ index.hnswM) .hnswM
  checkThat (doubleCapped index.hnswM ≤ index.hnswEfConstruction) .hnswEfConstruction
  checkThat (!(storage.dialect == .lite && index.metric == .innerProduct)) .metricWithoutDialect
  checkTables [] config.tables

/-- Counts blank settings as unset and lists every text field once. -/
def normalize (config : Config) : Config :=
  { config with
    logLevel := if Text.isBlankText config.logLevel then "info" else config.logLevel
    storage :=
      { config.storage with
        vectorExtension := config.storage.vectorExtension.filter fun path =>
          !Text.isBlankText path }
    tables := config.tables.map fun table =>
      { table with textFields := table.textFields.eraseDups } }

def ofToml (document : Toml) : Except ConfigError Config :=
  match ofToml? document with
  | none => .error (.malformed none)
  | some settings =>
    let config := settings.normalize
    match config.check with
    | .ok _ => .ok config
    | .error fault => .error (.invalid fault)

def ofString (text : String) : Except ConfigError Config :=
  match Toml.ofString? text with
  | none => .error (.malformed none)
  | some document => ofToml document

/-- The accepted configuration of a stored document, or of its absence. -/
def load (path : String) (contents : Option String) : Except ConfigError Config :=
  match contents with
  | none => .error (.unreadable path)
  | some text =>
    match ofString text with
    | .error (.malformed _) => .error (.malformed (some path))
    | other => other

end Config

end KnowledgeSearch
