/-
  KnowledgeSearch/Config/Document.lean
  ====================================
  **Settings from a document.**

  A record of settings is written as a table; keys that it does not know are left
  alone.  It may also be written as a list of its settings in their order, from
  which the last ones may be missing if they have a default.  A setting of the wrong
  type or out of its range makes the whole document unreadable, and so does a
  missing setting without a default.
-/
import KnowledgeSearch.Config.Basic
import KnowledgeSearch.Toml.Value

namespace KnowledgeSearch

namespace Toml

/-! ### Plain settings -/

def toString? : Toml → Option String
  | .string s => some s
  | _ => none

def toBool? : Toml → Option Bool
  | .boolean b => some b
  | _ => none

def toCount? (bound : Nat) : Toml → Option Nat
  | .integer n => if 0 ≤ n ∧ n < bound then some n.toNat else none
  | _ => none

def toUInt32? (value : Toml) : Option UInt32 := (value.toCount? UInt32.size).map UInt32.ofNat

def toUInt64? (value : Toml) : Option UInt64 := (value.toCount? UInt64.size).map UInt64.ofNat

/-- A weight; it may be written as an integer. -/
def toSingle? : Toml → Option Single
  | .float x => some x.toSingle
  | .integer n =>
    if -0x8000000000000000 ≤ n ∧ n < 0x10000000000000000 then some (Binary.ofInt n) else none
  | _ => none

def toListOf? {α : Type} (item? : Toml → Option α) : Toml → Option (List α)
  | .array items => items.mapM item?
  | _ => none

/-- One of several names, alone or as the only key of a table with nothing in it. -/
def toName? : Toml → Option String
  | .string s => some s
  | .table [(key, .table [])] => some key
  | .table [(key, .array [])] => some key
  | _ => none

def toChoice? {α : Type} (name : α → String) (choices : List α) (value : Toml) : Option α :=
  value.toName?.bind fun text => choices.find? fun choice => name choice = text

/-! ### Records -/

/-- Whether a value can be a record.  A date is one without any of the settings. -/
def isRecord : Toml → Bool
  | .table _ | .array _ | .datetime _ => true
  | _ => false

/-- A setting of a record, by its key or by its position. -/
def setting? (key : String) (position : Nat) : Toml → Option Toml
  | .table entries => entries.lookup key
  | .array items => items[position]?
  | _ => none

/-- A setting that must be there. -/
def required? {α : Type} (read? : Toml → Option α) (key : String) (position : Nat)
    (record : Toml) : Option α :=
  (record.setting? key position).bind read?

def optional? {α : Type} (read? : Toml → Option α) (default : α) (key : String)
    (position : Nat) (record : Toml) : Option α :=
  match record.setting? key position with
  | none => some default
  | some value => read? value

end Toml

/-! ### The records of a configuration -/

namespace StorageSettings

def ofToml? (record : Toml) : Option StorageSettings := do
  guard record.isRecord
  let dialect ← record.required? (Toml.toChoice? Dialect.name [.lite, .postgres]) "dialect" 0
  let dsn ← record.required? Toml.toString? "dsn" 1
  let maxConnections ← record.required? Toml.toUInt32? "pool_max_conns" 2
  let acquireTimeoutMs ← record.optional? Toml.toUInt64? 5000 "acquire_timeout_ms" 3
  let statementTimeoutMs ←
    record.optional? (fun v => v.toUInt64?.map some) none "statement_timeout_ms" 4
  let vectorExtension ←
    record.optional? (fun v => v.toString?.map some) none "vector_extension" 5
  some { dialect, dsn, maxConnections, acquireTimeoutMs, statementTimeoutMs, vectorExtension }

end StorageSettings

namespace HybridSettings

def ofToml? (record : Toml) : Option HybridSettings := do
  guard record.isRecord
  let textWeight ← record.required? Toml.toSingle? "text_weight" 0
  let vectorWeight ← record.required? Toml.toSingle? "vector_weight" 1
  let textSearchConfig ←
    record.optional? Toml.toString? defaultTextSearchConfig "text_search_config" 2
  let calibrationK ← record.optional? Toml.toUInt32? defaultCalibrationK "calibration_k" 3
  let calibrationGrid ←
    record.optional? (Toml.toListOf? Toml.toSingle?) defaultCalibrationGrid "calibration_grid" 4
  some { textWeight, vectorWeight, textSearchConfig, calibrationK, calibrationGrid }

end HybridSettings

namespace CacheSettings

def ofToml? (record : Toml) : Option CacheSettings := do
  guard record.isRecord
  let enabled ← record.optional? Toml.toBool? default.enabled "enabled" 0
  let ttlSecs ← record.optional? Toml.toUInt64? default.ttlSecs "ttl_secs" 1
  let maxEntries ← record.optional? Toml.toUInt64? default.maxEntries "max_entries" 2
  some { enabled, ttlSecs, maxEntries }

end CacheSettings

namespace SearchSettings

def ofToml? (record : Toml) : Option SearchSettings := do
  guard record.isRecord
  let maxLimit ← record.required? Toml.toUInt32? "max_limit" 0
  let maxCandidates ←
    record.optional? Toml.toUInt32? defaultMaxCandidates "max_candidates" 1
  let hybrid ← record.required? HybridSettings.ofToml? "hybrid" 2
  let cache ← record.optional? CacheSettings.ofToml? .default "cache" 3
  some { maxLimit, maxCandidates, hybrid, cache }

end SearchSettings

namespace IndexSettings

def ofToml? (record : Toml) : Option IndexSettings := do
  guard record.isRecord
  let kind ←
    record.optional? (Toml.toChoice? IndexPreference.name [.auto, .ivf, .hnsw]) default.kind
      "kind" 0
  let metric ←
    record.optional? (Toml.toChoice? Metric.name [.cosine, .l2, .innerProduct]) default.metric
      "metric" 1
  let hnswM ← record.optional? Toml.toUInt32? default.hnswM "hnsw_m" 2
  let hnswEfConstruction ←
    record.optional? Toml.toUInt32? default.hnswEfConstruction "hnsw_ef_construction" 3
  let hnswMinRows ← record.optional? Toml.toUInt64? default.hnswMinRows "hnsw_min_rows" 4
  some { kind, metric, hnswM, hnswEfConstruction, hnswMinRows }

end IndexSettings

namespace Table

/-- The filter columns of a table, in the order of their names. -/
def filtersOfToml? : Toml → Option (Keyed FilterKind)
  | .table entries => do
    let kinds ← entries.mapM fun (column, value) => do
      let kind ← value.toChoice? FilterKind.name [.integer, .float, .text, .boolean, .json]
      some (column, kind)
    some (Keyed.ofList kinds)
  | _ => none

def ofToml? (record : Toml) : Option Table := do
  guard record.isRecord
  let name ← record.required? Toml.toString? "name" 0
  let primaryKey ← record.required? Toml.toString? "primary_key" 1
  let columns ← record.required? (Toml.toListOf? Toml.toString?) "columns" 2
  let embeddingColumn ← record.required? Toml.toString? "embedding_column" 3
  let embeddingDim ← record.required? Toml.toUInt32? "embedding_dim" 4
  let textFields ← record.optional? (Toml.toListOf? Toml.toString?) [] "text_fields" 5
  let filters ← record.optional? filtersOfToml? [] "filters" 6
  some { name, primaryKey, columns, embeddingColumn, embeddingDim, textFields, filters }

end Table

namespace Config

/-- The only setting of the service record. -/
def logLevelOfToml? (record : Toml) : Option String := do
  guard record.isRecord
  record.required? Toml.toString? "log_level" 0

/-- The settings that a document holds, before they are checked. -/
def ofToml? (record : Toml) : Option Config := do
  guard record.isRecord
  let logLevel ← record.required? logLevelOfToml? "service" 0
  let storage ← record.required? StorageSettings.ofToml? "storage" 1
  let search ← record.required? SearchSettings.ofToml? "search" 2
  let index ← record.optional? IndexSettings.ofToml? .default "index" 3
  let tables ← record.optional? (Toml.toListOf? Table.ofToml?) [] "tables" 4
  some { logLevel, storage, search, index, tables }

end Config

end KnowledgeSearch
