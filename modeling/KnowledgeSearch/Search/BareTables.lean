/-
  KnowledgeSearch/Search/BareTables.lean
  ======================================
  **Databases of bare tables.**

  The smallest databases that a service can work on: their tables have the configured
  columns, their rows are numbered from 1 and have an embedding, and hold nothing
  else.  Such a database has no functions on vectors, so a statement that measures a
  distance fails, and so does one that names a table or a column that is not there.  A
  search for text can find the numbers of the rows.
-/
import KnowledgeSearch.Search.Program
import KnowledgeSearch.Sql.Evaluation
import KnowledgeSearch.Sql.Keyword

namespace KnowledgeSearch

/-! ### The columns of a condition -/

namespace Predicate

/-- The columns that the condition of a leaf names. -/
def leafColumns (d : Dialect) (leaf : Leaf) : List String :=
  if !d.supports leaf.test.operator then []
  else
    match leaf.test with
    | .membership _ [] => []
    | _ => [leaf.field.column]

mutual

/-- The columns that the condition of a predicate names in a dialect. -/
def conditionColumns (d : Dialect) : Predicate → List String
  | .leaf l => leafColumns d l
  | .all children => allConditionColumns d children
  | .any children =>
    if (outcomes d children).any Outcome.isAlways then [] else allConditionColumns d children
  | .not child => conditionColumns d child

def allConditionColumns (d : Dialect) : List Predicate → List String
  | [] => []
  | child :: children => conditionColumns d child ++ allConditionColumns d children

end

end Predicate

/-! ### Rows -/

/-- The cells of a row by the names of their columns. -/
abbrev NamedCells := List (String × Cell)

namespace NamedCells

/-- Whether two names are the same; the case of letters does not count. -/
def sameName (a b : String) : Bool := a.toLower == b.toLower

/-- The first cell of a name, with the name as it is kept. -/
def find? (cells : NamedCells) (name : String) : Option (String × Cell) :=
  List.find? (fun (column, _) => sameName column name) cells

def cell? (cells : NamedCells) (name : String) : Option Cell := (find? cells name).map Prod.snd

def add (name : String) (cell : Cell) (cells : NamedCells) : NamedCells :=
  cells ++ [(if (cells.cell? name).isSome then name ++ ":1" else name, cell)]

def toRow (cells : NamedCells) : Row :=
  Keyed.ofList (cells.map fun (name, cell) => (name, cell.toJson))

end NamedCells

/-- A table whose rows have numbers and embeddings only. -/
structure BareTable where
  table : Table
  rows : Nat

namespace BareTable

def number (row : Nat) : Cell := .integer (Int64.ofNat row)

def cells (t : BareTable) (row : Nat) : NamedCells :=
  (t.table.columns.map fun column =>
    (column, if column = t.table.primaryKey then number row else .null)) ++
    [(t.table.embeddingColumn, .text "[]")]

def numbers (t : BareTable) : List Nat := List.range' 1 t.rows

/-- The cell of a column in a row; a table has it for every row or for none. -/
def cell (t : BareTable) (column : String) (row : Nat) : Cell :=
  ((t.cells row).cell? column).getD .null

def hasColumn (t : BareTable) (name : String) : Bool := ((t.cells 1).cell? name).isSome

/-- The first of some names that cannot be asked for: no column has it, or it is a word
    with a meaning of its own. -/
def unknownColumn? (t : BareTable) (names : List String) : Option String :=
  names.find? fun name => Keyword.isReserved name || !t.hasColumn name

/-- How many rows have a value in a column. -/
def countPresent (t : BareTable) (column : String) : Nat :=
  t.numbers.countP fun row => t.cell column row != .null

/-- How many rows have a certain value in a column. -/
def countEqual (t : BareTable) (column : String) (value : Cell) : Nat :=
  t.numbers.countP fun row => (t.cell column row).compare? value == some .eq

/-! ### Conditions -/

/-- The names that stand for the number of a row in any table. -/
def rowNumberNames : List String := ["rowid", "oid", "_rowid_"]

/-- The names that are values themselves. -/
def constants : NamedCells := [("true", .integer 1), ("false", .integer 0), ("null", .null)]

/-- What a name stands for in a condition on a row: a column, the number of the row, a
    computed value or a constant. -/
def operand? (t : BareTable) (computed : NamedCells) (row : Nat) (name : String) :
    Option Operand :=
  if Keyword.isReserved name then none
  else
    match (t.cells row).cell? name with
    | some cell => some ⟨cell, false⟩
    | none =>
      if rowNumberNames.any (NamedCells.sameName name) then some ⟨number row, true⟩
      else ((computed ++ constants).cell? name).map fun cell => ⟨cell, false⟩

/-- What fields stand for in a row.  No value is an object, so nothing is found inside
    one. -/
def scope (t : BareTable) (computed : NamedCells) (row : Nat) : Scope := fun field =>
  if field.isJsonPath then ⟨.null, false⟩
  else (t.operand? computed row field.column).getD ⟨.null, false⟩

/-- The first name in the condition of a filter that stands for nothing. -/
def unknownName? (t : BareTable) (computed : NamedCells) (filter : Option Predicate) :
    Option String :=
  match filter with
  | none => none
  | some predicate =>
    if ((predicate.outcome .lite).condition?).isNone then none
    else (predicate.conditionColumns .lite).find? fun name => (t.operand? computed 1 name).isNone

/-! ### Candidates -/

/-- The text rank of a row: 1 if the query is in one of the fields, or else 0. -/
def rank (t : BareTable) (search : CandidateRows) (row : Nat) : Double :=
  let pattern := ((Cell.ofParameter (Dialect.lite.textQuery search.query)).toText?).getD ""
  let isIn := fun (field : String) =>
    Like.holds (some '\\') pattern ((t.cell field row).toText?.getD "")
  if search.textFields.any isIn then Binary.ofNat 1 else Binary.ofNat 0

/-- What a search computes for a row. -/
def computed (t : BareTable) (search : CandidateRows) (row : Nat) : NamedCells :=
  [("text_rank", .real (t.rank search row)), ("distance", .null)]

/-- The columns that a search asks for in a row.  A column named like a truth value is
    known by its place instead. -/
def selected (t : BareTable) (search : CandidateRows) (row : Nat) : NamedCells :=
  (search.table.columns.filterMap (t.cells row).find?).mapIdx fun place (name, cell) =>
    (if Keyword.isTruthValue name then "column" ++ toString (place + 1) else name, cell)

/-- The columns that a search asks for in a row, with what it computes for it. -/
def scored (t : BareTable) (search : CandidateRows) (row : Nat) : NamedCells :=
  (t.computed search row).foldl (fun cells (name, cell) => cells.add name cell)
    (t.selected search row)

/-- Whether the filter of a search lets a row through. -/
def passes (t : BareTable) (search : CandidateRows) (row : Nat) : Bool :=
  match search.filter with
  | some predicate => predicate.admits (t.scope (t.computed search row) row)
  | none => true

/-- The rows whose keys are among some keys, rows and keys being in the same order. -/
def withKeys (keyOf : NamedCells → Cell) : List NamedCells → List Cell → List NamedCells
  | row :: rows, key :: keys =>
    match (keyOf row).compare? key with
    | some .eq => row :: withKeys keyOf rows (key :: keys)
    | some .gt => withKeys keyOf (row :: rows) keys
    | _ => withKeys keyOf rows (key :: keys)
  | _, _ => []
termination_by rows keys => rows.length + keys.length

/-- The candidates of a search for text, in the order of their keys.  Of the rows that it
    ranks above zero the best ones are chosen; candidates are the rows with their keys. -/
def candidates (t : BareTable) (search : CandidateRows) : List NamedCells :=
  let keyOf := fun (cells : NamedCells) =>
    ((cells ++ constants).cell? search.table.primaryKey).getD .null
  let rankOf := fun (cells : NamedCells) => (cells.cell? "text_rank").getD .null
  let inKeyOrder := fun (a b : NamedCells) => ((keyOf a).compare? (keyOf b) != some .gt : Bool)
  let inRankOrder := fun (a b : NamedCells) => ((rankOf a).compare? (rankOf b) != some .lt : Bool)
  let rows := ((t.numbers.filter (t.passes search)).map (t.scored search)).mergeSort inKeyOrder
  let ranked := rows.filter fun cells => (rankOf cells).compare? (.integer 0) == some .gt
  let chosen := (ranked.mergeSort inRankOrder).take search.cap.toNat
  withKeys keyOf rows ((chosen.mergeSort inKeyOrder).map keyOf)

end BareTable

/-! ### Databases -/

structure BareDatabase where
  tables : List BareTable
  readOnly : Bool

namespace BareDatabase

def empty : BareDatabase := ⟨[], false⟩

def failure (statement : TableStatement) (cause : String) : StorageError :=
  .ofStatement (statement.toQuery .lite) ("error returned from database: " ++ cause)

/-- The failure of a statement that names a column which is not there. -/
def noColumn (statement : TableStatement) (name : String) : StorageError :=
  failure statement ("(code: 1) no such column: " ++ name)

/-- The table of a name, which must have some columns. -/
def table (db : BareDatabase) (statement : TableStatement) (name : String)
    (columns : List String) : Except StorageError BareTable :=
  match db.tables.find? fun t => NamedCells.sameName t.table.name name with
  | none => .error (failure statement ("(code: 1) no such table: " ++ name))
  | some t =>
    match t.unknownColumn? columns with
    | some column => .error (noColumn statement column)
    | none => .ok t

/-- Stops at a name that a filter cannot ask for. -/
def checkFilter (statement : TableStatement) (t : BareTable) (computed : NamedCells)
    (filter : Option Predicate) : Except StorageError Unit :=
  match t.unknownName? computed filter with
  | some name => .error (noColumn statement name)
  | none => .ok ()

def noDistance (statement : TableStatement) : StorageError :=
  failure statement "(code: 1) no such function: vec_distance"

/-- What a search for candidates calls its rows; no table of that name can be searched. -/
def scoredName : String := "scored"

def execute (db : BareDatabase) (statement : TableStatement) :
    Except StorageError QueryOutput := do
  match statement with
  | .nearest search =>
    let table := search.table
    let t ← db.table statement table.name (table.embeddingColumn :: table.columns)
    checkFilter statement t [("distance", .null)] search.filter
    throw (noDistance statement)
  | .candidates search =>
    let t ← db.table statement search.table.name search.table.columns
    checkFilter statement t (t.computed search 1) search.filter
    if NamedCells.sameName t.table.name scoredName then
      throw (failure statement ("(code: 1) circular reference: " ++ scoredName))
    else if search.distance.isSome then throw (noDistance statement)
    else if (search.rank? .lite).isNone then pure (.rows [])
    else pure (.rows ((t.candidates search).map NamedCells.toRow))
  | .countEmbedded table =>
    let t ← db.table statement table.name [table.embeddingColumn]
    pure (.rows [[("n", .ofNat (t.countPresent table.embeddingColumn))]])
  | .storeEmbedding table key _ =>
    let t ← db.table statement table.name [table.primaryKey]
    if !t.hasColumn table.embeddingColumn then throw (noColumn statement table.embeddingColumn)
    else if db.readOnly then
      throw (failure statement "(code: 8) attempt to write a readonly database")
    else pure (.affected (t.countEqual table.primaryKey (.ofParameter key.toParameter)))
  | .dropIndex _ => pure (.affected 0)
  | .createIndex _ => throw (failure statement "(code: 1) near \"USING\": syntax error")

/-- Executes statements in one transaction. -/
def executeBatch (db : BareDatabase) : List TableStatement → Except StorageError Nat
  | [] => .ok 0
  | statement :: statements => do
    let output ← db.execute statement
    let others ← db.executeBatch statements
    pure (output.count + others)

/-- The database as a backend.  No statement changes what a later one can tell. -/
def backend : Backend BareDatabase where
  execute := fun statement _ db => (db.execute statement, db)
  executeBatch := fun statements db => (db.executeBatch statements, db)

end BareDatabase

end KnowledgeSearch
