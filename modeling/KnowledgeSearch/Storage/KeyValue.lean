/-
  KnowledgeSearch/Storage/KeyValue.lean
  =====================================
  **A key-value table behind a connection.**

  The table `kv` has an integer key and a value of any type.  Statements on it are
  run one by one or in batches; each run is one transaction, so a batch whose
  statement fails leaves the table as it was and reports that statement.  After the
  connection is closed nothing runs any more.
-/
import KnowledgeSearch.Sql.Cell
import KnowledgeSearch.Storage.Error

namespace KnowledgeSearch.KeyValue

/-! ### The table -/

/-- The contents of the table: keys in ascending order, each once. -/
abbrev Store := List (Int64 × Cell)

namespace Store

def get? (store : Store) (key : Int64) : Option Cell := store.lookup key

def insert (key : Int64) (cell : Cell) : Store → Store
  | [] => [(key, cell)]
  | (k, c) :: rest =>
    if key < k then (key, cell) :: (k, c) :: rest else (k, c) :: insert key cell rest

def update (key : Int64) (cell : Cell) (store : Store) : Store :=
  store.map fun (k, c) => if k = key then (k, cell) else (k, c)

def erase (key : Int64) (store : Store) : Store := store.filter fun (k, _) => k != key

def startingAt (key : Int64) (store : Store) : Store := store.filter fun (k, _) => key ≤ k

end Store

/-! ### Statements -/

/-- A statement that changes the table. -/
inductive Write where
  | put (key : Int64) (value : Parameter)
  | set (key : Int64) (value : Parameter)
  | delete (key : Int64)
  /-- An insertion into a table that does not exist. -/
  | putElsewhere (key : Int64) (value : Parameter)

inductive Read where
  /-- The entries from a key on, in ascending order. -/
  | range (key : Int64)
  /-- The bound values themselves. -/
  | echo (values : List Parameter)
  /-- A bound value cast to bytes. -/
  | echoBlob (value : Parameter)

namespace Write

/-- The text and the parameters of a statement. -/
def query : Write → Query
  | .put key value => ⟨"INSERT INTO kv (k, v) VALUES (?, ?)", [.int key, value]⟩
  | .set key value => ⟨"UPDATE kv SET v = ? WHERE k = ?", [value, .int key]⟩
  | .delete key => ⟨"DELETE FROM kv WHERE k = ?", [.int key]⟩
  | .putElsewhere key value =>
    ⟨"INSERT INTO missing_table (k, v) VALUES (?, ?)", [.int key, value]⟩

/-- What a statement does: the number of affected rows and the table after it, or
    the cause of its failure. -/
def apply (store : Store) : Write → Except String (Nat × Store)
  | .put key value =>
    if (store.get? key).isSome then
      .error "error returned from database: (code: 1555) UNIQUE constraint failed: kv.k"
    else .ok (1, store.insert key (.ofParameter value))
  | .set key value =>
    if (store.get? key).isSome then .ok (1, store.update key (.ofParameter value))
    else .ok (0, store)
  | .delete key =>
    if (store.get? key).isSome then .ok (1, store.erase key) else .ok (0, store)
  | .putElsewhere _ _ =>
    .error "error returned from database: (code: 1) no such table: missing_table"

end Write

namespace Read

def rowOf (entry : Int64 × Cell) : Row :=
  [("k", .ofInt entry.1.toInt), ("v", entry.2.toJson)]

def echoName (position : Nat) : String := "c" ++ toString position

def echoRow (cells : List Cell) : Row :=
  Keyed.ofList (cells.zipIdx.map fun (cell, position) => (echoName position, cell.toJson))

/-- The text and the parameters of a statement. -/
def query : Read → Query
  | .range key => ⟨"SELECT k, v FROM kv WHERE k >= ? ORDER BY k", [.int key]⟩
  | .echo values =>
    let columns := (List.range values.length).map fun position => "? AS " ++ echoName position
    ⟨"SELECT " ++ ", ".intercalate columns, values⟩
  | .echoBlob value => ⟨"SELECT CAST(? AS BLOB) AS " ++ echoName 0, [value]⟩

/-- The rows that a statement gives, or the cause of its failure: a statement asks for
    something. -/
def rows (store : Store) : Read → Except String (List Row)
  | .range key => .ok ((store.startingAt key).map rowOf)
  | .echo [] => .error "error returned from database: (code: 1) incomplete input"
  | .echo values => .ok [echoRow (values.map Cell.ofParameter)]
  | .echoBlob value => .ok [echoRow [(Cell.ofParameter value).toBlob]]

end Read

/-! ### Transactions -/

/-- A transaction: the table as it was found, and as the statements so far leave it. -/
structure Transaction where
  found : Store
  current : Store

namespace Transaction

def start (store : Store) : Transaction := ⟨store, store⟩

/-- The table after all statements. -/
def commit (t : Transaction) : Store := t.current

/-- The table after none of them. -/
def rollback (t : Transaction) : Store := t.found

/-- Runs statements in order until one fails; gives the number of rows that each of
    them affected. -/
def runAll (t : Transaction) : List Write → Except StorageError (List Nat) × Transaction
  | [] => (.ok [], t)
  | write :: writes =>
    match write.apply t.current with
    | .error cause => (.error (.ofStatement write.query cause), t)
    | .ok (count, store) =>
      match runAll { t with current := store } writes with
      | (.error e, t) => (.error e, t)
      | (.ok counts, t) => (.ok (count :: counts), t)

end Transaction

/-! ### Connections -/

/-- A connection and the table behind it. -/
structure Connection where
  store : Store
  closed : Bool

namespace Connection

def new : Connection := ⟨[], false⟩

def closedError : StorageError :=
  .ofAcquire "attempted to acquire a connection on a closed pool"

/-- Runs statements as one transaction, counting affected rows. -/
def executeBatch (connection : Connection) (writes : List Write) :
    Except StorageError Nat × Connection :=
  if connection.closed then (.error closedError, connection)
  else
    match (Transaction.start connection.store).runAll writes with
    | (.error e, t) => (.error e, { connection with store := t.rollback })
    | (.ok counts, t) => (.ok (counts.foldl (· + ·) 0), { connection with store := t.commit })

/-- Runs one statement that changes the table. -/
def executeWrite (connection : Connection) (write : Write) :
    Except StorageError QueryOutput × Connection :=
  let (outcome, connection) := connection.executeBatch [write]
  (outcome.map QueryOutput.affected, connection)

def executeRead (connection : Connection) (read : Read) (mode : FetchMode) :
    Except StorageError QueryOutput :=
  if connection.closed then .error closedError
  else
    match read.rows connection.store with
    | .error cause => .error (.ofStatement read.query cause)
    | .ok rows =>
      match mode with
      | .rows => .ok (.rows rows)
      | .first => .ok (.rows (rows.take 1))
      | .affected => .ok (.affected 0)

def close (connection : Connection) : Connection := { connection with closed := true }

end Connection

end KnowledgeSearch.KeyValue
