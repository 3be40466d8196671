/-
  KnowledgeSearch/Search/Catalog.lean
  ===================================
  **The catalog of tables and what filters may ask of them.**

  A filter reaches a table only through the columns that the table lists.  A leaf
  on another column, or one that asks for what its column is not, is dropped, and so
  are negations and groups left with nothing; a group that was written empty stays,
  since no row satisfies it.
-/
import KnowledgeSearch.Search.Coercion
import KnowledgeSearch.Search.Error
import KnowledgeSearch.Sql.Condition

namespace KnowledgeSearch

/-! ### Restriction -/

/-- A test as a column of the given type can be asked it. -/
def Test.restrict? (kind : FilterKind) (test : Test) : Option Test :=
  match test with
  | .compare comparison value =>
    if comparison.isPattern && kind != .text then none
    else (kind.coerce? value).map (.compare comparison)
  | .membership negated values => (values.mapM kind.coerce?).map (.membership negated)
  | other => some other

def Leaf.restrict? (table : Table) (leaf : Leaf) : Option Leaf :=
  match table.filterKind? leaf.field.column with
  | none => none
  | some .json => some leaf
  | some kind =>
    if leaf.field.isJsonPath || leaf.test.operator.isJson then none
    else (leaf.test.restrict? kind).map (Leaf.mk leaf.field)

namespace Predicate

/-- The children of a group that are left, unless dropping them emptied the group. -/
def leftOver? (children kept : List Predicate) : Option (List Predicate) :=
  if kept.isEmpty && !children.isEmpty then none else some kept

mutual

/-- A predicate as a table can be asked it. -/
def restrict? (table : Table) : Predicate → Option Predicate
  | .leaf l => (l.restrict? table).map .leaf
  | .all children => (leftOver? children (restrictAll table children)).map .all
  | .any children => (leftOver? children (restrictAll table children)).map .any
  | .not child => (restrict? table child).map .not

/-- The predicates among some that a table can be asked. -/
def restrictAll (table : Table) : List Predicate → List Predicate
  | [] => []
  | child :: children =>
    match restrict? table child with
    | some kept => kept :: restrictAll table children
    | none => restrictAll table children

end

/-- Reads a filter, for a table if there is one. -/
def ofFilter (table : Option Table) (filter : Json) : Except SearchFault (Option Predicate) :=
  match Predicate.ofJson filter with
  | .error e => .error (.filter e)
  | .ok predicate =>
    match table with
    | none => .ok predicate
    | some table => .ok (predicate.bind (restrict? table))

end Predicate

/-! ### The catalog -/

/-- The tables that can be searched, by name. -/
structure Catalog where
  tables : Keyed Table
deriving DecidableEq

namespace Catalog

/-- The catalog of some tables; of several tables of one name the last counts. -/
def ofTables (tables : List Table) : Catalog :=
  ⟨Keyed.ofList (tables.map fun table => (table.name, table))⟩

def names (catalog : Catalog) : List String := catalog.tables.keys

def table (catalog : Catalog) (name : String) : Except SearchFault Table :=
  match catalog.tables.get? name with
  | some table => .ok table
  | none => .error (.unknownTable name)

/-- The condition of a filter, for a table if one is named. -/
def compile (catalog : Catalog) (d : Dialect) (tableName : Option String) (filter : Json) :
    Except SearchFault Query := do
  let table ← tableName.mapM catalog.table
  let predicate ← Predicate.ofFilter table filter
  pure (Predicate.compile d predicate)

end Catalog

end KnowledgeSearch
